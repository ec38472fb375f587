import Relayly.Lib.Run
import Mathlib.Data.List.Nodup

/-!
# Migrations that are recorded one by one

A script is a list of statements, each of which is run for itself. A run of the migrations goes
through the scripts whose versions are not recorded and records each when it has been run to its
end. It may be stopped between any two statements, and then the next run starts over.

A script that takes up where it was stopped does no harm. One whose first statement cannot be run
again is lost once it is stopped (`Plan.migrates_iff`): every later run ends at that statement.
-/

namespace Migrate

variable {σ Q : Type*}

structure Migration (Q : Type*) where
  version : ℕ
  script : List Q

/-- What the scripts work on, and the table of recorded versions, if it is there. -/
structure Db (σ : Type*) where
  content : σ
  applied : Option (List ℕ)

/-- Where a run stands: in the script of `version`, of which it has run `count` statements, one at
least, or not in a script. -/
inductive Progress
  | between
  | inside (version count : ℕ)
  deriving DecidableEq, Repr

namespace Db

/-- The recorded versions. -/
def versions (db : Db σ) : List ℕ := db.applied.getD []

def record (db : Db σ) (version : ℕ) : Db σ :=
  if version ∈ db.versions then db else { db with applied := some (db.versions ++ [version]) }

end Db

section

variable (exec : σ → Q → Option σ)

/-- What a script goes through, statement by statement, and what it ends with, if none fails. -/
def scriptStates : List Q → σ → List σ × Option σ
  | [], c => ([], some c)
  | q :: qs, c =>
    match exec c q with
    | none => ([], none)
    | some c' => (c' :: (scriptStates qs c').1, (scriptStates qs c').2)

/-- The states inside the script of `version`. -/
def insideStates (db : Db σ) (version : ℕ) (cs : List σ) : List (Db σ × Progress) :=
  cs.mapIdx fun i c => ({ db with content := c }, .inside version (i + 1))

/-- What the loop over the migrations goes through, and what it ends with, if no statement fails:
the query for the version, its script if it is not recorded, and the record. -/
def loopStates : List (Migration Q) → Db σ → List (Db σ × Progress) × Option (Db σ)
  | [], db => ([], some db)
  | m :: ms, db =>
    if m.version ∈ db.versions then
      ((db, .between) :: (loopStates ms db).1, (loopStates ms db).2)
    else
      let (cs, r) := scriptStates exec m.script db.content
      match r with
      | none => ((db, .between) :: insideStates db m.version cs, none)
      | some c =>
        let db' := { db with content := c }.record m.version
        ((db, .between) :: insideStates db m.version cs ++ (db', .between) :: (loopStates ms db').1,
          (loopStates ms db').2)

variable (ms : List (Migration Q))

/-- The first statement makes the table of versions if it is not there. -/
def Db.begin (db : Db σ) : Db σ := { db with applied := some db.versions }

/-- Everything that a run from `db` goes through, `db` itself first. -/
def states (db : Db σ) : List (Db σ × Progress) :=
  (db, .between) :: (db.begin, .between) :: (loopStates exec ms db.begin).1

/-- A run that is not stopped; `none` where a statement fails. -/
def migrate (db : Db σ) : Option (Db σ) := (loopStates exec ms db.begin).2

/-- Where a run is left that is stopped after `n` statements, or before that by one that fails. -/
def stoppedAt (db : Db σ) (n : ℕ) : Db σ × Progress :=
  ((states exec ms db)[n]?).getD ((states exec ms db).getLast (List.cons_ne_nil _ _))

/-- One run after the other, each stopped after so many statements. -/
def attempt (db : Db σ) (n : ℕ) : Option (Db σ) := some (stoppedAt exec ms db n).1

end

/-! ## What is left behind -/

section

variable {exec : σ → Q → Option σ} {ms : List (Migration Q)}

theorem stoppedAt_mem (db : Db σ) (n : ℕ) : stoppedAt exec ms db n ∈ states exec ms db := by
  unfold stoppedAt
  rcases h : (states exec ms db)[n]? with _ | x
  · exact List.getLast_mem (List.cons_ne_nil _ _)
  · exact List.mem_of_getElem? h

theorem exists_of_mem_insideStates {db : Db σ} {version : ℕ} {cs : List σ} {x : Db σ × Progress}
    (h : x ∈ insideStates db version cs) :
    ∃ c ∈ cs, ∃ i, x = ({ db with content := c }, .inside version (i + 1)) := by
  obtain ⟨i, hi, rfl⟩ := List.mem_mapIdx.1 h
  exact ⟨cs[i], List.getElem_mem hi, i, rfl⟩

/-- The versions that are recorded are passed over. -/
theorem loopStates_recorded {db : Db σ} (todo : List (Migration Q)) :
    ∀ done : List (Migration Q), (∀ m ∈ done, m.version ∈ db.versions) →
      loopStates exec (done ++ todo) db =
        (done.map (fun _ => (db, .between)) ++ (loopStates exec todo db).1,
          (loopStates exec todo db).2)
  | [], _ => rfl
  | m :: done, h => by
    have hm : m.version ∈ db.versions := h m (List.mem_cons_self ..)
    have ih := loopStates_recorded todo done fun m' hm' => h m' (List.mem_cons_of_mem _ hm')
    rw [List.cons_append, loopStates, if_pos hm, ih]
    rfl

/-- A script that fails at once. -/
theorem loopStates_fails {db : Db σ} {m : Migration Q} (todo : List (Migration Q))
    (hm : m.version ∉ db.versions) (hfail : scriptStates exec m.script db.content = ([], none)) :
    loopStates exec (m :: todo) db = ([(db, .between)], none) := by
  rw [loopStates, if_neg hm, hfail]
  rfl

/-- A script that runs to its end, and is recorded. -/
theorem loopStates_runs {db : Db σ} {m : Migration Q} (todo : List (Migration Q)) {c : σ}
    (hm : m.version ∉ db.versions) (hruns : (scriptStates exec m.script db.content).2 = some c) :
    let db' : Db σ := ⟨c, some (db.versions ++ [m.version])⟩
    loopStates exec (m :: todo) db =
      ((db, .between) :: insideStates db m.version (scriptStates exec m.script db.content).1 ++
        (db', .between) :: (loopStates exec todo db').1, (loopStates exec todo db').2) := by
  have hrecord : ({ db with content := c } : Db σ).record m.version =
      ⟨c, some (db.versions ++ [m.version])⟩ := if_neg hm
  rw [loopStates, if_neg hm]
  simp only [hruns, hrecord]

end

/-! ## Which stops are harmless -/

/-- What is known about the scripts: `Ready k` holds of what the first `k` of them leave behind, a
script in `resumable` can be taken up again from everything that it goes through, and one that is
not fails at its first statement there. -/
structure Plan (exec : σ → Q → Option σ) (ms : List (Migration Q)) (resumable : ℕ → Prop)
    (Ready : ℕ → σ → Prop) : Prop where
  nodup : (ms.map Migration.version).Nodup
  runs : ∀ {k m c}, ms[k]? = some m → Ready k c →
    ∃ c', (scriptStates exec m.script c).2 = some c' ∧ Ready (k + 1) c'
  resumes : ∀ {k m c}, ms[k]? = some m → Ready k c → resumable m.version →
    ∀ d ∈ (scriptStates exec m.script c).1, Ready k d
  fails : ∀ {k m c}, ms[k]? = some m → Ready k c → ¬ resumable m.version →
    ∀ d ∈ (scriptStates exec m.script c).1, scriptStates exec m.script d = ([], none)

/-- A stop outside the scripts that cannot be taken up again. -/
def Progress.Harmless (resumable : ℕ → Prop) : Progress → Prop
  | .between => True
  | .inside version _ => resumable version

instance {resumable : ℕ → Prop} [DecidablePred resumable] :
    DecidablePred (Progress.Harmless resumable)
  | .between => isTrue trivial
  | .inside version _ => inferInstanceAs (Decidable (resumable version))

section

variable (exec : σ → Q → Option σ) (ms : List (Migration Q)) (resumable : ℕ → Prop)
  (Ready : ℕ → σ → Prop)

/-- The first `k` versions are recorded, and the content is what they leave behind. -/
def UpTo (k : ℕ) (db : Db σ) : Prop :=
  k ≤ ms.length ∧ db.versions = (ms.take k).map Migration.version ∧ Ready k db.content

/-- The next script fails at its first statement. -/
def Stuck (db : Db σ) : Prop :=
  ∃ k m, ms[k]? = some m ∧ db.versions = (ms.take k).map Migration.version ∧
    scriptStates exec m.script db.content = ([], none)

/-- What a stop leaves behind: one inside a script that cannot be taken up again is for good. -/
structure Leaves (x : Db σ × Progress) : Prop where
  upTo : x.2.Harmless resumable → ∃ k, UpTo ms Ready k x.1
  stuck : ¬ x.2.Harmless resumable → Stuck exec ms x.1

end

section

variable {exec : σ → Q → Option σ} {ms : List (Migration Q)} {resumable : ℕ → Prop}
  {Ready : ℕ → σ → Prop} {db : Db σ} {k : ℕ} {m : Migration Q}

theorem version_notMem (hnodup : (ms.map Migration.version).Nodup) (hm : ms[k]? = some m)
    (hversions : db.versions = (ms.take k).map Migration.version) : m.version ∉ db.versions := by
  obtain ⟨hk, rfl⟩ := List.getElem?_eq_some_iff.1 hm
  have hsplit : ms.map Migration.version =
      (ms.take k).map Migration.version ++ (ms.drop k).map Migration.version := by
    rw [← List.map_append, List.take_append_drop]
  have hdisjoint := (List.nodup_append.1 (hsplit ▸ hnodup)).2.2
  intro hmem
  rw [hversions] at hmem
  refine hdisjoint _ hmem (ms[k]).version (List.mem_map_of_mem ?_) rfl
  rw [List.drop_eq_getElem_cons hk]
  exact List.mem_cons_self ..

theorem version_mem_of_mem_take (hversions : db.versions = (ms.take k).map Migration.version) :
    ∀ m ∈ ms.take k, m.version ∈ db.versions := fun m hm => by
  rw [hversions]
  exact List.mem_map_of_mem hm

/-- The loop passes over what is recorded. -/
theorem loopStates_upTo (hversions : db.versions = (ms.take k).map Migration.version) :
    loopStates exec ms db =
      ((ms.take k).map (fun _ => (db, .between)) ++ (loopStates exec (ms.drop k) db).1,
        (loopStates exec (ms.drop k) db).2) := by
  rw [← loopStates_recorded (ms.drop k) (ms.take k) (version_mem_of_mem_take hversions),
    List.take_append_drop]

theorem UpTo.leaves (h : UpTo ms Ready k db) : Leaves exec ms resumable Ready (db, .between) :=
  ⟨fun _ => ⟨k, h⟩, fun hharm => absurd trivial hharm⟩

theorem Plan.leaves_inside (hplan : Plan exec ms resumable Ready) (hm : ms[k]? = some m)
    (h : UpTo ms Ready k db) {x : Db σ × Progress}
    (hx : x ∈ insideStates db m.version (scriptStates exec m.script db.content).1) :
    Leaves exec ms resumable Ready x := by
  obtain ⟨hk, hversions, hready⟩ := h
  obtain ⟨c, hc, i, rfl⟩ := exists_of_mem_insideStates hx
  exact ⟨fun hres => ⟨k, hk, hversions, hplan.resumes hm hready hres c hc⟩,
    fun hres => ⟨k, m, hm, hversions, hplan.fails hm hready hres c hc⟩⟩

/-- The record of a script that has been run. -/
theorem UpTo.record (h : UpTo ms Ready k db) (hm : ms[k]? = some m) {c : σ}
    (hready : Ready (k + 1) c) :
    UpTo ms Ready (k + 1) ⟨c, some (db.versions ++ [m.version])⟩ := by
  obtain ⟨hk, rfl⟩ := List.getElem?_eq_some_iff.1 hm
  refine ⟨hk, ?_, hready⟩
  show db.versions ++ [(ms[k]).version] = (ms.take (k + 1)).map Migration.version
  rw [h.2.1, List.take_succ_eq_append_getElem hk, List.map_append]
  rfl

theorem UpTo.begin (h : UpTo ms Ready k db) : UpTo ms Ready k db.begin := h

section runs

variable (hnodup : (ms.map Migration.version).Nodup)
  (hruns : ∀ {k m c}, ms[k]? = some m → Ready k c →
    ∃ c', (scriptStates exec m.script c).2 = some c' ∧ Ready (k + 1) c')

include hnodup hruns

/-- What is left of the loop runs to its end. -/
theorem loop_of_runs : ∀ (n : ℕ) {k : ℕ} {db : Db σ}, k + n = ms.length → UpTo ms Ready k db →
    ∃ db', (loopStates exec (ms.drop k) db).2 = some db' ∧ UpTo ms Ready ms.length db'
  | 0, k, db, hn, h => by
    obtain rfl : k = ms.length := hn
    rw [List.drop_length]
    exact ⟨db, rfl, h⟩
  | n + 1, k, db, hn, h => by
    have hlt : k < ms.length := by omega
    have hm : ms[k]? = some ms[k] := List.getElem?_eq_getElem hlt
    obtain ⟨c, hc, hready⟩ := hruns hm h.2.2
    rw [List.drop_eq_getElem_cons hlt, loopStates_runs _ (version_notMem hnodup hm h.2.1) hc]
    exact loop_of_runs n (by omega) (h.record hm hready)

/-- A run that nothing stops ends with every version recorded. -/
theorem migrate_of_runs (h : UpTo ms Ready k db) :
    ∃ db', migrate exec ms db = some db' ∧ UpTo ms Ready ms.length db' := by
  obtain ⟨db', hloop, hdb'⟩ :=
    loop_of_runs hnodup hruns (ms.length - k) (by have := h.1; omega) h.begin
  refine ⟨db', ?_, hdb'⟩
  rw [migrate, loopStates_upTo h.begin.2.1, hloop]

end runs

/-- Whatever the rest of the loop goes through. -/
theorem Plan.leaves_loop (hplan : Plan exec ms resumable Ready) : ∀ (n : ℕ) {k : ℕ} {db : Db σ},
    k + n = ms.length → UpTo ms Ready k db →
      ∀ x ∈ (loopStates exec (ms.drop k) db).1, Leaves exec ms resumable Ready x
  | 0, k, db, hn, h => by
    obtain rfl : k = ms.length := hn
    rw [List.drop_length]
    simp [loopStates]
  | n + 1, k, db, hn, h => by
    have hlt : k < ms.length := by omega
    have hm : ms[k]? = some ms[k] := List.getElem?_eq_getElem hlt
    obtain ⟨c, hruns, hready⟩ := hplan.runs hm h.2.2
    have hnext := h.record hm hready
    rw [List.drop_eq_getElem_cons hlt,
      loopStates_runs _ (version_notMem hplan.nodup hm h.2.1) hruns]
    intro x hx
    simp only [List.cons_append, List.mem_cons, List.mem_append] at hx
    rcases hx with rfl | hx | rfl | hx
    · exact h.leaves
    · exact hplan.leaves_inside hm h hx
    · exact hnext.leaves
    · exact hplan.leaves_loop n (by omega) hnext x hx

theorem Plan.migrate (hplan : Plan exec ms resumable Ready) (h : UpTo ms Ready k db) :
    ∃ db', migrate exec ms db = some db' ∧ UpTo ms Ready ms.length db' :=
  migrate_of_runs hplan.nodup hplan.runs h

theorem Plan.leaves_stoppedAt (hplan : Plan exec ms resumable Ready) (h : UpTo ms Ready k db)
    (n : ℕ) : Leaves exec ms resumable Ready (stoppedAt exec ms db n) := by
  have hmem : stoppedAt exec ms db n ∈ states exec ms db := stoppedAt_mem db n
  rw [states, loopStates_upTo h.begin.2.1] at hmem
  simp only [List.mem_cons, List.mem_append, List.mem_map] at hmem
  rcases hmem with hx | hx | ⟨_, _, hx⟩ | hx
  · exact hx ▸ h.leaves
  · exact hx ▸ h.begin.leaves
  · exact hx ▸ h.begin.leaves
  · exact hplan.leaves_loop (ms.length - k) (by have := h.1; omega) h.begin _ hx

theorem Stuck.loop (hplan : Plan exec ms resumable Ready) (h : Stuck exec ms db) :
    (loopStates exec ms db).2 = none ∧ ∀ x ∈ (loopStates exec ms db).1, x.1 = db := by
  obtain ⟨k, m, hm, hversions, hfail⟩ := h
  have hnot := version_notMem hplan.nodup hm hversions
  obtain ⟨hlt, rfl⟩ := List.getElem?_eq_some_iff.1 hm
  rw [loopStates_upTo hversions, List.drop_eq_getElem_cons hlt, loopStates_fails _ hnot hfail]
  refine ⟨rfl, fun x hx => ?_⟩
  simp only [List.mem_append, List.mem_map, List.mem_singleton] at hx
  rcases hx with ⟨_, _, rfl⟩ | rfl <;> rfl

theorem Stuck.begin (h : Stuck exec ms db) : Stuck exec ms db.begin := h

theorem Stuck.migrate (hplan : Plan exec ms resumable Ready) (h : Stuck exec ms db) :
    migrate exec ms db = none :=
  (h.begin.loop hplan).1

/-- No number of further runs helps. -/
theorem Stuck.stoppedAt (hplan : Plan exec ms resumable Ready) (h : Stuck exec ms db) (n : ℕ) :
    Stuck exec ms (Migrate.stoppedAt exec ms db n).1 := by
  have hmem : Migrate.stoppedAt exec ms db n ∈ states exec ms db := stoppedAt_mem db n
  rw [states] at hmem
  simp only [List.mem_cons] at hmem
  rcases hmem with hx | hx | hx
  · exact hx ▸ h
  · exact hx ▸ h.begin
  · exact (h.begin.loop hplan).2 _ hx ▸ h.begin

theorem UpTo.not_stuck (hplan : Plan exec ms resumable Ready) (h : UpTo ms Ready k db) :
    ¬ Stuck exec ms db := fun hstuck => by
  obtain ⟨db', hdb', _⟩ := hplan.migrate h
  rw [hstuck.migrate hplan] at hdb'
  contradiction

variable (exec ms resumable) in
/-- The run is not stopped inside a script that cannot be taken up again. -/
def HarmlessStop (db : Db σ) (n : ℕ) : Prop := (stoppedAt exec ms db n).2.Harmless resumable

instance [DecidablePred resumable] (db : Db σ) (n : ℕ) :
    Decidable (HarmlessStop exec ms resumable db n) :=
  inferInstanceAs (Decidable (Progress.Harmless resumable _))

variable (exec ms Ready) in
/-- Every run finds the database as some first scripts leave it, or stuck. -/
def Known (db : Db σ) : Prop := (∃ k, UpTo ms Ready k db) ∨ Stuck exec ms db

theorem Known.attempt (hplan : Plan exec ms resumable Ready) {n : ℕ} {db' : Db σ}
    (h : Known exec ms Ready db) (hstep : attempt exec ms db n = some db') :
    Known exec ms Ready db' := by
  obtain rfl : (stoppedAt exec ms db n).1 = db' := Option.some.inj hstep
  rcases h with ⟨k, h⟩ | h
  · obtain ⟨hup, hstuck⟩ := hplan.leaves_stoppedAt h n
    by_cases hharm : HarmlessStop exec ms resumable db n
    · exact .inl (hup hharm)
    · exact .inr (hstuck hharm)
  · exact .inr (h.stoppedAt hplan n)

theorem Known.upTo_attempt_iff (hplan : Plan exec ms resumable Ready) {n : ℕ} {db' : Db σ}
    (h : Known exec ms Ready db) (hstep : Migrate.attempt exec ms db n = some db') :
    (∃ k, UpTo ms Ready k db') ↔
      (∃ k, UpTo ms Ready k db) ∧ HarmlessStop exec ms resumable db n := by
  obtain rfl : (stoppedAt exec ms db n).1 = db' := Option.some.inj hstep
  constructor
  · rintro ⟨k', hk'⟩
    rcases h with hup | h
    · obtain ⟨k, hk⟩ := hup
      exact ⟨⟨k, hk⟩, not_not.1 fun hharm =>
        hk'.not_stuck hplan ((hplan.leaves_stoppedAt hk n).stuck hharm)⟩
    · exact absurd (h.stoppedAt hplan n) (hk'.not_stuck hplan)
  · rintro ⟨⟨k, hk⟩, hharm⟩
    exact (hplan.leaves_stoppedAt hk n).upTo hharm

/-- However the runs before it were stopped, a run that ends has recorded every version. -/
theorem Plan.upTo_of_migrate (hplan : Plan exec ms resumable Ready) (h : UpTo ms Ready k db)
    {stops : List ℕ} {t t' : Db σ} (hrun : Lts.run (attempt exec ms) db stops = some t)
    (ht' : Migrate.migrate exec ms t = some t') :
    (∃ k, UpTo ms Ready k t) ∧ UpTo ms Ready ms.length t' := by
  have hknown : Known exec ms Ready db := .inl ⟨k, h⟩
  rcases Lts.run_inv_of_step (fun _ _ _ hs => hs.attempt hplan) stops hknown hrun with
    ⟨k', hk'⟩ | hstuck
  · obtain ⟨t'', ht'', hup⟩ := hplan.migrate hk'
    obtain rfl : t'' = t' := Option.some.inj (ht''.symm.trans ht')
    exact ⟨⟨k', hk'⟩, hup⟩
  · rw [hstuck.migrate hplan] at ht'
    contradiction

/-- After any number of runs that were stopped, one that is not comes to its end exactly if each
stop was harmless. -/
theorem Plan.migrates_iff (hplan : Plan exec ms resumable Ready) (h : UpTo ms Ready k db)
    {stops : List ℕ} {t : Db σ} (hrun : Lts.run (attempt exec ms) db stops = some t) :
    (∃ t', Migrate.migrate exec ms t = some t') ↔
      Lts.Meets (attempt exec ms) (HarmlessStop exec ms resumable) db stops := by
  have hiff := Lts.run_iff (I := Known exec ms Ready) (fun _ _ _ hs => hs.attempt hplan)
    (fun _ _ _ hs => hs.upTo_attempt_iff hplan) stops (.inl ⟨k, h⟩) hrun
  rw [and_iff_right ⟨k, h⟩] at hiff
  rw [← hiff]
  constructor
  · rintro ⟨t', ht'⟩
    exact (hplan.upTo_of_migrate h hrun ht').1
  · rintro ⟨k', hk'⟩
    obtain ⟨t', ht', -⟩ := hplan.migrate hk'
    exact ⟨t', ht'⟩

end

end Migrate
