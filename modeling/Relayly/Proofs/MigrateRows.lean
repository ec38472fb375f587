import Relayly.Proofs.Migrations

/-!
# What a migration makes of a row

A migration that is not stopped runs the scripts whose versions are not recorded, each one once, so
what becomes of a row depends on the version of the file alone (`upgraded`). Once the three versions
are recorded no `Open` changes anything, whatever has been written since.
-/

namespace Relayly.Database

/-- What the scripts from version `k` to version `n` make of a row. -/
def upgraded (k n : ℕ) (row : Values) : Values :=
  let row := if k < 2 ∧ 2 ≤ n then row2 row else row
  if k < 3 ∧ 3 ≤ n then row3 row else row

/-- The rows of a file of version `k` when it has come to version `n`. -/
structure Upgraded (k : ℕ) (old : Content) (n : ℕ) (c : Content) : Prop where
  le : k ≤ n
  hasSchema : HasSchema n c
  rows : c.rows = old.rows.map (upgraded k n)

variable {k n : ℕ} {old c : Content}

lemma upgraded_self : upgraded k k = id := by
  funext row
  have h3 : ¬(k < 3 ∧ 3 ≤ k) := by omega
  simp [upgraded, h3]

lemma upgraded_one : upgraded k 1 = upgraded k 0 := by
  funext row
  simp [upgraded]

lemma upgraded_two (hk : k ≤ 1) : upgraded k 2 = row2 ∘ upgraded k 1 := by
  funext row
  simp [upgraded, show k < 2 by omega]

lemma upgraded_three (hk : k ≤ 2) : upgraded k 3 = row3 ∘ upgraded k 2 := by
  funext row
  simp [upgraded, show k < 3 by omega]

/-- Each script takes the rows one version further. -/
lemma Upgraded.runs {m : Migrate.Migration Stmt} (hm : migrations[n]? = some m)
    (h : Upgraded k old n c) :
    ∃ c', (Migrate.scriptStates exec m.script c).2 = some c' ∧ Upgraded k old (n + 1) c' := by
  match n with
  | 0 =>
    obtain rfl := Option.some.inj hm
    obtain ⟨c', hruns, hschema, hrows⟩ := h.hasSchema.migration1SQL
    exact ⟨c', hruns, Nat.le_succ_of_le h.le, hschema, by rw [hrows, h.rows, upgraded_one]⟩
  | 1 =>
    obtain rfl := Option.some.inj hm
    obtain ⟨c', hruns, hschema, hrows⟩ := h.hasSchema.migration2SQL
    exact ⟨c', hruns, Nat.le_succ_of_le h.le, hschema, by
      rw [hrows, h.rows, List.map_map, upgraded_two h.le]⟩
  | 2 =>
    obtain rfl := Option.some.inj hm
    obtain ⟨c', hruns, hschema, hrows⟩ := h.hasSchema.migration3SQL
    exact ⟨c', hruns, Nat.le_succ_of_le h.le, hschema, by
      rw [hrows, h.rows, List.map_map, upgraded_three h.le]⟩

/-- The key that a device of version 2 or earlier is taken to have announced: none if its
`public_key` is empty. -/
def announced (publicKey : Option String) : Option String := publicKey.filter (· ≠ "")

/-- The column of the token at version `k`. -/
def tokenAt (k : ℕ) : Column := if k < 3 then .pairToken else .deviceToken

/-- A row of version 3 that carries on a row of version `k`. -/
structure Carried (k : ℕ) (row row' : Values) : Prop where
  same : ∀ col ∈ [Column.id, .name, .publicKey, .pairedWith, .createdAt, .lastSeen],
    row' col = row col
  deviceToken : row' .deviceToken = row (tokenAt k)
  expiresAt : row' .expiresAt = if k < 2 then none else row .expiresAt
  staticKey : row' .staticKey = if k < 3 then announced (row .publicKey) else row .staticKey

lemma row3_staticKey (row : Values) : row3 row .staticKey = announced (row .publicKey) := by
  have hkey : widened row .publicKey = row .publicKey := rfl
  unfold row3 copyPublicKey
  rw [hkey]
  cases hpk : row .publicKey with
  | none => rfl
  | some key =>
    by_cases hempty : key = ""
    · simp [hempty, announced, widened, Option.filter]
    · simp [hempty, announced, Option.filter]

lemma row3_of_ne {row : Values} {col : Column} (hstatic : col ≠ .staticKey)
    (htoken : col ≠ .deviceToken) : row3 row col = row col := by
  rw [row3, copyPublicKey_of_ne _ hstatic, widened, Function.update_of_ne hstatic, renamed,
    Function.update_of_ne htoken]

lemma row3_deviceToken (row : Values) : row3 row .deviceToken = row .pairToken :=
  copyPublicKey_of_ne (widened row) (by decide)

lemma carried_row3 (row : Values) : Carried 2 row (row3 row) where
  same := by
    intro col hcol
    refine row3_of_ne ?_ ?_ <;> rintro rfl <;> exact absurd hcol (by decide)
  deviceToken := row3_deviceToken row
  expiresAt := row3_of_ne (by decide) (by decide)
  staticKey := row3_staticKey row

/-- The second script has only the expiry to say about a row of version 0 or 1. -/
lemma Carried.of_row2 {row row' : Values} (hk : k < 2) (h : Carried 2 (row2 row) row') :
    Carried k row row' where
  same := by
    intro col hcol
    rw [h.same col hcol]
    refine Function.update_of_ne ?_ _ _
    rintro rfl
    exact absurd hcol (by decide)
  deviceToken := by
    rw [h.deviceToken, tokenAt, tokenAt, if_pos (by omega), if_pos (by omega)]
    rfl
  expiresAt := by
    rw [h.expiresAt, if_neg (by omega), if_pos hk]
    rfl
  staticKey := by
    rw [h.staticKey, if_pos (by omega), if_pos (by omega)]
    rfl

lemma carried_upgraded (hk : k ≤ 3) (row : Values) : Carried k row (upgraded k 3 row) := by
  by_cases h3 : k = 3
  · subst h3
    rw [upgraded_self]
    exact ⟨fun _ _ => rfl, rfl, rfl, rfl⟩
  by_cases h2 : k = 2
  · subst h2
    exact carried_row3 row
  · have hlt : k < 2 := by omega
    have hrow : upgraded k 3 row = row3 (row2 row) := by
      simp [upgraded, hlt, show k < 3 by omega]
    rw [hrow]
    exact (carried_row3 (row2 row)).of_row2 hlt

/-- A file whose versions are all recorded is left as it is. -/
lemma openDB_recorded (c : Content) : openDB ⟨c, some [1, 2, 3]⟩ = some ⟨c, some [1, 2, 3]⟩ := rfl

/-- Between any changes, an `Open` makes none. -/
lemma run_recorded : ∀ (events : List Event) (c : Content),
    Lts.run Event.step ⟨c, some [1, 2, 3]⟩ events =
      some ⟨events.foldl Event.change c, some [1, 2, 3]⟩
  | [], _ => rfl
  | .reopen :: events, c => by
    rw [Lts.run_cons, Event.step, openDB_recorded, Option.bind_some, run_recorded events c]
    rfl
  | .write change :: events, c => by
    rw [Lts.run_cons, Event.step, Option.bind_some, run_recorded events (change c)]
    rfl

lemma versions_three {db : DB} (h : db.versions = [1, 2, 3]) :
    db = ⟨db.content, some [1, 2, 3]⟩ := by
  obtain ⟨c, _ | versions⟩ := db
  · cases h
  · exact congrArg (Migrate.Db.mk c) (congrArg some h)

/-- A file of any version comes to version 3 with every row it had, each carried on, and with tokens
that are as different from each other as they were. From then on the `Open`s leave it to what is
written in between. -/
theorem openDB_carries (k : ℕ) (db : DB) (hdb : Clean k db) :
    ∃ t, openDB db = some t ∧ t.versions = [1, 2, 3] ∧ HasSchema 3 t.content ∧
      List.Forall₂ (Carried k) db.content.rows t.content.rows ∧
      ((db.content.rows.map fun row => row (tokenAt k)).Nodup →
        (t.content.rows.map fun row => row .deviceToken).Nodup) ∧
      ∀ events, Lts.run Event.step t events =
        some { t with content := events.foldl Event.change t.content } := by
  have hup : Migrate.UpTo migrations (Upgraded k db.content) k db :=
    ⟨hdb.le, hdb.versions, le_rfl, hdb.hasSchema, by rw [upgraded_self, List.map_id]⟩
  obtain ⟨t, hopen, -, hversions, hupgraded⟩ :=
    Migrate.migrate_of_runs (by decide) Upgraded.runs hup
  have hcarried : ∀ row, Carried k row (upgraded k 3 row) := carried_upgraded hdb.le
  refine ⟨t, hopen, hversions, hupgraded.hasSchema, ?_, ?_, ?_⟩
  · rw [hupgraded.rows, List.forall₂_map_right_iff]
    exact List.forall₂_same.2 fun row _ => hcarried row
  · have htokens : t.content.rows.map (fun row => row .deviceToken) =
        db.content.rows.map fun row => row (tokenAt k) := by
      rw [hupgraded.rows, List.map_map]
      exact List.map_congr_left fun row _ => (hcarried row).deviceToken
    rw [htokens]
    exact id
  · intro events
    rw [versions_three hversions]
    exact run_recorded events t.content

/-- The device of version 1, opened and opened again around the announcement of another key. -/
theorem openDB_carries_file1 :
    ∃ t, openDB file1 = some t ∧ t.versions = [1, 2, 3] ∧ HasSchema 3 t.content ∧
      List.Forall₂ (Carried 1) file1.content.rows t.content.rows ∧
      ((file1.content.rows.map fun row => row (tokenAt 1)).Nodup →
        (t.content.rows.map fun row => row .deviceToken).Nodup) ∧
      ∀ events, Lts.run Event.step t events =
        some { t with content := events.foldl Event.change t.content } :=
  openDB_carries 1 file1 file1_clean

end Relayly.Database
