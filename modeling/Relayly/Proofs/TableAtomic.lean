import Relayly.Proofs.TableCalls

/-!
# Calls that run at the same time, and calls that fail

`DeleteDevice` is two statements and no transaction. Between them its device may still have the link
that its peer no longer has (`Devices.MatchingOff`), so the second has to run, and nothing may link the
device again before it does.
-/

namespace Relayly.Relay

/-- The devices that a statement links. -/
def Stmt.pairs : Stmt → List String
  | .pairDevices idA idB => [idA, idB]
  | _ => []

/-- The device of a `DeleteDevice` that is between its two statements. -/
def Running.deleting (r : Running) : Option String :=
  match r.rest with
  | [.deleteRow id] => some id
  | _ => none

namespace Database

variable {s s' : Database} {l : DbLabel}

/-- `PairDevices` comes in between the two statements of no `DeleteDevice` of its devices, and a
`DELETE` fails only where the `UPDATE` before it has found nothing to change. -/
def Apart (s : Database) : DbLabel → Prop
  | .call _ => True
  | .exec i fault =>
    ∀ r ∈ s.running[i]?, (∀ q ∈ r.rest.head?, ∀ d ∈ q.pairs, ∀ r' ∈ s.running, r'.deleting ≠ some d)
      ∧ (r.deleting ≠ none → fault = some 0 → r.changed = false)

instance (s : Database) : ∀ l, Decidable (s.Apart l)
  | .call _ => isTrue trivial
  | .exec i fault => inferInstanceAs (Decidable (∀ r ∈ s.running[i]?,
      (∀ q ∈ r.rest.head?, ∀ d ∈ q.pairs, ∀ r' ∈ s.running, r'.deleting ≠ some d)
        ∧ (r.deleting ≠ none → fault = some 0 → r.changed = false)))

/-- `DeleteDevice` is between its two statements. -/
def Deleting (s : Database) (d : String) : Prop := ∃ r ∈ s.running, r.deleting = some d

end Database

/-- A call has not begun, or it is a `DeleteDevice` between its two statements. -/
inductive Running.Valid : Running → Prop
  | fresh (c : Call) : Valid ⟨c, c.stmts, false⟩
  | between (id : String) (changed : Bool) : Valid ⟨.deleteDevice id, [.deleteRow id], changed⟩

/-- What the next statement of a call is, and what is left of the call after it. -/
inductive Running.Next : Running → Stmt → List Stmt → Prop
  | only (c : Call) (q : Stmt) (hclear : ∀ d, q ≠ .clearPairedWith d) (hdel : ∀ d, q ≠ .deleteRow d) :
    Next ⟨c, [q], false⟩ q []
  | first (id : String) :
    Next ⟨.deleteDevice id, [.clearPairedWith id, .deleteRow id], false⟩ (.clearPairedWith id)
      [.deleteRow id]
  | second (id : String) (changed : Bool) :
    Next ⟨.deleteDevice id, [.deleteRow id], changed⟩ (.deleteRow id) []

theorem Running.deleting_eq_some {r : Running} {d : String} (h : r.deleting = some d) :
    r.rest = [.deleteRow d] := by
  unfold Running.deleting at h
  split at h
  · next id hrest =>
    cases h
    exact hrest
  · cases h

theorem Running.Valid.next {r : Running} (h : r.Valid) : ∃ q rest, r.rest = q :: rest ∧ r.Next q rest := by
  cases h with
  | fresh c =>
    cases c with
    | deleteDevice id => exact ⟨_, _, rfl, .first id⟩
    | _ => exact ⟨_, _, rfl, .only _ _ nofun nofun⟩
  | between id changed => exact ⟨_, _, rfl, .second id changed⟩

namespace Stmt.Effect

variable {t t' : Devices} {q : Stmt} {d : String}

/-- Only `PairDevices` links a device. -/
theorem peer_none (h : q.Effect t t') (hnone : t.peer d = none) (hq : d ∉ q.pairs) :
    t'.peer d = none := by
  cases h with
  | createDevice new hnew => rw [peer_new hnew _ rfl, hnone]
  | pairDevices a b _ hok =>
    obtain ⟨-, -, -, hpeer, -⟩ := Devices.pairDevices_ok hok
    simp only [Stmt.pairs, List.mem_cons, List.not_mem_nil, or_false, not_or] at hq
    rw [hpeer, if_neg hq.2, if_neg hq.1, hnone]
  | setStaticKeyIfUnset id key _ hok =>
    rw [Devices.peer_of_pairedWith (Devices.setStaticKeyIfUnset_pairedWith hok d), hnone]
  | unpairDevice id => simp [Devices.peer_unpairDevice, hnone]
  | clearPairedWith id => simp [Devices.peer_clearPairedWith, hnone]
  | updatePublicKey | touchLastSeen => exact hnone
  | deleteRow id => simp [Devices.peer_deleteRow, hnone]

end Stmt.Effect

namespace Database

variable {s s' : Database} {i : ℕ} {r r' : Running} {t : DeviceTable}

/-- Links go both ways but for the devices that are being deleted. Where the `UPDATE` of a
`DeleteDevice` has found nothing to change, its device has no link, or another call deletes it too. -/
structure Inv (s : Database) : Prop where
  valid : ∀ r ∈ s.running, r.Valid
  matching : s.table.devices.MatchingOff s.Deleting
  calm : ∀ r ∈ s.running, ∀ d, r.deleting = some d → r.changed = false →
    s.table.devices.peer d = none ∨ ∃ r' ∈ s.running, r'.deleting = some d ∧ r'.changed = true

theorem mem_eraseIdx_or (hi : s.running[i]? = some r) (hr' : r' ∈ s.running) :
    r' ∈ s.running.eraseIdx i ∨ r' = r := by
  obtain ⟨j, hj, rfl⟩ := List.getElem_of_mem hr'
  by_cases hji : j = i
  · subst hji
    rw [List.getElem?_eq_getElem hj] at hi
    exact .inr (Option.some.inj hi)
  · exact .inl (List.mem_eraseIdx_iff_getElem.2 ⟨j, hj, hji, rfl⟩)

theorem mem_set_or {x : Running} (hi : s.running[i]? = some r) (hr' : r' ∈ s.running) :
    r' ∈ s.running.set i x ∨ r' = r := by
  obtain ⟨j, hj, rfl⟩ := List.getElem_of_mem hr'
  by_cases hji : i = j
  · subst hji
    rw [List.getElem?_eq_getElem hj] at hi
    exact .inr (Option.some.inj hi)
  · refine .inl (List.mem_iff_getElem.2 ⟨j, by simpa using hj, ?_⟩)
    rw [List.getElem_set_ne hji]

/-- A call returns. Where it was between the statements of a `DeleteDevice`, its device has no link
left, or another call deletes it too. -/
theorem Inv.finish (h : s.Inv) (hi : s.running[i]? = some r)
    (hm : t.devices.MatchingOff s.Deleting)
    (hnone : ∀ d, s.Deleting d → s.table.devices.peer d = none → t.devices.peer d = none)
    (hdone : ∀ d, r.deleting = some d → t.devices.peer d = none
      ∨ ∃ r' ∈ s.running.eraseIdx i, r'.deleting = some d ∧ r'.changed = true) :
    Inv { table := t, running := s.running.eraseIdx i } := by
  have hmem : ∀ {r'}, r' ∈ s.running.eraseIdx i → r' ∈ s.running := List.mem_of_mem_eraseIdx
  refine ⟨fun r' hr' => h.valid r' (hmem hr'), hm.release ?_ ?_, fun r₁ hr₁ d hd hcalm => ?_⟩
  · rintro d ⟨r', hr', hd⟩
    exact ⟨r', hmem hr', hd⟩
  · rintro d ⟨r', hr', hd⟩
    rcases mem_eraseIdx_or hi hr' with hin | rfl
    · exact .inl ⟨r', hin, hd⟩
    · rcases hdone d hd with hn | ⟨r₁, hr₁, hd₁, -⟩
      · exact .inr hn
      · exact .inl ⟨r₁, hr₁, hd₁⟩
  · rcases h.calm r₁ (hmem hr₁) d hd hcalm with hn | ⟨r', hr', hd', hchanged⟩
    · exact .inl (hnone d ⟨r₁, hmem hr₁, hd⟩ hn)
    · rcases mem_eraseIdx_or hi hr' with hin | rfl
      · exact .inr ⟨r', hin, hd', hchanged⟩
      · exact hdone d hd'

/-- The first statement of `DeleteDevice`. -/
theorem Inv.first {id : String}
    (h : s.Inv) (hi : s.running[i]?
      = some ⟨.deleteDevice id, [.clearPairedWith id, .deleteRow id], false⟩) :
    Inv { table := s.table.clearPairedWith id
          running := s.running.set i ⟨.deleteDevice id, [.deleteRow id],
            false || decide (s.table.clearPairedWith id ≠ s.table)⟩ } := by
  generalize hnew : (⟨.deleteDevice id, [.deleteRow id],
    false || decide (s.table.clearPairedWith id ≠ s.table)⟩ : Running) = new
  have hdel : new.deleting = some id := by rw [← hnew]; rfl
  have hin : new ∈ s.running.set i new :=
    List.mem_set (List.getElem?_eq_some_iff.1 hi).1 new
  have hold : ∀ r' ∈ s.running, r'.deleting ≠ none → r' ∈ s.running.set i new := by
    intro r' hr' hne
    rcases mem_set_or hi hr' with h' | rfl
    · exact h'
    · exact absurd rfl hne
  have hpeer := DeviceTable.devices_clearPairedWith s.table id
  refine ⟨fun r' hr' => ?_, ?_, fun r₁ hr₁ d hd hcalm => ?_⟩
  · rcases List.mem_or_eq_of_mem_set hr' with hr' | rfl
    · exact h.valid r' hr'
    · rw [← hnew]
      exact .between id _
  · rw [hpeer]
    refine (h.matching.clearPairedWith id).release ?_ ?_
    · rintro d ⟨r', hr', hd⟩
      rcases List.mem_or_eq_of_mem_set hr' with hr' | rfl
      · exact .inl ⟨r', hr', hd⟩
      · exact .inr (Option.some.inj (hd.symm.trans hdel))
    · rintro d (⟨r', hr', hd⟩ | rfl)
      · exact .inl ⟨r', hold r' hr' (by simp [hd]), hd⟩
      · exact .inl ⟨new, hin, hdel⟩
  · -- where nothing changes the device had no peer to clear, unless one was cleared before
    have hcases : s.table.devices.peer d = none
        ∨ ∃ r' ∈ s.running, r'.deleting = some d ∧ r'.changed = true := by
      rcases List.mem_or_eq_of_mem_set hr₁ with hr₁ | rfl
      · exact h.calm r₁ hr₁ d hd hcalm
      · obtain rfl : id = d := Option.some.inj (hdel.symm.trans hd)
        by_cases hdeleting : s.Deleting id
        · obtain ⟨r', hr', hd'⟩ := hdeleting
          rcases hch : r'.changed with _ | _
          · exact h.calm r' hr' id hd' hch
          · exact .inr ⟨r', hr', hd', hch⟩
        · have hsame : s.table.clearPairedWith id = s.table := by
            rw [← hnew] at hcalm
            simpa using hcalm
          rcases hb : s.table.devices.peer id with _ | b
          · exact .inl rfl
          · have hback := h.matching.symmetric hb hdeleting
            have hclear := Devices.peer_clearPairedWith s.table.devices id b
            rw [← hpeer, hsame, if_pos hback, hback] at hclear
            cases hclear
    rcases hcases with hn | ⟨r', hr', hd', hch⟩
    · left
      rw [hpeer, Devices.peer_clearPairedWith, hn]
      simp
    · exact .inr ⟨r', hold r' hr' (by simp [hd']), hd', hch⟩

theorem Inv.call (h : s.Inv) (c : Call) :
    Inv { s with running := s.running ++ [⟨c, c.stmts, false⟩] } := by
  have hfresh : (⟨c, c.stmts, false⟩ : Running).deleting = none := by cases c <;> rfl
  have hmem : ∀ {r d}, r ∈ s.running ++ [⟨c, c.stmts, false⟩] → r.deleting = some d → r ∈ s.running := by
    intro r d hr hd
    rcases List.mem_append.1 hr with hr | hr
    · exact hr
    · obtain rfl := List.mem_singleton.1 hr
      rw [hfresh] at hd
      cases hd
  refine ⟨fun r hr => ?_, h.matching.release ?_ ?_, fun r hr d hd hcalm => ?_⟩
  · rcases List.mem_append.1 hr with hr | hr
    · exact h.valid r hr
    · obtain rfl := List.mem_singleton.1 hr
      exact .fresh c
  · rintro d ⟨r, hr, hd⟩
    exact ⟨r, hmem hr hd, hd⟩
  · rintro d ⟨r, hr, hd⟩
    exact .inl ⟨r, List.mem_append_left _ hr, hd⟩
  · rcases h.calm r (hmem hr hd) d hd hcalm with hn | ⟨r', hr', hd', hch⟩
    · exact .inl hn
    · exact .inr ⟨r', List.mem_append_left _ hr', hd', hch⟩

theorem step_exec {c : Call} {q : Stmt} {rest : List Stmt} {changed : Bool} {fault : Option ℕ}
    (hi : s.running[i]? = some ⟨c, q :: rest, changed⟩) (hstep : s.step (.exec i fault) = some s') :
    (∃ t, q.exec fault s.table = .ok t
        ∧ s' = { table := t
                 running := if rest = [] then s.running.eraseIdx i
                   else s.running.set i ⟨c, rest, changed || decide (t ≠ s.table)⟩ }
        ∧ s.failed (.exec i fault) = none)
      ∨ ∃ e, q.exec fault s.table = .error e ∧ s' = { s with running := s.running.eraseIdx i }
        ∧ s.failed (.exec i fault) = some ⟨c, q :: rest, changed⟩ := by
  simp only [step, hi] at hstep
  simp only [failed, hi]
  rcases hx : q.exec fault s.table with e | t <;> simp only [hx, Option.some.injEq] at hstep
  · exact .inr ⟨e, rfl, hstep.symm, rfl⟩
  · exact .inl ⟨t, rfl, hstep.symm, rfl⟩

/-- A call whose statement fails returns and has changed nothing. -/
theorem Inv.fail (h : s.Inv) (hi : s.running[i]? = some r) (hr : r.changed = false) :
    Inv { s with running := s.running.eraseIdx i } := by
  refine h.finish hi h.matching (fun _ _ => id) fun d hd => ?_
  rcases h.calm r (List.mem_of_getElem? hi) d hd hr with hn | ⟨r', hr', hd', hch⟩
  · exact .inl hn
  · rcases mem_eraseIdx_or hi hr' with hin | rfl
    · exact .inr ⟨r', hin, hd', hch⟩
    · rw [hr] at hch
      cases hch

theorem Inv.only {c : Call} {q : Stmt} {fault : Option ℕ} (h : s.Inv)
    (hi : s.running[i]? = some ⟨c, [q], false⟩) (hclear : ∀ d, q ≠ .clearPairedWith d)
    (hdel : ∀ d, q ≠ .deleteRow d) (hpairs : ∀ d ∈ q.pairs, ∀ r ∈ s.running, r.deleting ≠ some d)
    (hx : q.exec fault s.table = .ok t) : Inv { table := t, running := s.running.eraseIdx i } := by
  have heff := Stmt.exec_effect hx
  have hoff : ∀ d ∈ q.pairs, ¬ s.Deleting d := fun d hd ⟨r, hr, hr'⟩ => hpairs d hd r hr hr'
  refine h.finish hi ?_ (fun d hd hn => heff.peer_none hn fun hp => hoff d hp hd) fun d hd => ?_
  · have := heff.matching h.matching ?_ fun d hq => absurd hq (hdel d)
    · simpa [hclear] using this
    · rintro a b rfl
      exact ⟨hoff a (by simp [Stmt.pairs]), hoff b (by simp [Stmt.pairs])⟩
  · exact absurd (List.cons.inj (Running.deleting_eq_some hd)).1 (hdel d)

theorem Inv.second {id : String} {changed : Bool} (h : s.Inv)
    (hi : s.running[i]? = some ⟨.deleteDevice id, [.deleteRow id], changed⟩) :
    Inv { table := s.table.deleteRow id, running := s.running.eraseIdx i } := by
  have hdeleting : s.Deleting id := ⟨_, List.mem_of_getElem? hi, rfl⟩
  have hpeer := DeviceTable.devices_deleteRow s.table id
  refine h.finish hi ?_ (fun d _ hn => ?_) fun d hd => .inl ?_
  · rw [hpeer]
    exact h.matching.deleteRow hdeleting
  · rw [hpeer, Devices.peer_deleteRow, hn]
    simp
  · obtain rfl : id = d := by simpa [Running.deleting] using hd
    rw [hpeer, Devices.peer_deleteRow, if_pos rfl]

theorem Inv.step (h : s.Inv) {l : DbLabel} (hc : s.Apart l) (hstep : s.step l = some s') :
    s'.Inv ∧ ∀ r ∈ s.failed l, r.changed = false := by
  cases l with
  | call c =>
    cases hstep
    exact ⟨h.call c, nofun⟩
  | exec i fault =>
    rcases hi : s.running[i]? with _ | ⟨c, stmts, changed⟩
    · simp [Database.step, hi] at hstep
    · obtain ⟨hpairs, hfault⟩ := hc _ hi
      obtain ⟨q, rest, rfl, hnext⟩ := (h.valid _ (List.mem_of_getElem? hi)).next
      rcases step_exec hi hstep with ⟨t, hx, rfl, hnone⟩ | ⟨e, hx, rfl, hfailed⟩
      · rw [hnone]
        refine ⟨?_, nofun⟩
        cases hnext with
        | only c q hclear hdel => exact h.only hi hclear hdel (hpairs q rfl) hx
        | first id =>
          cases attempt_ok hx
          exact h.first hi
        | second id changed =>
          cases attempt_ok hx
          exact h.second hi
      · -- only the second statement of a call can fail after a change, and that is left out
        have hch : changed = false := by
          cases hnext with
          | only | first => rfl
          | second id changed =>
            refine hfault (by simp [Running.deleting]) ?_
            by_contra hne
            simp [Stmt.exec, attempt, hne] at hx
        subst hch
        rw [hfailed]
        refine ⟨h.fail hi rfl, ?_⟩
        rintro r hr
        cases hr
        rfl

/-- From a table in which links go both ways, in every run of calls that keep apart as `Apart` says: a
call that returns an error has not changed the table, and links go both ways once all have returned. -/
theorem failed_unchanged_matching (t : DeviceTable) (ht : t.Matching) (labels : List DbLabel)
    (hrun : Lts.run Database.step { table := t } labels = some s)
    (hapart : Lts.Meets Database.step Apart { table := t } labels) :
    (∀ r ∈ Lts.observed Database.step failed { table := t } labels, r.changed = false)
      ∧ (s.running = [] → s.table.Matching) := by
  have hinit : Inv { table := t } := by
    refine ⟨nofun, (DeviceTable.matching_iff.1 ht).release ?_ ?_, nofun⟩
    · rintro d ⟨r, hr, -⟩
      cases hr
    · exact fun _ => False.elim
  have hinv := Lts.run_inv_observed failed
    (I := fun s h => s.Inv ∧ ∀ r ∈ h, r.changed = false) (fun s l s' h hs hl hstep => ?_) labels (h := [])
    ⟨hinit, nofun⟩ hapart hrun
  · refine ⟨by simpa using hinv.2, fun hdone => DeviceTable.matching_iff.2 (hinv.1.matching.release ?_ ?_)⟩
    · exact fun _ => False.elim
    · rintro d ⟨r, hr, -⟩
      rw [hdone] at hr
      cases hr
  · obtain ⟨hi, hfail⟩ := hs.1.step hl hstep
    refine ⟨hi, fun r hr => ?_⟩
    rcases List.mem_append.1 hr with hr | hr
    · exact hs.2 r hr
    · exact hfail r (Option.mem_toList.1 hr)

end Database

/-- Two rows with a link between them, or without. -/
def linkedRows : DeviceTable :=
  runCalls .empty [.createDevice { id := "a", deviceToken := "s" },
    .createDevice { id := "b", deviceToken := "t" }, .pairDevices "a" "b"]

def freeRows : DeviceTable := runCalls linkedRows [.unpairDevice "a"]

namespace Database

/-- The `DELETE` of a `DeleteDevice` fails after its `UPDATE`. -/
def failing : List DbLabel := [.call (.deleteDevice "a"), .exec 0 none, .exec 0 (some 0)]

/-- `PairDevices` comes in between the two statements of a `DeleteDevice`. -/
def overtaken : List DbLabel :=
  [.call (.deleteDevice "a"), .exec 0 none, .call (.pairDevices "a" "b"), .exec 1 none, .exec 0 none]

theorem failed_changed_unmatched :
    (linkedRows.Matching ∧ ∃ s, Lts.run Database.step { table := linkedRows } failing = some s
      ∧ Lts.observed Database.step failed { table := linkedRows } failing
        = [⟨.deleteDevice "a", [.deleteRow "a"], true⟩]
      ∧ s.running = [] ∧ ¬ s.table.Matching)
    ∧ freeRows.Matching ∧ ∃ s, Lts.run Database.step { table := freeRows } overtaken = some s
      ∧ s.running = [] ∧ ¬ s.table.Matching := by
  have h₁ : (Lts.run Database.step { table := linkedRows } failing).any fun s =>
      decide (s.running = [] ∧ ¬ s.table.Matching) := by decide +kernel
  have h₂ : (Lts.run Database.step { table := freeRows } overtaken).any fun s =>
      decide (s.running = [] ∧ ¬ s.table.Matching) := by decide +kernel
  simp only [Option.any_eq_true, decide_eq_true_eq] at h₁ h₂
  obtain ⟨s₁, hrun₁, hdone₁, hnot₁⟩ := h₁
  exact ⟨⟨by decide +kernel, s₁, hrun₁, by decide +kernel, hdone₁, hnot₁⟩, by decide +kernel, h₂⟩

/-- A `DeleteDevice` and an `UnpairDevice` of the peer, and a `PairDevices` whose `COMMIT` fails. -/
def keepingApart : List DbLabel :=
  [.call (.deleteDevice "a"), .call (.unpairDevice "b"), .call (.pairDevices "b" "b"), .exec 0 none,
    .exec 1 none, .exec 1 (some 5), .exec 0 none]

theorem failed_unchanged_matching_apart :
    ∃ s, Lts.run Database.step { table := linkedRows } keepingApart = some s
      ∧ (Lts.observed Database.step failed { table := linkedRows } keepingApart).length = 1
      ∧ (∀ r ∈ Lts.observed Database.step failed { table := linkedRows } keepingApart, r.changed = false)
      ∧ s.running = [] ∧ s.table.Matching := by
  have h : (Lts.run Database.step { table := linkedRows } keepingApart).any fun s =>
      decide (s.running = []) := by decide +kernel
  simp only [Option.any_eq_true, decide_eq_true_eq] at h
  obtain ⟨s, hrun, hdone⟩ := h
  obtain ⟨hfailed, hmatching⟩ := failed_unchanged_matching linkedRows (by decide +kernel) keepingApart
    hrun (by decide +kernel)
  exact ⟨s, hrun, by decide +kernel, hfailed, hdone, hmatching hdone⟩

end Database

end Relayly.Relay
