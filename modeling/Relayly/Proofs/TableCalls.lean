import Relayly.Lib.Agree
import Relayly.Proofs.RelayLinks
import Relayly.Relay.Table

/-!
# Complete calls on `devices`

Each statement on the rows is one on the table as the relay reads it (`Stmt.Effect`). Links go both
ways after every complete call, and what a device was once paired for, a token that does not expire,
it keeps until it is deleted.
-/

namespace Relayly.Relay

namespace DeviceTable

variable {t t' : DeviceTable} {id : String} {row : Row} {device : Device}

theorem id_mem : Row.id ∈ [Row.id, Row.deviceToken] := List.mem_cons_self ..

theorem find_id : t.find Row.id id = some row ↔ row ∈ t.rows ∧ row.id = id :=
  Sql.Table.find_eq_some id_mem

theorem devices_update {p : Row → Bool} {f : Row → Row}
    {hf : ∀ key ∈ [Row.id, Row.deviceToken], ∀ row, key (f row) = key row} :
    devices (t.update p f hf) id
      = (t.find Row.id id).map fun row => (if p row then f row else row).scanDevice := by
  rw [devices, Sql.Table.find_update id_mem, Option.map_map]
  rfl

theorem devices_setPairedWith (t : DeviceTable) (a b : String) :
    (t.setPairedWith a b).devices = t.devices.setPairedWith a b := by
  funext id
  rw [setPairedWith, devices_update, Devices.setPairedWith, devices]
  rcases hfind : t.find Row.id id with _ | row
  · simp
  · have hid : row.id = id := (find_id.1 hfind).2
    by_cases ha : id = a <;> simp [hid, ha, Row.scanDevice]

theorem devices_checkUnpaired (t : DeviceTable) (id : String) :
    t.devices.checkUnpaired id = t.checkUnpaired id := by
  unfold Devices.checkUnpaired checkUnpaired devices
  rcases t.find Row.id id with _ | row <;> rfl

theorem setPairedWith_self (t : DeviceTable) (a : String) :
    (t.devices.setPairedWith a a).setPairedWith a a = t.devices.setPairedWith a a := by
  funext id
  simp only [Devices.setPairedWith]
  split_ifs
  · rw [Option.map_map]
    rfl
  · rfl

theorem devices_unpairDevice (t : DeviceTable) (id : String) :
    (t.unpairDevice id).devices = t.devices.unpairDevice id := by
  funext d
  rw [unpairDevice, devices_update, Devices.unpairDevice, devices]
  rcases hfind : t.find Row.id d with _ | row
  · simp
  · have hid : row.id = d := (find_id.1 hfind).2
    by_cases hd : d = id ∨ row.pairedWith = some id <;> simp [hid, hd, Row.scanDevice]

theorem devices_clearPairedWith (t : DeviceTable) (id : String) :
    (t.clearPairedWith id).devices = t.devices.clearPairedWith id := by
  funext d
  rw [clearPairedWith, devices_update, Devices.clearPairedWith, devices]
  rcases t.find Row.id d with _ | row
  · simp
  · by_cases hd : row.pairedWith = some id <;> simp [hd, Row.scanDevice]

theorem devices_deleteRow (t : DeviceTable) (id : String) :
    (t.deleteRow id).devices = t.devices.deleteRow id := by
  funext d
  rw [deleteRow, devices, Sql.Table.find_delete id_mem, Devices.deleteRow]
  rcases hfind : t.find Row.id d with _ | row
  · by_cases hd : d = id <;> simp [hd, devices, hfind]
  · have hid : row.id = d := (find_id.1 hfind).2
    by_cases hd : d = id <;> simp [hid, hd, devices, hfind]

/-- A column that the relay does not read. -/
theorem devices_update_same {p : Row → Bool} {f : Row → Row}
    {hf : ∀ key ∈ [Row.id, Row.deviceToken], ∀ row, key (f row) = key row}
    (hscan : ∀ row, (f row).scanDevice = row.scanDevice) : devices (t.update p f hf) = t.devices := by
  funext d
  rw [devices_update, devices]
  congr 1
  funext row
  split_ifs
  · exact hscan row
  · rfl

theorem devices_updatePublicKey (t : DeviceTable) (id pubKey : String) :
    (t.updatePublicKey id pubKey).devices = t.devices :=
  devices_update_same fun _ => rfl

theorem devices_touchLastSeen (t : DeviceTable) (id : String) (now : ℕ) :
    (t.touchLastSeen id now).devices = t.devices :=
  devices_update_same fun _ => rfl

theorem devices_setStaticKey (hrow : t.devices id = some device) (key : String) :
    (t.setStaticKey id key).devices
      = Function.update t.devices id (some { device with staticKey := key }) := by
  obtain ⟨row, hfind, rfl⟩ := Option.map_eq_some_iff.1 hrow
  funext d
  rw [setStaticKey, devices_update]
  by_cases hd : d = id
  · subst hd
    simp [hfind, (find_id.1 hfind).2, Row.scanDevice]
  · rw [Function.update_of_ne hd, devices]
    rcases hfind' : t.find Row.id d with _ | row'
    · rfl
    · have hid : row'.id = d := (find_id.1 hfind').2
      simp [hid, hd]

end DeviceTable

theorem attempt_ok {α : Type} {fault : Option ℕ} {n : ℕ} {x : Except DbError α} {a : α}
    (h : attempt fault n x = .ok a) : x = .ok a := by
  unfold attempt at h
  split_ifs at h
  exact h

/-- What a statement that does not fail does to the table as the relay reads it. -/
inductive Stmt.Effect (t : Devices) : Stmt → Devices → Prop
  | createDevice (d : Row) (hnew : t d.id = none) :
    Effect t (.createDevice d) (Function.update t d.id
      (some { deviceToken := d.deviceToken, expiresAt := d.expiresAt }))
  | pairDevices (a b : String) (t' : Devices) (hok : t.pairDevices a b = .ok t') :
    Effect t (.pairDevices a b) t'
  | unpairDevice (id : String) : Effect t (.unpairDevice id) (t.unpairDevice id)
  | updatePublicKey (id pubKey : String) : Effect t (.updatePublicKey id pubKey) t
  | setStaticKeyIfUnset (id key : String) (t' : Devices)
    (hok : t.setStaticKeyIfUnset id key = .ok t') : Effect t (.setStaticKeyIfUnset id key) t'
  | touchLastSeen (id : String) (now : ℕ) : Effect t (.touchLastSeen id now) t
  | clearPairedWith (id : String) : Effect t (.clearPairedWith id) (t.clearPairedWith id)
  | deleteRow (id : String) : Effect t (.deleteRow id) (t.deleteRow id)

namespace DeviceTable

variable {t t' : DeviceTable} {fault : Option ℕ}

theorem createDevice_effect {d : Row} (h : t.createDevice d = .ok t') :
    Stmt.Effect t.devices (.createDevice d) t'.devices := by
  unfold createDevice at h
  split at h
  · next t'' hins =>
    cases h
    have hnew : t.devices d.id = none := by
      have hfind := Sql.Table.find_of_insert id_mem hins
      rw [devices, hfind, Option.map_none]
    have heq : t'.devices = Function.update t.devices d.id
        (some { deviceToken := d.deviceToken, expiresAt := d.expiresAt }) := by
      funext x
      rw [devices, Sql.Table.find_insert id_mem hins]
      by_cases hx : x = d.id
      · subst hx
        simp [Row.scanDevice]
      · rw [if_neg (Ne.symm hx), Function.update_of_ne hx, devices]
    rw [heq]
    exact .createDevice d hnew
  · cases h

theorem pairDevices_effect {a b : String} (h : t.pairDevices a b fault = .ok t') :
    Stmt.Effect t.devices (.pairDevices a b) t'.devices := by
  unfold pairDevices at h
  obtain ⟨⟨⟩, -, h⟩ := Except.bind_ok h
  obtain ⟨⟨⟩, ha, h⟩ := Except.bind_ok h
  obtain ⟨⟨⟩, hb, h⟩ := Except.bind_ok h
  obtain ⟨t₁, h₁, h⟩ := Except.bind_ok h
  cases attempt_ok h₁
  refine .pairDevices a b _ ?_
  rw [Devices.pairDevices, devices_checkUnpaired, devices_checkUnpaired, attempt_ok ha, attempt_ok hb]
  dsimp only at h ⊢
  split_ifs at h with hab
  · obtain ⟨t₂, h₂, h⟩ := Except.bind_ok h
    cases h₂
    cases attempt_ok h
    subst hab
    rw [devices_setPairedWith, setPairedWith_self]
  · obtain ⟨t₂, h₂, h⟩ := Except.bind_ok h
    cases attempt_ok h₂
    cases attempt_ok h
    rw [devices_setPairedWith, devices_setPairedWith]

theorem setStaticKeyIfUnset_effect {id key : String} (h : t.setStaticKeyIfUnset id key fault = .ok t') :
    Stmt.Effect t.devices (.setStaticKeyIfUnset id key) t'.devices := by
  unfold setStaticKeyIfUnset at h
  obtain ⟨⟨⟩, -, h⟩ := Except.bind_ok h
  obtain ⟨row, hrow, h⟩ := Except.bind_ok h
  have hfind : t.find Row.id id = some row := by
    have := attempt_ok hrow
    split at this <;> cases this
    assumption
  have hdevice : t.devices id = some row.scanDevice := by rw [devices, hfind, Option.map_some]
  refine .setStaticKeyIfUnset id key _ ?_
  rw [Devices.setStaticKeyIfUnset, hdevice]
  show (if row.staticKey.getD "" ≠ "" then
    if row.staticKey.getD "" ≠ key then _ else _ else _) = _
  split_ifs at h ⊢
  · cases attempt_ok h
    rfl
  · obtain ⟨t₁, h₁, h⟩ := Except.bind_ok h
    cases attempt_ok h₁
    cases attempt_ok h
    rw [devices_setStaticKey hdevice]

end DeviceTable

theorem Stmt.exec_effect {t t' : DeviceTable} {fault : Option ℕ} {q : Stmt}
    (h : q.exec fault t = .ok t') : q.Effect t.devices t'.devices := by
  cases q with
  | createDevice d => exact DeviceTable.createDevice_effect (attempt_ok h)
  | pairDevices a b => exact DeviceTable.pairDevices_effect h
  | unpairDevice id =>
    cases attempt_ok h
    rw [DeviceTable.devices_unpairDevice]
    exact .unpairDevice id
  | updatePublicKey id pubKey =>
    cases attempt_ok h
    rw [DeviceTable.devices_updatePublicKey]
    exact .updatePublicKey id pubKey
  | setStaticKeyIfUnset id key => exact DeviceTable.setStaticKeyIfUnset_effect h
  | touchLastSeen id now =>
    cases attempt_ok h
    rw [DeviceTable.devices_touchLastSeen]
    exact .touchLastSeen id now
  | clearPairedWith id =>
    cases attempt_ok h
    rw [DeviceTable.devices_clearPairedWith]
    exact .clearPairedWith id
  | deleteRow id =>
    cases attempt_ok h
    rw [DeviceTable.devices_deleteRow]
    exact .deleteRow id

theorem Devices.setPairedWith_row {t : Devices} {a b d : String} {row' : Device}
    (h : t.setPairedWith a b d = some row') :
    ∃ row, t d = some row ∧ (row'.expiresAt = none ∨ row' = row) := by
  unfold Devices.setPairedWith at h
  split_ifs at h
  · obtain ⟨row, hd, rfl⟩ := Option.map_eq_some_iff.1 h
    exact ⟨row, hd, .inl rfl⟩
  · exact ⟨row', h, .inr rfl⟩

namespace Stmt.Effect

variable {t t' : Devices} {q : Stmt} {D : String → Prop} {d : String} {row' : Device}

/-- What a statement may leave of a row: its expiry, and its link with it or not. -/
def Leaves (row row' : Device) : Prop :=
  row'.expiresAt = none
    ∨ row'.expiresAt = row.expiresAt ∧ (row'.pairedWith = none ∨ row'.pairedWith = row.pairedWith)

/-- A row is there before, or it is new and has no link. -/
theorem row (h : q.Effect t t') (hrow : t' d = some row') :
    row'.pairedWith = none ∧ t d = none ∨ ∃ row, t d = some row ∧ Leaves row row' := by
  cases h with
  | createDevice new hnew =>
    by_cases hd : d = new.id
    · subst hd
      rw [Function.update_self] at hrow
      cases hrow
      exact .inl ⟨rfl, hnew⟩
    · rw [Function.update_of_ne hd] at hrow
      exact .inr ⟨row', hrow, .inr ⟨rfl, .inr rfl⟩⟩
  | pairDevices a b _ hok =>
    unfold Devices.pairDevices at hok
    split at hok <;> cases hok
    obtain ⟨row₁, h₁, hleft⟩ := Devices.setPairedWith_row hrow
    obtain ⟨row, h₀, hleft₀⟩ := Devices.setPairedWith_row h₁
    refine .inr ⟨row, h₀, ?_⟩
    rcases hleft with hnone | rfl
    · exact .inl hnone
    · rcases hleft₀ with hnone | rfl
      · exact .inl hnone
      · exact .inr ⟨rfl, .inr rfl⟩
  | setStaticKeyIfUnset id key _ hok =>
    obtain ⟨row, hid, ⟨-, rfl⟩ | ⟨-, rfl⟩⟩ := Devices.setStaticKeyIfUnset_ok hok
    · exact .inr ⟨row', hrow, .inr ⟨rfl, .inr rfl⟩⟩
    · by_cases hd : d = id
      · subst hd
        rw [Function.update_self] at hrow
        cases hrow
        exact .inr ⟨row, hid, .inr ⟨rfl, .inr rfl⟩⟩
      · rw [Function.update_of_ne hd] at hrow
        exact .inr ⟨row', hrow, .inr ⟨rfl, .inr rfl⟩⟩
  | unpairDevice id | clearPairedWith id =>
    obtain ⟨row, hd, rfl⟩ := Option.map_eq_some_iff.1 hrow
    refine .inr ⟨row, hd, .inr ?_⟩
    split_ifs
    · exact ⟨rfl, .inl rfl⟩
    · exact ⟨rfl, .inr rfl⟩
  | updatePublicKey | touchLastSeen => exact .inr ⟨row', hrow, .inr ⟨rfl, .inr rfl⟩⟩
  | deleteRow id =>
    by_cases hd : d = id
    · simp [Devices.deleteRow, hd] at hrow
    · rw [Devices.deleteRow, Function.update_of_ne hd] at hrow
      exact .inr ⟨row', hrow, .inr ⟨rfl, .inr rfl⟩⟩

/-- Only `DELETE` takes a row away. -/
theorem isSome (h : q.Effect t t') (hrow : (t d).isSome) (hdel : q ≠ .deleteRow d) : (t' d).isSome := by
  cases h with
  | createDevice new hnew =>
    by_cases hd : d = new.id <;> simp [hd, hrow]
  | pairDevices a b _ hok =>
    obtain ⟨-, -, -, -, hnone⟩ := Devices.pairDevices_ok hok
    rw [← Option.ne_none_iff_isSome] at hrow ⊢
    exact fun hn => hrow ((hnone d).1 hn)
  | setStaticKeyIfUnset id key _ hok =>
    obtain ⟨row, hid, ⟨-, rfl⟩ | ⟨-, rfl⟩⟩ := Devices.setStaticKeyIfUnset_ok hok
    · exact hrow
    · by_cases hd : d = id <;> simp [hd, hrow]
  | unpairDevice | clearPairedWith => simpa [Devices.unpairDevice, Devices.clearPairedWith] using hrow
  | updatePublicKey | touchLastSeen => exact hrow
  | deleteRow id =>
    have hd : d ≠ id := fun hd => hdel (hd ▸ rfl)
    rwa [Devices.deleteRow, Function.update_of_ne hd]

theorem peer_new {new : Row} (hnew : t new.id = none) (device : Device) (hp : device.pairedWith = none)
    (id : String) : Devices.peer (Function.update t new.id (some device)) id = t.peer id := by
  unfold Devices.peer
  by_cases hid : id = new.id
  · subst hid
    simp [hnew, hp]
  · simp [hid]

/-- Links go both ways after a statement as before it, but that a `DeleteDevice` that has begun leaves
out its device. -/
theorem matching (h : q.Effect t t') (hm : t.MatchingOff D)
    (hpair : ∀ a b, q = .pairDevices a b → ¬ D a ∧ ¬ D b) (hdel : ∀ d, q = .deleteRow d → D d) :
    t'.MatchingOff fun x => D x ∨ q = .clearPairedWith x := by
  cases h with
  | createDevice new hnew => simpa using hm.same (peer_new hnew _ rfl)
  | pairDevices a b _ hok =>
    obtain ⟨ha, hb⟩ := hpair a b rfl
    simpa using hm.pairDevices hok ha hb
  | unpairDevice id => simpa using hm.unpairDevice id
  | setStaticKeyIfUnset id key _ hok =>
    have hpeer : ∀ d, t'.peer d = t.peer d := fun d =>
      Devices.peer_of_pairedWith (Devices.setStaticKeyIfUnset_pairedWith hok d)
    simpa using hm.same hpeer
  | clearPairedWith id => simpa [eq_comm] using hm.clearPairedWith id
  | updatePublicKey | touchLastSeen => simpa using hm
  | deleteRow id => simpa using hm.deleteRow (hdel id rfl)

end Stmt.Effect

section Runs

variable {t t' : DeviceTable} {d : String}

/-- What each statement keeps, where it does not fail, a call keeps. -/
theorem runStmts_inv {I : DeviceTable → Prop} : ∀ {qs : List Stmt} {t : DeviceTable}, I t →
    (∀ q ∈ qs, ∀ t t', I t → q.exec none t = .ok t' → I t') → I (runStmts t qs).2
  | [], t, ht, _ => ht
  | q :: qs, t, ht, hq => by
    rw [runStmts]
    split
    · next t' hok =>
      exact runStmts_inv (hq q (List.mem_cons_self ..) t t' ht hok) fun q' hq' =>
        hq q' (List.mem_cons_of_mem q hq')
    · exact ht

theorem runCalls_inv {I : DeviceTable → Prop} : ∀ {calls : List Call} {t : DeviceTable}, I t →
    (∀ c ∈ calls, ∀ t, I t → I (c.run t).2) → I (runCalls t calls)
  | [], t, ht, _ => ht
  | c :: calls, t, ht, hc => by
    show I (runCalls (c.run t).2 calls)
    exact runCalls_inv (hc c (List.mem_cons_self ..) t ht) fun c' hc' =>
      hc c' (List.mem_cons_of_mem c hc')

theorem runCalls_append (t : DeviceTable) (calls calls' : List Call) :
    runCalls t (calls ++ calls') = runCalls (runCalls t calls) calls' :=
  List.foldl_append

/-- A row with a link has a token that does not expire. -/
def Devices.Permanent (t : Devices) : Prop :=
  ∀ d row, t d = some row → row.pairedWith ≠ none → row.expiresAt = none

theorem Stmt.Effect.permanent {t t' : Devices} {q : Stmt} (h : q.Effect t t') (hp : t.Permanent) :
    t'.Permanent := by
  intro d row' hrow' hlink
  rcases h.row hrow' with ⟨hnone, -⟩ | ⟨row, hrow, hnone | ⟨hexp, hnone | hsame⟩⟩
  · exact absurd hnone hlink
  · exact hnone
  · exact absurd hnone hlink
  · rw [hexp]
    exact hp d row hrow (hsame ▸ hlink)

/-- A device has a token that does not expire. -/
def Devices.Lasting (t : Devices) (d : String) : Prop := ∃ row, t d = some row ∧ row.expiresAt = none

theorem Stmt.Effect.lasting {t t' : Devices} {q : Stmt} (h : q.Effect t t') (hl : t.Lasting d)
    (hdel : q ≠ .deleteRow d) : t'.Lasting d := by
  obtain ⟨row, hrow, hexp⟩ := hl
  obtain ⟨row', hrow'⟩ := Option.isSome_iff_exists.1 (h.isSome (by rw [hrow]; rfl) hdel)
  refine ⟨row', hrow', ?_⟩
  rcases h.row hrow' with ⟨-, hnone⟩ | ⟨row₀, hrow₀, hnone | ⟨hsame, -⟩⟩
  · rw [hrow] at hnone
    cases hnone
  · exact hnone
  · rw [hrow] at hrow₀
    cases hrow₀
    rw [hsame, hexp]

theorem Devices.Permanent.lasting {t : Devices} {b : String} (h : t.Permanent)
    (hpeer : t.peer d = some b) : t.Lasting d := by
  obtain ⟨row, hrow, hlink⟩ := Option.bind_eq_some_iff.1 hpeer
  exact ⟨row, hrow, h d row hrow (by simp [hlink])⟩

theorem Stmt.Effect.matching_whole {t t' : Devices} {q : Stmt} (h : q.Effect t t')
    (hm : t.MatchingOff fun _ => False) (hclear : ∀ d, q ≠ .clearPairedWith d)
    (hdel : ∀ d, q ≠ .deleteRow d) : t'.MatchingOff fun _ => False := by
  simpa [hclear] using h.matching hm (fun _ _ _ => ⟨id, id⟩) fun d hq => absurd hq (hdel d)

theorem Call.run_matching (c : Call) (hm : t.devices.MatchingOff fun _ => False) :
    (c.run t).2.devices.MatchingOff fun _ => False := by
  cases c with
  | deleteDevice id =>
    show ((t.clearPairedWith id).deleteRow id).devices.MatchingOff _
    rw [DeviceTable.devices_deleteRow, DeviceTable.devices_clearPairedWith]
    refine ((hm.clearPairedWith id).deleteRow (.inr rfl)).release (fun _ => .inl) ?_
    rintro d (hd | rfl)
    · exact .inl hd
    · exact .inr (by rw [Devices.peer_deleteRow, if_pos rfl])
  | _ =>
    refine runStmts_inv (I := fun t => t.devices.MatchingOff fun _ => False) hm fun q hq t t' ht hok => ?_
    obtain rfl := List.mem_singleton.1 hq
    exact (Stmt.exec_effect hok).matching_whole ht nofun nofun

theorem runCalls_permanent (hp : t.devices.Permanent) (calls : List Call) :
    (runCalls t calls).devices.Permanent :=
  runCalls_inv (I := fun t => t.devices.Permanent) hp fun _ _ _ ht =>
    runStmts_inv (I := fun t => t.devices.Permanent) ht fun _ _ _ _ ht hok =>
      (Stmt.exec_effect hok).permanent ht

theorem runCalls_lasting (hl : t.devices.Lasting d) {calls : List Call}
    (hdel : ∀ c ∈ calls, c ≠ .deleteDevice d) : (runCalls t calls).devices.Lasting d := by
  refine runCalls_inv (I := fun t => t.devices.Lasting d) hl fun c hc t ht => ?_
  refine runStmts_inv (I := fun t => t.devices.Lasting d) ht fun q hq t t' ht hok => ?_
  refine (Stmt.exec_effect hok).lasting ht ?_
  rintro rfl
  cases c with
  | deleteDevice id =>
    simp only [Call.stmts, List.mem_cons, reduceCtorEq, Stmt.deleteRow.injEq, List.not_mem_nil,
      or_false, false_or] at hq
    exact hdel _ hc (hq ▸ rfl)
  | _ => simp [Call.stmts] at hq

theorem run_pairDevices_ok {a b : String} (h : ((Call.pairDevices a b).run t).1 = .ok ()) :
    t.devices.pairDevices a b = .ok ((Call.pairDevices a b).run t).2.devices := by
  unfold Call.run Call.stmts runStmts at h ⊢
  split at h
  · next t' hok =>
    show t.devices.pairDevices a b = .ok t'.devices
    cases Stmt.exec_effect hok with
    | pairDevices _ _ _ hok' => exact hok'
  · cases h

namespace DeviceTable

theorem devices_eq_some {device : Device} :
    t.devices d = some device ↔ ∃ row ∈ t.rows, row.id = d ∧ row.scanDevice = device := by
  simp only [devices, Option.map_eq_some_iff, find_id, and_assoc]

theorem peer_eq_some {a b : String} :
    t.devices.peer a = some b ↔ ∃ row ∈ t.rows, row.id = a ∧ row.pairedWith = some b := by
  rw [Devices.peer, Option.bind_eq_some_iff]
  constructor
  · rintro ⟨device, hdevice, hb⟩
    obtain ⟨row, hrow, hid, rfl⟩ := devices_eq_some.1 hdevice
    exact ⟨row, hrow, hid, hb⟩
  · rintro ⟨row, hrow, hid, hb⟩
    exact ⟨row.scanDevice, devices_eq_some.2 ⟨row, hrow, hid, rfl⟩, hb⟩

theorem matching_iff : t.Matching ↔ t.devices.MatchingOff fun _ => False := by
  constructor
  · refine fun h => ⟨fun _ => id, fun {a b} hab _ => ?_⟩
    obtain ⟨row, hrow, rfl, hb⟩ := peer_eq_some.1 hab
    exact peer_eq_some.2 (h row hrow b hb)
  · intro h row hrow b hb
    exact peer_eq_some.1 (h.symmetric (peer_eq_some.2 ⟨row, hrow, rfl, hb⟩) id)

end DeviceTable

/-- After any complete calls on an empty table: links go both ways between rows that exist; a row
with a link has no expiry; ids and tokens are unique; and `Handler` does not find a device expired that
was paired and not deleted since. -/
theorem runCalls_sound (calls : List Call) :
    (runCalls .empty calls).Matching
      ∧ (∀ row ∈ (runCalls .empty calls).rows, row.pairedWith ≠ none → row.expiresAt = none)
      ∧ ((runCalls .empty calls).rows.map Row.id).Nodup
      ∧ ((runCalls .empty calls).rows.map Row.deviceToken).Nodup
      ∧ ∀ pre a b post, calls = pre ++ .pairDevices a b :: post →
        ((Call.pairDevices a b).run (runCalls .empty pre)).1 = .ok () →
        ∀ d, d = a ∨ d = b → (∀ c ∈ post, c ≠ .deleteDevice d) →
        ∃ device, (runCalls .empty calls).devices.getDeviceByID d = .ok device
          ∧ ∀ now, device.expiresAt.any (· < now) = false := by
  have hperm : ∀ calls, (runCalls .empty calls).devices.Permanent := runCalls_permanent nofun
  refine ⟨DeviceTable.matching_iff.2 ?_, fun row hrow hlink => ?_, ?_, ?_, ?_⟩
  · exact runCalls_inv (I := fun t => t.devices.MatchingOff fun _ => False) ⟨nofun, nofun⟩
      fun c _ _ ht => c.run_matching ht
  · exact hperm calls row.id _ (DeviceTable.devices_eq_some.2 ⟨row, hrow, rfl, rfl⟩) hlink
  · exact (runCalls .empty calls).unique _ (by simp)
  · exact (runCalls .empty calls).unique _ (by simp)
  · rintro pre a b post rfl hok d hd hdel
    obtain ⟨-, -, -, hpeer, -⟩ := Devices.pairDevices_ok (run_pairDevices_ok hok)
    obtain ⟨p, hp⟩ : ∃ p, ((Call.pairDevices a b).run (runCalls .empty pre)).2.devices.peer d = some p := by
      rw [hpeer]
      rcases hd with rfl | rfl
      · by_cases hab : d = b <;> simp [hab]
      · simp
    have hperm₁ := hperm (pre ++ [.pairDevices a b])
    rw [List.append_cons, runCalls_append]
    rw [runCalls_append] at hperm₁ ⊢
    obtain ⟨device, hdevice, hexp⟩ := runCalls_lasting (hperm₁.lasting hp) hdel
    exact ⟨device, by rw [Devices.getDeviceByID, hdevice], fun now => by rw [hexp]; rfl⟩

/-- Two devices are paired, and one of them is unpaired and then deleted. -/
def pairedOnce : List Call :=
  [.createDevice { id := "a", deviceToken := "s", expiresAt := some 5 },
    .createDevice { id := "b", deviceToken := "t", expiresAt := some 5 },
    .pairDevices "a" "b", .unpairDevice "b", .deleteDevice "a"]

theorem runCalls_sound_once :
    ((Call.pairDevices "a" "b").run (runCalls .empty (pairedOnce.take 2))).1 = .ok ()
      ∧ ∃ device, (runCalls .empty pairedOnce).devices.getDeviceByID "b" = .ok device
        ∧ ∀ now, device.expiresAt.any (· < now) = false := by
  have hok : ((Call.pairDevices "a" "b").run (runCalls .empty (pairedOnce.take 2))).1 = .ok () := by
    decide +kernel
  obtain ⟨-, -, -, -, hlast⟩ := runCalls_sound pairedOnce
  exact ⟨hok, hlast _ "a" "b" [.unpairDevice "b", .deleteDevice "a"] rfl hok "b" (.inr rfl) (by simp)⟩

end Runs

end Relayly.Relay
