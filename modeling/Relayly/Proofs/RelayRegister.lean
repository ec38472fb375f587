import Relayly.Lib.Run
import Relayly.Relay.Register
import Relayly.Proofs.TableCalls
import Relayly.Proofs.Token
import Mathlib.Data.List.Induction

/-!
# Who is let in

What `Handler` reads of a row are its token and its expiry. Of the statements that run on `devices`,
those of `CreateDevice`, `PairDevices` and `DeleteDevice` change them, so that the history of these,
from any number of calls at once and with any of them failing, says who is let in and until when.
-/

namespace Relayly.Relay

/-- A token and until when it is good. -/
abbrev Credential := String × Option ℕ

/-- What has happened to the devices. -/
inductive Fact
  | registered (id : String) (c : Credential)
  | linked (idA idB : String)
  | deleted (id : String)
  deriving DecidableEq, Repr

namespace Fact

/-- What a fact makes of the credential of `d`. -/
def apply (d : String) (old : Option Credential) : Fact → Option Credential
  | .registered id c => if d = id then some c else old
  | .linked a b => if d = a ∨ d = b then old.map fun c => (c.1, none) else old
  | .deleted id => if d = id then none else old

/-- A fact after which an older registration of `d` does not count. -/
def Ends (d : String) : Fact → Prop
  | .registered id _ | .deleted id => d = id
  | .linked _ _ => False

/-- A link of `d` with whatever device. -/
def Links (d : String) : Fact → Prop
  | .linked a b => d = a ∨ d = b
  | .registered _ _ | .deleted _ => False

/-- The credential of `d` after a history. -/
def credential (d : String) (old : Option Credential) (history : List Fact) : Option Credential :=
  history.foldl (apply d) old

variable {d : String} {fact : Fact} {history : List Fact} {old : Option Credential} {c : Credential}

theorem credential_snoc :
    credential d old (history ++ [fact]) = fact.apply d (credential d old history) :=
  List.foldl_append

theorem apply_of_not_ends (h : ¬ fact.Ends d) (hlinks : ¬ fact.Links d) : fact.apply d old = old := by
  cases fact with
  | linked a b => exact if_neg hlinks
  | registered id c | deleted id => exact if_neg h

theorem apply_of_links (h : fact.Links d) : fact.apply d old = old.map fun c => (c.1, none) := by
  cases fact with
  | linked a b => exact if_pos h
  | registered id c | deleted id => exact h.elim

theorem apply_none (h : fact.apply d none = some c) : fact = .registered d c := by
  cases fact with
  | registered id c' =>
    rw [apply] at h
    split_ifs at h with hid
    cases h
    rw [hid]
  | linked a b => simp [apply] at h
  | deleted id => simp [apply] at h

/-- A credential that no fact ends: the first link takes its expiry away. -/
theorem credential_kept (hkept : ∀ fact ∈ history, ¬ fact.Ends d) :
    ((∃ fact ∈ history, fact.Links d) → credential d (some c) history = some (c.1, none))
      ∧ ((∀ fact ∈ history, ¬ fact.Links d) → credential d (some c) history = some c) := by
  induction history generalizing c with
  | nil => exact ⟨by simp, fun _ => rfl⟩
  | cons fact history ih =>
    rw [List.forall_mem_cons] at hkept
    show (_ → credential d (fact.apply d (some c)) history = _)
      ∧ (_ → credential d (fact.apply d (some c)) history = _)
    by_cases hlinks : fact.Links d
    · obtain ⟨hlinked, hplain⟩ := ih (c := (c.1, none)) hkept.2
      rw [apply_of_links hlinks, Option.map_some]
      refine ⟨fun _ => ?_, fun hnone => absurd hlinks (hnone fact (List.mem_cons_self ..))⟩
      by_cases hlater : ∃ fact ∈ history, fact.Links d
      · exact hlinked hlater
      · exact hplain fun fact' hfact' hlinks' => hlater ⟨fact', hfact', hlinks'⟩
    · obtain ⟨hlinked, hplain⟩ := ih (c := c) hkept.2
      rw [apply_of_not_ends hkept.1 hlinks]
      simpa [hlinks] using And.intro hlinked hplain

/-- A deleted device that is not registered again. -/
theorem credential_deleted (hdel : .deleted d ∈ history) (hnew : ∀ c, .registered d c ∉ history) :
    credential d old history = none := by
  induction history using List.reverseRecOn with
  | nil => cases hdel
  | append_singleton history fact ih =>
    rcases hcred : credential d old (history ++ [fact]) with _ | c
    · rfl
    · rw [credential_snoc] at hcred
      by_cases hfact : fact = .deleted d
      · simp [hfact, apply] at hcred
      · have hdel' : .deleted d ∈ history := by simpa [Ne.symm hfact] using hdel
        have hnew' : ∀ c, .registered d c ∉ history := fun c hc => hnew c (List.mem_append_left _ hc)
        rw [ih hdel' hnew'] at hcred
        exact absurd (by simp [apply_none hcred]) (hnew c)

/-- A credential goes back to the last registration of its device. -/
theorem registered_of_credential (h : credential d none history = some c) :
    ∃ before c₀ after, history = before ++ .registered d c₀ :: after
      ∧ ∀ fact ∈ after, ¬ fact.Ends d := by
  induction history using List.reverseRecOn generalizing c with
  | nil => cases h
  | append_singleton history fact ih =>
    rw [credential_snoc] at h
    by_cases hends : fact.Ends d
    · cases fact with
      | registered id c₀ => exact ⟨history, c₀, [], by rw [show d = id from hends], by simp⟩
      | linked a b => exact hends.elim
      | deleted id =>
        rw [apply, if_pos (show d = id from hends)] at h
        cases h
    · rcases hold : credential d none history with _ | c'
      · rw [hold] at h
        exact absurd (by rw [apply_none h]; rfl) hends
      · obtain ⟨before, c₀, after, rfl, hkept⟩ := ih hold
        refine ⟨before, c₀, after ++ [fact], by simp, fun fact' hfact' => ?_⟩
        rcases List.mem_append.1 hfact' with hafter | hfact'
        · exact hkept fact' hafter
        · rwa [List.mem_singleton.1 hfact']

theorem credential_registered (old : Option Credential) (before after : List Fact) :
    credential d old (before ++ .registered d c :: after) = credential d (some c) after := by
  rw [credential, List.foldl_append, List.foldl_cons, apply, if_pos rfl]
  rfl

end Fact

/-! ## The credentials of the table -/

/-- What a statement that does not fail says of the devices. -/
def Stmt.fact : Stmt → Option Fact
  | .createDevice d => some (.registered d.id (d.deviceToken, d.expiresAt))
  | .pairDevices idA idB => some (.linked idA idB)
  | .deleteRow id => some (.deleted id)
  | _ => none

/-- What is seen of a step. -/
def Database.fact (s : Database) : DbLabel → Option Fact
  | .call _ => none
  | .exec i fault => do
    let r ← s.running[i]?
    let q ← r.rest.head?
    let _ ← (q.exec fault s.table).toOption
    q.fact

def Devices.credential (t : Devices) (d : String) : Option Credential :=
  (t d).map fun device => (device.deviceToken, device.expiresAt)

theorem Devices.credential_setPairedWith (t : Devices) (a b d : String) :
    (t.setPairedWith a b).credential d
      = if d = a then (t.credential d).map fun c => (c.1, none) else t.credential d := by
  unfold credential setPairedWith
  split_ifs
  · rw [Option.map_map, Option.map_map]
    rfl
  · rfl

theorem Stmt.Effect.credential {t t' : Devices} {q : Stmt} (h : q.Effect t t') (d : String) :
    t'.credential d = q.fact.elim (t.credential d) (Fact.apply d (t.credential d)) := by
  cases h with
  | createDevice new hnew =>
    show Option.map _ _ = if d = new.id then _ else _
    by_cases hd : d = new.id
    · rw [hd, Function.update_self, if_pos rfl]
      rfl
    · rw [Function.update_of_ne hd, if_neg hd]
      rfl
  | pairDevices a b _ hok =>
    obtain ⟨-, -, rfl⟩ := Devices.pairDevices_eq_ok.1 hok
    rw [Devices.credential_setPairedWith, Devices.credential_setPairedWith]
    show _ = if d = a ∨ d = b then _ else _
    split_ifs <;> simp_all [Function.comp_def]
  | setStaticKeyIfUnset id key _ hok =>
    obtain ⟨row, hid, ⟨-, rfl⟩ | ⟨-, rfl⟩⟩ := Devices.setStaticKeyIfUnset_ok hok
    · rfl
    · by_cases hd : d = id
      · subst hd
        simp [Devices.credential, Stmt.fact, hid]
      · simp [Devices.credential, Stmt.fact, hd]
  | unpairDevice id | clearPairedWith id =>
    show Option.map _ (Option.map _ _) = _
    rw [Option.map_map]
    refine congrArg (Option.map · (t d)) (funext fun row => ?_)
    simp only [Function.comp_apply]
    split_ifs <;> rfl
  | updatePublicKey | touchLastSeen => rfl
  | deleteRow id =>
    show Option.map _ _ = if d = id then _ else _
    by_cases hd : d = id
    · rw [hd, Devices.deleteRow, Function.update_self, if_pos rfl]
      rfl
    · rw [Devices.deleteRow, Function.update_of_ne hd, if_neg hd]
      rfl

namespace Database

variable {s s' : Database}

theorem step_credential {l : DbLabel} (hstep : s.step l = some s') (d : String) :
    s'.table.devices.credential d
      = Fact.credential d (s.table.devices.credential d) (s.fact l).toList := by
  cases l with
  | call c =>
    cases hstep
    rfl
  | exec i fault =>
    unfold step at hstep
    dsimp only at hstep
    split at hstep
    · next c q rest changed hi =>
      split at hstep
      · next t hok =>
        cases hstep
        have hfact : s.fact (.exec i fault) = q.fact := by simp [fact, hi, hok, Except.toOption]
        rw [(Stmt.exec_effect hok).credential d, hfact]
        cases q.fact <;> rfl
      · next e herr =>
        cases hstep
        have hfact : s.fact (.exec i fault) = none := by simp [fact, hi, herr, Except.toOption]
        rw [hfact]
        rfl
    · cases hstep

/-- The credentials of the table are those that the history gives. -/
theorem run_credential {labels : List DbLabel} (hrun : Lts.run step s labels = some s') (d : String) :
    s'.table.devices.credential d
      = Fact.credential d (s.table.devices.credential d) (Lts.observed step fact s labels) := by
  have hinv := Lts.run_inv_observed fact
    (I := fun s' history => s'.table.devices.credential d
      = Fact.credential d (s.table.devices.credential d) history)
    (fun s₁ l s₂ history hs₁ _ hstep => by
      rw [step_credential hstep d, hs₁, Fact.credential, Fact.credential, Fact.credential,
        List.foldl_append])
    labels (h := []) rfl (Lts.meets_true labels s) hrun
  rwa [List.nil_append] at hinv

end Database

/-! ## What `Handler` makes of a credential -/

namespace Devices

variable {t : Devices} {d token : String} {now : ℕ}

theorem authenticate_known (hd : d ≠ "") (ht : token ≠ "") {expiresAt : Option ℕ}
    (hc : t.credential d = some (token, expiresAt)) :
    ((∀ e ∈ expiresAt, now ≤ e) → ∃ device, t.authenticate d token now = .ok device)
      ∧ ((∃ e ∈ expiresAt, e < now) →
        t.authenticate d token now = .error ⟨401, "pairing code expired"⟩) := by
  obtain ⟨device, hrow, heq⟩ := Option.map_eq_some_iff.1 hc
  obtain ⟨rfl, rfl⟩ := Prod.mk.inj heq
  have hget : t.getDeviceByID d = .ok device := by rw [getDeviceByID, hrow]
  constructor
  · intro hgood
    have hany : ¬ device.expiresAt.any (· < now) := by
      rw [Option.any_eq_true]
      rintro ⟨e, he, hlt⟩
      exact absurd (hgood e he) (Nat.not_le.2 (of_decide_eq_true hlt))
    exact ⟨device, by simp [authenticate, hd, ht, hget, hany]⟩
  · rintro ⟨e, he, hlt⟩
    have hany : device.expiresAt.any (· < now) :=
      (Option.any_eq_true ..).2 ⟨e, he, decide_eq_true hlt⟩
    simp [authenticate, hd, ht, hget, hany]

theorem authenticate_unknown (hd : d ≠ "") (ht : token ≠ "") (hc : t.credential d = none) :
    t.authenticate d token now = .error ⟨401, "unauthorized"⟩ := by
  have hget : t.getDeviceByID d = .error .errNotFound := by
    rw [getDeviceByID, Option.map_eq_none_iff.1 hc]
  simp [authenticate, hd, ht, hget]

theorem credential_of_authenticate {device : Device} (h : t.authenticate d token now = .ok device) :
    d ≠ "" ∧ token ≠ "" ∧ t.credential d = some (token, device.expiresAt)
      ∧ ∀ e ∈ device.expiresAt, now ≤ e := by
  unfold authenticate at h
  split_ifs at h with hempty
  obtain ⟨hd, ht⟩ := not_or.1 hempty
  split at h
  · cases h
  · next row hget =>
    split_ifs at h with htoken hexpired
    cases h
    have hrow : t d = some device := by
      unfold getDeviceByID at hget
      split at hget <;> cases hget
      assumption
    refine ⟨hd, ht, ?_, fun e he => Nat.not_lt.1 fun hlt => hexpired ?_⟩
    · rw [credential, hrow, Option.map_some, not_not.1 htoken]
    · exact (Option.any_eq_true ..).2 ⟨e, he, decide_eq_true hlt⟩

end Devices

/-- `Handler` makes a connection of the requests that pass these checks and are upgraded. -/
theorem Server.handler_eq (s : Server) (d token : String) (now : ℕ) (upgraded : Bool) :
    s.handler d token now upgraded
      = (s.devices.authenticate d token now).toOption.elim s fun device =>
        if upgraded then
          { s with conns := s.conns ++ [{
              deviceID := d
              pairedWith := device.pairedWith.getD ""
              pc := .register device }] }
        else s := by
  unfold handler Devices.authenticate
  by_cases hempty : d = "" ∨ token = ""
  · rw [if_pos hempty, if_pos hempty]
    rfl
  · rw [if_neg hempty, if_neg hempty]
    rcases s.devices.getDeviceByID d with e | device
    · rfl
    · dsimp only
      by_cases htoken : device.deviceToken ≠ token
      · rw [if_pos htoken, if_pos htoken]
        rfl
      · rw [if_neg htoken, if_neg htoken]
        by_cases hexpired : device.expiresAt.any (· < now)
        · rw [if_pos hexpired, if_pos hexpired]
          rfl
        · rw [if_neg hexpired, if_neg hexpired]
          cases upgraded <;> rfl

/-! ## The device that a request creates -/

theorem encodeChunks_ne_nil {b : UInt8} (hb : b ≠ 0) (rest : Bytes) : encodeChunks (b :: rest) ≠ [] := by
  intro hnil
  rw [encodeChunks, List.flatMap_eq_nil_iff] at hnil
  have hfirst := hnil 0 (List.mem_range.2 (by rw [List.length_cons]; omega))
  have hzero : bigEndian ((b :: rest).take 8) = 0 := by
    rw [appendDigits] at hfirst
    split_ifs at hfirst with hnum
    rwa [Nat.mul_zero, chunkAt, List.drop_zero, bigEndian_zeros] at hnum
  have hzeros : bigEndian (List.replicate ((b :: rest).take 8).length 0) = 0 := by
    simpa [bigEndian] using bigEndian_zeros ((b :: rest).take 8).length []
  have hsame := bigEndian_injective (by simp) (hzero.trans hzeros.symm)
  have hmem : b ∈ (b :: rest).take 8 := by simp
  rw [hsame] at hmem
  exact hb (List.eq_of_mem_replicate hmem)

/-- A token is never empty, so that `Handler` does not take it for one that is missing. -/
theorem base58Encode_ne_empty {input : Bytes} (h : input ≠ []) : base58Encode input ≠ "" := by
  intro hempty
  have hnil : (encodeChunks input ++ List.replicate (leadingZeros input) (base58Digit 0)).reverse = [] :=
    String.ofList_inj.1 hempty
  rw [List.reverse_eq_nil_iff, List.append_eq_nil_iff, List.replicate_eq_nil_iff] at hnil
  cases input with
  | nil => exact h rfl
  | cons b rest =>
    have hb : b ≠ 0 := by
      intro hb
      simp [leadingZeros, hb] at hnil
    exact encodeChunks_ne_nil hb rest hnil.1

theorem newDevice_eq_some {name uuid : String} {random : Option (Fin 32 → UInt8)} {now : ℕ} {dev : Row}
    (h : newDevice name random uuid now = some dev) :
    dev.id = uuid ∧ dev.deviceToken ≠ "" ∧ dev.expiresAt = some (now + deviceTokenTTL) := by
  obtain ⟨token, htoken, rfl⟩ := Option.map_eq_some_iff.1 h
  obtain ⟨b, rfl, rfl⟩ := Option.map_eq_some_iff.1 htoken
  refine ⟨rfl, base58Encode_ne_empty fun hnil => ?_, rfl⟩
  simpa using congrArg List.length hnil

/-- What a user is told of a new device by the API or on the command line: its id and its token. -/
inductive GivesOut (t : DeviceTable) (uuid : String) (created : ℕ) : String → String → DeviceTable → Prop
  | handleCreateDevice {name : Option String} {random : Option (Fin 32 → UInt8)} {fault : Option ℕ}
    {resp : CreateDeviceResponse} {t' : DeviceTable}
    (h : Relay.handleCreateDevice t name random uuid created fault = .ok (resp, t')) :
    GivesOut t uuid created resp.deviceID resp.deviceToken t'
  | runPair {deviceName : String} {random : Option (Fin 32 → UInt8)} {early : Option PairFault}
    {fault : Option ℕ} {device : Row} {t' : DeviceTable}
    (h : Relay.runPair t deviceName random uuid created early fault = .ok (device, t')) :
    GivesOut t uuid created device.id device.deviceToken t'

theorem newDevice_credential {t t' : DeviceTable} {name uuid : String} {random : Option (Fin 32 → UInt8)}
    {created : ℕ} {fault : Option ℕ} {dev : Row} (hdev : newDevice name random uuid created = some dev)
    (hok : (Stmt.createDevice dev).exec fault t = .ok t') :
    dev.id = uuid ∧ dev.deviceToken ≠ ""
      ∧ t'.devices.credential uuid = some (dev.deviceToken, some (created + deviceTokenTTL)) := by
  obtain ⟨rfl, htoken, hexp⟩ := newDevice_eq_some hdev
  refine ⟨rfl, htoken, ?_⟩
  rw [(Stmt.exec_effect hok).credential, ← hexp]
  exact if_pos rfl

theorem GivesOut.credential {t t' : DeviceTable} {uuid id token : String} {created : ℕ}
    (h : GivesOut t uuid created id token t') :
    id = uuid ∧ token ≠ ""
      ∧ t'.devices.credential uuid = some (token, some (created + deviceTokenTTL)) := by
  cases h with
  | handleCreateDevice h =>
    unfold Relay.handleCreateDevice at h
    split_ifs at h
    split at h
    · cases h
    · next dev hdev =>
      split at h <;> cases h
      next hok => exact newDevice_credential hdev hok
  | runPair h =>
    unfold Relay.runPair at h
    split at h
    · cases h
    · cases h
    · split at h
      · cases h
      · next dev hdev =>
        split at h <;> cases h
        next hok => exact newDevice_credential hdev hok

/-! ## Over whole runs -/

/-- With any number of calls on an empty database at once and any of their statements failing, a
device is let in with a token exactly if that is the one of its last registration, it has not been
deleted since, and it has been linked since or the token has not expired. -/
theorem Database.admitted_iff_registered {labels : List DbLabel} {s : Database}
    (hrun : Lts.run step ⟨.empty, []⟩ labels = some s) (d token : String) (now : ℕ) :
    (∃ device, s.table.devices.authenticate d token now = .ok device) ↔
      d ≠ "" ∧ token ≠ "" ∧ ∃ before expiresAt after,
        Lts.observed step fact ⟨.empty, []⟩ labels = before ++ .registered d (token, expiresAt) :: after
          ∧ (∀ fact ∈ after, ¬ fact.Ends d)
          ∧ ((∃ fact ∈ after, fact.Links d) ∨ ∀ e ∈ expiresAt, now ≤ e) := by
  have hcred := run_credential hrun d
  constructor
  · rintro ⟨device, hok⟩
    obtain ⟨hd, ht, hc, hgood⟩ := Devices.credential_of_authenticate hok
    have hhistory := hcred.symm.trans hc
    obtain ⟨before, c₀, after, hsplit, hkept⟩ := Fact.registered_of_credential hhistory
    rw [hsplit, Fact.credential_registered] at hhistory
    obtain ⟨hlinked, hplain⟩ := Fact.credential_kept (c := c₀) hkept
    by_cases hlinks : ∃ fact ∈ after, fact.Links d
    · obtain ⟨rfl, -⟩ := Prod.mk.inj (Option.some.inj ((hlinked hlinks).symm.trans hhistory))
      exact ⟨hd, ht, before, c₀.2, after, hsplit, hkept, .inl hlinks⟩
    · have hnone : ∀ fact ∈ after, ¬ fact.Links d := fun fact hf hl => hlinks ⟨fact, hf, hl⟩
      obtain rfl := Option.some.inj ((hplain hnone).symm.trans hhistory)
      exact ⟨hd, ht, before, _, after, hsplit, hkept, .inr hgood⟩
  · rintro ⟨hd, ht, before, expiresAt, after, hsplit, hkept, hgood⟩
    rw [hsplit, Fact.credential_registered] at hcred
    obtain ⟨hlinked, hplain⟩ := Fact.credential_kept (c := (token, expiresAt)) hkept
    by_cases hlinks : ∃ fact ∈ after, fact.Links d
    · exact (Devices.authenticate_known hd ht (hcred.trans (hlinked hlinks))).1 (by simp)
    · have hnone : ∀ fact ∈ after, ¬ fact.Links d := fun fact hf hl => hlinks ⟨fact, hf, hl⟩
      exact (Devices.authenticate_known hd ht (hcred.trans (hplain hnone))).1
        (hgood.resolve_left hlinks)

/-- Two devices are linked, and one of them is deleted and registered again. -/
def registeredAgain : List DbLabel :=
  [.call (.createDevice { id := "a", deviceToken := "s", expiresAt := some 5 }),
    .call (.createDevice { id := "b", deviceToken := "t", expiresAt := some 5 }),
    .exec 1 none, .exec 0 none, .call (.pairDevices "a" "b"), .exec 0 none,
    .call (.deleteDevice "b"), .call (.touchLastSeen "a" 7), .exec 0 none, .exec 1 none, .exec 0 none,
    .call (.createDevice { id := "b", deviceToken := "u", expiresAt := some 9 }), .exec 0 none]

theorem Database.admitted_iff_registered_again :
    ∃ s, Lts.run step ⟨.empty, []⟩ registeredAgain = some s
      ∧ (∃ device, s.table.devices.authenticate "a" "s" 100 = .ok device)
      ∧ ∃ device, s.table.devices.authenticate "b" "u" 9 = .ok device := by
  have h : (Lts.run step ⟨.empty, []⟩ registeredAgain).isSome := by decide +kernel
  obtain ⟨s, hrun⟩ := Option.isSome_iff_exists.1 h
  have hhistory : Lts.observed step fact ⟨.empty, []⟩ registeredAgain
      = [.registered "b" ("t", some 5), .registered "a" ("s", some 5), .linked "a" "b", .deleted "b",
        .registered "b" ("u", some 9)] := by decide +kernel
  refine ⟨s, hrun, (admitted_iff_registered hrun ..).2 ⟨by decide, by decide, [_], some 5, _, hhistory,
    ?_, .inl ?_⟩, (admitted_iff_registered hrun ..).2 ⟨by decide, by decide, [_, _, _, _], some 9, [],
    hhistory, ?_, .inr ?_⟩⟩ <;> simp [Fact.Ends, Fact.Links]

/-- Of the credentials of a new device, whatever runs on the database at the time and after it:
`Handler` takes them for five minutes, and for good where the device has been linked by then, until
the device is deleted. -/
theorem Database.givesOut_admitted {s s' : Database} {t : DeviceTable} {uuid id token : String}
    {created : ℕ} {labels : List DbLabel} {history : List Fact}
    (hgives : GivesOut s.table uuid created id token t) (huuid : uuid ≠ "")
    (hrun : Lts.run step { s with table := t } labels = some s')
    (hhistory : Lts.observed step fact { s with table := t } labels = history)
    (hfresh : ∀ c, .registered uuid c ∉ history) (now : ℕ) :
    (.deleted uuid ∈ history →
      s'.table.devices.authenticate id token now = .error ⟨401, "unauthorized"⟩)
    ∧ (.deleted uuid ∉ history →
      (∃ f ∈ history, f.Links uuid) ∨ now ≤ created + deviceTokenTTL →
      ∃ device, s'.table.devices.authenticate id token now = .ok device)
    ∧ (.deleted uuid ∉ history → (∀ f ∈ history, ¬ f.Links uuid) → created + deviceTokenTTL < now →
      s'.table.devices.authenticate id token now = .error ⟨401, "pairing code expired"⟩) := by
  obtain ⟨rfl, htoken, hnew⟩ := hgives.credential
  have hcred := run_credential hrun id
  rw [hhistory, hnew] at hcred
  have hkept (hdel : .deleted id ∉ history) : ∀ f ∈ history, ¬ f.Ends id := by
    intro f hf hends
    cases f with
    | registered id' c => exact hfresh c ((show id = id' from hends) ▸ hf)
    | linked a b => exact hends
    | deleted id' => exact hdel ((show id = id' from hends) ▸ hf)
  refine ⟨fun hdel => ?_, fun hdel hgood => ?_, fun hdel hplain hlate => ?_⟩
  · exact Devices.authenticate_unknown huuid htoken (hcred.trans (Fact.credential_deleted hdel hfresh))
  · have hcases := Fact.credential_kept (c := (token, some (created + deviceTokenTTL))) (hkept hdel)
    by_cases hlinks : ∃ f ∈ history, f.Links id
    · exact (Devices.authenticate_known huuid htoken (hcred.trans (hcases.1 hlinks))).1 (by simp)
    · have hnone : ∀ f ∈ history, ¬ f.Links id := fun f hf hl => hlinks ⟨f, hf, hl⟩
      refine (Devices.authenticate_known huuid htoken (hcred.trans (hcases.2 hnone))).1 ?_
      simpa using hgood.resolve_left hlinks
  · have hcases := Fact.credential_kept (c := (token, some (created + deviceTokenTTL))) (hkept hdel)
    exact (Devices.authenticate_known huuid htoken (hcred.trans (hcases.2 hplain))).2
      ⟨_, rfl, hlate⟩

/-- The peer of a new device is about to be deleted. -/
def deletingPeer : Database where
  table := runCalls .empty [.createDevice { id := "b", deviceToken := "t" }]
  running := [⟨.deleteDevice "b", [.clearPairedWith "b", .deleteRow "b"], false⟩]

/-- The new device is linked with it between the two statements. -/
def linkedWhileDeleting : List DbLabel :=
  [.call (.pairDevices "a" "b"), .exec 0 none, .exec 1 none, .exec 0 none]

theorem Database.givesOut_admitted_linked :
    ∃ resp t s', handleCreateDevice deletingPeer.table (some "phone") (some fun _ => 0) "a" 0 none
        = .ok (resp, t)
      ∧ Lts.run step { deletingPeer with table := t } linkedWhileDeleting = some s'
      ∧ ∃ device, s'.table.devices.authenticate resp.deviceID resp.deviceToken (deviceTokenTTL + 1)
        = .ok device := by
  have h : (handleCreateDevice deletingPeer.table (some "phone") (some fun _ => 0) "a" 0 none).toOption.any
      fun p => (Lts.run step { deletingPeer with table := p.2 } linkedWhileDeleting).isSome
        ∧ Lts.observed step fact { deletingPeer with table := p.2 } linkedWhileDeleting
          = [.linked "a" "b", .deleted "b"] := by decide +kernel
  rcases hok : handleCreateDevice deletingPeer.table (some "phone") (some fun _ => 0) "a" 0 none
    with e | ⟨resp, t⟩
  · rw [hok] at h
    cases h
  · rw [hok] at h
    obtain ⟨hsome, hhistory⟩ := of_decide_eq_true h
    obtain ⟨s', hrun⟩ := Option.isSome_iff_exists.1 hsome
    refine ⟨resp, t, s', rfl, hrun, ?_⟩
    exact (givesOut_admitted (.handleCreateDevice hok) (by decide) hrun hhistory (by simp) _).2.1 (by simp)
      (.inl ⟨_, List.mem_cons_self .., .inl rfl⟩)

end Relayly.Relay
