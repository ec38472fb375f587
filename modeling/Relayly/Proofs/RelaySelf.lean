import Relayly.Lib.Agree
import Relayly.Lib.Run
import Relayly.Proofs.RelayLinks
import Relayly.Relay.Admin

/-!
# Devices linked with themselves

`PairDevices` does not ask whether its two ids differ. `handlePairAccept` and the admin's
`handlePairDevices` do, and `relayly link` does not, so a device gets linked with itself exactly by a
`relayly link` with its id twice (`noSelfLink_iff_linksApart`).
-/

namespace Relayly.Relay

namespace Devices

variable {t t' : Devices}

/-- No row has its own id in `paired_with`. -/
def NoSelfLink (t : Devices) : Prop := ∀ id, t.peer id ≠ some id

theorem NoSelfLink.of_pairedWith (h : t.NoSelfLink)
    (hsame : ∀ id, (t' id).map Device.pairedWith = (t id).map Device.pairedWith) : t'.NoSelfLink :=
  fun id => by rw [peer_of_pairedWith (hsame id)]; exact h id

theorem NoSelfLink.unpairDevice (h : t.NoSelfLink) (d : String) : (t.unpairDevice d).NoSelfLink := by
  intro id
  rw [peer_unpairDevice]
  split_ifs
  · nofun
  · exact h id

/-- `PairDevices` links a device with itself exactly where it is given one id. -/
theorem NoSelfLink.pairDevices_iff (h : t.NoSelfLink) {a b : String} (hok : t.pairDevices a b = .ok t') :
    t'.NoSelfLink ↔ a ≠ b := by
  obtain ⟨-, -, -, hpeer, -⟩ := pairDevices_ok hok
  constructor
  · rintro hno rfl
    exact hno a (by rw [hpeer, if_pos rfl])
  · intro hne id
    rw [hpeer]
    split_ifs with hb ha
    · exact fun he => hne (Option.some.inj he |>.trans hb)
    · exact fun he => hne (ha.symm.trans (Option.some.inj he).symm)
    · exact h id

end Devices

/-- The requester with which a goroutine is about to call `PairDevices`. -/
def Pc.pairing : Pc → Option String
  | .pairAccept (.pairDevices _ r) => some r
  | _ => none

theorem dispatch_pairing (c : ℕ) (frame : Inbound) : (dispatch c frame).pairing = none := by
  cases frame <;> simp only [dispatch, sendError] <;> (try split_ifs) <;> rfl

section

variable {s : Server} {c : ℕ} {conn : Conn} {env : Env} {r : String}

theorem handleAnnounceKey_pairing (key : String) :
    (handleAnnounceKey s c conn env key).2.pairing = none := by
  unfold handleAnnounceKey
  split <;> rfl

theorem handlePairRequest_pairing : (handlePairRequest s c conn env).2.pairing = none := by
  unfold handlePairRequest
  split <;> rfl

/-- `handlePairAccept` goes on to `PairDevices` with another device only. -/
theorem handlePairAccept_pairing {next : PairAccept}
    (hr : (handlePairAccept s c conn env next).2.pairing = some r) : r ≠ conn.deviceID := by
  cases next with
  | take code =>
    simp only [handlePairAccept] at hr
    split at hr
    · cases hr
    · cases hr
    · split_ifs at hr with hself
      · cases hr
      · exact Option.some.inj hr ▸ hself
  | pairDevices code r' =>
    simp only [handlePairAccept] at hr
    split at hr <;> cases hr
  | lookup code r' key =>
    simp only [handlePairAccept] at hr
    split at hr <;> cases hr
  | _ => cases hr

theorem route_pairing {next : Route} {x : Access × Pc} (hx : route s conn next = some x) :
    x.2.pairing = none := by
  cases next with
  | peer payload =>
    obtain rfl := Option.some.inj hx
    dsimp only
    split_ifs <;> rfl
  | lookup peerID payload =>
    obtain rfl := Option.some.inj hx
    dsimp only
    split <;> rfl
  | enqueue peer payload =>
    obtain rfl := Option.some.inj hx
    dsimp only
    split_ifs <;> rfl
  | close peer =>
    obtain rfl := Option.some.inj hx
    rfl
  | unregister peer =>
    simp only [route] at hx
    split_ifs at hx
    obtain rfl := Option.some.inj hx
    rfl

theorem exec_pairing {x : Access × Pc} (hx : exec s c conn env = some x) (hr : x.2.pairing = some r) :
    r ≠ conn.deviceID := by
  cases hpc : conn.pc <;> simp only [exec, hpc] at hx
  case pairAccept next =>
    obtain rfl := Option.some.inj hx
    exact handlePairAccept_pairing hr
  case announceKey key =>
    obtain rfl := Option.some.inj hx
    simp [handleAnnounceKey_pairing] at hr
  case pairRequest =>
    obtain rfl := Option.some.inj hx
    simp [handlePairRequest_pairing] at hr
  case route next => simp [route_pairing hx] at hr
  case register device =>
    split_ifs at hx
    obtain rfl := Option.some.inj hx
    unfold startWelcome at hr
    split at hr <;> cases hr
  case sendWelcome next =>
    obtain rfl := Option.some.inj hx
    rcases next with _ | ⟨_, _ | _⟩ | _ | _ <;> cases hr
  case unpair next =>
    obtain rfl := Option.some.inj hx
    cases next <;> simp only [handleUnpair] at hr <;> (try split at hr) <;> cases hr
  case sendErrorAndClose =>
    obtain rfl := Option.some.inj hx
    dsimp only at hr
    split_ifs at hr <;> cases hr
  case unregister =>
    split_ifs at hx
    obtain rfl := Option.some.inj hx
    cases hr
  all_goals cases hx
  all_goals cases hr

end

namespace Server

variable {s s' : Server}

/-- No row is linked with itself, and no goroutine is about to link one so. -/
structure Apart (s : Server) : Prop where
  devices : s.devices.NoSelfLink
  pairing : ∀ c d pc r, s.seen c = some (d, pc) → pc.pairing = some r → r ≠ d

/-- A goroutine moves on. -/
theorem Apart.advance (h : s.Apart) {c : ℕ} {conn : Conn} {a : Access} {pc : Pc}
    (hc : s.conns[c]? = some conn) (ht : (a.devicesAfter s.devices).NoSelfLink)
    (hpc : ∀ r, pc.pairing = some r → r ≠ conn.deviceID) : (s.advance c a pc).Apart := by
  refine ⟨by rw [advance_devices]; exact ht, fun c' d pc' r hs hr => ?_⟩
  rw [seen_advance s a pc hc, Function.update_apply] at hs
  split_ifs at hs with hcc
  · cases hs
    exact hpc r hr
  · exact h.pairing c' d pc' r hs hr

theorem Apart.exec_devices (h : s.Apart) {c : ℕ} {conn : Conn} {a : Access} {pc : Pc}
    (hc : s.conns[c]? = some conn) (hx : Exec s c conn a pc) :
    (a.devicesAfter s.devices).NoSelfLink := by
  cases hx with
  | ordinary _ ha _ =>
    cases ha with
    | devices t ht => exact h.devices.of_pairedWith ht
    | _ => exact h.devices
  | pair code r t hp ht =>
    refine (h.devices.pairDevices_iff ht).2 (h.pairing c _ _ r (seen_of_conn hc) ?_)
    rw [hp]
    rfl
  | unpair p _ => exact h.devices.unpairDevice conn.deviceID
  | _ => exact h.devices

theorem Apart.step (h : s.Apart) {l : Label} (hstep : s.step l = some s') : s'.Apart := by
  cases step_moves hstep with
  | connect deviceID token now upgraded device hne hd =>
    refine ⟨h.devices, fun c d pc r hs hr => ?_⟩
    rw [seen_connect] at hs
    split_ifs at hs
    · cases hs
      cases hr
    · exact h.pairing c d pc r hs hr
  | receive c frame conn hc hr =>
    exact h.advance hc h.devices fun r hr => by simp [dispatch_pairing] at hr
  | disconnect c conn hc hr => exact h.advance hc h.devices nofun
  | handler c env conn x hc hx =>
    exact h.advance hc (h.exec_devices hc (exec_move hx)) fun r => exec_pairing hx
  | quiet l s' hdev hview hheard =>
    exact ⟨hdev ▸ h.devices, fun c d pc r hs => h.pairing c d pc r (seen_of_view hview ▸ hs)⟩

end Server

/-! ## The requests -/

theorem guard_eq_ok {α : Type} {fault : Option LinkFault} {here : LinkFault} {context : String}
    {x : Except DbError α} {a : α} :
    LinkFault.guard fault here context x = .ok a ↔ fault ≠ some here ∧ x = .ok a := by
  unfold LinkFault.guard
  by_cases hf : fault = some here
  · simp [hf]
  · rcases x with e | b <;> simp [hf]

/-- `PairDevices` reads both rows. -/
theorem Devices.pairDevices_getDeviceByID {t t' : Devices} {a b : String}
    (h : t.pairDevices a b = .ok t') :
    (∃ row, t.getDeviceByID a = .ok row) ∧ ∃ row, t.getDeviceByID b = .ok row := by
  obtain ⟨⟨rowA, hrowA, -⟩, ⟨rowB, hrowB, -⟩, -⟩ := Devices.pairDevices_eq_ok.1 h
  exact ⟨⟨rowA, by simp [getDeviceByID, hrowA]⟩, rowB, by simp [getDeviceByID, hrowB]⟩

/-- `relayly link` is `PairDevices` of its two arguments, whatever they are. -/
theorem runLink_eq_ok {t t' : Devices} {id1 id2 : String} {fault : Option LinkFault} :
    runLink t id1 id2 fault = .ok t' ↔ fault = none ∧ t.pairDevices id1 id2 = .ok t' := by
  constructor
  · intro h
    unfold runLink at h
    obtain ⟨_, hconfig, h⟩ := Except.bind_ok h
    obtain ⟨_, hopen, h⟩ := Except.bind_ok h
    obtain ⟨_, h1, h⟩ := Except.bind_ok h
    obtain ⟨_, h2, h⟩ := Except.bind_ok h
    obtain ⟨hfault, hok⟩ := guard_eq_ok.1 h
    refine ⟨?_, hok⟩
    rcases fault with _ | (_ | _ | _ | _ | _)
    · rfl
    · exact absurd rfl (guard_eq_ok.1 hconfig).1
    · exact absurd rfl (guard_eq_ok.1 hopen).1
    · exact absurd rfl (guard_eq_ok.1 h1).1
    · exact absurd rfl (guard_eq_ok.1 h2).1
    · exact absurd rfl hfault
  · rintro ⟨rfl, h⟩
    obtain ⟨⟨row1, h1⟩, row2, h2⟩ := Devices.pairDevices_getDeviceByID h
    simp only [runLink, LinkFault.guard, h1, h2, h]
    rfl

theorem handlePairDevices_ok {t t' : Devices} {parsed fault : Bool} {id1 id2 : String}
    (h : handlePairDevices t parsed id1 id2 fault = .ok t') :
    id1 ≠ id2 ∧ t.pairDevices id1 id2 = .ok t' := by
  unfold handlePairDevices at h
  split_ifs at h with hparsed hids
  split at h
  · cases h
  · next t₁ ht =>
    cases h
    exact ⟨fun he => hids (.inr (.inr he)), ht⟩

/-- `relayly link` links a device with itself exactly where it is given the id of an unpaired one twice. -/
theorem Devices.NoSelfLink.runLink_iff {t : Devices} (h : t.NoSelfLink) {id1 id2 : String}
    {fault : Option LinkFault} : (∀ t', runLink t id1 id2 fault = .ok t' → t'.NoSelfLink)
      ↔ (id1 = id2 → fault = none → ∀ row, t id1 = some row → row.pairedWith ≠ none) := by
  constructor
  · rintro hno rfl rfl row hrow hnone
    have hok : t.pairDevices id1 id1 = .ok ((t.setPairedWith id1 id1).setPairedWith id1 id1) :=
      Devices.pairDevices_eq_ok.2 ⟨⟨row, hrow, hnone⟩, ⟨row, hrow, hnone⟩, rfl⟩
    exact (h.pairDevices_iff hok).1 (hno _ (runLink_eq_ok.2 ⟨rfl, hok⟩)) rfl
  · intro hpaired t' ht'
    obtain ⟨hfault, hok⟩ := runLink_eq_ok.1 ht'
    refine (h.pairDevices_iff hok).2 fun heq => ?_
    obtain ⟨hsome, hpeer, -⟩ := Devices.pairDevices_ok hok
    obtain ⟨row, hrow⟩ := Option.isSome_iff_exists.1 hsome
    exact hpaired heq hfault row hrow (by simpa [Devices.peer, hrow] using hpeer)

namespace Server

variable {s s' : Server}

theorem Apart.commit_devices {ε : Type} (h : s.Apart) {x : Except ε Devices}
    (hx : ∀ t, x = .ok t → t.NoSelfLink) : (s.commit x).devices.NoSelfLink := by
  rcases x with e | t
  · exact h.devices
  · exact hx t rfl

theorem commit_seen {ε : Type} (s : Server) (x : Except ε Devices) : (s.commit x).seen = s.seen := by
  cases x <;> rfl

/-- A `relayly link` with one id twice does not find such a device unpaired. -/
def LinksApart (s : Server) : Request → Prop
  | .runLink id1 id2 fault => id1 = id2 → fault = none →
    ∀ row, s.devices id1 = some row → row.pairedWith ≠ none
  | _ => True

/-- The table has no device linked with itself after the request. -/
def StaysApart (s : Server) (r : Request) : Prop :=
  ∀ s', s.request r = some s' → s'.devices.NoSelfLink

theorem Apart.request_iff (h : s.Apart) (r : Request) : s.StaysApart r ↔ s.LinksApart r := by
  cases r with
  | relay l => exact iff_of_true (fun s' hstep => (h.step hstep).devices) trivial
  | handlePairDevices parsed id1 id2 fault =>
    refine iff_of_true (fun s' hstep => ?_) trivial
    cases hstep
    exact h.commit_devices fun t ht => by
      obtain ⟨hne, hok⟩ := handlePairDevices_ok ht
      exact (h.devices.pairDevices_iff hok).2 hne
  | runLink id1 id2 fault =>
    rw [StaysApart, LinksApart, ← h.devices.runLink_iff]
    constructor
    · intro hstays t ht
      have := hstays _ rfl
      rwa [ht] at this
    · rintro hlink s' ⟨⟩
      exact h.commit_devices hlink

theorem Apart.request (h : s.Apart) {r : Request} (hr : s.LinksApart r) (hstep : s.request r = some s') :
    s'.Apart := by
  have hdevices : s'.devices.NoSelfLink := (h.request_iff r).2 hr s' hstep
  cases r with
  | relay l => exact h.step hstep
  | handlePairDevices parsed id1 id2 fault =>
    cases hstep
    exact ⟨hdevices, by rw [commit_seen]; exact h.pairing⟩
  | runLink id1 id2 fault =>
    cases hstep
    exact ⟨hdevices, by rw [commit_seen]; exact h.pairing⟩

/-- From a table in which no device is linked with itself, none ever is exactly if no `relayly link` is
given the id of an unpaired device twice. -/
theorem noSelfLink_iff_linksApart (devices : Devices) (pairCodes : PairCodes) (requests : List Request)
    (h : devices.NoSelfLink) :
    Lts.Meets request StaysApart (start devices pairCodes) requests
      ↔ Lts.Meets request LinksApart (start devices pairCodes) requests :=
  Lts.meets_congr (I := Apart) (fun _ _ _ hs hc => hs.request hc) (fun _ r hs => hs.request_iff r)
    requests ⟨h, fun c d pc r hs => by simp [start, seen] at hs⟩

/-- Two devices, neither of them paired. -/
def aloneAB : Devices := fun id => if id = "a" ∨ id = "b" then some { deviceToken := "t" } else none

theorem aloneAB_noSelfLink : aloneAB.NoSelfLink := by
  intro id
  by_cases h : id = "a" ∨ id = "b" <;> simp [Devices.peer, aloneAB, h]

/-- `relayly link a b`, and then `relayly link a a`, which finds the device paired. -/
theorem noSelfLink_iff_linksApart_linked :
    Lts.Meets request StaysApart (start aloneAB fun _ => none)
      [.runLink "a" "b" none, .runLink "a" "a" none] := by
  refine (noSelfLink_iff_linksApart aloneAB _ _ aloneAB_noSelfLink).2
    ⟨fun hab => absurd hab (by decide), ?_⟩
  rintro s ⟨⟩
  refine ⟨fun _ _ row hrow => ?_, fun _ _ => trivial⟩
  obtain rfl : ({ deviceToken := "t", pairedWith := some "b" } : Device) = row := Option.some.inj hrow
  exact nofun

/-- `relayly link a a`. -/
theorem linked_with_itself : ∃ s row, (start aloneAB fun _ => none).request (.runLink "a" "a" none) = some s
    ∧ s.devices "a" = some row ∧ row.pairedWith = some "a" :=
  ⟨_, _, rfl, rfl, rfl⟩

end Server

end Relayly.Relay
