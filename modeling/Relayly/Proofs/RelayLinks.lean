import Relayly.Proofs.RelayStep

/-!
# Links

The link of a device is in its row, in the connection that is registered for it, and in the
goroutines that are changing it.
-/

namespace Relayly.Relay

namespace Devices

variable {t t' : Devices}

/-- The device that a row is paired with. -/
def peer (t : Devices) (id : String) : Option String := (t id).bind Device.pairedWith

theorem link_eq (t : Devices) (id : String) : t.link id = (t.peer id).getD "" := rfl

theorem peer_of_pairedWith {d : String}
    (h : (t' d).map Device.pairedWith = (t d).map Device.pairedWith) : t'.peer d = t.peer d := by
  have hjoin : ∀ row : Option Device, row.bind Device.pairedWith = (row.map Device.pairedWith).join := by
    rintro (_ | row) <;> rfl
  rw [peer, peer, hjoin, h, hjoin]

/-- Links go both ways, and no device has an empty name. -/
structure WellFormed (t : Devices) : Prop where
  named : t "" = none
  symmetric : ∀ {a b}, t.peer a = some b → t.peer b = some a

theorem WellFormed.peer_empty (h : t.WellFormed) : t.peer "" = none := by simp [peer, h.named]

theorem WellFormed.ne_empty (h : t.WellFormed) {a b : String} (hp : t.peer a = some b) : b ≠ "" := by
  rintro rfl
  simpa [h.peer_empty] using h.symmetric hp

theorem link_eq_iff {a b : String} (hb : b ≠ "") : t.link a = b ↔ t.peer a = some b := by
  rw [link_eq]
  rcases hp : t.peer a with _ | b'
  · simp [Ne.symm hb]
  · simp

theorem peer_setPairedWith (t : Devices) (a b : String) (id : String) :
    (t.setPairedWith a b).peer id
      = if id = a ∧ (t a).isSome then some b else t.peer id := by
  unfold peer setPairedWith
  by_cases ha : id = a
  · subst ha
    rcases ht : t id with _ | row <;> simp
  · simp [ha]

theorem checkUnpaired_eq_ok {id : String} {u : Unit} :
    t.checkUnpaired id = .ok u ↔ ∃ row, t id = some row ∧ row.pairedWith = none := by
  unfold checkUnpaired
  rcases ht : t id with _ | row
  · simp
  · rcases hp : row.pairedWith with _ | peerID <;> simp [hp]

/-- `PairDevices` commits exactly where it finds two rows that are not paired. -/
theorem pairDevices_eq_ok {a b : String} : t.pairDevices a b = .ok t' ↔
    (∃ row, t a = some row ∧ row.pairedWith = none)
      ∧ (∃ row, t b = some row ∧ row.pairedWith = none)
      ∧ t' = (t.setPairedWith a b).setPairedWith b a := by
  rw [← checkUnpaired_eq_ok (u := ()), ← checkUnpaired_eq_ok (u := ()), pairDevices]
  rcases t.checkUnpaired a with e | ⟨⟩ <;> rcases t.checkUnpaired b with e' | ⟨⟩ <;> simp [eq_comm]

/-- `PairDevices` links two devices that were not paired, and only these. -/
theorem pairDevices_ok {a b : String} (h : t.pairDevices a b = .ok t') :
    (t a).isSome ∧ t.peer a = none ∧ t.peer b = none
      ∧ (∀ id, t'.peer id = if id = b then some a else if id = a then some b else t.peer id)
      ∧ ∀ id, t' id = none ↔ t id = none := by
  obtain ⟨⟨rowA, hrowA, hpA⟩, ⟨rowB, hrowB, hpB⟩, rfl⟩ := pairDevices_eq_ok.1 h
  have hsome : ((t.setPairedWith a b) b).isSome := by
    unfold setPairedWith
    split_ifs <;> simp [hrowB]
  refine ⟨by simp [hrowA], by simp [peer, hrowA, hpA], by simp [peer, hrowB, hpB], fun id => ?_,
    fun id => ?_⟩
  · rw [peer_setPairedWith, peer_setPairedWith]
    simp [hrowA, hsome]
  · unfold setPairedWith
    split_ifs <;> simp

/-- `PairDevices` links no device that has no row. -/
theorem pairDevices_ne {a b d : String} (h : t.pairDevices a b = .ok t') (hd : t d = none) :
    a ≠ d ∧ b ≠ d := by
  obtain ⟨ha, -, -, hpeer, hnone⟩ := pairDevices_ok h
  constructor
  · rintro rfl
    simp [hd] at ha
  · rintro rfl
    have hb := hpeer b
    rw [peer, (hnone b).2 hd, if_pos rfl] at hb
    cases hb

theorem peer_unpairDevice (t : Devices) (d id : String) :
    (t.unpairDevice d).peer id = if id = d ∨ t.peer id = some d then none else t.peer id := by
  unfold peer unpairDevice
  rcases ht : t id with _ | row
  · simp
  · by_cases hd : id = d ∨ row.pairedWith = some d <;> simp [hd]

theorem peer_clearPairedWith (t : Devices) (d id : String) :
    (t.clearPairedWith d).peer id = if t.peer id = some d then none else t.peer id := by
  unfold peer clearPairedWith
  rcases ht : t id with _ | row
  · simp
  · by_cases hd : row.pairedWith = some d <;> simp [hd]

theorem peer_deleteRow (t : Devices) (d id : String) :
    (t.deleteRow d).peer id = if id = d then none else t.peer id := by
  unfold peer deleteRow
  by_cases hd : id = d <;> simp [hd]

/-- `UnpairDevice` takes the link of a device and of its peer. -/
theorem WellFormed.peer_unpairDevice (h : t.WellFormed) (d id : String) :
    (t.unpairDevice d).peer id = if id = d ∨ t.peer d = some id then none else t.peer id := by
  rw [Devices.peer_unpairDevice]
  have hiff : t.peer id = some d ↔ t.peer d = some id := ⟨h.symmetric, h.symmetric⟩
  simp only [hiff]

/-- Links go both ways but for those of the devices in `D`, and none is to one of these. -/
structure MatchingOff (t : Devices) (D : String → Prop) : Prop where
  toward : ∀ {a b}, t.peer a = some b → ¬ D b
  symmetric : ∀ {a b}, t.peer a = some b → ¬ D a → t.peer b = some a

theorem WellFormed.matching (h : t.WellFormed) : t.MatchingOff fun _ => False :=
  ⟨fun _ => id, fun hp _ => h.symmetric hp⟩

namespace MatchingOff

variable {D D' : String → Prop}

theorem same (h : t.MatchingOff D) (hpeer : ∀ id, t'.peer id = t.peer id) : t'.MatchingOff D :=
  ⟨fun hp => h.toward (hpeer _ ▸ hp), fun hp hD => by
    rw [hpeer]
    exact h.symmetric (hpeer _ ▸ hp) hD⟩

theorem pairDevices (h : t.MatchingOff D) {a b : String} (hok : t.pairDevices a b = .ok t')
    (ha : ¬ D a) (hb : ¬ D b) : t'.MatchingOff D := by
  obtain ⟨-, hpa, hpb, hpeer, -⟩ := pairDevices_ok hok
  constructor
  · intro x y hxy
    rw [hpeer] at hxy
    split_ifs at hxy
    · cases hxy
      exact ha
    · cases hxy
      exact hb
    · exact h.toward hxy
  · intro x y hxy hx
    rw [hpeer] at hxy ⊢
    split_ifs at hxy with hxb hxa
    · cases hxy
      subst hxb
      simp
    · cases hxy
      subst hxa
      simp
    · have hy := h.symmetric hxy hx
      have hyb : y ≠ b := by
        rintro rfl
        rw [hpb] at hy
        cases hy
      have hya : y ≠ a := by
        rintro rfl
        rw [hpa] at hy
        cases hy
      simp [hyb, hya, hy]

theorem unpairDevice (h : t.MatchingOff D) (d : String) : (t.unpairDevice d).MatchingOff D := by
  constructor
  · intro x y hxy
    rw [peer_unpairDevice] at hxy
    split_ifs at hxy
    exact h.toward hxy
  · intro x y hxy hD
    rw [peer_unpairDevice] at hxy ⊢
    split_ifs at hxy with hx
    rw [not_or] at hx
    have hy := h.symmetric hxy hD
    have hyd : y ≠ d := by
      rintro rfl
      exact hx.2 hxy
    rw [if_neg, hy]
    rintro (hd | hd)
    · exact hyd hd
    · rw [hy] at hd
      exact hx.1 (Option.some.inj hd)

/-- After the first statement of `DeleteDevice` no link is to the device, but its own may stay. -/
theorem clearPairedWith (h : t.MatchingOff D) (d : String) :
    (t.clearPairedWith d).MatchingOff fun x => D x ∨ x = d := by
  constructor
  · intro x y hxy
    rw [peer_clearPairedWith] at hxy
    split_ifs at hxy with hx
    rintro (hD | rfl)
    · exact h.toward hxy hD
    · exact hx hxy
  · intro x y hxy hD
    rw [not_or] at hD
    rw [peer_clearPairedWith] at hxy ⊢
    split_ifs at hxy with hx
    have hy := h.symmetric hxy hD.1
    rw [if_neg, hy]
    rw [hy]
    exact fun hxd => hD.2 (Option.some.inj hxd)

theorem deleteRow (h : t.MatchingOff D) {d : String} (hd : D d) : (t.deleteRow d).MatchingOff D := by
  constructor
  · intro x y hxy
    rw [peer_deleteRow] at hxy
    split_ifs at hxy
    exact h.toward hxy
  · intro x y hxy hD
    rw [peer_deleteRow] at hxy ⊢
    split_ifs at hxy
    rw [if_neg, h.symmetric hxy hD]
    rintro rfl
    exact h.toward hxy hd

/-- A device with no link need not be left out. -/
theorem release (h : t.MatchingOff D) (hsub : ∀ d, D' d → D d)
    (hnone : ∀ d, D d → D' d ∨ t.peer d = none) : t.MatchingOff D' := by
  refine ⟨fun hp hb => h.toward hp (hsub _ hb), fun {a b} hp ha => h.symmetric hp fun hD => ?_⟩
  rcases hnone a hD with ha' | hn
  · exact ha ha'
  · rw [hn] at hp
    cases hp

end MatchingOff

theorem WellFormed.pairDevices (h : t.WellFormed) {a b : String} (hok : t.pairDevices a b = .ok t') :
    t'.WellFormed := by
  obtain ⟨-, -, -, -, hnone⟩ := pairDevices_ok hok
  exact ⟨(hnone "").2 h.named, fun hp => (h.matching.pairDevices hok id id).symmetric hp id⟩

theorem WellFormed.unpairDevice (h : t.WellFormed) (d : String) : (t.unpairDevice d).WellFormed :=
  ⟨by simp [Devices.unpairDevice, h.named], fun hp => (h.matching.unpairDevice d).symmetric hp id⟩

end Devices

/-- The peer of the link that a goroutine is changing. -/
def Pc.linking : Pc → Option String
  | .pairAccept (.myKey _ r) | .pairAccept (.requesterKey _ r _)
  | .pairAccept (.setPeer _ r _ _) | .pairAccept (.complete _ r _ _)
  | .pairAccept (.lookup _ r _) | .pairAccept (.setRequester _ r _ _) => some r
  | .unpair (.unpairDevice p) | .unpair (.setPeer p) | .unpair (.unpaired p)
  | .unpair (.lookup p) | .unpair (.clearPeer p _) => some p
  | _ => none

/-- The connection of the peer that `setPeer` is about to be called on. -/
def Pc.target : Pc → Option (String × ℕ)
  | .pairAccept (.setRequester _ r _ t) => some (r, t)
  | .unpair (.clearPeer p t) => some (p, t)
  | _ => none

theorem Pc.Ordinary.linking {pc : Pc} (h : pc.Ordinary) : pc.linking = none := by
  unfold Pc.linking
  split <;> first | rfl | cases h

theorem Pc.Ordinary.target {pc : Pc} (h : pc.Ordinary) : pc.target = none := by
  unfold Pc.target
  split <;> first | rfl | cases h

theorem startWelcome_target (device : Device) : (startWelcome device).target = none := by
  unfold startWelcome
  split <;> rfl

theorem dispatch_target (c : ℕ) (frame : Inbound) : (dispatch c frame).target = none := by
  cases frame <;> simp only [dispatch] <;> (try split_ifs) <;> rfl

theorem Exec.target {s : Server} {c : ℕ} {conn : Conn} {a : Access} {pc : Pc}
    (h : Exec s c conn a pc) {r : String} {t : ℕ} (ht : pc.target = some (r, t)) :
    s.clients r = some t := by
  cases h with
  | ordinary _ _ hpc =>
    rw [hpc.target] at ht
    cases ht
  | register device =>
    rw [startWelcome_target] at ht
    cases ht
  | requester _ _ _ _ _ hc | findPeer _ _ _ hc =>
    cases ht
    exact hc
  | _ => cases ht

namespace Server

variable {s s' : Server} {c : ℕ} {conn : Conn}

/-- The connections under a device's name are its own. -/
structure Keyed (s : Server) : Prop where
  clients : ∀ id c, s.clients id = some c → ∃ pc, s.seen c = some (id, pc)
  target : ∀ c d pc, s.seen c = some (d, pc) → ∀ r t, pc.target = some (r, t) →
    ∃ pc', s.seen t = some (r, pc')
  named : ∀ c d pc, s.seen c = some (d, pc) → d ≠ ""

theorem Keyed.device (h : s.Keyed) {id : String} (hid : s.clients id = some c)
    (hc : s.conns[c]? = some conn) : conn.deviceID = id := by
  obtain ⟨pc, hpc⟩ := h.clients id c hid
  rw [seen_of_conn hc] at hpc
  exact (Prod.mk.inj (Option.some.inj hpc)).1

theorem Keyed.same (h : s.Keyed) (hseen : s'.seen = s.seen)
    (hc : ∀ id c, s'.clients id = some c → ∃ pc, s.seen c = some (id, pc)) : s'.Keyed where
  clients := by rw [hseen]; exact hc
  target := by rw [hseen]; exact h.target
  named := by rw [hseen]; exact h.named

/-- A goroutine moves on; where it is about to call `setPeer` on another connection it has found it
under the name of its device. -/
theorem Keyed.move (h : s.Keyed) {d : String} {pc pc' : Pc} (hs : s.seen c = some (d, pc))
    (hseen : s'.seen = Function.update s.seen c (some (d, pc'))) (hc : s'.clients = s.clients)
    (ht : ∀ r t, pc'.target = some (r, t) → s.clients r = some t) : s'.Keyed := by
  have hkept : ∀ {c₁ d₁ pc₁}, s.seen c₁ = some (d₁, pc₁) → ∃ pc₂, s'.seen c₁ = some (d₁, pc₂) := by
    intro c₁ d₁ pc₁ h₁
    rw [hseen]
    by_cases hcc : c₁ = c
    · subst hcc
      obtain ⟨rfl, -⟩ := Prod.mk.inj (Option.some.inj (hs.symm.trans h₁))
      exact ⟨pc', by simp⟩
    · exact ⟨pc₁, by simpa [hcc] using h₁⟩
  refine ⟨fun id c₁ hid => ?_, fun c₁ d₁ pc₁ h₁ r t htarget => ?_, fun c₁ d₁ pc₁ h₁ => ?_⟩
  · obtain ⟨q, hq⟩ := h.clients id c₁ (hc ▸ hid)
    exact hkept hq
  · rw [hseen] at h₁
    by_cases hcc : c₁ = c
    · rw [hcc, Function.update_self] at h₁
      obtain ⟨-, rfl⟩ := Prod.mk.inj (Option.some.inj h₁)
      obtain ⟨q, hq⟩ := h.clients r t (ht r t htarget)
      exact hkept hq
    · rw [Function.update_of_ne hcc] at h₁
      obtain ⟨q, hq⟩ := h.target c₁ d₁ pc₁ h₁ r t htarget
      exact hkept hq
  · rw [hseen] at h₁
    by_cases hcc : c₁ = c
    · rw [hcc, Function.update_self] at h₁
      obtain ⟨rfl, -⟩ := Prod.mk.inj (Option.some.inj h₁)
      exact h.named c _ _ hs
    · rw [Function.update_of_ne hcc] at h₁
      exact h.named c₁ d₁ pc₁ h₁

theorem seen_connect (s : Server) (conn : Conn) (c : ℕ) :
    { s with conns := s.conns ++ [conn] }.seen c
      = if c = s.conns.length then some (conn.deviceID, conn.pc) else s.seen c := by
  simp only [seen, List.getElem?_append]
  split_ifs with hlt hc hc
  · omega
  · rfl
  · simp [hc]
  · rw [List.getElem?_eq_none (by simp; omega), List.getElem?_eq_none (by omega)]

theorem seen_lt {x : String × Pc} (h : s.seen c = some x) : c < s.conns.length := by
  obtain ⟨conn, hc, -⟩ := Option.map_eq_some_iff.1 h
  exact (List.getElem?_eq_some_iff.1 hc).1

theorem Keyed.connect (h : s.Keyed) (conn : Conn) (hd : conn.deviceID ≠ "")
    (ht : conn.pc.target = none) : { s with conns := s.conns ++ [conn] }.Keyed := by
  have hkept : ∀ {c x}, s.seen c = some x →
      { s with conns := s.conns ++ [conn] }.seen c = some x := by
    intro c x hx
    rw [seen_connect, if_neg (Nat.ne_of_lt (seen_lt hx)), hx]
  refine ⟨fun id c hid => ?_, fun c d pc hs r t htarget => ?_, fun c d pc hs => ?_⟩
  · obtain ⟨pc, hpc⟩ := h.clients id c hid
    exact ⟨pc, hkept hpc⟩
  · rw [seen_connect] at hs
    split_ifs at hs
    · cases hs
      rw [ht] at htarget
      cases htarget
    · obtain ⟨pc', hpc'⟩ := h.target c d pc hs r t htarget
      exact ⟨pc', hkept hpc'⟩
  · rw [seen_connect] at hs
    split_ifs at hs
    · cases hs
      exact hd
    · exact h.named c d pc hs

theorem Keyed.hubMove (h : s.Keyed) (hm : s.HubMove s') : s'.Keyed := by
  cases hm with
  | register c client hh hc =>
    refine h.same (s.seen_evict client.deviceID) fun id c' hid => ?_
    by_cases hd : id = client.deviceID
    · subst hd
      obtain rfl : c = c' := by simpa using hid
      exact ⟨client.pc, seen_of_conn hc⟩
    · exact h.clients id c' (by simpa [hd] using hid)
  | unregister c client hh hc hcur =>
    refine h.same rfl fun id c' hid => ?_
    by_cases hd : id = client.deviceID
    · simp [hd] at hid
    · exact h.clients id c' (by simpa [hd] using hid)
  | notify c about online =>
    exact h.same (seen_modify s c fun conn => ⟨conn.enqueue_deviceID _, conn.enqueue_pc _⟩) h.clients
  | stale | peer | unpaired | found | offline => exact h.same rfl h.clients

theorem Keyed.read (h : s.Keyed) {pc : Pc} (hpc : pc.target = none) (hr : s.read c pc = some s') :
    s'.Keyed := by
  obtain ⟨conn, hc, -, rfl⟩ := read_eq_some hr
  exact h.move (seen_of_conn hc) (s.seen_advance .none pc hc) rfl fun r t ht => by
    rw [hpc] at ht
    cases ht

theorem Keyed.step (h : s.Keyed) {l : Label} (hstep : s.step l = some s') : s'.Keyed := by
  cases l with
  | connect deviceID token now upgraded =>
    cases hstep
    rcases s.handler_cases deviceID token now upgraded with heq | ⟨hd, device, -, heq⟩ <;> rw [heq]
    · exact h
    · exact h.connect _ hd rfl
  | receive c frame => exact h.read (dispatch_target c frame) hstep
  | disconnect c => exact h.read rfl hstep
  | handler c env =>
    obtain ⟨conn, a, pc, hc, hx, rfl⟩ := runHandler_move hstep
    exact h.move (seen_of_conn hc) (s.seen_advance a pc hc) (s.advance_clients c a pc)
      fun r t ht => hx.target ht
  | write c =>
    cases hstep
    exact h.same (seen_modify s c fun _ => ⟨rfl, rfl⟩) h.clients
  | takeRegister =>
    obtain ⟨c, rest, -, -, rfl⟩ := takeRegister_eq_some hstep
    exact h.same rfl h.clients
  | takeUnregister =>
    obtain ⟨c, rest, -, -, rfl⟩ := takeUnregister_eq_some hstep
    exact h.same rfl h.clients
  | hub => exact h.hubMove (runHub_move hstep)

theorem start_keyed (devices : Devices) (pairCodes : PairCodes) : (start devices pairCodes).Keyed :=
  ⟨nofun, fun c d pc hs => by simp [start, seen] at hs, fun c d pc hs => by simp [start, seen] at hs⟩

end Server

end Relayly.Relay
