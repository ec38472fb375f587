import Relayly.Proofs.RelayRouting

/-!
# Presence

What a device knows of its peer comes from two sources: the lookup of `sendWelcome`, and the notices
of the hub. A connection that has looked its peer up and is not registered yet gets neither.
-/

namespace Relayly.Relay

/-- What a frame says of `peer`. -/
def WsFrame.tells (peer : String) (frame : WsFrame) : Option Bool :=
  frame.status.bind fun x => if x.1 = peer then some x.2 else none

/-- The last `peer_status` about `peer` that the send queue of a connection took. -/
def Conn.told (peer : String) (conn : Conn) : Option Bool :=
  (conn.accepted.filterMap (WsFrame.tells peer)).getLast?

/-- `sendWelcome` has returned. -/
def Pc.welcomed : Pc → Bool
  | .register _ | .sendWelcome _ => false
  | _ => true

/-- `sendWelcome` has looked the peer up. -/
def Pc.isStatus : Pc → Bool
  | .sendWelcome (.status ..) => true
  | _ => false

/-- The peer that `sendWelcome` tells of, or empty. -/
def Pc.welcoming : Pc → Option String
  | .register device => some (device.pairedWith.getD "")
  | .sendWelcome (.staticKey p) | .sendWelcome (.lookup p) | .sendWelcome (.status p _) => some p
  | .sendWelcome (.welcome _ p) => some (p.getD "")
  | _ => none

section Frames

variable {peer : String} {frame : WsFrame} {conn : Conn} {a : Access} {c : ℕ}

theorem WsFrame.tells_of_status (h : frame.status = none) : frame.tells peer = none := by
  simp [WsFrame.tells, h]

theorem Conn.told_enqueue_of_none (h : frame.tells peer = none) :
    (conn.enqueue frame).told peer = conn.told peer := by
  unfold Conn.enqueue Conn.told
  split_ifs <;> simp [h]

theorem Conn.told_enqueue {o : Bool} (hacc : conn.accepts = true) (h : frame.tells peer = some o) :
    (conn.enqueue frame).told peer = some o := by
  simp [Conn.enqueue, Conn.told, hacc, h]

theorem Access.told_on (h : ∀ frame, a = .enqueue c frame → frame.tells peer = Option.none) :
    (a.on c conn).told peer = conn.told peer := by
  cases a with
  | enqueue t frame =>
    simp only [Access.on]
    split_ifs with ht
    · exact Conn.told_enqueue_of_none (h frame (by rw [ht]))
    · rfl
  | _ => simp only [Access.on] <;> (try split_ifs) <;> rfl

theorem Access.closed_on (h : (a.on c conn).closed = false) : conn.closed = false := by
  cases a with
  | close t =>
    simp only [Access.on] at h
    split_ifs at h
    · simp [Conn.close] at h
    · exact h
  | enqueue t frame =>
    simp only [Access.on] at h
    split_ifs at h
    · rwa [Conn.enqueue_closed] at h
    · exact h
  | setPeer t id =>
    simp only [Access.on] at h
    split_ifs at h <;> exact h
  | _ => exact h

theorem Access.closed_of_on (h : conn.closed = true) : (a.on c conn).closed = true := by
  cases ho : (a.on c conn).closed with
  | true => rfl
  | false => rw [Access.closed_on ho] at h; cases h

theorem Pc.Ordinary.welcomed {pc : Pc} (h : pc.Ordinary) : pc.welcomed = true := by
  cases pc <;> first | rfl | cases h

theorem dispatch_welcomed (c : ℕ) (frame : Inbound) : (dispatch c frame).welcomed = true := by
  cases frame <;> simp only [dispatch] <;> (try split_ifs) <;> rfl

theorem startWelcome_welcoming (device : Device) :
    (startWelcome device).welcomed = false ∧ (∀ p o, startWelcome device ≠ .sendWelcome (.status p o))
      ∧ (startWelcome device).welcoming = some (device.pairedWith.getD "") := by
  unfold startWelcome
  rcases device.pairedWith with _ | p <;> exact ⟨rfl, nofun, rfl⟩

end Frames

/-- The steps of a goroutine, by what they have to do with presence: it has been told and is told
nothing more, it has not been told yet, it is told nothing at all, or it is told what it found. -/
theorem Exec.presence {s : Server} {c : ℕ} {conn : Conn} {a : Access} {pc : Pc}
    (hx : Exec s c conn a pc) :
    ((∀ t frame, a = .enqueue t frame → frame.status = none)
        ∧ (conn.pc.welcomed = true ∧ pc.welcomed = true
          ∨ pc.welcomed = false ∧ pc.welcoming = conn.pc.welcoming
            ∧ (∀ p o, pc = .sendWelcome (.status p o) → o = (s.clients p).isSome)
          ∨ conn.pc.welcoming = some "" ∧ pc = .reading))
      ∨ ∃ p o, conn.pc = .sendWelcome (.status p o)
        ∧ a = .enqueue c (textFrame (.peerStatus p o)) ∧ pc = .reading := by
  cases hx with
  | ordinary ho ha hpc =>
    refine Or.inl ⟨fun t frame he => ?_, Or.inl ⟨ho.welcomed, hpc.welcomed⟩⟩
    subst he
    cases ha
    assumption
  | register device h =>
    obtain ⟨h1, h2, h3⟩ := startWelcome_welcoming device
    exact Or.inl ⟨nofun, Or.inr (Or.inl ⟨h1, by rw [h3, h]; rfl, fun p o he => absurd he (h2 p o)⟩)⟩
  | welcomeKey peer key h => exact Or.inl ⟨nofun, Or.inr (Or.inl ⟨rfl, by rw [h]; rfl, nofun⟩)⟩
  | welcome peers h =>
    refine Or.inl ⟨fun t frame he => ?_, Or.inr (Or.inr ⟨by rw [h]; rfl, rfl⟩)⟩
    cases he
    rfl
  | welcomeLinked peers peer h =>
    refine Or.inl ⟨fun t frame he => ?_, Or.inr (Or.inl ⟨rfl, by rw [h]; rfl, nofun⟩)⟩
    cases he
    rfl
  | welcomeLookup peer h =>
    refine Or.inl ⟨nofun, Or.inr (Or.inl ⟨rfl, by rw [h]; rfl, fun p o he => ?_⟩)⟩
    cases he
    rfl
  | welcomeStatus peer online h => exact Or.inr ⟨peer, online, h, rfl, rfl⟩
  | complete _ _ _ _ h | unpaired _ h | unpairedAlone h =>
    refine Or.inl ⟨fun t frame he => ?_, Or.inl ⟨by rw [h]; rfl, rfl⟩⟩
    cases he
    rfl
  | _ => exact Or.inl ⟨nofun, Or.inl ⟨by simp only [*]; rfl, rfl⟩⟩

/-- Neither of the two devices. -/
def Outside (A B x : String) : Prop := x ≠ A ∧ x ≠ B

instance (A B x : String) : Decidable (Outside A B x) :=
  inferInstanceAs (Decidable (x ≠ A ∧ x ≠ B))

/-- The two devices are linked with each other, and the others are not linked with them. -/
def Linked (A B d p : String) : Prop :=
  (d = A ∧ p = B) ∨ (d = B ∧ p = A) ∨ (Outside A B d ∧ Outside A B p)

theorem Linked.outside {A B d p : String} (h : Linked A B d p) (hd : Outside A B d) :
    Outside A B p := by
  rcases h with ⟨rfl, -⟩ | ⟨rfl, -⟩ | ⟨-, hp⟩
  · exact absurd rfl hd.1
  · exact absurd rfl hd.2
  · exact hp

theorem Linked.eq {A B p : String} (h : Linked A B A p) (hne : A ≠ B) : p = B := by
  rcases h with ⟨-, rfl⟩ | ⟨rfl, -⟩ | ⟨hd, -⟩
  · rfl
  · exact absurd rfl hne
  · exact absurd rfl hd.1

theorem Linked.eq' {A B p : String} (h : Linked A B B p) (hne : A ≠ B) : p = A := by
  rcases h with ⟨rfl, -⟩ | ⟨-, rfl⟩ | ⟨hd, -⟩
  · exact absurd rfl hne
  · rfl
  · exact absurd rfl hd.2

/-- What a goroutine of a device has at hand respects the link of the two. -/
structure Pc.Bound (A B d : String) (pc : Pc) : Prop where
  welcoming : ∀ p, pc.welcoming = some p → Linked A B d p
  linking : ∀ p, pc.linking = some p → Outside A B d ∧ Outside A B p
  unpair : pc = .unpair .peer → Outside A B d

theorem Pc.Ordinary.welcoming {pc : Pc} (h : pc.Ordinary) : pc.welcoming = none := by
  unfold Pc.welcoming
  split <;> first | rfl | cases h

theorem Pc.Ordinary.bound {A B d : String} {pc : Pc} (h : pc.Ordinary) : pc.Bound A B d := by
  refine ⟨fun p hp => ?_, fun p hp => ?_, ?_⟩
  · rw [h.welcoming] at hp
    cases hp
  · rw [h.linking] at hp
    cases hp
  · rintro rfl
    cases h

namespace Server

variable {A B : String} {s s' : Server} {c : ℕ} {conn : Conn}

/-- `A` and `B` are linked in the database, and in every connection. -/
structure Bonded (A B : String) (s : Server) : Prop where
  wellFormed : s.devices.WellFormed
  peer : s.devices.peer A = some B
  conns : ∀ (c : ℕ) (conn : Conn), s.conns[c]? = some conn → Linked A B conn.deviceID conn.pairedWith
  pcs : ∀ c d pc, s.seen c = some (d, pc) → pc.Bound A B d

theorem Bonded.outside_empty (h : s.Bonded A B) : Outside A B "" := by
  have hB := h.wellFormed.ne_empty h.peer
  have hA := h.wellFormed.ne_empty (h.wellFormed.symmetric h.peer)
  exact ⟨Ne.symm hA, Ne.symm hB⟩

/-- What a row says respects the link. -/
theorem Bonded.linked_link (h : s.Bonded A B) (d : String) : Linked A B d (s.devices.link d) := by
  have hsym := h.wellFormed.symmetric h.peer
  by_cases hA : d = A
  · exact Or.inl ⟨hA, by rw [hA, Devices.link_eq, h.peer]; rfl⟩
  by_cases hB : d = B
  · exact Or.inr (Or.inl ⟨hB, by rw [hB, Devices.link_eq, hsym]; rfl⟩)
  refine Or.inr (Or.inr ⟨⟨hA, hB⟩, ?_⟩)
  rw [Devices.link_eq]
  rcases hp : s.devices.peer d with _ | p
  · exact h.outside_empty
  · have hback := h.wellFormed.symmetric hp
    refine ⟨?_, ?_⟩
    · rintro rfl
      exact hB (Option.some.inj (hback.symm.trans h.peer))
    · rintro rfl
      exact hA (Option.some.inj (hback.symm.trans hsym))

theorem Bonded.outside_of_none (h : s.Bonded A B) {d : String} (hd : s.devices.peer d = none) :
    Outside A B d := by
  refine ⟨?_, ?_⟩
  · rintro rfl
    rw [h.peer] at hd
    cases hd
  · rintro rfl
    rw [h.wellFormed.symmetric h.peer] at hd
    cases hd

/-- Neither device asks to be unpaired. -/
def KeepsLink (A B : String) (s : Server) : Label → Prop
  | .receive c .unpair => ∀ conn ∈ s.conns[c]?, Outside A B conn.deviceID
  | _ => True

instance (A B : String) (s : Server) : (l : Label) → Decidable (s.KeepsLink A B l)
  | .receive c .unpair => inferInstanceAs (Decidable (∀ conn ∈ s.conns[c]?, Outside A B conn.deviceID))
  | .receive _ .malformed | .receive _ (.announceKey _) | .receive _ .pairRequest
  | .receive _ (.pairAccept _) | .receive _ .ping | .receive _ .unknown | .receive _ (.binary _)
  | .connect .. | .disconnect _ | .handler .. | .write _ | .takeRegister | .takeUnregister | .hub =>
    isTrue trivial

section Bond

variable {a : Access} {pc : Pc}

/-- A step of a goroutine goes where it may. -/
theorem Bonded.bound (h : s.Bonded A B) (hx : Exec s c conn a pc) (hc : s.conns[c]? = some conn) :
    pc.Bound A B conn.deviceID := by
  have hold := h.pcs c _ _ (seen_of_conn hc)
  have hlinked := h.conns c conn hc
  have hwithin : ∀ p, pc.linking = some p → pc.welcoming = none → pc ≠ .unpair .peer →
      Outside A B conn.deviceID → Outside A B p → pc.Bound A B conn.deviceID := by
    intro p hp hw hu hd hpo
    refine ⟨fun q hq => ?_, fun q hq => ?_, fun he => absurd he hu⟩
    · rw [hw] at hq
      cases hq
    · obtain rfl : p = q := Option.some.inj (hp.symm.trans hq)
      exact ⟨hd, hpo⟩
  have hsame : ∀ p, conn.pc.linking = some p → pc.linking = some p → pc.welcoming = none →
      pc ≠ .unpair .peer → pc.Bound A B conn.deviceID := fun p hp hp' hw hu =>
    hwithin p hp' hw hu (hold.linking p hp).1 (hold.linking p hp).2
  have hwelcome : ∀ p, conn.pc.welcoming = some p → pc.welcoming = some p → pc.linking = none →
      pc ≠ .unpair .peer → pc.Bound A B conn.deviceID := by
    intro p hp hp' hl hu
    refine ⟨fun q hq => ?_, fun q hq => ?_, fun he => absurd he hu⟩
    · obtain rfl : p = q := Option.some.inj (hp'.symm.trans hq)
      exact hold.welcoming p hp
    · rw [hl] at hq
      cases hq
  cases hx with
  | ordinary _ _ hpc => exact hpc.bound
  | register device hp =>
    obtain ⟨-, -, hw⟩ := startWelcome_welcoming device
    refine hwelcome _ (by rw [hp]; rfl) hw (startWelcome_linking device) ?_
    unfold startWelcome
    split <;> nofun
  | welcomeKey p _ hp => exact hwelcome p (by rw [hp]; rfl) rfl rfl nofun
  | welcomeLinked _ p hp => exact hwelcome p (by rw [hp]; rfl) rfl rfl nofun
  | welcomeLookup p hp => exact hwelcome p (by rw [hp]; rfl) rfl rfl nofun
  | welcome | welcomeStatus | noRequester | unpairedAlone | noPeer | setRequester | clearPeer
  | unpairFails => exact Pc.Ordinary.bound trivial
  | pair code r t hp ht =>
    obtain ⟨-, hr, hd, -, -⟩ := Devices.pairDevices_ok ht
    exact hwithin r rfl rfl nofun (h.outside_of_none hd) (h.outside_of_none hr)
  | peer hp => exact hwithin _ rfl rfl nofun (hold.unpair hp) (hlinked.outside (hold.unpair hp))
  | myKey _ r _ hp => exact hsame r (by rw [hp]; rfl) rfl rfl nofun
  | requesterKey _ r _ _ hp => exact hsame r (by rw [hp]; rfl) rfl rfl nofun
  | setPeer _ r _ _ hp => exact hsame r (by rw [hp]; rfl) rfl rfl nofun
  | complete _ r _ _ hp => exact hsame r (by rw [hp]; rfl) rfl rfl nofun
  | requester _ r _ _ hp => exact hsame r (by rw [hp]; rfl) rfl rfl nofun
  | unpair p hp => exact hsame p (by rw [hp]; rfl) rfl rfl nofun
  | clear p hp => exact hsame p (by rw [hp]; rfl) rfl rfl nofun
  | unpaired p hp => exact hsame p (by rw [hp]; rfl) rfl rfl nofun
  | findPeer p _ hp => exact hsame p (by rw [hp]; rfl) rfl rfl nofun
  | unregister | close => exact ⟨nofun, nofun, nofun⟩

/-- A goroutine sets a peer only where neither device is concerned. -/
theorem Bonded.setPeer (h : s.Bonded A B) (hk : s.Keyed) (hx : Exec s c conn a pc)
    (hc : s.conns[c]? = some conn) {t : ℕ} {id : String} (ha : a = .setPeer t id) {target : Conn}
    (ht : s.conns[t]? = some target) : Outside A B target.deviceID ∧ Outside A B id := by
  have hold := h.pcs c _ _ (seen_of_conn hc)
  have hfound : ∀ r, conn.pc.target = some (r, t) → target.deviceID = r := by
    intro r hr
    obtain ⟨pc', hpc'⟩ := hk.target c _ _ (seen_of_conn hc) r t hr
    rw [seen_of_conn ht] at hpc'
    exact (Prod.mk.inj (Option.some.inj hpc')).1
  cases hx with
  | ordinary _ hplain =>
    subst ha
    cases hplain
  | setPeer _ r _ _ hp =>
    cases ha
    obtain rfl : conn = target := Option.some.inj (hc.symm.trans ht)
    exact hold.linking id (by rw [hp]; rfl)
  | clear p hp =>
    cases ha
    obtain rfl : conn = target := Option.some.inj (hc.symm.trans ht)
    exact ⟨(hold.linking p (by rw [hp]; rfl)).1, h.outside_empty⟩
  | setRequester _ r _ _ hp =>
    cases ha
    obtain ⟨hd, hr⟩ := hold.linking r (by rw [hp]; rfl)
    rw [hfound r (by rw [hp]; rfl)]
    exact ⟨hr, hd⟩
  | clearPeer p _ hp =>
    cases ha
    rw [hfound p (by rw [hp]; rfl)]
    exact ⟨(hold.linking p (by rw [hp]; rfl)).2, h.outside_empty⟩
  | _ => cases ha

theorem Bonded.devicesAfter (h : s.Bonded A B) (hx : Exec s c conn a pc)
    (hc : s.conns[c]? = some conn) : (a.devicesAfter s.devices).peer A = some B := by
  have hold := h.pcs c _ _ (seen_of_conn hc)
  cases hx with
  | ordinary _ ha => rw [ha.peer, h.peer]
  | pair code r t hp ht =>
    obtain ⟨-, hr, hd, hpeer, -⟩ := Devices.pairDevices_ok ht
    rw [Access.devicesAfter, hpeer, if_neg (h.outside_of_none hd).1.symm,
      if_neg (h.outside_of_none hr).1.symm, h.peer]
  | unpair p hp =>
    obtain ⟨hd, -⟩ := hold.linking p (by rw [hp]; rfl)
    rw [Access.devicesAfter, Devices.peer_unpairDevice, if_neg, h.peer]
    rintro (rfl | hA)
    · exact hd.1 rfl
    · rw [h.peer] at hA
      exact hd.2 (Option.some.inj hA).symm
  | _ => exact h.peer

theorem Bonded.advance (h : s.Bonded A B) (hk : s.Keyed) (hx : Exec s c conn a pc)
    (hc : s.conns[c]? = some conn) : (s.advance c a pc).Bonded A B where
  wellFormed := by
    rw [advance_devices]
    exact hx.wellFormed h.wellFormed
  peer := by
    rw [advance_devices]
    exact h.devicesAfter hx hc
  conns c' conn' hc' := by
    rw [advance_conns] at hc'
    obtain ⟨conn₀, hc₀, rfl⟩ := Option.map_eq_some_iff.1 hc'
    have hlinked : Linked A B (a.on c' conn₀).deviceID (a.on c' conn₀).pairedWith := by
      rw [Access.on_deviceID, Access.on_pairedWith]
      split
      · next t id =>
        split_ifs with ht
        · subst ht
          exact Or.inr (Or.inr (h.setPeer hk hx hc rfl hc₀))
        · exact h.conns c' conn₀ hc₀
      · exact h.conns c' conn₀ hc₀
    split_ifs <;> exact hlinked
  pcs c' d pc' hs := by
    rw [s.seen_advance a pc hc] at hs
    by_cases hcc : c' = c
    · rw [hcc, Function.update_self] at hs
      obtain ⟨rfl, rfl⟩ := Prod.mk.inj (Option.some.inj hs)
      exact h.bound hx hc
    · rw [Function.update_of_ne hcc] at hs
      exact h.pcs c' d pc' hs

theorem Bonded.same (h : s.Bonded A B) (hdev : s'.devices = s.devices) (hview : s'.view = s.view) :
    s'.Bonded A B where
  wellFormed := hdev ▸ h.wellFormed
  peer := hdev ▸ h.peer
  conns c conn' hc' := by
    have hv := congrFun hview c
    rw [view_of_conn hc'] at hv
    obtain ⟨conn, hc, heq⟩ := Option.map_eq_some_iff.1 hv.symm
    simp only [Prod.mk.injEq] at heq
    rw [← heq.1, ← heq.2.1]
    exact h.conns c conn hc
  pcs := seen_of_view hview ▸ h.pcs

theorem Bonded.read (h : s.Bonded A B) (hc : s.conns[c]? = some conn)
    (hpc : pc.Bound A B conn.deviceID) : (s.advance c .none pc).Bonded A B := by
  refine ⟨h.wellFormed, h.peer, fun c' conn' hc' => ?_, fun c' d pc' hs => ?_⟩
  · rw [advance_conns] at hc'
    obtain ⟨conn₀, hc₀, rfl⟩ := Option.map_eq_some_iff.1 hc'
    split_ifs <;> exact h.conns c' conn₀ hc₀
  · rw [s.seen_advance .none pc hc] at hs
    by_cases hcc : c' = c
    · rw [hcc, Function.update_self] at hs
      obtain ⟨rfl, rfl⟩ := Prod.mk.inj (Option.some.inj hs)
      exact hpc
    · rw [Function.update_of_ne hcc] at hs
      exact h.pcs c' d pc' hs

theorem dispatch_bound {d : String} (c : ℕ) (frame : Inbound) (h : frame = .unpair → Outside A B d) :
    (dispatch c frame).Bound A B d := by
  cases frame with
  | unpair => exact ⟨nofun, nofun, fun _ => h rfl⟩
  | announceKey | pairAccept =>
    simp only [dispatch]
    split_ifs <;> exact Pc.Ordinary.bound trivial
  | _ => exact Pc.Ordinary.bound trivial

theorem Bonded.connect (h : s.Bonded A B) {id : String} {device : Device}
    (hd : s.devices id = some device) : Bonded A B { s with
      conns := s.conns ++ [{
        deviceID := id
        pairedWith := device.pairedWith.getD ""
        pc := .register device }] } := by
  have hlink : Linked A B id (device.pairedWith.getD "") := by
    have := h.linked_link id
    rwa [Devices.link_eq, Devices.peer, hd] at this
  refine ⟨h.wellFormed, h.peer, fun c conn hc => ?_, fun c d pc hs => ?_⟩
  · dsimp only at hc
    rw [List.getElem?_append] at hc
    split_ifs at hc
    · exact h.conns c conn hc
    · obtain rfl := List.mem_singleton.1 (List.mem_of_getElem? hc)
      exact hlink
  · rw [seen_connect] at hs
    split_ifs at hs
    · obtain ⟨rfl, rfl⟩ := Prod.mk.inj (Option.some.inj hs)
      refine ⟨fun p hp => ?_, fun p hp => (by cases hp), fun he => by cases he⟩
      obtain rfl : device.pairedWith.getD "" = p := Option.some.inj hp
      exact hlink
    · exact h.pcs c d pc hs

theorem Bonded.step (h : s.Bonded A B) (hk : s.Keyed) {l : Label} (hl : s.KeepsLink A B l)
    (hstep : s.step l = some s') : s'.Bonded A B := by
  cases step_moves hstep with
  | connect deviceID token now upgraded device _ hd => exact h.connect hd
  | receive c frame conn hc =>
    refine h.read hc (dispatch_bound c frame ?_)
    rintro rfl
    exact hl conn hc
  | disconnect c conn hc => exact h.read hc ⟨nofun, nofun, nofun⟩
  | handler c env conn x hc hx => exact h.advance hk (exec_move hx) hc
  | quiet _ _ hdev hview => exact h.same hdev hview

end Bond

section Presence

variable {a : Access} {pc : Pc}

def online (s : Server) (id : String) : Bool := (s.clients id).isSome

def owner (s : Server) (c : ℕ) : Option String := (s.seen c).map Prod.fst

theorem owner_of_conn (h : s.conns[c]? = some conn) : s.owner c = some conn.deviceID := by
  simp [owner, seen_of_conn h]

theorem owner_advance (hc : s.conns[c]? = some conn) (a : Access) (pc : Pc) :
    (s.advance c a pc).owner = s.owner := by
  funext b
  by_cases hb : b = c
  · subst hb
    simp [owner, s.seen_advance a pc hc, seen_of_conn hc]
  · simp [owner, s.seen_advance a pc hc, hb]

/-- The hub is about to tell the peer of `B` whether it is online. -/
def Notifying (s : Server) (B : String) : Prop :=
  (∃ b, (s.hub = .registered b ∨ s.hub = .unregistered b) ∧ s.owner b = some B)
    ∨ (∃ t o, s.hub = .lookup t B o) ∨ ∃ t o, s.hub = .notify t B o

/-- What the hub is about to tell is so. -/
structure Notices (A B : String) (s : Server) : Prop where
  registered : ∀ b, s.hub = .registered b → ∃ d, s.owner b = some d ∧ (d = B → s.online B = true)
  unregistered : ∀ b, s.hub = .unregistered b →
    ∃ d, s.owner b = some d ∧ (d = B → s.online B = false)
  lookup : ∀ t o, s.hub = .lookup t B o → t = A ∧ o = s.online B
  notify : ∀ t o, s.hub = .notify t B o → s.clients A = some t ∧ o = s.online B

/-- What a connection of `A` is told of `B` is so, or the hub is about to tell it. -/
structure Told (A B : String) (s : Server) (c : ℕ) (conn : Conn) : Prop where
  status : ∀ p o, conn.pc = .sendWelcome (.status p o) → o = s.online B
  awaiting : conn.pc.welcomed = true → s.Awaits c conn.pc → conn.told B = some (s.online B)
  registered : conn.pc.welcomed = true → s.clients A = some c →
    s.Notifying B ∨ conn.told B = some (s.online B)

structure Presence (A B : String) (s : Server) : Prop where
  notices : s.Notices A B
  told : ∀ (c : ℕ) (conn : Conn), s.conns[c]? = some conn → conn.deviceID = A →
    conn.closed = false → s.Told A B c conn

/-- No send queue is full. -/
def Room (s : Server) : Prop := ∀ conn ∈ s.conns, conn.send.length < sendBufferSize

instance (s : Server) : Decidable s.Room :=
  inferInstanceAs (Decidable (∀ conn ∈ s.conns, conn.send.length < sendBufferSize))

/-- The hub is about to change whether `B` is online. -/
def Shifts (s : Server) (B : String) : Prop :=
  match s.hub with
  | .register c => s.clients B = none ∧ s.conns[c]?.any (·.deviceID = B) = true
  | .unregister c => s.clients B = some c
  | _ => False

instance (s : Server) (B : String) : Decidable (s.Shifts B) :=
  match h : s.hub with
  | .register c => decidable_of_iff
      (s.clients B = none ∧ s.conns[c]?.any (·.deviceID = B) = true) (by simp [Shifts, h])
  | .unregister c => decidable_of_iff (s.clients B = some c) (by simp [Shifts, h])
  | .select | .registered _ | .unregistered _ | .lookup .. | .notify .. =>
    isFalse (by simp [Shifts, h])

/-- A connection has looked its peer up and has not told it yet, or is not registered yet. -/
def Unsettled (s : Server) (c : ℕ) (conn : Conn) : Prop :=
  conn.closed = false ∧ (conn.pc.isStatus = true
    ∨ conn.pc.welcomed = true ∧ s.Awaits c conn.pc)

instance (s : Server) (c : ℕ) (conn : Conn) : Decidable (s.Unsettled c conn) :=
  inferInstanceAs (Decidable (_ ∧ (_ ∨ _ ∧ _)))

/-- `B` comes or goes only where every connection of `A` is settled. -/
def Steady (A B : String) (s : Server) : Label → Prop
  | .hub => s.Shifts B → ∀ c < s.conns.length, ∀ conn ∈ s.conns[c]?, conn.deviceID = A →
      ¬ s.Unsettled c conn
  | _ => True

instance (A B : String) (s : Server) : (l : Label) → Decidable (s.Steady A B l)
  | .hub => inferInstanceAs (Decidable (s.Shifts B → ∀ c < s.conns.length, ∀ conn ∈ s.conns[c]?,
      conn.deviceID = A → ¬ s.Unsettled c conn))
  | .receive .. | .connect .. | .disconnect _ | .handler .. | .write _ | .takeRegister
  | .takeUnregister => isTrue trivial

theorem accepts_of_room (h : s.Room) (hc : s.conns[c]? = some conn) (hopen : conn.closed = false) :
    conn.accepts = true := by
  simp [Conn.accepts, hopen, h conn (List.mem_of_getElem? hc)]

theorem tells_peerStatus (p q : String) (o : Bool) :
    (textFrame (.peerStatus p o)).tells q = if p = q then some o else none := rfl

/-- The hub has nobody to tell of anybody. -/
def hubIdle (s : Server) : Bool :=
  match s.hub with
  | .select | .register _ | .unregister _ => true
  | _ => false

theorem not_notifying_of_hub (h : s.hubIdle = true) : ¬ s.Notifying B := by
  rintro (⟨b, hb | hb, -⟩ | ⟨t, o, hb⟩ | ⟨t, o, hb⟩) <;> rw [hubIdle, hb] at h <;> cases h

/-- Nothing that a connection of `A` is told changes. -/
theorem Presence.frame (h : s.Presence A B) (hn : s'.Notices A B)
    (hconn : ∀ (c : ℕ) (conn' : Conn), s'.conns[c]? = some conn' → conn'.deviceID = A →
      conn'.closed = false → conn'.pc.welcomed = false ∧ conn'.pc.isStatus = false
        ∨ ∃ conn : Conn, s.conns[c]? = some conn ∧ conn.deviceID = A ∧ conn.closed = false
          ∧ conn.pc = conn'.pc ∧ conn.told B = conn'.told B)
    (honline : s'.online B = s.online B) (haw : ∀ c pc, s'.Awaits c pc → s.Awaits c pc)
    (hcl : ∀ c, s'.clients A = some c → s.clients A = some c)
    (hnot : ∀ c, s'.clients A = some c → s.Notifying B → s'.Notifying B) : s'.Presence A B := by
  refine ⟨hn, fun c conn' hc' hd hopen => ?_⟩
  rcases hconn c conn' hc' hd hopen with ⟨hw, hst⟩ | ⟨conn, hc, hd, hopen, hpc, htold⟩
  · refine ⟨fun p o hpc => ?_, fun hw' => ?_, fun hw' => ?_⟩
    · rw [hpc] at hst
      cases hst
    all_goals
      rw [hw] at hw'
      cases hw'
  · have hold := h.told c conn hc hd hopen
    refine ⟨fun p o hp => ?_, fun hw hawait => ?_, fun hw hreg => ?_⟩
    · rw [honline, hold.status p o (hpc.trans hp)]
    · rw [honline, ← htold, hold.awaiting (by rw [hpc, hw]) (by rw [hpc]; exact haw c _ hawait)]
    · rcases hold.registered (by rw [hpc, hw]) (hcl c hreg) with hnt | ht
      · exact Or.inl (hnot c hreg hnt)
      · exact Or.inr (by rw [honline, ← htold, ht])

/-- A step of a goroutine, or of `readPump`. -/
theorem Presence.advance (h : s.Presence A B) (hb : s.Bonded A B) (hne : A ≠ B) (hroom : s.Room)
    (hc : s.conns[c]? = some conn) (hx : Registering c conn a pc)
    (hp : ((∀ t frame, a = .enqueue t frame → frame.status = none)
        ∧ (conn.pc.welcomed = true ∧ pc.welcomed = true
          ∨ pc.welcomed = false ∧ pc.welcoming = conn.pc.welcoming
            ∧ (∀ p o, pc = .sendWelcome (.status p o) → o = (s.clients p).isSome)
          ∨ conn.pc.welcoming = some "" ∧ pc = .reading))
      ∨ ∃ p o, conn.pc = .sendWelcome (.status p o)
        ∧ a = .enqueue c (textFrame (.peerStatus p o)) ∧ pc = .reading) :
    (s.advance c a pc).Presence A B := by
  have hpeer : ∀ p, conn.deviceID = A → conn.pc.welcoming = some p → p = B := fun p hd hw =>
    Linked.eq (hd ▸ (hb.pcs c _ _ (seen_of_conn hc)).welcoming p hw) hne
  have honline : (s.advance c a pc).online B = s.online B := by simp [online]
  have hnot : (s.advance c a pc).Notifying B ↔ s.Notifying B := by
    simp [Notifying, owner_advance hc]
  refine ⟨?_, fun c' conn' hc' hd hopen => ?_⟩
  · obtain ⟨h1, h2, h3, h4⟩ := h.notices
    exact ⟨by simpa [owner_advance hc, online] using h1, by simpa [owner_advance hc, online] using h2,
      by simpa [online] using h3, by simpa [online] using h4⟩
  rw [advance_conns] at hc'
  obtain ⟨conn₀, hc₀, rfl⟩ := Option.map_eq_some_iff.1 hc'
  have hd₀ : conn₀.deviceID = A := by
    split_ifs at hd <;> simpa [Conn.setPc] using hd
  have hopen₀ : conn₀.closed = false := by
    split_ifs at hopen <;> exact Access.closed_on hopen
  have hold := h.told c' conn₀ hc₀ hd₀ hopen₀
  split_ifs with hcc
  · subst hcc
    obtain rfl : conn = conn₀ := Option.some.inj (hc.symm.trans hc₀)
    rcases hp with ⟨hsilent, ⟨hw, hw'⟩ | ⟨hw, hwelcome, hst⟩ | ⟨hempty, rfl⟩⟩ | ⟨p, o, hpc, ha, rfl⟩
    · have htold : (a.on c conn).told B = conn.told B :=
        Access.told_on fun frame he => WsFrame.tells_of_status (hsilent c frame he)
      refine ⟨fun p o hpc => ?_, fun _ haw => ?_, fun _ hreg => ?_⟩
      · have hpc' : pc = .sendWelcome (.status p o) := hpc
        rw [hpc'] at hw'
        cases hw'
      · rw [honline]
        exact htold.trans (hold.awaiting hw ((awaits_self hx).1 haw))
      · rw [honline, hnot]
        exact (hold.registered hw (by simpa using hreg)).imp id htold.trans
    · refine ⟨fun p o hpc => ?_, fun hw' => ?_, fun hw' => ?_⟩
      · have hpc' : pc = .sendWelcome (.status p o) := hpc
        have hpB : p = B := hpeer p hd₀ (by rw [← hwelcome, hpc']; rfl)
        rw [honline, hst p o hpc', hpB]
        rfl
      all_goals
        have hw'' : pc.welcomed = true := hw'
        rw [hw] at hw''
        cases hw''
    · exact absurd (hpeer "" hd₀ hempty) hb.outside_empty.2
    · have hpB : p = B := hpeer p hd₀ (by rw [hpc]; rfl)
      have ho : o = s.online B := hold.status p o hpc
      have htold : (a.on c conn).told B = some (s.online B) := by
        rw [ha, Access.on, if_pos rfl]
        exact Conn.told_enqueue (accepts_of_room hroom hc hopen₀) (by
          rw [tells_peerStatus, if_pos hpB, ho])
      exact ⟨fun _ _ hs => (by cases hs), fun _ _ => by rw [honline]; exact htold,
        fun _ _ => Or.inr (by rw [honline]; exact htold)⟩
  · have htold : (a.on c' conn₀).told B = conn₀.told B := by
      refine Access.told_on fun frame he => ?_
      rcases hp with ⟨hsilent, -⟩ | ⟨p, o, -, ha, -⟩
      · exact WsFrame.tells_of_status (hsilent c' frame he)
      · rw [ha] at he
        exact absurd (Access.enqueue.inj he).1 hcc
    refine ⟨fun p o hpc => ?_, fun hw haw => ?_, fun hw hreg => ?_⟩
    · rw [Access.on_pc] at hpc
      rw [honline, hold.status p o hpc]
    · rw [Access.on_pc] at hw haw
      rw [honline, htold]
      exact hold.awaiting hw ((awaits_other hx (Ne.symm hcc) _).1 haw)
    · rw [Access.on_pc] at hw
      rw [honline, hnot, htold]
      exact hold.registered hw (by simpa using hreg)

theorem conns_same (c : ℕ) (conn' : Conn) (hc' : s.conns[c]? = some conn') (hd : conn'.deviceID = A)
    (hopen : conn'.closed = false) : conn'.pc.welcomed = false ∧ conn'.pc.isStatus = false
      ∨ ∃ conn : Conn, s.conns[c]? = some conn ∧ conn.deviceID = A ∧ conn.closed = false
        ∧ conn.pc = conn'.pc ∧ conn.told B = conn'.told B :=
  Or.inr ⟨conn', hc', hd, hopen, rfl, rfl⟩

theorem notices_of_hub (h : s.hubIdle = true) : s.Notices A B := by
  refine ⟨fun b hb => ?_, fun b hb => ?_, fun t o hb => ?_, fun t o hb => ?_⟩ <;>
    rw [hubIdle, hb] at h <;> cases h

/-- `B` has come or gone, and the hub is about to tell its peer. -/
theorem Presence.shift (hn : s'.Notices A B) (hnot : s'.Notifying B)
    (hsettled : ∀ (c : ℕ) (conn' : Conn), s'.conns[c]? = some conn' → conn'.deviceID = A →
      conn'.closed = false → conn'.pc.isStatus = false
        ∧ (conn'.pc.welcomed = true → ¬ s'.Awaits c conn'.pc)) : s'.Presence A B := by
  refine ⟨hn, fun c conn' hc' hd hopen => ?_⟩
  obtain ⟨hst, haw⟩ := hsettled c conn' hc' hd hopen
  refine ⟨fun p o hpc => ?_, fun hw ha => absurd ha (haw hw), fun _ _ => Or.inl hnot⟩
  rw [hpc] at hst
  cases hst

theorem Presence.register (h : s.Presence A B) (hne : A ≠ B) {client : Conn}
    (hh : s.hub = .register c) (hc : s.conns[c]? = some client) (hsteady : s.Steady A B .hub) :
    { s.evict client.deviceID with
      clients := Function.update s.clients client.deviceID (some c)
      hub := .registered c }.Presence A B := by
  generalize hs' : { s.evict client.deviceID with
      clients := Function.update s.clients client.deviceID (some c)
      hub := .registered c } = s'
  have hseen : s'.seen = s.seen := hs' ▸ s.seen_evict client.deviceID
  have hreg : s'.registerCh = s.registerCh := by rw [← hs', evict_same]
  have hhub : s'.hub = .registered c := by rw [← hs']
  have hclients : s'.clients = Function.update s.clients client.deviceID (some c) := by rw [← hs']
  have howner : s'.owner c = some client.deviceID := by
    rw [owner, hseen]
    exact owner_of_conn hc
  have hconns : ∀ (b : ℕ) (conn' : Conn), s'.conns[b]? = some conn' → conn'.closed = false →
      s.conns[b]? = some conn' ∧ s.clients client.deviceID ≠ some b := by
    intro b conn' hb hopen
    rw [← hs', evict_conns] at hb
    obtain ⟨conn, hconn, rfl⟩ := Option.map_eq_some_iff.1 hb
    split_ifs at hopen ⊢ with hcur
    · simp [Conn.close] at hopen
    · exact ⟨hconn, hcur⟩
  have haw : ∀ b pc, s'.Awaits b pc → s.Awaits b pc := by
    intro b pc
    rw [Awaits, Awaits, hreg, hhub]
    rintro (hb | hb | hb)
    · exact Or.inl hb
    · exact Or.inr (Or.inl hb)
    · cases hb
  have hquiet : ¬ s.Notifying B := not_notifying_of_hub (by rw [hubIdle, hh])
  have hn : s'.Notices A B := by
    refine ⟨fun b hb => ?_, by simp [hhub], by simp [hhub], by simp [hhub]⟩
    obtain rfl : c = b := by simpa [hhub] using hb
    refine ⟨_, howner, fun hd => ?_⟩
    simp [online, hclients, hd]
  by_cases hB : client.deviceID = B
  · have hnot : s'.Notifying B := Or.inl ⟨c, Or.inl hhub, by rw [howner, hB]⟩
    by_cases hnone : s.clients B = none
    · refine Presence.shift hn hnot fun b conn' hb hd hopen => ?_
      obtain ⟨hb', -⟩ := hconns b conn' hb hopen
      have hshift : s.Shifts B := by simp [Shifts, hh, hnone, hc, hB]
      have hun := hsteady hshift b (List.getElem?_eq_some_iff.1 hb').1 conn' hb' hd
      simp only [Unsettled, hopen, true_and, not_or, not_and, Bool.not_eq_true] at hun
      exact ⟨hun.1, fun hw ha => hun.2 hw (haw b _ ha)⟩
    · refine h.frame hn (fun b conn' hb hd hopen => ?_) ?_ haw (fun b hb => ?_) fun _ _ _ => hnot
      · exact Or.inr ⟨conn', (hconns b conn' hb hopen).1, hd, hopen, rfl, rfl⟩
      · have := Option.isSome_iff_ne_none.2 hnone
        simp [online, hclients, hB, this]
      · rwa [hclients, hB, Function.update_of_ne hne] at hb
  · have honline : s'.online B = s.online B := by
      simp [online, hclients, Function.update_of_ne (Ne.symm hB)]
    by_cases hA : client.deviceID = A
    · -- the new connection of `A` has been told while it was waiting
      refine ⟨hn, fun b conn' hb hd hopen => ?_⟩
      obtain ⟨hb', -⟩ := hconns b conn' hb hopen
      have hold := h.told b conn' hb' hd hopen
      refine ⟨fun p o hpc => by rw [honline, hold.status p o hpc],
        fun hw ha => by rw [honline, hold.awaiting hw (haw b _ ha)], fun hw hcl => Or.inr ?_⟩
      obtain rfl : c = b := by simpa [hclients, hA] using hcl
      rw [honline, hold.awaiting hw (Or.inr (Or.inr hh))]
    · refine h.frame hn (fun b conn' hb hd hopen => ?_) honline haw (fun b hb => ?_)
        fun _ _ hnt => absurd hnt hquiet
      · exact Or.inr ⟨conn', (hconns b conn' hb hopen).1, hd, hopen, rfl, rfl⟩
      · rwa [hclients, Function.update_of_ne (Ne.symm hA)] at hb

theorem Presence.unregister (h : s.Presence A B) {client : Conn}
    (hh : s.hub = .unregister c) (hc : s.conns[c]? = some client)
    (hcur : s.clients client.deviceID = some c) (hsteady : s.Steady A B .hub) :
    { s with
      clients := Function.update s.clients client.deviceID none
      hub := .unregistered c }.Presence A B := by
  generalize hs' : { s with
      clients := Function.update s.clients client.deviceID none
      hub := .unregistered c } = s'
  have hconns : s'.conns = s.conns := by rw [← hs']
  have hhub : s'.hub = .unregistered c := by rw [← hs']
  have hclients : s'.clients = Function.update s.clients client.deviceID none := by rw [← hs']
  have howner : s'.owner c = some client.deviceID := owner_of_conn (by rw [hconns, hc])
  have haw : ∀ b pc, s'.Awaits b pc ↔ s.Awaits b pc :=
    awaits_hub (by rw [← hs']) (by simp [hh]) (by simp [hhub])
  have hquiet : ¬ s.Notifying B := not_notifying_of_hub (by rw [hubIdle, hh])
  have hn : s'.Notices A B := by
    refine ⟨by simp [hhub], fun b hb => ?_, by simp [hhub], by simp [hhub]⟩
    obtain rfl : c = b := by simpa [hhub] using hb
    refine ⟨_, howner, fun hd => ?_⟩
    simp [online, hclients, hd]
  by_cases hB : client.deviceID = B
  · refine Presence.shift hn (Or.inl ⟨c, Or.inr hhub, by rw [howner, hB]⟩)
      fun b conn' hb hd hopen => ?_
    rw [hconns] at hb
    have hshift : s.Shifts B := by simpa [Shifts, hh, hB] using hcur
    have hun := hsteady hshift b (List.getElem?_eq_some_iff.1 hb).1 conn' hb hd
    simp only [Unsettled, hopen, true_and, not_or, not_and, Bool.not_eq_true] at hun
    exact ⟨hun.1, fun hw ha => hun.2 hw ((haw b _).1 ha)⟩
  · refine h.frame hn (fun b conn' hb => conns_same b conn' (hconns ▸ hb)) ?_
      (fun b pc => (haw b pc).1) (fun b hb => ?_) fun _ _ hnt => absurd hnt hquiet
    · simp [online, hclients, Function.update_of_ne (Ne.symm hB)]
    · rw [hclients, Function.update_apply] at hb
      split_ifs at hb
      exact hb

theorem Presence.notify (h : s.Presence A B) (hroom : s.Room) {about : String} {o : Bool}
    (hh : s.hub = .notify c about o) :
    { s.modify c (Conn.enqueue (textFrame (.peerStatus about o))) with hub := .select }.Presence A B := by
  generalize hs' : { s.modify c (Conn.enqueue (textFrame (.peerStatus about o))) with
      hub := HubPc.select } = s'
  have hhub : s'.hub = .select := by rw [← hs']
  have hclients : s'.clients = s.clients := by rw [← hs']; rfl
  have honline : s'.online B = s.online B := by rw [online, online, hclients]
  have haw : ∀ b pc, s'.Awaits b pc ↔ s.Awaits b pc :=
    awaits_hub (by rw [← hs']; rfl) (by simp [hh]) (by simp [hhub])
  have hn : s'.Notices A B := notices_of_hub (by rw [hubIdle, hhub])
  have hconns : ∀ (b : ℕ) (conn' : Conn), s'.conns[b]? = some conn' → ∃ conn : Conn,
      s.conns[b]? = some conn ∧ conn'.deviceID = conn.deviceID ∧ conn'.closed = conn.closed
        ∧ conn'.pc = conn.pc
        ∧ conn' = if c = b then conn.enqueue (textFrame (.peerStatus about o)) else conn := by
    intro b conn' hb
    rw [← hs'] at hb
    replace hb := (s.modify_conns c b _).symm.trans hb
    obtain ⟨conn, hconn, rfl⟩ := Option.map_eq_some_iff.1 hb
    refine ⟨conn, hconn, ?_⟩
    split_ifs <;> simp
  by_cases hB : about = B
  · subst hB
    obtain ⟨hA, ho⟩ := h.notices.notify c o hh
    refine ⟨hn, fun b conn' hb hd hopen => ?_⟩
    obtain ⟨conn, hconn, hdev, hclosed, hpc, hconn'⟩ := hconns b conn' hb
    have hopen₀ := hclosed.symm.trans hopen
    have hold := h.told b conn hconn (hdev.symm.trans hd) hopen₀
    have htold : c = b → conn'.told about = some (s.online about) := by
      rintro rfl
      rw [hconn', if_pos rfl]
      exact Conn.told_enqueue (accepts_of_room hroom hconn hopen₀) (by
        rw [tells_peerStatus, if_pos rfl, ho])
    refine ⟨fun p o' hp => by rw [honline, hold.status p o' (hpc ▸ hp)], fun hw ha => ?_,
      fun hw hcl => Or.inr ?_⟩
    · by_cases hcb : c = b
      · rw [honline, htold hcb]
      · rw [honline, hconn', if_neg hcb]
        exact hold.awaiting (hpc ▸ hw) (by rw [← hpc]; exact (haw b _).1 ha)
    · rw [honline]
      exact htold (Option.some.inj (hA.symm.trans (hclients ▸ hcl)))
  · have hquiet : ¬ s.Notifying B := by
      rintro (⟨b, hb | hb, -⟩ | ⟨t, o', hb⟩ | ⟨t, o', hb⟩) <;> rw [hh] at hb
      · cases hb
      · cases hb
      · cases hb
      · exact hB (HubPc.notify.inj hb).2.1
    refine h.frame hn (fun b conn' hb hd hopen => ?_) honline (fun b pc => (haw b pc).1)
      (fun b hb => hclients ▸ hb) fun _ _ hnt => absurd hnt hquiet
    obtain ⟨conn, hconn, hdev, hclosed, hpc, hconn'⟩ := hconns b conn' hb
    refine Or.inr ⟨conn, hconn, hdev.symm.trans hd, hclosed.symm.trans hopen, hpc.symm, ?_⟩
    rw [hconn']
    split_ifs
    · exact (Conn.told_enqueue_of_none (by rw [tells_peerStatus, if_neg hB])).symm
    · rfl

/-- Only where the hub stands changes, and it is not at a registration. -/
theorem Presence.hub (h : s.Presence A B) {pc : HubPc} (hh : ∀ c, s.hub ≠ .register c)
    (hpc : ∀ c, pc ≠ .register c) (hn : { s with hub := pc }.Notices A B)
    (hnot : ∀ c, s.clients A = some c → s.Notifying B → { s with hub := pc }.Notifying B) :
    { s with hub := pc }.Presence A B := by
  have haw : ∀ b q, Awaits { s with hub := pc } b q ↔ s.Awaits b q := awaits_hub rfl hh hpc
  exact h.frame hn conns_same rfl (fun b q => (haw b q).1) (fun _ => id) hnot

theorem Presence.hubMove (h : s.Presence A B) (hb : s.Bonded A B) (hne : A ≠ B)
    (hroom : s.Room) (hsteady : s.Steady A B .hub) (hm : s.HubMove s') : s'.Presence A B := by
  cases hm with
  | register c client hh hc => exact h.register hne hh hc hsteady
  | unregister c client hh hc hcur => exact h.unregister hh hc hcur hsteady
  | notify c about online hh => exact h.notify hroom hh
  | stale c client hh hc hcur =>
    refine h.hub (by simp [hh]) nofun (notices_of_hub rfl) fun _ _ hnt => ?_
    exact absurd hnt (not_notifying_of_hub (by rw [hubIdle, hh]))
  | peer c client online hh hc hp =>
    have hval : client.deviceID = B → client.pairedWith = A ∧ online = s.online B := by
      intro hd
      refine ⟨Linked.eq' (hd ▸ hb.conns c client hc) hne, ?_⟩
      cases online with
      | true =>
        obtain ⟨d, hown, hon⟩ := h.notices.registered c hh
        exact (hon (Option.some.inj (hown.symm.trans (by rw [owner_of_conn hc, hd])))).symm
      | false =>
        obtain ⟨d, hown, hon⟩ := h.notices.unregistered c hh
        exact (hon (Option.some.inj (hown.symm.trans (by rw [owner_of_conn hc, hd])))).symm
    refine h.hub (by rw [hh]; cases online <;> simp) nofun ⟨nofun, nofun, fun t o ht => ?_, nofun⟩
      fun _ _ hnt => ?_
    · obtain ⟨rfl, hd, rfl⟩ := HubPc.lookup.inj ht
      exact hval hd
    · rcases hnt with ⟨b, hhb, hown⟩ | ⟨t, o, ht⟩ | ⟨t, o, ht⟩
      · have hbc : c = b := by
          rw [hh] at hhb
          cases online <;> simpa using hhb
        have hd : client.deviceID = B := by
          rw [← hbc, owner_of_conn hc] at hown
          exact Option.some.inj hown
        exact Or.inr (Or.inl ⟨_, _, by rw [hd]⟩)
      all_goals
        rw [hh] at ht
        cases online <;> cases ht
  | unpaired c client online hh hc hp =>
    refine h.hub (by rw [hh]; cases online <;> simp) nofun
      (notices_of_hub rfl) fun _ _ hnt => ?_
    rcases hnt with ⟨b, hhb, hown⟩ | ⟨t, o, ht⟩ | ⟨t, o, ht⟩
    · have hbc : c = b := by
        rw [hh] at hhb
        cases online <;> simpa using hhb
      have hd : client.deviceID = B := by
        rw [← hbc, owner_of_conn hc] at hown
        exact Option.some.inj hown
      have hA := Linked.eq' (hd ▸ hb.conns c client hc) hne
      exact absurd (hp.symm.trans hA) hb.outside_empty.1
    all_goals
      rw [hh] at ht
      cases online <;> cases ht
  | found target about online c hh hc =>
    refine h.hub (by simp [hh]) nofun ⟨nofun, nofun, nofun, fun t o ht => ?_⟩ fun _ _ hnt => ?_
    · obtain ⟨rfl, rfl, rfl⟩ := HubPc.notify.inj ht
      obtain ⟨rfl, ho⟩ := h.notices.lookup target online hh
      exact ⟨hc, ho⟩
    · rcases hnt with ⟨b, hhb, -⟩ | ⟨t, o, ht⟩ | ⟨t, o, ht⟩
      · simp [hh] at hhb
      · rw [hh] at ht
        obtain ⟨-, rfl, -⟩ := HubPc.lookup.inj ht
        exact Or.inr (Or.inr ⟨c, online, rfl⟩)
      · simp [hh] at ht
  | offline target about online hh hc =>
    refine h.hub (by simp [hh]) nofun (notices_of_hub rfl) fun b hcl hnt => ?_
    rcases hnt with ⟨b, hhb, -⟩ | ⟨t, o, ht⟩ | ⟨t, o, ht⟩
    · simp [hh] at hhb
    · obtain ⟨rfl, -⟩ := h.notices.lookup t o ht
      rw [hh] at ht
      obtain ⟨rfl, -, -⟩ := HubPc.lookup.inj ht
      rw [hc] at hcl
      cases hcl
    · simp [hh] at ht

theorem Presence.read (h : s.Presence A B) (hb : s.Bonded A B) (hne : A ≠ B) (hroom : s.Room)
    (hreg : pc.isRegister = false) (hw : pc.welcomed = true) (hr : s.read c pc = some s') :
    s'.Presence A B := by
  obtain ⟨conn, hc, hpc, rfl⟩ := read_eq_some hr
  exact h.advance hb hne hroom hc ⟨hreg, Or.inl ⟨by rw [hpc]; rfl, rfl⟩⟩
    (Or.inl ⟨nofun, Or.inl ⟨by rw [hpc]; rfl, hw⟩⟩)

theorem Presence.connect (h : s.Presence A B) {new : Conn} (hreg : new.pc.welcomed = false)
    (hst : new.pc.isStatus = false) : { s with conns := s.conns ++ [new] }.Presence A B := by
  have howner : ∀ {b d}, s.owner b = some d →
      owner { s with conns := s.conns ++ [new] } b = some d := by
    intro b d hb
    obtain ⟨x, hx, rfl⟩ := Option.map_eq_some_iff.1 hb
    simp [owner, seen_connect, Nat.ne_of_lt (seen_lt hx), hx]
  obtain ⟨h1, h2, h3, h4⟩ := h.notices
  refine h.frame ⟨fun b hb => ?_, fun b hb => ?_, h3, h4⟩ (fun b conn' hb hd hopen => ?_) rfl
    (fun _ _ => id) (fun _ => id) fun _ _ hnt => ?_
  · obtain ⟨d, hd, ho⟩ := h1 b hb
    exact ⟨d, howner hd, ho⟩
  · obtain ⟨d, hd, ho⟩ := h2 b hb
    exact ⟨d, howner hd, ho⟩
  · dsimp only at hb
    rw [List.getElem?_append] at hb
    split_ifs at hb
    · exact conns_same b conn' hb hd hopen
    · obtain rfl := List.mem_singleton.1 (List.mem_of_getElem? hb)
      exact Or.inl ⟨hreg, hst⟩
  · exact hnt.imp (fun ⟨b, hb, ho⟩ => ⟨b, hb, howner ho⟩) id

theorem Presence.step (h : s.Presence A B) (hb : s.Bonded A B) (hne : A ≠ B) {l : Label}
    (hroom : s.Room) (hsteady : s.Steady A B l) (hstep : s.step l = some s') :
    s'.Presence A B := by
  cases l with
  | connect deviceID token now upgraded =>
    cases hstep
    rcases s.handler_cases deviceID token now upgraded with heq | ⟨-, device, -, heq⟩ <;> rw [heq]
    · exact h
    · exact h.connect rfl rfl
  | receive c frame =>
    exact h.read hb hne hroom (dispatch_isRegister c frame) (dispatch_welcomed c frame) hstep
  | disconnect c => exact h.read hb hne hroom rfl rfl hstep
  | handler c env =>
    obtain ⟨conn, a, pc, hc, hx, rfl⟩ := runHandler_move hstep
    exact h.advance hb hne hroom hc hx.registering hx.presence
  | write c =>
    cases hstep
    have hseen := seen_modify s c (f := fun conn => { conn with send := conn.send.tail })
      fun _ => ⟨rfl, rfl⟩
    obtain ⟨h1, h2, h3, h4⟩ := h.notices
    refine h.frame ⟨fun b hb => ?_, fun b hb => ?_, h3, h4⟩ (fun b conn' hb hd hopen => ?_) rfl
      (fun _ _ => id) (fun _ => id) fun _ _ hnt => ?_
    · rw [owner, hseen]
      exact h1 b hb
    · rw [owner, hseen]
      exact h2 b hb
    · rw [modify_conns] at hb
      obtain ⟨conn, hconn, rfl⟩ := Option.map_eq_some_iff.1 hb
      refine Or.inr ⟨conn, hconn, ?_⟩
      split_ifs at hd hopen ⊢ <;> exact ⟨hd, hopen, rfl, rfl⟩
    · rcases hnt with ⟨b, hb, ho⟩ | hnt
      · exact Or.inl ⟨b, hb, by rw [owner, hseen]; exact ho⟩
      · exact Or.inr hnt
  | takeRegister =>
    obtain ⟨c, rest, hh, hr, rfl⟩ := takeRegister_eq_some hstep
    refine h.frame (notices_of_hub rfl) conns_same rfl (fun b pc => ?_) (fun _ => id)
      fun _ _ hnt => ?_
    · simp only [Awaits, hh, hr, List.mem_cons, HubPc.register.injEq, reduceCtorEq, or_false]
      rw [or_comm (a := b ∈ rest), eq_comm (a := c)]
      exact id
    · exact absurd hnt (not_notifying_of_hub (by rw [hubIdle, hh]))
  | takeUnregister =>
    obtain ⟨c, rest, hh, hu, rfl⟩ := takeUnregister_eq_some hstep
    have haw : ∀ b pc, Awaits { s with unregisterCh := rest, hub := .unregister c } b pc
        ↔ s.Awaits b pc := awaits_hub rfl (by simp [hh]) (by simp)
    refine h.frame (notices_of_hub rfl) conns_same rfl
      (fun b pc => (haw b pc).1) (fun _ => id) fun _ _ hnt => ?_
    exact absurd hnt (not_notifying_of_hub (by rw [hubIdle, hh]))
  | hub => exact h.hubMove hb hne hroom hsteady (runHub_move hstep)

/-- Where no send queue is full, neither device is unpaired, and `B` comes and goes only while no
connection of `A` waits between its lookup and its registration, `A` knows whether `B` is online. -/
theorem told_eq_online (devices : Devices) (pairCodes : PairCodes) (labels : List Label)
    (hw : devices.WellFormed) (hne : A ≠ B) (hpeer : devices.peer A = some B)
    (hm : Lts.Meets step (fun s l => s.Room ∧ s.KeepsLink A B l ∧ s.Steady A B l)
      (start devices pairCodes) labels)
    (hrun : Lts.run step (start devices pairCodes) labels = some s) (hd : s.Drained)
    (hA : s.clients A = some c) (hc : s.conns[c]? = some conn) (hlive : conn.closed = false)
    (hpast : conn.pc.welcomed = true) : conn.told B = some (s.clients B).isSome := by
  have hstart : (start devices pairCodes).Bonded A B :=
    ⟨hw, hpeer, fun c conn hc => by simp [start] at hc, fun c d pc hs => by simp [start, seen] at hs⟩
  have hstart' : (start devices pairCodes).Presence A B :=
    ⟨notices_of_hub rfl, fun c conn hc => by simp [start] at hc⟩
  obtain ⟨hk, -, h⟩ : s.Keyed ∧ s.Bonded A B ∧ s.Presence A B :=
    Lts.run_inv (I := fun s => s.Keyed ∧ s.Bonded A B ∧ s.Presence A B)
      (fun _ _ _ hi hl hs => ⟨hi.1.step hs, hi.2.1.step hi.1 hl.2.1 hs,
        hi.2.2.step hi.2.1 hne hl.1 hl.2.2 hs⟩)
      labels ⟨start_keyed devices pairCodes, hstart, hstart'⟩ hm hrun
  rcases (h.told c conn hc (hk.device hA hc) hlive).registered hpast hA with hnt | ht
  · have hh := hd.hub
    exact absurd hnt (not_notifying_of_hub (by rw [hubIdle, hh]))
  · exact ht

end Presence

/-- Two devices that are linked with each other. -/
def linkedAB : Devices := fun id =>
  if id = "a" then some { deviceToken := "t", pairedWith := some "b" }
  else if id = "b" then some { deviceToken := "t", pairedWith := some "a" }
  else none

theorem linkedAB_wellFormed : linkedAB.WellFormed := by
  have hpeer : ∀ id, linkedAB.peer id
      = if id = "a" then some "b" else if id = "b" then some "a" else none := by
    intro id
    unfold Devices.peer linkedAB
    split_ifs <;> rfl
  refine ⟨by simp [linkedAB], fun {x y} hxy => ?_⟩
  rw [hpeer] at hxy ⊢
  split_ifs at hxy with hx hx'
  · cases hxy
    simp [hx]
  · cases hxy
    simp [hx']

/-- `a` looks `b` up while the registration of `b` waits in the channel, and is registered after it:
the hub has told nobody that `b` is online. -/
theorem told_ne_online :
    ∃ s conn, Lts.Meets step (fun s l => s.Room ∧ s.KeepsLink "a" "b" l)
        (start linkedAB fun _ => none)
        ([Label.connect "b" "t" 0 true, .connect "a" "t" 0 true] ++ List.replicate 5 (plainStep 0)
          ++ List.replicate 5 (plainStep 1) ++ [Label.takeRegister, .hub, .hub, .hub]
          ++ [Label.takeRegister, .hub, .hub, .hub, .hub])
      ∧ Lts.run step (start linkedAB fun _ => none)
        ([Label.connect "b" "t" 0 true, .connect "a" "t" 0 true] ++ List.replicate 5 (plainStep 0)
          ++ List.replicate 5 (plainStep 1) ++ [Label.takeRegister, .hub, .hub, .hub]
          ++ [Label.takeRegister, .hub, .hub, .hub, .hub]) = some s
      ∧ s.Quiescent ∧ s.Drained ∧ s.clients "a" = some 1 ∧ s.clients "b" = some 0
      ∧ s.conns[1]? = some conn ∧ conn.closed = false ∧ conn.told "b" = some false := by
  have h : (Lts.run step (start linkedAB fun _ => none)
      ([Label.connect "b" "t" 0 true, .connect "a" "t" 0 true]
        ++ List.replicate 5 (plainStep 0) ++ List.replicate 5 (plainStep 1)
        ++ [Label.takeRegister, .hub, .hub, .hub]
        ++ [Label.takeRegister, .hub, .hub, .hub, .hub])).any fun s =>
          decide (s.Quiescent ∧ s.Drained ∧ s.clients "a" = some 1 ∧ s.clients "b" = some 0)
            && s.conns[1]?.any fun conn =>
              decide (conn.closed = false ∧ conn.told "b" = some false) := by
    decide +kernel
  obtain ⟨s, hrun, hs⟩ := (Option.any_eq_true ..).1 h
  simp only [Bool.and_eq_true, decide_eq_true_eq, Option.any_eq_true] at hs
  obtain ⟨⟨hq, hd, hA, hB⟩, conn, hconn, hlive, htold⟩ := hs
  exact ⟨s, conn, by decide +kernel, hrun, hq, hd, hA, hB, hconn, hlive, htold⟩

theorem told_eq_online_connected :
    ∃ s conn, Lts.run step (start linkedAB fun _ => none)
        (Label.connect "a" "t" 0 true :: List.replicate 5 (plainStep 0)
          ++ [Label.takeRegister, .hub, .hub, .hub] ++ Label.connect "b" "t" 0 true ::
          List.replicate 5 (plainStep 1) ++ [Label.takeRegister, .hub, .hub, .hub, .hub]) = some s
      ∧ s.clients "b" = some 1 ∧ s.conns[0]? = some conn
      ∧ conn.told "b" = some (s.clients "b").isSome := by
  have h : (Lts.run step (start linkedAB fun _ => none)
      (Label.connect "a" "t" 0 true :: List.replicate 5 (plainStep 0)
        ++ [Label.takeRegister, .hub, .hub, .hub] ++ Label.connect "b" "t" 0 true ::
        List.replicate 5 (plainStep 1)
        ++ [Label.takeRegister, .hub, .hub, .hub, .hub])).any fun s =>
          decide (s.Drained ∧ s.clients "a" = some 0 ∧ s.clients "b" = some 1)
            && s.conns[0]?.any fun conn =>
              decide (conn.closed = false ∧ conn.pc.welcomed = true) := by
    decide +kernel
  obtain ⟨s, hrun, hs⟩ := (Option.any_eq_true ..).1 h
  simp only [Bool.and_eq_true, decide_eq_true_eq, Option.any_eq_true] at hs
  obtain ⟨⟨hd, hA, hB⟩, conn, hconn, hlive, hpast⟩ := hs
  exact ⟨s, conn, hrun, hB, hconn, told_eq_online linkedAB _ _ linkedAB_wellFormed (by decide) rfl
    (by decide +kernel) hrun hd hA hconn hlive hpast⟩

end Server

end Relayly.Relay
