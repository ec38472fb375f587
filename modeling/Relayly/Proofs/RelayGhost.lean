import Relayly.Lib.Run
import Relayly.Proofs.RelayLinks

/-!
# Registrations

A connection registers once, and unregisters when its `Pump` ends. Nothing orders the two channels,
so the hub may take the second before the first: it then has nothing to remove, and the registration
that follows stays.
-/

namespace Relayly.Relay

variable {s s' : Server} {c : ℕ} {conn : Conn} {a : Access} {pc : Pc}

/-- `Pump` has sent on `Unregister`. -/
def Pc.Left (pc : Pc) : Prop := pc = .close ∨ pc = .returned

theorem Pc.Ordinary.not_left (h : pc.Ordinary) : ¬ pc.Left := by
  rintro (rfl | rfl) <;> exact h

theorem startWelcome_not_left (device : Device) : ¬ (startWelcome device).Left := by
  unfold startWelcome
  split <;> simp [Pc.Left]

theorem dispatch_not_left (c : ℕ) (frame : Inbound) : ¬ (dispatch c frame).Left := by
  cases frame <;> simp only [dispatch] <;> (try split_ifs) <;> simp [Pc.Left, sendError]

theorem Exec.registers (h : Exec s c conn a pc) :
    a.registers = [] ∨ (∃ device, conn.pc = .register device) ∧ a.registers = [c] := by
  cases h with
  | ordinary _ ha => exact Or.inl (by cases ha <;> rfl)
  | register device h => exact Or.inr ⟨⟨device, h⟩, rfl⟩
  | _ => exact Or.inl rfl

theorem Exec.left (h : Exec s c conn a pc) (hl : pc.Left) :
    conn.pc = .unregister ∧ c ∈ a.unregisters ∨ conn.pc.Left := by
  cases h with
  | ordinary _ _ hpc => exact absurd hl hpc.not_left
  | register device => exact absurd hl (startWelcome_not_left device)
  | unregister h => exact Or.inl ⟨h, by simp [Access.unregisters]⟩
  | close h => exact Or.inr (Or.inl h)
  | _ => rcases hl with hl | hl <;> cases hl

namespace Server

/-- The hub will not register `c` any more. -/
structure Gone (s : Server) (c : ℕ) : Prop where
  channel : c ∉ s.registerCh
  hub : s.hub ≠ .register c
  clients : ∀ id, s.clients id ≠ some c

/-- Every connection that has left is waiting to be unregistered, or has been. -/
def Tracked (s : Server) : Prop :=
  ∀ c d pc, s.seen c = some (d, pc) → pc.Left →
    c ∈ s.unregisterCh ∨ (s.hub = .unregister c ∧ c ∉ s.registerCh) ∨ s.Gone c

/-- The hub takes no connection from `Unregister` that still waits in `Register`. -/
def InTurn (s : Server) : Label → Prop
  | .takeUnregister => ∀ c ∈ s.unregisterCh.head?, c ∉ s.registerCh
  | _ => True

instance (s : Server) : (l : Label) → Decidable (s.InTurn l)
  | .takeUnregister => inferInstanceAs (Decidable (∀ c ∈ s.unregisterCh.head?, c ∉ s.registerCh))
  | .connect .. | .receive .. | .disconnect _ | .handler .. | .write _ | .takeRegister | .hub =>
    isTrue trivial

theorem Tracked.same (h : s.Tracked) (hseen : s'.seen = s.seen) (hr : s'.registerCh = s.registerCh)
    (hu : s'.unregisterCh = s.unregisterCh) (hc : s'.clients = s.clients)
    (hreg : ∀ c, s'.hub = .register c → s.hub = .register c)
    (hunreg : ∀ c, s.hub = .unregister c → s'.hub = .unregister c) : s'.Tracked := by
  intro c d pc hs hl
  rw [hseen] at hs
  rw [hu, hr]
  rcases h c d pc hs hl with hmem | ⟨hhub, hnot⟩ | hgone
  · exact Or.inl hmem
  · exact Or.inr (Or.inl ⟨hunreg c hhub, hnot⟩)
  · exact Or.inr (Or.inr ⟨by rw [hr]; exact hgone.channel, fun hh => hgone.hub (hreg c hh),
      by rw [hc]; exact hgone.clients⟩)

/-- A connection moves on, and may send on a channel. -/
theorem Tracked.move (h : s.Tracked) {d : String} {pc pc' : Pc} (hs : s.seen c = some (d, pc))
    (hseen : s'.seen = Function.update s.seen c (some (d, pc'))) {reg unreg : List ℕ}
    (hr : s'.registerCh = s.registerCh ++ reg) (hu : s'.unregisterCh = s.unregisterCh ++ unreg)
    (hc : s'.clients = s.clients) (hhub : s'.hub = s.hub)
    (hreg : reg = [] ∨ (∃ device, pc = .register device) ∧ reg = [c])
    (hleft : pc'.Left → c ∈ unreg ∨ pc.Left) : s'.Tracked := by
  intro c' d' pc'' hs' hl
  -- A goroutine that sends on `Register` has not left, so what has left stays out of it.
  have hold : ∀ q, s.seen c' = some (d', q) → q.Left →
      c' ∈ s'.unregisterCh ∨ (s'.hub = .unregister c' ∧ c' ∉ s'.registerCh) ∨ s'.Gone c' := by
    intro q hq hlq
    have hnot : c' ∉ reg := by
      rcases hreg with rfl | ⟨⟨device, rfl⟩, rfl⟩
      · simp
      · rw [List.mem_singleton]
        rintro rfl
        obtain ⟨-, rfl⟩ := Prod.mk.inj (Option.some.inj (hs.symm.trans hq))
        rcases hlq with hlq | hlq <;> cases hlq
    have hchan : c' ∉ s.registerCh → c' ∉ s'.registerCh := by
      intro hn
      rw [hr, List.mem_append]
      exact not_or.2 ⟨hn, hnot⟩
    rcases h c' d' q hq hlq with hmem | ⟨hh, hn⟩ | hgone
    · exact Or.inl (by rw [hu]; exact List.mem_append_left _ hmem)
    · exact Or.inr (Or.inl ⟨hhub.trans hh, hchan hn⟩)
    · exact Or.inr (Or.inr ⟨hchan hgone.channel, by rw [hhub]; exact hgone.hub,
        by rw [hc]; exact hgone.clients⟩)
  rw [hseen] at hs'
  by_cases hcc : c' = c
  · subst hcc
    rw [Function.update_self] at hs'
    obtain ⟨rfl, rfl⟩ := Prod.mk.inj (Option.some.inj hs')
    rcases hleft hl with hmem | hlp
    · exact Or.inl (by rw [hu]; exact List.mem_append_right _ hmem)
    · exact hold pc hs hlp
  · rw [Function.update_of_ne hcc] at hs'
    exact hold pc'' hs' hl

theorem Tracked.connect (h : s.Tracked) (conn : Conn) (hl : ¬ conn.pc.Left) :
    { s with conns := s.conns ++ [conn] }.Tracked := by
  intro c d pc hs hleft
  rw [seen_connect] at hs
  split_ifs at hs
  · cases hs
    exact absurd hleft hl
  · rcases h c d pc hs hleft with hm | hm | hm
    · exact Or.inl hm
    · exact Or.inr (Or.inl hm)
    · exact Or.inr (Or.inr ⟨hm.channel, hm.hub, hm.clients⟩)

theorem Tracked.takeRegister (h : s.Tracked) {rest : List ℕ} (hh : s.hub = .select)
    (hr : s.registerCh = c :: rest) : { s with registerCh := rest, hub := .register c }.Tracked := by
  intro c' d pc hs hl
  rcases h c' d pc hs hl with hmem | ⟨hhub, -⟩ | hgone
  · exact Or.inl hmem
  · rw [hh] at hhub
    cases hhub
  · obtain ⟨hne, hnot⟩ : c' ≠ c ∧ c' ∉ rest := by simpa [hr] using hgone.channel
    refine Or.inr (Or.inr ⟨hnot, ?_, hgone.clients⟩)
    rintro ⟨⟩
    exact hne rfl

theorem Tracked.takeUnregister (h : s.Tracked) {rest : List ℕ} (hh : s.hub = .select)
    (hu : s.unregisterCh = c :: rest) (hturn : c ∉ s.registerCh) :
    { s with unregisterCh := rest, hub := .unregister c }.Tracked := by
  intro c' d pc hs hl
  rcases h c' d pc hs hl with hmem | ⟨hhub, -⟩ | hgone
  · rw [hu] at hmem
    rcases List.mem_cons.1 hmem with rfl | hmem
    · exact Or.inr (Or.inl ⟨rfl, hturn⟩)
    · exact Or.inl hmem
  · rw [hh] at hhub
    cases hhub
  · exact Or.inr (Or.inr ⟨hgone.channel, nofun, hgone.clients⟩)

theorem Tracked.register (h : s.Tracked) (hh : s.hub = .register c) :
    { s.evict conn.deviceID with
      clients := Function.update s.clients conn.deviceID (some c)
      hub := .registered c }.Tracked := by
  rw [evict_same]
  intro c' d pc hs hl
  rw [← evict_same] at hs
  replace hs : s.seen c' = some (d, pc) := by
    rw [← s.seen_evict conn.deviceID]
    exact hs
  rcases h c' d pc hs hl with hmem | ⟨hhub, -⟩ | hgone
  · exact Or.inl hmem
  · rw [hh] at hhub
    cases hhub
  · have hne : c ≠ c' := by
      rintro rfl
      exact hgone.hub hh
    refine Or.inr (Or.inr ⟨hgone.channel, nofun, fun id hid => ?_⟩)
    by_cases hd : id = conn.deviceID
    · subst hd
      exact hne (by simpa using hid)
    · exact hgone.clients id (by simpa [hd] using hid)

/-- The hub is done with an `Unregister`. -/
theorem Tracked.unregister (h : s.Tracked) (hh : s.hub = .unregister c) {hub : HubPc}
    (hreg : ∀ c', hub ≠ .register c') {clients : String → Option ℕ}
    (hsub : ∀ id c', clients id = some c' → s.clients id = some c' ∧ c' ≠ c) :
    { s with clients, hub }.Tracked := by
  intro c' d pc hs hl
  rcases h c' d pc hs hl with hmem | ⟨hhub, hnot⟩ | hgone
  · exact Or.inl hmem
  · obtain rfl : c = c' := by
      rw [hh] at hhub
      cases hhub
      rfl
    exact Or.inr (Or.inr ⟨hnot, hreg c, fun id hid => (hsub id c hid).2 rfl⟩)
  · exact Or.inr (Or.inr ⟨hgone.channel, hreg c', fun id hid => hgone.clients id (hsub id c' hid).1⟩)

theorem Tracked.hubMove (h : s.Tracked) (hk : s.Keyed) (hm : s.HubMove s') : s'.Tracked := by
  cases hm with
  | register c client hh => exact h.register hh
  | unregister c client hh hc hcur =>
    refine h.unregister hh (by simp) fun id c' hid => ?_
    by_cases hd : id = client.deviceID
    · simp [hd] at hid
    · rw [Function.update_of_ne hd] at hid
      refine ⟨hid, ?_⟩
      rintro rfl
      exact hd (hk.device hid hc).symm
  | stale c client hh hc hcur =>
    refine h.unregister hh (by simp) fun id c' hid => ⟨hid, ?_⟩
    rintro rfl
    rw [hk.device hid hc] at hcur
    exact hcur hid
  | peer c client online hh =>
    exact h.same rfl rfl rfl rfl nofun fun c' hc' => by rw [hh] at hc'; cases online <;> cases hc'
  | unpaired c client online hh =>
    exact h.same rfl rfl rfl rfl nofun fun c' hc' => by rw [hh] at hc'; cases online <;> cases hc'
  | found target about online c hh =>
    exact h.same rfl rfl rfl rfl nofun fun c' hc' => by rw [hh] at hc'; cases hc'
  | offline target about online hh =>
    exact h.same rfl rfl rfl rfl nofun fun c' hc' => by rw [hh] at hc'; cases hc'
  | notify c about online hh =>
    refine h.same (seen_modify s c fun conn => ?_) rfl rfl rfl nofun fun c' hc' => ?_
    · exact ⟨conn.enqueue_deviceID _, conn.enqueue_pc _⟩
    · rw [hh] at hc'
      cases hc'

theorem Tracked.read (h : s.Tracked) (hpc : ¬ pc.Left) (hr : s.read c pc = some s') :
    s'.Tracked := by
  obtain ⟨conn, hc, -, rfl⟩ := read_eq_some hr
  exact h.move (seen_of_conn hc) (s.seen_advance .none pc hc) (List.append_nil _).symm
    (List.append_nil _).symm rfl rfl (Or.inl rfl) fun hl => absurd hl hpc

theorem Tracked.step (h : s.Tracked) (hk : s.Keyed) {l : Label} (hturn : s.InTurn l)
    (hstep : s.step l = some s') : s'.Tracked := by
  cases l with
  | connect deviceID token now upgraded =>
    cases hstep
    rcases s.handler_cases deviceID token now upgraded with heq | ⟨-, device, -, heq⟩ <;> rw [heq]
    · exact h
    · exact h.connect _ (by simp [Pc.Left])
  | receive c frame => exact h.read (dispatch_not_left c frame) hstep
  | disconnect c => exact h.read (by simp [Pc.Left]) hstep
  | handler c env =>
    obtain ⟨conn, a, pc, hc, hx, rfl⟩ := runHandler_move hstep
    exact h.move (seen_of_conn hc) (s.seen_advance a pc hc) (s.advance_registerCh c a pc)
      (s.advance_unregisterCh c a pc) (s.advance_clients c a pc) (s.advance_hub c a pc) hx.registers
      fun hl => (hx.left hl).imp And.right id
  | write c =>
    cases hstep
    exact h.same (seen_modify s c fun _ => ⟨rfl, rfl⟩) rfl rfl rfl (fun _ => id) fun _ => id
  | takeRegister =>
    obtain ⟨c, rest, hh, hr, rfl⟩ := takeRegister_eq_some hstep
    exact h.takeRegister hh hr
  | takeUnregister =>
    obtain ⟨c, rest, hh, hu, rfl⟩ := takeUnregister_eq_some hstep
    exact h.takeUnregister hh hu (hturn c (by simp [hu]))
  | hub => exact h.hubMove hk (runHub_move hstep)

theorem start_tracked (devices : Devices) (pairCodes : PairCodes) :
    (start devices pairCodes).Tracked :=
  fun c d pc hs => by simp [start, seen] at hs

/-- Where the hub takes no connection from `Unregister` that still waits in `Register`, no
connection whose `Pump` has returned is registered once the channels are empty. -/
theorem registered_not_returned (devices : Devices) (pairCodes : PairCodes) (labels : List Label)
    (hm : Lts.Meets step InTurn (start devices pairCodes) labels)
    (hrun : Lts.run step (start devices pairCodes) labels = some s) (hd : s.Drained) (id : String)
    (hid : s.clients id = some c) (hc : s.conns[c]? = some conn) : conn.pc ≠ .returned := by
  obtain ⟨-, h⟩ : s.Keyed ∧ s.Tracked := Lts.run_inv (I := fun s => s.Keyed ∧ s.Tracked)
    (fun _ _ _ hi hl hs => ⟨hi.1.step hs, hi.2.step hi.1 hl hs⟩) labels
    ⟨start_keyed devices pairCodes, start_tracked devices pairCodes⟩ hm hrun
  intro hpc
  rcases h c _ _ (seen_of_conn hc) (Or.inr hpc) with hmem | ⟨hhub, -⟩ | hgone
  · rw [hd.unregister] at hmem
    cases hmem
  · rw [hd.hub] at hhub
    cases hhub
  · exact hgone.clients id hid

/-- A device that is not paired. -/
def deviceA : Devices := fun id => if id = "a" then some { deviceToken := "t" } else none

/-- A step at time 0 of a goroutine, with a database that works. -/
def plainStep (c : ℕ) : Label := .handler c ⟨0, false, none⟩

/-- A connection closes before the hub has taken its registration, and the hub takes its
`Unregister` first. -/
theorem registered_returned :
    ∃ s conn, Lts.run step (start deviceA fun _ => none) [.connect "a" "t" 0 true, plainStep 0,
        plainStep 0, .disconnect 0, plainStep 0, plainStep 0, .takeUnregister, .hub, .takeRegister,
        .hub, .hub] = some s
      ∧ s.Drained ∧ s.clients "a" = some 0 ∧ s.conns[0]? = some conn ∧ conn.pc = .returned := by
  have h : (Lts.run step (start deviceA fun _ => none) [.connect "a" "t" 0 true, plainStep 0,
      plainStep 0, .disconnect 0, plainStep 0, plainStep 0, .takeUnregister, .hub, .takeRegister,
      .hub, .hub]).any fun s => decide (s.Drained ∧ s.clients "a" = some 0)
        && s.conns[0]?.any fun conn => decide (conn.pc = .returned) := by
    decide +kernel
  obtain ⟨s, hrun, hs⟩ := (Option.any_eq_true ..).1 h
  simp only [Bool.and_eq_true, decide_eq_true_eq, Option.any_eq_true] at hs
  obtain ⟨⟨hd, hc⟩, conn, hconn, hpc⟩ := hs
  exact ⟨s, conn, hrun, hd, hc, hconn, hpc⟩

theorem registered_not_returned_reconnected :
    ∃ s conn, Lts.run step (start deviceA fun _ => none) [.connect "a" "t" 0 true, plainStep 0,
        plainStep 0, .takeRegister, .hub, .hub, .connect "a" "t" 0 true, plainStep 1, plainStep 1,
        .takeRegister, .hub, .hub, .disconnect 0, plainStep 0, plainStep 0, .takeUnregister,
        .hub] = some s
      ∧ s.Drained ∧ s.clients "a" = some 1 ∧ s.conns[1]? = some conn ∧ conn.pc ≠ .returned := by
  have h : (Lts.run step (start deviceA fun _ => none) [.connect "a" "t" 0 true, plainStep 0,
      plainStep 0, .takeRegister, .hub, .hub, .connect "a" "t" 0 true, plainStep 1, plainStep 1,
      .takeRegister, .hub, .hub, .disconnect 0, plainStep 0, plainStep 0, .takeUnregister,
      .hub]).any fun s => decide (s.Drained ∧ s.clients "a" = some 1) && s.conns[1]?.isSome := by
    decide +kernel
  obtain ⟨s, hrun, hs⟩ := (Option.any_eq_true ..).1 h
  simp only [Bool.and_eq_true, decide_eq_true_eq, Option.isSome_iff_exists] at hs
  obtain ⟨⟨hd, hc⟩, conn, hconn⟩ := hs
  exact ⟨s, conn, hrun, hd, hc, hconn, registered_not_returned deviceA _ _ (by decide +kernel) hrun
    hd "a" hc hconn⟩

end Server

end Relayly.Relay
