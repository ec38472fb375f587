import Mathlib.Algebra.Order.BigOperators.Group.List
import Mathlib.Algebra.Order.Group.Nat
import Relayly.Lib.Perm
import Relayly.Proofs.RelayRouting

/-!
# The relay comes to rest

Between two frames of a client a goroutine makes a bounded number of accesses, and it waits for
nothing but room in a channel of the hub, which the hub empties without waiting for anyone. So with
no new input the relay stops, wherever it stands and in whatever order its goroutines run, and it
stops nowhere but at `ReadMessage` and at the `select` of the hub.
-/

namespace Relayly.Relay

/-- What the hub still does with a client that waits in a channel. -/
def itemRank : ℕ := 5

def HubPc.rank : HubPc → ℕ
  | .select => 0
  | .notify .. => 1
  | .lookup .. => 2
  | .registered _ | .unregistered _ => 3
  | .register _ | .unregister _ => 4

/-- At most so many accesses are left, and so many steps of the hub for what they send to it. -/
def Pc.rank : Pc → ℕ
  | .register _ => 10
  | .sendWelcome (.staticKey _) => 4
  | .sendWelcome (.welcome ..) => 3
  | .sendWelcome (.lookup _) => 2
  | .sendWelcome (.status ..) => 1
  | .reading => 0
  | .announceKey _ => 3
  | .pairRequest => 2
  | .pairAccept (.take _) => 9
  | .pairAccept (.pairDevices ..) => 8
  | .pairAccept (.myKey ..) => 7
  | .pairAccept (.requesterKey ..) => 6
  | .pairAccept (.setPeer ..) => 5
  | .pairAccept (.complete ..) => 4
  | .pairAccept (.lookup ..) => 3
  | .pairAccept (.setRequester ..) => 2
  | .unpair .peer => 7
  | .unpair (.unpairDevice _) => 6
  | .unpair (.setPeer _) => 5
  | .unpair (.unpaired _) => 4
  | .unpair (.lookup _) => 3
  | .unpair (.clearPeer ..) => 2
  | .route (.peer _) => 10
  | .route (.lookup ..) => 9
  | .route (.enqueue ..) => 8
  | .route (.close _) => 7
  | .route (.unregister _) => 6
  | .sendJSON .. => 1
  | .sendErrorAndClose .. => 2
  | .closeAfterError => 1
  | .unregister => 7
  | .close => 1
  | .returned => 0

theorem Pc.rank_le (pc : Pc) : pc.rank ≤ 10 := by
  unfold Pc.rank
  split <;> omega

theorem HubPc.rank_le (pc : HubPc) : pc.rank ≤ 4 := by
  unfold HubPc.rank
  split <;> omega

/-- The connection that `Route` evicts if its queue is full. -/
def Pc.evicts : Pc → Option ℕ
  | .route (.enqueue peer _) | .route (.close peer) | .route (.unregister peer) => some peer
  | _ => none

/-- The client that `Hub.Run` has received. -/
def HubPc.client : HubPc → Option ℕ
  | .register c | .registered c | .unregister c | .unregistered c => some c
  | _ => none

/-- What is left of the work of the goroutine of connection `c` after an access: it comes down, and
what the goroutine sends to the hub, while there is room, is its own connection or one that it has
found. -/
structure Winds (s : Server) (c : ℕ) (pc₀ : Pc) (a : Access) (pc : Pc) : Prop where
  registers : a.registers ≠ [] → s.registerCh.length < channelSize
  unregisters : a.unregisters ≠ [] → s.unregisterCh.length < channelSize
  rank : pc.rank + itemRank * (a.registers.length + a.unregisters.length) < pc₀.rank
  sends : ∀ t ∈ a.registers ++ a.unregisters, t = c ∨ pc₀.evicts = some t
  evicts : ∀ t ∈ pc.evicts, pc₀.evicts = some t ∨ ∃ id, s.clients id = some t

section Winds

variable {s : Server} {c : ℕ} {conn : Conn} {env : Env} {a : Access} {pc pc₀ : Pc}

theorem Winds.plain (hr : a.registers = []) (hu : a.unregisters = []) (he : pc.evicts = none)
    (hrank : pc.rank < pc₀.rank) : Winds s c pc₀ a pc where
  registers := fun h => absurd hr h
  unregisters := fun h => absurd hu h
  rank := by simpa [hr, hu] using hrank
  sends := by simp [hr, hu]
  evicts := by simp [he]

theorem startWelcome_rank (device : Device) : (startWelcome device).rank ≤ 4 := by
  unfold startWelcome
  split <;> simp [Pc.rank]

theorem startWelcome_evicts (device : Device) : (startWelcome device).evicts = none := by
  unfold startWelcome
  split <;> rfl

theorem sendWelcome_winds (next : Welcome) :
    Winds s c (.sendWelcome next) (sendWelcome s c conn env next).1
      (sendWelcome s c conn env next).2 := by
  cases next with
  | welcome peers peer => cases peer <;> exact .plain rfl rfl rfl (by simp [sendWelcome, Pc.rank])
  | _ => exact .plain rfl rfl rfl (by simp [sendWelcome, Pc.rank])

theorem handleAnnounceKey_winds (key : String) :
    Winds s c (.announceKey key) (handleAnnounceKey s c conn env key).1
      (handleAnnounceKey s c conn env key).2 := by
  unfold handleAnnounceKey
  split <;> exact .plain rfl rfl rfl (by simp [sendError, Pc.rank])

theorem handlePairRequest_winds :
    Winds s c .pairRequest (handlePairRequest s c conn env).1 (handlePairRequest s c conn env).2 := by
  unfold handlePairRequest
  split <;> exact .plain rfl rfl rfl (by simp [sendError, Pc.rank])

theorem handlePairAccept_winds (next : PairAccept) :
    Winds s c (.pairAccept next) (handlePairAccept s c conn env next).1
      (handlePairAccept s c conn env next).2 := by
  cases next with
  | take code =>
    refine .plain rfl rfl ?_ ?_ <;> simp only [handlePairAccept] <;> split
    · rfl
    · rfl
    · split_ifs <;> rfl
    · simp [sendError, Pc.rank]
    · simp [sendError, Pc.rank]
    · split_ifs <;> simp [sendError, Pc.rank]
  | pairDevices code r =>
    simp only [handlePairAccept]
    split <;> exact .plain rfl rfl rfl (by simp [sendError, Pc.rank])
  | lookup code r key =>
    refine .plain rfl rfl ?_ ?_ <;> simp only [handlePairAccept] <;> split <;> simp [Pc.evicts, Pc.rank]
  | _ => exact .plain rfl rfl rfl (by simp [handlePairAccept, Pc.rank])

theorem handleUnpair_winds (next : Unpair) :
    Winds s c (.unpair next) (handleUnpair s c conn env next).1 (handleUnpair s c conn env next).2 := by
  cases next with
  | unpairDevice p =>
    simp only [handleUnpair]
    split_ifs <;> exact .plain rfl rfl rfl (by simp [sendError, Pc.rank])
  | unpaired p =>
    refine .plain rfl rfl ?_ ?_ <;> simp only [handleUnpair] <;> split_ifs <;>
      simp [Pc.evicts, Pc.rank]
  | lookup p =>
    refine .plain rfl rfl ?_ ?_ <;> simp only [handleUnpair] <;> split <;> simp [Pc.evicts, Pc.rank]
  | _ => exact .plain rfl rfl rfl (by simp [handleUnpair, Pc.rank])

theorem route_winds {x : Access × Pc} (next : Route) (hx : route s conn next = some x) :
    Winds s c (.route next) x.1 x.2 := by
  cases next with
  | peer payload =>
    cases hx
    refine .plain rfl rfl ?_ ?_ <;> split_ifs <;> simp [Pc.evicts, Pc.rank]
  | lookup peerID payload =>
    cases hx
    rcases hpeer : s.clients peerID with _ | peer
    · exact .plain rfl rfl rfl (by simp [Pc.rank])
    · refine ⟨absurd rfl, absurd rfl, by simp [Access.registers, Access.unregisters, Pc.rank],
        by simp [Access.registers, Access.unregisters], fun t ht => .inr ⟨peerID, ?_⟩⟩
      obtain rfl := Option.some.inj ht
      exact hpeer
  | enqueue peer payload =>
    cases hx
    refine ⟨absurd rfl, absurd rfl, ?_, by simp [Access.registers, Access.unregisters],
      fun t ht => ?_⟩
    · split_ifs <;> simp [Access.registers, Access.unregisters, Pc.rank]
    · split_ifs at ht
      · cases ht
      · exact .inl ht
  | close peer =>
    cases hx
    exact ⟨absurd rfl, absurd rfl, by simp [Access.registers, Access.unregisters, Pc.rank],
      by simp [Access.registers, Access.unregisters], fun t ht => .inl ht⟩
  | unregister peer =>
    simp only [route] at hx
    split_ifs at hx with hroom
    cases hx
    exact ⟨absurd rfl, fun _ => hroom,
      by simp [Access.registers, Access.unregisters, Pc.rank, itemRank],
      by simp [Access.registers, Access.unregisters, Pc.evicts], fun t ht => by cases ht⟩

/-- Every access of a goroutine brings it nearer to the end of its handler. -/
theorem exec_winds {x : Access × Pc} (hx : exec s c conn env = some x) :
    Winds s c conn.pc x.1 x.2 := by
  unfold exec at hx
  split at hx
  · next device h =>
    split_ifs at hx with hroom
    obtain rfl := Option.some.inj hx
    rw [h]
    have hrank : (startWelcome device).rank + 5 < 10 := by
      have := startWelcome_rank device
      omega
    exact ⟨fun _ => hroom, absurd rfl, hrank,
      by simp [Access.registers, Access.unregisters], by simp [startWelcome_evicts]⟩
  · next next h =>
    obtain rfl := Option.some.inj hx
    exact h ▸ sendWelcome_winds next
  · cases hx
  · next key h =>
    obtain rfl := Option.some.inj hx
    exact h ▸ handleAnnounceKey_winds key
  · next h =>
    obtain rfl := Option.some.inj hx
    exact h ▸ handlePairRequest_winds
  · next next h =>
    obtain rfl := Option.some.inj hx
    exact h ▸ handlePairAccept_winds next
  · next next h =>
    obtain rfl := Option.some.inj hx
    exact h ▸ handleUnpair_winds next
  · next next h => exact h ▸ route_winds next hx
  · next h =>
    obtain rfl := Option.some.inj hx
    exact .plain rfl rfl rfl (by simp [h, Pc.rank])
  · next h =>
    obtain rfl := Option.some.inj hx
    rw [h]
    refine .plain rfl rfl ?_ ?_ <;> split_ifs <;> simp [Pc.evicts, Pc.rank]
  · next h =>
    obtain rfl := Option.some.inj hx
    exact .plain rfl rfl rfl (by simp [h, Pc.rank])
  · next h =>
    split_ifs at hx with hroom
    obtain rfl := Option.some.inj hx
    rw [h]
    exact ⟨absurd rfl, fun _ => hroom,
      by simp [Access.registers, Access.unregisters, Pc.rank, itemRank],
      by simp [Access.registers, Access.unregisters], by simp [Pc.evicts]⟩
  · next h =>
    obtain rfl := Option.some.inj hx
    exact .plain rfl rfl rfl (by simp [h, Pc.rank])
  · cases hx

/-- A goroutine has nothing to do next only at `ReadMessage`, after its return, and where a channel
of the hub is full. -/
theorem exec_eq_none (h : exec s c conn env = none) :
    conn.pc = .reading ∨ conn.pc = .returned ∨ channelSize ≤ s.registerCh.length
      ∨ channelSize ≤ s.unregisterCh.length := by
  unfold exec at h
  split at h
  · split_ifs at h with hfull
    exact .inr (.inr (.inl (Nat.le_of_not_lt hfull)))
  · cases h
  · next hpc => exact .inl hpc
  · cases h
  · cases h
  · cases h
  · cases h
  · next next _ =>
    cases next with
    | unregister peer =>
      simp only [route] at h
      split_ifs at h with hfull
      exact .inr (.inr (.inr (Nat.le_of_not_lt hfull)))
    | _ => cases h
  · cases h
  · cases h
  · cases h
  · split_ifs at h with hfull
    exact .inr (.inr (.inr (Nat.le_of_not_lt hfull)))
  · cases h
  · next hpc => exact .inr (.inl hpc)

end Winds

/-- No client and no clock is needed for a step: it is one of a goroutine that goes on. -/
def Label.Internal : Label → Prop
  | .handler .. | .takeRegister | .takeUnregister | .hub => True
  | _ => False

instance : (l : Label) → Decidable l.Internal
  | .handler .. | .takeRegister | .takeUnregister | .hub => isTrue trivial
  | .connect .. | .receive .. | .disconnect _ | .write _ => isFalse id

namespace Server

variable {s s' : Server} {c : ℕ} {conn : Conn} {a : Access} {pc : Pc} {l : Label}

def pcs (s : Server) : List Pc := s.conns.map Conn.pc

theorem pcs_getElem? (s : Server) (c : ℕ) : s.pcs[c]? = (s.seen c).map (·.2) := by
  simp [pcs, seen, Function.comp_def]

theorem pcs_of_seen (h : s'.seen = s.seen) : s'.pcs = s.pcs :=
  List.ext_getElem? fun c => by rw [pcs_getElem?, pcs_getElem?, h]

theorem pcs_advance (hc : s.conns[c]? = some conn) (a : Access) (pc : Pc) :
    (s.advance c a pc).pcs = s.pcs.set c pc := by
  refine List.ext_getElem? fun c' => ?_
  rw [pcs_getElem?, seen_advance s a pc hc, List.getElem?_set]
  have hlt : c < s.pcs.length := by
    rw [pcs, List.length_map]
    exact (List.getElem?_eq_some_iff.1 hc).1
  by_cases hcc : c = c'
  · subst hcc
    simp [hlt]
  · rw [Function.update_of_ne (Ne.symm hcc), if_neg hcc, pcs_getElem?]

theorem pcs_hubMove (h : s.HubMove s') : s'.pcs = s.pcs := pcs_of_seen (seen_of_view h.quiet.2.1)

/-- How many steps are left at most. -/
def rank (s : Server) : ℕ :=
  (s.pcs.map Pc.rank).sum + itemRank * (s.registerCh.length + s.unregisterCh.length) + s.hub.rank

theorem rank_hubMove (h : s.HubMove s') : s'.rank < s.rank := by
  have hpcs := pcs_hubMove h
  unfold rank
  rw [hpcs]
  cases h with
  | register c client hh hc =>
    rw [evict_same]
    simp [hh, HubPc.rank]
  | unregister c client hh => simp [hh, HubPc.rank]
  | stale c client hh => simp [hh, HubPc.rank]
  | peer c client online hh => cases online <;> simp_all [HubPc.rank]
  | unpaired c client online hh => cases online <;> simp_all [HubPc.rank]
  | found target about online c hh => simp [hh, HubPc.rank]
  | offline target about online hh => simp [hh, HubPc.rank]
  | notify c about online hh =>
    rw [hh]
    exact Nat.lt_succ_self _

/-- Every step without new input comes down the rank. -/
theorem rank_step (hl : l.Internal) (h : s.step l = some s') : s'.rank < s.rank := by
  cases l with
  | connect | receive | disconnect | write => cases hl
  | handler c env =>
    obtain ⟨conn, x, hc, hx, rfl⟩ := runHandler_exec h
    have hget : s.pcs[c]? = some conn.pc := by rw [pcs_getElem?, seen_of_conn hc, Option.map_some]
    have hsum := ListPerm.sum_map_set hget x.2 Pc.rank
    have hrank := (exec_winds hx).rank
    unfold rank
    rw [pcs_advance hc, advance_registerCh, advance_unregisterCh, advance_hub, List.length_append,
      List.length_append]
    simp only [Nat.mul_add] at hrank ⊢
    omega
  | takeRegister =>
    obtain ⟨c, rest, hh, hr, rfl⟩ := takeRegister_eq_some h
    simp only [rank, pcs, hh, hr, List.length_cons, HubPc.rank, itemRank]
    omega
  | takeUnregister =>
    obtain ⟨c, rest, hh, hu, rfl⟩ := takeUnregister_eq_some h
    simp only [rank, pcs, hh, hu, List.length_cons, HubPc.rank, itemRank]
    omega
  | hub => exact rank_hubMove (runHub_move h)

/-- The hub only has clients that exist, and so does every goroutine that will send it one. -/
structure Indexed (s : Server) : Prop where
  clients : ∀ id c, s.clients id = some c → c < s.pcs.length
  register : ∀ c ∈ s.registerCh, c < s.pcs.length
  unregister : ∀ c ∈ s.unregisterCh, c < s.pcs.length
  hub : ∀ c ∈ s.hub.client, c < s.pcs.length
  evicts : ∀ pc ∈ s.pcs, ∀ t ∈ pc.evicts, t < s.pcs.length
  registerRoom : s.registerCh.length ≤ channelSize
  unregisterRoom : s.unregisterCh.length ≤ channelSize

theorem start_indexed (devices : Devices) (pairCodes : PairCodes) :
    (start devices pairCodes).Indexed := by
  constructor <;> simp [start, pcs, HubPc.client]

theorem Indexed.of_pcs (h : s.Indexed) (hpcs : s'.pcs = s.pcs)
    (hclients : ∀ id c, s'.clients id = some c → c < s.pcs.length)
    (hregister : s'.registerCh = s.registerCh) (hunregister : s'.unregisterCh = s.unregisterCh)
    (hhub : ∀ c ∈ s'.hub.client, c < s.pcs.length) : s'.Indexed where
  clients := by rw [hpcs]; exact hclients
  register := by rw [hpcs, hregister]; exact h.register
  unregister := by rw [hpcs, hunregister]; exact h.unregister
  hub := by rw [hpcs]; exact hhub
  evicts := by rw [hpcs]; exact h.evicts
  registerRoom := by rw [hregister]; exact h.registerRoom
  unregisterRoom := by rw [hunregister]; exact h.unregisterRoom

theorem lt_pcs (hc : s.conns[c]? = some conn) : c < s.pcs.length := by
  rw [pcs, List.length_map]
  exact (List.getElem?_eq_some_iff.1 hc).1

theorem Indexed.connect (h : s.Indexed) (new : Conn) (hnew : new.pc.evicts = none) :
    { s with conns := s.conns ++ [new] }.Indexed := by
  have hpcs : { s with conns := s.conns ++ [new] }.pcs = s.pcs ++ [new.pc] := by simp [pcs]
  have hle : ∀ {t}, t < s.pcs.length → t < { s with conns := s.conns ++ [new] }.pcs.length := by
    intro t ht
    rw [hpcs, List.length_append]
    omega
  refine ⟨fun id c hc => hle (h.clients id c hc), fun c hc => hle (h.register c hc),
    fun c hc => hle (h.unregister c hc), fun c hc => hle (h.hub c hc), fun pc hpc t ht => hle ?_,
    h.registerRoom, h.unregisterRoom⟩
  rw [hpcs, List.mem_append, List.mem_singleton] at hpc
  rcases hpc with hpc | rfl
  · exact h.evicts pc hpc t ht
  · rw [hnew] at ht
    cases ht

/-- A goroutine moves on. -/
theorem Indexed.advance (h : s.Indexed) (hc : s.conns[c]? = some conn)
    (hsends : ∀ t ∈ a.registers ++ a.unregisters, t < s.pcs.length)
    (hevicts : ∀ t ∈ pc.evicts, t < s.pcs.length)
    (hregister : a.registers ≠ [] → s.registerCh.length < channelSize)
    (hunregister : a.unregisters ≠ [] → s.unregisterCh.length < channelSize) :
    (s.advance c a pc).Indexed := by
  have hlen : (s.advance c a pc).pcs.length = s.pcs.length := by
    rw [pcs_advance hc, List.length_set]
  refine ⟨?_, ?_, ?_, ?_, ?_, ?_, ?_⟩
  · rw [hlen, advance_clients]
    exact h.clients
  · rw [hlen, advance_registerCh]
    intro t ht
    rcases List.mem_append.1 ht with ht | ht
    · exact h.register t ht
    · exact hsends t (List.mem_append_left _ ht)
  · rw [hlen, advance_unregisterCh]
    intro t ht
    rcases List.mem_append.1 ht with ht | ht
    · exact h.unregister t ht
    · exact hsends t (List.mem_append_right _ ht)
  · rw [hlen, advance_hub]
    exact h.hub
  · rw [hlen, pcs_advance hc]
    intro pc' hpc'
    rcases List.mem_or_eq_of_mem_set hpc' with hpc' | rfl
    · exact h.evicts pc' hpc'
    · exact hevicts
  · have hroom := h.registerRoom
    rw [advance_registerCh, List.length_append]
    cases a <;> simp only [Access.registers, List.length_nil, List.length_singleton] at hregister ⊢ <;>
      first | omega | exact hregister (by simp)
  · have hroom := h.unregisterRoom
    rw [advance_unregisterCh, List.length_append]
    cases a <;> simp only [Access.unregisters, List.length_nil, List.length_singleton] at hunregister ⊢ <;>
      first | omega | exact hunregister (by simp)

theorem Indexed.hubMove (h : s.Indexed) (hm : s.HubMove s') : s'.Indexed := by
  have hpcs := pcs_hubMove hm
  cases hm with
  | register c client hh hc =>
    rw [evict_same] at hpcs ⊢
    refine h.of_pcs hpcs (fun id c' hid => ?_) rfl rfl fun t ht => ?_
    · have hid : Function.update s.clients client.deviceID (some c) id = some c' := hid
      rw [Function.update_apply] at hid
      split_ifs at hid
      · exact Option.some.inj hid ▸ lt_pcs hc
      · exact h.clients id c' hid
    · exact Option.some.inj ht ▸ lt_pcs hc
  | unregister c client hh hc hcur =>
    refine h.of_pcs hpcs (fun id c' hid => ?_) rfl rfl fun t ht => ?_
    · have hid : Function.update s.clients client.deviceID none id = some c' := hid
      rw [Function.update_apply] at hid
      split_ifs at hid
      exact h.clients id c' hid
    · exact Option.some.inj ht ▸ lt_pcs hc
  | _ => exact h.of_pcs hpcs h.clients rfl rfl fun t ht => by cases ht

theorem Indexed.step (h : s.Indexed) (hstep : s.step l = some s') : s'.Indexed := by
  cases l with
  | connect deviceID token now upgraded =>
    cases hstep
    rcases s.handler_cases deviceID token now upgraded with heq | ⟨-, device, -, heq⟩ <;> rw [heq]
    · exact h
    · exact h.connect _ rfl
  | receive c frame =>
    obtain ⟨conn, hc, -, rfl⟩ := read_eq_some hstep
    refine h.advance hc (by simp [Access.registers, Access.unregisters]) ?_ (absurd rfl) (absurd rfl)
    cases frame <;> simp only [dispatch] <;> (try split_ifs) <;> simp [sendError, Pc.evicts]
  | disconnect c =>
    obtain ⟨conn, hc, -, rfl⟩ := read_eq_some hstep
    exact h.advance hc (by simp [Access.registers, Access.unregisters]) (by simp [Pc.evicts])
      (absurd rfl) (absurd rfl)
  | handler c env =>
    obtain ⟨conn, x, hc, hx, rfl⟩ := runHandler_exec hstep
    have hw := exec_winds hx
    have hpc : conn.pc ∈ s.pcs := List.mem_map_of_mem (List.mem_of_getElem? hc)
    refine h.advance hc (fun t ht => ?_) (fun t ht => ?_) hw.registers hw.unregisters
    · rcases hw.sends t ht with rfl | he
      · exact lt_pcs hc
      · exact h.evicts conn.pc hpc t he
    · rcases hw.evicts t ht with he | ⟨id, hid⟩
      · exact h.evicts conn.pc hpc t he
      · exact h.clients id t hid
  | write c =>
    cases hstep
    exact h.of_pcs (pcs_of_seen (seen_modify s c fun _ => ⟨rfl, rfl⟩)) h.clients rfl rfl h.hub
  | takeRegister =>
    obtain ⟨c, rest, -, hr, rfl⟩ := takeRegister_eq_some hstep
    have hroom := h.registerRoom
    rw [hr, List.length_cons] at hroom
    exact ⟨h.clients, fun t ht => h.register t (hr ▸ List.mem_cons_of_mem c ht), h.unregister,
      fun t ht => Option.some.inj ht ▸ h.register c (hr ▸ List.mem_cons_self), h.evicts,
      Nat.le_of_succ_le hroom, h.unregisterRoom⟩
  | takeUnregister =>
    obtain ⟨c, rest, -, hu, rfl⟩ := takeUnregister_eq_some hstep
    have hroom := h.unregisterRoom
    rw [hu, List.length_cons] at hroom
    exact ⟨h.clients, h.register, fun t ht => h.unregister t (hu ▸ List.mem_cons_of_mem c ht),
      fun t ht => Option.some.inj ht ▸ h.unregister c (hu ▸ List.mem_cons_self), h.evicts,
      h.registerRoom, Nat.le_of_succ_le hroom⟩
  | hub => exact h.hubMove (runHub_move hstep)

theorem Indexed.rank_le (h : s.Indexed) : s.rank ≤ 10 * s.conns.length + 644 := by
  have hsum : (s.pcs.map Pc.rank).sum ≤ 10 * s.conns.length := by
    have := List.sum_le_card_nsmul (s.pcs.map Pc.rank) 10 fun n hn => by
      obtain ⟨pc, -, rfl⟩ := List.mem_map.1 hn
      exact pc.rank_le
    simpa [pcs, Nat.mul_comm] using this
  have hreg := h.registerRoom
  have hunreg := h.unregisterRoom
  have hhub := s.hub.rank_le
  simp only [rank, itemRank, channelSize] at *
  omega

/-- `Hub.Run` goes on with every client that it has received. -/
theorem Indexed.hub_stuck (h : s.Indexed) (hstuck : s.step .hub = none) : s.hub = .select := by
  have hconn : ∀ c ∈ s.hub.client, ∃ conn, s.conns[c]? = some conn := by
    intro c hc
    have hlt := h.hub c hc
    rw [pcs, List.length_map] at hlt
    exact ⟨_, List.getElem?_eq_getElem hlt⟩
  simp only [Server.step, runHub] at hstuck
  split at hstuck
  · assumption
  · next c hh =>
    obtain ⟨conn, hc⟩ := hconn c (by simp [hh, HubPc.client])
    simp [hc] at hstuck
  · next c hh =>
    obtain ⟨conn, hc⟩ := hconn c (by simp [hh, HubPc.client])
    simp [hc] at hstuck
  · next c hh =>
    obtain ⟨conn, hc⟩ := hconn c (by simp [hh, HubPc.client])
    simp [hc] at hstuck
  · next c hh =>
    obtain ⟨conn, hc⟩ := hconn c (by simp [hh, HubPc.client])
    simp [hc] at hstuck
  · split at hstuck <;> cases hstuck
  · cases hstuck

/-- Where no goroutine can go on, none is waiting for another. -/
theorem Indexed.rest_of_stuck (h : s.Indexed) (hstuck : ∀ l : Label, l.Internal → s.step l = none) :
    s.Quiescent ∧ s.Drained := by
  have hhub : s.hub = .select := h.hub_stuck (hstuck .hub trivial)
  have hregister : s.registerCh = [] := by
    have := hstuck .takeRegister trivial
    simp only [Server.step, hhub] at this
    split at this
    · cases this
    · next hne =>
      rcases hr : s.registerCh with _ | ⟨c, rest⟩
      · rfl
      · exact absurd hr (hne c rest rfl)
  have hunregister : s.unregisterCh = [] := by
    have := hstuck .takeUnregister trivial
    simp only [Server.step, hhub] at this
    split at this
    · cases this
    · next hne =>
      rcases hr : s.unregisterCh with _ | ⟨c, rest⟩
      · rfl
      · exact absurd hr (hne c rest rfl)
  refine ⟨fun conn hconn => ?_, hregister, hunregister, hhub⟩
  obtain ⟨c, hc⟩ := List.getElem?_of_mem hconn
  have hexec : exec s c conn ⟨0, false, none⟩ = none := by
    have := hstuck (.handler c ⟨0, false, none⟩) trivial
    simpa [Server.step, runHandler, hc] using this
  rcases exec_eq_none hexec with hpc | hpc | hfull | hfull
  · exact .inl hpc
  · exact .inr hpc
  · simp [hregister, channelSize] at hfull
  · simp [hunregister, channelSize] at hfull

theorem stuck_of_rest (hq : s.Quiescent) (hd : s.Drained) (hl : l.Internal) : s.step l = none := by
  cases l with
  | connect | receive | disconnect | write => cases hl
  | handler c env =>
    simp only [Server.step, runHandler]
    split
    · rfl
    · next conn hc =>
      rcases hq conn (List.mem_of_getElem? hc) with hpc | hpc <;> simp [exec, hpc]
  | takeRegister => simp [Server.step, hd.hub, hd.register]
  | takeUnregister => simp [Server.step, hd.hub, hd.unregister]
  | hub => simp [Server.step, runHub, hd.hub]

/-- From every state that the relay reaches, and in whatever order its goroutines go on, it takes at
most ten steps for each connection and 644 more until new input comes. It stops exactly where every
goroutine is at `ReadMessage` or has returned, and the hub is at its `select` with both channels
empty. -/
theorem comes_to_rest (devices : Devices) (pairCodes : PairCodes) {labels work : List Label}
    (hrun : Lts.run step (start devices pairCodes) labels = some s)
    (hwork : ∀ l ∈ work, l.Internal) (hgoes : Lts.run step s work = some s') :
    work.length ≤ 10 * s.conns.length + 644
      ∧ ((∀ l : Label, l.Internal → s'.step l = none) ↔ s'.Quiescent ∧ s'.Drained) := by
  have hs : s.Indexed := Lts.run_inv_of_step (fun _ _ _ h hstep => h.step hstep) labels
    (start_indexed devices pairCodes) hrun
  have hs' : s'.Indexed := Lts.run_inv_of_step (fun _ _ _ h hstep => h.step hstep) work hs hgoes
  have hlen := Lts.length_le_of_measure rank (fun _ _ _ hl hstep => rank_step hl hstep) work hwork
    hgoes
  have hrank := hs.rank_le
  exact ⟨by omega, hs'.rest_of_stuck, fun h l hl => stuck_of_rest h.1 h.2 hl⟩

theorem comes_to_rest_accepting :
    ∃ s s', Lts.run step (start devicesAB fun _ => none)
        (offering ++ [Label.receive 1 (.pairAccept "1")]) = some s
      ∧ Lts.run step s (List.replicate 9 (plainStep 1)) = some s'
      ∧ (List.replicate 9 (plainStep 1)).length ≤ 10 * s.conns.length + 644
      ∧ ∀ l : Label, l.Internal → s'.step l = none := by
  have h : (Lts.run step (start devicesAB fun _ => none)
      (offering ++ [Label.receive 1 (.pairAccept "1")])).any fun s =>
        (Lts.run step s (List.replicate 9 (plainStep 1))).any fun s' =>
          decide (s'.Quiescent ∧ s'.Drained) := by
    decide +kernel
  simp only [Option.any_eq_true, decide_eq_true_eq] at h
  obtain ⟨s, hs, s', hs', hrest⟩ := h
  obtain ⟨hlen, hstuck⟩ := comes_to_rest devicesAB (fun _ => none) hs (by decide) hs'
  exact ⟨s, s', hs, hs', hlen, hstuck.2 hrest⟩

end Server

end Relayly.Relay
