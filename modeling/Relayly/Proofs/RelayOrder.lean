import Relayly.Proofs.RelayWelcome

/-!
# Binary frames

`readPump` routes one frame after the other, and a connection is in the map of the hub for one stretch
of time. A frame that is refused is the last that is routed there: `Route` closes the connection before
the next is read.
-/

namespace Relayly.Relay

/-- What happens to a binary frame: `readPump` of `c` reads it, or its `Route` finds the connection
`t` and queues the frame there or not. -/
inductive Routed
  | read (c : ℕ) (payload : Bytes)
  | accepted (c t : ℕ) (payload : Bytes)
  | refused (c t : ℕ) (payload : Bytes)
  deriving DecidableEq, Repr

namespace Routed

def readBy (c : ℕ) : Routed → Option Bytes
  | .read c' payload => if c' = c then some payload else none
  | _ => none

/-- A frame of `c` that the queue of `t` took. -/
def acceptedFrom (c t : ℕ) : Routed → Option Bytes
  | .accepted c' t' payload => if c' = c ∧ t' = t then some payload else none
  | _ => none

/-- A frame of any connection that the queue of `t` took. -/
def arrival (t : ℕ) : Routed → Option Bytes
  | .accepted _ t' payload => if t' = t then some payload else none
  | _ => none

end Routed

/-- The frame that a goroutine is routing. -/
def Pc.carries : Pc → Option Bytes
  | .route (.peer payload) | .route (.lookup _ payload) | .route (.enqueue _ payload) => some payload
  | _ => none

def WsFrame.binary (frame : WsFrame) : Option Bytes :=
  match frame.data with
  | .binary payload => some payload
  | .text _ => none

/-- The steps of a goroutine, by what they do with binary frames. -/
inductive Routing (s : Server) (conn : Conn) : Access × Pc → Prop
  | other {x : Access × Pc} (h : conn.pc.carries = none) (h' : x.2.carries = none)
      (hc : ∀ t, conn.pc ≠ .route (.close t)) (hc' : ∀ t, x.2 ≠ .route (.close t))
      (henq : ∀ t frame, x.1 = .enqueue t frame → frame.binary = none) : Routing s conn x
  | unlinked (payload : Bytes) (h : conn.pc = .route (.peer payload)) (hp : conn.pairedWith = "") :
      Routing s conn (.none, .reading)
  | peer (payload : Bytes) (h : conn.pc = .route (.peer payload)) (hp : conn.pairedWith ≠ "") :
      Routing s conn (.none, .route (.lookup conn.pairedWith payload))
  | offline (id : String) (payload : Bytes) (h : conn.pc = .route (.lookup id payload))
      (hc : s.clients id = none) : Routing s conn (.none, .reading)
  | found (id : String) (payload : Bytes) (t : ℕ) (h : conn.pc = .route (.lookup id payload))
      (hc : s.clients id = some t) : Routing s conn (.none, .route (.enqueue t payload))
  | accepted (t : ℕ) (payload : Bytes) (h : conn.pc = .route (.enqueue t payload))
      (ha : s.accepts t = true) : Routing s conn (.enqueue t { data := .binary payload }, .reading)
  | refused (t : ℕ) (payload : Bytes) (h : conn.pc = .route (.enqueue t payload))
      (ha : s.accepts t = false) :
      Routing s conn (.enqueue t { data := .binary payload }, .route (.close t))
  | close (t : ℕ) (h : conn.pc = .route (.close t)) :
      Routing s conn (.close t, .route (.unregister t))

section

variable {s : Server} {c : ℕ} {conn : Conn} {env : Env} {x : Access × Pc}

theorem Pc.carries_of_not_route {pc : Pc} (h : ∀ next, pc ≠ .route next) :
    pc.carries = none ∧ ∀ t, pc ≠ .route (.close t) := by
  refine ⟨?_, fun t => h _⟩
  unfold Pc.carries
  split <;> first | rfl | exact absurd rfl (h _)

/-- A step that does not lead to `Route` and queues no binary frame. -/
structure Aside (x : Access × Pc) : Prop where
  notRoute : ∀ next, x.2 ≠ .route next
  textOnly : ∀ t frame, x.1 = .enqueue t frame → frame.binary = none

/-- What is not `Route` has nothing to do with binary frames. -/
theorem Routing.elsewhere (h : ∀ next, conn.pc ≠ .route next) (hx : Aside x) : Routing s conn x :=
  .other (Pc.carries_of_not_route h).1 (Pc.carries_of_not_route hx.notRoute).1
    (Pc.carries_of_not_route h).2 (Pc.carries_of_not_route hx.notRoute).2 hx.textOnly

theorem route_routing (next : Route) (h : conn.pc = .route next)
    (hx : route s conn next = some x) : Routing s conn x := by
  cases next with
  | peer payload =>
    obtain rfl := Option.some.inj hx
    split_ifs with hp
    · exact .peer payload h hp
    · exact .unlinked payload h (not_not.1 hp)
  | lookup id payload =>
    obtain rfl := Option.some.inj hx
    split
    · exact .found id payload _ h ‹_›
    · exact .offline id payload h ‹_›
  | enqueue t payload =>
    obtain rfl := Option.some.inj hx
    split_ifs with ha
    · exact .accepted t payload h ha
    · exact .refused t payload h (Bool.not_eq_true _ ▸ ha)
  | close t =>
    obtain rfl := Option.some.inj hx
    exact .close t h
  | unregister t =>
    simp only [route] at hx
    split_ifs at hx
    obtain rfl := Option.some.inj hx
    exact .other (by rw [h]; rfl) rfl (by simp [h]) (by simp) (by simp)

theorem textFrame_binary (msg : Control) : (textFrame msg).binary = none := rfl

theorem binary_of_text {t : ℕ} {frame : WsFrame} {c : ℕ} {msg : Control} {b : Bool}
    (h : Access.enqueue c { data := .text msg, closeAfter := b } = .enqueue t frame) :
    frame.binary = none := by
  cases h
  rfl

theorem startWelcome_aside (device : Device) : Aside (.register c, startWelcome device) := by
  refine ⟨fun next => ?_, nofun⟩
  dsimp only [startWelcome]
  split <;> nofun

theorem sendWelcome_aside (next : Welcome) : Aside (sendWelcome s c conn env next) := by
  cases next with
  | welcome peers peer => cases peer <;> exact ⟨nofun, fun t frame he => binary_of_text he⟩
  | status peer online => exact ⟨nofun, fun t frame he => binary_of_text he⟩
  | _ => exact ⟨nofun, nofun⟩

theorem handleAnnounceKey_aside (key : String) : Aside (handleAnnounceKey s c conn env key) := by
  unfold handleAnnounceKey
  split <;> exact ⟨nofun, nofun⟩

theorem handlePairRequest_aside : Aside (handlePairRequest s c conn env) := by
  unfold handlePairRequest
  split <;> exact ⟨nofun, nofun⟩

theorem handlePairAccept_aside (next : PairAccept) : Aside (handlePairAccept s c conn env next) := by
  cases next with
  | take code =>
    dsimp only [handlePairAccept]
    refine ⟨fun next => ?_, nofun⟩
    split
    · nofun
    · nofun
    · split_ifs <;> nofun
  | pairDevices code r =>
    dsimp only [handlePairAccept]
    split <;> exact ⟨nofun, nofun⟩
  | complete code r key key' => exact ⟨nofun, fun t frame he => binary_of_text he⟩
  | lookup code r key =>
    refine ⟨fun next => ?_, nofun⟩
    dsimp only [handlePairAccept]
    split <;> nofun
  | _ => exact ⟨nofun, nofun⟩

theorem handleUnpair_aside (next : Unpair) : Aside (handleUnpair s c conn env next) := by
  cases next with
  | unpairDevice p =>
    dsimp only [handleUnpair]
    split_ifs <;> exact ⟨nofun, nofun⟩
  | unpaired p =>
    refine ⟨fun next => ?_, fun t frame he => binary_of_text he⟩
    dsimp only [handleUnpair]
    split_ifs <;> nofun
  | lookup p =>
    refine ⟨fun next => ?_, nofun⟩
    dsimp only [handleUnpair]
    split <;> nofun
  | _ => exact ⟨nofun, nofun⟩

theorem exec_aside (h : ∀ next, conn.pc ≠ .route next) (hx : exec s c conn env = some x) :
    Aside x := by
  unfold exec at hx
  split at hx
  · split_ifs at hx
    obtain rfl := Option.some.inj hx
    exact startWelcome_aside _
  · obtain rfl := Option.some.inj hx
    exact sendWelcome_aside _
  · cases hx
  · obtain rfl := Option.some.inj hx
    exact handleAnnounceKey_aside _
  · obtain rfl := Option.some.inj hx
    exact handlePairRequest_aside
  · obtain rfl := Option.some.inj hx
    exact handlePairAccept_aside _
  · obtain rfl := Option.some.inj hx
    exact handleUnpair_aside _
  · next hpc => exact absurd hpc (h _)
  · obtain rfl := Option.some.inj hx
    exact ⟨nofun, fun t frame he => binary_of_text he⟩
  · obtain rfl := Option.some.inj hx
    refine ⟨fun next => ?_, fun t frame he => binary_of_text he⟩
    dsimp only
    split_ifs <;> nofun
  · obtain rfl := Option.some.inj hx
    exact ⟨nofun, nofun⟩
  · split_ifs at hx
    obtain rfl := Option.some.inj hx
    exact ⟨nofun, nofun⟩
  · obtain rfl := Option.some.inj hx
    exact ⟨nofun, nofun⟩
  · cases hx

theorem exec_routing (hx : exec s c conn env = some x) : Routing s conn x := by
  by_cases h : ∃ next, conn.pc = .route next
  · obtain ⟨next, h⟩ := h
    refine route_routing next h ?_
    rw [← hx, exec, h]
  · have h' : ∀ next, conn.pc ≠ .route next := fun next hn => h ⟨next, hn⟩
    exact .elsewhere h' (exec_aside h' hx)

theorem dispatch_route {frame : Inbound} {next : Route} (h : dispatch c frame = .route next) :
    ∃ payload, frame = .binary payload ∧ next = .peer payload := by
  cases frame with
  | binary payload => exact ⟨payload, rfl, (Pc.route.inj h).symm⟩
  | announceKey | pairAccept =>
    simp only [dispatch] at h
    split_ifs at h
    cases h
  | _ => cases h

end

/-- The connection whose goroutine takes a step. -/
def Label.actor : Label → Option ℕ
  | .receive c _ | .disconnect c | .handler c _ => some c
  | _ => none

namespace Server

variable {s s' : Server} {c : ℕ} {conn : Conn} {l : Label}

/-- What a step does with a binary frame. -/
def routed (s : Server) : Label → Option Routed
  | .receive c (.binary payload) => some (.read c payload)
  | .handler c _ => s.conns[c]?.bind fun conn =>
      match conn.pc with
      | .route (.enqueue t payload) =>
        some (if s.accepts t then .accepted c t payload else .refused c t payload)
      | _ => none
  | _ => none

/-- The hub has registered `c`, or is done with it. -/
def Past (s : Server) (c : ℕ) : Prop := ∃ d pc, s.seen c = some (d, pc) ∧ ¬ s.Awaits c pc

def Closed (s : Server) (c : ℕ) : Prop := ∃ conn, s.conns[c]? = some conn ∧ conn.closed = true

/-- A connection is registered once. -/
structure Once (s : Server) : Prop where
  nodup : s.registerCh.Nodup
  sent : ∀ c ∈ s.registerCh, ∃ d pc, s.seen c = some (d, pc) ∧ pc.isRegister = false
  hub : ∀ c, s.hub = .register c → c ∉ s.registerCh
    ∧ ∃ d pc, s.seen c = some (d, pc) ∧ pc.isRegister = false
  clients : ∀ id c, s.clients id = some c → s.Past c
  routing : ∀ c d t payload, s.seen c = some (d, .route (.enqueue t payload)) → s.Past t

section Move

variable {a : Access} {pc : Pc}

theorem Past.advance {t : ℕ} (h : s.Past t) (hc : s.conns[c]? = some conn)
    (hx : Registering c conn a pc) : (s.advance c a pc).Past t := by
  obtain ⟨d, q, hs, hq⟩ := h
  by_cases ht : t = c
  · subst ht
    obtain ⟨-, rfl⟩ := Prod.mk.inj (Option.some.inj ((seen_of_conn hc).symm.trans hs))
    exact ⟨conn.deviceID, pc, by rw [s.seen_advance a pc hc, Function.update_self],
      fun haw => hq ((awaits_self hx).1 haw)⟩
  · exact ⟨d, q, by rw [s.seen_advance a pc hc, Function.update_of_ne ht, hs],
      fun haw => hq ((awaits_other hx ht q).1 haw)⟩

theorem Past.same {t : ℕ} (h : s.Past t) (hseen : s'.seen = s.seen)
    (haw : ∀ c pc, s'.Awaits c pc → s.Awaits c pc) : s'.Past t := by
  obtain ⟨d, q, hs, hq⟩ := h
  exact ⟨d, q, by rw [hseen, hs], fun ha => hq (haw t q ha)⟩

theorem Past.connect {t : ℕ} (h : s.Past t) (new : Conn) :
    Past { s with conns := s.conns ++ [new] } t := by
  obtain ⟨d, q, hs, hq⟩ := h
  exact ⟨d, q, by rw [seen_connect, if_neg (Nat.ne_of_lt (seen_lt hs)), hs], hq⟩

theorem Once.advance (h : s.Once) (hc : s.conns[c]? = some conn) (hx : Registering c conn a pc)
    (hroute : ∀ t payload, pc = .route (.enqueue t payload) → s.Past t) :
    (s.advance c a pc).Once := by
  have hseen := s.seen_advance a pc hc
  have hkept : ∀ {b}, (∃ d q, s.seen b = some (d, q) ∧ q.isRegister = false) →
      ∃ d q, (s.advance c a pc).seen b = some (d, q) ∧ q.isRegister = false := by
    rintro b ⟨d, q, hs, hq⟩
    by_cases hb : b = c
    · subst hb
      exact ⟨_, pc, by rw [hseen, Function.update_self], hx.1⟩
    · exact ⟨d, q, by rw [hseen, Function.update_of_ne hb, hs], hq⟩
  have hnew : ∀ b ∈ a.registers, b = c ∧ conn.pc.isRegister = true := by
    intro b hb
    rcases hx.2 with ⟨-, hr⟩ | ⟨hpc, hr⟩
    · simp [hr] at hb
    · exact ⟨by simpa [hr] using hb, hpc⟩
  -- the goroutine at its send on `Register` has not been in the channel
  have hfresh : conn.pc.isRegister = true → c ∉ s.registerCh ∧ s.hub ≠ .register c := by
    intro hpc
    have hno : ¬ ∃ d q, s.seen c = some (d, q) ∧ q.isRegister = false := by
      rintro ⟨d, q, hs, hq⟩
      obtain ⟨-, rfl⟩ := Prod.mk.inj (Option.some.inj ((seen_of_conn hc).symm.trans hs))
      rw [hpc] at hq
      cases hq
    exact ⟨fun hm => hno (h.sent c hm), fun hh => hno (h.hub c hh).2⟩
  refine ⟨?_, fun b hb => ?_, fun b hb => ?_, fun id b hb => ?_, fun b d t payload hs => ?_⟩
  · rw [advance_registerCh]
    refine List.nodup_append.2 ⟨h.nodup, ?_, fun x hx₁ y hy hxy => ?_⟩
    · rcases hx.2 with ⟨-, hr⟩ | ⟨-, hr⟩ <;> simp [hr]
    · obtain ⟨rfl, hpc⟩ := hnew y hy
      exact (hfresh hpc).1 (hxy ▸ hx₁)
  · rw [advance_registerCh, List.mem_append] at hb
    rcases hb with hb | hb
    · exact hkept (h.sent b hb)
    · obtain ⟨rfl, -⟩ := hnew b hb
      exact ⟨_, pc, by rw [hseen, Function.update_self], hx.1⟩
  · rw [advance_hub] at hb
    obtain ⟨hnot, hex⟩ := h.hub b hb
    refine ⟨?_, hkept hex⟩
    rw [advance_registerCh, List.mem_append, not_or]
    refine ⟨hnot, fun hm => ?_⟩
    obtain ⟨rfl, hpc⟩ := hnew b hm
    exact (hfresh hpc).2 hb
  · exact (h.clients id b (by simpa using hb)).advance hc hx
  · rw [hseen] at hs
    by_cases hb : b = c
    · rw [hb, Function.update_self] at hs
      obtain ⟨-, hpc⟩ := Prod.mk.inj (Option.some.inj hs)
      exact (hroute t payload hpc).advance hc hx
    · rw [Function.update_of_ne hb] at hs
      exact (h.routing b d t payload hs).advance hc hx

end Move

/-- What no step takes back. -/
structure Kept (s s' : Server) : Prop where
  past : ∀ t, s.Past t → s'.Past t
  closed : ∀ t, s.Closed t → s'.Closed t
  absent : ∀ t, s.Past t → (∀ id, s.clients id ≠ some t) → ∀ id, s'.clients id ≠ some t
  owner : ∀ t d, s.owner t = some d → s'.owner t = some d

theorem kept_advance {a : Access} {pc : Pc} (hc : s.conns[c]? = some conn)
    (hx : Registering c conn a pc) : s.Kept (s.advance c a pc) where
  past t ht := ht.advance hc hx
  closed t := by
    rintro ⟨conn₀, hc₀, hclosed⟩
    refine ⟨_, by rw [advance_conns, hc₀]; rfl, ?_⟩
    split_ifs <;> exact Access.closed_of_on hclosed
  absent t _ hn id := by simpa using hn id
  owner t d hd := by rw [owner_advance hc, hd]

theorem kept_same (hseen : s'.seen = s.seen) (haw : ∀ c pc, s'.Awaits c pc → s.Awaits c pc)
    (hclosed : ∀ t, s.Closed t → s'.Closed t)
    (hcl : ∀ id c, s'.clients id = some c → s.clients id = some c ∨ ¬ s.Past c) :
    s.Kept s' where
  past t ht := ht.same hseen haw
  closed := hclosed
  absent t hp hn id hid := (hcl id t hid).elim (hn id) fun hnot => hnot hp
  owner t d hd := by rw [Server.owner, hseen]; exact hd

theorem closed_modify {t : ℕ} {f : Conn → Conn} (hf : ∀ conn, conn.closed = true → (f conn).closed = true)
    (b : ℕ) : s.Closed b → (s.modify t f).Closed b := by
  rintro ⟨conn, hc, hclosed⟩
  refine ⟨_, by rw [modify_conns, hc]; rfl, ?_⟩
  dsimp only
  split_ifs
  · exact hf conn hclosed
  · exact hclosed

theorem not_past_of_register (hh : s.hub = .register c) : ¬ s.Past c := by
  rintro ⟨d, pc, -, ha⟩
  exact ha (Or.inr (Or.inr hh))

/-- The hub moves to where it registers nobody, and the map gains what it was registering at most. -/
theorem Once.keep (h : s.Once) (hseen : s'.seen = s.seen) (hreg : s'.registerCh = s.registerCh)
    (hhub : ∀ c, s'.hub ≠ .register c) (hclosed : ∀ t, s.Closed t → s'.Closed t)
    (hcl : ∀ id c, s'.clients id = some c → s.clients id = some c ∨ s'.Past c ∧ ¬ s.Past c) :
    s'.Once ∧ s.Kept s' := by
  have haw : ∀ c pc, s'.Awaits c pc → s.Awaits c pc := by
    intro c pc
    simp only [Awaits, hreg, hhub, or_false]
    exact fun ha => ha.imp (fun hp => hp) Or.inl
  refine ⟨⟨hreg ▸ h.nodup, by rw [hreg, hseen]; exact h.sent, fun c hc => absurd hc (hhub c),
    fun id c hc => ?_, fun c d t payload hs => ?_⟩, kept_same hseen haw hclosed fun id c hc => ?_⟩
  · rcases hcl id c hc with hc' | ⟨hp, -⟩
    · exact (h.clients id c hc').same hseen haw
    · exact hp
  · exact (h.routing c d t payload (hseen ▸ hs)).same hseen haw
  · exact (hcl id c hc).imp (fun hc' => hc') And.right

theorem Once.hubMove (h : s.Once) (hm : s.HubMove s') : s'.Once ∧ s.Kept s' := by
  cases hm with
  | register c client hh hc =>
    generalize hs' : { s.evict client.deviceID with
      clients := Function.update s.clients client.deviceID (some c)
      hub := HubPc.registered c } = s'
    have hseen : s'.seen = s.seen := hs' ▸ s.seen_evict client.deviceID
    have hreg : s'.registerCh = s.registerCh := by rw [← hs', evict_same]
    have hhub : s'.hub = .registered c := by rw [← hs']
    have hclients : s'.clients = Function.update s.clients client.deviceID (some c) := by rw [← hs']
    obtain ⟨hnot, d, pc, hs, hpc⟩ := h.hub c hh
    have hpast : s'.Past c := by
      refine ⟨d, pc, by rw [hseen, hs], ?_⟩
      simp [Awaits, hpc, hreg, hnot, hhub]
    refine h.keep hseen hreg (by simp [hhub]) (fun b => ?_) fun id b hb => ?_
    · rintro ⟨conn, hb, hclosed⟩
      rw [← hs']
      refine ⟨_, (s.evict_conns client.deviceID b).trans (by rw [hb]; rfl), ?_⟩
      dsimp only
      split_ifs
      · rfl
      · exact hclosed
    · rw [hclients, Function.update_apply] at hb
      split_ifs at hb
      · obtain rfl := Option.some.inj hb
        exact Or.inr ⟨hpast, not_past_of_register hh⟩
      · exact Or.inl hb
  | unregister c client hh hc hcur =>
    refine h.keep rfl rfl (by simp) (fun _ hcl => hcl) fun id b hb => Or.inl ?_
    dsimp only at hb
    rw [Function.update_apply] at hb
    split_ifs at hb
    exact hb
  | notify c about online hh =>
    refine h.keep (seen_modify s c fun conn => ⟨conn.enqueue_deviceID _, conn.enqueue_pc _⟩) rfl (by simp)
      (closed_modify fun conn hc => ?_) fun _ _ => Or.inl
    rw [Conn.enqueue_closed, hc]
  | stale | peer | unpaired | found | offline =>
    exact h.keep rfl rfl (by simp) (fun _ hcl => hcl) fun _ _ => Or.inl

theorem exec_past (h : s.Once) {x : Access × Pc} (hx : Routing s conn x) (t : ℕ) (payload : Bytes)
    (hpc : x.2 = .route (.enqueue t payload)) : s.Past t := by
  cases hx with
  | other _ h' =>
    rw [hpc] at h'
    cases h'
  | found id _ t' _ hc =>
    obtain ⟨rfl, -⟩ := Route.enqueue.inj (Pc.route.inj hpc)
    exact h.clients id t' hc
  | _ => cases hpc

theorem Once.connect (h : s.Once) (new : Conn) (hnew : ∀ next, new.pc ≠ .route next) :
    Once { s with conns := s.conns ++ [new] } ∧ s.Kept { s with conns := s.conns ++ [new] } := by
  have hkept : ∀ {b d q}, s.seen b = some (d, q) →
      seen { s with conns := s.conns ++ [new] } b = some (d, q) := by
    intro b d q hb
    rw [seen_connect, if_neg (Nat.ne_of_lt (seen_lt hb)), hb]
  refine ⟨⟨h.nodup, fun b hb => ?_, fun b hb => ⟨(h.hub b hb).1, ?_⟩,
    fun id b hb => (h.clients id b hb).connect new, fun b d t payload hs => ?_⟩,
    ⟨fun t ht => ht.connect new, ?_, fun _ _ hn => hn, fun t d hd => ?_⟩⟩
  · obtain ⟨d, q, hs, hq⟩ := h.sent b hb
    exact ⟨d, q, hkept hs, hq⟩
  · obtain ⟨-, d, q, hs, hq⟩ := h.hub b hb
    exact ⟨d, q, hkept hs, hq⟩
  · rw [seen_connect] at hs
    split_ifs at hs
    · exact absurd (Prod.mk.inj (Option.some.inj hs)).2 (hnew _)
    · exact (h.routing b d t payload hs).connect new
  · rintro t ⟨conn, hc, hclosed⟩
    exact ⟨conn, by rw [List.getElem?_append_left (List.getElem?_eq_some_iff.1 hc).1, hc], hclosed⟩
  · obtain ⟨⟨d', q⟩, hs, rfl⟩ := Option.map_eq_some_iff.1 hd
    simp [Server.owner, hkept hs]

theorem Once.read (h : s.Once) {pc : Pc} (hreg : pc.isRegister = false)
    (hpc : ∀ t payload, pc ≠ .route (.enqueue t payload)) (hr : s.read c pc = some s') :
    s'.Once ∧ s.Kept s' := by
  obtain ⟨conn, hc, hcpc, rfl⟩ := read_eq_some hr
  have hx : Registering c conn .none pc := ⟨hreg, Or.inl ⟨by rw [hcpc]; rfl, rfl⟩⟩
  exact ⟨h.advance hc hx fun t payload he => absurd he (hpc t payload), kept_advance hc hx⟩

theorem Once.step (h : s.Once) (hstep : s.step l = some s') : s'.Once ∧ s.Kept s' := by
  cases l with
  | connect deviceID token now upgraded =>
    cases hstep
    rcases s.handler_cases deviceID token now upgraded with heq | ⟨-, device, -, heq⟩ <;> rw [heq]
    · exact ⟨h, kept_same rfl (fun _ _ => id) (fun _ => id) fun _ _ => Or.inl⟩
    · exact h.connect _ (by simp)
  | receive c frame =>
    refine h.read (dispatch_isRegister c frame) (fun t payload he => ?_) hstep
    obtain ⟨p, -, hp⟩ := dispatch_route he
    cases hp
  | disconnect c => exact h.read rfl (fun t payload he => by cases he) hstep
  | handler c env =>
    obtain ⟨conn, x, hc, hx, rfl⟩ := runHandler_exec hstep
    have hreg := (exec_move hx).registering
    exact ⟨h.advance hc hreg (exec_past h (exec_routing hx)), kept_advance hc hreg⟩
  | write c =>
    cases hstep
    have hseen := seen_modify s c (f := fun conn => { conn with send := conn.send.tail })
      fun _ => ⟨rfl, rfl⟩
    refine ⟨⟨h.nodup, by rw [hseen]; exact h.sent, by rw [hseen]; exact h.hub,
      fun d b hb => (h.clients d b hb).same hseen fun _ _ => id,
      fun b d t payload hs => (h.routing b d t payload (hseen ▸ hs)).same hseen fun _ _ => id⟩,
      kept_same hseen (fun _ _ => id) (closed_modify fun _ => id) fun _ _ => Or.inl⟩
  | takeRegister =>
    obtain ⟨c, rest, hh, hr, rfl⟩ := takeRegister_eq_some hstep
    have haw : ∀ b pc, Awaits { s with registerCh := rest, hub := .register c } b pc →
        s.Awaits b pc := by
      intro b pc
      simp only [Awaits, hh, hr, List.mem_cons, HubPc.register.injEq, reduceCtorEq, or_false]
      rw [or_comm (a := b ∈ rest), eq_comm (a := c)]
      exact fun ha => ha
    have hnd := h.nodup
    rw [hr, List.nodup_cons] at hnd
    refine ⟨⟨hnd.2, fun b hb => h.sent b (by rw [hr]; exact List.mem_cons_of_mem _ hb),
      fun b hb => ?_, fun id b hb => (h.clients id b hb).same rfl haw,
      fun b d t payload hs => (h.routing b d t payload hs).same rfl haw⟩,
      kept_same rfl haw (fun _ => id) fun _ _ => Or.inl⟩
    obtain rfl := HubPc.register.inj hb
    exact ⟨hnd.1, h.sent c (by rw [hr]; exact List.mem_cons_self ..)⟩
  | takeUnregister =>
    obtain ⟨c, rest, -, -, rfl⟩ := takeUnregister_eq_some hstep
    exact h.keep rfl rfl (by simp) (fun _ hcl => hcl) fun _ _ => Or.inl
  | hub => exact h.hubMove (runHub_move hstep)

section Queue

/-- The binary frames that the send queue of `t` took. -/
def relayed (s : Server) (t : ℕ) : List Bytes :=
  s.conns[t]?.elim [] fun conn => conn.accepted.filterMap WsFrame.binary

theorem relayed_of_conns {t : ℕ} (h : ∀ conn', s'.conns[t]? = some conn' → ∃ conn,
      s.conns[t]? = some conn ∧ conn'.accepted = conn.accepted)
    (h' : s'.conns[t]? = none → s.conns[t]? = none) : s'.relayed t = s.relayed t := by
  unfold relayed
  rcases hc' : s'.conns[t]? with _ | conn'
  · rw [h' hc']
  · obtain ⟨conn, hc, hacc⟩ := h conn' hc'
    simp [hc, hacc]

theorem relayed_modify (t : ℕ) {c : ℕ} {f : Conn → Conn}
    (hf : ∀ conn, (f conn).accepted = conn.accepted) : (s.modify c f).relayed t = s.relayed t := by
  unfold relayed
  rw [modify_conns]
  rcases s.conns[t]? with _ | conn
  · rfl
  · by_cases hc : c = t <;> simp [hc, hf]

theorem relayed_enqueue (t c : ℕ) (frame : WsFrame) : (s.modify c (Conn.enqueue frame)).relayed t
    = s.relayed t ++ if c = t ∧ s.accepts c = true then frame.binary.toList else [] := by
  unfold relayed
  rw [modify_conns]
  by_cases hc : c = t
  · subst hc
    rcases hconn : s.conns[c]? with _ | conn
    · simp [accepts, hconn]
    · by_cases hacc : conn.accepts = true
      · rcases hb : frame.binary with _ | payload <;>
          simp [Conn.enqueue, accepts, hconn, hacc, hb]
      · simp [Conn.enqueue, accepts, hconn, hacc]
  · rcases s.conns[t]? with _ | conn <;> simp [hc]

theorem relayed_access (t : ℕ) (a : Access) : (s.access a).relayed t = s.relayed t
    ++ match a with
      | .enqueue c frame => if c = t ∧ s.accepts c = true then frame.binary.toList else []
      | _ => [] := by
  cases a with
  | enqueue c frame => exact relayed_enqueue t c frame
  | setPeer | close =>
    rw [List.append_nil]
    exact relayed_modify t fun _ => rfl
  | _ => exact (List.append_nil _).symm

/-- The queue of `t` takes exactly the binary frames that are routed to it. -/
theorem relayed_step (t : ℕ) (hstep : s.step l = some s') :
    s'.relayed t = s.relayed t ++ ((s.routed l).bind (Routed.arrival t)).toList := by
  cases l with
  | connect deviceID token now upgraded =>
    cases hstep
    have hnone : ((s.routed (.connect deviceID token now upgraded)).bind
        (Routed.arrival t)).toList = [] := rfl
    rw [hnone, List.append_nil]
    rcases s.handler_cases deviceID token now upgraded with heq | ⟨-, device, -, heq⟩ <;> rw [heq]
    unfold relayed
    dsimp only
    rw [List.getElem?_append]
    split_ifs with hlt
    · rfl
    · rw [List.getElem?_eq_none (Nat.le_of_not_lt hlt)]
      rcases hc : [({ deviceID, pairedWith := device.pairedWith.getD "", pc := .register device } :
        Conn)][t - s.conns.length]? with _ | conn
      · rfl
      · obtain rfl := List.mem_singleton.1 (List.mem_of_getElem? hc)
        rfl
  | receive c frame =>
    obtain ⟨conn, -, -, rfl⟩ := read_eq_some hstep
    have hnone : ((s.routed (.receive c frame)).bind (Routed.arrival t)).toList = [] := by
      cases frame <;> rfl
    rw [hnone, List.append_nil]
    exact relayed_modify t fun _ => rfl
  | disconnect c =>
    obtain ⟨conn, -, -, rfl⟩ := read_eq_some hstep
    show _ = _ ++ []
    rw [List.append_nil]
    exact relayed_modify t fun _ => rfl
  | handler c env =>
    obtain ⟨conn, x, hc, hx, rfl⟩ := runHandler_exec hstep
    have hpc : (s.advance c x.1 x.2).relayed t = (s.access x.1).relayed t :=
      relayed_modify t fun _ => rfl
    rw [hpc, relayed_access]
    congr 1
    cases exec_routing hx with
    | other h _ _ _ henq =>
      have hnone : s.routed (.handler c env) = none := by
        simp only [routed, hc, Option.bind_some]
        split
        · next hpc =>
          rw [hpc] at h
          cases h
        · rfl
      rw [hnone]
      split
      · next t' frame he => simp [henq t' frame he]
      · rfl
    | accepted t' payload h ha =>
      have hrouted : s.routed (.handler c env) = some (.accepted c t' payload) := by
        simp [routed, hc, h, ha]
      by_cases ht : t' = t
      · subst ht
        simp [hrouted, ha, Routed.arrival, WsFrame.binary]
      · simp [hrouted, ht, Routed.arrival]
    | refused t' payload h ha => simp [routed, hc, h, ha, Routed.arrival]
    | _ => simp [routed, *]
  | write c =>
    cases hstep
    show _ = _ ++ []
    rw [List.append_nil]
    exact relayed_modify t fun _ => rfl
  | takeRegister =>
    obtain ⟨c, rest, -, -, rfl⟩ := takeRegister_eq_some hstep
    exact (List.append_nil _).symm
  | takeUnregister =>
    obtain ⟨c, rest, -, -, rfl⟩ := takeUnregister_eq_some hstep
    exact (List.append_nil _).symm
  | hub =>
    show _ = _ ++ []
    rw [List.append_nil]
    cases runHub_move hstep with
    | register c client =>
      refine relayed_of_conns (fun conn' hc' => ?_) fun hnone => ?_
      · replace hc' := (s.evict_conns client.deviceID t).symm.trans hc'
        obtain ⟨conn, hc, rfl⟩ := Option.map_eq_some_iff.1 hc'
        exact ⟨conn, hc, by split_ifs <;> rfl⟩
      · exact Option.map_eq_none_iff.1 ((s.evict_conns client.deviceID t).symm.trans hnone)
    | notify c about online =>
      refine (relayed_enqueue t c (textFrame (.peerStatus about online))).trans ?_
      simp [textFrame_binary]
    | _ => rfl

end Queue

section Progress

variable {cA cB : ℕ} {B : String}

/-- The frame that the goroutine of `c` is routing. -/
def inflight (s : Server) (c : ℕ) : List Bytes := ((s.seen c).bind fun x => x.2.carries).toList

/-- `cB` is closed, or `cA` is about to close it. -/
def Shut (s : Server) (cA cB : ℕ) : Prop :=
  s.Closed cB ∨ ∃ d, s.seen cA = some (d, .route (.close cB))

/-- No `Route` of `cA` finds `cB` any more. -/
def Absent (s : Server) (cA cB : ℕ) : Prop :=
  (∀ id, s.clients id ≠ some cB) ∧ ∀ d payload, s.seen cA ≠ some (d, .route (.enqueue cB payload))

/-- The frame that a goroutine is routing goes to `cB`, if it is the connection of `B`. -/
def Toward (B : String) (cB : ℕ) : Pc → Prop
  | .route (.lookup id _) => id = B
  | .route (.enqueue t _) => t = cB
  | _ => True

/-- Where the frames of `cA` stand that `cB` took, among those that `cA` has done with: there is none
yet, or they are the last, or there will be no more. -/
inductive Progress (s : Server) (cA cB : ℕ) (B : String) (done taken : List Bytes) : Prop
  | before (h : taken = [])
  | during (h : taken <:+ done) (hp : s.Past cB)
      (hpc : ∀ d pc, s.seen cA = some (d, pc) → Toward B cB pc)
  | ended (h : taken <:+: done) (hp : s.Past cB) (ho : s.Shut cA cB ∨ s.Absent cA cB)

/-- A step that queues nothing of `cA` on `cB` keeps the progress, if it does so while `cB` takes the
frames of `cA`. -/
theorem Progress.silent {done done' taken : List Bytes} (h : s.Progress cA cB B done taken)
    (hdone : done <+: done') (hkept : s.Kept s')
    (hover : s.Past cB → s.Shut cA cB ∨ s.Absent cA cB → s'.Shut cA cB ∨ s'.Absent cA cB)
    (hduring : taken <:+ done → s.Past cB →
      (∀ d pc, s.seen cA = some (d, pc) → Toward B cB pc) → s'.Progress cA cB B done' taken) :
    s'.Progress cA cB B done' taken := by
  cases h with
  | before h => exact .before h
  | during h hp hpc => exact hduring h hp hpc
  | ended h hp ho => exact .ended (h.trans hdone.isInfix) (hkept.past cB hp) (hover hp ho)

/-- A step of another goroutine leaves a goroutine where it is, or it has just been made. -/
theorem seen_step_other (hl : l.actor ≠ some c) (hstep : s.step l = some s') :
    s'.seen c = s.seen c ∨ s.seen c = none ∧ ∃ d device, s'.seen c = some (d, .register device) := by
  have hmove : ∀ {c' conn} (a : Access) (pc : Pc), s.conns[c']? = some conn → c' ≠ c →
      (s.advance c' a pc).seen c = s.seen c := fun a pc hc hne => by
    rw [s.seen_advance a pc hc, Function.update_of_ne (Ne.symm hne)]
  cases step_moves hstep with
  | connect deviceID token now upgraded device =>
    rw [seen_connect]
    split_ifs with hc
    · exact Or.inr ⟨by simp [seen, hc], deviceID, device, rfl⟩
    · exact Or.inl rfl
  | receive c' frame conn hc => exact Or.inl (hmove _ _ hc fun he => hl (congrArg some he))
  | disconnect c' conn hc => exact Or.inl (hmove _ _ hc fun he => hl (congrArg some he))
  | handler c' env conn x hc => exact Or.inl (hmove _ _ hc fun he => hl (congrArg some he))
  | quiet _ _ _ hview => exact Or.inl (congrFun (seen_of_view hview) c)

theorem Progress.keep {done taken : List Bytes} (h : s.Progress cA cB B done taken)
    (hkept : s.Kept s') (hseen : ∀ d pc, s'.seen cA = some (d, pc) →
      s.seen cA = some (d, pc) ∨ (∃ device, pc = .register device))
    (hback : ∀ d pc, s.seen cA = some (d, pc) → s'.seen cA = some (d, pc)) :
    s'.Progress cA cB B done taken := by
  refine h.silent List.prefix_rfl hkept (fun hp ho => ?_) fun h hp hpc => ?_
  · rcases ho with (hcl | ⟨d, hs⟩) | ⟨hn, hs⟩
    · exact Or.inl (Or.inl (hkept.closed cB hcl))
    · exact Or.inl (Or.inr ⟨d, hback d _ hs⟩)
    · refine Or.inr ⟨hkept.absent cB hp hn, fun d payload hs' => ?_⟩
      rcases hseen d _ hs' with hs' | ⟨device, hd⟩
      · exact hs d payload hs'
      · cases hd
  · refine .during h (hkept.past cB hp) fun d pc hs => ?_
    rcases hseen d pc hs with hs | ⟨device, rfl⟩
    · exact hpc d pc hs
    · trivial

/-- Nothing of `cA` is queued on a connection that is closed or not to be found. -/
theorem not_accepted {payload : Bytes} (ho : s.Shut cA cB ∨ s.Absent cA cB) :
    s.routed l ≠ some (.accepted cA cB payload) := by
  intro hr
  cases l with
  | handler c env =>
    obtain ⟨conn, hc, hconn⟩ := Option.bind_eq_some_iff.1 hr
    split at hconn
    · next t p hpc =>
      split_ifs at hconn with hacc
      · obtain ⟨rfl, rfl, rfl⟩ := Routed.accepted.inj (Option.some.inj hconn)
        have hs := seen_of_conn hc
        rw [hpc] at hs
        rcases ho with (⟨target, ht, hclosed⟩ | ⟨d, hs'⟩) | ⟨-, hs'⟩
        · simp [accepts, ht, Conn.accepts, hclosed] at hacc
        · rw [hs] at hs'
          cases hs'
        · exact hs' _ _ hs
      · cases hconn
    · cases hconn
  | receive c frame => cases frame <;> cases hr
  | _ => cases hr

theorem seen_advance_self {a : Access} {pc q : Pc} {d : String} (hc : s.conns[c]? = some conn)
    (hs : (s.advance c a pc).seen c = some (d, q)) : q = pc := by
  rw [s.seen_advance a pc hc, Function.update_self] at hs
  exact (Prod.mk.inj (Option.some.inj hs)).2.symm

theorem Shut.exec {x : Access × Pc} (h : s.Shut cA cB) (hc : s.conns[cA]? = some conn)
    (hx : Routing s conn x) (hkept : s.Kept (s.advance cA x.1 x.2)) (hp : s.Past cB) :
    (s.advance cA x.1 x.2).Shut cA cB := by
  rcases h with hcl | ⟨d, hs⟩
  · exact Or.inl (hkept.closed cB hcl)
  · have hpc : conn.pc = .route (.close cB) :=
      (Prod.mk.inj (Option.some.inj ((seen_of_conn hc).symm.trans hs))).2
    cases hx with
    | other _ _ hclose => exact absurd hpc (hclose cB)
    | close t ht =>
      obtain rfl : t = cB := Route.close.inj (Pc.route.inj (ht.symm.trans hpc))
      obtain ⟨d', q, hq, -⟩ := hp
      obtain ⟨target, htarget, -⟩ := Option.map_eq_some_iff.1 hq
      refine Or.inl ⟨_, by rw [advance_conns, htarget]; rfl, ?_⟩
      split_ifs <;> simp [Access.on, Conn.setPc, Conn.close]
    | _ => simp_all

theorem Absent.exec {x : Access × Pc} (h : s.Absent cA cB) (hc : s.conns[cA]? = some conn)
    (hx : Routing s conn x) (hkept : s.Kept (s.advance cA x.1 x.2)) (hp : s.Past cB) :
    (s.advance cA x.1 x.2).Absent cA cB := by
  refine ⟨hkept.absent cB hp h.1, fun d payload hs => ?_⟩
  have hpc : x.2 = .route (.enqueue cB payload) := (seen_advance_self hc hs).symm
  cases hx with
  | other _ h' =>
    rw [hpc] at h'
    cases h'
  | found id p t _ ht =>
    obtain ⟨rfl, -⟩ := Route.enqueue.inj (Pc.route.inj hpc)
    exact h.1 id ht
  | _ => cases hpc

theorem toward_of_carries {pc : Pc} (h : pc.carries = none) : Toward B cB pc := by
  unfold Toward
  split
  · cases h
  · cases h
  · trivial

/-- What a step of the goroutine of `cA` does with the frames that it has done with. -/
theorem Progress.exec {done taken : List Bytes} (h : s.Progress cA cB B done taken) (ho : s.Once)
    (hk : s.Keyed) (hown : ∀ d, s.owner cB = some d → d = B) {x : Access × Pc} {env : Env}
    (hc : s.conns[cA]? = some conn) (hpeer : conn.pairedWith = B)
    (hx : Relay.exec s cA conn env = some x) :
    ∃ done', done' ++ x.2.carries.toList = done ++ conn.pc.carries.toList
      ∧ (s.advance cA x.1 x.2).Progress cA cB B done'
        (taken ++ ((s.routed (.handler cA env)).bind (Routed.acceptedFrom cA cB)).toList) := by
  have hrouting := exec_routing hx
  have hkept : s.Kept (s.advance cA x.1 x.2) := kept_advance hc (exec_move hx).registering
  have hover : s.Past cB → s.Shut cA cB ∨ s.Absent cA cB →
      (s.advance cA x.1 x.2).Shut cA cB ∨ (s.advance cA x.1 x.2).Absent cA cB := fun hp =>
    Or.imp (fun hsh => hsh.exec hc hrouting hkept hp) fun hab => hab.exec hc hrouting hkept hp
  have hB : ∀ id, s.clients id = some cB → id = B := by
    intro id hid
    obtain ⟨pc, hpc⟩ := hk.clients id cB hid
    exact hown id (by simp [Server.owner, hpc])
  have hduring : ∀ {done' taken'}, taken' <:+ done' → s.Past cB → Toward B cB x.2 →
      (s.advance cA x.1 x.2).Progress cA cB B done' taken' := by
    intro done' taken' h hp hto
    refine .during h (hkept.past cB hp) fun d pc hs => ?_
    rw [seen_advance_self hc hs]
    exact hto
  have habsent : (∀ id, s.clients id ≠ some cB) → (∀ payload, x.2 ≠ .route (.enqueue cB payload)) →
      (s.advance cA x.1 x.2).Absent cA cB := fun hn hpc =>
    ⟨by simpa using hn, fun d payload hs => hpc payload (seen_advance_self hc hs).symm⟩
  -- all but an accepted frame: only the case in which `cB` takes the frames of `cA` is left
  have hsilent : ∀ {done'}, done <+: done' →
      (s.routed (.handler cA env)).bind (Routed.acceptedFrom cA cB) = none →
      (taken <:+ done → s.Past cB → Toward B cB conn.pc →
        (s.advance cA x.1 x.2).Progress cA cB B done' taken) →
      (s.advance cA x.1 x.2).Progress cA cB B done'
        (taken ++ ((s.routed (.handler cA env)).bind (Routed.acceptedFrom cA cB)).toList) := by
    intro done' hdone hnone hstep
    rw [hnone, Option.toList_none, List.append_nil]
    exact h.silent hdone hkept hover fun h hp hto => hstep h hp (hto _ _ (seen_of_conn hc))
  cases hrouting with
  | other h1 h2 =>
    refine ⟨done, by rw [h1, h2], hsilent List.prefix_rfl ?_ fun h hp _ =>
      hduring h hp (toward_of_carries h2)⟩
    simp only [routed, hc, Option.bind_some]
    split
    · next hpc =>
      rw [hpc] at h1
      cases h1
    · rfl
  | close t hpc =>
    exact ⟨done, by simp [hpc, Pc.carries], hsilent List.prefix_rfl (by simp [routed, hc, hpc])
      fun h hp _ => hduring h hp trivial⟩
  | unlinked payload hpc hp =>
    refine ⟨done ++ [payload], by simp [hpc, Pc.carries], hsilent (List.prefix_append _ _)
      (by simp [routed, hc, hpc]) fun _ hpast _ => ?_⟩
    obtain ⟨d, q, hs, -⟩ := hpast
    have hd := hown d (by simp [Server.owner, hs])
    exact absurd (hd.trans (hpeer.symm.trans hp)) (hk.named cB d q hs)
  | peer payload hpc hp =>
    exact ⟨done, by simp [hpc, Pc.carries], hsilent List.prefix_rfl (by simp [routed, hc, hpc])
      fun h hpast _ => hduring h hpast hpeer⟩
  | offline id payload hpc hnone =>
    refine ⟨done ++ [payload], by simp [hpc, Pc.carries], hsilent (List.prefix_append _ _)
      (by simp [routed, hc, hpc]) fun h hpast hto => ?_⟩
    have hid : id = B := by simpa [hpc, Toward] using hto
    refine .ended (h.isInfix.trans (List.prefix_append _ _).isInfix) (hkept.past cB hpast)
      (Or.inr (habsent (fun id' hid' => ?_) (by simp)))
    rw [hB id' hid', ← hid, hnone] at hid'
    cases hid'
  | found id payload t hpc ht =>
    refine ⟨done, by simp [hpc, Pc.carries], hsilent List.prefix_rfl (by simp [routed, hc, hpc])
      fun h hpast hto => ?_⟩
    have hid : id = B := by simpa [hpc, Toward] using hto
    by_cases htB : t = cB
    · exact hduring h hpast htB
    · refine .ended h.isInfix (hkept.past cB hpast) (Or.inr (habsent (fun id' hid' => ?_) ?_))
      · rw [hB id' hid', ← hid, ht] at hid'
        exact htB (Option.some.inj hid')
      · intro p he
        exact htB (Route.enqueue.inj (Pc.route.inj he)).1
  | accepted t payload hpc hacc =>
    refine ⟨done ++ [payload], by simp [hpc, Pc.carries], ?_⟩
    have hrouted : s.routed (.handler cA env) = some (.accepted cA t payload) := by
      simp [routed, hc, hpc, hacc]
    by_cases htB : t = cB
    · subst htB
      have hevent : ((s.routed (.handler cA env)).bind (Routed.acceptedFrom cA t)).toList
          = [payload] := by simp [hrouted, Routed.acceptedFrom]
      rw [hevent]
      have hpast : s.Past t := ho.routing cA _ t payload (by rw [seen_of_conn hc, hpc])
      cases h with
      | before h =>
        rw [h, List.nil_append]
        exact hduring (List.suffix_append done [payload]) hpast trivial
      | during h _ _ =>
        obtain ⟨pre, rfl⟩ := h
        exact hduring ⟨pre, by simp⟩ hpast trivial
      | ended h _ hov => exact absurd hrouted (not_accepted hov)
    · refine hsilent (List.prefix_append _ _) (by simp [hrouted, Routed.acceptedFrom, htB])
        fun _ _ hto => ?_
      exact absurd (by simpa [hpc, Toward] using hto) htB
  | refused t payload hpc hacc =>
    refine ⟨done ++ [payload], by simp [hpc, Pc.carries], hsilent (List.prefix_append _ _)
      (by simp [routed, hc, hpc, hacc, Routed.acceptedFrom]) fun hlast hpast hto => ?_⟩
    obtain rfl : t = cB := by simpa [hpc, Toward] using hto
    refine .ended (hlast.isInfix.trans (List.prefix_append _ _).isInfix) (hkept.past t hpast)
      (Or.inl (Or.inr ⟨conn.deviceID, ?_⟩))
    rw [s.seen_advance _ _ hc, Function.update_self]

/-- The goroutine of `cA` is back at `ReadMessage`, and what it reads next is not on its way yet. -/
theorem Progress.read {done taken : List Bytes} (h : s.Progress cA cB B done taken)
    {pc : Pc} (hc : s.conns[cA]? = some conn) (hcpc : conn.pc = .reading)
    (hkept : s.Kept (s.advance cA .none pc)) (hto : Toward B cB pc)
    (hpc : ∀ payload, pc ≠ .route (.enqueue cB payload)) :
    (s.advance cA .none pc).Progress cA cB B done taken := by
  refine h.silent List.prefix_rfl hkept (fun hp ho => ?_) fun h hp _ =>
    .during h (hkept.past cB hp) fun d q hs => seen_advance_self hc hs ▸ hto
  rcases ho with (hcl | ⟨d, hs⟩) | ⟨hn, -⟩
  · exact Or.inl (Or.inl (hkept.closed cB hcl))
  · rw [seen_of_conn hc, hcpc] at hs
    cases hs
  · exact Or.inr ⟨hkept.absent cB hp hn, fun d payload hs =>
      hpc payload (seen_advance_self hc hs).symm⟩

/-- What the frames of `cA` have come to, in terms of what has been seen. -/
def Relays (s : Server) (cA cB : ℕ) (B : String) (first : List Bytes) (seen : List Routed) : Prop :=
  ∃ done, done ++ s.inflight cA = first ++ seen.filterMap (Routed.readBy cA)
    ∧ s.Progress cA cB B done (seen.filterMap (Routed.acceptedFrom cA cB))

theorem routed_actor {e : Routed} (h : s.routed l = some e) (hl : l.actor ≠ some cA) :
    e.readBy cA = none ∧ e.acceptedFrom cA cB = none := by
  cases l with
  | receive c frame =>
    cases frame with
    | binary payload =>
      cases h
      have hne : c ≠ cA := fun he => hl (congrArg some he)
      exact ⟨by simp [Routed.readBy, hne], rfl⟩
    | _ => cases h
  | handler c env =>
    have hne : c ≠ cA := fun he => hl (congrArg some he)
    obtain ⟨conn, -, hconn⟩ := Option.bind_eq_some_iff.1 h
    split at hconn
    · split_ifs at hconn <;> cases hconn
      · exact ⟨rfl, by simp [Routed.acceptedFrom, hne]⟩
      · exact ⟨rfl, rfl⟩
    · cases hconn
  | _ => cases h

theorem filterMap_toList {α β : Type*} (o : Option α) (f : α → Option β) :
    o.toList.filterMap f = (o.bind f).toList := by
  rcases o with _ | a
  · rfl
  · rcases h : f a with _ | b <;> simp [h]

theorem inflight_of_seen {d : String} {pc : Pc} (h : s.seen c = some (d, pc)) :
    s.inflight c = pc.carries.toList := by simp [inflight, h]

theorem Relays.step {first : List Bytes} {seen : List Routed} (h : s.Relays cA cB B first seen)
    (ho : s.Once) (hk : s.Keyed) (hown : ∀ d, s.owner cB = some d → d = B)
    (hpeer : ∀ conn ∈ s.conns[cA]?, conn.pairedWith = B) (hstep : s.step l = some s') :
    s'.Relays cA cB B first (seen ++ (s.routed l).toList) := by
  obtain ⟨done, hdone, hp⟩ := h
  have hkept := (ho.step hstep).2
  by_cases hl : l.actor = some cA
  · cases l with
    | receive c frame =>
      obtain rfl : c = cA := Option.some.inj hl
      obtain ⟨conn, hc, hcpc, rfl⟩ := read_eq_some hstep
      have hold : s.inflight c = [] := by rw [inflight_of_seen (seen_of_conn hc), hcpc]; rfl
      have hnew : (s.advance c .none (dispatch c frame)).inflight c
          = (dispatch c frame).carries.toList :=
        inflight_of_seen (by rw [s.seen_advance _ _ hc, Function.update_self])
      rw [hold, List.append_nil] at hdone
      by_cases hb : ∃ payload, frame = .binary payload
      · obtain ⟨payload, rfl⟩ := hb
        refine ⟨done, ?_, ?_⟩
        · rw [hnew, hdone]
          simp [routed, Routed.readBy, dispatch, Pc.carries]
        · have hevent : (seen ++ (s.routed (.receive c (.binary payload))).toList).filterMap
              (Routed.acceptedFrom c cB) = seen.filterMap (Routed.acceptedFrom c cB) := by
            simp [routed, Routed.acceptedFrom]
          rw [hevent]
          exact hp.read hc hcpc hkept trivial fun _ he => by cases he
      · have hroute : ∀ next, dispatch c frame ≠ .route next := by
          intro next he
          obtain ⟨payload, he', -⟩ := dispatch_route he
          exact hb ⟨payload, he'⟩
        have hrouted : s.routed (.receive c frame) = none := by
          cases frame with
          | binary payload => exact absurd ⟨payload, rfl⟩ hb
          | _ => rfl
        rw [hrouted, Option.toList_none, List.append_nil]
        refine ⟨done, ?_, hp.read hc hcpc hkept (toward_of_carries (Pc.carries_of_not_route hroute).1)
          fun _ => hroute _⟩
        rw [hnew, (Pc.carries_of_not_route hroute).1]
        simpa using hdone
    | disconnect c =>
      obtain rfl : c = cA := Option.some.inj hl
      obtain ⟨conn, hc, hcpc, rfl⟩ := read_eq_some hstep
      have hold : s.inflight c = [] := by rw [inflight_of_seen (seen_of_conn hc), hcpc]; rfl
      have hnew : (s.advance c .none .unregister).inflight c = [] :=
        inflight_of_seen (by rw [s.seen_advance .none .unregister hc, Function.update_self])
      refine ⟨done, by rw [hnew]; simpa [routed, hold] using hdone, ?_⟩
      simp only [routed, Option.toList_none, List.append_nil]
      exact hp.read hc hcpc hkept trivial (by simp)
    | handler c env =>
      obtain rfl : c = cA := Option.some.inj hl
      obtain ⟨conn, x, hc, hx, rfl⟩ := runHandler_exec hstep
      obtain ⟨done', hdone', hp'⟩ := hp.exec ho hk hown hc (hpeer conn hc) hx
      have hnew : (s.advance c x.1 x.2).inflight c = x.2.carries.toList :=
        inflight_of_seen (by rw [s.seen_advance _ _ hc, Function.update_self])
      have hread : ((s.routed (.handler c env)).toList).filterMap (Routed.readBy c) = [] := by
        rcases hr : s.routed (.handler c env) with _ | e
        · rfl
        · obtain ⟨conn', -, hconn⟩ := Option.bind_eq_some_iff.1 hr
          split at hconn
          · split_ifs at hconn <;> cases hconn <;> rfl
          · cases hconn
      refine ⟨done', ?_, ?_⟩
      · rw [hnew, hdone', ← inflight_of_seen (seen_of_conn hc), hdone, List.filterMap_append, hread,
          List.append_nil]
      · rw [List.filterMap_append, filterMap_toList]
        exact hp'
    | _ => cases hl
  · have hevents : (seen ++ (s.routed l).toList).filterMap (Routed.readBy cA)
          = seen.filterMap (Routed.readBy cA)
        ∧ (seen ++ (s.routed l).toList).filterMap (Routed.acceptedFrom cA cB)
          = seen.filterMap (Routed.acceptedFrom cA cB) := by
      rcases hr : s.routed l with _ | e
      · simp
      · obtain ⟨h1, h2⟩ : e.readBy cA = none ∧ e.acceptedFrom cA cB = none := routed_actor hr hl
        simp [h1, h2]
    rw [Relays, hevents.1, hevents.2]
    rcases seen_step_other hl hstep with hsame | ⟨hnone, d, device, hnew⟩
    · refine ⟨done, by rw [inflight, hsame]; exact hdone, hp.keep hkept ?_ ?_⟩
      · exact fun d pc hs => Or.inl (hsame ▸ hs)
      · exact fun d pc hs => hsame ▸ hs
    · refine ⟨done, ?_, hp.keep hkept (fun d' pc hs => Or.inr ?_) fun d' pc hs => ?_⟩
      · rw [inflight_of_seen hnew]
        simpa [Pc.carries, inflight, hnone] using hdone
      · rw [hnew] at hs
        exact ⟨device, (Prod.mk.inj (Option.some.inj hs)).2.symm⟩
      · rw [hnone] at hs
        cases hs

/-- After a refusal `cB` is shut for `cA`. -/
def Refuses (s : Server) (cA cB : ℕ) (seen : List Routed) : Prop :=
  (seen.Pairwise fun x y => ∀ p q, x = .refused cA cB p → y ≠ .accepted cA cB q)
    ∧ ∀ p, .refused cA cB p ∈ seen → s.Past cB ∧ s.Shut cA cB

theorem Shut.step (h : s.Shut cA cB) (ho : s.Once) (hp : s.Past cB) (hstep : s.step l = some s') :
    s'.Shut cA cB := by
  have hkept := (ho.step hstep).2
  by_cases hl : l.actor = some cA
  · have hread : ∀ pc, s.read cA pc = some s' → s'.Shut cA cB := by
      intro pc hr
      obtain ⟨conn, hc, hcpc, rfl⟩ := read_eq_some hr
      rcases h with hcl | ⟨d, hs⟩
      · exact Or.inl (hkept.closed cB hcl)
      · rw [seen_of_conn hc, hcpc] at hs
        cases hs
    cases l with
    | receive c frame =>
      obtain rfl : c = cA := Option.some.inj hl
      exact hread _ hstep
    | disconnect c =>
      obtain rfl : c = cA := Option.some.inj hl
      exact hread _ hstep
    | handler c env =>
      obtain rfl : c = cA := Option.some.inj hl
      obtain ⟨conn, x, hc, hx, rfl⟩ := runHandler_exec hstep
      exact h.exec hc (exec_routing hx) hkept hp
    | _ => cases hl
  · rcases h with hcl | ⟨d, hs⟩
    · exact Or.inl (hkept.closed cB hcl)
    · rcases seen_step_other hl hstep with hsame | ⟨hnone, -⟩
      · exact Or.inr ⟨d, hsame ▸ hs⟩
      · rw [hnone] at hs
        cases hs

theorem refused_step (ho : s.Once) {payload : Bytes}
    (hr : s.routed l = some (.refused cA cB payload)) (hstep : s.step l = some s') :
    s'.Past cB ∧ s'.Shut cA cB := by
  have hkept := (ho.step hstep).2
  cases l with
  | receive c frame => cases frame <;> cases hr
  | handler c env =>
    obtain ⟨conn, x, hc, hx, rfl⟩ := runHandler_exec hstep
    obtain ⟨conn', hc', hconn⟩ := Option.bind_eq_some_iff.1 hr
    obtain rfl : conn = conn' := Option.some.inj (hc.symm.trans hc')
    split at hconn
    · next t p hpc =>
      split_ifs at hconn with hacc
      · cases hconn
      · obtain ⟨rfl, rfl, rfl⟩ := Routed.refused.inj (Option.some.inj hconn)
        have hpast : s.Past t := ho.routing c _ t p (by rw [seen_of_conn hc, hpc])
        refine ⟨hkept.past t hpast, Or.inr ⟨conn.deviceID, ?_⟩⟩
        have hx' : x = (.enqueue t { data := .binary p }, .route (.close t)) := by
          rw [Relay.exec, hpc] at hx
          simpa [route, hacc] using hx.symm
        rw [s.seen_advance x.1 x.2 hc, Function.update_self, hx']
    · cases hconn
  | _ => cases hr

theorem Refuses.step {seen : List Routed} (h : s.Refuses cA cB seen) (ho : s.Once)
    (hstep : s.step l = some s') : s'.Refuses cA cB (seen ++ (s.routed l).toList) := by
  have hkept := (ho.step hstep).2
  have hold : ∀ p, .refused cA cB p ∈ seen → s'.Past cB ∧ s'.Shut cA cB := fun p hm =>
    ⟨hkept.past cB (h.2 p hm).1, (h.2 p hm).2.step ho (h.2 p hm).1 hstep⟩
  rcases hr : s.routed l with _ | e
  · simpa [Refuses] using ⟨h.1, hold⟩
  · refine ⟨List.pairwise_append.2 ⟨h.1, List.pairwise_singleton .., ?_⟩, fun p hm => ?_⟩
    · rintro x hx y hy p q rfl
      obtain rfl : y = e := by simpa using hy
      rintro rfl
      exact not_accepted (Or.inl (h.2 p hx).2) hr
    · rcases List.mem_append.1 hm with hm | hm
      · exact hold p hm
      · obtain rfl : Routed.refused cA cB p = e := by simpa using hm
        exact refused_step ho hr hstep

theorem start_once (devices : Devices) (pairCodes : PairCodes) : (start devices pairCodes).Once :=
  ⟨List.nodup_nil, nofun, nofun, nofun, fun c d t payload hs => by simp [start, seen] at hs⟩

/-- Along any part of any run: a queue takes the binary frames that are routed to it, as they were
read; after a refusal it takes none from the same connection; and while `cA` is linked with the device
of `cB`, the frames that `cB` takes from it are a block of those that `cA` reads. -/
theorem accepted_infix_read {s₀ : Server} (devices : Devices) (pairCodes : PairCodes)
    (pre labels : List Label) (hpre : Lts.run step (start devices pairCodes) pre = some s₀)
    (hrun : Lts.run step s₀ labels = some s) (cA cB : ℕ) :
    (s.relayed cB = s₀.relayed cB
        ++ (Lts.observed step routed s₀ labels).filterMap (Routed.arrival cB))
      ∧ ((Lts.observed step routed s₀ labels).Pairwise fun x y =>
        ∀ p q, x = .refused cA cB p → y ≠ .accepted cA cB q)
      ∧ ∀ B, (∀ conn ∈ s.conns[cB]?, conn.deviceID = B) →
        Lts.Meets step (fun s _ => ∀ conn ∈ s.conns[cA]?, conn.pairedWith = B) s₀ labels →
        (Lts.observed step routed s₀ labels).filterMap (Routed.acceptedFrom cA cB)
          <:+: s₀.inflight cA ++ (Lts.observed step routed s₀ labels).filterMap (Routed.readBy cA) := by
  obtain ⟨hk₀, ho₀⟩ : s₀.Keyed ∧ s₀.Once :=
    Lts.run_inv_of_step (I := fun s => s.Keyed ∧ s.Once)
      (fun _ _ _ hi hs => ⟨hi.1.step hs, (hi.2.step hs).1⟩) pre
      ⟨start_keyed devices pairCodes, start_once devices pairCodes⟩ hpre
  refine ⟨?_, ?_, fun B hB hpeer => ?_⟩
  · have := Lts.run_inv_observed routed
      (I := fun s h => s.relayed cB = s₀.relayed cB ++ h.filterMap (Routed.arrival cB))
      (fun s l s' h hs _ hstep => ?_) labels (h := []) (by simp) (Lts.meets_true labels s₀) hrun
    · simpa using this
    · rw [relayed_step cB hstep, hs, List.filterMap_append, filterMap_toList, List.append_assoc]
  · have := Lts.run_inv_observed routed (I := fun s h => s.Once ∧ s.Refuses cA cB h)
      (fun s l s' h hs _ hstep => ⟨(hs.1.step hstep).1, hs.2.step hs.1 hstep⟩) labels (h := [])
      ⟨ho₀, List.Pairwise.nil, nofun⟩ (Lts.meets_true labels s₀) hrun
    simpa using this.2.1
  · have hown : ∀ d, s.owner cB = some d → d = B := by
      intro d hd
      obtain ⟨⟨d', pc⟩, hs, rfl⟩ := Option.map_eq_some_iff.1 hd
      obtain ⟨conn, hc, hx⟩ := Option.map_eq_some_iff.1 hs
      exact (Prod.mk.inj hx).1 ▸ hB conn hc
    have hmeets := fun ho : s₀.Once => Lts.meets_of_final
      (P := fun s => s.Once → ∀ d, s.owner cB = some d → d = B)
      (fun s l s' hstep hs' ho d hd => hs' (ho.step hstep).1 d ((ho.step hstep).2.owner cB d hd))
      labels hrun fun _ => hown
    have := Lts.run_inv_observed routed
      (I := fun s h => s.Keyed ∧ s.Once ∧ s.Relays cA cB B (s₀.inflight cA) h)
      (fun s l s' h hs hl hstep => ⟨hs.1.step hstep, (hs.2.1.step hstep).1,
        hs.2.2.step hs.2.1 hs.1 (hl.2 hs.2.1) hl.1 hstep⟩) labels (h := [])
      ⟨hk₀, ho₀, [], by simp, .before rfl⟩ (hpeer.and (hmeets ho₀).2) hrun
    obtain ⟨-, -, done, hdone, hp⟩ := this
    rw [List.nil_append] at hdone hp
    rw [← hdone]
    refine List.IsInfix.trans ?_ (List.prefix_append done _).isInfix
    cases hp with
    | before h => rw [h]; exact List.nil_infix
    | during h => exact h.isInfix
    | ended h => exact h

end Progress

/-- Both of two linked devices are connected and registered. -/
def bothConnected : List Label :=
  Label.connect "a" "t" 0 true :: List.replicate 5 (plainStep 0)
    ++ [Label.takeRegister, .hub, .hub, .hub]
    ++ Label.connect "b" "t" 0 true :: List.replicate 5 (plainStep 1)
    ++ [Label.takeRegister, .hub, .hub, .hub, .hub]

/-- `a` sends two binary frames. -/
def sending : List Label :=
  Label.receive 0 (.binary [1]) :: List.replicate 3 (plainStep 0)
    ++ Label.receive 0 (.binary [2]) :: List.replicate 3 (plainStep 0)

theorem accepted_infix_read_two :
    ∃ s₀ s, Lts.run step (start linkedAB fun _ => none) bothConnected = some s₀
      ∧ Lts.run step s₀ sending = some s
      ∧ Lts.observed step routed s₀ sending
        = [.read 0 [1], .accepted 0 1 [1], .read 0 [2], .accepted 0 1 [2]]
      ∧ s.relayed 1 = s₀.relayed 1
        ++ (Lts.observed step routed s₀ sending).filterMap (Routed.arrival 1)
      ∧ (Lts.observed step routed s₀ sending).filterMap (Routed.acceptedFrom 0 1)
        <:+: s₀.inflight 0 ++ (Lts.observed step routed s₀ sending).filterMap (Routed.readBy 0) := by
  have h : (Lts.run step (start linkedAB fun _ => none) bothConnected).any fun s₀ =>
      decide (Lts.observed step routed s₀ sending
          = [.read 0 [1], .accepted 0 1 [1], .read 0 [2], .accepted 0 1 [2]])
        && decide (Lts.Meets step (fun s _ => ∀ conn ∈ s.conns[0]?, conn.pairedWith = "b") s₀ sending)
        && (Lts.run step s₀ sending).any fun s =>
          decide (∀ conn ∈ s.conns[1]?, conn.deviceID = "b") := by
    decide +kernel
  simp only [Bool.and_eq_true, decide_eq_true_eq, Option.any_eq_true] at h
  obtain ⟨s₀, hpre, ⟨hobs, hpeer⟩, s, hrun, hB⟩ := h
  obtain ⟨hqueue, -, hblock⟩ := accepted_infix_read linkedAB _ bothConnected sending hpre hrun 0 1
  exact ⟨s₀, s, hpre, hrun, hobs, hqueue, hblock "b" hB hpeer⟩

end Server

end Relayly.Relay
