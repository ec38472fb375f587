import Relayly.Proofs.RelayPresence

/-!
# The first frame of a connection

Another goroutine reaches a connection only through the map of the hub. If a connection is registered
after its `welcome` has been queued, whatever the others queue on it comes later.
-/

namespace Relayly.Relay

/-- The `welcome` has been queued, or refused. -/
def Pc.greeted : Pc → Bool
  | .register _ | .sendWelcome (.staticKey _) | .sendWelcome (.welcome ..) => false
  | _ => true

/-- The connection that a goroutine has found and is about to queue a frame on. -/
def Pc.dest : Pc → Option ℕ
  | .pairAccept (.setRequester _ _ _ t) | .unpair (.clearPeer _ t) | .route (.enqueue t _)
  | .sendJSON t _ => some t
  | _ => none

/-- The `welcome` of a device. -/
def IsWelcome (deviceID : String) (frame : WsFrame) : Prop :=
  ∃ peers, frame = textFrame (.welcome protocolVersion deviceID peers)

/-- Nothing is queued before the `welcome`, and nothing after it was refused. -/
structure Conn.Mannered (conn : Conn) : Prop where
  before : conn.pc.greeted = false → conn.accepted = [] ∧ conn.send = []
  after : conn.pc.greeted = true → conn.accepted = [] ∧ conn.closed = true
    ∨ ∃ frame rest, conn.accepted = frame :: rest ∧ IsWelcome conn.deviceID frame

section

variable {s : Server} {c t : ℕ} {conn : Conn} {env : Env} {x : Access × Pc}

theorem Pc.greeted_of_dest {pc : Pc} (h : pc.dest = some t) : pc.greeted = true := by
  unfold Pc.dest at h
  split at h <;> first | rfl | cases h

theorem dispatch_greeted (c : ℕ) (frame : Inbound) : (dispatch c frame).greeted = true := by
  cases frame <;> simp only [dispatch] <;> (try split_ifs) <;> rfl

theorem dispatch_dest {frame : Inbound} (h : (dispatch c frame).dest = some t) : t = c := by
  cases frame <;> simp only [dispatch] at h <;> (try split_ifs at h) <;> cases h <;> rfl

/-- The ways in which a step has to do with the `welcome`: it comes later, or before, or queues it. -/
inductive Greeting (s : Server) (c : ℕ) (conn : Conn) : Access × Pc → Prop
  | later {x : Access × Pc} (h : conn.pc.greeted = true) (h' : x.2.greeted = true)
      (henq : ∀ t frame, x.1 = .enqueue t frame → t = c ∨ conn.pc.dest = some t)
      (hdest : ∀ t, x.2.dest = some t →
        t = c ∨ conn.pc.dest = some t ∨ ∃ id, s.clients id = some t) : Greeting s c conn x
  | earlier {x : Access × Pc} (h : conn.pc.greeted = false) (h' : x.2.greeted = false)
      (henq : ∀ t frame, x.1 ≠ .enqueue t frame) : Greeting s c conn x
  | welcome {pc : Pc} (frame : WsFrame) (h : conn.pc.greeted = false) (h' : pc.greeted = true)
      (hdest : pc.dest = none) (hf : IsWelcome conn.deviceID frame) :
      Greeting s c conn (.enqueue c frame, pc)

section

variable {a : Access} {pc : Pc} {frame : WsFrame}

theorem Greeting.own (h : conn.pc.greeted = true) (h' : pc.greeted = true) (hdest : pc.dest = none) :
    Greeting s c conn (.enqueue c frame, pc) := by
  refine .later h h' (fun t frame' he => Or.inl (Access.enqueue.inj he).1.symm) fun t ht => ?_
  rw [hdest] at ht
  cases ht

theorem Greeting.silent (h : conn.pc.greeted = true) (h' : pc.greeted = true)
    (henq : a.enqueued = none) (hdest : pc.dest = none) : Greeting s c conn (a, pc) := by
  refine .later h h' (fun t frame he => absurd he (Access.ne_enqueue henq t frame)) fun t ht => ?_
  rw [hdest] at ht
  cases ht

/-- A step after which one that has had its `welcome` is sent a frame. -/
theorem Greeting.sends (h : conn.pc.greeted = true) (h' : pc.greeted = true)
    (henq : a.enqueued = none) (hdest : pc.dest = some t)
    (ht : t = c ∨ conn.pc.dest = some t ∨ ∃ id, s.clients id = some t) :
    Greeting s c conn (a, pc) := by
  refine .later h h' (fun t frame he => absurd he (Access.ne_enqueue henq t frame)) fun t' ht' => ?_
  rw [hdest] at ht'
  exact Option.some.inj ht' ▸ ht

theorem Greeting.replies (h : conn.pc.greeted = true) (h' : pc.greeted = true)
    (henq : a.enqueued = none) (hdest : pc.dest = some c) : Greeting s c conn (a, pc) :=
  .sends h h' henq hdest (Or.inl rfl)

end

theorem sendWelcome_greeting (next : Welcome) (h : conn.pc = .sendWelcome next) :
    Greeting s c conn (sendWelcome s c conn env next) := by
  cases next with
  | staticKey peer => exact .earlier (by rw [h]; rfl) rfl (Access.ne_enqueue rfl)
  | welcome peers peer =>
    refine .welcome _ (by rw [h]; rfl) ?_ ?_ ⟨peers, rfl⟩ <;> cases peer <;> rfl
  | lookup peer => exact .silent (by rw [h]; rfl) rfl rfl rfl
  | status peer online => exact .own (by rw [h]; rfl) rfl rfl

theorem handleAnnounceKey_greeting (key : String) (h : conn.pc = .announceKey key) :
    Greeting s c conn (handleAnnounceKey s c conn env key) := by
  have hg : conn.pc.greeted = true := by rw [h]; rfl
  unfold handleAnnounceKey
  split
  · exact .silent hg rfl rfl rfl
  · exact .silent hg rfl rfl rfl
  · exact .replies hg rfl rfl rfl

theorem handlePairRequest_greeting (h : conn.pc = .pairRequest) :
    Greeting s c conn (handlePairRequest s c conn env) := by
  have hg : conn.pc.greeted = true := by rw [h]; rfl
  unfold handlePairRequest
  split <;> exact .replies hg rfl rfl rfl

theorem handlePairAccept_greeting (next : PairAccept) (h : conn.pc = .pairAccept next) :
    Greeting s c conn (handlePairAccept s c conn env next) := by
  have hg : conn.pc.greeted = true := by rw [h]; rfl
  cases next with
  | take code =>
    simp only [handlePairAccept]
    split
    · exact .replies hg rfl rfl rfl
    · exact .replies hg rfl rfl rfl
    · split_ifs
      · exact .replies hg rfl rfl rfl
      · exact .silent hg rfl rfl rfl
  | pairDevices code r =>
    simp only [handlePairAccept]
    split
    · exact .silent hg rfl rfl rfl
    all_goals exact .replies hg rfl rfl rfl
  | myKey | requesterKey | setPeer => exact .silent hg rfl rfl rfl
  | complete code r key key' => exact .own hg rfl rfl
  | lookup code r key =>
    simp only [handlePairAccept]
    split
    · next t ht => exact .sends hg rfl rfl rfl (Or.inr (Or.inr ⟨r, ht⟩))
    · exact .silent hg rfl rfl rfl
  | setRequester code r key t =>
    exact .sends hg rfl rfl rfl (Or.inr (Or.inl (by rw [h]; rfl)))

theorem handleUnpair_greeting (next : Unpair) (h : conn.pc = .unpair next) :
    Greeting s c conn (handleUnpair s c conn env next) := by
  have hg : conn.pc.greeted = true := by rw [h]; rfl
  cases next with
  | peer | setPeer => exact .silent hg rfl rfl rfl
  | unpairDevice p =>
    simp only [handleUnpair]
    split_ifs
    · exact .replies hg rfl rfl rfl
    · exact .silent hg rfl rfl rfl
  | unpaired p => refine .own hg ?_ ?_ <;> split_ifs <;> rfl
  | lookup p =>
    simp only [handleUnpair]
    split
    · next t ht => exact .sends hg rfl rfl rfl (Or.inr (Or.inr ⟨p, ht⟩))
    · exact .silent hg rfl rfl rfl
  | clearPeer p t =>
    exact .sends hg rfl rfl rfl (Or.inr (Or.inl (by rw [h]; rfl)))

theorem route_greeting (next : Route) (h : conn.pc = .route next) (hx : route s conn next = some x) :
    Greeting s c conn x := by
  have hg : conn.pc.greeted = true := by rw [h]; rfl
  cases next with
  | peer payload =>
    cases hx
    split_ifs <;> exact .silent hg rfl rfl rfl
  | lookup peerID payload =>
    cases hx
    split
    · next t ht => exact .sends hg rfl rfl rfl (Or.inr (Or.inr ⟨peerID, ht⟩))
    · exact .silent hg rfl rfl rfl
  | enqueue peer payload =>
    cases hx
    refine .later hg ?_ (fun t frame he => Or.inr ?_) fun t ht => ?_
    · dsimp only
      split_ifs <;> rfl
    · rw [h, ← (Access.enqueue.inj he).1]
      rfl
    · dsimp only at ht
      split_ifs at ht <;> cases ht
  | close peer =>
    cases hx
    exact .silent hg rfl rfl rfl
  | unregister peer =>
    simp only [route] at hx
    split_ifs at hx
    cases hx
    exact .silent hg rfl rfl rfl

theorem exec_greeting (hx : exec s c conn env = some x) : Greeting s c conn x := by
  unfold exec at hx
  split at hx
  · next device h =>
    split_ifs at hx
    obtain rfl := Option.some.inj hx
    refine .earlier (by rw [h]; rfl) ?_ (Access.ne_enqueue rfl)
    dsimp only [startWelcome]
    split <;> rfl
  · next next h =>
    obtain rfl := Option.some.inj hx
    exact sendWelcome_greeting next h
  · cases hx
  · next key h =>
    obtain rfl := Option.some.inj hx
    exact handleAnnounceKey_greeting key h
  · next h =>
    obtain rfl := Option.some.inj hx
    exact handlePairRequest_greeting h
  · next next h =>
    obtain rfl := Option.some.inj hx
    exact handlePairAccept_greeting next h
  · next next h =>
    obtain rfl := Option.some.inj hx
    exact handleUnpair_greeting next h
  · next next h => exact route_greeting next h hx
  · next h =>
    obtain rfl := Option.some.inj hx
    refine .later (by rw [h]; rfl) rfl (fun t frame he => Or.inr ?_) fun t ht => by cases ht
    rw [h, ← (Access.enqueue.inj he).1]
    rfl
  · next h =>
    obtain rfl := Option.some.inj hx
    refine .own (by rw [h]; rfl) ?_ ?_ <;> split_ifs <;> rfl
  · next h =>
    obtain rfl := Option.some.inj hx
    exact .silent (by rw [h]; rfl) rfl rfl rfl
  · next h =>
    split_ifs at hx
    obtain rfl := Option.some.inj hx
    exact .silent (by rw [h]; rfl) rfl rfl rfl
  · next h =>
    obtain rfl := Option.some.inj hx
    exact .silent (by rw [h]; rfl) rfl rfl rfl
  · cases hx

end

section Mannered

variable {conn : Conn} {frame : WsFrame} {pc : Pc}

theorem Conn.Mannered.enqueue (h : conn.Mannered) (hg : conn.pc.greeted = true) (frame : WsFrame) :
    (conn.enqueue frame).Mannered := by
  refine ⟨fun hpc => ?_, fun _ => ?_⟩
  · rw [Conn.enqueue_pc, hg] at hpc
    cases hpc
  · rw [Conn.enqueue_deviceID, Conn.enqueue_closed]
    rcases h.after hg with ⟨hnil, hclosed⟩ | ⟨first, rest, hacc, hw⟩
    · exact Or.inl ⟨by simp [Conn.enqueue, Conn.accepts, hclosed, hnil], hclosed⟩
    · refine Or.inr ?_
      unfold Conn.enqueue
      split_ifs
      · exact ⟨first, rest ++ [frame], by simp [hacc], hw⟩
      · exact ⟨first, rest, hacc, hw⟩

theorem Conn.Mannered.close (h : conn.Mannered) : conn.close.Mannered :=
  ⟨h.before, fun hg => (h.after hg).imp (fun hx => ⟨hx.1, rfl⟩) id⟩

theorem Conn.Mannered.setPc (h : conn.Mannered) (hpc : pc.greeted = conn.pc.greeted) :
    (conn.setPc pc).Mannered :=
  ⟨fun hg => h.before (hpc.symm.trans hg), fun hg => h.after (hpc.symm.trans hg)⟩

/-- An access of a goroutine that queues nothing where no `welcome` has been. -/
theorem Conn.Mannered.on (h : conn.Mannered) (a : Access) (c : ℕ)
    (hg : ∀ frame, a = .enqueue c frame → conn.pc.greeted = true) : (a.on c conn).Mannered := by
  cases a with
  | setPeer t id =>
    simp only [Access.on]
    split_ifs
    · exact ⟨h.before, h.after⟩
    · exact h
  | enqueue t frame =>
    simp only [Access.on]
    split_ifs with ht
    · exact h.enqueue (hg frame (by rw [ht])) frame
    · exact h
  | close t =>
    simp only [Access.on]
    split_ifs
    · exact h.close
    · exact h
  | _ => exact h

/-- The send queue takes a `welcome` unless the connection is closed. -/
theorem Conn.Mannered.welcome (h : conn.Mannered) (hg : conn.pc.greeted = false)
    (hg' : pc.greeted = true) (hf : IsWelcome conn.deviceID frame) :
    ((conn.enqueue frame).setPc pc).Mannered := by
  obtain ⟨hacc, hsend⟩ := h.before hg
  refine ⟨fun hpc => ?_, fun _ => ?_⟩
  · rw [show ((conn.enqueue frame).setPc pc).pc = pc from rfl, hg'] at hpc
    cases hpc
  · cases hclosed : conn.closed with
    | true =>
      refine Or.inl ⟨?_, ?_⟩
      · simp [Conn.setPc, Conn.enqueue, Conn.accepts, hclosed, hacc]
      · simp [Conn.setPc, hclosed]
    | false =>
      refine Or.inr ⟨frame, [], ?_, ?_⟩
      · simp [Conn.setPc, Conn.enqueue, Conn.accepts, hclosed, hacc, hsend, sendBufferSize]
      · simpa [Conn.setPc] using hf

end Mannered

namespace Server

variable {s s' : Server} {c : ℕ} {conn : Conn}

def Greeted (s : Server) (c : ℕ) : Prop := ∃ d pc, s.seen c = some (d, pc) ∧ pc.greeted = true

/-- Whatever another goroutine can reach has had its `welcome`. -/
structure Courteous (s : Server) : Prop where
  clients : ∀ id c, s.clients id = some c → s.Greeted c
  dest : ∀ c d pc t, s.seen c = some (d, pc) → pc.dest = some t → s.Greeted t
  notify : ∀ t about o, s.hub = .notify t about o → s.Greeted t
  conns : ∀ (c : ℕ) (conn : Conn), s.conns[c]? = some conn → conn.Mannered

/-- A connection is registered after its `welcome` has been queued. -/
def WelcomesFirst (s : Server) : Label → Prop
  | .hub => ∀ c < s.conns.length, s.hub = .register c →
      ∀ conn ∈ s.conns[c]?, conn.pc.greeted = true
  | _ => True

instance (s : Server) : (l : Label) → Decidable (s.WelcomesFirst l)
  | .hub => inferInstanceAs (Decidable (∀ c < s.conns.length, s.hub = .register c →
      ∀ conn ∈ s.conns[c]?, conn.pc.greeted = true))
  | .receive .. | .connect .. | .disconnect _ | .handler .. | .write _ | .takeRegister
  | .takeUnregister => isTrue trivial

theorem Greeted.of_conn (hc : s.conns[c]? = some conn) (h : s.Greeted c) : conn.pc.greeted = true := by
  obtain ⟨d, pc, hs, hg⟩ := h
  rw [seen_of_conn hc] at hs
  obtain ⟨-, rfl⟩ := Prod.mk.inj (Option.some.inj hs)
  exact hg

theorem Courteous.same (h : s.Courteous) (hseen : s'.seen = s.seen)
    (hcl : ∀ id c, s'.clients id = some c → s.Greeted c)
    (hnotify : ∀ t about o, s'.hub = .notify t about o → s.Greeted t)
    (hconns : ∀ (c : ℕ) (conn : Conn), s'.conns[c]? = some conn → conn.Mannered) :
    s'.Courteous := by
  have hg : s'.Greeted = s.Greeted := by
    funext c
    simp only [Greeted, hseen]
  exact ⟨hg ▸ hcl, by rw [hg, hseen]; exact h.dest, hg ▸ hnotify, hconns⟩

/-- A goroutine moves on, and does not come before its `welcome` again. -/
theorem Courteous.advance (h : s.Courteous) {a : Access} {pc : Pc} (hc : s.conns[c]? = some conn)
    (hmono : conn.pc.greeted = true → pc.greeted = true)
    (hdest : ∀ t, pc.dest = some t → t = c ∨ s.Greeted t)
    (hself : ((a.on c conn).setPc pc).Mannered)
    (hother : ∀ t frame, a = .enqueue t frame → t = c ∨ s.Greeted t) :
    (s.advance c a pc).Courteous := by
  have hseen := s.seen_advance a pc hc
  have hkept : ∀ {t}, s.Greeted t → (s.advance c a pc).Greeted t := by
    rintro t ⟨d, q, hs, hg⟩
    by_cases ht : t = c
    · subst ht
      refine ⟨conn.deviceID, pc, by rw [hseen, Function.update_self], hmono ?_⟩
      exact Greeted.of_conn hc ⟨d, q, hs, hg⟩
    · exact ⟨d, q, by rw [hseen, Function.update_of_ne ht, hs], hg⟩
  refine ⟨fun id b hb => hkept (h.clients id b (by simpa using hb)), fun b d q t hs hq => ?_,
    fun t about o ht => hkept (h.notify t about o (by simpa using ht)), fun b conn' hb => ?_⟩
  · rw [hseen] at hs
    by_cases hbc : b = c
    · rw [hbc, Function.update_self] at hs
      obtain ⟨-, rfl⟩ := Prod.mk.inj (Option.some.inj hs)
      rcases hdest t hq with rfl | ht
      · exact ⟨_, pc, by rw [hseen, Function.update_self], Pc.greeted_of_dest hq⟩
      · exact hkept ht
    · rw [Function.update_of_ne hbc] at hs
      exact hkept (h.dest b d q t hs hq)
  · rw [advance_conns] at hb
    obtain ⟨conn₀, hc₀, rfl⟩ := Option.map_eq_some_iff.1 hb
    split_ifs with hcb
    · subst hcb
      obtain rfl : conn = conn₀ := Option.some.inj (hc.symm.trans hc₀)
      exact hself
    · refine (h.conns b conn₀ hc₀).on a b fun frame he => ?_
      rcases hother b frame he with rfl | hg
      · exact absurd rfl hcb
      · exact hg.of_conn hc₀

theorem Courteous.exec (h : s.Courteous) {x : Access × Pc} (hc : s.conns[c]? = some conn)
    (hx : Greeting s c conn x) : (s.advance c x.1 x.2).Courteous := by
  have hm := h.conns c conn hc
  cases hx with
  | later hg hg' henq hdest =>
    refine h.advance hc (fun _ => hg') (fun t ht => ?_)
      ((hm.on _ c fun _ _ => hg).setPc (by rw [hg', Access.on_pc, hg])) fun t frame he => ?_
    · rcases hdest t ht with rfl | hd | ⟨id, hid⟩
      · exact Or.inl rfl
      · exact Or.inr (h.dest c _ _ t (seen_of_conn hc) hd)
      · exact Or.inr (h.clients id t hid)
    · exact (henq t frame he).imp id fun hd => h.dest c _ _ t (seen_of_conn hc) hd
  | earlier hg hg' henq =>
    refine h.advance hc (fun hg'' => ?_) (fun t ht => ?_)
      ((hm.on _ c fun frame he => absurd he (henq c frame)).setPc (by rw [hg', Access.on_pc, hg]))
      fun t frame he => absurd he (henq t frame)
    · rw [hg] at hg''
      cases hg''
    · rw [Pc.greeted_of_dest ht] at hg'
      cases hg'
  | welcome frame hg hg' hdest hf =>
    refine h.advance hc (fun _ => hg') (fun t ht => ?_) ?_ fun t frame' he => ?_
    · rw [hdest] at ht
      cases ht
    · rw [Access.on, if_pos rfl]
      exact hm.welcome hg hg' hf
    · exact Or.inl (Access.enqueue.inj he).1.symm

theorem Courteous.read (h : s.Courteous) {pc : Pc} (hg : pc.greeted = true)
    (hdest : ∀ t, pc.dest = some t → t = c) (hr : s.read c pc = some s') : s'.Courteous := by
  obtain ⟨conn, hc, hpc, rfl⟩ := read_eq_some hr
  exact h.advance hc (fun _ => hg) (fun t ht => Or.inl (hdest t ht))
    ((h.conns c conn hc).setPc (by rw [hg, hpc]; rfl)) nofun

theorem Courteous.connect (h : s.Courteous) {new : Conn} (hg : new.pc.greeted = false)
    (hm : new.Mannered) : { s with conns := s.conns ++ [new] }.Courteous := by
  have hkept : ∀ {t}, s.Greeted t → Greeted { s with conns := s.conns ++ [new] } t := by
    rintro t ⟨d, pc, hs, hpc⟩
    exact ⟨d, pc, by rw [seen_connect, if_neg (Nat.ne_of_lt (seen_lt hs)), hs], hpc⟩
  refine ⟨fun id c hc => hkept (h.clients id c hc), fun c d pc t hs ht => ?_,
    fun t about o ht => hkept (h.notify t about o ht), fun c conn hc => ?_⟩
  · rw [seen_connect] at hs
    split_ifs at hs
    · obtain ⟨-, rfl⟩ := Prod.mk.inj (Option.some.inj hs)
      rw [Pc.greeted_of_dest ht] at hg
      cases hg
    · exact hkept (h.dest c d pc t hs ht)
  · dsimp only at hc
    rw [List.getElem?_append] at hc
    split_ifs at hc
    · exact h.conns c conn hc
    · obtain rfl := List.mem_singleton.1 (List.mem_of_getElem? hc)
      exact hm

theorem Courteous.modify (h : s.Courteous) {t : ℕ} {f : Conn → Conn}
    (hf : ∀ conn, s.conns[t]? = some conn → conn.Mannered → (f conn).Mannered) (c : ℕ) (conn : Conn)
    (hc : (s.modify t f).conns[c]? = some conn) : conn.Mannered := by
  rw [modify_conns] at hc
  obtain ⟨conn₀, hc₀, rfl⟩ := Option.map_eq_some_iff.1 hc
  split_ifs with ht
  · subst ht
    exact hf conn₀ hc₀ (h.conns t conn₀ hc₀)
  · exact h.conns c conn₀ hc₀

theorem Courteous.hubMove (h : s.Courteous) (hfirst : s.WelcomesFirst .hub) (hm : s.HubMove s') :
    s'.Courteous := by
  cases hm with
  | register c client hh hc =>
    refine h.same (s.seen_evict client.deviceID) (fun id b hb => ?_) nofun fun b conn hb => ?_
    · dsimp only at hb
      rw [Function.update_apply] at hb
      split_ifs at hb
      · obtain rfl := Option.some.inj hb
        exact ⟨_, _, seen_of_conn hc,
          hfirst c (List.getElem?_eq_some_iff.1 hc).1 hh client hc⟩
      · exact h.clients id b hb
    · replace hb := (s.evict_conns client.deviceID b).symm.trans hb
      obtain ⟨conn₀, hc₀, rfl⟩ := Option.map_eq_some_iff.1 hb
      split_ifs
      · exact (h.conns b conn₀ hc₀).close
      · exact h.conns b conn₀ hc₀
  | unregister c client hh hc hcur =>
    refine h.same rfl (fun id b hb => ?_) nofun h.conns
    dsimp only at hb
    rw [Function.update_apply] at hb
    split_ifs at hb
    exact h.clients id b hb
  | found target about online c hh hc =>
    refine h.same rfl h.clients (fun t about' o ht => ?_) h.conns
    obtain ⟨rfl, -, -⟩ := HubPc.notify.inj ht
    exact h.clients target c hc
  | notify c about online hh =>
    refine h.same (seen_modify s c fun conn => ⟨conn.enqueue_deviceID _, conn.enqueue_pc _⟩)
      h.clients nofun (h.modify fun conn hc hm => ?_)
    exact hm.enqueue ((h.notify c about online hh).of_conn hc) _
  | stale | peer | unpaired | offline => exact h.same rfl h.clients nofun h.conns

theorem Courteous.step (h : s.Courteous) {l : Label} (hfirst : s.WelcomesFirst l)
    (hstep : s.step l = some s') : s'.Courteous := by
  cases l with
  | connect deviceID token now upgraded =>
    cases hstep
    rcases s.handler_cases deviceID token now upgraded with heq | ⟨-, device, -, heq⟩ <;> rw [heq]
    · exact h
    · exact h.connect rfl ⟨fun _ => ⟨rfl, rfl⟩, nofun⟩
  | receive c frame =>
    exact h.read (dispatch_greeted c frame) (fun t ht => dispatch_dest ht) hstep
  | disconnect c => exact h.read rfl (fun t ht => by cases ht) hstep
  | handler c env =>
    obtain ⟨conn, x, hc, hx, rfl⟩ := runHandler_exec hstep
    exact h.exec hc (exec_greeting hx)
  | write c =>
    cases hstep
    refine h.same (seen_modify s c fun _ => ⟨rfl, rfl⟩) h.clients h.notify
      (h.modify fun conn _ hm => ⟨fun hg => ?_, hm.after⟩)
    obtain ⟨hacc, hsend⟩ := hm.before hg
    exact ⟨hacc, by simp [hsend]⟩
  | takeRegister =>
    obtain ⟨c, rest, -, -, rfl⟩ := takeRegister_eq_some hstep
    exact h.same rfl h.clients nofun h.conns
  | takeUnregister =>
    obtain ⟨c, rest, -, -, rfl⟩ := takeUnregister_eq_some hstep
    exact h.same rfl h.clients nofun h.conns
  | hub => exact h.hubMove hfirst (runHub_move hstep)

/-- Where the hub registers a connection after its `welcome` has been queued, that is the first frame
that its send queue takes. -/
theorem head_accepted_welcome (devices : Devices) (pairCodes : PairCodes) (labels : List Label)
    (hm : Lts.Meets step WelcomesFirst (start devices pairCodes) labels)
    (hrun : Lts.run step (start devices pairCodes) labels = some s) (hc : s.conns[c]? = some conn)
    (frame : WsFrame) (hf : conn.accepted.head? = some frame) :
    ∃ peers, frame = textFrame (.welcome protocolVersion conn.deviceID peers) := by
  have hstart : (start devices pairCodes).Courteous :=
    ⟨nofun, fun c d pc t hs => by simp [start, seen] at hs, nofun,
      fun c conn hc => by simp [start] at hc⟩
  have h := Lts.run_inv (fun _ _ _ hi hl hs => hi.step hl hs) labels hstart hm hrun
  have hmannered := h.conns c conn hc
  cases hg : conn.pc.greeted with
  | false =>
    rw [(hmannered.before hg).1] at hf
    cases hf
  | true =>
    rcases hmannered.after hg with ⟨hnil, -⟩ | ⟨first, rest, hacc, hw⟩
    · rw [hnil] at hf
      cases hf
    · rw [hacc, List.head?_cons, Option.some.injEq] at hf
      exact hf ▸ hw

/-- The hub registers `a` before its goroutine has run `sendWelcome`, and then `b`, whose
`peer_status` is the first frame for `a`. -/
theorem head_accepted_status :
    ∃ s conn, Lts.run step (start linkedAB fun _ => none) [.connect "a" "t" 0 true, plainStep 0,
        .takeRegister, .hub, .hub, .hub, .connect "b" "t" 0 true, plainStep 1, .takeRegister, .hub,
        .hub, .hub, .hub] = some s
      ∧ s.conns[0]? = some conn
      ∧ conn.accepted.head? = some (textFrame (.peerStatus "b" true)) := by
  have h : (Lts.run step (start linkedAB fun _ => none) [.connect "a" "t" 0 true, plainStep 0,
      .takeRegister, .hub, .hub, .hub, .connect "b" "t" 0 true, plainStep 1, .takeRegister, .hub,
      .hub, .hub, .hub]).any fun s => s.conns[0]?.any fun conn =>
        decide (conn.accepted.head? = some (textFrame (.peerStatus "b" true))) := by
    decide +kernel
  obtain ⟨s, hrun, hs⟩ := (Option.any_eq_true ..).1 h
  simp only [decide_eq_true_eq, Option.any_eq_true] at hs
  obtain ⟨conn, hconn, hf⟩ := hs
  exact ⟨s, conn, hrun, hconn, hf⟩

theorem head_accepted_welcome_notified :
    ∃ s conn frame, Lts.run step (start linkedAB fun _ => none)
        (Label.connect "a" "t" 0 true :: List.replicate 5 (plainStep 0)
          ++ [Label.takeRegister, .hub, .hub, .hub] ++ Label.connect "b" "t" 0 true ::
          List.replicate 5 (plainStep 1) ++ [Label.takeRegister, .hub, .hub, .hub, .hub]) = some s
      ∧ s.conns[0]? = some conn ∧ conn.accepted.length = 3 ∧ conn.accepted.head? = some frame
      ∧ ∃ peers, frame = textFrame (.welcome protocolVersion conn.deviceID peers) := by
  have h : (Lts.run step (start linkedAB fun _ => none)
      (Label.connect "a" "t" 0 true :: List.replicate 5 (plainStep 0)
        ++ [Label.takeRegister, .hub, .hub, .hub] ++ Label.connect "b" "t" 0 true ::
        List.replicate 5 (plainStep 1)
        ++ [Label.takeRegister, .hub, .hub, .hub, .hub])).any fun s =>
          s.conns[0]?.any fun conn => decide (conn.accepted.length = 3)
            && conn.accepted.head?.isSome := by
    decide +kernel
  obtain ⟨s, hrun, hs⟩ := (Option.any_eq_true ..).1 h
  simp only [Bool.and_eq_true, decide_eq_true_eq, Option.any_eq_true,
    Option.isSome_iff_exists] at hs
  obtain ⟨conn, hconn, hlen, frame, hf⟩ := hs
  exact ⟨s, conn, frame, hrun, hconn, hlen, hf, head_accepted_welcome linkedAB _ _
    (by decide +kernel) hrun hconn frame hf⟩

end Server

end Relayly.Relay
