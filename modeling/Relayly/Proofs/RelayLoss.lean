import Relayly.Proofs.RelayPresence

/-!
# Control messages that are lost

`sendJSON` hands its frame to `enqueue` and does nothing more where that refuses it, unlike `Route`,
which closes the connection. So what it is given is lost on an open connection exactly where the
send queue is full (`lossless_iff_room`).
-/

namespace Relayly.Relay

/-- The messages whose loss matters: all but `pong`. -/
def Control.matters : Control → Bool
  | .reply .pong => false
  | _ => true

/-- The message that an access hands to `sendJSON`, and the connection it is for. A frame of
`sendErrorAndClose` is not one. -/
def Access.sendJSON : Access → Option (ℕ × Control)
  | .enqueue c ⟨.text msg, false⟩ => if msg.matters then some (c, msg) else Option.none
  | _ => Option.none

theorem Access.eq_enqueue_of_sendJSON {a : Access} {c : ℕ} {msg : Control}
    (h : a.sendJSON = some (c, msg)) : a = .enqueue c (textFrame msg) := by
  unfold Access.sendJSON at h
  split at h
  · split_ifs at h
    cases h
    rfl
  · cases h

/-- Closed, with `frames` all that it ever took. -/
structure Conn.Over (frames : List WsFrame) (conn : Conn) : Prop where
  closed : conn.closed = true
  accepted : conn.accepted = frames

namespace Conn.Over

variable {frames : List WsFrame} {conn : Conn}

theorem enqueue (h : conn.Over frames) (frame : WsFrame) : (conn.enqueue frame).Over frames := by
  have hrefused : conn.accepts = false := by simp [Conn.accepts, h.closed]
  rw [Conn.enqueue, hrefused]
  exact h

theorem on (h : conn.Over frames) (a : Access) (c : ℕ) : (a.on c conn).Over frames := by
  cases a with
  | enqueue t frame =>
    simp only [Access.on]
    split_ifs
    · exact h.enqueue frame
    · exact h
  | setPeer t id =>
    simp only [Access.on]
    split_ifs <;> exact ⟨h.closed, h.accepted⟩
  | close t =>
    simp only [Access.on]
    split_ifs
    · exact ⟨rfl, h.accepted⟩
    · exact h
  | _ => exact h

end Conn.Over

namespace Server

variable {s s' : Server} {c : ℕ} {conn : Conn} {frames : List WsFrame}

/-- Connection `c` is closed, with `frames` all that it ever took. -/
def Over (s : Server) (c : ℕ) (frames : List WsFrame) : Prop :=
  ∃ conn, s.conns[c]? = some conn ∧ conn.Over frames

theorem Over.modify (h : s.Over c frames) (t : ℕ) {f : Conn → Conn}
    (hf : ∀ conn, conn.Over frames → (f conn).Over frames) : (s.modify t f).Over c frames := by
  obtain ⟨conn, hc, ho⟩ := h
  refine ⟨_, by rw [modify_conns, hc]; rfl, ?_⟩
  dsimp only
  split_ifs
  · exact hf conn ho
  · exact ho

theorem Over.advance (h : s.Over c frames) (t : ℕ) (a : Access) (pc : Pc) :
    (s.advance t a pc).Over c frames := by
  obtain ⟨conn, hc, ho⟩ := h
  refine ⟨_, by rw [advance_conns, hc]; rfl, ?_⟩
  have hon := ho.on a c
  dsimp only
  split_ifs
  · exact ⟨hon.closed, hon.accepted⟩
  · exact hon

theorem Over.hubMove (h : s.Over c frames) (hm : s.HubMove s') : s'.Over c frames := by
  cases hm with
  | register t client =>
    show (s.evict client.deviceID).Over c frames
    unfold evict
    split
    · exact h.modify _ fun _ ho => ⟨rfl, ho.accepted⟩
    · exact h
  | notify t about online => exact h.modify t fun _ ho => ho.enqueue _
  | _ => exact h

/-- A closed connection stays closed and takes nothing more. -/
theorem Over.step {l : Label} (h : s.Over c frames) (hstep : s.step l = some s') :
    s'.Over c frames := by
  cases l with
  | connect deviceID token now upgraded =>
    cases hstep
    rcases s.handler_cases deviceID token now upgraded with heq | ⟨-, device, -, heq⟩ <;> rw [heq]
    · exact h
    · obtain ⟨conn, hc, ho⟩ := h
      exact ⟨conn, (List.getElem?_append_left (List.getElem?_eq_some_iff.1 hc).1).trans hc, ho⟩
  | receive t frame =>
    obtain ⟨-, -, -, rfl⟩ := read_eq_some hstep
    exact h.advance t _ _
  | disconnect t =>
    obtain ⟨-, -, -, rfl⟩ := read_eq_some hstep
    exact h.advance t _ _
  | handler t env =>
    obtain ⟨-, x, -, -, rfl⟩ := runHandler_exec hstep
    exact h.advance t _ _
  | write t =>
    cases hstep
    exact h.modify t fun _ ho => ⟨ho.closed, ho.accepted⟩
  | takeRegister =>
    obtain ⟨-, -, -, -, rfl⟩ := takeRegister_eq_some hstep
    exact h
  | takeUnregister =>
    obtain ⟨-, -, -, -, rfl⟩ := takeUnregister_eq_some hstep
    exact h
  | hub => exact h.hubMove (runHub_move hstep)

/-- The message that a step hands to `sendJSON`, and the connection it is for. -/
def handed (s : Server) : Label → Option (ℕ × Control)
  | .handler c env => (s.conns[c]?.bind (exec s c · env)).bind fun x => x.1.sendJSON
  | .hub =>
    match s.hub with
    | .notify c about online => some (c, .peerStatus about online)
    | _ => none
  | _ => none

/-- The send queue takes the message that the step hands to `sendJSON`, or the connection is closed
when `sendJSON` returns, and takes no frame in any continuation of the run. -/
def Lossless (s : Server) (l : Label) : Prop :=
  ∀ c msg, s.handed l = some (c, msg) → ∀ conn, s.conns[c]? = some conn → ∀ s', s.step l = some s' →
    ∃ conn', s'.conns[c]? = some conn' ∧ (conn'.accepted = conn.accepted ++ [textFrame msg] ∨
      conn'.closed = true ∧ conn'.accepted = conn.accepted ∧
        ∀ labels u, Lts.run Server.step s' labels = some u → u.Over c conn.accepted)

/-- The send queue of the connection for which the step hands a message to `sendJSON` has room, or
the connection is closed already. -/
def RoomOrClosed (s : Server) (l : Label) : Prop :=
  ∀ c msg, s.handed l = some (c, msg) → ∀ conn, s.conns[c]? = some conn →
    conn.closed = true ∨ conn.send.length < sendBufferSize

theorem handed_enabled {l : Label} {msg : Control} (hh : s.handed l = some (c, msg)) :
    ∃ s', s.step l = some s' := by
  cases l with
  | handler t env =>
    obtain ⟨x, hx, -⟩ := Option.bind_eq_some_iff.1 hh
    obtain ⟨own, hown, hexec⟩ := Option.bind_eq_some_iff.1 hx
    exact ⟨s.advance t x.1 x.2, by simp [step, runHandler, hown, hexec, advance]⟩
  | hub =>
    simp only [handed] at hh
    split at hh
    · next hhub =>
      simp only [step, runHub, hhub]
      exact ⟨_, rfl⟩
    · cases hh
  | _ => cases hh

/-- What `sendJSON` does to the connection: the frame is taken or not, and nothing is closed. -/
theorem handed_conn {l : Label} {msg : Control} (hh : s.handed l = some (c, msg))
    (hc : s.conns[c]? = some conn) (hstep : s.step l = some s') :
    ∃ conn', s'.conns[c]? = some conn' ∧ conn'.closed = conn.closed ∧
      conn'.accepted = (conn.enqueue (textFrame msg)).accepted := by
  cases l with
  | handler t env =>
    obtain ⟨own, x, hown, hx, rfl⟩ := runHandler_exec hstep
    have hsend : x.1.sendJSON = some (c, msg) := by simpa [handed, hown, hx] using hh
    refine ⟨_, by rw [advance_conns, hc]; rfl, ?_⟩
    have hon : x.1.on c conn = conn.enqueue (textFrame msg) := by
      rw [Access.eq_enqueue_of_sendJSON hsend]
      exact if_pos rfl
    dsimp only
    rw [hon]
    split_ifs <;> exact ⟨conn.enqueue_closed _, rfl⟩
  | hub =>
    simp only [handed] at hh
    split at hh
    · next t about online hhub =>
      cases hh
      simp only [step, runHub, hhub, Option.some.injEq] at hstep
      subst hstep
      refine ⟨conn.enqueue (textFrame (.peerStatus about online)), ?_, conn.enqueue_closed _, rfl⟩
      show (s.modify c _).conns[c]? = _
      rw [modify_conns, hc]
      simp
    · cases hh
  | _ => cases hh

theorem lossless_of_room {l : Label} (h : s.RoomOrClosed l) : s.Lossless l := by
  intro c msg hh conn hc s' hstep
  obtain ⟨conn', hc', hclosed, hacc⟩ := handed_conn hh hc hstep
  refine ⟨conn', hc', ?_⟩
  cases hshut : conn.closed with
  | true =>
    have hover : conn.Over conn.accepted := ⟨hshut, rfl⟩
    have hsame : conn'.accepted = conn.accepted := hacc.trans (hover.enqueue _).accepted
    refine .inr ⟨hclosed.trans hshut, hsame, fun labels u hrun => ?_⟩
    exact Lts.run_inv_of_step (I := fun s => s.Over c conn.accepted) (fun _ _ _ ho => ho.step) labels
      ⟨conn', hc', hclosed.trans hshut, hsame⟩ hrun
  | false =>
    have hroom : conn.send.length < sendBufferSize :=
      (h c msg hh conn hc).resolve_left (by simp [hshut])
    have haccepts : conn.accepts = true := by simp [Conn.accepts, hshut, hroom]
    refine .inl ?_
    rw [hacc, Conn.enqueue, if_pos haccepts]

theorem room_of_lossless {l : Label} (h : s.Lossless l) : s.RoomOrClosed l := by
  intro c msg hh conn hc
  obtain ⟨s', hstep⟩ := handed_enabled hh
  obtain ⟨conn₁, hc₁, hkept⟩ := h c msg hh conn hc s' hstep
  obtain ⟨conn', hc', hclosed, hacc⟩ := handed_conn hh hc hstep
  obtain rfl : conn₁ = conn' := Option.some.inj (hc₁.symm.trans hc')
  rcases hkept with htaken | ⟨hshut, -⟩
  · refine .inr (Nat.lt_of_not_le fun hfull => ?_)
    have hrefused : conn.accepts = false := by simp [Conn.accepts, hfull]
    rw [Conn.enqueue, hrefused] at hacc
    exact absurd (congrArg List.length (hacc.symm.trans htaken)) (by simp)
  · exact .inl (hclosed.symm.trans hshut)

/-- No message that a run hands to `sendJSON` is lost on a connection that stays open, exactly if each
finds room in the send queue or the connection closed. -/
theorem lossless_iff_room (devices : Devices) (pairCodes : PairCodes) (labels : List Label) :
    Lts.Meets step Lossless (start devices pairCodes) labels ↔
      Lts.Meets step RoomOrClosed (start devices pairCodes) labels :=
  ⟨Lts.Meets.imp fun _ _ => room_of_lossless, Lts.Meets.imp fun _ _ => lossless_of_room⟩

/-- A device alone in the table. -/
def loneA : Devices := fun id => if id = "a" then some { deviceToken := "t" } else none

/-- The device connects, is sent its `welcome`, and answers to 255 of its pings fill its send queue,
since nothing takes from that; then it asks for a code. -/
def flood : List Label :=
  Label.connect "a" "t" 0 true :: List.replicate 2 (.handler 0 ⟨0, false, none⟩) ++
    (List.replicate 255 [.receive 0 .ping, .handler 0 ⟨0, false, none⟩]).flatten ++
    [.receive 0 .pairRequest, .handler 0 ⟨0, false, some "048392"⟩]

set_option maxRecDepth 4000 in
/-- The `pair_code` is lost, the connection stays open, and takes the next frame. -/
theorem pairCode_lost :
    (∃ s, Lts.run step (start loneA fun _ => none) flood = some s ∧
      s.handed (.handler 0 ⟨0, false, none⟩) = some (0, .reply (.pairCode "048392" 300)) ∧
      ¬ s.Lossless (.handler 0 ⟨0, false, none⟩)) ∧
    ∃ s conn, Lts.run step (start loneA fun _ => none) (flood ++ [Label.handler 0 ⟨0, false, none⟩,
        .write 0, .receive 0 .ping, .handler 0 ⟨0, false, none⟩]) = some s ∧
      s.conns[0]? = some conn ∧ conn.closed = false ∧
      conn.accepted = textFrame (.welcome 1 "a" []) :: List.replicate 256 (textFrame (.reply .pong)) := by
  constructor
  · have h : (Lts.run step (start loneA fun _ => none) flood).any fun s =>
        decide (s.handed (.handler 0 ⟨0, false, none⟩) = some (0, .reply (.pairCode "048392" 300))) &&
          s.conns[0]?.any fun conn => !conn.closed && conn.send.length == 256 := by decide +kernel
    obtain ⟨s, hrun, hs⟩ := (Option.any_eq_true ..).1 h
    simp only [Bool.and_eq_true, decide_eq_true_eq, Option.any_eq_true, Bool.not_eq_true',
      beq_iff_eq] at hs
    obtain ⟨hh, conn, hc, hopen, hfull⟩ := hs
    refine ⟨s, hrun, hh, fun hl => ?_⟩
    have := room_of_lossless hl 0 _ hh conn hc
    simp [hopen, hfull, sendBufferSize] at this
  · have h : (Lts.run step (start loneA fun _ => none) (flood ++ [Label.handler 0 ⟨0, false, none⟩,
        .write 0, .receive 0 .ping, .handler 0 ⟨0, false, none⟩])).any fun s =>
          s.conns[0]?.any fun conn => !conn.closed && decide (conn.accepted =
            textFrame (.welcome 1 "a" []) :: List.replicate 256 (textFrame (.reply .pong))) := by
      decide +kernel
    obtain ⟨s, hrun, hs⟩ := (Option.any_eq_true ..).1 h
    simp only [Bool.and_eq_true, decide_eq_true_eq, Option.any_eq_true, Bool.not_eq_true'] at hs
    obtain ⟨conn, hc, hopen, hacc⟩ := hs
    exact ⟨s, conn, hrun, hc, hopen, hacc⟩

end Server

end Relayly.Relay
