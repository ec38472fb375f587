import Relayly.Lib.Run
import Relayly.Relay.WritePump
import Relayly.Proofs.RelayRouting

/-!
# What is written to a connection

What a queue has accepted is what the write pump has written of it, the frame it holds or could not
write, and what is still queued, in this order. Nothing but the write pump takes a frame from a
queue, and every other step appends to it at most.
-/

namespace Relayly.Relay

/-! ## Queues grow -/

/-- A queue takes new frames, and stays closed if it is. -/
def Conn.Grows (conn conn' : Conn) : Prop :=
  ∃ new, conn'.send = conn.send ++ new ∧ conn'.accepted = conn.accepted ++ new
    ∧ (conn.closed = true → conn'.closed = true)

namespace Conn.Grows

variable {conn : Conn}

theorem of_same {conn' : Conn} (hsend : conn'.send = conn.send)
    (haccepted : conn'.accepted = conn.accepted) (hclosed : conn.closed = true → conn'.closed = true) :
    conn.Grows conn' :=
  ⟨[], by rw [hsend, List.append_nil], by rw [haccepted, List.append_nil], hclosed⟩

theorem refl (conn : Conn) : conn.Grows conn := of_same rfl rfl id

theorem enqueue (conn : Conn) (frame : WsFrame) : conn.Grows (conn.enqueue frame) := by
  unfold Conn.enqueue
  split_ifs
  · exact ⟨[frame], rfl, rfl, id⟩
  · exact refl conn

theorem on (conn : Conn) (a : Access) (c : ℕ) : conn.Grows (a.on c conn) := by
  cases a with
  | setPeer t peer =>
    simp only [Access.on]
    split_ifs
    · exact of_same rfl rfl id
    · exact refl conn
  | enqueue t frame =>
    simp only [Access.on]
    split_ifs
    · exact enqueue conn frame
    · exact refl conn
  | close t =>
    simp only [Access.on]
    split_ifs
    · exact of_same rfl rfl fun _ => rfl
    · exact refl conn
  | _ => exact refl conn

end Conn.Grows

namespace Server

variable {s s' : Server}

/-- Every queue does, and that of a new connection is empty. -/
structure Grows (s s' : Server) : Prop where
  kept : ∀ (c : ℕ) (conn : Conn), s.conns[c]? = some conn → ∃ conn', s'.conns[c]? = some conn' ∧ conn.Grows conn'
  fresh : ∀ (c : ℕ) (conn' : Conn), s.conns[c]? = none → s'.conns[c]? = some conn' →
    conn'.send = [] ∧ conn'.accepted = []

theorem Grows.of_map {f : ℕ → Conn → Conn} (hs : ∀ c : ℕ, s'.conns[c]? = s.conns[c]?.map (f c))
    (hf : ∀ (c : ℕ) (conn : Conn), conn.Grows (f c conn)) : s.Grows s' where
  kept c conn hc := ⟨f c conn, by rw [hs, hc]; rfl, hf c conn⟩
  fresh c conn' hc hc' := by
    rw [hs, hc] at hc'
    cases hc'

theorem Grows.of_conns (hs : s'.conns = s.conns) : s.Grows s' :=
  .of_map (f := fun _ conn => conn) (fun c => by rw [hs]; simp) fun _ conn => .refl conn

theorem Grows.advance (s : Server) (t : ℕ) (a : Access) (pc : Pc) : s.Grows (s.advance t a pc) := by
  refine .of_map (fun c => s.advance_conns t a pc c) fun c conn => ?_
  obtain ⟨new, hsend, haccepted, hclosed⟩ := Conn.Grows.on conn a c
  split_ifs
  · exact ⟨new, hsend, haccepted, hclosed⟩
  · exact ⟨new, hsend, haccepted, hclosed⟩

theorem Grows.hubMove (h : s.HubMove s') : s.Grows s' := by
  cases h with
  | register c client =>
    refine .of_map (f := fun t conn => if s.clients client.deviceID = some t then conn.close else conn)
      (fun t => s.evict_conns client.deviceID t) fun t conn => ?_
    split_ifs
    · exact .of_same rfl rfl fun _ => rfl
    · exact .refl conn
  | notify c about online =>
    refine .of_map (f := fun t conn => if c = t then conn.enqueue (textFrame (.peerStatus about online))
      else conn) (fun t => s.modify_conns c t _) fun t conn => ?_
    split_ifs
    · exact .enqueue conn _
    · exact .refl conn
  | _ => exact .of_conns rfl

/-- A step that is not one of a write pump. -/
theorem Grows.step {l : Label} (hl : ∀ c, l ≠ .write c) (h : s.step l = some s') : s.Grows s' := by
  cases l with
  | connect deviceID token now upgraded =>
    cases h
    rcases s.handler_cases deviceID token now upgraded with heq | ⟨-, device, -, heq⟩ <;> rw [heq]
    · exact .of_conns rfl
    · refine ⟨fun c conn hc => ⟨conn, ?_, .refl conn⟩, fun c conn' hc hc' => ?_⟩
      · exact (List.getElem?_append_left (List.getElem?_eq_some_iff.1 hc).1).trans hc
      · rw [List.getElem?_append_right (List.getElem?_eq_none_iff.1 hc)] at hc'
        obtain ⟨-, rfl⟩ := List.getElem?_eq_some_iff.1 hc'
        simp
  | receive c frame =>
    obtain ⟨-, -, -, rfl⟩ := read_eq_some h
    exact .advance s c _ _
  | disconnect c =>
    obtain ⟨-, -, -, rfl⟩ := read_eq_some h
    exact .advance s c _ _
  | handler c env =>
    obtain ⟨-, x, -, -, rfl⟩ := runHandler_exec h
    exact .advance s c _ _
  | write c => exact absurd rfl (hl c)
  | takeRegister =>
    obtain ⟨-, -, -, -, rfl⟩ := takeRegister_eq_some h
    exact .of_conns rfl
  | takeUnregister =>
    obtain ⟨-, -, -, -, rfl⟩ := takeUnregister_eq_some h
    exact .of_conns rfl
  | hub => exact .hubMove (runHub_move h)

end Server

/-! ## What a write pump has of its queue -/

namespace Writer

variable {w : Writer} {conn conn' : Conn}

/-- The frame that was received and is not written. -/
def hand (w : Writer) : List WsFrame :=
  match w.pc with
  | .writing frame => [frame]
  | _ => w.failed.toList

/-- The write pump is done once it has written a frame with `closeAfter`. -/
structure Follows (w : Writer) (conn : Conn) : Prop where
  flow : conn.accepted = w.frames ++ w.hand ++ conn.send
  running : w.pc ≠ .returned → w.failed = none
  open_ : w.pc ≠ .closing → w.pc ≠ .returned → ∀ frame ∈ w.frames, frame.closeAfter = false
  last : ∀ frame, .frame frame ∈ w.written.dropLast → frame.closeAfter = false
  drained : w.pc = .closeMessage → conn.closed = true
  noClose : .close ∉ w.written

theorem Follows.new (hsend : conn.send = []) (haccepted : conn.accepted = []) :
    Follows {} conn where
  flow := by rw [hsend, haccepted]; rfl
  running _ := rfl
  open_ _ _ frame h := by simp [frames] at h
  last frame h := by simp at h
  drained h := by cases h
  noClose := by simp

theorem Follows.grows (h : w.Follows conn) (hg : conn.Grows conn') : w.Follows conn' := by
  obtain ⟨new, hsend, haccepted, hclosed⟩ := hg
  exact { h with
    flow := by rw [haccepted, h.flow, hsend, List.append_assoc]
    drained := fun hpc => hclosed (h.drained hpc) }

theorem mem_frames {frame : WsFrame} : frame ∈ w.frames ↔ .frame frame ∈ w.written := by
  unfold frames
  rw [List.mem_filterMap]
  constructor
  · rintro ⟨x, hx, heq⟩
    cases x <;> cases heq
    exact hx
  · exact fun h => ⟨_, h, rfl⟩

/-- At its `select` it has everything in its queue. -/
theorem Follows.select (h : w.Follows conn) (hpc : w.pc = .select) :
    conn.accepted = w.frames ++ conn.send := by
  have hfailed := h.running (by rw [hpc]; decide)
  have hflow := h.flow
  rw [hand, hpc, hfailed] at hflow
  simpa using hflow

/-- It goes on to where it holds no frame either. -/
theorem Follows.setPc (h : w.Follows conn) {pc : WriterPc} (hpc : w.pc = .idle ∨ w.pc = .select)
    (hpc' : pc = .select ∨ pc = .closeMessage) (hclosed : pc = .closeMessage → conn.closed = true) :
    (w.setPc pc).Follows conn := by
  have hfailed : w.failed = none := h.running (by rcases hpc with h | h <;> rw [h] <;> decide)
  have hhand : w.hand = [] := by rcases hpc with h | h <;> rw [hand, h, hfailed] <;> rfl
  have hhand' : (w.setPc pc).hand = [] := by
    rcases hpc' with rfl | rfl <;> exact congrArg Option.toList hfailed
  have hopen := h.open_ (by rcases hpc with h | h <;> rw [h] <;> decide)
    (by rcases hpc with h | h <;> rw [h] <;> decide)
  refine ⟨?_, fun _ => hfailed, fun _ _ => hopen, h.last, hclosed, h.noClose⟩
  rw [hhand', h.flow, hhand]
  rfl

/-- The first frame leaves the queue. -/
theorem Follows.take (h : w.Follows conn) (hpc : w.pc = .select) {frame : WsFrame} {rest : List WsFrame}
    (hsend : conn.send = frame :: rest) :
    (w.setPc (.writing frame)).Follows { conn with send := rest } where
  flow := by
    have hflow := h.select hpc
    rw [hsend] at hflow
    show conn.accepted = w.frames ++ [frame] ++ rest
    rw [hflow, List.append_assoc]
    rfl
  running _ := h.running (by rw [hpc]; decide)
  open_ _ _ := h.open_ (by rw [hpc]; decide) (by rw [hpc]; decide)
  last := h.last
  drained hc := by cases hc
  noClose := h.noClose

/-- It returns, with the frame it holds, if any, not written. -/
theorem Follows.returns (h : w.Follows conn) {failed : Option WsFrame} (hhand : w.hand = failed.toList) :
    ({ w with pc := .returned, failed } : Writer).Follows conn where
  flow := by
    have hflow := h.flow
    rw [hhand] at hflow
    exact hflow
  running hne := absurd rfl hne
  open_ _ hne := absurd rfl hne
  last := h.last
  drained hc := by cases hc
  noClose := h.noClose

theorem hand_of_ne_writing (hpc : ∀ frame, w.pc ≠ .writing frame) : w.hand = w.failed.toList := by
  unfold hand
  split
  · exact absurd ‹_› (hpc _)
  · rfl

theorem Follows.writePing (h : w.Follows conn) (hpc : w.pc = .select) (delivered : Bool) :
    (w.writePing delivered).Follows conn := by
  unfold Writer.writePing
  have hframes : ({ w with written := w.written ++ [.ping] } : Writer).frames = w.frames := by
    simp [frames]
  split_ifs
  · refine ⟨?_, h.running, fun h1 h2 => hframes ▸ h.open_ h1 h2, fun frame hm => ?_, h.drained, ?_⟩
    · rw [hframes]
      exact h.flow
    · rw [List.dropLast_concat] at hm
      exact h.open_ (by rw [hpc]; decide) (by rw [hpc]; decide) frame (mem_frames.2 hm)
    · simpa using h.noClose
  · exact h.returns (hand_of_ne_writing fun frame => by rw [hpc]; simp)

theorem Follows.writeFrame (h : w.Follows conn) {frame : WsFrame} (hpc : w.pc = .writing frame)
    (delivered : Bool) : (w.writeFrame frame delivered).Follows conn := by
  have hhand : w.hand = [frame] := by rw [hand, hpc]
  have hfailed : w.failed = none := h.running (by rw [hpc]; simp)
  have hopen := h.open_ (by rw [hpc]; simp) (by rw [hpc]; simp)
  unfold Writer.writeFrame
  by_cases hd : delivered = true
  · rw [if_pos hd]
    have hpc' : (if frame.closeAfter then WriterPc.closing else .select) = .closing
        ∧ frame.closeAfter = true
        ∨ (if frame.closeAfter then WriterPc.closing else .select) = .select
        ∧ frame.closeAfter = false := by
      cases frame.closeAfter <;> simp
    generalize (if frame.closeAfter then WriterPc.closing else .select) = pc at hpc'
    have hframes : ({ w with written := w.written ++ [.frame frame], pc } : Writer).frames
        = w.frames ++ [frame] := by
      simp [frames]
    have hhand' : ({ w with written := w.written ++ [.frame frame], pc } : Writer).hand = [] := by
      rcases hpc' with ⟨rfl, -⟩ | ⟨rfl, -⟩ <;> exact congrArg Option.toList hfailed
    refine ⟨?_, fun _ => hfailed, fun hne _ f hf => ?_, fun f hf => ?_, fun hc => ?_, ?_⟩
    · rw [hframes, hhand', h.flow, hhand, List.append_nil]
    · rw [hframes] at hf
      rcases List.mem_append.1 hf with hf | hf
      · exact hopen f hf
      · obtain rfl : f = frame := by simpa using hf
        exact (hpc'.resolve_left fun h => hne h.1).2
    · rw [List.dropLast_concat] at hf
      exact hopen f (mem_frames.2 hf)
    · rcases hpc' with ⟨rfl, -⟩ | ⟨rfl, -⟩ <;> cases hc
    · simpa using h.noClose
  · rw [if_neg hd]
    exact h.returns hhand

/-- The queue is closed, so the socket is, and the close message is not written. -/
theorem Follows.writeClose (h : w.Follows conn) (hpc : w.pc = .closeMessage) (ok : Bool) :
    (w.writeClose (conn.delivers ok)).Follows conn := by
  have hdelivers : conn.delivers ok = false := by simp [Conn.delivers, h.drained hpc]
  rw [Writer.writeClose, hdelivers]
  exact h.returns (hand_of_ne_writing fun frame => by rw [hpc]; simp)

end Writer

namespace Pumps

variable {s s' : Pumps}

/-- What a step does. -/
inductive Moves (s : Pumps) : PumpLabel → Pumps → Prop
  | server (l : Label) (server : Server) (hl : ∀ c, l ≠ .write c) (hs : s.server.step l = some server) :
      Moves s (.server l) { s with server }
  | start (c : ℕ) (conn : Conn) (hc : s.server.conns[c]? = some conn) (hpc : (s.writers c).pc = .idle) :
      Moves s (.start c) (s.setWriter c ((s.writers c).setPc .select))
  | take (c : ℕ) (conn : Conn) (frame : WsFrame) (rest : List WsFrame) (server : Server)
      (hc : s.server.conns[c]? = some conn) (hpc : (s.writers c).pc = .select)
      (hsend : conn.send = frame :: rest) (hs : s.server.step (.write c) = some server) :
      Moves s (.take c) ({ s with server }.setWriter c ((s.writers c).setPc (.writing frame)))
  | closed (c : ℕ) (conn : Conn) (hc : s.server.conns[c]? = some conn)
      (hpc : (s.writers c).pc = .select) (hsend : conn.send = []) (hclosed : conn.closed = true) :
      Moves s (.take c) (s.setWriter c ((s.writers c).setPc .closeMessage))
  | tick (c : ℕ) (conn : Conn) (ok : Bool) (hc : s.server.conns[c]? = some conn)
      (hpc : (s.writers c).pc = .select) :
      Moves s (.tick c ok) (s.setWriter c ((s.writers c).writePing (conn.delivers ok)))
  | writeFrame (c : ℕ) (conn : Conn) (ok : Bool) (frame : WsFrame) (hc : s.server.conns[c]? = some conn)
      (hpc : (s.writers c).pc = .writing frame) :
      Moves s (.write c ok) (s.setWriter c ((s.writers c).writeFrame frame (conn.delivers ok)))
  | writeClose (c : ℕ) (conn : Conn) (ok : Bool) (hc : s.server.conns[c]? = some conn)
      (hpc : (s.writers c).pc = .closeMessage) :
      Moves s (.write c ok) (s.setWriter c ((s.writers c).writeClose (conn.delivers ok)))
  | closing (c : ℕ) (conn : Conn) (ok : Bool) (hc : s.server.conns[c]? = some conn)
      (hpc : (s.writers c).pc = .closing) :
      Moves s (.write c ok) (s.setWriter c ((s.writers c).setPc .returned))

theorem take_moves {c : ℕ} {conn : Conn} (hc : s.server.conns[c]? = some conn)
    (h : s.take c conn = some s') : s.Moves (.take c) s' := by
  unfold Pumps.take at h
  by_cases hpc : (s.writers c).pc = .select
  · rw [if_pos hpc] at h
    rcases hsend : conn.send with _ | ⟨frame, rest⟩ <;> rw [hsend] at h
    · by_cases hclosed : conn.closed = true
      · cases (if_pos hclosed).symm.trans h
        exact .closed c conn hc hpc hsend hclosed
      · cases (if_neg hclosed).symm.trans h
    · obtain ⟨server, hs, rfl⟩ := Option.map_eq_some_iff.1 h
      exact .take c conn frame rest server hc hpc hsend hs
  · cases (if_neg hpc).symm.trans h

theorem server_moves {l : Label} (h : s.step (.server l) = some s') : s.Moves (.server l) s' := by
  have hl : ∀ c, l ≠ .write c := by
    rintro c rfl
    cases h
  have hmap : s.step (.server l) = (s.server.step l).map fun server => { s with server } := by
    cases l <;> first | rfl | exact absurd rfl (hl _)
  rw [hmap] at h
  obtain ⟨server, hs, rfl⟩ := Option.map_eq_some_iff.1 h
  exact .server l server hl hs

theorem step_moves {l : PumpLabel} (h : s.step l = some s') : s.Moves l s' := by
  cases l with
  | server l => exact server_moves h
  | start c =>
    obtain ⟨conn, hc, h⟩ := Option.bind_eq_some_iff.1 h
    unfold startWriter at h
    split_ifs at h with hif
    cases h
    exact .start c conn hc hif.1
  | take c =>
    obtain ⟨conn, hc, h⟩ := Option.bind_eq_some_iff.1 h
    exact take_moves hc h
  | tick c ok =>
    obtain ⟨conn, hc, h⟩ := Option.bind_eq_some_iff.1 h
    unfold tick at h
    split_ifs at h with hpc
    cases h
    exact .tick c conn ok hc hpc
  | write c ok =>
    obtain ⟨conn, hc, h⟩ := Option.bind_eq_some_iff.1 h
    unfold write at h
    split at h
    · cases h
      exact .writeFrame c conn ok _ hc ‹_›
    · cases h
      exact .writeClose c conn ok hc ‹_›
    · cases h
      exact .closing c conn ok hc ‹_›
    · cases h

structure Inv (s : Pumps) : Prop where
  fresh : ∀ c, s.server.conns[c]? = none → s.writers c = {}
  follows : ∀ c conn, s.server.conns[c]? = some conn → (s.writers c).Follows conn

theorem Inv.grows (h : s.Inv) {server : Server} (hg : s.server.Grows server) :
    ({ s with server } : Pumps).Inv where
  fresh c hc := by
    refine h.fresh c ?_
    rcases hc' : s.server.conns[c]? with _ | conn
    · rfl
    · obtain ⟨conn', hconn', -⟩ := hg.kept c conn hc'
      cases hc.symm.trans hconn'
  follows c conn' hc' := by
    rcases hc : s.server.conns[c]? with _ | conn
    · obtain ⟨hsend, haccepted⟩ := hg.fresh c conn' hc hc'
      show (s.writers c).Follows conn'
      rw [h.fresh c hc]
      exact .new hsend haccepted
    · obtain ⟨conn'', hconn'', hgrows⟩ := hg.kept c conn hc
      cases hc'.symm.trans hconn''
      exact (h.follows c conn hc).grows hgrows

/-- A step of one write pump. -/
theorem Inv.setWriter (h : s.Inv) {c : ℕ} {conn : Conn} (hc : s.server.conns[c]? = some conn) {w : Writer}
    (hw : w.Follows conn) : (s.setWriter c w).Inv where
  fresh t ht := by
    have hne : t ≠ c := by
      rintro rfl
      cases hc.symm.trans ht
    exact (Function.update_of_ne hne w s.writers).trans (h.fresh t ht)
  follows t conn' ht := by
    by_cases hne : t = c
    · subst hne
      cases hc.symm.trans ht
      show (Function.update s.writers t w t).Follows conn
      rw [Function.update_self]
      exact hw
    · show (Function.update s.writers c w t).Follows conn'
      rw [Function.update_of_ne hne]
      exact h.follows t conn' ht

/-- The frame leaves the queue of `c`, and nothing happens to the others. -/
theorem Inv.take (h : s.Inv) {c : ℕ} {conn : Conn} (hc : s.server.conns[c]? = some conn)
    (hpc : (s.writers c).pc = .select) {frame : WsFrame} {rest : List WsFrame}
    (hsend : conn.send = frame :: rest) {server : Server} (hs : s.server.step (.write c) = some server) :
    ({ s with server }.setWriter c ((s.writers c).setPc (.writing frame))).Inv := by
  cases hs
  have hconns := s.server.modify_conns c
  refine ⟨fun t ht => ?_, fun t conn' ht => ?_⟩
  · have hnone := Option.map_eq_none_iff.1 ((hconns t _).symm.trans ht)
    have hne : t ≠ c := by
      rintro rfl
      cases hc.symm.trans hnone
    exact (Function.update_of_ne hne _ s.writers).trans (h.fresh t hnone)
  · obtain ⟨conn₀, hsome, rfl⟩ := Option.map_eq_some_iff.1 ((hconns t _).symm.trans ht)
    show (Function.update s.writers c _ t).Follows _
    by_cases hne : t = c
    · subst hne
      cases hc.symm.trans hsome
      rw [Function.update_self, if_pos rfl, hsend]
      exact (h.follows t conn hc).take hpc hsend
    · rw [Function.update_of_ne hne, if_neg fun heq => hne heq.symm]
      exact h.follows t conn₀ hsome

theorem Inv.step (h : s.Inv) {l : PumpLabel} (hstep : s.step l = some s') : s'.Inv := by
  cases step_moves hstep with
  | server l server hl hs => exact h.grows (.step hl hs)
  | start c conn hc hpc =>
    exact h.setWriter hc ((h.follows c conn hc).setPc (.inl hpc) (.inl rfl) (by simp))
  | take c conn frame rest server hc hpc hsend hs => exact h.take hc hpc hsend hs
  | closed c conn hc hpc hsend hclosed =>
    exact h.setWriter hc ((h.follows c conn hc).setPc (.inr hpc) (.inr rfl) fun _ => hclosed)
  | tick c conn ok hc hpc => exact h.setWriter hc ((h.follows c conn hc).writePing hpc _)
  | writeFrame c conn ok frame hc hpc => exact h.setWriter hc ((h.follows c conn hc).writeFrame hpc _)
  | writeClose c conn ok hc hpc => exact h.setWriter hc ((h.follows c conn hc).writeClose hpc ok)
  | closing c conn ok hc hpc =>
    have hhand := Writer.hand_of_ne_writing (w := s.writers c) fun frame => by rw [hpc]; simp
    exact h.setWriter hc ((h.follows c conn hc).returns hhand)

open Server (plainStep connecting devicesAB)

end Pumps

end Relayly.Relay
