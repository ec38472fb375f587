import Relayly.Lib.Run
import Relayly.Relay.Frame

/-!
# Frames that are ignored

A frame of an unknown type is ignored if it is decoded at all, and if no member that is named `type`
up to case gives it another type. So a field that some later version of the protocol gives another
type, or a value that is nested too deep, is answered by an error.
-/

namespace Relayly.Relay

open GoJson

def knownTypes : List String := ["announce_key", "pair_request", "pair_accept", "unpair", "ping"]

lemma ControlMessage.inbound_eq_unknown {msg : ControlMessage} :
    msg.inbound = .unknown ↔ msg.type ∉ knownTypes := by
  unfold ControlMessage.inbound knownTypes
  split_ifs <;> simp_all

/-- What has to hold for an object to be taken as a frame of unknown type: the type is the last one
that is given under a key that is `type` up to case. -/
structure Passes (members : List (String × Document)) : Prop where
  depth : (Json.obj members).depth ≤ maxNestingDepth
  fits : ∀ m ∈ members, fitsControl m = true
  unknown : stringField controlNames "type" members ∉ knownTypes

lemma inbound_obj_eq_unknown {members : List (String × Document)} :
    inbound (some (.obj members)) = .unknown ↔ Passes members := by
  have hunmarshal : unmarshalControl (.obj members) =
      if maxNestingDepth < (Json.obj members).depth then none
      else if members.all fitsControl then some (decodeControl members) else none := rfl
  rw [inbound, Option.bind_some, hunmarshal]
  split_ifs with hdepth hfits
  · simp only [false_iff]
    exact fun h => absurd h.depth (not_le.mpr hdepth)
  · rw [ControlMessage.inbound_eq_unknown]
    constructor
    · intro h
      exact ⟨not_lt.mp hdepth, fun m hm => List.all_eq_true.mp hfits m hm, h⟩
    · intro h
      exact h.unknown
  · simp only [false_iff]
    exact fun h => hfits (List.all_eq_true.mpr h.fits)

lemma inbound_ne_binary (frame : Option Document) (payload : Bytes) :
    inbound frame ≠ .binary payload := by
  unfold inbound
  split
  · simp
  · unfold ControlMessage.inbound
    split_ifs <;> simp

/-! ## What the server does -/

/-- The goroutine of connection `c` waits for a frame. -/
def Server.Reads (s : Server) (c : ℕ) : Prop := s.conns[c]?.map Conn.pc = some .reading

/-- No run of `handleControl` on the frame, in whatever state of the server and whatever the
handlers find outside, has changed anything or enqueued a frame when it returns. -/
def Ignored (frame : Option Document) : Prop :=
  ∀ (s t : Server) (c : ℕ) (envs : List Env), s.Reads c →
    Lts.run Server.step s (.receive c (inbound frame) :: envs.map (.handler c)) = some t →
    t.Reads c → t = s

lemma Server.Reads.exists_conn {s : Server} {c : ℕ} (h : s.Reads c) :
    ∃ conn, s.conns[c]? = some conn ∧ conn.pc = .reading := by
  obtain ⟨conn, hconn, hpc⟩ := Option.map_eq_some_iff.mp h
  exact ⟨conn, hconn, hpc⟩

/-- A frame of unknown type is read, and that is all. -/
lemma Server.Reads.receive_unknown {s : Server} {c : ℕ} (h : s.Reads c) :
    s.step (.receive c .unknown) = some s := by
  obtain ⟨conn, hconn, hpc⟩ := h.exists_conn
  have hself : s.conns.modify c (Conn.setPc .reading) = s.conns := by
    refine List.ext_getElem? fun i => ?_
    rw [List.getElem?_modify]
    by_cases hi : c = i
    · subst hi
      obtain ⟨deviceID, pairedWith, send, closed, pc, accepted⟩ := conn
      cases hpc
      simp [hconn, Conn.setPc]
    · simp [hi]
  simp only [Server.step, Server.read, hconn, hpc, if_true, dispatch, Server.modify, hself]

lemma ignored_of_unknown {frame : Option Document} (h : inbound frame = .unknown) :
    Ignored frame := by
  intro s t c envs hreads hrun _
  rw [h] at hrun
  obtain ⟨s', hstep, hrest⟩ := Lts.run_cons_eq_some.1 hrun
  obtain rfl : s = s' := Option.some.inj (hreads.receive_unknown.symm.trans hstep)
  cases envs with
  | nil => exact (Option.some.inj hrest).symm
  | cons env envs =>
    -- there is no handler to run
    exfalso
    obtain ⟨s', hstep', -⟩ := Lts.run_cons_eq_some.1 hrest
    obtain ⟨conn, hconn, hpc⟩ := hreads.exists_conn
    simp [Server.step, Server.runHandler, hconn, exec, hpc] at hstep'

/-- A server with one connection, which reads and takes frames. -/
def oneReader : Server where
  devices := fun _ => none
  pairCodes := fun _ => none
  conns := [{ deviceID := "a", pairedWith := "", pc := .reading }]

/-- The database fails, and no code can be drawn. -/
def noLuck : Env where
  now := 0
  fault := true
  code := none

/-- Every other frame is answered there. -/
lemma exists_answer {frame : Inbound} (hunknown : frame ≠ .unknown)
    (hbinary : ∀ payload, frame ≠ .binary payload) :
    ∃ (n : ℕ) (answer : WsFrame),
      Lts.run Server.step oneReader
        (.receive 0 frame :: (List.replicate n noLuck).map (.handler 0)) =
          some (oneReader.modify 0 (Conn.enqueue answer)) := by
  cases frame with
  | malformed => exact ⟨1, _, rfl⟩
  | announceKey staticKey =>
    by_cases hkey : staticKey = ""
    · subst hkey
      exact ⟨1, _, rfl⟩
    · refine ⟨2, textFrame (.reply (.error "internal" "internal error")), ?_⟩
      have hdispatch : dispatch 0 (.announceKey staticKey) = .announceKey staticKey := if_neg hkey
      rw [Lts.run_cons, Server.step, hdispatch]
      rfl
  | pairRequest => exact ⟨2, _, rfl⟩
  | pairAccept code =>
    by_cases hcode : code = ""
    · subst hcode
      exact ⟨1, _, rfl⟩
    · refine ⟨2, textFrame (.reply (.error "invalid_code" "unknown pairing code")), ?_⟩
      have hdispatch : dispatch 0 (.pairAccept code) = .pairAccept (.take code) := if_neg hcode
      rw [Lts.run_cons, Server.step, hdispatch]
      rfl
  | unpair => exact ⟨3, _, rfl⟩
  | ping => exact ⟨1, _, rfl⟩
  | unknown => exact absurd rfl hunknown
  | binary payload => exact absurd rfl (hbinary payload)

lemma unknown_of_ignored {frame : Option Document} (h : Ignored frame) :
    inbound frame = .unknown := by
  by_contra hunknown
  obtain ⟨n, answer, hrun⟩ := exists_answer hunknown (inbound_ne_binary frame)
  have hsame := h oneReader _ 0 (List.replicate n noLuck) rfl hrun rfl
  have := congrArg (fun s => s.conns.map Conn.accepted) hsame
  simp [oneReader, Server.modify, Conn.enqueue, Conn.accepts, sendBufferSize] at this

/-- A JSON object is ignored exactly if it is not nested too deep, every value under a name of a
field fits the field, and the last type it gives is none that is handled. -/
theorem ignored_iff_passes (members : List (String × Document)) :
    Ignored (some (.obj members)) ↔ Passes members := by
  rw [← inbound_obj_eq_unknown]
  exact ⟨unknown_of_ignored, ignored_of_unknown⟩

/-- Two frames of unknown type that are answered: by an error for the type of a field, and by a pong
for another spelling of `type`. -/
theorem unknown_type_answered :
    (Lts.run Server.step oneReader
        [.receive 0 (inbound (some (.obj [("type", .str "status"), ("online", .str "yes")]))),
          .handler 0 noLuck]).map (fun s => s.conns.map Conn.send)
        = some [[textFrame (.reply (.error "malformed" "invalid JSON control frame"))]] ∧
      (Lts.run Server.step oneReader
        [.receive 0 (inbound (some (.obj [("type", .str "status"), ("Type", .str "ping")]))),
          .handler 0 noLuck]).map (fun s => s.conns.map Conn.send)
        = some [[textFrame (.reply .pong)]] := by
  decide +kernel

end Relayly.Relay
