import Relayly.ControlFrames
import Relayly.Lib.Run
import Relayly.Proofs.RelayPresence
import Relayly.Proofs.WireMessage

/-!
# The relay and the C++ client read each other's frames

`omitempty` leaves out a field that is empty, and the client takes a field that is missing as empty,
so it reads every field as it was (`decode_marshal`). It would take the version modulo `2 ^ 32`, and
of a number with a sign nothing is known; what the relay sends on any run has neither
(`accepted_decoded`). In the other direction a frame with a number of more than 63 bits would be
refused as a whole, and what the client sends has none (`inbound_encode`).
-/

namespace Relayly

open GoJson (NumberText)
open Sdk.Cpp (WireMessage WirePeer)

namespace Sdk.Cpp.WireMessage

/-- The message has the fields of the struct, where one that is missing stands for an empty one. -/
structure Reads (w : WireMessage) (m : Relay.OutMessage) : Prop where
  type : w.type = m.type
  protocolVersion : ((w.protocolVersion.getD 0).toNat : ℤ) = m.protocolVersion
  deviceID : w.deviceID.getD "" = m.deviceID
  peers : (w.peers.getD []).map (fun p => (⟨p.id, p.staticKey⟩ : Relay.PeerInfo)) = m.peers
  staticKey : w.staticKey.getD "" = m.staticKey
  code : w.code.getD "" = m.code
  expiresIn : ((w.expiresIn.getD 0).toNat : ℤ) = m.expiresIn
  peerID : w.peerID.getD "" = m.peerID
  peerStaticKey : w.peerStaticKey.getD "" = m.peerStaticKey
  online : w.online = m.online
  message : w.message.getD "" = m.message

end Sdk.Cpp.WireMessage

/-! ## What the relay writes -/

namespace Relay.OutMessage

open Sdk.Cpp.WireMessage

variable (read : NumberText → Sdk.Cpp.Number) (m : OutMessage)

/-- The numbers are ones that the client has room for. -/
structure InRange (m : OutMessage) : Prop where
  protocolVersion : 0 ≤ m.protocolVersion ∧ m.protocolVersion < 4294967296
  expiresIn : 0 ≤ m.expiresIn ∧ m.expiresIn ≤ GoJson.maxInt

lemma nodup_fields : (m.fields.map (·.1)).Nodup := by
  show ["type", "protocol_version", "device_id", "peers", "static_key", "code", "expires_in",
    "peer_id", "peer_static_key", "online", "message"].Nodup
  decide

/-- The map that `json::parse` makes of the frame. -/
def parsed : List (String × Sdk.Cpp.Document) :=
  Json.assignAll (Json.toMapsMembers (Json.mapMembers read (Json.members m.fields)))

lemma toMaps_marshal : (m.marshal.map read).toMaps = .obj (m.parsed read) := by
  simp only [marshal, Json.map, Json.toMaps, parsed]

/-- Each field is found in the map, as `json::parse` reads its value. -/
lemma lookup_parsed (key : String) {v : Option GoJson.Document} (h : (key, v) ∈ m.fields) :
    (m.parsed read).lookup key = v.map fun v => (v.map read).toMaps := by
  have hnodup : ((Json.mapMembers read (Json.members m.fields)).map (·.1)).Nodup := by
    rw [Json.mapMembers_eq, List.map_map]
    exact m.nodup_fields.sublist (Json.keys_members_sublist m.fields)
  rw [parsed, Json.lookup_toMaps hnodup, Json.mapMembers_eq,
    Json.lookup_map_snd (fun v : GoJson.Document => v.map _), Json.lookup_members m.nodup_fields h,
    Option.map_map]
  rfl

lemma stringAt_parsed {key s : String} (h : (key, (omitString s).map .str) ∈ m.fields) :
    (stringAt (m.parsed read) key).getD "" = s := by
  have hlookup := m.lookup_parsed read _ h
  rw [Option.map_map] at hlookup
  rw [stringAt_of_lookup (o := omitString s) (hlookup.trans (by cases omitString s <;> rfl))]
  unfold omitString
  split_ifs with hs
  · exact hs.symm
  · rfl

variable {read} in
lemma unsignedAt_parsed (hread : ∀ n : UInt64, read (.integer n.toNat) = .unsigned n) {key : String}
    {n : ℤ} (hn : 0 ≤ n ∧ n ≤ 18446744073709551615) (h : (key, (omitInt n).map fun n => .num (.integer n)) ∈ m.fields) :
    ((unsignedAt (m.parsed read) key).getD 0).toNat = n := by
  have hlookup := m.lookup_parsed read _ h
  unfold omitInt at hlookup
  split_ifs at hlookup with hzero
  · rw [unsignedAt_of_lookup (o := none) hlookup]
    exact hzero.symm
  · have hnat : ((UInt64.ofNat n.toNat).toNat : ℤ) = n := by
      rw [UInt64.toNat_ofNat']
      omega
    have hunsigned : read (.integer n) = .unsigned (UInt64.ofNat n.toNat) := by
      rw [← hread, hnat]
    rw [unsignedAt_of_lookup (o := some (UInt64.ofNat n.toNat)) (hlookup.trans (by
      simp [Json.map, Json.toMaps, hunsigned]))]
    exact hnat

lemma boolAt_parsed : boolAt (m.parsed read) "online" = m.online := by
  have hlookup := m.lookup_parsed read "online" (v := m.online.map .bool) (by simp [fields])
  rw [Option.map_map] at hlookup
  exact boolAt_of_lookup (hlookup.trans (by cases m.online <;> rfl))

/-- An entry of `peers` is read as the peer it was written for. -/
lemma isPeer_marshalPeer (p : PeerInfo) :
    IsPeer ⟨p.id, p.staticKey⟩ ((marshalPeer p).map read).toMaps := by
  have hnodup : ((Json.mapMembers read
      [("id", .str p.id), ("static_key", .str p.staticKey)]).map (·.1)).Nodup := by
    rw [Json.mapMembers_eq]
    show ["id", "static_key"].Nodup
    decide
  refine ⟨_, by rw [marshalPeer, Json.map, Json.toMaps], ?_, ?_⟩ <;>
    rw [Json.lookup_toMaps hnodup] <;> rfl

lemma peersAt_parsed : ∃ peers, peersAt (m.parsed read) = .ok peers ∧
    (peers.getD []).map (fun p : WirePeer => (⟨p.id, p.staticKey⟩ : PeerInfo)) = m.peers := by
  have hlookup := m.lookup_parsed read "peers"
    (v := (omitPeers m.peers).map fun peers => .arr (peers.map marshalPeer)) (by simp [fields])
  unfold omitPeers at hlookup
  split_ifs at hlookup with hnil
  · refine ⟨none, ?_, hnil.symm⟩
    rw [peersAt, hlookup]
    rfl
  · have hentries : List.Forall₂ IsPeer
        (m.peers.map fun p => (⟨p.id, p.staticKey⟩ : WirePeer))
        (m.peers.map fun p => ((marshalPeer p).map read).toMaps) := by
      rw [List.forall₂_map_left_iff, List.forall₂_map_right_iff, List.forall₂_same]
      exact fun p _ => isPeer_marshalPeer read p
    have harr : (m.parsed read).lookup "peers" = some (.arr
        (m.peers.map fun p => ((marshalPeer p).map read).toMaps)) := by
      rw [hlookup]
      simp [Json.map, Json.toMaps, Json.mapElems_eq, Json.toMapsElems_eq, Function.comp_def]
    refine ⟨some (m.peers.map fun p => ⟨p.id, p.staticKey⟩), ?_, ?_⟩
    · rw [peersAt, harr]
      simp only [decodePeers_of_isPeer hentries]
      rfl
    · rw [Option.getD_some, List.map_map]
      exact List.map_id m.peers

variable {m} {read} {Text : Type} {print : GoJson.Document → Text}
  {parse : Text → Option Sdk.Cpp.Document}

/-- The client reads every field of a frame as it was filled in. -/
theorem decode_marshal (hlib : Sdk.Cpp.ParsesFrames print parse read) (hm : m.InRange) :
    ∃ w, WireMessage.decode parse (print m.marshal) = .ok (some w) ∧ w.Reads m := by
  obtain ⟨peers, hpeers, hread⟩ := m.peersAt_parsed read
  have htype : (m.parsed read).lookup "type" = some (.str m.type) :=
    m.lookup_parsed read "type" (v := some (.str m.type)) (by simp [fields])
  have hversion : ((unsignedAt (m.parsed read) "protocol_version").getD 0).toNat =
      m.protocolVersion :=
    m.unsignedAt_parsed hlib.unsigned (by have := hm.protocolVersion; omega) (by simp [fields])
  have hexpires : ((unsignedAt (m.parsed read) "expires_in").getD 0).toNat = m.expiresIn := by
    refine m.unsignedAt_parsed hlib.unsigned ?_ (by simp [fields])
    have := hm.expiresIn
    unfold GoJson.maxInt at this
    omega
  refine ⟨{
    type := m.type
    protocolVersion := (unsignedAt (m.parsed read) "protocol_version").map UInt64.toUInt32
    deviceID := stringAt (m.parsed read) "device_id"
    peers
    staticKey := stringAt (m.parsed read) "static_key"
    code := stringAt (m.parsed read) "code"
    expiresIn := unsignedAt (m.parsed read) "expires_in"
    peerID := stringAt (m.parsed read) "peer_id"
    peerStaticKey := stringAt (m.parsed read) "peer_static_key"
    online := boolAt (m.parsed read) "online"
    message := stringAt (m.parsed read) "message" }, ?_, ?_⟩
  · rw [WireMessage.decode, hlib.frame, toMaps_marshal]
    simp only [htype, decodeMembers, hpeers]
    rfl
  · exact {
      type := rfl
      protocolVersion := by
        have hlt := hm.protocolVersion.2
        cases hv : unsignedAt (m.parsed read) "protocol_version" with
        | none =>
          rw [hv] at hversion
          exact hversion
        | some n =>
          rw [hv] at hversion
          simp only [Option.map_some, Option.getD_some, UInt64.toNat_toUInt32] at hversion ⊢
          omega
      deviceID := m.stringAt_parsed read (by simp [fields])
      peers := hread
      staticKey := m.stringAt_parsed read (by simp [fields])
      code := m.stringAt_parsed read (by simp [fields])
      expiresIn := hexpires
      peerID := m.stringAt_parsed read (by simp [fields])
      peerStaticKey := m.stringAt_parsed read (by simp [fields])
      online := m.boolAt_parsed read
      message := m.stringAt_parsed read (by simp [fields]) }

end Relay.OutMessage

/-! ## What the relay sends on a run -/

namespace Relay

def Reply.Fits : Reply → Prop
  | .pairCode _ expiresIn => expiresIn = pairingCodeTTL / 1000000000
  | _ => True

/-- The numbers are the version of the protocol, and how long a code is good for. -/
def Control.Fits : Control → Prop
  | .welcome version _ _ => version = protocolVersion
  | .peerStatus .. => True
  | .reply msg => msg.Fits

def WsFrame.Fits (frame : WsFrame) : Prop := ∀ msg, frame.data = .text msg → msg.Fits

def Pc.Fits : Pc → Prop
  | .sendJSON _ msg => msg.Fits
  | _ => True

def Access.Fits (a : Access) : Prop := ∀ t frame, a = .enqueue t frame → frame.Fits

lemma Control.Fits.inRange {msg : Control} (h : msg.Fits) : msg.message.InRange := by
  cases msg with
  | welcome version deviceID peers =>
    cases h
    constructor <;> simp [message, protocolVersion, GoJson.maxInt]
  | peerStatus peerID online => constructor <;> simp [message, GoJson.maxInt]
  | reply msg =>
    cases msg with
    | pairCode code expiresIn =>
      cases h
      constructor <;> simp [message, pairingCodeTTL, GoJson.maxInt]
    | _ => constructor <;> simp [message, GoJson.maxInt]

section Exec

variable {s : Server} {c : ℕ} {conn : Conn} {env : Env}

lemma Access.Fits.text {t : ℕ} {msg : Control} {closeAfter : Bool} (h : msg.Fits) :
    (Access.enqueue t { data := .text msg, closeAfter }).Fits := by
  rintro t' frame heq msg' hmsg
  cases heq
  cases hmsg
  exact h

lemma Access.Fits.quiet {a : Access} (h : a.enqueued = Option.none) : a.Fits :=
  fun t frame heq => absurd heq (a.ne_enqueue h t frame)

lemma sendWelcome_fits (next : Welcome) :
    (sendWelcome s c conn env next).1.Fits ∧ (sendWelcome s c conn env next).2.Fits := by
  cases next with
  | staticKey peer => exact ⟨.quiet rfl, trivial⟩
  | welcome peers peer =>
    refine ⟨.text rfl, ?_⟩
    cases peer <;> trivial
  | lookup peer => exact ⟨.quiet rfl, trivial⟩
  | status peer online => exact ⟨.text trivial, trivial⟩

lemma handleAnnounceKey_fits (key : String) :
    (handleAnnounceKey s c conn env key).1.Fits ∧ (handleAnnounceKey s c conn env key).2.Fits := by
  unfold handleAnnounceKey
  split <;> exact ⟨.quiet rfl, trivial⟩

lemma handlePairRequest_fits :
    (handlePairRequest s c conn env).1.Fits ∧ (handlePairRequest s c conn env).2.Fits := by
  unfold handlePairRequest
  split
  · exact ⟨.quiet rfl, trivial⟩
  · exact ⟨.quiet rfl, rfl⟩

lemma handlePairAccept_fits (next : PairAccept) :
    (handlePairAccept s c conn env next).1.Fits ∧ (handlePairAccept s c conn env next).2.Fits := by
  cases next with
  | take code =>
    refine ⟨.quiet rfl, ?_⟩
    simp only [handlePairAccept]
    split
    · trivial
    · trivial
    · split_ifs <;> trivial
  | pairDevices code requesterID =>
    simp only [handlePairAccept]
    split <;> exact ⟨.quiet rfl, trivial⟩
  | complete code requesterID myKey requesterKey => exact ⟨.text trivial, trivial⟩
  | lookup code requesterID myKey =>
    refine ⟨.quiet rfl, ?_⟩
    simp only [handlePairAccept]
    split <;> trivial
  | _ => exact ⟨.quiet rfl, trivial⟩

lemma handleUnpair_fits (next : Unpair) :
    (handleUnpair s c conn env next).1.Fits ∧ (handleUnpair s c conn env next).2.Fits := by
  cases next with
  | unpairDevice peerID =>
    simp only [handleUnpair]
    split_ifs <;> exact ⟨.quiet rfl, trivial⟩
  | unpaired peerID =>
    refine ⟨.text trivial, ?_⟩
    simp only [handleUnpair]
    split_ifs <;> trivial
  | lookup peerID =>
    refine ⟨.quiet rfl, ?_⟩
    simp only [handleUnpair]
    split <;> trivial
  | _ => exact ⟨.quiet rfl, trivial⟩

lemma route_fits {next : Route} {x : Access × Pc} (hx : route s conn next = some x) :
    x.1.Fits ∧ x.2.Fits := by
  cases next with
  | peer payload =>
    obtain rfl := Option.some.inj hx
    refine ⟨.quiet rfl, ?_⟩
    dsimp only
    split_ifs <;> trivial
  | lookup peerID payload =>
    obtain rfl := Option.some.inj hx
    refine ⟨.quiet rfl, ?_⟩
    dsimp only
    split <;> trivial
  | enqueue peer payload =>
    obtain rfl := Option.some.inj hx
    refine ⟨?_, ?_⟩
    · rintro t frame heq msg hmsg
      cases heq
      cases hmsg
    · dsimp only
      split_ifs <;> trivial
  | close peer =>
    obtain rfl := Option.some.inj hx
    exact ⟨.quiet rfl, trivial⟩
  | unregister peer =>
    simp only [route] at hx
    split_ifs at hx
    obtain rfl := Option.some.inj hx
    exact ⟨.quiet rfl, trivial⟩

lemma exec_fits {x : Access × Pc} (hx : exec s c conn env = some x) (hpc : conn.pc.Fits) :
    x.1.Fits ∧ x.2.Fits := by
  unfold exec at hx
  split at hx
  · split_ifs at hx
    obtain rfl := Option.some.inj hx
    refine ⟨.quiet rfl, ?_⟩
    dsimp only [startWelcome]
    split <;> trivial
  · exact Option.some.inj hx ▸ sendWelcome_fits _
  · cases hx
  · exact Option.some.inj hx ▸ handleAnnounceKey_fits _
  · exact Option.some.inj hx ▸ handlePairRequest_fits
  · exact Option.some.inj hx ▸ handlePairAccept_fits _
  · exact Option.some.inj hx ▸ handleUnpair_fits _
  · exact route_fits hx
  · next dest msg h =>
    obtain rfl := Option.some.inj hx
    rw [h] at hpc
    exact ⟨.text hpc, trivial⟩
  · obtain rfl := Option.some.inj hx
    refine ⟨.text trivial, ?_⟩
    dsimp only
    split_ifs <;> trivial
  · exact Option.some.inj hx ▸ ⟨.quiet rfl, trivial⟩
  · split_ifs at hx
    exact Option.some.inj hx ▸ ⟨.quiet rfl, trivial⟩
  · exact Option.some.inj hx ▸ ⟨.quiet rfl, trivial⟩
  · cases hx

lemma dispatch_fits (frame : Inbound) : (dispatch c frame).Fits := by
  cases frame <;> simp only [dispatch] <;> (try split_ifs) <;> trivial

end Exec

/-- All that a connection has taken fits, and what its goroutine is about to send. -/
structure Conn.Fits (conn : Conn) : Prop where
  accepted : ∀ frame ∈ conn.accepted, frame.Fits
  pc : conn.pc.Fits

namespace Conn.Fits

variable {conn : Conn}

lemma enqueue (h : conn.Fits) {frame : WsFrame} (hframe : frame.Fits) : (conn.enqueue frame).Fits := by
  refine ⟨?_, by rw [conn.enqueue_pc]; exact h.pc⟩
  unfold Conn.enqueue
  split_ifs
  · intro f hf
    rcases List.mem_append.1 hf with hf | hf
    · exact h.accepted f hf
    · rw [List.mem_singleton.1 hf]
      exact hframe
  · exact h.accepted

lemma on (h : conn.Fits) {a : Access} (ha : a.Fits) (c : ℕ) : (a.on c conn).Fits := by
  cases a with
  | enqueue t frame =>
    simp only [Access.on]
    split_ifs
    · exact h.enqueue (ha t frame rfl)
    · exact h
  | setPeer t id =>
    simp only [Access.on]
    split_ifs <;> exact ⟨h.accepted, h.pc⟩
  | close t =>
    simp only [Access.on]
    split_ifs <;> exact ⟨h.accepted, h.pc⟩
  | _ => exact h

end Conn.Fits

namespace Server

variable {s s' : Server} {c : ℕ} {l : Label}

def Fits (s : Server) : Prop := ∀ (c : ℕ) (conn : Conn), s.conns[c]? = some conn → conn.Fits

lemma Fits.modify (h : s.Fits) (t : ℕ) {f : Conn → Conn} (hf : ∀ conn, conn.Fits → (f conn).Fits) :
    (s.modify t f).Fits := by
  intro c conn hc
  rw [modify_conns] at hc
  obtain ⟨conn', hc', rfl⟩ := Option.map_eq_some_iff.1 hc
  split_ifs
  · exact hf conn' (h c conn' hc')
  · exact h c conn' hc'

lemma Fits.advance (h : s.Fits) {a : Access} {pc : Pc} (ha : a.Fits) (hpc : pc.Fits) :
    (s.advance c a pc).Fits := by
  intro c' conn hc
  rw [advance_conns] at hc
  obtain ⟨conn', hc', rfl⟩ := Option.map_eq_some_iff.1 hc
  have hon := (h c' conn' hc').on ha c'
  split_ifs
  · exact ⟨hon.accepted, hpc⟩
  · exact hon

lemma Fits.hubMove (h : s.Fits) (hm : s.HubMove s') : s'.Fits := by
  cases hm with
  | register t client =>
    show (s.evict client.deviceID).Fits
    unfold evict
    split
    · exact h.modify _ fun _ hf => ⟨hf.accepted, hf.pc⟩
    · exact h
  | notify t about online =>
    refine h.modify t fun _ hf => hf.enqueue ?_
    intro msg hmsg
    cases hmsg
    trivial
  | _ => exact h

lemma Fits.step (h : s.Fits) (hstep : s.step l = some s') : s'.Fits := by
  cases l with
  | connect deviceID token now upgraded =>
    cases hstep
    rcases s.handler_cases deviceID token now upgraded with heq | ⟨-, device, -, heq⟩ <;> rw [heq]
    · exact h
    · intro c conn hc
      rcases List.mem_append.1 (List.mem_of_getElem? hc) with hmem | hmem
      · obtain ⟨c', hc'⟩ := List.mem_iff_getElem?.1 hmem
        exact h c' conn hc'
      · rw [List.mem_singleton.1 hmem]
        exact ⟨by simp, trivial⟩
  | receive c frame =>
    obtain ⟨-, -, -, rfl⟩ := read_eq_some hstep
    exact h.advance (.quiet rfl) (dispatch_fits frame)
  | disconnect c =>
    obtain ⟨-, -, -, rfl⟩ := read_eq_some hstep
    exact h.advance (.quiet rfl) trivial
  | handler c env =>
    obtain ⟨conn, x, hc, hx, rfl⟩ := runHandler_exec hstep
    obtain ⟨ha, hpc⟩ := exec_fits hx (h c conn hc).pc
    exact h.advance ha hpc
  | write c =>
    cases hstep
    exact h.modify c fun _ hf => ⟨hf.accepted, hf.pc⟩
  | takeRegister =>
    obtain ⟨-, -, -, -, rfl⟩ := takeRegister_eq_some hstep
    exact h
  | takeUnregister =>
    obtain ⟨-, -, -, -, rfl⟩ := takeUnregister_eq_some hstep
    exact h
  | hub => exact h.hubMove (runHub_move hstep)

/-- On every run, the C++ client reads each control frame that was queued for it, and every field of
it as the relay filled it in. -/
theorem accepted_decoded {Text : Type} {print : GoJson.Document → Text}
    {parse : Text → Option Sdk.Cpp.Document} {readNumber : NumberText → Sdk.Cpp.Number}
    (hlib : Sdk.Cpp.ParsesFrames print parse readNumber) (devices : Devices) (pairCodes : PairCodes)
    {labels : List Label} (hrun : Lts.run step (start devices pairCodes) labels = some s)
    {conn : Conn} (hconn : conn ∈ s.conns) {msg : Control} {closeAfter : Bool}
    (hmsg : { data := .text msg, closeAfter } ∈ conn.accepted) :
    ∃ w, WireMessage.decode parse (print msg.message.marshal) = .ok (some w) ∧
      w.Reads msg.message := by
  have hstart : (start devices pairCodes).Fits := fun c conn hc => by cases hc
  have hs : s.Fits := Lts.run_inv_of_step (fun _ _ _ h hstep => h.step hstep) labels hstart hrun
  obtain ⟨c, hc⟩ := List.mem_iff_getElem?.1 hconn
  exact OutMessage.decode_marshal hlib (((hs c conn hc).accepted _ hmsg) msg rfl).inRange

/-- One way to read numbers: what is no integer of 64 bits without a sign is taken as zero. -/
def readUnsigned : NumberText → Sdk.Cpp.Number
  | .integer n => .unsigned (UInt64.ofNat n.toNat)
  | _ => .float 0

/-- A reader of documents that does what is asked of `json::parse`. -/
lemma parsesFrames_toMaps :
    Sdk.Cpp.ParsesFrames id (fun doc => some (doc.map readUnsigned).toMaps) readUnsigned where
  unsigned := fun n => by simp [readUnsigned]
  frame := fun _ => rfl

/-- `a`, which is linked to `b`, is welcomed. -/
theorem accepted_decoded_welcome :
    ∃ s conn w, Lts.run step (start linkedAB fun _ => none)
        (Label.connect "a" "t" 0 true :: List.replicate 5 (plainStep 0)) = some s ∧ conn ∈ s.conns ∧
      textFrame (.welcome 1 "a" [⟨"b", ""⟩]) ∈ conn.accepted ∧
      WireMessage.decode (fun doc => some (doc.map readUnsigned).toMaps)
        (Control.welcome 1 "a" [⟨"b", ""⟩]).message.marshal = .ok (some w) ∧
      w.Reads (Control.welcome 1 "a" [⟨"b", ""⟩]).message := by
  have h : (Lts.run step (start linkedAB fun _ => none)
      (Label.connect "a" "t" 0 true :: List.replicate 5 (plainStep 0))).any fun s =>
        s.conns.any fun conn => conn.accepted.contains (textFrame (.welcome 1 "a" [⟨"b", ""⟩])) := by
    decide +kernel
  simp only [Option.any_eq_true, List.any_eq_true, List.contains_iff_mem] at h
  obtain ⟨s, hrun, conn, hconn, hmem⟩ := h
  obtain ⟨w, hw⟩ := accepted_decoded parsesFrames_toMaps linkedAB (fun _ => none) hrun hconn hmem
  exact ⟨s, conn, w, hrun, hconn, hmem, hw⟩

end Server

end Relay

/-! ## What the client writes -/

namespace Sdk.Cpp.WireMessage

open Relay (controlNames controlFields fitsControl unmarshalControl)

variable (write : Number → NumberText) (m : WireMessage)

/-- The members that `dump` writes. -/
def dumped : List (String × GoJson.Document) := Json.mapMembers write (Json.assignAll m.fields)

lemma map_assignAll : Json.map write (.obj (Json.assignAll m.fields)) = .obj (m.dumped write) := by
  rw [Json.map, dumped]

lemma keys_fields : m.fields.map (·.1) = controlNames := rfl

lemma lookup_dumped (key : String) {v : Option Document} (h : (key, v) ∈ m.fields) :
    (m.dumped write).lookup key = v.map (Json.map write) := by
  rw [dumped, Json.mapMembers_eq, Json.lookup_map_snd (Json.map _), m.lookup_encode h]

lemma nodup_dumped : ((m.dumped write).map (·.1)).Nodup := by
  rw [dumped, Json.mapMembers_eq, List.map_map]
  exact Json.nodup_keys_assignAll m.fields

/-- A member that is written is a field. -/
lemma mem_dumped {member : String × GoJson.Document} (h : member ∈ m.dumped write) :
    ∃ v : Document, (member.1, some v) ∈ m.fields ∧ member.2 = v.map write := by
  rw [dumped, Json.mapMembers_eq] at h
  obtain ⟨entry, hentry, rfl⟩ := List.mem_map.1 h
  exact ⟨entry.2, Json.mem_assignAll hentry, rfl⟩

lemma fitsControl_eq {key : String} {fits : GoJson.Document → Bool}
    (h : controlFields.lookup key = some fits) (doc : GoJson.Document) :
    fitsControl (key, doc) = fits doc := by
  have hmem : key ∈ controlNames := List.mem_map_of_mem (Json.mem_of_lookup_eq h)
  rw [fitsControl, GoJson.fieldFor_of_mem hmem, Option.bind_some, h]
  rfl

lemma fits_string {key : String} {o : Option String} {v : Document}
    (h : controlFields.lookup key = some GoJson.fitsString) (hv : some v = o.map .str) :
    (v.map write).depth ≤ 2 ∧ fitsControl (key, v.map write) = true := by
  obtain ⟨s, -, rfl⟩ := Option.map_eq_some_iff.1 hv.symm
  exact ⟨Nat.zero_le 2, fitsControl_eq h _⟩

variable {write} in
lemma fits_unsigned (hwrite : ∀ n : UInt64, write (.unsigned n) = .integer n.toNat) {key : String}
    {o : Option UInt64} {v : Document} (h : controlFields.lookup key = some GoJson.fitsInt)
    (hmax : ∀ n ∈ o, n.toNat ≤ GoJson.maxInt)
    (hv : some v = o.map fun n => .num (.unsigned n)) :
    (v.map write).depth ≤ 2 ∧ fitsControl (key, v.map write) = true := by
  obtain ⟨n, hn, rfl⟩ := Option.map_eq_some_iff.1 hv.symm
  refine ⟨Nat.zero_le 2, ?_⟩
  have hle := hmax n hn
  have hmin : GoJson.minInt ≤ n.toNat := by
    unfold GoJson.minInt
    omega
  rw [fitsControl_eq h]
  simp [Json.map, hwrite, GoJson.fitsInt, hle, hmin]

/-- An entry of `peers` has strings only. -/
lemma fits_peer (p : WirePeer) : ((encodePeer p).map write).depth ≤ 1 ∧
    GoJson.fitsStrings Relay.peerInfoNames ((encodePeer p).map write) = true := by
  have hmember : ∀ member ∈ Json.mapMembers write (Json.assignAll (peerFields p)),
      ∃ s, member.2 = .str s := by
    intro member h
    rw [Json.mapMembers_eq] at h
    obtain ⟨entry, hentry, rfl⟩ := List.mem_map.1 h
    have hfield := Json.mem_assignAll hentry
    simp only [peerFields, List.mem_cons, Prod.mk.injEq, Option.some.injEq, List.not_mem_nil,
      or_false] at hfield
    rcases hfield with ⟨-, hv⟩ | ⟨-, hv⟩ <;> exact ⟨_, by rw [hv, Json.map]⟩
  rw [encodePeer, Json.map]
  constructor
  · refine Nat.succ_le_succ (Json.depthMembers_le fun member h => ?_)
    obtain ⟨s, hs⟩ := hmember member h
    rw [hs]
    exact Nat.le_refl 0
  · refine List.all_eq_true.2 fun member h => ?_
    obtain ⟨s, hs⟩ := hmember member h
    rw [hs]
    exact Bool.or_true _

variable {write} in
/-- What is written is nested in three levels at most, and fits the struct of the relay. -/
lemma fits_dumped (hwrite : ∀ n : UInt64, write (.unsigned n) = .integer n.toNat)
    (hexpires : ∀ v ∈ m.expiresIn, v.toNat ≤ GoJson.maxInt)
    {member : String × GoJson.Document} (h : member ∈ m.dumped write) :
    member.2.depth ≤ 2 ∧ fitsControl member = true := by
  obtain ⟨key, doc⟩ := member
  obtain ⟨v, hv, hdoc⟩ := m.mem_dumped write h
  dsimp only at hv hdoc
  subst hdoc
  simp only [fields, List.mem_cons, Prod.mk.injEq, List.not_mem_nil, or_false] at hv
  rcases hv with ⟨rfl, hv⟩ | ⟨rfl, hv⟩ | ⟨rfl, hv⟩ | ⟨rfl, hv⟩ | ⟨rfl, hv⟩ | ⟨rfl, hv⟩ | ⟨rfl, hv⟩ |
    ⟨rfl, hv⟩ | ⟨rfl, hv⟩ | ⟨rfl, hv⟩ | ⟨rfl, hv⟩
  · exact fits_string write (o := some m.type) rfl hv
  · refine fits_unsigned hwrite (o := m.protocolVersion.map UInt32.toUInt64) rfl ?_
      (by rw [hv, Option.map_map]; rfl)
    intro n hn
    obtain ⟨version, -, rfl⟩ := Option.map_eq_some_iff.1 hn
    have := version.toNat_lt
    rw [UInt32.toNat_toUInt64, GoJson.maxInt]
    omega
  · exact fits_string write rfl hv
  · obtain ⟨peers, -, rfl⟩ := Option.map_eq_some_iff.1 hv.symm
    rw [fitsControl_eq rfl, Json.map, Json.mapElems_eq]
    constructor
    · refine Nat.succ_le_succ (Json.depthElems_le fun e he => ?_)
      obtain ⟨_, hp, rfl⟩ := List.mem_map.1 he
      obtain ⟨p, -, rfl⟩ := List.mem_map.1 hp
      exact (fits_peer write p).1
    · refine List.all_eq_true.2 fun e he => ?_
      obtain ⟨_, hp, rfl⟩ := List.mem_map.1 he
      obtain ⟨p, -, rfl⟩ := List.mem_map.1 hp
      exact (fits_peer write p).2
  · exact fits_string write rfl hv
  · exact fits_string write rfl hv
  · exact fits_unsigned hwrite rfl hexpires hv
  · exact fits_string write rfl hv
  · exact fits_string write rfl hv
  · obtain ⟨online, -, rfl⟩ := Option.map_eq_some_iff.1 hv.symm
    have hfield : controlFields.lookup "online" = some GoJson.fitsBool := rfl
    exact ⟨Nat.zero_le 2, fitsControl_eq hfield _⟩
  · exact fits_string write rfl hv

lemma stringField_dumped (key : String) {o : Option String} (h : (key, o.map .str) ∈ m.fields) :
    GoJson.stringField controlNames key (m.dumped write) = o.getD "" := by
  refine GoJson.stringField_eq key (fun member hmember => ?_) (m.nodup_dumped write) ?_
  · obtain ⟨v, hv, -⟩ := m.mem_dumped write hmember
    rw [← m.keys_fields]
    exact List.mem_map_of_mem hv
  · rw [m.lookup_dumped write key h, Option.map_map]
    cases o <;> rfl

variable {write} {m} {Text : Type} {dump : Document → Text} {scan : Text → Option GoJson.Document}

/-- The relay decodes any frame of the client, whatever else the frame has in it. -/
lemma unmarshalControl_encode (hlib : DumpsFrames dump scan write)
    (hexpires : ∀ v ∈ m.expiresIn, v.toNat ≤ GoJson.maxInt) :
    (scan (m.encode dump)).bind unmarshalControl =
      some ⟨m.type, m.staticKey.getD "", m.code.getD ""⟩ := by
  have hdepth : ¬ GoJson.maxNestingDepth < (Json.obj (m.dumped write)).depth := by
    have hmembers := Json.depthMembers_le fun member h =>
      (m.fits_dumped hlib.unsigned hexpires h).1
    rw [Json.depth, GoJson.maxNestingDepth]
    omega
  have hfits : (m.dumped write).all fitsControl = true :=
    List.all_eq_true.2 fun member h => (m.fits_dumped hlib.unsigned hexpires h).2
  have hmsg : Relay.decodeControl (m.dumped write) = ⟨m.type, m.staticKey.getD "", m.code.getD ""⟩ := by
    rw [Relay.decodeControl, m.stringField_dumped write "type" (o := some m.type) (by simp [fields]),
      m.stringField_dumped write "static_key" (o := m.staticKey) (by simp [fields]),
      m.stringField_dumped write "code" (o := m.code) (by simp [fields])]
    rfl
  rw [hlib.frame, Option.bind_some, m.map_assignAll, unmarshalControl, if_neg hdepth]
  simp only [hfits, if_true, hmsg]

/-- The relay takes any frame of the client for what it is, and each request for that request. -/
theorem inbound_encode (hlib : DumpsFrames dump scan write) :
    (∀ m : WireMessage, (∀ v ∈ m.expiresIn, v.toNat ≤ GoJson.maxInt) →
      Relay.inbound (scan (m.encode dump)) =
        Relay.ControlMessage.inbound ⟨m.type, m.staticKey.getD "", m.code.getD ""⟩) ∧
    ∀ key code, Relay.inbound (scan ((announceKey key).encode dump)) = .announceKey key ∧
      Relay.inbound (scan (pairRequest.encode dump)) = .pairRequest ∧
      Relay.inbound (scan ((pairAccept code).encode dump)) = .pairAccept code ∧
      Relay.inbound (scan (ping.encode dump)) = .ping := by
  have hframe : ∀ m : WireMessage, (∀ v ∈ m.expiresIn, v.toNat ≤ GoJson.maxInt) →
      Relay.inbound (scan (m.encode dump)) =
        Relay.ControlMessage.inbound ⟨m.type, m.staticKey.getD "", m.code.getD ""⟩ := by
    intro m hexpires
    rw [Relay.inbound, unmarshalControl_encode hlib hexpires]
  -- No request has an `expires_in`.
  have hrequest : ∀ m : WireMessage, m.expiresIn = none → Relay.inbound (scan (m.encode dump)) =
      Relay.ControlMessage.inbound ⟨m.type, m.staticKey.getD "", m.code.getD ""⟩ :=
    fun m hnone => hframe m (by simp [hnone])
  refine ⟨hframe, fun key code => ⟨?_, ?_, ?_, ?_⟩⟩ <;> rw [hrequest _ rfl] <;> rfl

/-- One way to spell numbers: all but an integer without a sign as zero. -/
def spellUnsigned : Number → NumberText
  | .unsigned n => .integer n.toNat
  | _ => .integer 0

/-- A writer of documents that does what is asked of `json::dump`. -/
lemma dumpsFrames_map : DumpsFrames (Json.map spellUnsigned) some spellUnsigned where
  unsigned := fun _ => rfl
  frame := fun _ => rfl

theorem inbound_encode_pairAccept :
    Relay.inbound (some ((pairAccept "4F7K2M").encode (Json.map spellUnsigned))) =
      .pairAccept "4F7K2M" :=
  ((inbound_encode dumpsFrames_map).2 "" "4F7K2M").2.2.1

end Sdk.Cpp.WireMessage

end Relayly
