import Relayly.Lib.Run
import Relayly.PlainNoise
import Relayly.Sdk.Socket

/-!
# What reaches a client before its `welcome`

Neither client holds frames back until a connection has delivered a `welcome` of its version, and
neither closes the connection over another version. A frame that comes too early leaves the client
alone only if it finds nothing to act on: no call that waits for it, and no peer.
-/

namespace Relayly.Sdk

variable {N : Noise}

/-- A frame of the connection. -/
def SocketLabel.frame : SocketLabel → Bool
  | .text _ | .binary .. => true
  | _ => false

def SocketLabel.welcomes : SocketLabel → Bool
  | .text t => t.welcomes
  | _ => false

/-- The type of the frame has a handler. -/
def SocketLabel.handled (sdk : SocketSdk) : SocketLabel → Bool
  | .text t => t.handled sdk
  | .binary _ _ data => handledEnvelope data
  | _ => false

namespace Socket

/-- The peers, the sessions and the pairings are as they were. -/
structure Untouched (s s' : Socket N) : Prop where
  peers : s'.client.peers = s.client.peers
  conns : s'.client.conns = s.client.conns
  sessions : s'.client.sessions = s.client.sessions
  outstanding : s'.client.outstanding = s.client.outstanding
  store : s'.client.store = s.client.store
  pairWaiters : s'.client.pairWaiters = s.client.pairWaiters
  codeWaiter : s'.codeWaiter = s.codeWaiter
  pendingUnpair : s'.pendingUnpair = s.pendingUnpair

/-- The version gate: a frame before the `welcome` changes nothing, and no frame after one of
another version is dispatched. -/
structure Gated (sdk : SocketSdk) (s : Socket N) (l : SocketLabel) (s' : Socket N) : Prop where
  before : s.welcomed = false → l.frame → l.welcomes = false → s.Untouched s'
  after : s.refused → s.dispatches sdk l = false

/-- No peer that a `peer_status` would start a handshake with. -/
def NoRekey (c : Client N) (peerID : Option String) (online : Option Bool) : Prop :=
  online.getD false = true → ∀ id ∈ peerID, ¬ id ≤ c.deviceID → c.connOf id = none

/-- A text frame finds nothing to act on in the TypeScript client. -/
def QuietTs (s : Socket N) : Text → Prop
  | .pairCode code _ => s.codeWaiter = false ∨ code.getD "" = ""
  | .pairComplete peerID _ _ => peerID.getD "" = ""
  | .unpaired peerID => s.pendingUnpair = false ∧ ∀ id ∈ peerID, s.client.connOf id = none
  | .peerStatus peerID online => NoRekey s.client peerID online
  | .error _ _ =>
    s.codeWaiter = false ∧ s.pendingUnpair = false ∧ ∀ code, s.client.pairWaiters code = none
  | .malformed | .welcome .. | .pong | .other _ => True

/-- A text frame finds nothing to act on in the C++ client, which takes the first one for a
`welcome`. -/
def QuietCpp (s : Socket N) : Text → Prop
  | .welcome version peers => s.awaitingWelcome = true → acceptedVersion version = true →
    ∀ p ∈ peers, (s.client.connOf p.1).isSome
  | .pairCode _ _ => s.awaitingWelcome = false → s.codeWaiter = false
  | .pairComplete _ code _ => s.awaitingWelcome = false → s.client.pairWaiters (code.getD "") = none
  | .peerStatus peerID online => s.awaitingWelcome = false → NoRekey s.client peerID online
  | .error _ _ => s.awaitingWelcome = false →
    s.codeWaiter = false ∧ ∀ code, s.client.pairWaiters code = none
  | .malformed | .unpaired _ | .pong | .other _ => True

/-- A binary frame finds no peer, or no session that it decrypts under. -/
def QuietBinary (sdk : SocketSdk) (c : Client N) (pick : ℕ) (data : Bytes) : Prop :=
  ∀ e ∈ decodeEnvelope data,
    (e.1 = envelopeHandshake → c.solePeer sdk.port pick = none)
      ∧ (e.1 = envelopeTransport → c.decryptFrom sdk.port pick e.2 = none)

/-- The frame finds nothing to act on. -/
def Quiet (sdk : SocketSdk) (s : Socket N) : SocketLabel → Prop
  | .text t =>
    match sdk with
    | .ts => s.QuietTs t
    | .cpp => s.QuietCpp t
  | .binary pick _ data => QuietBinary sdk s.client pick data
  | _ => True

/-- Before its `welcome` a connection delivers frames that find nothing to act on, and after one of
another version only frames of types that have no handler. -/
structure Orderly (sdk : SocketSdk) (s : Socket N) (l : SocketLabel) : Prop where
  before : s.welcomed = false → l.welcomes = false → s.Quiet sdk l
  after : s.refused → l.handled sdk = false

variable {sdk : SocketSdk} {s s' : Socket N} {t : Text} {l : SocketLabel}

theorem Untouched.of_client (hclient : s'.client = s.client) (hcode : s'.codeWaiter = s.codeWaiter)
    (hunpair : s'.pendingUnpair = s.pendingUnpair) : s.Untouched s' := by
  constructor <;> simp [hclient, hcode, hunpair]

theorem handlePeerStatus_noRekey {c : Client N} {peerID : Option String} {online : Option Bool}
    (h : NoRekey c peerID online) : c.handlePeerStatus peerID (online.getD false) = c := by
  unfold Client.handlePeerStatus
  rcases peerID with _ | id
  · rfl
  · dsimp only
    split_ifs with honline hle
    · rfl
    · rfl
    · rw [h (by simpa using honline) id rfl hle]

theorem handleUnpaired_absent {c : Client N} {peerID : Option String}
    (h : ∀ id ∈ peerID, c.connOf id = none) : c.handleUnpaired .ts peerID = c := by
  unfold Client.handleUnpaired
  rcases peerID with _ | id
  · rfl
  · have hnone : ∀ e ∈ c.peers, e.1 ≠ id := by
      simpa [Client.connOf, List.find?_eq_none] using h id rfl
    have hfilter : c.peers.filter (fun e => e.1 ≠ id) = c.peers :=
      List.filter_eq_self.2 fun e he => decide_eq_true (hnone e he)
    dsimp only
    rw [hfilter, ite_self]

theorem handleWelcome_linked {c : Client N} {port : Port} : ∀ {peers : List (String × String)},
    (∀ p ∈ peers, (c.connOf p.1).isSome) → c.handleWelcome port peers = c
  | [], _ => rfl
  | p :: peers, h => by
    have hlink : c.link port p.1 p.2 = c := by
      obtain ⟨k, hk⟩ := Option.isSome_iff_exists.1 (h p (List.mem_cons_self ..))
      rw [Client.link, hk]
    have hrest : c.handleWelcome port peers = c :=
      handleWelcome_linked fun q hq => h q (List.mem_cons_of_mem _ hq)
    unfold Client.handleWelcome at hrest ⊢
    rw [List.foldl_cons, hlink, ite_self, hrest]

theorem handlePairComplete_anonymous {c : Client N} {peerID : Option String} (code key : Option String)
    (h : peerID.getD "" = "") : c.handlePairComplete .ts peerID code key = c := by
  unfold Client.handlePairComplete
  rcases peerID with _ | id
  · rfl
  · obtain rfl : id = "" := h
    rfl

theorem forget_waiters {c : Client N} (h : ∀ code, c.pairWaiters code = none) :
    { c with pairWaiters := fun _ => none } = c := by
  have hnone : c.pairWaiters = fun _ => none := funext h
  rw [← hnone]

/-! ## Frames that find nothing to act on -/

theorem handleControlMessage_quiet (hwelcomes : t.welcomes = false) (h : s.QuietTs t) :
    s.Untouched (s.handleControlMessage t) := by
  cases t with
  | welcome version peers =>
    have hversion : version ≠ some protocolVersion := by simpa [Text.welcomes] using hwelcomes
    rw [handleControlMessage, if_neg hversion]
    exact .of_client rfl rfl rfl
  | pairCode code expiresIn =>
    have hnone : (!s.codeWaiter) = true ∨ code.getD "" = "" := h.imp (by simp [·]) id
    rw [handleControlMessage, if_pos hnone]
    exact .of_client rfl rfl rfl
  | pairComplete peerID code key =>
    exact .of_client (handlePairComplete_anonymous code key h) rfl rfl
  | unpaired peerID => exact .of_client (handleUnpaired_absent h.2) rfl h.1.symm
  | peerStatus peerID online => exact .of_client (handlePeerStatus_noRekey h) rfl rfl
  | error code message => exact .of_client (forget_waiters h.2.2) h.1.symm h.2.1.symm
  | malformed | pong | other type => exact .of_client rfl rfl rfl

theorem handleWelcome_quiet (hawaiting : s.awaitingWelcome = true) (h : s.QuietCpp t) :
    s.Untouched (s.handleWelcome t) := by
  cases t with
  | welcome version peers =>
    unfold Socket.handleWelcome
    dsimp only
    split_ifs with haccepted
    · exact .of_client (handleWelcome_linked (h hawaiting haccepted)) rfl rfl
    · exact .of_client rfl rfl rfl
  | _ => exact .of_client rfl rfl rfl

theorem dispatch_quiet (hawaiting : s.awaitingWelcome = false) (h : s.QuietCpp t) :
    s.Untouched (s.dispatch t) := by
  cases t with
  | pairCode code expiresIn => exact .of_client rfl (h hawaiting).symm rfl
  | pairComplete peerID code key =>
    refine .of_client ?_ rfl rfl
    rw [dispatch, Client.handlePairComplete, h hawaiting]
  | peerStatus peerID online => exact .of_client (handlePeerStatus_noRekey (h hawaiting)) rfl rfl
  | error code message =>
    exact .of_client (forget_waiters (h hawaiting).2) (h hawaiting).1.symm rfl
  | malformed | welcome version peers | unpaired peerID | pong | other type =>
    exact .of_client rfl rfl rfl

theorem onText_quiet (h : s.QuietCpp t) : s.Untouched (s.onText t) := by
  unfold onText
  split_ifs with hmalformed hawaiting
  · exact .of_client rfl rfl rfl
  · exact handleWelcome_quiet hawaiting h
  · exact dispatch_quiet (by simpa using hawaiting) h

theorem handleBinary_quiet {pick : ℕ} (now : ℕ) {data : Bytes}
    (h : QuietBinary sdk s.client pick data) : s.Untouched (s.handleBinary sdk pick now data) := by
  unfold handleBinary
  rcases hdata : decodeEnvelope data with _ | ⟨kind, payload⟩
  · exact .of_client rfl rfl rfl
  · obtain ⟨hhandshake, htransport⟩ := h (kind, payload) hdata
    dsimp only
    split_ifs with hk hk'
    · refine .of_client ?_ rfl rfl
      rw [Client.handleHandshakeEnvelope, hhandshake hk]
    · refine .of_client ?_ rfl rfl
      rw [Client.handleTransportEnvelope, htransport hk']
    · exact .of_client rfl rfl rfl

/-- A frame that finds nothing to act on leaves the client alone. -/
theorem step_quiet (hframe : l.frame) (hwelcomes : l.welcomes = false) (h : s.Quiet sdk l)
    (hstep : s.step sdk l = some s') : s.Untouched s' := by
  cases l with
  | text t =>
    simp only [step] at hstep
    split_ifs at hstep
    cases hstep
    have ht : s.Untouched (s.handleText sdk t) := by
      cases sdk with
      | ts => exact handleControlMessage_quiet hwelcomes h
      | cpp => exact onText_quiet h
    exact ⟨ht.peers, ht.conns, ht.sessions, ht.outstanding, ht.store, ht.pairWaiters, ht.codeWaiter,
      ht.pendingUnpair⟩
  | binary pick now data =>
    simp only [step] at hstep
    split_ifs at hstep
    cases hstep
    exact handleBinary_quiet now h
  | _ => cases hframe

/-! ## After a `welcome` of another version -/

/-- The C++ client has had its first text frame once a `welcome` has been delivered. -/
def Heard (sdk : SocketSdk) (s : Socket N) : Prop :=
  sdk = .cpp → s.refused = true → s.awaitingWelcome = false

theorem onText_awaitingWelcome (ht : t ≠ .malformed) : (s.onText t).awaitingWelcome = false := by
  unfold onText
  rw [if_neg ht]
  split_ifs with hawaiting
  · unfold Socket.handleWelcome
    cases t <;> dsimp only
    split_ifs <;> rfl
  · cases t <;> simpa [dispatch] using hawaiting

theorem Heard.text (h : s.Heard .cpp) (t : Text) : ((s.onText t).deliver t).Heard .cpp := by
  intro _ hrefused
  by_cases ht : t = .malformed
  · subst ht
    have hs : s.refused = true := by simpa [deliver, Text.refuses, onText] using hrefused
    exact h rfl hs
  · exact onText_awaitingWelcome ht

theorem handleBinary_flags (s : Socket N) (sdk : SocketSdk) (pick now : ℕ) (data : Bytes) :
    (s.handleBinary sdk pick now data).refused = s.refused
      ∧ (s.handleBinary sdk pick now data).awaitingWelcome = s.awaitingWelcome := by
  unfold handleBinary
  repeat' split
  all_goals exact ⟨rfl, rfl⟩

theorem Heard.step (h : s.Heard sdk) (hstep : s.step sdk l = some s') : s'.Heard sdk := by
  rintro rfl
  cases l with
  | opened =>
    cases hstep
    intro hrefused
    cases hrefused
  | text t =>
    simp only [Socket.step] at hstep
    split_ifs at hstep
    cases hstep
    exact h.text t rfl
  | binary pick now data =>
    simp only [Socket.step] at hstep
    split_ifs at hstep
    cases hstep
    obtain ⟨hrefused, hawaiting⟩ := s.handleBinary_flags .cpp pick now data
    rw [hrefused, hawaiting]
    exact h rfl
  | closed | requestPairCode =>
    cases hstep
    exact h rfl
  | unpair => cases hstep
  | act a =>
    obtain ⟨client, -, rfl⟩ := Option.map_eq_some_iff.1 hstep
    exact h rfl

theorem Heard.dispatches (h : s.Heard sdk) (hrefused : s.refused = true)
    (hl : l.handled sdk = false) : s.dispatches sdk l = false := by
  cases l with
  | text t =>
    have ht : t.handled sdk = false := hl
    cases sdk with
    | ts => simp [Socket.dispatches, ht]
    | cpp => simp [Socket.dispatches, ht, h rfl hrefused]
  | binary pick now data => exact hl
  | _ => rfl

/-- A text frame that is not dispatched goes to no handler. -/
theorem handleText_of_not_dispatches (h : s.dispatches sdk (.text t) = false) :
    s.handleText sdk t = s := by
  simp only [Socket.dispatches, Bool.or_eq_false_iff] at h
  obtain ⟨hhandled, hfirst⟩ := h
  cases sdk with
  | ts => cases t <;> first | rfl | cases hhandled
  | cpp =>
    show s.onText t = s
    unfold onText
    split_ifs with hmalformed hawaiting
    · rfl
    · simp [hawaiting, hmalformed] at hfirst
    · cases t <;> first | rfl | cases hhandled

theorem handleBinary_of_not_dispatches {pick now : ℕ} {data : Bytes}
    (h : s.dispatches sdk (.binary pick now data) = false) : s.handleBinary sdk pick now data = s := by
  have h : handledEnvelope data = false := h
  unfold handledEnvelope at h
  unfold handleBinary
  rcases hdata : decodeEnvelope data with _ | ⟨kind, payload⟩
  · rfl
  · rw [hdata] at h
    obtain ⟨hhandshake, htransport⟩ : kind ≠ envelopeHandshake ∧ kind ≠ envelopeTransport := by
      simpa using h
    simp only [if_neg hhandshake, if_neg htransport]

/-- So it leaves the client alone. -/
theorem step_of_not_dispatches (hframe : l.frame) (h : s.dispatches sdk l = false)
    (hstep : s.step sdk l = some s') : s.Untouched s' := by
  cases l with
  | text t =>
    simp only [step, handleText_of_not_dispatches h] at hstep
    split_ifs at hstep
    cases hstep
    exact .of_client rfl rfl rfl
  | binary pick now data =>
    simp only [step, handleBinary_of_not_dispatches h] at hstep
    split_ifs at hstep
    cases hstep
    exact .of_client rfl rfl rfl
  | _ => cases hframe

theorem Orderly.gated (h : s.Orderly sdk l) (hheard : s.Heard sdk) (hstep : s.step sdk l = some s') :
    s.Gated sdk l s' where
  before hwelcomed hframe hwelcomes := step_quiet hframe hwelcomes (h.before hwelcomed hwelcomes) hstep
  after hrefused := hheard.dispatches hrefused (h.after hrefused)

/-- In every run on connections that are orderly, both clients keep the version gate, and the frames
that come after a `welcome` of another version change nothing. -/
theorem gated_of_orderly (sdk : SocketSdk) (client : Client N) (ls : List SocketLabel)
    (h : Lts.Meets (step sdk) (Orderly sdk) { client } ls) :
    Lts.Meets (step sdk) (fun s l => ∀ s' ∈ s.step sdk l,
      s.Gated sdk l s' ∧ (s.refused → l.frame → s.Untouched s')) { client } ls := by
  have hstart : Heard sdk { client } := by
    intro _ hrefused
    cases hrefused
  have hboth : Lts.Meets (step sdk)
      (fun s l => s.Orderly sdk l ∧ ∀ s' ∈ s.step sdk l, s.Gated sdk l s') { client } ls := by
    refine (Lts.meets_congr (I := Heard sdk) (fun s l s' hs _ hstep => hs.step hstep)
      (fun s l hs => ?_) ls hstart).2 h
    exact ⟨And.left, fun ho => ⟨ho, fun s' hstep => ho.gated hs hstep⟩⟩
  refine hboth.imp fun s l ho s' hstep => ⟨ho.2 s' hstep, fun hrefused hframe => ?_⟩
  exact step_of_not_dispatches hframe ((ho.2 s' hstep).after hrefused) hstep

/-- A client that knows no peer. -/
def unpairedA (sdk : SocketSdk) : Client plainNoise where
  deviceID := "a"
  privateKey := List.replicate 32 1
  rand i := List.replicate i 0
  store := if sdk = .ts then .memory (fun _ => none) else .loaded (fun _ => none) none

/-- A `pair_complete` that no call waits for. -/
def unsolicited : Text := .pairComplete (some "b") none none

/-- Two connections: on the first one nothing but a `pong` comes before the `welcome`, on the second
one a `peer_status` of a peer that is offline, and a `welcome` of another version. -/
def orderlyRun : List SocketLabel :=
  [.opened, .text .pong, .text (.welcome (some 1) [("b", "")]), .text unsolicited, .closed, .opened,
    .text (.peerStatus (some "b") (some false)), .text (.welcome (some 2) []), .text .pong]

theorem orderlyRun_orderly (sdk : SocketSdk) :
    Lts.Meets (step sdk) (Orderly sdk) { client := unpairedA sdk } orderlyRun := by
  cases sdk
  · refine .cons ⟨fun _ _ => trivial, nofun⟩ rfl <| .cons ⟨fun _ _ => trivial, nofun⟩ rfl <|
      .cons ⟨nofun, nofun⟩ rfl <| .cons ⟨nofun, nofun⟩ rfl <|
      .cons ⟨nofun, nofun⟩ rfl <| .cons ⟨nofun, nofun⟩ rfl <|
      .cons ⟨fun _ _ => nofun, nofun⟩ rfl <| .cons ⟨fun _ _ => trivial, nofun⟩ rfl <|
      .cons ⟨fun _ _ => trivial, fun _ => rfl⟩ rfl trivial
  · refine .cons ⟨fun _ _ => trivial, nofun⟩ rfl <| .cons ⟨fun _ _ => trivial, nofun⟩ rfl <|
      .cons ⟨nofun, nofun⟩ rfl <| .cons ⟨nofun, nofun⟩ rfl <|
      .cons ⟨nofun, nofun⟩ rfl <| .cons ⟨nofun, nofun⟩ rfl <|
      .cons ⟨fun _ _ _ => nofun, nofun⟩ rfl <| .cons ⟨fun _ _ => nofun, nofun⟩ rfl <|
      .cons ⟨fun _ _ => trivial, fun _ => rfl⟩ rfl trivial

theorem gated_of_orderly_reconnect :
    Lts.Meets (step .ts) (fun s l => ∀ s' ∈ s.step .ts l,
        s.Gated .ts l s' ∧ (s.refused → l.frame → s.Untouched s'))
        { client := unpairedA .ts } orderlyRun
      ∧ Lts.Meets (step .cpp) (fun s l => ∀ s' ∈ s.step .cpp l,
        s.Gated .cpp l s' ∧ (s.refused → l.frame → s.Untouched s'))
        { client := unpairedA .cpp } orderlyRun :=
  ⟨gated_of_orderly .ts _ _ (orderlyRun_orderly .ts),
    gated_of_orderly .cpp _ _ (orderlyRun_orderly .cpp)⟩

/-- A connection that links `b` and is lost, and the next one. -/
def relinked : List SocketLabel :=
  [.opened, .text (.welcome (some 1) [("b", "")]), .closed, .opened]

/-- The first message of a handshake. -/
def msg1Frame : SocketLabel := .binary 0 5000 (encodeEnvelope envelopeHandshake (PlainNoise.msg1 []))

theorem early_frame_handled :
    (∃ s s', Lts.run (step .ts) { client := unpairedA .ts } [.opened] = some s
        ∧ s.step .ts (.text unsolicited) = some s' ∧ ¬ s.Gated .ts (.text unsolicited) s')
    ∧ (∃ s s', Lts.run (step .cpp) { client := unpairedA .cpp } relinked = some s
        ∧ s.step .cpp msg1Frame = some s' ∧ ¬ s.Gated .cpp msg1Frame s')
    ∧ ∀ sdk, ∃ s s', Lts.run (step sdk) { client := unpairedA sdk }
          [.opened, .text (.welcome (some 2) [])] = some s
        ∧ s.step sdk (.text unsolicited) = some s' ∧ ¬ s.Gated sdk (.text unsolicited) s' := by
  refine ⟨⟨_, _, rfl, rfl, fun h => ?_⟩, ⟨_, _, rfl, rfl, fun h => ?_⟩, fun sdk => ?_⟩
  · have hpeers := (h.before rfl rfl rfl).peers
    exact absurd (congrArg List.length hpeers) (by decide)
  · have hsessions := (h.before rfl rfl rfl).sessions
    exact absurd (congrArg List.length hsessions) (by decide)
  · cases sdk
    · exact ⟨_, _, rfl, rfl, fun h => absurd (h.after rfl) (by decide)⟩
    · exact ⟨_, _, rfl, rfl, fun h => absurd (h.after rfl) (by decide)⟩

end Socket

end Relayly.Sdk
