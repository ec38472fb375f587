import Relayly.Go.Pair
import Relayly.Proofs.GoPeer

/-!
# What a paired client does with a handshake message

Next to a ready active session and a pinned key, a handshake message has one of a few outcomes, in
terms of the sessions in the two slots: `Turn` lists them.
-/

namespace Relayly.Go

variable {N : Noise}

theorem newInitiatorSession_ok {priv : PrivateKey} {rand msg1 : Bytes} {s : NoiseSession N}
    (h : newInitiatorSession N priv rand = .ok (s, msg1)) :
    ∃ hs, s = { initiator := true, hs } ∧ N.initiator priv.raw rand = some (msg1, hs) := by
  unfold newInitiatorSession at h
  unfold Noise.initiator
  rcases hn : N.newHandshakeState true priv.raw rand with e | hs <;> simp only [hn] at h
  · cases h
  · dsimp only
    rcases hw : N.writeMessage hs with e | ⟨m, hs', split⟩ <;> simp only [hw] at h
    · cases h
    · cases h
      exact ⟨hs', rfl, rfl⟩

/-- The outcomes of a handshake message `data`, given the private key of the client, the key it has
pinned for the peer, its active session and its pending one: what is then active and pending, and
the reply. -/
inductive Turn (priv key : Bytes) (act : NoiseSession N) (data : Bytes) :
    Option (NoiseSession N) → NoiseSession N → Option (NoiseSession N) → Option Bytes → Prop
  | ignored : Turn priv key act data none act none none
  | answered (rand m2 : Bytes) (hs : N.Hs) (hr : N.responder priv rand data = some (m2, hs)) :
      Turn priv key act data none act (some { initiator := false, hs, gotMsg1 := true }) (some m2)
  | refused (p : NoiseSession N)
      (hr : p.initiator = false → ∃ e, N.readMessage p.hs data = .error e) :
      Turn priv key act data (some p) act none none
  | initiated (p : NoiseSession N) (hs hs' : N.Hs) (m3 : Bytes) (split cs : Option (N.Key × N.Key))
      (hi : p.initiator = true) (hr : N.readMessage p.hs data = .ok (hs, split))
      (hw : N.writeMessage hs = .ok (m3, hs', cs)) (act' : NoiseSession N)
      (hact : if N.peerStatic hs' = key then
        act' = { p with hs := hs' }.finishLocked (cs1 cs) (cs2 cs) else act' = act) :
      Turn priv key act data (some p) act' none (some m3)
  | responded (p : NoiseSession N) (hs : N.Hs) (cs : Option (N.Key × N.Key))
      (hi : p.initiator = false) (hr : N.readMessage p.hs data = .ok (hs, cs))
      (act' : NoiseSession N)
      (hact : if N.peerStatic hs = key then
        act' = { p with hs := hs }.finishLocked (cs2 cs) (cs1 cs) else act' = act) :
      Turn priv key act data (some p) act' none none

namespace Client

/-- The active session is `act`, which is ready, and the pending one is `pend`, at its handshake;
a pending responder has answered `msg1`. -/
structure At (c : Client N) (act : NoiseSession N) (pend : Option (NoiseSession N)) : Prop where
  active : ∃ i, c.HoldsActive i act
  pending : (c.peer.pending = none ∧ pend = none)
    ∨ ∃ j p, c.peer.pending = some j ∧ c.sessions[j]? = some p ∧ pend = some p
  ready : act.status = .ready
  handshaking : ∀ p ∈ pend, p.status = .handshaking ∧ (p.initiator = false → p.gotMsg1 = true)

def activeSession (c : Client N) : Option (NoiseSession N) :=
  c.peer.active.bind (c.sessions[·]?)

theorem At.activeSession {c : Client N} {act : NoiseSession N} {pend : Option (NoiseSession N)}
    (h : c.At act pend) : c.activeSession = some act := by
  obtain ⟨i, hi⟩ := h.active
  simp [Client.activeSession, hi.active, hi.session]

def pendingSession (c : Client N) : Option (NoiseSession N) :=
  c.peer.pending.bind (c.sessions[·]?)

theorem At.pendingSession {c : Client N} {act : NoiseSession N} {pend : Option (NoiseSession N)}
    (h : c.At act pend) : c.pendingSession = pend := by
  rcases h.pending with ⟨hp, rfl⟩ | ⟨j, p, hj, hs, rfl⟩
  · simp [Client.pendingSession, hp]
  · simp [Client.pendingSession, hj, hs]

theorem At.pending_isSome {c : Client N} {act : NoiseSession N} {pend : Option (NoiseSession N)}
    (h : c.At act pend) : c.peer.pending.isSome = pend.isSome := by
  rcases h.pending with ⟨hp, rfl⟩ | ⟨j, p, hj, -, rfl⟩
  · simp [hp]
  · simp [hj]

/-- The peer's key is pinned, and announced if any is. -/
structure Trusts (c : Client N) (key : Bytes) : Prop where
  pin : ∃ pin, c.peerStore.get c.peer.id = some pin ∧ pin.staticKey = encodeBase64 key
  announced : c.Announced key
  length : key.length = 32

/-- What no event changes, and the sessions, which are never removed. -/
structure SameParty (c c' : Client N) : Prop extends c.SameTrust c' where
  deviceID : c'.deviceID = c.deviceID
  privateKey : c'.privateKey = c.privateKey
  rand : c'.rand = c.rand
  sessions : c.sessions.length ≤ c'.sessions.length

theorem SameParty.refl (c : Client N) : c.SameParty c := ⟨⟨rfl, rfl, rfl⟩, rfl, rfl, rfl, Nat.le_refl _⟩

theorem SameParty.trans {c₁ c₂ c₃ : Client N} (h : c₁.SameParty c₂) (h' : c₂.SameParty c₃) :
    c₁.SameParty c₃ :=
  ⟨h.toSameTrust.trans h'.toSameTrust, h'.deviceID.trans h.deviceID,
    h'.privateKey.trans h.privateKey, h'.rand.trans h.rand,
    Nat.le_trans h.sessions h'.sessions⟩

theorem SameParty.trusts {c c' : Client N} {key : Bytes} (h : c.SameParty c')
    (ht : c.Trusts key) : c'.Trusts key := by
  refine ⟨by rw [h.peerStore, h.id]; exact ht.pin, ?_, ht.length⟩
  unfold Announced
  rw [h.announced]
  exact ht.announced

/-- With a pin, `verifyAndPin` accepts the pinned key and no other, and changes nothing. -/
theorem Trusts.verifyAndPin {c : Client N} {key : Bytes} (h : c.Trusts key) (authenticated : Bytes)
    (env : Env) : ∃ r, c.verifyAndPin authenticated env = some (c, r)
      ∧ (r.isOk = true ↔ authenticated = key) := by
  obtain ⟨pin, hg, hk⟩ := h.pin
  by_cases ha : authenticated = key
  · subst ha
    refine ⟨_, verifyAndPin_pinned hg hk, ?_⟩
    simp [crossCheck_isOk_iff, h.announced, h.length]
  · have hne : pin.staticKey ≠ encodeBase64 authenticated := by
      rw [hk]
      exact fun he => ha (encodeBase64_injective he).symm
    obtain ⟨e, he⟩ := verifyAndPin_mismatch hg hne env
    exact ⟨_, he, by simp [Except.isOk, Except.toBool, ha]⟩

/-- Session `j`, which is `p`, is pending next to the ready active session `act`. -/
structure Pending (c : Client N) (act : NoiseSession N) (j : ℕ) (p : NoiseSession N) : Prop where
  active : ∃ i, i ≠ j ∧ c.HoldsActive i act
  pending : c.peer.pending = some j
  session : c.sessions[j]? = some p

theorem Pending.at {c : Client N} {act p : NoiseSession N} {j : ℕ} (h : c.Pending act j p)
    (hr : act.status = .ready) (hst : p.status = .handshaking)
    (hg : p.initiator = false → p.gotMsg1 = true) : c.At act (some p) := by
  obtain ⟨i, -, hi⟩ := h.active
  refine ⟨⟨i, hi⟩, Or.inr ⟨j, p, h.pending, h.session, rfl⟩, hr, ?_⟩
  rintro q ⟨⟩
  exact ⟨hst, hg⟩

theorem Pending.setSession {c : Client N} {act p : NoiseSession N} {j : ℕ}
    (h : c.Pending act j p) (p' : NoiseSession N) : (c.setSession j p').Pending act j p' := by
  obtain ⟨i, hij, hi⟩ := h.active
  exact ⟨⟨i, hij, hi.setSession hij.symm⟩, h.pending,
    List.getElem?_set_self (List.getElem?_eq_some_iff.1 h.session).1⟩

theorem Pending.abandon {c : Client N} {act p : NoiseSession N} {j : ℕ} (h : c.Pending act j p)
    (hr : act.status = .ready) : (c.abandon j).At act none := by
  obtain ⟨i, -, hi⟩ := h.active
  exact ⟨⟨i, hi.abandon⟩, Or.inl ⟨by simp [Client.abandon, h.pending], rfl⟩, hr, by simp⟩

theorem setSession_sameParty (c : Client N) (j : ℕ) (s : NoiseSession N) :
    c.SameParty (c.setSession j s) :=
  ⟨⟨rfl, rfl, rfl⟩, rfl, rfl, rfl, by simp [Client.setSession]⟩

theorem abandon_sameParty (c : Client N) (j : ℕ) : c.SameParty (c.abandon j) := by
  unfold Client.abandon
  split
  · exact ⟨⟨rfl, rfl, rfl⟩, rfl, rfl, rfl, Nat.le_refl _⟩
  · exact .refl c

/-- What an event puts on the wire is the reply, and it puts nothing on `c.messages`. -/
structure Replies (out : List Output) (reply : Option Bytes) : Prop where
  wire : out.filterMap Output.wire = (reply.map (encodeEnvelope envelopeHandshake)).toList
  received : out.filterMap Output.received = []

theorem replyOutput_replies {out : List Output} (h : Replies out none) (reply : Option Bytes) :
    Replies (replyOutput reply ++ out) reply := by
  rcases reply with _ | r
  · exact h
  · refine ⟨?_, ?_⟩
    · simpa [replyOutput, Output.wire] using h.wire
    · simpa [replyOutput, Output.received] using h.received

theorem settle_replies (c : Client N) (j : ℕ) (w : Bool) (result : PairResult) :
    Replies (c.settle j w result).2 none := by
  unfold settle
  split
  · exact ⟨rfl, rfl⟩
  · dsimp only
    rcases (takeFirstPairWaiter _).2 with _ | w <;> split <;> exact ⟨rfl, rfl⟩

theorem settle_sameParty {c : Client N} {j : ℕ} (h : c.peer.pending = some j)
    (result : PairResult) : c.SameParty (c.settle j true result).1 := by
  unfold settle takeFirstPairWaiter promote abandon
  simp only [h]
  split <;> exact ⟨⟨rfl, rfl, rfl⟩, rfl, rfl, rfl, Nat.le_refl _⟩

/-- A rekey that failed is abandoned. -/
theorem Pending.resolve_error {c : Client N} {act p : NoiseSession N} {j : ℕ}
    (h : c.Pending act j p) (hr : act.status = .ready) (e : GoError) (env : Env) :
    ∃ r, c.resolveHandshake j true (some e) env = some r ∧ r.1.At act none
      ∧ c.SameParty r.1 ∧ Replies r.2 none :=
  ⟨(c.abandon j, []), rfl, h.abandon hr, c.abandon_sameParty j, rfl, rfl⟩

/-- A rekey that ended well takes over, if it has the pinned key. -/
theorem Pending.resolve {c : Client N} {act p : NoiseSession N} {j : ℕ} {key : Bytes}
    (h : c.Pending act j p) (hr : act.status = .ready) (hp : p.status = .ready)
    (ht : c.Trusts key) (env : Env) :
    ∃ r act', c.resolveHandshake j true none env = some r ∧ r.1.At act' none
      ∧ c.SameParty r.1 ∧ Replies r.2 none
      ∧ if p.peerStatic = key then act' = p else act' = act := by
  obtain ⟨r, hv, hok⟩ := ht.verifyAndPin p.peerStatic env
  unfold resolveHandshake
  simp only [h.session, hv]
  rcases r with verr | pub
  · have hne : p.peerStatic ≠ key := fun he => by simpa [Except.isOk, Except.toBool] using hok.2 he
    have hmark : c.markFailed j verr
        = c.setSession j { p with status := .failed, err := some verr } := by
      simp only [markFailed, h.session]
    dsimp only
    rw [hmark]
    have hfail := h.setSession { p with status := .failed, err := some verr }
    exact ⟨_, act, rfl, hfail.abandon hr,
      (c.setSession_sameParty j _).trans (settle_sameParty hfail.pending _),
      settle_replies .., by rw [if_neg hne]⟩
  · obtain ⟨h1, h2, h3, -⟩ := settle_accepted h.pending
      { peerID := c.peer.id, peerPublicKey := some pub } rfl
    refine ⟨_, p, Eq.refl _, ⟨⟨j, h1, ?_⟩, Or.inl ⟨h2, rfl⟩, hp, by simp⟩,
      settle_sameParty h.pending _, settle_replies .., by rw [if_pos (hok.1 rfl)]⟩
    rw [h3]
    exact h.session

theorem handleHandshakeEnvelope_fed {c c₁ : Client N} {j : ℕ} {w : Bool} {p : NoiseSession N}
    {env : Env} (hsel : c.selectSession env.now = (c₁, .session j w))
    (hp : c₁.sessions[j]? = some p) (data : Bytes) :
    c.handleHandshakeEnvelope env data =
      if (p.handleHandshakeMessage data).done then
        ((c₁.setSession j (p.handleHandshakeMessage data).session).resolveHandshake j w
          (p.handleHandshakeMessage data).err env).map fun r =>
            (r.1, replyOutput (p.handleHandshakeMessage data).reply ++ r.2)
      else some (c₁.setSession j (p.handleHandshakeMessage data).session,
        replyOutput (p.handleHandshakeMessage data).reply) := by
  unfold handleHandshakeEnvelope peerHandleHandshakeEnvelope
  simp only [hsel, feedSession, hp]
  rcases (p.handleHandshakeMessage data).done with _ | _ <;> rfl

/-- What a client does with `data`, in terms of `Turn`. -/
def Turns (c : Client N) (key : Bytes) (act : NoiseSession N) (pend : Option (NoiseSession N))
    (env : Env) (data : Bytes) : Prop :=
  ∃ r act' pend' reply, c.handleHandshakeEnvelope env data = some r
    ∧ Turn c.privateKey.raw key act data pend act' pend' reply
    ∧ r.1.At act' pend' ∧ c.SameParty r.1 ∧ Replies r.2 reply

theorem Pending.turns {c : Client N} {act p : NoiseSession N} {j : ℕ} {key : Bytes} {env : Env}
    (h : c.Pending act j p) (hr : act.status = .ready) (hst : p.status = .handshaking)
    (hg : p.initiator = false → p.gotMsg1 = true) (ht : c.Trusts key) (data : Bytes) :
    c.Turns key act (some p) env data := by
  have hsel : c.selectSession env.now = (c, .session j true) := by
    simp [Client.selectSession, h.pending]
  have hfed := handleHandshakeEnvelope_fed hsel h.session data
  have hstep := p.handleHandshakeMessage_step data
  generalize p.handleHandshakeMessage data = m at hfed hstep
  cases hstep with
  | settled e hs => exact absurd hst hs
  | failed hs gotMsg1 e _ href =>
    obtain ⟨r, hres, hat, hsame, hrep⟩ := (h.setSession
      { p with hs, gotMsg1, status := .failed, err := some e }).resolve_error hr e env
    rw [hres] at hfed
    exact ⟨_, act, none, none, hfed, .refused p fun hi => href hi (hg hi), hat,
      (c.setSession_sameParty j _).trans hsame, hrep⟩
  | initiated hs hs' m3 split cs _ hi hread hw =>
    obtain ⟨r, act', hres, hat, hsame, hrep, hact⟩ := (h.setSession
      ({ p with hs := hs' }.finishLocked (cs1 cs) (cs2 cs))).resolve hr rfl
        ((c.setSession_sameParty j _).trusts ht) env
    rw [hres] at hfed
    exact ⟨_, act', none, some m3, hfed, .initiated p hs hs' m3 split cs hi hread hw act' hact, hat,
      (c.setSession_sameParty j _).trans hsame, replyOutput_replies hrep _⟩
  | answered hs hs' m2 split cs _ hi hgot => rw [hg hi] at hgot; cases hgot
  | responded hs cs _ hi _ hread =>
    obtain ⟨r, act', hres, hat, hsame, hrep, hact⟩ := (h.setSession
      ({ p with hs := hs }.finishLocked (cs2 cs) (cs1 cs))).resolve hr rfl
        ((c.setSession_sameParty j _).trusts ht) env
    rw [hres] at hfed
    exact ⟨_, act', none, none, hfed, .responded p hs cs hi hread act' hact, hat,
      (c.setSession_sameParty j _).trans hsame, hrep⟩

theorem Pending.turns_fresh {c c₁ : Client N} {act : NoiseSession N} {hs : N.Hs} {j : ℕ}
    {key rand : Bytes} {env : Env} (hsel : c.selectSession env.now = (c₁, .session j true))
    (h : c₁.Pending act j { initiator := false, hs }) (hr : act.status = .ready)
    (hnew : N.newHandshakeState false c.privateKey.raw rand = .ok hs) (hsame : c.SameParty c₁)
    (data : Bytes) : c.Turns key act none env data := by
  have hfed := handleHandshakeEnvelope_fed hsel h.session data
  have hstep := NoiseSession.handleHandshakeMessage_step { initiator := false, hs } data
  generalize NoiseSession.handleHandshakeMessage { initiator := false, hs } data = m at hfed hstep
  cases hstep with
  | settled e hst => exact absurd rfl hst
  | failed hs' gotMsg1 e _ href =>
    obtain ⟨r, hres, hat, hsame', hrep⟩ := (h.setSession
      { initiator := false, hs := hs', gotMsg1, status := .failed, err := some e }).resolve_error
        hr e env
    rw [hres] at hfed
    exact ⟨_, act, none, none, hfed, .ignored, hat,
      hsame.trans ((c₁.setSession_sameParty j _).trans hsame'), hrep⟩
  | initiated _ _ _ _ _ _ hi => cases hi
  | answered hs₁ hs' m2 split cs _ _ _ hread hw =>
    refine ⟨_, act, _, some m2, hfed, .answered rand m2 hs' ?_, (h.setSession _).at hr rfl
      (fun _ => rfl), hsame.trans (c₁.setSession_sameParty j _), ?_⟩
    · simp [Noise.responder, hnew, hread, hw]
    · simpa using replyOutput_replies (show Replies [] none from ⟨rfl, rfl⟩) (some m2)
  | responded _ _ _ _ hg => cases hg

theorem At.turns {c : Client N} {act : NoiseSession N} {pend : Option (NoiseSession N)}
    {key : Bytes} (h : c.At act pend) (ht : c.Trusts key) (env : Env) (data : Bytes) :
    c.Turns key act pend env data := by
  obtain ⟨i, hi⟩ := h.active
  rcases h.pending with ⟨hnone, rfl⟩ | ⟨j, p, hj, hp, rfl⟩
  swap
  · obtain ⟨hst, hg⟩ := h.handshaking p rfl
    refine Pending.turns ⟨⟨i, ?_, hi⟩, hj, hp⟩ h.ready hst hg ht data
    rintro rfl
    rw [hi.session, Option.some.injEq] at hp
    subst hp
    rw [h.ready] at hst
    cases hst
  by_cases hlim : c.rateLimited env.now = true
  · have hsel : c.selectSession env.now = (c, .dropped) := by
      simp [Client.selectSession, hnone, hi.active, hi.ready h.ready, hlim]
    refine ⟨(c, []), act, none, none, ?_, .ignored, h, .refl c, rfl, rfl⟩
    simp [handleHandshakeEnvelope, peerHandleHandshakeEnvelope, hsel, replyOutput]
  rcases hn : N.newHandshakeState false c.privateKey.raw c.nextRand with e | hs
  · obtain ⟨err, hnew⟩ : ∃ err, newResponderSession N c.privateKey c.nextRand = .error err :=
      ⟨_, by simp only [newResponderSession, hn]; rfl⟩
    have hsel : c.selectSession env.now
        = ({ c with peer := { c.peer with lastUnsolicitedMsg1 := some env.now } }, .failed err) := by
      unfold Client.selectSession
      simp only [hnone, hi.active, hi.ready h.ready, hlim, hnew]
      rfl
    refine ⟨({ c with peer := { c.peer with lastUnsolicitedMsg1 := some env.now } }, []), act, none,
      none, ?_, .ignored, ⟨⟨i, hi.active, hi.session⟩, Or.inl ⟨hnone, rfl⟩, h.ready, by simp⟩,
      ⟨⟨rfl, rfl, rfl⟩, rfl, rfl, rfl, Nat.le_refl _⟩, rfl, rfl⟩
    simp [handleHandshakeEnvelope, peerHandleHandshakeEnvelope, hsel, replyOutput]
  · have hnew : newResponderSession N c.privateKey c.nextRand
        = .ok { initiator := false, hs } := by simp [newResponderSession, hn]
    have hsel : c.selectSession env.now = ({ c with
        sessions := c.sessions ++ [{ initiator := false, hs }]
        peer := { c.peer with
          pending := some c.sessions.length
          lastUnsolicitedMsg1 := some env.now } }, .session c.sessions.length true) := by
      unfold Client.selectSession
      simp only [hnone, hi.active, hi.ready h.ready, hlim, hnew]
      rfl
    exact Pending.turns_fresh hsel ⟨⟨i, Nat.ne_of_lt hi.lt, hi.active,
      getElem?_append_left hi.session⟩, rfl, by simp⟩ h.ready hn
      ⟨⟨rfl, rfl, rfl⟩, rfl, rfl, rfl, by simp⟩ data

theorem At.replyTag {c : Client N} {act : NoiseSession N} {pend : Option (NoiseSession N)}
    (h : c.At act pend) :
    c.replyTag = if pend.any NoiseSession.initiator then .msg3 else .msg2 := by
  rw [← h.pendingSession]
  rfl

/-- The active session moves on; the pending one is another. -/
theorem At.setActive {c : Client N} {act act' : NoiseSession N} {pend : Option (NoiseSession N)}
    {i : ℕ} (h : c.At act pend) (hi : c.HoldsActive i act) (hr : act'.status = .ready) :
    (c.setSession i act').At act' pend := by
  refine ⟨⟨i, hi.active, List.getElem?_set_self hi.lt⟩, ?_, hr, h.handshaking⟩
  rcases h.pending with hnone | ⟨j, p, hj, hp, rfl⟩
  · exact Or.inl hnone
  · refine Or.inr ⟨j, p, hj, ?_, rfl⟩
    have hij : i ≠ j := by
      rintro rfl
      have hst := (h.handshaking p rfl).1
      rw [hi.session, Option.some.injEq] at hp
      rw [← hp, h.ready] at hst
      cases hst
    rw [Client.setSession, List.getElem?_set_ne hij, hp]

theorem HoldsActive.send {c : Client N} {act : NoiseSession N} {i : ℕ} (h : c.HoldsActive i act)
    (payload : Bytes) : c.send c.peer.id payload = match act.encrypt payload with
      | .error e => .error e
      | .ok (ciphertext, s) =>
        .ok (c.setSession i s, encodeEnvelope envelopeTransport ciphertext) := by
  rcases henc : act.encrypt payload with e | ⟨ciphertext, s⟩ <;>
    simp [Client.send, h.active, h.session, henc]

theorem HoldsActive.handleTransportEnvelope {c : Client N} {act : NoiseSession N} {i : ℕ}
    (h : c.HoldsActive i act) (ciphertext : Bytes) :
    c.handleTransportEnvelope ciphertext = match act.decrypt ciphertext with
      | .error _ => (c, [])
      | .ok (plaintext, s) => (c.setSession i s, [.message c.peer.id plaintext]) := by
  rcases hdec : act.decrypt ciphertext with e | ⟨plaintext, s⟩ <;>
    simp [Client.handleTransportEnvelope, h.active, h.session, hdec]

theorem At.send {c : Client N} {act : NoiseSession N} {pend : Option (NoiseSession N)}
    (h : c.At act pend) (payload : Bytes) :
    (∃ e, c.send c.peer.id payload = .error e)
      ∨ ∃ c' cs, act.sendCS = some cs ∧ cs.exhausted = false
        ∧ c.send c.peer.id payload = .ok (c', encodeEnvelope envelopeTransport
          (N.aeadEncrypt cs.key cs.n payload))
        ∧ c'.At { act with sendCS := some { cs with n := cs.n + 1 } } pend ∧ c.SameParty c' := by
  obtain ⟨i, hi⟩ := h.active
  have hsend := hi.send payload
  rcases hcs : act.sendCS with _ | cs
  · left
    rw [hsend]
    simp [NoiseSession.encrypt, h.ready, hcs]
  rcases hx : cs.exhausted with _ | _
  · right
    have henc : act.encrypt payload = .ok (N.aeadEncrypt cs.key cs.n payload,
        { act with sendCS := some { cs with n := cs.n + 1 } }) := by
      simp [NoiseSession.encrypt, h.ready, hcs, CipherState.encrypt, hx]
    rw [henc] at hsend
    exact ⟨_, cs, rfl, hx, hsend, h.setActive hi h.ready, c.setSession_sameParty i _⟩
  · left
    rw [hsend]
    simp [NoiseSession.encrypt, h.ready, hcs, CipherState.encrypt, hx]

theorem At.handleTransportEnvelope {c : Client N} {act : NoiseSession N}
    {pend : Option (NoiseSession N)} (h : c.At act pend) (ciphertext : Bytes) :
    ((∃ e, act.decrypt ciphertext = .error e) ∧ c.handleTransportEnvelope ciphertext = (c, []))
      ∨ ∃ c' cs plaintext, act.recvCS = some cs
        ∧ cs.decrypt ciphertext = .ok (plaintext, { cs with n := cs.n + 1 })
        ∧ c.handleTransportEnvelope ciphertext = (c', [.message c.peer.id plaintext])
        ∧ c'.At { act with recvCS := some { cs with n := cs.n + 1 } } pend ∧ c.SameParty c' := by
  obtain ⟨i, hi⟩ := h.active
  have hrecv := hi.handleTransportEnvelope ciphertext
  rcases hcs : act.recvCS with _ | cs
  · left
    have hdec : ∃ e, act.decrypt ciphertext = .error e := by
      simp [NoiseSession.decrypt, h.ready, hcs]
    obtain ⟨e, he⟩ := hdec
    exact ⟨⟨e, he⟩, by rw [hrecv, he]⟩
  rcases hd : cs.decrypt ciphertext with e | ⟨plaintext, cs'⟩
  · left
    have hdec : act.decrypt ciphertext = .error ⟨e, none⟩ := by
      simp [NoiseSession.decrypt, h.ready, hcs, hd]
    exact ⟨⟨_, hdec⟩, by rw [hrecv, hdec]⟩
  · right
    obtain rfl : cs' = { cs with n := cs.n + 1 } := by
      unfold CipherState.decrypt at hd
      split at hd
      · cases hd
      · split at hd <;> cases hd
        rfl
    have hdec : act.decrypt ciphertext
        = .ok (plaintext, { act with recvCS := some { cs with n := cs.n + 1 } }) := by
      simp [NoiseSession.decrypt, h.ready, hcs, hd]
    rw [hdec] at hrecv
    exact ⟨_, cs, plaintext, rfl, hd, hrecv, h.setActive hi h.ready, c.setSession_sameParty i _⟩

/-- The side with the larger ID does nothing on `peer_status`. -/
theorem handlePeerStatus_larger {c : Client N} (hid : c.peer.id ≤ c.deviceID) (peerID : String) :
    c.handlePeerStatus peerID true = (c, [.onPeerStatus peerID true]) := by
  unfold Client.handlePeerStatus
  dsimp only
  split_ifs <;> rfl

theorem handlePeerStatus_smaller {c : Client N} (hid : ¬ c.peer.id ≤ c.deviceID) :
    c.handlePeerStatus c.peer.id true = match c.startRekeyAsInitiator with
      | (c', .error _) => (c', [.onPeerStatus c.peer.id true])
      | (c', .ok msg1) =>
        (c', [.onPeerStatus c.peer.id true, .envelope envelopeHandshake msg1]) := by
  simp only [Client.handlePeerStatus, hid, Bool.not_true, Bool.false_eq_true, ne_eq,
    not_true_eq_false, if_false]
  rfl

/-- The side with the smaller ID starts a rekey on `peer_status`, unless the library fails. -/
theorem At.handlePeerStatus {c : Client N} {act : NoiseSession N} {pend : Option (NoiseSession N)}
    (h : c.At act pend) (hid : ¬ c.peer.id ≤ c.deviceID) :
    c.handlePeerStatus c.peer.id true = (c, [.onPeerStatus c.peer.id true])
      ∨ ∃ c' m1 hs, N.initiator c.privateKey.raw (c.rand c.sessions.length) = some (m1, hs)
        ∧ c.handlePeerStatus c.peer.id true
          = (c', [.onPeerStatus c.peer.id true, .envelope envelopeHandshake m1])
        ∧ c'.At act (some { initiator := true, hs }) ∧ c.SameParty c'
        ∧ c.sessions.length < c'.sessions.length := by
  obtain ⟨i, hi⟩ := h.active
  have hstart := handlePeerStatus_smaller hid
  unfold startRekeyAsInitiator at hstart
  rcases hn : newInitiatorSession N c.privateKey c.nextRand with e | ⟨s, m1⟩ <;>
    simp only [hn] at hstart
  · exact Or.inl hstart
  · obtain ⟨hs, rfl, hinit⟩ := newInitiatorSession_ok hn
    refine Or.inr ⟨_, m1, hs, hinit, hstart, ⟨⟨i, hi.active, getElem?_append_left hi.session⟩,
      Or.inr ⟨c.sessions.length, _, rfl, by simp, rfl⟩, h.ready, ?_⟩,
      ⟨⟨rfl, rfl, rfl⟩, rfl, rfl, rfl, by simp⟩, by simp⟩
    rintro p ⟨⟩
    exact ⟨rfl, by simp⟩

end Client

end Relayly.Go
