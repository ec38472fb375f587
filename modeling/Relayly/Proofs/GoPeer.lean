import Relayly.Lib.Run
import Relayly.Proofs.GoPin
import Relayly.PlainNoise

/-!
# Make-before-break in the Go client

While the active session is ready, a handshake envelope is fed to the pending session or to a new
responder session that becomes pending, so the active slot changes only by `promote`, and that is
reached only through `verifyAndPin`.
-/

namespace Relayly.Go

variable {N : Noise}

namespace NoiseSession

theorem ready_iff {s : NoiseSession N} : s.ready = true ↔ s.status = .ready := by
  simp [ready]

/-- Everything a handshake message can do to a session. -/
inductive Step (s : NoiseSession N) (data : Bytes) : Handled N → Prop
  | settled (e : GoError) (hs : s.status ≠ .handshaking) :
      Step s data ⟨s, none, true, some e⟩
  | failed (hs : N.Hs) (gotMsg1 : Bool) (e : GoError) (hst : s.status = .handshaking)
      (hr : s.initiator = false → s.gotMsg1 = true → ∃ e, N.readMessage s.hs data = .error e) :
      Step s data
        ⟨{ s with hs, gotMsg1, status := .failed, err := some e }, none, true, some e⟩
  | initiated (hs hs' : N.Hs) (reply : Bytes) (split cs : Option (N.Key × N.Key))
      (hst : s.status = .handshaking) (hi : s.initiator = true)
      (hr : N.readMessage s.hs data = .ok (hs, split))
      (hw : N.writeMessage hs = .ok (reply, hs', cs)) :
      Step s data ⟨{ s with hs := hs' }.finishLocked (cs1 cs) (cs2 cs), some reply, true, none⟩
  | answered (hs hs' : N.Hs) (reply : Bytes) (split cs : Option (N.Key × N.Key))
      (hst : s.status = .handshaking) (hi : s.initiator = false) (hg : s.gotMsg1 = false)
      (hr : N.readMessage s.hs data = .ok (hs, split))
      (hw : N.writeMessage hs = .ok (reply, hs', cs)) :
      Step s data ⟨{ s with hs := hs', gotMsg1 := true }, some reply, false, none⟩
  | responded (hs : N.Hs) (cs : Option (N.Key × N.Key))
      (hst : s.status = .handshaking) (hi : s.initiator = false) (hg : s.gotMsg1 = true)
      (hr : N.readMessage s.hs data = .ok (hs, cs)) :
      Step s data ⟨{ s with hs := hs }.finishLocked (cs2 cs) (cs1 cs), none, true, none⟩

theorem step_failWith {s : NoiseSession N} {data : Bytes} (hst : s.status = .handshaking)
    (hr : s.initiator = false → s.gotMsg1 = true → ∃ e, N.readMessage s.hs data = .error e)
    (hs : N.Hs) (gotMsg1 : Bool) (e : GoError) :
    Step s data ({ s with hs, gotMsg1 }.failWith e) := by
  have : ({ s with hs, gotMsg1 } : NoiseSession N).failWith e
      = { session := { s with hs, gotMsg1, status := .failed, err := some e }, done := true,
          err := some e } := by
    simp [failWith, failLocked, hst]
  rw [this]
  exact .failed hs gotMsg1 e hst hr

theorem handleHandshakeMessage_step (s : NoiseSession N) (data : Bytes) :
    Step s data (s.handleHandshakeMessage data) := by
  by_cases hst : s.status = .handshaking
  swap
  · rw [handleHandshakeMessage, if_pos hst]
    exact .settled _ hst
  rw [handleHandshakeMessage, if_neg (by simp [hst])]
  by_cases hi : s.initiator = true
  · rw [if_pos hi]
    rcases hr : N.readMessage s.hs data with e | ⟨hs, split⟩
    · exact step_failWith hst (by simp [hi]) s.hs s.gotMsg1 _
    · dsimp only
      rcases hw : N.writeMessage hs with e | ⟨reply, hs', cs⟩
      · exact step_failWith hst (by simp [hi]) hs s.gotMsg1 _
      · exact .initiated hs hs' reply split cs hst hi hr hw
  rw [if_neg hi]
  by_cases hg : s.gotMsg1 = true
  · rw [if_neg (by simp [hg])]
    rcases hr : N.readMessage s.hs data with e | ⟨hs, cs⟩
    · exact step_failWith hst (fun _ _ => ⟨e, hr⟩) s.hs s.gotMsg1 _
    · exact .responded hs cs hst (by simpa using hi) hg hr
  · rw [if_pos (by simp [hg])]
    rcases hr : N.readMessage s.hs data with e | ⟨hs, split⟩
    · exact step_failWith hst (fun _ h => absurd h hg) s.hs s.gotMsg1 _
    · dsimp only
      rcases hw : N.writeMessage hs with e | ⟨reply, hs', cs⟩
      · exact step_failWith hst (fun _ h => absurd h hg) hs true _
      · exact .answered hs hs' reply split cs hst (by simpa using hi) (by simpa using hg) hr hw

end NoiseSession

namespace Client

/-- Slot `active` points at session `i`, which is `s`. -/
structure HoldsActive (c : Client N) (i : ℕ) (s : NoiseSession N) : Prop where
  active : c.peer.active = some i
  session : c.sessions[i]? = some s

theorem HoldsActive.lt {c : Client N} {i : ℕ} {s : NoiseSession N} (h : c.HoldsActive i s) :
    i < c.sessions.length := (List.getElem?_eq_some_iff.1 h.session).1

theorem HoldsActive.ready {c : Client N} {i : ℕ} {s : NoiseSession N} (h : c.HoldsActive i s)
    (hs : s.status = .ready) : c.ready i = true := by
  simp [Client.ready, h.session, NoiseSession.ready_iff.2 hs]

theorem getElem?_append_left {ss : List (NoiseSession N)} {i : ℕ} {s s' : NoiseSession N}
    (h : ss[i]? = some s) : (ss ++ [s'])[i]? = some s := by
  rw [List.getElem?_append_left (List.getElem?_eq_some_iff.1 h).1, h]

theorem HoldsActive.setSession {c : Client N} {i j : ℕ} {s s' : NoiseSession N}
    (h : c.HoldsActive i s) (hj : j ≠ i) : (c.setSession j s').HoldsActive i s :=
  ⟨h.active, by rw [Client.setSession, List.getElem?_set_ne hj, h.session]⟩

theorem HoldsActive.abandon {c : Client N} {i j : ℕ} {s : NoiseSession N}
    (h : c.HoldsActive i s) : (c.abandon j).HoldsActive i s := by
  unfold Client.abandon
  split
  · exact ⟨h.active, h.session⟩
  · exact h

/-- `peer_status` puts at most a new initiator session in the pending slot. -/
theorem HoldsActive.handlePeerStatus {c : Client N} {i : ℕ} {s : NoiseSession N}
    (h : c.HoldsActive i s) (peerID : String) (online : Bool) :
    (c.handlePeerStatus peerID online).1.HoldsActive i s := by
  unfold Client.handlePeerStatus
  dsimp only
  split_ifs
  · exact h
  · exact h
  · exact h
  · unfold startRekeyAsInitiator
    rcases newInitiatorSession N c.privateKey c.nextRand with e | ⟨session, msg1⟩
    · exact h
    · exact ⟨h.active, getElem?_append_left h.session⟩

/-- With a ready active session, an envelope is dropped or goes to the pending slot. -/
theorem HoldsActive.selectSession {c : Client N} {i : ℕ} {s : NoiseSession N}
    (h : c.HoldsActive i s) (hs : s.status = .ready) (now : ℕ) :
    (c.selectSession now).1.HoldsActive i s
      ∧ ∀ j w, (c.selectSession now).2 = .session j w →
        w = true ∧ (c.selectSession now).1.peer.pending = some j := by
  unfold Client.selectSession
  rcases hp : c.peer.pending with _ | p
  · rw [h.active]
    simp only [h.ready hs, Bool.not_true, Bool.false_eq_true, if_false]
    split_ifs
    · exact ⟨h, by simp⟩
    · rcases newResponderSession N c.privateKey c.nextRand with e | session
      · exact ⟨⟨h.active, h.session⟩, by simp⟩
      · refine ⟨⟨h.active, getElem?_append_left h.session⟩, ?_⟩
        rintro j w ⟨⟩
        exact ⟨rfl, rfl⟩
  · refine ⟨h, ?_⟩
    rintro j w ⟨⟩
    exact ⟨rfl, hp⟩

/-- Feeding the pending slot leaves a ready active session alone, even where both slots point at
it: it takes no handshake message. -/
theorem HoldsActive.feedSession {c : Client N} {i : ℕ} {s : NoiseSession N}
    (h : c.HoldsActive i s) (hs : s.status = .ready) (j : ℕ) (w : Bool) (data : Bytes) :
    (c.feedSession j w data).1.HoldsActive i s := by
  unfold Client.feedSession
  rcases hj : c.sessions[j]? with _ | s'
  · exact h
  · by_cases hji : j = i
    · subst hji
      obtain rfl : s = s' := by simpa [h.session] using hj
      have hset : (s.handleHandshakeMessage data).session = s := by
        simp [NoiseSession.handleHandshakeMessage, hs]
      refine ⟨h.active, ?_⟩
      simp only [Client.setSession, hset]
      exact List.getElem?_set_self h.lt
    · exact h.setSession hji

/-- What feeding a session returns once it has ended: a session that ended well is ready now and
was not before. -/
theorem feedSession_completed {c : Client N} {j k : ℕ} {w : Bool} {data : Bytes}
    (hc : (c.feedSession j w data).2.completed = some k) :
    k = j ∧ (c.feedSession j w data).2.wasPending = w
      ∧ (c.feedSession j w data).1.peer = c.peer
      ∧ ((c.feedSession j w data).2.err = none →
        ∃ s s', c.sessions[j]? = some s ∧ s.status = .handshaking
          ∧ (c.feedSession j w data).1.sessions[j]? = some s' ∧ s'.status = .ready) := by
  unfold Client.feedSession at hc ⊢
  rcases hj : c.sessions[j]? with _ | s
  · simp [hj] at hc
  · simp only [hj] at hc ⊢
    have hlt := (List.getElem?_eq_some_iff.1 hj).1
    have hstep := s.handleHandshakeMessage_step data
    revert hc
    generalize s.handleHandshakeMessage data = r at hstep
    intro hc
    refine ⟨?_, trivial, rfl, fun he => ?_⟩
    · split at hc
      · exact (Option.some.inj hc).symm
      · cases hc
    · cases hstep with
      | settled | failed => cases he
      | answered => cases hc
      | initiated _ _ _ _ _ hst | responded _ _ hst =>
        exact ⟨s, _, rfl, hst, List.getElem?_set_self hlt, rfl⟩

/-- What `peerConn.handleHandshakeEnvelope` leaves and returns next to a ready active session `i`:
a handshake that has ended is the pending one, and if it ended well it is not session `i`. -/
structure BesideActive (i : ℕ) (s : NoiseSession N) (c : Client N) (e : Envelope) : Prop where
  holds : c.HoldsActive i s
  pending : ∀ k, e.completed = some k → e.wasPending = true ∧ c.peer.pending = some k
  ready : ∀ k, e.completed = some k → e.err = none →
    k ≠ i ∧ ∃ s', c.sessions[k]? = some s' ∧ s'.status = .ready

theorem HoldsActive.peerHandleHandshakeEnvelope {c : Client N} {i : ℕ} {s : NoiseSession N}
    (h : c.HoldsActive i s) (hs : s.status = .ready) (now : ℕ) (data : Bytes) :
    BesideActive i s (c.peerHandleHandshakeEnvelope now data).1
      (c.peerHandleHandshakeEnvelope now data).2 := by
  obtain ⟨h1, hsel⟩ := h.selectSession hs now
  unfold Client.peerHandleHandshakeEnvelope
  rcases hc : c.selectSession now with ⟨c₁, ⟨j, w⟩ | _ | e⟩
  · rw [hc] at h1 hsel
    obtain ⟨rfl, hp⟩ := hsel j w rfl
    refine ⟨h1.feedSession hs j true data, fun k hk => ?_, fun k hk he => ?_⟩
    · obtain ⟨rfl, hw, hpeer, -⟩ := feedSession_completed hk
      exact ⟨hw, by rw [hpeer]; exact hp⟩
    · obtain ⟨rfl, -, -, hend⟩ := feedSession_completed hk
      obtain ⟨s₀, s', h0, hst, h2, hr⟩ := hend he
      refine ⟨?_, s', h2, hr⟩
      rintro rfl
      rw [h1.session, Option.some.injEq] at h0
      subst h0
      rw [hs] at hst
      cases hst
  · rw [hc] at h1
    exact ⟨h1, by simp, by simp⟩
  · rw [hc] at h1
    exact ⟨h1, by simp, by simp⟩

/-- A rejected rekey leaves the active session. -/
theorem HoldsActive.settle_error {c : Client N} {i : ℕ} {s : NoiseSession N}
    (h : c.HoldsActive i s) (k : ℕ) (id : String) (err : GoError) :
    (c.settle k true { peerID := id, error := some err }).1.HoldsActive i s := by
  simpa [settle] using h.abandon

/-- An accepted rekey takes the active slot and empties the pending one. -/
theorem settle_accepted {c : Client N} {k : ℕ} (hp : c.peer.pending = some k) (result : PairResult)
    (hr : result.error = none) :
    (c.settle k true result).1.peer.active = some k
      ∧ (c.settle k true result).1.peer.pending = none
      ∧ (c.settle k true result).1.sessions = c.sessions
      ∧ (c.settle k true result).1.peerStore = c.peerStore := by
  simp [settle, hr, promote, hp, takeFirstPairWaiter]

theorem settle_peerStore (c : Client N) (k : ℕ) (w : Bool) (result : PairResult) :
    (c.settle k w result).1.peerStore = c.peerStore := by
  unfold settle takeFirstPairWaiter promote abandon
  split_ifs <;> rfl

theorem markFailed_peerStore (c : Client N) (k : ℕ) (err : GoError) :
    (c.markFailed k err).peerStore = c.peerStore := by
  unfold markFailed
  split <;> rfl

/-- `c'` has the peer store of `c` and its peer's identity. -/
structure SameTrust (c c' : Client N) : Prop where
  peerStore : c'.peerStore = c.peerStore
  id : c'.peer.id = c.peer.id
  announced : c'.peer.announcedStaticKey = c.peer.announcedStaticKey

theorem selectSession_sameTrust (c : Client N) (now : ℕ) :
    c.SameTrust (c.selectSession now).1 := by
  unfold Client.selectSession
  repeat' split
  all_goals exact ⟨rfl, rfl, rfl⟩

theorem feedSession_sameTrust (c : Client N) (k : ℕ) (w : Bool) (data : Bytes) :
    c.SameTrust (c.feedSession k w data).1 := by
  unfold Client.feedSession
  split <;> exact ⟨rfl, rfl, rfl⟩

theorem SameTrust.trans {c₁ c₂ c₃ : Client N} (h : c₁.SameTrust c₂) (h' : c₂.SameTrust c₃) :
    c₁.SameTrust c₃ :=
  ⟨h'.peerStore.trans h.peerStore, h'.id.trans h.id, h'.announced.trans h.announced⟩

theorem peerHandleHandshakeEnvelope_sameTrust (c : Client N) (now : ℕ) (data : Bytes) :
    c.SameTrust (c.peerHandleHandshakeEnvelope now data).1 := by
  have h := c.selectSession_sameTrust now
  unfold Client.peerHandleHandshakeEnvelope
  rcases hc : c.selectSession now with ⟨c₁, ⟨j, w⟩ | _ | e⟩
  · rw [hc] at h
    exact h.trans (c₁.feedSession_sameTrust j w data)
  · rw [hc] at h
    exact h
  · rw [hc] at h
    exact h

/-- What an event does next to the ready active session `s` in slot `i`, `r` being the pending
session it completes and has accepted: that session takes over, and without one nothing happens to
`s`. -/
def MadeBeforeBroken (c : Client N) (i : ℕ) (s : NoiseSession N) (c' : Client N) :
    Option (ℕ × NoiseSession N) → Prop
  | none => c'.HoldsActive i s
  | some (k, s') => c'.HoldsActive k s' ∧ s'.status = .ready ∧ c'.peer.pending = none
    ∧ (∃ pin, c'.peerStore.get c.peer.id = some pin ∧ pin.staticKey = encodeBase64 s'.peerStatic)
    ∧ c.Announced s'.peerStatic

theorem BesideActive.resolve {i k : ℕ} {s s' : NoiseSession N} {c c' : Client N} {e : Envelope}
    {env : Env} {out : List Output} (h : BesideActive i s c e) (hk : e.completed = some k)
    (he : e.err = none) (hs' : c.sessions[k]? = some s')
    (hres : c.resolveHandshake k true none env = some (c', out)) :
    (∃ c₁ verr, c.verifyAndPin s'.peerStatic env = some (c₁, .error verr) ∧ c'.HoldsActive i s)
      ∨ ∃ c₁ pub, c.verifyAndPin s'.peerStatic env = some (c₁, .ok pub)
        ∧ c.MadeBeforeBroken i s c' (some (k, s')) := by
  obtain ⟨hki, s₁, hs₁, hready⟩ := h.ready k hk he
  obtain rfl : s' = s₁ := by simpa [hs'] using hs₁
  unfold resolveHandshake at hres
  simp only [hs'] at hres
  rcases hv : c.verifyAndPin s'.peerStatic env with _ | ⟨c₁, verr | pub⟩
  · simp [hv] at hres
  · left
    obtain ⟨ps, rfl⟩ := verifyAndPin_store hv
    simp only [hv, Option.some.injEq] at hres
    refine ⟨_, verr, rfl, ?_⟩
    have hfail : (({ c with peerStore := ps } : Client N).markFailed k verr).HoldsActive i s := by
      have h0 : ({ c with peerStore := ps } : Client N).HoldsActive i s :=
        ⟨h.holds.active, h.holds.session⟩
      simp only [markFailed, hs']
      exact h0.setSession hki
    have hc' := congrArg Prod.fst hres
    dsimp only at hc'
    subst hc'
    exact hfail.settle_error k _ _
  · right
    obtain ⟨hpin, hann, -⟩ := verifyAndPin_ok hv
    obtain ⟨ps, rfl⟩ := verifyAndPin_store hv
    simp only [hv, Option.some.injEq] at hres
    have hp : ({ c with peerStore := ps } : Client N).peer.pending = some k := (h.pending k hk).2
    obtain ⟨h1, h2, h3, h4⟩ := settle_accepted hp
      { peerID := c.peer.id, peerPublicKey := some pub } rfl
    have hc' := congrArg Prod.fst hres
    dsimp only at hc'
    subst hc'
    exact ⟨_, pub, rfl, ⟨h1, by rw [h3]; exact hs'⟩, hready, h2, by rw [h4]; exact hpin, hann⟩

theorem HoldsActive.handleEvent {c c' : Client N} {i : ℕ} {s : NoiseSession N}
    (h : c.HoldsActive i s) (hs : s.status = .ready) {ev : RelayEvent}
    (hev : c.handleEvent ev = some c') : c.MadeBeforeBroken i s c' (c.accepted ev) := by
  cases ev with
  | peerStatus peerID online =>
    simp only [Client.handleEvent, Option.some.injEq] at hev
    subst hev
    exact h.handlePeerStatus peerID online
  | handshake env payload =>
    have hb := h.peerHandleHandshakeEnvelope hs env.now payload
    simp only [Client.handleEvent, handleHandshakeEnvelope, Option.map_eq_some_iff] at hev
    obtain ⟨⟨c₂, out⟩, hev, rfl⟩ := hev
    have ht := c.peerHandleHandshakeEnvelope_sameTrust env.now payload
    unfold accepted
    rcases hc : c.peerHandleHandshakeEnvelope env.now payload with ⟨c₁, reply, _ | k, w, err⟩
    · rw [hc] at hb hev
      simp only [Option.some.injEq, Prod.mk.injEq] at hev
      obtain ⟨rfl, -⟩ := hev
      simpa only [hc, MadeBeforeBroken] using hb.holds
    rw [hc] at hb hev ht
    obtain rfl : w = true := (hb.pending k rfl).1
    simp only [Option.map_eq_some_iff, Prod.exists, Prod.mk.injEq] at hev
    obtain ⟨c₃, out', hres, rfl, -⟩ := hev
    rcases err with _ | e
    · obtain ⟨-, s', hs', -⟩ := hb.ready k rfl rfl
      rcases hb.resolve rfl rfl hs' hres with ⟨c₄, verr, hv, hold⟩ | ⟨c₄, pub, hv, hmade⟩
      · simpa only [hc, hs', hv, MadeBeforeBroken] using hold
      · obtain ⟨h1, h2, h3, h4, h5⟩ := hmade
        simp only [hc, hs', hv]
        refine ⟨h1, h2, h3, ?_, ?_⟩
        · rwa [← ht.id]
        · unfold Announced at h5 ⊢
          rwa [← ht.announced]
    · simp only [resolveHandshake, Option.some.injEq] at hres
      have hc' := congrArg Prod.fst hres
      dsimp only at hc'
      subst hc'
      simpa only [hc, MadeBeforeBroken] using hb.holds.settle_error k _ _

/-- The active session is ready. -/
def ReadyActive (c : Client N) : Prop := ∃ i s, c.HoldsActive i s ∧ s.status = .ready

theorem ReadyActive.handleEvent {c c' : Client N} {ev : RelayEvent} (h : c.ReadyActive)
    (hev : c.handleEvent ev = some c') : c'.ReadyActive := by
  obtain ⟨i, s, hi, hs⟩ := h
  have hm := hi.handleEvent hs hev
  rcases ha : c.accepted ev with _ | ⟨k, s'⟩ <;> rw [ha] at hm
  · exact ⟨i, s, hm, hs⟩
  · exact ⟨k, s', hm.1, hm.2.1⟩

theorem resolveHandshake_isSome {c : Client N} (hp : c.peerStore.peers.isSome) (k : ℕ) (w : Bool)
    (hsErr : Option GoError) (env : Env) :
    ∃ r, c.resolveHandshake k w hsErr env = some r ∧ r.1.peerStore.peers.isSome := by
  unfold resolveHandshake
  rcases hsErr with _ | e
  · rcases c.sessions[k]? with _ | s
    · exact ⟨(c, []), rfl, hp⟩
    · obtain ⟨c₂, verr | pub, hv, hp₂⟩ := verifyAndPin_isSome hp s.peerStatic env
      · dsimp only
        rw [hv]
        exact ⟨_, rfl, by rw [settle_peerStore, markFailed_peerStore]; exact hp₂⟩
      · dsimp only
        rw [hv]
        exact ⟨_, rfl, by rw [settle_peerStore]; exact hp₂⟩
  · exact ⟨_, rfl, by rw [settle_peerStore]; exact hp⟩

/-- A client whose peer store has its map handles every event, and keeps the map. -/
theorem handleEvent_isSome {c : Client N} (hp : c.peerStore.peers.isSome) (ev : RelayEvent) :
    ∃ c', c.handleEvent ev = some c' ∧ c'.peerStore.peers.isSome := by
  cases ev with
  | peerStatus peerID online =>
    refine ⟨_, rfl, ?_⟩
    unfold Client.handlePeerStatus startRekeyAsInitiator
    dsimp only
    split_ifs
    · exact hp
    · exact hp
    · exact hp
    · rcases newInitiatorSession N c.privateKey c.nextRand with e | ⟨session, msg1⟩ <;> exact hp
  | handshake env payload =>
    have ht := c.peerHandleHandshakeEnvelope_sameTrust env.now payload
    simp only [Client.handleEvent, handleHandshakeEnvelope]
    rcases hc : c.peerHandleHandshakeEnvelope env.now payload with ⟨c₁, reply, _ | k, w, err⟩
    · rw [hc] at ht
      exact ⟨c₁, rfl, by rw [ht.peerStore]; exact hp⟩
    · rw [hc] at ht
      have hp₁ : c₁.peerStore.peers.isSome := by rw [ht.peerStore]; exact hp
      obtain ⟨r, hres, hp'⟩ := resolveHandshake_isSome hp₁ k w err env
      exact ⟨r.1, by simp [hres], hp'⟩

/-- Make-before-break: along any events, the ready active session is replaced only by a pending
session that the event completes and `verifyAndPin` accepts. -/
theorem handleEvent_makeBeforeBreak (c₀ c : Client N) (h : c₀.ReadyActive) (evs : List RelayEvent)
    (hrun : Lts.run Client.handleEvent c₀ evs = some c) (ev : RelayEvent) :
    ∃ i s, c.HoldsActive i s ∧ s.status = .ready
      ∧ (∀ c', c.handleEvent ev = some c' → c.MadeBeforeBroken i s c' (c.accepted ev))
      ∧ (c₀.peerStore.peers.isSome → ∃ c', c.handleEvent ev = some c') := by
  obtain ⟨i, s, hi, hs⟩ := Lts.run_inv_of_step (fun _ _ _ h hev => h.handleEvent hev) evs h hrun
  refine ⟨i, s, hi, hs, fun c' hev => hi.handleEvent hs hev, fun hp => ?_⟩
  have hpc : c.peerStore.peers.isSome := by
    refine Lts.run_inv_of_step (I := fun c : Client N => c.peerStore.peers.isSome)
      (fun a e b ha hev => ?_) evs hp hrun
    obtain ⟨b', hb', hpb⟩ := handleEvent_isSome ha e
    rw [hb', Option.some.injEq] at hev
    exact hev ▸ hpb
  obtain ⟨c', hc', -⟩ := handleEvent_isSome hpc ev
  exact ⟨c', hc'⟩

/-- Device `a`, with a ready session to `b` and no pin yet. -/
def readyWithB : Client plainNoise where
  deviceID := "a"
  privateKey := .ofByte 1
  rand i := List.replicate i 0
  peerStore := { peers := some fun _ => none, disk := none }
  peer := { newPeerConn "b" "" with active := some 0 }
  sessions := [{
    status := .ready
    initiator := true
    hs := .done (List.replicate 32 2)
    sendCS := some { key := ([], true) }
    recvCS := some { key := ([], false) }
    peerStatic := List.replicate 32 2 }]

theorem readyWithB_readyActive : readyWithB.ReadyActive := ⟨0, _, ⟨rfl, rfl⟩, rfl⟩

/-- The answer of `b` to the `msg1` of session 1 of `readyWithB`. -/
def msg2FromB : RelayEvent :=
  .handshake ⟨0, "", none⟩ (PlainNoise.msg2 (List.replicate 32 2) [] (PlainNoise.msg1 [0]))

theorem handleEvent_makeBeforeBreak_rekey :
    ∃ c, Lts.run Client.handleEvent readyWithB [.peerStatus "b" true] = some c
      ∧ (c.accepted msg2FromB).isSome
      ∧ ∃ i s, c.HoldsActive i s ∧ s.status = .ready
        ∧ (∀ c', c.handleEvent msg2FromB = some c' →
          c.MadeBeforeBroken i s c' (c.accepted msg2FromB))
        ∧ (readyWithB.peerStore.peers.isSome → ∃ c', c.handleEvent msg2FromB = some c') :=
  ⟨_, rfl, by decide +kernel, handleEvent_makeBeforeBreak readyWithB _ readyWithB_readyActive
    [.peerStatus "b" true] rfl msg2FromB⟩

end Client

end Relayly.Go
