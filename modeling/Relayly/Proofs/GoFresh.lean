import Relayly.Proofs.GoTurn

/-!
# Starting over with a peer

A peer that has lost its session, or has found it out of step, starts a new handshake. The client
answers where both slots are free for it, and nowhere else: a session that was left in the middle of
its handshake, or failed at its first, is fed the new `msg1` in the place of the message it waits for
(`accepts_iff_slotsFree`). A transport frame that does not decrypt changes nothing at all
(`desynced_kept`).
-/

namespace Relayly.Go

variable {N : Noise}

/-! ## The sessions that are not at their start -/

/-- A session is over, or it waits for `msg2`, or for `msg3`. -/
inductive NoiseSession.Waits (s : NoiseSession N) : Prop
  | ended (h : s.status ≠ .handshaking)
  | msg2 (hi : s.initiator = true) (priv rand m1 : Bytes) (h : N.initiator priv rand = some (m1, s.hs))
  | msg3 (hi : s.initiator = false) (hg : s.gotMsg1 = true)

namespace NoiseSession

/-- A session that has been fed once is not at its start any more. -/
theorem waits_handleHandshakeMessage (s : NoiseSession N) (data : Bytes) :
    (s.handleHandshakeMessage data).session.Waits := by
  have hstep := s.handleHandshakeMessage_step data
  generalize s.handleHandshakeMessage data = m at hstep
  cases hstep with
  | settled e hs => exact .ended hs
  | failed hs gotMsg1 e _ _ => exact .ended nofun
  | initiated hs hs' reply split cs _ _ _ _ => exact .ended nofun
  | answered hs hs' reply split cs _ hi _ _ _ => exact .msg3 hi rfl
  | responded hs cs _ _ _ _ => exact .ended nofun

/-- No `msg1` is answered. -/
theorem Waits.reply_eq_none {s : NoiseSession N} (h : s.Waits) (hN : N.Answers)
    {pa ra m1 : Bytes} {hi : N.Hs} (hm1 : N.initiator pa ra = some (m1, hi)) :
    (s.handleHandshakeMessage m1).reply = none := by
  have hstep := s.handleHandshakeMessage_step m1
  generalize s.handleHandshakeMessage m1 = m at hstep
  cases hstep with
  | settled e hs => rfl
  | failed hs gotMsg1 e _ _ => rfl
  | initiated hs hs' reply split cs hst hi hr hw =>
    cases h with
    | ended hended => exact absurd hst hended
    | msg2 _ priv rand m1' hinit =>
      obtain ⟨e, he⟩ := hN.refuses_msg1 hinit hm1
      rw [he] at hr
      cases hr
    | msg3 hi' _ => rw [hi] at hi'; cases hi'
  | answered hs hs' reply split cs hst hi hg hr hw =>
    cases h with
    | ended hended => exact absurd hst hended
    | msg2 hi' _ _ _ _ => rw [hi] at hi'; cases hi'
    | msg3 _ hg' => rw [hg] at hg'; cases hg'
  | responded hs cs _ _ _ _ => rfl

/-- A new responder session answers a `msg1` that the library answers. -/
theorem newResponderSession_answers {priv : PrivateKey} {rand m1 m2 : Bytes} {hr : N.Hs}
    (h : N.responder priv.raw rand m1 = some (m2, hr)) :
    ∃ s, newResponderSession N priv rand = .ok s ∧ s.handleHandshakeMessage m1 =
      { session := { initiator := false, hs := hr, gotMsg1 := true }, reply := some m2, done := false } := by
  unfold Noise.responder at h
  rcases hn : N.newHandshakeState false priv.raw rand with e | hs <;> simp only [hn] at h
  · cases h
  rcases hread : N.readMessage hs m1 with e | ⟨hs₁, split⟩ <;> simp only [hread] at h
  · cases h
  rcases hwrite : N.writeMessage hs₁ with e | ⟨reply, hs₂, split'⟩ <;> simp only [hwrite] at h
  · cases h
  cases h
  exact ⟨{ initiator := false, hs }, by simp [newResponderSession, hn],
    by simp [handleHandshakeMessage, hread, hwrite]⟩

theorem responder_finishes {hr hr' : N.Hs} {m3 : Bytes} {split : Option (N.Key × N.Key)}
    (h : N.readMessage hr m3 = .ok (hr', split)) :
    ({ initiator := false, hs := hr, gotMsg1 := true } : NoiseSession N).handleHandshakeMessage m3 =
      { session := ({ initiator := false, hs := hr', gotMsg1 := true } : NoiseSession N).finishLocked
          (cs2 split) (cs1 split)
        done := true } := by
  simp [handleHandshakeMessage, h]

end NoiseSession

/-- The session that an envelope is fed to. -/
def Selected.session? : Selected → Option ℕ
  | .session i _ => some i
  | _ => none

namespace Client

/-- No session of the client is at its start, apart from `i`. -/
def WaitApart (c : Client N) (i : Option ℕ) : Prop :=
  ∀ j s, some j ≠ i → c.sessions[j]? = some s → s.Waits

theorem WaitApart.setSession {c : Client N} {i : ℕ} (h : c.WaitApart (some i)) {s : NoiseSession N}
    (hs : s.Waits) : (c.setSession i s).WaitApart none := by
  intro j s' _ hj
  by_cases hij : i = j
  · subst hij
    have hlt : i < c.sessions.length := by
      simpa [Client.setSession] using (List.getElem?_eq_some_iff.1 hj).1
    rw [Client.setSession, List.getElem?_set_self hlt, Option.some.injEq] at hj
    exact hj ▸ hs
  · rw [Client.setSession, List.getElem?_set_ne hij] at hj
    exact h j s' (fun he => hij (Option.some.inj he).symm) hj

theorem WaitApart.mono {c : Client N} (h : c.WaitApart none) (i : Option ℕ) : c.WaitApart i :=
  fun j s _ => h j s nofun

theorem WaitApart.append {c : Client N} (h : c.WaitApart none) (s : NoiseSession N) (peer : PeerConn) :
    ({ c with sessions := c.sessions ++ [s], peer } : Client N).WaitApart (some c.sessions.length) := by
  intro j s' hne hj
  have hlt : j < c.sessions.length := by
    have hle : j < c.sessions.length + 1 := by simpa using (List.getElem?_eq_some_iff.1 hj).1
    have : j ≠ c.sessions.length := fun he => hne (congrArg some he)
    omega
  exact h j s' nofun ((List.getElem?_append_left hlt).symm.trans hj)

theorem WaitApart.of_sessions {c c' : Client N} {i : Option ℕ} (h : c.WaitApart i)
    (hs : c'.sessions = c.sessions) : c'.WaitApart i := by
  unfold WaitApart
  rw [hs]
  exact h

/-- The session that `selectSession` makes is at its start until it is fed. -/
theorem WaitApart.selectSession {c : Client N} (h : c.WaitApart none) (now : ℕ) :
    (c.selectSession now).1.WaitApart (c.selectSession now).2.session? := by
  unfold Client.selectSession
  rcases c.peer.pending with _ | p
  · rcases c.peer.active with _ | a
    · rcases newResponderSession N c.privateKey c.nextRand with e | s
      · exact h
      · exact h.append s _
    · dsimp only
      split_ifs
      · exact h.mono _
      · exact h
      · rcases newResponderSession N c.privateKey c.nextRand with e | s
        · exact h.of_sessions rfl
        · exact h.append s _
  · exact h.mono _

theorem WaitApart.feedSession {c : Client N} {i : ℕ} (h : c.WaitApart (some i)) (w : Bool)
    (data : Bytes) : (c.feedSession i w data).1.WaitApart none := by
  unfold Client.feedSession
  rcases hi : c.sessions[i]? with _ | s
  · refine fun j s _ hj => h j s (fun he => ?_) hj
    rw [Option.some.inj he, hi] at hj
    cases hj
  · exact h.setSession (s.waits_handleHandshakeMessage data)

theorem WaitApart.peerHandleHandshakeEnvelope {c : Client N} (h : c.WaitApart none) (now : ℕ)
    (data : Bytes) : (c.peerHandleHandshakeEnvelope now data).1.WaitApart none := by
  have hsel := h.selectSession now
  unfold Client.peerHandleHandshakeEnvelope
  generalize c.selectSession now = r at hsel
  obtain ⟨c₁, i | _ | _⟩ := r
  · exact WaitApart.feedSession hsel _ _
  · exact hsel
  · exact hsel

theorem settle_sessions (c : Client N) (i : ℕ) (w : Bool) (result : PairResult) :
    (c.settle i w result).1.sessions = c.sessions := by
  unfold Client.settle Client.promote Client.abandon Client.takeFirstPairWaiter
  split_ifs <;> rfl

theorem WaitApart.markFailed {c : Client N} (h : c.WaitApart none) (i : ℕ) (verr : GoError) :
    (c.markFailed i verr).WaitApart none := by
  unfold Client.markFailed
  split
  · exact h
  · exact (h.mono _).setSession (.ended nofun)

theorem WaitApart.resolveHandshake {c : Client N} {r : Client N × List Output}
    (h : c.WaitApart none) {i : ℕ} {w : Bool} {hsErr : Option GoError} {env : Env}
    (hres : c.resolveHandshake i w hsErr env = some r) : r.1.WaitApart none := by
  unfold Client.resolveHandshake at hres
  rcases hsErr with _ | e
  · rcases hi : c.sessions[i]? with _ | s <;> simp only [hi] at hres
    · cases hres
      exact h
    · rcases hv : c.verifyAndPin s.peerStatic env with _ | ⟨c₁, verr | pub⟩ <;> simp only [hv] at hres
      · cases hres
      · obtain ⟨ps, rfl⟩ := verifyAndPin_store hv
        cases hres
        have h₁ : ({ c with peerStore := ps } : Client N).WaitApart none := h
        exact (h₁.markFailed i verr).of_sessions (settle_sessions ..)
      · obtain ⟨ps, rfl⟩ := verifyAndPin_store hv
        cases hres
        exact h.of_sessions (settle_sessions ..)
  · cases hres
    exact h.of_sessions (settle_sessions ..)

theorem WaitApart.start {c : Client N} (h : c.WaitApart none) {session : NoiseSession N}
    {msg1 rand : Bytes} (hnew : newInitiatorSession N c.privateKey rand = .ok (session, msg1))
    (peer : PeerConn) :
    ({ c with sessions := c.sessions ++ [session], peer } : Client N).WaitApart none := by
  obtain ⟨hs, rfl, hinit⟩ := newInitiatorSession_ok hnew
  have happ := h.append { initiator := true, hs } peer
  intro j s _ hj
  by_cases hlen : j = c.sessions.length
  · subst hlen
    obtain rfl : { initiator := true, hs } = s := by simpa using hj
    exact .msg2 rfl c.privateKey.raw rand msg1 hinit
  · exact happ j s (fun he => hlen (Option.some.inj he)) hj

theorem WaitApart.peerStep {c c' : Client N} {call : PeerCall} (h : c.WaitApart none)
    (hstep : c.peerStep call = some c') : c'.WaitApart none := by
  cases call with
  | handleHandshakeEnvelope now data =>
    cases hstep
    exact h.peerHandleHandshakeEnvelope now data
  | resolveHandshake i w hsErr env =>
    obtain ⟨r, hres, rfl⟩ := Option.map_eq_some_iff.1 hstep
    exact h.resolveHandshake hres
  | startAsInitiator =>
    cases hstep
    unfold Client.startAsInitiator
    rcases hnew : newInitiatorSession N c.privateKey c.nextRand with e | ⟨session, msg1⟩
    · exact h
    · exact h.start hnew _
  | startRekeyAsInitiator =>
    cases hstep
    unfold Client.startRekeyAsInitiator
    rcases hnew : newInitiatorSession N c.privateKey c.nextRand with e | ⟨session, msg1⟩
    · exact h
    · exact h.start hnew _

/-! ## Which session an envelope goes to -/

/-- There is no pending session, and the active one, if any, is ready. -/
structure SlotsFree (c : Client N) : Prop where
  pending : c.peer.pending = none
  active : ∀ i, c.peer.active = some i → c.ready i = true

/-- Session `i` is the one at its handshake: in the pending slot, or in the active one at the first
handshake of all. -/
def Drives (c : Client N) (i : ℕ) (wasPending : Bool) : Prop :=
  if wasPending then c.peer.pending = some i
  else c.peer.pending = none ∧ c.peer.active = some i

theorem Drives.selectSession {c : Client N} {i : ℕ} {w : Bool} (h : c.Drives i w)
    (hi : c.ready i = false) (now : ℕ) : c.selectSession now = (c, .session i w) := by
  unfold Client.selectSession
  cases w with
  | true =>
    have hp : c.peer.pending = some i := h
    rw [hp]
  | false =>
    obtain ⟨hp, ha⟩ : c.peer.pending = none ∧ c.peer.active = some i := h
    rw [hp, ha]
    simp [hi]

/-- With free slots a new responder session is made. -/
theorem SlotsFree.selectSession {c : Client N} (h : c.SlotsFree) {now : ℕ}
    (hlim : c.rateLimited now = false) {s : NoiseSession N}
    (hnew : newResponderSession N c.privateKey c.nextRand = .ok s) :
    ∃ c₀ w, c.selectSession now = (c₀, .session c.sessions.length w) ∧ c.SameParty c₀
      ∧ c₀.sessions[c.sessions.length]? = some s ∧ c₀.Drives c.sessions.length w := by
  unfold Client.selectSession
  rw [h.pending]
  rcases ha : c.peer.active with _ | i
  · simp only [hnew]
    exact ⟨_, false, rfl, ⟨⟨rfl, rfl, rfl⟩, rfl, rfl, rfl, by simp⟩, by simp, h.pending, rfl⟩
  · simp only [h.active i ha, hlim, hnew]
    exact ⟨_, true, rfl, ⟨⟨rfl, rfl, rfl⟩, rfl, rfl, rfl, by simp⟩, by simp, rfl⟩

/-- Without, the envelope goes to a session that is there, if to any. -/
theorem selectSession_of_not_free {c : Client N} (h : ¬ c.SlotsFree) (now : ℕ) :
    ∃ i w, c.selectSession now = (c, .session i w) := by
  unfold Client.selectSession
  rcases hp : c.peer.pending with _ | j
  · rcases ha : c.peer.active with _ | i
    · exact absurd ⟨hp, by simp [ha]⟩ h
    · cases hr : c.ready i with
      | true => exact absurd ⟨hp, by simp [ha, hr]⟩ h
      | false => exact ⟨i, false, by simp [hr]⟩
  · exact ⟨j, true, rfl⟩

theorem Drives.setSession {c : Client N} {i : ℕ} {w : Bool} (h : c.Drives i w) (s : NoiseSession N) :
    (c.setSession i s).Drives i w := h

/-- A handshake that ended well, with the key that is pinned, leaves its session active. -/
theorem Drives.resolveHandshake {c : Client N} {i : ℕ} {w : Bool} {s : NoiseSession N} {key : Bytes}
    (h : c.Drives i w) (hs : c.sessions[i]? = some s) (hkey : s.peerStatic = key)
    (ht : c.Trusts key) (env : Env) :
    ∃ r, c.resolveHandshake i w none env = some r ∧ r.1.activeSession = some s := by
  obtain ⟨r, hv, hok⟩ := ht.verifyAndPin s.peerStatic env
  rcases r with verr | pub
  · exact absurd (hok.2 hkey) (by simp [Except.isOk, Except.toBool])
  · simp only [Client.resolveHandshake, hs, hv]
    refine ⟨_, rfl, ?_⟩
    cases w with
    | true =>
      have hp : c.peer.pending = some i := h
      simp [Client.settle, Client.promote, hp, Client.takeFirstPairWaiter, Client.activeSession, hs]
    | false =>
      obtain ⟨hp, ha⟩ : c.peer.pending = none ∧ c.peer.active = some i := h
      simp [Client.settle, Client.takeFirstPairWaiter, Client.activeSession, ha, hs]

/-! ## The handshake -/

/-- The session at the responder's end of a handshake that left the keys `split`. -/
structure Finished (s : NoiseSession N) (split : Option (N.Key × N.Key)) (key : Bytes) : Prop where
  ready : s.status = .ready
  role : s.initiator = false
  send : s.sendCS = cs2 split
  recv : s.recvCS = cs1 split
  peer : s.peerStatic = key

/-- The `msg3` of the peer whose key is pinned, at the session that waits for it. -/
theorem Drives.handle_msg3 {c : Client N} {i : ℕ} {w : Bool} {hr hr' : N.Hs} {m3 key : Bytes}
    {split : Option (N.Key × N.Key)} (h : c.Drives i w)
    (hs : c.sessions[i]? = some { initiator := false, hs := hr, gotMsg1 := true })
    (hread : N.readMessage hr m3 = .ok (hr', split)) (hkey : N.peerStatic hr' = key)
    (ht : c.Trusts key) (env : Env) :
    ∃ c' out s, c.handleHandshakeEnvelope env m3 = some (c', out)
      ∧ c'.activeSession = some s ∧ Finished s split key := by
  have hready : c.ready i = false := by
    rw [Client.ready, hs]
    rfl
  have hfed := handleHandshakeEnvelope_fed (h.selectSession hready env.now) hs m3
  rw [NoiseSession.responder_finishes hread, if_pos rfl] at hfed
  generalize hs' : ({ initiator := false, hs := hr', gotMsg1 := true } : NoiseSession N).finishLocked
    (cs2 split) (cs1 split) = s' at hfed
  have hfinished : Finished s' split key := hs' ▸ ⟨rfl, rfl, rfl, rfl, hkey⟩
  have hset : (c.setSession i s').sessions[i]? = some s' :=
    List.getElem?_set_self (List.getElem?_eq_some_iff.1 hs).1
  obtain ⟨r, hres, hactive⟩ := (h.setSession s').resolveHandshake hset hfinished.peer
    ((c.setSession_sameParty i s').trusts ht) env
  rw [hres] at hfed
  exact ⟨r.1, _, s', hfed, hactive, hfinished⟩

/-- The client replies to `m1`, whose sender holds `hi`, and once it has the `msg3` that answers the
reply, the session of this handshake is ready in its active slot. -/
def Accepts (c : Client N) (key m1 : Bytes) (hi : N.Hs) (env₁ env₂ : Env) : Prop :=
  ∃ c₁ out m2, c.handleHandshakeEnvelope env₁ m1 = some (c₁, out)
    ∧ Output.envelope envelopeHandshake m2 ∈ out
    ∧ ∃ hi' r m3 hi'' split, N.readMessage hi m2 = .ok (hi', r)
      ∧ N.writeMessage hi' = .ok (m3, hi'', split) ∧ split.isSome = true
      ∧ ∃ c₂ out' s, c₁.handleHandshakeEnvelope env₂ m3 = some (c₂, out')
        ∧ c₂.activeSession = some s ∧ Finished s split key

theorem SlotsFree.accepts {c : Client N} (h : c.SlotsFree) {pub : Bytes → Bytes} (hN : N.XX pub)
    (hA : N.Answers) {pa ra m1 : Bytes} {hi : N.Hs} (hm1 : N.initiator pa ra = some (m1, hi))
    (hrand : c.nextRand.length = 32) (ht : c.Trusts (pub pa)) (env₁ env₂ : Env)
    (hlim : c.rateLimited env₁.now = false) : c.Accepts (pub pa) m1 hi env₁ env₂ := by
  obtain ⟨⟨m2, hr⟩, hresp⟩ := hA.msg1 hm1 c.privateKey.length_raw hrand
  obtain ⟨hi', r, m3, hi'', split, hread, hwrite⟩ := hA.msg2 hm1 hresp
  obtain ⟨-, hsplit, hr', hread3, hstatic⟩ := hN.msg3_completes hm1 hresp hread hwrite
  obtain ⟨s, hnew, hanswers⟩ := NoiseSession.newResponderSession_answers hresp
  obtain ⟨c₀, w, hsel, hsame, hs, hdrives⟩ := h.selectSession hlim hnew
  have hfed := handleHandshakeEnvelope_fed hsel hs m1
  rw [hanswers] at hfed
  refine ⟨_, _, m2, hfed, List.mem_singleton_self _, hi', r, m3, hi'', split, hread, hwrite, hsplit, ?_⟩
  exact (hdrives.setSession _).handle_msg3 (List.getElem?_set_self (List.getElem?_eq_some_iff.1 hs).1)
    hread3 hstatic ((hsame.trans (c₀.setSession_sameParty _ _)).trusts ht) env₂

theorem resolveHandshake_replies {c : Client N} {i : ℕ} {w : Bool} {hsErr : Option GoError}
    {env : Env} {r : Client N × List Output} (h : c.resolveHandshake i w hsErr env = some r) :
    Replies r.2 none := by
  unfold Client.resolveHandshake at h
  rcases hsErr with _ | e
  · rcases hi : c.sessions[i]? with _ | s <;> simp only [hi] at h
    · cases h
      exact ⟨rfl, rfl⟩
    · rcases hv : c.verifyAndPin s.peerStatic env with _ | ⟨c₁, verr | pub⟩ <;> simp only [hv] at h
      · cases h
      all_goals
        cases h
        exact settle_replies ..
  · cases h
    exact settle_replies ..

theorem Replies.envelope_notMem {out : List Output} (h : Replies out none) (kind : UInt8)
    (payload : Bytes) : Output.envelope kind payload ∉ out := by
  intro hmem
  have hwire : encodeEnvelope kind payload ∈ out.filterMap Output.wire :=
    List.mem_filterMap.2 ⟨_, hmem, rfl⟩
  rw [h.wire] at hwire
  simp at hwire

/-- A `msg1` that goes to a session that is there is not answered. -/
theorem replies_none_of_not_free {c c' : Client N} {out : List Output} (h : ¬ c.SlotsFree)
    (hw : c.WaitApart none) (hA : N.Answers) {pa ra m1 : Bytes} {hi : N.Hs}
    (hm1 : N.initiator pa ra = some (m1, hi)) {env : Env}
    (hhandle : c.handleHandshakeEnvelope env m1 = some (c', out)) : Replies out none := by
  obtain ⟨i, w, hsel⟩ := selectSession_of_not_free h env.now
  rcases hi : c.sessions[i]? with _ | s
  · simp only [Client.handleHandshakeEnvelope, Client.peerHandleHandshakeEnvelope, hsel,
      Client.feedSession, hi, Option.some.injEq, Prod.mk.injEq] at hhandle
    rw [← hhandle.2]
    exact ⟨rfl, rfl⟩
  · have hreply := (hw i s (by simp) hi).reply_eq_none hA hm1
    rw [handleHandshakeEnvelope_fed hsel hi m1, hreply] at hhandle
    split_ifs at hhandle
    · obtain ⟨r, hres, hr⟩ := Option.map_eq_some_iff.1 hhandle
      obtain rfl : replyOutput none ++ r.2 = out := congrArg Prod.snd hr
      exact replyOutput_replies (resolveHandshake_replies hres) none
    · obtain rfl : replyOutput none = out := congrArg Prod.snd (Option.some.inj hhandle)
      exact ⟨rfl, rfl⟩

theorem not_accepts {c : Client N} (h : ¬ c.SlotsFree) (hw : c.WaitApart none) (hA : N.Answers)
    {pa ra m1 : Bytes} {hi : N.Hs} (hm1 : N.initiator pa ra = some (m1, hi)) (key : Bytes)
    (env₁ env₂ : Env) : ¬ c.Accepts key m1 hi env₁ env₂ := by
  rintro ⟨c₁, out, m2, hhandle, hmem, -⟩
  exact (replies_none_of_not_free h hw hA hm1 hhandle).envelope_notMem _ _ hmem

theorem waitApart_of_run {c₀ c : Client N} (h₀ : c₀.sessions = []) {calls : List PeerCall}
    (hrun : Lts.run peerStep c₀ calls = some c) : c.WaitApart none :=
  Lts.run_inv_of_step (I := fun c : Client N => c.WaitApart none) (fun _ _ _ h => h.peerStep) calls
    (fun j s _ hj => by simp [h₀] at hj) hrun

/-- The client accepts a new handshake of its peer exactly where no pending session is in the way and
the active one, if any, is ready. -/
theorem accepts_iff_slotsFree {pub : Bytes → Bytes} (hN : N.XX pub) (hA : N.Answers) (c₀ c : Client N)
    (h₀ : c₀.sessions = []) (calls : List PeerCall) (hrun : Lts.run peerStep c₀ calls = some c)
    (pa ra m1 : Bytes) (hi : N.Hs) (hm1 : N.initiator pa ra = some (m1, hi))
    (hrand : c.nextRand.length = 32) (ht : c.Trusts (pub pa)) (env₁ env₂ : Env)
    (hlim : c.rateLimited env₁.now = false) : c.Accepts (pub pa) m1 hi env₁ env₂ ↔ c.SlotsFree := by
  constructor
  · intro haccepts
    by_contra hfree
    exact not_accepts hfree (waitApart_of_run h₀ hrun) hA hm1 _ env₁ env₂ haccepts
  · exact fun hfree => hfree.accepts hN hA hm1 hrand ht env₁ env₂ hlim

/-- Device `a`, which has pinned the key of its peer `b` and has no session yet. -/
def pinnedB : Client plainNoise where
  deviceID := "a"
  privateKey := .ofByte 1
  rand i := List.replicate 32 (UInt8.ofNat i)
  peerStore := { peers := some fun _ => some ⟨encodeBase64 (List.replicate 32 2), ""⟩, disk := none }
  peer := newPeerConn "b" ""

/-- The first handshake with `b`, which `a` starts. -/
def firstHandshake : List PeerCall :=
  [.startAsInitiator,
    .handleHandshakeEnvelope 0
      (PlainNoise.msg2 (List.replicate 32 2) [] (PlainNoise.msg1 (List.replicate 32 0))),
    .resolveHandshake 0 false none ⟨0, "", none⟩]

/-- After its first handshake `b` starts a second one. -/
theorem accepts_second : ∃ c, Lts.run peerStep pinnedB firstHandshake = some c ∧ c.ready 0 = true
    ∧ c.Accepts (List.replicate 32 2) (PlainNoise.msg1 [5]) (.sent1 (List.replicate 32 2) [5])
      ⟨0, "", none⟩ ⟨0, "", none⟩ :=
  ⟨_, rfl, by decide +kernel, (accepts_iff_slotsFree plainNoise_xx plainNoise_answers pinnedB _ rfl
    firstHandshake rfl (List.replicate 32 2) [5] _ _ rfl rfl ⟨⟨_, rfl, rfl⟩, Or.inl rfl, rfl⟩ _ _
      rfl).2
      ⟨rfl, fun i hi => by cases hi; decide +kernel⟩⟩

/-- A frame that is no `msg1` of `b` is answered as one and waits for its `msg3` in the active slot; the
`msg1` that `b` then sends is not answered. -/
theorem not_accepts_after_garbage : ∃ c,
    Lts.run peerStep pinnedB [.handleHandshakeEnvelope 0 [9, 9]] = some c
    ∧ ¬ c.Accepts (List.replicate 32 2) (PlainNoise.msg1 [5]) (.sent1 (List.replicate 32 2) [5])
      ⟨0, "", none⟩ ⟨0, "", none⟩ := by
  have hrun : Lts.run peerStep pinnedB [.handleHandshakeEnvelope 0 [9, 9]]
      = some (pinnedB.peerHandleHandshakeEnvelope 0 [9, 9]).1 := rfl
  refine ⟨_, hrun, not_accepts (fun hfree => ?_) (waitApart_of_run rfl hrun) plainNoise_answers
    (PlainNoise.initiator_eq (List.replicate 32 2) [5]) _ _ _⟩
  exact absurd (hfree.active 0 rfl) (by decide +kernel)

/-! ## A transport frame that does not decrypt -/

/-- What a frame that fails the AEAD asks for: session `i`, which was to decrypt it, is not the ready
active session any more, and the designated initiator starts a new handshake. -/
def Recovers (c : Client N) (i : ℕ) (ciphertext : Bytes) : Prop :=
  ¬ ((c.handleTransportEnvelope ciphertext).1.peer.active = some i
      ∧ (c.handleTransportEnvelope ciphertext).1.ready i = true)
    ∧ (c.deviceID < c.peer.id →
      ∃ m1, Output.envelope envelopeHandshake m1 ∈ (c.handleTransportEnvelope ciphertext).2)

theorem handleTransportEnvelope_error {c : Client N} {i : ℕ} {s : NoiseSession N}
    (h : c.HoldsActive i s) {ciphertext : Bytes} {e : GoError} (hfail : s.decrypt ciphertext = .error e) :
    c.handleTransportEnvelope ciphertext = (c, []) := by
  simp only [Client.handleTransportEnvelope, h.active, h.session, hfail]

/-- A frame that does not decrypt is dropped: the session stays active and ready, and nothing is
sent, whatever the state of the client. -/
theorem desynced_kept (c : Client N) (i : ℕ) (s : NoiseSession N) (h : c.HoldsActive i s)
    (hready : s.status = .ready) (ciphertext : Bytes) (e : GoError)
    (hfail : s.decrypt ciphertext = .error e) :
    ¬ c.Recovers i ciphertext
      ∧ ∀ m1, Output.envelope envelopeHandshake m1 ∉ (c.handleTransportEnvelope ciphertext).2 := by
  have hdropped := handleTransportEnvelope_error h hfail
  refine ⟨fun hrec => hrec.1 ?_, ?_⟩
  · rw [hdropped]
    exact ⟨h.active, h.ready hready⟩
  · rw [hdropped]
    simp

/-- After the first handshake the empty ciphertext does not decrypt. -/
theorem exists_desynced : ∃ c s e, Lts.run peerStep pinnedB firstHandshake = some c
    ∧ c.deviceID < c.peer.id ∧ c.HoldsActive 0 s ∧ s.status = .ready ∧ s.decrypt [] = .error e := by
  have h : (Lts.run peerStep pinnedB firstHandshake).any fun c =>
      decide (c.deviceID < c.peer.id) && decide (c.peer.active = some 0) &&
        (c.sessions[0]?).any fun s => s.ready && !(s.decrypt []).isOk := by decide +kernel
  obtain ⟨c, hrun, hc⟩ := (Option.any_eq_true ..).1 h
  simp only [Bool.and_eq_true, decide_eq_true_eq, Option.any_eq_true] at hc
  obtain ⟨⟨hid, hactive⟩, s, hs, hready, hfail⟩ := hc
  rcases hd : s.decrypt [] with e | x
  · exact ⟨c, s, e, hrun, hid, ⟨hactive, hs⟩, NoiseSession.ready_iff.1 hready, hd⟩
  · rw [hd] at hfail
    cases hfail

theorem desynced_kept_first : ∃ c s e, Lts.run peerStep pinnedB firstHandshake = some c
    ∧ c.HoldsActive 0 s ∧ s.status = .ready ∧ s.decrypt [] = .error e ∧ ¬ c.Recovers 0 []
    ∧ ∀ m1, Output.envelope envelopeHandshake m1 ∉ (c.handleTransportEnvelope []).2 := by
  obtain ⟨c, s, e, hrun, -, hactive, hready, hfail⟩ := exists_desynced
  exact ⟨c, s, e, hrun, hactive, hready, hfail, desynced_kept c 0 s hactive hready [] e hfail⟩

/-- Device `a` is the designated initiator, and a frame that does not decrypt leaves it as it was, with
nothing to send. -/
theorem not_recovers_first : ∃ c s e, Lts.run peerStep pinnedB firstHandshake = some c
    ∧ c.deviceID < c.peer.id ∧ c.HoldsActive 0 s ∧ s.status = .ready ∧ s.decrypt [] = .error e
    ∧ c.handleTransportEnvelope [] = (c, []) := by
  obtain ⟨c, s, e, hrun, hid, hactive, hready, hfail⟩ := exists_desynced
  exact ⟨c, s, e, hrun, hid, hactive, hready, hfail, handleTransportEnvelope_error hactive hfail⟩

end Client

end Relayly.Go
