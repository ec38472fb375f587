import Relayly.Lib.Perm
import Relayly.Go.Interleave
import Relayly.Proofs.GoPeer

/-!
# What the interleaved steps do

The read loop makes at most one session ready in a step, the one it feeds, and never touches the
send counter of a session that has one. So a step either belongs to the read loop, or moves a
`Send` without encrypting, or encrypts, or puts an encrypted frame on `c.sends`.
-/

namespace Relayly.Go

variable {N : Noise}

theorem cs1_counter {split : Option (N.Key × N.Key)} : ∀ cs ∈ cs1 split, cs.n = 0 := by
  rcases split with _ | keys <;> simp [cs1]

theorem cs2_counter {split : Option (N.Key × N.Key)} : ∀ cs ∈ cs2 split, cs.n = 0 := by
  rcases split with _ | keys <;> simp [cs2]

namespace NoiseSession

/-- What the read loop may do to a session; it becomes ready only where `done`. -/
inductive Evolves (done : Prop) (s s' : NoiseSession N) : Prop
  | keeps (hst : s'.status = s.status ∨ s'.status = .failed) (hcs : s'.sendCS = s.sendCS)
      (hp : s'.peerStatic = s.peerStatic)
  | finishes (hd : done) (hst : s.status = .handshaking) (hr : s'.status = .ready)
      (hn : ∀ cs ∈ s'.sendCS, cs.n = 0)

theorem Evolves.refl {done : Prop} (s : NoiseSession N) : s.Evolves done s :=
  .keeps (Or.inl rfl) rfl rfl

theorem Evolves.mono {p q : Prop} {s s' : NoiseSession N} (h : s.Evolves p s') (hpq : p → q) :
    s.Evolves q s' := by
  cases h with
  | keeps hst hcs hp => exact .keeps hst hcs hp
  | finishes hd hst hr hn => exact .finishes (hpq hd) hst hr hn

theorem Step.evolves {s : NoiseSession N} {data : Bytes} {r : Handled N} (h : s.Step data r) :
    s.Evolves (r.done = true ∧ r.err = none) r.session := by
  cases h with
  | settled | answered => exact .keeps (Or.inl rfl) rfl rfl
  | failed => exact .keeps (Or.inr rfl) rfl rfl
  | initiated _ _ _ _ _ hst =>
    exact .finishes ⟨rfl, rfl⟩ hst rfl cs1_counter
  | responded _ _ hst =>
    exact .finishes ⟨rfl, rfl⟩ hst rfl cs2_counter

end NoiseSession

theorem newInitiatorSession_handshaking {priv : PrivateKey} {rand msg1 : Bytes}
    {s : NoiseSession N} (h : newInitiatorSession N priv rand = .ok (s, msg1)) :
    s.status = .handshaking ∧ s.sendCS = none := by
  unfold newInitiatorSession at h
  split at h
  · cases h
  · split at h
    · cases h
    · cases h
      exact ⟨rfl, rfl⟩

theorem newResponderSession_handshaking {priv : PrivateKey} {rand : Bytes} {s : NoiseSession N}
    (h : newResponderSession N priv rand = .ok s) : s.status = .handshaking ∧ s.sendCS = none := by
  unfold newResponderSession at h
  split at h
  · cases h
  · cases h
    exact ⟨rfl, rfl⟩

namespace Client

/-- What the read loop may do to a client: session `k` alone may become ready, a new session is
handshaking, and a pin of the peer stays. -/
structure Evolves (k : Option ℕ) (c c' : Client N) : Prop where
  old : ∀ (i : ℕ) (s : NoiseSession N), c.sessions[i]? = some s →
    ∃ s', c'.sessions[i]? = some s' ∧ s.Evolves (k = some i) s'
  new : ∀ (i : ℕ) (s' : NoiseSession N), c.sessions[i]? = none → c'.sessions[i]? = some s' →
    s'.status = .handshaking ∧ s'.sendCS = none
  id : c'.peer.id = c.peer.id
  announced : c'.peer.announcedStaticKey = c.peer.announcedStaticKey
  pin : ∀ pin, c.peerStore.get c.peer.id = some pin → c'.peerStore.get c.peer.id = some pin

theorem Evolves.of_sessions {c c' : Client N} (hs : c'.sessions = c.sessions)
    (ht : c.SameTrust c') : c.Evolves none c' where
  old i s h := ⟨s, by rw [hs, h], .refl s⟩
  new i s h h' := by rw [hs, h] at h'; cases h'
  id := ht.id
  announced := ht.announced
  pin p h := by rw [ht.peerStore, h]

theorem Evolves.setSession {c : Client N} {k : Option ℕ} {i : ℕ} {s s' : NoiseSession N}
    (hs : c.sessions[i]? = some s) (h : s.Evolves (k = some i) s') :
    c.Evolves k (c.setSession i s') where
  old j sj hj := by
    by_cases hji : i = j
    · subst hji
      obtain rfl : s = sj := by simpa [hs] using hj
      exact ⟨s', List.getElem?_set_self (List.getElem?_eq_some_iff.1 hs).1, h⟩
    · exact ⟨sj, by rw [Client.setSession, List.getElem?_set_ne hji, hj], .refl sj⟩
  new j sj hj hj' := by
    have h1 := List.getElem?_eq_none_iff.1 hj
    have h2 := (List.getElem?_eq_some_iff.1 hj').1
    rw [Client.setSession, List.length_set] at h2
    omega
  id := rfl
  announced := rfl
  pin _ hp := hp

theorem Evolves.append {c c' : Client N} {s : NoiseSession N}
    (hs : c'.sessions = c.sessions ++ [s]) (hst : s.status = .handshaking ∧ s.sendCS = none)
    (ht : c.SameTrust c') : c.Evolves none c' where
  old i si hi := ⟨si, by rw [hs, getElem?_append_left hi], .refl si⟩
  new i si hi hi' := by
    have h1 := List.getElem?_eq_none_iff.1 hi
    rw [hs, List.getElem?_append_right h1] at hi'
    obtain ⟨-, rfl⟩ := List.getElem?_eq_some_iff.1 hi'
    simpa using hst
  id := ht.id
  announced := ht.announced
  pin p h := by rw [ht.peerStore, h]


theorem selectSession_evolves (c : Client N) (now : ℕ) :
    c.Evolves none (c.selectSession now).1 := by
  have ht := c.selectSession_sameTrust now
  revert ht
  unfold Client.selectSession
  rcases c.peer.pending with _ | p
  · rcases c.peer.active with _ | i
    · rcases hn : newResponderSession N c.privateKey c.nextRand with e | s
      · exact fun ht => .of_sessions rfl ht
      · exact fun ht => .append rfl (newResponderSession_handshaking hn) ht
    · dsimp only
      split_ifs
      · exact fun ht => .of_sessions rfl ht
      · exact fun ht => .of_sessions rfl ht
      · rcases hn : newResponderSession N c.privateKey c.nextRand with e | s
        · exact fun ht => .of_sessions rfl ht
        · exact fun ht => .append rfl (newResponderSession_handshaking hn) ht
  · exact fun ht => .of_sessions rfl ht

theorem feedSession_evolves (c : Client N) (i : ℕ) (w : Bool) (data : Bytes) :
    c.Evolves (if (c.feedSession i w data).2.err = none then (c.feedSession i w data).2.completed
      else none) (c.feedSession i w data).1 := by
  unfold Client.feedSession
  rcases hi : c.sessions[i]? with _ | s
  · exact .of_sessions rfl ⟨rfl, rfl, rfl⟩
  · refine .setSession hi ((s.handleHandshakeMessage_step data).evolves.mono ?_)
    rintro ⟨hd, he⟩
    simp [hd, he]

theorem verifyAndPin_pin {c c' : Client N} {authenticated : Bytes} {env : Env}
    {r : Except GoError PublicKey} (h : c.verifyAndPin authenticated env = some (c', r))
    {pin : PinnedPeer} (hg : c.peerStore.get c.peer.id = some pin) : c' = c := by
  by_cases hk : pin.staticKey = encodeBase64 authenticated
  · rw [verifyAndPin_pinned hg hk] at h
    cases h
    rfl
  · obtain ⟨e, he⟩ := verifyAndPin_mismatch hg hk env
    rw [he] at h
    cases h
    rfl

theorem verifyAndPin_evolves {c c' : Client N} {authenticated : Bytes} {env : Env}
    {r : Except GoError PublicKey} (h : c.verifyAndPin authenticated env = some (c', r)) :
    c.Evolves none c' := by
  have hpin : ∀ pin, c.peerStore.get c.peer.id = some pin → c' = c :=
    fun _ hg => verifyAndPin_pin h hg
  obtain ⟨ps, rfl⟩ := verifyAndPin_store h
  exact {
    old := fun i s hs => ⟨s, hs, .refl s⟩
    new := fun i s hs hs' => by
      rw [hs] at hs'
      cases hs'
    id := rfl
    announced := rfl
    pin := fun pin hg => by rw [hpin pin hg, hg] }

theorem markFailed_evolves (c : Client N) (i : ℕ) (verr : GoError) :
    c.Evolves none (c.markFailed i verr) := by
  unfold markFailed
  rcases hi : c.sessions[i]? with _ | s
  · exact .of_sessions rfl ⟨rfl, rfl, rfl⟩
  · exact .setSession hi (.keeps (Or.inr rfl) rfl rfl)

theorem settle_evolves (c : Client N) (i : ℕ) (w : Bool) (result : PairResult) :
    c.Evolves none (c.settle i w result).1 := by
  unfold settle takeFirstPairWaiter promote abandon
  split_ifs <;> exact .of_sessions rfl ⟨rfl, rfl, rfl⟩

theorem startRekeyAsInitiator_evolves (c : Client N) :
    c.Evolves none c.startRekeyAsInitiator.1 := by
  unfold startRekeyAsInitiator
  rcases hn : newInitiatorSession N c.privateKey c.nextRand with e | ⟨s, msg1⟩
  · exact .of_sessions rfl ⟨rfl, rfl, rfl⟩
  · exact .append rfl (newInitiatorSession_handshaking hn) ⟨rfl, rfl, rfl⟩

theorem startAsInitiator_evolves (c : Client N) : c.Evolves none c.startAsInitiator.1 := by
  unfold startAsInitiator
  rcases hn : newInitiatorSession N c.privateKey c.nextRand with e | ⟨s, msg1⟩
  · exact .of_sessions rfl ⟨rfl, rfl, rfl⟩
  · exact .append rfl (newInitiatorSession_handshaking hn) ⟨rfl, rfl, rfl⟩

theorem handleTransportEnvelope_evolves (c : Client N) (ciphertext : Bytes) :
    c.Evolves none (c.handleTransportEnvelope ciphertext).1 := by
  unfold handleTransportEnvelope
  rcases c.peer.active with _ | i
  · exact .of_sessions rfl ⟨rfl, rfl, rfl⟩
  dsimp only
  rcases hi : c.sessions[i]? with _ | s
  · exact .of_sessions rfl ⟨rfl, rfl, rfl⟩
  dsimp only
  rcases hd : s.decrypt ciphertext with e | ⟨plaintext, s'⟩
  · exact .of_sessions rfl ⟨rfl, rfl, rfl⟩
  · refine .setSession hi ?_
    unfold NoiseSession.decrypt at hd
    split at hd
    · cases hd
    split at hd
    · split at hd
      · cases hd
        exact .keeps (Or.inl rfl) rfl rfl
      · cases hd
    · cases hd

/-- Session `i` has the pinned key of the peer, and the announced one if there is one. -/
def Trusted (c : Client N) (i : ℕ) : Prop :=
  ∃ s pin, c.sessions[i]? = some s ∧ s.status ≠ .handshaking
    ∧ c.peerStore.get c.peer.id = some pin ∧ pin.staticKey = encodeBase64 s.peerStatic
    ∧ c.Announced s.peerStatic

theorem Evolves.trusted {c c' : Client N} {k : Option ℕ} (h : c.Evolves k c') {i : ℕ}
    (hi : c.Trusted i) : c'.Trusted i := by
  obtain ⟨s, pin, hs, hst, hget, hkey, hann⟩ := hi
  obtain ⟨s', hs', hev⟩ := h.old i s hs
  cases hev with
  | keeps hst' _ hp =>
    refine ⟨s', pin, hs', ?_, by rw [h.id]; exact h.pin pin hget, by rw [hp, hkey], ?_⟩
    · rcases hst' with he | he
      · rwa [he]
      · simp [he]
    · unfold Announced
      rw [h.announced, hp]
      exact hann
  | finishes _ hst' => exact absurd hst' hst

theorem Evolves.ready {c c' : Client N} {k : Option ℕ} (h : c.Evolves k c') {i : ℕ}
    (hi : c'.ready i = true) : c.ready i = true ∨ k = some i := by
  unfold Client.ready at hi ⊢
  simp only [Option.any_eq_true, NoiseSession.ready_iff] at hi ⊢
  obtain ⟨s', hs', hr⟩ := hi
  rcases hs : c.sessions[i]? with _ | s
  · have := (h.new i s' hs hs').1
    rw [hr] at this
    cases this
  · obtain ⟨s₁, hs₁, hev⟩ := h.old i s hs
    obtain rfl : s' = s₁ := by simpa [hs'] using hs₁
    cases hev with
    | keeps hst =>
      left
      rcases hst with he | he
      · exact ⟨s, rfl, by rw [← he, hr]⟩
      · rw [hr] at he
        cases he
    | finishes hd => exact Or.inr hd

end Client

/-- The session that ended without an error and is not verified yet. -/
def Ended.unverified (e : Ended) : Option ℕ := if e.err = none then some e.i else none

/-- The session that is ready though the read loop has yet to verify it, or to record that it
rejected it. -/
def Reader.unverified : Reader → Option ℕ
  | .replying _ (some ended) => ended.unverified
  | .completed ended => ended.unverified
  | .verified i _ (.error _) => some i
  | _ => none

namespace State

/-- The transport frames put on `c.sends`, in order. -/
def placed (st : State N) : List Sealed := st.sends.filterMap OutFrame.origin

/-- The transport frames encrypted and not put there. -/
def unsent (st : State N) : List Sealed := st.threads.filterMap Sending.unsent

/-- All that was ever encrypted. -/
def sealed (st : State N) : List Sealed := st.placed ++ st.unsent

/-- What a step does, apart from which label it has. -/
inductive Effect (st : State N) : Label → State N → Prop
  | reads {a : Label} {st' : State N} (k : Option ℕ) (ha : ∀ t, a ≠ .enqueue t)
      (hth : st'.threads = st.threads) (hp : st'.placed = st.placed)
      (hev : st.client.Evolves k st'.client)
      (hk : ∀ i, st.reader.unverified = some i ∨ k = some i →
        st'.reader.unverified = some i ∨ st'.client.Trusted i ∨ st'.client.ready i = false) :
      Effect st a st'
  | waits {a : Label} {st' : State N} (ha : ∀ t, a ≠ .enqueue t)
      (hc : st'.client = st.client) (hr : st'.reader = st.reader) (hp : st'.placed = st.placed)
      (hu : st'.unsent.Perm st.unsent) : Effect st a st'
  | encrypts (t i : ℕ) (payload : Bytes) (s : NoiseSession N) (cs : CipherState N)
      (ht : st.threads[t]? = some (.picked i payload)) (hs : st.client.sessions[i]? = some s)
      (hst : s.status = .ready) (hcs : s.sendCS = some cs) (hx : cs.exhausted = false) :
      Effect st (.encrypt t)
        { st.setThread t (.encrypted ⟨i, cs.n, payload,
            encodeEnvelope envelopeTransport (N.aeadEncrypt cs.key cs.n payload)⟩) with
          client := st.client.setSession i { s with sendCS := some { cs with n := cs.n + 1 } } }
  | enqueues (t : ℕ) (e : Sealed) (ht : st.threads[t]? = some (.encrypted e)) :
      Effect st (.enqueue t)
        ((st.put { data := e.frame, origin := some e }).setThread t (.returned none))

theorem unsent_setThread {st : State N} {t : ℕ} {x y : Sending} (h : st.threads[t]? = some x)
    (hxy : y.unsent = x.unsent) : (st.setThread t y).unsent.Perm st.unsent := by
  refine (ListPerm.filterMap_set_perm h y Sending.unsent).trans ?_
  rw [hxy]
  exact (ListPerm.filterMap_perm_eraseIdx h Sending.unsent).symm

theorem Effect.waits_setThread {st : State N} {a : Label} {t : ℕ} {x y : Sending}
    (h : st.threads[t]? = some x) (hxy : y.unsent = x.unsent) (ha : ∀ t, a ≠ .enqueue t) :
    Effect st a (st.setThread t y) :=
  .waits ha rfl rfl rfl (unsent_setThread h hxy)

theorem handshake_effect {st : State N} (hidle : st.reader = .idle) (env : Env) (data : Bytes) :
    Effect st (.handshake env data) (st.handshake env data) := by
  have hev := st.client.selectSession_evolves env.now
  unfold State.handshake
  rcases hsel : st.client.selectSession env.now with ⟨c, ⟨i, w⟩ | _ | e⟩
  all_goals
    rw [hsel] at hev
    exact .reads none nofun rfl rfl hev (by simp [hidle, Reader.unverified])

theorem afterReply_unverified (ended : Option Ended) :
    (afterReply ended).unverified = ended.bind Ended.unverified := by
  rcases ended with _ | ended <;> rfl

theorem afterFeed_unverified (env : Env) (e : Envelope) :
    (afterFeed env e).unverified = if e.err = none then e.completed else none := by
  unfold afterFeed
  rcases e with ⟨reply, completed, w, err⟩
  rcases reply with _ | msg
  · rw [afterReply_unverified]
    rcases completed with _ | i <;> simp [Ended.unverified]
  · rcases completed with _ | i <;> simp [Reader.unverified, Ended.unverified]

theorem feed_effect {st : State N} {env : Env} {i : ℕ} {w : Bool} {data : Bytes}
    (hsel : st.reader = .selected env i w data) : Effect st .feed (st.feed env i w data) := by
  have hev := st.client.feedSession_evolves i w data
  refine .reads _ nofun rfl rfl hev fun j hj => Or.inl ?_
  rcases hj with hj | hj
  · simp [hsel, Reader.unverified] at hj
  · rw [← hj]
    exact afterFeed_unverified env _

theorem verify_effect {st st' : State N} {ended : Ended} (hr : st.reader = .completed ended)
    (h : st.verify ended = some st') : Effect st .verify st' := by
  have hun : st.reader.unverified = ended.unverified := by rw [hr]; rfl
  unfold State.verify at h
  rcases he : ended.err with _ | e <;> simp only [he] at h
  · have hun' : st.reader.unverified = some ended.i := by rw [hun, Ended.unverified, if_pos he]
    rcases hs : st.client.sessions[ended.i]? with _ | s <;> simp only [hs] at h
    · cases h
      refine .reads none nofun rfl rfl (.of_sessions rfl ⟨rfl, rfl, rfl⟩) fun j hj => ?_
      obtain rfl : ended.i = j := by simpa [hun'] using hj
      exact Or.inr (Or.inr (by simp [Client.ready, hs]))
    · obtain ⟨⟨c, result⟩, hv, rfl⟩ := Option.map_eq_some_iff.1 h
      refine .reads none nofun rfl rfl (Client.verifyAndPin_evolves hv) fun j hj => ?_
      obtain rfl : ended.i = j := by simpa [hun'] using hj
      rcases result with verr | pub
      · exact Or.inl rfl
      · right
        by_cases hst : s.status = .handshaking
        · right
          obtain ⟨ps, rfl⟩ := Client.verifyAndPin_store hv
          simp [Client.ready, hs, NoiseSession.ready, hst]
        · left
          obtain ⟨⟨pin, hget, hkey⟩, hann, -⟩ := Client.verifyAndPin_ok hv
          obtain ⟨ps, rfl⟩ := Client.verifyAndPin_store hv
          exact ⟨s, pin, hs, hst, hget, hkey, hann⟩
  · cases h
    refine .reads none nofun rfl rfl (.of_sessions rfl ⟨rfl, rfl, rfl⟩) fun j hj => ?_
    simp [hun, Ended.unverified, he] at hj

theorem mark_effect {st : State N} {i : ℕ} {w : Bool} {result : Except GoError PublicKey}
    (hr : st.reader = .verified i w result) : Effect st .mark (st.mark i w result) := by
  rcases result with verr | pub
  · refine .reads none nofun rfl rfl (st.client.markFailed_evolves i verr) fun j hj => ?_
    obtain rfl : i = j := by simpa [hr, Reader.unverified] using hj
    refine Or.inr (Or.inr ?_)
    simp only [State.mark, Client.markFailed]
    rcases hs : st.client.sessions[i]? with _ | s
    · simp [Client.ready, hs]
    · have hlt := (List.getElem?_eq_some_iff.1 hs).1
      simp [Client.ready, Client.setSession, hlt, NoiseSession.ready]
  · refine .reads none nofun rfl rfl (.of_sessions rfl ⟨rfl, rfl, rfl⟩) fun j hj => ?_
    simp [hr, Reader.unverified] at hj

theorem peerStatus_effect {st : State N} (hidle : st.reader = .idle) (peerID : String)
    (online : Bool) : Effect st (.peerStatus peerID online) (st.peerStatus peerID online) := by
  have hev := st.client.startRekeyAsInitiator_evolves
  have hk : ∀ i, ¬ (st.reader.unverified = some i ∨ (none : Option ℕ) = some i) := by
    simp [hidle, Reader.unverified]
  unfold State.peerStatus
  split_ifs
  iterate 3 exact .waits nofun rfl rfl rfl (.refl _)
  rcases hn : st.client.startRekeyAsInitiator with ⟨c, e | msg1⟩
  all_goals
    rw [hn] at hev
    exact .reads none nofun rfl rfl hev fun i hi => absurd hi (hk i)

theorem startAsInitiator_effect {st : State N} (hidle : st.reader = .idle) :
    Effect st .startAsInitiator st.startAsInitiator := by
  have hev := st.client.startAsInitiator_evolves
  unfold State.startAsInitiator
  rcases hn : st.client.startAsInitiator with ⟨c, e | msg1⟩
  all_goals
    rw [hn] at hev
    exact .reads none nofun rfl rfl hev (by simp [hidle, Reader.unverified])

theorem pick_effect {st : State N} {t : ℕ} {peerID : String} {payload : Bytes}
    (h : st.threads[t]? = some (.called peerID payload)) :
    Effect st (.pick t) (st.pick t peerID payload) := by
  unfold State.pick
  split_ifs
  · exact .waits_setThread h rfl nofun
  · split
    · exact .waits_setThread h rfl nofun
    · exact .waits_setThread h rfl nofun

theorem encrypt_effect {st : State N} {t i : ℕ} {payload : Bytes}
    (h : st.threads[t]? = some (.picked i payload)) :
    Effect st (.encrypt t) (st.encrypt t i payload) := by
  unfold State.encrypt
  rcases hs : st.client.sessions[i]? with _ | s
  · exact .waits_setThread h rfl nofun
  by_cases hst : s.status = .ready
  swap
  · have henc : s.encrypt payload = .error errNotReady := if_pos hst
    simp only [henc]
    exact .waits_setThread h rfl nofun
  rcases hcs : s.sendCS with _ | cs
  · simp only [NoiseSession.encrypt, hst, hcs, ne_eq, not_true_eq_false, if_false]
    exact .waits_setThread h rfl nofun
  rcases hx : cs.exhausted with _ | _
  · have henc : s.encrypt payload = .ok (N.aeadEncrypt cs.key cs.n payload,
        { s with sendCS := some { cs with n := cs.n + 1 } }) := by
      simp [NoiseSession.encrypt, hst, hcs, CipherState.encrypt, hx]
    have hnonce : nextNonce s = cs.n := by simp [nextNonce, hcs]
    simp only [henc, hnonce]
    exact .encrypts t i payload s cs h hs hst hcs hx
  · simp only [NoiseSession.encrypt, hst, hcs, CipherState.encrypt, hx, ne_eq, not_true_eq_false,
      if_true, if_false]
    exact .waits_setThread h rfl nofun

theorem reply_effect {st : State N} {msg : Bytes} {ended : Option Ended}
    (hr : st.reader = .replying msg ended) (dropped : Bool) (sends : List OutFrame)
    (hs : sends.filterMap OutFrame.origin = st.placed) :
    Effect st (.reply dropped) { st with sends, reader := afterReply ended } := by
  refine .reads none nofun rfl hs (.of_sessions rfl ⟨rfl, rfl, rfl⟩) fun i hi => Or.inl ?_
  rw [afterReply_unverified]
  rcases ended with _ | ended
  · simp [hr, Reader.unverified] at hi
  · simpa [hr, Reader.unverified] using hi

theorem placed_put (st : State N) (f : OutFrame) :
    (st.put f).placed = st.placed ++ f.origin.toList := by
  rcases h : f.origin with _ | e <;> simp [placed, put, h]

theorem step_effect {st st' : State N} {a : Label} (h : st.step a = some st') :
    Effect st a st' := by
  cases a with
  | handshake env data =>
    rcases hr : st.reader <;> simp only [State.step, hr, reduceCtorEq] at h
    cases h
    exact handshake_effect hr env data
  | feed =>
    rcases hr : st.reader <;> simp only [State.step, hr, reduceCtorEq] at h
    cases h
    exact feed_effect hr
  | reply dropped =>
    rcases hr : st.reader <;> simp only [State.step, hr, reduceCtorEq] at h
    split_ifs at h
    · cases h
      exact reply_effect hr dropped _ rfl
    · cases h
      exact reply_effect hr dropped _ (by simp [placed, put])
  | verify =>
    rcases hr : st.reader <;> simp only [State.step, hr, reduceCtorEq] at h
    exact verify_effect hr h
  | mark =>
    rcases hr : st.reader <;> simp only [State.step, hr, reduceCtorEq] at h
    cases h
    exact mark_effect hr
  | finish =>
    rcases hr : st.reader <;> simp only [State.step, hr, reduceCtorEq] at h
    cases h
    exact .reads none nofun rfl rfl (st.client.settle_evolves _ _ _)
      (by simp [hr, Reader.unverified])
  | peerStatus peerID online =>
    rcases hr : st.reader <;> simp only [State.step, hr, reduceCtorEq] at h
    cases h
    exact peerStatus_effect hr peerID online
  | startAsInitiator =>
    rcases hr : st.reader <;> rcases hp : st.client.peer.active <;>
      simp only [State.step, hr, hp, reduceCtorEq] at h
    cases h
    exact startAsInitiator_effect hr
  | transport ciphertext =>
    rcases hr : st.reader <;> simp only [State.step, hr, reduceCtorEq] at h
    cases h
    exact .reads none nofun rfl rfl (st.client.handleTransportEnvelope_evolves ciphertext)
      (by simp [hr, Reader.unverified])
  | call peerID payload =>
    cases h
    refine .waits nofun rfl rfl rfl ?_
    simp only [unsent, List.filterMap_append]
    rw [List.filterMap_cons_none rfl, List.filterMap_nil, List.append_nil]
  | pick t =>
    rcases ht : st.threads[t]? with _ | (_ | _ | _ | _ | _) <;>
      simp only [State.step, ht, reduceCtorEq] at h
    cases h
    exact pick_effect ht
  | encrypt t =>
    rcases ht : st.threads[t]? with _ | (_ | _ | _ | _ | _) <;>
      simp only [State.step, ht, reduceCtorEq] at h
    cases h
    exact encrypt_effect ht
  | enqueue t =>
    rcases ht : st.threads[t]? with _ | (_ | _ | _ | _ | _) <;>
      simp only [State.step, ht, reduceCtorEq] at h
    split_ifs at h
    cases h
    exact .enqueues t _ ht
  | giveUp t =>
    rcases ht : st.threads[t]? with _ | (_ | _ | _ | _ | _) <;>
      simp only [State.step, ht, reduceCtorEq] at h
    cases h
    exact .waits_setThread ht rfl nofun
  | control data =>
    simp only [State.step] at h
    split_ifs at h
    cases h
    exact .waits nofun rfl rfl (by simp [placed_put]) (.refl _)
  | write =>
    simp only [State.step] at h
    split_ifs at h
    cases h
    exact .waits nofun rfl rfl rfl (.refl _)
  | close =>
    cases h
    exact .waits nofun rfl rfl rfl (.refl _)

end State

end Relayly.Go
