import Relayly.Proofs.GoSend

/-!
# The order of transport frames

The nonce is taken when a payload is encrypted and the frame is queued in a later step of the same
`Send`, so what lies in `c.sends` and what is still held, or was given up, have together the nonces
`0, 1, …` of the session, once each.
-/

namespace Relayly.Go

variable {N : Noise}

/-- The nonces of the frames of session `i`. -/
def nonces (es : List Sealed) (i : ℕ) : List ℕ :=
  (es.filter fun e => e.session = i).map Sealed.nonce

theorem nonces_perm {es es' : List Sealed} (h : es.Perm es') (i : ℕ) :
    (nonces es i).Perm (nonces es' i) := (h.filter _).map _

theorem nonces_append (es es' : List Sealed) (i : ℕ) :
    nonces (es ++ es') i = nonces es i ++ nonces es' i := by
  simp [nonces]

@[simp] theorem nonces_nil (i : ℕ) : nonces [] i = [] := rfl

theorem nonces_cons_self (e : Sealed) (es : List Sealed) :
    nonces (e :: es) e.session = e.nonce :: nonces es e.session := by
  simp [nonces]

theorem nonces_cons_ne {e : Sealed} {i : ℕ} (h : e.session ≠ i) (es : List Sealed) :
    nonces (e :: es) i = nonces es i := by
  simp [nonces, h]

/-- How many payloads session `i` has encrypted. -/
def Client.encryptions (c : Client N) (i : ℕ) : ℕ :=
  ((c.sessions[i]?).bind NoiseSession.sendCS).elim 0 CipherState.n

/-- What a receiver whose counter is at `cs` makes of frames, in their order. -/
def openAll (cs : CipherState N) : List Bytes → Option (List Bytes)
  | [] => some []
  | frame :: frames =>
    match decodeEnvelope frame with
    | none => none
    | some (_, ciphertext) =>
      match cs.decrypt ciphertext with
      | .error _ => none
      | .ok (plaintext, cs) => (openAll cs frames).map (plaintext :: ·)

namespace State

/-- On `c.sends`, the `k`-th frame of each session is the one with nonce `k`. -/
def InOrder (st : State N) : Prop :=
  ∀ i, nonces st.placed i = List.range (nonces st.placed i).length

/-- What a `Send` puts on `c.sends` comes before all else of its session that was encrypted and is
not there. -/
def LeastFirst (st : State N) : Label → Prop
  | .enqueue t => ∀ e ∈ (st.threads[t]?).bind Sending.unsent,
    ∀ e' ∈ (st.threads.eraseIdx t).filterMap Sending.unsent, e'.session = e.session →
      e.nonce < e'.nonce
  | _ => True

instance (st : State N) : (a : Label) → Decidable (st.LeastFirst a)
  | .enqueue t => inferInstanceAs (Decidable (∀ e ∈ (st.threads[t]?).bind Sending.unsent,
      ∀ e' ∈ (st.threads.eraseIdx t).filterMap Sending.unsent, e'.session = e.session →
        e.nonce < e'.nonce))
  | .handshake .. | .feed | .reply _ | .verify | .mark | .finish | .peerStatus .. | .startAsInitiator
  | .transport _ | .call .. | .pick _ | .encrypt _ | .giveUp _ | .control _ | .write | .close =>
    isTrue trivial

/-- A frame is its payload sealed under the key of its session and its nonce. -/
def SealedBy (c : Client N) (e : Sealed) : Prop :=
  ∃ s cs, c.sessions[e.session]? = some s ∧ s.sendCS = some cs
    ∧ e.frame = encodeEnvelope envelopeTransport (N.aeadEncrypt cs.key e.nonce e.payload)
    ∧ ({ key := cs.key, n := e.nonce } : CipherState N).exhausted = false

structure Counted (st : State N) : Prop where
  perm : ∀ i, (nonces st.sealed i).Perm (List.range (st.client.encryptions i))
  handshaking : ∀ (i : ℕ) (s : NoiseSession N), st.client.sessions[i]? = some s →
    s.status = .handshaking → s.sendCS = none
  sealed : ∀ e ∈ st.sealed, SealedBy st.client e

theorem Fresh.counted {st : State N} (h : st.Fresh) : st.Counted where
  perm i := by simp [h.sealed, nonces, Client.encryptions, h.sessions]
  handshaking i s hs := by simp [h.sessions] at hs
  sealed := by simp [h.sealed]

theorem Fresh.inOrder {st : State N} (h : st.Fresh) : st.InOrder := by
  intro i
  simp [placed, h.sends, nonces]

theorem Counted.encryptions_eq {st : State N} (h : st.Counted) {k : Option ℕ} {c : Client N}
    (hev : st.client.Evolves k c) (i : ℕ) : c.encryptions i = st.client.encryptions i := by
  unfold Client.encryptions
  rcases hs : st.client.sessions[i]? with _ | s
  · rcases hs' : c.sessions[i]? with _ | s'
    · rfl
    · simp [(hev.new i s' hs hs').2]
  · obtain ⟨s', hs', hsev⟩ := hev.old i s hs
    rw [hs']
    cases hsev with
    | keeps _ hcs => simp [hcs]
    | finishes _ hst _ hn =>
      rw [Option.bind_some, Option.bind_some, h.handshaking i s hs hst]
      rcases hcs : s'.sendCS with _ | cs
      · rfl
      · exact hn cs hcs

theorem Counted.sealedBy {st : State N} (h : st.Counted) {k : Option ℕ} {c : Client N}
    (hev : st.client.Evolves k c) {e : Sealed} (he : SealedBy st.client e) : SealedBy c e := by
  obtain ⟨s, cs, hs, hcs, hframe, hx⟩ := he
  obtain ⟨s', hs', hsev⟩ := hev.old _ s hs
  cases hsev with
  | keeps _ hcs' => exact ⟨s', cs, hs', by rw [hcs', hcs], hframe, hx⟩
  | finishes _ hst =>
    rw [h.handshaking _ s hs hst] at hcs
    cases hcs

theorem Counted.evolves_handshaking {st : State N} (h : st.Counted) {k : Option ℕ} {c : Client N}
    (hev : st.client.Evolves k c) (i : ℕ) (s' : NoiseSession N) (hs' : c.sessions[i]? = some s')
    (hst : s'.status = .handshaking) : s'.sendCS = none := by
  rcases hs : st.client.sessions[i]? with _ | s
  · exact (hev.new i s' hs hs').2
  · obtain ⟨s₁, hs₁, hsev⟩ := hev.old i s hs
    obtain rfl : s' = s₁ := by simpa [hs'] using hs₁
    cases hsev with
    | keeps hst' hcs =>
      rw [hcs]
      rcases hst' with he | he
      · exact h.handshaking i s hs (by rw [← he, hst])
      · rw [hst] at he
        cases he
    | finishes _ _ hr =>
      rw [hst] at hr
      cases hr

/-- The client once session `i`, which is `s` with counter `cs`, has encrypted a payload. -/
def advance (c : Client N) (i : ℕ) (s : NoiseSession N) (cs : CipherState N) : Client N :=
  c.setSession i { s with sendCS := some { cs with n := cs.n + 1 } }

section advance

variable {c : Client N} {i : ℕ} {s : NoiseSession N} {cs : CipherState N}

theorem advance_self (hs : c.sessions[i]? = some s) : (advance c i s cs).sessions[i]?
    = some { s with sendCS := some { cs with n := cs.n + 1 } } :=
  List.getElem?_set_self (List.getElem?_eq_some_iff.1 hs).1

theorem advance_ne {j : ℕ} (hij : i ≠ j) : (advance c i s cs).sessions[j]? = c.sessions[j]? :=
  List.getElem?_set_ne hij

theorem SealedBy.advance {e : Sealed} (he : SealedBy c e) (hs : c.sessions[i]? = some s)
    (hcs : s.sendCS = some cs) : SealedBy (advance c i s cs) e := by
  obtain ⟨s₁, cs₁, hs₁, hcs₁, hframe, hx⟩ := he
  by_cases hie : i = e.session
  · subst hie
    obtain rfl : s = s₁ := by simpa [hs] using hs₁
    obtain rfl : cs = cs₁ := by simpa [hcs] using hcs₁
    exact ⟨_, _, advance_self hs, rfl, hframe, hx⟩
  · exact ⟨s₁, cs₁, by rw [advance_ne hie, hs₁], hcs₁, hframe, hx⟩

end advance

theorem Counted.encrypts {st : State N} (h : st.Counted) {t i : ℕ} {payload : Bytes}
    {s : NoiseSession N} {cs : CipherState N} (ht : st.threads[t]? = some (.picked i payload))
    (hs : st.client.sessions[i]? = some s) (hst : s.status = .ready) (hcs : s.sendCS = some cs)
    (hx : cs.exhausted = false) :
    ({ st.setThread t (.encrypted ⟨i, cs.n, payload,
        encodeEnvelope envelopeTransport (N.aeadEncrypt cs.key cs.n payload)⟩) with
      client := advance st.client i s cs } : State N).Counted := by
  have hsealed := fun e => sealed_encrypt ht e (advance st.client i s cs)
  have hcount : st.client.encryptions i = cs.n := by simp [Client.encryptions, hs, hcs]
  refine ⟨fun j => (nonces_perm (hsealed _) j).trans ?_, fun j sj hj hstj => ?_, fun e he => ?_⟩
  · by_cases hij : i = j
    · subst hij
      have hcount' : (advance st.client i s cs).encryptions i = cs.n + 1 := by
        simp [Client.encryptions, advance_self hs]
      dsimp only
      rw [hcount', List.range_succ]
      refine .trans ?_ (List.perm_append_singleton ..).symm
      refine (List.Perm.of_eq (nonces_cons_self ..)).trans (List.Perm.cons _ ?_)
      have hperm := h.perm i
      rwa [hcount] at hperm
    · dsimp only
      rw [nonces_cons_ne hij, Client.encryptions, advance_ne hij]
      exact h.perm j
  · by_cases hij : i = j
    · subst hij
      dsimp only at hj
      rw [advance_self hs, Option.some.injEq] at hj
      subst hj
      rw [hst] at hstj
      cases hstj
    · dsimp only at hj
      rw [advance_ne hij] at hj
      exact h.handshaking j sj hj hstj
  · rcases List.mem_cons.1 ((hsealed _).subset he) with rfl | hold
    · exact ⟨_, _, advance_self hs, rfl, rfl, hx⟩
    · exact (h.sealed e hold).advance hs hcs

theorem Counted.step {st st' : State N} {a : Label} (h : st.Counted)
    (hstep : st.step a = some st') : st'.Counted := by
  have heff := step_effect hstep
  cases heff with
  | reads k _ hth hp hev _ =>
    have hsealed : st'.sealed = st.sealed := by rw [State.sealed, hp, unsent, hth]; rfl
    refine ⟨fun i => ?_, h.evolves_handshaking hev, fun e he => h.sealedBy hev (h.sealed e ?_)⟩
    · rw [hsealed, h.encryptions_eq hev]
      exact h.perm i
    · rwa [hsealed] at he
  | waits _ hc _ hp hu =>
    have hsealed : st'.sealed.Perm st.sealed := by
      rw [State.sealed, hp]
      exact List.Perm.append_left _ hu
    refine ⟨fun i => ?_, by rw [hc]; exact h.handshaking, fun e he => ?_⟩
    · rw [hc]
      exact (nonces_perm hsealed i).trans (h.perm i)
    · rw [hc]
      exact h.sealed e (hsealed.subset he)
  | encrypts t i payload s cs ht hs hst hcs hx => exact h.encrypts ht hs hst hcs hx
  | enqueues t e ht =>
    exact ⟨fun i => (nonces_perm (sealed_enqueue ht) i).trans (h.perm i), h.handshaking,
      fun e he => h.sealed e ((sealed_enqueue ht).subset he)⟩

theorem leastFirst_iff {st : State N} {t : ℕ} {e : Sealed}
    (ht : st.threads[t]? = some (.encrypted e)) : st.LeastFirst (.enqueue t) ↔
      ∀ n ∈ nonces ((st.threads.eraseIdx t).filterMap Sending.unsent) e.session, e.nonce < n := by
  simp only [LeastFirst, ht, nonces, Option.bind_some, Sending.unsent, Option.mem_def,
    Option.some.injEq, forall_eq', List.mem_map, List.mem_filter, decide_eq_true_eq]
  constructor
  · rintro hall n ⟨e', ⟨he', hsess⟩, rfl⟩
    exact hall e' he' hsess
  · intro hall e' he' hsess
    exact hall _ ⟨e', ⟨he', hsess⟩, rfl⟩

theorem Counted.next_iff {st : State N} (h : st.Counted) {t : ℕ} {e : Sealed}
    (ht : st.threads[t]? = some (.encrypted e))
    (hin : nonces st.placed e.session = List.range (nonces st.placed e.session).length) :
    e.nonce = (nonces st.placed e.session).length ↔ st.LeastFirst (.enqueue t) := by
  rw [leastFirst_iff ht]
  have hheld := nonces_perm (ListPerm.filterMap_perm_eraseIdx ht Sending.unsent) e.session
  have hperm := h.perm e.session
  rw [State.sealed, nonces_append, hin] at hperm
  refine ListPerm.eq_iff_least ((List.Perm.append_left _ ?_).trans hperm)
  rw [← nonces_cons_self]
  exact hheld.symm

theorem Counted.inOrder_enqueue {st st' : State N} (h : st.Counted) {t : ℕ} {e : Sealed}
    (ht : st.threads[t]? = some (.encrypted e)) (hp : st'.placed = st.placed ++ [e]) :
    st'.InOrder ↔ st.InOrder ∧ st.LeastFirst (.enqueue t) := by
  have hself : nonces st'.placed e.session = nonces st.placed e.session ++ [e.nonce] := by
    rw [hp, nonces_append, nonces_cons_self, nonces_nil]
  have hne : ∀ i, e.session ≠ i → nonces st'.placed i = nonces st.placed i := by
    intro i hi
    rw [hp, nonces_append, nonces_cons_ne hi, nonces_nil, List.append_nil]
  constructor
  · intro hin
    have hlast := hin e.session
    rw [hself, ListPerm.append_singleton_eq_range] at hlast
    refine ⟨fun i => ?_, (h.next_iff ht hlast.1).1 hlast.2⟩
    by_cases hi : e.session = i
    · exact hi ▸ hlast.1
    · rw [← hne i hi]
      exact hin i
  · rintro ⟨hin, hl⟩ i
    by_cases hi : e.session = i
    · subst hi
      rw [hself, ListPerm.append_singleton_eq_range]
      exact ⟨hin _, (h.next_iff ht (hin _)).2 hl⟩
    · rw [hne i hi]
      exact hin i

theorem Counted.inOrder_step {st st' : State N} {a : Label} (h : st.Counted)
    (hstep : st.step a = some st') : st'.InOrder ↔ st.InOrder ∧ st.LeastFirst a := by
  have hother : (∀ t, a ≠ .enqueue t) → st'.placed = st.placed →
      (st'.InOrder ↔ st.InOrder ∧ st.LeastFirst a) := by
    intro ha hp
    have hl : st.LeastFirst a := by
      cases a with
      | enqueue t => exact absurd rfl (ha t)
      | _ => trivial
    simp only [InOrder, hp, hl, and_true]
  have heff := step_effect hstep
  cases heff with
  | reads _ ha _ hp => exact hother ha hp
  | waits ha _ _ hp => exact hother ha hp
  | encrypts => exact hother nofun rfl
  | enqueues t e ht => exact h.inOrder_enqueue ht (placed_put ..)

/-- The frames of session `i` on `c.sends`. -/
def placedBy (st : State N) (i : ℕ) : List Sealed := st.placed.filter fun e => e.session = i

/-- Frames sealed under a key with the nonces from `n` on are opened in that order. -/
theorem openAll_sealed (hN : N.Opens) (key : N.Key) : ∀ (es : List Sealed) (n : ℕ),
    es.map Sealed.nonce = List.range' n es.length →
    (∀ e ∈ es, e.frame = encodeEnvelope envelopeTransport (N.aeadEncrypt key e.nonce e.payload)
      ∧ ({ key, n := e.nonce } : CipherState N).exhausted = false) →
    openAll { key, n } (es.map Sealed.frame) = some (es.map Sealed.payload)
  | [], _, _, _ => rfl
  | e :: es, n, hn, hes => by
    rw [List.map_cons, List.length_cons, List.range'_succ] at hn
    obtain ⟨rfl, htail⟩ := List.cons.inj hn
    obtain ⟨hframe, hx⟩ := hes e (List.mem_cons_self ..)
    have hrest := openAll_sealed hN key es (e.nonce + 1) htail
      fun e' he' => hes e' (List.mem_cons_of_mem _ he')
    have hopen := CipherState.decrypt_aeadEncrypt hN hx e.payload
    simp only [List.map_cons, openAll, hframe, decodeEnvelope_encodeEnvelope, hopen, hrest,
      Option.map_some]

theorem Counted.openAll_placedBy {st : State N} (h : st.Counted) (hin : st.InOrder) (hN : N.Opens)
    {i : ℕ} {s : NoiseSession N} {cs : CipherState N} (hs : st.client.sessions[i]? = some s)
    (hcs : s.sendCS = some cs) :
    openAll { key := cs.key } ((st.placedBy i).map Sealed.frame)
      = some ((st.placedBy i).map Sealed.payload) := by
  refine openAll_sealed hN cs.key _ 0 ?_ fun e he => ?_
  · have hi := hin i
    rwa [nonces, List.length_map, List.range_eq_range'] at hi
  · obtain ⟨he, hsess⟩ := List.mem_filter.1 he
    obtain ⟨s', cs', hs', hcs', hframe, hx⟩ := h.sealed e (List.mem_append_left _ he)
    rw [of_decide_eq_true hsess, hs, Option.some.injEq] at hs'
    subst hs'
    obtain rfl : cs = cs' := by simpa [hcs] using hcs'
    exact ⟨hframe, hx⟩

/-- The frames of every session leave in the order of their nonces, without a gap, exactly if each
one put on `c.sends` is the first of those encrypted and not yet there; a receiver then opens them
all. -/
theorem inOrder_iff (st₀ st : State N) (h₀ : st₀.Fresh) (as : List Label)
    (hrun : Lts.run State.step st₀ as = some st) :
    (st.InOrder ↔ Lts.Meets State.step LeastFirst st₀ as)
      ∧ (Lts.Meets State.step LeastFirst st₀ as → N.Opens → ∀ i s cs,
        st.client.sessions[i]? = some s → s.sendCS = some cs →
        openAll { key := cs.key } ((st.placedBy i).map Sealed.frame)
          = some ((st.placedBy i).map Sealed.payload)) := by
  have hcount := Lts.run_inv_of_step (fun _ _ _ h hs => Counted.step h hs) as h₀.counted hrun
  have hiff := Lts.run_iff (fun _ _ _ h hs => Counted.step h hs)
    (fun _ _ _ h hs => h.inOrder_step hs) as h₀.counted hrun
  simp only [h₀.inOrder, true_and] at hiff
  refine ⟨hiff, fun hm hN i s cs hs hcs => ?_⟩
  exact hcount.openAll_placedBy (hiff.2 hm) hN hs hcs

/-- Device `b` with a verified session to `a` and two calls of `Send` that have encrypted. -/
def twoSends : List Label :=
  firstHandshake (List.replicate 32 1) ++ [Label.verify, .mark, .finish, .encrypt 0, .call "a" [8],
    .pick 1, .encrypt 1]

/-- What `a` receives with in the session of `twoSends`. -/
def receiverA : CipherState plainNoise :=
  { key := (PlainNoise.msg2 (List.replicate 32 2) [] (PlainNoise.msg1 [9]), false) }

/-- The second frame overtakes the first, or the first is given up when its context is cancelled:
either way the first frame on `c.sends` has nonce 1, and a receiver cannot open it. -/
theorem placed_outOfOrder :
    (∃ st, Lts.run State.step restartedB (twoSends ++ [Label.enqueue 1, .enqueue 0]) = some st
        ∧ ¬ st.InOrder ∧ openAll receiverA ((st.placedBy 0).map Sealed.frame) = none)
      ∧ ∃ st, Lts.run State.step restartedB (twoSends ++ [Label.giveUp 0, .enqueue 1]) = some st
        ∧ ¬ st.InOrder ∧ openAll receiverA ((st.placedBy 0).map Sealed.frame) = none := by
  have h : ∀ rest ∈ [[Label.enqueue 1, .enqueue 0], [.giveUp 0, .enqueue 1]],
      (Lts.run State.step restartedB (twoSends ++ rest)).any fun st =>
        decide (nonces st.placed 0 ≠ List.range (nonces st.placed 0).length)
          && (openAll receiverA ((st.placedBy 0).map Sealed.frame)).isNone := by
    decide +kernel
  have hex : ∀ rest ∈ [[Label.enqueue 1, .enqueue 0], [.giveUp 0, .enqueue 1]],
      ∃ st, Lts.run State.step restartedB (twoSends ++ rest) = some st ∧ ¬ st.InOrder
        ∧ openAll receiverA ((st.placedBy 0).map Sealed.frame) = none := by
    intro rest hrest
    obtain ⟨st, hrun, hst⟩ := (Option.any_eq_true ..).1 (h rest hrest)
    simp only [Bool.and_eq_true, decide_eq_true_eq, Option.isNone_iff_eq_none] at hst
    exact ⟨st, hrun, fun hin => hst.1 (hin 0), hst.2⟩
  exact ⟨hex _ (by simp), hex _ (by simp)⟩

theorem inOrder_iff_twoSends :
    ∃ st, Lts.run State.step restartedB (twoSends ++ [Label.enqueue 0, .enqueue 1]) = some st
      ∧ nonces st.placed 0 = [0, 1]
      ∧ (st.InOrder ↔ Lts.Meets State.step LeastFirst restartedB
        (twoSends ++ [Label.enqueue 0, .enqueue 1]))
      ∧ (Lts.Meets State.step LeastFirst restartedB (twoSends ++ [Label.enqueue 0, .enqueue 1]) →
        plainNoise.Opens → ∀ i s cs, st.client.sessions[i]? = some s → s.sendCS = some cs →
        openAll { key := cs.key } ((st.placedBy i).map Sealed.frame)
          = some ((st.placedBy i).map Sealed.payload)) := by
  have h : ((Lts.run State.step restartedB (twoSends ++ [Label.enqueue 0, .enqueue 1])).map fun st =>
      nonces st.placed 0) = some [0, 1] := by decide +kernel
  obtain ⟨st, hrun, hn⟩ := Option.map_eq_some_iff.1 h
  exact ⟨st, hrun, hn, inOrder_iff restartedB st restartedB_fresh _ hrun⟩

end State

end Relayly.Go
