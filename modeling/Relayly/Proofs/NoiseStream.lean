import Relayly.Proofs.NoiseNonces
import Relayly.Proofs.NoiseTransport

/-!
# Transport messages between replayed, reordered and dropped ones

A receiver opens a frame under the number of frames it has opened before. Unless the AEAD opens what
the sender has not sealed under that nonce, this is the sender's frame of that number, so that what
comes out is the beginning of what went in. The nonces come back after `2 ^ 64` frames.
-/

namespace Relayly.NoiseXX

namespace CipherState

/-- Authenticity of the AEAD on a stream: a frame that opens under a nonce is one that the sender of
`messages` has made with that nonce. -/
def Sealed (P : Primitives) (p : Port) (key : Bytes) (messages stream : List Framed) : Prop :=
  ∀ n, ∀ frame ∈ stream, ∀ plaintext,
    P.aeadDecrypt key (Ts.encodeNonce n) frame.1 frame.2 = .ok plaintext →
      ∃ i, (Lockstep.sendAll (send (p.crypto P)) (initializeKey key) messages).1[i]? = some frame
        ∧ Ts.encodeNonce n = Ts.encodeNonce i

variable {P : Primitives} {key : Bytes}

lemma crypto_mem (port : Port) : port.crypto P ∈ [P.ts, P.cpp] := by
  cases port <;> simp [Port.crypto]

/-- A sender has counted the messages it has sent. -/
lemma sendAll_state (C : Crypto) (messages : List Framed) (n : ℕ) :
    (Lockstep.sendAll (send C) ⟨some key, n⟩ messages).2 = ⟨some key, n + messages.length⟩ := by
  induction messages generalizing n with
  | nil => rfl
  | cons m messages ih =>
    show (Lockstep.sendAll (send C) ⟨some key, n + 1⟩ messages).2 = _
    rw [ih, List.length_cons, Nat.add_right_comm, Nat.add_assoc]

/-- The frame of a number is the message of that number, sealed under it. -/
lemma sendAll_getElem? (C : Crypto) (messages : List Framed) (n i : ℕ) :
    (Lockstep.sendAll (send C) ⟨some key, n⟩ messages).1[i]?
      = messages[i]?.map fun m => (m.1, C.aeadEncrypt key (n + i) m.1 m.2) := by
  induction messages generalizing n i with
  | nil => rfl
  | cons m messages ih =>
    cases i with
    | zero => rfl
    | succ i =>
      show (Lockstep.sendAll (send C) ⟨some key, n + 1⟩ messages).1[i]? = _
      rw [ih, List.getElem?_cons_succ, Nat.add_assoc, Nat.add_comm 1 i]

/-- Where there are fewer than `2 ^ 64` messages a nonce tells which of them it is. -/
lemma authentic_of_sealed (p q : Port) {messages stream : List Framed}
    (hcount : messages.length < 2 ^ 64) (hsealed : Sealed P p key messages stream) :
    Lockstep.Authentic (send (p.crypto P)) (recv (q.crypto P)) (initializeKey key) messages stream := by
  intro k hk frame hframe plaintext hopened
  have hlen : (messages.take k).length = k := by rw [List.length_take, Nat.min_eq_left hk]
  have hstate : (Lockstep.sendAll (send (p.crypto P)) (initializeKey key) (messages.take k)).2
      = ⟨some key, k⟩ := by
    rw [initializeKey, sendAll_state, hlen, Nat.zero_add]
  rw [hstate, recv_some, (aead_of_mem (crypto_mem q) _ _ _ _).2] at hopened
  obtain ⟨i, hsent, hnonce⟩ := hsealed k frame hframe plaintext hopened
  rw [initializeKey, sendAll_getElem?, Nat.zero_add] at hsent
  obtain ⟨m, hm, rfl⟩ := Option.map_eq_some_iff.1 hsent
  obtain ⟨hi, -⟩ := List.getElem?_eq_some_iff.1 hm
  obtain rfl : k = i := by
    have := Ts.encodeNonce_inj.1 hnonce
    omega
  refine ⟨m, hm, ?_⟩
  rw [hstate, send, encryptWithAd]

/-- Whatever a receiver of one port is given in place of the frames of a sender of the same or the
other (any of them left out, repeated or in another order, and anything else), what it accepts is the
first so many of the sender's messages, in order and once each, and it then waits for the next one. -/
theorem received_take (P : Primitives) (hP : P.Opens) (p q : Port) (key : Bytes)
    (messages : List Framed) (hcount : messages.length < 2 ^ 64) (stream : List Framed)
    (hsealed : Sealed P p key messages stream) :
    ∃ k ≤ messages.length,
      (Lockstep.recvAll (recv (q.crypto P)) (initializeKey key) stream).1.filterMap Except.toOption
          = (messages.take k).map (·.2)
        ∧ (Lockstep.recvAll (recv (q.crypto P)) (initializeKey key) stream).2 = ⟨some key, k⟩ := by
  obtain ⟨k, hk, hvalues, hlast⟩ := (keeps hP (crypto_mem p) (crypto_mem q)).recvAll_take stream
    (s := initializeKey key) rfl (authentic_of_sealed p q hcount hsealed)
  refine ⟨k, hk, hvalues, ?_⟩
  rw [hlast, initializeKey, sendAll_state, List.length_take, Nat.min_eq_left hk, Nat.zero_add]

/-- A nonce, filled up to the length of a tag. -/
def tagOf (nonce : Bytes) : Bytes := (nonce ++ List.replicate tagLen 0).take tagLen

/-- Primitives whose tag is the nonce. -/
def tagging : Primitives :=
  { plainPrimitives with
    aeadEncrypt := fun _ nonce _ plaintext => plaintext ++ tagOf nonce
    aeadDecrypt := fun _ nonce _ ciphertext =>
      if ciphertext.drop (ciphertext.length - tagLen) = tagOf nonce then
        .ok (ciphertext.take (ciphertext.length - tagLen))
      else .error "invalid tag" }

lemma length_tagOf (nonce : Bytes) : (tagOf nonce).length = tagLen := by simp [tagOf]

lemma tagging_opens : tagging.Opens := by
  intro key nonce ad plaintext
  simp [tagging, length_tagOf]

lemma tagOf_encodeNonce_inj {a b : ℕ} (h : tagOf (Ts.encodeNonce a) = tagOf (Ts.encodeNonce b)) :
    Ts.encodeNonce a = Ts.encodeNonce b := by
  have htake : ∀ n, (tagOf (Ts.encodeNonce n)).take 12 = Ts.encodeNonce n := by
    intro n
    have hlen : (Ts.encodeNonce n).length = 12 := by simp [Ts.encodeNonce]
    rw [tagOf, List.take_take, show min 12 tagLen = 12 from rfl]
    exact List.take_left' hlen
  rw [← htake a, h, htake]

/-- What the sender of two messages makes of them. -/
def sentFrame (n : ℕ) (text : Bytes) : Framed := ([], text ++ tagOf (Ts.encodeNonce n))

lemma sentFrame_opened {key text plaintext : Bytes} {n i : ℕ}
    (h : tagging.aeadDecrypt key (Ts.encodeNonce n) (sentFrame i text).1 (sentFrame i text).2
      = .ok plaintext) : Ts.encodeNonce n = Ts.encodeNonce i := by
  simp only [tagging, sentFrame, List.length_append, length_tagOf, Nat.add_sub_cancel,
    List.drop_left] at h
  split_ifs at h with htag
  exact (tagOf_encodeNonce_inj htag).symm

/-- The second before the first, and both of them more than once. -/
def shuffled : List Framed :=
  [sentFrame 1 [6], sentFrame 0 [5], sentFrame 0 [5], sentFrame 1 [6], sentFrame 1 [6]]

lemma sealed_shuffled : Sealed tagging .ts [1] [([], [5]), ([], [6])] shuffled := by
  intro n frame hframe plaintext hopened
  have hcases : frame = sentFrame 0 [5] ∨ frame = sentFrame 1 [6] := by
    simp only [shuffled, List.mem_cons, List.not_mem_nil, or_false] at hframe
    tauto
  rcases hcases with rfl | rfl
  · exact ⟨0, rfl, sentFrame_opened hopened⟩
  · exact ⟨1, rfl, sentFrame_opened hopened⟩

theorem received_take_shuffled :
    ∃ k ≤ 2, (Lockstep.recvAll (recv tagging.cpp) (initializeKey [1]) shuffled).1.filterMap Except.toOption
        = (([[5], [6]] : List Bytes).take k)
      ∧ (Lockstep.recvAll (recv tagging.cpp) (initializeKey [1]) shuffled).2 = ⟨some [1], k⟩ := by
  obtain ⟨k, hk, hvalues, hlast⟩ := received_take tagging tagging_opens .ts .cpp [1]
    [([], [5]), ([], [6])] (by decide) shuffled sealed_shuffled
  exact ⟨k, hk, hvalues.trans List.map_take, hlast⟩

end CipherState

end Relayly.NoiseXX
