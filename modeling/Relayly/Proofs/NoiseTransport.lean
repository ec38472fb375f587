import Relayly.NoiseXX.Transport
import Relayly.Proofs.NoisePorts

/-!
# Transport messages between inserted garbage

The two cipher states of one direction hold the same key and the same counter. A genuine message
moves both counters, and one that fails to authenticate moves none.
-/

namespace Relayly.NoiseXX

/-- Correctness of the AEAD: what was encrypted is decrypted under the same key, nonce and
associated data. -/
def Primitives.Opens (P : Primitives) : Prop :=
  ∀ key nonce ad plaintext,
    P.aeadDecrypt key nonce ad (P.aeadEncrypt key nonce ad plaintext) = .ok plaintext

namespace CipherState

section calls
variable (C : Crypto)

/-- The counter moves with the result of `aeadDecrypt`. -/
lemma run_counting (r : Except String Bytes) (cs : CipherState) :
    (do let plaintext ← ExceptT.mk (pure r)
        modify fun cs => { cs with n := cs.n + 1 }
        return plaintext : ExceptT String (StateM CipherState) Bytes).run.run cs =
      (r, if r.isOk then { cs with n := cs.n + 1 } else cs) := by
  cases r <;> rfl

lemma recv_some (key : Bytes) (n : ℕ) (frame : Framed) :
    recv C ⟨some key, n⟩ frame =
      (C.aeadDecrypt key n frame.1 frame.2,
        if (C.aeadDecrypt key n frame.1 frame.2).isOk then ⟨some key, n + 1⟩ else ⟨some key, n⟩) :=
  run_counting (C.aeadDecrypt key n frame.1 frame.2) ⟨some key, n⟩

/-- On an exception the cipher state is the old one, else it is the one the handshake computes. -/
lemma recv_eq (cs : CipherState) (ad ciphertext : Bytes) :
    cs.recv C (ad, ciphertext) =
      match cs.decryptWithAd C ad ciphertext with
      | .error e => (.error e, cs)
      | .ok (plaintext, cs') => (.ok plaintext, cs') := by
  obtain ⟨key, n⟩ := cs
  cases key with
  | none => rfl
  | some key =>
    rw [recv_some]
    cases h : C.aeadDecrypt key n ad ciphertext <;>
      simp [decryptWithAd, h, Except.isOk, Except.toBool]

/-- A frame that fails authentication under the key of `cs` at its counter. -/
def Forged (cs : CipherState) (frame : Framed) : Prop :=
  ∃ key e, cs.key = some key ∧ C.aeadDecrypt key cs.n frame.1 frame.2 = .error e

variable {C}

lemma recv_of_forged {cs : CipherState} {frame : Framed} (h : cs.Forged C frame) :
    ∃ e, (cs.recv C frame).1 = .error e := by
  obtain ⟨key, n⟩ := cs
  obtain ⟨_, e, rfl, herr⟩ := h
  exact ⟨e, by rw [recv_some]; exact herr⟩

end calls

section ports
variable {P : Primitives}

/-- The two ports make the same nonce of a counter. -/
lemma aead_of_mem {C : Crypto} (h : C ∈ [P.ts, P.cpp]) (key : Bytes) (n : ℕ) (ad text : Bytes) :
    C.aeadEncrypt key n ad text = P.aeadEncrypt key (Ts.encodeNonce n) ad text ∧
      C.aeadDecrypt key n ad text = P.aeadDecrypt key (Ts.encodeNonce n) ad text := by
  simp only [List.mem_cons, List.not_mem_nil, or_false] at h
  rcases h with rfl | rfl
  · exact ⟨rfl, rfl⟩
  · simp only [Primitives.cpp, Cpp.encodeNonce_eq, and_self]

/-- The invariant: the sender, and with it the receiver, has a key. -/
lemma keeps (hP : P.Opens) {S R : Crypto} (hS : S ∈ [P.ts, P.cpp]) (hR : R ∈ [P.ts, P.cpp]) :
    Lockstep.Keeps (send S) (recv R) Prod.snd fun cs => cs.key.isSome where
  invariant := by
    rintro ⟨_ | key, n⟩ message h
    · cases h
    · rfl
  accepts := by
    rintro ⟨_ | key, n⟩ ⟨ad, plaintext⟩ h
    · cases h
    have hopen : R.aeadDecrypt key n ad (S.aeadEncrypt key n ad plaintext) = .ok plaintext := by
      rw [(aead_of_mem hR _ _ _ _).2, (aead_of_mem hS _ _ _ _).1]
      exact hP _ _ _ _
    simp only [send, encryptWithAd, recv_eq, decryptWithAd, hopen]
  refuses := by
    rintro cs ⟨ad, ciphertext⟩ e h
    rw [recv_eq] at h ⊢
    cases hdec : cs.decryptWithAd R ad ciphertext with
    | error e' => rfl
    | ok r =>
      rw [hdec] at h
      cases h

end ports

/-- Whatever is inserted between the frames of a sender, as long as it fails authentication where
it arrives, the receiver rejects the inserted frames, accepts the sender's and gets its plaintexts
in order. Sender and receiver are of either port. -/
theorem recvAll_of_forged_inserted (P : Primitives) (hP : P.Opens) (S R : Crypto)
    (hS : S ∈ [P.ts, P.cpp]) (hR : R ∈ [P.ts, P.cpp]) (key : Bytes) (n : ℕ)
    (messages : List Framed) (stream : List (Bool × Framed))
    (hgenuine : Lockstep.genuine stream = (Lockstep.sendAll (send S) ⟨some key, n⟩ messages).1)
    (hforged : ∀ before frame after, stream = before ++ (false, frame) :: after →
      (Lockstep.recvAll (recv R) ⟨some key, n⟩ (before.map (·.2))).2.Forged R frame) :
    let results := (Lockstep.recvAll (recv R) ⟨some key, n⟩ (stream.map (·.2))).1
    results.map Except.isOk = stream.map (·.1) ∧
      results.filterMap Except.toOption = messages.map (·.2) := by
  have hrefused : Lockstep.Refused (recv R) ⟨some key, n⟩ stream := fun before frame after heq =>
    recv_of_forged (hforged before frame after heq)
  obtain ⟨hok, hvalues, -⟩ := (keeps hP hS hR).recvAll_eq stream rfl hgenuine hrefused
  exact ⟨hok, hvalues⟩

theorem plainPrimitives_opens : plainPrimitives.Opens := by
  intro key nonce ad plaintext
  simp [plainPrimitives]

/-- One message of a TypeScript sender, with a byte too few and a wrong tag around it. -/
def garbled : List (Bool × Framed) :=
  [(false, ([], [7])), (true, ([], 5 :: List.replicate tagLen 0)),
    (false, ([], List.replicate tagLen 1))]

theorem recvAll_of_forged_inserted_garbled :
    let results := (Lockstep.recvAll (recv plainPrimitives.cpp) ⟨some [1], 0⟩
      (garbled.map (·.2))).1
    results.map Except.isOk = [false, true, false] ∧
      results.filterMap Except.toOption = [[5]] := by
  refine recvAll_of_forged_inserted plainPrimitives plainPrimitives_opens plainPrimitives.ts
    plainPrimitives.cpp (by simp) (by simp) [1] 0 [([], [5])] garbled rfl ?_
  intro before frame after h
  rcases before with _ | ⟨x, _ | ⟨y, _ | ⟨z, rest⟩⟩⟩
  · cases h
    exact ⟨[1], "too short", rfl, rfl⟩
  · cases h
  · cases h
    exact ⟨[1], "invalid tag", rfl, rfl⟩
  · simp [garbled] at h

end CipherState

end Relayly.NoiseXX
