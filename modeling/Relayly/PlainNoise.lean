import Relayly.Noise

/-!
# A Noise library without the cryptography

`plainNoise` has the message pattern of XX and checks the transcripts the cipher would bind, in
the clear: the handshakes of the model can be run with it, and it satisfies the laws the results
assume of a library.
-/

namespace Relayly

/-- The states of a handshake, with what each has drawn and read. -/
inductive PlainHs
  | start (initiator : Bool) (priv rand : Bytes)
  | sent1 (priv rand : Bytes)
  | got1 (priv rand data : Bytes)
  | sent2 (priv rand data : Bytes)
  | got2 (priv remote msg2 : Bytes)
  | done (remote : Bytes)
  deriving DecidableEq

namespace PlainNoise

/-- A byte string with its end marked. -/
def frame : Bytes → Bytes
  | [] => [0]
  | b :: bs => 1 :: b :: frame bs

/-- Undoes `frame`, with what comes after. -/
def unframe : Bytes → Option (Bytes × Bytes)
  | 0 :: rest => some ([], rest)
  | 1 :: b :: rest => (unframe rest).map fun (bs, rest) => (b :: bs, rest)
  | _ => none

theorem unframe_frame : ∀ bs rest : Bytes, unframe (frame bs ++ rest) = some (bs, rest)
  | [], rest => rfl
  | b :: bs, rest => by
    rw [frame, List.cons_append, List.cons_append]
    simp [unframe, unframe_frame bs rest]

def msg1 (rand : Bytes) : Bytes := 1 :: rand

def msg2 (priv rand data : Bytes) : Bytes := 2 :: (frame priv ++ frame rand ++ data)

def msg3 (priv msg2 : Bytes) : Bytes := 3 :: (frame priv ++ msg2)

def split (msg2 : Bytes) : Option ((Bytes × Bool) × (Bytes × Bool)) :=
  some ((msg2, true), (msg2, false))

def writeMessage : PlainHs →
    Except String (Bytes × PlainHs × Option ((Bytes × Bool) × (Bytes × Bool)))
  | .start true priv rand => .ok (msg1 rand, .sent1 priv rand, none)
  | .got1 priv rand data => .ok (msg2 priv rand data, .sent2 priv rand data, none)
  | .got2 priv remote m => .ok (msg3 priv m, .done remote, split m)
  | _ => .error "noise: unexpected call to WriteMessage should be ReadMessage"

/-- The initiator's part of reading `msg2`: the responder must have read this `msg1`. -/
def readMsg2 (priv rand : Bytes) : Bytes →
    Except String (PlainHs × Option ((Bytes × Bool) × (Bytes × Bool)))
  | 2 :: body =>
    match unframe body with
    | none => .error "noise: message is too short"
    | some (remote, body') =>
      match unframe body' with
      | none => .error "noise: message is too short"
      | some (_, data) =>
        if data = msg1 rand then .ok (.got2 priv remote (2 :: body), none)
        else .error "chacha20poly1305: message authentication failed"
  | _ => .error "chacha20poly1305: message authentication failed"

/-- The responder's part of reading `msg3`: the initiator must have read this `msg2`. -/
def readMsg3 (m : Bytes) : Bytes →
    Except String (PlainHs × Option ((Bytes × Bool) × (Bytes × Bool)))
  | 3 :: body =>
    match unframe body with
    | none => .error "noise: message is too short"
    | some (remote, read) =>
      if read = m then .ok (.done remote, split m)
      else .error "chacha20poly1305: message authentication failed"
  | _ => .error "chacha20poly1305: message authentication failed"

def readMessage : PlainHs → Bytes →
    Except String (PlainHs × Option ((Bytes × Bool) × (Bytes × Bool)))
  | .start false priv rand, data => .ok (.got1 priv rand data, none)
  | .sent1 priv rand, data => readMsg2 priv rand data
  | .sent2 priv rand data', data => readMsg3 (msg2 priv rand data') data
  | _, _ => .error "noise: unexpected call to ReadMessage should be WriteMessage"

def peerStatic : PlainHs → Bytes
  | .got2 _ remote _ => remote
  | .done remote => remote
  | _ => []

/-- What stands before a plaintext: the key and the nonce it is sealed under. -/
def header (key : Bytes × Bool) (n : ℕ) : Bytes :=
  frame key.1 ++ (if key.2 then 1 else 0) :: frame (List.replicate n 0)

def aeadDecrypt (key : Bytes × Bool) (n : ℕ) (ciphertext : Bytes) : Except String Bytes :=
  if ciphertext.take (header key n).length = header key n then
    .ok (ciphertext.drop (header key n).length)
  else .error "chacha20poly1305: message authentication failed"

end PlainNoise

/-- The public key of a private key is the key itself here. -/
def plainNoise : Noise where
  Hs := PlainHs
  Key := Bytes × Bool
  newHandshakeState initiator priv rand := .ok (.start initiator priv rand)
  writeMessage := PlainNoise.writeMessage
  readMessage := PlainNoise.readMessage
  peerStatic := PlainNoise.peerStatic
  aeadEncrypt key n plaintext := PlainNoise.header key n ++ plaintext
  aeadDecrypt := PlainNoise.aeadDecrypt
  maxNonce := none
  maxNonceError := "noise: cipherstate has reached maximum nonce"

instance : DecidableEq plainNoise.Key := inferInstanceAs (DecidableEq (Bytes × Bool))

namespace PlainNoise

@[simp] theorem initiator_eq (priv rand : Bytes) :
    plainNoise.initiator priv rand = some (msg1 rand, .sent1 priv rand) := rfl

@[simp] theorem responder_eq (priv rand data : Bytes) :
    plainNoise.responder priv rand data = some (msg2 priv rand data, .sent2 priv rand data) := rfl

theorem readMessage_msg2 (priv rand priv' rand' data : Bytes) :
    plainNoise.readMessage (.sent1 priv rand) (msg2 priv' rand' data) =
      if data = msg1 rand then .ok (.got2 priv priv' (msg2 priv' rand' data), none)
      else .error "chacha20poly1305: message authentication failed" := by
  have h : plainNoise.readMessage (.sent1 priv rand) (msg2 priv' rand' data)
      = readMsg2 priv rand (msg2 priv' rand' data) := rfl
  rw [h, msg2, List.append_assoc]
  simp only [readMsg2, unframe_frame]
  rfl

theorem readMessage_msg3 (priv rand data priv' read : Bytes) :
    plainNoise.readMessage (.sent2 priv rand data) (msg3 priv' read) =
      if read = msg2 priv rand data then .ok (.done priv', split (msg2 priv rand data))
      else .error "chacha20poly1305: message authentication failed" := by
  have h : plainNoise.readMessage (.sent2 priv rand data) (msg3 priv' read)
      = readMsg3 (msg2 priv rand data) (msg3 priv' read) := rfl
  rw [h]
  simp only [msg3, readMsg3, unframe_frame]
  rfl

/-- An initiator that has read a message as `msg2` holds it. -/
theorem readMessage_sent1 {priv rand m : Bytes} {r : PlainHs × Option _}
    (h : plainNoise.readMessage (.sent1 priv rand) m = .ok r) :
    ∃ remote, r = (.got2 priv remote m, none) := by
  change readMsg2 priv rand m = .ok r at h
  unfold readMsg2 at h
  split at h
  · split at h
    · cases h
    · split at h
      · cases h
      · split_ifs at h
        cases h
        exact ⟨_, rfl⟩
  · cases h

end PlainNoise

open PlainNoise in
theorem plainNoise_xx : plainNoise.XX id where
  msg2_binds := by
    intro pa ra pb rb data m1 m2 hi hr r h1 h2 h
    cases h1
    cases h2
    rw [readMessage_msg2] at h
    split_ifs at h with hd
    exact hd
  msg3_completes := by
    intro pa ra pb rb m1 m2 m3 hi hi' hi'' hr r split' h1 h2 h3 h4
    cases h1
    cases h2
    rw [readMessage_msg2, if_pos rfl] at h3
    cases h3
    cases h4
    exact ⟨rfl, rfl, .done pa, by rw [readMessage_msg3, if_pos rfl], rfl⟩
  refuses_msg1 := by
    intro pa ra pb rb data m1 m2 hi hr h1 h2
    cases h1
    cases h2
    exact ⟨_, rfl⟩
  refuses_msg2 := by
    intro pa ra pb rb data data' m2 m2' hr hr' h1 h2
    cases h1
    cases h2
    exact ⟨_, rfl⟩
  msg1_ne_msg2 := by
    intro pa ra pb rb data m1 m2 hi hr h1 h2 h
    cases h1
    cases h2
    cases h
  msg1_ne_msg3 := by
    intro pa ra ra' m1 m1' m2 m3 hi hi' h h' r split' h1 h2 h3 h4 heq
    cases h1
    cases h2
    obtain ⟨remote, hr⟩ := readMessage_sent1 h3
    cases hr
    cases h4
    cases heq

theorem plainNoise_fresh (priv : Bytes) {rand : ℕ → Bytes} (h : Function.Injective rand) :
    plainNoise.Fresh priv rand := by
  intro i j m h₁ h₂ hi hj
  have hmsg1 : PlainNoise.msg1 (rand i) = PlainNoise.msg1 (rand j) :=
    (congrArg Prod.fst (Option.some.inj hi)).trans (congrArg Prod.fst (Option.some.inj hj)).symm
  exact h (List.tail_eq_of_cons_eq hmsg1)

open PlainNoise in
theorem plainNoise_answers : plainNoise.Answers where
  msg1 _ _ _ := ⟨_, rfl⟩
  msg2 := by
    intro pa ra pb rb m1 m2 hi hr h1 h2
    cases h1
    cases h2
    exact ⟨_, _, _, _, _, (readMessage_msg2 ..).trans (if_pos rfl), rfl⟩
  refuses_msg1 := by
    intro pa ra pb rb m1 m1' hi hi' h1 h2
    cases h1
    cases h2
    exact ⟨_, rfl⟩

theorem PlainNoise.aeadDecrypt_header (key : Bytes × Bool) (n : ℕ) (plaintext : Bytes) :
    aeadDecrypt key n (header key n ++ plaintext) = .ok plaintext := by
  simp [aeadDecrypt]

theorem plainNoise_opens : plainNoise.Opens :=
  fun key n plaintext => PlainNoise.aeadDecrypt_header key n plaintext

end Relayly
