import Relayly.Proofs.GoTurn

/-!
# The two ends of a session

Only the smaller ID starts rekeys, so all handshake frames to `a` are answers of `b`. The initiator
takes its new session when it has written `msg3` and the responder when it has read it: while a
`msg3` is in flight the two ends differ, and the responder that will read it must still be waiting.
-/

namespace Relayly.Go

variable {N : Noise}

/-- The private keys of the two devices, and the randomness of the sessions of `a`. -/
structure Parties where
  a : Bytes
  b : Bytes
  rand : ℕ → Bytes

/-- The handshake message in a frame, if it is one. -/
def Frame.body (f : Frame) : Option Bytes :=
  match decodeEnvelope f.bytes with
  | some (kind, d) => if kind = envelopeHandshake then some d else none
  | none => none

def bodies (fs : List Frame) : List Bytes := fs.filterMap Frame.body

@[simp] theorem bodies_nil : bodies [] = [] := rfl

@[simp] theorem bodies_append (fs gs : List Frame) : bodies (fs ++ gs) = bodies fs ++ bodies gs :=
  List.filterMap_append

theorem bodies_cons_some {f : Frame} {d : Bytes} (h : f.body = some d) (fs : List Frame) :
    bodies (f :: fs) = d :: bodies fs := List.filterMap_cons_some h

theorem bodies_cons_none {f : Frame} (h : f.body = none) (fs : List Frame) :
    bodies (f :: fs) = bodies fs := List.filterMap_cons_none h

theorem mem_bodies {f : Frame} {fs : List Frame} {d : Bytes} (hf : f ∈ fs) (h : f.body = some d) :
    d ∈ bodies fs := List.mem_filterMap.2 ⟨f, hf, h⟩

/-- A handshake message under its tag. -/
def hsFrame (tag : Tag) (d : Bytes) : Frame := ⟨tag, encodeEnvelope envelopeHandshake d⟩

@[simp] theorem hsFrame_body (tag : Tag) (d : Bytes) : (hsFrame tag d).body = some d := by
  simp [Frame.body, hsFrame]

/-- What `a` sends in its first `k` sessions. -/
inductive FromA (N : Noise) (P : Parties) (k : ℕ) : Tag → Bytes → Prop
  | msg1 {j : ℕ} {d : Bytes} {hs : N.Hs} (hj : j < k)
      (h : N.initiator P.a (P.rand j) = some (d, hs)) : FromA N P k .msg1 d
  | msg2 {rand data d : Bytes} {hs : N.Hs} (h : N.responder P.a rand data = some (d, hs)) :
      FromA N P k .msg2 d
  | msg3 {j : ℕ} {m1 m2 d : Bytes} {hi hs hs' : N.Hs} {r split : Option (N.Key × N.Key)}
      (h : N.initiator P.a (P.rand j) = some (m1, hi)) (hr : N.readMessage hi m2 = .ok (hs, r))
      (hw : N.writeMessage hs = .ok (d, hs', split)) : FromA N P k .msg3 d

theorem FromA.mono {P : Parties} {k k' : ℕ} {tag : Tag} {d : Bytes} (h : FromA N P k tag d)
    (hk : k ≤ k') : FromA N P k' tag d := by
  cases h with
  | msg1 hj h => exact .msg1 (by omega) h
  | msg2 h => exact .msg2 h
  | msg3 h hr hw => exact .msg3 h hr hw

/-- The `msg1` of a new session is unlike everything sent before. -/
theorem FromA.ne {pub : Bytes → Bytes} (hN : N.XX pub) {P : Parties}
    (hfresh : N.Fresh P.a P.rand) {k : ℕ} {tag : Tag} {d m : Bytes} {hs : N.Hs}
    (h : FromA N P k tag d) (hm : N.initiator P.a (P.rand k) = some (m, hs)) : d ≠ m := by
  rintro rfl
  cases h with
  | @msg1 j _ _ hj h =>
    have := hfresh h hm
    omega
  | msg2 h => exact hN.msg1_ne_msg2 hm h rfl
  | msg3 h hr hw => exact hN.msg1_ne_msg3 hm h hr hw rfl

/-- The send key of each session is the receive key of the other. -/
def Matched (s s' : NoiseSession N) : Prop :=
  s.sendCS.map CipherState.key = s'.recvCS.map CipherState.key
    ∧ s.recvCS.map CipherState.key = s'.sendCS.map CipherState.key

instance [DecidableEq N.Key] (s s' : NoiseSession N) : Decidable (Matched s s') :=
  inferInstanceAs (Decidable (_ ∧ _))

/-- `s'` is `s` with other counters. -/
structure SameKeys (s s' : NoiseSession N) : Prop where
  send : s'.sendCS.map CipherState.key = s.sendCS.map CipherState.key
  recv : s'.recvCS.map CipherState.key = s.recvCS.map CipherState.key

theorem SameKeys.refl (s : NoiseSession N) : SameKeys s s := ⟨rfl, rfl⟩

/-- `a` has its new session, and its `msg3` is the next handshake message `b` will read, in the
session that is waiting for it. -/
structure Promoted (pub : Bytes → Bytes) (P : Parties) (actA : NoiseSession N)
    (pendB : Option (NoiseSession N)) (toB pre : List Frame) (f : Frame) (post : List Frame)
    (keys : N.Key × N.Key) : Prop where
  split : toB = pre ++ f :: post
  first : bodies pre = []
  other : ∀ g ∈ pre ++ post, g.tag ≠ .msg3
  tag : f.tag = .msg3
  reads : ∃ m3 p hs, f.body = some m3 ∧ pendB = some p
    ∧ N.readMessage p.hs m3 = .ok (hs, some keys) ∧ N.peerStatic hs = pub P.a
  send : actA.sendCS.map CipherState.key = some keys.1
  recv : actA.recvCS.map CipherState.key = some keys.2

namespace Promoted

variable {pub : Bytes → Bytes} {P : Parties} {actA : NoiseSession N}
  {pendB : Option (NoiseSession N)} {toB pre post : List Frame} {f g : Frame} {keys : N.Key × N.Key}

theorem push (h : Promoted pub P actA pendB toB pre f post keys) (hg : g.tag ≠ .msg3) :
    Promoted pub P actA pendB (toB ++ [g]) pre f (post ++ [g]) keys :=
  { h with
    split := by rw [h.split]; simp
    other := by
      intro g' hg'
      rw [← List.append_assoc] at hg'
      rcases List.mem_append.1 hg' with hg' | hg'
      · exact h.other g' hg'
      · rw [List.mem_singleton.1 hg']
        exact hg }

theorem pop (h : Promoted pub P actA pendB (g :: toB) pre f post keys) (hg : g.body = none) :
    ∃ pre', pre = g :: pre' ∧ Promoted pub P actA pendB toB pre' f post keys := by
  rcases pre with _ | ⟨g', pre⟩
  · obtain ⟨m3, p, hs, hbody, -⟩ := h.reads
    obtain ⟨rfl, -⟩ := List.cons.inj h.split
    rw [hg] at hbody
    cases hbody
  · obtain ⟨rfl, hrest⟩ := List.cons.inj h.split
    exact ⟨pre, rfl, { h with
      split := hrest
      first := by rw [← bodies_cons_none hg, h.first]
      other := fun g' hg' => h.other g' (List.mem_cons_of_mem _ hg') }⟩

theorem sameKeys (h : Promoted pub P actA pendB toB pre f post keys) {actA' : NoiseSession N}
    (hA : SameKeys actA actA') : Promoted pub P actA' pendB toB pre f post keys :=
  { h with
    send := by rw [hA.send]; exact h.send
    recv := by rw [hA.recv]; exact h.recv }

end Promoted

/-- The sessions in the slots of both ends and the frames between them, `a` being in its `k`-th
session. -/
structure Agree (pub : Bytes → Bytes) (P : Parties) (k : ℕ) (actA : NoiseSession N)
    (pendA : Option (NoiseSession N)) (actB : NoiseSession N) (pendB : Option (NoiseSession N))
    (toA toB : List Frame) : Prop where
  fromA : ∀ f ∈ toB, ∀ d, f.body = some d → FromA N P k f.tag d
  fromB : ∀ d2 ∈ bodies toA, ∃ rand d hs tag, N.responder P.b rand d = some (d2, hs)
    ∧ FromA N P k tag d
  asking : ∀ p ∈ pendA, p.initiator = true → ∃ j m, N.initiator P.a (P.rand j) = some (m, p.hs)
    ∧ (m ∈ bodies toB → ∃ l, bodies toB = l ++ [m] ∧ m ∉ l)
    ∧ ∀ d2 ∈ bodies toA, ∀ x, N.readMessage p.hs d2 = .ok x → bodies toB = []
      ∧ ∃ q rand, pendB = some q ∧ N.responder P.b rand m = some (d2, q.hs)
  answeringA : ∀ p ∈ pendA, p.initiator = false →
    ∃ rand d m2, N.responder P.a rand d = some (m2, p.hs)
  answeringB : ∀ p ∈ pendB, p.initiator = false
    ∧ ∃ rand d m2, N.responder P.b rand d = some (m2, p.hs)
  agree : (Matched actA actB ∧ ∀ f ∈ toB, f.tag ≠ .msg3)
    ∨ ∃ pre f post keys, Promoted pub P actA pendB toB pre f post keys

namespace Agree

variable {pub : Bytes → Bytes} {P : Parties} {k k' : ℕ} {actA actB : NoiseSession N}
  {pendA pendB : Option (NoiseSession N)} {toA toB : List Frame}

/-- The frames in flight to `b` may grow by one that is not a `msg3`. -/
theorem agree_push (h : (Matched actA actB ∧ ∀ f ∈ toB, f.tag ≠ .msg3)
      ∨ ∃ pre f post keys, Promoted pub P actA pendB toB pre f post keys)
    {g : Frame} (hg : g.tag ≠ .msg3) :
    (Matched actA actB ∧ ∀ f ∈ toB ++ [g], f.tag ≠ .msg3)
      ∨ ∃ pre f post keys, Promoted pub P actA pendB (toB ++ [g]) pre f post keys := by
  rcases h with ⟨hm, htag⟩ | ⟨pre, f, post, keys, hp⟩
  · refine Or.inl ⟨hm, fun f hf => ?_⟩
    rcases List.mem_append.1 hf with hf | hf
    · exact htag f hf
    · rw [List.mem_singleton.1 hf]
      exact hg
  · exact Or.inr ⟨pre, f, post ++ [g], keys, hp.push hg⟩

theorem fromA_push (h : Agree pub P k actA pendA actB pendB toA toB) (hk : k ≤ k') {tag : Tag}
    {d : Bytes} (hd : FromA N P k' tag d) :
    ∀ f ∈ toB ++ [hsFrame tag d], ∀ d, f.body = some d → FromA N P k' f.tag d := by
  intro f hf d' hd'
  rcases List.mem_append.1 hf with hf | hf
  · exact (h.fromA f hf d' hd').mono hk
  · rw [List.mem_singleton.1 hf] at hd' ⊢
    rw [hsFrame_body, Option.some.injEq] at hd'
    exact hd' ▸ hd

theorem fromB_mono (h : Agree pub P k actA pendA actB pendB toA toB) (hk : k ≤ k') :
    ∀ d2 ∈ bodies toA, ∃ rand d hs tag, N.responder P.b rand d = some (d2, hs)
      ∧ FromA N P k' tag d := by
  intro d2 hd2
  obtain ⟨rand, d, hs, tag, hr, hfrom⟩ := h.fromB d2 hd2
  exact ⟨rand, d, hs, tag, hr, hfrom.mono hk⟩

theorem mono (h : Agree pub P k actA pendA actB pendB toA toB) (hk : k ≤ k') :
    Agree pub P k' actA pendA actB pendB toA toB :=
  { h with
    fromA := fun f hf d hd => (h.fromA f hf d hd).mono hk
    fromB := h.fromB_mono hk }

/-- `a` starts a rekey, whatever was pending. -/
theorem status (h : Agree pub P k actA pendA actB pendB toA toB) (hN : N.XX pub)
    (hfresh : N.Fresh P.a P.rand) (hk : k < k') {m : Bytes} {hs : N.Hs}
    (hm : N.initiator P.a (P.rand k) = some (m, hs)) :
    Agree pub P k' actA (some { initiator := true, hs }) actB pendB toA
      (toB ++ [hsFrame .msg1 m]) where
  fromA := h.fromA_push (Nat.le_of_lt hk) (.msg1 hk hm)
  fromB := h.fromB_mono (Nat.le_of_lt hk)
  asking := by
    rintro p ⟨⟩ -
    refine ⟨k, m, hm, fun _ => ⟨bodies toB, by simp [bodies], fun hmem => ?_⟩, fun d2 hd2 x hx => ?_⟩
    · obtain ⟨f, hf, hbody⟩ := List.mem_filterMap.1 hmem
      exact (h.fromA f hf m hbody).ne hN hfresh hm rfl
    · obtain ⟨rand, d, hr, tag, hresp, hfrom⟩ := h.fromB d2 hd2
      exact absurd (hN.msg2_binds hm hresp hx) (hfrom.ne hN hfresh hm)
  answeringA := by
    rintro p ⟨⟩ hi
    cases hi
  answeringB := h.answeringB
  agree := agree_push h.agree nofun

/-- Counters move. -/
theorem keys (h : Agree pub P k actA pendA actB pendB toA toB) {actA' actB' : NoiseSession N}
    (hA : SameKeys actA actA') (hB : SameKeys actB actB') :
    Agree pub P k actA' pendA actB' pendB toA toB :=
  { h with
    agree := by
      rcases h.agree with ⟨hm, htag⟩ | ⟨pre, f, post, keys, hp⟩
      · refine Or.inl ⟨⟨?_, ?_⟩, htag⟩
        · rw [hA.send, hB.recv]
          exact hm.1
        · rw [hA.recv, hB.send]
          exact hm.2
      · exact Or.inr ⟨pre, f, post, keys, hp.sameKeys hA⟩ }

/-- Frames to `a` that carry no handshake message come and go. -/
theorem bodiesA (h : Agree pub P k actA pendA actB pendB toA toB) {toA' : List Frame}
    (hA : bodies toA' = bodies toA) : Agree pub P k actA pendA actB pendB toA' toB :=
  { h with
    fromB := by rw [hA]; exact h.fromB
    asking := by rw [hA]; exact h.asking }

theorem pushB (h : Agree pub P k actA pendA actB pendB toA toB) {f : Frame} (hf : f.body = none)
    (htag : f.tag ≠ .msg3) : Agree pub P k actA pendA actB pendB toA (toB ++ [f]) :=
  { h with
    fromA := by
      intro g hg d hd
      rcases List.mem_append.1 hg with hg | hg
      · exact h.fromA g hg d hd
      · rw [List.mem_singleton.1 hg, hf] at hd
        cases hd
    asking := by
      rw [bodies_append, bodies_cons_none hf, bodies_nil, List.append_nil]
      exact h.asking
    agree := agree_push h.agree htag }

theorem popB {f : Frame} (h : Agree pub P k actA pendA actB pendB toA (f :: toB))
    (hf : f.body = none) : Agree pub P k actA pendA actB pendB toA toB :=
  { h with
    fromA := fun g hg => h.fromA g (List.mem_cons_of_mem _ hg)
    asking := by
      have := h.asking
      rwa [bodies_cons_none hf] at this
    agree := by
      rcases h.agree with ⟨hm, htag⟩ | ⟨pre, f', post, keys, hp⟩
      · exact Or.inl ⟨hm, fun g hg => htag g (List.mem_cons_of_mem _ hg)⟩
      · obtain ⟨pre', -, hp'⟩ := hp.pop hf
        exact Or.inr ⟨pre', f', post, keys, hp'⟩ }

/-- `a` is done with what was pending: nothing is asked any more. -/
theorem clearA (h : Agree pub P k actA pendA actB pendB toA toB) {toA' : List Frame}
    (hA : ∀ d ∈ bodies toA', d ∈ bodies toA) :
    Agree pub P k actA none actB pendB toA' toB :=
  { h with
    fromB := fun d hd => h.fromB d (hA d hd)
    asking := by simp
    answeringA := by simp }

/-- A responder on `a` refuses what `b` sends. -/
theorem refusesA {d : Bytes} (h : Agree pub P k actA pendA actB pendB toA toB) (hN : N.XX pub)
    (hd : d ∈ bodies toA) {p : NoiseSession N} (hp : p ∈ pendA) (hi : p.initiator = false) :
    ∃ e, N.readMessage p.hs d = .error e := by
  obtain ⟨rand, d', m2, hresp⟩ := h.answeringA p hp hi
  obtain ⟨rand', d'', hs', tag, hresp', -⟩ := h.fromB d hd
  exact hN.refuses_msg2 hresp hresp'

/-- What `a` can read as `msg2` answers its `msg1`, and `b` is waiting for the `msg3`. -/
theorem completesA {d m3 : Bytes} {hs hs' : N.Hs} {r cs : Option (N.Key × N.Key)}
    {p actA' : NoiseSession N} (h : Agree pub P k actA pendA actB pendB toA toB) (hN : N.XX pub)
    (hd : d ∈ bodies toA) (hp : p ∈ pendA) (hi : p.initiator = true)
    (hr : N.readMessage p.hs d = .ok (hs, r)) (hw : N.writeMessage hs = .ok (m3, hs', cs))
    (hact : if N.peerStatic hs' = pub P.b then
      actA' = { p with hs := hs' }.finishLocked (cs1 cs) (cs2 cs) else actA' = actA) :
    ∃ keys : N.Key × N.Key, actA'.sendCS = some { key := keys.1 }
      ∧ actA'.recvCS = some { key := keys.2 }
      ∧ Promoted pub P actA' pendB (toB ++ [hsFrame .msg3 m3]) toB (hsFrame .msg3 m3) [] keys := by
  obtain ⟨j, m, hinit, -, hacc⟩ := h.asking p hp hi
  obtain ⟨hempty, q, rand, rfl, hresp⟩ := hacc d hd _ hr
  obtain ⟨hstatic, hsome, hs'', hread, hstatic'⟩ := hN.msg3_completes hinit hresp hr hw
  obtain ⟨keys, rfl⟩ := Option.isSome_iff_exists.1 hsome
  rw [if_pos hstatic] at hact
  subst hact
  refine ⟨keys, rfl, rfl, rfl, hempty, ?_, rfl,
    ⟨m3, q, hs'', hsFrame_body .., rfl, hread, hstatic'⟩, rfl, rfl⟩
  rcases h.agree with ⟨-, htags⟩ | ⟨pre, g, post, keys, hp⟩
  · simpa using htags
  · obtain ⟨m3, p, hs, hbody, -⟩ := hp.reads
    have hmem : m3 ∈ bodies toB := mem_bodies (by rw [hp.split]; simp) hbody
    simp [hempty] at hmem

/-- The frame `a` replies with, given what was pending. -/
def replyFrames (pend : Option (NoiseSession N)) (reply : Option Bytes) : List Frame :=
  (reply.map (hsFrame (if pend.any NoiseSession.initiator then .msg3 else .msg2))).toList

/-- `a` handles a handshake message: an answer to its `msg1` if it can be read. -/
theorem turnA {f : Frame} {d : Bytes} {actA' : NoiseSession N} {pendA' : Option (NoiseSession N)}
    {reply : Option Bytes} (h : Agree pub P k actA pendA actB pendB (f :: toA) toB)
    (hN : N.XX pub) (hf : f.body = some d)
    (ht : Turn P.a (pub P.b) actA d pendA actA' pendA' reply) (hk : k ≤ k') :
    Agree pub P k' actA' pendA' actB pendB toA (toB ++ replyFrames pendA reply) := by
  have hsub : ∀ d' ∈ bodies toA, d' ∈ bodies (f :: toA) := by
    intro d' hd'
    rw [bodies_cons_some hf]
    exact List.mem_cons_of_mem _ hd'
  have hhead : d ∈ bodies (f :: toA) := by simp [bodies_cons_some hf]
  have hclear : Agree pub P k' actA none actB pendB toA toB := (h.clearA hsub).mono hk
  cases ht with
  | ignored => simpa [replyFrames] using hclear
  | refused p => simpa [replyFrames] using hclear
  | answered rand m2 hs hr =>
    refine { hclear with
      fromA := hclear.fromA_push (Nat.le_refl _) (.msg2 hr)
      asking := ?_
      answeringA := ?_
      agree := agree_push hclear.agree nofun }
    · rintro p ⟨⟩ hi
      cases hi
    · rintro p ⟨⟩ -
      exact ⟨rand, d, m2, hr⟩
  | responded p hs cs hi hr =>
    obtain ⟨e, he⟩ := h.refusesA hN hhead rfl hi
    rw [hr] at he
    cases he
  | initiated p hs hs' m3 split cs hi hr hw _ hact =>
    obtain ⟨j, m, hinit, -⟩ := h.asking p rfl hi
    obtain ⟨keys, -, -, hp⟩ := h.completesA hN hhead rfl hi hr hw hact
    have hreply : replyFrames (some p) (some m3) = [hsFrame .msg3 m3] := by simp [replyFrames, hi]
    rw [hreply]
    exact { hclear with
      fromA := hclear.fromA_push (Nat.le_refl _) (.msg3 hinit hr hw)
      asking := by simp
      agree := Or.inr ⟨_, _, _, keys, hp⟩ }

/-- Once `b` has taken the handshake message `d`, a `msg1` still in flight is the last one. -/
theorem asked_rest {l : List Bytes} {d m : Bytes}
    (h : m ∈ d :: l → ∃ l', d :: l = l' ++ [m] ∧ m ∉ l') (hm : m ∈ l) :
    ∃ l', l = l' ++ [m] ∧ m ∉ l' := by
  obtain ⟨_ | ⟨d', l'⟩, heq, hnot⟩ := h (List.mem_cons_of_mem _ hm)
  · obtain ⟨-, rfl⟩ := List.cons.inj heq
    cases hm
  · obtain ⟨rfl, rfl⟩ := List.cons.inj heq
    exact ⟨l', rfl, fun hmem => hnot (List.mem_cons_of_mem _ hmem)⟩

theorem asked_self {l : List Bytes} {m : Bytes}
    (h : m ∈ m :: l → ∃ l', m :: l = l' ++ [m] ∧ m ∉ l') : l = [] := by
  obtain ⟨_ | ⟨d', l'⟩, heq, hnot⟩ := h (List.mem_cons_self ..)
  · exact (List.cons.inj heq).2
  · obtain ⟨rfl, -⟩ := List.cons.inj heq
    exact absurd (List.mem_cons_self ..) hnot

/-- What `b` reads before its answer: the frames to `a` were not made for the session pending
there. -/
theorem asking_rest {f : Frame} {d : Bytes} (h : Agree pub P k actA pendA actB pendB toA (f :: toB))
    (hf : f.body = some d) {p : NoiseSession N} (hp : p ∈ pendA) (hi : p.initiator = true) :
    ∃ j m, N.initiator P.a (P.rand j) = some (m, p.hs)
      ∧ (m ∈ bodies toB → ∃ l, bodies toB = l ++ [m] ∧ m ∉ l) ∧ (d = m → bodies toB = [])
      ∧ ∀ d2 ∈ bodies toA, ∀ x, N.readMessage p.hs d2 ≠ .ok x := by
  obtain ⟨j, m, hinit, hasked, hacc⟩ := h.asking p hp hi
  rw [bodies_cons_some hf] at hasked hacc
  refine ⟨j, m, hinit, asked_rest hasked, ?_, fun d2 hd2 x hx => ?_⟩
  · rintro rfl
    exact asked_self hasked
  · obtain ⟨hempty, -⟩ := hacc d2 hd2 x hx
    cases hempty

/-- `b` refuses what is not the `msg3` it waits for. -/
theorem refusesB {f : Frame} {d : Bytes} (h : Agree pub P k actA pendA actB pendB toA (f :: toB))
    (hN : N.XX pub) (hf : f.body = some d) (htag : f.tag ≠ .msg3) {p : NoiseSession N}
    (hp : p ∈ pendB) : ∃ e, N.readMessage p.hs d = .error e := by
  obtain ⟨-, rand, d', m2, hresp⟩ := h.answeringB p hp
  have hfrom := h.fromA f (List.mem_cons_self ..) d hf
  revert htag
  generalize f.tag = tag at hfrom
  intro htag
  cases hfrom with
  | msg1 _ hinit => exact hN.refuses_msg1 hinit hresp
  | msg2 hresp' => exact hN.refuses_msg2 hresp hresp'
  | msg3 => exact absurd rfl htag

/-- Without a `msg3` in flight `b` keeps its session. -/
theorem turnB_calm {f : Frame} {d : Bytes} {actB' : NoiseSession N}
    {pendB' : Option (NoiseSession N)} {reply : Option Bytes}
    (h : Agree pub P k actA pendA actB pendB toA (f :: toB)) (hN : N.XX pub) (hf : f.body = some d)
    (htag : f.tag ≠ .msg3) (ht : Turn P.b (pub P.a) actB d pendB actB' pendB' reply) :
    actB' = actB := by
  have href : ∀ p ∈ pendB, ∃ e, N.readMessage p.hs d = .error e :=
    fun p hp => h.refusesB hN hf htag hp
  cases ht with
  | ignored | answered | refused => rfl
  | initiated p _ _ _ _ _ _ hr | responded p _ _ _ hr =>
    obtain ⟨e, he⟩ := href p rfl
    rw [hr] at he
    cases he

/-- The `msg3` in flight is the next handshake message `b` takes, and completes its session. -/
theorem turnB_promoted {f : Frame} {d : Bytes} {actB' : NoiseSession N}
    {pendB' : Option (NoiseSession N)} {reply : Option Bytes} {pre post : List Frame} {g : Frame}
    {keys : N.Key × N.Key} (h : Agree pub P k actA pendA actB pendB toA (f :: toB))
    (hf : f.body = some d) (hp : Promoted pub P actA pendB (f :: toB) pre g post keys)
    (ht : Turn P.b (pub P.a) actB d pendB actB' pendB' reply) :
    pre = [] ∧ post = toB ∧ reply = none ∧ actB'.sendCS = some { key := keys.2 }
      ∧ actB'.recvCS = some { key := keys.1 } := by
  rcases pre with _ | ⟨f', pre⟩
  swap
  · obtain ⟨rfl, -⟩ := List.cons.inj hp.split
    have hfirst := hp.first
    rw [bodies_cons_some hf] at hfirst
    cases hfirst
  obtain ⟨rfl, rfl⟩ := List.cons.inj hp.split
  obtain ⟨m3, p, hs, hbody, rfl, hread, hstatic⟩ := hp.reads
  obtain rfl : d = m3 := by simpa [hf] using hbody
  have hi := (h.answeringB p rfl).1
  cases ht with
  | refused _ hr =>
    obtain ⟨e, he⟩ := hr hi
    rw [hread] at he
    cases he
  | initiated _ _ _ _ _ _ hi' =>
    rw [hi] at hi'
    cases hi'
  | responded _ hs' cs _ hr _ hact =>
    rw [hread] at hr
    cases hr
    rw [if_pos hstatic] at hact
    subst hact
    exact ⟨rfl, rfl, rfl, rfl, rfl⟩

/-- After `b` has taken a handshake message the ends agree. -/
theorem agree_turnB {f : Frame} {d : Bytes} {actB' : NoiseSession N}
    {pendB' : Option (NoiseSession N)} {reply : Option Bytes}
    (h : Agree pub P k actA pendA actB pendB toA (f :: toB)) (hN : N.XX pub) (hf : f.body = some d)
    (ht : Turn P.b (pub P.a) actB d pendB actB' pendB' reply) :
    Matched actA actB' ∧ ∀ g ∈ toB, g.tag ≠ .msg3 := by
  rcases h.agree with ⟨hm, htag⟩ | ⟨pre, g, post, keys, hp⟩
  · rw [h.turnB_calm hN hf (htag f (List.mem_cons_self ..)) ht]
    exact ⟨hm, fun g hg => htag g (List.mem_cons_of_mem _ hg)⟩
  · obtain ⟨rfl, rfl, -, hsend, hrecv⟩ := h.turnB_promoted hf hp ht
    refine ⟨⟨by rw [hp.send, hrecv]; rfl, by rw [hp.recv, hsend]; rfl⟩, fun g hg => hp.other g ?_⟩
    simpa using hg

theorem turnB {f : Frame} {d : Bytes} {actB' : NoiseSession N} {pendB' : Option (NoiseSession N)}
    {reply : Option Bytes} (h : Agree pub P k actA pendA actB pendB toA (f :: toB))
    (hN : N.XX pub) (hf : f.body = some d)
    (ht : Turn P.b (pub P.a) actB d pendB actB' pendB' reply) :
    Agree pub P k actA pendA actB' pendB' (toA ++ replyFrames pendB reply) toB := by
  have hagree := h.agree_turnB hN hf ht
  have hfromA : ∀ g ∈ toB, ∀ d, g.body = some d → FromA N P k g.tag d :=
    fun g hg => h.fromA g (List.mem_cons_of_mem _ hg)
  have hidle : ∀ (pend : Option (NoiseSession N)), pend = none →
      Agree pub P k actA pendA actB' pend toA toB := by
    rintro _ rfl
    refine ⟨hfromA, h.fromB, fun p hp hi => ?_, h.answeringA, by simp, Or.inl hagree⟩
    obtain ⟨j, m, hinit, hrest, -, hnot⟩ := h.asking_rest hf hp hi
    exact ⟨j, m, hinit, hrest, fun d2 hd2 x hx => absurd hx (hnot d2 hd2 x)⟩
  cases ht with
  | ignored => simpa [replyFrames] using hidle none rfl
  | refused => simpa [replyFrames] using hidle none rfl
  | responded => simpa [replyFrames] using hidle none rfl
  | initiated p _ _ _ _ _ hi =>
    rw [(h.answeringB p rfl).1] at hi
    cases hi
  | answered rand m2 hs hr =>
    have hbodies : bodies (toA ++ replyFrames (none : Option (NoiseSession N)) (some m2))
        = bodies toA ++ [m2] := by simp [replyFrames, bodies_cons_some (hsFrame_body ..)]
    refine ⟨hfromA, ?_, fun p hp hi => ?_, h.answeringA, ?_, Or.inl hagree⟩
    · rw [hbodies]
      intro d2 hd2
      rcases List.mem_append.1 hd2 with hd2 | hd2
      · exact h.fromB d2 hd2
      · rw [List.mem_singleton.1 hd2]
        exact ⟨rand, d, hs, _, hr, h.fromA f (List.mem_cons_self ..) d hf⟩
    · obtain ⟨j, m, hinit, hrest, hself, hnot⟩ := h.asking_rest hf hp hi
      refine ⟨j, m, hinit, hrest, fun d2 hd2 x hx => ?_⟩
      rw [hbodies] at hd2
      rcases List.mem_append.1 hd2 with hd2 | hd2
      · exact absurd hx (hnot d2 hd2 x)
      · rw [List.mem_singleton.1 hd2] at hx ⊢
        obtain rfl := hN.msg2_binds hinit hr hx
        exact ⟨hself rfl, _, rand, rfl, hr⟩
    · rintro p ⟨⟩
      exact ⟨rfl, rand, d, m2, hr⟩

/-- Frames are lost, but no `msg3`. -/
theorem keep (h : Agree pub P k actA pendA actB pendB toA toB) {toA' toB' : List Frame}
    (hA : toA'.Sublist toA) (hB : toB'.Sublist toB)
    (hmsg3 : toB'.filter (fun f => f.tag = .msg3) = toB.filter fun f => f.tag = .msg3) :
    Agree pub P k actA pendA actB pendB toA' toB' where
  fromA f hf := h.fromA f (hB.subset hf)
  fromB d hd := h.fromB d ((hA.filterMap _).subset hd)
  asking p hp hi := by
    obtain ⟨j, m, hinit, hasked, hacc⟩ := h.asking p hp hi
    have hbodies : (bodies toB').Sublist (bodies toB) := hB.filterMap _
    refine ⟨j, m, hinit, fun hm => ?_, fun d2 hd2 x hx => ?_⟩
    · obtain ⟨l, hl, hnot⟩ := hasked (hbodies.subset hm)
      rw [hl, List.sublist_append_iff] at hbodies
      obtain ⟨l₁, l₂, heq, h₁, h₂⟩ := hbodies
      rcases List.sublist_cons_iff.1 h₂ with hnil | ⟨r, rfl, hnil⟩
      · rw [heq, List.sublist_nil.1 hnil, List.append_nil] at hm
        exact absurd (h₁.subset hm) hnot
      · rw [List.sublist_nil.1 hnil] at heq
        exact ⟨l₁, heq, fun hmem => hnot (h₁.subset hmem)⟩
    · obtain ⟨hempty, hq⟩ := hacc d2 ((hA.filterMap _).subset hd2) x hx
      rw [hempty] at hbodies
      exact ⟨List.sublist_nil.1 hbodies, hq⟩
  answeringA := h.answeringA
  answeringB := h.answeringB
  agree := by
    rcases h.agree with ⟨hm, htag⟩ | ⟨pre, f, post, keys, hp⟩
    · exact Or.inl ⟨hm, fun f hf => htag f (hB.subset hf)⟩
    · have hsub := hB
      rw [hp.split, List.sublist_append_iff] at hsub
      obtain ⟨l₁, l₂, rfl, h₁, h₂⟩ := hsub
      rcases List.sublist_cons_iff.1 h₂ with hpost | ⟨r, rfl, hpost⟩
      · have hf : f ∈ (l₁ ++ l₂).filter fun f => f.tag = .msg3 := by
          rw [hmsg3, hp.split]
          simp [hp.tag]
        obtain ⟨hf, -⟩ := List.mem_filter.1 hf
        exact absurd hp.tag (hp.other f ((h₁.append hpost).subset hf))
      · refine Or.inr ⟨l₁, f, r, keys, { hp with
          split := rfl
          first := ?_
          other := fun g hg => hp.other g ((h₁.append hpost).subset hg) }⟩
        have := h₁.filterMap Frame.body
        exact List.sublist_nil.1 (hp.first ▸ this)

end Agree

end Relayly.Go
