import Relayly.Proofs.GoReconnect

/-!
# Delivery across a rekey

Between two sessions that are in step, the frames in flight are what the receiver opens next. `a`
changes over when it writes `msg3`, and what it sends from then on comes after the `msg3` that makes
`b` change over. In the other direction nothing marks the change: what `b` sends between its `msg2`
and the `msg3` reaches `a` after the change, under the old key.
-/

namespace Relayly.Go

variable {N : Noise} {pub : Bytes → Bytes} {P : Parties}

/-- The payload a transport frame was made of. -/
def Frame.payload (f : Frame) : Option Bytes :=
  match f.tag with
  | .transport payload => some payload
  | _ => none

def payloads (fs : List Frame) : List Bytes := fs.filterMap Frame.payload

/-- A receiver at `rx` can open the payloads among the frames, and is then where the sender is. -/
def Stream (rx tx : CipherState N) : List Frame → Prop
  | [] => rx = tx
  | f :: fs =>
    match f.payload with
    | some payload => rx.exhausted = false ∧ f = transportFrame rx payload
      ∧ Stream { rx with n := rx.n + 1 } tx fs
    | none => f.body.isSome ∧ Stream rx tx fs

theorem Stream.cons_body {rx tx : CipherState N} {f : Frame} {fs : List Frame} {d : Bytes}
    (h : Stream rx tx (f :: fs)) (hf : f.body = some d) : Stream rx tx fs ∧ f.payload = none := by
  rcases hp : f.payload with _ | payload <;> simp only [Stream, hp] at h
  · exact ⟨h.2, rfl⟩
  · rw [h.2.1, transportFrame_body] at hf
    cases hf

theorem Stream.cons_plain {rx tx : CipherState N} {f : Frame} {fs : List Frame}
    (h : Stream rx tx (f :: fs)) (hf : f.body = none) : ∃ payload, f = transportFrame rx payload
      ∧ rx.exhausted = false ∧ Stream { rx with n := rx.n + 1 } tx fs := by
  rcases hp : f.payload with _ | payload <;> simp only [Stream, hp] at h
  · rw [hf] at h
    cases h.1
  · exact ⟨payload, h.2.1, h.1, h.2.2⟩

theorem Stream.append_handshake {tx : CipherState N} {g : Frame} (hg : g.payload = none)
    (hb : g.body.isSome) : ∀ {fs : List Frame} {rx : CipherState N}, Stream rx tx fs →
      Stream rx tx (fs ++ [g])
  | [], rx, h => by simpa [Stream, hg, hb] using h
  | f :: fs, rx, h => by
    rw [List.cons_append]
    rcases hp : f.payload with _ | payload <;> simp only [Stream, hp] at h ⊢
    · exact ⟨h.1, h.2.append_handshake hg hb⟩
    · exact ⟨h.1, h.2.1, h.2.2.append_handshake hg hb⟩

theorem Stream.append_payload {tx : CipherState N} (hx : tx.exhausted = false) (payload : Bytes) :
    ∀ {fs : List Frame} {rx : CipherState N}, Stream rx tx fs →
      Stream rx { tx with n := tx.n + 1 } (fs ++ [transportFrame tx payload])
  | [], rx, h => by
    simp only [Stream] at h
    subst h
    exact ⟨hx, rfl, rfl⟩
  | f :: fs, rx, h => by
    rw [List.cons_append]
    rcases hp : f.payload with _ | payload' <;> simp only [Stream, hp] at h ⊢
    · exact ⟨h.1, h.2.append_payload hx payload⟩
    · exact ⟨h.1, h.2.1, h.2.2.append_payload hx payload⟩

theorem Stream.append_replies {rx tx : CipherState N} {fs : List Frame} (h : Stream rx tx fs)
    (pend : Option (NoiseSession N)) (reply : Option Bytes) :
    Stream rx tx (fs ++ Agree.replyFrames pend reply) := by
  rcases reply with _ | d
  · simpa [Agree.replyFrames] using h
  · refine h.append_handshake ?_ (by rw [hsFrame_body]; rfl)
    split <;> rfl

/-- A receiver that is in step opens the next frame. -/
theorem Stream.received {rx tx : CipherState N} {f : Frame} {fs : List Frame}
    (h : Stream rx tx (f :: fs)) (hf : f.body = none) (hN : N.Opens) {act act' : NoiseSession N}
    {msgs : List Bytes} (hst : act.status = .ready) (hcs : act.recvCS = some rx)
    (hr : Endpoint.Received f act act' msgs) :
    msgs = payloads [f] ∧ act' = { act with recvCS := some { rx with n := rx.n + 1 } }
      ∧ Stream { rx with n := rx.n + 1 } tx fs := by
  obtain ⟨payload, rfl, hx, hrest⟩ := h.cons_plain hf
  have hopen := CipherState.decrypt_aeadEncrypt hN hx payload
  have hdec : decodeEnvelope (transportFrame rx payload).bytes
      = some (envelopeTransport, N.aeadEncrypt rx.key rx.n payload) := rfl
  cases hr with
  | dropped herr =>
    obtain ⟨e, he⟩ := herr _ hdec
    simp [NoiseSession.decrypt, hst, hcs, hopen] at he
  | opened ct pt cs hct hcs' hd =>
    rw [hdec] at hct
    cases hct
    obtain rfl : rx = cs := by simpa [hcs] using hcs'
    rw [hopen] at hd
    cases hd
    exact ⟨rfl, rfl, hrest⟩

@[simp] theorem payloads_append (fs gs : List Frame) :
    payloads (fs ++ gs) = payloads fs ++ payloads gs := List.filterMap_append

theorem payloads_cons (f : Frame) (fs : List Frame) :
    payloads (f :: fs) = payloads [f] ++ payloads fs := payloads_append [f] fs

@[simp] theorem payloads_replyFrames (pend : Option (NoiseSession N)) (reply : Option Bytes) :
    payloads (Agree.replyFrames pend reply) = [] := by
  rcases reply with _ | d
  · rfl
  · unfold Agree.replyFrames
    split <;> rfl

/-- The cipher states of a session. -/
def NoiseSession.Ends (s : NoiseSession N) (tx rx : CipherState N) : Prop :=
  s.sendCS = some tx ∧ s.recvCS = some rx

namespace Link

/-- The sessions of both ends and the payloads between them. While a `msg3` is in flight, the
payloads before it are for the old session of `b`, those after it for the new one, and there are
none to `a`. -/
inductive Flow (pub : Bytes → Bytes) (P : Parties) (s : Link N) : Prop
  | calm {txA rxA txB rxB : CipherState N} (hA : s.actA.Ends txA rxA) (hB : s.actB.Ends txB rxB)
      (htag : ∀ f ∈ s.toB, f.tag ≠ .msg3) (toB : Stream rxB txA s.toB) (toA : Stream rxA txB s.toA)
  | promoted {txA rxB tx : CipherState N} {pre post : List Frame} {f : Frame}
      {keys : N.Key × N.Key} (hp : Promoted pub P s.actA s.pendB s.toB pre f post keys)
      (hA : s.actA.Ends txA { key := keys.2 }) (hB : s.actB.recvCS = some rxB)
      (before : Stream rxB tx pre) (after : Stream { key := keys.1 } txA post) (toA : s.toA = [])

structure InStep (pub : Bytes → Bytes) (P : Parties) (s : Link N) : Prop where
  flow : s.Flow pub P
  last : ∀ p ∈ s.pendA, p.initiator = true → ∀ pre f post d x, s.toA = pre ++ f :: post →
    f.body = some d → N.readMessage p.hs d = .ok x → post = []
  sentA : s.sentA = s.gotB ++ payloads s.toB
  sentB : s.sentB = s.gotA ++ payloads s.toA

namespace InStep

variable {s : Link N}

theorem last_rest {f : Frame} {rest : List Frame} (h : s.InStep pub P) (hin : s.toA = f :: rest) :
    ∀ p ∈ s.pendA, p.initiator = true → ∀ pre g post d x, rest = pre ++ g :: post →
      g.body = some d → N.readMessage p.hs d = .ok x → post = [] := by
  intro p hp hi pre g post d x hrest
  exact h.last p hp hi (f :: pre) g post d x (by rw [hin, hrest]; rfl)

theorem plainA {f : Frame} {rest : List Frame} {act : NoiseSession N} {msgs : List Bytes} {k : ℕ}
    (h : s.InStep pub P) (hO : N.Opens) (hr : s.actA.status = .ready) (hin : s.toA = f :: rest)
    (hf : f.body = none) (hrec : Endpoint.Received f s.actA act msgs) :
    { s with actA := act, toA := rest, gotA := s.gotA ++ msgs, k }.InStep pub P := by
  cases h.flow with
  | calm hA hB htag toB toA =>
    rw [hin] at toA
    obtain ⟨rfl, rfl, hrest⟩ := toA.received hf hO hr hA.2 hrec
    refine ⟨.calm ⟨hA.1, rfl⟩ hB htag toB hrest, h.last_rest hin, h.sentA, ?_⟩
    rw [List.append_assoc, ← payloads_cons, ← hin]
    exact h.sentB
  | promoted _ _ _ _ _ toA =>
    rw [toA] at hin
    cases hin

theorem plainB {f : Frame} {rest : List Frame} {act : NoiseSession N} {msgs : List Bytes}
    (h : s.InStep pub P) (hO : N.Opens) (hr : s.actB.status = .ready) (hin : s.toB = f :: rest)
    (hf : f.body = none) (hrec : Endpoint.Received f s.actB act msgs) :
    { s with actB := act, toB := rest, gotB := s.gotB ++ msgs }.InStep pub P := by
  have hsent : ∀ m, m = payloads [f] → s.sentA = (s.gotB ++ m) ++ payloads rest := by
    rintro _ rfl
    rw [List.append_assoc, ← payloads_cons, ← hin]
    exact h.sentA
  cases h.flow with
  | calm hA hB htag toB toA =>
    rw [hin] at toB htag
    obtain ⟨hmsgs, rfl, hrest⟩ := toB.received hf hO hr hB.2 hrec
    exact ⟨.calm hA ⟨hB.1, rfl⟩ (fun g hg => htag g (List.mem_cons_of_mem _ hg)) hrest toA, h.last,
      hsent msgs hmsgs, h.sentB⟩
  | promoted hp hA hB before after toA =>
    rw [hin] at hp
    obtain ⟨pre', rfl, hp'⟩ := hp.pop hf
    obtain ⟨hmsgs, rfl, hrest⟩ := before.received hf hO hr hB hrec
    exact ⟨.promoted hp' hA rfl hrest after toA, h.last, hsent msgs hmsgs, h.sentB⟩

theorem turnA {f : Frame} {rest : List Frame} {d : Bytes} {act : NoiseSession N}
    {pend : Option (NoiseSession N)} {reply : Option Bytes} {k : ℕ} (h : s.InStep pub P)
    (ha : s.Agreed pub P) (hN : N.XX pub) (hin : s.toA = f :: rest) (hf : f.body = some d)
    (ht : Turn P.a (pub P.b) s.actA d s.pendA act pend reply) :
    { s with
      actA := act, pendA := pend, toA := rest
      toB := s.toB ++ Agree.replyFrames s.pendA reply, k }.InStep pub P := by
  obtain ⟨txA, rxA, txB, rxB, hA, hB, htag, toB, toA⟩ : ∃ txA rxA txB rxB, s.actA.Ends txA rxA
      ∧ s.actB.Ends txB rxB ∧ (∀ f ∈ s.toB, f.tag ≠ .msg3) ∧ Stream rxB txA s.toB
      ∧ Stream rxA txB s.toA := by
    cases h.flow with
    | calm hA hB htag toB toA => exact ⟨_, _, _, _, hA, hB, htag, toB, toA⟩
    | promoted _ _ _ _ _ toA =>
      rw [toA] at hin
      cases hin
  rw [hin] at toA
  obtain ⟨toA, hpay⟩ := toA.cons_body hf
  have hsentA : s.sentA = s.gotB ++ payloads (s.toB ++ Agree.replyFrames s.pendA reply) := by
    rw [payloads_append, payloads_replyFrames, List.append_nil]
    exact h.sentA
  have hsentB : s.sentB = s.gotA ++ payloads rest := by
    rw [h.sentB, hin, payloads, List.filterMap_cons_none hpay]
    rfl
  have hhead : d ∈ bodies s.toA := by simp [hin, bodies_cons_some hf]
  have hcalm : ∀ pend' : Option (NoiseSession N), (∀ p ∈ pend', p.initiator = false) →
      (∀ g ∈ Agree.replyFrames s.pendA reply, g.tag ≠ .msg3) →
      { s with
        pendA := pend', toA := rest, toB := s.toB ++ Agree.replyFrames s.pendA reply
        k }.InStep pub P := by
    intro pend' hpend hrep
    refine ⟨.calm hA hB ?_ (toB.append_replies _ _) toA, ?_, hsentA, hsentB⟩
    · intro g hg
      exact (List.mem_append.1 hg).elim (htag g) (hrep g)
    · intro p hp hi
      rw [hpend p hp] at hi
      cases hi
  generalize hpa : s.pendA = pa at ht hcalm hsentA
  cases ht with
  | ignored => exact hcalm none (by simp) (by simp [Agree.replyFrames])
  | refused => exact hcalm none (by simp) (by simp [Agree.replyFrames])
  | answered => exact hcalm _ (by simp) (by simp [Agree.replyFrames, hsFrame])
  | responded p hs cs hi hr =>
    obtain ⟨e, he⟩ := ha.refusesA hN hhead hpa hi
    rw [hr] at he
    cases he
  | initiated p hs hs' m3 split cs hi hr hw _ hact =>
    obtain ⟨keys, hsend, hrecv, hp⟩ := ha.completesA hN hhead hpa hi hr hw hact
    obtain rfl : rest = [] := h.last p hpa hi [] f rest d _ hin hf hr
    have hreply : Agree.replyFrames (some p) (some m3) = [hsFrame .msg3 m3] := by
      simp [Agree.replyFrames, hi]
    rw [hreply] at hsentA ⊢
    exact ⟨.promoted hp ⟨hsend, hrecv⟩ hB.2 toB rfl rfl, by simp, hsentA, hsentB⟩

theorem turnB {f : Frame} {rest : List Frame} {d : Bytes} {act : NoiseSession N}
    {pend : Option (NoiseSession N)} {reply : Option Bytes} (h : s.InStep pub P)
    (ha : s.Agreed pub P) (hN : N.XX pub) (hin : s.toB = f :: rest) (hf : f.body = some d)
    (ht : Turn P.b (pub P.a) s.actB d s.pendB act pend reply) :
    { s with
      actB := act, pendB := pend, toB := rest
      toA := s.toA ++ Agree.replyFrames s.pendB reply }.InStep pub P := by
  have ha' : Agree pub P s.k s.actA s.pendA s.actB s.pendB s.toA (f :: rest) := hin ▸ ha
  have hlast : ∀ p ∈ s.pendA, p.initiator = true → ∀ pre g post d x,
      s.toA ++ Agree.replyFrames s.pendB reply = pre ++ g :: post → g.body = some d →
      N.readMessage p.hs d = .ok x → post = [] := by
    intro p hp hi pre g post d' x hsplit hg hx
    obtain ⟨j, m, hinit, -, -, hnot⟩ := ha'.asking_rest hf hp hi
    by_contra hpost
    refine hnot d' (mem_bodies ?_ hg) x hx
    rcases reply with _ | m2
    · simp only [Agree.replyFrames, Option.map_none, Option.toList_none, List.append_nil] at hsplit
      simp [hsplit]
    · obtain ⟨post', g', rfl⟩ := (List.eq_nil_or_concat post).resolve_left hpost
      rw [List.concat_eq_append, ← List.cons_append, ← List.append_assoc] at hsplit
      obtain ⟨hl, -⟩ := List.append_inj' hsplit (by simp [Agree.replyFrames])
      simp [hl]
  have hsentB : s.sentB = s.gotA ++ payloads (s.toA ++ Agree.replyFrames s.pendB reply) := by
    rw [payloads_append, payloads_replyFrames, List.append_nil]
    exact h.sentB
  have hsentA : f.payload = none → s.sentA = s.gotB ++ payloads rest := by
    intro hpay
    rw [h.sentA, hin, payloads, List.filterMap_cons_none hpay]
    rfl
  cases h.flow with
  | calm hA hB htag toB toA =>
    rw [hin] at toB htag
    obtain ⟨toB, hpay⟩ := toB.cons_body hf
    obtain rfl := ha'.turnB_calm hN hf (htag f (List.mem_cons_self ..)) ht
    exact ⟨.calm hA hB (fun g hg => htag g (List.mem_cons_of_mem _ hg)) toB
      (toA.append_replies _ _), hlast, hsentA hpay, hsentB⟩
  | promoted hp hA hB before after toA =>
    rw [hin] at hp
    obtain ⟨rfl, rfl, rfl, hsend, hrecv⟩ := ha'.turnB_promoted hf hp ht
    have hpay : f.payload = none := by
      obtain ⟨rfl, -⟩ := List.cons.inj hp.split
      simp [Frame.payload, hp.tag]
    refine ⟨.calm hA ⟨hsend, hrecv⟩ (fun g hg => hp.other g (by simpa using hg)) after ?_, hlast,
      hsentA hpay, hsentB⟩
    simp [toA, Agree.replyFrames, Stream]

theorem rekey {m : Bytes} {hs : N.Hs} {k : ℕ} (h : s.InStep pub P)
    (ha : { s with
      pendA := some { initiator := true, hs }, toB := s.toB ++ [hsFrame .msg1 m], k }.Agreed pub P) :
    { s with
      pendA := some { initiator := true, hs }, toB := s.toB ++ [hsFrame .msg1 m], k }.InStep
        pub P := by
  refine ⟨?_, ?_, by rw [payloads_append]; exact h.sentA.trans (List.append_nil _ ▸ rfl), h.sentB⟩
  · cases h.flow with
    | calm hA hB htag toB toA =>
      refine .calm hA hB ?_ (toB.append_handshake rfl (by rw [hsFrame_body]; rfl)) toA
      simpa [or_imp, forall_and, hsFrame] using htag
    | promoted hp hA hB before after toA =>
      exact .promoted (hp.push (by simp [hsFrame])) hA hB before
        (after.append_handshake rfl (by rw [hsFrame_body]; rfl)) toA
  · rintro p hp hi pre f post d x hsplit hf hx
    obtain ⟨j, m', -, -, hacc⟩ := ha.asking p hp hi
    obtain ⟨hempty, -⟩ := hacc d (mem_bodies (hsplit ▸ by simp) hf) x hx
    simp [bodies_cons_some (hsFrame_body ..)] at hempty

theorem sendA {payload : Bytes} {cs : CipherState N} {k : ℕ} (h : s.InStep pub P)
    (hcs : s.actA.sendCS = some cs) (hx : cs.exhausted = false) :
    { s with
      actA := s.actA.sent cs, toB := s.toB ++ [transportFrame cs payload]
      sentA := s.sentA ++ [payload], k }.InStep pub P := by
  refine ⟨?_, h.last, by rw [payloads_append, h.sentA, List.append_assoc]; rfl, h.sentB⟩
  cases h.flow with
  | calm hA hB htag toB toA =>
    obtain rfl : cs = _ := Option.some.inj (hcs.symm.trans hA.1)
    refine .calm ⟨rfl, hA.2⟩ hB ?_ (toB.append_payload hx payload) toA
    simpa [or_imp, forall_and, transportFrame] using htag
  | promoted hp hA hB before after toA =>
    obtain rfl : cs = _ := Option.some.inj (hcs.symm.trans hA.1)
    exact .promoted ((hp.push (g := transportFrame cs payload) (by simp [transportFrame])).sameKeys
      (NoiseSession.sameKeys_sent hcs)) ⟨rfl, hA.2⟩ hB before
      (after.append_payload hx payload) toA

theorem sendB {payload : Bytes} {cs : CipherState N} (h : s.InStep pub P) (ha : s.Agreed pub P)
    (hcs : s.actB.sendCS = some cs) (hx : cs.exhausted = false) (hpend : s.pendB = none) :
    { s with
      actB := s.actB.sent cs, toA := s.toA ++ [transportFrame cs payload]
      sentB := s.sentB ++ [payload] }.InStep pub P := by
  refine ⟨?_, ?_, h.sentA, by rw [payloads_append, h.sentB, List.append_assoc]; rfl⟩
  · cases h.flow with
    | calm hA hB htag toB toA =>
      obtain rfl : cs = _ := Option.some.inj (hcs.symm.trans hB.1)
      exact .calm hA ⟨rfl, hB.2⟩ htag toB (toA.append_payload hx payload)
    | promoted hp =>
      obtain ⟨_, _, _, _, hq, -⟩ := hp.reads
      rw [hpend] at hq
      cases hq
  · intro p hp hi pre f post d x hsplit hf hx'
    obtain ⟨j, m, -, -, hacc⟩ := ha.asking p hp hi
    dsimp only at hsplit
    have hmem : d ∈ bodies (s.toA ++ [transportFrame cs payload]) :=
      mem_bodies (by rw [hsplit]; simp) hf
    rw [bodies_append, bodies_cons_none (transportFrame_body ..), bodies_nil,
      List.append_nil] at hmem
    obtain ⟨-, q, -, hq, -⟩ := hacc d hmem x hx'
    rw [hpend] at hq
    cases hq

end InStep

end Link

/-- A step of two clients that stay connected. -/
def PairLabel.Connected : PairLabel → Prop
  | .deliver .. | .status _ | .send .. => True
  | .connect _ | .drop .. | .lose .. => False

/-- The larger ID sends only while no session is pending on it. -/
def PairLabel.Settled (pendB : Bool) : PairLabel → Prop
  | .send .b _ => pendB = false
  | _ => True

instance (pendB : Bool) : (l : PairLabel) → Decidable (l.Settled pendB)
  | .send .b _ => inferInstanceAs (Decidable (pendB = false))
  | .send .a _ | .deliver .. | .status _ | .connect _ | .drop .. | .lose .. => isTrue trivial

theorem PairLabel.Connected.keepsMsg3 {l : PairLabel} (h : l.Connected) (toA toB : List Frame) :
    l.KeepsMsg3 toA toB := by
  cases l <;> trivial

theorem Link.InStep.move {s s' : Link N} (h : s.InStep pub P) (ha : s.Agreed pub P)
    (ha' : s'.Agreed pub P) (hN : N.XX pub) (hO : N.Opens) (hrA : s.actA.status = .ready)
    (hrB : s.actB.status = .ready) {l : PairLabel} (hm : s.Move pub P l s') (hl : l.Connected)
    (hs : l.Settled s.pendB.isSome) : s'.InStep pub P := by
  cases hm with
  | stay => exact h
  | plainA hin hf hr => exact h.plainA hO hrA hin hf hr
  | plainB hin hf hr => exact h.plainB hO hrB hin hf hr
  | turnA hin hf ht => exact h.turnA ha hN hin hf ht
  | turnB hin hf ht => exact h.turnB ha hN hin hf ht
  | rekey => exact h.rekey ha'
  | sendA hcs hx => exact h.sendA hcs hx
  | sendB hcs hx => exact h.sendB ha hcs hx (by simpa [PairLabel.Settled] using hs)
  | drop | lose => cases hl

namespace Pair

variable {p p' : Pair N}

/-- `b` does not send while a session is pending on it. -/
def Settled (p : Pair N) (l : PairLabel) : Prop := l.Settled p.b.client.peer.pending.isSome

instance (p : Pair N) (l : PairLabel) : Decidable (p.Settled l) :=
  inferInstanceAs (Decidable (l.Settled _))

/-- Two paired devices whose active sessions have the same counters, at rest. -/
structure Synced (pub : Bytes → Bytes) (p : Pair N) : Prop extends p.Shares pub where
  counters : ∃ sA sB tx rx, p.a.client.activeSession = some sA
    ∧ p.b.client.activeSession = some sB ∧ sA.Ends tx rx ∧ sB.Ends rx tx
  upA : p.a.up = true
  upB : p.b.up = true
  sentA : p.a.sent = []
  sentB : p.b.sent = []
  messagesA : p.a.messages = []
  messagesB : p.b.messages = []

structure InStep (pub : Bytes → Bytes) (P : Parties) (p : Pair N) : Prop extends p.Known pub P where
  upA : p.a.up = true
  upB : p.b.up = true
  link : ∃ s, p.Holds s ∧ s.Agreed pub P ∧ s.InStep pub P

theorem Synced.inStep (h : p.Synced pub) : p.InStep pub p.parties := by
  obtain ⟨s, hs, hagree⟩ := h.toShares.inv.link
  obtain ⟨sA, sB, tx, rx, hA, hB, hendA, hendB⟩ := h.counters
  obtain rfl : s.actA = sA := by simpa [hs.atA.activeSession] using hA
  obtain rfl : s.actB = sB := by simpa [hs.atB.activeSession] using hB
  have htoA : s.toA = [] := hs.toA.trans h.inboxA
  have htoB : s.toB = [] := hs.toB.trans h.inboxB
  refine ⟨h.toKnown, h.upA, h.upB, s, hs, hagree, ?_, ?_, ?_, ?_⟩
  · exact .calm hendA hendB (by simp [htoB]) (by rw [htoB]; rfl) (by rw [htoA]; rfl)
  · simp [htoA]
  · simp [hs.sentA, hs.gotB, h.sentA, h.messagesB, htoB, payloads]
  · simp [hs.sentB, hs.gotA, h.sentB, h.messagesA, htoA, payloads]

theorem step_up {l : PairLabel} (hl : l.Connected) (hstep : p.step l = some p') :
    p'.a.up = p.a.up ∧ p'.b.up = p.b.up := by
  cases l with
  | deliver side env =>
    cases side <;>
    · obtain ⟨r, hr, rfl⟩ := Option.map_eq_some_iff.1 hstep
      obtain ⟨f, inbox, x, -, -, h1, h2⟩ := Endpoint.deliver_eq_some hr
      simp [h1, h2, Endpoint.push]
  | status side =>
    cases side <;>
    · obtain ⟨r, hr, rfl⟩ := Option.map_eq_some_iff.1 hstep
      obtain ⟨n, rfl⟩ := status_eq_some hr
      exact ⟨rfl, rfl⟩
  | send side payload =>
    cases side <;>
    · simp only [Pair.step, Pair.act, Option.map_some, Option.some.injEq, Endpoint.send] at hstep
      subst hstep
      split <;> exact ⟨rfl, rfl⟩
  | connect | drop | lose => cases hl

theorem InStep.step (h : p.InStep pub P) (hN : N.XX pub) (hO : N.Opens)
    (hfresh : N.Fresh P.a P.rand) {l : PairLabel} (hl : l.Connected) (hs : p.Settled l)
    (hstep : p.step l = some p') : p'.InStep pub P := by
  obtain ⟨s, hh, hagree, hin⟩ := h.link
  obtain ⟨hk, s', hh', hm⟩ := hh.step h.toKnown hstep
  obtain ⟨hupA, hupB⟩ := step_up hl hstep
  have hagree' := hagree.move hN hfresh hm (hl.keepsMsg3 _ _)
  unfold Settled at hs
  rw [hh.atB.pending_isSome] at hs
  exact ⟨hk, hupA.trans h.upA, hupB.trans h.upB, s', hh', hagree',
    hin.move hagree hagree' hN hO hh.atA.ready hh.atB.ready hm hl hs⟩

theorem exists_deliver {e o : Endpoint N} {act : NoiseSession N}
    {pend : Option (NoiseSession N)} {key : Bytes} (hat : e.client.At act pend)
    (ht : e.client.Trusts key) (hup : e.up = true) (hin : e.inbox ≠ []) (env : Env) :
    ∃ r, e.deliver o env = some r := by
  obtain ⟨f, rest, hin⟩ := List.exists_cons_of_ne_nil hin
  have hb : ∃ x, e.client.handleBinary env f.bytes = some x := by
    rcases hf : f.body with _ | d
    · rcases e.client.handleBinary_none hf env with ⟨hb, -⟩ | ⟨ct, -, hb⟩
      · exact ⟨_, hb⟩
      · exact ⟨_, hb⟩
    · obtain ⟨y, -, -, -, hy, -⟩ := hat.turns ht env d
      exact ⟨y, by rw [Client.handleBinary_body hf, hy]⟩
  obtain ⟨x, hx⟩ := hb
  simp [Endpoint.deliver, hup, hin, hx]

theorem InStep.sent (h : p.InStep pub P) : p.a.sent = p.b.messages ++ payloads p.b.inbox
    ∧ p.b.sent = p.a.messages ++ payloads p.a.inbox := by
  obtain ⟨s, hs, -, hin⟩ := h.link
  rw [← hs.sentA, ← hs.sentB, ← hs.gotA, ← hs.gotB, ← hs.toA, ← hs.toB]
  exact ⟨hin.sentA, hin.sentB⟩

end Pair

/-- A pending initiator has a reply left, and a client with nothing pending may answer. -/
def pendingWork (pend : Option (NoiseSession N)) : ℕ :=
  match pend with
  | none => 1
  | some p => if p.initiator then 2 else 0

theorem Turn.work {priv key d : Bytes} {act act' : NoiseSession N}
    {pend pend' : Option (NoiseSession N)} {reply : Option Bytes}
    (h : Turn priv key act d pend act' pend' reply) :
    3 * (Agree.replyFrames pend reply).length + pendingWork pend' < 3 + pendingWork pend := by
  cases h with
  | ignored => simp [Agree.replyFrames, pendingWork]
  | answered => simp [Agree.replyFrames, pendingWork]
  | refused => simp only [Agree.replyFrames, pendingWork]; simp; omega
  | initiated p _ _ _ _ _ hi => simp [Agree.replyFrames, pendingWork, hi]
  | responded p _ _ hi => simp [Agree.replyFrames, pendingWork, hi]

/-- What is left to do once nothing is sent any more. -/
def Link.work (s : Link N) : ℕ :=
  3 * (s.toA.length + s.toB.length) + pendingWork s.pendA + pendingWork s.pendB

theorem Link.Move.work {s s' : Link N} {side : Side} {env : Env}
    (h : s.Move pub P (.deliver side env) s') : s'.work < s.work := by
  cases h with
  | stay hl => exact absurd rfl (hl side env)
  | plainA hin => simp [Link.work, hin]
  | plainB hin => simp [Link.work, hin]
  | turnA hin _ ht =>
    have := ht.work
    simp [Link.work, hin]
    omega
  | turnB hin _ ht =>
    have := ht.work
    simp [Link.work, hin]
    omega

theorem Link.Move.sent {s s' : Link N} {side : Side} {env : Env}
    (h : s.Move pub P (.deliver side env) s') : s'.sentA = s.sentA ∧ s'.sentB = s.sentB := by
  cases h <;> exact ⟨rfl, rfl⟩

namespace Pair

variable {p p' : Pair N}

def work (p : Pair N) : ℕ :=
  3 * (p.a.inbox.length + p.b.inbox.length) + pendingWork p.a.client.pendingSession
    + pendingWork p.b.client.pendingSession

theorem Holds.work {s : Link N} (h : p.Holds s) : p.work = s.work := by
  rw [Pair.work, Link.work, h.toA, h.toB, h.atA.pendingSession, h.atB.pendingSession]

theorem InStep.deliver (h : p.InStep pub P) (hN : N.XX pub) (hO : N.Opens)
    (hfresh : N.Fresh P.a P.rand) (hin : ¬ (p.a.inbox = [] ∧ p.b.inbox = [])) :
    ∃ side env p', p.step (.deliver side env) = some p' ∧ p'.InStep pub P ∧ p'.work < p.work
      ∧ p'.a.sent = p.a.sent ∧ p'.b.sent = p.b.sent := by
  obtain ⟨s, hs, -⟩ := h.link
  obtain ⟨side, p', hstep⟩ : ∃ side p', p.step (.deliver side ⟨0, "", none⟩) = some p' := by
    by_cases ha : p.a.inbox = []
    · obtain ⟨r, hr⟩ := exists_deliver (o := p.a) hs.atB h.trustsB h.upB
        (fun hb => hin ⟨ha, hb⟩) ⟨0, "", none⟩
      exact ⟨.b, ⟨r.2, r.1⟩, by simp [Pair.step, Pair.act, hr]⟩
    · obtain ⟨r, hr⟩ := exists_deliver (o := p.b) hs.atA h.trustsA h.upA ha ⟨0, "", none⟩
      exact ⟨.a, ⟨r.1, r.2⟩, by simp [Pair.step, Pair.act, hr]⟩
  obtain ⟨-, s', hs', hm⟩ := hs.step h.toKnown hstep
  have hin' : p'.InStep pub P :=
    h.step (l := .deliver side ⟨0, "", none⟩) hN hO hfresh trivial trivial hstep
  refine ⟨side, _, p', hstep, hin', ?_, ?_, ?_⟩
  · rw [hs.work, hs'.work]
    exact hm.work
  · rw [← hs'.sentA, hm.sent.1, hs.sentA]
  · rw [← hs'.sentB, hm.sent.2, hs.sentB]

/-- Frames in flight can all be delivered. -/
theorem InStep.drain (h : p.InStep pub P) (hN : N.XX pub) (hO : N.Opens)
    (hfresh : N.Fresh P.a P.rand) :
    ∃ deliveries p', (∀ l ∈ deliveries, ∃ side env, l = .deliver side env)
      ∧ Lts.run Pair.step p deliveries = some p' ∧ p'.InStep pub P ∧ p'.a.sent = p.a.sent
      ∧ p'.b.sent = p.b.sent ∧ p'.a.inbox = [] ∧ p'.b.inbox = [] := by
  let I (q : Pair N) := q.InStep pub P ∧ q.a.sent = p.a.sent ∧ q.b.sent = p.b.sent
  let done (q : Pair N) := q.a.inbox = [] ∧ q.b.inbox = []
  have hstep : ∀ q, I q → ¬ done q → ∃ l q', (∃ side env, l = .deliver side env)
      ∧ q.step l = some q' ∧ I q' ∧ q'.work < q.work := by
    intro q ⟨hq, hqA, hqB⟩ hn
    obtain ⟨side, env, q', hstep, hq', hlt, hsA, hsB⟩ := hq.deliver hN hO hfresh hn
    exact ⟨_, q', ⟨side, env, rfl⟩, hstep, ⟨hq', hsA.trans hqA, hsB.trans hqB⟩, hlt⟩
  obtain ⟨deliveries, p', hd, hrun, ⟨h', hsA, hsB⟩, hdone⟩ :=
    Lts.exists_run_of_measure Pair.work hstep p ⟨h, rfl, rfl⟩
  exact ⟨deliveries, p', hd, hrun, h', hsA, hsB, hdone⟩

/-- Between two clients that stay connected, where the larger ID does not send while a session is
pending on it, what was sent is what was received and then what is in flight; and all of it is
received once the frames in flight are. -/
theorem sent_eq_messages (hN : N.XX pub) (hO : N.Opens) (p₀ p : Pair N) (h₀ : p₀.Synced pub)
    (labels : List PairLabel) (hl : ∀ l ∈ labels, l.Connected)
    (hm : Lts.Meets Pair.step Settled p₀ labels) (hrun : Lts.run Pair.step p₀ labels = some p) :
    p.a.sent = p.b.messages ++ payloads p.b.inbox
      ∧ p.b.sent = p.a.messages ++ payloads p.a.inbox
      ∧ ∃ deliveries p', (∀ l ∈ deliveries, ∃ side env, l = .deliver side env)
        ∧ Lts.run Pair.step p deliveries = some p' ∧ p'.b.messages = p.a.sent
        ∧ p'.a.messages = p.b.sent := by
  have h : p.InStep pub p₀.parties := Lts.run_inv
    (fun _ _ _ hi hc hs => hi.step hN hO h₀.fresh hc.2 hc.1 hs) labels h₀.inStep (hm.and_forall hl)
    hrun
  obtain ⟨hA, hB⟩ := h.sent
  refine ⟨hA, hB, ?_⟩
  obtain ⟨deliveries, p', hd, hrun', h', hsA, hsB, hdone⟩ := h.drain hN hO h₀.fresh
  obtain ⟨hA', hB'⟩ := h'.sent
  rw [hdone.2, hsA] at hA'
  rw [hdone.1, hsB] at hB'
  exact ⟨deliveries, p', hd, hrun', by simpa [payloads] using hA'.symm,
    by simpa [payloads] using hB'.symm⟩

/-- `linkedPair` with a `peer_status` on its way to the smaller ID. -/
def rekeyingPair : Pair plainNoise :=
  { linkedPair with a := { linkedPair.a with statuses := 1 } }

theorem rekeyingPair_synced : rekeyingPair.Synced id :=
  { linkedPair_shares with
    counters := ⟨_, _, _, _, rfl, rfl, ⟨rfl, rfl⟩, ⟨rfl, rfl⟩⟩
    upA := rfl
    upB := rfl
    sentA := rfl
    sentB := rfl
    messagesA := rfl
    messagesB := rfl }

/-- What `b` sends after its `msg2` reaches `a` when `a` has changed over, and is dropped there. -/
theorem sent_lost :
    ∃ labels p, (∀ l ∈ labels, l.Connected) ∧ rekeyingPair.Synced id
      ∧ Lts.run Pair.step rekeyingPair labels = some p ∧ p.Quiet ∧ p.b.sent = [[7]]
      ∧ p.a.messages = [] := by
  have h : (Lts.run Pair.step rekeyingPair [.status .a, .deliver .b ⟨0, "", none⟩, .send .b [7],
      .deliver .a ⟨0, "", none⟩, .deliver .a ⟨0, "", none⟩, .deliver .b ⟨0, "", none⟩]).any
        fun p => decide (p.Quiet ∧ p.b.sent = [[7]] ∧ p.a.messages = []) := by
    decide +kernel
  obtain ⟨p, hrun, hp⟩ := (Option.any_eq_true ..).1 h
  refine ⟨_, p, ?_, rekeyingPair_synced, hrun, of_decide_eq_true hp⟩
  simp [PairLabel.Connected]

theorem sent_eq_messages_rekeyed :
    ∃ p, Lts.run Pair.step rekeyingPair [.send .b [1], .status .a, .send .a [2],
        .deliver .b ⟨0, "", none⟩, .send .a [3], .deliver .a ⟨0, "", none⟩,
        .deliver .a ⟨0, "", none⟩, .send .a [4], .deliver .b ⟨0, "", none⟩] = some p
      ∧ p.a.sent = p.b.messages ++ payloads p.b.inbox
      ∧ p.b.sent = p.a.messages ++ payloads p.a.inbox := by
  have h : (Lts.run Pair.step rekeyingPair [.send .b [1], .status .a, .send .a [2],
      .deliver .b ⟨0, "", none⟩, .send .a [3], .deliver .a ⟨0, "", none⟩,
      .deliver .a ⟨0, "", none⟩, .send .a [4], .deliver .b ⟨0, "", none⟩]).isSome := by
    decide +kernel
  obtain ⟨p, hrun⟩ := Option.isSome_iff_exists.1 h
  have hsent := sent_eq_messages plainNoise_xx plainNoise_opens rekeyingPair p rekeyingPair_synced _
    (by simp [PairLabel.Connected]) (by decide +kernel) hrun
  exact ⟨p, hrun, hsent.1, hsent.2.1⟩

end Pair

end Relayly.Go
