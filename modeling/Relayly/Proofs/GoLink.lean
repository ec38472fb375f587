import Relayly.Proofs.GoAgree

/-!
# The moves of a pair

A pair of clients, seen through the sessions in their slots and the frames between them, is a `Link`.
`Link.Move` lists what a step can do to it, and `Pair.Holds.step` says that a step does no more.
-/

namespace Relayly.Go

variable {N : Noise}

theorem Client.handleBinary_body {c : Client N} {f : Frame} {d : Bytes} (hf : f.body = some d)
    (env : Env) : c.handleBinary env f.bytes = c.handleHandshakeEnvelope env d := by
  unfold Frame.body at hf
  unfold Client.handleBinary
  rcases hd : decodeEnvelope f.bytes with _ | ⟨kind, payload⟩ <;> simp only [hd] at hf ⊢
  · cases hf
  · split_ifs at hf with hk
    cases hf
    rw [if_pos hk]

theorem Client.handleBinary_none {c : Client N} {f : Frame} (hf : f.body = none) (env : Env) :
    (c.handleBinary env f.bytes = some (c, [])
      ∧ ∀ ciphertext, decodeEnvelope f.bytes ≠ some (envelopeTransport, ciphertext))
    ∨ ∃ ciphertext, decodeEnvelope f.bytes = some (envelopeTransport, ciphertext)
      ∧ c.handleBinary env f.bytes = some (c.handleTransportEnvelope ciphertext) := by
  unfold Frame.body at hf
  unfold Client.handleBinary
  rcases hd : decodeEnvelope f.bytes with _ | ⟨kind, payload⟩ <;> simp only [hd] at hf ⊢
  · exact Or.inl ⟨trivial, nofun⟩
  · split_ifs at hf with hk
    rw [if_neg hk]
    split_ifs with ht
    · exact Or.inr ⟨payload, by rw [ht], rfl⟩
    · refine Or.inl ⟨rfl, fun ct h => ht ?_⟩
      exact (Prod.mk.inj (Option.some.inj h)).1

namespace Endpoint

/-- The frame at the head of an inbox is handled. -/
theorem deliver_eq_some {self other : Endpoint N} {env : Env} {r : Endpoint N × Endpoint N}
    (h : self.deliver other env = some r) :
    ∃ f inbox x, self.inbox = f :: inbox ∧ self.client.handleBinary env f.bytes = some x
      ∧ r.1 = { self with
          client := x.1
          inbox := inbox
          messages := self.messages ++ x.2.filterMap Output.received }
      ∧ r.2 = other.push self.client.replyTag x.2 := by
  unfold Endpoint.deliver at h
  rcases hup : self.up <;> rcases hin : self.inbox with _ | ⟨f, inbox⟩ <;>
    simp only [hup, hin, reduceCtorEq] at h
  obtain ⟨x, hx, rfl⟩ := Option.map_eq_some_iff.1 h
  exact ⟨f, inbox, x, rfl, hx, rfl, rfl⟩

/-- What a client does with a frame that has no handshake message: it is a payload if the active
session can decrypt it. -/
inductive Received (f : Frame) (act : NoiseSession N) : NoiseSession N → List Bytes → Prop
  | dropped (h : ∀ ciphertext, decodeEnvelope f.bytes = some (envelopeTransport, ciphertext) →
      ∃ e, act.decrypt ciphertext = .error e) : Received f act act []
  | opened (ciphertext plaintext : Bytes) (cs : CipherState N)
      (hf : decodeEnvelope f.bytes = some (envelopeTransport, ciphertext))
      (hcs : act.recvCS = some cs)
      (hd : cs.decrypt ciphertext = .ok (plaintext, { cs with n := cs.n + 1 })) :
      Received f act { act with recvCS := some { cs with n := cs.n + 1 } } [plaintext]

theorem Received.sameKeys {f : Frame} {act act' : NoiseSession N} {msgs : List Bytes}
    (h : Received f act act' msgs) : SameKeys act act' := by
  cases h with
  | dropped => exact .refl act
  | opened _ _ _ _ hcs => exact ⟨rfl, by simp [hcs]⟩

/-- The step of an endpoint that handles a frame, given the sessions in its slots. -/
inductive Delivered (key : Bytes) (self other : Endpoint N) (act : NoiseSession N)
    (pend : Option (NoiseSession N)) (f : Frame) (self' other' : Endpoint N) :
    NoiseSession N → Option (NoiseSession N) → Prop
  | plain (act' : NoiseSession N) (msgs : List Bytes) (hf : f.body = none)
      (hr : Received f act act' msgs) (hm : self'.messages = self.messages ++ msgs)
      (ho : other'.inbox = other.inbox) :
      Delivered key self other act pend f self' other' act' pend
  | turn (d : Bytes) (act' : NoiseSession N) (pend' : Option (NoiseSession N))
      (reply : Option Bytes) (hf : f.body = some d)
      (ht : Turn self.client.privateKey.raw key act d pend act' pend' reply)
      (hm : self'.messages = self.messages)
      (ho : other'.inbox = other.inbox ++ Agree.replyFrames pend reply) :
      Delivered key self other act pend f self' other' act' pend'

theorem push_replies {c : Client N} {act : NoiseSession N} {pend : Option (NoiseSession N)}
    (h : c.At act pend) {out : List Output} {reply : Option Bytes}
    (hr : Client.Replies out reply) (e : Endpoint N) :
    (e.push c.replyTag out).inbox = e.inbox ++ Agree.replyFrames pend reply := by
  unfold Endpoint.push Agree.replyFrames
  rw [h.replyTag, hr.wire]
  rcases reply with _ | d <;> rfl

theorem push_nil (e : Endpoint N) (tag : Tag) {out : List Output}
    (h : out.filterMap Output.wire = []) : e.push tag out = e := by
  simp [Endpoint.push, h]

/-- Only what `Delivered` says of the two endpoints changes. -/
structure Changes (e o e' o' : Endpoint N) : Prop where
  here : e' = { e with client := e'.client, inbox := e'.inbox, messages := e'.messages }
  there : o' = { o with inbox := o'.inbox }

theorem deliver_delivered {self other : Endpoint N} {env : Env} {r : Endpoint N × Endpoint N}
    (h : self.deliver other env = some r) {act : NoiseSession N} {pend : Option (NoiseSession N)}
    {key : Bytes} (hat : self.client.At act pend) (ht : self.client.Trusts key) :
    ∃ f act' pend', self.inbox = f :: r.1.inbox ∧ r.1.client.At act' pend'
      ∧ self.client.SameParty r.1.client ∧ self.Changes other r.1 r.2
      ∧ Delivered key self other act pend f r.1 r.2 act' pend' := by
  obtain ⟨f, inbox, x, hin, hx, h1, h2⟩ := deliver_eq_some h
  have hchange : self.Changes other r.1 r.2 := by
    rw [h1, h2]
    exact ⟨rfl, rfl⟩
  refine ⟨f, ?_⟩
  rcases hf : f.body with _ | d
  · obtain ⟨act', msgs, hrec, hat', hsame, hwire, hmsgs⟩ : ∃ act' msgs, Received f act act' msgs
        ∧ x.1.At act' pend ∧ self.client.SameParty x.1 ∧ x.2.filterMap Output.wire = []
        ∧ x.2.filterMap Output.received = msgs := by
      rcases self.client.handleBinary_none hf env with ⟨hb, hno⟩ | ⟨ct, hdec, hb⟩ <;>
        rw [hx, Option.some.injEq] at hb
      · subst hb
        exact ⟨act, [], .dropped fun ct hct => absurd hct (hno ct), hat, .refl _, rfl, rfl⟩
      · rcases hat.handleTransportEnvelope ct with ⟨herr, hct⟩ | ⟨c', cs, pt, hcs, hd, hct, hat', hsame⟩
        · rw [hct] at hb
          subst hb
          refine ⟨act, [], .dropped fun ct' hct' => ?_, hat, .refl _, rfl, rfl⟩
          rw [hdec] at hct'
          cases hct'
          exact herr
        · rw [hct] at hb
          subst hb
          exact ⟨_, [pt], .opened ct pt cs hdec hcs hd, hat', hsame, rfl, rfl⟩
    refine ⟨act', pend, by rw [h1, hin], by rw [h1]; exact hat', by rw [h1]; exact hsame, hchange,
      .plain act' msgs hf hrec (by rw [h1, hmsgs]) ?_⟩
    rw [h2, push_nil _ _ hwire]
  · rw [Client.handleBinary_body hf] at hx
    obtain ⟨y, act', pend', reply, hy, hturn, hat', hsame, hrep⟩ := hat.turns ht env d
    obtain rfl : x = y := by simpa [hx] using hy
    refine ⟨act', pend', by rw [h1, hin], by rw [h1]; exact hat', by rw [h1]; exact hsame, hchange,
      .turn d act' pend' reply hf hturn (by rw [h1, hrep.received, List.append_nil]) ?_⟩
    rw [h2, push_replies hat hrep]

end Endpoint

namespace Pair

/-- What two paired devices know of each other, `a` being the one with the smaller ID. -/
structure Known (pub : Bytes → Bytes) (P : Parties) (p : Pair N) : Prop where
  keyA : p.a.client.privateKey.raw = P.a
  keyB : p.b.client.privateKey.raw = P.b
  rand : p.a.client.rand = P.rand
  trustsA : p.a.client.Trusts (pub P.b)
  trustsB : p.b.client.Trusts (pub P.a)
  idA : p.a.client.peer.id = p.b.client.deviceID
  idB : p.b.client.peer.id = p.a.client.deviceID
  order : p.a.client.deviceID < p.b.client.deviceID

theorem Known.same {pub : Bytes → Bytes} {P : Parties} {p p' : Pair N} (h : p.Known pub P)
    (hA : p.a.client.SameParty p'.a.client) (hB : p.b.client.SameParty p'.b.client) :
    p'.Known pub P where
  keyA := by rw [hA.privateKey, h.keyA]
  keyB := by rw [hB.privateKey, h.keyB]
  rand := by rw [hA.rand, h.rand]
  trustsA := hA.trusts h.trustsA
  trustsB := hB.trusts h.trustsB
  idA := by rw [hA.id, hB.deviceID, h.idA]
  idB := by rw [hB.id, hA.deviceID, h.idB]
  order := by rw [hA.deviceID, hB.deviceID]; exact h.order

end Pair

/-- Two ends of a session and what is between them, with the number of sessions `a` has made. -/
structure Link (N : Noise) where
  actA : NoiseSession N
  pendA : Option (NoiseSession N)
  actB : NoiseSession N
  pendB : Option (NoiseSession N)
  toA : List Frame
  toB : List Frame
  k : ℕ
  sentA : List Bytes
  gotB : List Bytes
  sentB : List Bytes
  gotA : List Bytes

/-- The session after it has encrypted once more. -/
def NoiseSession.sent (s : NoiseSession N) (cs : CipherState N) : NoiseSession N :=
  { s with sendCS := some { cs with n := cs.n + 1 } }

def transportFrame (cs : CipherState N) (payload : Bytes) : Frame :=
  ⟨.transport payload, encodeEnvelope envelopeTransport (N.aeadEncrypt cs.key cs.n payload)⟩

namespace Link

inductive Move (pub : Bytes → Bytes) (P : Parties) (s : Link N) : PairLabel → Link N → Prop
  | stay {l : PairLabel} (hl : ∀ side env, l ≠ .deliver side env) : Move pub P s l s
  | plainA {env : Env} {f : Frame} {rest : List Frame} {act : NoiseSession N} {msgs : List Bytes}
      {k : ℕ} (hin : s.toA = f :: rest) (hf : f.body = none)
      (hr : Endpoint.Received f s.actA act msgs) (hk : s.k ≤ k) :
      Move pub P s (.deliver .a env) { s with actA := act, toA := rest, gotA := s.gotA ++ msgs, k }
  | plainB {env : Env} {f : Frame} {rest : List Frame} {act : NoiseSession N} {msgs : List Bytes}
      (hin : s.toB = f :: rest) (hf : f.body = none) (hr : Endpoint.Received f s.actB act msgs) :
      Move pub P s (.deliver .b env) { s with actB := act, toB := rest, gotB := s.gotB ++ msgs }
  | turnA {env : Env} {f : Frame} {rest : List Frame} {d : Bytes} {act : NoiseSession N}
      {pend : Option (NoiseSession N)} {reply : Option Bytes} {k : ℕ} (hin : s.toA = f :: rest)
      (hf : f.body = some d) (ht : Turn P.a (pub P.b) s.actA d s.pendA act pend reply)
      (hk : s.k ≤ k) :
      Move pub P s (.deliver .a env) { s with
        actA := act, pendA := pend, toA := rest
        toB := s.toB ++ Agree.replyFrames s.pendA reply, k }
  | turnB {env : Env} {f : Frame} {rest : List Frame} {d : Bytes} {act : NoiseSession N}
      {pend : Option (NoiseSession N)} {reply : Option Bytes} (hin : s.toB = f :: rest)
      (hf : f.body = some d) (ht : Turn P.b (pub P.a) s.actB d s.pendB act pend reply) :
      Move pub P s (.deliver .b env) { s with
        actB := act, pendB := pend, toB := rest
        toA := s.toA ++ Agree.replyFrames s.pendB reply }
  | rekey {m : Bytes} {hs : N.Hs} {k : ℕ} (hm : N.initiator P.a (P.rand s.k) = some (m, hs))
      (hk : s.k < k) :
      Move pub P s (.status .a) { s with
        pendA := some { initiator := true, hs }, toB := s.toB ++ [hsFrame .msg1 m], k }
  | sendA {payload : Bytes} {cs : CipherState N} {k : ℕ} (hcs : s.actA.sendCS = some cs)
      (hx : cs.exhausted = false) (hk : s.k ≤ k) :
      Move pub P s (.send .a payload) { s with
        actA := s.actA.sent cs, toB := s.toB ++ [transportFrame cs payload]
        sentA := s.sentA ++ [payload], k }
  | sendB {payload : Bytes} {cs : CipherState N} (hcs : s.actB.sendCS = some cs)
      (hx : cs.exhausted = false) :
      Move pub P s (.send .b payload) { s with
        actB := s.actB.sent cs, toA := s.toA ++ [transportFrame cs payload]
        sentB := s.sentB ++ [payload] }
  | drop {side : Side} {toA toB : List Frame} (hA : toA.Sublist s.toA) (hB : toB.Sublist s.toB) :
      Move pub P s (.drop side toA toB) { s with toA, toB }
  | lose {toA toB : List Frame} (hA : toA.Sublist s.toA) (hB : toB.Sublist s.toB) :
      Move pub P s (.lose toA toB) { s with toA, toB }

end Link

namespace Pair

variable {pub : Bytes → Bytes} {P : Parties} {p p' : Pair N} {s : Link N}

/-- The link that a pair of clients is. -/
structure Holds (p : Pair N) (s : Link N) : Prop where
  atA : p.a.client.At s.actA s.pendA
  atB : p.b.client.At s.actB s.pendB
  toA : s.toA = p.a.inbox
  toB : s.toB = p.b.inbox
  k : s.k = p.a.client.sessions.length
  sentA : s.sentA = p.a.sent
  gotB : s.gotB = p.b.messages
  sentB : s.sentB = p.b.sent
  gotA : s.gotA = p.a.messages

def link (p : Pair N) (actA : NoiseSession N) (pendA : Option (NoiseSession N))
    (actB : NoiseSession N) (pendB : Option (NoiseSession N)) : Link N where
  actA := actA
  pendA := pendA
  actB := actB
  pendB := pendB
  toA := p.a.inbox
  toB := p.b.inbox
  k := p.a.client.sessions.length
  sentA := p.a.sent
  gotB := p.b.messages
  sentB := p.b.sent
  gotA := p.a.messages

theorem holds_link (p : Pair N) {actA actB : NoiseSession N} {pendA pendB : Option (NoiseSession N)}
    (hA : p.a.client.At actA pendA) (hB : p.b.client.At actB pendB) :
    p.Holds (p.link actA pendA actB pendB) := ⟨hA, hB, rfl, rfl, rfl, rfl, rfl, rfl, rfl⟩

/-- What a step of a pair that holds `s` comes to. -/
def Moves (pub : Bytes → Bytes) (P : Parties) (s : Link N) (l : PairLabel) (p' : Pair N) : Prop :=
  p'.Known pub P ∧ ∃ s', p'.Holds s' ∧ s.Move pub P l s'

theorem Holds.same (h : p.Holds s) (hk : p.Known pub P) {l : PairLabel}
    (hl : ∀ side env, l ≠ .deliver side env) (hA : p'.a.client = p.a.client) (hB : p'.b.client = p.b.client)
    (hinA : p'.a.inbox = p.a.inbox) (hinB : p'.b.inbox = p.b.inbox) (hsA : p'.a.sent = p.a.sent)
    (hsB : p'.b.sent = p.b.sent) (hmA : p'.a.messages = p.a.messages)
    (hmB : p'.b.messages = p.b.messages) : Moves pub P s l p' := by
  refine ⟨hk.same (by rw [hA]; exact .refl _) (by rw [hB]; exact .refl _), s, ?_, .stay hl⟩
  obtain ⟨h1, h2, h3, h4, h5, h6, h7, h8, h9⟩ := h
  constructor <;> simp only [hA, hB, hinA, hinB, hsA, hsB, hmA, hmB] <;> assumption

theorem Holds.deliverA (h : p.Holds s) (hk : p.Known pub P) {env : Env}
    (hstep : p.step (.deliver .a env) = some p') : Moves pub P s (.deliver .a env) p' := by
  obtain ⟨r, hdel, rfl⟩ := Option.map_eq_some_iff.1 hstep
  obtain ⟨f, act, pend, hin, hat, hsame, hch, hd⟩ :=
    Endpoint.deliver_delivered hdel h.atA hk.trustsA
  have hb : r.2.client = p.b.client := by rw [hch.there]
  have hsA : s.sentA = r.1.sent := by rw [h.sentA, hch.here]
  have hsB : s.sentB = r.2.sent := by rw [h.sentB, hch.there]
  have hgB : s.gotB = r.2.messages := by rw [h.gotB, hch.there]
  have hlen : s.k ≤ r.1.client.sessions.length := by rw [h.k]; exact hsame.sessions
  have hatB : r.2.client.At s.actB s.pendB := by rw [hb]; exact h.atB
  refine ⟨hk.same hsame (by rw [hb]; exact .refl _), ?_⟩
  cases hd with
  | plain _ msgs hf hr hm ho =>
    refine ⟨_, ?_, .plainA (h.toA.trans hin) hf hr hlen⟩
    exact ⟨hat, hatB, rfl, by rw [ho, ← h.toB], rfl, hsA, hgB, hsB, by rw [hm, ← h.gotA]⟩
  | turn d _ _ reply hf hturn hm ho =>
    rw [hk.keyA] at hturn
    refine ⟨_, ?_, .turnA (h.toA.trans hin) hf hturn hlen⟩
    exact ⟨hat, hatB, rfl, by rw [ho, ← h.toB], rfl, hsA, hgB, hsB, by rw [hm, ← h.gotA]⟩

theorem Holds.deliverB (h : p.Holds s) (hk : p.Known pub P) {env : Env}
    (hstep : p.step (.deliver .b env) = some p') : Moves pub P s (.deliver .b env) p' := by
  obtain ⟨r, hdel, rfl⟩ := Option.map_eq_some_iff.1 hstep
  obtain ⟨f, act, pend, hin, hat, hsame, hch, hd⟩ :=
    Endpoint.deliver_delivered hdel h.atB hk.trustsB
  have ha : r.2.client = p.a.client := by rw [hch.there]
  have hsB : s.sentB = r.1.sent := by rw [h.sentB, hch.here]
  have hsA : s.sentA = r.2.sent := by rw [h.sentA, hch.there]
  have hgA : s.gotA = r.2.messages := by rw [h.gotA, hch.there]
  have hatA : r.2.client.At s.actA s.pendA := by rw [ha]; exact h.atA
  have hlen : s.k = r.2.client.sessions.length := by rw [ha]; exact h.k
  refine ⟨hk.same (by rw [ha]; exact .refl _) hsame, ?_⟩
  cases hd with
  | plain _ msgs hf hr hm ho =>
    refine ⟨_, ?_, .plainB (h.toB.trans hin) hf hr⟩
    exact ⟨hatA, hat, by rw [ho, ← h.toA], rfl, hlen, hsA, by rw [hm, ← h.gotB], hsB, hgA⟩
  | turn d _ _ reply hf hturn hm ho =>
    rw [hk.keyB] at hturn
    refine ⟨_, ?_, .turnB (h.toB.trans hin) hf hturn⟩
    exact ⟨hatA, hat, by rw [ho, ← h.toA], rfl, hlen, hsA, by rw [hm, ← h.gotB], hsB, hgA⟩

theorem status_eq_some {self other : Endpoint N} {r : Endpoint N × Endpoint N}
    (h : self.status other = some r) :
    ∃ n, r = ({ self with
        client := (self.client.handlePeerStatus other.client.deviceID true).1
        statuses := n },
      other.push .msg1 (self.client.handlePeerStatus other.client.deviceID true).2) := by
  unfold Endpoint.status at h
  rcases hup : self.up <;> rcases hn : self.statuses with _ | n <;>
    simp only [hup, hn, reduceCtorEq, Option.some.injEq] at h
  exact ⟨n, h.symm⟩

theorem Holds.statusA (h : p.Holds s) (hk : p.Known pub P)
    (hstep : p.step (.status .a) = some p') : Moves pub P s (.status .a) p' := by
  obtain ⟨r, hst, rfl⟩ := Option.map_eq_some_iff.1 hstep
  obtain ⟨n, rfl⟩ := status_eq_some hst
  have hid : ¬ p.a.client.peer.id ≤ p.a.client.deviceID := by
    rw [hk.idA]
    exact String.not_le.2 hk.order
  rw [← hk.idA]
  rcases h.atA.handlePeerStatus hid with heq | ⟨c', m1, hs, hm1, heq, hat, hsame, hlen⟩
  · rw [heq, Endpoint.push_nil _ _ rfl]
    exact h.same hk nofun rfl rfl rfl rfl rfl rfl rfl rfl
  · rw [heq]
    rw [hk.keyA, hk.rand, ← h.k] at hm1
    refine ⟨hk.same hsame (.refl _), _, ?_, .rekey hm1 (by rw [h.k]; exact hlen)⟩
    exact ⟨hat, h.atB, h.toA, by rw [h.toB]; rfl, rfl, h.sentA, h.gotB, h.sentB, h.gotA⟩

theorem Holds.statusB (h : p.Holds s) (hk : p.Known pub P)
    (hstep : p.step (.status .b) = some p') : Moves pub P s (.status .b) p' := by
  obtain ⟨r, hst, rfl⟩ := Option.map_eq_some_iff.1 hstep
  obtain ⟨n, rfl⟩ := status_eq_some hst
  have hid : p.b.client.peer.id ≤ p.b.client.deviceID := by
    rw [hk.idB]
    exact String.not_lt.1 (String.lt_asymm hk.order)
  rw [Client.handlePeerStatus_larger hid, Endpoint.push_nil _ _ rfl]
  exact h.same hk nofun rfl rfl rfl rfl rfl rfl rfl rfl

theorem Holds.sendA (h : p.Holds s) (hk : p.Known pub P) {payload : Bytes}
    (hstep : p.step (.send .a payload) = some p') : Moves pub P s (.send .a payload) p' := by
  simp only [Pair.step, Pair.act, Option.map_some, Option.some.injEq, Endpoint.send] at hstep
  subst hstep
  rcases h.atA.send payload with ⟨e, he⟩ | ⟨c', cs, hcs, hx, hok, hat, hsame⟩
  · rw [he]
    exact h.same hk nofun rfl rfl rfl rfl rfl rfl rfl rfl
  · rw [hok]
    have hlen : s.k ≤ c'.sessions.length := Nat.le_trans (Nat.le_of_eq h.k) hsame.sessions
    refine ⟨hk.same hsame (.refl _), _, ?_, .sendA hcs hx hlen⟩
    exact ⟨hat, h.atB, h.toA, by rw [h.toB]; rfl, rfl, by rw [h.sentA], h.gotB, h.sentB, h.gotA⟩

theorem Holds.sendB (h : p.Holds s) (hk : p.Known pub P) {payload : Bytes}
    (hstep : p.step (.send .b payload) = some p') : Moves pub P s (.send .b payload) p' := by
  simp only [Pair.step, Pair.act, Option.map_some, Option.some.injEq, Endpoint.send] at hstep
  subst hstep
  rcases h.atB.send payload with ⟨e, he⟩ | ⟨c', cs, hcs, hx, hok, hat, hsame⟩
  · rw [he]
    exact h.same hk nofun rfl rfl rfl rfl rfl rfl rfl rfl
  · rw [hok]
    refine ⟨hk.same (.refl _) hsame, _, ?_, .sendB hcs hx⟩
    exact ⟨h.atA, hat, by rw [h.toA]; rfl, h.toB, h.k, h.sentA, h.gotB, by rw [h.sentB], h.gotA⟩

theorem keep_eq_some {toA toB : List Frame} (h : p.keep toA toB = some p') :
    toA.Sublist p.a.inbox ∧ toB.Sublist p.b.inbox
      ∧ p' = { a := { p.a with inbox := toA }, b := { p.b with inbox := toB } } := by
  unfold Pair.keep at h
  split_ifs at h with hsub
  cases h
  exact ⟨hsub.1, hsub.2, rfl⟩

/-- A step of a pair is a move of the link it holds. -/
theorem Holds.step (h : p.Holds s) (hk : p.Known pub P) {l : PairLabel}
    (hstep : p.step l = some p') : Moves pub P s l p' := by
  cases l with
  | deliver side env =>
    cases side
    · exact h.deliverA hk hstep
    · exact h.deliverB hk hstep
  | status side =>
    cases side
    · exact h.statusA hk hstep
    · exact h.statusB hk hstep
  | send side payload =>
    cases side
    · exact h.sendA hk hstep
    · exact h.sendB hk hstep
  | connect side =>
    cases side <;>
    · obtain ⟨r, hc, rfl⟩ := Option.map_eq_some_iff.1 hstep
      unfold Endpoint.connect at hc
      split_ifs at hc <;> cases hc <;> exact h.same hk nofun rfl rfl rfl rfl rfl rfl rfl rfl
  | drop side toA toB =>
    obtain ⟨p₁, hkeep, hact⟩ := Option.bind_eq_some_iff.1 hstep
    obtain ⟨hA, hB, rfl⟩ := keep_eq_some hkeep
    cases side <;>
    · cases hact
      refine ⟨hk.same (.refl _) (.refl _), _, ?_, .drop (h.toA ▸ hA) (h.toB ▸ hB)⟩
      exact ⟨h.atA, h.atB, rfl, rfl, h.k, h.sentA, h.gotB, h.sentB, h.gotA⟩
  | lose toA toB =>
    simp only [Pair.step] at hstep
    split_ifs at hstep
    obtain ⟨hA, hB, rfl⟩ := keep_eq_some hstep
    refine ⟨hk.same (.refl _) (.refl _), _, ?_, .lose (h.toA ▸ hA) (h.toB ▸ hB)⟩
    exact ⟨h.atA, h.atB, rfl, rfl, h.k, h.sentA, h.gotB, h.sentB, h.gotA⟩

end Pair

end Relayly.Go
