import Relayly.Lib.Run
import Relayly.PlainNoise
import Relayly.Proofs.GoLink

/-!
# Session agreement across reconnects

The invariant of `Agree` holds along every run of a pair that loses no `msg3`. One that loses it
leaves `a` with a session that `b` never takes, and a responder on `b` that then refuses the `msg1`
of the next rekey.
-/

namespace Relayly.Go

variable {N : Noise} {pub : Bytes → Bytes} {P : Parties}

/-- The frames a step loses, of those in flight, include no `msg3`. -/
def PairLabel.KeepsMsg3 (toA toB : List Frame) : PairLabel → Prop
  | .drop _ toA' toB' | .lose toA' toB' =>
    toA'.filter (fun f => f.tag = .msg3) = toA.filter (fun f => f.tag = .msg3)
      ∧ toB'.filter (fun f => f.tag = .msg3) = toB.filter fun f => f.tag = .msg3
  | _ => True

instance (toA toB : List Frame) : (l : PairLabel) → Decidable (l.KeepsMsg3 toA toB)
  | .drop _ toA' toB' | .lose toA' toB' => inferInstanceAs (Decidable
      (toA'.filter (fun f => f.tag = .msg3) = toA.filter (fun f => f.tag = .msg3)
        ∧ toB'.filter (fun f => f.tag = .msg3) = toB.filter fun f => f.tag = .msg3))
  | .deliver .. | .status _ | .send .. | .connect _ => isTrue trivial

def Link.Agreed (pub : Bytes → Bytes) (P : Parties) (s : Link N) : Prop :=
  Agree pub P s.k s.actA s.pendA s.actB s.pendB s.toA s.toB

theorem transportFrame_body (cs : CipherState N) (payload : Bytes) :
    (transportFrame cs payload).body = none := by
  simp [Frame.body, transportFrame, envelopeHandshake, envelopeTransport]

theorem NoiseSession.sameKeys_sent {s : NoiseSession N} {cs : CipherState N}
    (h : s.sendCS = some cs) : SameKeys s (s.sent cs) :=
  ⟨by simp [NoiseSession.sent, h], rfl⟩

theorem Link.Agreed.move {s s' : Link N} (h : s.Agreed pub P) (hN : N.XX pub)
    (hfresh : N.Fresh P.a P.rand) {l : PairLabel} (hm : s.Move pub P l s')
    (hl : l.KeepsMsg3 s.toA s.toB) : s'.Agreed pub P := by
  unfold Link.Agreed at h ⊢
  cases hm with
  | stay => exact h
  | plainA hin hf hr hk =>
    rw [hin] at h
    exact ((h.bodiesA (bodies_cons_none hf _).symm).keys hr.sameKeys (.refl _)).mono hk
  | plainB hin hf hr =>
    rw [hin] at h
    exact (h.popB hf).keys (.refl _) hr.sameKeys
  | turnA hin hf ht hk =>
    rw [hin] at h
    exact h.turnA hN hf ht hk
  | turnB hin hf ht =>
    rw [hin] at h
    exact h.turnB hN hf ht
  | rekey hm hk => exact h.status hN hfresh hk hm
  | sendA hcs _ hk =>
    exact ((h.pushB (transportFrame_body ..) nofun).keys (NoiseSession.sameKeys_sent hcs)
      (.refl _)).mono hk
  | sendB hcs =>
    refine (h.bodiesA ?_).keys (.refl _) (NoiseSession.sameKeys_sent hcs)
    rw [bodies_append, bodies_cons_none (transportFrame_body ..), bodies_nil, List.append_nil]
  | drop hA hB => exact h.keep hA hB hl.2
  | lose hA hB => exact h.keep hA hB hl.2

namespace Pair

variable {p p' : Pair N}

def KeepsMsg3 (p : Pair N) (l : PairLabel) : Prop := l.KeepsMsg3 p.a.inbox p.b.inbox

instance (p : Pair N) (l : PairLabel) : Decidable (p.KeepsMsg3 l) :=
  inferInstanceAs (Decidable (l.KeepsMsg3 p.a.inbox p.b.inbox))

structure Inv (pub : Bytes → Bytes) (P : Parties) (p : Pair N) : Prop extends p.Known pub P where
  link : ∃ s, p.Holds s ∧ s.Agreed pub P

theorem Inv.step (h : p.Inv pub P) (hN : N.XX pub) (hfresh : N.Fresh P.a P.rand)
    {l : PairLabel} (hl : p.KeepsMsg3 l) (hstep : p.step l = some p') : p'.Inv pub P := by
  obtain ⟨s, hs, hagree⟩ := h.link
  obtain ⟨hk, s', hs', hm⟩ := hs.step h.toKnown hstep
  unfold KeepsMsg3 at hl
  rw [← hs.toA, ← hs.toB] at hl
  exact ⟨hk, s', hs', hagree.move hN hfresh hm hl⟩

def parties (p : Pair N) : Parties where
  a := p.a.client.privateKey.raw
  b := p.b.client.privateKey.raw
  rand := p.a.client.rand

/-- Two paired devices at the two ends of a session, at rest; a handshake that was never finished
may have left a pending session, on `b` one of a responder. -/
structure Shares (pub : Bytes → Bytes) (p : Pair N) : Prop extends p.Known pub p.parties where
  fresh : N.Fresh p.parties.a p.parties.rand
  sessions : ∃ actA pendA actB pendB, p.a.client.At actA pendA ∧ p.b.client.At actB pendB
    ∧ Matched actA actB
    ∧ (∀ q ∈ pendA, if q.initiator then
        ∃ j m, N.initiator p.parties.a (p.parties.rand j) = some (m, q.hs)
      else ∃ rand d m2, N.responder p.parties.a rand d = some (m2, q.hs))
    ∧ ∀ q ∈ pendB, q.initiator = false
      ∧ ∃ rand d m2, N.responder p.parties.b rand d = some (m2, q.hs)
  inboxA : p.a.inbox = []
  inboxB : p.b.inbox = []

theorem Shares.inv (h : p.Shares pub) : p.Inv pub p.parties := by
  obtain ⟨actA, pendA, actB, pendB, hA, hB, hm, hpA, hpB⟩ := h.sessions
  refine ⟨h.toKnown, p.link actA pendA actB pendB, p.holds_link hA hB, ?_⟩
  unfold Link.Agreed Pair.link
  rw [h.inboxA, h.inboxB]
  refine ⟨by simp, by simp, fun q hq hi => ?_, fun q hq hi => ?_, hpB, Or.inl ⟨hm, by simp⟩⟩
  · have hpq := hpA q hq
    rw [if_pos hi] at hpq
    obtain ⟨j, m, hinit⟩ := hpq
    exact ⟨j, m, hinit, by simp, by simp⟩
  · have hpq := hpA q hq
    rwa [if_neg (by simp [hi])] at hpq

/-- Both are connected, every `peer_status` has been processed and no frame is in flight. -/
structure Quiet (p : Pair N) : Prop where
  upA : p.a.up = true
  upB : p.b.up = true
  statusesA : p.a.statuses = 0
  statusesB : p.b.statuses = 0
  inboxA : p.a.inbox = []
  inboxB : p.b.inbox = []

instance (p : Pair N) : Decidable p.Quiet :=
  decidable_of_iff (p.a.up = true ∧ p.b.up = true ∧ p.a.statuses = 0 ∧ p.b.statuses = 0
      ∧ p.a.inbox = [] ∧ p.b.inbox = [])
    ⟨fun ⟨h1, h2, h3, h4, h5, h6⟩ => ⟨h1, h2, h3, h4, h5, h6⟩,
      fun h => ⟨h.upA, h.upB, h.statusesA, h.statusesB, h.inboxA, h.inboxB⟩⟩

/-- Where no connection that drops loses a `msg3`, the active sessions of a pair that has come to
rest are the two ends of one handshake. -/
theorem matched_of_quiet (hN : N.XX pub) (p₀ p : Pair N) (h₀ : p₀.Shares pub)
    (labels : List PairLabel) (hm : Lts.Meets Pair.step KeepsMsg3 p₀ labels)
    (hrun : Lts.run Pair.step p₀ labels = some p) (hq : p.Quiet) (sA sB : NoiseSession N)
    (hA : p.a.client.activeSession = some sA) (hB : p.b.client.activeSession = some sB) :
    Matched sA sB := by
  have h : p.Inv pub p₀.parties := Lts.run_inv
    (fun _ _ _ hi hc hs => hi.step hN h₀.fresh hc hs) labels h₀.inv hm hrun
  obtain ⟨s, hs, hagree⟩ := h.link
  obtain rfl : s.actA = sA := by simpa [hs.atA.activeSession] using hA
  obtain rfl : s.actB = sB := by simpa [hs.atB.activeSession] using hB
  rcases hagree.agree with ⟨hmatched, -⟩ | ⟨pre, f, post, keys, hp⟩
  · exact hmatched
  · have hsplit := hp.split
    rw [hs.toB, hq.inboxB] at hsplit
    simp at hsplit

/-- A device whose peer is `id`, with the peer's key pinned and a ready session to it. -/
def linkedClient (deviceID id : String) (priv peerKey : PrivateKey) (initiator : Bool) :
    Client plainNoise where
  deviceID := deviceID
  privateKey := priv
  rand i := List.replicate i 0
  peerStore := { peers := some fun _ => some ⟨encodeBase64 peerKey.raw, ""⟩, disk := none }
  peer := { newPeerConn id (encodeBase64 peerKey.raw) with active := some 0 }
  sessions := [{
    status := .ready
    initiator := initiator
    hs := .done peerKey.raw
    sendCS := some { key := ([], initiator) }
    recvCS := some { key := ([], !initiator) }
    peerStatic := peerKey.raw }]

def privA : PrivateKey := .ofByte 1
def privB : PrivateKey := .ofByte 2

def linkedPair : Pair plainNoise where
  a := { client := linkedClient "a" "b" privA privB true }
  b := { client := linkedClient "b" "a" privB privA false }

theorem linkedPair_shares : linkedPair.Shares id where
  keyA := rfl
  keyB := rfl
  rand := rfl
  trustsA := ⟨⟨_, rfl, rfl⟩, Or.inr rfl, rfl⟩
  trustsB := ⟨⟨_, rfl, rfl⟩, Or.inr rfl, rfl⟩
  idA := rfl
  idB := rfl
  order := by decide +kernel
  fresh := plainNoise_fresh _ fun i j h => by
    simpa [parties, linkedPair, linkedClient] using congrArg List.length h
  sessions := ⟨_, none, _, none, ⟨⟨0, rfl, rfl⟩, Or.inl ⟨rfl, rfl⟩, rfl, by simp⟩,
    ⟨⟨0, rfl, rfl⟩, Or.inl ⟨rfl, rfl⟩, rfl, by simp⟩, ⟨rfl, rfl⟩, by simp, by simp⟩
  inboxA := rfl
  inboxB := rfl

/-- `a` reconnects and rekeys, up to its `msg3`. -/
def rekeyUpToMsg3 : List PairLabel :=
  [.drop .a [] [], .connect .a, .status .a, .status .b, .deliver .b ⟨0, "", none⟩,
    .deliver .a ⟨0, "", none⟩]

/-- Two clients at rest, both with a ready active session. -/
def restingSessions (p : Pair N) : Option (NoiseSession N × NoiseSession N) :=
  if p.Quiet then
    match p.a.client.activeSession, p.b.client.activeSession with
    | some sA, some sB => if sA.ready && sB.ready then some (sA, sB) else none
    | _, _ => none
  else none

theorem restingSessions_eq_some {p : Pair N} {sA sB : NoiseSession N}
    (h : p.restingSessions = some (sA, sB)) : p.Quiet ∧ p.a.client.activeSession = some sA
      ∧ p.b.client.activeSession = some sB ∧ sA.ready = true ∧ sB.ready = true := by
  unfold restingSessions at h
  split_ifs at h with hq
  rcases hA : p.a.client.activeSession with _ | s <;>
    rcases hB : p.b.client.activeSession with _ | s' <;> simp only [hA, hB, reduceCtorEq] at h
  split_ifs at h with hr
  cases h
  simp only [Bool.and_eq_true] at hr
  exact ⟨hq, rfl, rfl, hr⟩

/-- The connection of `a` drops with its `msg3` in flight. After the reconnect, the `msg1` of the
next rekey is read, and refused, in the place of that `msg3`. The pair is at rest, with both sessions
ready and of two handshakes. -/
theorem quiet_unmatched :
    ∃ p sA sB, Lts.run Pair.step linkedPair (rekeyUpToMsg3 ++ [PairLabel.drop .a [] [], .connect .a,
        .status .a, .status .b, .deliver .b ⟨0, "", none⟩]) = some p
      ∧ p.Quiet ∧ p.a.client.activeSession = some sA ∧ p.b.client.activeSession = some sB
      ∧ sA.ready = true ∧ sB.ready = true ∧ ¬ Matched sA sB := by
  have h : ((Lts.run Pair.step linkedPair (rekeyUpToMsg3 ++ [PairLabel.drop .a [] [], .connect .a,
      .status .a, .status .b, .deliver .b ⟨0, "", none⟩])).bind restingSessions).any
        fun s => decide (¬ Matched s.1 s.2) := by
    decide +kernel
  obtain ⟨⟨sA, sB⟩, hrest, hnot⟩ := (Option.any_eq_true ..).1 h
  obtain ⟨p, hrun, hp⟩ := Option.bind_eq_some_iff.1 hrest
  obtain ⟨hq, hA, hB, hrA, hrB⟩ := restingSessions_eq_some hp
  exact ⟨p, sA, sB, hrun, hq, hA, hB, hrA, hrB, of_decide_eq_true hnot⟩

theorem matched_of_quiet_rekeyed :
    ∃ p sA sB, Lts.run Pair.step linkedPair (rekeyUpToMsg3 ++ [PairLabel.deliver .b ⟨0, "", none⟩]) = some p
      ∧ p.Quiet ∧ p.a.client.activeSession = some sA ∧ p.b.client.activeSession = some sB
      ∧ Matched sA sB := by
  have h : ((Lts.run Pair.step linkedPair (rekeyUpToMsg3 ++ [PairLabel.deliver .b ⟨0, "", none⟩])).bind
      restingSessions).isSome := by
    decide +kernel
  obtain ⟨⟨sA, sB⟩, hrest⟩ := Option.isSome_iff_exists.1 h
  obtain ⟨p, hrun, hp⟩ := Option.bind_eq_some_iff.1 hrest
  obtain ⟨hq, hA, hB, -⟩ := restingSessions_eq_some hp
  exact ⟨p, sA, sB, hrun, hq, hA, hB, matched_of_quiet plainNoise_xx linkedPair p linkedPair_shares _
    (by decide +kernel) hrun hq sA sB hA hB⟩

end Pair

end Relayly.Go
