import Relayly.Lib.Run
import Relayly.Sdk.Client
import Relayly.PlainNoise
import Mathlib.Order.Nat
import Mathlib.Data.List.Perm.Basic

/-!
# Rejected sessions in the ports

A session stands in one slot at most, and a resolution that rejects a rekey empties the slot its
session stands in. So a rejected rekey is out of reach of `send` and of transport envelopes. The
slot of a first handshake is left as it is: the session it rejects stays active, and ready.
-/

namespace Relayly.Sdk

variable {N : Noise}

/-- The pending slot or the active one. -/
def PeerConn.slot (conn : PeerConn) : Bool → Option ℕ
  | true => conn.pending
  | false => conn.active

/-- The session in a slot of connection `p`. -/
def slotAt (conns : List PeerConn) (p : ℕ) (b : Bool) : Option ℕ :=
  conns[p]?.bind (·.slot b)

theorem slotAt_set {conns : List PeerConn} {p : ℕ} {conn : PeerConn} (hp : conns[p]? = some conn)
    (conn' : PeerConn) (q : ℕ) (b : Bool) :
    slotAt (conns.set p conn') q b = if q = p then conn'.slot b else slotAt conns q b := by
  have hlt := (List.getElem?_eq_some_iff.1 hp).1
  unfold slotAt
  split_ifs with h
  · subst h
    rw [List.getElem?_set_self hlt]
    rfl
  · rw [List.getElem?_set_ne (Ne.symm h)]

theorem slotAt_set_same {conns : List PeerConn} {p : ℕ} {conn conn' : PeerConn}
    (hp : conns[p]? = some conn) (h : ∀ b, conn'.slot b = conn.slot b) (q : ℕ) (b : Bool) :
    slotAt (conns.set p conn') q b = slotAt conns q b := by
  rw [slotAt_set hp]
  split_ifs with hq
  · subst hq
    rw [h, slotAt, hp]
    rfl
  · rfl

theorem slotAt_append {conns : List PeerConn} {conn : PeerConn} (h : ∀ b, conn.slot b = none)
    (q : ℕ) (b : Bool) : slotAt (conns ++ [conn]) q b = slotAt conns q b := by
  unfold slotAt
  rcases lt_trichotomy q conns.length with hq | rfl | hq
  · rw [List.getElem?_append_left hq]
  · simp [h]
  · rw [List.getElem?_eq_none (by simp; omega), List.getElem?_eq_none (by omega)]

namespace Session

/-- In TypeScript only a session at its handshake takes a message. -/
theorem handleHandshakeMessage_ts {s : Session N} {data : Bytes} {r : Session N × Option Bytes}
    (h : s.handleHandshakeMessage .ts data = some r) : s.status = .handshaking := by
  by_contra hst
  simp [handleHandshakeMessage, handleTs, hst] at h

theorem encrypt_status {s s' : Session N} {payload ciphertext : Bytes}
    (h : s.encrypt payload = some (ciphertext, s')) : s'.status = s.status := by
  unfold encrypt at h
  split at h
  · cases h
  · split at h
    · cases h
    · split at h
      · cases h
        rfl
      · cases h

theorem decrypt_status {s s' : Session N} {ciphertext plaintext : Bytes}
    (h : s.decrypt ciphertext = some (plaintext, s')) : s'.status = s.status := by
  unfold decrypt at h
  split at h
  · cases h
  · split at h
    · cases h
    · split at h
      · cases h
        rfl
      · cases h

end Session

namespace Client

/-- The session in a slot of connection `p` of the client. -/
def slot (c : Client N) (p : ℕ) (b : Bool) : Option ℕ := slotAt c.conns p b

/-- Sessions stand in one slot at most, those being resolved as a rekey in the pending slot of
their connection or nowhere, and rejected ones nowhere. -/
structure Inv (port : Port) (c : Client N) : Prop where
  slot_lt : ∀ {p b i}, c.slot p b = some i → i < c.sessions.length
  slot_inj : ∀ {p b q b' i}, c.slot p b = some i → c.slot q b' = some i → p = q ∧ b = b'
  out_lt : ∀ r ∈ c.outstanding, r.session < c.sessions.length
  out_settled : ∀ r ∈ c.outstanding, ∀ s, c.sessions[r.session]? = some s →
    s.status ≠ .handshaking
  out_nodup : (c.outstanding.map Resolution.session).Nodup
  out_place : ∀ r ∈ c.outstanding, r.wasPending = true → ∀ {p b}, c.slot p b = some r.session →
    p = r.conn ∧ b = true
  out_pending : port ≠ .ts → ∀ r ∈ c.outstanding, r.wasPending = true →
    c.slot r.conn true = some r.session
  rejected_lt : ∀ i ∈ c.rejected, i < c.sessions.length
  rejected_slot : ∀ i ∈ c.rejected, ∀ p b, c.slot p b ≠ some i
  rejected_out : ∀ i ∈ c.rejected, ∀ r ∈ c.outstanding, r.session ≠ i

/-- Sessions are added and those being resolved keep their status; no resolution starts or ends. -/
structure Keeps (c c' : Client N) : Prop where
  length : c.sessions.length ≤ c'.sessions.length
  status : ∀ r ∈ c.outstanding, ∀ s', c'.sessions[r.session]? = some s' →
    r.session < c.sessions.length → ∃ s, c.sessions[r.session]? = some s ∧ s'.status = s.status
  outstanding : c'.outstanding = c.outstanding
  rejected : c'.rejected = c.rejected

theorem Keeps.of_eq {c c' : Client N} (hs : c'.sessions = c.sessions)
    (ho : c'.outstanding = c.outstanding) (hr : c'.rejected = c.rejected) : c.Keeps c' :=
  ⟨by rw [hs], fun _ _ _ h _ => ⟨_, by rw [← hs]; exact h, Eq.refl _⟩, ho, hr⟩

theorem Inv.keeps {port : Port} {c c' : Client N} (h : Inv port c) (hk : c.Keeps c')
    (hslot : ∀ p b i, c'.slot p b = some i → c.slot p b = some i
      ∨ (i = c.sessions.length ∧ i < c'.sessions.length ∧ ∀ q b', c'.slot q b' = some i →
        q = p ∧ b' = b))
    (hback : port ≠ .ts → c.outstanding ≠ [] → ∀ p b, c'.slot p b = c.slot p b) :
    Inv port c' where
  slot_lt := by
    intro p b i hi
    rcases hslot p b i hi with hold | ⟨-, hlt, -⟩
    · exact (h.slot_lt hold).trans_le hk.length
    · exact hlt
  slot_inj := by
    intro p b q b' i hi hi'
    rcases hslot p b i hi with hold | ⟨rfl, -, hnew⟩
    · rcases hslot q b' i hi' with hold' | ⟨rfl, -, -⟩
      · exact h.slot_inj hold hold'
      · exact absurd (h.slot_lt hold) (lt_irrefl _)
    · obtain ⟨rfl, rfl⟩ := hnew q b' hi'
      exact ⟨Eq.refl _, Eq.refl _⟩
  out_lt := by
    intro r hr
    rw [hk.outstanding] at hr
    exact (h.out_lt r hr).trans_le hk.length
  out_settled := by
    intro r hr s' hs'
    rw [hk.outstanding] at hr
    obtain ⟨s, hs, hst⟩ := hk.status r hr s' hs' (h.out_lt r hr)
    rw [hst]
    exact h.out_settled r hr s hs
  out_nodup := by
    rw [hk.outstanding]
    exact h.out_nodup
  out_place := by
    intro r hr hw p b hi
    rw [hk.outstanding] at hr
    rcases hslot p b _ hi with hold | ⟨heq, -, -⟩
    · exact h.out_place r hr hw hold
    · exact absurd (h.out_lt r hr) (by omega)
  out_pending := by
    intro hport r hr hw
    rw [hk.outstanding] at hr
    rw [hback hport (List.ne_nil_of_mem hr)]
    exact h.out_pending hport r hr hw
  rejected_lt := by
    intro i hi
    rw [hk.rejected] at hi
    exact (h.rejected_lt i hi).trans_le hk.length
  rejected_slot := by
    intro i hi p b hp
    rw [hk.rejected] at hi
    rcases hslot p b i hp with hold | ⟨rfl, -, -⟩
    · exact h.rejected_slot i hi p b hold
    · exact absurd (h.rejected_lt _ hi) (lt_irrefl _)
  rejected_out := by
    intro i hi r hr
    rw [hk.rejected] at hi
    rw [hk.outstanding] at hr
    exact h.rejected_out i hi r hr

theorem Inv.same {port : Port} {c c' : Client N} (h : Inv port c) (hk : c.Keeps c')
    (hslot : ∀ p b, c'.slot p b = c.slot p b) : Inv port c' :=
  h.keeps hk (fun p b i hi => Or.inl (by rw [← hslot]; exact hi)) fun _ _ => hslot

/-! ## The frames of the relay -/

/-- The client reads its connection: only TypeScript does with a resolution under way. -/
structure Reading (port : Port) (c : Client N) : Prop where
  inv : Inv port c
  idle : port ≠ .ts → c.outstanding = []

theorem Reading.of_reads {port : Port} {c : Client N} (h : Inv port c) (hr : c.reads port = true) :
    Reading port c := by
  refine ⟨h, fun hport => ?_⟩
  simpa [reads, hport] using hr

theorem Reading.same {port : Port} {c c' : Client N} (h : Reading port c) (hk : c.Keeps c')
    (hslot : ∀ p b, c'.slot p b = c.slot p b) : Reading port c' :=
  ⟨h.inv.same hk hslot, fun hport => by rw [hk.outstanding]; exact h.idle hport⟩

/-- A new session in slot `b₀` of connection `p`. -/
theorem Reading.fresh {port : Port} {c c' : Client N} (h : Reading port c) (b₀ : Bool) {p : ℕ}
    {conn conn' : PeerConn} {session : Session N} (hp : c.conns[p]? = some conn)
    (hconns : c'.conns = c.conns.set p conn') (hnew : conn'.slot b₀ = some c.sessions.length)
    (hold : conn'.slot (!b₀) = conn.slot (!b₀)) (hs : c'.sessions = c.sessions ++ [session])
    (ho : c'.outstanding = c.outstanding) (hr : c'.rejected = c.rejected) : Reading port c' := by
  have hslot : ∀ q b, c'.slot q b
      = if q = p ∧ b = b₀ then some c.sessions.length else c.slot q b := by
    intro q b
    simp only [slot, hconns, slotAt_set hp]
    by_cases hq : q = p
    · subst hq
      by_cases hb : b = b₀
      · subst hb
        simp [hnew]
      · obtain rfl : b = !b₀ := by
          cases b <;> cases b₀ <;> simp_all
        simp [hold, slotAt, hp]
    · simp [hq]
  have hk : c.Keeps c' := by
    refine ⟨by simp [hs], fun r _ s' hs' hlt => ⟨s', ?_, Eq.refl _⟩, ho, hr⟩
    rwa [hs, List.getElem?_append_left hlt] at hs'
  refine ⟨h.inv.keeps hk (fun q b i hi => ?_) fun hport hne => absurd (h.idle hport) hne,
    fun hport => by rw [ho]; exact h.idle hport⟩
  rw [hslot] at hi
  split_ifs at hi with hqb
  · obtain rfl := Option.some.inj hi
    refine Or.inr ⟨Eq.refl _, by simp [hs], fun q' b' hi' => ?_⟩
    rw [hslot] at hi'
    split_ifs at hi' with hqb'
    · exact ⟨hqb'.1.trans hqb.1.symm, hqb'.2.trans hqb.2.symm⟩
    · exact absurd (h.inv.slot_lt hi') (lt_irrefl _)
  · exact Or.inl hi

theorem Reading.link {port : Port} {c : Client N} (h : Reading port c) (id announced : String) :
    Reading port (c.link port id announced) := by
  unfold Client.link
  split
  · exact h
  · refine h.same (Keeps.of_eq (Eq.refl _) (Eq.refl _) (Eq.refl _)) fun p b => slotAt_append ?_ p b
    intro b
    cases b <;> rfl

theorem Reading.handleWelcome {port : Port} : ∀ (peers : List (String × String)) {c : Client N},
    Reading port c → Reading port (c.handleWelcome port peers)
  | [], _, h => h
  | p :: peers, c, h => by
    have h1 : Reading port (if p.1 = "" ∧ port = .py then c else c.link port p.1 p.2) := by
      split_ifs
      · exact h
      · exact h.link p.1 p.2
    exact Reading.handleWelcome peers h1

theorem Reading.startAsInitiator {port : Port} {c : Client N} (h : Reading port c) (p : ℕ) :
    Reading port (c.startAsInitiator p) := by
  unfold Client.startAsInitiator
  split
  · rename_i conn session msg1 hp hnew
    exact h.fresh false hp (Eq.refl _) (Eq.refl _) (Eq.refl _) (Eq.refl _) (Eq.refl _)
      (Eq.refl _)
  · exact h

theorem Reading.startRekeyAsInitiator {port : Port} {c : Client N} (h : Reading port c) (p : ℕ) :
    Reading port (c.startRekeyAsInitiator p) := by
  unfold Client.startRekeyAsInitiator
  split
  · rename_i conn session msg1 hp hnew
    exact h.fresh true hp (Eq.refl _) (Eq.refl _) (Eq.refl _) (Eq.refl _) (Eq.refl _)
      (Eq.refl _)
  · exact h

theorem Reading.setAnnounced {port : Port} {c : Client N} (h : Reading port c) (p : ℕ)
    (key : String) : Reading port (c.setAnnounced p key) := by
  unfold Client.setAnnounced
  split
  · exact h
  · rename_i conn hp
    refine h.same (Keeps.of_eq (Eq.refl _) (Eq.refl _) (Eq.refl _)) (slotAt_set_same hp ?_)
    intro b
    cases b <;> rfl

theorem Reading.updateAnnounced {port : Port} {c : Client N} (h : Reading port c) (id : String)
    (key : Option String) : Reading port (c.updateAnnounced port id key) := by
  unfold Client.updateAnnounced
  split
  · exact h.link _ _
  · split
    · exact h.setAnnounced _ _
    · exact h.setAnnounced _ _
    · exact h.setAnnounced _ _
    · exact h
    · exact h

theorem Reading.dropWaiter {port : Port} {c : Client N} (h : Reading port c) (code : String) :
    Reading port (c.dropWaiter code) :=
  h.same (Keeps.of_eq (Eq.refl _) (Eq.refl _) (Eq.refl _)) fun _ _ => Eq.refl _

theorem Reading.initiateIf {port : Port} {c : Client N} (h : Reading port c) (id : String)
    (weAreAcceptor : Bool) : Reading port (c.initiateIf id weAreAcceptor) := by
  unfold Client.initiateIf
  split
  · exact h.startAsInitiator _
  · exact h

theorem Reading.handlePairComplete {port : Port} {c : Client N} (h : Reading port c)
    (peerID code key : Option String) : Reading port (c.handlePairComplete port peerID code key) := by
  unfold Client.handlePairComplete
  split
  · split
    · exact h
    · exact ((h.dropWaiter _).updateAnnounced _ _).initiateIf _ _
  · split
    · exact h
    · split_ifs
      · exact h
      · exact h.updateAnnounced _ _
      · exact ((h.dropWaiter _).updateAnnounced _ _).initiateIf _ _

theorem Reading.handlePeerStatus {port : Port} {c : Client N} (h : Reading port c)
    (peerID : Option String) (online : Bool) : Reading port (c.handlePeerStatus peerID online) := by
  unfold Client.handlePeerStatus
  repeat' split
  all_goals first | exact h | exact h.startRekeyAsInitiator _

/-- The session selected stands in the slot the selection names. -/
theorem Reading.selectSession {port : Port} {c : Client N} (h : Reading port c) {p : ℕ}
    {conn : PeerConn} (hp : c.conns[p]? = some conn) (now : ℕ) :
    Reading port (c.selectSession p conn now).1
      ∧ ∀ i w, (c.selectSession p conn now).2 = some (i, w) →
        (c.selectSession p conn now).1.slot p w = some i := by
  have hlt := (List.getElem?_eq_some_iff.1 hp).1
  unfold Client.selectSession
  split
  · rename_i i active hpend
    refine ⟨h, ?_⟩
    rintro j w ⟨⟩
    simp [slot, slotAt, hp, PeerConn.slot, hpend]
  · split
    · exact ⟨h, by simp⟩
    · refine ⟨h.fresh false hp (Eq.refl _) (Eq.refl _) (Eq.refl _) (Eq.refl _) (Eq.refl _)
        (Eq.refl _), ?_⟩
      rintro j w ⟨⟩
      simp [slot, slotAt_set hp, PeerConn.slot]
  · rename_i i hpend hact
    split_ifs
    · refine ⟨h, ?_⟩
      rintro j w ⟨⟩
      simp [slot, slotAt, hp, PeerConn.slot, hact]
    · exact ⟨h, by simp⟩
    · split
      · refine ⟨h.same (Keeps.of_eq (Eq.refl _) (Eq.refl _) (Eq.refl _)) (slotAt_set_same hp ?_),
          by simp⟩
        intro b
        cases b <;> rfl
      · refine ⟨h.fresh true hp (Eq.refl _) (Eq.refl _) (Eq.refl _) (Eq.refl _) (Eq.refl _)
          (Eq.refl _), ?_⟩
        rintro j w ⟨⟩
        simp [slot, slotAt_set hp, PeerConn.slot]

/-- A session that is not being resolved may change. -/
theorem Inv.setSession {port : Port} {c : Client N} (h : Inv port c) {i : ℕ}
    (hout : ∀ r ∈ c.outstanding, r.session ≠ i) (s : Session N) (sent : List Bytes) :
    Inv port { c.setSession i s with sent } := by
  refine h.same ⟨by simp [Client.setSession], fun r hr s' hs' _ => ⟨s', ?_, Eq.refl _⟩, Eq.refl _,
    Eq.refl _⟩ fun _ _ => Eq.refl _
  have hne := hout r hr
  simpa [Client.setSession, List.getElem?_set_ne (Ne.symm hne)] using hs'

/-- A session that has ended is to be resolved, from the slot it stands in. -/
theorem Inv.addOutstanding {port : Port} {c : Client N} (h : Inv port c) {p i : ℕ} {w : Bool}
    (hi : c.slot p w = some i) (hout : ∀ r ∈ c.outstanding, r.session ≠ i)
    (hst : ∀ s, c.sessions[i]? = some s → s.status ≠ .handshaking) :
    Inv port { c with
      outstanding := c.outstanding ++ [{ conn := p, session := i, wasPending := w }] } where
  slot_lt := h.slot_lt
  slot_inj := h.slot_inj
  out_lt := by
    intro r hr
    rcases List.mem_append.1 hr with hr | hr
    · exact h.out_lt r hr
    · obtain rfl := List.mem_singleton.1 hr
      exact h.slot_lt hi
  out_settled := by
    intro r hr
    rcases List.mem_append.1 hr with hr | hr
    · exact h.out_settled r hr
    · obtain rfl := List.mem_singleton.1 hr
      exact hst
  out_nodup := by
    rw [List.map_append, List.nodup_append]
    refine ⟨h.out_nodup, by simp, fun a ha b hb => ?_⟩
    obtain ⟨r, hr, rfl⟩ := List.mem_map.1 ha
    simp only [List.map_cons, List.map_nil, List.mem_singleton] at hb
    rw [hb]
    exact hout r hr
  out_place := by
    intro r hr hw q b hq
    rcases List.mem_append.1 hr with hr | hr
    · exact h.out_place r hr hw hq
    · obtain rfl := List.mem_singleton.1 hr
      obtain ⟨rfl, rfl⟩ := h.slot_inj hq hi
      exact ⟨Eq.refl _, hw⟩
  out_pending := by
    intro hport r hr hw
    rcases List.mem_append.1 hr with hr | hr
    · exact h.out_pending hport r hr hw
    · obtain rfl := List.mem_singleton.1 hr
      obtain rfl : w = true := hw
      exact hi
  rejected_lt := h.rejected_lt
  rejected_slot := h.rejected_slot
  rejected_out := by
    intro j hj r hr
    rcases List.mem_append.1 hr with hr | hr
    · exact h.rejected_out j hj r hr
    · obtain rfl := List.mem_singleton.1 hr
      rintro rfl
      exact h.rejected_slot _ hj p w hi

theorem Reading.feedSession {port : Port} {c : Client N} (h : Reading port c) {p i : ℕ} {w : Bool}
    (hi : c.slot p w = some i) (data : Bytes) : Inv port (c.feedSession port p i w data) := by
  unfold Client.feedSession
  rcases hs : c.sessions[i]? with _ | s
  · exact h.inv
  rcases hm : s.handleHandshakeMessage port data with _ | ⟨s', reply⟩
  · simp only [Option.bind_some, hm]
    exact h.inv
  simp only [Option.bind_some, hm]
  have hout : ∀ r ∈ c.outstanding, r.session ≠ i := by
    intro r hr hri
    have hts : port = .ts := by
      by_contra hport
      rw [h.idle hport] at hr
      cases hr
    subst hts hri
    exact h.inv.out_settled r hr s hs (Session.handleHandshakeMessage_ts hm)
  have hset := h.inv.setSession hout s'
    (c.sent ++ (reply.map (encodeEnvelope envelopeHandshake)).toList)
  by_cases hst : s'.status = .handshaking
  · rw [if_pos hst]
    exact hset
  · rw [if_neg hst]
    refine hset.addOutstanding hi hout fun s'' hs'' => ?_
    simp only [Client.setSession, List.getElem?_set_self (h.inv.slot_lt hi),
      Option.some.injEq] at hs''
    rw [← hs'']
    exact hst

theorem Reading.handleHandshakeEnvelope {port : Port} {c : Client N} (h : Reading port c)
    (pick now : ℕ) (data : Bytes) : Inv port (c.handleHandshakeEnvelope port pick now data) := by
  unfold Client.handleHandshakeEnvelope
  split
  · exact h.inv
  · rename_i p hpick
    split
    · exact h.inv
    · rename_i conn hp
      obtain ⟨h1, hsel⟩ := h.selectSession hp now
      split
      · rename_i c₁ i w hc
        rw [hc] at h1 hsel
        exact h1.feedSession (hsel i w (Eq.refl _)) data
      · rename_i c₁ hc
        rw [hc] at h1
        exact h1.inv

/-! ## Transport -/

/-- A session whose status stays may change. -/
theorem Inv.setSession_status {port : Port} {c : Client N} (h : Inv port c) {i : ℕ}
    {s s' : Session N} (hs : c.sessions[i]? = some s) (hst : s'.status = s.status)
    (sent : List Bytes) : Inv port { c.setSession i s' with sent } := by
  refine h.same ⟨by simp [Client.setSession], fun r hr t ht _ => ?_, Eq.refl _, Eq.refl _⟩
    fun _ _ => Eq.refl _
  by_cases hri : r.session = i
  · refine ⟨s, by rw [hri]; exact hs, ?_⟩
    simp only [Client.setSession, hri,
      List.getElem?_set_self (List.getElem?_eq_some_iff.1 hs).1, Option.some.injEq] at ht
    rw [← ht]
    exact hst
  · refine ⟨t, ?_, Eq.refl _⟩
    simpa [Client.setSession, List.getElem?_set_ne (Ne.symm hri)] using ht

/-- `send` encrypts under the session of an active slot. -/
theorem encryptTo_eq_some {c : Client N} {peerID : String} {payload ciphertext : Bytes} {i : ℕ}
    {s' : Session N} (h : c.encryptTo peerID payload = some (i, ciphertext, s')) :
    (∃ p, c.slot p false = some i)
      ∧ ∃ s, c.sessions[i]? = some s ∧ s.encrypt payload = some (ciphertext, s') := by
  simp only [encryptTo, Option.bind_eq_bind, Option.bind_eq_some_iff, Option.some.injEq,
    Prod.mk.injEq, Prod.exists] at h
  obtain ⟨p, -, conn, hp, j, hj, s, hs, ct, s₁, henc, rfl, rfl, rfl⟩ := h
  exact ⟨⟨p, by simp [slot, slotAt, hp, PeerConn.slot, hj]⟩, s, hs, henc⟩

theorem decryptFrom_eq_some {port : Port} {c : Client N} {pick : ℕ} {ciphertext plaintext : Bytes}
    {i : ℕ} {s' : Session N} (h : c.decryptFrom port pick ciphertext = some (i, plaintext, s')) :
    (∃ p, c.slot p false = some i)
      ∧ ∃ s, c.sessions[i]? = some s ∧ s.decrypt ciphertext = some (plaintext, s') := by
  simp only [decryptFrom, Option.bind_eq_bind, Option.bind_eq_some_iff, Option.some.injEq,
    Prod.mk.injEq, Prod.exists] at h
  obtain ⟨p, -, conn, hp, j, hj, s, hs, pt, s₁, hdec, rfl, rfl, rfl⟩ := h
  exact ⟨⟨p, by simp [slot, slotAt, hp, PeerConn.slot, hj]⟩, s, hs, hdec⟩

theorem Inv.send {port : Port} {c : Client N} (h : Inv port c) (peerID : String)
    (payload : Bytes) : Inv port (c.send peerID payload) := by
  unfold Client.send
  split
  · exact h
  · rename_i i ciphertext s' henc
    obtain ⟨-, s, hs, he⟩ := encryptTo_eq_some henc
    exact h.setSession_status hs (Session.encrypt_status he) _

theorem Inv.handleTransportEnvelope {port : Port} {c : Client N} (h : Inv port c) (pick : ℕ)
    (ciphertext : Bytes) : Inv port (c.handleTransportEnvelope port pick ciphertext) := by
  unfold Client.handleTransportEnvelope
  split
  · exact h
  · rename_i i plaintext s' hdec
    obtain ⟨-, s, hs, hd⟩ := decryptFrom_eq_some hdec
    exact h.setSession_status hs (Session.decrypt_status hd) c.sent

/-! ## Resolutions -/

theorem Inv.pinStep {port : Port} {c c' : Client N} (h : Inv port c) {k : ℕ} {stamp : String}
    {fault : Option StoreFault} (hstep : c.pinStep port k stamp fault = some c') : Inv port c' := by
  unfold Client.pinStep at hstep
  split at hstep
  · cases hstep
  rename_i r hr
  split at hstep
  · rename_i conn i hs got send recv key hpin hconn hsess
    simp only [Option.some.injEq] at hstep
    subst hstep
    set r' : Resolution := { r with
      pin := some (c.store.pinOrVerify conn.id (encodeBase64 key) stamp fault).2
      announced := if port = .cpp then some conn.announcedStaticKey else none }
    have hmem : ∀ t ∈ c.outstanding.set k r', ∃ t₀ ∈ c.outstanding,
        t₀.conn = t.conn ∧ t₀.session = t.session ∧ t₀.wasPending = t.wasPending := by
      intro t ht
      rcases List.mem_or_eq_of_mem_set ht with ht | rfl
      · exact ⟨t, ht, Eq.refl _, Eq.refl _, Eq.refl _⟩
      · exact ⟨r, List.mem_of_getElem? hr, Eq.refl _, Eq.refl _, Eq.refl _⟩
    refine ⟨h.slot_lt, h.slot_inj, ?_, ?_, ?_, ?_, ?_, h.rejected_lt, h.rejected_slot, ?_⟩
    · intro t ht
      obtain ⟨t₀, ht₀, -, hses, -⟩ := hmem t ht
      rw [← hses]
      exact h.out_lt t₀ ht₀
    · intro t ht
      obtain ⟨t₀, ht₀, -, hses, -⟩ := hmem t ht
      rw [← hses]
      exact h.out_settled t₀ ht₀
    · have hmap : (c.outstanding.set k r').map Resolution.session
          = c.outstanding.map Resolution.session := by
        rw [List.map_set]
        refine List.ext_getElem? fun j => ?_
        by_cases hj : k = j
        · subst hj
          have hlt := (List.getElem?_eq_some_iff.1 hr).1
          rw [List.getElem?_set_self (by simpa using hlt), List.getElem?_map, hr]
          rfl
        · rw [List.getElem?_set_ne hj]
      rw [hmap]
      exact h.out_nodup
    · intro t ht hw p b hp
      obtain ⟨t₀, ht₀, hconn', hses, hwas⟩ := hmem t ht
      rw [← hconn']
      rw [← hses] at hp
      exact h.out_place t₀ ht₀ (hwas.trans hw) hp
    · intro hport t ht hw
      obtain ⟨t₀, ht₀, hconn', hses, hwas⟩ := hmem t ht
      rw [← hconn', ← hses]
      exact h.out_pending hport t₀ ht₀ (hwas.trans hw)
    · intro i hi t ht
      obtain ⟨t₀, ht₀, -, hses, -⟩ := hmem t ht
      rw [← hses]
      exact h.rejected_out i hi t₀ ht₀
  · cases hstep

theorem outstanding_ne {port : Port} {c : Client N} (h : Inv port c) {k : ℕ} {r t : Resolution}
    (hr : c.outstanding[k]? = some r) (ht : t ∈ c.outstanding.eraseIdx k) :
    t.session ≠ r.session := by
  obtain ⟨hlt, hget⟩ := List.getElem?_eq_some_iff.1 hr
  have hperm := (List.getElem_cons_eraseIdx_perm hlt).map Resolution.session
  have hnd := (hperm.nodup_iff).2 h.out_nodup
  rw [List.map_cons, List.nodup_cons, hget] at hnd
  intro heq
  exact hnd.1 (heq ▸ List.mem_map_of_mem ht)

/-- The end of resolution `k`: its session moves to the active slot of its connection, or slots
are emptied; where it is rejected it stands in none. -/
theorem Inv.settle {port : Port} {c c₁ : Client N} (h : Inv port c) {k : ℕ} {r : Resolution}
    (hr : c.outstanding[k]? = some r) (hsess : c₁.sessions = c.sessions) (reject : Bool)
    (hslot : ∀ q b j, c₁.slot q b = some j → c.slot q b = some j ∨ (j = r.session ∧ q = r.conn
      ∧ b = false ∧ c.slot r.conn true = some r.session ∧ c₁.slot r.conn true = none))
    (hback : ∀ q j, c.slot q true = some j → j ≠ r.session → c₁.slot q true = some j)
    (hrej : reject = true → ∀ q b, c₁.slot q b ≠ some r.session) :
    Inv port { c₁ with
      outstanding := c.outstanding.eraseIdx k
      rejected := if reject then r.session :: c.rejected else c.rejected } := by
  have hrm := List.mem_of_getElem? hr
  have hsub : ∀ {t}, t ∈ c.outstanding.eraseIdx k → t ∈ c.outstanding := List.mem_of_mem_eraseIdx
  have hmem : ∀ {j}, j ∈ (if reject = true then r.session :: c.rejected else c.rejected) →
      (reject = true ∧ j = r.session) ∨ j ∈ c.rejected := by
    intro j hj
    split_ifs at hj with hb
    · rcases List.mem_cons.1 hj with rfl | hj
      · exact Or.inl ⟨hb, Eq.refl _⟩
      · exact Or.inr hj
    · exact Or.inr hj
  refine ⟨?_, ?_, ?_, ?_, ?_, ?_, ?_, ?_, ?_, ?_⟩
  · intro q b j hj
    dsimp only at hj ⊢
    rw [hsess]
    rcases hslot q b j hj with hold | ⟨rfl, -⟩
    · exact h.slot_lt hold
    · exact h.out_lt r hrm
  · intro q b q' b' j hj hj'
    rcases hslot q b j hj with hold | ⟨rfl, rfl, rfl, hwas, hnone⟩
    · rcases hslot q' b' j hj' with hold' | ⟨rfl, rfl, rfl, hwas, hnone⟩
      · exact h.slot_inj hold hold'
      · obtain ⟨rfl, rfl⟩ := h.slot_inj hold hwas
        exact absurd (hj.symm.trans hnone) (by simp)
    · rcases hslot q' b' _ hj' with hold' | ⟨-, rfl, rfl, -, -⟩
      · obtain ⟨rfl, rfl⟩ := h.slot_inj hold' hwas
        exact absurd (hj'.symm.trans hnone) (by simp)
      · exact ⟨Eq.refl _, Eq.refl _⟩
  · intro t ht
    dsimp only
    rw [hsess]
    exact h.out_lt t (hsub ht)
  · intro t ht s hs
    dsimp only at hs
    rw [hsess] at hs
    exact h.out_settled t (hsub ht) s hs
  · exact h.out_nodup.sublist ((List.eraseIdx_sublist _ _).map _)
  · intro t ht hw q b hq
    rcases hslot q b _ hq with hold | ⟨heq, -⟩
    · exact h.out_place t (hsub ht) hw hold
    · exact absurd heq (outstanding_ne h hr ht)
  · intro hport t ht hw
    exact hback _ _ (h.out_pending hport t (hsub ht) hw) (outstanding_ne h hr ht)
  · intro j hj
    dsimp only
    rw [hsess]
    rcases hmem hj with ⟨-, rfl⟩ | hj
    · exact h.out_lt r hrm
    · exact h.rejected_lt j hj
  · intro j hj q b hq
    rcases hmem hj with ⟨hb, rfl⟩ | hj
    · exact hrej hb q b hq
    · rcases hslot q b j hq with hold | ⟨rfl, -⟩
      · exact h.rejected_slot j hj q b hold
      · exact h.rejected_out _ hj r hrm (Eq.refl _)
  · intro j hj t ht
    rcases hmem hj with ⟨-, rfl⟩ | hj
    · exact outstanding_ne h hr ht
    · exact h.rejected_out j hj t (hsub ht)

theorem promote_slot {port : Port} {c : Client N} {p i : ℕ} {conn : PeerConn}
    (hp : c.conns[p]? = some conn) (hpend : conn.pending = some i) (q : ℕ) (b : Bool) :
    (c.promote port p i).slot q b
      = if q = p then (if b = true then none else some i) else c.slot q b := by
  have hprom : c.promote port p i = c.setConn p { conn with active := some i, pending := none } := by
    unfold promote
    rw [hp]
    cases port <;> simp [hpend]
  rw [hprom]
  simp only [slot, setConn, slotAt_set hp]
  cases b <;> rfl

theorem abandon_slot {port : Port} {c : Client N} {p i : ℕ} {conn : PeerConn}
    (hp : c.conns[p]? = some conn) (hpend : conn.pending = some i) (q : ℕ) (b : Bool) :
    (c.abandon port p i).slot q b = if q = p ∧ b = true then none else c.slot q b := by
  have hab : c.abandon port p i = c.setConn p { conn with pending := none } := by
    unfold abandon
    rw [hp]
    cases port <;> simp [hpend]
  rw [hab]
  simp only [slot, setConn, slotAt_set hp]
  by_cases hq : q = p
  · subst hq
    cases b <;> simp [PeerConn.slot, slotAt, hp]
  · simp [hq]

/-- A slot in the pending place of the resolution's connection holds its session or, in TypeScript,
another one; then the session stands nowhere. -/
theorem Inv.pending_or_nowhere {port : Port} {c : Client N} (h : Inv port c) {r : Resolution}
    (hr : r ∈ c.outstanding) (hw : r.wasPending = true) {conn : PeerConn}
    (hconn : c.conns[r.conn]? = some conn) :
    conn.pending = some r.session
      ∨ (port = .ts ∧ conn.pending ≠ some r.session ∧ ∀ q b, c.slot q b ≠ some r.session) := by
  by_cases hpend : conn.pending = some r.session
  · exact Or.inl hpend
  have hne : c.slot r.conn true ≠ some r.session := by
    simpa [slot, slotAt, hconn, PeerConn.slot] using hpend
  refine Or.inr ⟨?_, hpend, fun q b hq => ?_⟩
  · by_contra hport
    exact hne (h.out_pending hport r hr hw)
  · obtain ⟨rfl, rfl⟩ := h.out_place r hr hw hq
    exact hne hq

theorem applyVerdict_sessions (port : Port) (c : Client N) (r : Resolution) (v : Verdict) :
    (c.applyVerdict port r v).sessions = c.sessions := by
  unfold applyVerdict promote abandon
  repeat' split
  all_goals rfl

/-- What a verdict does to the slots: nothing, or an accepted rekey takes the active slot, or the
pending slot is emptied. -/
theorem Inv.applyVerdict_slot {port : Port} {c : Client N} (h : Inv port c) {r : Resolution}
    (hr : r ∈ c.outstanding) {conn : PeerConn} (hconn : c.conns[r.conn]? = some conn)
    (v : Verdict) :
    ((∀ q b, (c.applyVerdict port r v).slot q b = c.slot q b)
        ∧ (v.rejects = true → r.wasPending = true → ∀ q b, c.slot q b ≠ some r.session))
      ∨ (v = .accepted ∧ c.slot r.conn true = some r.session
        ∧ ∀ q b, (c.applyVerdict port r v).slot q b
          = if q = r.conn then (if b = true then none else some r.session) else c.slot q b)
      ∨ (r.wasPending = true ∧ c.slot r.conn true = some r.session
        ∧ ∀ q b, (c.applyVerdict port r v).slot q b
          = if q = r.conn ∧ b = true then none else c.slot q b) := by
  unfold applyVerdict
  split_ifs with hpy hw hacc
  · refine Or.inl ⟨fun _ _ => rfl, fun hrej => ?_⟩
    rw [hpy.1] at hrej
    cases hrej
  · refine Or.inl ⟨fun _ _ => rfl, fun _ hwas => ?_⟩
    simp [hwas] at hw
  · have hwas : r.wasPending = true := by simpa using hw
    rcases h.pending_or_nowhere hr hwas hconn with hpend | ⟨rfl, hpend, hnowhere⟩
    · refine Or.inr (Or.inl ⟨hacc, ?_, promote_slot hconn hpend⟩)
      simp [slot, slotAt, hconn, PeerConn.slot, hpend]
    · have hno : c.promote .ts r.conn r.session = c := by
        simp [promote, hconn, hpend]
      rw [hno]
      exact Or.inl ⟨fun _ _ => rfl, fun _ _ => hnowhere⟩
  · have hwas : r.wasPending = true := by simpa using hw
    rcases h.pending_or_nowhere hr hwas hconn with hpend | ⟨rfl, hpend, hnowhere⟩
    · refine Or.inr (Or.inr ⟨hwas, ?_, abandon_slot hconn hpend⟩)
      simp [slot, slotAt, hconn, PeerConn.slot, hpend]
    · have hno : c.abandon .ts r.conn r.session = c := by
        simp [abandon, hconn, hpend]
      rw [hno]
      exact Or.inl ⟨fun _ _ => rfl, fun _ _ => hnowhere⟩

theorem Inv.settleStep {port : Port} {c c' : Client N} (h : Inv port c) {k : ℕ}
    (hcond : ∀ r ∈ c.outstanding[k]?, ∀ v ∈ c.verdict r, v.rejects = true → r.wasPending = true)
    (hstep : c.settleStep port k = some c') : Inv port c' := by
  unfold Client.settleStep at hstep
  split at hstep
  · cases hstep
  rename_i r hr
  obtain ⟨v, hv, rfl⟩ := Option.map_eq_some_iff.1 hstep
  have hrm := List.mem_of_getElem? hr
  obtain ⟨conn, hconn⟩ : ∃ conn, c.conns[r.conn]? = some conn := by
    rcases hc : c.conns[r.conn]? with _ | conn
    · simp [verdict, hc] at hv
    · exact ⟨conn, rfl⟩
  have hsess := c.applyVerdict_sessions port r v
  rcases h.applyVerdict_slot hrm hconn v with ⟨hsame, hnowhere⟩ | ⟨hacc, hold, hslot⟩
    | ⟨hwas, hold, hslot⟩
  · refine h.settle hr hsess v.rejects (fun q b j hq => Or.inl ?_) (fun q j hq _ => ?_)
      fun hrej q b => ?_
    · rwa [← hsame]
    · rwa [hsame]
    · rw [hsame]
      exact hnowhere hrej (hcond r hr v hv hrej) q b
  · refine h.settle hr hsess v.rejects (fun q b j hq => ?_) (fun q j hq hj => ?_) fun hrej => ?_
    · rw [hslot] at hq
      split_ifs at hq with hqp hb
      · obtain rfl := Option.some.inj hq
        exact Or.inr ⟨Eq.refl _, hqp, by simpa using hb, hold, by simp [hslot]⟩
      · exact Or.inl hq
    · rw [hslot, if_neg]
      · exact hq
      · rintro rfl
        exact hj (Option.some.inj (hq.symm.trans hold))
    · rw [hacc] at hrej
      cases hrej
  · refine h.settle hr hsess v.rejects (fun q b j hq => ?_) (fun q j hq hj => ?_)
      fun _ q b hq => ?_
    · rw [hslot] at hq
      split_ifs at hq
      exact Or.inl hq
    · rw [hslot, if_neg]
      · exact hq
      · rintro ⟨rfl, -⟩
        exact hj (Option.some.inj (hq.symm.trans hold))
    · rw [hslot] at hq
      split_ifs at hq with hqb
      exact hqb (h.out_place r hrm hwas hq)

/-! ## Runs -/

/-- The handshakes that are rejected are rekeys: the session of the resolution that is about to be
settled, if its key does not match, came from the pending slot. -/
def RejectsRekeysOnly (c : Client N) : Event → Prop
  | .settle k => ∀ r ∈ c.outstanding[k]?, ∀ v ∈ c.verdict r, v.rejects = true →
    r.wasPending = true
  | _ => True

instance (c : Client N) : ∀ ev, Decidable (c.RejectsRekeysOnly ev)
  | .settle k => inferInstanceAs (Decidable (∀ r ∈ c.outstanding[k]?, ∀ v ∈ c.verdict r,
      v.rejects = true → r.wasPending = true))
  | .welcome _ | .register _ _ | .pairComplete _ _ _ | .unpaired _ | .peerStatus _ _ | .error
  | .handshake _ _ _ | .transport _ _ | .send _ _ | .pin _ _ _ => inferInstanceAs (Decidable True)

theorem Inv.step {port : Port} {c c' : Client N} {ev : Event} (h : Inv port c)
    (hcond : c.RejectsRekeysOnly ev) (hstep : c.step port ev = some c') : Inv port c' := by
  cases ev with
  | welcome peers =>
    simp only [Client.step, Option.ite_none_right_eq_some, Option.some.injEq] at hstep
    obtain ⟨hr, rfl⟩ := hstep
    exact ((Reading.of_reads h hr).handleWelcome peers).inv
  | register code acceptor =>
    simp only [Client.step, Option.some.injEq] at hstep
    subst hstep
    exact h.same (Keeps.of_eq (Eq.refl _) (Eq.refl _) (Eq.refl _)) fun _ _ => Eq.refl _
  | pairComplete peerID code key =>
    simp only [Client.step, Option.ite_none_right_eq_some, Option.some.injEq] at hstep
    obtain ⟨hr, rfl⟩ := hstep
    exact ((Reading.of_reads h hr).handlePairComplete peerID code key).inv
  | unpaired peerID =>
    simp only [Client.step, Option.ite_none_right_eq_some, Option.some.injEq] at hstep
    obtain ⟨-, rfl⟩ := hstep
    unfold handleUnpaired
    repeat' split
    all_goals exact h.same (Keeps.of_eq (Eq.refl _) (Eq.refl _) (Eq.refl _)) fun _ _ => Eq.refl _
  | peerStatus peerID online =>
    simp only [Client.step, Option.ite_none_right_eq_some, Option.some.injEq] at hstep
    obtain ⟨hr, rfl⟩ := hstep
    exact ((Reading.of_reads h hr).handlePeerStatus peerID online).inv
  | error =>
    simp only [Client.step, Option.ite_none_right_eq_some, Option.some.injEq] at hstep
    obtain ⟨-, rfl⟩ := hstep
    exact h.same (Keeps.of_eq (Eq.refl _) (Eq.refl _) (Eq.refl _)) fun _ _ => Eq.refl _
  | handshake pick now data =>
    simp only [Client.step, Option.ite_none_right_eq_some, Option.some.injEq] at hstep
    obtain ⟨hr, rfl⟩ := hstep
    exact (Reading.of_reads h hr).handleHandshakeEnvelope pick now data
  | transport pick ciphertext =>
    simp only [Client.step, Option.ite_none_right_eq_some, Option.some.injEq] at hstep
    obtain ⟨-, rfl⟩ := hstep
    exact h.handleTransportEnvelope pick ciphertext
  | send peerID payload =>
    simp only [Client.step, Option.ite_none_right_eq_some, Option.some.injEq] at hstep
    obtain ⟨-, rfl⟩ := hstep
    exact h.send peerID payload
  | pin k stamp fault => exact h.pinStep hstep
  | settle k => exact h.settleStep hcond hstep

/-- A client as it is constructed: no peers and no sessions. -/
structure Fresh (c : Client N) : Prop where
  conns : c.conns = []
  sessions : c.sessions = []
  outstanding : c.outstanding = []
  rejected : c.rejected = []

theorem Fresh.inv {c : Client N} (h : c.Fresh) (port : Port) : Inv port c := by
  have hslot : ∀ p b, c.slot p b = none := fun p b => by simp [slot, slotAt, h.conns]
  constructor <;> simp [hslot, h.outstanding, h.rejected]

/-- While only rekeys are rejected, no payload is encrypted and no transport envelope decrypted
under a session whose handshake was rejected. -/
theorem rejected_not_used (port : Port) (c₀ c : Client N) (h₀ : c₀.Fresh) (evs : List Event)
    (hcond : Lts.Meets (Client.step port) RejectsRekeysOnly c₀ evs)
    (hrun : Lts.run (Client.step port) c₀ evs = some c) (ev : Event) (i : ℕ)
    (huse : c.uses port ev = some i) : i ∉ c.rejected := by
  have h : Inv port c := Lts.run_inv (fun _ _ _ hi hc hs => hi.step hc hs) evs (h₀.inv port) hcond hrun
  intro hrej
  cases ev with
  | send peerID payload =>
    simp only [uses, Option.ite_none_right_eq_some, Option.map_eq_some_iff, Prod.exists] at huse
    obtain ⟨-, j, ciphertext, s, henc, rfl⟩ := huse
    obtain ⟨⟨p, hp⟩, -⟩ := encryptTo_eq_some henc
    exact h.rejected_slot j hrej p false hp
  | transport pick ciphertext =>
    simp only [uses, Option.ite_none_right_eq_some, Option.map_eq_some_iff, Prod.exists] at huse
    obtain ⟨-, j, plaintext, s, hdec, rfl⟩ := huse
    obtain ⟨⟨p, hp⟩, -⟩ := decryptFrom_eq_some hdec
    exact h.rejected_slot j hrej p false hp
  | _ => cases huse

/-- Device `a` as it starts, with `b` pinned to the key of 32 bytes 2. -/
def pinnedB (port : Port) : Client plainNoise where
  deviceID := "a"
  privateKey := List.replicate 32 1
  rand i := List.replicate i 0
  store :=
    let pins : Pins := fun id => if id = "b" then some ⟨encodeBase64 (List.replicate 32 2), ""⟩ else none
    if port = .ts then .memory pins else .loaded pins none

/-- A peer with static key `key` drives session `i` of `pinnedB` as initiator to its end. -/
def handshakeWith (key : Bytes) (i now : ℕ) : List Event :=
  let msg1 := PlainNoise.msg1 []
  [.handshake 0 now msg1,
    .handshake 0 now (PlainNoise.msg3 key
      (PlainNoise.msg2 (List.replicate 32 1) (List.replicate i 0) msg1)),
    .pin 0 "" none, .settle 0]

/-- What a client has rejected after events, and the session it would next send under. -/
def rejectedAndUsed (port : Port) (evs : List Event) : Option (List ℕ × Option ℕ) :=
  (Lts.run (Client.step port) (pinnedB port) evs).map fun c =>
    (c.rejected, c.uses port (.send "b" [1]))

/-- In every port the first handshake of the process, with another key than the pinned one, is
rejected, and the next payload for `b` is encrypted under its session. -/
theorem rejected_first_handshake_used :
    rejectedAndUsed .ts (.welcome [("b", "")] :: handshakeWith (List.replicate 32 9) 0 5000)
      = some ([0], some 0)
    ∧ rejectedAndUsed .rust (.welcome [("b", "")] :: handshakeWith (List.replicate 32 9) 0 5000)
      = some ([0], some 0)
    ∧ rejectedAndUsed .py (.welcome [("b", "")] :: handshakeWith (List.replicate 32 9) 0 5000)
      = some ([0], some 0)
    ∧ rejectedAndUsed .cpp (.welcome [("b", "")] :: handshakeWith (List.replicate 32 9) 0 5000)
      = some ([0], some 0) := by
  decide +kernel

/-- A rekey with another key, after a first handshake with the pinned one. -/
def rejectedRekey : List Event :=
  .welcome [("b", "")] :: (handshakeWith (List.replicate 32 2) 0 5000
    ++ handshakeWith (List.replicate 32 9) 1 9000)

theorem pinnedB_fresh (port : Port) : (pinnedB port).Fresh := ⟨rfl, rfl, rfl, rfl⟩

theorem rejected_not_used_rekey :
    rejectedAndUsed .rust rejectedRekey = some ([1], some 0)
    ∧ ∀ c, Lts.run (Client.step .rust) (pinnedB .rust) rejectedRekey = some c →
      ∀ i, c.uses .rust (.send "b" [1]) = some i → i ∉ c.rejected :=
  ⟨by decide +kernel, fun c hrun i huse => rejected_not_used .rust (pinnedB .rust) c
    (pinnedB_fresh .rust) rejectedRekey (by decide +kernel) hrun (.send "b" [1]) i huse⟩

end Client

end Relayly.Sdk
