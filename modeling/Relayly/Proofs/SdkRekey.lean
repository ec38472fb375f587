import Relayly.Proofs.SdkPin
import Relayly.Proofs.SdkSlots

/-!
# Rekeys keep the peer's identity

A rekey is made beside the session in use and takes its place only once its key has passed the pin.
So as long as this device completes no pairing of its own and the peer stays linked, `send` always
finds a session that is ready and that the same peer has authenticated, whatever the relay sends and
whatever handshakes fail on the way.
-/

namespace Relayly.Sdk

variable {N : Noise}

/-! ## The store -/

namespace Store

variable {store store' : Store} {id key : String} {result : PinResult}

/-- What a call of `pinOrVerify` can do: compare, fail, or pin a key for a peer that had none. -/
inductive Called (store : Store) (id key : String) : Store → PinResult → Prop
  | compared (e : Option String) (hfound : store.lookup id = some e) :
    Called store id key store (comparePin e key)
  | failed : Called store id key store .fault
  | pinned (store' : Store) (result : PinResult) (hnone : store.lookup id = none)
    (hself : store'.lookup id = some (some key))
    (hother : ∀ x, x ≠ id → store'.lookup x = store.lookup x) : Called store id key store' result

theorem pinOrVerify_called (store : Store) (id key stamp : String) (fault : Option StoreFault) :
    Called store id key (store.pinOrVerify id key stamp fault).1
      (store.pinOrVerify id key stamp fault).2 := by
  have hself : ∀ pins : Pins, withPin pins id key stamp id = some ⟨key, stamp⟩ :=
    fun pins => withPin_self pins id key stamp
  have hother : ∀ (pins : Pins) (x : String), x ≠ id → withPin pins id key stamp x = pins x :=
    fun pins x hx => Function.update_of_ne hx _ _
  cases store with
  | memory pins =>
    simp only [pinOrVerify, pinOrVerifyMemory]
    split
    · next existing hpin => exact .compared _ (by simp [lookup, hpin])
    · next hnone =>
      exact .pinned _ _ (by simp [lookup, hnone]) (by simp [lookup, hself])
        fun x hx => by simp [lookup, hother pins x hx]
  | file disk =>
    by_cases hload : fault = some .load
    · rw [pinOrVerify, pinOrVerifyFile, if_pos hload]
      exact .failed
    · rw [pinOrVerify, pinOrVerifyFile, if_neg hload]
      dsimp only
      split
      · next e hfound => exact .compared e hfound
      · next hnone =>
        split_ifs
        · exact .failed
        · exact .pinned _ _ hnone (by simp [lookup, fileLookup, hself])
            fun x hx => by simp [lookup, fileLookup, hother _ x hx]
  | loaded peers disk =>
    simp only [pinOrVerify, pinOrVerifyLoaded]
    split
    · next existing hpin => exact .compared _ (by simp [lookup, hpin])
    · next hnone =>
      split_ifs <;>
      exact .pinned _ _ (by simp [lookup, hnone]) (by simp [lookup, hself])
        fun x hx => by simp [lookup, hother peers x hx]

/-- A pin stays, whoever is pinned or verified next. -/
theorem Called.lookup_kept (h : Called store id key store' result) {x k : String}
    (hx : store.lookup x = some (some k)) : store'.lookup x = some (some k) := by
  cases h with
  | compared e hfound => exact hx
  | failed => exact hx
  | pinned _ _ hnone hself hother =>
    rw [hother x, hx]
    rintro rfl
    rw [hnone] at hx
    cases hx

/-- After a call that succeeds the key is the one that is pinned. -/
theorem Called.lookup_ok (h : Called store id key store' .ok) : store'.lookup id = some (some key) := by
  generalize hres : PinResult.ok = result at h
  cases h with
  | compared e hfound =>
    unfold comparePin at hres
    split_ifs at hres with he
    rw [hfound, he]
  | failed => cases hres
  | pinned _ _ hnone hself hother => exact hself

end Store

namespace Session

theorem encrypt_peerStatic {s s' : Session N} {payload ciphertext : Bytes}
    (h : s.encrypt payload = some (ciphertext, s')) : s'.peerStatic = s.peerStatic := by
  unfold encrypt at h
  split at h
  · cases h
  · split at h
    · cases h
    · split at h <;> cases h
      rfl

theorem decrypt_peerStatic {s s' : Session N} {ciphertext plaintext : Bytes}
    (h : s.decrypt ciphertext = some (plaintext, s')) : s'.peerStatic = s.peerStatic := by
  unfold decrypt at h
  split at h
  · cases h
  · split at h
    · cases h
    · split at h <;> cases h
      rfl

end Session

namespace Client

variable {c c' c'' : Client N} {port : Port} {id : String} {quiet : Prop} {fed : Option ℕ}

/-- The client without its record of what was rejected, so that `Inv` holds of it in every run. -/
def forget (c : Client N) : Client N := { c with rejected := [] }

/-! ## What a step carries on -/

/-- Connections, sessions and pins from before a step are there after it, but for the session `fed`
that a handshake envelope goes to; where it is `quiet`, a session in use stays in use and peer `id`
stays linked. -/
structure Carries (id : String) (quiet : Prop) (fed : Option ℕ) (c c' : Client N) : Prop where
  conn : ∀ {q : ℕ} {conn : PeerConn}, c.conns[q]? = some conn → ∃ conn', c'.conns[q]? = some conn'
    ∧ conn'.id = conn.id ∧ (quiet → conn.active ≠ none → conn'.active = conn.active)
  session : ∀ {j : ℕ} {s : Session N}, c.sessions[j]? = some s → fed ≠ some j → ∃ s', c'.sessions[j]? = some s'
    ∧ s'.status = s.status ∧ s'.peerStatic = s.peerStatic
  pin : ∀ {x k : String}, c.store.lookup x = some (some k) → c'.store.lookup x = some (some k)
  peer : quiet → ∀ {p : ℕ}, c.connOf id = some p → c'.connOf id = some p

/-- What a control frame does: it feeds no session and resolves none. -/
structure Grows (port : Port) (id : String) (quiet : Prop) (c c' : Client N) : Prop
    extends Carries id quiet none c c' where
  reading : Reading port c.forget → Reading port c'.forget
  outstanding : c'.outstanding = c.outstanding

theorem Carries.trans (h : Carries id quiet none c c') (h' : Carries id quiet fed c' c'') :
    Carries id quiet fed c c'' where
  conn hq := by
    obtain ⟨conn', hq', hid, hact⟩ := h.conn hq
    obtain ⟨conn'', hq'', hid', hact'⟩ := h'.conn hq'
    refine ⟨conn'', hq'', hid'.trans hid, fun hquiet hne => ?_⟩
    have hsame := hact hquiet hne
    exact (hact' hquiet (hsame ▸ hne)).trans hsame
  session hj hfed := by
    obtain ⟨s', hj', hst, hkey⟩ := h.session hj (by simp)
    obtain ⟨s'', hj'', hst', hkey'⟩ := h'.session hj' hfed
    exact ⟨s'', hj'', hst'.trans hst, hkey'.trans hkey⟩
  pin hx := h'.pin (h.pin hx)
  peer hquiet _ hp := h'.peer hquiet (h.peer hquiet hp)

theorem Grows.trans (h : Grows port id quiet c c') (h' : Grows port id quiet c' c'') :
    Grows port id quiet c c'' where
  toCarries := h.toCarries.trans h'.toCarries
  reading hr := h'.reading (h.reading hr)
  outstanding := h'.outstanding.trans h.outstanding

theorem Carries.slot (h : Carries id quiet fed c c') (hquiet : quiet) {q i : ℕ}
    (hq : c.slot q false = some i) : c'.slot q false = some i := by
  obtain ⟨conn, hconn, hact⟩ := Option.bind_eq_some_iff.1 hq
  obtain ⟨conn', hconn', -, hact'⟩ := h.conn hconn
  have hsame := hact' hquiet (by rw [show conn.active = some i from hact]; simp)
  rw [Client.slot, slotAt, hconn']
  exact hsame.trans hact

/-- The slots stay as they are. -/
theorem Grows.same (hslot : ∀ q b, c'.slot q b = c.slot q b)
    (hconn : ∀ {q : ℕ} {conn : PeerConn}, c.conns[q]? = some conn →
      ∃ conn', c'.conns[q]? = some conn' ∧ conn'.id = conn.id)
    (hs : c'.sessions = c.sessions) (ho : c'.outstanding = c.outstanding) (hst : c'.store = c.store)
    (hpeer : quiet → ∀ {p : ℕ}, c.connOf id = some p → c'.connOf id = some p) :
    Grows port id quiet c c' where
  conn {q conn} hq := by
    obtain ⟨conn', hq', hid⟩ := hconn hq
    refine ⟨conn', hq', hid, fun _ _ => ?_⟩
    simpa [slot, slotAt, hq, hq', PeerConn.slot] using hslot q false
  session hj _ := ⟨_, hs ▸ hj, rfl, rfl⟩
  pin hx := hst ▸ hx
  peer := hpeer
  reading hr := hr.same (Keeps.of_eq hs ho rfl) hslot
  outstanding := ho

theorem Grows.refl (c : Client N) : Grows port id quiet c c :=
  .same (fun _ _ => rfl) (fun hq => ⟨_, hq, rfl⟩) rfl rfl rfl fun _ _ hp => hp

theorem getElem?_set_id {p : ℕ} {conn conn' : PeerConn} (hp : c.conns[p]? = some conn)
    (hid : conn'.id = conn.id) {q : ℕ} {old : PeerConn} (hq : c.conns[q]? = some old) :
    ∃ new, (c.conns.set p conn')[q]? = some new ∧ new.id = old.id
      ∧ (q = p → new = conn') ∧ (q ≠ p → new = old) := by
  by_cases hqp : q = p
  · subst hqp
    obtain rfl := Option.some.inj (hp.symm.trans hq)
    exact ⟨conn', List.getElem?_set_self (List.getElem?_eq_some_iff.1 hp).1, hid, fun _ => rfl,
      fun hne => absurd rfl hne⟩
  · exact ⟨old, (List.getElem?_set_ne (Ne.symm hqp)).trans hq, rfl, fun h => absurd h hqp, fun _ => rfl⟩

/-- A connection is written to, but for its slots. -/
theorem Grows.setConn {p : ℕ} {conn conn' : PeerConn} (hp : c.conns[p]? = some conn)
    (hid : conn'.id = conn.id) (hslot : ∀ b, conn'.slot b = conn.slot b) :
    Grows port id quiet c (c.setConn p conn') := by
  refine .same (slotAt_set_same hp hslot) (fun hq => ?_) rfl rfl rfl fun _ _ hpeer => hpeer
  obtain ⟨new, hnew, hid', -⟩ := getElem?_set_id hp hid hq
  exact ⟨new, hnew, hid'⟩

/-- A new session in slot `b₀` of connection `p`; it is quiet unless that slot is in use. -/
theorem Grows.fresh (b₀ : Bool) {p : ℕ} {conn conn' : PeerConn} {session : Session N}
    (hp : c.conns[p]? = some conn) (hconns : c'.conns = c.conns.set p conn') (hid : conn'.id = conn.id)
    (hnew : conn'.slot b₀ = some c.sessions.length) (hold : conn'.slot (!b₀) = conn.slot (!b₀))
    (hs : c'.sessions = c.sessions ++ [session]) (ho : c'.outstanding = c.outstanding)
    (hst : c'.store = c.store) (hpeers : c'.peers = c.peers)
    (hfree : quiet → b₀ = false → conn.active = none) : Grows port id quiet c c' where
  conn {q old} hq := by
    obtain ⟨new, hget, hid', hself, hother⟩ := getElem?_set_id hp hid hq
    refine ⟨new, hconns ▸ hget, hid', fun hquiet hne => ?_⟩
    by_cases hqp : q = p
    · subst hqp
      obtain rfl := Option.some.inj (hp.symm.trans hq)
      rw [hself rfl]
      cases b₀ with
      | true => exact hold
      | false => exact absurd (hfree hquiet rfl) hne
    · rw [hother hqp]
  session {j s} hj _ := by
    refine ⟨s, ?_, rfl, rfl⟩
    rw [hs, List.getElem?_append_left (List.getElem?_eq_some_iff.1 hj).1, hj]
  pin hx := hst ▸ hx
  peer _ p' hp' := by rwa [connOf, hpeers]
  reading hr := hr.fresh b₀ hp hconns hnew hold hs ho rfl
  outstanding := ho

/-! ## The control frames -/

theorem link_grows (c : Client N) (id' announced : String) :
    Grows port id quiet c (c.link port id' announced) := by
  unfold link
  split
  · exact .refl c
  · next hnone =>
    refine .same (fun q b => slotAt_append (fun b => ?_) q b) (fun {q conn} hq => ⟨conn, ?_, rfl⟩)
      rfl rfl rfl fun _ p hp => ?_
    · cases b <;> rfl
    · exact (List.getElem?_append_left (List.getElem?_eq_some_iff.1 hq).1).trans hq
    · obtain ⟨e, he, rfl⟩ := Option.map_eq_some_iff.1 hp
      rw [connOf, List.find?_append, he]
      rfl

theorem handleWelcome_grows : ∀ (peers : List (String × String)) (c : Client N),
    Grows port id quiet c (c.handleWelcome port peers)
  | [], c => .refl c
  | p :: peers, c => by
    have hone : Grows port id quiet c
        (if p.1 = "" ∧ port = .py then c else c.link port p.1 p.2) := by
      split_ifs
      · exact .refl c
      · exact c.link_grows p.1 p.2
    exact hone.trans (handleWelcome_grows peers _)

theorem setAnnounced_grows (c : Client N) (p : ℕ) (key : String) :
    Grows port id quiet c (c.setAnnounced p key) := by
  unfold setAnnounced
  split
  · exact .refl c
  · next conn hp => exact .setConn hp rfl fun b => by cases b <;> rfl

theorem updateAnnounced_grows (c : Client N) (id' : String) (key : Option String) :
    Grows port id quiet c (c.updateAnnounced port id' key) := by
  unfold updateAnnounced
  split
  · exact c.link_grows _ _
  · split
    · exact c.setAnnounced_grows _ _
    · exact c.setAnnounced_grows _ _
    · exact c.setAnnounced_grows _ _
    · exact .refl c
    · exact .refl c

theorem dropWaiter_grows (c : Client N) (code : String) : Grows port id quiet c (c.dropWaiter code) :=
  .same (fun _ _ => rfl) (fun hq => ⟨_, hq, rfl⟩) rfl rfl rfl fun _ _ hp => hp

theorem startAsInitiator_grows (c : Client N) (p : ℕ) (hquiet : ¬ quiet) :
    Grows port id quiet c (c.startAsInitiator p) := by
  unfold startAsInitiator
  split
  · next conn session msg1 hp hnew =>
    exact .fresh false hp rfl rfl rfl rfl rfl rfl rfl rfl fun hq => absurd hq hquiet
  · exact .refl c

theorem startRekeyAsInitiator_grows (c : Client N) (p : ℕ) :
    Grows port id quiet c (c.startRekeyAsInitiator p) := by
  unfold startRekeyAsInitiator
  split
  · next conn session msg1 hp hnew =>
    exact .fresh true hp rfl rfl rfl rfl rfl rfl rfl rfl fun _ h => by cases h
  · exact .refl c

theorem initiateIf_grows (c : Client N) (id' : String) (weAreAcceptor : Bool)
    (hquiet : quiet → weAreAcceptor = false) :
    Grows port id quiet c (c.initiateIf id' weAreAcceptor) := by
  unfold initiateIf
  split
  · exact c.startAsInitiator_grows _ fun hq => by cases hquiet hq
  · exact .refl c

theorem handlePairComplete_grows (c : Client N) (peerID code key : Option String)
    (hquiet : quiet → c.pairWaiters (code.getD "") ≠ some true) :
    Grows port id quiet c (c.handlePairComplete port peerID code key) := by
  unfold handlePairComplete
  split
  · split
    · exact .refl c
    · next weAreAcceptor hw =>
      refine ((c.dropWaiter_grows _).trans (updateAnnounced_grows _ _ _)).trans
        (initiateIf_grows _ _ _ fun hq => ?_)
      have hne := hquiet hq
      rw [hw] at hne
      cases weAreAcceptor <;> simp_all
  · split
    · exact .refl c
    · split_ifs
      · exact .refl c
      · exact c.updateAnnounced_grows _ _
      · refine ((c.dropWaiter_grows _).trans (updateAnnounced_grows _ _ _)).trans
          (initiateIf_grows _ _ _ fun hq => ?_)
        have hne := hquiet hq
        rcases hw : c.pairWaiters (code.getD "") with _ | weAreAcceptor
        · rfl
        · rw [hw] at hne
          cases weAreAcceptor <;> simp_all

theorem handleUnpaired_grows (c : Client N) (peerID : Option String) (hquiet : quiet → peerID ≠ some id) :
    Grows port id quiet c (c.handleUnpaired port peerID) := by
  unfold handleUnpaired
  split
  · next peerID' =>
    split_ifs
    · exact .refl c
    · refine .same (fun _ _ => rfl) (fun hq => ⟨_, hq, rfl⟩) rfl rfl rfl fun hq p hp => ?_
      have hne : id ≠ peerID' := fun h => hquiet hq (by rw [h])
      rw [← hp, connOf, connOf, List.find?_filter]
      congr 2
      funext e
      by_cases he : e.1 = id
      · simp [he, hne]
      · simp [he]
  · exact .refl c

theorem handlePeerStatus_grows (c : Client N) (peerID : Option String) (online : Bool) :
    Grows port id quiet c (c.handlePeerStatus peerID online) := by
  unfold handlePeerStatus
  split
  · exact .refl c
  · split_ifs
    · exact .refl c
    · exact .refl c
    · split
      · exact .refl c
      · exact c.startRekeyAsInitiator_grows _

/-! ## What holds of every client -/

/-- A pin that has succeeded for a resolution under way is in the store. -/
def Pinned (c : Client N) : Prop :=
  ∀ r ∈ c.outstanding, r.pin = some .ok → ∃ conn s key, c.conns[r.conn]? = some conn
    ∧ c.sessions[r.session]? = some s ∧ s.peerStatic = some key
    ∧ c.store.lookup conn.id = some (some (encodeBase64 key))

/-- `send` finds a session with the peer that is ready and authenticated with the key that is pinned
for it. -/
def Holds (c : Client N) (id : String) (key : Bytes) : Prop :=
  ∃ p conn i s, c.connOf id = some p ∧ c.conns[p]? = some conn ∧ conn.id = id
    ∧ conn.active = some i ∧ c.sessions[i]? = some s ∧ s.status = .ready ∧ s.peerStatic = some key
    ∧ c.store.lookup id = some (some (encodeBase64 key))

structure Sound (port : Port) (c : Client N) : Prop where
  inv : Inv port c.forget
  pinned : c.Pinned

/-- A step from `c` to `c'` that keeps all of this. -/
structure Passes (port : Port) (id : String) (quiet : Prop) (c c' : Client N) : Prop where
  sound : Sound port c'
  holds : quiet → ∀ {key}, c.Holds id key → c'.Holds id key

theorem Pinned.carries (h : c.Pinned) (hc : Carries id quiet fed c c')
    (hout : ∀ r ∈ c'.outstanding, r.pin = some .ok → r ∈ c.outstanding ∧ fed ≠ some r.session) :
    c'.Pinned := by
  intro r hr hok
  obtain ⟨hold, hfed⟩ := hout r hr hok
  obtain ⟨conn, s, key, hconn, hs, hkey, hpin⟩ := h r hold hok
  obtain ⟨conn', hconn', hid, -⟩ := hc.conn hconn
  obtain ⟨s', hs', -, hkey'⟩ := hc.session hs hfed
  exact ⟨conn', s', key, hconn', hs', hkey'.trans hkey, by rw [hid]; exact hc.pin hpin⟩

/-- A session in use stays in use unless it is the one that is fed. -/
theorem Holds.carries {key : Bytes} (h : c.Holds id key) (hc : Carries id quiet fed c c')
    (hquiet : quiet) (hfed : ∀ {p i s}, c.slot p false = some i → c.sessions[i]? = some s →
      s.status = .ready → fed ≠ some i) : c'.Holds id key := by
  obtain ⟨p, conn, i, s, hp, hconn, hid, hact, hs, hready, hkey, hpin⟩ := h
  have hslot : c.slot p false = some i := by simp [slot, slotAt, hconn, PeerConn.slot, hact]
  obtain ⟨conn', hconn', hid', hact'⟩ := hc.conn hconn
  obtain ⟨s', hs', hst, hkey'⟩ := hc.session hs (hfed hslot hs hready)
  exact ⟨p, conn', i, s', hc.peer hquiet hp, hconn', hid'.trans hid,
    (hact' hquiet (by simp [hact])).trans hact, hs', hst.trans hready, hkey'.trans hkey, hc.pin hpin⟩

theorem Reading.of_forget (h : Inv port c.forget) (hr : c.reads port = true) :
    Reading port c.forget :=
  .of_reads h hr

theorem Sound.grows (h : Sound port c) (hr : c.reads port = true) (hg : Grows port id quiet c c') :
    Passes port id quiet c c' where
  sound :=
    { inv := (hg.reading (.of_forget h.inv hr)).inv
      pinned := h.pinned.carries hg.toCarries fun r hr' _ => ⟨hg.outstanding ▸ hr', by simp⟩ }
  holds hquiet _ hh := hh.carries hg.toCarries hquiet fun _ _ _ => by simp

/-! ## Handshake envelopes -/

theorem forget_selectSession (c : Client N) (p : ℕ) (conn : PeerConn) (now : ℕ) :
    c.forget.selectSession p conn now
      = ((c.selectSession p conn now).1.forget, (c.selectSession p conn now).2) := by
  unfold selectSession
  rw [show c.forget.nextRand = c.nextRand from rfl, show c.forget.privateKey = c.privateKey from rfl]
  split
  · rfl
  · cases asResponder N c.privateKey c.nextRand <;> rfl
  · next i _ _ =>
    rw [show c.forget.ready i = c.ready i from rfl]
    split_ifs
    · rfl
    · rfl
    · cases asResponder N c.privateKey c.nextRand <;> rfl

theorem selectSession_grows {p : ℕ} {conn : PeerConn} (hp : c.conns[p]? = some conn) (now : ℕ) :
    Grows port id quiet c (c.selectSession p conn now).1 := by
  unfold selectSession
  split
  · exact .refl c
  · next hpend hact =>
    split
    · exact .refl c
    · exact .fresh false hp rfl rfl rfl rfl rfl rfl rfl rfl fun _ _ => hact
  · split_ifs
    · exact .refl c
    · exact .refl c
    · split
      · exact .setConn hp rfl fun b => by cases b <;> rfl
      · exact .fresh true hp rfl rfl rfl rfl rfl rfl rfl rfl fun _ h => by cases h

/-- A session in use that is ready is not fed. -/
theorem selectSession_not_ready {p i : ℕ} {conn : PeerConn} {now : ℕ}
    (h : (c.selectSession p conn now).2 = some (i, false)) {s : Session N}
    (hs : c.sessions[i]? = some s) : s.status ≠ .ready := by
  unfold selectSession at h
  split at h
  · cases h
  · split at h <;> cases h
    exact absurd (List.getElem?_eq_some_iff.1 hs).1 (Nat.lt_irrefl _)
  · split_ifs at h with hready
    · cases h
      intro hst
      simp [ready, hs, Session.ready, hst] at hready
    · split at h <;> cases h

theorem forget_feedSession (c : Client N) (p i : ℕ) (w : Bool) (data : Bytes) :
    c.forget.feedSession port p i w data = (c.feedSession port p i w data).forget := by
  unfold feedSession
  rw [show c.forget.sessions = c.sessions from rfl]
  cases (c.sessions[i]?).bind (·.handleHandshakeMessage port data) <;> rfl

/-- A session that is fed is not one that is being resolved. -/
theorem feedSession_carries (h : Reading port c.forget) (p i : ℕ) (w : Bool) (data : Bytes) :
    c.feedSession port p i w data = c
      ∨ (Carries id quiet (some i) c (c.feedSession port p i w data)
        ∧ ∀ r ∈ (c.feedSession port p i w data).outstanding, r.pin = some .ok →
          r ∈ c.outstanding ∧ some i ≠ some r.session) := by
  unfold feedSession
  rcases hm : (c.sessions[i]?).bind (·.handleHandshakeMessage port data) with _ | ⟨s', reply⟩
  · exact .inl rfl
  · obtain ⟨s, hs, hmessage⟩ := Option.bind_eq_some_iff.1 hm
    refine .inr ⟨⟨fun hq => ⟨_, hq, rfl, fun _ _ => rfl⟩, fun {j t} hj hne => ⟨t, ?_, rfl, rfl⟩,
      fun hx => hx, fun _ _ hp => hp⟩, fun r hr hok => ?_⟩
    · exact (List.getElem?_set_ne fun hij => hne (by rw [hij])).trans hj
    · have hold : r ∈ c.outstanding := by
        dsimp only at hr
        split_ifs at hr
        · exact hr
        · rcases List.mem_append.1 hr with hr | hr
          · exact hr
          · rw [List.mem_singleton.1 hr] at hok
            cases hok
      refine ⟨hold, fun hri => ?_⟩
      obtain rfl := Option.some.inj hri
      -- outside TypeScript nothing is being resolved now, and there a session that has ended throws
      have hts : port = .ts := by
        by_contra hport
        have hnil : c.outstanding = [] := h.idle hport
        rw [hnil] at hold
        cases hold
      subst hts
      exact h.inv.out_settled r hold s hs (Session.handleHandshakeMessage_ts hmessage)

theorem Sound.handleHandshakeEnvelope (h : Sound port c) (hr : c.reads port = true) (pick now : ℕ)
    (data : Bytes) : Passes port id quiet c (c.handleHandshakeEnvelope port pick now data) := by
  unfold Client.handleHandshakeEnvelope
  split
  · exact h.grows hr (.refl c)
  · next p hpick =>
    split
    · exact h.grows hr (.refl c)
    · next conn hp =>
      have hread := Reading.of_forget h.inv hr
      have hg : Grows port id quiet c (c.selectSession p conn now).1 := selectSession_grows hp now
      have hpasses := h.grows hr hg
      obtain ⟨-, hslot⟩ := hread.selectSession hp now
      rw [forget_selectSession] at hslot
      have hread' := hg.reading hread
      split
      · next c₁ i w hc =>
        rw [hc] at hg hpasses hslot hread'
        have hi : c₁.forget.slot p w = some i := hslot i w rfl
        have hfeed : _ ∨ Carries id quiet _ _ _ ∧ _ := feedSession_carries hread' p i w data
        rcases hfeed with heq | ⟨hc', hout⟩
        · rw [heq]
          exact hpasses
        · refine ⟨⟨?_, hpasses.sound.pinned.carries hc' hout⟩, fun hquiet key hh => ?_⟩
          · rw [← forget_feedSession]
            exact hread'.feedSession hi data
          · refine hh.carries (hg.toCarries.trans hc') hquiet fun {q j s} hq hs hst hfed => ?_
            obtain rfl := Option.some.inj hfed
            cases w with
            | false => exact selectSession_not_ready (by rw [hc]) hs hst
            | true =>
              have hpending := hpasses.sound.inv.slot_inj (hg.toCarries.slot hquiet hq) hi
              cases hpending.2
      · next c₁ hc =>
        rw [hc] at hpasses
        exact hpasses

/-! ## Transport -/

/-- Encrypting and decrypting leave the status and the key of the session. -/
theorem Sound.setSession (h : Sound port c) {i : ℕ} {s s' : Session N} (hs : c.sessions[i]? = some s)
    (hst : s'.status = s.status) (hkey : s'.peerStatic = s.peerStatic) (sent : List Bytes) :
    Passes port id quiet c { c.setSession i s' with sent } := by
  have hc : Carries id quiet none c { c.setSession i s' with sent } := by
    refine ⟨fun hq => ⟨_, hq, rfl, fun _ _ => rfl⟩, fun {j t} hj _ => ?_, fun hx => hx, fun _ _ hp => hp⟩
    by_cases hji : i = j
    · subst hji
      obtain rfl := Option.some.inj (hs.symm.trans hj)
      exact ⟨s', List.getElem?_set_self (List.getElem?_eq_some_iff.1 hs).1, hst, hkey⟩
    · exact ⟨t, (List.getElem?_set_ne hji).trans hj, rfl, rfl⟩
  refine ⟨⟨h.inv.setSession_status hs hst sent, h.pinned.carries hc fun r hr _ => ⟨hr, by simp⟩⟩, ?_⟩
  exact fun hquiet _ hh => hh.carries hc hquiet fun _ _ _ => by simp

theorem Sound.self (h : Sound port c) : Passes port id quiet c c := ⟨h, fun _ _ hh => hh⟩

theorem Sound.send (h : Sound port c) (peerID : String) (payload : Bytes) :
    Passes port id quiet c (c.send peerID payload) := by
  unfold Client.send
  split
  · exact h.self
  · next i ciphertext s' henc =>
    obtain ⟨-, s, hs, he⟩ := encryptTo_eq_some henc
    exact h.setSession hs (Session.encrypt_status he) (Session.encrypt_peerStatic he) _

theorem Sound.handleTransportEnvelope (h : Sound port c) (pick : ℕ) (ciphertext : Bytes) :
    Passes port id quiet c (c.handleTransportEnvelope port pick ciphertext) := by
  unfold Client.handleTransportEnvelope
  split
  · exact h.self
  · next i plaintext s' hdec =>
    obtain ⟨-, s, hs, hd⟩ := decryptFrom_eq_some hdec
    exact h.setSession hs (Session.decrypt_status hd) (Session.decrypt_peerStatic hd) c.sent

/-! ## Resolutions -/

theorem pinStep_eq_some {k : ℕ} {stamp : String} {fault : Option StoreFault}
    (h : c.pinStep port k stamp fault = some c') :
    ∃ r conn s key store result announced, c.outstanding[k]? = some r ∧ c.conns[r.conn]? = some conn
      ∧ c.sessions[r.session]? = some s ∧ s.peerStatic = some key
      ∧ c.store.Called conn.id (encodeBase64 key) store result
      ∧ c' = { c with
          store
          outstanding := c.outstanding.set k { r with pin := some result, announced } } := by
  unfold pinStep at h
  split at h
  · cases h
  · next r hr =>
    split at h
    · next conn _ _ _ _ _ key hpin hconn hs =>
      cases h
      exact ⟨r, conn, _, key, _, _, _, hr, hconn, hs, rfl, Store.pinOrVerify_called .., rfl⟩
    · cases h

theorem forget_pinStep {k : ℕ} {stamp : String} {fault : Option StoreFault}
    (h : c.pinStep port k stamp fault = some c') :
    c.forget.pinStep port k stamp fault = some c'.forget := by
  unfold pinStep at h ⊢
  rw [show c.forget.outstanding = c.outstanding from rfl, show c.forget.conns = c.conns from rfl,
    show c.forget.sessions = c.sessions from rfl]
  split at h
  · cases h
  · dsimp only
    split at h
    · cases h
      rfl
    · cases h

theorem Sound.pinStep (h : Sound port c) {k : ℕ} {stamp : String} {fault : Option StoreFault}
    (hstep : c.pinStep port k stamp fault = some c') : Passes port id quiet c c' := by
  have hinv : Inv port c'.forget := h.inv.pinStep (forget_pinStep hstep)
  obtain ⟨r, conn, s, key, store, result, announced, hr, hconn, hs, hkey, hcalled, rfl⟩ :=
    pinStep_eq_some hstep
  have hc : Carries id quiet none c { c with
      store
      outstanding := c.outstanding.set k { r with pin := some result, announced } } :=
    ⟨fun hq => ⟨_, hq, rfl, fun _ _ => rfl⟩, fun hj _ => ⟨_, hj, rfl, rfl⟩, hcalled.lookup_kept,
      fun _ _ hp => hp⟩
  refine ⟨⟨hinv, fun r' hr' hok => ?_⟩, fun hquiet _ hh => hh.carries hc hquiet fun _ _ _ => by simp⟩
  rcases List.mem_or_eq_of_mem_set hr' with hold | rfl
  · obtain ⟨conn', s', key', hconn', hs', hkey', hpin⟩ := h.pinned r' hold hok
    exact ⟨conn', s', key', hconn', hs', hkey', hcalled.lookup_kept hpin⟩
  · obtain rfl : result = .ok := Option.some.inj hok
    exact ⟨conn, s, key, hconn, hs, hkey, hcalled.lookup_ok⟩

theorem forget_applyVerdict (c : Client N) (r : Resolution) (v : Verdict) :
    c.forget.applyVerdict port r v = (c.applyVerdict port r v).forget := by
  unfold applyVerdict promote abandon
  rw [show c.forget.conns = c.conns from rfl]
  split_ifs
  · rfl
  · rfl
  · cases c.conns[r.conn]? with
    | none => rfl
    | some conn => cases port <;> dsimp only <;> split <;> rfl
  · cases c.conns[r.conn]? with
    | none => rfl
    | some conn =>
      cases port <;> dsimp only
      · split <;> rfl
      · rfl
      · split <;> rfl
      · rfl

theorem applyVerdict_conn (c : Client N) (r : Resolution) (v : Verdict) {q : ℕ} {conn : PeerConn}
    (hq : c.conns[q]? = some conn) :
    ∃ conn', (c.applyVerdict port r v).conns[q]? = some conn' ∧ conn'.id = conn.id := by
  have hset : ∀ {old new : PeerConn}, c.conns[r.conn]? = some old → new.id = old.id →
      ∃ conn', (c.conns.set r.conn new)[q]? = some conn' ∧ conn'.id = conn.id := by
    intro old new hold hid
    obtain ⟨conn', hget, hid', -⟩ := getElem?_set_id hold hid hq
    exact ⟨conn', hget, hid'⟩
  unfold applyVerdict promote abandon
  repeat' split
  all_goals first
    | exact ⟨conn, hq, rfl⟩
    | exact hset (by assumption) (by rfl)

theorem verdict_accepted {r : Resolution} (h : c.verdict r = some .accepted) :
    r.pin = some .ok ∧ ∀ s, c.sessions[r.session]? = some s → s.status = .ready := by
  unfold verdict at h
  split at h
  · next conn s hconn hs =>
    split_ifs at h with hst
    · cases h
    · split at h
      · next result key hpin hkey =>
        refine ⟨?_, fun s' hs' => ?_⟩
        · cases result with
          | ok => exact hpin
          | mismatch => cases h
          | fault => cases h
        · rw [hs] at hs'
          cases hs'
          exact not_not.1 hst
      · cases h
  · cases h

theorem Inv.settleForgotten (h : Inv port c.forget) {k : ℕ} {r : Resolution} {conn : PeerConn}
    (hr : c.outstanding[k]? = some r) (hconn : c.conns[r.conn]? = some conn) (v : Verdict)
    (rejected : List ℕ) :
    Inv port { c.applyVerdict port r v with
      outstanding := c.outstanding.eraseIdx k
      rejected }.forget := by
  have hsess : (c.applyVerdict port r v).forget.sessions = c.forget.sessions :=
    c.applyVerdict_sessions port r v
  have hcases := h.applyVerdict_slot (List.mem_of_getElem? hr) hconn v
  rw [forget_applyVerdict] at hcases
  have hnot : false = true → ∀ q b, (c.applyVerdict port r v).forget.slot q b ≠ some r.session :=
    fun hf => by cases hf
  rcases hcases with ⟨hsame, -⟩ | ⟨-, hold, hslot⟩ | ⟨-, hold, hslot⟩
  · refine h.settle hr hsess false (fun q b j hq => .inl ?_) (fun q j hq _ => ?_) hnot
    · rwa [← hsame]
    · rwa [hsame]
  · refine h.settle hr hsess false (fun q b j hq => ?_) (fun q j hq hj => ?_) hnot
    · rw [hslot] at hq
      split_ifs at hq with hqp hb
      · obtain rfl := Option.some.inj hq
        exact .inr ⟨rfl, hqp, by simpa using hb, hold, by simp [hslot]⟩
      · exact .inl hq
    · rw [hslot, if_neg]
      · exact hq
      · rintro rfl
        exact hj (Option.some.inj (hq.symm.trans hold))
  · refine h.settle hr hsess false (fun q b j hq => ?_) (fun q j hq hj => ?_) hnot
    · rw [hslot] at hq
      split_ifs at hq
      exact .inl hq
    · rw [hslot, if_neg]
      · exact hq
      · rintro ⟨rfl, -⟩
        exact hj (Option.some.inj (hq.symm.trans hold))

theorem applyVerdict_peers (c : Client N) (r : Resolution) (v : Verdict) :
    (c.applyVerdict port r v).peers = c.peers := by
  unfold applyVerdict promote abandon
  repeat' split
  all_goals rfl

/-- The active slot changes for a session that is ready, and whose pin has succeeded. -/
theorem Sound.applyVerdict_active (h : Sound port c) {r : Resolution} (hr : r ∈ c.outstanding)
    {v : Verdict} (hv : c.verdict r = some v) {p i : ℕ} (hp : c.slot p false = some i) :
    (c.applyVerdict port r v).slot p false = some i
      ∨ (c.applyVerdict port r v).slot p false = some r.session ∧ p = r.conn ∧ v = .accepted := by
  obtain ⟨conn, hconn⟩ : ∃ conn, c.conns[r.conn]? = some conn := by
    rcases hc : c.conns[r.conn]? with _ | conn
    · simp [verdict, hc] at hv
    · exact ⟨conn, rfl⟩
  have hcases := h.inv.applyVerdict_slot hr hconn v
  rw [forget_applyVerdict] at hcases
  rcases hcases with ⟨hsame, -⟩ | ⟨hacc, -, hslot⟩ | ⟨-, -, hslot⟩
  · exact .inl ((hsame p false).trans hp)
  · have hpf := hslot p false
    by_cases hpr : p = r.conn
    · rw [if_pos hpr, if_neg (by simp)] at hpf
      exact .inr ⟨hpf, hpr, hacc⟩
    · rw [if_neg hpr] at hpf
      exact .inl (hpf.trans hp)
  · have hpf := hslot p false
    rw [if_neg (by simp)] at hpf
    exact .inl (hpf.trans hp)

theorem Sound.settleStep (h : Sound port c) {k : ℕ} (hstep : c.settleStep port k = some c') :
    Passes port id quiet c c' := by
  unfold Client.settleStep at hstep
  split at hstep
  · cases hstep
  next r hr =>
  obtain ⟨v, hv, rfl⟩ := Option.map_eq_some_iff.1 hstep
  have hrm := List.mem_of_getElem? hr
  obtain ⟨conn₀, hconn₀⟩ : ∃ conn, c.conns[r.conn]? = some conn := by
    rcases hc : c.conns[r.conn]? with _ | conn
    · simp [verdict, hc] at hv
    · exact ⟨conn, rfl⟩
  set c₁ : Client N := { c.applyVerdict port r v with
    outstanding := c.outstanding.eraseIdx k
    rejected := if v.rejects then r.session :: c.rejected else c.rejected } with hc₁
  -- the slots may change here, which is nothing to the resolutions that are left
  have hc : Carries id False none c c₁ := by
    refine ⟨fun hq => ?_, fun {j s} hj _ => ⟨s, ?_, rfl, rfl⟩, fun hx => ?_, fun hf => hf.elim⟩
    · obtain ⟨conn', hq', hid⟩ := c.applyVerdict_conn r v hq
      exact ⟨conn', hq', hid, fun hf => hf.elim⟩
    · exact (congrArg (·[j]?) (c.applyVerdict_sessions port r v)).trans hj
    · exact (congrArg (Store.lookup · _) (c.applyVerdict_store port r v)).trans hx
  refine ⟨⟨h.inv.settleForgotten hr hconn₀ v _, h.pinned.carries hc fun r' hr' _ =>
    ⟨List.mem_of_mem_eraseIdx hr', by simp⟩⟩, fun _ key hh => ?_⟩
  obtain ⟨p, conn, i, s, hp, hconn, hid, hact, hs, hready, hkey, hpin⟩ := hh
  have hslot : c.slot p false = some i := by simp [slot, slotAt, hconn, PeerConn.slot, hact]
  obtain ⟨conn', hconn', hid', -⟩ := hc.conn hconn
  have hp' : c₁.connOf id = some p := by
    rw [← hp, connOf, connOf, show c₁.peers = c.peers from c.applyVerdict_peers r v]
  have hactive : ∀ {j}, (c.applyVerdict port r v).slot p false = some j → conn'.active = some j := by
    intro j hj
    simpa [slot, slotAt, show (c.applyVerdict port r v).conns[p]? = some conn' from hconn',
      PeerConn.slot] using hj
  rcases h.applyVerdict_active hrm hv hslot with hsame | ⟨hnew, rfl, rfl⟩
  · obtain ⟨s', hs', hst, hkey'⟩ := hc.session hs (by simp)
    exact ⟨p, conn', i, s', hp', hconn', hid'.trans hid, hactive hsame, hs', hst.trans hready,
      hkey'.trans hkey, hc.pin hpin⟩
  · obtain ⟨hok, hready'⟩ := verdict_accepted hv
    obtain ⟨conn'', s', key', hconn'', hs', hkey', hpin'⟩ := h.pinned r hrm hok
    obtain rfl := Option.some.inj (hconn.symm.trans hconn'')
    rw [hid, hpin] at hpin'
    obtain rfl : key = key' := encodeBase64_injective (Option.some.inj (Option.some.inj hpin'))
    obtain ⟨s'', hs'', hst, hkey''⟩ := hc.session hs' (by simp)
    exact ⟨r.conn, conn', r.session, s'', hp', hconn', hid'.trans hid, hactive hnew, hs'',
      hst.trans (hready' s' hs'), hkey''.trans hkey', hc.pin hpin⟩

/-! ## Runs -/

/-- No pairing that this device accepts is completed, and the peer is not unlinked. -/
def Undisturbed (id : String) (c : Client N) : Event → Prop
  | .pairComplete _ code _ => c.pairWaiters (code.getD "") ≠ some true
  | .unpaired peerID => peerID ≠ some id
  | _ => True

theorem Sound.step (id : String) {ev : Event} (h : Sound port c) (hstep : c.step port ev = some c') :
    Passes port id (Undisturbed id c ev) c c' := by
  cases ev with
  | register code weAreAcceptor =>
    cases hstep
    exact ⟨⟨h.inv.same (Keeps.of_eq rfl rfl rfl) fun _ _ => rfl, h.pinned⟩, fun _ _ hh => hh⟩
  | welcome peers =>
    simp only [Client.step, Option.ite_none_right_eq_some, Option.some.injEq] at hstep
    obtain ⟨hr, rfl⟩ := hstep
    exact h.grows hr (handleWelcome_grows peers c)
  | pairComplete peerID code key =>
    simp only [Client.step, Option.ite_none_right_eq_some, Option.some.injEq] at hstep
    obtain ⟨hr, rfl⟩ := hstep
    exact h.grows hr (c.handlePairComplete_grows peerID code key fun hq => hq)
  | unpaired peerID =>
    simp only [Client.step, Option.ite_none_right_eq_some, Option.some.injEq] at hstep
    obtain ⟨hr, rfl⟩ := hstep
    exact h.grows hr (c.handleUnpaired_grows peerID fun hq => hq)
  | peerStatus peerID online =>
    simp only [Client.step, Option.ite_none_right_eq_some, Option.some.injEq] at hstep
    obtain ⟨hr, rfl⟩ := hstep
    exact h.grows hr (c.handlePeerStatus_grows peerID online)
  | error =>
    simp only [Client.step, Option.ite_none_right_eq_some, Option.some.injEq] at hstep
    obtain ⟨hr, rfl⟩ := hstep
    exact h.grows hr (.same (fun _ _ => rfl) (fun hq => ⟨_, hq, rfl⟩) rfl rfl rfl fun _ _ hp => hp)
  | handshake pick now data =>
    simp only [Client.step, Option.ite_none_right_eq_some, Option.some.injEq] at hstep
    obtain ⟨hr, rfl⟩ := hstep
    exact h.handleHandshakeEnvelope hr pick now data
  | transport pick ciphertext =>
    simp only [Client.step, Option.ite_none_right_eq_some, Option.some.injEq] at hstep
    obtain ⟨-, rfl⟩ := hstep
    exact h.handleTransportEnvelope pick ciphertext
  | send peerID payload =>
    simp only [Client.step, Option.ite_none_right_eq_some, Option.some.injEq] at hstep
    obtain ⟨-, rfl⟩ := hstep
    exact h.send peerID payload
  | pin k stamp fault => exact h.pinStep hstep
  | settle k => exact h.settleStep hstep

theorem Fresh.sound (h : c.Fresh) (port : Port) : Sound port c := by
  refine ⟨?_, fun r hr => ?_⟩
  · have hfresh : c.forget.Fresh := ⟨h.conns, h.sessions, h.outstanding, rfl⟩
    exact hfresh.inv port
  · rw [h.outstanding] at hr
    cases hr

/-- What is sent to the peer is encrypted under that key's session. -/
theorem Holds.uses {key payload : Bytes} {i : ℕ} (h : c.Holds id key)
    (huse : c.uses port (.send id payload) = some i) :
    ∃ s, c.sessions[i]? = some s ∧ s.peerStatic = some key := by
  obtain ⟨p, conn, j, s, hp, hconn, -, hact, hs, -, hkey, -⟩ := h
  simp only [Client.uses, Option.ite_none_right_eq_some, Option.map_eq_some_iff, Prod.exists] at huse
  obtain ⟨-, i', ciphertext, s', henc, rfl⟩ := huse
  simp only [encryptTo, Option.bind_eq_bind, hp, hconn, hact, hs, Option.bind_some,
    Option.bind_eq_some_iff, Option.some.injEq, Prod.mk.injEq, Prod.exists] at henc
  obtain ⟨-, -, -, rfl, -⟩ := henc
  exact ⟨s, hs, hkey⟩

end Client

end Relayly.Sdk
