import Relayly.Lib.Run
import Relayly.Proofs.GoPin
import Relayly.Sdk.Client
import Relayly.PlainNoise

/-!
# What a rejected handshake leaves in the peer store

In Go and in TypeScript the pin comes before the cross-check with the announced key, so a first
handshake that the cross-check rejects stays pinned.
-/

namespace Relayly

namespace Sdk

namespace Store

/-- The key a call finds for the peer; `some none` is an inherited member of the file's object. -/
def lookup : Store → String → Option (Option String)
  | .memory pins, id => (pins id).map fun pin => some pin.staticKey
  | .file disk, id => fileLookup (disk.getD fun _ => none) id
  | .loaded peers _, id => (peers id).map fun pin => some pin.staticKey

/-- The file system does not get in the way of a call. -/
def Works : Store → Option StoreFault → Prop
  | .memory _, _ => True
  | .file _, fault => fault = none
  | .loaded _ _, fault => fault ≠ some .save

/-- One of the stores the TypeScript client comes with. -/
def OfTs : Store → Prop
  | .memory _ => True
  | .file _ => True
  | .loaded _ _ => False

theorem OfTs.works_none {store : Store} (hts : store.OfTs) : store.Works none := by
  cases store with
  | memory pins => trivial
  | file disk => rfl
  | loaded peers disk => exact hts.elim

theorem withPin_self (pins : Pins) (id key stamp : String) :
    withPin pins id key stamp id = some ⟨key, stamp⟩ := by
  simp [withPin]

/-- The first call for a peer pins the key. -/
theorem pinOrVerify_first {store : Store} {id : String} {fault : Option StoreFault}
    (hts : store.OfTs) (hu : store.lookup id = none) (hw : store.Works fault)
    (key stamp : String) :
    ∃ store', store.pinOrVerify id key stamp fault = (store', .ok) ∧ store'.OfTs
      ∧ store'.lookup id = some (some key) := by
  cases store with
  | memory pins =>
    have hp : pins id = none := by simpa [lookup] using hu
    refine ⟨.memory (withPin pins id key stamp), ?_, trivial, ?_⟩
    · simp [pinOrVerify, pinOrVerifyMemory, hp]
    · simp [lookup, withPin_self]
  | file disk =>
    have hl : fileLookup (disk.getD fun _ => none) id = none := hu
    have hf : fault = none := hw
    refine ⟨.file (some (withPin (disk.getD fun _ => none) id key stamp)), ?_, trivial, ?_⟩
    · simp [pinOrVerify, pinOrVerifyFile, hl, hf]
    · simp [lookup, fileLookup, withPin_self]
  | loaded peers disk => exact hts.elim

/-- Every other call leaves the store as it is. -/
theorem pinOrVerify_unchanged {store : Store} {id : String} {fault : Option StoreFault}
    (hts : store.OfTs) (h : ¬ (store.lookup id = none ∧ store.Works fault)) (key stamp : String) :
    (store.pinOrVerify id key stamp fault).1 = store := by
  cases store with
  | memory pins =>
    have hp : pins id ≠ none := by simpa [lookup, Works] using h
    obtain ⟨pin, hp⟩ := Option.ne_none_iff_exists'.1 hp
    simp [pinOrVerify, pinOrVerifyMemory, hp]
  | file disk =>
    simp only [pinOrVerify, pinOrVerifyFile]
    by_cases hload : fault = some .load
    · rw [if_pos hload]
    · rw [if_neg hload]
      rcases hl : fileLookup (disk.getD fun _ => none) id with _ | e
      · have hf : fault ≠ none := fun hf => h ⟨hl, hf⟩
        have hs : fault = some .save := by
          rcases fault with _ | _ | _
          · exact absurd rfl hf
          · exact absurd rfl hload
          · rfl
        simp [hs]
      · rfl
  | loaded peers disk => exact hts.elim

/-- A call for a pinned peer compares the keys, unless its file cannot be read. -/
theorem pinOrVerify_pinned {store : Store} {id : String} {fault : Option StoreFault}
    {e : Option String} (hl : store.lookup id = some e) (hw : store.Works fault)
    (key stamp : String) : (store.pinOrVerify id key stamp fault).2 = comparePin e key := by
  cases store with
  | memory pins =>
    obtain ⟨pin, hp, rfl⟩ := Option.map_eq_some_iff.1 hl
    simp [pinOrVerify, pinOrVerifyMemory, hp]
  | file disk =>
    have hl : fileLookup (disk.getD fun _ => none) id = some e := hl
    have hf : fault = none := hw
    simp [pinOrVerify, pinOrVerifyFile, hl, hf]
  | loaded peers disk =>
    obtain ⟨pin, hp, rfl⟩ := Option.map_eq_some_iff.1 hl
    simp [pinOrVerify, pinOrVerifyLoaded, hp]

end Store

/-- The server announced this key or none. -/
def Announced (announced : String) (authenticated : Bytes) : Prop :=
  announced = "" ∨ announced = encodeBase64 authenticated

theorem crossCheck_ok_accepted_iff {announced : String} {authenticated : Bytes} :
    crossCheck announced (encodeBase64 authenticated) .ok = .accepted
      ↔ Announced announced authenticated := by
  unfold crossCheck Announced
  dsimp only
  split_ifs with h
  · simp only [false_iff]
    tauto
  · simp only [true_iff]
    tauto

/-- In TypeScript a call that does not accept leaves the store alone, exactly where it is not the
first working call for a peer whose announced key is another one. -/
theorem verify_unchanged_iff {store : Store} (hts : store.OfTs) (id announced : String)
    (authenticated : Bytes) (stamp : String) (fault : Option StoreFault) :
    ((verify store id announced authenticated stamp fault).2 ≠ .accepted →
        (verify store id announced authenticated stamp fault).1 = store)
      ↔ (store.lookup id = none → store.Works fault → Announced announced authenticated) := by
  by_cases hfirst : store.lookup id = none ∧ store.Works fault
  · obtain ⟨store', hpin, -, hl'⟩ :=
      Store.pinOrVerify_first hts hfirst.1 hfirst.2 (encodeBase64 authenticated) stamp
    have hne : store' ≠ store := by
      rintro rfl
      rw [hfirst.1] at hl'
      cases hl'
    simp only [verify, hpin, hfirst.1, hfirst.2, true_implies]
    rw [← crossCheck_ok_accepted_iff]
    constructor
    · intro h
      by_contra hacc
      exact hne (h hacc)
    · intro h hacc
      exact absurd h hacc
  · have hsame := Store.pinOrVerify_unchanged hts hfirst (encodeBase64 authenticated) stamp
    constructor
    · intro _ hu hw
      exact absurd ⟨hu, hw⟩ hfirst
    · intro _ _
      exact hsame

/-- A rejected handshake of the peer: the authenticated key, the time and the fault of the call. -/
def rejectStep (id announced : String) (store : Store)
    (attempt : Bytes × String × Option StoreFault) : Option Store :=
  match verify store id announced attempt.1 attempt.2.1 attempt.2.2 with
  | (_, .accepted) => none
  | (store, _) => some store

theorem rejectStep_eq_some {id announced : String} {store store' : Store}
    {attempt : Bytes × String × Option StoreFault} :
    rejectStep id announced store attempt = some store'
      ↔ (verify store id announced attempt.1 attempt.2.1 attempt.2.2).2 ≠ .accepted
        ∧ (verify store id announced attempt.1 attempt.2.1 attempt.2.2).1 = store' := by
  unfold rejectStep
  rcases verify store id announced attempt.1 attempt.2.1 attempt.2.2 with ⟨st, v⟩
  cases v <;> simp

/-- A rejection leaves a TypeScript store as it is where the peer has a pin or the file fails. -/
theorem rejectStep_unchanged {id announced : String} {store store' : Store}
    {attempt : Bytes × String × Option StoreFault} (hts : store.OfTs)
    (h : ¬ (store.lookup id = none ∧ store.Works attempt.2.2))
    (hstep : rejectStep id announced store attempt = some store') : store' = store := by
  obtain ⟨-, rfl⟩ := rejectStep_eq_some.1 hstep
  exact Store.pinOrVerify_unchanged hts h _ _

theorem run_rejectStep_pinned {id announced : String} {store store' : Store}
    {attempts : List (Bytes × String × Option StoreFault)} (hts : store.OfTs)
    (hl : store.lookup id ≠ none)
    (hrun : Lts.run (rejectStep id announced) store attempts = some store') : store' = store := by
  refine Lts.run_inv_of_step (I := fun st => st = store) (fun st attempt st' hst hstep => ?_)
    attempts rfl hrun
  subst hst
  exact rejectStep_unchanged hts (fun h => hl h.1) hstep

/-- After rejected handshakes of a peer that had no pin, the handshake with the announced key is
accepted exactly where every one of them failed in the file system. -/
theorem accepted_after_rejections {id announced : String} {authenticated : Bytes}
    (ha : announced = encodeBase64 authenticated) (stamp : String) :
    ∀ {attempts : List (Bytes × String × Option StoreFault)} {store store' : Store},
      store.OfTs → store.lookup id = none →
      Lts.run (rejectStep id announced) store attempts = some store' →
      ((verify store' id announced authenticated stamp none).2 = .accepted
        ↔ ∀ attempt ∈ attempts, ¬ store.Works attempt.2.2)
  | [], store, store', hts, hl, hrun => by
    rw [Lts.run_nil, Option.some.injEq] at hrun
    subst hrun
    obtain ⟨store', hpin, -⟩ :=
      Store.pinOrVerify_first hts hl hts.works_none (encodeBase64 authenticated) stamp
    simp only [verify, hpin, List.not_mem_nil, false_implies, implies_true, iff_true]
    exact crossCheck_ok_accepted_iff.2 (Or.inr ha)
  | attempt :: rest, store, store', hts, hl, hrun => by
    obtain ⟨store₁, h1, h2⟩ := Lts.run_cons_eq_some.1 hrun
    by_cases hw : store.Works attempt.2.2
    · obtain ⟨store₂, hpin, hts₂, hl₂⟩ :=
        Store.pinOrVerify_first hts hl hw (encodeBase64 attempt.1) attempt.2.1
      obtain ⟨hrej, hst⟩ := rejectStep_eq_some.1 h1
      simp only [verify, hpin] at hrej hst
      subst hst
      obtain rfl := run_rejectStep_pinned hts₂ (by rw [hl₂]; simp) h2
      have hother : encodeBase64 attempt.1 ≠ encodeBase64 authenticated := by
        intro heq
        exact hrej (crossCheck_ok_accepted_iff.2 (Or.inr (ha.trans heq.symm)))
      have hcmp :=
        Store.pinOrVerify_pinned hl₂ hts₂.works_none (encodeBase64 authenticated) stamp
      have hmis : comparePin (some (encodeBase64 attempt.1)) (encodeBase64 authenticated)
          = .mismatch := by
        simp [comparePin, hother]
      rw [hmis] at hcmp
      constructor
      · intro hacc
        simp only [verify, hcmp, crossCheck, reduceCtorEq] at hacc
      · intro h
        exact absurd hw (h attempt List.mem_cons_self)
    · obtain rfl := rejectStep_unchanged hts (fun h => hw h.2) h1
      rw [accepted_after_rejections ha stamp hts hl h2]
      simp [hw]

variable {N : Noise}

namespace Client

theorem applyVerdict_store (port : Port) (c : Client N) (r : Resolution) (v : Verdict) :
    (c.applyVerdict port r v).store = c.store := by
  unfold applyVerdict promote abandon
  repeat' split
  all_goals rfl

/-- Resolution `k` is that of a completed handshake on `conn`, which authenticated `key`. -/
structure Completed (c : Client N) (k : ℕ) (conn : PeerConn) (key : Bytes) : Prop where
  resolution : ∃ r s, c.outstanding[k]? = some r ∧ r.pin = none ∧ r.announced = none
    ∧ c.conns[r.conn]? = some conn ∧ c.sessions[r.session]? = some s ∧ s.status = .ready
    ∧ s.peerStatic = some key

/-- What `resolveHandshake` does to the store and decides is `verify`. -/
theorem resolveHandshake_verify {c : Client N} {k : ℕ} {conn : PeerConn} {key : Bytes}
    (h : c.Completed k conn key) (port : Port) (stamp : String) (fault : Option StoreFault) :
    ∃ c', c.resolveHandshake port k stamp fault
        = some (c', (verify c.store conn.id conn.announcedStaticKey key stamp fault).2)
      ∧ c'.store = (verify c.store conn.id conn.announcedStaticKey key stamp fault).1 := by
  obtain ⟨r, s, hr, hpin, hann, hconn, hs, hst, hkey⟩ := h.resolution
  have hlt := (List.getElem?_eq_some_iff.1 hr).1
  obtain ⟨status, initiator, hs₀, got, send, recv, peerStatic⟩ := s
  dsimp only at hst hkey
  subst hst hkey
  have hstep : c.pinStep port k stamp fault = some { c with
      store := (c.store.pinOrVerify conn.id (encodeBase64 key) stamp fault).1
      outstanding := c.outstanding.set k { r with
        pin := some (c.store.pinOrVerify conn.id (encodeBase64 key) stamp fault).2
        announced := if port = .cpp then some conn.announcedStaticKey else none } } := by
    simp only [pinStep, hr, hpin, hconn, hs]
  have hget : (if port = .cpp then some conn.announcedStaticKey else none).getD
      conn.announcedStaticKey = conn.announcedStaticKey := by
    split <;> rfl
  simp only [resolveHandshake, hstep, Option.getD_some, List.getElem?_set_self hlt,
    Option.bind_eq_bind, Option.bind_some, verdict, hconn, hs, ne_eq, not_true_eq_false, if_false,
    hget, settleStep, Option.map_some]
  exact ⟨_, rfl, by rw [applyVerdict_store]; rfl⟩

end Client

end Sdk

/-- When a rejected handshake leaves the trusted keys alone, for one call and for what a run of
rejected handshakes does to a peer that had no pin: in Go, then in TypeScript. -/
theorem rejected_unchanged_iff (N : Noise) :
    (∀ (c : Go.Client N) (authenticated : Bytes) (env : Go.Env),
      (∀ c' e, c.verifyAndPin authenticated env = some (c', .error e) →
          c'.peerStore = c.peerStore)
        ↔ (c.peerStore.peers.isSome → c.peerStore.get c.peer.id = none →
          env.fault = none ∧ c.Announced authenticated ∧ authenticated.length = 32))
    ∧ (∀ (c c' : Go.Client N) (attempts : List (Bytes × Go.Env)) (authenticated : Bytes)
        (env : Go.Env), c.peerStore.peers.isSome → c.peerStore.get c.peer.id = none →
      c.peer.announcedStaticKey = encodeBase64 authenticated → authenticated.length = 32 →
      env.fault = none → Lts.run Go.Client.rejectStep c attempts = some c' →
      ((∃ d pub, c'.verifyAndPin authenticated env = some (d, .ok pub))
        ↔ ∀ first ∈ attempts.head?, first.1 = authenticated))
    ∧ (∀ (c : Sdk.Client N) (k : ℕ) (conn : Sdk.PeerConn) (key : Bytes) (stamp : String)
        (fault : Option Sdk.StoreFault), c.store.OfTs → c.Completed k conn key →
      ∃ c' v, c.resolveHandshake .ts k stamp fault = some (c', v)
        ∧ ((v ≠ .accepted → c'.store = c.store)
          ↔ (c.store.lookup conn.id = none → c.store.Works fault →
            Sdk.Announced conn.announcedStaticKey key)))
    ∧ (∀ (id announced : String) (authenticated : Bytes) (stamp : String)
        (attempts : List (Bytes × String × Option Sdk.StoreFault)) (store store' : Sdk.Store),
      store.OfTs → store.lookup id = none → announced = encodeBase64 authenticated →
      Lts.run (Sdk.rejectStep id announced) store attempts = some store' →
      ((Sdk.verify store' id announced authenticated stamp none).2 = .accepted
        ↔ ∀ attempt ∈ attempts, ¬ store.Works attempt.2.2)) := by
  refine ⟨fun c a env => c.verifyAndPin_unchanged_iff a env, ?_, ?_, ?_⟩
  · intro c c' attempts a env hp hg ha hl hf hrun
    rw [Go.Client.accepted_after_rejections hp hg ha hl hf hrun]
    simp only [encodeBase64_injective.eq_iff]
  · intro c k conn key stamp fault hts hc
    obtain ⟨c', hres, hstore⟩ := Sdk.Client.resolveHandshake_verify hc .ts stamp fault
    refine ⟨c', _, hres, ?_⟩
    rw [hstore]
    exact Sdk.verify_unchanged_iff hts conn.id conn.announcedStaticKey key stamp fault
  · intro id announced a stamp attempts store store' hts hl ha hrun
    exact Sdk.accepted_after_rejections ha stamp hts hl hrun

/-- The key of peer `b`, which the server announces, and another one. -/
def keyOfB : Bytes := List.replicate 32 2
def otherKey : Bytes := List.replicate 32 9

/-- A Go client linked to `b` that has pinned nothing. -/
def goLinked : Go.Client plainNoise where
  deviceID := "a"
  privateKey := .ofByte 1
  rand _ := []
  peerStore := { peers := some fun _ => none, disk := none }
  peer := Go.newPeerConn "b" (encodeBase64 keyOfB)

/-- A TypeScript client linked to `b` that has pinned nothing, with a handshake to resolve that
authenticated `key`. -/
def tsCompleted (key : Bytes) : Sdk.Client plainNoise where
  deviceID := "a"
  privateKey := List.replicate 32 1
  rand _ := []
  store := .memory fun _ => none
  conns := [{ Sdk.newPeerConn .ts "b" (encodeBase64 keyOfB) with active := some 0 }]
  peers := [("b", 0)]
  sessions := [{ status := .ready, initiator := true, hs := .done key, peerStatic := some key }]
  outstanding := [{ conn := 0, session := 0, wasPending := false }]

/-- A handshake with another key than the announced one is rejected and leaves its key as the pin,
after which the handshake with the announced key is rejected too. -/
theorem rejected_leaves_pin :
    ((goLinked.verifyAndPin otherKey ⟨0, "", none⟩).map fun r =>
        (r.2.isOk, (r.1.peerStore.get "b").map PinnedPeer.staticKey))
      = some (false, some (encodeBase64 otherKey))
    ∧ (((goLinked.verifyAndPin otherKey ⟨0, "", none⟩).bind fun r =>
        r.1.verifyAndPin keyOfB ⟨0, "", none⟩).map fun r => r.2.isOk) = some false
    ∧ (((tsCompleted otherKey).resolveHandshake .ts 0 "" none).map fun r =>
        (r.2, r.1.store.lookup "b"))
      = some (.announcedMismatch, some (some (encodeBase64 otherKey)))
    ∧ (((tsCompleted otherKey).resolveHandshake .ts 0 "" none).map fun r =>
        (Sdk.verify r.1.store "b" (encodeBase64 keyOfB) keyOfB "" none).2)
      = some .pinMismatch := by
  refine ⟨?_, ?_, ?_, ?_⟩ <;> decide +kernel

theorem rejected_unchanged_iff_linked :
    (goLinked.rejectStep (keyOfB, ⟨0, "", some (.write "")⟩)).isSome
    ∧ (∀ c', Lts.run Go.Client.rejectStep goLinked [(keyOfB, ⟨0, "", some (.write "")⟩)] = some c' →
      ((∃ d pub, c'.verifyAndPin keyOfB ⟨0, "", none⟩ = some (d, .ok pub))
        ↔ ∀ first ∈ [(keyOfB, (⟨0, "", some (.write "")⟩ : Go.Env))].head?, first.1 = keyOfB))
    ∧ ∃ c' v, (tsCompleted keyOfB).resolveHandshake .ts 0 "" none = some (c', v)
        ∧ ((v ≠ .accepted → c'.store = (tsCompleted keyOfB).store)
          ↔ ((tsCompleted keyOfB).store.lookup "b" = none →
            (tsCompleted keyOfB).store.Works none → Sdk.Announced (encodeBase64 keyOfB) keyOfB)) :=
  ⟨by decide +kernel,
    fun c' h => (rejected_unchanged_iff plainNoise).2.1 goLinked c' _ keyOfB ⟨0, "", none⟩ rfl rfl
      rfl rfl rfl h,
    (rejected_unchanged_iff plainNoise).2.2.1 (tsCompleted keyOfB) 0 _ keyOfB "" none trivial
      ⟨_, _, rfl, rfl, rfl, rfl, rfl, rfl, rfl⟩⟩

end Relayly
