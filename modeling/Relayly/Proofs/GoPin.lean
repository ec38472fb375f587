import Relayly.Lib.Run
import Relayly.Go.Client

/-!
# The pin and the cross-check

`verifyAndPin` writes a first pin before it has compared the announced key, so a call that fails
may leave a pin behind.
-/

namespace Relayly.Go

variable {N : Noise}

namespace PeerStore

theorem saveLocked_peers (ps : PeerStore) (fault : Option SaveFault) :
    (ps.saveLocked fault).1.peers = ps.peers := by
  cases fault <;> rfl

/-- The store with its first pin for `id`, before it is saved. -/
def withPin (ps : PeerStore) (peers : Pins) (id key stamp : String) : PeerStore :=
  { ps with peers := some (Function.update peers id (some ⟨key, stamp⟩)) }

theorem pinOrVerify_pinned {ps : PeerStore} {id : String} {pin : PinnedPeer}
    (h : ps.get id = some pin) (key stamp : String) (fault : Option SaveFault) :
    ps.pinOrVerify id key stamp fault
      = some (ps, if pin.staticKey = key then none else some errPeerKeyMismatch) := by
  unfold pinOrVerify
  rw [h]
  dsimp only
  split_ifs <;> simp_all

theorem pinOrVerify_first {ps : PeerStore} {id : String} {peers : Pins} (hp : ps.peers = some peers)
    (h : ps.get id = none) (key stamp : String) (fault : Option SaveFault) :
    ps.pinOrVerify id key stamp fault
      = some ((ps.withPin peers id key stamp).saveLocked fault) := by
  unfold pinOrVerify
  rw [h, hp]
  rfl

theorem pinOrVerify_nil {ps : PeerStore} (hp : ps.peers = none) (id key stamp : String)
    (fault : Option SaveFault) : ps.pinOrVerify id key stamp fault = none := by
  simp [pinOrVerify, get, hp]

theorem withPin_get (ps : PeerStore) (peers : Pins) (id key stamp : String) :
    (ps.withPin peers id key stamp).get id = some ⟨key, stamp⟩ := by
  simp [withPin, get]

theorem saveLocked_get (ps : PeerStore) (fault : Option SaveFault) (id : String) :
    (ps.saveLocked fault).1.get id = ps.get id := by
  rw [get, get, saveLocked_peers]

/-- A call on a store with a map neither panics nor loses the map, and one that reports no error
has the key as the pin. -/
theorem pinOrVerify_spec {ps : PeerStore} (hp : ps.peers.isSome) (id key stamp : String)
    (fault : Option SaveFault) :
    ∃ ps' err, ps.pinOrVerify id key stamp fault = some (ps', err) ∧ ps'.peers.isSome
      ∧ (err = none → ∃ pin, ps'.get id = some pin ∧ pin.staticKey = key) := by
  obtain ⟨peers, hp⟩ := Option.isSome_iff_exists.1 hp
  rcases hg : ps.get id with _ | pin
  · have hfirst := pinOrVerify_first hp hg key stamp fault
    rcases hs : (ps.withPin peers id key stamp).saveLocked fault with ⟨ps', err⟩
    have hpeers := saveLocked_peers (ps.withPin peers id key stamp) fault
    have hget := saveLocked_get (ps.withPin peers id key stamp) fault id
    rw [hs] at hfirst hpeers hget
    refine ⟨ps', err, hfirst, ?_, fun _ => ⟨_, hget.trans (withPin_get ..), rfl⟩⟩
    rw [hpeers]
    rfl
  · refine ⟨_, _, pinOrVerify_pinned hg key stamp fault, by rw [hp]; rfl, fun he => ?_⟩
    by_cases hk : pin.staticKey = key
    · exact ⟨pin, hg, hk⟩
    · simp [hk] at he

end PeerStore

theorem publicKeyFromBase64_encodeBase64 (raw : Bytes) :
    publicKeyFromBase64 (encodeBase64 raw) = if h : raw.length = 32 then .ok ⟨raw, h⟩
      else .error ⟨"relayly: invalid public key length: expected 32, got " ++ toString raw.length,
        none⟩ := by
  rw [publicKeyFromBase64, decodeBase64_encodeBase64]

namespace Client

/-- The server announced no key for the peer, or this one. -/
def Announced (c : Client N) (authenticated : Bytes) : Prop :=
  c.peer.announcedStaticKey = "" ∨ c.peer.announcedStaticKey = encodeBase64 authenticated

theorem crossCheck_isOk_iff (c : Client N) (authenticated : Bytes) :
    (c.crossCheck (encodeBase64 authenticated)).isOk = true
      ↔ c.Announced authenticated ∧ authenticated.length = 32 := by
  unfold crossCheck Announced
  rw [publicKeyFromBase64_encodeBase64]
  split_ifs with h1 h2
  · simp only [Except.isOk, Except.toBool, Bool.false_eq_true, false_iff]
    tauto
  · simp only [Except.isOk, Except.toBool, true_iff]
    exact ⟨by tauto, h2⟩
  · simp [Except.isOk, Except.toBool, h2]

/-- `verifyAndPin` changes the peer store alone. -/
theorem verifyAndPin_store {c c' : Client N} {authenticated : Bytes} {env : Env}
    {r : Except GoError PublicKey} (h : c.verifyAndPin authenticated env = some (c', r)) :
    ∃ ps, c' = { c with peerStore := ps } := by
  unfold verifyAndPin at h
  dsimp only at h
  split at h
  · cases h
  · cases h
    exact ⟨_, rfl⟩
  · cases h
    exact ⟨_, rfl⟩

theorem verifyAndPin_ok {c c' : Client N} {authenticated : Bytes} {env : Env} {pub : PublicKey}
    (h : c.verifyAndPin authenticated env = some (c', .ok pub)) :
    (∃ pin, c'.peerStore.get c.peer.id = some pin ∧ pin.staticKey = encodeBase64 authenticated)
      ∧ c.Announced authenticated ∧ authenticated.length = 32 := by
  unfold verifyAndPin at h
  dsimp only at h
  split at h
  · cases h
  · cases h
  · rename_i ps hpin
    simp only [Option.some.injEq, Prod.mk.injEq] at h
    obtain ⟨rfl, hcheck⟩ := h
    have hp : c.peerStore.peers.isSome := by
      rw [Option.isSome_iff_ne_none]
      intro hnil
      rw [PeerStore.pinOrVerify_nil hnil] at hpin
      cases hpin
    obtain ⟨ps', err, hspec, -, hget⟩ := PeerStore.pinOrVerify_spec hp c.peer.id
      (encodeBase64 authenticated) env.stamp env.fault
    rw [hpin] at hspec
    cases hspec
    refine ⟨hget rfl, (crossCheck_isOk_iff c authenticated).1 ?_⟩
    rw [hcheck]
    rfl

theorem verifyAndPin_isSome {c : Client N} (hp : c.peerStore.peers.isSome) (authenticated : Bytes)
    (env : Env) :
    ∃ c' r, c.verifyAndPin authenticated env = some (c', r) ∧ c'.peerStore.peers.isSome := by
  obtain ⟨ps, _ | e, hspec, hps, -⟩ := PeerStore.pinOrVerify_spec hp c.peer.id
    (encodeBase64 authenticated) env.stamp env.fault
  · exact ⟨{ c with peerStore := ps }, c.crossCheck (encodeBase64 authenticated),
      by simp [verifyAndPin, hspec], hps⟩
  · exact ⟨{ c with peerStore := ps }, _, by simp [verifyAndPin, hspec]; rfl, hps⟩

theorem verifyAndPin_pinned {c : Client N} {pin : PinnedPeer} {authenticated : Bytes} {env : Env}
    (hg : c.peerStore.get c.peer.id = some pin) (hk : pin.staticKey = encodeBase64 authenticated) :
    c.verifyAndPin authenticated env = some (c, c.crossCheck (encodeBase64 authenticated)) := by
  have h := PeerStore.pinOrVerify_pinned hg (encodeBase64 authenticated) env.stamp env.fault
  rw [if_pos hk] at h
  simp only [verifyAndPin, h]

theorem verifyAndPin_mismatch {c : Client N} {pin : PinnedPeer} {authenticated : Bytes}
    (hg : c.peerStore.get c.peer.id = some pin) (hk : pin.staticKey ≠ encodeBase64 authenticated)
    (env : Env) : ∃ e, c.verifyAndPin authenticated env = some (c, .error e) := by
  have h := PeerStore.pinOrVerify_pinned hg (encodeBase64 authenticated) env.stamp env.fault
  rw [if_neg hk] at h
  refine ⟨GoError.wrap "" errPeerKeyMismatch (" (peer " ++ c.peer.id ++ ")"), ?_⟩
  simp only [verifyAndPin, h]

/-- The store with its first pin, saved or not. -/
def pinnedStore (c : Client N) (peers : Pins) (authenticated : Bytes) (env : Env) : PeerStore :=
  ((c.peerStore.withPin peers c.peer.id (encodeBase64 authenticated) env.stamp).saveLocked
    env.fault).1

theorem pinnedStore_get (c : Client N) (peers : Pins) (authenticated : Bytes) (env : Env) :
    (c.pinnedStore peers authenticated env).get c.peer.id
      = some ⟨encodeBase64 authenticated, env.stamp⟩ := by
  rw [pinnedStore, PeerStore.saveLocked_get, PeerStore.withPin_get]

/-- A first call pins the key whatever comes of it, and succeeds where the store is saved and the
announced key agrees. -/
theorem verifyAndPin_first {c : Client N} {peers : Pins} (hp : c.peerStore.peers = some peers)
    (hg : c.peerStore.get c.peer.id = none) (authenticated : Bytes) (env : Env) :
    ∃ r, c.verifyAndPin authenticated env
        = some ({ c with peerStore := c.pinnedStore peers authenticated env }, r)
      ∧ (r.isOk = true ↔
        env.fault = none ∧ c.Announced authenticated ∧ authenticated.length = 32) := by
  have h := PeerStore.pinOrVerify_first hp hg (encodeBase64 authenticated) env.stamp env.fault
  rcases hf : env.fault with _ | fault <;> rw [hf] at h
  · refine ⟨c.crossCheck (encodeBase64 authenticated), ?_, ?_⟩
    · simp only [verifyAndPin, hf, h, pinnedStore, PeerStore.saveLocked]
    · rw [crossCheck_isOk_iff]
      simp
  · refine ⟨.error (GoError.wrap "" fault.error (" (peer " ++ c.peer.id ++ ")")), ?_, ?_⟩
    · simp only [verifyAndPin, hf, h, pinnedStore, PeerStore.saveLocked]
    · simp [Except.isOk, Except.toBool]

/-- A failing call leaves the store alone, exactly where it is not one that pins. -/
theorem verifyAndPin_unchanged_iff (c : Client N) (authenticated : Bytes) (env : Env) :
    (∀ c' e, c.verifyAndPin authenticated env = some (c', .error e) → c'.peerStore = c.peerStore)
      ↔ (c.peerStore.peers.isSome → c.peerStore.get c.peer.id = none →
        env.fault = none ∧ c.Announced authenticated ∧ authenticated.length = 32) := by
  rcases hp : c.peerStore.peers with _ | peers
  · simp [verifyAndPin, PeerStore.pinOrVerify_nil hp]
  rcases hg : c.peerStore.get c.peer.id with _ | pin
  · obtain ⟨r, hv, hok⟩ := verifyAndPin_first hp hg authenticated env
    simp only [Option.isSome_some, true_implies]
    rw [← hok]
    rcases r with e | pub
    · simp only [Except.isOk, Except.toBool, Bool.false_eq_true, iff_false]
      intro h
      have hsame := congrArg (fun ps => ps.get c.peer.id) (h _ e hv)
      dsimp only at hsame
      rw [pinnedStore_get, hg] at hsame
      cases hsame
    · simp only [Except.isOk, Except.toBool, iff_true]
      intro c' e h
      rw [hv] at h
      cases h
  · simp only [reduceCtorEq, false_implies, implies_true, iff_true]
    intro c' e h
    by_cases hk : pin.staticKey = encodeBase64 authenticated
    · rw [verifyAndPin_pinned hg hk] at h
      simp only [Option.some.injEq, Prod.mk.injEq] at h
      rw [h.1]
    · obtain ⟨e', hv⟩ := verifyAndPin_mismatch hg hk env
      rw [hv] at h
      cases h
      rfl

/-- A completed handshake that `verifyAndPin` rejects: the authenticated key and the environment of
the call. -/
def rejectStep (c : Client N) (attempt : Bytes × Env) : Option (Client N) :=
  match c.verifyAndPin attempt.1 attempt.2 with
  | some (c', .error _) => some c'
  | _ => none

theorem rejectStep_eq_some {c c' : Client N} {attempt : Bytes × Env} :
    c.rejectStep attempt = some c'
      ↔ ∃ e, c.verifyAndPin attempt.1 attempt.2 = some (c', .error e) := by
  unfold rejectStep
  rcases c.verifyAndPin attempt.1 attempt.2 with _ | ⟨c₁, e | pub⟩ <;> simp

/-- A pin outlives every rejection. -/
theorem rejectStep_pinned {c c' : Client N} {attempt : Bytes × Env} {pin : PinnedPeer}
    (hg : c.peerStore.get c.peer.id = some pin) (h : c.rejectStep attempt = some c') : c' = c := by
  obtain ⟨e, hv⟩ := rejectStep_eq_some.1 h
  have hsame := (verifyAndPin_unchanged_iff c attempt.1 attempt.2).2 (by simp [hg]) c' e hv
  obtain ⟨ps, rfl⟩ := verifyAndPin_store hv
  dsimp only at hsame
  rw [hsame]

theorem run_rejectStep_pinned {c c' : Client N} {attempts : List (Bytes × Env)} {pin : PinnedPeer}
    (hg : c.peerStore.get c.peer.id = some pin)
    (h : Lts.run rejectStep c attempts = some c') : c' = c := by
  refine Lts.run_inv_of_step (I := fun d => d = c) (fun d attempt d' hd hstep => ?_) attempts rfl h
  subst hd
  exact rejectStep_pinned hg hstep

/-- After rejected handshakes of a peer that had no pin, the handshake with the announced key is
accepted exactly where the first of them had that key too. -/
theorem accepted_after_rejections {c c' : Client N} {attempts : List (Bytes × Env)}
    {authenticated : Bytes} {env : Env} (hp : c.peerStore.peers.isSome)
    (hg : c.peerStore.get c.peer.id = none)
    (ha : c.peer.announcedStaticKey = encodeBase64 authenticated)
    (hl : authenticated.length = 32) (hf : env.fault = none)
    (hrun : Lts.run rejectStep c attempts = some c') :
    (∃ d pub, c'.verifyAndPin authenticated env = some (d, .ok pub))
      ↔ ∀ first ∈ attempts.head?, encodeBase64 first.1 = encodeBase64 authenticated := by
  obtain ⟨peers, hp⟩ := Option.isSome_iff_exists.1 hp
  rcases attempts with _ | ⟨first, rest⟩
  · rw [Lts.run_nil, Option.some.injEq] at hrun
    subst hrun
    obtain ⟨r, hv, hok⟩ := verifyAndPin_first hp hg authenticated env
    have hr := hok.2 ⟨hf, Or.inr ha, hl⟩
    rcases r with e | pub
    · cases hr
    · simp [hv]
  · obtain ⟨c₁, h1, h2⟩ := Lts.run_cons_eq_some.1 hrun
    obtain ⟨e, hv1⟩ := rejectStep_eq_some.1 h1
    obtain ⟨r, hv, -⟩ := verifyAndPin_first hp hg first.1 first.2
    rw [hv1, Option.some.injEq, Prod.mk.injEq] at hv
    obtain ⟨rfl, -⟩ := hv
    have hpin := c.pinnedStore_get peers first.1 first.2
    obtain rfl := run_rejectStep_pinned hpin h2
    simp only [List.head?_cons, Option.mem_def, Option.some.injEq, forall_eq']
    by_cases hk : encodeBase64 first.1 = encodeBase64 authenticated
    · simp only [hk, iff_true]
      have hcheck := (crossCheck_isOk_iff
        ({ c with peerStore := c.pinnedStore peers first.1 first.2 } : Client N) authenticated).2
        ⟨Or.inr ha, hl⟩
      rw [verifyAndPin_pinned hpin hk]
      rcases hr : ({ c with peerStore := c.pinnedStore peers first.1 first.2 } : Client N).crossCheck
        (encodeBase64 authenticated) with e | pub
      · rw [hr] at hcheck
        cases hcheck
      · exact ⟨_, pub, rfl⟩
    · simp only [hk, iff_false, not_exists]
      intro d pub hd
      have hk' : (PinnedPeer.mk (encodeBase64 first.1) first.2.stamp).staticKey
          ≠ encodeBase64 authenticated := hk
      obtain ⟨e', he'⟩ := verifyAndPin_mismatch
        (c := { c with peerStore := c.pinnedStore peers first.1 first.2 }) hpin hk' env
      rw [he'] at hd
      cases hd

end Client

end Relayly.Go
