import Relayly.Proofs.GoInterleave

/-!
# The sessions `Send` encrypts under

A session is ready as soon as its handshake ends, and `resolveHandshake` verifies its key in later
steps. A first handshake runs in the active slot, where `Send` finds the session in between.
-/

namespace Relayly.Go

variable {N : Noise}

/-- The session a call is about to encrypt under. -/
def Sending.about : Sending → Option ℕ
  | .picked i _ => some i
  | _ => none

namespace Client

theorem setSession_ready {c : Client N} {i : ℕ} {s s' : NoiseSession N}
    (hs : c.sessions[i]? = some s) (hst : s'.status = s.status) (j : ℕ) :
    (c.setSession i s').ready j = c.ready j := by
  have hlt := (List.getElem?_eq_some_iff.1 hs).1
  unfold Client.ready Client.setSession
  by_cases hij : i = j
  · subst hij
    rw [List.getElem?_set_self hlt, hs]
    simp [NoiseSession.ready, hst]
  · simp [List.getElem?_set_ne hij]

theorem Trusted.setSession {c : Client N} {i j : ℕ} {s s' : NoiseSession N} (h : c.Trusted j)
    (hs : c.sessions[i]? = some s) (hst : s'.status = s.status)
    (hp : s'.peerStatic = s.peerStatic) : (c.setSession i s').Trusted j := by
  obtain ⟨sj, pin, hj, hstj, hget, hkey, hann⟩ := h
  by_cases hij : i = j
  · subst hij
    obtain rfl : s = sj := by simpa [hs] using hj
    refine ⟨s', pin, List.getElem?_set_self (List.getElem?_eq_some_iff.1 hs).1, by rwa [hst], hget,
      by rw [hp, hkey], by rw [hp]; exact hann⟩
  · exact ⟨sj, pin, by rw [Client.setSession, List.getElem?_set_ne hij, hj], hstj, hget, hkey, hann⟩

end Client

namespace State

/-- No session yet, and nothing under way. -/
structure Fresh (st : State N) : Prop where
  sessions : st.client.sessions = []
  reader : st.reader = .idle
  threads : st.threads = []
  sends : st.sends = []

theorem Fresh.sealed {st : State N} (h : st.Fresh) : st.sealed = [] := by
  simp [State.sealed, placed, unsent, h.threads, h.sends]

/-- The session a step encrypts under, if it is one of `encrypt`. -/
def about (st : State N) : Label → Option ℕ
  | .encrypt t => (st.threads[t]?).bind Sending.about
  | _ => none

/-- A step does not encrypt under a session that is still to be verified, or to be marked as
rejected. -/
def EncryptsVerified (st : State N) (a : Label) : Prop :=
  ∀ i ∈ st.about a, st.reader.unverified ≠ some i

instance (st : State N) (a : Label) : Decidable (st.EncryptsVerified a) :=
  inferInstanceAs (Decidable (∀ i ∈ st.about a, st.reader.unverified ≠ some i))

theorem sealed_encrypt {st : State N} {t i : ℕ} {payload : Bytes}
    (ht : st.threads[t]? = some (.picked i payload)) (e : Sealed) (c : Client N) :
    ({ st.setThread t (.encrypted e) with client := c } : State N).sealed.Perm (e :: st.sealed) := by
  have h1 := ListPerm.filterMap_set_perm ht (.encrypted e) Sending.unsent
  have h2 := ListPerm.filterMap_perm_eraseIdx ht Sending.unsent
  refine (List.Perm.append_left st.placed (h1.trans ?_)).trans List.perm_middle
  exact h2.symm.cons e

theorem sealed_enqueue {st : State N} {t : ℕ} {e : Sealed}
    (ht : st.threads[t]? = some (.encrypted e)) :
    ((st.put { data := e.frame, origin := some e }).setThread t (.returned none)).sealed.Perm
      st.sealed := by
  have h1 := ListPerm.filterMap_set_perm ht (.returned none) Sending.unsent
  have h2 := ListPerm.filterMap_perm_eraseIdx ht Sending.unsent
  have hp : ((st.put { data := e.frame, origin := some e }).setThread t
      (.returned none)).placed = st.placed ++ [e] := placed_put ..
  unfold State.sealed
  rw [hp, List.append_assoc]
  exact List.Perm.append_left st.placed ((h1.cons e).trans h2.symm)

structure Verified (st : State N) : Prop where
  ready : ∀ i, st.client.ready i = true → st.client.Trusted i ∨ st.reader.unverified = some i
  sealed : ∀ e ∈ st.sealed, st.client.Trusted e.session

theorem Verified.step {st st' : State N} {a : Label} (h : st.Verified) (ha : st.EncryptsVerified a)
    (hstep : st.step a = some st') : st'.Verified := by
  have heff := step_effect hstep
  cases heff with
  | reads k _ hth hp hev hk =>
    refine ⟨fun i hi => ?_, fun e he => hev.trusted (h.sealed e ?_)⟩
    · have hend : st.reader.unverified = some i ∨ k = some i →
          st'.client.Trusted i ∨ st'.reader.unverified = some i := by
        intro hwin
        rcases hk i hwin with hr | ht | hn
        · exact Or.inr hr
        · exact Or.inl ht
        · rw [hi] at hn
          cases hn
      rcases hev.ready hi with hold | hnew
      · rcases h.ready i hold with ht | hr
        · exact Or.inl (hev.trusted ht)
        · exact hend (Or.inl hr)
      · exact hend (Or.inr hnew)
    · rwa [State.sealed, hp, unsent, hth] at he
  | waits _ hc hr hp hu =>
    refine ⟨by rw [hc, hr]; exact h.ready, fun e he => ?_⟩
    rw [hc]
    rw [State.sealed, hp] at he
    exact h.sealed e ((List.Perm.append_left _ hu).subset he)
  | encrypts t i payload s cs ht hs hst hcs hx =>
    have hready : st.client.ready i = true := by simp [Client.ready, hs, NoiseSession.ready_iff, hst]
    have hun : st.reader.unverified ≠ some i := ha i (by simp [about, ht, Sending.about])
    have htrust := (h.ready i hready).resolve_right hun
    refine ⟨fun j hj => ?_, fun e he => ?_⟩
    · have hold : st.client.ready j = true := by
        refine (Client.setSession_ready hs ?_ j).symm.trans hj
        rfl
      exact (h.ready j hold).imp_left fun ht => ht.setSession hs rfl rfl
    · refine Client.Trusted.setSession ?_ hs rfl rfl
      rcases List.mem_cons.1 ((sealed_encrypt ht _ _).subset he) with rfl | hold
      · exact htrust
      · exact h.sealed e hold
  | enqueues t e ht =>
    exact ⟨h.ready, fun e he => h.sealed e ((sealed_enqueue ht).subset he)⟩

theorem Fresh.verified {st : State N} (h : st.Fresh) : st.Verified :=
  ⟨by simp [Client.ready, h.sessions], by simp [h.sealed]⟩

/-- Where no `Send` encrypts under a session the read loop has yet to verify, or to mark as
rejected, all that is ever encrypted is so under a session that has the pinned key of the peer and
the announced one. -/
theorem sealed_trusted (st₀ st : State N) (h₀ : st₀.Fresh) (as : List Label)
    (hm : Lts.Meets State.step EncryptsVerified st₀ as) (hrun : Lts.run State.step st₀ as = some st) :
    ∀ e ∈ st.sealed, st.client.Trusted e.session :=
  (Lts.run_inv (fun _ _ _ hi hc hs => hi.step hc hs) as h₀.verified hm hrun).sealed

/-- Device `b` after a restart, with a pinned key for `a` and no session yet. -/
def restartedB : State plainNoise where
  client :=
    { deviceID := "b"
      privateKey := .ofByte 2
      rand := fun i => List.replicate i 0
      peerStore :=
        { peers := some fun id =>
            if id = "a" then some ⟨encodeBase64 (List.replicate 32 1), ""⟩ else none
          disk := none }
      peer := newPeerConn "a" "" }

theorem restartedB_fresh : restartedB.Fresh := ⟨rfl, rfl, rfl, rfl⟩

/-- The first handshake of `restartedB` with a device whose key is `key`, and a `Send` that has
picked its session; the last step makes the session ready. -/
def firstHandshake (key : Bytes) : List Label :=
  [.handshake ⟨0, "", none⟩ (PlainNoise.msg1 [9]), .feed, .reply false, .call "a" [7], .pick 0,
    .handshake ⟨0, "", none⟩ (PlainNoise.msg3 key
      (PlainNoise.msg2 (List.replicate 32 2) [] (PlainNoise.msg1 [9]))), .feed]

/-- A `Send` encrypts for a device whose key is not the pinned one. -/
theorem sealed_untrusted :
    ∃ st, Lts.run State.step restartedB (firstHandshake (List.replicate 32 3) ++ [Label.encrypt 0])
        = some st ∧ ∃ e ∈ st.sealed, e.payload = [7] ∧ ¬ st.client.Trusted e.session := by
  have h : ((Lts.run State.step restartedB
      (firstHandshake (List.replicate 32 3) ++ [Label.encrypt 0])).map fun st =>
        (st.sealed.map fun e => (e.session, e.payload), st.client.peer.id,
          (st.client.sessions[0]?).map NoiseSession.peerStatic,
          (st.client.peerStore.get "a").map PinnedPeer.staticKey))
      = some ([(0, [7])], "a", some (List.replicate 32 3),
          some (encodeBase64 (List.replicate 32 1))) := by
    decide +kernel
  obtain ⟨st, hrun, hst⟩ := Option.map_eq_some_iff.1 h
  simp only [Prod.mk.injEq] at hst
  obtain ⟨hsealed, hid, hstatic, hpin⟩ := hst
  obtain ⟨e, he, hval⟩ : ∃ e ∈ st.sealed, (e.session, e.payload) = (0, [7]) := by
    rw [← List.mem_map, hsealed]
    exact List.mem_singleton_self _
  obtain ⟨hsession, hpayload⟩ := Prod.mk.inj hval
  refine ⟨st, hrun, e, he, hpayload, ?_⟩
  rintro ⟨s, pin, hs, -, hget, hkey, -⟩
  rw [hsession] at hs
  rw [hid] at hget
  rw [hs, Option.map_some, Option.some.injEq] at hstatic
  rw [hget, Option.map_some, Option.some.injEq, hkey, hstatic] at hpin
  revert hpin
  decide +kernel

theorem sealed_trusted_restarted :
    ∃ st, Lts.run State.step restartedB (firstHandshake (List.replicate 32 1)
        ++ [Label.verify, .mark, .finish, .encrypt 0, .enqueue 0]) = some st
      ∧ st.sealed.length = 1 ∧ ∀ e ∈ st.sealed, st.client.Trusted e.session := by
  have h : ((Lts.run State.step restartedB (firstHandshake (List.replicate 32 1)
      ++ [Label.verify, .mark, .finish, .encrypt 0, .enqueue 0])).map fun st => st.sealed.length)
      = some 1 := by decide +kernel
  obtain ⟨st, hrun, hlen⟩ := Option.map_eq_some_iff.1 h
  exact ⟨st, hrun, hlen, sealed_trusted restartedB st restartedB_fresh _ (by decide +kernel) hrun⟩

end State

end Relayly.Go
