import Relayly.Proofs.RelayCodes
import Relayly.Proofs.RelayRest

/-!
# Links and consent

The relay links two devices only after one of them has been given a code and then the other has sent
that code back in time, and each time that a code is given it is good for one link. It may still be
another device's code than the one the sender had in mind.
-/

namespace Relayly.Relay

open scoped List

/-- What the history of a link is made of: a device is given a code, a code that waits for a device is
sent back in time, by the same or another device, and the two are linked. -/
inductive Consent
  | issued (code device : String) (now : ℕ)
  | redeemed (code requester redeemer : String) (now : ℕ)
  | linked (code requester acceptor : String)
  deriving DecidableEq, Repr

namespace Consent

def issues (code device : String) : Consent → Bool
  | .issued code' device' _ => decide (code' = code ∧ device' = device)
  | _ => false

def links (code requester : String) : Consent → Bool
  | .linked code' requester' _ => decide (code' = code ∧ requester' = requester)
  | _ => false

end Consent

/-- The code that `Take` has given to a goroutine, and its requester. -/
def Pc.redeemed : Pc → Option (String × String)
  | .pairAccept (.pairDevices code requesterID) => some (code, requesterID)
  | _ => none

namespace Server

/-- What a step adds to the history. -/
def consent (s : Server) : Label → Option Consent
  | .handler c env => s.conns[c]?.bind fun conn =>
      match conn.pc with
      | .pairRequest => env.code.map fun code => .issued code conn.deviceID env.now
      | .pairAccept (.take code) =>
        match (s.pairCodes.take code env.now).1 with
        | .ok requesterID => some (.redeemed code requesterID conn.deviceID env.now)
        | _ => none
      | .pairAccept (.pairDevices code requesterID) =>
        if env.fault then none
        else
          match s.devices.pairDevices requesterID conn.deviceID with
          | .ok _ => some (.linked code requesterID conn.deviceID)
          | .error _ => none
      | _ => none
  | _ => none

end Server

/-- No link is added to a table. -/
def Devices.Fewer (t t' : Devices) : Prop := ∀ x y, t'.peer x = some y → t.peer x = some y

theorem Devices.Fewer.refl (t : Devices) : t.Fewer t := fun _ _ h => h

section Step

variable {s : Server} {c : ℕ} {conn : Conn} {env : Env} {a : Access} {pc : Pc}

theorem Exec.fewer (h : Exec s c conn a pc) (hpc : conn.pc.redeemed = none) :
    s.devices.Fewer (a.devicesAfter s.devices) := by
  cases h with
  | ordinary _ ha _ =>
    cases ha with
    | devices t' ht =>
      intro x y hxy
      rwa [← Devices.peer_of_pairedWith (ht x)]
    | _ => exact .refl _
  | pair code r t h =>
    rw [h] at hpc
    cases hpc
  | unpair p h =>
    intro x y hxy
    have hxy : (s.devices.unpairDevice conn.deviceID).peer x = some y := hxy
    rw [Devices.peer_unpairDevice] at hxy
    split_ifs at hxy
    exact hxy
  | _ => exact .refl _

/-- The steps of a goroutine, as far as codes and links go, with what they add to the history. -/
inductive Consents (s : Server) (conn : Conn) (env : Env) (a : Access) (pc : Pc) :
    Option Consent → Prop
  | issue (code : String) (h : conn.pc = .pairRequest)
      (hcodes : a.codesAfter s.pairCodes
        = s.pairCodes.put code conn.deviceID pairingCodeTTL env.now)
      (hdev : a.devicesAfter s.devices = s.devices) (hpc : pc.redeemed = none) :
      Consents s conn env a pc (some (.issued code conn.deviceID env.now))
  | redeem (code : String) (entry : PairCodeEntry) (h : conn.pc = .pairAccept (.take code))
      (hentry : s.pairCodes code = some entry) (htime : env.now ≤ entry.expiresAt)
      (hcodes : a.codesAfter s.pairCodes = (s.pairCodes.take code env.now).2)
      (hdev : a.devicesAfter s.devices = s.devices)
      (hpc : pc.redeemed = none
        ∨ pc.redeemed = some (code, entry.requesterID) ∧ entry.requesterID ≠ conn.deviceID) :
      Consents s conn env a pc (some (.redeemed code entry.requesterID conn.deviceID env.now))
  | refuse (code : String) (h : conn.pc = .pairAccept (.take code))
      (hcodes : a.codesAfter s.pairCodes = (s.pairCodes.take code env.now).2)
      (hdev : a.devicesAfter s.devices = s.devices) (hpc : pc.redeemed = none) :
      Consents s conn env a pc none
  | link (code r : String) (t : Devices) (h : conn.pc = .pairAccept (.pairDevices code r))
      (ht : s.devices.pairDevices r conn.deviceID = .ok t)
      (hcodes : a.codesAfter s.pairCodes = s.pairCodes)
      (hdev : a.devicesAfter s.devices = t) (hpc : pc.redeemed = none) :
      Consents s conn env a pc (some (.linked code r conn.deviceID))
  | other (hcodes : a.codesAfter s.pairCodes = s.pairCodes)
      (hdev : s.devices.Fewer (a.devicesAfter s.devices)) (hpc : pc.redeemed = none) :
      Consents s conn env a pc none

theorem take_consents (hc : s.conns[c]? = some conn) {code : String}
    (h : conn.pc = .pairAccept (.take code)) :
    Consents s conn env (handlePairAccept s c conn env (.take code)).1
      (handlePairAccept s c conn env (.take code)).2 (s.consent (.handler c env)) := by
  have he : s.consent (.handler c env) = match (s.pairCodes.take code env.now).1 with
      | .ok requesterID => some (.redeemed code requesterID conn.deviceID env.now)
      | _ => none := by
    simp only [Server.consent, hc, Option.bind_some, h]
  rcases hentry : s.pairCodes code with _ | entry
  · have htake : (s.pairCodes.take code env.now).1 = .unknown := by simp [PairCodes.take, hentry]
    rw [he, htake]
    exact .refuse code h rfl rfl (by simp [handlePairAccept, htake, sendError, Pc.redeemed])
  · by_cases hexp : entry.expiresAt < env.now
    · have htake : (s.pairCodes.take code env.now).1 = .expired := by
        simp [PairCodes.take, hentry, hexp]
      rw [he, htake]
      exact .refuse code h rfl rfl (by simp [handlePairAccept, htake, sendError, Pc.redeemed])
    · have htake : (s.pairCodes.take code env.now).1 = .ok entry.requesterID := by
        simp [PairCodes.take, hentry, hexp]
      rw [he, htake]
      refine .redeem code entry h hentry (Nat.le_of_not_lt hexp) rfl rfl ?_
      by_cases hself : entry.requesterID = conn.deviceID
      · exact .inl (by simp [handlePairAccept, htake, hself, sendError, Pc.redeemed])
      · exact .inr ⟨by simp [handlePairAccept, htake, hself, Pc.redeemed], hself⟩

theorem pairDevices_consents (hc : s.conns[c]? = some conn) {code r : String}
    (h : conn.pc = .pairAccept (.pairDevices code r)) :
    Consents s conn env (handlePairAccept s c conn env (.pairDevices code r)).1
      (handlePairAccept s c conn env (.pairDevices code r)).2 (s.consent (.handler c env)) := by
  simp only [Server.consent, hc, Option.bind_some, h, handlePairAccept]
  by_cases hfault : env.fault
  · simp only [hfault, if_true]
    exact .other rfl (.refl _) rfl
  · simp only [hfault, Bool.false_eq_true, if_false]
    rcases ht : s.devices.pairDevices r conn.deviceID with e | t
    · cases e <;> exact .other rfl (.refl _) rfl
    · exact .link code r t h ht rfl rfl rfl

theorem exec_redeemed {x : Access × Pc} (hx : exec s c conn env = some x)
    (htake : ∀ code, conn.pc ≠ .pairAccept (.take code)) : x.2.redeemed = none := by
  unfold exec at hx
  split at hx
  · split_ifs at hx
    obtain rfl := Option.some.inj hx
    unfold startWelcome
    split <;> rfl
  · next next _ =>
    obtain rfl := Option.some.inj hx
    cases next with
    | welcome peers peer => cases peer <;> rfl
    | _ => rfl
  · cases hx
  · obtain rfl := Option.some.inj hx
    unfold handleAnnounceKey
    split <;> rfl
  · obtain rfl := Option.some.inj hx
    unfold handlePairRequest
    split <;> rfl
  · next next h =>
    obtain rfl := Option.some.inj hx
    cases next with
    | take code => exact absurd h (htake code)
    | pairDevices code r | lookup code r key =>
      simp only [handlePairAccept]
      split <;> rfl
    | _ => rfl
  · next next _ =>
    obtain rfl := Option.some.inj hx
    cases next with
    | unpairDevice p | unpaired p =>
      simp only [handleUnpair]
      split_ifs <;> rfl
    | lookup p =>
      simp only [handleUnpair]
      split <;> rfl
    | _ => rfl
  · next next _ =>
    cases next with
    | peer payload | enqueue peer payload =>
      obtain rfl := Option.some.inj hx
      dsimp only
      split_ifs <;> rfl
    | lookup peerID payload =>
      obtain rfl := Option.some.inj hx
      dsimp only
      split <;> rfl
    | close peer =>
      obtain rfl := Option.some.inj hx
      rfl
    | unregister peer =>
      simp only [route] at hx
      split_ifs at hx
      obtain rfl := Option.some.inj hx
      rfl
  · obtain rfl := Option.some.inj hx
    rfl
  · obtain rfl := Option.some.inj hx
    dsimp only
    split_ifs <;> rfl
  · obtain rfl := Option.some.inj hx
    rfl
  · split_ifs at hx
    obtain rfl := Option.some.inj hx
    rfl
  · obtain rfl := Option.some.inj hx
    rfl
  · cases hx

theorem exec_consents (hc : s.conns[c]? = some conn) {x : Access × Pc}
    (hx : exec s c conn env = some x) : Consents s conn env x.1 x.2 (s.consent (.handler c env)) := by
  have hmove := exec_move hx
  -- Only three accesses of a goroutine are of codes and of new links.
  by_cases hreq : conn.pc = .pairRequest
  · obtain rfl : handlePairRequest s c conn env = x := by simpa [exec, hreq] using hx
    simp only [Server.consent, hc, Option.bind_some, hreq, handlePairRequest]
    rcases hcode : env.code with _ | code
    · exact .other rfl (.refl _) rfl
    · exact .issue code hreq rfl rfl rfl
  by_cases htake : ∃ code, conn.pc = .pairAccept (.take code)
  · obtain ⟨code, h⟩ := htake
    obtain rfl : handlePairAccept s c conn env (.take code) = x := by simpa [exec, h] using hx
    exact take_consents hc h
  by_cases hpair : ∃ code r, conn.pc = .pairAccept (.pairDevices code r)
  · obtain ⟨code, r, h⟩ := hpair
    obtain rfl : handlePairAccept s c conn env (.pairDevices code r) = x := by
      simpa [exec, h] using hx
    exact pairDevices_consents hc h
  have hnone : conn.pc.redeemed = none := by
    unfold Pc.redeemed
    split
    · next code r h => exact absurd ⟨code, r, h⟩ hpair
    · rfl
  have he : s.consent (.handler c env) = none := by
    simp only [Server.consent, hc, Option.bind_some]
    split
    · next h => exact absurd h hreq
    · next code h => exact absurd ⟨code, h⟩ htake
    · next code r h => exact absurd ⟨code, r, h⟩ hpair
    · rfl
  rw [he]
  refine .other ?_ (hmove.fewer hnone) ?_
  · rcases Server.exec_pairCodes hc hx with ⟨code, hi, -⟩ | ⟨code, hr, -⟩ | hsame
    · simp [Server.issue, hc, hreq] at hi
    · simp only [Server.redeem, hc, Option.bind_some] at hr
      split at hr
      · next code h => exact absurd ⟨code, h⟩ htake
      · cases hr
    · exact hsame
  · exact exec_redeemed hx fun code h => htake ⟨code, h⟩

end Step

namespace Server

variable {s s' : Server} {c : ℕ} {conn : Conn} {env : Env} {a : Access} {pc : Pc} {l : Label}
  {h : List Consent}

/-! ## Every link has its history -/

/-- Device `r` was given the code `k`, then the other device `d` redeemed it within its time, and then
came `rest`. -/
def Given (h : List Consent) (k r d : String) (rest : List Consent) : Prop :=
  r ≠ d ∧ ∃ t₀ t, t ≤ t₀ + pairingCodeTTL ∧ .issued k r t₀ :: .redeemed k r d t :: rest <+ h

theorem Given.append {k r d : String} {rest : List Consent} (hg : Given h k r d rest)
    (h' : List Consent) : Given (h ++ h') k r d rest := by
  obtain ⟨hne, t₀, t, hle, hsub⟩ := hg
  exact ⟨hne, t₀, t, hle, hsub.trans (List.sublist_append_left h h')⟩

/-- What comes next is added to both. -/
theorem Given.snoc {k r d : String} (hg : Given h k r d []) (e : Consent) :
    Given (h ++ [e]) k r d [e] := by
  obtain ⟨hne, t₀, t, hle, hsub⟩ := hg
  exact ⟨hne, t₀, t, hle, hsub.append (.refl [e])⟩

/-- What the history has of the codes that wait, of the goroutines that have taken one, and of the
links that were not there from the beginning. -/
structure Consented (devices₀ : Devices) (s : Server) (h : List Consent) : Prop where
  waiting : ∀ k entry, s.pairCodes k = some entry →
    ∃ t₀, .issued k entry.requesterID t₀ ∈ h ∧ entry.expiresAt = t₀ + pairingCodeTTL
  taken : ∀ c d pc, s.seen c = some (d, pc) → ∀ k r, pc.redeemed = some (k, r) → Given h k r d []
  linked : ∀ k r d, .linked k r d ∈ h → Given h k r d [.linked k r d]
  links : ∀ x y, s.devices.peer x = some y →
    devices₀.peer x = some y ∨ ∃ k, .linked k x y ∈ h ∨ .linked k y x ∈ h

/-- A step that no code and no new link takes part in. -/
theorem Consented.same {devices₀ : Devices} (hs : Consented devices₀ s h)
    (hcodes : s'.pairCodes = s.pairCodes) (hdev : s.devices.Fewer s'.devices)
    (hseen : ∀ c d pc, s'.seen c = some (d, pc) → s.seen c = some (d, pc) ∨ pc.redeemed = none) :
    Consented devices₀ s' h where
  waiting := by rw [hcodes]; exact hs.waiting
  taken := fun c d pc hc k r hpc => by
    rcases hseen c d pc hc with hc | hnone
    · exact hs.taken c d pc hc k r hpc
    · rw [hnone] at hpc
      cases hpc
  linked := hs.linked
  links := fun x y hxy => hs.links x y (hdev x y hxy)

/-- A goroutine that comes to no taken code adds none. -/
theorem Consented.taken_advance {devices₀ : Devices} (hs : Consented devices₀ s h)
    (hc : s.conns[c]? = some conn) (hpc : pc.redeemed = none) (h' : List Consent) :
    ∀ c' d pc', (s.advance c a pc).seen c' = some (d, pc') → ∀ k r, pc'.redeemed = some (k, r) →
      Given (h ++ h') k r d [] := by
  intro c' d pc' hc' k r hpc'
  rcases seen_advance_cases hc hc' with hold | ⟨-, rfl, rfl⟩
  · exact (hs.taken c' d pc' hold k r hpc').append h'
  · rw [hpc] at hpc'
    cases hpc'

theorem Consented.issue {devices₀ : Devices} (hs : Consented devices₀ s h)
    (hc : s.conns[c]? = some conn) {code : String}
    (hcodes : a.codesAfter s.pairCodes = s.pairCodes.put code conn.deviceID pairingCodeTTL env.now)
    (hdev : a.devicesAfter s.devices = s.devices) (hpc : pc.redeemed = none) :
    Consented devices₀ (s.advance c a pc) (h ++ [.issued code conn.deviceID env.now]) where
  waiting := fun k entry hentry => by
    rw [advance_pairCodes, hcodes, put_apply] at hentry
    split_ifs at hentry with hk
    · subst hk
      cases hentry
      exact ⟨env.now, by simp, rfl⟩
    · obtain ⟨t₀, hmem, hexp⟩ := hs.waiting k entry hentry
      exact ⟨t₀, List.mem_append_left _ hmem, hexp⟩
  taken := hs.taken_advance hc hpc _
  linked := fun k r d hmem => (hs.linked k r d (by simpa using hmem)).append _
  links := fun x y hxy => by
    rw [advance_devices, hdev] at hxy
    simpa using hs.links x y hxy

theorem Consented.redeem {devices₀ : Devices} (hs : Consented devices₀ s h)
    (hc : s.conns[c]? = some conn) {code : String} {entry : PairCodeEntry}
    (hentry : s.pairCodes code = some entry) (htime : env.now ≤ entry.expiresAt)
    (hcodes : a.codesAfter s.pairCodes = (s.pairCodes.take code env.now).2)
    (hdev : a.devicesAfter s.devices = s.devices)
    (hpc : pc.redeemed = none
      ∨ pc.redeemed = some (code, entry.requesterID) ∧ entry.requesterID ≠ conn.deviceID) :
    Consented devices₀ (s.advance c a pc)
      (h ++ [.redeemed code entry.requesterID conn.deviceID env.now]) where
  waiting := fun k entry' hentry' => by
    rw [advance_pairCodes, hcodes, take_apply] at hentry'
    split_ifs at hentry'
    simpa using hs.waiting k entry' hentry'
  taken := fun c' d pc' hc' k r hpc' => by
    rcases seen_advance_cases hc hc' with hold | ⟨-, rfl, rfl⟩
    · exact (hs.taken c' d pc' hold k r hpc').append _
    · rcases hpc with hnone | ⟨hsome, hne⟩
      · rw [hnone] at hpc'
        cases hpc'
      · -- The code was waiting, so it had been issued before.
        obtain ⟨rfl, rfl⟩ := Prod.mk.inj (Option.some.inj (hsome.symm.trans hpc'))
        obtain ⟨t₀, hmem, hexp⟩ := hs.waiting code entry hentry
        exact ⟨hne, t₀, env.now, hexp ▸ htime, (List.singleton_sublist.2 hmem).append (.refl _)⟩
  linked := fun k r d hmem => (hs.linked k r d (by simpa using hmem)).append _
  links := fun x y hxy => by
    rw [advance_devices, hdev] at hxy
    simpa using hs.links x y hxy

theorem Consented.link {devices₀ : Devices} (hs : Consented devices₀ s h)
    (hc : s.conns[c]? = some conn) {code r : String} {t : Devices}
    (hpc₀ : conn.pc = .pairAccept (.pairDevices code r))
    (ht : s.devices.pairDevices r conn.deviceID = .ok t)
    (hcodes : a.codesAfter s.pairCodes = s.pairCodes) (hdev : a.devicesAfter s.devices = t)
    (hpc : pc.redeemed = none) :
    Consented devices₀ (s.advance c a pc) (h ++ [.linked code r conn.deviceID]) where
  waiting := fun k entry hentry => by
    rw [advance_pairCodes, hcodes] at hentry
    simpa using hs.waiting k entry hentry
  taken := hs.taken_advance hc hpc _
  linked := fun k r' d hmem => by
    rcases List.mem_append.1 hmem with hmem | hnew
    · exact (hs.linked k r' d hmem).append _
    · obtain ⟨rfl, rfl, rfl⟩ : k = code ∧ r' = r ∧ d = conn.deviceID := by simpa using hnew
      -- The goroutine that links is the one that has taken the code.
      have htaken : Given h k r' conn.deviceID [] :=
        hs.taken c conn.deviceID conn.pc (seen_of_conn hc) k r' (by rw [hpc₀]; rfl)
      exact htaken.snoc _
  links := fun x y hxy => by
    obtain ⟨-, -, -, hpeer, -⟩ := Devices.pairDevices_ok ht
    rw [advance_devices, hdev, hpeer] at hxy
    split_ifs at hxy with hx hx
    · cases hxy
      exact .inr ⟨code, .inr (by simp [hx])⟩
    · cases hxy
      exact .inr ⟨code, .inl (by simp [hx])⟩
    · rcases hs.links x y hxy with hold | ⟨k, hk⟩
      · exact .inl hold
      · exact .inr ⟨k, hk.imp (List.mem_append_left _) (List.mem_append_left _)⟩

/-- A code that is refused is gone all the same. -/
theorem Consented.refuse {devices₀ : Devices} (hs : Consented devices₀ s h)
    (hc : s.conns[c]? = some conn) {code : String}
    (hcodes : a.codesAfter s.pairCodes = (s.pairCodes.take code env.now).2)
    (hdev : a.devicesAfter s.devices = s.devices) (hpc : pc.redeemed = none) :
    Consented devices₀ (s.advance c a pc) h where
  waiting := fun k entry hentry => by
    rw [advance_pairCodes, hcodes, take_apply] at hentry
    split_ifs at hentry
    exact hs.waiting k entry hentry
  taken := by simpa using hs.taken_advance hc hpc []
  linked := hs.linked
  links := fun x y hxy => by
    rw [advance_devices, hdev] at hxy
    exact hs.links x y hxy

theorem Consented.handler {devices₀ : Devices} (hs : Consented devices₀ s h)
    (hc : s.conns[c]? = some conn) {e : Option Consent} (hx : Consents s conn env a pc e) :
    Consented devices₀ (s.advance c a pc) (h ++ e.toList) := by
  cases hx with
  | issue code _ hcodes hdev hpc => exact hs.issue hc hcodes hdev hpc
  | redeem code entry _ hentry htime hcodes hdev hpc => exact hs.redeem hc hentry htime hcodes hdev hpc
  | refuse code _ hcodes hdev hpc =>
    rw [Option.toList_none, List.append_nil]
    exact hs.refuse hc hcodes hdev hpc
  | link code r t hpc₀ ht hcodes hdev hpc => exact hs.link hc hpc₀ ht hcodes hdev hpc
  | other hcodes hdev hpc =>
    rw [Option.toList_none, List.append_nil]
    refine hs.same (by rw [advance_pairCodes, hcodes]) (by rw [advance_devices]; exact hdev)
      fun c' d pc' hc' => ?_
    rcases seen_advance_cases hc hc' with hold | ⟨-, rfl, rfl⟩
    · exact .inl hold
    · exact .inr hpc

theorem dispatch_redeemed (c : ℕ) (frame : Inbound) : (dispatch c frame).redeemed = none := by
  cases frame <;> simp only [dispatch] <;> (try split_ifs) <;> rfl

/-- Codes are only given and taken by the goroutines of connections. -/
theorem step_other (hstep : s.step l = some s') (hl : ∀ c env, l ≠ .handler c env) :
    s.consent l = none ∧ s'.pairCodes = s.pairCodes := by
  cases l with
  | handler c env => exact absurd rfl (hl c env)
  | _ =>
    refine ⟨rfl, ?_⟩
    rcases step_pairCodes hstep with ⟨code, d, now, hi, -⟩ | ⟨code, now, hr, -⟩ | hsame
    · cases hi
    · cases hr
    · exact hsame

theorem Consented.step {devices₀ : Devices} (hs : Consented devices₀ s h)
    (hstep : s.step l = some s') : Consented devices₀ s' (h ++ (s.consent l).toList) := by
  by_cases hl : ∃ c env, l = .handler c env
  · obtain ⟨c, env, rfl⟩ := hl
    obtain ⟨conn, x, hc, hx, rfl⟩ := runHandler_exec hstep
    exact hs.handler hc (exec_consents hc hx)
  obtain ⟨hnone, hcodes⟩ := step_other hstep fun c env heq => hl ⟨c, env, heq⟩
  rw [hnone, Option.toList_none, List.append_nil]
  cases step_moves hstep with
  | connect deviceID token now upgraded device =>
    refine hs.same hcodes (.refl _) fun c d pc hc => ?_
    rw [seen_connect] at hc
    split_ifs at hc
    · cases hc
      exact .inr rfl
    · exact .inl hc
  | receive c frame conn hc =>
    refine hs.same hcodes (.refl _) fun c' d pc hc' => ?_
    rcases seen_advance_cases hc hc' with hold | ⟨-, -, rfl⟩
    · exact .inl hold
    · exact .inr (dispatch_redeemed c frame)
  | disconnect c conn hc =>
    refine hs.same hcodes (.refl _) fun c' d pc hc' => ?_
    rcases seen_advance_cases hc hc' with hold | ⟨-, -, rfl⟩
    · exact .inl hold
    · exact .inr rfl
  | handler c env => exact absurd ⟨c, env, rfl⟩ hl
  | quiet l s' hdev hview =>
    refine hs.same hcodes (by rw [hdev]; exact .refl _) fun c d pc hc => .inl ?_
    rwa [seen_of_view hview] at hc

end Server

/-! ## A code is good for one link -/

/-- One if the goroutine has taken the code `k` of `r`. -/
def Pc.takes (k r : String) (pc : Pc) : ℕ := if pc.redeemed = some (k, r) then 1 else 0

theorem Pc.takes_of_none {pc : Pc} (h : pc.redeemed = none) (k r : String) : pc.takes k r = 0 := by
  simp [Pc.takes, h]

theorem Pc.takes_of_some {pc : Pc} {code r' : String} (h : pc.redeemed = some (code, r'))
    (k r : String) : pc.takes k r = if code = k ∧ r' = r then 1 else 0 := by
  simp [Pc.takes, h]

namespace PairCodes

/-- One if the code `k` waits for `r`. -/
def waits (codes : PairCodes) (k r : String) : ℕ :=
  if (codes k).map PairCodeEntry.requesterID = some r then 1 else 0

theorem waits_put (codes : PairCodes) (code d k r : String) (ttl now : ℕ) :
    (codes.put code d ttl now).waits k r
      ≤ codes.waits k r + if code = k ∧ d = r then 1 else 0 := by
  unfold waits
  rw [Server.put_apply]
  by_cases hk : k = code
  · subst hk
    simp
  · simp [hk]

theorem waits_take_le (codes : PairCodes) (code k r : String) (now : ℕ) :
    (codes.take code now).2.waits k r ≤ codes.waits k r := by
  unfold waits
  rw [Server.take_apply]
  by_cases hk : k = code <;> simp [hk]

/-- A code that is taken does not wait any more. -/
theorem waits_take {codes : PairCodes} {code : String} {entry : PairCodeEntry}
    (h : codes code = some entry) (k r : String) (now : ℕ) :
    (codes.take code now).2.waits k r + (if code = k ∧ entry.requesterID = r then 1 else 0)
      = codes.waits k r := by
  unfold waits
  rw [Server.take_apply]
  by_cases hk : k = code
  · subst hk
    simp [h]
  · simp [hk, Ne.symm hk]

end PairCodes

namespace Server

variable {s s' : Server} {c : ℕ} {conn : Conn} {env : Env} {a : Access} {pc : Pc} {l : Label}
  {h : List Consent}

/-- Each time that a code was given, it waits, is held by a goroutine, has made a link, or is gone. -/
def Single (s : Server) (h : List Consent) : Prop :=
  ∀ k r, h.countP (Consent.links k r) + (s.pcs.map (Pc.takes k r)).sum + s.pairCodes.waits k r
    ≤ h.countP (Consent.issues k r)

theorem takes_advance (hc : s.conns[c]? = some conn) (a : Access) (pc : Pc) (k r : String) :
    ((s.advance c a pc).pcs.map (Pc.takes k r)).sum + conn.pc.takes k r
      = (s.pcs.map (Pc.takes k r)).sum + pc.takes k r := by
  have hget : s.pcs[c]? = some conn.pc := by rw [pcs_getElem?, seen_of_conn hc, Option.map_some]
  rw [pcs_advance hc]
  exact ListPerm.sum_map_set hget pc (Pc.takes k r)

theorem Single.handler (hs : s.Single h) (hc : s.conns[c]? = some conn) {e : Option Consent}
    (hx : Consents s conn env a pc e) : (s.advance c a pc).Single (h ++ e.toList) := by
  intro k r
  have hold := hs k r
  have hsum := takes_advance hc a pc k r
  rw [s.advance_pairCodes c a pc, List.countP_append, List.countP_append]
  cases hx with
  | issue code hpc₀ hput hdev hpc =>
    have hwaits := s.pairCodes.waits_put code conn.deviceID k r pairingCodeTTL env.now
    have hissued : [Consent.issued code conn.deviceID env.now].countP (Consent.issues k r)
        = if code = k ∧ conn.deviceID = r then 1 else 0 := by
      simp [Consent.issues, List.countP_singleton]
    have hlinked : [Consent.issued code conn.deviceID env.now].countP (Consent.links k r) = 0 := rfl
    rw [Pc.takes_of_none hpc] at hsum
    rw [hput, Option.toList_some, hissued, hlinked]
    omega
  | redeem code entry hpc₀ hentry htime htake hdev hpc =>
    have hwaits := PairCodes.waits_take hentry k r env.now
    have hheld : pc.takes k r ≤ if code = k ∧ entry.requesterID = r then 1 else 0 := by
      rcases hpc with hnone | ⟨hsome, -⟩
      · rw [Pc.takes_of_none hnone]
        exact Nat.zero_le _
      · rw [Pc.takes_of_some hsome]
    rw [htake, Option.toList_some]
    show _ + 0 + _ + _ ≤ _ + 0
    omega
  | refuse code hpc₀ htake hdev hpc =>
    have hwaits := s.pairCodes.waits_take_le code k r env.now
    rw [Pc.takes_of_none hpc] at hsum
    rw [htake, Option.toList_none, List.countP_nil, List.countP_nil]
    omega
  | link code r' t hpc₀ ht hsame hdev hpc =>
    have hheld : conn.pc.takes k r = if code = k ∧ r' = r then 1 else 0 :=
      Pc.takes_of_some (by rw [hpc₀]; rfl) k r
    have hlinked : [Consent.linked code r' conn.deviceID].countP (Consent.links k r)
        = if code = k ∧ r' = r then 1 else 0 := by
      simp [Consent.links, List.countP_singleton]
    have hissued : [Consent.linked code r' conn.deviceID].countP (Consent.issues k r) = 0 := rfl
    rw [Pc.takes_of_none hpc] at hsum
    rw [hsame, Option.toList_some, hissued, hlinked]
    omega
  | other hsame hdev hpc =>
    rw [Pc.takes_of_none hpc] at hsum
    rw [hsame, Option.toList_none, List.countP_nil, List.countP_nil]
    omega

theorem Single.same (hs : s.Single h) (hcodes : s'.pairCodes = s.pairCodes)
    (hpcs : ∀ k r, (s'.pcs.map (Pc.takes k r)).sum ≤ (s.pcs.map (Pc.takes k r)).sum) :
    s'.Single h := by
  intro k r
  have hold := hs k r
  have hle := hpcs k r
  rw [hcodes]
  omega

theorem Single.step (hs : s.Single h) (hstep : s.step l = some s') :
    s'.Single (h ++ (s.consent l).toList) := by
  by_cases hl : ∃ c env, l = .handler c env
  · obtain ⟨c, env, rfl⟩ := hl
    obtain ⟨conn, x, hc, hx, rfl⟩ := runHandler_exec hstep
    exact hs.handler hc (exec_consents hc hx)
  obtain ⟨hnone, hcodes⟩ := step_other hstep fun c env heq => hl ⟨c, env, heq⟩
  rw [hnone, Option.toList_none, List.append_nil]
  refine hs.same hcodes fun k r => ?_
  have hmoved : ∀ {c conn pc}, s.conns[c]? = some conn → pc.redeemed = none →
      ((s.advance c .none pc).pcs.map (Pc.takes k r)).sum ≤ (s.pcs.map (Pc.takes k r)).sum := by
    intro c conn pc hc hpc
    have hsum := takes_advance hc .none pc k r
    rw [Pc.takes_of_none hpc] at hsum
    omega
  cases step_moves hstep with
  | connect deviceID token now upgraded device => simp [pcs, Pc.takes, Pc.redeemed]
  | receive c frame conn hc => exact hmoved hc (dispatch_redeemed c frame)
  | disconnect c conn hc => exact hmoved hc rfl
  | handler c env => exact absurd ⟨c, env, rfl⟩ hl
  | quiet l s' hdev hview => rw [pcs_of_seen (seen_of_view hview)]

/-- A device is linked by a code at most as often as it was given that code. -/
theorem links_le_issues (devices : Devices) {labels : List Label}
    (hrun : Lts.run step (start devices fun _ => none) labels = some s) (k r : String) :
    (Lts.observed step consent (start devices fun _ => none) labels).countP (Consent.links k r)
      ≤ (Lts.observed step consent (start devices fun _ => none) labels).countP
        (Consent.issues k r) := by
  have hstart : (start devices fun _ => none).Single [] := by
    intro k r
    simp [start, pcs, PairCodes.waits]
  have hs := Lts.run_inv_observed consent (fun s l s' h hs _ hstep => Single.step hs hstep) labels
    hstart (Lts.meets_true labels _) hrun k r
  rw [List.nil_append] at hs
  omega

/-- `a` is given a code once, and linked once. -/
theorem links_le_issues_accepting :
    ∃ s, Lts.run step (start devicesAB fun _ => none) (offering ++ accepting) = some s
      ∧ (Lts.observed step consent (start devicesAB fun _ => none)
          (offering ++ accepting)).countP (Consent.links "1" "a")
        ≤ (Lts.observed step consent (start devicesAB fun _ => none)
          (offering ++ accepting)).countP (Consent.issues "1" "a") := by
  have h : (Lts.run step (start devicesAB fun _ => none) (offering ++ accepting)).isSome := by
    decide +kernel
  obtain ⟨s, hs⟩ := Option.isSome_iff_exists.1 h
  exact ⟨s, hs, links_le_issues devicesAB hs "1" "a"⟩

end Server

end Relayly.Relay
