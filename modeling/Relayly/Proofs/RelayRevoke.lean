import Relayly.Proofs.RelayLoss
import Relayly.Proofs.RelayOrder
import Relayly.Relay.Admin

/-!
# Deleted devices

`DeleteDevice` changes the table and no connection, and `readPump` routes by the peer that its
connection has. So frames go on to and from a device that is deleted while it is linked. Where neither
a row nor a connection nor a goroutine has a link with it, none can come to be: `PairDevices` finds no
row. And where no connection of it is up, none can come up: `Handler` finds no row.
-/

namespace Relayly.Relay

/-- The device that `Route` is about to look up. -/
def Pc.lookup : Pc → Option String
  | .route (.lookup id _) => some id
  | _ => none

/-- The connection whose queue `Route` is about to put a frame in. -/
def Pc.queue : Pc → Option ℕ
  | .route (.enqueue t _) => some t
  | _ => none

/-- The goroutine of a connection has stopped reading. -/
def Pc.ended : Pc → Bool
  | .unregister | .close | .returned => true
  | _ => false

/-- It does not begin again. -/
theorem exec_ended {s : Server} {c : ℕ} {conn : Conn} {env : Env} {x : Access × Pc}
    (hx : exec s c conn env = some x) (h : conn.pc.ended = true) : x.2.ended = true := by
  cases hpc : conn.pc with
  | unregister =>
    simp only [exec, hpc] at hx
    split_ifs at hx
    obtain rfl := Option.some.inj hx
    rfl
  | close =>
    simp only [exec, hpc] at hx
    obtain rfl := Option.some.inj hx
    rfl
  | returned =>
    simp only [exec, hpc] at hx
    cases hx
  | _ =>
    rw [hpc] at h
    cases h

/-- A device `x` may have the peer `p` without a link with `d`. -/
def Without (d x p : String) : Prop := p ≠ d ∧ (x = d → p = "")

instance (d x p : String) : Decidable (Without d x p) := inferInstanceAs (Decidable (_ ∧ _))

theorem without_empty {d : String} (hd : d ≠ "") (x : String) : Without d x "" :=
  ⟨Ne.symm hd, fun _ => rfl⟩

namespace Devices

variable {t t' : Devices} {d : String}

/-- A device has no row, and no row is paired with it. -/
structure Lacks (t : Devices) (d : String) : Prop where
  gone : t d = none
  rows : ∀ x, t.peer x ≠ some d

theorem Lacks.mono (h : t.Lacks d) (hgone : t' d = none)
    (hpeer : ∀ x, t'.peer x = none ∨ t'.peer x = t.peer x) : t'.Lacks d := by
  refine ⟨hgone, fun x => ?_⟩
  rcases hpeer x with hx | hx <;> rw [hx]
  · nofun
  · exact h.rows x

theorem Lacks.pairDevices (h : t.Lacks d) {a b : String} (hok : t.pairDevices a b = .ok t') :
    t'.Lacks d := by
  obtain ⟨ha, hb⟩ := pairDevices_ne hok h.gone
  obtain ⟨-, -, -, hpeer, hnone⟩ := pairDevices_ok hok
  refine ⟨(hnone d).2 h.gone, fun x => ?_⟩
  rw [hpeer]
  split_ifs
  · exact fun he => ha (Option.some.inj he)
  · exact fun he => hb (Option.some.inj he)
  · exact h.rows x

theorem Lacks.unpairDevice (h : t.Lacks d) (id : String) : (t.unpairDevice id).Lacks d := by
  refine h.mono (by simp [Devices.unpairDevice, h.gone]) fun x => ?_
  rw [peer_unpairDevice]
  split_ifs <;> simp

theorem Lacks.clearPairedWith (h : t.Lacks d) (id : String) : (t.clearPairedWith id).Lacks d := by
  refine h.mono (by simp [Devices.clearPairedWith, h.gone]) fun x => ?_
  rw [peer_clearPairedWith]
  split_ifs <;> simp

theorem Lacks.deleteRow (h : t.Lacks d) (id : String) : (t.deleteRow id).Lacks d := by
  refine h.mono (by by_cases hd : d = id <;> simp [Devices.deleteRow, hd, h.gone]) fun x => ?_
  rw [peer_deleteRow]
  split_ifs <;> simp

theorem Lacks.createDevice (h : t.Lacks d) {id : String} (hid : d ≠ id) {row : Device}
    (hrow : row.pairedWith = none) : Lacks (Function.update t id (some row)) d := by
  refine h.mono (by simp [hid, h.gone]) fun x => ?_
  by_cases hx : x = id
  · simp [hx, peer, hrow]
  · simp [hx, peer]

end Devices

/-- A connection has no link with `d` or has ended, and its goroutine is neither making one nor routing
along one, where `o` gives the devices of the connections. -/
def Detached (o : ℕ → Option String) (d : String) (v : String × String × Pc) : Prop :=
  (v.2.2.ended = false → Without d v.1 v.2.1) ∧ (∀ r ∈ v.2.2.linking, Without d v.1 r) ∧ (∀ r ∈ v.2.2.lookup, Without d v.1 r)
    ∧ ∀ t ∈ v.2.2.queue, v.1 ≠ d ∧ o t ≠ some d

instance (o : ℕ → Option String) (d : String) (v : String × String × Pc) :
    Decidable (Detached o d v) :=
  inferInstanceAs (Decidable (_ ∧ _ ∧ _ ∧ _))

theorem Pc.notRouting {pc : Pc} (h : pc.carries = none) : pc.lookup = none ∧ pc.queue = none := by
  cases pc with
  | route next => cases next <;> simp_all [Pc.carries, Pc.lookup, Pc.queue]
  | _ => exact ⟨rfl, rfl⟩

/-- The device that a step registers. -/
def AdminLabel.creates : AdminLabel → Option String
  | .createDevice id _ _ => some id
  | _ => none

namespace Server

variable {s s' : Server} {c : ℕ} {conn : Conn} {d : String}

/-- Neither a row nor a connection that is up has a link with `d`. -/
structure Unlinked (d : String) (s : Server) : Prop where
  rows : ∀ x, s.devices.peer x ≠ some d
  conns : ∀ c v, s.view c = some v → Detached s.owner d v

/-- The row is deleted too. -/
structure Severed (d : String) (s : Server) : Prop where
  lacks : s.devices.Lacks d
  conns : ∀ c v, s.view c = some v → Detached s.owner d v

section Exec

variable {a : Access} {pc : Pc} {env : Env} {x : Access × Pc}

/-- A goroutine comes to change a link only with another device. -/
theorem Severed.linking (h : s.Severed d) (hx : Exec s c conn a pc) (hc : s.conns[c]? = some conn)
    {r : String} (hr : pc.linking = some r) : Without d conn.deviceID r := by
  obtain ⟨hpeer, hold, -, -⟩ := h.conns c _ (view_of_conn hc)
  cases hx with
  | ordinary _ _ hpc =>
    rw [hpc.linking] at hr
    cases hr
  | register device =>
    rw [startWelcome_linking] at hr
    cases hr
  | pair code r' t hp ht =>
    cases hr
    obtain ⟨hr', hd'⟩ := Devices.pairDevices_ne ht h.lacks.gone
    exact ⟨hr', fun hd => absurd hd hd'⟩
  | peer hp =>
    cases hr
    exact hpeer (by rw [hp]; rfl)
  | myKey _ _ _ hp | requesterKey _ _ _ _ hp | setPeer _ _ _ _ hp | complete _ _ _ _ hp
  | requester _ _ _ _ hp | unpair _ hp | clear _ hp | unpaired _ hp | findPeer _ _ hp =>
    cases hr
    exact hold _ (by rw [hp]; rfl)
  | _ => cases hr

/-- `Route` looks up and finds another device only, and for another only. -/
theorem Severed.routing (h : s.Severed d) (hk : s.Keyed) (hx : Routing s conn x)
    (hc : s.conns[c]? = some conn) : (∀ r ∈ x.2.lookup, Without d conn.deviceID r)
      ∧ ∀ t ∈ x.2.queue, conn.deviceID ≠ d ∧ s.owner t ≠ some d := by
  obtain ⟨hpeer, -, hlookup, hqueue⟩ := h.conns c _ (view_of_conn hc)
  cases hx with
  | other _ hnone =>
    obtain ⟨hl, hq⟩ := Pc.notRouting hnone
    rw [hl, hq]
    exact ⟨by simp, by simp⟩
  | peer payload hp =>
    refine ⟨fun r hr => ?_, fun t ht => by cases ht⟩
    cases hr
    exact hpeer (by rw [hp]; rfl)
  | found id payload t hp hid =>
    refine ⟨fun r hr => (by cases hr), fun t' ht' => ?_⟩
    cases ht'
    obtain ⟨hne, hown⟩ := hlookup id (by rw [hp]; rfl)
    obtain ⟨pc, hpc⟩ := hk.clients id t hid
    refine ⟨fun hd => hk.named t id pc hpc (hown hd), fun ho => hne ?_⟩
    rw [owner, hpc] at ho
    exact Option.some.inj ho
  | _ => exact ⟨fun r hr => (by cases hr), fun t ht => by cases ht⟩

/-- A goroutine gives no connection a link with `d`. -/
theorem Severed.setPeer (h : s.Severed d) (hk : s.Keyed) (hx : Exec s c conn a pc) (hd : d ≠ "")
    (hc : s.conns[c]? = some conn) {t : ℕ} {id : String} (ha : a = .setPeer t id) {target : Conn}
    (ht : s.conns[t]? = some target) : Without d target.deviceID id := by
  obtain ⟨-, hold, -, -⟩ := h.conns c _ (view_of_conn hc)
  cases hx with
  | ordinary _ hplain =>
    subst ha
    cases hplain
  | setPeer _ r _ _ hp =>
    cases ha
    obtain rfl : conn = target := Option.some.inj (hc.symm.trans ht)
    exact hold id (by rw [hp]; rfl)
  | clear p hp =>
    cases ha
    exact without_empty hd _
  | setRequester _ r _ _ hp =>
    cases ha
    obtain ⟨hr, hown⟩ := hold r (by rw [hp]; rfl)
    obtain ⟨pc', hpc'⟩ := hk.target c _ _ (seen_of_conn hc) r t (by rw [hp]; rfl)
    refine ⟨fun hc' => hk.named t r pc' hpc' (hown hc'), fun ht' => absurd ?_ hr⟩
    rw [seen_of_conn ht] at hpc'
    rw [← ht']
    exact (Prod.mk.inj (Option.some.inj hpc')).1.symm
  | clearPeer p _ hp =>
    cases ha
    exact without_empty hd _
  | _ => cases ha

/-- No goroutine makes a row. -/
theorem devicesAfter_gone (hx : Exec s c conn a pc) (hd : s.devices d = none) :
    a.devicesAfter s.devices d = none := by
  cases hx with
  | ordinary _ ha =>
    cases ha with
    | devices t ht => simpa [Access.devicesAfter, hd] using ht d
    | _ => exact hd
  | pair code r t hp ht =>
    obtain ⟨-, -, -, -, hnone⟩ := Devices.pairDevices_ok ht
    exact (hnone d).2 hd
  | unpair p hp => simp [Access.devicesAfter, Devices.unpairDevice, hd]
  | _ => exact hd

theorem Severed.devicesAfter (h : s.Severed d) (hx : Exec s c conn a pc) :
    (a.devicesAfter s.devices).Lacks d := by
  have hgone := devicesAfter_gone hx h.lacks.gone
  cases hx with
  | ordinary _ ha => exact h.lacks.mono hgone fun y => .inr (ha.peer y)
  | pair code r t hp ht => exact h.lacks.pairDevices ht
  | unpair p hp => exact h.lacks.unpairDevice conn.deviceID
  | _ => exact h.lacks

/-- One goroutine moves, and sets peers and changes rows as it may. -/
theorem Severed.move (h : s.Severed d) (hc : s.conns[c]? = some conn)
    (hlacks : (a.devicesAfter s.devices).Lacks d)
    (hended : conn.pc.ended = true → pc.ended = true)
    (hset : ∀ t id target, a = .setPeer t id → s.conns[t]? = some target →
      Without d target.deviceID id)
    (hlink : ∀ r ∈ pc.linking, Without d conn.deviceID r)
    (hlookup : ∀ r ∈ pc.lookup, Without d conn.deviceID r)
    (hqueue : ∀ t ∈ pc.queue, conn.deviceID ≠ d ∧ s.owner t ≠ some d) :
    (s.advance c a pc).Severed d := by
  refine ⟨by rwa [advance_devices], fun c' v hv => ?_⟩
  · rw [owner_advance hc]
    rw [view_advance] at hv
    obtain ⟨conn', hc', rfl⟩ := Option.map_eq_some_iff.1 hv
    obtain ⟨hpeer, hrest⟩ := h.conns c' _ (view_of_conn hc')
    refine ⟨fun hup => ?_, ?_⟩
    · have hup' : conn'.pc.ended = false := by
        by_cases hcc : c = c'
        · subst hcc
          obtain rfl : conn = conn' := Option.some.inj (hc.symm.trans hc')
          simp only [if_pos] at hup
          exact Bool.eq_false_iff.2 fun he => by simp [hended he] at hup
        · simpa [hcc] using hup
      show Without d conn'.deviceID (a.on c' conn').pairedWith
      rw [Access.on_pairedWith]
      split
      · next t id =>
        split_ifs with ht
        · subst ht
          exact hset t id conn' rfl hc'
        · exact hpeer hup'
      · exact hpeer hup'
    · by_cases hcc : c = c'
      · subst hcc
        obtain rfl : conn = conn' := Option.some.inj (hc.symm.trans hc')
        simpa using ⟨hlink, hlookup, hqueue⟩
      · simpa [hcc] using hrest

theorem Severed.advance (h : s.Severed d) (hk : s.Keyed) (hd : d ≠ "") (hc : s.conns[c]? = some conn)
    (hx : exec s c conn env = some x) : (s.advance c x.1 x.2).Severed d := by
  have hmove := exec_move hx
  obtain ⟨hlookup, hqueue⟩ := h.routing hk (exec_routing hx) hc
  exact h.move hc (h.devicesAfter hmove) (exec_ended hx)
    (fun t id target ha ht => h.setPeer hk hmove hd hc ha ht)
    (fun r hr => h.linking hmove hc hr) hlookup hqueue

theorem Severed.read (h : s.Severed d) (hc : s.conns[c]? = some conn) (hr : conn.pc = .reading)
    (hlink : pc.linking = none) (hlookup : pc.lookup = none) (hqueue : pc.queue = none) :
    (s.advance c .none pc).Severed d :=
  h.move hc h.lacks (by simp [hr, Pc.ended]) nofun (by simp [hlink]) (by simp [hlookup])
    (by simp [hqueue])

end Exec

theorem dispatch_notRouting (c : ℕ) (frame : Inbound) :
    (dispatch c frame).lookup = none ∧ (dispatch c frame).queue = none := by
  cases frame <;> simp only [dispatch] <;> (try split_ifs) <;> exact ⟨rfl, rfl⟩

theorem owner_of_view (h : s'.view = s.view) : s'.owner = s.owner := by
  funext c
  rw [owner, owner, seen_of_view h]

theorem Severed.same (h : s.Severed d) (hlacks : s'.devices.Lacks d) (hview : s'.view = s.view) :
    s'.Severed d :=
  ⟨hlacks, by rw [owner_of_view hview, hview]; exact h.conns⟩

theorem owner_connect (s : Server) (new : Conn) (c : ℕ) :
    { s with conns := s.conns ++ [new] }.owner c
      = if c = s.conns.length then some new.deviceID else s.owner c := by
  rw [owner, seen_connect]
  split_ifs <;> rfl

theorem Severed.connect (h : s.Severed d) (hd : d ≠ "") {id : String} {device : Device}
    (hrow : s.devices id = some device) : Severed d { s with
      conns := s.conns ++ [{
        deviceID := id
        pairedWith := device.pairedWith.getD ""
        pc := .register device }] } := by
  have hid : id ≠ d := by
    rintro rfl
    rw [h.lacks.gone] at hrow
    cases hrow
  have hpeer : device.pairedWith.getD "" ≠ d := by
    have hne := h.lacks.rows id
    rw [Devices.peer, hrow, Option.bind_some] at hne
    rcases hp : device.pairedWith with _ | p
    · exact Ne.symm hd
    · rw [hp] at hne
      exact fun he => hne (congrArg some he)
  refine ⟨h.lacks, fun c v hv => ?_⟩
  rw [view_connect] at hv
  split_ifs at hv
  · cases hv
    exact ⟨fun _ => ⟨hpeer, fun he => absurd he hid⟩, fun r hr => (by cases hr), fun r hr => (by cases hr),
      fun t ht => by cases ht⟩
  · obtain ⟨h1, h2, h3, hqueue⟩ := h.conns c v hv
    refine ⟨h1, h2, h3, fun t ht => ⟨(hqueue t ht).1, ?_⟩⟩
    rw [owner_connect]
    split_ifs
    · exact fun he => hid (Option.some.inj he)
    · exact (hqueue t ht).2

theorem Severed.step (h : s.Severed d) (hk : s.Keyed) (hd : d ≠ "") {l : Label}
    (hstep : s.step l = some s') : s'.Severed d := by
  cases step_moves hstep with
  | connect deviceID token now upgraded device hne hrow => exact h.connect hd hrow
  | receive c frame conn hc hr =>
    obtain ⟨hlookup, hqueue⟩ := dispatch_notRouting c frame
    exact h.read hc hr (dispatch_linking c frame) hlookup hqueue
  | disconnect c conn hc hr => exact h.read hc hr rfl rfl rfl
  | handler c env conn x hc hx => exact h.advance hk hd hc hx
  | quiet _ _ hdev hview _ => exact h.same (hdev ▸ h.lacks) hview

/-- The devices of the connection that a binary frame was read from and of the one whose queue takes
it at this step. -/
def delivered (s : Server) : AdminLabel → Option (Option String × Option String)
  | .server l =>
    match s.routed l with
    | some (.accepted c t _) => some (s.owner c, s.owner t)
    | _ => none
  | _ => none

theorem Keyed.adminStep (h : s.Keyed) {l : AdminLabel} (hstep : s.adminStep l = some s') : s'.Keyed := by
  cases l with
  | server l => exact h.step hstep
  | createDevice id token expiresAt =>
    simp only [Server.adminStep] at hstep
    split_ifs at hstep
    cases hstep
    exact h.same rfl h.clients
  | pairDevices a b =>
    simp only [Server.adminStep] at hstep
    split at hstep <;> cases hstep
    exact h.same rfl h.clients
  | clearPairedWith | deleteRow =>
    cases hstep
    exact h.same rfl h.clients

theorem Severed.adminStep (h : s.Severed d) (hk : s.Keyed) (hd : d ≠ "") {l : AdminLabel}
    (hl : l.creates ≠ some d) (hstep : s.adminStep l = some s') : s'.Severed d := by
  cases l with
  | server l => exact h.step hk hd hstep
  | createDevice id token expiresAt =>
    simp only [Server.adminStep] at hstep
    split_ifs at hstep
    cases hstep
    exact h.same (h.lacks.createDevice (fun he => hl (congrArg some he.symm)) rfl) rfl
  | pairDevices a b =>
    simp only [Server.adminStep] at hstep
    split at hstep <;> cases hstep
    next t ht => exact h.same (h.lacks.pairDevices ht) rfl
  | clearPairedWith id =>
    cases hstep
    exact h.same (h.lacks.clearPairedWith id) rfl
  | deleteRow id =>
    cases hstep
    exact h.same (h.lacks.deleteRow id) rfl

theorem delivered_eq_some {l : AdminLabel} {e : Option String × Option String}
    (he : s.delivered l = some e) : ∃ (c t : ℕ) (conn : Conn) (payload : Bytes),
      e = (s.owner c, s.owner t) ∧ s.conns[c]? = some conn ∧ conn.pc = .route (.enqueue t payload)
        ∧ s.accepts t = true := by
  unfold delivered at he
  split at he
  · next l =>
    split at he
    · next c t payload hr =>
      cases he
      unfold routed at hr
      split at hr
      · cases hr
      · next c' env =>
        obtain ⟨conn, hc, hconn⟩ := Option.bind_eq_some_iff.1 hr
        split at hconn
        · next t' payload' hpc =>
          split_ifs at hconn with haccepts <;> cases hconn
          exact ⟨c, t, conn, payload, rfl, hc, hpc, haccepts⟩
        · cases hconn
      · cases hr
    · cases he
  · cases he

/-- No frame is delivered from or to a device that is severed. -/
theorem Severed.delivered (h : s.Severed d) {l : AdminLabel} {e : Option String × Option String}
    (he : s.delivered l = some e) : e.1 ≠ some d ∧ e.2 ≠ some d := by
  obtain ⟨c, t, conn, payload, rfl, hc, hpc, -⟩ := delivered_eq_some he
  obtain ⟨-, -, -, hqueue⟩ := h.conns c _ (view_of_conn hc)
  obtain ⟨hne, hown⟩ := hqueue t (by rw [hpc]; rfl)
  refine ⟨?_, hown⟩
  rw [owner_of_conn hc]
  exact fun heq => hne (Option.some.inj heq)

theorem Unlinked.deleteRow (h : s.Unlinked d) (hstep : s.adminStep (.deleteRow d) = some s') :
    s'.Severed d := by
  cases hstep
  refine ⟨⟨by simp [Devices.deleteRow], fun x => ?_⟩, h.conns⟩
  show (s.devices.deleteRow d).peer x ≠ some d
  rw [Devices.peer_deleteRow]
  split_ifs
  · nofun
  · exact h.rows x

/-! ## A device that is offline -/

/-- No connection of `d` is up: the goroutine of each has stopped reading, and it is closed. -/
def Offline (d : String) (s : Server) : Prop :=
  ∀ c pc, s.seen c = some (d, pc) → pc.ended = true ∧ s.Closed c

/-- The row is deleted too. -/
structure Departed (d : String) (s : Server) : Prop where
  gone : s.devices d = none
  offline : s.Offline d

theorem Closed.step (h : s.Closed c) {l : Label} (hstep : s.step l = some s') : s'.Closed c := by
  obtain ⟨conn, hc, hclosed⟩ := h
  have hover : s.Over c conn.accepted := ⟨conn, hc, hclosed, rfl⟩
  obtain ⟨conn', hc', hover'⟩ := hover.step hstep
  exact ⟨conn', hc', hover'.closed⟩

theorem Departed.step (h : s.Departed d) {l : Label} (hstep : s.step l = some s') : s'.Departed d := by
  have hkept : ∀ {c pc}, s.seen c = some (d, pc) → pc.ended = true ∧ s'.Closed c := fun hc =>
    ⟨(h.offline _ _ hc).1, (h.offline _ _ hc).2.step hstep⟩
  cases step_moves hstep with
  | connect deviceID token now upgraded device hne hrow =>
    refine ⟨h.gone, fun c pc hc => ?_⟩
    rw [seen_connect] at hc
    split_ifs at hc
    · obtain ⟨rfl, -⟩ := Prod.mk.inj (Option.some.inj hc)
      rw [h.gone] at hrow
      cases hrow
    · exact hkept hc
  | receive c frame conn hc hr | disconnect c conn hc hr =>
    refine ⟨h.gone, fun c' pc hc' => ?_⟩
    rcases seen_advance_cases hc hc' with hold | ⟨-, rfl, -⟩
    · exact hkept hold
    · have hended := (h.offline c _ (seen_of_conn hc)).1
      rw [hr] at hended
      cases hended
  | handler c env conn x hc hx =>
    refine ⟨?_, fun c' pc hc' => ?_⟩
    · rw [advance_devices]
      exact devicesAfter_gone (exec_move hx) h.gone
    · rcases seen_advance_cases hc hc' with hold | ⟨rfl, rfl, rfl⟩
      · exact hkept hold
      · obtain ⟨hended, hclosed⟩ := hkept (seen_of_conn hc)
        exact ⟨exec_ended hx hended, hclosed⟩
  | quiet _ _ hdev hview _ =>
    refine ⟨hdev ▸ h.gone, fun c pc hc => ?_⟩
    rw [seen_of_view hview] at hc
    exact hkept hc

theorem Departed.adminStep (h : s.Departed d) {l : AdminLabel} (hl : l.creates ≠ some d)
    (hstep : s.adminStep l = some s') : s'.Departed d := by
  cases l with
  | server l => exact h.step hstep
  | createDevice id token expiresAt =>
    simp only [Server.adminStep] at hstep
    split_ifs at hstep
    cases hstep
    have hid : d ≠ id := fun he => hl (congrArg some he.symm)
    exact ⟨(Function.update_of_ne hid _ _).trans h.gone, h.offline⟩
  | pairDevices a b =>
    simp only [Server.adminStep] at hstep
    split at hstep <;> cases hstep
    next t ht =>
      obtain ⟨-, -, -, -, hnone⟩ := Devices.pairDevices_ok ht
      exact ⟨(hnone d).2 h.gone, h.offline⟩
  | clearPairedWith id =>
    cases hstep
    exact ⟨by simp [Devices.clearPairedWith, h.gone], h.offline⟩
  | deleteRow id =>
    cases hstep
    refine ⟨?_, h.offline⟩
    show Function.update s.devices id none d = none
    rw [Function.update_apply, h.gone, ite_self]

/-- No frame is delivered from or to a device that has departed. -/
theorem Departed.delivered (h : s.Departed d) {l : AdminLabel} {e : Option String × Option String}
    (he : s.delivered l = some e) : e.1 ≠ some d ∧ e.2 ≠ some d := by
  obtain ⟨c, t, conn, payload, rfl, hc, hpc, haccepts⟩ := delivered_eq_some he
  refine ⟨fun hown => ?_, fun hown => ?_⟩
  · rw [owner_of_conn hc, Option.some.injEq] at hown
    have hended := (h.offline c conn.pc (by rw [seen_of_conn hc, hown])).1
    rw [hpc] at hended
    cases hended
  · obtain ⟨⟨id, pc⟩, hs, rfl⟩ := Option.map_eq_some_iff.1 hown
    obtain ⟨-, target, ht, hclosed⟩ := h.offline t pc hs
    simp [accepts, ht, Conn.accepts, hclosed] at haccepts

/-- A device is deleted and severed, or deleted and has departed. -/
def Cut (d : String) (s : Server) : Prop := s.Severed d ∨ s.Departed d

theorem Cut.adminStep (h : s.Cut d) (hk : s.Keyed) (hd : d ≠ "") {l : AdminLabel}
    (hl : l.creates ≠ some d) (hstep : s.adminStep l = some s') : s'.Cut d :=
  h.imp (fun hsev => hsev.adminStep hk hd hl hstep) fun hdep => hdep.adminStep hl hstep

theorem cut_deleteRow (h : s.Unlinked d ∨ s.Offline d) (hstep : s.adminStep (.deleteRow d) = some s') :
    s'.Cut d := by
  refine h.imp (fun hun => hun.deleteRow hstep) fun hoff => ?_
  cases hstep
  exact ⟨Function.update_self .., hoff⟩

theorem owner_ne_empty (hk : s.Keyed) (c : ℕ) : s.owner c ≠ some "" := by
  intro ho
  obtain ⟨⟨d, pc⟩, hs, rfl⟩ := Option.map_eq_some_iff.1 ho
  exact hk.named c _ pc hs rfl

/-- Where the `DELETE` of `handleDeleteDevice` finds no link with the device, in no row, connection or
goroutine that is up, or finds the device offline, no binary frame is delivered from or to a connection
of the device after it. -/
theorem delivered_ne_deleted {s₁ s₂ : Server} (devices : Devices) (pairCodes : PairCodes)
    (before after : List AdminLabel) (d : String)
    (h₁ : Lts.run adminStep (start devices pairCodes) before = some s₁)
    (hun : s₁.Unlinked d ∨ s₁.Offline d)
    (h₂ : Lts.run adminStep s₁ (.deleteRow d :: after) = some s₂)
    (hnew : ∀ l ∈ after, l.creates ≠ some d) :
    ∀ e ∈ Lts.observed adminStep delivered s₁ (.deleteRow d :: after), e.1 ≠ some d ∧ e.2 ≠ some d := by
  obtain ⟨s, hdel, h₂⟩ := Lts.run_cons_eq_some.1 h₂
  have hk₁ : s₁.Keyed := Lts.run_inv_of_step (I := Keyed) (fun _ _ _ hk hs => hk.adminStep hs) before
    (start_keyed devices pairCodes) h₁
  have hinv := Lts.run_inv_observed delivered
    (I := fun s h => s.Keyed ∧ (d ≠ "" → s.Cut d) ∧ ∀ e ∈ h, e.1 ≠ some d ∧ e.2 ≠ some d)
    (fun s l s' h hs hl hstep => ?_) after (h := [])
    ⟨hk₁.adminStep hdel, fun _ => cut_deleteRow hun hdel, nofun⟩ (Lts.meets_of_forall s hnew) h₂
  · simpa [Lts.observed, delivered, hdel] using hinv.2.2
  · obtain ⟨hk, hcut, hseen⟩ := hs
    refine ⟨hk.adminStep hstep, fun hd => (hcut hd).adminStep hk hd hl hstep, fun e he => ?_⟩
    rcases List.mem_append.1 he with he | he
    · exact hseen e he
    · by_cases hd : d = ""
      · obtain ⟨c, t, -, -, rfl, -, -⟩ := delivered_eq_some (Option.mem_toList.1 he)
        rw [hd]
        exact ⟨owner_ne_empty hk c, owner_ne_empty hk t⟩
      · exact (hcut hd).elim (·.delivered (Option.mem_toList.1 he))
          (·.delivered (Option.mem_toList.1 he))

/-- Two linked devices are connected, and one is deleted. -/
def deletingLinked : List AdminLabel := bothConnected.map .server ++ handleDeleteDevice "a"

/-- The deleted device goes on sending. -/
theorem delivered_deleted :
    ∃ s₁ s₂, Lts.run adminStep (start linkedAB fun _ => none) deletingLinked = some s₁
      ∧ s₁.devices "a" = none
      ∧ Lts.run adminStep s₁ (sending.map .server) = some s₂
      ∧ Lts.observed adminStep delivered s₁ (sending.map .server)
        = [(some "a", some "b"), (some "a", some "b")] := by
  have h : (Lts.run adminStep (start linkedAB fun _ => none) deletingLinked).any fun s₁ =>
      decide (s₁.devices "a" = none)
        && decide (Lts.observed adminStep delivered s₁ (sending.map .server)
          = [(some "a", some "b"), (some "a", some "b")])
        && (Lts.run adminStep s₁ (sending.map .server)).isSome := by
    decide +kernel
  simp only [Bool.and_eq_true, decide_eq_true_eq, Option.any_eq_true, Option.isSome_iff_exists] at h
  obtain ⟨s₁, hrun₁, ⟨hgone, hseen⟩, s₂, hrun₂⟩ := h
  exact ⟨s₁, s₂, hrun₁, hgone, hrun₂, hseen⟩

/-- `a` and `b` are linked, and `c` is not. -/
def linkedABaloneC : Devices := Function.update linkedAB "c" (some { deviceToken := "t" })

def thirdConnected : List Label :=
  Label.connect "c" "t" 0 true :: List.replicate 2 (plainStep 2) ++ [Label.takeRegister, .hub, .hub]

/-- All three are connected, and `handleDeleteDevice` has run its first statement for `c`. -/
def deletingAlone : List AdminLabel :=
  (bothConnected ++ thirdConnected).map .server ++ [AdminLabel.clearPairedWith "c"]

/-- `c` and `a` go on sending. -/
def goingOn : List AdminLabel :=
  (.receive 2 (.binary [9]) :: plainStep 2 :: sending).map .server

theorem linkedABaloneC_peer (x : String) : (linkedABaloneC.clearPairedWith "c").peer x ≠ some "c" := by
  rw [Devices.peer_clearPairedWith]
  split_ifs with hx
  · nofun
  · exact hx

theorem delivered_ne_deleted_alone :
    ∃ s₁ s₂, Lts.run adminStep (start linkedABaloneC fun _ => none) deletingAlone = some s₁
      ∧ Lts.run adminStep s₁ (.deleteRow "c" :: goingOn) = some s₂
      ∧ (Lts.observed adminStep delivered s₁ (.deleteRow "c" :: goingOn)).length = 2
      ∧ ∀ e ∈ Lts.observed adminStep delivered s₁ (.deleteRow "c" :: goingOn),
        e.1 ≠ some "c" ∧ e.2 ≠ some "c" := by
  have h : (Lts.run adminStep (start linkedABaloneC fun _ => none) deletingAlone).any fun s₁ =>
      decide (∀ conn ∈ s₁.conns, Detached s₁.owner "c" (conn.deviceID, conn.pairedWith, conn.pc))
        && decide ((Lts.observed adminStep delivered s₁ (.deleteRow "c" :: goingOn)).length = 2)
        && (Lts.run adminStep s₁ (.deleteRow "c" :: goingOn)).isSome := by
    decide +kernel
  have hdevices : (Lts.run adminStep (start linkedABaloneC fun _ => none) deletingAlone).map devices
      = some (linkedABaloneC.clearPairedWith "c") := rfl
  simp only [Bool.and_eq_true, decide_eq_true_eq, Option.any_eq_true, Option.isSome_iff_exists] at h
  obtain ⟨s₁, hrun₁, ⟨hconns, hlen⟩, s₂, hrun₂⟩ := h
  rw [hrun₁, Option.map_some, Option.some.injEq] at hdevices
  have hun : s₁.Unlinked "c" := by
    refine ⟨hdevices ▸ linkedABaloneC_peer, fun c v hv => ?_⟩
    obtain ⟨conn, hc, rfl⟩ := Option.map_eq_some_iff.1 hv
    exact hconns conn (List.mem_of_getElem? hc)
  exact ⟨s₁, s₂, hrun₁, hrun₂, hlen, delivered_ne_deleted linkedABaloneC _ deletingAlone goingOn "c" hrun₁
    (.inl hun) hrun₂ (by simp [goingOn, sending, plainStep, AdminLabel.creates])⟩

end Server

end Relayly.Relay
