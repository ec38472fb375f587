import Relayly.Relay.Hub

/-!
# What a step of the relay changes

An access changes at most one connection, one channel or one of the tables; a goroutine's own step
then moves its `Pc`.
-/

namespace Relayly.Relay

namespace Access

/-- What an access does to connection `c`. -/
def on (a : Access) (c : ℕ) (conn : Conn) : Conn :=
  match a with
  | .setPeer t id => if t = c then conn.setPeer id else conn
  | .enqueue t frame => if t = c then conn.enqueue frame else conn
  | .close t => if t = c then conn.close else conn
  | _ => conn

def registers : Access → List ℕ
  | .register c => [c]
  | _ => []

def devicesAfter (t : Devices) : Access → Devices
  | .devices t' => t'
  | _ => t

def codesAfter (r : PairCodes) : Access → PairCodes
  | .pairCodes r' => r'
  | _ => r

def unregisters : Access → List ℕ
  | .unregister c => [c]
  | _ => []

def enqueued : Access → Option (ℕ × WsFrame)
  | .enqueue t frame => some (t, frame)
  | _ => Option.none

theorem ne_enqueue {a : Access} (h : a.enqueued = Option.none) (t : ℕ) (frame : WsFrame) :
    a ≠ .enqueue t frame := by
  rintro rfl
  cases h

end Access

@[simp] theorem Conn.enqueue_pc (conn : Conn) (frame : WsFrame) : (conn.enqueue frame).pc = conn.pc := by
  unfold Conn.enqueue
  split <;> rfl

@[simp] theorem Conn.enqueue_deviceID (conn : Conn) (frame : WsFrame) :
    (conn.enqueue frame).deviceID = conn.deviceID := by
  unfold Conn.enqueue
  split <;> rfl

@[simp] theorem Conn.enqueue_pairedWith (conn : Conn) (frame : WsFrame) :
    (conn.enqueue frame).pairedWith = conn.pairedWith := by
  unfold Conn.enqueue
  split <;> rfl

@[simp] theorem Conn.enqueue_closed (conn : Conn) (frame : WsFrame) :
    (conn.enqueue frame).closed = conn.closed := by
  unfold Conn.enqueue
  split <;> rfl

namespace Access

variable (a : Access) (c : ℕ) (conn : Conn)

@[simp] theorem on_pc : (a.on c conn).pc = conn.pc := by
  cases a <;> simp only [on] <;> split_ifs <;> simp [Conn.setPeer, Conn.close]

theorem on_pairedWith : (a.on c conn).pairedWith
    = match a with
      | .setPeer t id => if t = c then id else conn.pairedWith
      | _ => conn.pairedWith := by
  cases a <;> simp only [on] <;> split_ifs <;> simp [Conn.setPeer, Conn.close]

@[simp] theorem on_deviceID : (a.on c conn).deviceID = conn.deviceID := by
  cases a <;> simp only [on] <;> split_ifs <;> simp [Conn.setPeer, Conn.close]

end Access

namespace Server

variable {s s' : Server} {c : ℕ} {conn : Conn}

theorem modify_conns (s : Server) (t c : ℕ) (f : Conn → Conn) :
    (s.modify t f).conns[c]? = s.conns[c]?.map fun conn => if t = c then f conn else conn := by
  simp only [modify, List.getElem?_modify]
  rfl

theorem access_conns (s : Server) (a : Access) (c : ℕ) :
    (s.access a).conns[c]? = s.conns[c]?.map (a.on c) := by
  cases a <;> simp only [access, modify_conns] <;> first | rfl | exact (Option.map_id' ..).symm

@[simp] theorem access_clients (s : Server) (a : Access) : (s.access a).clients = s.clients := by
  cases a <;> rfl

@[simp] theorem access_hub (s : Server) (a : Access) : (s.access a).hub = s.hub := by
  cases a <;> rfl

@[simp] theorem access_registerCh (s : Server) (a : Access) :
    (s.access a).registerCh = s.registerCh ++ a.registers := by
  cases a <;> simp [access, modify, Access.registers]

@[simp] theorem access_unregisterCh (s : Server) (a : Access) :
    (s.access a).unregisterCh = s.unregisterCh ++ a.unregisters := by
  cases a <;> simp [access, modify, Access.unregisters]

@[simp] theorem access_devices (s : Server) (a : Access) :
    (s.access a).devices = a.devicesAfter s.devices := by
  cases a <;> rfl

/-- The goroutine of `c` makes an access, and then stands at `pc`. -/
def advance (s : Server) (c : ℕ) (a : Access) (pc : Pc) : Server :=
  (s.access a).modify c (Conn.setPc pc)

section

variable (s : Server) (c : ℕ) (a : Access) (pc : Pc)

@[simp] theorem advance_clients : (s.advance c a pc).clients = s.clients := s.access_clients a

@[simp] theorem advance_hub : (s.advance c a pc).hub = s.hub := s.access_hub a

@[simp] theorem advance_registerCh : (s.advance c a pc).registerCh = s.registerCh ++ a.registers :=
  s.access_registerCh a

@[simp] theorem advance_unregisterCh :
    (s.advance c a pc).unregisterCh = s.unregisterCh ++ a.unregisters := s.access_unregisterCh a

@[simp] theorem advance_devices : (s.advance c a pc).devices = a.devicesAfter s.devices :=
  s.access_devices a

theorem advance_conns (c' : ℕ) : (s.advance c a pc).conns[c']?
    = s.conns[c']?.map fun conn => if c = c' then (a.on c' conn).setPc pc else a.on c' conn := by
  rw [advance, modify_conns, access_conns, Option.map_map]
  rfl

end

theorem advance_self {a : Access} {pc : Pc} (hc : s.conns[c]? = some conn) :
    (s.advance c a pc).conns[c]? = some ((a.on c conn).setPc pc) := by
  simp [advance_conns, hc]

/-- The device of a connection and where its goroutine stands. -/
def seen (s : Server) (c : ℕ) : Option (String × Pc) :=
  s.conns[c]?.map fun conn => (conn.deviceID, conn.pc)

theorem seen_of_conn (h : s.conns[c]? = some conn) : s.seen c = some (conn.deviceID, conn.pc) := by
  simp [seen, h]

theorem seen_access (s : Server) (a : Access) : (s.access a).seen = s.seen := by
  funext c
  rcases h : s.conns[c]? with _ | conn <;> simp [seen, access_conns, h]

theorem seen_modify (s : Server) (t : ℕ) {f : Conn → Conn}
    (hf : ∀ conn, (f conn).deviceID = conn.deviceID ∧ (f conn).pc = conn.pc) :
    (s.modify t f).seen = s.seen := by
  funext c
  rcases h : s.conns[c]? with _ | conn
  · simp [seen, modify_conns, h]
  · by_cases ht : t = c <;> simp [seen, modify_conns, h, ht, hf]

theorem seen_setPc (s : Server) (c : ℕ) (pc : Pc) {d : String} {pc' : Pc}
    (h : s.seen c = some (d, pc')) :
    (s.modify c (Conn.setPc pc)).seen = Function.update s.seen c (some (d, pc)) := by
  funext c'
  rcases hc : s.conns[c']? with _ | conn
  · have hne : c' ≠ c := by
      rintro rfl
      simp [seen, hc] at h
    simp [seen, modify_conns, hc, hne]
  · by_cases ht : c = c'
    · subst ht
      obtain ⟨rfl, rfl⟩ : conn.deviceID = d ∧ conn.pc = pc' := by simpa [seen, hc] using h
      simp [seen, modify_conns, hc, Conn.setPc]
    · simp [seen, modify_conns, hc, ht, Ne.symm ht]

theorem seen_advance (s : Server) {c : ℕ} {conn : Conn} (a : Access) (pc : Pc)
    (hc : s.conns[c]? = some conn) :
    (s.advance c a pc).seen = Function.update s.seen c (some (conn.deviceID, pc)) := by
  have hs : (s.access a).seen c = some (conn.deviceID, conn.pc) := by
    rw [seen_access]
    exact seen_of_conn hc
  rw [advance, seen_setPc _ c pc hs, seen_access]

/-- The goroutine of one connection has moved on to `pc`. -/
theorem seen_advance_cases {c : ℕ} {conn : Conn} {a : Access} {pc : Pc} (hc : s.conns[c]? = some conn)
    {c' : ℕ} {d : String} {pc' : Pc} (h : (s.advance c a pc).seen c' = some (d, pc')) :
    s.seen c' = some (d, pc') ∨ c' = c ∧ d = conn.deviceID ∧ pc' = pc := by
  rw [seen_advance s a pc hc] at h
  by_cases hcc : c' = c
  · subst hcc
    rw [Function.update_self] at h
    obtain ⟨rfl, rfl⟩ := Prod.mk.inj (Option.some.inj h)
    exact .inr ⟨rfl, rfl, rfl⟩
  · rw [Function.update_of_ne hcc] at h
    exact .inl h

theorem read_eq_some {pc : Pc} (h : s.read c pc = some s') :
    ∃ conn, s.conns[c]? = some conn ∧ conn.pc = .reading ∧ s' = s.advance c .none pc := by
  unfold read at h
  rcases hc : s.conns[c]? with _ | conn <;> simp only [hc] at h
  · cases h
  · split_ifs at h with hr
    cases h
    exact ⟨conn, rfl, hr, rfl⟩

/-- A request is refused, or it makes a connection with what the row of its device says. -/
theorem handler_cases (s : Server) (deviceID token : String) (now : ℕ) (upgraded : Bool) :
    s.handler deviceID token now upgraded = s
      ∨ deviceID ≠ "" ∧ ∃ device, s.devices deviceID = some device
        ∧ s.handler deviceID token now upgraded = { s with
            conns := s.conns ++ [{
              deviceID
              pairedWith := device.pairedWith.getD ""
              pc := .register device }] } := by
  unfold handler
  by_cases hempty : deviceID = "" ∨ token = ""
  · exact Or.inl (if_pos hempty)
  rw [if_neg hempty]
  unfold Devices.getDeviceByID
  rcases hd : s.devices deviceID with _ | device
  · exact Or.inl rfl
  · dsimp only
    split_ifs
    · exact Or.inl rfl
    · exact Or.inl rfl
    · exact Or.inl rfl
    · exact Or.inr ⟨fun h => hempty (Or.inl h), device, rfl, rfl⟩

theorem takeRegister_eq_some (h : s.step .takeRegister = some s') :
    ∃ c rest, s.hub = .select ∧ s.registerCh = c :: rest
      ∧ s' = { s with registerCh := rest, hub := .register c } := by
  simp only [step] at h
  split at h
  · cases h
    exact ⟨_, _, ‹_›, ‹_›, rfl⟩
  · cases h

theorem takeUnregister_eq_some (h : s.step .takeUnregister = some s') :
    ∃ c rest, s.hub = .select ∧ s.unregisterCh = c :: rest
      ∧ s' = { s with unregisterCh := rest, hub := .unregister c } := by
  simp only [step] at h
  split at h
  · cases h
    exact ⟨_, _, ‹_›, ‹_›, rfl⟩
  · cases h

/-- The steps of `Hub.Run` with what it has received. -/
inductive HubMove (s : Server) : Server → Prop
  | register (c : ℕ) (client : Conn) (hh : s.hub = .register c) (hc : s.conns[c]? = some client) :
      HubMove s { s.evict client.deviceID with
        clients := Function.update s.clients client.deviceID (some c)
        hub := .registered c }
  | unregister (c : ℕ) (client : Conn) (hh : s.hub = .unregister c)
      (hc : s.conns[c]? = some client) (hcur : s.clients client.deviceID = some c) :
      HubMove s { s with
        clients := Function.update s.clients client.deviceID none
        hub := .unregistered c }
  | stale (c : ℕ) (client : Conn) (hh : s.hub = .unregister c) (hc : s.conns[c]? = some client)
      (hcur : s.clients client.deviceID ≠ some c) : HubMove s { s with hub := .select }
  | peer (c : ℕ) (client : Conn) (online : Bool)
      (hh : s.hub = if online then .registered c else .unregistered c)
      (hc : s.conns[c]? = some client) (hp : client.pairedWith ≠ "") :
      HubMove s { s with hub := .lookup client.pairedWith client.deviceID online }
  | unpaired (c : ℕ) (client : Conn) (online : Bool)
      (hh : s.hub = if online then .registered c else .unregistered c)
      (hc : s.conns[c]? = some client) (hp : client.pairedWith = "") :
      HubMove s { s with hub := .select }
  | found (target about : String) (online : Bool) (c : ℕ) (hh : s.hub = .lookup target about online)
      (hc : s.clients target = some c) : HubMove s { s with hub := .notify c about online }
  | offline (target about : String) (online : Bool) (hh : s.hub = .lookup target about online)
      (hc : s.clients target = none) : HubMove s { s with hub := .select }
  | notify (c : ℕ) (about : String) (online : Bool) (hh : s.hub = .notify c about online) :
      HubMove s { s.modify c (Conn.enqueue (textFrame (.peerStatus about online))) with
        hub := .select }

theorem runHub_move (h : s.runHub = some s') : s.HubMove s' := by
  unfold runHub at h
  rcases hh : s.hub with _ | c | c | c | c | ⟨target, about, online⟩ | ⟨c, about, online⟩ <;>
    simp only [hh] at h
  · cases h
  · obtain ⟨client, hc, rfl⟩ := Option.map_eq_some_iff.1 h
    exact .register c client hh hc
  · obtain ⟨client, hc, rfl⟩ := Option.map_eq_some_iff.1 h
    split_ifs with hp
    · exact .peer c client true hh hc hp
    · exact .unpaired c client true hh hc (not_not.1 hp)
  · obtain ⟨client, hc, rfl⟩ := Option.map_eq_some_iff.1 h
    split_ifs with hcur
    · exact .unregister c client hh hc hcur
    · exact .stale c client hh hc hcur
  · obtain ⟨client, hc, rfl⟩ := Option.map_eq_some_iff.1 h
    split_ifs with hp
    · exact .peer c client false hh hc hp
    · exact .unpaired c client false hh hc (not_not.1 hp)
  · rcases hc : s.clients target with _ | c <;> simp only [hc, Option.some.injEq] at h
    · exact h ▸ .offline target about online hh hc
    · exact h ▸ .found target about online c hh hc
  · simp only [Option.some.injEq] at h
    exact h ▸ .notify c about online hh

theorem evict_conns (s : Server) (d : String) (c : ℕ) :
    (s.evict d).conns[c]?
      = s.conns[c]?.map fun conn => if s.clients d = some c then conn.close else conn := by
  unfold evict
  rcases hc : s.clients d with _ | old
  · simp
  · simp [modify_conns]

theorem evict_same (s : Server) (d : String) : s.evict d = { s with conns := (s.evict d).conns } := by
  unfold evict
  split <;> rfl

theorem seen_evict (s : Server) (d : String) : (s.evict d).seen = s.seen := by
  unfold evict
  split
  · exact seen_modify s _ fun _ => ⟨rfl, rfl⟩
  · rfl

end Server

/-- The device and the state that a `peer_status` frame tells of. -/
def WsFrame.status (frame : WsFrame) : Option (String × Bool) :=
  match frame.data with
  | .text (.peerStatus peerID online) => some (peerID, online)
  | _ => none

/-- Neither a link, nor a registration, nor what a device knows of its peer is changed. -/
inductive Access.Plain (t : Devices) : Access → Prop
  | none : Plain t .none
  | devices (t' : Devices) (h : ∀ id, (t' id).map Device.pairedWith = (t id).map Device.pairedWith) :
      Plain t (.devices t')
  | pairCodes (r : PairCodes) : Plain t (.pairCodes r)
  | enqueue (c : ℕ) (frame : WsFrame) (h : frame.status = Option.none) : Plain t (.enqueue c frame)
  | close (c : ℕ) : Plain t (.close c)
  | unregister (c : ℕ) : Plain t (.unregister c)

/-- Neither `sendWelcome`, nor a change of a link, nor the end of `Pump`. -/
def Pc.Ordinary : Pc → Prop
  | .reading | .announceKey _ | .pairRequest | .pairAccept (.take _)
  | .pairAccept (.pairDevices ..) | .route _ | .sendJSON .. | .sendErrorAndClose ..
  | .closeAfterError => True
  | _ => False

/-- The steps of the goroutine of `conn`, which is connection `c`. -/
inductive Exec (s : Server) (c : ℕ) (conn : Conn) : Access → Pc → Prop
  | ordinary {a : Access} {pc : Pc} (h : conn.pc.Ordinary) (ha : a.Plain s.devices)
      (hpc : pc.Ordinary) : Exec s c conn a pc
  | register (device : Device) (h : conn.pc = .register device) :
      Exec s c conn (.register c) (startWelcome device)
  | welcomeKey (peer key : String) (h : conn.pc = .sendWelcome (.staticKey peer)) :
      Exec s c conn .none (.sendWelcome (.welcome [⟨peer, key⟩] (some peer)))
  | welcome (peers : List PeerInfo) (h : conn.pc = .sendWelcome (.welcome peers none)) :
      Exec s c conn (.enqueue c (textFrame (.welcome protocolVersion conn.deviceID peers))) .reading
  | welcomeLinked (peers : List PeerInfo) (peer : String)
      (h : conn.pc = .sendWelcome (.welcome peers (some peer))) :
      Exec s c conn (.enqueue c (textFrame (.welcome protocolVersion conn.deviceID peers)))
        (.sendWelcome (.lookup peer))
  | welcomeLookup (peer : String) (h : conn.pc = .sendWelcome (.lookup peer)) :
      Exec s c conn .none (.sendWelcome (.status peer (s.clients peer).isSome))
  | welcomeStatus (peer : String) (online : Bool) (h : conn.pc = .sendWelcome (.status peer online)) :
      Exec s c conn (.enqueue c (textFrame (.peerStatus peer online))) .reading
  | pair (code r : String) (t : Devices) (h : conn.pc = .pairAccept (.pairDevices code r))
      (ht : s.devices.pairDevices r conn.deviceID = .ok t) :
      Exec s c conn (.devices t) (.pairAccept (.myKey code r))
  | myKey (code r key : String) (h : conn.pc = .pairAccept (.myKey code r)) :
      Exec s c conn .none (.pairAccept (.requesterKey code r key))
  | requesterKey (code r key key' : String) (h : conn.pc = .pairAccept (.requesterKey code r key)) :
      Exec s c conn .none (.pairAccept (.setPeer code r key key'))
  | setPeer (code r key key' : String) (h : conn.pc = .pairAccept (.setPeer code r key key')) :
      Exec s c conn (.setPeer c r) (.pairAccept (.complete code r key key'))
  | complete (code r key key' : String) (h : conn.pc = .pairAccept (.complete code r key key')) :
      Exec s c conn (.enqueue c (textFrame (.reply (.pairComplete code r key'))))
        (.pairAccept (.lookup code r key))
  | requester (code r key : String) (t : ℕ) (h : conn.pc = .pairAccept (.lookup code r key))
      (ht : s.clients r = some t) : Exec s c conn .none (.pairAccept (.setRequester code r key t))
  | noRequester (code r key : String) (h : conn.pc = .pairAccept (.lookup code r key))
      (ht : s.clients r = none) : Exec s c conn .none .reading
  | setRequester (code r key : String) (t : ℕ)
      (h : conn.pc = .pairAccept (.setRequester code r key t)) :
      Exec s c conn (.setPeer t conn.deviceID) (.sendJSON t (.pairComplete code conn.deviceID key))
  | peer (h : conn.pc = .unpair .peer) :
      Exec s c conn .none (.unpair (.unpairDevice conn.pairedWith))
  | unpairFails (p code msg : String) (h : conn.pc = .unpair (.unpairDevice p)) :
      Exec s c conn .none (sendError c code msg)
  | unpair (p : String) (h : conn.pc = .unpair (.unpairDevice p)) :
      Exec s c conn (.devices (s.devices.unpairDevice conn.deviceID)) (.unpair (.setPeer p))
  | clear (p : String) (h : conn.pc = .unpair (.setPeer p)) :
      Exec s c conn (.setPeer c "") (.unpair (.unpaired p))
  | unpaired (p : String) (h : conn.pc = .unpair (.unpaired p)) (hp : p ≠ "") :
      Exec s c conn (.enqueue c (textFrame (.reply (.unpaired p)))) (.unpair (.lookup p))
  | unpairedAlone (h : conn.pc = .unpair (.unpaired "")) :
      Exec s c conn (.enqueue c (textFrame (.reply (.unpaired "")))) .reading
  | findPeer (p : String) (t : ℕ) (h : conn.pc = .unpair (.lookup p)) (ht : s.clients p = some t) :
      Exec s c conn .none (.unpair (.clearPeer p t))
  | noPeer (p : String) (h : conn.pc = .unpair (.lookup p)) (ht : s.clients p = none) :
      Exec s c conn .none .reading
  | clearPeer (p : String) (t : ℕ) (h : conn.pc = .unpair (.clearPeer p t)) :
      Exec s c conn (.setPeer t "") (.sendJSON t (.unpaired conn.deviceID))
  | unregister (h : conn.pc = .unregister) : Exec s c conn (.unregister c) .close
  | close (h : conn.pc = .close) : Exec s c conn (.close c) .returned

theorem Devices.setStaticKeyIfUnset_ok {t t' : Devices} {id key : String}
    (h : t.setStaticKeyIfUnset id key = .ok t') : ∃ row, t id = some row
      ∧ (row.staticKey = key ∧ t' = t
        ∨ row.staticKey = "" ∧ t' = Function.update t id (some { row with staticKey := key })) := by
  unfold Devices.setStaticKeyIfUnset at h
  rcases hd : t id with _ | row <;> simp only [hd] at h
  · cases h
  · refine ⟨row, rfl, ?_⟩
    split_ifs at h with hset hsame
    · cases h
      exact .inl ⟨not_not.1 hsame, rfl⟩
    · cases h
      exact .inr ⟨not_not.1 hset, rfl⟩

theorem Devices.setStaticKeyIfUnset_pairedWith {t t' : Devices} {id key : String}
    (h : t.setStaticKeyIfUnset id key = .ok t') (d : String) :
    (t' d).map Device.pairedWith = (t d).map Device.pairedWith := by
  obtain ⟨row, hd, ⟨-, rfl⟩ | ⟨-, rfl⟩⟩ := Devices.setStaticKeyIfUnset_ok h
  · rfl
  · by_cases hid : d = id
    · subst hid
      simp [hd]
    · simp [hid]

section Moves

variable {s : Server} {c : ℕ} {conn : Conn} {env : Env}

theorem sendWelcome_exec (next : Welcome) (h : conn.pc = .sendWelcome next) :
    Exec s c conn (sendWelcome s c conn env next).1 (sendWelcome s c conn env next).2 := by
  cases next with
  | staticKey peer => exact .welcomeKey peer _ h
  | welcome peers peer =>
    cases peer with
    | none => exact .welcome peers h
    | some peer => exact .welcomeLinked peers peer h
  | lookup peer => exact .welcomeLookup peer h
  | status peer online => exact .welcomeStatus peer online h

theorem handleAnnounceKey_exec (key : String) (h : conn.pc = .announceKey key) :
    Exec s c conn (handleAnnounceKey s c conn env key).1 (handleAnnounceKey s c conn env key).2 := by
  have ho : conn.pc.Ordinary := by rw [h]; trivial
  unfold handleAnnounceKey
  split
  · next t ht =>
    split_ifs at ht
    exact .ordinary ho (.devices t (Devices.setStaticKeyIfUnset_pairedWith ht)) trivial
  · exact .ordinary ho .none trivial
  · exact .ordinary ho .none trivial

theorem handlePairRequest_exec (h : conn.pc = .pairRequest) :
    Exec s c conn (handlePairRequest s c conn env).1 (handlePairRequest s c conn env).2 := by
  have ho : conn.pc.Ordinary := by rw [h]; trivial
  unfold handlePairRequest
  split
  · exact .ordinary ho .none trivial
  · exact .ordinary ho (.pairCodes _) trivial

theorem handlePairAccept_exec (next : PairAccept) (h : conn.pc = .pairAccept next) :
    Exec s c conn (handlePairAccept s c conn env next).1
      (handlePairAccept s c conn env next).2 := by
  cases next with
  | take code =>
    have ho : conn.pc.Ordinary := by rw [h]; trivial
    refine .ordinary ho (.pairCodes _) ?_
    simp only [handlePairAccept]
    split
    · trivial
    · trivial
    · split_ifs <;> trivial
  | pairDevices code r =>
    have ho : conn.pc.Ordinary := by rw [h]; trivial
    simp only [handlePairAccept]
    split
    · next t ht =>
      split_ifs at ht
      exact .pair code r t h ht
    all_goals exact .ordinary ho .none trivial
  | myKey code r => exact .myKey code r _ h
  | requesterKey code r key => exact .requesterKey code r key _ h
  | setPeer code r key key' => exact .setPeer code r key key' h
  | complete code r key key' => exact .complete code r key key' h
  | lookup code r key =>
    simp only [handlePairAccept]
    split
    · exact .requester code r key _ h ‹_›
    · exact .noRequester code r key h ‹_›
  | setRequester code r key t => exact .setRequester code r key t h

theorem handleUnpair_exec (next : Unpair) (h : conn.pc = .unpair next) :
    Exec s c conn (handleUnpair s c conn env next).1 (handleUnpair s c conn env next).2 := by
  cases next with
  | peer => exact .peer h
  | unpairDevice p =>
    simp only [handleUnpair]
    split
    · exact .unpairFails p _ _ h
    · exact .unpair p h
  | setPeer p => exact .clear p h
  | unpaired p =>
    simp only [handleUnpair]
    split_ifs with hp
    · exact .unpaired p h hp
    · rw [not_not] at hp
      subst hp
      exact .unpairedAlone h
  | lookup p =>
    simp only [handleUnpair]
    split
    · exact .findPeer p _ h ‹_›
    · exact .noPeer p h ‹_›
  | clearPeer p t => exact .clearPeer p t h

theorem route_exec {x : Access × Pc} (next : Route) (h : conn.pc = .route next)
    (hx : route s conn next = some x) : Exec s c conn x.1 x.2 := by
  have ho : conn.pc.Ordinary := by rw [h]; trivial
  cases next with
  | peer payload =>
    cases hx
    exact .ordinary ho .none (by split_ifs <;> trivial)
  | lookup peerID payload =>
    cases hx
    exact .ordinary ho .none (by split <;> trivial)
  | enqueue peer payload =>
    cases hx
    exact .ordinary ho (.enqueue _ _ rfl) (by split_ifs <;> trivial)
  | close peer =>
    cases hx
    exact .ordinary ho (.close _) trivial
  | unregister peer =>
    simp only [route] at hx
    split_ifs at hx
    cases hx
    exact .ordinary ho (.unregister _) trivial

/-- A step of a goroutine is one of `Exec`. -/
theorem exec_move {x : Access × Pc} (hx : exec s c conn env = some x) : Exec s c conn x.1 x.2 := by
  unfold exec at hx
  split at hx
  · next device h =>
    split_ifs at hx
    obtain rfl := Option.some.inj hx
    exact .register device h
  · next next h =>
    obtain rfl := Option.some.inj hx
    exact sendWelcome_exec next h
  · cases hx
  · next key h =>
    obtain rfl := Option.some.inj hx
    exact handleAnnounceKey_exec key h
  · next h =>
    obtain rfl := Option.some.inj hx
    exact handlePairRequest_exec h
  · next next h =>
    obtain rfl := Option.some.inj hx
    exact handlePairAccept_exec next h
  · next next h =>
    obtain rfl := Option.some.inj hx
    exact handleUnpair_exec next h
  · next next h => exact route_exec next h hx
  · next h =>
    obtain rfl := Option.some.inj hx
    exact .ordinary (by rw [h]; trivial) (.enqueue _ _ rfl) trivial
  · next h =>
    obtain rfl := Option.some.inj hx
    exact .ordinary (by rw [h]; trivial) (.enqueue _ _ rfl) (by split_ifs <;> trivial)
  · next h =>
    obtain rfl := Option.some.inj hx
    exact .ordinary (by rw [h]; trivial) (.close _) trivial
  · next h =>
    split_ifs at hx
    obtain rfl := Option.some.inj hx
    exact .unregister h
  · next h =>
    obtain rfl := Option.some.inj hx
    exact .close h
  · cases hx

theorem Server.runHandler_exec {s' : Server} (h : s.runHandler c env = some s') :
    ∃ conn x, s.conns[c]? = some conn ∧ exec s c conn env = some x ∧ s' = s.advance c x.1 x.2 := by
  unfold Server.runHandler at h
  rcases hc : s.conns[c]? with _ | conn <;> simp only [hc] at h
  · cases h
  · obtain ⟨x, hx, rfl⟩ := Option.map_eq_some_iff.1 h
    exact ⟨conn, x, rfl, hx, rfl⟩

/-- A connection's goroutine takes a step. -/
theorem Server.runHandler_move {s' : Server} (h : s.runHandler c env = some s') :
    ∃ conn a pc, s.conns[c]? = some conn ∧ Exec s c conn a pc ∧ s' = s.advance c a pc := by
  obtain ⟨conn, x, hc, hx, rfl⟩ := Server.runHandler_exec h
  exact ⟨conn, x.1, x.2, hc, exec_move hx, rfl⟩

end Moves

namespace Server

variable {s s' : Server} {c : ℕ} {conn : Conn}

/-- The device and the peer of a connection, and where its goroutine stands. -/
def view (s : Server) (c : ℕ) : Option (String × String × Pc) :=
  s.conns[c]?.map fun conn => (conn.deviceID, conn.pairedWith, conn.pc)

theorem view_of_conn (h : s.conns[c]? = some conn) :
    s.view c = some (conn.deviceID, conn.pairedWith, conn.pc) := by
  simp [view, h]

theorem seen_of_view (h : s'.view = s.view) : s'.seen = s.seen := by
  have hview : ∀ s : Server, s.seen = fun c => (s.view c).map fun v => (v.1, v.2.2) := by
    intro s
    funext c
    simp [seen, view, Function.comp_def]
  rw [hview, hview, h]

theorem view_modify (s : Server) (t : ℕ) {f : Conn → Conn} (hf : ∀ conn, (f conn).deviceID
    = conn.deviceID ∧ (f conn).pairedWith = conn.pairedWith ∧ (f conn).pc = conn.pc) :
    (s.modify t f).view = s.view := by
  funext c
  rcases h : s.conns[c]? with _ | conn
  · simp [view, modify_conns, h]
  · by_cases ht : t = c <;> simp [view, modify_conns, h, ht, hf]

theorem view_advance (s : Server) (c : ℕ) (a : Access) (pc : Pc) (c' : ℕ) :
    (s.advance c a pc).view c' = s.conns[c']?.map fun conn =>
      (conn.deviceID, (a.on c' conn).pairedWith, if c = c' then pc else conn.pc) := by
  rw [view, advance_conns, Option.map_map]
  congr 1
  funext conn
  by_cases hc : c = c' <;> simp [hc, Conn.setPc]

theorem view_evict (s : Server) (d : String) : (s.evict d).view = s.view := by
  unfold evict
  split
  · exact view_modify s _ fun _ => ⟨rfl, rfl, rfl⟩
  · rfl

theorem view_connect (s : Server) (new : Conn) (c : ℕ) :
    { s with conns := s.conns ++ [new] }.view c
      = if c = s.conns.length then some (new.deviceID, new.pairedWith, new.pc) else s.view c := by
  simp only [view, List.getElem?_append]
  split_ifs with hlt hc hc
  · omega
  · rfl
  · simp [hc]
  · rw [List.getElem?_eq_none (by simp; omega), List.getElem?_eq_none (by omega)]

/-- A queue takes nothing but a `peer_status`. -/
def Heard (s s' : Server) : Prop :=
  ∀ (c : ℕ) (conn' : Conn), s'.conns[c]? = some conn' → ∃ conn, s.conns[c]? = some conn
    ∧ (conn'.accepted = conn.accepted
      ∨ ∃ id online, conn'.accepted = conn.accepted ++ [textFrame (.peerStatus id online)])

/-- What a step does to the connections: it makes one, moves one after a frame or at an error of
`ReadMessage`, runs the goroutine of one, or changes none but in its queue. -/
inductive Moves (s : Server) : Label → Server → Prop
  | connect (deviceID token : String) (now : ℕ) (upgraded : Bool) (device : Device)
      (hne : deviceID ≠ "") (hd : s.devices deviceID = some device) :
      Moves s (.connect deviceID token now upgraded) { s with
        conns := s.conns ++ [{
          deviceID
          pairedWith := device.pairedWith.getD ""
          pc := .register device }] }
  | receive (c : ℕ) (frame : Inbound) (conn : Conn) (hc : s.conns[c]? = some conn)
      (hr : conn.pc = .reading) : Moves s (.receive c frame) (s.advance c .none (dispatch c frame))
  | disconnect (c : ℕ) (conn : Conn) (hc : s.conns[c]? = some conn) (hr : conn.pc = .reading) :
      Moves s (.disconnect c) (s.advance c .none .unregister)
  | handler (c : ℕ) (env : Env) (conn : Conn) (x : Access × Pc) (hc : s.conns[c]? = some conn)
      (hx : exec s c conn env = some x) : Moves s (.handler c env) (s.advance c x.1 x.2)
  | quiet (l : Label) (s' : Server) (hdev : s'.devices = s.devices) (hview : s'.view = s.view)
      (hheard : s.Heard s') : Moves s l s'

theorem Heard.refl (s : Server) : s.Heard s := fun _ conn hc => ⟨conn, hc, .inl rfl⟩

theorem heard_modify (s : Server) (t : ℕ) {f : Conn → Conn}
    (hf : ∀ conn, (f conn).accepted = conn.accepted
      ∨ ∃ id online, (f conn).accepted = conn.accepted ++ [textFrame (.peerStatus id online)]) :
    s.Heard (s.modify t f) := by
  intro c conn' hc'
  rw [modify_conns] at hc'
  obtain ⟨conn, hc, rfl⟩ := Option.map_eq_some_iff.1 hc'
  refine ⟨conn, hc, ?_⟩
  split_ifs
  · exact hf conn
  · exact .inl rfl

theorem heard_evict (s : Server) (d : String) : s.Heard (s.evict d) := by
  unfold evict
  split
  · exact s.heard_modify _ fun _ => .inl rfl
  · exact .refl s

theorem HubMove.quiet (h : s.HubMove s') :
    s'.devices = s.devices ∧ s'.view = s.view ∧ s.Heard s' := by
  cases h with
  | register c client =>
    exact ⟨by rw [evict_same], s.view_evict client.deviceID, s.heard_evict client.deviceID⟩
  | notify c about online =>
    refine ⟨rfl, view_modify s c fun conn => ⟨conn.enqueue_deviceID _, conn.enqueue_pairedWith _,
      conn.enqueue_pc _⟩, s.heard_modify c fun conn => ?_⟩
    unfold Conn.enqueue
    split_ifs
    · exact .inr ⟨about, online, rfl⟩
    · exact .inl rfl
  | _ => exact ⟨rfl, rfl, .refl s⟩

theorem step_moves {l : Label} (h : s.step l = some s') : s.Moves l s' := by
  cases l with
  | connect deviceID token now upgraded =>
    cases h
    rcases s.handler_cases deviceID token now upgraded with heq | ⟨hne, device, hd, heq⟩ <;> rw [heq]
    · exact .quiet _ s rfl rfl (.refl s)
    · exact .connect deviceID token now upgraded device hne hd
  | receive c frame =>
    obtain ⟨conn, hc, hr, rfl⟩ := read_eq_some h
    exact .receive c frame conn hc hr
  | disconnect c =>
    obtain ⟨conn, hc, hr, rfl⟩ := read_eq_some h
    exact .disconnect c conn hc hr
  | handler c env =>
    obtain ⟨conn, x, hc, hx, rfl⟩ := runHandler_exec h
    exact .handler c env conn x hc hx
  | write c =>
    cases h
    exact .quiet _ _ rfl (view_modify s c fun _ => ⟨rfl, rfl, rfl⟩)
      (s.heard_modify c fun _ => .inl rfl)
  | takeRegister =>
    obtain ⟨c, rest, -, -, rfl⟩ := takeRegister_eq_some h
    exact .quiet _ _ rfl rfl (.refl s)
  | takeUnregister =>
    obtain ⟨c, rest, -, -, rfl⟩ := takeUnregister_eq_some h
    exact .quiet _ _ rfl rfl (.refl s)
  | hub =>
    obtain ⟨hdev, hview, hheard⟩ := (runHub_move h).quiet
    exact .quiet _ s' hdev hview hheard

end Server

end Relayly.Relay
