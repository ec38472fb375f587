import Relayly.Lib.Run
import Relayly.Proofs.RelayCodes
import Relayly.Proofs.RelayLinks

/-!
# One `pair_accept`

What `handlePairAccept` leaves behind when nothing else runs in between: an error for the device that
sent it and nothing else but a code that is used up, or both devices linked and told.
-/

namespace Relayly.Relay

/-- The row of a device that has been linked. -/
def Device.linked (row : Device) (peerID : String) : Device :=
  { row with pairedWith := some peerID, expiresAt := none }

@[simp] theorem Device.linked_staticKey (row : Device) (peerID : String) :
    (row.linked peerID).staticKey = row.staticKey := rfl

/-- The rows that `PairDevices` finds, and what it makes of them. -/
theorem Devices.pairDevices_rows {t t' : Devices} {a b : String} (hne : a ≠ b)
    (h : t.pairDevices a b = .ok t') :
    ∃ rowA rowB, t a = some rowA ∧ rowA.pairedWith = none ∧ t b = some rowB ∧ rowB.pairedWith = none
      ∧ t' = Function.update (Function.update t a (some (rowA.linked b))) b (some (rowB.linked a)) := by
  obtain ⟨⟨rowA, hrowA, hpA⟩, ⟨rowB, hrowB, hpB⟩, rfl⟩ := Devices.pairDevices_eq_ok.1 h
  refine ⟨rowA, rowB, hrowA, hpA, hrowB, hpB, funext fun id => ?_⟩
  unfold Devices.setPairedWith
  by_cases hidB : id = b
  · subst hidB
    simp [Ne.symm hne, hrowB, Device.linked]
  · by_cases hidA : id = a
    · subst hidA
      simp [hne, hrowA, Device.linked]
    · simp [hidA, hidB]

namespace Conn

variable (conn : Conn) (pc pc' : Pc) (frame : WsFrame) (id : String)

theorem setPc_setPc : (conn.setPc pc).setPc pc' = conn.setPc pc' := rfl

theorem enqueue_setPc : (conn.setPc pc).enqueue frame = (conn.enqueue frame).setPc pc := by
  unfold enqueue
  show (if conn.accepts then _ else _) = _
  split_ifs <;> rfl

theorem setPc_self {conn : Conn} {pc : Pc} (h : conn.pc = pc) : conn.setPc pc = conn := by
  subst h
  rfl

end Conn

namespace Server

variable {s s' : Server} {c : ℕ} {conn : Conn}

/-! ## A handler that nothing interrupts -/

/-- The goroutine of `c` reads `frame` and handles it, the only one to run until it reads again; its
`i`-th access finds `env i`. -/
def Handles (s : Server) (c : ℕ) (frame : Inbound) (env : ℕ → Env) (s' : Server) : Prop :=
  ∃ n, Lts.run step s (.receive c frame :: (List.range n).map fun i => .handler c (env i)) = some s'
    ∧ ∃ conn, s'.conns[c]? = some conn ∧ conn.pc = .reading

/-- The rest of the handler, from access `k` on. -/
def Finishes (c : ℕ) (env : ℕ → Env) (k : ℕ) (s s' : Server) : Prop :=
  ∃ n, Lts.run step s ((List.range n).map fun i => .handler c (env (k + i))) = some s'
    ∧ ∃ conn, s'.conns[c]? = some conn ∧ conn.pc = .reading

variable {env : ℕ → Env} {k : ℕ}

theorem Finishes.refl (hc : s.conns[c]? = some conn) (hpc : conn.pc = .reading) :
    Finishes c env k s s := ⟨0, rfl, conn, hc, hpc⟩

theorem Finishes.step (hc : s.conns[c]? = some conn) {a : Access} {pc : Pc}
    (hx : exec s c conn (env k) = some (a, pc)) (h : Finishes c env (k + 1) (s.advance c a pc) s') :
    Finishes c env k s s' := by
  obtain ⟨n, hrun, hend⟩ := h
  refine ⟨n + 1, ?_, hend⟩
  have hstep : s.step (.handler c (env k)) = some (s.advance c a pc) := by
    simp [Server.step, runHandler, hc, hx, advance]
  rw [List.range_succ_eq_map, List.map_cons, List.map_map, Lts.run_cons]
  show (s.step (.handler c (env k))).bind _ = _
  rw [hstep, Option.bind_some, ← hrun]
  congr 2
  funext i
  simp [Nat.add_assoc, Nat.add_comm 1]

theorem Handles.of_finishes (hc : s.conns[c]? = some conn) (hpc : conn.pc = .reading)
    {frame : Inbound} (h : Finishes c env 0 (s.advance c .none (dispatch c frame)) s') :
    s.Handles c frame env s' := by
  obtain ⟨n, hrun, hend⟩ := h
  refine ⟨n, ?_, hend⟩
  have hstep : s.step (.receive c frame) = some (s.advance c .none (dispatch c frame)) := by
    simp [Server.step, read, hc, hpc, advance, access]
  rw [Lts.run_cons, hstep, Option.bind_some]
  simpa using hrun

/-- A goroutine that reads makes no access of its own. -/
theorem run_handler_reading (hc : s.conns[c]? = some conn) (hpc : conn.pc = .reading) {envs : List Env}
    (h : Lts.run step s (envs.map (.handler c)) = some s') : envs = [] := by
  cases envs with
  | nil => rfl
  | cons e envs =>
    have hstep : s.step (.handler c e) = none := by simp [Server.step, runHandler, hc, exec, hpc]
    rw [List.map_cons, Lts.run_cons, hstep] at h
    cases h

theorem run_handler_le {n n' : ℕ} {s₀ u u' : Server} (hle : n ≤ n')
    (h : Lts.run step s₀ ((List.range n).map fun i => .handler c (env i)) = some u)
    (hend : ∃ conn, u.conns[c]? = some conn ∧ conn.pc = .reading)
    (h' : Lts.run step s₀ ((List.range n').map fun i => .handler c (env i)) = some u') : u = u' := by
  obtain ⟨m, rfl⟩ := Nat.exists_eq_add_of_le hle
  obtain ⟨conn, hc, hpc⟩ := hend
  rw [List.range_add, List.map_append, Lts.run_append, h, Option.bind_some, List.map_map] at h'
  have hnil : (List.range m).map (fun i => env (n + i)) = [] :=
    run_handler_reading (c := c) hc hpc (by rw [List.map_map]; exact h')
  obtain rfl : m = 0 := by simpa using hnil
  exact Option.some.inj h'

/-- The handler has one end. -/
theorem Handles.unique {frame : Inbound} {u u' : Server} (h : s.Handles c frame env u)
    (h' : s.Handles c frame env u') : u = u' := by
  obtain ⟨n, hrun, hend⟩ := h
  obtain ⟨n', hrun', hend'⟩ := h'
  obtain ⟨s₀, hstep, hrest⟩ := Lts.run_cons_eq_some.1 hrun
  obtain ⟨s₀', hstep', hrest'⟩ := Lts.run_cons_eq_some.1 hrun'
  obtain rfl : s₀ = s₀' := Option.some.inj (hstep.symm.trans hstep')
  rcases Nat.le_total n n' with hle | hle
  · exact run_handler_le hle hrest hend hrest'
  · exact (run_handler_le hle hrest' hend' hrest).symm

/-! ## The outcomes -/

/-- What no `pair_accept` changes. -/
structure SameHub (s s' : Server) : Prop where
  clients : s'.clients = s.clients
  registerCh : s'.registerCh = s.registerCh
  unregisterCh : s'.unregisterCh = s.unregisterCh
  hub : s'.hub = s.hub

/-- Connection `c` is handed one error; the code may be used up, and all else is as it was. -/
structure Refused (s : Server) (c : ℕ) (code : String) (s' : Server) : Prop extends s.SameHub s' where
  conns : ∃ errCode text, ∀ c', s'.conns[c']? = s.conns[c']?.map fun conn =>
    if c' = c then conn.enqueue (textFrame (.reply (.error errCode text))) else conn
  devices : s'.devices = s.devices
  pairCodes : s'.pairCodes = s.pairCodes ∨ s'.pairCodes = Function.update s.pairCodes code none

/-- Both devices were there and unpaired, and the tables are now `t` and `r`: the two linked with each
other, with no expiry, and the code used up. -/
structure Paired (s : Server) (code a b : String) (rowA rowB : Device) (t : Devices)
    (r : PairCodes) : Prop where
  ne : a ≠ b
  foundA : s.devices a = some rowA
  unpairedA : rowA.pairedWith = none
  foundB : s.devices b = some rowB
  unpairedB : rowB.pairedWith = none
  devices : t =
    Function.update (Function.update s.devices a (some (rowA.linked b))) b (some (rowB.linked a))
  pairCodes : r = Function.update s.pairCodes code none

/-- A connection has a new peer and is handed one `pair_complete`. -/
def complete (code peerID peerKey : String) : Conn → Conn :=
  Conn.enqueue (textFrame (.reply (.pairComplete code peerID peerKey))) ∘ Conn.setPeer peerID

/-- Device `b`, whose connection is `c`, and the requester `a` are linked; the connection of `b` and the
registered one of `a` have each other as peer and are told, and all else is as it was. -/
structure PairedUp (s : Server) (c : ℕ) (code a b : String) (rowA rowB : Device) (s' : Server) : Prop
    extends s.SameHub s', s.Paired code a b rowA rowB s'.devices s'.pairCodes where
  conns : ∀ c', s'.conns[c']? = s.conns[c']?.map fun conn =>
    if c' = c then complete code a rowA.staticKey conn
    else if s.clients a = some c' then complete code b rowB.staticKey conn
    else conn

/-- The server in the middle of the handler: the tables are `t` and `r`, `g` is what has been done to
connection `c`, its goroutine stands at `pc`, and nothing else has changed. -/
def mid (s : Server) (c : ℕ) (t : Devices) (r : PairCodes) (g : Conn → Conn) (pc : Pc) : Server :=
  { s with devices := t, pairCodes := r }.modify c (Conn.setPc pc ∘ g)

section Mid

variable {t : Devices} {r : PairCodes} {g : Conn → Conn} {pc pc' : Pc}

theorem modify_modify (s : Server) (c : ℕ) (f g : Conn → Conn) :
    (s.modify c f).modify c g = s.modify c (g ∘ f) := by
  simp only [modify, List.modify_modify_eq]

theorem mid_conn (hc : s.conns[c]? = some conn) :
    (s.mid c t r g pc).conns[c]? = some ((g conn).setPc pc) := by
  rw [mid, modify_conns]
  simp [hc]

theorem mid_start (s : Server) (c : ℕ) (pc : Pc) :
    s.advance c .none pc = s.mid c s.devices s.pairCodes id pc := rfl

theorem mid_none : (s.mid c t r g pc).advance c .none pc' = s.mid c t r g pc' :=
  modify_modify ..

theorem mid_devices (t' : Devices) :
    (s.mid c t r g pc).advance c (.devices t') pc' = s.mid c t' r g pc' :=
  modify_modify { s with devices := t', pairCodes := r } ..

theorem mid_pairCodes (r' : PairCodes) :
    (s.mid c t r g pc).advance c (.pairCodes r') pc' = s.mid c t r' g pc' :=
  modify_modify { s with devices := t, pairCodes := r' } ..

theorem mid_setPeer (id : String) :
    (s.mid c t r g pc).advance c (.setPeer c id) pc' = s.mid c t r (Conn.setPeer id ∘ g) pc' := by
  show ((s.mid c t r g pc).modify c _).modify c _ = _
  rw [mid, modify_modify, modify_modify]
  rfl

theorem mid_enqueue (frame : WsFrame) :
    (s.mid c t r g pc).advance c (.enqueue c frame) pc' = s.mid c t r (Conn.enqueue frame ∘ g) pc' := by
  show ((s.mid c t r g pc).modify c _).modify c _ = _
  rw [mid, modify_modify, modify_modify, mid]
  congr 1
  funext conn
  show ((g conn).setPc pc |>.enqueue frame).setPc pc' = _
  rw [Conn.enqueue_setPc]
  rfl

/-- A handler that is in the middle makes an access and is in the middle again. -/
theorem Finishes.mid {a : Access} {u : Server} (hc : s.conns[c]? = some conn)
    (hx : exec (s.mid c t r g pc) c ((g conn).setPc pc) (env k) = some (a, pc'))
    (hu : (s.mid c t r g pc).advance c a pc' = u) (h : Finishes c env (k + 1) u s') :
    Finishes c env k (s.mid c t r g pc) s' :=
  .step (mid_conn hc) hx (hu ▸ h)

/-- `sendError` ends a handler. -/
theorem finishes_sendError {errCode text : String} (hc : s.conns[c]? = some conn) :
    Finishes c env k (s.mid c t r g (sendError c errCode text))
      (s.mid c t r (Conn.enqueue (textFrame (.reply (.error errCode text))) ∘ g) .reading) :=
  .mid hc rfl (mid_enqueue _) (.refl (mid_conn hc) rfl)

/-- The connections at the end of a handler. -/
theorem mid_conns (hc : s.conns[c]? = some conn) (hpc : (g conn).pc = .reading) (c' : ℕ) :
    (s.mid c t r g .reading).conns[c']?
      = s.conns[c']?.map fun conn => if c' = c then g conn else conn := by
  rw [mid, modify_conns]
  rcases hc' : s.conns[c']? with _ | conn'
  · simp
  · by_cases hcc : c = c'
    · subst hcc
      obtain rfl : conn = conn' := Option.some.inj (hc.symm.trans hc')
      simp [Conn.setPc_self hpc]
    · simp [hcc, Ne.symm hcc]

theorem refused_mid {errCode text code : String} (hc : s.conns[c]? = some conn)
    (hpc : conn.pc = .reading) (hr : r = s.pairCodes ∨ r = Function.update s.pairCodes code none) :
    s.Refused c code
      (s.mid c s.devices r (Conn.enqueue (textFrame (.reply (.error errCode text)))) .reading) :=
  ⟨⟨rfl, rfl, rfl, rfl⟩, ⟨errCode, text, mid_conns hc (by rw [Conn.enqueue_pc, hpc])⟩, rfl, hr⟩

end Mid

/-- A handler that gets to `sendError` with nothing changed but the code. -/
theorem exists_refused {errCode text code : String} {r : PairCodes} (hc : s.conns[c]? = some conn)
    (hpc : conn.pc = .reading) (hr : r = s.pairCodes ∨ r = Function.update s.pairCodes code none) :
    ∃ s', Finishes c env k (s.mid c s.devices r id (sendError c errCode text)) s'
      ∧ s.Refused c code s' :=
  ⟨_, finishes_sendError hc, refused_mid hc hpc hr⟩

/-- Every client of the hub is there under its own id. -/
def Registry (s : Server) : Prop :=
  ∀ id t, s.clients id = some t → ∃ conn, s.conns[t]? = some conn ∧ conn.deviceID = id

/-- It is so in every state that the server reaches. -/
theorem registry_of_run {devices : Devices} {pairCodes : PairCodes} {labels : List Label}
    (hrun : Lts.run step (start devices pairCodes) labels = some s) : s.Registry := by
  have hk : s.Keyed := Lts.run_inv_of_step (fun _ _ _ h => h.step) labels
    (start_keyed devices pairCodes) hrun
  intro id t ht
  obtain ⟨pc, hpc⟩ := hk.clients id t ht
  obtain ⟨conn, hc, hseen⟩ := Option.map_eq_some_iff.1 hpc
  exact ⟨conn, hc, congrArg Prod.fst hseen⟩

section Link

variable {t : Devices} {r : PairCodes} {code a b : String} {rowA rowB : Device}

theorem complete_pc (code peerID peerKey : String) (conn : Conn) :
    (complete code peerID peerKey conn).pc = conn.pc := by simp [complete, Conn.setPeer]

theorem complete_deviceID (code peerID peerKey : String) (conn : Conn) :
    (complete code peerID peerKey conn).deviceID = conn.deviceID := by simp [complete, Conn.setPeer]

/-- The requester is not connected. -/
theorem Paired.finishes_alone (h : s.Paired code a b rowA rowB t r) (hc : s.conns[c]? = some conn)
    (hpc : conn.pc = .reading) (hnone : s.clients a = none) :
    ∃ s', Finishes c env k (s.mid c t r (complete code a rowA.staticKey)
        (.pairAccept (.lookup code a rowB.staticKey))) s'
      ∧ s.PairedUp c code a b rowA rowB s' := by
  refine ⟨s.mid c t r (complete code a rowA.staticKey) .reading,
    .mid hc ?_ mid_none (.refl (mid_conn hc) rfl), ⟨rfl, rfl, rfl, rfl⟩, h, fun c' => ?_⟩
  · simp only [exec, Conn.setPc, handlePairAccept]
    rw [show (s.mid c t r (complete code a rowA.staticKey) _).clients a = none from hnone]
  · rw [mid_conns hc ((complete_pc ..).trans hpc), hnone]
    simp

/-- The requester is connected. -/
theorem Paired.finishes_both (h : s.Paired code a b rowA rowB t r) (hc : s.conns[c]? = some conn)
    (hpc : conn.pc = .reading) (hb : conn.deviceID = b) {q : ℕ} (hq : s.clients a = some q)
    (hqc : c ≠ q) :
    ∃ s', Finishes c env k (s.mid c t r (complete code a rowA.staticKey)
        (.pairAccept (.lookup code a rowB.staticKey))) s'
      ∧ s.PairedUp c code a b rowA rowB s' := by
  have hlookup : exec (s.mid c t r (complete code a rowA.staticKey)
      (.pairAccept (.lookup code a rowB.staticKey))) c
      ((complete code a rowA.staticKey conn).setPc (.pairAccept (.lookup code a rowB.staticKey))) (env k)
      = some (.none, .pairAccept (.setRequester code a rowB.staticKey q)) := by
    simp only [exec, Conn.setPc, handlePairAccept]
    rw [show (s.mid c t r (complete code a rowA.staticKey) _).clients a = some q from hq]
  have hset : exec (s.mid c t r (complete code a rowA.staticKey)
      (.pairAccept (.setRequester code a rowB.staticKey q))) c
      ((complete code a rowA.staticKey conn).setPc (.pairAccept (.setRequester code a rowB.staticKey q)))
      (env (k + 1))
      = some (.setPeer q b, .sendJSON q (.pairComplete code b rowB.staticKey)) := by
    simp only [exec, Conn.setPc, handlePairAccept, complete_deviceID, hb]
  have hmid : (s.mid c t r (complete code a rowA.staticKey)
      (.pairAccept (.setRequester code a rowB.staticKey q))).conns[c]? = some _ := mid_conn hc
  have hself : ((s.mid c t r (complete code a rowA.staticKey)
      (.pairAccept (.setRequester code a rowB.staticKey q))).advance c (.setPeer q b)
      (.sendJSON q (.pairComplete code b rowB.staticKey))).conns[c]? = some _ := advance_self hmid
  refine ⟨_, .mid hc hlookup mid_none (.step hmid hset (.step hself rfl
    (.refl (advance_self hself) rfl))), ⟨rfl, by simp [mid, modify, Access.registers],
      by simp [mid, modify, Access.unregisters], rfl⟩, h, fun c' => ?_⟩
  simp only [advance_conns, mid, modify_conns, Option.map_map]
  rcases hc' : s.conns[c']? with _ | conn'
  · simp
  · by_cases hcc : c = c'
    · subst hcc
      obtain rfl : conn = conn' := Option.some.inj (hc.symm.trans hc')
      have hcomplete := Conn.setPc_self ((complete_pc code a rowA.staticKey conn).trans hpc)
      simp [Access.on, Ne.symm hqc, Conn.setPc_setPc, hcomplete]
    · by_cases hqq : q = c'
      · simp [Access.on, hcc, Ne.symm hcc, hq, hqq, complete]
      · simp [Access.on, hcc, Ne.symm hcc, hq, hqq]

/-- From `PairDevices` on nothing fails any more. -/
theorem Paired.finishes (h : s.Paired code a b rowA rowB t r) (hreg : s.Registry)
    (hc : s.conns[c]? = some conn) (hpc : conn.pc = .reading) (hb : conn.deviceID = b)
    (hreadB : (env k).fault = false) (hreadA : (env (k + 1)).fault = false) :
    ∃ s', Finishes c env k (s.mid c t r id (.pairAccept (.myKey code a))) s'
      ∧ s.PairedUp c code a b rowA rowB s' := by
  have hrowB : t b = some (rowB.linked a) := by rw [h.devices, Function.update_self]
  have hrowA : t a = some (rowA.linked b) := by
    rw [h.devices, Function.update_of_ne h.ne, Function.update_self]
  have hmyKey : exec (s.mid c t r id (.pairAccept (.myKey code a))) c
      ((id conn).setPc (.pairAccept (.myKey code a))) (env k)
      = some (.none, .pairAccept (.requesterKey code a rowB.staticKey)) := by
    simp [exec, Conn.setPc, handlePairAccept, hb, Server.staticKey, hreadB, mid, modify, hrowB]
  have hkey : exec (s.mid c t r id (.pairAccept (.requesterKey code a rowB.staticKey))) c
      ((id conn).setPc (.pairAccept (.requesterKey code a rowB.staticKey))) (env (k + 1))
      = some (.none, .pairAccept (.setPeer code a rowB.staticKey rowA.staticKey)) := by
    simp [exec, Conn.setPc, handlePairAccept, Server.staticKey, hreadA, mid, modify, hrowA]
  have hlast : ∃ s', Finishes c env (k + 4) (s.mid c t r (complete code a rowA.staticKey)
      (.pairAccept (.lookup code a rowB.staticKey))) s' ∧ s.PairedUp c code a b rowA rowB s' := by
    rcases hq : s.clients a with _ | q
    · exact h.finishes_alone hc hpc hq
    · refine h.finishes_both hc hpc hb hq ?_
      rintro rfl
      obtain ⟨conn', hc', hid⟩ := hreg a c hq
      obtain rfl : conn = conn' := Option.some.inj (hc.symm.trans hc')
      exact h.ne (hid.symm.trans hb)
  obtain ⟨s', hfin, hup⟩ := hlast
  have hset : (s.mid c t r id (.pairAccept (.setPeer code a rowB.staticKey rowA.staticKey))).advance c
      (.setPeer c a) (.pairAccept (.complete code a rowB.staticKey rowA.staticKey))
      = s.mid c t r (Conn.setPeer a) (.pairAccept (.complete code a rowB.staticKey rowA.staticKey)) :=
    mid_setPeer a
  exact ⟨s', .mid hc hmyKey mid_none (.mid hc hkey mid_none (.mid hc rfl hset
    (.mid hc rfl (mid_enqueue _) hfin))), hup⟩

/-- `PairDevices` on two devices, and what follows. -/
theorem finishes_pairDevices (hreg : s.Registry) (hc : s.conns[c]? = some conn)
    (hpc : conn.pc = .reading) (hne : a ≠ conn.deviceID)
    (hr : r = Function.update s.pairCodes code none) (hreadB : (env (k + 1)).fault = false)
    (hreadA : (env (k + 2)).fault = false) :
    ∃ s', Finishes c env k (s.mid c s.devices r id (.pairAccept (.pairDevices code a))) s'
      ∧ (s.Refused c code s' ∨ ∃ rowA rowB, s.PairedUp c code a conn.deviceID rowA rowB s') := by
  have hx : exec (s.mid c s.devices r id (.pairAccept (.pairDevices code a))) c
      ((id conn).setPc (.pairAccept (.pairDevices code a))) (env k)
      = some (handlePairAccept (s.mid c s.devices r id (.pairAccept (.pairDevices code a))) c
          ((id conn).setPc (.pairAccept (.pairDevices code a))) (env k) (.pairDevices code a)) := rfl
  simp only [handlePairAccept] at hx
  rw [show (s.mid c s.devices r id (.pairAccept (.pairDevices code a))).devices = s.devices from rfl,
    show ((id conn).setPc (.pairAccept (.pairDevices code a))).deviceID = conn.deviceID from rfl] at hx
  split at hx
  · next t ht =>
    split_ifs at ht
    obtain ⟨rowA, rowB, hfoundA, hunA, hfoundB, hunB, hdev⟩ := Devices.pairDevices_rows hne ht
    have hpaired : s.Paired code a conn.deviceID rowA rowB t r :=
      ⟨hne, hfoundA, hunA, hfoundB, hunB, hdev, hr⟩
    obtain ⟨s', hfin, hup⟩ := hpaired.finishes hreg hc hpc rfl hreadB hreadA
    exact ⟨s', .mid hc hx (mid_devices t) hfin, .inr ⟨rowA, rowB, hup⟩⟩
  all_goals
    obtain ⟨s', hfin, href⟩ := exists_refused hc hpc (.inr hr)
    exact ⟨s', .mid hc hx mid_none hfin, .inl href⟩

end Link

/-- What `Take` returns is the device that the code stands for, and the code is then gone. -/
theorem take_ok {code a : String} {now : ℕ} (h : (s.pairCodes.take code now).1 = .ok a) :
    s.StandsFor code a now
      ∧ (s.pairCodes.take code now).2 = Function.update s.pairCodes code none := by
  unfold PairCodes.take at h ⊢
  rcases hcode : s.pairCodes code with _ | entry <;> simp only [hcode] at h ⊢
  · cases h
  · split_ifs at h with hexp
    exact ⟨⟨entry, hcode, Taken.ok.inj h, Nat.le_of_not_lt hexp⟩, trivial⟩

/-- The redemption of a code that is not empty. -/
theorem finishes_take (hreg : s.Registry) (hc : s.conns[c]? = some conn) (hpc : conn.pc = .reading)
    (code : String) (hreadB : (env 2).fault = false) (hreadA : (env 3).fault = false) :
    ∃ s', Finishes c env 0 (s.mid c s.devices s.pairCodes id (.pairAccept (.take code))) s'
      ∧ (s.Refused c code s' ∨ ∃ a rowA rowB, s.StandsFor code a (env 0).now
        ∧ s.PairedUp c code a conn.deviceID rowA rowB s') := by
  have hx : exec (s.mid c s.devices s.pairCodes id (.pairAccept (.take code))) c
      ((id conn).setPc (.pairAccept (.take code))) (env 0)
      = some (handlePairAccept (s.mid c s.devices s.pairCodes id (.pairAccept (.take code))) c
          ((id conn).setPc (.pairAccept (.take code))) (env 0) (.take code)) := rfl
  simp only [handlePairAccept] at hx
  rw [show (s.mid c s.devices s.pairCodes id (.pairAccept (.take code))).pairCodes = s.pairCodes from rfl,
    show ((id conn).setPc (.pairAccept (.take code))).deviceID = conn.deviceID from rfl] at hx
  have hcodes : (s.pairCodes.take code (env 0).now).2 = s.pairCodes
      ∨ (s.pairCodes.take code (env 0).now).2 = Function.update s.pairCodes code none := by
    unfold PairCodes.take
    rcases s.pairCodes code with _ | entry
    · exact .inl rfl
    · exact .inr rfl
  rcases htaken : (s.pairCodes.take code (env 0).now).1 with _ | _ | a <;> simp only [htaken] at hx
  · obtain ⟨s', hfin, href⟩ := exists_refused hc hpc hcodes
    exact ⟨s', .mid hc hx (mid_pairCodes _) hfin, .inl href⟩
  · obtain ⟨s', hfin, href⟩ := exists_refused hc hpc hcodes
    exact ⟨s', .mid hc hx (mid_pairCodes _) hfin, .inl href⟩
  · split_ifs at hx with hself
    · obtain ⟨s', hfin, href⟩ := exists_refused hc hpc hcodes
      exact ⟨s', .mid hc hx (mid_pairCodes _) hfin, .inl href⟩
    · obtain ⟨hstands, hgone⟩ := take_ok htaken
      obtain ⟨s', hfin, hout⟩ := finishes_pairDevices (k := 1) hreg hc hpc hself hgone hreadB hreadA
      refine ⟨s', .mid hc hx (mid_pairCodes _) hfin, hout.imp_right ?_⟩
      rintro ⟨rowA, rowB, hup⟩
      exact ⟨a, rowA, rowB, hstands, hup⟩

/-- A `pair_accept` that nothing interrupts ends, and either the device that sent it is handed one error
and no row, no peer of a connection and no other code has changed, or the code waits for a requester
other than itself, both are unpaired, and it links and tells the two and changes nothing else. -/
theorem pairAccept_all_or_nothing (s : Server) (c : ℕ) (conn : Conn) (code : String) (env : ℕ → Env)
    (hc : s.conns[c]? = some conn) (hpc : conn.pc = .reading) (hreg : s.Registry)
    (hreadB : (env 2).fault = false) (hreadA : (env 3).fault = false) :
    (∃ s', s.Handles c (.pairAccept code) env s')
      ∧ ∀ s', s.Handles c (.pairAccept code) env s' → s.Refused c code s'
        ∨ ∃ a rowA rowB, s.StandsFor code a (env 0).now
          ∧ s.PairedUp c code a conn.deviceID rowA rowB s' := by
  have hstart : ∃ s', Finishes c env 0 (s.advance c .none (dispatch c (.pairAccept code))) s'
      ∧ (s.Refused c code s' ∨ ∃ a rowA rowB, s.StandsFor code a (env 0).now
        ∧ s.PairedUp c code a conn.deviceID rowA rowB s') := by
    rw [mid_start, dispatch]
    split_ifs
    · obtain ⟨s', hfin, href⟩ := exists_refused hc hpc (.inl rfl)
      exact ⟨s', hfin, .inl href⟩
    · exact finishes_take hreg hc hpc code hreadB hreadA
  obtain ⟨s', hfin, hout⟩ := hstart
  have hhandles : s.Handles c (.pairAccept code) env s' := .of_finishes hc hpc hfin
  refine ⟨⟨s', hhandles⟩, fun s'' h'' => ?_⟩
  rw [h''.unique hhandles]
  exact hout

/-- Devices `a` and `b` are connected and not linked, and a code of `a` is waiting. -/
def requestedA : Server where
  devices := fun id => if id = "a" ∨ id = "b" then some { deviceToken := "t", staticKey := id } else none
  pairCodes := fun code => if code = "048392" then some ⟨"a", 10⟩ else none
  conns := [{ deviceID := "a", pairedWith := "", pc := .reading },
    { deviceID := "b", pairedWith := "", pc := .reading }]
  clients := fun id => if id = "a" then some 0 else if id = "b" then some 1 else none

theorem requestedA_registry : requestedA.Registry := by
  intro id t h
  simp only [requestedA] at h
  split_ifs at h with ha hb
  · cases h
    exact ⟨_, rfl, ha.symm⟩
  · cases h
    exact ⟨_, rfl, hb.symm⟩

/-- `b` sends the code of `a`, and the two are linked. -/
theorem pairAccept_all_or_nothing_requested :
    ∃ s' rowA rowB, requestedA.Handles 1 (.pairAccept "048392") (fun _ => ⟨0, false, none⟩) s'
      ∧ requestedA.StandsFor "048392" "a" 0 ∧ requestedA.PairedUp 1 "048392" "a" "b" rowA rowB s' := by
  obtain ⟨⟨s', hhandles⟩, hout⟩ := pairAccept_all_or_nothing requestedA 1 _ "048392"
    (fun _ => ⟨0, false, none⟩) rfl rfl requestedA_registry rfl rfl
  have hlinked : (Lts.run step requestedA (.receive 1 (.pairAccept "048392")
      :: (List.range 9).map fun _ => .handler 1 ⟨0, false, none⟩)).any fun s' =>
        decide (s'.devices.link "b" = "a" ∧ s'.conns[1]?.map Conn.pc = some .reading) := by
    decide +kernel
  simp only [Option.any_eq_true, decide_eq_true_eq, Option.map_eq_some_iff] at hlinked
  obtain ⟨u, hrun, hlink, hend⟩ := hlinked
  obtain rfl : u = s' := Handles.unique ⟨9, hrun, hend⟩ hhandles
  rcases hout u hhandles with href | ⟨a, rowA, rowB, hstands, hup⟩
  · rw [href.devices] at hlink
    exact absurd hlink (by decide)
  · obtain rfl : a = "a" := by
      obtain ⟨entry, hentry, rfl, -⟩ := hstands
      cases hentry
      rfl
    exact ⟨u, rowA, rowB, hhandles, hstands, hup⟩

end Server

end Relayly.Relay
