import Mathlib.Algebra.Group.Nat.Defs
import Relayly.Lib.Perm
import Relayly.Lib.Run
import Relayly.Sdk.Transport

/-!
# Reconnecting

Each `connect()` of the application starts a loop that is at any time either a socket whose `close`
event is to come or a timer that is to fire, until the transport is closed, reconnecting is off or a
callback throws. With one such loop `close()` is the end of everything, and the delays double from
the last time that a socket opened.
-/

namespace Relayly.Sdk.Ts

/-- The delay before the next socket after `k` others have closed in a row. -/
def TransportOptions.backoff (opts : TransportOptions) : ℕ → ℕ
  | 0 => opts.reconnectDelayMs
  | k + 1 => min (opts.backoff k * 2) opts.maxReconnectDelayMs

theorem TransportOptions.backoff_succ (opts : TransportOptions) (k : ℕ) :
    opts.backoff (k + 1) = min (opts.reconnectDelayMs * 2 ^ (k + 1)) opts.maxReconnectDelayMs := by
  induction k with
  | zero => simp [backoff]
  | succ k ih =>
    rw [backoff, ih, Nat.pow_succ 2 (k + 1), ← Nat.mul_assoc]
    omega

/-- How many sockets have closed since one has opened, as the application is told. -/
def failures (effects : List Effect) : ℕ :=
  effects.foldl (fun n e => match e with
    | .onOpen => 0
    | .onClose _ => n + 1
    | _ => n) 0

/-- What an effect says about the effects before it. -/
def Timely (opts : TransportOptions) (before : List Effect) : Effect → Prop
  | .onReconnecting attempt => attempt = failures before
  | .setTimeout delay => 0 < failures before ∧ delay = opts.backoff (failures before - 1)
  | _ => True

theorem failures_append (effects : List Effect) (x : Effect) :
    failures (effects ++ [x]) = match x with
      | .onOpen => 0
      | .onClose _ => failures effects + 1
      | _ => failures effects := by
  rw [failures, List.foldl_append]
  rfl

theorem timely_append {opts : TransportOptions} {effects : List Effect} {x : Effect}
    (h : ∀ i y, effects[i]? = some y → Timely opts (effects.take i) y) (hx : Timely opts effects x)
    (i : ℕ) (y : Effect) (hy : (effects ++ [x])[i]? = some y) :
    Timely opts ((effects ++ [x]).take i) y := by
  by_cases hi : i < effects.length
  · rw [List.getElem?_append_left hi] at hy
    rw [List.take_append_of_le_length (Nat.le_of_lt hi)]
    exact h i y hy
  · obtain ⟨rfl, rfl⟩ : i = effects.length ∧ y = x := by
      rw [List.getElem?_append_right (Nat.le_of_not_lt hi), List.getElem?_singleton] at hy
      split_ifs at hy with h0
      exact ⟨by omega, (Option.some.inj hy).symm⟩
    rwa [List.take_left']
    rfl

/-- An effect that neither tells of a socket that opened or closed nor has to do with a timer. -/
def Effect.Plain : Effect → Prop
  | .onOpen | .onClose _ | .onReconnecting _ | .setTimeout _ => False
  | _ => True

theorem Effect.Plain.failures {x : Effect} (h : x.Plain) (effects : List Effect) :
    failures (effects ++ [x]) = Ts.failures effects := by
  rw [failures_append]
  cases x <;> first | rfl | cases h

theorem Effect.Plain.timely {x : Effect} (h : x.Plain) (opts : TransportOptions)
    (before : List Effect) : Timely opts before x := by
  cases x <;> trivial

/-- A socket on which something may still happen besides its close. -/
def ReadyState.usable : ReadyState → Bool
  | .connecting | .opened => true
  | _ => false

theorem ReadyState.close_usable (state : ReadyState) : state.close.usable = false := by
  cases state <;> rfl

theorem ReadyState.close_ne_closed (state : ReadyState) : state.close ≠ .closed ↔ state ≠ .closed := by
  cases state <;> simp [ReadyState.close]

namespace WebSocketTransport

variable {t t' : WebSocketTransport} {k e d : ℕ}

/-- The loops of the transport, with `k` of them between a socket and a timer, of which `e` have
counted their attempt and `d` have told the application of the close and not counted it yet. The
count is right as long as the loop goes on. -/
structure Inv (k e d : ℕ) (t : WebSocketTransport) : Prop where
  phase : e ≤ k
  count_le : t.live + t.pending + t.abandoned + k ≤ t.connects
  count_eq : t.closed = false → t.opts.reconnectDelayMs ≠ 0 →
    t.live + t.pending + t.abandoned + k = t.connects
  attempt : t.connects ≤ 1 → t.connects ≤ t.live + t.pending + k →
    failures t.effects = t.reconnectAttempt + d
  sole : t.connects ≤ 1 → ∀ i state, t.sockets[i]? = some state → state.usable → t.ws = some i
  gone : t.closed → t.ws = none
  delay : t.connects ≤ 1 → t.abandoned = 0 → (t.closed = false ∨ e = 1) →
    t.pending + e ≤ t.reconnectAttempt
      ∧ t.currentDelay = t.opts.backoff (t.reconnectAttempt - (t.pending + e))
  timely : t.connects ≤ 1 → ∀ i x, t.effects[i]? = some x → Timely t.opts (t.effects.take i) x

theorem new_inv (opts : TransportOptions) : (new opts).Inv 0 0 0 := by
  constructor <;> simp [new, live, pending, failures, TransportOptions.backoff]

/-- With one loop, there is no socket and no timer while it is between the two. -/
theorem Inv.between (h : t.Inv 1 e d) (hc : t.connects ≤ 1) :
    t.live = 0 ∧ t.pending = 0 ∧ t.abandoned = 0 := by
  have := h.count_le
  omega

/-- The count of a loop that is between a socket and a timer. -/
theorem Inv.counted (h : t.Inv 1 e d) (hc : t.connects ≤ 1) :
    failures t.effects = t.reconnectAttempt + d :=
  h.attempt hc (hc.trans (Nat.le_add_left 1 _))

/-- No socket is usable where all have had their `close` event. -/
theorem not_usable_of_live (h : t.live = 0) {i : ℕ} {state : ReadyState}
    (hi : t.sockets[i]? = some state) : state.usable = false := by
  have hclosed : state = .closed := by
    have := List.countP_eq_zero.1 h state (List.mem_of_getElem? hi)
    simpa using this
  rw [hclosed]
  rfl

theorem Inv.emit (h : t.Inv k e d) {x : Effect} (hx : x.Plain) : (t.emit x).Inv k e d where
  phase := h.phase
  count_le := h.count_le
  count_eq := h.count_eq
  attempt := fun hc hgo => (hx.failures t.effects).trans (h.attempt hc hgo)
  sole := h.sole
  gone := h.gone
  delay := h.delay
  timely := fun hc => timely_append (h.timely hc) (hx.timely _ _)

/-! ## The calls of the application -/

/-- A loop that is between a socket and a timer ends where the transport is closed or reconnecting is
off. -/
theorem Inv.drop (h : t.Inv (k + 1) e d) (he : e ≤ k)
    (hend : t.closed ∨ t.opts.reconnectDelayMs = 0) (d' : ℕ) : t.Inv k e d' where
  phase := he
  count_le := Nat.le_of_succ_le h.count_le
  count_eq := fun hopen hbase => by
    rcases hend with hclosed | hzero
    · simp [hopen] at hclosed
    · exact absurd hzero hbase
  attempt := fun _ hgo => by
    have := h.count_le
    omega
  sole := h.sole
  gone := h.gone
  delay := h.delay
  timely := h.timely

/-- `connect` goes on with a socket. -/
theorem Inv.dial (h : t.Inv (k + 1) e d) (he : e ≤ k) : t.connect.Inv k e d := by
  by_cases hclosed : t.closed
  · rw [WebSocketTransport.connect, if_pos hclosed]
    exact h.drop he (.inl hclosed) d
  · have hle := h.count_le
    have hlive : t.connect.live = t.live + 1 := by
      simp [WebSocketTransport.connect, hclosed, live, List.countP_append]
    rw [WebSocketTransport.connect, if_neg hclosed] at hlive ⊢
    refine ⟨he, ?_, fun hopen hbase => ?_, fun hc hgo => h.attempt hc ?_,
      fun hc i state hi hu => ?_, fun hc => absurd hc hclosed, h.delay, h.timely⟩
    · rw [hlive]
      show t.live + 1 + t.pending + t.abandoned + k ≤ t.connects
      omega
    · have heq := h.count_eq hopen hbase
      rw [hlive]
      show t.live + 1 + t.pending + t.abandoned + k = t.connects
      omega
    · rw [hlive] at hgo
      have hgo : t.connects ≤ t.live + 1 + t.pending + k := hgo
      omega
    · -- With one loop, every socket before the new one has had its `close` event.
      have hold : t.live = 0 := by
        have hc : t.connects ≤ 1 := hc
        omega
      have hi : (t.sockets ++ [.connecting])[i]? = some state := hi
      by_cases hlt : i < t.sockets.length
      · rw [List.getElem?_append_left hlt] at hi
        rw [not_usable_of_live hold hi] at hu
        cases hu
      · have hlen := (List.getElem?_eq_some_iff.1 hi).1
        rw [List.length_append, List.length_singleton] at hlen
        exact congrArg some (by omega)

/-- A call of `connect` starts a loop. -/
theorem Inv.connect (h : t.Inv k e d) : (t.call .connect).Inv k e d := by
  have hstart : { t with connects := t.connects + 1 }.Inv (k + 1) e d :=
    ⟨Nat.le_succ_of_le h.phase, Nat.succ_le_succ h.count_le,
      fun hopen hbase => congrArg (· + 1) (h.count_eq hopen hbase),
      fun hc hgo => h.attempt (Nat.le_of_succ_le hc) (Nat.le_of_succ_le_succ hgo),
      fun hc => h.sole (Nat.le_of_succ_le hc), h.gone, fun hc => h.delay (Nat.le_of_succ_le hc),
      fun hc => h.timely (Nat.le_of_succ_le hc)⟩
  have heq : t.call .connect = { t with connects := t.connects + 1 }.connect := by
    simp only [WebSocketTransport.call, WebSocketTransport.connect]
    split_ifs <;> rfl
  rw [heq]
  exact hstart.dial h.phase

theorem Inv.send (h : t.Inv k e d) (data : FrameData) : (t.call (.send data)).Inv k e d := by
  simp only [call, WebSocketTransport.send]
  split
  · exact h.emit trivial
  · split_ifs
    · exact h.emit trivial
    · exact h.emit trivial

theorem pending_clearTimeout (t : WebSocketTransport) : t.clearTimeout.pending ≤ t.pending := by
  unfold clearTimeout
  split
  · exact Nat.le_refl _
  · exact ListPerm.countP_modify_le (fun _ => rfl) t.timers _

/-- What `close` leaves as it is. -/
theorem close_same (t : WebSocketTransport) : t.close.opts = t.opts ∧ t.close.live = t.live
    ∧ t.close.abandoned = t.abandoned ∧ t.close.connects = t.connects
    ∧ t.close.reconnectAttempt = t.reconnectAttempt ∧ t.close.currentDelay = t.currentDelay
    ∧ t.close.effects = t.effects ∧ t.close.sockets.length = t.sockets.length := by
  have hlive : ∀ i, (t.sockets.modify i ReadyState.close).countP (· ≠ .closed)
      = t.sockets.countP (· ≠ .closed) :=
    ListPerm.countP_modify (fun state => by simp [ReadyState.close_ne_closed]) t.sockets
  unfold close clearTimeout
  rcases t.reconnectTimer with _ | j <;> rcases t.ws with _ | i <;> simp only [live, hlive,
    List.length_modify, and_self]

theorem close_closed (t : WebSocketTransport) : t.close.closed = true ∧ t.close.ws = none := by
  unfold close clearTimeout
  rcases t.reconnectTimer with _ | j <;> rcases t.ws with _ | i <;> simp

theorem pending_close (t : WebSocketTransport) : t.close.pending ≤ t.pending := by
  have hle := pending_clearTimeout { t with closed := true }
  unfold close
  dsimp only
  split
  · exact hle
  · exact hle

/-- The socket that `ws` refers to is not usable after `close`. -/
theorem usable_close {i : ℕ} {state : ReadyState} (hi : t.close.sockets[i]? = some state)
    (hu : state.usable = true) : t.sockets[i]? = some state ∧ t.ws ≠ some i := by
  have hsockets : t.close.sockets
      = t.ws.elim t.sockets fun j => t.sockets.modify j ReadyState.close := by
    unfold close clearTimeout
    rcases t.reconnectTimer with _ | _ <;> rcases t.ws with _ | _ <;> rfl
  rw [hsockets] at hi
  rcases hws : t.ws with _ | j
  · rw [hws] at hi
    exact ⟨hi, by simp⟩
  · rw [hws, Option.elim_some, List.getElem?_modify] at hi
    obtain ⟨state', hi', rfl⟩ := Option.map_eq_some_iff.1 hi
    by_cases hj : j = i
    · simp [hj, ReadyState.close_usable] at hu
    · exact ⟨by simpa [hj] using hi', by simpa using hj⟩

theorem Inv.close (h : t.Inv k e d) : (t.call .close).Inv k e d := by
  show t.close.Inv k e d
  obtain ⟨hopts, hlive, habandoned, hconnects, hattempt, hdelay, heffects, -⟩ := t.close_same
  obtain ⟨hclosed, hws⟩ := t.close_closed
  have hpending := t.pending_close
  have hle := h.count_le
  refine ⟨h.phase, ?_, fun hopen => ?_, fun hc hgo => ?_, fun hc i state hi hu => ?_, fun _ => hws,
    fun hc hab hor => ?_, ?_⟩
  · rw [hlive, habandoned, hconnects]
    omega
  · rw [hclosed] at hopen
    cases hopen
  · rw [hconnects] at hc hgo
    rw [hlive] at hgo
    rw [hattempt, heffects]
    exact h.attempt hc (by omega)
  · rw [hconnects] at hc
    obtain ⟨hold, hne⟩ := usable_close hi hu
    exact absurd (h.sole hc i state hold hu) hne
  · -- Only a loop that is between a socket and a timer goes on, and it has no timer to clear.
    obtain rfl : e = 1 := hor.resolve_left (by simp [hclosed])
    rw [hconnects] at hc
    rw [habandoned] at hab
    have hphase := h.phase
    obtain ⟨hshift, heq⟩ := h.delay hc hab (.inr rfl)
    have hp : t.close.pending = t.pending := by omega
    rw [hopts, hattempt, hdelay, hp]
    exact ⟨hshift, heq⟩
  · rw [hopts, hconnects, heffects]
    exact h.timely

theorem Inv.call (h : t.Inv k e d) (c : TransportCall) : (t.call c).Inv k e d := by
  cases c with
  | connect => exact h.connect
  | send data => exact h.send data
  | close => exact h.close

theorem Inv.calls (h : t.Inv k e d) (cs : List TransportCall) : (t.calls cs).Inv k e d := by
  induction cs generalizing t with
  | nil => exact h
  | cons c cs ih => exact ih (h.call c)

/-! ## The events -/

theorem Inv.abandon (h : t.Inv 1 e d) : t.abandon.Inv 0 0 0 where
  phase := Nat.le_refl 0
  count_le := by
    have := h.count_le
    show t.live + t.pending + (t.abandoned + 1) + 0 ≤ t.connects
    omega
  count_eq := fun hopen hbase => by
    have := h.count_eq hopen hbase
    show t.live + t.pending + (t.abandoned + 1) + 0 = t.connects
    omega
  attempt := fun _ hgo => by
    have := h.count_le
    have hgo : t.connects ≤ t.live + t.pending + 0 := hgo
    omega
  sole := h.sole
  gone := h.gone
  delay := fun _ hab => by cases hab
  timely := h.timely

theorem Inv.setTimeout (h : t.Inv 1 1 0) : t.setTimeout.Inv 0 0 0 := by
  have hpending : t.setTimeout.pending = t.pending + 1 := by
    simp [WebSocketTransport.setTimeout, pending, List.countP_append]
  have hfailures : failures t.setTimeout.effects = failures t.effects := failures_append t.effects _
  refine ⟨Nat.le_refl 0, ?_, fun hopen hbase => ?_, fun hc _ => hfailures.trans (h.counted hc),
    h.sole, h.gone, fun hc hab _ => ?_, fun hc => ?_⟩
  · have := h.count_le
    rw [hpending]
    show t.live + (t.pending + 1) + t.abandoned + 0 ≤ t.connects
    omega
  · have := h.count_eq hopen hbase
    rw [hpending]
    show t.live + (t.pending + 1) + t.abandoned + 0 = t.connects
    omega
  · rw [hpending]
    exact h.delay hc hab (.inr rfl)
  · obtain ⟨-, hp, hab⟩ := h.between hc
    obtain ⟨hpos, heq⟩ := h.delay hc hab (.inr rfl)
    rw [hp] at hpos heq
    refine timely_append (h.timely hc) ⟨?_, ?_⟩
    · rw [h.counted hc]
      omega
    · rw [h.counted hc]
      exact heq

theorem Inv.scheduleReconnect (h : t.Inv 1 0 1) (onReconnecting : Callback) :
    (t.scheduleReconnect onReconnecting).Inv 0 0 0 := by
  by_cases hend : t.closed ∨ t.opts.reconnectDelayMs = 0
  · rw [WebSocketTransport.scheduleReconnect, if_pos hend]
    exact h.drop (Nat.le_refl 0) hend 0
  · have hcounted : ({ t with reconnectAttempt := t.reconnectAttempt + 1 }.emit
        (.onReconnecting (t.reconnectAttempt + 1))).Inv 1 1 0 := by
      refine ⟨Nat.le_refl 1, h.count_le, h.count_eq,
        fun hc _ => (failures_append t.effects _).trans (h.counted hc), h.sole, h.gone,
        fun hc hab _ => ?_, fun hc => timely_append (h.timely hc) (h.counted hc).symm⟩
      · obtain ⟨hshift, heq⟩ := h.delay hc hab (.inl (by simpa using fun hcl => hend (.inl hcl)))
        refine ⟨Nat.succ_le_succ hshift, heq.trans ?_⟩
        show t.opts.backoff _ = t.opts.backoff _
        congr 1
        show t.reconnectAttempt - (t.pending + 0) = t.reconnectAttempt + 1 - (t.pending + 1)
        omega
    have hcalled := hcounted.calls onReconnecting.calls
    rw [WebSocketTransport.scheduleReconnect, if_neg hend]
    dsimp only
    split_ifs
    · exact hcalled.abandon
    · exact hcalled.setTimeout

/-- The application is told of a close. -/
theorem Inv.onClose (h : t.Inv 1 0 0) (reason : String) : (t.emit (.onClose reason)).Inv 1 0 1 where
  phase := h.phase
  count_le := h.count_le
  count_eq := h.count_eq
  attempt := fun hc _ => (failures_append t.effects _).trans (congrArg (· + 1) (h.counted hc))
  sole := h.sole
  gone := h.gone
  delay := h.delay
  timely := fun hc => timely_append (h.timely hc) trivial

theorem Inv.handleClose (h : t.Inv 1 0 0) (code : ℕ) (reason : String)
    (onClose onReconnecting : Callback) :
    (t.handleClose code reason onClose onReconnecting).Inv 0 0 0 := by
  by_cases hclosed : t.closed
  · rw [WebSocketTransport.handleClose, if_pos hclosed]
    exact h.drop (Nat.le_refl 0) (.inl hclosed) 0
  · rw [WebSocketTransport.handleClose, if_neg hclosed]
    dsimp only
    generalize (if reason = "" then "code " ++ toString code else reason) = reason'
    have hcalled := (h.onClose reason').calls onClose.calls
    split_ifs
    · exact hcalled.abandon
    · exact hcalled.scheduleReconnect onReconnecting

/-- A socket goes on to a state other than `closed`. -/
theorem Inv.setSocket (h : t.Inv k e d) {i : ℕ} {state state' : ReadyState}
    (hi : t.sockets[i]? = some state) (hne : state ≠ .closed) (hne' : state' ≠ .closed)
    (hu : state'.usable = true → state.usable = true) : (t.setSocket i state').Inv k e d := by
  have hlive : (t.setSocket i state').live = t.live := by
    have := ListPerm.countP_set_add hi state' (· ≠ .closed)
    simpa [hne, hne', WebSocketTransport.setSocket, live] using this
  refine ⟨h.phase, ?_, fun hopen hbase => ?_, fun hc hgo => h.attempt hc ?_,
    fun hc j st hj hst => ?_, h.gone, h.delay, h.timely⟩
  · rw [hlive]
    exact h.count_le
  · rw [hlive]
    exact h.count_eq hopen hbase
  · rwa [hlive] at hgo
  · have hj : (t.sockets.set i state')[j]? = some st := hj
    by_cases hij : i = j
    · subst hij
      rw [List.getElem?_set_self (List.getElem?_eq_some_iff.1 hi).1] at hj
      obtain rfl := Option.some.inj hj
      exact h.sole hc i state hi (hu hst)
    · rw [List.getElem?_set_ne hij] at hj
      exact h.sole hc j st hj hst

/-- The `close` event of a socket: its loop is between that socket and a timer. -/
theorem Inv.closeSocket (h : t.Inv 0 0 0) {i : ℕ} {state : ReadyState}
    (hi : t.sockets[i]? = some state) (hne : state ≠ .closed) :
    (t.setSocket i .closed).Inv 1 0 0 := by
  have hlive : (t.setSocket i .closed).live + 1 = t.live := by
    have := ListPerm.countP_set_add hi .closed (· ≠ .closed)
    simpa [hne, WebSocketTransport.setSocket, live] using this
  refine ⟨Nat.zero_le 1, ?_, fun hopen hbase => ?_, fun hc hgo => h.attempt hc ?_,
    fun hc j st hj hst => ?_, h.gone, h.delay, h.timely⟩
  · have := h.count_le
    show (t.setSocket i .closed).live + t.pending + t.abandoned + 1 ≤ t.connects
    omega
  · have := h.count_eq hopen hbase
    show (t.setSocket i .closed).live + t.pending + t.abandoned + 1 = t.connects
    omega
  · have hgo : t.connects ≤ (t.setSocket i .closed).live + t.pending + 1 := hgo
    omega
  · have hj : (t.sockets.set i .closed)[j]? = some st := hj
    by_cases hij : i = j
    · subst hij
      rw [List.getElem?_set_self (List.getElem?_eq_some_iff.1 hi).1] at hj
      obtain rfl := Option.some.inj hj
      cases hst
    · rw [List.getElem?_set_ne hij] at hj
      exact h.sole hc j st hj hst

theorem Inv.handleOpen (h : t.Inv 0 0 0) {i : ℕ} (hi : t.sockets[i]? = some .opened)
    (onOpen : Callback) : (t.handleOpen onOpen).Inv 0 0 0 := by
  have hpos : 0 < t.live := List.countP_pos_iff.2 ⟨.opened, List.mem_of_getElem? hi, rfl⟩
  have hreset : ({ t with reconnectAttempt := 0, currentDelay := t.opts.reconnectDelayMs }.emit
      .onOpen).Inv 0 0 0 := by
    refine ⟨Nat.le_refl 0, h.count_le, h.count_eq, fun _ _ => failures_append t.effects .onOpen,
      h.sole, h.gone, fun hc _ _ => ?_, fun hc => timely_append (h.timely hc) trivial⟩
    · have hp : t.pending = 0 := by
        have := h.count_le
        have hc : t.connects ≤ 1 := hc
        omega
      refine ⟨Nat.le_of_eq hp, ?_⟩
      show t.opts.backoff 0 = t.opts.backoff (0 - (t.pending + 0))
      rw [Nat.zero_sub]
  exact hreset.calls onOpen.calls

theorem Inv.handleMessage (h : t.Inv 0 0 0) (onMessage : Callback) (data : MessageData) :
    (t.handleMessage onMessage data).Inv 0 0 0 := by
  cases data with
  | string s => exact (h.emit (x := .onMessage (.string s)) trivial).calls onMessage.calls
  | arrayBuffer bytes =>
    exact (h.emit (x := .onMessage (.uint8Array bytes)) trivial).calls onMessage.calls
  | other => exact h

/-- A timer fires: its loop goes on with a socket, unless the transport is closed. -/
theorem Inv.handleTimeout (h : t.Inv 0 0 0) {j delay : ℕ} (hj : t.timers[j]? = some ⟨delay, true⟩) :
    { t with timers := t.timers.set j ⟨delay, false⟩ }.handleTimeout.Inv 0 0 0 := by
  have hpending : (t.timers.set j ⟨delay, false⟩).countP Timer.pending + 1 = t.pending := by
    simpa [pending] using ListPerm.countP_set_add hj ⟨delay, false⟩ Timer.pending
  refine Inv.dial (e := 0) ⟨Nat.zero_le 1, ?_, fun hopen hbase => ?_, fun hc hgo => h.attempt hc ?_,
    h.sole, h.gone, fun hc hab hor => ?_, h.timely⟩ (Nat.le_refl 0)
  · have := h.count_le
    show t.live + (t.timers.set j ⟨delay, false⟩).countP Timer.pending + t.abandoned + 1 ≤ t.connects
    omega
  · have := h.count_eq hopen hbase
    show t.live + (t.timers.set j ⟨delay, false⟩).countP Timer.pending + t.abandoned + 1 = t.connects
    omega
  · have hgo : t.connects ≤ t.live + (t.timers.set j ⟨delay, false⟩).countP Timer.pending + 1 := hgo
    omega
  · -- The delay is doubled where the timer fires, so it is the one of the attempt that was counted.
    obtain ⟨hshift, heq⟩ := h.delay hc hab hor
    generalize hn : (t.timers.set j ⟨delay, false⟩).countP Timer.pending = n at hpending
    have hsub : t.reconnectAttempt - (n + 0) = t.reconnectAttempt - (t.pending + 0) + 1 := by omega
    refine ⟨by show (t.timers.set j ⟨delay, false⟩).countP Timer.pending + 0 ≤ t.reconnectAttempt; omega, ?_⟩
    show min (t.currentDelay * 2) t.opts.maxReconnectDelayMs = t.opts.backoff (t.reconnectAttempt
      - ((t.timers.set j ⟨delay, false⟩).countP Timer.pending + 0))
    rw [hn, hsub, TransportOptions.backoff, heq]

theorem Inv.step (h : t.Inv 0 0 0) {ev : TransportEvent} (hstep : t.step ev = some t') :
    t'.Inv 0 0 0 := by
  cases ev with
  | call c =>
    cases hstep
    exact h.call c
  | opened i onOpen =>
    simp only [WebSocketTransport.step] at hstep
    split_ifs at hstep with hi
    cases hstep
    have hopen : (t.setSocket i .opened).Inv 0 0 0 :=
      h.setSocket hi (by decide) (by decide) fun _ => rfl
    refine hopen.handleOpen (i := i) ?_ onOpen
    exact List.getElem?_set_self (List.getElem?_eq_some_iff.1 hi).1
  | message i data onMessage =>
    simp only [WebSocketTransport.step] at hstep
    split_ifs at hstep
    cases hstep
    exact h.handleMessage onMessage data
  | closing i =>
    simp only [WebSocketTransport.step] at hstep
    split_ifs at hstep with hi
    cases hstep
    exact h.setSocket hi (by decide) (by decide) fun hu => by cases hu
  | closed i code reason onClose onReconnecting =>
    simp only [WebSocketTransport.step] at hstep
    split at hstep
    · cases hstep
    · cases hstep
    · next state hne hi =>
      cases hstep
      exact (h.closeSocket hi hne).handleClose code reason onClose onReconnecting
  | timeout j =>
    simp only [WebSocketTransport.step] at hstep
    split at hstep
    · next delay hj =>
      cases hstep
      exact h.handleTimeout hj
    · cases hstep

theorem run_inv (opts : TransportOptions) {events : List TransportEvent}
    (hrun : Lts.run step (new opts) events = some t) : t.Inv 0 0 0 :=
  Lts.run_inv_of_step (fun _ _ _ h hstep => h.step hstep) events (new_inv opts) hrun

/-- Whatever the application does in its callbacks, the loops that are under way are never more than
its calls of `connect`. Until it closes the transport they are exactly as many, unless reconnecting is
off, or a callback threw where a timer was to be set. -/
theorem loops_eq_connects (opts : TransportOptions) {events : List TransportEvent}
    (hrun : Lts.run step (new opts) events = some t) :
    t.live + t.pending + t.abandoned ≤ t.connects
      ∧ (t.closed = false → t.opts.reconnectDelayMs ≠ 0 →
        t.live + t.pending + t.abandoned = t.connects) :=
  ⟨(run_inv opts hrun).count_le, (run_inv opts hrun).count_eq⟩

/-- A socket closes twice before one opens, and the last one is waited for. -/
def reconnecting : List TransportEvent :=
  [.call .connect, .closed 0 1006 "" {} {}, .timeout 0, .closed 1 1006 "" {} {}, .timeout 1,
    .opened 2 {}]

theorem loops_eq_connects_reconnecting :
    ∃ t, Lts.run step (new {}) reconnecting = some t ∧ t.closed = false
      ∧ t.opts.reconnectDelayMs ≠ 0 ∧ t.live + t.pending + t.abandoned = t.connects := by
  have h : (Lts.run step (new {}) reconnecting).any fun t =>
      decide (t.closed = false ∧ t.opts.reconnectDelayMs ≠ 0) := by
    decide +kernel
  simp only [Option.any_eq_true, decide_eq_true_eq] at h
  obtain ⟨t, hrun, hopen, hbase⟩ := h
  exact ⟨t, hrun, hopen, hbase, (loops_eq_connects {} hrun).2 hopen hbase⟩

/-- Where the application connects once, `onReconnecting` is given the number of sockets of whose close
`onClose` has told since one has opened, and the delay after `n + 1` of them is the first delay doubled
`n` times, up to the maximum. -/
theorem delays_double (opts : TransportOptions) {events : List TransportEvent}
    (hrun : Lts.run step (new opts) events = some t) (hone : t.connects ≤ 1) (pre post : List Effect) :
    (∀ attempt, t.effects = pre ++ .onReconnecting attempt :: post → attempt = failures pre)
      ∧ ∀ delay, t.effects = pre ++ .setTimeout delay :: post → ∃ n, failures pre = n + 1
        ∧ delay = if n = 0 then t.opts.reconnectDelayMs
          else min (t.opts.reconnectDelayMs * 2 ^ n) t.opts.maxReconnectDelayMs := by
  have htimely : ∀ x, t.effects = pre ++ x :: post → Timely t.opts pre x := by
    intro x hx
    have := (run_inv opts hrun).timely hone pre.length x (by rw [hx]; simp)
    rwa [hx, List.take_left'] at this
    rfl
  refine ⟨fun attempt h => htimely _ h, fun delay h => ?_⟩
  obtain ⟨hpos, hdelay⟩ := htimely _ h
  obtain ⟨n, hn⟩ := Nat.exists_eq_add_of_le' hpos
  refine ⟨n, hn, ?_⟩
  rw [hdelay, hn, Nat.add_sub_cancel]
  cases n with
  | zero => rfl
  | succ n => rw [TransportOptions.backoff_succ, if_neg (Nat.succ_ne_zero n)]

theorem delays_double_reconnecting :
    ∃ t pre, Lts.run step (new {}) reconnecting = some t ∧ t.connects ≤ 1
      ∧ t.effects = pre ++ .setTimeout 2000 :: [.onOpen] ∧ ∃ n, failures pre = n + 1
        ∧ 2000 = if n = 0 then t.opts.reconnectDelayMs
          else min (t.opts.reconnectDelayMs * 2 ^ n) t.opts.maxReconnectDelayMs := by
  have h : (Lts.run step (new {}) reconnecting).any fun t =>
      decide (t.connects ≤ 1 ∧ t.effects = t.effects.take 5 ++ .setTimeout 2000 :: [.onOpen]) := by
    decide +kernel
  simp only [Option.any_eq_true, decide_eq_true_eq] at h
  obtain ⟨t, hrun, hone, heffects⟩ := h
  exact ⟨t, t.effects.take 5, hrun, hone, heffects,
    (delays_double {} hrun hone _ _).2 2000 heffects⟩

/-! ## After `close` -/

/-- The transport is closed, and so are its sockets or about to be. -/
structure Dead (t : WebSocketTransport) : Prop where
  closed : t.closed = true
  ws : t.ws = none
  sockets : ∀ state ∈ t.sockets, state.usable = false

/-- Nothing has happened but calls of `send` that threw. -/
def Silent (t t' : WebSocketTransport) : Prop :=
  t'.sockets.length = t.sockets.length ∧ ∃ n, t'.effects = t.effects ++ List.replicate n .threw

theorem Silent.refl (t : WebSocketTransport) : t.Silent t := ⟨rfl, 0, by simp⟩

theorem Silent.trans {t₁ t₂ t₃ : WebSocketTransport} (h : t₁.Silent t₂) (h' : t₂.Silent t₃) :
    t₁.Silent t₃ := by
  obtain ⟨hlen, n, hn⟩ := h
  obtain ⟨hlen', n', hn'⟩ := h'
  exact ⟨hlen'.trans hlen, n + n', by rw [hn', hn, List.replicate_add, List.append_assoc]⟩

theorem Dead.call (h : t.Dead) (c : TransportCall) : (t.call c).Dead ∧ t.Silent (t.call c) := by
  cases c with
  | connect =>
    have heq : t.call .connect = { t with connects := t.connects + 1 } := by
      simp [WebSocketTransport.call, WebSocketTransport.connect, h.closed]
    rw [heq]
    exact ⟨⟨h.closed, h.ws, h.sockets⟩, rfl, 0, by simp⟩
  | send data =>
    have heq : t.call (.send data) = t.emit .threw := by
      simp [WebSocketTransport.call, WebSocketTransport.send, h.ws]
    rw [heq]
    exact ⟨⟨h.closed, h.ws, h.sockets⟩, rfl, 1, rfl⟩
  | close =>
    obtain ⟨-, -, -, -, -, -, heffects, hlen⟩ := t.close_same
    obtain ⟨hclosed, hws⟩ := t.close_closed
    refine ⟨⟨hclosed, hws, fun state hstate => ?_⟩, hlen, 0, heffects.trans (by simp)⟩
    by_contra hu
    obtain ⟨i, hi⟩ := List.getElem?_of_mem hstate
    have hold := (usable_close hi (by simpa using hu)).1
    exact hu (h.sockets state (List.mem_of_getElem? hold))

theorem Dead.step (h : t.Dead) {ev : TransportEvent} (hstep : t.step ev = some t') :
    t'.Dead ∧ t.Silent t' := by
  have hnot : ∀ {i : ℕ} {state : ReadyState}, t.sockets[i]? = some state → state.usable = true →
      False := by
    intro i state hi hu
    rw [h.sockets state (List.mem_of_getElem? hi)] at hu
    cases hu
  cases ev with
  | call c =>
    cases hstep
    exact h.call c
  | opened i onOpen =>
    simp only [WebSocketTransport.step] at hstep
    split_ifs at hstep with hi
    exact absurd rfl (hnot hi)
  | message i data onMessage =>
    simp only [WebSocketTransport.step] at hstep
    split_ifs at hstep with hi
    exact absurd rfl (hnot hi)
  | closing i =>
    simp only [WebSocketTransport.step] at hstep
    split_ifs at hstep with hi
    exact absurd rfl (hnot hi)
  | closed i code reason onClose onReconnecting =>
    simp only [WebSocketTransport.step] at hstep
    split at hstep
    · cases hstep
    · cases hstep
    · have heq : (t.setSocket i .closed).handleClose code reason onClose onReconnecting
          = t.setSocket i .closed := if_pos h.closed
      rw [heq] at hstep
      cases hstep
      refine ⟨⟨h.closed, h.ws, fun state hstate => ?_⟩, List.length_set, 0, by simp [setSocket]⟩
      rcases List.mem_or_eq_of_mem_set hstate with hold | rfl
      · exact h.sockets state hold
      · rfl
  | timeout j =>
    simp only [WebSocketTransport.step] at hstep
    split at hstep
    · next delay hj =>
      have heq : { t with timers := t.timers.set j ⟨delay, false⟩ }.handleTimeout = { t with
          timers := t.timers.set j ⟨delay, false⟩
          currentDelay := min (t.currentDelay * 2) t.opts.maxReconnectDelayMs } := if_pos h.closed
      rw [heq] at hstep
      cases hstep
      exact ⟨⟨h.closed, h.ws, h.sockets⟩, rfl, 0, by simp⟩
    · cases hstep

/-- Where the application has connected at most once, nothing comes after the event in which it calls
`close`: there is no new socket, no callback, no frame and no timer, whatever is called. In the event
itself a timer may still be set, if `close` is called in `onReconnecting`. -/
theorem silent_after_close (opts : TransportOptions) {events later : List TransportEvent}
    (hrun : Lts.run step (new opts) events = some t) (hone : t.connects ≤ 1)
    (hclosed : t.closed = true) (hlater : Lts.run step t later = some t') :
    t'.closed = true ∧ (∀ state ∈ t'.sockets, state = .closing ∨ state = .closed)
      ∧ t'.sockets.length = t.sockets.length
      ∧ ∃ n, t'.effects = t.effects ++ List.replicate n .threw := by
  have hinv := run_inv opts hrun
  have hdead : t.Dead := by
    refine ⟨hclosed, hinv.gone hclosed, fun state hstate => ?_⟩
    obtain ⟨i, hi⟩ := List.getElem?_of_mem hstate
    by_contra hu
    have hws := hinv.sole hone i state hi (by simpa using hu)
    rw [hinv.gone hclosed] at hws
    cases hws
  obtain ⟨hdead', hsilent⟩ := Lts.run_inv_of_step (I := fun u => u.Dead ∧ t.Silent u)
    (fun u ev u' h hstep => ⟨(h.1.step hstep).1, h.2.trans (h.1.step hstep).2⟩) later
    ⟨hdead, .refl t⟩ hlater
  refine ⟨hdead'.closed, fun state hstate => ?_, hsilent.1, hsilent.2⟩
  have hu := hdead'.sockets state hstate
  cases state with
  | connecting | opened => cases hu
  | closing => exact .inl rfl
  | closed => exact .inr rfl

/-- `close` is called while a timer is pending, and `connect` and `send` after it. -/
theorem silent_after_close_pending :
    ∃ t t', Lts.run step (new {}) [.call .connect, .closed 0 1006 "" {} {}, .call .close] = some t
      ∧ t.connects ≤ 1 ∧ t.closed = true
      ∧ Lts.run step t [.call .connect, .call (.send (.string "x"))] = some t'
      ∧ t'.sockets.length = t.sockets.length
      ∧ ∃ n, t'.effects = t.effects ++ List.replicate n .threw := by
  have h : (Lts.run step (new {}) [.call .connect, .closed 0 1006 "" {} {}, .call .close]).any
      fun t => decide (t.connects ≤ 1 ∧ t.closed = true)
        && (Lts.run step t [.call .connect, .call (.send (.string "x"))]).isSome := by
    decide +kernel
  simp only [Option.any_eq_true, Bool.and_eq_true, decide_eq_true_eq,
    Option.isSome_iff_exists] at h
  obtain ⟨t, hrun, ⟨hone, hclosed⟩, t', hlater⟩ := h
  obtain ⟨-, -, hlen, heffects⟩ := silent_after_close {} hrun hone hclosed hlater
  exact ⟨t, t', hrun, hone, hclosed, hlater, hlen, heffects⟩

end WebSocketTransport

end Relayly.Sdk.Ts
