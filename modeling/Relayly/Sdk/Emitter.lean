import Mathlib.Logic.Function.Basic
import Relayly.Lib.ForEach

/-!
# `TinyEmitter` of `sdk/ts/src/client.ts`

`emit` walks the array of its event with `forEach`, and the listeners it calls may register and
remove listeners and emit again. So the emits that have begun are a stack, and each step is a call
that the code in control makes or the next step of the loop on top. What a listener is passed does
not matter here.
-/

namespace Relayly.Sdk.Ts

variable {ε L : Type*} [DecidableEq ε] [DecidableEq L]

/-- An element of an event's array. `once` makes a function of its own around the listener each time
it is called; `id` tells these apart, and the registrations of a listener that is added twice. -/
structure Entry (L : Type*) where
  id : ℕ
  listener : L
  once : Bool
  deriving DecidableEq, Repr

/-- An `emit`, its loop and the element that the loop has called and that has not returned. -/
structure Emission (ε L : Type*) where
  event : ε
  loop : ForEach.Loop (Entry L)
  running : Option (Entry L) := none

/-- An event without an array is one with an empty array. `ended` and `calls` record the emits that
ended and every call; no step reads them. -/
structure TinyEmitter (ε L : Type*) where
  listeners : ε → List (Entry L) := fun _ => []
  made : ℕ := 0
  stack : List (Emission ε L) := []
  ended : List (Emission ε L) := []
  calls : List (Entry L) := []

/-- `visit` is the next round of the loop on top and `finish` its end; `returns` and `throws` are how
the listener it called ends. -/
inductive EmitLabel (ε L : Type*)
  | on (event : ε) (listener : L)
  | once (event : ε) (listener : L)
  | off (event : ε) (listener : L)
  | emit (event : ε)
  | visit
  | returns
  | throws
  | finish
  deriving DecidableEq

/-- `splice(idx, 1)` on the array `items` of `event`, for an emit that has begun. -/
def Emission.splice (f : Emission ε L) (event : ε) (items : List (Entry L)) (idx : ℕ) :
    Emission ε L :=
  if f.event = event then
    { f with loop := f.loop.erase items idx (decide (f.running ≠ items[idx]?)) }
  else f

namespace TinyEmitter

def push (s : TinyEmitter ε L) (event : ε) (listener : L) (once : Bool) : TinyEmitter ε L :=
  { s with
    listeners := Function.update s.listeners event
      (s.listeners event ++ [⟨s.made, listener, once⟩])
    made := s.made + 1 }

def on (s : TinyEmitter ε L) (event : ε) (listener : L) : TinyEmitter ε L :=
  s.push event listener false

def once (s : TinyEmitter ε L) (event : ε) (listener : L) : TinyEmitter ε L :=
  s.push event listener true

def splice (s : TinyEmitter ε L) (event : ε) (idx : ℕ) : TinyEmitter ε L :=
  { s with
    listeners := Function.update s.listeners event ((s.listeners event).eraseIdx idx)
    stack := s.stack.map (·.splice event (s.listeners event) idx) }

/-- The end of `off`, with what `indexOf` found. -/
def spliceAt (s : TinyEmitter ε L) (event : ε) : Option ℕ → TinyEmitter ε L
  | some idx => s.splice event idx
  | none => s

/-- `indexOf` of a listener; what `once` put into the array is another function. -/
def indexOf (s : TinyEmitter ε L) (event : ε) (listener : L) : Option ℕ :=
  (s.listeners event).findIdx? fun x => !x.once && x.listener = listener

def off (s : TinyEmitter ε L) (event : ε) (listener : L) : TinyEmitter ε L :=
  s.spliceAt event (s.indexOf event listener)

/-- `indexOf` of the function that `once` made. -/
def indexOfWrapped (s : TinyEmitter ε L) (event : ε) (wrapped : Entry L) : Option ℕ :=
  (s.listeners event).findIdx? (· = wrapped)

def offWrapped (s : TinyEmitter ε L) (event : ε) (wrapped : Entry L) : TinyEmitter ε L :=
  s.spliceAt event (s.indexOfWrapped event wrapped)

def emit (s : TinyEmitter ε L) (event : ε) : TinyEmitter ε L :=
  { s with stack := { event, loop := .ofItems (s.listeners event) } :: s.stack }

/-- A round that finds no element calls nothing. -/
def visit (s : TinyEmitter ε L) : Option (TinyEmitter ε L) :=
  match s.stack with
  | ⟨event, loop, none⟩ :: rest =>
    if loop.next < loop.len then
      some { s with
        stack := ⟨event, loop.visit (s.listeners event), (s.listeners event)[loop.next]?⟩ :: rest
        calls := s.calls ++ (s.listeners event)[loop.next]?.toList }
    else none
  | _ => none

/-- The loop on top goes on. -/
def goOn (s : TinyEmitter ε L) : TinyEmitter ε L :=
  match s.stack with
  | f :: rest => { s with stack := { f with running := none } :: rest }
  | [] => s

def returns (s : TinyEmitter ε L) : Option (TinyEmitter ε L) :=
  match s.stack with
  | ⟨event, _, some x⟩ :: _ => some (if x.once then s.offWrapped event x else s).goOn
  | _ => none

/-- The exception leaves the emit, and is with the listener that called it. -/
def throws (s : TinyEmitter ε L) : Option (TinyEmitter ε L) :=
  match s.stack with
  | ⟨event, loop, some _⟩ :: rest =>
    some { s with
      stack := rest
      ended := s.ended ++ [{ event, loop := loop.abort (s.listeners event) }] }
  | _ => none

def finish (s : TinyEmitter ε L) : Option (TinyEmitter ε L) :=
  match s.stack with
  | ⟨event, loop, none⟩ :: rest =>
    if loop.len ≤ loop.next then
      some { s with stack := rest, ended := s.ended ++ [{ event, loop }] }
    else none
  | _ => none

/-- No loop is in control: a listener is, or the code outside of any emit. -/
def free (s : TinyEmitter ε L) : Bool :=
  match s.stack with
  | f :: _ => f.running.isSome
  | [] => true

/-- The state after a step; `none` where it is not enabled. -/
def step (s : TinyEmitter ε L) : EmitLabel ε L → Option (TinyEmitter ε L)
  | .on event listener => if s.free then some (s.on event listener) else none
  | .once event listener => if s.free then some (s.once event listener) else none
  | .off event listener => if s.free then some (s.off event listener) else none
  | .emit event => if s.free then some (s.emit event) else none
  | .visit => s.visit
  | .returns => s.returns
  | .throws => s.throws
  | .finish => s.finish

end TinyEmitter

end Relayly.Sdk.Ts
