import Mathlib.Algebra.Order.Ring.Int
import Relayly.Lib.OnDemand
import Relayly.Lib.Run

/-!
# The rate limiter of `internal/relay/ratelimit.go`

Every address has a bucket, which `Allow` makes on demand and refills when its window has passed. A
goroutine goes through the buckets from time to time and deletes those that have not been used for
two windows. It looks at a bucket under the bucket's lock and deletes the entry of the map after
that, so a call of `Allow` may come in between. Times and durations are in nanoseconds.
-/

namespace Relayly.Relay

structure TokenBucket where
  tokens : ℤ
  maxTokens : ℤ
  window : ℤ
  windowStart : ℤ
  lastSeen : ℤ
  deriving DecidableEq, Repr

/-- `allow`, at the time `now`. -/
def TokenBucket.allow (b : TokenBucket) (now : ℤ) : Bool × TokenBucket :=
  let b := { b with lastSeen := now }
  let b := if now - b.windowStart ≥ b.window then { b with tokens := b.maxTokens, windowStart := now }
    else b
  if b.tokens ≤ 0 then (false, b) else (true, { b with tokens := b.tokens - 1 })

/-- A call at `now` starts a new window. -/
def TokenBucket.refills (b : TokenBucket) (now : ℤ) : Bool := decide (now - b.windowStart ≥ b.window)

/-- A call of `allow`: when it read the clock, whether it started a new window, and its result. -/
structure AllowCall where
  time : ℤ
  refilled : Bool
  allowed : Bool
  deriving DecidableEq, Repr

/-- The calls of `allow` at the given times. -/
def TokenBucket.calls : TokenBucket → List ℤ → List AllowCall
  | _, [] => []
  | b, now :: rest => ⟨now, b.refills now, (b.allow now).1⟩ :: (b.allow now).2.calls rest

/-- How many calls were allowed at times that meet `p`. -/
def allowedAt (p : ℤ → Bool) (calls : List AllowCall) : ℤ :=
  (calls.countP fun c => c.allowed && p c.time : ℕ)

/-- The ticker of the clean-up panics unless its interval, two windows, is positive. -/
structure IPRateLimiter where
  maxTokens : ℤ
  window : ℤ
  window_pos : 0 < window

abbrev Buckets := String → Option TokenBucket

/-- The bucket that `LoadOrStore` stores for a new address. -/
def IPRateLimiter.newBucket (rl : IPRateLimiter) (now : ℤ) : TokenBucket where
  tokens := rl.maxTokens
  maxTokens := rl.maxTokens
  window := rl.window
  windowStart := now
  lastSeen := now

def IPRateLimiter.machine (rl : IPRateLimiter) : OnDemand.Machine TokenBucket ℤ Bool where
  fresh := rl.newBucket
  use := TokenBucket.allow

/-- `Allow`, with one reading of the clock. -/
def IPRateLimiter.allow (rl : IPRateLimiter) (buckets : Buckets) (ip : String) (now : ℤ) :
    Bool × Buckets :=
  OnDemand.call rl.machine buckets ip now

/-- Where the clean-up goroutine is: at its ticker, in `Range` before the next bucket, or about to
delete the entry of a bucket that it has found stale. `Range` comes to a key at most once. -/
inductive Cleanup
  | waiting
  | ranging (cutoff : ℤ) (visited : List String)
  | deleting (cutoff : ℤ) (visited : List String) (key : String)
  deriving DecidableEq, Repr

/-- The clock is at the last value that was read. -/
structure Limiter where
  buckets : Buckets
  cleanup : Cleanup
  clock : ℤ

def Limiter.start (clock : ℤ) : Limiter where
  buckets := fun _ => none
  cleanup := .waiting
  clock := clock

inductive LimiterEvent
  | allow (ip : String) (now : ℤ)
  | tick (now : ℤ)
  | check (key : String)
  | delete
  | endRange
  deriving DecidableEq, Repr

namespace Limiter

def step (rl : IPRateLimiter) (s : Limiter) : LimiterEvent → Option Limiter
  | .allow ip now =>
    if s.clock ≤ now then some { s with buckets := (rl.allow s.buckets ip now).2, clock := now }
    else none
  | .tick now =>
    match s.cleanup with
    | .waiting =>
      if s.clock ≤ now then
        some { s with cleanup := .ranging (now + -rl.window * 2) [], clock := now }
      else none
    | _ => none
  | .check key =>
    match s.cleanup, s.buckets key with
    | .ranging cutoff visited, some b =>
      if key ∈ visited then none
      else if b.lastSeen < cutoff then
        some { s with cleanup := .deleting cutoff (key :: visited) key }
      else some { s with cleanup := .ranging cutoff (key :: visited) }
    | _, _ => none
  | .delete =>
    match s.cleanup with
    | .deleting cutoff visited key =>
      some { s with
        buckets := Function.update s.buckets key none
        cleanup := .ranging cutoff visited }
    | _ => none
  | .endRange =>
    match s.cleanup with
    | .ranging _ _ => some { s with cleanup := .waiting }
    | _ => none

/-- What an `Allow` returns. -/
def answer (rl : IPRateLimiter) (s : Limiter) : LimiterEvent → Option Bool
  | .allow ip now => some (rl.allow s.buckets ip now).1
  | _ => none

end Limiter

/-- The limiter that never deletes a bucket: what it answers to a sequence of calls. -/
def IPRateLimiter.keeping (rl : IPRateLimiter) : Buckets → List (String × ℤ) → List Bool
  | _, [] => []
  | buckets, (ip, now) :: calls =>
    (rl.allow buckets ip now).1 :: rl.keeping (rl.allow buckets ip now).2 calls

/-- The calls of `Allow` among the events. -/
def LimiterEvent.call? : LimiterEvent → Option (String × ℤ)
  | .allow ip now => some (ip, now)
  | _ => none

end Relayly.Relay
