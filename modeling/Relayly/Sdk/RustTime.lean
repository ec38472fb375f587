import Relayly.Lib.Calendar

/-!
# `sdk/rust/src/peerstore.rs`: the time a peer was pinned at

`now_rfc3339` converts the seconds since 1970 to a date without a date library. Every operation is
on a fixed-width integer; here it is computed in `ℤ` and then has to fit its type. `none` is an
operation that does not, which panics in a debug build and wraps in a release build.
-/

namespace Relayly.Sdk.Rust

open Gregorian

def i64 (x : ℤ) : Option ℤ :=
  if -9223372036854775808 ≤ x ∧ x ≤ 9223372036854775807 then some x else none

def u64 (x : ℤ) : Option ℕ := if 0 ≤ x ∧ x ≤ 18446744073709551615 then some x.toNat else none

def u32 (x : ℤ) : Option ℕ := if 0 ≤ x ∧ x ≤ 4294967295 then some x.toNat else none

/-- `era`; the quotient of `i64` truncates. -/
def eraOf (z : ℤ) : Option ℤ := do
  let first ← if z ≥ 0 then some z else i64 (z - 146096)
  i64 (first.tdiv 146097)

/-- `doe`, the day of the era. -/
def dayOfEra (z era : ℤ) : Option ℕ := do
  let start ← i64 (era * 146097)
  let diff ← i64 (z - start)
  u64 diff

/-- `yoe`, the year of the era. -/
def yearOfEra (doe : ℕ) : Option ℕ := do
  let a ← u64 (doe - (doe / 1460 : ℕ))
  let b ← u64 (a + (doe / 36524 : ℕ))
  let c ← u64 (b - (doe / 146096 : ℕ))
  return c / 365

/-- `doy`, the day of the year that begins in March. -/
def dayOfYear (doe yoe : ℕ) : Option ℕ := do
  let a ← u64 (365 * yoe)
  let b ← u64 (a + (yoe / 4 : ℕ))
  let c ← u64 (b - (yoe / 100 : ℕ))
  u64 (doe - c)

/-- `mp`, the month counted from March. -/
def marchMonth (doy : ℕ) : Option ℕ := do
  let a ← u64 (5 * doy)
  let b ← u64 (a + 2)
  return b / 153

/-- `d` -/
def dayOfMonth (doy mp : ℕ) : Option ℕ := do
  let a ← u64 (153 * mp)
  let b ← u64 (a + 2)
  let c ← u64 (doy - (b / 5 : ℕ))
  let d ← u64 (c + 1)
  u32 d

/-- `m` -/
def monthOf (mp : ℕ) : Option ℕ := do
  let m ← if mp < 10 then u64 (mp + 3) else u64 (mp - 9)
  u32 m

/-- The year of the date; January and February are in the next one. -/
def civilYear (y : ℤ) (m : ℕ) : Option ℤ := if m ≤ 2 then i64 (y + 1) else some y

def civilFromDays (z : ℤ) : Option Date := do
  let z ← i64 (z + 719468)
  let era ← eraOf z
  let doe ← dayOfEra z era
  let yoe ← yearOfEra doe
  let signed ← i64 yoe
  let years ← i64 (era * 400)
  let y ← i64 (signed + years)
  let doy ← dayOfYear doe yoe
  let mp ← marchMonth doy
  let d ← dayOfMonth doy mp
  let m ← monthOf mp
  let year ← civilYear y m
  return ⟨year, m, d⟩

/-- `0` flag of a format: the sign counts. -/
def zeroPadded (width : ℕ) (x : ℤ) : String :=
  let sign := if x < 0 then "-" else ""
  let digits := toString x.natAbs
  sign ++ String.ofList (List.replicate (width - sign.length - digits.length) '0') ++ digits

def rfc3339 (date : Date) (hour minute second : ℕ) : String :=
  zeroPadded 4 date.year ++ "-" ++ zeroPadded 2 date.month ++ "-" ++ zeroPadded 2 date.day
    ++ "T" ++ zeroPadded 2 hour ++ ":" ++ zeroPadded 2 minute ++ ":" ++ zeroPadded 2 second ++ "Z"

/-- `secs` are the seconds since 1970, 0 if the clock is before. -/
def nowRfc3339 (secs : ℕ) : Option String := do
  let timeOfDay := secs % 86400
  let days ← i64 (secs / 86400 : ℕ)
  let date ← civilFromDays days
  return rfc3339 date (timeOfDay / 3600) (timeOfDay % 3600 / 60) (timeOfDay % 60)

end Relayly.Sdk.Rust
