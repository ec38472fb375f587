import Relayly.Sdk.RustTime
import Mathlib.Logic.Function.Iterate

/-!
# The dates of `now_rfc3339`

The divisions by 1460, 36524 and 146096 count the leap days before a day of the era: written with
the day's century, cycle and year, `yoe` and `doy` are its year and its day of the year.
-/

namespace Relayly.Sdk.Rust

open Gregorian

lemma i64_eq_some {x : ℤ} (hlow : -9223372036854775808 ≤ x) (hhigh : x ≤ 9223372036854775807) :
    i64 x = some x :=
  if_pos ⟨hlow, hhigh⟩

lemma u64_eq_some {x : ℤ} {n : ℕ} (hx : x = n) (hn : n ≤ 18446744073709551615) :
    u64 x = some n := by
  rw [u64, if_pos (by omega), hx, Int.toNat_natCast]

lemma u32_eq_some {x : ℤ} {n : ℕ} (hx : x = n) (hn : n ≤ 4294967295) : u32 x = some n := by
  rw [u32, if_pos (by omega), hx, Int.toNat_natCast]

/-! ## The era -/

lemma eraOf_natCast {z : ℕ} (hz : z ≤ 9223372036854775807) :
    eraOf z = some ((z / daysInEra : ℕ) : ℤ) := by
  have hdiv : (z : ℤ).tdiv 146097 = (z / daysInEra : ℕ) := by
    rw [Int.tdiv_eq_ediv_of_nonneg (Int.natCast_nonneg z)]
    rfl
  have hle : z / daysInEra ≤ z := Nat.div_le_self _ _
  rw [eraOf, if_pos (Int.natCast_nonneg z), Option.bind_eq_bind, Option.bind_some]
  simp only [hdiv]
  generalize z / daysInEra = era at hle
  exact i64_eq_some (by omega) (by omega)

lemma dayOfEra_natCast {z : ℕ} (hz : z ≤ 9223372036854775807) :
    dayOfEra z (z / daysInEra : ℕ) = some (z % daysInEra) := by
  have hdiff : (z : ℤ) - (z / daysInEra : ℕ) * 146097 = (z % daysInEra : ℕ) := by
    unfold daysInEra
    omega
  have hlt : z % daysInEra < daysInEra := Nat.mod_lt _ (by decide)
  unfold daysInEra at *
  simp only [dayOfEra, Option.bind_eq_bind]
  rw [i64_eq_some (by omega) (by omega), Option.bind_some, hdiff, i64_eq_some (by omega) (by omega),
    Option.bind_some, u64_eq_some rfl (by omega)]

/-! ## The year and its days -/

/-- The leap days before a day of the era, up to the one its own year may end with. -/
lemma index_div (e : EraDay) :
    e.index / 36524 - e.index / 146096 = e.century ∧
    ∃ late, e.index / 1460 = 25 * e.century + e.cycle + late ∧
      late ≤ e.day ∧ e.day < 365 + late ∧ late ≤ 1 := by
  have hcentury := e.century_lt
  have hcycle := e.cycle_lt
  have hyear := e.year_lt
  have hday := e.day_lt
  have hrest : 1461 * e.cycle + 365 * e.year + e.day < 36524 ∨
      1461 * e.cycle + 365 * e.year + e.day = 36524 ∧ e.century = 3 := by omega
  have hindex : e.index = 36524 * e.century + (1461 * e.cycle + 365 * e.year + e.day) := by
    unfold EraDay.index
    omega
  refine ⟨?_, (24 * e.century + e.cycle + 365 * e.year + e.day) / 1460, ?_, ?_, ?_, ?_⟩
  · rw [hindex]
    generalize 1461 * e.cycle + 365 * e.year + e.day = rest at hrest
    omega
  all_goals omega

lemma yearOfEra_index (e : EraDay) : yearOfEra e.index = some e.yearOfEra := by
  obtain ⟨hcenturies, late, hcycles, hlow, hhigh, -⟩ := index_div e
  have hlt := e.index_lt
  have hindex : e.index = 36524 * e.century + 1461 * e.cycle + 365 * e.year + e.day := rfl
  have hle : e.index / 146096 ≤ e.index / 36524 := Nat.div_le_div_left (by decide) (by decide)
  unfold daysInEra at hlt
  simp only [yearOfEra, Option.bind_eq_bind]
  rw [u64_eq_some (n := e.index - e.index / 1460) (by omega) (by omega), Option.bind_some,
    u64_eq_some (n := e.index - e.index / 1460 + e.index / 36524) (by omega) (by omega),
    Option.bind_some,
    u64_eq_some (n := 365 * e.yearOfEra + (e.day - late))
      (by unfold EraDay.yearOfEra; omega) (by unfold EraDay.yearOfEra; omega)]
  simp only [Option.bind_some, Option.pure_def, Option.some.injEq]
  omega

lemma dayOfYear_index (e : EraDay) : dayOfYear e.index e.yearOfEra = some e.day := by
  have hcentury := e.century_lt
  have hcycle := e.cycle_lt
  have hyear := e.year_lt
  have hday := e.day_lt
  have hindex : e.index = 36524 * e.century + 1461 * e.cycle + 365 * e.year + e.day := rfl
  have hyoe : e.yearOfEra = 100 * e.century + 4 * e.cycle + e.year := rfl
  have hfour : e.yearOfEra / 4 = 25 * e.century + e.cycle := by omega
  have hhundred : e.yearOfEra / 100 = e.century := by omega
  simp only [dayOfYear, Option.bind_eq_bind, hfour, hhundred]
  rw [u64_eq_some (n := 365 * e.yearOfEra) (by omega) (by omega), Option.bind_some,
    u64_eq_some (n := 365 * e.yearOfEra + (25 * e.century + e.cycle)) (by omega) (by omega),
    Option.bind_some,
    u64_eq_some (n := 365 * e.yearOfEra + (25 * e.century + e.cycle) - e.century) (by omega)
      (by omega),
    Option.bind_some, u64_eq_some (n := e.day) (by omega) (by omega)]

/-! ## The month and its days -/

/-- The month formula against the lengths of the months, on each day of a year. -/
lemma place_eq : ∀ n < 366,
    (153 * ((5 * n + 2) / 153) + 2) / 5 ≤ n ∧
    place marchMonths n =
      (if (5 * n + 2) / 153 < 10 then (5 * n + 2) / 153 + 3 else (5 * n + 2) / 153 - 9,
        n - (153 * ((5 * n + 2) / 153) + 2) / 5 + 1) := by
  decide +kernel

lemma marchMonth_eq {n : ℕ} (hn : n < 366) : marchMonth n = some ((5 * n + 2) / 153) := by
  simp only [marchMonth, Option.bind_eq_bind]
  rw [u64_eq_some (n := 5 * n) (by omega) (by omega), Option.bind_some,
    u64_eq_some (n := 5 * n + 2) (by omega) (by omega)]
  rfl

lemma monthOf_eq {mp : ℕ} (hmp : mp < 12) :
    monthOf mp = some (if mp < 10 then mp + 3 else mp - 9) := by
  unfold monthOf
  split_ifs with h
  · rw [u64_eq_some (n := mp + 3) (by omega) (by omega), Option.bind_eq_bind, Option.bind_some]
    exact u32_eq_some rfl (by omega)
  · rw [u64_eq_some (n := mp - 9) (by omega) (by omega), Option.bind_eq_bind, Option.bind_some]
    exact u32_eq_some rfl (by omega)

lemma dayOfMonth_eq {n mp : ℕ} (hmp : mp < 12) (hn : n < 366) (hle : (153 * mp + 2) / 5 ≤ n) :
    dayOfMonth n mp = some (n - (153 * mp + 2) / 5 + 1) := by
  simp only [dayOfMonth, Option.bind_eq_bind]
  rw [u64_eq_some (n := 153 * mp) (by omega) (by omega), Option.bind_some,
    u64_eq_some (n := 153 * mp + 2) (by omega) (by omega), Option.bind_some,
    u64_eq_some (n := n - (153 * mp + 2) / 5) (by omega) (by omega), Option.bind_some,
    u64_eq_some (n := n - (153 * mp + 2) / 5 + 1) (by omega) (by omega), Option.bind_some]
  exact u32_eq_some rfl (by omega)

lemma exists_monthDay {n : ℕ} (hn : n < 366) : ∃ mp, marchMonth n = some mp ∧
    monthOf mp = some (place marchMonths n).1 ∧ dayOfMonth n mp = some (place marchMonths n).2 := by
  obtain ⟨hle, hplace⟩ := place_eq n hn
  have hmp : (5 * n + 2) / 153 < 12 := by omega
  refine ⟨(5 * n + 2) / 153, marchMonth_eq hn, ?_, ?_⟩
  · rw [hplace, monthOf_eq hmp]
  · rw [hplace, dayOfMonth_eq hmp hn hle]

lemma civilYear_eq {y : ℤ} (m : ℕ) (hlow : 0 ≤ y) (hhigh : y ≤ 1000000000000000000) :
    civilYear y m = some (if m ≤ 2 then y + 1 else y) := by
  unfold civilYear
  split_ifs
  · exact i64_eq_some (by omega) (by omega)
  · rfl

/-- `z` counts the days from the first of March of year 0. -/
lemma civilFromDays_era {z : ℕ} {e : EraDay} (hz : z ≤ 1000000000000000)
    (he : e.index = z % daysInEra) :
    civilFromDays ((z : ℤ) - 719468) = some (e.date (z / daysInEra : ℕ)) := by
  have hshift : i64 (z : ℤ) = some (z : ℤ) := i64_eq_some (by omega) (by omega)
  have hera := eraOf_natCast (z := z) (by omega)
  have hdoe := dayOfEra_natCast (z := z) (by omega)
  have hle : z / daysInEra ≤ 1000000000000000 := Nat.le_trans (Nat.div_le_self _ _) hz
  rw [← he] at hdoe
  generalize z / daysInEra = era at hera hdoe hle ⊢
  have hlt := e.yearOfEra_lt
  have hsigned : i64 (e.yearOfEra : ℤ) = some (e.yearOfEra : ℤ) := i64_eq_some (by omega) (by omega)
  have hyears : i64 ((era : ℤ) * 400) = some ((era : ℤ) * 400) := i64_eq_some (by omega) (by omega)
  have hy : i64 ((e.yearOfEra : ℤ) + era * 400) = some ((e.yearOfEra : ℤ) + era * 400) :=
    i64_eq_some (by omega) (by omega)
  obtain ⟨mp, hmp, hmonth, hday⟩ := exists_monthDay e.day_lt_366
  have hyear := civilYear_eq (y := (e.yearOfEra : ℤ) + era * 400) (place marchMonths e.day).1
    (by omega) (by omega)
  rw [civilFromDays, Int.sub_add_cancel]
  simp only [Option.bind_eq_bind]
  rw [hshift, Option.bind_some, hera, Option.bind_some, hdoe, Option.bind_some, yearOfEra_index,
    Option.bind_some, hsigned, Option.bind_some, hyears, Option.bind_some, hy, Option.bind_some,
    dayOfYear_index, Option.bind_some, hmp, Option.bind_some, hday, Option.bind_some, hmonth,
    Option.bind_some, hyear, Option.bind_some]
  rfl

/-! ## From day to day -/

def epoch : Date := ⟨1970, 1, 1⟩

lemma civilFromDays_zero : civilFromDays 0 = some epoch := by decide +kernel

lemma civilFromDays_succ {n : ℕ} (hn : n ≤ 18446744073709551615 / 86400) :
    ∃ date, civilFromDays n = some date ∧ civilFromDays (n + 1 : ℕ) = some date.next := by
  obtain ⟨e, e', he, he', hnext⟩ := exists_next_date (n + 719468)
  have hday := civilFromDays_era (by omega) he
  have hsucc := civilFromDays_era (by omega) he'
  rw [show ((n + 719468 : ℕ) : ℤ) - 719468 = n by omega] at hday
  rw [show ((n + 719468 + 1 : ℕ) : ℤ) - 719468 = (n + 1 : ℕ) by omega, ← hnext] at hsucc
  exact ⟨_, hday, hsucc⟩

lemma civilFromDays_eq_iterate {n : ℕ} (hn : n ≤ 18446744073709551615 / 86400) :
    civilFromDays n = some (Date.next^[n] epoch) := by
  induction n with
  | zero => exact civilFromDays_zero
  | succ n ih =>
    obtain ⟨date, hdate, hnext⟩ := civilFromDays_succ (n := n) (by omega)
    rw [ih (by omega), Option.some.injEq] at hdate
    rw [hnext, ← hdate, Function.iterate_succ_apply']

/-- The text names the day of the calendar that many days after the first of January 1970. -/
theorem nowRfc3339_eq {secs : ℕ} (hsecs : secs ≤ 18446744073709551615) :
    nowRfc3339 secs = some (rfc3339 (Date.next^[secs / 86400] epoch) (secs % 86400 / 3600)
      (secs % 86400 % 3600 / 60) (secs % 86400 % 60)) := by
  have hdays : i64 (secs / 86400 : ℕ) = some ((secs / 86400 : ℕ) : ℤ) :=
    i64_eq_some (by omega) (by omega)
  have hdate : civilFromDays (secs / 86400 : ℕ) = some (Date.next^[secs / 86400] epoch) :=
    civilFromDays_eq_iterate (Nat.div_le_div_right hsecs)
  rw [nowRfc3339]
  exact Option.bind_eq_some_iff.mpr ⟨_, hdays, Option.bind_eq_some_iff.mpr ⟨_, hdate, rfl⟩⟩

/-- Each day that `now_rfc3339` can pass is followed by its successor in the calendar, and no
operation on the way overflows. -/
theorem civilFromDays_next :
    civilFromDays 0 = some ⟨1970, 1, 1⟩ ∧
    ∀ n : ℕ, n ≤ 18446744073709551615 / 86400 →
      ∃ date, civilFromDays n = some date ∧ civilFromDays (n + 1 : ℕ) = some date.next := by
  refine ⟨civilFromDays_zero, ?_⟩
  intro n hn
  exact civilFromDays_succ hn

theorem civilFromDays_next_leap_day :
    ∃ date, civilFromDays (11016 : ℕ) = some date ∧
      civilFromDays (11016 + 1 : ℕ) = some date.next :=
  civilFromDays_next.2 11016 (by decide)

end Relayly.Sdk.Rust
