import Mathlib.Data.Int.Notation
import Mathlib.Tactic.Common

/-!
# The Gregorian calendar

The calendar repeats after 400 years. Counted from a first of March, so that a leap day is the last
day of its year, such an era has four centuries, of which all but the last lack a day; a century has
25 cycles of four years, and the last year of a cycle has the leap day.
-/

namespace Gregorian

structure Date where
  year : ℤ
  month : ℕ
  day : ℕ
  deriving DecidableEq, Repr

def isLeap (year : ℤ) : Bool := decide (year % 4 = 0 ∧ (year % 100 ≠ 0 ∨ year % 400 = 0))

def daysInMonth (year : ℤ) (month : ℕ) : ℕ :=
  if month = 2 then if isLeap year then 29 else 28
  else if month = 4 ∨ month = 6 ∨ month = 9 ∨ month = 11 then 30
  else 31

/-- The day after `d`. -/
def Date.next (d : Date) : Date :=
  if d.day < daysInMonth d.year d.month then { d with day := d.day + 1 }
  else if d.month < 12 then { year := d.year, month := d.month + 1, day := 1 }
  else { year := d.year + 1, month := 1, day := 1 }

/-! ## Years that begin in March -/

/-- The months from March on, with their lengths in a year that ends with a leap day. -/
def marchMonths : List (ℕ × ℕ) :=
  [(3, 31), (4, 30), (5, 31), (6, 30), (7, 31), (8, 31), (9, 30), (10, 31), (11, 30), (12, 31),
    (1, 31), (2, 29)]

/-- The month and the day of the month, `n` days after the first of the given months began. -/
def place : List (ℕ × ℕ) → ℕ → ℕ × ℕ
  | [], n => (0, n)
  | (month, length) :: rest, n => if n < length then (month, n + 1) else place rest (n - length)

/-- The date `n` days after the first of March of `year`. -/
def ofMarch (year : ℤ) (n : ℕ) : Date :=
  let (month, day) := place marchMonths n
  { year := if month ≤ 2 then year + 1 else year, month, day }

/-- Up to the end of February a year is as any other. -/
lemma place_succ : ∀ n < 364,
    ((place marchMonths n).2 < (if (place marchMonths n).1 = 2 then 28 else
        daysInMonth 0 (place marchMonths n).1) ∧
      place marchMonths (n + 1) = ((place marchMonths n).1, (place marchMonths n).2 + 1)) ∨
    ((place marchMonths n).1 ≠ 2 ∧ (place marchMonths n).1 < 12 ∧
      (place marchMonths n).2 = daysInMonth 0 (place marchMonths n).1 ∧
      place marchMonths (n + 1) = ((place marchMonths n).1 + 1, 1)) ∨
    (place marchMonths n = (12, 31) ∧ place marchMonths (n + 1) = (1, 1)) := by
  decide +kernel

lemma daysInMonth_of_ne_two {month : ℕ} (h : month ≠ 2) (year : ℤ) :
    daysInMonth year month = daysInMonth 0 month := by
  simp [daysInMonth, h]

lemma next_ofMarch_of_lt (year : ℤ) {n : ℕ} (hn : n < 364) :
    (ofMarch year n).next = ofMarch year (n + 1) := by
  unfold ofMarch
  rcases place_succ n hn with ⟨hday, hnext⟩ | ⟨hfeb, hdec, hday, hnext⟩ | ⟨hplace, hnext⟩
  · have hlt : ∀ y, (place marchMonths n).2 < daysInMonth y (place marchMonths n).1 := by
      intro y
      by_cases hfeb : (place marchMonths n).1 = 2
      · rw [if_pos hfeb] at hday
        rw [hfeb, daysInMonth, if_pos rfl]
        split_ifs <;> omega
      · rw [if_neg hfeb] at hday
        rwa [daysInMonth_of_ne_two hfeb]
    simp [hnext, Date.next, hlt]
  · have hend : ∀ y, ¬ (place marchMonths n).2 < daysInMonth y (place marchMonths n).1 := by
      intro y
      rw [daysInMonth_of_ne_two hfeb, hday]
      exact Nat.lt_irrefl _
    have hyear : (place marchMonths n).1 ≤ 2 ↔ (place marchMonths n).1 + 1 ≤ 2 := by omega
    simp [hnext, Date.next, hend, hdec, hyear]
  · simp [hplace, hnext, Date.next, daysInMonth]

lemma next_ofMarch_364 (year : ℤ) :
    (ofMarch year 364).next =
      if isLeap (year + 1) then ofMarch year 365 else ofMarch (year + 1) 0 := by
  have h364 : place marchMonths 364 = (2, 28) := by decide
  have h365 : place marchMonths 365 = (2, 29) := by decide
  have h0 : place marchMonths 0 = (3, 1) := by decide
  cases hleap : isLeap (year + 1) <;>
    simp [ofMarch, h364, h365, h0, Date.next, daysInMonth, hleap]

lemma next_ofMarch_365 {year : ℤ} (hleap : isLeap (year + 1) = true) :
    (ofMarch year 365).next = ofMarch (year + 1) 0 := by
  have h365 : place marchMonths 365 = (2, 29) := by decide
  have h0 : place marchMonths 0 = (3, 1) := by decide
  simp [ofMarch, h365, h0, Date.next, daysInMonth, hleap]

/-! ## Eras -/

def daysInEra : ℕ := 146097

/-- A day of an era: the century of the era, the cycle of the century, the year of the cycle and the
day of the year. -/
structure EraDay where
  century : ℕ
  cycle : ℕ
  year : ℕ
  day : ℕ
  century_lt : century < 4
  cycle_lt : cycle < 25
  year_lt : year < 4
  day_lt : day < 365 ∨ day = 365 ∧ year = 3 ∧ (cycle = 24 → century = 3)

namespace EraDay

variable {e e' : EraDay}

/-- The year ends with a leap day. -/
def Leap (e : EraDay) : Prop := e.year = 3 ∧ (e.cycle = 24 → e.century = 3)

instance (e : EraDay) : Decidable e.Leap :=
  inferInstanceAs (Decidable (e.year = 3 ∧ (e.cycle = 24 → e.century = 3)))

/-- How many days of the era are before it. -/
def index (e : EraDay) : ℕ := 36524 * e.century + 1461 * e.cycle + 365 * e.year + e.day

def yearOfEra (e : EraDay) : ℕ := 100 * e.century + 4 * e.cycle + e.year

def date (era : ℤ) (e : EraDay) : Date := ofMarch (e.yearOfEra + era * 400) e.day

lemma index_lt (e : EraDay) : e.index < daysInEra := by
  have hcentury := e.century_lt
  have hcycle := e.cycle_lt
  have hyear := e.year_lt
  have hday := e.day_lt
  unfold index daysInEra
  omega

lemma yearOfEra_lt (e : EraDay) : e.yearOfEra < 400 := by
  have hcentury := e.century_lt
  have hcycle := e.cycle_lt
  have hyear := e.year_lt
  unfold yearOfEra
  omega

lemma day_lt_366 (e : EraDay) : e.day < 366 := by
  have hday := e.day_lt
  omega

lemma isLeap_succ (era : ℤ) (e : EraDay) :
    isLeap (e.yearOfEra + era * 400 + 1) = decide e.Leap := by
  have hcentury := e.century_lt
  have hcycle := e.cycle_lt
  have hyear := e.year_lt
  unfold isLeap Leap yearOfEra
  congr 1
  rw [eq_iff_iff]
  omega

/-- Every day of the era is one of these. -/
lemma exists_index_eq {n : ℕ} (hn : n < daysInEra) : ∃ e : EraDay, e.index = n := by
  unfold daysInEra at hn
  by_cases hlast : n = 146096
  · refine ⟨⟨3, 24, 3, 365, by omega, by omega, by omega, by omega⟩, ?_⟩
    simp only [index]
    omega
  · -- the leap day of a cycle does not start a fifth year
    let year := min (n % 36524 % 1461 / 365) 3
    refine ⟨⟨n / 36524, n % 36524 / 1461, year, n % 36524 % 1461 - 365 * year, by omega, by omega,
      by omega, by omega⟩, ?_⟩
    simp only [index]
    omega

/-- The last day of its year. -/
def Last (e : EraDay) : Prop := e.day = 365 ∨ e.day = 364 ∧ ¬ e.Leap

/-- The next day is the next one of the year or the first one of the next year. -/
lemma exists_succ (e : EraDay) (h : e.index + 1 < daysInEra) :
    ∃ e' : EraDay, e'.index = e.index + 1 ∧
      (¬ e.Last ∧ e'.yearOfEra = e.yearOfEra ∧ e'.day = e.day + 1 ∨
        e.Last ∧ e'.yearOfEra = e.yearOfEra + 1 ∧ e'.day = 0) := by
  obtain ⟨century, cycle, year, day, hcentury, hcycle, hyear, hday⟩ := e
  unfold daysInEra index at h
  simp only [index, yearOfEra, Last, Leap] at h ⊢
  by_cases hin : day + 1 < 365 ∨ day + 1 = 365 ∧ year = 3 ∧ (cycle = 24 → century = 3)
  · exact ⟨⟨century, cycle, year, day + 1, hcentury, hcycle, hyear, hin⟩, by simp only; omega,
      .inl ⟨by omega, rfl, rfl⟩⟩
  by_cases hy : year < 3
  · exact ⟨⟨century, cycle, year + 1, 0, hcentury, hcycle, by omega, by omega⟩, by simp only; omega,
      .inr ⟨by omega, by simp only; omega, rfl⟩⟩
  by_cases hc : cycle < 24
  · exact ⟨⟨century, cycle + 1, 0, 0, hcentury, by omega, by omega, by omega⟩, by simp only; omega,
      .inr ⟨by omega, by simp only; omega, rfl⟩⟩
  · exact ⟨⟨century + 1, 0, 0, 0, by omega, by omega, by omega, by omega⟩, by simp only; omega,
      .inr ⟨by omega, by simp only; omega, rfl⟩⟩

lemma last_of_index (e : EraDay) (h : daysInEra ≤ e.index + 1) : e.Last ∧ e.yearOfEra = 399 := by
  have hcentury := e.century_lt
  have hcycle := e.cycle_lt
  have hyear := e.year_lt
  have hday := e.day_lt
  unfold daysInEra index at h
  unfold Last Leap yearOfEra
  omega

lemma next_date_of_not_last {era : ℤ} (h : ¬ e.Last) (hyear : e'.yearOfEra = e.yearOfEra)
    (hday : e'.day = e.day + 1) : (e.date era).next = e'.date era := by
  unfold date
  rw [hyear, hday]
  by_cases hlt : e.day < 364
  · exact next_ofMarch_of_lt _ hlt
  · have hday_lt := e.day_lt
    have heq : e.day = 364 := by
      unfold Last at h
      omega
    have hleap : e.Leap := not_not.mp fun hleap => h (.inr ⟨heq, hleap⟩)
    rw [heq, next_ofMarch_364, isLeap_succ, if_pos (decide_eq_true hleap)]

lemma next_date_of_last {era : ℤ} (h : e.Last) :
    (e.date era).next = ofMarch (e.yearOfEra + era * 400 + 1) 0 := by
  unfold date
  rcases h with heq | ⟨heq, hleap⟩
  · have hleap : e.Leap := by
      have hday_lt := e.day_lt
      unfold Leap
      omega
    rw [heq, next_ofMarch_365 (by rw [isLeap_succ, decide_eq_true hleap])]
  · rw [heq, next_ofMarch_364, isLeap_succ, if_neg (by simpa using hleap)]

end EraDay

/-- Counted from the first day of an era, the date of the day after day `n` is the date after that
of day `n`. -/
theorem exists_next_date (n : ℕ) : ∃ e e' : EraDay,
    e.index = n % daysInEra ∧ e'.index = (n + 1) % daysInEra ∧
      (e.date (n / daysInEra : ℕ)).next = e'.date ((n + 1) / daysInEra : ℕ) := by
  obtain ⟨e, he⟩ := EraDay.exists_index_eq (Nat.mod_lt n (by decide : 0 < daysInEra))
  by_cases h : e.index + 1 < daysInEra
  · have hmod : (n + 1) % daysInEra = e.index + 1 := by unfold daysInEra at *; omega
    have hdiv : (n + 1) / daysInEra = n / daysInEra := by unfold daysInEra at *; omega
    obtain ⟨e', he', ⟨hlast, hyear, hday⟩ | ⟨hlast, hyear, hday⟩⟩ := e.exists_succ h
    · refine ⟨e, e', he, he'.trans hmod.symm, ?_⟩
      rw [hdiv]
      exact EraDay.next_date_of_not_last hlast hyear hday
    · refine ⟨e, e', he, he'.trans hmod.symm, ?_⟩
      rw [hdiv, EraDay.next_date_of_last hlast, EraDay.date, hyear, hday]
      congr 1
      omega
  · -- the last day of an era is a leap day, in the 400th year
    have hmod : (n + 1) % daysInEra = 0 := by unfold daysInEra at *; omega
    have hdiv : (n + 1) / daysInEra = n / daysInEra + 1 := by unfold daysInEra at *; omega
    obtain ⟨hlast, hyear⟩ := EraDay.last_of_index e (Nat.le_of_not_lt h)
    refine ⟨e, ⟨0, 0, 0, 0, by omega, by omega, by omega, by omega⟩, he, hmod.symm, ?_⟩
    rw [hdiv, EraDay.next_date_of_last hlast, EraDay.date, hyear]
    congr 1
    simp only [EraDay.yearOfEra]
    omega

end Gregorian
