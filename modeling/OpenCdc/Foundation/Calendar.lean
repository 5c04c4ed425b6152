import Mathlib.Tactic.SplitIfs
import Mathlib.Tactic.Linarith

/-!
# Calendar dates

The Gregorian calendar, the order of its dates, and days counted in years of
which every fourth has one day more.
-/

namespace Foundation.Calendar

/-! ## Dates -/

def IsLeapYear (year : ℕ) : Prop :=
  year % 4 = 0 ∧ (year % 100 ≠ 0 ∨ year % 400 = 0)

instance (year : ℕ) : Decidable (IsLeapYear year) :=
  inferInstanceAs (Decidable (_ ∧ _))

def monthLength (year month : ℕ) : ℕ :=
  if month = 2 then if IsLeapYear year then 29 else 28
  else if month = 4 ∨ month = 6 ∨ month = 9 ∨ month = 11 then 30
  else 31

/-- The month is one of twelve, and the day one of the month's. -/
def IsDate (year month day : ℕ) : Prop :=
  1 ≤ month ∧ month ≤ 12 ∧ 1 ≤ day ∧ day ≤ monthLength year month

structure Date where
  year : ℕ
  month : ℕ
  day : ℕ
  isDate : IsDate year month day

/-- The order of dates, by year, month and day. -/
instance : LT Date where
  lt a b := a.year < b.year ∨ a.year = b.year ∧
    (a.month < b.month ∨ a.month = b.month ∧ a.day < b.day)

/-- The date that index `i` of a year has if all months have thirty days is a
date of the calendar. -/
theorem isDate_thirty_iff (year i : ℕ) :
    IsDate year (i / 30 + 1) (i % 30 + 1) ↔
      i < 360 ∧ i ≠ 59 ∧ (i = 58 → IsLeapYear year) := by
  unfold IsDate monthLength
  by_cases hleap : IsLeapYear year
  · simp only [hleap, if_true, implies_true, and_true]
    split_ifs with hfebruary hshort
    · omega
    · omega
    · omega
  · simp only [hleap, if_false, imp_false]
    split_ifs with hfebruary hshort
    · omega
    · omega
    · omega

/-! ## Years of 365 days and a quarter -/

/-- The years before day `d`, counted from a year whose second next one is
longer. -/
def julianYear (d : ℕ) : ℕ :=
  4 * (d / 1461) +
    if d % 1461 < 365 then 0
    else if d % 1461 < 730 then 1
    else if d % 1461 < 1096 then 2
    else 3

/-- The index of day `d` in its year. -/
def julianDay (d : ℕ) : ℕ :=
  if d % 1461 < 365 then d % 1461
  else if d % 1461 < 730 then d % 1461 - 365
  else if d % 1461 < 1096 then d % 1461 - 730
  else d % 1461 - 1096

/-- A later day is in a later year, or later in the same year. -/
theorem julian_lt {c d : ℕ} (h : c < d) :
    julianYear c < julianYear d ∨
      julianYear c = julianYear d ∧ julianDay c < julianDay d := by
  unfold julianYear julianDay
  have hquot : c / 1461 ≤ d / 1461 := Nat.div_le_div_right h.le
  rcases Nat.lt_or_eq_of_le hquot with hlt | heq
  · left
    split_ifs <;> omega
  · split_ifs <;> omega

/-- The day from its year and the index in it. -/
theorem julian_day_eq (d : ℕ) :
    d = 365 * julianYear d + (julianYear d + 1) / 4 + julianDay d := by
  unfold julianYear julianDay
  split_ifs <;> omega

/-- The day stands before the next year. -/
theorem lt_next_julianYear (d : ℕ) :
    d < 365 * (julianYear d + 1) + (julianYear d + 2) / 4 := by
  unfold julianYear
  split_ifs <;> omega

end Foundation.Calendar
