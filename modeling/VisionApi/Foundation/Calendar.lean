import Mathlib.Data.Int.Basic
import Mathlib.Order.Basic
import Mathlib.Tactic.Ext

/-!
# Dates and months

Dates of the proleptic Gregorian calendar, and the arithmetic of months on them.
A month is also an integer: its year times twelve, and what is past of the year.

A date carries the proof that its day is one of the month, so that a date which does
not exist cannot be written.  The operations follow the database: `truncMonth` is
`date_trunc('month', ..)`, and `addMonths` adds an interval of months and moves a
day that the new month lacks to its last day.

Almost everything that is proved goes through the index of the month, on which adding
months is addition and the order of first days is the order of integers.  With
`addMonths_first` and `before_first_iff` a statement about dates of the first turns
into linear arithmetic.
-/

namespace VisionApi.Foundation

/-- The Gregorian rule for leap years. -/
def isLeap (year : ℤ) : Bool :=
  year % 4 = 0 && (year % 100 ≠ 0 || year % 400 = 0)

/-- The number of days of a month, counted from one. -/
def daysInMonth (year : ℤ) : ℕ → ℕ
  | 2 => if isLeap year then 29 else 28
  | 4 | 6 | 9 | 11 => 30
  | _ => 31

theorem one_le_daysInMonth (year : ℤ) (month : ℕ) : 1 ≤ daysInMonth year month := by
  simp only [daysInMonth]
  split
  · split
    · omega
    · omega
  all_goals omega

theorem daysInMonth_le (year : ℤ) (month : ℕ) : daysInMonth year month ≤ 31 := by
  simp only [daysInMonth]
  split
  · split
    · omega
    · omega
  all_goals omega

/-- A date; the year before year one is year zero. -/
@[ext]
structure Date where
  year : ℤ
  month : ℕ
  day : ℕ
  month_valid : 1 ≤ month ∧ month ≤ 12
  day_valid : 1 ≤ day ∧ day ≤ daysInMonth year month
deriving DecidableEq

namespace Date

/-- The month of a date as an integer. -/
def index (date : Date) : ℤ :=
  date.year * 12 + (date.month - 1 : ℤ)

/-- The first day of a month. -/
def first (index : ℤ) : Date where
  year := index / 12
  month := (index % 12).toNat + 1
  day := 1
  month_valid := by omega
  day_valid := ⟨Nat.le_refl 1, one_le_daysInMonth _ _⟩

/-- The first day of the month of a date. -/
def truncMonth (date : Date) : Date :=
  { date with day := 1, day_valid := ⟨Nat.le_refl 1, one_le_daysInMonth _ _⟩ }

/-- Adding months keeps the day, or takes the last one of a shorter month. -/
def addMonths (date : Date) (months : ℤ) : Date :=
  let target := first (date.index + months)
  { target with
    day := min date.day (daysInMonth target.year target.month)
    day_valid := by
      have shortest := one_le_daysInMonth target.year target.month
      have isDay := date.day_valid
      omega }

/-- The order of the calendar. -/
def Before (left right : Date) : Prop :=
  left.year < right.year ∨ left.year = right.year ∧
    (left.month < right.month ∨ left.month = right.month ∧ left.day < right.day)

instance (left right : Date) : Decidable (left.Before right) :=
  inferInstanceAs (Decidable (left.year < right.year ∨ left.year = right.year ∧
    (left.month < right.month ∨ left.month = right.month ∧ left.day < right.day)))

theorem not_before_self (date : Date) : ¬date.Before date := by
  simp only [Before]
  omega

@[simp]
theorem first_year (index : ℤ) : (first index).year = index / 12 := rfl

@[simp]
theorem first_month (index : ℤ) : (first index).month = (index % 12).toNat + 1 := rfl

@[simp]
theorem index_first (index : ℤ) : (first index).index = index := by
  simp only [Date.index, first]
  omega

theorem first_injective : Function.Injective first := by
  intro left right same
  rw [← index_first left, same, index_first]

/-- The first day of a month is known by the index of the month. -/
theorem truncMonth_eq_first (date : Date) : date.truncMonth = first date.index := by
  have isMonth := date.month_valid
  ext
  · simp only [truncMonth, first, index]
    omega
  · simp only [truncMonth, first, index]
    omega
  · rfl

/-- Adding months adds to the index, whatever happens to the day. -/
@[simp]
theorem index_addMonths (date : Date) (months : ℤ) :
    (date.addMonths months).index = date.index + months :=
  index_first (date.index + months)

/-- Truncating after adding months forgets the day. -/
theorem truncMonth_addMonths (date : Date) (months : ℤ) :
    (date.addMonths months).truncMonth = first (date.index + months) := by
  rw [truncMonth_eq_first, index_addMonths]

theorem addMonths_first (index months : ℤ) :
    (first index).addMonths months = first (index + months) := by
  have shortest := one_le_daysInMonth (first (index + months)).year (first (index + months)).month
  have isFirst : (first index).day = 1 := rfl
  simp only [addMonths, index_first]
  ext
  · rfl
  · rfl
  · simp only [isFirst]
    exact Nat.min_eq_left shortest

/-- First days come in the order of their months. -/
theorem before_first_iff {left right : ℤ} : (first left).Before (first right) ↔ left < right := by
  simp only [Before, first]
  omega

/-- A date that is not before another one lies in no earlier month. -/
theorem index_le_of_not_before {left right : Date} (ordered : ¬right.Before left) :
    left.index ≤ right.index := by
  have isLeft := left.month_valid
  have isRight := right.month_valid
  simp only [Before] at ordered
  simp only [index]
  omega

end Date

end VisionApi.Foundation
