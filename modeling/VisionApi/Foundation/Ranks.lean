import Mathlib.Algebra.Order.Floor.Semiring
import Mathlib.Data.List.Sort
import Mathlib.Data.Rat.Floor
import Mathlib.Order.Bounds.Basic

/-!
# Nearest ranks

The value of rank `r` in a sorted list is the least one that `r` members of the
list do not exceed.  A fraction of a list is the value of the least rank that is at
least this fraction of its length.

`NearestRank` defines the percentile without sorting: it is the least member such
that the fraction of members at most it is large enough.  As a least element it is
unique, it does not depend on the order of the list, and it grows with the fraction.
`nearestRank_getElem` connects the definition with what programs do, which is to sort
and to index.
-/

namespace VisionApi.Foundation

universe u

variable {Value : Type u} [LinearOrder Value]

section Sorted

variable {sorted values : List Value} {index : ℕ}

/-- The values of a sorted list grow with the index. -/
theorem getElem_le_getElem (isSorted : sorted.Pairwise (· ≤ ·)) {low high : ℕ}
    (ordered : low ≤ high) (inside : high < sorted.length) : sorted[low] ≤ sorted[high] := by
  rcases ordered.eq_or_lt with rfl | before
  · exact le_rfl
  · exact List.pairwise_iff_getElem.mp isSorted low high _ inside before

/-- A member of a sorted list is at most a bound when the bound has more members below it. -/
theorem getElem_le_iff (isSorted : sorted.Pairwise (· ≤ ·)) (inside : index < sorted.length)
    (bound : Value) :
    sorted[index] ≤ bound ↔ index < sorted.countP fun value => decide (value ≤ bound) := by
  induction sorted generalizing index with
  | nil => exact absurd inside (Nat.not_lt_zero _)
  | cons first rest ih =>
      rw [List.pairwise_cons] at isSorted
      by_cases below : first ≤ bound
      · cases index with
        | zero => simp [below]
        | succ index =>
            have isInside : index < rest.length := Nat.lt_of_succ_lt_succ inside
            simp [below, ih isSorted.2 isInside]
      · have none : (rest.countP fun value => decide (value ≤ bound)) = 0 := by
          apply List.countP_eq_zero.mpr
          intro value isValue small
          exact below ((isSorted.1 value isValue).trans (of_decide_eq_true small))
        have least : first ≤ (first :: rest)[index] := by
          cases index with
          | zero => exact le_rfl
          | succ index => exact isSorted.1 _ (List.getElem_mem _)
        simp only [List.countP_cons, none, decide_eq_false below, Bool.false_eq_true, if_false]
        constructor
        · intro small
          exact absurd (least.trans small) below
        · intro positive
          exact absurd positive (Nat.not_lt_zero _)

/-- The member at an index is the least value that more members than the index are at most. -/
theorem isLeast_getElem (isSorted : sorted.Pairwise (· ≤ ·)) (inside : index < sorted.length) :
    IsLeast {value | value ∈ sorted ∧
      index < sorted.countP fun other => decide (other ≤ value)} sorted[index] := by
  constructor
  · exact ⟨List.getElem_mem inside, (getElem_le_iff isSorted inside _).mp le_rfl⟩
  · intro value isValue
    exact (getElem_le_iff isSorted inside value).mpr isValue.2

end Sorted

/-- The least value of the list that at least a fraction of its members are at most. -/
def NearestRank (fraction : ℚ) (values : List Value) (value : Value) : Prop :=
  IsLeast {candidate | candidate ∈ values ∧ fraction * values.length ≤
    ((values.countP fun other => decide (other ≤ candidate) : ℕ) : ℚ)} value

section NearestRank

variable {sorted values : List Value} {fraction : ℚ} {value : Value}

/-- A percentile is one of the values. -/
theorem NearestRank.mem (isRank : NearestRank fraction values value) : value ∈ values :=
  isRank.1.1

/-- A list has at most one value of a rank. -/
theorem NearestRank.unique {other : Value} (isRank : NearestRank fraction values value)
    (alsoRank : NearestRank fraction values other) : value = other :=
  IsLeast.unique isRank alsoRank

/-- A larger fraction has a larger percentile. -/
theorem NearestRank.mono {larger : ℚ} {other : Value} (ordered : fraction ≤ larger)
    (isRank : NearestRank fraction values value) (alsoRank : NearestRank larger values other) :
    value ≤ other := by
  apply isRank.2
  refine ⟨alsoRank.1.1, ?_⟩
  exact (mul_le_mul_of_nonneg_right ordered (Nat.cast_nonneg _)).trans alsoRank.1.2

/-- The order of the values does not matter. -/
theorem NearestRank.perm {others : List Value} (permutes : others.Perm values) :
    NearestRank fraction others value ↔ NearestRank fraction values value := by
  have same : {candidate | candidate ∈ others ∧ fraction * others.length ≤
      ((others.countP fun other => decide (other ≤ candidate) : ℕ) : ℚ)} =
        {candidate | candidate ∈ values ∧ fraction * values.length ≤
          ((values.countP fun other => decide (other ≤ candidate) : ℕ) : ℚ)} := by
    ext candidate
    simp only [Set.mem_ofPred_eq, permutes.mem_iff, permutes.length_eq, permutes.countP_eq]
  rw [NearestRank, NearestRank, same]

/-- In a sorted list the value of a fraction is the member before the rounded-up rank. -/
theorem nearestRank_getElem (isSorted : sorted.Pairwise (· ≤ ·)) (positive : 0 < fraction)
    (inside : ⌈fraction * sorted.length⌉₊ - 1 < sorted.length) :
    NearestRank fraction sorted sorted[⌈fraction * sorted.length⌉₊ - 1] := by
  have nonempty : (0 : ℚ) < sorted.length := Nat.cast_pos.mpr (by omega)
  have above : 0 < ⌈fraction * sorted.length⌉₊ := Nat.ceil_pos.mpr (mul_pos positive nonempty)
  have same : {candidate | candidate ∈ sorted ∧ fraction * sorted.length ≤
      ((sorted.countP fun other => decide (other ≤ candidate) : ℕ) : ℚ)} =
        {candidate | candidate ∈ sorted ∧ ⌈fraction * sorted.length⌉₊ - 1 <
          sorted.countP fun other => decide (other ≤ candidate)} := by
    ext candidate
    simp only [Set.mem_ofPred_eq, ← Nat.ceil_le]
    have shift : ∀ count : ℕ, ⌈fraction * sorted.length⌉₊ ≤ count ↔
        ⌈fraction * sorted.length⌉₊ - 1 < count := by
      intro count
      omega
    rw [shift]
  rw [NearestRank, same]
  exact isLeast_getElem isSorted inside

end NearestRank

end VisionApi.Foundation
