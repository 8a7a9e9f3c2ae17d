import Mathlib.Algebra.Order.Floor.Semifield
import Mathlib.Data.Finset.Card
import Mathlib.Algebra.Order.Field.Basic
import Mathlib.Tactic.Linarith
import Mathlib.Tactic.FieldSimp
import Mathlib.Tactic.Positivity

/-!
# Counting the points of a grid

The points `n / size` with `n < size` divide the unit interval evenly.  The part
of them below a bound is the bound itself up to one step of the grid.

This is the count behind shares that are decided by a number drawn from a grid: the
points below a bound are those of a range of naturals, whose end is the bound scaled
and rounded up.  `card_pointsBelow_div` compares their share with the bound, cut to
the unit interval, and is off by less than one part in `size`.
-/

namespace VisionApi.Foundation

variable {K : Type} [Field K] [LinearOrder K]

/-- The points of the grid below a bound. -/
def pointsBelow (size : ℕ) (bound : K) : Finset ℕ :=
  (Finset.range size).filter fun point => (point : K) / size < bound

/-- A point of the grid that lies below the bound. -/
theorem mem_pointsBelow {size point : ℕ} {bound : K} :
    point ∈ pointsBelow size bound ↔ point < size ∧ (point : K) / size < bound := by
  rw [pointsBelow, Finset.mem_filter, Finset.mem_range]

/-- The part of a bound inside the unit interval. -/
def cut (bound : K) : K :=
  min bound 1

theorem cut_le (bound : K) : cut bound ≤ bound :=
  min_le_left _ _

variable {size : ℕ} {low high bound : K}

theorem pointsBelow_subset (ordered : low ≤ high) :
    pointsBelow size low ⊆ pointsBelow size high := by
  intro point isBelow
  rw [mem_pointsBelow] at isBelow ⊢
  exact ⟨isBelow.1, isBelow.2.trans_le ordered⟩

variable [IsStrictOrderedRing K] [FloorSemiring K]

/-- The points below a bound are an initial range. -/
theorem pointsBelow_eq_range (positive : 0 < size) (bound : K) :
    pointsBelow size bound = Finset.range (min size ⌈bound * size⌉₊) := by
  have isPositive : (0 : K) < size := Nat.cast_pos.mpr positive
  ext point
  rw [mem_pointsBelow, Finset.mem_range, lt_min_iff, Nat.lt_ceil, div_lt_iff₀ isPositive]

/-- The part of the points below a bound exceeds the bound by less than a step. -/
theorem card_pointsBelow_div (positive : 0 < size) (nonneg : 0 ≤ bound) :
    cut bound ≤ ((pointsBelow size bound).card : K) / size ∧
      ((pointsBelow size bound).card : K) / size < cut bound + 1 / size := by
  have isPositive : (0 : K) < size := Nat.cast_pos.mpr positive
  have step : (0 : K) < 1 / size := by positivity
  rw [pointsBelow_eq_range positive, Finset.card_range, cut]
  rcases le_or_gt 1 bound with large | small
  · have full : size ≤ ⌈bound * size⌉₊ := by
      have atLeast : ((size : ℕ) : K) ≤ bound * size := by nlinarith
      exact_mod_cast atLeast.trans (Nat.le_ceil _)
    rw [min_eq_left full, min_eq_right large, div_self isPositive.ne']
    exact ⟨le_rfl, by linarith⟩
  · have most : ⌈bound * size⌉₊ ≤ size := by
      apply Nat.ceil_le.mpr
      nlinarith
    rw [min_eq_right most, min_eq_left small.le, le_div_iff₀ isPositive, div_lt_iff₀ isPositive]
    refine ⟨Nat.le_ceil _, ?_⟩
    have above := Nat.ceil_lt_add_one (mul_nonneg nonneg isPositive.le)
    have scaled : (bound + 1 / size) * size = bound * size + 1 := by
      field_simp
    rw [scaled]
    exact above

end VisionApi.Foundation
