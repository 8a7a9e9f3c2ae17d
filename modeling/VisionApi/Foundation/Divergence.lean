import Mathlib.Analysis.SpecialFunctions.Log.Basic
import Mathlib.Algebra.Order.BigOperators.Group.Finset

/-!
# The symmetric divergence of two families of positive shares

The divergence adds up `(q - p) * log (q / p)` over a finite support.  Each term is
nonnegative, and 0 only where both shares agree, since both factors have one sign.

The shares are arbitrary positive numbers: neither family has to add up to one, so
that floors which are put on empty categories do not matter.  The three laws of a
divergence (symmetry, sign and the case of equality) hold term by term and are
carried over to the sum.
-/

namespace VisionApi.Foundation

universe u

/-- What one member of the support adds. -/
noncomputable def logGap (p q : ℝ) : ℝ :=
  (q - p) * Real.log (q / p)

section LogGap

variable {p q : ℝ}

/-- A term does not change when both shares are exchanged. -/
theorem logGap_comm (p q : ℝ) : logGap p q = logGap q p := by
  have inverse : p / q = (q / p)⁻¹ := (inv_div q p).symm
  rw [logGap, logGap, inverse, Real.log_inv]
  ring

theorem logGap_pos_of_lt (positive : 0 < p) (below : p < q) : 0 < logGap p q := by
  apply mul_pos (sub_pos.mpr below)
  exact Real.log_pos ((one_lt_div positive).mpr below)

theorem logGap_self (p : ℝ) : logGap p p = 0 := by
  rw [logGap, sub_self, zero_mul]

/-- No term is negative. -/
theorem logGap_nonneg (first : 0 < p) (second : 0 < q) : 0 ≤ logGap p q := by
  rcases lt_trichotomy p q with below | rfl | above
  · exact (logGap_pos_of_lt first below).le
  · exact (logGap_self p).ge
  · rw [logGap_comm]
    exact (logGap_pos_of_lt second above).le

/-- A term vanishes only where both shares agree. -/
theorem logGap_eq_zero_iff (first : 0 < p) (second : 0 < q) : logGap p q = 0 ↔ p = q := by
  constructor
  · intro none
    rcases lt_trichotomy p q with below | same | above
    · exact absurd none (logGap_pos_of_lt first below).ne'
    · exact same
    · rw [logGap_comm] at none
      exact absurd none (logGap_pos_of_lt second above).ne'
  · rintro rfl
    exact logGap_self p

end LogGap

/-- The divergence of two families of shares on a finite support. -/
noncomputable def divergence {Category : Type u} (support : Finset Category)
    (p q : Category → ℝ) : ℝ :=
  ∑ category ∈ support, logGap (p category) (q category)

section Divergence

variable {Category : Type u} {support : Finset Category} {p q : Category → ℝ}

/-- The divergence is symmetric. -/
theorem divergence_comm (support : Finset Category) (p q : Category → ℝ) :
    divergence support p q = divergence support q p :=
  Finset.sum_congr rfl fun category _ => logGap_comm (p category) (q category)

/-- The divergence is never negative. -/
theorem divergence_nonneg (first : ∀ category, 0 < p category)
    (second : ∀ category, 0 < q category) : 0 ≤ divergence support p q :=
  Finset.sum_nonneg fun category _ => logGap_nonneg (first category) (second category)

/-- The divergence vanishes only for families that agree on the support. -/
theorem divergence_eq_zero_iff (first : ∀ category, 0 < p category)
    (second : ∀ category, 0 < q category) :
    divergence support p q = 0 ↔ ∀ category ∈ support, p category = q category := by
  rw [divergence, Finset.sum_eq_zero_iff_of_nonneg fun category _ =>
    logGap_nonneg (first category) (second category)]
  constructor
  · intro none category isMember
    exact (logGap_eq_zero_iff (first category) (second category)).mp (none category isMember)
  · intro same category isMember
    exact (logGap_eq_zero_iff (first category) (second category)).mpr (same category isMember)

end Divergence

end VisionApi.Foundation
