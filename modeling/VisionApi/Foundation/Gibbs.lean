import Mathlib.Analysis.SpecialFunctions.Log.NegMulLog
import Mathlib.Algebra.BigOperators.Field
import Mathlib.Algebra.Order.BigOperators.Group.Finset

/-!
# Cross entropy and entropy

The cross entropy of a distribution and the softmax of some scores is at least the
entropy of the distribution, and equal to it only if they are the same.  The scores
enter through the logarithm of the sum of their exponentials.

The difference of both entropies is a sum of surprises (`crossEntropy_sub_entropy`).
A surprise is never negative and vanishes only for equal weights, by the strict
inequality between a logarithm and its tangent; so the sum has both properties, term
by term.  Weights may be zero, where the terms are those of the limit.

A loss is given by scores rather than by chances.  `log_softmax` translates one into
the other, and `entropy_le_loss` and `loss_eq_entropy_iff` state the bound and its
case of equality in the terms of the loss.  The uniform distributions at the end are
those of a contrastive loss, whose entropy is the logarithm of a number of outcomes.
-/

namespace VisionApi.Foundation

universe u

variable {Outcome : Type u} {support part : Finset Outcome} {weights chances scores : Outcome → ℝ}

/-- What one outcome adds to the divergence of the weights from the chances, balanced by the
difference of the two. -/
noncomputable def surprise (weight chance : ℝ) : ℝ :=
  weight * Real.log weight - weight * Real.log chance - weight + chance

section Surprise

variable {weight chance : ℝ}

/-- A surprise is positive where the weight and the chance differ. -/
theorem surprise_pos (nonneg : 0 ≤ weight) (positive : 0 < chance) (apart : weight ≠ chance) :
    0 < surprise weight chance := by
  unfold surprise
  rcases nonneg.eq_or_lt with rfl | present
  · simpa using positive
  · have ratio : 0 < chance / weight := div_pos positive present
    have notOne : chance / weight ≠ 1 := by
      intro one
      exact apart ((div_eq_one_iff_eq present.ne').mp one).symm
    have below := Real.log_lt_sub_one_of_pos ratio notOne
    rw [Real.log_div positive.ne' present.ne'] at below
    have scaled := mul_lt_mul_of_pos_left below present
    have cancel : weight * (chance / weight - 1) = chance - weight := by
      field_simp
    rw [cancel] at scaled
    linarith

@[simp]
theorem surprise_self (weight : ℝ) : surprise weight weight = 0 := by
  unfold surprise
  ring

/-- No surprise is negative. -/
theorem surprise_nonneg (nonneg : 0 ≤ weight) (positive : 0 < chance) :
    0 ≤ surprise weight chance := by
  by_cases same : weight = chance
  · simp [same]
  · exact (surprise_pos nonneg positive same).le

/-- Only equal weights and chances make no surprise. -/
theorem surprise_eq_zero_iff (nonneg : 0 ≤ weight) (positive : 0 < chance) :
    surprise weight chance = 0 ↔ weight = chance := by
  constructor
  · intro zero
    by_contra apart
    exact (surprise_pos nonneg positive apart).ne' zero
  · rintro rfl
    exact surprise_self weight

end Surprise

/-- The entropy of a distribution on a finite support. -/
noncomputable def entropy (support : Finset Outcome) (weights : Outcome → ℝ) : ℝ :=
  ∑ outcome ∈ support, Real.negMulLog (weights outcome)

/-- The cross entropy of two distributions. -/
noncomputable def crossEntropy (support : Finset Outcome) (weights chances : Outcome → ℝ) : ℝ :=
  ∑ outcome ∈ support, weights outcome * -Real.log (chances outcome)

/-- The cross entropy exceeds the entropy by the surprises. -/
theorem crossEntropy_sub_entropy (sameSum : ∑ outcome ∈ support, weights outcome =
    ∑ outcome ∈ support, chances outcome) :
    crossEntropy support weights chances - entropy support weights =
      ∑ outcome ∈ support, surprise (weights outcome) (chances outcome) := by
  have balanced : ∑ outcome ∈ support, (chances outcome - weights outcome) = 0 := by
    rw [Finset.sum_sub_distrib, sameSum, sub_self]
  unfold crossEntropy entropy
  rw [← add_zero (_ - _), ← balanced, ← Finset.sum_sub_distrib, ← Finset.sum_add_distrib]
  apply Finset.sum_congr rfl
  intro outcome _
  unfold Real.negMulLog surprise
  ring

/-- Gibbs' inequality. -/
theorem entropy_le_crossEntropy (nonneg : ∀ outcome ∈ support, 0 ≤ weights outcome)
    (positive : ∀ outcome ∈ support, 0 < chances outcome)
    (sameSum : ∑ outcome ∈ support, weights outcome = ∑ outcome ∈ support, chances outcome) :
    entropy support weights ≤ crossEntropy support weights chances := by
  rw [← sub_nonneg, crossEntropy_sub_entropy sameSum]
  apply Finset.sum_nonneg
  intro outcome isOutcome
  exact surprise_nonneg (nonneg outcome isOutcome) (positive outcome isOutcome)

/-- Both entropies are equal only for equal distributions. -/
theorem crossEntropy_eq_entropy_iff (nonneg : ∀ outcome ∈ support, 0 ≤ weights outcome)
    (positive : ∀ outcome ∈ support, 0 < chances outcome)
    (sameSum : ∑ outcome ∈ support, weights outcome = ∑ outcome ∈ support, chances outcome) :
    crossEntropy support weights chances = entropy support weights ↔
      ∀ outcome ∈ support, weights outcome = chances outcome := by
  rw [← sub_eq_zero, crossEntropy_sub_entropy sameSum, Finset.sum_eq_zero_iff_of_nonneg]
  · apply forall₂_congr
    intro outcome isOutcome
    exact surprise_eq_zero_iff (nonneg outcome isOutcome) (positive outcome isOutcome)
  · intro outcome isOutcome
    exact surprise_nonneg (nonneg outcome isOutcome) (positive outcome isOutcome)

/-! ## Scores -/

/-- The logarithm of the sum of the exponentials of the scores. -/
noncomputable def logSumExp (support : Finset Outcome) (scores : Outcome → ℝ) : ℝ :=
  Real.log (∑ outcome ∈ support, Real.exp (scores outcome))

/-- The share of an outcome among the exponentials of the scores. -/
noncomputable def softmax (support : Finset Outcome) (scores : Outcome → ℝ) (outcome : Outcome) :
    ℝ :=
  Real.exp (scores outcome) / ∑ other ∈ support, Real.exp (scores other)

theorem sum_exp_pos (nonempty : support.Nonempty) (scores : Outcome → ℝ) :
    0 < ∑ outcome ∈ support, Real.exp (scores outcome) :=
  Finset.sum_pos (fun _ _ => Real.exp_pos _) nonempty

theorem softmax_pos (nonempty : support.Nonempty) (scores : Outcome → ℝ) (outcome : Outcome) :
    0 < softmax support scores outcome :=
  div_pos (Real.exp_pos _) (sum_exp_pos nonempty scores)

/-- The shares add up to one. -/
theorem sum_softmax (nonempty : support.Nonempty) (scores : Outcome → ℝ) :
    ∑ outcome ∈ support, softmax support scores outcome = 1 := by
  unfold softmax
  rw [← Finset.sum_div]
  exact div_self (sum_exp_pos nonempty scores).ne'

/-- The logarithm of a share is the score below the logarithm of the sum. -/
theorem log_softmax (nonempty : support.Nonempty) (scores : Outcome → ℝ) (outcome : Outcome) :
    Real.log (softmax support scores outcome) = scores outcome - logSumExp support scores := by
  unfold softmax logSumExp
  rw [Real.log_div (Real.exp_pos _).ne' (sum_exp_pos nonempty scores).ne', Real.log_exp]

/-- What the scores lose against a distribution is at least its entropy. -/
theorem entropy_le_loss (nonempty : support.Nonempty)
    (nonneg : ∀ outcome ∈ support, 0 ≤ weights outcome)
    (whole : ∑ outcome ∈ support, weights outcome = 1) :
    entropy support weights ≤
      ∑ outcome ∈ support, weights outcome * (logSumExp support scores - scores outcome) := by
  have bound : entropy support weights ≤
      crossEntropy support weights (softmax support scores) := entropy_le_crossEntropy nonneg
    (fun outcome _ => softmax_pos nonempty scores outcome)
    (whole.trans (sum_softmax nonempty scores).symm)
  simpa [crossEntropy, log_softmax nonempty] using bound

/-- The loss reaches the entropy only if the softmax is the distribution. -/
theorem loss_eq_entropy_iff (nonempty : support.Nonempty)
    (nonneg : ∀ outcome ∈ support, 0 ≤ weights outcome)
    (whole : ∑ outcome ∈ support, weights outcome = 1) :
    ∑ outcome ∈ support, weights outcome * (logSumExp support scores - scores outcome) =
        entropy support weights ↔
      ∀ outcome ∈ support, weights outcome = softmax support scores outcome := by
  have reached : crossEntropy support weights (softmax support scores) =
      entropy support weights ↔ _ := crossEntropy_eq_entropy_iff nonneg
    (fun outcome _ => softmax_pos nonempty scores outcome)
    (whole.trans (sum_softmax nonempty scores).symm)
  simpa [crossEntropy, log_softmax nonempty] using reached

/-! ## The uniform distribution on a part -/

/-- Equal weights on a part of the outcomes. -/
noncomputable def uniform [DecidableEq Outcome] (part : Finset Outcome) (outcome : Outcome) : ℝ :=
  if outcome ∈ part then (part.card : ℝ)⁻¹ else 0

section Uniform

variable [DecidableEq Outcome]

/-- An average under a uniform distribution is the mean over its part. -/
theorem sum_uniform_mul (inside : part ⊆ support) (values : Outcome → ℝ) :
    ∑ outcome ∈ support, uniform part outcome * values outcome =
      (∑ outcome ∈ part, values outcome) / part.card := by
  unfold uniform
  simp only [ite_mul, zero_mul, Finset.sum_ite_mem, Finset.inter_eq_right.mpr inside]
  rw [← Finset.mul_sum, inv_mul_eq_div]

theorem sum_uniform (nonempty : part.Nonempty) (inside : part ⊆ support) :
    ∑ outcome ∈ support, uniform part outcome = 1 := by
  have total := sum_uniform_mul inside fun _ => 1
  have positive : (part.card : ℝ) ≠ 0 := by
    simpa using nonempty.card_pos.ne'
  simpa [positive] using total

theorem uniform_nonneg (part : Finset Outcome) (outcome : Outcome) : 0 ≤ uniform part outcome := by
  unfold uniform
  split
  · positivity
  · exact le_rfl

/-- The entropy of a uniform distribution is the logarithm of its size. -/
theorem entropy_uniform (nonempty : part.Nonempty) (inside : part ⊆ support) :
    entropy support (uniform part) = Real.log part.card := by
  have eachTerm : ∀ outcome, Real.negMulLog (uniform part outcome) =
      uniform part outcome * Real.log part.card := by
    intro outcome
    unfold uniform
    split
    · simp [Real.negMulLog, Real.log_inv]
    · simp [Real.negMulLog]
  have positive : (part.card : ℝ) ≠ 0 := by
    simpa using nonempty.card_pos.ne'
  unfold entropy
  simp only [eachTerm]
  rw [← Finset.sum_mul, sum_uniform nonempty inside, one_mul]

end Uniform

end VisionApi.Foundation
