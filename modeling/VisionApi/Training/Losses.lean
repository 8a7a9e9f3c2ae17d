import VisionApi.Foundation.Gibbs
import VisionApi.Training.Evaluation
import VisionApi.Training.Mixing

/-!
# The losses

`soft_target_cross_entropy` of the classifier and `supervised_contrastive_loss` of the
embedder, in exact arithmetic.  Both average a cross entropy against the softmax of a
row of scores, so that what they can reach at best is an entropy.

The losses are written over any field with `exp` and `log` as parameters, and the bounds
are about real numbers.  A float rounds, and where a sum of exponentials overflows it is
infinite; neither is part of the model.  The contrastive loss divides by the temperature,
which is not zero in its theorem: the source has no check and gives no number there.

The bound and its case of equality are the inequality of Gibbs from the library of this
development.  For the contrastive loss an anchor is compared with all other samples of
the batch; the target is uniform over those with its label, and an anchor without any
does not contribute (`hasPositive`).
-/

namespace VisionApi.Training

open Foundation
open MixUpCutMix (ProbabilityVector)

variable {K : Type} [Field K] [LinearOrder K] {batch classes dimension : ℕ} {Label : Type}
  [DecidableEq Label]

/-! ## Cross entropy against soft targets -/

/-- `F.log_softmax` of one row. -/
def logSoftmax (exp log : K → K) (row : Fin classes → K) (label : Fin classes) : K :=
  row label - log (∑ other, exp (row other))

/-! ## Supervised contrastive loss -/

/-- `embeddings @ embeddings.T` -/
def product (embeddings : Fin batch → Fin dimension → K) (anchor other : Fin batch) : K :=
  ∑ index, embeddings anchor index * embeddings other index

/-- `embeddings @ embeddings.T / temperature`, for a temperature that is not zero. -/
def similarity (temperature : K) (embeddings : Fin batch → Fin dimension → K)
    (anchor other : Fin batch) : K :=
  product embeddings anchor other / temperature

/-- The samples that the mask leaves in the row of an anchor. -/
def unmasked (anchor : Fin batch) : Finset (Fin batch) :=
  Finset.univ.filter fun other => other ≠ anchor

/-- The other samples with the label of the anchor. -/
def positives (labels : Fin batch → Label) (anchor : Fin batch) : Finset (Fin batch) :=
  (unmasked anchor).filter fun other => labels other = labels anchor

/-- The mean of the log probabilities of the positives of an anchor. -/
def positiveLogProb (exp log : K → K) (scores : Fin batch → Fin batch → K)
    (labels : Fin batch → Label) (anchor : Fin batch) : K :=
  (∑ other ∈ positives labels anchor,
    (scores anchor other - log (∑ each ∈ unmasked anchor, exp (scores anchor each)))) /
      ((max (positives labels anchor).card 1 : ℕ) : K)

/-- The anchors with another sample of their label. -/
def hasPositive (labels : Fin batch → Label) : Finset (Fin batch) :=
  Finset.univ.filter fun anchor => (positives labels anchor).Nonempty

/-- The mean over the anchors that have positives, or zero. -/
def supervisedContrastiveLoss (exp log : K → K) (temperature : K)
    (embeddings : Fin batch → Fin dimension → K) (labels : Fin batch → Label) : K :=
  if hasPositive labels = ∅ then 0
  else
    -((∑ anchor ∈ hasPositive labels,
      positiveLogProb exp log (similarity temperature embeddings) labels anchor) /
        ((hasPositive labels).card : K))

/-! ## What the cross entropy can reach -/

section CrossEntropy

variable {logits targets : Fin batch → Fin classes → ℝ}

theorem logSoftmax_eq (row : Fin classes → ℝ) (label : Fin classes) :
    logSoftmax Real.exp Real.log row label = row label - logSumExp Finset.univ row :=
  rfl

/-- The mean entropy of the targets. -/
noncomputable def meanEntropy (targets : Fin batch → Fin classes → ℝ) : ℝ :=
  (∑ sample, entropy Finset.univ (targets sample)) / batch

theorem softTargetCrossEntropy_eq (logits targets : Fin batch → Fin classes → ℝ) :
    softTargetCrossEntropy (logSoftmax Real.exp Real.log) logits targets =
      (∑ sample, ∑ label, targets sample label *
        (logSumExp Finset.univ (logits sample) - logits sample label)) / batch := by
  unfold softTargetCrossEntropy
  congr 1
  apply Finset.sum_congr rfl
  intro sample _
  apply Finset.sum_congr rfl
  intro label _
  rw [logSoftmax_eq]
  ring

theorem nonempty_of_probabilityVector {row : Fin classes → ℝ} (isVector : ProbabilityVector row) :
    (Finset.univ : Finset (Fin classes)).Nonempty := by
  apply Finset.nonempty_of_sum_ne_zero (f := row)
  rw [isVector.2]
  exact one_ne_zero

/-- In exact arithmetic, against targets that are probability vectors, such as mixed and smoothed
labels, the loss is at least the mean entropy of the targets, and reaches it only where every
prediction is the target. -/
theorem softTargetCrossEntropy_bound (isBatch : 0 < batch)
    (areVectors : ∀ sample, ProbabilityVector (targets sample)) :
    meanEntropy targets ≤ softTargetCrossEntropy (logSoftmax Real.exp Real.log) logits targets ∧
      (softTargetCrossEntropy (logSoftmax Real.exp Real.log) logits targets = meanEntropy targets ↔
        ∀ sample label, targets sample label = softmax Finset.univ (logits sample) label) := by
  have size : (0 : ℝ) < batch := by exact_mod_cast isBatch
  have bound : ∀ sample, entropy Finset.univ (targets sample) ≤ ∑ label, targets sample label *
      (logSumExp Finset.univ (logits sample) - logits sample label) := fun sample =>
    entropy_le_loss (nonempty_of_probabilityVector (areVectors sample))
      (fun label _ => (areVectors sample).1 label) (areVectors sample).2
  rw [softTargetCrossEntropy_eq, meanEntropy]
  refine ⟨?_, ?_⟩
  · apply div_le_div_of_nonneg_right _ size.le
    exact Finset.sum_le_sum fun sample _ => bound sample
  · rw [div_left_inj' size.ne', eq_comm, Finset.sum_eq_sum_iff_of_le fun sample _ => bound sample]
    simp only [Finset.mem_univ, forall_const]
    apply forall_congr'
    intro sample
    rw [eq_comm, loss_eq_entropy_iff (nonempty_of_probabilityVector (areVectors sample))
      (fun label _ => (areVectors sample).1 label) (areVectors sample).2]
    simp

/-- Undecided predictions reach the bound of an even mixture of two labels. -/
theorem softTargetCrossEntropy_bound_even :
    softTargetCrossEntropy (logSoftmax Real.exp Real.log) (fun (_ : Fin 1) (_ : Fin 2) => 0)
        (fun _ _ => 1 / 2) =
      meanEntropy fun (_ : Fin 1) (_ : Fin 2) => 1 / 2 := by
  have areVectors : ∀ _ : Fin 1, ProbabilityVector fun _ : Fin 2 => (1 / 2 : ℝ) := by
    intro _
    refine ⟨fun _ => by norm_num, ?_⟩
    simp
  apply (softTargetCrossEntropy_bound Nat.one_pos areVectors).2.mpr
  intro _ _
  simp [softmax]

end CrossEntropy

/-! ## What the contrastive loss can reach -/

section Contrastive

variable {labels : Fin batch → Label} {anchor other : Fin batch}

/-- All samples but the anchor are compared with it. -/
theorem mem_unmasked : other ∈ unmasked anchor ↔ other ≠ anchor := by
  simp [unmasked]

theorem mem_positives :
    other ∈ positives labels anchor ↔ other ≠ anchor ∧ labels other = labels anchor := by
  simp [positives, mem_unmasked]

theorem positives_subset (labels : Fin batch → Label) (anchor : Fin batch) :
    positives labels anchor ⊆ unmasked anchor :=
  Finset.filter_subset _ _

theorem mem_hasPositive : anchor ∈ hasPositive labels ↔ (positives labels anchor).Nonempty := by
  simp [hasPositive]

/-- The mean over the positives is the loss of the scores against equal weights on them. -/
theorem neg_positiveLogProb_eq (scores : Fin batch → Fin batch → ℝ)
    (some : (positives labels anchor).Nonempty) :
    -positiveLogProb Real.exp Real.log scores labels anchor =
      ∑ other ∈ unmasked anchor, uniform (positives labels anchor) other *
        (logSumExp (unmasked anchor) (scores anchor) - scores anchor other) := by
  have counted : max (positives labels anchor).card 1 = (positives labels anchor).card :=
    max_eq_left some.card_pos
  rw [sum_uniform_mul (positives_subset labels anchor), positiveLogProb, counted, ← neg_div,
    ← Finset.sum_neg_distrib]
  congr 1
  apply Finset.sum_congr rfl
  intro other _
  unfold logSumExp
  ring

variable (scores : Fin batch → Fin batch → ℝ)

theorem log_card_le_neg_positiveLogProb (some : (positives labels anchor).Nonempty) :
    Real.log (positives labels anchor).card ≤
      -positiveLogProb Real.exp Real.log scores labels anchor := by
  rw [neg_positiveLogProb_eq scores some,
    ← entropy_uniform some (positives_subset labels anchor)]
  exact entropy_le_loss (some.mono (positives_subset labels anchor))
    (fun other _ => uniform_nonneg _ other) (sum_uniform some (positives_subset labels anchor))

/-- An anchor reaches the bound only if all others are its positives and equally similar to it. -/
theorem neg_positiveLogProb_eq_log_card_iff (some : (positives labels anchor).Nonempty) :
    -positiveLogProb Real.exp Real.log scores labels anchor =
        Real.log (positives labels anchor).card ↔
      ∀ other, other ≠ anchor → labels other = labels anchor ∧
        ∀ another, another ≠ anchor → scores anchor other = scores anchor another := by
  have inside := positives_subset labels anchor
  have nonempty := some.mono inside
  rw [neg_positiveLogProb_eq scores some, ← entropy_uniform some inside,
    loss_eq_entropy_iff nonempty (fun other _ => uniform_nonneg _ other)
      (sum_uniform some inside)]
  constructor
  · intro reached
    have allPositive : ∀ other, other ≠ anchor → other ∈ positives labels anchor := by
      intro other isOther
      by_contra notPositive
      have reachedHere := reached other (mem_unmasked.mpr isOther)
      have positive := softmax_pos nonempty (scores anchor) other
      simp only [uniform, notPositive, if_false] at reachedHere
      exact positive.ne reachedHere
    intro other isOther
    refine ⟨(mem_positives.mp (allPositive other isOther)).2, ?_⟩
    intro another isAnother
    have here := reached other (mem_unmasked.mpr isOther)
    have there := reached another (mem_unmasked.mpr isAnother)
    simp only [uniform, allPositive other isOther, allPositive another isAnother, if_true]
      at here there
    have same := here.symm.trans there
    unfold softmax at same
    rw [div_left_inj' (sum_exp_pos nonempty (scores anchor)).ne', Real.exp_eq_exp] at same
    exact same
  · intro equal other isOther
    have isNotAnchor := mem_unmasked.mp isOther
    have whole : positives labels anchor = unmasked anchor := by
      apply Finset.Subset.antisymm inside
      intro another isAnother
      exact mem_positives.mpr ⟨mem_unmasked.mp isAnother,
        (equal another (mem_unmasked.mp isAnother)).1⟩
    have constant : ∀ another ∈ unmasked anchor,
        Real.exp (scores anchor another) = Real.exp (scores anchor other) := by
      intro another isAnother
      rw [(equal other isNotAnchor).2 another (mem_unmasked.mp isAnother)]
    have card : ((unmasked anchor).card : ℝ) ≠ 0 := by
      simpa using nonempty.card_pos.ne'
    unfold softmax
    rw [Finset.sum_congr rfl constant]
    simp only [uniform, whole, isOther, if_true, Finset.sum_const, nsmul_eq_mul]
    field_simp

end Contrastive

/-- The mean over the anchors of the logarithm of the number of their positives. -/
noncomputable def meanLogPositives (labels : Fin batch → Label) : ℝ :=
  (∑ anchor ∈ hasPositive labels, Real.log (positives labels anchor).card) /
    (hasPositive labels).card

theorem meanLogPositives_nonneg (labels : Fin batch → Label) : 0 ≤ meanLogPositives labels := by
  unfold meanLogPositives
  apply div_nonneg
  · apply Finset.sum_nonneg
    intro anchor isAnchor
    apply Real.log_nonneg
    exact_mod_cast (mem_hasPositive.mp isAnchor).card_pos
  · positivity

/-- In exact arithmetic the contrastive loss is at least the mean logarithm of the number of
positives, for every temperature but zero and all embeddings, and so never negative.  It reaches
that bound only if each anchor that has a positive has no negatives and is equally close to all
others. -/
theorem supervisedContrastiveLoss_bound {temperature : ℝ} (divides : temperature ≠ 0)
    (embeddings : Fin batch → Fin dimension → ℝ) (labels : Fin batch → Label) :
    0 ≤ meanLogPositives labels ∧
      meanLogPositives labels ≤
        supervisedContrastiveLoss Real.exp Real.log temperature embeddings labels ∧
      (supervisedContrastiveLoss Real.exp Real.log temperature embeddings labels =
          meanLogPositives labels ↔
        ∀ anchor, (positives labels anchor).Nonempty → ∀ other, other ≠ anchor →
          labels other = labels anchor ∧ ∀ another, another ≠ anchor →
            product embeddings anchor other = product embeddings anchor another) := by
  refine ⟨meanLogPositives_nonneg labels, ?_⟩
  by_cases none : hasPositive labels = ∅
  · have noPositive : ∀ anchor, ¬ (positives labels anchor).Nonempty := by
      intro anchor some
      simpa [none] using mem_hasPositive.mpr some
    simp [supervisedContrastiveLoss, meanLogPositives, none, noPositive]
  · have size : (0 : ℝ) < (hasPositive labels).card := by
      exact_mod_cast (Finset.nonempty_iff_ne_empty.mpr none).card_pos
    have bound : ∀ anchor ∈ hasPositive labels, Real.log (positives labels anchor).card ≤
        -positiveLogProb Real.exp Real.log (similarity temperature embeddings) labels anchor :=
      fun anchor isAnchor => log_card_le_neg_positiveLogProb _ (mem_hasPositive.mp isAnchor)
    rw [supervisedContrastiveLoss, if_neg none, meanLogPositives, ← neg_div,
      ← Finset.sum_neg_distrib]
    refine ⟨div_le_div_of_nonneg_right (Finset.sum_le_sum bound) size.le, ?_⟩
    rw [div_left_inj' size.ne', eq_comm, Finset.sum_eq_sum_iff_of_le bound]
    apply forall_congr'
    intro anchor
    rw [mem_hasPositive]
    apply forall_congr'
    intro some
    rw [eq_comm, neg_positiveLogProb_eq_log_card_iff _ some]
    simp only [similarity, div_left_inj' divides]

/-- Two samples of one class and a third one of another. -/
def oneApart (sample : Fin 3) : Bool :=
  decide (sample.val < 2)

/-- At the temperature of the pipeline, three samples of a class at one point reach the bound; if
one of them is of another class the loss stays above it. -/
theorem supervisedContrastiveLoss_bound_three :
    supervisedContrastiveLoss Real.exp Real.log (7 / 100) (fun (_ : Fin 3) (_ : Fin 1) => 1)
        (fun _ => true) = meanLogPositives (fun _ : Fin 3 => true) ∧
      meanLogPositives oneApart <
        supervisedContrastiveLoss Real.exp Real.log (7 / 100) (fun _ (_ : Fin 1) => 1)
          oneApart := by
  have divides : (7 / 100 : ℝ) ≠ 0 := by norm_num
  constructor
  · apply (supervisedContrastiveLoss_bound divides _ _).2.2.mpr
    intro _ _ _ _
    exact ⟨rfl, fun _ _ => rfl⟩
  · have bound := (supervisedContrastiveLoss_bound divides (fun _ (_ : Fin 1) => 1) oneApart).2
    apply lt_of_le_of_ne bound.1
    intro reached
    have some : (positives oneApart 0).Nonempty := ⟨1, by decide⟩
    have same := (bound.2.mp reached.symm 0 some 2 (by decide)).1
    exact absurd same (by decide)

end VisionApi.Training
