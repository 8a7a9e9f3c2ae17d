import Mathlib.Algebra.BigOperators.Fin
import Mathlib.Algebra.Order.Floor.Ring
import Mathlib.Algebra.Order.BigOperators.Group.Finset
import Mathlib.Analysis.Real.Sqrt
import Mathlib.Tactic.Linarith
import VisionApi.Foundation.Fallible

/-!
# MixUp and CutMix

`MixUpCutMix` mixes a batch with its reversed copy and returns soft targets.  The
arithmetic is exact; `math.sqrt` and what is drawn at random are arguments.

The parameters carry their checks, so that a mixer without them cannot be built, and
`create` is the constructor of the source with its errors.  A call either leaves the
images alone, pastes a rectangle of the partner, or blends both images pixel by pixel.
Which of these it does is decided by the draws (`call_unmixed`, `call_cutmix`,
`call_mixup`).

What the targets should be is defined from the images alone: `Spliced` counts the pixels
that are from the partner and `Blended` has one weight for all of them.  For a rectangle
the weight of the source is computed from its area after clipping, and this is the share
of pixels because the rectangle lies within the image (`card_between`,
`Patch.Within.fraction_eq`).  All targets are probability vectors.
-/

namespace VisionApi.Training

open Foundation

variable {K : Type} [Field K] [LinearOrder K]

/-- The collator as the constructor leaves it. -/
structure MixUpCutMix (K : Type) [Field K] [LinearOrder K] where
  numClasses : ℕ
  mixupAlpha : K
  cutmixAlpha : K
  prob : K
  labelSmoothing : K
  atLeastTwo : 2 ≤ numClasses
  probUnit : 0 ≤ prob ∧ prob ≤ 1
  smoothingUnit : 0 ≤ labelSmoothing ∧ labelSmoothing < 1

namespace MixUpCutMix

/-- Why there is no mixer, or no batch. -/
inductive CollateError where
  | numClasses
  | prob
  | labelSmoothing
  /-- The concentration that `torch.distributions.Beta` refuses. -/
  | concentration

/-- The constructor, with its checks. -/
def create (numClasses : ℕ) (mixupAlpha cutmixAlpha prob labelSmoothing : K) :
    Except CollateError (MixUpCutMix K) :=
  if classes : numClasses < 2 then .error .numClasses
  else if unit : ¬(0 ≤ prob ∧ prob ≤ 1) then .error .prob
  else if smoothing : ¬(0 ≤ labelSmoothing ∧ labelSmoothing < 1) then .error .labelSmoothing
  else .ok ⟨numClasses, mixupAlpha, cutmixAlpha, prob, labelSmoothing, not_lt.mp classes,
    not_not.mp unit, not_not.mp smoothing⟩

/-- A batch of images, by sample, channel, row and column. -/
abbrev Images (K : Type) (batch channels height width : ℕ) :=
  Fin batch → Fin channels → Fin height → Fin width → K

/-- Soft targets, by sample and class. -/
abbrev Soft (K : Type) (batch classes : ℕ) := Fin batch → Fin classes → K

/-- `_smooth`. -/
def smooth (mixer : MixUpCutMix K) {batch : ℕ} (targets : Fin batch → Fin mixer.numClasses) :
    Soft K batch mixer.numClasses :=
  let off := mixer.labelSmoothing / (mixer.numClasses : K)
  let on := 1 - mixer.labelSmoothing + off
  fun sample label => if label = targets sample then on else off

/-- The rows `y1:y2` and the columns `x1:x2`; the bounds are not negative. -/
structure Patch where
  y1 : ℤ
  y2 : ℤ
  x1 : ℤ
  x2 : ℤ

/-- A pixel lies in a rectangle. -/
def Patch.Contains (patch : Patch) (y x : ℕ) : Prop :=
  (patch.y1 ≤ y ∧ (y : ℤ) < patch.y2) ∧ patch.x1 ≤ x ∧ (x : ℤ) < patch.x2

instance (patch : Patch) (y x : ℕ) : Decidable (patch.Contains y x) :=
  inferInstanceAs (Decidable (_ ∧ _))

/-- `int` of a float truncates. -/
def truncate [FloorRing K] (value : K) : ℤ :=
  if 0 ≤ value then ⌊value⌋ else ⌈value⌉

/-- What a call draws at random. -/
structure Draws (K : Type) [Field K] [LinearOrder K] (height width : ℕ) where
  gate : K
  coin : K
  lam : K
  centreY : Fin height
  centreX : Fin width
  lamUnit : 0 ≤ lam ∧ lam ≤ 1

/-- `_cutmix_box`. -/
def cutmixBox [FloorRing K] (sqrt : K → K) (height width : ℕ) (lam : K) (cy : Fin height)
    (cx : Fin width) : Patch :=
  let ratio := sqrt (1 - lam)
  let cutH := truncate ((height : K) * ratio)
  let cutW := truncate ((width : K) * ratio)
  { y1 := max ((cy : ℕ) - cutH / 2) 0
    y2 := min ((cy : ℕ) + cutH / 2) height
    x1 := max ((cx : ℕ) - cutW / 2) 0
    x2 := min ((cx : ℕ) + cutW / 2) width }

/-- Whether a rectangle is pasted, or images are blended. -/
def useCutmix (mixer : MixUpCutMix K) (coin : K) : Bool :=
  decide (0 < mixer.cutmixAlpha) &&
    (decide (mixer.mixupAlpha ≤ 0) || decide (coin < ((1 / 2 : ℚ) : K)))

/-- `values.mul(lam).add_(flipped, alpha=1.0 - lam)`. -/
def blend (lam own partner : K) : K :=
  own * lam + (1 - lam) * partner

section Call

variable [FloorRing K] {batch channels height width : ℕ}

/-- `__call__`. -/
def call (sqrt : K → K) (mixer : MixUpCutMix K) (images : Images K batch channels height width)
    (targets : Fin batch → Fin mixer.numClasses) (draws : Draws K height width) :
    Except CollateError (Images K batch channels height width × Soft K batch mixer.numClasses) :=
  let soft := mixer.smooth targets
  if mixer.prob ≤ draws.gate then .ok (images, soft)
  else
    let flippedImages := fun sample : Fin batch => images sample.rev
    let flippedSoft := fun sample : Fin batch => soft sample.rev
    let useCutmix := mixer.useCutmix draws.coin
    let alpha := if useCutmix then mixer.cutmixAlpha else mixer.mixupAlpha
    if alpha ≤ 0 then .error .concentration
    else if useCutmix then
      let box := cutmixBox sqrt height width draws.lam draws.centreY draws.centreX
      let lam := 1 - (((box.y2 - box.y1) * (box.x2 - box.x1) : ℤ) : K) /
        ((height * width : ℕ) : K)
      .ok (fun sample channel y x =>
          if box.Contains y x then flippedImages sample channel y x else images sample channel y x,
        fun sample label => blend lam (soft sample label) (flippedSoft sample label))
    else
      .ok (fun sample channel y x =>
          blend draws.lam (images sample channel y x) (flippedImages sample channel y x),
        fun sample label => blend draws.lam (soft sample label) (flippedSoft sample label))

end Call

/-! ## Soft targets -/

/-- A distribution over the classes. -/
def ProbabilityVector {classes : ℕ} (row : Fin classes → K) : Prop :=
  (∀ label, 0 ≤ row label) ∧ ∑ label, row label = 1

variable [IsStrictOrderedRing K]

theorem smooth_probabilityVector (mixer : MixUpCutMix K) {batch : ℕ}
    (targets : Fin batch → Fin mixer.numClasses) (sample : Fin batch) :
    ProbabilityVector (mixer.smooth targets sample) := by
  have positive : (0 : K) < mixer.numClasses :=
    Nat.cast_pos.mpr (lt_of_lt_of_le Nat.two_pos mixer.atLeastTwo)
  have off : 0 ≤ mixer.labelSmoothing / (mixer.numClasses : K) :=
    div_nonneg mixer.smoothingUnit.1 positive.le
  constructor
  · intro label
    simp only [smooth]
    split
    · have below := mixer.smoothingUnit.2
      linarith
    · exact off
  · -- Every class has the share `off`, and the target the rest of the unit.
    have split : ∀ label, mixer.smooth targets sample label =
        mixer.labelSmoothing / (mixer.numClasses : K) +
          if label = targets sample then 1 - mixer.labelSmoothing else 0 := by
      intro label
      simp only [smooth]
      split
      · exact add_comm _ _
      · exact (add_zero _).symm
    simp only [split, Finset.sum_add_distrib, Finset.sum_const, Finset.card_univ, Fintype.card_fin,
      Finset.sum_ite_eq', Finset.mem_univ, if_true, nsmul_eq_mul]
    rw [mul_div_cancel₀ _ positive.ne']
    ring

/-- A blend of two distributions is one. -/
theorem blend_probabilityVector {classes : ℕ} {lam : K} (unit : 0 ≤ lam ∧ lam ≤ 1)
    {own partner : Fin classes → K} (first : ProbabilityVector own)
    (second : ProbabilityVector partner) :
    ProbabilityVector fun label => blend lam (own label) (partner label) := by
  constructor
  · intro label
    exact add_nonneg (mul_nonneg (first.1 label) unit.1)
      (mul_nonneg (sub_nonneg.mpr unit.2) (second.1 label))
  · simp only [blend, Finset.sum_add_distrib, ← Finset.sum_mul, ← Finset.mul_sum, first.2,
      second.2]
    ring

/-! ## The patch -/

section Patch

variable {height width : ℕ}

/-- The patch lies within the image. -/
structure Patch.Within (patch : Patch) (height width : ℕ) : Prop where
  rows : 0 ≤ patch.y1 ∧ patch.y1 ≤ patch.y2 ∧ patch.y2 ≤ height
  columns : 0 ≤ patch.x1 ∧ patch.x1 ≤ patch.x2 ∧ patch.x2 ≤ width

omit [IsStrictOrderedRing K] in
/-- Truncating leaves a number above zero there. -/
theorem truncate_nonneg [FloorRing K] {value : K} (nonneg : 0 ≤ value) : 0 ≤ truncate value := by
  rw [truncate, if_pos nonneg]
  exact Int.floor_nonneg.mpr nonneg

/-- The rectangle lies in the image. -/
theorem cutmixBox_within [FloorRing K] {sqrt : K → K} (roots : ∀ value, 0 ≤ sqrt value)
    (lam : K) (cy : Fin height) (cx : Fin width) :
    (cutmixBox sqrt height width lam cy cx).Within height width := by
  have cutH : 0 ≤ truncate ((height : K) * sqrt (1 - lam)) :=
    truncate_nonneg (mul_nonneg (Nat.cast_nonneg _) (roots _))
  have cutW : 0 ≤ truncate ((width : K) * sqrt (1 - lam)) :=
    truncate_nonneg (mul_nonneg (Nat.cast_nonneg _) (roots _))
  have insideY := cy.isLt
  have insideX := cx.isLt
  constructor
  · simp only [cutmixBox]
    omega
  · simp only [cutmixBox]
    omega

/-- The numbers of a range with integer bounds. -/
theorem card_between {size : ℕ} {low high : ℤ} (nonneg : 0 ≤ low) (ordered : low ≤ high)
    (most : high ≤ size) :
    (((Finset.univ.filter fun index : Fin size => low ≤ (index : ℕ) ∧ ((index : ℕ) : ℤ) < high).card
      : ℕ) : ℤ) = high - low := by
  have same : (Finset.univ.filter fun index : Fin size =>
      low ≤ (index : ℕ) ∧ ((index : ℕ) : ℤ) < high).map Fin.valEmbedding =
        Finset.Ico low.toNat high.toNat := by
    ext index
    simp only [Finset.mem_map, Finset.mem_filter, Finset.mem_univ, true_and, Fin.valEmbedding_apply,
      Finset.mem_Ico]
    constructor
    · rintro ⟨member, isBetween, rfl⟩
      omega
    · intro isBetween
      exact ⟨⟨index, by omega⟩, by dsimp only; omega, rfl⟩
  have counted := congrArg Finset.card same
  rw [Finset.card_map, Nat.card_Ico] at counted
  rw [counted]
  omega

/-- The fraction of the pixels that are inside a patch. -/
def Patch.fraction (patch : Patch) (height width : ℕ) : K :=
  ((Finset.univ.filter fun pixel : Fin height × Fin width =>
    patch.Contains pixel.1 pixel.2).card : K) / ((height * width : ℕ) : K)

omit [LinearOrder K] [IsStrictOrderedRing K] in
theorem Patch.Within.fraction_eq {patch : Patch} (within : patch.Within height width) :
    (patch.fraction height width : K) =
      (((patch.y2 - patch.y1) * (patch.x2 - patch.x1) : ℤ) : K) / ((height * width : ℕ) : K) := by
  have product : (Finset.univ.filter fun pixel : Fin height × Fin width =>
      patch.Contains pixel.1 pixel.2) =
        (Finset.univ.filter fun y : Fin height =>
          patch.y1 ≤ (y : ℕ) ∧ ((y : ℕ) : ℤ) < patch.y2) ×ˢ
        (Finset.univ.filter fun x : Fin width =>
          patch.x1 ≤ (x : ℕ) ∧ ((x : ℕ) : ℤ) < patch.x2) := by
    ext pixel
    simp only [Finset.mem_filter, Finset.mem_univ, true_and, Finset.mem_product]
    exact Iff.rfl
  have rows := card_between within.rows.1 within.rows.2.1 within.rows.2.2
  have columns := card_between within.columns.1 within.columns.2.1 within.columns.2.2
  rw [Patch.fraction, product, Finset.card_product, ← rows, ← columns]
  push_cast
  rfl

theorem Patch.fraction_unit (patch : Patch) (height width : ℕ) :
    0 ≤ (patch.fraction height width : K) ∧ (patch.fraction height width : K) ≤ 1 := by
  have counted : (Finset.univ.filter fun pixel : Fin height × Fin width =>
      patch.Contains pixel.1 pixel.2).card ≤ height * width := by
    have most := Finset.card_filter_le (Finset.univ : Finset (Fin height × Fin width))
      fun pixel => patch.Contains pixel.1 pixel.2
    rwa [Finset.card_univ, Fintype.card_prod, Fintype.card_fin, Fintype.card_fin] at most
  constructor
  · exact div_nonneg (Nat.cast_nonneg _) (Nat.cast_nonneg _)
  · exact div_le_one_of_le₀ (Nat.cast_le.mpr counted) (Nat.cast_nonneg _)

end Patch

/-! ## Labels and pixels -/

section Mixed

variable {batch channels height width classes : ℕ}

/-- A patch of each image is that of its partner, and the partner's label weighs as much as the
patch. -/
structure Spliced (patch : Patch) (images mixedImages : Images K batch channels height width)
    (soft mixedTargets : Soft K batch classes) : Prop where
  within : patch.Within height width
  outside : ∀ sample channel (y : Fin height) (x : Fin width), ¬patch.Contains y x →
    mixedImages sample channel y x = images sample channel y x
  inside : ∀ sample channel (y : Fin height) (x : Fin width), patch.Contains y x →
    mixedImages sample channel y x = images sample.rev channel y x
  weights : ∀ sample label, mixedTargets sample label =
    (1 - patch.fraction height width) * soft sample label +
      patch.fraction height width * soft sample.rev label

/-- The pixels and the labels are blended with the same weights. -/
structure Blended (lam : K) (images mixedImages : Images K batch channels height width)
    (soft mixedTargets : Soft K batch classes) : Prop where
  pixels : ∀ sample channel y x, mixedImages sample channel y x =
    lam * images sample channel y x + (1 - lam) * images sample.rev channel y x
  weights : ∀ sample label, mixedTargets sample label =
    lam * soft sample label + (1 - lam) * soft sample.rev label

omit [LinearOrder K] [IsStrictOrderedRing K] in
theorem spliced_of_within {patch : Patch} (within : patch.Within height width)
    (images : Images K batch channels height width) (soft : Soft K batch classes) :
    Spliced patch images
      (fun sample channel y x => if patch.Contains y x
        then images sample.rev channel y x else images sample channel y x)
      soft
      (fun sample label => blend (1 - patch.fraction height width) (soft sample label)
        (soft sample.rev label)) := by
  refine ⟨within, ?_, ?_, ?_⟩
  · intro sample channel y x outside
    exact if_neg outside
  · intro sample channel y x inside
    exact if_pos inside
  · intro sample label
    rw [blend]
    ring

omit [LinearOrder K] [IsStrictOrderedRing K] in
theorem blended_blend (lam : K) (images : Images K batch channels height width)
    (soft : Soft K batch classes) :
    Blended lam images
      (fun sample channel y x =>
        blend lam (images sample channel y x) (images sample.rev channel y x))
      soft (fun sample label => blend lam (soft sample label) (soft sample.rev label)) := by
  constructor
  · intro sample channel y x
    rw [blend]
    ring
  · intro sample label
    rw [blend]
    ring

end Mixed

section Results

variable {batch channels height width : ℕ} {mixer : MixUpCutMix ℝ}
  {images : Images ℝ batch channels height width} {targets : Fin batch → Fin mixer.numClasses}
  {draws : Draws ℝ height width}

/-- The patch of a call. -/
noncomputable def Draws.patch (draws : Draws ℝ height width) : Patch :=
  cutmixBox Real.sqrt height width draws.lam draws.centreY draws.centreX

/-- Behind the gate nothing is mixed. -/
theorem call_unmixed (closed : mixer.prob ≤ draws.gate) :
    mixer.call Real.sqrt images targets draws = .ok (images, mixer.smooth targets) :=
  if_pos closed

/-- A rectangle is pasted and the targets are blended by its share. -/
theorem call_cutmix (opened : draws.gate < mixer.prob)
    (isCutmix : mixer.useCutmix draws.coin = true) :
    mixer.call Real.sqrt images targets draws =
      .ok (fun sample channel y x => if draws.patch.Contains y x
          then images sample.rev channel y x else images sample channel y x,
        fun sample label => blend (1 - draws.patch.fraction height width)
          (mixer.smooth targets sample label) (mixer.smooth targets sample.rev label)) := by
  have within := cutmixBox_within Real.sqrt_nonneg draws.lam draws.centreY draws.centreX
  have positive : ¬mixer.cutmixAlpha ≤ 0 := by
    simp only [useCutmix, Bool.and_eq_true, decide_eq_true_eq] at isCutmix
    exact isCutmix.1.not_ge
  rw [call, if_neg opened.not_ge]
  simp only [isCutmix, if_true, if_neg positive, ← within.fraction_eq]
  rfl

theorem call_mixup (opened : draws.gate < mixer.prob)
    (isMixup : mixer.useCutmix draws.coin = false) :
    mixer.call Real.sqrt images targets draws =
      if mixer.mixupAlpha ≤ 0 then .error .concentration
      else .ok (fun sample channel y x =>
          blend draws.lam (images sample channel y x) (images sample.rev channel y x),
        fun sample label => blend draws.lam (mixer.smooth targets sample label)
          (mixer.smooth targets sample.rev label)) := by
  rw [call, if_neg opened.not_ge]
  simp only [isMixup, Bool.false_eq_true, if_false]

/-- What a call returns, by what it chose to do. -/
structure LabelsMatchPixels (mixer : MixUpCutMix ℝ)
    (images mixedImages : Images ℝ batch channels height width)
    (targets : Fin batch → Fin mixer.numClasses) (mixedTargets : Soft ℝ batch mixer.numClasses)
    (draws : Draws ℝ height width) : Prop where
  rows : ∀ sample, ProbabilityVector (mixedTargets sample)
  neither : mixer.prob ≤ draws.gate →
    mixedImages = images ∧ mixedTargets = mixer.smooth targets
  cutmix : draws.gate < mixer.prob → mixer.useCutmix draws.coin = true →
    Spliced draws.patch images mixedImages (mixer.smooth targets) mixedTargets
  mixup : draws.gate < mixer.prob → mixer.useCutmix draws.coin = false →
    Blended draws.lam images mixedImages (mixer.smooth targets) mixedTargets

theorem call_labelsMatchPixels {mixedImages : Images ℝ batch channels height width}
    {mixedTargets : Soft ℝ batch mixer.numClasses}
    (returned : mixer.call Real.sqrt images targets draws = .ok (mixedImages, mixedTargets)) :
    LabelsMatchPixels mixer images mixedImages targets mixedTargets draws := by
  have smoothed := smooth_probabilityVector mixer targets
  rcases le_or_gt mixer.prob draws.gate with closed | opened
  · rw [call_unmixed closed] at returned
    cases returned
    refine ⟨smoothed, fun _ => ⟨rfl, rfl⟩, ?_, ?_⟩
    · intro opened
      exact absurd closed opened.not_ge
    · intro opened
      exact absurd closed opened.not_ge
  · cases isCutmix : mixer.useCutmix draws.coin with
    | true =>
        rw [call_cutmix opened isCutmix] at returned
        cases returned
        have unit := Patch.fraction_unit (K := ℝ) draws.patch height width
        refine ⟨?_, fun closed => absurd closed opened.not_ge, ?_, ?_⟩
        · intro sample
          apply blend_probabilityVector _ (smoothed sample) (smoothed sample.rev)
          constructor <;> linarith [unit.1, unit.2]
        · intro _ _
          apply spliced_of_within
          exact cutmixBox_within Real.sqrt_nonneg draws.lam draws.centreY draws.centreX
        · intro _ isMixup
          rw [isCutmix] at isMixup
          cases isMixup
    | false =>
        rw [call_mixup opened isCutmix] at returned
        split at returned
        · cases returned
        · cases returned
          refine ⟨?_, fun closed => absurd closed opened.not_ge, ?_, ?_⟩
          · intro sample
            exact blend_probabilityVector draws.lamUnit (smoothed sample) (smoothed sample.rev)
          · intro _ alsoCutmix
            rw [isCutmix] at alsoCutmix
            cases alsoCutmix
          · intro _ _
            exact blended_blend draws.lam images (mixer.smooth targets)

/-- A mixer for two classes. -/
def twoClasses : MixUpCutMix ℝ where
  numClasses := 2
  mixupAlpha := 1
  cutmixAlpha := 1
  prob := 1
  labelSmoothing := 0
  atLeastTwo := le_rfl
  probUnit := ⟨zero_le_one, le_rfl⟩
  smoothingUnit := ⟨le_rfl, zero_lt_one⟩

/-- Draws that choose CutMix with the patch in the corner. -/
def cornerDraws : Draws ℝ 2 2 where
  gate := 0
  coin := 0
  lam := 0
  centreY := ⟨0, Nat.two_pos⟩
  centreX := ⟨0, Nat.two_pos⟩
  lamUnit := ⟨le_rfl, zero_le_one⟩

theorem call_labelsMatchPixels_corner :
    ∃ mixedImages mixedTargets,
      twoClasses.call Real.sqrt (fun sample (_ : Fin 1) _ _ => (sample : ℝ)) id cornerDraws =
          .ok (mixedImages, mixedTargets) ∧
        LabelsMatchPixels twoClasses (fun sample _ _ _ => (sample : ℝ)) mixedImages id
          mixedTargets cornerDraws := by
  have opened : cornerDraws.gate < twoClasses.prob := zero_lt_one
  have isCutmix : twoClasses.useCutmix cornerDraws.coin = true := by
    simp [useCutmix, twoClasses, cornerDraws]
  exact ⟨_, _, call_cutmix opened isCutmix, call_labelsMatchPixels (call_cutmix opened isCutmix)⟩

end Results

end MixUpCutMix

end VisionApi.Training
