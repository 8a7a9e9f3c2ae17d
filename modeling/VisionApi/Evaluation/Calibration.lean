import Mathlib.Algebra.BigOperators.Ring.List
import VisionApi.Detect.Boxes
import VisionApi.Foundation.Means

/-!
# Calibration of the classifier

`compute_calibration` sorts predictions into equal-width bins of their confidence
and weighs the gap between confidence and accuracy of each bin by its share of the
predictions.  The arithmetic is exact here.

A bin holds the confidences above its lower edge up to its upper edge, and the last
one also those that equal its lower edge.  `countP_bins` counts the bins of a
confidence in the unit interval: one if it is positive, and one more if it is the lower
edge of the last bin.  So a zero lies in no bin and this edge in two, except that with a
single bin the two cases make up for each other.

Where every prediction has exactly one bin, the bins partition the predictions, and the
error is a weighted mean of gaps that lie in the unit interval: this is the general
result about groups from the library.
-/

namespace VisionApi.Evaluation

open Foundation

variable {K : Type} [Field K]

/-! ## Bins -/

/-- `np.linspace(0.0, 1.0, bins + 1)`. -/
def edges (K : Type) [Field K] (bins : ℕ) : List K :=
  (List.range (bins + 1)).map fun index : ℕ => (index : K) / bins

/-- `itertools.pairwise`. -/
def pairwise (values : List K) : List (K × K) :=
  values.zip values.tail

/-- `np.mean`; of flags, the share of those that are set. -/
def flagMean (flags : List Bool) : K :=
  mean (flags.map fun flag => if flag then 1 else 0)

/-- What a bin holds, before rounding. -/
structure Bin (K : Type) where
  lower : K
  upper : K
  count : ℕ
  meanConfidence : K
  accuracy : K

/-- The gap between confidence and accuracy of a bin. -/
def Bin.gap [Lattice K] (bin : Bin K) : K :=
  |bin.meanConfidence - bin.accuracy|

variable [LinearOrder K]

/-- The mask of a bin.  What is added to the final bin is its lower edge. -/
def inBin (bounds : List K) (lower upper confidence : K) : Bool :=
  (decide (lower < confidence) && decide (confidence ≤ upper)) ||
    (decide (bounds.getLast? = some upper) && decide (confidence = lower))

/-- A column of the predictions at the positions of a mask on the confidences. -/
def masked {Value : Type} (mask : K → Bool) (confidences : List K) (values : List Value) :
    List Value :=
  ((confidences.zip values).filter fun entry => mask entry.1).map Prod.snd

/-- The bin between two edges, unless it is empty. -/
def bin? (bounds confidences : List K) (correct : List Bool) (lower upper : K) :
    Option (Bin K) :=
  let mask := inBin bounds lower upper
  let count := confidences.countP mask
  if count = 0 then none
  else some {
    lower := lower
    upper := upper
    count := count
    meanConfidence := mean (confidences.filter mask)
    accuracy := flagMean (masked mask confidences correct) }

/-! ## The report -/

/-- A row of the reliability table. -/
structure TableRow (K : Type) where
  range : String
  count : ℕ
  meanConfidence : K
  accuracy : K
  gap : K

/-- A number from 0 on with one decimal. -/
def oneDecimal [FloorRing K] (value : K) : String :=
  let tenths := (roundHalfEven (value * ((10 : ℕ) : K))).toNat
  toString (tenths / 10) ++ "." ++ toString (tenths % 10)

/-- The row of a bin in the table. -/
def Bin.row [FloorRing K] (bin : Bin K) : TableRow K where
  range := oneDecimal bin.lower ++ "-" ++ oneDecimal bin.upper
  count := bin.count
  meanConfidence := Detect.roundTo 4 bin.meanConfidence
  accuracy := Detect.roundTo 4 bin.accuracy
  gap := Detect.roundTo 4 (bin.accuracy - bin.meanConfidence)

/-- The variables of the loop. -/
structure Progress (K : Type) where
  ece : K
  table : List (TableRow K)

/-- One round of the loop over the bins. -/
def Progress.step [FloorRing K] (bounds confidences : List K) (correct : List Bool)
    (progress : Progress K) (pair : K × K) : Progress K :=
  match bin? bounds confidences correct pair.1 pair.2 with
  | none => progress
  | some bin =>
      { ece := progress.ece + (bin.count : K) / (confidences.length : K) * bin.gap
        table := progress.table ++ [bin.row] }

/-- The loop over the bins. -/
def loop [FloorRing K] (confidences : List K) (correct : List Bool) (bins : ℕ) : Progress K :=
  (pairwise (edges K bins)).foldl (Progress.step (edges K bins) confidences correct) ⟨0, []⟩

/-- What `compute_calibration` returns. -/
structure Calibration (K : Type) where
  expectedCalibrationError : K
  meanConfidence : K
  meanAccuracy : K
  overconfidence : K
  bins : List (TableRow K)

/-- The error, the means and the table of the bins. -/
def computeCalibration [FloorRing K] (confidences : List K) (correct : List Bool) (bins : ℕ) :
    Calibration K :=
  let done := loop confidences correct bins
  let meanConfidence := mean confidences
  let meanAccuracy := flagMean correct
  { expectedCalibrationError := Detect.roundTo 4 done.ece
    meanConfidence := Detect.roundTo 4 meanConfidence
    meanAccuracy := Detect.roundTo 4 meanAccuracy
    overconfidence := Detect.roundTo 4 (meanConfidence - meanAccuracy)
    bins := done.table }

/-- The bins that hold some prediction. -/
def keptBins (confidences : List K) (correct : List Bool) (bins : ℕ) : List (Bin K) :=
  (pairwise (edges K bins)).filterMap fun pair =>
    bin? (edges K bins) confidences correct pair.1 pair.2

/-- The loop adds up the gaps of the kept bins and lists their rows. -/
theorem foldl_step [FloorRing K] (bounds confidences : List K) (correct : List Bool)
    (pairs : List (K × K)) (progress : Progress K) :
    let kept := pairs.filterMap fun pair => bin? bounds confidences correct pair.1 pair.2
    pairs.foldl (Progress.step bounds confidences correct) progress =
      ⟨progress.ece +
        (kept.map fun bin => (bin.count : K) / (confidences.length : K) * bin.gap).sum,
        progress.table ++ kept.map Bin.row⟩ := by
  induction pairs generalizing progress with
  | nil => simp
  | cons pair pairs ih =>
      rw [List.foldl_cons, ih]
      cases isBin : bin? bounds confidences correct pair.1 pair.2 with
      | none => simp [Progress.step, isBin]
      | some bin => simp [Progress.step, isBin, add_assoc]

/-- The loop adds up the gaps of the bins that it keeps and lists their rows. -/
theorem loop_eq [FloorRing K] (confidences : List K) (correct : List Bool) (bins : ℕ) :
    loop confidences correct bins =
      ⟨((keptBins confidences correct bins).map fun bin =>
        (bin.count : K) / (confidences.length : K) * bin.gap).sum,
        (keptBins confidences correct bins).map Bin.row⟩ := by
  rw [loop, foldl_step, zero_add, List.nil_append]
  rfl

theorem computeCalibration_bins [FloorRing K] (confidences : List K) (correct : List Bool)
    (bins : ℕ) : (computeCalibration confidences correct bins).bins =
      (keptBins confidences correct bins).map Bin.row := by
  simp only [computeCalibration, loop_eq]

/-! ## The bin of a confidence -/

omit [LinearOrder K] in
theorem pairwise_edges (bins : ℕ) :
    pairwise (edges K bins) =
      (List.range bins).map fun index : ℕ =>
        ((index : K) / bins, ((index + 1 : ℕ) : K) / bins) := by
  apply List.ext_getElem
  · simp [pairwise, edges]
  · intro index _ _
    simp [pairwise, edges]

omit [LinearOrder K] in
theorem getLast?_edges (bins : ℕ) : (edges K bins).getLast? = some ((bins : K) / bins) := by
  rw [edges, List.range_succ, List.map_append]
  exact List.getLast?_concat

variable [IsStrictOrderedRing K]

/-- The edge of the final bin that is counted twice. -/
def lastLower (K : Type) [Field K] (bins : ℕ) : K :=
  ((bins - 1 : ℕ) : K) / bins

theorem inBin_edges {bins index : ℕ} (inside : index < bins) (confidence : K) :
    inBin (edges K bins) ((index : K) / bins) (((index + 1 : ℕ) : K) / bins) confidence =
      ((decide ((index : K) / bins < confidence) &&
          decide (confidence ≤ ((index + 1 : ℕ) : K) / bins)) ||
        (decide (index = bins - 1) && decide (confidence = (index : K) / bins))) := by
  have positive : (bins : K) ≠ 0 := Nat.cast_ne_zero.mpr (by omega)
  have isLast : (edges K bins).getLast? = some (((index + 1 : ℕ) : K) / bins) ↔
      index = bins - 1 := by
    rw [getLast?_edges, Option.some.injEq, div_left_inj' positive, Nat.cast_inj]
    omega
  simp only [inBin, isLast]

theorem countP_open_bins {bins : ℕ} (some_bin : 0 < bins) [FloorRing K] {confidence : K}
    (most : confidence ≤ 1) :
    ((List.range bins).countP fun index : ℕ => decide ((index : K) / bins < confidence) &&
      decide (confidence ≤ ((index + 1 : ℕ) : K) / bins)) = if 0 < confidence then 1 else 0 := by
  have positive : (0 : K) < bins := Nat.cast_pos.mpr some_bin
  split
  · rename_i isPositive
    have scaled : 0 < confidence * bins := mul_pos isPositive positive
    have above : 0 < ⌈confidence * bins⌉₊ := Nat.ceil_pos.mpr scaled
    have below : ⌈confidence * bins⌉₊ ≤ bins := by
      apply Nat.ceil_le.mpr
      exact mul_le_of_le_one_left positive.le most
    apply countP_range_eq_one (⌈confidence * bins⌉₊ - 1)
    · omega
    · intro other isOther
      simp only [Bool.and_eq_true, decide_eq_true_eq, div_lt_iff₀ positive, le_div_iff₀ positive]
      rw [← Nat.lt_ceil, ← Nat.ceil_le]
      omega
  · rename_i notPositive
    apply List.countP_eq_zero.mpr
    intro index _ isInside
    simp only [Bool.and_eq_true, decide_eq_true_eq] at isInside
    have nonneg : (0 : K) ≤ (index : K) / bins := div_nonneg (Nat.cast_nonneg _) positive.le
    exact notPositive (nonneg.trans_lt isInside.1)

/-- A confidence above 0 is in one bin, and the lower edge of the final bin in one more. -/
theorem countP_bins {bins : ℕ} (some_bin : 0 < bins) [FloorRing K] {confidence : K}
    (most : confidence ≤ 1) :
    ((pairwise (edges K bins)).countP fun pair =>
        inBin (edges K bins) pair.1 pair.2 confidence) =
      (if 0 < confidence then 1 else 0) + if confidence = lastLower K bins then 1 else 0 := by
  have asRange : ((pairwise (edges K bins)).countP fun pair =>
      inBin (edges K bins) pair.1 pair.2 confidence) =
        (List.range bins).countP fun index : ℕ =>
          (decide ((index : K) / bins < confidence) &&
            decide (confidence ≤ ((index + 1 : ℕ) : K) / bins)) ||
          (decide (index = bins - 1) && decide (confidence = (index : K) / bins)) := by
    rw [pairwise_edges, List.countP_map]
    apply List.countP_congr
    intro index isIndex
    rw [Function.comp_apply, inBin_edges (List.mem_range.mp isIndex)]
  rw [asRange, countP_or_of_disjoint, countP_open_bins some_bin most]
  · congr 1
    split
    · rename_i isLower
      apply countP_range_eq_one (bins - 1) (by omega)
      intro other _
      simp only [Bool.and_eq_true, decide_eq_true_eq]
      constructor
      · intro isLast
        exact isLast.1
      · rintro rfl
        exact ⟨rfl, isLower⟩
    · rename_i notLower
      apply List.countP_eq_zero.mpr
      intro index _ isLast
      simp only [Bool.and_eq_true, decide_eq_true_eq] at isLast
      apply notLower
      rw [isLast.2, isLast.1, lastLower]
  · intro index _ isOpen
    simp only [Bool.and_eq_true, decide_eq_true_eq] at isOpen
    simp only [isOpen.1.ne', decide_false, Bool.and_false]

/-- A confidence has one bin, unless it is zero or the lower edge of the last of several. -/
theorem countP_bins_eq_one_iff {bins : ℕ} (some_bin : 0 < bins) [FloorRing K] {confidence : K}
    (nonneg : 0 ≤ confidence) (most : confidence ≤ 1) :
    ((pairwise (edges K bins)).countP fun pair =>
        inBin (edges K bins) pair.1 pair.2 confidence) = 1 ↔
      bins = 1 ∨ confidence ≠ 0 ∧ confidence ≠ lastLower K bins := by
  rw [countP_bins some_bin most]
  have isLastLower : lastLower K bins = 0 ↔ bins = 1 := by
    rw [lastLower, div_eq_zero_iff, Nat.cast_eq_zero, Nat.cast_eq_zero]
    omega
  rcases nonneg.eq_or_lt with rfl | positive
  · by_cases single : bins = 1
    · have isLower : (0 : K) = lastLower K bins := (isLastLower.mpr single).symm
      rw [if_neg (lt_irrefl _), if_pos isLower]
      simp [single]
    · have apart : (0 : K) ≠ lastLower K bins := fun same => single (isLastLower.mp same.symm)
      simp [single, apart]
  · by_cases lower : confidence = lastLower K bins
    · have several : bins ≠ 1 := fun single =>
        positive.ne' (lower.trans (isLastLower.mpr single))
      simp [positive, ← lower, several]
    · simp [positive, lower, positive.ne']

/-! ## What the bins hold -/

section Kept

variable {samples : List (K × Bool)}

/-- What a bin reports of the predictions in it. -/
def groupNumbers (group : List (K × Bool)) : ℕ × K × K :=
  (group.length, mean (group.map Prod.fst), flagMean (group.map Prod.snd))

/-- What a bin reports. -/
def Bin.numbers (bin : Bin K) : ℕ × K × K :=
  (bin.count, bin.meanConfidence, bin.accuracy)

/-- The test that a bin is for predictions. -/
def binTest (bins : ℕ) (pair : K × K) (sample : K × Bool) : Bool :=
  inBin (edges K bins) pair.1 pair.2 sample.1

omit [Field K] [LinearOrder K] [IsStrictOrderedRing K] in
theorem masked_eq (mask : K → Bool) (samples : List (K × Bool)) :
    masked mask (samples.map Prod.fst) (samples.map Prod.snd) =
      (samples.filter fun sample => mask sample.1).map Prod.snd := by
  rw [masked]
  congr 2
  exact (List.zip_of_prod rfl rfl).symm

omit [IsStrictOrderedRing K] in
theorem bin?_eq (samples : List (K × Bool)) (bins : ℕ) (pair : K × K) :
    bin? (edges K bins) (samples.map Prod.fst) (samples.map Prod.snd) pair.1 pair.2 =
      if samples.filter (binTest bins pair) = [] then none
      else some {
        lower := pair.1
        upper := pair.2
        count := (groupNumbers (samples.filter (binTest bins pair))).1
        meanConfidence := (groupNumbers (samples.filter (binTest bins pair))).2.1
        accuracy := (groupNumbers (samples.filter (binTest bins pair))).2.2 } := by
  have counted : (samples.map Prod.fst).countP (inBin (edges K bins) pair.1 pair.2) =
      (samples.filter (binTest bins pair)).length := by
    rw [List.countP_map, List.countP_eq_length_filter]
    rfl
  have confidences : (samples.map Prod.fst).filter (inBin (edges K bins) pair.1 pair.2) =
      (samples.filter (binTest bins pair)).map Prod.fst := by
    rw [List.filter_map]
    rfl
  simp only [bin?, counted, confidences, masked_eq, List.length_eq_zero_iff]
  rfl

omit [IsStrictOrderedRing K] in
/-- The kept bins report the groups that are not empty. -/
theorem keptBins_numbers (samples : List (K × Bool)) (bins : ℕ) :
    (keptBins (samples.map Prod.fst) (samples.map Prod.snd) bins).map Bin.numbers =
      (groups ((pairwise (edges K bins)).map (binTest bins)) samples).map groupNumbers := by
  simp only [keptBins, groups, bin?_eq]
  induction pairwise (edges K bins) with
  | nil => rfl
  | cons pair pairs ih =>
      rw [List.filterMap_cons, List.map_cons, List.map_cons]
      cases group : samples.filter (binTest bins pair) with
      | nil => simpa using ih
      | cons sample rest => simpa [Bin.numbers, groupNumbers] using ih

/-- What a bin holds of confidences in the unit interval is in the unit interval. -/
theorem numbers_unit {bins : ℕ} (units : ∀ sample ∈ samples, 0 ≤ sample.1 ∧ sample.1 ≤ 1)
    {bin : Bin K} (isKept : bin ∈ keptBins (samples.map Prod.fst) (samples.map Prod.snd) bins) :
    (0 ≤ bin.meanConfidence ∧ bin.meanConfidence ≤ 1) ∧ 0 ≤ bin.accuracy ∧ bin.accuracy ≤ 1 := by
  have isNumbers : bin.numbers ∈
      (groups ((pairwise (edges K bins)).map (binTest bins)) samples).map groupNumbers := by
    rw [← keptBins_numbers]
    exact List.mem_map_of_mem isKept
  rcases List.mem_map.mp isNumbers with ⟨group, isGroup, same⟩
  rw [groups, List.mem_filter, List.mem_map] at isGroup
  rcases isGroup.1 with ⟨test, _, rfl⟩
  have confidences : bin.meanConfidence = mean ((samples.filter test).map Prod.fst) :=
    congrArg (fun numbers => numbers.2.1) same.symm
  have accuracies : bin.accuracy = flagMean ((samples.filter test).map Prod.snd) :=
    congrArg (fun numbers => numbers.2.2) same.symm
  rw [confidences, accuracies, flagMean]
  constructor
  · apply mean_unit
    intro confidence isConfidence
    rcases List.mem_map.mp isConfidence with ⟨sample, isSample, rfl⟩
    exact units sample (List.mem_of_mem_filter isSample)
  · apply mean_unit
    intro value isValue
    rcases List.mem_map.mp isValue with ⟨flag, _, rfl⟩
    cases flag <;> simp

theorem gap_unit {bins : ℕ} (units : ∀ sample ∈ samples, 0 ≤ sample.1 ∧ sample.1 ≤ 1)
    {bin : Bin K} (isKept : bin ∈ keptBins (samples.map Prod.fst) (samples.map Prod.snd) bins) :
    0 ≤ bin.gap ∧ bin.gap ≤ 1 := by
  rcases numbers_unit units isKept with ⟨confidence, accuracy⟩
  refine ⟨abs_nonneg _, ?_⟩
  rw [Bin.gap, abs_le]
  constructor <;> linarith

end Kept

/-- Every prediction is counted in one bin, and the numbers of the bins add up to those of all
predictions. -/
structure BinsPartition [FloorRing K] (confidences : List K) (correct : List Bool) (bins : ℕ) :
    Prop where
  once : ∀ confidence ∈ confidences, ((pairwise (edges K bins)).countP fun pair =>
    inBin (edges K bins) pair.1 pair.2 confidence) = 1
  counts : ((keptBins confidences correct bins).map Bin.count).sum = confidences.length
  error : (loop confidences correct bins).ece =
    weightedMean ((keptBins confidences correct bins).map fun bin => (bin.count, bin.gap))
  errorUnit : 0 ≤ (loop confidences correct bins).ece ∧ (loop confidences correct bins).ece ≤ 1
  meanConfidence : weightedMean ((keptBins confidences correct bins).map fun bin =>
    (bin.count, bin.meanConfidence)) = mean confidences
  meanAccuracy : weightedMean ((keptBins confidences correct bins).map fun bin =>
    (bin.count, bin.accuracy)) = flagMean correct

omit [IsStrictOrderedRing K] in
/-- The bins of predictions that each pass one of the tests count all of them. -/
theorem sum_count_keptBins {samples : List (K × Bool)} {bins : ℕ}
    (sorts : Sorts ((pairwise (edges K bins)).map (binTest bins)) samples) :
    ((keptBins (samples.map Prod.fst) (samples.map Prod.snd) bins).map Bin.count).sum =
      (samples.map Prod.fst).length := by
  have columns := congrArg (List.map Prod.fst) (keptBins_numbers samples bins)
  rw [List.map_map, List.map_map] at columns
  rw [List.length_map, ← sorts.sum_length_groups]
  exact congrArg List.sum columns

omit [IsStrictOrderedRing K] in
/-- The error is the mean of the gaps weighted by the sizes. -/
theorem ece_eq_weightedMean [FloorRing K] {samples : List (K × Bool)} {bins : ℕ}
    (counts : ((keptBins (samples.map Prod.fst) (samples.map Prod.snd) bins).map Bin.count).sum =
      (samples.map Prod.fst).length) :
    (loop (samples.map Prod.fst) (samples.map Prod.snd) bins).ece =
      weightedMean ((keptBins (samples.map Prod.fst) (samples.map Prod.snd) bins).map fun bin =>
        (bin.count, bin.gap)) := by
  rw [loop_eq, weightedMean, List.map_map, List.map_map]
  have weights : (List.map (Prod.fst ∘ fun bin : Bin K => (bin.count, bin.gap))
      (keptBins (samples.map Prod.fst) (samples.map Prod.snd) bins)).sum =
        (samples.map Prod.fst).length := counts
  rw [weights, div_eq_mul_inv, ← List.sum_map_mul_right]
  apply congrArg List.sum
  apply List.map_congr_left
  intro bin _
  simp only [Function.comp_apply, div_eq_mul_inv]
  ring

theorem binsPartition_of_sorts [FloorRing K] {samples : List (K × Bool)} {bins : ℕ}
    (units : ∀ sample ∈ samples, 0 ≤ sample.1 ∧ sample.1 ≤ 1)
    (once : ∀ confidence ∈ samples.map Prod.fst, ((pairwise (edges K bins)).countP fun pair =>
      inBin (edges K bins) pair.1 pair.2 confidence) = 1) :
    BinsPartition (samples.map Prod.fst) (samples.map Prod.snd) bins := by
  have sorts : Sorts ((pairwise (edges K bins)).map (binTest bins)) samples := by
    intro sample isSample
    rw [List.countP_map]
    exact once sample.1 (List.mem_map_of_mem isSample)
  have numbers := keptBins_numbers samples bins
  have counts := sum_count_keptBins sorts
  have error := ece_eq_weightedMean counts
  have gaps : 0 ≤ weightedMean ((keptBins (samples.map Prod.fst) (samples.map Prod.snd) bins).map
      fun bin => (bin.count, bin.gap)) ∧ weightedMean ((keptBins (samples.map Prod.fst)
        (samples.map Prod.snd) bins).map fun bin => (bin.count, bin.gap)) ≤ 1 := by
    apply weightedMean_unit
    intro value isValue
    rcases List.mem_map.mp isValue with ⟨bin, isKept, rfl⟩
    exact gap_unit units isKept
  refine ⟨once, counts, error, error ▸ gaps, ?_, ?_⟩
  · rw [← sorts.weightedMean_groups]
    have columns := congrArg (List.map fun entry : ℕ × K × K => (entry.1, entry.2.1)) numbers
    rw [List.map_map, List.map_map] at columns
    exact congrArg weightedMean columns
  · rw [flagMean, List.map_map, ← sorts.weightedMean_groups]
    have columns := congrArg (List.map fun entry : ℕ × K × K => (entry.1, entry.2.2)) numbers
    rw [List.map_map, List.map_map] at columns
    simp only [groupNumbers, flagMean, Function.comp_def, List.map_map] at columns
    exact congrArg weightedMean columns

/-- The bins partition the predictions unless there are several bins and a confidence is 0, which
is in no bin, or the lower edge of the final bin, which is in two. -/
theorem binsPartition_iff [FloorRing K] {confidences : List K} {correct : List Bool} {bins : ℕ}
    (some_bin : 1 ≤ bins) (_nonempty : confidences ≠ [])
    (units : ∀ confidence ∈ confidences, 0 ≤ confidence ∧ confidence ≤ 1)
    (matching : correct.length = confidences.length) :
    BinsPartition confidences correct bins ↔
      bins = 1 ∨ ∀ confidence ∈ confidences,
        confidence ≠ 0 ∧ confidence ≠ ((bins - 1 : ℕ) : K) / bins := by
  have single : (∀ confidence ∈ confidences, ((pairwise (edges K bins)).countP fun pair =>
      inBin (edges K bins) pair.1 pair.2 confidence) = 1) ↔
        bins = 1 ∨ ∀ confidence ∈ confidences,
          confidence ≠ 0 ∧ confidence ≠ ((bins - 1 : ℕ) : K) / bins := by
    have each : ∀ confidence ∈ confidences, _ := fun confidence isConfidence =>
      countP_bins_eq_one_iff some_bin (units confidence isConfidence).1
        (units confidence isConfidence).2
    constructor
    · intro once
      by_cases isSingle : bins = 1
      · exact Or.inl isSingle
      · right
        intro confidence isConfidence
        exact ((each confidence isConfidence).mp (once confidence isConfidence)).resolve_left
          isSingle
    · intro apart confidence isConfidence
      apply (each confidence isConfidence).mpr
      exact apart.imp_right fun all => all confidence isConfidence
  rw [← single]
  constructor
  · intro partitions
    exact partitions.once
  · intro once
    have isFirst : (confidences.zip correct).map Prod.fst = confidences :=
      List.map_fst_zip matching.ge
    have isSecond : (confidences.zip correct).map Prod.snd = correct :=
      List.map_snd_zip matching.le
    have zipped : BinsPartition ((confidences.zip correct).map Prod.fst)
        ((confidences.zip correct).map Prod.snd) bins := by
      apply binsPartition_of_sorts
      · intro sample isSample
        exact units sample.1 (List.of_mem_zip isSample).1
      · rwa [isFirst]
    rwa [isFirst, isSecond] at zipped

theorem binsPartition_half_one : BinsPartition [(1 / 2 : ℚ), 1] [true, false] 10 := by
  apply (binsPartition_iff ?_ ?_ ?_ ?_).mpr
  · right
    decide +kernel
  · decide
  · decide
  · decide +kernel
  · rfl

/-- A confidence of 0 is in no bin, one of 9/10 in two of ten bins. -/
theorem not_binsPartition_edges :
    ¬∀ (bins : ℕ) (confidences : List ℚ) (correct : List Bool), 1 ≤ bins → confidences ≠ [] →
      (∀ confidence ∈ confidences, 0 ≤ confidence ∧ confidence ≤ 1) →
      correct.length = confidences.length → BinsPartition confidences correct bins := by
  intro always
  have partitions := always 10 [0, 9 / 10] [false, true] (by decide) (by decide)
    (by decide +kernel) rfl
  have once := partitions.once 0 List.mem_cons_self
  revert once
  decide +kernel

end VisionApi.Evaluation
