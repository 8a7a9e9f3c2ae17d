import VisionApi.Foundation.Fallible
import VisionApi.Foundation.Means
import VisionApi.Foundation.Ranks

/-!
# The summary of a benchmark

`_summarise` reduces the timings of the iterations to a `LatencyResult`.  Numbers
and the fractions of the percentiles are exact; `sqrt` is a parameter.

The percentiles are read from the sorted timings at the index that the fraction of
their number is truncated to.  The value of nearest rank lies one place before wherever
that product is a positive integer, and at the same place elsewhere: this is
`nearestRank_iff`, in terms of the indices, and `Unaffected` names the timings for which
the two places have the same value.

What the summary needs to be made at all is that there are timings and that their mean
is not zero.  The order of the timings never matters, since both sorting and the sums
forget it (`summarise_perm`).
-/

namespace VisionApi.Optimisation

open Foundation

variable {K : Type} [Field K] [LinearOrder K]

/-! ## The summary -/

/-- The keyword arguments that are passed on to the result. -/
structure Extra (K : Type) where
  model : String := "classifier"
  modelSizeMb : Option K := none
  accuracyTop1 : Option K := none
  notes : String := ""

/-- What was measured. -/
structure Setting where
  backend : String
  precision : String
  batchSize : ℕ
  device : String
  warmup : ℕ

/-- The figures of a measurement. -/
structure LatencyResult (K : Type) extends Setting, Extra K where
  meanMs : K
  stdMs : K
  p50Ms : K
  p95Ms : K
  p99Ms : K
  minMs : K
  maxMs : K
  throughputIps : K
  iterations : ℕ

/-- Why there is no summary. -/
inductive SummaryError where
  /-- `statistics.fmean` of no data. -/
  | statistics
  | index
  | zeroDivision

/-- `sorted`. -/
def sortedTimings (timings : List K) : List K :=
  timings.insertionSort (· ≤ ·)

/-- The timing at an index. -/
def entryAt (ordered : List K) (index : ℕ) : Except SummaryError K :=
  match ordered[index]? with
  | none => .error .index
  | some timing => .ok timing

/-- The timing at the truncated fraction of the number of timings. -/
def percentile (ordered : List K) (p : ℚ) : Except SummaryError K :=
  entryAt ordered (min ⌊(ordered.length : ℚ) * p⌋₊ (ordered.length - 1))

/-- The mean, which needs data. -/
def fmean (timings : List K) : Except SummaryError K :=
  if timings.isEmpty then .error .statistics else .ok (mean timings)

/-- `statistics.stdev`, of two timings at least. -/
def stdev (sqrt : K → K) (timings : List K) : K :=
  sqrt ((timings.map fun timing => (timing - mean timings) * (timing - mean timings)).sum /
    ((timings.length - 1 : ℕ) : K))

/-- A division, which raises on zero. -/
def divide (dividend divisor : K) : Except SummaryError K :=
  if divisor = 0 then .error .zeroDivision else .ok (dividend / divisor)

/-- `_summarise`. -/
def summarise (sqrt : K → K) (timings : List K) (setting : Setting) (extra : Extra K) :
    Except SummaryError (LatencyResult K) := do
  let ordered := sortedTimings timings
  let meanMs ← fmean timings
  let p50 ← percentile ordered (1 / 2)
  let p95 ← percentile ordered (19 / 20)
  let p99 ← percentile ordered (99 / 100)
  let least ← entryAt ordered 0
  let greatest ← entryAt ordered (ordered.length - 1)
  let throughput ← divide ((setting.batchSize : K) * ((1000 : ℕ) : K)) meanMs
  return {
    toSetting := setting
    toExtra := extra
    meanMs := meanMs
    stdMs := if 1 < timings.length then stdev sqrt timings else 0
    p50Ms := p50
    p95Ms := p95
    p99Ms := p99
    minMs := least
    maxMs := greatest
    throughputIps := throughput
    iterations := timings.length }

/-! ## Sorting -/

omit [Field K] in
theorem sortedTimings_perm (timings : List K) : (sortedTimings timings).Perm timings :=
  List.perm_insertionSort _ _

omit [Field K] in
theorem sortedTimings_pairwise (timings : List K) : (sortedTimings timings).Pairwise (· ≤ ·) :=
  List.pairwise_insertionSort _ _

omit [Field K] in
theorem sortedTimings_eq_of_perm {timings others : List K} (permutes : others.Perm timings) :
    sortedTimings others = sortedTimings timings := by
  apply List.Perm.eq_of_pairwise (fun _ _ _ _ below above => le_antisymm below above)
  · exact sortedTimings_pairwise others
  · exact sortedTimings_pairwise timings
  · exact ((sortedTimings_perm others).trans permutes).trans (sortedTimings_perm timings).symm

theorem summarise_perm (sqrt : K → K) {timings others : List K} (permutes : others.Perm timings)
    (setting : Setting) (extra : Extra K) :
    summarise sqrt others setting extra = summarise sqrt timings setting extra := by
  have sameMean : fmean others = fmean timings := by
    rw [fmean, fmean, mean_perm permutes, permutes.isEmpty_eq]
  have sameStdev : stdev sqrt others = stdev sqrt timings := by
    rw [stdev, stdev, mean_perm permutes, permutes.length_eq, (permutes.map _).sum_eq]
  simp only [summarise, sortedTimings_eq_of_perm permutes, sameMean, sameStdev,
    permutes.length_eq]

omit [Field K] in
theorem sortedTimings_length_pos {timings : List K} (nonempty : timings ≠ []) :
    0 < (sortedTimings timings).length := by
  rw [(sortedTimings_perm timings).length_eq]
  exact List.length_pos_iff.mpr nonempty

/-! ## Percentiles -/

omit [Field K] [LinearOrder K] in
theorem entryAt_ok_iff {ordered : List K} {index : ℕ} {timing : K} :
    entryAt ordered index = .ok timing ↔ ordered[index]? = some timing := by
  rw [entryAt]
  cases ordered[index]? with
  | none => simp
  | some found => simp

theorem floor_lt_length {size : ℕ} {p : ℚ} (nonempty : 0 < size) (nonneg : 0 ≤ p) (below : p < 1) :
    ⌊(size : ℚ) * p⌋₊ < size := by
  have positive : (0 : ℚ) < size := Nat.cast_pos.mpr nonempty
  rw [Nat.floor_lt (mul_nonneg positive.le nonneg)]
  exact mul_lt_of_lt_one_right positive below

omit [Field K] [LinearOrder K] in
/-- The percentile of a fraction below one is the entry at the truncated index. -/
theorem percentile_ok_iff {ordered : List K} {p : ℚ} (nonneg : 0 ≤ p) (below : p < 1)
    (nonempty : 0 < ordered.length) {timing : K} :
    percentile ordered p = .ok timing ↔ ordered[⌊(ordered.length : ℚ) * p⌋₊]? = some timing := by
  have inside := floor_lt_length nonempty nonneg below
  have least : min ⌊(ordered.length : ℚ) * p⌋₊ (ordered.length - 1) =
      ⌊(ordered.length : ℚ) * p⌋₊ := Nat.min_eq_left (by omega)
  rw [percentile, least, entryAt_ok_iff]

/-- No rank is exactly the fraction of the size, or the entries on both sides of it are equal. -/
def Unaffected (ordered : List K) (p : ℚ) : Prop :=
  ∀ rank : ℕ, (rank : ℚ) = p * ordered.length → ordered[rank]? = ordered[rank - 1]?

omit [Field K] in
/-- The value of a fraction is the entry before the rounded-up rank. -/
theorem nearestRank_iff {ordered : List K} {p : ℚ} (isSorted : ordered.Pairwise (· ≤ ·))
    (positive : 0 < p) (below : p < 1) (nonempty : 0 < ordered.length) {timing : K} :
    NearestRank p ordered timing ↔ ordered[⌈p * ordered.length⌉₊ - 1]? = some timing := by
  have size : (0 : ℚ) < ordered.length := Nat.cast_pos.mpr nonempty
  have most : ⌈p * ordered.length⌉₊ ≤ ordered.length := by
    apply Nat.ceil_le.mpr
    exact mul_le_of_le_one_left size.le below.le
  have inside : ⌈p * ordered.length⌉₊ - 1 < ordered.length := by omega
  have isRank := nearestRank_getElem isSorted positive inside
  rw [List.getElem?_eq_getElem inside, Option.some.injEq]
  constructor
  · intro alsoRank
    exact isRank.unique alsoRank
  · rintro rfl
    exact isRank

omit [Field K] in
/-- The entry at the truncated rank is the nearest rank only where the rank is no whole number,
apart from equal entries. -/
theorem percentile_nearestRank_iff {ordered : List K} {p : ℚ} (isSorted : ordered.Pairwise (· ≤ ·))
    (positive : 0 < p) (below : p < 1) (nonempty : 0 < ordered.length) {timing : K}
    (reported : percentile ordered p = .ok timing) :
    NearestRank p ordered timing ↔ Unaffected ordered p := by
  have isEntry := (percentile_ok_iff positive.le below nonempty).mp reported
  rw [mul_comm] at isEntry
  rw [nearestRank_iff isSorted positive below nonempty]
  by_cases whole : ∃ rank : ℕ, (rank : ℚ) = p * ordered.length
  · rcases whole with ⟨rank, isRank⟩
    rw [← isRank, Nat.floor_natCast] at isEntry
    rw [← isRank, Nat.ceil_natCast, ← isEntry]
    constructor
    · intro same other isOther
      have isSame : other = rank := Nat.cast_injective (isOther.trans isRank.symm)
      rw [isSame]
      exact same.symm
    · intro unaffected
      exact (unaffected rank isRank).symm
  · have isUnaffected : Unaffected ordered p := fun rank isRank => absurd ⟨rank, isRank⟩ whole
    have size : (0 : ℚ) < ordered.length := Nat.cast_pos.mpr nonempty
    have scaled : 0 < p * ordered.length := mul_pos positive size
    have above : (⌊p * ordered.length⌋₊ : ℚ) < p * ordered.length :=
      lt_of_le_of_ne (Nat.floor_le scaled.le) fun same => whole ⟨_, same⟩
    have ceiling : ⌈p * ordered.length⌉₊ = ⌊p * ordered.length⌋₊ + 1 := by
      rw [Nat.ceil_eq_iff (Nat.succ_ne_zero _), Nat.succ_sub_one, Nat.cast_succ]
      exact ⟨above, (Nat.lt_floor_add_one _).le⟩
    rw [ceiling, Nat.add_sub_cancel]
    exact iff_of_true isEntry isUnaffected

/-! ## The reported percentiles -/

/-- The figures are what their names say. -/
structure NearestRanks (sqrt : K → K) (timings : List K) (setting : Setting) (extra : Extra K)
    (result : LatencyResult K) : Prop where
  p50 : NearestRank (1 / 2) timings result.p50Ms
  p95 : NearestRank (19 / 20) timings result.p95Ms
  p99 : NearestRank (99 / 100) timings result.p99Ms
  ordered : result.p50Ms ≤ result.p95Ms ∧ result.p95Ms ≤ result.p99Ms ∧
    result.p99Ms ≤ result.maxMs
  observed : result.p50Ms ∈ timings ∧ result.p95Ms ∈ timings ∧ result.p99Ms ∈ timings ∧
    result.maxMs ∈ timings
  permutes : ∀ others : List K, others.Perm timings →
    summarise sqrt others setting extra = .ok result

/-- What the figures are, as they are computed. -/
structure Summarised (timings : List K) (result : LatencyResult K) : Prop where
  mean : mean timings ≠ 0
  p50 : percentile (sortedTimings timings) (1 / 2) = .ok result.p50Ms
  p95 : percentile (sortedTimings timings) (19 / 20) = .ok result.p95Ms
  p99 : percentile (sortedTimings timings) (99 / 100) = .ok result.p99Ms
  greatest : (sortedTimings timings)[(sortedTimings timings).length - 1]? = some result.maxMs

/-- A summary that is made has these figures. -/
theorem summarised_of_ok {sqrt : K → K} {timings : List K} {setting : Setting} {extra : Extra K}
    {result : LatencyResult K} (reported : summarise sqrt timings setting extra = .ok result) :
    Summarised timings result := by
  simp only [summarise, bind_ok_iff] at reported
  rcases reported with ⟨meanMs, isMean, p50, is50, p95, is95, p99, is99, least, _, greatest,
    isGreatest, throughput, isThroughput, ⟨⟩⟩
  refine ⟨?_, is50, is95, is99, entryAt_ok_iff.mp isGreatest⟩
  simp only [fmean] at isMean
  split at isMean
  · cases isMean
  · cases isMean
    simp only [divide] at isThroughput
    split at isThroughput
    · cases isThroughput
    · assumption

/-- A summary is made of all timings, unless there are none or their mean is 0. -/
theorem summarise_succeeds_iff (sqrt : K → K) (timings : List K) (setting : Setting)
    (extra : Extra K) :
    Succeeds (summarise sqrt timings setting extra) ↔ timings ≠ [] ∧ mean timings ≠ 0 := by
  constructor
  · rintro ⟨result, reported⟩
    have parts := summarised_of_ok reported
    refine ⟨?_, parts.mean⟩
    rintro rfl
    exact parts.mean (by simp [mean])
  · rintro ⟨nonempty, nonzero⟩
    have isPositive := sortedTimings_length_pos nonempty
    have found : ∀ p : ℚ, 0 ≤ p → p < 1 → Succeeds (percentile (sortedTimings timings) p) := by
      intro p nonneg below
      have inside := floor_lt_length isPositive nonneg below
      exact ⟨_, (percentile_ok_iff nonneg below isPositive).mpr (List.getElem?_eq_getElem inside)⟩
    have entries : ∀ index < (sortedTimings timings).length,
        Succeeds (entryAt (sortedTimings timings) index) := by
      intro index inside
      exact ⟨_, entryAt_ok_iff.mpr (List.getElem?_eq_getElem inside)⟩
    have isMean : fmean timings = .ok (mean timings) := by
      simp [fmean, nonempty]
    rcases found (1 / 2) (by norm_num) (by norm_num) with ⟨p50, is50⟩
    rcases found (19 / 20) (by norm_num) (by norm_num) with ⟨p95, is95⟩
    rcases found (99 / 100) (by norm_num) (by norm_num) with ⟨p99, is99⟩
    rcases entries 0 isPositive with ⟨least, isLeast⟩
    rcases entries ((sortedTimings timings).length - 1) (by omega) with ⟨greatest, isGreatest⟩
    have isThroughput : divide ((setting.batchSize : K) * ((1000 : ℕ) : K)) (mean timings) =
        .ok _ := if_neg nonzero
    simp only [summarise, bind_succeeds_iff]
    exact ⟨_, isMean, _, is50, _, is95, _, is99, _, isLeast, _, isGreatest, _, isThroughput,
      succeeds_ok _⟩

omit [Field K] in
theorem entries_le {ordered : List K} (isSorted : ordered.Pairwise (· ≤ ·)) {low high : ℕ}
    {lower upper : K} (before : low ≤ high) (isLower : ordered[low]? = some lower)
    (isUpper : ordered[high]? = some upper) : lower ≤ upper := by
  rcases List.getElem?_eq_some_iff.mp isLower with ⟨_, rfl⟩
  rcases List.getElem?_eq_some_iff.mp isUpper with ⟨inside, rfl⟩
  exact getElem_le_getElem isSorted before inside

section Reported

variable {sqrt : K → K} {timings : List K} {setting : Setting} {extra : Extra K}
  {result : LatencyResult K}

omit [Field K] in
theorem percentile_le (nonempty : timings ≠ []) {p q : ℚ} {lower upper : K} (nonneg : 0 ≤ p)
    (ordered : p ≤ q) (below : q < 1) (isLower : percentile (sortedTimings timings) p = .ok lower)
    (isUpper : percentile (sortedTimings timings) q = .ok upper) : lower ≤ upper := by
  have isPositive := sortedTimings_length_pos nonempty
  rw [percentile_ok_iff nonneg (ordered.trans_lt below) isPositive] at isLower
  rw [percentile_ok_iff (nonneg.trans ordered) below isPositive] at isUpper
  apply entries_le (sortedTimings_pairwise timings) _ isLower isUpper
  exact Nat.floor_mono (mul_le_mul_of_nonneg_left ordered (Nat.cast_nonneg _))

omit [Field K] in
/-- A member of the sorted timings is a timing, and at most the reported maximum. -/
theorem percentile_mem (nonempty : timings ≠ []) {p : ℚ} {timing : K} (nonneg : 0 ≤ p)
    (below : p < 1) (isTiming : percentile (sortedTimings timings) p = .ok timing) :
    timing ∈ timings ∧ ∀ greatest, (sortedTimings timings)[(sortedTimings timings).length - 1]? =
      some greatest → timing ≤ greatest := by
  have isPositive := sortedTimings_length_pos nonempty
  rw [percentile_ok_iff nonneg below isPositive] at isTiming
  constructor
  · exact (sortedTimings_perm timings).mem_iff.mp (List.mem_of_getElem? isTiming)
  · intro greatest isGreatest
    apply entries_le (sortedTimings_pairwise timings) _ isTiming isGreatest
    have inside := floor_lt_length isPositive nonneg below
    omega

/-- The reported percentiles are nearest ranks unless one falls on a whole rank between unequal
timings. -/
theorem nearestRanks_iff_of_ok (nonempty : timings ≠ [])
    (reported : summarise sqrt timings setting extra = .ok result) :
    NearestRanks sqrt timings setting extra result ↔
      ∀ p ∈ [1 / 2, 19 / 20, 99 / 100], Unaffected (sortedTimings timings) p := by
  have parts := summarised_of_ok reported
  have isPositive := sortedTimings_length_pos nonempty
  have ranks : ∀ {p : ℚ} {timing : K}, 0 < p → p < 1 →
      percentile (sortedTimings timings) p = .ok timing →
      (NearestRank p timings timing ↔ Unaffected (sortedTimings timings) p) := by
    intro p timing positive below isTiming
    rw [← NearestRank.perm (sortedTimings_perm timings)]
    exact percentile_nearestRank_iff (sortedTimings_pairwise timings) positive below isPositive
      isTiming
  have rank50 := ranks (by norm_num) (by norm_num) parts.p50
  have rank95 := ranks (by norm_num) (by norm_num) parts.p95
  have rank99 := ranks (by norm_num) (by norm_num) parts.p99
  simp only [List.forall_mem_cons, List.not_mem_nil, false_imp_iff, implies_true, and_true]
  constructor
  · intro nearest
    exact ⟨rank50.mp nearest.p50, rank95.mp nearest.p95, rank99.mp nearest.p99⟩
  · rintro ⟨unaffected50, unaffected95, unaffected99⟩
    have in50 := percentile_mem nonempty (by norm_num) (by norm_num) parts.p50
    have in95 := percentile_mem nonempty (by norm_num) (by norm_num) parts.p95
    have in99 := percentile_mem nonempty (by norm_num) (by norm_num) parts.p99
    refine ⟨rank50.mpr unaffected50, rank95.mpr unaffected95, rank99.mpr unaffected99, ?_, ?_, ?_⟩
    · refine ⟨?_, ?_, in99.2 _ parts.greatest⟩
      · exact percentile_le nonempty (by norm_num) (by norm_num) (by norm_num) parts.p50 parts.p95
      · exact percentile_le nonempty (by norm_num) (by norm_num) (by norm_num) parts.p95 parts.p99
    · have isLast := (sortedTimings_perm timings).mem_iff.mp
        (List.mem_of_getElem? parts.greatest)
      exact ⟨in50.1, in95.1, in99.1, isLast⟩
    · intro others permutes
      rw [summarise_perm sqrt permutes, reported]

end Reported

/-- A summary with nearest ranks is made unless the mean of the timings is 0 or a percentile falls
on a whole rank between unequal timings. -/
theorem summarise_nearestRanks_iff (sqrt : K → K) {timings : List K} (nonempty : timings ≠ [])
    (setting : Setting) (extra : Extra K) :
    (∃ result, summarise sqrt timings setting extra = .ok result ∧
        NearestRanks sqrt timings setting extra result) ↔
      mean timings ≠ 0 ∧
        ∀ p ∈ [1 / 2, 19 / 20, 99 / 100], Unaffected (sortedTimings timings) p := by
  constructor
  · rintro ⟨result, reported, nearest⟩
    refine ⟨(summarised_of_ok reported).mean, ?_⟩
    exact (nearestRanks_iff_of_ok nonempty reported).mp nearest
  · rintro ⟨nonzero, unaffected⟩
    rcases (summarise_succeeds_iff sqrt timings setting extra).mpr ⟨nonempty, nonzero⟩ with
      ⟨result, reported⟩
    exact ⟨result, reported, (nearestRanks_iff_of_ok nonempty reported).mpr unaffected⟩

/-- Three timings, given out of order. -/
theorem summarise_nearestRanks_three :
    ∃ result, summarise id [3, 1, (2 : ℚ)] ⟨"onnxruntime-cpu", "fp32", 1, "cpu", 10⟩ {} =
        .ok result ∧
      NearestRanks id [3, 1, 2] ⟨"onnxruntime-cpu", "fp32", 1, "cpu", 10⟩ {} result := by
  apply (summarise_nearestRanks_iff id ?_ _ _).mpr
  · refine ⟨by decide +kernel, ?_⟩
    have size : (sortedTimings [3, 1, (2 : ℚ)]).length = 3 := by decide +kernel
    intro p isFraction rank isRank
    rw [size] at isRank
    simp only [List.mem_cons, List.not_mem_nil, or_false] at isFraction
    rcases isFraction with rfl | rfl | rfl
    · have doubled : 2 * rank = 3 := by
        have scaled : (2 : ℚ) * rank = 3 := by linarith
        exact_mod_cast scaled
      omega
    · have scaled : 20 * rank = 57 := by
        have scaled : (20 : ℚ) * rank = 57 := by linarith
        exact_mod_cast scaled
      omega
    · have scaled : 100 * rank = 297 := by
        have scaled : (100 : ℚ) * rank = 297 := by linarith
        exact_mod_cast scaled
      omega
  · decide

/-- The median that is reported of the timings 1 and 2 is 2. -/
theorem summarise_above_nearestRank :
    ¬∀ (sqrt : ℚ → ℚ) (timings : List ℚ) (setting : Setting) (extra : Extra ℚ)
      (result : LatencyResult ℚ), timings ≠ [] →
      summarise sqrt timings setting extra = .ok result →
      NearestRanks sqrt timings setting extra result := by
  intro always
  have reports : Succeeds (summarise id [1, (2 : ℚ)]
      ⟨"onnxruntime-cpu", "fp32", 1, "cpu", 10⟩ {}) :=
    (summarise_succeeds_iff _ _ _ _).mpr (by decide +kernel)
  rcases reports with ⟨result, reported⟩
  have nearest := always id _ _ _ _ (List.cons_ne_nil _ _) reported
  have unaffected := (nearestRanks_iff_of_ok (List.cons_ne_nil _ _) reported).mp nearest
  have same := unaffected (1 / 2) List.mem_cons_self 1 (by decide +kernel)
  revert same
  decide +kernel

end VisionApi.Optimisation
