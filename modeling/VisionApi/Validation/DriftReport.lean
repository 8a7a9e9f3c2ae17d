import VisionApi.Foundation.Ecdf
import VisionApi.Validation.Drift

/-!
# The drift report

`compare_windows` assesses each feature of two windows of audit rows by one statistic,
in exact arithmetic: the population stability index of a categorical feature, and the
Kolmogorov-Smirnov statistic of a continuous one.

The statistics of `scipy` and `math` are a parameter that conforms to their documented
values; the p-value is reported and decides nothing.  A severity is computed from the
values of a feature alone, so that the report is a list of severities by feature
(`compareWindows_severities`), and what the whole report says is a function of this list
(`overall`).

Three things are proved about it.  The script fails exactly if it was asked to and some
feature has drifted significantly, in terms of the rows (`SignificantDrift`).  The
severities depend on the proportions of the values in each window only, as long as there
are enough of them.  And two windows with the same proportions raise no alarm.
-/

namespace VisionApi.Validation

open Foundation

/-! ## The report -/

/-- How much a feature has drifted. -/
inductive DriftSeverity where
  | none
  | moderate
  | significant
  | insufficientData
deriving DecidableEq

/-- Without the text of its details. -/
structure DriftResult (K : Type) where
  feature : String
  statistic : K
  method : String
  severity : DriftSeverity
  pValue : Option K
  baselineSize : ℕ
  currentSize : ℕ

/-- The results by feature. -/
structure DriftReport (K : Type) where
  results : List (DriftResult K)
  modelName : String
  modelVersion : String

variable {K : Type}

/-- A feature has drifted, at least moderately. -/
def DriftResult.drifted (result : DriftResult K) : Bool :=
  result.severity = .moderate || result.severity = .significant

/-- The features that have drifted. -/
def DriftReport.driftedFeatures (report : DriftReport K) : List (DriftResult K) :=
  report.results.filter DriftResult.drifted

/-- The worst severity. -/
def DriftReport.overallSeverity (report : DriftReport K) : DriftSeverity :=
  if report.results.isEmpty then .insufficientData
  else if report.results.any fun result => result.severity = .significant then .significant
  else if report.results.any fun result => result.severity = .moderate then .moderate
  else if report.results.all fun result => result.severity = .insufficientData then
    .insufficientData
  else .none

/-- A row of `inference_logs`, as far as it is compared. -/
structure AuditRow (K : Type) where
  topLabel : Option String
  imageFormat : Option String
  imageWidth : Option K
  imageHeight : Option K
  imageBytes : Option K
  latencyMs : Option K

/-- The features that are compared by category. -/
def categoricalFeatures : List (String × (AuditRow K → Option String)) :=
  [("top_label", AuditRow.topLabel), ("image_format", AuditRow.imageFormat)]

/-- The features that are compared by value. -/
def continuousFeatures : List (String × (AuditRow K → Option K)) :=
  [("image_width", AuditRow.imageWidth), ("image_height", AuditRow.imageHeight),
    ("image_bytes", AuditRow.imageBytes), ("latency_ms", AuditRow.latencyMs)]

/-! ## Detection -/

/-- What the detectors call: `math.log`, the order of a set of categories, and `stats.ks_2samp`. -/
structure DriftStatistics (K : Type) where
  log : K → K
  categories : List String → List String → List String
  ks2samp : List K → List K → K × K

/-- The number of values that a comparison needs. -/
def minSamples : ℕ := 100

variable [Field K] [LinearOrder K]

/-- A number of hundredths. -/
def hundredths (K : Type) [Field K] (count : ℕ) : K :=
  (count : K) / ((100 : ℕ) : K)

/-- The index below which nothing has shifted. -/
def psiNoShift (K : Type) [Field K] : K := hundredths K 10

/-- The index from which a shift is significant. -/
def psiModerateShift (K : Type) [Field K] : K := hundredths K 25

/-- The distance from which a shift is material. -/
def ksMaterialStatistic (K : Type) [Field K] : K := hundredths K 15

/-- The least share. -/
def epsilon (K : Type) [Field K] : K :=
  ((1000000 : ℕ) : K)⁻¹

/-- The severity of a statistic by the bounds of two bands. -/
def bands (moderate significant statistic : K) : DriftSeverity :=
  if significant ≤ statistic then .significant
  else if moderate ≤ statistic then .moderate
  else .none

/-- The result for too few values. -/
def insufficient (feature method : String) (baselineSize currentSize : ℕ) : DriftResult K :=
  ⟨feature, 0, method, .insufficientData, none, baselineSize, currentSize⟩

/-- The result for a categorical feature. -/
def detectCategoricalDrift (statistics : DriftStatistics K) (feature : String)
    (baseline current : List String) : Except DriftError (DriftResult K) :=
  if baseline.length < minSamples ∨ current.length < minSamples then
    .ok (insufficient feature "psi" baseline.length current.length)
  else do
    let (psi, _) ← populationStabilityIndex statistics.log id (epsilon K)
      (statistics.categories baseline current) baseline current
    .ok ⟨feature, psi, "psi", bands (psiNoShift K) (psiModerateShift K) psi, none,
      baseline.length, current.length⟩

/-- The result for a continuous feature. -/
def detectContinuousDrift (statistics : DriftStatistics K) (feature : String)
    (baseline current : List K) : DriftResult K :=
  if baseline.length < minSamples ∨ current.length < minSamples then
    insufficient feature "ks" baseline.length current.length
  else
    let (statistic, pValue) := statistics.ks2samp baseline current
    ⟨feature, statistic, "ks",
      bands (ksMaterialStatistic K) (ksMaterialStatistic K * ((2 : ℕ) : K)) statistic,
      some pValue, baseline.length, current.length⟩

/-- The values of a feature in both windows, if either has any. -/
def valuesOf {Value : Type} (baseline current : List (AuditRow K))
    (feature : String × (AuditRow K → Option Value)) :
    Option (String × List Value × List Value) :=
  let baselineValues := baseline.filterMap feature.2
  let currentValues := current.filterMap feature.2
  if baselineValues.isEmpty && currentValues.isEmpty then none
  else some (feature.1, baselineValues, currentValues)

/-- Compare all features that have values. -/
def compareWindows (statistics : DriftStatistics K) (baseline current : List (AuditRow K))
    (modelName modelVersion : String) : Except DriftError (DriftReport K) := do
  let categorical ← (categoricalFeatures.filterMap (valuesOf baseline current)).mapM
    fun entry => detectCategoricalDrift statistics entry.1 entry.2.1 entry.2.2
  let continuous := (continuousFeatures.filterMap (valuesOf baseline current)).map
    fun entry => detectContinuousDrift statistics entry.1 entry.2.1 entry.2.2
  .ok ⟨categorical ++ continuous, modelName, modelVersion⟩

/-- The exit code of `analyse_drift.run` on the windows it fetched. -/
def analyseDrift (statistics : DriftStatistics K) (failOnDrift : Bool)
    (baseline current : List (AuditRow K)) (modelName modelVersion : String) :
    Except DriftError ℕ :=
  if baseline.isEmpty || current.isEmpty then .ok 0
  else do
    let report ← compareWindows statistics baseline current modelName modelVersion
    .ok (if failOnDrift && report.overallSeverity = .significant then 1 else 0)

/-! ## Severities -/

section Severities

/-- The feature and the severity of each result. -/
def DriftReport.severities (report : DriftReport K) : List (String × DriftSeverity) :=
  report.results.map fun result => (result.feature, result.severity)

/-- The overall severity of features with these severities. -/
def overall (severities : List (String × DriftSeverity)) : DriftSeverity :=
  if severities.isEmpty then .insufficientData
  else if severities.any fun entry => entry.2 = .significant then .significant
  else if severities.any fun entry => entry.2 = .moderate then .moderate
  else if severities.all fun entry => entry.2 = .insufficientData then .insufficientData
  else .none

omit [Field K] [LinearOrder K] in
/-- The worst severity is a function of the severities. -/
theorem overallSeverity_eq (report : DriftReport K) :
    report.overallSeverity = overall report.severities := by
  simp [DriftReport.overallSeverity, overall, DriftReport.severities, List.any_map, List.all_map,
    Function.comp_def]

/-- The worst severity is significant exactly if one of them is. -/
theorem overall_eq_significant_iff {severities : List (String × DriftSeverity)} :
    overall severities = .significant ↔ ∃ entry ∈ severities, entry.2 = .significant := by
  have isAny : (severities.any fun entry => entry.2 = .significant) = true ↔
      ∃ entry ∈ severities, entry.2 = .significant := by
    simp
  rw [← isAny]
  simp only [overall]
  split
  · rename_i isEmpty
    simp [List.isEmpty_iff.mp isEmpty]
  · split
    · rename_i significant
      simp [significant]
    · rename_i notSignificant
      split
      · simp [notSignificant]
      · split <;> simp [notSignificant]

end Severities

/-! ## What the severities depend on -/

section Laws

/-- The documented behaviour of what is called. -/
structure DriftStatistics.Conforms (statistics : DriftStatistics ℝ) : Prop where
  log : statistics.log = Real.log
  categories : ∀ baseline current, Iterates (statistics.categories baseline current)
    baseline current
  ks2samp : ∀ baseline current, baseline ≠ [] → current ≠ [] →
    (statistics.ks2samp baseline current).1 = ksDistance ℝ baseline current

/-- The severity of a categorical feature. -/
noncomputable def categoricalSeverity (baseline current : List String) : DriftSeverity :=
  if baseline.length < minSamples ∨ current.length < minSamples then .insufficientData
  else bands (psiNoShift ℝ) (psiModerateShift ℝ) (divergence (baseline ++ current).toFinset
    (share (epsilon ℝ) baseline) (share (epsilon ℝ) current))

/-- The severity of a continuous feature. -/
noncomputable def continuousSeverity (baseline current : List ℝ) : DriftSeverity :=
  if baseline.length < minSamples ∨ current.length < minSamples then .insufficientData
  else bands (ksMaterialStatistic ℝ) (ksMaterialStatistic ℝ * ((2 : ℕ) : ℝ))
    (ksDistance ℝ baseline current)

/-- The severities of the features that are present. -/
noncomputable def severitiesOf (baseline current : List (AuditRow ℝ)) :
    List (String × DriftSeverity) :=
  (categoricalFeatures.filterMap fun feature => (valuesOf baseline current feature).map
    fun entry => (entry.1, categoricalSeverity entry.2.1 entry.2.2)) ++
  continuousFeatures.filterMap fun feature => (valuesOf baseline current feature).map
    fun entry => (entry.1, continuousSeverity entry.2.1 entry.2.2)

/-- The statistics, computed exactly. -/
noncomputable def exactStatistics : DriftStatistics ℝ where
  log := Real.log
  categories baseline current := (baseline ++ current).dedup
  ks2samp baseline current := (ksDistance ℝ baseline current, 0)

/-- The exact statistics conform. -/
theorem exactStatistics_conforms : exactStatistics.Conforms := by
  refine ⟨rfl, ?_, fun _ _ _ _ => rfl⟩
  intro baseline current
  refine ⟨List.nodup_dedup _, ?_⟩
  intro category
  rw [mem_keys_counter, mem_keys_counter]
  simp [exactStatistics]

/-- A row with a label and the width of its image, from a log without sizes in bytes. -/
noncomputable def labelledRow (label : String) (width : ℕ) : AuditRow ℝ :=
  ⟨some label, some "JPEG", some width, some 1, none, some 1⟩

/-- As many equal rows as a window needs. -/
noncomputable def uniformWindow (label : String) (width : ℕ) : List (AuditRow ℝ) :=
  List.replicate minSamples (labelledRow label width)

variable {statistics : DriftStatistics ℝ}

theorem epsilon_pos : 0 < epsilon ℝ := by
  norm_num [epsilon]

/-- A categorical feature has its severity. -/
theorem detectCategoricalDrift_severity (conforms : statistics.Conforms) (feature : String)
    (baseline current : List String) :
    ∃ result, detectCategoricalDrift statistics feature baseline current = .ok result ∧
      (result.feature, result.severity) = (feature, categoricalSeverity baseline current) := by
  simp only [detectCategoricalDrift, categoricalSeverity]
  split
  · exact ⟨_, rfl, rfl⟩
  · rw [conforms.log, populationStabilityIndex_eq epsilon_pos
      (conforms.categories baseline current) (Set.injOn_id _)]
    exact ⟨_, rfl, rfl⟩

/-- A continuous feature has its severity. -/
theorem detectContinuousDrift_severity (conforms : statistics.Conforms) (feature : String)
    (baseline current : List ℝ) :
    ((detectContinuousDrift statistics feature baseline current).feature,
        (detectContinuousDrift statistics feature baseline current).severity) =
      (feature, continuousSeverity baseline current) := by
  simp only [detectContinuousDrift, continuousSeverity]
  split
  · rfl
  · rename_i enough
    have baselineNonempty : baseline ≠ [] := by
      rintro rfl
      simp [minSamples] at enough
    have currentNonempty : current ≠ [] := by
      rintro rfl
      simp [minSamples] at enough
    rw [conforms.ks2samp baseline current baselineNonempty currentNonempty]

theorem mapM_severities {Entry : Type} {detect : Entry → Except DriftError (DriftResult ℝ)}
    {severity : Entry → String × DriftSeverity}
    (detects : ∀ entry, ∃ result, detect entry = .ok result ∧
      (result.feature, result.severity) = severity entry) (entries : List Entry) :
    ∃ results, entries.mapM detect = .ok results ∧
      (results.map fun result => (result.feature, result.severity)) = entries.map severity := by
  induction entries with
  | nil => exact ⟨[], rfl, rfl⟩
  | cons entry entries ih =>
      rcases detects entry with ⟨result, detected, isSeverity⟩
      rcases ih with ⟨results, areDetected, areSeverities⟩
      refine ⟨result :: results, ?_, ?_⟩
      · rw [List.mapM_cons, detected]
        simp [areDetected, bind, Except.bind, pure, Except.pure]
      · rw [List.map_cons, List.map_cons, isSeverity, areSeverities]

/-- The comparison always succeeds, with the severity of each feature that is present. -/
theorem compareWindows_severities (conforms : statistics.Conforms)
    (baseline current : List (AuditRow ℝ)) (modelName modelVersion : String) :
    ∃ report, compareWindows statistics baseline current modelName modelVersion = .ok report ∧
      report.severities = severitiesOf baseline current := by
  rcases mapM_severities (fun entry : String × List String × List String =>
      detectCategoricalDrift_severity conforms entry.1 entry.2.1 entry.2.2)
    (categoricalFeatures.filterMap (valuesOf baseline current)) with
    ⟨results, detected, areSeverities⟩
  simp only [compareWindows, detected]
  refine ⟨_, rfl, ?_⟩
  simp only [DriftReport.severities, List.map_append, areSeverities, severitiesOf, Option.map_map,
    List.map_filterMap, Function.comp_def, detectContinuousDrift_severity conforms]

end Laws

/-! ## When the job fails -/

section Failing

variable {statistics : DriftStatistics ℝ} {baseline current : List (AuditRow ℝ)}

/-- Both windows have enough values of a feature. -/
def Populated {Value : Type} (baseline current : List (AuditRow ℝ))
    (feature : String × (AuditRow ℝ → Option Value)) : Prop :=
  minSamples ≤ (baseline.filterMap feature.2).length ∧
    minSamples ≤ (current.filterMap feature.2).length

/-- The index of a feature is that of a significant shift. -/
def CategoricalShift (baseline current : List (AuditRow ℝ))
    (feature : String × (AuditRow ℝ → Option String)) : Prop :=
  psiModerateShift ℝ ≤
    divergence (baseline.filterMap feature.2 ++ current.filterMap feature.2).toFinset
      (share (epsilon ℝ) (baseline.filterMap feature.2))
      (share (epsilon ℝ) (current.filterMap feature.2))

/-- Somewhere the shares of the two windows are far apart. -/
def ContinuousShift (baseline current : List (AuditRow ℝ))
    (feature : String × (AuditRow ℝ → Option ℝ)) : Prop :=
  ∃ point, ksMaterialStatistic ℝ * ((2 : ℕ) : ℝ) ≤
    ecdfGap ℝ (baseline.filterMap feature.2) (current.filterMap feature.2) point

/-- One feature suffices. -/
def SignificantDrift (baseline current : List (AuditRow ℝ)) : Prop :=
  (∃ feature ∈ categoricalFeatures,
    Populated baseline current feature ∧ CategoricalShift baseline current feature) ∨
  ∃ feature ∈ continuousFeatures,
    Populated baseline current feature ∧ ContinuousShift baseline current feature

/-- A statistic is significant from its bound on. -/
theorem bands_eq_significant_iff {moderate significant statistic : ℝ} :
    bands moderate significant statistic = .significant ↔ significant ≤ statistic := by
  simp only [bands]
  split
  · rename_i reached
    simp [reached]
  · rename_i below
    split <;> simp [below]

theorem categoricalSeverity_eq_significant_iff {baseline current : List String} :
    categoricalSeverity baseline current = .significant ↔
      (minSamples ≤ baseline.length ∧ minSamples ≤ current.length) ∧
        psiModerateShift ℝ ≤ divergence (baseline ++ current).toFinset
          (share (epsilon ℝ) baseline) (share (epsilon ℝ) current) := by
  simp only [categoricalSeverity]
  split
  · rename_i tooFew
    simp only [reduceCtorEq, false_iff, not_and]
    omega
  · rename_i enough
    rw [bands_eq_significant_iff]
    have populated : minSamples ≤ baseline.length ∧ minSamples ≤ current.length := by omega
    simp [populated]

theorem continuousSeverity_eq_significant_iff {baseline current : List ℝ} :
    continuousSeverity baseline current = .significant ↔
      (minSamples ≤ baseline.length ∧ minSamples ≤ current.length) ∧
        ∃ point, ksMaterialStatistic ℝ * ((2 : ℕ) : ℝ) ≤ ecdfGap ℝ baseline current point := by
  have positive : 0 < ksMaterialStatistic ℝ * ((2 : ℕ) : ℝ) := by
    norm_num [ksMaterialStatistic, hundredths]
  simp only [continuousSeverity]
  split
  · rename_i tooFew
    simp only [reduceCtorEq, false_iff, not_and]
    omega
  · rename_i enough
    rw [bands_eq_significant_iff, le_ksDistance_iff positive]
    have populated : minSamples ≤ baseline.length ∧ minSamples ≤ current.length := by omega
    simp [populated]

theorem valuesOf_eq_some {Value : Type} (feature : String × (AuditRow ℝ → Option Value))
    (populated : Populated baseline current feature) :
    valuesOf baseline current feature =
      some (feature.1, baseline.filterMap feature.2, current.filterMap feature.2) := by
  have nonempty : baseline.filterMap feature.2 ≠ [] := by
    intro empty
    have enough := populated.1
    simp [empty, minSamples] at enough
  simp [valuesOf, nonempty]

/-- A severity that needs enough values occurs exactly for the features that have them. -/
theorem exists_mem_valuesOf_iff {Value : Type} {severity : List Value → List Value → DriftSeverity}
    {Shifts : List Value → List Value → Prop}
    (isSignificant : ∀ baseline current, severity baseline current = .significant ↔
      (minSamples ≤ baseline.length ∧ minSamples ≤ current.length) ∧ Shifts baseline current)
    (features : List (String × (AuditRow ℝ → Option Value))) :
    (∃ entry ∈ features.filterMap fun feature => (valuesOf baseline current feature).map
        fun entry => (entry.1, severity entry.2.1 entry.2.2), entry.2 = .significant) ↔
      ∃ feature ∈ features, Populated baseline current feature ∧
        Shifts (baseline.filterMap feature.2) (current.filterMap feature.2) := by
  constructor
  · intro occurs
    rcases occurs with ⟨entry, isEntry, significant⟩
    rcases List.mem_filterMap.mp isEntry with ⟨feature, isFeature, found⟩
    refine ⟨feature, isFeature, ?_⟩
    simp only [valuesOf] at found
    split at found
    · simp at found
    · simp only [Option.map_some, Option.some.injEq] at found
      subst found
      exact (isSignificant _ _).mp significant
  · intro occurs
    rcases occurs with ⟨feature, isFeature, populated, shifts⟩
    refine ⟨(feature.1, severity (baseline.filterMap feature.2) (current.filterMap feature.2)),
      List.mem_filterMap.mpr ⟨feature, isFeature, ?_⟩, ?_⟩
    · rw [valuesOf_eq_some feature populated, Option.map_some]
    · exact (isSignificant _ _).mpr ⟨populated, shifts⟩

/-- The worst severity is significant exactly if a feature drifted so. -/
theorem overall_severitiesOf_eq_significant_iff :
    overall (severitiesOf baseline current) = .significant ↔ SignificantDrift baseline current := by
  rw [overall_eq_significant_iff, SignificantDrift, severitiesOf]
  simp only [List.mem_append, or_and_right, exists_or]
  apply or_congr
  · exact exists_mem_valuesOf_iff (fun _ _ => categoricalSeverity_eq_significant_iff) _
  · exact exists_mem_valuesOf_iff (fun _ _ => continuousSeverity_eq_significant_iff) _

/-- Nothing drifts in a window without rows. -/
theorem not_significantDrift_of_empty (empty : baseline = [] ∨ current = []) :
    ¬SignificantDrift baseline current := by
  have unpopulated : ∀ {Value : Type} (feature : String × (AuditRow ℝ → Option Value)),
      ¬Populated baseline current feature := by
    intro Value feature populated
    rcases empty with rfl | rfl
    · simpa [minSamples] using populated.1
    · simpa [minSamples] using populated.2
  intro drifts
  rcases drifts with ⟨feature, _, populated, _⟩ | ⟨feature, _, populated, _⟩
  · exact unpopulated feature populated
  · exact unpopulated feature populated

/-- What the script reports and how it exits. -/
theorem analyseDrift_eq (conforms : statistics.Conforms) (failOnDrift : Bool)
    (baseline current : List (AuditRow ℝ)) (modelName modelVersion : String) :
    analyseDrift statistics failOnDrift baseline current modelName modelVersion =
      .ok (if failOnDrift && overall (severitiesOf baseline current) = .significant then 1
        else 0) := by
  simp only [analyseDrift]
  split
  · rename_i empty
    have isEmpty : baseline = [] ∨ current = [] := by simpa using empty
    have quiet := not_significantDrift_of_empty isEmpty
    rw [← overall_severitiesOf_eq_significant_iff] at quiet
    simp [quiet]
  · rcases compareWindows_severities conforms baseline current modelName modelVersion with
      ⟨report, compared, areSeverities⟩
    rw [compared, ← areSeverities, ← overallSeverity_eq]
    rfl

/-- The job never raises, and it fails exactly if it was asked to and some feature with enough
values in both windows has shifted. -/
theorem analyseDrift_fails_iff (conforms : statistics.Conforms) (failOnDrift : Bool)
    (baseline current : List (AuditRow ℝ)) (modelName modelVersion : String) :
    ∃ exitCode, analyseDrift statistics failOnDrift baseline current modelName modelVersion =
        .ok exitCode ∧ exitCode ≤ 1 ∧
      (exitCode = 1 ↔ failOnDrift = true ∧ SignificantDrift baseline current) := by
  refine ⟨_, analyseDrift_eq conforms failOnDrift baseline current modelName modelVersion, ?_⟩
  rw [← overall_severitiesOf_eq_significant_iff]
  split
  · rename_i fails
    simpa using fails
  · rename_i passes
    simpa using passes

theorem filterMap_uniformWindow {Value : Type} (label : String) (width : ℕ)
    {read : AuditRow ℝ → Option Value} {value : Value}
    (reads : read (labelledRow label width) = some value) :
    (uniformWindow label width).filterMap read = List.replicate minSamples value := by
  rw [uniformWindow, List.filterMap_replicate_of_some reads]

/-- All images are twice as wide as they were. -/
theorem significantDrift_wider (label other : String) :
    SignificantDrift (uniformWindow label 1) (uniformWindow other 2) := by
  have isFeature : ("image_width", AuditRow.imageWidth) ∈ continuousFeatures (K := ℝ) :=
    List.mem_cons_self
  have baseline : (uniformWindow label 1).filterMap AuditRow.imageWidth =
      List.replicate minSamples ((1 : ℕ) : ℝ) :=
    filterMap_uniformWindow label 1 rfl
  have current : (uniformWindow other 2).filterMap AuditRow.imageWidth =
      List.replicate minSamples ((2 : ℕ) : ℝ) :=
    filterMap_uniformWindow other 2 rfl
  refine Or.inr ⟨_, isFeature, ⟨?_, ?_⟩, 1, ?_⟩
  · rw [baseline, List.length_replicate]
  · rw [current, List.length_replicate]
  · have positive : 0 < minSamples := by decide
    rw [ecdfGap, baseline, current, ecdf_replicate positive, ecdf_replicate positive]
    norm_num [ksMaterialStatistic, hundredths]

/-- The job fails although the labels are the same. -/
theorem analyseDrift_fails_iff_wider :
    analyseDrift exactStatistics true (uniformWindow "cat" 1) (uniformWindow "cat" 2)
      "classifier" "v1" = .ok 1 := by
  rcases analyseDrift_fails_iff exactStatistics_conforms true (uniformWindow "cat" 1)
    (uniformWindow "cat" 2) "classifier" "v1" with ⟨exitCode, ran, _, fails⟩
  rw [ran, fails.mpr ⟨rfl, significantDrift_wider "cat" "cat"⟩]

end Failing

/-! ## Proportions -/

section Proportions

variable {values others another : List String}

/-- The proportion of a category. -/
noncomputable def proportion (values : List String) (category : String) : ℝ :=
  (values.count category : ℝ) / values.length

/-- A share is the proportion, but no less than `epsilon`. -/
theorem share_eq_proportion (values : List String) (category : String) :
    share (epsilon ℝ) values category = max (proportion values category) (epsilon ℝ) := by
  rw [share_eq, proportion]
  cases values with
  | nil => simp
  | cons first rest => simp

/-- A category occurs if its proportion is positive. -/
theorem mem_iff_proportion_pos {category : String} :
    category ∈ values ↔ 0 < proportion values category := by
  rw [proportion, ← List.count_pos_iff]
  constructor
  · intro occurs
    have isLength : 0 < values.length := occurs.trans_le List.count_le_length
    positivity
  · intro positive
    by_contra none
    have isZero : values.count category = 0 := by omega
    simp [isZero] at positive

theorem mem_iff_of_proportion (same : proportion others = proportion values) {category : String} :
    category ∈ others ↔ category ∈ values := by
  rw [mem_iff_proportion_pos, mem_iff_proportion_pos, same]

theorem share_of_proportion (same : proportion others = proportion values) :
    share (epsilon ℝ) others = share (epsilon ℝ) values := by
  funext category
  rw [share_eq_proportion, share_eq_proportion, same]

theorem eq_nil_iff_of_proportion (same : proportion others = proportion values) :
    others = [] ↔ values = [] := by
  simp only [List.eq_nil_iff_forall_not_mem, mem_iff_of_proportion same]

/-- Repeating a list does not change its proportions. -/
theorem proportion_repeated {times : ℕ} (some_times : 1 ≤ times) (values : List String) :
    proportion (repeated times values) = proportion values := by
  funext category
  have nonzero : (times : ℝ) ≠ 0 := Nat.cast_ne_zero.mpr (by omega)
  simp only [proportion, repeated, List.count_flatten, List.map_replicate, List.sum_replicate_nat,
    List.length_flatten, Nat.cast_mul]
  exact mul_div_mul_left _ _ nonzero

theorem proportion_perm (permutes : others.Perm values) :
    proportion others = proportion values := by
  funext category
  rw [proportion, proportion, permutes.count_eq, permutes.length_eq]

end Proportions

section SameProportions

variable {statistics : DriftStatistics ℝ} {baseline current others another : List (AuditRow ℝ)}

/-- The categories of every feature have the same shares, and its values the same distribution
function. -/
structure SameProportions (others window : List (AuditRow ℝ)) : Prop where
  categorical : ∀ feature ∈ categoricalFeatures,
    proportion (others.filterMap feature.2) = proportion (window.filterMap feature.2)
  continuous : ∀ feature ∈ continuousFeatures,
    ecdf ℝ (others.filterMap feature.2) = ecdf ℝ (window.filterMap feature.2)

/-- A feature that either window has, both have in enough rows. -/
structure Enough (baseline current : List (AuditRow ℝ)) : Prop where
  categorical : ∀ feature ∈ categoricalFeatures,
    (valuesOf baseline current feature).isSome → Populated baseline current feature
  continuous : ∀ feature ∈ continuousFeatures,
    (valuesOf baseline current feature).isSome → Populated baseline current feature

/-- The order of the rows does not matter. -/
theorem sameProportions_perm (permutes : others.Perm baseline) : SameProportions others baseline :=
  ⟨fun feature _ => proportion_perm (permutes.filterMap feature.2),
    fun feature _ => ecdf_perm (permutes.filterMap feature.2)⟩

theorem filterMap_repeated {Row Value : Type} (times : ℕ) (rows : List Row)
    (read : Row → Option Value) :
    (repeated times rows).filterMap read = repeated times (rows.filterMap read) := by
  simp [repeated, List.filterMap_flatten]

/-- Same proportions are transitive. -/
theorem SameProportions.trans (same : SameProportions others baseline)
    (further : SameProportions baseline current) : SameProportions others current :=
  ⟨fun feature isFeature =>
      (same.categorical feature isFeature).trans (further.categorical feature isFeature),
    fun feature isFeature =>
      (same.continuous feature isFeature).trans (further.continuous feature isFeature)⟩

/-- The same traffic at a multiple of the volume. -/
theorem sameProportions_repeated {times : ℕ} (some_times : 1 ≤ times)
    (window : List (AuditRow ℝ)) : SameProportions (repeated times window) window := by
  refine ⟨?_, ?_⟩
  · intro feature _
    rw [filterMap_repeated, proportion_repeated some_times]
  · intro feature _
    rw [filterMap_repeated]
    exact ecdf_flatten_replicate some_times _

theorem categoricalSeverity_congr {values others more another : List String}
    (same : proportion others = proportion values)
    (alsoSame : proportion another = proportion more)
    (enough : minSamples ≤ values.length ∧ minSamples ≤ more.length)
    (alsoEnough : minSamples ≤ others.length ∧ minSamples ≤ another.length) :
    categoricalSeverity others another = categoricalSeverity values more := by
  have support : (others ++ another).toFinset = (values ++ more).toFinset := by
    ext category
    simp [mem_iff_of_proportion same, mem_iff_of_proportion alsoSame]
  simp only [categoricalSeverity, ← not_le, enough, alsoEnough, not_true_eq_false, support,
    share_of_proportion same, share_of_proportion alsoSame]

theorem continuousSeverity_congr {values others more another : List ℝ}
    (same : ecdf ℝ others = ecdf ℝ values) (alsoSame : ecdf ℝ another = ecdf ℝ more)
    (enough : minSamples ≤ values.length ∧ minSamples ≤ more.length)
    (alsoEnough : minSamples ≤ others.length ∧ minSamples ≤ another.length) :
    continuousSeverity others another = continuousSeverity values more := by
  simp only [continuousSeverity, ← not_le, enough, alsoEnough, not_true_eq_false,
    ksDistance_congr same alsoSame]

theorem eq_nil_iff_of_ecdf {values others : List ℝ} (same : ecdf ℝ others = ecdf ℝ values) :
    others = [] ↔ values = [] := by
  rw [eq_nil_iff_ecdf (K := ℝ), eq_nil_iff_ecdf (K := ℝ), same]

theorem categoricalSeverity_comm (baseline current : List String) :
    categoricalSeverity current baseline = categoricalSeverity baseline current := by
  have support : (current ++ baseline).toFinset = (baseline ++ current).toFinset := by
    ext category
    simp [or_comm]
  simp only [categoricalSeverity, or_comm (a := current.length < minSamples), support,
    divergence_comm _ (share (epsilon ℝ) current)]

theorem continuousSeverity_comm (baseline current : List ℝ) :
    continuousSeverity current baseline = continuousSeverity baseline current := by
  simp only [continuousSeverity, or_comm (a := current.length < minSamples),
    ksDistance_comm current baseline]

/-- What a feature contributes depends on whether it is present and on its severity. -/
theorem valuesOf_severity_congr {Value : Type} {severity : List Value → List Value → DriftSeverity}
    (feature : String × (AuditRow ℝ → Option Value))
    (present : (valuesOf others another feature).isSome =
      (valuesOf baseline current feature).isSome)
    (same : (valuesOf baseline current feature).isSome →
      severity (others.filterMap feature.2) (another.filterMap feature.2) =
        severity (baseline.filterMap feature.2) (current.filterMap feature.2)) :
    ((valuesOf others another feature).map fun entry =>
        (entry.1, severity entry.2.1 entry.2.2)) =
      (valuesOf baseline current feature).map fun entry =>
        (entry.1, severity entry.2.1 entry.2.2) := by
  simp only [valuesOf] at present same ⊢
  split at present
  · rename_i absent
    split at present
    · rename_i alsoAbsent
      simp [absent, alsoAbsent]
    · simp at present
  · rename_i isPresent
    split at present
    · simp at present
    · rename_i alsoPresent
      simpa [isPresent, alsoPresent] using same

theorem valuesOf_isSome {Value : Type} (feature : String × (AuditRow ℝ → Option Value)) :
    (valuesOf baseline current feature).isSome =
      !((baseline.filterMap feature.2).isEmpty && (current.filterMap feature.2).isEmpty) := by
  simp only [valuesOf]
  split
  · rename_i absent
    simp [absent]
  · rename_i present
    simp [present]

theorem severitiesOf_congr
    (categorical : ∀ feature ∈ categoricalFeatures,
      (valuesOf others another feature).isSome = (valuesOf baseline current feature).isSome ∧
        ((valuesOf baseline current feature).isSome →
          categoricalSeverity (others.filterMap feature.2) (another.filterMap feature.2) =
            categoricalSeverity (baseline.filterMap feature.2) (current.filterMap feature.2)))
    (continuous : ∀ feature ∈ continuousFeatures,
      (valuesOf others another feature).isSome = (valuesOf baseline current feature).isSome ∧
        ((valuesOf baseline current feature).isSome →
          continuousSeverity (others.filterMap feature.2) (another.filterMap feature.2) =
            continuousSeverity (baseline.filterMap feature.2) (current.filterMap feature.2))) :
    severitiesOf others another = severitiesOf baseline current := by
  simp only [severitiesOf]
  apply congrArg₂
  · apply List.filterMap_congr
    intro feature isFeature
    have alike := categorical feature isFeature
    exact valuesOf_severity_congr feature alike.1 alike.2
  · apply List.filterMap_congr
    intro feature isFeature
    have alike := continuous feature isFeature
    exact valuesOf_severity_congr feature alike.1 alike.2

theorem valuesOf_isSome_comm {Value : Type} (feature : String × (AuditRow ℝ → Option Value)) :
    (valuesOf current baseline feature).isSome = (valuesOf baseline current feature).isSome := by
  rw [valuesOf_isSome, valuesOf_isSome, Bool.and_comm]

theorem severitiesOf_comm (baseline current : List (AuditRow ℝ)) :
    severitiesOf current baseline = severitiesOf baseline current := by
  apply severitiesOf_congr
  · intro feature _
    exact ⟨valuesOf_isSome_comm feature, fun _ => categoricalSeverity_comm _ _⟩
  · intro feature _
    exact ⟨valuesOf_isSome_comm feature, fun _ => continuousSeverity_comm _ _⟩

theorem isEmpty_congr {Value : Type} {values others : List Value}
    (same : others = [] ↔ values = []) : others.isEmpty = values.isEmpty := by
  rw [Bool.eq_iff_iff, List.isEmpty_iff, List.isEmpty_iff, same]

theorem severitiesOf_of_sameProportions (same : SameProportions others baseline)
    (alsoSame : SameProportions another current) (enough : Enough baseline current)
    (alsoEnough : Enough others another) :
    severitiesOf others another = severitiesOf baseline current := by
  apply severitiesOf_congr
  · intro feature isFeature
    have isSame := same.categorical feature isFeature
    have isAlsoSame := alsoSame.categorical feature isFeature
    have present : (valuesOf others another feature).isSome =
        (valuesOf baseline current feature).isSome := by
      rw [valuesOf_isSome, valuesOf_isSome, isEmpty_congr (eq_nil_iff_of_proportion isSame),
        isEmpty_congr (eq_nil_iff_of_proportion isAlsoSame)]
    refine ⟨present, ?_⟩
    intro isPresent
    have populated := enough.categorical feature isFeature isPresent
    have alsoPopulated := alsoEnough.categorical feature isFeature (present.trans isPresent)
    exact categoricalSeverity_congr isSame isAlsoSame populated alsoPopulated
  · intro feature isFeature
    have isSame := same.continuous feature isFeature
    have isAlsoSame := alsoSame.continuous feature isFeature
    have present : (valuesOf others another feature).isSome =
        (valuesOf baseline current feature).isSome := by
      rw [valuesOf_isSome, valuesOf_isSome, isEmpty_congr (eq_nil_iff_of_ecdf isSame),
        isEmpty_congr (eq_nil_iff_of_ecdf isAlsoSame)]
    refine ⟨present, ?_⟩
    intro isPresent
    have populated := enough.continuous feature isFeature isPresent
    have alsoPopulated := alsoEnough.continuous feature isFeature (present.trans isPresent)
    exact continuousSeverity_congr isSame isAlsoSame populated alsoPopulated

theorem minSamples_le_repeated {label : String} {width times : ℕ} (some_times : 1 ≤ times)
    {Value : Type} {read : AuditRow ℝ → Option Value} {value : Value}
    (reads : read (labelledRow label width) = some value) :
    minSamples ≤ ((repeated times (uniformWindow label width)).filterMap read).length := by
  rw [filterMap_repeated, filterMap_uniformWindow label width reads]
  simp only [repeated, List.length_flatten, List.map_replicate, List.length_replicate,
    List.sum_replicate_nat]
  exact Nat.le_mul_of_pos_left _ some_times

/-- Uniform windows have enough of every feature that they have. -/
theorem enough_uniformWindow (label other : String) (width more : ℕ) {times again : ℕ}
    (some_times : 1 ≤ times) (some_again : 1 ≤ again) :
    Enough (repeated times (uniformWindow label width))
      (repeated again (uniformWindow other more)) := by
  have populated : ∀ {Value : Type} (feature : String × (AuditRow ℝ → Option Value))
      {first second : Value}, feature.2 (labelledRow label width) = some first →
      feature.2 (labelledRow other more) = some second →
      Populated (repeated times (uniformWindow label width))
        (repeated again (uniformWindow other more)) feature := by
    intro Value feature first second reads alsoReads
    exact ⟨minSamples_le_repeated some_times reads, minSamples_le_repeated some_again alsoReads⟩
  have absent : (valuesOf (repeated times (uniformWindow label width))
      (repeated again (uniformWindow other more)) ("image_bytes", AuditRow.imageBytes)).isSome =
        false := by
    rw [valuesOf_isSome, filterMap_repeated, filterMap_repeated, uniformWindow, uniformWindow,
      List.filterMap_replicate_of_none rfl, List.filterMap_replicate_of_none rfl]
    simp [repeated]
  constructor
  · intro feature isFeature _
    rcases List.mem_pair.mp isFeature with rfl | rfl
    · exact populated _ rfl rfl
    · exact populated _ rfl rfl
  · intro feature isFeature present
    simp only [continuousFeatures, List.mem_cons, List.not_mem_nil, or_false] at isFeature
    rcases isFeature with rfl | rfl | rfl | rfl
    · exact populated _ rfl rfl
    · exact populated _ rfl rfl
    · simp [absent] at present
    · exact populated _ rfl rfl

end SameProportions

/-! ## No alarm without a shift -/

section NoAlarm

variable {statistics : DriftStatistics ℝ} {baseline current : List (AuditRow ℝ)}

/-- Nothing to act on. -/
def DriftSeverity.Quiet (severity : DriftSeverity) : Prop :=
  severity = .none ∨ severity = .insufficientData

theorem bands_zero {moderate significant : ℝ} (positive : 0 < moderate)
    (alsoPositive : 0 < significant) : bands moderate significant 0 = .none := by
  simp [bands, positive.not_ge, alsoPositive.not_ge]

theorem categoricalSeverity_quiet {baseline current : List String}
    (same : proportion current = proportion baseline) :
    (categoricalSeverity baseline current).Quiet := by
  simp only [categoricalSeverity]
  split
  · exact Or.inr rfl
  · have isZero : divergence (baseline ++ current).toFinset (share (epsilon ℝ) baseline)
        (share (epsilon ℝ) baseline) = 0 :=
      (divergence_eq_zero_iff (share_pos epsilon_pos baseline)
        (share_pos epsilon_pos baseline)).mpr fun _ _ => rfl
    rw [share_of_proportion same, isZero]
    left
    apply bands_zero <;> norm_num [psiNoShift, psiModerateShift, hundredths]

theorem continuousSeverity_quiet {baseline current : List ℝ}
    (same : ecdf ℝ current = ecdf ℝ baseline) : (continuousSeverity baseline current).Quiet := by
  simp only [continuousSeverity]
  split
  · exact Or.inr rfl
  · rw [ksDistance_eq_zero same.symm]
    left
    apply bands_zero <;> norm_num [ksMaterialStatistic, hundredths]

theorem severitiesOf_quiet (same : SameProportions current baseline)
    {entry : String × DriftSeverity} (isEntry : entry ∈ severitiesOf baseline current) :
    entry.2.Quiet := by
  rcases List.mem_append.mp isEntry with isCategorical | isContinuous
  · rcases List.mem_filterMap.mp isCategorical with ⟨feature, isFeature, found⟩
    rcases Option.map_eq_some_iff.mp found with ⟨values, present, rfl⟩
    simp only [valuesOf] at present
    split at present
    · simp at present
    · cases present
      exact categoricalSeverity_quiet (same.categorical feature isFeature)
  · rcases List.mem_filterMap.mp isContinuous with ⟨feature, isFeature, found⟩
    rcases Option.map_eq_some_iff.mp found with ⟨values, present, rfl⟩
    simp only [valuesOf] at present
    split at present
    · simp at present
    · cases present
      exact continuousSeverity_quiet (same.continuous feature isFeature)

theorem overall_quiet {severities : List (String × DriftSeverity)}
    (quiet : ∀ entry ∈ severities, entry.2.Quiet) : (overall severities).Quiet := by
  have noSignificant : (severities.any fun entry => entry.2 = .significant) = false := by
    apply List.any_eq_false.mpr
    intro entry isEntry
    rcases quiet entry isEntry with isSeverity | isSeverity <;> simp [isSeverity]
  have noModerate : (severities.any fun entry => entry.2 = .moderate) = false := by
    apply List.any_eq_false.mpr
    intro entry isEntry
    rcases quiet entry isEntry with isSeverity | isSeverity <;> simp [isSeverity]
  simp only [overall, noSignificant, noModerate, Bool.false_eq_true, if_false]
  split
  · exact Or.inr rfl
  · split
    · exact Or.inr rfl
    · exact Or.inl rfl

theorem driftedFeatures_eq_nil {report : DriftReport ℝ}
    (quiet : ∀ entry ∈ report.severities, entry.2.Quiet) : report.driftedFeatures = [] := by
  apply List.filter_eq_nil_iff.mpr
  intro result isResult
  have isQuiet := quiet _ (List.mem_map_of_mem isResult)
  rcases isQuiet with isSeverity | isSeverity
  · simp [DriftResult.drifted, show result.severity = .none from isSeverity]
  · simp [DriftResult.drifted, show result.severity = .insufficientData from isSeverity]

/-- Traffic that did not move raises no alarm, whatever its volume. -/
theorem analyseDrift_quiet (conforms : statistics.Conforms)
    (same : SameProportions current baseline) (failOnDrift : Bool)
    (modelName modelVersion : String) :
    analyseDrift statistics failOnDrift baseline current modelName modelVersion = .ok 0 ∧
      ∃ report, compareWindows statistics baseline current modelName modelVersion = .ok report ∧
        report.overallSeverity.Quiet ∧ report.driftedFeatures = [] := by
  rcases compareWindows_severities conforms baseline current modelName modelVersion with
    ⟨report, compared, areSeverities⟩
  have quiet : ∀ entry ∈ severitiesOf baseline current, entry.2.Quiet :=
    fun _ isEntry => severitiesOf_quiet same isEntry
  refine ⟨?_, report, compared, ?_, ?_⟩
  · rw [analyseDrift_eq conforms]
    rcases overall_quiet quiet with isSeverity | isSeverity <;> simp [isSeverity]
  · rw [overallSeverity_eq, areSeverities]
    exact overall_quiet quiet
  · exact driftedFeatures_eq_nil (areSeverities ▸ quiet)

/-- Two kinds of images in the same proportion, in another order and three times as many. -/
theorem analyseDrift_quiet_tripled :
    analyseDrift exactStatistics true (uniformWindow "cat" 1 ++ uniformWindow "dog" 2)
        (repeated 3 (uniformWindow "dog" 2 ++ uniformWindow "cat" 1)) "classifier" "v1" = .ok 0 ∧
      ∃ report, compareWindows exactStatistics (uniformWindow "cat" 1 ++ uniformWindow "dog" 2)
          (repeated 3 (uniformWindow "dog" 2 ++ uniformWindow "cat" 1)) "classifier" "v1" =
        .ok report ∧ report.overallSeverity.Quiet ∧ report.driftedFeatures = [] := by
  have tripled := sameProportions_repeated (show 1 ≤ 3 by decide)
    (uniformWindow "dog" 2 ++ uniformWindow "cat" 1)
  apply analyseDrift_quiet exactStatistics_conforms
  exact tripled.trans (sameProportions_perm List.perm_append_comm)

end NoAlarm

end VisionApi.Validation
