import Mathlib.Data.Rat.Floor
import VisionApi.Experiments.Shares
import VisionApi.Validation.Regression

/-!
# The analysis of an experiment

Every challenger is compared with the control on latency and on success rate,
as far as both have enough records.  The recommendation is made from the
comparisons.

Records are JSON values, and reading a field of one may raise; numbers and the tests on
them are a parameter, so that nothing depends on how floats round.  A comparison carries
a verdict, and the recommendation looks for its ending (`endsWith`).  Which verdicts end
so is worked out once (`regresses_compareLatency`, `regresses_compareSuccess`), and the
text of the recommendation is read as positive by `IsPositive`.

A recommendation that is positive therefore says that no challenger with enough records
was found to be slower or to fail more.  That it covers all challengers depends on the
number of their records, and the theorem states which reports do.  The instance has three
arms, one of them without records in the counterexample.
-/

namespace VisionApi.Validation

open Foundation Experiments

/-! ## Arms -/

/-- The statistics that the analysis takes from numpy and scipy, and the float of a literal. -/
structure Statistics (Number : Type) extends Arithmetic Number where
  /-- A mantissa and the number of its digits after the point. -/
  decimal : ℕ → ℕ → Number
  /-- The quotient of two ints. -/
  ratio : ℕ → ℕ → Number
  abs : Number → Number
  sqrt : Number → Number
  atLeast : Number → Number → Bool
  /-- An item of `np.array(.., dtype=float)`. -/
  item : Json Number → Except PyError Number
  mean : List Number → Number
  /-- `np.mean` of values that are no array. -/
  meanOf : List (Json Number) → Except PyError Number
  /-- With `ddof=1`. -/
  variance : List Number → Number
  percentile : List Number → ℕ → Number
  /-- The p-value of Welch's test. -/
  ttest : List Number → List Number → Number
  /-- `stats.norm.cdf`. -/
  cdf : Number → Number
  /-- `f"{name}"`. -/
  format : Json Number → String

variable {Number : Type}

/-- The record of an inference. -/
abbrev InferenceRecord (Number : Type) := Dict String (Json Number)

/-- The figures of an arm. -/
structure ArmMetrics (Number : Type) where
  variant : Json Number
  modelVersion : Json Number
  count : ℕ
  successRate : Number
  meanLatencyMs : Number
  p95LatencyMs : Number
  meanConfidence : Option Number

/-- A comparison of control and challenger on one metric. -/
structure Comparison (Number : Type) where
  metric : String
  controlValue : Number
  treatmentValue : Number
  absoluteDifference : Number
  relativeDifference : Number
  confidenceInterval : Number × Number
  pValue : Number
  significant : Bool
  material : Bool

/-- The figures, the comparisons and the recommendation. -/
structure ExperimentReport (Number : Type) where
  experiment : Json Number
  arms : List (ArmMetrics Number)
  comparisons : List (Comparison Number)
  recommendation : String

/-- Minimum observations per arm before a comparison is reported. -/
def minArmSamples : ℕ :=
  100

variable (ops : Statistics Number)

/-- `r.get("status") == "success"`. -/
def succeeded (record : InferenceRecord Number) : Bool :=
  match Dict.get? record "status" with
  | some (.string status) => status = "success"
  | _ => false

/-- `r["latency_ms"]`, as a float. -/
def latency (record : InferenceRecord Number) : Except PyError Number :=
  match Dict.get? record "latency_ms" with
  | some value => ops.item value
  | none => .error .key

/-- `r.get("top_probability")` if it is not `None`. -/
def confidence (record : InferenceRecord Number) : Option (Json Number) :=
  match Dict.get? record "top_probability" with
  | none | some .null => none
  | some value => some value

/-- The mean confidence of the records that have one. -/
def meanConfidence (records : List (InferenceRecord Number)) : Except PyError (Option Number) :=
  let confidences := records.filterMap confidence
  if confidences.isEmpty then .ok none else (ops.meanOf confidences).map some

/-- `summarise_arm`. -/
def summariseArm (variant modelVersion : Json Number) (records : List (InferenceRecord Number)) :
    Except PyError (ArmMetrics Number) := do
  let latencies ← records.mapM (latency ops)
  let successes := records.countP succeeded
  let meanConfidence ← meanConfidence ops records
  .ok
    { variant := variant
      modelVersion := modelVersion
      count := records.length
      successRate := if records.isEmpty then ops.zero else ops.ratio successes records.length
      meanLatencyMs := if latencies.isEmpty then ops.zero else ops.mean latencies
      p95LatencyMs := if latencies.isEmpty then ops.zero else ops.percentile latencies 95
      meanConfidence := meanConfidence }

/-! ## Comparisons -/

/-- `compare_means`; the difference that counts is a relative one. -/
def compareMeans (metric : String) (control treatment : List Number) : Comparison Number :=
  let controlMean := ops.mean control
  let treatmentMean := ops.mean treatment
  let absolute := ops.sub treatmentMean controlMean
  let relativeDifference := relative ops.toArithmetic absolute controlMean
  let pValue := ops.ttest treatment control
  let standardError := ops.sqrt
    (ops.add (ops.div (ops.variance control) (ops.ratio control.length 1))
      (ops.div (ops.variance treatment) (ops.ratio treatment.length 1)))
  let margin := ops.mul (ops.decimal 196 2) standardError
  { metric := metric
    controlValue := controlMean
    treatmentValue := treatmentMean
    absoluteDifference := absolute
    relativeDifference := relativeDifference
    confidenceInterval := (ops.sub absolute margin, ops.add absolute margin)
    pValue := pValue
    significant := ops.less pValue (ops.decimal 5 2)
    material := ops.atLeast (ops.abs relativeDifference) (ops.decimal 5 2) }

/-- `successes / total if total else 0.0`. -/
def rate (successes total : ℕ) : Number :=
  if total = 0 then ops.zero else ops.ratio successes total

/-- `compare_proportions`; the difference that counts is the absolute one. -/
def compareProportions (metric : String)
    (controlSuccesses controlTotal treatmentSuccesses treatmentTotal : ℕ) : Comparison Number :=
  let controlRate := rate ops controlSuccesses controlTotal
  let treatmentRate := rate ops treatmentSuccesses treatmentTotal
  let absolute := ops.sub treatmentRate controlRate
  let relativeDifference := relative ops.toArithmetic absolute controlRate
  let pooled := ops.ratio (controlSuccesses + treatmentSuccesses)
    (max (controlTotal + treatmentTotal) 1)
  let pooledSe := ops.sqrt
    (ops.mul (ops.mul pooled (ops.sub ops.one pooled))
      (ops.add (ops.ratio 1 (max controlTotal 1)) (ops.ratio 1 (max treatmentTotal 1))))
  let z := relative ops.toArithmetic absolute pooledSe
  let pValue := ops.mul (ops.ratio 2 1) (ops.sub ops.one (ops.cdf (ops.abs z)))
  let unpooledSe := ops.sqrt
    (ops.add
      (ops.div (ops.mul controlRate (ops.sub ops.one controlRate))
        (ops.ratio (max controlTotal 1) 1))
      (ops.div (ops.mul treatmentRate (ops.sub ops.one treatmentRate))
        (ops.ratio (max treatmentTotal 1) 1)))
  let margin := ops.mul (ops.decimal 196 2) unpooledSe
  { metric := metric
    controlValue := controlRate
    treatmentValue := treatmentRate
    absoluteDifference := absolute
    relativeDifference := relativeDifference
    confidenceInterval := (ops.sub absolute margin, ops.add absolute margin)
    pValue := pValue
    significant := ops.less pValue (ops.decimal 5 2)
    material := ops.atLeast (ops.abs absolute) (ops.decimal 1 2) }

/-! ## The recommendation -/

/-- `text.endswith(suffix)`. -/
def endsWith (text suffix : String) : Bool :=
  suffix.toList <:+ text.toList

/-- The comparisons that `_recommend` calls regressions. -/
def Comparison.regresses (comparison : Comparison Number) : Bool :=
  comparison.significant && comparison.material &&
    ((endsWith comparison.metric "latency_ms" && ops.less ops.zero comparison.absoluteDifference) ||
      (endsWith comparison.metric "success_rate" &&
        ops.less comparison.absoluteDifference ops.zero))

/-- `_recommend`. -/
def recommend (comparisons : List (Comparison Number)) : String :=
  if comparisons.isEmpty then "Insufficient data in one or more challenger arms."
  else
    let regressions := comparisons.filter (·.regresses ops)
    if !regressions.isEmpty then
      "Do not promote: significant and material regression in " ++
        ", ".intercalate (regressions.map (·.metric)) ++ "."
    else if comparisons.any fun comparison => comparison.significant && comparison.material then
      "Safe to promote: significant and material improvement, no regressions."
    else
      "No material difference detected. Either arm is acceptable; prefer the " ++
        "simpler or cheaper one."

/-- The recommendation is to promote, or that either arm is acceptable. -/
def IsPositive (recommendation : String) : Prop :=
  "Safe to promote".toList <+: recommendation.toList ∨
    "No material difference".toList <+: recommendation.toList

/-! ## The analysis -/

/-- `records_by_variant.get(variant.name, [])`. -/
def recordsOf (recordsByVariant : Dict String (List (InferenceRecord Number)))
    (variant : Variant ops.toFloatOps) : List (InferenceRecord Number) :=
  match variant.name with
  | .string name => (Dict.get? recordsByVariant name).getD []
  | _ => []

variable (recordsByVariant : Dict String (List (InferenceRecord Number)))

/-- The loop over the arms that have records. -/
def summariseArms (variants : List (Variant ops.toFloatOps)) :
    Except PyError (List (ArmMetrics Number)) :=
  (variants.filter fun variant => !(recordsOf ops recordsByVariant variant).isEmpty).mapM
    fun variant =>
      summariseArm ops variant.name variant.modelVersion (recordsOf ops recordsByVariant variant)

/-- The comparison of a challenger on latency. -/
def compareLatency (control : List (InferenceRecord Number)) (variant : Variant ops.toFloatOps) :
    Except PyError (Comparison Number) := do
  let controlLatencies ← control.mapM (latency ops)
  let treatmentLatencies ← (recordsOf ops recordsByVariant variant).mapM (latency ops)
  .ok (compareMeans ops (ops.format variant.name ++ ".latency_ms") controlLatencies
    treatmentLatencies)

/-- The comparison of a challenger on success rate. -/
def compareSuccess (control : List (InferenceRecord Number)) (variant : Variant ops.toFloatOps) :
    Comparison Number :=
  let treatment := recordsOf ops recordsByVariant variant
  compareProportions ops (ops.format variant.name ++ ".success_rate")
    (control.countP succeeded) control.length (treatment.countP succeeded) treatment.length

/-- The loop over the challengers; arms with few records are skipped. -/
def compareChallengers (control : List (InferenceRecord Number)) :
    List (Variant ops.toFloatOps) → Except PyError (List (Comparison Number))
  | [] => .ok []
  | variant :: variants =>
      if (recordsOf ops recordsByVariant variant).length < minArmSamples then
        compareChallengers control variants
      else do
        let onLatency ← compareLatency ops recordsByVariant control variant
        let rest ← compareChallengers control variants
        .ok (onLatency :: compareSuccess ops recordsByVariant control variant :: rest)

/-- The records of `experiment.control`. -/
def controlRecords (experiment : Experiment ops.toFloatOps) : List (InferenceRecord Number) :=
  recordsOf ops recordsByVariant (experiment.variants.head experiment.nonempty)

/-- `analyse_experiment`. -/
def analyseExperiment (experiment : Experiment ops.toFloatOps) :
    Except PyError (ExperimentReport Number) := do
  let arms ← summariseArms ops recordsByVariant experiment.variants
  let control := controlRecords ops recordsByVariant experiment
  if control.length < minArmSamples then
    .ok
      { experiment := experiment.name
        arms := arms
        comparisons := []
        recommendation := "Insufficient data: the control arm has " ++ toString control.length ++
          " observations, below the " ++ toString minArmSamples ++ " required." }
  else do
    let comparisons ← compareChallengers ops recordsByVariant control experiment.variants.tail
    .ok
      { experiment := experiment.name
        arms := arms
        comparisons := comparisons
        recommendation := recommend ops comparisons }

/-! ## Regressions -/

section Regressions

variable {ops} {comparison : Comparison Number}

/-- A significant and material difference for the worse on latency. -/
def Comparison.slower (ops : Statistics Number) (comparison : Comparison Number) : Bool :=
  comparison.significant && comparison.material &&
    ops.less ops.zero comparison.absoluteDifference

/-- A significant and material difference for the worse on success rate. -/
def Comparison.failsMore (ops : Statistics Number) (comparison : Comparison Number) : Bool :=
  comparison.significant && comparison.material &&
    ops.less comparison.absoluteDifference ops.zero

theorem endsWith_append (text suffix : String) : endsWith (text ++ suffix) suffix = true := by
  rw [endsWith, String.toList_append, decide_eq_true_eq]
  exact List.suffix_append _ _

theorem endsWith_append_eq_false (text : String) {suffix other : String}
    (nonempty : suffix.toList ≠ []) (otherNonempty : other.toList ≠ [])
    (apart : other.toList.getLast? ≠ suffix.toList.getLast?) :
    endsWith (text ++ suffix) other = false := by
  rw [endsWith, decide_eq_false_iff_not, String.toList_append]
  intro isSuffix
  rcases isSuffix with ⟨front, same⟩
  apply apart
  rw [← List.getLast?_append_of_ne_nil front otherNonempty, same,
    List.getLast?_append_of_ne_nil _ nonempty]

/-- A comparison of latencies regresses if the challenger is slower. -/
theorem regresses_compareLatency {control : List (InferenceRecord Number)}
    {variant : Variant ops.toFloatOps}
    (compared : compareLatency ops recordsByVariant control variant = .ok comparison) :
    comparison.regresses ops = comparison.slower ops := by
  rcases bind_ok_iff.mp compared with ⟨controlLatencies, _, compared⟩
  rcases bind_ok_iff.mp compared with ⟨treatmentLatencies, _, compared⟩
  cases compared
  have isLatency : endsWith (ops.format variant.name ++ ".latency_ms") "latency_ms" = true := by
    have longer := endsWith_append (ops.format variant.name ++ ".") "latency_ms"
    rw [String.append_assoc] at longer
    exact longer
  have isNoRate : endsWith (ops.format variant.name ++ ".latency_ms") "success_rate" = false :=
    endsWith_append_eq_false _ (by decide) (by decide) (by decide)
  rw [Comparison.regresses, Comparison.slower, compareMeans, isLatency, isNoRate, Bool.true_and,
    Bool.false_and, Bool.or_false]

/-- A comparison of success rates regresses if the challenger fails more. -/
theorem regresses_compareSuccess (control : List (InferenceRecord Number))
    (variant : Variant ops.toFloatOps) :
    (compareSuccess ops recordsByVariant control variant).regresses ops =
      (compareSuccess ops recordsByVariant control variant).failsMore ops := by
  have isRate : endsWith (ops.format variant.name ++ ".success_rate") "success_rate" = true := by
    have longer := endsWith_append (ops.format variant.name ++ ".") "success_rate"
    rw [String.append_assoc] at longer
    exact longer
  have isNoLatency : endsWith (ops.format variant.name ++ ".success_rate") "latency_ms" = false :=
    endsWith_append_eq_false _ (by decide) (by decide) (by decide)
  rw [Comparison.regresses, Comparison.failsMore, compareSuccess, compareProportions, isRate,
    isNoLatency, Bool.true_and, Bool.false_and, Bool.false_or]

end Regressions

/-! ## What a positive recommendation says -/

section Positive

variable {ops recordsByVariant} {control : List (InferenceRecord Number)}
  {variants : List (Variant ops.toFloatOps)} {comparisons : List (Comparison Number)}

/-- A text whose first character is none of the two is no positive recommendation. -/
theorem not_isPositive {recommendation : String} (first : Char)
    (isFirst : recommendation.toList.head? = some first) (apart : first ≠ 'S' ∧ first ≠ 'N') :
    ¬IsPositive recommendation := by
  rintro (⟨rest, same⟩ | ⟨rest, same⟩)
  · rw [← same] at isFirst
    exact apart.1 (Option.some.inj isFirst).symm
  · rw [← same] at isFirst
    exact apart.2 (Option.some.inj isFirst).symm

theorem not_isPositive_append (first : Char) {text : String} (rest : String)
    (isFirst : text.toList.head? = some first) (apart : first ≠ 'S' ∧ first ≠ 'N') :
    ¬IsPositive (text ++ rest) := by
  apply not_isPositive first _ apart
  rw [String.toList_append, List.head?_append, isFirst]
  rfl

/-- The recommendation is positive if there are comparisons and none of them is a regression. -/
theorem isPositive_recommend_iff :
    IsPositive (recommend ops comparisons) ↔
      comparisons ≠ [] ∧ ∀ comparison ∈ comparisons, comparison.regresses ops = false := by
  unfold recommend
  by_cases isEmpty : comparisons.isEmpty = true
  · rw [if_pos isEmpty]
    apply iff_of_false
    · exact not_isPositive 'I' (by decide) (by decide)
    · intro some
      exact some.1 (List.isEmpty_iff.mp isEmpty)
  · have nonempty : comparisons ≠ [] := fun isNil => isEmpty (List.isEmpty_iff.mpr isNil)
    rw [if_neg isEmpty]
    dsimp only
    by_cases kept : ∀ comparison ∈ comparisons, comparison.regresses ops = false
    · have none : (comparisons.filter (·.regresses ops)).isEmpty = true := by
        rw [List.isEmpty_iff, List.filter_eq_nil_iff]
        intro comparison isComparison
        rw [kept comparison isComparison]
        exact Bool.false_ne_true
      rw [none, Bool.not_true, if_neg Bool.false_ne_true]
      apply iff_of_true _ ⟨nonempty, kept⟩
      split
      · exact Or.inl (by decide)
      · exact Or.inr (by decide)
    · have some : (comparisons.filter (·.regresses ops)).isEmpty = false := by
        rw [← Bool.not_eq_true, List.isEmpty_iff, List.filter_eq_nil_iff]
        intro none
        apply kept
        intro comparison isComparison
        exact eq_false_of_ne_true (none comparison isComparison)
      rw [some, Bool.not_false, if_pos rfl]
      apply iff_of_false
      · rw [String.append_assoc]
        exact not_isPositive_append 'D' _ (by decide) (by decide)
      · intro positive
        exact kept positive.2

/-- Every challenger with enough records has two comparisons, and there are no others. -/
theorem mem_compareChallengers
    (compared : compareChallengers ops recordsByVariant control variants = .ok comparisons)
    (comparison : Comparison Number) :
    comparison ∈ comparisons ↔ ∃ variant ∈ variants,
      minArmSamples ≤ (recordsOf ops recordsByVariant variant).length ∧
        (compareLatency ops recordsByVariant control variant = .ok comparison ∨
          comparison = compareSuccess ops recordsByVariant control variant) := by
  induction variants generalizing comparisons with
  | nil =>
      cases compared
      simp
  | cons variant variants ih =>
      rw [compareChallengers] at compared
      by_cases few : (recordsOf ops recordsByVariant variant).length < minArmSamples
      · rw [if_pos few] at compared
        rw [ih compared, List.exists_mem_cons_iff]
        apply (or_iff_right _).symm
        intro sampled
        omega
      · rw [if_neg few] at compared
        rcases bind_ok_iff.mp compared with ⟨onLatency, isLatency, compared⟩
        rcases bind_ok_iff.mp compared with ⟨rest, isRest, compared⟩
        cases compared
        rw [List.mem_cons, List.mem_cons, ih isRest, List.exists_mem_cons_iff, isLatency,
          Except.ok.injEq, ← or_assoc, eq_comm (b := comparison), and_iff_right (not_lt.mp few)]

/-- Every challenger with enough records could be compared. -/
theorem compareLatency_of_compareChallengers
    (compared : compareChallengers ops recordsByVariant control variants = .ok comparisons)
    {variant : Variant ops.toFloatOps} (isChallenger : variant ∈ variants)
    (sampled : minArmSamples ≤ (recordsOf ops recordsByVariant variant).length) :
    ∃ onLatency, compareLatency ops recordsByVariant control variant = .ok onLatency := by
  induction variants generalizing comparisons with
  | nil => cases isChallenger
  | cons first variants ih =>
      rw [compareChallengers] at compared
      by_cases few : (recordsOf ops recordsByVariant first).length < minArmSamples
      · rw [if_pos few] at compared
        rcases List.mem_cons.mp isChallenger with rfl | isLater
        · omega
        · exact ih compared isLater
      · rw [if_neg few] at compared
        rcases bind_ok_iff.mp compared with ⟨onLatency, isLatency, compared⟩
        rcases bind_ok_iff.mp compared with ⟨rest, isRest, _⟩
        rcases List.mem_cons.mp isChallenger with rfl | isLater
        · exact ⟨onLatency, isLatency⟩
        · exact ih isRest isLater

/-- No comparison is a regression exactly if no challenger with enough records is worse. -/
theorem no_regression_iff
    (compared : compareChallengers ops recordsByVariant control variants = .ok comparisons) :
    (∀ comparison ∈ comparisons, comparison.regresses ops = false) ↔
      ∀ variant ∈ variants, minArmSamples ≤ (recordsOf ops recordsByVariant variant).length →
        (∀ onLatency, compareLatency ops recordsByVariant control variant = .ok onLatency →
          onLatency.slower ops = false) ∧
        (compareSuccess ops recordsByVariant control variant).failsMore ops = false := by
  have isComparison := mem_compareChallengers compared
  constructor
  · intro kept variant isVariant many
    constructor
    · intro onLatency isLatency
      rw [← regresses_compareLatency _ isLatency]
      apply kept
      exact (isComparison _).mpr ⟨variant, isVariant, many, Or.inl isLatency⟩
    · rw [← regresses_compareSuccess]
      apply kept
      exact (isComparison _).mpr ⟨variant, isVariant, many, Or.inr rfl⟩
  · intro kept comparison isMember
    rcases (isComparison _).mp isMember with ⟨variant, isVariant, many, isLatency | rfl⟩
    · rw [regresses_compareLatency _ isLatency]
      exact (kept variant isVariant many).1 comparison isLatency
    · rw [regresses_compareSuccess]
      exact (kept variant isVariant many).2

/-- The two ways in which an analysis ends. -/
theorem analyseExperiment_cases {experiment : Experiment ops.toFloatOps}
    {report : ExperimentReport Number}
    (analysed : analyseExperiment ops recordsByVariant experiment = .ok report) :
    (controlRecords ops recordsByVariant experiment).length < minArmSamples ∧
        ¬IsPositive report.recommendation ∨
      minArmSamples ≤ (controlRecords ops recordsByVariant experiment).length ∧
        compareChallengers ops recordsByVariant (controlRecords ops recordsByVariant experiment)
          experiment.variants.tail = .ok report.comparisons ∧
        report.recommendation = recommend ops report.comparisons := by
  rcases bind_ok_iff.mp analysed with ⟨arms, _, analysed⟩
  by_cases few : (controlRecords ops recordsByVariant experiment).length < minArmSamples
  · left
    rw [if_pos few] at analysed
    cases analysed
    refine ⟨few, ?_⟩
    simp only [String.append_assoc]
    exact not_isPositive_append 'I' _ (by decide) (by decide)
  · right
    rw [if_neg few] at analysed
    rcases bind_ok_iff.mp analysed with ⟨comparisons, compared, analysed⟩
    cases analysed
    exact ⟨not_lt.mp few, compared, rfl⟩

/-- A positive recommendation covers every challenger exactly if it is not given, or no challenger
with records enough stands beside one without. -/
theorem positive_covers_iff {experiment : Experiment ops.toFloatOps}
    {report : ExperimentReport Number}
    (analysed : analyseExperiment ops recordsByVariant experiment = .ok report) :
    (IsPositive report.recommendation →
        minArmSamples ≤ (controlRecords ops recordsByVariant experiment).length ∧
          ∀ variant ∈ experiment.variants.tail,
            minArmSamples ≤ (recordsOf ops recordsByVariant variant).length ∧
              (∃ onLatency ∈ report.comparisons, compareLatency ops recordsByVariant
                (controlRecords ops recordsByVariant experiment) variant = .ok onLatency ∧
                onLatency.slower ops = false) ∧
              ∃ onSuccess ∈ report.comparisons, onSuccess = compareSuccess ops recordsByVariant
                (controlRecords ops recordsByVariant experiment) variant ∧
                onSuccess.failsMore ops = false) ↔
      (controlRecords ops recordsByVariant experiment).length < minArmSamples ∨
        (∀ variant ∈ experiment.variants.tail,
          (recordsOf ops recordsByVariant variant).length < minArmSamples) ∨
        (∀ variant ∈ experiment.variants.tail,
          minArmSamples ≤ (recordsOf ops recordsByVariant variant).length) ∨
        ∃ variant ∈ experiment.variants.tail,
          minArmSamples ≤ (recordsOf ops recordsByVariant variant).length ∧
            ((∃ onLatency, compareLatency ops recordsByVariant
              (controlRecords ops recordsByVariant experiment) variant = .ok onLatency ∧
              onLatency.slower ops = true) ∨
            (compareSuccess ops recordsByVariant
              (controlRecords ops recordsByVariant experiment) variant).failsMore ops = true) := by
  rcases analyseExperiment_cases analysed with ⟨few, negative⟩ | ⟨enough, compared, recommended⟩
  · exact iff_of_true (fun positive => absurd positive negative) (Or.inl few)
  · have isComparison := mem_compareChallengers compared
    rw [recommended, isPositive_recommend_iff, no_regression_iff compared]
    constructor
    · intro covers
      right
      by_cases none : ∀ variant ∈ experiment.variants.tail,
          (recordsOf ops recordsByVariant variant).length < minArmSamples
      · exact Or.inl none
      right
      push Not at none
      rcases none with ⟨sampled, isChallenger, enoughSampled⟩
      have present := (isComparison _).mpr ⟨sampled, isChallenger, enoughSampled, Or.inr rfl⟩
      by_contra neither
      rw [not_or] at neither
      apply neither.1
      intro variant isVariant
      -- no challenger is worse, so that the recommendation is positive and covers all of them
      refine ((covers ⟨List.ne_nil_of_mem present, ?_⟩).2 variant isVariant).1
      intro other isOther many
      constructor
      · intro onLatency isLatency
        by_contra slower
        rw [Bool.not_eq_false] at slower
        exact neither.2 ⟨other, isOther, many, Or.inl ⟨onLatency, isLatency, slower⟩⟩
      · by_contra failsMore
        rw [Bool.not_eq_false] at failsMore
        exact neither.2 ⟨other, isOther, many, Or.inr failsMore⟩
    · intro condition positive
      refine ⟨enough, ?_⟩
      have sampled : ∀ variant ∈ experiment.variants.tail,
          minArmSamples ≤ (recordsOf ops recordsByVariant variant).length := by
        rcases condition with few | none | all | ⟨variant, isVariant, many, worse⟩
        · omega
        · rcases List.exists_mem_of_ne_nil _ positive.1 with ⟨comparison, isMember⟩
          rcases (isComparison _).mp isMember with ⟨variant, isVariant, many, _⟩
          exact absurd (none variant isVariant) (not_lt.mpr many)
        · exact all
        · exfalso
          have kept := positive.2 variant isVariant many
          rcases worse with ⟨onLatency, isLatency, slower⟩ | failsMore
          · exact Bool.noConfusion (slower.symm.trans (kept.1 onLatency isLatency))
          · exact Bool.noConfusion (failsMore.symm.trans kept.2)
      intro variant isVariant
      have many := sampled variant isVariant
      have kept := positive.2 variant isVariant many
      rcases compareLatency_of_compareChallengers compared isVariant many with
        ⟨onLatency, isLatency⟩
      refine ⟨many, ⟨onLatency, ?_, isLatency, kept.1 onLatency isLatency⟩, _, ?_, rfl, kept.2⟩
      · exact (isComparison _).mpr ⟨variant, isVariant, many, Or.inl isLatency⟩
      · exact (isComparison _).mpr ⟨variant, isVariant, many, Or.inr rfl⟩

/-- An analysis ends in a report if every record has a latency, and the confidences of each arm
have a mean. -/
theorem analyseExperiment_succeeds (experiment : Experiment ops.toFloatOps)
    (latencies : ∀ variant : Variant ops.toFloatOps,
      ∀ record ∈ recordsOf ops recordsByVariant variant, Succeeds (latency ops record))
    (confidences : ∀ variant : Variant ops.toFloatOps,
      Succeeds (meanConfidence ops (recordsOf ops recordsByVariant variant))) :
    Succeeds (analyseExperiment ops recordsByVariant experiment) := by
  have arms : Succeeds (summariseArms ops recordsByVariant experiment.variants) := by
    apply mapM_succeeds_iff.mpr
    intro variant _
    rcases mapM_succeeds_iff.mpr (latencies variant) with ⟨values, areValues⟩
    rcases confidences variant with ⟨mean, isMean⟩
    apply bind_succeeds_iff.mpr
    refine ⟨values, areValues, ?_⟩
    exact bind_succeeds_iff.mpr ⟨mean, isMean, succeeds_ok _⟩
  have comparisons (variants : List (Variant ops.toFloatOps)) :
      Succeeds (compareChallengers ops recordsByVariant
        (controlRecords ops recordsByVariant experiment) variants) := by
    induction variants with
    | nil => exact succeeds_ok _
    | cons variant variants ih =>
        rw [compareChallengers]
        split
        · exact ih
        · rcases mapM_succeeds_iff.mpr (latencies variant) with ⟨values, areValues⟩
          rcases mapM_succeeds_iff.mpr (latencies (experiment.variants.head experiment.nonempty))
            with ⟨controlValues, areControlValues⟩
          rcases ih with ⟨rest, isRest⟩
          apply bind_succeeds_iff.mpr
          refine ⟨_, bind_ok_iff.mpr ⟨controlValues, areControlValues,
            bind_ok_iff.mpr ⟨values, areValues, rfl⟩⟩, ?_⟩
          exact bind_succeeds_iff.mpr ⟨rest, isRest, succeeds_ok _⟩
  rcases arms with ⟨arms, areArms⟩
  rcases comparisons experiment.variants.tail with ⟨comparisons, areComparisons⟩
  apply bind_succeeds_iff.mpr
  refine ⟨arms, areArms, ?_⟩
  dsimp only
  split
  · exact succeeds_ok _
  · exact bind_succeeds_iff.mpr ⟨comparisons, areComparisons, succeeds_ok _⟩

end Positive

/-- Statistics on fractions; the test only tells equal samples apart. -/
def fractionStatistics : Statistics ℚ where
  toArithmetic := fractions
  decimal := fun mantissa digits => mantissa / 10 ^ digits
  ratio := fun left right => left / right
  abs := fun value => |value|
  sqrt := fun value => Nat.sqrt ⌊value * 10 ^ 16⌋₊ / 10 ^ 8
  atLeast := fun left right => right ≤ left
  item := toFloat exactOps
  mean := fun values => values.sum / values.length
  meanOf := fun values =>
    (values.mapM (toFloat exactOps)).map fun values => values.sum / values.length
  variance := fun values =>
    (values.map fun value => (value - values.sum / values.length) ^ 2).sum / (values.length - 1)
  percentile := fun values percent =>
    (values.mergeSort (· ≤ ·)).getD ((values.length - 1) * percent / 100) 0
  ttest := fun treatment control => if treatment = control then 1 else 0
  cdf := fun z => if z = 0 then 1 / 2 else if z < 0 then 0 else 1
  format := fun name =>
    match name with
    | .string text => text
    | _ => ""

/-- Two equal values differ in neither direction. -/
theorem fractionStatistics_less_sub_self (value : ℚ) :
    fractionStatistics.less fractionStatistics.zero (fractionStatistics.sub value value) = false ∧
      fractionStatistics.less (fractionStatistics.sub value value) fractionStatistics.zero =
        false := by
  rw [show fractionStatistics.sub value value = fractionStatistics.zero from sub_self value,
    show fractionStatistics.less = exactOps.less from rfl, exactOps_less]
  exact ⟨decide_eq_false (lt_irrefl _), decide_eq_false (lt_irrefl _)⟩

theorem quarter_isShare : (0 : ℚ) ≤ 1 / 4 ∧ (1 / 4 : ℚ) ≤ 1 := by
  norm_num

theorem threeArms_whole : exactOps.isWhole (exactOps.sum [1 / 2, 1 / 4, 1 / 4]) = true := by
  apply (exactOps_isWhole _).mpr
  norm_num [exactOps]

/-- The control. -/
def controlArm : Variant fractionStatistics.toFloatOps :=
  arm "control" (1 / 2) half_isShare

/-- A challenger. -/
def fastArm : Variant fractionStatistics.toFloatOps :=
  arm "fast" (1 / 4) quarter_isShare

/-- Another challenger. -/
def smallArm : Variant fractionStatistics.toFloatOps :=
  arm "small" (1 / 4) quarter_isShare

theorem threeArms_unique :
    [controlArm, fastArm, smallArm].Pairwise fun left right =>
      sameKey fractionStatistics.toFloatOps left.name right.name = false := by
  apply List.Pairwise.cons
  · intro right isRight
    rcases List.mem_pair.mp isRight with rfl | rfl
    · rfl
    · rfl
  · exact List.pairwise_pair.mpr rfl

/-- A control and two challengers. -/
def threeArms : Experiment fractionStatistics.toFloatOps where
  name := .string "rollout"
  variants := [controlArm, fastArm, smallArm]
  enabled := true
  nonempty := List.cons_ne_nil _ _
  whole := threeArms_whole
  hashable := rfl
  unique := threeArms_unique

/-- One hundred inferences that take 10 and 11 ms in turn. -/
def steadyRecords : List (InferenceRecord ℚ) :=
  (List.range minArmSamples).map fun index =>
    [("status", .string "success"), ("latency_ms", .float ((10 + index % 2 : ℕ) : ℚ))]

/-- The arms that have the steady records. -/
def sampledRecords (names : List String) : Dict String (List (InferenceRecord ℚ)) :=
  names.map fun name => (name, steadyRecords)

theorem length_steadyRecords : steadyRecords.length = minArmSamples := by
  rw [steadyRecords, List.length_map, List.length_range]

theorem steadyRecords_readable {record : InferenceRecord ℚ} (isRecord : record ∈ steadyRecords) :
    Succeeds (latency fractionStatistics record) ∧ confidence record = none := by
  rcases List.mem_map.mp isRecord with ⟨index, _, rfl⟩
  exact ⟨succeeds_ok _, rfl⟩

/-- With steady records the analysis ends in a report. -/
theorem analyse_sampledRecords (names : List String) :
    Succeeds (analyseExperiment fractionStatistics (sampledRecords names) threeArms) := by
  have records (variant : Variant fractionStatistics.toFloatOps) :
      ∀ record ∈ recordsOf fractionStatistics (sampledRecords names) variant,
        Succeeds (latency fractionStatistics record) ∧ confidence record = none := by
    intro record isRecord
    unfold recordsOf at isRecord
    split at isRecord
    · rename_i name _
      cases found : Dict.get? (sampledRecords names) name with
      | none =>
          rw [found] at isRecord
          cases isRecord
      | some records =>
          rcases List.mem_map.mp (Dict.mem_of_get? found) with ⟨_, _, same⟩
          cases same
          rw [found, Option.getD_some] at isRecord
          exact steadyRecords_readable isRecord
    · cases isRecord
  apply analyseExperiment_succeeds
  · intro variant record isRecord
    exact (records variant record isRecord).1
  · intro variant
    have none : (recordsOf fractionStatistics (sampledRecords names) variant).filterMap confidence =
        [] :=
      List.filterMap_eq_nil_iff.mpr fun record isRecord => (records variant record isRecord).2
    rw [meanConfidence, none]
    exact succeeds_ok _

theorem positive_covers_steady :
    ∃ report, analyseExperiment fractionStatistics (sampledRecords ["control", "fast", "small"])
        threeArms = .ok report ∧
      (IsPositive report.recommendation → ∃ onLatency ∈ report.comparisons,
        compareLatency fractionStatistics (sampledRecords ["control", "fast", "small"])
          steadyRecords smallArm = .ok onLatency ∧
          onLatency.slower fractionStatistics = false) := by
  rcases analyse_sampledRecords ["control", "fast", "small"] with ⟨report, analysed⟩
  refine ⟨report, analysed, ?_⟩
  intro positive
  have sampled : ∀ variant ∈ threeArms.variants.tail, minArmSamples ≤ (recordsOf
      fractionStatistics (sampledRecords ["control", "fast", "small"]) variant).length := by
    intro variant isVariant
    rw [← length_steadyRecords]
    rcases List.mem_pair.mp isVariant with rfl | rfl
    · exact le_rfl
    · exact le_rfl
  have covers := (positive_covers_iff analysed).mpr (Or.inr (Or.inr (Or.inl sampled))) positive
  exact (covers.2 _ (List.mem_cons_of_mem _ List.mem_cons_self)).2.1

/-- The small arm has no records, and still either arm is acceptable. -/
theorem unsampled_arm_is_accepted :
    ∃ report, analyseExperiment fractionStatistics (sampledRecords ["control", "fast"]) threeArms =
        .ok report ∧
      IsPositive report.recommendation ∧ ∃ variant ∈ threeArms.variants.tail,
        recordsOf fractionStatistics (sampledRecords ["control", "fast"]) variant = [] := by
  rcases analyse_sampledRecords ["control", "fast"] with ⟨report, analysed⟩
  refine ⟨report, analysed, ?_, smallArm,
    List.mem_cons_of_mem _ List.mem_cons_self, rfl⟩
  have control : controlRecords fractionStatistics (sampledRecords ["control", "fast"]) threeArms =
      steadyRecords := rfl
  rcases analyseExperiment_cases analysed with ⟨few, _⟩ | ⟨_, compared, recommended⟩
  · rw [control, length_steadyRecords] at few
    exact absurd few (lt_irrefl _)
  rw [control] at compared
  rw [recommended, isPositive_recommend_iff, no_regression_iff compared]
  constructor
  · have present := (mem_compareChallengers compared _).mpr ⟨fastArm, List.mem_cons_self,
      length_steadyRecords.ge, Or.inr rfl⟩
    exact List.ne_nil_of_mem present
  · intro variant isVariant many
    rcases List.mem_pair.mp isVariant with rfl | rfl
    · constructor
      · intro onLatency isLatency
        rcases bind_ok_iff.mp isLatency with ⟨values, areValues, isLatency⟩
        rcases bind_ok_iff.mp isLatency with ⟨others, areOthers, isLatency⟩
        cases areValues.symm.trans areOthers
        cases isLatency
        rw [Comparison.slower, compareMeans, (fractionStatistics_less_sub_self _).1,
          Bool.and_false]
      · have same : (compareSuccess fractionStatistics (sampledRecords ["control", "fast"])
            steadyRecords fastArm).absoluteDifference = fractionStatistics.sub
              (rate fractionStatistics (steadyRecords.countP succeeded) steadyRecords.length)
              (rate fractionStatistics (steadyRecords.countP succeeded) steadyRecords.length) := rfl
        rw [Comparison.failsMore, same, (fractionStatistics_less_sub_self _).2, Bool.and_false]
    · exact absurd many (by decide)

end VisionApi.Validation
