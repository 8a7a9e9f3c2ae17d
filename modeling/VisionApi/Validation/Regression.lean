import Mathlib.Algebra.Order.Ring.Abs
import Mathlib.Data.List.Infix
import Mathlib.Tactic.Linarith
import Mathlib.Tactic.Ring
import VisionApi.Experiments.Config

/-!
# The regression gate

A candidate is compared with a recorded baseline, metric by metric.  Tolerances
are relative to the baseline and directional; a floor, or a ceiling where lower
is better, bounds a metric absolutely.  A metric that the baseline has and the
candidate lacks fails the check.

Numbers are a parameter: what the code does with them is compare, add, multiply and
divide.  The facts on which metric passes are proved for any numbers, as the comparisons
the code makes (`Accepts`), and `passes_numbers_iff` is the whole check.  Two
interpretations follow.

In an ordered field the comparisons are orders, and a candidate that is no worse than the
baseline passes as far as the floors and the sign of the baseline allow
(`improvement_passes_iff`).  With floats, where a NaN compares as false with everything,
the question is which floors a candidate that passed really meets
(`passed_meets_floors_iff`).
-/

namespace VisionApi.Validation

open Foundation Experiments

/-! ## Comparison of one metric -/

/-- The arithmetic of floats that the checks use, and `f"{value:.nf}"`. -/
structure Arithmetic (Number : Type) extends FloatOps Number where
  zero : Number
  one : Number
  hundred : Number
  sub : Number → Number → Number
  mul : Number → Number → Number
  div : Number → Number → Number
  fixed : ℕ → Number → String

/-- Which way is better for a metric. -/
inductive Direction where
  | higherIsBetter
  | lowerIsBetter

/-- What is asked of a metric. -/
structure MetricSpec (Number : Type) where
  name : String
  direction : Direction
  tolerance : Number
  absoluteFloor : Option Number

variable {Number : Type} (ops : Arithmetic Number)

/-- The text for a floor that the candidate is below. -/
def belowFloor (candidate : Number) : Option Number → Option String
  | none => none
  | some floor =>
      if ops.less candidate floor then
        some (ops.fixed 4 candidate ++ " is below the absolute floor of " ++ ops.fixed 4 floor)
      else none

/-- The text for a ceiling that the candidate is above. -/
def aboveCeiling (candidate : Number) : Option Number → Option String
  | none => none
  | some ceiling =>
      if ops.less ceiling candidate then
        some (ops.fixed 2 candidate ++ " exceeds the absolute ceiling of " ++ ops.fixed 2 ceiling)
      else none

/-- `difference / baseline if baseline else 0.0`. -/
def relative (difference baseline : Number) : Number :=
  if ops.isZero baseline then ops.zero else ops.div difference baseline

/-- `MetricSpec.regressed`. -/
def MetricSpec.regressed (spec : MetricSpec Number) (baseline candidate : Number) :
    Bool × String :=
  match spec.direction with
  | .higherIsBetter =>
      match belowFloor ops candidate spec.absoluteFloor with
      | some text => (true, text)
      | none =>
          let permitted := ops.mul baseline (ops.sub ops.one spec.tolerance)
          if ops.less candidate permitted then
            let drop := relative ops (ops.sub baseline candidate) baseline
            (true, "dropped " ++ ops.fixed 2 (ops.mul drop ops.hundred) ++ "% (" ++
              ops.fixed 4 baseline ++ " -> " ++ ops.fixed 4 candidate ++ "), tolerance is " ++
              ops.fixed 1 (ops.mul spec.tolerance ops.hundred) ++ "%")
          else (false, "")
  | .lowerIsBetter =>
      match aboveCeiling ops candidate spec.absoluteFloor with
      | some text => (true, text)
      | none =>
          let permitted := ops.mul baseline (ops.add ops.one spec.tolerance)
          if ops.less permitted candidate then
            let increase := relative ops (ops.sub candidate baseline) baseline
            (true, "increased " ++ ops.fixed 2 (ops.mul increase ops.hundred) ++ "% (" ++
              ops.fixed 2 baseline ++ " -> " ++ ops.fixed 2 candidate ++ "), tolerance is " ++
              ops.fixed 1 (ops.mul spec.tolerance ops.hundred) ++ "%")
          else (false, "")

/-- The comparison of one metric with its baseline. -/
structure RegressionResult (Number : Type) where
  metric : String
  baseline : Number
  candidate : Number
  regressed : Bool
  detail : String
  improved : Bool

/-- `candidate_value > baseline_value`, or `<` where lower is better. -/
def MetricSpec.improved (spec : MetricSpec Number) (baseline candidate : Number) : Bool :=
  match spec.direction with
  | .higherIsBetter => ops.less baseline candidate
  | .lowerIsBetter => ops.less candidate baseline

/-- The result that is appended to the report. -/
def MetricSpec.result (spec : MetricSpec Number) (baseline candidate : Number) :
    RegressionResult Number :=
  let outcome := spec.regressed ops baseline candidate
  let improved := spec.improved ops baseline candidate
  { metric := spec.name
    baseline := baseline
    candidate := candidate
    regressed := outcome.1
    improved := improved && !outcome.1
    detail :=
      if outcome.2 ≠ "" then outcome.2
      else
        ops.fixed 4 baseline ++ " -> " ++ ops.fixed 4 candidate ++
          (if improved then " (improved)" else "") }

/-! ## The report -/

/-- The results of all metrics. -/
structure RegressionReport (Number : Type) where
  modelName : Json Number
  baselineVersion : Json Number
  candidateVersion : Json Number
  results : List (RegressionResult Number)
  missingMetrics : List String

/-- Whether the candidate may be released. -/
def RegressionReport.passed (report : RegressionReport Number) : Bool :=
  report.missingMetrics.isEmpty && !report.results.any (·.regressed)

/-- `name in value`. -/
def contains (value : Json Number) (name : String) : Except PyError Bool :=
  match value with
  | .object members => .ok (Dict.get? members name).isSome
  | .array items =>
      .ok (items.any fun item =>
        match item with
        | .string text => text = name
        | _ => false)
  | .string text => .ok (decide (name.toList <:+: text.toList))
  | _ => .error .type

/-- `float(metrics[name])`. -/
def metricValue (metrics : Json Number) (name : String) : Except PyError Number := do
  let value ← subscript metrics name
  toFloat ops.toFloatOps value

/-- `value.get("metrics", value)`. -/
def metricsOf (value : Dict String (Json Number)) : Json Number :=
  (Dict.get? value "metrics").getD (.object value)

/-- One pass of the loop of `compare_to_baseline`. -/
def compareMetric (baselineMetrics candidateMetrics : Json Number)
    (report : RegressionReport Number) (spec : MetricSpec Number) :
    Except PyError (RegressionReport Number) := do
  let isTracked ← contains baselineMetrics spec.name
  if isTracked then
    let isReported ← contains candidateMetrics spec.name
    if isReported then
      let baselineValue ← metricValue ops baselineMetrics spec.name
      let candidateValue ← metricValue ops candidateMetrics spec.name
      let result := spec.result ops baselineValue candidateValue
      .ok { report with results := report.results ++ [result] }
    else .ok { report with missingMetrics := report.missingMetrics ++ [spec.name] }
  -- A newly tracked metric has nothing to compare with.
  else .ok report

/-- `compare_to_baseline`. -/
def compareToBaseline (baseline candidate : Dict String (Json Number))
    (specs : List (MetricSpec Number)) (modelName : String) :
    Except PyError (RegressionReport Number) :=
  let report : RegressionReport Number :=
    { modelName :=
        if modelName ≠ "" then .string modelName
        else (Dict.get? baseline "model_name").getD (.string "")
      baselineVersion := (Dict.get? baseline "version").getD (.string "unknown")
      candidateVersion := (Dict.get? candidate "version").getD (.string "candidate")
      results := []
      missingMetrics := [] }
  specs.foldlM (compareMetric ops (metricsOf baseline) (metricsOf candidate)) report

/-! ## What passes -/

section Passed

variable {ops} {baselineMetrics candidateMetrics : Json Number}
  {report next : RegressionReport Number} {spec : MetricSpec Number}

/-- The spec has nothing to compare with, or compares the two values without a regression. -/
def Accepts (ops : Arithmetic Number) (baselineMetrics candidateMetrics : Json Number)
    (spec : MetricSpec Number) : Prop :=
  contains baselineMetrics spec.name = .ok true →
    ∃ baseline candidate, contains candidateMetrics spec.name = .ok true ∧
      metricValue ops baselineMetrics spec.name = .ok baseline ∧
      metricValue ops candidateMetrics spec.name = .ok candidate ∧
      (spec.regressed ops baseline candidate).1 = false

/-- What one pass of the loop can do. -/
theorem compareMetric_ok_iff :
    compareMetric ops baselineMetrics candidateMetrics report spec = .ok next ↔
      (contains baselineMetrics spec.name = .ok false ∧ next = report) ∨
      (contains baselineMetrics spec.name = .ok true ∧
        contains candidateMetrics spec.name = .ok false ∧
        next = { report with missingMetrics := report.missingMetrics ++ [spec.name] }) ∨
      (contains baselineMetrics spec.name = .ok true ∧
        contains candidateMetrics spec.name = .ok true ∧
        ∃ baseline candidate, metricValue ops baselineMetrics spec.name = .ok baseline ∧
          metricValue ops candidateMetrics spec.name = .ok candidate ∧
          next = { report with
            results := report.results ++ [spec.result ops baseline candidate] }) := by
  rw [compareMetric, bind_ok_iff]
  constructor
  · intro compared
    rcases compared with ⟨isTracked, tracked, compared⟩
    cases isTracked with
    | false =>
        left
        exact ⟨tracked, (Except.ok.inj compared).symm⟩
    | true =>
        right
        rcases bind_ok_iff.mp compared with ⟨isReported, reported, compared⟩
        cases isReported with
        | false =>
            left
            exact ⟨tracked, reported, (Except.ok.inj compared).symm⟩
        | true =>
            right
            rcases bind_ok_iff.mp compared with ⟨baseline, isBaseline, compared⟩
            rcases bind_ok_iff.mp compared with ⟨candidate, isCandidate, compared⟩
            exact ⟨tracked, reported, baseline, candidate, isBaseline, isCandidate,
              (Except.ok.inj compared).symm⟩
  · rintro (⟨tracked, rfl⟩ | ⟨tracked, reported, rfl⟩ |
      ⟨tracked, reported, baseline, candidate, isBaseline, isCandidate, rfl⟩)
    · exact ⟨false, tracked, rfl⟩
    · refine ⟨true, tracked, ?_⟩
      exact bind_ok_iff.mpr ⟨false, reported, rfl⟩
    · refine ⟨true, tracked, ?_⟩
      apply bind_ok_iff.mpr
      refine ⟨true, reported, ?_⟩
      apply bind_ok_iff.mpr
      refine ⟨baseline, isBaseline, ?_⟩
      apply bind_ok_iff.mpr
      exact ⟨candidate, isCandidate, rfl⟩

theorem passed_append_result (result : RegressionResult Number) :
    { report with results := report.results ++ [result] }.passed =
      (report.passed && !result.regressed) := by
  simp [RegressionReport.passed, Bool.and_assoc]

theorem passed_append_missing (name : String) :
    { report with missingMetrics := report.missingMetrics ++ [name] }.passed = false := by
  simp [RegressionReport.passed]

/-- After a pass the report passes if it did and the spec accepts the values. -/
theorem compareMetric_passed
    (compared : compareMetric ops baselineMetrics candidateMetrics report spec = .ok next) :
    next.passed = true ↔
      report.passed = true ∧ Accepts ops baselineMetrics candidateMetrics spec := by
  rcases compareMetric_ok_iff.mp compared with ⟨tracked, rfl⟩ | ⟨tracked, reported, rfl⟩ |
      ⟨tracked, reported, baseline, candidate, isBaseline, isCandidate, rfl⟩
  · have accepts : Accepts ops baselineMetrics candidateMetrics spec := by
      intro isTracked
      rw [tracked] at isTracked
      cases isTracked
    exact (and_iff_left accepts).symm
  · rw [passed_append_missing]
    constructor
    · intro passed
      cases passed
    · intro accepted
      rcases accepted.2 tracked with ⟨_, _, isReported, _⟩
      rw [reported] at isReported
      cases isReported
  · rw [passed_append_result, Bool.and_eq_true, Bool.not_eq_true']
    apply and_congr_right
    intro _
    constructor
    · intro kept _
      exact ⟨baseline, candidate, reported, isBaseline, isCandidate, kept⟩
    · intro accepts
      rcases accepts tracked with ⟨other, another, _, isOther, isAnother, kept⟩
      rw [isBaseline] at isOther
      rw [isCandidate] at isAnother
      cases isOther
      cases isAnother
      exact kept

/-- The check passes exactly if it accepts every metric. -/
theorem compareMetrics_passed {specs : List (MetricSpec Number)}
    (compared : specs.foldlM (compareMetric ops baselineMetrics candidateMetrics) report =
      .ok next) :
    next.passed = true ↔ report.passed = true ∧
      ∀ spec ∈ specs, Accepts ops baselineMetrics candidateMetrics spec := by
  induction specs generalizing report with
  | nil =>
      cases compared
      simp
  | cons spec specs ih =>
      rw [List.foldlM_cons] at compared
      rcases bind_ok_iff.mp compared with ⟨middle, first, rest⟩
      rw [ih rest, compareMetric_passed first, List.forall_mem_cons, and_assoc]

/-- A report passes if every spec accepts the metrics. -/
theorem compareToBaseline_passed {baseline candidate : Dict String (Json Number)}
    {specs : List (MetricSpec Number)} {modelName : String}
    (compared : compareToBaseline ops baseline candidate specs modelName = .ok next) :
    next.passed = true ↔
      ∀ spec ∈ specs, Accepts ops (metricsOf baseline) (metricsOf candidate) spec := by
  apply (compareMetrics_passed compared).trans
  exact and_iff_right rfl

/-- Where a report was made, every metric of a spec could be looked up and read. -/
theorem compareMetrics_reads {specs : List (MetricSpec Number)}
    (compared : specs.foldlM (compareMetric ops baselineMetrics candidateMetrics) report =
      .ok next) (isSpec : spec ∈ specs) :
    contains baselineMetrics spec.name = .ok false ∨
      contains baselineMetrics spec.name = .ok true ∧
        (contains candidateMetrics spec.name = .ok true →
          ∃ baseline, metricValue ops baselineMetrics spec.name = .ok baseline) := by
  induction specs generalizing report with
  | nil => cases isSpec
  | cons first specs ih =>
      rw [List.foldlM_cons] at compared
      rcases bind_ok_iff.mp compared with ⟨middle, step, rest⟩
      rcases List.mem_cons.mp isSpec with rfl | isLater
      · rcases compareMetric_ok_iff.mp step with ⟨tracked, _⟩ | ⟨tracked, missing, _⟩ |
          ⟨tracked, _, baseline, _, isBaseline, _⟩
        · exact Or.inl tracked
        · right
          refine ⟨tracked, ?_⟩
          intro reported
          rw [missing] at reported
          cases reported
        · right
          exact ⟨tracked, fun _ => ⟨baseline, isBaseline⟩⟩
      · exact ih rest isLater

/-- The metrics whose values are floats. -/
def numbers (metrics : Dict String Number) : Json Number :=
  .object (metrics.mapValues .float)

theorem contains_numbers (metrics : Dict String Number) (name : String) :
    contains (numbers metrics) name = .ok (metrics.get? name).isSome := by
  rw [numbers, contains, Dict.get?_mapValues, Option.isSome_map]

theorem metricValue_numbers {metrics : Dict String Number} {name : String} {value : Number}
    (found : metrics.get? name = some value) :
    metricValue ops (numbers metrics) name = .ok value := by
  rw [numbers, metricValue, subscript, Dict.get?_mapValues, found]
  rfl

theorem numbers_reported {metrics : Dict String Number} {name : String} {value : Number}
    (found : metrics.get? name = some value) : contains (numbers metrics) name = .ok true := by
  rw [contains_numbers, found, Option.isSome_some]

/-- The candidate is released. -/
def Passes (ops : Arithmetic Number) (specs : List (MetricSpec Number))
    (baseline candidate : Dict String (Json Number)) (modelName : String) : Prop :=
  (compareToBaseline ops baseline candidate specs modelName).map (·.passed) = .ok true

section Numbers

variable {baselineNumbers candidateNumbers : Dict String Number}

theorem compareMetrics_succeeds (ops : Arithmetic Number)
    (baselineNumbers candidateNumbers : Dict String Number) (specs : List (MetricSpec Number))
    (report : RegressionReport Number) :
    Succeeds (specs.foldlM
      (compareMetric ops (numbers baselineNumbers) (numbers candidateNumbers)) report) := by
  induction specs generalizing report with
  | nil => exact ⟨report, rfl⟩
  | cons spec specs ih =>
      have step : Succeeds (compareMetric ops (numbers baselineNumbers)
          (numbers candidateNumbers) report spec) := by
        cases tracked : baselineNumbers.get? spec.name with
        | none =>
            refine ⟨_, compareMetric_ok_iff.mpr (Or.inl ⟨?_, rfl⟩)⟩
            rw [contains_numbers, tracked, Option.isSome_none]
        | some baseline =>
            cases reported : candidateNumbers.get? spec.name with
            | none =>
                refine ⟨_, compareMetric_ok_iff.mpr
                  (Or.inr (Or.inl ⟨numbers_reported tracked, ?_, rfl⟩))⟩
                rw [contains_numbers, reported, Option.isSome_none]
            | some candidate =>
                exact ⟨_, compareMetric_ok_iff.mpr
                  (Or.inr (Or.inr ⟨numbers_reported tracked, numbers_reported reported, baseline,
                    candidate, metricValue_numbers tracked, metricValue_numbers reported, rfl⟩))⟩
      rcases step with ⟨middle, first⟩
      rcases ih middle with ⟨final, rest⟩
      refine ⟨final, ?_⟩
      rw [List.foldlM_cons]
      exact bind_ok_iff.mpr ⟨middle, first, rest⟩

/-- When a metric is accepted, in terms of the numbers. -/
theorem accepts_numbers_iff :
    Accepts ops (numbers baselineNumbers) (numbers candidateNumbers) spec ↔
      ∀ baseline, baselineNumbers.get? spec.name = some baseline →
        ∃ candidate, candidateNumbers.get? spec.name = some candidate ∧
          (spec.regressed ops baseline candidate).1 = false := by
  constructor
  · intro accepts baseline tracked
    rcases accepts (numbers_reported tracked) with
      ⟨other, candidate, reported, isOther, isCandidate, kept⟩
    rw [contains_numbers, Except.ok.injEq, Option.isSome_iff_exists] at reported
    rcases reported with ⟨value, reported⟩
    rw [metricValue_numbers tracked, Except.ok.injEq] at isOther
    rw [metricValue_numbers reported, Except.ok.injEq] at isCandidate
    subst isOther
    subst isCandidate
    exact ⟨value, reported, kept⟩
  · intro kept tracked
    rw [contains_numbers, Except.ok.injEq, Option.isSome_iff_exists] at tracked
    rcases tracked with ⟨baseline, tracked⟩
    rcases kept baseline tracked with ⟨candidate, reported, kept⟩
    exact ⟨baseline, candidate, numbers_reported reported, metricValue_numbers tracked,
      metricValue_numbers reported, kept⟩

/-- A spec rejects a candidate that lacks a tracked metric, or in which it regresses. -/
theorem not_accepts_iff
    (reads : contains (numbers candidateNumbers) spec.name = .ok true →
      ∃ baseline, metricValue ops baselineMetrics spec.name = .ok baseline) :
    ¬Accepts ops baselineMetrics (numbers candidateNumbers) spec ↔
      contains baselineMetrics spec.name = .ok true ∧
        (candidateNumbers.get? spec.name = none ∨
          ∃ before after, metricValue ops baselineMetrics spec.name = .ok before ∧
            candidateNumbers.get? spec.name = some after ∧
            (spec.regressed ops before after).1 = true) := by
  constructor
  · intro rejects
    have tracked : contains baselineMetrics spec.name = .ok true := by
      by_contra untracked
      exact rejects fun tracked => absurd tracked untracked
    refine ⟨tracked, ?_⟩
    cases reported : candidateNumbers.get? spec.name with
    | none => exact Or.inl rfl
    | some after =>
        right
        rcases reads (numbers_reported reported) with ⟨before, isBefore⟩
        refine ⟨before, after, isBefore, rfl, ?_⟩
        by_contra kept
        apply rejects
        intro _
        exact ⟨before, after, numbers_reported reported, isBefore, metricValue_numbers reported,
          eq_false_of_ne_true kept⟩
  · intro rejected accepts
    rcases accepts rejected.1 with ⟨baseline, candidate, reported, isBaseline, isCandidate, kept⟩
    rcases rejected.2 with missing | ⟨before, after, isBefore, isAfter, regresses⟩
    · rw [contains_numbers, missing] at reported
      cases reported
    · rw [metricValue_numbers isAfter] at isCandidate
      rw [isBefore] at isBaseline
      cases isCandidate
      cases isBaseline
      rw [kept] at regresses
      cases regresses

/-- With floats on both sides, the candidate is released if no metric of the baseline is missing
and none regresses. -/
theorem passes_numbers_iff {baseline candidate : Dict String (Json Number)}
    (isBaseline : metricsOf baseline = numbers baselineNumbers)
    (isCandidate : metricsOf candidate = numbers candidateNumbers)
    (specs : List (MetricSpec Number)) (modelName : String) :
    Passes ops specs baseline candidate modelName ↔
      ∀ spec ∈ specs, ∀ baseline, baselineNumbers.get? spec.name = some baseline →
        ∃ candidate, candidateNumbers.get? spec.name = some candidate ∧
          (spec.regressed ops baseline candidate).1 = false := by
  have succeeds : Succeeds (compareToBaseline ops baseline candidate specs modelName) := by
    rw [compareToBaseline, isBaseline, isCandidate]
    exact compareMetrics_succeeds _ _ _ _ _
  rcases succeeds with ⟨report, compared⟩
  rw [Passes, compared, Except.map, Except.ok.injEq, compareToBaseline_passed compared, isBaseline,
    isCandidate]
  exact forall₂_congr fun _ _ => accepts_numbers_iff

end Numbers

end Passed

/-! ## When a value regresses -/

/-- The value is worse than the bound, as far as they compare. -/
def Direction.worse (direction : Direction) (value bound : Number) : Bool :=
  match direction with
  | .higherIsBetter => ops.less value bound
  | .lowerIsBetter => ops.less bound value

/-- The worst value that the tolerance permits. -/
def MetricSpec.permitted (spec : MetricSpec Number) (baseline : Number) : Number :=
  match spec.direction with
  | .higherIsBetter => ops.mul baseline (ops.sub ops.one spec.tolerance)
  | .lowerIsBetter => ops.mul baseline (ops.add ops.one spec.tolerance)

/-- A value does not regress if it is worse than neither the floor nor the permitted value. -/
theorem MetricSpec.regressed_eq_false_iff (spec : MetricSpec Number)
    (baseline candidate : Number) :
    (spec.regressed ops baseline candidate).1 = false ↔
      (∀ floor, spec.absoluteFloor = some floor →
        spec.direction.worse ops candidate floor = false) ∧
      spec.direction.worse ops candidate (spec.permitted ops baseline) = false := by
  rcases spec with ⟨name, direction, tolerance, absoluteFloor⟩
  cases direction with
  | higherIsBetter =>
      cases absoluteFloor with
      | none => simp [regressed, belowFloor, Direction.worse, permitted, apply_ite Prod.fst]
      | some floor =>
          by_cases below : ops.less candidate floor = true
          · simp [regressed, belowFloor, Direction.worse, below]
          · simp [regressed, belowFloor, Direction.worse, permitted, below, apply_ite Prod.fst]
  | lowerIsBetter =>
      cases absoluteFloor with
      | none => simp [regressed, aboveCeiling, Direction.worse, permitted, apply_ite Prod.fst]
      | some ceiling =>
          by_cases above : ops.less ceiling candidate = true
          · simp [regressed, aboveCeiling, Direction.worse, above]
          · simp [regressed, aboveCeiling, Direction.worse, permitted, above, apply_ite Prod.fst]

/-! ## Real-valued metrics -/

section Ordered

variable {K : Type} [LinearOrder K]

/-- The value is the bound or better. -/
def Direction.AsGood (direction : Direction) (value bound : K) : Prop :=
  match direction with
  | .higherIsBetter => bound ≤ value
  | .lowerIsBetter => value ≤ bound

/-- The candidate reports every metric of the baseline, as good as there and inside its floor. -/
def Dominates (specs : List (MetricSpec K)) (baselineMetrics candidateMetrics : Dict String K) :
    Prop :=
  ∀ spec ∈ specs, ∀ baseline, baselineMetrics.get? spec.name = some baseline →
    ∃ candidate, candidateMetrics.get? spec.name = some candidate ∧
      spec.direction.AsGood candidate baseline ∧
      ∀ floor, spec.absoluteFloor = some floor → spec.direction.AsGood candidate floor

/-- Every metric of the first candidate is reported by the second one, and as good. -/
def Improves (specs : List (MetricSpec K)) (metrics others : Dict String K) : Prop :=
  ∀ spec ∈ specs, ∀ value, metrics.get? spec.name = some value →
    ∃ other, others.get? spec.name = some other ∧ spec.direction.AsGood other value

/-- Being as good is transitive. -/
theorem Direction.AsGood.trans {direction : Direction} {best middle worst : K}
    (first : direction.AsGood best middle) (second : direction.AsGood middle worst) :
    direction.AsGood best worst := by
  cases direction with
  | higherIsBetter => exact le_trans second first
  | lowerIsBetter => exact le_trans first second

end Ordered

section Exact

variable {K : Type} [Field K] [LinearOrder K]

/-- Exact arithmetic on an ordered field. -/
structure Arithmetic.IsExact (ops : Arithmetic K) : Prop where
  less : ∀ left right, ops.less left right = true ↔ left < right
  one : ops.one = 1
  add : ∀ left right, ops.add left right = left + right
  sub : ∀ left right, ops.sub left right = left - right
  mul : ∀ left right, ops.mul left right = left * right

/-- The value that is better by a margin. -/
def Direction.better (direction : Direction) (value margin : K) : K :=
  match direction with
  | .higherIsBetter => value + margin
  | .lowerIsBetter => value - margin

variable {ops : Arithmetic K} {spec : MetricSpec K}

/-- A value that is not worse is as good. -/
theorem Arithmetic.IsExact.worse_eq_false_iff (exact : ops.IsExact) (direction : Direction)
    (value bound : K) :
    direction.worse ops value bound = false ↔ direction.AsGood value bound := by
  cases direction with
  | higherIsBetter =>
      rw [Direction.worse, Direction.AsGood, ← Bool.not_eq_true, exact.less, not_lt]
  | lowerIsBetter =>
      rw [Direction.worse, Direction.AsGood, ← Bool.not_eq_true, exact.less, not_lt]

variable [IsStrictOrderedRing K]

/-- A value as good as the baseline is permitted, but where the baseline is negative: there it has
to be better by the tolerance. -/
theorem Arithmetic.IsExact.asGood_permitted_iff (exact : ops.IsExact) {baseline candidate : K}
    (tolerance : 0 ≤ spec.tolerance) (asGood : spec.direction.AsGood candidate baseline) :
    spec.direction.AsGood candidate (spec.permitted ops baseline) ↔
      (baseline < 0 → spec.direction.AsGood candidate
        (spec.direction.better baseline (spec.tolerance * |baseline|))) := by
  rcases spec with ⟨name, direction, tol, absoluteFloor⟩
  cases direction with
  | higherIsBetter =>
      simp only [Direction.AsGood, Direction.better, MetricSpec.permitted, exact.mul, exact.sub,
        exact.one] at *
      rcases lt_or_ge baseline 0 with negative | nonneg
      · rw [abs_of_neg negative, show baseline * (1 - tol) = baseline + tol * -baseline by ring]
        exact ⟨fun inside _ => inside, fun inside => inside negative⟩
      · refine iff_of_true ?_ (fun negative => absurd nonneg negative.not_ge)
        have margin := mul_nonneg nonneg tolerance
        linarith
  | lowerIsBetter =>
      simp only [Direction.AsGood, Direction.better, MetricSpec.permitted, exact.mul, exact.add,
        exact.one] at *
      rcases lt_or_ge baseline 0 with negative | nonneg
      · rw [abs_of_neg negative, show baseline * (1 + tol) = baseline - tol * -baseline by ring]
        exact ⟨fun inside _ => inside, fun inside => inside negative⟩
      · refine iff_of_true ?_ (fun negative => absurd nonneg negative.not_ge)
        have margin := mul_nonneg nonneg tolerance
        linarith

omit [IsStrictOrderedRing K] in
/-- A candidate that is as good in every metric as one that passes passes too. -/
theorem Passes.of_improves (exact : ops.IsExact) {specs : List (MetricSpec K)}
    {baseline candidate other : Dict String (Json K)}
    {baselineNumbers candidateNumbers otherNumbers : Dict String K}
    (isBaseline : metricsOf baseline = numbers baselineNumbers)
    (isCandidate : metricsOf candidate = numbers candidateNumbers)
    (isOther : metricsOf other = numbers otherNumbers) {modelName : String}
    (improves : Improves specs candidateNumbers otherNumbers)
    (passes : Passes ops specs baseline candidate modelName) :
    Passes ops specs baseline other modelName := by
  rw [passes_numbers_iff isBaseline isOther]
  intro spec isSpec before tracked
  rcases (passes_numbers_iff isBaseline isCandidate specs modelName).mp passes spec isSpec before
    tracked with ⟨value, reported, kept⟩
  rcases improves spec isSpec value reported with ⟨better, isBetter, asGood⟩
  refine ⟨better, isBetter, ?_⟩
  rw [MetricSpec.regressed_eq_false_iff] at kept ⊢
  simp only [exact.worse_eq_false_iff] at kept ⊢
  exact ⟨fun floor isFloor => asGood.trans (kept.1 floor isFloor), asGood.trans kept.2⟩

/-- With real metrics and no negative tolerance: replacing metrics by better ones keeps a pass; and
a candidate that dominates its baseline passes exactly if it beats every negative metric of the
baseline by the tolerance. -/
theorem improvement_passes_iff (exact : ops.IsExact) (specs : List (MetricSpec K))
    (tolerances : ∀ spec ∈ specs, 0 ≤ spec.tolerance)
    (baseline candidate : Dict String (Json K)) (baselineNumbers candidateNumbers : Dict String K)
    (isBaseline : metricsOf baseline = numbers baselineNumbers)
    (isCandidate : metricsOf candidate = numbers candidateNumbers) (modelName : String) :
    ((Dominates specs baselineNumbers candidateNumbers →
        Passes ops specs baseline candidate modelName) ∧
      ∀ other otherNumbers, metricsOf other = numbers otherNumbers →
        Improves specs candidateNumbers otherNumbers →
        Passes ops specs baseline candidate modelName →
        Passes ops specs baseline other modelName) ↔
      (Dominates specs baselineNumbers candidateNumbers →
        ∀ spec ∈ specs, ∀ before after, baselineNumbers.get? spec.name = some before →
          candidateNumbers.get? spec.name = some after → before < 0 →
          spec.direction.AsGood after
            (spec.direction.better before (spec.tolerance * |before|))) := by
  have monotone : ∀ other otherNumbers, metricsOf other = numbers otherNumbers →
      Improves specs candidateNumbers otherNumbers →
      Passes ops specs baseline candidate modelName →
      Passes ops specs baseline other modelName := by
    intro other otherNumbers isOther improves passes
    exact passes.of_improves exact isBaseline isCandidate isOther improves
  rw [and_iff_left monotone]
  apply imp_congr_right
  intro dominates
  rw [passes_numbers_iff isBaseline isCandidate]
  constructor
  · intro passes spec isSpec before after tracked reported
    rcases dominates spec isSpec before tracked with ⟨value, isValue, asGood, _⟩
    rcases passes spec isSpec before tracked with ⟨other, isOther, kept⟩
    rw [reported, Option.some.injEq] at isValue isOther
    subst isValue
    subst isOther
    rw [MetricSpec.regressed_eq_false_iff] at kept
    exact (exact.asGood_permitted_iff (tolerances spec isSpec) asGood).mp
      ((exact.worse_eq_false_iff _ _ _).mp kept.2)
  · intro clears spec isSpec before tracked
    rcases dominates spec isSpec before tracked with ⟨value, isValue, asGood, floors⟩
    refine ⟨value, isValue, ?_⟩
    rw [MetricSpec.regressed_eq_false_iff]
    simp only [exact.worse_eq_false_iff]
    refine ⟨floors, ?_⟩
    exact (exact.asGood_permitted_iff (tolerances spec isSpec) asGood).mpr
      (clears spec isSpec before value tracked isValue)

end Exact

/-- Exact arithmetic on fractions. -/
def fractions : Arithmetic ℚ where
  toFloatOps := exactOps
  zero := 0
  one := 1
  hundred := 100
  sub := fun left right => left - right
  mul := fun left right => left * right
  div := fun left right => left / right
  fixed := fun _ value => toString value

/-- The arithmetic of fractions is exact. -/
theorem fractions_isExact : fractions.IsExact where
  less left right := by
    rw [show fractions.less = exactOps.less from rfl, exactOps_less, decide_eq_true_eq]
  one := rfl
  add _ _ := rfl
  sub _ _ := rfl
  mul _ _ := rfl

/-- The metrics that are gated on release. -/
def defaultSpecs : List (MetricSpec ℚ) :=
  [⟨"acc_top1", .higherIsBetter, 2 / 100, some (80 / 100)⟩,
    ⟨"acc_top5", .higherIsBetter, 2 / 100, some (93 / 100)⟩,
    ⟨"latency_p50_ms", .lowerIsBetter, 20 / 100, none⟩,
    ⟨"latency_p95_ms", .lowerIsBetter, 25 / 100, none⟩,
    ⟨"artifact_size_mb", .lowerIsBetter, 10 / 100, none⟩]

theorem defaultSpecs_tolerance : ∀ spec ∈ defaultSpecs, 0 ≤ spec.tolerance := by
  norm_num [defaultSpecs]

/-- Only the first spec compares a lone top-1 accuracy. -/
theorem accuracy_of_tracked {spec : MetricSpec ℚ} (isSpec : spec ∈ defaultSpecs)
    {value before : ℚ} (tracked : Dict.get? [("acc_top1", value)] spec.name = some before) :
    spec = ⟨"acc_top1", .higherIsBetter, 2 / 100, some (80 / 100)⟩ := by
  simp only [defaultSpecs, List.mem_cons, List.not_mem_nil, or_false] at isSpec
  rcases isSpec with rfl | rfl | rfl | rfl | rfl
  · rfl
  all_goals cases tracked

/-- A better accuracy passes. -/
theorem improvement_passes_accuracy :
    Passes fractions defaultSpecs [("acc_top1", .float (81 / 100))]
      [("acc_top1", .float (82 / 100))] "" := by
  apply ((improvement_passes_iff fractions_isExact defaultSpecs defaultSpecs_tolerance
    [("acc_top1", .float (81 / 100))] [("acc_top1", .float (82 / 100))]
    [("acc_top1", 81 / 100)] [("acc_top1", 82 / 100)] rfl rfl "").mpr ?_).1
  · intro spec isSpec before tracked
    cases accuracy_of_tracked isSpec tracked
    cases tracked
    refine ⟨82 / 100, rfl, ?_, ?_⟩
    · norm_num [Direction.AsGood]
    · rintro floor ⟨⟩
      norm_num [Direction.AsGood]
  · intro _ spec isSpec before after tracked _ negative
    cases accuracy_of_tracked isSpec tracked
    cases tracked
    norm_num at negative

/-- A metric that is negative, such as a log-likelihood. -/
def likelihoodSpec : MetricSpec ℚ :=
  ⟨"log_likelihood", .higherIsBetter, 2 / 100, none⟩

/-- A candidate that equals its baseline does not pass. -/
theorem equal_candidate_fails :
    0 ≤ likelihoodSpec.tolerance ∧
      Dominates [likelihoodSpec] [("log_likelihood", -1)] [("log_likelihood", -1)] ∧
      ¬Passes fractions [likelihoodSpec] [("log_likelihood", .float (-1))]
        [("log_likelihood", .float (-1))] "" := by
  refine ⟨by norm_num [likelihoodSpec], ?_, ?_⟩
  · simp [Dominates, likelihoodSpec, Dict.get?, Direction.AsGood]
  · intro passes
    have isNumbers : metricsOf [("log_likelihood", Json.float (-1 : ℚ))] =
        numbers [("log_likelihood", -1)] := rfl
    rw [passes_numbers_iff isNumbers isNumbers] at passes
    have kept := passes likelihoodSpec List.mem_cons_self (-1) rfl
    simp only [MetricSpec.regressed_eq_false_iff, fractions_isExact.worse_eq_false_iff] at kept
    norm_num [likelihoodSpec, Dict.get?, Direction.AsGood, MetricSpec.permitted, fractions] at kept

/-! ## Floats -/

/-- A float: a number, which may be infinite, or not a number. -/
inductive Floating (Order : Type) where
  | nan
  | number (value : Order)

namespace Floating

variable {Order : Type} [LinearOrder Order]

/-- A NaN is less than nothing. -/
def less : Floating Order → Floating Order → Bool
  | .number left, .number right => left < right
  | _, _ => false

/-- A NaN is at most nothing. -/
def atMost : Floating Order → Floating Order → Bool
  | .number left, .number right => left ≤ right
  | _, _ => false

/-- Neither of the two is `nan`. -/
def ordered : Floating Order → Floating Order → Bool
  | .number _, .number _ => true
  | _, _ => false

theorem atMost_iff {left right : Floating Order} :
    left.atMost right = true ↔ right.less left = false ∧ left.ordered right = true := by
  cases left <;> cases right <;> simp [atMost, less, ordered]

end Floating

section Floats

variable {Order : Type} [LinearOrder Order]

/-- `value >= floor`, or `<=` where lower is better. -/
def Direction.meets (direction : Direction) (value floor : Floating Order) : Bool :=
  match direction with
  | .higherIsBetter => floor.atMost value
  | .lowerIsBetter => value.atMost floor

theorem Direction.meets_iff {ops : Arithmetic (Floating Order)}
    (compares : ops.less = Floating.less) (direction : Direction) (value floor : Floating Order) :
    direction.meets value floor = true ↔
      direction.worse ops value floor = false ∧ value.ordered floor = true := by
  cases direction with
  | higherIsBetter =>
      rw [meets, worse, compares, Floating.atMost_iff]
      cases value <;> cases floor <;> simp [Floating.ordered]
  | lowerIsBetter => rw [meets, worse, compares, Floating.atMost_iff]

variable {ops : Arithmetic (Floating Order)} {baselineMetrics : Json (Floating Order)}
  {candidateNumbers : Dict String (Floating Order)} {spec : MetricSpec (Floating Order)}

/-- An accepted value meets a floor unless one of them is `nan`. -/
theorem Accepts.meets_iff (compares : ops.less = Floating.less)
    (accepts : Accepts ops baselineMetrics (numbers candidateNumbers) spec)
    (tracked : contains baselineMetrics spec.name = .ok true) {floor value : Floating Order}
    (isFloor : spec.absoluteFloor = some floor)
    (isValue : candidateNumbers.get? spec.name = some value) :
    spec.direction.meets value floor = true ↔ value.ordered floor = true := by
  rcases accepts tracked with ⟨baseline, candidate, _, _, isCandidate, kept⟩
  rw [metricValue_numbers isValue] at isCandidate
  cases isCandidate
  rw [spec.direction.meets_iff compares]
  exact and_iff_right (((spec.regressed_eq_false_iff ops _ _).mp kept).1 floor isFloor)

/-- A report that passes keeps the candidate inside its floors exactly if no value is unordered and
every metric that the baseline lacks meets its floor. -/
theorem passed_meets_floors_iff {ops : Arithmetic (Floating Order)}
    (compares : ops.less = Floating.less) (specs : List (MetricSpec (Floating Order)))
    (baseline candidate : Dict String (Json (Floating Order)))
    (candidateNumbers : Dict String (Floating Order))
    (isCandidate : metricsOf candidate = numbers candidateNumbers) (modelName : String)
    {report : RegressionReport (Floating Order)}
    (compared : compareToBaseline ops baseline candidate specs modelName = .ok report) :
    (report.passed = true → ∀ spec ∈ specs, ∀ floor value, spec.absoluteFloor = some floor →
        candidateNumbers.get? spec.name = some value →
        spec.direction.meets value floor = true) ↔
      (∃ spec ∈ specs, contains (metricsOf baseline) spec.name = .ok true ∧
        (candidateNumbers.get? spec.name = none ∨
          ∃ before after, metricValue ops (metricsOf baseline) spec.name = .ok before ∧
            candidateNumbers.get? spec.name = some after ∧
            (spec.regressed ops before after).1 = true)) ∨
      ∀ spec ∈ specs, ∀ floor value, spec.absoluteFloor = some floor →
        candidateNumbers.get? spec.name = some value →
        (contains (metricsOf baseline) spec.name = .ok true → value.ordered floor = true) ∧
          (contains (metricsOf baseline) spec.name = .ok false →
            spec.direction.meets value floor = true) := by
  have reads {spec : MetricSpec (Floating Order)} (isSpec : spec ∈ specs) :=
    compareMetrics_reads (compared : specs.foldlM _ _ = _) isSpec
  have isPassed := compareToBaseline_passed compared
  rw [isCandidate] at isPassed reads
  by_cases passed : report.passed = true
  · have accepts := isPassed.mp passed
    constructor
    · intro meets
      right
      intro spec isSpec floor value isFloor isValue
      have met := meets passed spec isSpec floor value isFloor isValue
      refine ⟨?_, fun _ => met⟩
      intro tracked
      exact ((accepts spec isSpec).meets_iff compares tracked isFloor isValue).mp met
    · intro kept _ spec isSpec floor value isFloor isValue
      rcases kept with ⟨other, isOther, rejected⟩ | kept
      · have readable : contains (numbers candidateNumbers) other.name = .ok true →
            ∃ before, metricValue ops (metricsOf baseline) other.name = .ok before := by
          rcases reads isOther with untracked | ⟨_, readable⟩
          · rw [rejected.1] at untracked
            cases untracked
          · exact readable
        exact absurd (accepts other isOther) ((not_accepts_iff readable).mpr rejected)
      · have either := kept spec isSpec floor value isFloor isValue
        rcases reads isSpec with untracked | ⟨tracked, _⟩
        · exact either.2 untracked
        · exact ((accepts spec isSpec).meets_iff compares tracked isFloor isValue).mpr
            (either.1 tracked)
  · apply iff_of_true
    · intro isPassing
      exact absurd isPassing passed
    · left
      rw [isPassed] at passed
      push Not at passed
      rcases passed with ⟨spec, isSpec, rejects⟩
      refine ⟨spec, isSpec, ?_⟩
      rcases reads isSpec with untracked | ⟨_, readable⟩
      · exfalso
        apply rejects
        intro tracked
        rw [untracked] at tracked
        cases tracked
      · exact (not_accepts_iff readable).mp rejects

end Floats

/-- An operation on two floats. -/
def Floating.lift (operation : ℚ → ℚ → ℚ) : Floating ℚ → Floating ℚ → Floating ℚ
  | .number left, .number right => .number (operation left right)
  | _, _ => .nan

/-- Fractions and `nan`. -/
def fractionsOrNan : Arithmetic (Floating ℚ) where
  ofInt := fun value => some (.number value)
  ofText := fun text => if text = "nan" then some .nan else none
  sum := fun values => values.foldl (Floating.lift fun left right => left + right) (.number 0)
  add := Floating.lift fun left right => left + right
  ofUnits := fun units => .number (exactOps.ofUnits units)
  less := Floating.less
  isShare := fun value => Floating.atMost (.number 0) value && value.atMost (.number 1)
  isWhole := fun value =>
    match value with
    | .number total => exactOps.isWhole total
    | .nan => false
  isZero := fun value => value.atMost (.number 0) && Floating.atMost (.number 0) value
  same := fun left right => left.atMost right && right.atMost left
  sameInt := fun left right =>
    left.atMost (.number (right : ℚ)) && Floating.atMost (.number (right : ℚ)) left
  zero := .number 0
  one := .number 1
  hundred := .number 100
  sub := Floating.lift fun left right => left - right
  mul := Floating.lift fun left right => left * right
  div := Floating.lift fun left right => left / right
  fixed := fun _ value =>
    match value with
    | .number number => toString number
    | .nan => "nan"

/-- The top-1 accuracy, with its floor. -/
def accuracySpec : MetricSpec (Floating ℚ) :=
  ⟨"acc_top1", .higherIsBetter, .number (2 / 100), some (.number (80 / 100))⟩

/-- A candidate that passes meets its floor. -/
theorem passed_meets_floors_accuracy :
    ∃ report, compareToBaseline fractionsOrNan [("acc_top1", .float (.number (81 / 100)))]
        [("acc_top1", .float (.number (82 / 100)))] [accuracySpec] "" = .ok report ∧
      (report.passed = true → ∀ spec ∈ [accuracySpec], ∀ floor value,
        spec.absoluteFloor = some floor →
        Dict.get? [("acc_top1", Floating.number (82 / 100 : ℚ))] spec.name = some value →
        spec.direction.meets value floor = true) := by
  refine ⟨_, rfl, ?_⟩
  apply (passed_meets_floors_iff rfl [accuracySpec]
    [("acc_top1", .float (.number (81 / 100)))] [("acc_top1", .float (.number (82 / 100)))]
    [("acc_top1", Floating.number (82 / 100 : ℚ))] rfl "" rfl).mpr
  right
  intro spec isSpec floor value isFloor isValue
  cases List.mem_singleton.mp isSpec
  cases isFloor
  cases isValue
  refine ⟨fun _ => rfl, ?_⟩
  intro untracked
  cases untracked

/-- A metric that the baseline lacks passes below its floor, and so does `nan`. -/
theorem sub_floor_candidates_pass :
    accuracySpec.absoluteFloor = some (.number (80 / 100)) ∧
      accuracySpec.direction.meets (.number (50 / 100 : ℚ)) (.number (80 / 100)) = false ∧
      accuracySpec.direction.meets .nan (.number (80 / 100 : ℚ)) = false ∧
      Passes fractionsOrNan [accuracySpec] [] [("acc_top1", .float (.number (50 / 100)))] "" ∧
      Passes fractionsOrNan [accuracySpec] [("acc_top1", .float (.number (81 / 100)))]
        [("acc_top1", .float .nan)] "" := by
  refine ⟨rfl, ?_, rfl, rfl, rfl⟩
  norm_num [accuracySpec, Direction.meets, Floating.atMost]

end VisionApi.Validation
