import VisionApi.Foundation.Run
import VisionApi.Validation.Regression

/-!
# Releases through the regression gate

`check_regression` compares a candidate with the recorded baseline, or records it as the
new one.  What is released over many candidates and baselines is bounded by the first
baseline.

A single comparison allows a loss of one tolerance.  As an update makes the candidate the
next baseline, the losses multiply, and after a number of updates the bound is the first
baseline times a power of the slack (`Bounded`).  Floors do not move: what is released
meets them however many updates there were.

The state of the gate has the baseline, the number of updates and what was released.  An
update does not check anything, so the runs are those in which a baseline is only made
from a candidate that was released (`Deliberate`).  `Sound` is the invariant, with one
lemma for each kind of invocation.
-/

namespace VisionApi.Validation

open Foundation Experiments

/-! ## The command -/

section Command

variable {Number : Type} (ops : Arithmetic Number) (round : ℕ → Number → Number)

/-- The timings of a backend. -/
structure BenchmarkRow (Number : Type) where
  backend : String
  batchSize : ℕ
  p50Ms : Number
  p95Ms : Number

/-- What the command finds of a training run.  The exported classifier is in megabytes. -/
structure RunFiles (Number : Type) where
  path : String
  name : String
  runMetrics : Option (Dict String Number)
  classifierMb : Option Number
  benchmark : Option (List (BenchmarkRow Number))

/-- What the script raises. -/
inductive CheckError where
  /-- The `SystemExit` without metrics. -/
  | systemExit
  | noBaseline
  | comparison (error : PyError)

/-- A metric of the run is taken over under another name. -/
def addMetric (runMetrics metrics : Dict String Number) (names : String × String) :
    Dict String Number :=
  match runMetrics.get? names.1 with
  | none => metrics
  | some value => metrics.set names.2 value

/-- The metrics of a candidate, from the files of its run. -/
def collectCandidateMetrics (files : RunFiles Number) : Except CheckError (Dict String Number) :=
  match files.runMetrics with
  | none => .error .systemExit
  | some runMetrics =>
      let metrics := [("final_acc_top1", "acc_top1"), ("final_acc_top5", "acc_top5")].foldl
        (addMetric runMetrics) []
      let metrics := match files.classifierMb with
        | none => metrics
        | some size => metrics.set "artifact_size_mb" (round 1 size)
      -- Latency is left out rather than invented.
      match (files.benchmark.getD []).find? fun row =>
          row.backend = "onnxruntime-cuda" && row.batchSize = 1 with
      | none => .ok metrics
      | some serving => .ok ((metrics.set "latency_p50_ms" (round 2 serving.p50Ms)).set
          "latency_p95_ms" (round 2 serving.p95Ms))

/-- The content of a baseline file. -/
def writeBaseline (modelName version recordedAt notes : String) (metrics : Dict String Number) :
    Dict String (Json Number) :=
  [("model_name", .string modelName), ("version", .string version),
    ("recorded_at", .string recordedAt), ("metrics", numbers metrics), ("notes", .string notes)]

/-- `main`: the exit code and the baseline file. -/
def checkRegression (specs : List (MetricSpec Number)) (updateBaseline : Bool) (recordedAt : String)
    (files : RunFiles Number) (baseline : Option (Dict String (Json Number))) :
    Except CheckError ℕ × Option (Dict String (Json Number)) :=
  match collectCandidateMetrics round files with
  | .error error => (.error error, baseline)
  | .ok metrics =>
      if updateBaseline then
        (.ok 0, some (writeBaseline "tiny-imagenet-classifier" files.name recordedAt
          ("Updated from " ++ files.path) metrics))
      else
        match baseline with
        | none => (.error .noBaseline, none)
        | some recorded =>
            match compareToBaseline ops recorded
                [("version", .string files.name), ("metrics", numbers metrics)] specs "" with
            | .error error => (.error (.comparison error), some recorded)
            | .ok report => (.ok (if report.passed then 0 else 1), some recorded)

/-! ## Sequences of releases -/

/-- A released candidate, with the number of times the baseline had been updated. -/
structure Release (Number : Type) where
  metrics : Dict String Number
  updates : ℕ
deriving DecidableEq

/-- The recorded baseline and what was released. -/
structure Gate (Number : Type) where
  baseline : Option (Dict String (Json Number))
  updates : ℕ
  released : List (Release Number)

/-- A check or an update. -/
inductive Invocation (Number : Type) where
  | check (files : RunFiles Number)
  | update (recordedAt : String) (files : RunFiles Number)

/-- A candidate is released if its check exits with zero. -/
def Gate.step (specs : List (MetricSpec Number)) (gate : Gate Number) :
    Invocation Number → Option (Gate Number)
  | .check files =>
      match collectCandidateMetrics round files,
          (checkRegression ops round specs false "" files gate.baseline).1 with
      | .ok metrics, .ok 0 =>
          some { gate with released := gate.released ++ [⟨metrics, gate.updates⟩] }
      | _, _ => some gate
  | .update recordedAt files =>
      match checkRegression ops round specs true recordedAt files gate.baseline with
      | (.ok _, baseline) => some { gate with baseline, updates := gate.updates + 1 }
      | (.error _, _) => some gate

/-- The baseline is only updated from a candidate that was released. -/
def Deliberate (gate : Gate Number) (invocation : Invocation Number) (_ : Gate Number) : Prop :=
  ∀ recordedAt files metrics, invocation = .update recordedAt files →
    collectCandidateMetrics round files = .ok metrics →
      ∃ release ∈ gate.released, release.metrics = metrics

/-! ### What an invocation can do -/

variable {ops round} {specs : List (MetricSpec Number)}

/-- A check that exits with zero was a comparison with the baseline that passed. -/
theorem passes_of_check {metrics : Dict String Number} {files : RunFiles Number}
    {recorded : Dict String (Json Number)}
    (collected : collectCandidateMetrics round files = .ok metrics)
    (exits : (checkRegression ops round specs false "" files (some recorded)).1 = .ok 0) :
    Passes ops specs recorded [("version", .string files.name), ("metrics", numbers metrics)]
      "" := by
  simp only [checkRegression, collected, Bool.false_eq_true, if_false] at exits
  rcases compared : compareToBaseline ops recorded
      [("version", .string files.name), ("metrics", numbers metrics)] specs "" with error | report
  · simp [compared] at exits
  · have passed : report.passed = true := by
      by_contra failed
      simp [compared, failed] at exits
    simp [Passes, compared, Except.map, passed]

/-- An update records the metrics of a candidate or does nothing. -/
theorem step_update {gate next : Gate Number} {recordedAt : String} {files : RunFiles Number}
    (enabled : gate.step ops round specs (.update recordedAt files) = some next) :
    next = gate ∨ ∃ metrics recorded, collectCandidateMetrics round files = .ok metrics ∧
      metricsOf recorded = numbers metrics ∧
      next = { gate with baseline := some recorded, updates := gate.updates + 1 } := by
  rcases collected : collectCandidateMetrics round files with error | metrics
  · simp only [Gate.step, checkRegression, collected] at enabled
    cases enabled
    exact Or.inl rfl
  · simp only [Gate.step, checkRegression, collected, if_true] at enabled
    cases enabled
    exact Or.inr ⟨metrics, _, rfl, rfl, rfl⟩

end Command

/-! ## What a release may lose -/

section Bounds

variable {K : Type} [Field K] [LinearOrder K] {ops : Arithmetic K} {round : ℕ → K → K}
  {specs : List (MetricSpec K)} {start now metrics : Dict String K}

/-- The factor that one comparison permits. -/
def MetricSpec.slack (spec : MetricSpec K) : K :=
  match spec.direction with
  | .higherIsBetter => 1 - spec.tolerance
  | .lowerIsBetter => 1 + spec.tolerance

/-- Every metric of the first baseline is reported, and is as good as there but for a number of
tolerances. -/
def Bounded (specs : List (MetricSpec K)) (start : Dict String K) (count : ℕ)
    (metrics : Dict String K) : Prop :=
  ∀ spec ∈ specs, ∀ first, start.get? spec.name = some first →
    ∃ value, metrics.get? spec.name = some value ∧
      spec.direction.AsGood value (first * spec.slack ^ count)

/-- Every metric of the first baseline is inside its floor. -/
def MeetsFloors (specs : List (MetricSpec K)) (start metrics : Dict String K) : Prop :=
  ∀ spec ∈ specs, ∀ first, start.get? spec.name = some first →
    ∀ value, metrics.get? spec.name = some value →
      ∀ floor, spec.absoluteFloor = some floor → spec.direction.AsGood value floor

/-- Tolerances are fractions, and the metrics of the first baseline not negative. -/
structure Sensible (specs : List (MetricSpec K)) (start : Dict String K) : Prop where
  tolerance : ∀ spec ∈ specs, 0 ≤ spec.tolerance ∧ spec.tolerance ≤ 1
  start : ∀ spec ∈ specs, ∀ first, start.get? spec.name = some first → 0 ≤ first

theorem Arithmetic.IsExact.permitted_eq (exact : ops.IsExact) (spec : MetricSpec K) (baseline : K) :
    spec.permitted ops baseline = baseline * spec.slack := by
  rcases spec with ⟨name, direction, tolerance, absoluteFloor⟩
  cases direction with
  | higherIsBetter => simp only [MetricSpec.permitted, MetricSpec.slack, exact.mul, exact.sub,
      exact.one]
  | lowerIsBetter => simp only [MetricSpec.permitted, MetricSpec.slack, exact.mul, exact.add,
      exact.one]

variable [IsStrictOrderedRing K]

theorem slack_nonneg {spec : MetricSpec K} (tolerance : 0 ≤ spec.tolerance ∧ spec.tolerance ≤ 1) :
    0 ≤ spec.slack := by
  rcases spec with ⟨name, direction, tol, absoluteFloor⟩
  cases direction with
  | higherIsBetter => simpa [MetricSpec.slack] using tolerance.2
  | lowerIsBetter =>
      have one : (0 : K) ≤ 1 := zero_le_one
      simpa [MetricSpec.slack] using add_nonneg one tolerance.1

/-- More tolerances permit more. -/
theorem asGood_pow {spec : MetricSpec K} (tolerance : 0 ≤ spec.tolerance ∧ spec.tolerance ≤ 1)
    {first : K} (nonneg : 0 ≤ first) {fewer more : ℕ} (below : fewer ≤ more) :
    spec.direction.AsGood (first * spec.slack ^ fewer) (first * spec.slack ^ more) := by
  have isNonneg := slack_nonneg tolerance
  rcases spec with ⟨name, direction, tol, absoluteFloor⟩
  cases direction with
  | higherIsBetter =>
      apply mul_le_mul_of_nonneg_left _ nonneg
      apply pow_le_pow_of_le_one isNonneg _ below
      simpa [MetricSpec.slack] using tolerance.1
  | lowerIsBetter =>
      apply mul_le_mul_of_nonneg_left _ nonneg
      apply pow_le_pow_right₀ _ below
      simpa [MetricSpec.slack] using tolerance.1

theorem asGood_mul_slack {spec : MetricSpec K}
    (tolerance : 0 ≤ spec.tolerance ∧ spec.tolerance ≤ 1) {value bound : K}
    (asGood : spec.direction.AsGood value bound) :
    spec.direction.AsGood (value * spec.slack) (bound * spec.slack) := by
  have isNonneg := slack_nonneg tolerance
  rcases spec with ⟨name, direction, tol, absoluteFloor⟩
  cases direction with
  | higherIsBetter => exact mul_le_mul_of_nonneg_right asGood isNonneg
  | lowerIsBetter => exact mul_le_mul_of_nonneg_right asGood isNonneg

/-- More updates allow for more. -/
theorem Bounded.mono (sensible : Sensible specs start) {fewer more : ℕ} (below : fewer ≤ more)
    (bounded : Bounded specs start fewer metrics) : Bounded specs start more metrics := by
  intro spec isSpec first tracked
  rcases bounded spec isSpec first tracked with ⟨value, reported, asGood⟩
  refine ⟨value, reported, asGood.trans ?_⟩
  exact asGood_pow (sensible.tolerance spec isSpec) (sensible.start spec isSpec first tracked) below

/-- A candidate that passes loses one tolerance more than its baseline. -/
theorem Bounded.of_passes (exact : ops.IsExact) (sensible : Sensible specs start) {count : ℕ}
    (bounded : Bounded specs start count now) {recorded candidate : Dict String (Json K)}
    (isBaseline : metricsOf recorded = numbers now)
    (isCandidate : metricsOf candidate = numbers metrics)
    (passes : Passes ops specs recorded candidate "") :
    Bounded specs start (count + 1) metrics ∧ MeetsFloors specs start metrics := by
  have kept := (passes_numbers_iff isBaseline isCandidate specs "").mp passes
  simp only [MetricSpec.regressed_eq_false_iff, exact.worse_eq_false_iff, exact.permitted_eq]
    at kept
  constructor
  · intro spec isSpec first tracked
    rcases bounded spec isSpec first tracked with ⟨before, isBefore, asGood⟩
    rcases kept spec isSpec before isBefore with ⟨value, reported, _, permitted⟩
    refine ⟨value, reported, permitted.trans ?_⟩
    rw [pow_succ, ← mul_assoc]
    exact asGood_mul_slack (sensible.tolerance spec isSpec) asGood
  · intro spec isSpec first tracked value reported floor isFloor
    rcases bounded spec isSpec first tracked with ⟨before, isBefore, _⟩
    rcases kept spec isSpec before isBefore with ⟨other, isOther, floors, _⟩
    rw [reported, Option.some.injEq] at isOther
    subst other
    exact floors floor isFloor

/-! ## Every sequence of releases -/

/-- What holds of the gate: the baseline in force has lost at most a tolerance for each update, and
each release one more than the baseline that it was compared with. -/
structure Sound (specs : List (MetricSpec K)) (start : Dict String K) (gate : Gate K) : Prop where
  baseline : ∃ recorded now, gate.baseline = some recorded ∧ metricsOf recorded = numbers now ∧
    Bounded specs start gate.updates now
  released : ∀ release ∈ gate.released, release.updates ≤ gate.updates ∧
    Bounded specs start (release.updates + 1) release.metrics ∧
    MeetsFloors specs start release.metrics

/-- A check keeps the gate sound. -/
theorem Sound.check (exact : ops.IsExact) (sensible : Sensible specs start) {gate next : Gate K}
    {files : RunFiles K} (sound : Sound specs start gate)
    (enabled : gate.step ops round specs (.check files) = some next) : Sound specs start next := by
  simp only [Gate.step] at enabled
  split at enabled
  · rename_i metrics collected exits
    cases enabled
    rcases sound.baseline with ⟨recorded, now, isRecorded, isNumbers, bounded⟩
    rw [isRecorded] at exits
    have isCandidate : metricsOf [("version", Json.string files.name),
        ("metrics", numbers metrics)] = numbers metrics := rfl
    have passed := bounded.of_passes exact sensible isNumbers isCandidate
      (passes_of_check collected exits)
    refine ⟨⟨recorded, now, isRecorded, isNumbers, bounded⟩, ?_⟩
    intro release isReleased
    rcases List.mem_append.mp isReleased with isOld | isNew
    · exact sound.released release isOld
    · cases List.mem_singleton.mp isNew
      exact ⟨le_rfl, passed⟩
  · cases enabled
    exact sound

/-- A deliberate update keeps the gate sound. -/
theorem Sound.update (sensible : Sensible specs start) {gate next : Gate K} {recordedAt : String}
    {files : RunFiles K} (sound : Sound specs start gate)
    (deliberate : Deliberate round gate (.update recordedAt files) next)
    (enabled : gate.step ops round specs (.update recordedAt files) = some next) :
    Sound specs start next := by
  rcases step_update enabled with rfl | ⟨metrics, recorded, collected, isNumbers, rfl⟩
  · exact sound
  · rcases deliberate recordedAt files metrics rfl collected with ⟨release, isReleased, rfl⟩
    rcases sound.released release isReleased with ⟨before, bounded, _⟩
    refine ⟨⟨recorded, _, rfl, isNumbers, bounded.mono sensible ?_⟩, ?_⟩
    · exact Nat.succ_le_succ before
    · intro other isOther
      rcases sound.released other isOther with ⟨earlier, rest⟩
      exact ⟨earlier.trans (Nat.le_succ _), rest⟩

/-- In every sequence of checks and deliberate updates, each release reports every gated metric of
the first baseline, inside its floor, and has lost at most one tolerance for each update before it
and one more. -/
theorem released_bounded (exact : ops.IsExact) (sensible : Sensible specs start)
    {recorded : Dict String (Json K)} (isStart : metricsOf recorded = numbers start)
    {gate : Gate K}
    (run : Run (Gate.step ops round specs) (Deliberate round) ⟨some recorded, 0, []⟩ gate)
    {release : Release K} (isReleased : release ∈ gate.released) :
    MeetsFloors specs start release.metrics ∧
      Bounded specs start (release.updates + 1) release.metrics := by
  have begins : Sound specs start ⟨some recorded, 0, []⟩ := by
    refine ⟨⟨recorded, start, rfl, isStart, ?_⟩, List.forall_mem_nil _⟩
    intro spec _ first tracked
    refine ⟨first, tracked, ?_⟩
    rw [pow_zero, mul_one]
    cases spec.direction with
    | higherIsBetter => exact le_refl first
    | lowerIsBetter => exact le_refl first
  have sound : Sound specs start gate := by
    apply run.invariant begins
    intro before invocation after sound deliberate enabled
    cases invocation with
    | check files => exact sound.check exact sensible enabled
    | update recordedAt files => exact sound.update sensible deliberate enabled
  have bounds := (sound.released release isReleased).2
  exact ⟨bounds.2, bounds.1⟩

end Bounds

/-! ## Two releases with an update between them -/

/-- The files of a run with some accuracy. -/
def accuracyFiles (name : String) (accuracy : ℚ) : RunFiles ℚ :=
  ⟨"runs/" ++ name, name, some [("final_acc_top1", accuracy)], none, none⟩

/-- A gate whose baseline has an accuracy. -/
def accuracyGate : Gate ℚ :=
  ⟨some [("metrics", numbers [("acc_top1", 85 / 100)])], 0, []⟩

/-- The gate after an invocation. -/
def accuracyStep (gate : Gate ℚ) (invocation : Invocation ℚ) : Gate ℚ :=
  (gate.step fractions (fun _ value => value) defaultSpecs invocation).getD gate

/-- A first candidate is released. -/
def firstRelease : Gate ℚ :=
  accuracyStep accuracyGate (.check (accuracyFiles "first" (84 / 100)))

/-- It becomes the baseline. -/
def updated : Gate ℚ :=
  accuracyStep firstRelease (.update "2026" (accuracyFiles "first" (84 / 100)))

/-- A second candidate is released against it. -/
def secondRelease : Gate ℚ :=
  accuracyStep updated (.check (accuracyFiles "second" (83 / 100)))

theorem step_accuracyStep (gate : Gate ℚ) (invocation : Invocation ℚ) :
    gate.step fractions (fun _ value => value) defaultSpecs invocation =
      some (accuracyStep gate invocation) := by
  rw [accuracyStep]
  cases invocation with
  | check files =>
      simp only [Gate.step]
      split <;> rfl
  | update recordedAt files =>
      simp only [Gate.step]
      split <;> rfl

theorem secondRelease_run :
    Run (Gate.step fractions (fun _ value => value) defaultSpecs) (Deliberate fun _ value => value)
      accuracyGate secondRelease := by
  have released : firstRelease.released = [⟨[("acc_top1", 84 / 100)], 0⟩] := by decide +kernel
  have isReleased : (⟨[("acc_top1", 84 / 100)], 0⟩ : Release ℚ) ∈ firstRelease.released := by
    rw [released]
    exact List.mem_singleton_self _
  apply Run.tail _ (Run.tail _ (Run.tail _ .refl (step_accuracyStep _ _) _)
    (step_accuracyStep _ _) _) (step_accuracyStep _ _)
  · rintro recordedAt files metrics ⟨⟩
  · rintro recordedAt files metrics ⟨⟩
  · rintro recordedAt files metrics ⟨⟩ collected
    cases collected
    exact ⟨_, isReleased, rfl⟩

/-- The second release has lost at most two tolerances. -/
theorem released_bounded_second :
    Bounded defaultSpecs [("acc_top1", 85 / 100)] 2 [("acc_top1", 83 / 100)] := by
  have sensible : Sensible defaultSpecs [("acc_top1", 85 / 100)] := by
    constructor
    · norm_num [defaultSpecs]
    · intro spec isSpec first tracked
      cases accuracy_of_tracked isSpec tracked
      cases tracked
      norm_num
  have released : secondRelease.released =
      [⟨[("acc_top1", 84 / 100)], 0⟩, ⟨[("acc_top1", 83 / 100)], 1⟩] := by decide +kernel
  have isReleased : (⟨[("acc_top1", 83 / 100)], 1⟩ : Release ℚ) ∈ secondRelease.released := by
    rw [released]
    simp
  exact (released_bounded fractions_isExact sensible rfl secondRelease_run isReleased).2

end VisionApi.Validation
