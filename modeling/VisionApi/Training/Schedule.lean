import Mathlib.Data.Rat.Floor
import VisionApi.Foundation.Fallible
import VisionApi.Foundation.Rounding

/-!
# Learning-rate schedules

The lengths of a schedule are derived from the configuration before training, and
the scheduler is built by a library from these lengths and from the number of
steps that earlier runs completed.

The scheduler is an object of PyTorch.  Of its state the model has what tells one step
from another: the lengths it was built for, the last epoch and the number of its steps.
`GetScheduler` is the function of the library, and `Conforms` asks of it only that what
it builds has the lengths and the last epoch that it was given; whether it raises is left
open, since that depends on the optimizer.

The three functions of the source check their arguments, and each has one lemma that says
when it succeeds and with what.
-/

namespace VisionApi.Training

open Foundation

/-! ## Lengths -/

/-- The lengths of a schedule. -/
structure SchedulerParams where
  numWarmupSteps : ℤ
  numTrainingSteps : ℤ
  stepsPerEpoch : ℤ
deriving DecidableEq

/-- Why a pipeline is not built: each value that is refused, and what the library raises. -/
inductive ConfigError where
  | numClasses (declared found : ℕ)
  | numEpochs (got : ℤ)
  | warmupRatio (got : ℚ)
  | batchSizeTrain (got : ℤ)
  | startEpochAt (got : ℤ)
  | scheduler (raised : String)
deriving DecidableEq

/-- The full batches of an epoch, or the subset of them. -/
def calculateStepsPerEpoch (datasetLength batchSizeTrain trainSubsetNumBatches : ℤ) :
    Except ConfigError ℤ :=
  if batchSizeTrain ≤ 0 then .error (.batchSizeTrain batchSizeTrain)
  else if 0 < trainSubsetNumBatches then .ok trainSubsetNumBatches
  else .ok (max 1 (datasetLength / batchSizeTrain))

/-- `int(num_training_steps * warmup_ratio)`, where the product is that of two doubles. -/
def warmupSteps (numTrainingSteps : ℤ) (warmupRatio : ℚ) : ℤ :=
  ⌊nearest 53 (nearest 53 (numTrainingSteps : ℚ) * warmupRatio)⌋

/-- The lengths for all epochs. -/
def createSchedulerParams (warmupRatio : ℚ) (batchSizeTrain datasetLength numEpochs
    trainSubsetNumBatches : ℤ) : Except ConfigError SchedulerParams :=
  if numEpochs ≤ 0 then .error (.numEpochs numEpochs)
  else if ¬(0 ≤ warmupRatio ∧ warmupRatio < 1) then .error (.warmupRatio warmupRatio)
  else
    (calculateStepsPerEpoch datasetLength batchSizeTrain trainSubsetNumBatches).map
      fun stepsPerEpoch =>
        { numWarmupSteps := warmupSteps (stepsPerEpoch * numEpochs) warmupRatio
          numTrainingSteps := stepsPerEpoch * numEpochs
          stepsPerEpoch := stepsPerEpoch }

/-! ## Schedulers -/

/-- A scheduler of PyTorch: the lengths it was built with, `last_epoch`, which counts completed
steps, and the number of calls of `step`. -/
structure LRScheduler where
  numWarmupSteps : ℤ
  numTrainingSteps : ℤ
  lastEpoch : ℤ
  stepCount : ℕ
deriving DecidableEq

namespace LRScheduler

/-- One step of the scheduler. -/
def step (scheduler : LRScheduler) : LRScheduler :=
  { scheduler with lastEpoch := scheduler.lastEpoch + 1, stepCount := scheduler.stepCount + 1 }

/-- The constructor makes the first step. -/
def new (numWarmupSteps numTrainingSteps lastEpoch : ℤ) : LRScheduler :=
  LRScheduler.step ⟨numWarmupSteps, numTrainingSteps, lastEpoch, 0⟩

/-- The scheduler after further steps. -/
def advance (scheduler : LRScheduler) (steps : ℕ) : LRScheduler :=
  { scheduler with
    lastEpoch := scheduler.lastEpoch + steps
    stepCount := scheduler.stepCount + steps }

/-- What the learning rate is computed from. -/
def presents (scheduler : LRScheduler) : ℤ × ℤ × ℤ :=
  (scheduler.lastEpoch, scheduler.numWarmupSteps, scheduler.numTrainingSteps)

@[simp]
theorem advance_zero (scheduler : LRScheduler) : scheduler.advance 0 = scheduler := by
  simp [advance]

/-- Advancing is stepping. -/
@[simp]
theorem step_advance (scheduler : LRScheduler) (steps : ℕ) :
    (scheduler.advance steps).step = scheduler.advance (steps + 1) := by
  simp [advance, step, Int.add_assoc, Nat.add_assoc]

@[simp]
theorem numTrainingSteps_advance (scheduler : LRScheduler) (steps : ℕ) :
    (scheduler.advance steps).numTrainingSteps = scheduler.numTrainingSteps :=
  rfl

@[simp]
theorem stepCount_advance (scheduler : LRScheduler) (steps : ℕ) :
    (scheduler.advance steps).stepCount = scheduler.stepCount + steps :=
  rfl

end LRScheduler

/-- `get_scheduler` of the library: name, warmup steps, training steps and `last_epoch`. -/
abbrev GetScheduler := String → ℤ → ℤ → ℤ → Except String LRScheduler

/-- A scheduler that is returned has the lengths asked for and counts on from `last_epoch`. -/
def GetScheduler.Conforms (getScheduler : GetScheduler) : Prop :=
  ∀ name warmup training lastEpoch scheduler,
    getScheduler name warmup training lastEpoch = .ok scheduler →
      scheduler = .new warmup training lastEpoch

/-- The scheduler of the library, after the steps of earlier epochs. -/
def createLrScheduler (getScheduler : GetScheduler) (schedulerName : String)
    (schedulerParams : SchedulerParams) (startEpochAt : ℤ) : Except ConfigError LRScheduler :=
  if startEpochAt < 0 then .error (.startEpochAt startEpochAt)
  else
    let priorCompletedSteps := startEpochAt * schedulerParams.stepsPerEpoch
    (getScheduler schedulerName schedulerParams.numWarmupSteps schedulerParams.numTrainingSteps
      (priorCompletedSteps - 1)).mapError .scheduler

/-! ## What is built -/

/-- Any positive size of a batch has a number of steps. -/
theorem calculateStepsPerEpoch_ok_iff {datasetLength batchSizeTrain subset steps : ℤ} :
    calculateStepsPerEpoch datasetLength batchSizeTrain subset = .ok steps ↔
      0 < batchSizeTrain ∧
        steps = if 0 < subset then subset else max 1 (datasetLength / batchSizeTrain) := by
  unfold calculateStepsPerEpoch
  split
  · rename_i refused
    simp only [reduceCtorEq, false_iff, not_and]
    intro positive
    omega
  · rename_i accepted
    split
    · simp only [Except.ok.injEq]
      omega
    · simp only [Except.ok.injEq]
      constructor
      · intro same
        exact ⟨by omega, same.symm⟩
      · intro same
        exact same.2.symm

/-- When there are lengths, and which. -/
theorem createSchedulerParams_ok_iff {warmupRatio : ℚ}
    {batchSizeTrain datasetLength numEpochs subset : ℤ} {params : SchedulerParams} :
    createSchedulerParams warmupRatio batchSizeTrain datasetLength numEpochs subset = .ok params ↔
      0 < numEpochs ∧ (0 ≤ warmupRatio ∧ warmupRatio < 1) ∧
        ∃ steps, calculateStepsPerEpoch datasetLength batchSizeTrain subset = .ok steps ∧
          params = ⟨warmupSteps (steps * numEpochs) warmupRatio, steps * numEpochs, steps⟩ := by
  unfold createSchedulerParams
  split
  · rename_i refused
    simp only [reduceCtorEq, false_iff, not_and]
    intro positive
    omega
  · rename_i positive
    split
    · rename_i refused
      simp only [reduceCtorEq, false_iff, not_and]
      intro _ inRange
      exact absurd inRange refused
    · rename_i inRange
      rw [map_ok_iff]
      have isPositive : 0 < numEpochs := by omega
      have isInRange := not_not.mp inRange
      constructor
      · intro built
        exact ⟨isPositive, isInRange, built⟩
      · intro built
        exact built.2.2

theorem createLrScheduler_ok_iff {getScheduler : GetScheduler} {schedulerName : String}
    {params : SchedulerParams} {startEpochAt : ℤ} {scheduler : LRScheduler} :
    createLrScheduler getScheduler schedulerName params startEpochAt = .ok scheduler ↔
      0 ≤ startEpochAt ∧
        getScheduler schedulerName params.numWarmupSteps params.numTrainingSteps
          (startEpochAt * params.stepsPerEpoch - 1) = .ok scheduler := by
  unfold createLrScheduler
  split
  · rename_i refused
    simp only [reduceCtorEq, false_iff, not_and]
    intro nonneg
    omega
  · rename_i accepted
    rw [mapError_ok_iff]
    have nonneg : 0 ≤ startEpochAt := by omega
    constructor
    · intro built
      exact ⟨nonneg, built⟩
    · intro built
      exact built.2

end VisionApi.Training
