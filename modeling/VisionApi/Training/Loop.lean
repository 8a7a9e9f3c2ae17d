import Mathlib.Order.WithBot
import VisionApi.Foundation.Batches
import VisionApi.Foundation.Dict
import VisionApi.Training.Schedule

/-!
# The training loop

`TrainingPipeline.run` on one process: epochs, microbatches, windows of gradient
accumulation, scheduler steps, evaluations and checkpoints.  Tensors are not part of
the model: what a forward pass and an evaluation return is given by the environment.

The source nests three loops, and so do the definitions: `trainMicrobatch` in
`trainBatches` in `trainEpochs`, each with the state that the source carries in it.
`Progress` lasts for the run, `EpochProgress` adds what is reset in every epoch.  A loop
stops early where the source breaks, and a run that raises is an error.

A step of the optimizer is logged with the state of the schedulers that it was taken
with.  `Advances` says how a part of the run changes the epochs begun and the steps; for
a calm environment, in which losses are finite and nothing is preempted, it is derived
for a microbatch, a window, an epoch and the run in this order.  The number of steps in
an epoch is that of its windows, the last of which may be shorter (`windows`).
-/

namespace VisionApi.Training

open Foundation

variable {Sample : Type}

/-! ## The pipeline -/

/-- Evaluations are counted in epochs or in batches. -/
inductive EvalUnit where
  | ep
  | ba
deriving DecidableEq

/-- The settings of a run. -/
structure TrainConfig where
  numClasses : ℕ
  batchSizeTrain : ℤ
  epochs : ℤ
  learningRateScheduler : String
  warmupRatio : ℚ
  stepSchedulersEveryBatch : Bool
  gradientAccumulationSteps : ℕ
  startEpochAt : ℤ
  evalInterval : EvalUnit × ℤ
  saveInterval : ℤ
  trainSubsetNumBatches : ℤ

/-- The samples to train on. -/
structure Dataset (Sample : Type) where
  train : List Sample
  numClasses : ℕ

/-- `train_loader` on samples in the order of an epoch: `drop_last` leaves out a partial batch. -/
def trainLoader (batchSize : ℤ) (shuffled : List Sample) : List (List Sample) :=
  (batches batchSize.toNat shuffled).filter fun batch => batch.length = batchSize.toNat

/-- A run with its data and its schedule. -/
structure Pipeline (Sample : Type) where
  config : TrainConfig
  train : List Sample
  lrScheduler : LRScheduler

/-- `ClassificationPipeline.__init__`, as far as the schedule and the loop depend on it. -/
def classificationPipeline (getScheduler : GetScheduler) (config : TrainConfig)
    (dataset : Dataset Sample) : Except ConfigError (Pipeline Sample) :=
  if config.numClasses ≠ dataset.numClasses then
    .error (.numClasses config.numClasses dataset.numClasses)
  else
    createSchedulerParams config.warmupRatio config.batchSizeTrain dataset.train.length
      config.epochs config.trainSubsetNumBatches >>= fun schedulerParams =>
    (createLrScheduler getScheduler config.learningRateScheduler schedulerParams
      config.startEpochAt).map fun lrScheduler =>
        { config := config, train := dataset.train, lrScheduler := lrScheduler }

/-! ## The loop -/

/-- What a run meets: the order of the samples in an epoch, the loss of a microbatch of an epoch
(`none` if it is not finite), whether SIGTERM was received after a microbatch of an epoch or after
all of them, and the results of the evaluations. -/
structure Environment (Sample : Type) where
  shuffle : ℤ → List Sample → List Sample
  isShuffle : ∀ epoch samples, (shuffle epoch samples).Perm samples
  computeLoss : ℤ → ℕ → List Sample → Option ℚ
  sigtermReceived : ℤ → Option ℕ → Bool
  evaluate : ℕ → WithTop ℚ × Dict String ℚ

/-- What ends a run before its time. -/
inductive RunError where
  | runtimeError
  | zeroDivision
deriving DecidableEq

/-- The number of losses in a row that may not be finite. -/
def maxConsecutiveNan : ℕ := 10

/-- `accelerator.sync_gradients` in the microbatch at an index of the loader. -/
def syncGradients (accumulation index : ℕ) (isLast : Bool) : Bool :=
  (index + 1) % accumulation = 0 || isLast

/-- What is logged for an optimizer step; the learning rates follow from the schedulers. -/
structure StepLog where
  epoch : ℤ
  epochBatchIdx : ℕ
  globalBatchIdx : ℕ
  loss : ℚ
  schedulers : List LRScheduler
deriving DecidableEq

/-- The variables that outlive an epoch, with the epochs begun and what was logged and saved. -/
structure Progress where
  schedulers : List LRScheduler
  globalBatchIdx : ℕ
  consecutiveNanCount : ℕ
  lastSavedEpoch : ℤ
  finalEvalLoss : WithTop ℚ
  finalMetrics : Dict String ℚ
  bestMetrics : List ℚ
  epochs : List ℤ
  steps : List StepLog
  trainLosses : List (ℤ × ℚ)
  checkpoints : List ℤ

/-- The variables of an epoch. -/
structure EpochProgress extends Progress where
  epochLoss : ℚ
  numSteps : ℕ
  epochBatchIdx : ℕ
  runningLoss : ℚ
  accumCount : ℕ

/-- `value % interval == 0` on integers. -/
def isMultiple (value interval : ℤ) : Except RunError Bool :=
  if interval = 0 then .error .zeroDivision else .ok (value % interval = 0)

/-- `calculate_primary_metric` of the classification pipeline. -/
def primaryMetric (metrics : Dict String ℚ) : ℚ :=
  (metrics.get? "acc_top1").getD 0

/-- `_evaluate` and `_log_eval_metrics`. -/
def Progress.evaluated (env : Environment Sample) (progress : Progress) : Progress :=
  let (evalLoss, metrics) := env.evaluate progress.bestMetrics.length
  { progress with
    finalEvalLoss := evalLoss
    finalMetrics := metrics
    bestMetrics := progress.bestMetrics ++ [primaryMetric metrics] }

/-- The evaluation that is due in one unit, if the count is a multiple of the interval. -/
def evaluateIfDue (env : Environment Sample) (config : TrainConfig) (unit : EvalUnit) (count : ℤ)
    (progress : Progress) : Except RunError Progress :=
  if config.evalInterval.1 = unit then
    (isMultiple count config.evalInterval.2).map fun due =>
      if due then progress.evaluated env else progress
  else .ok progress

/-- The statements under `if self.accelerator.sync_gradients`, up to the evaluation. -/
def takeStep (config : TrainConfig) (epoch : ℤ) (progress : EpochProgress) : EpochProgress :=
  let stepLoss := progress.runningLoss / max progress.accumCount 1
  { progress with
    runningLoss := 0
    accumCount := 0
    epochLoss := progress.epochLoss + stepLoss
    numSteps := progress.numSteps + 1
    globalBatchIdx := progress.globalBatchIdx + 1
    epochBatchIdx := progress.epochBatchIdx + 1
    steps := progress.steps ++
      [⟨epoch, progress.epochBatchIdx, progress.globalBatchIdx, stepLoss, progress.schedulers⟩]
    schedulers :=
      if config.stepSchedulersEveryBatch then progress.schedulers.map LRScheduler.step
      else progress.schedulers }

/-- A microbatch whose loss is finite. -/
def accumulateLoss (loss : ℚ) (progress : EpochProgress) : EpochProgress :=
  { progress with
    consecutiveNanCount := 0
    runningLoss := progress.runningLoss + loss
    accumCount := progress.accumCount + 1 }

/-- The body of the loop over the microbatches, and whether it breaks. -/
def trainMicrobatch (env : Environment Sample) (config : TrainConfig) (epoch : ℤ) (index : ℕ)
    (isLast : Bool) (batch : List Sample) (progress : EpochProgress) :
    Except RunError (EpochProgress × Bool) :=
  match env.computeLoss epoch index batch with
  | none =>
      let count := progress.consecutiveNanCount + 1
      if maxConsecutiveNan ≤ count then .error .runtimeError
      else .ok ({ progress with consecutiveNanCount := count }, false)
  | some loss =>
      let accumulated := accumulateLoss loss progress
      if syncGradients config.gradientAccumulationSteps index isLast then
        let stepped := takeStep config epoch accumulated
        (evaluateIfDue env config .ba stepped.globalBatchIdx stepped.toProgress).map
          fun overall => ({ stepped with toProgress := overall },
            env.sigtermReceived epoch (some index))
      else .ok (accumulated, false)

/-- `0 < train_subset <= epoch_batch_idx` -/
def subsetDone (config : TrainConfig) (progress : EpochProgress) : Bool :=
  0 < config.trainSubsetNumBatches ∧ config.trainSubsetNumBatches ≤ progress.epochBatchIdx

/-- The loop over the batches of an epoch. -/
def trainBatches (env : Environment Sample) (config : TrainConfig) (epoch : ℤ) :
    ℕ → List (List Sample) → EpochProgress → Except RunError EpochProgress
  | _, [], progress => .ok progress
  | index, batch :: rest, progress =>
      if subsetDone config progress then .ok progress
      else
        trainMicrobatch env config epoch index rest.isEmpty batch progress >>= fun outcome =>
          if outcome.2 then .ok outcome.1
          else trainBatches env config epoch (index + 1) rest outcome.1

/-- The statements after the microbatches of an epoch, up to the checkpoint. -/
def closeEpoch (env : Environment Sample) (config : TrainConfig) (epoch : ℤ)
    (progress : EpochProgress) : Except RunError Progress :=
  let stepped :=
    if config.stepSchedulersEveryBatch then progress.toProgress
    else { progress.toProgress with schedulers := progress.schedulers.map LRScheduler.step }
  let logged :=
    if progress.numSteps = 0 then stepped
    else { stepped with
      trainLosses := stepped.trainLosses ++ [(epoch, progress.epochLoss / progress.numSteps)] }
  evaluateIfDue env config .ep (epoch + 1) logged >>= fun overall =>
    (isMultiple (epoch + 1) config.saveInterval).map fun due =>
      if due then
        { overall with checkpoints := overall.checkpoints ++ [epoch], lastSavedEpoch := epoch }
      else overall

/-- What is reset in an epoch. -/
def Progress.beginEpoch (progress : Progress) (epoch : ℤ) : EpochProgress :=
  { progress with
    epochs := progress.epochs ++ [epoch]
    epochLoss := 0
    numSteps := 0
    epochBatchIdx := 0
    runningLoss := 0
    accumCount := 0 }

/-- Shuffle, run the batches and close the epoch. -/
def trainEpoch (env : Environment Sample) (pipeline : Pipeline Sample) (epoch : ℤ)
    (progress : Progress) : Except RunError Progress :=
  trainBatches env pipeline.config epoch 0
    (trainLoader pipeline.config.batchSizeTrain (env.shuffle epoch pipeline.train))
    (progress.beginEpoch epoch) >>= closeEpoch env pipeline.config epoch

/-- The loop over the epochs, which SIGTERM ends after a checkpoint. -/
def trainEpochs (env : Environment Sample) (pipeline : Pipeline Sample) :
    List ℤ → Progress → Except RunError Progress
  | [], progress => .ok progress
  | epoch :: rest, progress =>
      trainEpoch env pipeline epoch progress >>= fun closed =>
        if env.sigtermReceived epoch none then
          if closed.lastSavedEpoch ≠ epoch then
            .ok { closed with checkpoints := closed.checkpoints ++ [epoch] }
          else .ok closed
        else trainEpochs env pipeline rest closed

/-- `range(start, start + count)` -/
def range (start count : ℤ) : List ℤ :=
  (List.range count.toNat).map fun offset : ℕ => start + offset

/-- The state before the first epoch. -/
def Pipeline.start (pipeline : Pipeline Sample) : Progress :=
  { schedulers := [pipeline.lrScheduler]
    globalBatchIdx := 0
    consecutiveNanCount := 0
    lastSavedEpoch := -1
    finalEvalLoss := ⊤
    finalMetrics := []
    bestMetrics := []
    epochs := []
    steps := []
    trainLosses := []
    checkpoints := [] }

/-- `TrainingPipeline.run` -/
def Pipeline.run (env : Environment Sample) (pipeline : Pipeline Sample) :
    Except RunError Progress :=
  trainEpochs env pipeline (range pipeline.config.startEpochAt pipeline.config.epochs)
    pipeline.start

/-- The summary that `run` returns. -/
def Progress.summary (progress : Progress) : Dict String (WithTop ℚ) :=
  let final := progress.finalMetrics.foldl
    (fun (summary : Dict String (WithTop ℚ)) entry => summary.set ("final_" ++ entry.1) entry.2)
    [("final_eval_loss", progress.finalEvalLoss)]
  match progress.bestMetrics with
  | [] => final
  | best :: rest => Dict.set final "best_acc_top1" (rest.foldl max best : ℚ)

/-! ## What is presented at each optimizer step -/

/-- The epoch, the position in it, and what the schedulers compute the learning rates from. -/
abbrev Presented := ℤ × ℕ × List (ℤ × ℤ × ℤ)

/-- What a step shows of itself. -/
def StepLog.presents (step : StepLog) : Presented :=
  (step.epoch, step.epochBatchIdx, step.schedulers.map LRScheduler.presents)

/-- Consecutive steps of an epoch, with the schedulers at the first of them. -/
def presentsFrom (epoch : ℤ) (schedulers : List LRScheduler) (first count : ℕ) : List Presented :=
  (List.range count).map fun offset =>
    (epoch, first + offset, schedulers.map fun scheduler => (scheduler.advance offset).presents)

theorem presentsFrom_succ (epoch : ℤ) (schedulers : List LRScheduler) (first count : ℕ) :
    presentsFrom epoch schedulers first (count + 1) =
      (epoch, first, schedulers.map LRScheduler.presents) ::
        presentsFrom epoch (schedulers.map LRScheduler.step) (first + 1) count := by
  unfold presentsFrom
  rw [List.range_succ_eq_map, List.map_cons, List.map_map]
  congr 1
  · simp
  · apply List.map_congr_left
    intro offset _
    have later : first + 1 + offset = first + offset.succ := by omega
    simp [later, LRScheduler.advance, LRScheduler.step, LRScheduler.presents, Int.add_assoc,
      Int.add_comm 1]

@[simp]
theorem length_presentsFrom (epoch : ℤ) (schedulers : List LRScheduler) (first count : ℕ) :
    (presentsFrom epoch schedulers first count).length = count := by
  simp [presentsFrom]

/-- Between two states the given epochs were begun and the given steps taken, and the schedulers
stepped once at each of these. -/
structure Advances (before after : Progress) (begun : List ℤ) (presented : List Presented) :
    Prop where
  schedulers : after.schedulers =
    before.schedulers.map fun scheduler => scheduler.advance presented.length
  globalBatchIdx : after.globalBatchIdx = before.globalBatchIdx + presented.length
  epochs : after.epochs = before.epochs ++ begun
  steps : after.steps.map StepLog.presents = before.steps.map StepLog.presents ++ presented

namespace Advances

/-- A change of other variables. -/
theorem of_eq {before after : Progress} (schedulers : after.schedulers = before.schedulers)
    (globalBatchIdx : after.globalBatchIdx = before.globalBatchIdx)
    (epochs : after.epochs = before.epochs) (steps : after.steps = before.steps) :
    Advances before after [] [] :=
  ⟨by simp [schedulers], by simp [globalBatchIdx], by simp [epochs], by simp [steps]⟩

/-- Doing nothing begins no epoch and takes no step. -/
theorem refl (progress : Progress) : Advances progress progress [] [] :=
  of_eq rfl rfl rfl rfl

/-- Two parts take the steps of the first and then of the second. -/
theorem trans {before middle after : Progress} {firstEpochs secondEpochs : List ℤ}
    {first second : List Presented} (here : Advances before middle firstEpochs first)
    (there : Advances middle after secondEpochs second) :
    Advances before after (firstEpochs ++ secondEpochs) (first ++ second) := by
  refine ⟨?_, ?_, ?_, ?_⟩
  · rw [there.schedulers, here.schedulers, List.map_map]
    apply List.map_congr_left
    intro scheduler _
    simp [LRScheduler.advance, Int.add_assoc, Nat.add_assoc]
  · rw [there.globalBatchIdx, here.globalBatchIdx, List.length_append, Nat.add_assoc]
  · rw [there.epochs, here.epochs, List.append_assoc]
  · rw [there.steps, here.steps, List.append_assoc]

end Advances

/-! ## One step and one epoch -/

/-- Every loss is finite and SIGTERM is not received. -/
structure Environment.Calm (env : Environment Sample) : Prop where
  finite : ∀ epoch index batch, (env.computeLoss epoch index batch).isSome
  noSigterm : ∀ epoch index, env.sigtermReceived epoch index = false

section Steps

variable {env : Environment Sample} {config : TrainConfig} {epoch : ℤ}

/-- An evaluation takes no step. -/
theorem evaluateIfDue_advances {unit : EvalUnit} {count : ℤ} {before after : Progress}
    (returned : evaluateIfDue env config unit count before = .ok after) :
    Advances before after [] [] := by
  unfold evaluateIfDue at returned
  split at returned
  · rcases map_ok_iff.mp returned with ⟨due, _, rfl⟩
    cases due with
    | false => exact Advances.refl before
    | true => exact Advances.of_eq rfl rfl rfl rfl
  · cases returned
    exact Advances.refl before

variable (env) in
/-- An evaluation raises only if its interval is zero. -/
theorem evaluateIfDue_succeeds_iff (unit : EvalUnit) (count : ℤ) (progress : Progress) :
    Succeeds (evaluateIfDue env config unit count progress) ↔
      (config.evalInterval.1 = unit → config.evalInterval.2 ≠ 0) := by
  unfold evaluateIfDue
  split
  · rename_i isUnit
    by_cases zero : config.evalInterval.2 = 0
    · simp [isMultiple, zero, isUnit]
    · simp [isMultiple, zero]
  · rename_i notUnit
    simp [notUnit]

/-- A microbatch in a calm environment takes an optimizer step where gradients are synced. -/
theorem trainMicrobatch_advances (calm : env.Calm) (everyBatch : config.stepSchedulersEveryBatch)
    {index : ℕ} {isLast : Bool} {batch : List Sample} {before : EpochProgress}
    {outcome : EpochProgress × Bool}
    (returned : trainMicrobatch env config epoch index isLast batch before = .ok outcome) :
    outcome.2 = false ∧
      if syncGradients config.gradientAccumulationSteps index isLast then
        outcome.1.epochBatchIdx = before.epochBatchIdx + 1 ∧
          Advances before.toProgress outcome.1.toProgress []
            [(epoch, before.epochBatchIdx, before.schedulers.map LRScheduler.presents)]
      else
        outcome.1.epochBatchIdx = before.epochBatchIdx ∧
          Advances before.toProgress outcome.1.toProgress [] [] := by
  rcases Option.isSome_iff_exists.mp (calm.finite epoch index batch) with ⟨loss, isLoss⟩
  simp only [trainMicrobatch, isLoss] at returned
  split at returned
  · rename_i synced
    rcases map_ok_iff.mp returned with ⟨overall, evaluated, rfl⟩
    rw [if_pos synced]
    refine ⟨calm.noSigterm epoch (some index), rfl, ?_⟩
    have stepped : Advances before.toProgress
        (takeStep config epoch (accumulateLoss loss before)).toProgress []
        [(epoch, before.epochBatchIdx, before.schedulers.map LRScheduler.presents)] := by
      refine ⟨?_, rfl, ?_, ?_⟩
      · simp [takeStep, accumulateLoss, everyBatch, LRScheduler.advance, LRScheduler.step]
      · simp [takeStep, accumulateLoss]
      · simp [takeStep, accumulateLoss, StepLog.presents]
    exact stepped.trans (evaluateIfDue_advances evaluated)
  · rename_i notSynced
    cases returned
    rw [if_neg notSynced]
    exact ⟨rfl, rfl, Advances.of_eq rfl rfl rfl rfl⟩

theorem trainMicrobatch_succeeds (calm : env.Calm) (positive : config.evalInterval.2 ≠ 0)
    (index : ℕ) (isLast : Bool) (batch : List Sample) (progress : EpochProgress) :
    Succeeds (trainMicrobatch env config epoch index isLast batch progress) := by
  rcases Option.isSome_iff_exists.mp (calm.finite epoch index batch) with ⟨loss, isLoss⟩
  simp only [trainMicrobatch, isLoss]
  split
  · rw [map_succeeds_iff]
    exact (evaluateIfDue_succeeds_iff env _ _ _).mpr fun _ => positive
  · exact succeeds_ok _

/-- The windows of gradient accumulation, `math.ceil(len / gradient_accumulation_steps)`. -/
def windows (accumulation microbatches : ℕ) : ℕ :=
  (microbatches + accumulation - 1) / accumulation

/-- The windows that end in the microbatches from an index to the end of the loader. -/
def windowsFrom (accumulation index microbatches : ℕ) : ℕ :=
  if microbatches = 0 then 0 else windows accumulation (index % accumulation + microbatches)

/-- The steps that are left of those available after some were taken. -/
def stepsLeft (config : TrainConfig) (taken available : ℕ) : ℕ :=
  if 0 < config.trainSubsetNumBatches then
    min available (config.trainSubsetNumBatches.toNat - taken)
  else available

theorem windows_add {accumulation : ℕ} (positive : 0 < accumulation) (microbatches : ℕ) :
    windows accumulation (accumulation + microbatches) = windows accumulation microbatches + 1 := by
  have regroup : accumulation + microbatches + accumulation - 1 =
      microbatches + accumulation - 1 + accumulation := by
    omega
  rw [windows, windows, regroup, Nat.add_div_right _ positive]

theorem windows_eq_one {accumulation microbatches : ℕ} (some : 0 < microbatches)
    (few : microbatches ≤ accumulation) : windows accumulation microbatches = 1 := by
  apply Nat.div_eq_of_lt_le
  · omega
  · omega

theorem succ_mod_eq {accumulation : ℕ} (positive : 0 < accumulation) (index : ℕ) :
    (index + 1) % accumulation =
      if index % accumulation + 1 = accumulation then 0 else index % accumulation + 1 := by
  have small := Nat.mod_lt index positive
  split
  · rename_i full
    rw [← Nat.mod_add_mod, full, Nat.mod_self]
  · rename_i notFull
    rw [← Nat.mod_add_mod, Nat.mod_eq_of_lt (by omega)]

/-- A window ends in the microbatch at an index exactly if gradients are synced there. -/
theorem windowsFrom_succ {accumulation : ℕ} (positive : 0 < accumulation) (index rest : ℕ)
    {isLast : Bool} (isLast_iff : isLast = true ↔ rest = 0) :
    windowsFrom accumulation index (rest + 1) = windowsFrom accumulation (index + 1) rest +
      if syncGradients accumulation index isLast then 1 else 0 := by
  have small := Nat.mod_lt index positive
  have next := succ_mod_eq positive index
  rw [windowsFrom, if_neg (Nat.succ_ne_zero rest)]
  by_cases atEnd : rest = 0
  · have isOne : windows accumulation (index % accumulation + 1) = 1 :=
      windows_eq_one (by omega) (by omega)
    simp [windowsFrom, syncGradients, isLast_iff.mpr atEnd, atEnd, isOne]
  · have notLast : isLast = false := by
      rw [← Bool.not_eq_true, isLast_iff]
      exact atEnd
    rw [windowsFrom, if_neg atEnd]
    split at next
    · rename_i full
      have regroup : index % accumulation + (rest + 1) = accumulation + rest := by omega
      simp [syncGradients, notLast, next, regroup, windows_add positive]
    · rename_i notFull
      have regroup : index % accumulation + (rest + 1) = index % accumulation + 1 + rest := by omega
      simp [syncGradients, notLast, next, regroup]

/-- The microbatches that are left in a calm environment take the steps that are left. -/
theorem trainBatches_advances (calm : env.Calm) (everyBatch : config.stepSchedulersEveryBatch)
    (positive : 0 < config.gradientAccumulationSteps) {loader : List (List Sample)} {index : ℕ}
    {before after : EpochProgress}
    (returned : trainBatches env config epoch index loader before = .ok after) :
    Advances before.toProgress after.toProgress []
      (presentsFrom epoch before.schedulers before.epochBatchIdx
        (stepsLeft config before.epochBatchIdx
          (windowsFrom config.gradientAccumulationSteps index loader.length))) := by
  induction loader generalizing index before with
  | nil =>
      cases returned
      simpa [windowsFrom, stepsLeft, presentsFrom] using Advances.refl after.toProgress
  | cons batch rest ih =>
      rw [trainBatches] at returned
      split at returned
      · rename_i done
        cases returned
        have noneLeft : stepsLeft config after.epochBatchIdx
            (windowsFrom config.gradientAccumulationSteps index (batch :: rest).length) = 0 := by
          simp only [subsetDone, decide_eq_true_eq] at done
          rw [stepsLeft, if_pos done.1]
          omega
        rw [noneLeft]
        exact Advances.refl after.toProgress
      · rename_i notDone
        rcases bind_ok_iff.mp returned with ⟨outcome, trained, continued⟩
        rcases trainMicrobatch_advances calm everyBatch trained with ⟨notStopped, here⟩
        rw [notStopped] at continued
        have there := ih continued
        have isLast_iff : rest.isEmpty = true ↔ rest.length = 0 := by
          rw [List.isEmpty_iff, List.length_eq_zero_iff]
        rw [List.length_cons, windowsFrom_succ positive index rest.length isLast_iff]
        split at here
        · rcases here with ⟨counted, here⟩
          have oneMore : stepsLeft config before.epochBatchIdx
              (windowsFrom config.gradientAccumulationSteps (index + 1) rest.length + 1) =
              stepsLeft config (before.epochBatchIdx + 1)
                (windowsFrom config.gradientAccumulationSteps (index + 1) rest.length) + 1 := by
            simp only [subsetDone, decide_eq_true_eq] at notDone
            unfold stepsLeft
            split
            · omega
            · rfl
          rw [if_pos ‹_›, oneMore, presentsFrom_succ]
          rw [counted, here.schedulers] at there
          exact here.trans there
        · rcases here with ⟨counted, here⟩
          rw [if_neg ‹_›, Nat.add_zero]
          rw [counted, here.schedulers] at there
          simpa using here.trans there

variable (epoch) in
theorem trainBatches_succeeds (calm : env.Calm) (positive : config.evalInterval.2 ≠ 0)
    (loader : List (List Sample)) (index : ℕ) (progress : EpochProgress) :
    Succeeds (trainBatches env config epoch index loader progress) := by
  induction loader generalizing index progress with
  | nil => exact succeeds_ok progress
  | cons batch rest ih =>
      rw [trainBatches]
      split
      · exact succeeds_ok progress
      · have trains : Succeeds
            (trainMicrobatch env config epoch index rest.isEmpty batch progress) :=
          trainMicrobatch_succeeds calm positive index rest.isEmpty batch progress
        rcases trains with ⟨outcome, trained⟩
        rw [trained, bind_succeeds_iff]
        refine ⟨outcome, rfl, ?_⟩
        split
        · exact succeeds_ok _
        · exact ih _ _

theorem closeEpoch_advances (everyBatch : config.stepSchedulersEveryBatch)
    {before : EpochProgress} {after : Progress}
    (returned : closeEpoch env config epoch before = .ok after) :
    Advances before.toProgress after [] [] := by
  rcases bind_ok_iff.mp returned with ⟨overall, evaluated, saved⟩
  rcases map_ok_iff.mp saved with ⟨due, _, rfl⟩
  have logged : Advances before.toProgress overall [] [] := by
    have same := evaluateIfDue_advances evaluated
    rw [if_pos everyBatch] at same
    split at same
    · exact same
    · exact ⟨same.schedulers, same.globalBatchIdx, same.epochs, same.steps⟩
  cases due with
  | false => exact logged
  | true => exact logged.trans (Advances.of_eq rfl rfl rfl rfl)

variable (env epoch) in
theorem closeEpoch_succeeds_iff (progress : EpochProgress) :
    Succeeds (closeEpoch env config epoch progress) ↔
      (config.evalInterval.1 = .ep → config.evalInterval.2 ≠ 0) ∧ config.saveInterval ≠ 0 := by
  unfold closeEpoch
  rw [bind_succeeds_iff]
  constructor
  · rintro ⟨overall, evaluated, saves⟩
    refine ⟨(evaluateIfDue_succeeds_iff env _ _ _).mp ⟨overall, evaluated⟩, ?_⟩
    rw [map_succeeds_iff] at saves
    intro zero
    simp [isMultiple, zero] at saves
  · intro positive
    rcases (evaluateIfDue_succeeds_iff env .ep (epoch + 1) _).mpr positive.1 with
      ⟨overall, evaluated⟩
    refine ⟨overall, evaluated, ?_⟩
    rw [map_succeeds_iff, isMultiple, if_neg positive.2]
    exact succeeds_ok _

end Steps

/-! ## Runs -/

/-- The optimizer steps of an epoch over a loader of some length. -/
def stepsInEpoch (config : TrainConfig) (microbatches : ℕ) : ℕ :=
  stepsLeft config 0 (windows config.gradientAccumulationSteps microbatches)

/-- What consecutive epochs with the same number of steps present. -/
def presentsOf (steps : ℕ) : List LRScheduler → List ℤ → List Presented
  | _, [] => []
  | schedulers, epoch :: rest =>
      presentsFrom epoch schedulers 0 steps ++
        presentsOf steps (schedulers.map fun scheduler => scheduler.advance steps) rest

theorem length_presentsOf (steps : ℕ) (schedulers : List LRScheduler) (epochs : List ℤ) :
    (presentsOf steps schedulers epochs).length = epochs.length * steps := by
  induction epochs generalizing schedulers with
  | nil => simp [presentsOf]
  | cons epoch rest ih =>
      rw [presentsOf, List.length_append, length_presentsFrom, ih, List.length_cons,
        Nat.add_one_mul, Nat.add_comm]

theorem length_trainLoader {batchSize : ℤ} (positive : 0 < batchSize) (shuffled : List Sample) :
    (trainLoader batchSize shuffled).length = shuffled.length / batchSize.toNat := by
  have isPositive : 0 < batchSize.toNat := by omega
  rcases batches_eq isPositive shuffled with ⟨full, areBatches, areFull, count, _⟩
  have keepFull : full.filter (fun batch => batch.length = batchSize.toNat) = full := by
    rw [List.filter_eq_self]
    intro batch isFull
    exact decide_eq_true (areFull batch isFull)
  have partialIsShort :
      (shuffled.drop (shuffled.length / batchSize.toNat * batchSize.toNat)).length ≠
        batchSize.toNat := by
    have remainder := Nat.mod_lt shuffled.length isPositive
    have division := Nat.div_add_mod' shuffled.length batchSize.toNat
    rw [List.length_drop]
    omega
  rw [trainLoader, areBatches, List.filter_append, keepFull, List.length_append, count]
  split
  · simp
  · simpa using partialIsShort

section Runs

variable {env : Environment Sample} {pipeline : Pipeline Sample}

/-- The number of microbatches of an epoch. -/
def Pipeline.microbatches (pipeline : Pipeline Sample) : ℕ :=
  pipeline.train.length / pipeline.config.batchSizeTrain.toNat

/-- An epoch takes a step for each of its windows. -/
theorem trainEpoch_advances (calm : env.Calm)
    (everyBatch : pipeline.config.stepSchedulersEveryBatch)
    (positive : 0 < pipeline.config.gradientAccumulationSteps)
    (batchPositive : 0 < pipeline.config.batchSizeTrain) {epoch : ℤ} {before after : Progress}
    (returned : trainEpoch env pipeline epoch before = .ok after) :
    Advances before after [epoch] (presentsFrom epoch before.schedulers 0
      (stepsInEpoch pipeline.config pipeline.microbatches)) := by
  rcases bind_ok_iff.mp returned with ⟨trained, areTrained, closed⟩
  have count : (trainLoader pipeline.config.batchSizeTrain
      (env.shuffle epoch pipeline.train)).length = pipeline.microbatches := by
    rw [length_trainLoader batchPositive, (env.isShuffle epoch pipeline.train).length_eq]
    rfl
  have began : Advances before (before.beginEpoch epoch).toProgress [epoch] [] :=
    ⟨by simp [Progress.beginEpoch], rfl, rfl, by simp [Progress.beginEpoch]⟩
  have steps := trainBatches_advances calm everyBatch positive areTrained
  have whole : windowsFrom pipeline.config.gradientAccumulationSteps 0 pipeline.microbatches =
      windows pipeline.config.gradientAccumulationSteps pipeline.microbatches := by
    unfold windowsFrom
    split
    · rename_i none
      rw [none, windows, Nat.div_eq_of_lt (by omega)]
    · rw [Nat.zero_mod, Nat.zero_add]
  rw [count, whole] at steps
  have together := (began.trans steps).trans (closeEpoch_advances everyBatch closed)
  simpa [Progress.beginEpoch, stepsInEpoch] using together

/-- A run in a calm environment takes the steps of its epochs, and the schedulers count them. -/
theorem trainEpochs_advances (calm : env.Calm)
    (everyBatch : pipeline.config.stepSchedulersEveryBatch)
    (positive : 0 < pipeline.config.gradientAccumulationSteps)
    (batchPositive : 0 < pipeline.config.batchSizeTrain) {epochs : List ℤ}
    {before after : Progress} (returned : trainEpochs env pipeline epochs before = .ok after) :
    Advances before after epochs (presentsOf
      (stepsInEpoch pipeline.config pipeline.microbatches) before.schedulers epochs) := by
  induction epochs generalizing before with
  | nil =>
      cases returned
      exact Advances.refl after
  | cons epoch rest ih =>
      rcases bind_ok_iff.mp returned with ⟨closed, trained, continued⟩
      rw [if_neg (by simp [calm.noSigterm])] at continued
      have here := trainEpoch_advances calm everyBatch positive batchPositive trained
      have there := ih continued
      rw [here.schedulers, length_presentsFrom] at there
      exact here.trans there

theorem trainEpoch_succeeds (calm : env.Calm)
    (evalPositive : pipeline.config.evalInterval.2 ≠ 0)
    (savePositive : pipeline.config.saveInterval ≠ 0) (epoch : ℤ) (progress : Progress) :
    Succeeds (trainEpoch env pipeline epoch progress) := by
  rw [trainEpoch, bind_succeeds_iff]
  rcases trainBatches_succeeds epoch calm evalPositive
    (trainLoader pipeline.config.batchSizeTrain (env.shuffle epoch pipeline.train)) 0
    (progress.beginEpoch epoch) with ⟨trained, areTrained⟩
  refine ⟨trained, areTrained, (closeEpoch_succeeds_iff env epoch trained).mpr ?_⟩
  exact ⟨fun _ => evalPositive, savePositive⟩

theorem trainEpochs_succeeds (calm : env.Calm)
    (each : ∀ epoch progress, Succeeds (trainEpoch env pipeline epoch progress))
    (epochs : List ℤ) (progress : Progress) :
    Succeeds (trainEpochs env pipeline epochs progress) := by
  induction epochs generalizing progress with
  | nil => exact succeeds_ok progress
  | cons epoch rest ih =>
      rcases each epoch progress with ⟨closed, trained⟩
      rw [trainEpochs, bind_succeeds_iff]
      refine ⟨closed, trained, ?_⟩
      rw [if_neg (by simp [calm.noSigterm])]
      exact ih closed

/-- The run takes the steps of its epochs. -/
theorem run_advances (calm : env.Calm) (everyBatch : pipeline.config.stepSchedulersEveryBatch)
    (positive : 0 < pipeline.config.gradientAccumulationSteps)
    (batchPositive : 0 < pipeline.config.batchSizeTrain) {final : Progress}
    (returned : pipeline.run env = .ok final) :
    Advances pipeline.start final (range pipeline.config.startEpochAt pipeline.config.epochs)
      (presentsOf (stepsInEpoch pipeline.config pipeline.microbatches) [pipeline.lrScheduler]
        (range pipeline.config.startEpochAt pipeline.config.epochs)) :=
  trainEpochs_advances calm everyBatch positive batchPositive returned

end Runs

end VisionApi.Training
