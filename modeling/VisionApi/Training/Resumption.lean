import VisionApi.Training.Loop

/-!
# Schedules and runs

The schedule is built for a number of steps and for an epoch to start at; the run
takes its own number of steps from there.  Both are compared for a fresh run, and
for a run that is resumed after some epochs with the run that was not interrupted.

`IsBuilt` is what is known of a pipeline that was built: the scheduler as the parameter
`get_scheduler` makes it, and the settings that have passed the checks.  How many steps
the schedule is for is `scheduledSteps`, how many the run takes is `schedulerCalls`, and
the two are equal exactly if `ScheduleFits`.

For the resumed run the source builds the scheduler anew, with the steps of the epochs
done as its last epoch.  Whether the library does this on a fresh optimizer is left open:
of the two instances one raises, as PyTorch does, and the other builds the scheduler.
Either way the resumed run does not take the steps of the one that was not interrupted,
unless there was none to take.
-/

namespace VisionApi.Training

open Foundation

variable {Sample : Type} {getScheduler : GetScheduler} {config : TrainConfig}
  {dataset : Dataset Sample} {pipeline : Pipeline Sample}

/-! ## The pipeline that is built -/

/-- The steps of an epoch that the schedule is built for. -/
def scheduledSteps (config : TrainConfig) (dataset : Dataset Sample) : ℤ :=
  if 0 < config.trainSubsetNumBatches then config.trainSubsetNumBatches
  else max 1 (dataset.train.length / config.batchSizeTrain)

/-- The full batches of an epoch. -/
def Dataset.microbatches (dataset : Dataset Sample) (config : TrainConfig) : ℕ :=
  dataset.train.length / config.batchSizeTrain.toNat

/-- A pipeline that is built has a scheduler for all steps of its epochs, after those of the
epochs before `start_epoch_at`. -/
structure IsBuilt (config : TrainConfig) (dataset : Dataset Sample) (pipeline : Pipeline Sample) :
    Prop where
  hasConfig : pipeline.config = config
  hasTrain : pipeline.train = dataset.train
  epochs : 0 < config.epochs
  batchSize : 0 < config.batchSizeTrain
  scheduler : pipeline.lrScheduler =
    .new (warmupSteps (scheduledSteps config dataset * config.epochs) config.warmupRatio)
      (scheduledSteps config dataset * config.epochs)
      (config.startEpochAt * scheduledSteps config dataset - 1)

/-- When a pipeline is built. -/
theorem classificationPipeline_ok_iff :
    classificationPipeline getScheduler config dataset = .ok pipeline ↔
      config.numClasses = dataset.numClasses ∧ 0 < config.epochs ∧
        (0 ≤ config.warmupRatio ∧ config.warmupRatio < 1) ∧ 0 < config.batchSizeTrain ∧
        0 ≤ config.startEpochAt ∧ ∃ lrScheduler,
          getScheduler config.learningRateScheduler
            (warmupSteps (scheduledSteps config dataset * config.epochs) config.warmupRatio)
            (scheduledSteps config dataset * config.epochs)
            (config.startEpochAt * scheduledSteps config dataset - 1) = .ok lrScheduler ∧
          pipeline = ⟨config, dataset.train, lrScheduler⟩ := by
  unfold classificationPipeline
  split
  · rename_i refused
    simp only [reduceCtorEq, false_iff, not_and]
    intro same
    exact absurd same refused
  · rename_i accepted
    simp only [bind_ok_iff, map_ok_iff, createSchedulerParams_ok_iff, createLrScheduler_ok_iff,
      calculateStepsPerEpoch_ok_iff]
    constructor
    · rintro ⟨_, ⟨epochs, inRange, steps, ⟨batchSize, rfl⟩, rfl⟩, lrScheduler, ⟨start, built⟩, rfl⟩
      exact ⟨not_not.mp accepted, epochs, inRange, batchSize, start, lrScheduler, built, rfl⟩
    · rintro ⟨_, epochs, inRange, batchSize, start, lrScheduler, built, rfl⟩
      exact ⟨_, ⟨epochs, inRange, _, ⟨batchSize, rfl⟩, rfl⟩, lrScheduler, ⟨start, built⟩, rfl⟩

/-- What is built is a pipeline of the settings. -/
theorem isBuilt_of_ok (conforms : getScheduler.Conforms)
    (built : classificationPipeline getScheduler config dataset = .ok pipeline) :
    IsBuilt config dataset pipeline := by
  rcases classificationPipeline_ok_iff.mp built with
    ⟨_, epochs, _, batchSize, _, lrScheduler, returned, rfl⟩
  exact ⟨rfl, rfl, epochs, batchSize, conforms _ _ _ _ _ returned⟩

/-- A schedule has at least one step. -/
theorem scheduledSteps_pos (config : TrainConfig) (dataset : Dataset Sample) :
    0 < scheduledSteps config dataset := by
  unfold scheduledSteps
  split
  · assumption
  · exact Int.lt_of_lt_of_le Int.one_pos (le_max_left _ _)

theorem microbatches_eq (isBuilt : IsBuilt config dataset pipeline) :
    pipeline.microbatches = dataset.microbatches config := by
  rw [Pipeline.microbatches, isBuilt.hasConfig, isBuilt.hasTrain, Dataset.microbatches]

theorem length_range (start count : ℤ) : (range start count).length = count.toNat := by
  simp [range]

/-! ## The length of the schedule -/

/-- The number of calls of `step` that a run made on each scheduler. -/
def schedulerCalls (pipeline : Pipeline Sample) (final : Progress) : List ℤ :=
  final.schedulers.map fun scheduler =>
    (scheduler.stepCount : ℤ) - pipeline.lrScheduler.stepCount

/-- The epochs take as many steps as they are scheduled for: a window is one microbatch, or there
is one microbatch, or the subset is reached. -/
def ScheduleFits (config : TrainConfig) (dataset : Dataset Sample) : Prop :=
  (config.trainSubsetNumBatches = 0 ∧
      (config.gradientAccumulationSteps = 1 ∨ dataset.microbatches config = 1)) ∨
    (0 < config.trainSubsetNumBatches ∧ config.trainSubsetNumBatches ≤
      windows config.gradientAccumulationSteps (dataset.microbatches config))

/-- Without accumulation each microbatch is a step. -/
theorem windows_one (microbatches : ℕ) : windows 1 microbatches = microbatches := by
  simp [windows]

/-- Accumulation makes no difference only for one microbatch or none. -/
theorem windows_eq_self_iff (microbatches : ℕ) {accumulation : ℕ} (positive : 0 < accumulation) :
    windows accumulation microbatches = microbatches ↔ accumulation = 1 ∨ microbatches ≤ 1 := by
  constructor
  · intro same
    by_contra neither
    rw [not_or] at neither
    have large : (2 : ℤ) ≤ accumulation := by omega
    have several : (2 : ℤ) ≤ microbatches := by omega
    have fewer : microbatches + accumulation - 1 < microbatches * accumulation := by
      zify [show 1 ≤ microbatches + accumulation by omega]
      nlinarith
    have short := (Nat.div_lt_iff_lt_mul positive).mpr fewer
    rw [windows] at same
    omega
  · rintro (rfl | few)
    · exact windows_one microbatches
    · by_cases none : microbatches = 0
      · rw [none, windows, Nat.div_eq_of_lt (by omega)]
      · have one : microbatches = 1 := by omega
        rw [one, windows_eq_one Nat.one_pos positive]

/-- A run with intervals returns in a calm environment. -/
theorem run_succeeds {env : Environment Sample} (isBuilt : IsBuilt config dataset pipeline)
    (calm : env.Calm) (evalPositive : config.evalInterval.2 ≠ 0)
    (savePositive : config.saveInterval ≠ 0) : Succeeds (pipeline.run env) := by
  have isConfig := isBuilt.hasConfig
  apply trainEpochs_succeeds calm
  exact trainEpoch_succeeds calm (isConfig ▸ evalPositive) (isConfig ▸ savePositive)

/-- A run of a pipeline that was built advances through the epochs of its configuration. -/
theorem advances_of_run {env : Environment Sample} (isBuilt : IsBuilt config dataset pipeline)
    (everyBatch : config.stepSchedulersEveryBatch)
    (positive : 0 < config.gradientAccumulationSteps) (calm : env.Calm) {final : Progress}
    (returned : pipeline.run env = .ok final) :
    Advances pipeline.start final (range config.startEpochAt config.epochs)
      (presentsOf (stepsInEpoch config (dataset.microbatches config)) [pipeline.lrScheduler]
        (range config.startEpochAt config.epochs)) := by
  have isConfig := isBuilt.hasConfig
  have advances := run_advances calm (isConfig ▸ everyBatch) (isConfig ▸ positive)
    (isConfig ▸ isBuilt.batchSize) returned
  rw [isConfig, microbatches_eq isBuilt] at advances
  exact advances

/-- A run steps the scheduler once for each of its steps. -/
theorem schedulerCalls_eq {env : Environment Sample} (isBuilt : IsBuilt config dataset pipeline)
    (everyBatch : config.stepSchedulersEveryBatch)
    (positive : 0 < config.gradientAccumulationSteps) (calm : env.Calm) {final : Progress}
    (returned : pipeline.run env = .ok final) :
    schedulerCalls pipeline final =
      [config.epochs * stepsInEpoch config (dataset.microbatches config)] := by
  have advances := advances_of_run isBuilt everyBatch positive calm returned
  have epochs : (config.epochs.toNat : ℤ) = config.epochs :=
    Int.toNat_of_nonneg isBuilt.epochs.le
  rw [schedulerCalls, advances.schedulers, length_presentsOf, length_range]
  simp [Pipeline.start, epochs]

theorem stepsInEpoch_eq_iff (positive : 0 < config.gradientAccumulationSteps)
    (batchSize : 0 < config.batchSizeTrain)
    (oneBatch : config.batchSizeTrain ≤ dataset.train.length)
    (subset : 0 ≤ config.trainSubsetNumBatches) :
    (stepsInEpoch config (dataset.microbatches config) : ℤ) = scheduledSteps config dataset ↔
      ScheduleFits config dataset := by
  have some : 1 ≤ dataset.microbatches config :=
    (Nat.one_le_div_iff (by omega)).mpr (by omega)
  have quotient : ((dataset.microbatches config : ℕ) : ℤ) =
      dataset.train.length / config.batchSizeTrain := by
    rw [Dataset.microbatches, Int.natCast_ediv, Int.toNat_of_nonneg batchSize.le]
  unfold stepsInEpoch stepsLeft scheduledSteps ScheduleFits
  by_cases limited : 0 < config.trainSubsetNumBatches
  · rw [if_pos limited, if_pos limited]
    omega
  · rw [if_neg limited, if_neg limited, ← quotient, max_eq_right (by omega)]
    have same := windows_eq_self_iff (dataset.microbatches config) positive
    omega

/-- The schedule has the length of the run exactly if the epochs take the steps they are
scheduled for. -/
theorem schedule_has_length_of_run_iff (getScheduler : GetScheduler)
    (conforms : getScheduler.Conforms) (config : TrainConfig) (dataset : Dataset Sample)
    (pipeline : Pipeline Sample)
    (built : classificationPipeline getScheduler config dataset = .ok pipeline)
    (oneBatch : config.batchSizeTrain ≤ dataset.train.length)
    (accumulation : 1 ≤ config.gradientAccumulationSteps)
    (subset : 0 ≤ config.trainSubsetNumBatches) (everyBatch : config.stepSchedulersEveryBatch)
    (env : Environment Sample) (calm : env.Calm) :
    (config.evalInterval.2 ≠ 0 → config.saveInterval ≠ 0 → Succeeds (pipeline.run env)) ∧
      ∀ final, pipeline.run env = .ok final →
        (schedulerCalls pipeline final = [pipeline.lrScheduler.numTrainingSteps] ↔
          ScheduleFits config dataset) := by
  have isBuilt := isBuilt_of_ok conforms built
  constructor
  · exact run_succeeds isBuilt calm
  · intro final returned
    have training : pipeline.lrScheduler.numTrainingSteps =
        scheduledSteps config dataset * config.epochs := by
      rw [isBuilt.scheduler]
      rfl
    have epochs : config.epochs ≠ 0 := isBuilt.epochs.ne'
    rw [schedulerCalls_eq isBuilt everyBatch accumulation calm returned, training,
      List.cons_eq_cons, and_iff_left rfl, Int.mul_comm (scheduledSteps config dataset),
      Int.mul_eq_mul_left_iff epochs]
    exact stepsInEpoch_eq_iff accumulation isBuilt.batchSize oneBatch subset

/-- PyTorch on an optimizer whose parameter groups have no initial learning rate yet. -/
def schedulerOfFreshOptimizer : GetScheduler :=
  fun _ numWarmupSteps numTrainingSteps lastEpoch =>
    if lastEpoch = -1 then .ok (.new numWarmupSteps numTrainingSteps lastEpoch)
    else .error "param 'initial_lr' is not specified in param_groups[0] when resuming an optimizer"

theorem schedulerOfFreshOptimizer_conforms : schedulerOfFreshOptimizer.Conforms := by
  intro name warmup training lastEpoch scheduler returned
  unfold schedulerOfFreshOptimizer at returned
  split at returned
  · cases returned
    rfl
  · cases returned

/-- The settings of two epochs. -/
def twoEpochs : TrainConfig :=
  { numClasses := 10
    batchSizeTrain := 2
    epochs := 2
    learningRateScheduler := "cosine"
    warmupRatio := 0
    stepSchedulersEveryBatch := true
    gradientAccumulationSteps := 1
    startEpochAt := 0
    evalInterval := (.ep, 1)
    saveInterval := 1
    trainSubsetNumBatches := 0 }

/-- Five samples. -/
def fiveSamples : Dataset ℕ := ⟨[0, 1, 2, 3, 4], 10⟩

theorem perm_self (_ : ℤ) (samples : List ℕ) : samples.Perm samples :=
  List.Perm.refl samples

/-- A calm environment with constant losses. -/
def quietEnvironment : Environment ℕ where
  shuffle := fun _ samples => samples
  isShuffle := perm_self
  computeLoss := fun _ _ _ => some 1
  sigtermReceived := fun _ _ => false
  evaluate := fun _ => (1, [("acc_top1", 0)])

theorem quietEnvironment_calm : quietEnvironment.Calm :=
  ⟨fun _ _ _ => rfl, fun _ _ => rfl⟩

/-- A fresh run of a configuration on five samples is built with PyTorch's scheduler. -/
theorem fresh_built (config : TrainConfig) (classes : config.numClasses = 10)
    (epochs : 0 < config.epochs) (warmup : config.warmupRatio = 0)
    (batchSize : 0 < config.batchSizeTrain) (fresh : config.startEpochAt = 0) :
    ∃ pipeline, classificationPipeline schedulerOfFreshOptimizer config fiveSamples =
      .ok pipeline := by
  have inRange : 0 ≤ config.warmupRatio ∧ config.warmupRatio < 1 := by
    rw [warmup]
    exact ⟨le_refl 0, one_pos⟩
  have builds : Succeeds (schedulerOfFreshOptimizer config.learningRateScheduler
      (warmupSteps (scheduledSteps config fiveSamples * config.epochs) config.warmupRatio)
      (scheduledSteps config fiveSamples * config.epochs)
      (config.startEpochAt * scheduledSteps config fiveSamples - 1)) := by
    rw [fresh, Int.zero_mul]
    exact ⟨_, rfl⟩
  rcases builds with ⟨lrScheduler, returned⟩
  exact ⟨_, classificationPipeline_ok_iff.mpr
    ⟨classes, epochs, inRange, batchSize, fresh.ge, lrScheduler, returned, rfl⟩⟩

theorem schedule_has_length_of_run_iff_five : ∃ pipeline,
    classificationPipeline schedulerOfFreshOptimizer twoEpochs fiveSamples = .ok pipeline ∧
      ∀ final, pipeline.run quietEnvironment = .ok final →
        schedulerCalls pipeline final = [pipeline.lrScheduler.numTrainingSteps] := by
  rcases fresh_built twoEpochs rfl (by decide) rfl (by decide) rfl with
    ⟨pipeline, built⟩
  refine ⟨pipeline, built, fun final returned => ?_⟩
  have iff := (schedule_has_length_of_run_iff schedulerOfFreshOptimizer
    schedulerOfFreshOptimizer_conforms twoEpochs fiveSamples pipeline built (by decide) (by decide)
    (by decide) rfl quietEnvironment quietEnvironment_calm).2 final returned
  exact iff.mpr (Or.inl ⟨rfl, Or.inl rfl⟩)

/-- With two microbatches in a window, four scheduled steps are two. -/
theorem schedule_longer_than_run : ∃ pipeline final,
    classificationPipeline schedulerOfFreshOptimizer
      { twoEpochs with gradientAccumulationSteps := 2 } fiveSamples = .ok pipeline ∧
      pipeline.run quietEnvironment = .ok final ∧ schedulerCalls pipeline final = [2] ∧
      pipeline.lrScheduler.numTrainingSteps = 4 := by
  rcases fresh_built { twoEpochs with gradientAccumulationSteps := 2 } rfl (by decide)
    rfl (by decide) rfl with ⟨pipeline, built⟩
  have isBuilt := isBuilt_of_ok schedulerOfFreshOptimizer_conforms built
  rcases run_succeeds isBuilt quietEnvironment_calm Int.one_ne_zero Int.one_ne_zero with
    ⟨final, returned⟩
  refine ⟨pipeline, final, built, returned, ?_, ?_⟩
  · rw [schedulerCalls_eq isBuilt rfl (by decide) quietEnvironment_calm returned]
    decide
  · rw [isBuilt.scheduler]
    decide

/-! ## Resuming -/

/-- The same settings for other epochs. -/
def TrainConfig.resumedAt (config : TrainConfig) (epochs startEpochAt : ℤ) : TrainConfig :=
  { config with epochs := epochs, startEpochAt := startEpochAt }

/-- What the steps of a run show of themselves. -/
def Progress.presented (progress : Progress) : List Presented :=
  progress.steps.map StepLog.presents

/-- Some number of epochs resumes a run: it trains the epochs that are left, presents at each
optimizer step what that run presents there, and does not step past the schedule. -/
def Resumes (getScheduler : GetScheduler) (config : TrainConfig) (dataset : Dataset Sample)
    (env : Environment Sample) (startEpochAt : ℤ) (whole : Progress) : Prop :=
  ∃ epochs pipeline final,
    classificationPipeline getScheduler (config.resumedAt epochs startEpochAt) dataset =
        .ok pipeline ∧
      pipeline.run env = .ok final ∧
      final.epochs = range startEpochAt (config.epochs - startEpochAt) ∧
      final.presented = whole.presented.filter (fun step => startEpochAt ≤ step.1) ∧
      ∀ step ∈ final.presented, ∀ scheduler ∈ step.2.2, scheduler.1 + 1 ≤ scheduler.2.2

theorem mem_presentsOf {steps : ℕ} {schedulers : List LRScheduler} {epochs : List ℤ}
    {step : Presented} (isStep : step ∈ presentsOf steps schedulers epochs) :
    ∃ completed : ℕ,
      step.2.2 = schedulers.map fun scheduler => (scheduler.advance completed).presents := by
  induction epochs generalizing schedulers with
  | nil => cases isStep
  | cons epoch rest ih =>
      rcases List.mem_append.mp isStep with here | later
      · rcases List.mem_map.mp here with ⟨offset, _, rfl⟩
        exact ⟨offset, rfl⟩
      · rcases ih later with ⟨completed, areSchedulers⟩
        refine ⟨steps + completed, ?_⟩
        rw [areSchedulers, List.map_map]
        apply List.map_congr_left
        intro scheduler _
        simp [LRScheduler.advance, LRScheduler.presents, Int.add_assoc]

theorem numTrainingSteps_of_presented {env : Environment Sample}
    (isBuilt : IsBuilt config dataset pipeline) (everyBatch : config.stepSchedulersEveryBatch)
    (positive : 0 < config.gradientAccumulationSteps) (calm : env.Calm) {final : Progress}
    (returned : pipeline.run env = .ok final) {step : Presented}
    (isStep : step ∈ final.presented) :
    step.2.2.map (fun scheduler => scheduler.2.2) =
      [scheduledSteps config dataset * config.epochs] := by
  have advances := advances_of_run isBuilt everyBatch positive calm returned
  rw [Progress.presented, advances.steps] at isStep
  rcases mem_presentsOf isStep with ⟨completed, areSchedulers⟩
  rw [areSchedulers, isBuilt.scheduler]
  rfl

/-- A run takes as many steps as its epochs have. -/
theorem length_presented {env : Environment Sample} (isBuilt : IsBuilt config dataset pipeline)
    (everyBatch : config.stepSchedulersEveryBatch)
    (positive : 0 < config.gradientAccumulationSteps) (calm : env.Calm) {final : Progress}
    (returned : pipeline.run env = .ok final) :
    final.presented.length =
      config.epochs.toNat * stepsInEpoch config (dataset.microbatches config) := by
  have advances := advances_of_run isBuilt everyBatch positive calm returned
  rw [Progress.presented, advances.steps, List.length_append, length_presentsOf, length_range]
  exact Nat.zero_add _

theorem epochs_of_run {env : Environment Sample} (isBuilt : IsBuilt config dataset pipeline)
    (everyBatch : config.stepSchedulersEveryBatch)
    (positive : 0 < config.gradientAccumulationSteps) (calm : env.Calm) {final : Progress}
    (returned : pipeline.run env = .ok final) :
    final.epochs = range config.startEpochAt config.epochs := by
  have advances := advances_of_run isBuilt everyBatch positive calm returned
  rw [advances.epochs]
  exact List.nil_append _

theorem stepsInEpoch_eq_zero_iff (positive : 0 < config.gradientAccumulationSteps)
    (batchSize : 0 < config.batchSizeTrain) :
    stepsInEpoch config (dataset.microbatches config) = 0 ↔
      dataset.train.length < config.batchSizeTrain := by
  have noMicrobatch : dataset.microbatches config = 0 ↔
      dataset.train.length < config.batchSizeTrain := by
    rw [Dataset.microbatches, Nat.div_eq_zero_iff]
    omega
  have noWindow : windows config.gradientAccumulationSteps (dataset.microbatches config) = 0 ↔
      dataset.microbatches config = 0 := by
    rw [windows, Nat.div_eq_zero_iff]
    omega
  rw [← noMicrobatch, ← noWindow, stepsInEpoch, stepsLeft]
  split
  · omega
  · exact Iff.rfl

/-- The intervals with which the end of an epoch does not divide by zero. -/
def TrainConfig.Closes (config : TrainConfig) : Prop :=
  (config.evalInterval.1 = .ep → config.evalInterval.2 ≠ 0) ∧ config.saveInterval ≠ 0

theorem closes_of_run {env : Environment Sample} (isBuilt : IsBuilt config dataset pipeline)
    {final : Progress} (returned : pipeline.run env = .ok final) : config.Closes := by
  have some : 0 < config.epochs.toNat := by
    have epochs := isBuilt.epochs
    omega
  rw [Pipeline.run, isBuilt.hasConfig, range, ← Nat.succ_pred_eq_of_pos some,
    List.range_succ_eq_map, List.map_cons, trainEpochs] at returned
  rcases bind_ok_iff.mp returned with ⟨closed, trained, _⟩
  rcases bind_ok_iff.mp trained with ⟨progress, _, isClosed⟩
  rw [isBuilt.hasConfig] at isClosed
  exact (closeEpoch_succeeds_iff env _ progress).mp ⟨closed, isClosed⟩

theorem run_succeeds_of_short {env : Environment Sample}
    (isBuilt : IsBuilt config dataset pipeline) (calm : env.Calm) (closes : config.Closes)
    (short : dataset.train.length < config.batchSizeTrain) : Succeeds (pipeline.run env) := by
  apply trainEpochs_succeeds calm
  intro epoch progress
  have isEmpty : trainLoader pipeline.config.batchSizeTrain (env.shuffle epoch pipeline.train) =
      [] := by
    rw [← List.length_eq_zero_iff, isBuilt.hasConfig, isBuilt.hasTrain,
      length_trainLoader isBuilt.batchSize, (env.isShuffle epoch dataset.train).length_eq]
    apply Nat.div_eq_of_lt
    omega
  rw [trainEpoch, isEmpty, bind_succeeds_iff]
  refine ⟨_, rfl, (closeEpoch_succeeds_iff env epoch _).mpr ?_⟩
  rw [isBuilt.hasConfig]
  exact closes

theorem presented_eq_nil_of_short {env : Environment Sample}
    (isBuilt : IsBuilt config dataset pipeline) (everyBatch : config.stepSchedulersEveryBatch)
    (positive : 0 < config.gradientAccumulationSteps) (calm : env.Calm)
    (short : dataset.train.length < config.batchSizeTrain) {final : Progress}
    (returned : pipeline.run env = .ok final) : final.presented = [] := by
  rw [← List.length_eq_zero_iff, length_presented isBuilt everyBatch positive calm returned,
    (stepsInEpoch_eq_zero_iff positive isBuilt.batchSize).mpr short, Nat.mul_zero]

/-- A resumed run that takes a step presents there a schedule for its own epochs only. -/
theorem not_resumes_of_step {whole resumed : Pipeline Sample} {startEpochAt epochs : ℤ}
    (isWhole : IsBuilt config dataset whole)
    (isResumed : IsBuilt (config.resumedAt epochs startEpochAt) dataset resumed)
    (everyBatch : config.stepSchedulersEveryBatch)
    (positive : 0 < config.gradientAccumulationSteps) {env resumedEnv : Environment Sample}
    (calm : env.Calm) (resumedCalm : resumedEnv.Calm) {final resumedFinal : Progress}
    (returned : whole.run env = .ok final) (resumes : resumed.run resumedEnv = .ok resumedFinal)
    {step : Presented} (isStep : step ∈ resumedFinal.presented) (fewer : epochs ≠ config.epochs) :
    step ∉ final.presented := by
  intro isPresented
  have here := numTrainingSteps_of_presented isResumed everyBatch positive resumedCalm resumes
    isStep
  have there := numTrainingSteps_of_presented isWhole everyBatch positive calm returned isPresented
  have same : scheduledSteps config dataset * epochs =
      scheduledSteps config dataset * config.epochs :=
    List.singleton_inj.mp (here.symm.trans there)
  exact fewer ((Int.mul_eq_mul_left_iff (scheduledSteps_pos config dataset).ne').mp same)

theorem short_of_resumes (conforms : getScheduler.Conforms)
    (isBuilt : IsBuilt config dataset pipeline)
    (everyBatch : config.stepSchedulersEveryBatch)
    (positive : 0 < config.gradientAccumulationSteps) {env resumedEnv : Environment Sample}
    (calm : env.Calm) (resumedCalm : resumedEnv.Calm) {whole : Progress}
    (returned : pipeline.run env = .ok whole) {startEpochAt : ℤ} (later : 0 < startEpochAt)
    (resumable : Resumes getScheduler config dataset resumedEnv startEpochAt whole) :
    dataset.train.length < config.batchSizeTrain ∧
      Succeeds (getScheduler config.learningRateScheduler
        (warmupSteps (scheduledSteps config dataset * (config.epochs - startEpochAt))
          config.warmupRatio)
        (scheduledSteps config dataset * (config.epochs - startEpochAt))
        (startEpochAt * scheduledSteps config dataset - 1)) := by
  rcases resumable with ⟨epochs, resumed, final, resumedBuilt, resumes, trained, sameSteps, _⟩
  have isResumed := isBuilt_of_ok conforms resumedBuilt
  have isPositive : 0 < epochs := isResumed.epochs
  have areEpochs : epochs = config.epochs - startEpochAt := by
    have sameEpochs : range startEpochAt epochs =
        range startEpochAt (config.epochs - startEpochAt) :=
      (epochs_of_run isResumed everyBatch positive resumedCalm resumes).symm.trans trained
    have sameLength := congrArg List.length sameEpochs
    rw [length_range, length_range] at sameLength
    omega
  rcases classificationPipeline_ok_iff.mp resumedBuilt with
    ⟨_, _, _, _, _, lrScheduler, isScheduler, _⟩
  refine ⟨?_, lrScheduler, areEpochs ▸ isScheduler⟩
  by_contra notShort
  have someStep : 0 < final.presented.length := by
    rw [length_presented isResumed everyBatch positive resumedCalm resumes]
    apply Nat.mul_pos
    · exact Int.pos_iff_toNat_pos.mp isPositive
    · rw [Nat.pos_iff_ne_zero]
      intro noStep
      exact notShort ((stepsInEpoch_eq_zero_iff positive isResumed.batchSize).mp noStep)
  rcases List.exists_mem_of_length_pos someStep with ⟨step, isStep⟩
  have fewer : epochs ≠ config.epochs := by omega
  apply not_resumes_of_step isBuilt isResumed everyBatch positive calm resumedCalm returned resumes
    isStep fewer
  rw [sameSteps] at isStep
  exact List.mem_of_mem_filter isStep

/-- A run with schedulers stepped at every optimizer step is resumed by some number of epochs
exactly if no epoch has a step, and the library builds a scheduler for the epochs that are left. -/
theorem resumes_iff_no_step (getScheduler : GetScheduler) (conforms : getScheduler.Conforms)
    (config : TrainConfig) (dataset : Dataset Sample) (pipeline : Pipeline Sample)
    (built : classificationPipeline getScheduler config dataset = .ok pipeline)
    (everyBatch : config.stepSchedulersEveryBatch) (one : config.gradientAccumulationSteps = 1)
    (env resumedEnv : Environment Sample) (calm : env.Calm) (resumedCalm : resumedEnv.Calm)
    (whole : Progress) (returned : pipeline.run env = .ok whole) (startEpochAt : ℤ)
    (later : 0 < startEpochAt) (inside : startEpochAt < config.epochs) :
    Resumes getScheduler config dataset resumedEnv startEpochAt whole ↔
      dataset.train.length < config.batchSizeTrain ∧
        Succeeds (getScheduler config.learningRateScheduler
          (warmupSteps (scheduledSteps config dataset * (config.epochs - startEpochAt))
            config.warmupRatio)
          (scheduledSteps config dataset * (config.epochs - startEpochAt))
          (startEpochAt * scheduledSteps config dataset - 1)) := by
  have isBuilt := isBuilt_of_ok conforms built
  have positive : 0 < config.gradientAccumulationSteps := by omega
  constructor
  · exact short_of_resumes conforms isBuilt everyBatch positive calm resumedCalm returned later
  · rintro ⟨short, lrScheduler, isScheduler⟩
    rcases classificationPipeline_ok_iff.mp built with ⟨classes, _, inRange, batchSize, _, _⟩
    have left : 0 < config.epochs - startEpochAt := by omega
    have resumedBuilt : classificationPipeline getScheduler
        (config.resumedAt (config.epochs - startEpochAt) startEpochAt) dataset =
          .ok ⟨config.resumedAt (config.epochs - startEpochAt) startEpochAt, dataset.train,
            lrScheduler⟩ :=
      classificationPipeline_ok_iff.mpr
        ⟨classes, left, inRange, batchSize, later.le, lrScheduler, isScheduler, rfl⟩
    have isResumed := isBuilt_of_ok conforms resumedBuilt
    have closes : config.Closes := closes_of_run isBuilt returned
    rcases run_succeeds_of_short isResumed resumedCalm closes short with ⟨final, resumes⟩
    have noSteps := presented_eq_nil_of_short isResumed everyBatch positive resumedCalm short
      resumes
    have noWholeSteps := presented_eq_nil_of_short isBuilt everyBatch positive calm short returned
    refine ⟨_, _, final, resumedBuilt, resumes,
      epochs_of_run isResumed everyBatch positive resumedCalm resumes, ?_, ?_⟩
    · rw [noSteps, noWholeSteps]
      rfl
    · rw [noSteps]
      exact List.forall_mem_nil _

theorem fresh_run {getScheduler : GetScheduler} (conforms : getScheduler.Conforms)
    (builds : ∀ warmup training, Succeeds (getScheduler "cosine" warmup training (-1)))
    (dataset : Dataset ℕ) (classes : dataset.numClasses = 10) :
    ∃ pipeline whole, classificationPipeline getScheduler twoEpochs dataset = .ok pipeline ∧
      IsBuilt twoEpochs dataset pipeline ∧ pipeline.run quietEnvironment = .ok whole := by
  rcases builds (warmupSteps (scheduledSteps twoEpochs dataset * twoEpochs.epochs)
    twoEpochs.warmupRatio) (scheduledSteps twoEpochs dataset * twoEpochs.epochs) with
    ⟨lrScheduler, returned⟩
  have inRange : 0 ≤ twoEpochs.warmupRatio ∧ twoEpochs.warmupRatio < 1 := ⟨le_refl 0, one_pos⟩
  have built : classificationPipeline getScheduler twoEpochs dataset =
      .ok ⟨twoEpochs, dataset.train, lrScheduler⟩ := by
    apply classificationPipeline_ok_iff.mpr
    refine ⟨classes.symm, by decide, inRange, by decide, by decide, lrScheduler, ?_, rfl⟩
    rw [show twoEpochs.startEpochAt * scheduledSteps twoEpochs dataset - 1 = -1 from
      congrArg (· - 1) (Int.zero_mul _)]
    exact returned
  have isBuilt := isBuilt_of_ok conforms built
  rcases run_succeeds isBuilt quietEnvironment_calm Int.one_ne_zero Int.one_ne_zero with
    ⟨whole, finished⟩
  exact ⟨_, whole, built, isBuilt, finished⟩

theorem resumes_iff_no_step_five : ∃ whole,
    ¬Resumes schedulerOfFreshOptimizer twoEpochs fiveSamples quietEnvironment 1 whole := by
  rcases fresh_run schedulerOfFreshOptimizer_conforms (fun _ _ => ⟨_, rfl⟩) fiveSamples rfl with
    ⟨pipeline, whole, built, _, returned⟩
  have iff := resumes_iff_no_step schedulerOfFreshOptimizer schedulerOfFreshOptimizer_conforms
    twoEpochs fiveSamples pipeline built rfl rfl quietEnvironment quietEnvironment
    quietEnvironment_calm quietEnvironment_calm whole returned 1 (by decide) (by decide)
  refine ⟨whole, fun resumable => ?_⟩
  have notShort : ¬((fiveSamples.train.length : ℤ) < twoEpochs.batchSizeTrain) := by decide
  exact notShort (iff.mp resumable).1

/-- A library that resumes an optimizer whose parameter groups have an initial learning rate. -/
def schedulerOfUsedOptimizer : GetScheduler :=
  fun _ numWarmupSteps numTrainingSteps lastEpoch =>
    .ok (.new numWarmupSteps numTrainingSteps lastEpoch)

theorem schedulerOfUsedOptimizer_conforms : schedulerOfUsedOptimizer.Conforms := by
  intro name warmup training lastEpoch scheduler returned
  cases returned
  rfl

/-- Two epochs of two steps cannot be continued after the first one, whether or not the library
builds the scheduler of the second. -/
theorem not_resumes_after_one_epoch :
    (∃ pipeline whole, classificationPipeline schedulerOfFreshOptimizer twoEpochs fiveSamples =
        .ok pipeline ∧ pipeline.run quietEnvironment = .ok whole ∧
        ¬Resumes schedulerOfFreshOptimizer twoEpochs fiveSamples quietEnvironment 1 whole) ∧
      ∃ pipeline whole, classificationPipeline schedulerOfUsedOptimizer twoEpochs fiveSamples =
        .ok pipeline ∧ pipeline.run quietEnvironment = .ok whole ∧
        ¬Resumes schedulerOfUsedOptimizer twoEpochs fiveSamples quietEnvironment 1 whole := by
  have notShort : ¬((fiveSamples.train.length : ℤ) < twoEpochs.batchSizeTrain) := by decide
  constructor
  · rcases fresh_run schedulerOfFreshOptimizer_conforms (fun _ _ => ⟨_, rfl⟩) fiveSamples rfl with
      ⟨pipeline, whole, built, isBuilt, returned⟩
    refine ⟨pipeline, whole, built, returned, fun resumable => notShort ?_⟩
    exact (short_of_resumes schedulerOfFreshOptimizer_conforms isBuilt rfl (by decide)
      quietEnvironment_calm quietEnvironment_calm returned one_pos resumable).1
  · rcases fresh_run schedulerOfUsedOptimizer_conforms (fun _ _ => ⟨_, rfl⟩) fiveSamples rfl with
      ⟨pipeline, whole, built, isBuilt, returned⟩
    refine ⟨pipeline, whole, built, returned, fun resumable => notShort ?_⟩
    exact (short_of_resumes schedulerOfUsedOptimizer_conforms isBuilt rfl (by decide)
      quietEnvironment_calm quietEnvironment_calm returned one_pos resumable).1

end VisionApi.Training
