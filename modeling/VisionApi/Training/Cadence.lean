import Mathlib.Data.Nat.Factorization.Basic
import VisionApi.Foundation.Fallible
import VisionApi.Training.Resumption

/-!
# When a run evaluates and saves

What a run leaves behind in any environment: losses may be non-finite and SIGTERM
may be received at any time.  The epochs begun end with the first one after which
SIGTERM was received; of these, the ones that are due and the last one before an
exit are checkpointed, each once.  Evaluations are counted by the interval alone.

Both results follow the loop from the inside out.  `trainMicrobatch_cases` lists what one
microbatch can do, `trainBatches_induction` carries any property from there over an
epoch, and the epochs are an induction on their list.  An epoch saves at its end only, so
`Unsaved` says that everything before leaves the checkpoints alone.

For the evaluations the count is a function of the steps done (`evaluationsByBatch`) and
of the epochs done (`evaluationsByEpoch`), and the progress agrees with it at every point
(`OnSchedule`).  The summary at the end reports the last evaluation and the best one.
-/

namespace VisionApi.Training

open Foundation

variable {Sample : Type} {env : Environment Sample} {config : TrainConfig} {epoch : ℤ}

/-! ## What the microbatches leave alone -/

/-- The checkpoints and the epochs begun are the same. -/
structure Progress.Unsaved (before after : Progress) : Prop where
  checkpoints : after.checkpoints = before.checkpoints
  lastSavedEpoch : after.lastSavedEpoch = before.lastSavedEpoch
  epochs : after.epochs = before.epochs

namespace Progress.Unsaved

/-- Nothing is saved by doing nothing. -/
theorem refl (progress : Progress) : Progress.Unsaved progress progress :=
  ⟨rfl, rfl, rfl⟩

/-- Nothing is saved by two parts that save nothing. -/
theorem trans {before middle after : Progress} (here : Progress.Unsaved before middle)
    (there : Progress.Unsaved middle after) : Progress.Unsaved before after :=
  ⟨there.checkpoints.trans here.checkpoints, there.lastSavedEpoch.trans here.lastSavedEpoch,
    there.epochs.trans here.epochs⟩

end Progress.Unsaved

/-- An evaluation takes place if the interval is in this unit and divides the count. -/
def evaluationDue (config : TrainConfig) (unit : EvalUnit) (count : ℤ) : Bool :=
  config.evalInterval.1 = unit && count % config.evalInterval.2 = 0

theorem evaluateIfDue_eq {unit : EvalUnit} {count : ℤ} {before after : Progress}
    (returned : evaluateIfDue env config unit count before = .ok after) :
    after = if evaluationDue config unit count then before.evaluated env else before := by
  unfold evaluateIfDue at returned
  split at returned
  · rename_i isUnit
    rcases map_ok_iff.mp returned with ⟨due, isDue, rfl⟩
    unfold isMultiple at isDue
    split at isDue
    · cases isDue
    · cases isDue
      simp [evaluationDue, isUnit]
  · rename_i notUnit
    cases returned
    simp [evaluationDue, notUnit]

theorem evaluateIfDue_unsaved {unit : EvalUnit} {count : ℤ} {before after : Progress}
    (returned : evaluateIfDue env config unit count before = .ok after) :
    Progress.Unsaved before after := by
  rw [evaluateIfDue_eq returned]
  split
  · exact ⟨rfl, rfl, rfl⟩
  · exact .refl before

/-- What a microbatch does: it skips a non-finite loss, adds a finite one to the window, or closes
the window with an optimizer step and the evaluation that is due. -/
theorem trainMicrobatch_cases {index : ℕ} {isLast : Bool} {batch : List Sample}
    {before : EpochProgress} {outcome : EpochProgress × Bool}
    (returned : trainMicrobatch env config epoch index isLast batch before = .ok outcome) :
    outcome = ({ before with consecutiveNanCount := before.consecutiveNanCount + 1 }, false) ∨
      (∃ loss, outcome = (accumulateLoss loss before, false)) ∨
      ∃ loss overall, evaluateIfDue env config .ba
          (takeStep config epoch (accumulateLoss loss before)).globalBatchIdx
          (takeStep config epoch (accumulateLoss loss before)).toProgress = .ok overall ∧
        outcome = ({ takeStep config epoch (accumulateLoss loss before) with
          toProgress := overall }, env.sigtermReceived epoch (some index)) := by
  cases isLoss : env.computeLoss epoch index batch with
  | none =>
      simp only [trainMicrobatch, isLoss] at returned
      split at returned
      · cases returned
      · cases returned
        exact .inl rfl
  | some loss =>
      simp only [trainMicrobatch, isLoss] at returned
      split at returned
      · rcases map_ok_iff.mp returned with ⟨overall, evaluated, rfl⟩
        exact .inr (.inr ⟨loss, overall, evaluated, rfl⟩)
      · cases returned
        exact .inr (.inl ⟨loss, rfl⟩)

theorem trainMicrobatch_unsaved {index : ℕ} {isLast : Bool} {batch : List Sample}
    {before : EpochProgress} {outcome : EpochProgress × Bool}
    (returned : trainMicrobatch env config epoch index isLast batch before = .ok outcome) :
    Progress.Unsaved before.toProgress outcome.1.toProgress := by
  rcases trainMicrobatch_cases returned with rfl | ⟨loss, rfl⟩ | ⟨loss, overall, evaluated, rfl⟩
  · exact ⟨rfl, rfl, rfl⟩
  · exact ⟨rfl, rfl, rfl⟩
  · have stepped : Progress.Unsaved before.toProgress
        (takeStep config epoch (accumulateLoss loss before)).toProgress := ⟨rfl, rfl, rfl⟩
    exact stepped.trans (evaluateIfDue_unsaved evaluated)

/-- What the loop over the microbatches does is one `relation` after another. -/
theorem trainBatches_induction (relation : Progress → Progress → Prop)
    (refl : ∀ progress, relation progress progress)
    (trans : ∀ {before middle after}, relation before middle → relation middle after →
      relation before after)
    (step : ∀ {index isLast batch} {before : EpochProgress} {outcome},
      trainMicrobatch env config epoch index isLast batch before = .ok outcome →
        relation before.toProgress outcome.1.toProgress)
    {loader : List (List Sample)} {index : ℕ} {before after : EpochProgress}
    (returned : trainBatches env config epoch index loader before = .ok after) :
    relation before.toProgress after.toProgress := by
  induction loader generalizing index before with
  | nil =>
      cases returned
      exact refl after.toProgress
  | cons batch rest ih =>
      rw [trainBatches] at returned
      split at returned
      · cases returned
        exact refl after.toProgress
      · rcases bind_ok_iff.mp returned with ⟨outcome, trained, continued⟩
        split at continued
        · cases continued
          exact step trained
        · exact trans (step trained) (ih continued)

theorem trainBatches_unsaved {loader : List (List Sample)} {index : ℕ}
    {before after : EpochProgress}
    (returned : trainBatches env config epoch index loader before = .ok after) :
    Progress.Unsaved before.toProgress after.toProgress :=
  trainBatches_induction Progress.Unsaved Progress.Unsaved.refl Progress.Unsaved.trans
    trainMicrobatch_unsaved returned

/-! ## Epochs and checkpoints -/

/-- A checkpoint is due at the end of the epoch. -/
def saveDue (config : TrainConfig) (epoch : ℤ) : Bool :=
  (epoch + 1) % config.saveInterval = 0

/-- What is logged at the end of an epoch, before the evaluation. -/
def logEpoch (config : TrainConfig) (epoch : ℤ) (progress : EpochProgress) : Progress :=
  let stepped :=
    if config.stepSchedulersEveryBatch then progress.toProgress
    else { progress.toProgress with schedulers := progress.schedulers.map LRScheduler.step }
  if progress.numSteps = 0 then stepped
  else { stepped with
    trainLosses := stepped.trainLosses ++ [(epoch, progress.epochLoss / progress.numSteps)] }

/-- What the end of an epoch does. -/
theorem closeEpoch_eq {before : EpochProgress} {after : Progress}
    (returned : closeEpoch env config epoch before = .ok after) :
    ∃ overall, evaluateIfDue env config .ep (epoch + 1) (logEpoch config epoch before) =
        .ok overall ∧
      after = if saveDue config epoch then
          { overall with checkpoints := overall.checkpoints ++ [epoch], lastSavedEpoch := epoch }
        else overall := by
  rcases bind_ok_iff.mp returned with ⟨overall, evaluated, saved⟩
  refine ⟨overall, evaluated, ?_⟩
  rcases map_ok_iff.mp saved with ⟨due, isDue, rfl⟩
  unfold isMultiple at isDue
  split at isDue
  · cases isDue
  · cases isDue
    rfl

theorem logEpoch_unsaved (config : TrainConfig) (epoch : ℤ) (progress : EpochProgress) :
    Progress.Unsaved progress.toProgress (logEpoch config epoch progress) := by
  unfold logEpoch
  split <;> split <;> exact ⟨rfl, rfl, rfl⟩

/-- An epoch is begun, and saved if that is due or the run exits. -/
theorem trainEpoch_saves {pipeline : Pipeline Sample} {before after : Progress}
    (returned : trainEpoch env pipeline epoch before = .ok after) :
    after.epochs = before.epochs ++ [epoch] ∧
      if saveDue pipeline.config epoch then
        after.checkpoints = before.checkpoints ++ [epoch] ∧ after.lastSavedEpoch = epoch
      else
        after.checkpoints = before.checkpoints ∧ after.lastSavedEpoch = before.lastSavedEpoch := by
  rcases bind_ok_iff.mp returned with ⟨trained, areTrained, closed⟩
  rcases closeEpoch_eq closed with ⟨overall, evaluated, rfl⟩
  have kept := (trainBatches_unsaved areTrained).trans
    ((logEpoch_unsaved pipeline.config epoch trained).trans (evaluateIfDue_unsaved evaluated))
  have began : overall.epochs = before.epochs ++ [epoch] := kept.epochs
  split
  · refine ⟨began, ?_, rfl⟩
    rw [kept.checkpoints]
    rfl
  · exact ⟨began, kept.checkpoints, kept.lastSavedEpoch⟩

/-- The epochs up to the first one after which SIGTERM was received. -/
def epochsUntil (received : ℤ → Bool) : List ℤ → List ℤ
  | [] => []
  | epoch :: rest => if received epoch then [epoch] else epoch :: epochsUntil received rest

theorem epochsUntil_sublist (received : ℤ → Bool) (epochs : List ℤ) :
    (epochsUntil received epochs).Sublist epochs := by
  induction epochs with
  | nil => exact List.Sublist.slnil
  | cons epoch rest ih =>
      rw [epochsUntil]
      split
      · simp
      · exact ih.cons_cons epoch

/-- An epoch is checkpointed if that is due or if the run ends with it. -/
def isSaved (env : Environment Sample) (config : TrainConfig) (epoch : ℤ) : Bool :=
  saveDue config epoch || env.sigtermReceived epoch none

theorem pairwise_range (start count : ℤ) : (range start count).Pairwise (· < ·) := by
  unfold range
  rw [List.pairwise_map]
  apply List.pairwise_lt_range.imp
  intro first second ordered
  omega

theorem mem_range_iff {start count epoch : ℤ} :
    epoch ∈ range start count ↔ start ≤ epoch ∧ epoch < start + count := by
  simp only [range, List.mem_map, List.mem_range]
  constructor
  · rintro ⟨offset, small, rfl⟩
    omega
  · rintro ⟨atLeast, below⟩
    exact ⟨(epoch - start).toNat, by omega, by omega⟩

/-- The epochs of a run that are left are later than the one saved last, unless that is the initial
`-1`, which is always due. -/
theorem trainEpochs_saves {pipeline : Pipeline Sample} {epochs : List ℤ} {before after : Progress}
    (increasing : epochs.Pairwise (· < ·))
    (later : ∀ epoch ∈ epochs, before.lastSavedEpoch = epoch → saveDue pipeline.config epoch)
    (returned : trainEpochs env pipeline epochs before = .ok after) :
    after.epochs = before.epochs ++
        epochsUntil (fun epoch => env.sigtermReceived epoch none) epochs ∧
      after.checkpoints = before.checkpoints ++
        (epochsUntil (fun epoch => env.sigtermReceived epoch none) epochs).filter
          (isSaved env pipeline.config) := by
  induction epochs generalizing before with
  | nil =>
      cases returned
      simp [epochsUntil]
  | cons epoch rest ih =>
      rcases bind_ok_iff.mp returned with ⟨closed, trained, continued⟩
      rcases trainEpoch_saves trained with ⟨began, saved⟩
      rcases List.pairwise_cons.mp increasing with ⟨first, increasing⟩
      split at continued
      · rename_i received
        simp only [epochsUntil, received, if_true, isSaved, List.filter_cons, Bool.or_true,
          List.filter_nil]
        split at saved
        · rename_i due
          rw [if_neg (by simp [saved.2])] at continued
          cases continued
          exact ⟨began, saved.1⟩
        · rename_i notDue
          have unsaved : closed.lastSavedEpoch ≠ epoch := by
            intro same
            exact notDue (later epoch List.mem_cons_self (saved.2 ▸ same))
          rw [if_pos unsaved] at continued
          cases continued
          exact ⟨began, by rw [saved.1]⟩
      · rename_i notReceived
        have laterRest : ∀ other ∈ rest, closed.lastSavedEpoch = other →
            saveDue pipeline.config other := by
          intro other isRest same
          split at saved
          · have isLater := first other isRest
            omega
          · exact later other (List.mem_cons_of_mem _ isRest) (saved.2 ▸ same)
        rcases ih increasing laterRest continued with ⟨epochs, checkpoints⟩
        simp only [epochsUntil, notReceived, Bool.false_eq_true, if_false, List.filter_cons,
          isSaved, Bool.or_false]
        refine ⟨by rw [epochs, began, List.append_assoc, List.singleton_append], ?_⟩
        rw [checkpoints]
        split at saved
        · rename_i due
          simp [due, saved.1]
        · rename_i notDue
          simp [notDue, saved.1]

/-- A run begins the epochs up to the first SIGTERM, and its checkpoints are the epochs begun that
are due or end the run, each of them once. -/
theorem run_checkpoints (env : Environment Sample) (pipeline : Pipeline Sample) {final : Progress}
    (returned : pipeline.run env = .ok final) :
    final.epochs = epochsUntil (fun epoch => env.sigtermReceived epoch none)
        (range pipeline.config.startEpochAt pipeline.config.epochs) ∧
      final.checkpoints = final.epochs.filter (isSaved env pipeline.config) ∧
      final.checkpoints.Pairwise (· < ·) := by
  have increasing := pairwise_range pipeline.config.startEpochAt pipeline.config.epochs
  have later : ∀ epoch ∈ range pipeline.config.startEpochAt pipeline.config.epochs,
      pipeline.start.lastSavedEpoch = epoch → saveDue pipeline.config epoch := by
    rintro epoch _ rfl
    simp [saveDue, Pipeline.start]
  rcases trainEpochs_saves increasing later returned with ⟨epochs, checkpoints⟩
  simp only [Pipeline.start, List.nil_append] at epochs checkpoints
  rw [checkpoints, epochs]
  exact ⟨rfl, rfl, (increasing.sublist (epochsUntil_sublist _ _)).filter _⟩

/-- Five epochs that are saved every fourth one. -/
def fiveEpochs : Pipeline ℕ where
  config := { twoEpochs with epochs := 5, saveInterval := 4, evalInterval := (.ba, 3) }
  train := fiveSamples.train
  lrScheduler := .new 0 10 (-1)

/-- SIGTERM is received in the second epoch. -/
def preempted : Environment ℕ :=
  { quietEnvironment with sigtermReceived := fun epoch index => 1 ≤ epoch && index.isNone }

theorem preempted_returns : ∃ final, fiveEpochs.run preempted = .ok final ∧
    final.globalBatchIdx = 4 := by
  have counted : (fiveEpochs.run preempted).toOption.map Progress.globalBatchIdx = some 4 := by
    decide +kernel
  cases returned : fiveEpochs.run preempted with
  | error error => simp [returned, Except.toOption] at counted
  | ok final => exact ⟨final, rfl, by simpa [returned, Except.toOption] using counted⟩

/-- A run that is preempted in its second epoch saves it. -/
theorem run_checkpoints_preempted : ∃ final, fiveEpochs.run preempted = .ok final ∧
    final.epochs = [0, 1] ∧ final.checkpoints = [1] := by
  rcases preempted_returns with ⟨final, returned, _⟩
  refine ⟨final, returned, ?_⟩
  rcases run_checkpoints preempted fiveEpochs returned with ⟨epochs, checkpoints, _⟩
  rw [checkpoints, epochs]
  decide

/-! ## Evaluations -/

/-- The results of the last of some evaluations. -/
def lastResult (env : Environment Sample) : ℕ → WithTop ℚ × Dict String ℚ
  | 0 => (⊤, [])
  | earlier + 1 => env.evaluate earlier

/-- The state holds the results of that many evaluations. -/
structure Results (env : Environment Sample) (evaluations : ℕ) (progress : Progress) : Prop where
  bestMetrics : progress.bestMetrics =
    (List.range evaluations).map fun index => primaryMetric (env.evaluate index).2
  final : (progress.finalEvalLoss, progress.finalMetrics) = lastResult env evaluations

/-- An evaluation is counted and its results are kept. -/
theorem Results.evaluated {evaluations : ℕ} {progress : Progress}
    (results : Results env evaluations progress) :
    Results env (evaluations + 1) (progress.evaluated env) := by
  have count : progress.bestMetrics.length = evaluations := by simp [results.bestMetrics]
  refine ⟨?_, ?_⟩
  · simp [Progress.evaluated, results.bestMetrics, List.range_succ]
  · simp [Progress.evaluated, count, lastResult]

/-- What changes no result keeps the count. -/
theorem Results.of_eq {evaluations : ℕ} {before after : Progress}
    (results : Results env evaluations before)
    (bestMetrics : after.bestMetrics = before.bestMetrics)
    (finalEvalLoss : after.finalEvalLoss = before.finalEvalLoss)
    (finalMetrics : after.finalMetrics = before.finalMetrics) : Results env evaluations after :=
  ⟨bestMetrics.trans results.bestMetrics, by rw [finalEvalLoss, finalMetrics, results.final]⟩

theorem Results.evaluateIfDue {evaluations : ℕ} {unit : EvalUnit} {count : ℤ}
    {before after : Progress} (results : Results env evaluations before)
    (returned : evaluateIfDue env config unit count before = .ok after) :
    Results env (evaluations + if evaluationDue config unit count then 1 else 0) after := by
  rw [evaluateIfDue_eq returned]
  split
  · exact results.evaluated
  · exact results

/-- The evaluations in batches up to a count of optimizer steps. -/
def evaluationsByBatch (config : TrainConfig) (steps : ℕ) : ℕ :=
  if config.evalInterval.1 = .ba then steps / config.evalInterval.2.natAbs else 0

theorem evaluationsByBatch_succ (config : TrainConfig) (steps : ℕ) :
    evaluationsByBatch config (steps + 1) = evaluationsByBatch config steps +
      if evaluationDue config .ba ((steps + 1 : ℕ) : ℤ) then 1 else 0 := by
  unfold evaluationsByBatch evaluationDue
  split
  · rename_i isBatch
    have divides : ((steps + 1 : ℕ) : ℤ) % config.evalInterval.2 = 0 ↔
        config.evalInterval.2.natAbs ∣ steps + 1 := by
      rw [← Int.dvd_iff_emod_eq_zero, ← Int.natAbs_dvd_natAbs, Int.natAbs_natCast]
    simp only [isBatch, Nat.succ_div, decide_true, Bool.true_and, decide_eq_true_eq, divides]
  · rename_i notBatch
    simp [notBatch]

/-- The evaluations in epochs among those begun. -/
def evaluationsByEpoch (config : TrainConfig) (epochs : List ℤ) : ℕ :=
  (epochs.filter fun epoch => evaluationDue config .ep (epoch + 1)).length

/-- The results held are those of the evaluations that the interval counts. -/
def OnSchedule (env : Environment Sample) (config : TrainConfig) (progress : Progress) : Prop :=
  Results env (evaluationsByBatch config progress.globalBatchIdx +
    evaluationsByEpoch config progress.epochs) progress

theorem trainMicrobatch_results {index : ℕ} {isLast : Bool} {batch : List Sample}
    {before : EpochProgress} {outcome : EpochProgress × Bool}
    (returned : trainMicrobatch env config epoch index isLast batch before = .ok outcome)
    (others : ℕ) (results : Results env (evaluationsByBatch config before.globalBatchIdx + others)
      before.toProgress) :
    Results env (evaluationsByBatch config outcome.1.globalBatchIdx + others)
      outcome.1.toProgress := by
  rcases trainMicrobatch_cases returned with rfl | ⟨loss, rfl⟩ | ⟨loss, overall, evaluated, rfl⟩
  · exact results.of_eq rfl rfl rfl
  · exact results.of_eq rfl rfl rfl
  · have stepped : Results env (evaluationsByBatch config before.globalBatchIdx + others)
        (takeStep config epoch (accumulateLoss loss before)).toProgress := results.of_eq rfl rfl rfl
    have counted := stepped.evaluateIfDue evaluated
    have same : overall.globalBatchIdx = before.globalBatchIdx + 1 := by
      rw [evaluateIfDue_eq evaluated]
      split <;> rfl
    simp only [same, evaluationsByBatch_succ]
    rw [Nat.add_right_comm]
    exact counted

theorem evaluationsByEpoch_append (config : TrainConfig) (epochs : List ℤ) (epoch : ℤ) :
    evaluationsByEpoch config (epochs ++ [epoch]) = evaluationsByEpoch config epochs +
      if evaluationDue config .ep (epoch + 1) then 1 else 0 := by
  unfold evaluationsByEpoch
  rw [List.filter_append, List.length_append]
  split <;> simp [*]

theorem trainEpoch_onSchedule {pipeline : Pipeline Sample} {before after : Progress}
    (returned : trainEpoch env pipeline epoch before = .ok after)
    (onSchedule : OnSchedule env pipeline.config before) :
    OnSchedule env pipeline.config after := by
  have began := (trainEpoch_saves returned).1
  rcases bind_ok_iff.mp returned with ⟨trained, areTrained, closed⟩
  rcases closeEpoch_eq closed with ⟨overall, evaluated, isAfter⟩
  have results : Results env (evaluationsByBatch pipeline.config trained.globalBatchIdx +
      evaluationsByEpoch pipeline.config before.epochs) trained.toProgress :=
    trainBatches_induction (fun before after => ∀ others,
        Results env (evaluationsByBatch pipeline.config before.globalBatchIdx + others) before →
          Results env (evaluationsByBatch pipeline.config after.globalBatchIdx + others) after)
      (fun _ _ results => results)
      (fun here there others results => there others (here others results))
      trainMicrobatch_results areTrained _ (onSchedule.of_eq rfl rfl rfl)
  have logged : Results env (evaluationsByBatch pipeline.config trained.globalBatchIdx +
      evaluationsByEpoch pipeline.config before.epochs)
      (logEpoch pipeline.config epoch trained) := by
    apply results.of_eq
    all_goals unfold logEpoch; split <;> split <;> rfl
  have counted := logged.evaluateIfDue evaluated
  have steps : overall.globalBatchIdx = trained.globalBatchIdx := by
    rw [evaluateIfDue_eq evaluated]
    unfold logEpoch
    split <;> split <;> split <;> rfl
  have closedResults : Results env (evaluationsByBatch pipeline.config after.globalBatchIdx +
      evaluationsByEpoch pipeline.config after.epochs) overall := by
    have sameSteps : after.globalBatchIdx = overall.globalBatchIdx := by
      rw [isAfter]
      split <;> rfl
    rw [began, evaluationsByEpoch_append, sameSteps, steps, ← Nat.add_assoc]
    exact counted
  apply closedResults.of_eq
  all_goals rw [isAfter]; split <;> rfl

theorem trainEpochs_onSchedule {pipeline : Pipeline Sample} {epochs : List ℤ}
    {before after : Progress} (returned : trainEpochs env pipeline epochs before = .ok after)
    (onSchedule : OnSchedule env pipeline.config before) :
    OnSchedule env pipeline.config after := by
  induction epochs generalizing before with
  | nil =>
      cases returned
      exact onSchedule
  | cons epoch rest ih =>
      rcases bind_ok_iff.mp returned with ⟨closed, trained, continued⟩
      have here := trainEpoch_onSchedule trained onSchedule
      split at continued
      · split at continued
        · cases continued
          exact here.of_eq rfl rfl rfl
        · cases continued
          exact here
      · exact ih continued here

theorem get?_final_of_ne {summary : Dict String (WithTop ℚ)} {key : String}
    (apart : ∀ name, key ≠ "final_" ++ name) (metrics : Dict String ℚ) :
    (metrics.foldl (fun (summary : Dict String (WithTop ℚ)) entry =>
      summary.set ("final_" ++ entry.1) entry.2) summary).get? key = summary.get? key := by
  induction metrics generalizing summary with
  | nil => rfl
  | cons entry rest ih =>
      rw [List.foldl_cons, ih, Dict.get?_set_ne _ (apart entry.1)]

/-- The summary has the greatest metric, if there is one. -/
theorem get?_best_summary (progress : Progress) :
    progress.summary.get? "best_acc_top1" = progress.bestMetrics.max?.map (↑) := by
  unfold Progress.summary
  cases progress.bestMetrics with
  | nil =>
      rw [get?_final_of_ne]
      · rfl
      · intro name same
        have chars := congrArg String.toList same
        simp at chars
  | cons best rest => exact Dict.get?_set_self _ _ _

/-- The evaluations that a run makes: one for each multiple of the interval among the optimizer
steps taken or among the epochs begun.  It keeps the result of the last one and the best metric. -/
theorem run_evaluations (env : Environment Sample) (pipeline : Pipeline Sample) {final : Progress}
    (returned : pipeline.run env = .ok final) :
    ∃ evaluations, evaluations = evaluationsByBatch pipeline.config final.globalBatchIdx +
        evaluationsByEpoch pipeline.config final.epochs ∧
      (final.finalEvalLoss, final.finalMetrics) = lastResult env evaluations ∧
      final.summary.get? "best_acc_top1" =
        ((List.range evaluations).map fun index =>
          primaryMetric (env.evaluate index).2).max?.map (↑) := by
  have onSchedule : OnSchedule env pipeline.config final := by
    apply trainEpochs_onSchedule returned
    refine ⟨?_, ?_⟩
    · simp [Pipeline.start, evaluationsByBatch, evaluationsByEpoch]
    · simp [Pipeline.start, evaluationsByBatch, evaluationsByEpoch, lastResult]
  refine ⟨_, rfl, onSchedule.final, ?_⟩
  rw [get?_best_summary, onSchedule.bestMetrics]

/-- The same run is evaluated once. -/
theorem run_evaluations_preempted : ∃ final, fiveEpochs.run preempted = .ok final ∧
    final.finalEvalLoss = 1 ∧ final.summary.get? "best_acc_top1" = some 0 := by
  rcases preempted_returns with ⟨final, returned, steps⟩
  refine ⟨final, returned, ?_⟩
  rcases run_evaluations preempted fiveEpochs returned with ⟨evaluations, counted, results, best⟩
  have byEpoch : evaluationsByEpoch fiveEpochs.config final.epochs = 0 := by
    simp [evaluationsByEpoch, evaluationDue, fiveEpochs]
  have one : evaluations = 1 := by
    rw [counted, steps, byEpoch]
    rfl
  rw [one] at results best
  refine ⟨congrArg Prod.fst results, ?_⟩
  rw [best]
  rfl

end VisionApi.Training
