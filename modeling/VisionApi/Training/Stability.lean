import VisionApi.Foundation.Streaks
import VisionApi.Training.Cadence

/-!
# Non-finite losses

The loop skips a microbatch whose loss is not finite and aborts the run after
`MAX_CONSECUTIVE_NAN` of them in a row.  The count is kept over the ends of
windows and epochs.

The losses of a run are a list, in the order in which the loop meets them (`losses`), and
`ReachesLimit` is a property of such a list alone.  Each part of the loop is compared
with the losses of its own part: it aborts exactly if the limit is reached there, from
the count before it, and otherwise leaves the count that the losses lead to.

What else may end a run is a division by an interval that is zero, which is another
error; evaluations and checkpoints neither abort nor change the count.
-/

namespace VisionApi.Training

open Foundation

variable {Sample : Type} {env : Environment Sample} {config : TrainConfig} {epoch : ℤ}

/-! ## The losses a run computes -/

/-- The losses of the microbatches of an epoch, up to where its loop ends. -/
def batchLosses (env : Environment Sample) (config : TrainConfig) (epoch : ℤ) :
    ℕ → List (List Sample) → EpochProgress → List (Option ℚ)
  | _, [], _ => []
  | index, batch :: rest, progress =>
      if subsetDone config progress then []
      else
        env.computeLoss epoch index batch ::
          match trainMicrobatch env config epoch index rest.isEmpty batch progress with
          | .ok (next, false) => batchLosses env config epoch (index + 1) rest next
          | .ok (_, true) => []
          | .error _ => []

/-- The losses of a run over some epochs, in the order they are computed. -/
def epochLosses (env : Environment Sample) (pipeline : Pipeline Sample) :
    List ℤ → Progress → List (Option ℚ)
  | [], _ => []
  | epoch :: rest, progress =>
      batchLosses env pipeline.config epoch 0
          (trainLoader pipeline.config.batchSizeTrain (env.shuffle epoch pipeline.train))
          (progress.beginEpoch epoch) ++
        match trainEpoch env pipeline epoch progress with
        | .ok closed =>
            if env.sigtermReceived epoch none then [] else epochLosses env pipeline rest closed
        | .error _ => []

/-- The losses of a run, in their order. -/
def Pipeline.losses (env : Environment Sample) (pipeline : Pipeline Sample) : List (Option ℚ) :=
  epochLosses env pipeline (range pipeline.config.startEpochAt pipeline.config.epochs)
    pipeline.start

/-! ## The count of consecutive non-finite losses -/

theorem evaluateIfDue_ne_runtimeError {unit : EvalUnit} {count : ℤ} {progress : Progress} :
    evaluateIfDue env config unit count progress ≠ .error .runtimeError := by
  unfold evaluateIfDue isMultiple
  split
  · split
    · rintro ⟨⟩
    · rintro ⟨⟩
  · rintro ⟨⟩

theorem evaluateIfDue_consecutiveNanCount {unit : EvalUnit} {count : ℤ} {before after : Progress}
    (returned : evaluateIfDue env config unit count before = .ok after) :
    after.consecutiveNanCount = before.consecutiveNanCount := by
  rw [evaluateIfDue_eq returned]
  split <;> rfl

variable (env config epoch) in
/-- A microbatch aborts the run exactly if its loss brings the count to the limit; otherwise the
count goes on with it. -/
theorem trainMicrobatch_counts (index : ℕ) (isLast : Bool) (batch : List Sample)
    (progress : EpochProgress) :
    (trainMicrobatch env config epoch index isLast batch progress = .error .runtimeError ↔
      maxConsecutiveNan ≤ countOn Option.isNone progress.consecutiveNanCount
        (env.computeLoss epoch index batch)) ∧
      ∀ outcome, trainMicrobatch env config epoch index isLast batch progress = .ok outcome →
        outcome.1.consecutiveNanCount = countOn Option.isNone progress.consecutiveNanCount
          (env.computeLoss epoch index batch) := by
  cases isLoss : env.computeLoss epoch index batch with
  | none =>
      simp only [trainMicrobatch, isLoss, countOn, Option.isNone_none, if_true]
      split
      · rename_i reached
        exact ⟨by simp [reached], by rintro _ ⟨⟩⟩
      · rename_i notReached
        refine ⟨by simp [notReached], ?_⟩
        rintro _ ⟨⟩
        rfl
  | some loss =>
      have below : ¬ maxConsecutiveNan ≤ 0 := by decide
      simp only [trainMicrobatch, isLoss, countOn, Option.isNone_some, Bool.false_eq_true, if_false,
        below, iff_false]
      split
      · refine ⟨?_, ?_⟩
        · intro aborted
          cases evaluated : evaluateIfDue env config .ba
              (takeStep config epoch (accumulateLoss loss progress)).globalBatchIdx
              (takeStep config epoch (accumulateLoss loss progress)).toProgress with
          | error error =>
              rw [evaluated] at aborted
              cases aborted
              exact evaluateIfDue_ne_runtimeError evaluated
          | ok overall =>
              rw [evaluated] at aborted
              cases aborted
        · intro outcome returned
          rcases map_ok_iff.mp returned with ⟨overall, evaluated, rfl⟩
          exact evaluateIfDue_consecutiveNanCount evaluated
      · refine ⟨by rintro ⟨⟩, ?_⟩
        rintro _ ⟨⟩
        rfl

variable (env config epoch) in
theorem trainBatches_counts (loader : List (List Sample)) (index : ℕ) (progress : EpochProgress) :
    (trainBatches env config epoch index loader progress = .error .runtimeError ↔
      ReachesLimit Option.isNone maxConsecutiveNan progress.consecutiveNanCount
        (batchLosses env config epoch index loader progress)) ∧
      ∀ after, trainBatches env config epoch index loader progress = .ok after →
        after.consecutiveNanCount = streak Option.isNone progress.consecutiveNanCount
          (batchLosses env config epoch index loader progress) := by
  induction loader generalizing index progress with
  | nil =>
      refine ⟨by simp [trainBatches, batchLosses, ReachesLimit], ?_⟩
      rintro _ ⟨⟩
      rfl
  | cons batch rest ih =>
      rw [trainBatches, batchLosses]
      split
      · refine ⟨by simp [ReachesLimit], ?_⟩
        rintro _ ⟨⟩
        rfl
      · rcases trainMicrobatch_counts env config epoch index rest.isEmpty batch progress with
          ⟨aborts, counts⟩
        rw [ReachesLimit, ← aborts]
        cases trained : trainMicrobatch env config epoch index rest.isEmpty batch progress with
        | error error =>
            refine ⟨by simp [bind, Except.bind, ReachesLimit], ?_⟩
            rintro _ ⟨⟩
        | ok outcome =>
            rcases outcome with ⟨next, stopped⟩
            have counted := counts _ trained
            cases stopped with
            | true =>
                refine ⟨by simp [bind, Except.bind, ReachesLimit], ?_⟩
                rintro _ ⟨⟩
                exact counted
            | false =>
                have later := ih (index + 1) next
                rw [counted] at later
                exact ⟨by simpa [bind, Except.bind] using later.1, later.2⟩

theorem closeEpoch_ne_runtimeError {progress : EpochProgress} :
    closeEpoch env config epoch progress ≠ .error .runtimeError := by
  intro aborted
  rcases bind_error_iff.mp aborted with evaluated | ⟨overall, _, saved⟩
  · exact evaluateIfDue_ne_runtimeError evaluated
  · unfold isMultiple at saved
    split at saved
    · cases saved
    · cases saved

theorem closeEpoch_consecutiveNanCount {before : EpochProgress} {after : Progress}
    (returned : closeEpoch env config epoch before = .ok after) :
    after.consecutiveNanCount = before.consecutiveNanCount := by
  rcases closeEpoch_eq returned with ⟨overall, evaluated, rfl⟩
  have logged : (logEpoch config epoch before).consecutiveNanCount =
      before.consecutiveNanCount := by
    unfold logEpoch
    split <;> split <;> rfl
  have same := (evaluateIfDue_consecutiveNanCount evaluated).trans logged
  split
  · exact same
  · exact same

/-- The epochs abort exactly if their losses reach the limit. -/
theorem trainEpochs_aborts_iff (pipeline : Pipeline Sample) (epochs : List ℤ)
    (progress : Progress) :
    trainEpochs env pipeline epochs progress = .error .runtimeError ↔
      ReachesLimit Option.isNone maxConsecutiveNan progress.consecutiveNanCount
        (epochLosses env pipeline epochs progress) := by
  induction epochs generalizing progress with
  | nil => simp [trainEpochs, epochLosses, ReachesLimit]
  | cons epoch rest ih =>
      rw [trainEpochs, epochLosses, reachesLimit_append]
      rcases trainBatches_counts env pipeline.config epoch
        (trainLoader pipeline.config.batchSizeTrain (env.shuffle epoch pipeline.train)) 0
        (progress.beginEpoch epoch) with ⟨aborts, counts⟩
      have count : (progress.beginEpoch epoch).consecutiveNanCount =
        progress.consecutiveNanCount := rfl
      rw [count] at aborts counts
      have epochAborts : trainEpoch env pipeline epoch progress = .error .runtimeError ↔
          ReachesLimit Option.isNone maxConsecutiveNan progress.consecutiveNanCount
            (batchLosses env pipeline.config epoch 0 (trainLoader pipeline.config.batchSizeTrain
              (env.shuffle epoch pipeline.train)) (progress.beginEpoch epoch)) := by
        rw [trainEpoch, bind_error_iff, ← aborts]
        constructor
        · rintro (trained | ⟨_, _, closed⟩)
          · exact trained
          · exact absurd closed closeEpoch_ne_runtimeError
        · exact .inl
      rw [← epochAborts]
      cases trained : trainEpoch env pipeline epoch progress with
      | error error => simp [bind, Except.bind, ReachesLimit]
      | ok closed =>
          have counted : closed.consecutiveNanCount = streak Option.isNone
              progress.consecutiveNanCount (batchLosses env pipeline.config epoch 0
                (trainLoader pipeline.config.batchSizeTrain (env.shuffle epoch pipeline.train))
                (progress.beginEpoch epoch)) := by
            rcases bind_ok_iff.mp trained with ⟨after, areTrained, closes⟩
            rw [closeEpoch_consecutiveNanCount closes]
            exact counts after areTrained
          simp only [bind, Except.bind, reduceCtorEq, false_or]
          split
          · split
            · simp [ReachesLimit]
            · simp [ReachesLimit]
          · rw [ih, counted]

/-- A run aborts exactly if ten of the losses it computes in a row are not finite, over all ends of
windows and epochs. -/
theorem run_aborts_iff (env : Environment Sample) (pipeline : Pipeline Sample) :
    pipeline.run env = .error .runtimeError ↔
      HasStreak Option.isNone 10 (pipeline.losses env) := by
  rw [Pipeline.run, trainEpochs_aborts_iff]
  exact reachesLimit_zero_iff (by decide) _

end VisionApi.Training
