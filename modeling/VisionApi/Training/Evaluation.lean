import Mathlib.Algebra.BigOperators.Fin
import Mathlib.Order.WithBot
import VisionApi.Training.Metrics

/-!
# Evaluation

The metrics of the batches of the validation loader are added up and divided by
the number of batches.  They are the accuracy on all samples only if the last
batch is as large as the others, or as accurate.

The network treats each image alone and is a parameter, together with the log-softmax;
what `accelerate` gathers is the batch itself in a single process, which `OneProcess`
states.  The loop is `evaluateFrom`, and `evaluateFrom_groups` says what it has added up
after any groups of samples.

The accuracy of a batch weighs each of its samples by one over its size, the accuracy on
all samples weighs them equally.  The loader keeps a last batch that is smaller, so that
its samples weigh more: `evaluate_accuracy_iff` states when that makes no difference.
As in the metrics, logits are without ties.
-/

namespace VisionApi.Training

open Foundation

variable {Image : Type} {classes : ℕ} {Score : Type}

/-! ## The loss -/

/-- `soft_target_cross_entropy`, with `F.log_softmax` of a row, in exact arithmetic. -/
def softTargetCrossEntropy {K : Type} [Field K] {batch : ℕ}
    (logSoftmax : Row classes Score → Row classes K) (logits : Fin batch → Row classes Score)
    (targets : Fin batch → Row classes K) : K :=
  (∑ sample, ∑ label, -targets sample label * logSoftmax (logits sample) label) / (batch : K)

/-- The model in evaluation mode, which treats each image alone, and `F.log_softmax`. -/
structure Network (Image : Type) (classes : ℕ) (Score : Type) where
  forward : Image → Row classes Score
  logSoftmax : Row classes Score → Row classes ℚ

/-- `F.one_hot` -/
def oneHot (label : Fin classes) : Row classes ℚ :=
  fun index => if index = label then 1 else 0

/-- The images and the targets of a batch. -/
abbrev Batch (Image : Type) (classes : ℕ) := List Image × Targets classes

/-- `compute_loss` of a batch with a target for every image: the loss, the logits and the
targets. -/
def computeLoss (network : Network Image classes Score) (batch : Batch Image classes) :
    ℚ × List (Row classes Score) × Targets classes :=
  let (images, targets) := batch
  let logits := images.map network.forward
  let soft := match targets with
    | .classIndices labels => labels.map oneHot
    | .softTargets rows => rows
  (softTargetCrossEntropy network.logSoftmax logits.get fun sample =>
    soft.getD sample fun _ => 0, logits, targets)

/-! ## The loop -/

/-- What the pipeline calls of `accelerate`. -/
structure Accelerator where
  gatherForMetrics : ∀ {Item : Type}, List Item → List Item

/-- With one process, what is gathered is what that process has. -/
def Accelerator.OneProcess (accelerator : Accelerator) : Prop :=
  ∀ {Item : Type} (items : List Item), accelerator.gatherForMetrics items = items

/-- Gather the targets of either kind. -/
def Accelerator.gatherTargets (accelerator : Accelerator) : Targets classes → Targets classes
  | .classIndices labels => .classIndices (accelerator.gatherForMetrics labels)
  | .softTargets rows => .softTargets (accelerator.gatherForMetrics rows)

/-- The variables of the loop. -/
structure Running where
  totalLoss : ℚ
  metricSums : Dict String ℚ
  numBatches : ℕ

/-- The inner loop over the items of the metrics. -/
def addMetrics (metricSums metrics : Dict String ℚ) : Dict String ℚ :=
  metrics.foldl (fun sums entry =>
    sums.set entry.1 ((sums.get? entry.1).getD 0 + entry.2)) metricSums

variable [LinearOrder Score]

/-- The body of the loop. -/
def addBatch (accelerator : Accelerator) (network : Network Image classes Score)
    (running : Running) (batch : Batch Image classes) : Running :=
  let (loss, logits, targets) := computeLoss network batch
  let gatheredLoss := accelerator.gatherForMetrics [loss]
  let batchLoss := gatheredLoss.sum / gatheredLoss.length
  let gatheredLogits := accelerator.gatherForMetrics logits
  let gatheredTargets := accelerator.gatherTargets targets
  { totalLoss := running.totalLoss + batchLoss
    metricSums := addMetrics running.metricSums (computeMetrics gatheredLogits gatheredTargets)
    numBatches := running.numBatches + 1 }

/-- The loop, which `eval_subset_num_batches` ends early if it is positive. -/
def evaluateFrom (accelerator : Accelerator) (network : Network Image classes Score)
    (evalSubset : ℤ) : ℕ → Running → List (Batch Image classes) → Running
  | _, running, [] => running
  | step, running, batch :: rest =>
      if 0 < evalSubset ∧ evalSubset ≤ step then running
      else evaluateFrom accelerator network evalSubset (step + 1)
        (addBatch accelerator network running batch) rest

/-- `_evaluate`: the mean loss and the mean metrics. -/
def evaluate (accelerator : Accelerator) (network : Network Image classes Score)
    (evalSubset : ℤ) (evalDataloader : List (Batch Image classes)) :
    WithTop ℚ × Dict String ℚ :=
  let running := evaluateFrom accelerator network evalSubset 0 ⟨0, [], 0⟩ evalDataloader
  if running.numBatches = 0 then (⊤, [])
  else ((running.totalLoss / running.numBatches : ℚ),
    running.metricSums.map fun entry => (entry.1, entry.2 / running.numBatches))

/-- The default collation of labelled images. -/
def collate (samples : List (Image × Fin classes)) : Batch Image classes :=
  (samples.map Prod.fst, .classIndices (samples.map Prod.snd))

/-- `val_loader`: in order, with the partial last batch. -/
def valLoader (batchSize : ℕ) (samples : List (Image × Fin classes)) :
    List (Batch Image classes) :=
  (batches batchSize samples).map collate

/-! ## The sums -/

section Sums

variable {accelerator : Accelerator} {network : Network Image classes Score}

@[simp]
theorem addMetrics_nil (one five : ℚ) : addMetrics [] (scores one five) = scores one five := by
  simp [addMetrics, scores, Dict.set, Dict.get?]

@[simp]
theorem addMetrics_scores (one five moreOne moreFive : ℚ) :
    addMetrics (scores one five) (scores moreOne moreFive) =
      scores (one + moreOne) (five + moreFive) := by
  simp [addMetrics, scores, Dict.set, Dict.get?]

theorem scores_inj {one five otherOne otherFive : ℚ} :
    scores one five = scores otherOne otherFive ↔ one = otherOne ∧ five = otherFive := by
  simp [scores]

/-- A sample with the logits of its image. -/
def Network.row (network : Network Image classes Score) (sample : Image × Fin classes) :
    Row classes Score × Fin classes :=
  (network.forward sample.1, sample.2)

/-- One batch adds its accuracy to the sums. -/
theorem addBatch_metricSums (oneProcess : accelerator.OneProcess) (running : Running)
    {samples : List (Image × Fin classes)}
    (untied : ∀ sample ∈ samples, Function.Injective (network.forward sample.1)) :
    (addBatch accelerator network running (collate samples)).metricSums =
      addMetrics running.metricSums (accuracy (samples.map network.row)) := by
  have rows : ∀ row ∈ samples.map network.row, Function.Injective row.1 := by
    intro row isRow
    rcases List.mem_map.mp isRow with ⟨sample, isSample, rfl⟩
    exact untied sample isSample
  have metrics := computeMetrics_eq rows
  rw [List.map_map, List.map_map] at metrics
  simp only [addBatch, computeLoss, collate, oneProcess (List.map _ _), Accelerator.gatherTargets,
    List.map_map]
  exact congrArg (addMetrics running.metricSums) metrics

/-- Without a subset the loop goes on. -/
theorem evaluateFrom_cons (step : ℕ) (running : Running) (batch : Batch Image classes)
    (rest : List (Batch Image classes)) :
    evaluateFrom accelerator network 0 step running (batch :: rest) =
      evaluateFrom accelerator network 0 (step + 1)
        (addBatch accelerator network running batch) rest := by
  have goesOn : ¬((0 : ℤ) < 0 ∧ (0 : ℤ) ≤ step) := fun early => lt_irrefl _ early.1
  rw [evaluateFrom, if_neg goesOn]

/-- The sums after all batches. -/
theorem evaluateFrom_groups (oneProcess : accelerator.OneProcess)
    {groups : List (List (Image × Fin classes))}
    (untied : ∀ group ∈ groups, ∀ sample ∈ group, Function.Injective (network.forward sample.1))
    (step : ℕ) {running : Running} {one five : ℚ} (sums : running.metricSums = scores one five) :
    (evaluateFrom accelerator network 0 step running (groups.map collate)).metricSums =
        scores (one + (groups.map (rate (inTop 1 ∘ network.row))).sum)
          (five + (groups.map (rate (inTop (min 5 classes) ∘ network.row))).sum) ∧
      (evaluateFrom accelerator network 0 step running (groups.map collate)).numBatches =
        running.numBatches + groups.length := by
  induction groups generalizing step running one five with
  | nil => simp [evaluateFrom, sums]
  | cons group groups ih =>
      rw [List.forall_mem_cons] at untied
      have added := addBatch_metricSums oneProcess running untied.1
      rw [sums, accuracy, addMetrics_scores, rate_map, rate_map] at added
      rcases ih untied.2 (step + 1) added with ⟨laterSums, laterCount⟩
      rw [List.map_cons, evaluateFrom_cons, laterSums, laterCount]
      constructor
      · simp only [List.map_cons, List.sum_cons, add_assoc]
      · simp only [addBatch, List.length_cons]
        omega

theorem evaluateFrom_start (oneProcess : accelerator.OneProcess)
    {groups : List (List (Image × Fin classes))} (nonempty : groups ≠ [])
    (untied : ∀ group ∈ groups, ∀ sample ∈ group, Function.Injective (network.forward sample.1)) :
    (evaluateFrom accelerator network 0 0 ⟨0, [], 0⟩ (groups.map collate)).metricSums =
        scores (groups.map (rate (inTop 1 ∘ network.row))).sum
          (groups.map (rate (inTop (min 5 classes) ∘ network.row))).sum ∧
      (evaluateFrom accelerator network 0 0 ⟨0, [], 0⟩ (groups.map collate)).numBatches =
        groups.length := by
  cases groups with
  | nil => exact absurd rfl nonempty
  | cons group groups =>
      rw [List.forall_mem_cons] at untied
      have added := addBatch_metricSums oneProcess ⟨0, [], 0⟩ untied.1
      rw [accuracy, addMetrics_nil, rate_map, rate_map] at added
      rcases evaluateFrom_groups oneProcess untied.2 1 added with ⟨laterSums, laterCount⟩
      rw [List.map_cons, evaluateFrom_cons, laterSums, laterCount]
      constructor
      · simp only [List.map_cons, List.sum_cons]
      · simp only [addBatch, List.length_cons]
        omega

/-- The metrics are the means of the rates of the batches. -/
theorem evaluate_groups (oneProcess : accelerator.OneProcess)
    {groups : List (List (Image × Fin classes))} (nonempty : groups ≠ [])
    (untied : ∀ group ∈ groups, ∀ sample ∈ group, Function.Injective (network.forward sample.1)) :
    (evaluate accelerator network 0 (groups.map collate)).2 =
      scores (meanRate (inTop 1 ∘ network.row) groups)
        (meanRate (inTop (min 5 classes) ∘ network.row) groups) := by
  rcases evaluateFrom_start oneProcess nonempty untied with ⟨sums, count⟩
  have counted : groups.length ≠ 0 := mt List.length_eq_zero_iff.mp nonempty
  simp only [evaluate, sums, count, if_neg counted]
  rfl

/-- The metrics are the means over the batches of the loader. -/
theorem evaluate_valLoader (oneProcess : accelerator.OneProcess)
    {samples : List (Image × Fin classes)} (nonempty : samples ≠ []) {batchSize : ℕ}
    (positive : 1 ≤ batchSize)
    (untied : ∀ sample ∈ samples, Function.Injective (network.forward sample.1)) :
    (evaluate accelerator network 0 (valLoader batchSize samples)).2 =
      scores (meanRate (inTop 1 ∘ network.row) (batches batchSize samples))
        (meanRate (inTop (min 5 classes) ∘ network.row) (batches batchSize samples)) := by
  have together := flatten_batches positive samples
  apply evaluate_groups oneProcess
  · intro none
    rw [none] at together
    exact nonempty together.symm
  · intro group isGroup sample isSample
    apply untied
    rw [← together]
    exact List.mem_flatten.mpr ⟨group, isGroup, isSample⟩

end Sums

/-! ## The accuracy of all samples -/

/-- The metrics are the accuracy on all samples exactly when the batch size divides their number, or
there is one batch, or the partial last batch has the accuracy of the others. -/
theorem evaluate_accuracy_iff (accelerator : Accelerator) (oneProcess : accelerator.OneProcess)
    (network : Network Image classes Score) (samples : List (Image × Fin classes))
    (nonempty : samples ≠ []) (batchSize : ℕ) (positive : 1 ≤ batchSize)
    (untied : ∀ sample ∈ samples, Function.Injective (network.forward sample.1)) :
    (evaluate accelerator network 0 (valLoader batchSize samples)).2 =
        accuracy (samples.map network.row) ↔
      batchSize ∣ samples.length ∨ samples.length < batchSize ∨
        accuracy ((samples.drop (samples.length / batchSize * batchSize)).map network.row) =
          accuracy ((samples.take (samples.length / batchSize * batchSize)).map network.row) := by
  have top1 := meanRate_batches_iff (inTop 1 ∘ network.row) positive samples
  have top5 := meanRate_batches_iff (inTop (min 5 classes) ∘ network.row) positive samples
  simp only [evaluate_valLoader oneProcess nonempty positive untied, accuracy, scores_inj, rate_map,
    top1, top5, or_and_left]

/-! ## A small set -/

/-- A single process. -/
def smallAccelerator : Accelerator :=
  ⟨fun items => items⟩

/-- A network that returns its input, and is undecided whatever its logits are. -/
def smallNetwork : Network (Row 2 ℤ) 2 ℤ :=
  ⟨id, fun _ _ => -1⟩

/-- Three images of the second class to the network, the last one mislabelled. -/
def smallSamples : List (Row 2 ℤ × Fin 2) :=
  [(fun index => index.val, 1), (fun index => index.val, 1), (fun index => index.val, 0)]

/-- The rows of the small network have no ties. -/
theorem small_untied :
    ∀ sample ∈ smallSamples, Function.Injective (smallNetwork.forward sample.1) := by
  have increasing : Function.Injective fun index : Fin 2 => (index.val : ℤ) :=
    fun _ _ same => Fin.ext (Nat.cast_injective same)
  intro sample isSample
  simp only [smallSamples, List.mem_cons, List.not_mem_nil, or_false] at isSample
  rcases isSample with rfl | rfl | rfl
  · exact increasing
  · exact increasing
  · exact increasing

/-- One sample a batch. -/
theorem evaluate_accuracy_small :
    (evaluate smallAccelerator smallNetwork 0 (valLoader 1 smallSamples)).2 =
      accuracy (smallSamples.map smallNetwork.row) :=
  (evaluate_accuracy_iff smallAccelerator (fun _ => rfl) smallNetwork smallSamples
    (List.cons_ne_nil _ _) 1 le_rfl small_untied).mpr (Or.inl (one_dvd _))

/-- In batches of two, the third sample counts as much as the other two. -/
theorem partial_batch_overweighted :
    ¬∀ (samples : List (Row 2 ℤ × Fin 2)) (batchSize : ℕ), samples ≠ [] → 1 ≤ batchSize →
      (∀ sample ∈ samples, Function.Injective (smallNetwork.forward sample.1)) →
      (evaluate smallAccelerator smallNetwork 0 (valLoader batchSize samples)).2 =
        accuracy (samples.map smallNetwork.row) := by
  intro always
  have nonempty : smallSamples ≠ [] := List.cons_ne_nil _ _
  have reported := always smallSamples 2 nonempty (by omega) small_untied
  rw [evaluate_valLoader (fun _ => rfl) nonempty (by omega) small_untied, accuracy, scores_inj,
    rate_map, meanRate_batches_iff _ (by omega)] at reported
  rcases reported.1 with divides | single | same
  · exact absurd divides (by decide)
  · exact absurd single (by decide)
  · have missed : rate (inTop 1 ∘ smallNetwork.row) (smallSamples.drop 2) = 0 := by
      have hits : (smallSamples.drop 2).countP (inTop 1 ∘ smallNetwork.row) = 0 := rfl
      rw [rate, hits, Nat.cast_zero, zero_div]
    have hit : rate (inTop 1 ∘ smallNetwork.row) (smallSamples.take 2) = 1 := by
      have hits : (smallSamples.take 2).countP (inTop 1 ∘ smallNetwork.row) =
        (smallSamples.take 2).length := rfl
      rw [rate, hits]
      exact div_self two_ne_zero
    exact zero_ne_one ((missed.symm.trans same).trans hit)

end VisionApi.Training
