import Mathlib.Data.List.FinRange
import Mathlib.Data.List.MinMax
import Mathlib.Data.List.Sort
import VisionApi.Foundation.Batches
import VisionApi.Foundation.Dict

/-!
# Top-k accuracy

The metrics of one batch, from the logits and the targets of its samples.  A label
is among the top `k` when fewer than `k` logits exceed its own.

`accuracy_topk` sorts the logits of each row and looks for the label among the first.
The order of equal logits is not specified by PyTorch, so that the results are stated for
rows without ties; `topkRow` is one order that sorts them.

`rank` counts the larger logits, which needs no sorting, and `mem_topkRow_iff` connects
the two.  Soft targets, as they come out of mixing, are reduced to their best label first,
as the source does.
-/

namespace VisionApi.Training

open Foundation

variable {classes : ℕ} {Score : Type} [LinearOrder Score]

/-! ## The metrics of a batch -/

/-- A row of a tensor whose last dimension is the classes. -/
abbrev Row (classes : ℕ) (Score : Type) := Fin classes → Score

/-- Class indices, or soft targets. -/
inductive Targets (classes : ℕ) where
  | classIndices (labels : List (Fin classes))
  | softTargets (rows : List (Row classes ℚ))

/-- The class of each sample; of a soft target the first one with the greatest share. -/
def Targets.perSample : Targets classes → List (Option (Fin classes))
  | .classIndices labels => labels.map some
  | .softTargets rows => rows.map fun row => (List.finRange classes).argmax row

/-- `logits.topk` on a row: the classes of the `k` greatest logits, the greatest first. -/
def topkRow (row : Row classes Score) (k : ℕ) : List (Fin classes) :=
  ((List.finRange classes).insertionSort fun left right => row right ≤ row left).take k

/-- `accuracy_topk`, for a non-empty tuple. -/
def accuracyTopk (logits : List (Row classes Score)) (targets : Targets classes)
    (topk : List ℕ) : Dict String ℚ :=
  let maxK := min (topk.foldr max 0) classes
  let predicted := logits.map fun row => topkRow row maxK
  let correct := List.zipWith (fun indices target => indices.map fun index => some index == target)
    predicted targets.perSample
  topk.foldl (fun results k =>
    let kEff := min k maxK
    let hits := correct.map fun flags => (flags.take kEff).any id
    results.set ("acc_top" ++ toString k) (rate id hits)) []

/-- The accuracies among the best label and among the best five. -/
def computeMetrics (logits : List (Row classes Score)) (targets : Targets classes) :
    Dict String ℚ :=
  accuracyTopk logits targets [1, 5]

/-! ## Ranks -/

/-- In a list sorted by a strict order, the first `k` are those that fewer than `k` precede. -/
theorem mem_take_iff_countP {α : Type} {before : α → α → Prop} [DecidableRel before]
    (asymmetric : ∀ {left right : α}, before left right → ¬before right left) {sorted : List α}
    (isSorted : sorted.Pairwise before) {item : α} (isItem : item ∈ sorted) (k : ℕ) :
    item ∈ sorted.take k ↔ (sorted.countP fun other => before other item) < k := by
  induction sorted generalizing k with
  | nil => cases isItem
  | cons first rest ih =>
      rw [List.pairwise_cons] at isSorted
      cases k with
      | zero => simp
      | succ k =>
          rw [List.take_succ_cons, List.mem_cons, List.countP_cons]
          rcases List.mem_cons.mp isItem with rfl | isLater
          · have none : (rest.countP fun other => before other item) = 0 := by
              apply List.countP_eq_zero.mpr
              intro other isOther
              simpa using asymmetric (isSorted.1 other isOther)
            have irreflexive : ¬before item item := fun reflexive => asymmetric reflexive reflexive
            simp [none, irreflexive]
          · have isBefore := isSorted.1 item isLater
            have different : item ≠ first := by
              rintro rfl
              exact asymmetric isBefore isBefore
            rw [ih isSorted.2 isLater, or_iff_right different]
            simp only [isBefore, decide_true, if_true]
            omega

/-- The number of classes with a greater logit. -/
def rank (row : Row classes Score) (label : Fin classes) : ℕ :=
  (List.finRange classes).countP fun other => row label < row other

/-- The label is among the top `k`. -/
def inTop (k : ℕ) (sample : Row classes Score × Fin classes) : Bool :=
  rank sample.1 sample.2 < k

/-- Without ties, `topk` returns the classes of the ranks below `k`. -/
theorem mem_topkRow_iff {row : Row classes Score} (untied : Function.Injective row)
    (label : Fin classes) (k : ℕ) : label ∈ topkRow row k ↔ rank row label < k := by
  have total : Std.Total fun left right : Fin classes => row right ≤ row left :=
    ⟨fun left right => le_total (row right) (row left)⟩
  have transitive : IsTrans (Fin classes) fun left right => row right ≤ row left :=
    ⟨fun _ _ _ first second => second.trans first⟩
  have permutes := List.perm_insertionSort (fun left right => row right ≤ row left)
    (List.finRange classes)
  have isSorted : ((List.finRange classes).insertionSort fun left right =>
      row right ≤ row left).Pairwise fun left right => row right < row left := by
    have weakly := List.pairwise_insertionSort (fun left right => row right ≤ row left)
      (List.finRange classes)
    have distinct := permutes.nodup_iff.mpr (List.nodup_finRange classes)
    apply (weakly.and distinct).imp
    intro left right ordered
    exact lt_of_le_of_ne ordered.1 fun same => ordered.2 (untied same).symm
  have isClass := permutes.mem_iff.mpr (List.mem_finRange label)
  rw [topkRow, mem_take_iff_countP (fun first => first.asymm) isSorted isClass,
    permutes.countP_eq, rank]

/-! ## The accuracy -/

/-- The entries `acc_top1` and `acc_top5`. -/
def scores (one five : ℚ) : Dict String ℚ :=
  [("acc_top1", one), ("acc_top5", five)]

/-- The fractions of the samples whose labels are among the top 1, and the top 5 as far as there are
so many classes. -/
def accuracy (samples : List (Row classes Score × Fin classes)) : Dict String ℚ :=
  scores (rate (inTop 1) samples) (rate (inTop (min 5 classes)) samples)

/-- One row of `correct`, cut at `k`, holds a hit exactly when the label is among the top `k`. -/
theorem any_take_iff {sample : Row classes Score × Fin classes}
    (untied : Function.Injective sample.1) {k maxK : ℕ} (within : k ≤ maxK) :
    ((((topkRow sample.1 maxK).map fun index => some index == some sample.2).take k).any id) =
      inTop k sample := by
  have cut : (topkRow sample.1 maxK).take k = topkRow sample.1 k := by
    rw [topkRow, List.take_take, Nat.min_eq_left within, topkRow]
  rw [Bool.eq_iff_iff, ← List.map_take, cut, List.any_map, List.any_eq_true, inTop,
    decide_eq_true_eq, ← mem_topkRow_iff untied]
  simp

/-- On class indices and without ties, the metrics of a batch are its accuracy. -/
theorem computeMetrics_eq {samples : List (Row classes Score × Fin classes)}
    (untied : ∀ sample ∈ samples, Function.Injective sample.1) :
    computeMetrics (samples.map Prod.fst) (.classIndices (samples.map Prod.snd)) =
      accuracy samples := by
  have hits : ∀ k maxK, k ≤ maxK →
      ((List.zipWith (fun indices target => indices.map fun index => some index == target)
        ((samples.map Prod.fst).map fun row => topkRow row maxK)
        (Targets.classIndices (samples.map Prod.snd)).perSample).map fun flags =>
          (flags.take k).any id) = samples.map (inTop k) := by
    intro k maxK within
    simp only [Targets.perSample, List.map_map, List.zipWith_map, List.zipWith_self]
    apply List.map_congr_left
    intro sample isSample
    exact any_take_iff (untied sample isSample) within
  have first : rate (inTop (min 1 (min 5 classes))) samples = rate (inTop 1) samples := by
    have same : ∀ sample ∈ samples,
        inTop (min 1 (min 5 classes)) sample = inTop 1 sample := by
      intro sample _
      have hasClass : 0 < classes := sample.2.pos
      have one : min 1 (min 5 classes) = 1 := by omega
      rw [one]
    rw [rate, rate, List.countP_congr fun sample isSample => by rw [same sample isSample]]
  have top : [1, 5].foldr max 0 = 5 := rfl
  have name1 : "acc_top" ++ toString 1 = "acc_top1" := rfl
  have name5 : "acc_top" ++ toString 5 = "acc_top5" := rfl
  simp only [computeMetrics, accuracyTopk, top, List.foldl_cons, List.foldl_nil, name1, name5,
    hits _ _ (Nat.min_le_right _ _), rate_map, Function.id_comp]
  rw [first, ← Nat.min_assoc, Nat.min_self]
  rfl

end VisionApi.Training
