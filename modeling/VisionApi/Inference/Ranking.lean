import VisionApi.Detect.Decode
import VisionApi.Inference.Service

/-!
# Ranking the classes

`softmax` turns the logits of an image into probabilities.  `top_k` selects the
greatest ones by a partition and sorts only those.  The exponential, the
partition and the sort are NumPy's.

Of the partition it is assumed that it returns a permutation of the positions in which
those up to the given one have the smallest values, and of the sort that its values
ascend.  A position outside of the list raises, and so does the maximum of nothing in
`softmax`.  The numbers are those of an ordered field.

`topK` takes the first positions of the partition of the negated values and sorts these
by the negated values again.  `topK_ranked` says what comes out: as many classes as
asked for or as there are, by descending probability, and no class that is left out is
more probable than one that is listed.

`numericEngine` puts these functions into an engine, and the last part reads the
predictions off the ranking.
-/

namespace VisionApi.Inference

open Foundation Models

variable {K : Type} [Field K] [LinearOrder K]

/-- `np.argpartition(values, kth)`: positions of all values, those of the `kth + 1` smallest
first. -/
structure Argpartition (K : Type) [LinearOrder K] where
  order : List K → ℕ → List ℕ
  isOrder : ∀ values kth, (order values kth).Perm (List.range values.length)
  smallest : ∀ values kth, kth < values.length →
    ∀ first ∈ (order values kth).take (kth + 1), ∀ later ∈ (order values kth).drop (kth + 1),
      ∀ small ∈ values[first]?, ∀ large ∈ values[later]?, small ≤ large

/-- What is used of NumPy, with what is assumed of it. -/
structure NumPy (K : Type) [Field K] [LinearOrder K] where
  exp : K → K
  argpartition : Argpartition K
  argsort : Detect.Argsort K
  exp_nonneg : ∀ value, 0 ≤ exp value
  exp_zero : exp 0 = 1

/-- The error of a maximum of nothing. -/
def noMaximum : Failure :=
  .value "zero-size array to reduction operation maximum which has no identity"

/-- The exponentials of the logits below their maximum, divided by their sum. -/
def softmax (numpy : NumPy K) (logits : List K) : Except Failure (List K) :=
  match logits.max? with
  | none => .error noMaximum
  | some greatest =>
      let shifted := logits.map fun logit => logit - greatest
      let exponentiated := shifted.map numpy.exp
      .ok (exponentiated.map fun value => value / exponentiated.sum)

/-- `np.argpartition` with the bounds of `kth`, which counts from the end when it is negative. -/
def NumPy.partition (numpy : NumPy K) (values : List K) (kth : ℤ) : Except Failure (List ℕ) :=
  let position := if kth < 0 then kth + values.length else kth
  if values ≠ [] ∧ (position < 0 ∨ values.length ≤ position) then
    .error (.value ("kth(=" ++ toString position ++ ") out of bounds (" ++
      toString values.length ++ ")"))
  else
    .ok (numpy.argpartition.order values position.toNat)

/-- `np.take_along_axis` -/
def takeAlong {Item : Type} (items : List Item) (indices : List ℕ) : List Item :=
  indices.filterMap fun index => items[index]?

/-- `top_k`, the scores with their indices. -/
def topK (numpy : NumPy K) (probabilities : List K) (k : ℤ) :
    Except Failure (List (K × ℕ)) := do
  let count := min k probabilities.length
  let partitioned ← numpy.partition (probabilities.map fun value => -value) (count - 1)
  let indices := Detect.sliceTo partitioned count
  let selected := takeAlong probabilities indices
  let order := numpy.argsort.order (selected.map fun value => -value)
  .ok ((takeAlong selected order).zip (takeAlong indices order))

/-! ## The probabilities -/

section Softmax

variable [IsStrictOrderedRing K] (numpy : NumPy K)

omit [IsStrictOrderedRing K] in
theorem softmax_nil : softmax numpy [] = .error noMaximum :=
  rfl

/-- A nonempty row has probabilities, as many as there are classes. -/
theorem exists_softmax {logits : List K} (nonempty : logits ≠ []) :
    ∃ probabilities, softmax numpy logits = .ok probabilities ∧
      probabilities.length = logits.length ∧
      ∀ probability ∈ probabilities, 0 ≤ probability ∧ probability ≤ 1 := by
  cases isGreatest : logits.max? with
  | none => exact absurd (List.max?_eq_none_iff.mp isGreatest) nonempty
  | some greatest =>
      refine ⟨_, by rw [softmax, isGreatest], by simp, ?_⟩
      intro probability isProbability
      simp only [List.map_map] at isProbability
      rcases List.mem_map.mp isProbability with ⟨logit, isLogit, rfl⟩
      have terms : ∀ term ∈ logits.map (numpy.exp ∘ fun logit => logit - greatest),
          0 ≤ term := by
        intro term isTerm
        rcases List.mem_map.mp isTerm with ⟨other, _, rfl⟩
        exact numpy.exp_nonneg _
      -- the greatest logit contributes one, so that the sum is not zero
      have one : 1 ∈ logits.map (numpy.exp ∘ fun logit => logit - greatest) := by
        apply List.mem_map.mpr
        refine ⟨greatest, List.max?_mem isGreatest, ?_⟩
        simp only [Function.comp_apply, sub_self]
        exact numpy.exp_zero
      have positive : 0 < (logits.map (numpy.exp ∘ fun logit => logit - greatest)).sum :=
        one_pos.trans_le (List.single_le_sum terms 1 one)
      have part := List.single_le_sum terms _ (List.mem_map_of_mem isLogit)
      exact ⟨div_nonneg (numpy.exp_nonneg _) positive.le, (div_le_one positive).mpr part⟩

end Softmax

/-! ## The greatest ones -/

section TopK

/-- The `k` greatest probabilities, or all of them, the greatest first. -/
structure Ranked (probabilities : List K) (k : ℤ) (classes : List (Fin probabilities.length)) :
    Prop where
  length : (classes.length : ℤ) = min k probabilities.length
  nodup : classes.Nodup
  sorted : classes.Pairwise fun earlier later =>
    probabilities.get later ≤ probabilities.get earlier
  omitted : ∀ omitted ∉ classes, ∀ listed ∈ classes,
    probabilities.get omitted ≤ probabilities.get listed

/-- A class with its probability. -/
def entryOf (probabilities : List K) (index : Fin probabilities.length) : K × ℕ :=
  (probabilities.get index, index)

omit [Field K] [LinearOrder K] in
theorem takeAlong_val (items : List K) (indices : List (Fin items.length)) :
    takeAlong items (indices.map Fin.val) = indices.map items.get := by
  rw [takeAlong, List.filterMap_map, ← List.filterMap_eq_map]
  congr 1
  funext index
  simp

omit [Field K] [LinearOrder K] in
theorem takeAlong_map {Item Value : Type} (convert : Item → Value) (items : List Item)
    (indices : List ℕ) :
    takeAlong (items.map convert) indices = (takeAlong items indices).map convert := by
  simp only [takeAlong, List.getElem?_map, List.map_filterMap]

theorem partition_ok (numpy : NumPy K) {values : List K} {kth : ℤ} {position : ℕ}
    (below : position < values.length)
    (isPosition : (if kth < 0 then kth + values.length else kth) = position) :
    numpy.partition values kth = .ok (numpy.argpartition.order values position) := by
  have inside : ¬(values ≠ [] ∧ ((position : ℤ) < 0 ∨ (values.length : ℤ) ≤ position)) := by
    rintro ⟨_, outside⟩
    omega
  rw [NumPy.partition]
  simp only [isPosition, if_neg inside, Int.toNat_natCast]

theorem partition_error (numpy : NumPy K) {values : List K} {kth : ℤ} {failure : Failure}
    (raised : numpy.partition values kth = .error failure) :
    ∃ message, failure = .value message := by
  simp only [NumPy.partition] at raised
  generalize (if kth < 0 then kth + values.length else kth) = position at raised
  split at raised
  · cases raised
    exact ⟨_, rfl⟩
  · cases raised

/-- The partition is of all positions. -/
theorem exists_positions (numpy : NumPy K) {values : List K} {size : ℕ}
    (length : values.length = size) (kth : ℕ) :
    ∃ positions : List (Fin size),
      numpy.argpartition.order values kth = positions.map Fin.val ∧
      positions.Perm (List.finRange size) := by
  have perm := numpy.argpartition.isOrder values kth
  rw [length] at perm
  have bounded : ∀ position ∈ numpy.argpartition.order values kth, position < size :=
    fun position isPosition => List.mem_range.mp (perm.mem_iff.mp isPosition)
  refine ⟨(numpy.argpartition.order values kth).pmap (fun position below => ⟨position, below⟩)
    bounded, ?_, ?_⟩
  · rw [List.map_pmap, List.pmap_eq_map, List.map_id']
  · rw [← List.map_perm_map_iff Fin.val_injective, List.map_pmap, List.pmap_eq_map,
      List.map_id', List.map_coe_finRange_eq_range]
    exact perm

variable [IsStrictOrderedRing K]

/-- The first positions are of the greatest values, also where `count - 1` is the last position
or, for no values at all, counts from the end. -/
theorem partition_splits (numpy : NumPy K) {values : List K} (nonempty : values ≠ []) {count : ℕ}
    (few : count ≤ values.length) :
    ∃ positions : List (Fin values.length),
      numpy.partition (values.map fun value => -value) (count - 1) =
        .ok (positions.map Fin.val) ∧
      positions.Perm (List.finRange values.length) ∧
      ∀ first ∈ positions.take count, ∀ later ∈ positions.drop count,
        values.get later ≤ values.get first := by
  have size : 0 < values.length := List.length_pos_iff.mpr nonempty
  have length : (values.map fun value => -value).length = values.length := List.length_map _
  cases count with
  | zero =>
      rcases exists_positions numpy length (values.length - 1) with ⟨positions, order, perm⟩
      refine ⟨positions, ?_, perm, ?_⟩
      · rw [← order]
        apply partition_ok numpy
        · omega
        · rw [length, if_pos (by omega)]
          omega
      · intro first isFirst
        rw [List.take_zero] at isFirst
        cases isFirst
  | succ kth =>
      rcases exists_positions numpy length kth with ⟨positions, order, perm⟩
      refine ⟨positions, ?_, perm, ?_⟩
      · rw [← order]
        apply partition_ok numpy
        · omega
        · rw [if_neg (by omega)]
          omega
      · intro first isFirst later isLater
        have smallest := numpy.argpartition.smallest (values.map fun value => -value) kth
          (by omega)
        rw [order, ← List.map_take, ← List.map_drop] at smallest
        have below := smallest first (List.mem_map_of_mem isFirst) later
          (List.mem_map_of_mem isLater) (-values.get first) (by simp) (-values.get later)
          (by simp)
        exact neg_le_neg_iff.mp below

/-- `top_k` finds the classes of the greatest probabilities. -/
theorem topK_ranked (numpy : NumPy K) {probabilities : List K} (nonempty : probabilities ≠ [])
    {k : ℤ} (nonneg : 0 ≤ k) :
    ∃ classes, topK numpy probabilities k = .ok (classes.map (entryOf probabilities)) ∧
      Ranked probabilities k classes := by
  have isCount : (((min k probabilities.length).toNat : ℕ) : ℤ) = min k probabilities.length := by
    omega
  have few : (min k probabilities.length).toNat ≤ probabilities.length := by omega
  rcases partition_splits numpy nonempty few with ⟨positions, partitioned, perm, splits⟩
  rw [isCount] at partitioned
  have size : positions.length = probabilities.length := by
    rw [perm.length_eq, List.length_finRange]
  have sliced : Detect.sliceTo (positions.map Fin.val) (min k probabilities.length) =
      (positions.take (min k probabilities.length).toNat).map Fin.val := by
    rw [Detect.sliceTo, if_pos (by omega), List.map_take]
  generalize (min k probabilities.length).toNat = count at *
  have chosen := Detect.descending_perm numpy.argsort probabilities.get (positions.take count)
  have sorted := Detect.descending_sorted numpy.argsort probabilities.get (positions.take count)
  refine ⟨Detect.descending numpy.argsort probabilities.get (positions.take count), ?_, ?_, ?_,
    sorted, ?_⟩
  · simp only [topK, bind_ok_iff]
    refine ⟨_, partitioned, ?_⟩
    rw [sliced, takeAlong_val, takeAlong_map, takeAlong_map, List.map_map, List.zip_map']
    rfl
  · rw [chosen.length_eq, List.length_take, size]
    omega
  · apply chosen.nodup_iff.mpr
    exact (perm.nodup_iff.mpr (List.nodup_finRange _)).sublist (List.take_sublist _ _)
  · intro omitted isOmitted listed isListed
    have isPosition : omitted ∈ positions := perm.mem_iff.mpr (List.mem_finRange omitted)
    rw [← List.take_append_drop count positions] at isPosition
    rcases List.mem_append.mp isPosition with taken | dropped
    · exact absurd (chosen.mem_iff.mpr taken) isOmitted
    · exact splits listed (chosen.mem_iff.mp isListed) omitted dropped

end TopK

/-! ## Predictions -/

section Decode

variable [FloorRing K]

/-- `softmax` and `top_k` as the engine has them: no row is ranked that `softmax` refuses. -/
def topKOf (numpy : NumPy K) (probabilities : List K) (k : ℤ) : Except Failure (List (K × ℕ)) :=
  if probabilities = [] then .error noMaximum else topK numpy probabilities k

variable {Session Tensor : Type} [IsStrictOrderedRing K]

/-- An engine whose logits are numbers, with the functions of `image_processing`, the rounding of
`_decode_classification` and the bounds of `Prediction`. -/
def numericEngine (engine : Engine Session Tensor (List K) K) (numpy : NumPy K) :
    Engine Session Tensor (List K) K :=
  { engine with
    softmax := fun logits => (softmax numpy logits).toOption.getD []
    topK := topKOf numpy
    round6 := Detect.roundTo 6
    unitInterval := fun score => decide (0 ≤ score ∧ score ≤ 1) }

variable (engine : Engine Session Tensor (List K) K) (numpy : NumPy K)
  (model : LoadedModel Session) (includeProbabilities : Bool)

/-- `top_k` ranks a class of every row that it ranks. -/
theorem numericEngine_ranksSome : RanksSome (numericEngine engine numpy) := by
  intro probabilities k entries positive ranked
  simp only [numericEngine, topKOf] at ranked
  split at ranked
  · cases ranked
  · rename_i nonempty
    rcases topK_ranked numpy nonempty (by omega : 0 ≤ k) with ⟨classes, isRanked, greatest⟩
    cases isRanked.symm.trans ranked
    have size := List.length_pos_iff.mpr nonempty
    have length := greatest.length
    rintro empty
    rw [List.map_eq_nil_iff.mp empty, List.length_nil] at length
    omega

/-- The engine ranks what `softmax` gives, and raises what it raises. -/
theorem numericEngine_ranks (logits : List K) (k : ℤ) :
    (numericEngine engine numpy).topK ((numericEngine engine numpy).softmax logits) k =
      softmax numpy logits >>= fun probabilities => topK numpy probabilities k := by
  by_cases empty : logits = []
  · subst empty
    rfl
  · rcases exists_softmax numpy empty with ⟨probabilities, isSoftmax, length, _⟩
    have nonempty : probabilities ≠ [] := by
      rintro rfl
      exact empty (List.eq_nil_of_length_eq_zero length.symm)
    have given : (numericEngine engine numpy).softmax logits = probabilities := by
      simp only [numericEngine, isSoftmax]
      rfl
    rw [given, isSoftmax]
    simp only [numericEngine, topKOf, if_neg nonempty]
    rfl

/-- The prediction is of the class, by its names and with its probability. -/
structure Names (probabilities : List K) (index : Fin probabilities.length)
    (prediction : Prediction K) : Prop where
  label : model.className? index = some prediction.label
  classId : prediction.classId = (index : ℕ)
  wnid : model.wnid? index = some prediction.wnid
  probability : prediction.probability =
    if includeProbabilities then some (Detect.roundTo 6 (probabilities.get index)) else none

theorem predictionsFor_eq_mapM {Logits Score : Type} (engine : Engine Session Tensor Logits Score)
    (entries : List (Score × ℕ)) :
    predictionsFor engine model includeProbabilities entries =
      entries.mapM (predictionFor engine model includeProbabilities) := by
  induction entries with
  | nil => rfl
  | cons entry entries ih =>
      rw [predictionsFor, List.mapM_cons, ih]
      rfl

variable {model includeProbabilities}

/-- A probability of a class is a valid prediction. -/
theorem exists_predictionFor {names wnids : List String} (labelled : model.Labelled names wnids)
    {probabilities : List K} (width : probabilities.length = names.length)
    (unit : ∀ probability ∈ probabilities, 0 ≤ probability ∧ probability ≤ 1)
    (index : Fin probabilities.length) :
    ∃ prediction, predictionFor (numericEngine engine numpy) model includeProbabilities
        (entryOf probabilities index) = .ok prediction ∧
      Names model includeProbabilities probabilities index prediction := by
  have bounds := unit _ (List.get_mem probabilities index)
  have rounded : 0 ≤ Detect.roundTo 6 (probabilities.get index) ∧
      Detect.roundTo 6 (probabilities.get index) ≤ 1 :=
    Detect.roundTo_unit 6 bounds.1 bounds.2
  have known : (index : ℕ) < names.length := by omega
  have isName : model.className? index = some names[(index : ℕ)] := by
    rw [labelled.className?_eq]
    exact List.getElem?_eq_getElem known
  refine ⟨⟨names[(index : ℕ)], (index : ℕ), wnids[(index : ℕ)]?,
    shownProbability (numericEngine engine numpy) includeProbabilities (probabilities.get index)⟩,
    ?_, ?_⟩
  · apply predictionFor_ok_iff.mpr
    refine ⟨?_, _, _, isName, labelled.wnid?_eq index, rfl⟩
    cases includeProbabilities with
    | true => exact decide_eq_true rounded
    | false => rfl
  · exact ⟨isName, rfl, labelled.wnid?_eq index, rfl⟩

/-- A row of logits as it is ranked: the predictions name the `k` most probable classes. -/
def Classified (numpy : NumPy K) (model : LoadedModel Session) (k : ℤ)
    (includeProbabilities : Bool) (logits : List K) (predictions : List (Prediction K)) : Prop :=
  ∃ probabilities classes, softmax numpy logits = .ok probabilities ∧
    model.classNames.len? = some probabilities.length ∧ Ranked probabilities k classes ∧
    List.Forall₂ (Names model includeProbabilities probabilities) classes predictions

/-- The logits of all classes, at least one, are decoded. -/
theorem decodeClassification_classified {names wnids : List String}
    (labelled : model.Labelled names wnids) {logits : List K}
    (width : logits.length = names.length) (known : names ≠ []) {k : ℤ} (nonneg : 0 ≤ k) :
    ∃ predictions, decodeClassification (numericEngine engine numpy) model k includeProbabilities
        logits = .ok predictions ∧
      Classified numpy model k includeProbabilities logits predictions := by
  have nonempty : logits ≠ [] := by
    rintro rfl
    exact known (List.eq_nil_of_length_eq_zero width.symm)
  rcases exists_softmax numpy nonempty with ⟨probabilities, isSoftmax, length, unit⟩
  have hasClasses : probabilities ≠ [] := by
    rintro rfl
    exact nonempty (List.eq_nil_of_length_eq_zero length.symm)
  rcases topK_ranked numpy hasClasses nonneg with ⟨classes, isTopK, ranked⟩
  have each : ∀ index ∈ classes, ∃ prediction,
      predictionFor (numericEngine engine numpy) model includeProbabilities
        (entryOf probabilities index) = .ok prediction ∧
      Names model includeProbabilities probabilities index prediction :=
    fun index _ => exists_predictionFor engine numpy labelled (length.trans width) unit index
  rcases exists_mapM_forall₂_iff.mpr each with ⟨predictions, decoded, isNamed⟩
  have size : model.classNames.len? = some probabilities.length := by
    rw [labelled.classNames, Json.len?_texts, length, width]
  refine ⟨predictions, ?_, probabilities, classes, isSoftmax, size, ranked, isNamed⟩
  simp only [decodeClassification, bind_ok_iff, numericEngine_ranks]
  refine ⟨_, ⟨probabilities, isSoftmax, isTopK⟩, ?_⟩
  rw [predictionsFor_eq_mapM, List.mapM_map]
  exact decoded

/-- A model without classes decodes nothing. -/
theorem decodeClassification_nil (k : ℤ) :
    ¬Succeeds (decodeClassification (numericEngine engine numpy) model k includeProbabilities
      []) := by
  simp only [decodeClassification, numericEngine_ranks, softmax_nil]
  exact not_succeeds_error noMaximum

end Decode

end VisionApi.Inference
