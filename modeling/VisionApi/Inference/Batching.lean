import VisionApi.Inference.Attempt
import VisionApi.Inference.Ranking

/-!
# Batches of images

`classify_many` validates all images of a batch, runs them at once and decodes
the rows.  Where the session maps each row on its own, every image gets the
predictions that it would get alone.

`Rowwise` is this assumption on the session: the tensors of a batch that runs also run
alone, each to its row.  Under it the run of a batch can be compared with the runs of
its images (`RunsTo`), since decoding is done row by row with the same function in both
cases.

A batch is refused as a whole, and `Refused` says for what: an image that is invalid or
cannot be decoded, a missing model, a run that fails, or a model without classes, whose
rows have nothing to rank.  An empty batch is answered before any of this is looked at
(`refused_otherwise`).

The instance of the numerical functions at the end ranks by insertion and has an
exponential of whole numbers, since a witness computes with it.
-/

namespace VisionApi.Inference

open Foundation Models

/-- `BatchTooLargeError`. -/
def IsBatchTooLarge : Failure → Prop
  | .api error => error.code = "batch_too_large"
  | _ => False

/-! ## The rows of a batch -/

section Rows

variable {Session Tensor Logits Score : Type} {engine : Engine Session Tensor Logits Score}
  {limit : ℤ} {model : LoadedModel Session} {topKResults : ℤ} {includeProbabilities : Bool}

/-- The model maps each row of a batch as it maps it alone. -/
def Rowwise (engine : Engine Session Tensor Logits Score) (model : LoadedModel Session) : Prop :=
  ∀ batch rows, runModel engine model batch = .ok rows →
    List.Forall₂ (fun tensor row => runModel engine model [tensor] = .ok [row]) batch rows

/-- An image alone is preprocessed and run to a row. -/
def RunsTo (engine : Engine Session Tensor Logits Score) (limit : ℤ) (model : LoadedModel Session)
    (image : Bytes) (row : Logits) : Prop :=
  ∃ tensor, preprocessImage engine limit model.imageSize image = .ok tensor ∧
    runModel engine model [tensor] = .ok [row]

/-- An image that runs to a row runs to it alone. -/
theorem RunsTo.runBatch_singleton {image : Bytes} {row : Logits}
    (runs : RunsTo engine limit model image row) :
    runBatch engine limit model [image] = .ok [row] := by
  rcases runs with ⟨tensor, preprocessed, ran⟩
  apply runBatch_ok_iff.mpr
  exact ⟨List.cons_ne_nil _ _, [tensor], mapM_singleton_ok_iff.mpr ⟨tensor, preprocessed, rfl⟩,
    ran⟩

/-- A batch runs each of its images to the row that the image runs to alone. -/
theorem runsTo_of_runBatch (rowwise : Rowwise engine model) {images : List Bytes}
    {rows : List Logits} (ran : runBatch engine limit model images = .ok rows) :
    List.Forall₂ (RunsTo engine limit model) images rows := by
  rcases runBatch_ok_iff.mp ran with ⟨_, batch, preprocessed, returned⟩
  apply forall₂_trans (mapM_ok_iff.mp preprocessed) (rowwise batch rows returned)
  intro image tensor row isTensor isRow
  exact ⟨tensor, isTensor, isRow⟩

/-- The rows are decoded one by one. -/
theorem predict_of_runsTo {image : Bytes} {row : Logits} {predictions : List (Prediction Score)}
    (runs : RunsTo engine limit model image row)
    (decoded : decodeClassification engine model topKResults includeProbabilities row =
      .ok predictions) :
    predict engine limit model image topKResults includeProbabilities = .ok predictions :=
  predict_ok_iff.mpr ⟨row, [], runs.runBatch_singleton, decoded⟩

end Rows

/-! ## The service on a batch -/

section Service

variable {Session Tensor Logits Score : Type} {engine : Engine Session Tensor Logits Score}
  {service : InferenceService Session} {images : List Bytes} {topKResults : ℤ}
  {modelVersion : Option String} {includeProbabilities : Bool}

/-- The upload passes the checks of the service. -/
def Accepted (engine : Engine Session Tensor Logits Score) (service : InferenceService Session)
    (image : Bytes) : Prop :=
  Succeeds (validateImageUpload engine.toPillow service.pillowLimit image
    service.limits.maxUploadBytes service.limits.maxImagePixels)

/-- A batch is answered exactly if each of its images is accepted. -/
theorem classifyMany_ok_iff (nonempty : images ≠ [])
    (few : (images.length : ℤ) ≤ service.limits.maxBatchSize)
    {all : List (List (Prediction Score))} :
    service.classifyMany engine images topKResults modelVersion includeProbabilities = .ok all ↔
      (∀ image ∈ images, Accepted engine service image) ∧
      ∃ model, service.models.get classifierName modelVersion = .ok model ∧
        ∃ rows, runBatch engine service.pillowLimit model images = .ok rows ∧
          rows.mapM (decodeClassification engine model topKResults includeProbabilities) =
            .ok all := by
  have validated : (∀ image ∈ images, Accepted engine service image) ↔
      Succeeds (images.mapM fun image =>
        (validateImageUpload engine.toPillow service.pillowLimit image
          service.limits.maxUploadBytes service.limits.maxImagePixels).mapError Failure.api) := by
    rw [mapM_succeeds_iff]
    simp only [Accepted, Succeeds, mapError_ok_iff]
  rw [validated]
  simp only [InferenceService.classifyMany, if_neg nonempty, if_neg (not_lt.mpr few),
    bind_ok_iff, mapError_ok_iff, gt_iff_lt]
  constructor
  · rintro ⟨metadata, isMetadata, rest⟩
    exact ⟨⟨metadata, isMetadata⟩, rest⟩
  · rintro ⟨⟨metadata, isMetadata⟩, rest⟩
    exact ⟨metadata, isMetadata, rest⟩

/-- What a batch gives an image alone: as a batch of one, and from `classify` without its cache. -/
structure ServedAlone (engine : Engine Session Tensor Logits Score)
    (service : InferenceService Session) (topKResults : ℤ) (modelVersion : Option String)
    (includeProbabilities : Bool) (image : Bytes) (predictions : List (Prediction Score)) :
    Prop where
  many : service.classifyMany engine [image] topKResults modelVersion includeProbabilities =
    .ok [predictions]
  one : ∀ cache : Cache Score, ∃ response,
    service.classify engine cache image topKResults modelVersion none includeProbabilities false =
      .ok (response, cache) ∧ response.predictions = predictions

theorem servedAlone {model : LoadedModel Session} {image : Bytes} {row : Logits}
    {predictions : List (Prediction Score)} (oneFits : 1 ≤ service.limits.maxBatchSize)
    (accepted : Accepted engine service image)
    (resolved : service.models.get classifierName modelVersion = .ok model)
    (runs : RunsTo engine service.pillowLimit model image row)
    (decoded : decodeClassification engine model topKResults includeProbabilities row =
      .ok predictions) :
    ServedAlone engine service topKResults modelVersion includeProbabilities image
      predictions := by
  have few : (([image] : List Bytes).length : ℤ) ≤ service.limits.maxBatchSize := by
    simpa using oneFits
  constructor
  · apply (classifyMany_ok_iff (List.cons_ne_nil _ _) few).mpr
    exact ⟨List.forall_mem_singleton.mpr accepted, model, resolved, [row],
      runs.runBatch_singleton, mapM_singleton_ok_iff.mpr ⟨predictions, decoded, rfl⟩⟩
  · intro cache
    rcases accepted with ⟨metadata, validated⟩
    refine ⟨⟨predictions, model.name, model.version, model.backend, false⟩, ?_, rfl⟩
    simp only [InferenceService.classify, bind_ok_iff, mapError_ok_iff, getForBackend_none]
    refine ⟨metadata, validated, model, resolved, ?_⟩
    simp only [Bool.false_eq_true, if_false, bind_ok_iff]
    exact ⟨predictions, predict_of_runsTo runs decoded, rfl⟩

/-- Pillow does not raise `BatchTooLargeError`. -/
def ForeignPixels (engine : Engine Session Tensor Logits Score) : Prop :=
  ∀ image size failure, engine.pixels image size = .error failure → ¬IsBatchTooLarge failure

/-- Only an error with that code is the refusal of a large batch. -/
theorem not_isBatchTooLarge {failure : Failure}
    (code : ∀ error, failure = .api error → error.code ≠ "batch_too_large") :
    ¬IsBatchTooLarge failure := by
  cases failure with
  | api error => exact code error rfl
  | httpStatus | request | value | other => exact id

/-- A batch that fits is not refused for its size. -/
theorem classifyMany_not_tooLarge (foreign : ForeignPixels engine)
    (foreignTopK : ∀ probabilities k failure, engine.topK probabilities k = .error failure →
      ¬IsBatchTooLarge failure)
    (few : (images.length : ℤ) ≤ service.limits.maxBatchSize) {failure : Failure}
    (raised : service.classifyMany engine images topKResults modelVersion includeProbabilities =
      .error failure) : ¬IsBatchTooLarge failure := by
  rw [InferenceService.classifyMany, if_neg (not_lt.mpr few)] at raised
  split at raised
  · cases raised
  simp only [bind_error_iff, mapM_error_iff, mapError_error_iff] at raised
  rcases raised with ⟨_, _, _, _, _, error, refused, rfl⟩ |
    ⟨_, _, ⟨error, _, rfl⟩ | ⟨model, _, notRun | ⟨rows, _, _, row, _, _, _, notDecoded⟩⟩⟩
  · apply not_isBatchTooLarge
    rintro _ ⟨⟩ tooLarge
    have code := validateImageUpload_code refused
    rw [tooLarge] at code
    simp at code
  · apply not_isBatchTooLarge
    rintro _ ⟨⟩
    simp [modelNotFoundError]
  · rcases runBatch_error notRun with ⟨image, unreadable⟩ | unavailable
    · exact foreign _ _ _ unreadable
    · apply not_isBatchTooLarge
      intro error isError tooLarge
      have code := unavailable error isError
      rw [tooLarge] at code
      simp at code
  · simp only [decodeClassification, bind_error_iff] at notDecoded
    rcases notDecoded with notRanked | ⟨entries, _, notNamed⟩
    · exact foreignTopK _ _ _ notRanked
    · apply not_isBatchTooLarge
      intro error isError
      exact absurd isError (predictionsFor_error notNamed error)

/-- What keeps the service from classifying a batch. -/
inductive Refused (engine : Engine Session Tensor Logits Score) (service : InferenceService Session)
    (images : List Bytes) (modelVersion : Option String) : Prop where
  | invalid (image : Bytes) (isImage : image ∈ images) (refused : ¬Accepted engine service image)
  | unresolved (missing : ¬Succeeds (service.models.get classifierName modelVersion))
  | undecodable (model : LoadedModel Session)
      (resolved : service.models.get classifierName modelVersion = .ok model) (image : Bytes)
      (isImage : image ∈ images)
      (fails : ¬Succeeds (preprocessImage engine service.pillowLimit model.imageSize image))
  | notRun (model : LoadedModel Session)
      (resolved : service.models.get classifierName modelVersion = .ok model)
      (batch : List Tensor)
      (preprocessed : images.mapM
        (preprocessImage engine service.pillowLimit model.imageSize) = .ok batch)
      (fails : ¬Succeeds (runModel engine model batch))
  | noClass (model : LoadedModel Session)
      (resolved : service.models.get classifierName modelVersion = .ok model)
      (none : model.classNames = .texts [])

/-- What is not refused is run. -/
theorem exists_rows_of_not_refused (nonempty : images ≠ [])
    (served : ¬Refused engine service images modelVersion) :
    (∀ image ∈ images, Accepted engine service image) ∧
      ∃ model, service.models.get classifierName modelVersion = .ok model ∧
        model.classNames ≠ .texts [] ∧
        ∃ rows, runBatch engine service.pillowLimit model images = .ok rows := by
  constructor
  · intro image isImage
    by_contra refused
    exact served (.invalid image isImage refused)
  · by_cases resolves : Succeeds (service.models.get classifierName modelVersion)
    · rcases resolves with ⟨model, resolved⟩
      refine ⟨model, resolved, fun none => served (.noClass model resolved none), ?_⟩
      have preprocesses : ∀ image ∈ images,
          Succeeds (preprocessImage engine service.pillowLimit model.imageSize image) := by
        intro image isImage
        by_contra fails
        exact served (.undecodable model resolved image isImage fails)
      rcases mapM_succeeds_iff.mpr preprocesses with ⟨batch, preprocessed⟩
      by_cases runs : Succeeds (runModel engine model batch)
      · rcases runs with ⟨rows, ran⟩
        exact ⟨rows, runBatch_ok_iff.mpr ⟨nonempty, batch, preprocessed, ran⟩⟩
      · exact absurd (.notRun model resolved batch preprocessed runs) served
    · exact absurd (.unresolved resolves) served

end Service

/-! ## Batched and one by one -/

section OneByOne

variable {K Session Tensor : Type} [Field K] [LinearOrder K] [IsStrictOrderedRing K] [FloorRing K]

/-- The labels are lists of texts, and the output of the model is as wide as the class names. -/
def Wide (engine : Engine Session Tensor (List K) K) (model : LoadedModel Session) : Prop :=
  ∃ names wnids, model.Labelled names wnids ∧
    ∀ batch rows, runModel engine model batch = .ok rows → ∀ row ∈ rows, row.length = names.length

variable {engine : Engine Session Tensor (List K) K} {numpy : NumPy K}
  {service : InferenceService Session} {images : List Bytes} {topKResults : ℤ}
  {modelVersion : Option String} {includeProbabilities : Bool}

/-- An image of a batch gets what it gets alone, the most probable classes of its own logits. -/
structure OneByOne (engine : Engine Session Tensor (List K) K) (numpy : NumPy K)
    (service : InferenceService Session) (topKResults : ℤ) (modelVersion : Option String)
    (includeProbabilities : Bool) (image : Bytes) (predictions : List (Prediction K)) : Prop
    extends ServedAlone (numericEngine engine numpy) service topKResults modelVersion
      includeProbabilities image predictions where
  classified : ∃ model logits,
    service.models.get classifierName modelVersion = .ok model ∧
      RunsTo (numericEngine engine numpy) service.pillowLimit model image logits ∧
      Classified numpy model topKResults includeProbabilities logits predictions

omit [IsStrictOrderedRing K] in
theorem wide_of_runBatch {limit : ℤ} {model : LoadedModel Session} (wide : Wide engine model)
    (known : model.classNames ≠ .texts []) {rows : List (List K)}
    (ran : runBatch (numericEngine engine numpy) limit model images = .ok rows) :
    ∃ names wnids, model.Labelled names wnids ∧ names ≠ [] ∧
      ∀ row ∈ rows, row.length = names.length := by
  rcases runBatch_ok_iff.mp ran with ⟨_, batch, _, returned⟩
  rcases wide with ⟨names, wnids, labelled, width⟩
  refine ⟨names, wnids, labelled, ?_, width batch rows returned⟩
  rintro rfl
  exact known labelled.classNames

/-- A batch succeeds exactly if nothing refuses it. -/
theorem not_classifyMany_iff (nonempty : images ≠ [])
    (few : (images.length : ℤ) ≤ service.limits.maxBatchSize) (nonneg : 0 ≤ topKResults)
    (rowwise : ∀ model, service.models.get classifierName modelVersion = .ok model →
      Rowwise engine model)
    (wide : ∀ model, service.models.get classifierName modelVersion = .ok model →
      Wide engine model) :
    ¬Succeeds (service.classifyMany (numericEngine engine numpy) images topKResults modelVersion
        includeProbabilities) ↔
      Refused (numericEngine engine numpy) service images modelVersion := by
  constructor
  · intro fails
    by_contra served
    rcases exists_rows_of_not_refused nonempty served with ⟨accepted, model, resolved, known,
      rows, ran⟩
    have decodes : ∀ row ∈ rows, Succeeds (decodeClassification (numericEngine engine numpy) model
        topKResults includeProbabilities row) := by
      intro row isRow
      rcases wide_of_runBatch (wide model resolved) known ran with
        ⟨names, wnids, labelled, hasNames, width⟩
      rcases decodeClassification_classified engine numpy labelled (width row isRow) hasNames
        nonneg with
        ⟨predictions, decoded, _⟩
      exact ⟨predictions, decoded⟩
    rcases mapM_succeeds_iff.mpr decodes with ⟨all, decoded⟩
    exact fails ⟨all, (classifyMany_ok_iff nonempty few).mpr
      ⟨accepted, model, resolved, rows, ran, decoded⟩⟩
  · rintro refused ⟨all, classified⟩
    rcases (classifyMany_ok_iff nonempty few).mp classified with ⟨accepted, model, resolved, rows,
      ran, decoded⟩
    rcases runBatch_ok_iff.mp ran with ⟨_, batch, preprocessed, returned⟩
    cases refused with
    | invalid image isImage refused => exact refused (accepted image isImage)
    | unresolved missing => exact missing ⟨model, resolved⟩
    | undecodable other isOther image isImage fails =>
        cases resolved.symm.trans isOther
        exact fails (mapM_succeeds_iff.mp ⟨batch, preprocessed⟩ image isImage)
    | notRun other isOther tensors areTensors fails =>
        cases resolved.symm.trans isOther
        cases preprocessed.symm.trans areTensors
        exact fails ⟨rows, returned⟩
    | noClass other isOther none =>
        cases resolved.symm.trans isOther
        have lengths := (runsTo_of_runBatch (rowwise model resolved) ran).length_eq
        cases rows with
        | nil => exact nonempty (List.eq_nil_of_length_eq_zero lengths)
        | cons row rows =>
            rcases wide model resolved with ⟨names, wnids, labelled, width⟩
            rcases runBatch_ok_iff.mp ran with ⟨_, batch, _, ranModel⟩
            have isWide := width batch _ ranModel row List.mem_cons_self
            have isNone : names = [] := by
              simpa [Json.texts] using labelled.classNames.symm.trans none
            rw [isNone, List.length_nil] at isWide
            cases List.eq_nil_of_length_eq_zero isWide
            exact decodeClassification_nil engine numpy topKResults
              (mapM_succeeds_iff.mp ⟨all, decoded⟩ [] List.mem_cons_self)

omit [IsStrictOrderedRing K] [FloorRing K] in
theorem topKOf_not_tooLarge (probabilities : List K) (k : ℤ) (failure : Failure)
    (raised : topKOf numpy probabilities k = .error failure) : ¬IsBatchTooLarge failure := by
  rw [topKOf] at raised
  split at raised
  · cases raised
    exact id
  · simp only [topK, bind_error_iff, reduceCtorEq, and_false, exists_false, or_false] at raised
    rcases partition_error numpy raised with ⟨message, rfl⟩
    exact id

/-- An image of a batch is classified as it is alone. -/
theorem oneByOne_of_classifyMany (nonempty : images ≠ [])
    (few : (images.length : ℤ) ≤ service.limits.maxBatchSize) (nonneg : 0 ≤ topKResults)
    (rowwise : ∀ model, service.models.get classifierName modelVersion = .ok model →
      Rowwise engine model)
    (wide : ∀ model, service.models.get classifierName modelVersion = .ok model →
      Wide engine model) {all : List (List (Prediction K))}
    (returned : service.classifyMany (numericEngine engine numpy) images topKResults modelVersion
      includeProbabilities = .ok all) :
    List.Forall₂ (OneByOne engine numpy service topKResults modelVersion includeProbabilities)
      images all := by
  have served : ¬Refused (numericEngine engine numpy) service images modelVersion :=
    fun refused => (not_classifyMany_iff nonempty few nonneg rowwise wide).mpr refused
      ⟨all, returned⟩
  rcases exists_rows_of_not_refused nonempty served with ⟨accepted, model, resolved, known, _⟩
  rcases (classifyMany_ok_iff nonempty few).mp returned with ⟨_, other, isOther, rows, ran,
    decoded⟩
  cases resolved.symm.trans isOther
  have oneFits : 1 ≤ service.limits.maxBatchSize := by
    have size := List.length_pos_iff.mpr nonempty
    omega
  have alone : Rowwise (numericEngine engine numpy) model := rowwise model resolved
  have runs := (List.forall₂_and_left _ _).mpr ⟨accepted, runsTo_of_runBatch alone ran⟩
  rcases wide_of_runBatch (wide model resolved) known ran with
    ⟨names, wnids, labelled, hasNames, areWide⟩
  have decodes := (List.forall₂_and_left _ _).mpr ⟨areWide, mapM_ok_iff.mp decoded⟩
  apply forall₂_trans runs decodes
  rintro image row predictions ⟨isAccepted, runsTo⟩ ⟨width, isDecoded⟩
  refine ⟨servedAlone oneFits isAccepted resolved runsTo isDecoded, model, row, resolved, runsTo,
    ?_⟩
  rcases decodeClassification_classified engine numpy labelled width hasNames nonneg with
    ⟨others, otherDecoded, classified⟩
  cases isDecoded.symm.trans otherDecoded
  exact classified

/-- Batched classification is classification one by one: the only batches that are refused are
those that are too large and those that some image or the model refuses. -/
theorem classifyMany_one_by_one (engine : Engine Session Tensor (List K) K) (numpy : NumPy K)
    (service : InferenceService Session) (images : List Bytes) (nonneg : 0 ≤ topKResults)
    (modelVersion : Option String) (includeProbabilities : Bool)
    (rowwise : ∀ model, service.models.get classifierName modelVersion = .ok model →
      Rowwise engine model)
    (wide : ∀ model, service.models.get classifierName modelVersion = .ok model →
      Wide engine model)
    (foreign : ForeignPixels engine) :
    (images = [] → service.classifyMany (numericEngine engine numpy) images topKResults
      modelVersion includeProbabilities = .ok []) ∧
    (images ≠ [] →
      ((∃ failure, service.classifyMany (numericEngine engine numpy) images topKResults
          modelVersion includeProbabilities = .error failure ∧ IsBatchTooLarge failure) ↔
        (images.length : ℤ) > service.limits.maxBatchSize) ∧
      ((images.length : ℤ) ≤ service.limits.maxBatchSize →
        (¬Succeeds (service.classifyMany (numericEngine engine numpy) images topKResults
            modelVersion includeProbabilities) ↔
          Refused (numericEngine engine numpy) service images modelVersion) ∧
        ∀ all, service.classifyMany (numericEngine engine numpy) images topKResults modelVersion
            includeProbabilities = .ok all →
          List.Forall₂ (OneByOne engine numpy service topKResults modelVersion
            includeProbabilities) images all)) := by
  constructor
  · rintro rfl
    rfl
  · intro nonempty
    refine ⟨⟨?_, ?_⟩, ?_⟩
    · rintro ⟨failure, raised, tooLarge⟩
      by_contra few
      have foreignPixels : ForeignPixels (numericEngine engine numpy) := foreign
      exact classifyMany_not_tooLarge foreignPixels topKOf_not_tooLarge (not_lt.mp few) raised
        tooLarge
    · intro many
      rw [InferenceService.classifyMany, if_neg nonempty, if_pos many]
      exact ⟨_, rfl, rfl⟩
    · intro few
      refine ⟨not_classifyMany_iff nonempty few nonneg rowwise wide, ?_⟩
      intro all returned
      exact oneByOne_of_classifyMany nonempty few nonneg rowwise wide returned

end OneByOne

/-! ## Classes of equal logits -/

theorem insertion_smallest (values : List ℚ) (kth : ℕ) (_ : kth < values.length) :
    ∀ first ∈ (Detect.insertionOrder values).take (kth + 1),
      ∀ later ∈ (Detect.insertionOrder values).drop (kth + 1),
        ∀ small ∈ values[first]?, ∀ large ∈ values[later]?, small ≤ large := by
  intro first isFirst later isLater small isSmall large isLarge
  have ascending := Detect.insertionOrder_ascending values
  rw [← List.take_append_drop (kth + 1) (Detect.insertionOrder values), List.filterMap_append,
    List.pairwise_append] at ascending
  exact ascending.2.2 small (List.mem_filterMap.mpr ⟨first, isFirst, isSmall⟩) large
    (List.mem_filterMap.mpr ⟨later, isLater, isLarge⟩)

theorem even_exp_nonneg (value : ℚ) : (0 : ℚ) ≤ if value = 0 then 1 else 0 := by
  split
  · exact zero_le_one
  · exact le_refl 0

/-- The exponential of zero is all that equal logits need. -/
def evenNumPy : NumPy ℚ where
  exp := fun value => if value = 0 then 1 else 0
  argpartition := ⟨fun values _ => Detect.insertionOrder values,
    fun values _ => Detect.insertionOrder_perm values, insertion_smallest⟩
  argsort := Detect.insertionArgsort
  exp_nonneg := even_exp_nonneg
  exp_zero := if_pos rfl

/-- A session that gives all classes of every image the same logit. -/
def evenEngine (classes : ℕ) : Engine Unit Unit (List ℚ) ℚ where
  header := fun _ => .ok ⟨some "JPEG", 64, 64, "RGB"⟩
  pixels := fun _ _ => .ok ()
  run := fun _ _ batch => .ok [batch.map fun _ => List.replicate classes 0]
  softmax := id
  topK := fun _ _ => .error noMaximum
  round6 := id
  unitInterval := fun _ => true

theorem even_rowwise (classes : ℕ) (model : LoadedModel Unit) :
    Rowwise (evenEngine classes) model := by
  intro batch rows ran
  cases ran
  rw [List.forall₂_map_right_iff, List.forall₂_same]
  exact fun _ _ => rfl

theorem even_wide {model : LoadedModel Unit} {names wnids : List String}
    (labelled : model.Labelled names wnids) : Wide (evenEngine names.length) model := by
  refine ⟨names, wnids, labelled, ?_⟩
  intro batch rows ran row isRow
  cases ran
  rcases List.mem_map.mp isRow with ⟨_, _, rfl⟩
  exact List.length_replicate

theorem labelled_smallModel : smallModel.Labelled ["goldfish"] ["n01443537"] :=
  ⟨rfl, rfl⟩

theorem classifyMany_one_by_one_pair : ∃ all,
    smallService.classifyMany (numericEngine (evenEngine 1) evenNumPy) [[0], [1]] 1 none true =
        .ok all ∧
      List.Forall₂ (OneByOne (evenEngine 1) evenNumPy smallService 1 none true) [[0], [1]]
        all := by
  have resolves : ∀ model, smallService.models.get classifierName none = .ok model →
      model = smallModel := by
    rintro model ⟨⟩
    rfl
  have wide : ∀ model, smallService.models.get classifierName none = .ok model →
      Wide (evenEngine 1) model := by
    intro model resolved
    cases resolves model resolved
    exact even_wide labelled_smallModel
  have pair := (classifyMany_one_by_one (evenEngine 1) evenNumPy smallService [[0], [1]]
    zero_le_one none true (fun model _ => even_rowwise 1 model) wide (by rintro _ _ _ ⟨⟩)).2
    (List.cons_ne_nil _ _)
  rcases pair.2 (by decide) with ⟨refuses, alone⟩
  by_cases succeeds : Succeeds (smallService.classifyMany
    (numericEngine (evenEngine 1) evenNumPy) [[0], [1]] 1 none true)
  · rcases succeeds with ⟨all, returned⟩
    exact ⟨all, returned, alone all returned⟩
  · exfalso
    cases refuses.mp succeeds with
    | invalid image isImage refused =>
        simp only [List.mem_cons, List.not_mem_nil, or_false] at isImage
        rcases isImage with rfl | rfl
        · exact refused ⟨_, rfl⟩
        · exact refused ⟨_, rfl⟩
    | unresolved missing => exact missing ⟨smallModel, rfl⟩
    | undecodable model resolved image _ fails =>
        cases resolves model resolved
        exact fails ⟨(), rfl⟩
    | notRun model resolved batch _ fails => exact fails ⟨_, rfl⟩
    | noClass model resolved none =>
        cases resolves model resolved
        cases none

/-- A model without classes. -/
def namelessModel : LoadedModel Unit :=
  { smallModel with classNames := .texts [], wnids := .texts [] }

/-- A service with it. -/
def namelessService : InferenceService Unit :=
  { smallService with
    models := ⟨⟨[], .onnx, true⟩, [("tiny-imagenet-classifier:v1", namelessModel)],
      [("tiny-imagenet-classifier", "v1")]⟩ }

/-- No image needs no model, and a model without classes runs but ranks nothing. -/
theorem refused_otherwise :
    (smallService.classifyMany (numericEngine (evenEngine 1) evenNumPy) [] 1 (some "v9") true =
        .ok [] ∧
      ¬Succeeds (smallService.models.get classifierName (some "v9"))) ∧
    ¬Succeeds (namelessService.classifyMany (numericEngine (evenEngine 0) evenNumPy) [[0]] 1 none
        true) ∧
      Accepted (numericEngine (evenEngine 0) evenNumPy) namelessService [0] ∧
      namelessService.models.get classifierName none = .ok namelessModel ∧
      Succeeds (runBatch (numericEngine (evenEngine 0) evenNumPy) namelessService.pillowLimit
        namelessModel [[0]]) := by
  have wide : ∀ model, namelessService.models.get classifierName none = .ok model →
      Wide (evenEngine 0) model := by
    rintro model ⟨⟩
    have labelled : namelessModel.Labelled [] [] := ⟨rfl, rfl⟩
    exact even_wide labelled
  refine ⟨⟨rfl, ?_⟩, ?_, ⟨_, rfl⟩, rfl, ⟨_, rfl⟩⟩
  · rintro ⟨_, ⟨⟩⟩
  · apply (not_classifyMany_iff (List.cons_ne_nil _ _) (by decide) zero_le_one
      (fun model _ => even_rowwise 0 model) wide).mpr
    exact .noClass namelessModel rfl rfl

end VisionApi.Inference
