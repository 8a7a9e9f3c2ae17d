import VisionApi.Foundation.Run
import VisionApi.Inference.Validators
import VisionApi.Models.Registry

/-!
# The inference service

`classify` and `classify_many` validate, resolve a model, run it and decode its
logits.  Decoding pixels, the runtime and the numerical functions are a
parameter; floats are of an abstract type of scores.

The engine returns any list of rows for a batch, and ranks a row or raises.  Nothing is
built into it; `RowPerImage` and `RanksSome` name what the real ones do beyond that, and
stand as hypotheses where a result needs them.  Class names and WordNet ids are JSON
values, as the labels file is not checked when it is loaded, so that looking one up may
raise as well.

The cache is here an idealised one: a map from the parameters of a request to the
predictions.  `Cache.Faithful` is its invariant under any requests, that every entry is
what the pipeline gives for its key; and then the cache never changes an answer.  The
text format, the faults of Redis and the interleaving of requests come in later files.

`Serves` says that a request is answered with given predictions, and is shared by the
single and the batched path.
-/

namespace VisionApi.Inference

open Foundation Models

variable {Session Tensor Logits Score : Type}

/-- Pillow, ONNX Runtime and NumPy.  `run` returns the rows of each output. -/
structure Engine (Session Tensor Logits Score : Type) extends Pillow where
  /-- `preprocess_image` after `Image.open`, for an image size. -/
  pixels : Bytes → ℤ → Except Failure Tensor
  run : Session → String → List Tensor → Except Failure (List (List Logits))
  softmax : Logits → Logits
  topK : Logits → ℤ → Except Failure (List (Score × ℕ))
  round6 : Score → Score
  unitInterval : Score → Bool

/-- The limits of `Settings`. -/
structure Limits where
  maxUploadBytes : ℤ
  maxImagePixels : ℤ
  maxBatchSize : ℤ

/-- `InferenceService` in a process with the given limit of Pillow. -/
structure InferenceService (Session : Type) where
  models : ModelService Session
  limits : Limits
  pillowLimit : ℤ

/-- One class of a response. -/
structure Prediction (Score : Type) where
  label : String
  classId : ℤ
  wnid : Option String
  probability : Option Score
deriving DecidableEq

/-- What `classify` returns. -/
structure ClassificationResponse (Score : Type) where
  predictions : List (Prediction Score)
  modelName : String
  modelVersion : String
  backend : InferenceBackend
  cached : Bool

/-- The error of the registry as an error of the API. -/
def notFoundFailure (error : ModelNotFound) : Failure :=
  .api (modelNotFoundError error.message
    (error.details.map fun entry => (entry.1, .texts entry.2)))

/-! ## Running a model -/

variable (engine : Engine Session Tensor Logits Score)

/-- The tensor of an image, unless Pillow refuses to open it. -/
def preprocessImage (limit : ℤ) (imageSize : ℤ) (image : Bytes) : Except Failure Tensor :=
  match engine.open limit image with
  | .error .unidentified => .error (.other "UnidentifiedImageError")
  | .error .bomb => .error (.other "DecompressionBombError")
  | .error .other => .error (.other "Exception")
  | .ok _ => engine.pixels image imageSize

/-- `ModelService.run`. -/
def runModel (model : LoadedModel Session) (batch : List Tensor) : Except Failure (List Logits) :=
  match engine.run model.session model.inputName batch with
  | .error _ => .error (.api (modelUnavailableError "The model failed to execute this request." []))
  | .ok (rows :: _) => .ok rows
  | .ok [] => .error (.other "IndexError: list index out of range")

/-- Decode the images and run them at once. -/
def runBatch (limit : ℤ) (model : LoadedModel Session) (images : List Bytes) :
    Except Failure (List Logits) := do
  let batch ← images.mapM (preprocessImage engine limit model.imageSize)
  if batch = [] then .error (.value "Cannot stack an empty batch")
  else runModel engine model batch

/-- The probability of a prediction, if it is asked for. -/
def shownProbability (includeProbabilities : Bool) (score : Score) : Option Score :=
  if includeProbabilities then some (engine.round6 score) else none

/-- `values[index]`. -/
def subscript (values : Json ℚ) (index : ℕ) : Except Failure (Json ℚ) :=
  match values.item? index, values with
  | some item, _ => .ok item
  | none, .array _ => .error (.other "IndexError: list index out of range")
  | none, .string _ => .error (.other "IndexError: string index out of range")
  | none, .object _ => .error (.other ("KeyError: " ++ toString index))
  | none, _ => .error (.other "TypeError: object is not subscriptable")

/-- `wnids[index] if index < len(wnids) else None`. -/
def wnidFor (wnids : Json ℚ) (index : ℕ) : Except Failure (Json ℚ) :=
  match wnids.len? with
  | none => .error (.other "TypeError: object has no len()")
  | some size => if index < size then subscript wnids index else .ok .null

/-- One prediction; a label or an identifier that is no text, and a probability outside the unit
interval, is a `ValidationError`. -/
def predictionFor (model : LoadedModel Session) (includeProbabilities : Bool)
    (entry : Score × ℕ) : Except Failure (Prediction Score) := do
  let label ← subscript model.classNames entry.2
  let wnid ← wnidFor model.wnids entry.2
  let probability := shownProbability engine includeProbabilities entry.1
  match label.text?, wnid.optionalText?, probability.all engine.unitInterval with
  | some label, some wnid, true => .ok ⟨label, entry.2, wnid, probability⟩
  | _, _, _ => .error (.value "validation error for Prediction")

/-- The predictions of a ranking, in its order. -/
def predictionsFor (model : LoadedModel Session) (includeProbabilities : Bool) :
    List (Score × ℕ) → Except Failure (List (Prediction Score))
  | [] => .ok []
  | entry :: entries => do
      let prediction ← predictionFor engine model includeProbabilities entry
      let predictions ← predictionsFor model includeProbabilities entries
      .ok (prediction :: predictions)

/-- Rank the logits and name the classes. -/
def decodeClassification (model : LoadedModel Session) (topKResults : ℤ)
    (includeProbabilities : Bool) (logits : Logits) : Except Failure (List (Prediction Score)) := do
  let entries ← engine.topK (engine.softmax logits) topKResults
  predictionsFor engine model includeProbabilities entries

/-! ## The result cache -/

/-- What `build_key` makes a digest of. -/
structure CacheKey where
  image : Bytes
  modelName : String
  modelVersion : String
  backend : InferenceBackend
  topK : ℤ
  includeProbabilities : Bool
deriving DecidableEq

/-- The predictions stored under a key, if any. -/
abbrev Cache (Score : Type) := CacheKey → Option (List (Prediction Score))

/-- The key of a request: the image, the model and the options. -/
def cacheKey (model : LoadedModel Session) (image : Bytes) (topKResults : ℤ)
    (includeProbabilities : Bool) : CacheKey :=
  ⟨image, model.name, model.version, model.backend, topKResults, includeProbabilities⟩

/-! ## Classification -/

/-- `_run_batch` and `_decode_classification` for a single image. -/
def predict (limit : ℤ) (model : LoadedModel Session) (image : Bytes) (topKResults : ℤ)
    (includeProbabilities : Bool) : Except Failure (List (Prediction Score)) := do
  match ← runBatch engine limit model [image] with
  | logits :: _ => decodeClassification engine model topKResults includeProbabilities logits
  | [] => .error (.other "IndexError: index 0 is out of bounds for axis 0 with size 0")

/-- `InferenceService.classify`, with the cache after it. -/
def InferenceService.classify (service : InferenceService Session) (cache : Cache Score)
    (image : Bytes) (topKResults : ℤ) (modelVersion : Option String)
    (backend : Option InferenceBackend) (includeProbabilities useCache : Bool) :
    Except Failure (ClassificationResponse Score × Cache Score) := do
  let _ ← (validateImageUpload engine.toPillow service.pillowLimit image
    service.limits.maxUploadBytes service.limits.maxImagePixels).mapError Failure.api
  let model ← (service.models.getForBackend classifierName modelVersion backend).mapError
    notFoundFailure
  let key := cacheKey model image topKResults includeProbabilities
  match if useCache then cache key else none with
  | some predictions =>
      .ok (⟨predictions, model.name, model.version, model.backend, true⟩, cache)
  | none => do
      let predictions ← predict engine service.pillowLimit model image topKResults
        includeProbabilities
      .ok (⟨predictions, model.name, model.version, model.backend, false⟩,
        if useCache then Function.update cache key (some predictions) else cache)

/-- What happens to the cache of the API: requests, and entries that expire or are evicted. -/
inductive CacheEvent where
  | classify (image : Bytes) (topKResults : ℤ) (modelVersion : Option String)
      (backend : Option InferenceBackend) (includeProbabilities useCache : Bool)
  | drop (dropped : CacheKey → Bool)

/-- A request leaves what it has cached. -/
def cacheStep (service : InferenceService Session) (cache : Cache Score) :
    CacheEvent → Option (Cache Score)
  | .classify image topKResults modelVersion backend includeProbabilities useCache =>
      match service.classify engine cache image topKResults modelVersion backend
          includeProbabilities useCache with
      | .ok answered => some answered.2
      | .error _ => some cache
  | .drop dropped => some fun key => if dropped key then none else cache key

/-- Validate all images, resolve the model once and run them in one batch. -/
def InferenceService.classifyMany (service : InferenceService Session) (images : List Bytes)
    (topKResults : ℤ) (modelVersion : Option String) (includeProbabilities : Bool) :
    Except Failure (List (List (Prediction Score))) :=
  if images = [] then .ok []
  else if (images.length : ℤ) > service.limits.maxBatchSize then
    .error (.api (batchTooLargeError
      ("Batch of " ++ toString images.length ++ " exceeds the limit of " ++
        toString service.limits.maxBatchSize ++ ".")
      [("submitted", .number images.length), ("max", .number service.limits.maxBatchSize)]))
  else do
    let _ ← images.mapM fun image =>
      (validateImageUpload engine.toPillow service.pillowLimit image
        service.limits.maxUploadBytes service.limits.maxImagePixels).mapError Failure.api
    let model ← (service.models.get classifierName modelVersion).mapError notFoundFailure
    let rows ← runBatch engine service.pillowLimit model images
    rows.mapM (decodeClassification engine model topKResults includeProbabilities)

/-- One entry of `summarise_predictions`. -/
structure SummaryEntry (Score : Type) where
  label : String
  classId : ℤ
  probability : Option Score
deriving DecidableEq

/-- The compact summary of the predictions of an image. -/
def summarisePredictions (predictions : List (Prediction Score)) : List (SummaryEntry Score) :=
  predictions.map fun prediction =>
    ⟨prediction.label, prediction.classId, prediction.probability⟩

/-! ## The pipeline of one image -/

variable {engine} {limit : ℤ} {model : LoadedModel Session} {image : Bytes} {topKResults : ℤ}
  {includeProbabilities : Bool}

/-- The first output of every graph has a row for each image of the batch. -/
def RowPerImage (engine : Engine Session Tensor Logits Score) : Prop :=
  ∀ session input batch rows rest,
    engine.run session input batch = .ok (rows :: rest) → rows.length = batch.length

/-- One class or more is ranked where one or more is asked for. -/
def RanksSome (engine : Engine Session Tensor Logits Score) : Prop :=
  ∀ probabilities k entries, 1 ≤ k → engine.topK probabilities k = .ok entries → entries ≠ []

/-- A single image has a single row. -/
theorem runBatch_singleton (rowPerImage : RowPerImage engine) {rows : List Logits}
    (ran : runBatch engine limit model [image] = .ok rows) : ∃ logits, rows = [logits] := by
  simp only [runBatch, bind_ok_iff, mapM_singleton_ok_iff] at ran
  rcases ran with ⟨_, ⟨tensor, _, rfl⟩, ran⟩
  simp only [reduceCtorEq, if_false, runModel] at ran
  split at ran
  · cases ran
  · rename_i found rest returned
    cases ran
    exact List.length_eq_one_iff.mp (rowPerImage _ _ _ _ _ returned)
  · cases ran

/-- A batch runs exactly if it is not empty, its images decode and the session runs. -/
theorem runBatch_ok_iff {images : List Bytes} {rows : List Logits} :
    runBatch engine limit model images = .ok rows ↔
      images ≠ [] ∧ ∃ batch,
        images.mapM (preprocessImage engine limit model.imageSize) = .ok batch ∧
          runModel engine model batch = .ok rows := by
  simp only [runBatch, bind_ok_iff]
  constructor
  · rintro ⟨batch, preprocessed, ran⟩
    split at ran
    · cases ran
    · rename_i nonempty
      refine ⟨?_, batch, preprocessed, ran⟩
      rintro rfl
      cases preprocessed
      exact nonempty rfl
  · rintro ⟨nonempty, batch, preprocessed, ran⟩
    refine ⟨batch, preprocessed, ?_⟩
    rw [if_neg]
    · exact ran
    · rintro rfl
      exact nonempty (List.forall₂_nil_right_iff.mp (mapM_ok_iff.mp preprocessed))

/-- A batch fails as one of its images, or as the model. -/
theorem runBatch_error {images : List Bytes} {failure : Failure}
    (raised : runBatch engine limit model images = .error failure) :
    (∃ image, engine.pixels image model.imageSize = .error failure) ∨
      ∀ error, failure = .api error → error.code = "model_unavailable" := by
  simp only [runBatch, bind_error_iff, mapM_error_iff] at raised
  rcases raised with ⟨_, image, _, _, _, unreadable⟩ | ⟨batch, _, raised⟩
  · simp only [preprocessImage] at unreadable
    split at unreadable
    · cases unreadable
      exact Or.inr nofun
    · cases unreadable
      exact Or.inr nofun
    · cases unreadable
      exact Or.inr nofun
    · exact Or.inl ⟨image, unreadable⟩
  · right
    split at raised
    · cases raised
      exact nofun
    · simp only [runModel] at raised
      split at raised
      · cases raised
        rintro error ⟨⟩
        rfl
      · cases raised
      · cases raised
        exact nofun

/-- The pipeline gives the predictions of the first row. -/
theorem predict_ok_iff {predictions : List (Prediction Score)} :
    predict engine limit model image topKResults includeProbabilities = .ok predictions ↔
      ∃ logits others, runBatch engine limit model [image] = .ok (logits :: others) ∧
        decodeClassification engine model topKResults includeProbabilities logits =
          .ok predictions := by
  simp only [predict, bind_ok_iff]
  constructor
  · rintro ⟨rows, ran, decoded⟩
    cases rows with
    | nil => cases decoded
    | cons logits others => exact ⟨logits, others, ran, decoded⟩
  · rintro ⟨logits, others, ran, decoded⟩
    exact ⟨logits :: others, ran, decoded⟩

/-- Where Pillow has room, a valid image is preprocessed the same under any limit. -/
theorem predict_limit {data : Bytes} {maxBytes maxPixels : ℤ} {metadata : ImageMetadata}
    (valid : Valid engine.toPillow data maxBytes maxPixels metadata) {other : ℤ}
    (roomy : Roomy limit maxPixels) (otherRoomy : Roomy other maxPixels) :
    predict engine limit model data topKResults includeProbabilities =
      predict engine other model data topKResults includeProbabilities := by
  have same : preprocessImage engine limit model.imageSize data =
      preprocessImage engine other model.imageSize data := by
    rcases valid.open_ok roomy with ⟨header, opened⟩
    rcases valid.open_ok otherRoomy with ⟨otherHeader, otherOpened⟩
    simp only [preprocessImage, opened, otherOpened]
  simp only [predict, runBatch, List.mapM_cons, List.mapM_nil, same]

/-! ## Probabilities on request -/

/-- A prediction that does not show its probability. -/
def Prediction.withoutProbability (prediction : Prediction Score) : Prediction Score :=
  { prediction with probability := none }

theorem subscript_ok_iff {values item : Json ℚ} {index : ℕ} :
    subscript values index = .ok item ↔ values.item? index = some item := by
  simp only [subscript]
  cases values.item? index with
  | none => cases values <;> simp
  | some found => simp

theorem wnidFor_ok_iff {wnid : Json ℚ} {index : ℕ} :
    wnidFor model.wnids index = .ok wnid ↔
      ∃ size, model.wnids.len? = some size ∧
        if index < size then model.wnids.item? index = some wnid else wnid = .null := by
  simp only [wnidFor]
  cases model.wnids.len? with
  | none => simp
  | some size =>
      simp only [Option.some.injEq, exists_eq_left']
      split
      · exact subscript_ok_iff
      · rw [Except.ok.injEq, eq_comm]

theorem wnid?_eq_some_iff {index : ℕ} {text : Option String} :
    model.wnid? index = some text ↔
      ∃ wnid, wnidFor model.wnids index = .ok wnid ∧ wnid.optionalText? = some text := by
  simp only [LoadedModel.wnid?, wnidFor_ok_iff]
  cases model.wnids.len? with
  | none => simp
  | some size =>
      simp only [Option.some.injEq, exists_eq_left']
      split
      · exact Option.bind_eq_some_iff
      · rw [exists_eq_left]
        rfl

/-- A prediction is made of its score, its class name and its WordNet id. -/
theorem predictionFor_ok_iff {entry : Score × ℕ} {prediction : Prediction Score} :
    predictionFor engine model includeProbabilities entry = .ok prediction ↔
      (shownProbability engine includeProbabilities entry.1).all engine.unitInterval = true ∧
        ∃ label wnid, model.className? entry.2 = some label ∧ model.wnid? entry.2 = some wnid ∧
          prediction = ⟨label, entry.2, wnid,
            shownProbability engine includeProbabilities entry.1⟩ := by
  simp only [predictionFor, bind_ok_iff, subscript_ok_iff, LoadedModel.className?,
    Option.bind_eq_some_iff, wnid?_eq_some_iff]
  constructor
  · rintro ⟨name, isName, value, isValue, returned⟩
    split at returned
    · rename_i label wnid isLabel isWnid inside
      cases returned
      exact ⟨inside, label, wnid, ⟨name, isName, isLabel⟩, ⟨value, isValue, isWnid⟩, rfl⟩
    · cases returned
  · rintro ⟨inside, label, wnid, ⟨name, isName, isLabel⟩, ⟨value, isValue, isWnid⟩, rfl⟩
    refine ⟨name, isName, value, isValue, ?_⟩
    simp only [isLabel, isWnid, inside]

theorem subscript_error {values : Json ℚ} {index : ℕ} {failure : Failure}
    (raised : subscript values index = .error failure) (error : ApiError) :
    failure ≠ .api error := by
  simp only [subscript] at raised
  split at raised <;> cases raised <;> exact nofun

/-- No error of the API is raised where a prediction is made. -/
theorem predictionFor_error {entry : Score × ℕ} {failure : Failure}
    (raised : predictionFor engine model includeProbabilities entry = .error failure)
    (error : ApiError) : failure ≠ .api error := by
  simp only [predictionFor, bind_error_iff] at raised
  rcases raised with raised | ⟨_, _, raised | ⟨_, _, raised⟩⟩
  · exact subscript_error raised error
  · simp only [wnidFor] at raised
    split at raised
    · cases raised
      exact nofun
    · split at raised
      · exact subscript_error raised error
      · cases raised
  · split at raised
    · cases raised
    · cases raised
      exact nofun

/-- No error of the API is raised where the predictions are made. -/
theorem predictionsFor_error {entries : List (Score × ℕ)} {failure : Failure}
    (raised : predictionsFor engine model includeProbabilities entries = .error failure)
    (error : ApiError) : failure ≠ .api error := by
  induction entries with
  | nil => cases raised
  | cons entry entries ih =>
      simp only [predictionsFor, bind_error_iff] at raised
      rcases raised with raised | ⟨_, _, raised | ⟨_, _, ⟨⟩⟩⟩
      · exact predictionFor_error raised error
      · exact ih raised

/-- Leaving the probabilities out changes nothing else. -/
theorem predictionsFor_without {entries : List (Score × ℕ)}
    {predictions : List (Prediction Score)}
    (decoded : predictionsFor engine model true entries = .ok predictions) :
    predictionsFor engine model false entries =
      .ok (predictions.map Prediction.withoutProbability) := by
  induction entries generalizing predictions with
  | nil =>
      cases decoded
      rfl
  | cons entry entries ih =>
      simp only [predictionsFor, bind_ok_iff] at decoded ⊢
      rcases decoded with ⟨prediction, isPrediction, rest, isRest, returned⟩
      cases returned
      refine ⟨prediction.withoutProbability, ?_, _, ih isRest, rfl⟩
      rcases predictionFor_ok_iff.mp isPrediction with ⟨_, label, wnid, isLabel, isWnid, rfl⟩
      exact predictionFor_ok_iff.mpr ⟨rfl, label, wnid, isLabel, isWnid, rfl⟩

theorem predictionsFor_probabilities {entries : List (Score × ℕ)}
    {predictions : List (Prediction Score)}
    (decoded : predictionsFor engine model includeProbabilities entries = .ok predictions) :
    predictions.length = entries.length ∧ ∀ prediction ∈ predictions,
      prediction.probability.isSome = includeProbabilities := by
  induction entries generalizing predictions with
  | nil =>
      cases decoded
      exact ⟨rfl, by simp⟩
  | cons entry entries ih =>
      simp only [predictionsFor, bind_ok_iff] at decoded
      rcases decoded with ⟨prediction, isPrediction, rest, isRest, returned⟩
      cases returned
      rcases ih isRest with ⟨lengths, probabilities⟩
      refine ⟨by simp [lengths], ?_⟩
      intro other otherMem
      rcases List.mem_cons.mp otherMem with rfl | later
      · rcases predictionFor_ok_iff.mp isPrediction with ⟨_, label, wnid, _, _, rfl⟩
        cases includeProbabilities with
        | true => rfl
        | false => rfl
      · exact probabilities other later

/-- Predictions exist, and have probabilities exactly on request. -/
theorem predict_probabilities (ranksSome : RanksSome engine)
    {predictions : List (Prediction Score)} (positive : 1 ≤ topKResults)
    (predicted : predict engine limit model image topKResults includeProbabilities =
      .ok predictions) :
    predictions ≠ [] ∧ ∀ prediction ∈ predictions,
      prediction.probability.isSome = includeProbabilities := by
  rcases predict_ok_iff.mp predicted with ⟨logits, _, _, decoded⟩
  simp only [decodeClassification, bind_ok_iff] at decoded
  rcases decoded with ⟨entries, ranked, decoded⟩
  rcases predictionsFor_probabilities decoded with ⟨lengths, probabilities⟩
  refine ⟨?_, probabilities⟩
  rintro rfl
  exact ranksSome _ _ _ positive ranked (List.eq_nil_of_length_eq_zero lengths.symm)

theorem predict_without {predictions : List (Prediction Score)}
    (predicted : predict engine limit model image topKResults true = .ok predictions) :
    predict engine limit model image topKResults false =
      .ok (predictions.map Prediction.withoutProbability) := by
  rcases predict_ok_iff.mp predicted with ⟨logits, others, ran, decoded⟩
  apply predict_ok_iff.mpr
  refine ⟨logits, others, ran, ?_⟩
  simp only [decodeClassification, bind_ok_iff] at decoded ⊢
  rcases decoded with ⟨entries, ranked, decoded⟩
  exact ⟨entries, ranked, predictionsFor_without decoded⟩

/-! ## The service on one image -/

section Service

variable {service : InferenceService Session} {cache : Cache Score} {modelVersion : Option String}

/-- The image is valid, the version resolves to a model, and the model gives the predictions. -/
def Serves (engine : Engine Session Tensor Logits Score) (service : InferenceService Session)
    (image : Bytes) (topKResults : ℤ) (modelVersion : Option String) (includeProbabilities : Bool)
    (predictions : List (Prediction Score)) : Prop :=
  (∃ metadata, Valid engine.toPillow image service.limits.maxUploadBytes
    service.limits.maxImagePixels metadata) ∧
  ∃ model, service.models.get classifierName modelVersion = .ok model ∧
    predict engine service.pillowLimit model image topKResults includeProbabilities =
      .ok predictions

/-- A request is answered in one way. -/
theorem Serves.unique {predictions others : List (Prediction Score)}
    (serves : Serves engine service image topKResults modelVersion includeProbabilities
      predictions)
    (alsoServes : Serves engine service image topKResults modelVersion includeProbabilities
      others) : predictions = others := by
  rcases serves with ⟨_, model, resolved, predicted⟩
  rcases alsoServes with ⟨_, other, alsoResolved, alsoPredicted⟩
  cases resolved.symm.trans alsoResolved
  exact Except.ok.inj (predicted.symm.trans alsoPredicted)

/-- What is served with probabilities is served without them. -/
theorem Serves.without {predictions : List (Prediction Score)}
    (serves : Serves engine service image topKResults modelVersion true predictions) :
    Serves engine service image topKResults modelVersion false
      (predictions.map Prediction.withoutProbability) := by
  rcases serves with ⟨valid, model, resolved, predicted⟩
  exact ⟨valid, model, resolved, predict_without predicted⟩

/-- Summaries with and without probabilities differ. -/
theorem Serves.summary_ne (ranksSome : RanksSome engine) (positive : 1 ≤ topKResults)
    {predictions others : List (Prediction Score)}
    (serves : Serves engine service image topKResults modelVersion true predictions)
    (alsoServes : Serves engine service image topKResults modelVersion false others) :
    summarisePredictions predictions ≠ summarisePredictions others := by
  rcases serves with ⟨_, _, _, predicted⟩
  rcases alsoServes with ⟨_, _, _, alsoPredicted⟩
  rcases predict_probabilities ranksSome positive predicted with ⟨nonempty, shown⟩
  rcases predict_probabilities ranksSome positive alsoPredicted with ⟨_, hidden⟩
  intro same
  cases predictions with
  | nil => exact nonempty rfl
  | cons prediction predictions =>
      cases others with
      | nil => cases same
      | cons other others =>
          have isShown := shown prediction List.mem_cons_self
          have isHidden := hidden other List.mem_cons_self
          simp only [summarisePredictions, List.map_cons, List.cons.injEq,
            SummaryEntry.mk.injEq] at same
          rw [same.1.2.2, isHidden] at isShown
          cases isShown

theorem classifyMany_singleton_ok_iff (rowPerImage : RowPerImage engine)
    (roomy : Roomy service.pillowLimit service.limits.maxImagePixels)
    (oneFits : 1 ≤ service.limits.maxBatchSize) {all : List (List (Prediction Score))} :
    service.classifyMany engine [image] topKResults modelVersion includeProbabilities = .ok all ↔
      ∃ predictions, all = [predictions] ∧
        Serves engine service image topKResults modelVersion includeProbabilities predictions := by
  have fits : ¬((([image] : List Bytes).length : ℤ) > service.limits.maxBatchSize) := by
    simpa using oneFits
  simp only [InferenceService.classifyMany, reduceCtorEq, if_false, fits, bind_ok_iff,
    mapM_singleton_ok_iff, mapError_ok_iff, validateImageUpload_ok_iff roomy, Serves,
    predict_ok_iff]
  constructor
  · rintro ⟨_, ⟨metadata, valid, _⟩, model, resolved, rows, ran, decoded⟩
    rcases runBatch_singleton rowPerImage ran with ⟨logits, rfl⟩
    rcases mapM_singleton_ok_iff.mp decoded with ⟨predictions, isDecoded, rfl⟩
    exact ⟨predictions, rfl, ⟨metadata, valid⟩, model, resolved, logits, [], ran, isDecoded⟩
  · rintro ⟨predictions, rfl, ⟨metadata, valid⟩, model, resolved, logits, others, ran, decoded⟩
    rcases runBatch_singleton rowPerImage ran with ⟨_, isOne⟩
    cases isOne
    exact ⟨[metadata], ⟨metadata, valid, rfl⟩, model, resolved, [logits], ran,
      mapM_singleton_ok_iff.mpr ⟨predictions, decoded, rfl⟩⟩

/-- Every entry is what the model of its key gives. -/
def Cache.Faithful (engine : Engine Session Tensor Logits Score)
    (service : InferenceService Session) (cache : Cache Score) : Prop :=
  ∀ key predictions, cache key = some predictions →
    ∃ model, service.models.models.get? (key.modelName ++ ":" ++ key.modelVersion) =
        some model ∧
      predict engine service.pillowLimit model key.image key.topK key.includeProbabilities =
        .ok predictions

theorem faithful_empty : Cache.Faithful engine service (fun _ => none : Cache Score) := by
  rintro key predictions ⟨⟩

/-- With a faithful cache `classify` answers what the pipeline serves, and leaves the cache
faithful. -/
theorem classify_ok (keyed : service.models.Keyed) (faithful : cache.Faithful engine service)
    (roomy : Roomy service.pillowLimit service.limits.maxImagePixels)
    {backend : Option InferenceBackend} {useCache : Bool}
    {response : ClassificationResponse Score} {next : Cache Score}
    (answered : service.classify engine cache image topKResults modelVersion backend
      includeProbabilities useCache = .ok (response, next)) :
    Serves engine service image topKResults modelVersion includeProbabilities
      response.predictions ∧ next.Faithful engine service := by
  simp only [InferenceService.classify, bind_ok_iff, mapError_ok_iff,
    validateImageUpload_ok_iff roomy] at answered
  rcases answered with ⟨metadata, valid, model, isModel, answered⟩
  have resolved := get_of_getForBackend isModel
  have found := get?_key_of_get keyed resolved
  split at answered
  · rename_i predictions hit
    cases answered
    refine ⟨⟨⟨metadata, valid⟩, model, resolved, ?_⟩, faithful⟩
    have stored : cache (cacheKey model image topKResults includeProbabilities) =
        some predictions := by
      cases useCache with
      | true => exact hit
      | false => cases hit
    rcases faithful _ _ stored with ⟨other, isOther, predicted⟩
    cases found.symm.trans isOther
    exact predicted
  · simp only [bind_ok_iff] at answered
    rcases answered with ⟨predictions, predicted, answered⟩
    cases answered
    refine ⟨⟨⟨metadata, valid⟩, model, resolved, predicted⟩, ?_⟩
    cases useCache with
    | false => exact faithful
    | true =>
        intro key stored isStored
        by_cases same : key = cacheKey model image topKResults includeProbabilities
        · subst same
          simp only [if_true, Function.update_self, Option.some.injEq] at isStored
          subst isStored
          exact ⟨model, found, predicted⟩
        · simp only [if_true, Function.update_of_ne same] at isStored
          exact faithful key stored isStored

/-- Every cache a deployment reaches is faithful. -/
theorem faithful_of_reachable (keyed : service.models.Keyed)
    (roomy : Roomy service.pillowLimit service.limits.maxImagePixels)
    (reached : Reachable (cacheStep engine service) (fun _ => none) cache) :
    cache.Faithful engine service := by
  apply reached.invariant faithful_empty
  intro before event after faithful _ stepped
  cases event with
  | classify image topKResults modelVersion backend includeProbabilities useCache =>
      simp only [cacheStep] at stepped
      split at stepped
      · rename_i answered isAnswered
        cases stepped
        exact (classify_ok keyed faithful roomy isAnswered).2
      · cases stepped
        exact faithful
  | drop dropped =>
      cases stepped
      intro key predictions isStored
      simp only [Option.ite_none_left_eq_some] at isStored
      exact faithful key predictions isStored.2

/-- What the pipeline serves is answered. -/
theorem classify_of_serves (useCache : Bool) (keyed : service.models.Keyed)
    (faithful : cache.Faithful engine service)
    (roomy : Roomy service.pillowLimit service.limits.maxImagePixels)
    {predictions : List (Prediction Score)}
    (serves : Serves engine service image topKResults modelVersion includeProbabilities
      predictions) :
    ∃ response next, service.classify engine cache image topKResults modelVersion none
        includeProbabilities useCache = .ok (response, next) ∧
      response.predictions = predictions := by
  rcases serves with ⟨⟨metadata, valid⟩, model, resolved, predicted⟩
  have found := get?_key_of_get keyed resolved
  cases lookup : (if useCache then cache (cacheKey model image topKResults includeProbabilities)
      else none) with
  | none =>
      refine ⟨⟨predictions, model.name, model.version, model.backend, false⟩,
        if useCache then
          Function.update cache (cacheKey model image topKResults includeProbabilities)
            (some predictions)
        else cache, ?_, rfl⟩
      simp only [InferenceService.classify, bind_ok_iff, mapError_ok_iff, getForBackend_none,
        validateImageUpload_ok_iff roomy]
      refine ⟨metadata, valid, model, resolved, ?_⟩
      rw [lookup]
      simp only [bind_ok_iff]
      exact ⟨predictions, predicted, rfl⟩
  | some stored =>
      refine ⟨⟨stored, model.name, model.version, model.backend, true⟩, cache, ?_, ?_⟩
      · simp only [InferenceService.classify, bind_ok_iff, mapError_ok_iff, getForBackend_none,
          validateImageUpload_ok_iff roomy]
        refine ⟨metadata, valid, model, resolved, ?_⟩
        rw [lookup]
      · have isStored : cache (cacheKey model image topKResults includeProbabilities) =
            some stored := by
          cases useCache with
          | true => exact lookup
          | false => cases lookup
        rcases faithful _ _ isStored with ⟨other, isOther, otherPredicted⟩
        cases found.symm.trans isOther
        exact Except.ok.inj (otherPredicted.symm.trans predicted)

end Service

end VisionApi.Inference
