import VisionApi.Inference.Service

/-!
# Batch jobs and the synchronous endpoints

The API and the worker load models from the same artefacts.  A batch request is
turned into a job by `submit_batch`, and the job is run item by item by
`process_batch`; an endpoint answers one upload at once.

A host is what both processes share: settings, files, the model runtime and the
pipelines behind it.  The API loads the default classifier and, where they are there,
more versions, the detector and the embedder; the worker loads the default classifier
only.  The request models carry the bounds that Pydantic checks as fields, so that a
request that exists is one the schema accepts.

What the network yields for a URL is an argument: a response with its body and the
length it declares, which need not agree, or a failure.  The options of a job are the
dictionary that `model_dump` makes of the classification options.  An item that fails
is reported with a code and a message and does not stop the job.
-/

namespace VisionApi.Batch

open Foundation Models Inference

variable {Session Tensor Logits Score Detected Similar : Type}

/-! ## Requests -/

/-- The options of a classification, with the bounds that the schema checks. -/
structure ClassificationOptions where
  topK : ℤ := 5
  modelVersion : Option String := none
  includeProbabilities : Bool := true
  topK_bounds : 1 ≤ topK ∧ topK ≤ 100 := by decide

/-- The options of a detection, with the bounds that the schema checks. -/
structure DetectionOptions where
  confidenceThreshold : ℚ := 1 / 2
  maxDetections : ℤ := 100
  modelVersion : Option String := none
  threshold_bounds : 0 ≤ confidenceThreshold ∧ confidenceThreshold ≤ 1 := by norm_num
  maxDetections_bounds : 1 ≤ maxDetections ∧ maxDetections ≤ 1000 := by decide

/-- An image to fetch over HTTP. -/
structure BatchItem where
  imageUrl : String
  itemId : Option String := none
  scheme : "http://".toList <+: imageUrl.toList ∨ "https://".toList <+: imageUrl.toList

/-- A job as a client asks for it. -/
structure BatchRequest where
  task : TaskType := .classification
  items : List BatchItem
  classificationOptions : Option ClassificationOptions := none
  detectionOptions : Option DetectionOptions := none
  items_nonempty : items ≠ []

/-- The classification options of a request, or their defaults. -/
def BatchRequest.classification (payload : BatchRequest) : ClassificationOptions :=
  payload.classificationOptions.getD {}

/-- The detection options of a request, or their defaults. -/
def BatchRequest.detection (payload : BatchRequest) : DetectionOptions :=
  payload.detectionOptions.getD {}

/-! ## A deployment -/

/-- The outcome of `load_detector`. -/
structure Detector (Session : Type) where
  model : LoadedModel Session
  name_eq : model.name = detectorName

/-- What the API and the worker have in common: the libraries, the settings and the artefacts.
`extras` are the versions `discover_versions` lists, `similarityIndex` tells whether the similarity
index loads; `detect` and `search` run a detector or an embedder on a valid image. -/
structure Host (Session Tensor Logits Score Detected Similar : Type) where
  engine : Engine Session Tensor Logits Score
  runtime : Runtime Session
  files : Files
  settings : Settings
  limits : Limits
  extras : List String
  detector : Option (Detector Session)
  similarityIndex : Bool
  detect : LoadedModel Session → Bytes → ℚ → ℤ → Except Failure Detected
  search : LoadedModel Session → Bytes → Except Failure Similar

/-- The services on the state of the API. -/
structure Api (Session : Type) where
  inference : InferenceService Session
  detection : Bool
  similarity : Bool

/-- Load the versions besides the default one; those that fail are skipped. -/
def loadExtras (runtime : Runtime Session) (files : Files) :
    List String → ModelService Session → ModelService Session
  | [], service => service
  | extra :: extras, service =>
      if extra = defaultVersion then loadExtras runtime files extras service
      else
        match service.loadClassifier runtime files classifierName extra false with
        | .ok (_, next) => loadExtras runtime files extras next
        | .error _ => loadExtras runtime files extras service

/-- Load the detector; the detection service needs it. -/
def addDetector (host : Host Session Tensor Logits Score Detected Similar)
    (service : ModelService Session) : ModelService Session × Bool :=
  match host.detector with
  | some detector => (service.register detector.model true, true)
  | none => (service, false)

/-- Load the embedder; the similarity service needs it and the index. -/
def addEmbedder (host : Host Session Tensor Logits Score Detected Similar)
    (service : ModelService Session) : ModelService Session × Bool :=
  match service.loadEmbedder host.runtime host.files embedderName defaultVersion true with
  | .ok (_, next) => (next, host.similarityIndex)
  | .error _ => (service, false)

/-- The services `lifespan` builds. -/
def startApi (host : Host Session Tensor Logits Score Detected Similar) :
    Except LoadError (Api Session) := do
  let (_, service) ← (⟨host.settings, [], []⟩ : ModelService Session).loadClassifier host.runtime
    host.files classifierName defaultVersion true
  let (service, detection) := addDetector host
    (loadExtras host.runtime host.files host.extras service)
  let (service, similarity) := addEmbedder host service
  .ok ⟨⟨service, host.limits, host.limits.maxImagePixels⟩, detection, similarity⟩

/-- `_get_services` of the worker. -/
def getServices (host : Host Session Tensor Logits Score Detected Similar) :
    Except LoadError (InferenceService Session) := do
  let (_, service) ← (⟨host.settings, [], []⟩ : ModelService Session).loadClassifier host.runtime
    host.files classifierName defaultVersion true
  .ok ⟨service, host.limits, defaultMaxImagePixels⟩

/-! ## The synchronous endpoints -/

/-- The bytes of an upload that is not too large. -/
def readUpload (maxBytes : ℤ) (file : Bytes) : Except Failure Bytes :=
  if (file.length : ℤ) > maxBytes then
    .error (.api (payloadTooLargeError
      ("Upload exceeds the " ++ mebibytes maxBytes ++ " MiB limit.")
      [("max_bytes", .number maxBytes)]))
  else
    .ok file

section Endpoints

variable (host : Host Session Tensor Logits Score Detected Similar) (api : Api Session)

/-- `classify_image` without experiments and with no pinned backend. -/
def classifyImage (cache : Cache Score) (file : Bytes) (options : ClassificationOptions)
    (useCache : Bool) : Except Failure (ClassificationResponse Score × Cache Score) := do
  let image ← readUpload host.limits.maxUploadBytes file
  match api.inference.classify host.engine cache image options.topK options.modelVersion none
      options.includeProbabilities useCache with
  | .ok answered => .ok answered
  | .error failure => do
      let _ ← (api.inference.models.get classifierName options.modelVersion).mapError
        notFoundFailure
      .error failure

/-- `detect_objects`; its own cap on `max_detections` is lower than that of the schema. -/
def detectObjects (file : Bytes) (options : DetectionOptions) : Except Failure Detected :=
  if options.maxDetections > 300 then
    .error (.value "Input should be less than or equal to 300")
  else if !api.detection then
    .error (.api (modelUnavailableError ("No detection model is deployed in this environment. " ++
      "Classification is available at POST /api/v1/classify.") []))
  else do
    let image ← readUpload host.limits.maxUploadBytes file
    let _ ← (validateImageUpload host.engine.toPillow api.inference.pillowLimit image
      host.limits.maxUploadBytes host.limits.maxImagePixels).mapError Failure.api
    let model ← (api.inference.models.get detectorName options.modelVersion).mapError
      notFoundFailure
    host.detect model image options.confidenceThreshold options.maxDetections

/-- `find_similar` with its default options. -/
def findSimilar (file : Bytes) : Except Failure Similar :=
  if !api.similarity then
    .error (.api (modelUnavailableError ("Similarity search is not available in this " ++
      "environment. Build the index with `python scripts/build_similarity_index.py`.") []))
  else do
    let image ← readUpload host.limits.maxUploadBytes file
    let _ ← (validateImageUpload host.engine.toPillow api.inference.pillowLimit image
      host.limits.maxUploadBytes host.limits.maxImagePixels).mapError Failure.api
    let model ← (api.inference.models.get embedderName none).mapError notFoundFailure
    host.search model image

end Endpoints

/-- What a synchronous endpoint answers. -/
inductive Answer (Score Detected Similar : Type) where
  | classification (response : ClassificationResponse Score)
  | detection (response : Detected)
  | similarity (response : Similar)

/-- The compact summary of an answer; only predictions have one. -/
def Answer.summary : Answer Score Detected Similar → Option (List (SummaryEntry Score))
  | .classification response => some (summarisePredictions response.predictions)
  | .detection _ | .similarity _ => none

/-- The endpoint of a task, with the options of a batch request. -/
def synchronous (host : Host Session Tensor Logits Score Detected Similar) (api : Api Session)
    (cache : Cache Score) (payload : BatchRequest) (file : Bytes) :
    Except Failure (Answer Score Detected Similar) :=
  match payload.task with
  | .classification =>
      (classifyImage host api cache file payload.classification true).map
        fun answered => .classification answered.1
  | .detection => (detectObjects host api file payload.detection).map .detection
  | .embedding => (findSimilar host api file).map .similarity

/-! ## Submission -/

/-- A value of the options of a job, which are JSON. -/
inductive OptionValue where
  | number (value : ℤ)
  | text (value : String)
  | flag (value : Bool)

/-- The dictionary of options that is sent to the worker. -/
abbrev JobOptions := Dict String OptionValue

/-- `model_dump(exclude_none=True)`. -/
def ClassificationOptions.dump (options : ClassificationOptions) : JobOptions :=
  [("top_k", .number options.topK)] ++
    (options.modelVersion.toList.map fun version => ("model_version", .text version)) ++
    [("include_probabilities", .flag options.includeProbabilities)]

/-- What the worker is given. -/
structure Job where
  items : List BatchItem
  taskType : TaskType
  options : JobOptions

/-- `submit_batch` up to the job it enqueues. -/
def submitBatch (limits : Limits) (payload : BatchRequest) : Except ApiError Job :=
  let maxItems := limits.maxBatchSize * 10
  if (payload.items.length : ℤ) > maxItems then
    .error (batchTooLargeError
      ("Batch contains " ++ toString payload.items.length ++ " items; the maximum is " ++
        toString maxItems ++ ".")
      [("submitted", .number payload.items.length), ("max_items", .number maxItems)])
  else
    .ok ⟨payload.items, payload.task, (payload.classificationOptions.map
      ClassificationOptions.dump).getD []⟩

/-! ## The worker -/

/-- A response to the fetch of an image: the length that is declared for the transfer, and the body
as the client decodes it, which an encoded transfer makes longer or shorter than that. -/
structure Fetched where
  declared : Option ℕ
  body : Bytes

/-- No declared length is above the limit. -/
def Fetched.Fits (maxBytes : ℤ) (fetched : Fetched) : Prop :=
  ∀ size ∈ fetched.declared, (size : ℤ) ≤ maxBytes

/-- `_fetch_image`, given what the request leads to. -/
def fetchImage (maxBytes : ℤ) (response : Except Failure Fetched) : Except Failure Bytes := do
  let fetched ← response
  match fetched.declared.filter fun size : ℕ => (size : ℤ) > maxBytes with
  | some size =>
      .error (.value ("Image is " ++ toString size ++ " bytes, exceeding the " ++
        toString maxBytes ++ " byte limit"))
  | none =>
      if (fetched.body.length : ℤ) > maxBytes then
        .error (.value ("Image exceeds the " ++ toString maxBytes ++ " byte limit"))
      else
        .ok fetched.body

/-- How a failed item is explained. -/
structure ErrorObject where
  code : String
  message : String
deriving DecidableEq

/-- The code and the message of a failure. -/
def describeError : Failure → ErrorObject
  | .api error => ⟨error.code, error.message⟩
  | .httpStatus status =>
      ⟨"fetch_failed", "The image URL returned HTTP " ++ toString status ++ "."⟩
  | .request => ⟨"fetch_failed", "The image URL could not be reached."⟩
  | .value message => ⟨"invalid_image", message⟩
  | .other _ => ⟨"internal_error", "The item could not be processed."⟩

/-- Whether an item was classified. -/
inductive ItemStatus where
  | succeeded
  | failed
deriving DecidableEq

/-- The entry of an item in the results. -/
structure ItemResult (Score : Type) where
  itemId : Option String
  imageUrl : String
  status : ItemStatus
  result : Option (List (SummaryEntry Score))
  error : Option ErrorObject

/-- `options.get("top_k", 5)`. -/
def JobOptions.topK (options : JobOptions) : ℤ :=
  match options.get? "top_k" with
  | some (.number value) => value
  | _ => 5

/-- `options.get("model_version")`. -/
def JobOptions.modelVersion (options : JobOptions) : Option String :=
  match options.get? "model_version" with
  | some (.text version) => some version
  | _ => none

/-- The attempt on one item, whatever the task of the job is. -/
def attemptItem (engine : Engine Session Tensor Logits Score)
    (inference : InferenceService Session) (options : JobOptions)
    (response : Except Failure Fetched) : Except Failure (List (SummaryEntry Score)) := do
  let image ← fetchImage inference.limits.maxUploadBytes response
  let predictions ← inference.classifyMany engine [image] options.topK options.modelVersion true
  match predictions with
  | first :: _ => .ok (summarisePredictions first)
  | [] => .error (.other "IndexError: list index out of range")

/-- The entry that an attempt leads to. -/
def itemResult (item : BatchItem) :
    Except Failure (List (SummaryEntry Score)) → ItemResult Score
  | .ok summary => ⟨item.itemId, item.imageUrl, .succeeded, some summary, none⟩
  | .error failure => ⟨item.itemId, item.imageUrl, .failed, none, some (describeError failure)⟩

/-- What the worker returns. -/
structure BatchSummary (Score : Type) where
  task : TaskType
  totalItems : ℕ
  completedItems : ℕ
  failedItems : ℕ
  results : List (ItemResult Score)

/-- `process_batch`; `network` tells what the request for a URL leads to. -/
def processBatch (host : Host Session Tensor Logits Score Detected Similar)
    (network : String → Except Failure Fetched) (job : Job) :
    Except LoadError (BatchSummary Score) := do
  let inference ← getServices host
  let results := job.items.map fun item =>
    itemResult item (attemptItem host.engine inference job.options (network item.imageUrl))
  .ok ⟨job.taskType, job.items.length,
    results.countP fun entry => entry.status = .succeeded,
    results.countP fun entry => entry.status = .failed, results⟩

end VisionApi.Batch
