import VisionApi.Inference.ResultCache

/-!
# Classification with its cache and its audit trail

`InferenceService.classify` in the steps between which other requests may run:
what it works with, the cached predictions, the run of the model.  Each part
says which audit records it queues.

A request is resolved first: the upload is validated and the model looked up, and both
raise before anything is audited.  What is then known is an `Attempt`.  It reads the
cache, serves what is cached or runs the model, and writes the cache; the answer of an
attempt is its response or failure together with the records it queued and the payload
it has for the cache.

The cache is threaded through as an optional store with the faults of its operations,
which is what a call without other requests sees.  The engine, the library and the
store are parameters; the small service at the end is an instance of all of them, on
which the examples of later files run.
-/

namespace VisionApi.Inference

open Foundation Models

variable {Session Tensor Logits Score : Type}

/-! ## Audit records -/

/-- Whether an attempt has succeeded, as it is audited. -/
inductive Status where
  | success
  | failure
deriving DecidableEq

/-- The fields of one `AuditService.record` call, except the latency. -/
structure AuditRecord (Score : Type) where
  correlationId : String
  userId : Option String
  userTier : Option String
  modelName : String
  modelVersion : String
  backend : InferenceBackend
  task : TaskType
  status : Status
  errorCode : Option String
  cached : Bool
  batchSize : ℕ
  imageSha256 : String
  variant : Json Score
  imageBytes : ℕ
  imageWidth : ℕ
  imageHeight : ℕ
  imageFormat : String
  topLabel : Option String
  topClassId : Option ℤ
  topProbability : Option Score

/-- `getattr(exc, "code", type(exc).__name__)`. -/
def Failure.code : Failure → String
  | .api error => error.code
  | .httpStatus _ => "HTTPStatusError"
  | .request => "RequestError"
  | .value _ => "ValueError"
  | .other message => String.ofList (message.toList.takeWhile fun char => char ≠ ':')

/-! ## Requests -/

/-- The arguments of `classify`. -/
structure Request (Score : Type) where
  image : Bytes
  correlationId : String
  topKResults : ℤ
  modelVersion : Option String
  backend : Option InferenceBackend
  includeProbabilities : Bool
  useCache : Bool
  userId : Option String
  userTier : Option String
  variant : Json Score

/-- `ClassificationResponse` with its provenance, except the latency. -/
structure Response (Score : Type) extends ClassificationResponse Score where
  correlationId : String

/-- A request that passed validation and resolved to a model. -/
structure Attempt (Session Score : Type) where
  request : Request Score
  metadata : ImageMetadata
  model : LoadedModel Session
  imageSha256 : String
  cacheKey : String

/-- What an attempt answers, the records it queues and the payload it has to store. -/
structure Answer (Score : Type) where
  response : Except Failure (Response Score)
  records : List (AuditRecord Score)
  toStore : Option (Json Score)

/-- `classify` up to the cache. -/
def InferenceService.resolve (service : InferenceService Session)
    (engine : Engine Session Tensor Logits Score) (lib : Library Score) (request : Request Score) :
    Except Failure (Attempt Session Score) := do
  let metadata ← (validateImageUpload engine.toPillow service.pillowLimit request.image
    service.limits.maxUploadBytes service.limits.maxImagePixels).mapError Failure.api
  let model ← (service.models.getForBackend classifierName request.modelVersion
    request.backend).mapError notFoundFailure
  .ok
    { request, metadata, model
      imageSha256 := lib.sha256 request.image
      cacheKey := lib.buildKey request.image model.name model.version model.backend.value
        (requestOptions request.topKResults request.includeProbabilities) }

namespace Attempt

/-- The record of an attempt. -/
def audit (attempt : Attempt Session Score) (predictions : List (Prediction Score)) (cached : Bool)
    (status : Status) (errorCode : Option String) : AuditRecord Score :=
  let top := predictions.head?
  { correlationId := attempt.request.correlationId
    userId := attempt.request.userId
    userTier := attempt.request.userTier
    modelName := attempt.model.name
    modelVersion := attempt.model.version
    backend := attempt.model.backend
    task := attempt.model.task
    status, errorCode, cached
    batchSize := 1
    imageSha256 := attempt.imageSha256
    variant := attempt.request.variant
    imageBytes := attempt.metadata.sizeBytes
    imageWidth := attempt.metadata.width
    imageHeight := attempt.metadata.height
    imageFormat := attempt.metadata.format
    topLabel := top.map Prediction.label
    topClassId := top.map Prediction.classId
    topProbability := top.bind Prediction.probability }

/-- The response of an attempt. -/
def respond (attempt : Attempt Session Score) (predictions : List (Prediction Score))
    (cached : Bool) : Response Score :=
  { predictions, cached
    modelName := attempt.model.name
    modelVersion := attempt.model.version
    backend := attempt.model.backend
    correlationId := attempt.request.correlationId }

/-- `classify` on a cached payload. -/
def serveCached (attempt : Attempt Session Score) (lib : Library Score) (payload : Json Score) :
    Answer Score :=
  match lib.rebuild payload with
  | .error failure => ⟨.error failure, [], none⟩
  | .ok predictions =>
      ⟨.ok (attempt.respond predictions true), [attempt.audit predictions true .success none],
        none⟩

/-- `_decode_classification` of the first row. -/
def decodeFirst (attempt : Attempt Session Score) (engine : Engine Session Tensor Logits Score) :
    List Logits → Except Failure (List (Prediction Score))
  | logits :: _ =>
      decodeClassification engine attempt.model attempt.request.topKResults
        attempt.request.includeProbabilities logits
  | [] => .error (.other "IndexError: index 0 is out of bounds for axis 0 with size 0")

/-- `classify` where nothing is cached: only the run is inside the `try`. -/
def run (attempt : Attempt Session Score) (engine : Engine Session Tensor Logits Score)
    (limit : ℤ) : Answer Score :=
  match runBatch engine limit attempt.model [attempt.request.image] with
  | .error failure =>
      ⟨.error failure, [attempt.audit [] false .failure (some failure.code)], none⟩
  | .ok rows =>
      match attempt.decodeFirst engine rows with
      | .error failure => ⟨.error failure, [], none⟩
      | .ok predictions =>
          ⟨.ok (attempt.respond predictions false),
            [attempt.audit predictions false .success none],
            if attempt.request.useCache then some (payloadOf predictions) else none⟩

/-- The cache read of an attempt, if it uses the cache. -/
def readCache (attempt : Attempt Session Score) (lib : Library Score) (cache : Option Store)
    (faults : Faults) : Except Failure (Option (Json Score)) × Option Store :=
  if attempt.request.useCache then lib.cacheGet cache faults attempt.cacheKey
  else (.ok none, cache)

/-- What follows the cache read. -/
def answer (attempt : Attempt Session Score) (engine : Engine Session Tensor Logits Score)
    (lib : Library Score) (limit : ℤ) : Option (Json Score) → Answer Score
  | some payload => attempt.serveCached lib payload
  | none => attempt.run engine limit

/-- `classify` after its cache read: the response, the records and the cache. -/
def conclude (attempt : Attempt Session Score) (engine : Engine Session Tensor Logits Score)
    (lib : Library Score) (limit : ℤ) (faults : Faults) :
    Except Failure (Option (Json Score)) × Option Store →
      Except Failure (Response Score) × List (AuditRecord Score) × Option Store
  | (.error failure, cache) => (.error failure, [], cache)
  | (.ok cached, cache) =>
      let answer := attempt.answer engine lib limit cached
      (answer.response, answer.records,
        match answer.toStore with
        | none => cache
        | some payload => lib.cacheSet cache faults attempt.cacheKey payload)

end Attempt

/-- `InferenceService.classify`, with the audit records it queues and the cache after it. -/
def InferenceService.classifyAudited (service : InferenceService Session)
    (engine : Engine Session Tensor Logits Score) (lib : Library Score) (cache : Option Store)
    (faults : Faults) (request : Request Score) :
    Except Failure (Response Score) × List (AuditRecord Score) × Option Store :=
  match service.resolve engine lib request with
  | .error failure => (.error failure, [], cache)
  | .ok attempt =>
      attempt.conclude engine lib service.pillowLimit faults
        (attempt.readCache lib cache faults)

/-! ## What an attempt works with -/

section Admitted

variable {service : InferenceService Session} {engine : Engine Session Tensor Logits Score}
  {lib : Library Score} {request : Request Score} {attempt : Attempt Session Score}

/-- A request is admitted exactly if its upload is valid and its model is found. -/
theorem resolve_ok_iff : service.resolve engine lib request = .ok attempt ↔
    ∃ metadata model,
      validateImageUpload engine.toPillow service.pillowLimit request.image
        service.limits.maxUploadBytes service.limits.maxImagePixels = .ok metadata ∧
      service.models.getForBackend classifierName request.modelVersion request.backend =
        .ok model ∧
      attempt =
        { request, metadata, model
          imageSha256 := lib.sha256 request.image
          cacheKey := lib.buildKey request.image model.name model.version model.backend.value
            (requestOptions request.topKResults request.includeProbabilities) } := by
  simp only [InferenceService.resolve, bind_ok_iff, mapError_ok_iff, Except.ok.injEq]
  constructor
  · rintro ⟨metadata, valid, model, resolved, rfl⟩
    exact ⟨metadata, model, valid, resolved, rfl⟩
  · rintro ⟨metadata, model, valid, resolved, rfl⟩
    exact ⟨metadata, valid, model, resolved, rfl⟩

theorem request_of_resolve (admitted : service.resolve engine lib request = .ok attempt) :
    attempt.request = request := by
  rcases resolve_ok_iff.mp admitted with ⟨_, _, _, _, rfl⟩
  rfl

/-- The model of an attempt is the one the registry gives. -/
theorem model_of_resolve (admitted : service.resolve engine lib request = .ok attempt) :
    service.models.getForBackend classifierName request.modelVersion request.backend =
      .ok attempt.model := by
  rcases resolve_ok_iff.mp admitted with ⟨_, _, _, resolved, rfl⟩
  exact resolved

/-- The key of an attempt is that of its image, model and parameters. -/
theorem cacheKey_of_resolve (admitted : service.resolve engine lib request = .ok attempt) :
    attempt.cacheKey = lib.buildKey request.image attempt.model.name attempt.model.version
      attempt.model.backend.value
      (requestOptions request.topKResults request.includeProbabilities) := by
  rcases resolve_ok_iff.mp admitted with ⟨_, _, _, _, rfl⟩
  rfl

end Admitted

/-! ## A small service -/

/-- An engine that finds class 0 on every image. -/
def smallEngine : Engine Unit Unit Unit ℕ where
  header := fun _ => .ok ⟨some "JPEG", 64, 64, "RGB"⟩
  pixels := fun _ _ => .ok ()
  run := fun _ _ batch => .ok [batch]
  softmax := id
  topK := fun _ _ => .ok [(1, 0)]
  round6 := id
  unitInterval := fun score => Nat.ble score 1

/-- A model of one class. -/
def smallModel : LoadedModel Unit where
  name := classifierName
  version := "v1"
  task := .classification
  backend := .onnx
  session := ()
  inputName := "input"
  classNames := .texts ["goldfish"]
  wnids := .texts ["n01443537"]
  imageSize := 64
  artifactPath := ["onnx", "classifier_fp32.onnx"]
  metrics := []
  degradedFrom := none
  labelsPath := ["labels.json"]
  metricsPath := none

/-- A service with this model. -/
def smallService : InferenceService Unit where
  models := ⟨⟨[], .onnx, true⟩, [("tiny-imagenet-classifier:v1", smallModel)],
    [("tiny-imagenet-classifier", "v1")]⟩
  limits := ⟨10485760, 25000000, 32⟩
  pillowLimit := 25000000

/-- Whole floats. -/
def smallFloats : Json.FloatText ℕ where
  write := fun value => Nat.toDigits 10 value ++ ['.', '0']
  read := fun token => Json.readNat (token.takeWhile Char.isDigit)

/-- An optional text field. -/
def smallText : Option (Json ℕ) → Option (Option String)
  | some (.string text) => some (some text)
  | some .null | none => some none
  | _ => none

/-- An optional probability of zero or one. -/
def smallProbability : Option (Json ℕ) → Option (Option ℕ)
  | some (.float value) => if value ≤ 1 then some (some value) else none
  | some .null | none => some none
  | _ => none

/-- Fields of the very types of a prediction. -/
def smallPrediction (members : List (String × Json ℕ)) : Except Failure (Prediction ℕ) :=
  match Dict.get? members "label", Dict.get? members "class_id",
    smallText (Dict.get? members "wnid"),
    smallProbability (Dict.get? members "probability") with
  | some (.string label), some (.int classId), some wnid, some probability =>
      .ok ⟨label, classId, wnid, probability⟩
  | _, _, _, _ => .error (.value "validation error for Prediction")

/-- The digests of the image `[0]` and of the options of `smallRequest`. -/
def smallDigest (bytes : Bytes) : String :=
  if bytes = [0] then "6e340b9cffb37a989ca544e6bb780a2c78901d3fb33738768511a30617afa01d"
  else "60a894ef336bd53e6466d929742146638a96b463732bba7e52e14755f0055e9a"

/-- JSON texts and one digest for all images. -/
def smallLibrary : Library ℕ :=
  .ofText smallFloats smallPrediction smallDigest

/-- A request for one prediction. -/
def smallRequest : Request ℕ where
  image := [0]
  correlationId := "c"
  topKResults := 1
  modelVersion := none
  backend := none
  includeProbabilities := true
  useCache := true
  userId := none
  userTier := none
  variant := .null

end VisionApi.Inference
