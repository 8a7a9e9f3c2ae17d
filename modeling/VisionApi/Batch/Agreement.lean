import VisionApi.Batch.Process

/-!
# Batch and synchronous answers

The worker knows the default version of the classifier only, classifies
whatever the task is, always includes the probabilities, and refuses a response
for the length it declares.  Its entry for an item agrees with the endpoint of
the task exactly when none of this matters.

The two sides run one engine on one set of files, so that agreement comes down
to which models their registries hold, which limits apply and which options
reach the pipeline.  `Services` collects what the start of either side
guarantees; the results cache of the endpoint changes no answer, as every entry
in it is one the pipeline gave.
-/

namespace VisionApi.Batch

open Foundation Models Inference

variable {Session Tensor Logits Score Detected Similar : Type}

/-! ## The two registries -/

theorem versionKey_injective (name : String) :
    Function.Injective fun version : String => name ++ ":" ++ version := by
  intro version other same
  have chars := congrArg String.toList same
  simp only [String.toList_append, List.append_cancel_left_eq] at chars
  exact String.toList_injective chars

theorem classifierKey_ne_detector (version other : String) :
    classifierName ++ ":" ++ version ≠ detectorName ++ ":" ++ other := by
  intro same
  have chars := congrArg String.toList same
  simp [classifierName, detectorName] at chars

theorem classifierKey_ne_embedder (version other : String) :
    classifierName ++ ":" ++ version ≠ embedderName ++ ":" ++ other := by
  intro same
  have chars := congrArg String.toList same
  simp [classifierName, embedderName] at chars

/-- The default version of the classifier is registered and active. -/
structure HasDefault (service : ModelService Session) (model : LoadedModel Session) : Prop where
  keyed : service.Keyed
  default : service.models.get? (classifierName ++ ":" ++ defaultVersion) = some model
  active : service.active.get? classifierName = some defaultVersion

section Registry

variable {service : ModelService Session} {model : LoadedModel Session}

/-- The default classifier is found under the default version, however it is asked for. -/
theorem HasDefault.get (hasDefault : HasDefault service model) {version : Option String}
    (isDefault : resolved version defaultVersion = defaultVersion) :
    service.get classifierName version = .ok model := by
  rw [get_ok_iff hasDefault.active, isDefault]
  exact hasDefault.default

theorem HasDefault.loadExtras (hasDefault : HasDefault service model) (runtime : Runtime Session)
    (files : Files) (extras : List String) :
    HasDefault (Batch.loadExtras runtime files extras service) model := by
  induction extras generalizing service with
  | nil => exact hasDefault
  | cons extra extras ih =>
      simp only [Batch.loadExtras]
      split
      · exact ih hasDefault
      · rename_i notDefault
        split
        · rename_i loadedModel next loaded
          rcases loadLabelled_ok loaded with ⟨isName, isVersion, rfl⟩
          apply ih
          refine ⟨hasDefault.keyed.register _ _, ?_, active_register_false hasDefault.active _⟩
          rw [get?_register_ne]
          · exact hasDefault.default
          · rw [LoadedModel.key, isName, isVersion]
            intro same
            exact notDefault (versionKey_injective classifierName same).symm
        · exact ih hasDefault

/-- Registering a model of another name keeps the default version. -/
theorem HasDefault.register (hasDefault : HasDefault service model) {other : LoadedModel Session}
    (otherName : classifierName ≠ other.name)
    (otherKey : classifierName ++ ":" ++ defaultVersion ≠ other.key) (makeActive : Bool) :
    HasDefault (service.register other makeActive) model := by
  refine ⟨hasDefault.keyed.register _ _, ?_, ?_⟩
  · rw [get?_register_ne otherKey]
    exact hasDefault.default
  · rw [active_register_ne otherName]
    exact hasDefault.active

theorem HasDefault.addDetector (hasDefault : HasDefault service model)
    (host : Host Session Tensor Logits Score Detected Similar) :
    HasDefault (Batch.addDetector host service).1 model := by
  simp only [Batch.addDetector]
  split
  · rename_i detector _
    apply hasDefault.register
    · rw [detector.name_eq]
      decide
    · rw [LoadedModel.key, detector.name_eq]
      exact classifierKey_ne_detector _ _
  · exact hasDefault

theorem HasDefault.addEmbedder (hasDefault : HasDefault service model)
    (host : Host Session Tensor Logits Score Detected Similar) :
    HasDefault (Batch.addEmbedder host service).1 model := by
  simp only [Batch.addEmbedder]
  split
  · rename_i embedder next loaded
    rcases loadLabelled_ok loaded with ⟨isName, _, rfl⟩
    apply hasDefault.register
    · rw [isName]
      decide
    · rw [LoadedModel.key, isName]
      exact classifierKey_ne_embedder _ _
  · exact hasDefault

end Registry

/-- The registry of the worker, which is the one the API starts with. -/
theorem hasDefault_first {settings : Settings} {runtime : Runtime Session} {files : Files}
    {model : LoadedModel Session} {service : ModelService Session}
    (loaded : (⟨settings, [], []⟩ : ModelService Session).loadClassifier runtime files
      classifierName defaultVersion true = .ok (model, service)) :
    HasDefault service model ∧ ∀ version found,
      service.get classifierName version = .ok found →
        resolved version defaultVersion = defaultVersion := by
  rcases loadLabelled_ok loaded with ⟨isName, isVersion, rfl⟩
  have isKey : model.key = classifierName ++ ":" ++ defaultVersion := by
    rw [LoadedModel.key, isName, isVersion]
  have active : ((⟨settings, [], []⟩ : ModelService Session).register model true).active.get?
      classifierName = some defaultVersion := by
    simp [ModelService.register, isName, isVersion]
  refine ⟨⟨(keyed_empty settings).register model true, ?_, active⟩, ?_⟩
  · rw [← isKey]
    exact get?_register_self _ _ _
  · intro version found isFound
    rw [get_ok_iff active] at isFound
    by_contra notDefault
    rw [get?_register_ne] at isFound
    · cases isFound
    · rw [isKey]
      intro same
      exact notDefault (versionKey_injective classifierName same)

/-- The services of the API and of the worker, over one default model. -/
structure Services (host : Host Session Tensor Logits Score Detected Similar)
    (api : Api Session) (worker : InferenceService Session) (model : LoadedModel Session) :
    Prop where
  apiDefault : HasDefault api.inference.models model
  apiLimits : api.inference.limits = host.limits
  apiPillow : api.inference.pillowLimit = host.limits.maxImagePixels
  workerDefault : HasDefault worker.models model
  workerOnly : ∀ version found, worker.models.get classifierName version = .ok found →
    resolved version defaultVersion = defaultVersion
  workerLimits : worker.limits = host.limits
  workerPillow : worker.pillowLimit = defaultMaxImagePixels

variable {host : Host Session Tensor Logits Score Detected Similar} {api : Api Session}
  {worker : InferenceService Session} {model : LoadedModel Session}

/-- Where the API has started, the worker starts and both have the default classifier. -/
theorem services_of_started (started : startApi host = .ok api) :
    ∃ worker model, getServices host = .ok worker ∧ Services host api worker model := by
  simp only [startApi, bind_ok_iff] at started
  rcases started with ⟨⟨model, first⟩, loaded, started⟩
  rcases hasDefault_first loaded with ⟨workerDefault, workerOnly⟩
  refine ⟨⟨first, host.limits, defaultMaxImagePixels⟩, model, ?_, ?_⟩
  · simp only [getServices, bind_ok_iff]
    exact ⟨(model, first), loaded, rfl⟩
  · cases started
    have apiDefault := ((workerDefault.loadExtras host.runtime host.files host.extras).addDetector
      host).addEmbedder host
    exact ⟨apiDefault, rfl, rfl, workerDefault, workerOnly, rfl, rfl⟩

/-! ## One item -/

theorem Services.apiRoomy (services : Services host api worker model) :
    Roomy api.inference.pillowLimit host.limits.maxImagePixels := by
  rw [services.apiPillow]
  exact roomy_api _

theorem Services.ownRoomy (services : Services host api worker model) :
    Roomy api.inference.pillowLimit api.inference.limits.maxImagePixels := by
  rw [services.apiLimits]
  exact services.apiRoomy

theorem Services.workerRoomy (services : Services host api worker model) :
    Roomy worker.pillowLimit host.limits.maxImagePixels := by
  rw [services.workerPillow]
  exact roomy_worker _

/-- The worker serves what the API serves when the version is the default one. -/
theorem Services.serves_worker_iff (services : Services host api worker model) {image : Bytes}
    {topK : ℤ} {version : Option String} {includeProbabilities : Bool}
    {predictions : List (Prediction Score)} :
    Serves host.engine worker image topK version includeProbabilities predictions ↔
      resolved version defaultVersion = defaultVersion ∧
        Serves host.engine api.inference image topK version includeProbabilities predictions := by
  simp only [Serves, services.workerLimits, services.apiLimits]
  constructor
  · rintro ⟨⟨metadata, valid⟩, found, isFound, predicted⟩
    have isDefault := services.workerOnly version found isFound
    cases (services.workerDefault.get isDefault).symm.trans isFound
    rw [predict_limit valid services.workerRoomy services.apiRoomy] at predicted
    exact ⟨isDefault, ⟨metadata, valid⟩, model, services.apiDefault.get isDefault, predicted⟩
  · rintro ⟨isDefault, ⟨metadata, valid⟩, found, isFound, predicted⟩
    cases (services.apiDefault.get isDefault).symm.trans isFound
    rw [predict_limit valid services.apiRoomy services.workerRoomy] at predicted
    exact ⟨⟨metadata, valid⟩, model, services.workerDefault.get isDefault, predicted⟩

theorem fetchImage_ok_iff {maxBytes : ℤ} {fetched : Fetched} {image : Bytes} :
    fetchImage maxBytes (.ok fetched) = .ok image ↔
      fetched.Fits maxBytes ∧ (fetched.body.length : ℤ) ≤ maxBytes ∧ image = fetched.body := by
  simp only [fetchImage, bind, Except.bind]
  split
  · rename_i size isLarge
    rcases Option.filter_eq_some_iff.mp isLarge with ⟨isDeclared, large⟩
    simp only [decide_eq_true_eq] at large
    simp only [reduceCtorEq, false_iff, not_and]
    intro fits
    exact absurd (fits size isDeclared) (Int.not_le.mpr large)
  · rename_i noLarge
    have fits : fetched.Fits maxBytes := by
      intro size isDeclared
      have notLarge := Option.filter_eq_none_iff.mp noLarge size isDeclared
      simpa using notLarge
    split
    · simp only [reduceCtorEq, false_iff, not_and]
      omega
    · rename_i notLarge
      simp only [Except.ok.injEq]
      constructor
      · rintro rfl
        exact ⟨fits, by omega, rfl⟩
      · exact fun same => same.2.2.symm

/-- An attempt gives a summary exactly if the worker serves the response. -/
theorem attemptItem_ok_iff (rowPerImage : RowPerImage host.engine)
    (services : Services host api worker model) (oneFits : 1 ≤ host.limits.maxBatchSize)
    {options : JobOptions} {fetched : Fetched} {summary : List (SummaryEntry Score)} :
    attemptItem host.engine worker options (.ok fetched) = .ok summary ↔
      fetched.Fits host.limits.maxUploadBytes ∧
        ∃ predictions, summary = summarisePredictions predictions ∧
          Serves host.engine worker fetched.body options.topK options.modelVersion true
            predictions := by
  have roomy : Roomy worker.pillowLimit worker.limits.maxImagePixels := by
    rw [services.workerLimits]
    exact services.workerRoomy
  have fits : 1 ≤ worker.limits.maxBatchSize := by
    rw [services.workerLimits]
    exact oneFits
  simp only [attemptItem, bind_ok_iff, fetchImage_ok_iff,
    classifyMany_singleton_ok_iff rowPerImage roomy fits]
  rw [← services.workerLimits]
  constructor
  · rintro ⟨_, ⟨declares, _, rfl⟩, _, ⟨predictions, rfl, serves⟩, returned⟩
    cases returned
    exact ⟨declares, predictions, rfl, serves⟩
  · rintro ⟨declares, predictions, rfl, serves⟩
    rcases serves.1 with ⟨metadata, valid⟩
    exact ⟨_, ⟨declares, valid.size, rfl⟩, _, ⟨predictions, rfl, serves⟩, rfl⟩

/-! ## Options -/

theorem submitBatch_ok {limits : Limits} {payload : BatchRequest} {job : Job}
    (submitted : submitBatch limits payload = .ok job) :
    1 ≤ limits.maxBatchSize ∧ job.items = payload.items ∧
      job.options.topK = payload.classification.topK ∧
      job.options.modelVersion = payload.classification.modelVersion := by
  have nonempty : 0 < payload.items.length := List.length_pos_iff.mpr payload.items_nonempty
  simp only [submitBatch] at submitted
  split at submitted
  · cases submitted
  · rename_i fits
    cases submitted
    refine ⟨by omega, rfl, ?_, ?_⟩
    · simp only [BatchRequest.classification]
      cases payload.classificationOptions with
      | none => rfl
      | some options => rfl
    · simp only [BatchRequest.classification]
      cases payload.classificationOptions with
      | none => rfl
      | some options =>
          rcases options with ⟨topK, version, includeProbabilities, bounds⟩
          cases version with
          | none => rfl
          | some version => rfl

/-! ## The endpoints -/

/-- The classifier of the API serves an image with some options. -/
def Classifies (host : Host Session Tensor Logits Score Detected Similar) (api : Api Session)
    (options : ClassificationOptions) (includeProbabilities : Bool) (image : Bytes) : Prop :=
  ∃ predictions, Serves host.engine api.inference image options.topK options.modelVersion
    includeProbabilities predictions

/-- An upload passes the checks of the API. -/
def Accepted (host : Host Session Tensor Logits Score Detected Similar) (image : Bytes) : Prop :=
  ∃ metadata, Valid host.engine.toPillow image host.limits.maxUploadBytes
    host.limits.maxImagePixels metadata

/-- The detector of the API serves an image with some options. -/
def Detects (host : Host Session Tensor Logits Score Detected Similar) (api : Api Session)
    (options : DetectionOptions) (image : Bytes) : Prop :=
  options.maxDetections ≤ 300 ∧ api.detection = true ∧ Accepted host image ∧
    ∃ model, api.inference.models.get detectorName options.modelVersion = .ok model ∧
      Succeeds (host.detect model image options.confidenceThreshold options.maxDetections)

/-- The similarity search of the API serves an image. -/
def FindsSimilar (host : Host Session Tensor Logits Score Detected Similar) (api : Api Session)
    (image : Bytes) : Prop :=
  api.similarity = true ∧ Accepted host image ∧
    ∃ model, api.inference.models.get embedderName none = .ok model ∧
      Succeeds (host.search model image)

/-- An upload is read as it is if it is not above the limit. -/
theorem readUpload_ok_iff {maxBytes : ℤ} {file image : Bytes} :
    readUpload maxBytes file = .ok image ↔ (file.length : ℤ) ≤ maxBytes ∧ image = file := by
  simp only [readUpload]
  split
  · simp only [reduceCtorEq, false_iff, not_and]
    omega
  · rename_i notLarge
    simp only [Except.ok.injEq]
    constructor
    · rintro rfl
      exact ⟨by omega, rfl⟩
    · exact fun same => same.2.symm

section Endpoints

variable {cache : Cache Score} {image : Bytes} {options : ClassificationOptions}

/-- `classify_image` answers what the pipeline serves, whatever a faithful cache holds. -/
theorem classifyImage_ok (services : Services host api worker model)
    (faithful : cache.Faithful host.engine api.inference)
    {answered : ClassificationResponse Score × Cache Score}
    (isAnswered : classifyImage host api cache image options true = .ok answered) :
    Serves host.engine api.inference image options.topK options.modelVersion
      options.includeProbabilities answered.1.predictions := by
  simp only [classifyImage, bind_ok_iff, readUpload_ok_iff] at isAnswered
  rcases isAnswered with ⟨_, ⟨_, rfl⟩, isAnswered⟩
  split at isAnswered
  · rename_i found isFound
    cases isAnswered
    exact (classify_ok services.apiDefault.keyed faithful services.ownRoomy isFound).1
  · simp [bind_ok_iff] at isAnswered

/-- Where the pipeline serves an upload, the endpoint answers with its predictions. -/
theorem classifyImage_of_serves (services : Services host api worker model)
    (faithful : cache.Faithful host.engine api.inference)
    {predictions : List (Prediction Score)}
    (serves : Serves host.engine api.inference image options.topK options.modelVersion
      options.includeProbabilities predictions) :
    ∃ answered, classifyImage host api cache image options true = .ok answered ∧
      answered.1.predictions = predictions := by
  rcases serves.1 with ⟨metadata, valid⟩
  rcases classify_of_serves true services.apiDefault.keyed faithful services.ownRoomy serves with
    ⟨response, next, isAnswered, same⟩
  refine ⟨(response, next), ?_, same⟩
  simp only [classifyImage, bind_ok_iff, readUpload_ok_iff]
  refine ⟨image, ⟨?_, rfl⟩, ?_⟩
  · rw [← services.apiLimits]
    exact valid.size
  · rw [isAnswered]

/-- A handler that reads and validates its upload, looks a model up and runs it. -/
theorem handler_succeeds_iff {Found : Type} (services : Services host api worker model)
    (name : String) (version : Option String)
    (run : LoadedModel Session → Bytes → Except Failure Found) :
    Succeeds (do
      let upload ← readUpload host.limits.maxUploadBytes image
      let _ ← (validateImageUpload host.engine.toPillow api.inference.pillowLimit upload
        host.limits.maxUploadBytes host.limits.maxImagePixels).mapError Failure.api
      let served ← (api.inference.models.get name version).mapError notFoundFailure
      run served upload) ↔
      Accepted host image ∧ ∃ served, api.inference.models.get name version = .ok served ∧
        Succeeds (run served image) := by
  simp only [Succeeds, Accepted, bind_ok_iff, readUpload_ok_iff, mapError_ok_iff,
    validateImageUpload_ok_iff services.apiRoomy]
  constructor
  · rintro ⟨found, _, ⟨_, rfl⟩, metadata, valid, served, isServed, returned⟩
    exact ⟨⟨metadata, valid⟩, served, isServed, found, returned⟩
  · rintro ⟨⟨metadata, valid⟩, served, isServed, found, returned⟩
    exact ⟨found, image, ⟨valid.size, rfl⟩, metadata, valid, served, isServed, returned⟩

theorem detectObjects_succeeds_iff (services : Services host api worker model)
    {options : DetectionOptions} :
    Succeeds (detectObjects host api image options) ↔ Detects host api options image := by
  unfold detectObjects Detects
  split
  · rename_i tooMany
    simp only [not_succeeds_error, false_iff, not_and]
    omega
  · rename_i few
    split
    · rename_i missing
      simp only [Bool.not_eq_true'] at missing
      simp [missing]
    · rename_i isThere
      simp only [Bool.not_eq_true', Bool.not_eq_false] at isThere
      rw [and_iff_right (Int.not_lt.mp few), and_iff_right isThere]
      exact handler_succeeds_iff services detectorName options.modelVersion fun served upload =>
        host.detect served upload options.confidenceThreshold options.maxDetections

theorem findSimilar_succeeds_iff (services : Services host api worker model) :
    Succeeds (findSimilar host api image) ↔ FindsSimilar host api image := by
  unfold findSimilar FindsSimilar
  split
  · rename_i missing
    simp only [Bool.not_eq_true'] at missing
    simp [missing]
  · rename_i isThere
    simp only [Bool.not_eq_true', Bool.not_eq_false] at isThere
    rw [and_iff_right isThere]
    exact handler_succeeds_iff services embedderName none host.search

end Endpoints

/-! ## Agreement -/

/-- An entry is succeeded exactly when there is an answer, and its result is then the summary of
the answer. -/
structure Agrees (entry : ItemResult Score)
    (answer : Except Failure (Answer Score Detected Similar)) : Prop where
  succeeded_iff : entry.status = .succeeded ↔ Succeeds answer
  result : ∀ given summary, answer = .ok given → entry.result = some summary →
    given.summary = some summary

/-- What the worker can serve: no length above the limit is declared, and no version is pinned that
it lacks. -/
def WorkerServes (host : Host Session Tensor Logits Score Detected Similar)
    (options : ClassificationOptions) (fetched : Fetched) : Prop :=
  fetched.Fits host.limits.maxUploadBytes ∧
    resolved options.modelVersion defaultVersion = defaultVersion

/-- A classification is one the worker can serve and asks for the probabilities, unless the endpoint
does not serve it; of any other task nothing is served, by the endpoint or by the classifier. -/
def Agreeable (host : Host Session Tensor Logits Score Detected Similar) (api : Api Session)
    (payload : BatchRequest) (fetched : Fetched) : Prop :=
  let options := payload.classification
  match payload.task with
  | .classification =>
      Classifies host api options options.includeProbabilities fetched.body →
        WorkerServes host options fetched ∧ options.includeProbabilities = true
  | .detection =>
      ¬(WorkerServes host options fetched ∧ Classifies host api options true fetched.body) ∧
        ¬Detects host api payload.detection fetched.body
  | .embedding =>
      ¬(WorkerServes host options fetched ∧ Classifies host api options true fetched.body) ∧
        ¬FindsSimilar host api fetched.body

/-- An entry has succeeded exactly if its attempt has. -/
theorem itemResult_succeeded_iff {item : BatchItem}
    {attempt : Except Failure (List (SummaryEntry Score))} :
    (itemResult item attempt).status = .succeeded ↔ Succeeds attempt := by
  cases attempt with
  | ok summary => exact iff_of_true rfl (succeeds_ok summary)
  | error failure => simp [itemResult]

/-- An entry shows the summary of its attempt. -/
theorem itemResult_result_iff {item : BatchItem}
    {attempt : Except Failure (List (SummaryEntry Score))} {summary : List (SummaryEntry Score)} :
    (itemResult item attempt).result = some summary ↔ attempt = .ok summary := by
  cases attempt with
  | ok found => simp [itemResult]
  | error failure => simp [itemResult]

/-- An answer without a summary agrees with an entry only when both fail. -/
theorem agrees_iff_of_no_summary {item : BatchItem}
    {attempt : Except Failure (List (SummaryEntry Score))}
    {answer : Except Failure (Answer Score Detected Similar)}
    (none : ∀ given, answer = .ok given → given.summary = none) :
    Agrees (itemResult item attempt) answer ↔ ¬Succeeds attempt ∧ ¬Succeeds answer := by
  constructor
  · intro agrees
    have both : ¬Succeeds attempt := by
      intro succeeds
      rcases agrees.succeeded_iff.mp (itemResult_succeeded_iff.mpr succeeds) with ⟨given, isGiven⟩
      rcases succeeds with ⟨summary, isSummary⟩
      have same := agrees.result given summary isGiven (itemResult_result_iff.mpr isSummary)
      rw [none given isGiven] at same
      cases same
    refine ⟨both, ?_⟩
    intro answered
    exact both (itemResult_succeeded_iff.mp (agrees.succeeded_iff.mpr answered))
  · rintro ⟨failed, notAnswered⟩
    refine ⟨?_, ?_⟩
    · rw [itemResult_succeeded_iff]
      exact iff_of_false failed notAnswered
    · intro given _ isGiven _
      exact absurd ⟨given, isGiven⟩ notAnswered

section Classification

variable {cache : Cache Score} {options : ClassificationOptions} {fetched : Fetched}
  {item : BatchItem} {jobOptions : JobOptions}

theorem attemptItem_succeeds_iff (rowPerImage : RowPerImage host.engine)
    (services : Services host api worker model) (oneFits : 1 ≤ host.limits.maxBatchSize)
    (sameTopK : jobOptions.topK = options.topK)
    (sameVersion : jobOptions.modelVersion = options.modelVersion) :
    Succeeds (attemptItem host.engine worker jobOptions (.ok fetched)) ↔
      WorkerServes host options fetched ∧ Classifies host api options true fetched.body := by
  simp only [Succeeds, attemptItem_ok_iff rowPerImage services oneFits,
    services.serves_worker_iff, sameTopK, sameVersion, Classifies, WorkerServes]
  constructor
  · rintro ⟨_, fits, predictions, rfl, isDefault, serves⟩
    exact ⟨⟨fits, isDefault⟩, predictions, serves⟩
  · rintro ⟨⟨fits, isDefault⟩, predictions, serves⟩
    exact ⟨_, fits, predictions, rfl, isDefault, serves⟩

/-- Where the endpoint serves what the worker would, both answer the same images. -/
theorem answers_iff (rowPerImage : RowPerImage host.engine)
    (services : Services host api worker model)
    (faithful : cache.Faithful host.engine api.inference)
    (oneFits : 1 ≤ host.limits.maxBatchSize) (sameTopK : jobOptions.topK = options.topK)
    (sameVersion : jobOptions.modelVersion = options.modelVersion)
    (condition : Classifies host api options options.includeProbabilities fetched.body →
      WorkerServes host options fetched ∧ options.includeProbabilities = true) :
    Succeeds (attemptItem host.engine worker jobOptions (.ok fetched)) ↔
      Succeeds (classifyImage host api cache fetched.body options true) := by
  rw [attemptItem_succeeds_iff rowPerImage services oneFits sameTopK sameVersion]
  constructor
  · rintro ⟨_, predictions, serves⟩
    have shown : Classifies host api options options.includeProbabilities fetched.body := by
      cases options.includeProbabilities with
      | true => exact ⟨predictions, serves⟩
      | false => exact ⟨_, serves.without⟩
    rcases shown with ⟨others, othersServe⟩
    rcases classifyImage_of_serves services faithful othersServe with ⟨answered, isAnswered, _⟩
    exact ⟨answered, isAnswered⟩
  · rintro ⟨answered, isAnswered⟩
    have serves := classifyImage_ok services faithful isAnswered
    rcases condition ⟨_, serves⟩ with ⟨workerServes, included⟩
    rw [included] at serves
    exact ⟨workerServes, _, serves⟩

theorem agrees_classification_iff (rowPerImage : RowPerImage host.engine)
    (ranksSome : RanksSome host.engine) (services : Services host api worker model)
    (faithful : cache.Faithful host.engine api.inference)
    (oneFits : 1 ≤ host.limits.maxBatchSize) (sameTopK : jobOptions.topK = options.topK)
    (sameVersion : jobOptions.modelVersion = options.modelVersion) :
    Agrees (itemResult item (attemptItem host.engine worker jobOptions (.ok fetched)))
        ((classifyImage host api cache fetched.body options true).map fun answered =>
          (.classification answered.1 : Answer Score Detected Similar)) ↔
      (Classifies host api options options.includeProbabilities fetched.body →
        WorkerServes host options fetched ∧ options.includeProbabilities = true) := by
  have attempt : Succeeds (attemptItem host.engine worker jobOptions (.ok fetched)) ↔ _ :=
    attemptItem_succeeds_iff rowPerImage services oneFits sameTopK sameVersion
  constructor
  · rintro agrees ⟨predictions, serves⟩
    rcases classifyImage_of_serves services faithful serves with ⟨answered, isAnswered, rfl⟩
    have succeeded := agrees.succeeded_iff.mpr (map_succeeds_iff.mpr ⟨answered, isAnswered⟩)
    rcases itemResult_succeeded_iff.mp succeeded with ⟨summary, isSummary⟩
    refine ⟨(attempt.mp ⟨summary, isSummary⟩).1, ?_⟩
    by_contra notIncluded
    simp only [Bool.not_eq_true] at notIncluded
    -- The worker shows probabilities that the endpoint leaves out.
    rcases (attemptItem_ok_iff rowPerImage services oneFits).mp isSummary with
      ⟨_, others, rfl, workerServes⟩
    have apiServes := (services.serves_worker_iff.mp workerServes).2
    rw [sameTopK, sameVersion] at apiServes
    rw [notIncluded] at serves
    have same := agrees.result (.classification answered.1) _
      (map_ok_iff.mpr ⟨answered, isAnswered, rfl⟩) (itemResult_result_iff.mpr isSummary)
    apply apiServes.summary_ne ranksSome options.topK_bounds.1 serves
    exact (Option.some.inj same).symm
  · intro condition
    have answers := answers_iff rowPerImage services faithful oneFits sameTopK sameVersion condition
    refine ⟨?_, ?_⟩
    · rw [itemResult_succeeded_iff, answers, map_succeeds_iff]
    · intro given summary isGiven isSummary
      rcases map_ok_iff.mp isGiven with ⟨answered, isAnswered, rfl⟩
      have serves := classifyImage_ok services faithful isAnswered
      have included := (condition ⟨_, serves⟩).2
      rw [included] at serves
      rcases (attemptItem_ok_iff rowPerImage services oneFits).mp
        (itemResult_result_iff.mp isSummary) with ⟨_, others, rfl, workerServes⟩
      have apiServes := (services.serves_worker_iff.mp workerServes).2
      rw [sameTopK, sameVersion] at apiServes
      rw [apiServes.unique serves]
      rfl

end Classification

/-! ## A whole job -/

section Jobs

variable {payload : BatchRequest} {cache : Cache Score}

/-- The entry of an item is that of one attempt, whatever the other items are. -/
theorem processBatch_entry (isWorker : getServices host = .ok worker)
    (network : String → Except Failure Fetched) {job : Job} {position : ℕ} {item : BatchItem}
    (isItem : job.items[position]? = some item) :
    ∃ summary, processBatch host network job = .ok summary ∧
      summary.results[position]? = some (itemResult item
        (attemptItem host.engine worker job.options (network item.imageUrl))) := by
  simp only [processBatch, bind_ok_iff]
  refine ⟨_, ⟨worker, isWorker, rfl⟩, ?_⟩
  rw [List.getElem?_map, isItem]
  rfl

/-- An attempt agrees with the endpoint of the task exactly when the request is agreeable. -/
theorem agrees_iff (rowPerImage : RowPerImage host.engine) (ranksSome : RanksSome host.engine)
    (services : Services host api worker model)
    (faithful : cache.Faithful host.engine api.inference)
    (oneFits : 1 ≤ host.limits.maxBatchSize) {jobOptions : JobOptions}
    (sameTopK : jobOptions.topK = payload.classification.topK)
    (sameVersion : jobOptions.modelVersion = payload.classification.modelVersion)
    {item : BatchItem} {fetched : Fetched} :
    Agrees (itemResult item (attemptItem host.engine worker jobOptions (.ok fetched)))
        (synchronous host api cache payload fetched.body) ↔
      Agreeable host api payload fetched := by
  have attempt : Succeeds (attemptItem host.engine worker jobOptions (.ok fetched)) ↔ _ :=
    attemptItem_succeeds_iff rowPerImage services oneFits sameTopK sameVersion
  simp only [synchronous, Agreeable]
  cases payload.task with
  | classification =>
      exact agrees_classification_iff rowPerImage ranksSome services faithful oneFits sameTopK
        sameVersion
  | detection =>
      have endpoint : Succeeds (detectObjects host api fetched.body payload.detection) ↔ _ :=
        detectObjects_succeeds_iff services
      rw [agrees_iff_of_no_summary, attempt, map_succeeds_iff]
      · exact and_congr_right fun _ => not_congr endpoint
      · intro given isGiven
        rcases map_ok_iff.mp isGiven with ⟨_, _, rfl⟩
        rfl
  | embedding =>
      rw [agrees_iff_of_no_summary, attempt, map_succeeds_iff, findSimilar_succeeds_iff services]
      intro given isGiven
      rcases map_ok_iff.mp isGiven with ⟨_, _, rfl⟩
      rfl

/-- In every job the entry of an item agrees with the endpoint of the task exactly when the
request is agreeable on the response its URL yields. -/
theorem processBatch_agrees_iff (network : String → Except Failure Fetched)
    (rowPerImage : RowPerImage host.engine) (ranksSome : RanksSome host.engine)
    (started : startApi host = .ok api)
    (reached : Reachable (cacheStep host.engine api.inference) (fun _ => none) cache) {job : Job}
    (submitted : submitBatch host.limits payload = .ok job) {position : ℕ} {item : BatchItem}
    (isItem : payload.items[position]? = some item) {fetched : Fetched}
    (yields : network item.imageUrl = .ok fetched) :
    ∃ summary entry, processBatch host network job = .ok summary ∧
      summary.results[position]? = some entry ∧
      (Agrees entry (synchronous host api cache payload fetched.body) ↔
        Agreeable host api payload fetched) := by
  rcases services_of_started started with ⟨worker, model, isWorker, services⟩
  rcases submitBatch_ok submitted with ⟨oneFits, sameItems, sameTopK, sameVersion⟩
  rw [← sameItems] at isItem
  rcases processBatch_entry isWorker network isItem with ⟨summary, processed, isEntry⟩
  rw [yields] at isEntry
  have faithful := faithful_of_reachable services.apiDefault.keyed services.ownRoomy reached
  exact ⟨summary, _, processed, isEntry,
    agrees_iff rowPerImage ranksSome services faithful oneFits sameTopK sameVersion⟩

end Jobs

/-! ## A small deployment -/

/-- A classifier in the flat layout that finds a goldfish on every image. -/
def smallHost : Host Unit Unit Unit ℕ Unit Unit where
  engine :=
    { header := fun _ => .ok ⟨some "JPEG", 64, 64, "RGB"⟩
      pixels := fun _ _ => .ok ()
      run := fun _ _ batch => .ok [batch]
      softmax := id
      topK := fun _ _ => .ok [(1, 0)]
      round6 := id
      unitInterval := fun score => score ≤ 1 }
  runtime :=
    { available := ["CPUExecutionProvider"]
      create := fun _ _ => .ok ()
      providers := fun _ => ["CPUExecutionProvider"]
      inputName := fun _ => "input"
      warmup := fun _ _ _ => .ok [[1, 200]] }
  files :=
    { present := fun path => path ∈ [["labels.json"], ["onnx", "classifier_fp32.onnx"]]
      labels := fun _ => .ok ⟨.texts ["goldfish"], .texts ["n01443537"], 224⟩
      metrics := fun _ => .ok [] }
  settings := ⟨[], .onnx, true⟩
  limits := ⟨10485760, 25000000, 32⟩
  extras := []
  detector := none
  similarityIndex := false
  detect := fun _ _ _ _ => .ok ()
  search := fun _ _ => .ok ()

/-- An item with a URL. -/
def smallItem : BatchItem where
  imageUrl := "http://images/goldfish.jpg"
  scheme := .inl (by decide)

/-- A request with this item. -/
def smallRequest (options : Option ClassificationOptions) : BatchRequest where
  items := [smallItem]
  classificationOptions := options
  items_nonempty := List.cons_ne_nil _ _

/-- A response that was compressed for the transfer. -/
def smallImage : Fetched where
  declared := some 20
  body := [0]

theorem rowPerImage_smallHost : RowPerImage smallHost.engine := by
  rintro _ _ batch rows rest ⟨⟩
  rfl

theorem ranksSome_smallHost : RanksSome smallHost.engine := by
  rintro _ _ entries _ ⟨⟩
  exact List.cons_ne_nil _ _

/-- With the default options the entry agrees with the endpoint. -/
theorem processBatch_agrees_defaults :
    ∃ api job summary entry, startApi smallHost = .ok api ∧
      submitBatch smallHost.limits (smallRequest none) = .ok job ∧
      processBatch smallHost (fun _ => .ok smallImage) job = .ok summary ∧
      summary.results[0]? = some entry ∧
      Agrees entry
        (synchronous smallHost api (fun _ => none) (smallRequest none) smallImage.body) := by
  have starts : ∃ api, startApi smallHost = .ok api := ⟨_, rfl⟩
  have submits : ∃ job, submitBatch smallHost.limits (smallRequest none) = .ok job := ⟨_, rfl⟩
  rcases starts with ⟨api, started⟩
  rcases submits with ⟨job, submitted⟩
  have isItem : (smallRequest none).items[0]? = some smallItem := rfl
  rcases processBatch_agrees_iff (fun _ => .ok smallImage) rowPerImage_smallHost
    ranksSome_smallHost started .refl submitted isItem rfl with
    ⟨summary, entry, processed, isEntry, agrees⟩
  refine ⟨api, job, summary, entry, started, submitted, processed, isEntry, agrees.mpr ?_⟩
  intro _
  refine ⟨⟨?_, rfl⟩, rfl⟩
  rintro size ⟨⟩
  decide

/-- Without `include_probabilities` the entry has a probability that the endpoint leaves out. -/
theorem processBatch_shows_probability :
    ¬∀ (host : Host Unit Unit Unit ℕ Unit Unit) (network : String → Except Failure Fetched)
      (payload : BatchRequest) (api : Api Unit) (cache : Cache ℕ) (job : Job) (position : ℕ)
      (item : BatchItem) (fetched : Fetched),
      startApi host = .ok api →
        Reachable (cacheStep host.engine api.inference) (fun _ => none) cache →
        submitBatch host.limits payload = .ok job → payload.items[position]? = some item →
        network item.imageUrl = .ok fetched →
        ∃ summary entry, processBatch host network job = .ok summary ∧
          summary.results[position]? = some entry ∧
          Agrees entry (synchronous host api cache payload fetched.body) := by
  intro always
  let request := smallRequest (some { includeProbabilities := false })
  have runs : ∃ api job summary entry response,
      startApi smallHost = .ok api ∧ submitBatch smallHost.limits request = .ok job ∧
      processBatch smallHost (fun _ => .ok smallImage) job = .ok summary ∧
      summary.results[0]? = some entry ∧ entry.result = some [⟨"goldfish", 0, some 1⟩] ∧
      synchronous smallHost api (fun _ => none) request smallImage.body =
        .ok (.classification response) ∧
      summarisePredictions response.predictions = [⟨"goldfish", 0, none⟩] :=
    ⟨_, _, _, _, _, rfl, rfl, rfl, rfl, rfl, rfl, rfl⟩
  rcases runs with ⟨api, job, summary, entry, response, started, submitted, processed, isEntry,
    shown, answered, hidden⟩
  rcases always smallHost (fun _ => .ok smallImage) request api _ job 0 smallItem smallImage
    started .refl submitted rfl rfl with ⟨other, otherEntry, otherProcessed, isOther, agrees⟩
  cases processed.symm.trans otherProcessed
  cases isEntry.symm.trans isOther
  have same := agrees.result _ _ answered shown
  simp [Answer.summary, hidden] at same

end VisionApi.Batch
