import VisionApi.Experiments.Routing
import VisionApi.Monitoring.Cardinality

/-!
# Counting inferences

`classify_image` counts every inference as a success or a failure.  Its failure
handler looks the model up again to name it, and that lookup may raise as well.

The recorded endpoint is the one of the router with the children it creates, and the
response is the same (`classifyImageRecorded_fst`).  `CountedOnce` asks for one count
with the outcome of the call.

A call whose model is found is counted once, whether it succeeds or fails.  Where the
version is not registered, the handler raises the same error again before it counts,
so that nothing is counted; the condition of the theorem is this lookup.
-/

namespace VisionApi.Monitoring

open Foundation Models Inference Experiments

variable {Session Tensor Logits Score : Type} {ops : FloatOps Score}

/-- `classify_image`, with the calls on collectors of `record_inference`. -/
def classifyImageRecorded (service : InferenceService Session) (later : ModelService Session)
    (engine : Engine Session Tensor Logits Score) (lib : Library Score) (hashing : Hashing Score)
    (experiments : Registry ops) (allowBackendOverride : Bool) (cache : Option Store)
    (faults : Faults) (query : Query) : Except Failure (Response Score) × List Series :=
  match readUpload service.limits.maxUploadBytes [] query.chunks with
  | .error error => (.error (.api error), [])
  | .ok image =>
      let request := query.request hashing experiments allowBackendOverride image
      match (service.classifyAudited engine lib cache faults request).1 with
      | .ok response =>
          (.ok response,
            recordInference response.modelName response.modelVersion response.backend.value true)
      | .error failure =>
          match later.get classifierName request.modelVersion with
          | .error missing => (.error (notFoundFailure missing), [])
          | .ok model => (.error failure, recordModel model false)

/-- How often `INFERENCE_COUNT` is incremented with an outcome. -/
def inferenceCounts (outcome : String) (recorded : List Series) : ℕ :=
  recorded.countP fun series =>
    series.collector = .inferenceCount && series.labels.getLast? = some outcome

theorem inferenceCounts_recordInference (model version backend outcome : String) (success : Bool) :
    inferenceCounts outcome (recordInference model version backend success) =
      if outcome = (if success then "success" else "failure") then 1 else 0 := by
  cases success with
  | true =>
      by_cases same : outcome = "success"
      · subst same
        rfl
      · simp [inferenceCounts, recordInference, same, Ne.symm same]
  | false =>
      by_cases same : outcome = "failure"
      · subst same
        rfl
      · simp [inferenceCounts, recordInference, same, Ne.symm same]

section Router

variable {service : InferenceService Session} {later : ModelService Session}
  {engine : Engine Session Tensor Logits Score} {lib : Library Score} {hashing : Hashing Score}
  {experiments : Registry ops} {allowBackendOverride : Bool} {cache : Option Store}
  {faults : Faults} {query : Query}

/-- Recording changes nothing in what the router answers. -/
theorem classifyImageRecorded_fst :
    (classifyImageRecorded service later engine lib hashing experiments allowBackendOverride cache
      faults query).1 =
      (classifyImage service later engine lib hashing experiments allowBackendOverride cache faults
        query).1 := by
  cases read : readUpload service.limits.maxUploadBytes [] query.chunks with
  | error error => simp only [classifyImageRecorded, classifyImage, read]
  | ok image =>
      simp only [classifyImageRecorded, classifyImage, read]
      rcases service.classifyAudited engine lib cache faults
        (query.request hashing experiments allowBackendOverride image) with
        ⟨classified, records, next⟩
      cases classified with
      | ok response => rfl
      | error failure =>
          cases later.get classifierName
            (query.request hashing experiments allowBackendOverride image).modelVersion with
          | error missing => rfl
          | ok model => rfl

/-- The router answers what `classify` ends with, and counts it once. -/
structure CountedOnce (classified : Except Failure (Response Score))
    (answered : Except Failure (Response Score) × List Series) : Prop where
  raised : ∀ failure, classified = .error failure → answered.1 = .error failure ∧
    inferenceCounts "failure" answered.2 = 1 ∧ inferenceCounts "success" answered.2 = 0
  returned : ∀ response, classified = .ok response → answered.1 = .ok response ∧
    inferenceCounts "success" answered.2 = 1 ∧ inferenceCounts "failure" answered.2 = 0

/-- A version that is not found makes `classify` raise. -/
theorem classifyAudited_of_missing (engine : Engine Session Tensor Logits Score)
    (lib : Library Score) (cache : Option Store) (faults : Faults) {request : Request Score}
    {missing : ModelNotFound}
    (unresolved : service.models.get classifierName request.modelVersion = .error missing) :
    ∃ failure, (service.classifyAudited engine lib cache faults request).1 = .error failure := by
  simp only [InferenceService.classifyAudited]
  cases admitted : service.resolve engine lib request with
  | error failure => exact ⟨failure, rfl⟩
  | ok attempt =>
      have found := get_of_getForBackend (model_of_resolve admitted)
      rw [unresolved] at found
      cases found

/-- A request whose upload is read is answered and counted as `classify` ends exactly when the
version it is routed to is found. -/
theorem classifyImage_countedOnce_iff {image : Bytes}
    (read : readUpload service.limits.maxUploadBytes [] query.chunks = .ok image) :
    CountedOnce (service.classifyAudited engine lib cache faults
        (query.request hashing experiments allowBackendOverride image)).1
      (classifyImageRecorded service service.models engine lib hashing experiments
        allowBackendOverride cache faults query) ↔
      Succeeds (service.models.get classifierName
        (query.request hashing experiments allowBackendOverride image).modelVersion) := by
  constructor
  · intro counted
    cases found : service.models.get classifierName
        (query.request hashing experiments allowBackendOverride image).modelVersion with
    | ok model => exact succeeds_ok model
    | error missing =>
        rcases classifyAudited_of_missing engine lib cache faults found with ⟨failure, failed⟩
        have counts := (counted.raised failure failed).2.1
        simp [classifyImageRecorded, read, failed, found, inferenceCounts] at counts
  · rintro ⟨model, found⟩
    constructor
    · intro failure failed
      simp only [classifyImageRecorded, read, failed, found, recordModel,
        inferenceCounts_recordInference]
      decide
    · intro response returned
      simp only [classifyImageRecorded, read, returned, inferenceCounts_recordInference]
      decide

/-- A request that is served is counted as a success. -/
theorem classifyImage_countedOnce_small :
    CountedOnce (smallService.classifyAudited smallEngine smallLibrary none ⟨false, false, false⟩
        (smallQuery.request smallHashing ([] : Registry smallOps) false [0])).1
      (classifyImageRecorded smallService smallService.models smallEngine smallLibrary smallHashing
        ([] : Registry smallOps) false none ⟨false, false, false⟩ smallQuery) :=
  (classifyImage_countedOnce_iff rfl).mpr ⟨smallModel, rfl⟩

/-- An empty upload that asks for a version that is not registered. -/
def emptyQuery : Query :=
  { smallQuery with chunks := [], modelVersion := some "v9" }

/-- The empty upload is refused, but the client is told that the version is missing, and nothing
is counted. -/
theorem missing_version_replaces_error :
    (smallService.classifyAudited smallEngine smallLibrary none ⟨false, false, false⟩
        (emptyQuery.request smallHashing ([] : Registry smallOps) false [])).1 =
      .error (.api (invalidImageError "The uploaded file is empty." [])) ∧
    (∃ missing, classifyImageRecorded smallService smallService.models smallEngine smallLibrary
        smallHashing ([] : Registry smallOps) false none ⟨false, false, false⟩ emptyQuery =
      (.error (notFoundFailure missing), [])) ∧
    ¬CountedOnce (smallService.classifyAudited smallEngine smallLibrary none ⟨false, false, false⟩
        (emptyQuery.request smallHashing ([] : Registry smallOps) false [])).1
      (classifyImageRecorded smallService smallService.models smallEngine smallLibrary smallHashing
        ([] : Registry smallOps) false none ⟨false, false, false⟩ emptyQuery) := by
  refine ⟨rfl, ⟨_, rfl⟩, ?_⟩
  intro counted
  exact absurd (counted.raised _ rfl).2.1 (by decide)

end Router

end VisionApi.Monitoring
