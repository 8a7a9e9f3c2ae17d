import VisionApi.Experiments.Loading
import VisionApi.Inference.AuditTrail

/-!
# Experiments in the router

An unpinned request is served by the version of the variant its user is assigned
to.  The router passes the version and the name of the variant on as two
arguments; the service audits them together.

The endpoint is followed from its query to the response and the audit records.  An
unpinned query asks the registry of experiments for a variant, a pinned one does not.
The request that the router makes is then one of the service, so that the endpoint is
the classification of that request (`classifyImage_routed`), and what is audited are
its records.

A variant of a kept experiment names a version that was loaded when the experiments
were read.  Since then models may have been added, and under plain versions no two
share a key; so the version still resolves (`get_assigned`), and the request does not
fail with a missing model.  What the engine and the library raise is foreign to that
error, which `Foreign` says of the parameters and the lemmas on each step carry on.
-/

namespace VisionApi.Experiments

open Foundation Models Inference

variable {Session Tensor Logits Score : Type} (ops : FloatOps Score)

/-! ## Assignment -/

/-- `f"{name}"` of a value of the file, and `hashlib.sha256(..).digest()`. -/
structure Hashing (Score : Type) where
  format : Json Score → String
  digest : Bytes → Bytes

/-- `int.from_bytes(bytes, "big")`. -/
def fromBytes (bytes : Bytes) : ℕ :=
  bytes.foldl (fun total byte => total * 256 + byte.toNat) 0

variable {ops}

/-- The loop of `assign`. -/
def pick (position : Score) : Score → List (Variant ops) → Option (Variant ops)
  | _, [] => none
  | cumulative, variant :: variants =>
      let cumulative := ops.add cumulative variant.weight
      if ops.less position cumulative then some variant else pick position cumulative variants

/-- Where the hash of a user falls in the unit interval. -/
def Experiment.position (hashing : Hashing Score) (experiment : Experiment ops) (userId : String) :
    Score :=
  ops.ofUnits (fromBytes
    ((hashing.digest (encodeText (hashing.format experiment.name ++ ":" ++ userId))).take 8))

/-- The variant of a user; a disabled experiment serves its first one. -/
def Experiment.assign (hashing : Hashing Score) (experiment : Experiment ops) (userId : String) :
    Variant ops :=
  if !experiment.enabled then experiment.variants.head experiment.nonempty
  else
    (pick (experiment.position hashing userId) (ops.ofUnits 0) experiment.variants).getD
      (experiment.variants.getLast experiment.nonempty)

/-- `resolve_version`; `null` stands for `None`. -/
def resolveVersion (hashing : Hashing Score) (experiments : Registry ops)
    (modelName userId : String) : Json Score × Json Score :=
  match Dict.get? experiments modelName with
  | none => (.null, .null)
  | some experiment =>
      let variant := experiment.assign hashing userId
      (variant.modelVersion, variant.name)

/-- `available_versions.setdefault(loaded.name, set()).add(loaded.version)`. -/
def addVersion (available : AvailableVersions) (loaded : LoadedModel Session) :
    AvailableVersions :=
  let versions := (Dict.get? available loaded.name).getD []
  Dict.set available loaded.name
    (if loaded.version ∈ versions then versions else versions ++ [loaded.version])

/-- The versions passed to `load`. -/
def availableVersions (service : ModelService Session) : AvailableVersions :=
  service.listModels.foldl addVersion []

/-! ## The route -/

/-- `_read_upload` on the chunks of the file. -/
def readUpload (maxBytes : ℤ) : Bytes → List Bytes → Except ApiError Bytes
  | buffer, [] => .ok buffer
  | buffer, chunk :: chunks =>
      if chunk = [] then .ok buffer
      else if ((buffer ++ chunk).length : ℤ) > maxBytes then
        .error (payloadTooLargeError
          ("Upload exceeds the " ++ mebibytes maxBytes ++ " MiB limit.")
          [("max_bytes", .number maxBytes)])
      else readUpload maxBytes (buffer ++ chunk) chunks

/-- A request to `POST /classify` of an authenticated user within its rate limit. -/
structure Query where
  chunks : List Bytes
  topK : ℤ
  modelVersion : Option String
  backend : Option InferenceBackend
  includeProbabilities : Bool
  useCache : Bool
  userId : String
  userTier : String
  correlationId : String

/-- The version and the variant the router passes on. -/
def Query.route (query : Query) (hashing : Hashing Score) (experiments : Registry ops) :
    Json Score × Json Score :=
  match query.modelVersion with
  | some version => (.string version, .null)
  | none => resolveVersion hashing experiments classifierName query.userId

/-- The version as an argument of `classify`; a kept experiment has no version that is no text. -/
def versionArgument : Json Score → Option String
  | .string version => some version
  | _ => none

/-- The call for the image of a query, with a version, a backend and the name of a variant. -/
def Query.asking (query : Query) (image : Bytes) (modelVersion : Option String)
    (backend : Option InferenceBackend) (variant : Json Score) : Request Score :=
  { image, modelVersion, backend, variant
    correlationId := query.correlationId
    topKResults := query.topK
    includeProbabilities := query.includeProbabilities
    useCache := query.useCache
    userId := some query.userId
    userTier := some query.userTier }

/-- The call the router makes. -/
def Query.request (query : Query) (hashing : Hashing Score) (experiments : Registry ops)
    (allowBackendOverride : Bool) (image : Bytes) : Request Score :=
  query.asking image (versionArgument (query.route hashing experiments).1)
    (if allowBackendOverride then query.backend else none) (query.route hashing experiments).2

/-- `classify_image`; its handler looks the model up again, in the registry as it is `later`. -/
def classifyImage (service : InferenceService Session) (later : ModelService Session)
    (engine : Engine Session Tensor Logits Score) (lib : Library Score) (hashing : Hashing Score)
    (experiments : Registry ops) (allowBackendOverride : Bool) (cache : Option Store)
    (faults : Faults) (query : Query) :
    Except Failure (Response Score) × List (AuditRecord Score) × Option Store :=
  match readUpload service.limits.maxUploadBytes [] query.chunks with
  | .error error => (.error (.api error), [], cache)
  | .ok image =>
      let request := query.request hashing experiments allowBackendOverride image
      match service.classifyAudited engine lib cache faults request with
      | (.ok response, records, next) => (.ok response, records, next)
      | (.error failure, records, next) =>
          match later.get classifierName request.modelVersion with
          | .error missing => (.error (notFoundFailure missing), records, next)
          | .ok _ => (.error failure, records, next)

/-! ## Assigned variants -/

section Assigned

variable {available : AvailableVersions} {hashing : Hashing Score} {experiments : Registry ops}
  {experiment : Experiment ops}

theorem mem_of_pick {position cumulative : Score} {variants : List (Variant ops)}
    {variant : Variant ops} (picked : pick position cumulative variants = some variant) :
    variant ∈ variants := by
  induction variants generalizing cumulative with
  | nil => cases picked
  | cons first variants ih =>
      simp only [pick] at picked
      split at picked
      · cases picked
        exact List.mem_cons_self
      · exact List.mem_cons_of_mem _ (ih picked)

theorem assign_mem (hashing : Hashing Score) (experiment : Experiment ops) (userId : String) :
    experiment.assign hashing userId ∈ experiment.variants := by
  simp only [Experiment.assign]
  split
  · exact List.head_mem _
  · cases picked : pick (experiment.position hashing userId) (ops.ofUnits 0)
        experiment.variants with
    | none => exact List.getLast_mem _
    | some variant => exact mem_of_pick picked

theorem servable_of_load {content : Option (Except FileError (Json Score))} {model : String}
    (loaded : load ops content available = .ok experiments)
    (kept : Dict.get? experiments model = some experiment) :
    isServable available model experiment = true := by
  have quiet : QuietContent ops content := quiet_of_load ⟨experiments, loaded⟩
  rcases load_of_quiet available quiet with ⟨others, alsoLoaded, holds⟩
  cases loaded.symm.trans alsoLoaded
  rw [holds] at kept
  rcases exists_split_of_lastOf kept with ⟨_, _, _, _, isEntry, _⟩
  exact (described_accepted_iff.mp isEntry).2

/-- The version of a variant of a kept experiment is a loaded one. -/
theorem version_of_load {content : Option (Except FileError (Json Score))} {model : String}
    (loaded : load ops content available = .ok experiments)
    (kept : Dict.get? experiments model = some experiment) {variant : Variant ops}
    (isVariant : variant ∈ experiment.variants) :
    ∃ version, variant.modelVersion = .string version ∧
      version ∈ (Dict.get? available model).getD [] := by
  have isLoadedVersion := List.all_eq_true.mp (servable_of_load loaded kept) variant isVariant
  cases isVersion : variant.modelVersion with
  | string version =>
      rw [isVersion] at isLoadedVersion
      exact ⟨version, rfl, of_decide_eq_true isLoadedVersion⟩
  | null | bool | int | float | array | object =>
      rw [isVersion] at isLoadedVersion
      cases isLoadedVersion

end Assigned

/-- An available version is that of a listed model. -/
theorem listed_of_available {service : ModelService Session} {name version : String}
    (isAvailable : version ∈ (Dict.get? (availableVersions service) name).getD []) :
    ∃ model ∈ service.listModels, model.name = name ∧ model.version = version := by
  have grows : ∀ (models : List (LoadedModel Session)) (available : AvailableVersions),
      version ∈ (Dict.get? (models.foldl addVersion available) name).getD [] →
      version ∈ (Dict.get? available name).getD [] ∨
        ∃ model ∈ models, model.name = name ∧ model.version = version := by
    intro models
    induction models with
    | nil => exact fun _ isAvailable => Or.inl isAvailable
    | cons loaded models ih =>
        intro available isAvailable
        rcases ih _ isAvailable with isNext | ⟨model, isModel, isNamed⟩
        · by_cases same : name = loaded.name
          · subst same
            simp only [addVersion, Dict.get?_set_self, Option.getD_some] at isNext
            split at isNext
            · exact Or.inl isNext
            · rcases List.mem_append.mp isNext with isOld | isNew
              · exact Or.inl isOld
              · refine Or.inr ⟨loaded, List.mem_cons_self, rfl, ?_⟩
                exact (List.mem_singleton.mp isNew).symm
          · rw [addVersion, Dict.get?_set_ne _ same] at isNext
            exact Or.inl isNext
        · exact Or.inr ⟨model, List.mem_cons_of_mem _ isModel, isNamed⟩
  rcases grows service.listModels [] isAvailable with isNone | found
  · cases isNone
  · exact found

/-! ## Failures other than a missing model -/

/-- `ModelNotFoundError`. -/
def IsModelNotFound : Failure → Prop
  | .api error => error.code = "model_not_found"
  | _ => False

/-- Pillow, NumPy and Pydantic do not raise `ModelNotFoundError`. -/
structure Foreign (engine : Engine Session Tensor Logits Score) (lib : Library Score) : Prop where
  pixels : ∀ image size failure, engine.pixels image size = .error failure →
    ¬IsModelNotFound failure
  topK : ∀ logits k failure, engine.topK logits k = .error failure → ¬IsModelNotFound failure
  prediction : ∀ members failure, lib.prediction members = .error failure →
    ¬IsModelNotFound failure

section Found

variable {engine : Engine Session Tensor Logits Score} {lib : Library Score} {failure : Failure}

theorem readUpload_found {maxBytes : ℤ} {buffer : Bytes} {chunks : List Bytes} {error : ApiError}
    (raised : readUpload maxBytes buffer chunks = .error error) :
    ¬IsModelNotFound (.api error) := by
  induction chunks generalizing buffer with
  | nil => cases raised
  | cons chunk chunks ih =>
      simp only [readUpload] at raised
      split at raised
      · cases raised
      · split at raised
        · cases raised
          simp [IsModelNotFound, payloadTooLargeError]
        · exact ih raised

theorem validateImageUpload_found {pillow : Pillow} {limit maxBytes maxPixels : ℤ} {data : Bytes}
    {error : ApiError}
    (raised : validateImageUpload pillow limit data maxBytes maxPixels = .error error) :
    ¬IsModelNotFound (.api error) := by
  have code := validateImageUpload_code raised
  intro missing
  rw [show error.code = "model_not_found" from missing] at code
  simp at code

theorem runBatch_found (foreign : Foreign engine lib) {limit : ℤ} {model : LoadedModel Session}
    {images : List Bytes} (raised : runBatch engine limit model images = .error failure) :
    ¬IsModelNotFound failure := by
  rcases runBatch_error raised with ⟨image, unreadable⟩ | unavailable
  · exact foreign.pixels _ _ _ unreadable
  · cases failure with
    | api error =>
        intro missing
        have code := unavailable error rfl
        rw [show error.code = "model_not_found" from missing] at code
        simp at code
    | httpStatus | request | value | other => exact id

theorem predictionsFor_found {model : LoadedModel Session} {includeProbabilities : Bool}
    {entries : List (Score × ℕ)}
    (raised : predictionsFor engine model includeProbabilities entries = .error failure) :
    ¬IsModelNotFound failure := by
  cases failure with
  | api error => exact absurd rfl (predictionsFor_error raised error)
  | httpStatus | request | value | other => exact id

theorem rebuild_found (foreign : Foreign engine lib) {payload : Json Score}
    (raised : lib.rebuild payload = .error failure) : ¬IsModelNotFound failure := by
  cases payload with
  | object members =>
      simp only [Library.rebuild] at raised
      split at raised
      · cases raised
        exact id
      · split at raised
        · cases raised
          exact id
        · rcases mapM_error_iff.mp raised with ⟨_, item, _, _, _, notItem⟩
          cases item with
          | object fields => exact foreign.prediction _ _ notItem
          | null | bool | int | float | string | array =>
              cases notItem
              exact id
  | null | bool | int | float | string | array =>
      cases raised
      exact id

theorem readCache_found {attempt : Attempt Session Score} {cache next : Option Store}
    {faults : Faults} (raised : attempt.readCache lib cache faults = (.error failure, next)) :
    ¬IsModelNotFound failure := by
  simp only [Attempt.readCache] at raised
  split at raised
  · simp only [Library.cacheGet] at raised
    split at raised
    · cases raised
    · split at raised
      · cases raised
      · split at raised
        · cases raised
        · cases raised
        · cases raised
        · rename_i other isRead
          cases raised
          simp only [Library.reading] at isRead
          split at isRead
          · cases isRead
          · split at isRead
            · cases isRead
              exact id
            · split at isRead
              · cases isRead
              · cases isRead
              · cases isRead
                exact id
  · cases raised

theorem answer_found (foreign : Foreign engine lib) {limit : ℤ} {attempt : Attempt Session Score}
    {cached : Option (Json Score)}
    (raised : (attempt.answer engine lib limit cached).response = .error failure) :
    ¬IsModelNotFound failure := by
  cases cached with
  | some payload =>
      simp only [Attempt.answer, Attempt.serveCached] at raised
      split at raised
      · rename_i other rebuilt
        cases raised
        exact rebuild_found foreign rebuilt
      · cases raised
  | none =>
      simp only [Attempt.answer, Attempt.run] at raised
      split at raised
      · rename_i other ran
        cases raised
        exact runBatch_found foreign ran
      · split at raised
        · rename_i rows _ _ other decoded
          cases raised
          cases rows with
          | nil =>
              cases decoded
              exact id
          | cons logits rows =>
              rcases bind_error_iff.mp decoded with raised | ⟨entries, _, raised⟩
              · exact foreign.topK _ _ _ raised
              · exact predictionsFor_found raised
        · cases raised

end Found

/-! ## Variant and version -/

/-- Records and response name the model version and the variant, and no model is missing. -/
structure NamedAs (modelVersion variant : Json Score)
    (outcome : Except Failure (Response Score) × List (AuditRecord Score) × Option Store) :
    Prop where
  audited : ∀ record ∈ outcome.2.1, record.modelName = classifierName ∧
    Json.string record.modelVersion = modelVersion ∧ record.variant = variant
  answered : ∀ response, outcome.1 = .ok response → response.modelName = classifierName ∧
    Json.string response.modelVersion = modelVersion ∧ ∃ record, outcome.2.1 = [record]
  found : ∀ failure, outcome.1 = .error failure → ¬IsModelNotFound failure

section Together

variable {hashing : Hashing Score} {experiments : Registry ops} {experiment : Experiment ops}
  {service : InferenceService Session} {engine : Engine Session Tensor Logits Score}
  {lib : Library Score} {cache : Option Store} {faults : Faults}

/-- The version of an assigned variant resolves, however the registry has grown. -/
theorem get_assigned (hashing : Hashing Score) (userId : String) {startup : ModelService Session}
    {content : Option (Except FileError (Json Score))} (plain : startup.Plain)
    (loaded : load ops content (availableVersions startup) = .ok experiments)
    (kept : Dict.get? experiments classifierName = some experiment) :
    ∃ version, (experiment.assign hashing userId).modelVersion = .string version ∧
      ∀ later, Run registryStep RegistersPlain startup later →
        ∃ model, later.get classifierName (some version) = .ok model ∧
          model.name = classifierName ∧ model.version = version := by
  rcases version_of_load loaded kept (assign_mem hashing experiment userId) with
    ⟨version, isVersion, isAvailable⟩
  rcases listed_of_available isAvailable with ⟨model, isListed, isName, rfl⟩
  refine ⟨model.version, isVersion, ?_⟩
  intro later grown
  have known := isSome_of_listed plain isListed
  rw [isName] at known
  rcases List.mem_map.mp isListed with ⟨entry, isEntry, rfl⟩
  exact get_of_plain (plain.run grown) (plain entry isEntry).2 (isSome_models_of_run known grown)

/-- A classification whose version resolves is served as that version. -/
theorem classifyAudited_namedAs (foreign : Foreign engine lib) {request : Request Score}
    {version : String} (isVersion : request.modelVersion = some version)
    (noBackend : request.backend = none) {model : LoadedModel Session}
    (resolves : service.models.get classifierName (some version) = .ok model)
    (isName : model.name = classifierName) (isModelVersion : model.version = version) :
    NamedAs (.string version) request.variant
      (service.classifyAudited engine lib cache faults request) := by
  simp only [InferenceService.classifyAudited]
  cases admitted : service.resolve engine lib request with
  | error failure =>
      refine ⟨List.forall_mem_nil _, ?_, ?_⟩
      · rintro response ⟨⟩
      · rintro other ⟨⟩
        simp only [InferenceService.resolve, bind_error_iff, mapError_error_iff, isVersion,
          noBackend, getForBackend_none, resolves] at admitted
        rcases admitted with ⟨error, invalid, rfl⟩ | ⟨_, _, ⟨_, ⟨⟩, _⟩ | ⟨_, _, ⟨⟩⟩⟩
        exact validateImageUpload_found invalid
  | ok attempt =>
      have isModel := model_of_resolve admitted
      rw [isVersion, noBackend, getForBackend_none, resolves] at isModel
      cases isModel
      have isRequest := request_of_resolve admitted
      cases read : attempt.readCache lib cache faults with
      | mk cached next =>
          cases cached with
          | error failure =>
              simp only [Attempt.conclude, read]
              refine ⟨List.forall_mem_nil _, ?_, ?_⟩
              · rintro response ⟨⟩
              · rintro other ⟨⟩
                exact readCache_found read
          | ok cached =>
              simp only [Attempt.conclude, read]
              constructor
              · intro record isRecord
                rcases record_of_answer isRecord with ⟨sameName, sameVersion, sameVariant⟩
                rw [sameName, sameVersion, sameVariant, isRequest]
                exact ⟨isName, congrArg Json.string isModelVersion, rfl⟩
              · intro response answered
                rcases response_of_answer answered with ⟨sameName, sameVersion, oneRecord⟩
                rw [sameName, sameVersion]
                exact ⟨isName, congrArg Json.string isModelVersion, oneRecord⟩
              · intro failure failed
                exact answer_found foreign failed

/-- Every record of a classification has the variant of its request. -/
theorem variant_of_record {request : Request Score} {record : AuditRecord Score}
    (isRecord : record ∈ (service.classifyAudited engine lib cache faults request).2.1) :
    record.variant = request.variant := by
  simp only [InferenceService.classifyAudited] at isRecord
  cases admitted : service.resolve engine lib request with
  | error failure =>
      rw [admitted] at isRecord
      cases isRecord
  | ok attempt =>
      rw [admitted] at isRecord
      cases read : attempt.readCache lib cache faults with
      | mk cached next =>
          cases cached with
          | error failure =>
              simp only [Attempt.conclude, read] at isRecord
              cases isRecord
          | ok cached =>
              simp only [Attempt.conclude, read] at isRecord
              rw [(record_of_answer isRecord).2.2, request_of_resolve admitted]

section Route

variable {later : ModelService Session} {allowBackendOverride : Bool} {query : Query}

/-- The handler of the router adds no record. -/
theorem classifyImage_records {image : Bytes}
    (read : readUpload service.limits.maxUploadBytes [] query.chunks = .ok image) :
    (classifyImage service later engine lib hashing experiments allowBackendOverride cache faults
      query).2 = (service.classifyAudited engine lib cache faults
        (query.request hashing experiments allowBackendOverride image)).2 := by
  simp only [classifyImage, read]
  split
  · rename_i classified
    rw [classified]
  · rename_i classified
    rw [classified]
    split
    · rfl
    · rfl

/-- Where the model is still found, the router answers what the service does. -/
theorem classifyImage_found {image : Bytes} {model : LoadedModel Session}
    (read : readUpload service.limits.maxUploadBytes [] query.chunks = .ok image)
    (found : later.get classifierName
      (query.request hashing experiments allowBackendOverride image).modelVersion = .ok model) :
    classifyImage service later engine lib hashing experiments allowBackendOverride cache faults
      query = service.classifyAudited engine lib cache faults
        (query.request hashing experiments allowBackendOverride image) := by
  simp only [classifyImage, read, found]
  split
  · rename_i classified
    exact classified.symm
  · rename_i classified
    exact classified.symm

/-- The router passes the image of a pinned query on with its version and no variant, and its
handler adds no record. -/
theorem classifyImage_pinned {version : String} (pinned : query.modelVersion = some version)
    {image : Bytes} (read : readUpload service.limits.maxUploadBytes [] query.chunks = .ok image) :
    (classifyImage service later engine lib hashing experiments allowBackendOverride cache faults
      query).2 = (service.classifyAudited engine lib cache faults (query.asking image
        (some version) (if allowBackendOverride then query.backend else none) .null)).2 := by
  rw [classifyImage_records read]
  simp only [Query.request, Query.route, pinned, versionArgument]

/-- An upload that cannot be read is refused before anything is asked. -/
theorem classifyImage_unread {error : ApiError}
    (unread : readUpload service.limits.maxUploadBytes [] query.chunks = .error error) :
    classifyImage service later engine lib hashing experiments allowBackendOverride cache faults
      query = (.error (.api error), [], cache) := by
  simp only [classifyImage, unread]

/-- An unpinned query goes to the version it is routed to, if that version is found now and by the
handler. -/
theorem classifyImage_routed {variant : Json Score} {version : String}
    (routed : query.route hashing experiments = (.string version, variant))
    (noBackend : allowBackendOverride = false ∨ query.backend = none)
    {laterModel : LoadedModel Session}
    (resolvesLater : later.get classifierName (some version) = .ok laterModel) {image : Bytes}
    (read : readUpload service.limits.maxUploadBytes [] query.chunks = .ok image) :
    classifyImage service later engine lib hashing experiments allowBackendOverride cache faults
      query = service.classifyAudited engine lib cache faults
        (query.asking image (some version) none variant) := by
  have asks : query.request hashing experiments allowBackendOverride image =
      query.asking image (some version) none variant := by
    rcases noBackend with forbidden | absent
    · simp only [Query.request, routed, versionArgument, forbidden, Bool.false_eq_true, if_false]
    · simp only [Query.request, routed, versionArgument, absent, ite_self]
  have asksVersion : (query.request hashing experiments allowBackendOverride image).modelVersion =
      some version := by
    rw [asks]
    rfl
  rw [← asksVersion] at resolvesLater
  rw [classifyImage_found read resolvesLater, asks]

end Route

end Together

/-- A query is served as a version under the name of a variant: the version is that of a registered
model, an upload that can be read is classified as that version with that name, and the outcome
names both. -/
structure ServedAs (service : InferenceService Session)
    (engine : Engine Session Tensor Logits Score) (lib : Library Score) (cache : Option Store)
    (faults : Faults) (query : Query) (modelVersion variant : Json Score)
    (outcome : Except Failure (Response Score) × List (AuditRecord Score) × Option Store) :
    Prop where
  refused : ∀ error, readUpload service.limits.maxUploadBytes [] query.chunks = .error error →
    outcome = (.error (.api error), [], cache)
  classified : ∃ version model, modelVersion = .string version ∧
    service.models.get classifierName (some version) = .ok model ∧
    model.name = classifierName ∧ model.version = version ∧
    ∀ image, readUpload service.limits.maxUploadBytes [] query.chunks = .ok image →
      outcome = service.classifyAudited engine lib cache faults
        (query.asking image (some version) none variant)
  named : NamedAs modelVersion variant outcome

/-- Variant and version travel together: however the registry has grown since the experiments were
loaded, an unpinned request is classified and audited as the variant of its user, and does not fail
with a missing model; a pinned request is classified as its version and audited without a
variant. -/
theorem variant_and_version_together (ops : FloatOps Score) (settings : Settings)
    (content : Option (Except FileError (Json Score))) (startup : ModelService Session)
    (started : Run registryStep RegistersPlain ⟨settings, [], []⟩ startup)
    (experiments : Registry ops)
    (loaded : load ops content (availableVersions startup) = .ok experiments)
    (service : InferenceService Session)
    (grown : Run registryStep RegistersPlain startup service.models)
    (later : ModelService Session)
    (grownLater : Run registryStep RegistersPlain service.models later)
    (engine : Engine Session Tensor Logits Score) (lib : Library Score)
    (foreign : Foreign engine lib) (hashing : Hashing Score) (allowBackendOverride : Bool)
    (cache : Option Store) (faults : Faults) (query : Query)
    (noBackend : allowBackendOverride = false ∨ query.backend = none) :
    (∀ experiment, query.modelVersion = none →
      Dict.get? experiments classifierName = some experiment →
      ServedAs service engine lib cache faults query
        (experiment.assign hashing query.userId).modelVersion
        (experiment.assign hashing query.userId).name
        (classifyImage service later engine lib hashing experiments allowBackendOverride cache
          faults query)) ∧
    ∀ version, query.modelVersion = some version →
      (∀ image, readUpload service.limits.maxUploadBytes [] query.chunks = .ok image →
        (classifyImage service later engine lib hashing experiments allowBackendOverride cache
          faults query).2 = (service.classifyAudited engine lib cache faults
            (query.asking image (some version)
              (if allowBackendOverride then query.backend else none) .null)).2) ∧
      ∀ record ∈ (classifyImage service later engine lib hashing experiments allowBackendOverride
        cache faults query).2.1, record.variant = .null := by
  constructor
  · intro experiment unpinned kept
    have plain := (plain_empty settings).run started
    rcases get_assigned hashing query.userId plain loaded kept with
      ⟨version, isVersion, resolves⟩
    rcases resolves service.models grown with ⟨model, found, isName, isModelVersion⟩
    rcases resolves later (grown.trans grownLater) with ⟨laterModel, foundLater, _, _⟩
    have routed : query.route hashing experiments =
        (.string version, (experiment.assign hashing query.userId).name) := by
      simp only [Query.route, unpinned, resolveVersion, kept, isVersion]
    have classified := fun image => @classifyImage_routed _ _ _ _ ops hashing experiments service
      engine lib cache faults later allowBackendOverride query _ version routed noBackend laterModel
      foundLater image
    refine ⟨fun error unread => classifyImage_unread unread,
      ⟨version, model, isVersion, found, isName, isModelVersion, classified⟩, ?_⟩
    rw [isVersion]
    cases read : readUpload service.limits.maxUploadBytes [] query.chunks with
    | error error =>
        rw [classifyImage_unread read]
        refine ⟨List.forall_mem_nil _, ?_, ?_⟩
        · rintro response ⟨⟩
        · rintro failure ⟨⟩
          exact readUpload_found read
    | ok image =>
        rw [classified image read]
        have asksVersion : (query.asking image (some version) none
            (experiment.assign hashing query.userId).name).modelVersion = some version := rfl
        have asksNoBackend : (query.asking image (some version) none
            (experiment.assign hashing query.userId).name).backend = none := rfl
        exact classifyAudited_namedAs foreign asksVersion asksNoBackend found isName isModelVersion
  · intro version pinned
    refine ⟨fun image read => classifyImage_pinned pinned read, ?_⟩
    intro record isRecord
    cases read : readUpload service.limits.maxUploadBytes [] query.chunks with
    | error error =>
        rw [classifyImage_unread read] at isRecord
        cases isRecord
    | ok image =>
        rw [classifyImage_pinned pinned read] at isRecord
        exact variant_of_record isRecord

/-! ## A small experiment -/

/-- Whole numbers as weights. -/
def smallOps : FloatOps ℕ where
  ofInt := fun value => some value.toNat
  ofText := fun _ => none
  sum := fun weights => weights.foldl Nat.add 0
  add := Nat.add
  ofUnits := fun units => units / 2 ^ 64
  less := fun left right => Nat.blt left right
  isShare := fun weight => Nat.ble weight 1
  isWhole := fun total => Nat.beq total 1
  isZero := fun weight => Nat.beq weight 0
  same := Nat.beq
  sameInt := fun left right => left = right.toNat

/-- The text of a string, and the digest of `rollout:u`. -/
def smallHashing : Hashing ℕ where
  format := fun value =>
    match value with
    | .string text => text
    | _ => ""
  digest := fun _ =>
    [103, 70, 54, 89, 19, 33, 182, 202, 13, 103, 25, 131, 216, 132, 221, 233, 116, 151, 15, 96,
      146, 170, 209, 204, 28, 165, 202, 33, 134, 254, 122, 103]

/-- One experiment that sends all traffic to its control. -/
def smallFile : Json ℕ :=
  .object [("experiments", .array [.object
    [("model_name", .string classifierName), ("name", .string "rollout"),
      ("variants", .array [.object
        [("name", .string "control"), ("model_version", .string "v1"), ("weight", .int 1)]])]])]

/-- A query without a version. -/
def smallQuery : Query where
  chunks := [[0]]
  topK := 1
  modelVersion := none
  backend := none
  includeProbabilities := true
  useCache := true
  userId := "u"
  userTier := "free"
  correlationId := "c"

theorem foreign_small : Foreign smallEngine smallLibrary := by
  constructor
  · rintro _ _ _ ⟨⟩
  · rintro _ _ _ ⟨⟩
  · intro members failure raised
    have isValue : ∃ message, failure = .value message := by
      simp only [smallLibrary, Library.ofText, smallPrediction] at raised
      split at raised
      · cases raised
      · cases raised
        exact ⟨_, rfl⟩
    rcases isValue with ⟨message, rfl⟩
    exact id

/-- The request of the small service is answered by the control. -/
theorem variant_and_version_together_small :
    ∃ experiments, load smallOps (some (.ok smallFile)) (availableVersions smallService.models) =
        .ok experiments ∧
      let outcome := classifyImage smallService smallService.models smallEngine smallLibrary
        smallHashing experiments false none ⟨false, false, false⟩ smallQuery
      Succeeds outcome.1 ∧
        ServedAs smallService smallEngine smallLibrary none ⟨false, false, false⟩ smallQuery
          (.string "v1") (.string "control") outcome := by
  have plain : PlainVersion smallModel.version := ⟨by decide, by decide⟩
  have started : Run registryStep RegistersPlain ⟨⟨[], .onnx, true⟩, [], []⟩ smallService.models :=
    .tail (.register smallModel true) .refl rfl plain
  have loads : ∃ experiments experiment, load smallOps (some (.ok smallFile))
      (availableVersions smallService.models) = .ok experiments ∧
      Dict.get? experiments classifierName = some experiment ∧
      experiment.assign smallHashing smallQuery.userId =
        ⟨.string "control", .string "v1", 1, rfl⟩ := ⟨_, _, rfl, rfl, rfl⟩
  rcases loads with ⟨experiments, experiment, loaded, kept, assigned⟩
  refine ⟨experiments, loaded, ?_⟩
  have served := (variant_and_version_together smallOps _ _ _ started experiments loaded
    smallService .refl smallService.models .refl smallEngine smallLibrary foreign_small
    smallHashing false none ⟨false, false, false⟩ smallQuery (.inl rfl)).1 experiment rfl kept
  rw [assigned] at served
  refine ⟨?_, served⟩
  rcases served.classified with ⟨version, model, isVersion, _, _, _, classified⟩
  cases isVersion
  rw [classified [0] rfl]
  exact ⟨_, rfl⟩

end VisionApi.Experiments
