import VisionApi.App.Startup
import VisionApi.Foundation.Grouping

/-!
# Health, readiness and the list of models

What the probes report, from the registry and from how the cache and the database
answer while they are asked.

The registry here is one that a run of calls leads to, failed loads among them.
A model whose class names have no length is registered all the same; the list of
models counts the classes of each and is not answered then.

The status is computed from four components, of which those that may be missing are
counted only where they were set up at the start.  For a process that has started,
`health_of_lifespan` leaves three things that can degrade it: a cache or a database
that no longer answers, and a model that runs on a fallback backend.

For the list of models the entries of the registry are what matters: they have
distinct keys, and the key of an entry is the name and version of its model
(`Listed`), so that a name and a version are listed once and the active version of a
name is one of them.
-/

namespace VisionApi.App

open Foundation Models Experiments

variable {Session Number Index : Type} {ops : FloatOps Number}

/-! ## The endpoints -/

/-- Without its latency. -/
structure ComponentHealth where
  name : String
  healthy : Bool
  detail : String

/-- The version that the service reports. -/
def apiVersion : String := "1.0.0"

/-- Without the uptime. -/
structure HealthResponse where
  status : String
  version : String
  components : List ComponentHealth

/-- How a probe ends, with the text of what it raised. -/
abbrev Probe := Except String Unit

/-- `CacheService.ping`, by whether there is a client. -/
def ping (redis : Bool) (answer : Probe) : Bool × Option String :=
  if redis then
    match answer with
    | .ok () => (true, none)
    | .error error => (false, some error)
  else (false, some "cache not configured")

/-- Whether the database answers, with the error if it does not. -/
def checkConnection : Probe → Bool × Option String
  | .ok () => (true, none)
  | .error error => (false, some error)

/-- The component of a probe; an empty detail is none. -/
def probed (name : String) (outcome : Bool × Option String) : ComponentHealth :=
  ⟨name, outcome.1, (outcome.2.filter fun text => text ≠ "").getD "connected"⟩

/-- The component of the loaded models. -/
def modelsComponent (loaded : List (LoadedModel Session)) : ComponentHealth :=
  if loaded.isEmpty then ⟨"models", false, "no models loaded; inference unavailable"⟩
  else ⟨"models", true, toString loaded.length ++ " model(s) loaded"⟩

/-- How a model that runs on another backend than the configured one is reported. -/
def fallbackDetail (model : LoadedModel Session) : String :=
  model.key ++ " using " ++ model.backend.value ++ " (requested " ++
    (model.degradedFrom.elim "?" InferenceBackend.value) ++ ")"

/-- The components, and the status that follows from them. -/
def health (app : AppState Session Index ops) (cache database : Probe) : HealthResponse :=
  let loaded := app.models.listModels
  let cacheOutcome := ping app.redis cache
  let databaseOutcome := checkConnection database
  let degraded := loaded.filter fun model => model.degradedFrom.isSome
  let databaseHealthy := !app.engine || databaseOutcome.1
  let backend : ComponentHealth :=
    ⟨"inference_backend", true,
      "running on a fallback backend: " ++ ", ".intercalate (degraded.map fallbackDetail)⟩
  { status :=
      if loaded.isEmpty then "unhealthy"
      else if !cacheOutcome.1 || !degraded.isEmpty || !databaseHealthy then "degraded"
      else "healthy"
    version := apiVersion
    components :=
      [modelsComponent loaded, probed "cache" cacheOutcome] ++
        (if app.engine then [probed "database" databaseOutcome] else []) ++
        (if degraded.isEmpty then [] else [backend]) }

/-- The answer of the readiness probe. -/
structure Readiness where
  statusCode : ℕ
  ready : Bool
  modelsLoaded : ℕ

/-- The process is ready as soon as a model is loaded. -/
def readiness (models : ModelService Session) : Readiness :=
  let ready := !models.models.isEmpty
  ⟨if ready then 200 else 503, ready, models.listModels.length⟩

/-- A model is active if its version is the active one of its name. -/
def isActive (service : ModelService Session) (model : LoadedModel Session) : Bool :=
  service.active.get? model.name = some model.version

/-- One entry of `GET /models`, without the value of the graph's size and the time of loading. -/
structure ModelInfo where
  name : String
  version : String
  task : TaskType
  backend : String
  loaded : Bool
  isActive : Bool
  numClasses : ℕ
  inputSize : ℤ
  metrics : List (String × ℚ)

/-- The answer of `GET /models`. -/
structure ModelsResponse where
  models : List ModelInfo
  defaultBackend : String

/-- The entry of a model with the given number of classes. -/
def describeModel (service : ModelService Session) (model : LoadedModel Session)
    (numClasses : ℕ) : ModelInfo where
  name := model.name
  version := model.version
  task := model.task
  backend := model.backend.value
  loaded := true
  isActive := isActive service model
  numClasses
  inputSize := model.imageSize
  metrics := model.metrics

/-- One entry, which counts the classes and reads the size of the graph. -/
def modelInfo (service : ModelService Session) (remaining : Path → Bool)
    (model : LoadedModel Session) : Except String ModelInfo := do
  let numClasses ← model.numClasses
  if remaining model.artifactPath then .ok (describeModel service model numClasses)
  else .error "FileNotFoundError"

/-- Every loaded model with its classes and the size of its graph, unless one of them raises. -/
def listModels (service : ModelService Session) (remaining : Path → Bool) :
    Except String ModelsResponse := do
  let models ← service.listModels.mapM (modelInfo service remaining)
  .ok ⟨models, service.settings.inferenceBackend.value⟩

/-! ## Health -/

section Health

variable {app : AppState Session Index ops} {cache database : Probe}

theorem ping_healthy_iff {redis : Bool} {answer : Probe} :
    (ping redis answer).1 = true ↔ redis = true ∧ answer = .ok () := by
  cases redis with
  | false => simp [ping]
  | true =>
      cases answer with
      | error error => simp [ping]
      | ok answered => simp [ping]

theorem checkConnection_healthy_iff {answer : Probe} :
    (checkConnection answer).1 = true ↔ answer = .ok () := by
  cases answer with
  | error error => simp [checkConnection]
  | ok answered => simp [checkConnection]

/-- The status by what the service has and what answers. -/
theorem health_status_iff :
    ((health app cache database).status = "unhealthy" ↔ app.models.listModels = []) ∧
      ((health app cache database).status = "healthy" ↔ app.models.listModels ≠ [] ∧
        (app.redis = true ∧ cache = .ok ()) ∧ (app.engine = true → database = .ok ()) ∧
          ∀ model ∈ app.models.listModels, model.degradedFrom = none) := by
  have noDegraded : ((app.models.listModels.filter fun model =>
      model.degradedFrom.isSome).isEmpty = true) ↔
        ∀ model ∈ app.models.listModels, model.degradedFrom = none := by
    simp [List.filter_eq_nil_iff]
  have databaseUp : (!app.engine || (checkConnection database).1) = true ↔
      (app.engine = true → database = .ok ()) := by
    rw [Bool.or_eq_true, checkConnection_healthy_iff]
    cases app.engine with
    | false => simp
    | true => simp
  rw [← ping_healthy_iff, ← databaseUp, ← noDegraded]
  simp only [health]
  generalize (ping app.redis cache).1 = cacheUp
  generalize (!app.engine || (checkConnection database).1) = databaseUp
  generalize (app.models.listModels.filter fun model =>
    model.degradedFrom.isSome).isEmpty = noneDegraded
  cases loaded : app.models.listModels with
  | nil => simp
  | cons first rest =>
      cases cacheUp <;> cases databaseUp <;> cases noneDegraded <;> simp

variable {host : Host Session Number Index}

/-- The start keeps the cache and the database if they answer it. -/
theorem probes_of_lifespan (returned : lifespan ops host = .ok app) :
    (app.redis = true ↔ host.redis = .connected) ∧
      app.engine = createDatabase host.isProduction host.database := by
  simp only [lifespan, bind_ok_iff, mapError_ok_iff] at returned
  rcases returned with ⟨redis, connected, _, _, _, _, _, _, ⟨⟩⟩
  refine ⟨?_, rfl⟩
  cases found : host.redis with
  | connected =>
      rw [found] at connected
      cases connected
      simp
  | unavailable error =>
      rw [found] at connected
      cases connected
      simp
  | raises error =>
      rw [found] at connected
      cases connected

/-- While the process runs it is ready and never unhealthy, and it is healthy exactly as long as
the cache, if it answered at the start, still answers, the database, if it was set up at the start,
still answers, and every model runs on the configured backend. -/
theorem health_of_lifespan (noDigit : host.digitValue ':' = none)
    (returned : lifespan ops host = .ok app) :
    (readiness app.models).statusCode = 200 ∧
      ∀ cache database, (health app cache database).status ≠ "unhealthy" ∧
        ((health app cache database).status = "healthy" ↔
          (host.redis = .connected ∧ cache = .ok ()) ∧
            (createDatabase host.isProduction host.database = true → database = .ok ()) ∧
            ∀ model ∈ app.models.listModels, model.backend = host.settings.inferenceBackend) := by
  rcases started_of_lifespan noDigit returned with
    ⟨default, _, others, history, loads, _, started, isService, _⟩
  have isDefault := started.served
  rw [← started.tracks.models, ← isService] at isDefault
  have entry := Dict.mem_of_get? isDefault
  have isListed : app.models.listModels ≠ [] := by
    apply List.ne_nil_of_mem
    exact List.mem_map.mpr ⟨_, entry, rfl⟩
  have reported : (∀ model ∈ app.models.listModels, model.degradedFrom = none) ↔
      ∀ model ∈ app.models.listModels, model.backend = host.settings.inferenceBackend := by
    rw [isService]
    apply forall₂_congr
    intro model isModel
    rcases List.mem_map.mp isModel with ⟨listed, isEntry, rfl⟩
    exact started.reported listed isEntry
  rcases probes_of_lifespan returned with ⟨isRedis, isEngine⟩
  refine ⟨?_, ?_⟩
  · have filled : app.models.models.isEmpty = false := by
      rw [List.isEmpty_eq_false_iff]
      exact List.ne_nil_of_mem entry
    simp [readiness, filled]
  · intro cache database
    rw [Ne, health_status_iff.1, health_status_iff.2, reported, isRedis, isEngine]
    simp [isListed]

/-- One of the versions falls back to its INT8 graph. -/
theorem health_of_lifespan_twoVersions :
    ∃ app, lifespan smallOps twoVersions = .ok app ∧
      (health app (.ok ()) (.ok ())).status ≠ "healthy" := by
  have starts : Succeeds (lifespan smallOps twoVersions) := ⟨_, rfl⟩
  rcases starts with ⟨app, returned⟩
  have backends : app.models.listModels.map LoadedModel.backend = [.onnx, .onnxInt8] := by
    cases returned
    rfl
  have noDigit : twoVersions.digitValue ':' = none := by decide
  refine ⟨app, returned, ?_⟩
  intro isHealthy
  have configured := ((health_of_lifespan noDigit returned).2 (.ok ()) (.ok ())).2.mp isHealthy
  have isInt8 : InferenceBackend.onnxInt8 ∈ app.models.listModels.map LoadedModel.backend := by
    simp [backends]
  rcases List.mem_map.mp isInt8 with ⟨model, isModel, runsInt8⟩
  cases runsInt8.symm.trans (configured.2.2 model isModel)

end Health

/-! ## Listing -/

section Listing

/-- Models are listed under their keys, each once. -/
structure Listed (service : ModelService Session) : Prop where
  distinct : (service.models.map Prod.fst).Nodup
  keyed : ∀ entry ∈ service.models, entry.1 = entry.2.key

variable {service : ModelService Session} {settings : Models.Settings}
  {history : History Session}

theorem Listed.register (isListed : Listed service) (model : LoadedModel Session)
    (makeActive : Bool) : Listed (service.register model makeActive) where
  distinct := Dict.nodup_keys_set isListed.distinct _ _
  keyed := by
    intro entry isEntry
    rcases Dict.mem_set isEntry with rfl | isOld
    · rfl
    · exact isListed.keyed entry isOld

theorem listed_of_calls (calls : Calls settings history) : Listed history.service := by
  apply calls.invariant
  · exact ⟨List.nodup_nil, List.forall_mem_nil _⟩
  · intro before call after isListed proper stepped
    cases stepped
    have effect : Effect before.service call (before.service.call call) := effect_of_proper proper
    unfold History.after
    generalize before.service.call call = ended at effect
    cases effect with
    | fails error measured => exact isListed
    | registers result model makeActive asked nameFree versionFree returns =>
        exact isListed.register model makeActive
    | activates name version known noModel measured =>
        exact ⟨isListed.distinct, isListed.keyed⟩

/-- Names and versions are listed once. -/
theorem Listed.nodup (isListed : Listed service) :
    (service.listModels.map fun model => (model.name, model.version)).Nodup := by
  apply List.Nodup.of_map fun pair : String × String => pair.1 ++ ":" ++ pair.2
  have keys : (service.listModels.map fun model => (model.name, model.version)).map
      (fun pair : String × String => pair.1 ++ ":" ++ pair.2) = service.models.map Prod.fst := by
    rw [ModelService.listModels, List.map_map, List.map_map]
    apply List.map_congr_left
    intro entry isEntry
    exact (isListed.keyed entry isEntry).symm
  rw [keys]
  exact isListed.distinct

/-- A request for a listed name is served by the listed model whose version is active. -/
theorem Listed.serves {history : History Session} (isListed : Listed history.service)
    (tracks : Tracks history) {model : LoadedModel Session}
    (isModel : model ∈ history.service.listModels) :
    ∃ found, history.service.get model.name none = .ok found ∧
      (found ∈ history.service.listModels ∧ found.name = model.name) ∧
      history.service.active.get? model.name = some found.version := by
  rcases List.mem_map.mp isModel with ⟨entry, isEntry, rfl⟩
  have known := Dict.isSome_get?_of_mem isEntry
  rw [isListed.keyed entry isEntry, LoadedModel.key, tracks.models] at known
  rcases Option.isSome_iff_exists.mp known with ⟨registered, isLatest⟩
  rcases eq_of_latest isLatest with ⟨isRegistered, sameName, _⟩
  rcases tracks.resolves.unpinned registered isRegistered with
    ⟨version, found, isActive, served, isServed⟩
  rcases eq_of_latest isServed with ⟨_, foundName, rfl⟩
  rw [← tracks.models] at isServed
  rw [← sameName]
  refine ⟨found, served, ⟨?_, foundName⟩, isActive⟩
  exact List.mem_map.mpr ⟨_, Dict.mem_of_get? isServed, rfl⟩

/-- The entry of a model as it is if its classes can be counted. -/
def entryOf (service : ModelService Session) (model : LoadedModel Session) : ModelInfo :=
  describeModel service model (model.classNames.len?.getD 0)

/-- A model is described exactly if its classes can be counted and its graph is there. -/
theorem modelInfo_ok_iff {remaining : Path → Bool} {model : LoadedModel Session}
    {info : ModelInfo} :
    modelInfo service remaining model = .ok info ↔
      (Succeeds model.numClasses ∧ remaining model.artifactPath = true) ∧
        entryOf service model = info := by
  simp only [modelInfo, entryOf, LoadedModel.numClasses, bind_ok_iff]
  cases model.classNames.len? with
  | none => simp [not_succeeds_error]
  | some size =>
      simp only [Except.ok.injEq, exists_eq_left', succeeds_ok, true_and, Option.getD_some]
      split
      · rename_i there
        simp [there]
      · rename_i missing
        simp [missing]

/-- The list is answered exactly if every model can be described. -/
theorem listModels_ok_iff {remaining : Path → Bool} {response : ModelsResponse} :
    listModels service remaining = .ok response ↔
      (∀ model ∈ service.listModels,
        Succeeds model.numClasses ∧ remaining model.artifactPath = true) ∧
        response = ⟨service.listModels.map (entryOf service),
          service.settings.inferenceBackend.value⟩ := by
  simp only [listModels, bind_ok_iff, mapM_ok_iff, modelInfo_ok_iff, List.forall₂_and_left,
    ← List.forall₂_map_left_iff (f := entryOf service), List.forall₂_eq_eq_eq]
  constructor
  · rintro ⟨models, ⟨there, rfl⟩, ⟨⟩⟩
    exact ⟨there, rfl⟩
  · rintro ⟨there, rfl⟩
    exact ⟨_, ⟨there, rfl⟩, rfl⟩

/-- The one member with a property is all that is left of a list without duplicates. -/
theorem filter_eq_singleton {Item : Type} {items : List Item} {keeps : Item → Bool} {item : Item}
    (distinct : items.Nodup) (isItem : item ∈ items)
    (only : ∀ other ∈ items, keeps other = true ↔ other = item) :
    items.filter keeps = [item] := by
  induction items with
  | nil => cases isItem
  | cons first rest ih =>
      rw [List.nodup_cons] at distinct
      rw [List.forall_mem_cons] at only
      rcases List.mem_cons.mp isItem with rfl | isLater
      · have none : rest.filter keeps = [] := by
          apply List.filter_eq_nil_iff.mpr
          intro other isOther kept
          exact distinct.1 (((only.2 other isOther).mp kept) ▸ isOther)
        rw [List.filter_cons_of_pos (only.1.mpr rfl), none]
      · have notFirst : ¬keeps first = true := by
          intro kept
          exact distinct.1 (only.1.mp kept ▸ isLater)
        rw [List.filter_cons_of_neg notFirst]
        exact ih distinct.2 isLater only.2

/-- The list of models is answered exactly if the classes of every model can be counted and its
graph is still there; it then names every version once, and of each name exactly one is active: the
one that serves a request without a version. -/
theorem listModels_one_active (calls : Calls settings history) (remaining : Path → Bool) :
    (Succeeds (listModels history.service remaining) ↔
      ∀ model ∈ history.service.listModels,
        Succeeds model.numClasses ∧ remaining model.artifactPath = true) ∧
    ∀ response, listModels history.service remaining = .ok response →
      (response.models.map fun info => (info.name, info.version)).Nodup ∧
        ∀ info ∈ response.models, ∃ model served,
          history.service.get info.name none = .ok model ∧
          modelInfo history.service remaining model = .ok served ∧
          (response.models.filter fun other => other.name = info.name && other.isActive) =
            [served] := by
  have isListed := listed_of_calls calls
  have tracks := tracks_of_calls calls
  constructor
  · constructor
    · rintro ⟨response, listed⟩
      exact (listModels_ok_iff.mp listed).1
    · intro there
      exact ⟨_, listModels_ok_iff.mpr ⟨there, rfl⟩⟩
  · intro response listed
    rcases listModels_ok_iff.mp listed with ⟨there, rfl⟩
    have named : (history.service.listModels.map (entryOf history.service)).map
        (fun info => (info.name, info.version)) =
          history.service.listModels.map fun model => (model.name, model.version) := by
      rw [List.map_map]
      rfl
    have distinct := isListed.nodup
    rw [← named] at distinct
    refine ⟨distinct, ?_⟩
    intro info isInfo
    rcases List.mem_map.mp isInfo with ⟨model, isModel, rfl⟩
    rcases isListed.serves tracks isModel with ⟨found, served, isFound, isActive⟩
    have isServed : modelInfo history.service remaining found =
        .ok (entryOf history.service found) :=
      modelInfo_ok_iff.mpr ⟨there found isFound.1, rfl⟩
    refine ⟨found, _, served, isServed, ?_⟩
    apply filter_eq_singleton distinct.of_map (List.mem_map_of_mem isFound.1)
    intro other isOther
    rw [Bool.and_eq_true, decide_eq_true_eq]
    constructor
    · rintro ⟨sameName, otherActive⟩
      apply List.inj_on_of_nodup_map distinct isOther (List.mem_map_of_mem isFound.1)
      rcases List.mem_map.mp isOther with ⟨another, _, rfl⟩
      have sameVersion : some another.version = some found.version := by
        rw [← of_decide_eq_true otherActive, ← isActive]
        exact congrArg _ sameName
      have foundName : another.name = found.name := sameName.trans isFound.2.symm
      simp only [entryOf, describeModel, foundName, Option.some.inj sameVersion]
    · rintro rfl
      refine ⟨isFound.2, ?_⟩
      simp only [entryOf, describeModel, App.isActive, isFound.2, isActive, decide_true]

/-- A version is loaded, another one is registered beside it and promoted. -/
def promoted : History Unit :=
  (loadThenPromote secondModel).foldl History.after (History.start ⟨[], .onnx, true⟩)

/-- Of two versions the promoted one is the only active one, and it serves. -/
theorem listModels_one_active_promoted :
    ∃ response served model, listModels promoted.service (fun _ => true) = .ok response ∧
      response.models.map (fun info => (info.version, info.isActive)) =
        [("v1", false), ("v2", true)] ∧
      promoted.service.get classifierName none = .ok model ∧ model.version = "v2" ∧
      modelInfo promoted.service (fun _ => true) model = .ok served ∧
      (response.models.filter fun other => other.name = classifierName && other.isActive) =
        [served] := by
  have calls : Calls ⟨[], .onnx, true⟩ promoted := by
    refine .tail _ (.tail _ (.tail _ (.tail _ .refl rfl ?_) rfl ?_) rfl ?_) rfl ?_
    · exact proper_loadDefault _
    · trivial
    · exact ⟨by decide, by decide⟩
    · trivial
  have listing := listModels_one_active calls fun _ => true
  have counted : ∀ model ∈ promoted.service.listModels,
      Succeeds model.numClasses ∧ true = true := by
    intro model isModel
    refine ⟨?_, rfl⟩
    rcases List.mem_cons.mp isModel with rfl | isSecond
    · exact ⟨1, rfl⟩
    · cases List.mem_singleton.mp isSecond
      exact ⟨2, rfl⟩
  rcases listing.1.mpr counted with ⟨response, listed⟩
  have entries : response.models = promoted.service.listModels.map (entryOf promoted.service) := by
    rw [(listModels_ok_iff.mp listed).2]
  have isFirst : entryOf promoted.service secondModel ∈ response.models := by
    rw [entries]
    exact List.mem_map_of_mem (List.mem_cons_of_mem _ List.mem_cons_self)
  rcases (listing.2 response listed).2 _ isFirst with ⟨model, served, gets, describes, only⟩
  refine ⟨response, served, model, listed, ?_, gets, ?_, describes, only⟩
  · rw [entries]
    decide
  · cases gets
    rfl

end Listing

end VisionApi.App
