import Mathlib.Data.Set.Finite.Basic
import VisionApi.Inference.Attempt

/-!
# The cardinality of the metrics

A collector keeps a child for every tuple of label values it has seen.  The
middleware and the routers create children before and after routing; here they
are compared with a set that depends on the deployment alone.

The bound has the series of every method, endpoint and status of the table of routes,
and of every loaded model with both outcomes.  An exchange is a request with what
happened to it: its route, if there was one, its status, and how the endpoint ended.
All children but two kinds are within the bound, whatever the exchange.

The gauge of requests in progress is labelled before routing, with the method and the
raw path of the request; and the failures of the detector are counted under the version
that the client has named.  An exchange is `Within` if, unless it is a preflight or its
path is excluded, both are in the table, and the version it names is one that the
detector has.  As children are only added, all of them lie in the bound exactly if
every exchange is within.
-/

namespace VisionApi.Monitoring

open Foundation Models

variable {Session : Type}

/-! ## Collectors -/

/-- The collectors of `REGISTRY`. -/
inductive Collector where
  | requestCount
  | requestLatency
  | requestsInProgress
  | inferenceCount
  | inferenceLatency
  | modelInfo
deriving DecidableEq

/-- A child of a collector. -/
structure Series where
  collector : Collector
  labels : List String
deriving DecidableEq

/-- `collector.labels(..)`; children are never removed. -/
def child (created : List Series) (series : Series) : List Series :=
  if series ∈ created then created else created ++ [series]

/-- The children of an inference. -/
def recordInference (model version backend : String) (success : Bool) : List Series :=
  ⟨.inferenceCount, [model, version, backend, if success then "success" else "failure"]⟩ ::
    if success then [⟨.inferenceLatency, [model, version, backend]⟩] else []

/-- `record_inference` for a loaded model. -/
def recordModel (model : LoadedModel Session) (success : Bool) : List Series :=
  recordInference model.name model.version model.backend.value success

/-- The child of a loaded model. -/
def recordModelLoaded (model : LoadedModel Session) : Series :=
  ⟨.modelInfo, [model.name, model.version, model.backend.value,
    if model.degradedFrom.isSome then "true" else "false"]⟩

/-! ## The application -/

/-- The attributes of a route that the middleware reads. -/
structure Route where
  pathFormat : Option String
  path : Option String

/-- The label of an endpoint: the template of its route. -/
def routeTemplate (route : Option Route) : String :=
  let pathFormat := (route.bind Route.pathFormat).filter fun text => text ≠ ""
  let template := (pathFormat.or (route.bind Route.path)).filter fun text => text ≠ ""
  template.getD "unmatched"

/-- The routes with their methods, and the status codes of the handlers. -/
structure RouteTable where
  routes : List Route
  methods : List String
  statusCodes : List ℕ
  excludePaths : List String

/-- The endpoints that can occur as labels. -/
def RouteTable.endpoints (table : RouteTable) : List String :=
  routeTemplate none :: table.routes.map fun route => routeTemplate (some route)

/-- The status codes that are counted; a request that raises counts as 500. -/
def RouteTable.statusTexts (table : RouteTable) : List String :=
  (500 :: table.statusCodes).map toString

/-- How the detection ends once its model is found. -/
inductive Ending where
  | returned
  | unavailable
  | raised

/-- The endpoint whose inference a request reaches; its version is the one the router passes on. -/
inductive Endpoint where
  | classify (modelVersion : Option String) (backend : Option InferenceBackend) (raises : Bool)
  | detect (modelVersion : Option String) (ending : Ending)
  | similar (raises : Bool)
  | other

/-- A request, and what routing and the handlers make of it. -/
structure Exchange (table : RouteTable) where
  method : String
  path : String
  /-- The CORS middleware answers it before any other. -/
  preflight : Bool
  route : Option Route
  endpoint : Endpoint
  /-- `none` for a request that raises. -/
  status : Option ℕ
  route_mem : ∀ found, route = some found → found ∈ table.routes
  status_mem : ∀ code, status = some code → code ∈ table.statusCodes

/-- The models of a process, and those of them that it recorded when it started. -/
structure Deployment (Session : Type) where
  models : ModelService Session
  recorded : List (LoadedModel Session)
  keyed : models.Keyed
  named : ∀ model ∈ models.listModels, ':' ∉ model.name.toList
  recorded_mem : ∀ model ∈ recorded, model ∈ models.listModels

/-! ## What is created -/

/-- The children `classify_image` creates. -/
def recordClassify (models : ModelService Session) (version : Option String)
    (backend : Option InferenceBackend) (raises : Bool) : List Series :=
  match raises, models.getForBackend classifierName version backend with
  | false, .ok model => recordModel model true
  | _, _ =>
      match models.get classifierName version with
      | .ok model => recordModel model false
      | .error _ => []

/-- `model_version or "unknown"`. -/
def versionLabel (version : Option String) : String :=
  (version.filter fun text => text ≠ "").getD "unknown"

/-- The children `detect_objects` creates. -/
def recordDetect (models : ModelService Session) (version : Option String) (ending : Ending) :
    List Series :=
  match ending, models.get detectorName version with
  | .returned, .ok model => recordModel model true
  | .unavailable, .ok _ => []
  | _, _ => recordInference detectorName (versionLabel version) "unknown" false

/-- The children `find_similar` creates. -/
def recordSimilar (models : ModelService Session) (raises : Bool) : List Series :=
  match raises, models.get embedderName none with
  | false, .ok model => recordModel model true
  | _, _ => []

/-- The children that an endpoint creates. -/
def Endpoint.series (models : ModelService Session) : Endpoint → List Series
  | .classify version backend raises => recordClassify models version backend raises
  | .detect version ending => recordDetect models version ending
  | .similar raises => recordSimilar models raises
  | .other => []

variable {table : RouteTable}

/-- `MetricsMiddleware.dispatch`, with the endpoint it calls. -/
def Exchange.series (exchange : Exchange table) (models : ModelService Session) : List Series :=
  if exchange.preflight then []
  else if exchange.path ∈ table.excludePaths then exchange.endpoint.series models
  else
    let template := routeTemplate exchange.route
    [⟨.requestsInProgress, [exchange.method, exchange.path]⟩] ++ exchange.endpoint.series models ++
      [⟨.requestLatency, [exchange.method, template]⟩,
        ⟨.requestCount, [exchange.method, template, toString (exchange.status.getD 500)]⟩]

/-- The children after a sequence of requests. -/
def Deployment.created (deployment : Deployment Session) (exchanges : List (Exchange table)) :
    List Series :=
  exchanges.foldl (fun created exchange => (exchange.series deployment.models).foldl child created)
    ((deployment.recorded.map recordModelLoaded).foldl child [])

/-! ## The bound -/

/-- The versions with which a failed detection may be recorded. -/
def detectorVersions (loaded : List (LoadedModel Session)) : List String :=
  "unknown" :: (loaded.filter fun model => model.name = detectorName).map LoadedModel.version

/-- The series of a loaded model. -/
def modelSeries (model : LoadedModel Session) : List Series :=
  recordModelLoaded model :: (recordModel model true ++ recordModel model false)

/-- The series of a method and an endpoint. -/
def httpSeries (table : RouteTable) (method endpoint : String) : List Series :=
  ⟨.requestsInProgress, [method, endpoint]⟩ :: ⟨.requestLatency, [method, endpoint]⟩ ::
    table.statusTexts.map fun status => ⟨.requestCount, [method, endpoint, status]⟩

/-- The children that the route table, its methods, the status codes and the loaded models allow. -/
def bound (table : RouteTable) (loaded : List (LoadedModel Session)) : List Series :=
  (table.methods.flatMap fun method => table.endpoints.flatMap (httpSeries table method)) ++
    loaded.flatMap modelSeries ++
    (detectorVersions loaded).flatMap fun version =>
      recordInference detectorName version "unknown" false

/-- A request whose method and path are in the route table unless its path is excluded, and whose
detector version, if it reaches the detector, is loaded. -/
def Exchange.Within (exchange : Exchange table) (loaded : List (LoadedModel Session)) : Prop :=
  exchange.preflight = false →
    (exchange.path ∉ table.excludePaths →
      exchange.method ∈ table.methods ∧ exchange.path ∈ table.endpoints) ∧
    ∀ version ending, exchange.endpoint = .detect version ending →
      versionLabel version ∈ detectorVersions loaded

/-! ## Children of a sequence -/

section Created

theorem mem_child_iff {created : List Series} {series other : Series} :
    other ∈ child created series ↔ other ∈ created ∨ other = series := by
  simp only [child]
  split
  · rename_i known
    constructor
    · exact Or.inl
    · rintro (isOld | rfl)
      · exact isOld
      · exact known
  · rw [List.mem_append, List.mem_singleton]

theorem mem_foldl_child_iff {created added : List Series} {series : Series} :
    series ∈ added.foldl child created ↔ series ∈ created ∨ series ∈ added := by
  induction added generalizing created with
  | nil => simp
  | cons first added ih => rw [List.foldl_cons, ih, mem_child_iff, or_assoc, List.mem_cons]

/-- The children come from the models at the start and from the exchanges. -/
theorem mem_created_iff {deployment : Deployment Session} {exchanges : List (Exchange table)}
    {series : Series} : series ∈ deployment.created exchanges ↔
      series ∈ deployment.recorded.map recordModelLoaded ∨
        ∃ exchange ∈ exchanges, series ∈ exchange.series deployment.models := by
  have grows : ∀ start : List Series,
      series ∈ exchanges.foldl (fun created exchange =>
        (exchange.series deployment.models).foldl child created) start ↔
      series ∈ start ∨ ∃ exchange ∈ exchanges, series ∈ exchange.series deployment.models := by
    induction exchanges with
    | nil => simp
    | cons exchange exchanges ih =>
        intro start
        simp only [List.foldl_cons, ih, mem_foldl_child_iff, or_assoc, List.exists_mem_cons_iff]
  rw [Deployment.created, grows, mem_foldl_child_iff]
  simp

end Created

/-! ## Children within the bound -/

section Bound

variable {loaded : List (LoadedModel Session)} {method endpoint : String}

theorem mem_bound_of_http {series : Series} (isMethod : method ∈ table.methods)
    (isEndpoint : endpoint ∈ table.endpoints)
    (isSeries : series ∈ httpSeries table method endpoint) :
    series ∈ bound table loaded := by
  simp only [bound, List.mem_append, List.mem_flatMap]
  exact Or.inl (Or.inl ⟨method, isMethod, endpoint, isEndpoint, isSeries⟩)

theorem mem_bound_of_model {model : LoadedModel Session} {series : Series}
    (isLoaded : model ∈ loaded) (isSeries : series ∈ modelSeries model) :
    series ∈ bound table loaded := by
  simp only [bound, List.mem_append, List.mem_flatMap]
  exact Or.inl (Or.inr ⟨model, isLoaded, isSeries⟩)

theorem recordModel_subset {model : LoadedModel Session} {success : Bool} {series : Series}
    (isLoaded : model ∈ loaded) (isSeries : series ∈ recordModel model success) :
    series ∈ bound table loaded := by
  apply mem_bound_of_model isLoaded
  apply List.mem_cons_of_mem
  rw [List.mem_append]
  cases success with
  | true => exact Or.inl isSeries
  | false => exact Or.inr isSeries

/-- The gauge stays in the bound exactly for a method and a path of the route table. -/
theorem inProgress_mem_bound_iff :
    (⟨.requestsInProgress, [method, endpoint]⟩ : Series) ∈ bound table loaded ↔
      method ∈ table.methods ∧ endpoint ∈ table.endpoints := by
  constructor
  · intro isBound
    simp only [bound, List.mem_append, List.mem_flatMap] at isBound
    rcases isBound with (⟨known, isMethod, template, isEndpoint, isSeries⟩ | ⟨model, _, isSeries⟩) |
      ⟨version, _, isSeries⟩
    · simp only [httpSeries, List.mem_cons, List.mem_map, Series.mk.injEq, reduceCtorEq, false_and,
        and_false, exists_false, or_false, true_and, List.cons.injEq, and_true] at isSeries
      rcases isSeries with ⟨rfl, rfl⟩
      exact ⟨isMethod, isEndpoint⟩
    · simp [modelSeries, recordModelLoaded, recordModel, recordInference] at isSeries
    · simp [recordInference] at isSeries
  · rintro ⟨isMethod, isEndpoint⟩
    exact mem_bound_of_http isMethod isEndpoint List.mem_cons_self

theorem value_ne_unknown (backend : InferenceBackend) : backend.value ≠ "unknown" := by
  cases backend with
  | torch | onnx | onnxInt8 | tensorrt => decide

/-- A failed detection stays in the bound exactly for a loaded version, or none. -/
theorem detectorFailure_mem_bound_iff (table : RouteTable) {version : String} :
    (⟨.inferenceCount, [detectorName, version, "unknown", "failure"]⟩ : Series) ∈
      bound table loaded ↔ version ∈ detectorVersions loaded := by
  constructor
  · intro isBound
    simp only [bound, List.mem_append, List.mem_flatMap] at isBound
    rcases isBound with (⟨known, _, template, _, isSeries⟩ | ⟨model, _, isSeries⟩) |
      ⟨known, isKnown, isSeries⟩
    · simp [httpSeries] at isSeries
    · have isBackend : model.backend.value = "unknown" := by
        simp [modelSeries, recordModelLoaded, recordModel, recordInference] at isSeries
        exact isSeries.2.2.symm
      exact absurd isBackend (value_ne_unknown _)
    · simp [recordInference] at isSeries
      subst isSeries
      exact isKnown
  · intro isKnown
    simp only [bound, List.mem_append, List.mem_flatMap]
    exact Or.inr ⟨version, isKnown, List.mem_cons_self⟩

end Bound

/-! ## Children of one request -/

section Exchange

variable {deployment : Deployment Session}

theorem mem_listModels_of_get {models : ModelService Session} {name : String}
    {version : Option String} {model : LoadedModel Session}
    (found : models.get name version = .ok model) : model ∈ models.listModels := by
  rcases get?_of_get found with ⟨key, isModel⟩
  exact List.mem_map_of_mem (Dict.mem_of_get? isModel)

/-- A version with which a detector is found is that of a loaded detector, or none. -/
theorem versionLabel_of_get {version : Option String} {model : LoadedModel Session}
    (found : deployment.models.get detectorName version = .ok model) :
    versionLabel version ∈ detectorVersions deployment.models.listModels := by
  cases pinned : version.filter fun text => text ≠ "" with
  | none =>
      rw [versionLabel, pinned]
      exact List.mem_cons_self
  | some text =>
      have isModel : deployment.models.models.get? (detectorName ++ ":" ++ text) = some model := by
        simp only [ModelService.get, pinned, Option.some_or] at found
        split at found
        · rename_i isModel
          cases found
          exact isModel
        · cases found
      have listed := mem_listModels_of_get found
      have sameChars := congrArg String.toList (deployment.keyed _ _ isModel)
      simp only [LoadedModel.key, String.toList_append, List.append_assoc] at sameChars
      rcases append_separator_injective (deployment.named model listed) (by decide) sameChars with
        ⟨sameName, sameVersion⟩
      rw [versionLabel, pinned, Option.getD_some]
      apply List.mem_cons_of_mem
      apply List.mem_map.mpr
      refine ⟨model, ?_, String.toList_inj.mp sameVersion⟩
      exact List.mem_filter.mpr ⟨listed, decide_eq_true (String.toList_inj.mp sameName)⟩

theorem recordClassify_subset {version : Option String} {backend : Option InferenceBackend}
    {raises : Bool} {series : Series}
    (isSeries : series ∈ recordClassify deployment.models version backend raises) :
    series ∈ bound table deployment.models.listModels := by
  simp only [recordClassify] at isSeries
  split at isSeries
  · rename_i found
    exact recordModel_subset (mem_listModels_of_get (get_of_getForBackend found)) isSeries
  · split at isSeries
    · rename_i found
      exact recordModel_subset (mem_listModels_of_get found) isSeries
    · cases isSeries

theorem recordSimilar_subset {raises : Bool} {series : Series}
    (isSeries : series ∈ recordSimilar deployment.models raises) :
    series ∈ bound table deployment.models.listModels := by
  simp only [recordSimilar] at isSeries
  split at isSeries
  · rename_i found
    exact recordModel_subset (mem_listModels_of_get found) isSeries
  · cases isSeries

/-- A detection stays in the bound exactly when its version is loaded or left out. -/
theorem recordDetect_subset_iff {version : Option String} {ending : Ending} :
    (∀ series ∈ recordDetect deployment.models version ending,
      series ∈ bound table deployment.models.listModels) ↔
      versionLabel version ∈ detectorVersions deployment.models.listModels := by
  have failure : (∀ series ∈ recordInference detectorName (versionLabel version) "unknown" false,
      series ∈ bound table deployment.models.listModels) ↔
      versionLabel version ∈ detectorVersions deployment.models.listModels := by
    rw [← detectorFailure_mem_bound_iff table]
    exact List.forall_mem_singleton
  simp only [recordDetect]
  split
  · rename_i found
    constructor
    · intro _
      exact versionLabel_of_get found
    · intro _ series isSeries
      exact recordModel_subset (mem_listModels_of_get found) isSeries
  · rename_i found
    constructor
    · intro _
      exact versionLabel_of_get found
    · intro _
      exact List.forall_mem_nil _
  · exact failure

/-- An endpoint stays within the bound unless it counts an unknown detector version. -/
theorem endpoint_subset_iff (table : RouteTable) {endpoint : Endpoint} :
    (∀ series ∈ endpoint.series deployment.models,
      series ∈ bound table deployment.models.listModels) ↔
      ∀ version ending, endpoint = .detect version ending →
        versionLabel version ∈ detectorVersions deployment.models.listModels := by
  cases endpoint with
  | detect version ending =>
      rw [Endpoint.series, recordDetect_subset_iff]
      constructor
      · rintro isKnown _ _ ⟨⟩
        exact isKnown
      · intro each
        exact each version ending rfl
  | classify version backend raises =>
      constructor
      · rintro _ _ _ ⟨⟩
      · intro _ series isSeries
        exact recordClassify_subset isSeries
  | similar raises =>
      constructor
      · rintro _ _ _ ⟨⟩
      · intro _ series isSeries
        exact recordSimilar_subset isSeries
  | other =>
      constructor
      · rintro _ _ _ ⟨⟩
      · intro _
        exact List.forall_mem_nil _

theorem template_mem_endpoints (exchange : Exchange table) :
    routeTemplate exchange.route ∈ table.endpoints := by
  cases isRoute : exchange.route with
  | none => exact List.mem_cons_self
  | some route =>
      apply List.mem_cons_of_mem
      exact List.mem_map_of_mem (exchange.route_mem route isRoute)

theorem status_mem_statusTexts (exchange : Exchange table) :
    toString (exchange.status.getD 500) ∈ table.statusTexts := by
  apply List.mem_map_of_mem
  cases isStatus : exchange.status with
  | none => exact List.mem_cons_self
  | some code => exact List.mem_cons_of_mem _ (exchange.status_mem code isStatus)

/-- What a request creates stays in the bound exactly when the request is within it. -/
theorem exchange_subset_iff (table : RouteTable) {exchange : Exchange table} :
    (∀ series ∈ exchange.series deployment.models,
      series ∈ bound table deployment.models.listModels) ↔
      exchange.Within deployment.models.listModels := by
  simp only [Exchange.series, Exchange.Within]
  cases exchange.preflight with
  | true => simp
  | false =>
      simp only [Bool.false_eq_true, if_false, true_implies, ← endpoint_subset_iff table]
      by_cases excluded : exchange.path ∈ table.excludePaths
      · simp [excluded]
      · simp only [excluded, if_false, not_false_eq_true, true_implies, List.forall_mem_append,
          List.forall_mem_singleton, inProgress_mem_bound_iff]
        constructor
        · rintro ⟨⟨inTable, endpoint⟩, _⟩
          exact ⟨inTable, endpoint⟩
        · rintro ⟨inTable, endpoint⟩
          refine ⟨⟨inTable, endpoint⟩, ?_⟩
          intro series isSeries
          apply mem_bound_of_http inTable.1 (template_mem_endpoints exchange)
          rcases List.mem_cons.mp isSeries with rfl | isCount
          · exact List.mem_cons_of_mem _ List.mem_cons_self
          · cases List.mem_singleton.mp isCount
            apply List.mem_cons_of_mem
            apply List.mem_cons_of_mem
            exact List.mem_map_of_mem (status_mem_statusTexts exchange)

end Exchange

/-- The children created by a sequence of requests stay in the bound exactly when every request
is within it. -/
theorem created_subset_bound_iff (deployment : Deployment Session)
    (exchanges : List (Exchange table)) :
    (∀ series ∈ deployment.created exchanges,
      series ∈ bound table deployment.models.listModels) ↔
      ∀ exchange ∈ exchanges, exchange.Within deployment.models.listModels := by
  simp only [mem_created_iff, ← exchange_subset_iff table]
  constructor
  · intro each exchange isExchange series isSeries
    exact each series (Or.inr ⟨exchange, isExchange, isSeries⟩)
  · rintro each series (atStart | ⟨exchange, isExchange, isSeries⟩)
    · rcases List.mem_map.mp atStart with ⟨model, isRecorded, rfl⟩
      exact mem_bound_of_model (deployment.recorded_mem model isRecorded) List.mem_cons_self
    · exact each exchange isExchange series isSeries

/-! ## Paths without bound -/

/-- A request of an unknown path. -/
def scan {table : RouteTable} (notFound : 404 ∈ table.statusCodes) (path : String) :
    Exchange table where
  method := "GET"
  path := path
  preflight := false
  route := none
  endpoint := .other
  status := some 404
  route_mem := by rintro _ ⟨⟩
  status_mem := by
    rintro _ ⟨⟩
    exact notFound

/-- A path of a given length. -/
def longPath (length : ℕ) : String :=
  "/" ++ String.ofList (List.replicate length 'a')

theorem longPath_injective : Function.Injective longPath := by
  intro first second same
  have sameChars := congrArg String.toList same
  simp only [longPath, String.toList_append, String.toList_ofList] at sameChars
  have sameLength := congrArg List.length (List.append_cancel_left sameChars)
  simpa using sameLength

/-- No finite list holds what all sequences of requests create. -/
theorem created_unbounded (deployment : Deployment Session) (notFound : 404 ∈ table.statusCodes)
    (candidates : List Series) : ∃ exchanges : List (Exchange table),
      ∃ series ∈ deployment.created exchanges, series ∉ candidates := by
  let used := table.excludePaths ++ candidates.flatMap Series.labels
  rcases (Set.infinite_range_of_injective longPath_injective).exists_notMem_finset used.toFinset
    with ⟨path, _, fresh⟩
  rw [List.mem_toFinset, List.mem_append, not_or] at fresh
  refine ⟨[scan notFound path], ⟨.requestsInProgress, ["GET", path]⟩, ?_, ?_⟩
  · apply mem_created_iff.mpr
    refine Or.inr ⟨scan notFound path, List.mem_cons_self, ?_⟩
    simp [Exchange.series, scan, fresh.1]
  · intro isCandidate
    apply fresh.2
    exact List.mem_flatMap.mpr ⟨_, isCandidate, List.mem_cons_of_mem _ List.mem_cons_self⟩

/-- A few of the routes. -/
def smallTable : RouteTable where
  routes := [⟨some "/api/v1/classify", some "/api/v1/classify"⟩,
    ⟨some "/api/v1/batch/{job_id}", some "/api/v1/batch/{job_id}"⟩]
  methods := ["GET", "POST"]
  statusCodes := [200, 202, 404]
  excludePaths := ["/api/v1/metrics", "/health/live"]

/-- A deployment with one model. -/
def smallDeployment : Deployment Unit where
  models := Inference.smallService.models
  recorded := [Inference.smallModel]
  keyed := (keyed_empty ⟨[], .onnx, true⟩).register Inference.smallModel true
  named := by
    intro model isListed
    cases List.mem_singleton.mp isListed
    decide
  recorded_mem := by
    intro model isRecorded
    cases List.mem_singleton.mp isRecorded
    exact List.mem_cons_self

/-- A request of an unknown path creates a child of its own. -/
theorem scan_creates_series :
    ¬∀ exchanges : List (Exchange smallTable), ∀ series ∈ smallDeployment.created exchanges,
      series ∈ bound smallTable smallDeployment.models.listModels := by
  intro always
  have notFound : 404 ∈ smallTable.statusCodes := by decide
  have isBound := always [scan notFound "/wp-login.php"]
    ⟨.requestsInProgress, ["GET", "/wp-login.php"]⟩ (mem_created_iff.mpr
      (Or.inr ⟨_, List.mem_cons_self, List.mem_cons_self⟩))
  have isEndpoint := (inProgress_mem_bound_iff.mp isBound).2
  revert isEndpoint
  decide

end VisionApi.Monitoring
