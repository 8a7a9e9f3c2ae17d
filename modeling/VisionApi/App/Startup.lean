import Mathlib.Data.List.Sort
import VisionApi.Experiments.Routing
import VisionApi.Models.Resolution

/-!
# The start of the service

`lifespan` connects to Redis and the database, loads the default classifier,
every other version on disk, the detector and the embedder, and checks the
experiments against what was loaded.

Most of what can go wrong is caught on the way and costs a feature only.  What is
left are four places without a handler: an error of the Redis client that is no
`RedisError` and no `OSError`, the default classifier, an entry under `onnx/`
that cannot be looked at, and the experiments file.  The host is what all of
these steps find, each with the way it ends.
-/

namespace VisionApi.App

open Foundation Models Experiments

variable {Session Number Index : Type}

/-! ## Versions on disk -/

/-- The numbers of `re.findall(r"\d+", version)`; `digitValue` is the value of a decimal digit, and
`current` the number that is being read. -/
def numbers (digitValue : Char → Option ℕ) : Option ℕ → List Char → List ℕ
  | current, [] => current.toList
  | current, char :: rest =>
      match digitValue char with
      | some digit => numbers digitValue (some (10 * current.getD 0 + digit)) rest
      | none => current.toList ++ numbers digitValue none rest

/-- The directories among the entries of `onnx/`; looking at an entry may raise. -/
def directoriesOf (entries : List (String × Except String Bool)) : Except String (List String) := do
  let seen ← entries.mapM fun entry => entry.2.map fun isDirectory => (entry.1, isDirectory)
  .ok ((seen.filter Prod.snd).map Prod.fst)

/-- `discover_versions`, from the directories under `onnx/` and whether a graph is at its top. -/
def discoverVersions (digitValue : Char → Option ℕ) (directories : List String)
    (anyGraph : Bool) : List String :=
  let isVersion := matchesVersion fun char => (digitValue char).isSome
  let found := directories.filter isVersion
  let key := fun version : String => numbers digitValue none version.toList
  let ordered := (found.filter fun version => version ≠ defaultVersion).insertionSort
    fun left right => key left ≤ key right
  if defaultVersion ∈ found || anyGraph then defaultVersion :: ordered else ordered

/-! ## The host -/

/-- Which calls of `_create_database` succeed. -/
structure Database where
  createEngine : Bool
  checkConnection : Bool
  createAll : Bool

/-- How the client of Redis and its first `ping` end. -/
inductive RedisStart where
  | connected
  /-- A `RedisError` or an `OSError`. -/
  | unavailable (error : String)
  /-- Anything else, such as the `ValueError` for a port that is out of range. -/
  | raises (error : String)

/-- What the start finds.  A classifier's load sees the files of its version, and `remaining` are
those still there when it logs the size of its graph. -/
structure Host (Session Number Index : Type) where
  isProduction : Bool
  settings : Models.Settings
  redis : RedisStart
  database : Database
  digitValue : Char → Option ℕ
  entries : List (String × Except String Bool)
  anyGraph : Bool
  runtime : Runtime Session
  files : String → Files
  remaining : String → Path → Bool
  detectorFiles : DetectorFiles
  embedderFiles : Files
  index : Except String Index
  experiments : Option (Except FileError (Json Number))

/-- Whether `_create_database` returns an engine. -/
def createDatabase (isProduction : Bool) (database : Database) : Bool :=
  database.createEngine && database.checkConnection && (isProduction || database.createAll)

/-- The load of a version of the classifier from what the host has of it. -/
def Host.loadClassifier (host : Host Session Number Index) (version : String)
    (makeActive : Bool) : RegistryCall Session :=
  .loadClassifier host.runtime (host.files version) (host.remaining version) classifierName version
    makeActive

/-- The loop over the discovered versions, whose failures are logged. -/
def Host.loadExtra (host : Host Session Number Index) (service : ModelService Session)
    (extra : String) : ModelService Session :=
  if extra = defaultVersion then service
  else (service.call (host.loadClassifier extra false)).service

/-- The versions that are found under `onnx/`. -/
def Host.extras (host : Host Session Number Index) : Except String (List String) :=
  (directoriesOf host.entries).map fun directories =>
    discoverVersions host.digitValue directories host.anyGraph

/-! ## Startup -/

variable (ops : FloatOps Number)

/-- `app.state`, with the detector's service as whether there is one. -/
structure AppState (Session Index : Type) {Number : Type} (ops : FloatOps Number) where
  redis : Bool
  engine : Bool
  models : ModelService Session
  detection : Bool
  similarity : Option (Index × Json ℚ)
  experiments : Registry ops

/-- What stops the start. -/
inductive StartupError where
  | redis (error : String)
  | model (error : RegistryError)
  | discovery (error : String)
  | experiments (error : PyError)

/-- `_create_redis`, by whether it returns a client. -/
def createRedis : RedisStart → Except StartupError Bool
  | .connected => .ok true
  | .unavailable _ => .ok false
  | .raises error => .error (.redis error)

/-- The detector is optional: its failure is logged. -/
def Host.loadDetector (host : Host Session Number Index) (service : ModelService Session) :
    Bool × ModelService Session :=
  match service.loadDetector host.runtime host.detectorFiles detectorName defaultVersion true with
  | .error _ => (false, service)
  | .ok (_, next) => (true, next)

/-- The embedder stays loaded where the index cannot be. -/
def Host.loadEmbedder (host : Host Session Number Index) (service : ModelService Session) :
    Option (Index × Json ℚ) × ModelService Session :=
  match service.loadEmbedder host.runtime host.embedderFiles embedderName defaultVersion true with
  | .error _ => (none, service)
  | .ok (embedder, next) =>
      (host.index.toOption.map fun index => (index, embedder.classNames), next)

/-- The part of `lifespan` before it yields. -/
def lifespan (host : Host Session Number Index) :
    Except StartupError (AppState Session Index ops) := do
  let redis ← createRedis host.redis
  let ended := ModelService.call ⟨host.settings, [], []⟩ (host.loadClassifier defaultVersion true)
  let _ ← ended.result.mapError .model
  let extras ← host.extras.mapError .discovery
  let detector := host.loadDetector (extras.foldl host.loadExtra ended.service)
  let embedder := host.loadEmbedder detector.2
  let experiments ← (load ops host.experiments (availableVersions embedder.2)).mapError .experiments
  .ok
    { redis, experiments
      engine := createDatabase host.isProduction host.database
      models := embedder.2
      detection := detector.1
      similarity := embedder.1 }

/-! ## Discovered versions -/

section Discovery

variable {digitValue : Char → Option ℕ} {directories : List String} {anyGraph : Bool}

theorem plain_defaultVersion : PlainVersion defaultVersion :=
  ⟨by decide, by decide⟩

theorem mem_discoverVersions {version : String} :
    version ∈ discoverVersions digitValue directories anyGraph ↔
      (version ∈ directories ∧ matchesVersion (fun char => (digitValue char).isSome) version) ∨
        (version = defaultVersion ∧ anyGraph = true) := by
  simp only [discoverVersions]
  split
  · rename_i present
    simp only [Bool.or_eq_true, decide_eq_true_eq, List.mem_filter] at present
    simp only [List.mem_cons, List.mem_insertionSort, List.mem_filter, decide_eq_true_eq]
    constructor
    · rintro (rfl | ⟨isVersion, _⟩)
      · rcases present with isVersion | isGraph
        · exact Or.inl isVersion
        · exact Or.inr ⟨rfl, isGraph⟩
      · exact Or.inl isVersion
    · rintro (isVersion | ⟨rfl, _⟩)
      · by_cases isDefault : version = defaultVersion
        · exact Or.inl isDefault
        · exact Or.inr ⟨isVersion, isDefault⟩
      · exact Or.inl rfl
  · rename_i absent
    simp only [Bool.or_eq_true, decide_eq_true_eq, List.mem_filter, not_or, Bool.not_eq_true]
      at absent
    simp only [List.mem_insertionSort, List.mem_filter, decide_eq_true_eq, absent.2]
    constructor
    · rintro ⟨isVersion, _⟩
      exact Or.inl isVersion
    · rintro (isVersion | ⟨_, ⟨⟩⟩)
      refine ⟨isVersion, ?_⟩
      rintro rfl
      exact absent.1 isVersion

theorem directoriesOf_succeeds_iff {entries : List (String × Except String Bool)} :
    Succeeds (directoriesOf entries) ↔ ∀ entry ∈ entries, Succeeds entry.2 := by
  have each : (∀ entry ∈ entries, Succeeds entry.2) ↔
      Succeeds (entries.mapM fun entry =>
        entry.2.map fun isDirectory => (entry.1, isDirectory)) := by
    rw [mapM_succeeds_iff]
    simp only [map_succeeds_iff]
  rw [each, directoriesOf, bind_succeeds_iff]
  constructor
  · rintro ⟨seen, looked, _⟩
    exact ⟨seen, looked⟩
  · rintro ⟨seen, looked⟩
    exact ⟨seen, looked, succeeds_ok _⟩

/-- No colon is a digit, so that a discovered version has none. -/
theorem plain_of_discovered (noDigit : digitValue ':' = none) {version : String}
    (discovered : version ∈ discoverVersions digitValue directories anyGraph) :
    PlainVersion version := by
  rcases mem_discoverVersions.mp discovered with ⟨_, isMatch⟩ | ⟨rfl, _⟩
  · exact plain_of_matchesVersion (by simp [noDigit]) isMatch
  · exact plain_defaultVersion

end Discovery

/-! ## What each load does -/

section Loads

variable {host : Host Session Number Index} {service : ModelService Session}
  {model : LoadedModel Session} {version : String}

/-- Loading depends on the registry only by its settings. -/
theorem loadClassifier_of_settings {other next : ModelService Session}
    (same : service.settings = other.settings) {runtime : Runtime Session} {files : Files}
    {name : String} {makeActive : Bool}
    (loaded : service.loadClassifier runtime files name version makeActive = .ok (model, next))
    (otherActive : Bool) :
    other.loadClassifier runtime files name version otherActive =
      .ok (model, other.register model otherActive) := by
  rcases loadLabelled_eq_ok_iff.mp loaded with
    ⟨metadata, candidate, artifact, session, inputName, read, loop, isModel, _⟩
  rw [same] at read loop isModel
  exact loadLabelled_eq_ok_iff.mpr
    ⟨metadata, candidate, artifact, session, inputName, read, loop, isModel, rfl⟩

/-- What the load of a version on its own returns. -/
def Host.Loads (host : Host Session Number Index) (version : String)
    (model : LoadedModel Session) : Prop :=
  ∃ next, ModelService.loadClassifier ⟨host.settings, [], []⟩ host.runtime (host.files version)
    classifierName version true = .ok (model, next)

theorem Host.Loads.isNamed (loads : host.Loads version model) :
    model.name = classifierName ∧ model.version = version := by
  rcases loads with ⟨next, loaded⟩
  rcases loadLabelled_ok loaded with ⟨isName, isVersion, _⟩
  exact ⟨isName, isVersion⟩

/-- A model names the backend it was asked for exactly if it runs on another one. -/
def Reported (settings : Models.Settings) (model : LoadedModel Session) : Prop :=
  model.degradedFrom = none ↔ model.backend = settings.inferenceBackend

theorem reported_of_eq {settings : Models.Settings}
    (isReported : model.degradedFrom =
      if model.backend = settings.inferenceBackend then none else some settings.inferenceBackend) :
    Reported settings model := by
  unfold Reported
  rw [isReported]
  simp

/-- The model of a load names the backend it fell back from. -/
theorem Host.Loads.reported (loads : host.Loads version model) :
    Reported host.settings model := by
  rcases loads with ⟨next, loaded⟩
  rcases loadLabelled_eq_ok_iff.mp loaded with ⟨_, _, _, _, _, _, _, rfl, _⟩
  exact reported_of_eq rfl

/-- A version loads as one model only. -/
theorem Host.Loads.unique {other : LoadedModel Session} (loads : host.Loads version model)
    (alsoLoads : host.Loads version other) : model = other := by
  rcases loads with ⟨next, loaded⟩
  rcases alsoLoads with ⟨after, alsoLoaded⟩
  cases loaded.symm.trans alsoLoaded
  rfl

/-- A classifier's load registers what it returns, and otherwise changes nothing. -/
theorem call_loadClassifier (settings : service.settings = host.settings) (version : String)
    (makeActive : Bool) :
    ((∀ model, ¬host.Loads version model) ∧
        (service.call (host.loadClassifier version makeActive)).service = service) ∨
      ∃ model, host.Loads version model ∧
        (service.call (host.loadClassifier version makeActive)).service =
          service.register model makeActive := by
  simp only [ModelService.call, Host.loadClassifier, ModelService.endLoad]
  cases outcome : service.loadClassifier host.runtime (host.files version) classifierName version
      makeActive with
  | error error =>
      refine Or.inl ⟨?_, rfl⟩
      rintro model ⟨next, loaded⟩
      have alsoLoaded := loadClassifier_of_settings settings.symm loaded makeActive
      cases outcome.symm.trans alsoLoaded
  | ok result =>
      rcases result with ⟨model, next⟩
      refine Or.inr ⟨model, ⟨_, loadClassifier_of_settings settings outcome true⟩, ?_⟩
      rcases loadLabelled_ok outcome with ⟨_, _, rfl⟩
      rfl

/-- The default classifier has to be loaded, and then to be logged. -/
theorem call_default_succeeds_iff :
    Succeeds (ModelService.call ⟨host.settings, [], []⟩
        (host.loadClassifier defaultVersion true)).result ↔
      ∃ model, host.Loads defaultVersion model ∧
        Succeeds (logClassifier (host.remaining defaultVersion) model) := by
  simp only [ModelService.call, Host.loadClassifier, ModelService.endLoad, Host.Loads]
  cases outcome : ModelService.loadClassifier ⟨host.settings, [], []⟩ host.runtime
      (host.files defaultVersion) classifierName defaultVersion true with
  | error error => simp [not_succeeds_error]
  | ok result =>
      rcases result with ⟨model, next⟩
      cases logged : logClassifier (host.remaining defaultVersion) model with
      | error error => simp [logged, Except.mapError, Succeeds]
      | ok done => simp [logged, Except.mapError, Succeeds]

end Loads

/-! ## The registry while the service starts -/

/-- Registering a plain version keeps the versions plain. -/
theorem plain_register {service : ModelService Session} (plain : service.Plain)
    {model : LoadedModel Session} (isPlain : PlainVersion model.version) (makeActive : Bool) :
    (service.register model makeActive).Plain := by
  have admissible : RegistersPlain service (.register model makeActive)
      (service.register model makeActive) := isPlain
  exact plain.step admissible rfl

section Registry

variable {host : Host Session Number Index}

/-- The registry after the default version, the given other versions and models of the given other
names: the classifiers are the versions whose own load succeeds, and the default one is active. -/
structure Started (host : Host Session Number Index) (default : LoadedModel Session)
    (extras others : List String) (history : History Session) : Prop where
  settings : history.service.settings = host.settings
  tracks : Tracks history
  plain : history.service.Plain
  reported : ∀ entry ∈ history.service.models, Reported host.settings entry.2
  active : history.service.active.get? classifierName = some defaultVersion
  served : latest history.registrations classifierName defaultVersion = some default
  versions : ∀ version, version ≠ defaultVersion → ∀ model,
    latest history.registrations classifierName version = some model ↔
      version ∈ extras ∧ host.Loads version model
  names : ∀ name, name ≠ classifierName →
    ((history.service.active.get? name).isSome = true ↔ name ∈ others)

variable {default model : LoadedModel Session} {extras others : List String}
  {history : History Session}

theorem reported_register {service : ModelService Session} {settings : Models.Settings}
    (areReported : ∀ entry ∈ service.models, Reported settings entry.2)
    {model : LoadedModel Session} (isReported : Reported settings model) (makeActive : Bool) :
    ∀ entry ∈ (service.register model makeActive).models, Reported settings entry.2 := by
  intro entry isEntry
  rcases Dict.mem_set isEntry with rfl | isOld
  · exact isReported
  · exact areReported entry isOld

theorem started_default (loads : host.Loads defaultVersion default) :
    Started host default [] []
      ⟨ModelService.register ⟨host.settings, [], []⟩ default true, [default]⟩ := by
  rcases loads.isNamed with ⟨isName, isVersion⟩
  have nameFree : NoColon default.name := by
    rw [isName]
    decide
  have isPlain : PlainVersion default.version := by
    rw [isVersion]
    exact plain_defaultVersion
  refine ⟨rfl, (tracks_start host.settings).register nameFree isPlain.2 true,
    plain_register (plain_empty host.settings) isPlain true,
    reported_register (List.forall_mem_nil _) loads.reported true, ?_, ?_, ?_, ?_⟩
  · rw [← isName, ← isVersion]
    exact Dict.get?_set_self _ _ _
  · rw [← isName, ← isVersion]
    exact latest_cons_self default []
  · intro version isOther model
    rw [latest_cons_of_ne fun same => isOther (same.2.symm.trans isVersion)]
    simp
  · intro name isOther
    rw [active_register_ne (by rwa [isName])]
    simp [Dict.get?]

/-- A version that is not the default one is added without becoming active. -/
theorem Started.extra (started : Started host default extras others history) {extra : String}
    (isOther : extra ≠ defaultVersion) (isPlain : PlainVersion extra) :
    ∃ next, next.service = host.loadExtra history.service extra ∧
      Started host default (extras ++ [extra]) others next := by
  have loading : host.loadExtra history.service extra =
      (history.service.call (host.loadClassifier extra false)).service := if_neg isOther
  rw [loading]
  rcases call_loadClassifier started.settings extra false with
    ⟨fails, same⟩ | ⟨model, loads, registered⟩
  · refine ⟨history, same.symm, started.settings, started.tracks, started.plain, started.reported,
      started.active, started.served, ?_, started.names⟩
    intro version notDefault model
    rw [started.versions version notDefault model, List.mem_append, List.mem_singleton]
    constructor
    · rintro ⟨isExtra, loads⟩
      exact ⟨Or.inl isExtra, loads⟩
    · rintro ⟨isExtra | rfl, loads⟩
      · exact ⟨isExtra, loads⟩
      · exact absurd loads (fails model)
  · rcases loads.isNamed with ⟨isName, rfl⟩
    have nameFree : NoColon model.name := by
      rw [isName]
      decide
    refine ⟨⟨history.service.register model false, model :: history.registrations⟩,
      registered.symm, started.settings,
      started.tracks.register nameFree isPlain.2 false,
      plain_register started.plain isPlain false,
      reported_register started.reported loads.reported false, ?_, ?_, ?_, ?_⟩
    · exact active_register_false started.active model
    · rw [latest_cons_of_ne fun same => isOther same.2]
      exact started.served
    · intro version notDefault other
      by_cases same : model.version = version
      · subst same
        rw [← isName, latest_cons_self, List.mem_append, List.mem_singleton]
        constructor
        · rintro ⟨rfl⟩
          exact ⟨Or.inr rfl, loads⟩
        · rintro ⟨_, alsoLoads⟩
          rw [loads.unique alsoLoads]
      · rw [latest_cons_of_ne fun named => same named.2,
          started.versions version notDefault other, List.mem_append, List.mem_singleton]
        constructor
        · rintro ⟨isExtra, otherLoads⟩
          exact ⟨Or.inl isExtra, otherLoads⟩
        · rintro ⟨isExtra | rfl, otherLoads⟩
          · exact ⟨isExtra, otherLoads⟩
          · exact absurd rfl same
    · intro name isOther
      rw [active_register_ne (by rwa [isName])]
      exact started.names name isOther

/-- The default version among those on disk is not loaded twice. -/
theorem Started.skip (started : Started host default extras others history) :
    Started host default (extras ++ [defaultVersion]) others history where
  settings := started.settings
  tracks := started.tracks
  plain := started.plain
  reported := started.reported
  active := started.active
  served := started.served
  versions version isOther model := by
    simp [started.versions version isOther model, isOther]
  names := started.names

theorem Started.append (started : Started host default extras others history) {more : List String}
    (arePlain : ∀ extra ∈ more, PlainVersion extra) :
    ∃ next, next.service = more.foldl host.loadExtra history.service ∧
      Started host default (extras ++ more) others next := by
  induction more generalizing extras history with
  | nil => exact ⟨history, rfl, by simpa using started⟩
  | cons extra more ih =>
      rw [List.forall_mem_cons] at arePlain
      rw [List.append_cons, List.foldl_cons]
      by_cases isDefault : extra = defaultVersion
      · subst isDefault
        have skipped : host.loadExtra history.service defaultVersion = history.service :=
          if_pos rfl
        rw [skipped]
        exact ih started.skip arePlain.2
      · rcases started.extra isDefault arePlain.1 with ⟨next, isNext, nextStarted⟩
        rw [← isNext]
        exact ih nextStarted arePlain.2

/-- A model of another name leaves the classifiers as they are. -/
theorem Started.register (started : Started host default extras others history) {name : String}
    (isName : model.name = name) (isVersion : model.version = defaultVersion)
    (isOther : name ≠ classifierName) (nameFree : NoColon name)
    (isReported : Reported host.settings model) :
    Started host default extras (name :: others)
      ⟨history.service.register model true, model :: history.registrations⟩ := by
  subst isName
  have isPlain : PlainVersion model.version := by
    rw [isVersion]
    exact plain_defaultVersion
  refine ⟨started.settings, started.tracks.register nameFree isPlain.2 true,
    plain_register started.plain isPlain true,
    reported_register started.reported isReported true, ?_, ?_, ?_, ?_⟩
  · rw [active_register_ne isOther.symm]
    exact started.active
  · rw [latest_cons_of_ne fun named => isOther named.1]
    exact started.served
  · intro version notDefault other
    rw [latest_cons_of_ne fun named => isOther named.1]
    exact started.versions version notDefault other
  · intro name notClassifier
    rw [List.mem_cons]
    by_cases same : name = model.name
    · subst same
      simp [active_register_self]
    · rw [active_register_ne same, started.names name notClassifier]
      simp [same]

/-- The detector is registered exactly if its load succeeds. -/
theorem Started.detector (started : Started host default extras [] history) :
    ∃ next others, next.service = (host.loadDetector history.service).2 ∧
      Started host default extras others next ∧
      ((host.loadDetector history.service).1 = true ↔ detectorName ∈ others) := by
  simp only [Host.loadDetector]
  cases outcome : history.service.loadDetector host.runtime host.detectorFiles detectorName
      defaultVersion true with
  | error error => exact ⟨history, [], rfl, started, by simp⟩
  | ok result =>
      rcases result with ⟨model, after⟩
      rcases loadDetector_eq_ok_iff.mp outcome with ⟨_, _, _, _, _, _, _, _, _, _, rfl, rfl⟩
      have isOther : detectorName ≠ classifierName := by decide
      have nameFree : NoColon detectorName := by decide
      refine ⟨_, _, rfl, started.register rfl rfl isOther nameFree ?_, by simp⟩
      rw [← started.settings]
      exact reported_of_eq rfl

/-- What a similarity service was made from. -/
def Host.IsSearch (host : Host Session Number Index) (history : History Session)
    (index : Index) (classNames : Json ℚ) : Prop :=
  host.index = .ok index ∧ ∃ model, history.service.get embedderName none = .ok model ∧
    model.classNames = classNames

/-- The embedder is registered whether or not there is an index. -/
theorem Started.embedder (started : Started host default extras others history) :
    ∃ next added, next.service = (host.loadEmbedder history.service).2 ∧
      Started host default extras added next ∧ (detectorName ∈ added ↔ detectorName ∈ others) ∧
      ∀ index classNames, (host.loadEmbedder history.service).1 = some (index, classNames) →
        host.IsSearch next index classNames := by
  simp only [Host.loadEmbedder]
  cases outcome : history.service.loadEmbedder host.runtime host.embedderFiles embedderName
      defaultVersion true with
  | error error => exact ⟨history, others, rfl, started, Iff.rfl, by simp⟩
  | ok result =>
      rcases result with ⟨model, after⟩
      rcases loadLabelled_ok outcome with ⟨isName, isVersion, rfl⟩
      have isReported : Reported host.settings model := by
        rcases loadLabelled_eq_ok_iff.mp outcome with ⟨_, _, _, _, _, _, _, rfl, _⟩
        rw [← started.settings]
        exact reported_of_eq rfl
      refine ⟨⟨history.service.register model true, model :: history.registrations⟩, _, rfl,
        started.register isName isVersion (by decide) (by decide) isReported, ?_, ?_⟩
      · have notDetector : detectorName ≠ embedderName := by decide
        simp [notDetector]
      · intro index classNames isSearch
        simp only [Option.map_eq_some_iff, Prod.mk.injEq] at isSearch
        rcases isSearch with ⟨loaded, isLoaded, rfl, rfl⟩
        refine ⟨toOption_eq_some_iff.mp isLoaded, model, ?_, rfl⟩
        have isActive : (history.service.register model true).active.get? embedderName =
            some model.version := by
          rw [← isName]
          exact Dict.get?_set_self _ _ _
        apply (get_ok_iff isActive).mpr
        rw [← isName]
        exact get?_register_self _ _ _

/-- What an unpinned request gets, by the names that are registered. -/
theorem succeeds_get_iff {history : History Session} (tracks : Tracks history) (name : String) :
    Succeeds (history.service.get name none) ↔
      (history.service.active.get? name).isSome = true := by
  cases isActive : history.service.active.get? name with
  | none => simp [ModelService.get, isActive, Succeeds]
  | some version =>
      rcases tracks.resolves.active name version isActive with ⟨model, isModel, _⟩
      simp only [Option.isSome_some, iff_true]
      exact ⟨model, (get_ok_iff isActive).mpr isModel⟩

end Registry

/-! ## What the service can do once it has started -/

section Ready

variable {ops} {host : Host Session Number Index} {app : AppState Session Index ops}

/-- The experiments are checked before anything is known of the versions they name. -/
theorem load_succeeds_iff (content : Option (Except FileError (Json Number)))
    (available : AvailableVersions) :
    Succeeds (load ops content available) ↔ QuietContent ops content := by
  constructor
  · exact quiet_of_load
  · intro quiet
    rcases load_of_quiet available quiet with ⟨experiments, loaded, _⟩
    exact ⟨experiments, loaded⟩

/-- The service starts exactly if the client of Redis raises nothing that is not caught, the default
classifier is loaded and logged, every entry under `onnx/` can be looked at and the experiments file
makes no reader raise: nothing else, of Redis itself, the database, the other versions, the
detector, the embedder and its index, can stop it. -/
theorem lifespan_succeeds_iff (host : Host Session Number Index) :
    Succeeds (lifespan ops host) ↔
      (∀ error, host.redis ≠ .raises error) ∧
      (∃ model, host.Loads defaultVersion model ∧
        Succeeds (logClassifier (host.remaining defaultVersion) model)) ∧
      (∀ entry ∈ host.entries, Succeeds entry.2) ∧
      QuietContent ops host.experiments := by
  have connects : Succeeds (createRedis host.redis) ↔ ∀ error, host.redis ≠ .raises error := by
    cases host.redis with
    | connected => simp [createRedis, succeeds_ok]
    | unavailable error => simp [createRedis, succeeds_ok]
    | raises error => simp [createRedis, not_succeeds_error]
  have discovers : Succeeds host.extras ↔ ∀ entry ∈ host.entries, Succeeds entry.2 := by
    rw [Host.extras, map_succeeds_iff, directoriesOf_succeeds_iff]
  rw [← connects, ← call_default_succeeds_iff, ← discovers]
  simp only [lifespan, bind_succeeds_iff, succeeds_ok, and_true]
  constructor
  · rintro ⟨redis, connected, _, loaded, extras, discovered, experiments, read⟩
    exact ⟨⟨redis, connected⟩, ⟨_, mapError_ok_iff.mp loaded⟩,
      ⟨extras, mapError_ok_iff.mp discovered⟩, quiet_of_load ⟨experiments, mapError_ok_iff.mp read⟩⟩
  · rintro ⟨⟨redis, connected⟩, ⟨_, loaded⟩, ⟨extras, discovered⟩, quiet⟩
    refine ⟨redis, connected, _, mapError_ok_iff.mpr loaded, extras, mapError_ok_iff.mpr discovered,
      ?_⟩
    rcases (load_succeeds_iff host.experiments _).mpr quiet with ⟨experiments, read⟩
    exact ⟨experiments, mapError_ok_iff.mpr read⟩

/-- A version that is found under `onnx/`. -/
def Host.Discovers (host : Host Session Number Index) (version : String) : Prop :=
  ∃ extras, host.extras = .ok extras ∧ version ∈ extras

/-- The service as it has started. -/
structure Ready (host : Host Session Number Index) (app : AppState Session Index ops) : Prop where
  /-- A request without a version is served by the default one. -/
  unpinned : ∃ model, host.Loads defaultVersion model ∧
    app.models.get classifierName none = .ok model
  /-- A pinned version is served by the model of its own load. -/
  pinned : ∀ version, version ≠ "" → ∀ model,
    app.models.get classifierName (some version) = .ok model ↔
      host.Loads version model ∧ (version = defaultVersion ∨ host.Discovers version)
  /-- Each variant of each experiment names a version that is served. -/
  variants : ∀ name experiment, Dict.get? app.experiments name = some experiment →
    ∀ variant ∈ experiment.variants, ∃ version model,
      variant.modelVersion = .string version ∧ app.models.get name (some version) = .ok model ∧
        model.name = name ∧ model.version = version
  detection : app.detection = true ↔ Succeeds (app.models.get detectorName none)
  similarity : ∀ index classNames, app.similarity = some (index, classNames) →
    host.index = .ok index ∧ ∃ model, app.models.get embedderName none = .ok model ∧
      model.classNames = classNames

/-- The detector and the embedder are added to the classifiers. -/
theorem started_of_lifespan (noDigit : host.digitValue ':' = none)
    (returned : lifespan ops host = .ok app) :
    ∃ default extras others history, host.Loads defaultVersion default ∧
      host.extras = .ok extras ∧ Started host default extras others history ∧
      app.models = history.service ∧
      (app.detection = true ↔ detectorName ∈ others) ∧
      (∀ index classNames, app.similarity = some (index, classNames) →
        host.IsSearch history index classNames) ∧
      load ops host.experiments (availableVersions app.models) = .ok app.experiments := by
  simp only [lifespan, bind_ok_iff, mapError_ok_iff] at returned
  rcases returned with ⟨redis, _, _, loadedDefault, extras, discovered, experiments, isExperiments,
    ⟨⟩⟩
  rcases call_default_succeeds_iff.mp ⟨_, loadedDefault⟩ with ⟨default, loads, _⟩
  have first : (ModelService.call ⟨host.settings, [], []⟩
      (host.loadClassifier defaultVersion true)).service =
        ModelService.register ⟨host.settings, [], []⟩ default true := by
    have settings : (⟨host.settings, [], []⟩ : ModelService Session).settings = host.settings := rfl
    rcases call_loadClassifier settings defaultVersion true with
      ⟨fails, _⟩ | ⟨model, alsoLoads, registered⟩
    · exact absurd loads (fails default)
    · rw [registered, loads.unique alsoLoads]
  rw [first] at isExperiments ⊢
  have arePlain : ∀ extra ∈ extras, PlainVersion extra := by
    rcases map_ok_iff.mp discovered with ⟨directories, _, rfl⟩
    exact fun extra => plain_of_discovered noDigit
  rcases (started_default loads).append arePlain with ⟨classifiers, isExtras, extrasStarted⟩
  rcases extrasStarted.detector with ⟨withDetector, others, isDetector, detectorStarted, detects⟩
  rcases detectorStarted.embedder with ⟨history, added, isEmbedder, started, same, searches⟩
  have folded : extras.foldl host.loadExtra
      (ModelService.register ⟨host.settings, [], []⟩ default true) = classifiers.service :=
    isExtras.symm
  simp only [folded, ← isDetector, ← isEmbedder] at isExperiments ⊢
  refine ⟨default, extras, added, history, loads, discovered, started, rfl, ?_, searches,
    isExperiments⟩
  rw [same]
  exact detects

/-- However the start went, once it is over the service resolves what it promises to. -/
theorem lifespan_ready (noDigit : host.digitValue ':' = none)
    (returned : lifespan ops host = .ok app) : Ready host app := by
  rcases started_of_lifespan noDigit returned with
    ⟨default, extras, others, history, loads, discovered, started, isService, detects, searches,
      loaded⟩
  have discovers : ∀ version, host.Discovers version ↔ version ∈ extras := by
    simp [Host.Discovers, discovered]
  have resolves := started.tracks.resolves
  refine ⟨⟨default, loads, ?_⟩, ?_, ?_, ?_, ?_⟩
  · rw [isService]
    apply (get_ok_iff started.active).mpr
    change history.service.models.get? (classifierName ++ ":" ++ defaultVersion) = some default
    rw [started.tracks.models]
    exact started.served
  · intro version pinned model
    rw [isService, resolves.pinned classifierName version pinned model]
    by_cases isDefault : version = defaultVersion
    · subst isDefault
      rw [started.served]
      constructor
      · rintro ⟨rfl⟩
        exact ⟨loads, Or.inl rfl⟩
      · rintro ⟨alsoLoads, _⟩
        rw [loads.unique alsoLoads]
    · rw [started.versions version isDefault model, discovers]
      simp [isDefault, and_comm]
  · intro name experiment kept variant isVariant
    rcases version_of_load loaded kept isVariant with ⟨version, isVersion, isAvailable⟩
    rcases listed_of_available isAvailable with ⟨listed, isListed, rfl, rfl⟩
    rw [isService] at isListed ⊢
    rcases List.mem_map.mp isListed with ⟨entry, isEntry, rfl⟩
    rcases get_of_plain started.plain (started.plain entry isEntry).2
      (isSome_of_listed started.plain isListed) with ⟨model, isModel, isNamed⟩
    exact ⟨_, model, isVersion, isModel, isNamed⟩
  · rw [isService, succeeds_get_iff started.tracks, started.names detectorName (by decide)]
    exact detects
  · rw [isService]
    exact searches

end Ready

/-- The given graphs and the labels next to them; no database, no detector and no index. -/
def smallHost (directories : List String) (present : List Path) :
    Host Unit ℕ Unit where
  isProduction := false
  settings := ⟨[], .onnx, true⟩
  redis := .connected
  database := ⟨true, false, true⟩
  digitValue := fun char => if char.isDigit then some (char.toNat - '0'.toNat) else none
  entries := directories.map fun directory => (directory, .ok true)
  anyGraph := false
  runtime := smallRuntime [1, 200]
  files := fun _ => smallFiles present
  remaining := fun _ path => present.elem path
  detectorFiles := { toFiles := smallFiles present, detectionLabels := fun _ => .error "KeyError" }
  embedderFiles := smallFiles present
  index := .error "FileNotFoundError"
  experiments := some (.ok smallFile)

/-- Two more versions are on disk, of which one has no graph. -/
def twoVersions : Host Unit ℕ Unit :=
  smallHost ["v10", "v1", "v2"] [["onnx", "v1", "labels.json"],
    ["onnx", "v1", "classifier_fp32.onnx"], ["onnx", "v10", "labels.json"],
    ["onnx", "v2", "labels.json"], ["onnx", "v2", "classifier_int8.onnx"]]

/-- The versions are tried in their natural order. -/
theorem lifespan_ready_twoVersions :
    ∃ app, lifespan smallOps twoVersions = .ok app ∧ app.detection = false ∧
      twoVersions.extras = .ok ["v1", "v2", "v10"] ∧ Ready twoVersions app := by
  have starts : Succeeds (lifespan smallOps twoVersions) := ⟨_, rfl⟩
  rcases starts with ⟨app, returned⟩
  have noDigit : twoVersions.digitValue ':' = none := by decide
  have noDetector : app.detection = false := by
    cases returned
    rfl
  have ordered : twoVersions.extras = .ok ["v1", "v2", "v10"] := rfl
  exact ⟨app, returned, noDetector, ordered, lifespan_ready noDigit returned⟩

end VisionApi.App
