import VisionApi.Models.Detector
import VisionApi.Models.Registry

/-!
# Calls on the registry

`register`, `set_active` and the three loaders in any order, succeeding or
failing.  The registry is compared with the log of what was registered: a key is
served by the last model registered under it, and the active version of a name
is always one that was registered.

A loader registers its model before it logs it, and the log line of the
classifier takes the length of the class names.  Where they have none the call
fails with its model registered; the registry stays resolvable, but a failed
call has changed it.  `Measurable` says which loads that cannot happen to.
-/

namespace VisionApi.Models

open Foundation

variable {Session : Type}

/-! ## Calls -/

/-- What a call on the registry raises. -/
inductive RegistryError where
  | load (error : LoadError)
  | notFound (error : ModelNotFound)

/-- A call on the registry.  A loader sees one state of the files; `remaining` are those still there
when `load_classifier` logs the size of the graph. -/
inductive RegistryCall (Session : Type) where
  | register (model : LoadedModel Session) (makeActive : Bool)
  | setActive (name version : String)
  | loadClassifier (runtime : Runtime Session) (files : Files) (remaining : Path → Bool)
      (name version : String) (makeActive : Bool)
  | loadEmbedder (runtime : Runtime Session) (files : Files) (name version : String)
      (makeActive : Bool)
  | loadDetector (runtime : Runtime Session) (files : DetectorFiles) (name version : String)
      (makeActive : Bool)

/-- How a call ends, the model it has registered and the registry it leaves. -/
structure Ended (Session : Type) where
  result : Except RegistryError Unit
  registered : Option (LoadedModel Session)
  service : ModelService Session

/-- A loader registers the model and then logs it, which may raise. -/
def ModelService.endLoad (service : ModelService Session)
    (loaded : Except LoadError (LoadedModel Session × ModelService Session))
    (log : LoadedModel Session → Except String Unit) : Ended Session :=
  match loaded with
  | .error error => ⟨.error (.load error), none, service⟩
  | .ok (model, next) =>
      ⟨(log model).mapError fun error => .load (.unlogged error), some model, next⟩

/-- The log line of a classifier: only one that is not degraded is logged with `num_classes` and
`artifact_size_mb`. -/
def logClassifier (remaining : Path → Bool) (model : LoadedModel Session) : Except String Unit :=
  if model.degradedFrom.isSome then .ok ()
  else do
    let _ ← model.numClasses
    if remaining model.artifactPath then .ok () else .error "FileNotFoundError"

/-- The log line of the detector has `num_classes`. -/
def logDetector (model : LoadedModel Session) : Except String Unit :=
  model.numClasses.map fun _ => ()

/-- Perform a call. -/
def ModelService.call (service : ModelService Session) : RegistryCall Session → Ended Session
  | .register model makeActive => ⟨.ok (), some model, service.register model makeActive⟩
  | .setActive name version =>
      match service.setActive name version with
      | .ok next => ⟨.ok (), none, next⟩
      | .error error => ⟨.error (.notFound error), none, service⟩
  | .loadClassifier runtime files remaining name version makeActive =>
      service.endLoad (service.loadClassifier runtime files name version makeActive)
        (logClassifier remaining)
  | .loadEmbedder runtime files name version makeActive =>
      service.endLoad (service.loadEmbedder runtime files name version makeActive) fun _ => .ok ()
  | .loadDetector runtime files name version makeActive =>
      service.endLoad (service.loadDetector runtime files name version makeActive) logDetector

/-- Whether a call makes the model it registers active. -/
def RegistryCall.makeActive : RegistryCall Session → Option Bool
  | .register _ makeActive => some makeActive
  | .setActive _ _ => none
  | .loadClassifier _ _ _ _ _ makeActive => some makeActive
  | .loadEmbedder _ _ _ _ makeActive => some makeActive
  | .loadDetector _ _ _ _ makeActive => some makeActive

/-- Text that cannot blur a key. -/
abbrev NoColon (text : String) : Prop :=
  ':' ∉ text.toList

/-- Names and versions have no colon, and files stay while a load runs. -/
def RegistryCall.Proper : RegistryCall Session → Prop
  | .register model _ => NoColon model.name ∧ NoColon model.version
  | .setActive _ _ => True
  | .loadClassifier _ files remaining name version _ =>
      NoColon name ∧ NoColon version ∧ ∀ path, files.present path = true → remaining path = true
  | .loadEmbedder _ _ name version _ => NoColon name ∧ NoColon version
  | .loadDetector _ _ name version _ => NoColon name ∧ NoColon version

/-- The class names of the version have a length, if they are read and the configured backend comes
up. -/
def Measurable (settings : Settings) (runtime : Runtime Session) (files : Files)
    (version : String) : Prop :=
  ∀ metadata, readClassifierMetadata files settings.artifactsDir version = .ok metadata →
    Succeeds (attempt runtime files settings.artifactsDir version classifierFile
      metadata.imageSize 2 settings.inferenceBackend) →
    metadata.classNames.len?.isSome = true

/-- Only the log line of a classifier can raise. -/
def RegistryCall.Measured (settings : Settings) : RegistryCall Session → Prop
  | .loadClassifier runtime files _ _ version _ => Measurable settings runtime files version
  | .register _ _ | .setActive _ _ | .loadEmbedder _ _ _ _ _ | .loadDetector _ _ _ _ _ => True

/-! ## What a call does -/

section Cases

variable {service : ModelService Session}

/-- The classes can be counted exactly if their names have a length. -/
theorem numClasses_succeeds_iff {model : LoadedModel Session} :
    Succeeds model.numClasses ↔ model.classNames.len?.isSome = true := by
  simp only [LoadedModel.numClasses]
  cases model.classNames.len? with
  | none => simp [not_succeeds_error]
  | some size => simp [succeeds_ok]

/-- The configured backend is the first one of the chain. -/
theorem chain_eq_cons (settings : Settings) :
    ∃ others, settings.chain = settings.inferenceBackend :: others := by
  simp only [Settings.chain]
  split
  · cases settings.inferenceBackend with
    | torch | onnx | onnxInt8 | tensorrt => exact ⟨_, rfl⟩
  · exact ⟨[], rfl⟩

theorem present_of_attempt {runtime : Runtime Session} {files : Files} {artifactsDir : Path}
    {version : String} {fileFor : InferenceBackend → Option String} {imageSize : ℤ}
    {outputNdim : ℕ} {candidate : InferenceBackend} {artifact : Path} {session : Session}
    {inputName : String}
    (loaded : attempt runtime files artifactsDir version fileFor imageSize outputNdim candidate =
      .ok (artifact, session, inputName)) : files.present artifact = true := by
  simp only [attempt] at loaded
  split at loaded
  · cases loaded
  · split at loaded
    · rename_i present
      rcases bind_ok_iff.mp loaded with ⟨⟨created, name⟩, _, warmed⟩
      rcases bind_ok_iff.mp warmed with ⟨_, _, returned⟩
      cases returned
      exact present
    · cases loaded

/-- The configured backend is tried first, so that a model runs on it as soon as it comes up. -/
theorem degradedFrom_of_loadClassifier {runtime : Runtime Session} {files : Files}
    {name version : String} {makeActive : Bool} {model : LoadedModel Session}
    {next : ModelService Session}
    (loaded : service.loadClassifier runtime files name version makeActive = .ok (model, next)) :
    ∃ metadata,
      readClassifierMetadata files service.settings.artifactsDir version = .ok metadata ∧
        model.classNames = metadata.classNames ∧
        (model.degradedFrom = none ↔
          Succeeds (attempt runtime files service.settings.artifactsDir version classifierFile
            metadata.imageSize 2 service.settings.inferenceBackend)) := by
  rcases loadLabelled_eq_ok_iff.mp loaded with
    ⟨metadata, candidate, artifact, session, inputName, read, loop, rfl, _⟩
  refine ⟨metadata, read, rfl, ?_⟩
  rcases firstUsable_eq_ok_iff.mp loop with ⟨first, tried⟩
  rcases chain_eq_cons service.settings with ⟨others, isChain⟩
  rw [isChain] at first
  rw [← usable_iff]
  by_cases isPreferred : candidate = service.settings.inferenceBackend
  · subst isPreferred
    simp [usable_iff, tried, succeeds_ok]
  · simp only [if_neg isPreferred, reduceCtorEq, false_iff]
    intro up
    rw [List.find?_cons_of_pos up, Option.some.injEq] at first
    exact isPreferred first.symm

/-- A loaded classifier whose graph stays is logged exactly if its class names can be measured. -/
theorem logClassifier_succeeds_iff {runtime : Runtime Session} {files : Files}
    {remaining : Path → Bool} {name version : String} {makeActive : Bool}
    {model : LoadedModel Session} {next : ModelService Session}
    (loaded : service.loadClassifier runtime files name version makeActive = .ok (model, next))
    (stays : remaining model.artifactPath = true) :
    Succeeds (logClassifier remaining model) ↔
      Measurable service.settings runtime files version := by
  rcases degradedFrom_of_loadClassifier loaded with ⟨metadata, read, sameNames, isDegraded⟩
  have measurable : Measurable service.settings runtime files version ↔
      (model.degradedFrom = none → model.classNames.len?.isSome = true) := by
    rw [isDegraded, sameNames]
    constructor
    · intro measurable
      exact measurable metadata read
    · intro measured other isOther
      cases read.symm.trans isOther
      exact measured
  rw [measurable]
  simp only [logClassifier, stays, if_true]
  cases model.degradedFrom with
  | some asked => simp [succeeds_ok]
  | none =>
      simp only [Option.isSome_none, Bool.false_eq_true, if_false, bind_succeeds_iff, true_imp_iff,
        ← numClasses_succeeds_iff]
      constructor
      · rintro ⟨size, counted, _⟩
        exact ⟨size, counted⟩
      · rintro ⟨size, counted⟩
        exact ⟨size, counted, succeeds_ok ()⟩

/-- Where the configured backend comes up on labels that are read, the classifier is loaded. -/
theorem measurable_of_failed {runtime : Runtime Session} {files : Files} {name version : String}
    {makeActive : Bool} {error : LoadError}
    (failed : service.loadClassifier runtime files name version makeActive = .error error) :
    Measurable service.settings runtime files version := by
  rintro metadata read ⟨⟨artifact, session, inputName⟩, tried⟩
  exfalso
  rcases chain_eq_cons service.settings with ⟨others, isChain⟩
  have up := usable_iff.mpr ⟨_, tried⟩
  have first : service.settings.chain.find? (usable (attempt runtime files
      service.settings.artifactsDir version classifierFile metadata.imageSize 2)) =
        some service.settings.inferenceBackend := by
    rw [isChain, List.find?_cons_of_pos up]
  have loop : firstUsable (attempt runtime files service.settings.artifactsDir version
      classifierFile metadata.imageSize 2) service.settings.chain [] =
        .ok (service.settings.inferenceBackend, artifact, session, inputName) :=
    firstUsable_eq_ok_iff.mpr ⟨first, tried⟩
  have loads : Succeeds (service.loadClassifier runtime files name version makeActive) :=
    ⟨(_, _), loadLabelled_eq_ok_iff.mpr
      ⟨metadata, _, artifact, session, inputName, read, loop, rfl, rfl⟩⟩
  rw [failed] at loads
  exact not_succeeds_error error loads

/-- A call fails and changes nothing, registers a model and then ends as its log line does, or moves
the active version of a name to a registered one. -/
inductive Effect (service : ModelService Session) (call : RegistryCall Session) :
    Ended Session → Prop where
  | fails (error : RegistryError) (measured : call.Measured service.settings) :
      Effect service call ⟨.error error, none, service⟩
  | registers (result : Except RegistryError Unit) (model : LoadedModel Session)
      (makeActive : Bool) (asked : call.makeActive = some makeActive)
      (nameFree : NoColon model.name) (versionFree : NoColon model.version)
      (returns : Succeeds result ↔ call.Measured service.settings) :
      Effect service call ⟨result, some model, service.register model makeActive⟩
  | activates (name version : String)
      (known : (service.models.get? (name ++ ":" ++ version)).isSome = true)
      (noModel : call.makeActive = none) (measured : call.Measured service.settings) :
      Effect service call ⟨.ok (), none, { service with active := service.active.set name version }⟩

/-- What a loader does once its model is known. -/
theorem effect_endLoad {call : RegistryCall Session} {name version : String} {makeActive : Bool}
    {loaded : Except LoadError (LoadedModel Session × ModelService Session)}
    {log : LoadedModel Session → Except String Unit} (asked : call.makeActive = some makeActive)
    (nameFree : NoColon name) (versionFree : NoColon version)
    (failed : ∀ error, loaded = .error error → call.Measured service.settings)
    (registers : ∀ model next, loaded = .ok (model, next) → model.name = name ∧
      model.version = version ∧ next = service.register model makeActive ∧
        (Succeeds (log model) ↔ call.Measured service.settings)) :
    Effect service call (service.endLoad loaded log) := by
  cases loaded with
  | error error => exact .fails (.load error) (failed error rfl)
  | ok result =>
      rcases result with ⟨model, next⟩
      rcases registers model next rfl with ⟨rfl, rfl, rfl, isLogged⟩
      refine .registers _ model makeActive asked nameFree versionFree ?_
      rw [← isLogged]
      cases log model with
      | error error => simp [Except.mapError, Succeeds]
      | ok logged => simp [Except.mapError, Succeeds]

/-- Every proper call has one of three effects. -/
theorem effect_of_proper {call : RegistryCall Session} (proper : call.Proper) :
    Effect service call (service.call call) := by
  cases call with
  | register model makeActive =>
      exact .registers _ model makeActive rfl proper.1 proper.2
        (iff_of_true (succeeds_ok ()) trivial)
  | setActive name version =>
      simp only [ModelService.call, ModelService.setActive]
      split
      · rename_i next activated
        split at activated
        · rename_i known
          cases activated
          exact .activates name version known rfl trivial
        · cases activated
      · rename_i error refused
        exact .fails (.notFound error) trivial
  | loadClassifier runtime files remaining name version makeActive =>
      rcases proper with ⟨nameFree, versionFree, stay⟩
      apply effect_endLoad rfl nameFree versionFree
      · intro error failed
        exact measurable_of_failed failed
      · intro model next loaded
        rcases loadLabelled_ok loaded with ⟨isName, isVersion, isNext⟩
        refine ⟨isName, isVersion, isNext, logClassifier_succeeds_iff loaded ?_⟩
        rcases loadLabelled_eq_ok_iff.mp loaded with
          ⟨metadata, candidate, artifact, session, inputName, _, loop, rfl, _⟩
        exact stay artifact (present_of_attempt (firstUsable_eq_ok_iff.mp loop).2)
  | loadEmbedder runtime files name version makeActive =>
      apply effect_endLoad rfl proper.1 proper.2
      · exact fun _ _ => trivial
      · intro model next loaded
        rcases loadLabelled_ok loaded with ⟨isName, isVersion, isNext⟩
        exact ⟨isName, isVersion, isNext, iff_of_true (succeeds_ok ()) trivial⟩
  | loadDetector runtime files name version makeActive =>
      apply effect_endLoad rfl proper.1 proper.2
      · exact fun _ _ => trivial
      · intro model next loaded
        rcases loadDetector_eq_ok_iff.mp loaded with ⟨_, _, _, _, _, _, _, _, _, _, rfl, isNext⟩
        refine ⟨rfl, rfl, isNext, iff_of_true ?_ trivial⟩
        simp [logDetector, map_succeeds_iff, numClasses_succeeds_iff]

end Cases

/-! ## The log of registrations -/

/-- A registry with the models registered in it, the latest first. -/
structure History (Session : Type) where
  service : ModelService Session
  registrations : List (LoadedModel Session)

/-- Nothing was registered yet. -/
def History.start (settings : Settings) : History Session :=
  ⟨⟨settings, [], []⟩, []⟩

/-- The registry after a call, with the log of what it has registered. -/
def History.after (history : History Session) (call : RegistryCall Session) : History Session :=
  let ended := history.service.call call
  ⟨ended.service, ended.registered.toList ++ history.registrations⟩

/-- Calls are never disabled. -/
def History.step (history : History Session) (call : RegistryCall Session) :
    Option (History Session) :=
  some (history.after call)

/-- Every call is a proper one. -/
def ProperCalls (_ : History Session) (call : RegistryCall Session) (_ : History Session) : Prop :=
  call.Proper

/-- A run of proper calls on an empty registry. -/
abbrev Calls (settings : Settings) (history : History Session) : Prop :=
  Run History.step ProperCalls (History.start settings) history

/-- The last model registered under exactly a name and a version. -/
def latest (registrations : List (LoadedModel Session)) (name version : String) :
    Option (LoadedModel Session) :=
  registrations.find? fun model => model.name = name && model.version = version

@[simp]
theorem latest_nil (name version : String) : latest ([] : List (LoadedModel Session)) name version =
    none :=
  rfl

theorem latest_cons_self (model : LoadedModel Session)
    (registrations : List (LoadedModel Session)) :
    latest (model :: registrations) model.name model.version = some model := by
  simp [latest]

theorem latest_cons_of_ne {model : LoadedModel Session} {name version : String}
    (other : ¬(model.name = name ∧ model.version = version))
    (registrations : List (LoadedModel Session)) :
    latest (model :: registrations) name version = latest registrations name version := by
  apply List.find?_cons_of_neg
  simpa using other

/-- The latest model of a version is one that was registered as it. -/
theorem eq_of_latest {registrations : List (LoadedModel Session)} {name version : String}
    {model : LoadedModel Session} (isLatest : latest registrations name version = some model) :
    model ∈ registrations ∧ model.name = name ∧ model.version = version := by
  refine ⟨List.mem_of_find?_eq_some isLatest, ?_⟩
  simpa using List.find?_some isLatest

/-- Under a key is the last model registered there; the active version of a name is registered,
and every registered name has one. -/
structure Tracks (history : History Session) : Prop where
  models : ∀ name version, history.service.models.get? (name ++ ":" ++ version) =
    latest history.registrations name version
  registered : ∀ name version, history.service.active.get? name = some version →
    (latest history.registrations name version).isSome = true
  known : ∀ model ∈ history.registrations,
    (history.service.active.get? model.name).isSome = true

theorem tracks_start (settings : Settings) :
    Tracks (History.start settings : History Session) where
  models _ _ := rfl
  registered := by
    rintro name version ⟨⟩
  known := List.forall_mem_nil _

theorem key_eq_iff {model : LoadedModel Session} (nameFree : NoColon model.name)
    (versionFree : NoColon model.version) {name version : String} :
    name ++ ":" ++ version = model.key ↔ model.name = name ∧ model.version = version := by
  constructor
  · intro same
    have sameChars := congrArg String.toList same.symm
    simp only [LoadedModel.key, String.toList_append, List.append_assoc] at sameChars
    rcases append_separator_unique nameFree versionFree sameChars with ⟨sameName, sameVersion⟩
    exact ⟨String.toList_inj.mp sameName, String.toList_inj.mp sameVersion⟩
  · rintro ⟨rfl, rfl⟩
    rfl

theorem active_register {service : ModelService Session} {model : LoadedModel Session}
    {makeActive : Bool} {name version : String}
    (isActive : (service.register model makeActive).active.get? name = some version) :
    service.active.get? name = some version ∨ (name = model.name ∧ version = model.version) := by
  simp only [ModelService.register] at isActive
  split at isActive
  · by_cases same : name = model.name
    · subst same
      rw [Dict.get?_set_self] at isActive
      cases isActive
      exact Or.inr ⟨rfl, rfl⟩
    · rw [Dict.get?_set_ne _ same] at isActive
      exact Or.inl isActive
  · exact Or.inl isActive

theorem active_register_self (service : ModelService Session) (model : LoadedModel Session)
    (makeActive : Bool) :
    ((service.register model makeActive).active.get? model.name).isSome = true := by
  simp only [ModelService.register]
  split
  · rw [Dict.get?_set_self]
    rfl
  · rename_i known
    cases active : service.active.get? model.name with
    | none => simp [active] at known
    | some version => rfl

theorem isSome_active_register {service : ModelService Session} {name : String}
    (known : (service.active.get? name).isSome = true) (model : LoadedModel Session)
    (makeActive : Bool) :
    ((service.register model makeActive).active.get? name).isSome = true := by
  simp only [ModelService.register]
  split
  · exact Dict.isSome_get?_set known _ _
  · exact known

theorem latest_isSome_cons {registrations : List (LoadedModel Session)} {name version : String}
    (known : (latest registrations name version).isSome = true) (model : LoadedModel Session) :
    (latest (model :: registrations) name version).isSome = true := by
  by_cases same : model.name = name ∧ model.version = version
  · rcases same with ⟨rfl, rfl⟩
    rw [latest_cons_self]
    rfl
  · rw [latest_cons_of_ne same]
    exact known

/-- Registering a model keeps the registry in step with the log. -/
theorem Tracks.register {history : History Session} (tracks : Tracks history)
    {model : LoadedModel Session} (nameFree : NoColon model.name)
    (versionFree : NoColon model.version) (makeActive : Bool) :
    Tracks ⟨history.service.register model makeActive, model :: history.registrations⟩ where
  models name version := by
    by_cases same : model.name = name ∧ model.version = version
    · rcases same with ⟨rfl, rfl⟩
      rw [latest_cons_self]
      exact get?_register_self history.service model makeActive
    · rw [latest_cons_of_ne same, get?_register_ne (mt (key_eq_iff nameFree versionFree).mp same)]
      exact tracks.models name version
  registered name version isActive := by
    rcases active_register isActive with before | ⟨rfl, rfl⟩
    · exact latest_isSome_cons (tracks.registered name version before) model
    · rw [latest_cons_self]
      rfl
  known := by
    intro other registered
    rcases List.mem_cons.mp registered with rfl | isOld
    · exact active_register_self history.service other makeActive
    · exact isSome_active_register (tracks.known other isOld) model makeActive

/-- Changing an active version keeps the registry in step with the log. -/
theorem Tracks.setActive {history : History Session} (tracks : Tracks history)
    {name version : String}
    (known : (history.service.models.get? (name ++ ":" ++ version)).isSome = true) :
    Tracks ⟨{ history.service with active := history.service.active.set name version },
      history.registrations⟩ where
  models := tracks.models
  registered other chosen isActive := by
    by_cases same : other = name
    · subst same
      rw [Dict.get?_set_self] at isActive
      cases isActive
      rw [← tracks.models]
      exact known
    · rw [Dict.get?_set_ne _ same] at isActive
      exact tracks.registered other chosen isActive
  known model registered := Dict.isSome_get?_set (tracks.known model registered) _ _

/-- Every proper call keeps the registry in step with the log. -/
theorem Tracks.step {history : History Session} (tracks : Tracks history)
    {call : RegistryCall Session} (proper : call.Proper) : Tracks (history.after call) := by
  have effect : Effect history.service call (history.service.call call) := effect_of_proper proper
  unfold History.after
  generalize history.service.call call = ended at effect
  cases effect with
  | fails error measured => exact tracks
  | registers result model makeActive asked nameFree versionFree returns =>
      exact tracks.register nameFree versionFree makeActive
  | activates name version known noModel measured => exact tracks.setActive known

/-- Every registry that proper calls lead to is tracked by its log. -/
theorem tracks_of_calls {settings : Settings} {history : History Session}
    (calls : Calls settings history) : Tracks history := by
  apply calls.invariant (tracks_start settings)
  intro before call after tracks proper stepped
  cases stepped
  exact tracks.step proper

/-- Calls, loaders among them, lead only to registries that registering and promoting lead to. -/
theorem reachable_of_calls {settings : Settings} {history : History Session}
    (calls : Calls settings history) :
    Reachable registryStep ⟨settings, [], []⟩ history.service := by
  induction calls with
  | refl => exact .refl
  | @tail before after call run enabled proper ih =>
      cases enabled
      have effect : Effect before.service call (before.service.call call) := effect_of_proper proper
      unfold History.after
      generalize before.service.call call = ended at effect
      cases effect with
      | fails error measured => exact ih
      | registers result model makeActive asked nameFree versionFree returns =>
          exact ih.tail (.register model makeActive) rfl trivial
      | activates name version known noModel measured =>
          refine ih.tail (.setActive name version) ?_ trivial
          simp only [registryStep, ModelService.setActive, known, if_true]

/-! ## Resolving -/

/-- A pinned version is served by the model under its key. -/
theorem get_pinned_ok_iff {service : ModelService Session} {name version : String}
    (pinned : version ≠ "") {model : LoadedModel Session} :
    service.get name (some version) = .ok model ↔
      service.models.get? (name ++ ":" ++ version) = some model := by
  have isPinned : (some version).filter (fun text => text ≠ "") = some version := by
    simp [pinned]
  simp only [ModelService.get, isPinned, Option.some_or]
  split
  · rename_i found isFound
    simp only [isFound, Except.ok.injEq, Option.some.injEq]
  · rename_i missing
    simp only [missing, reduceCtorEq]

theorem latest_eq_none_iff {registrations : List (LoadedModel Session)} {name version : String} :
    latest registrations name version = none ↔
      ∀ model ∈ registrations, ¬(model.name = name ∧ model.version = version) := by
  simp [latest]

/-- What the registry answers, by the log of what was registered. -/
structure Resolves (history : History Session) : Prop where
  active : ∀ name version, history.service.active.get? name = some version →
    ∃ model, history.service.models.get? (name ++ ":" ++ version) = some model ∧
      model.name = name ∧ model.version = version
  unpinned : ∀ model ∈ history.registrations, ∃ version found,
    history.service.active.get? model.name = some version ∧
      history.service.get model.name none = .ok found ∧
      latest history.registrations model.name version = some found
  pinned : ∀ name version, version ≠ "" → ∀ model,
    history.service.get name (some version) = .ok model ↔
      latest history.registrations name version = some model
  missing : ∀ name version, version ≠ "" →
    ((∃ error, history.service.get name (some version) = .error error) ↔
      ∀ model ∈ history.registrations, ¬(model.name = name ∧ model.version = version))

/-- A registry in step with its log resolves. -/
theorem Tracks.resolves {history : History Session} (tracks : Tracks history) :
    Resolves history := by
  have pinned : ∀ name version, version ≠ "" → ∀ model,
      history.service.get name (some version) = .ok model ↔
        latest history.registrations name version = some model := by
    intro name version isPinned model
    rw [get_pinned_ok_iff isPinned, tracks.models]
  refine ⟨?_, ?_, pinned, ?_⟩
  · intro name version isActive
    rcases Option.isSome_iff_exists.mp (tracks.registered name version isActive) with
      ⟨model, isLatest⟩
    refine ⟨model, ?_, (eq_of_latest isLatest).2⟩
    rw [tracks.models]
    exact isLatest
  · intro model registered
    rcases Option.isSome_iff_exists.mp (tracks.known model registered) with ⟨version, isActive⟩
    rcases Option.isSome_iff_exists.mp (tracks.registered model.name version isActive) with
      ⟨found, isLatest⟩
    refine ⟨version, found, isActive, ?_, isLatest⟩
    apply (get_ok_iff isActive).mpr
    change history.service.models.get? (model.name ++ ":" ++ version) = some found
    rw [tracks.models]
    exact isLatest
  · intro name version isPinned
    rw [← latest_eq_none_iff]
    cases isResult : history.service.get name (some version) with
    | ok model =>
        rw [(pinned name version isPinned model).mp isResult]
        simp
    | error error =>
        cases isLatest : latest history.registrations name version with
        | none => simp
        | some model =>
            cases isResult.symm.trans ((pinned name version isPinned model).mpr isLatest)

/-- A failed call registers nothing and changes nothing, and registering without activating keeps
the active version of a name that has one. -/
structure Careful (service : ModelService Session) (call : RegistryCall Session) : Prop where
  failed : ∀ error, (service.call call).result = .error error →
    (service.call call).registered = none ∧ (service.call call).service = service
  inactive : call.makeActive = some false → ∀ name version,
    service.active.get? name = some version →
      (service.call call).service.active.get? name = some version

/-- A proper call is careful exactly if nothing it has registered fails to be logged. -/
theorem careful_iff_measured (service : ModelService Session) {call : RegistryCall Session}
    (proper : call.Proper) : Careful service call ↔ call.Measured service.settings := by
  have effect : Effect service call (service.call call) := effect_of_proper proper
  constructor
  · rintro ⟨failed, _⟩
    generalize service.call call = ended at effect failed
    cases effect with
    | fails error measured => exact measured
    | registers result model makeActive asked nameFree versionFree returns =>
        apply returns.mp
        cases result with
        | ok _ => exact succeeds_ok ()
        | error error => cases (failed error rfl).1
    | activates name version known noModel measured => exact measured
  · intro measured
    constructor
    · intro error raised
      generalize service.call call = ended at effect raised
      cases effect with
      | fails error _ => exact ⟨rfl, rfl⟩
      | registers result model makeActive asked nameFree versionFree returns =>
          rcases returns.mpr measured with ⟨_, returned⟩
          cases raised.symm.trans returned
      | activates name version known noModel _ => cases raised
    · intro notActive name version isActive
      generalize service.call call = ended at effect
      cases effect with
      | fails error _ => exact isActive
      | registers result model makeActive asked nameFree versionFree returns =>
          cases notActive.symm.trans asked
          exact active_register_false isActive model
      | activates other chosen known noModel _ => cases notActive.symm.trans noModel

theorem settings_after (history : History Session) {call : RegistryCall Session}
    (proper : call.Proper) : (history.after call).service.settings = history.service.settings := by
  have effect : Effect history.service call (history.service.call call) := effect_of_proper proper
  unfold History.after
  generalize history.service.call call = ended at effect
  cases effect with
  | fails error measured => rfl
  | registers result model makeActive asked nameFree versionFree returns => rfl
  | activates name version known noModel measured => rfl

/-- The registry answers by the log of its registrations, and the call that led there was
careful. -/
def StaysResolvable (before : History Session) (call : RegistryCall Session)
    (after : History Session) : Prop :=
  Resolves after ∧ Careful before.service call

/-- In every run of calls, failing ones among them, the registry stays resolvable and every call is
careful exactly if each load of a classifier can be logged. -/
theorem registry_stays_resolvable_iff (settings : Settings) {calls : List (RegistryCall Session)}
    (proper : ∀ call ∈ calls, call.Proper) :
    EachStep History.step StaysResolvable (History.start settings) calls ↔
      EachStep History.step (fun _ call _ => call.Measured settings) (History.start settings)
        calls := by
  apply eachStep_iff (fun history => Tracks history ∧ history.service.settings = settings)
    RegistryCall.Proper _ _ ⟨tracks_start settings, rfl⟩ proper
  · rintro before call after ⟨tracks, rfl⟩ isProper ⟨⟩
    rw [← careful_iff_measured before.service isProper]
    exact and_iff_right (tracks.step isProper).resolves
  · rintro before call after ⟨tracks, rfl⟩ isProper ⟨⟩ _
    exact ⟨tracks.step isProper, settings_after before isProper⟩

/-- Labels with the given class names, and the graph next to them. -/
def labelledFiles (classNames : Json ℚ) : Files :=
  { smallFiles [["labels.json"], ["onnx", "v1", "classifier_fp32.onnx"]] with
    labels := fun _ => .ok ⟨classNames, .array [], 224⟩ }

/-- The load of the default classifier with the given class names. -/
def loadDefault (classNames : Json ℚ) : RegistryCall Unit :=
  .loadClassifier (smallRuntime [1, 200]) (labelledFiles classNames) (fun _ => true) classifierName
    "v1" true

theorem proper_loadDefault (classNames : Json ℚ) : (loadDefault classNames).Proper :=
  ⟨by decide, by decide, fun _ _ => rfl⟩

/-- The classifier is loaded, a version that is not loaded is not promoted, and a second one is
registered beside it. -/
def loadThenPromote (model : LoadedModel Unit) : List (RegistryCall Unit) :=
  [loadDefault (.texts ["goldfish"]), .setActive classifierName "v2", .register model false,
    .setActive classifierName "v2"]

/-- A second version, with one class more. -/
def secondModel : LoadedModel Unit where
  name := classifierName
  version := "v2"
  task := .classification
  backend := .onnxInt8
  session := ()
  inputName := "input"
  classNames := .texts ["goldfish", "tench"]
  wnids := .array []
  imageSize := 224
  artifactPath := ["onnx", "v2", "classifier_int8.onnx"]
  metrics := []
  degradedFrom := some .onnx
  labelsPath := ["onnx", "v2", "labels.json"]
  metricsPath := none

theorem proper_loadThenPromote :
    ∀ call ∈ loadThenPromote secondModel, call.Proper := by
  simp only [loadThenPromote, List.forall_mem_cons]
  exact ⟨proper_loadDefault _, trivial, ⟨by decide, by decide⟩, trivial, List.forall_mem_nil _⟩

/-- A load, an unknown activation, a second version and its promotion. -/
theorem registry_stays_resolvable_promoted :
    EachStep History.step StaysResolvable (History.start ⟨[], .onnx, true⟩)
      (loadThenPromote secondModel) := by
  apply (registry_stays_resolvable_iff _ proper_loadThenPromote).mpr
  rintro _ ⟨⟩
  refine ⟨?_, ?_⟩
  · rintro metadata ⟨⟩ _
    rfl
  · rintro _ ⟨⟩
    refine ⟨trivial, ?_⟩
    rintro _ ⟨⟩
    refine ⟨trivial, ?_⟩
    rintro _ ⟨⟩
    exact ⟨trivial, trivial⟩

/-- Class names that are null are only found out when the model is registered and logged. -/
theorem failed_load_registers :
    ¬∀ (settings : Settings) (calls : List (RegistryCall Unit)),
      (∀ call ∈ calls, call.Proper) →
        EachStep History.step StaysResolvable (History.start settings) calls := by
  intro always
  have proper : ∀ call ∈ [loadDefault .null], call.Proper := by
    simp only [List.forall_mem_singleton]
    exact proper_loadDefault .null
  rcases always ⟨[], .onnx, true⟩ _ proper _ rfl with ⟨⟨_, careful⟩, _⟩
  have unchanged := careful.failed (.load (.unlogged "TypeError: object has no len()")) rfl
  cases unchanged.1

end VisionApi.Models
