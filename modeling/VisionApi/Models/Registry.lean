import VisionApi.Models.Service
import VisionApi.Foundation.Fallible
import VisionApi.Foundation.Run
import VisionApi.Foundation.Text

/-!
# The registry of loaded models

A model is registered under its name and version and stays there until its key
is registered again.  The first version of a name becomes the active one.

The key is the text of the name, a colon and the version.  Two models may share a key
only if a name or a version contains a colon, so two invariants are used.  `Keyed` says
that every entry lies under the key of its model, and holds in every registry.
`Plain` says that the versions have no colon, which the callers promise: they load the
default version, or one whose directory has the form of a version
(`plain_of_matchesVersion`).

With plain versions a version that is registered is found again under its name whatever
was registered since, as registering only adds keys or replaces the model of the same
name and version.
-/

namespace VisionApi.Models

open Foundation

variable {Session : Type}

/-- Models are registered under their keys. -/
def ModelService.Keyed (service : ModelService Session) : Prop :=
  ∀ key model, service.models.get? key = some model → model.key = key

theorem keyed_empty (settings : Settings) :
    (⟨settings, [], []⟩ : ModelService Session).Keyed := by
  rintro key model ⟨⟩

section Register

variable {service : ModelService Session} {model : LoadedModel Session}

/-- A model that is registered is found under its key. -/
theorem get?_register_self (service : ModelService Session) (model : LoadedModel Session)
    (makeActive : Bool) :
    (service.register model makeActive).models.get? model.key = some model :=
  Dict.get?_set_self _ _ _

/-- Registering a model leaves the other keys alone. -/
theorem get?_register_ne {key : String} (other : key ≠ model.key) (makeActive : Bool) :
    (service.register model makeActive).models.get? key = service.models.get? key :=
  Dict.get?_set_ne _ other _

/-- Registering keeps the entries under their keys. -/
theorem ModelService.Keyed.register (keyed : service.Keyed) (model : LoadedModel Session)
    (makeActive : Bool) : (service.register model makeActive).Keyed := by
  intro key found isFound
  by_cases same : key = model.key
  · subst same
    rw [get?_register_self] at isFound
    cases isFound
    rfl
  · rw [get?_register_ne same] at isFound
    exact keyed key found isFound

/-- Registering without activating keeps the active version of a name that has one. -/
theorem active_register_false {name version : String}
    (isActive : service.active.get? name = some version) (model : LoadedModel Session) :
    (service.register model false).active.get? name = some version := by
  simp only [ModelService.register, Bool.false_or]
  split
  · rename_i unknown
    have other : name ≠ model.name := by
      rintro rfl
      simp [isActive] at unknown
    rw [Dict.get?_set_ne _ other]
    exact isActive
  · exact isActive

/-- Registering a model of another name keeps the active version. -/
theorem active_register_ne {name : String} (other : name ≠ model.name) (makeActive : Bool) :
    (service.register model makeActive).active.get? name = service.active.get? name := by
  simp only [ModelService.register]
  split
  · exact Dict.get?_set_ne _ other _
  · rfl

end Register

/-- What loading does to the registry, if it succeeds. -/
theorem loadLabelled_ok {service next : ModelService Session} {runtime : Runtime Session}
    {files : Files} {name version : String} {makeActive : Bool} {task : TaskType}
    {chain : List InferenceBackend} {fileFor : InferenceBackend → Option String}
    {reportsMetrics : Bool} {unavailable : String} {model : LoadedModel Session}
    (loaded : service.loadLabelled runtime files name version makeActive task chain fileFor
      reportsMetrics unavailable = .ok (model, next)) :
    model.name = name ∧ model.version = version ∧ next = service.register model makeActive := by
  simp only [ModelService.loadLabelled, bind_ok_iff] at loaded
  rcases loaded with ⟨metadata, _, loaded⟩
  split at loaded
  · cases loaded
  · cases loaded
    exact ⟨rfl, rfl, rfl⟩

/-! ## Resolving a version -/

/-- A resolved model is found under its own key. -/
theorem get?_key_of_get {service : ModelService Session} (keyed : service.Keyed) {name : String}
    {version : Option String} {model : LoadedModel Session}
    (found : service.get name version = .ok model) :
    service.models.get? model.key = some model := by
  rcases get?_of_get found with ⟨key, isModel⟩
  rw [keyed _ _ isModel]
  exact isModel

/-- The model of a version, if it runs on the backend that is asked for. -/
def ModelService.getForBackend (service : ModelService Session) (name : String)
    (version : Option String) (backend : Option InferenceBackend) :
    Except ModelNotFound (LoadedModel Session) := do
  let model ← service.get name version
  match backend with
  | none => .ok model
  | some backend =>
      if model.backend = backend then .ok model
      else
        .error ⟨"Model " ++ reprText name ++ " version " ++ reprText model.version ++
            " is loaded as " ++ model.backend.value ++ ", not " ++ backend.value ++
            ". Set INFERENCE_BACKEND=" ++ backend.value ++ " to serve that runtime.",
          [("requested_backend", [backend.value]), ("loaded_backend", [model.backend.value])]⟩

@[simp]
theorem getForBackend_none (service : ModelService Session) (name : String)
    (version : Option String) : service.getForBackend name version none =
      service.get name version := by
  simp only [ModelService.getForBackend]
  cases service.get name version with
  | error error => rfl
  | ok model => rfl

/-- Pinning a backend does not change the model. -/
theorem get_of_getForBackend {service : ModelService Session} {name : String}
    {version : Option String} {backend : Option InferenceBackend} {model : LoadedModel Session}
    (found : service.getForBackend name version backend = .ok model) :
    service.get name version = .ok model := by
  simp only [ModelService.getForBackend, bind_ok_iff] at found
  rcases found with ⟨other, isOther, found⟩
  cases backend with
  | none =>
      cases found
      exact isOther
  | some pinned =>
      simp only at found
      split at found
      · cases found
        exact isOther
      · cases found

/-- The version a request resolves to. -/
def resolved (version : Option String) (active : String) : String :=
  (version.filter fun text => text ≠ "").getD active

/-- A name with an active version resolves to the asked or the active version. -/
theorem get_ok_iff {service : ModelService Session} {name active : String}
    (isActive : service.active.get? name = some active) {version : Option String}
    {model : LoadedModel Session} :
    service.get name version = .ok model ↔
      service.models.get? (name ++ ":" ++ resolved version active) = some model := by
  simp only [ModelService.get, isActive, Option.or_some, resolved]
  split
  · rename_i found isFound
    simp only [isFound, Except.ok.injEq, Option.some.injEq]
  · rename_i missing
    simp only [missing, reduceCtorEq]

/-! ## Runs of the registry -/

/-- Make a registered version the active one. -/
def ModelService.setActive (service : ModelService Session) (name version : String) :
    Except ModelNotFound (ModelService Session) :=
  if (service.models.get? (name ++ ":" ++ version)).isSome then
    .ok { service with active := service.active.set name version }
  else
    .error ⟨"Cannot activate " ++ name ++ ":" ++ version ++ "; it is not loaded.", []⟩

/-- What may happen to a registry. -/
inductive RegistryEvent (Session : Type) where
  | register (model : LoadedModel Session) (makeActive : Bool)
  | setActive (name version : String)

/-- A call that raises leaves the registry as it is. -/
def registryStep (service : ModelService Session) :
    RegistryEvent Session → Option (ModelService Session)
  | .register model makeActive => some (service.register model makeActive)
  | .setActive name version =>
      match service.setActive name version with
      | .ok next => some next
      | .error _ => some service

theorem models_setActive {service next : ModelService Session} {name version : String}
    (activated : service.setActive name version = .ok next) : next.models = service.models := by
  simp only [ModelService.setActive] at activated
  split at activated
  · cases activated
    rfl
  · cases activated

/-- Every event keeps the entries under their keys. -/
theorem ModelService.Keyed.step {service next : ModelService Session}
    {event : RegistryEvent Session} (keyed : service.Keyed)
    (stepped : registryStep service event = some next) : next.Keyed := by
  cases event with
  | register model makeActive =>
      cases stepped
      exact keyed.register model makeActive
  | setActive name version =>
      simp only [registryStep] at stepped
      split at stepped
      · rename_i activated
        cases stepped
        intro key model isModel
        rw [models_setActive activated] at isModel
        exact keyed key model isModel
      · cases stepped
        exact keyed

/-- Every registry that is filled by registering is keyed. -/
theorem keyed_of_reachable {settings : Settings} {service : ModelService Session}
    (reached : Reachable registryStep ⟨settings, [], []⟩ service) : service.Keyed := by
  apply reached.invariant (keyed_empty settings)
  intro before event after keyed _ stepped
  exact keyed.step stepped

/-! ## Versions without a colon -/

/-- A version that is neither empty nor able to blur a key. -/
def PlainVersion (version : String) : Prop :=
  version ≠ "" ∧ ':' ∉ version.toList

/-- `_VERSION_PATTERN` after its `v`, for what `\d` matches; `seen` tells whether the group has a
digit yet. -/
def versionGroups (isDecimal : Char → Bool) : Bool → List Char → Bool
  | seen, [] => seen
  -- `$` matches before a last newline too.
  | seen, ['\n'] => seen
  | seen, '.' :: rest => seen && versionGroups isDecimal false rest
  | _, char :: rest => isDecimal char && versionGroups isDecimal true rest

/-- The test `discover_versions` makes of the name of a directory. -/
def matchesVersion (isDecimal : Char → Bool) (name : String) : Bool :=
  match name.toList with
  | 'v' :: rest => versionGroups isDecimal false rest
  | _ => false

theorem colon_notMem_of_versionGroups {isDecimal : Char → Bool} (noDigit : isDecimal ':' = false)
    {seen : Bool} {rest : List Char} (isMatch : versionGroups isDecimal seen rest = true) :
    ':' ∉ rest := by
  fun_induction versionGroups isDecimal seen rest with
  | case1 seen => exact List.not_mem_nil
  | case2 seen => decide
  | case3 seen rest ih =>
      rw [Bool.and_eq_true] at isMatch
      exact List.not_mem_cons_of_ne_of_not_mem (by decide) (ih isMatch.2)
  | case4 seen char rest notNewline notPoint ih =>
      rw [Bool.and_eq_true] at isMatch
      refine List.not_mem_cons_of_ne_of_not_mem ?_ (ih isMatch.2)
      rintro rfl
      rw [noDigit] at isMatch
      cases isMatch.1

/-- The versions that are discovered are plain. -/
theorem plain_of_matchesVersion {isDecimal : Char → Bool} (noDigit : isDecimal ':' = false)
    {name : String} (isMatch : matchesVersion isDecimal name = true) : PlainVersion name := by
  simp only [matchesVersion] at isMatch
  split at isMatch
  · rename_i rest isName
    constructor
    · rintro rfl
      cases isName
    · rw [isName]
      exact List.not_mem_cons_of_ne_of_not_mem (by decide)
        (colon_notMem_of_versionGroups noDigit isMatch)
  · cases isMatch

/-- Every model with a plain version, under its own key. -/
def ModelService.Plain (service : ModelService Session) : Prop :=
  ∀ entry ∈ service.models, entry.1 = entry.2.key ∧ PlainVersion entry.2.version

/-- Only models with plain versions are registered. -/
def RegistersPlain (_ : ModelService Session) (event : RegistryEvent Session)
    (_ : ModelService Session) : Prop :=
  match event with
  | .register model _ => PlainVersion model.version
  | .setActive _ _ => True

theorem plain_empty (settings : Settings) : (⟨settings, [], []⟩ : ModelService Session).Plain :=
  List.forall_mem_nil _

/-- An event registers a model or changes no model. -/
theorem models_step {service next : ModelService Session} {event : RegistryEvent Session}
    (stepped : registryStep service event = some next) :
    (∃ model makeActive, event = .register model makeActive ∧
      next.models = service.models.set model.key model) ∨ next.models = service.models := by
  cases event with
  | register model makeActive =>
      cases stepped
      exact Or.inl ⟨model, makeActive, rfl, rfl⟩
  | setActive name version =>
      simp only [registryStep] at stepped
      split at stepped
      · rename_i activated
        cases stepped
        exact Or.inr (models_setActive activated)
      · cases stepped
        exact Or.inr rfl

/-- Every admissible event keeps the versions plain. -/
theorem ModelService.Plain.step {service next : ModelService Session}
    {event : RegistryEvent Session} (plain : service.Plain)
    (admissible : RegistersPlain service event next)
    (stepped : registryStep service event = some next) : next.Plain := by
  rcases models_step stepped with ⟨model, makeActive, rfl, grown⟩ | same
  · intro entry isEntry
    rw [grown] at isEntry
    rcases Dict.mem_set isEntry with rfl | isOld
    · exact ⟨rfl, admissible⟩
    · exact plain entry isOld
  · intro entry isEntry
    rw [same] at isEntry
    exact plain entry isEntry

theorem ModelService.Plain.run {service later : ModelService Session} (plain : service.Plain)
    (run : Run registryStep RegistersPlain service later) : later.Plain := by
  apply run.invariant plain
  intro before event after isPlain admissible stepped
  exact isPlain.step admissible stepped

theorem isSome_models_of_step {before after : ModelService Session} {event : RegistryEvent Session}
    {key : String} (known : (before.models.get? key).isSome = true)
    (stepped : registryStep before event = some after) :
    (after.models.get? key).isSome = true := by
  rcases models_step stepped with ⟨model, makeActive, rfl, grown⟩ | same
  · rw [grown]
    exact Dict.isSome_get?_set known _ _
  · rw [same]
    exact known

/-- A registered key stays registered. -/
theorem isSome_models_of_run {service later : ModelService Session} {key : String}
    (known : (service.models.get? key).isSome = true)
    (run : Run registryStep RegistersPlain service later) :
    (later.models.get? key).isSome = true := by
  induction run with
  | refl => exact known
  | tail event _ enabled _ ih => exact isSome_models_of_step ih enabled

/-- A plain version that is registered for a name resolves to a model of that name and version. -/
theorem get_of_plain {service : ModelService Session} (plain : service.Plain)
    {name version : String} (isPlain : PlainVersion version)
    (known : (service.models.get? (name ++ ":" ++ version)).isSome = true) :
    ∃ model, service.get name (some version) = .ok model ∧ model.name = name ∧
      model.version = version := by
  rcases Option.isSome_iff_exists.mp known with ⟨model, isModel⟩
  rcases plain _ (Dict.mem_of_get? isModel) with ⟨isKey, modelPlain⟩
  have sameChars := congrArg String.toList isKey
  simp only [LoadedModel.key, String.toList_append, List.append_assoc] at sameChars
  rcases append_separator_injective_right isPlain.2 modelPlain.2 sameChars with
    ⟨sameName, sameVersion⟩
  refine ⟨model, ?_, (String.toList_inj.mp sameName).symm, (String.toList_inj.mp sameVersion).symm⟩
  have pinned : (some version).filter (fun text => text ≠ "") = some version := by
    simp [isPlain.1]
  simp only [ModelService.get, pinned, Option.some_or, isModel]

/-! ## Listing -/

/-- The loaded models. -/
def ModelService.listModels (service : ModelService Session) : List (LoadedModel Session) :=
  service.models.map Prod.snd

theorem isSome_of_listed {service : ModelService Session} (plain : service.Plain)
    {model : LoadedModel Session} (listed : model ∈ service.listModels) :
    (service.models.get? (model.name ++ ":" ++ model.version)).isSome = true := by
  rcases List.mem_map.mp listed with ⟨entry, isEntry, rfl⟩
  have known := Dict.isSome_get?_of_mem isEntry
  rw [(plain entry isEntry).1] at known
  exact known

end VisionApi.Models
