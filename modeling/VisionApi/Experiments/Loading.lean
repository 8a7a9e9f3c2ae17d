import VisionApi.Experiments.Entry

/-!
# Which experiments are loaded

The entries that should be loaded are those with fields of their types.  The
loader accepts more, and raises on some contents of the file.

Two readers of one file are compared.  `validEntry` reads an entry with strict types,
as the documentation of the file has it; `Accepts` is what the loader takes, with its
conversions.  Strict reading is a special case of the lenient one
(`accepts_of_valid`), so the loader misses no valid entry, but it may take an invalid
one that comes later for the same model.

The registry of the loader maps a model to the last entry that it accepts for the
model.  It is right for every model exactly if the last accepted entry of the model is
valid, or describes what the last valid one before it describes (`lastOf_agree_iff`).

The other half is about exceptions: `QuietContent` says on which contents nothing
escapes, from the existence check of the path down to the keys of each entry.
-/

namespace VisionApi.Experiments

open Foundation

variable {Number : Type} (ops : FloatOps Number)

/-! ## Valid entries -/

/-- A field that is a text. -/
def textField (members : List (String × Json Number)) (key : String) : Option String :=
  match Dict.get? members key with
  | some (.string text) => some text
  | _ => none

/-- A weight is a number. -/
def readWeight : Json Number → Option Number
  | .int value => ops.ofInt value
  | .float value => some value
  | _ => none

/-- A variant with fields of their types. -/
def readVariant : Json Number → Option (Variant ops)
  | .object members => do
      let name ← textField members "name"
      let modelVersion ← textField members "model_version"
      let weight ← (Dict.get? members "weight").bind (readWeight ops)
      (Variant.make ops (.string name) (.string modelVersion) weight).toOption
  | _ => none

/-- `enabled` is a bool, or left out. -/
def readEnabled (members : List (String × Json Number)) : Option Bool :=
  match Dict.get? members "enabled" with
  | none => some true
  | some (.bool value) => some value
  | _ => none

/-- Every version is loaded for the model. -/
def isServable {ops : FloatOps Number} (available : AvailableVersions) (model : String)
    (experiment : Experiment ops) : Bool :=
  experiment.variants.all fun variant =>
    isLoaded ((Dict.get? available model).getD []) variant.modelVersion

/-- The experiment of a valid entry: fields of their types, weights that `Variant` and
`Experiment` accept, and versions that are loaded. -/
def validEntry (available : AvailableVersions) :
    Json Number → Option (String × Experiment ops)
  | .object members =>
      match textField members "model_name", textField members "name",
        Dict.get? members "variants", readEnabled members with
      | some model, some name, some (.array items), some enabled => do
          let variants ← items.mapM (readVariant ops)
          let experiment ← (Experiment.make ops (.string name) variants enabled).toOption
          if isServable available model experiment then some (model, experiment) else none
      | _, _, _, _ => none
  | _ => none

/-- What an entry describes for one model. -/
def described {ops : FloatOps Number} (read : Json Number → Option (String × Experiment ops))
    (model : String) (entry : Json Number) : Option (Experiment ops) :=
  (read entry).bind fun kept => if kept.1 = model then some kept.2 else none

/-- What the last entry for a model describes. -/
def lastOf {ops : FloatOps Number} (read : Json Number → Option (String × Experiment ops))
    (model : String) (entries : List (Json Number)) : Option (Experiment ops) :=
  entries.reverse.findSome? (described read model)

/-- The entries of the file. -/
def entriesOf : Option (Except FileError (Json Number)) → List (Json Number)
  | some (.ok (.object members)) =>
      match Dict.get? members "experiments" with
      | some (.array items) => items
      | _ => []
  | _ => []

/-- `load` returns, and maps each model to its last valid entry. -/
def LoadsValid (content : Option (Except FileError (Json Number)))
    (available : AvailableVersions) : Prop :=
  ∃ experiments, load ops content available = .ok experiments ∧ ∀ model,
    Dict.get? experiments model = lastOf (validEntry ops available) model (entriesOf content)

/-! ## What the loader accepts -/

/-- The loader takes the entry as the experiment of the model, whatever the types of its fields. -/
def Accepts (available : AvailableVersions) (entry : Json Number) (model : String)
    (experiment : Experiment ops) : Prop :=
  Describes ops entry (.string model) experiment ∧ isServable available model experiment = true

/-- An entry the loader does not raise on: a dictionary, with no weight that overflows, and with a
hashable model name and versions if it describes an experiment. -/
structure Quiet (entry : Json Number) : Prop where
  isObject : ∃ members, entry = .object members
  fits : ¬Overflows ops entry
  hashable : ∀ modelName experiment, Describes ops entry modelName experiment →
    isHashable modelName = true ∧
      ∀ variant ∈ experiment.variants, isHashable variant.modelVersion = true

/-- A content the loader does not raise on. -/
def QuietContent : Option (Except FileError (Json Number)) → Prop
  | none | some (.error .unreadable) | some (.error .invalid) => True
  | some (.error .unreachable) | some (.error .recursion) => False
  | some (.ok (.object members)) =>
      match Dict.get? members "experiments" with
      | none => True
      | some (.array items) => ∀ entry ∈ items, Quiet ops entry
      | some (.object members) => members = []
      | some (.string text) => text = ""
      | some _ => False
  | some (.ok _) => False

/-- The last entry the loader accepts for a model is valid, or describes what the last valid entry
before it describes. -/
def LastIsValid (available : AvailableVersions) (entries : List (Json Number)) : Prop :=
  ∀ model experiment before entry after, entries = before ++ entry :: after →
    Accepts ops available entry model experiment →
    (∀ later ∈ after, ∀ other, ¬Accepts ops available later model other) →
    validEntry ops available entry = some (model, experiment) ∨
      lastOf (validEntry ops available) model before = some experiment

/-! ## The last entry for a model -/

section LastOf

variable {ops} {read : Json Number → Option (String × Experiment ops)} {model : String}

@[simp]
theorem lastOf_nil : lastOf read model [] = none := rfl

/-- The last description in two lists is that of the second one, if it has any. -/
theorem lastOf_append (before after : List (Json Number)) :
    lastOf read model (before ++ after) =
      (lastOf read model after).or (lastOf read model before) := by
  simp only [lastOf, List.reverse_append, List.findSome?_append]

theorem lastOf_cons (entry : Json Number) (entries : List (Json Number)) :
    lastOf read model (entry :: entries) =
      (lastOf read model entries).or (described read model entry) := by
  rw [← List.singleton_append, lastOf_append]
  congr 1
  cases isDescribed : described read model entry with
  | none => simp [lastOf, isDescribed]
  | some experiment => simp [lastOf, isDescribed]

theorem lastOf_eq_none {entries : List (Json Number)}
    (nothing : ∀ entry ∈ entries, described read model entry = none) :
    lastOf read model entries = none := by
  apply List.findSome?_eq_none_iff.mpr
  intro entry isEntry
  exact nothing entry (List.mem_reverse.mp isEntry)

/-- The last description comes from an entry that none after it follows. -/
theorem exists_split_of_lastOf {entries : List (Json Number)} {experiment : Experiment ops}
    (isLast : lastOf read model entries = some experiment) :
    ∃ before entry after, entries = before ++ entry :: after ∧
      described read model entry = some experiment ∧
      ∀ later ∈ after, described read model later = none := by
  induction entries with
  | nil => cases isLast
  | cons first entries ih =>
      rw [lastOf_cons] at isLast
      cases found : lastOf read model entries with
      | some other =>
          rw [found, Option.some_or] at isLast
          rcases ih (found.trans isLast) with ⟨before, entry, after, rfl, isEntry, none⟩
          exact ⟨first :: before, entry, after, rfl, isEntry, none⟩
      | none =>
          rw [found, Option.none_or] at isLast
          refine ⟨[], first, entries, rfl, isLast, ?_⟩
          intro later isLater
          have missing := List.findSome?_eq_none_iff.mp found
          exact missing later (List.mem_reverse.mpr isLater)

theorem described_eq_some_iff {entry : Json Number} {experiment : Experiment ops} :
    described read model entry = some experiment ↔ read entry = some (model, experiment) := by
  simp only [described, Option.bind_eq_some_iff, Option.ite_none_right_eq_some, Option.some.injEq]
  constructor
  · rintro ⟨⟨name, other⟩, isRead, rfl, rfl⟩
    exact isRead
  · intro isRead
    exact ⟨_, isRead, rfl, rfl⟩

end LastOf

/-! ## Valid entries are accepted -/

section Valid

variable {ops} {available : AvailableVersions}

/-- A text field is a text. -/
theorem get?_of_textField {members : List (String × Json Number)} {key text : String}
    (isText : textField members key = some text) :
    Dict.get? members key = some (.string text) := by
  simp only [textField] at isText
  split at isText
  · rename_i found isFound
    cases isText
    exact isFound
  · cases isText

theorem toFloat_of_readWeight {value : Json Number} {weight : Number}
    (isWeight : readWeight ops value = some weight) : toFloat ops value = .ok weight := by
  cases value with
  | int value =>
      have converted : ops.ofInt value = some weight := isWeight
      simp only [toFloat, converted]
  | float value =>
      cases isWeight
      rfl
  | null | bool | string | array | object => cases isWeight

theorem toOption_eq_some_iff {Error Value : Type} {outcome : Except Error Value} {value : Value} :
    outcome.toOption = some value ↔ outcome = .ok value := by
  cases outcome with
  | error error => simp [Except.toOption]
  | ok found => simp [Except.toOption]

theorem describesVariant_of_readVariant {item : Json Number} {variant : Variant ops}
    (isVariant : readVariant ops item = some variant) : DescribesVariant ops item variant := by
  cases item with
  | object members =>
      simp only [readVariant, Option.bind_eq_bind, Option.bind_eq_some_iff, toOption_eq_some_iff,
        Variant.make_ok_iff] at isVariant
      rcases isVariant with ⟨name, isName, version, isVersion, weight, ⟨value, isValue, isWeight⟩,
        hasName, hasVersion, hasWeight⟩
      refine ⟨members, value, rfl, ?_, ?_, isValue, ?_⟩
      · rw [hasName]
        exact get?_of_textField isName
      · rw [hasVersion]
        exact get?_of_textField isVersion
      · rw [hasWeight]
        exact toFloat_of_readWeight isWeight
  | null | bool | int | float | string | array => cases isVariant

theorem forall₂_of_mapM {items : List (Json Number)} {variants : List (Variant ops)}
    (areRead : items.mapM (readVariant ops) = some variants) :
    List.Forall₂ (DescribesVariant ops) items variants := by
  induction items generalizing variants with
  | nil =>
      cases areRead
      exact List.Forall₂.nil
  | cons item items ih =>
      simp only [List.mapM_cons, Option.bind_eq_bind, Option.bind_eq_some_iff] at areRead
      rcases areRead with ⟨variant, isVariant, rest, areRest, ⟨⟩⟩
      exact List.Forall₂.cons (describesVariant_of_readVariant isVariant) (ih areRest)

theorem isEnabled_of_readEnabled {members : List (String × Json Number)} {enabled : Bool}
    (isRead : readEnabled members = some enabled) :
    isEnabled ops (.object members) = enabled := by
  simp only [readEnabled] at isRead
  split at isRead
  · rename_i missing
    cases isRead
    simp only [isEnabled, missing, Option.map_none, Option.getD_none]
  · rename_i value found
    cases isRead
    simp only [isEnabled, found, Option.map_some, Option.getD_some, truthy]
  · cases isRead

/-- A valid entry is loaded as it is. -/
theorem accepts_of_valid {entry : Json Number} {model : String} {experiment : Experiment ops}
    (valid : validEntry ops available entry = some (model, experiment)) :
    Accepts ops available entry model experiment := by
  cases entry with
  | object members =>
      simp only [validEntry] at valid
      split at valid
      · rename_i model name items enabled isModel isName isItems areEnabled
        simp only [Option.bind_eq_bind, Option.bind_eq_some_iff, toOption_eq_some_iff,
          Experiment.make_ok_iff, Option.ite_none_right_eq_some, Option.some.injEq] at valid
        rcases valid with ⟨variants, areVariants, found, ⟨hasName, rfl, hasEnabled⟩, servable, ⟨⟩⟩
        refine ⟨⟨items, ?_, forall₂_of_mapM areVariants, ?_⟩, servable⟩
        · rw [hasName]
          exact ⟨members, .array items, rfl, get?_of_textField isModel, get?_of_textField isName,
            isItems, rfl⟩
        · rw [hasEnabled]
          exact isEnabled_of_readEnabled areEnabled
      · cases valid
  | null | bool | int | float | string | array => cases valid

end Valid

/-! ## What the loader returns -/

/-- The experiment an entry is loaded as, if any. -/
def accepted (available : AvailableVersions) (entry : Json Number) :
    Option (String × Experiment ops) :=
  match construct ops entry with
  | .ok (.string model, experiment) =>
      if isServable available model experiment then some (model, experiment) else none
  | _ => none

section Loader

variable {ops} {available : AvailableVersions}

/-- An entry that is accepted, as a function. -/
theorem accepted_eq_some_iff {entry : Json Number} {model : String} {experiment : Experiment ops} :
    accepted ops available entry = some (model, experiment) ↔
      Accepts ops available entry model experiment := by
  simp only [Accepts, ← construct_ok_iff]
  constructor
  · intro isAccepted
    simp only [accepted] at isAccepted
    split at isAccepted
    · rename_i found other built
      rcases Option.ite_none_right_eq_some.mp isAccepted with ⟨servable, ⟨⟩⟩
      exact ⟨built, servable⟩
    · cases isAccepted
  · rintro ⟨built, servable⟩
    simp only [accepted, built, servable, if_true]

/-- What is described for a model among accepted entries. -/
theorem described_accepted_iff {entry : Json Number} {model : String}
    {experiment : Experiment ops} :
    described (accepted ops available) model entry = some experiment ↔
      Accepts ops available entry model experiment := by
  rw [described_eq_some_iff, accepted_eq_some_iff]

theorem described_accepted_eq_none_iff {entry : Json Number} {model : String} :
    described (accepted ops available) model entry = none ↔
      ∀ experiment, ¬Accepts ops available entry model experiment := by
  simp only [Option.eq_none_iff_forall_ne_some, ne_eq, described_accepted_iff]

/-- The registry after an entry on which `load` does not raise. -/
def keep (available : AvailableVersions) (experiments : Registry ops) (entry : Json Number) :
    Registry ops :=
  match accepted ops available entry with
  | some (model, experiment) => Dict.set experiments model experiment
  | none => experiments

theorem loadEntry_of_quiet {entry : Json Number} (quiet : Quiet ops entry)
    (experiments : Registry ops) :
    loadEntry ops available experiments entry = .ok (keep available experiments entry) := by
  rcases quiet.isObject with ⟨members, rfl⟩
  simp only [loadEntry, keep, accepted]
  cases built : construct ops (.object members) with
  | error error =>
      have caught : error.isCaught = true := by
        rcases construct_error built with caught | rfl
        · exact caught
        · exact absurd (construct_overflow_iff.mp built) quiet.fits
      simp only [caught, if_true]
  | ok described =>
      rcases described with ⟨modelName, experiment⟩
      rcases quiet.hashable modelName experiment (construct_ok_iff.mp built) with
          ⟨nameHashable, versionsHashable⟩
      have noVersion : (experiment.variants.any fun variant =>
          !isHashable variant.modelVersion) = false := by
        apply List.any_eq_false.mpr
        intro variant isVariant
        simp [versionsHashable variant isVariant]
      simp only [nameHashable, noVersion, Bool.not_true, Bool.false_eq_true, if_false]
      cases modelName with
      | string model =>
          simp only
          cases servable : isServable available model experiment with
          | true =>
              have allLoaded : (experiment.variants.all fun variant =>
                  isLoaded ((Dict.get? available model).getD []) variant.modelVersion) = true :=
                servable
              simp only [allLoaded, if_true]
          | false =>
              have notLoaded : (experiment.variants.all fun variant =>
                  isLoaded ((Dict.get? available model).getD []) variant.modelVersion) = false :=
                servable
              simp only [notLoaded, Bool.false_eq_true, if_false]
      | null | bool | int | float | array | object => rfl

theorem quiet_of_loadEntry {entry : Json Number} {experiments : Registry ops}
    (returns : Succeeds (loadEntry ops available experiments entry)) : Quiet ops entry := by
  simp only [loadEntry] at returns
  constructor
  · cases entry with
    | object members => exact ⟨members, rfl⟩
    | null | bool | int | float | string | array =>
        exact absurd returns (not_succeeds_error _)
  · intro overflows
    simp only [construct_overflow_iff.mpr overflows] at returns
    exact absurd returns (not_succeeds_error _)
  · intro modelName experiment describes
    simp only [construct_ok_iff.mpr describes] at returns
    split at returns
    · exact absurd returns (not_succeeds_error _)
    · rename_i nameHashable
      split at returns
      · exact absurd returns (not_succeeds_error _)
      · rename_i versionsHashable
        constructor
        · simpa using nameHashable
        · intro variant isVariant
          have nowhere := List.any_eq_false.mp (eq_false_of_ne_true versionsHashable)
          simpa using nowhere variant isVariant

theorem foldlM_loadEntry_of_quiet {entries : List (Json Number)}
    (quiet : ∀ entry ∈ entries, Quiet ops entry) (experiments : Registry ops) :
    entries.foldlM (loadEntry ops available) experiments =
      .ok (entries.foldl (keep available) experiments) := by
  induction entries generalizing experiments with
  | nil => rfl
  | cons entry entries ih =>
      rw [List.foldlM_cons, bind_ok_iff]
      refine ⟨_, loadEntry_of_quiet (quiet entry List.mem_cons_self) experiments, ?_⟩
      exact ih (fun other isOther => quiet other (List.mem_cons_of_mem _ isOther)) _

theorem quiet_of_foldlM {entries : List (Json Number)} {experiments : Registry ops}
    (returns : Succeeds (entries.foldlM (loadEntry ops available) experiments)) :
    ∀ entry ∈ entries, Quiet ops entry := by
  induction entries generalizing experiments with
  | nil => exact List.forall_mem_nil _
  | cons entry entries ih =>
      rw [List.foldlM_cons, bind_succeeds_iff] at returns
      rcases returns with ⟨next, first, rest⟩
      rw [List.forall_mem_cons]
      exact ⟨quiet_of_loadEntry ⟨next, first⟩, ih rest⟩

/-- The registry holds the last accepted entry for each model. -/
theorem get?_foldl_keep (model : String) (entries : List (Json Number))
    (experiments : Registry ops) :
    Dict.get? (entries.foldl (keep available) experiments) model =
      (lastOf (accepted ops available) model entries).or (Dict.get? experiments model) := by
  induction entries generalizing experiments with
  | nil => rfl
  | cons entry entries ih =>
      have here : Dict.get? (keep available experiments entry) model =
          (described (accepted ops available) model entry).or (Dict.get? experiments model) := by
        simp only [keep, described]
        cases accepted ops available entry with
        | none => rfl
        | some kept =>
            by_cases same : kept.1 = model
            · subst same
              simp
            · simp [Dict.get?_set_ne _ (Ne.symm same), same]
      rw [List.foldl_cons, ih, here, lastOf_cons, Option.or_assoc]

/-- `load` returns exactly on quiet contents, with the last accepted entry for each model. -/
theorem load_of_quiet (available : AvailableVersions)
    {content : Option (Except FileError (Json Number))}
    (quiet : QuietContent ops content) :
    ∃ experiments, load ops content available = .ok experiments ∧ ∀ model,
      Dict.get? experiments model = lastOf (accepted ops available) model (entriesOf content) := by
  cases content with
  | none => exact ⟨[], rfl, fun _ => rfl⟩
  | some file =>
      cases file with
      | error error =>
          cases error with
          | unreachable | recursion => cases quiet
          | unreadable | invalid => exact ⟨[], rfl, fun _ => rfl⟩
      | ok raw =>
          cases raw with
          | object members =>
              simp only [QuietContent] at quiet
              simp only [load, entriesOf]
              cases found : Dict.get? members "experiments" with
              | none => exact ⟨[], rfl, fun _ => rfl⟩
              | some value =>
                  rw [found] at quiet
                  cases value with
                  | array items =>
                      refine ⟨_, foldlM_loadEntry_of_quiet quiet [], ?_⟩
                      intro model
                      rw [get?_foldl_keep]
                      exact Option.or_none
                  | object members =>
                      cases quiet
                      exact ⟨[], rfl, fun _ => rfl⟩
                  | string text =>
                      cases quiet
                      exact ⟨[], rfl, fun _ => rfl⟩
                  | null | bool | int | float => cases quiet
          | null | bool | int | float | string | array => cases quiet

theorem eq_nil_of_texts (available : AvailableVersions) {texts : List String}
    (experiments : Registry ops)
    (returns : Succeeds ((texts.map Json.string).foldlM (loadEntry ops available) experiments)) :
    texts = [] := by
  cases texts with
  | nil => rfl
  | cons text texts =>
      rcases (quiet_of_foldlM returns (.string text) List.mem_cons_self).isObject with ⟨_, ⟨⟩⟩

/-- A content that is loaded is quiet. -/
theorem quiet_of_load {content : Option (Except FileError (Json Number))}
    (returns : Succeeds (load ops content available)) : QuietContent ops content := by
  cases content with
  | none => trivial
  | some file =>
      cases file with
      | error error =>
          cases error with
          | unreadable | invalid => trivial
          | unreachable | recursion => exact absurd returns (not_succeeds_error _)
      | ok raw =>
          cases raw with
          | object members =>
              simp only [QuietContent]
              simp only [load] at returns
              cases found : Dict.get? members "experiments" with
              | none => trivial
              | some value =>
                  rw [found] at returns
                  cases value with
                  | array items => exact quiet_of_foldlM returns
                  | object members =>
                      have noKey : members.map Prod.fst = [] := by
                        apply eq_nil_of_texts available []
                        rw [List.map_map]
                        exact returns
                      exact List.map_eq_nil_iff.mp noKey
                  | string text =>
                      have noChar : text.toList.map String.singleton = [] := by
                        apply eq_nil_of_texts available []
                        rw [List.map_map]
                        exact returns
                      exact String.toList_eq_nil_iff.mp (List.map_eq_nil_iff.mp noChar)
                  | null | bool | int | float => exact absurd returns (not_succeeds_error _)
          | null | bool | int | float | string | array =>
              exact absurd returns (not_succeeds_error _)

end Loader

/-! ## The last valid entry -/

section Verdict

variable {ops} {available : AvailableVersions} {entries : List (Json Number)} {model : String}

/-- Where nothing is accepted nothing is valid. -/
theorem lastOf_valid_eq_none
    (nothing : ∀ entry ∈ entries, ∀ experiment, ¬Accepts ops available entry model experiment) :
    lastOf (validEntry ops available) model entries = none := by
  apply lastOf_eq_none
  intro entry isEntry
  apply Option.eq_none_iff_forall_ne_some.mpr
  intro experiment isValid
  exact nothing entry isEntry experiment (accepts_of_valid (described_eq_some_iff.mp isValid))

/-- A valid entry describes the experiment it is accepted as. -/
theorem described_valid_of_accepts {entry : Json Number} {experiment other : Experiment ops}
    (isAccepted : Accepts ops available entry model experiment)
    (isValid : described (validEntry ops available) model entry = some other) :
    other = experiment := by
  have alsoAccepted :=
    accepted_eq_some_iff.mpr (accepts_of_valid (described_eq_some_iff.mp isValid))
  rw [accepted_eq_some_iff.mpr isAccepted] at alsoAccepted
  cases alsoAccepted
  rfl

/-- Both readings keep the same experiment exactly when the last accepted entry is valid, or
describes what was kept before it. -/
theorem lastOf_split_iff {before after : List (Json Number)} {entry : Json Number}
    {experiment : Experiment ops} (isAccepted : Accepts ops available entry model experiment)
    (noLater : ∀ later ∈ after, ∀ other, ¬Accepts ops available later model other) :
    lastOf (validEntry ops available) model (before ++ entry :: after) = some experiment ↔
      validEntry ops available entry = some (model, experiment) ∨
        lastOf (validEntry ops available) model before = some experiment := by
  rw [lastOf_append, lastOf_cons, lastOf_valid_eq_none noLater, Option.none_or,
    ← described_eq_some_iff]
  cases isValid : described (validEntry ops available) model entry with
  | none => simp
  | some other =>
      cases described_valid_of_accepts isAccepted isValid
      simp

theorem lastOf_accepted_split {before after : List (Json Number)} {entry : Json Number}
    {experiment : Experiment ops} (isAccepted : Accepts ops available entry model experiment)
    (noLater : ∀ later ∈ after, ∀ other, ¬Accepts ops available later model other) :
    lastOf (accepted ops available) model (before ++ entry :: after) = some experiment := by
  have noneAfter : lastOf (accepted ops available) model after = none := by
    apply lastOf_eq_none
    intro later isLater
    exact described_accepted_eq_none_iff.mpr (noLater later isLater)
  rw [lastOf_append, lastOf_cons, noneAfter, Option.none_or,
    described_accepted_iff.mpr isAccepted, Option.some_or]

/-- The two readings keep the same experiments exactly when the last accepted entries are valid. -/
theorem lastOf_agree_iff :
    (∀ model, lastOf (accepted ops available) model entries =
      lastOf (validEntry ops available) model entries) ↔ LastIsValid ops available entries := by
  constructor
  · intro agree model experiment before entry after split isAccepted noLater
    subst split
    apply (lastOf_split_iff isAccepted noLater).mp
    rw [← agree, lastOf_accepted_split isAccepted noLater]
  · intro valid model
    cases isLast : lastOf (accepted ops available) model entries with
    | none =>
        apply Eq.symm
        apply lastOf_valid_eq_none
        intro entry isEntry
        have missing := List.findSome?_eq_none_iff.mp isLast entry (List.mem_reverse.mpr isEntry)
        exact described_accepted_eq_none_iff.mp missing
    | some experiment =>
        rcases exists_split_of_lastOf isLast with ⟨before, entry, after, rfl, isEntry, noneLater⟩
        have isAccepted := described_accepted_iff.mp isEntry
        have noLater : ∀ later ∈ after, ∀ other, ¬Accepts ops available later model other := by
          intro later isLater
          exact described_accepted_eq_none_iff.mp (noneLater later isLater)
        apply Eq.symm
        apply (lastOf_split_iff isAccepted noLater).mpr
        exact valid model experiment before entry after rfl isAccepted noLater

end Verdict

/-- `load` returns with the last valid entry for each model exactly when the content is quiet and
the last accepted entries are valid. -/
theorem load_last_valid_iff (content : Option (Except FileError (Json Number)))
    (available : AvailableVersions) :
    LoadsValid ops content available ↔
      QuietContent ops content ∧ LastIsValid ops available (entriesOf content) := by
  constructor
  · rintro ⟨experiments, returned, holdsValid⟩
    have quiet : QuietContent ops content := quiet_of_load ⟨experiments, returned⟩
    rcases load_of_quiet available quiet with ⟨others, alsoReturned, holdsAccepted⟩
    rw [returned] at alsoReturned
    cases alsoReturned
    refine ⟨quiet, ?_⟩
    apply lastOf_agree_iff.mp
    intro model
    rw [← holdsAccepted, holdsValid]
  · rintro ⟨quiet, valid⟩
    rcases load_of_quiet available quiet with ⟨experiments, returned, holdsAccepted⟩
    refine ⟨experiments, returned, ?_⟩
    intro model
    rw [holdsAccepted, lastOf_agree_iff.mpr valid]

/-- A list at the top level of the file stops the start of the service. -/
theorem load_raises_on_list :
    ¬∀ (content : Option (Except FileError (Json ℚ))) (available : AvailableVersions),
      LoadsValid exactOps content available := by
  intro always
  rcases always (some (.ok (.array []))) [] with ⟨experiments, returned, _⟩
  cases returned

end VisionApi.Experiments
