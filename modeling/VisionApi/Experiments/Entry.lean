import VisionApi.Experiments.Config

/-!
# What an entry describes

The loader reads an entry whatever the types of its fields.  This file says what it
reads, and when the reading raises.

`Describes` is the relation between an entry and the experiment that is made of it,
field by field, with the conversions the loader applies.  For each function that
reads, one lemma says when it returns (in the terms of that relation) and one what it
raises: an exception that is caught, or an overflow.

An overflow comes from `float()` of an integer that is too large, and escapes the
handler.  `Overflows` says where the loop over the variants gets to such a weight: all
variants before it must be readable, as the loop would otherwise have stopped with an
exception that is caught.
-/

namespace VisionApi.Experiments

open Foundation

variable {Number : Type} (ops : FloatOps Number)

/-! ## The reading of an entry -/

/-- The variant an item describes. -/
def DescribesVariant (item : Json Number) (variant : Variant ops) : Prop :=
  ∃ members weight, item = .object members ∧
    Dict.get? members "name" = some variant.name ∧
    Dict.get? members "model_version" = some variant.modelVersion ∧
    Dict.get? members "weight" = some weight ∧ toFloat ops weight = .ok variant.weight

/-- The items of `variants`, for an entry that has the three fields. -/
def HasItems (entry : Json Number) (modelName name : Json Number) (items : List (Json Number)) :
    Prop :=
  ∃ members variants, entry = .object members ∧
    Dict.get? members "model_name" = some modelName ∧
    Dict.get? members "name" = some name ∧
    Dict.get? members "variants" = some variants ∧ variants.iterate = some items

/-- The model an entry names and the experiment it describes. -/
def Describes (entry modelName : Json Number) (experiment : Experiment ops) : Prop :=
  ∃ items, HasItems entry modelName experiment.name items ∧
    List.Forall₂ (DescribesVariant ops) items experiment.variants ∧
    isEnabled ops entry = experiment.enabled

/-- An int, or a bool, that is too large for a float. -/
def TooLarge (value : Json Number) : Prop :=
  ∃ number, asInt value = some number ∧ ops.ofInt number = none

/-- A weight of the entry is too large, and every item before it describes a variant. -/
def Overflows (entry : Json Number) : Prop :=
  ∃ modelName name before members weight after,
    HasItems entry modelName name (before ++ .object members :: after) ∧
    (∀ earlier ∈ before, ∃ variant, DescribesVariant ops earlier variant) ∧
    (Dict.get? members "name").isSome ∧ (Dict.get? members "model_version").isSome ∧
    Dict.get? members "weight" = some weight ∧ TooLarge ops weight

/-! ## Reading -/

section Reading

variable {ops}

/-- A key is found in an object that has it. -/
theorem subscript_ok_iff {value found : Json Number} {key : String} :
    subscript value key = .ok found ↔
      ∃ members, value = .object members ∧ Dict.get? members key = some found := by
  cases value with
  | object members =>
      simp only [subscript, Json.object.injEq, exists_eq_left']
      cases Dict.get? members key with
      | none => simp
      | some other => simp
  | null | bool | int | float | string | array => simp [subscript]

theorem subscript_caught {value : Json Number} {key : String} {error : PyError}
    (raised : subscript value key = .error error) : error.isCaught = true := by
  cases value with
  | object members =>
      simp only [subscript] at raised
      split at raised
      · cases raised
      · cases raised
        rfl
  | null | bool | int | float | string | array =>
      cases raised
      rfl

theorem toFloat_overflow_iff {value : Json Number} :
    toFloat ops value = .error .overflow ↔ TooLarge ops value := by
  cases value with
  | int value =>
      simp only [toFloat, TooLarge, asInt, Option.some.injEq, exists_eq_left']
      cases ops.ofInt value with
      | none => simp
      | some weight => simp
  | bool value =>
      simp only [toFloat, TooLarge, asInt, Option.some.injEq, exists_eq_left']
      cases ops.ofInt (if value then 1 else 0) with
      | none => simp
      | some weight => simp
  | string text =>
      simp only [toFloat, TooLarge, asInt]
      cases ops.ofText text with
      | none => simp
      | some weight => simp
  | null | float | array | object => simp [toFloat, TooLarge, asInt]

/-- A conversion raises what is caught, or overflows. -/
theorem toFloat_error {value : Json Number} {error : PyError}
    (raised : toFloat ops value = .error error) : error.isCaught = true ∨ error = .overflow := by
  cases value with
  | int value =>
      simp only [toFloat] at raised
      split at raised
      · cases raised
      · cases raised
        exact Or.inr rfl
  | bool value =>
      simp only [toFloat] at raised
      split at raised
      · cases raised
      · cases raised
        exact Or.inr rfl
  | string text =>
      simp only [toFloat] at raised
      split at raised
      · cases raised
      · cases raised
        exact Or.inl rfl
  | float value => cases raised
  | null | array | object =>
      cases raised
      exact Or.inl rfl

/-- A variant that is made has the given fields. -/
theorem Variant.make_ok_iff {name modelVersion : Json Number} {weight : Number}
    {variant : Variant ops} : Variant.make ops name modelVersion weight = .ok variant ↔
      variant.name = name ∧ variant.modelVersion = modelVersion ∧ variant.weight = weight := by
  simp only [Variant.make]
  split
  · constructor
    · rintro ⟨⟩
      exact ⟨rfl, rfl, rfl⟩
    · rintro ⟨rfl, rfl, rfl⟩
      rfl
  · rename_i noShare
    constructor
    · rintro ⟨⟩
    · rintro ⟨rfl, rfl, rfl⟩
      exact absurd variant.share noShare

theorem Variant.make_caught {name modelVersion : Json Number} {weight : Number} {error : PyError}
    (raised : Variant.make ops name modelVersion weight = .error error) :
    error.isCaught = true := by
  simp only [Variant.make] at raised
  split at raised
  · cases raised
  · cases raised
    rfl

/-- An experiment that is made has the given fields. -/
theorem Experiment.make_ok_iff {name : Json Number} {variants : List (Variant ops)} {enabled : Bool}
    {experiment : Experiment ops} : Experiment.make ops name variants enabled = .ok experiment ↔
      experiment.name = name ∧ experiment.variants = variants ∧ experiment.enabled = enabled := by
  constructor
  · intro made
    simp only [Experiment.make] at made
    split at made
    · split at made
      · split at made
        · split at made
          · cases made
            exact ⟨rfl, rfl, rfl⟩
          · cases made
        · cases made
      · cases made
    · cases made
  · rintro ⟨rfl, rfl, rfl⟩
    simp only [Experiment.make, dif_pos experiment.nonempty, dif_pos experiment.whole,
      dif_pos experiment.hashable, dif_pos experiment.unique]

theorem Experiment.make_caught {name : Json Number} {variants : List (Variant ops)} {enabled : Bool}
    {error : PyError} (raised : Experiment.make ops name variants enabled = .error error) :
    error.isCaught = true := by
  simp only [Experiment.make] at raised
  split at raised
  · split at raised
    · split at raised
      · split at raised
        · cases raised
        · cases raised
          rfl
      · cases raised
        rfl
    · cases raised
      rfl
  · cases raised
    rfl

/-- An item is read as the variant it describes. -/
theorem constructVariant_ok_iff {item : Json Number} {variant : Variant ops} :
    constructVariant ops item = .ok variant ↔ DescribesVariant ops item variant := by
  simp only [constructVariant, bind_ok_iff, subscript_ok_iff, Variant.make_ok_iff]
  constructor
  · rintro ⟨_, ⟨members, rfl, isName⟩, _, ⟨_, ⟨⟩, isVersion⟩, value, ⟨_, ⟨⟩, isWeight⟩, _,
      converted,
      rfl, rfl, rfl⟩
    exact ⟨members, value, rfl, isName, isVersion, isWeight, converted⟩
  · rintro ⟨members, value, rfl, isName, isVersion, isWeight, converted⟩
    exact ⟨_, ⟨members, rfl, isName⟩, _, ⟨members, rfl, isVersion⟩, value, ⟨members, rfl, isWeight⟩,
      _, converted, rfl, rfl, rfl⟩

theorem constructVariant_overflow_iff {item : Json Number} :
    constructVariant ops item = .error .overflow ↔ ∃ members weight, item = .object members ∧
      (Dict.get? members "name").isSome ∧ (Dict.get? members "model_version").isSome ∧
      Dict.get? members "weight" = some weight ∧ TooLarge ops weight := by
  have noSubscript : ∀ (value : Json Number) key, subscript value key ≠ .error .overflow := by
    intro value key raised
    cases subscript_caught raised
  have noMake : ∀ (name version : Json Number) weight,
      Variant.make ops name version weight ≠ .error .overflow := by
    intro name version weight raised
    cases Variant.make_caught raised
  simp only [constructVariant, bind_error_iff, subscript_ok_iff, noSubscript, noMake, false_or,
    and_false, exists_false, or_false, toFloat_overflow_iff, Option.isSome_iff_exists]
  constructor
  · rintro ⟨name, ⟨members, rfl, isName⟩, version, ⟨_, ⟨⟩, isVersion⟩, weight, ⟨_, ⟨⟩, isWeight⟩,
      tooLarge⟩
    exact ⟨members, weight, rfl, ⟨name, isName⟩, ⟨version, isVersion⟩, isWeight, tooLarge⟩
  · rintro ⟨members, weight, rfl, ⟨name, isName⟩, ⟨version, isVersion⟩, isWeight, tooLarge⟩
    exact ⟨name, ⟨members, rfl, isName⟩, version, ⟨members, rfl, isVersion⟩, weight,
      ⟨members, rfl, isWeight⟩, tooLarge⟩

theorem constructVariant_error {item : Json Number} {error : PyError}
    (raised : constructVariant ops item = .error error) :
    error.isCaught = true ∨ error = .overflow := by
  simp only [constructVariant, bind_error_iff] at raised
  rcases raised with noName | ⟨_, _, noVersion | ⟨_, _, noWeight | ⟨weight, _, noFloat | ⟨_, _,
    noVariant⟩⟩⟩⟩
  · exact Or.inl (subscript_caught noName)
  · exact Or.inl (subscript_caught noVersion)
  · exact Or.inl (subscript_caught noWeight)
  · exact toFloat_error noFloat
  · exact Or.inl (Variant.make_caught noVariant)

theorem constructVariant_succeeds_iff {item : Json Number} :
    Succeeds (constructVariant ops item) ↔ ∃ variant, DescribesVariant ops item variant :=
  exists_congr fun _ => constructVariant_ok_iff

/-- An entry is read as the experiment it describes. -/
theorem construct_ok_iff {entry modelName : Json Number} {experiment : Experiment ops} :
    construct ops entry = .ok (modelName, experiment) ↔
      Describes ops entry modelName experiment := by
  constructor
  · intro converted
    simp only [construct, bind_ok_iff, subscript_ok_iff] at converted
    rcases converted with ⟨_, ⟨members, rfl, isModel⟩, name, ⟨_, ⟨⟩, isName⟩, value,
      ⟨_, ⟨⟩, isValue⟩, returned⟩
    split at returned
    · cases returned
    · rename_i items iterated
      simp only [bind_ok_iff, mapM_ok_iff, constructVariant_ok_iff,
        Experiment.make_ok_iff] at returned
      rcases returned with ⟨variants, describe, _, ⟨rfl, rfl, isEnabled⟩, ⟨⟩⟩
      exact ⟨items, ⟨members, value, rfl, isModel, isName, isValue, iterated⟩, describe,
        isEnabled.symm⟩
  · rintro ⟨items, ⟨members, value, rfl, isModel, isName, isValue, iterated⟩, describe, isEnabled⟩
    simp only [construct, bind_ok_iff, subscript_ok_iff]
    refine ⟨modelName, ⟨members, rfl, isModel⟩, experiment.name, ⟨members, rfl, isName⟩, value,
      ⟨members, rfl, isValue⟩, ?_⟩
    simp only [iterated, bind_ok_iff, mapM_ok_iff, constructVariant_ok_iff, Experiment.make_ok_iff]
    exact ⟨experiment.variants, describe, experiment, ⟨rfl, rfl, isEnabled.symm⟩, rfl⟩

/-- Reading overflows exactly at a weight that is reached and too large. -/
theorem construct_overflow_iff {entry : Json Number} :
    construct ops entry = .error .overflow ↔ Overflows ops entry := by
  have noSubscript : ∀ (value : Json Number) key, subscript value key ≠ .error .overflow := by
    intro value key raised
    cases subscript_caught raised
  have noMake : ∀ (name : Json Number) variants enabled,
      Experiment.make ops name variants enabled ≠ .error .overflow := by
    intro name variants enabled raised
    cases Experiment.make_caught raised
  constructor
  · intro raised
    simp only [construct, bind_error_iff, subscript_ok_iff, noSubscript, false_or] at raised
    rcases raised with ⟨modelName, ⟨members, rfl, isModel⟩, name, ⟨_, ⟨⟩, isName⟩, value,
      ⟨_, ⟨⟩, isValue⟩, raised⟩
    split at raised
    · cases raised
    · rename_i items iterated
      simp only [bind_error_iff, noMake, reduceCtorEq, and_false, exists_false, or_false,
        mapM_error_iff, constructVariant_overflow_iff, constructVariant_succeeds_iff] at raised
      rcases raised with ⟨before, _, after, rfl, describe, itemMembers, weight, rfl, hasName,
        hasVersion, isWeight, tooLarge⟩
      exact ⟨modelName, name, before, itemMembers, weight, after,
        ⟨members, value, rfl, isModel, isName, isValue, iterated⟩, describe, hasName, hasVersion,
        isWeight, tooLarge⟩
  · rintro ⟨modelName, name, before, itemMembers, weight, after,
      ⟨members, value, rfl, isModel, isName, isValue, iterated⟩, describe, hasName,
      hasVersion, isWeight, tooLarge⟩
    simp only [construct, bind_error_iff, subscript_ok_iff, noSubscript, false_or]
    refine ⟨modelName, ⟨members, rfl, isModel⟩, name, ⟨members, rfl, isName⟩, value,
      ⟨members, rfl, isValue⟩, ?_⟩
    simp only [iterated, bind_error_iff, mapM_error_iff, constructVariant_overflow_iff,
      constructVariant_succeeds_iff]
    exact Or.inl ⟨before, .object itemMembers, after, rfl, describe, itemMembers, weight, rfl,
      hasName, hasVersion, isWeight, tooLarge⟩

/-- The conversion of an entry raises what is caught, or overflows. -/
theorem construct_error {entry : Json Number} {error : PyError}
    (raised : construct ops entry = .error error) : error.isCaught = true ∨ error = .overflow := by
  simp only [construct, bind_error_iff] at raised
  rcases raised with noModel | ⟨_, _, noName | ⟨_, _, noVariants | ⟨value, _, raised⟩⟩⟩
  · exact Or.inl (subscript_caught noModel)
  · exact Or.inl (subscript_caught noName)
  · exact Or.inl (subscript_caught noVariants)
  · split at raised
    · cases raised
      exact Or.inl rfl
    · simp only [bind_error_iff, mapM_error_iff] at raised
      rcases raised with ⟨_, item, _, _, _, raised⟩ | ⟨variants, _, noExperiment | ⟨_, _, ⟨⟩⟩⟩
      · exact constructVariant_error raised
      · exact Or.inl (Experiment.make_caught noExperiment)

end Reading

end VisionApi.Experiments
