import Mathlib.Data.List.Forall2

/-!
# Computations that may fail

A computation that may raise is a value of `Except`: the error it raised, or what it
returned.

The lemmas say when a composed computation returns or raises a given value, for
`bind`, `map`, `mapError` and `mapM`.  With them a `do` block is taken apart one step
at a time, without unfolding the monad: `bind_ok_iff` gives the value of the first
step and what is left of the rest.  `mapM_ok_iff` turns a loop into `List.Forall₂`,
and `mapM_error_iff` finds the first item on which it fails.

`Succeeds` forgets the value, for results about whether a call raises.
-/

namespace VisionApi.Foundation

universe u v

variable {Error : Type u} {Value Result : Type v}

/-- The computation returns a value. -/
def Succeeds (outcome : Except Error Value) : Prop :=
  ∃ value, outcome = .ok value

/-- A sequence of two steps returns exactly if both do. -/
theorem bind_ok_iff {outcome : Except Error Value} {next : Value → Except Error Result}
    {result : Result} :
    (outcome >>= next) = .ok result ↔ ∃ value, outcome = .ok value ∧ next value = .ok result := by
  cases outcome with
  | error error =>
      constructor
      · rintro ⟨⟩
      · rintro ⟨_, ⟨⟩, _⟩
  | ok value =>
      constructor
      · intro returned
        exact ⟨value, rfl, returned⟩
      · rintro ⟨_, ⟨⟩, returned⟩
        exact returned

/-- A sequence of two steps raises where one of them does. -/
theorem bind_error_iff {outcome : Except Error Value} {next : Value → Except Error Result}
    {error : Error} :
    (outcome >>= next) = .error error ↔
      outcome = .error error ∨ ∃ value, outcome = .ok value ∧ next value = .error error := by
  cases outcome with
  | error other =>
      constructor
      · rintro ⟨⟩
        exact Or.inl rfl
      · rintro (⟨⟨⟩⟩ | ⟨_, ⟨⟩, _⟩)
        rfl
  | ok value =>
      constructor
      · intro returned
        exact Or.inr ⟨value, rfl, returned⟩
      · rintro (⟨⟨⟩⟩ | ⟨_, ⟨⟩, returned⟩)
        exact returned

theorem map_ok_iff {outcome : Except Error Value} {convert : Value → Result} {result : Result} :
    outcome.map convert = .ok result ↔ ∃ value, outcome = .ok value ∧ result = convert value := by
  cases outcome with
  | error error => simp [Except.map]
  | ok found => simp [Except.map, eq_comm]

theorem mapError_ok_iff {Other : Type u} {outcome : Except Error Value} {convert : Error → Other}
    {value : Value} : outcome.mapError convert = .ok value ↔ outcome = .ok value := by
  cases outcome with
  | error error =>
      constructor
      · rintro ⟨⟩
      · rintro ⟨⟩
  | ok found =>
      constructor
      · rintro ⟨⟩
        rfl
      · rintro ⟨⟩
        rfl

/-- A converted error comes from an error. -/
theorem mapError_error_iff {Other : Type u} {outcome : Except Error Value} {convert : Error → Other}
    {error : Other} : outcome.mapError convert = .error error ↔
      ∃ original, outcome = .error original ∧ error = convert original := by
  cases outcome with
  | error original =>
      constructor
      · rintro ⟨⟩
        exact ⟨original, rfl, rfl⟩
      · rintro ⟨_, ⟨⟩, rfl⟩
        rfl
  | ok value =>
      constructor
      · rintro ⟨⟩
      · rintro ⟨_, ⟨⟩, _⟩

theorem mapM_singleton_ok_iff {Item : Type v} {convert : Item → Except Error Value} {item : Item}
    {values : List Value} :
    [item].mapM convert = .ok values ↔ ∃ value, convert item = .ok value ∧ values = [value] := by
  rw [List.mapM_cons, List.mapM_nil, bind_ok_iff]
  constructor
  · rintro ⟨value, converted, returned⟩
    cases returned
    exact ⟨value, converted, rfl⟩
  · rintro ⟨value, converted, rfl⟩
    exact ⟨value, converted, rfl⟩

/-- A loop returns exactly if every item is converted. -/
theorem mapM_ok_iff {Item : Type v} {convert : Item → Except Error Value} {items : List Item}
    {values : List Value} :
    items.mapM convert = .ok values ↔
      List.Forall₂ (fun item value => convert item = .ok value) items values := by
  induction items generalizing values with
  | nil =>
      rw [List.mapM_nil, List.forall₂_nil_left_iff]
      constructor
      · rintro ⟨⟩
        rfl
      · rintro rfl
        rfl
  | cons item items ih =>
      rw [List.mapM_cons, bind_ok_iff, List.forall₂_cons_left_iff]
      constructor
      · rintro ⟨value, converted, returned⟩
        rcases bind_ok_iff.mp returned with ⟨rest, areRest, ⟨⟩⟩
        exact ⟨value, rest, converted, ih.mp areRest, rfl⟩
      · rintro ⟨value, rest, converted, areRest, rfl⟩
        exact ⟨value, converted, bind_ok_iff.mpr ⟨rest, ih.mpr areRest, rfl⟩⟩

/-- What relates the members of two lists and of the second and a third relates those of the first
and the third. -/
theorem forall₂_trans {First Second Third : Type*} {left : First → Second → Prop}
    {right : Second → Third → Prop} {both : First → Third → Prop} {firsts : List First}
    {seconds : List Second} {thirds : List Third} (isLeft : List.Forall₂ left firsts seconds)
    (isRight : List.Forall₂ right seconds thirds)
    (joins : ∀ first second third, left first second → right second third → both first third) :
    List.Forall₂ both firsts thirds := by
  induction isLeft generalizing thirds with
  | nil =>
      cases isRight
      exact .nil
  | cons isFirst _ ih =>
      cases isRight with
      | cons isSecond rest => exact .cons (joins _ _ _ isFirst isSecond) (ih rest)

/-- A loop collects results that are as wanted exactly when every step gives one that is. -/
theorem exists_mapM_forall₂_iff {Item : Type v} {convert : Item → Except Error Value}
    {wanted : Item → Value → Prop} {items : List Item} :
    (∃ values, items.mapM convert = .ok values ∧ List.Forall₂ wanted items values) ↔
      ∀ item ∈ items, ∃ value, convert item = .ok value ∧ wanted item value := by
  simp only [mapM_ok_iff]
  induction items with
  | nil => exact ⟨fun _ => List.forall_mem_nil _, fun _ => ⟨[], .nil, .nil⟩⟩
  | cons item items ih =>
      rw [List.forall_mem_cons, ← ih]
      constructor
      · rintro ⟨values, areValues, wantedValues⟩
        cases areValues with
        | cons converted areRest =>
            cases wantedValues with
            | cons isWanted areWanted => exact ⟨⟨_, converted, isWanted⟩, _, areRest, areWanted⟩
      · rintro ⟨⟨value, converted, isWanted⟩, rest, areRest, areWanted⟩
        exact ⟨value :: rest, .cons converted areRest, .cons isWanted areWanted⟩

/-- A loop that collects results raises what its first failing step raises. -/
theorem mapM_error_iff {Item : Type v} {convert : Item → Except Error Value} {items : List Item}
    {error : Error} :
    items.mapM convert = .error error ↔ ∃ before item after, items = before ++ item :: after ∧
      (∀ earlier ∈ before, Succeeds (convert earlier)) ∧ convert item = .error error := by
  induction items with
  | nil =>
      constructor
      · rintro ⟨⟩
      · rintro ⟨before, item, after, split, _⟩
        simp at split
  | cons first items ih =>
      rw [List.mapM_cons, bind_error_iff]
      constructor
      · rintro (raised | ⟨value, converted, raised⟩)
        · exact ⟨[], first, items, rfl, List.forall_mem_nil _, raised⟩
        · rcases bind_error_iff.mp raised with raised | ⟨_, _, ⟨⟩⟩
          rcases ih.mp raised with ⟨before, item, after, rfl, succeed, fails⟩
          refine ⟨first :: before, item, after, rfl, ?_, fails⟩
          exact List.forall_mem_cons.mpr ⟨⟨value, converted⟩, succeed⟩
      · rintro ⟨before, item, after, split, succeed, fails⟩
        cases before with
        | nil =>
            cases split
            exact Or.inl fails
        | cons head before =>
            cases split
            rcases List.forall_mem_cons.mp succeed with ⟨⟨value, converted⟩, succeed⟩
            refine Or.inr ⟨value, converted, bind_error_iff.mpr (Or.inl ?_)⟩
            exact ih.mpr ⟨before, item, after, rfl, succeed, fails⟩

/-- A loop over groups that collects and joins results is one loop over all items. -/
theorem mapM_flatten {Item : Type v} (convert : Item → Except Error (List Value))
    (groups : List (List Item)) :
    (groups.mapM fun group : List Item => (group.mapM convert).map List.flatten).map List.flatten =
      (groups.flatten.mapM convert).map List.flatten := by
  induction groups with
  | nil => rfl
  | cons group groups ih =>
      rw [List.mapM_cons, List.flatten_cons, List.mapM_append]
      cases group.mapM convert with
      | error error => rfl
      | ok here =>
          revert ih
          cases groups.mapM fun group : List Item => (group.mapM convert).map List.flatten with
          | error error =>
              cases groups.flatten.mapM convert with
              | error other => exact id
              | ok rest => rintro ⟨⟩
          | ok joined =>
              cases groups.flatten.mapM convert with
              | error other => rintro ⟨⟩
              | ok rest =>
                  intro same
                  have joins : joined.flatten = rest.flatten := Except.ok.inj same
                  change Except.ok (here.flatten :: joined).flatten =
                    Except.ok (here ++ rest).flatten
                  rw [List.flatten_cons, List.flatten_append, joins]

@[simp]
theorem succeeds_ok (value : Value) : Succeeds (.ok value : Except Error Value) :=
  ⟨value, rfl⟩

@[simp]
theorem not_succeeds_error (error : Error) : ¬Succeeds (.error error : Except Error Value) := by
  rintro ⟨_, ⟨⟩⟩

/-- Converting a result does not change whether there is one. -/
@[simp]
theorem map_succeeds_iff {outcome : Except Error Value} {convert : Value → Result} :
    Succeeds (outcome.map convert) ↔ Succeeds outcome := by
  cases outcome with
  | error error => simp [Except.map]
  | ok found => simp [Except.map]

/-- A sequence succeeds if its second step does, on what the first one returns. -/
theorem bind_succeeds_iff {outcome : Except Error Value} {next : Value → Except Error Result} :
    Succeeds (outcome >>= next) ↔ ∃ value, outcome = .ok value ∧ Succeeds (next value) := by
  constructor
  · rintro ⟨result, returned⟩
    rcases bind_ok_iff.mp returned with ⟨value, isValue, returned⟩
    exact ⟨value, isValue, result, returned⟩
  · rintro ⟨value, isValue, result, returned⟩
    exact ⟨result, bind_ok_iff.mpr ⟨value, isValue, returned⟩⟩

/-- A loop that collects results succeeds exactly when every step does. -/
theorem mapM_succeeds_iff {Item : Type v} {convert : Item → Except Error Value}
    {items : List Item} :
    Succeeds (items.mapM convert) ↔ ∀ item ∈ items, Succeeds (convert item) := by
  induction items with
  | nil => exact ⟨fun _ => List.forall_mem_nil _, fun _ => ⟨[], rfl⟩⟩
  | cons item items ih =>
      rw [List.mapM_cons, bind_succeeds_iff, List.forall_mem_cons, ← ih]
      constructor
      · rintro ⟨value, isValue, rest⟩
        rcases bind_succeeds_iff.mp rest with ⟨values, isValues, _⟩
        exact ⟨⟨value, isValue⟩, values, isValues⟩
      · rintro ⟨⟨value, isValue⟩, values, isValues⟩
        exact ⟨value, isValue, bind_succeeds_iff.mpr ⟨values, isValues, _, rfl⟩⟩

end VisionApi.Foundation
