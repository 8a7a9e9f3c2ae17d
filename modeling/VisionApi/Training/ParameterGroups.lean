import Mathlib.Algebra.Order.Field.Basic
import Mathlib.Algebra.Order.Field.Rat
import Mathlib.Data.List.Infix
import VisionApi.Foundation.Digits
import VisionApi.Foundation.Fallible
import VisionApi.Foundation.Grouping
import VisionApi.Foundation.Text

/-!
# Layer-wise learning rates

`get_layerwise_lr_decay_params` groups the trainable parameters of a model by the
layer that `_assign_layer_ids` reads off their names and by whether they decay.
The arithmetic is exact; which characters are decimal digits is a parameter.

Reading a layer off a name is a search for a container of blocks followed by a number, as
the regular expressions of the source have it; digits are those of Python, which has more
than ten.  Names without a number are the stem or the head, and the head is one layer
above the deepest block (`get?_assignLayerIds`).

The groups are collected in a dictionary whose keys join the layer and the decay.  The
keys are injective (`groupKey_injective`), so that a group has the parameters of one
layer and one kind, `group_spec` says which ones, and `flatMap_grouped_perm` that every
trainable parameter is in exactly one.  `GroupsByLayer` collects this with the rates,
which are no lower in later layers.
-/

namespace VisionApi.Training

open Foundation

/-! ## Layers by name -/

section Names

/-- `\d`: the value of a decimal digit. -/
abbrev Digit := Char → Option ℕ

/-- The leading digits of a text. -/
def leadingDigits (digit : Digit) : List Char → List ℕ
  | [] => []
  | char :: text =>
      match digit char with
      | none => []
      | some value => value :: leadingDigits digit text

/-- `int` of a text of digits. -/
def numberOf (digits : List ℕ) : ℕ :=
  digits.foldl (fun number digit => number * 10 + digit) 0

/-- A match of `literal(\d+)\.` at the start of a text. -/
def matchNumber (digit : Digit) (literal : String) (text : List Char) : Option ℕ :=
  if literal.toList.isPrefixOf text then
    let rest := text.drop literal.toList.length
    let digits := leadingDigits digit rest
    if digits ≠ [] ∧ (rest.drop digits.length).head? = some '.' then some (numberOf digits)
    else none
  else none

/-- `re.search` of `literal(\d+)\.`: the leftmost match. -/
def searchNumber (digit : Digit) (literal : String) : List Char → Option ℕ
  | [] => matchNumber digit literal []
  | char :: text =>
      (matchNumber digit literal (char :: text)).or (searchNumber digit literal text)

/-- `re.search` of `^layer(\d)\.`. -/
def searchLayer (digit : Digit) (name : List Char) : Option ℕ :=
  if "layer".toList.isPrefixOf name then
    match name.drop "layer".toList.length with
    | char :: '.' :: _ => digit char
    | _ => none
  else none

/-- The number that the first matching pattern finds. -/
def blockIndex (digit : Digit) (name : String) : Option ℕ :=
  (searchNumber digit "blocks." name.toList).or
    ((searchNumber digit "encoder.layer." name.toList).or
      ((searchNumber digit "layers." name.toList).or (searchLayer digit name.toList)))

/-- The beginnings of the names of the stem. -/
def stemPrefixes : List String :=
  ["patch_embed", "cls_token", "pos_embed", "conv1", "bn1", "embeddings"]

/-- A parameter of the stem. -/
def isStem (name : String) : Bool :=
  stemPrefixes.any fun start => start.toList.isPrefixOf name.toList

/-- The first loop of `_assign_layer_ids`, with the deepest block. -/
def assignBlock (digit : Digit) (found : Dict String ℕ × ℕ) (name : String) :
    Dict String ℕ × ℕ :=
  match blockIndex digit name with
  | some index => (found.1.set name (index + 1), max found.2 (index + 1))
  | none => if isStem name then (found.1.set name 0, found.2) else found

/-- `layer_ids.setdefault(name, head_id)`. -/
def setDefault (head : ℕ) (ids : Dict String ℕ) (name : String) : Dict String ℕ :=
  if (ids.get? name).isSome then ids else ids.set name head

/-- The layers of all names: first the blocks and the stem, then the head. -/
def assignLayerIds (digit : Digit) (names : List String) : Dict String ℕ :=
  let found := names.foldl (assignBlock digit) ([], 0)
  names.foldl (setDefault (found.2 + 1)) found.1

end Names

/-! ## Groups -/

section Groups

variable {K : Type} [Field K] [LinearOrder K]

/-- An entry of `model.named_parameters()`. -/
structure Parameter where
  name : String
  requiresGrad : Bool
deriving DecidableEq

/-- Parameters with their rate and their decay. -/
structure ParameterGroup (K : Type) where
  params : List Parameter
  lr : K
  weightDecay : K

/-- The arguments of `get_layerwise_lr_decay_params`. -/
structure LayerwiseConfig (K : Type) where
  encoderLr : K
  headLr : K
  layerDecay : K
  weightDecay : K
  noDecayPatterns : List String := ["bias", "norm", "LayerNorm", "cls_token", "pos_embed"]
  minLr : K

/-- The `ValueError` for a decay outside (0, 1]. -/
structure LayerDecayError (K : Type) where
  layerDecay : K

/-- `pattern in name`. -/
def occursIn (pattern name : List Char) : Bool :=
  name.tails.any fun rest => pattern.isPrefixOf rest

variable (config : LayerwiseConfig K) (ids : Dict String ℕ) (maxLayerId : ℕ)

/-- A parameter decays unless a pattern occurs in its name. -/
def LayerwiseConfig.decays (name : String) : Bool :=
  !config.noDecayPatterns.any fun pattern => occursIn pattern.toList name.toList

/-- The layer of a name, the last one if it has none. -/
def layerId (name : String) : ℕ :=
  (ids.get? name).getD maxLayerId

/-- The rate of a layer. -/
def LayerwiseConfig.scaledLr (id : ℕ) : K :=
  let baseLr := if id = maxLayerId then config.headLr else config.encoderLr
  max (baseLr * config.layerDecay ^ (maxLayerId - id)) config.minLr

/-- `f"layer{layer_id}_{'decay' if decays else 'nodecay'}"`. -/
def groupKey (id : ℕ) (decays : Bool) : String :=
  "layer" ++ toString id ++ "_" ++ if decays then "decay" else "nodecay"

/-- A group without parameters, with the rate of its first one. -/
def LayerwiseConfig.newGroup (param : Parameter) : ParameterGroup K where
  params := []
  lr := config.scaledLr maxLayerId (layerId ids maxLayerId param.name)
  weightDecay := if config.decays param.name then config.weightDecay else 0

/-- A group with one parameter more. -/
def ParameterGroup.append (group : ParameterGroup K) (param : Parameter) : ParameterGroup K :=
  { group with params := group.params ++ [param] }

/-- The key of the group of a parameter. -/
def LayerwiseConfig.keyOf (param : Parameter) : String :=
  groupKey (layerId ids maxLayerId param.name) (config.decays param.name)

/-- A parameter is added to its group, if it is trained. -/
def LayerwiseConfig.addParameter (groups : Dict String (ParameterGroup K)) (param : Parameter) :
    Dict String (ParameterGroup K) :=
  if !param.requiresGrad then groups
  else Dict.collect (config.keyOf ids maxLayerId) (config.newGroup ids maxLayerId)
    ParameterGroup.append groups param

/-- The groups, or the error for a decay out of range. -/
def getLayerwiseLrDecayParams (digit : Digit) (config : LayerwiseConfig K)
    (parameters : List Parameter) : Except (LayerDecayError K) (List (ParameterGroup K)) :=
  if ¬(0 < config.layerDecay ∧ config.layerDecay ≤ 1) then .error ⟨config.layerDecay⟩
  else
    let ids := assignLayerIds digit (parameters.map Parameter.name)
    let maxLayerId := (ids.map Prod.snd).foldr max 0
    .ok ((parameters.foldl (config.addParameter ids maxLayerId) []).map Prod.snd)

end Groups

/-! ## What the layer ids are -/

section Layers

variable {digit : Digit} {names : List String} {name : String}

/-- The id that the first loop assigns to a name. -/
def assigned (digit : Digit) (name : String) : Option ℕ :=
  match blockIndex digit name with
  | some index => some (index + 1)
  | none => if isStem name then some 0 else none

/-- A name with a layer is recorded under it. -/
theorem assignBlock_eq (found : Dict String ℕ × ℕ) (name : String) :
    assignBlock digit found name =
      match assigned digit name with
      | some id => (found.1.set name id, max found.2 id)
      | none => found := by
  simp only [assignBlock, assigned]
  cases blockIndex digit name with
  | some index => rfl
  | none =>
      cases isStem name with
      | true => simp
      | false => rfl

/-- The deepest block of the names. -/
def deepestBlock (digit : Digit) (names : List String) : ℕ :=
  (names.foldl (assignBlock digit) ([], 0)).2

theorem get?_foldl_assignBlock (found : Dict String ℕ × ℕ) (name : String) :
    (names.foldl (assignBlock digit) found).1.get? name =
      if name ∈ names then (assigned digit name).or (found.1.get? name)
      else found.1.get? name := by
  induction names generalizing found with
  | nil => rfl
  | cons first names ih =>
      rw [List.foldl_cons, ih, assignBlock_eq]
      by_cases same : name = first
      · subst same
        cases assigned digit name with
        | none => simp
        | some id => simp
      · cases assigned digit first with
        | none => simp [same]
        | some id => simp [same, Dict.get?_set_ne _ same]

theorem le_foldl_assignBlock (found : Dict String ℕ × ℕ) :
    found.2 ≤ (names.foldl (assignBlock digit) found).2 ∧
      ∀ name ∈ names, ∀ id, assigned digit name = some id →
        id ≤ (names.foldl (assignBlock digit) found).2 := by
  induction names generalizing found with
  | nil => exact ⟨le_rfl, List.forall_mem_nil _⟩
  | cons first names ih =>
      rw [List.foldl_cons]
      have rest := ih (assignBlock digit found first)
      rw [assignBlock_eq] at rest ⊢
      refine ⟨?_, List.forall_mem_cons.mpr ⟨?_, rest.2⟩⟩
      · cases isFirst : assigned digit first with
        | none => simpa [isFirst] using rest.1
        | some id =>
            have most := rest.1
            simp only [isFirst] at most ⊢
            omega
      · intro id isFirst
        have most := rest.1
        simp only [isFirst] at most ⊢
        omega

theorem le_deepestBlock {id : ℕ} (isName : name ∈ names) (isId : assigned digit name = some id) :
    id ≤ deepestBlock digit names :=
  (le_foldl_assignBlock ([], 0)).2 name isName id isId

theorem get?_foldl_setDefault (head : ℕ) (ids : Dict String ℕ) (name : String) :
    (names.foldl (setDefault head) ids).get? name =
      if name ∈ names then some ((ids.get? name).getD head) else ids.get? name := by
  induction names generalizing ids with
  | nil => rfl
  | cons first names ih =>
      rw [List.foldl_cons, ih]
      by_cases same : name = first
      · subst same
        cases known : ids.get? name with
        | none => simp [setDefault, known]
        | some id => simp [setDefault, known]
      · have kept : (setDefault head ids first).get? name = ids.get? name := by
          rw [setDefault]
          split
          · rfl
          · exact Dict.get?_set_ne _ same head
        simp [same, kept]

/-- Every name has its own id, or the one above the deepest block. -/
theorem get?_assignLayerIds (digit : Digit) (names : List String) (name : String) :
    (assignLayerIds digit names).get? name =
      if name ∈ names then some ((assigned digit name).getD (deepestBlock digit names + 1))
      else none := by
  rw [assignLayerIds, get?_foldl_setDefault, get?_foldl_assignBlock]
  by_cases isName : name ∈ names
  · simp [isName, deepestBlock, Dict.get?]
  · simp [isName, Dict.get?]

theorem nodup_keys_assignLayerIds (digit : Digit) (names : List String) :
    ((assignLayerIds digit names).map Prod.fst).Nodup := by
  have blocks : ∀ (found : Dict String ℕ × ℕ), (found.1.map Prod.fst).Nodup →
      ((names.foldl (assignBlock digit) found).1.map Prod.fst).Nodup := by
    induction names with
    | nil => exact fun _ distinct => distinct
    | cons first names ih =>
        intro found distinct
        apply ih
        rw [assignBlock_eq]
        cases assigned digit first with
        | none => exact distinct
        | some id => exact Dict.nodup_keys_set distinct _ _
  have defaults : ∀ (head : ℕ) (ids : Dict String ℕ), (ids.map Prod.fst).Nodup →
      ((names.foldl (setDefault head) ids).map Prod.fst).Nodup := by
    intro head
    clear blocks
    induction names with
    | nil => exact fun _ distinct => distinct
    | cons first names ih =>
        intro ids distinct
        apply ih
        rw [setDefault]
        split
        · exact distinct
        · exact Dict.nodup_keys_set distinct _ _
  exact defaults _ _ (blocks _ List.nodup_nil)

theorem foldr_max_le_iff {values : List ℕ} {most : ℕ} :
    values.foldr max 0 ≤ most ↔ ∀ value ∈ values, value ≤ most := by
  induction values with
  | nil => simp
  | cons value values ih =>
      rw [List.foldr_cons, List.forall_mem_cons, ← ih]
      omega

/-- With a name that is neither block nor stem, the greatest id is the one above the deepest
block. -/
theorem maxLayerId_eq (isName : name ∈ names) (neither : assigned digit name = none) :
    ((assignLayerIds digit names).map Prod.snd).foldr max 0 = deepestBlock digit names + 1 := by
  have distinct := nodup_keys_assignLayerIds digit names
  apply le_antisymm
  · rw [foldr_max_le_iff]
    intro id isId
    rcases List.mem_map.mp isId with ⟨⟨other, id⟩, isEntry, rfl⟩
    have found := (Dict.get?_eq_some_iff distinct).mpr isEntry
    rw [get?_assignLayerIds] at found
    split at found
    · rename_i isOther
      cases isAssigned : assigned digit other with
      | none =>
          rw [isAssigned, Option.getD_none] at found
          exact (Option.some.inj found).ge
      | some known =>
          have most := le_deepestBlock isOther isAssigned
          rw [isAssigned, Option.getD_some] at found
          have same := Option.some.inj found
          dsimp only
          omega
    · cases found
  · have found := get?_assignLayerIds digit names name
    rw [if_pos isName, neither, Option.getD_none] at found
    have isEntry := (Dict.get?_eq_some_iff distinct).mp found
    exact foldr_max_le_iff.mp le_rfl _ (List.mem_map_of_mem isEntry)

end Layers

/-! ## Keys -/

theorem toDigits_injective : Function.Injective (Nat.toDigits 10) := by
  intro left right same
  have values := congrArg (fun text => Nat.ofDigitChars 10 text 0) same
  simpa using values

/-- A key determines the layer and the decay. -/
theorem groupKey_injective {id other : ℕ} {decays alsoDecays : Bool}
    (same : groupKey id decays = groupKey other alsoDecays) :
    id = other ∧ decays = alsoDecays := by
  have noSeparator : ∀ number : ℕ, '_' ∉ "layer".toList ++ Nat.toDigits 10 number := by
    intro number isChar
    rcases List.mem_append.mp isChar with isLetter | isDigit
    · revert isLetter
      decide
    · have digit := Nat.isDigit_of_mem_toDigits (by decide) (by decide) isDigit
      revert digit
      decide
  have texts : ∀ (number : ℕ) (flag : Bool), (groupKey number flag).toList =
      ("layer".toList ++ Nat.toDigits 10 number) ++
        '_' :: (if flag then "decay" else "nodecay").toList := by
    intro number flag
    simp only [groupKey, String.toList_append, Nat.toString_eq_repr, Nat.toList_repr]
    exact List.append_assoc _ _ _
  have sameTexts := congrArg String.toList same
  rw [texts, texts] at sameTexts
  rcases append_separator_injective (noSeparator id) (noSeparator other) sameTexts with
    ⟨numbers, endings⟩
  refine ⟨toDigits_injective (List.append_cancel_left numbers), ?_⟩
  cases decays <;> cases alsoDecays <;> first | rfl | (revert endings; decide)

/-! ## What the groups are -/

section Groups

variable {K : Type} [Field K] [LinearOrder K] {config : LayerwiseConfig K} {ids : Dict String ℕ}
  {maxLayerId : ℕ} {parameters : List Parameter} {group : ParameterGroup K}

/-- The groups under their keys. -/
def LayerwiseConfig.grouped (config : LayerwiseConfig K) (ids : Dict String ℕ) (maxLayerId : ℕ)
    (parameters : List Parameter) : Dict String (ParameterGroup K) :=
  parameters.foldl (config.addParameter ids maxLayerId) []

theorem grouped_eq : config.grouped ids maxLayerId parameters =
    (parameters.filter Parameter.requiresGrad).foldl
      (Dict.collect (config.keyOf ids maxLayerId) (config.newGroup ids maxLayerId)
        ParameterGroup.append) [] := by
  rw [LayerwiseConfig.grouped, List.foldl_filter]
  congr 1
  funext groups param
  rw [LayerwiseConfig.addParameter]
  cases param.requiresGrad <;> rfl

/-- The groups hold the trainable parameters, each once. -/
theorem flatMap_grouped_perm :
    (((config.grouped ids maxLayerId parameters).map Prod.snd).flatMap
      ParameterGroup.params).Perm (parameters.filter Parameter.requiresGrad) := by
  rw [List.flatMap_map, grouped_eq]
  exact Dict.flatMap_collect_perm (fun _ => rfl) (fun _ _ => rfl) []
    (parameters.filter Parameter.requiresGrad)

theorem foldl_append_eq (first : Parameter) (rest : List Parameter) :
    (first :: rest).foldl (fun found param =>
        some ((found.getD (config.newGroup ids maxLayerId param)).append param)) none =
      some { config.newGroup ids maxLayerId first with params := first :: rest } := by
  have appended : ∀ (group : ParameterGroup K), rest.foldl (fun found param =>
      some ((found.getD (config.newGroup ids maxLayerId param)).append param)) (some group) =
        some { group with params := group.params ++ rest } := by
    induction rest with
    | nil =>
        intro group
        rw [List.foldl_nil, List.append_nil]
    | cons param rest ih =>
        intro group
        rw [List.foldl_cons, Option.getD_some, ih]
        simp only [ParameterGroup.append, List.append_assoc, List.singleton_append]
  rw [List.foldl_cons, Option.getD_none, appended]
  rfl

/-- The parameters of a group have one key, from which its rate and its weight decay follow. -/
theorem group_spec (isGroup : group ∈ (config.grouped ids maxLayerId parameters).map Prod.snd) :
    ∃ key, ∀ param ∈ group.params,
      (param ∈ parameters ∧ param.requiresGrad = true) ∧
      config.keyOf ids maxLayerId param = key ∧
      group.lr = config.scaledLr maxLayerId (layerId ids maxLayerId param.name) ∧
      group.weightDecay = if config.decays param.name then config.weightDecay else 0 := by
  rcases List.mem_map.mp isGroup with ⟨⟨key, group⟩, isEntry, rfl⟩
  have distinct : ((config.grouped ids maxLayerId parameters).map Prod.fst).Nodup := by
    rw [grouped_eq]
    apply Dict.nodup_keys_collect
    exact List.nodup_nil
  have found := (Dict.get?_eq_some_iff distinct).mpr isEntry
  rw [grouped_eq, Dict.get?_collect] at found
  refine ⟨key, ?_⟩
  cases members : (parameters.filter Parameter.requiresGrad).filter
      fun param => config.keyOf ids maxLayerId param = key with
  | nil =>
      rw [members] at found
      cases found
  | cons first rest =>
      rw [members] at found
      have isFound := (foldl_append_eq first rest).symm.trans found
      cases isFound
      have isMember : ∀ param ∈ first :: rest,
          (param ∈ parameters ∧ param.requiresGrad = true) ∧
            config.keyOf ids maxLayerId param = key := by
        intro param isParam
        rw [← members, List.mem_filter, List.mem_filter, decide_eq_true_eq] at isParam
        exact isParam
      intro param isParam
      refine ⟨(isMember param isParam).1, (isMember param isParam).2, ?_⟩
      have same := (isMember first List.mem_cons_self).2.trans (isMember param isParam).2.symm
      rcases groupKey_injective same with ⟨sameLayer, sameDecay⟩
      simp only [LayerwiseConfig.newGroup, sameLayer, sameDecay]
      exact ⟨trivial, trivial⟩

end Groups

/-! ## Rates by layer -/

section Rates

variable {K : Type} [Field K] [LinearOrder K] {digit : Digit} {config : LayerwiseConfig K}
  {parameters : List Parameter}

/-- A name that is neither that of a block nor that of the stem. -/
def IsHead (digit : Digit) (name : String) : Prop :=
  blockIndex digit name = none ∧ isStem name = false

/-- A group for each layer and decay status, with rates that rise with the layers. -/
structure GroupsByLayer (digit : Digit) (config : LayerwiseConfig K) (parameters : List Parameter)
    (groups : List (ParameterGroup K)) : Prop where
  once : ∀ param ∈ parameters, param.requiresGrad = true →
    (groups.flatMap ParameterGroup.params).count param = 1 ∧
      (groups.countP fun group => param ∈ group.params) = 1
  trainable : ∀ group ∈ groups, ∀ param ∈ group.params,
    param ∈ parameters ∧ param.requiresGrad = true
  together : ∀ group ∈ groups, ∀ param ∈ group.params, ∀ other ∈ group.params,
    (assignLayerIds digit (parameters.map Parameter.name)).get? param.name =
        (assignLayerIds digit (parameters.map Parameter.name)).get? other.name ∧
      config.decays param.name = config.decays other.name
  blocks : ∃ rate : ℕ → K, Monotone rate ∧ ∀ group ∈ groups, ∀ param ∈ group.params, ∀ index,
    blockIndex digit param.name = some index → group.lr = rate index
  stem : ∀ group ∈ groups, ∀ other ∈ groups, ∀ param ∈ group.params, ∀ another ∈ other.params,
    blockIndex digit param.name = none → isStem param.name = true →
    (blockIndex digit another.name).isSome = true → group.lr ≤ other.lr
  head : ∀ group ∈ groups, ∀ param ∈ group.params, IsHead digit param.name →
    group.lr = max config.headLr config.minLr
  decay : ∀ group ∈ groups, ∀ param ∈ group.params, group.weightDecay = 0 ↔
    ∃ pattern ∈ config.noDecayPatterns, pattern.toList <:+: param.name.toList

/-- What has no layer is the head. -/
theorem assigned_eq_none_iff {name : String} :
    assigned digit name = none ↔ IsHead digit name := by
  simp only [assigned, IsHead]
  cases blockIndex digit name with
  | some index => simp
  | none => cases isStem name <;> simp

theorem layerId_eq {param : Parameter} (isParam : param ∈ parameters) (maxLayerId : ℕ) :
    layerId (assignLayerIds digit (parameters.map Parameter.name)) maxLayerId param.name =
      (assigned digit param.name).getD
        (deepestBlock digit (parameters.map Parameter.name) + 1) := by
  rw [layerId, get?_assignLayerIds, if_pos (List.mem_map_of_mem isParam), Option.getD_some]

/-- A pattern occurs if it is an infix. -/
theorem occursIn_iff {pattern name : List Char} : occursIn pattern name = true ↔
    pattern <:+: name := by
  rw [List.infix_iff_prefix_suffix, occursIn, List.any_eq_true]
  simp only [List.mem_tails, List.isPrefixOf_iff_prefix]
  constructor
  · rintro ⟨rest, isSuffix, isPrefix⟩
    exact ⟨rest, isPrefix, isSuffix⟩
  · rintro ⟨rest, isPrefix, isSuffix⟩
    exact ⟨rest, isSuffix, isPrefix⟩

omit [Field K] [LinearOrder K] in
/-- What does not decay. -/
theorem decays_eq_false_iff (name : String) : config.decays name = false ↔
    ∃ pattern ∈ config.noDecayPatterns, pattern.toList <:+: name.toList := by
  simp [LayerwiseConfig.decays, occursIn_iff]

/-- The groups, with the id above the deepest block for the head. -/
def LayerwiseConfig.layered (config : LayerwiseConfig K) (digit : Digit)
    (parameters : List Parameter) : List (ParameterGroup K) :=
  (config.grouped (assignLayerIds digit (parameters.map Parameter.name))
    (deepestBlock digit (parameters.map Parameter.name) + 1) parameters).map Prod.snd

theorem layered_spec {group : ParameterGroup K} (isGroup : group ∈ config.layered digit parameters)
    {param : Parameter} (isMember : param ∈ group.params) :
    (param ∈ parameters ∧ param.requiresGrad = true) ∧
      group.lr = config.scaledLr (deepestBlock digit (parameters.map Parameter.name) + 1)
        ((assigned digit param.name).getD
          (deepestBlock digit (parameters.map Parameter.name) + 1)) ∧
      group.weightDecay = if config.decays param.name then config.weightDecay else 0 := by
  rcases group_spec isGroup with ⟨_, spec⟩
  rcases spec param isMember with ⟨isParam, _, rate, decay⟩
  rw [layerId_eq isParam.1] at rate
  exact ⟨isParam, rate, decay⟩

theorem layered_together {group : ParameterGroup K}
    (isGroup : group ∈ config.layered digit parameters) {param other : Parameter}
    (isMember : param ∈ group.params) (isOther : other ∈ group.params) :
    (assignLayerIds digit (parameters.map Parameter.name)).get? param.name =
        (assignLayerIds digit (parameters.map Parameter.name)).get? other.name ∧
      config.decays param.name = config.decays other.name := by
  rcases group_spec isGroup with ⟨_, spec⟩
  have isParam := (spec param isMember).1.1
  have isOtherParam := (spec other isOther).1.1
  rcases groupKey_injective ((spec param isMember).2.1.trans (spec other isOther).2.1.symm) with
    ⟨sameLayer, sameDecay⟩
  rw [layerId_eq isParam, layerId_eq isOtherParam] at sameLayer
  rw [get?_assignLayerIds, get?_assignLayerIds, if_pos (List.mem_map_of_mem isParam),
    if_pos (List.mem_map_of_mem isOtherParam), sameLayer]
  exact ⟨rfl, sameDecay⟩

/-- The rate of a layer below the head. -/
def LayerwiseConfig.encoderRate (config : LayerwiseConfig K) (maxLayerId id : ℕ) : K :=
  max (config.encoderLr * config.layerDecay ^ (maxLayerId - id)) config.minLr

/-- Layers below the head have the rate of the encoder, decayed. -/
theorem scaledLr_below {maxLayerId id : ℕ} (below : id < maxLayerId) :
    config.scaledLr maxLayerId id = config.encoderRate maxLayerId id := by
  rw [LayerwiseConfig.scaledLr, if_neg below.ne, LayerwiseConfig.encoderRate]

/-- The head has its own rate. -/
theorem scaledLr_head (maxLayerId : ℕ) :
    config.scaledLr maxLayerId maxLayerId = max config.headLr config.minLr := by
  rw [LayerwiseConfig.scaledLr, if_pos rfl, Nat.sub_self, pow_zero, mul_one]

theorem lr_of_assigned {group : ParameterGroup K}
    (isGroup : group ∈ config.layered digit parameters) {param : Parameter}
    (isMember : param ∈ group.params) {id : ℕ} (isId : assigned digit param.name = some id) :
    group.lr =
      config.encoderRate (deepestBlock digit (parameters.map Parameter.name) + 1) id := by
  rcases layered_spec isGroup isMember with ⟨isParam, rate, _⟩
  have below := le_deepestBlock (List.mem_map_of_mem isParam.1) isId
  rw [rate, isId, Option.getD_some, scaledLr_below (Nat.lt_succ_of_le below)]

theorem lr_of_head {group : ParameterGroup K} (isGroup : group ∈ config.layered digit parameters)
    {param : Parameter} (isMember : param ∈ group.params) (isHead : IsHead digit param.name) :
    group.lr = max config.headLr config.minLr := by
  rcases layered_spec isGroup isMember with ⟨_, rate, _⟩
  rw [rate, assigned_eq_none_iff.mpr isHead, Option.getD_none, scaledLr_head]

/-- A group has no decay exactly if its parameters do not decay. -/
theorem weightDecay_eq_zero_iff (positive : 0 < config.weightDecay) {group : ParameterGroup K}
    (isGroup : group ∈ config.layered digit parameters) {param : Parameter}
    (isMember : param ∈ group.params) : group.weightDecay = 0 ↔
      ∃ pattern ∈ config.noDecayPatterns, pattern.toList <:+: param.name.toList := by
  rcases layered_spec isGroup isMember with ⟨_, _, decay⟩
  rw [decay, ← decays_eq_false_iff]
  cases config.decays param.name with
  | true => simp [positive.ne']
  | false => simp

/-- A trainable parameter is in one group only. -/
theorem layered_once (distinct : (parameters.map Parameter.name).Nodup) {param : Parameter}
    (isParam : param ∈ parameters) (trainable : param.requiresGrad = true) :
    ((config.layered digit parameters).flatMap ParameterGroup.params).count param = 1 := by
  have isTrainable : param ∈ parameters.filter Parameter.requiresGrad :=
    List.mem_filter.mpr ⟨isParam, trainable⟩
  rw [LayerwiseConfig.layered, flatMap_grouped_perm.count_eq]
  exact List.count_eq_one_of_mem ((List.Nodup.of_map _ distinct).filter _) isTrainable

variable [IsStrictOrderedRing K]

theorem encoderRate_mono (positive : 0 < config.encoderLr)
    (decay : 0 < config.layerDecay ∧ config.layerDecay ≤ 1) (maxLayerId : ℕ) :
    Monotone (config.encoderRate maxLayerId) := by
  intro low high ordered
  apply max_le_max_right
  apply mul_le_mul_of_nonneg_left _ positive.le
  exact pow_le_pow_of_le_one decay.1.le decay.2 (Nat.sub_le_sub_left ordered _)

end Rates

/-! ## A small transformer -/

/-- The decimal digits of ASCII. -/
def asciiDigit : Digit :=
  fun char => if char.isDigit then some (char.toNat - '0'.toNat) else none

example : blockIndex asciiDigit "encoder.layers.11.norm.weight" = some 11 := by decide

/-- The parameters of a model with one block. -/
def smallTransformer : List Parameter :=
  [⟨"patch_embed.proj.weight", true⟩, ⟨"blocks.0.attn.qkv.weight", true⟩,
    ⟨"blocks.0.attn.qkv.bias", false⟩, ⟨"head.weight", true⟩, ⟨"head.bias", true⟩]

/-- Rates for it. -/
def smallRates : LayerwiseConfig ℚ where
  encoderLr := 1 / 10000
  headLr := 1 / 1000
  layerDecay := 3 / 4
  weightDecay := 1 / 20
  minLr := 1 / 100000000

end VisionApi.Training
