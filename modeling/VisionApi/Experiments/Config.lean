import Mathlib.Algebra.Order.Field.Basic
import Mathlib.Data.Rat.Cast.Order
import VisionApi.Foundation.Fallible
import VisionApi.Foundation.Json

/-!
# The experiments file

An experiment splits the traffic of a model across its versions.  The file is
JSON, read as the dynamic language does: every access may raise, and only some
exceptions are caught.

`PyError` keeps the exceptions apart by whether the handler around an entry catches
them.  Names, versions and weights are the JSON values themselves, as the loader
converts a weight by `float()` and checks no other type; two keys are the same if they
are equal as Python compares them, so that `1`, `1.0` and `true` are one key.

The float arithmetic is a parameter: the running sum, the tolerance of the total and
the conversion of texts are those of the operations that are given, and `exactOps` is
the exact arithmetic.  `Variant` and `Experiment` carry what their constructors check
as fields, so that an experiment that exists has passed every check.
-/

namespace VisionApi.Experiments

open Foundation

/-! ## Values -/

/-- The exceptions that reading the file may raise. -/
inductive PyError where
  | attribute
  | key
  /-- `PermissionError`. -/
  | permission
  | overflow
  | recursion
  | type
  | value
deriving DecidableEq

/-- The exceptions `load` catches around an entry. -/
def PyError.isCaught : PyError → Bool
  | .key | .type | .value => true
  | .attribute | .permission | .overflow | .recursion => false

/-- Floats, as far as experiments use them. -/
structure FloatOps (Number : Type) where
  /-- `float` of an int, which may overflow. -/
  ofInt : ℤ → Option Number
  /-- `float` of a text. -/
  ofText : String → Option Number
  sum : List Number → Number
  add : Number → Number → Number
  /-- A count in units of `2 ^ -64`. -/
  ofUnits : ℕ → Number
  less : Number → Number → Bool
  /-- `0.0 <= weight <= 1.0`. -/
  isShare : Number → Bool
  /-- `math.isclose(total, 1.0, abs_tol=1e-6)`. -/
  isWhole : Number → Bool
  isZero : Number → Bool
  same : Number → Number → Bool
  sameInt : Number → ℤ → Bool

/-- Exact shares, which no text is read as. -/
def exactOps : FloatOps ℚ where
  ofInt := fun value => some value
  ofText := fun _ => none
  sum := fun weights => weights.foldl (· + ·) 0
  add := fun left right => left + right
  ofUnits := fun units => units / 2 ^ 64
  less := fun left right => left < right
  isShare := fun weight => 0 ≤ weight && weight ≤ 1
  isWhole := fun total => |total - 1| ≤ max (max |total| 1 / 10 ^ 9) (1 / 10 ^ 6)
  isZero := fun weight => weight = 0
  same := fun left right => left = right
  sameInt := fun left right => left = right

@[simp]
theorem exactOps_add (left right : ℚ) : exactOps.add left right = left + right :=
  rfl

@[simp]
theorem exactOps_ofUnits (units : ℕ) : exactOps.ofUnits units = units / 2 ^ 64 :=
  rfl

@[simp]
theorem exactOps_less (left right : ℚ) : exactOps.less left right = decide (left < right) :=
  rfl

/-- A share of exact arithmetic lies in the unit interval. -/
theorem exactOps_isShare (weight : ℚ) :
    exactOps.isShare weight = true ↔ 0 ≤ weight ∧ weight ≤ 1 := by
  simp [exactOps]

/-- A total of exact arithmetic is one within the tolerance of `math.isclose`. -/
theorem exactOps_isWhole (total : ℚ) :
    exactOps.isWhole total = true ↔
      |total - 1| ≤ max (max |total| 1 / 10 ^ 9) (1 / 10 ^ 6) := by
  simp [exactOps]

variable {Number : Type} (ops : FloatOps Number)

/-- `float(value)`. -/
def toFloat : Json Number → Except PyError Number
  | .int value =>
      match ops.ofInt value with
      | some weight => .ok weight
      | none => .error .overflow
  | .bool value =>
      match ops.ofInt (if value then 1 else 0) with
      | some weight => .ok weight
      | none => .error .overflow
  | .float value => .ok value
  | .string text =>
      match ops.ofText text with
      | some weight => .ok weight
      | none => .error .value
  | .null | .array _ | .object _ => .error .type

/-- `bool(value)`. -/
def truthy : Json Number → Bool
  | .null => false
  | .bool value => value
  | .int value => value ≠ 0
  | .float value => !ops.isZero value
  | .string text => text ≠ ""
  | .array items => !items.isEmpty
  | .object members => !members.isEmpty

/-- Lists and dictionaries have no hash. -/
def isHashable : Json Number → Bool
  | .array _ | .object _ => false
  | _ => true

/-- A bool is equal to an int. -/
def asInt : Json Number → Option ℤ
  | .int value => some value
  | .bool value => some (if value then 1 else 0)
  | _ => none

/-- Equality of hashable values. -/
def sameKey (left right : Json Number) : Bool :=
  match left, right with
  | .null, .null => true
  | .string text, .string other => text = other
  | .float value, .float other => ops.same value other
  | .float value, other => (asInt other).any (ops.sameInt value)
  | other, .float value => (asInt other).any (ops.sameInt value)
  | left, right => (asInt left).isSome && asInt left = asInt right

/-- `value[key]`. -/
def subscript (value : Json Number) (key : String) : Except PyError (Json Number) :=
  match value with
  | .object members =>
      match Dict.get? members key with
      | some found => .ok found
      | none => .error .key
  | _ => .error .type

/-! ## Experiments -/

/-- `Variant`; its weight is a share. -/
structure Variant where
  name : Json Number
  modelVersion : Json Number
  weight : Number
  share : ops.isShare weight = true

/-- `Variant.__post_init__`. -/
def Variant.make (name modelVersion : Json Number) (weight : Number) :
    Except PyError (Variant ops) :=
  if share : ops.isShare weight = true then .ok ⟨name, modelVersion, weight, share⟩
  else .error .value

/-- `Experiment`: there is a variant, the weights sum to one, the names are hashable and unique. -/
structure Experiment where
  name : Json Number
  variants : List (Variant ops)
  enabled : Bool
  nonempty : variants ≠ []
  whole : ops.isWhole (ops.sum (variants.map Variant.weight)) = true
  hashable : (variants.all fun variant => isHashable variant.name) = true
  unique : variants.Pairwise fun left right => sameKey ops left.name right.name = false

/-- `Experiment.__post_init__`. -/
def Experiment.make (name : Json Number) (variants : List (Variant ops)) (enabled : Bool) :
    Except PyError (Experiment ops) :=
  if nonempty : variants ≠ [] then
    if whole : ops.isWhole (ops.sum (variants.map Variant.weight)) = true then
      if hashable : (variants.all fun variant => isHashable variant.name) = true then
        if unique :
          variants.Pairwise fun left right => sameKey ops left.name right.name = false then
          .ok ⟨name, variants, enabled, nonempty, whole, hashable, unique⟩
        else .error .value
      else .error .type
    else .error .value
  else .error .value

/-! ## Loading -/

/-- One item of `entry["variants"]`. -/
def constructVariant (item : Json Number) : Except PyError (Variant ops) := do
  let name ← subscript item "name"
  let modelVersion ← subscript item "model_version"
  let weight ← toFloat ops (← subscript item "weight")
  Variant.make ops name modelVersion weight

/-- `entry.get("enabled", True)` as a bool; `entry` is a dictionary by then. -/
def isEnabled : Json Number → Bool
  | .object members => ((Dict.get? members "enabled").map (truthy ops)).getD true
  | _ => true

/-- The `try` block around an entry: the model and the experiment it describes. -/
def construct (entry : Json Number) : Except PyError (Json Number × Experiment ops) := do
  let modelName ← subscript entry "model_name"
  let name ← subscript entry "name"
  let items ← subscript entry "variants"
  match items.iterate with
  | none => .error .type
  | some items => do
      let variants ← items.mapM (constructVariant ops)
      let experiment ← Experiment.make ops name variants (isEnabled ops entry)
      .ok (modelName, experiment)

/-- The versions loaded by model. -/
abbrev AvailableVersions := Dict String (List String)

/-- The version is in a set of texts. -/
def isLoaded (loaded : List String) : Json Number → Bool
  | .string version => version ∈ loaded
  | _ => false

/-- The experiments by model. -/
abbrev Registry := Dict String (Experiment ops)

/-- One round of the loop of `load`. -/
def loadEntry (available : AvailableVersions) (experiments : Registry ops) (entry : Json Number) :
    Except PyError (Registry ops) :=
  match construct ops entry with
  | .error error =>
      if error.isCaught then
        -- The handler reads `entry.get`.
        match entry with
        | .object _ => .ok experiments
        | _ => .error .attribute
      else .error error
  | .ok (modelName, experiment) =>
      if !isHashable modelName then .error .type
      else if experiment.variants.any fun variant => !isHashable variant.modelVersion then
        .error .type
      else
        match modelName with
        | .string model =>
            let loaded := (Dict.get? available model).getD []
            if experiment.variants.all fun variant => isLoaded loaded variant.modelVersion then
              .ok (Dict.set experiments model experiment)
            else
              .ok experiments
        -- No version is loaded for a name that is no text, and there is a variant.
        | _ => .ok experiments

/-- Why the file has no value. -/
inductive FileError where
  /-- `path.exists()` raises: a directory on the way cannot be searched. -/
  | unreachable
  /-- `OSError`. -/
  | unreadable
  /-- `ValueError`: no UTF-8, or no JSON. -/
  | invalid
  | recursion

/-- `ExperimentRegistry.load`; `none` stands for a path that does not exist. -/
def load (content : Option (Except FileError (Json Number))) (available : AvailableVersions) :
    Except PyError (Registry ops) :=
  match content with
  | none | some (.error .unreadable) | some (.error .invalid) => .ok []
  | some (.error .unreachable) => .error .permission
  | some (.error .recursion) => .error .recursion
  | some (.ok (.object members)) =>
      match ((Dict.get? members "experiments").getD (.array [])).iterate with
      | none => .error .type
      | some entries => entries.foldlM (loadEntry ops available) []
  | some (.ok _) => .error .attribute

end VisionApi.Experiments
