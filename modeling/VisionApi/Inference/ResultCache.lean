import VisionApi.Foundation.JsonRoundTrip
import VisionApi.Inference.Service

/-!
# The result cache on Redis

`CacheService` stores the predictions of a request as JSON under a key that
names the image, the model and the options.  Redis holds bytes; its client
decodes them, and any command of it may fail.

The library is what the service calls: the writer and the reader of JSON, the model of
a prediction and the digest; `Library.ofText` builds it from the text format.  Under a
key there is nothing, a text that is no JSON (which is deleted), a payload, or something
on which an exception escapes; a fault of Redis counts as nothing.

A payload is rebuilt item by item with the model of predictions, outside of the
handlers.  What was written by the service is read back and rebuilt as it was, if its
floats print (`rebuild_payloadOf`).
-/

namespace VisionApi.Inference

open Foundation Models

variable {Session Score : Type}

/-! ## What the service relies on -/

/-- `json`, `Prediction(**members)` and the hexadecimal digest of `hashlib.sha256`. -/
structure Library (Score : Type) where
  loads : String → Except Json.LoadsError (Json Score)
  dumps : Json.Separators → Json Score → String
  prediction : List (String × Json Score) → Except Failure (Prediction Score)
  sha256 : Bytes → String

/-- The library whose `json` is the reader and writer of this development. -/
def Library.ofText (floats : Json.FloatText Score)
    (prediction : List (String × Json Score) → Except Failure (Prediction Score))
    (sha256 : Bytes → String) : Library Score where
  loads text :=
    match Json.loads floats text with
    | some value => .ok value
    | none => .error .invalid
  dumps := Json.dumps floats
  prediction := prediction
  sha256 := sha256

/-- `text.encode()` -/
def encodeText (text : String) : Bytes :=
  text.toUTF8.data.toList

/-! ## Keys -/

/-- The version that every key begins with. -/
def cacheSchemaVersion : String := "v1"

/-- The options as `classify` passes them. -/
def requestOptions (topKResults : ℤ) (includeProbabilities : Bool) : List (String × Json Score) :=
  [("top_k", .int topKResults), ("include_probabilities", .bool includeProbabilities)]

/-- `json.dumps` with `sort_keys` and the compact separators. -/
def Library.optionRepr (lib : Library Score) (options : List (String × Json Score)) : String :=
  lib.dumps .compact (.object (options.mergeSort fun left right => left.1 ≤ right.1))

/-- The first sixteen digits of the digest of a text. -/
def shortDigest (sha256 : Bytes → String) (text : String) : String :=
  String.ofList ((sha256 (encodeText text)).toList.take 16)

/-- The parts of a key. -/
def Library.keyParts (lib : Library Score) (image : Bytes)
    (modelName modelVersion backend : String) (options : List (String × Json Score)) :
    List String :=
  ["infer", cacheSchemaVersion, modelName, modelVersion, backend, lib.sha256 image,
    shortDigest lib.sha256 (lib.optionRepr options)]

/-- The key of a request. -/
def Library.buildKey (lib : Library Score) (image : Bytes)
    (modelName modelVersion backend : String) (options : List (String × Json Score)) : String :=
  ":".intercalate (lib.keyParts image modelName modelVersion backend options)

/-! ## Commands -/

/-- The values in Redis. -/
abbrev Store := String → Option ByteArray

/-- The commands of one request that raise `RedisError`. -/
structure Faults where
  get : Bool
  set : Bool
  delete : Bool

/-- What the value under a key is read as; the client decodes it as UTF-8. -/
inductive Reading (Score : Type) where
  | absent
  | corrupt
  | payload (value : Json Score)
  | raises (error : Failure)

/-- What reading a value leads to. -/
def Library.reading (lib : Library Score) : Option ByteArray → Reading Score
  | none => .absent
  | some bytes =>
      match String.fromUTF8? bytes with
      | none => .raises (.value "UnicodeDecodeError")
      | some text =>
          match lib.loads text with
          | .ok value => .payload value
          | .error .invalid => .corrupt
          | .error .recursion => .raises (.other "RecursionError: maximum recursion depth exceeded")

/-- A payload is used unless it is `None`. -/
def usablePayload : Json Score → Option (Json Score)
  | .null => none
  | value => some value

/-- `CacheService.get` and the test for `None`; `none` stands for a cache without Redis. -/
def Library.cacheGet (lib : Library Score) (cache : Option Store) (faults : Faults)
    (key : String) : Except Failure (Option (Json Score)) × Option Store :=
  match cache with
  | none => (.ok none, none)
  | some store =>
      if faults.get then (.ok none, some store)
      else
        match lib.reading (store key) with
        | .absent => (.ok none, some store)
        | .corrupt =>
            (.ok none, some (if faults.delete then store else Function.update store key none))
        | .payload value => (.ok (usablePayload value), some store)
        | .raises error => (.error error, some store)

/-- `CacheService.set`. -/
def Library.cacheSet (lib : Library Score) (cache : Option Store) (faults : Faults)
    (key : String) (value : Json Score) : Option Store :=
  cache.map fun store =>
    if faults.set then store
    else Function.update store key (some (lib.dumps .spaced value).toUTF8)

/-! ## Payloads -/

/-- `Prediction.model_dump()` -/
def modelDump (prediction : Prediction Score) : List (String × Json Score) :=
  [("label", .string prediction.label), ("class_id", .int prediction.classId),
    ("wnid", (prediction.wnid.map Json.string).getD .null),
    ("probability", (prediction.probability.map Json.float).getD .null)]

/-- The payload `classify` stores. -/
def payloadOf (predictions : List (Prediction Score)) : Json Score :=
  .object
    [("predictions", .array (predictions.map fun prediction => .object (modelDump prediction)))]

/-- `Prediction(**item)`. -/
def Library.rebuildItem (lib : Library Score) : Json Score → Except Failure (Prediction Score)
  | .object members => lib.prediction members
  | _ => .error (.other "TypeError: argument after ** must be a mapping")

/-- `[Prediction(**p) for p in cached["predictions"]]`. -/
def Library.rebuild (lib : Library Score) : Json Score → Except Failure (List (Prediction Score))
  | .object members =>
      match Dict.get? members "predictions" with
      | none => .error (.other "KeyError: 'predictions'")
      | some value =>
          match value.iterate with
          | none => .error (.other "TypeError: object is not iterable")
          | some items => items.mapM lib.rebuildItem
  | _ => .error (.other "TypeError: indices must be integers")

/-! ## What was stored is read back -/

theorem fromUTF8?_toUTF8 (text : String) : String.fromUTF8? text.toUTF8 = some text := by
  rw [String.toUTF8_eq_toByteArray, String.fromUTF8?, dif_pos text.isValidUTF8]
  rfl

/-- What was written is read as a payload. -/
theorem reading_dumps {floats : Json.FloatText Score}
    {prediction : List (String × Json Score) → Except Failure (Prediction Score)}
    {sha256 : Bytes → String} {value : Json Score} (wellFormed : value.WellFormed floats) :
    (Library.ofText floats prediction sha256).reading
      (some ((Library.ofText floats prediction sha256).dumps .spaced value).toUTF8) =
        .payload value := by
  simp only [Library.reading, Library.ofText, fromUTF8?_toUTF8,
    Json.loads_dumps wellFormed .spaced]

theorem wellFormed_modelDump {floats : Json.FloatText Score} {prediction : Prediction Score}
    (prints : ∀ probability ∈ prediction.probability, floats.Prints probability) :
    Json.WellFormed floats (.object (modelDump prediction)) := by
  apply Json.WellFormed.object
  · simp [modelDump]
  · intro member isMember
    simp only [modelDump, List.mem_cons, List.not_mem_nil, or_false] at isMember
    rcases isMember with rfl | rfl | rfl | rfl
    · exact .string _
    · exact .int _
    · cases prediction.wnid with
      | none => exact .null
      | some wnid => exact .string wnid
    · cases shown : prediction.probability with
      | none => exact .null
      | some probability => exact .float probability (prints probability shown)

theorem wellFormed_payloadOf {floats : Json.FloatText Score}
    {predictions : List (Prediction Score)}
    (prints : ∀ prediction ∈ predictions, ∀ probability ∈ prediction.probability,
      floats.Prints probability) : (payloadOf predictions).WellFormed floats := by
  apply Json.WellFormed.object
  · exact List.nodup_singleton _
  · intro member isMember
    cases List.mem_singleton.mp isMember
    apply Json.WellFormed.array
    intro item isItem
    rcases List.mem_map.mp isItem with ⟨prediction, isPrediction, rfl⟩
    exact wellFormed_modelDump (prints prediction isPrediction)

/-- Predictions that are accepted back are rebuilt. -/
theorem rebuild_payloadOf {lib : Library Score} {predictions : List (Prediction Score)}
    (accepted : ∀ prediction ∈ predictions,
      lib.prediction (modelDump prediction) = .ok prediction) :
    lib.rebuild (payloadOf predictions) = .ok predictions := by
  have each : (predictions.map fun prediction => Json.object (modelDump prediction)).mapM
      lib.rebuildItem = .ok predictions := by
    induction predictions with
    | nil => rfl
    | cons prediction predictions ih =>
        have later := ih fun other isOther => accepted other (List.mem_cons_of_mem _ isOther)
        rw [List.map_cons, List.mapM_cons, bind_ok_iff]
        refine ⟨prediction, accepted prediction List.mem_cons_self, ?_⟩
        exact bind_ok_iff.mpr ⟨predictions, later, rfl⟩
  exact each

end VisionApi.Inference
