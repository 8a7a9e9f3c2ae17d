import VisionApi.Foundation.Dict
import VisionApi.Models.Artifacts

/-!
# The model service

`ModelService` loads a model by trying the backends of a fallback chain until
one session comes up and answers a warm-up run, and registers it under its name
and version.  ONNX Runtime is a parameter: which providers it has, whether a
session can be created, which provider it selected, and what a warm-up returns.

The classifier and the embedder are loaded by one function with parameters
(`loadLabelled`), as the source has one loop for each with the same steps: the task,
the chain, the file of a backend and the message at the end differ.  An attempt is a
function that returns or fails with a text; the failures are collected for the error
that is raised when no backend is left.

Registering is separate from loading, and a log line follows it that may raise.  What
the labels file holds is not checked: class names and WordNet ids are JSON values, and
their accessors return nothing where the source would raise.
-/

namespace VisionApi.Models

open Foundation

/-- The tasks of a model. -/
inductive TaskType where
  | classification
  | detection
  | embedding
deriving DecidableEq

/-- The backends that a deployment may ask for. -/
inductive InferenceBackend where
  | torch
  | onnx
  | onnxInt8
  | tensorrt
deriving DecidableEq

/-- The text of a backend. -/
def InferenceBackend.value : InferenceBackend → String
  | .torch => "torch"
  | .onnx => "onnx"
  | .onnxInt8 => "onnx-int8"
  | .tensorrt => "tensorrt"

/-- The settings that loading depends on. -/
structure Settings where
  artifactsDir : Path
  inferenceBackend : InferenceBackend
  enableGracefulDegradation : Bool

/-- `_FALLBACK_CHAINS`. -/
def fallbackChain : InferenceBackend → List InferenceBackend
  | .tensorrt => [.tensorrt, .onnx, .onnxInt8]
  | .onnx => [.onnx, .onnxInt8]
  | .onnxInt8 => [.onnxInt8, .onnx]
  | .torch => [.torch, .onnx]

/-- `_PROVIDER_FOR_BACKEND`, with its default. -/
def providerForBackend : InferenceBackend → List String
  | .tensorrt => ["TensorrtExecutionProvider", "CPUExecutionProvider"]
  | .onnx => ["CUDAExecutionProvider", "CPUExecutionProvider"]
  | .onnxInt8 | .torch => ["CPUExecutionProvider"]

/-- `_SATISFYING_PROVIDERS`, with its default; sorted. -/
def satisfyingProviders : InferenceBackend → List String
  | .tensorrt => ["TensorrtExecutionProvider"]
  | .onnx => ["CPUExecutionProvider", "CUDAExecutionProvider"]
  | .onnxInt8 | .torch => ["CPUExecutionProvider"]

/-- The backends a loader tries in turn. -/
def Settings.chain (settings : Settings) : List InferenceBackend :=
  if settings.enableGracefulDegradation then fallbackChain settings.inferenceBackend
  else [settings.inferenceBackend]

/-- The chain of a model whose INT8 graph is never a silent fallback. -/
def Settings.chainWithoutInt8 (settings : Settings) : List InferenceBackend :=
  if settings.inferenceBackend ≠ .onnxInt8 then
    settings.chain.filter fun candidate => candidate ≠ .onnxInt8
  else
    settings.chain

/-! ## ONNX Runtime -/

/-- ONNX Runtime on one host.  `warmup` runs a session on one zero image of the given size
and returns the shapes of the outputs. -/
structure Runtime (Session : Type) where
  available : List String
  create : Path → List String → Except String Session
  providers : Session → List String
  inputName : Session → String
  warmup : Session → String → ℤ → Except String (List (List ℕ))

variable {Session : Type}

/-- One character in the `repr` of a text; beyond ASCII every character counts as printable. -/
def reprChar (quote char : Char) : List Char :=
  if char = quote ∨ char = '\\' then ['\\', char]
  else if char = '\n' then ['\\', 'n']
  else if char = '\r' then ['\\', 'r']
  else if char = '\t' then ['\\', 't']
  else if char < ' ' ∨ char = '\x7f' then
    ['\\', 'x', Nat.digitChar (char.toNat / 16), Nat.digitChar (char.toNat % 16)]
  else [char]

/-- Python's `repr` of a text: double quotes only around a single quote without a double one. -/
def reprText (text : String) : String :=
  let quote := if '\'' ∈ text.toList ∧ '"' ∉ text.toList then '"' else '\''
  String.ofList (quote :: (text.toList.flatMap (reprChar quote) ++ [quote]))

/-- Python's `repr` of a list of texts. -/
def reprStrings (items : List String) : String :=
  "[" ++ ", ".intercalate (items.map reprText) ++ "]"

/-- Python's `repr` of an array shape. -/
def reprShape : List ℕ → String
  | [size] => "(" ++ toString size ++ ",)"
  | shape => "(" ++ ", ".intercalate (shape.map toString) ++ ")"

/-- The providers `create_session` asks for. -/
def usableProviders (runtime : Runtime Session) (requested : List String) : List String :=
  let usable := requested.filter fun provider => provider ∈ runtime.available
  if "CPUExecutionProvider" ∈ usable then usable else usable ++ ["CPUExecutionProvider"]

/-- `create_session` as `_create_session` calls it: the selected provider has to satisfy the
backend. -/
def createSession (runtime : Runtime Session) (artifact : Path) (backend : InferenceBackend) :
    Except String (Session × String) := do
  let session ← runtime.create artifact (usableProviders runtime (providerForBackend backend))
  match runtime.providers session with
  | [] => .error "IndexError: list index out of range"
  | selected :: _ =>
      if selected ∈ satisfyingProviders backend then
        .ok (session, runtime.inputName session)
      else
        .error ("RuntimeError: ONNX Runtime selected " ++ selected ++
          ", which does not satisfy the requested " ++ reprStrings (satisfyingProviders backend) ++
          " (available: " ++ reprStrings (runtime.available.mergeSort fun a b => a ≤ b) ++
          "). Refusing to report a backend that is not in use.")

/-- Run a session once; its first output must have the expected number of dimensions. -/
def warmup (runtime : Runtime Session) (session : Session) (inputName : String) (imageSize : ℤ)
    (backend : InferenceBackend) (outputNdim : ℕ) : Except String Unit := do
  let outputs ← runtime.warmup session inputName imageSize
  match outputs with
  | output :: _ =>
      if output.length = outputNdim then
        .ok ()
      else
        .error ("RuntimeError: Warmup produced an unexpected output shape for " ++ backend.value ++
          ": [" ++ ", ".intercalate (outputs.map reprShape) ++ "]")
  | [] =>
      .error ("RuntimeError: Warmup produced an unexpected output shape for " ++ backend.value ++
        ": []")

/-! ## Loading -/

/-- A loaded model.  `labelsPath` and `metricsPath` are the files its class names and its
reported metrics were read from. -/
structure LoadedModel (Session : Type) where
  name : String
  version : String
  task : TaskType
  backend : InferenceBackend
  session : Session
  inputName : String
  classNames : Json ℚ
  wnids : Json ℚ
  imageSize : ℤ
  artifactPath : Path
  metrics : List (String × ℚ)
  degradedFrom : Option InferenceBackend
  labelsPath : Path
  metricsPath : Option Path

/-- The key of a model in the registry. -/
def LoadedModel.key (model : LoadedModel Session) : String :=
  model.name ++ ":" ++ model.version

/-- `len(self.class_names)`, which raises where they have no length. -/
def LoadedModel.numClasses (model : LoadedModel Session) : Except String ℕ :=
  match model.classNames.len? with
  | some size => .ok size
  | none => .error "TypeError: object has no len()"

/-- The name of a class, if there is one. -/
def LoadedModel.className? (model : LoadedModel Session) (index : ℕ) : Option String :=
  (model.classNames.item? index).bind Json.text?

/-- The WordNet identifier of a class, which may have none; of a list without a length, or with
anything but texts in it, there is no telling. -/
def LoadedModel.wnid? (model : LoadedModel Session) (index : ℕ) : Option (Option String) :=
  match model.wnids.len? with
  | none => none
  | some size =>
      if index < size then (model.wnids.item? index).bind Json.optionalText? else some none

/-- The labels of a model are lists of texts, as the pipeline exports them. -/
structure LoadedModel.Labelled (model : LoadedModel Session) (names wnids : List String) :
    Prop where
  classNames : model.classNames = .texts names
  wnids : model.wnids = .texts wnids

theorem LoadedModel.Labelled.className?_eq {model : LoadedModel Session} {names wnids : List String}
    (labelled : model.Labelled names wnids) (index : ℕ) :
    model.className? index = names[index]? := by
  rw [LoadedModel.className?, labelled.classNames, Json.item?_texts]
  cases names[index]? with
  | none => rfl
  | some name => rfl

theorem LoadedModel.Labelled.wnid?_eq {model : LoadedModel Session} {names wnids : List String}
    (labelled : model.Labelled names wnids) (index : ℕ) :
    model.wnid? index = some wnids[index]? := by
  simp only [LoadedModel.wnid?, labelled.wnids, Json.len?_texts, Json.item?_texts]
  split
  · rename_i inside
    rw [List.getElem?_eq_getElem inside]
    rfl
  · rename_i outside
    rw [List.getElem?_eq_none (Nat.not_lt.mp outside)]

/-- The registry of loaded models; the first version of a name is active from the start. -/
structure ModelService (Session : Type) where
  settings : Settings
  models : Dict String (LoadedModel Session)
  active : Dict String String

/-- Add a model; the first version of a name is active in any case. -/
def ModelService.register (service : ModelService Session) (model : LoadedModel Session)
    (makeActive : Bool) : ModelService Session :=
  { service with
    models := service.models.set model.key model
    active :=
      if makeActive || (service.active.get? model.name).isNone then
        service.active.set model.name model.version
      else
        service.active }

/-- Why a model is not loaded. -/
inductive LoadError where
  | modelUnavailable (message : String) (details : List (String × List String))
  /-- A label or metric file that cannot be read. -/
  | unreadable (error : String)
  /-- What logging a model raises once it is registered. -/
  | unlogged (error : String)

/-- What `_read_classifier_metadata` returns, with the files it is from. -/
structure ClassifierMetadata where
  classNames : Json ℚ
  wnids : Json ℚ
  imageSize : ℤ
  metrics : List (String × ℚ)
  labelsPath : Path
  metricsPath : Option Path

/-- The error for labels that are missing. -/
def labelsNotFound (artifactsDir : Path) (version : String) : LoadError :=
  if version = defaultVersion then
    let expected := pathString (artifactsDir ++ ["labels.json"])
    .modelUnavailable ("Model labels not found at " ++ expected ++
      ". Export artefacts with `scripts/prepare_artifacts.py` before starting the API.")
      [("expected_path", [expected]), ("version", [version])]
  else
    let expected := pathString (artifactsDir ++ ["onnx", version, "labels.json"])
    .modelUnavailable ("Model labels not found for version " ++ version ++
      ". A non-default version must carry its own labels.json next to its graph, so its " ++
      "predictions cannot be named from another version's class list. Expected " ++ expected ++
      ". Copy it from the run that produced the weights, or re-run " ++
      "`scripts/prepare_artifacts.py`.")
      [("expected_path", [expected]), ("version", [version])]

/-- The labels of a version, and its metrics where there are any. -/
def readClassifierMetadata (files : Files) (artifactsDir : Path) (version : String) :
    Except LoadError ClassifierMetadata :=
  match resolveVersionedMetadata files artifactsDir "labels.json" version with
  | none => .error (labelsNotFound artifactsDir version)
  | some labelsPath =>
      match files.labels labelsPath with
      | .error error => .error (.unreadable error)
      | .ok labels =>
          match resolveVersionedMetadata files artifactsDir "metrics.json" version with
          | none =>
              .ok ⟨labels.classNames, labels.wnids, labels.imageSize, [], labelsPath, none⟩
          | some metricsPath =>
              match files.metrics metricsPath with
              | .error error => .error (.unreadable error)
              | .ok entries =>
                  .ok ⟨labels.classNames, labels.wnids, labels.imageSize,
                    entries.filterMap fun entry => entry.2.map fun number => (entry.1, number),
                    labelsPath, some metricsPath⟩

/-- The graph of the classifier on a backend. -/
def classifierFile : InferenceBackend → Option String
  | .tensorrt | .onnx => some "classifier_fp32.onnx"
  | .onnxInt8 => some "classifier_int8.onnx"
  | .torch => none

/-- The graph of the embedder on a backend. -/
def embedderFile (backend : InferenceBackend) : Option String :=
  some (if backend = .onnxInt8 then "embedder_int8.onnx" else "embedder_fp32.onnx")

/-- One candidate of the chain: its graph has to exist, its session to come up and its warm-up
to run. -/
def attempt (runtime : Runtime Session) (files : Files) (artifactsDir : Path) (version : String)
    (fileFor : InferenceBackend → Option String) (imageSize : ℤ) (outputNdim : ℕ)
    (candidate : InferenceBackend) : Except String (Path × Session × String) :=
  match fileFor candidate with
  | none => .error "artefact not found"
  | some filename =>
      let artifact := resolveVersionedArtifact files (artifactsDir ++ ["onnx"]) filename version
      if files.present artifact then do
        let (session, inputName) ← createSession runtime artifact candidate
        warmup runtime session inputName imageSize candidate outputNdim
        .ok (artifact, session, inputName)
      else
        .error "artefact not found"

/-- The loop over the chain, with the failures so far. -/
def firstUsable {Loaded : Type} (attempt : InferenceBackend → Except String Loaded) :
    List InferenceBackend → List String → Except (List String) (InferenceBackend × Loaded)
  | [], failures => .error failures
  | candidate :: chain, failures =>
      match attempt candidate with
      | .ok loaded => .ok (candidate, loaded)
      | .error error => firstUsable attempt chain (failures ++ [candidate.value ++ ": " ++ error])

/-- The body of `load_classifier` and `load_embedder`. -/
def ModelService.loadLabelled (service : ModelService Session) (runtime : Runtime Session)
    (files : Files) (name version : String) (makeActive : Bool) (task : TaskType)
    (chain : List InferenceBackend) (fileFor : InferenceBackend → Option String)
    (reportsMetrics : Bool) (unavailable : String) :
    Except LoadError (LoadedModel Session × ModelService Session) := do
  let artifacts := service.settings.artifactsDir
  let preferred := service.settings.inferenceBackend
  let metadata ← readClassifierMetadata files artifacts version
  match firstUsable (attempt runtime files artifacts version fileFor metadata.imageSize 2)
      chain [] with
  | .error failures => .error (.modelUnavailable unavailable [("attempts", failures)])
  | .ok (candidate, artifact, session, inputName) =>
      let model : LoadedModel Session :=
        { name, version, task
          backend := candidate
          session, inputName
          classNames := metadata.classNames
          wnids := metadata.wnids
          imageSize := metadata.imageSize
          artifactPath := artifact
          metrics := if reportsMetrics then metadata.metrics else []
          degradedFrom := if candidate = preferred then none else some preferred
          labelsPath := metadata.labelsPath
          metricsPath := if reportsMetrics then metadata.metricsPath else none }
      .ok (model, service.register model makeActive)

/-- The name the classifier is registered under. -/
def classifierName : String := "tiny-imagenet-classifier"

/-- The name the detector is registered under. -/
def detectorName : String := "rtdetr-coco-detector"

/-- The name the embedder is registered under. -/
def embedderName : String := "tiny-imagenet-embedder"

/-- Load the classifier with the chain of the settings. -/
def ModelService.loadClassifier (service : ModelService Session) (runtime : Runtime Session)
    (files : Files) (name version : String) (makeActive : Bool) :
    Except LoadError (LoadedModel Session × ModelService Session) :=
  service.loadLabelled runtime files name version makeActive .classification
    service.settings.chain classifierFile true
    "No inference backend could be initialised for the classifier."

/-- `ModelService.load_embedder`, which reports no metrics. -/
def ModelService.loadEmbedder (service : ModelService Session) (runtime : Runtime Session)
    (files : Files) (name version : String) (makeActive : Bool) :
    Except LoadError (LoadedModel Session × ModelService Session) :=
  service.loadLabelled runtime files name version makeActive .embedding
    service.settings.chainWithoutInt8 embedderFile false
    "No inference backend could be initialised for the embedder."

/-! ## The registry -/

/-- The error for a name or a version that is not registered. -/
structure ModelNotFound where
  message : String
  details : List (String × List String)

/-- `ModelService.get`; an empty version is no version. -/
def ModelService.get (service : ModelService Session) (name : String) (version : Option String) :
    Except ModelNotFound (LoadedModel Session) :=
  let pinned := version.filter fun text => text ≠ ""
  match pinned.or (service.active.get? name) with
  | none =>
      .error ⟨"No model registered under " ++ reprText name ++ ".",
        [("available", (service.active.map Prod.fst).mergeSort fun a b => a ≤ b)]⟩
  | some resolved =>
      match service.models.get? (name ++ ":" ++ resolved) with
      | some model => .ok model
      | none =>
          .error ⟨"Model " ++ reprText name ++ " version " ++ reprText resolved ++
              " is not registered.",
            [("requested_version", [resolved]),
              ("available_versions",
                ((service.models.filter fun entry => entry.2.name = name).map
                  fun entry => entry.2.version).mergeSort fun a b => a ≤ b)]⟩

/-- A model that is found is in the registry. -/
theorem get?_of_get {service : ModelService Session} {name : String} {version : Option String}
    {model : LoadedModel Session} (found : service.get name version = .ok model) :
    ∃ key, service.models.get? key = some model := by
  simp only [ModelService.get] at found
  split at found
  · cases found
  · split at found
    · rename_i isModel
      cases found
      exact ⟨_, isModel⟩
    · cases found

end VisionApi.Models
