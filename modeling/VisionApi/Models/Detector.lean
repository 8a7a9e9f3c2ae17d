import VisionApi.Models.Layout

/-!
# Loading the detector

The detector names its classes from `detection_labels.json` and answers a
warm-up run with a score tensor of three dimensions.

Its loader is like the other two, with a file of its own: the names come from a
dictionary from indices to texts and a number of classes, so that a class without an
entry is named by its index.  The size of an image may be missing, which fails the
warm-up of a backend and is caught there.

`loadDetector_eq_ok_iff` says what a load returns: the model of the first backend of
the chain that is usable, where INT8 is tried only if it is what the settings ask for.
-/

namespace VisionApi.Models

open Foundation

variable {Session : Type}

/-- `detection_labels.json`, its keys converted.  Reading the image size may raise, and does so
only where the size is used. -/
structure DetectionLabels where
  id2label : List (ℤ × String)
  numClasses : ℤ
  imageSize : Except String ℤ

/-- The artefacts directory with the labels of the detector. -/
structure DetectorFiles extends Files where
  detectionLabels : Path → Except String DetectionLabels

/-- The class names by index; an index without a label is its own name. -/
def DetectionLabels.classNames (labels : DetectionLabels) : List String :=
  let id2label := labels.id2label.foldl (fun dict entry => Dict.set dict entry.1 entry.2) []
  (List.range labels.numClasses.toNat).map fun index : ℕ =>
    (Dict.get? id2label (index : ℤ)).getD (toString index)

/-- The graph of the detector on a backend. -/
def detectorFile (backend : InferenceBackend) : String :=
  if backend = .onnxInt8 then "detector_int8.onnx" else "detector_fp32.onnx"

/-- One candidate of the chain of `load_detector`, with the image size it was warmed up at. -/
def attemptDetector (runtime : Runtime Session) (files : Files) (artifactsDir : Path)
    (version : String) (imageSize : Except String ℤ) (candidate : InferenceBackend) :
    Except String (Path × Session × String × ℤ) :=
  let artifact :=
    resolveVersionedArtifact files (artifactsDir ++ ["onnx"]) (detectorFile candidate) version
  if files.present artifact then do
    let (session, inputName) ← createSession runtime artifact candidate
    let imageSize ← imageSize
    warmup runtime session inputName imageSize candidate 3
    .ok (artifact, session, inputName, imageSize)
  else
    .error "artefact not found"

/-- Try the backends of the chain and register the first that serves. -/
def ModelService.loadDetector (service : ModelService Session) (runtime : Runtime Session)
    (files : DetectorFiles) (name version : String) (makeActive : Bool) :
    Except LoadError (LoadedModel Session × ModelService Session) :=
  let artifacts := service.settings.artifactsDir
  let preferred := service.settings.inferenceBackend
  match resolveVersionedMetadata files.toFiles artifacts "detection_labels.json" version with
  | none =>
      .error (.modelUnavailable ("Detection artefacts not found. Export them with " ++
        "`python scripts/prepare_artifacts.py --with-detection`.")
        [("expected", [pathString (artifacts ++ ["onnx", version, "detector_fp32.onnx"]),
          pathString (artifacts ++ ["onnx", version, "detection_labels.json"])])])
  | some labelsPath =>
      match files.detectionLabels labelsPath with
      | .error error => .error (.unreadable error)
      | .ok labels =>
          match firstUsable (attemptDetector runtime files.toFiles artifacts version
              labels.imageSize) service.settings.chainWithoutInt8 [] with
          | .error failures =>
              .error (.modelUnavailable
                "No inference backend could be initialised for the detector."
                [("attempts", failures)])
          | .ok (candidate, artifact, session, inputName, imageSize) =>
              let model : LoadedModel Session :=
                { name, version
                  task := .detection
                  backend := candidate
                  session, inputName
                  classNames := .texts labels.classNames
                  wnids := .array []
                  imageSize
                  artifactPath := artifact
                  metrics := []
                  degradedFrom := if candidate = preferred then none else some preferred
                  labelsPath
                  metricsPath := none }
              .ok (model, service.register model makeActive)

/-- What the detector's loader returns and registers. -/
theorem loadDetector_eq_ok_iff {service after : ModelService Session} {runtime : Runtime Session}
    {files : DetectorFiles} {name version : String} {makeActive : Bool}
    {model : LoadedModel Session} :
    service.loadDetector runtime files name version makeActive = .ok (model, after) ↔
      ∃ labelsPath labels candidate artifact session inputName imageSize,
        resolveVersionedMetadata files.toFiles service.settings.artifactsDir
          "detection_labels.json" version = some labelsPath ∧
        files.detectionLabels labelsPath = .ok labels ∧
        firstUsable (attemptDetector runtime files.toFiles service.settings.artifactsDir version
          labels.imageSize) service.settings.chainWithoutInt8 [] =
            .ok (candidate, artifact, session, inputName, imageSize) ∧
        model =
          { name, version, session, inputName, imageSize, labelsPath
            task := .detection
            backend := candidate
            classNames := .texts labels.classNames
            wnids := .array []
            artifactPath := artifact
            metrics := []
            degradedFrom :=
              if candidate = service.settings.inferenceBackend then none
              else some service.settings.inferenceBackend
            metricsPath := none } ∧
        after = service.register model makeActive := by
  simp only [ModelService.loadDetector]
  cases resolveVersionedMetadata files.toFiles service.settings.artifactsDir
      "detection_labels.json" version with
  | none => simp
  | some labelsPath =>
      simp only [Option.some.injEq, exists_and_left, exists_eq_left']
      cases files.detectionLabels labelsPath with
      | error error => simp
      | ok labels =>
          simp only [Except.ok.injEq, exists_eq_left']
          cases firstUsable (attemptDetector runtime files.toFiles service.settings.artifactsDir
              version labels.imageSize) service.settings.chainWithoutInt8 [] with
          | error failures => simp
          | ok loaded =>
              rcases loaded with ⟨candidate, artifact, session, inputName, imageSize⟩
              simp only [Except.ok.injEq, Prod.mk.injEq]
              constructor
              · rintro ⟨rfl, rfl⟩
                exact ⟨candidate, artifact, session, inputName, imageSize,
                  ⟨rfl, rfl, rfl, rfl, rfl⟩, rfl, rfl⟩
              · rintro ⟨_, _, _, _, _, ⟨rfl, rfl, rfl, rfl, rfl⟩, rfl, rfl⟩
                exact ⟨rfl, rfl⟩

end VisionApi.Models
