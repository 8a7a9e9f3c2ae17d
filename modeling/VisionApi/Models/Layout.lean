import VisionApi.Models.Service
import VisionApi.Foundation.Fallible

/-!
# Weights and the files that say what they mean

The graph, the labels and the metrics of a model are located by separate
existence checks.  This file states when the three lie in one layout.

A load is first reduced to a search: it returns the model of the first backend in the
chain that is usable (`loadLabelled_eq_ok_iff`).  The paths of that model are then
resolved ones, of which each belongs to one layout.

For a version other than the default there is only one layout.  For the default version
every file falls back on its own, so that the three agree exactly if either all of
those that matter are in the versioned directory or none is (`LayoutsAgree`).  The graph
that matters is that of the backend which comes up, and the metrics matter only where
they are found.
-/

namespace VisionApi.Models

open Foundation

variable {Session : Type}

/-- A candidate of the chain can be served. -/
def usable {Loaded : Type} (attempt : InferenceBackend → Except String Loaded)
    (candidate : InferenceBackend) : Bool :=
  match attempt candidate with
  | .ok _ => true
  | .error _ => false

/-- A backend is usable exactly if its attempt succeeds. -/
theorem usable_iff {Loaded : Type} {attempt : InferenceBackend → Except String Loaded}
    {candidate : InferenceBackend} :
    usable attempt candidate = true ↔ Succeeds (attempt candidate) := by
  cases tried : attempt candidate with
  | ok loaded => simp [usable, tried]
  | error error => simp [usable, tried]

/-- The loop stops at the first candidate that can be served. -/
theorem firstUsable_eq_ok_iff {Loaded : Type} {attempt : InferenceBackend → Except String Loaded}
    {chain : List InferenceBackend} {failures : List String} {candidate : InferenceBackend}
    {loaded : Loaded} :
    firstUsable attempt chain failures = .ok (candidate, loaded) ↔
      chain.find? (usable attempt) = some candidate ∧ attempt candidate = .ok loaded := by
  induction chain generalizing failures with
  | nil => simp [firstUsable]
  | cons first chain ih =>
      cases tried : attempt first with
      | ok result =>
          have up : usable attempt first = true := usable_iff.mpr ⟨result, tried⟩
          simp only [firstUsable, tried, List.find?_cons_of_pos up, Except.ok.injEq,
            Prod.mk.injEq, Option.some.injEq]
          constructor
          · rintro ⟨rfl, rfl⟩
            exact ⟨rfl, tried⟩
          · rintro ⟨rfl, same⟩
            rw [tried] at same
            exact ⟨rfl, Except.ok.inj same⟩
      | error error =>
          have down : ¬usable attempt first = true := by simp [usable, tried]
          simp only [firstUsable, tried, List.find?_cons_of_neg down]
          exact ih

/-- An attempt that succeeds has used the resolved graph. -/
theorem attempt_ok {runtime : Runtime Session} {files : Files} {artifactsDir : Path}
    {version : String} {fileFor : InferenceBackend → Option String} {imageSize : ℤ}
    {outputNdim : ℕ} {candidate : InferenceBackend} {artifact : Path} {session : Session}
    {inputName : String}
    (loaded : attempt runtime files artifactsDir version fileFor imageSize outputNdim candidate =
      .ok (artifact, session, inputName)) :
    ∃ filename, fileFor candidate = some filename ∧
      artifact =
        resolveVersionedArtifact files (artifactsDir ++ ["onnx"]) filename version := by
  simp only [attempt] at loaded
  split at loaded
  · cases loaded
  · rename_i filename isFile
    refine ⟨filename, isFile, ?_⟩
    split at loaded
    · simp only [bind, Except.bind] at loaded
      split at loaded
      · cases loaded
      · split at loaded
        · cases loaded
        · cases loaded
          rfl
    · cases loaded

theorem readClassifierMetadata_ok {files : Files} {artifactsDir : Path} {version : String}
    {metadata : ClassifierMetadata}
    (loaded : readClassifierMetadata files artifactsDir version = .ok metadata) :
    resolveVersionedMetadata files artifactsDir "labels.json" version =
        some metadata.labelsPath ∧
      resolveVersionedMetadata files artifactsDir "metrics.json" version =
        metadata.metricsPath := by
  simp only [readClassifierMetadata] at loaded
  split at loaded
  · cases loaded
  · rename_i labelsPath isLabels
    split at loaded
    · cases loaded
    · split at loaded
      · rename_i noMetrics
        cases loaded
        exact ⟨isLabels, noMetrics⟩
      · rename_i metricsPath isMetrics
        split at loaded
        · cases loaded
        · cases loaded
          exact ⟨isLabels, isMetrics⟩

/-- What a loader returns and registers. -/
theorem loadLabelled_eq_ok_iff {service after : ModelService Session} {runtime : Runtime Session}
    {files : Files} {name version : String} {makeActive : Bool} {task : TaskType}
    {chain : List InferenceBackend} {fileFor : InferenceBackend → Option String}
    {reportsMetrics : Bool} {unavailable : String} {model : LoadedModel Session} :
    service.loadLabelled runtime files name version makeActive task chain fileFor reportsMetrics
        unavailable = .ok (model, after) ↔
      ∃ metadata candidate artifact session inputName,
        readClassifierMetadata files service.settings.artifactsDir version = .ok metadata ∧
        firstUsable (attempt runtime files service.settings.artifactsDir version fileFor
          metadata.imageSize 2) chain [] = .ok (candidate, artifact, session, inputName) ∧
        model =
          { name, version, task, session, inputName
            backend := candidate
            classNames := metadata.classNames
            wnids := metadata.wnids
            imageSize := metadata.imageSize
            artifactPath := artifact
            metrics := if reportsMetrics then metadata.metrics else []
            degradedFrom :=
              if candidate = service.settings.inferenceBackend then none
              else some service.settings.inferenceBackend
            labelsPath := metadata.labelsPath
            metricsPath := if reportsMetrics then metadata.metricsPath else none } ∧
        after = service.register model makeActive := by
  simp only [ModelService.loadLabelled, bind, Except.bind]
  cases readClassifierMetadata files service.settings.artifactsDir version with
  | error error => simp
  | ok metadata =>
      simp only [Except.ok.injEq, exists_and_left, exists_eq_left']
      cases firstUsable (attempt runtime files service.settings.artifactsDir version fileFor
          metadata.imageSize 2) chain [] with
      | error failures => simp
      | ok loaded =>
          rcases loaded with ⟨candidate, artifact, session, inputName⟩
          simp only [Except.ok.injEq, Prod.mk.injEq]
          constructor
          · rintro ⟨rfl, rfl⟩
            exact ⟨candidate, artifact, session, inputName, ⟨rfl, rfl, rfl, rfl⟩, rfl, rfl⟩
          · rintro ⟨_, _, _, _, ⟨rfl, rfl, rfl, rfl⟩, rfl, rfl⟩
            exact ⟨rfl, rfl⟩

/-! ## One layout -/

/-- The graph a model runs, the labels it names classes from and the metrics it reports lie in
one layout. -/
def SameLayout (settings : Settings) (model : LoadedModel Session) : Prop :=
  ∃ layout : Layout,
    (∃ filename, model.artifactPath =
      layout.graph settings.artifactsDir model.version filename) ∧
    model.labelsPath = layout.metadata settings.artifactsDir model.version "labels.json" ∧
    ∀ path, model.metricsPath = some path →
      path = layout.metadata settings.artifactsDir model.version "metrics.json"

/-- The versioned directory holds a graph exactly when it holds the labels, and exactly when it
holds the metrics if metrics are reported from anywhere. -/
def LayoutsAgree (files : Files) (artifactsDir : Path) (version filename : String)
    (reportsMetrics : Bool) : Prop :=
  let labels := files.present (Layout.versioned.metadata artifactsDir version "labels.json")
  files.present (Layout.versioned.graph artifactsDir version filename) = labels ∧
    (reportsMetrics →
      (resolveVersionedMetadata files artifactsDir "metrics.json" version).isSome →
        files.present (Layout.versioned.metadata artifactsDir version "metrics.json") = labels)

theorem Layout.ofVersioned_injective : Function.Injective ofVersioned := by
  intro left right same
  cases left <;> cases right <;> first | rfl | cases same

theorem Layout.graph_layout {artifactsDir : Path} {version left right : String}
    {first second : Layout}
    (same : first.graph artifactsDir version left = second.graph artifactsDir version right) :
    first = second := by
  cases first with
  | versioned =>
      cases second with
      | versioned => rfl
      | flat => simp [graph] at same
  | flat =>
      cases second with
      | versioned => simp [graph] at same
      | flat => rfl

/-- The three layouts the default version resolves to agree with each other. -/
theorem sameLayout_default_iff {settings : Settings} {files : Files} {filename : String}
    {model : LoadedModel Session} {metadata : ClassifierMetadata} {reportsMetrics : Bool}
    (isDefault : model.version = defaultVersion)
    (read : readClassifierMetadata files settings.artifactsDir defaultVersion = .ok metadata)
    (artifact : model.artifactPath =
      resolveVersionedArtifact files (settings.artifactsDir ++ ["onnx"]) filename defaultVersion)
    (labels : model.labelsPath = metadata.labelsPath)
    (metrics : model.metricsPath = if reportsMetrics then metadata.metricsPath else none) :
    SameLayout settings model ↔
      LayoutsAgree files settings.artifactsDir defaultVersion filename reportsMetrics := by
  rcases readClassifierMetadata_ok read with ⟨labelsResolved, metricsResolved⟩
  have labelsLayout := resolveVersionedMetadata_default labelsResolved
  rw [resolveVersionedArtifact_default] at artifact
  simp only [SameLayout, LayoutsAgree, isDefault, artifact, labels, metrics, metricsResolved]
  constructor
  · rintro ⟨layout, ⟨other, sameGraph⟩, sameLabels, sameMetrics⟩
    have graphLayout := Layout.graph_layout sameGraph
    rw [labelsLayout] at sameLabels
    have labelLayout := Layout.metadata_injective sameLabels
    refine ⟨Layout.ofVersioned_injective (graphLayout.trans labelLayout.symm), ?_⟩
    intro reports present
    rcases Option.isSome_iff_exists.mp present with ⟨path, isPath⟩
    have metricsLayout := resolveVersionedMetadata_default (metricsResolved.trans isPath)
    have sameMetrics := sameMetrics path (by rw [if_pos reports, isPath])
    rw [metricsLayout] at sameMetrics
    have metricLayout := Layout.metadata_injective sameMetrics
    exact Layout.ofVersioned_injective (metricLayout.trans labelLayout.symm)
  · rintro ⟨sameGraph, sameMetrics⟩
    refine ⟨_, ⟨filename, congrArg (fun present => (Layout.ofVersioned present).graph
      settings.artifactsDir defaultVersion filename) sameGraph⟩, labelsLayout, ?_⟩
    intro path isPath
    cases reportsMetrics with
    | false => simp at isPath
    | true =>
        simp only [if_true] at isPath
        have metricsLayout := resolveVersionedMetadata_default (metricsResolved.trans isPath)
        rw [metricsLayout, sameMetrics rfl (by simp [isPath])]

/-- A pinned version keeps everything in its own directory. -/
theorem sameLayout_of_ne {settings : Settings} {files : Files} {filename : String}
    {model : LoadedModel Session} {metadata : ClassifierMetadata} {reportsMetrics : Bool}
    (pinned : model.version ≠ defaultVersion)
    (read : readClassifierMetadata files settings.artifactsDir model.version = .ok metadata)
    (artifact : model.artifactPath =
      resolveVersionedArtifact files (settings.artifactsDir ++ ["onnx"]) filename model.version)
    (labels : model.labelsPath = metadata.labelsPath)
    (metrics : model.metricsPath = if reportsMetrics then metadata.metricsPath else none) :
    SameLayout settings model := by
  rcases readClassifierMetadata_ok read with ⟨labelsResolved, metricsResolved⟩
  rw [resolveVersionedArtifact_of_ne pinned] at artifact
  refine ⟨.versioned, ⟨filename, artifact⟩, ?_, ?_⟩
  · rw [labels]
    exact resolveVersionedMetadata_of_ne pinned labelsResolved
  · intro path isPath
    rw [metrics] at isPath
    split at isPath
    · exact resolveVersionedMetadata_of_ne pinned (metricsResolved.trans isPath)
    · cases isPath

/-- A loader keeps to one layout exactly when the default version's files agree for the first
candidate that comes up. -/
theorem loadLabelled_sameLayout_iff (service : ModelService Session) (runtime : Runtime Session)
    (files : Files) (name version : String) (makeActive : Bool) (task : TaskType)
    (chain : List InferenceBackend) (fileFor : InferenceBackend → Option String)
    (reportsMetrics : Bool) (unavailable : String) :
    (∀ model after,
      service.loadLabelled runtime files name version makeActive task chain fileFor
        reportsMetrics unavailable = .ok (model, after) → SameLayout service.settings model) ↔
      (version = defaultVersion → ∀ metadata candidate filename,
        readClassifierMetadata files service.settings.artifactsDir version = .ok metadata →
        chain.find? (usable (attempt runtime files service.settings.artifactsDir version fileFor
          metadata.imageSize 2)) = some candidate →
        fileFor candidate = some filename →
        LayoutsAgree files service.settings.artifactsDir version filename reportsMetrics) := by
  constructor
  · rintro always rfl metadata candidate filename read first isFile
    rcases usable_iff.mp (List.find?_some first) with ⟨⟨artifact, session, inputName⟩, tried⟩
    have loop : firstUsable (attempt runtime files service.settings.artifactsDir defaultVersion
        fileFor metadata.imageSize 2) chain [] = .ok (candidate, artifact, session, inputName) :=
      firstUsable_eq_ok_iff.mpr ⟨first, tried⟩
    have same := always _ _ (loadLabelled_eq_ok_iff.mpr
      ⟨metadata, candidate, artifact, session, inputName, read, loop, rfl, rfl⟩)
    rcases attempt_ok tried with ⟨other, isOther, resolved⟩
    rw [isFile] at isOther
    cases isOther
    exact (sameLayout_default_iff rfl read resolved rfl rfl).mp same
  · intro agree model after loaded
    rcases loadLabelled_eq_ok_iff.mp loaded with
      ⟨metadata, candidate, artifact, session, inputName, read, loop, rfl, rfl⟩
    rcases firstUsable_eq_ok_iff.mp loop with ⟨first, tried⟩
    rcases attempt_ok tried with ⟨filename, isFile, resolved⟩
    by_cases isDefault : version = defaultVersion
    · subst isDefault
      exact (sameLayout_default_iff rfl read resolved rfl rfl).mpr
        (agree rfl metadata candidate filename read first isFile)
    · exact sameLayout_of_ne isDefault read resolved rfl rfl

/-- Both labelled loaders keep to one layout exactly when the version is pinned or the files of
the default version agree. -/
theorem load_sameLayout_iff (service : ModelService Session) (runtime : Runtime Session)
    (files : Files) (name version : String) (makeActive : Bool) :
    ((∀ model after,
        service.loadClassifier runtime files name version makeActive = .ok (model, after) →
          SameLayout service.settings model) ↔
      (version = defaultVersion → ∀ metadata candidate filename,
        readClassifierMetadata files service.settings.artifactsDir version = .ok metadata →
        service.settings.chain.find? (usable (attempt runtime files service.settings.artifactsDir
          version classifierFile metadata.imageSize 2)) = some candidate →
        classifierFile candidate = some filename →
        LayoutsAgree files service.settings.artifactsDir version filename true)) ∧
    ((∀ model after,
        service.loadEmbedder runtime files name version makeActive = .ok (model, after) →
          SameLayout service.settings model) ↔
      (version = defaultVersion → ∀ metadata candidate filename,
        readClassifierMetadata files service.settings.artifactsDir version = .ok metadata →
        service.settings.chainWithoutInt8.find? (usable (attempt runtime files
          service.settings.artifactsDir version embedderFile metadata.imageSize 2)) =
            some candidate →
        embedderFile candidate = some filename →
        LayoutsAgree files service.settings.artifactsDir version filename false)) :=
  ⟨loadLabelled_sameLayout_iff .., loadLabelled_sameLayout_iff ..⟩

/-- The given artefacts; the labels name one class. -/
def smallFiles (present : List Path) : Files where
  present := fun path => present.elem path
  labels := fun _ => .ok ⟨.texts ["goldfish"], .texts ["n01443537"], 224⟩
  metrics := fun _ => .ok []

/-- A runtime on the CPU, with outputs of one shape. -/
def smallRuntime (shape : List ℕ) : Runtime Unit where
  available := ["CPUExecutionProvider"]
  create := fun _ _ => .ok ()
  providers := fun _ => ["CPUExecutionProvider"]
  inputName := fun _ => "input"
  warmup := fun _ _ _ => .ok [shape]

/-- The versioned graph of the default version is served with the labels of the flat layout. -/
theorem loadClassifier_mixes_layouts :
    ¬∀ (service : ModelService Unit) (runtime : Runtime Unit) (files : Files) (version : String)
      (model : LoadedModel Unit) (after : ModelService Unit),
      service.loadClassifier runtime files classifierName version true = .ok (model, after) →
        SameLayout service.settings model := by
  intro always
  have loads : ∃ model after,
      ModelService.loadClassifier ⟨⟨[], .onnx, true⟩, [], []⟩ (smallRuntime [1, 200])
        (smallFiles [["labels.json"], ["onnx", "v1", "classifier_fp32.onnx"]]) classifierName "v1"
        true = .ok (model, after) ∧ model.version = "v1" ∧
      model.artifactPath = ["onnx", "v1", "classifier_fp32.onnx"] ∧
      model.labelsPath = ["labels.json"] := ⟨_, _, rfl, rfl, rfl, rfl⟩
  rcases loads with ⟨model, after, loaded, version, artifact, labelsPath⟩
  rcases always _ _ _ "v1" model after loaded with ⟨layout, ⟨filename, graph⟩, labels, _⟩
  rw [artifact] at graph
  rw [labelsPath] at labels
  cases layout with
  | versioned => simp [Layout.metadata] at labels
  | flat => simp [Layout.graph] at graph

end VisionApi.Models
