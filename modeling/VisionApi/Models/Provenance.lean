import VisionApi.Models.Detector
import VisionApi.Models.Registry

/-!
# The reported backend

A model carries the backend it was loaded as.  The label is honest when the
graph and the provider in use are the ones the backend stands for.

ONNX Runtime selects the providers of a session, and the loader accepts a session only
if the one in use satisfies the backend.  For three backends a usable attempt is
therefore an honest one: `attempt_onProvider` follows an attempt to the provider that
it has checked.  The backend `torch` has no graph of its own, and its attempts are made
with the FP32 graph on whatever provider comes first.

A model that says `torch` is thus never honest, and a load registers one exactly if it is
the first usable backend of the chain.  As `torch` stands only at the head of a chain,
and only when it is configured, this is a condition on the settings, the files and the
runtime.
-/

namespace VisionApi.Models

open Foundation

variable {Session : Type}

/-! ## What a label promises -/

/-- The precision of a graph. -/
inductive Precision where
  | fp32
  | int8
deriving DecidableEq

/-- The graph of a task in a precision. -/
def TaskType.graph : TaskType → Precision → String
  | .classification, .fp32 => "classifier_fp32.onnx"
  | .classification, .int8 => "classifier_int8.onnx"
  | .detection, .fp32 => "detector_fp32.onnx"
  | .detection, .int8 => "detector_int8.onnx"
  | .embedding, .fp32 => "embedder_fp32.onnx"
  | .embedding, .int8 => "embedder_int8.onnx"

/-- The model runs a graph of its task in the given precision. -/
def LoadedModel.RunsGraph (model : LoadedModel Session) (settings : Settings)
    (precision : Precision) : Prop :=
  ∃ layout : Layout, model.artifactPath =
    layout.graph settings.artifactsDir model.version (model.task.graph precision)

/-- The provider a session runs on. -/
def Runtime.providerInUse (runtime : Runtime Session) (session : Session) : Option String :=
  (runtime.providers session).head?

/-- What a backend stands for.  A session is always one of ONNX Runtime. -/
def LoadedModel.RunsAs (model : LoadedModel Session) (settings : Settings)
    (runtime : Runtime Session) : InferenceBackend → Prop
  | .tensorrt =>
      model.RunsGraph settings .fp32 ∧
        runtime.providerInUse model.session = some "TensorrtExecutionProvider"
  | .onnx =>
      model.RunsGraph settings .fp32 ∧
        (runtime.providerInUse model.session = some "CUDAExecutionProvider" ∨
          runtime.providerInUse model.session = some "CPUExecutionProvider")
  | .onnxInt8 =>
      model.RunsGraph settings .int8 ∧
        runtime.providerInUse model.session = some "CPUExecutionProvider"
  | .torch => False

/-- The model runs as the backend it reports, and reports the configured one as given up exactly
when it runs as another. -/
structure LoadedModel.Honest (model : LoadedModel Session) (settings : Settings)
    (runtime : Runtime Session) : Prop where
  backend : model.RunsAs settings runtime model.backend
  degradedFrom : model.degradedFrom = some settings.inferenceBackend ↔
    model.backend ≠ settings.inferenceBackend
  notDegraded : model.degradedFrom = none ↔ model.backend = settings.inferenceBackend

/-- A returned model is registered, and honest. -/
def RegistersHonest (service : ModelService Session) (runtime : Runtime Session)
    (outcome : Except LoadError (LoadedModel Session × ModelService Session)) : Prop :=
  ∀ model after, outcome = .ok (model, after) →
    after.models.get? model.key = some model ∧ model.Honest service.settings runtime

/-- The provider in use is one that satisfies the backend. -/
def OnProvider (runtime : Runtime Session) (session : Session) (backend : InferenceBackend) :
    Prop :=
  ∃ selected ∈ satisfyingProviders backend, runtime.providerInUse session = some selected

/-! ## One candidate -/

section Candidate

variable {runtime : Runtime Session} {artifact : Path} {session : Session} {inputName : String}
  {backend : InferenceBackend}

/-- A session is created exactly if the runtime creates it with the usable providers. -/
theorem createSession_ok_iff :
    createSession runtime artifact backend = .ok (session, inputName) ↔
      runtime.create artifact (usableProviders runtime (providerForBackend backend)) =
          .ok session ∧
        OnProvider runtime session backend ∧ inputName = runtime.inputName session := by
  simp only [createSession, bind_ok_iff, OnProvider, Runtime.providerInUse]
  constructor
  · rintro ⟨created, isCreated, returned⟩
    split at returned
    · cases returned
    · rename_i selected rest providers
      split at returned
      · rename_i satisfies
        cases returned
        exact ⟨isCreated, ⟨selected, satisfies, by rw [providers]; rfl⟩, rfl⟩
      · cases returned
  · rintro ⟨isCreated, ⟨selected, satisfies, inUse⟩, rfl⟩
    refine ⟨session, isCreated, ?_⟩
    rcases List.head?_eq_some_iff.mp inUse with ⟨rest, providers⟩
    simp only [providers, if_pos satisfies]

theorem warmup_ok_iff {imageSize : ℤ} {outputNdim : ℕ} :
    warmup runtime session inputName imageSize backend outputNdim = .ok () ↔
      ∃ output rest, runtime.warmup session inputName imageSize = .ok (output :: rest) ∧
        output.length = outputNdim := by
  simp only [warmup, bind_ok_iff]
  constructor
  · rintro ⟨outputs, answered, returned⟩
    cases outputs with
    | nil => cases returned
    | cons output rest =>
        simp only at returned
        split at returned
        · rename_i shaped
          exact ⟨output, rest, answered, shaped⟩
        · cases returned
  · rintro ⟨output, rest, answered, shaped⟩
    refine ⟨output :: rest, answered, ?_⟩
    simp only [if_pos shaped]

/-- The session of a graph comes up on a backend as ONNX Runtime sees it, and answers. -/
def Serves (runtime : Runtime Session) (artifact : Path) (backend : InferenceBackend)
    (imageSize : ℤ) (outputNdim : ℕ) : Prop :=
  ∃ session,
    runtime.create artifact (usableProviders runtime (providerForBackend backend)) =
        .ok session ∧
      OnProvider runtime session backend ∧
      ∃ output rest,
        runtime.warmup session (runtime.inputName session) imageSize = .ok (output :: rest) ∧
          output.length = outputNdim

/-- A graph serves exactly if a session comes up and is warmed up. -/
theorem serves_iff {imageSize : ℤ} {outputNdim : ℕ} :
    Serves runtime artifact backend imageSize outputNdim ↔
      ∃ session inputName, createSession runtime artifact backend = .ok (session, inputName) ∧
        warmup runtime session inputName imageSize backend outputNdim = .ok () := by
  simp only [Serves, createSession_ok_iff, warmup_ok_iff]
  constructor
  · rintro ⟨session, created, satisfies, answered⟩
    exact ⟨session, _, ⟨created, satisfies, rfl⟩, answered⟩
  · rintro ⟨session, _, ⟨created, satisfies, rfl⟩, answered⟩
    exact ⟨session, created, satisfies, answered⟩

end Candidate

section Candidates

variable {runtime : Runtime Session} {files : Files} {artifactsDir : Path} {version : String}
  {candidate : InferenceBackend} {artifact : Path} {session : Session} {inputName : String}

/-- An attempt that succeeds runs on a provider that satisfies its backend. -/
theorem attempt_onProvider {fileFor : InferenceBackend → Option String} {imageSize : ℤ}
    {outputNdim : ℕ}
    (loaded : attempt runtime files artifactsDir version fileFor imageSize outputNdim candidate =
      .ok (artifact, session, inputName)) : OnProvider runtime session candidate := by
  simp only [attempt] at loaded
  split at loaded
  · cases loaded
  · split at loaded
    · simp only [bind_ok_iff] at loaded
      rcases loaded with ⟨⟨created, input⟩, up, ⟨⟩, _, returned⟩
      cases returned
      exact (createSession_ok_iff.mp up).2.1
    · cases loaded

theorem attemptDetector_ok {imageSize : Except String ℤ} {size : ℤ}
    (loaded : attemptDetector runtime files artifactsDir version imageSize candidate =
      .ok (artifact, session, inputName, size)) :
    artifact = resolveVersionedArtifact files (artifactsDir ++ ["onnx"]) (detectorFile candidate)
        version ∧ OnProvider runtime session candidate := by
  simp only [attemptDetector] at loaded
  split at loaded
  · simp only [bind_ok_iff] at loaded
    rcases loaded with ⟨⟨created, input⟩, up, read, _, ⟨⟩, _, returned⟩
    cases returned
    exact ⟨rfl, (createSession_ok_iff.mp up).2.1⟩
  · cases loaded

/-- The graph is there, and its session comes up on a backend and answers a warm-up run. -/
def GraphServes (runtime : Runtime Session) (files : Files) (artifactsDir : Path)
    (version filename : String) (backend : InferenceBackend) (imageSize : ℤ) (outputNdim : ℕ) :
    Prop :=
  let artifact := resolveVersionedArtifact files (artifactsDir ++ ["onnx"]) filename version
  files.present artifact ∧ Serves runtime artifact backend imageSize outputNdim

/-- A backend of the classifier is usable exactly if its graph serves. -/
theorem usable_attempt_iff {fileFor : InferenceBackend → Option String} {imageSize : ℤ}
    {outputNdim : ℕ} :
    usable (attempt runtime files artifactsDir version fileFor imageSize outputNdim) candidate =
        true ↔
      ∃ filename, fileFor candidate = some filename ∧
        GraphServes runtime files artifactsDir version filename candidate imageSize
          outputNdim := by
  rw [usable_iff]
  simp only [attempt, GraphServes, serves_iff]
  cases fileFor candidate with
  | none => simp
  | some filename =>
      simp only [Option.some.injEq, exists_eq_left']
      split
      · rename_i present
        simp only [present, true_and, Succeeds, bind_ok_iff]
        constructor
        · rintro ⟨_, ⟨session, inputName⟩, up, _, answered, _⟩
          exact ⟨session, inputName, up, answered⟩
        · rintro ⟨session, inputName, up, answered⟩
          exact ⟨_, ⟨session, inputName⟩, up, (), answered, rfl⟩
      · rename_i missing
        simp [missing]

theorem usable_attemptDetector_iff {imageSize : Except String ℤ} :
    usable (attemptDetector runtime files artifactsDir version imageSize) candidate = true ↔
      ∃ size, imageSize = .ok size ∧
        GraphServes runtime files artifactsDir version (detectorFile candidate) candidate size
          3 := by
  rw [usable_iff]
  simp only [attemptDetector, GraphServes, serves_iff]
  split
  · rename_i present
    simp only [present, true_and, Succeeds, bind_ok_iff]
    constructor
    · rintro ⟨_, ⟨session, inputName⟩, up, size, read, _, answered, _⟩
      exact ⟨size, read, session, inputName, up, answered⟩
    · rintro ⟨size, read, session, inputName, up, answered⟩
      exact ⟨_, ⟨session, inputName⟩, up, size, read, (), answered, rfl⟩
  · rename_i missing
    simp [missing]

end Candidates

/-! ## Honest labels -/

/-- The precision a backend other than TORCH stands for. -/
def InferenceBackend.precision (backend : InferenceBackend) : Precision :=
  if backend = .onnxInt8 then .int8 else .fp32

theorem resolveVersionedArtifact_layout (files : Files) (artifactsDir : Path)
    (filename version : String) : ∃ layout : Layout,
      resolveVersionedArtifact files (artifactsDir ++ ["onnx"]) filename version =
        layout.graph artifactsDir version filename := by
  by_cases isDefault : version = defaultVersion
  · subst isDefault
    exact ⟨_, resolveVersionedArtifact_default⟩
  · exact ⟨.versioned, resolveVersionedArtifact_of_ne isDefault⟩

/-- A model on a provider that satisfies its backend, running the graph of the backend's
precision, is honest unless it was loaded as TORCH. -/
theorem honest_iff {settings : Settings} {runtime : Runtime Session} {files : Files}
    {model : LoadedModel Session}
    (artifact : model.artifactPath = resolveVersionedArtifact files
      (settings.artifactsDir ++ ["onnx"]) (model.task.graph model.backend.precision)
      model.version)
    (onProvider : OnProvider runtime model.session model.backend)
    (degraded : model.degradedFrom =
      if model.backend = settings.inferenceBackend then none
      else some settings.inferenceBackend) :
    model.Honest settings runtime ↔ model.backend ≠ .torch := by
  constructor
  · rintro ⟨runsAs, -, -⟩ isTorch
    rw [isTorch] at runsAs
    exact runsAs
  · intro notTorch
    have runsGraph : model.RunsGraph settings model.backend.precision := by
      rcases resolveVersionedArtifact_layout files settings.artifactsDir
        (model.task.graph model.backend.precision) model.version with ⟨layout, resolved⟩
      exact ⟨layout, artifact.trans resolved⟩
    rcases onProvider with ⟨selected, satisfies, inUse⟩
    constructor
    · cases backend : model.backend with
      | torch => exact absurd backend notTorch
      | onnx =>
          rw [backend] at runsGraph satisfies
          simp only [satisfyingProviders, List.mem_cons, List.not_mem_nil, or_false] at satisfies
          rcases satisfies with rfl | rfl
          · exact ⟨runsGraph, .inr inUse⟩
          · exact ⟨runsGraph, .inl inUse⟩
      | onnxInt8 =>
          rw [backend] at runsGraph satisfies
          simp only [satisfyingProviders, List.mem_singleton] at satisfies
          subst satisfies
          exact ⟨runsGraph, inUse⟩
      | tensorrt =>
          rw [backend] at runsGraph satisfies
          simp only [satisfyingProviders, List.mem_singleton] at satisfies
          subst satisfies
          exact ⟨runsGraph, inUse⟩
    · rw [degraded]
      simp
    · rw [degraded]
      simp

/-! ## The three loaders -/

theorem configured_of_torch_mem {settings : Settings}
    (tried : InferenceBackend.torch ∈ settings.chain) : settings.inferenceBackend = .torch := by
  simp only [Settings.chain] at tried
  split at tried
  · cases configured : settings.inferenceBackend with
    | torch => rfl
    | onnx | onnxInt8 | tensorrt => simp [configured, fallbackChain] at tried
  · exact (List.mem_singleton.mp tried).symm

theorem chain_of_torch {settings : Settings} (configured : settings.inferenceBackend = .torch) :
    ∃ rest, settings.chain = .torch :: rest := by
  simp only [Settings.chain, configured, fallbackChain]
  split
  · exact ⟨_, rfl⟩
  · exact ⟨_, rfl⟩

/-- TORCH is tried only where it is configured, and then first. -/
theorem find?_chain_eq_torch_iff (settings : Settings) (usable : InferenceBackend → Bool) :
    settings.chain.find? usable = some .torch ↔
      settings.inferenceBackend = .torch ∧ usable .torch = true := by
  constructor
  · intro first
    exact ⟨configured_of_torch_mem (List.mem_of_find?_eq_some first), List.find?_some first⟩
  · rintro ⟨configured, up⟩
    rcases chain_of_torch configured with ⟨rest, chain⟩
    rw [chain, List.find?_cons_of_pos up]

theorem find?_chainWithoutInt8_eq_torch_iff (settings : Settings)
    (usable : InferenceBackend → Bool) :
    settings.chainWithoutInt8.find? usable = some .torch ↔
      settings.inferenceBackend = .torch ∧ usable .torch = true := by
  simp only [Settings.chainWithoutInt8]
  split
  · constructor
    · intro first
      have tried := (List.mem_filter.mp (List.mem_of_find?_eq_some first)).1
      exact ⟨configured_of_torch_mem tried, List.find?_some first⟩
    · rintro ⟨configured, up⟩
      rcases chain_of_torch configured with ⟨rest, chain⟩
      rw [chain, List.filter_cons_of_pos (by decide), List.find?_cons_of_pos up]
  · exact find?_chain_eq_torch_iff settings usable

/-- A loader of labelled models registers honest labels exactly when TORCH does not come up. -/
theorem loadLabelled_registersHonest_iff (service : ModelService Session)
    (runtime : Runtime Session) (files : Files) (name version : String) (makeActive : Bool)
    (task : TaskType) (chain : List InferenceBackend)
    (fileFor : InferenceBackend → Option String) (reportsMetrics : Bool) (unavailable : String)
    (ofTask : ∀ candidate filename, fileFor candidate = some filename →
      filename = task.graph candidate.precision) :
    RegistersHonest service runtime (service.loadLabelled runtime files name version makeActive
        task chain fileFor reportsMetrics unavailable) ↔
      ¬∃ metadata,
        readClassifierMetadata files service.settings.artifactsDir version = .ok metadata ∧
        chain.find? (usable (attempt runtime files service.settings.artifactsDir version fileFor
          metadata.imageSize 2)) = some .torch := by
  constructor
  · rintro honest ⟨metadata, read, first⟩
    rcases usable_iff.mp (List.find?_some first) with ⟨⟨artifact, session, inputName⟩, tried⟩
    have loop : firstUsable (attempt runtime files service.settings.artifactsDir version fileFor
        metadata.imageSize 2) chain [] = .ok (.torch, artifact, session, inputName) :=
      firstUsable_eq_ok_iff.mpr ⟨first, tried⟩
    have registered := honest _ _ (loadLabelled_eq_ok_iff.mpr
      ⟨metadata, .torch, artifact, session, inputName, read, loop, rfl, rfl⟩)
    exact registered.2.backend
  · intro noTorch model after loaded
    rcases loadLabelled_eq_ok_iff.mp loaded with
      ⟨metadata, candidate, artifact, session, inputName, read, loop, rfl, rfl⟩
    rcases firstUsable_eq_ok_iff.mp loop with ⟨first, tried⟩
    rcases attempt_ok tried with ⟨filename, isFile, resolved⟩
    refine ⟨get?_register_self _ _ _, ?_⟩
    rw [ofTask candidate filename isFile] at resolved
    apply (honest_iff resolved (attempt_onProvider tried) rfl).mpr
    rintro rfl
    exact noTorch ⟨metadata, read, first⟩

theorem loadDetector_registersHonest_iff (service : ModelService Session)
    (runtime : Runtime Session) (files : DetectorFiles) (name version : String)
    (makeActive : Bool) :
    RegistersHonest service runtime
        (service.loadDetector runtime files name version makeActive) ↔
      ¬∃ labelsPath labels,
        resolveVersionedMetadata files.toFiles service.settings.artifactsDir
          "detection_labels.json" version = some labelsPath ∧
        files.detectionLabels labelsPath = .ok labels ∧
        service.settings.chainWithoutInt8.find? (usable (attemptDetector runtime files.toFiles
          service.settings.artifactsDir version labels.imageSize)) = some .torch := by
  constructor
  · rintro honest ⟨labelsPath, labels, isPath, read, first⟩
    rcases usable_iff.mp (List.find?_some first) with
      ⟨⟨artifact, session, inputName, imageSize⟩, tried⟩
    have loop : firstUsable (attemptDetector runtime files.toFiles service.settings.artifactsDir
        version labels.imageSize) service.settings.chainWithoutInt8 [] =
          .ok (.torch, artifact, session, inputName, imageSize) :=
      firstUsable_eq_ok_iff.mpr ⟨first, tried⟩
    have registered := honest _ _ (loadDetector_eq_ok_iff.mpr
      ⟨labelsPath, labels, .torch, artifact, session, inputName, imageSize, isPath, read, loop,
        rfl, rfl⟩)
    exact registered.2.backend
  · intro noTorch model after loaded
    rcases loadDetector_eq_ok_iff.mp loaded with
      ⟨labelsPath, labels, candidate, artifact, session, inputName, imageSize, isPath, read, loop,
        rfl, rfl⟩
    rcases firstUsable_eq_ok_iff.mp loop with ⟨first, tried⟩
    rcases attemptDetector_ok tried with ⟨resolved, onProvider⟩
    refine ⟨get?_register_self _ _ _, ?_⟩
    have ofTask : detectorFile candidate = TaskType.detection.graph candidate.precision := by
      simp only [detectorFile, InferenceBackend.precision]
      split <;> rfl
    rw [ofTask] at resolved
    apply (honest_iff resolved onProvider rfl).mpr
    rintro rfl
    exact noTorch ⟨labelsPath, labels, isPath, read, first⟩

/-- The classifier's label is always honest.  The other two are honest exactly when TORCH is not
configured or its FP32 graph does not come up on the CPU. -/
theorem load_registersHonest_iff (service : ModelService Session) (runtime : Runtime Session)
    (files : DetectorFiles) (name version : String) (makeActive : Bool) :
    RegistersHonest service runtime
        (service.loadClassifier runtime files.toFiles name version makeActive) ∧
    (RegistersHonest service runtime
        (service.loadEmbedder runtime files.toFiles name version makeActive) ↔
      ¬(service.settings.inferenceBackend = .torch ∧ ∃ metadata,
        readClassifierMetadata files.toFiles service.settings.artifactsDir version =
            .ok metadata ∧
          GraphServes runtime files.toFiles service.settings.artifactsDir version
            "embedder_fp32.onnx" .torch metadata.imageSize 2)) ∧
    (RegistersHonest service runtime
        (service.loadDetector runtime files name version makeActive) ↔
      ¬(service.settings.inferenceBackend = .torch ∧ ∃ labelsPath labels imageSize,
        resolveVersionedMetadata files.toFiles service.settings.artifactsDir
            "detection_labels.json" version = some labelsPath ∧
          files.detectionLabels labelsPath = .ok labels ∧ labels.imageSize = .ok imageSize ∧
          GraphServes runtime files.toFiles service.settings.artifactsDir version
            "detector_fp32.onnx" .torch imageSize 3)) := by
  refine ⟨?_, ?_, ?_⟩
  · apply (loadLabelled_registersHonest_iff service runtime files.toFiles name version makeActive
      _ _ _ _ _ ?_).mpr
    · rintro ⟨metadata, read, first⟩
      rcases usable_attempt_iff.mp (List.find?_some first) with ⟨filename, ⟨⟩, _⟩
    · intro candidate filename isFile
      cases candidate with
      | torch => cases isFile
      | onnx | onnxInt8 | tensorrt =>
          cases isFile
          rfl
  · rw [ModelService.loadEmbedder, loadLabelled_registersHonest_iff]
    · simp only [find?_chainWithoutInt8_eq_torch_iff, usable_attempt_iff]
      apply not_congr
      constructor
      · rintro ⟨metadata, read, configured, filename, isFile, serves⟩
        cases isFile
        exact ⟨configured, metadata, read, serves⟩
      · rintro ⟨configured, metadata, read, serves⟩
        exact ⟨metadata, read, configured, _, rfl, serves⟩
    · intro candidate filename isFile
      cases candidate with
      | torch | onnx | onnxInt8 | tensorrt =>
          cases isFile
          rfl
  · rw [loadDetector_registersHonest_iff]
    simp only [find?_chainWithoutInt8_eq_torch_iff, usable_attemptDetector_iff]
    apply not_congr
    constructor
    · rintro ⟨labelsPath, labels, isPath, read, configured, imageSize, isSize, serves⟩
      exact ⟨configured, labelsPath, labels, imageSize, isPath, read, isSize, serves⟩
    · rintro ⟨configured, labelsPath, labels, imageSize, isPath, read, isSize, serves⟩
      exact ⟨labelsPath, labels, isPath, read, configured, imageSize, isSize, serves⟩

/-- The embedder of a service configured for TORCH runs on ONNX Runtime under that label. -/
theorem loadEmbedder_reports_torch :
    ¬∀ (service : ModelService Unit) (runtime : Runtime Unit) (files : Files) (version : String),
      RegistersHonest service runtime
        (service.loadEmbedder runtime files embedderName version true) := by
  intro always
  have loads : ∃ model after,
      ModelService.loadEmbedder ⟨⟨[], .torch, true⟩, [], []⟩ (smallRuntime [1, 512])
        (smallFiles [["labels.json"], ["onnx", "embedder_fp32.onnx"]]) embedderName "v1"
        true = .ok (model, after) ∧ model.backend = .torch := ⟨_, _, rfl, rfl⟩
  rcases loads with ⟨model, after, loaded, reported⟩
  have runsAs := (always _ _ _ "v1" model after loaded).2.backend
  rw [reported] at runsAs
  exact runsAs

end VisionApi.Models
