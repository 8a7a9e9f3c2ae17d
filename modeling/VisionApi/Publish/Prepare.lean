import VisionApi.Foundation.Run
import VisionApi.Foundation.Store
import VisionApi.Models.Artifacts

/-!
# Publishing training runs

`prepare_artifacts.main` writes the labels and metrics of a run on every
invocation, but each of the two classifier graphs only under conditions of its
own.  A published file is represented by the run it was produced from; an
invocation that raises has performed a prefix of its writes.  Different version
strings may name one directory, so the directory a path names is a parameter.

A version is consistent if the files of it that exist are all from one run.  An
invocation that publishes a classifier keeps this exactly if it leaves no file of the
version from another run behind (`LeavesOwn`, `consistent_main_iff`).  What it may leave
are the graphs: `fp32_kept_iff` and `int8_kept_iff` say when an invocation that returned
has not written them, in terms of its flags.

Over a run of invocations the condition is asked of each one before it starts, and the
result follows by induction on the run.
-/

namespace VisionApi.Publish

open Foundation Models

/-- A run directory with its `config.json`. -/
structure TrainingRun where
  directory : Path
  task : String
  hasLabels : Bool
  hasMetrics : Bool
deriving DecidableEq

/-- The files of the classifier that `main` publishes. -/
inductive ArtefactFile where
  | labels
  | metrics
  | fp32
  | int8
deriving DecidableEq

/-- The options of the command line. -/
structure Arguments where
  run : TrainingRun
  version : String
  force : Bool
  skipInt8 : Bool

/-- One invocation.  `int8Written` says whether `_export_int8` wrote its file, `raisedAfter`
after how many writes the invocation raised, if it did. -/
structure Invocation extends Arguments where
  int8Written : Bool
  raisedAfter : Option ℕ

/-- The artefacts directory and the directory each path names. -/
structure Artifacts (Dir : Type) where
  root : Path
  resolve : Path → Dir

variable {Dir : Type}

namespace Artifacts

variable (artifacts : Artifacts Dir)

/-- The directory of the graphs of a version. -/
def onnxDir (version : String) : Dir :=
  if version = "v1" then artifacts.resolve (artifacts.root ++ ["onnx"])
  else artifacts.resolve (artifacts.root ++ ["onnx", version])

/-- The directory of the labels and metrics of a version. -/
def labelsDir (version : String) : Dir :=
  if version = "v1" then artifacts.resolve artifacts.root else artifacts.onnxDir version

/-- The two classifier graphs of a version. -/
def graphs (version : String) : List (Dir × ArtefactFile) :=
  [(artifacts.onnxDir version, .fp32), (artifacts.onnxDir version, .int8)]

/-- The files that belong to a version. -/
def filesOf (version : String) : List (Dir × ArtefactFile) :=
  artifacts.graphs version ++
    [(artifacts.labelsDir version, .labels), (artifacts.labelsDir version, .metrics)]

variable {artifacts} in
theorem mem_filesOf_of_graph {version : String} {graph : Dir × ArtefactFile}
    (isGraph : graph ∈ artifacts.graphs version) : graph ∈ artifacts.filesOf version :=
  List.mem_append_left _ isGraph

theorem fp32_mem_graphs (version : String) :
    (artifacts.onnxDir version, .fp32) ∈ artifacts.graphs version := by
  simp [graphs]

theorem int8_mem_graphs (version : String) :
    (artifacts.onnxDir version, .int8) ∈ artifacts.graphs version := by
  simp [graphs]

theorem labels_mem_filesOf (version : String) :
    (artifacts.labelsDir version, .labels) ∈ artifacts.filesOf version := by
  simp [filesOf]

end Artifacts

/-- The run each published file was produced from. -/
abbrev Published (Dir : Type) := Store (Dir × ArtefactFile) TrainingRun

section Main

variable [DecidableEq Dir] (artifacts : Artifacts Dir) (published : Published Dir)

/-- Whether the labels and metrics are published. -/
def publishSharedMetadata (arguments : Arguments) : Bool :=
  arguments.run.task = "classification" || arguments.version ≠ "v1"

/-- The copy of the labels, if the run has any. -/
def labelsWrites (arguments : Arguments) : List ((Dir × ArtefactFile) × TrainingRun) :=
  if arguments.run.hasLabels && publishSharedMetadata arguments then
    [((artifacts.labelsDir arguments.version, .labels), arguments.run)]
  else
    []

/-- The copy of the metrics, if the run has any. -/
def metricsWrites (arguments : Arguments) : List ((Dir × ArtefactFile) × TrainingRun) :=
  if arguments.run.hasMetrics && publishSharedMetadata arguments then
    [((artifacts.labelsDir arguments.version, .metrics), arguments.run)]
  else
    []

/-- The export of the classifier, unless its graph is there and not forced. -/
def fp32Writes (arguments : Arguments) : List ((Dir × ArtefactFile) × TrainingRun) :=
  let fp32Path := (artifacts.onnxDir arguments.version, ArtefactFile.fp32)
  if arguments.run.task ≠ "classification" then []
  else if (published fp32Path).isSome && !arguments.force then []
  else [(fp32Path, arguments.run)]

/-- The writes before the INT8 step. -/
def exportWrites (arguments : Arguments) : List ((Dir × ArtefactFile) × TrainingRun) :=
  labelsWrites artifacts arguments ++ metricsWrites artifacts arguments ++
    fp32Writes artifacts published arguments

/-- The INT8 graph is quantized from the FP32 graph that is present by then. -/
def int8Writes (invocation : Invocation) : List ((Dir × ArtefactFile) × TrainingRun) :=
  let fp32Path := (artifacts.onnxDir invocation.version, ArtefactFile.fp32)
  let int8Path := (artifacts.onnxDir invocation.version, ArtefactFile.int8)
  if invocation.run.task ≠ "classification" || invocation.skipInt8 then []
  else if (published int8Path).isSome && !invocation.force then []
  else if invocation.int8Written then
    match published.putAll (exportWrites artifacts published invocation.toArguments) fp32Path with
    | some source => [(int8Path, source)]
    | none => []
  else []

/-- The writes an invocation performs. -/
def writes (invocation : Invocation) : List ((Dir × ArtefactFile) × TrainingRun) :=
  let all := exportWrites artifacts published invocation.toArguments ++
    int8Writes artifacts published invocation
  match invocation.raisedAfter with
  | none => all
  | some count => all.take count

/-- One invocation. -/
def main (invocation : Invocation) : Published Dir :=
  published.putAll (writes artifacts published invocation)

end Main

/-- A published classification run with all its files. -/
def Invocation.PublishesClassifier (invocation : Invocation) : Prop :=
  invocation.run.task = "classification" ∧ invocation.run.hasLabels = true ∧
    invocation.run.hasMetrics = true

/-- Each graph of a version and all that is published with it come from one run. -/
def Consistent (artifacts : Artifacts Dir) (published : Published Dir) : Prop :=
  ∀ version, ∀ graph ∈ artifacts.graphs version, ∀ run, published graph = some run →
    ∀ file ∈ artifacts.filesOf version, ∀ other, published file = some other → other = run

section Provenance

variable [DecidableEq Dir] {artifacts : Artifacts Dir} {published : Published Dir}
  {invocation : Invocation}

/-- The files an invocation writes. -/
def written (artifacts : Artifacts Dir) (published : Published Dir) (invocation : Invocation) :
    List (Dir × ArtefactFile) :=
  (writes artifacts published invocation).map Prod.fst

/-- What an invocation leaves in place of a version it writes to came from the same run,
unless that version has no graph. -/
def LeavesOwn (artifacts : Artifacts Dir) (published : Published Dir) (invocation : Invocation) :
    Prop :=
  ∀ version,
    (∃ file ∈ artifacts.filesOf version, file ∈ written artifacts published invocation) →
    (∃ graph ∈ artifacts.graphs version,
      (published graph).isSome ∨ graph ∈ written artifacts published invocation) →
    ∀ file ∈ artifacts.filesOf version, file ∉ written artifacts published invocation →
      ∀ other, published file = some other → other = invocation.run

omit [DecidableEq Dir] in
/-- The export writes files of its own run. -/
theorem mem_exportWrites {arguments : Arguments} {file : Dir × ArtefactFile} {run : TrainingRun}
    (write : (file, run) ∈ exportWrites artifacts published arguments) :
    run = arguments.run ∧ file.2 ≠ .int8 ∧
      (file.2 = .fp32 → file.1 = artifacts.onnxDir arguments.version) ∧
      (file.2 ≠ .fp32 → file.1 = artifacts.labelsDir arguments.version) := by
  simp only [exportWrites, List.mem_append, labelsWrites, metricsWrites, fp32Writes] at write
  rcases write with (write | write) | write
  · split at write
    · simp only [List.mem_singleton, Prod.mk.injEq] at write
      rcases write with ⟨rfl, rfl⟩
      simp
    · cases write
  · split at write
    · simp only [List.mem_singleton, Prod.mk.injEq] at write
      rcases write with ⟨rfl, rfl⟩
      simp
    · cases write
  · split at write
    · cases write
    · split at write
      · cases write
      · simp only [List.mem_singleton, Prod.mk.injEq] at write
        rcases write with ⟨rfl, rfl⟩
        simp

/-- The INT8 step writes nothing, or one graph quantized from the FP32 graph. -/
theorem int8Writes_cases (artifacts : Artifacts Dir) (published : Published Dir)
    (invocation : Invocation) :
    int8Writes artifacts published invocation = [] ∨
      ∃ source, int8Writes artifacts published invocation =
          [((artifacts.onnxDir invocation.version, .int8), source)] ∧
        published.putAll (exportWrites artifacts published invocation.toArguments)
          (artifacts.onnxDir invocation.version, .fp32) = some source := by
  simp only [int8Writes]
  split
  · exact .inl rfl
  · split
    · exact .inl rfl
    · split
      · split
        · rename_i source present
          exact .inr ⟨source, rfl, present⟩
        · exact .inl rfl
      · exact .inl rfl

/-- An invocation has performed some of the exports, or all of them and the INT8 step. -/
theorem writes_cases (artifacts : Artifacts Dir) (published : Published Dir)
    (invocation : Invocation) :
    (∃ count, writes artifacts published invocation =
      (exportWrites artifacts published invocation.toArguments).take count) ∨
    writes artifacts published invocation =
      exportWrites artifacts published invocation.toArguments ++
        int8Writes artifacts published invocation := by
  have single : (int8Writes artifacts published invocation).length ≤ 1 := by
    rcases int8Writes_cases artifacts published invocation with none | ⟨source, one, _⟩
    · simp [none]
    · simp [one]
  simp only [writes]
  cases invocation.raisedAfter with
  | none => exact .inr rfl
  | some count =>
      rcases Nat.lt_or_ge (exportWrites artifacts published invocation.toArguments).length count
        with late | early
      · refine .inr (List.take_of_length_le ?_)
        rw [List.length_append]
        omega
      · exact .inl ⟨count, List.take_append_of_le_length early⟩

omit [DecidableEq Dir] in
theorem exportWrites_nodup (artifacts : Artifacts Dir) (published : Published Dir)
    (arguments : Arguments) :
    ((exportWrites artifacts published arguments).map Prod.fst).Nodup := by
  simp only [exportWrites, labelsWrites, metricsWrites, fp32Writes]
  split <;> split <;> split <;> (try split) <;> simp

theorem written_nodup (artifacts : Artifacts Dir) (published : Published Dir)
    (invocation : Invocation) : (written artifacts published invocation).Nodup := by
  have exported := exportWrites_nodup artifacts published invocation.toArguments
  rcases writes_cases artifacts published invocation with ⟨count, part⟩ | all
  · rw [written, part]
    exact exported.sublist ((List.take_sublist _ _).map Prod.fst)
  · rw [written, all, List.map_append]
    rcases int8Writes_cases artifacts published invocation with none | ⟨source, one, _⟩
    · simpa [none] using exported
    · rw [one, List.map_singleton, List.nodup_append]
      refine ⟨exported, List.nodup_singleton _, ?_⟩
      intro file fileMem other otherMem
      rcases List.mem_map.mp fileMem with ⟨⟨_, run⟩, write, rfl⟩
      rw [List.mem_singleton.mp otherMem]
      intro same
      exact (mem_exportWrites write).2.1 (congrArg Prod.snd same)

/-- What an invocation writes comes from its run, except that the INT8 graph comes from the run
of the FP32 graph beside it. -/
theorem mem_writes {file : Dir × ArtefactFile} {run : TrainingRun}
    (write : (file, run) ∈ writes artifacts published invocation) :
    (file.2 ≠ .int8 ∧ run = invocation.run) ∨
      (file = (artifacts.onnxDir invocation.version, .int8) ∧
        main artifacts published invocation (artifacts.onnxDir invocation.version, .fp32) =
          some run ∧
        exportWrites artifacts published invocation.toArguments ⊆
          writes artifacts published invocation) := by
  rcases writes_cases artifacts published invocation with ⟨count, part⟩ | all
  · rw [part] at write
    have exported := mem_exportWrites (List.mem_of_mem_take write)
    exact .inl ⟨exported.2.1, exported.1⟩
  · rw [all, List.mem_append] at write
    rcases write with exported | quantized
    · exact .inl ⟨(mem_exportWrites exported).2.1, (mem_exportWrites exported).1⟩
    · rcases int8Writes_cases artifacts published invocation with none | ⟨source, one, present⟩
      · rw [none] at quantized
        cases quantized
      · rw [one, List.mem_singleton, Prod.mk.injEq] at quantized
        rcases quantized with ⟨rfl, rfl⟩
        refine .inr ⟨rfl, ?_, ?_⟩
        · rw [main, all, one, Store.putAll_append, Store.putAll_of_notMem (by simp)]
          exact present
        · rw [all]
          exact List.subset_append_left _ _

/-- What is published after an invocation: untouched files and written ones. -/
theorem main_cases (artifacts : Artifacts Dir) (published : Published Dir)
    (invocation : Invocation) (file : Dir × ArtefactFile) :
    (file ∉ written artifacts published invocation ∧
      main artifacts published invocation file = published file) ∨
    (file ∈ written artifacts published invocation ∧ ∃ run,
      (file, run) ∈ writes artifacts published invocation ∧
      main artifacts published invocation file = some run) := by
  rcases published.putAll_eq (written_nodup artifacts published invocation) file with
    ⟨untouched, same⟩ | ⟨run, write, now⟩
  · exact .inl ⟨untouched, same⟩
  · exact .inr ⟨List.mem_map_of_mem write, run, write, now⟩

/-- When it leaves only its own files in place, an invocation writes nothing of another run. -/
theorem own_of_leavesOwn (own : LeavesOwn artifacts published invocation)
    {file : Dir × ArtefactFile} {run : TrainingRun}
    (write : (file, run) ∈ writes artifacts published invocation) : run = invocation.run := by
  rcases mem_writes write with ⟨_, same⟩ | ⟨rfl, beside, _⟩
  · exact same
  · have isWritten : (artifacts.onnxDir invocation.version, ArtefactFile.int8) ∈
        written artifacts published invocation := List.mem_map_of_mem write
    have isGraph := artifacts.int8_mem_graphs invocation.version
    rcases main_cases artifacts published invocation (artifacts.onnxDir invocation.version, .fp32)
      with ⟨untouched, same⟩ | ⟨_, exported, fp32, now⟩
    · rw [same] at beside
      exact own invocation.version ⟨_, Artifacts.mem_filesOf_of_graph isGraph, isWritten⟩
        ⟨_, isGraph, .inr isWritten⟩ _
        (Artifacts.mem_filesOf_of_graph (artifacts.fp32_mem_graphs invocation.version))
        untouched run beside
    · rw [now] at beside
      cases beside
      rcases mem_writes fp32 with ⟨_, same⟩ | ⟨isInt8, _⟩
      · exact same
      · cases isInt8

/-- An invocation that leaves consistent versions keeps no file of another run beside its own. -/
theorem leavesOwn_of_consistent (publishes : invocation.PublishesClassifier)
    (after : Consistent artifacts (main artifacts published invocation)) :
    LeavesOwn artifacts published invocation := by
  intro version ⟨changed, changedMem, isWritten⟩ ⟨graph, isGraph, present⟩ file fileMem untouched
    other stored
  have graphAfter : ∃ run, main artifacts published invocation graph = some run := by
    rcases main_cases artifacts published invocation graph with ⟨old, same⟩ | ⟨_, run, _, now⟩
    · rw [same]
      exact Option.isSome_iff_exists.mp (present.resolve_right old)
    · exact ⟨run, now⟩
  rcases graphAfter with ⟨run, graphRun⟩
  have fileRun : other = run := by
    apply after version graph isGraph run graphRun file fileMem other
    rwa [main, Store.putAll_of_notMem untouched]
  rcases List.mem_map.mp isWritten with ⟨⟨_, source⟩, write, rfl⟩
  have sourceRun : source = run :=
    after version graph isGraph run graphRun _ changedMem source
      (Store.putAll_of_mem (written_nodup artifacts published invocation) write)
  rcases mem_writes write with ⟨_, same⟩ | ⟨_, beside, exports⟩
  · rw [fileRun, ← sourceRun, same]
  · -- The INT8 graph was written, so the labels of this run are published beside it.
    have labels : ((artifacts.labelsDir invocation.version, ArtefactFile.labels),
        invocation.run) ∈ writes artifacts published invocation := by
      apply exports
      simp [exportWrites, labelsWrites, publishSharedMetadata, publishes.1, publishes.2.1]
    have labelRun := after invocation.version _ (artifacts.fp32_mem_graphs invocation.version)
      source beside _ (artifacts.labels_mem_filesOf invocation.version) invocation.run
      (Store.putAll_of_mem (written_nodup artifacts published invocation) labels)
    rw [fileRun, ← sourceRun, labelRun]

theorem consistent_of_leavesOwn (consistent : Consistent artifacts published)
    (own : LeavesOwn artifacts published invocation) :
    Consistent artifacts (main artifacts published invocation) := by
  intro version graph isGraph run graphRun file fileMem other fileRun
  by_cases touched : ∃ changed ∈ artifacts.filesOf version,
    changed ∈ written artifacts published invocation
  · have graphPresent : (published graph).isSome ∨
        graph ∈ written artifacts published invocation := by
      rcases main_cases artifacts published invocation graph with ⟨_, same⟩ | ⟨isWritten, _⟩
      · rw [same] at graphRun
        exact .inl (Option.isSome_iff_exists.mpr ⟨run, graphRun⟩)
      · exact .inr isWritten
    have ofRun : ∀ present ∈ artifacts.filesOf version, ∀ source,
        main artifacts published invocation present = some source →
        source = invocation.run := by
      intro present presentMem source stored
      rcases main_cases artifacts published invocation present with
        ⟨untouched, same⟩ | ⟨_, new, write, now⟩
      · rw [same] at stored
        exact own version touched ⟨graph, isGraph, graphPresent⟩ present presentMem untouched
          source stored
      · rw [now] at stored
        cases stored
        exact own_of_leavesOwn own write
    rw [ofRun file fileMem other fileRun,
      ofRun graph (Artifacts.mem_filesOf_of_graph isGraph) run graphRun]
  · have old : ∀ present ∈ artifacts.filesOf version,
        main artifacts published invocation present = published present := by
      intro present presentMem
      exact Store.putAll_of_notMem fun isWritten => touched ⟨present, presentMem, isWritten⟩
    rw [old graph (Artifacts.mem_filesOf_of_graph isGraph)] at graphRun
    rw [old file fileMem] at fileRun
    exact consistent version graph isGraph run graphRun file fileMem other fileRun

/-- From consistent versions, an invocation leaves consistent versions exactly when what it
leaves in place came from its own run. -/
theorem consistent_main_iff (consistent : Consistent artifacts published)
    (publishes : invocation.PublishesClassifier) :
    Consistent artifacts (main artifacts published invocation) ↔
      LeavesOwn artifacts published invocation := by
  constructor
  · exact leavesOwn_of_consistent publishes
  · exact consistent_of_leavesOwn consistent

/-- A version whose directories hold nothing that was published as another one: what is there of a
name that shares a directory with it are its own files. -/
def Unshared (artifacts : Artifacts Dir) (published : Published Dir) (version : String) : Prop :=
  ∀ other, artifacts.onnxDir other = artifacts.onnxDir version ∨
      artifacts.labelsDir other = artifacts.labelsDir version →
    ∀ file ∈ artifacts.filesOf other, (published file).isSome → file ∈ artifacts.filesOf version

/-- The graphs that an invocation leaves in place come from its run. -/
def GraphsOwn (artifacts : Artifacts Dir) (published : Published Dir) (invocation : Invocation) :
    Prop :=
  (∀ run, published (artifacts.onnxDir invocation.version, .fp32) = some run →
      invocation.force = false → run = invocation.run) ∧
    ∀ run, published (artifacts.onnxDir invocation.version, .int8) = some run →
      invocation.skipInt8 = true ∨ invocation.force = false ∨ invocation.int8Written = false →
        run = invocation.run

/-- The writes of an invocation that publishes a classifier and returns. -/
theorem written_of_returned (publishes : invocation.PublishesClassifier)
    (returned : invocation.raisedAfter = none) :
    written artifacts published invocation =
      [(artifacts.labelsDir invocation.version, .labels),
        (artifacts.labelsDir invocation.version, .metrics)] ++
      (fp32Writes artifacts published invocation.toArguments).map Prod.fst ++
      (int8Writes artifacts published invocation).map Prod.fst := by
  rcases publishes with ⟨task, labels, metrics⟩
  simp [written, writes, returned, exportWrites, labelsWrites, metricsWrites,
    publishSharedMetadata, task, labels, metrics]

omit [DecidableEq Dir] in
/-- For a run that publishes a classifier only presence and `--force` matter. -/
theorem fp32Writes_eq (publishes : invocation.PublishesClassifier) :
    fp32Writes artifacts published invocation.toArguments =
      if (published (artifacts.onnxDir invocation.version, .fp32)).isSome && !invocation.force
      then []
      else [((artifacts.onnxDir invocation.version, .fp32), invocation.run)] := by
  simp [fp32Writes, publishes.1]

theorem fp32_kept_iff (publishes : invocation.PublishesClassifier)
    (returned : invocation.raisedAfter = none) :
    (artifacts.onnxDir invocation.version, .fp32) ∉ written artifacts published invocation ↔
      (published (artifacts.onnxDir invocation.version, .fp32)).isSome ∧
        invocation.force = false := by
  rw [written_of_returned publishes returned, fp32Writes_eq publishes]
  rcases int8Writes_cases artifacts published invocation with none | ⟨source, one, _⟩
  · split <;> simp_all
  · split <;> simp_all

/-- After the exports there is a graph to quantize. -/
theorem fp32_exported (publishes : invocation.PublishesClassifier) :
    ∃ source, published.putAll (exportWrites artifacts published invocation.toArguments)
      (artifacts.onnxDir invocation.version, .fp32) = some source := by
  rcases published.putAll_eq (exportWrites_nodup artifacts published invocation.toArguments)
    (artifacts.onnxDir invocation.version, .fp32) with ⟨untouched, same⟩ | ⟨run, _, now⟩
  · rw [same]
    apply Option.isSome_iff_exists.mp
    rw [exportWrites, fp32Writes_eq publishes] at untouched
    split at untouched
    · rename_i kept
      simp only [Bool.and_eq_true] at kept
      exact kept.1
    · simp at untouched
  · exact ⟨run, now⟩

theorem int8_kept_iff (publishes : invocation.PublishesClassifier)
    (returned : invocation.raisedAfter = none)
    (present : (published (artifacts.onnxDir invocation.version, .int8)).isSome) :
    (artifacts.onnxDir invocation.version, .int8) ∉ written artifacts published invocation ↔
      invocation.skipInt8 = true ∨ invocation.force = false ∨ invocation.int8Written = false := by
  have exports : ∃ source, published.putAll (exportWrites artifacts published
      invocation.toArguments) (artifacts.onnxDir invocation.version, .fp32) = some source :=
    fp32_exported publishes
  rcases exports with ⟨source, exported⟩
  rw [written_of_returned publishes returned, fp32Writes_eq publishes]
  simp only [int8Writes, publishes.1, exported, present]
  cases invocation.skipInt8 <;> cases invocation.force <;> cases invocation.int8Written <;>
    split <;> simp_all

/-- An invocation writes to another version only through a directory they share. -/
theorem shares_of_written (publishes : invocation.PublishesClassifier)
    (returned : invocation.raisedAfter = none) {version : String} {changed : Dir × ArtefactFile}
    (changedMem : changed ∈ artifacts.filesOf version)
    (isWritten : changed ∈ written artifacts published invocation) :
    artifacts.onnxDir version = artifacts.onnxDir invocation.version ∨
      artifacts.labelsDir version = artifacts.labelsDir invocation.version := by
  simp only [Artifacts.filesOf, Artifacts.graphs, List.cons_append, List.nil_append,
    List.mem_cons, List.not_mem_nil, or_false] at changedMem
  rw [written_of_returned publishes returned, fp32Writes_eq publishes] at isWritten
  rcases int8Writes_cases artifacts published invocation with none | ⟨source, one, _⟩
  · rw [none] at isWritten
    split at isWritten <;> rcases changedMem with rfl | rfl | rfl | rfl <;> simp_all
  · rw [one] at isWritten
    split at isWritten <;> rcases changedMem with rfl | rfl | rfl | rfl <;> simp_all

/-- Without shared directories only the graphs of the version itself matter. -/
theorem leavesOwn_iff (publishes : invocation.PublishesClassifier)
    (returned : invocation.raisedAfter = none)
    (unshared : Unshared artifacts published invocation.version) :
    LeavesOwn artifacts published invocation ↔ GraphsOwn artifacts published invocation := by
  have wrote : written artifacts published invocation = _ :=
    written_of_returned publishes returned
  constructor
  · intro own
    have touched : ∃ file ∈ artifacts.filesOf invocation.version,
        file ∈ written artifacts published invocation :=
      ⟨_, artifacts.labels_mem_filesOf invocation.version, by simp [wrote]⟩
    refine ⟨fun run stored kept => ?_, fun run stored kept => ?_⟩
    · have isGraph := artifacts.fp32_mem_graphs invocation.version
      refine own invocation.version touched ⟨_, isGraph, .inl (by simp [stored])⟩ _
        (Artifacts.mem_filesOf_of_graph isGraph) ?_ run stored
      exact (fp32_kept_iff publishes returned).mpr ⟨by simp [stored], kept⟩
    · have isGraph := artifacts.int8_mem_graphs invocation.version
      refine own invocation.version touched ⟨_, isGraph, .inl (by simp [stored])⟩ _
        (Artifacts.mem_filesOf_of_graph isGraph) ?_ run stored
      exact (int8_kept_iff publishes returned (by simp [stored])).mpr kept
  · rintro ⟨fp32, int8⟩ version ⟨changed, changedMem, isWritten⟩ _ file fileMem untouched other
      stored
    have isOwn := unshared version (shares_of_written publishes returned changedMem isWritten) file
      fileMem (by simp [stored])
    simp only [Artifacts.filesOf, Artifacts.graphs, List.cons_append, List.nil_append,
      List.mem_cons, List.not_mem_nil, or_false] at isOwn
    rcases isOwn with rfl | rfl | rfl | rfl
    · exact fp32 other stored ((fp32_kept_iff publishes returned).mp untouched).2
    · exact int8 other stored ((int8_kept_iff publishes returned (by simp [stored])).mp untouched)
    · exact absurd (by simp [wrote]) untouched
    · exact absurd (by simp [wrote]) untouched

end Provenance

/-- The system of all invocations. -/
def step [DecidableEq Dir] (artifacts : Artifacts Dir) (published : Published Dir)
    (invocation : Invocation) : Option (Published Dir) :=
  some (main artifacts published invocation)

/-- Published versions stay consistent as long as every invocation leaves only files of its own
run in place; for one that returns, into directories no other version was published in, this
concerns its two graphs. -/
theorem published_consistent [DecidableEq Dir] (artifacts : Artifacts Dir) :
    (∀ start finish, Consistent artifacts start →
      Run (step artifacts)
        (fun before invocation _ =>
          invocation.PublishesClassifier ∧ LeavesOwn artifacts before invocation) start finish →
      Consistent artifacts finish) ∧
    (∀ published invocation, Consistent artifacts published →
      invocation.PublishesClassifier →
      (Consistent artifacts (main artifacts published invocation) ↔
        LeavesOwn artifacts published invocation)) ∧
    ∀ published invocation, invocation.PublishesClassifier → invocation.raisedAfter = none →
      Unshared artifacts published invocation.version →
      (LeavesOwn artifacts published invocation ↔ GraphsOwn artifacts published invocation) := by
  refine ⟨?_, fun _ _ consistent publishes => consistent_main_iff consistent publishes,
    fun _ _ publishes returned unshared => leavesOwn_iff publishes returned unshared⟩
  intro start finish consistent run
  apply run.invariant consistent
  rintro before invocation after consistent ⟨publishes, own⟩ taken
  cases taken
  exact (consistent_main_iff consistent publishes).mpr own

/-- A first run with labels and metrics. -/
def run1 : TrainingRun := ⟨["runs", "1"], "classification", true, true⟩

/-- A second one. -/
def run2 : TrainingRun := ⟨["runs", "2"], "classification", true, true⟩

/-- A run published as the default version, to the end. -/
def publicationOf (run : TrainingRun) (force skipInt8 : Bool) : Invocation :=
  ⟨⟨run, "v1", force, skipInt8⟩, !skipInt8, none⟩

/-- The directory that a path leads to, without links. -/
def followed (path : Path) : Path :=
  (path.flatMap fun part => (part.toList.splitOn '/').map String.ofList).foldl
    (fun directory part =>
      if part = "" ∨ part = "." then directory
      else if part = ".." then directory.dropLast
      else directory ++ [part]) []

/-- A first publication, and a forced one of another run over it. -/
theorem published_consistent_forced :
    ∃ first second : Published Path,
      Consistent ⟨[], followed⟩ first ∧ Consistent ⟨[], followed⟩ second ∧
        first (["onnx"], .fp32) = some run1 ∧ second (["onnx"], .int8) = some run2 := by
  have published := @published_consistent Path _ ⟨[], followed⟩
  have publishes1 : (publicationOf run1 false false).PublishesClassifier := ⟨rfl, rfl, rfl⟩
  have publishes2 : (publicationOf run2 true false).PublishesClassifier := ⟨rfl, rfl, rfl⟩
  have first : Consistent (⟨[], followed⟩ : Artifacts Path)
      (main ⟨[], followed⟩ (fun _ => none) (publicationOf run1 false false)) := by
    refine published.1 (fun _ => none) _ ?_ (Run.refl.tail _ rfl ⟨publishes1, ?_⟩)
    · intro version graph _ run stored
      cases stored
    · intro version _ _ file _ _ other stored
      cases stored
  have unshared : Unshared (⟨[], followed⟩ : Artifacts Path)
      (main ⟨[], followed⟩ (fun _ => none) (publicationOf run1 false false)) "v1" := by
    intro _ _ file _ present
    rcases main_cases (⟨[], followed⟩ : Artifacts Path) (fun _ => none)
      (publicationOf run1 false false) file with ⟨_, same⟩ | ⟨isWritten, _⟩
    · rw [same] at present
      cases present
    · have own : ∀ changed ∈ written (⟨[], followed⟩ : Artifacts Path) (fun _ => none)
          (publicationOf run1 false false),
          changed ∈ (⟨[], followed⟩ : Artifacts Path).filesOf "v1" := by
        decide +kernel
      exact own file isWritten
  have second : Consistent (⟨[], followed⟩ : Artifacts Path)
      (main ⟨[], followed⟩ (main ⟨[], followed⟩ (fun _ => none) (publicationOf run1 false false))
        (publicationOf run2 true false)) := by
    refine (published.2.1 _ _ first publishes2).mpr
      ((published.2.2 _ _ publishes2 rfl unshared).mpr ⟨?_, ?_⟩)
    · rintro _ _ ⟨⟩
    · intro _ _ kept
      simp [publicationOf] at kept
  exact ⟨_, _, first, second, rfl, rfl⟩

/-- Publishing a second run without `--force` puts its labels beside the graph of the first. -/
theorem republish_mixes_runs :
    ¬∀ (published : Published Path) (invocation : Invocation),
      Run (step ⟨[], id⟩) (fun _ earlier _ => earlier.PublishesClassifier) (fun _ => none)
        published →
      invocation.PublishesClassifier → invocation.raisedAfter = none →
      Consistent ⟨[], id⟩ (main ⟨[], id⟩ published invocation) := by
  intro always
  have publishes : (publicationOf run1 false true).PublishesClassifier := ⟨rfl, rfl, rfl⟩
  have consistent := always _ (publicationOf run2 false true) (Run.refl.tail _ rfl publishes)
    ⟨rfl, rfl, rfl⟩ rfl
  have same := consistent "v1" _ (Artifacts.fp32_mem_graphs _ _) run1 rfl _
    (Artifacts.labels_mem_filesOf _ _) run2 rfl
  revert same
  decide

end VisionApi.Publish
