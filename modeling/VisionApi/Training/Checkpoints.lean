import Std.Data.String.ToInt
import VisionApi.Foundation.Interruption
import VisionApi.Foundation.Run
import VisionApi.Foundation.Store
import VisionApi.Training.Cadence

/-!
# Checkpoints on disk

`_save_checkpoint` writes the state files and the weights of an epoch and then
lets `latest-epoch` name it, by renaming a temporary link.  The process may be
killed between any two effects, also in the middle of a file, and be started
again on the same directory.  What it resumes from is what `latest-epoch` names.

The directory is a store of entries and each call of the file system an effect on it; a
file is torn from its opening to its closing.  A process that is killed has performed a
prefix of the effects of its checkpoints (`performFirst`).

`Resumable` is the invariant: what `latest-epoch` names, if anything, holds all files of a
checkpoint that was saved.  The writes of a checkpoint go to folders of its epoch, so
they touch nothing that is named, as long as the first epoch saved is not the one that is
named (`SavesElsewhere`); the rename then changes the name in one step.

Two theorems follow: over all runs of killed and restarted processes, what is loaded is
whole; and a process can be killed at any point without loss exactly if it saves an epoch
other than the one it resumes from first.
-/

namespace VisionApi.Training

open Foundation

/-! ## The directory -/

/-- The text of `f"epoch_{epoch}"`. -/
def epochFolder (epoch : ℤ) : String :=
  "epoch_" ++ epoch.repr

/-- The name of the link to the newest checkpoint. -/
def latestEpoch : String :=
  "latest-epoch"

/-- The text of `f".latest-epoch-tmp-{epoch}"`. -/
def tmpLink (epoch : ℤ) : String :=
  ".latest-epoch-tmp-" ++ epoch.repr

theorem epochFolder_injective : Function.Injective epochFolder := by
  intro first second same
  unfold epochFolder at same
  rw [String.append_right_inj] at same
  exact Int.repr_injective same

/-- No folder of an epoch has the name of the link. -/
theorem epochFolder_ne_latestEpoch (epoch : ℤ) : epochFolder epoch ≠ latestEpoch := by
  intro same
  unfold epochFolder latestEpoch at same
  generalize epoch.repr = digits at same
  have chars := congrArg String.toList same
  simp at chars

theorem epochFolder_ne_tmpLink (epoch other : ℤ) : epochFolder epoch ≠ tmpLink other := by
  intro same
  unfold epochFolder tmpLink at same
  generalize epoch.repr = digits at same
  have chars := congrArg String.toList same
  simp at chars

theorem latestEpoch_ne_tmpLink (epoch : ℤ) : latestEpoch ≠ tmpLink epoch := by
  intro same
  unfold latestEpoch tmpLink at same
  generalize epoch.repr = digits at same
  have chars := congrArg String.toList same
  simp at chars

/-- A file that is being written, or its content. -/
inductive FileState (Content : Type) where
  | torn
  | written (content : Content)

/-- An entry of `checkpoints/`. -/
inductive Entry (Content : Type) where
  | directory (files : Store String (FileState Content))
  | symlink (target : String)

/-- `accelerate_states/`. -/
structure AccelerateStates (Content : Type) where
  checkpoints : Store String (Entry Content)
  weights : Store String (Store String (FileState Content))

variable {Content : Type}

/-- The entries of `checkpoints/`, through one link. -/
def AccelerateStates.resolve (states : AccelerateStates Content) (folder : String) :
    Option (Store String (FileState Content)) :=
  match states.checkpoints folder with
  | none => none
  | some (.directory files) => some files
  | some (.symlink target) =>
      match states.checkpoints target with
      | some (.directory files) => some files
      | _ => none

/-- Raised where there is no checkpoint to load. -/
structure FileNotFoundError where
  checkpointPath : String
deriving DecidableEq

/-- `_get_checkpoint_load_path`, with the files that it names. -/
def AccelerateStates.getCheckpointLoadPath (states : AccelerateStates Content)
    (continueTraining : Bool) (continueFolder : Option String) :
    Except FileNotFoundError (Option (Store String (FileState Content))) :=
  if continueTraining then
    let folder :=
      match continueFolder with
      | none => latestEpoch
      | some folder => if folder = "" then latestEpoch else folder
    match states.resolve folder with
    | none => .error ⟨folder⟩
    | some files => .ok (some files)
  else .ok none

/-! ## Saving a checkpoint -/

/-- A call of the file system. -/
inductive DiskEffect (Content : Type) where
  | mkdir (folder : String)
  | openFile (folder name : String)
  | closeFile (folder name : String) (content : Content)
  | mkdirWeights (folder : String)
  | openWeights (folder name : String)
  | closeWeights (folder name : String) (content : Content)
  | unlink (link : String)
  | symlinkTo (link target : String)
  | replace (link name : String)

/-- A file of a directory is set, if the directory is there. -/
def setFile (checkpoints : Store String (Entry Content)) (folder name : String)
    (file : FileState Content) : Store String (Entry Content) :=
  match checkpoints folder with
  | some (.directory files) => checkpoints.put folder (.directory (files.put name file))
  | _ => checkpoints

/-- Set a file in a folder of weights. -/
def setWeights (weights : Store String (Store String (FileState Content))) (folder name : String)
    (file : FileState Content) : Store String (Store String (FileState Content)) :=
  match weights folder with
  | some files => weights.put folder (files.put name file)
  | none => weights

/-- The directory after an effect. -/
def AccelerateStates.perform (states : AccelerateStates Content) :
    DiskEffect Content → AccelerateStates Content
  | .mkdir folder =>
      if (states.checkpoints folder).isSome then states
      else { states with
        checkpoints := states.checkpoints.put folder (.directory fun _ => none) }
  | .openFile folder name =>
      { states with checkpoints := setFile states.checkpoints folder name .torn }
  | .closeFile folder name content =>
      { states with checkpoints := setFile states.checkpoints folder name (.written content) }
  | .mkdirWeights folder =>
      if (states.weights folder).isSome then states
      else { states with weights := states.weights.put folder fun _ => none }
  | .openWeights folder name =>
      { states with weights := setWeights states.weights folder name .torn }
  | .closeWeights folder name content =>
      { states with weights := setWeights states.weights folder name (.written content) }
  | .unlink link => { states with checkpoints := Function.update states.checkpoints link none }
  | .symlinkTo link target =>
      { states with checkpoints := states.checkpoints.put link (.symlink target) }
  | .replace link name =>
      { states with
        checkpoints := Function.update
          (Function.update states.checkpoints name (states.checkpoints link)) link none }

/-- The names of the files that `accelerator.save_state` writes into a directory. -/
structure StateFiles where
  names : List String
  distinct : names.Nodup

/-- A checkpoint of an epoch: what is written to each state file, and the weights. -/
structure Checkpoint (Content : Type) where
  epoch : ℤ
  state : String → Content
  weights : Content

/-- The effects of `accelerator.save_state` for some of its files: each is open before it is
whole. -/
def saveState (checkpoint : Checkpoint Content) (names : List String) :
    List (DiskEffect Content) :=
  names.flatMap fun name =>
    [.openFile (epochFolder checkpoint.epoch) name,
      .closeFile (epochFolder checkpoint.epoch) name (checkpoint.state name)]

/-- The effects of `_save_weights`. -/
def saveWeights (checkpoint : Checkpoint Content) : List (DiskEffect Content) :=
  [.mkdirWeights (epochFolder checkpoint.epoch),
    .openWeights (epochFolder checkpoint.epoch) "model.safetensors",
    .closeWeights (epochFolder checkpoint.epoch) "model.safetensors" checkpoint.weights]

/-- The effects before the link is renamed.  Nothing is unlinked where there is no link. -/
def writeCheckpoint (files : StateFiles) (checkpoint : Checkpoint Content) :
    List (DiskEffect Content) :=
  [.mkdir (epochFolder checkpoint.epoch)] ++ saveState checkpoint files.names ++
    saveWeights checkpoint ++
    [.unlink (tmpLink checkpoint.epoch),
      .symlinkTo (tmpLink checkpoint.epoch) (epochFolder checkpoint.epoch)]

/-- `_save_checkpoint` -/
def saveCheckpoint (files : StateFiles) (checkpoint : Checkpoint Content) :
    List (DiskEffect Content) :=
  writeCheckpoint files checkpoint ++ [.replace (tmpLink checkpoint.epoch) latestEpoch]

/-! ## What an effect leaves alone -/

/-- The entries of `checkpoints/` that an effect may change. -/
def DiskEffect.entries : DiskEffect Content → List String
  | .mkdir folder => [folder]
  | .openFile folder _ => [folder]
  | .closeFile folder _ _ => [folder]
  | .unlink link => [link]
  | .symlinkTo link _ => [link]
  | .replace link name => [link, name]
  | .mkdirWeights _ => []
  | .openWeights _ _ => []
  | .closeWeights _ _ _ => []

/-- The directories of `weights/` that an effect may change. -/
def DiskEffect.weightFolders : DiskEffect Content → List String
  | .mkdirWeights folder => [folder]
  | .openWeights folder _ => [folder]
  | .closeWeights folder _ _ => [folder]
  | _ => []

section Frame

variable {states : AccelerateStates Content} {effect : DiskEffect Content}
  {checkpoint : Checkpoint Content} {files : StateFiles} {folder : String}

theorem setFile_of_ne {checkpoints : Store String (Entry Content)} {other name : String}
    {file : FileState Content} (apart : folder ≠ other) :
    setFile checkpoints other name file folder = checkpoints folder := by
  unfold setFile
  cases checkpoints other with
  | none => rfl
  | some entry =>
      cases entry with
      | directory files => exact Function.update_of_ne apart _ _
      | symlink target => rfl

theorem setFile_self {checkpoints : Store String (Entry Content)} {name : String}
    {file : FileState Content} {directory : Store String (FileState Content)}
    (isDirectory : checkpoints folder = some (.directory directory)) :
    setFile checkpoints folder name file folder = some (.directory (directory.put name file)) := by
  rw [setFile, isDirectory]
  exact Function.update_self _ _ _

theorem setWeights_self {weights : Store String (Store String (FileState Content))} {name : String}
    {file : FileState Content} {directory : Store String (FileState Content)}
    (isDirectory : weights folder = some directory) :
    setWeights weights folder name file folder = some (directory.put name file) := by
  rw [setWeights, isDirectory]
  exact Function.update_self _ _ _

theorem setWeights_of_ne {weights : Store String (Store String (FileState Content))}
    {other name : String} {file : FileState Content} (apart : folder ≠ other) :
    setWeights weights other name file folder = weights folder := by
  unfold setWeights
  cases weights other with
  | none => rfl
  | some files => exact Function.update_of_ne apart _ _

/-- An effect changes only the entries that it names. -/
theorem perform_checkpoints (apart : folder ∉ effect.entries) :
    (states.perform effect).checkpoints folder = states.checkpoints folder := by
  cases effect with
  | mkdir other =>
      simp only [DiskEffect.entries, List.mem_singleton] at apart
      rw [AccelerateStates.perform]
      split
      · rfl
      · exact Function.update_of_ne apart _ _
  | openFile other name =>
      simp only [DiskEffect.entries, List.mem_singleton] at apart
      exact setFile_of_ne apart
  | closeFile other name content =>
      simp only [DiskEffect.entries, List.mem_singleton] at apart
      exact setFile_of_ne apart
  | mkdirWeights other =>
      rw [AccelerateStates.perform]
      split <;> rfl
  | openWeights other name => rfl
  | closeWeights other name content => rfl
  | unlink link =>
      simp only [DiskEffect.entries, List.mem_singleton] at apart
      exact Function.update_of_ne apart _ _
  | symlinkTo link target =>
      simp only [DiskEffect.entries, List.mem_singleton] at apart
      exact Function.update_of_ne apart _ _
  | replace link name =>
      simp only [DiskEffect.entries, List.mem_cons, List.not_mem_nil, or_false, not_or] at apart
      rw [AccelerateStates.perform]
      exact (Function.update_of_ne apart.1 _ _).trans (Function.update_of_ne apart.2 _ _)

theorem perform_weights (apart : folder ∉ effect.weightFolders) :
    (states.perform effect).weights folder = states.weights folder := by
  cases effect with
  | mkdirWeights other =>
      simp only [DiskEffect.weightFolders, List.mem_singleton] at apart
      rw [AccelerateStates.perform]
      split
      · rfl
      · exact Function.update_of_ne apart _ _
  | openWeights other name =>
      simp only [DiskEffect.weightFolders, List.mem_singleton] at apart
      exact setWeights_of_ne apart
  | closeWeights other name content =>
      simp only [DiskEffect.weightFolders, List.mem_singleton] at apart
      exact setWeights_of_ne apart
  | mkdir other =>
      rw [AccelerateStates.perform]
      split <;> rfl
  | openFile other name => rfl
  | closeFile other name content => rfl
  | unlink link => rfl
  | symlinkTo link target => rfl
  | replace link name => rfl

theorem perform_replace {link name : String} (apart : name ≠ link) :
    (states.perform (.replace link name)).checkpoints name = states.checkpoints link := by
  have other := Function.update_of_ne apart (none : Option (Entry Content))
    (Function.update states.checkpoints name (states.checkpoints link))
  exact other.trans (Function.update_self _ _ _)

/-- Setting a file makes no link. -/
theorem symlink_of_setFile {checkpoints : Store String (Entry Content)} {other name target : String}
    {file : FileState Content}
    (isLink : setFile checkpoints other name file folder = some (.symlink target)) :
    checkpoints folder = some (.symlink target) := by
  unfold setFile at isLink
  cases found : checkpoints other with
  | none => simpa [found] using isLink
  | some entry =>
      cases entry with
      | symlink link => simpa [found] using isLink
      | directory files =>
          simp only [found, Store.put] at isLink
          by_cases same : folder = other
          · subst same
            rw [Function.update_self] at isLink
            cases isLink
          · rwa [Function.update_of_ne same] at isLink

/-- Until the link is renamed, only the directories of the epoch and the temporary link change. -/
theorem mem_writeCheckpoint (isEffect : effect ∈ writeCheckpoint files checkpoint) :
    (∀ folder ∈ effect.entries,
      folder = epochFolder checkpoint.epoch ∨ folder = tmpLink checkpoint.epoch) ∧
      ∀ folder ∈ effect.weightFolders, folder = epochFolder checkpoint.epoch := by
  simp only [writeCheckpoint, saveState, saveWeights, List.mem_append, List.mem_flatMap,
    List.mem_cons, List.not_mem_nil, or_false] at isEffect
  rcases isEffect with ((rfl | ⟨name, _, rfl | rfl⟩) | rfl | rfl | rfl) | rfl | rfl
  all_goals simp [DiskEffect.entries, DiskEffect.weightFolders]

variable (files) in
theorem performFirst_checkpoints (count : ℕ) (states : AccelerateStates Content)
    (notFolder : folder ≠ epochFolder checkpoint.epoch)
    (notLink : folder ≠ tmpLink checkpoint.epoch) :
    (performFirst AccelerateStates.perform count states
      (writeCheckpoint files checkpoint)).checkpoints folder = states.checkpoints folder := by
  apply performFirst_view fun states : AccelerateStates Content => states.checkpoints folder
  intro effect isEffect states
  apply perform_checkpoints
  intro touched
  rcases (mem_writeCheckpoint isEffect).1 folder touched with same | same
  · exact notFolder same
  · exact notLink same

variable (files) in
theorem performFirst_weights (count : ℕ) (states : AccelerateStates Content)
    (notFolder : folder ≠ epochFolder checkpoint.epoch) :
    (performFirst AccelerateStates.perform count states
      (writeCheckpoint files checkpoint)).weights folder = states.weights folder := by
  apply performFirst_view fun states : AccelerateStates Content => states.weights folder
  intro effect isEffect states
  apply perform_weights
  intro touched
  exact notFolder ((mem_writeCheckpoint isEffect).2 folder touched)

end Frame

/-! ## Whole checkpoints -/

/-- Every file of the checkpoint is on disk as it was written. -/
structure Holds (files : StateFiles) (states : AccelerateStates Content)
    (checkpoint : Checkpoint Content) : Prop where
  state : ∃ directory, states.checkpoints (epochFolder checkpoint.epoch) =
      some (.directory directory) ∧
    ∀ name ∈ files.names, directory name = some (.written (checkpoint.state name))
  weights : ∃ directory, states.weights (epochFolder checkpoint.epoch) = some directory ∧
    directory "model.safetensors" = some (.written checkpoint.weights)

/-- `latest-epoch` is absent or names one of the checkpoints, which is whole. -/
def Resumable (files : StateFiles) (saved : List (Checkpoint Content))
    (states : AccelerateStates Content) : Prop :=
  states.checkpoints latestEpoch = none ∨
    ∃ checkpoint ∈ saved, states.checkpoints latestEpoch =
      some (.symlink (epochFolder checkpoint.epoch)) ∧ Holds files states checkpoint

/-- What is found under the name of an epoch is a directory. -/
def Plain (states : AccelerateStates Content) : Prop :=
  ∀ epoch target, states.checkpoints (epochFolder epoch) ≠ some (.symlink target)

section Save

variable {files : StateFiles} {states : AccelerateStates Content}
  {checkpoint : Checkpoint Content} {saved : List (Checkpoint Content)}

/-- Whether a checkpoint is held depends on its folders only. -/
theorem Holds.congr {other : AccelerateStates Content} (holds : Holds files states checkpoint)
    (checkpoints : other.checkpoints (epochFolder checkpoint.epoch) =
      states.checkpoints (epochFolder checkpoint.epoch))
    (weights : other.weights (epochFolder checkpoint.epoch) =
      states.weights (epochFolder checkpoint.epoch)) : Holds files other checkpoint :=
  ⟨by rw [checkpoints]; exact holds.state, by rw [weights]; exact holds.weights⟩

/-- The files of `save_state` are whole after it, and no other file changes. -/
theorem performAll_saveState {names : List String} (distinct : names.Nodup)
    {directory : Store String (FileState Content)}
    (exists_ : states.checkpoints (epochFolder checkpoint.epoch) = some (.directory directory)) :
    ∃ after, (performAll AccelerateStates.perform states
        (saveState checkpoint names)).checkpoints (epochFolder checkpoint.epoch) =
          some (.directory after) ∧
      (∀ name ∈ names, after name = some (.written (checkpoint.state name))) ∧
      ∀ name ∉ names, after name = directory name := by
  induction names generalizing states directory with
  | nil => exact ⟨directory, exists_, by simp, fun _ _ => rfl⟩
  | cons name names ih =>
      rcases List.nodup_cons.mp distinct with ⟨fresh, distinct⟩
      have closed : (performAll AccelerateStates.perform states
          [.openFile (epochFolder checkpoint.epoch) name, .closeFile (epochFolder checkpoint.epoch)
            name (checkpoint.state name)]).checkpoints (epochFolder checkpoint.epoch) =
          some (.directory ((directory.put name .torn).put name
            (.written (checkpoint.state name)))) :=
        setFile_self (setFile_self exists_)
      rcases ih distinct closed with ⟨after, isAfter, written, others⟩
      refine ⟨after, ?_, ?_, ?_⟩
      · rw [saveState, List.flatMap_cons, performAll_append]
        exact isAfter
      · intro other isName
        rcases List.mem_cons.mp isName with rfl | isName
        · rw [others _ fresh]
          exact Function.update_self _ _ _
        · exact written other isName
      · intro other notName
        rw [List.mem_cons, not_or] at notName
        rw [others other notName.2]
        exact (Function.update_of_ne notName.1 _ _).trans (Function.update_of_ne notName.1 _ _)

/-- After `mkdir` the folder of the epoch is a directory. -/
theorem Plain.mkdir (plain : Plain states) (epoch : ℤ) :
    ∃ directory, (states.perform (.mkdir (epochFolder epoch))).checkpoints (epochFolder epoch) =
      some (.directory directory) := by
  rw [AccelerateStates.perform]
  cases found : states.checkpoints (epochFolder epoch) with
  | none => simp [Store.put]
  | some entry =>
      cases entry with
      | directory directory => simp [found]
      | symlink target => exact absurd found (plain epoch target)

variable (states checkpoint) in
/-- The weights are whole after `_save_weights`. -/
theorem performAll_saveWeights :
    ∃ directory, (performAll AccelerateStates.perform states (saveWeights checkpoint)).weights
        (epochFolder checkpoint.epoch) = some directory ∧
      directory "model.safetensors" = some (.written checkpoint.weights) := by
  have made : ∃ directory, (states.perform (.mkdirWeights (epochFolder checkpoint.epoch))).weights
      (epochFolder checkpoint.epoch) = some directory := by
    rw [AccelerateStates.perform]
    cases found : states.weights (epochFolder checkpoint.epoch) with
    | none => simp [Store.put]
    | some directory => simp [found]
  rcases made with ⟨directory, isMade⟩
  exact ⟨_, setWeights_self (setWeights_self isMade), Function.update_self _ _ _⟩

/-- Before the link is renamed, the checkpoint is whole and the temporary link names it. -/
theorem performAll_writeCheckpoint (files : StateFiles) (plain : Plain states)
    (checkpoint : Checkpoint Content) :
    Holds files (performAll AccelerateStates.perform states (writeCheckpoint files checkpoint))
        checkpoint ∧
      (performAll AccelerateStates.perform states
        (writeCheckpoint files checkpoint)).checkpoints (tmpLink checkpoint.epoch) =
          some (.symlink (epochFolder checkpoint.epoch)) := by
  rcases plain.mkdir checkpoint.epoch with ⟨directory, made⟩
  rcases performAll_saveState files.distinct made with ⟨after, written, isWritten, _⟩
  simp only [writeCheckpoint, performAll_append, performAll_cons, performAll_nil]
  rcases performAll_saveWeights (performAll AccelerateStates.perform
    (states.perform (.mkdir (epochFolder checkpoint.epoch)))
      (saveState checkpoint files.names)) checkpoint with ⟨weights, exported, isExported⟩
  have kept : (performAll AccelerateStates.perform (performAll AccelerateStates.perform
      (states.perform (.mkdir (epochFolder checkpoint.epoch)))
      (saveState checkpoint files.names)) (saveWeights checkpoint)).checkpoints
        (epochFolder checkpoint.epoch) = some (.directory after) := by
    rw [← written]
    apply performAll_view fun states : AccelerateStates Content =>
      states.checkpoints (epochFolder checkpoint.epoch)
    intro effect isEffect states
    apply perform_checkpoints
    simp only [saveWeights, List.mem_cons, List.not_mem_nil, or_false] at isEffect
    rcases isEffect with rfl | rfl | rfl <;> simp [DiskEffect.entries]
  have apart := epochFolder_ne_tmpLink checkpoint.epoch checkpoint.epoch
  refine ⟨⟨⟨after, ?_, isWritten⟩, ⟨weights, exported, isExported⟩⟩, Function.update_self _ _ _⟩
  rw [perform_checkpoints (by simp [DiskEffect.entries, apart]),
    perform_checkpoints (by simp [DiskEffect.entries, apart])]
  exact kept

/-- After a call, `latest-epoch` names the checkpoint, which is whole. -/
theorem performAll_saveCheckpoint (files : StateFiles) (plain : Plain states)
    (checkpoint : Checkpoint Content) :
    Holds files (performAll AccelerateStates.perform states (saveCheckpoint files checkpoint))
        checkpoint ∧
      (performAll AccelerateStates.perform states
        (saveCheckpoint files checkpoint)).checkpoints latestEpoch =
          some (.symlink (epochFolder checkpoint.epoch)) := by
  rcases performAll_writeCheckpoint files plain checkpoint with ⟨holds, linked⟩
  rw [saveCheckpoint, performAll_append, performAll_cons, performAll_nil]
  have notTmp := epochFolder_ne_tmpLink checkpoint.epoch checkpoint.epoch
  have notLatest := epochFolder_ne_latestEpoch checkpoint.epoch
  refine ⟨holds.congr (perform_checkpoints (by simp [DiskEffect.entries, notTmp, notLatest])) rfl,
    ?_⟩
  exact (perform_replace (latestEpoch_ne_tmpLink checkpoint.epoch)).trans linked

/-- No effect of a checkpoint makes the folder of an epoch a link. -/
theorem Plain.perform (plain : Plain states) {effect : DiskEffect Content}
    (isEffect : effect ∈ saveCheckpoint files checkpoint) : Plain (states.perform effect) := by
  intro epoch target isLink
  have notTmp := epochFolder_ne_tmpLink epoch checkpoint.epoch
  have notLatest := epochFolder_ne_latestEpoch epoch
  have framed : epochFolder epoch ∉ effect.entries → False := by
    intro apart
    rw [perform_checkpoints apart] at isLink
    exact plain epoch target isLink
  cases effect with
  | mkdir folder =>
      rw [AccelerateStates.perform] at isLink
      split at isLink
      · exact plain epoch target isLink
      · by_cases same : epochFolder epoch = folder
        · simp [Store.put, same] at isLink
        · exact framed (by simpa [DiskEffect.entries] using same)
  | openFile folder name => exact plain epoch target (symlink_of_setFile isLink)
  | closeFile folder name content => exact plain epoch target (symlink_of_setFile isLink)
  | mkdirWeights folder => exact framed (by simp [DiskEffect.entries])
  | openWeights folder name => exact framed (by simp [DiskEffect.entries])
  | closeWeights folder name content => exact framed (by simp [DiskEffect.entries])
  | unlink link =>
      simp only [saveCheckpoint, writeCheckpoint, saveState, saveWeights, List.mem_append,
        List.mem_flatMap, List.mem_cons, List.not_mem_nil, or_false, reduceCtorEq, false_or,
        and_false, exists_false, DiskEffect.unlink.injEq] at isEffect
      exact framed (by simp [DiskEffect.entries, isEffect, notTmp])
  | symlinkTo link name =>
      simp only [saveCheckpoint, writeCheckpoint, saveState, saveWeights, List.mem_append,
        List.mem_flatMap, List.mem_cons, List.not_mem_nil, or_false, reduceCtorEq, false_or,
        and_false, exists_false, DiskEffect.symlinkTo.injEq] at isEffect
      exact framed (by simp [DiskEffect.entries, isEffect.1, notTmp])
  | replace link name =>
      simp only [saveCheckpoint, writeCheckpoint, saveState, saveWeights, List.mem_append,
        List.mem_flatMap, List.mem_cons, List.not_mem_nil, or_false, reduceCtorEq, false_or,
        and_false, exists_false, DiskEffect.replace.injEq] at isEffect
      exact framed (by simp [DiskEffect.entries, isEffect.1, isEffect.2, notTmp, notLatest])

/-- Nor does a checkpoint that is interrupted. -/
theorem Plain.interrupted (plain : Plain states) (count : ℕ) :
    Plain (performFirst AccelerateStates.perform count states
      (saveCheckpoint files checkpoint)) :=
  performFirst_invariant (fun _ isEffect _ isPlain => isPlain.perform isEffect) count plain

/-- A call that does not write to the epoch that `latest-epoch` names can be interrupted. -/
theorem Resumable.interrupted (resumable : Resumable files saved states) (plain : Plain states)
    (isSaved : checkpoint ∈ saved)
    (other : states.checkpoints latestEpoch ≠ some (.symlink (epochFolder checkpoint.epoch)))
    (count : ℕ) : Resumable files saved (performFirst AccelerateStates.perform count states
      (saveCheckpoint files checkpoint)) := by
  rcases Nat.lt_or_ge (writeCheckpoint files checkpoint).length count with whole | short
  · rw [performFirst_of_length_le (by simpa [saveCheckpoint] using whole)]
    rcases performAll_saveCheckpoint files plain checkpoint with ⟨holds, latest⟩
    exact .inr ⟨checkpoint, isSaved, latest, holds⟩
  · have written : performFirst AccelerateStates.perform count states
        (saveCheckpoint files checkpoint) = performFirst AccelerateStates.perform count states
          (writeCheckpoint files checkpoint) := by
      rw [saveCheckpoint, performFirst_append, Nat.sub_eq_zero_of_le short]
      rfl
    have latest := performFirst_checkpoints files count states
      (epochFolder_ne_latestEpoch checkpoint.epoch).symm (latestEpoch_ne_tmpLink checkpoint.epoch)
    rw [written]
    rcases resumable with absent | ⟨named, isNamed, names, holds⟩
    · exact .inl (latest.trans absent)
    · have apart : epochFolder named.epoch ≠ epochFolder checkpoint.epoch := by
        intro same
        exact other (same ▸ names)
      exact .inr ⟨named, isNamed, latest.trans names,
        holds.congr (performFirst_checkpoints files count states apart
          (epochFolder_ne_tmpLink _ _)) (performFirst_weights files count states apart)⟩

end Save

/-! ## What a run saves -/

section Runs

variable {Sample : Type} {env : Environment Sample} {pipeline : Pipeline Sample}

/-- The epochs that a run over some epochs saves, up to where it ends or raises. -/
def savesOf (env : Environment Sample) (pipeline : Pipeline Sample) :
    List ℤ → Progress → List ℤ
  | [], _ => []
  | epoch :: rest, progress =>
      match trainEpoch env pipeline epoch progress with
      | .error _ => []
      | .ok closed =>
          (if saveDue pipeline.config epoch then [epoch] else []) ++
            if env.sigtermReceived epoch none then
              if closed.lastSavedEpoch ≠ epoch then [epoch] else []
            else savesOf env pipeline rest closed

/-- The epochs that a process saves. -/
def Pipeline.saves (env : Environment Sample) (pipeline : Pipeline Sample) : List ℤ :=
  savesOf env pipeline (range pipeline.config.startEpochAt pipeline.config.epochs) pipeline.start

/-- A run that returns has saved these epochs. -/
theorem checkpoints_of_trainEpochs {epochs : List ℤ} {before after : Progress}
    (returned : trainEpochs env pipeline epochs before = .ok after) :
    after.checkpoints = before.checkpoints ++ savesOf env pipeline epochs before := by
  induction epochs generalizing before with
  | nil =>
      cases returned
      simp [savesOf]
  | cons epoch rest ih =>
      rcases bind_ok_iff.mp returned with ⟨closed, trained, continued⟩
      have saved := (trainEpoch_saves trained).2
      have closedCheckpoints : closed.checkpoints = before.checkpoints ++
          if saveDue pipeline.config epoch then [epoch] else [] := by
        split at saved
        · rename_i due
          rw [saved.1, if_pos due]
        · rename_i notDue
          rw [saved.1, if_neg notDue, List.append_nil]
      simp only [savesOf, trained]
      rw [← List.append_assoc, ← closedCheckpoints]
      split at continued
      · rename_i received
        rw [if_pos received]
        split at continued
        · rename_i unsaved
          cases continued
          rw [if_pos unsaved]
        · rename_i alreadySaved
          cases continued
          rw [if_neg alreadySaved, List.append_nil]
      · rename_i notReceived
        rw [if_neg notReceived]
        exact ih continued

theorem savesOf_sublist (env : Environment Sample) (pipeline : Pipeline Sample)
    (epochs : List ℤ) (progress : Progress) :
    (savesOf env pipeline epochs progress).Sublist epochs := by
  induction epochs generalizing progress with
  | nil => exact List.Sublist.slnil
  | cons epoch rest ih =>
      rw [savesOf]
      cases trained : trainEpoch env pipeline epoch progress with
      | error error => exact List.nil_sublist _
      | ok closed =>
          have saved := (trainEpoch_saves trained).2
          by_cases due : saveDue pipeline.config epoch
          · rw [if_pos due] at saved
            simp only [due, saved.2, ne_eq, not_true_eq_false, if_true, if_false,
              List.singleton_append]
            apply List.Sublist.cons_cons
            split
            · exact List.nil_sublist rest
            · exact ih closed
          · simp only [due, if_false, List.nil_append, Bool.false_eq_true]
            split
            · split
              · simp
              · exact List.nil_sublist _
            · exact (ih closed).cons epoch

/-- The checkpoints of a run that returns are the epochs it saves. -/
theorem checkpoints_of_run {final : Progress} (returned : pipeline.run env = .ok final) :
    final.checkpoints = pipeline.saves env :=
  checkpoints_of_trainEpochs returned

theorem saves_pairwise (env : Environment Sample) (pipeline : Pipeline Sample) :
    (pipeline.saves env).Pairwise (· < ·) :=
  (pairwise_range _ _).sublist (savesOf_sublist env pipeline _ _)

theorem startEpochAt_le_of_mem_saves {epoch : ℤ} (isSaved : epoch ∈ pipeline.saves env) :
    pipeline.config.startEpochAt ≤ epoch :=
  (mem_range_iff.mp ((savesOf_sublist env pipeline _ _).subset isSaved)).1

end Runs

/-! ## Restarts -/

/-- A training process: what it saves for an epoch, and after how many effects it is killed. -/
structure Restart (Sample Content : Type) where
  env : Environment Sample
  pipeline : Pipeline Sample
  state : ℤ → String → Content
  weights : ℤ → Content
  killed : ℕ

/-- The artefacts with all the checkpoints that were begun. -/
structure Disk (Content : Type) where
  states : AccelerateStates Content
  saved : List (Checkpoint Content)

/-- An empty directory. -/
def Disk.empty : Disk Content :=
  ⟨⟨fun _ => none, fun _ => none⟩, []⟩

variable {Sample : Type} {files : StateFiles}

/-- The checkpoints of a process, in order. -/
def Restart.checkpoints (restart : Restart Sample Content) : List (Checkpoint Content) :=
  (restart.pipeline.saves restart.env).map fun epoch =>
    ⟨epoch, restart.state epoch, restart.weights epoch⟩

/-- A process runs until it is killed. -/
def restartStep (files : StateFiles) (disk : Disk Content) (restart : Restart Sample Content) :
    Option (Disk Content) :=
  some {
    states := performFirst AccelerateStates.perform restart.killed disk.states
      (restart.checkpoints.flatMap (saveCheckpoint files))
    saved := disk.saved ++ restart.checkpoints }

/-- The first epoch that the process saves is not the one that `latest-epoch` names. -/
def SavesElsewhere (disk : Disk Content) (restart : Restart Sample Content) : Prop :=
  ∀ epoch ∈ (restart.pipeline.saves restart.env).head?,
    disk.states.checkpoints latestEpoch ≠ some (.symlink (epochFolder epoch))

/-- Processes one after another, none of which begins with the epoch that `latest-epoch` names. -/
abbrev Restarts (Sample : Type) (files : StateFiles) : Disk Content → Disk Content → Prop :=
  Run (fun disk (restart : Restart Sample Content) => restartStep files disk restart)
    fun before restart _ => SavesElsewhere before restart

/-- What is resumed from is one of the checkpoints, with its weights, and whole. -/
def LoadsWhole (files : StateFiles) (disk : Disk Content) : Prop :=
  ∀ directory, disk.states.getCheckpointLoadPath true none = .ok (some directory) →
    ∃ checkpoint ∈ disk.saved,
      (∀ name ∈ files.names, directory name = some (.written (checkpoint.state name))) ∧
        ∃ weights, disk.states.weights (epochFolder checkpoint.epoch) = some weights ∧
          weights "model.safetensors" = some (.written checkpoint.weights)

/-- The invariant of the directory over restarts. -/
structure Sound (files : StateFiles) (disk : Disk Content) : Prop where
  plain : Plain disk.states
  resumable : Resumable files disk.saved disk.states

theorem sound_empty (files : StateFiles) : Sound files (Disk.empty : Disk Content) :=
  ⟨fun _ _ => nofun, .inl rfl⟩

/-- More saved checkpoints, no less resumable. -/
theorem Resumable.mono {saved more : List (Checkpoint Content)}
    {states : AccelerateStates Content} (resumable : Resumable files saved states)
    (subset : saved ⊆ more) : Resumable files more states := by
  rcases resumable with absent | ⟨checkpoint, isSaved, names, holds⟩
  · exact .inl absent
  · exact .inr ⟨checkpoint, subset isSaved, names, holds⟩

/-- The checkpoints that are left can be saved, wherever the process is killed. -/
structure Ready (files : StateFiles) (saved checkpoints : List (Checkpoint Content))
    (states : AccelerateStates Content) : Prop where
  plain : Plain states
  resumable : Resumable files saved states
  areSaved : checkpoints ⊆ saved
  increasing : (checkpoints.map Checkpoint.epoch).Pairwise (· < ·)
  elsewhere : ∀ first ∈ checkpoints.head?,
    states.checkpoints latestEpoch ≠ some (.symlink (epochFolder first.epoch))

theorem Ready.interrupted {saved checkpoints : List (Checkpoint Content)}
    {states : AccelerateStates Content} (ready : Ready files saved checkpoints states)
    (count : ℕ) :
    Plain (performFirst AccelerateStates.perform count states
        (checkpoints.flatMap (saveCheckpoint files))) ∧
      Resumable files saved (performFirst AccelerateStates.perform count states
        (checkpoints.flatMap (saveCheckpoint files))) := by
  refine performFirst_calls (Ready files saved)
    (fun states => Plain states ∧ Resumable files saved states) ?_ ?_ ?_ ready count
  · intro states ready
    exact ⟨ready.plain, ready.resumable⟩
  · intro checkpoint rest states count ready
    exact ⟨ready.plain.interrupted count, ready.resumable.interrupted ready.plain
      (ready.areSaved List.mem_cons_self) (ready.elsewhere checkpoint rfl) count⟩
  · intro checkpoint rest states ready
    rcases performAll_saveCheckpoint files ready.plain checkpoint with ⟨holds, latest⟩
    rcases List.pairwise_cons.mp ready.increasing with ⟨first, increasing⟩
    refine ⟨?_, ?_, ?_, increasing, ?_⟩
    · rw [← performFirst_of_length_le (Nat.le_refl _)]
      exact ready.plain.interrupted _
    · exact .inr ⟨checkpoint, ready.areSaved List.mem_cons_self, latest, holds⟩
    · exact fun other isLater => ready.areSaved (List.mem_cons_of_mem _ isLater)
    · intro next isNext names
      have later := first next.epoch
        (List.mem_map_of_mem (List.mem_of_mem_head? isNext))
      rw [latest, Option.some.injEq, Entry.symlink.injEq] at names
      rw [epochFolder_injective names] at later
      exact lt_irrefl _ later

/-- A process that saves elsewhere keeps the directory sound, wherever it is killed. -/
theorem Sound.step {before after : Disk Content} (sound : Sound files before)
    {restart : Restart Sample Content} (elsewhere : SavesElsewhere before restart)
    (enabled : restartStep files before restart = some after) : Sound files after := by
  cases enabled
  have ready : Ready files (before.saved ++ restart.checkpoints) restart.checkpoints
      before.states := by
    refine ⟨sound.plain, sound.resumable.mono (List.subset_append_left _ _),
      List.subset_append_right _ _, ?_, ?_⟩
    · rw [Restart.checkpoints, List.map_map]
      simpa [Function.comp_def] using saves_pairwise restart.env restart.pipeline
    · intro first isFirst
      rw [Restart.checkpoints, List.head?_map] at isFirst
      rcases Option.map_eq_some_iff.mp isFirst with ⟨epoch, isEpoch, rfl⟩
      exact elsewhere epoch isEpoch
  rcases ready.interrupted restart.killed with ⟨plain, resumable⟩
  exact ⟨plain, resumable⟩

theorem sound_of_run {disk later : Disk Content} (sound : Sound files disk)
    (run : Restarts Sample files disk later) : Sound files later :=
  run.invariant sound fun _ _ _ sound elsewhere enabled => sound.step elsewhere enabled

/-! ## Resuming -/

theorem resolve_latestEpoch {states : AccelerateStates Content} {checkpoint : Checkpoint Content}
    (names : states.checkpoints latestEpoch = some (.symlink (epochFolder checkpoint.epoch)))
    {directory : Store String (FileState Content)}
    (isDirectory : states.checkpoints (epochFolder checkpoint.epoch) =
      some (.directory directory)) : states.resolve latestEpoch = some directory := by
  simp [AccelerateStates.resolve, names, isDirectory]

theorem load_eq (states : AccelerateStates Content) :
    states.getCheckpointLoadPath true none =
      match states.resolve latestEpoch with
      | none => .error ⟨latestEpoch⟩
      | some directory => .ok (some directory) :=
  rfl

/-- A directory is loaded exactly if `latest-epoch` leads to it. -/
theorem load_ok_iff {states : AccelerateStates Content}
    {directory : Store String (FileState Content)} :
    states.getCheckpointLoadPath true none = .ok (some directory) ↔
      states.resolve latestEpoch = some directory := by
  rw [load_eq]
  cases states.resolve latestEpoch with
  | none => simp
  | some found => simp

theorem Sound.loadsWhole {disk : Disk Content} (sound : Sound files disk) :
    LoadsWhole files disk := by
  intro directory loaded
  rw [load_ok_iff] at loaded
  rcases sound.resumable with absent | ⟨checkpoint, isSaved, names, holds⟩
  · simp [AccelerateStates.resolve, absent] at loaded
  · rcases holds.state with ⟨found, isDirectory, written⟩
    rw [resolve_latestEpoch names isDirectory, Option.some.injEq] at loaded
    subst loaded
    exact ⟨checkpoint, isSaved, written, holds.weights⟩

/-- A checkpoint can be loaded exactly if `latest-epoch` is there. -/
theorem Sound.loads_iff {disk : Disk Content} (sound : Sound files disk) :
    (∃ directory, disk.states.getCheckpointLoadPath true none = .ok (some directory)) ↔
      disk.states.checkpoints latestEpoch ≠ none := by
  constructor
  · rintro ⟨directory, loaded⟩ absent
    rw [load_ok_iff] at loaded
    simp [AccelerateStates.resolve, absent] at loaded
  · intro present
    rcases sound.resumable with absent | ⟨checkpoint, _, names, holds⟩
    · exact absurd absent present
    · rcases holds.state with ⟨directory, isDirectory, _⟩
      exact ⟨directory, load_ok_iff.mpr (resolve_latestEpoch names isDirectory)⟩

/-- There is a checkpoint to resume from. -/
def Started (files : StateFiles) (disk : Disk Content) : Prop :=
  Sound files disk ∧ disk.states.checkpoints latestEpoch ≠ none

/-- `latest-epoch` is never missing again, also while a process replaces it. -/
theorem present_of_interrupted {checkpoints : List (Checkpoint Content)}
    {states : AccelerateStates Content} (plain : Plain states)
    (present : states.checkpoints latestEpoch ≠ none) (count : ℕ) :
    (performFirst AccelerateStates.perform count states
      (checkpoints.flatMap (saveCheckpoint files))).checkpoints latestEpoch ≠ none := by
  refine performFirst_calls
    (fun _ states => Plain states ∧ states.checkpoints latestEpoch ≠ none)
    (fun states => states.checkpoints latestEpoch ≠ none) ?_ ?_ ?_ ⟨plain, present⟩ count
  · exact fun states known => known.2
  · intro checkpoint rest states count known
    rcases Nat.lt_or_ge (writeCheckpoint files checkpoint).length count with whole | short
    · rw [performFirst_of_length_le (by simpa [saveCheckpoint] using whole),
        (performAll_saveCheckpoint files known.1 checkpoint).2]
      exact Option.some_ne_none _
    · rw [saveCheckpoint, performFirst_append, Nat.sub_eq_zero_of_le short]
      have latest := performFirst_checkpoints files count states
        (epochFolder_ne_latestEpoch checkpoint.epoch).symm
        (latestEpoch_ne_tmpLink checkpoint.epoch)
      exact fun absent => known.2 (latest.symm.trans absent)
  · intro checkpoint rest states known
    refine ⟨?_, ?_⟩
    · rw [← performFirst_of_length_le (Nat.le_refl _)]
      exact known.1.interrupted _
    · rw [(performAll_saveCheckpoint files known.1 checkpoint).2]
      exact Option.some_ne_none _

/-- A process that starts after the epoch that `latest-epoch` names saves elsewhere. -/
theorem savesElsewhere_of_later {disk : Disk Content} {restart : Restart Sample Content}
    (later : ∀ epoch, disk.states.checkpoints latestEpoch = some (.symlink (epochFolder epoch)) →
      epoch < restart.pipeline.config.startEpochAt) : SavesElsewhere disk restart := by
  intro epoch isFirst names
  have startsAfter := later epoch names
  have isSaved := startEpochAt_le_of_mem_saves (List.mem_of_mem_head? isFirst)
  omega

/-- However often training is killed and started again, if no process begins with the epoch that
`latest-epoch` names, then what it resumes from is a whole checkpoint, and once there is one to
resume from there always is. -/
theorem resumes_whole_checkpoint (Sample : Type) (files : StateFiles) {disk : Disk Content}
    (run : Restarts Sample files Disk.empty disk) :
    LoadsWhole files disk ∧
      ∀ later, Restarts Sample files disk later →
        (∃ directory, disk.states.getCheckpointLoadPath true none = .ok (some directory)) →
          ∃ directory, later.states.getCheckpointLoadPath true none = .ok (some directory) := by
  have sound := sound_of_run (sound_empty files) run
  refine ⟨sound.loadsWhole, fun later continued loads => ?_⟩
  rw [(sound_of_run sound continued).loads_iff]
  rw [sound.loads_iff] at loads
  have kept : Started files later := by
    apply continued.invariant (show Started files disk from ⟨sound, loads⟩)
    rintro before restart after ⟨soundBefore, present⟩ elsewhere enabled
    refine ⟨soundBefore.step elsewhere enabled, ?_⟩
    cases enabled
    exact present_of_interrupted soundBefore.plain present restart.killed
  exact kept.2

/-- A process can be killed at any moment exactly if it does not begin with the epoch that
`latest-epoch` names: a process that does tears the checkpoint to resume from. -/
theorem killable_iff (files : StateFiles) (nonempty : files.names ≠ []) {disk : Disk Content}
    (run : Restarts Sample files Disk.empty disk)
    (restart : Restart Sample Content) :
    (∀ killed after, restartStep files disk { restart with killed := killed } = some after →
      LoadsWhole files after) ↔ SavesElsewhere disk restart := by
  have sound := sound_of_run (sound_empty files) run
  constructor
  · intro killable epoch isFirst names
    rcases sound.resumable with absent | ⟨checkpoint, _, isNamed, holds⟩
    · exact nomatch absent.symm.trans names
    rcases holds.state with ⟨directory, isDirectory, _⟩
    obtain ⟨name, others, isNames⟩ := List.exists_cons_of_ne_nil nonempty
    rw [isNamed, Option.some.injEq, Entry.symlink.injEq] at names
    rcases List.head?_eq_some_iff.mp isFirst with ⟨rest, areSaves⟩
    -- killed while it writes the first file again
    let killed := (disk.states.perform (.mkdir (epochFolder epoch))).perform
      (.openFile (epochFolder epoch) name)
    have made : disk.states.perform (.mkdir (epochFolder epoch)) = disk.states := by
      rw [AccelerateStates.perform, if_pos]
      rw [← names, isDirectory]
      rfl
    have torn : killed.checkpoints (epochFolder epoch) =
        some (.directory (directory.put name .torn)) := by
      simp only [killed, made]
      exact setFile_self (names ▸ isDirectory)
    have latest : killed.checkpoints latestEpoch = some (.symlink (epochFolder epoch)) := by
      simp only [killed, made]
      rw [perform_checkpoints (by
        simpa [DiskEffect.entries] using (epochFolder_ne_latestEpoch epoch).symm), isNamed, names]
    have isKilled : restartStep files disk { restart with killed := 2 } =
        some ⟨killed, disk.saved ++ restart.checkpoints⟩ := by
      simp [restartStep, Restart.checkpoints, areSaves, saveCheckpoint, writeCheckpoint, saveState,
        isNames, performFirst, killed]
    rcases killable 2 _ isKilled (directory.put name .torn)
      (load_ok_iff.mpr (by simp [AccelerateStates.resolve, latest, torn])) with
      ⟨other, _, written, _⟩
    have whole := written name (isNames ▸ List.mem_cons_self)
    rw [Store.put, Function.update_self] at whole
    cases whole
  · intro elsewhere killed after enabled
    have elsewhereToo : SavesElsewhere disk { restart with killed := killed } := elsewhere
    exact (sound.step elsewhereToo enabled).loadsWhole

/-! ## Two processes -/

/-- What `save_state` writes for one model on one process. -/
def stateFiles : StateFiles :=
  ⟨["model.safetensors", "optimizer.bin", "random_states_0.pkl"], by decide⟩

/-- A process that is preempted in the second epoch, from some epoch on. -/
def preemptedProcess (startEpochAt : ℤ) (killed : ℕ) : Restart ℕ ℤ where
  env := preempted
  pipeline := { fiveEpochs with
    config := { fiveEpochs.config with startEpochAt := startEpochAt } }
  state := fun epoch _ => epoch
  weights := id
  killed := killed

/-- The first process has saved its one checkpoint when it is killed. -/
theorem firstProcess_runs : ∃ disk,
    restartStep stateFiles Disk.empty (preemptedProcess 0 13) = some disk ∧
      Restarts ℕ stateFiles Disk.empty disk ∧
      disk.states.checkpoints latestEpoch = some (.symlink (epochFolder 1)) := by
  refine ⟨_, rfl, .tail (preemptedProcess 0 13) .refl rfl fun _ _ => nofun, ?_⟩
  have isFirst : (preemptedProcess 0 13).pipeline.saves (preemptedProcess 0 13).env = [1] := by
    decide +kernel
  have areSaved : (preemptedProcess 0 13).checkpoints = [⟨1, fun _ => 1, 1⟩] := by
    rw [Restart.checkpoints, isFirst]
    rfl
  rw [areSaved, List.flatMap_singleton]
  exact (performAll_saveCheckpoint stateFiles (sound_empty stateFiles).plain
    ⟨1, fun _ => 1, 1⟩).2

/-- A second process is killed while it writes its own first checkpoint; what was saved before it is
still what is resumed from. -/
theorem resumes_whole_checkpoint_preempted : ∃ disk later,
    restartStep stateFiles Disk.empty (preemptedProcess 0 13) = some disk ∧
      restartStep stateFiles disk (preemptedProcess 2 4) = some later ∧
      LoadsWhole stateFiles later ∧
      ∃ directory, later.states.getCheckpointLoadPath true none = .ok (some directory) := by
  rcases firstProcess_runs with ⟨disk, stepped, run, latest⟩
  have elsewhere : SavesElsewhere disk (preemptedProcess 2 4) := by
    apply savesElsewhere_of_later
    intro epoch names
    rw [latest, Option.some.injEq, Entry.symlink.injEq] at names
    rw [← epochFolder_injective names]
    decide
  have continued : Restarts ℕ stateFiles disk _ :=
    .tail (preemptedProcess 2 4) .refl rfl elsewhere
  have loads := (sound_of_run (sound_empty stateFiles) run).loads_iff.mpr (by simp [latest])
  have whole := resumes_whole_checkpoint ℕ stateFiles (run.trans continued)
  have there := (resumes_whole_checkpoint ℕ stateFiles run).2 _ continued loads
  exact ⟨disk, _, stepped, rfl, whole.1, there⟩

/-- A process that trains the saved epoch again can be killed so that its checkpoint is lost. -/
theorem killable_iff_preempted : ∃ disk,
    restartStep stateFiles Disk.empty (preemptedProcess 0 13) = some disk ∧
      ∃ killed after, restartStep stateFiles disk (preemptedProcess 1 killed) = some after ∧
        ¬ LoadsWhole stateFiles after := by
  rcases firstProcess_runs with ⟨disk, stepped, run, latest⟩
  refine ⟨disk, stepped, ?_⟩
  have second : (preemptedProcess 1 0).pipeline.saves preempted = [1] := by decide +kernel
  have notElsewhere : ¬ SavesElsewhere disk (preemptedProcess 1 0) := by
    intro elsewhere
    exact elsewhere 1 (by rw [show (preemptedProcess 1 0).env = preempted from rfl, second]; rfl)
      latest
  have killable := (killable_iff stateFiles (by decide) run (preemptedProcess 1 0)).not.mpr
    notElsewhere
  simp only [not_forall] at killable
  rcases killable with ⟨killed, after, killedThere, torn⟩
  exact ⟨killed, after, killedThere, torn⟩

end VisionApi.Training
