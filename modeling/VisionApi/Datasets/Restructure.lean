import Mathlib.Data.List.Nodup
import Mathlib.Logic.Function.Basic
import VisionApi.Foundation.Run

/-!
# Restructuring the validation split

`restructure_tiny_imagenet_val` moves the images of `val/images/` into a folder for
each class and removes `images/`.  It is modelled once as a whole and once step by
step, so that it can be interrupted and called again.

`layout` is what the split is to look like, as a function of the split with which a
call begins: an annotated image lies in the folder of its class, everything else stays
where it is, and `images/` is gone.  The whole call computes the layout
(`restructure_eq_layout`), and so does, from any state in between, a later call that
runs to its end (`restructure_resumes`).

The invariant that carries the second result is `Resumable`: the layout of the present
state is the layout of the first one.  Each step keeps it, though for different
reasons in each phase.  Creating a folder changes the layout only if no image is to
come, so a step that creates one remembers the image it is about to move (`Ready`);
and `images/` is only removed when it has no annotated image left (`Awaiting`).

Listings are what the directory holds at the moment of a call, in any order.
-/

namespace VisionApi.Datasets

open Foundation

variable {Content : Type}

/-! ## Directories -/

/-- The files of a directory by name. -/
abbrev Directory (Content : Type) := String → Option Content

/-- A file or a directory of files. -/
inductive Entry (Content : Type) where
  | file (content : Content)
  | directory (files : Directory Content)

/-- What `val/` holds. -/
abbrev Val (Content : Type) := String → Option (Entry Content)

namespace Val

/-- There is a directory of this name. -/
def isDir (val : Val Content) (name : String) : Bool :=
  match val name with
  | some (.directory _) => true
  | _ => false

/-- The files of a directory in `val/`. -/
def files (val : Val Content) (name : String) : Directory Content :=
  match val name with
  | some (.directory files) => files
  | _ => fun _ => none

/-- Replace the files of a directory. -/
def setFiles (val : Val Content) (name : String) (files : Directory Content) : Val Content :=
  Function.update val name (some (.directory files))

end Val

/-- Why a call raises. -/
inductive RestructureError where
  | noVal
  | malformed
  | noAnnotations
  /-- The `FileExistsError` of `mkdir`. -/
  | fileExists

/-- `class_dir.mkdir(exist_ok=True)`. -/
def Val.mkdir (val : Val Content) (wnid : String) : Except RestructureError (Val Content) :=
  match val wnid with
  | none => .ok (val.setFiles wnid fun _ => none)
  | some (.directory _) => .ok val
  | some (.file _) => .error .fileExists

/-- Remove a file of `images/`. -/
def Val.unlinkImage (val : Val Content) (filename : String) : Val Content :=
  val.setFiles "images" (Function.update (val.files "images") filename none)

/-- `source.rename(class_dir / filename)`. -/
def Val.moveImage (val : Val Content) (filename wnid : String) (content : Content) : Val Content :=
  let without := val.unlinkImage filename
  without.setFiles wnid (Function.update (without.files wnid) filename (some content))

/-- Remove `images/` itself. -/
def Val.removeImages (val : Val Content) : Val Content :=
  Function.update val "images" none

/-! ## The call -/

/-- `line.split("\t")`. -/
def fields (line : String) : List String :=
  (line.toList.splitOn '\t').map String.ofList

/-- The file name and the class of a line; `none` for a line with fewer than two fields. -/
def annotation (line : String) : Option (String × String) :=
  match fields line with
  | filename :: wnid :: _ => some (filename, wnid)
  | _ => none

/-- What a call finds: `none` if there is nothing to do, else the lines of the annotations.  The
lines of a text file and the names that `iterdir` yields are arguments. -/
def examine (linesOf : Content → List String) (listing : List String) (val : Val Content) :
    Except RestructureError (Option (List String)) :=
  if !val.isDir "images" then
    if listing.any val.isDir then .ok none else .error .malformed
  else
    match val "val_annotations.txt" with
    | some (.file content) => .ok (some (linesOf content))
    | _ => .error .noAnnotations

/-- The loop over the lines, with the number of moved images. -/
def moveImages : List String → ℕ → Val Content → Except RestructureError ℕ × Val Content
  | [], moved, val => (.ok moved, val)
  | line :: lines, moved, val =>
      match annotation line with
      | none => moveImages lines moved val
      | some (filename, wnid) =>
          match val.files "images" filename with
          -- Not found, or moved by a call that was interrupted.
          | none => moveImages lines moved val
          | some content =>
              match val.mkdir wnid with
              | .error error => (.error error, val)
              | .ok made => moveImages lines (moved + 1) (made.moveImage filename wnid content)

/-- `restructure_tiny_imagenet_val`. -/
def restructure (linesOf : Content → List String) (listing : List String) :
    Option (Val Content) → Except RestructureError ℕ × Option (Val Content)
  | none => (.error .noVal, none)
  | some val =>
      match examine linesOf listing val with
      | .error error => (.error error, some val)
      | .ok none => (.ok 0, some val)
      | .ok (some lines) =>
          match moveImages lines 0 val with
          | (.error error, left) => (.error error, some left)
          | (.ok moved, left) => (.ok moved, some left.removeImages)

/-! ## Step by step -/

/-- What a call still has to do; no call has been made when it is `idle`. -/
inductive Pending (Content : Type) where
  | idle
  | reading (lines : List String)
  | renaming (filename wnid : String) (content : Content) (lines : List String)
  | removing (names : List String)
  | done

/-- The split and what the call has left to do. -/
structure Machine (Content : Type) where
  val : Val Content
  pending : Pending Content

/-- A call, which interrupts the one before it if that is not done, the listing with which `rmtree`
begins, or another step of the call. -/
inductive Step where
  | call (listing : List String)
  | list (names : List String)
  | advance

/-- One effect of a call, or the beginning of a call. -/
def Machine.step (linesOf : Content → List String) (machine : Machine Content) :
    Step → Option (Machine Content)
  | .call listing =>
      match examine linesOf listing machine.val with
      | .error _ => none
      | .ok none => some ⟨machine.val, .done⟩
      | .ok (some lines) => some ⟨machine.val, .reading lines⟩
  | .list names =>
      match machine.pending with
      | .reading [] => some ⟨machine.val, .removing names⟩
      | _ => none
  | .advance =>
      match machine.pending with
      | .reading (line :: lines) =>
          match annotation line with
          | none => some ⟨machine.val, .reading lines⟩
          | some (filename, wnid) =>
              match machine.val.files "images" filename with
              | none => some ⟨machine.val, .reading lines⟩
              | some content =>
                  match machine.val.mkdir wnid with
                  | .error _ => none
                  | .ok made => some ⟨made, .renaming filename wnid content lines⟩
      | .renaming filename wnid content lines =>
          some ⟨machine.val.moveImage filename wnid content, .reading lines⟩
      | .removing (name :: names) => some ⟨machine.val.unlinkImage name, .removing names⟩
      | .removing [] => some ⟨machine.val.removeImages, .done⟩
      | _ => none

/-- The names of a directory, each once. -/
def Lists {Item : Type} (listing : List String) (directory : String → Option Item) : Prop :=
  listing.Nodup ∧ ∀ name, name ∈ listing ↔ (directory name).isSome = true

/-- Listings are those of the directories. -/
def TrueListing (machine : Machine Content) (step : Step) (_ : Machine Content) : Prop :=
  (∀ listing, step = .call listing → Lists listing machine.val) ∧
    ∀ names, step = .list names → Lists names (machine.val.files "images")

/-! ## The layout -/

/-- The file names of the annotations with their classes. -/
def annotated (lines : List String) : List (String × String) :=
  lines.filterMap annotation

/-- The files of a class, together with those that are still to be moved into it. -/
def settled (pairs : List (String × String)) (val : Val Content) (wnid : String) :
    Directory Content := fun filename =>
  if (filename, wnid) ∈ pairs then
    (val.files "images" filename).or (val.files wnid filename)
  else val.files wnid filename

/-- The layout with all images moved and `images/` removed. -/
def layout (pairs : List (String × String)) (val : Val Content) : Val Content := fun name =>
  if name = "images" then none
  else
    match val name with
    | some (.file content) => some (.file content)
    | some (.directory _) => some (.directory (settled pairs val name))
    | none =>
        if pairs.any fun pair => pair.2 == name && (val.files "images" pair.1).isSome then
          some (.directory (settled pairs val name))
        else none

section Layout

variable {pairs : List (String × String)} {val other : Val Content} {filename wnid name : String}
  {content : Content}

@[simp] theorem setFiles_self (files : Directory Content) :
    val.setFiles name files name = some (.directory files) := by
  simp [Val.setFiles]

@[simp] theorem files_setFiles_self (files : Directory Content) :
    (val.setFiles name files).files name = files := by
  simp [Val.files]

theorem setFiles_of_ne (files : Directory Content) (isOther : name ≠ wnid) :
    val.setFiles wnid files name = val name := by
  simp [Val.setFiles, isOther]

theorem files_congr (same : other name = val name) : other.files name = val.files name := by
  simp only [Val.files, same]

theorem files_of_directory {files : Directory Content}
    (isDir : val name = some (.directory files)) : val.files name = files := by
  simp only [Val.files, isDir]

theorem files_of_none (absent : val name = none) : val.files name = fun _ => none := by
  simp only [Val.files, absent]

theorem files_setFiles_of_ne (files : Directory Content) (isOther : name ≠ wnid) :
    (val.setFiles wnid files).files name = val.files name :=
  files_congr (setFiles_of_ne files isOther)

/-- Creating a folder that exists leaves it as it is. -/
theorem mkdir_eq (notFile : ∀ content, val wnid ≠ some (.file content)) :
    val.mkdir wnid = .ok (val.setFiles wnid (val.files wnid)) := by
  rw [Val.mkdir]
  split
  · rename_i absent
    simp [Val.files, absent]
  · rename_i files isDir
    have same : val.setFiles wnid (val.files wnid) = val := by
      simp only [Val.setFiles, Val.files, isDir]
      rw [← isDir, Function.update_eq_self]
    rw [same]
  · rename_i content isFile
    exact absurd isFile (notFile content)

/-- The folder of a class in the layout. -/
theorem layout_class (notImages : name ≠ "images")
    (notFile : ∀ content, val name ≠ some (.file content))
    (isClass : val.isDir name = true ∨
      ∃ pair ∈ pairs, pair.2 = name ∧ (val.files "images" pair.1).isSome = true) :
    layout pairs val name = some (.directory (settled pairs val name)) := by
  rw [layout, if_neg notImages]
  split
  · rename_i content isFile
    exact absurd isFile (notFile content)
  · rfl
  · rename_i absent
    rw [if_pos]
    rcases isClass with isDir | ⟨pair, isAnnotated, isName, present⟩
    · simp [Val.isDir, absent] at isDir
    · rw [List.any_eq_true]
      exact ⟨pair, isAnnotated, by simp [isName, present]⟩

/-- Two states have the same layout where they agree on what lies in a name and on the images that
are to be moved there. -/
theorem layout_apply_congr (same : other name = val name)
    (kept : ∀ pair ∈ pairs, pair.2 = name →
      other.files "images" pair.1 = val.files "images" pair.1) :
    layout pairs other name = layout pairs val name := by
  have settles : settled pairs other name = settled pairs val name := by
    funext filename
    rw [settled, settled, files_congr same]
    split
    · rename_i isAnnotated
      rw [kept _ isAnnotated rfl]
    · rfl
  have awaits : (pairs.any fun pair => pair.2 == name && (other.files "images" pair.1).isSome) =
      pairs.any fun pair => pair.2 == name && (val.files "images" pair.1).isSome := by
    rw [Bool.eq_iff_iff, List.any_eq_true, List.any_eq_true]
    apply exists_congr
    intro pair
    apply and_congr_right
    intro isAnnotated
    by_cases isName : pair.2 = name
    · rw [kept pair isAnnotated isName]
    · simp [isName]
  simp only [layout, same, settles, awaits]

/-- The layout depends on the folders and the annotated images only. -/
theorem layout_congr (away : ∀ name, name ≠ "images" → other name = val name)
    (kept : ∀ pair ∈ pairs, other.files "images" pair.1 = val.files "images" pair.1) :
    layout pairs other = layout pairs val := by
  funext name
  by_cases isImages : name = "images"
  · simp [layout, isImages]
  · exact layout_apply_congr (away name isImages) fun pair isAnnotated _ => kept pair isAnnotated

/-! ### Steps that keep the layout -/

/-- Creating the folder of an image does not change the layout. -/
theorem layout_mkdir (isAnnotated : (filename, wnid) ∈ pairs) (notImages : wnid ≠ "images")
    (notFile : ∀ content, val wnid ≠ some (.file content))
    (present : (val.files "images" filename).isSome = true) :
    layout pairs (val.setFiles wnid (val.files wnid)) = layout pairs val := by
  have images : (val.setFiles wnid (val.files wnid)).files "images" = val.files "images" :=
    files_setFiles_of_ne _ notImages.symm
  funext name
  by_cases isWnid : name = wnid
  · subst name
    rw [layout_class notImages notFile (.inr ⟨_, isAnnotated, rfl, present⟩),
      layout_class notImages (by simp) (.inl (by simp [Val.isDir]))]
    congr 2
    funext other
    simp only [settled, images, files_setFiles_self]
  · apply layout_apply_congr (setFiles_of_ne _ isWnid)
    intro pair _ _
    rw [images]

theorem unlinkImage_of_ne (notImages : name ≠ "images") :
    val.unlinkImage filename name = val name :=
  setFiles_of_ne _ notImages

@[simp] theorem images_unlinkImage :
    (val.unlinkImage filename).files "images" =
      Function.update (val.files "images") filename none :=
  files_setFiles_self _

theorem moveImage_of_ne (notImages : name ≠ "images") (notWnid : name ≠ wnid) :
    val.moveImage filename wnid content name = val name := by
  rw [Val.moveImage, setFiles_of_ne _ notWnid, unlinkImage_of_ne notImages]

theorem images_moveImage (notImages : wnid ≠ "images") :
    (val.moveImage filename wnid content).files "images" =
      Function.update (val.files "images") filename none := by
  rw [Val.moveImage, files_setFiles_of_ne _ notImages.symm, images_unlinkImage]

theorem files_moveImage (notImages : wnid ≠ "images") :
    (val.moveImage filename wnid content).files wnid =
      Function.update (val.files wnid) filename (some content) := by
  rw [Val.moveImage, files_setFiles_self, files_congr (unlinkImage_of_ne notImages)]

/-- Moving an image does not change the layout. -/
theorem layout_moveImage (unique : (pairs.map Prod.fst).Nodup)
    (isAnnotated : (filename, wnid) ∈ pairs) (notImages : wnid ≠ "images")
    (isDir : val.isDir wnid = true) (present : val.files "images" filename = some content) :
    layout pairs (val.moveImage filename wnid content) = layout pairs val := by
  funext name
  by_cases isImages : name = "images"
  · simp [layout, isImages]
  by_cases isWnid : name = wnid
  · subst name
    have notFile : ∀ content, val wnid ≠ some (.file content) := by
      intro content isFile
      simp [Val.isDir, isFile] at isDir
    rw [layout_class notImages notFile (.inl isDir),
      layout_class notImages (by simp [Val.moveImage]) (.inl (by simp [Val.moveImage, Val.isDir]))]
    congr 2
    funext other
    rw [settled, settled, images_moveImage notImages, files_moveImage notImages]
    by_cases isMoved : other = filename
    · subst other
      simp [isAnnotated, present]
    · simp [isMoved]
  · apply layout_apply_congr (moveImage_of_ne isImages isWnid)
    intro pair isPair isName
    have isOther : pair.1 ≠ filename := by
      intro isSame
      have isEqual := List.inj_on_of_nodup_map unique isPair isAnnotated isSame
      rw [isEqual] at isName
      exact isWnid isName.symm
    rw [images_moveImage notImages, Function.update_of_ne isOther]

theorem layout_unlinkImage (absent : ∀ pair ∈ pairs, val.files "images" pair.1 = none) :
    layout pairs (val.unlinkImage filename) = layout pairs val := by
  apply layout_congr
  · intro name notImages
    exact unlinkImage_of_ne notImages
  · intro pair isAnnotated
    rw [images_unlinkImage, Function.update_apply, absent pair isAnnotated, ite_self]

/-- Removing `images/` without an annotated image does not change the layout. -/
theorem layout_removeImages (absent : ∀ pair ∈ pairs, val.files "images" pair.1 = none) :
    layout pairs val.removeImages = layout pairs val := by
  apply layout_congr
  · intro name notImages
    rw [Val.removeImages, Function.update_of_ne notImages]
  · intro pair isAnnotated
    rw [absent pair isAnnotated]
    simp [Val.files, Val.removeImages]

/-- A split without `images/` is its own layout. -/
theorem layout_eq_self (gone : val "images" = none) : layout pairs val = val := by
  have noImages := files_of_none gone
  have settles : ∀ name, settled pairs val name = val.files name := by
    intro name
    funext filename
    simp [settled, noImages]
  funext name
  by_cases isImages : name = "images"
  · simp [layout, isImages, gone]
  · rw [layout, if_neg isImages, settles]
    split
    · rename_i isFile
      rw [isFile]
    · rename_i isDir
      rw [files_of_directory isDir, isDir]
    · rename_i absent
      simp [noImages, absent]

theorem settled_of_not_mem (notAnnotated : (filename, name) ∉ pairs) :
    settled pairs val name filename = val.files name filename := by
  rw [settled, if_neg notAnnotated]

theorem settled_of_absent (absent : val name = none)
    (nothing : ¬(pairs.any fun pair =>
      pair.2 == name && (val.files "images" pair.1).isSome) = true) :
    settled pairs val name = fun _ => none := by
  funext filename
  rw [settled, files_of_none absent, Option.or_none, ite_eq_right_iff]
  intro isAnnotated
  by_contra present
  apply nothing
  rw [List.any_eq_true]
  exact ⟨(filename, name), isAnnotated, by simp [Option.isSome_iff_ne_none, present]⟩

/-- The files of a folder in the layout. -/
theorem files_layout (notImages : name ≠ "images")
    (notFile : ∀ content, val name ≠ some (.file content)) :
    (layout pairs val).files name = settled pairs val name := by
  rcases hasEntry : val name with _ | content | files
  · by_cases awaits : (pairs.any fun pair =>
        pair.2 == name && (val.files "images" pair.1).isSome) = true
    · apply files_of_directory
      simp only [layout, if_neg notImages, hasEntry, if_pos awaits]
    · rw [settled_of_absent hasEntry awaits]
      apply files_of_none
      simp only [layout, if_neg notImages, hasEntry, if_neg awaits]
  · exact absurd hasEntry (notFile content)
  · apply files_of_directory
    simp only [layout, if_neg notImages, hasEntry]

theorem layout_eq_file :
    layout pairs val name = some (.file content) ↔
      name ≠ "images" ∧ val name = some (.file content) := by
  by_cases isImages : name = "images"
  · simp [layout, isImages]
  · rcases hasEntry : val name with _ | other | files
    · simp [layout, isImages, hasEntry]
    · simp [layout, isImages, hasEntry]
    · simp [layout, isImages, hasEntry]

theorem files_layout_elsewhere (notImages : name ≠ "images")
    (notAnnotated : (filename, name) ∉ pairs) :
    (layout pairs val).files name filename = val.files name filename := by
  by_cases isFile : ∃ content, val name = some (.file content)
  · rcases isFile with ⟨content, isFile⟩
    exact congrFun (files_congr ((layout_eq_file.mpr ⟨notImages, isFile⟩).trans isFile.symm)) _
  · rw [files_layout notImages (not_exists.mp isFile), settled_of_not_mem notAnnotated]

end Layout

/-! ## Annotations and directories that match them -/

/-- A plain file name. -/
def IsName (text : String) : Prop :=
  text ≠ "" ∧ text ≠ "." ∧ text ≠ ".." ∧ '/' ∉ text.toList

/-- Every line has its fields, file names are unique, and no class is named like the folder of the
images.  A class is a WordNet id, so it never is. -/
structure WellFormed (lines : List String) : Prop where
  fields : ∀ line ∈ lines, 3 ≤ (fields line).length
  unique : ((annotated lines).map Prod.fst).Nodup
  names : ∀ pair ∈ annotated lines, IsName pair.1 ∧ IsName pair.2
  classes : ∀ pair ∈ annotated lines, pair.2 ≠ "images"

/-- The directory holds the annotations and some annotated image, and no annotated image lies
outside `images/` and the folder of its class. -/
structure Matches (linesOf : Content → List String) (lines : List String) (val : Val Content) :
    Prop where
  annotations : ∃ content,
    val "val_annotations.txt" = some (.file content) ∧ linesOf content = lines
  images : ∀ content, val "images" ≠ some (.file content)
  classes : ∀ pair ∈ annotated lines, ∀ content, val pair.2 ≠ some (.file content)
  present : ∃ pair ∈ annotated lines,
    (val.files "images" pair.1).isSome = true ∨ (val.files pair.2 pair.1).isSome = true
  elsewhere : ∀ pair ∈ annotated lines, ∀ name, name ≠ "images" → name ≠ pair.2 →
    val.files name pair.1 = none

section Resuming

variable {linesOf : Content → List String} {lines rest : List String} {val other : Val Content}
  {filename wnid line : String} {content : Content}

theorem WellFormed.not_mem (wellFormed : WellFormed lines) {pair : String × String} {name : String}
    (isAnnotated : pair ∈ annotated lines) (isOther : name ≠ pair.2) :
    (pair.1, name) ∉ annotated lines := by
  intro alsoAnnotated
  have isEqual := List.inj_on_of_nodup_map wellFormed.unique alsoAnnotated isAnnotated rfl
  exact isOther (congrArg Prod.snd isEqual)

/-- An annotated image is in the layout if it is in `images/` or in the folder of its class. -/
theorem Matches.files_layout (wellFormed : WellFormed lines) (matching : Matches linesOf lines val)
    {pair : String × String} (isAnnotated : pair ∈ annotated lines) :
    (layout (annotated lines) val).files pair.2 pair.1 =
      (val.files "images" pair.1).or (val.files pair.2 pair.1) := by
  rw [Datasets.files_layout (wellFormed.classes pair isAnnotated)
    (matching.classes pair isAnnotated), settled, if_pos isAnnotated]

/-- An annotated image lies in no other folder of the layout. -/
theorem Matches.elsewhere_layout (wellFormed : WellFormed lines)
    (matching : Matches linesOf lines val) {pair : String × String} {name : String}
    (isAnnotated : pair ∈ annotated lines) (isOther : name ≠ pair.2) :
    (layout (annotated lines) val).files name pair.1 = none := by
  by_cases isImages : name = "images"
  · rw [isImages]
    apply congrFun (files_of_none _)
    simp [layout]
  · rw [files_layout_elsewhere isImages (wellFormed.not_mem isAnnotated isOther)]
    exact matching.elsewhere pair isAnnotated name isImages isOther

/-- The layout is the same, and `images/` is still a directory or gone. -/
def Keeps (pairs : List (String × String)) (val other : Val Content) : Prop :=
  layout pairs other = layout pairs val ∧ ∀ content, other "images" ≠ some (.file content)

/-- A split that keeps the images still matches the annotations. -/
theorem Matches.of_keeps (wellFormed : WellFormed lines) (matching : Matches linesOf lines val)
    (keeps : Keeps (annotated lines) val other) : Matches linesOf lines other := by
  rcases keeps with ⟨same, images⟩
  have isFile : ∀ name content, name ≠ "images" →
      (other name = some (.file content) ↔ val name = some (.file content)) := by
    intro name content notImages
    have both : layout (annotated lines) other name = some (.file content) ↔
        name ≠ "images" ∧ other name = some (.file content) := layout_eq_file
    rw [same, layout_eq_file] at both
    simpa [notImages] using both.symm
  have classes : ∀ pair ∈ annotated lines, ∀ content, other pair.2 ≠ some (.file content) := by
    intro pair isAnnotated content
    rw [Ne, isFile _ _ (wellFormed.classes pair isAnnotated)]
    exact matching.classes pair isAnnotated content
  refine ⟨?_, images, classes, ?_, ?_⟩
  · rcases matching.annotations with ⟨content, hasFile, isText⟩
    refine ⟨content, (isFile _ _ ?_).mpr hasFile, isText⟩
    decide
  · rcases matching.present with ⟨pair, isAnnotated, present⟩
    have settles := matching.files_layout wellFormed isAnnotated
    rw [← same, Datasets.files_layout (wellFormed.classes pair isAnnotated)
      (classes pair isAnnotated), settled, if_pos isAnnotated] at settles
    refine ⟨pair, isAnnotated, ?_⟩
    rw [← Bool.or_eq_true, ← Option.isSome_or, settles, Option.isSome_or, Bool.or_eq_true]
    exact present
  · intro pair isAnnotated name isImages isOther
    rw [← files_layout_elsewhere isImages (wellFormed.not_mem isAnnotated isOther), same]
    exact matching.elsewhere_layout wellFormed isAnnotated isOther

/-! ### One image -/

/-- The annotated images that are still in `images/` are those of the remaining lines. -/
def Awaiting (pairs : List (String × String)) (rest : List String) (val : Val Content) : Prop :=
  annotated rest ⊆ pairs ∧
    ∀ pair ∈ pairs, (val.files "images" pair.1).isSome = true → pair ∈ annotated rest

/-- The folder of the class is there for the next image. -/
structure Ready (pairs : List (String × String)) (filename wnid : String) (content : Content)
    (rest : List String) (val : Val Content) : Prop where
  isAnnotated : (filename, wnid) ∈ pairs
  isDir : val.isDir wnid = true
  present : val.files "images" filename = some content
  inside : annotated rest ⊆ pairs
  awaited : ∀ pair ∈ pairs, (val.files "images" pair.1).isSome = true →
    pair = (filename, wnid) ∨ pair ∈ annotated rest

theorem annotated_cons_none (skipped : annotation line = none) :
    annotated (line :: rest) = annotated rest := by
  rw [annotated, List.filterMap_cons_none skipped, annotated]

theorem annotated_cons_some (annotates : annotation line = some (filename, wnid)) :
    annotated (line :: rest) = (filename, wnid) :: annotated rest := by
  rw [annotated, List.filterMap_cons_some annotates, annotated]

variable {pairs : List (String × String)}

theorem Awaiting.absent (awaiting : Awaiting pairs [] val) :
    ∀ pair ∈ pairs, val.files "images" pair.1 = none := by
  intro pair isAnnotated
  by_contra present
  have isAwaited := awaiting.2 pair isAnnotated (Option.isSome_iff_ne_none.mpr present)
  simp [annotated] at isAwaited

theorem Awaiting.skip (awaiting : Awaiting pairs (line :: rest) val)
    (skipped : annotation line = none) : Awaiting pairs rest val := by
  rw [Awaiting, ← annotated_cons_none skipped]
  exact awaiting

theorem Awaiting.notFound (awaiting : Awaiting pairs (line :: rest) val)
    (annotates : annotation line = some (filename, wnid))
    (missing : val.files "images" filename = none) : Awaiting pairs rest val := by
  rw [Awaiting, annotated_cons_some annotates] at awaiting
  refine ⟨fun pair isLater => awaiting.1 (List.mem_cons_of_mem _ isLater), ?_⟩
  intro pair isAnnotated present
  rcases List.mem_cons.mp (awaiting.2 pair isAnnotated present) with rfl | isLater
  · simp [missing] at present
  · exact isLater

/-- Creating a folder for the next image keeps what is to come. -/
theorem Awaiting.mkdir (wellFormed : WellFormed lines) (matching : Matches linesOf lines val)
    (awaiting : Awaiting (annotated lines) (line :: rest) val)
    (annotates : annotation line = some (filename, wnid))
    (present : val.files "images" filename = some content) :
    ∃ made, val.mkdir wnid = .ok made ∧ Keeps (annotated lines) val made ∧
      Ready (annotated lines) filename wnid content rest made := by
  rw [Awaiting, annotated_cons_some annotates] at awaiting
  have isAnnotated := awaiting.1 List.mem_cons_self
  have notImages := wellFormed.classes _ isAnnotated
  have notFile := matching.classes _ isAnnotated
  have images : val.setFiles wnid (val.files wnid) "images" = val "images" :=
    setFiles_of_ne _ notImages.symm
  refine ⟨_, mkdir_eq notFile, ⟨?_, ?_⟩, ?_⟩
  · exact layout_mkdir isAnnotated notImages notFile (by simp [present])
  · rw [images]
    exact matching.images
  · refine ⟨isAnnotated, by simp [Val.isDir], ?_, ?_, ?_⟩
    · rw [files_congr images, present]
    · intro pair isLater
      exact awaiting.1 (List.mem_cons_of_mem _ isLater)
    · rw [files_congr images]
      intro pair isPair isPresent
      exact List.mem_cons.mp (awaiting.2 pair isPair isPresent)

/-- Moving the image that is at hand keeps the split and goes on to the next line. -/
theorem Ready.move (wellFormed : WellFormed lines)
    (ready : Ready (annotated lines) filename wnid content rest val) :
    Keeps (annotated lines) val (val.moveImage filename wnid content) ∧
      Awaiting (annotated lines) rest (val.moveImage filename wnid content) := by
  have notImages := wellFormed.classes _ ready.isAnnotated
  refine ⟨⟨?_, ?_⟩, ready.inside, ?_⟩
  · exact layout_moveImage wellFormed.unique ready.isAnnotated notImages ready.isDir ready.present
  · intro other isFile
    rw [Val.moveImage, setFiles_of_ne _ notImages.symm, Val.unlinkImage, setFiles_self] at isFile
    cases isFile
  intro pair isAnnotated present
  rw [images_moveImage notImages, Function.update_apply] at present
  split at present
  · cases present
  · rename_i isOther
    rcases ready.awaited pair isAnnotated present with rfl | isLater
    · exact absurd rfl isOther
    · exact isLater

/-! ### The whole call -/

theorem Keeps.trans {third : Val Content} (first : Keeps pairs val other)
    (second : Keeps pairs other third) : Keeps pairs val third :=
  ⟨second.1.trans first.1, second.2⟩

theorem Matches.keeps_self (matching : Matches linesOf lines val) :
    Keeps (annotated lines) val val :=
  ⟨rfl, matching.images⟩

/-- The loop over the lines keeps the split and leaves no annotated image behind. -/
theorem moveImages_keeps (wellFormed : WellFormed lines) (matching : Matches linesOf lines val)
    (awaiting : Awaiting (annotated lines) rest val) (moved : ℕ) :
    ∃ total left, moveImages rest moved val = (.ok total, left) ∧
      Keeps (annotated lines) val left ∧
      ∀ pair ∈ annotated lines, left.files "images" pair.1 = none := by
  induction rest generalizing val moved with
  | nil => exact ⟨moved, val, rfl, matching.keeps_self, awaiting.absent⟩
  | cons line rest ih =>
      rcases annotates : annotation line with _ | ⟨filename, wnid⟩
      · simp only [moveImages, annotates]
        exact ih matching (awaiting.skip annotates) moved
      rcases found : val.files "images" filename with _ | content
      · simp only [moveImages, annotates, found]
        exact ih matching (awaiting.notFound annotates found) moved
      · rcases awaiting.mkdir wellFormed matching annotates found with
          ⟨made, isMade, keepsMade, ready⟩
        have ⟨keepsMoved, awaits⟩ := ready.move wellFormed
        have keeps := keepsMade.trans keepsMoved
        rcases ih (matching.of_keeps wellFormed keeps) awaits (moved + 1) with
          ⟨total, left, loops, keepsLeft, absent⟩
        simp only [moveImages, annotates, found, isMade]
        exact ⟨total, left, loops, keeps.trans keepsLeft, absent⟩

theorem isDir_iff :
    val.isDir filename = true ↔ ∃ files, val filename = some (.directory files) := by
  rcases hasEntry : val filename with _ | content | files
  · simp [Val.isDir, hasEntry]
  · simp [Val.isDir, hasEntry]
  · simp [Val.isDir, hasEntry]

theorem Matches.gone (matching : Matches linesOf lines val)
    (notDir : ¬val.isDir "images" = true) : val "images" = none := by
  rcases hasEntry : val "images" with _ | content | files
  · rfl
  · exact absurd hasEntry (matching.images content)
  · exact absurd (isDir_iff.mpr ⟨files, hasEntry⟩) notDir

/-- A call that finds `images/` reads the annotations; one that does not finds a class. -/
theorem Matches.examine (matching : Matches linesOf lines val) {listing : List String}
    (lists : Lists listing val) :
    (val.isDir "images" = true ∧ examine linesOf listing val = .ok (some lines)) ∨
      (val "images" = none ∧ examine linesOf listing val = .ok none) := by
  by_cases isDir : val.isDir "images" = true
  · rcases matching.annotations with ⟨content, hasFile, isText⟩
    left
    simp [Datasets.examine, isDir, hasFile, isText]
  · right
    have gone := matching.gone isDir
    have hasClass : listing.any val.isDir = true := by
      rcases matching.present with ⟨pair, isAnnotated, inImages | inClass⟩
      · simp [files_of_none gone] at inImages
      · rw [List.any_eq_true]
        have notAbsent : val pair.2 ≠ none := by
          intro absent
          simp [files_of_none absent] at inClass
        refine ⟨pair.2, (lists.2 pair.2).mpr (Option.isSome_iff_ne_none.mpr notAbsent), ?_⟩
        rcases hasEntry : val pair.2 with _ | content | files
        · exact absurd hasEntry notAbsent
        · exact absurd hasEntry (matching.classes pair isAnnotated content)
        · exact isDir_iff.mpr ⟨files, hasEntry⟩
    simp [Datasets.examine, isDir, hasClass, gone]

/-- A call leaves the layout, and moves nothing once `images/` is gone. -/
theorem restructure_eq_layout (wellFormed : WellFormed lines) (matching : Matches linesOf lines val)
    {listing : List String} (lists : Lists listing val) :
    ∃ moved, restructure linesOf listing (some val) =
        (.ok moved, some (layout (annotated lines) val)) ∧
      (val "images" = none → moved = 0) := by
  rcases matching.examine lists with ⟨isDir, examined⟩ | ⟨gone, examined⟩
  · have awaiting : Awaiting (annotated lines) lines val :=
      ⟨List.Subset.refl _, fun pair isAnnotated _ => isAnnotated⟩
    rcases moveImages_keeps wellFormed matching awaiting 0 with
      ⟨moved, left, loops, keeps, absent⟩
    -- What is left of `images/` is in no class, so that removing it keeps the layout as well.
    have final : left.removeImages = layout (annotated lines) val := by
      have gone : left.removeImages "images" = none := by simp [Val.removeImages]
      have same : layout (annotated lines) left.removeImages = left.removeImages :=
        layout_eq_self gone
      rw [← same, layout_removeImages absent, keeps.1]
    refine ⟨moved, ?_, ?_⟩
    · simp only [restructure, examined, loops, final]
    · intro gone
      simp [Val.isDir, gone] at isDir
  · refine ⟨0, ?_, fun _ => rfl⟩
    simp only [restructure, examined, layout_eq_self gone]

/-! ### Interrupted calls -/

/-- What holds of the directory while a call is under way. -/
def Phase (pairs : List (String × String)) (val : Val Content) : Pending Content → Prop
  | .idle => True
  | .reading rest => Awaiting pairs rest val
  | .renaming filename wnid content rest => Ready pairs filename wnid content rest val
  | .removing _ => ∀ pair ∈ pairs, val.files "images" pair.1 = none
  | .done => val "images" = none

/-- The directory still has the layout of the first one, in every phase of a call. -/
def Resumable (pairs : List (String × String)) (val : Val Content) (machine : Machine Content) :
    Prop :=
  Keeps pairs val machine.val ∧ Phase pairs machine.val machine.pending

/-- A call on a matching split begins in one of the phases. -/
theorem phase_call {listing : List String} {after : Machine Content} {pending : Pending Content}
    (matching : Matches linesOf lines val) (lists : Lists listing val)
    (enabled : Machine.step linesOf ⟨val, pending⟩ (.call listing) = some after) :
    Resumable (annotated lines) val after := by
  rcases matching.examine lists with ⟨_, examined⟩ | ⟨gone, examined⟩
  · simp only [Machine.step, examined, Option.some.injEq] at enabled
    subst after
    exact ⟨matching.keeps_self, List.Subset.refl _, fun pair isAnnotated _ => isAnnotated⟩
  · simp only [Machine.step, examined, Option.some.injEq] at enabled
    subst after
    exact ⟨matching.keeps_self, gone⟩

/-- A step of the loop stays in one of the phases. -/
theorem phase_reading (wellFormed : WellFormed lines) {after : Machine Content}
    (matching : Matches linesOf lines val)
    (awaiting : Awaiting (annotated lines) (line :: rest) val)
    (enabled : Machine.step linesOf ⟨val, .reading (line :: rest)⟩ .advance = some after) :
    Resumable (annotated lines) val after := by
  rcases annotates : annotation line with _ | ⟨filename, wnid⟩
  · simp only [Machine.step, annotates, Option.some.injEq] at enabled
    subst after
    exact ⟨matching.keeps_self, awaiting.skip annotates⟩
  rcases found : val.files "images" filename with _ | content
  · simp only [Machine.step, annotates, found, Option.some.injEq] at enabled
    subst after
    exact ⟨matching.keeps_self, awaiting.notFound annotates found⟩
  · rcases awaiting.mkdir wellFormed matching annotates found with ⟨made, isMade, keeps, ready⟩
    simp only [Machine.step, annotates, found, isMade, Option.some.injEq] at enabled
    subst after
    exact ⟨keeps, ready⟩

theorem phase_unlinkImage {names : List String}
    (absent : ∀ pair ∈ pairs, val.files "images" pair.1 = none) :
    Resumable pairs val ⟨val.unlinkImage filename, .removing names⟩ := by
  refine ⟨⟨layout_unlinkImage absent, ?_⟩, ?_⟩
  · simp [Val.unlinkImage]
  · intro pair isAnnotated
    rw [images_unlinkImage, Function.update_apply, absent pair isAnnotated, ite_self]

theorem phase_removeImages (absent : ∀ pair ∈ pairs, val.files "images" pair.1 = none) :
    Resumable pairs val ⟨val.removeImages, .done⟩ := by
  have gone : val.removeImages "images" = none := by simp [Val.removeImages]
  refine ⟨⟨layout_removeImages absent, ?_⟩, gone⟩
  simp [gone]

/-- Every step stays in one of the phases. -/
theorem phase_step (wellFormed : WellFormed lines) {before after : Machine Content} {step : Step}
    (matching : Matches linesOf lines before.val)
    (phase : Phase (annotated lines) before.val before.pending)
    (listings : TrueListing before step after) (enabled : before.step linesOf step = some after) :
    Resumable (annotated lines) before.val after := by
  rcases before with ⟨val, pending⟩
  cases step with
  | call listing => exact phase_call matching (listings.1 listing rfl) enabled
  | list names =>
      simp only [Machine.step] at enabled
      split at enabled
      · cases enabled
        exact ⟨matching.keeps_self, Awaiting.absent phase⟩
      · cases enabled
  | advance =>
      rcases pending with _ | remaining | ⟨filename, wnid, content, rest⟩ | names | _
      · cases enabled
      · rcases remaining with _ | ⟨line, rest⟩
        · cases enabled
        · exact phase_reading wellFormed matching phase enabled
      · cases enabled
        exact Ready.move wellFormed phase
      · rcases names with _ | ⟨name, names⟩
        · cases enabled
          exact phase_removeImages phase
        · cases enabled
          exact phase_unlinkImage phase
      · cases enabled

/-- Whatever steps were made and wherever they stopped, the layout is that of the start. -/
theorem resumable_of_run (wellFormed : WellFormed lines) (matching : Matches linesOf lines val)
    {machine : Machine Content}
    (run : Run (Machine.step linesOf) TrueListing ⟨val, .idle⟩ machine) :
    Resumable (annotated lines) val machine := by
  have start : Resumable (annotated lines) val ⟨val, .idle⟩ := ⟨matching.keeps_self, trivial⟩
  apply run.invariant start
  intro before step after resumable listings enabled
  rcases resumable with ⟨keeps, phase⟩
  have next := phase_step wellFormed (matching.of_keeps wellFormed keeps) phase listings enabled
  exact ⟨keeps.trans next.1, next.2⟩

/-! ### The steps of a call -/

theorem call_run {before after : Machine Content} {listing : List String}
    (lists : Lists listing before.val)
    (enabled : before.step linesOf (.call listing) = some after) :
    Run (Machine.step linesOf) TrueListing before after := by
  apply Run.tail (.call listing) .refl enabled
  constructor
  · intro other isCall
    cases isCall
    exact lists
  · intro names isList
    cases isList

theorem list_run {before after : Machine Content} {names : List String}
    (lists : Lists names (before.val.files "images"))
    (enabled : before.step linesOf (.list names) = some after) :
    Run (Machine.step linesOf) TrueListing before after := by
  apply Run.tail (.list names) .refl enabled
  constructor
  · intro listing isCall
    cases isCall
  · intro other isList
    cases isList
    exact lists

theorem advance_run {before after : Machine Content}
    (enabled : before.step linesOf .advance = some after) :
    Run (Machine.step linesOf) TrueListing before after := by
  apply Run.tail .advance .refl enabled
  constructor
  · intro listing isCall
    cases isCall
  · intro names isList
    cases isList

/-- The loop is a run of the machine. -/
theorem run_moveImages {left : Val Content} {moved total : ℕ}
    (loops : moveImages rest moved val = (.ok total, left)) :
    Run (Machine.step linesOf) TrueListing ⟨val, .reading rest⟩ ⟨left, .reading []⟩ := by
  induction rest generalizing val moved with
  | nil =>
      cases loops
      exact .refl
  | cons line rest ih =>
      rcases annotates : annotation line with _ | ⟨filename, wnid⟩
      · simp only [moveImages, annotates] at loops
        apply Run.trans (advance_run _) (ih loops)
        simp only [Machine.step, annotates]
      rcases found : val.files "images" filename with _ | content
      · simp only [moveImages, annotates, found] at loops
        apply Run.trans (advance_run _) (ih loops)
        simp only [Machine.step, annotates, found]
      rcases isMade : val.mkdir wnid with _ | made
      · simp [moveImages, annotates, found, isMade] at loops
      · simp only [moveImages, annotates, found, isMade] at loops
        have makes : Machine.step linesOf ⟨val, .reading (line :: rest)⟩ .advance =
            some ⟨made, .renaming filename wnid content rest⟩ := by
          simp only [Machine.step, annotates, found, isMade]
        exact (advance_run makes).trans ((advance_run rfl).trans (ih loops))

theorem run_removeImages (names : List String) :
    Run (Machine.step linesOf) TrueListing ⟨val, .removing names⟩ ⟨val.removeImages, .done⟩ := by
  induction names generalizing val with
  | nil => exact advance_run rfl
  | cons name names ih =>
      have same : (val.unlinkImage name).removeImages = val.removeImages := by
        simp [Val.removeImages, Val.unlinkImage, Val.setFiles]
      rw [← same]
      exact (advance_run rfl).trans ih

/-- The steps of a call that is not interrupted leave what `restructure` leaves. -/
theorem run_restructure {listing names : List String} {left : Val Content} {moved : ℕ}
    (lists : Lists listing val) (examined : examine linesOf listing val = .ok (some lines))
    (loops : moveImages lines 0 val = (.ok moved, left))
    (remaining : Lists names (left.files "images")) :
    restructure linesOf listing (some val) = (.ok moved, some left.removeImages) ∧
      Run (Machine.step linesOf) TrueListing ⟨val, .idle⟩ ⟨left.removeImages, .done⟩ := by
  have calls : Run (Machine.step linesOf) TrueListing ⟨val, .idle⟩ ⟨val, .reading lines⟩ := by
    apply call_run lists
    simp only [Machine.step, examined]
  have listed : Run (Machine.step linesOf) TrueListing ⟨left, .reading []⟩
      ⟨left, .removing names⟩ := list_run remaining rfl
  constructor
  · simp only [restructure, examined, loops]
  · exact calls.trans ((run_moveImages loops).trans (listed.trans (run_removeImages names)))

/-! ## Resuming -/

/-- A call after any number of interrupted ones leaves what one call would have left: no `images/`,
and every annotated image in the folder of its class and nowhere else.  Further calls move nothing
and change nothing. -/
theorem restructure_resumes (wellFormed : WellFormed lines) (matching : Matches linesOf lines val)
    {machine : Machine Content}
    (run : Run (Machine.step linesOf) TrueListing ⟨val, .idle⟩ machine)
    {listing resumedListing : List String} (lists : Lists listing val)
    (resumedLists : Lists resumedListing machine.val) :
    ∃ moved resumed final,
      restructure linesOf listing (some val) = (.ok moved, some final) ∧
      restructure linesOf resumedListing (some machine.val) = (.ok resumed, some final) ∧
      (machine.pending = .done → machine.val = final) ∧
      final "images" = none ∧
      (∀ pair ∈ annotated lines,
        final.files pair.2 pair.1 = (val.files "images" pair.1).or (val.files pair.2 pair.1) ∧
          ∀ name, name ≠ pair.2 → final.files name pair.1 = none) ∧
      ∀ again, Lists again final →
        restructure linesOf again (some final) = (.ok 0, some final) := by
  rcases resumable_of_run wellFormed matching run with ⟨keeps, phase⟩
  have resumes := matching.of_keeps wellFormed keeps
  have gone : layout (annotated lines) val "images" = none := by simp [layout]
  rcases restructure_eq_layout wellFormed matching lists with ⟨moved, returns, _⟩
  rcases restructure_eq_layout wellFormed resumes resumedLists with ⟨resumed, resumedReturns, _⟩
  rw [keeps.1] at resumedReturns
  refine ⟨moved, resumed, _, returns, resumedReturns, ?_, gone, ?_, ?_⟩
  · intro isDone
    rw [isDone] at phase
    rw [← keeps.1, layout_eq_self phase]
  · intro pair isAnnotated
    refine ⟨matching.files_layout wellFormed isAnnotated, ?_⟩
    intro name isOther
    exact matching.elsewhere_layout wellFormed isAnnotated isOther
  · intro again listsAgain
    have keepsFinal : Keeps (annotated lines) val (layout (annotated lines) val) := by
      refine ⟨layout_eq_self gone, ?_⟩
      simp [gone]
    have matchesFinal := matching.of_keeps wellFormed keepsFinal
    rcases restructure_eq_layout wellFormed matchesFinal listsAgain with ⟨more, repeats, nothing⟩
    rw [nothing gone, layout_eq_self gone] at repeats
    exact repeats

end Resuming

/-! ## A split with one image -/

/-- A split with one image that was not moved yet. -/
def oneImage : Val Unit := fun name =>
  if name = "images" then
    some (.directory fun filename => if filename = "0.JPEG" then some () else none)
  else if name = "val_annotations.txt" then some (.file ())
  else none

/-- Its annotation. -/
def oneLine : List String := ["0.JPEG\tn01443537\t0\n"]

/-- The call was interrupted between `mkdir` and `rename`. -/
def oneFolder : Machine Unit :=
  ⟨oneImage.setFiles "n01443537" fun _ => none, .renaming "0.JPEG" "n01443537" () []⟩

theorem annotated_oneLine : annotated oneLine = [("0.JPEG", "n01443537")] := by decide

theorem oneLine_wellFormed : WellFormed oneLine := by
  refine ⟨?_, ?_, ?_, ?_⟩
  · decide
  · decide
  · rw [annotated_oneLine]
    simp [IsName]
  · decide

theorem oneImage_matches : Matches (fun _ => oneLine) oneLine oneImage := by
  refine ⟨⟨(), rfl, rfl⟩, ?_, ?_, ?_, ?_⟩
  · simp [oneImage]
  · rw [annotated_oneLine]
    simp [oneImage]
  · rw [annotated_oneLine]
    simp [oneImage, Val.files]
  · intro pair _ name isImages _
    by_cases isText : name = "val_annotations.txt"
    · simp [oneImage, Val.files, isText]
    · simp [oneImage, Val.files, isImages, isText]

theorem lists_oneImage : Lists ["images", "val_annotations.txt"] oneImage := by
  refine ⟨by decide, ?_⟩
  intro name
  by_cases isImages : name = "images"
  · simp [oneImage, isImages]
  · simp [oneImage, isImages]

theorem lists_oneFolder :
    Lists ["images", "val_annotations.txt", "n01443537"] oneFolder.val := by
  refine ⟨by decide, ?_⟩
  intro name
  by_cases isClass : name = "n01443537"
  · subst name
    apply iff_of_true
    · decide
    · rfl
  · have same : oneFolder.val name = oneImage name := setFiles_of_ne _ isClass
    rw [same, ← lists_oneImage.2 name]
    simp [isClass]

theorem oneFolder_run :
    Run (Machine.step fun _ => oneLine) TrueListing ⟨oneImage, .idle⟩ oneFolder := by
  have calls : Run (Machine.step fun _ => oneLine) TrueListing ⟨oneImage, .idle⟩
      ⟨oneImage, .reading oneLine⟩ := call_run lists_oneImage rfl
  exact calls.trans (advance_run rfl)

theorem restructure_resumes_oneFolder :
    ∃ moved resumed final,
      restructure (fun _ => oneLine) ["images", "val_annotations.txt"] (some oneImage) =
        (.ok moved, some final) ∧
      restructure (fun _ => oneLine) ["images", "val_annotations.txt", "n01443537"]
        (some oneFolder.val) = (.ok resumed, some final) ∧
      final "images" = none ∧ final.files "n01443537" "0.JPEG" = some () := by
  rcases restructure_resumes oneLine_wellFormed oneImage_matches oneFolder_run lists_oneImage
    lists_oneFolder with ⟨moved, resumed, final, returns, resumes, _, gone, places, _⟩
  refine ⟨moved, resumed, final, returns, resumes, gone, ?_⟩
  exact (places ("0.JPEG", "n01443537") (by decide)).1

end VisionApi.Datasets
