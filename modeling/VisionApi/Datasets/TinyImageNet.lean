import Mathlib.Data.List.Dedup
import VisionApi.Datasets.Restructure
import VisionApi.Foundation.Dict
import VisionApi.Foundation.Fallible

/-!
# Loading Tiny-ImageNet

`build_datasets` refuses a validation split that is not restructured and splits whose
classes are numbered differently.  What `torchvision` finds in a folder is an
argument here.

`ImageFolder` of the library numbers the sorted directories and takes every image in
one of them as a sample with that number.  `Torchvision.Conforms` assumes this much:
for the training split that the classes are numbered in order, for the validation split
also that the samples are the images of the folders.

Loading and restructuring meet in `Complete`.  Where a split is loaded at all it has
as many classes as directories and the same classes as the training split, so that
the folder of an annotated image has the number of its class; and by the layout an
annotated image lies in that folder and in no other.  The result on interrupted runs
then follows from the invariant of the restructuring.

The example at the end has the full number of classes, each with an image in both
splits, and one image that was not moved yet.
-/

namespace VisionApi.Datasets

open Foundation

variable {Train Content : Type}

/-! ## Class names -/

/-- The white space that `str.strip` removes. -/
def isWhitespace (char : Char) : Bool :=
  [9, 10, 11, 12, 13, 28, 29, 30, 31, 32, 133, 160, 5760, 8192, 8193, 8194, 8195, 8196, 8197, 8198,
    8199, 8200, 8201, 8202, 8232, 8233, 8239, 8287, 12288].contains char.toNat

/-- `str.strip()`. -/
def strip (chars : List Char) : String :=
  String.ofList ((chars.dropWhile isWhitespace).reverse.dropWhile isWhitespace).reverse

/-- The id and the first of the names of a line, if anything follows the tab. -/
def className (line : String) : Option (String × String) :=
  let wnid := line.toList.takeWhile (· ≠ '\t')
  let names := (line.toList.dropWhile (· ≠ '\t')).drop 1
  if names.isEmpty then none else some (strip wnid, strip (names.takeWhile (· ≠ ',')))

/-- `words.txt` is optional. -/
def loadClassNames : Option (List String) → Dict String String
  | none => []
  | some lines => Dict.ofList (lines.filterMap className)

/-! ## Folders -/

/-- An image of a split with the number of its class. -/
structure Sample where
  wnid : String
  filename : String
  target : ℕ
deriving DecidableEq

/-- What `torchvision` reads from a split. -/
structure ImageFolder where
  classes : List String
  classToIdx : Dict String ℕ
  samples : List Sample

/-- Why the data sets are not built. -/
inductive LayoutError where
  | notFound
  | noVal
  | notRestructured
  | classCount (found : ℕ)
  | disagree (mismatched : List String)
  /-- The `FileNotFoundError` of `ImageFolder`. -/
  | imageFolder
deriving DecidableEq

/-- `ImageFolder` on `train/` and on `val/`. -/
structure Torchvision (Train Content : Type) where
  train : Train → Except LayoutError ImageFolder
  val : Val Content → Except LayoutError ImageFolder

/-- A directory in which the data set may lie. -/
structure Candidate (Train Content : Type) where
  train : Option Train
  val : Option (Val Content)
  words : Option (List String)

/-- A directory with both splits, and the lines of `words.txt` if they are there. -/
structure Root (Train Content : Type) where
  train : Train
  val : Val Content
  words : Option (List String)

/-- Both data sets and the names of their classes. -/
structure TinyImageNet where
  train : ImageFolder
  val : ImageFolder
  classNames : List String
  wnids : List String

/-- The number of classes that both splits must have. -/
def numClasses : ℕ := 200

/-- `iterdir` yields the names of `listing`. -/
def assertValIsRestructured (listing : List String) : Option (Val Content) → Except LayoutError Unit
  | none => .error .noVal
  | some val =>
      if val.isDir "images" then .error .notRestructured
      else
        let found := (listing.filter val.isDir).length
        if found ≠ numClasses then .error (.classCount found) else .ok ()

/-- A candidate counts if it has both splits. -/
def Candidate.root? (candidate : Candidate Train Content) : Option (Root Train Content) :=
  match candidate.train, candidate.val with
  | some train, some val => some ⟨train, val, candidate.words⟩
  | _, _ => none

/-- The first candidate that counts. -/
def resolveRoot (candidates : List (Candidate Train Content)) :
    Except LayoutError (Root Train Content) :=
  match candidates.findSome? Candidate.root? with
  | some root => .ok root
  | none => .error .notFound

/-- The classes that the dictionaries map to different numbers. -/
def mismatched (train val : Dict String ℕ) : List String :=
  ((train.map Prod.fst ++ val.map Prod.fst).dedup).filter fun wnid =>
    train.get? wnid ≠ val.get? wnid

/-- Without the transforms. -/
def buildDatasets (torchvision : Torchvision Train Content) (listing : List String)
    (candidates : List (Candidate Train Content)) : Except LayoutError TinyImageNet := do
  let root ← resolveRoot candidates
  assertValIsRestructured listing (some root.val)
  let train ← torchvision.train root.train
  let val ← torchvision.val root.val
  -- Dictionaries differ where a key is mapped differently.
  let mismatched := mismatched train.classToIdx val.classToIdx
  if !mismatched.isEmpty then .error (.disagree mismatched)
  else
    let names := loadClassNames root.words
    .ok ⟨train, val, train.classes.map fun wnid => (names.get? wnid).getD wnid, train.classes⟩

/-! ## What is documented of the folders -/

/-- The classes are sorted by name and numbered in this order. -/
structure ImageFolder.Numbered (folder : ImageFolder) : Prop where
  sorted : folder.classes.Pairwise (· < ·)
  numbered : folder.classToIdx = folder.classes.zipIdx

/-- The classes are the directories, the samples their images. -/
structure ImageFolder.Reads (isImage : String → Bool) (val : Val Content) (folder : ImageFolder) :
    Prop where
  classes : ∀ name, name ∈ folder.classes ↔ val.isDir name = true
  nodup : folder.samples.Nodup
  samples : ∀ sample, sample ∈ folder.samples ↔
    (sample.wnid, sample.target) ∈ folder.classToIdx ∧ isImage sample.filename = true ∧
      (val.files sample.wnid sample.filename).isSome = true

/-- What is assumed of `ImageFolder` on either split. -/
structure Torchvision.Conforms (isImage : String → Bool) (torchvision : Torchvision Train Content) :
    Prop where
  train : ∀ directory folder, torchvision.train directory = .ok folder → folder.Numbered
  val : ∀ directory folder, torchvision.val directory = .ok folder →
    folder.Numbered ∧ folder.Reads isImage directory

/-! ## Numbers of classes -/

section Classes

variable {classes others : List String} {train val : ImageFolder}

/-- A class is numbered by its position. -/
theorem get?_zipIdx {name : String} {index : ℕ} (distinct : classes.Nodup) :
    Dict.get? classes.zipIdx name = some index ↔ classes[index]? = some name := by
  have keys : (classes.zipIdx.map Prod.fst).Nodup := by
    rwa [List.zipIdx_map_fst]
  rw [Dict.get?_eq_some_iff keys, List.mem_zipIdx_iff_getElem?]

/-- Numbered classes are distinct. -/
theorem ImageFolder.Numbered.nodup (numbered : train.Numbered) : train.classes.Nodup := by
  apply numbered.sorted.imp
  intro name other below same
  subst same
  exact String.lt_irrefl name below

/-- Splits with the same numbers have the same classes in the same order. -/
theorem classes_eq (numbered : train.Numbered) (alsoNumbered : val.Numbered)
    (same : mismatched train.classToIdx val.classToIdx = []) : val.classes = train.classes := by
  have agree : ∀ name ∈ train.classes ++ val.classes,
      train.classToIdx.get? name = val.classToIdx.get? name := by
    intro name isClass
    have kept := List.filter_eq_nil_iff.mp same name
    simp only [numbered.numbered, alsoNumbered.numbered, List.zipIdx_map_fst, List.mem_dedup,
      ne_eq, decide_not, Bool.not_eq_true', decide_eq_false_iff_not, not_not] at kept
    rw [numbered.numbered, alsoNumbered.numbered]
    exact kept isClass
  apply List.ext_getElem?
  intro index
  apply Option.ext
  intro name
  rw [← get?_zipIdx alsoNumbered.nodup, ← get?_zipIdx numbered.nodup, ← numbered.numbered,
    ← alsoNumbered.numbered]
  by_cases isClass : name ∈ train.classes ++ val.classes
  · rw [agree name isClass]
  · rw [List.mem_append, not_or] at isClass
    rw [numbered.numbered, alsoNumbered.numbered, get?_zipIdx numbered.nodup,
      get?_zipIdx alsoNumbered.nodup]
    apply iff_of_false
    · intro found
      exact isClass.2 (List.mem_of_getElem? found)
    · intro found
      exact isClass.1 (List.mem_of_getElem? found)

end Classes

/-! ## Loading -/

section Loading

variable {torchvision : Torchvision Train Content} {isImage : String → Bool}
  {listing : List String} {candidates : List (Candidate Train Content)}
  {root : Root Train Content} {data : TinyImageNet}

/-- What is known of splits that were loaded. -/
theorem buildDatasets_ok (conforms : torchvision.Conforms isImage)
    (resolved : resolveRoot candidates = .ok root)
    (built : buildDatasets torchvision listing candidates = .ok data) :
    root.val.isDir "images" = false ∧
      (listing.filter root.val.isDir).length = numClasses ∧
      data.wnids = data.train.classes ∧ data.val.classes = data.wnids ∧
      (data.val.Numbered ∧ data.val.Reads isImage root.val) ∧
      data.classNames = data.wnids.map fun wnid =>
        ((loadClassNames root.words).get? wnid).getD wnid := by
  rw [buildDatasets, resolved] at built
  rcases bind_ok_iff.mp built with ⟨_, ⟨⟩, built⟩
  rcases bind_ok_iff.mp built with ⟨_, isRestructured, built⟩
  rcases bind_ok_iff.mp built with ⟨train, isTrain, built⟩
  rcases bind_ok_iff.mp built with ⟨val, isVal, built⟩
  have numbered := conforms.train _ _ isTrain
  have reads := conforms.val _ _ isVal
  simp only [assertValIsRestructured] at isRestructured
  split at isRestructured
  · cases isRestructured
  · rename_i noImages
    split at isRestructured
    · cases isRestructured
    · rename_i count
      dsimp only at built
      split at built
      · cases built
      · rename_i agree
        cases built
        have same : mismatched train.classToIdx val.classToIdx = [] := by simpa using agree
        exact ⟨Bool.eq_false_iff.mpr noImages, not_not.mp count, rfl,
          classes_eq numbered reads.1 same, reads, rfl⟩

end Loading

/-! ## Interrupted restructuring -/

section Interrupted

variable {torchvision : Torchvision Train Content} {isImage : String → Bool}
  {candidates : List (Candidate Train Content)} {root : Root Train Content} {data : TinyImageNet}
  {linesOf : Content → List String} {lines : List String} {val : Val Content}
  {name filename : String}

theorem isDir_of_files (present : (val.files name filename).isSome = true) :
    val.isDir name = true := by
  rcases hasEntry : val name with _ | content | files
  · simp [files_of_none hasEntry] at present
  · simp [Val.files, hasEntry] at present
  · exact isDir_iff.mpr ⟨files, hasEntry⟩

theorem eq_singleton_of_forall_eq {Item : Type} {items : List Item} {item : Item}
    (distinct : items.Nodup) (isMember : item ∈ items) (same : ∀ other ∈ items, other = item) :
    items = [item] := by
  have isReplicate := List.eq_replicate_of_mem same
  have few : items.length ≤ 1 := by
    rw [isReplicate] at distinct
    exact List.nodup_replicate.mp distinct
  have some_items := List.length_pos_of_mem isMember
  have one : items.length = 1 := by omega
  rw [isReplicate, one]
  rfl

/-- Every annotated image that was there is one sample of the validation split, under the number
and the name of its class; every other sample lay in the folder of its class from the start. -/
structure Complete (pairs : List (String × String)) (start : Val Content)
    (words : Option (List String)) (data : TinyImageNet) : Prop where
  count : data.wnids.length = numClasses
  labelled : ∀ pair ∈ pairs,
    (start.files "images" pair.1).isSome = true ∨ (start.files pair.2 pair.1).isSome = true →
      ∃ target, data.wnids[target]? = some pair.2 ∧
        data.classNames[target]? = some (((loadClassNames words).get? pair.2).getD pair.2) ∧
        (data.val.samples.filter fun sample => sample.filename = pair.1) =
          [⟨pair.2, pair.1, target⟩]
  others : ∀ sample ∈ data.val.samples, (sample.filename, sample.wnid) ∈ pairs ∨
    (start.files sample.wnid sample.filename).isSome = true

/-- A split has as many classes as directories. -/
theorem count_classes {listing : List String} {folder : ImageFolder}
    (lists : Lists listing val) (numbered : folder.Numbered) (reads : folder.Reads isImage val) :
    folder.classes.length = (listing.filter val.isDir).length := by
  apply List.Perm.length_eq
  apply (List.perm_ext_iff_of_nodup numbered.nodup (lists.1.filter _)).mpr
  intro name
  rw [reads.classes, List.mem_filter, lists.2]
  constructor
  · intro isDir
    rcases isDir_iff.mp isDir with ⟨files, isDirectory⟩
    exact ⟨by simp [isDirectory], isDir⟩
  · intro listed
    exact listed.2

/-- A split in the layout of the annotations is read as annotated. -/
theorem Complete.of_layout (wellFormed : WellFormed lines) (matching : Matches linesOf lines val)
    (images : ∀ pair ∈ annotated lines, isImage pair.1 = true) {words : Option (List String)}
    (count : data.wnids.length = numClasses) (classes : data.val.classes = data.wnids)
    (names : data.classNames = data.wnids.map fun wnid =>
      ((loadClassNames words).get? wnid).getD wnid)
    (numbered : data.val.Numbered)
    (reads : data.val.Reads isImage (layout (annotated lines) val)) :
    Complete (annotated lines) val words data := by
  refine ⟨count, ?_, ?_⟩
  · intro pair isAnnotated present
    have isThere : ((layout (annotated lines) val).files pair.2 pair.1).isSome = true := by
      rw [matching.files_layout wellFormed isAnnotated, Option.isSome_or, Bool.or_eq_true]
      exact present
    have isClass := (reads.classes pair.2).mpr (isDir_of_files isThere)
    rcases List.mem_iff_getElem?.mp isClass with ⟨target, isTarget⟩
    have isNumber : (pair.2, target) ∈ data.val.classToIdx := by
      rw [numbered.numbered, List.mem_zipIdx_iff_getElem?]
      exact isTarget
    rw [classes] at isTarget
    refine ⟨target, isTarget, ?_, ?_⟩
    · rw [names, List.getElem?_map, isTarget, Option.map_some]
    · apply eq_singleton_of_forall_eq (reads.nodup.filter _)
      · apply List.mem_filter.mpr
        exact ⟨(reads.samples _).mpr ⟨isNumber, images pair isAnnotated, isThere⟩, by simp⟩
      · intro sample isSample
        rcases sample with ⟨wnid, filename, other⟩
        rcases List.mem_filter.mp isSample with ⟨isRead, isFile⟩
        simp only [decide_eq_true_eq] at isFile
        subst filename
        rcases (reads.samples _).mp isRead with ⟨isOther, _, otherThere⟩
        dsimp only at isOther otherThere
        have sameClass : wnid = pair.2 := by
          by_contra isElsewhere
          simp [matching.elsewhere_layout wellFormed isAnnotated isElsewhere] at otherThere
        subst wnid
        rw [numbered.numbered, List.mem_zipIdx_iff_getElem?, classes] at isOther
        have distinct := numbered.nodup
        rw [classes] at distinct
        have sameTarget : other = target := by
          apply (List.getElem?_inj _ distinct).mp (isOther.trans isTarget.symm)
          exact (List.getElem?_eq_some_iff.mp isOther).1
        rw [sameTarget]
  · intro sample isSample
    rcases (reads.samples _).mp isSample with ⟨_, _, isThere⟩
    by_cases isAnnotated : (sample.filename, sample.wnid) ∈ annotated lines
    · exact Or.inl isAnnotated
    · right
      have notImages : sample.wnid ≠ "images" := by
        intro isImages
        have isDir := isDir_of_files isThere
        simp [isImages, Val.isDir, layout] at isDir
      rwa [files_layout_elsewhere notImages isAnnotated] at isThere

/-- Whatever calls of `restructure_tiny_imagenet_val` were made and wherever they were interrupted,
the split is refused as long as `images/` is there, and otherwise loaded as annotated if it is
loaded at all. -/
theorem buildDatasets_refuses_or_complete (conforms : torchvision.Conforms isImage)
    (wellFormed : WellFormed lines) (matching : Matches linesOf lines val)
    (images : ∀ pair ∈ annotated lines, isImage pair.1 = true) {machine : Machine Content}
    (run : Run (Machine.step linesOf) TrueListing ⟨val, .idle⟩ machine)
    (resolved : resolveRoot candidates = .ok root) (isVal : root.val = machine.val)
    {listing : List String} (lists : Lists listing machine.val) :
    (machine.val.isDir "images" = true →
      buildDatasets torchvision listing candidates = .error .notRestructured) ∧
    ((∃ error, buildDatasets torchvision listing candidates = .error error) ∨
      ∃ data, buildDatasets torchvision listing candidates = .ok data ∧
        Complete (annotated lines) val root.words data) := by
  have keeps := (resumable_of_run wellFormed matching run).1
  constructor
  · intro isDir
    have refused : assertValIsRestructured listing (some root.val) = .error .notRestructured := by
      simp [assertValIsRestructured, isVal, isDir]
    rw [buildDatasets, resolved]
    exact bind_error_iff.mpr (Or.inr ⟨root, rfl, bind_error_iff.mpr (Or.inl refused)⟩)
  · rcases built : buildDatasets torchvision listing candidates with error | data
    · exact Or.inl ⟨error, rfl⟩
    · right
      refine ⟨data, rfl, ?_⟩
      rcases buildDatasets_ok conforms resolved built with
        ⟨noImages, count, _, classes, ⟨numbered, reads⟩, names⟩
      rw [isVal] at noImages count reads
      have resumes := matching.of_keeps wellFormed keeps
      have gone := resumes.gone (by simp [noImages])
      have isLayout : layout (annotated lines) val = machine.val := by
        rw [← keeps.1, layout_eq_self gone]
      have isCount := count_classes lists numbered reads
      rw [classes, count] at isCount
      rw [← isLayout] at reads
      exact Complete.of_layout wellFormed matching images isCount classes names numbered reads

end Interrupted

/-! ## A split with 200 classes -/

/-- The classes `n`, `nn`, `nnn` and so on. -/
def folders : List String :=
  (List.range numClasses).map fun index => String.ofList (List.replicate (index + 1) 'n')

/-- The one image of a class. -/
def imageOf (wnid : String) : String :=
  wnid ++ ".JPEG"

/-- The extension of the images. -/
def isJpeg (filename : String) : Bool :=
  filename.toList.reverse.take 5 = "GEPJ.".toList

/-- Every class has an image in its folder. -/
def wholeSplit : Val Unit := fun name =>
  if name ∈ folders then
    some (.directory fun filename => if filename = imageOf name then some () else none)
  else if name = "val_annotations.txt" then some (.file ())
  else none

/-- The first class still has its image in `images/`. -/
def unmovedSplit : Val Unit :=
  (wholeSplit.setFiles "n" fun _ => none).setFiles "images" (wholeSplit.files "n")

/-- The annotation of the image that is moved. -/
def wholeLine : List String := ["n.JPEG\tn\t0\n"]

/-- A split with one image for each class. -/
def wholeFolder : ImageFolder :=
  ⟨folders, folders.zipIdx, folders.zipIdx.map fun entry => ⟨entry.1, imageOf entry.1, entry.2⟩⟩

open Classical in
/-- Both splits have an image in every folder; there is no other directory to be read. -/
noncomputable def wholeTorchvision : Torchvision Unit Unit where
  train _ := .ok wholeFolder
  val directory := if directory = wholeSplit then .ok wholeFolder else .error .imageFolder

theorem replicate_lt {fewer more : ℕ} (below : fewer < more) :
    List.replicate fewer 'n' < List.replicate more 'n' := by
  induction fewer generalizing more with
  | zero =>
      cases more with
      | zero => omega
      | succ more => exact List.nil_lt_cons _ _
  | succ fewer ih =>
      cases more with
      | zero => omega
      | succ more =>
          rw [List.replicate_succ, List.replicate_succ, List.cons_lt_cons_self]
          apply ih
          omega

theorem folders_sorted : folders.Pairwise (· < ·) := by
  rw [folders, List.pairwise_map]
  apply List.pairwise_lt_range.imp
  intro first second below
  have longer : List.replicate (first + 1) 'n' < List.replicate (second + 1) 'n' :=
    replicate_lt (by omega)
  rw [String.lt_iff, String.toList_ofList, String.toList_ofList]
  exact longer

theorem wholeFolder_numbered : wholeFolder.Numbered :=
  ⟨folders_sorted, rfl⟩

theorem n_mem_folders : "n" ∈ folders := by decide +kernel

theorem images_not_mem_folders : "images" ∉ folders := by decide +kernel

theorem annotations_not_mem_folders : "val_annotations.txt" ∉ folders := by decide +kernel

theorem isJpeg_imageOf (wnid : String) : isJpeg (imageOf wnid) = true := by
  have suffix : ".JPEG".toList.reverse = "GEPJ.".toList := by decide
  simp only [isJpeg, imageOf, String.toList_append, List.reverse_append, suffix, decide_eq_true_eq]
  exact List.take_left' rfl

theorem imageOf_n : imageOf "n" = "n.JPEG" := by decide

theorem imageOf_injective : Function.Injective imageOf := by
  intro wnid other same
  have chars := congrArg String.toList same
  simp only [imageOf, String.toList_append] at chars
  exact String.toList_injective (List.append_cancel_right chars)

theorem wholeSplit_isDir_iff {name : String} :
    wholeSplit.isDir name = true ↔ name ∈ folders := by
  by_cases isFolder : name ∈ folders
  · simp [Val.isDir, wholeSplit, isFolder]
  · by_cases isText : name = "val_annotations.txt"
    · simp [Val.isDir, wholeSplit, isText, annotations_not_mem_folders]
    · simp [Val.isDir, wholeSplit, isFolder, isText]

theorem wholeSplit_files {wnid filename : String} :
    (wholeSplit.files wnid filename).isSome = true ↔ wnid ∈ folders ∧ filename = imageOf wnid := by
  by_cases isFolder : wnid ∈ folders
  · simp [Val.files, wholeSplit, isFolder]
  · by_cases isText : wnid = "val_annotations.txt"
    · simp [Val.files, wholeSplit, isText, annotations_not_mem_folders]
    · simp [Val.files, wholeSplit, isFolder, isText]

/-- It is what is found in the whole split. -/
theorem wholeFolder_reads : wholeFolder.Reads isJpeg wholeSplit := by
  refine ⟨fun name => wholeSplit_isDir_iff.symm, ?_, ?_⟩
  · apply List.Nodup.map
    · rintro ⟨wnid, target⟩ ⟨other, another⟩ same
      cases same
      rfl
    · have keys : (folders.zipIdx.map Prod.fst).Nodup := by
        rw [List.zipIdx_map_fst]
        exact wholeFolder_numbered.nodup
      exact keys.of_map
  · rintro ⟨wnid, filename, target⟩
    simp only [wholeFolder, List.mem_map, Sample.mk.injEq, Prod.exists]
    constructor
    · rintro ⟨_, _, isNumber, rfl, rfl, rfl⟩
      have isFolder := List.mem_of_getElem? (List.mem_zipIdx_iff_getElem?.mp isNumber)
      exact ⟨isNumber, isJpeg_imageOf _, wholeSplit_files.mpr ⟨isFolder, rfl⟩⟩
    · rintro ⟨isNumber, _, isThere⟩
      exact ⟨wnid, target, isNumber, rfl, (wholeSplit_files.mp isThere).2.symm, rfl⟩

theorem wholeTorchvision_conforms : wholeTorchvision.Conforms isJpeg := by
  refine ⟨?_, ?_⟩
  · intro directory folder found
    cases found
    exact wholeFolder_numbered
  · intro directory folder found
    simp only [wholeTorchvision] at found
    split at found
    · rename_i isSplit
      cases found
      rw [isSplit]
      exact ⟨wholeFolder_numbered, wholeFolder_reads⟩
    · cases found

theorem annotated_wholeLine : annotated wholeLine = [("n.JPEG", "n")] := by decide

theorem wholeLine_wellFormed : WellFormed wholeLine := by
  refine ⟨by decide, by decide, ?_, by decide⟩
  rw [annotated_wholeLine]
  simp [IsName]

theorem unmovedSplit_elsewhere {name : String} (notImages : name ≠ "images")
    (notFirst : name ≠ "n") :
    unmovedSplit name = wholeSplit name := by
  rw [unmovedSplit, setFiles_of_ne _ notImages, setFiles_of_ne _ notFirst]

theorem unmovedSplit_first : unmovedSplit "n" = some (.directory fun _ => none) := by
  rw [unmovedSplit, setFiles_of_ne _ (by decide), setFiles_self]

theorem unmovedSplit_images : unmovedSplit.files "images" = wholeSplit.files "n" := by
  rw [unmovedSplit, files_setFiles_self]

theorem unmovedSplit_annotations : unmovedSplit "val_annotations.txt" = some (.file ()) := by
  rw [unmovedSplit_elsewhere (by decide) (by decide)]
  simp [wholeSplit, annotations_not_mem_folders]

theorem wholeSplit_first (filename : String) :
    wholeSplit.files "n" filename = if filename = "n.JPEG" then some () else none := by
  simp [Val.files, wholeSplit, n_mem_folders, imageOf_n]

/-- The split with the unmoved image matches its annotation. -/
theorem unmovedSplit_matches : Matches (fun _ => wholeLine) wholeLine unmovedSplit := by
  refine ⟨⟨(), unmovedSplit_annotations, rfl⟩, ?_, ?_, ?_, ?_⟩
  · simp [unmovedSplit]
  · rw [annotated_wholeLine]
    simp [unmovedSplit_first]
  · rw [annotated_wholeLine]
    simp [unmovedSplit_images, wholeSplit_first]
  · rw [annotated_wholeLine]
    intro pair isPair name notImages notFirst
    cases List.mem_singleton.mp isPair
    rw [files_congr (unmovedSplit_elsewhere notImages notFirst), ← Option.not_isSome_iff_eq_none,
      wholeSplit_files]
    intro isThere
    exact notFirst (imageOf_injective (imageOf_n.trans isThere.2)).symm

theorem lists_wholeSplit : Lists ("val_annotations.txt" :: folders) wholeSplit := by
  refine ⟨List.nodup_cons.mpr ⟨annotations_not_mem_folders, wholeFolder_numbered.nodup⟩, ?_⟩
  intro name
  by_cases isFolder : name ∈ folders
  · simp [wholeSplit, isFolder]
  · by_cases isText : name = "val_annotations.txt"
    · simp [wholeSplit, isText, annotations_not_mem_folders]
    · simp [wholeSplit, isFolder, isText]

theorem lists_unmovedSplit :
    Lists ("images" :: "val_annotations.txt" :: folders) unmovedSplit := by
  have notListed : "images" ∉ "val_annotations.txt" :: folders := by
    simp [images_not_mem_folders]
  refine ⟨List.nodup_cons.mpr ⟨notListed, lists_wholeSplit.1⟩, ?_⟩
  intro name
  by_cases isImages : name = "images"
  · simp [isImages, unmovedSplit]
  · by_cases isFirst : name = "n"
    · simp [isFirst, unmovedSplit_first, n_mem_folders]
    · rw [unmovedSplit_elsewhere isImages isFirst, ← lists_wholeSplit.2 name, List.mem_cons]
      simp [isImages]

/-- Moving that image completes the split. -/
theorem removeImages_moveImage :
    (unmovedSplit.moveImage "n.JPEG" "n" ()).removeImages = wholeSplit := by
  funext name
  by_cases isImages : name = "images"
  · simp [isImages, Val.removeImages, wholeSplit, images_not_mem_folders]
  have kept : (unmovedSplit.moveImage "n.JPEG" "n" ()).removeImages name =
      unmovedSplit.moveImage "n.JPEG" "n" () name := by
    simp [Val.removeImages, isImages]
  by_cases isFirst : name = "n"
  · have filled : Function.update (fun _ => none) "n.JPEG" (some ()) =
        fun filename => if filename = "n.JPEG" then some () else none := by
      funext filename
      simp [Function.update_apply]
    have empty : (unmovedSplit.unlinkImage "n.JPEG").files "n" = fun _ => none := by
      rw [files_congr (unlinkImage_of_ne (by decide)), files_of_directory unmovedSplit_first]
    rw [kept, isFirst, Val.moveImage, setFiles_self, empty, filled]
    simp [wholeSplit, n_mem_folders, imageOf_n]
  · rw [kept, moveImage_of_ne isImages isFirst, unmovedSplit_elsewhere isImages isFirst]

/-- One call moves the image into its folder and removes `images/`. -/
theorem wholeSplit_run : Run (Machine.step fun _ => wholeLine) TrueListing
    ⟨unmovedSplit, .idle⟩ ⟨wholeSplit, .done⟩ := by
  have awaits : unmovedSplit.files "images" "n.JPEG" = some () := by
    simp [unmovedSplit_images, wholeSplit_first]
  have examined : examine (fun _ => wholeLine) ("images" :: "val_annotations.txt" :: folders)
      unmovedSplit = .ok (some wholeLine) := by
    have isDir : unmovedSplit.isDir "images" = true := by
      simp [Val.isDir, unmovedSplit]
    simp [examine, isDir, unmovedSplit_annotations]
  have loops : moveImages wholeLine 0 unmovedSplit =
      (.ok 1, unmovedSplit.moveImage "n.JPEG" "n" ()) := by
    have annotates : annotation "n.JPEG\tn\t0\n" = some ("n.JPEG", "n") := by decide
    simp [wholeLine, moveImages, annotates, awaits, Val.mkdir, unmovedSplit_first]
  have nothing : Lists [] ((unmovedSplit.moveImage "n.JPEG" "n" ()).files "images") := by
    refine ⟨List.nodup_nil, ?_⟩
    intro filename
    rw [images_moveImage (by decide), unmovedSplit_images]
    by_cases isFirst : filename = "n.JPEG"
    · simp [isFirst]
    · simp [isFirst, wholeSplit_first]
  rw [← removeImages_moveImage]
  exact (run_restructure lists_unmovedSplit examined loops nothing).2

/-- The whole split is loaded. -/
theorem buildDatasets_wholeSplit :
    ∃ data, buildDatasets wholeTorchvision ("val_annotations.txt" :: folders)
        [⟨some (), some wholeSplit, none⟩] = .ok data := by
  have notRestructured : wholeSplit.isDir "images" = false := by
    rw [Bool.eq_false_iff, Ne, wholeSplit_isDir_iff]
    exact images_not_mem_folders
  have onlyFolders : ("val_annotations.txt" :: folders).filter wholeSplit.isDir = folders := by
    rw [List.filter_cons_of_neg, List.filter_eq_self]
    · intro name isFolder
      exact wholeSplit_isDir_iff.mpr isFolder
    · rw [wholeSplit_isDir_iff]
      exact annotations_not_mem_folders
  have isRestructured : assertValIsRestructured ("val_annotations.txt" :: folders)
      (some wholeSplit) = .ok () := by
    have count : folders.length = numClasses := by simp [folders]
    simp [assertValIsRestructured, notRestructured, onlyFolders, count]
  have agree : mismatched folders.zipIdx folders.zipIdx = [] := by
    simp [mismatched]
  refine ⟨⟨wholeFolder, wholeFolder, folders.map fun wnid => wnid, folders⟩, ?_⟩
  rw [buildDatasets, bind_ok_iff]
  refine ⟨⟨(), wholeSplit, none⟩, rfl, ?_⟩
  rw [bind_ok_iff]
  refine ⟨(), isRestructured, ?_⟩
  rw [bind_ok_iff]
  refine ⟨wholeFolder, rfl, ?_⟩
  rw [bind_ok_iff]
  refine ⟨wholeFolder, if_pos rfl, ?_⟩
  simp [wholeFolder, agree, loadClassNames, Dict.get?]

/-- What a call has restructured is loaded, with the image that was moved and all others. -/
theorem buildDatasets_refuses_or_complete_wholeSplit :
    ∃ data, buildDatasets wholeTorchvision ("val_annotations.txt" :: folders)
        [⟨some (), some wholeSplit, none⟩] = .ok data ∧
      Complete (annotated wholeLine) unmovedSplit none data := by
  have images : ∀ pair ∈ annotated wholeLine, isJpeg pair.1 = true := by
    rw [annotated_wholeLine]
    decide
  have resolved : resolveRoot [⟨some (), some wholeSplit, none⟩] =
      .ok ⟨(), wholeSplit, none⟩ := rfl
  rcases (buildDatasets_refuses_or_complete wholeTorchvision_conforms wholeLine_wellFormed
    unmovedSplit_matches images wholeSplit_run resolved rfl lists_wholeSplit).2 with
    ⟨error, refused⟩ | complete
  · rcases buildDatasets_wholeSplit with ⟨data, built⟩
    rw [built] at refused
    cases refused
  · exact complete

end VisionApi.Datasets
