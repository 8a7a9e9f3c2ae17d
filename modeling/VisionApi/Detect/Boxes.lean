import Mathlib.Data.List.Sort
import Mathlib.Data.Rat.Floor
import VisionApi.Foundation.Dict
import VisionApi.Foundation.Fallible
import VisionApi.Foundation.Rounding

/-!
# Boxes and categories

COCO gives boxes by corner, width and height in pixels and categories by id.  The
detector has boxes by centre, normalised per axis, and classes by index; the API
gives corners in pixels.  Numbers are exact here.

Encoding turns annotations into the targets of the detector, and decoding turns what
has the form of a target back into COCO results.  Both look categories up in a
dictionary, and the two dictionaries are inverse to each other since both number the
sorted ids (`inverseMaps`).

For a box inside an image with sides, encoding and decoding give the same corners, as
clipping does nothing (`boxToAbsolute_encodeBox`); what is left is the rounding to two
decimals at the end.  The loop over annotations is followed entry by entry, so that a
target is matched with the annotation it comes from.
-/

namespace VisionApi.Detect

open Foundation

variable {K : Type} [Field K] [LinearOrder K]

/-! ## Boxes -/

/-- `[x, y, width, height]` in pixels. -/
structure CocoBox (K : Type) where
  x : K
  y : K
  width : K
  height : K

/-- `(cx, cy, w, h)` normalised to the image. -/
structure CentreBox (K : Type) where
  centreX : K
  centreY : K
  width : K
  height : K

/-- `(x_min, y_min, x_max, y_max)` in pixels. -/
structure CornerBox (K : Type) where
  xMin : K
  yMin : K
  xMax : K
  yMax : K

/-- `np.clip` -/
def clip (value lower upper : K) : K :=
  min (max value lower) upper

/-- `boxes_to_absolute` of one box. -/
def boxToAbsolute (originalWidth originalHeight : ℕ) (box : CentreBox K) : CornerBox K where
  xMin := clip ((box.centreX - half box.width) * originalWidth) 0 originalWidth
  yMin := clip ((box.centreY - half box.height) * originalHeight) 0 originalHeight
  xMax := clip ((box.centreX + half box.width) * originalWidth) 0 originalWidth
  yMax := clip ((box.centreY + half box.height) * originalHeight) 0 originalHeight

/-- `round(value, digits)` -/
def roundTo [FloorRing K] (digits : ℕ) (value : K) : K :=
  roundHalfEven (value * 10 ^ digits) / 10 ^ digits

/-- The box that the evaluator submits. -/
def CornerBox.toCoco [FloorRing K] (box : CornerBox K) : CocoBox K where
  x := roundTo 2 box.xMin
  y := roundTo 2 box.yMin
  width := roundTo 2 (box.xMax - box.xMin)
  height := roundTo 2 (box.yMax - box.yMin)

/-! ## Categories -/

/-- The annotation file: the ids of its categories are distinct. -/
structure Coco where
  catIds : List ℤ
  distinct : catIds.Nodup

/-- `sorted(coco.getCatIds())` -/
def Coco.sortedIds (coco : Coco) : List ℤ :=
  coco.catIds.insertionSort (· ≤ ·)

/-- `_contiguous_category_map` -/
def contiguousCategoryMap (coco : Coco) : Dict ℤ ℕ :=
  Dict.ofList coco.sortedIds.zipIdx

/-- `index_to_category` of the evaluator. -/
def indexToCategory (coco : Coco) : Dict ℕ ℤ :=
  Dict.ofList (coco.sortedIds.zipIdx.map Prod.swap)

/-! ## Training targets -/

/-- An annotation, as far as it is read. -/
structure AnnotationRecord (K : Type) where
  categoryId : ℤ
  bbox : CocoBox K
  iscrowd : Bool

/-- The annotations that `__getitem__` does not skip. -/
def AnnotationRecord.isKept (record : AnnotationRecord K) : Bool :=
  !record.iscrowd && !decide (record.bbox.width ≤ 1 ∨ record.bbox.height ≤ 1)

/-- The normalised box of an annotation. -/
def encodeBox (originalWidth originalHeight : ℕ) (box : CocoBox K) : CentreBox K where
  centreX := (box.x + half box.width) / originalWidth
  centreY := (box.y + half box.height) / originalHeight
  width := box.width / originalWidth
  height := box.height / originalHeight

/-- What the detector is trained on. -/
structure Target (K : Type) where
  classLabels : List ℕ
  boxes : List (CentreBox K)

/-- A category or a label that a dictionary lacks. -/
inductive KeyError where
  | category (id : ℤ)
  | index (label : ℕ)

/-- `d[key]` -/
def lookup {Key Value Error : Type} [DecidableEq Key] (dict : Dict Key Value)
    (missing : Key → Error) (key : Key) : Except Error Value :=
  match dict.get? key with
  | some value => .ok value
  | none => .error (missing key)

/-- The loop of `CocoDetectionSubset.__getitem__` over the annotations of an image. -/
def collectTarget (catToLabel : Dict ℤ ℕ) (originalWidth originalHeight : ℕ) :
    Target K → List (AnnotationRecord K) → Except KeyError (Target K)
  | target, [] => .ok target
  | target, record :: rest =>
      if record.isKept then do
        let boxes := target.boxes ++ [encodeBox originalWidth originalHeight record.bbox]
        let label ← lookup catToLabel .category record.categoryId
        collectTarget catToLabel originalWidth originalHeight
          ⟨target.classLabels ++ [label], boxes⟩ rest
      else collectTarget catToLabel originalWidth originalHeight target rest

/-- The target of the annotations of an image. -/
def getItem (catToLabel : Dict ℤ ℕ) (originalWidth originalHeight : ℕ)
    (annotations : List (AnnotationRecord K)) : Except KeyError (Target K) :=
  collectTarget catToLabel originalWidth originalHeight ⟨[], []⟩ annotations

/-- What the evaluator makes of a label and a box. -/
def decodeEntry [FloorRing K] (categories : Dict ℕ ℤ) (originalWidth originalHeight : ℕ)
    (entry : ℕ × CentreBox K) : Except KeyError (ℤ × CocoBox K) := do
  let category ← lookup categories .index entry.1
  .ok (category, (boxToAbsolute originalWidth originalHeight entry.2).toCoco)

/-- Every label and box of a target in the terms of COCO. -/
def decodeTarget [FloorRing K] (categories : Dict ℕ ℤ) (originalWidth originalHeight : ℕ)
    (target : Target K) : Except KeyError (List (ℤ × CocoBox K)) :=
  (target.classLabels.zip target.boxes).mapM
    (decodeEntry categories originalWidth originalHeight)

/-! ## The category maps -/

theorem sortedIds_nodup (coco : Coco) : coco.sortedIds.Nodup :=
  (List.perm_insertionSort _ coco.catIds).nodup_iff.mpr coco.distinct

theorem mem_sortedIds {coco : Coco} {id : ℤ} : id ∈ coco.sortedIds ↔ id ∈ coco.catIds :=
  (List.perm_insertionSort _ coco.catIds).mem_iff

/-- A category is numbered by its position among the sorted ids. -/
theorem contiguousCategoryMap_get? (coco : Coco) (id : ℤ) (index : ℕ) :
    (contiguousCategoryMap coco).get? id = some index ↔ coco.sortedIds[index]? = some id := by
  have distinct : (coco.sortedIds.zipIdx.map Prod.fst).Nodup := by
    rw [List.zipIdx_map_fst]
    exact sortedIds_nodup coco
  rw [contiguousCategoryMap, Dict.ofList_eq distinct, Dict.get?_eq_some_iff distinct,
    List.mem_zipIdx_iff_getElem?]

theorem indexToCategory_get? (coco : Coco) (index : ℕ) (id : ℤ) :
    (indexToCategory coco).get? index = some id ↔ coco.sortedIds[index]? = some id := by
  have distinct : ((coco.sortedIds.zipIdx.map Prod.swap).map Prod.fst).Nodup := by
    have keys : (coco.sortedIds.zipIdx.map Prod.swap).map Prod.fst =
        coco.sortedIds.zipIdx.map Prod.snd :=
      List.map_map
    rw [keys, List.zipIdx_map_snd]
    exact List.nodup_range'
  rw [indexToCategory, Dict.ofList_eq distinct, Dict.get?_eq_some_iff distinct, List.mem_map]
  constructor
  · rintro ⟨entry, isEntry, swapped⟩
    rw [List.mem_zipIdx_iff_getElem?] at isEntry
    cases swapped
    exact isEntry
  · intro isId
    exact ⟨(id, index), List.mem_zipIdx_iff_getElem?.mpr isId, rfl⟩

/-- The maps of training and evaluation are inverse bijections between ids and indices. -/
structure InverseMaps (coco : Coco) (labels : Dict ℤ ℕ) (categories : Dict ℕ ℤ) : Prop where
  inverse : ∀ id index, labels.get? id = some index ↔ categories.get? index = some id
  ids : ∀ id, (∃ index, labels.get? id = some index) ↔ id ∈ coco.catIds
  indices : ∀ index, (∃ id, categories.get? index = some id) ↔ index < coco.catIds.length

/-- The two dictionaries undo each other. -/
theorem inverseMaps (coco : Coco) :
    InverseMaps coco (contiguousCategoryMap coco) (indexToCategory coco) := by
  refine ⟨?_, ?_, ?_⟩
  · intro id index
    rw [contiguousCategoryMap_get?, indexToCategory_get?]
  · intro id
    rw [← mem_sortedIds, List.mem_iff_getElem?]
    simp only [contiguousCategoryMap_get?]
  · intro index
    have sameLength : coco.sortedIds.length = coco.catIds.length :=
      List.length_insertionSort _ _
    simp only [indexToCategory_get?, ← sameLength]
    constructor
    · rintro ⟨id, isId⟩
      exact (List.getElem?_eq_some_iff.mp isId).1
    · intro isIndex
      exact ⟨_, List.getElem?_eq_getElem isIndex⟩

/-! ## The round trip -/

section RoundTrip

variable [IsStrictOrderedRing K]

/-- The box lies in an image of the given size. -/
structure CocoBox.Inside (box : CocoBox K) (originalWidth originalHeight : ℕ) : Prop where
  left : 0 ≤ box.x
  top : 0 ≤ box.y
  right : box.x + box.width ≤ originalWidth
  bottom : box.y + box.height ≤ originalHeight

/-- The corners of a box. -/
def CocoBox.corners (box : CocoBox K) : CornerBox K where
  xMin := box.x
  yMin := box.y
  xMax := box.x + box.width
  yMax := box.y + box.height

omit [Field K] [IsStrictOrderedRing K] in
theorem clip_eq_self {value lower upper : K} (above : lower ≤ value) (below : value ≤ upper) :
    clip value lower upper = value := by
  rw [clip, max_eq_left above, min_eq_left below]

/-- One axis: the ends of an interval from its normalised centre and length. -/
theorem denormalise (start length : K) {size : K} (positive : 0 < size) :
    ((start + half length) / size - half (length / size)) * size = start ∧
      ((start + half length) / size + half (length / size)) * size = start + length := by
  have nonzero : size ≠ 0 := positive.ne'
  unfold half
  constructor
  · field_simp
    ring
  · field_simp
    ring

/-- The corners of a box inside the image come back from the normalised box. -/
theorem boxToAbsolute_encodeBox {box : CocoBox K} {originalWidth originalHeight : ℕ}
    (wide : 1 ≤ originalWidth) (high : 1 ≤ originalHeight)
    (inside : box.Inside originalWidth originalHeight) (width : 0 ≤ box.width)
    (height : 0 ≤ box.height) :
    boxToAbsolute originalWidth originalHeight (encodeBox originalWidth originalHeight box) =
      box.corners := by
  have positiveWidth : (0 : K) < originalWidth := Nat.cast_pos.mpr wide
  have positiveHeight : (0 : K) < originalHeight := Nat.cast_pos.mpr high
  rcases denormalise box.x box.width positiveWidth with ⟨left, right⟩
  rcases denormalise box.y box.height positiveHeight with ⟨top, bottom⟩
  simp only [boxToAbsolute, encodeBox, left, right, top, bottom, CocoBox.corners]
  have insideX : box.x ≤ box.x + box.width := le_add_of_nonneg_right width
  have insideY : box.y ≤ box.y + box.height := le_add_of_nonneg_right height
  rw [clip_eq_self inside.left (insideX.trans inside.right),
    clip_eq_self inside.top (insideY.trans inside.bottom),
    clip_eq_self (inside.left.trans insideX) inside.right,
    clip_eq_self (inside.top.trans insideY) inside.bottom]

variable [FloorRing K]

/-- The box with its numbers rounded to two decimals. -/
def CocoBox.rounded (box : CocoBox K) : CocoBox K where
  x := roundTo 2 box.x
  y := roundTo 2 box.y
  width := roundTo 2 box.width
  height := roundTo 2 box.height

omit [IsStrictOrderedRing K] in
theorem toCoco_corners (box : CocoBox K) : box.corners.toCoco = box.rounded := by
  simp only [CornerBox.toCoco, CocoBox.corners, CocoBox.rounded, add_sub_cancel_left]

/-- Rounding to two decimals moves a number by at most half of a hundredth. -/
theorem abs_roundTo_sub_le (value : K) : |roundTo 2 value - value| ≤ 1 / 200 := by
  have close := abs_roundHalfEven_sub_le (value * 10 ^ 2)
  have scaled : roundTo 2 value - value =
      ((roundHalfEven (value * 10 ^ 2) : K) - value * 10 ^ 2) / 10 ^ 2 := by
    rw [roundTo, sub_div, mul_div_cancel_right₀ value (by norm_num)]
  rw [scaled, abs_div, abs_of_pos (by norm_num : (0 : K) < 10 ^ 2), div_le_iff₀ (by norm_num)]
  refine close.trans ?_
  norm_num

/-- A result is the category and the box of an annotation, rounded to two decimals. -/
structure Matches (record : AnnotationRecord K) (result : ℤ × CocoBox K) : Prop where
  category : result.1 = record.categoryId
  box : result.2 = record.bbox.rounded
  x : |result.2.x - record.bbox.x| ≤ 1 / 200
  y : |result.2.y - record.bbox.y| ≤ 1 / 200
  width : |result.2.width - record.bbox.width| ≤ 1 / 200
  height : |result.2.height - record.bbox.height| ≤ 1 / 200

theorem matches_rounded (record : AnnotationRecord K) :
    Matches record (record.categoryId, record.bbox.rounded) :=
  ⟨rfl, rfl, abs_roundTo_sub_le _, abs_roundTo_sub_le _, abs_roundTo_sub_le _,
    abs_roundTo_sub_le _⟩

omit [IsStrictOrderedRing K] [FloorRing K] in
theorem isKept_iff {record : AnnotationRecord K} :
    record.isKept = true ↔
      record.iscrowd = false ∧ 1 < record.bbox.width ∧ 1 < record.bbox.height := by
  simp [AnnotationRecord.isKept]

variable {coco : Coco} {originalWidth originalHeight : ℕ}

variable (originalWidth originalHeight) in
omit [IsStrictOrderedRing K] in
theorem decodeEntry_ok {label : ℕ} {category : ℤ} (isLabel : coco.sortedIds[label]? = some category)
    (box : CentreBox K) :
    decodeEntry (indexToCategory coco) originalWidth originalHeight (label, box) =
      .ok (category, (boxToAbsolute originalWidth originalHeight box).toCoco) := by
  rw [decodeEntry, lookup, (indexToCategory_get? coco label category).mpr isLabel]
  rfl

/-- The label and the box of an annotation that is kept. -/
structure Encodes (coco : Coco) (originalWidth originalHeight : ℕ) (record : AnnotationRecord K)
    (entry : ℕ × CentreBox K) : Prop where
  kept : record.isKept = true
  label : coco.sortedIds[entry.1]? = some record.categoryId
  box : entry.2 = encodeBox originalWidth originalHeight record.bbox

variable (originalWidth originalHeight) in
omit [IsStrictOrderedRing K] [FloorRing K] in
/-- The loop adds the label and the box of each annotation that is kept, in order. -/
theorem collectTarget_ok {annotations : List (AnnotationRecord K)}
    (known : ∀ record ∈ annotations, record.isKept = true →
      record.categoryId ∈ coco.catIds) (target : Target K) :
    ∃ entries,
      collectTarget (contiguousCategoryMap coco) originalWidth originalHeight target annotations =
          .ok ⟨target.classLabels ++ entries.map Prod.fst,
            target.boxes ++ entries.map Prod.snd⟩ ∧
        List.Forall₂ (Encodes coco originalWidth originalHeight)
          (annotations.filter AnnotationRecord.isKept) entries := by
  induction annotations generalizing target with
  | nil => exact ⟨[], by simp [collectTarget], .nil⟩
  | cons record rest ih =>
      rw [List.forall_mem_cons] at known
      by_cases kept : record.isKept = true
      · rcases List.mem_iff_getElem?.mp (mem_sortedIds.mpr (known.1 kept)) with ⟨label, isLabel⟩
        have found := (contiguousCategoryMap_get? coco record.categoryId label).mpr isLabel
        rcases ih known.2 ⟨target.classLabels ++ [label],
          target.boxes ++ [encodeBox originalWidth originalHeight record.bbox]⟩ with
          ⟨entries, collected, encode⟩
        refine ⟨(label, encodeBox originalWidth originalHeight record.bbox) :: entries, ?_, ?_⟩
        · rw [collectTarget, if_pos kept, lookup, found]
          simpa [bind, Except.bind] using collected
        · rw [List.filter_cons_of_pos kept]
          exact .cons ⟨kept, isLabel, rfl⟩ encode
      · rcases ih known.2 target with ⟨entries, collected, encode⟩
        refine ⟨entries, ?_, ?_⟩
        · rw [collectTarget, if_neg kept, collected]
        · rw [List.filter_cons_of_neg kept]
          exact encode

/-- The entries of annotations inside the image are decoded to these annotations. -/
theorem decode_entries (wide : 1 ≤ originalWidth) (high : 1 ≤ originalHeight)
    {annotations : List (AnnotationRecord K)} {entries : List (ℕ × CentreBox K)}
    (encode : List.Forall₂ (Encodes coco originalWidth originalHeight) annotations entries) :
    ∃ results,
      entries.mapM (decodeEntry (indexToCategory coco) originalWidth originalHeight) = .ok results ∧
        List.Forall₂ (fun record result =>
          record.bbox.Inside originalWidth originalHeight → Matches record result)
          annotations results := by
  simp only [mapM_ok_iff]
  induction encode with
  | nil => exact ⟨[], .nil, .nil⟩
  | @cons record entry annotations entries here _ ih =>
      rcases ih with ⟨results, decoded, areMatched⟩
      have decodes := decodeEntry_ok originalWidth originalHeight here.label entry.2
      refine ⟨_ :: results, .cons decodes decoded, .cons ?_ areMatched⟩
      intro inside
      rcases isKept_iff.mp here.kept with ⟨_, width, height⟩
      rw [here.box, boxToAbsolute_encodeBox wide high inside (zero_le_one.trans width.le)
        (zero_le_one.trans height.le), toCoco_corners]
      exact matches_rounded record

/-- Annotations whose categories are known come back from the training targets as the evaluator
decodes them, and the category maps are inverse to each other. -/
theorem annotations_round_trip (coco : Coco) (originalWidth originalHeight : ℕ)
    (wide : 1 ≤ originalWidth) (high : 1 ≤ originalHeight) (annotations : List (AnnotationRecord K))
    (known : ∀ record ∈ annotations, record.isKept = true →
      record.categoryId ∈ coco.catIds) :
    (∃ target results,
      getItem (contiguousCategoryMap coco) originalWidth originalHeight annotations = .ok target ∧
        decodeTarget (indexToCategory coco) originalWidth originalHeight target = .ok results ∧
        List.Forall₂ (fun record result =>
          record.bbox.Inside originalWidth originalHeight → Matches record result)
          (annotations.filter AnnotationRecord.isKept) results) ∧
      InverseMaps coco (contiguousCategoryMap coco) (indexToCategory coco) := by
  refine ⟨?_, inverseMaps coco⟩
  rcases collectTarget_ok originalWidth originalHeight known ⟨[], []⟩ with
    ⟨entries, collected, encode⟩
  rcases decode_entries wide high encode with ⟨results, decoded, areMatched⟩
  refine ⟨_, results, collected, ?_, areMatched⟩
  rw [decodeTarget, List.nil_append, List.nil_append, List.zip_map']
  simpa using decoded

theorem distinct_pets : ([18, 17] : List ℤ).Nodup := by
  decide

/-- A dog and a cat. -/
def pets : Coco := ⟨[18, 17], distinct_pets⟩

/-- A cat, and a dog too small to be kept. -/
def petAnnotations : List (AnnotationRecord ℚ) :=
  [⟨17, ⟨10, 20, 100, 50⟩, false⟩, ⟨18, ⟨0, 0, 1, 1⟩, false⟩]

/-- One of two annotations of different categories is encoded and comes back. -/
theorem annotations_round_trip_pets :
    ∃ target results,
      getItem (contiguousCategoryMap pets) 640 480 petAnnotations = .ok target ∧
        decodeTarget (indexToCategory pets) 640 480 target = .ok results ∧
        List.Forall₂ (fun record result =>
          record.bbox.Inside 640 480 → Matches record result)
          (petAnnotations.filter AnnotationRecord.isKept) results := by
  refine (annotations_round_trip pets 640 480 (by decide) (by decide) petAnnotations ?_).1
  intro record isAnnotation _
  rcases List.mem_cons.mp isAnnotation with rfl | isLater
  · exact List.mem_cons_of_mem _ List.mem_cons_self
  · rw [List.mem_singleton.mp isLater]
    exact List.mem_cons_self

end RoundTrip

end VisionApi.Detect
