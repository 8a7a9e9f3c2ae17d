import VisionApi.Detect.Boxes
import VisionApi.Foundation.Batches

/-!
# Detections from the output of the detector

The evaluator and the service turn the scores and the boxes of the queries of an
image into detections.  The evaluator does so for all images of a directory in
batches, the service for one upload, ranked and capped.

A query has a row of scores, one for each class, and a box.  Both sides keep the
queries whose best score reaches the threshold.  The evaluator emits them in order; the
service sorts them by `argsort`, of which only the contract is assumed, and takes as
many as the cap allows, with the slice of the language for negative caps.

What both make of a query is a `Selected`: its class, score and unrounded corners.
`Emits` and `Serves` say what an emitted and a served detection show of one, and
`Correspond` puts them together: the emitted detections are those of the kept queries
in order, and if the service accepts the scores its detections are those of a
permutation of the same queries.  The loop over a data set is reduced to the images of
which the files are there, whatever the batch size (`runDetections_eq`).
-/

namespace VisionApi.Detect

open Foundation

variable {K : Type} [Field K] [LinearOrder K]

/-! ## The output of the detector -/

/-- The scores of a query, at least one. -/
structure Row (K : Type) where
  head : K
  tail : List K

/-- The number of classes of a row. -/
def Row.classes (row : Row K) : ℕ :=
  row.tail.length + 1

/-- The first greatest score from an index on, if it exceeds the best so far. -/
def bestFrom : ℕ → ℕ × K → List K → ℕ × K
  | _, best, [] => best
  | index, best, score :: rest =>
      bestFrom (index + 1) (if best.2 < score then (index, score) else best) rest

/-- `argmax(axis=-1)` and `max(axis=-1)`. -/
def Row.best (row : Row K) : ℕ × K :=
  bestFrom 1 (0, row.head) row.tail

/-- The arrays of one image. -/
structure Outputs (K : Type) where
  queries : ℕ
  scores : Fin queries → Row K
  boxes : Fin queries → CentreBox K

/-- The class of the best score of a query. -/
def Outputs.bestClass (outputs : Outputs K) (query : Fin outputs.queries) : ℕ :=
  (outputs.scores query).best.1

/-- The best score of a query. -/
def Outputs.bestScore (outputs : Outputs K) (query : Fin outputs.queries) : K :=
  (outputs.scores query).best.2

/-- `np.where(best_score >= threshold)[0]` -/
def Outputs.keep (outputs : Outputs K) (threshold : K) : List (Fin outputs.queries) :=
  (List.finRange outputs.queries).filter fun query => threshold ≤ outputs.bestScore query

/-- The corners of some boxes in the pixels of an image. -/
def boxesToAbsolute (boxes : List (CentreBox K)) (originalWidth originalHeight : ℕ) :
    List (CornerBox K) :=
  boxes.map (boxToAbsolute originalWidth originalHeight)

variable [FloorRing K]

/-! ## The evaluator -/

/-- A detection in the result format of COCO. -/
structure CocoDetection (K : Type) where
  imageId : ℤ
  categoryId : ℤ
  bbox : CocoBox K
  score : K

/-- The body of the loop of `run_detections` over the images of a batch. -/
def emitImage (categories : Dict ℕ ℤ) (threshold : K) (imageId : ℤ) (outputs : Outputs K)
    (width height : ℕ) : Except KeyError (List (CocoDetection K)) :=
  let keep := outputs.keep threshold
  if keep.isEmpty then .ok []
  else
    let absolute := boxesToAbsolute (keep.map outputs.boxes) width height
    (keep.zip absolute).mapM fun entry => do
      let categoryId ← lookup categories .index (outputs.bestClass entry.1)
      .ok ⟨imageId, categoryId, entry.2.toCoco, roundTo 5 (outputs.bestScore entry.1)⟩

/-- An image as the annotations list it. -/
structure ImageRecord where
  id : ℤ
  fileName : String

/-- What is read of the files: nothing where there is none, else the array and the size. -/
abbrev ImageFiles (Tensor : Type) := String → Option (Tensor × ℕ × ℕ)

variable {Tensor : Type}

/-- A batch: the files that are missing are skipped, and the detector runs on the others. -/
def emitChunk (files : ImageFiles Tensor) (detector : Tensor → Outputs K)
    (categories : Dict ℕ ℤ) (threshold : K) (chunk : List ImageRecord) :
    Except KeyError (List (CocoDetection K)) :=
  let present := chunk.filterMap fun record => (files record.fileName).map (record.id, ·)
  let arrays := present.map fun entry => entry.2.1
  let sizes := present.map fun entry => entry.2.2
  let ids := present.map fun entry => entry.1
  if arrays.isEmpty then .ok []
  else
    ((ids.zip (sizes.zip (arrays.map detector))).mapM fun entry =>
      emitImage categories threshold entry.1 entry.2.2 entry.2.1.1 entry.2.1.2).map List.flatten

/-- `run_detections` with a positive batch size. -/
def runDetections (files : ImageFiles Tensor) (detector : Tensor → Outputs K)
    (categories : Dict ℕ ℤ) (threshold : K) (batchSize : ℕ) (records : List ImageRecord) :
    Except KeyError (List (CocoDetection K)) :=
  ((batches batchSize records).mapM
    (emitChunk files detector categories threshold)).map List.flatten

/-! ## The service -/

/-- A box of a response. -/
structure BoundingBox (K : Type) [Field K] [LinearOrder K] extends CornerBox K where
  nonneg : 0 ≤ xMin ∧ 0 ≤ yMin ∧ 0 ≤ xMax ∧ 0 ≤ yMax

/-- A detection in a response, whose confidence is checked. -/
structure Detection (K : Type) [Field K] [LinearOrder K] where
  label : String
  classId : ℕ
  confidence : K
  box : BoundingBox K
  bounds : 0 ≤ confidence ∧ confidence ≤ 1

/-- The field of a response that is refused. -/
inductive ValidationError where
  | box
  | confidence
deriving DecidableEq

/-- The corners to two decimals. -/
def CornerBox.rounded (box : CornerBox K) : CornerBox K where
  xMin := roundTo 2 box.xMin
  yMin := roundTo 2 box.yMin
  xMax := roundTo 2 box.xMax
  yMax := roundTo 2 box.yMax

/-- `Detection(...)` with its `BoundingBox(...)`, which are validated. -/
def makeDetection (classNames : List String) (classId : ℕ) (score : K) (box : CornerBox K) :
    Except ValidationError (Detection K) :=
  let label := (classNames[classId]?).getD (toString classId)
  let corners := box.rounded
  if nonneg : 0 ≤ corners.xMin ∧ 0 ≤ corners.yMin ∧ 0 ≤ corners.xMax ∧ 0 ≤ corners.yMax then
    if bounds : 0 ≤ roundTo 6 score ∧ roundTo 6 score ≤ 1 then
      .ok ⟨label, classId, roundTo 6 score, ⟨corners, nonneg⟩, bounds⟩
    else .error .confidence
  else .error .box

/-- `np.argsort`: positions of the keys in ascending order; equal keys come in any order. -/
structure Argsort (K : Type) [LinearOrder K] where
  order : List K → List ℕ
  isOrder : ∀ keys, (order keys).Perm (List.range keys.length)
  ascending : ∀ keys, ((order keys).filterMap fun index => keys[index]?).Pairwise (· ≤ ·)

/-- `items[:count]` -/
def sliceTo {Item : Type} (items : List Item) (count : ℤ) : List Item :=
  if 0 ≤ count then items.take count.toNat else items.take (items.length - count.natAbs)

theorem sliceTo_nil {Item : Type} (count : ℤ) : sliceTo ([] : List Item) count = [] := by
  simp [sliceTo]

/-- `keep[np.argsort(-best_score[keep])][:max_detections]` -/
def rank (argsort : Argsort K) (outputs : Outputs K) (keep : List (Fin outputs.queries))
    (maxDetections : ℤ) : List (Fin outputs.queries) :=
  sliceTo ((argsort.order (keep.map fun query => -outputs.bestScore query)).filterMap
    fun index => keep[index]?) maxDetections

/-- `DetectionService._decode` -/
def decode (argsort : Argsort K) (classNames : List String) (outputs : Outputs K)
    (width height : ℕ) (threshold : K) (maxDetections : ℤ) :
    Except ValidationError (List (Detection K)) :=
  let keep := outputs.keep threshold
  if keep.isEmpty then .ok []
  else
    let ranked := rank argsort outputs keep maxDetections
    let absolute := boxesToAbsolute (ranked.map outputs.boxes) width height
    (ranked.zip absolute).mapM fun entry =>
      makeDetection classNames (outputs.bestClass entry.1) (outputs.bestScore entry.1) entry.2

/-! ## Queries -/

section Queries

omit [FloorRing K] [Field K]

theorem bestFrom_lt {index : ℕ} {best : ℕ × K} (known : best.1 < index) (rest : List K) :
    (bestFrom index best rest).1 < index + rest.length := by
  induction rest generalizing index best with
  | nil => exact known
  | cons score rest ih =>
      have next : (if best.2 < score then (index, score) else best).1 < index + 1 := by
        split
        · exact Nat.lt_succ_self index
        · exact Nat.lt_succ_of_lt known
      have bound := ih next
      rw [bestFrom, List.length_cons]
      omega

theorem best_lt (row : Row K) : row.best.1 < row.classes := by
  have known : ((0, row.head) : ℕ × K).1 < 1 := Nat.one_pos
  have bound := bestFrom_lt known row.tail
  rw [Row.best, Row.classes]
  omega

/-- A query is kept if its best score reaches the threshold. -/
theorem mem_keep {outputs : Outputs K} {threshold : K} {query : Fin outputs.queries} :
    query ∈ outputs.keep threshold ↔ threshold ≤ outputs.bestScore query := by
  simp [Outputs.keep]

/-- A query is kept once. -/
theorem nodup_keep (outputs : Outputs K) (threshold : K) : (outputs.keep threshold).Nodup :=
  (List.nodup_finRange _).filter _

theorem length_keep_le (outputs : Outputs K) (threshold : K) :
    (outputs.keep threshold).length ≤ outputs.queries := by
  refine (List.length_filter_le _ _).trans ?_
  rw [List.length_finRange]

end Queries

theorem filterMap_range_getElem? {Item : Type} (items : List Item) :
    (List.range items.length).filterMap (fun index => items[index]?) = items := by
  induction items with
  | nil => rfl
  | cons item rest ih =>
      rw [List.length_cons, List.range_succ_eq_map, List.filterMap_cons, List.filterMap_map]
      exact congrArg (item :: ·) ih

section Descending

omit [FloorRing K]

variable {Item : Type} (argsort : Argsort K) (score : Item → K) (items : List Item)

/-- `items[np.argsort(-scores)]` -/
def descending : List Item :=
  (argsort.order (items.map fun item => -score item)).filterMap fun index => items[index]?

theorem descending_perm : (descending argsort score items).Perm items := by
  have order := argsort.isOrder (items.map fun item => -score item)
  rw [List.length_map] at order
  have all := order.filterMap fun index => items[index]?
  rw [filterMap_range_getElem?] at all
  exact all

theorem descending_sorted [IsStrictOrderedRing K] :
    (descending argsort score items).Pairwise fun earlier later =>
      score later ≤ score earlier := by
  have ascending := argsort.ascending (items.map fun item => -score item)
  simp only [List.getElem?_map, ← List.map_filterMap, List.pairwise_map, neg_le_neg_iff]
    at ascending
  exact ascending

end Descending

section Ranked

omit [FloorRing K]

variable (argsort : Argsort K) (outputs : Outputs K) (keep : List (Fin outputs.queries))

/-- The queries that `rank` takes its first ones from. -/
def ranked : List (Fin outputs.queries) :=
  (argsort.order (keep.map fun query => -outputs.bestScore query)).filterMap fun index =>
    keep[index]?

/-- The ranking is the whole one, cut at the cap. -/
theorem rank_eq_sliceTo (maxDetections : ℤ) :
    rank argsort outputs keep maxDetections =
      sliceTo (ranked argsort outputs keep) maxDetections :=
  rfl

/-- The whole ranking has the kept queries. -/
theorem ranked_perm : (ranked argsort outputs keep).Perm keep :=
  descending_perm argsort outputs.bestScore keep

theorem ranked_sorted [IsStrictOrderedRing K] :
    (ranked argsort outputs keep).Pairwise fun earlier later =>
      outputs.bestScore later ≤ outputs.bestScore earlier :=
  descending_sorted argsort outputs.bestScore keep

/-- With a cap that no query exceeds, the ranked queries are those that are kept. -/
theorem rank_perm (threshold : K) {maxDetections : ℤ} (cap : outputs.queries ≤ maxDetections) :
    (rank argsort outputs (outputs.keep threshold) maxDetections).Perm
      (outputs.keep threshold) := by
  have few := length_keep_le outputs threshold
  have all := ranked_perm argsort outputs (outputs.keep threshold)
  rw [rank_eq_sliceTo, sliceTo, if_pos (by omega), List.take_of_length_le]
  · exact all
  · rw [all.length_eq]
    omega

end Ranked

theorem roundTo_nonneg [IsStrictOrderedRing K] (digits : ℕ) {value : K} (nonneg : 0 ≤ value) :
    0 ≤ roundTo digits value := by
  have floor : 0 ≤ ⌊value * 10 ^ digits⌋ := Int.floor_nonneg.mpr (by positivity)
  have rounded := floor.trans (floor_le_roundHalfEven (value * 10 ^ digits))
  have cast : (0 : K) ≤ (roundHalfEven (value * 10 ^ digits) : ℤ) := by
    exact_mod_cast rounded
  rw [roundTo]
  positivity

/-- Rounding to decimals is monotone. -/
theorem roundTo_mono [IsStrictOrderedRing K] (digits : ℕ) {small large : K}
    (below : small ≤ large) : roundTo digits small ≤ roundTo digits large := by
  have scaled : small * 10 ^ digits ≤ large * 10 ^ digits :=
    mul_le_mul_of_nonneg_right below (by positivity)
  rw [roundTo, roundTo]
  apply div_le_div_of_nonneg_right (Int.cast_le.mpr (roundHalfEven_mono scaled))
  positivity

theorem roundTo_natCast [IsStrictOrderedRing K] (digits n : ℕ) : roundTo digits (n : K) = n := by
  have power : (10 : K) ^ digits ≠ 0 := by positivity
  have integral : (n : K) * 10 ^ digits = ((n * 10 ^ digits : ℤ) : K) := by
    push_cast
    rfl
  rw [roundTo, integral, roundHalfEven_intCast, ← integral, mul_div_cancel_right₀ _ power]

/-- Rounding keeps the unit interval. -/
theorem roundTo_unit [IsStrictOrderedRing K] (digits : ℕ) {value : K} (nonneg : 0 ≤ value)
    (atMost : value ≤ 1) : 0 ≤ roundTo digits value ∧ roundTo digits value ≤ 1 := by
  refine ⟨roundTo_nonneg digits nonneg, ?_⟩
  have capped := roundTo_mono digits (atMost.trans_eq Nat.cast_one.symm)
  rw [roundTo_natCast, Nat.cast_one] at capped
  exact capped

/-! ## What both select -/

/-- A query with its best class, its score and its box in pixels, before anything is rounded. -/
structure Selected (K : Type) where
  query : ℕ
  classIndex : ℕ
  score : K
  corners : CornerBox K

omit [FloorRing K] in
/-- What a query of an image is before it is reported. -/
def Outputs.select (outputs : Outputs K) (width height : ℕ) (query : Fin outputs.queries) :
    Selected K where
  query := query
  classIndex := outputs.bestClass query
  score := outputs.bestScore query
  corners := boxToAbsolute width height (outputs.boxes query)

/-- How the evaluator reports what is selected. -/
structure Emits (categories : Dict ℕ ℤ) (imageId : ℤ) (selected : Selected K)
    (emitted : CocoDetection K) : Prop where
  imageId : emitted.imageId = imageId
  categoryId : categories.get? selected.classIndex = some emitted.categoryId
  bbox : emitted.bbox = selected.corners.toCoco
  score : emitted.score = roundTo 5 selected.score

/-- How the service reports what is selected. -/
structure Serves (classNames : List String) (selected : Selected K) (detection : Detection K) :
    Prop where
  label : detection.label = (classNames[selected.classIndex]?).getD (toString selected.classIndex)
  classId : detection.classId = selected.classIndex
  confidence : detection.confidence = roundTo 6 selected.score
  box : detection.box.toCornerBox = selected.corners.rounded

/-- The score is a confidence when it is rounded to six decimals. -/
def Selected.Confident (selected : Selected K) : Prop :=
  0 ≤ roundTo 6 selected.score ∧ roundTo 6 selected.score ≤ 1

section Reports

variable {outputs : Outputs K} {width height : ℕ}

omit [FloorRing K] in
theorem zip_boxesToAbsolute (queries : List (Fin outputs.queries)) :
    queries.zip (boxesToAbsolute (queries.map outputs.boxes) width height) =
      queries.map fun query => (query, (outputs.select width height query).corners) := by
  rw [boxesToAbsolute, List.map_map, ← List.map_prod_left_eq_zip]
  rfl

/-- The evaluator reports every query that is kept, in order. -/
theorem emitImage_ok {categories : Dict ℕ ℤ} {threshold : K} {imageId : ℤ}
    (known : ∀ query, (categories.get? (outputs.bestClass query)).isSome) :
    ∃ emitted, emitImage categories threshold imageId outputs width height = .ok emitted ∧
      List.Forall₂ (Emits categories imageId)
        ((outputs.keep threshold).map (outputs.select width height)) emitted := by
  by_cases none : (outputs.keep threshold).isEmpty = true
  · rw [List.isEmpty_iff.mp none]
    refine ⟨[], ?_, .nil⟩
    simp only [emitImage, none, if_true]
  · simp only [emitImage, none, Bool.false_eq_true, if_false, zip_boxesToAbsolute, List.mapM_map,
      mapM_ok_iff, List.forall₂_map_left_iff]
    generalize outputs.keep threshold = kept
    induction kept with
    | nil => exact ⟨[], .nil, .nil⟩
    | cons query rest ih =>
        rcases ih with ⟨emitted, areEmitted, report⟩
        rcases Option.isSome_iff_exists.mp (known query) with ⟨categoryId, isCategory⟩
        have found : lookup categories KeyError.index (outputs.bestClass query) =
            .ok categoryId := by
          rw [lookup, isCategory]
        exact ⟨_ :: emitted, .cons (bind_ok_iff.mpr ⟨categoryId, found, rfl⟩) areEmitted,
          .cons ⟨rfl, isCategory, rfl, rfl⟩ report⟩

variable [IsStrictOrderedRing K]

omit [FloorRing K] in
theorem clip_nonneg (value : K) (upper : ℕ) : 0 ≤ clip value 0 (upper : K) := by
  rw [clip]
  exact le_min (le_max_right _ _) (Nat.cast_nonneg upper)

variable (outputs width height) in
theorem corners_nonneg (query : Fin outputs.queries) :
    0 ≤ (outputs.select width height query).corners.rounded.xMin ∧
      0 ≤ (outputs.select width height query).corners.rounded.yMin ∧
      0 ≤ (outputs.select width height query).corners.rounded.xMax ∧
      0 ≤ (outputs.select width height query).corners.rounded.yMax := by
  have nonneg : ∀ (value : K) (upper : ℕ), 0 ≤ roundTo 2 (clip value 0 (upper : K)) :=
    fun value upper => roundTo_nonneg 2 (clip_nonneg value upper)
  exact ⟨nonneg _ width, nonneg _ height, nonneg _ width, nonneg _ height⟩

variable {classNames : List String} {query : Fin outputs.queries}

theorem makeDetection_ok {detection : Detection K}
    (made : makeDetection classNames (outputs.bestClass query) (outputs.bestScore query)
      (outputs.select width height query).corners = .ok detection) :
    Serves classNames (outputs.select width height query) detection := by
  unfold makeDetection at made
  rw [dif_pos (corners_nonneg outputs width height query)] at made
  split at made
  · cases made
    exact ⟨rfl, rfl, rfl, rfl⟩
  · cases made

/-- The service accepts a query exactly if its rounded score is a confidence. -/
theorem makeDetection_succeeds_iff :
    Succeeds (makeDetection classNames (outputs.bestClass query) (outputs.bestScore query)
        (outputs.select width height query).corners) ↔
      (outputs.select width height query).Confident := by
  unfold makeDetection
  rw [dif_pos (corners_nonneg outputs width height query)]
  split
  · rename_i confident
    exact iff_of_true (succeeds_ok _) confident
  · rename_i refused
    exact iff_of_false (not_succeeds_error _) refused

omit [IsStrictOrderedRing K] in
/-- The service reports the ranked queries, or refuses one. -/
theorem decode_eq (argsort : Argsort K) (classNames : List String) (outputs : Outputs K)
    (width height : ℕ) (threshold : K) (maxDetections : ℤ) :
    decode argsort classNames outputs width height threshold maxDetections =
      (rank argsort outputs (outputs.keep threshold) maxDetections).mapM fun query =>
        makeDetection classNames (outputs.bestClass query) (outputs.bestScore query)
          (outputs.select width height query).corners := by
  by_cases none : (outputs.keep threshold).isEmpty = true
  · have isNil := ranked_perm argsort outputs (outputs.keep threshold)
    rw [List.isEmpty_iff.mp none, List.perm_nil] at isNil
    rw [rank_eq_sliceTo, List.isEmpty_iff.mp none, isNil, sliceTo_nil]
    simp only [decode, none, if_true]
    rfl
  · simp only [decode, none, Bool.false_eq_true, if_false, zip_boxesToAbsolute, List.mapM_map]
    rfl

end Reports

/-! ## Whole directories -/

section Directories

variable (files : ImageFiles Tensor) (detector : Tensor → Outputs K) (categories : Dict ℕ ℤ)
  (threshold : K)

/-- The images on disk, with their arrays and sizes. -/
def presentImages (records : List ImageRecord) : List (ℤ × Tensor × ℕ × ℕ) :=
  records.filterMap fun record => (files record.fileName).map (record.id, ·)

/-- The detections of an image on disk. -/
def emitPresent (entry : ℤ × Tensor × ℕ × ℕ) : Except KeyError (List (CocoDetection K)) :=
  emitImage categories threshold entry.1 (detector entry.2.1) entry.2.2.1 entry.2.2.2

/-- A batch keeps the arrays, the sizes and the ids of its images together. -/
theorem emitChunk_eq (chunk : List ImageRecord) :
    emitChunk files detector categories threshold chunk =
      ((presentImages files chunk).mapM (emitPresent detector categories threshold)).map
        List.flatten := by
  have together : ((presentImages files chunk).map fun entry => entry.1).zip
      (((presentImages files chunk).map fun entry => entry.2.2).zip
        (((presentImages files chunk).map fun entry => entry.2.1).map detector)) =
      (presentImages files chunk).map fun entry => (entry.1, entry.2.2, detector entry.2.1) := by
    rw [List.map_map, List.zip_map', List.zip_map']
    rfl
  have unfolded : emitChunk files detector categories threshold chunk =
      if ((presentImages files chunk).map fun entry => entry.2.1).isEmpty then .ok []
      else
        ((((presentImages files chunk).map fun entry => entry.1).zip
          (((presentImages files chunk).map fun entry => entry.2.2).zip
            (((presentImages files chunk).map fun entry => entry.2.1).map detector))).mapM
          fun entry => emitImage categories threshold entry.1 entry.2.2 entry.2.1.1
            entry.2.1.2).map List.flatten :=
    rfl
  rw [unfolded, together, List.mapM_map]
  split
  · rename_i none
    rw [List.isEmpty_iff, List.map_eq_nil_iff] at none
    rw [none]
    rfl
  · rfl

/-- The detections of a directory are those of its images one by one, whatever the batch size. -/
theorem runDetections_eq {batchSize : ℕ} (positive : 0 < batchSize) (records : List ImageRecord) :
    runDetections files detector categories threshold batchSize records =
      ((presentImages files records).mapM (emitPresent detector categories threshold)).map
        List.flatten := by
  have chunks : runDetections files detector categories threshold batchSize records =
      (((batches batchSize records).map (presentImages files)).mapM
        fun present : List (ℤ × Tensor × ℕ × ℕ) =>
          (present.mapM (emitPresent detector categories threshold)).map List.flatten).map
            List.flatten := by
    rw [runDetections, List.mapM_map]
    congr 2
    funext chunk
    exact emitChunk_eq files detector categories threshold chunk
  have all : ((batches batchSize records).map (presentImages files)).flatten =
      presentImages files records := by
    rw [presentImages, ← flatten_batches positive records, List.filterMap_flatten]
    rw [flatten_batches positive records]
    rfl
  rw [chunks, mapM_flatten, all]

end Directories

/-! ## Evaluated and served -/

variable [IsStrictOrderedRing K]

/-- The evaluator emits what is selected, and the service either returns the same in another order
or refuses a score that is no confidence. -/
structure Correspond (categories : Dict ℕ ℤ) (imageId : ℤ) (classNames : List String)
    (selected : List (Selected K)) (emitted : List (CocoDetection K))
    (decoded : Except ValidationError (List (Detection K))) : Prop where
  emits : List.Forall₂ (Emits categories imageId) selected emitted
  accepts : Succeeds decoded ↔ ∀ query ∈ selected, query.Confident
  serves : ∀ detections, decoded = .ok detections →
    ∃ ranked, ranked.Perm selected ∧ List.Forall₂ (Serves classNames) ranked detections

/-- For the same arrays the evaluator and the service report the same queries, each of them once:
those whose best score reaches the threshold.  The loop over a directory emits what its body emits
for the images, one after the other. -/
theorem evaluated_correspond_served (coco : Coco) (classNames : List String) (argsort : Argsort K)
    (outputs : Outputs K)
    (classes : ∀ query, (outputs.scores query).classes = coco.catIds.length) (imageId : ℤ)
    (width height : ℕ) (threshold : K) (maxDetections : ℤ)
    (cap : outputs.queries ≤ maxDetections) :
    (outputs.keep threshold).Nodup ∧
    (∀ query, query ∈ outputs.keep threshold ↔ threshold ≤ outputs.bestScore query) ∧
    (∃ emitted,
      emitImage (indexToCategory coco) threshold imageId outputs width height = .ok emitted ∧
      Correspond (indexToCategory coco) imageId classNames
        ((outputs.keep threshold).map (outputs.select width height)) emitted
        (decode argsort classNames outputs width height threshold maxDetections)) ∧
    ∀ (Tensor : Type) (files : ImageFiles Tensor) (detector : Tensor → Outputs K) (batchSize : ℕ)
      (records : List ImageRecord), 0 < batchSize →
      runDetections files detector (indexToCategory coco) threshold batchSize records =
        ((presentImages files records).mapM
          (emitPresent detector (indexToCategory coco) threshold)).map List.flatten := by
  have known : ∀ query,
      ((indexToCategory coco).get? (outputs.bestClass query)).isSome := by
    intro query
    rw [Option.isSome_iff_exists, (inverseMaps coco).indices, ← classes query]
    exact best_lt (outputs.scores query)
  rcases emitImage_ok known with ⟨emitted, areEmitted, emits⟩
  have ranked := rank_perm argsort outputs threshold cap
  have isDecode := decode_eq argsort classNames outputs width height threshold maxDetections
  refine ⟨nodup_keep outputs threshold, fun query => mem_keep,
    ⟨emitted, areEmitted, emits, ?_, ?_⟩, ?_⟩
  · rw [isDecode, mapM_succeeds_iff, List.forall_mem_map]
    simp only [makeDetection_succeeds_iff, ranked.mem_iff]
  · intro detections decoded
    rw [isDecode, mapM_ok_iff] at decoded
    refine ⟨_, ranked.map (outputs.select width height), ?_⟩
    rw [List.forall₂_map_left_iff]
    exact decoded.imp fun _ _ made => makeDetection_ok made
  · intro Tensor files detector batchSize records positive
    exact runDetections_eq files detector (indexToCategory coco) threshold positive records

/-- Positions by insertion sort, so that equal keys keep their order. -/
def insertionOrder (keys : List ℚ) : List ℕ :=
  (List.range keys.length).insertionSort fun left right => keys.getD left 0 ≤ keys.getD right 0

theorem insertionOrder_perm (keys : List ℚ) :
    (insertionOrder keys).Perm (List.range keys.length) :=
  List.perm_insertionSort _ _

theorem insertionOrder_ascending (keys : List ℚ) :
    ((insertionOrder keys).filterMap fun index => keys[index]?).Pairwise (· ≤ ·) := by
  have sorted : (insertionOrder keys).Pairwise
      fun left right => keys.getD left 0 ≤ keys.getD right 0 := by
    have total : Std.Total fun left right => keys.getD left 0 ≤ keys.getD right 0 :=
      ⟨fun left right => le_total (keys.getD left 0) (keys.getD right 0)⟩
    have transitive : IsTrans ℕ fun left right => keys.getD left 0 ≤ keys.getD right 0 :=
      ⟨fun _ _ _ => le_trans⟩
    exact List.pairwise_insertionSort _ _
  apply sorted.filterMap
  intro left right below first isFirst second isSecond
  simpa [List.getD_eq_getElem?_getD, Option.mem_def.mp isFirst, Option.mem_def.mp isSecond]
    using below

/-- A stable sort by insertion. -/
def insertionArgsort : Argsort ℚ :=
  ⟨insertionOrder, insertionOrder_perm, insertionOrder_ascending⟩

/-- Five queries that score from none to one in quarters. -/
def quarterScores : Outputs ℚ where
  queries := 5
  scores := fun query => ⟨(query : ℕ) / 4, [1 / 8]⟩
  boxes := fun _ => ⟨1 / 2, 1 / 2, 1 / 2, 1 / 2⟩

theorem nodup_personAndCar : ([1, 3] : List ℤ).Nodup := by
  decide

/-- Two of the categories of COCO. -/
def personAndCar : Coco :=
  ⟨[1, 3], nodup_personAndCar⟩

/-- Three of five queries reach one half, and both report them. -/
theorem evaluated_correspond_served_half :
    (quarterScores.keep (1 / 2)).map Fin.val = [2, 3, 4] ∧ ∃ emitted detections,
      emitImage (indexToCategory personAndCar) (1 / 2) 7 quarterScores 64 48 =
        .ok emitted ∧ emitted.length = 3 ∧
      decode insertionArgsort ["person", "car"] quarterScores 64 48 (1 / 2) 100 =
        .ok detections ∧ detections.length = 3 ∧
      Correspond (indexToCategory personAndCar) 7 ["person", "car"]
        ((quarterScores.keep (1 / 2)).map (quarterScores.select 64 48)) emitted
        (.ok detections) := by
  have kept : (quarterScores.keep (1 / 2)).map Fin.val = [2, 3, 4] := by decide +kernel
  have three : (quarterScores.keep (1 / 2)).length = 3 := by
    rw [← List.length_map (f := Fin.val), kept]
    rfl
  rcases evaluated_correspond_served personAndCar ["person", "car"] insertionArgsort
    quarterScores (fun _ => rfl) 7 64 48 (1 / 2) 100 (by decide) with
    ⟨_, _, ⟨emitted, areEmitted, correspond⟩, _⟩
  have confident : ∀ query ∈ (quarterScores.keep (1 / 2)).map (quarterScores.select 64 48),
      query.Confident := by
    rw [List.forall_mem_map]
    intro query isKept
    apply roundTo_unit 6
    · exact le_trans (by norm_num) (mem_keep.mp isKept)
    · exact (show ∀ query, quarterScores.bestScore query ≤ 1 by decide +kernel) query
  rcases correspond.accepts.mpr confident with ⟨detections, decoded⟩
  rcases correspond.serves detections decoded with ⟨ranked, perm, serves⟩
  refine ⟨kept, emitted, detections, areEmitted, ?_, decoded, ?_, decoded ▸ correspond⟩
  · rw [← correspond.emits.length_eq, List.length_map, three]
  · rw [← serves.length_eq, perm.length_eq, List.length_map, three]

/-- An output of one query with one class. -/
def oneQuery (score : ℚ) : Outputs ℚ where
  queries := 1
  scores := fun _ => ⟨score, []⟩
  boxes := fun _ => ⟨1 / 2, 1 / 2, 1 / 2, 1 / 2⟩

/-- A score above one is evaluated, but the service refuses it. -/
theorem score_two_refused :
    (∃ emitted, emitImage (indexToCategory ⟨[1], List.nodup_singleton 1⟩) (1 / 2) 7 (oneQuery 2)
        64 48 = .ok emitted ∧ emitted ≠ []) ∧
      ¬Succeeds (decode insertionArgsort ["person"] (oneQuery 2) 64 48 (1 / 2) 100) := by
  have query : Fin (oneQuery 2).queries := (0 : Fin 1)
  have reached : (1 / 2 : ℚ) ≤ 2 := by norm_num
  have isKept : query ∈ (oneQuery 2).keep (1 / 2) := mem_keep.mpr reached
  have cap : ((oneQuery 2).queries : ℤ) ≤ 100 := by decide
  constructor
  · have known : ∀ query, ((indexToCategory ⟨[1], List.nodup_singleton 1⟩).get?
        ((oneQuery 2).bestClass query)).isSome := fun _ => rfl
    rcases emitImage_ok known with ⟨emitted, areEmitted, emits⟩
    refine ⟨emitted, areEmitted, ?_⟩
    rintro rfl
    rw [List.forall₂_nil_right_iff, List.map_eq_nil_iff] at emits
    rw [emits] at isKept
    exact List.not_mem_nil isKept
  · rw [decode_eq, mapM_succeeds_iff]
    intro accepted
    have isRanked := (rank_perm insertionArgsort (oneQuery 2) (1 / 2) cap).mem_iff.mpr isKept
    have confident := (makeDetection_succeeds_iff.mp (accepted query isRanked)).2
    have large : roundTo 6 ((oneQuery 2).bestScore query) = 2 := roundTo_natCast 6 2
    have refused : (2 : ℚ) ≤ 1 := large ▸ confident
    norm_num at refused

end VisionApi.Detect
