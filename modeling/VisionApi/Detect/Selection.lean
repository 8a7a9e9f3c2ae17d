import VisionApi.Detect.Decode

/-!
# What the service selects

Of the queries whose best score reaches the threshold the service returns the
best ones, as many as the cap allows, each with a best class, its score and its
own box inside the image.

`Detects` says what a detection shows of its query, now in the terms of the scores: its
class has the greatest score of the row (`IsBest`), and is the first such class.  The
box lies inside the image, since the corners are clipped before they are rounded and
the sides of the image are integers, which rounding to decimals does not cross.

The selection is a part of the ranking.  That no query outside is better than one
inside follows from the order of the ranking alone (`le_of_notMem_take`); the number
of detections is the cap or the number of qualifying queries, whichever is smaller.
-/

namespace VisionApi.Detect

open Foundation

variable {K : Type} [Field K] [LinearOrder K]

/-! ## The best class -/

section Best

omit [Field K]

/-- The scores of the classes. -/
def Row.scores (row : Row K) : List K :=
  row.head :: row.tail

/-- The index of a greatest score, with the score. -/
structure IsBest (scores : List K) (best : ℕ × K) : Prop where
  isScore : scores[best.1]? = some best.2
  greatest : ∀ score ∈ scores, score ≤ best.2

/-- The scan keeps a best score of what it has passed. -/
theorem isBest_bestFrom {passed rest : List K} {best : ℕ × K} (isBest : IsBest passed best) :
    IsBest (passed ++ rest) (bestFrom passed.length best rest) := by
  induction rest generalizing passed best with
  | nil =>
      rw [List.append_nil]
      exact isBest
  | cons score rest ih =>
      have next : IsBest (passed ++ [score])
          (if best.2 < score then (passed.length, score) else best) := by
        split
        · rename_i larger
          refine ⟨List.getElem?_concat_length, ?_⟩
          intro other isOther
          rcases List.mem_append.mp isOther with inPassed | isLast
          · exact (isBest.greatest other inPassed).trans larger.le
          · exact (List.mem_singleton.mp isLast).le
        · rename_i notLarger
          refine ⟨?_, ?_⟩
          · rw [List.getElem?_append_left (List.getElem?_eq_some_iff.mp isBest.isScore).1]
            exact isBest.isScore
          · intro other isOther
            rcases List.mem_append.mp isOther with inPassed | isLast
            · exact isBest.greatest other inPassed
            · rw [List.mem_singleton.mp isLast]
              exact not_lt.mp notLarger
      have scanned := ih next
      rw [List.append_assoc, List.length_append] at scanned
      exact scanned

theorem isBest_best (row : Row K) : IsBest row.scores row.best := by
  have first : IsBest [row.head] (0, row.head) :=
    ⟨rfl, fun score isScore => (List.mem_singleton.mp isScore).le⟩
  exact isBest_bestFrom first

end Best

/-! ## Boxes inside the image -/

section Inside

variable [FloorRing K] [IsStrictOrderedRing K]

/-- The corners are inside the image, and the least are not beyond the greatest. -/
structure CornerBox.Inside (width height : ℕ) (box : CornerBox K) : Prop where
  x : 0 ≤ box.xMin ∧ box.xMin ≤ box.xMax ∧ box.xMax ≤ width
  y : 0 ≤ box.yMin ∧ box.yMin ≤ box.yMax ∧ box.yMax ≤ height

omit [FloorRing K] [IsStrictOrderedRing K] in
theorem clip_mono {small large : K} (below : small ≤ large) (upper : ℕ) :
    clip small 0 (upper : K) ≤ clip large 0 (upper : K) :=
  min_le_min_right _ (max_le_max_right _ below)

omit [FloorRing K] [IsStrictOrderedRing K] in
theorem clip_le (value : K) (upper : ℕ) : clip value 0 (upper : K) ≤ upper :=
  min_le_right _ _

/-- The clipped ends of an extent, rounded. -/
theorem roundTo_clip_inside (centre : K) {extent : K} (nonneg : 0 ≤ extent) (size : ℕ) :
    0 ≤ roundTo 2 (clip ((centre - half extent) * size) 0 (size : K)) ∧
      roundTo 2 (clip ((centre - half extent) * size) 0 (size : K)) ≤
        roundTo 2 (clip ((centre + half extent) * size) 0 (size : K)) ∧
      roundTo 2 (clip ((centre + half extent) * size) 0 (size : K)) ≤ size := by
  have ordered : (centre - half extent) * size ≤ (centre + half extent) * size := by
    apply mul_le_mul_of_nonneg_right _ (Nat.cast_nonneg size)
    rw [half]
    linarith
  refine ⟨roundTo_nonneg 2 (clip_nonneg _ size), roundTo_mono 2 (clip_mono ordered size), ?_⟩
  have capped := roundTo_mono 2 (clip_le ((centre + half extent) * (size : K)) size)
  rw [roundTo_natCast] at capped
  exact capped

theorem boxToAbsolute_inside {box : CentreBox K} (sizes : 0 ≤ box.width ∧ 0 ≤ box.height)
    (width height : ℕ) : (boxToAbsolute width height box).rounded.Inside width height :=
  ⟨roundTo_clip_inside _ sizes.1 width, roundTo_clip_inside _ sizes.2 height⟩

end Inside

/-! ## The selection -/

/-- The queries whose best score reaches the threshold. -/
def Outputs.qualifying (outputs : Outputs K) (threshold : K) : Finset (Fin outputs.queries) :=
  Finset.univ.filter fun query => threshold ≤ outputs.bestScore query

variable [FloorRing K] [IsStrictOrderedRing K]

/-- A detection carries a best class of its query, the score and the box. -/
structure Detects (classNames : List String) (outputs : Outputs K) (width height : ℕ)
    (query : Fin outputs.queries) (detection : Detection K) : Prop where
  best : IsBest (outputs.scores query).scores (detection.classId, outputs.bestScore query)
  label : detection.label = (classNames[detection.classId]?).getD (toString detection.classId)
  confidence : detection.confidence = roundTo 6 (outputs.bestScore query)
  box : detection.box.toCornerBox =
    (boxToAbsolute width height (outputs.boxes query)).rounded
  inside : detection.box.toCornerBox.Inside width height

variable {argsort : Argsort K} {classNames : List String} {outputs : Outputs K}
  {width height : ℕ} {threshold : K} {maxDetections : ℤ}

/-- A query with scores in the unit interval and a box with an extent becomes a detection. -/
theorem makeDetection_detects {query : Fin outputs.queries}
    (scores : ∀ score ∈ (outputs.scores query).scores, 0 ≤ score ∧ score ≤ 1)
    (sizes : 0 ≤ (outputs.boxes query).width ∧ 0 ≤ (outputs.boxes query).height) :
    ∃ detection, makeDetection classNames (outputs.bestClass query) (outputs.bestScore query)
        (outputs.select width height query).corners = .ok detection ∧
      Detects classNames outputs width height query detection := by
  have best := isBest_best (outputs.scores query)
  have bounds := scores _ (List.mem_of_getElem? best.isScore)
  have confident : (outputs.select width height query).Confident :=
    roundTo_unit 6 bounds.1 bounds.2
  rcases makeDetection_succeeds_iff.mpr confident with ⟨detection, made⟩
  have serves := makeDetection_ok made
  have inside := boxToAbsolute_inside sizes width height
  refine ⟨detection, made, ?_, ?_, serves.confidence, serves.box, ?_⟩
  · rw [serves.classId]
    exact best
  · rw [serves.label, serves.classId]
  · rw [serves.box]
    exact inside

omit [FloorRing K] in
/-- The queries that are left out score at most as high as those that are taken. -/
theorem le_of_notMem_take {query kept : Fin outputs.queries} {count : ℕ}
    (qualifies : query ∈ outputs.keep threshold)
    (leftOut : query ∉ (ranked argsort outputs (outputs.keep threshold)).take count)
    (isKept : kept ∈ (ranked argsort outputs (outputs.keep threshold)).take count) :
    outputs.bestScore query ≤ outputs.bestScore kept := by
  have sorted := ranked_sorted argsort outputs (outputs.keep threshold)
  have isRanked := (ranked_perm argsort outputs (outputs.keep threshold)).mem_iff.mpr qualifies
  rw [← List.take_append_drop count (ranked argsort outputs (outputs.keep threshold))]
    at sorted isRanked
  rcases List.mem_append.mp isRanked with taken | dropped
  · exact absurd taken leftOut
  · exact (List.pairwise_append.mp sorted).2.2 kept isKept query dropped

omit [FloorRing K] [IsStrictOrderedRing K] [Field K] in
/-- The qualifying queries are those that are kept. -/
theorem mem_qualifying {query : Fin outputs.queries} :
    query ∈ outputs.qualifying threshold ↔ query ∈ outputs.keep threshold := by
  rw [Outputs.qualifying, Finset.mem_filter_univ, mem_keep]

omit [FloorRing K] [IsStrictOrderedRing K] [Field K] in
theorem card_qualifying :
    (outputs.qualifying threshold).card = (outputs.keep threshold).length := by
  have same : outputs.qualifying threshold = (outputs.keep threshold).toFinset := by
    ext query
    rw [mem_qualifying, List.mem_toFinset]
  rw [same, List.toFinset_card_of_nodup (nodup_keep outputs threshold)]

end VisionApi.Detect
