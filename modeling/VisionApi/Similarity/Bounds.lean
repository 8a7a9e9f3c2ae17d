import Mathlib.Analysis.InnerProductSpace.Basic
import VisionApi.Similarity.Rows
import VisionApi.Similarity.Search

/-!
# Similarities of accepted vectors

The index accepts vectors whose norm is close to one, and a response refuses a
similarity beyond one.  In exact arithmetic the two agree on the vectors whose
norm is at most half of the last reported decimal above one.

A score is an inner product and is rounded to six decimals before it is compared, so the
bound on scores is a little above one.  A query has norm one.  If no stored vector is
longer than the bound, no score exceeds it, by the inequality of Cauchy and Schwarz; if
one is, the query in its direction is refused.

The condition is about the calls that built the index: the vectors that are stored after
a history are those of its calls (`stored_exec`).  The service and the search are those of
the other modules, with an exact search as a hypothesis and `flatSearch` as the search
that meets it.
-/

namespace VisionApi.Similarity

open Foundation Models Inference
open Detect (roundTo)

universe u

/-! ## Rounded similarities -/

section Rounded

/-- The greatest score that is rounded to one. -/
noncomputable def bound : ℝ :=
  (1 + 1 / (2 * 10 ^ 6) : ℚ)

theorem roundHalfEven_bound : roundHalfEven (bound * 10 ^ 6) = 10 ^ 6 := by
  have scaled : bound * 10 ^ 6 = ((10 ^ 6 : ℤ) : ℝ) + 1 / 2 := by
    rw [bound]
    norm_num
  have floor : ⌊bound * 10 ^ 6⌋ = 10 ^ 6 := by
    rw [scaled, Int.floor_intCast_add]
    norm_num
  have down : RoundsDown (bound * 10 ^ 6) := by
    right
    refine ⟨?_, ?_⟩
    · rw [Int.fract, floor, scaled]
      ring
    · rw [floor]
      decide
  rw [(roundHalfEven_eq_floor_iff _).mpr down, floor]

theorem roundHalfEven_neg_bound : roundHalfEven (-bound * 10 ^ 6) = -10 ^ 6 := by
  have scaled : -bound * 10 ^ 6 = ((-10 ^ 6 - 1 : ℤ) : ℝ) + 1 / 2 := by
    rw [bound]
    norm_num
  have floor : ⌊-bound * 10 ^ 6⌋ = -10 ^ 6 - 1 := by
    rw [scaled, Int.floor_intCast_add]
    norm_num
  have notDown : ¬RoundsDown (-bound * 10 ^ 6) := by
    rintro (below | ⟨_, even⟩)
    · rw [Int.fract, floor, scaled] at below
      norm_num at below
    · rw [floor] at even
      revert even
      decide
  have upper := roundHalfEven_le_floor_add_one (-bound * 10 ^ 6)
  have lower := floor_le_roundHalfEven (-bound * 10 ^ 6)
  have other := mt (roundHalfEven_eq_floor_iff _).mp notDown
  rw [floor] at upper lower other
  omega

/-- A score is reported in the bounds of a similarity. -/
def InBounds (score : ℝ) : Prop :=
  -1 ≤ roundTo 6 score ∧ roundTo 6 score ≤ 1

theorem inBounds_of_abs_le {score : ℝ} (small : |score| ≤ bound) : InBounds score := by
  have ends := abs_le.mp small
  have positive : (0 : ℝ) < 10 ^ 6 := by positivity
  have upper : roundHalfEven (score * 10 ^ 6) ≤ 10 ^ 6 :=
    roundHalfEven_bound ▸ roundHalfEven_mono (mul_le_mul_of_nonneg_right ends.2 positive.le)
  have lower : -10 ^ 6 ≤ roundHalfEven (score * 10 ^ 6) :=
    roundHalfEven_neg_bound ▸ roundHalfEven_mono (mul_le_mul_of_nonneg_right ends.1 positive.le)
  rw [InBounds, roundTo, le_div_iff₀ positive, div_le_iff₀ positive]
  constructor
  · rw [neg_one_mul]
    exact_mod_cast lower
  · rw [one_mul]
    exact_mod_cast upper

theorem le_bound_of_inBounds {score : ℝ} (inBounds : InBounds score) : score ≤ bound := by
  have positive : (0 : ℝ) < 10 ^ 6 := by positivity
  have upper := inBounds.2
  rw [roundTo, div_le_iff₀ positive, one_mul] at upper
  have near := (abs_le.mp (abs_roundHalfEven_sub_le (score * 10 ^ 6))).1
  rw [bound]
  norm_num at upper near ⊢
  linarith

end Rounded

/-! ## What the calls put into the index -/

section Stored

variable {V : Type u} {unitNorm : V → Bool} {s : Artefacts V}

/-- The vectors of the index on disk. -/
def stored (s : Artefacts V) : List V :=
  (s.index.map Index.vectors).getD []

/-- A build replaces what was supplied, an append adds to it. -/
def supplied (vectors : List V) : Call V → List V
  | .build embeddings _ _ _ _ => embeddings.vectors
  | .append embeddings _ _ => vectors ++ embeddings.vectors
  | .update _ _ => vectors

theorem stored_of_index {index : Index V} (isIndex : s.index = some index) :
    stored s = index.vectors := by
  rw [stored, isIndex]
  rfl

theorem stored_after {call : Call V} (returns : Returns unitNorm s call) :
    stored (after unitNorm s call) = supplied (stored s) call := by
  cases call with
  | build embeddings labels paths sourceModel imageSize =>
      rcases build_cases unitNorm embeddings labels paths sourceModel imageSize with
        ⟨error, raised⟩ | ⟨metadata, written⟩
      · exact absurd returns (not_returns_of_raises (forget_raises raised))
      · rw [after, Call.outcome, written]
        rfl
  | append embeddings labels paths =>
      rcases append_cases unitNorm s embeddings labels paths with
        ⟨error, raised⟩ | ⟨index, manifest, isIndex, _, _, rest, result, written, ending⟩
      · exact absurd returns (not_returns_of_raises (forget_raises raised))
      · rw [supplied, stored_of_index isIndex, after, Call.outcome, written]
        rcases ending with ⟨_, rfl, _⟩ | ⟨_, metadata, _, rfl, _⟩
        · rfl
        · rfl
  | update updates pathUpdates =>
      rcases update_cases s updates pathUpdates with
        ⟨error, raised⟩ | ⟨index, manifest, labels, relabelled, paths, changed, _, _, _, _, _, _,
          written⟩
      · exact absurd returns (not_returns_of_raises (forget_raises raised))
      · rw [after, Call.outcome, written]
        rfl

/-- After calls that all return, the index has the vectors that were supplied. -/
theorem stored_exec {calls : List (Call V)} {finish : Artefacts V}
    (executed : exec (callStep unitNorm) s calls = some finish)
    (returned : EachStep (callStep unitNorm)
      (fun before call _ => Returns unitNorm before call) s calls) :
    stored finish = calls.foldl supplied (stored s) := by
  induction calls generalizing s with
  | nil =>
      cases executed
      rfl
  | cons call calls ih =>
      have step : callStep unitNorm s call = some (after unitNorm s call) := rfl
      rw [exec, step, Option.bind_some] at executed
      rcases returned _ step with ⟨returns, rest⟩
      rw [ih executed rest, List.foldl_cons, stored_after returns]

end Stored

/-! ## Validation -/

section Validation

variable {V : Type u} {index : SimilarityIndex V} {classNames : List String}

/-- `SimilarImage` refuses a similarity. -/
def refused : Failure :=
  .value "1 validation error for SimilarImage"

theorem similarImage_ne_refused {rank : ℕ} {hit : ℝ × ℤ} (inBounds : InBounds hit.1) :
    similarImage index classNames rank hit ≠ .error refused := by
  have item {Item : Type} (items : List Item) (position : ℤ) :
      itemOrRaise items position ≠ .error refused := by
    unfold itemOrRaise
    split
    · rintro ⟨⟩
    · rintro ⟨⟩
  intro isRefused
  rcases bind_error_iff.mp isRefused with raised | ⟨classId, _, isRefused⟩
  · exact item _ _ raised
  rcases bind_error_iff.mp isRefused with raised | ⟨label, _, isRefused⟩
  · unfold labelFor at raised
    split at raised
    · exact item _ _ raised
    · cases raised
  rcases bind_error_iff.mp isRefused with raised | ⟨reference, _, isRefused⟩
  · exact item _ _ raised
  rw [InBounds] at inBounds
  rw [dif_pos inBounds] at isRefused
  cases isRefused

/-- The loop does not fail on the validation of a similarity if every score is in bounds. -/
theorem collectResults_ne_refused {minSimilarity : ℝ} {hits : Hits ℝ}
    (inBounds : ∀ hit ∈ selected minSimilarity hits, InBounds hit.1) :
    collectResults index classNames minSimilarity hits [] ≠ .error refused := by
  rw [collectResults_eq]
  intro isRefused
  have raised : ((selected minSimilarity hits).zipIdx 1).mapM (fun ranked =>
      similarImage index classNames ranked.2 ranked.1) = .error refused := by
    revert isRefused
    cases ((selected minSimilarity hits).zipIdx 1).mapM fun ranked : (ℝ × ℤ) × ℕ =>
        similarImage index classNames ranked.2 ranked.1 with
    | error error => exact id
    | ok images => rintro ⟨⟩
  rcases mapM_error_iff.mp raised with ⟨before, ranked, later, isSplit, _, fails⟩
  have isRanked : ranked ∈ (selected minSimilarity hits).zipIdx 1 := by
    rw [isSplit]
    exact List.mem_append_right _ List.mem_cons_self
  exact similarImage_ne_refused (inBounds _ (List.fst_mem_of_mem_zipIdx isRanked)) fails

end Validation

/-! ## Searching -/

section Search

variable {V : Type u} [NormedAddCommGroup V] [InnerProductSpace ℝ V]

open Classical in
/-- `np.allclose(norms, 1.0, atol=1e-3)`, with the relative tolerance that is its default. -/
noncomputable def nearUnit (vector : V) : Bool :=
  |‖vector‖ - 1| ≤ (1 / 10 ^ 3 + 1 / 10 ^ 5 : ℚ)

/-- The hits of an exact search by inner product. -/
structure ExactSearch (index : Index V) (query : V) (topK : ℤ) (hits : Hits ℝ) : Prop where
  rows : ∀ hit ∈ hits, 0 ≤ hit.2 →
    ∃ vector, index.vectors[hit.2.toNat]? = some vector ∧ hit.1 = inner ℝ query vector
  nearest : 1 ≤ topK → ∀ vector ∈ index.vectors,
    ∃ hit ∈ hits, 0 ≤ hit.2 ∧ inner ℝ query vector ≤ hit.1

/-- No search of a unit query puts a similarity out of bounds, and none fails on that. -/
def Serves (index : SimilarityIndex V) (search : Index V → V → ℤ → Hits ℝ) : Prop :=
  ∀ (query : V) (topK : ℤ) (minSimilarity : ℝ) (classNames : List String), ‖query‖ = 1 →
    (∀ hit ∈ selected minSimilarity (search index.index query topK), InBounds hit.1) ∧
      collectResults index classNames minSimilarity (search index.index query topK) [] ≠
        .error refused

theorem serves_iff {index : SimilarityIndex V} {search : Index V → V → ℤ → Hits ℝ}
    (exact : ∀ query topK, ExactSearch index.index query topK (search index.index query topK)) :
    Serves index search ↔ ∀ vector ∈ index.index.vectors, ‖vector‖ ≤ bound := by
  constructor
  · intro serves vector isStored
    by_contra long
    rw [not_le] at long
    have positive : 0 < ‖vector‖ := by
      apply lt_trans _ long
      rw [bound]
      norm_num
    have unit : ‖(‖vector‖⁻¹ • vector)‖ = 1 := by
      rw [norm_smul, norm_inv, norm_norm, inv_mul_cancel₀ positive.ne']
    rcases (exact (‖vector‖⁻¹ • vector) 1).nearest le_rfl vector isStored with
      ⟨hit, isHit, inIndex, nearest⟩
    rw [real_inner_smul_left, real_inner_self_eq_norm_sq, sq,
      inv_mul_cancel_left₀ positive.ne'] at nearest
    have isSelected : hit ∈ selected 0 (search index.index (‖vector‖⁻¹ • vector) 1) :=
      mem_selected.mpr ⟨isHit, inIndex, positive.le.trans nearest⟩
    have inBounds := (serves _ 1 0 [] unit).1 hit isSelected
    exact absurd (nearest.trans (le_bound_of_inBounds inBounds)) long.not_ge
  · intro short query topK minSimilarity classNames unit
    have inBounds : ∀ hit ∈ selected minSimilarity (search index.index query topK),
        InBounds hit.1 := by
      intro hit isSelected
      rcases mem_selected.mp isSelected with ⟨isHit, inIndex, _⟩
      rcases (exact query topK).rows hit isHit inIndex with ⟨vector, isVector, isScore⟩
      apply inBounds_of_abs_le
      rw [isScore]
      calc |inner ℝ query vector| ≤ ‖query‖ * ‖vector‖ := abs_real_inner_le_norm _ _
        _ = ‖vector‖ := by rw [unit, one_mul]
        _ ≤ bound := short vector (List.mem_of_getElem? isVector)
    exact ⟨inBounds, collectResults_ne_refused inBounds⟩

/-- An index that was built and extended by calls that returned serves every query of norm one
exactly if no vector supplied to it is longer than the bound. -/
theorem accepted_index_serves_iff (search : Index V → V → ℤ → Hits ℝ)
    (exact : ∀ index query topK, ExactSearch index query topK (search index query topK))
    (calls : List (Call V)) {finish : Artefacts V}
    (executed : exec (callStep nearUnit) (Artefacts.empty V) calls = some finish)
    (returned : EachStep (callStep nearUnit)
      (fun before call _ => Returns nearUnit before call) (Artefacts.empty V) calls)
    {index : SimilarityIndex V} (loaded : load finish = .ok index) :
    Serves index search ↔ ∀ vector ∈ calls.foldl supplied [], ‖vector‖ ≤ bound := by
  have isStored : stored finish = calls.foldl supplied [] := stored_exec executed returned
  have isIndex : stored finish = index.index.vectors := by
    unfold load at loaded
    split at loaded
    · rename_i onDisk manifest metadata isOnDisk _ _
      split at loaded
      · cases loaded
      · cases loaded
        exact stored_of_index isOnDisk
    · cases loaded
  rw [serves_iff fun query topK => exact index.index query topK, ← isIndex, isStored]

open Classical in
/-- The rows by descending score, padded with `-1`. -/
noncomputable def flatSearch (index : Index V) (query : V) (topK : ℤ) : Hits ℝ :=
  let scored : Hits ℝ := index.vectors.mapIdx fun row vector => (inner ℝ query vector, (row : ℤ))
  let best := (scored.mergeSort fun left right => right.1 ≤ left.1).take topK.toNat
  best ++ List.replicate (topK.toNat - best.length) (((-2 ^ 127 : ℤ) : ℝ), -1)

/-- Searching all vectors is exact. -/
theorem flatSearch_exact (index : Index V) (query : V) (topK : ℤ) :
    ExactSearch index query topK (flatSearch index query topK) := by
  constructor
  · intro hit isHit inIndex
    rcases List.mem_append.mp isHit with isBest | isPadding
    · have isScored := List.mem_mergeSort.mp (List.mem_of_mem_take isBest)
      rcases List.mem_mapIdx.mp isScored with ⟨row, inside, rfl⟩
      exact ⟨_, List.getElem?_eq_getElem inside, rfl⟩
    · rw [List.eq_of_mem_replicate isPadding] at inIndex
      omega
  · intro positive vector isVector
    rcases List.mem_iff_getElem.mp isVector with ⟨row, inside, rfl⟩
    let scored : Hits ℝ := index.vectors.mapIdx fun row vector => (inner ℝ query vector, (row : ℤ))
    let sorted := scored.mergeSort fun left right => right.1 ≤ left.1
    have isScored : (inner ℝ query index.vectors[row], (row : ℤ)) ∈ scored :=
      List.mem_mapIdx.mpr ⟨row, inside, rfl⟩
    have isSorted : (inner ℝ query index.vectors[row], (row : ℤ)) ∈ sorted :=
      List.mem_mergeSort.mpr isScored
    have ordered : sorted.Pairwise fun left right => right.1 ≤ left.1 := by
      apply (List.pairwise_mergeSort _ _ scored).imp of_decide_eq_true
      · intro first second third
        simp only [decide_eq_true_eq]
        exact fun small smaller => smaller.trans small
      · intro left right
        simp only [Bool.or_eq_true, decide_eq_true_eq]
        exact le_total _ _
    cases isList : sorted with
    | nil =>
        rw [isList] at isSorted
        cases isSorted
    | cons first rest =>
        have isFirst : first ∈ sorted.take topK.toNat := by
          rw [isList, show topK.toNat = (topK.toNat - 1) + 1 by omega, List.take_succ_cons]
          exact List.mem_cons_self
        refine ⟨first, List.mem_append_left _ isFirst, ?_, ?_⟩
        · rcases List.mem_mapIdx.mp (List.mem_mergeSort.mp (List.mem_of_mem_take isFirst)) with
            ⟨position, _, rfl⟩
          exact Int.natCast_nonneg position
        · rw [isList] at isSorted ordered
          rcases List.mem_cons.mp isSorted with rfl | isLater
          · exact le_rfl
          · exact (List.pairwise_cons.mp ordered).1 _ isLater

end Search

/-! ## Numbers as vectors -/

section Numbers

/-- An index with one number. -/
def oneVector (vector : ℝ) : List (Call ℝ) :=
  [.build ⟨1, [vector]⟩ [0] ["a.jpg"] "embedder" 224]

/-- The artefacts with one vector, as they are loaded. -/
def loadedVector (vector : ℝ) : SimilarityIndex ℝ where
  index := ⟨1, [vector]⟩
  labels := [0]
  paths := ["a.jpg"]
  metadata := ⟨1, 1, "cosine", "embedder", 224, "IndexFlatIP"⟩

/-- A number near one is accepted, and the index is loaded. -/
theorem accepts_oneVector {vector : ℝ} (near : nearUnit vector = true) :
    ∃ finish, exec (callStep nearUnit) (Artefacts.empty ℝ) (oneVector vector) = some finish ∧
      EachStep (callStep nearUnit) (fun before call _ => Returns nearUnit before call)
        (Artefacts.empty ℝ) (oneVector vector) ∧
      load finish = .ok (loadedVector vector) := by
  have unit : [vector].all nearUnit = true := by
    rw [List.all_cons, near]
    rfl
  refine ⟨_, rfl, ?_, ?_⟩
  · rintro next ⟨⟩
    exact ⟨returns_build_iff.mpr unit, trivial⟩
  · simp only [Event.writes, Call.outcome, buildIndex, if_pos unit]
    rfl

/-- An index of two opposite numbers. -/
def buildTwo : Call ℝ :=
  .build ⟨1, [1, -1]⟩ [0, 1] ["a.jpg", "b.jpg"] "embedder" 224

/-- A third number is appended to them. -/
def appendThird (vector : ℝ) : Call ℝ :=
  .append ⟨1, [vector]⟩ [0] ["c.jpg"]

/-- The directory after the build. -/
def builtTwo : Artefacts ℝ where
  index := some ⟨1, [1, -1]⟩
  manifest := some ⟨[0, 1], ["a.jpg", "b.jpg"]⟩
  metadata := some ⟨2, 1, "cosine", "embedder", 224, "IndexFlatIP"⟩
  rows := newRows [1, -1] [0, 1] ["a.jpg", "b.jpg"]

/-- The artefacts after the build and the append, as they are loaded. -/
def loadedThree (vector : ℝ) : SimilarityIndex ℝ where
  index := ⟨1, [1, -1, vector]⟩
  labels := [0, 1, 0]
  paths := ["a.jpg", "b.jpg", "c.jpg"]
  metadata := ⟨3, 1, "cosine", "embedder", 224, "IndexFlatIP"⟩

/-- A norm close to one passes the check. -/
theorem nearUnit_of_close {vector : ℝ} (close : |‖vector‖ - 1| ≤ 1 / 10 ^ 3) :
    nearUnit vector = true := by
  rw [nearUnit, decide_eq_true_eq]
  apply close.trans
  norm_num

theorem callStep_buildTwo : callStep nearUnit (Artefacts.empty ℝ) buildTwo = some builtTwo ∧
    Returns nearUnit (Artefacts.empty ℝ) buildTwo := by
  have unit : ([1, -1] : List ℝ).all nearUnit = true := by
    rw [List.all_eq_true, List.forall_mem_cons, List.forall_mem_singleton]
    exact ⟨nearUnit_of_close (by norm_num), nearUnit_of_close (by norm_num)⟩
  refine ⟨?_, returns_build_iff.mpr unit⟩
  simp only [callStep, step, Event.writes, buildTwo, Call.outcome, buildIndex, if_pos unit]
  rfl

theorem callStep_appendThird {vector : ℝ} (near : nearUnit vector = true) :
    ∃ finish, callStep nearUnit builtTwo (appendThird vector) = some finish ∧
      Returns nearUnit builtTwo (appendThird vector) ∧
      load finish = .ok (loadedThree vector) := by
  have unit : ([vector].all nearUnit) = true := by
    rw [List.all_cons, near]
    rfl
  simp only [Returns, callStep, step, Event.writes, appendThird, Call.outcome, appendToIndex,
    builtTwo, unit]
  exact ⟨_, rfl, rfl, rfl⟩

/-- Two vectors and a shorter one that is appended to them are served. -/
theorem accepted_index_serves_three : Serves (loadedThree (999 / 1000)) flatSearch := by
  have near : nearUnit (999 / 1000 : ℝ) = true := nearUnit_of_close (by norm_num [abs_le])
  rcases callStep_buildTwo with ⟨built, returnsBuild⟩
  rcases callStep_appendThird near with ⟨finish, appended, returnsAppend, loaded⟩
  have executed : exec (callStep nearUnit) (Artefacts.empty ℝ)
      [buildTwo, appendThird (999 / 1000)] = some finish := by
    simp only [exec, built, appended, Option.bind_some]
  have returned : EachStep (callStep nearUnit)
      (fun before call _ => Returns nearUnit before call) (Artefacts.empty ℝ)
      [buildTwo, appendThird (999 / 1000)] := by
    intro next isNext
    cases built.symm.trans isNext
    exact ⟨returnsBuild, fun _ _ => ⟨returnsAppend, trivial⟩⟩
  apply (accepted_index_serves_iff flatSearch flatSearch_exact _ executed returned loaded).mpr
  have areSupplied : [buildTwo, appendThird (999 / 1000)].foldl supplied [] =
      [1, -1, (999 / 1000 : ℝ)] := rfl
  rw [areSupplied, List.forall_mem_cons, List.forall_mem_cons, List.forall_mem_singleton, bound]
  norm_num

/-- The vector 1.001 is accepted, and the query that finds it is refused. -/
theorem long_vector_refused :
    ∃ finish, exec (callStep nearUnit) (Artefacts.empty ℝ) (oneVector (1001 / 1000)) =
        some finish ∧
      EachStep (callStep nearUnit) (fun before call _ => Returns nearUnit before call)
        (Artefacts.empty ℝ) (oneVector (1001 / 1000)) ∧
      load finish = .ok (loadedVector (1001 / 1000)) ∧
      (∀ index query topK, ExactSearch index query topK (flatSearch index (query : ℝ) topK)) ∧
      ¬Serves (loadedVector (1001 / 1000)) flatSearch := by
  have near : nearUnit (1001 / 1000 : ℝ) = true := by
    rw [nearUnit, decide_eq_true_eq]
    norm_num
  rcases accepts_oneVector near with ⟨finish, executed, returned, loaded⟩
  refine ⟨finish, executed, returned, loaded, flatSearch_exact, ?_⟩
  rw [serves_iff fun query topK => flatSearch_exact _ query topK]
  intro short
  have long := short (1001 / 1000) List.mem_cons_self
  rw [bound] at long
  norm_num at long

end Numbers

end VisionApi.Similarity
