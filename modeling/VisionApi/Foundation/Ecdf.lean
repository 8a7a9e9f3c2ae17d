import Mathlib.Algebra.Order.AbsoluteValue.Basic
import Mathlib.Algebra.Order.Field.Basic
import Mathlib.Data.Finset.Max
import Mathlib.Data.Nat.Cast.Order.Field

/-!
# Empirical distribution functions

The share of a sample up to a point, and the greatest distance between the shares of
two samples.  The distance is read at the points of the samples and bounds the
distance everywhere.

The statistic of Kolmogorov and Smirnov is a supremum over all points of the line.  A
program reads it at the points of the two samples only, and `ksDistance_le_iff` and
`le_ksDistance_iff` say that nothing is missed: between two neighbouring points of
the samples neither share changes.  To see this, any point is moved down to the
greatest point of the samples below it (`exists_greatest`), or has no point below it,
where both shares are zero.

The values come from a linear order and the shares from an ordered field, so that the
results hold for numbers of any kind.  What depends on the shares only does not
depend on the order of a sample or on how often all of it is repeated.
-/

namespace VisionApi.Foundation

universe u v

variable {α : Type u} [LinearOrder α] (K : Type v) [Field K] [LinearOrder K]

/-- The share of the values that are at most a point. -/
def ecdf (values : List α) (point : α) : K :=
  ((values.countP fun value => value ≤ point : ℕ) : K) / (values.length : K)

/-- The distance of the two distribution functions at a point. -/
def ecdfGap (baseline current : List α) (point : α) : K :=
  |ecdf K baseline point - ecdf K current point|

/-- The greatest gap at a point of either sample, zero without points. -/
def ksDistance (baseline current : List α) : K :=
  (baseline ++ current).foldr
    (fun point largest => max (ecdfGap K baseline current point) largest) 0

variable {K} {values others baseline current : List α}

/-! ## Distribution functions -/

section Ecdf

omit [LinearOrder K] in
/-- Between two points that split a sample alike, the share does not change. -/
theorem ecdf_congr {left right : α} (alike : ∀ value ∈ values, value ≤ left ↔ value ≤ right) :
    ecdf K values left = ecdf K values right := by
  have counted : values.countP (fun value => value ≤ left) =
      values.countP fun value => value ≤ right := by
    apply List.countP_congr
    simpa using alike
  rw [ecdf, ecdf, counted]

omit [LinearOrder K] in
theorem ecdf_eq_zero {point : α} (above : ∀ value ∈ values, ¬value ≤ point) :
    ecdf K values point = 0 := by
  have none : values.countP (fun value => value ≤ point) = 0 := by
    apply List.countP_eq_zero.mpr
    simpa using above
  rw [ecdf, none, Nat.cast_zero, zero_div]

omit [LinearOrder K] in
/-- Equal values have all of their share at once. -/
theorem ecdf_replicate [CharZero K] {count : ℕ} (positive : 0 < count) (value point : α) :
    ecdf K (List.replicate count value) point = if value ≤ point then 1 else 0 := by
  have nonzero : (count : K) ≠ 0 := Nat.cast_ne_zero.mpr positive.ne'
  by_cases below : value ≤ point
  · simp [ecdf, List.countP_replicate, below, nonzero]
  · simp [ecdf, List.countP_replicate, below]

omit [LinearOrder K] in
/-- The order of a sample does not matter. -/
theorem ecdf_perm (permutes : others.Perm values) : ecdf K others = ecdf K values := by
  funext point
  rw [ecdf, ecdf, permutes.countP_eq, permutes.length_eq]

omit [LinearOrder K] in
/-- Repeating a whole sample changes no share. -/
theorem ecdf_flatten_replicate [CharZero K] {times : ℕ} (some_times : 1 ≤ times)
    (values : List α) : ecdf K (List.replicate times values).flatten = ecdf K values := by
  funext point
  have nonzero : (times : K) ≠ 0 := Nat.cast_ne_zero.mpr (by omega)
  simp only [ecdf, List.countP_flatten, List.map_replicate, List.sum_replicate_nat,
    List.length_flatten, Nat.cast_mul]
  exact mul_div_mul_left _ _ nonzero

/-- The share reaches its top exactly if there is a value. -/
theorem eq_nil_iff_ecdf [IsStrictOrderedRing K] {values : List α} :
    values = [] ↔ ecdf K values = 0 := by
  constructor
  · rintro rfl
    funext point
    simp [ecdf]
  · intro isZero
    by_contra nonempty
    obtain ⟨value, isValue⟩ := List.exists_mem_of_ne_nil values nonempty
    have counted : 0 < values.countP fun other => other ≤ value :=
      List.countP_pos_iff.mpr ⟨value, isValue, by simp⟩
    have isLength : 0 < values.length := List.length_pos_of_mem isValue
    have positive : 0 < ecdf K values value := by
      rw [ecdf]
      exact div_pos (Nat.cast_pos.mpr counted) (Nat.cast_pos.mpr isLength)
    exact positive.ne' (congrFun isZero value)

end Ecdf

/-! ## Distances -/

section Distance

theorem ecdfGap_comm (baseline current : List α) (point : α) :
    ecdfGap K baseline current point = ecdfGap K current baseline point := by
  rw [ecdfGap, ecdfGap, abs_sub_comm]

/-- A point has no value below it, or a greatest one. -/
theorem exists_greatest (values : List α) (point : α) : (∀ value ∈ values, ¬value ≤ point) ∨
    ∃ greatest ∈ values, ∀ value ∈ values, value ≤ point ↔ value ≤ greatest := by
  by_cases none : ∀ value ∈ values, ¬value ≤ point
  · exact Or.inl none
  · right
    have nonempty : (values.filter fun value => value ≤ point).toFinset.Nonempty := by
      simpa [Finset.Nonempty] using none
    rcases Finset.exists_max_image _ id nonempty with ⟨greatest, isGreatest, bounds⟩
    simp only [List.mem_toFinset, List.mem_filter, decide_eq_true_eq, id_eq] at isGreatest bounds
    refine ⟨greatest, isGreatest.1, ?_⟩
    intro value isValue
    exact ⟨fun below => bounds value ⟨isValue, below⟩, fun below => below.trans isGreatest.2⟩

omit [LinearOrder α] in
/-- A running maximum from zero is bounded by what bounds zero and every height. -/
theorem foldr_max_le_iff {points : List α} {height : α → K} {bound : K} :
    points.foldr (fun point largest => max (height point) largest) 0 ≤ bound ↔
      0 ≤ bound ∧ ∀ point ∈ points, height point ≤ bound := by
  induction points with
  | nil => simp
  | cons point points ih =>
      rw [List.foldr_cons, max_le_iff, ih, List.forall_mem_cons]
      tauto

omit [LinearOrder α] in
/-- A running maximum reaches a positive bound at one of its points. -/
theorem le_foldr_max_iff {points : List α} {height : α → K} {bound : K} (positive : 0 < bound) :
    bound ≤ points.foldr (fun point largest => max (height point) largest) 0 ↔
      ∃ point ∈ points, bound ≤ height point := by
  induction points with
  | nil => simpa using positive
  | cons point points ih =>
      rw [List.foldr_cons, le_max_iff, ih]
      simp

variable [IsStrictOrderedRing K]

/-- Away from the values of the samples there are no other gaps. -/
theorem ecdfGap_eq_zero_or_value (baseline current : List α) (point : α) :
    ecdfGap K baseline current point = 0 ∨ ∃ value ∈ baseline ++ current,
      ecdfGap K baseline current point = ecdfGap K baseline current value := by
  rcases exists_greatest (baseline ++ current) point with none | ⟨greatest, isValue, splits⟩
  · left
    have noBaseline : ecdf K baseline point = 0 :=
      ecdf_eq_zero fun value isValue => none value (List.mem_append_left _ isValue)
    have noCurrent : ecdf K current point = 0 :=
      ecdf_eq_zero fun value isValue => none value (List.mem_append_right _ isValue)
    simp [ecdfGap, noBaseline, noCurrent]
  · right
    have sameBaseline : ecdf K baseline point = ecdf K baseline greatest :=
      ecdf_congr fun value isValue => splits value (List.mem_append_left _ isValue)
    have sameCurrent : ecdf K current point = ecdf K current greatest :=
      ecdf_congr fun value isValue => splits value (List.mem_append_right _ isValue)
    exact ⟨greatest, isValue, by rw [ecdfGap, sameBaseline, sameCurrent, ecdfGap]⟩

/-- The distance bounds the gap everywhere, and is the least such bound that is not negative. -/
theorem ksDistance_le_iff {bound : K} : ksDistance K baseline current ≤ bound ↔
    0 ≤ bound ∧ ∀ point, ecdfGap K baseline current point ≤ bound := by
  rw [ksDistance, foldr_max_le_iff]
  constructor
  · intro bounded
    refine ⟨bounded.1, ?_⟩
    intro point
    rcases ecdfGap_eq_zero_or_value (K := K) baseline current point with
      isZero | ⟨value, isValue, same⟩
    · exact isZero.trans_le bounded.1
    · exact same.trans_le (bounded.2 value isValue)
  · intro bounded
    exact ⟨bounded.1, fun point _ => bounded.2 point⟩

/-- Every positive lower bound of the distance is reached somewhere. -/
theorem le_ksDistance_iff {bound : K} (positive : 0 < bound) :
    bound ≤ ksDistance K baseline current ↔
      ∃ point, bound ≤ ecdfGap K baseline current point := by
  rw [ksDistance, le_foldr_max_iff positive]
  constructor
  · intro atValue
    rcases atValue with ⟨value, _, reached⟩
    exact ⟨value, reached⟩
  · intro somewhere
    rcases somewhere with ⟨point, reached⟩
    rcases ecdfGap_eq_zero_or_value (K := K) baseline current point with
      isZero | ⟨value, isValue, same⟩
    · exact absurd reached (isZero.trans_lt positive).not_ge
    · exact ⟨value, isValue, reached.trans_eq same⟩

/-- The distance depends on the samples only by their distribution functions. -/
theorem ksDistance_congr {other another : List α} (same : ecdf K other = ecdf K baseline)
    (alsoSame : ecdf K another = ecdf K current) :
    ksDistance K other another = ksDistance K baseline current := by
  apply eq_of_forall_ge_iff
  intro bound
  simp only [ksDistance_le_iff, ecdfGap, same, alsoSame]

/-- The distance is symmetric. -/
theorem ksDistance_comm (baseline current : List α) :
    ksDistance K baseline current = ksDistance K current baseline := by
  apply eq_of_forall_ge_iff
  intro bound
  simp only [ksDistance_le_iff, ecdfGap_comm baseline current]

theorem ksDistance_nonneg (baseline current : List α) : 0 ≤ ksDistance K baseline current :=
  (ksDistance_le_iff.mp le_rfl).1

/-- Samples with the same shares have no distance. -/
theorem ksDistance_eq_zero (same : ecdf K baseline = ecdf K current) :
    ksDistance K baseline current = 0 := by
  apply le_antisymm _ (ksDistance_nonneg baseline current)
  apply ksDistance_le_iff.mpr
  simp [ecdfGap, same]

end Distance

end VisionApi.Foundation
