import VisionApi.Foundation.Dict
import VisionApi.Foundation.Divergence
import VisionApi.Foundation.Fallible

/-!
# The population stability index

`population_stability_index` compares the shares of the categories in two
sequences.  The order in which the set of categories is walked is an argument here,
and so are `math.log` and `str`.

The loop adds one contribution for each category.  With real numbers a share is the
proportion of the category but no less than `epsilon`, so that the logarithm exists and
no division is by zero (`addCategory_eq`); the sum is then the divergence of the shares
from the library of this development, whatever the order (`populationStabilityIndex_eq`).

That it is a divergence means that it is not negative and that it is zero exactly if all
shares agree.  It is symmetric, and repeating or reordering a sequence does not change
it.  Contributions are kept under the text of their category.
-/

namespace VisionApi.Validation

open Foundation

variable {Category : Type} [DecidableEq Category]

/-! ## The index -/

section Index

variable {K : Type} [Field K] [LinearOrder K]

/-- What the arithmetic raises. -/
inductive DriftError where
  | zeroDivision
  /-- The `ValueError` of `math.log`. -/
  | mathDomain

/-- `collections.Counter`. -/
def counter (values : List Category) : Dict Category ℕ :=
  values.foldl (fun counts value => counts.set value ((counts.get? value).getD 0 + 1)) []

/-- The categories of both counters, in some order. -/
structure Iterates (categories baseline current : List Category) : Prop where
  nodup : categories.Nodup
  mem : ∀ category, category ∈ categories ↔
    category ∈ (counter baseline).map Prod.fst ∨ category ∈ (counter current).map Prod.fst

/-- The share of a category, `epsilon` at least. -/
def share (epsilon : K) (values : List Category) (category : Category) : K :=
  max (((((counter values).get? category).getD 0 : ℕ) : K) / ((max values.length 1 : ℕ) : K))
    epsilon

/-- A division, which raises on zero. -/
def quotient (dividend divisor : K) : Except DriftError K :=
  if divisor = 0 then .error .zeroDivision else .ok (dividend / divisor)

/-- A logarithm, which raises unless its argument is positive. -/
def mathLog (log : K → K) (value : K) : Except DriftError K :=
  if value ≤ 0 then .error .mathDomain else .ok (log value)

/-- Add the contribution of a category. -/
def addCategory (log : K → K) (str : Category → String) (epsilon : K)
    (baseline current : List Category) (found : K × Dict String K) (category : Category) :
    Except DriftError (K × Dict String K) := do
  let baselineShare := share epsilon baseline category
  let currentShare := share epsilon current category
  let ratio ← quotient currentShare baselineShare
  let logarithm ← mathLog log ratio
  let contribution := (currentShare - baselineShare) * logarithm
  return (found.1 + contribution, found.2.set (str category) contribution)

/-- The index and its contributions. -/
def populationStabilityIndex (log : K → K) (str : Category → String) (epsilon : K)
    (categories baseline current : List Category) : Except DriftError (K × Dict String K) :=
  categories.foldlM (addCategory log str epsilon baseline current) (0, [])

end Index

/-! ## Counting -/

theorem get?_counter (values : List Category) (category : Category) :
    ((counter values).get? category).getD 0 = values.count category := by
  have counted : ∀ (counts : Dict Category ℕ), ((values.foldl (fun counts value =>
      counts.set value ((counts.get? value).getD 0 + 1)) counts).get? category).getD 0 =
        (counts.get? category).getD 0 + values.count category := by
    induction values with
    | nil => simp
    | cons value values ih =>
        intro counts
        rw [List.foldl_cons, ih]
        by_cases same : value = category
        · subst same
          rw [Dict.get?_set_self, List.count_cons_self, Option.getD_some]
          omega
        · rw [Dict.get?_set_ne _ (Ne.symm same), List.count_cons_of_ne same]
  rw [counter, counted, Dict.get?, Option.getD_none, Nat.zero_add]

/-- The categories that are counted are those that occur. -/
theorem mem_keys_counter {values : List Category} {category : Category} :
    category ∈ (counter values).map Prod.fst ↔ category ∈ values := by
  have keys : ∀ (counts : Dict Category ℕ), category ∈ (values.foldl (fun counts value =>
      Dict.set counts value ((counts.get? value).getD 0 + 1)) counts).map Prod.fst ↔
        category ∈ counts.map Prod.fst ∨ category ∈ values := by
    induction values with
    | nil => simp
    | cons value values ih =>
        intro counts
        rw [List.foldl_cons, ih, Dict.mem_keys_set, List.mem_cons]
        tauto
  rw [counter, keys, List.map_nil]
  simp

/-- The categories are those of either sequence. -/
theorem Iterates.mem_iff {categories baseline current : List Category}
    (iterates : Iterates categories baseline current) {category : Category} :
    category ∈ categories ↔ category ∈ baseline ∨ category ∈ current := by
  rw [iterates.mem, mem_keys_counter, mem_keys_counter]

/-- The set of categories does not depend on the order in which it is walked. -/
theorem Iterates.toFinset_eq {categories baseline current : List Category}
    (iterates : Iterates categories baseline current) :
    categories.toFinset = (baseline ++ current).toFinset := by
  ext category
  rw [List.mem_toFinset, List.mem_toFinset, iterates.mem_iff, List.mem_append]

theorem Iterates.symm {categories baseline current : List Category}
    (iterates : Iterates categories baseline current) : Iterates categories current baseline :=
  ⟨iterates.nodup, fun category => (iterates.mem category).trans or_comm⟩

/-! ## Shares -/

section Shares

variable {epsilon : ℝ} {values others : List Category}

/-- A share is the proportion, but no less than `epsilon`. -/
theorem share_eq (epsilon : ℝ) (values : List Category) (category : Category) :
    share epsilon values category =
      max ((values.count category : ℝ) / (max values.length 1 : ℕ)) epsilon := by
  rw [share, get?_counter]

/-- Every share is positive. -/
theorem share_pos (positive : 0 < epsilon) (values : List Category) (category : Category) :
    0 < share epsilon values category :=
  positive.trans_le (le_max_right _ _)

theorem share_perm (permutes : others.Perm values) (epsilon : ℝ) (category : Category) :
    share epsilon others category = share epsilon values category := by
  rw [share_eq, share_eq, permutes.count_eq, permutes.length_eq]

/-- A sequence some number of times in a row. -/
def repeated (times : ℕ) (values : List Category) : List Category :=
  (List.replicate times values).flatten

omit [DecidableEq Category] in
theorem mem_repeated {times : ℕ} (some_times : 1 ≤ times) {category : Category} :
    category ∈ repeated times values ↔ category ∈ values := by
  rw [repeated, List.mem_flatten]
  constructor
  · rintro ⟨part, isPart, isMember⟩
    rwa [List.eq_of_mem_replicate isPart] at isMember
  · intro isMember
    exact ⟨values, List.mem_replicate.mpr ⟨by omega, rfl⟩, isMember⟩

theorem share_repeated {times : ℕ} (some_times : 1 ≤ times) (epsilon : ℝ)
    (values : List Category) (category : Category) :
    share epsilon (repeated times values) category = share epsilon values category := by
  by_cases empty : values = []
  · simp [repeated, empty]
  · have counted : (repeated times values).count category = times * values.count category := by
      simp [repeated, List.count_flatten]
    have length : (repeated times values).length = times * values.length := by
      simp [repeated]
    have positive : 1 ≤ values.length := List.length_pos_iff.mpr empty
    have nonzero : (times : ℝ) ≠ 0 := Nat.cast_ne_zero.mpr (by omega)
    rw [share_eq, share_eq, counted, length, Nat.max_eq_left positive,
      Nat.max_eq_left (Nat.mul_pos some_times positive), Nat.cast_mul, Nat.cast_mul,
      mul_div_mul_left _ _ nonzero]

end Shares

/-! ## The index as a divergence -/

section Loop

variable {epsilon : ℝ} {str : Category → String}

/-- What a category adds to the index. -/
noncomputable def contribution (epsilon : ℝ) (baseline current : List Category)
    (category : Category) : ℝ :=
  logGap (share epsilon baseline category) (share epsilon current category)

theorem addCategory_eq (positive : 0 < epsilon) (baseline current : List Category)
    (found : ℝ × Dict String ℝ) (category : Category) :
    addCategory Real.log str epsilon baseline current found category =
      .ok (found.1 + contribution epsilon baseline current category,
        found.2.set (str category) (contribution epsilon baseline current category)) := by
  have first := share_pos positive baseline category
  have second := share_pos positive current category
  have ratio := div_pos second first
  simp only [addCategory, quotient, if_neg first.ne', mathLog]
  rw [bind_ok_iff]
  refine ⟨_, rfl, ?_⟩
  rw [if_neg ratio.not_ge]
  rfl

theorem foldlM_addCategory (positive : 0 < epsilon) (baseline current categories : List Category)
    (found : ℝ × Dict String ℝ) :
    categories.foldlM (addCategory Real.log str epsilon baseline current) found =
      .ok (found.1 + (categories.map (contribution epsilon baseline current)).sum,
        categories.foldl (fun contributions category => contributions.set (str category)
          (contribution epsilon baseline current category)) found.2) := by
  induction categories generalizing found with
  | nil =>
      rw [List.foldlM_nil, List.map_nil, List.sum_nil, add_zero]
      rfl
  | cons category categories ih =>
      rw [List.foldlM_cons, addCategory_eq positive]
      refine (ih _).trans ?_
      rw [List.map_cons, List.sum_cons, List.foldl_cons, add_assoc]

/-- Each category has a contribution of its own, and the index is their sum. -/
theorem populationStabilityIndex_eq (positive : 0 < epsilon)
    {categories baseline current : List Category} (iterates : Iterates categories baseline current)
    (distinct : Set.InjOn str {category | category ∈ baseline ∨ category ∈ current}) :
    populationStabilityIndex Real.log str epsilon categories baseline current =
      .ok (divergence (baseline ++ current).toFinset (share epsilon baseline)
          (share epsilon current),
        categories.map fun category =>
          (str category, contribution epsilon baseline current category)) := by
  have sums : (categories.map (contribution epsilon baseline current)).sum =
      divergence (baseline ++ current).toFinset (share epsilon baseline)
        (share epsilon current) := by
    rw [← iterates.toFinset_eq, divergence, List.sum_toFinset _ iterates.nodup]
    rfl
  have keys : ((categories.map fun category =>
      (str category, contribution epsilon baseline current category)).map Prod.fst).Nodup := by
    rw [List.map_map]
    apply List.Nodup.map_on _ iterates.nodup
    intro first isFirst second isSecond same
    exact distinct (iterates.mem_iff.mp isFirst) (iterates.mem_iff.mp isSecond) same
  have entries := Dict.ofList_eq keys
  rw [Dict.ofList, List.foldl_map] at entries
  rw [populationStabilityIndex, foldlM_addCategory positive, entries, sums, zero_add]

end Loop

/-! ## The laws of the index -/

/-- The index of every call on these sequences is `psi`, whatever the order of the categories. -/
def HasIndex (str : Category → String) (epsilon : ℝ) (baseline current : List Category)
    (psi : ℝ) : Prop :=
  ∀ categories, Iterates categories baseline current → ∃ contributions,
    populationStabilityIndex Real.log str epsilon categories baseline current =
      .ok (psi, contributions)

/-- The index is a divergence between the sequences. -/
structure IsDivergence (str : Category → String) (epsilon : ℝ) (baseline current : List Category)
    (psi : ℝ) (contributions : Dict String ℝ) : Prop where
  nonneg : 0 ≤ psi
  zero : psi = 0 ↔ ∀ category, category ∈ baseline ∨ category ∈ current →
    share epsilon baseline category = share epsilon current category
  symmetric : HasIndex str epsilon current baseline psi
  permuted : ∀ others anothers, List.Perm others baseline → List.Perm anothers current →
    HasIndex str epsilon others anothers psi
  repeated : ∀ times again, 1 ≤ times → 1 ≤ again →
    HasIndex str epsilon (repeated times baseline) (repeated again current) psi
  sums : psi = (contributions.map Prod.snd).sum
  contributionsNonneg : ∀ entry ∈ contributions, 0 ≤ entry.2

/-- Sequences with the same members and shares have the same index. -/
theorem hasIndex_of_same {epsilon : ℝ} {str : Category → String}
    {baseline current others anothers : List Category} (positive : 0 < epsilon)
    (distinct : Set.InjOn str {category | category ∈ baseline ∨ category ∈ current})
    (members : ∀ category, category ∈ others ↔ category ∈ baseline)
    (moreMembers : ∀ category, category ∈ anothers ↔ category ∈ current)
    (shares : ∀ category, share epsilon others category = share epsilon baseline category)
    (moreShares : ∀ category, share epsilon anothers category = share epsilon current category) :
    HasIndex str epsilon others anothers (divergence (baseline ++ current).toFinset
      (share epsilon baseline) (share epsilon current)) := by
  intro categories iterates
  have alsoDistinct : Set.InjOn str {category | category ∈ others ∨ category ∈ anothers} := by
    simpa only [members, moreMembers] using distinct
  have support : (others ++ anothers).toFinset = (baseline ++ current).toFinset := by
    ext category
    simp only [List.mem_toFinset, List.mem_append, members, moreMembers]
  have sameShares : share epsilon others = share epsilon baseline := funext shares
  have moreSameShares : share epsilon anothers = share epsilon current := funext moreShares
  rw [populationStabilityIndex_eq positive iterates alsoDistinct, support, sameShares,
    moreSameShares]
  exact ⟨_, rfl⟩

end VisionApi.Validation
