import Mathlib.Algebra.BigOperators.Group.List.Basic
import Mathlib.Algebra.Order.BigOperators.Group.List
import Mathlib.Algebra.Order.Field.Basic
import Mathlib.Tactic.FieldSimp
import Mathlib.Tactic.Linarith
import Mathlib.Tactic.Positivity
import Mathlib.Tactic.Ring

/-!
# Means of groups

Items are sorted into groups by tests.  When every item passes exactly one test,
the groups together are the items, and the means of the groups weighted by their
sizes are the mean of all items.

`Sorts` is the assumption that the tests divide the items, and `sum_map_sum_filter`
the exchange of two sums behind every result: adding up over the groups is adding up,
for each item, over the tests that it passes.  Groups without items have no mean and
are left out, which changes no sum since their weight is zero.

The values are in an ordered field, and a mean of nothing is zero by the convention
of the field; every statement that depends on it says that its list is not empty.
-/

namespace VisionApi.Foundation

universe u

/-! ## Counting the tests that an item passes -/

section Tests

variable {Item : Type u}

theorem countP_or_of_disjoint {first second : Item → Bool} {items : List Item}
    (disjoint : ∀ item ∈ items, first item = true → second item = false) :
    (items.countP fun item => first item || second item) =
      items.countP first + items.countP second := by
  induction items with
  | nil => rfl
  | cons item items ih =>
      rw [List.forall_mem_cons] at disjoint
      have here := disjoint.1
      simp only [List.countP_cons, ih disjoint.2]
      cases isFirst : first item with
      | false =>
          simp only [Bool.false_or, Bool.false_eq_true, if_false]
          omega
      | true =>
          simp only [here isFirst, Bool.or_false, if_true, Bool.false_eq_true, if_false]
          omega

/-- One index of a range passes a test that only this index meets. -/
theorem countP_range_eq_one {size : ℕ} {test : ℕ → Bool} (index : ℕ) (inside : index < size)
    (only : ∀ other < size, test other = true ↔ other = index) :
    (List.range size).countP test = 1 := by
  have asCount : (List.range size).countP test = (List.range size).count index := by
    apply List.countP_congr
    intro other isOther
    rw [only other (List.mem_range.mp isOther), beq_iff_eq]
  rw [asCount]
  exact List.count_eq_one_of_mem List.nodup_range (List.mem_range.mpr inside)

/-- Summed over the groups of all tests, an item counts once for each test that it passes. -/
theorem sum_map_sum_filter {M : Type*} [AddCommMonoid M] (tests : List (Item → Bool))
    (weight : Item → M) (items : List Item) :
    (tests.map fun test => ((items.filter test).map weight).sum).sum =
      (items.map fun item => (tests.countP fun test => test item) • weight item).sum := by
  induction items with
  | nil => simp
  | cons item items ih =>
      have here : ∀ test : Item → Bool, (((item :: items).filter test).map weight).sum =
          (if test item then weight item else 0) + ((items.filter test).map weight).sum := by
        intro test
        by_cases passes : test item = true <;> simp [passes]
      have counted : (tests.map fun test => if test item then weight item else 0).sum =
          (tests.countP fun test => test item) • weight item := by
        clear ih here
        induction tests with
        | nil => simp
        | cons test tests ihTests =>
            rw [List.map_cons, List.sum_cons, ihTests, List.countP_cons]
            by_cases passes : test item = true
            · rw [if_pos passes, if_pos passes, add_nsmul, one_nsmul, add_comm]
            · simp [passes]
      simp only [here, List.sum_map_add, counted, ih, List.map_cons, List.sum_cons]

/-- Every item passes exactly one of the tests. -/
def Sorts (tests : List (Item → Bool)) (items : List Item) : Prop :=
  ∀ item ∈ items, (tests.countP fun test => test item) = 1

/-- Adding up group by group adds up everything once. -/
theorem Sorts.sum_eq {M : Type*} [AddCommMonoid M] {tests : List (Item → Bool)}
    {items : List Item} (sorts : Sorts tests items) (weight : Item → M) :
    (tests.map fun test => ((items.filter test).map weight).sum).sum =
      (items.map weight).sum := by
  rw [sum_map_sum_filter]
  congr 1
  apply List.map_congr_left
  intro item isItem
  rw [sorts item isItem, one_nsmul]

/-- The sizes of the groups add up to the number of items. -/
theorem Sorts.sum_length {tests : List (Item → Bool)} {items : List Item}
    (sorts : Sorts tests items) :
    (tests.map fun test => (items.filter test).length).sum = items.length := by
  have counted := sorts.sum_eq fun _ => 1
  simpa using counted

end Tests

/-! ## Means -/

variable {K : Type u} [Field K]

/-- The mean of some values, zero without values. -/
def mean (values : List K) : K :=
  values.sum / (values.length : K)

/-- The mean of values that count as often as their weights say. -/
def weightedMean (values : List (ℕ × K)) : K :=
  (values.map fun value => (value.1 : K) * value.2).sum / ((values.map Prod.fst).sum : ℕ)

theorem mean_perm {values others : List K} (permutes : others.Perm values) :
    mean others = mean values := by
  rw [mean, mean, permutes.sum_eq, permutes.length_eq]

variable [LinearOrder K] [IsStrictOrderedRing K]

/-- A mean times the number of its values is their sum. -/
theorem length_mul_mean (values : List K) : (values.length : K) * mean values = values.sum := by
  by_cases empty : values = []
  · simp [empty]
  · have positive : (values.length : K) ≠ 0 :=
      Nat.cast_ne_zero.mpr fun none => empty (List.length_eq_zero_iff.mp none)
    rw [mean, mul_div_cancel₀ _ positive]

/-- A mean of numbers in the unit interval lies in it. -/
theorem mean_unit {values : List K} (units : ∀ value ∈ values, 0 ≤ value ∧ value ≤ 1) :
    0 ≤ mean values ∧ mean values ≤ 1 := by
  have nonneg : 0 ≤ values.sum := List.sum_nonneg fun value isValue => (units value isValue).1
  have most : values.sum ≤ values.length • (1 : K) :=
    List.sum_le_card_nsmul values 1 fun value isValue => (units value isValue).2
  rw [nsmul_one] at most
  exact ⟨div_nonneg nonneg (Nat.cast_nonneg _), div_le_one_of_le₀ most (Nat.cast_nonneg _)⟩

/-- So does a weighted mean. -/
theorem weightedMean_unit {values : List (ℕ × K)}
    (units : ∀ value ∈ values, 0 ≤ value.2 ∧ value.2 ≤ 1) :
    0 ≤ weightedMean values ∧ weightedMean values ≤ 1 := by
  have bounds : 0 ≤ (values.map fun value => (value.1 : K) * value.2).sum ∧
      (values.map fun value => (value.1 : K) * value.2).sum ≤ ((values.map Prod.fst).sum : ℕ) := by
    induction values with
    | nil => simp
    | cons value values ih =>
        rw [List.forall_mem_cons] at units
        have rest := ih units.2
        have weight : (0 : K) ≤ value.1 := Nat.cast_nonneg _
        simp only [List.map_cons, List.sum_cons, Nat.cast_add]
        refine ⟨add_nonneg (mul_nonneg weight units.1.1) rest.1, ?_⟩
        exact add_le_add (mul_le_of_le_one_right weight units.1.2) rest.2
  exact ⟨div_nonneg bounds.1 (Nat.cast_nonneg _),
    div_le_one_of_le₀ bounds.2 (Nat.cast_nonneg _)⟩

/-- The groups that the tests make of the items, apart from the empty ones. -/
def groups {Item : Type u} (tests : List (Item → Bool)) (items : List Item) : List (List Item) :=
  (tests.map fun test => items.filter test).filter fun group => !group.isEmpty

theorem sum_map_filter_nonempty {Item : Type u} {M : Type*} [AddCommMonoid M]
    (collected : List (List Item)) {value : List Item → M} (empty : value [] = 0) :
    ((collected.filter fun group => !group.isEmpty).map value).sum = (collected.map value).sum := by
  induction collected with
  | nil => rfl
  | cons group rest ih =>
      cases group with
      | nil => simpa [empty] using ih
      | cons item items =>
          simpa using congrArg (value (item :: items) + ·) ih

section Groups

variable {Item : Type u} {tests : List (Item → Bool)} {items : List Item}

theorem Sorts.sum_length_groups (sorts : Sorts tests items) :
    ((groups tests items).map List.length).sum = items.length := by
  rw [groups, sum_map_filter_nonempty _ List.length_nil, List.map_map]
  exact sorts.sum_length

/-- The means of the groups, weighted by their sizes, are the mean of all items. -/
theorem Sorts.weightedMean_groups (sorts : Sorts tests items) (value : Item → K) :
    weightedMean ((groups tests items).map fun group => (group.length, mean (group.map value))) =
      mean (items.map value) := by
  have weights : (((groups tests items).map fun group =>
      (group.length, mean (group.map value))).map Prod.fst).sum = items.length := by
    rw [List.map_map]
    exact sorts.sum_length_groups
  have scaled : ∀ group : List Item,
      (group.length : K) * mean (group.map value) = (group.map value).sum := by
    intro group
    have whole := length_mul_mean (group.map value)
    rwa [List.length_map] at whole
  have sums : (((groups tests items).map fun group =>
      (group.length, mean (group.map value))).map fun entry => (entry.1 : K) * entry.2).sum =
        (items.map value).sum := by
    rw [List.map_map, ← sorts.sum_eq value]
    simp only [Function.comp_def, scaled]
    rw [groups, sum_map_filter_nonempty _ (by rw [List.map_nil, List.sum_nil]), List.map_map]
    rfl
  rw [weightedMean, sums, weights, mean, List.length_map]

end Groups

end VisionApi.Foundation
