import Mathlib.Algebra.BigOperators.Group.List.Basic
import Mathlib.Algebra.Field.Rat
import Mathlib.Tactic.FieldSimp
import Mathlib.Tactic.LinearCombination
import Mathlib.Tactic.Ring

/-!
# Batches

Samples are taken in groups of one size, of which the last may be smaller.  The
mean of the rates of the groups is compared with the rate of all samples.

The grouping is written as the programs write it: a buffer is filled and handed on
when it is full, so that `batchesFrom` can also start with a buffer that is partly
filled.  `flatten_batches` says that no sample is lost or repeated, and
`batches_eq` that all groups but the last one are full.

A group counts as one in the mean of the rates whatever its size.  Hence the mean
is the rate of all samples exactly if the last group is full or has the rate of the
others, which is `meanRate_batches_iff`.  Its proof splits off the last group: the
full groups have the right mean, and the rest is a weighted mean of two numbers.
-/

namespace VisionApi.Foundation

universe u

variable {Sample : Type u}

/-! ## Groups -/

/-- The groups of the samples, the first of which begins with those collected so far. -/
def batchesFrom (size : ℕ) : List Sample → List Sample → List (List Sample)
  | batch, [] => if batch.isEmpty then [] else [batch]
  | batch, sample :: samples =>
      if (batch ++ [sample]).length = size then
        (batch ++ [sample]) :: batchesFrom size [] samples
      else batchesFrom size (batch ++ [sample]) samples

/-- Groups of the given size in the order of the samples. -/
def batches (size : ℕ) (samples : List Sample) : List (List Sample) :=
  batchesFrom size [] samples

/-- The groups are full ones and at most one smaller one at the end. -/
theorem batchesFrom_eq {size : ℕ} {batch : List Sample} (room : batch.length < size)
    (samples : List Sample) :
    ∃ full last, batchesFrom size batch samples = full ++ (if last.isEmpty then [] else [last]) ∧
      (∀ group ∈ full, group.length = size) ∧ last.length < size ∧
      full.flatten ++ last = batch ++ samples := by
  induction samples generalizing batch with
  | nil =>
      refine ⟨[], batch, rfl, List.forall_mem_nil _, room, ?_⟩
      rw [List.flatten_nil, List.nil_append, List.append_nil]
  | cons sample samples ih =>
      have longer : (batch ++ [sample]).length = batch.length + 1 := List.length_append
      by_cases complete : (batch ++ [sample]).length = size
      · have empty : ([] : List Sample).length < size := Nat.lt_of_le_of_lt (Nat.zero_le _) room
        rcases ih empty with ⟨full, last, areGroups, areFull, isSmall, together⟩
        refine ⟨(batch ++ [sample]) :: full, last, ?_, ?_, isSmall, ?_⟩
        · simp only [batchesFrom, if_pos complete, areGroups, List.cons_append]
        · exact List.forall_mem_cons.mpr ⟨complete, areFull⟩
        · rw [List.flatten_cons, List.append_assoc, together]
          simp only [List.append_assoc, List.nil_append, List.singleton_append]
      · have roomLeft : (batch ++ [sample]).length < size := by omega
        rcases ih roomLeft with ⟨full, last, areGroups, areFull, isSmall, together⟩
        refine ⟨full, last, ?_, areFull, isSmall, ?_⟩
        · simp only [batchesFrom, if_neg complete, areGroups]
        · rw [together, List.append_assoc, List.singleton_append]

/-- Full groups hold as many samples as their number times the size. -/
theorem length_flatten_of_full {size : ℕ} {full : List (List Sample)}
    (areFull : ∀ group ∈ full, group.length = size) : full.flatten.length = full.length * size := by
  induction full with
  | nil => simp
  | cons group groups ih =>
      rw [List.forall_mem_cons] at areFull
      rw [List.flatten_cons, List.length_append, areFull.1, ih areFull.2, List.length_cons,
        Nat.add_mul, Nat.one_mul, Nat.add_comm]

/-- The last group holds the samples beyond the last multiple of the size. -/
theorem batches_eq {size : ℕ} (positive : 0 < size) (samples : List Sample) :
    ∃ full, batches size samples =
        full ++ (if (samples.drop (samples.length / size * size)).isEmpty then []
          else [samples.drop (samples.length / size * size)]) ∧
      (∀ group ∈ full, group.length = size) ∧ full.length = samples.length / size ∧
      full.flatten = samples.take (samples.length / size * size) := by
  have empty : ([] : List Sample).length < size := positive
  rcases batchesFrom_eq empty samples with
    ⟨full, last, areGroups, areFull, isSmall, together⟩
  rw [List.nil_append] at together
  have filled := length_flatten_of_full areFull
  have count : samples.length / size = full.length := by
    rw [← together, List.length_append, filled]
    apply Nat.div_eq_of_lt_le
    · omega
    · rw [Nat.add_mul]
      omega
  have isFront : samples.take (samples.length / size * size) = full.flatten := by
    rw [count, ← filled, ← together, List.take_left]
  have isBack : samples.drop (samples.length / size * size) = last := by
    rw [count, ← filled, ← together, List.drop_left]
  rw [isFront, isBack]
  exact ⟨full, areGroups, areFull, count.symm, rfl⟩

/-- The groups hold the samples, in order. -/
theorem flatten_batches {size : ℕ} (positive : 0 < size) (samples : List Sample) :
    (batches size samples).flatten = samples := by
  have empty : ([] : List Sample).length < size := positive
  rcases batchesFrom_eq empty samples with ⟨full, last, areGroups, _, _, together⟩
  rw [batches, areGroups, List.flatten_append]
  by_cases noLast : last = []
  · rw [noLast] at together ⊢
    exact together
  · rw [if_neg (by simpa using noLast), List.flatten_singleton]
    exact together

/-! ## Rates -/

/-- The fraction of the samples that are hits. -/
def rate (hit : Sample → Bool) (samples : List Sample) : ℚ :=
  (samples.countP hit : ℚ) / samples.length

/-- The mean of the rates of the groups. -/
def meanRate (hit : Sample → Bool) (groups : List (List Sample)) : ℚ :=
  (groups.map (rate hit)).sum / groups.length

theorem rate_map {Other : Type*} (hit : Other → Bool) (view : Sample → Other)
    (samples : List Sample) : rate hit (samples.map view) = rate (hit ∘ view) samples := by
  rw [rate, List.countP_map, List.length_map, rate]

/-- A rate times the number of samples is the number of hits. -/
theorem rate_mul_length (hit : Sample → Bool) {samples : List Sample} (nonempty : samples ≠ []) :
    rate hit samples * samples.length = samples.countP hit := by
  have isLength : (samples.length : ℚ) ≠ 0 :=
    Nat.cast_ne_zero.mpr (mt List.length_eq_zero_iff.mp nonempty)
  exact div_mul_cancel₀ _ isLength

/-- The rates of full groups add up to the hits by the size. -/
theorem sum_rate_full (hit : Sample → Bool) {size : ℕ} {full : List (List Sample)}
    (areFull : ∀ group ∈ full, group.length = size) :
    (full.map (rate hit)).sum = (full.flatten.countP hit : ℚ) / size := by
  induction full with
  | nil => simp
  | cons group groups ih =>
      rw [List.forall_mem_cons] at areFull
      rw [List.map_cons, List.sum_cons, ih areFull.2, List.flatten_cons, List.countP_append,
        Nat.cast_add, add_div, rate, areFull.1]

/-- Groups that count alike, with rates that differ, are not counted like their samples unless the
last group is as large as the others. -/
theorem weighted_eq_iff {front last groups size rest : ℚ} (hasGroups : groups ≠ 0)
    (smaller : rest ≠ size) (counted : groups + 1 ≠ 0) (sampled : groups * size + rest ≠ 0) :
    (groups * front + last) / (groups + 1) =
        (groups * size * front + rest * last) / (groups * size + rest) ↔ last = front := by
  rw [div_eq_div_iff counted sampled]
  have difference : (groups * front + last) * (groups * size + rest) -
      (groups * size * front + rest * last) * (groups + 1) =
      groups * (size - rest) * (last - front) := by
    ring
  have factor : groups * (size - rest) ≠ 0 := mul_ne_zero hasGroups (sub_ne_zero.mpr smaller.symm)
  rw [← sub_eq_zero, difference, mul_eq_zero, or_iff_right factor, sub_eq_zero]

section Full

variable {size : ℕ} {full : List (List Sample)}

/-- Groups of one size have the rate of their samples as their mean. -/
theorem meanRate_full (hit : Sample → Bool) (areFull : ∀ group ∈ full, group.length = size) :
    meanRate hit full = rate hit full.flatten := by
  rw [meanRate, sum_rate_full hit areFull, rate, length_flatten_of_full areFull, div_div,
    Nat.cast_mul, mul_comm]

/-- With a smaller last group they do exactly when it has the rate of the others. -/
theorem meanRate_append_iff (hit : Sample → Bool) (areFull : ∀ group ∈ full, group.length = size)
    (hasFull : full ≠ []) {last : List Sample} (hasLast : last ≠ [])
    (smaller : last.length < size) :
    meanRate hit (full ++ [last]) = rate hit (full.flatten ++ last) ↔
      rate hit last = rate hit full.flatten := by
  have groups : 0 < full.length := List.length_pos_iff.mpr hasFull
  have rest : 0 < last.length := List.length_pos_iff.mpr hasLast
  have sumFull : (full.map (rate hit)).sum = full.length * rate hit full.flatten := by
    rw [← meanRate_full hit areFull, meanRate, mul_div_cancel₀]
    exact Nat.cast_ne_zero.mpr groups.ne'
  have fullLength : (full.flatten.length : ℚ) = full.length * size := by
    rw [length_flatten_of_full areFull, Nat.cast_mul]
  have hasSamples : full.flatten ≠ [] := by
    apply List.length_pos_iff.mp
    rw [length_flatten_of_full areFull]
    exact Nat.mul_pos groups (rest.trans smaller)
  have groupsMean : meanRate hit (full ++ [last]) =
      (full.length * rate hit full.flatten + rate hit last) / (full.length + 1) := by
    simp only [meanRate, List.map_append, List.sum_append, sumFull, List.length_append]
    simp
  have samplesRate : rate hit (full.flatten ++ last) =
      (full.length * size * rate hit full.flatten + last.length * rate hit last) /
        (full.length * size + last.length) := by
    rw [← fullLength, mul_comm, rate_mul_length hit hasSamples, mul_comm,
      rate_mul_length hit hasLast, rate, List.countP_append, List.length_append, Nat.cast_add,
      Nat.cast_add]
  rw [groupsMean, samplesRate]
  apply weighted_eq_iff
  · exact Nat.cast_ne_zero.mpr groups.ne'
  · exact fun same => smaller.ne (Nat.cast_injective same)
  · exact Nat.cast_add_one_ne_zero full.length
  · rw [← fullLength, ← Nat.cast_add]
    exact Nat.cast_ne_zero.mpr (by omega)

end Full

/-- The mean over the groups is the rate of all samples exactly when the groups are of one size, or
there is one group, or the last group has the rate of the others. -/
theorem meanRate_batches_iff (hit : Sample → Bool) {size : ℕ} (positive : 0 < size)
    (samples : List Sample) :
    meanRate hit (batches size samples) = rate hit samples ↔
      size ∣ samples.length ∨ samples.length < size ∨
        rate hit (samples.drop (samples.length / size * size)) =
          rate hit (samples.take (samples.length / size * size)) := by
  rcases batches_eq positive samples with ⟨full, areGroups, areFull, count, isFront⟩
  by_cases divides : size ∣ samples.length
  · have exact : samples.length / size * size = samples.length := Nat.div_mul_cancel divides
    rw [exact, List.take_length] at isFront
    rw [exact, List.drop_length, List.isEmpty_nil, if_pos rfl, List.append_nil] at areGroups
    apply iff_of_true _ (Or.inl divides)
    rw [areGroups, meanRate_full hit areFull, isFront]
  · have hasRest : samples.drop (samples.length / size * size) ≠ [] := by
      rw [Ne, List.drop_eq_nil_iff, not_le]
      apply lt_of_le_of_ne (Nat.div_mul_le_self _ _)
      exact fun exact => divides ⟨_, (Nat.mul_comm _ _ ▸ exact).symm⟩
    rw [if_neg (by simpa using hasRest)] at areGroups
    by_cases single : samples.length < size
    · apply iff_of_true _ (Or.inr (Or.inl single))
      have noFull : samples.length / size = 0 := Nat.div_eq_of_lt single
      rw [noFull] at areGroups count
      cases List.length_eq_zero_iff.mp count
      rw [areGroups, Nat.zero_mul, List.drop_zero]
      simp [meanRate]
    · have hasFull : full ≠ [] := by
        apply List.length_pos_iff.mp
        rw [count]
        exact Nat.div_pos (not_lt.mp single) positive
      have smaller : (samples.drop (samples.length / size * size)).length < size := by
        rw [List.length_drop, ← Nat.mod_eq_sub_div_mul]
        exact Nat.mod_lt _ positive
      rw [or_iff_right divides, or_iff_right single, areGroups, ← isFront,
        ← meanRate_append_iff hit areFull hasFull hasRest smaller, isFront,
        List.take_append_drop]

end VisionApi.Foundation
