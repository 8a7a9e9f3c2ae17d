import Mathlib.Data.Rat.Floor
import VisionApi.Experiments.Routing
import VisionApi.Foundation.Grid

/-!
# The traffic of the variants

`assign` compares the position of a user with the running sums of the weights.
Which arm a position falls into is a matter of these sums alone: it follows how
much traffic an arm gets, whether one without weight gets any, and what happens
to a user when weights change.

The arm is the index of the variant, so that statements do not depend on names.  For
exact arithmetic the running sums are the bounds of the arms, and a position lies in
an arm exactly if it lies between two bounds, except that the last arm also gets what
lies beyond the last bound (`armAt_lt_iff`).

The position is a number of eight bytes of a digest, hence one of a grid of `2 ^ 64`
points.  The traffic of an arm is the share of the points that fall into it, which the
count of grid points compares with the weight: the error is a step of the grid and
what the total is off from one.

Moving a boundary to the right moves users in one direction only (`armAt_le`), which
is proved for the operations of any arithmetic under the comparison `AtMost`.
-/

namespace VisionApi.Experiments

open Foundation Inference

/-! ## Arms -/

section Arms

variable {Number : Type} {ops : FloatOps Number}

/-- The values that the variable `cumulative` takes in the loop. -/
def cumulatives : Number → List (Variant ops) → List Number
  | _, [] => []
  | cumulative, variant :: variants =>
      let cumulative := ops.add cumulative variant.weight
      cumulative :: cumulatives cumulative variants

/-- The running sums of the weights of an experiment. -/
def Experiment.runningSums (experiment : Experiment ops) : List Number :=
  cumulatives (ops.ofUnits 0) experiment.variants

/-- The index of the variant that the loop returns, or of the one after it. -/
def Experiment.armAt (experiment : Experiment ops) (position : Number) : ℕ :=
  (experiment.runningSums.findIdx? (ops.less position)).getD (experiment.variants.length - 1)

/-- The variant of a position, as in an enabled experiment. -/
def Experiment.variantAt (experiment : Experiment ops) (position : Number) : Variant ops :=
  (pick position (ops.ofUnits 0) experiment.variants).getD
    (experiment.variants.getLast experiment.nonempty)

/-- The first eight bytes of the hash of a user, as an integer. -/
def Experiment.units (hashing : Hashing Number) (experiment : Experiment ops) (userId : String) :
    ℕ :=
  fromBytes ((hashing.digest
    (encodeText (hashing.format experiment.name ++ ":" ++ userId))).take 8)

theorem length_cumulatives (cumulative : Number) (variants : List (Variant ops)) :
    (cumulatives cumulative variants).length = variants.length := by
  induction variants generalizing cumulative with
  | nil => rfl
  | cons variant variants ih => exact congrArg (· + 1) (ih _)

theorem pick_eq (position cumulative : Number) (variants : List (Variant ops)) :
    pick position cumulative variants =
      ((cumulatives cumulative variants).findIdx? (ops.less position)).bind
        fun index => variants[index]? := by
  induction variants generalizing cumulative with
  | nil => rfl
  | cons variant variants ih =>
      rw [pick, cumulatives, List.findIdx?_cons]
      split
      · rfl
      · rw [ih]
        cases (cumulatives (ops.add cumulative variant.weight) variants).findIdx?
            (ops.less position) with
        | none => rfl
        | some index => rfl

theorem Experiment.length_runningSums (experiment : Experiment ops) :
    experiment.runningSums.length = experiment.variants.length :=
  length_cumulatives _ _

/-- The variant of a position is the one at its arm. -/
theorem Experiment.variantAt_armAt (experiment : Experiment ops) (position : Number) :
    experiment.variants[experiment.armAt position]? = some (experiment.variantAt position) := by
  rw [variantAt, armAt, pick_eq, runningSums]
  cases found : (cumulatives (ops.ofUnits 0) experiment.variants).findIdx?
      (ops.less position) with
  | none =>
      simp only [Option.getD_none, Option.bind_none]
      rw [List.getLast_eq_getElem experiment.nonempty]
      apply List.getElem?_eq_getElem
  | some index =>
      have inside := (List.findIdx?_eq_some_iff_getElem.mp found).1
      rw [length_cumulatives] at inside
      simp only [Option.getD_some, Option.bind_some, List.getElem?_eq_getElem inside]

/-- Every position has an arm. -/
theorem Experiment.armAt_lt (experiment : Experiment ops) (position : Number) :
    experiment.armAt position < experiment.variants.length :=
  (List.getElem?_eq_some_iff.mp (experiment.variantAt_armAt position)).1

/-- An enabled experiment assigns the variant at the position of the user. -/
theorem Experiment.assign_eq {hashing : Hashing Number} {experiment : Experiment ops}
    (enabled : experiment.enabled = true) (userId : String) :
    experiment.assign hashing userId =
      experiment.variantAt (experiment.position hashing userId) := by
  simp [assign, variantAt, enabled]

theorem fromBytes_lt (bytes : Bytes) : fromBytes bytes < 256 ^ bytes.length := by
  unfold fromBytes
  induction bytes using List.reverseRecOn with
  | nil => exact Nat.one_pos
  | append_singleton bytes byte ih =>
      have small : byte.toNat < 256 := UInt8.toNat_lt byte
      rw [List.foldl_append, List.foldl_cons, List.foldl_nil, List.length_append,
        List.length_singleton, Nat.pow_succ]
      omega

/-- A prefix of a hash has 64 bits. -/
theorem Experiment.units_lt (hashing : Hashing Number) (experiment : Experiment ops)
    (userId : String) : experiment.units hashing userId < 2 ^ 64 := by
  apply (fromBytes_lt _).trans_le
  rw [show 2 ^ 64 = 256 ^ 8 from rfl]
  apply Nat.pow_le_pow_right (by omega)
  exact List.length_take_le _ _

end Arms

/-! ## Exact weights -/

section Exact

variable {experiment : Experiment exactOps} {position : ℚ}

/-- The sum of the first weights. -/
def Experiment.bound (experiment : Experiment exactOps) (count : ℕ) : ℚ :=
  ((experiment.variants.map Variant.weight).take count).sum

theorem Variant.weight_nonneg (variant : Variant exactOps) : 0 ≤ variant.weight :=
  ((exactOps_isShare _).mp variant.share).1

theorem cumulatives_getElem? (cumulative : ℚ) (variants : List (Variant exactOps)) (index : ℕ) :
    (cumulatives cumulative variants)[index]? =
      if index < variants.length then
        some (cumulative + ((variants.map Variant.weight).take (index + 1)).sum)
      else none := by
  induction variants generalizing cumulative index with
  | nil => rfl
  | cons variant variants ih =>
      cases index with
      | zero => simp [cumulatives]
      | succ index =>
          rw [cumulatives, List.getElem?_cons_succ, ih]
          simp [add_assoc]

theorem Experiment.runningSums_getElem? (experiment : Experiment exactOps) {index : ℕ}
    (inside : index < experiment.variants.length) :
    experiment.runningSums[index]? = some (experiment.bound (index + 1)) := by
  rw [runningSums, cumulatives_getElem?, if_pos inside, bound]
  simp

theorem Experiment.bound_zero (experiment : Experiment exactOps) : experiment.bound 0 = 0 := by
  simp [bound]

/-- Each bound adds the weight of its variant. -/
theorem Experiment.bound_succ (experiment : Experiment exactOps) {index : ℕ}
    {variant : Variant exactOps} (isVariant : experiment.variants[index]? = some variant) :
    experiment.bound (index + 1) = experiment.bound index + variant.weight := by
  rw [bound, bound, List.take_add_one, List.sum_append, List.getElem?_map, isVariant]
  simp

/-- The bounds grow. -/
theorem Experiment.bound_mono (experiment : Experiment exactOps) {first second : ℕ}
    (ordered : first ≤ second) : experiment.bound first ≤ experiment.bound second := by
  induction second, ordered using Nat.le_induction with
  | base => exact le_rfl
  | succ index _ ih =>
      apply ih.trans
      cases isVariant : experiment.variants[index]? with
      | none =>
          have outside := List.getElem?_eq_none_iff.mp isVariant
          rw [bound, bound, List.take_of_length_le (by simpa using outside),
            List.take_of_length_le (by simpa using outside.trans (Nat.le_succ _))]
      | some variant =>
          rw [experiment.bound_succ isVariant]
          exact le_add_of_nonneg_right variant.weight_nonneg

theorem Experiment.bound_nonneg (experiment : Experiment exactOps) (count : ℕ) :
    0 ≤ experiment.bound count :=
  experiment.bound_zero ▸ experiment.bound_mono (Nat.zero_le count)

/-- The weights sum to one up to the tolerance of the constructor. -/
theorem Experiment.total_near_one (experiment : Experiment exactOps) :
    |experiment.bound experiment.variants.length - 1| ≤ 1 / 10 ^ 6 := by
  have whole := experiment.whole
  have sum : exactOps.sum (experiment.variants.map Variant.weight) =
      experiment.bound experiment.variants.length := by
    rw [bound, List.take_of_length_le (by simp)]
    exact List.sum_eq_foldl.symm
  rw [sum, exactOps_isWhole] at whole
  rw [abs_of_nonneg (experiment.bound_nonneg _)] at whole
  rcases le_max_iff.mp whole with relative | absolute
  · rcases le_total (experiment.bound experiment.variants.length) 1 with small | large
    · rw [max_eq_right small] at relative
      exact relative.trans (by norm_num)
    · rw [max_eq_left large, abs_of_nonneg (sub_nonneg.mpr large)] at relative
      rw [abs_of_nonneg (sub_nonneg.mpr large)]
      linarith
  · exact absolute

/-- A position falls before an arm exactly when it is below the sum of the weights before it. -/
theorem Experiment.armAt_lt_iff (experiment : Experiment exactOps) (nonneg : 0 ≤ position)
    {arm : ℕ} (isArm : arm < experiment.variants.length) :
    experiment.armAt position < arm ↔ position < experiment.bound arm := by
  have sums := experiment.length_runningSums
  have notBelow : ¬position < experiment.bound 0 := by
    rw [experiment.bound_zero]
    exact nonneg.not_gt
  rw [armAt]
  cases found : experiment.runningSums.findIdx? (exactOps.less position) with
  | none =>
      rw [Option.getD_none]
      constructor
      · omega
      · intro below
        cases arm with
        | zero => exact absurd below notBelow
        | succ index =>
            have isSum := experiment.runningSums_getElem? (show index < _ by omega)
            have passed := List.findIdx?_eq_none_iff.mp found _ (List.mem_of_getElem? isSum)
            simp only [exactOps_less, decide_eq_false_iff_not] at passed
            exact absurd below passed
  | some first =>
      rcases List.findIdx?_eq_some_iff_getElem.mp found with ⟨inside, hit, passed⟩
      have isFirst := experiment.runningSums_getElem? (sums ▸ inside)
      rw [List.getElem?_eq_getElem inside, Option.some.injEq] at isFirst
      simp only [isFirst, exactOps_less, decide_eq_true_eq] at hit
      rw [Option.getD_some]
      constructor
      · intro before
        exact hit.trans_le (experiment.bound_mono before)
      · intro below
        by_contra notBefore
        cases arm with
        | zero => exact absurd below notBelow
        | succ index =>
            have earlier : index < first := by omega
            have isSum := experiment.runningSums_getElem? (show index < _ by omega)
            rw [List.getElem?_eq_getElem (earlier.trans inside), Option.some.injEq] at isSum
            have skipped := passed index earlier
            simp only [isSum, exactOps_less, decide_eq_true_eq] at skipped
            exact skipped below

/-! ## Traffic -/

/-- The number of 64-bit prefixes. -/
def prefixes : ℕ :=
  2 ^ 64

/-- The prefixes that are assigned to an arm. -/
def Experiment.assigned (experiment : Experiment exactOps) (arm : ℕ) : Finset ℕ :=
  (Finset.range prefixes).filter fun units => experiment.armAt (exactOps.ofUnits units) = arm

/-- The part of the prefixes that are assigned to an arm. -/
def Experiment.trafficShare (experiment : Experiment exactOps) (arm : ℕ) : ℚ :=
  (experiment.assigned arm).card / prefixes

theorem ofUnits_eq (units : ℕ) : exactOps.ofUnits units = (units : ℚ) / prefixes := by
  rw [exactOps_ofUnits, prefixes, Nat.cast_pow, Nat.cast_ofNat]

theorem ofUnits_nonneg (units : ℕ) : 0 ≤ exactOps.ofUnits units := by
  rw [exactOps_ofUnits]
  positivity

/-- The prefixes that fall into an arm. -/
theorem Experiment.mem_assigned {arm units : ℕ} :
    units ∈ experiment.assigned arm ↔
      units < prefixes ∧ experiment.armAt (exactOps.ofUnits units) = arm := by
  rw [assigned, Finset.mem_filter, Finset.mem_range]

/-- The prefixes before an arm are the points below its bound. -/
theorem Experiment.armAt_ofUnits_lt_iff (experiment : Experiment exactOps) {arm units : ℕ}
    (isArm : arm < experiment.variants.length) (isPrefix : units < prefixes) :
    experiment.armAt (exactOps.ofUnits units) < arm ↔
      units ∈ pointsBelow prefixes (experiment.bound arm) := by
  rw [experiment.armAt_lt_iff (ofUnits_nonneg units) isArm, mem_pointsBelow, ofUnits_eq]
  exact (and_iff_right isPrefix).symm

/-- An arm before the last one has the points between its bounds. -/
theorem Experiment.card_assigned (experiment : Experiment exactOps) {arm : ℕ}
    (isNext : arm + 1 < experiment.variants.length) :
    (experiment.assigned arm).card + (pointsBelow prefixes (experiment.bound arm)).card =
      (pointsBelow prefixes (experiment.bound (arm + 1))).card := by
  have between : experiment.assigned arm =
      pointsBelow prefixes (experiment.bound (arm + 1)) \
        pointsBelow prefixes (experiment.bound arm) := by
    ext units
    rw [mem_assigned, Finset.mem_sdiff]
    constructor
    · rintro ⟨isPrefix, isArm⟩
      rw [← experiment.armAt_ofUnits_lt_iff isNext isPrefix,
        ← experiment.armAt_ofUnits_lt_iff (by omega) isPrefix]
      omega
    · rintro ⟨below, notBelow⟩
      have isPrefix := (mem_pointsBelow.mp below).1
      rw [← experiment.armAt_ofUnits_lt_iff isNext isPrefix] at below
      rw [← experiment.armAt_ofUnits_lt_iff (by omega) isPrefix] at notBelow
      exact ⟨isPrefix, by omega⟩
  rw [between]
  exact Finset.card_sdiff_add_card_eq_card
    (pointsBelow_subset (experiment.bound_mono (Nat.le_succ arm)))

/-- The last arm has the points from its bound on. -/
theorem Experiment.card_assigned_last (experiment : Experiment exactOps) {arm : ℕ}
    (isLast : arm + 1 = experiment.variants.length) :
    (experiment.assigned arm).card + (pointsBelow prefixes (experiment.bound arm)).card =
      prefixes := by
  have rest : experiment.assigned arm =
      Finset.range prefixes \ pointsBelow prefixes (experiment.bound arm) := by
    ext units
    rw [mem_assigned, Finset.mem_sdiff, Finset.mem_range]
    apply and_congr_right
    intro isPrefix
    have inside := experiment.armAt_lt (exactOps.ofUnits units)
    rw [← experiment.armAt_ofUnits_lt_iff (by omega) isPrefix]
    omega
  rw [rest, Finset.card_sdiff_add_card_eq_card, Finset.card_range]
  exact Finset.filter_subset _ _

theorem prefixes_pos : 0 < prefixes := by
  decide

/-- Inside the unit interval a bound is cut by at most the tolerance. -/
theorem Experiment.cut_bound (experiment : Experiment exactOps) {first second : ℕ}
    (ordered : first ≤ second) (inside : second ≤ experiment.variants.length) :
    experiment.bound first - cut (experiment.bound first) ≤
        experiment.bound second - cut (experiment.bound second) ∧
      experiment.bound second - cut (experiment.bound second) ≤ 1 / 10 ^ 6 := by
  have grows := experiment.bound_mono ordered
  have least := experiment.bound_mono inside
  have most := (abs_le.mp experiment.total_near_one).2
  constructor
  · rcases le_total (experiment.bound second) 1 with small | large
    · rw [cut, cut, min_eq_left small, min_eq_left (grows.trans small)]
      linarith
    · rw [cut, cut, min_eq_right large]
      rcases le_total (experiment.bound first) 1 with low | high
      · rw [min_eq_left low]
        linarith
      · rw [min_eq_right high]
        linarith
  · rw [cut]
    rcases le_total (experiment.bound second) 1 with small | large
    · rw [min_eq_left small]
      norm_num
    · rw [min_eq_right large]
      linarith

/-- The share of an arm differs from its weight by the tolerance and a step of the grid at most. -/
theorem Experiment.trafficShare_near (experiment : Experiment exactOps) {arm : ℕ}
    {variant : Variant exactOps} (isVariant : experiment.variants[arm]? = some variant) :
    |experiment.trafficShare arm - variant.weight| ≤ 1 / 10 ^ 6 + 1 / prefixes := by
  have isArm := (List.getElem?_eq_some_iff.mp isVariant).1
  have positive : (0 : ℚ) < prefixes := Nat.cast_pos.mpr prefixes_pos
  have below := card_pointsBelow_div prefixes_pos (experiment.bound_nonneg arm)
  have weight : variant.weight = experiment.bound (arm + 1) - experiment.bound arm := by
    rw [experiment.bound_succ isVariant]
    ring
  have outside := cut_le (experiment.bound arm)
  rw [weight, trafficShare, abs_le]
  by_cases isNext : arm + 1 < experiment.variants.length
  · have belowNext := card_pointsBelow_div prefixes_pos (experiment.bound_nonneg (arm + 1))
    have excess := experiment.cut_bound (Nat.le_add_right arm 1) isNext.le
    have counted : ((experiment.assigned arm).card : ℚ) / prefixes =
        (pointsBelow prefixes (experiment.bound (arm + 1))).card / prefixes -
          (pointsBelow prefixes (experiment.bound arm)).card / prefixes := by
      rw [← experiment.card_assigned isNext]
      push_cast
      ring
    rw [counted]
    constructor
    · linarith
    · linarith
  · have isLast : arm + 1 = experiment.variants.length := by omega
    have total := abs_le.mp experiment.total_near_one
    have excess := experiment.cut_bound (Nat.le_add_right arm 1) isLast.le
    have counted : ((experiment.assigned arm).card : ℚ) / prefixes =
        1 - (pointsBelow prefixes (experiment.bound arm)).card / prefixes := by
      have all := experiment.card_assigned_last isLast
      rw [eq_sub_iff_add_eq, ← add_div, ← Nat.cast_add, all, div_self positive.ne']
    rw [← isLast] at total
    have full : 1 - 1 / 10 ^ 6 ≤ cut (experiment.bound (arm + 1)) := by
      apply le_min
      · linarith
      · norm_num
    rw [counted]
    constructor
    · linarith
    · linarith

theorem sameKey_self {name : Json ℚ} (hashable : isHashable name = true) :
    sameKey exactOps name name = true := by
  cases name with
  | null => rfl
  | bool value => simp [sameKey, asInt]
  | int value => simp [sameKey, asInt]
  | float value => simp [sameKey, exactOps]
  | string text => simp [sameKey]
  | array items => cases hashable
  | object members => cases hashable

/-- No variant occurs twice, since their names differ. -/
theorem Experiment.variants_nodup (experiment : Experiment exactOps) :
    experiment.variants.Nodup := by
  apply experiment.unique.imp_of_mem
  intro left right isLeft _ differ same
  rw [← same, sameKey_self (List.all_eq_true.mp experiment.hashable left isLeft)] at differ
  cases differ

theorem Experiment.armAt_eq_iff {arm : ℕ} {variant : Variant exactOps}
    (isVariant : experiment.variants[arm]? = some variant) :
    experiment.armAt position = arm ↔ experiment.variantAt position = variant := by
  have isAssigned := experiment.variantAt_armAt position
  constructor
  · rintro rfl
    exact Option.some.inj (isAssigned.symm.trans isVariant)
  · rintro rfl
    exact (List.getElem?_inj (experiment.armAt_lt position) experiment.variants_nodup).mp
      (isAssigned.trans isVariant.symm)

/-- In an enabled experiment every prefix of a hash falls to one variant, and the part of the
prefixes that fall to a variant is its weight, up to the tolerance and a step of the grid. -/
theorem traffic_matches_weights (experiment : Experiment exactOps)
    (enabled : experiment.enabled = true) (hashing : Hashing ℚ) :
    (∀ userId, experiment.units hashing userId < prefixes ∧
        experiment.assign hashing userId =
          experiment.variantAt (exactOps.ofUnits (experiment.units hashing userId))) ∧
      (∀ units < prefixes, ∃! arm : ℕ,
        experiment.variants[arm]? = some (experiment.variantAt (exactOps.ofUnits units))) ∧
      ∀ (arm : ℕ) (variant : Variant exactOps), experiment.variants[arm]? = some variant →
        (∀ units, units ∈ experiment.assigned arm ↔
          units < prefixes ∧ experiment.variantAt (exactOps.ofUnits units) = variant) ∧
        |((experiment.assigned arm).card : ℚ) / prefixes - variant.weight| ≤
          1 / 10 ^ 6 + 1 / prefixes := by
  refine ⟨?_, ?_, ?_⟩
  · intro userId
    exact ⟨experiment.units_lt hashing userId, Experiment.assign_eq enabled userId⟩
  · intro units _
    refine ⟨_, experiment.variantAt_armAt _, ?_⟩
    intro arm isArm
    exact ((Experiment.armAt_eq_iff isArm).mpr rfl).symm
  · intro arm variant isVariant
    refine ⟨?_, experiment.trafficShare_near isVariant⟩
    intro units
    rw [Experiment.mem_assigned, Experiment.armAt_eq_iff isVariant]

/-- A variant with a weight, which is also the version it serves. -/
def arm (name : String) (weight : ℚ) (share : 0 ≤ weight ∧ weight ≤ 1) : Variant exactOps :=
  ⟨.string name, .string name, weight, (exactOps_isShare weight).mpr share⟩

/-- The experiment `rollout` with two variants. -/
def twoArms (control challenger : ℚ) (controlShare : 0 ≤ control ∧ control ≤ 1)
    (challengerShare : 0 ≤ challenger ∧ challenger ≤ 1)
    (whole : |control + challenger - 1| ≤ 1 / 10 ^ 6) : Experiment exactOps where
  name := .string "rollout"
  variants := [arm "control" control controlShare, arm "challenger" challenger challengerShare]
  enabled := true
  nonempty := List.cons_ne_nil _ _
  whole := (exactOps_isWhole _).mpr (le_max_of_le_right (by simpa [exactOps, arm] using whole))
  hashable := rfl
  unique := List.pairwise_pair.mpr rfl

/-- The hash of one text, in place of all. -/
def hashOf (digest : Bytes) : Hashing ℚ where
  format := fun value =>
    match value with
    | .string text => text
    | _ => ""
  digest := fun _ => digest

/-- A digest with a given prefix has its position. -/
theorem position_hashOf {digest : Bytes} {units : ℕ} (isPrefix : fromBytes (digest.take 8) = units)
    {experiment : Experiment exactOps} (userId : String) :
    experiment.position (hashOf digest) userId = units / 2 ^ 64 := by
  rw [← isPrefix]
  rfl

theorem half_isShare : (0 : ℚ) ≤ 1 / 2 ∧ (1 / 2 : ℚ) ≤ 1 := by
  norm_num

theorem halves_whole : |(1 / 2 : ℚ) + 1 / 2 - 1| ≤ 1 / 10 ^ 6 := by
  norm_num

/-- The two variants share the traffic in halves. -/
def halves : Experiment exactOps :=
  twoArms (1 / 2) (1 / 2) half_isShare half_isShare halves_whole

/-- The digest of `rollout:user-1206736`, just before the middle. -/
def middleHashing : Hashing ℚ :=
  hashOf [127, 255, 253, 57, 138, 67, 136, 27, 232, 209, 64, 115, 7, 248, 11, 173, 182, 205, 193,
    25, 16, 128, 87, 170, 122, 8, 72, 146, 238, 202, 20, 52]

/-- Two halves get half of the traffic each. -/
theorem traffic_matches_weights_halves :
    |((halves.assigned 0).card : ℚ) / prefixes - 1 / 2| ≤ 1 / 10 ^ 6 + 1 / prefixes :=
  ((traffic_matches_weights halves rfl middleHashing).2.2 0 _ rfl).2

/-! ## Arms without weight -/

/-- The arm before the last bound that a position does not reach has a weight. -/
theorem Experiment.weight_pos_of_lt (experiment : Experiment exactOps) (nonneg : 0 ≤ position)
    (reached : position < experiment.bound experiment.variants.length) :
    0 < (experiment.variantAt position).weight := by
  have isAssigned := experiment.variantAt_armAt position
  have inside := experiment.armAt_lt position
  have next := experiment.bound_succ isAssigned
  have notBefore : ¬position < experiment.bound (experiment.armAt position) :=
    fun below => absurd ((experiment.armAt_lt_iff nonneg inside).mpr below) (lt_irrefl _)
  have before : position < experiment.bound (experiment.armAt position + 1) := by
    by_cases isNext : experiment.armAt position + 1 < experiment.variants.length
    · exact (experiment.armAt_lt_iff nonneg isNext).mp (Nat.lt_succ_self _)
    · have isLast : experiment.armAt position + 1 = experiment.variants.length := by omega
      rw [isLast]
      exact reached
  linarith

/-- A position beyond the sum of the weights falls to the last variant. -/
theorem Experiment.variantAt_of_le (experiment : Experiment exactOps)
    (beyond : experiment.bound experiment.variants.length ≤ position) :
    experiment.variantAt position = experiment.variants.getLast experiment.nonempty := by
  have found : experiment.runningSums.findIdx? (exactOps.less position) = none := by
    apply List.findIdx?_eq_none_iff.mpr
    intro sum isSum
    rcases List.getElem?_of_mem isSum with ⟨index, isIndex⟩
    have inside := (List.getElem?_eq_some_iff.mp isIndex).1
    rw [experiment.length_runningSums] at inside
    rw [experiment.runningSums_getElem? inside, Option.some.injEq] at isIndex
    rw [← isIndex, exactOps_less, decide_eq_false_iff_not]
    exact ((experiment.bound_mono inside).trans beyond).not_gt
  rw [variantAt, pick_eq, ← runningSums, found]
  rfl

/-- An enabled experiment assigns a variant with a weight exactly if the last variant has one, or
the position of the user is below the sum of the weights. -/
theorem assign_weight_ne_zero_iff (experiment : Experiment exactOps)
    (enabled : experiment.enabled = true) (hashing : Hashing ℚ) (userId : String) :
    (experiment.assign hashing userId).weight ≠ 0 ↔
      (experiment.variants.getLast experiment.nonempty).weight ≠ 0 ∨
        experiment.position hashing userId < (experiment.variants.map Variant.weight).sum := by
  have total : experiment.bound experiment.variants.length =
      (experiment.variants.map Variant.weight).sum := by
    rw [Experiment.bound, List.take_of_length_le (by simp)]
  rw [Experiment.assign_eq enabled, ← total]
  rcases lt_or_ge (experiment.position hashing userId)
    (experiment.bound experiment.variants.length) with reached | beyond
  · have positive := experiment.weight_pos_of_lt (ofUnits_nonneg _) reached
    exact iff_of_true positive.ne' (Or.inr reached)
  · rw [experiment.variantAt_of_le beyond]
    constructor
    · exact Or.inl
    · rintro (isLast | reached)
      · exact isLast
      · exact absurd reached beyond.not_gt

/-- A switched-off last arm, and a control that is a little short of the whole. -/
def switchedOff : Experiment exactOps :=
  twoArms (9999995 / 10 ^ 7) 0 (by norm_num) (by norm_num) (by norm_num)

/-- The digest of `rollout:user-2373229`, just before the end. -/
def endHashing : Hashing ℚ :=
  hashOf [255, 255, 253, 210, 31, 224, 94, 157, 241, 11, 0, 140, 145, 55, 135, 60, 215, 131, 129,
    22, 172, 236, 176, 37, 26, 8, 189, 75, 215, 237, 62, 69]

theorem assign_weight_ne_zero_middle :
    (switchedOff.assign middleHashing "user-1206736").weight ≠ 0 := by
  apply (assign_weight_ne_zero_iff switchedOff rfl middleHashing "user-1206736").mpr
  right
  rw [middleHashing, position_hashOf (show _ = 9223368985452709915 from rfl)]
  norm_num [switchedOff, twoArms, arm]

/-- This user is assigned to the arm that is switched off. -/
theorem switched_off_arm_receives_user :
    switchedOff.enabled = true ∧
      (switchedOff.assign endHashing "user-2373229").weight = 0 := by
  refine ⟨rfl, ?_⟩
  have beyond : switchedOff.bound switchedOff.variants.length ≤
      switchedOff.position endHashing "user-2373229" := by
    rw [endHashing, position_hashOf (show _ = 18446741677652598429 from rfl)]
    norm_num [Experiment.bound, switchedOff, twoArms, arm]
  rw [Experiment.assign_eq rfl, switchedOff.variantAt_of_le beyond]
  rfl

end Exact

/-! ## Changed weights -/

section Changed

variable {Number : Type} {ops : FloatOps Number}

/-- One number is at most another one, by the comparison of `assign`. -/
def AtMost (ops : FloatOps Number) (small large : Number) : Prop :=
  ∀ position, ops.less position small = true → ops.less position large = true

theorem atMost_exactOps_iff {small large : ℚ} : AtMost exactOps small large ↔ small ≤ large := by
  simp only [AtMost, exactOps_less, decide_eq_true_eq]
  exact forall_lt_iff_le

/-- Where every running sum but the last is at most what it was, a position falls to the same arm
or to a later one. -/
theorem armAt_le {first second : Experiment ops}
    (sameCount : second.variants.length = first.variants.length)
    (later : ∀ (index : ℕ) (sum smaller : Number), index + 1 < first.variants.length →
      first.runningSums[index]? = some sum → second.runningSums[index]? = some smaller →
      AtMost ops smaller sum) (position : Number) :
    first.armAt position ≤ second.armAt position := by
  have firstSums := first.length_runningSums
  have secondSums := second.length_runningSums
  have isLast := first.armAt_lt position
  by_contra before
  rw [not_le] at before
  -- The second experiment stops before the first one, so it stops in its loop.
  cases found : second.runningSums.findIdx? (ops.less position) with
  | none =>
      rw [Experiment.armAt, found, Option.getD_none] at before
      omega
  | some index =>
      rw [Experiment.armAt, found, Option.getD_some] at before
      rcases List.findIdx?_eq_some_iff_getElem.mp found with ⟨inside, hit, _⟩
      have inFirst : index < first.runningSums.length := by omega
      have hitFirst : ops.less position first.runningSums[index] = true :=
        later index _ _ (by omega) (List.getElem?_eq_getElem inFirst)
          (List.getElem?_eq_getElem inside) position hit
      cases stops : first.runningSums.findIdx? (ops.less position) with
      | none =>
          have passed := List.findIdx?_eq_none_iff.mp stops _ (List.getElem_mem inFirst)
          rw [hitFirst] at passed
          cases passed
      | some stop =>
          rw [Experiment.armAt, stops, Option.getD_some] at before
          rcases List.findIdx?_eq_some_iff_getElem.mp stops with ⟨_, _, passed⟩
          exact passed index before hitFirst

/-- Where every running sum is at most what it was, no user is moved back to an earlier arm; with
two arms, it is enough that the weight of the control is not raised. -/
theorem ramp_up_keeps_arms (first second : Experiment ops) (firstEnabled : first.enabled = true)
    (secondEnabled : second.enabled = true) (sameName : second.name = first.name)
    (sameCount : second.variants.length = first.variants.length) (hashing : Hashing Number)
    (userId : String) :
    first.variants[first.armAt (first.position hashing userId)]? =
        some (first.assign hashing userId) ∧
      second.variants[second.armAt (second.position hashing userId)]? =
        some (second.assign hashing userId) ∧
      ((∀ (index : ℕ) (sum smaller : Number), first.runningSums[index]? = some sum →
          second.runningSums[index]? = some smaller → AtMost ops smaller sum) →
        first.armAt (first.position hashing userId) ≤
          second.armAt (second.position hashing userId)) ∧
      ∀ control challenger nextControl nextChallenger : Variant ops,
        first.variants = [control, challenger] → second.variants = [nextControl, nextChallenger] →
        AtMost ops (ops.add (ops.ofUnits 0) nextControl.weight)
          (ops.add (ops.ofUnits 0) control.weight) →
        first.armAt (first.position hashing userId) = 1 →
        second.assign hashing userId = nextChallenger := by
  have samePosition : second.position hashing userId = first.position hashing userId := by
    rw [Experiment.position, Experiment.position, sameName]
  rw [Experiment.assign_eq firstEnabled, Experiment.assign_eq secondEnabled, samePosition]
  refine ⟨first.variantAt_armAt _, second.variantAt_armAt _, ?_, ?_⟩
  · intro later
    apply armAt_le sameCount
    intro index sum smaller _
    exact later index sum smaller
  · intro control challenger nextControl nextChallenger firstArms secondArms notRaised isChallenger
    have kept : first.armAt (first.position hashing userId) ≤
        second.armAt (first.position hashing userId) := by
      apply armAt_le sameCount
      intro index sum smaller isInner isSum isSmaller
      rw [firstArms, List.length_cons, List.length_singleton] at isInner
      have isFirst : index = 0 := by omega
      subst isFirst
      rw [Experiment.runningSums, firstArms] at isSum
      rw [Experiment.runningSums, secondArms] at isSmaller
      cases isSum
      cases isSmaller
      exact notRaised
    have isNext := second.variantAt_armAt (first.position hashing userId)
    have inside := second.armAt_lt (first.position hashing userId)
    rw [secondArms] at isNext inside
    have isSecond : second.armAt (first.position hashing userId) = 1 := by
      rw [List.length_cons, List.length_singleton] at inside
      omega
    rw [isSecond] at isNext
    exact (Option.some.inj isNext).symm

/-- The challenger has three quarters of the traffic. -/
def quarter : Experiment exactOps :=
  twoArms (1 / 4) (3 / 4) (by norm_num) (by norm_num) (by norm_num)

theorem runningSums_twoArms {control challenger : ℚ} (controlShare : 0 ≤ control ∧ control ≤ 1)
    (challengerShare : 0 ≤ challenger ∧ challenger ≤ 1)
    (whole : |control + challenger - 1| ≤ 1 / 10 ^ 6) :
    (twoArms control challenger controlShare challengerShare whole).runningSums =
      [control, control + challenger] := by
  simp [Experiment.runningSums, twoArms, cumulatives, arm]

theorem ramp_up_keeps_arms_quarter :
    halves.armAt (halves.position middleHashing "user-1206736") ≤
      quarter.armAt (quarter.position middleHashing "user-1206736") := by
  apply (ramp_up_keeps_arms halves quarter rfl rfl rfl rfl middleHashing "user-1206736").2.2.1
  intro index sum smaller isSum isSmaller
  rw [halves, runningSums_twoArms] at isSum
  rw [quarter, runningSums_twoArms] at isSmaller
  rw [atMost_exactOps_iff]
  match index with
  | 0 =>
      cases isSum
      cases isSmaller
      norm_num
  | 1 =>
      cases isSum
      cases isSmaller
      norm_num
  | index + 2 => cases isSum

/-- The weights sum to a little less than one. -/
def justShort : Experiment exactOps :=
  twoArms (4999995 / 10 ^ 7) (4999996 / 10 ^ 7) (by norm_num) (by norm_num) (by norm_num)

/-- With both weights raised, this user is returned from the challenger to the control. -/
theorem raised_challenger_loses_user :
    justShort.enabled = true ∧ halves.enabled = true ∧ halves.name = justShort.name ∧
      halves.variants.length = justShort.variants.length ∧
      justShort.variants.map (·.weight) = [4999995 / 10 ^ 7, 4999996 / 10 ^ 7] ∧
      halves.variants.map (·.weight) = [1 / 2, 1 / 2] ∧
      justShort.variants[1]? = some (justShort.assign middleHashing "user-1206736") ∧
      halves.variants[0]? = some (halves.assign middleHashing "user-1206736") := by
  have position (experiment : Experiment exactOps) :
      experiment.position middleHashing "user-1206736" = 9223368985452709915 / 2 ^ 64 :=
    position_hashOf (show _ = 9223368985452709915 from rfl) _
  refine ⟨rfl, rfl, rfl, rfl, rfl, rfl, ?_, ?_⟩
  · rw [Experiment.assign_eq rfl, position]
    simp only [Experiment.variantAt, justShort, twoArms, arm, pick, exactOps_less]
    norm_num
  · rw [Experiment.assign_eq rfl, position]
    simp only [Experiment.variantAt, halves, twoArms, arm, pick, exactOps_less]
    norm_num

end Changed

end VisionApi.Experiments
