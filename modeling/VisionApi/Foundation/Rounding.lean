import Mathlib.Data.Int.Log
import Mathlib.Algebra.Order.Floor.Ring
import Mathlib.Tactic.Linarith
import Mathlib.Tactic.FieldSimp
import Mathlib.Tactic.Positivity
import Mathlib.Tactic.Ring

/-!
# Rounding to the nearest integer and to the nearest float

`roundHalfEven` rounds to the nearest integer with ties going to the even one,
`nearest bits` to the nearest number with `bits` significant binary digits.
The exponent of a float is not bounded here, so nothing overflows or underflows.

Rounding is expressed by the floor: the result is the floor or one more, and
`RoundsDown` is the condition for the former, a fractional part below one half or a
tie with an even floor.  From it follow the usual facts, that rounding is monotone,
fixes integers and moves a number by one half at most.

The second half compares rounding a quotient with rounding the float of that
quotient.  Half integers are floats (`half_grid`), and rounding to a float is
monotone, so it cannot cross one of them.  A quotient of naturals with few enough
digits is a float itself, or lies with its float strictly between the same two halves
(`nearest_div_cases`), so that both are rounded the same way.
-/

namespace VisionApi.Foundation

universe u

variable {K : Type u} [Field K] [LinearOrder K] [IsStrictOrderedRing K] [FloorRing K]

/-- The nearest integer, ties going to the even one. -/
def roundHalfEven (x : K) : ℤ :=
  if Int.fract x < 1 / 2 then
    ⌊x⌋
  else if 1 / 2 < Int.fract x then
    ⌊x⌋ + 1
  else if Even ⌊x⌋ then
    ⌊x⌋
  else
    ⌊x⌋ + 1

/-- Half of a number. -/
def half (x : K) : K :=
  x / 2

/-- The nearest integer is not above `x`. -/
def RoundsDown (x : K) : Prop :=
  Int.fract x < 1 / 2 ∨ Int.fract x = 1 / 2 ∧ Even ⌊x⌋

omit [IsStrictOrderedRing K] in
/-- Rounding gives the floor exactly where it rounds down. -/
theorem roundHalfEven_eq_floor_iff (x : K) : roundHalfEven x = ⌊x⌋ ↔ RoundsDown x := by
  simp only [roundHalfEven, RoundsDown]
  rcases lt_trichotomy (Int.fract x) (1 / 2) with below | tie | above
  · simp only [below, true_or, if_true]
  · by_cases even : Even ⌊x⌋ <;> simp [tie, even]
  · have notBelow : ¬Int.fract x < 1 / 2 := above.le.not_gt
    have notTie : Int.fract x ≠ 1 / 2 := above.ne'
    simp only [if_pos above, notBelow, notTie]
    simp

omit [IsStrictOrderedRing K] in
theorem floor_le_roundHalfEven (x : K) : ⌊x⌋ ≤ roundHalfEven x := by
  simp only [roundHalfEven]
  split
  · exact le_rfl
  · split
    · omega
    · split <;> omega

/-- Rounding moves a number by one half at most. -/
theorem abs_roundHalfEven_sub_le (x : K) : |(roundHalfEven x : K) - x| ≤ 1 / 2 := by
  have split_x : (⌊x⌋ : K) + Int.fract x = x := Int.floor_add_fract x
  have nonneg := Int.fract_nonneg x
  have below := Int.fract_lt_one x
  simp only [roundHalfEven]
  split
  · rename_i small
    rw [abs_le]
    constructor <;> linarith
  · rename_i notSmall
    have large : 1 / 2 ≤ Int.fract x := le_of_not_gt notSmall
    split
    · push_cast
      rw [abs_le]
      constructor <;> linarith
    · rename_i notLarge
      have tie : Int.fract x ≤ 1 / 2 := le_of_not_gt notLarge
      split
      · rw [abs_le]
        constructor <;> linarith
      · push_cast
        rw [abs_le]
        constructor <;> linarith

/-- Integers are rounded to themselves. -/
@[simp]
theorem roundHalfEven_intCast (k : ℤ) : roundHalfEven (k : K) = k := by
  simp [roundHalfEven]

omit [IsStrictOrderedRing K] in
theorem le_roundHalfEven {k : ℤ} {x : K} (below : (k : K) ≤ x) : k ≤ roundHalfEven x :=
  (Int.le_floor.mpr below).trans (floor_le_roundHalfEven x)

omit [IsStrictOrderedRing K] in
theorem roundHalfEven_le_floor_add_one (x : K) : roundHalfEven x ≤ ⌊x⌋ + 1 := by
  simp only [roundHalfEven]
  split
  · omega
  · split
    · omega
    · split <;> omega

/-- Rounding is monotone. -/
theorem roundHalfEven_mono {x y : K} (below : x ≤ y) : roundHalfEven x ≤ roundHalfEven y := by
  have upper := roundHalfEven_le_floor_add_one x
  have lower := floor_le_roundHalfEven y
  rcases (Int.floor_le_floor below).lt_or_eq with apart | same
  · omega
  · by_cases down : roundHalfEven y = ⌊y⌋
    · have fracts : Int.fract x ≤ Int.fract y := by
        rw [Int.fract, Int.fract, same]
        linarith
      have alsoDown : RoundsDown x := by
        rcases (roundHalfEven_eq_floor_iff y).mp down with small | ⟨tie, even⟩
        · left
          linarith
        · rcases (tie ▸ fracts).lt_or_eq with small | alsoTie
          · exact Or.inl small
          · exact Or.inr ⟨alsoTie, same ▸ even⟩
      rw [(roundHalfEven_eq_floor_iff x).mpr alsoDown, down, same]
    · omega

/-! ## Floats -/

/-- The exponent of the last of the `bits` significant digits of `x`. -/
def lastExponent (bits : ℕ) (x : K) : ℤ :=
  Int.log 2 |x| - (bits - 1)

/-- The float with `bits` significant digits nearest to `x`. -/
def nearest (bits : ℕ) (x : K) : K :=
  roundHalfEven (x / 2 ^ lastExponent bits x) * 2 ^ lastExponent bits x

/-- A number that has few enough digits is its own float. -/
theorem nearest_eq_self {bits : ℕ} {x : K} {k : ℤ} (grid : x = k * 2 ^ lastExponent bits x) :
    nearest bits x = x := by
  have unit : (2 : K) ^ lastExponent bits x ≠ 0 := zpow_ne_zero _ two_ne_zero
  have digits : x / 2 ^ lastExponent bits x = k := by
    rw [div_eq_iff unit]
    exact grid
  rw [nearest, digits, roundHalfEven_intCast]
  exact grid.symm

/-- The relative error of rounding to a float. -/
theorem abs_nearest_sub_le {bits : ℕ} {x : K} (positive : 0 < x) :
    |nearest bits x - x| ≤ x / 2 ^ bits := by
  have unit : (0 : K) < 2 ^ lastExponent bits x := zpow_pos two_pos _
  have scaled : nearest bits x - x =
      (roundHalfEven (x / 2 ^ lastExponent bits x) - x / 2 ^ lastExponent bits x) *
        2 ^ lastExponent bits x := by
    rw [nearest, sub_mul, div_mul_cancel₀ _ unit.ne']
  have lastDigit : 1 / 2 * (2 : K) ^ lastExponent bits x = 2 ^ Int.log 2 x / 2 ^ bits := by
    have shift : lastExponent bits x = Int.log 2 x - bits + 1 := by
      rw [lastExponent, abs_of_pos positive]
      ring
    rw [shift, zpow_add_one₀ two_ne_zero, zpow_sub₀ two_ne_zero, zpow_natCast]
    ring
  have leading : (2 : K) ^ Int.log 2 x ≤ x := by
    exact_mod_cast Int.zpow_log_le_self Nat.one_lt_two positive
  calc |nearest bits x - x|
      = |(roundHalfEven (x / 2 ^ lastExponent bits x) : K) - x / 2 ^ lastExponent bits x| *
          2 ^ lastExponent bits x := by rw [scaled, abs_mul, abs_of_pos unit]
    _ ≤ 1 / 2 * 2 ^ lastExponent bits x :=
        mul_le_mul_of_nonneg_right (abs_roundHalfEven_sub_le _) unit.le
    _ = 2 ^ Int.log 2 x / 2 ^ bits := lastDigit
    _ ≤ x / 2 ^ bits := div_le_div_of_nonneg_right leading (by positivity)

/-- A float is at least the power of two below the number. -/
theorem pow_le_nearest {bits : ℕ} {x : K} (digits : 1 ≤ bits) (positive : 0 < x) :
    2 ^ Int.log 2 x ≤ nearest bits x := by
  have leading : (2 : K) ^ Int.log 2 x ≤ x := by
    exact_mod_cast Int.zpow_log_le_self Nat.one_lt_two positive
  have unit : (0 : K) < 2 ^ lastExponent bits x := zpow_pos two_pos _
  have shift : Int.log 2 x = ((bits - 1 : ℕ) : ℤ) + lastExponent bits x := by
    rw [lastExponent, abs_of_pos positive]
    push_cast [digits]
    ring
  have fits : (((2 : ℤ) ^ (bits - 1) : ℤ) : K) ≤ x / 2 ^ lastExponent bits x := by
    rw [le_div_iff₀ unit]
    push_cast
    rw [← zpow_natCast, ← zpow_add₀ two_ne_zero, ← shift]
    exact leading
  have rounded : (((2 : ℤ) ^ (bits - 1) : ℤ) : K) ≤
      roundHalfEven (x / 2 ^ lastExponent bits x) := by
    exact_mod_cast le_roundHalfEven fits
  calc (2 : K) ^ Int.log 2 x
      = ((2 : ℤ) ^ (bits - 1) : ℤ) * 2 ^ lastExponent bits x := by
        rw [shift, zpow_add₀ two_ne_zero, zpow_natCast]
        push_cast
        rfl
    _ ≤ nearest bits x := mul_le_mul_of_nonneg_right rounded unit.le

/-- Rounding never goes below a float. -/
theorem le_nearest {bits : ℕ} {x y : K} {k : ℤ} (digits : 1 ≤ bits) (positive : 0 < y)
    (grid : y = k * 2 ^ lastExponent bits y) (below : y ≤ x) : y ≤ nearest bits x := by
  have xPositive := positive.trans_le below
  rcases (Int.log_mono_right (b := 2) positive below).eq_or_lt with same | smaller
  · have sameExponent : lastExponent bits y = lastExponent bits x := by
      rw [lastExponent, lastExponent, abs_of_pos positive, abs_of_pos xPositive, same]
    have unit : (0 : K) < 2 ^ lastExponent bits x := zpow_pos two_pos _
    rw [sameExponent] at grid
    have fits : (k : K) ≤ x / 2 ^ lastExponent bits x := by
      rw [le_div_iff₀ unit, ← grid]
      exact below
    have rounded : (k : K) ≤ roundHalfEven (x / 2 ^ lastExponent bits x) := by
      exact_mod_cast le_roundHalfEven fits
    calc y = k * 2 ^ lastExponent bits x := grid
      _ ≤ nearest bits x := mul_le_mul_of_nonneg_right rounded unit.le
  · calc y ≤ 2 ^ (Int.log 2 y + 1) := by
          exact_mod_cast (Int.lt_zpow_succ_log_self Nat.one_lt_two y).le
      _ ≤ 2 ^ Int.log 2 x := zpow_le_zpow_right₀ one_le_two smaller
      _ ≤ nearest bits x := pow_le_nearest digits xPositive

/-- Halves with at most `bits` digits are floats. -/
theorem half_grid {bits m : ℕ} (positive : 0 < m) (small : m < 2 ^ bits) :
    ∃ k : ℤ, (m : K) / 2 = k * 2 ^ lastExponent bits ((m : K) / 2) := by
  have halfPositive : (0 : K) < m / 2 := by positivity
  have below : (m : K) / 2 < ((2 : ℕ) : K) ^ ((bits : ℤ) - 1) := by
    have cast : (m : K) < 2 ^ bits := by exact_mod_cast small
    rw [div_lt_iff₀ two_pos]
    push_cast
    rw [← zpow_add_one₀ two_ne_zero, sub_add_cancel, zpow_natCast]
    exact cast
  have exponent : lastExponent bits ((m : K) / 2) ≤ -1 := by
    have logSmall := (Int.lt_zpow_iff_log_lt Nat.one_lt_two halfPositive).mp below
    rw [lastExponent, abs_of_pos halfPositive]
    omega
  obtain ⟨shift, isShift⟩ := Int.eq_ofNat_of_zero_le
    (show 0 ≤ -1 - lastExponent bits ((m : K) / 2) by omega)
  have total : ((shift : ℤ) + lastExponent bits ((m : K) / 2)) = -1 := by omega
  refine ⟨m * 2 ^ shift, ?_⟩
  push_cast
  rw [mul_assoc, ← zpow_natCast, ← zpow_add₀ two_ne_zero, total, zpow_neg_one, div_eq_mul_inv]

/-- A short natural number is a multiple of the last digit of a float of its size. -/
theorem natCast_grid {bits m : ℕ} (positive : 0 < m) (small : 2 * m < 2 ^ bits) :
    ∃ k : ℤ, (m : K) = k * 2 ^ lastExponent bits (m : K) := by
  have half := half_grid (K := K) (show 0 < 2 * m by omega) small
  have whole : ((2 * m : ℕ) : K) / 2 = m := by
    push_cast
    exact mul_div_cancel_left₀ _ two_ne_zero
  rwa [whole] at half

/-- A short natural number is its own float. -/
theorem nearest_natCast {bits m : ℕ} (positive : 0 < m) (small : 2 * m < 2 ^ bits) :
    nearest bits (m : K) = m :=
  nearest_eq_self (natCast_grid positive small).choose_spec

/-- Half of a length, rounded, lies within the length. -/
theorem roundHalfEven_nearest_half {bits : ℕ} {length : ℤ} (digits : 1 ≤ bits)
    (nonneg : 0 ≤ length) :
    0 ≤ roundHalfEven (nearest bits ((length : K) / 2)) ∧
      roundHalfEven (nearest bits ((length : K) / 2)) ≤ length := by
  rcases nonneg.eq_or_lt with rfl | long
  · have zero : roundHalfEven (0 : K) = 0 := by
      simpa using roundHalfEven_intCast (K := K) 0
    simp [nearest, zero]
  · have positive : (0 : K) < length / 2 := half_pos (by exact_mod_cast long)
    have power : (2 : K) ≤ 2 ^ bits := le_self_pow₀ one_le_two (by omega)
    have relative : (length : K) / 2 / 2 ^ bits ≤ length / 2 / 2 :=
      div_le_div_of_nonneg_left positive.le two_pos power
    have error : |nearest bits ((length : K) / 2) - length / 2| ≤ length / 2 / 2 ^ bits :=
      abs_nearest_sub_le positive
    have rounded := abs_roundHalfEven_sub_le (nearest bits ((length : K) / 2))
    rw [abs_le] at error rounded
    constructor
    · apply le_roundHalfEven
      rw [Int.cast_zero]
      linarith [error.1]
    · -- The float is off by at most a quarter of the length, the integer by a half.
      have below : (roundHalfEven (nearest bits ((length : K) / 2)) : K) < length + 1 := by
        linarith [error.2, rounded.2]
      exact Int.lt_add_one_iff.mp (by exact_mod_cast below)

/-! ## Quotients of natural numbers -/

/-- Strictly between two neighbouring halves, rounding goes down after an even one. -/
theorem roundsDown_between {m : ℤ} {x : K} (above : (m : K) / 2 < x)
    (below : x < ((m : K) + 1) / 2) : RoundsDown x ↔ Even m := by
  rcases Int.even_or_odd' m with ⟨k, rfl | rfl⟩
  · push_cast at above below
    have floor : ⌊x⌋ = k := by
      rw [Int.floor_eq_iff]
      constructor <;> linarith
    have fract : Int.fract x < 1 / 2 := by
      rw [Int.fract, floor]
      linarith
    exact ⟨fun _ => even_two_mul k, fun _ => .inl fract⟩
  · push_cast at above below
    have floor : ⌊x⌋ = k := by
      rw [Int.floor_eq_iff]
      constructor <;> linarith
    have fract : 1 / 2 < Int.fract x := by
      rw [Int.fract, floor]
      linarith
    constructor
    · rintro (small | ⟨tie, _⟩)
      · exact absurd small fract.le.not_gt
      · exact absurd tie fract.ne'
    · intro even
      rw [Int.even_iff] at even
      omega

/-- The floor of a quotient is the quotient of the naturals. -/
theorem floor_div (n d : ℕ) : ⌊(n : K) / d⌋ = ((n / d : ℕ) : ℤ) := by
  rw [Int.floor_div_natCast, Int.floor_natCast, Int.natCast_div]

/-- Whether a quotient is rounded down is decided by its remainder. -/
theorem roundsDown_div (n : ℕ) {d : ℕ} (positive : 0 < d) :
    RoundsDown ((n : K) / d) ↔ 2 * (n % d) < d ∨ 2 * (n % d) = d ∧ Even (n / d) := by
  have cast : (0 : K) < d := by exact_mod_cast positive
  have fract : Int.fract ((n : K) / d) = ((n % d : ℕ) : K) / d :=
    Int.fract_div_natCast_eq_div_natCast_mod
  rw [RoundsDown, floor_div, fract, div_lt_div_iff₀ cast two_pos,
    div_eq_div_iff cast.ne' two_ne_zero, one_mul, Int.even_coe_nat, mul_comm _ (2 : K)]
  norm_cast

theorem floor_between {m : ℤ} {x : K} (above : (m : K) / 2 < x)
    (below : x < ((m : K) + 1) / 2) : ⌊x⌋ = m / 2 := by
  rcases Int.even_or_odd' m with ⟨k, rfl | rfl⟩
  · push_cast at above below
    rw [Int.floor_eq_iff, Int.mul_ediv_cancel_left _ two_ne_zero]
    constructor <;> linarith
  · push_cast at above below
    have half : (2 * k + 1) / 2 = k := by omega
    rw [Int.floor_eq_iff, half]
    constructor <;> linarith

/-- A quotient with a short numerator is a float, or lies with its float strictly between the
same two halves. -/
theorem nearest_div_cases {bits n d : ℕ} (numerator : 0 < n) (denominator : 0 < d)
    (short : 2 * n < 2 ^ bits) :
    nearest bits ((n : K) / d) = n / d ∨
      ∃ m : ℤ, (∀ x : K, x = n / d ∨ x = nearest bits ((n : K) / d) →
        (m : K) / 2 < x ∧ x < ((m : K) + 1) / 2) := by
  have castD : (0 : K) < d := by exact_mod_cast denominator
  have castN : (0 : K) < n := by exact_mod_cast numerator
  have halves : (d : K) * ((2 * n / d : ℕ) : K) + ((2 * n % d : ℕ) : K) = 2 * n := by
    exact_mod_cast Nat.div_add_mod (2 * n) d
  rcases Nat.eq_zero_or_pos (2 * n % d) with even | remainder
  · left
    have half : (n : K) / d = ((2 * n / d : ℕ) : K) / 2 := by
      rw [even, Nat.cast_zero, add_zero] at halves
      rw [div_eq_div_iff castD.ne' two_ne_zero]
      linarith
    have positive : 0 < 2 * n / d :=
      Nat.div_pos (Nat.le_of_dvd (by omega) (Nat.dvd_of_mod_eq_zero even)) denominator
    obtain ⟨k, grid⟩ := half_grid (K := K) positive ((Nat.div_le_self _ _).trans_lt short)
    rw [half]
    exact nearest_eq_self grid
  · -- The rounding error is smaller than the distance to the neighbouring halves.
    right
    have error : |nearest bits ((n : K) / d) - n / d| < 1 / (2 * d) := by
      apply (abs_nearest_sub_le (div_pos castN castD)).trans_lt
      have cast : 2 * (n : K) < 2 ^ bits := by exact_mod_cast short
      rw [div_div, div_lt_div_iff₀ (by positivity) (by positivity)]
      nlinarith
    have lower : (1 : K) ≤ ((2 * n % d : ℕ) : K) := by exact_mod_cast remainder
    have upper : ((2 * n % d : ℕ) : K) + 1 ≤ d := by exact_mod_cast Nat.mod_lt _ denominator
    have parts : (n : K) / d = ((2 * n / d : ℕ) : K) / 2 + ((2 * n % d : ℕ) : K) / (2 * d) := by
      field_simp
      linarith
    have lowerGap : 1 / (2 * d) ≤ ((2 * n % d : ℕ) : K) / (2 * d) :=
      div_le_div_of_nonneg_right lower (by positivity)
    have upperGap : ((2 * n % d : ℕ) : K) / (2 * d) + 1 / (2 * d) ≤ 1 / 2 := by
      rw [← add_div, div_le_div_iff₀ (by positivity) two_pos]
      linarith
    have gap : (0 : K) < 1 / (2 * d) := by positivity
    rw [abs_lt] at error
    refine ⟨(2 * n / d : ℕ), ?_⟩
    rintro x (rfl | rfl)
    · rw [Int.cast_natCast]
      constructor <;> linarith
    · rw [Int.cast_natCast]
      constructor <;> linarith

/-- A quotient with a short numerator rounds the same way after rounding to a float. -/
theorem roundsDown_nearest_div {bits n d : ℕ} (numerator : 0 < n) (denominator : 0 < d)
    (short : 2 * n < 2 ^ bits) :
    RoundsDown (nearest bits ((n : K) / d)) ↔
      2 * (n % d) < d ∨ 2 * (n % d) = d ∧ Even (n / d) := by
  rw [← roundsDown_div (K := K) n denominator]
  rcases nearest_div_cases (K := K) numerator denominator short with same | ⟨m, between⟩
  · rw [same]
  · obtain ⟨aboveExact, belowExact⟩ := between _ (.inl rfl)
    obtain ⟨above, below⟩ := between _ (.inr rfl)
    rw [roundsDown_between above below, roundsDown_between aboveExact belowExact]

/-- Taking the float of a short quotient does not change its floor. -/
theorem floor_nearest_div {bits n d : ℕ} (numerator : 0 < n) (denominator : 0 < d)
    (short : 2 * n < 2 ^ bits) : ⌊nearest bits ((n : K) / d)⌋ = ((n / d : ℕ) : ℤ) := by
  rw [← floor_div (K := K) n d]
  rcases nearest_div_cases (K := K) numerator denominator short with same | ⟨m, between⟩
  · rw [same]
  · obtain ⟨aboveExact, belowExact⟩ := between _ (.inl rfl)
    obtain ⟨above, below⟩ := between _ (.inr rfl)
    rw [floor_between above below, floor_between aboveExact belowExact]

end VisionApi.Foundation
