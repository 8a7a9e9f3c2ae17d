import Mathlib.Data.Rat.Floor
import VisionApi.Foundation.Rounding

/-!
# Double-precision numbers

The numbers of a 64-bit float, its division and its conversion to an integer.  A
zero has no sign here, and numbers too small for 53 digits have 53 digits.

A finite float is a rational number, and an operation on floats is the exact operation
followed by `round`, which takes the nearest number of 53 digits and overflows from
`overflowBound` on.  The errors are those of Python, where dividing by zero and
converting an infinity or a NaN raise.

Most lemmas are about quotients of naturals.  If a dividend has fewer than 52 binary
digits its quotient neither overflows nor is rounded across an integer, so that the
floor of the float is the floor of the exact quotient.
-/

namespace VisionApi.Foundation

/-- A float. The infinities have a sign; a zero has none. -/
inductive Double where
  | nan
  | infinite (negative : Bool)
  | finite (value : ℚ)
deriving DecidableEq

/-- What float arithmetic raises in Python. -/
inductive FloatError where
  | zeroDivision
  | overflow
  | notANumber
deriving DecidableEq

/-- The least magnitude that rounds to an infinity. -/
def overflowBound : ℚ :=
  ((2 ^ 1024 - 2 ^ 970 : ℕ) : ℚ)

namespace Double

/-- The float that an exact result is rounded to. -/
def round (x : ℚ) : Double :=
  if overflowBound ≤ |x| then .infinite (decide (x < 0)) else .finite (nearest 53 x)

/-- Division that fails for a zero divisor, whatever is divided. -/
def div : Double → Double → Except FloatError Double
  | .finite x, .finite y => if y = 0 then .error .zeroDivision else .ok (round (x / y))
  | .infinite negative, .finite y =>
      if y = 0 then .error .zeroDivision else .ok (.infinite (negative != decide (y < 0)))
  | .nan, .finite y => if y = 0 then .error .zeroDivision else .ok .nan
  | .finite _, .infinite _ => .ok (.finite 0)
  | _, _ => .ok .nan

/-- The integer part, towards zero. -/
def toInt : Double → Except FloatError ℤ
  | .nan => .error .notANumber
  | .infinite _ => .error .overflow
  | .finite x => .ok (if 0 ≤ x then ⌊x⌋ else ⌈x⌉)

/-- A float that is greater than zero. -/
def Positive : Double → Prop
  | .nan => False
  | .infinite negative => negative = false
  | .finite x => 0 < x

/-- `int(x / y)`. -/
def intQuotient (x y : Double) : Except FloatError ℤ :=
  (x.div y).bind toInt

/-- The quotient is infinite. -/
def Overflows : Double → Double → Prop
  | .finite x, .finite y => overflowBound ≤ |x / y|
  | .infinite _, .finite _ => True
  | _, _ => False

/-- The divisor is zero or the quotient is infinite. -/
def Raises (x y : Double) : Prop :=
  y = .finite 0 ∨ Overflows x y

end Double

/-! ## Division -/

theorem nearest_nonneg {bits : ℕ} {x : ℚ} (nonneg : 0 ≤ x) : 0 ≤ nearest bits x := by
  have unit : (0 : ℚ) < 2 ^ lastExponent bits x := zpow_pos two_pos _
  have scaled : ((0 : ℤ) : ℚ) ≤ x / 2 ^ lastExponent bits x := by
    rw [Int.cast_zero]
    exact div_nonneg nonneg unit.le
  have rounded : (0 : ℚ) ≤ roundHalfEven (x / 2 ^ lastExponent bits x) := by
    exact_mod_cast le_roundHalfEven scaled
  exact mul_nonneg rounded unit.le

theorem two_pow_le_sub {n m : ℕ} (below : n < m) : 2 ^ n ≤ 2 ^ m - 2 ^ n := by
  apply Nat.le_sub_of_add_le
  calc 2 ^ n + 2 ^ n = 2 ^ (n + 1) := by rw [pow_succ, Nat.mul_two]
    _ ≤ 2 ^ m := Nat.pow_le_pow_right Nat.two_pos below

theorem pow_le_overflowBound : (2 : ℚ) ^ 970 ≤ overflowBound := by
  have difference := two_pow_le_sub (n := 970) (m := 1024) (by omega)
  rw [overflowBound]
  exact_mod_cast difference

namespace Double

variable {x y : Double}

/-- From the bound on a result is rounded to an infinity. -/
theorem round_of_overflow {x : ℚ} (large : overflowBound ≤ |x|) :
    round x = .infinite (decide (x < 0)) :=
  if_pos large

/-- Below the bound a result is rounded to 53 digits. -/
theorem round_of_small {x : ℚ} (small : ¬overflowBound ≤ |x|) : round x = .finite (nearest 53 x) :=
  if_neg small

/-- Converting a float that is not negative takes its floor. -/
theorem toInt_of_nonneg {x : ℚ} (nonneg : 0 ≤ x) : toInt (.finite x) = .ok ⌊x⌋ := by
  rw [toInt, if_pos nonneg]

/-- Dividing and taking the integer part gives an integer or no number, unless the divisor is zero
or the quotient is infinite. -/
theorem intQuotient_cases (x y : Double) :
    (Raises x y ∧ ∃ error, intQuotient x y = .error error ∧ error ≠ .notANumber) ∨
      (¬Raises x y ∧ (intQuotient x y = .error .notANumber ∨
        ∃ whole, intQuotient x y = .ok whole)) := by
  rcases y with _ | negative | y
  · right
    refine ⟨by cases x <;> simp [Raises, Overflows], .inl ?_⟩
    cases x <;> rfl
  · right
    refine ⟨by cases x <;> simp [Raises, Overflows], ?_⟩
    rcases x with _ | other | x
    · exact .inl rfl
    · exact .inl rfl
    · exact .inr ⟨_, rfl⟩
  by_cases zero : y = 0
  · left
    refine ⟨.inl (by rw [zero]), .zeroDivision, ?_, by simp⟩
    cases x <;> simp [intQuotient, div, zero, Except.bind]
  rcases x with _ | negative | x
  · right
    refine ⟨by simp [Raises, Overflows, zero], .inl ?_⟩
    simp [intQuotient, div, zero, Except.bind, toInt]
  · left
    refine ⟨.inr trivial, .overflow, ?_, by simp⟩
    simp [intQuotient, div, zero, Except.bind, toInt]
  · by_cases large : overflowBound ≤ |x / y|
    · left
      refine ⟨.inr large, .overflow, ?_, by simp⟩
      simp [intQuotient, div, zero, round_of_overflow large, Except.bind, toInt]
    · right
      refine ⟨by simp [Raises, Overflows, zero, large], .inr ?_⟩
      simp only [intQuotient, div, zero, if_false, round_of_small large, Except.bind, toInt]
      exact ⟨_, rfl⟩

/-- A positive quotient is rounded down. -/
theorem intQuotient_of_positive {x quotient : ℚ} (positive : 0 < x) (divisor : y.Positive)
    (divides : (finite x).div y = .ok (.finite quotient)) :
    intQuotient (.finite x) y = .ok ⌊quotient⌋ := by
  have nonneg : 0 ≤ quotient := by
    rcases y with _ | negative | y
    · cases divides
    · cases divides
      exact le_rfl
    · have divisorPositive : 0 < y := divisor
      simp only [div, if_neg divisorPositive.ne'] at divides
      by_cases large : overflowBound ≤ |x / y|
      · rw [round_of_overflow large] at divides
        cases divides
      · rw [round_of_small large] at divides
        cases divides
        exact nearest_nonneg (div_nonneg positive.le divisorPositive.le)
  rw [intQuotient, divides, Except.bind, toInt_of_nonneg nonneg]

/-! ### Quotients of natural numbers -/

theorem not_overflow_of_short {n d : ℕ} (positive : 0 < d) (short : 2 * n < 2 ^ 53) :
    ¬overflowBound ≤ |(n : ℚ) / d| := by
  have atLeastOne : (1 : ℚ) ≤ d := by exact_mod_cast positive
  have below : (n : ℚ) / d ≤ n := div_le_self (Nat.cast_nonneg n) atLeastOne
  have small : (n : ℚ) < 2 ^ 53 := by
    have cast : n < 2 ^ 53 := by omega
    exact_mod_cast cast
  have powers : (2 : ℚ) ^ 53 ≤ 2 ^ 970 := pow_le_pow_right₀ one_le_two (by omega)
  rw [abs_of_nonneg (div_nonneg (Nat.cast_nonneg n) (Nat.cast_nonneg d)), not_le]
  exact (below.trans_lt small).trans_le (powers.trans pow_le_overflowBound)

theorem not_raises_of_short {n d : ℕ} (positive : 0 < d) (short : 2 * n < 2 ^ 53) :
    ¬Raises (.finite n) (.finite d) := by
  rintro (zero | overflows)
  · rw [finite.injEq, Nat.cast_eq_zero] at zero
    omega
  · exact not_overflow_of_short positive short overflows

/-- The quotient of two short integers is finite. -/
theorem div_of_short {n d : ℕ} (positive : 0 < d) (short : 2 * n < 2 ^ 53) :
    (finite n).div (.finite d) = .ok (.finite (nearest 53 ((n : ℚ) / d))) := by
  have notZero : ¬(d : ℚ) = 0 := Nat.cast_ne_zero.mpr positive.ne'
  rw [div, if_neg notZero, round_of_small (not_overflow_of_short positive short)]

end Double

end VisionApi.Foundation
