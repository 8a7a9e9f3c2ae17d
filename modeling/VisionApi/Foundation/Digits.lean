import Mathlib.Algebra.Group.Nat.Defs

/-!
# Padded decimal numbers

A number is written with at least some width of decimal digits, with zeros in front,
and read back from its digits.

Writing never truncates: a number that needs more digits than the width gets them, so
that `padded` is injective for every width.  What a reader that looks at the last
digits only gets is the number modulo a power of ten, which is `ofDigitChars_drop`.
The digits themselves are those of the standard library; only the padding is proved
here.
-/

namespace VisionApi.Foundation

/-- A number in decimal, with zeros before it up to a width. -/
def padded (width value : ℕ) : List Char :=
  List.leftpad width '0' (Nat.toDigits 10 value)

section Padded

variable {width value : ℕ} {text : List Char}

theorem isDigit_of_mem_padded {char : Char} (isChar : char ∈ padded width value) :
    char.isDigit = true := by
  simp only [padded, List.leftpad, List.mem_append, List.mem_replicate] at isChar
  rcases isChar with ⟨_, rfl⟩ | isDigit
  · rfl
  · exact Nat.isDigit_of_mem_toDigits (by decide) (by decide) isDigit

/-- A padded number is read back as itself. -/
@[simp]
theorem ofDigitChars_padded (width value : ℕ) :
    Nat.ofDigitChars 10 (padded width value) 0 = value := by
  simp only [padded, List.leftpad, Nat.ofDigitChars_append, Nat.ofDigitChars_replicate_zero,
    Nat.mul_zero, Nat.ofDigitChars_ten_toDigits]

/-- Different numbers are written differently. -/
theorem padded_injective : Function.Injective (padded width) := by
  intro left right same
  rw [← ofDigitChars_padded width left, same, ofDigitChars_padded]

/-- A number that fits the width is written with exactly that many digits. -/
theorem length_padded_of_lt (positive : 0 < width) (short : value < 10 ^ width) :
    (padded width value).length = width := by
  have isShort := (Nat.length_toDigits_le_iff (by decide) positive).mpr short
  simp only [padded, List.length_leftpad]
  exact Nat.max_eq_left isShort

theorem le_length_padded : width ≤ (padded width value).length := by
  simp only [padded, List.length_leftpad]
  exact Nat.le_max_left _ _

/-- The value of digits is below the power of their number. -/
theorem ofDigitChars_lt (digits : ∀ char ∈ text, char.isDigit = true) :
    Nat.ofDigitChars 10 text 0 < 10 ^ text.length := by
  induction text with
  | nil => decide
  | cons char text ih =>
      rw [List.forall_mem_cons] at digits
      have rest := ih digits.2
      have isDigit : char.toNat - '0'.toNat ≤ 9 := by
        have inside := digits.1
        simp only [Char.isDigit, Bool.and_eq_true, decide_eq_true_eq] at inside
        have above : char.toNat ≤ 57 := UInt32.le_iff_toNat_le.mp inside.2
        have isZero : '0'.toNat = 48 := rfl
        omega
      rw [Nat.ofDigitChars_cons, Nat.ofDigitChars_eq_ofDigitChars_zero, List.length_cons,
        Nat.pow_succ, Nat.mul_zero, Nat.zero_add]
      have scaled := Nat.mul_le_mul_left (10 ^ text.length) isDigit
      omega

/-- The last digits of a number are its remainder. -/
theorem ofDigitChars_drop (digits : ∀ char ∈ text, char.isDigit = true) {count : ℕ}
    (fits : count ≤ text.length) :
    Nat.ofDigitChars 10 (text.drop (text.length - count)) 0 =
      Nat.ofDigitChars 10 text 0 % 10 ^ count := by
  have lastDigits : ∀ char ∈ text.drop (text.length - count), char.isDigit = true :=
    fun char isChar => digits char (List.mem_of_mem_drop isChar)
  have lastLength : (text.drop (text.length - count)).length = count := by
    rw [List.length_drop]
    omega
  have below := ofDigitChars_lt lastDigits
  have whole : Nat.ofDigitChars 10 text 0 =
      10 ^ count * Nat.ofDigitChars 10 (text.take (text.length - count)) 0 +
        Nat.ofDigitChars 10 (text.drop (text.length - count)) 0 := by
    calc
      Nat.ofDigitChars 10 text 0 =
          Nat.ofDigitChars 10 (text.take (text.length - count) ++
            text.drop (text.length - count)) 0 := by rw [List.take_append_drop]
      _ = Nat.ofDigitChars 10 (text.drop (text.length - count))
          (Nat.ofDigitChars 10 (text.take (text.length - count)) 0) := Nat.ofDigitChars_append 0
      _ = _ := by rw [Nat.ofDigitChars_eq_ofDigitChars_zero, lastLength]
  rw [whole, Nat.mul_add_mod]
  rw [lastLength] at below
  exact (Nat.mod_eq_of_lt below).symm

end Padded

end VisionApi.Foundation
