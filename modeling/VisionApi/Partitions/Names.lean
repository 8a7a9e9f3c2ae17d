import VisionApi.Foundation.Text
import VisionApi.Partitions.Schema

/-!
# The names of the partitions

Retention reads the month of a partition off the last seven characters of its
name.  They spell the year modulo ten thousand.

A name is `inference_logs_`, the year with at least four digits, an underscore and two
digits of the month.  The last seven characters therefore hold the last four digits of
the year, and reading them back gives the month in the first ten thousand years that
ends alike: `spelled` is this month, as an index, and `toDate_right_partName` says that
it is what the code reads.

Names determine their months for all years after the first (`partName_injective`), since
the padding never truncates; only reading them back does.
-/

namespace VisionApi.Partitions

open Foundation

/-- The month that the last seven characters of a name spell. -/
def spelled (index : ℤ) : ℤ :=
  index / 12 % 10000 * 12 + index % 12

/-- In years of four digits the spelled month is the month itself. -/
theorem spelled_of_lt {index : ℤ} (anno : 12 ≤ index) (short : index < 120000) :
    spelled index = index := by
  simp only [spelled]
  omega

section Names

variable {index : ℤ}

theorem toList_toChar (anno : 12 ≤ index) : (toChar (Date.first index)).toList =
    padded 4 (index / 12).toNat ++ '_' :: padded 2 ((index % 12).toNat + 1) := by
  have isYear : ¬(Date.first index).year ≤ 0 := by
    rw [Date.first_year]
    omega
  simp only [toChar, if_neg isYear, String.toList_ofList]
  rw [Date.first_year, Date.first_month]

/-- The characters of the name of a month. -/
theorem toList_partName (anno : 12 ≤ index) : (partName (Date.first index)).toList =
    "inference_logs_".toList ++
      (padded 4 (index / 12).toNat ++ '_' :: padded 2 ((index % 12).toNat + 1)) :=
  String.toList_append.trans (congrArg ("inference_logs_".toList ++ ·) (toList_toChar anno))

/-- The names of two months from year one on differ. -/
theorem partName_injective {other : ℤ} (anno : 12 ≤ index) (otherAnno : 12 ≤ other)
    (same : partName (Date.first index) = partName (Date.first other)) : index = other := by
  have sameChars := congrArg String.toList same
  rw [toList_partName anno, toList_partName otherAnno] at sameChars
  have noSeparator : ∀ year, '_' ∉ padded 4 year :=
    fun year isChar => absurd (isDigit_of_mem_padded isChar) (by decide)
  rcases append_separator_injective (noSeparator _) (noSeparator _)
    (List.append_cancel_left sameChars) with ⟨sameYear, sameMonth⟩
  have years := padded_injective sameYear
  have months := padded_injective sameMonth
  omega

theorem right_partName (anno : 12 ≤ index) : right (partName (Date.first index)) 7 =
    (padded 4 (index / 12).toNat).drop ((padded 4 (index / 12).toNat).length - 4) ++
      '_' :: padded 2 ((index % 12).toNat + 1) := by
  have isTwo : (padded 2 ((index % 12).toNat + 1)).length = 2 := by
    apply length_padded_of_lt (by decide)
    omega
  have isFour : 4 ≤ (padded 4 (index / 12).toNat).length := le_length_padded
  have isStem : "inference_logs_".toList.length = 15 := rfl
  have total : 15 + ((padded 4 (index / 12).toNat).length + (2 + 1)) - 7 =
      15 + ((padded 4 (index / 12).toNat).length - 4) := by omega
  simp only [right, toList_partName anno, List.length_append, List.length_cons, isTwo, isStem,
    total]
  rw [← isStem, List.drop_length_add_append]
  exact List.drop_append_of_le_length (Nat.sub_le _ _)

theorem readNumber_append {digits rest : List Char} (nonempty : digits ≠ [])
    (areDigits : ∀ char ∈ digits, char.isDigit = true)
    (ends : rest = [] ∨ ∃ after, rest = '_' :: after) :
    readNumber (digits ++ rest) = some (Nat.ofDigitChars 10 digits 0, rest) := by
  have stops : rest.takeWhile Char.isDigit = [] ∧ rest.dropWhile Char.isDigit = rest := by
    rcases ends with rfl | ⟨after, rfl⟩
    · exact ⟨rfl, rfl⟩
    · exact ⟨rfl, rfl⟩
  simp only [readNumber, List.takeWhile_append_of_pos areDigits, stops.1, List.append_nil,
    List.dropWhile_append_of_pos areDigits, stops.2, if_neg nonempty]

theorem toDate_of_digits {year month : List Char} (hasYear : year ≠ []) (hasMonth : month ≠ [])
    (yearDigits : ∀ char ∈ year, char.isDigit = true)
    (monthDigits : ∀ char ∈ month, char.isDigit = true)
    (inYear : 1 ≤ Nat.ofDigitChars 10 month 0 ∧ Nat.ofDigitChars 10 month 0 ≤ 12) :
    toDate (year ++ '_' :: month) = some (Date.first
      (Nat.ofDigitChars 10 year 0 * 12 + (Nat.ofDigitChars 10 month 0 - 1))) := by
  have isYear := readNumber_append hasYear yearDigits (Or.inr ⟨month, rfl⟩)
  have isMonth := readNumber_append hasMonth monthDigits (Or.inl rfl)
  rw [List.append_nil] at isMonth
  simp only [toDate, isYear, isMonth, if_pos inYear]

/-- Retention reads the spelled month. -/
theorem toDate_right_partName (anno : 12 ≤ index) :
    toDate (right (partName (Date.first index)) 7) = some (Date.first (spelled index)) := by
  have fits : 4 ≤ (padded 4 (index / 12).toNat).length := le_length_padded
  have hasMonth : 2 ≤ (padded 2 ((index % 12).toNat + 1)).length := le_length_padded
  have digits : ∀ char ∈ padded 4 (index / 12).toNat, char.isDigit = true :=
    fun char isChar => isDigit_of_mem_padded isChar
  rw [right_partName anno, toDate_of_digits]
  · rw [ofDigitChars_drop digits fits, ofDigitChars_padded, ofDigitChars_padded, spelled]
    congr 2
    omega
  · apply List.ne_nil_of_length_pos
    rw [List.length_drop]
    omega
  · apply List.ne_nil_of_length_pos
    omega
  · intro char isChar
    exact digits char (List.mem_of_mem_drop isChar)
  · intro char isChar
    exact isDigit_of_mem_padded isChar
  · rw [ofDigitChars_padded]
    omega

end Names

end VisionApi.Partitions
