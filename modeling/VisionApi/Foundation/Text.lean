import Mathlib.Data.List.Basic

/-!
# Texts joined by a separator

Texts that are joined by a separator are told apart by the result, if the separator
does not occur in the parts that come before it.

The lemmas are about lists of items and are applied to the characters of names and
keys.  The first three are about two parts and one separator between them: a part
without the separator reaches to its first occurrence, or back to its last one.  The
last two are about any number of parts, in lists of the same length.
-/

namespace VisionApi.Foundation

variable {separator : Char}

/-- A text without the separator is determined by what it is followed by. -/
theorem append_separator_injective {left right leftRest rightRest : List Char}
    (leftFree : separator ∉ left) (rightFree : separator ∉ right)
    (same : left ++ separator :: leftRest = right ++ separator :: rightRest) :
    left = right ∧ leftRest = rightRest := by
  induction left generalizing right with
  | nil =>
      cases right with
      | nil => exact ⟨rfl, (List.cons.inj same).2⟩
      | cons char right => exact absurd (List.cons.inj same).1 (List.ne_of_not_mem_cons rightFree)
  | cons char left ih =>
      cases right with
      | nil => exact absurd (List.cons.inj same).1.symm (List.ne_of_not_mem_cons leftFree)
      | cons other right =>
          rcases List.cons.inj same with ⟨rfl, sameTail⟩
          rcases ih (List.not_mem_of_not_mem_cons leftFree)
            (List.not_mem_of_not_mem_cons rightFree) sameTail with ⟨rfl, sameRest⟩
          exact ⟨rfl, sameRest⟩

/-- A text without the separator is determined by what comes before it. -/
theorem append_separator_injective_right {left right leftRest rightRest : List Char}
    (leftFree : separator ∉ leftRest) (rightFree : separator ∉ rightRest)
    (same : left ++ separator :: leftRest = right ++ separator :: rightRest) :
    left = right ∧ leftRest = rightRest := by
  have reversed := congrArg List.reverse same
  simp only [List.reverse_append, List.reverse_cons, List.append_assoc, List.singleton_append]
    at reversed
  rcases append_separator_injective (mt List.mem_reverse.mp leftFree)
    (mt List.mem_reverse.mp rightFree) reversed with ⟨sameRest, sameText⟩
  exact ⟨List.reverse_injective sameText, List.reverse_injective sameRest⟩

/-- A text with one separator is split there only. -/
theorem append_separator_unique {left right leftRest rightRest : List Char}
    (leftFree : separator ∉ left) (restFree : separator ∉ leftRest)
    (same : left ++ separator :: leftRest = right ++ separator :: rightRest) :
    left = right ∧ leftRest = rightRest := by
  have counts := congrArg (List.count separator) same
  rw [List.count_append, List.count_append, List.count_cons_self, List.count_cons_self,
    List.count_eq_zero.mpr leftFree, List.count_eq_zero.mpr restFree] at counts
  have rightFree : separator ∉ right := by
    apply List.count_eq_zero.mp
    omega
  exact append_separator_injective leftFree rightFree same

/-- As many texts without the separator are determined by the joined text. -/
theorem intercalate_injective {left right : List (List Char)}
    (sameLength : left.length = right.length) (leftFree : ∀ text ∈ left, separator ∉ text)
    (rightFree : ∀ text ∈ right, separator ∉ text)
    (same : [separator].intercalate left = [separator].intercalate right) : left = right := by
  induction left generalizing right with
  | nil => exact (List.eq_nil_of_length_eq_zero sameLength.symm).symm
  | cons first left ih =>
      cases right with
      | nil => cases sameLength
      | cons other right =>
          have firstFree := leftFree first List.mem_cons_self
          have otherFree := rightFree other List.mem_cons_self
          have lengths := Nat.succ.inj sameLength
          cases left with
          | nil =>
              cases List.eq_nil_of_length_eq_zero lengths.symm
              simpa using same
          | cons second left =>
              cases right with
              | nil => cases lengths
              | cons another right =>
                  simp only [List.intercalate, List.intersperse_cons_cons, List.flatten_cons,
                    List.singleton_append] at same ih
                  rcases append_separator_injective firstFree otherFree same with ⟨rfl, rest⟩
                  rw [ih lengths (List.forall_mem_of_forall_mem_cons leftFree)
                    (List.forall_mem_of_forall_mem_cons rightFree) rest]

/-- The same for texts as strings. -/
theorem stringIntercalate_injective {left right : List String}
    (sameLength : left.length = right.length) (leftFree : ∀ text ∈ left, separator ∉ text.toList)
    (rightFree : ∀ text ∈ right, separator ∉ text.toList)
    (same : (String.singleton separator).intercalate left =
      (String.singleton separator).intercalate right) : left = right := by
  have sameLists := congrArg String.toList same
  rw [String.toList_intercalate, String.toList_intercalate, String.toList_singleton] at sameLists
  have mapped := intercalate_injective (by simpa using sameLength) (by simpa using leftFree)
    (by simpa using rightFree) sameLists
  exact List.map_injective_iff.mpr (fun _ _ => String.toList_inj.mp) mapped

end VisionApi.Foundation
