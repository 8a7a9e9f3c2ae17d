import Mathlib.Data.List.Infix

/-!
# The first occurrence of a pattern

`find` is the index at which a pattern first occurs.  What comes before it is a
text in which the pattern does not occur even when all but its last item are added.

`FirstAfter` is this second formulation, which unlike an index survives changes to
the text behind the pattern: `find_append` finds the same place whatever follows, and
`eq_append_of_find` splits a text at the place that was found.  Replacing a block
between two markers is then a matter of lists.

The last lemmas are about patterns that could overlap other texts: a pattern without
a separator lies on one side of it, and a pattern does not begin inside another one
that has its first item only at the start.
-/

namespace VisionApi.Foundation

universe u

variable {Item : Type u}

/-- The index of the first occurrence. -/
def find [BEq Item] (pattern : List Item) : List Item → Option ℕ
  | [] => if pattern.isPrefixOf [] then some 0 else none
  | item :: items =>
      if pattern.isPrefixOf (item :: items) then some 0
      else (find pattern items).map (· + 1)

/-- The pattern does not occur before it follows this text. -/
def FirstAfter (pattern before : List Item) : Prop :=
  ¬pattern <:+: before ++ pattern.dropLast

/-- What comes before an occurrence may be shortened at its start. -/
theorem FirstAfter.tail {pattern before : List Item} {item : Item}
    (first : FirstAfter pattern (item :: before)) : FirstAfter pattern before := by
  intro occurs
  apply first
  rw [List.cons_append]
  exact occurs.trans (List.suffix_cons item _).isInfix

theorem prefix_extended (pattern before after : List Item) :
    before ++ pattern.dropLast <+: before ++ pattern ++ after := by
  rw [List.append_assoc, List.prefix_append_right_inj]
  exact (List.dropLast_prefix pattern).trans (List.prefix_append _ _)

/-- A text followed by the pattern does not begin with it, unless it is empty. -/
theorem FirstAfter.not_prefix {pattern before : List Item} {item : Item} (after : List Item)
    (first : FirstAfter pattern (item :: before)) :
    ¬pattern <+: item :: before ++ pattern ++ after := by
  intro begins
  apply first
  apply List.IsPrefix.isInfix
  apply List.prefix_of_prefix_length_le begins (prefix_extended pattern (item :: before) after)
  simp only [List.length_append, List.length_cons, List.length_dropLast]
  omega

variable [BEq Item] [LawfulBEq Item]

/-- A first occurrence is found where it is. -/
theorem find_append {pattern before : List Item} (after : List Item)
    (first : FirstAfter pattern before) :
    find pattern (before ++ pattern ++ after) = some before.length := by
  induction before with
  | nil =>
      have begins : pattern.isPrefixOf (pattern ++ after) = true :=
        List.isPrefixOf_iff_prefix.mpr (List.prefix_append _ _)
      rw [List.nil_append]
      cases whole : pattern ++ after with
      | nil =>
          rw [whole] at begins
          rw [find, if_pos begins, List.length_nil]
      | cons item items =>
          rw [whole] at begins
          rw [find, if_pos begins, List.length_nil]
  | cons item before ih =>
      have notHere : ¬pattern.isPrefixOf (item :: (before ++ pattern ++ after)) = true := by
        rw [List.isPrefixOf_iff_prefix]
        exact first.not_prefix after
      rw [List.cons_append, List.cons_append, find, if_neg notHere, ih first.tail]
      rfl

theorem eq_append_of_isPrefixOf {pattern text : List Item} (nonempty : pattern ≠ [])
    (begins : pattern.isPrefixOf text = true) :
    ∃ before after, text = before ++ pattern ++ after ∧ before.length = 0 ∧
      FirstAfter pattern before := by
  rcases List.isPrefixOf_iff_prefix.mp begins with ⟨after, isText⟩
  refine ⟨[], after, isText.symm, rfl, ?_⟩
  intro occurs
  have short := occurs.length_le
  have positive := List.length_pos_of_ne_nil nonempty
  simp only [List.nil_append, List.length_dropLast] at short
  omega

/-- A text is split where a pattern is found. -/
theorem eq_append_of_find {pattern text : List Item} {index : ℕ} (nonempty : pattern ≠ [])
    (found : find pattern text = some index) :
    ∃ before after, text = before ++ pattern ++ after ∧ before.length = index ∧
      FirstAfter pattern before := by
  induction text generalizing index with
  | nil =>
      rw [find] at found
      split at found
      · rename_i begins
        cases found
        exact eq_append_of_isPrefixOf nonempty begins
      · cases found
  | cons item items ih =>
      rw [find] at found
      split at found
      · rename_i begins
        cases found
        exact eq_append_of_isPrefixOf nonempty begins
      · rename_i notHere
        rcases Option.map_eq_some_iff.mp found with ⟨later, foundLater, rfl⟩
        rcases ih foundLater with ⟨before, after, rfl, rfl, firstLater⟩
        refine ⟨item :: before, after, rfl, rfl, ?_⟩
        intro occurs
        rcases List.infix_cons_iff.mp occurs with begins | later
        · apply notHere
          rw [List.isPrefixOf_iff_prefix]
          exact begins.trans (prefix_extended pattern (item :: before) after)
        · exact firstLater later

/-! ## Patterns in parts of a text -/

omit [BEq Item] [LawfulBEq Item] in
/-- A pattern without the separator lies on one side of it. -/
theorem infix_of_separator {pattern left right : List Item} {separator : Item}
    (free : separator ∉ pattern) (occurs : pattern <:+: left ++ separator :: right) :
    pattern <:+: left ∨ pattern <:+: right := by
  rcases occurs with ⟨before, after, isText⟩
  rw [List.append_assoc, List.append_eq_append_iff] at isText
  rcases isText with ⟨middle, isLeft, rest⟩ | ⟨middle, isBefore, rest⟩
  · rw [List.append_eq_append_iff] at rest
    rcases rest with ⟨inner, isMiddle, _⟩ | ⟨inner, isPattern, rest⟩
    · left
      exact ⟨before, inner, by rw [isLeft, isMiddle, List.append_assoc]⟩
    · cases inner with
      | nil =>
          left
          exact ⟨before, [], by rw [isLeft, isPattern, List.append_nil, List.append_nil]⟩
      | cons item inner =>
          cases rest
          exact absurd (by simp [isPattern]) free
  · cases middle with
    | nil =>
        cases pattern with
        | nil => exact .inl (List.nil_infix)
        | cons item pattern =>
            cases rest
            exact absurd List.mem_cons_self free
    | cons item middle =>
        cases rest
        exact .inr ⟨middle, after, List.append_assoc _ _ _⟩

omit [BEq Item] [LawfulBEq Item] in
/-- A pattern that begins with an item which another one has only at its start does not begin
inside the other one. -/
theorem length_le_of_occurrences {pattern other before outer after rest : List Item} {item : Item}
    (startsWith : pattern.head? = some item) (onlyAtStart : item ∉ other.tail)
    (same : before ++ other ++ after = outer ++ pattern ++ rest)
    (later : before.length < outer.length) :
    (before ++ other).length ≤ outer.length := by
  by_contra inside
  rw [List.length_append] at inside
  have isItem : (outer ++ pattern ++ rest)[outer.length]? = some item := by
    cases pattern with
    | nil => cases startsWith
    | cons head pattern =>
        cases startsWith
        simp
  rw [← same, List.append_assoc, List.getElem?_append_right later.le,
    List.getElem?_append_left (by omega)] at isItem
  apply onlyAtStart
  have index : outer.length - before.length = outer.length - before.length - 1 + 1 := by omega
  rw [index, ← List.getElem?_tail] at isItem
  exact List.mem_of_getElem? isItem

end VisionApi.Foundation
