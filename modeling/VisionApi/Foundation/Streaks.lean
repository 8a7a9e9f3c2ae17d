import Mathlib.Data.List.Infix

/-!
# Streaks

A counter that goes up with each item that passes a test and back to zero with
each other item reaches a limit exactly if that many items in a row pass.

`countOn` is the counter of the program, `HasStreak` the property that its users have
in mind.  They are related by a third notion, an initial streak, by induction on the
list with the counter generalised: a counter that stands at some number reaches the
limit if the list begins with a streak of what is missing, or has a full one later.
-/

namespace VisionApi.Foundation

universe u

variable {Item : Type u} {test : Item → Bool} {limit : ℕ}

/-- The count after one more item. -/
def countOn (test : Item → Bool) (count : ℕ) (item : Item) : ℕ :=
  if test item then count + 1 else 0

/-- The counter after some items. -/
def streak (test : Item → Bool) (count : ℕ) (items : List Item) : ℕ :=
  items.foldl (countOn test) count

/-- The count reaches the limit at some item. -/
def ReachesLimit (test : Item → Bool) (limit : ℕ) : ℕ → List Item → Prop
  | _, [] => False
  | count, item :: rest =>
      limit ≤ countOn test count item ∨ ReachesLimit test limit (countOn test count item) rest

/-- A limit is reached in the first part, or in the second one from where it began. -/
theorem reachesLimit_append {count : ℕ} (items others : List Item) :
    ReachesLimit test limit count (items ++ others) ↔
      ReachesLimit test limit count items ∨
        ReachesLimit test limit (streak test count items) others := by
  induction items generalizing count with
  | nil => simp [ReachesLimit, streak]
  | cons item rest ih =>
      rw [List.cons_append, ReachesLimit, ReachesLimit, ih, or_assoc]
      rfl

/-- So many items in a row pass. -/
def HasStreak (test : Item → Bool) (length : ℕ) (items : List Item) : Prop :=
  ∃ row, row <:+: items ∧ row.length = length ∧ ∀ item ∈ row, test item

/-- So many items at the start pass. -/
def StartsWithStreak (test : Item → Bool) (length : ℕ) (items : List Item) : Prop :=
  length ≤ items.length ∧ ∀ item ∈ items.take length, test item

theorem HasStreak.cons {length : ℕ} {items : List Item} (has : HasStreak test length items)
    (item : Item) : HasStreak test length (item :: items) := by
  rcases has with ⟨row, isInfix, isLong, passes⟩
  exact ⟨row, isInfix.trans (List.infix_cons (List.infix_refl items)), isLong, passes⟩

theorem StartsWithStreak.hasStreak {length : ℕ} {items : List Item}
    (starts : StartsWithStreak test length items) : HasStreak test length items :=
  ⟨items.take length, (List.take_prefix length items).isInfix, List.length_take_of_le starts.1,
    starts.2⟩

/-- A streak is an initial one or lies further back. -/
theorem hasStreak_cons_iff {length : ℕ} {item : Item} {rest : List Item} :
    HasStreak test length (item :: rest) ↔
      StartsWithStreak test length (item :: rest) ∨ HasStreak test length rest := by
  constructor
  · rintro ⟨row, isInfix, rfl, passes⟩
    rcases List.infix_cons_iff.mp isInfix with isPrefix | isInfix
    · left
      refine ⟨isPrefix.length_le, ?_⟩
      rw [← List.prefix_iff_eq_take.mp isPrefix]
      exact passes
    · exact .inr ⟨row, isInfix, rfl, passes⟩
  · rintro (starts | has)
    · exact starts.hasStreak
    · exact has.cons item

/-- A longer initial streak is one item and a shorter one. -/
theorem startsWithStreak_succ_iff {length : ℕ} {item : Item} {rest : List Item} :
    StartsWithStreak test (length + 1) (item :: rest) ↔
      test item ∧ StartsWithStreak test length rest := by
  simp only [StartsWithStreak, List.length_cons, Nat.add_le_add_iff_right, List.take_succ_cons,
    List.forall_mem_cons]
  exact and_left_comm

/-- The beginning of a streak is a streak. -/
theorem StartsWithStreak.shorter {length shorter : ℕ} {items : List Item}
    (starts : StartsWithStreak test length items) (isShorter : shorter ≤ length) :
    StartsWithStreak test shorter items := by
  refine ⟨isShorter.trans starts.1, ?_⟩
  intro item isFirst
  exact starts.2 item (List.take_subset_take_left items isShorter isFirst)

/-- A count below the limit reaches it in the items that continue its streak or in a streak of
their own. -/
theorem reachesLimit_iff {count : ℕ} (below : count < limit) (items : List Item) :
    ReachesLimit test limit count items ↔
      StartsWithStreak test (limit - count) items ∨ HasStreak test limit items := by
  induction items generalizing count with
  | nil =>
      have noStart : ¬ StartsWithStreak test (limit - count) [] := by
        rintro ⟨short, _⟩
        simp only [List.length_nil] at short
        omega
      have noStreak : ¬ HasStreak test limit [] := by
        rintro ⟨row, isInfix, isLong, _⟩
        rw [List.infix_nil.mp isInfix, List.length_nil] at isLong
        omega
      simp [ReachesLimit, noStart, noStreak]
  | cons item rest ih =>
      rw [ReachesLimit, hasStreak_cons_iff]
      by_cases passes : test item
      · have counted : countOn test count item = count + 1 := if_pos passes
        have start : StartsWithStreak test (limit - count) (item :: rest) ↔
            StartsWithStreak test (limit - (count + 1)) rest := by
          rw [show limit - count = limit - (count + 1) + 1 by omega, startsWithStreak_succ_iff,
            and_iff_right passes]
        have absorbed : StartsWithStreak test limit (item :: rest) →
            StartsWithStreak test (limit - count) (item :: rest) :=
          fun starts => starts.shorter (Nat.sub_le limit count)
        rw [counted]
        by_cases atLimit : limit ≤ count + 1
        · have trivialStart : StartsWithStreak test (limit - (count + 1)) rest := by
            rw [Nat.sub_eq_zero_of_le atLimit]
            exact ⟨Nat.zero_le _, by simp⟩
          simp [atLimit, start.mpr trivialStart]
        · rw [ih (by omega), ← start]
          tauto
      · have counted : countOn test count item = 0 := if_neg passes
        have noStart : ∀ length, 0 < length →
            ¬ StartsWithStreak test length (item :: rest) := by
          intro length positive starts
          obtain ⟨shorter, rfl⟩ := Nat.exists_eq_succ_of_ne_zero positive.ne'
          exact passes (startsWithStreak_succ_iff.mp starts).1
        have start : StartsWithStreak test (limit - 0) rest → HasStreak test limit rest :=
          StartsWithStreak.hasStreak
        rw [counted, ih (by omega)]
        have noCount := noStart (limit - count) (by omega)
        have noLimit := noStart limit (by omega)
        have notZero : ¬ limit ≤ 0 := by omega
        tauto

/-- A counter that starts at zero reaches the limit exactly if the items have such a streak. -/
theorem reachesLimit_zero_iff (positive : 0 < limit) (items : List Item) :
    ReachesLimit test limit 0 items ↔ HasStreak test limit items := by
  rw [reachesLimit_iff positive]
  constructor
  · rintro (starts | has)
    · exact starts.hasStreak
    · exact has
  · exact .inr

end VisionApi.Foundation
