import Mathlib.Data.List.Sort
import Mathlib.Data.Prod.Lex

/-!
# Sorted sets

A finite set of members with scores, kept in the order of the scores.  Adding a
member that is present moves it to its new score.

The structure carries the proofs that the entries are sorted and that no member
occurs twice, so that every operation is shown to keep both once and for all.  The
operations are those of a sorted set in Redis, with the range of scores given by a
predicate: `keep` removes the entries outside of a range, `count` counts those inside,
`first?` is the entry with the least score.

How an insertion changes a count depends on whether the member was present and
where: `count_insert` is the exact equation.
-/

namespace VisionApi.Foundation

universe u v

/-- Distinct members in the order of their scores, then of the members. -/
structure SortedSet (Score : Type u) (Member : Type v) [LinearOrder Score]
    [LinearOrder Member] where
  entries : List (Score × Member)
  sorted : entries.Pairwise fun first second => toLex first ≤ toLex second
  distinct : (entries.map Prod.snd).Nodup

namespace SortedSet

variable {Score : Type u} {Member : Type v} [LinearOrder Score] [LinearOrder Member]

/-- No members. -/
def empty : SortedSet Score Member :=
  ⟨[], .nil, .nil⟩

/-- The number of members. -/
def card (set : SortedSet Score Member) : ℕ :=
  set.entries.length

/-- The entry with the least score. -/
def first? (set : SortedSet Score Member) : Option (Score × Member) :=
  set.entries.head?

/-- The number of members whose score satisfies a condition. -/
def count (set : SortedSet Score Member) (condition : Score → Bool) : ℕ :=
  set.entries.countP fun entry => condition entry.1

/-- The members whose score satisfies a condition. -/
def keep (set : SortedSet Score Member) (condition : Score → Bool) : SortedSet Score Member where
  entries := set.entries.filter fun entry => condition entry.1
  sorted := set.sorted.filter _
  distinct := set.distinct.sublist (List.filter_sublist.map Prod.snd)

/-- The other members, and this one with its new score. -/
def insert (set : SortedSet Score Member) (score : Score) (member : Member) :
    SortedSet Score Member where
  entries := (set.entries.filter fun entry => entry.2 ≠ member).orderedInsert
    (fun first second => toLex first ≤ toLex second) (score, member)
  sorted := (set.sorted.filter _).orderedInsert _ _
  distinct := by
    have permuted := (List.perm_orderedInsert
      (fun first second : Score × Member => toLex first ≤ toLex second) (score, member)
      (set.entries.filter fun entry => entry.2 ≠ member)).map Prod.snd
    rw [permuted.nodup_iff, List.map_cons, List.nodup_cons]
    constructor
    · simp
    · exact set.distinct.sublist (List.filter_sublist.map Prod.snd)

theorem card_keep (set : SortedSet Score Member) (condition : Score → Bool) :
    (set.keep condition).card = set.count condition := by
  simp [card, keep, count, List.countP_eq_length_filter]

/-- Counting after a removal counts those that were kept. -/
theorem count_keep (set : SortedSet Score Member) (condition other : Score → Bool) :
    (set.keep condition).count other = set.count fun score => other score && condition score := by
  simp [keep, count, List.countP_filter]

/-- The entries that are kept. -/
theorem mem_entries_keep {set : SortedSet Score Member} {condition : Score → Bool}
    {entry : Score × Member} :
    entry ∈ (set.keep condition).entries ↔ entry ∈ set.entries ∧ condition entry.1 := by
  simp [keep]

/-- The new entry, and the old ones of other members. -/
theorem mem_entries_insert {set : SortedSet Score Member} {score : Score} {member : Member}
    {entry : Score × Member} :
    entry ∈ (set.insert score member).entries ↔
      entry = (score, member) ∨ entry ∈ set.entries ∧ entry.2 ≠ member := by
  simp [insert]

/-- Adding a member adds one at most. -/
theorem card_insert_le (set : SortedSet Score Member) (score : Score) (member : Member) :
    (set.insert score member).card ≤ set.card + 1 := by
  rw [card, insert, List.orderedInsert_length]
  exact Nat.succ_le_succ (List.length_filter_le _ _)

/-- A set with some of the entries of another one is not larger. -/
theorem card_le_of_subset {set other : SortedSet Score Member}
    (subset : ∀ entry ∈ set.entries, entry ∈ other.entries) : set.card ≤ other.card :=
  List.Nodup.length_le_of_subset (List.Nodup.of_map Prod.snd set.distinct)
    fun entry isEntry => subset entry isEntry

/-- A set with some of the entries of another one, but not all, is smaller. -/
theorem card_lt_of_subset {set other : SortedSet Score Member}
    (subset : ∀ entry ∈ set.entries, entry ∈ other.entries) {missing : Score × Member}
    (isOther : missing ∈ other.entries) (isMissing : missing ∉ set.entries) :
    set.card < other.card := by
  have distinct : (missing :: set.entries).Nodup :=
    List.nodup_cons.mpr ⟨isMissing, List.Nodup.of_map Prod.snd set.distinct⟩
  apply List.Nodup.length_le_of_subset distinct
  intro entry isEntry
  rcases List.mem_cons.mp isEntry with rfl | inSet
  · exact isOther
  · exact subset entry inSet

/-- The first entry has the least score. -/
theorem score_le_of_first? {set : SortedSet Score Member} {first : Score × Member}
    (isFirst : set.first? = some first) {entry : Score × Member} (isEntry : entry ∈ set.entries) :
    first.1 ≤ entry.1 := by
  have sorted := set.sorted
  rw [first?, List.head?_eq_some_iff] at isFirst
  rcases isFirst with ⟨rest, isCons⟩
  rw [isCons] at sorted isEntry
  rcases List.mem_cons.mp isEntry with rfl | isLater
  · exact le_rfl
  · exact Prod.Lex.monotone_fst _ _ ((List.pairwise_cons.mp sorted).1 entry isLater)

/-- A new member adds one to the counts its score belongs to. -/
theorem count_insert {set : SortedSet Score Member} (score : Score) {member : Member}
    (fresh : ∀ entry ∈ set.entries, entry.2 ≠ member) (condition : Score → Bool) :
    (set.insert score member).count condition =
      set.count condition + if condition score then 1 else 0 := by
  have others : set.entries.filter (fun entry => entry.2 ≠ member) = set.entries := by
    apply List.filter_eq_self.mpr
    intro entry entryMem
    simpa using fresh entry entryMem
  have permuted := List.perm_orderedInsert
    (fun first second : Score × Member => toLex first ≤ toLex second) (score, member) set.entries
  simp only [count, insert, others]
  rw [permuted.countP_eq, List.countP_cons]

@[simp]
theorem count_empty (condition : Score → Bool) :
    (empty : SortedSet Score Member).count condition = 0 :=
  rfl

@[simp]
theorem entries_empty : (empty : SortedSet Score Member).entries = [] :=
  rfl

/-- Conditions that agree on the scores count the same. -/
theorem count_congr {set : SortedSet Score Member} {condition other : Score → Bool}
    (same : ∀ entry ∈ set.entries, condition entry.1 = other entry.1) :
    set.count condition = set.count other := by
  apply List.countP_congr
  intro entry entryMem
  rw [same entry entryMem]

/-- Nothing is counted if no score meets the condition. -/
theorem count_eq_zero {set : SortedSet Score Member} {condition : Score → Bool}
    (never : ∀ entry ∈ set.entries, ¬condition entry.1) : set.count condition = 0 := by
  apply List.countP_eq_zero.mpr
  intro entry entryMem
  exact never entry entryMem

end SortedSet

end VisionApi.Foundation
