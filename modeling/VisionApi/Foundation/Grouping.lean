import Mathlib.Data.List.Perm.Lattice
import VisionApi.Foundation.Dict

/-!
# Grouping items by a key

Items are collected in the entries of a dictionary, each in the entry of its key.
An entry depends on the items of its key alone, and the entries together hold every
item once.

`collect` is the body of the usual loop: look up the key, start an entry if there is
none, extend it otherwise.  `get?_collect` says what the entry of a key is after the
loop, by induction on the items with the dictionary generalised.  The second half is
about a loop that appends the item to its entry: `flatMap_collect_perm` reads all
entries one after another and finds a permutation of the items.
-/

namespace VisionApi.Foundation

universe u v w

variable {Key : Type u} {Item : Type w} {Value : Type v} [DecidableEq Key]

namespace Dict

/-- Assigning a key keeps the keys distinct. -/
theorem nodup_keys_set {dict : Dict Key Value} (distinct : (dict.map Prod.fst).Nodup) (key : Key)
    (value : Value) : ((dict.set key value).map Prod.fst).Nodup := by
  induction dict with
  | nil => simp [set]
  | cons first entries ih =>
      rcases first with ⟨known, old⟩
      rw [List.map_cons, List.nodup_cons] at distinct
      simp only [set]
      split
      · rename_i same
        subst same
        rw [List.map_cons, List.nodup_cons]
        exact distinct
      · rename_i other
        rw [List.map_cons, List.nodup_cons]
        refine ⟨?_, ih distinct.2⟩
        intro isKey
        rcases mem_keys_set.mp isKey with same | isOld
        · exact other same
        · exact distinct.1 isOld

/-- Adds an item to the entry of its key, which starts with its first item. -/
def collect (key : Item → Key) (start : Item → Value) (extend : Value → Item → Value)
    (dict : Dict Key Value) (item : Item) : Dict Key Value :=
  dict.set (key item) (extend ((dict.get? (key item)).getD (start item)) item)

variable {key : Item → Key} {start : Item → Value} {extend : Value → Item → Value}

/-- The keys stay distinct over the whole loop. -/
theorem nodup_keys_collect {dict : Dict Key Value} (distinct : (dict.map Prod.fst).Nodup)
    (items : List Item) : ((items.foldl (collect key start extend) dict).map Prod.fst).Nodup := by
  induction items generalizing dict with
  | nil => exact distinct
  | cons item items ih => exact ih (nodup_keys_set distinct _ _)

/-- An entry is made of the items of its key. -/
theorem get?_collect (dict : Dict Key Value) (items : List Item) (wanted : Key) :
    (items.foldl (collect key start extend) dict).get? wanted =
      (items.filter fun item => key item = wanted).foldl
        (fun found item => some (extend (found.getD (start item)) item)) (dict.get? wanted) := by
  induction items generalizing dict with
  | nil => rfl
  | cons item items ih =>
      rw [List.foldl_cons, ih]
      by_cases same : key item = wanted
      · subst same
        rw [collect, get?_set_self, List.filter_cons_of_pos (by simp), List.foldl_cons]
      · rw [collect, get?_set_ne _ (Ne.symm same), List.filter_cons_of_neg (by simpa using same)]

variable {members : Value → List Item}

/-- Replacing an entry by one with one more member adds this member. -/
theorem flatMap_set_perm {dict : Dict Key Value} {wanted : Key} {value : Value} {item : Item}
    (adds : members value =
      ((dict.get? wanted).map members).getD [] ++ [item]) :
    ((dict.set wanted value).flatMap fun entry => members entry.2).Perm
      (item :: dict.flatMap fun entry => members entry.2) := by
  induction dict with
  | nil =>
      have single : members value = [item] := adds
      simp [set, single]
  | cons first entries ih =>
      rcases first with ⟨known, old⟩
      simp only [get?] at adds
      simp only [set]
      split at adds
      · rename_i same
        rw [if_pos same, List.flatMap_cons, List.flatMap_cons]
        rw [Option.map_some, Option.getD_some] at adds
        rw [adds, List.append_assoc]
        exact List.perm_middle
      · rename_i other
        rw [if_neg other, List.flatMap_cons, List.flatMap_cons]
        exact ((ih adds).append_left _).trans List.perm_middle

/-- The entries together hold every item once. -/
theorem flatMap_collect_perm (starts : ∀ item, members (start item) = [])
    (appends : ∀ value item, members (extend value item) = members value ++ [item])
    (dict : Dict Key Value) (items : List Item) :
    ((items.foldl (collect key start extend) dict).flatMap fun entry => members entry.2).Perm
      ((dict.flatMap fun entry => members entry.2) ++ items) := by
  induction items generalizing dict with
  | nil => rw [List.foldl_nil, List.append_nil]
  | cons item items ih =>
      rw [List.foldl_cons]
      refine (ih _).trans ?_
      have adds : members (extend ((dict.get? (key item)).getD (start item)) item) =
          ((dict.get? (key item)).map members).getD [] ++ [item] := by
        rw [appends]
        cases dict.get? (key item) with
        | none => rw [Option.getD_none, starts, Option.map_none, Option.getD_none]
        | some value => rw [Option.getD_some, Option.map_some, Option.getD_some]
      exact ((flatMap_set_perm adds).append_right items).trans List.perm_middle.symm

end Dict

/-- An item that occurs once in all groups together is in one of them only. -/
theorem countP_mem_eq_one [DecidableEq Item] {Group : Type*} {members : Group → List Item}
    {groups : List Group} {item : Item} (once : (groups.flatMap members).count item = 1) :
    (groups.countP fun group => item ∈ members group) = 1 := by
  have bounds : 0 < (groups.countP fun group => item ∈ members group) ∧
      (groups.countP fun group => item ∈ members group) ≤
        (groups.flatMap members).count item := by
    constructor
    · have isMember := List.count_pos_iff.mp (once ▸ Nat.one_pos)
      rcases List.mem_flatMap.mp isMember with ⟨group, isGroup, isInside⟩
      exact List.countP_pos_iff.mpr ⟨group, isGroup, by simpa using isInside⟩
    · clear once
      induction groups with
      | nil => exact Nat.le_refl _
      | cons group groups ih =>
          rw [List.countP_cons, List.flatMap_cons, List.count_append]
          by_cases isInside : item ∈ members group
          · have counted : 0 < (members group).count item := List.count_pos_iff.mpr isInside
            simp only [isInside, decide_true, if_true]
            omega
          · simp only [isInside, decide_false, Bool.false_eq_true, if_false]
            omega
  omega

end VisionApi.Foundation
