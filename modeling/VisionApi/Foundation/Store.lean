import Mathlib.Logic.Function.Basic
import Mathlib.Data.List.Nodup

/-!
# Stores and lists of writes

A store maps some keys to values.  An update is a list of single writes; one
that is interrupted has performed a prefix of the list.

The writes are performed in order and the last one of a key counts.  If no key is
written twice the order does not matter: `putAll_eq` says that a key has its new
value if it was written, and its old one otherwise.
-/

namespace VisionApi.Foundation

universe u v

/-- The value of each key, if it has one. -/
abbrev Store (Key : Type u) (Value : Type v) := Key → Option Value

namespace Store

variable {Key : Type u} {Value : Type v} [DecidableEq Key]

/-- Write one value. -/
def put (store : Store Key Value) (key : Key) (value : Value) : Store Key Value :=
  Function.update store key (some value)

/-- Write values one after another. -/
def putAll : Store Key Value → List (Key × Value) → Store Key Value
  | store, [] => store
  | store, (key, value) :: writes => (store.put key value).putAll writes

/-- Writes in two lists are performed one list after the other. -/
theorem putAll_append (store : Store Key Value) (first second : List (Key × Value)) :
    store.putAll (first ++ second) = (store.putAll first).putAll second := by
  induction first generalizing store with
  | nil => rfl
  | cons write first ih => exact ih (store.put write.1 write.2)

/-- A key that is not written keeps its value. -/
theorem putAll_of_notMem {store : Store Key Value} {writes : List (Key × Value)} {key : Key}
    (untouched : key ∉ writes.map Prod.fst) : store.putAll writes key = store key := by
  induction writes generalizing store with
  | nil => rfl
  | cons write writes ih =>
      rcases write with ⟨written, value⟩
      simp only [List.map_cons, List.mem_cons, not_or] at untouched
      rw [putAll, ih untouched.2, put, Function.update_of_ne untouched.1]

/-- A key that is written once has the value written to it. -/
theorem putAll_of_mem {store : Store Key Value} {writes : List (Key × Value)} {key : Key}
    {value : Value} (once : (writes.map Prod.fst).Nodup) (write : (key, value) ∈ writes) :
    store.putAll writes key = some value := by
  induction writes generalizing store with
  | nil => cases write
  | cons first writes ih =>
      rcases first with ⟨written, stored⟩
      simp only [List.map_cons, List.nodup_cons] at once
      rcases List.mem_cons.mp write with same | later
      · cases same
        rw [putAll, putAll_of_notMem once.1, put, Function.update_self]
      · rw [putAll]
        exact ih once.2 later

/-- Every key is untouched or has a value written to it. -/
theorem putAll_eq (store : Store Key Value) {writes : List (Key × Value)}
    (once : (writes.map Prod.fst).Nodup) (key : Key) :
    (key ∉ writes.map Prod.fst ∧ store.putAll writes key = store key) ∨
      ∃ value, (key, value) ∈ writes ∧ store.putAll writes key = some value := by
  by_cases touched : key ∈ writes.map Prod.fst
  · rcases List.mem_map.mp touched with ⟨⟨written, value⟩, write, rfl⟩
    exact .inr ⟨value, write, putAll_of_mem once write⟩
  · exact .inl ⟨touched, putAll_of_notMem touched⟩

end Store

end VisionApi.Foundation
