/-!
# Dictionaries in insertion order

A dictionary is the list of its entries in the order in which their keys were
first assigned.  Assigning an existing key keeps its position.

This is the dictionary of Python: `get?` reads a key, `set` assigns one, and the
order of the entries is what iterating over the dictionary shows.  The type does not
say that keys are distinct, since `set` keeps them so; `nodup` hypotheses appear only
where a dictionary comes from elsewhere.

The laws of reading after writing are `get?_set_self` and `get?_set_ne`.  For loops
that fill a dictionary, `foldl_set_eq` says that assigning fresh keys one after
another appends the entries.
-/

namespace VisionApi.Foundation

universe u v

/-- Entries in the order of their first assignment. -/
abbrev Dict (Key : Type u) (Value : Type v) := List (Key × Value)

namespace Dict

variable {Key : Type u} {Value : Type v} [DecidableEq Key]

/-- The value of a key, if it has one. -/
def get? : Dict Key Value → Key → Option Value
  | [], _ => none
  | (known, value) :: entries, key => if known = key then some value else get? entries key

/-- `dict[key] = value` -/
def set : Dict Key Value → Key → Value → Dict Key Value
  | [], key, value => [(key, value)]
  | (known, old) :: entries, key, value =>
      if known = key then (known, value) :: entries else (known, old) :: set entries key value

/-- The same keys with converted values. -/
def mapValues {Result : Type v} (dict : Dict Key Value) (convert : Value → Result) :
    Dict Key Result :=
  dict.map fun entry => (entry.1, convert entry.2)

/-- The dictionary of entries that are assigned in order. -/
def ofList (entries : List (Key × Value)) : Dict Key Value :=
  entries.foldl (fun dict entry => dict.set entry.1 entry.2) []

/-- A key that was assigned has its new value. -/
@[simp]
theorem get?_set_self (dict : Dict Key Value) (key : Key) (value : Value) :
    (dict.set key value).get? key = some value := by
  induction dict with
  | nil => simp [set, get?]
  | cons entry entries ih =>
      rcases entry with ⟨known, old⟩
      by_cases same : known = key <;> simp [set, get?, same, ih]

/-- Assigning a key leaves the others alone. -/
theorem get?_set_ne (dict : Dict Key Value) {key other : Key} (apart : other ≠ key)
    (value : Value) : (dict.set key value).get? other = dict.get? other := by
  induction dict with
  | nil => simp [set, get?, apart.symm]
  | cons entry entries ih =>
      rcases entry with ⟨known, old⟩
      by_cases same : known = key
      · subst same
        simp [set, get?, apart.symm]
      · simp [set, get?, same, ih]

/-- A new key comes last. -/
theorem set_of_notMem {dict : Dict Key Value} {key : Key} (fresh : key ∉ dict.map Prod.fst)
    (value : Value) : dict.set key value = dict ++ [(key, value)] := by
  induction dict with
  | nil => rfl
  | cons entry entries ih =>
      rcases entry with ⟨known, old⟩
      rw [List.map_cons, List.mem_cons, not_or] at fresh
      simp only [set, if_neg (Ne.symm fresh.1), ih fresh.2, List.cons_append]

theorem get?_mapValues {Result : Type v} (dict : Dict Key Value) (convert : Value → Result)
    (key : Key) : (dict.mapValues convert).get? key = (dict.get? key).map convert := by
  induction dict with
  | nil => rfl
  | cons entry entries ih =>
      rcases entry with ⟨known, value⟩
      by_cases same : known = key
      · simp [mapValues, get?, same]
      · simp only [mapValues, List.map_cons, get?, if_neg same]
        exact ih

theorem mem_of_get? {dict : Dict Key Value} {key : Key} {value : Value}
    (found : dict.get? key = some value) : (key, value) ∈ dict := by
  induction dict with
  | nil => cases found
  | cons entry entries ih =>
      rcases entry with ⟨known, old⟩
      simp only [get?] at found
      split at found
      · rename_i same
        subst same
        cases found
        exact List.mem_cons_self
      · exact List.mem_cons_of_mem _ (ih found)

theorem isSome_get?_of_mem {dict : Dict Key Value} {entry : Key × Value} (isEntry : entry ∈ dict) :
    (dict.get? entry.1).isSome = true := by
  induction dict with
  | nil => cases isEntry
  | cons first entries ih =>
      rcases first with ⟨known, old⟩
      simp only [get?]
      split
      · rfl
      · rename_i other
        rcases List.mem_cons.mp isEntry with rfl | isLater
        · exact absurd rfl other
        · exact ih isLater

/-- After an assignment the entries are the new one and old ones. -/
theorem mem_set {dict : Dict Key Value} {key : Key} {value : Value} {entry : Key × Value}
    (isEntry : entry ∈ dict.set key value) : entry = (key, value) ∨ entry ∈ dict := by
  induction dict with
  | nil => exact Or.inl (List.mem_singleton.mp isEntry)
  | cons first entries ih =>
      rcases first with ⟨known, old⟩
      simp only [set] at isEntry
      split at isEntry
      · rename_i same
        subst same
        rcases List.mem_cons.mp isEntry with rfl | isLater
        · exact Or.inl rfl
        · exact Or.inr (List.mem_cons_of_mem _ isLater)
      · rcases List.mem_cons.mp isEntry with rfl | isLater
        · exact Or.inr List.mem_cons_self
        · rcases ih isLater with isNew | isOld
          · exact Or.inl isNew
          · exact Or.inr (List.mem_cons_of_mem _ isOld)

/-- Assigning a key adds it to the keys. -/
theorem mem_keys_set {dict : Dict Key Value} {key other : Key} {value : Value} :
    other ∈ (dict.set key value).map Prod.fst ↔ other = key ∨ other ∈ dict.map Prod.fst := by
  induction dict with
  | nil => simp [set]
  | cons first entries ih =>
      rcases first with ⟨known, old⟩
      simp only [set]
      split
      · rename_i same
        subst same
        simp
      · simp only [List.map_cons, List.mem_cons, ih]
        exact or_left_comm

theorem isSome_get?_set {dict : Dict Key Value} {key : Key}
    (known : (dict.get? key).isSome = true) (other : Key) (value : Value) :
    ((dict.set other value).get? key).isSome = true := by
  by_cases same : key = other
  · subst same
    rw [get?_set_self]
    rfl
  · rw [get?_set_ne _ same]
    exact known

/-- A loop over distinct new keys appends the entries. -/
theorem foldl_set_eq {dict : Dict Key Value} {entries : List (Key × Value)}
    (distinct : (dict.map Prod.fst ++ entries.map Prod.fst).Nodup) :
    entries.foldl (fun dict entry => Dict.set dict entry.1 entry.2) dict = dict ++ entries := by
  induction entries generalizing dict with
  | nil => exact (List.append_nil dict).symm
  | cons entry entries ih =>
      have fresh : entry.1 ∉ dict.map Prod.fst := by
        intro isKnown
        exact (List.nodup_append.mp distinct).2.2 _ isKnown _ List.mem_cons_self rfl
      rw [List.foldl_cons, set_of_notMem fresh, ih, List.append_assoc]
      · rfl
      · rw [List.map_append, List.append_assoc]
        exact distinct

/-- Entries with distinct keys are the dictionary they make up. -/
theorem ofList_eq {entries : List (Key × Value)} (distinct : (entries.map Prod.fst).Nodup) :
    ofList entries = entries :=
  foldl_set_eq distinct

/-- With distinct keys, reading finds exactly the entries. -/
theorem get?_eq_some_iff {dict : Dict Key Value} (distinct : (dict.map Prod.fst).Nodup) {key : Key}
    {value : Value} : dict.get? key = some value ↔ (key, value) ∈ dict := by
  constructor
  · exact mem_of_get?
  · intro isEntry
    induction dict with
    | nil => cases isEntry
    | cons first entries ih =>
        rcases first with ⟨known, old⟩
        rw [List.map_cons, List.nodup_cons] at distinct
        rcases List.mem_cons.mp isEntry with same | isLater
        · cases same
          exact if_pos rfl
        · have other : known ≠ key := by
            rintro rfl
            exact distinct.1 (List.mem_map.mpr ⟨_, isLater, rfl⟩)
          rw [get?, if_neg other]
          exact ih distinct.2 isLater

end Dict

end VisionApi.Foundation
