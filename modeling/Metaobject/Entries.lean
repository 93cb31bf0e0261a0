/-!
# Entries in insertion order

Finite maps from strings whose keys are kept in the order of their first insertion. A key occurs
once: storing under a present key keeps its place and replaces its value, and erasing keeps the
order of the rest. The look-up laws say that storing and erasing act on one key only
(`find?_insert`, `find?_erase`).
-/

set_option autoImplicit false
set_option relaxedAutoImplicit false

namespace Metaobject

/-- Keys with values, in insertion order; no key occurs twice. -/
structure Entries (Content : Type) where
  toList : List (String × Content)
  keys_nodup : (toList.map Prod.fst).Nodup

namespace Entries

variable {Content : Type}

/-! ### Storing on lists of pairs -/

/-- Replaces the value of a present key in its place, or adds the pair at the end. -/
def store (key : String) (content : Content) : List (String × Content) → List (String × Content)
  | [] => [(key, content)]
  | pair :: rest =>
    if pair.1 = key then (pair.1, content) :: rest else pair :: store key content rest

theorem mem_keys_store (key other : String) (content : Content) (pairs : List (String × Content)) :
    other ∈ (store key content pairs).map Prod.fst ↔ other = key ∨ other ∈ pairs.map Prod.fst := by
  induction pairs with
  | nil => simp [store]
  | cons pair rest ih =>
    by_cases same : pair.1 = key
    · rw [store, if_pos same, List.map_cons, List.map_cons, List.mem_cons, ← same]
      exact or_self_left.symm
    · rw [store, if_neg same, List.map_cons, List.map_cons, List.mem_cons, List.mem_cons, ih]
      exact or_left_comm

theorem keys_store_nodup (key : String) (content : Content) (pairs : List (String × Content))
    (nodup : (pairs.map Prod.fst).Nodup) : ((store key content pairs).map Prod.fst).Nodup := by
  induction pairs with
  | nil => simp [store]
  | cons pair rest ih =>
    rw [List.map_cons, List.nodup_cons] at nodup
    by_cases same : pair.1 = key
    · rw [store, if_pos same, List.map_cons, List.nodup_cons]
      exact nodup
    · rw [store, if_neg same, List.map_cons, List.nodup_cons, mem_keys_store]
      exact ⟨fun present => present.elim same nodup.1, ih nodup.2⟩

/-! ### Operations -/

/-- No entries. -/
def empty : Entries Content := ⟨[], List.nodup_nil⟩

instance : Inhabited (Entries Content) := ⟨empty⟩

/-- The value under a key. -/
def find? (entries : Entries Content) (key : String) : Option Content :=
  entries.toList.lookup key

/-- Whether a key is present. -/
def contains (entries : Entries Content) (key : String) : Bool := (entries.find? key).isSome

/-- The entries with a value stored under a key. -/
def insert (entries : Entries Content) (key : String) (content : Content) : Entries Content :=
  ⟨store key content entries.toList, keys_store_nodup key content _ entries.keys_nodup⟩

/-- The entries without a key. -/
def erase (entries : Entries Content) (key : String) : Entries Content :=
  ⟨entries.toList.filter fun pair => pair.1 ≠ key,
    entries.keys_nodup.sublist (List.filter_sublist.map _)⟩

/-- The entries with pairs stored one after the other. -/
def insertAll (entries : Entries Content) (pairs : List (String × Content)) : Entries Content :=
  pairs.foldl (fun result pair => result.insert pair.1 pair.2) entries

/-- The entries of a list of pairs; a repeated key keeps its first place and its last value. -/
def ofList (pairs : List (String × Content)) : Entries Content := empty.insertAll pairs

/-- The keys in insertion order. -/
def keys (entries : Entries Content) : List String := entries.toList.map Prod.fst

/-- The number of keys. -/
def size (entries : Entries Content) : Nat := entries.toList.length

/-- Whether there is no key. -/
def isEmpty (entries : Entries Content) : Bool := entries.toList.isEmpty

/-! ### Laws of look-up -/

theorem lookup_cons_self (key : String) (content : Content) (rest : List (String × Content)) :
    ((key, content) :: rest).lookup key = some content := by
  rw [List.lookup_cons, beq_self_eq_true]

theorem lookup_cons_ne {key other : String} (content : Content) (rest : List (String × Content))
    (differ : other ≠ key) : ((key, content) :: rest).lookup other = rest.lookup other := by
  rw [List.lookup_cons, beq_eq_false_iff_ne.mpr differ]

theorem lookup_store (key other : String) (content : Content) (pairs : List (String × Content)) :
    (store key content pairs).lookup other =
      if other = key then some content else pairs.lookup other := by
  induction pairs with
  | nil =>
    by_cases same : other = key
    · rw [if_pos same, same, store, lookup_cons_self]
    · rw [if_neg same, store, lookup_cons_ne _ _ same]
  | cons pair rest ih =>
    obtain ⟨first, value⟩ := pair
    by_cases found : first = key <;> by_cases hit : other = first
    · rw [store, if_pos found, ← hit, lookup_cons_self, if_pos (hit.trans found)]
    · rw [store, if_pos found, lookup_cons_ne _ _ hit, lookup_cons_ne _ _ hit,
        if_neg fun same => hit (same.trans found.symm)]
    · rw [store, if_neg found, hit, lookup_cons_self, lookup_cons_self, if_neg found]
    · rw [store, if_neg found, lookup_cons_ne _ _ hit, lookup_cons_ne _ _ hit, ih]

/-- Storing changes the look-up of the stored key only. -/
theorem find?_insert (entries : Entries Content) (key other : String) (content : Content) :
    (entries.insert key content).find? other =
      if other = key then some content else entries.find? other :=
  lookup_store key other content entries.toList

@[simp] theorem find?_empty (key : String) : (empty : Entries Content).find? key = none := rfl

theorem lookup_filter_ne (key other : String) (pairs : List (String × Content)) :
    (pairs.filter fun pair => pair.1 ≠ key).lookup other =
      if other = key then none else pairs.lookup other := by
  induction pairs with
  | nil => simp
  | cons pair rest ih =>
    obtain ⟨first, value⟩ := pair
    by_cases dropped : first = key
    · rw [List.filter_cons_of_neg (by simpa using dropped), ih]
      by_cases same : other = key
      · rw [if_pos same, if_pos same]
      · rw [if_neg same, if_neg same,
          lookup_cons_ne _ _ fun hit => same (hit.trans dropped)]
    · rw [List.filter_cons_of_pos (by simpa using dropped)]
      by_cases hit : other = first
      · rw [hit, lookup_cons_self, lookup_cons_self, if_neg dropped]
      · rw [lookup_cons_ne _ _ hit, lookup_cons_ne _ _ hit, ih]

/-- Erasing changes the look-up of the erased key only. -/
theorem find?_erase (entries : Entries Content) (key other : String) :
    (entries.erase key).find? other = if other = key then none else entries.find? other :=
  lookup_filter_ne key other entries.toList

end Entries

end Metaobject
