import Mathlib.Data.List.Nodup
import Mathlib.Data.List.Perm.Subperm
import Metaobject.Entries

/-!
# Keys and look-up

Looking a key up finds exactly the pairs that are there (`Entries.mem_toList_iff`), since no key
occurs twice. Pairs with distinct keys that are stored one after the other are all found
(`Entries.find?_insertAll`), so that their order does not matter to a look-up. As many keys that are
all among others are the same keys (`Entries.contains_iff_of_size`).
-/

set_option autoImplicit false
set_option relaxedAutoImplicit false

namespace Metaobject.Entries

variable {Content : Type}

theorem contains_iff (entries : Entries Content) (key : String) :
    entries.contains key ↔ ∃ content, entries.find? key = some content :=
  Option.isSome_iff_exists

theorem contains_eq_false_iff (entries : Entries Content) (key : String) :
    entries.contains key = false ↔ entries.find? key = none :=
  Option.isSome_eq_false_iff.trans Option.isNone_iff_eq_none

theorem contains_insert (entries : Entries Content) (key other : String) (content : Content) :
    (entries.insert key content).contains other = (other == key || entries.contains other) := by
  rw [contains, find?_insert]
  by_cases hsame : other = key
  · rw [if_pos hsame, beq_iff_eq.mpr hsame]
    rfl
  · rw [if_neg hsame, beq_eq_false_iff_ne.mpr hsame]
    rfl

theorem lookup_eq_none_of_not_mem {pairs : List (String × Content)} {key : String}
    (habsent : key ∉ pairs.map Prod.fst) : pairs.lookup key = none := by
  rw [List.lookup_eq_none_iff]
  intro pair hpair
  rw [bne_iff_ne]
  exact fun hkey ↦ habsent (List.mem_map.mpr ⟨pair, hpair, hkey.symm⟩)

/-- Of pairs with distinct keys each is found. -/
theorem lookup_eq_some_iff_mem {pairs : List (String × Content)}
    (hkeys : (pairs.map Prod.fst).Nodup) (key : String) (content : Content) :
    pairs.lookup key = some content ↔ (key, content) ∈ pairs := by
  induction pairs with
  | nil => simp
  | cons pair rest ih =>
    obtain ⟨first, value⟩ := pair
    rw [List.map_cons, List.nodup_cons] at hkeys
    rw [List.mem_cons, Prod.mk.injEq]
    by_cases hsame : key = first
    · subst hsame
      have hlater : (key, content) ∉ rest := fun hmem ↦
        hkeys.1 (List.mem_map.mpr ⟨_, hmem, rfl⟩)
      rw [lookup_cons_self, Option.some.injEq, or_iff_left hlater, and_iff_right rfl, eq_comm]
    · rw [lookup_cons_ne _ _ hsame, ih hkeys.2, or_iff_right fun hfirst ↦ hsame hfirst.1]

/-- A look-up finds exactly the pairs that are there. -/
theorem mem_toList_iff (entries : Entries Content) (key : String) (content : Content) :
    (key, content) ∈ entries.toList ↔ entries.find? key = some content :=
  (lookup_eq_some_iff_mem entries.keys_nodup key content).symm

/-- Pairs with distinct keys that are stored are found before the entries that were there. -/
theorem find?_insertAll {pairs : List (String × Content)} (hkeys : (pairs.map Prod.fst).Nodup)
    (entries : Entries Content) (key : String) :
    (entries.insertAll pairs).find? key = (pairs.lookup key).or (entries.find? key) := by
  induction pairs generalizing entries with
  | nil => rfl
  | cons pair rest ih =>
    obtain ⟨first, content⟩ := pair
    rw [List.map_cons, List.nodup_cons] at hkeys
    show ((entries.insert first content).insertAll rest).find? key = _
    rw [ih hkeys.2, find?_insert]
    by_cases hsame : key = first
    · rw [if_pos hsame, hsame, lookup_eq_none_of_not_mem hkeys.1, lookup_cons_self]
      rfl
    · rw [if_neg hsame, lookup_cons_ne _ _ hsame]

/-! ### The same keys -/

section

variable {left right : Entries Content}

theorem contains_iff_mem_keys (entries : Entries Content) (key : String) :
    entries.contains key ↔ key ∈ entries.keys := by
  rw [contains_iff, keys, List.mem_map]
  constructor
  · rintro ⟨content, hfound⟩
    exact ⟨(key, content), (entries.mem_toList_iff key content).mpr hfound, rfl⟩
  · rintro ⟨⟨_, content⟩, hpair, rfl⟩
    exact ⟨content, (entries.mem_toList_iff _ content).mp hpair⟩

theorem length_keys (entries : Entries Content) : entries.keys.length = entries.size :=
  List.length_map _

/-- If all keys of some entries are among as many others, they are the same keys. -/
theorem contains_iff_of_size (hsize : left.size = right.size)
    (hkeys : ∀ key, left.contains key → right.contains key) (key : String) :
    left.contains key ↔ right.contains key := by
  simp only [contains_iff_mem_keys] at hkeys ⊢
  have hlength : right.keys.length ≤ left.keys.length := by
    rw [length_keys, length_keys]
    exact Nat.le_of_eq hsize.symm
  exact ((List.subperm_of_subset left.keys_nodup hkeys).perm_of_length_le hlength).mem_iff

theorem size_eq_of_contains_iff (hkeys : ∀ key, left.contains key ↔ right.contains key) :
    left.size = right.size := by
  simp only [contains_iff_mem_keys] at hkeys
  rw [← length_keys, ← length_keys]
  exact ((List.perm_ext_iff_of_nodup left.keys_nodup right.keys_nodup).mpr hkeys).length_eq

end

/-! ### Keys paired with contents -/

theorem map_fst_zip_eq_take (keys : List String) (contents : List Content) :
    (keys.zip contents).map Prod.fst = keys.take contents.length := by
  induction keys generalizing contents with
  | nil => rw [List.zip_nil_left, List.take_nil, List.map_nil]
  | cons key rest ih =>
    cases contents with
    | nil => rfl
    | cons content others =>
      rw [List.zip_cons_cons, List.map_cons, ih, List.length_cons, List.take_succ_cons]

theorem nodup_keys_zip {keys : List String} (hkeys : keys.Nodup) (contents : List Content) :
    ((keys.zip contents).map Prod.fst).Nodup := by
  rw [map_fst_zip_eq_take]
  exact hkeys.sublist (List.take_sublist _ _)

theorem find?_ofList_zip {keys : List String} (hkeys : keys.Nodup) (contents : List Content)
    (key : String) : (ofList (keys.zip contents)).find? key = (keys.zip contents).lookup key := by
  rw [ofList, find?_insertAll (nodup_keys_zip hkeys contents), find?_empty, Option.or_none]

theorem find?_ofList_zip_eq_none {keys : List String} (hkeys : keys.Nodup)
    (contents : List Content) {key : String} (habsent : key ∉ keys) :
    (ofList (keys.zip contents)).find? key = none := by
  rw [find?_ofList_zip hkeys]
  refine lookup_eq_none_of_not_mem fun hmem ↦ habsent ?_
  rw [map_fst_zip_eq_take] at hmem
  exact List.mem_of_mem_take hmem

/-- Keys that are stored in the order of their contents are found by their place. -/
theorem find?_ofList_zip_of_getElem? {keys : List String} (hkeys : keys.Nodup)
    (contents : List Content) {index : Nat} {key : String} (hkey : keys[index]? = some key) :
    (ofList (keys.zip contents)).find? key = contents[index]? := by
  rw [find?_ofList_zip hkeys]
  cases hcontent : contents[index]? with
  | some content =>
    rw [lookup_eq_some_iff_mem (nodup_keys_zip hkeys contents)]
    exact List.mem_of_getElem? (List.getElem?_zip_eq_some.mpr ⟨hkey, hcontent⟩)
  | none =>
    refine lookup_eq_none_of_not_mem fun hmem ↦ ?_
    rw [map_fst_zip_eq_take, List.mem_take_iff_getElem] at hmem
    obtain ⟨other, hother, hsame⟩ := hmem
    obtain ⟨hindex, hindexed⟩ := List.getElem?_eq_some_iff.mp hkey
    have hplaces : other = index := hkeys.getElem_inj_iff.mp (hsame.trans hindexed.symm)
    rw [List.getElem?_eq_none_iff] at hcontent
    omega

end Metaobject.Entries
