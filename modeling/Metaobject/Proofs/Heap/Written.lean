import Mathlib.Data.List.Forall2
import Metaobject.Proofs.Datum
import Metaobject.Proofs.Heap.Nesting

/-!
# The written form of data is unambiguous

A value stands for a tree of data (`Heap.Denotes`) when it is built from `null`, the ellipsis, truth
values, integers in their one form, texts and bytes by tuples, lists and dicts. Such a value is
written as its tree is (`Denotes.written_eq`): it does not contain itself, so it is written in full.
Trees are told apart by their written forms, and so two values are written alike only if they stand
for the same tree, in whatever heaps they are (`written_unambiguous`).
-/

set_option autoImplicit false
set_option relaxedAutoImplicit false

namespace Metaobject.Heap

/-! ### Values that stand for data -/

/-- Whether a value stands for a tree of data. -/
inductive Denotes (heap : Heap) : Value → Datum → Prop
  | null : Denotes heap .null .null
  | ellipsis : Denotes heap .ellipsis .ellipsis
  | bool (truth : Bool) : Denotes heap (.bool truth) (.bool truth)
  | int (word : Int64) : Denotes heap (.int word) (.integer word.toInt)
  | long {value : Int} (hwide : Value.fitsWord value = false) :
      Denotes heap (.long value) (.integer value)
  | text (content : String) : Denotes heap (.text content) (.text content)
  | bytes (content : List UInt8) : Denotes heap (.bytes content) (.bytes content)
  | tuple {items : List Value} {data : List Datum} (hlength : items.length = data.length)
      (hitems : ∀ pair ∈ items.zip data, Denotes heap pair.1 pair.2) :
      Denotes heap (.tuple items) (.tuple data)
  | list {address : Address} {items : List Value} {data : List Datum}
      (hlist : heap.list? address = some items) (hlength : items.length = data.length)
      (hitems : ∀ pair ∈ items.zip data, Denotes heap pair.1 pair.2) :
      Denotes heap (.list address) (.list data)
  | dict {address : Address} {entries : Entries Value} {pairs : List (String × Datum)}
      (hdict : heap.dict? address = some entries)
      (hkeys : entries.toList.map Prod.fst = pairs.map Prod.fst)
      (hcontents : ∀ pair ∈ (entries.toList.map Prod.snd).zip (pairs.map Prod.snd),
        Denotes heap pair.1 pair.2) :
      Denotes heap (.dict address) (.dict pairs)

variable {heap : Heap} {value : Value} {datum : Datum} {address : Address}

theorem exists_mem_zip {items : List Value} {data : List Datum}
    (hlength : items.length = data.length) {item : Value} (hitem : item ∈ items) :
    ∃ datum, (item, datum) ∈ items.zip data := by
  rw [← List.map_fst_zip (Nat.le_of_eq hlength)] at hitem
  obtain ⟨⟨_, datum⟩, hpair, rfl⟩ := List.mem_map.mp hitem
  exact ⟨datum, hpair⟩

theorem map_eq_map_of_zip {items : List Value} {data : List Datum} {write : Value → String}
    (hlength : items.length = data.length)
    (hsame : ∀ pair ∈ items.zip data, write pair.1 = pair.2.written) :
    items.map write = data.map Datum.written := by
  have hitems : items.Forall₂ (fun item datum ↦ write item = datum.written) data :=
    List.forall₂_iff_zip.mpr ⟨hlength, fun hpair ↦ hsame _ hpair⟩
  have hmapped : (items.map write).Forall₂ (· = ·) (data.map Datum.written) :=
    List.forall₂_map_left_iff.mpr (List.forall₂_map_right_iff.mpr hitems)
  rwa [List.forall₂_eq_eq_eq] at hmapped

theorem length_contents {contents : List (String × Value)} {pairs : List (String × Datum)}
    (hkeys : contents.map Prod.fst = pairs.map Prod.fst) :
    (contents.map Prod.snd).length = (pairs.map Prod.snd).length := by
  simpa only [List.length_map] using congrArg List.length hkeys

/-- Pairs are the same when their keys and what is written for their contents are. -/
theorem map_pairs_eq_of_zip {contents : List (String × Value)} {pairs : List (String × Datum)}
    {write : Value → String} (hkeys : contents.map Prod.fst = pairs.map Prod.fst)
    (hsame : ∀ pair ∈ (contents.map Prod.snd).zip (pairs.map Prod.snd),
      write pair.1 = pair.2.written) :
    contents.map (fun (key, content) ↦ (key, write content)) =
      pairs.map fun (key, content) ↦ (key, content.written) := by
  have hwritten := map_eq_map_of_zip (length_contents hkeys) hsame
  rw [List.map_map, List.map_map] at hwritten
  calc contents.map (fun (key, content) ↦ (key, write content))
      = (contents.map Prod.fst).zip (contents.map (write ∘ Prod.snd)) := List.zip_map'.symm
    _ = (pairs.map Prod.fst).zip (pairs.map (Datum.written ∘ Prod.snd)) := by rw [hkeys, hwritten]
    _ = pairs.map fun (key, content) ↦ (key, content.written) := List.zip_map'

namespace Denotes

/-- A value that stands for data does not contain itself. -/
theorem unfolds (hdenotes : heap.Denotes value datum) : heap.Unfolds heap.parts value := by
  induction hdenotes with
  | tuple hlength hitems ih =>
    refine .of_parts (fun _ hcontainer ↦ by cases hcontainer) fun item hitem ↦ ?_
    obtain ⟨datum, hpair⟩ := exists_mem_zip hlength hitem
    exact ih _ hpair
  | @list address items data hlist hlength hitems ih =>
    refine .of_parts (fun other hother ↦ ?_) fun item hitem ↦ ?_
    · obtain rfl := Option.some.inj hother
      rw [containerAt?, list?_eq_some_iff.mp hlist]
    · rw [parts, Heap.items, hlist] at hitem
      obtain ⟨datum, hpair⟩ := exists_mem_zip hlength hitem
      exact ih _ hpair
  | @dict address entries pairs hdict hkeys hcontents ih =>
    refine .of_parts (fun other hother ↦ ?_) fun item hitem ↦ ?_
    · obtain rfl := Option.some.inj hother
      rw [containerAt?, dict?_eq_some_iff.mp hdict]
    · rw [parts, Heap.entries, hdict] at hitem
      obtain ⟨datum, hpair⟩ := exists_mem_zip (length_contents hkeys) hitem
      exact ih _ hpair
  | _ => exact .of_isAtom rfl

/-- A value that stands for data is written as the data are. -/
theorem written_eq (hdenotes : heap.Denotes value datum) : heap.written value = datum.written := by
  have hnext {value : Value} {datum : Datum} (hdenotes : heap.Denotes value datum) :
      heap.writtenOver (heap.writtenContents heap.written) value = heap.written value :=
    hdenotes.unfolds.writtenOver_eq
  induction hdenotes with
  | null => exact (hnext .null).symm
  | ellipsis => exact (hnext .ellipsis).symm
  | bool truth => cases truth <;> exact (hnext (.bool _)).symm
  | int word => exact (hnext (.int word)).symm
  | long hwide => exact (hnext (.long hwide)).symm
  | text content => exact (hnext (.text content)).symm
  | bytes content => exact (hnext (.bytes content)).symm
  | tuple hlength hitems ih =>
    -- The items of a tuple are written on the same level, and not one further down.
    rw [← hnext (.tuple hlength hitems), writtenOver, writtenItems_eq_map, Datum.written,
      Datum.writtenItems_eq_map, map_eq_map_of_zip hlength fun pair hpair ↦
        (hnext (hitems pair hpair)).trans (ih pair hpair)]
  | list hlist hlength hitems ih =>
    rw [← hnext (.list hlist hlength hitems), writtenOver, writtenContents, Heap.items, hlist,
      Option.getD_some, map_eq_map_of_zip hlength ih, Datum.written, Datum.writtenItems_eq_map]
  | dict hdict hkeys hcontents ih =>
    rw [← hnext (.dict hdict hkeys hcontents), writtenOver, writtenContents, Heap.entries, hdict,
      Option.getD_some, map_pairs_eq_of_zip hkeys ih, Datum.written, Datum.writtenPairs_eq_map]

end Denotes

/-! ### Written forms are unambiguous -/

/-- Values that stand for data are written alike exactly if they stand for the same data. Quoted
texts and bytes are read back to their content, up to their closing quote and whatever follows. -/
theorem written_unambiguous :
    (∀ (heap other : Heap) (left right : Value) (first second : Datum), heap.Denotes left first →
      other.Denotes right second → (heap.written left = other.written right ↔ first = second)) ∧
    (∀ (content : String) (rest : List Char),
      Text.Quoted.decode ((Text.Quoted.text content).toList ++ rest) =
        some (content.toList, rest)) ∧
    ∀ (content : List UInt8) (rest : List Char),
      Text.Quoted.decodeBytes ((Text.Quoted.bytes content).toList ++ rest) =
        some (content, rest) := by
  refine ⟨fun heap other left right first second hleft hright ↦ ?_, fun content rest ↦ ?_,
    fun content rest ↦ ?_⟩
  · rw [hleft.written_eq, hright.written_eq]
    exact Datum.written_injective.eq_iff
  · rw [Text.Quoted.text, String.toList_ofList]
    exact Text.Quoted.decode_encode content.toList rest
  · rw [Text.Quoted.bytes, String.toList_ofList]
    exact Text.Quoted.decodeBytes_encodeBytes content rest

/-! ### A quote and a comma within a text -/

/-- A list of one text that holds a quote, a comma and a quote. -/
def oneText : Heap := ⟨#[.list [.text "a', 'b"]]⟩

/-- A list of two texts. -/
def twoTexts : Heap := ⟨#[.list [.text "a", .text "b"]]⟩

/-- The lists are not written alike. -/
theorem written_unambiguous_quotes :
    oneText.Denotes (.tuple [.list 0]) (.tuple [.list [.text "a', 'b"]]) ∧
      twoTexts.Denotes (.tuple [.list 0]) (.tuple [.list [.text "a", .text "b"]]) ∧
      oneText.written (.tuple [.list 0]) ≠ twoTexts.written (.tuple [.list 0]) := by
  have hone : oneText.Denotes (.list 0) (.list [.text "a', 'b"]) :=
    .list rfl rfl (List.forall_mem_singleton.mpr (.text "a', 'b"))
  have htwo : twoTexts.Denotes (.list 0) (.list [.text "a", .text "b"]) :=
    .list rfl rfl (List.forall_mem_cons.mpr ⟨.text "a", List.forall_mem_singleton.mpr (.text "b")⟩)
  have hleft : oneText.Denotes (.tuple [.list 0]) (.tuple [.list [.text "a', 'b"]]) :=
    .tuple rfl (List.forall_mem_singleton.mpr hone)
  have hright : twoTexts.Denotes (.tuple [.list 0]) (.tuple [.list [.text "a", .text "b"]]) :=
    .tuple rfl (List.forall_mem_singleton.mpr htwo)
  refine ⟨hleft, hright, fun hsame ↦ ?_⟩
  have hdata := (written_unambiguous.1 oneText twoTexts _ _ _ _ hleft hright).mp hsame
  simp at hdata

end Metaobject.Heap
