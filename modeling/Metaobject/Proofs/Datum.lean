import Mathlib.Data.List.Basic
import Metaobject.Proofs.Text.Quoted
import Metaobject.Value.Written

/-!
# Data and their written forms

Data are trees: numbers, texts and bytes at the leaves, and tuples, lists and dicts above them, free
of any heap. Their written form tells them apart whatever is written behind it, as long as no digit
follows that could continue a number (`Datum.separable`).

The kind of a tree is known from its first character (`Datum.kind_eq_of_append_eq`). Numbers end at
the first character that is no digit, and quoted texts at their closing quote. Items that are told
apart are so in a sequence too (`joined_append_inj`): behind an item stands a comma with a blank if
another one follows, and a bracket or a comma with a bracket if none does.
-/

set_option autoImplicit false
set_option relaxedAutoImplicit false

namespace Metaobject

/-- A tree of data. -/
inductive Datum
  | null
  | ellipsis
  | bool (truth : Bool)
  | integer (value : Int)
  | text (content : String)
  | bytes (content : List UInt8)
  | tuple (items : List Datum)
  | list (items : List Datum)
  | dict (pairs : List (String × Datum))

namespace Datum

mutual

/-- The written form of a tree of data. -/
def written : Datum → String
  | .null => "None"
  | .ellipsis => "Ellipsis"
  | .bool true => "True"
  | .bool false => "False"
  | .integer value => toString value
  | .text content => Text.Quoted.text content
  | .bytes content => Text.Quoted.bytes content
  | .tuple items => Heap.writtenTuple (writtenItems items)
  | .list items => Heap.writtenList (writtenItems items)
  | .dict pairs => Heap.writtenDict (writtenPairs pairs)

/-- The written forms of items in order. -/
def writtenItems : List Datum → List String
  | [] => []
  | item :: rest => item.written :: writtenItems rest

/-- The keys with the written forms of their values. -/
def writtenPairs : List (String × Datum) → List (String × String)
  | [] => []
  | (key, content) :: rest => (key, content.written) :: writtenPairs rest

end

theorem writtenItems_eq_map (items : List Datum) : writtenItems items = items.map written := by
  induction items with
  | nil => rfl
  | cons item rest ih => rw [writtenItems, ih, List.map_cons]

theorem writtenPairs_eq_map (pairs : List (String × Datum)) :
    writtenPairs pairs = pairs.map fun (key, content) ↦ (key, content.written) := by
  induction pairs with
  | nil => rfl
  | cons pair rest ih => rw [writtenPairs, ih, List.map_cons]

/-- Induction on trees of data: what holds of the items holds of the container. -/
theorem induction {motive : Datum → Prop} (null : motive .null) (ellipsis : motive .ellipsis)
    (bool : ∀ truth, motive (.bool truth)) (integer : ∀ value, motive (.integer value))
    (text : ∀ content, motive (.text content)) (bytes : ∀ content, motive (.bytes content))
    (tuple : ∀ items, (∀ item ∈ items, motive item) → motive (.tuple items))
    (list : ∀ items, (∀ item ∈ items, motive item) → motive (.list items))
    (dict : ∀ pairs, (∀ pair ∈ pairs, motive pair.2) → motive (.dict pairs)) (datum : Datum) :
    motive datum :=
  @Datum.rec motive (fun items ↦ ∀ item ∈ items, motive item)
    (fun pairs ↦ ∀ pair ∈ pairs, motive pair.2) (fun pair ↦ motive pair.2)
    null ellipsis bool integer text bytes tuple list dict
    nofun (fun _ _ hitem hrest ↦ List.forall_mem_cons.mpr ⟨hitem, hrest⟩)
    nofun (fun _ _ hpair hrest ↦ List.forall_mem_cons.mpr ⟨hpair, hrest⟩)
    (fun _ _ hcontent ↦ hcontent) datum

end Datum

/-! ### Sequences of parts that are told apart -/

/-- Whether no digit follows that could continue a number. -/
def Delimited (rest : List Char) : Prop := ∀ first ∈ rest.head?, first.isDigit = false

/-- Whether a closing bracket follows, perhaps behind a comma. -/
def Closes (rest : List Char) : Prop :=
  ∃ bracket ∈ [')', ']', '\x7d'], ∃ tail, rest = bracket :: tail ∨ rest = ',' :: bracket :: tail

section

variable {Part : Type} {write : Part → List Char} {parts others : List Part}
  {rest following : List Char}

/-- Whether the written form of a part tells it apart from all others, whatever follows. -/
def Separable (write : Part → List Char) (part : Part) : Prop :=
  ∀ other rest following, Delimited rest → Delimited following →
    write part ++ rest = write other ++ following → part = other ∧ rest = following

/-- Whether no part begins as what closes a sequence does. -/
def Opens (write : Part → List Char) : Prop :=
  ∀ part, ∃ first tail, write part = first :: tail ∧ first ∉ [')', ']', '\x7d', ',']

theorem Closes.head (hcloses : Closes rest) :
    ∃ first tail, rest = first :: tail ∧ first ∈ [')', ']', '\x7d', ','] := by
  obtain ⟨bracket, hbracket, tail, rfl | rfl⟩ := hcloses
  · exact ⟨bracket, tail, rfl, List.mem_append_left [','] hbracket⟩
  · exact ⟨',', bracket :: tail, rfl, by decide⟩

theorem Closes.delimited (hcloses : Closes rest) : Delimited rest := by
  obtain ⟨first, tail, rfl, hfirst⟩ := hcloses.head
  intro other hother
  obtain rfl : first = other := Option.some.inj hother
  simp only [List.mem_cons, List.not_mem_nil, or_false] at hfirst
  rcases hfirst with rfl | rfl | rfl | rfl <;> rfl

theorem Closes.ne_separator (hcloses : Closes rest) (tail : List Char) :
    rest ≠ ',' :: ' ' :: tail := by
  rintro rfl
  obtain ⟨bracket, hbracket, _, hsame | hsame⟩ := hcloses
  · obtain ⟨rfl, -⟩ := List.cons.inj hsame
    exact absurd hbracket (by decide)
  · obtain ⟨rfl, -⟩ := List.cons.inj (List.cons.inj hsame).2
    exact absurd hbracket (by decide)

/-- Parts behind the first one, each behind a comma and a blank. -/
def further (write : Part → List Char) (parts : List Part) : List Char :=
  parts.flatMap fun part ↦ ',' :: ' ' :: write part

theorem further_cons (part : Part) (parts : List Part) (rest : List Char) :
    further write (part :: parts) ++ rest =
      ',' :: ' ' :: (write part ++ (further write parts ++ rest)) := by
  rw [further, List.flatMap_cons, List.append_assoc]
  rfl

theorem intercalate_cons (part : Part) (parts : List Part) :
    [',', ' '].intercalate ((part :: parts).map write) = write part ++ further write parts := by
  induction parts generalizing part with
  | nil => exact (List.append_nil _).symm ▸ List.intercalate_singleton
  | cons next parts ih =>
    rw [List.map_cons, List.map_cons, List.intercalate_cons_cons, ← List.map_cons, ih,
      List.append_assoc]
    rfl

theorem Closes.delimited_further (hcloses : Closes rest) (parts : List Part) :
    Delimited (further write parts ++ rest) := by
  cases parts with
  | nil => exact hcloses.delimited
  | cons part parts =>
    rw [further_cons]
    intro first hfirst
    obtain rfl : ',' = first := Option.some.inj hfirst
    rfl

theorem further_append_inj (hparts : ∀ part ∈ parts, Separable write part)
    (hrest : Closes rest) (hfollowing : Closes following)
    (hsame : further write parts ++ rest = further write others ++ following) :
    parts = others ∧ rest = following := by
  induction parts generalizing others with
  | nil =>
    cases others with
    | nil => exact ⟨rfl, hsame⟩
    | cons other others => exact absurd (hsame.trans (further_cons ..)) (hrest.ne_separator _)
  | cons part parts ih =>
    obtain ⟨hpart, hparts⟩ := List.forall_mem_cons.mp hparts
    cases others with
    | nil => exact absurd (hsame.symm.trans (further_cons ..)) (hfollowing.ne_separator _)
    | cons other others =>
      rw [further_cons, further_cons] at hsame
      obtain ⟨rfl, htail⟩ := hpart other _ _ (hrest.delimited_further parts)
        (hfollowing.delimited_further others) (List.cons.inj (List.cons.inj hsame).2).2
      obtain ⟨rfl, hclosing⟩ := ih hparts htail
      exact ⟨rfl, hclosing⟩

theorem Closes.ne_intercalate (hcloses : Closes rest) (hopens : Opens write) (part : Part)
    (parts : List Part) (following : List Char) :
    rest ≠ [',', ' '].intercalate ((part :: parts).map write) ++ following := by
  rintro rfl
  obtain ⟨first, tail, hwritten, hfirst⟩ := hopens part
  obtain ⟨head, _, hsame, hhead⟩ := hcloses.head
  rw [intercalate_cons, hwritten] at hsame
  exact hfirst ((List.cons.inj hsame).1 ▸ hhead)

/-- A sequence tells its parts apart if each part is told apart, up to what closes it. -/
theorem joined_append_inj (hopens : Opens write) (hparts : ∀ part ∈ parts, Separable write part)
    (hrest : Closes rest) (hfollowing : Closes following)
    (hsame : [',', ' '].intercalate (parts.map write) ++ rest =
      [',', ' '].intercalate (others.map write) ++ following) :
    parts = others ∧ rest = following := by
  cases parts with
  | nil =>
    cases others with
    | nil => exact ⟨rfl, hsame⟩
    | cons other others => exact absurd hsame (hrest.ne_intercalate hopens other others following)
  | cons part parts =>
    obtain ⟨hpart, hparts⟩ := List.forall_mem_cons.mp hparts
    cases others with
    | nil => exact absurd hsame.symm (hfollowing.ne_intercalate hopens part parts rest)
    | cons other others =>
      rw [intercalate_cons, intercalate_cons, List.append_assoc, List.append_assoc] at hsame
      obtain ⟨rfl, htail⟩ := hpart other _ _ (hrest.delimited_further parts)
        (hfollowing.delimited_further others) hsame
      obtain ⟨rfl, hclosing⟩ := further_append_inj hparts hrest hfollowing htail
      exact ⟨rfl, hclosing⟩

end

/-! ### Numbers -/

section

variable {rest following : List Char}

/-- Digits end where no digit follows. -/
theorem append_inj_of_digits {digits others : List Char} (hdigits : ∀ digit ∈ digits, digit.isDigit)
    (hothers : ∀ digit ∈ others, digit.isDigit) (hrest : Delimited rest)
    (hfollowing : Delimited following) (hsame : digits ++ rest = others ++ following) :
    digits = others ∧ rest = following := by
  induction digits generalizing others with
  | nil =>
    cases others with
    | nil => exact ⟨rfl, hsame⟩
    | cons other others =>
      have hnone := hrest other (by rw [← List.nil_append rest, hsame]; rfl)
      exact absurd (hothers other List.mem_cons_self) (Bool.not_eq_true _ ▸ hnone)
  | cons digit digits ih =>
    cases others with
    | nil =>
      have hnone := hfollowing digit (by rw [← List.nil_append following, ← hsame]; rfl)
      exact absurd (hdigits digit List.mem_cons_self) (Bool.not_eq_true _ ▸ hnone)
    | cons other others =>
      obtain ⟨rfl, htail⟩ := List.cons.inj hsame
      obtain ⟨rfl, hclosing⟩ := ih (fun digit hdigit ↦ hdigits digit (.tail _ hdigit))
        (fun digit hdigit ↦ hothers digit (.tail _ hdigit)) htail
      exact ⟨rfl, hclosing⟩

theorem isDigit_of_mem_toDigits (value : Nat) : ∀ digit ∈ Nat.toDigits 10 value, digit.isDigit :=
  fun _ ↦ Nat.isDigit_of_mem_toDigits (by decide) (by decide)

theorem exists_toDigits_eq_cons (value : Nat) :
    ∃ digit digits, Nat.toDigits 10 value = digit :: digits ∧ digit.isDigit := by
  obtain ⟨digit, digits, hvalue⟩ := List.exists_cons_of_ne_nil (Nat.toDigits_ne_nil (b := 10))
  exact ⟨digit, digits, hvalue, isDigit_of_mem_toDigits value digit (hvalue ▸ List.mem_cons_self)⟩

theorem toDigits_append_inj {value other : Nat} (hrest : Delimited rest)
    (hfollowing : Delimited following)
    (hsame : Nat.toDigits 10 value ++ rest = Nat.toDigits 10 other ++ following) :
    value = other ∧ rest = following := by
  obtain ⟨hvalue, hclosing⟩ := append_inj_of_digits (isDigit_of_mem_toDigits value)
    (isDigit_of_mem_toDigits other) hrest hfollowing hsame
  refine ⟨?_, hclosing⟩
  rw [← @Nat.ofDigitChars_ten_toDigits value, hvalue, Nat.ofDigitChars_ten_toDigits]

theorem toList_toString_ofNat (value : Nat) :
    (toString (Int.ofNat value)).toList = Nat.toDigits 10 value :=
  Nat.toList_repr

theorem toList_toString_negSucc (value : Nat) :
    (toString (Int.negSucc value)).toList = '-' :: Nat.toDigits 10 (value + 1) := by
  change ("-" ++ (value + 1).repr).toList = _
  rw [String.toList_append, Nat.toList_repr]
  rfl

theorem toDigits_append_ne_minus (value : Nat) (rest following : List Char) :
    Nat.toDigits 10 value ++ rest ≠ '-' :: following := by
  obtain ⟨digit, digits, hvalue, hdigit⟩ := exists_toDigits_eq_cons value
  rw [hvalue]
  intro hsame
  obtain rfl : digit = '-' := (List.cons.inj hsame).1
  cases hdigit

theorem toString_append_inj {value other : Int} (hrest : Delimited rest)
    (hfollowing : Delimited following)
    (hsame : (toString value).toList ++ rest = (toString other).toList ++ following) :
    value = other ∧ rest = following := by
  cases value with
  | ofNat value =>
    cases other with
    | ofNat other =>
      rw [toList_toString_ofNat, toList_toString_ofNat] at hsame
      obtain ⟨rfl, hclosing⟩ := toDigits_append_inj hrest hfollowing hsame
      exact ⟨rfl, hclosing⟩
    | negSucc other =>
      rw [toList_toString_ofNat, toList_toString_negSucc] at hsame
      exact absurd hsame (toDigits_append_ne_minus value rest _)
  | negSucc value =>
    cases other with
    | ofNat other =>
      rw [toList_toString_ofNat, toList_toString_negSucc] at hsame
      exact absurd hsame.symm (toDigits_append_ne_minus other following _)
    | negSucc other =>
      rw [toList_toString_negSucc, toList_toString_negSucc] at hsame
      obtain ⟨hvalue, hclosing⟩ :=
        toDigits_append_inj hrest hfollowing (List.cons.inj hsame).2
      obtain rfl := Nat.succ.inj hvalue
      exact ⟨rfl, hclosing⟩

end

/-! ### Data -/

namespace Datum

/-- The characters that a tree of data is written in. -/
def characters (datum : Datum) : List Char := datum.written.toList

/-- The characters of a key and its value in a dict. -/
def pairCharacters (pair : String × Datum) : List Char :=
  Text.Quoted.encode pair.1.toList ++ ':' :: ' ' :: pair.2.characters

/-- What closes a tuple. -/
def tupleEnd (items : List Datum) : List Char := if items.length = 1 then [',', ')'] else [')']

theorem toList_joined (items : List String) :
    (Heap.joined items).toList = [',', ' '].intercalate (items.map String.toList) :=
  String.toList_intercalate

theorem characters_text (content : String) :
    (text content).characters = Text.Quoted.encode content.toList :=
  String.toList_ofList

theorem characters_bytes (content : List UInt8) :
    (bytes content).characters = Text.Quoted.encodeBytes content :=
  String.toList_ofList

theorem characters_tuple (items : List Datum) : (tuple items).characters =
    '(' :: ([',', ' '].intercalate (items.map characters) ++ tupleEnd items) := by
  rw [characters, written, writtenItems_eq_map]
  match items with
  | [] => rfl
  | [item] =>
    rw [List.map_singleton, Heap.writtenTuple, String.toList_append, String.toList_append,
      List.map_singleton, List.intercalate_singleton]
    rfl
  | item :: next :: rest =>
    rw [List.map_cons, List.map_cons, Heap.writtenTuple, String.toList_append,
      String.toList_append, toList_joined, ← List.map_cons, ← List.map_cons, List.map_map]
    · rfl
    · exact fun _ hsame ↦ nomatch List.tail_eq_of_cons_eq hsame

theorem characters_list (items : List Datum) : (list items).characters =
    '[' :: ([',', ' '].intercalate (items.map characters) ++ [']']) := by
  rw [characters, written, writtenItems_eq_map, Heap.writtenList, String.toList_append,
    String.toList_append, toList_joined, List.map_map]
  rfl

theorem characters_dict (pairs : List (String × Datum)) : (dict pairs).characters =
    '\x7b' :: ([',', ' '].intercalate (pairs.map pairCharacters) ++ ['\x7d']) := by
  have hpair (pair : String × Datum) :
      (Text.Quoted.text pair.1 ++ ": " ++ pair.2.written).toList = pairCharacters pair := by
    rw [String.toList_append, String.toList_append, Text.Quoted.text, String.toList_ofList,
      List.append_assoc]
    rfl
  have hpairs : ((pairs.map fun pair ↦ (pair.1, pair.2.written)).map fun pair ↦
      Text.Quoted.text pair.1 ++ ": " ++ pair.2).map String.toList = pairs.map pairCharacters := by
    rw [List.map_map, List.map_map]
    exact List.map_congr_left fun pair _ ↦ hpair pair
  rw [characters, written, writtenPairs_eq_map, Heap.writtenDict, String.toList_append,
    String.toList_append, toList_joined, hpairs]
  rfl

/-! ### First characters -/

/-- The kinds of trees of data that differ in their first character. -/
inductive Kind
  | null
  | ellipsis
  | bool (truth : Bool)
  | integer
  | text
  | bytes
  | tuple
  | list
  | dict
  deriving DecidableEq

/-- The kind of a tree of data. -/
def kind : Datum → Kind
  | .null => .null
  | .ellipsis => .ellipsis
  | .bool truth => .bool truth
  | .integer _ => .integer
  | .text _ => .text
  | .bytes _ => .bytes
  | .tuple _ => .tuple
  | .list _ => .list
  | .dict _ => .dict

/-- The kind of the trees of data that begin with a character. -/
def kindOf? (first : Char) : Option Kind :=
  if first.isDigit then some .integer
  else match first with
    | 'N' => some .null
    | 'E' => some .ellipsis
    | 'T' => some (.bool true)
    | 'F' => some (.bool false)
    | '-' => some .integer
    | '\'' | '"' => some .text
    | 'b' => some .bytes
    | '(' => some .tuple
    | '[' => some .list
    | '\x7b' => some .dict
    | _ => none

theorem exists_characters_eq_cons (datum : Datum) :
    ∃ first tail, datum.characters = first :: tail ∧ kindOf? first = some datum.kind := by
  cases datum with
  | null | ellipsis => exact ⟨_, _, rfl, rfl⟩
  | bool truth => cases truth <;> exact ⟨_, _, rfl, rfl⟩
  | integer value =>
    cases value with
    | ofNat value =>
      obtain ⟨digit, digits, hvalue, hdigit⟩ := exists_toDigits_eq_cons value
      exact ⟨digit, digits, (toList_toString_ofNat value).trans hvalue, if_pos hdigit⟩
    | negSucc value => exact ⟨'-', _, toList_toString_negSucc value, rfl⟩
  | text content =>
    refine ⟨_, _, String.toList_ofList, ?_⟩
    rcases Text.Quoted.quoteFor_eq content.toList with hquote | hquote <;> rw [hquote] <;> rfl
  | bytes content => exact ⟨_, _, String.toList_ofList, rfl⟩
  | tuple items => exact ⟨_, _, characters_tuple items, rfl⟩
  | list items => exact ⟨_, _, characters_list items, rfl⟩
  | dict pairs => exact ⟨_, _, characters_dict pairs, rfl⟩

theorem kind_eq_of_append_eq {datum other : Datum} {rest following : List Char}
    (hsame : datum.characters ++ rest = other.characters ++ following) :
    datum.kind = other.kind := by
  obtain ⟨first, tail, hwritten, hfirst⟩ := exists_characters_eq_cons datum
  obtain ⟨second, tail, hother, hsecond⟩ := exists_characters_eq_cons other
  rw [hwritten, hother] at hsame
  rw [(List.cons.inj hsame).1, hsecond] at hfirst
  exact (Option.some.inj hfirst).symm

/-- No tree of data begins as what closes a sequence does. -/
theorem opens_characters : Opens characters := by
  intro datum
  obtain ⟨first, tail, hwritten, hfirst⟩ := exists_characters_eq_cons datum
  refine ⟨first, tail, hwritten, fun hcloses ↦ ?_⟩
  simp only [List.mem_cons, List.not_mem_nil, or_false] at hcloses
  rcases hcloses with rfl | rfl | rfl | rfl <;> cases hfirst

theorem opens_pairCharacters : Opens pairCharacters := by
  intro pair
  refine ⟨Text.Quoted.quoteFor pair.1.toList, _, rfl, ?_⟩
  rcases Text.Quoted.quoteFor_eq pair.1.toList with hquote | hquote <;> rw [hquote] <;> decide

/-! ### Data are told apart -/

theorem closes_bracket {bracket : Char} (hbracket : bracket ∈ [')', ']', '\x7d'])
    (rest : List Char) : Closes (bracket :: rest) :=
  ⟨bracket, hbracket, rest, .inl rfl⟩

theorem closes_tupleEnd (items : List Datum) (rest : List Char) :
    Closes (tupleEnd items ++ rest) := by
  rw [tupleEnd]
  split_ifs
  · exact ⟨')', by decide, rest, .inr rfl⟩
  · exact closes_bracket (by decide) rest

theorem separable_pairCharacters {pair : String × Datum} (hcontent : Separable characters pair.2) :
    Separable pairCharacters pair := by
  intro other rest following hrest hfollowing hsame
  rw [pairCharacters, pairCharacters, List.append_assoc, List.append_assoc] at hsame
  obtain ⟨hkey, htail⟩ := Text.Quoted.encode_append_inj hsame
  obtain ⟨hcontents, hclosing⟩ := hcontent other.2 rest following hrest hfollowing
    (List.cons.inj (List.cons.inj htail).2).2
  exact ⟨Prod.ext (String.toList_inj.mp hkey) hcontents, hclosing⟩

/-- The written form of a tree of data tells it apart from all others, whatever follows. -/
theorem separable (datum : Datum) : Separable characters datum := by
  induction datum using Datum.induction with
  | null | ellipsis | bool =>
    intro other rest following _ _ hsame
    have hkind := kind_eq_of_append_eq hsame
    cases other <;> cases hkind
    exact ⟨rfl, List.append_cancel_left hsame⟩
  | integer value =>
    intro other rest following hrest hfollowing hsame
    have hkind := kind_eq_of_append_eq hsame
    cases other with
    | integer other =>
      obtain ⟨rfl, hclosing⟩ := toString_append_inj hrest hfollowing hsame
      exact ⟨rfl, hclosing⟩
    | _ => cases hkind
  | text content =>
    intro other rest following hrest hfollowing hsame
    have hkind := kind_eq_of_append_eq hsame
    cases other with
    | text other =>
      rw [characters_text, characters_text] at hsame
      obtain ⟨hcontent, hclosing⟩ := Text.Quoted.encode_append_inj hsame
      exact ⟨congrArg text (String.toList_inj.mp hcontent), hclosing⟩
    | _ => cases hkind
  | bytes content =>
    intro other rest following hrest hfollowing hsame
    have hkind := kind_eq_of_append_eq hsame
    cases other with
    | bytes other =>
      rw [characters_bytes, characters_bytes] at hsame
      obtain ⟨rfl, hclosing⟩ := Text.Quoted.encodeBytes_append_inj hsame
      exact ⟨rfl, hclosing⟩
    | _ => cases hkind
  | tuple items ih =>
    intro other rest following hrest hfollowing hsame
    have hkind := kind_eq_of_append_eq hsame
    cases other with
    | tuple others =>
      rw [characters_tuple, characters_tuple, List.cons_append, List.cons_append, List.append_assoc,
        List.append_assoc] at hsame
      obtain ⟨rfl, htail⟩ := joined_append_inj opens_characters ih (closes_tupleEnd items rest)
        (closes_tupleEnd others following) (List.cons.inj hsame).2
      exact ⟨rfl, List.append_cancel_left htail⟩
    | _ => cases hkind
  | list items ih =>
    intro other rest following hrest hfollowing hsame
    have hkind := kind_eq_of_append_eq hsame
    cases other with
    | list others =>
      rw [characters_list, characters_list, List.cons_append, List.cons_append, List.append_assoc,
        List.append_assoc] at hsame
      obtain ⟨rfl, htail⟩ := joined_append_inj opens_characters ih (closes_bracket (by decide) rest)
        (closes_bracket (by decide) following) (List.cons.inj hsame).2
      exact ⟨rfl, (List.cons.inj htail).2⟩
    | _ => cases hkind
  | dict pairs ih =>
    intro other rest following hrest hfollowing hsame
    have hkind := kind_eq_of_append_eq hsame
    cases other with
    | dict others =>
      rw [characters_dict, characters_dict, List.cons_append, List.cons_append, List.append_assoc,
        List.append_assoc] at hsame
      have hpairs : ∀ pair ∈ pairs, Separable pairCharacters pair :=
        fun pair hpair ↦ separable_pairCharacters (ih pair hpair)
      obtain ⟨rfl, htail⟩ := joined_append_inj opens_pairCharacters hpairs
        (closes_bracket (by decide) rest) (closes_bracket (by decide) following)
        (List.cons.inj hsame).2
      exact ⟨rfl, (List.cons.inj htail).2⟩
    | _ => cases hkind

/-- Different trees of data are written differently. -/
theorem written_injective : Function.Injective written := by
  intro datum other hsame
  have hcharacters : datum.characters ++ [] = other.characters ++ [] :=
    congrArg (·.toList ++ []) hsame
  exact (datum.separable other [] [] nofun nofun hcharacters).1

end Datum

end Metaobject
