import Mathlib.Data.List.Basic
import Metaobject.Text.Quoted

/-!
# Quoted text read back

The scanner of quoted text (`Quoted.scan`) undoes escapes up to the quote that it is given, and says
what follows. What is written for one character or one byte is scanned as that character, whatever
comes after it (`scan_written`, `scan_writtenByte`, `scan_flatMap`), so a quoted string and a quoted
byte string are read back to their content and to the text behind their closing quote
(`decode_encode`, `decodeBytes_encodeBytes`). Two digits are enough for the escapes by number: the
control characters end below U+00A0.
-/

set_option autoImplicit false
set_option relaxedAutoImplicit false

namespace Metaobject.Text.Quoted

/-! ### Reading quoted text -/

/-- The value of a hexadecimal digit. -/
def hexValue (digit : Char) : Nat :=
  if digit.isDigit then digit.toNat - '0'.toNat else digit.toNat - 'a'.toNat + 10

/-- The character that a letter stands for behind a backslash. -/
def unescape : Char → Char
  | 'n' => '\n'
  | 'r' => '\r'
  | 't' => '\t'
  | character => character

/-- Undoes the escapes up to a `quote`; gives what stands before it and what follows it. -/
def scan (quote : Char) : List Char → Option (List Char × List Char)
  | [] => none
  | '\\' :: 'x' :: high :: low :: rest =>
    (scan quote rest).map (.map (Char.ofNat (hexValue high * 16 + hexValue low) :: ·) id)
  | '\\' :: escaped :: rest => (scan quote rest).map (.map (unescape escaped :: ·) id)
  | character :: rest =>
    if character = quote then some ([], rest)
    else (scan quote rest).map (.map (character :: ·) id)

/-- Reads a quoted string: its content, and what follows its closing quote. -/
def decode : List Char → Option (List Char × List Char)
  | '\'' :: rest => scan '\'' rest
  | '"' :: rest => scan '"' rest
  | _ => none

/-- Reads a quoted byte string: its content, and what follows its closing quote. -/
def decodeBytes : List Char → Option (List UInt8 × List Char)
  | 'b' :: rest => (decode rest).map (.map (List.map fun character ↦ .ofNat character.toNat) id)
  | _ => none

/-! ### Characters -/

theorem hexValue_hexDigit : ∀ value < 16, hexValue (hexDigit value) = value := by decide

variable {quote : Char}

theorem scan_hexEscape {code : Nat} (hcode : code < 256) (rest : List Char) :
    scan quote (hexEscape code ++ rest) =
      (scan quote rest).map (.map (Char.ofNat code :: ·) id) := by
  have hvalue : hexValue (hexDigit (code / 16 % 16)) * 16 + hexValue (hexDigit (code % 16)) =
      code := by
    rw [hexValue_hexDigit _ (Nat.mod_lt _ (by decide)),
      hexValue_hexDigit _ (Nat.mod_lt _ (by decide))]
    omega
  have hread : scan quote (hexEscape code ++ rest) = (scan quote rest).map (.map (Char.ofNat
      (hexValue (hexDigit (code / 16 % 16)) * 16 + hexValue (hexDigit (code % 16))) :: ·) id) := rfl
  rw [hread, hvalue]

theorem scan_escape {escaped : Char} (hescaped : escaped ≠ 'x') (rest : List Char) :
    scan quote ('\\' :: escaped :: rest) =
      (scan quote rest).map (.map (unescape escaped :: ·) id) := by
  rw [scan]
  exact fun _ _ _ hsame ↦ absurd hsame hescaped

theorem scan_plain {character : Char} (hescape : character ≠ '\\') (hquote : character ≠ quote)
    (rest : List Char) : scan quote (character :: rest) =
      (scan quote rest).map (.map (character :: ·) id) := by
  rw [scan, if_neg hquote]
  · exact fun _ _ _ hsame ↦ absurd hsame hescape
  · exact fun _ _ hsame ↦ absurd hsame hescape

theorem scan_quote (hquote : quote ≠ '\\') (rest : List Char) :
    scan quote (quote :: rest) = some ([], rest) := by
  rw [scan, if_pos rfl]
  · exact fun _ _ _ hsame ↦ absurd hsame hquote
  · exact fun _ _ hsame ↦ absurd hsame hquote

/-- If each part is scanned as one character whatever comes after it, all of them are scanned up to
the quote. -/
theorem scan_flatMap {Part : Type} {write : Part → List Char} {read : Part → Char}
    (hquote : quote = '\'' ∨ quote = '"')
    (hstep : ∀ part rest,
      scan quote (write part ++ rest) = (scan quote rest).map (.map (read part :: ·) id))
    (parts : List Part) (rest : List Char) :
    scan quote (parts.flatMap write ++ quote :: rest) = some (parts.map read, rest) := by
  induction parts with
  | nil =>
    have hescape : quote ≠ '\\' := by rcases hquote with rfl | rfl <;> decide
    exact scan_quote hescape rest
  | cons part parts ih =>
    rw [List.flatMap_cons, List.append_assoc, hstep, ih]
    rfl

/-! ### Strings -/

theorem toNat_lt_of_isControl {character : Char} (hcontrol : isControl character) :
    character.toNat < 256 := by
  rw [isControl, Bool.or_eq_true, Bool.and_eq_true, decide_eq_true_iff, decide_eq_true_iff,
    decide_eq_true_iff] at hcontrol
  omega

/-- What is written for a character is scanned as that character. -/
theorem scan_written (hquote : quote = '\'' ∨ quote = '"') (character : Char) (rest : List Char) :
    scan quote (written quote character ++ rest) =
      (scan quote rest).map (.map (character :: ·) id) := by
  rw [written]
  split_ifs with hescape hnewline hreturn htab hsame hcontrol
  · subst hescape
    exact scan_escape (by decide) rest
  · subst hnewline
    exact scan_escape (by decide) rest
  · subst hreturn
    exact scan_escape (by decide) rest
  · subst htab
    exact scan_escape (by decide) rest
  · subst hsame
    rcases hquote with rfl | rfl <;> exact scan_escape (by decide) rest
  · rw [scan_hexEscape (toNat_lt_of_isControl hcontrol), Char.ofNat_toNat]
  · exact scan_plain hescape hsame rest

theorem quoteFor_eq (content : List Char) : quoteFor content = '\'' ∨ quoteFor content = '"' := by
  rw [quoteFor]
  split_ifs
  · exact .inr rfl
  · exact .inl rfl

theorem decode_cons (hquote : quote = '\'' ∨ quote = '"') (rest : List Char) :
    decode (quote :: rest) = scan quote rest := by
  rcases hquote with rfl | rfl <;> rfl

/-- A quoted string is read back to its content, whatever follows it. -/
theorem decode_encode (content rest : List Char) :
    decode (encode content ++ rest) = some (content, rest) := by
  have hquote := quoteFor_eq content
  have hscanned := scan_flatMap hquote (scan_written hquote) content rest
  rw [encode, List.cons_append, decode_cons hquote, List.append_assoc, List.singleton_append,
    hscanned, List.map_id']

theorem encode_append_inj {content other rest following : List Char}
    (hsame : encode content ++ rest = encode other ++ following) :
    content = other ∧ rest = following := by
  have hread := congrArg decode hsame
  rw [decode_encode, decode_encode] at hread
  exact Prod.mk.inj (Option.some.inj hread)

/-! ### Bytes -/

/-- The character whose code is a byte. -/
def byteCharacter (byte : UInt8) : Char := Char.ofNat byte.toNat

theorem ofNat_toNat_byteCharacter (byte : UInt8) : .ofNat (byteCharacter byte).toNat = byte := by
  have hvalid : byte.toNat.isValidChar := .inl (Nat.lt_trans byte.toNat_lt (by decide))
  have hcode : (byteCharacter byte).toNat = byte.toNat := by
    rw [byteCharacter, Char.ofNat, dif_pos hvalid]
    rfl
  rw [hcode, UInt8.ofNat_toNat]

theorem byteCharacter_ne {byte other : UInt8} (hother : byte ≠ other) :
    byteCharacter byte ≠ byteCharacter other :=
  fun hsame ↦ hother (by rw [← ofNat_toNat_byteCharacter byte, hsame, ofNat_toNat_byteCharacter])

/-- What is written for a byte is scanned as the character whose code it is. -/
theorem scan_writtenByte {quote : UInt8} (hquote : quote = 39 ∨ quote = 34) (byte : UInt8)
    (rest : List Char) : scan (byteCharacter quote) (writtenByte quote byte ++ rest) =
      (scan (byteCharacter quote) rest).map (.map (byteCharacter byte :: ·) id) := by
  rw [writtenByte]
  split_ifs with hescape hnewline hreturn htab hsame hprintable
  · subst hescape
    exact scan_escape (by decide) rest
  · subst hnewline
    exact scan_escape (by decide) rest
  · subst hreturn
    exact scan_escape (by decide) rest
  · subst htab
    exact scan_escape (by decide) rest
  · subst hsame
    rcases hquote with rfl | rfl <;> exact scan_escape (by decide) rest
  · exact scan_plain (byteCharacter_ne hescape) (byteCharacter_ne hsame) rest
  · exact scan_hexEscape byte.toNat_lt rest

theorem byteQuoteFor_eq (content : List UInt8) :
    byteQuoteFor content = 39 ∨ byteQuoteFor content = 34 := by
  rw [byteQuoteFor]
  split_ifs
  · exact .inr rfl
  · exact .inl rfl

/-- A quoted byte string is read back to its content, whatever follows it. -/
theorem decodeBytes_encodeBytes (content : List UInt8) (rest : List Char) :
    decodeBytes (encodeBytes content ++ rest) = some (content, rest) := by
  have hquote : byteCharacter (byteQuoteFor content) = '\'' ∨
      byteCharacter (byteQuoteFor content) = '"' := by
    rcases byteQuoteFor_eq content with hsame | hsame <;> rw [hsame] <;> decide
  have hcodes : (content.map byteCharacter).map (fun character ↦ UInt8.ofNat character.toNat) =
      content := by
    rw [List.map_map]
    exact (List.map_congr_left fun byte _ ↦ ofNat_toNat_byteCharacter byte).trans
      (List.map_id content)
  have hencoded : encodeBytes content ++ rest = 'b' :: byteCharacter (byteQuoteFor content) ::
      (content.flatMap (writtenByte (byteQuoteFor content)) ++
        byteCharacter (byteQuoteFor content) :: rest) :=
    congrArg (fun body ↦ 'b' :: byteCharacter (byteQuoteFor content) :: body)
      (List.append_assoc _ [_] rest)
  rw [hencoded, decodeBytes, decode_cons hquote,
    scan_flatMap hquote (scan_writtenByte (byteQuoteFor_eq content)), Option.map_some,
    Prod.map_apply, hcodes, id]

theorem encodeBytes_append_inj {content other : List UInt8} {rest following : List Char}
    (hsame : encodeBytes content ++ rest = encodeBytes other ++ following) :
    content = other ∧ rest = following := by
  have hread := congrArg decodeBytes hsame
  rw [decodeBytes_encodeBytes, decodeBytes_encodeBytes] at hread
  exact Prod.mk.inj (Option.some.inj hread)

end Metaobject.Text.Quoted
