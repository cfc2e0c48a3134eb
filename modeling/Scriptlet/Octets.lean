/-!
# Strings of octets

The strings that programs compute with are octets in a row. Most of them write a text, but any
octets are a string. `symbols` reads a string from its front: as a character where octets write
one in the shortest way, and as a single octet where they do not. A stray octet is shown as the
replacement character, so that strings may be shown as the same text and still differ.
-/

namespace Scriptlet

/-- A string: octets in a row, which need not write a text. -/
@[ext]
structure Octets where
  bytes : List UInt8
  deriving DecidableEq, Inhabited, Repr

namespace Octets

/-- The octets that write a text. -/
def ofString (s : String) : Octets :=
  ⟨s.toList.flatMap String.utf8EncodeChar⟩

instance : Coe String Octets := ⟨ofString⟩

instance : Append Octets := ⟨fun a b => ⟨a.bytes ++ b.bytes⟩⟩

/-- The order of strings goes by their octets. -/
instance : Ord Octets := ⟨fun a b => compare a.bytes b.bytes⟩

/-- Whether a string has no octets. -/
def isEmpty (o : Octets) : Bool :=
  o.bytes.isEmpty

/-- Strings one after the other, with `gap` between two of them. -/
def intercalate (gap : Octets) (items : List Octets) : Octets :=
  ⟨gap.bytes.intercalate (items.map bytes)⟩

/-- What stands at a place of a string: a character, or an octet that is part of none. -/
inductive Symbol where
  | char (c : Char)
  | stray (b : UInt8)

/-- The character for what is no character. -/
def replacement : Char := Char.ofNat 0xfffd

/-- The character that a symbol is shown as. -/
def Symbol.shown : Symbol → Char
  | char c => c
  | stray _ => replacement

/-- Whether a symbol is a character. -/
def Symbol.isChar : Symbol → Bool
  | char _ => true
  | stray _ => false

/-- The character at the front of octets, if they write one. -/
def front? (bytes : List UInt8) : Option Char :=
  (bytes.take 4).toByteArray.utf8DecodeChar? 0

/-- The symbols of octets, the first `skipped` of which belong to a character before them. -/
def symbolsFrom (skipped : Nat) : List UInt8 → List Symbol
  | [] => []
  | b :: bytes =>
      match skipped with
      | k + 1 => symbolsFrom k bytes
      | 0 =>
          match front? (b :: bytes) with
          | some c => .char c :: symbolsFrom (c.utf8Size - 1) bytes
          | none => .stray b :: symbolsFrom 0 bytes

/-- The symbols of a string. -/
def symbols (o : Octets) : List Symbol :=
  symbolsFrom 0 o.bytes

/-- The characters that a string is shown as. -/
def chars (o : Octets) : List Char :=
  o.symbols.map Symbol.shown

/-- The text that a string is shown as. -/
protected def toString (o : Octets) : String :=
  String.ofList o.chars

/-- Whether a string writes a text. -/
def isText (o : Octets) : Bool :=
  o.symbols.all Symbol.isChar

@[simp] theorem bytes_append (a b : Octets) : (a ++ b).bytes = a.bytes ++ b.bytes := rfl

/-! ### Strings that write a text -/

theorem ofString_append (s t : String) : ofString (s ++ t) = ofString s ++ ofString t := by
  rw [ofString, String.toList_append, List.flatMap_append]
  rfl

theorem front?_encoded (c : Char) (bytes : List UInt8) :
    front? (String.utf8EncodeChar c ++ bytes) = some c := by
  rw [front?, List.take_append, List.take_of_length_le (by simp [Char.utf8Size_le_four]),
    List.toByteArray_append]
  exact ByteArray.utf8DecodeChar?_utf8EncodeChar_append

theorem symbolsFrom_skipped (skipped bytes : List UInt8) :
    symbolsFrom skipped.length (skipped ++ bytes) = symbolsFrom 0 bytes := by
  induction skipped with
  | nil => rfl
  | cons b skipped ih => exact ih

/-- Behind the octets of a character reading goes on, whatever follows. -/
theorem symbolsFrom_encoded (c : Char) (bytes : List UInt8) :
    symbolsFrom 0 (String.utf8EncodeChar c ++ bytes) = .char c :: symbolsFrom 0 bytes := by
  have hfront := front?_encoded c bytes
  have hlength := String.length_utf8EncodeChar c
  cases hencoded : String.utf8EncodeChar c with
  | nil => exact absurd hencoded String.utf8EncodeChar_ne_nil
  | cons b more =>
      rw [hencoded, List.cons_append] at hfront
      rw [hencoded, List.length_cons] at hlength
      have hskipped : c.utf8Size - 1 = more.length := Nat.sub_eq_of_eq_add hlength.symm
      rw [List.cons_append, symbolsFrom, hfront]
      change _ :: symbolsFrom (c.utf8Size - 1) (more ++ bytes) = _
      rw [hskipped, symbolsFrom_skipped]

theorem symbols_ofString (s : String) : (ofString s).symbols = s.toList.map .char := by
  change symbolsFrom 0 (s.toList.flatMap String.utf8EncodeChar) = _
  induction s.toList with
  | nil => rfl
  | cons c cs ih => rw [List.flatMap_cons, symbolsFrom_encoded, ih, List.map_cons]

@[simp] theorem chars_ofString (s : String) : (ofString s).chars = s.toList := by
  rw [chars, symbols_ofString, List.map_map]
  exact List.map_id _

/-- A text is shown as itself. -/
@[simp] theorem toString_ofString (s : String) : (ofString s).toString = s := by
  rw [Octets.toString, chars_ofString, String.ofList_toList]

theorem ofString_intercalate (gap : String) (items : List String) :
    ofString (gap.intercalate items) = intercalate gap (items.map ofString) := by
  induction items with
  | nil => rfl
  | cons item items ih =>
      cases items with
      | nil => simp [intercalate]
      | cons next items =>
          rw [String.intercalate_cons_cons, ofString_append, ofString_append, ih]
          exact Octets.ext (by simp [intercalate])

end Octets

end Scriptlet
