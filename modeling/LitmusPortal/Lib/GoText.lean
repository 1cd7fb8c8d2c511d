import Mathlib.Data.List.Basic

/-!
# Strings as Go reads them

A string of Go is any sequence of bytes. What reads it by runes meets characters, and single bytes
that begin no valid encoding.
-/

namespace GoText

inductive Rune where
  | char (c : Char)
  | invalid (byte : UInt8)
  deriving DecidableEq, Repr

abbrev Text := List Rune

def ofChars (cs : List Char) : Text := cs.map .char

def ofString (s : String) : Text := ofChars s.toList

/-- `utf8.RuneError`, which stands for an invalid byte where a text has to be valid. -/
def runeError : Char := '\uFFFD'

def Rune.sanitize : Rune → Rune
  | .char c => .char c
  | .invalid _ => .char runeError

/-- `strings.ToValidUTF8` with the replacement character, byte for byte. -/
def sanitize (text : Text) : Text := text.map Rune.sanitize

def Rune.bytes : Rune → List UInt8
  | .char c => String.utf8EncodeChar c
  | .invalid byte => [byte]

def bytes (text : Text) : List UInt8 := text.flatMap Rune.bytes

/-- `skip` counts the bytes left of a character that has been read. -/
def decodeRunes : Nat → List UInt8 → Text
  | _, [] => []
  | skip + 1, _ :: rest => decodeRunes skip rest
  | 0, byte :: rest =>
      match ByteArray.utf8DecodeChar? ⟨(byte :: rest).toArray⟩ 0 with
      | some c => .char c :: decodeRunes (c.utf8Size - 1) rest
      | none => .invalid byte :: decodeRunes 0 rest

/-- `string(bytes)` -/
def ofBytes (bytes : List UInt8) : Text := decodeRunes 0 bytes

example : ofBytes [104, 195, 169, 255] = [.char 'h', .char 'é', .invalid 255] := by decide

/-! ### Bytes that encode characters -/

theorem decodeRunes_skip (front rest : List UInt8) :
    decodeRunes front.length (front ++ rest) = decodeRunes 0 rest := by
  induction front with
  | nil => rfl
  | cons byte front ih => exact ih

theorem decodeRunes_utf8EncodeChar (c : Char) (rest : List UInt8) :
    decodeRunes 0 (String.utf8EncodeChar c ++ rest) = .char c :: decodeRunes 0 rest := by
  have hdecode : ByteArray.utf8DecodeChar? ⟨(String.utf8EncodeChar c ++ rest).toArray⟩ 0 = some c := by
    have hbytes : (⟨(String.utf8EncodeChar c ++ rest).toArray⟩ : ByteArray) =
        (String.utf8EncodeChar c).toByteArray ++ rest.toByteArray := by
      rw [← List.toByteArray_append]
      exact ByteArray.ext List.data_toByteArray.symm
    rw [hbytes]
    exact ByteArray.utf8DecodeChar?_utf8EncodeChar_append
  have hlength := String.length_utf8EncodeChar c
  cases hchar : String.utf8EncodeChar c with
  | nil => exact absurd hchar String.utf8EncodeChar_ne_nil
  | cons byte front =>
      rw [hchar] at hdecode hlength
      have hskip : c.utf8Size - 1 = front.length := by
        rw [← hlength]
        rfl
      rw [List.cons_append] at hdecode ⊢
      rw [decodeRunes, hdecode]
      dsimp only
      rw [hskip, decodeRunes_skip]

theorem ofBytes_bytes_ofChars (cs : List Char) : ofBytes (bytes (ofChars cs)) = ofChars cs := by
  induction cs with
  | nil => rfl
  | cons c cs ih =>
      calc
        ofBytes (bytes (ofChars (c :: cs))) = decodeRunes 0 (String.utf8EncodeChar c ++ bytes (ofChars cs)) := rfl
        _ = .char c :: ofBytes (bytes (ofChars cs)) := decodeRunes_utf8EncodeChar c _
        _ = ofChars (c :: cs) := congrArg (.char c :: ·) ih

/-- The word has no invalid byte. -/
def toChars? (text : Text) : Option (List Char) :=
  text.mapM fun
    | .char c => some c
    | .invalid _ => none

@[simp]
theorem Rune.sanitize_char (c : Char) : (Rune.char c).sanitize = .char c := rfl

@[simp]
theorem Rune.sanitize_sanitize (r : Rune) : r.sanitize.sanitize = r.sanitize := by
  cases r <;> rfl

@[simp]
theorem sanitize_nil : sanitize [] = [] := rfl

@[simp]
theorem sanitize_append (left right : Text) : sanitize (left ++ right) = sanitize left ++ sanitize right :=
  List.map_append

@[simp]
theorem sanitize_sanitize (text : Text) : sanitize (sanitize text) = sanitize text := by
  simp [sanitize]

theorem Rune.sanitize_eq_self_iff {r : Rune} : r.sanitize = r ↔ ∃ c, r = .char c := by
  cases r with
  | char c => simp
  | invalid byte => simp [sanitize]

theorem sanitize_eq_self {text : Text} (h : ∀ r ∈ text, ∃ c, r = .char c) : sanitize text = text := by
  have hself : ∀ r ∈ text, r.sanitize = r := fun r hr => Rune.sanitize_eq_self_iff.mpr (h r hr)
  exact (List.map_congr_left hself).trans (List.map_id _)

@[simp]
theorem sanitize_ofChars (cs : List Char) : sanitize (ofChars cs) = ofChars cs := by
  simp [sanitize, ofChars]

@[simp]
theorem sanitize_ofString (s : String) : sanitize (ofString s) = ofString s := sanitize_ofChars _

theorem forall_mem_chars {p : Char → Prop} [DecidablePred p] {cs : List Char}
    (h : (cs.all fun c => decide (p c)) = true) : ∀ c ∈ cs, p c := by
  simpa using h

/-! ## Hexadecimal digits -/

def hexDigit (n : Nat) : Char :=
  "0123456789abcdef".toList.getD n '0'

/-- The last `count` digits of a number. -/
def hexDigits : Nat → Nat → List Char
  | 0, _ => []
  | count + 1, n => hexDigits count (n / 16) ++ [hexDigit (n % 16)]

def hexValue (c : Char) : Option Nat :=
  if '0' ≤ c ∧ c ≤ '9' then some (c.toNat - '0'.toNat)
  else if 'a' ≤ c ∧ c ≤ 'f' then some (c.toNat - 'a'.toNat + 10)
  else if 'A' ≤ c ∧ c ≤ 'F' then some (c.toNat - 'A'.toNat + 10)
  else none

theorem hexValue_hexDigit {n : Nat} (h : n < 16) : hexValue (hexDigit n) = some n := by
  have hall : ∀ n < 16, hexValue (hexDigit n) = some n := by decide
  exact hall n h

theorem hexDigits_sum {n : Nat} (h : n < 0x10000) :
    16 * (16 * (16 * (n / 16 / 16 / 16 % 16) + n / 16 / 16 % 16) + n / 16 % 16) + n % 16 = n := by
  omega

/-- The escapes of one character, which JSON and GraphQL share. -/
def unescape : Char → Option Char
  | '"' => some '"'
  | '\\' => some '\\'
  | '/' => some '/'
  | 'b' => some '\x08'
  | 'f' => some '\x0c'
  | 'n' => some '\n'
  | 'r' => some '\r'
  | 't' => some '\t'
  | _ => none

/-- The character of a code point, and `utf8.RuneError` for half of a surrogate pair. -/
def ofCodePoint (n : Nat) : Char :=
  if n.isValidChar then Char.ofNat n else runeError

theorem ofCodePoint_toNat (c : Char) : ofCodePoint c.toNat = c := by
  have hvalid : c.toNat.isValidChar := c.valid
  simp [ofCodePoint, hvalid]

end GoText
