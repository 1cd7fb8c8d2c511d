import LitmusPortal.Lib.GoText

/-!
# Quoting in Go

`strconv.Quote`, and the replacement of one word by another in its result. Which characters are
printable is a matter of the Unicode tables, and left open.
-/

namespace GoText

def quoteLetter : Char → Option Char
  | '\x07' => some 'a'
  | '\x08' => some 'b'
  | '\x0c' => some 'f'
  | '\n' => some 'n'
  | '\r' => some 'r'
  | '\t' => some 't'
  | '\x0b' => some 'v'
  | _ => none

/-- `strconv.appendEscapedRune` for double quotes. -/
def quoteRune (isPrint : Char → Bool) : Rune → Text
  | .invalid byte => ofChars ('\\' :: 'x' :: hexDigits 2 byte.toNat)
  | .char c =>
      if c = '"' ∨ c = '\\' then ofChars ['\\', c]
      else if isPrint c then [.char c]
      else
        match quoteLetter c with
        | some letter => ofChars ['\\', letter]
        | none =>
            if c < ' ' then ofChars ('\\' :: 'x' :: hexDigits 2 c.toNat)
            else if c.toNat < 0x10000 then ofChars ('\\' :: 'u' :: hexDigits 4 c.toNat)
            else ofChars ('\\' :: 'U' :: hexDigits 8 c.toNat)

/-- `strconv.Quote` -/
def quote (isPrint : Char → Bool) (text : Text) : Text :=
  .char '"' :: (text.flatMap (quoteRune isPrint) ++ [.char '"'])

/-- `skip` counts the runes left of an occurrence that has been replaced. -/
def replaceRunes (old new : Text) : Nat → Text → Text
  | _, [] => []
  | skip + 1, _ :: rest => replaceRunes old new skip rest
  | 0, r :: rest =>
      if old.isPrefixOf (r :: rest) then new ++ replaceRunes old new (old.length - 1) rest
      else r :: replaceRunes old new 0 rest

/-- `strings.Replace` of every occurrence of a non-empty word. -/
def replaceAll (text old new : Text) : Text := replaceRunes old new 0 text

theorem replaceRunes_of_ne {old new : Text} {first r : Rune} {rest : Text} (h : r ≠ first) :
    replaceRunes (first :: old) new 0 (r :: rest) = r :: replaceRunes (first :: old) new 0 rest := by
  have hnot : (first == r) = false := beq_eq_false_iff_ne.mpr h.symm
  simp [replaceRunes, List.isPrefixOf, hnot]

theorem replaceRunes_of_not_mem {old new : Text} {first : Rune} {front rest : Text}
    (h : first ∉ front) :
    replaceRunes (first :: old) new 0 (front ++ rest) =
      front ++ replaceRunes (first :: old) new 0 rest := by
  induction front with
  | nil => rfl
  | cons r front ih =>
      rw [List.cons_append, replaceRunes_of_ne (List.ne_of_not_mem_cons h).symm,
        ih (List.not_mem_of_not_mem_cons h), List.cons_append]

theorem replaceRunes_pair_of_ne {new : Text} {first second r : Rune} {rest : Text} (h : r ≠ second) :
    replaceRunes [first, second] new 0 (first :: r :: rest) =
      first :: replaceRunes [first, second] new 0 (r :: rest) := by
  have hnot : (second == r) = false := beq_eq_false_iff_ne.mpr h.symm
  rw [replaceRunes]
  simp [List.isPrefixOf, hnot]

theorem replaceRunes_pair {new : Text} {first second : Rune} {rest : Text} :
    replaceRunes [first, second] new 0 (first :: second :: rest) =
      new ++ replaceRunes [first, second] new 0 rest := by
  simp [replaceRunes, List.isPrefixOf]

end GoText
