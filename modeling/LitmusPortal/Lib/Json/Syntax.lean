import LitmusPortal.Lib.GoText

/-!
# JSON values and their tokens

A value is written as its tokens, and a token as its characters; how the contents of a string are
escaped is left open, so that the encoder of Go and the text without escapes are two cases of one.
-/

namespace GoJson

open GoText

/-! ## Numbers -/

def isWhole : List Char → Bool
  | [] => false
  | ['0'] => true
  | c :: rest => c != '0' && c.isDigit && rest.all Char.isDigit

/-- Nothing, or a mark with digits after it. -/
def isSuffix (digits : List Char → Bool) : List Char → Bool
  | [] => true
  | _ :: rest => digits rest

def isDigits (cs : List Char) : Bool := !cs.isEmpty && cs.all Char.isDigit

def withoutSign (signs : List Char) : List Char → List Char
  | [] => []
  | c :: rest => if c ∈ signs then rest else c :: rest

/-- The grammar of a number: its sign, its whole part, its fraction and its exponent. -/
def isNumber (cs : List Char) : Bool :=
  let unsigned := withoutSign ['-'] cs
  let mantissa := unsigned.takeWhile fun c => c != 'e' && c != 'E'
  let exponent := unsigned.dropWhile fun c => c != 'e' && c != 'E'
  isWhole (mantissa.takeWhile (· != '.')) && isSuffix isDigits (mantissa.dropWhile (· != '.')) &&
    isSuffix (fun digits => isDigits (withoutSign ['+', '-'] digits)) exponent

example : isNumber "-10.5e+3".toList = true ∧ isNumber "01".toList = false := by decide

def isNumberChar (c : Char) : Bool := c.isDigit || c ∈ ['+', '-', '.', 'e', 'E']

theorem all_of_withoutSign {signs cs : List Char} {p : Char → Bool} (hsigns : ∀ c ∈ signs, p c = true)
    (h : (withoutSign signs cs).all p = true) : cs.all p = true := by
  cases cs with
  | nil => rfl
  | cons c rest =>
      by_cases hc : c ∈ signs
      · simpa [withoutSign, hc, hsigns c hc] using h
      · simpa [withoutSign, hc] using h

theorem all_of_isSuffix {digits : List Char → Bool} {p mark : Char → Bool} {cs : List Char}
    (hdigits : ∀ rest, digits rest = true → rest.all p = true) (hmark : ∀ c, mark c = true → p c = true)
    (hhead : ∀ c ∈ cs.head?, mark c = true) (h : isSuffix digits cs = true) : cs.all p = true := by
  cases cs with
  | nil => rfl
  | cons c rest => simp [hmark c (hhead c rfl), hdigits rest h]

theorem isNumberChar_of_isDigit {c : Char} (h : c.isDigit = true) : isNumberChar c = true := by
  simp [isNumberChar, h]

theorem all_of_isDigits {cs : List Char} (h : isDigits cs = true) : cs.all isNumberChar = true := by
  simp only [isDigits, Bool.and_eq_true, List.all_eq_true] at h
  exact List.all_eq_true.mpr fun c hc => isNumberChar_of_isDigit (h.2 c hc)

theorem all_of_isWhole {cs : List Char} (h : isWhole cs = true) : cs.all isNumberChar = true := by
  unfold isWhole at h
  split at h
  · cases h
  · rfl
  · simp only [Bool.and_eq_true, List.all_eq_true] at h
    obtain ⟨⟨-, hc⟩, hrest⟩ := h
    simp only [List.all_cons, Bool.and_eq_true, List.all_eq_true]
    exact ⟨isNumberChar_of_isDigit hc, fun c hc => isNumberChar_of_isDigit (hrest c hc)⟩

theorem head?_dropWhile_not {p : Char → Bool} {cs : List Char} :
    ∀ c ∈ (cs.dropWhile p).head?, (!p c) = true := by
  intro c hc
  have hnot := List.head?_dropWhile_not p cs
  rw [Option.mem_def.mp hc] at hnot
  simpa using hnot

theorem all_of_isNumber {cs : List Char} (h : isNumber cs = true) : cs.all isNumberChar = true := by
  simp only [isNumber, Bool.and_eq_true] at h
  obtain ⟨⟨hwhole, hfraction⟩, hexponent⟩ := h
  have hdot : ∀ c : Char, (!(c != '.')) = true → isNumberChar c = true := by
    intro c hc
    obtain rfl : c = '.' := by simpa using hc
    rfl
  have hexp : ∀ c : Char, (!(c != 'e' && c != 'E')) = true → isNumberChar c = true := by
    intro c hc
    obtain rfl | rfl : c = 'e' ∨ c = 'E' := by
      by_cases he : c = 'e'
      · exact .inl he
      · exact .inr (by simpa [he] using hc)
    · rfl
    · rfl
  have hfraction := all_of_isSuffix (fun _ => all_of_isDigits) hdot head?_dropWhile_not hfraction
  have hsigned : ∀ rest, isDigits (withoutSign ['+', '-'] rest) = true → rest.all isNumberChar = true :=
    fun rest hrest => all_of_withoutSign (forall_mem_chars (by decide)) (all_of_isDigits hrest)
  have hexponent := all_of_isSuffix hsigned hexp head?_dropWhile_not hexponent
  have hmantissa : ((withoutSign ['-'] cs).takeWhile fun c => c != 'e' && c != 'E').all isNumberChar =
      true := by
    rw [← List.takeWhile_append_dropWhile (p := (· != '.'))
      (l := (withoutSign ['-'] cs).takeWhile fun c => c != 'e' && c != 'E'), List.all_append,
      all_of_isWhole hwhole, hfraction]
    rfl
  have hminus : ∀ c ∈ ['-'], isNumberChar c = true := forall_mem_chars (by decide)
  apply all_of_withoutSign hminus
  rw [← List.takeWhile_append_dropWhile (p := fun c => c != 'e' && c != 'E') (l := withoutSign ['-'] cs),
    List.all_append, hmantissa, hexponent]
  rfl

structure Number where
  chars : List Char
  valid : isNumber chars = true
  deriving DecidableEq

/-! ## Values -/

inductive Literal where
  | null
  | bool (b : Bool)
  | num (n : Number)
  deriving DecidableEq

inductive Json where
  | lit (l : Literal)
  | str (s : Text)
  | arr (items : List Json)
  | obj (members : List (Text × Json))

inductive Token where
  | lbrace
  | rbrace
  | lbrack
  | rbrack
  | colon
  | comma
  | str (s : Text)
  | lit (l : Literal)
  deriving DecidableEq

mutual

def Json.tokens : Json → List Token
  | .lit l => [.lit l]
  | .str s => [.str s]
  | .arr items => .lbrack :: (List.intercalate [.comma] (itemTokens items) ++ [.rbrack])
  | .obj members => .lbrace :: (List.intercalate [.comma] (memberTokens members) ++ [.rbrace])

def itemTokens : List Json → List (List Token)
  | [] => []
  | item :: rest => item.tokens :: itemTokens rest

def memberTokens : List (Text × Json) → List (List Token)
  | [] => []
  | (key, value) :: rest => (.str key :: .colon :: value.tokens) :: memberTokens rest

end

@[elab_as_elim]
theorem Json.induct {motive : Json → Prop} (lit : ∀ l, motive (.lit l)) (str : ∀ s, motive (.str s))
    (arr : ∀ items, (∀ item ∈ items, motive item) → motive (.arr items))
    (obj : ∀ members, (∀ key value, (key, value) ∈ members → motive value) → motive (.obj members))
    (j : Json) : motive j := by
  apply @Json.rec motive (fun items => ∀ item ∈ items, motive item)
    (fun members => ∀ key value, (key, value) ∈ members → motive value) (fun member => motive member.2)
    lit str arr obj
  · simp
  · intro head tail hhead htail item hitem
    obtain rfl | hitem := List.mem_cons.mp hitem
    · exact hhead
    · exact htail item hitem
  · simp
  · intro head tail hhead htail key value hmember
    obtain rfl | hmember := List.mem_cons.mp hmember
    · exact hhead
    · exact htail key value hmember
  · exact fun key value h => h

theorem itemTokens_eq_map (items : List Json) : itemTokens items = items.map Json.tokens := by
  induction items with
  | nil => rfl
  | cons item rest ih => simp [itemTokens, ih]

theorem memberTokens_eq_map (members : List (Text × Json)) :
    memberTokens members = members.map fun member => .str member.1 :: .colon :: member.2.tokens := by
  induction members with
  | nil => rfl
  | cons member rest ih => simp [memberTokens, ih]

/-! ## Characters -/

def Literal.chars : Literal → List Char
  | .null => "null".toList
  | .bool true => "true".toList
  | .bool false => "false".toList
  | .num n => n.chars

/-- The characters a token is written with: marks of the syntax, and the contents of a string. -/
inductive Symbol where
  | mark (c : Char)
  | content (r : Rune)
  deriving DecidableEq

def Token.symbols : Token → List Symbol
  | .lbrace => [.mark '{']
  | .rbrace => [.mark '}']
  | .lbrack => [.mark '[']
  | .rbrack => [.mark ']']
  | .colon => [.mark ':']
  | .comma => [.mark ',']
  | .str s => .mark '"' :: (s.map .content ++ [.mark '"'])
  | .lit l => l.chars.map .mark

def Json.symbols (j : Json) : List Symbol := j.tokens.flatMap Token.symbols

def Symbol.render (escape : Rune → Text) : Symbol → Text
  | .mark c => [.char c]
  | .content r => escape r

def render (escape : Rune → Text) (symbols : List Symbol) : Text := symbols.flatMap (Symbol.render escape)

/-- How `json.Marshal` writes a character of a string. -/
def escapeRune : Rune → Text
  | .invalid _ => ofString "\\ufffd"
  | .char c =>
      if c = '"' ∨ c = '\\' then ofChars ['\\', c]
      else if c = '\n' then ofString "\\n"
      else if c = '\r' then ofString "\\r"
      else if c = '\t' then ofString "\\t"
      else if c < ' ' ∨ c ∈ ['<', '>', '&', '\u2028', '\u2029'] then
        ofChars ('\\' :: 'u' :: hexDigits 4 c.toNat)
      else [.char c]

def marshal (j : Json) : Text := render escapeRune j.symbols

end GoJson
