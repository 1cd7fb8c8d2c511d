import LitmusPortal.Lib.Json.Lexer
import Mathlib.Algebra.Order.BigOperators.Group.List
import Mathlib.Algebra.Order.Ring.Nat

/-!
# The texts of a value

What `json.Marshal` writes is read back with its invalid bytes replaced, and a text without escapes
is read back where no character needs one. No text of a value is shorter than the one in which each
character that needs an escape has one of two characters.
-/

namespace GoJson

open GoText

/-! ## Escapes -/

theorem run_hex (tokens : List Token) (read : List Piece) {n : Nat} (h : n < 0x10000) :
    Transition.run lexStep ⟨tokens, .hex read 0 0⟩ (ofChars (hexDigits 4 n)) =
      some ⟨tokens, .str (.unit n :: read)⟩ := by
  have hdigit : ∀ k, hexValue (hexDigit (k % 16)) = some (k % 16) :=
    fun k => hexValue_hexDigit (Nat.mod_lt _ (by decide))
  simp [hexDigits, ofChars, lexStep, hdigit, hexDigits_sum h]

theorem run_unicode (tokens : List Token) (read : List Piece) {n : Nat} (h : n < 0x10000) :
    Transition.run lexStep ⟨tokens, .str read⟩ (ofChars ('\\' :: 'u' :: hexDigits 4 n)) =
      some ⟨tokens, .str (.unit n :: read)⟩ :=
  run_hex tokens read h

theorem isHigh_toNat (c : Char) : isHigh c.toNat = false := by
  have hvalid : c.toNat.isValidChar := c.valid
  simp only [Nat.isValidChar] at hvalid
  simp only [isHigh, Bool.and_eq_false_iff, decide_eq_false_iff_not]
  omega

theorem readsPiece_unicode {c : Char} (h : c.toNat < 0x10000) :
    ReadsPiece (ofChars ('\\' :: 'u' :: hexDigits 4 c.toNat)) (.unit c.toNat) where
  run tokens read := run_unicode tokens read h
  whole := by
    rintro n ⟨⟩
    exact isHigh_toNat c

theorem readsPiece_char {c : Char} (hquote : c ≠ '"') (hslash : c ≠ '\\') (hspace : ' ' ≤ c) :
    ReadsPiece [.char c] (.rune (.char c)) where
  run tokens read := by
    have hnot : ¬ c < ' ' := Char.not_lt.mpr hspace
    simp [lexStep, lexStr, hquote, hslash, hnot]
  whole n h := by cases h

/-- The piece that `json.Marshal` makes of a character. -/
def escapePiece : Rune → Piece
  | .invalid _ => .unit runeError.toNat
  | .char c =>
      if c ∈ ['"', '\\', '\n', '\r', '\t'] then .rune (.char c)
      else if c < ' ' ∨ c ∈ ['<', '>', '&', '\u2028', '\u2029'] then .unit c.toNat
      else .rune (.char c)

theorem rune?_escapePiece (r : Rune) : (escapePiece r).rune? = r.sanitize := by
  cases r with
  | invalid byte => rfl
  | char c =>
      simp only [escapePiece]
      split_ifs <;> simp [Piece.rune?, ofCodePoint_toNat]

theorem toNat_lt_of_lt {c limit : Char} (h : c < limit) : c.toNat < limit.toNat := h

theorem readsPiece_escapeRune (r : Rune) : ReadsPiece (escapeRune r) (escapePiece r) := by
  cases r with
  | invalid byte =>
      constructor
      · exact fun tokens read => rfl
      · rintro n ⟨⟩
        rfl
  | char c =>
      unfold escapeRune escapePiece
      by_cases hmark : c ∈ ['"', '\\', '\n', '\r', '\t']
      · simp only [hmark, if_true]
        refine ⟨fun tokens read => ?_, fun n h => by cases h⟩
        simp only [List.mem_cons, List.not_mem_nil, or_false] at hmark
        rcases hmark with rfl | rfl | rfl | rfl | rfl <;> rfl
      · simp only [hmark, if_false]
        simp only [List.mem_cons, List.not_mem_nil, or_false, not_or] at hmark
        obtain ⟨hquote, hslash, hnewline, hreturn, htab⟩ := hmark
        rw [if_neg (by simp [hquote, hslash]), if_neg hnewline, if_neg hreturn, if_neg htab]
        by_cases hcode : c < ' ' ∨ c ∈ ['<', '>', '&', '\u2028', '\u2029']
        · rw [if_pos hcode, if_pos hcode]
          apply readsPiece_unicode
          rcases hcode with hcontrol | hcode
          · exact (toNat_lt_of_lt hcontrol).trans (by decide)
          · have hall : ∀ c ∈ ['<', '>', '&', '\u2028', '\u2029'], c.toNat < 0x10000 :=
              forall_mem_chars (by decide)
            exact hall c hcode
        · rw [if_neg hcode, if_neg hcode]
          exact readsPiece_char hquote hslash (Char.not_lt.mp fun hcontrol => hcode (.inl hcontrol))

def Json.sanitize (j : Json) : Json := j.mapText Rune.sanitize

/-- What `json.Marshal` writes is valid, and its value that of the text with the invalid bytes
replaced. -/
theorem parse_marshal (j : Json) : parse (marshal j) = some j.sanitize := by
  have hreads := parse_render (j := j) fun r _ => readsPiece_escapeRune r
  simp only [rune?_escapePiece] at hreads
  exact hreads

/-! ## Texts without escapes -/

/-- A character that a string shows as it is. -/
def Shown (r : Rune) : Prop := ∃ c, r = .char c ∧ c ≠ '"' ∧ c ≠ '\\' ∧ ' ' ≤ c

def unescaped (j : Json) : Text := render (fun r => [r]) j.symbols

theorem mapText_eq_self {f : Rune → Rune} {j : Json} (h : ∀ r ∈ j.runes, f r = r) : j.mapText f = j := by
  have htokens : (j.mapText f).tokens = j.tokens := by
    rw [tokens_mapText]
    have hself : ∀ token ∈ j.tokens, token.mapText f = token := by
      intro token htoken
      cases token with
      | str s =>
          have hs : ∀ r ∈ s, f r = id r :=
            fun r hr => h r (List.mem_flatMap.mpr ⟨.str s, htoken, hr⟩)
          simp [Token.mapText, List.map_congr_left hs]
      | _ => rfl
    exact (List.map_congr_left hself).trans (List.map_id _)
  have hparse := parseTokens_eq_some_iff.mpr htokens.symm
  exact Option.some.inj (hparse.symm.trans (parseTokens_eq_some_iff.mpr rfl))

theorem parse_unescaped {j : Json} (h : ∀ r ∈ j.runes, Shown r) : parse (unescaped j) = some j := by
  have hreads : ∀ r ∈ j.runes, ReadsPiece [r] (.rune r) := by
    intro r hr
    obtain ⟨c, rfl, hquote, hslash, hspace⟩ := h r hr
    exact readsPiece_char hquote hslash hspace
  have hself : ∀ r ∈ j.runes, (Piece.rune r).rune? = r := by
    intro r hr
    obtain ⟨c, rfl, -⟩ := h r hr
    rfl
  rw [unescaped, parse_render hreads, mapText_eq_self hself]

/-! ## The length of a text -/

/-- The least number of characters that stand for one in a string. None stand for an invalid byte. -/
def runeCost : Rune → Nat
  | .char c => if c = '"' ∨ c = '\\' ∨ c < ' ' then 2 else 1
  | .invalid _ => 2

def textCost (text : Text) : Nat := (text.map runeCost).sum

def Token.cost : Token → Nat
  | .str s => textCost s + 2
  | .lit l => l.chars.length
  | _ => 1

def tokensCost (tokens : List Token) : Nat := (tokens.map Token.cost).sum

def Piece.cost : Piece → Nat
  | .rune r => runeCost r.sanitize
  | .unit _ => 2

def piecesCost (pieces : List Piece) : Nat := (pieces.map Piece.cost).sum

def Mode.cost : Mode → Nat
  | .idle => 0
  | .literal read => read.length
  | .str read => piecesCost read + 1
  | .escape read => piecesCost read + 2
  | .hex read digits _ => piecesCost read + 3 + digits

def LexState.cost (state : LexState) : Nat := tokensCost state.tokens + state.mode.cost

theorem runeCost_pos (r : Rune) : 1 ≤ runeCost r := by
  cases r with
  | invalid byte => exact Nat.le_succ 1
  | char c =>
      simp only [runeCost]
      split_ifs <;> decide

theorem runeCost_le (r : Rune) : runeCost r ≤ 2 := by
  cases r with
  | invalid byte => exact le_rfl
  | char c =>
      simp only [runeCost]
      split_ifs <;> decide

theorem runeCost_eq_one_iff {r : Rune} : runeCost r = 1 ↔ Shown r := by
  cases r with
  | invalid byte => simp [runeCost, Shown]
  | char c =>
      have hspace : ¬ c < ' ' ↔ ' ' ≤ c := Char.not_lt
      by_cases hmark : c = '"' ∨ c = '\\' ∨ c < ' '
      · simp only [runeCost, hmark, if_true, Shown, Rune.char.injEq, exists_eq_left']
        grind
      · simp only [runeCost, hmark, if_false, Shown, Rune.char.injEq, exists_eq_left', true_iff]
        grind

theorem textCost_decodePieces (pieces : List Piece) : textCost (decodePieces pieces) ≤ piecesCost pieces := by
  fun_induction decodePieces pieces with
  | case1 => exact le_rfl
  | case2 high low rest hpair ih =>
      have hrune := runeCost_le (.char (ofCodePoint (0x10000 + (high - 0xD800) * 0x400 + (low - 0xDC00))))
      simp only [textCost, piecesCost, List.map_cons, List.sum_cons, Piece.cost] at ih ⊢
      omega
  | case3 high low rest hpair ih =>
      have hrune := runeCost_le (.char (ofCodePoint high))
      simp only [textCost, piecesCost, List.map_cons, List.sum_cons, Piece.cost] at ih ⊢
      omega
  | case4 piece rest hnot ih =>
      have hpiece : runeCost piece.rune? ≤ piece.cost := by
        cases piece with
        | unit n => exact runeCost_le _
        | rune r => exact le_rfl
      simp only [textCost, piecesCost, List.map_cons, List.sum_cons] at ih ⊢
      omega

theorem tokensCost_cons (token : Token) (tokens : List Token) :
    tokensCost (token :: tokens) = token.cost + tokensCost tokens := by
  simp [tokensCost]

theorem cost_lexIdle (tokens : List Token) (c : Char) :
    (lexIdle tokens c).cost ≤ tokensCost tokens + 1 := by
  have hdelimiter : ∀ token, delimiter c = some token → token.cost = 1 := by
    intro token htoken
    unfold delimiter at htoken
    split at htoken <;> first | (obtain rfl := Option.some.inj htoken; rfl) | cases htoken
  unfold lexIdle
  split_ifs
  · exact Nat.le_succ _
  · simp [LexState.cost, Mode.cost, piecesCost]
  · split
    · rename_i token htoken
      simp [LexState.cost, Mode.cost, tokensCost_cons, hdelimiter token htoken, Nat.add_comm]
    · simp [LexState.cost, Mode.cost]

theorem cost_lexStr {tokens : List Token} {read : List Piece} {r : Rune} {state : LexState}
    (h : lexStr tokens read r = some state) :
    state.cost ≤ tokensCost tokens + piecesCost read + 2 := by
  cases r with
  | invalid byte =>
      obtain rfl := Option.some.inj h
      have hone : runeCost (Rune.invalid byte).sanitize = 1 := by simp [Rune.sanitize, runeCost, runeError]
      simp only [LexState.cost, Mode.cost, piecesCost, List.map_cons, List.sum_cons, Piece.cost, hone]
      omega
  | char c =>
      simp only [lexStr] at h
      split_ifs at h with hquote hslash hcontrol
      · obtain rfl := Option.some.inj h
        have hdecode := textCost_decodePieces read.reverse
        have hreverse : piecesCost read.reverse = piecesCost read := by
          simp [piecesCost, List.sum_reverse]
        simp only [LexState.cost, Mode.cost, tokensCost_cons, Token.cost]
        omega
      · obtain rfl := Option.some.inj h
        simp only [LexState.cost, Mode.cost]
        omega
      · obtain rfl := Option.some.inj h
        have hone : runeCost (.char c) = 1 := by simp [runeCost, hquote, hslash, hcontrol]
        simp only [LexState.cost, Mode.cost, piecesCost, List.map_cons, List.sum_cons, Piece.cost, Rune.sanitize_char,
          hone]
        omega

theorem cost_lexStep {state next : LexState} {r : Rune} (h : lexStep state r = some next) :
    next.cost ≤ state.cost + 1 := by
  obtain ⟨tokens, mode⟩ := state
  cases mode with
  | str read =>
      have hstr := cost_lexStr h
      simp only [LexState.cost, Mode.cost] at hstr ⊢
      omega
  | idle =>
      cases r with
      | invalid byte => cases h
      | char c =>
          obtain rfl := Option.some.inj h
          exact cost_lexIdle tokens c
  | literal read =>
      cases r with
      | invalid byte => cases h
      | char c =>
          unfold lexStep at h
          dsimp only at h
          split_ifs at h with hends
          · obtain ⟨l, hl, rfl⟩ := Option.map_eq_some_iff.mp h
            have hidle := cost_lexIdle (.lit l :: tokens) c
            have hchars : l.chars.length = read.length := by simp [Literal.chars_ofChars hl]
            simp only [LexState.cost, Mode.cost, tokensCost_cons, Token.cost] at hidle ⊢
            omega
          · obtain rfl := Option.some.inj h
            simp [LexState.cost, Mode.cost, Nat.add_assoc]
  | escape read =>
      cases r with
      | invalid byte => cases h
      | char c =>
          unfold lexStep at h
          dsimp only at h
          split_ifs at h with hu
          · obtain rfl := Option.some.inj h
            simp only [LexState.cost, Mode.cost]
            omega
          · obtain ⟨c, -, rfl⟩ := Option.map_eq_some_iff.mp h
            have hrune := runeCost_le (.char c)
            simp only [LexState.cost, Mode.cost, piecesCost, List.map_cons, List.sum_cons, Piece.cost,
              Rune.sanitize_char]
            omega
  | hex read digits value =>
      cases r with
      | invalid byte => cases h
      | char c =>
          obtain ⟨digit, -, heq⟩ := Option.map_eq_some_iff.mp h
          split_ifs at heq with hlast
          · obtain rfl := heq
            simp only [LexState.cost, Mode.cost, piecesCost, List.map_cons, List.sum_cons, Piece.cost]
            omega
          · obtain rfl := heq
            simp only [LexState.cost, Mode.cost]
            omega

theorem cost_run {text : Text} {state next : LexState}
    (h : Transition.run lexStep state text = some next) : next.cost ≤ state.cost + text.length := by
  induction text generalizing state with
  | nil =>
      obtain rfl := Option.some.inj h
      exact le_rfl
  | cons r rest ih =>
      obtain ⟨mid, hstep, hrest⟩ := Option.bind_eq_some_iff.mp h
      have hmid := cost_lexStep hstep
      have hnext := ih hrest
      simp only [List.length_cons]
      omega

theorem cost_lex {text : Text} {tokens : List Token} (h : lex text = some tokens) :
    tokensCost tokens ≤ text.length := by
  obtain ⟨⟨found, mode⟩, hrun, hfinish⟩ := Option.bind_eq_some_iff.mp h
  have hcost := cost_run hrun
  have hreverse : ∀ tokens : List Token, tokensCost tokens.reverse = tokensCost tokens := by
    simp [tokensCost, List.sum_reverse]
  cases mode with
  | idle =>
      obtain rfl := Option.some.inj hfinish
      rw [hreverse]
      simpa [LexState.cost, Mode.cost, tokensCost] using hcost
  | literal read =>
      obtain ⟨l, hl, rfl⟩ := Option.map_eq_some_iff.mp hfinish
      have hchars : l.chars.length = read.length := by simp [Literal.chars_ofChars hl]
      rw [hreverse, tokensCost_cons, Token.cost, hchars]
      simpa [LexState.cost, Mode.cost, tokensCost, Nat.add_comm] using hcost
  | str | escape | hex => cases hfinish

/-- No text of a value is shorter than what its characters cost. -/
theorem cost_parse {text : Text} {j : Json} (h : parse text = some j) :
    tokensCost j.tokens ≤ text.length := by
  obtain ⟨tokens, hlex, hparse⟩ := Option.bind_eq_some_iff.mp h
  rw [← parseTokens_eq_some_iff.mp hparse]
  exact cost_lex hlex

theorem le_of_sum_le {α : Type} {f g : α → Nat} {xs : List α} (hle : ∀ x ∈ xs, f x ≤ g x)
    (hsum : (xs.map g).sum ≤ (xs.map f).sum) : ∀ x ∈ xs, g x ≤ f x := by
  intro x hx
  by_contra hlt
  exact absurd (List.sum_lt_sum f g hle ⟨x, hx, Nat.lt_of_not_le hlt⟩) (Nat.not_lt.mpr hsum)

theorem length_le_textCost (s : Text) : s.length ≤ textCost s := by
  have hsum := List.sum_le_sum fun r (_ : r ∈ s) => runeCost_pos r
  simpa [textCost] using hsum

theorem length_symbols_le (token : Token) : token.symbols.length ≤ token.cost := by
  cases token with
  | str s =>
      have hlength := length_le_textCost s
      simp only [Token.symbols, Token.cost, List.length_cons, List.length_append, List.length_map,
        List.length_nil]
      omega
  | _ => simp [Token.symbols, Token.cost]

theorem shown_of_cost_le {token : Token} (h : token.cost ≤ token.symbols.length) :
    ∀ r ∈ token.runes, Shown r := by
  cases token with
  | str s =>
      have hcost : textCost s ≤ s.length := by simpa [Token.symbols, Token.cost] using h
      intro r hr
      have hsum : (s.map runeCost).sum ≤ (s.map fun _ => 1).sum := by simpa [textCost] using hcost
      have hone := le_of_sum_le (fun r _ => runeCost_pos r) hsum r hr
      exact runeCost_eq_one_iff.mp (hone.antisymm (runeCost_pos r))
  | _ => simp [Token.runes]

/-- A value whose text could have no character less shows every character of its strings. -/
theorem shown_of_tokensCost_le {j : Json} (h : tokensCost j.tokens ≤ j.symbols.length) :
    ∀ r ∈ j.runes, Shown r := by
  intro r hr
  obtain ⟨token, htoken, hr⟩ := List.mem_flatMap.mp hr
  have hsum : (j.tokens.map Token.cost).sum ≤
      (j.tokens.map fun token => token.symbols.length).sum := by
    rw [Json.symbols, List.length_flatMap] at h
    exact h
  exact shown_of_cost_le (le_of_sum_le (fun token _ => length_symbols_le token) hsum token htoken) r hr

end GoJson
