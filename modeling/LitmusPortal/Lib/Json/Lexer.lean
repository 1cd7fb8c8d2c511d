import LitmusPortal.Lib.Json.Parser
import Mathlib.Data.List.Chain

/-!
# Reading the characters of JSON

A machine that goes over the characters with the tokens found so far. The contents of a string are
collected in pieces: half a surrogate pair may come with each escape, and two halves make one
character.
-/

namespace GoJson

open GoText

/-- A character of a string, or the code unit of an escape. -/
inductive Piece where
  | rune (r : Rune)
  | unit (n : Nat)
  deriving DecidableEq

def isHigh (n : Nat) : Bool := 0xD800 ≤ n && n < 0xDC00

def isLow (n : Nat) : Bool := 0xDC00 ≤ n && n < 0xE000

def Piece.rune? : Piece → Rune
  | .rune r => r.sanitize
  | .unit n => .char (ofCodePoint n)

def decodePieces : List Piece → Text
  | [] => []
  | .unit high :: .unit low :: rest =>
      if isHigh high && isLow low then
        .char (ofCodePoint (0x10000 + (high - 0xD800) * 0x400 + (low - 0xDC00))) :: decodePieces rest
      else .char (ofCodePoint high) :: decodePieces (.unit low :: rest)
  | piece :: rest => piece.rune? :: decodePieces rest

/-- The marks read last come first. -/
inductive Mode where
  | idle
  | literal (read : List Char)
  | str (read : List Piece)
  | escape (read : List Piece)
  /-- After some of the four digits of an escape, with the number they make. -/
  | hex (read : List Piece) (digits value : Nat)
  deriving DecidableEq

structure LexState where
  tokens : List Token
  mode : Mode
  deriving DecidableEq

def isSpace (c : Char) : Bool := c ∈ [' ', '\t', '\r', '\n']

def delimiter : Char → Option Token
  | '{' => some .lbrace
  | '}' => some .rbrace
  | '[' => some .lbrack
  | ']' => some .rbrack
  | ':' => some .colon
  | ',' => some .comma
  | _ => none

def Literal.ofChars (cs : List Char) : Option Literal :=
  if cs = "null".toList then some .null
  else if cs = "true".toList then some (.bool true)
  else if cs = "false".toList then some (.bool false)
  else if h : isNumber cs = true then some (.num ⟨cs, h⟩)
  else none

def lexIdle (tokens : List Token) (c : Char) : LexState :=
  if isSpace c then ⟨tokens, .idle⟩
  else if c = '"' then ⟨tokens, .str []⟩
  else
    match delimiter c with
    | some token => ⟨token :: tokens, .idle⟩
    | none => ⟨tokens, .literal [c]⟩

def endsLiteral (c : Char) : Bool := isSpace c || c = '"' || (delimiter c).isSome

def lexStr (tokens : List Token) (read : List Piece) : Rune → Option LexState
  | .char c =>
      if c = '"' then some ⟨.str (decodePieces read.reverse) :: tokens, .idle⟩
      else if c = '\\' then some ⟨tokens, .escape read⟩
      else if c < ' ' then none
      else some ⟨tokens, .str (.rune (.char c) :: read)⟩
  | .invalid byte => some ⟨tokens, .str (.rune (.invalid byte) :: read)⟩

def lexStep (state : LexState) (r : Rune) : Option LexState :=
  match state.mode, r with
  | .str read, r => lexStr state.tokens read r
  | .idle, .char c => some (lexIdle state.tokens c)
  | .literal read, .char c =>
      if endsLiteral c then
        (Literal.ofChars read.reverse).map fun l => lexIdle (.lit l :: state.tokens) c
      else some ⟨state.tokens, .literal (c :: read)⟩
  | .escape read, .char c =>
      if c = 'u' then some ⟨state.tokens, .hex read 0 0⟩
      else (unescape c).map fun c => ⟨state.tokens, .str (.rune (.char c) :: read)⟩
  | .hex read digits value, .char c =>
      (hexValue c).map fun digit =>
        if digits = 3 then ⟨state.tokens, .str (.unit (16 * value + digit) :: read)⟩
        else ⟨state.tokens, .hex read (digits + 1) (16 * value + digit)⟩
  | _, .invalid _ => none

def LexState.finish : LexState → Option (List Token)
  | ⟨tokens, .idle⟩ => some tokens.reverse
  | ⟨tokens, .literal read⟩ =>
      (Literal.ofChars read.reverse).map fun l => (.lit l :: tokens).reverse
  | _ => none

def lex (text : Text) : Option (List Token) :=
  (Transition.run lexStep ⟨[], .idle⟩ text).bind LexState.finish

def parse (text : Text) : Option Json := (lex text).bind parseTokens

/-! ## What is written is read -/

theorem decodePieces_eq_map {pieces : List Piece} (h : ∀ n, .unit n ∈ pieces → isHigh n = false) :
    decodePieces pieces = pieces.map Piece.rune? := by
  fun_induction decodePieces pieces with
  | case1 => rfl
  | case2 high low rest hpair =>
      rw [Bool.and_eq_true, h high (by simp)] at hpair
      exact absurd hpair.1 (by simp)
  | case3 high low rest hpair ih => simp [ih fun n hn => h n (by simp [hn]), Piece.rune?]
  | case4 piece rest hnot ih => simp [ih fun n hn => h n (by simp [hn])]

/-- A character that is written as `text` in a string is read there as one piece. -/
structure ReadsPiece (text : Text) (piece : Piece) : Prop where
  run : ∀ tokens read,
    Transition.run lexStep ⟨tokens, .str read⟩ text = some ⟨tokens, .str (piece :: read)⟩
  whole : ∀ n, piece = .unit n → isHigh n = false

theorem Literal.ofChars_chars (l : Literal) : Literal.ofChars l.chars = some l := by
  cases l with
  | null => rfl
  | bool b => cases b <;> rfl
  | num n =>
      obtain ⟨cs, hvalid⟩ := n
      have hword : ∀ word : List Char, isNumber word = false → cs ≠ word := by
        rintro word hword rfl
        simp [hvalid] at hword
      change ofChars cs = _
      rw [ofChars, if_neg (hword _ (by decide)), if_neg (hword _ (by decide)),
        if_neg (hword _ (by decide)), dif_pos hvalid]

theorem Literal.chars_ofChars {cs : List Char} {l : Literal} (h : Literal.ofChars cs = some l) :
    l.chars = cs := by
  unfold ofChars at h
  split_ifs at h with hnull htrue hfalse hnum <;> obtain rfl := Option.some.inj h
  · exact hnull.symm
  · exact htrue.symm
  · exact hfalse.symm
  · rfl

theorem endsLiteral_of_isNumberChar {c : Char} (h : isNumberChar c = true) : endsLiteral c = false := by
  by_contra hends
  simp only [Bool.not_eq_false, endsLiteral, isSpace, Bool.or_eq_true, decide_eq_true_eq] at hends
  unfold delimiter at hends
  revert h
  rcases hends with (hspace | rfl) | hdelimiter
  · simp only [List.mem_cons, List.not_mem_nil, or_false] at hspace
    rcases hspace with rfl | rfl | rfl | rfl <;> decide
  · decide
  · split at hdelimiter
    all_goals first | decide | cases hdelimiter

theorem Literal.endsLiteral_chars (l : Literal) : ∀ c ∈ l.chars, endsLiteral c = false := by
  cases l with
  | null => exact forall_mem_chars (by decide)
  | bool b => cases b <;> exact forall_mem_chars (by decide)
  | num n =>
      intro c hc
      exact endsLiteral_of_isNumberChar (List.all_eq_true.mp (all_of_isNumber n.valid) c hc)

theorem Literal.chars_ne_nil (l : Literal) : l.chars ≠ [] := by
  cases l with
  | null => decide
  | bool b => cases b <;> decide
  | num n =>
      intro hnil
      have hvalid := n.valid
      rw [show n.chars = [] from hnil] at hvalid
      cases hvalid

theorem lexIdle_of_not_ends {c : Char} (h : endsLiteral c = false) (tokens : List Token) :
    lexIdle tokens c = ⟨tokens, .literal [c]⟩ := by
  simp only [endsLiteral, Bool.or_eq_false_iff, decide_eq_false_iff_not, Option.isSome_eq_false_iff,
    Option.isNone_iff_eq_none] at h
  simp [lexIdle, h]

theorem run_literal {cs : List Char} (h : ∀ c ∈ cs, endsLiteral c = false) (tokens : List Token)
    (read : List Char) :
    Transition.run lexStep ⟨tokens, .literal read⟩ (ofChars cs) =
      some ⟨tokens, .literal (cs.reverse ++ read)⟩ := by
  induction cs generalizing read with
  | nil => rfl
  | cons c rest ih =>
      have hc := h c (by simp)
      have hrest := ih (fun c hc => h c (by simp [hc])) (c :: read)
      simpa [ofChars, lexStep, hc] using hrest

theorem run_lit (l : Literal) (tokens : List Token) :
    Transition.run lexStep ⟨tokens, .idle⟩ (ofChars l.chars) =
      some ⟨tokens, .literal l.chars.reverse⟩ := by
  have hends := l.endsLiteral_chars
  cases hchars : l.chars with
  | nil => exact absurd hchars l.chars_ne_nil
  | cons c rest =>
      rw [hchars] at hends
      have hafter : ∀ c ∈ rest, endsLiteral c = false := fun c hc => hends c (by simp [hc])
      have hrest := run_literal hafter tokens [c]
      simpa [ofChars, lexStep, lexIdle_of_not_ends (hends c (by simp))] using hrest

theorem run_contents {escape : Rune → Text} {piece : Rune → Piece} {s : Text}
    (h : ∀ r ∈ s, ReadsPiece (escape r) (piece r)) (tokens : List Token) (read : List Piece) :
    Transition.run lexStep ⟨tokens, .str read⟩ (s.flatMap escape) =
      some ⟨tokens, .str ((s.map piece).reverse ++ read)⟩ := by
  induction s generalizing read with
  | nil => rfl
  | cons r rest ih =>
      have hrest := ih (fun r hr => h r (by simp [hr])) (piece r :: read)
      rw [List.flatMap_cons, Transition.run_append, (h r (by simp)).run]
      simpa using hrest

def Token.mapText (f : Rune → Rune) : Token → Token
  | .str s => .str (s.map f)
  | token => token

theorem run_str {escape : Rune → Text} {piece : Rune → Piece} {s : Text}
    (h : ∀ r ∈ s, ReadsPiece (escape r) (piece r)) (tokens : List Token) :
    Transition.run lexStep ⟨tokens, .idle⟩ (render escape (Token.str s).symbols) =
      some ⟨.str (s.map fun r => (piece r).rune?) :: tokens, .idle⟩ := by
  have hdecode : decodePieces (s.map piece) = s.map fun r => (piece r).rune? := by
    rw [decodePieces_eq_map, List.map_map]
    · rfl
    · intro n hn
      obtain ⟨r, hr, heq⟩ := List.mem_map.mp hn
      exact (h r hr).whole n heq
  have hcontents := run_contents h tokens []
  have hrender : render escape (Token.str s).symbols = .char '"' :: (s.flatMap escape ++ [.char '"']) := by
    simp [render, Token.symbols, Symbol.render, List.flatMap_map]
  rw [List.append_nil] at hcontents
  rw [hrender, Transition.run_cons]
  change Transition.run lexStep ⟨tokens, .str []⟩ _ = _
  rw [Transition.run_append, hcontents]
  simp [lexStep, lexStr, hdecode]

def Token.isLit : Token → Bool
  | .lit _ => true
  | _ => false

def Token.runes : Token → List Rune
  | .str s => s
  | _ => []

/-- The tokens once a literal that is being read has ended. -/
def LexState.flushed : LexState → Option (List Token)
  | ⟨tokens, .idle⟩ => some tokens
  | ⟨tokens, .literal read⟩ => (Literal.ofChars read.reverse).map fun l => .lit l :: tokens
  | _ => none

theorem finish_eq_flushed (state : LexState) : state.finish = state.flushed.map List.reverse := by
  obtain ⟨tokens, mode⟩ := state
  cases mode with
  | literal read => cases h : Literal.ofChars read.reverse <;> simp [LexState.finish, LexState.flushed, h]
  | idle => rfl
  | str | escape | hex => rfl

theorem lexStep_flushed {state : LexState} {tokens : List Token} (h : state.flushed = some tokens)
    {c : Char} (hc : endsLiteral c = true) : lexStep state (.char c) = some (lexIdle tokens c) := by
  obtain ⟨found, mode⟩ := state
  cases mode with
  | idle =>
      obtain rfl := Option.some.inj h
      rfl
  | literal read =>
      obtain ⟨l, hl, rfl⟩ := Option.map_eq_some_iff.mp h
      simp [lexStep, hc, hl]
  | str | escape | hex => cases h

/-- A token that is no literal is read wherever a literal may just have ended. -/
theorem run_token {escape : Rune → Text} {piece : Rune → Piece} {token : Token}
    (hlit : token.isLit = false) (h : ∀ r ∈ token.runes, ReadsPiece (escape r) (piece r))
    {state : LexState} {tokens : List Token} (hstate : state.flushed = some tokens) :
    Transition.run lexStep state (render escape token.symbols) =
      some ⟨token.mapText (fun r => (piece r).rune?) :: tokens, .idle⟩ := by
  cases token with
  | lit l => cases hlit
  | str s =>
      have hstr := run_str (s := s) h tokens
      simp only [render, Token.symbols, List.flatMap_cons, Symbol.render, List.singleton_append,
        Transition.run_cons] at hstr ⊢
      rw [lexStep_flushed hstate (by decide)]
      exact hstr
  | lbrace | rbrace | lbrack | rbrack | colon | comma =>
      simp only [render, Token.symbols, List.flatMap_cons, Symbol.render, List.singleton_append,
        List.flatMap_nil, Transition.run_cons, Transition.run_nil]
      rw [lexStep_flushed hstate (by decide)]
      rfl

/-- No two literals are next to each other. -/
def Spaced (tokens : List Token) : Prop :=
  tokens.IsChain fun left right => left.isLit = true → right.isLit = false

theorem flushed_run_render {escape : Rune → Text} {piece : Rune → Piece} {tokens : List Token}
    (hspaced : Spaced tokens)
    (h : ∀ token ∈ tokens, ∀ r ∈ token.runes, ReadsPiece (escape r) (piece r)) (state : LexState)
    {found : List Token} (hstate : state.flushed = some found)
    (hfirst : ∀ token ∈ tokens.head?, token.isLit = true → state.mode = .idle) :
    ∃ state', Transition.run lexStep state (render escape (tokens.flatMap Token.symbols)) = some state' ∧
      state'.flushed = some ((tokens.map (Token.mapText fun r => (piece r).rune?)).reverse ++ found) := by
  induction tokens generalizing state found with
  | nil => exact ⟨state, rfl, hstate⟩
  | cons token rest ih =>
      obtain ⟨hhead, hrest⟩ := List.isChain_cons.mp hspaced
      have hcons : render escape ((token :: rest).flatMap Token.symbols) =
          render escape token.symbols ++ render escape (rest.flatMap Token.symbols) := by
        simp [render]
      simp only [hcons, Transition.run_append]
      cases hlit : token.isLit with
      | false =>
          rw [run_token hlit (h token (by simp)) hstate]
          obtain ⟨state', hrun, hflushed⟩ := ih hrest (fun token htoken => h token (by simp [htoken]))
            ⟨token.mapText _ :: found, .idle⟩ rfl (fun _ _ _ => rfl)
          exact ⟨state', hrun, by simpa using hflushed⟩
      | true =>
          obtain ⟨before, mode⟩ := state
          obtain rfl : mode = .idle := hfirst token rfl hlit
          obtain rfl := Option.some.inj hstate
          cases token with
          | lit l =>
              have hrender : render escape (Token.lit l).symbols = ofChars l.chars := by
                simp [render, Token.symbols, Symbol.render, List.flatMap_map, ofChars,
                  ← List.map_eq_flatMap]
              rw [hrender, run_lit]
              have hflush : (⟨before, .literal l.chars.reverse⟩ : LexState).flushed =
                  some (.lit l :: before) := by
                simp [LexState.flushed, Literal.ofChars_chars]
              have hnext : ∀ next ∈ rest.head?, next.isLit = true →
                  (⟨before, .literal l.chars.reverse⟩ : LexState).mode = .idle := by
                intro next hnext hlit'
                simp [hhead next hnext rfl] at hlit'
              obtain ⟨state', hrun, hflushed⟩ := ih hrest
                (fun token htoken => h token (by simp [htoken]))
                ⟨before, .literal l.chars.reverse⟩ hflush hnext
              exact ⟨state', hrun, by simpa [Token.mapText] using hflushed⟩
          | _ => cases hlit

/-- A text is read as its tokens, with what each character of a string is read as. -/
theorem lex_render {escape : Rune → Text} {piece : Rune → Piece} {tokens : List Token}
    (hspaced : Spaced tokens)
    (h : ∀ token ∈ tokens, ∀ r ∈ token.runes, ReadsPiece (escape r) (piece r)) :
    lex (render escape (tokens.flatMap Token.symbols)) =
      some (tokens.map (Token.mapText fun r => (piece r).rune?)) := by
  obtain ⟨state, hrun, hflushed⟩ := flushed_run_render hspaced h ⟨[], .idle⟩ rfl
    (fun _ _ _ => rfl)
  simp [lex, hrun, finish_eq_flushed, hflushed]

theorem Spaced.cons {token : Token} {tokens : List Token} (h : Spaced tokens) (hlit : token.isLit = false) :
    Spaced (token :: tokens) :=
  List.isChain_cons.mpr ⟨fun _ _ htoken => by simp [hlit] at htoken, h⟩

theorem Spaced.append {left right : List Token} (hleft : Spaced left) (hright : Spaced right)
    (hlit : ∀ token ∈ right.head?, token.isLit = false) : Spaced (left ++ right) :=
  List.isChain_append.mpr ⟨hleft, hright, fun _ _ token htoken _ => hlit token htoken⟩

theorem spaced_intercalate {lists : List (List Token)} (h : ∀ list ∈ lists, Spaced list) :
    Spaced (List.intercalate [.comma] lists) := by
  induction lists using List.reverseRecOn with
  | nil => exact List.isChain_nil
  | append_singleton lists last before =>
      clear before
      rw [intercalate_append_singleton]
      induction lists with
      | nil => simpa using h last (by simp)
      | cons first rest ih =>
          have hrest := ih fun list hlist => h list (List.mem_cons_of_mem _ hlist)
          have hcomma := @Spaced.cons .comma _ hrest rfl
          have hall := (h first (by simp)).append hcomma (by simp [Token.isLit])
          simpa using hall

theorem spaced_tokens (j : Json) : Spaced j.tokens := by
  induction j using Json.induct with
  | lit l => exact List.isChain_singleton _
  | str s => exact List.isChain_singleton _
  | arr items ih =>
      have hitems : ∀ list ∈ itemTokens items, Spaced list := by
        rw [itemTokens_eq_map]
        intro list hlist
        obtain ⟨item, hitem, rfl⟩ := List.mem_map.mp hlist
        exact ih item hitem
      apply Spaced.cons _ rfl
      apply (spaced_intercalate hitems).append (List.isChain_singleton _)
      simp [Token.isLit]
  | obj members ih =>
      have hmembers : ∀ list ∈ memberTokens members, Spaced list := by
        rw [memberTokens_eq_map]
        intro list hlist
        obtain ⟨⟨key, value⟩, hmember, rfl⟩ := List.mem_map.mp hlist
        exact ((ih key value hmember).cons rfl).cons rfl
      apply Spaced.cons _ rfl
      apply (spaced_intercalate hmembers).append (List.isChain_singleton _)
      simp [Token.isLit]

/-! ## Values -/

/-- The runes of the strings and the keys of a value. -/
def Json.runes (j : Json) : List Rune := j.tokens.flatMap Token.runes

mutual

def Json.mapText (f : Rune → Rune) : Json → Json
  | .lit l => .lit l
  | .str s => .str (s.map f)
  | .arr items => .arr (mapItems f items)
  | .obj members => .obj (mapMembers f members)

def mapItems (f : Rune → Rune) : List Json → List Json
  | [] => []
  | item :: rest => item.mapText f :: mapItems f rest

def mapMembers (f : Rune → Rune) : List (Text × Json) → List (Text × Json)
  | [] => []
  | (key, value) :: rest => (key.map f, value.mapText f) :: mapMembers f rest

end

theorem mapItems_eq_map (f : Rune → Rune) (items : List Json) :
    mapItems f items = items.map (Json.mapText f) := by
  induction items with
  | nil => rfl
  | cons item rest ih => simp [mapItems, ih]

theorem mapMembers_eq_map (f : Rune → Rune) (members : List (Text × Json)) :
    mapMembers f members = members.map fun member => (member.1.map f, member.2.mapText f) := by
  induction members with
  | nil => rfl
  | cons member rest ih => simp [mapMembers, ih]

theorem map_intercalate {α β : Type*} (f : α → β) (separator : List α) (lists : List (List α)) :
    (List.intercalate separator lists).map f =
      List.intercalate (separator.map f) (lists.map (List.map f)) := by
  induction lists using List.reverseRecOn with
  | nil => rfl
  | append_singleton lists last _ =>
      simp [intercalate_append_singleton, List.flatMap_map, List.map_flatMap]

theorem tokens_mapText (f : Rune → Rune) (j : Json) :
    (j.mapText f).tokens = j.tokens.map (Token.mapText f) := by
  induction j using Json.induct with
  | lit l => rfl
  | str s => rfl
  | arr items ih =>
      have hitems : itemTokens (mapItems f items) =
          (itemTokens items).map (List.map (Token.mapText f)) := by
        simpa [itemTokens_eq_map, mapItems_eq_map] using ih
      simp [Json.tokens, Json.mapText, hitems, map_intercalate, Token.mapText]
  | obj members ih =>
      have hmembers : memberTokens (mapMembers f members) =
          (memberTokens members).map (List.map (Token.mapText f)) := by
        simpa [memberTokens_eq_map, mapMembers_eq_map, Token.mapText] using ih
      simp [Json.tokens, Json.mapText, hmembers, map_intercalate, Token.mapText]

theorem parse_render {escape : Rune → Text} {piece : Rune → Piece} {j : Json}
    (h : ∀ r ∈ j.runes, ReadsPiece (escape r) (piece r)) :
    parse (render escape j.symbols) = some (j.mapText fun r => (piece r).rune?) := by
  have hall : ∀ token ∈ j.tokens, ∀ r ∈ token.runes, ReadsPiece (escape r) (piece r) :=
    fun token htoken r hr => h r (List.mem_flatMap.mpr ⟨token, htoken, hr⟩)
  have hlex := lex_render (spaced_tokens j) hall
  simp only [parse, Json.symbols, hlex, Option.bind_some]
  exact parseTokens_eq_some_iff.mpr (tokens_mapText _ j).symm

end GoJson
