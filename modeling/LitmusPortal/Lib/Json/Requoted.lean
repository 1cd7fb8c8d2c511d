import LitmusPortal.Lib.GoQuote
import LitmusPortal.Lib.Json.Text

/-!
# Texts with quoted strings

A string that `strconv.Quote` has written and that stands in a JSON text as it is, is taken by JSON for the string
before the quoting, where JSON knows the escapes. Where it does not know one, the text is no JSON at all.
-/

namespace GoJson

open GoText

/-! ## Texts that are not read -/

/-- A text with which no string goes on. -/
def Rejected (text : Text) : Prop :=
  ∀ tokens read, Transition.run lexStep ⟨tokens, .str read⟩ text = none

theorem Rejected.not_readsPiece {text : Text} {piece : Piece} (h : Rejected text) : ¬ ReadsPiece text piece := by
  intro hreads
  have hrun := hreads.run [] []
  rw [h] at hrun
  cases hrun

section Render

variable {escape : Rune → Text} {piece : Rune → Piece}

theorem run_contents_none {s : Text} (h : ∀ r ∈ s, ReadsPiece (escape r) (piece r) ∨ Rejected (escape r)) {r : Rune}
    (hr : r ∈ s) (hrejected : Rejected (escape r)) (tokens : List Token) (read : List Piece) :
    Transition.run lexStep ⟨tokens, .str read⟩ (s.flatMap escape) = none := by
  induction s generalizing read with
  | nil => cases hr
  | cons first rest ih =>
      rw [List.flatMap_cons, Transition.run_append]
      rcases h first List.mem_cons_self with hreads | hfirst
      · have hrest : r ∈ rest := by
          rcases List.mem_cons.mp hr with rfl | hrest
          · exact absurd hreads hrejected.not_readsPiece
          · exact hrest
        rw [hreads.run, Option.bind_some]
        exact ih (fun r hr => h r (List.mem_cons_of_mem _ hr)) hrest _
      · rw [hfirst, Option.bind_none]

theorem Spaced.of_append {left right : List Token} (h : Spaced (left ++ right)) : Spaced left :=
  (List.isChain_append.mp h).1

theorem run_render_none {tokens : List Token} (hspaced : Spaced tokens)
    (h : ∀ token ∈ tokens, ∀ r ∈ token.runes, ReadsPiece (escape r) (piece r) ∨ Rejected (escape r))
    (hrejected : ∃ token ∈ tokens, ∃ r ∈ token.runes, Rejected (escape r)) :
    Transition.run lexStep ⟨[], .idle⟩ (render escape (tokens.flatMap Token.symbols)) = none := by
  classical
  have hfind : ∃ token, tokens.find? (fun token => decide (∃ r ∈ token.runes, Rejected (escape r))) = some token := by
    apply Option.isSome_iff_exists.mp
    rw [List.find?_isSome]
    obtain ⟨token, htoken, hbad⟩ := hrejected
    exact ⟨token, htoken, decide_eq_true hbad⟩
  obtain ⟨token, hfind⟩ := hfind
  obtain ⟨hfirst, front, back, rfl, hfront⟩ := List.find?_eq_some_iff_append.mp hfind
  obtain ⟨r, hr, hbad⟩ := of_decide_eq_true hfirst
  have hreads : ∀ token ∈ front, ∀ r ∈ token.runes, ReadsPiece (escape r) (piece r) := by
    intro token htoken r hr
    have hgood : ¬ ∃ r ∈ token.runes, Rejected (escape r) := by
      have hnot := hfront token htoken
      simpa only [Bool.not_eq_true', decide_eq_false_iff_not] using hnot
    rcases h token (List.mem_append_left _ htoken) r hr with hpiece | hrune
    · exact hpiece
    · exact absurd ⟨r, hr, hrune⟩ hgood
  obtain ⟨state, hrun, hflushed⟩ := flushed_run_render hspaced.of_append hreads ⟨[], .idle⟩ rfl (fun _ _ _ => rfl)
  have hrender : render escape ((front ++ token :: back).flatMap Token.symbols) =
      render escape (front.flatMap Token.symbols) ++
        (render escape token.symbols ++ render escape (back.flatMap Token.symbols)) := by
    simp only [render, List.flatMap_append, List.flatMap_cons]
  rw [hrender, Transition.run_append, hrun, Option.bind_some, Transition.run_append]
  cases token with
  | str s =>
      have hstr := h (.str s) (List.mem_append_right _ List.mem_cons_self)
      have hnone : ∀ tokens, Transition.run lexStep ⟨tokens, .str []⟩ (s.flatMap escape) = none :=
        fun tokens => run_contents_none hstr hr hbad tokens []
      have hsymbols : render escape (Token.str s).symbols =
          .char '"' :: (s.flatMap escape ++ [.char '"']) := by
        simp [render, Token.symbols, Symbol.render, List.flatMap_map]
      rw [hsymbols, Transition.run_cons, lexStep_flushed hflushed (by decide), Option.bind_some,
        Transition.run_append]
      have hopen : lexIdle ((front.map (Token.mapText fun r => (piece r).rune?)).reverse ++ []) '"' =
          ⟨(front.map (Token.mapText fun r => (piece r).rune?)).reverse ++ [], .str []⟩ := rfl
      rw [hopen, hnone, Option.bind_none, Option.bind_none]
  | _ => cases hr

/-- Where one character of a string is written in a way that JSON does not know, there is no value. -/
theorem parse_render_none {j : Json}
    (h : ∀ r ∈ j.runes, ReadsPiece (escape r) (piece r) ∨ Rejected (escape r)) {r : Rune} (hr : r ∈ j.runes)
    (hrejected : Rejected (escape r)) : parse (render escape j.symbols) = none := by
  obtain ⟨token, htoken, hr⟩ := List.mem_flatMap.mp hr
  have hrun := run_render_none (spaced_tokens j)
    (fun token htoken r hr => h r (List.mem_flatMap.mpr ⟨token, htoken, hr⟩)) ⟨token, htoken, r, hr, hrejected⟩
  rw [parse, lex, Json.symbols, hrun]
  rfl

end Render

/-! ## Quoted characters in JSON -/

/-- The escape with which `strconv.Quote` writes the character is one of JSON, or there is none. -/
def Requotable (isPrint : Char → Bool) (r : Rune) : Prop :=
  ∃ c, r = .char c ∧ (' ' ≤ c ∧ (isPrint c = true ∨ c.toNat < 0x10000) ∨
    c ∈ ['\x08', '\x0c', '\n', '\r', '\t'] ∧ isPrint c = false)

/-- The piece that JSON takes a quoted character for. -/
def quotePiece (isPrint : Char → Bool) : Rune → Piece
  | .invalid byte => .rune (.invalid byte)
  | .char c =>
      if c ∈ ['"', '\\', '\x08', '\x0c', '\n', '\r', '\t'] ∨ isPrint c = true then .rune (.char c) else .unit c.toNat

variable {isPrint : Char → Bool}

theorem rune?_quotePiece (c : Char) : (quotePiece isPrint (.char c)).rune? = .char c := by
  rw [quotePiece]
  split_ifs
  · rfl
  · rw [Piece.rune?, ofCodePoint_toNat]

theorem quoteLetter_of_le {c : Char} (h : ' ' ≤ c) : quoteLetter c = none := by
  unfold quoteLetter
  split <;> first | rfl | exact absurd h (by decide)

theorem readsPiece_quoteRune {r : Rune} (h : Requotable isPrint r) :
    ReadsPiece (quoteRune isPrint r) (quotePiece isPrint r) := by
  obtain ⟨c, rfl, ⟨hspace, hprint⟩ | ⟨hletter, hprint⟩⟩ := h
  · by_cases hmark : c = '"' ∨ c = '\\'
    · rcases hmark with rfl | rfl
      · exact ⟨fun _ _ => rfl, fun _ h => by cases h⟩
      · exact ⟨fun _ _ => rfl, fun _ h => by cases h⟩
    · obtain ⟨hquote, hslash⟩ := not_or.mp hmark
      rw [quoteRune, if_neg hmark]
      by_cases hshown : isPrint c = true
      · rw [if_pos hshown, quotePiece, if_pos (.inr hshown)]
        exact readsPiece_char hquote hslash hspace
      · have hnot : ¬ (c ∈ ['"', '\\', '\x08', '\x0c', '\n', '\r', '\t'] ∨ isPrint c = true) := by
          have hlow : ∀ low ∈ ['\x08', '\x0c', '\n', '\r', '\t'], low < ' ' := forall_mem_chars (by decide)
          have hmem : c ∉ ['\x08', '\x0c', '\n', '\r', '\t'] :=
            fun hmem => Char.not_lt.mpr hspace (hlow c hmem)
          rw [List.mem_cons, List.mem_cons]
          exact not_or.mpr ⟨not_or.mpr ⟨hquote, not_or.mpr ⟨hslash, hmem⟩⟩, hshown⟩
        have hsmall : c.toNat < 0x10000 := hprint.resolve_left hshown
        rw [if_neg hshown, quoteLetter_of_le hspace, quotePiece, if_neg hnot]
        dsimp only
        rw [if_neg (Char.not_lt.mpr hspace), if_pos hsmall]
        exact readsPiece_unicode hsmall
  · simp only [List.mem_cons, List.not_mem_nil, or_false] at hletter
    rcases hletter with rfl | rfl | rfl | rfl | rfl <;>
      (rw [quoteRune, if_neg (by decide), hprint]; exact ⟨fun _ _ => rfl, fun _ h => by cases h⟩)

theorem rejected_escape {letter : Char} (hu : letter ≠ 'u') (h : unescape letter = none) (rest : List Char) :
    Rejected (ofChars ('\\' :: letter :: rest)) := by
  intro tokens read
  have hslash : Transition.run lexStep ⟨tokens, .str read⟩ (ofChars ('\\' :: letter :: rest)) =
      Transition.run lexStep ⟨tokens, .escape read⟩ (ofChars (letter :: rest)) := rfl
  have hletter : lexStep ⟨tokens, .escape read⟩ (.char letter) = none := by
    simp only [lexStep, hu, h, if_false, Option.map_none]
  rw [hslash, ofChars, List.map_cons, Transition.run_cons, hletter]
  rfl

/-- JSON stops at the escapes of Go that it does not know, and at a control character. -/
theorem rejected_quoteRune {r : Rune} (h : ¬ Requotable isPrint r) : Rejected (quoteRune isPrint r) := by
  cases r with
  | invalid byte => exact rejected_escape (by decide) (by decide) _
  | char c =>
      have hnot : ¬ (' ' ≤ c ∧ (isPrint c = true ∨ c.toNat < 0x10000)) :=
        fun hshown => h ⟨c, rfl, .inl hshown⟩
      have hcode : ¬ (c ∈ ['\x08', '\x0c', '\n', '\r', '\t'] ∧ isPrint c = false) :=
        fun hletter => h ⟨c, rfl, .inr hletter⟩
      have hmark : ¬ (c = '"' ∨ c = '\\') := by
        rintro (rfl | rfl) <;> exact hnot ⟨by decide, .inr (by decide)⟩
      rw [quoteRune, if_neg hmark]
      by_cases hprint : isPrint c = true
      · rw [if_pos hprint]
        have hcontrol : c < ' ' := Char.not_le.mp fun hspace => hnot ⟨hspace, .inl hprint⟩
        have hquote : c ≠ '"' := fun heq => hmark (.inl heq)
        have hslash : c ≠ '\\' := fun heq => hmark (.inr heq)
        intro tokens read
        rw [Transition.run_cons]
        simp [lexStep, lexStr, hquote, hslash, hcontrol]
      · rw [if_neg hprint]
        have hmem : c ∉ ['\x08', '\x0c', '\n', '\r', '\t'] :=
          fun hmem => hcode ⟨hmem, Bool.eq_false_iff.mpr hprint⟩
        cases hletter : quoteLetter c with
        | some letter =>
            have hbell : letter = 'a' ∨ letter = 'v' := by
              unfold quoteLetter at hletter
              split at hletter <;> first
                | exact absurd (by decide) hmem
                | exact .inl (Option.some.inj hletter).symm
                | exact .inr (Option.some.inj hletter).symm
                | cases hletter
            rcases hbell with rfl | rfl <;> exact rejected_escape (by decide) (by decide) []
        | none =>
            dsimp only
            by_cases hcontrol : c < ' '
            · rw [if_pos hcontrol]
              exact rejected_escape (by decide) (by decide) _
            · have hlarge : ¬ c.toNat < 0x10000 :=
                fun hsmall => hnot ⟨Char.not_lt.mp hcontrol, .inr hsmall⟩
              rw [if_neg hcontrol, if_neg hlarge]
              exact rejected_escape (by decide) (by decide) _

/-- A text whose strings are quoted in place is a value exactly when JSON knows all the escapes; the value is the one
before the quoting. -/
theorem parse_render_quoteRune_iff (isPrint : Char → Bool) (j : Json) :
    parse (render (quoteRune isPrint) j.symbols) = some j ↔ ∀ r ∈ j.runes, Requotable isPrint r := by
  have heach : ∀ r ∈ j.runes, ReadsPiece (quoteRune isPrint r) (quotePiece isPrint r) ∨
      Rejected (quoteRune isPrint r) := by
    intro r _
    by_cases h : Requotable isPrint r
    · exact .inl (readsPiece_quoteRune h)
    · exact .inr (rejected_quoteRune h)
  constructor
  · intro hparse r hr
    by_contra hnot
    rw [parse_render_none heach hr (rejected_quoteRune hnot)] at hparse
    cases hparse
  · intro h
    have hself : ∀ r ∈ j.runes, (quotePiece isPrint r).rune? = r := by
      intro r hr
      obtain ⟨c, rfl, -⟩ := h r hr
      exact rune?_quotePiece c
    rw [parse_render fun r hr => readsPiece_quoteRune (h r hr), mapText_eq_self hself]

/-- A token whose string has been quoted in place. -/
def Token.quoted (isPrint : Char → Bool) : Token → Token
  | .str s => .str (s.flatMap (quoteRune isPrint))
  | token => token

theorem mem_hexDigits_cases {count n : Nat} {c : Char} (h : c ∈ hexDigits count n) :
    c ≠ '"' ∧ c.toNat < 0x10000 := by
  induction count generalizing n with
  | zero => cases h
  | succ count ih =>
      have hall : ∀ k < 16, hexDigit k ≠ '"' ∧ (hexDigit k).toNat < 0x10000 := by decide
      rcases List.mem_append.mp h with hfront | hlast
      · exact ih hfront
      · rw [List.mem_singleton.mp hlast]
        exact hall _ (Nat.mod_lt _ (by decide))

/-- Quoting writes no quote of its own, and beyond the first plane only what it prints. -/
theorem mem_quoteRune {isPrint : Char → Bool} {r written : Rune} (hquote : r ≠ .char '"')
    (h : written ∈ quoteRune isPrint r) :
    ∃ c, written = .char c ∧ c ≠ '"' ∧ (isPrint c = true ∨ c.toNat < 0x10000) := by
  have hword : ∀ word : List Char, (∀ c ∈ word, c ≠ '"' ∧ c.toNat < 0x10000) → written ∈ ofChars word →
      ∃ c, written = .char c ∧ c ≠ '"' ∧ (isPrint c = true ∨ c.toNat < 0x10000) := by
    intro word hsmall hmem
    obtain ⟨c, hc, rfl⟩ := List.mem_map.mp hmem
    exact ⟨c, rfl, (hsmall c hc).1, .inr (hsmall c hc).2⟩
  have hescape : ∀ letter : Char, letter ≠ '"' → letter.toNat < 0x10000 → ∀ count n,
      ∀ c ∈ '\\' :: letter :: hexDigits count n, c ≠ '"' ∧ c.toNat < 0x10000 := by
    intro letter hletter hsmall count n c hc
    rcases List.mem_cons.mp hc with rfl | hc
    · exact ⟨by decide, by decide⟩
    · rcases List.mem_cons.mp hc with rfl | hc
      · exact ⟨hletter, hsmall⟩
      · exact mem_hexDigits_cases hc
  cases r with
  | invalid byte => exact hword _ (hescape 'x' (by decide) (by decide) 2 _) h
  | char c =>
      have hne : c ≠ '"' := fun heq => hquote (by rw [heq])
      rw [quoteRune] at h
      by_cases hmark : c = '"' ∨ c = '\\'
      · rw [if_pos hmark, hmark.resolve_left hne] at h
        exact hword _ (hescape '\\' (by decide) (by decide) 0 0) h
      rw [if_neg hmark] at h
      by_cases hprint : isPrint c = true
      · rw [if_pos hprint] at h
        exact ⟨c, List.mem_singleton.mp h, hne, .inl hprint⟩
      rw [if_neg hprint] at h
      cases hletter : quoteLetter c with
      | some letter =>
          have hall : letter ≠ '"' ∧ letter.toNat < 0x10000 := by
            unfold quoteLetter at hletter
            split at hletter <;> first | (obtain rfl := Option.some.inj hletter; decide) | cases hletter
          rw [hletter] at h
          exact hword _ (hescape letter hall.1 hall.2 0 0) h
      | none =>
          rw [hletter] at h
          dsimp only at h
          split_ifs at h
          · exact hword _ (hescape 'x' (by decide) (by decide) 2 _) h
          · exact hword _ (hescape 'u' (by decide) (by decide) 4 _) h
          · exact hword _ (hescape 'U' (by decide) (by decide) 8 _) h

end GoJson
