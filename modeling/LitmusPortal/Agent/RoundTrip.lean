import LitmusPortal.Agent.Payload
import LitmusPortal.Workflow.SchemaAgreement

/-!
# Reading a workflow event back

The text of the request is followed through its two readings: as the contents of a JSON string, where
each piece stands for some characters of the query, and then as the tokens of a document. A text of
the JSON is never shorter than its characters cost, so an execution data in which a character has lost
its escape is not the event's.
-/

namespace LitmusPortal.Agent

open GoText GoJson

/-! ## The characters of the JSON -/

/-- A character that JSON and the quoting leave as it is. -/
def Plain (c : Char) : Prop := ' ' ≤ c ∧ c ≠ '\\' ∧ c.toNat < 0x10000

instance (c : Char) : Decidable (Plain c) := inferInstanceAs (Decidable (_ ∧ _))

theorem plain_of_isNumberChar {c : Char} (h : isNumberChar c = true) : Plain c := by
  simp only [isNumberChar, Bool.or_eq_true, decide_eq_true_eq] at h
  obtain hdigit | hmark := h
  · simp only [Char.isDigit, Bool.and_eq_true, decide_eq_true_eq] at hdigit
    have hge : '0'.toNat ≤ c.toNat := hdigit.1
    have hle : c.toNat ≤ '9'.toNat := hdigit.2
    refine ⟨Nat.le_trans (by decide : ' '.toNat ≤ '0'.toNat) hge, ?_, hle.trans_lt (by decide)⟩
    rintro rfl
    exact absurd hle (by decide)
  · have hall : ∀ c ∈ ['+', '-', '.', 'e', 'E'], Plain c :=
      forall_mem_chars (by decide)
    exact hall c hmark

theorem plain_of_mem_chars {l : Literal} {c : Char} (h : c ∈ l.chars) : Plain c := by
  cases l with
  | null =>
      have hall : ∀ c ∈ Literal.null.chars, Plain c :=
        forall_mem_chars (by decide)
      exact hall c h
  | bool b =>
      have hall : ∀ b, ∀ c ∈ (Literal.bool b).chars, Plain c :=
        fun b => by cases b <;> exact forall_mem_chars (by decide)
      exact hall b c h
  | num n => exact plain_of_isNumberChar (List.all_eq_true.mp (all_of_isNumber n.valid) c h)

theorem plain_of_mark_mem {j : Json} {c : Char} (h : Symbol.mark c ∈ j.symbols) : Plain c := by
  obtain ⟨token, -, hc⟩ := List.mem_flatMap.mp h
  cases token with
  | str s =>
      have hquote : c = '"' := by simpa [Token.symbols] using hc
      subst hquote
      decide
  | lit l =>
      have hchar : c ∈ l.chars := by simpa [Token.symbols] using hc
      exact plain_of_mem_chars hchar
  | lbrace | rbrace | lbrack | rbrack | colon | comma =>
      simp only [Token.symbols, List.mem_singleton, Symbol.mark.injEq] at hc
      subst hc
      decide

theorem content_mem_symbols_iff {j : Json} {r : Rune} : Symbol.content r ∈ j.symbols ↔ r ∈ j.runes := by
  simp only [Json.symbols, Json.runes, List.mem_flatMap]
  refine exists_congr fun token => and_congr_right fun _ => ?_
  cases token <;> simp [Token.symbols, Token.runes]

/-- A character of a text that `json.Marshal` writes for the character `r`. -/
def WrittenFor (r written : Rune) : Prop :=
  ∃ c, written = .char c ∧ ' ' ≤ c ∧ (c.toNat < 0x10000 ∨ r = .char c)

theorem writtenFor_ofChars {r : Rune} {word : List Char} (h : ∀ c ∈ word, ' ' ≤ c ∧ c.toNat < 0x10000) :
    ∀ written ∈ ofChars word, WrittenFor r written := by
  intro written hwritten
  obtain ⟨c, hc, rfl⟩ := List.mem_map.mp hwritten
  exact ⟨c, rfl, (h c hc).1, .inl (h c hc).2⟩

theorem mem_hexDigits {count n : Nat} {c : Char} (h : c ∈ hexDigits count n) :
    ' ' ≤ c ∧ c.toNat < 0x10000 := by
  induction count generalizing n with
  | zero => simp [hexDigits] at h
  | succ count ih =>
      obtain hfront | rfl : c ∈ hexDigits count (n / 16) ∨ c = hexDigit (n % 16) := by
        simpa [hexDigits] using h
      · exact ih hfront
      · have hall : ∀ k < 16, ' ' ≤ hexDigit k ∧ (hexDigit k).toNat < 0x10000 := by decide
        exact hall _ (Nat.mod_lt _ (by decide))

theorem writtenFor_unicode (r : Rune) (n : Nat) :
    ∀ written ∈ ofChars ('\\' :: 'u' :: hexDigits 4 n), WrittenFor r written := by
  apply writtenFor_ofChars
  simp only [List.mem_cons, forall_eq_or_imp]
  exact ⟨by decide, by decide, fun c hc => mem_hexDigits hc⟩

theorem writtenFor_escapeRune (r : Rune) : ∀ written ∈ escapeRune r, WrittenFor r written := by
  cases r with
  | invalid byte =>
      exact writtenFor_ofChars (forall_mem_chars (by decide))
  | char c =>
      rw [escapeRune]
      by_cases hmark : c = '"' ∨ c = '\\'
      · rw [if_pos hmark]
        apply writtenFor_ofChars
        obtain rfl | rfl := hmark
        · exact forall_mem_chars (by decide)
        · exact forall_mem_chars (by decide)
      rw [if_neg hmark]
      by_cases hnewline : c = '\n'
      · rw [if_pos hnewline]
        exact writtenFor_ofChars (forall_mem_chars (by decide))
      rw [if_neg hnewline]
      by_cases hreturn : c = '\r'
      · rw [if_pos hreturn]
        exact writtenFor_ofChars (forall_mem_chars (by decide))
      rw [if_neg hreturn]
      by_cases htab : c = '\t'
      · rw [if_pos htab]
        exact writtenFor_ofChars (forall_mem_chars (by decide))
      rw [if_neg htab]
      by_cases hcode : c < ' ' ∨ c ∈ ['<', '>', '&', '\u2028', '\u2029']
      · rw [if_pos hcode]
        exact writtenFor_unicode _ _
      · rw [if_neg hcode]
        intro written hwritten
        obtain rfl := List.mem_singleton.mp hwritten
        exact ⟨c, rfl, Char.not_lt.mp fun hcontrol => hcode (.inl hcontrol), .inr rfl⟩

/-- The quoting writes the character in a way that JSON knows. -/
def Printed (isPrint : Char → Bool) (r : Rune) : Prop :=
  ∃ c, r = .char c ∧ ' ' ≤ c ∧ (isPrint c = true ∨ c.toNat < 0x10000)

theorem printed_marshal {isPrint : Char → Bool} {j : Json}
    (h : ∀ c, .char c ∈ j.runes → isPrint c = true ∨ c.toNat < 0x10000) :
    ∀ r ∈ marshal j, Printed isPrint r := by
  intro r hr
  obtain ⟨symbol, hsymbol, hr⟩ := List.mem_flatMap.mp hr
  cases symbol with
  | mark c =>
      obtain rfl := List.mem_singleton.mp hr
      have hplain := plain_of_mark_mem hsymbol
      exact ⟨c, rfl, hplain.1, .inr hplain.2.2⟩
  | content r' =>
      obtain ⟨c, rfl, hspace, hsmall | rfl⟩ := writtenFor_escapeRune r' r hr
      · exact ⟨c, rfl, hspace, .inr hsmall⟩
      · exact ⟨c, rfl, hspace, h c (content_mem_symbols_iff.mp hsymbol)⟩

/-! ## The query in the request -/

/-- A text that stands for another one in a JSON string. -/
def ReadsAs (text out : Text) : Prop :=
  ∃ pieces : List Piece, pieces.map Piece.rune? = out ∧ (∀ n, .unit n ∈ pieces → isHigh n = false) ∧
    ∀ tokens read, Transition.run lexStep ⟨tokens, .str read⟩ text =
      some ⟨tokens, .str (pieces.reverse ++ read)⟩

theorem ReadsAs.nil : ReadsAs [] [] := ⟨[], rfl, by simp, fun _ _ => rfl⟩

theorem ReadsAs.append {left right leftOut rightOut : Text} (hleft : ReadsAs left leftOut)
    (hright : ReadsAs right rightOut) : ReadsAs (left ++ right) (leftOut ++ rightOut) := by
  obtain ⟨leftPieces, rfl, hleftWhole, hleftRun⟩ := hleft
  obtain ⟨rightPieces, rfl, hrightWhole, hrightRun⟩ := hright
  refine ⟨leftPieces ++ rightPieces, by simp, fun n hn => ?_, fun tokens read => ?_⟩
  · exact (List.mem_append.mp hn).elim (hleftWhole n) (hrightWhole n)
  · rw [Transition.run_append, hleftRun]
    simp [hrightRun]

theorem ReadsAs.of_readsPiece {text : Text} {piece : Piece} (h : ReadsPiece text piece) :
    ReadsAs text [piece.rune?] :=
  ⟨[piece], rfl, fun n hn => h.whole n (List.mem_singleton.mp hn).symm, h.run⟩

theorem ReadsAs.flatMap {f g : Rune → Text} {text : Text} (h : ∀ r ∈ text, ReadsAs (f r) (g r)) :
    ReadsAs (text.flatMap f) (text.flatMap g) := by
  induction text with
  | nil => exact ReadsAs.nil
  | cons r rest ih =>
      simp only [List.flatMap_cons]
      exact (h r (by simp)).append (ih fun r hr => h r (by simp [hr]))

theorem ReadsAs.shown {text : Text} (h : ∀ r ∈ text, Shown r) : ReadsAs text text := by
  have hone : ∀ r ∈ text, ReadsAs [r] [r] := by
    intro r hr
    obtain ⟨c, rfl, hquote, hslash, hspace⟩ := h r hr
    exact ReadsAs.of_readsPiece (readsPiece_char hquote hslash hspace)
  have hflat := ReadsAs.flatMap hone
  simpa using hflat

/-- The characters of a text in which only quotes are escaped. -/
def unescapeQuotes : List Char → Option (List Char)
  | [] => some []
  | '\\' :: '"' :: rest => (unescapeQuotes rest).map ('"' :: ·)
  | c :: rest => if c ≠ '"' ∧ c ≠ '\\' ∧ ' ' ≤ c then (unescapeQuotes rest).map (c :: ·) else none

theorem readsAs_of_unescapeQuotes {cs out : List Char} (h : unescapeQuotes cs = some out) :
    ReadsAs (ofChars cs) (ofChars out) := by
  fun_induction unescapeQuotes cs generalizing out with
  | case1 =>
      obtain rfl := Option.some.inj h
      exact ReadsAs.nil
  | case2 rest ih =>
      obtain ⟨restOut, hrest, rfl⟩ := Option.map_eq_some_iff.mp h
      have hquote : ReadsPiece (ofChars ['\\', '"']) (.rune (.char '"')) :=
        ⟨fun _ _ => rfl, fun n hn => by cases hn⟩
      exact (ReadsAs.of_readsPiece hquote).append (ih hrest)
  | case3 c rest hnot hshown ih =>
      obtain ⟨restOut, hrest, rfl⟩ := Option.map_eq_some_iff.mp h
      exact (ReadsAs.of_readsPiece (readsPiece_char hshown.1 hshown.2.1 hshown.2.2)).append (ih hrest)
  | case4 => cases h

theorem readsAs_ofString {s out : String} (h : unescapeQuotes s.toList = some out.toList) :
    ReadsAs (ofString s) (ofString out) :=
  readsAs_of_unescapeQuotes h

theorem run_queryHead : Transition.run lexStep ⟨[], .idle⟩ (ofString "\x7b\"query\":\"") =
    some ⟨[.colon, .str (ofString "query"), .lbrace], .str []⟩ := by
  decide +kernel

theorem serverQuery_of_readsAs {body query : Text} (h : ReadsAs body query) :
    serverQuery (ofString "\x7b\"query\":\"" ++ body ++ ofString "\"\x7d") = some query := by
  obtain ⟨pieces, rfl, hwhole, hrun⟩ := h
  have hdecode : decodePieces pieces = pieces.map Piece.rune? := decodePieces_eq_map hwhole
  have hlast : Transition.run lexStep ⟨[.colon, .str (ofString "query"), .lbrace], .str pieces.reverse⟩
      (ofString "\"\x7d") = some ⟨[.rbrace, .str (decodePieces pieces), .colon, .str (ofString "query"),
        .lbrace], .idle⟩ := by
    have hclose : ofString "\"\x7d" = [.char '"', .char '\x7d'] := by decide
    simp [hclose, lexStep, lexStr, lexIdle, GoJson.isSpace, delimiter]
  have hlex : lex (ofString "\x7b\"query\":\"" ++ body ++ ofString "\"\x7d") =
      some [.lbrace, .str (ofString "query"), .colon, .str (pieces.map Piece.rune?), .rbrace] := by
    simp [lex, Transition.run_append, run_queryHead, hrun, hlast, LexState.finish, hdecode]
  have hparse : parse (ofString "\x7b\"query\":\"" ++ body ++ ofString "\"\x7d") =
      some (.obj [(ofString "query", .str (pieces.map Piece.rune?))]) := by
    have hparse : parseTokens [.lbrace, .str (ofString "query"), .colon,
        .str (pieces.map Piece.rune?), .rbrace] =
          some (.obj [(ofString "query", .str (pieces.map Piece.rune?))]) :=
      parseTokens_eq_some_iff.mpr rfl
    rw [parse, hlex, Option.bind_some, hparse]
  rw [serverQuery, hparse]
  simp

/-- What a quoted character of the JSON is in the query. -/
def queryRune (r : Rune) : Text := if r = .char '"' then ofString "\\\"" else [r]

theorem quoteLetter_eq_none {c : Char} (h : ' ' ≤ c) : quoteLetter c = none := by
  unfold quoteLetter
  split <;> first | rfl | exact absurd h (by decide)

theorem readsAs_encodeRune {isPrint : Char → Bool} {r : Rune} (h : Printed isPrint r) :
    ReadsAs (encodeRune isPrint r) (queryRune r) := by
  obtain ⟨c, rfl, hspace, hprint⟩ := h
  by_cases hquote : c = '"'
  · subst hquote
    have hslash : ReadsPiece (ofChars ['\\', '\\']) (.rune (.char '\\')) :=
      ⟨fun _ _ => rfl, fun n hn => by cases hn⟩
    have hmark : ReadsPiece (ofChars ['\\', '"']) (.rune (.char '"')) :=
      ⟨fun _ _ => rfl, fun n hn => by cases hn⟩
    exact (ReadsAs.of_readsPiece hslash).append (ReadsAs.of_readsPiece hmark)
  have hencode : encodeRune isPrint (.char c) = quoteRune isPrint (.char c) := by
    simp [encodeRune, hquote]
  have hquery : queryRune (.char c) = [.char c] := by simp [queryRune, hquote]
  rw [hencode, hquery]
  by_cases hslash : c = '\\'
  · subst hslash
    have hpiece : ReadsPiece (ofChars ['\\', '\\']) (.rune (.char '\\')) :=
      ⟨fun _ _ => rfl, fun n hn => by cases hn⟩
    exact ReadsAs.of_readsPiece hpiece
  have hnot : ¬ (c = '"' ∨ c = '\\') := not_or.mpr ⟨hquote, hslash⟩
  rw [quoteRune, if_neg hnot]
  by_cases hshown : isPrint c = true
  · rw [if_pos hshown]
    exact ReadsAs.of_readsPiece (readsPiece_char hquote hslash hspace)
  · have hsmall : c.toNat < 0x10000 := hprint.resolve_left hshown
    have hreads := ReadsAs.of_readsPiece (readsPiece_unicode hsmall)
    rw [Piece.rune?, ofCodePoint_toNat] at hreads
    simpa [hshown, quoteLetter_eq_none hspace, Char.not_lt.mpr hspace, hsmall] using hreads

/-- The escape of a character beyond the first plane is not one that JSON knows. -/
theorem run_unprinted {isPrint : Char → Bool} {c : Char} (hprint : isPrint c = false)
    (hlarge : ¬ c.toNat < 0x10000) (tokens : List Token) (read : List Piece) :
    Transition.run lexStep ⟨tokens, .str read⟩ (encodeRune isPrint (.char c)) = none := by
  have hne : ∀ small : Char, small.toNat < 0x10000 → c ≠ small := by
    rintro small hsmall rfl
    exact hlarge hsmall
  have hspace : ' ' ≤ c := Nat.le_trans (by decide : ' '.toNat ≤ 0x10000) (Nat.le_of_not_lt hlarge)
  have hencode : encodeRune isPrint (.char c) = ofChars ('\\' :: 'U' :: hexDigits 8 c.toNat) := by
    simp [encodeRune, quoteRune, hne '"' (by decide), hne '\\' (by decide), hprint,
      quoteLetter_eq_none hspace, Char.not_lt.mpr hspace, hlarge]
  rw [hencode]
  rfl

/-- A quoted text that JSON reads has no character that the quoting does not print. -/
theorem printed_of_run {isPrint : Char → Bool} {text : Text} (htext : ∀ r ∈ text, ∃ c, r = .char c ∧ ' ' ≤ c)
    {tokens : List Token} {read : List Piece} {state : LexState}
    (h : Transition.run lexStep ⟨tokens, .str read⟩ (text.flatMap (encodeRune isPrint)) = some state) :
    ∀ r ∈ text, Printed isPrint r := by
  induction text generalizing read with
  | nil => simp
  | cons r rest ih =>
      obtain ⟨c, rfl, hspace⟩ := htext r (by simp)
      rw [List.flatMap_cons, Transition.run_append] at h
      have hprinted : Printed isPrint (.char c) := by
        refine ⟨c, rfl, hspace, ?_⟩
        by_contra hnot
        rw [not_or, Bool.not_eq_true] at hnot
        simp [run_unprinted hnot.1 hnot.2] at h
      obtain ⟨pieces, -, -, hrun⟩ := readsAs_encodeRune hprinted
      rw [hrun, Option.bind_some] at h
      have hrest := ih (fun r hr => htext r (by simp [hr])) h
      intro r hr
      obtain rfl | hr := List.mem_cons.mp hr
      · exact hprinted
      · exact hrest r hr

/-! ## The text of the mutation -/

def bodyFront (identity : Identity) (completed : Bool) (event : WorkflowEvent R) : Text :=
  ofString "mutation \x7b chaosWorkflowRun(request:\x7b workflowID: \\\"" ++ event.workflowID ++
    ofString "\\\", workflowRunID: \\\"" ++ event.uid ++
    ofString "\\\", completed: " ++ completedText completed ++ ofString ", workflowName:\\\"" ++
    event.name ++ ofString "\\\", clusterID: \x7bclusterID: \\\"" ++ identity.cid ++
    ofString "\\\", version: \\\"" ++ identity.version ++ ofString "\\\", accessKey: \\\"" ++
    identity.accessKey ++ ofString "\\\"\x7d, executedBy:\\\"" ++ urlDecodeBase64 event.executedBy ++
    ofString "\\\", executionData:\\\""

def queryFront (identity : Identity) (completed : Bool) (event : WorkflowEvent R) : Text :=
  ofString "mutation \x7b chaosWorkflowRun(request:\x7b workflowID: \"" ++ event.workflowID ++
    ofString "\", workflowRunID: \"" ++ event.uid ++
    ofString "\", completed: " ++ completedText completed ++ ofString ", workflowName:\"" ++
    event.name ++ ofString "\", clusterID: \x7bclusterID: \"" ++ identity.cid ++
    ofString "\", version: \"" ++ identity.version ++ ofString "\", accessKey: \"" ++
    identity.accessKey ++ ofString "\"\x7d, executedBy:\"" ++ urlDecodeBase64 event.executedBy ++
    ofString "\", executionData:\""

variable {isPrint : Char → Bool} {codec : ChaosResultCodec R} {identity : Identity} {completed : Bool}
  {event : WorkflowEvent R}

theorem generateWorkflowPayload_eq :
    generateWorkflowPayload isPrint codec identity (completedText completed) event =
      ofString "\x7b\"query\":\"" ++ (bodyFront identity completed event ++
        ((marshal (event.cleaned.encode codec)).flatMap (encodeRune isPrint) ++
          ofString "\\\"\x7d )\x7d")) ++ ofString "\"\x7d" := by
  have hhead : ofString "\x7b\"query\":\"mutation \x7b chaosWorkflowRun(request:" ++
      ofString "\x7b workflowID: \\\"" = ofString "\x7b\"query\":\"" ++
        ofString "mutation \x7b chaosWorkflowRun(request:\x7b workflowID: \\\"" := by decide +kernel
  have hcluster : ofString "\\\", clusterID: " ++ ofString "\x7bclusterID: \\\"" =
      ofString "\\\", clusterID: \x7bclusterID: \\\"" := by decide +kernel
  have hexecuted : ofString "\\\"\x7d" ++ ofString ", executedBy:\\\"" =
      ofString "\\\"\x7d, executedBy:\\\"" := by decide +kernel
  have htail : ofString "\\\"\x7d" ++ ofString " )\x7d\"\x7d" =
      ofString "\\\"\x7d )\x7d" ++ ofString "\"\x7d" := by decide +kernel
  have hdata : ((marshalGQLData isPrint (event.cleaned.encode codec)).drop 1).dropLast =
      (marshal (event.cleaned.encode codec)).flatMap (encodeRune isPrint) := marshalGQLData_obj _ _
  simp only [generateWorkflowPayload, bodyFront, hdata, List.append_assoc, ← hcluster, ← hexecuted]
  rw [← List.append_assoc (ofString "\x7b\"query\":\"mutation \x7b chaosWorkflowRun(request:"), hhead,
    htail]
  simp only [List.append_assoc]
  rfl

theorem shown_completedText (completed : Bool) : ∀ r ∈ completedText completed, Shown r := by
  have hall : ∀ c ∈ "true".toList ++ "false".toList, c ≠ '"' ∧ c ≠ '\\' ∧ ' ' ≤ c :=
    forall_mem_chars (by decide)
  intro r hr
  obtain ⟨c, hc, rfl⟩ := List.mem_map.mp hr
  refine ⟨c, rfl, hall c (List.mem_append.mpr ?_)⟩
  cases completed
  · exact .inr hc
  · exact .inl hc

theorem readsAs_bodyFront (h : ShownArguments identity event) :
    ReadsAs (bodyFront identity completed event) (queryFront identity completed event) := by
  unfold bodyFront queryFront
  refine .append (.append ?_ (.shown h.executedBy)) (readsAs_ofString (by decide +kernel))
  refine .append (.append ?_ (.shown h.accessKey)) (readsAs_ofString (by decide +kernel))
  refine .append (.append ?_ (.shown h.version)) (readsAs_ofString (by decide +kernel))
  refine .append (.append ?_ (.shown h.cid)) (readsAs_ofString (by decide +kernel))
  refine .append (.append ?_ (.shown h.name)) (readsAs_ofString (by decide +kernel))
  refine .append (.append ?_ (.shown (shown_completedText completed))) (readsAs_ofString (by decide +kernel))
  refine .append (.append ?_ (.shown h.uid)) (readsAs_ofString (by decide +kernel))
  refine .append (.append ?_ (.shown h.workflowID)) (readsAs_ofString (by decide +kernel))
  exact readsAs_ofString (by decide +kernel)

theorem serverQuery_payload (h : ShownArguments identity event)
    (hprinted : ∀ r ∈ marshal (event.cleaned.encode codec), Printed isPrint r) :
    serverQuery (generateWorkflowPayload isPrint codec identity (completedText completed) event) =
      some (queryFront identity completed event ++
        ((marshal (event.cleaned.encode codec)).flatMap queryRune ++ ofString "\"\x7d )\x7d")) := by
  have hdata := ReadsAs.flatMap fun r hr => readsAs_encodeRune (hprinted r hr)
  have htail : ReadsAs (ofString "\\\"\x7d )\x7d") (ofString "\"\x7d )\x7d") :=
    readsAs_ofString (by decide +kernel)
  rw [generateWorkflowPayload_eq]
  exact serverQuery_of_readsAs ((readsAs_bodyFront h).append (hdata.append htail))

theorem parse_of_serverQuery {payload query : Text} (h : serverQuery payload = some query) :
    ∃ j, parse payload = some j := by
  cases hparse : parse payload with
  | none =>
      rw [serverQuery, hparse] at h
      cases h
  | some j => exact ⟨j, rfl⟩

/-- A request that the server reads has no character that is not printed. -/
theorem printed_of_serverQuery (h : ShownArguments identity event) {query : Text}
    (hquery : serverQuery (generateWorkflowPayload isPrint codec identity (completedText completed) event) =
      some query) : ∀ r ∈ marshal (event.cleaned.encode codec), Printed isPrint r := by
  rw [generateWorkflowPayload_eq] at hquery
  obtain ⟨j, hparse⟩ := parse_of_serverQuery hquery
  obtain ⟨tokens, hlex, -⟩ := Option.bind_eq_some_iff.mp hparse
  obtain ⟨last, hrun, -⟩ := Option.bind_eq_some_iff.mp hlex
  obtain ⟨pieces, -, -, hfront⟩ := @readsAs_bodyFront _ _ completed _ h
  rw [Transition.run_append, Transition.run_append, run_queryHead, Option.bind_some,
    Transition.run_append, hfront, Option.bind_some, Transition.run_append] at hrun
  obtain ⟨_, hrun, -⟩ := Option.bind_eq_some_iff.mp hrun
  obtain ⟨state, hdata, -⟩ := Option.bind_eq_some_iff.mp hrun
  have hvalid : ∀ r ∈ marshal (event.cleaned.encode codec), ∃ c, r = .char c ∧ ' ' ≤ c := by
    intro r hr
    obtain ⟨symbol, hsymbol, hr⟩ := List.mem_flatMap.mp hr
    cases symbol with
    | mark c =>
        obtain rfl := List.mem_singleton.mp hr
        exact ⟨c, rfl, (plain_of_mark_mem hsymbol).1⟩
    | content r' =>
        obtain ⟨c, hc, hspace, -⟩ := writtenFor_escapeRune r' r hr
        exact ⟨c, hc, hspace⟩
  exact printed_of_run hvalid hdata

/-! ## The tokens of the query -/

/-- What a piece of the query between two arguments leaves before its last quote, read behind its
first. -/
def opens (piece : String) : Option (List GraphQL.Token) :=
  match ofString piece with
  | .char '"' :: .char c :: rest =>
      if c = '"' then none
      else
        match Transition.run GraphQL.lexStep ⟨[], .idle⟩ (.char c :: rest) with
        | some ⟨found, .str []⟩ => some found
        | _ => none
  | _ => none

theorem run_opens {piece : String} {found : List GraphQL.Token} (h : opens piece = some found)
    (tokens : List GraphQL.Token) (read : Text) :
    Transition.run GraphQL.lexStep ⟨tokens, .str read⟩ (ofString piece) =
      some ⟨found ++ .string read.reverse :: tokens, .str []⟩ := by
  unfold opens at h
  split at h
  case h_2 => cases h
  case h_1 c rest hpiece =>
    split_ifs at h with hquote
    split at h
    case h_2 => cases h
    case h_1 hrun =>
      obtain rfl := Option.some.inj h
      have hafter := GraphQL.run_after (.string read.reverse :: tokens) ⟨[], .idle⟩ (.char c :: rest)
      rw [hrun] at hafter
      rw [hpiece, GraphQL.run_quote hquote]
      exact hafter

theorem run_argument {front arg : Text} {piece : String} {tokens found : List GraphQL.Token}
    (hfront : Transition.run GraphQL.lexStep ⟨[], .idle⟩ front = some ⟨tokens, .str []⟩)
    (harg : ∀ r ∈ arg, Shown r) (hpiece : opens piece = some found) :
    Transition.run GraphQL.lexStep ⟨[], .idle⟩ (front ++ arg ++ ofString piece) =
      some ⟨found ++ .string arg :: tokens, .str []⟩ := by
  have hread := GraphQL.run_shown harg tokens []
  rw [List.append_nil] at hread
  rw [Transition.run_append, Transition.run_append, hfront, Option.bind_some, hread, Option.bind_some,
    run_opens hpiece, List.reverse_reverse]

def requestTokens (identity : Identity) (completed : Bool) (event : WorkflowEvent R) :
    List GraphQL.Token :=
  [.name "mutation", .punct '{', .name "chaosWorkflowRun", .punct '(', .name "request", .punct ':',
    .punct '{', .name "workflowID", .punct ':', .string event.workflowID, .name "workflowRunID",
    .punct ':', .string event.uid, .name "completed", .punct ':',
    .name (if completed then "true" else "false"), .name "workflowName", .punct ':',
    .string event.name, .name "clusterID", .punct ':', .punct '{', .name "clusterID", .punct ':',
    .string identity.cid, .name "version", .punct ':', .string identity.version, .name "accessKey",
    .punct ':', .string identity.accessKey, .punct '}', .name "executedBy", .punct ':',
    .string (urlDecodeBase64 event.executedBy), .name "executionData", .punct ':']

theorem run_queryFront (h : ShownArguments identity event) :
    Transition.run GraphQL.lexStep ⟨[], .idle⟩ (queryFront identity completed event) =
      some ⟨(requestTokens identity completed event).reverse, .str []⟩ := by
  have hhead : Transition.run GraphQL.lexStep ⟨[], .idle⟩
      (ofString "mutation \x7b chaosWorkflowRun(request:\x7b workflowID: \"") =
        some ⟨[.punct ':', .name "workflowID", .punct '{', .punct ':', .name "request", .punct '(',
          .name "chaosWorkflowRun", .punct '{', .name "mutation"], .str []⟩ := by decide +kernel
  have hrunID : opens "\", workflowRunID: \"" = some [.punct ':', .name "workflowRunID"] := by
    decide +kernel
  have hcompleted : ∃ piece : String, ofString "\", completed: " ++ completedText completed ++
      ofString ", workflowName:\"" = ofString piece ∧ opens piece = some [.punct ':',
        .name "workflowName", .name (if completed then "true" else "false"), .punct ':',
        .name "completed"] := by
    cases completed
    · exact ⟨"\", completed: false, workflowName:\"", by decide +kernel, by decide +kernel⟩
    · exact ⟨"\", completed: true, workflowName:\"", by decide +kernel, by decide +kernel⟩
  have hclusterID : opens "\", clusterID: \x7bclusterID: \"" = some [.punct ':', .name "clusterID",
      .punct '{', .punct ':', .name "clusterID"] := by decide +kernel
  have hversion : opens "\", version: \"" = some [.punct ':', .name "version"] := by decide +kernel
  have hkey : opens "\", accessKey: \"" = some [.punct ':', .name "accessKey"] := by decide +kernel
  have hexecuted : opens "\"\x7d, executedBy:\"" = some [.punct ':', .name "executedBy",
      .punct '}'] := by decide +kernel
  have hdata : opens "\", executionData:\"" = some [.punct ':', .name "executionData"] := by
    decide +kernel
  obtain ⟨piece, hpiece, hcompleted⟩ := hcompleted
  have hids := run_argument (run_argument hhead h.workflowID hrunID) h.uid hcompleted
  have hcluster := run_argument (run_argument hids h.name hclusterID) h.cid hversion
  have hlast := run_argument (run_argument (run_argument hcluster h.version hkey) h.accessKey hexecuted)
    h.executedBy hdata
  rw [← hpiece] at hlast
  simp only [List.append_assoc] at hlast
  simp only [queryFront, List.append_assoc]
  exact hlast

/-! ## The execution data in the query -/

theorem flatMap_queryRune {text : Text} (h : .char '"' ∉ text) : text.flatMap queryRune = text := by
  induction text with
  | nil => rfl
  | cons r rest ih =>
      have hr : queryRune r = [r] := if_neg (List.ne_of_not_mem_cons h).symm
      rw [List.flatMap_cons, hr, ih (List.not_mem_of_not_mem_cons h)]
      rfl

/-- What a character of the JSON is in the execution data. -/
def dataRune : Symbol → Rune
  | .mark c => .char c
  | .content r => r.sanitize

theorem run_data_unicode (tokens : List GraphQL.Token) (read : Text) {n : Nat} (h : n < 0x10000) :
    Transition.run GraphQL.lexStep ⟨tokens, .str read⟩
      ((ofChars ('\\' :: 'u' :: hexDigits 4 n)).flatMap queryRune) =
        some ⟨tokens, .str (.char (ofCodePoint n) :: read)⟩ := by
  have hquote : Rune.char '"' ∉ ofChars ('\\' :: 'u' :: hexDigits 4 n) := by
    have hdigit : ∀ k, hexDigit (k % 16) ≠ '"' := by
      have hall : ∀ k < 16, hexDigit k ≠ '"' := by decide
      exact fun k => hall _ (Nat.mod_lt _ (by decide))
    simp [ofChars, hexDigits, (hdigit _).symm]
  rw [flatMap_queryRune hquote]
  exact GraphQL.run_unicode tokens read h

theorem run_data_char (tokens : List GraphQL.Token) (read : Text) {c : Char} (hquote : c ≠ '"')
    (hslash : c ≠ '\\') (hspace : ' ' ≤ c) :
    Transition.run GraphQL.lexStep ⟨tokens, .str read⟩ (queryRune (.char c)) =
      some ⟨tokens, .str (.char c :: read)⟩ := by
  have hshown : ∀ r ∈ [Rune.char c], Shown r := by
    intro r hr
    exact ⟨c, List.mem_singleton.mp hr, hquote, hslash, hspace⟩
  have hself : queryRune (.char c) = [.char c] := by simp [queryRune, hquote]
  rw [hself]
  exact GraphQL.run_shown hshown tokens read

theorem run_content {r : Rune} (hquote : r ≠ .char '"') (tokens : List GraphQL.Token) (read : Text) :
    Transition.run GraphQL.lexStep ⟨tokens, .str read⟩ ((escapeRune r).flatMap queryRune) =
      some ⟨tokens, .str (r.sanitize :: read)⟩ := by
  cases r with
  | invalid byte => exact run_data_unicode tokens read (by decide : 0xFFFD < 0x10000)
  | char c =>
      have hne : c ≠ '"' := fun heq => hquote (by rw [heq])
      rw [escapeRune]
      by_cases hslash : c = '\\'
      · subst hslash
        rfl
      rw [if_neg (not_or.mpr ⟨hne, hslash⟩)]
      by_cases hnewline : c = '\n'
      · subst hnewline
        rfl
      rw [if_neg hnewline]
      by_cases hreturn : c = '\r'
      · subst hreturn
        rfl
      rw [if_neg hreturn]
      by_cases htab : c = '\t'
      · subst htab
        rfl
      rw [if_neg htab]
      by_cases hcode : c < ' ' ∨ c ∈ ['<', '>', '&', '\u2028', '\u2029']
      · have hsmall : c.toNat < 0x10000 := by
          obtain hcontrol | hcode := hcode
          · exact (toNat_lt_of_lt hcontrol).trans (by decide)
          · have hall : ∀ c ∈ ['<', '>', '&', '\u2028', '\u2029'], c.toNat < 0x10000 :=
              forall_mem_chars (by decide)
            exact hall c hcode
        rw [if_pos hcode, run_data_unicode tokens read hsmall, ofCodePoint_toNat]
        rfl
      · rw [if_neg hcode, List.flatMap_singleton]
        exact run_data_char tokens read hne hslash (Char.not_lt.mp fun hcontrol => hcode (.inl hcontrol))

theorem run_symbol {symbol : Symbol} (hplain : ∀ c, symbol = .mark c → Plain c)
    (hquote : symbol ≠ .content (.char '"')) (tokens : List GraphQL.Token) (read : Text) :
    Transition.run GraphQL.lexStep ⟨tokens, .str read⟩ ((symbol.render escapeRune).flatMap queryRune) =
      some ⟨tokens, .str (dataRune symbol :: read)⟩ := by
  cases symbol with
  | content r => exact run_content (fun heq => hquote (by rw [heq])) tokens read
  | mark c =>
      obtain ⟨hspace, hslash, -⟩ := hplain c rfl
      rw [Symbol.render, List.flatMap_singleton]
      by_cases hc : c = '"'
      · subst hc
        rfl
      · exact run_data_char tokens read hc hslash hspace

def dataText (symbols : List Symbol) : Text := (render escapeRune symbols).flatMap queryRune

theorem dataText_append (left right : List Symbol) :
    dataText (left ++ right) = dataText left ++ dataText right := by
  simp [dataText, render]

theorem run_symbols {symbols : List Symbol} (hplain : ∀ c, .mark c ∈ symbols → Plain c)
    (hquote : .content (.char '"') ∉ symbols) (tokens : List GraphQL.Token) (read : Text) :
    Transition.run GraphQL.lexStep ⟨tokens, .str read⟩ (dataText symbols) =
      some ⟨tokens, .str ((symbols.map dataRune).reverse ++ read)⟩ := by
  induction symbols generalizing read with
  | nil => rfl
  | cons symbol rest ih =>
      have hfirst := @run_symbol symbol (fun c hc => hplain c (by simp [hc]))
        (List.ne_of_not_mem_cons hquote).symm tokens read
      have hrest := ih (fun c hc => hplain c (by simp [hc])) (List.not_mem_of_not_mem_cons hquote)
        (dataRune symbol :: read)
      have hcons : dataText (symbol :: rest) =
          (symbol.render escapeRune).flatMap queryRune ++ dataText rest := by
        simp [dataText, render]
      rw [hcons, Transition.run_append, hfirst, Option.bind_some, hrest]
      simp

/-- The execution data ends with the JSON, or earlier, at the first quote in one of its strings. -/
theorem run_executionData {symbols : List Symbol} (hplain : ∀ c, .mark c ∈ symbols → Plain c)
    (tokens : List GraphQL.Token) :
    ∃ data rest, data.length ≤ symbols.length ∧
      Transition.run GraphQL.lexStep ⟨tokens, .str []⟩ (dataText symbols ++ ofString "\"\x7d )\x7d") =
        Transition.run GraphQL.lexStep ⟨.string data :: tokens, .idle⟩ rest := by
  have hclose : ofString "\"\x7d )\x7d" = .char '"' :: .char '\x7d' :: ofString " )\x7d" := by decide
  by_cases hquote : .content (.char '"') ∈ symbols
  · obtain ⟨front, back, rfl, hfront⟩ := List.eq_append_cons_of_mem hquote
    refine ⟨front.map dataRune ++ [.char '\\'],
      dataText back ++ ofString "\"\x7d )\x7d", by simp, ?_⟩
    have hread := run_symbols (fun c hc => hplain c (by simp [hc])) hfront tokens []
    have hmark : dataText (.content (.char '"') :: back) =
        .char '\\' :: .char '\\' :: .char '"' :: dataText back := rfl
    rw [dataText_append, List.append_assoc, Transition.run_append, hread, Option.bind_some, hmark]
    have hslash : ∀ tail, Transition.run GraphQL.lexStep
        ⟨tokens, .str ((front.map dataRune).reverse ++ [])⟩ (.char '\\' :: .char '\\' :: tail) =
          Transition.run GraphQL.lexStep
            ⟨tokens, .str (.char '\\' :: ((front.map dataRune).reverse ++ []))⟩ tail := fun _ => rfl
    rw [List.cons_append, List.cons_append, List.cons_append, hslash,
      GraphQL.run_quote_of_ne_nil (List.cons_ne_nil _ _)]
    simp
  · refine ⟨symbols.map dataRune, .char '\x7d' :: ofString " )\x7d", by simp, ?_⟩
    have hread := run_symbols hplain hquote tokens []
    rw [Transition.run_append, hread, Option.bind_some, hclose, GraphQL.run_quote (by decide)]
    simp

/-! ## The document -/

theorem finish_after (found : List GraphQL.Token) (state : GraphQL.LexState) :
    (state.after found).finish = state.finish.map (found.reverse ++ ·) := by
  obtain ⟨tokens, mode⟩ := state
  cases mode <;> simp [GraphQL.LexState.after, GraphQL.LexState.finish]

def requestFields (identity : Identity) (completed : Bool) (event : WorkflowEvent R) (data : Text) :
    List (String × GraphQL.Value) :=
  [("workflowID", .string event.workflowID), ("workflowRunID", .string event.uid),
    ("completed", .boolean completed), ("workflowName", .string event.name),
    ("clusterID", .object [("clusterID", .string identity.cid), ("version", .string identity.version),
      ("accessKey", .string identity.accessKey)]),
    ("executedBy", .string (urlDecodeBase64 event.executedBy)), ("executionData", .string data)]

theorem parseSelectionSet_brace (fuel : Nat) (rest : List GraphQL.Token) :
    GraphQL.parseSelectionSet (fuel + 1) (.punct '\x7b' :: rest) = do
      let (selection, rest) ← GraphQL.parseSelection fuel rest
      let (selections, rest) ← GraphQL.parseSelections fuel rest
      return (selection :: selections, rest) := by
  rw [GraphQL.parseSelectionSet]

theorem parseSelectionSet_end (fuel : Nat) (rest : List GraphQL.Token) :
    GraphQL.parseSelectionSet fuel (.punct '\x7d' :: rest) = some ([], .punct '\x7d' :: rest) := by
  cases fuel <;> rfl

/-- A document that begins with the arguments of the event goes on with other ones, and ends. -/
theorem parseTokens_request (data : Text) (tail : List GraphQL.Token) :
    GraphQL.parseTokens (requestTokens identity completed event ++ .string data :: tail) = do
      let (more, rest) ← GraphQL.parseFields '\x7d' (tail.length + 27) tail
      let (others, rest) ← GraphQL.parseFields ')' (tail.length + 35) rest
      let (selections, rest) ← GraphQL.parseSelectionSet (tail.length + 36) rest
      let (siblings, rest) ← GraphQL.parseSelections (tail.length + 37) rest
      if !rest.isEmpty then none
      else return ⟨.mutation, none, .field none "chaosWorkflowRun"
        (("request", .object (requestFields identity completed event data ++ more)) :: others)
        selections :: siblings⟩ := by
  cases completed <;>
    simp [requestTokens, GraphQL.parseTokens, GraphQL.parseHead, GraphQL.operationType,
      parseSelectionSet_brace, GraphQL.parseSelection, GraphQL.parseName, GraphQL.parseArguments,
      GraphQL.parseFields, GraphQL.parseValue, GraphQL.nameValue, Option.bind_assoc, requestFields]

theorem lex_query (h : ShownArguments identity event) {symbols : List Symbol}
    (hplain : ∀ c, .mark c ∈ symbols → Plain c) (hquote : .content (.char '"') ∉ symbols) :
    GraphQL.lex (queryFront identity completed event ++ (dataText symbols ++ ofString "\"\x7d )\x7d")) =
      some (requestTokens identity completed event ++ .string (symbols.map dataRune) ::
        [.punct '\x7d', .punct ')', .punct '\x7d']) := by
  have hclose : ofString "\"\x7d )\x7d" =
      [.char '"', .char '\x7d', .char ' ', .char ')', .char '\x7d'] := by decide
  have hread := run_symbols hplain hquote (requestTokens identity completed event).reverse []
  have hlast : Transition.run GraphQL.lexStep
      ⟨.string (symbols.map dataRune) :: (requestTokens identity completed event).reverse, .idle⟩
        [.char '\x7d', .char ' ', .char ')', .char '\x7d'] =
      some ⟨.punct '\x7d' :: .punct ')' :: .punct '\x7d' :: .string (symbols.map dataRune) ::
        (requestTokens identity completed event).reverse, .idle⟩ := rfl
  rw [GraphQL.lex, Transition.run_append, run_queryFront h, Option.bind_some, Transition.run_append,
    hread, Option.bind_some, hclose, GraphQL.run_quote (by decide), List.append_nil, List.reverse_reverse,
    hlast]
  simp [GraphQL.LexState.finish]

/-- Whatever the query is read as, its execution data is no longer than the JSON has characters. -/
theorem executionData_of_parse (h : ShownArguments identity event) {symbols : List Symbol}
    (hplain : ∀ c, .mark c ∈ symbols → Plain c) {fields : List (String × GraphQL.Value)}
    (hparse : GraphQL.parse (queryFront identity completed event ++
      (dataText symbols ++ ofString "\"\x7d )\x7d")) = some (chaosWorkflowRun fields)) :
    ∃ data, fields.lookup "executionData" = some (.string data) ∧ data.length ≤ symbols.length := by
  obtain ⟨tokens, hlex, htokens⟩ := Option.bind_eq_some_iff.mp hparse
  obtain ⟨last, hrun, hfinish⟩ := Option.bind_eq_some_iff.mp hlex
  obtain ⟨data, rest, hlength, hdata⟩ :=
    run_executionData hplain (requestTokens identity completed event).reverse
  refine ⟨data, ?_, hlength⟩
  have hafter := GraphQL.run_after (.string data :: (requestTokens identity completed event).reverse)
    ⟨[], .idle⟩ rest
  rw [Transition.run_append, run_queryFront h, Option.bind_some, hdata] at hrun
  obtain ⟨state, -, rfl⟩ := Option.map_eq_some_iff.mp (hafter.symm.trans hrun)
  rw [finish_after] at hfinish
  obtain ⟨tail, -, rfl⟩ := Option.map_eq_some_iff.mp hfinish
  rw [List.reverse_cons, List.reverse_reverse, List.append_assoc, List.singleton_append,
    parseTokens_request] at htokens
  obtain ⟨⟨more, back⟩, -, htokens⟩ := Option.bind_eq_some_iff.mp htokens
  obtain ⟨⟨others, back⟩, -, htokens⟩ := Option.bind_eq_some_iff.mp htokens
  obtain ⟨⟨selections, back⟩, -, htokens⟩ := Option.bind_eq_some_iff.mp htokens
  obtain ⟨⟨siblings, back⟩, -, htokens⟩ := Option.bind_eq_some_iff.mp htokens
  dsimp only at htokens
  split_ifs at htokens
  have hfields : requestFields identity completed event data ++ more = fields := by
    simp only [chaosWorkflowRun, pure, Option.some.injEq, GraphQL.Operation.mk.injEq, List.cons.injEq,
      GraphQL.Selection.field.injEq, Prod.mk.injEq, GraphQL.Value.object.injEq] at htokens
    exact htokens.2.2.1.2.2.1.1.2
  rw [← hfields]
  rfl

/-! ## The event read back -/

theorem unescaped_eq_map {j : Json} (h : ∀ r ∈ j.runes, Shown r) :
    unescaped j = j.symbols.map dataRune := by
  have hone : ∀ symbol ∈ j.symbols, symbol.render (fun r => [r]) = [dataRune symbol] := by
    intro symbol hsymbol
    cases symbol with
    | mark c => rfl
    | content r =>
        obtain ⟨c, rfl, -⟩ := h r (content_mem_symbols_iff.mp hsymbol)
        rfl
  rw [unescaped, render, List.flatMap_congr hone, List.map_eq_flatMap]

theorem escapeRune_of_large {c : Char} (h : ¬ c.toNat < 0x10000) : escapeRune (.char c) = [.char c] := by
  have hne : ∀ small : Char, small.toNat < 0x10000 → c ≠ small := by
    rintro small hsmall rfl
    exact h hsmall
  have hspace : ¬ c < ' ' := fun hlt => h ((toNat_lt_of_lt hlt).trans (by decide))
  simp [escapeRune, hspace, hne]

/-- An event that comes back has in its JSON only characters that need no escape. -/
theorem carried_of_roundTrips (h : ShownArguments identity event)
    (htrip : RoundTrips isPrint codec identity completed event) :
    ∀ r ∈ (event.cleaned.encode codec).runes, Carried isPrint r := by
  obtain ⟨query, fields, hquery, hparse, hcarries⟩ := htrip
  have hprinted := printed_of_serverQuery h hquery
  rw [serverQuery_payload h hprinted] at hquery
  obtain rfl := Option.some.inj hquery
  obtain ⟨data, hlookup, hlength⟩ := executionData_of_parse h (fun c => plain_of_mark_mem) hparse
  obtain ⟨data', hlookup', hread⟩ := hcarries.executionData
  obtain rfl : data = data' := by simpa using hlookup.symm.trans hlookup'
  have hshown := shown_of_tokensCost_le ((cost_parse hread).trans hlength)
  intro r hr
  refine ⟨hshown r hr, ?_⟩
  rintro c rfl
  by_cases hsmall : c.toNat < 0x10000
  · exact .inr hsmall
  · have hmem : Rune.char c ∈ marshal (event.cleaned.encode codec) := by
      refine List.mem_flatMap.mpr ⟨_, content_mem_symbols_iff.mpr hr, ?_⟩
      simp [Symbol.render, escapeRune_of_large hsmall]
    obtain ⟨_, hc, -, hprint⟩ := hprinted _ hmem
    obtain rfl := Rune.char.inj hc
    exact hprint

theorem roundTrips_of_carried (h : ShownArguments identity event)
    (hcarried : ∀ r ∈ (event.cleaned.encode codec).runes, Carried isPrint r) :
    RoundTrips isPrint codec identity completed event := by
  have hshown : ∀ r ∈ (event.cleaned.encode codec).runes, Shown r := fun r hr => (hcarried r hr).1
  have hquote : .content (.char '"') ∉ (event.cleaned.encode codec).symbols := by
    intro hmem
    obtain ⟨c, hc, hne, -⟩ := hshown _ (content_mem_symbols_iff.mp hmem)
    exact hne (Rune.char.inj hc).symm
  have hquery := @serverQuery_payload _ isPrint codec identity completed event h
    (printed_marshal fun c hc => (hcarried _ hc).2 c rfl)
  have hlex := @lex_query _ identity completed event h _ (fun c => plain_of_mark_mem) hquote
  refine ⟨_, requestFields identity completed event (unescaped (event.cleaned.encode codec)), hquery,
    ?_, ?_⟩
  · rw [dataText] at hlex
    rw [GraphQL.parse, marshal, hlex, Option.bind_some, parseTokens_request, unescaped_eq_map hshown]
    simp [chaosWorkflowRun, GraphQL.parseFields, parseSelectionSet_end, GraphQL.parseSelections]
  · exact ⟨rfl, rfl, rfl, rfl, rfl, _, rfl, parse_unescaped hshown⟩

/-- The event comes back exactly when its JSON has no character that needs an escape. -/
theorem roundTrips_iff (isPrint : Char → Bool) (codec : ChaosResultCodec R) (identity : Identity)
    (completed : Bool) (event : WorkflowEvent R) (h : ShownArguments identity event) :
    RoundTrips isPrint codec identity completed event ↔
      ∀ r ∈ (event.cleaned.encode codec).runes, Carried isPrint r :=
  ⟨carried_of_roundTrips h, roundTrips_of_carried h⟩


def isGraphic (c : Char) : Bool := ' ' ≤ c ∧ c ≤ '~'

def plainIdentity : Identity where
  cid := ofString "cluster"
  accessKey := ofString "key"
  version := ofString "2.0.0"

def plainEvent (message : String) : WorkflowEvent Unit where
  workflowType := ofString "events"
  workflowID := ofString "workflow"
  eventType := ofString "UPDATE"
  uid := ofString "run"
  nameSpace := ofString "litmus"
  name := ofString "pod-delete"
  creationTimestamp := ofString "1634000000"
  phase := ofString "Running"
  message := ofString message
  startedAt := ofString "1634000000"
  finishedAt := []
  nodes := none
  executedBy := ofString "admin"

instance (r : Rune) : Decidable (Shown r) := decidable_of_iff _ runeCost_eq_one_iff

instance (isPrint : Char → Bool) : DecidablePred (Carried isPrint)
  | .char c => decidable_of_iff (Shown (.char c) ∧ (isPrint c = true ∨ c.toNat < 0x10000))
      (by simp [Carried])
  | .invalid byte => .isFalse fun h => by
      obtain ⟨c, hc, -⟩ := h.1
      cases hc

theorem shownArguments_plainEvent (message : String) :
    ShownArguments plainIdentity (plainEvent message) where
  workflowID := (by decide +kernel : ∀ r ∈ ofString "workflow", Shown r)
  uid := (by decide +kernel : ∀ r ∈ ofString "run", Shown r)
  name := (by decide +kernel : ∀ r ∈ ofString "pod-delete", Shown r)
  executedBy := (by decide +kernel : ∀ r ∈ urlDecodeBase64 (ofString "admin"), Shown r)
  cid := (by decide +kernel : ∀ r ∈ ofString "cluster", Shown r)
  version := (by decide +kernel : ∀ r ∈ ofString "2.0.0", Shown r)
  accessKey := (by decide +kernel : ∀ r ∈ ofString "key", Shown r)

/-- A newline in the message of the event is lost between the JSON and the query. -/
theorem not_roundTrips_newline :
    ¬ RoundTrips isGraphic emptyCodec plainIdentity true (plainEvent "Stopped\n") := by
  intro htrip
  have hmem : Rune.char '\n' ∈ ((plainEvent "Stopped\n").cleaned.encode emptyCodec).runes := by
    decide +kernel
  have hcarried := carried_of_roundTrips (shownArguments_plainEvent _) htrip _ hmem
  exact absurd hcarried.1 (by decide)

theorem roundTrips_plainEvent :
    RoundTrips isGraphic emptyCodec plainIdentity true (plainEvent "Started") := by
  apply (roundTrips_iff isGraphic emptyCodec plainIdentity true (plainEvent "Started")
    (shownArguments_plainEvent _)).mpr
  decide +kernel

end LitmusPortal.Agent
