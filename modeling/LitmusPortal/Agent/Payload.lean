import LitmusPortal.Agent.Event
import LitmusPortal.Lib.Base64
import LitmusPortal.Lib.GoQuote
import LitmusPortal.Lib.GraphQL

/-!
# The mutation of a workflow event

`GenerateWorkflowPayload` puts the mutation `chaosWorkflowRun` together as a text inside the JSON of the
request. The event's JSON is quoted once more, and the other arguments stand in the text as they are.
The server takes the query from the JSON, parses it, and decodes the execution data.
-/

namespace LitmusPortal.Agent

open GoText GoJson

variable {R : Type}

structure Identity where
  cid : Text
  accessKey : Text
  version : Text

def urlDecodeBase64 (encoded : Text) : Text :=
  match (toChars? encoded).bind Base64.decodeRawURL with
  | none => encoded
  | some decoded => ofBytes decoded

def Node.withoutQuotes (node : Node R) : Node R :=
  { node with message := replaceAll node.message (ofString "\"") [] }

theorem nodupKeys_map {α β : Type} (f : α → β) (map : GoMap α) :
    (map.entries.map fun entry => (⟨entry.1, f entry.2⟩ : Sigma fun _ : Text => β)).NodupKeys := by
  have hkeys := map.nodupKeys
  rw [List.NodupKeys] at hkeys ⊢
  simpa [List.keys, List.map_map, Function.comp_def] using hkeys

def cleanNodes (nodes : GoMap (Node R)) : GoMap (Node R) where
  entries := nodes.entries.map fun entry => ⟨entry.1, entry.2.withoutQuotes⟩
  nodupKeys := nodupKeys_map Node.withoutQuotes nodes

/-- The event as `GenerateWorkflowPayload` changes it before it writes it. -/
def WorkflowEvent.cleaned (event : WorkflowEvent R) : WorkflowEvent R :=
  { event with
    nodes := event.nodes.map cleanNodes
    executedBy := urlDecodeBase64 event.executedBy }

def marshalGQLData (isPrint : Char → Bool) (gqlData : Json) : Text :=
  replaceAll (quote isPrint (marshal gqlData)) (ofString "\\\"") (ofString "\\\\\\\"")

def generateWorkflowPayload (isPrint : Char → Bool) (codec : ChaosResultCodec R) (identity : Identity)
    (completed : Text) (wfEvent : WorkflowEvent R) : Text :=
  let clusterID := ofString "\x7bclusterID: \\\"" ++ identity.cid ++ ofString "\\\", version: \\\"" ++
    identity.version ++ ofString "\\\", accessKey: \\\"" ++ identity.accessKey ++ ofString "\\\"\x7d"
  let wfEvent := wfEvent.cleaned
  let processed := marshalGQLData isPrint (wfEvent.encode codec)
  let mutation := ofString "\x7b workflowID: \\\"" ++ wfEvent.workflowID ++
    ofString "\\\", workflowRunID: \\\"" ++ wfEvent.uid ++ ofString "\\\", completed: " ++ completed ++
    ofString ", workflowName:\\\"" ++ wfEvent.name ++ ofString "\\\", clusterID: " ++ clusterID ++
    ofString ", executedBy:\\\"" ++ wfEvent.executedBy ++ ofString "\\\", executionData:\\\"" ++
    (processed.drop 1).dropLast ++ ofString "\\\"\x7d"
  ofString "\x7b\"query\":\"mutation \x7b chaosWorkflowRun(request:" ++ mutation ++
    ofString " )\x7d\"\x7d"

/-- The texts that the subscriber passes for the argument `completed`. -/
def completedText (completed : Bool) : Text := ofString (if completed then "true" else "false")

/-! ## The reading side -/

/-- The query of a request, whose body is an object. -/
def serverQuery (payload : Text) : Option Text :=
  match parse payload with
  | some (.obj members) =>
      match members.lookup (ofString "query") with
      | some (.str query) => some query
      | _ => none
  | _ => none

/-- The arguments read back as the fields of the event, and the execution data is the text of its
JSON. -/
structure Carries (codec : ChaosResultCodec R) (completed : Bool) (event : WorkflowEvent R)
    (fields : List (String × GraphQL.Value)) : Prop where
  workflowID : fields.lookup "workflowID" = some (.string event.workflowID)
  workflowRunID : fields.lookup "workflowRunID" = some (.string event.uid)
  workflowName : fields.lookup "workflowName" = some (.string event.name)
  completed : fields.lookup "completed" = some (.boolean completed)
  executedBy : fields.lookup "executedBy" = some (.string event.executedBy)
  executionData : ∃ data, fields.lookup "executionData" = some (.string data) ∧
    parse data = some (event.encode codec)

def chaosWorkflowRun (fields : List (String × GraphQL.Value)) : GraphQL.Operation :=
  ⟨.mutation, none, [.field none "chaosWorkflowRun" [("request", .object fields)] []]⟩

/-- The payload is a document whose arguments carry the event. -/
def RoundTrips (isPrint : Char → Bool) (codec : ChaosResultCodec R) (identity : Identity)
    (completed : Bool) (event : WorkflowEvent R) : Prop :=
  ∃ query fields,
    serverQuery (generateWorkflowPayload isPrint codec identity (completedText completed) event) =
      some query ∧
    GraphQL.parse query = some (chaosWorkflowRun fields) ∧
    Carries codec completed event.cleaned fields

/-- What stands in the text of the mutation as it is. -/
structure ShownArguments (identity : Identity) (event : WorkflowEvent R) : Prop where
  workflowID : ∀ r ∈ event.workflowID, Shown r
  uid : ∀ r ∈ event.uid, Shown r
  name : ∀ r ∈ event.name, Shown r
  executedBy : ∀ r ∈ urlDecodeBase64 event.executedBy, Shown r
  cid : ∀ r ∈ identity.cid, Shown r
  version : ∀ r ∈ identity.version, Shown r
  accessKey : ∀ r ∈ identity.accessKey, Shown r

def Carried (isPrint : Char → Bool) (r : Rune) : Prop :=
  Shown r ∧ ∀ c, r = .char c → isPrint c = true ∨ c.toNat < 0x10000

/-! ## Quoting -/

/-- What `MarshalGQLData` makes of a character of the JSON. -/
def encodeRune (isPrint : Char → Bool) (r : Rune) : Text :=
  if r = .char '"' then ofString "\\\\\\\"" else quoteRune isPrint r

theorem not_mem_hexDigits (count n : Nat) : Rune.char '\\' ∉ ofChars (hexDigits count n) := by
  induction count generalizing n with
  | zero => simp [hexDigits, ofChars]
  | succ count ih =>
      have hdigit : hexDigit (n % 16) ≠ '\\' := by
        have hall : ∀ k < 16, hexDigit k ≠ '\\' := by decide
        exact hall _ (Nat.mod_lt _ (by decide))
      have hfront := ih (n / 16)
      simp only [hexDigits, ofChars, List.map_append, List.mem_append, not_or, List.map_cons,
        List.map_nil, List.mem_singleton, Rune.char.injEq] at hfront ⊢
      exact ⟨hfront, hdigit.symm⟩

theorem replace_escape {new tail : Text} {c : Char} (hc : c ≠ '"') (hslash : c ≠ '\\') {rest : Text}
    (hrest : Rune.char '\\' ∉ rest) :
    replaceRunes [.char '\\', .char '"'] new 0 (.char '\\' :: .char c :: (rest ++ tail)) =
      .char '\\' :: .char c :: (rest ++ replaceRunes [.char '\\', .char '"'] new 0 tail) := by
  rw [replaceRunes_pair_of_ne (by simpa using hc), replaceRunes_of_ne (by simpa using hslash),
    replaceRunes_of_not_mem hrest]

/-- A character that is no quote and no backslash is printed as it is, or as an escape. -/
theorem quoteRune_cases (isPrint : Char → Bool) {r : Rune} (hquote : r ≠ .char '"')
    (hslash : r ≠ .char '\\') :
    quoteRune isPrint r = [r] ∨ ∃ (letter : Char) (rest : Text),
      quoteRune isPrint r = .char '\\' :: .char letter :: rest ∧ letter ≠ '"' ∧ letter ≠ '\\' ∧
        Rune.char '\\' ∉ rest := by
  cases r with
  | invalid byte => exact .inr ⟨'x', _, rfl, by decide, by decide, not_mem_hexDigits 2 byte.toNat⟩
  | char c =>
      have hmark : ¬ (c = '"' ∨ c = '\\') := by simpa using And.intro hquote hslash
      by_cases hprint : isPrint c = true
      · exact .inl (by simp [quoteRune, hmark, hprint])
      · right
        simp only [quoteRune, hmark, hprint, if_false, Bool.false_eq_true]
        cases hletter : quoteLetter c with
        | some letter =>
            have hall : letter ≠ '"' ∧ letter ≠ '\\' := by
              unfold quoteLetter at hletter
              split at hletter <;> first | (obtain rfl := Option.some.inj hletter; decide) | cases hletter
            exact ⟨letter, [], rfl, hall.1, hall.2, by simp⟩
        | none =>
            by_cases hcontrol : c < ' '
            · exact ⟨'x', _, if_pos hcontrol, by decide, by decide, not_mem_hexDigits 2 _⟩
            · by_cases hsmall : c.toNat < 0x10000
              · exact ⟨'u', _, (if_neg hcontrol).trans (if_pos hsmall), by decide, by decide,
                  not_mem_hexDigits 4 _⟩
              · exact ⟨'U', _, (if_neg hcontrol).trans (if_neg hsmall), by decide, by decide,
                  not_mem_hexDigits 8 _⟩

theorem replace_quoteRune (isPrint : Char → Bool) {r : Rune} {tail : Text}
    (htail : r = .char '\\' → tail.head? ≠ some (.char '"')) :
    replaceRunes (ofString "\\\"") (ofString "\\\\\\\"") 0 (quoteRune isPrint r ++ tail) =
      encodeRune isPrint r ++ replaceRunes (ofString "\\\"") (ofString "\\\\\\\"") 0 tail := by
  have hpair : ofString "\\\"" = [.char '\\', .char '"'] := by decide
  rw [hpair]
  by_cases hquote : r = .char '"'
  · subst hquote
    exact replaceRunes_pair
  · rw [encodeRune, if_neg hquote]
    by_cases hslash : r = .char '\\'
    · subst hslash
      have hfirst : replaceRunes [.char '\\', .char '"'] (ofString "\\\\\\\"") 0
          (.char '\\' :: .char '\\' :: tail) = _ := replaceRunes_pair_of_ne (by decide)
      have hsecond : replaceRunes [.char '\\', .char '"'] (ofString "\\\\\\\"") 0
          (.char '\\' :: tail) =
            .char '\\' :: replaceRunes [.char '\\', .char '"'] (ofString "\\\\\\\"") 0 tail := by
        cases tail with
        | nil => rfl
        | cons r rest => exact replaceRunes_pair_of_ne fun heq => htail rfl (by rw [heq]; rfl)
      rw [hsecond] at hfirst
      exact hfirst
    · obtain hself | ⟨letter, rest, hescape, hletter, hnot, hrest⟩ := quoteRune_cases isPrint hquote hslash
      · rw [hself]
        exact replaceRunes_of_ne hslash
      · rw [hescape]
        exact replace_escape hletter hnot hrest

theorem head?_quoteRune (isPrint : Char → Bool) (r : Rune) (tail : Text) :
    (quoteRune isPrint r ++ tail).head? ≠ some (.char '"') := by
  by_cases hquote : r = .char '"'
  · simp [hquote, quoteRune, ofChars]
  · by_cases hslash : r = .char '\\'
    · simp [hslash, quoteRune, ofChars]
    · obtain hself | ⟨letter, rest, hescape, -⟩ := quoteRune_cases isPrint hquote hslash
      · simpa [hself] using hquote
      · simp [hescape]

theorem replace_quoted (isPrint : Char → Bool) (text : Text) {last : Rune} (hlast : last ≠ .char '\\')
    (tail : Text) :
    replaceRunes (ofString "\\\"") (ofString "\\\\\\\"") 0
        ((text ++ [last]).flatMap (quoteRune isPrint) ++ tail) =
      (text ++ [last]).flatMap (encodeRune isPrint) ++
        replaceRunes (ofString "\\\"") (ofString "\\\\\\\"") 0 tail := by
  induction text with
  | nil =>
      have hnot : last = .char '\\' → tail.head? ≠ some (.char '"') := fun heq => absurd heq hlast
      simpa using replace_quoteRune isPrint hnot
  | cons r rest ih =>
      have hhead : ((rest ++ [last]).flatMap (quoteRune isPrint) ++ tail).head? ≠ some (.char '"') := by
        cases rest with
        | nil =>
            rw [List.nil_append, List.flatMap_cons, List.append_assoc]
            exact head?_quoteRune isPrint last _
        | cons next rest =>
            rw [List.cons_append, List.flatMap_cons, List.append_assoc]
            exact head?_quoteRune isPrint next _
      simp only [List.cons_append, List.flatMap_cons, List.append_assoc] at ih hhead ⊢
      rw [replace_quoteRune isPrint fun _ => hhead, ih]

theorem marshal_obj (members : List (Text × Json)) :
    ∃ front, marshal (.obj members) = front ++ [.char '}'] :=
  ⟨render escapeRune ((.lbrace :: List.intercalate [.comma] (memberTokens members)).flatMap Token.symbols),
    by simp [marshal, render, Json.symbols, Json.tokens, Token.symbols, Symbol.render]⟩

/-- Between its quotes, the quoted JSON of an object is that of its characters. -/
theorem marshalGQLData_obj (isPrint : Char → Bool) (members : List (Text × Json)) :
    ((marshalGQLData isPrint (.obj members)).drop 1).dropLast =
      (marshal (.obj members)).flatMap (encodeRune isPrint) := by
  obtain ⟨front, hfront⟩ := marshal_obj members
  have hpair : ofString "\\\"" = [.char '\\', .char '"'] := by decide
  have hbrace : Rune.char '}' ≠ .char '\\' := by decide
  have hquoted := replace_quoted isPrint front hbrace [.char '"']
  have hlast : replaceRunes (ofString "\\\"") (ofString "\\\\\\\"") 0 [.char '"'] = [.char '"'] := by decide
  rw [hlast] at hquoted
  have hfirst : replaceRunes (ofString "\\\"") (ofString "\\\\\\\"") 0
      (quote isPrint (front ++ [.char '}'])) =
        .char '"' :: ((front ++ [Rune.char '}']).flatMap (encodeRune isPrint) ++ [.char '"']) := by
    rw [quote, ← hquoted, hpair]
    exact replaceRunes_of_ne (by decide)
  rw [marshalGQLData, replaceAll, hfront, hfirst, List.drop_one, List.tail_cons, List.dropLast_concat]

end LitmusPortal.Agent
