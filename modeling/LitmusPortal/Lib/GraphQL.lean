import LitmusPortal.Lib.GoText
import LitmusPortal.Lib.Transition

/-!
# GraphQL documents

The operations of the query language, without numbers, block strings, variable definitions, directives
and fragments. A machine finds the tokens; what it has found before does not change what it does.
-/

namespace GraphQL

open GoText

inductive Token where
  | punct (c : Char)
  | name (s : String)
  | string (s : Text)
  deriving DecidableEq, Repr

/-! ## Tokens -/

/-- What was read last comes first. -/
inductive Mode where
  | idle
  | comment
  | name (read : List Char)
  | str (read : Text)
  /-- After two quotes, which a third one would make a block string. -/
  | quotes
  | escape (read : Text)
  /-- After some of the four digits of an escape, with the number they make. -/
  | hex (read : Text) (digits value : Nat)
  deriving DecidableEq

structure LexState where
  tokens : List Token
  mode : Mode
  deriving DecidableEq

def isNameStart (c : Char) : Bool := ('a' ≤ c ∧ c ≤ 'z') ∨ ('A' ≤ c ∧ c ≤ 'Z') ∨ c = '_'

def isNameChar (c : Char) : Bool := isNameStart c ∨ ('0' ≤ c ∧ c ≤ '9')

/-- Spaces, line ends and commas mean nothing between tokens. -/
def isIgnored (c : Char) : Bool := c ∈ [' ', '\t', '\n', '\r', ',', '\uFEFF']

def isPunct (c : Char) : Bool := c ∈ ['!', '$', '(', ')', ':', '=', '@', '[', ']', '{', '|', '}', '&']

def isLineEnd (c : Char) : Bool := c ∈ ['\n', '\r']

def lexIdle (tokens : List Token) (c : Char) : Option LexState :=
  if isIgnored c then some ⟨tokens, .idle⟩
  else if isPunct c then some ⟨.punct c :: tokens, .idle⟩
  else if isNameStart c then some ⟨tokens, .name [c]⟩
  else if c = '"' then some ⟨tokens, .str []⟩
  else if c = '#' then some ⟨tokens, .comment⟩
  else none

def lexStr (tokens : List Token) (read : Text) (c : Char) : Option LexState :=
  if c = '"' then some (if read = [] then ⟨tokens, .quotes⟩ else ⟨.string read.reverse :: tokens, .idle⟩)
  else if c = '\\' then some ⟨tokens, .escape read⟩
  else if c < ' ' ∧ c ≠ '\t' then none
  else some ⟨tokens, .str (.char c :: read)⟩

def lexStep (state : LexState) : Rune → Option LexState
  | .invalid _ => none
  | .char c =>
      match state.mode with
      | .idle => lexIdle state.tokens c
      | .comment => some ⟨state.tokens, if isLineEnd c then .idle else .comment⟩
      | .name read =>
          if isNameChar c then some ⟨state.tokens, .name (c :: read)⟩
          else lexIdle (.name (String.ofList read.reverse) :: state.tokens) c
      | .str read => lexStr state.tokens read c
      | .quotes => if c = '"' then none else lexIdle (.string [] :: state.tokens) c
      | .escape read =>
          if c = 'u' then some ⟨state.tokens, .hex read 0 0⟩
          else (unescape c).map fun c => ⟨state.tokens, .str (.char c :: read)⟩
      | .hex read digits value =>
          (hexValue c).map fun digit =>
            if digits = 3 then ⟨state.tokens, .str (.char (ofCodePoint (16 * value + digit)) :: read)⟩
            else ⟨state.tokens, .hex read (digits + 1) (16 * value + digit)⟩

def LexState.finish : LexState → Option (List Token)
  | ⟨tokens, .idle⟩ | ⟨tokens, .comment⟩ => some tokens.reverse
  | ⟨tokens, .name read⟩ => some (.name (String.ofList read.reverse) :: tokens).reverse
  | ⟨tokens, .quotes⟩ => some (.string [] :: tokens).reverse
  | _ => none

def lex (text : Text) : Option (List Token) :=
  (Transition.run lexStep ⟨[], .idle⟩ text).bind LexState.finish

def LexState.after (found : List Token) (state : LexState) : LexState :=
  ⟨state.tokens ++ found, state.mode⟩

theorem lexIdle_after (found tokens : List Token) (c : Char) :
    lexIdle (tokens ++ found) c = (lexIdle tokens c).map (.after found) := by
  unfold lexIdle
  split_ifs <;> rfl

theorem lexStep_after (found : List Token) (state : LexState) (r : Rune) :
    lexStep (state.after found) r = (lexStep state r).map (.after found) := by
  cases r with
  | invalid byte => rfl
  | char c =>
      obtain ⟨tokens, mode⟩ := state
      cases mode with
      | idle => exact lexIdle_after found tokens c
      | comment => rfl
      | name read =>
          simp only [lexStep, LexState.after]
          split_ifs
          · rfl
          · exact lexIdle_after found (.name (String.ofList read.reverse) :: tokens) c
      | str read =>
          simp only [lexStep, LexState.after, lexStr]
          split_ifs <;> rfl
      | quotes =>
          simp only [lexStep, LexState.after]
          split_ifs
          · rfl
          · exact lexIdle_after found (.string [] :: tokens) c
      | escape read =>
          simp only [lexStep, LexState.after]
          split_ifs
          · rfl
          · cases unescape c <;> rfl
      | hex read digits value =>
          simp only [lexStep, LexState.after]
          cases hexValue c with
          | none => rfl
          | some digit =>
              simp only [Option.map_some]
              split_ifs <;> rfl

theorem run_after (found : List Token) (state : LexState) (text : Text) :
    Transition.run lexStep (state.after found) text =
      (Transition.run lexStep state text).map (.after found) := by
  induction text generalizing state with
  | nil => rfl
  | cons r rest ih =>
      rw [Transition.run_cons, Transition.run_cons, lexStep_after]
      cases lexStep state r with
      | none => rfl
      | some next => exact ih next

theorem run_quote {c : Char} (hc : c ≠ '"') (tokens : List Token) (read rest : Text) :
    Transition.run lexStep ⟨tokens, .str read⟩ (.char '"' :: .char c :: rest) =
      Transition.run lexStep ⟨.string read.reverse :: tokens, .idle⟩ (.char c :: rest) := by
  cases read with
  | nil => simp [lexStep, lexStr, hc]
  | cons r read => simp [lexStep, lexStr]

theorem run_quote_of_ne_nil {read : Text} (h : read ≠ []) (tokens : List Token) (rest : Text) :
    Transition.run lexStep ⟨tokens, .str read⟩ (.char '"' :: rest) =
      Transition.run lexStep ⟨.string read.reverse :: tokens, .idle⟩ rest := by
  simp [lexStep, lexStr, h]

theorem run_shown {text : Text} (h : ∀ r ∈ text, ∃ c, r = .char c ∧ c ≠ '"' ∧ c ≠ '\\' ∧ ' ' ≤ c)
    (tokens : List Token) (read : Text) :
    Transition.run lexStep ⟨tokens, .str read⟩ text = some ⟨tokens, .str (text.reverse ++ read)⟩ := by
  induction text generalizing read with
  | nil => rfl
  | cons r rest ih =>
      obtain ⟨c, rfl, hquote, hslash, hspace⟩ := h r (by simp)
      have hnot : ¬ c < ' ' := Char.not_lt.mpr hspace
      have hrest := ih (fun r hr => h r (by simp [hr])) (.char c :: read)
      simpa [lexStep, lexStr, hquote, hslash, hnot] using hrest

theorem run_unicode (tokens : List Token) (read : Text) {n : Nat} (h : n < 0x10000) :
    Transition.run lexStep ⟨tokens, .str read⟩ (ofChars ('\\' :: 'u' :: hexDigits 4 n)) =
      some ⟨tokens, .str (.char (ofCodePoint n) :: read)⟩ := by
  have hdigit : ∀ k, hexValue (hexDigit (k % 16)) = some (k % 16) :=
    fun k => hexValue_hexDigit (Nat.mod_lt _ (by decide))
  simp [hexDigits, ofChars, lexStep, lexStr, hdigit, hexDigits_sum h]

/-! ## Documents -/

inductive Value where
  | variable (name : String)
  | string (s : Text)
  | boolean (b : Bool)
  | null
  | enum (name : String)
  | list (items : List Value)
  | object (fields : List (String × Value))

def nameValue (name : String) : Value :=
  if name = "true" then .boolean true
  else if name = "false" then .boolean false
  else if name = "null" then .null
  else .enum name

inductive Selection where
  | field (alias' : Option String) (name : String) (arguments : List (String × Value))
      (selections : List Selection)

inductive OperationType where
  | query
  | mutation
  | subscription
  deriving DecidableEq, Repr

structure Operation where
  type : OperationType
  name : Option String
  selections : List Selection

mutual

def parseValue : Nat → List Token → Option (Value × List Token)
  | _ + 1, .string s :: rest => some (.string s, rest)
  | _ + 1, .name name :: rest => some (nameValue name, rest)
  | _ + 1, .punct '$' :: .name name :: rest => some (.variable name, rest)
  | fuel + 1, .punct '[' :: rest => do
      let (items, rest) ← parseItems fuel rest
      return (.list items, rest)
  | fuel + 1, .punct '{' :: rest => do
      let (fields, rest) ← parseFields '}' fuel rest
      return (.object fields, rest)
  | _, _ => none

def parseItems : Nat → List Token → Option (List Value × List Token)
  | _ + 1, .punct ']' :: rest => some ([], rest)
  | fuel + 1, rest => do
      let (item, rest) ← parseValue fuel rest
      let (items, rest) ← parseItems fuel rest
      return (item :: items, rest)
  | 0, _ => none

/-- Names with their values, up to the closing mark. -/
def parseFields (close : Char) : Nat → List Token → Option (List (String × Value) × List Token)
  | fuel + 1, .name name :: .punct ':' :: rest => do
      let (value, rest) ← parseValue fuel rest
      let (fields, rest) ← parseFields close fuel rest
      return ((name, value) :: fields, rest)
  | _ + 1, .punct c :: rest => if c = close then some ([], rest) else none
  | _, _ => none

end

/-- The arguments of a field, which are not empty where there are parentheses. -/
def parseArguments (fuel : Nat) : List Token → Option (List (String × Value) × List Token)
  | .punct '(' :: rest => do
      let (arguments, rest) ← parseFields ')' fuel rest
      if arguments.isEmpty then none else return (arguments, rest)
  | rest => some ([], rest)

def parseName : List Token → Option ((Option String × String) × List Token)
  | .name alias' :: .punct ':' :: .name name :: rest => some ((some alias', name), rest)
  | .name name :: rest => some ((none, name), rest)
  | _ => none

mutual

def parseSelection : Nat → List Token → Option (Selection × List Token)
  | fuel + 1, rest => do
      let ((alias', name), rest) ← parseName rest
      let (arguments, rest) ← parseArguments fuel rest
      let (selections, rest) ← parseSelectionSet fuel rest
      return (.field alias' name arguments selections, rest)
  | 0, _ => none

/-- The selections of a field, which are not empty where there are braces. -/
def parseSelectionSet : Nat → List Token → Option (List Selection × List Token)
  | fuel + 1, .punct '{' :: rest => do
      let (selection, rest) ← parseSelection fuel rest
      let (selections, rest) ← parseSelections fuel rest
      return (selection :: selections, rest)
  | _, rest => some ([], rest)

def parseSelections : Nat → List Token → Option (List Selection × List Token)
  | _ + 1, .punct '}' :: rest => some ([], rest)
  | fuel + 1, rest => do
      let (selection, rest) ← parseSelection fuel rest
      let (selections, rest) ← parseSelections fuel rest
      return (selection :: selections, rest)
  | 0, _ => none

end

def operationType : String → Option OperationType
  | "query" => some .query
  | "mutation" => some .mutation
  | "subscription" => some .subscription
  | _ => none

def parseHead : List Token → Option ((OperationType × Option String) × List Token)
  | .punct '{' :: rest => some ((.query, none), .punct '{' :: rest)
  | .name type :: .name name :: rest => do
      let type ← operationType type
      return ((type, some name), rest)
  | .name type :: rest => do
      let type ← operationType type
      return ((type, none), rest)
  | _ => none

/-- No value is nested deeper than the document has tokens. -/
def parseTokens (tokens : List Token) : Option Operation := do
  let ((type, name), rest) ← parseHead tokens
  let (selections, rest) ← parseSelectionSet tokens.length rest
  if selections.isEmpty ∨ !rest.isEmpty then none else return ⟨type, name, selections⟩

def parse (text : Text) : Option Operation := (lex text).bind parseTokens

end GraphQL
