import LitmusPortal.Lib.Json.Syntax
import LitmusPortal.Lib.Transition

/-!
# Reading JSON

A machine that goes over the tokens with a stack of the arrays and objects that are open. It accepts
the tokens of a value and nothing else: each state stands for the tokens that lead to it.
-/

namespace GoJson

open GoText

/-- The items of an open array, or the members of an open object and the key of the next one; the last
one first. -/
inductive Frame where
  | arr (items : List Json)
  | member (members : List (Text × Json)) (key : Text)

inductive Expect where
  | value
  /-- The first item of an array, or its end. -/
  | firstItem
  /-- The first key of an object, or its end. -/
  | firstKey
  | key (members : List (Text × Json))
  | colon (members : List (Text × Json)) (key : Text)
  /-- What comes after a value. -/
  | after (j : Json)

structure ParseState where
  frames : List Frame
  expect : Expect

def startValue (frames : List Frame) : Token → Option ParseState
  | .lit l => some ⟨frames, .after (.lit l)⟩
  | .str s => some ⟨frames, .after (.str s)⟩
  | .lbrack => some ⟨frames, .firstItem⟩
  | .lbrace => some ⟨frames, .firstKey⟩
  | _ => none

def afterValue (j : Json) : List Frame → Token → Option ParseState
  | .arr items :: frames, .comma => some ⟨.arr (j :: items) :: frames, .value⟩
  | .arr items :: frames, .rbrack => some ⟨frames, .after (.arr (j :: items).reverse)⟩
  | .member members key :: frames, .comma => some ⟨frames, .key ((key, j) :: members)⟩
  | .member members key :: frames, .rbrace => some ⟨frames, .after (.obj ((key, j) :: members).reverse)⟩
  | _, _ => none

def parseStep (state : ParseState) (token : Token) : Option ParseState :=
  match state.expect, token with
  | .value, token => startValue state.frames token
  | .firstItem, .rbrack => some ⟨state.frames, .after (.arr [])⟩
  | .firstItem, token => startValue (.arr [] :: state.frames) token
  | .firstKey, .rbrace => some ⟨state.frames, .after (.obj [])⟩
  | .firstKey, .str key => some ⟨state.frames, .colon [] key⟩
  | .key members, .str key => some ⟨state.frames, .colon members key⟩
  | .colon members key, .colon => some ⟨.member members key :: state.frames, .value⟩
  | .after j, token => afterValue j state.frames token
  | _, _ => none

def ParseState.result : ParseState → Option Json
  | ⟨[], .after j⟩ => some j
  | _ => none

def parseTokens (tokens : List Token) : Option Json :=
  (Transition.run parseStep ⟨[], .value⟩ tokens).bind ParseState.result

/-! ## Everything that is written is read -/

/-- The tokens of items that have a comma after each of them. -/
def itemsRead (items : List Json) : List Token := items.flatMap fun item => item.tokens ++ [.comma]

def membersRead (members : List (Text × Json)) : List Token :=
  members.flatMap fun member => .str member.1 :: .colon :: (member.2.tokens ++ [.comma])

theorem intercalate_append_singleton {α : Type*} (separator last : List α) (lists : List (List α)) :
    List.intercalate separator (lists ++ [last]) = lists.flatMap (· ++ separator) ++ last := by
  induction lists with
  | nil => simp [List.intercalate]
  | cons first rest ih =>
      cases rest with
      | nil => simp [List.intercalate]
      | cons second rest => simpa [List.intercalate] using ih

theorem tokens_arr_append (items : List Json) (last : Json) :
    (Json.arr (items ++ [last])).tokens = .lbrack :: (itemsRead items ++ last.tokens ++ [.rbrack]) := by
  simp [Json.tokens, itemTokens_eq_map, intercalate_append_singleton, itemsRead, List.flatMap_map]

theorem tokens_obj_append (members : List (Text × Json)) (key : Text) (last : Json) :
    (Json.obj (members ++ [(key, last)])).tokens =
      .lbrace :: (membersRead members ++ .str key :: .colon :: (last.tokens ++ [.rbrace])) := by
  simp [Json.tokens, memberTokens_eq_map, intercalate_append_singleton, membersRead, List.flatMap_map]

theorem tokens_arr_nil : (Json.arr []).tokens = [.lbrack, .rbrack] := rfl

theorem tokens_obj_nil : (Json.obj []).tokens = [.lbrace, .rbrace] := rfl

/-- Where a value is expected, its tokens are read as the value. -/
def Reads (j : Json) : Prop :=
  ∀ frames, Transition.run parseStep ⟨frames, .value⟩ j.tokens = some ⟨frames, .after j⟩

theorem run_itemsRead {items : List Json} (h : ∀ item ∈ items, Reads item) (done : List Json)
    (frames : List Frame) :
    Transition.run parseStep ⟨.arr done :: frames, .value⟩ (itemsRead items) =
      some ⟨.arr (items.reverse ++ done) :: frames, .value⟩ := by
  induction items generalizing done with
  | nil => rfl
  | cons item rest ih =>
      have hitem := h item (by simp) (.arr done :: frames)
      have hrest := ih (fun item hitem => h item (by simp [hitem])) (item :: done)
      simp only [itemsRead, List.flatMap_cons, Transition.run_append, hitem, Option.bind_some] at hrest ⊢
      simpa [parseStep, afterValue] using hrest

theorem run_membersRead {members : List (Text × Json)} (h : ∀ key value, (key, value) ∈ members →
    Reads value) (done : List (Text × Json)) (frames : List Frame) :
    Transition.run parseStep ⟨frames, .key done⟩ (membersRead members) =
      some ⟨frames, .key (members.reverse ++ done)⟩ := by
  induction members generalizing done with
  | nil => rfl
  | cons member rest ih =>
      obtain ⟨key, value⟩ := member
      have hvalue := h key value (by simp) (.member done key :: frames)
      have hrest := ih (fun key value hmember => h key value (by simp [hmember])) ((key, value) :: done)
      simp only [membersRead, List.flatMap_cons, List.cons_append, Transition.run_cons, parseStep,
        Option.bind_some, Transition.run_append, hvalue] at hrest ⊢
      simpa [parseStep, afterValue] using hrest

/-- The first item is read where the array may also end, and the first key likewise. -/
theorem run_firstItem {tokens : List Token} {frames : List Frame} {state : ParseState}
    (h : Transition.run parseStep ⟨.arr [] :: frames, .value⟩ tokens = some state)
    (hne : tokens ≠ []) : Transition.run parseStep ⟨frames, .firstItem⟩ tokens = some state := by
  cases tokens with
  | nil => exact absurd rfl hne
  | cons token rest =>
      rw [Transition.run_cons] at h ⊢
      have hsame : token ≠ .rbrack →
          parseStep ⟨frames, .firstItem⟩ token = parseStep ⟨.arr [] :: frames, .value⟩ token := by
        intro hnot
        cases token <;> first | rfl | exact absurd rfl hnot
      rw [hsame]
      · exact h
      · rintro rfl
        simp [parseStep, startValue] at h

theorem run_firstKey {tokens : List Token} {frames : List Frame} {state : ParseState}
    (h : Transition.run parseStep ⟨frames, .key []⟩ tokens = some state) (hne : tokens ≠ []) :
    Transition.run parseStep ⟨frames, .firstKey⟩ tokens = some state := by
  cases tokens with
  | nil => exact absurd rfl hne
  | cons token rest =>
      cases token with
      | str key => exact h
      | _ => simp [parseStep] at h

theorem reads (j : Json) : Reads j := by
  induction j using Json.induct with
  | lit l => exact fun frames => rfl
  | str s => exact fun frames => rfl
  | arr items ih =>
      intro frames
      induction items using List.reverseRecOn with
      | nil => rfl
      | append_singleton items last _ =>
          have hreads : ∀ item ∈ items, Reads item := fun item hitem => ih item (by simp [hitem])
          have hitems := run_itemsRead hreads [] frames
          have hlast := ih last (by simp) (.arr items.reverse :: frames)
          have hbody : Transition.run parseStep ⟨.arr [] :: frames, .value⟩
              (itemsRead items ++ last.tokens ++ [.rbrack]) =
                some ⟨frames, .after (.arr (items ++ [last]))⟩ := by
            rw [List.append_nil] at hitems
            simp [Transition.run_append, hitems, hlast, parseStep, afterValue]
          rw [tokens_arr_append]
          exact run_firstItem hbody (by simp)
  | obj members ih =>
      intro frames
      induction members using List.reverseRecOn with
      | nil => rfl
      | append_singleton members last _ =>
          obtain ⟨key, last⟩ := last
          have hreads : ∀ key value, (key, value) ∈ members → Reads value :=
            fun key value hmember => ih key value (by simp [hmember])
          have hmembers := run_membersRead hreads [] frames
          have hlast := ih key last (by simp) (.member members.reverse key :: frames)
          have hbody : Transition.run parseStep ⟨frames, .key []⟩
              (membersRead members ++ .str key :: .colon :: (last.tokens ++ [.rbrace])) =
                some ⟨frames, .after (.obj (members ++ [(key, last)]))⟩ := by
            rw [List.append_nil] at hmembers
            simp only [Transition.run_append, hmembers, Option.bind_some, Transition.run_cons,
              parseStep, hlast]
            simp [afterValue]
          rw [tokens_obj_append]
          exact run_firstKey hbody (by simp)

/-! ## Nothing else is read -/

def Frame.read : Frame → List Token
  | .arr items => .lbrack :: itemsRead items.reverse
  | .member members key => .lbrace :: (membersRead members.reverse ++ [.str key, .colon])

def Expect.read : Expect → List Token
  | .value => []
  | .firstItem => [.lbrack]
  | .firstKey => [.lbrace]
  | .key members => .lbrace :: membersRead members.reverse
  | .colon members name => .lbrace :: (membersRead members.reverse ++ [.str name])
  | .after j => j.tokens

/-- The tokens that lead to a state. -/
def ParseState.read (state : ParseState) : List Token :=
  state.frames.reverse.flatMap Frame.read ++ state.expect.read

theorem itemsRead_append (items : List Json) (item : Json) :
    itemsRead (items ++ [item]) = itemsRead items ++ item.tokens ++ [.comma] := by
  simp [itemsRead]

theorem membersRead_append (members : List (Text × Json)) (key : Text) (value : Json) :
    membersRead (members ++ [(key, value)]) =
      membersRead members ++ .str key :: .colon :: (value.tokens ++ [.comma]) := by
  simp [membersRead]

theorem read_startValue {frames : List Frame} {token : Token} {state : ParseState}
    (h : startValue frames token = some state) :
    state.read = frames.reverse.flatMap Frame.read ++ [token] := by
  cases token with
  | lit l | str s | lbrack | lbrace =>
      obtain rfl := Option.some.inj h
      rfl
  | rbrace | rbrack | colon | comma => cases h

theorem read_afterValue {j : Json} {frames : List Frame} {token : Token} {state : ParseState}
    (h : afterValue j frames token = some state) :
    state.read = frames.reverse.flatMap Frame.read ++ j.tokens ++ [token] := by
  unfold afterValue at h
  split at h
  · obtain rfl := Option.some.inj h
    simp [ParseState.read, Frame.read, Expect.read, itemsRead_append]
  · obtain rfl := Option.some.inj h
    simp [ParseState.read, Frame.read, Expect.read, tokens_arr_append]
  · obtain rfl := Option.some.inj h
    simp [ParseState.read, Frame.read, Expect.read, membersRead_append]
  · obtain rfl := Option.some.inj h
    simp [ParseState.read, Frame.read, Expect.read, tokens_obj_append]
  · cases h

theorem read_parseStep {state next : ParseState} {token : Token}
    (h : parseStep state token = some next) : next.read = state.read ++ [token] := by
  obtain ⟨frames, expect⟩ := state
  unfold parseStep at h
  split at h
  · rename_i hexpect
    obtain rfl : expect = .value := hexpect
    simpa [ParseState.read, Expect.read] using read_startValue h
  · rename_i hexpect
    obtain rfl : expect = .firstItem := hexpect
    obtain rfl := Option.some.inj h
    simp [ParseState.read, Expect.read, tokens_arr_nil]
  · rename_i hexpect _
    obtain rfl : expect = .firstItem := hexpect
    simpa [ParseState.read, Expect.read, Frame.read, itemsRead] using read_startValue h
  · rename_i hexpect
    obtain rfl : expect = .firstKey := hexpect
    obtain rfl := Option.some.inj h
    simp [ParseState.read, Expect.read, tokens_obj_nil]
  · rename_i hexpect
    obtain rfl : expect = .firstKey := hexpect
    obtain rfl := Option.some.inj h
    simp [ParseState.read, Expect.read, membersRead]
  · rename_i members key hexpect
    obtain rfl : expect = .key members := hexpect
    obtain rfl := Option.some.inj h
    simp [ParseState.read, Expect.read]
  · rename_i members key hexpect
    obtain rfl : expect = .colon members key := hexpect
    obtain rfl := Option.some.inj h
    simp [ParseState.read, Expect.read, Frame.read]
  · rename_i j hexpect
    obtain rfl : expect = .after j := hexpect
    simpa [ParseState.read, Expect.read] using read_afterValue h
  · cases h

/-- The parser accepts the tokens of a value, as this value, and nothing else. -/
theorem parseTokens_eq_some_iff {tokens : List Token} {j : Json} :
    parseTokens tokens = some j ↔ tokens = j.tokens := by
  constructor
  · intro h
    obtain ⟨state, hrun, hresult⟩ := Option.bind_eq_some_iff.mp h
    have hread : ∀ (tokens : List Token) (before after : ParseState),
        Transition.run parseStep before tokens = some after → after.read = before.read ++ tokens := by
      intro tokens
      induction tokens with
      | nil =>
          intro before after hrun
          obtain rfl := Option.some.inj hrun
          simp
      | cons token rest ih =>
          intro before after hrun
          obtain ⟨next, hstep, hrest⟩ := Option.bind_eq_some_iff.mp hrun
          rw [ih next after hrest, read_parseStep hstep]
          simp
    obtain ⟨frames, expect⟩ := state
    have hafter : frames = [] ∧ expect = .after j := by
      unfold ParseState.result at hresult
      split at hresult
      · rename_i heq
        obtain ⟨rfl, rfl⟩ := ParseState.mk.inj heq
        exact ⟨rfl, congrArg _ (Option.some.inj hresult)⟩
      · cases hresult
    obtain ⟨rfl, rfl⟩ := hafter
    exact (hread tokens _ _ hrun).symm
  · rintro rfl
    simp [parseTokens, reads j [], ParseState.result]

end GoJson
