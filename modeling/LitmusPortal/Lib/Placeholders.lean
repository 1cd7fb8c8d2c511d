import LitmusPortal.Lib.GoStrings
import Mathlib.Logic.Function.Basic

/-!
# Placeholders in a text

A text is read once as its characters and its placeholders, and all placeholders are given their values together.
Replacing them one after the other comes to the same if a placeholder, when its turn comes, stands nowhere but where
the text itself has it.
-/

namespace Placeholders

open GoStrings

inductive Token where
  | char (c : Char)
  | mark (name : List Char)
  deriving DecidableEq, Repr

/-- `skip` counts the characters left of a placeholder that has been read. -/
def tokenize (marks : List (List Char)) : ℕ → List Char → List Token
  | _, [] => []
  | skip + 1, _ :: cs => tokenize marks skip cs
  | 0, c :: cs =>
      match marks.find? fun mark => mark.isPrefixOf (c :: cs) with
      | some mark => .mark mark :: tokenize marks (mark.length - 1) cs
      | none => .char c :: tokenize marks 0 cs

def Token.render (value : List Char → List Char) : Token → List Char
  | .char c => [c]
  | .mark name => value name

def render (value : List Char → List Char) (tokens : List Token) : List Char := tokens.flatMap (Token.render value)

/-- The values of the placeholders given so far; any other stands for itself. -/
def valueOf (pairs : List (List Char × List Char)) (mark : List Char) : List Char := (pairs.lookup mark).getD mark

/-- All placeholders at once. -/
def replaceTogether (pairs : List (List Char × List Char)) (text : List Char) : List Char :=
  render (valueOf pairs) (tokenize (pairs.map Prod.fst) 0 text)

/-- Wherever the placeholder stands in the text as it is now, it is one of the tokens. -/
def OwnOnly (value : List Char → List Char) (mark : List Char) (tokens : List Token) : Prop :=
  ∀ before after, render value tokens = before ++ (mark ++ after) →
    ∃ front back, tokens = front ++ .mark mark :: back ∧ before = render value front

/-- That no placeholder arises from the values put in before its turn, nor from their edges. -/
def Untangled (tokens : List Token) (value : List Char → List Char) : List (List Char × List Char) → Prop
  | [] => True
  | (mark, new) :: pairs => OwnOnly value mark tokens ∧ Untangled tokens (Function.update value mark new) pairs

section Replace

variable {mark new : List Char}

theorem replaceChars_skip (text rest : List Char) :
    replaceChars mark new text.length (text ++ rest) = replaceChars mark new 0 rest := by
  induction text with
  | nil => rfl
  | cons c text ih => exact ih

theorem replaceChars_mark_append (hmark : mark ≠ []) (rest : List Char) :
    replaceChars mark new 0 (mark ++ rest) = new ++ replaceChars mark new 0 rest := by
  cases mark with
  | nil => exact absurd rfl hmark
  | cons c cs =>
      have hleads : (c :: cs).isPrefixOf (c :: (cs ++ rest)) = true :=
        List.isPrefixOf_iff_prefix.mpr (List.prefix_append (c :: cs) rest)
      rw [List.cons_append, replaceChars, if_pos hleads, List.length_cons, Nat.add_sub_cancel, replaceChars_skip]

/-- A text in which the placeholder does not begin. -/
theorem replaceChars_append_of_none {text rest : List Char}
    (h : ∀ front back, text = front ++ back → back ≠ [] → ¬mark <+: back ++ rest) :
    replaceChars mark new 0 (text ++ rest) = text ++ replaceChars mark new 0 rest := by
  induction text with
  | nil => rfl
  | cons c text ih =>
      have hhead : ¬mark.isPrefixOf (c :: (text ++ rest)) = true := by
        rw [List.isPrefixOf_iff_prefix]
        exact h [] (c :: text) rfl (List.cons_ne_nil c text)
      rw [List.cons_append, replaceChars, if_neg hhead, ih, List.cons_append]
      intro front back htext hback
      exact h (c :: front) back (by rw [htext, List.cons_append]) hback

end Replace

theorem render_append (value : List Char → List Char) (front back : List Token) :
    render value (front ++ back) = render value front ++ render value back := List.flatMap_append

theorem render_cons (value : List Char → List Char) (token : Token) (tokens : List Token) :
    render value (token :: tokens) = token.render value ++ render value tokens := List.flatMap_cons

theorem render_congr {value value' : List Char → List Char} {tokens : List Token}
    (h : ∀ mark, Token.mark mark ∈ tokens → value mark = value' mark) : render value tokens = render value' tokens := by
  apply List.flatMap_congr
  intro token htoken
  cases token with
  | char c => rfl
  | mark mark => exact h mark htoken

theorem tokenize_skip (marks : List (List Char)) (text rest : List Char) :
    tokenize marks text.length (text ++ rest) = tokenize marks 0 rest := by
  induction text with
  | nil => rfl
  | cons c text ih => exact ih

/-- Placeholders that stand for themselves give the text back. -/
theorem render_tokenize {marks : List (List Char)} (hmarks : [] ∉ marks) (text : List Char) :
    render id (tokenize marks 0 text) = text := by
  induction hlength : text.length using Nat.strong_induction_on generalizing text with
  | _ n ih =>
      subst hlength
      cases text with
      | nil => rfl
      | cons c cs =>
          rw [tokenize]
          cases hfind : marks.find? fun mark => mark.isPrefixOf (c :: cs) with
          | none => rw [render_cons, ih cs.length (Nat.lt_succ_self _) cs rfl, Token.render, List.singleton_append]
          | some mark =>
              have hmem : mark ∈ marks := List.mem_of_find?_eq_some hfind
              obtain ⟨rest, hrest⟩ : mark <+: c :: cs := by
                simpa [List.isPrefixOf_iff_prefix] using List.find?_some hfind
              cases mark with
              | nil => exact absurd hmem hmarks
              | cons d mark =>
                  rw [List.cons_append, List.cons_eq_cons] at hrest
                  obtain ⟨rfl, rfl⟩ := hrest
                  have hlt : rest.length < (d :: (mark ++ rest)).length := by
                    rw [List.length_cons, List.length_append]
                    omega
                  rw [render_cons, List.length_cons, Nat.add_sub_cancel, tokenize_skip, ih rest.length hlt rest rfl]
                  rfl

/-- What holds of all tokens holds of those behind the first. -/
theorem OwnOnly.tail {value : List Char → List Char} {mark : List Char} {token : Token} {tokens : List Token}
    (hmark : mark ≠ []) (hself : value mark = mark) (h : OwnOnly value mark (token :: tokens)) :
    OwnOnly value mark tokens := by
  intro before after hrender
  have hwhole : render value (token :: tokens) = (token.render value ++ before) ++ (mark ++ after) := by
    rw [render_cons, hrender, List.append_assoc]
  obtain ⟨front, back, htokens, hbefore⟩ := h _ _ hwhole
  cases front with
  | nil =>
      -- the first token would be the placeholder, which is not empty
      obtain ⟨rfl, rfl⟩ := List.cons_eq_cons.mp htokens
      have hnil : mark = [] := by
        have hempty := (List.append_eq_nil_iff.mp hbefore).1
        rwa [Token.render, hself] at hempty
      exact absurd hnil hmark
  | cons first front =>
      obtain ⟨rfl, rfl⟩ := List.cons_eq_cons.mp htokens
      rw [render_cons] at hbefore
      exact ⟨front, back, rfl, List.append_cancel_left hbefore⟩

/-- A placeholder that stands only where the text has it is replaced there and nowhere else. -/
theorem replaceChars_render {value : List Char → List Char} {mark : List Char} (hmark : mark ≠ [])
    (hself : value mark = mark) (new : List Char) {tokens : List Token} (h : OwnOnly value mark tokens) :
    replaceChars mark new 0 (render value tokens) = render (Function.update value mark new) tokens := by
  induction tokens with
  | nil => rfl
  | cons token tokens ih =>
      have htail := ih (h.tail hmark hself)
      rw [render_cons, render_cons, ← htail]
      by_cases htoken : token = .mark mark
      · rw [htoken, Token.render, Token.render, hself, Function.update_self, replaceChars_mark_append hmark]
      · have hsame : token.render (Function.update value mark new) = token.render value := by
          cases token with
          | char c => rfl
          | mark other =>
              rw [Token.render, Token.render, Function.update_of_ne fun heq => htoken (congrArg Token.mark heq)]
        rw [hsame]
        apply replaceChars_append_of_none
        rintro front back hsplit hback ⟨after, hafter⟩
        have hwhole : render value (token :: tokens) = front ++ (mark ++ after) := by
          rw [render_cons, hsplit, List.append_assoc, hafter]
        obtain ⟨tokensFront, tokensBack, htokens, hfront⟩ := h _ _ hwhole
        cases tokensFront with
        | nil =>
            obtain ⟨rfl, rfl⟩ := List.cons_eq_cons.mp htokens
            exact htoken rfl
        | cons first tokensFront =>
            -- the placeholder would begin inside the first token, behind which the found one stands
            obtain ⟨rfl, rfl⟩ := List.cons_eq_cons.mp htokens
            rw [render_cons, hsplit] at hfront
            have hlength := congrArg List.length hfront
            rw [List.length_append, List.length_append] at hlength
            have hpos : 0 < back.length := List.length_pos_of_ne_nil hback
            omega

/-- One after the other, where every placeholder comes upon its own tokens only. -/
theorem foldl_replaceChars_render {tokens : List Token} {pairs : List (List Char × List Char)}
    {value : List Char → List Char} (hnodup : (pairs.map Prod.fst).Nodup) (hmarks : [] ∉ pairs.map Prod.fst)
    (hself : ∀ mark ∈ pairs.map Prod.fst, value mark = mark) (h : Untangled tokens value pairs) :
    pairs.foldl (fun text pair => replaceChars pair.1 pair.2 0 text) (render value tokens) =
      render (pairs.foldl (fun value pair => Function.update value pair.1 pair.2) value) tokens := by
  induction pairs generalizing value with
  | nil => rfl
  | cons pair pairs ih =>
      obtain ⟨mark, new⟩ := pair
      rw [List.map_cons, List.nodup_cons] at hnodup
      rw [List.map_cons, List.mem_cons, not_or] at hmarks
      rw [List.map_cons, List.forall_mem_cons] at hself
      obtain ⟨hown, hrest⟩ := h
      rw [List.foldl_cons, List.foldl_cons, replaceChars_render (Ne.symm hmarks.1) hself.1 new hown]
      refine ih hnodup.2 hmarks.2 (fun other hother => ?_) hrest
      have hne : other ≠ mark := by
        rintro rfl
        exact hnodup.1 hother
      rw [Function.update_of_ne hne]
      exact hself.2 other hother

theorem foldl_update_of_not_mem {pairs : List (List Char × List Char)} {mark : List Char}
    (h : mark ∉ pairs.map Prod.fst) (value : List Char → List Char) :
    pairs.foldl (fun value pair => Function.update value pair.1 pair.2) value mark = value mark := by
  induction pairs generalizing value with
  | nil => rfl
  | cons pair pairs ih =>
      rw [List.map_cons, List.mem_cons, not_or] at h
      rw [List.foldl_cons, ih h.2, Function.update_of_ne h.1]

theorem foldl_update_eq_valueOf {pairs : List (List Char × List Char)} (hnodup : (pairs.map Prod.fst).Nodup)
    (value : List Char → List Char) (mark : List Char) :
    pairs.foldl (fun value pair => Function.update value pair.1 pair.2) value mark =
      (pairs.lookup mark).getD (value mark) := by
  induction pairs generalizing value with
  | nil => rfl
  | cons pair pairs ih =>
      obtain ⟨first, new⟩ := pair
      rw [List.map_cons, List.nodup_cons] at hnodup
      rw [List.foldl_cons]
      by_cases heq : mark = first
      · rw [heq, foldl_update_of_not_mem hnodup.1, Function.update_self, List.lookup_cons_self, Option.getD_some]
      · rw [ih hnodup.2, Function.update_of_ne heq, List.lookup_cons, beq_eq_false_iff_ne.mpr heq]

/-- One after the other comes to the same as all at once. -/
theorem foldl_replaceChars_eq_render {marks : List (List Char)} {pairs : List (List Char × List Char)}
    (hmarks : [] ∉ marks) (hsubset : pairs.map Prod.fst ⊆ marks) (hnodup : (pairs.map Prod.fst).Nodup)
    {text : List Char} (h : Untangled (tokenize marks 0 text) id pairs) :
    pairs.foldl (fun text pair => replaceChars pair.1 pair.2 0 text) text =
      render (valueOf pairs) (tokenize marks 0 text) := by
  have hself : ∀ mark ∈ pairs.map Prod.fst, id mark = mark := fun _ _ => rfl
  have hfold := foldl_replaceChars_render hnodup (fun hnil => hmarks (hsubset hnil)) hself h
  rw [render_tokenize hmarks] at hfold
  rw [hfold]
  congr 1
  funext mark
  rw [foldl_update_eq_valueOf hnodup, valueOf, id_eq]

theorem mark_mem_of_tokenize {marks : List (List Char)} {mark : List Char} {skip : ℕ} {text : List Char}
    (h : Token.mark mark ∈ tokenize marks skip text) : mark ∈ marks := by
  induction text generalizing skip with
  | nil => cases skip <;> cases h
  | cons c cs ih =>
      cases skip with
      | succ skip => exact ih h
      | zero =>
          rw [tokenize] at h
          cases hfind : marks.find? fun mark => mark.isPrefixOf (c :: cs) with
          | none =>
              rw [hfind] at h
              exact ih ((List.mem_cons.mp h).resolve_left Token.noConfusion)
          | some found =>
              rw [hfind] at h
              rcases List.mem_cons.mp h with heq | htail
              · cases heq
                exact List.mem_of_find?_eq_some hfind
              · exact ih htail

/-! ### A character of the placeholders alone -/

section Free

variable {first : Char} {marks : List (List Char)} {value : List Char → List Char}

theorem split_of_not_mem {text rest before after : List Char} (hfree : first ∉ text)
    (h : text ++ rest = before ++ first :: after) :
    ∃ more, before = text ++ more ∧ rest = more ++ first :: after := by
  induction text generalizing before with
  | nil => exact ⟨before, rfl, h⟩
  | cons c text ih =>
      rw [List.mem_cons, not_or] at hfree
      cases before with
      | nil => exact absurd (List.cons_eq_cons.mp h).1.symm hfree.1
      | cons d before =>
          rw [List.cons_append, List.cons_append, List.cons_eq_cons] at h
          obtain ⟨more, rfl, hrest⟩ := ih hfree.2 h.2
          exact ⟨more, by rw [h.1, List.cons_append], hrest⟩

/-- Where the character that begins a placeholder stands nowhere else, no placeholder arises. -/
theorem ownOnly_of_free (hmarks : ∀ mark ∈ marks, ∃ name, mark = first :: name ∧ first ∉ name)
    (hleads : ∀ mark ∈ marks, ∀ other ∈ marks, mark <+: other → mark = other)
    (hvalue : ∀ mark ∈ marks, value mark = mark ∨ first ∉ value mark) {mark : List Char} (hmark : mark ∈ marks)
    {tokens : List Token} (hchars : .char first ∉ tokens) (htokens : ∀ other, .mark other ∈ tokens → other ∈ marks) :
    OwnOnly value mark tokens := by
  obtain ⟨name, rfl, hname⟩ := hmarks mark hmark
  intro before after hrender
  induction tokens generalizing before with
  | nil =>
      have hnil : before ++ ((first :: name) ++ after) = [] := hrender.symm
      rw [List.append_eq_nil_iff, List.cons_append] at hnil
      exact absurd hnil.2 (List.cons_ne_nil _ _)
  | cons token tokens ih =>
      have htail : ∀ more, before = token.render value ++ more → render value tokens = more ++ ((first :: name) ++ after) →
          ∃ front back, token :: tokens = front ++ .mark (first :: name) :: back ∧ before = render value front := by
        rintro more rfl hmore
        obtain ⟨front, back, rfl, rfl⟩ := ih (fun h => hchars (List.mem_cons_of_mem _ h))
          (fun other h => htokens other (List.mem_cons_of_mem _ h)) more hmore
        exact ⟨token :: front, back, rfl, (render_cons value token front).symm⟩
      rw [render_cons, List.cons_append] at hrender
      by_cases hfree : first ∈ token.render value
      · -- the token is a placeholder that has no value yet
        cases token with
        | char c => exact absurd (List.mem_singleton.mp hfree ▸ List.mem_cons_self) hchars
        | mark other =>
            have hother : other ∈ marks := htokens other List.mem_cons_self
            have hself : value other = other := (hvalue other hother).resolve_right fun hnot => hnot hfree
            obtain ⟨otherName, rfl, hotherName⟩ := hmarks other hother
            rw [Token.render, hself] at hrender htail
            cases before with
            | nil =>
                have hsame : first :: name = first :: otherName := by
                  rw [List.nil_append, ← List.cons_append] at hrender
                  rcases List.prefix_or_prefix_of_prefix (List.prefix_append (first :: otherName) (render value tokens))
                    (hrender ▸ List.prefix_append (first :: name) after) with h | h
                  · exact (hleads _ hother _ hmark h).symm
                  · exact hleads _ hmark _ hother h
                exact ⟨[], tokens, by rw [hsame]; rfl, rfl⟩
            | cons d before =>
                rw [List.cons_append, List.cons_append, List.cons_eq_cons] at hrender
                obtain ⟨more, rfl, hmore⟩ := split_of_not_mem hotherName hrender.2
                exact htail more (by rw [← hrender.1, List.cons_append]) hmore
      · obtain ⟨more, hbefore, hmore⟩ := split_of_not_mem hfree hrender
        exact htail more hbefore hmore

theorem untangled_of_free (hmarks : ∀ mark ∈ marks, ∃ name, mark = first :: name ∧ first ∉ name)
    (hleads : ∀ mark ∈ marks, ∀ other ∈ marks, mark <+: other → mark = other)
    {tokens : List Token} (hchars : .char first ∉ tokens) (htokens : ∀ other, .mark other ∈ tokens → other ∈ marks)
    {pairs : List (List Char × List Char)} (hpairs : ∀ pair ∈ pairs, pair.1 ∈ marks ∧ first ∉ pair.2)
    (hvalue : ∀ mark ∈ marks, value mark = mark ∨ first ∉ value mark) : Untangled tokens value pairs := by
  induction pairs generalizing value with
  | nil => trivial
  | cons pair pairs ih =>
      obtain ⟨mark, new⟩ := pair
      rw [List.forall_mem_cons] at hpairs
      refine ⟨ownOnly_of_free hmarks hleads hvalue hpairs.1.1 hchars htokens, ih hpairs.2 fun other hother => ?_⟩
      by_cases heq : other = mark
      · rw [heq, Function.update_self]
        exact .inr hpairs.1.2
      · rw [Function.update_of_ne heq]
        exact hvalue other hother

end Free

end Placeholders
