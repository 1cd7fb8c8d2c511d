import LitmusPortal.Frontend.QueryLabels

/-!
# Edits of the labels of a query

A query without labels is a text, and one with labels has them between brackets, behind one another with commas in
between. The labels that are written come to be the labels of the query where no search goes astray, that is, where
neither the name of a label nor the values it had come up before their own place. What is read of them is all but the
last: its closing quote is taken for the bracket, unless a comma stands behind it or it is the only one.
-/

namespace LitmusPortal.PromUtils

/-! ## First matches -/

section Infix

variable {α : Type} {pattern front back : List α} {c : α}

/-- A pattern without a character does not reach across it. -/
theorem prefix_append_cons_iff (hc : c ∉ pattern) : pattern <+: front ++ c :: back ↔ pattern <+: front := by
  refine ⟨fun h => ?_, fun h => h.trans (List.prefix_append _ _)⟩
  induction front generalizing pattern with
  | nil =>
      cases pattern with
      | nil => exact List.prefix_refl _
      | cons head tail =>
          obtain ⟨rfl, -⟩ := List.cons_prefix_cons.mp h
          exact absurd List.mem_cons_self hc
  | cons first rest ih =>
      cases pattern with
      | nil => exact List.nil_prefix
      | cons head tail =>
          obtain ⟨rfl, htail⟩ := List.cons_prefix_cons.mp h
          exact List.cons_prefix_cons.mpr ⟨rfl, ih (fun hmem => hc (List.mem_cons_of_mem _ hmem)) htail⟩

theorem infix_append_cons_iff (hc : c ∉ pattern) :
    pattern <:+: front ++ c :: back ↔ pattern <:+: front ∨ pattern <:+: back := by
  induction front with
  | nil =>
      rw [List.nil_append, List.infix_cons_iff, List.infix_nil]
      refine or_congr_left ⟨fun h => ?_, fun h => h ▸ List.nil_prefix⟩
      exact List.prefix_nil.mp ((@prefix_append_cons_iff _ _ [] _ _ hc).mp h)
  | cons first rest ih =>
      rw [List.cons_append, List.infix_cons_iff, List.infix_cons_iff, ih, ← List.cons_append,
        prefix_append_cons_iff hc, or_assoc]

theorem infix_intercalate_iff {texts : List (List α)} (hc : c ∉ pattern) (hpattern : pattern ≠ []) :
    pattern <:+: [c].intercalate texts ↔ ∃ text ∈ texts, pattern <:+: text := by
  induction texts with
  | nil => simp [hpattern]
  | cons text texts ih =>
      cases texts with
      | nil => simp
      | cons next texts =>
          rw [List.intercalate_cons_cons, List.append_assoc, List.singleton_append, infix_append_cons_iff hc, ih]
          simp only [List.mem_cons, exists_eq_or_imp]

theorem mem_intercalate {texts : List (List α)} {d : α} (h : c ∈ [d].intercalate texts) :
    (∃ text ∈ texts, c ∈ text) ∨ c = d := by
  induction texts with
  | nil => exact absurd h List.not_mem_nil
  | cons text texts ih =>
      cases texts with
      | nil =>
          rw [List.intercalate_singleton] at h
          exact .inl ⟨text, List.mem_cons_self, h⟩
      | cons next texts =>
          rw [List.intercalate_cons_cons, List.mem_append, List.mem_append, List.mem_singleton] at h
          rcases h with (htext | hsep) | hrest
          · exact .inl ⟨text, List.mem_cons_self, htext⟩
          · exact .inr hsep
          · exact (ih hrest).imp_left fun ⟨other, hother, hmem⟩ => ⟨other, List.mem_cons_of_mem _ hother, hmem⟩

/-- A pattern that needs a character of its own is in no text without it. -/
theorem not_infix_of_notMem {d : α} (hd : d ∈ pattern) (hfront : d ∉ front) : ¬ pattern <:+: front :=
  fun h => hfront (h.subset hd)

end Infix

section IndexOf

variable {pattern front back new : Text} {c : Char}

theorem indexOf_eq_zero (h : pattern <+: back) : indexOf pattern back = some 0 := by
  cases back with
  | nil =>
      obtain rfl := List.prefix_nil.mp h
      rfl
  | cons head tail =>
      rw [indexOf, if_pos (List.isPrefixOf_iff_prefix.mpr h)]

theorem indexOf_cons (h : ¬ pattern <+: c :: back) :
    indexOf pattern (c :: back) = (indexOf pattern back).map (· + 1) := by
  rw [indexOf, if_neg fun hstarts => h (List.isPrefixOf_iff_prefix.mp hstarts)]

theorem indexOf_eq_none (h : ¬ pattern <:+: back) : indexOf pattern back = none := by
  induction back with
  | nil =>
      rw [indexOf, if_neg]
      exact fun hpattern => h (hpattern ▸ List.nil_infix)
  | cons head tail ih =>
      rw [List.infix_cons_iff, not_or] at h
      rw [indexOf_cons h.1, ih h.2]
      rfl

/-- A text without the pattern, and a character that the pattern does not have, are passed over. -/
theorem indexOf_append_cons (hc : c ∉ pattern) (h : ¬ pattern <:+: front) :
    indexOf pattern (front ++ c :: back) = (indexOf pattern back).map (front.length + 1 + ·) := by
  induction front with
  | nil =>
      rw [List.nil_append, indexOf_cons]
      · exact congrArg (Option.map · _) (funext fun n => Nat.add_comm _ _)
      · exact fun hstarts => h ((@prefix_append_cons_iff _ _ [] _ _ hc).mp hstarts).isInfix
  | cons first rest ih =>
      rw [List.infix_cons_iff, not_or] at h
      rw [List.cons_append, indexOf_cons, ih h.2, Option.map_map]
      · refine congrArg (Option.map · _) (funext fun n => ?_)
        simp only [Function.comp_apply, List.length_cons]
        omega
      · rw [← List.cons_append, prefix_append_cons_iff hc]
        exact h.1

/-- A pattern is found no earlier than its first character. -/
theorem indexOf_head {tail : Text} (hfront : c ∉ front) (hstarts : c :: tail <+: back) :
    indexOf (c :: tail) (front ++ back) = some front.length := by
  induction front with
  | nil => exact indexOf_eq_zero hstarts
  | cons first rest ih =>
      have hfirst : ¬ c :: tail <+: first :: (rest ++ back) := fun hsame =>
        hfront (List.mem_cons.mpr (.inl (List.cons_prefix_cons.mp hsame).1))
      rw [List.cons_append, indexOf_cons hfirst, ih fun hmem => hfront (List.mem_cons_of_mem _ hmem)]
      rfl

theorem indexOf_char (h : c ∉ front) : indexOf [c] (front ++ c :: back) = some front.length :=
  indexOf_head h (List.prefix_append [c] back)

theorem indexFrom_append : indexFrom pattern (front ++ back) front.length =
    (indexOf pattern back).map (front.length + ·) := by
  rw [indexFrom, List.drop_left]

theorem replaceFirst_of_indexOf (h : indexOf pattern (front ++ (pattern ++ back)) = some front.length) :
    replaceFirst (front ++ (pattern ++ back)) pattern new = front ++ (new ++ back) := by
  rw [replaceFirst, h]
  simp only [List.take_left', List.append_cancel_left_eq]
  rw [← List.append_assoc, ← List.length_append, List.drop_left]

end IndexOf

/-! ## Queries -/

/-- The characters that the searches and the splits go by. -/
def marks : List Char := ['\x7b', '\x7d', '"', ',', '|', '=', '~', '!', '<', '>', '$']

def isPlain (c : Char) : Bool := !isWhiteSpace c && !marks.contains c

def IsWord (text : Text) : Prop := text ≠ [] ∧ ∀ c ∈ text, isPlain c = true

/-- A label with values. -/
structure QueryLabelValue.IsPlain (labVal : QueryLabelValue) : Prop where
  label : IsWord labVal.label
  nonempty : labVal.value ≠ []
  value : ∀ value ∈ labVal.value, IsWord value

instance (text : Text) : Decidable (IsWord text) :=
  decidable_of_iff (text ≠ [] ∧ text.all isPlain = true) (and_congr_right fun _ => List.all_eq_true)

instance (labVal : QueryLabelValue) : Decidable labVal.IsPlain :=
  decidable_of_iff (IsWord labVal.label ∧ labVal.value ≠ [] ∧ ∀ value ∈ labVal.value, IsWord value)
    ⟨fun ⟨label, nonempty, value⟩ => ⟨label, nonempty, value⟩, fun h => ⟨h.label, h.nonempty, h.value⟩⟩

inductive Query where
  | plain (text : Text)
  | labelled (front : Text) (items : List QueryLabelValue) (trailing : Bool) (back : Text)
  deriving DecidableEq, Repr

/-- What stands behind the last label. -/
def closing (trailing : Bool) (back : Text) : Text := (if trailing then [','] else []) ++ '\x7d' :: back

def Query.text : Query → Text
  | .plain text => text
  | .labelled front items trailing back =>
      front ++ '\x7b' :: ([','].intercalate (items.map labelText) ++ closing trailing back)

def Query.items : Query → List QueryLabelValue
  | .plain _ => []
  | .labelled _ items _ _ => items

def Query.trailing : Query → Bool
  | .plain _ => false
  | .labelled _ _ trailing _ => trailing

structure WellLabelled (front : Text) (items : List QueryLabelValue) : Prop where
  bracket : '\x7b' ∉ front
  quote : '"' ∉ front
  nonempty : items ≠ []
  plain : ∀ item ∈ items, item.IsPlain
  nodup : (items.map QueryLabelValue.label).Nodup

def Query.WellFormed : Query → Prop
  | .plain text => '\x7b' ∉ text ∧ '"' ∉ text
  | .labelled front items _ _ => WellLabelled front items

/-! ### Edits -/

def upsert (labVal : QueryLabelValue) (items : List QueryLabelValue) : List QueryLabelValue :=
  if items.any fun item => item.label == labVal.label then
    items.map fun item => if item.label = labVal.label then labVal else item
  else labVal :: items

/-- The labels go behind the name of the base query, as it stands in the query that the edits begin with. -/
def Query.edit (index : ℕ) (labVal : QueryLabelValue) : Query → Query
  | .plain text => .labelled (text.take index) [labVal] false (text.drop index)
  | .labelled front items trailing back => .labelled front (upsert labVal items) trailing back

def Query.edits (index : ℕ) (query : Query) (labelValuesList : List QueryLabelValue) : Query :=
  labelValuesList.foldl (fun query labVal => query.edit index labVal) query

/-- The name of the label comes up in the label or in its values. -/
def QueryLabelValue.Mentions (item : QueryLabelValue) (label : Text) : Prop :=
  label <:+: item.label ∨ ∃ value ∈ item.value, label <:+: value

/-- The searches for the label and for its values find the label's own place, or none where it has none. -/
def Query.Admits (labVal : QueryLabelValue) : Query → Prop
  | .plain _ => True
  | .labelled _ items _ back =>
      (∃ before own after, items = before ++ own :: after ∧ own.label = labVal.label ∧
        ∀ item ∈ before, ¬ item.Mentions labVal.label ∧ item.value ≠ own.value) ∨
      (∀ item ∈ items, ¬ item.Mentions labVal.label) ∧ ¬ labVal.label <:+: back

instance (item : QueryLabelValue) (label : Text) : Decidable (item.Mentions label) :=
  inferInstanceAs (Decidable (_ ∨ _))

def Query.AdmitsAll (index : ℕ) (query : Query) : List QueryLabelValue → Prop
  | [] => True
  | labVal :: labelValuesList => query.Admits labVal ∧ (query.edit index labVal).AdmitsAll index labelValuesList

/-! ### Words -/

section Words

variable {c : Char} {label : Text} {item labVal : QueryLabelValue} {values : List Text}

theorem notMem_marks (h : isPlain c = true) : c ∉ marks := by
  intro hc
  rw [isPlain, List.contains_iff_mem.mpr hc, Bool.not_true, Bool.and_false] at h
  cases h

theorem isWhiteSpace_of_isPlain (h : isPlain c = true) : isWhiteSpace c = false := by
  rw [isPlain, Bool.and_eq_true, Bool.not_eq_true'] at h
  exact h.1

theorem IsWord.notMem (h : IsWord label) (hc : c ∈ marks) : c ∉ label := fun hmem => notMem_marks (h.2 c hmem) hc

theorem notMem_joinValues (h : ∀ value ∈ values, IsWord value) (hc : c ∈ marks) (hbar : c ≠ '|') :
    c ∉ joinValues values := by
  intro hmem
  rcases mem_intercalate hmem with ⟨value, hvalue, hin⟩ | hsep
  · exact (h value hvalue).notMem hc hin
  · exact hbar hsep

theorem splitOn_joinValues (h : ∀ value ∈ values, IsWord value) (hnonempty : values ≠ []) :
    (joinValues values).splitOn '|' = values :=
  List.splitOn_intercalate '|' (fun value hvalue => (h value hvalue).notMem (by decide)) hnonempty

theorem labelText_eq (item : QueryLabelValue) :
    labelText item = item.label ++ '=' :: '~' :: '"' :: (joinValues item.value ++ ['"']) := rfl

/-- A word comes up in what is written of a label where the label mentions it. -/
theorem infix_labelText_iff (h : IsWord label) : label <:+: labelText item ↔ item.Mentions label := by
  have hnil : ¬ label <:+: [] := fun hoccurs => h.1 (List.infix_nil.mp hoccurs)
  have hmark : ∀ {c : Char}, c ∈ marks → c ∉ label := h.notMem
  have hjoin : label <:+: joinValues item.value ↔ ∃ value ∈ item.value, label <:+: value :=
    infix_intercalate_iff (hmark (by decide)) h.1
  have htilde := @infix_append_cons_iff _ label [] ('"' :: (joinValues item.value ++ ['"'])) '~' (hmark (by decide))
  have hquote := @infix_append_cons_iff _ label [] (joinValues item.value ++ ['"']) '"' (hmark (by decide))
  have hlast := @infix_append_cons_iff _ label (joinValues item.value) [] '"' (hmark (by decide))
  simp only [List.nil_append, hnil, false_or, or_false] at htilde hquote hlast
  rw [labelText_eq, infix_append_cons_iff (hmark (by decide)), htilde, hquote, hlast, hjoin]
  exact Iff.rfl

theorem QueryLabelValue.mentions_own (hsame : item.label = label) : item.Mentions label :=
  .inl (hsame ▸ List.infix_rfl)

/-- The quotes are at the ends, so that values in quotes come up in others only where they are the same. -/
theorem eq_of_infix_quoted (h : item.IsPlain) (h' : labVal.IsPlain)
    (hoccurs : quoted item.value <:+: quoted labVal.value) : item.value = labVal.value := by
  have hjoin : '"' ∉ joinValues item.value := notMem_joinValues h.value (by decide) (by decide)
  have hjoin' : '"' ∉ joinValues labVal.value := notMem_joinValues h'.value (by decide) (by decide)
  obtain ⟨front, back, htext⟩ := hoccurs
  have hfront : front = [] := by
    cases front with
    | nil => rfl
    | cons first rest =>
        have hcount := congrArg (List.count '"') (List.cons.inj htext).2
        simp only [quoted, List.append_eq, List.count_append, List.count_cons_self,
          List.count_eq_zero.mpr hjoin'] at hcount
        omega
  rw [hfront, List.nil_append, quoted, quoted, List.cons_append, List.append_assoc] at htext
  have hsame := ((List.append_cons_inj_of_notMem hjoin' List.not_mem_nil).mp (List.cons.inj htext).2.symm).1
  rw [← splitOn_joinValues h.value h.nonempty, ← splitOn_joinValues h'.value h'.nonempty, hsame]

end Words

/-! ## Writing -/

section Writing

variable {base queryString front back pattern : Text} {items before after : List QueryLabelValue}
  {own labVal : QueryLabelValue} {trailing : Bool}

/-- What stands before a label, and behind it. -/
def opened (front : Text) (before : List QueryLabelValue) : Text :=
  front ++ '\x7b' :: before.flatMap fun item => labelText item ++ [',']

def closed (after : List QueryLabelValue) (trailing : Bool) (back : Text) : Text :=
  (after.flatMap fun item => ',' :: labelText item) ++ closing trailing back

theorem intercalate_labelText (before after : List QueryLabelValue) (own : QueryLabelValue) :
    [','].intercalate ((before ++ own :: after).map labelText) =
      (before.flatMap fun item => labelText item ++ [',']) ++
        (labelText own ++ after.flatMap fun item => ',' :: labelText item) := by
  induction before with
  | nil =>
      induction after generalizing own with
      | nil => simp
      | cons next after ih =>
          have hnext := ih next
          simp only [List.nil_append, List.flatMap_nil, List.map_cons] at hnext ⊢
          rw [List.intercalate_cons_cons, hnext, List.flatMap_cons]
          simp
  | cons first before ih =>
      rw [List.cons_append, List.map_cons, List.intercalate_cons_of_ne_nil (by simp), ih, List.flatMap_cons]
      simp

/-- The text of a query around one of its labels. -/
theorem text_around : (Query.labelled front (before ++ own :: after) trailing back).text =
    opened front before ++ (labelText own ++ closed after trailing back) := by
  rw [Query.text, intercalate_labelText, opened, closed]
  simp

theorem indexOf_bracket (hfront : '\x7b' ∉ front) :
    indexOf ['\x7b'] (Query.labelled front items trailing back).text = some front.length := indexOf_char hfront

/-- A pattern without a comma is not found before a place where no label has it. -/
theorem indexOf_labels {rest : Text} (hcomma : ',' ∉ pattern)
    (hbefore : ∀ item ∈ before, ¬ pattern <:+: labelText item) :
    indexOf pattern ((before.flatMap fun item => labelText item ++ [',']) ++ rest) =
      (indexOf pattern rest).map ((before.flatMap fun item => labelText item ++ [',']).length + ·) := by
  induction before with
  | nil => simp
  | cons first before ih =>
      have hrest := ih fun item hitem => hbefore item (List.mem_cons_of_mem _ hitem)
      rw [List.flatMap_cons, List.append_assoc, List.append_assoc, List.singleton_append,
        indexOf_append_cons hcomma (hbefore first List.mem_cons_self), hrest, Option.map_map]
      refine congrArg (Option.map · _) (funext fun n => ?_)
      simp only [Function.comp_apply, List.length_append, List.length_singleton]
      omega

theorem indexOf_opened {rest : Text} (hcomma : ',' ∉ pattern) (hbracket : '\x7b' ∉ pattern)
    (hfront : ¬ pattern <:+: front) (hbefore : ∀ item ∈ before, ¬ pattern <:+: labelText item) :
    indexOf pattern (opened front before ++ rest) = (indexOf pattern rest).map ((opened front before).length + ·) := by
  rw [opened, List.append_assoc, List.cons_append, indexOf_append_cons hbracket hfront, indexOf_labels hcomma hbefore,
    Option.map_map]
  refine congrArg (Option.map · _) (funext fun n => ?_)
  simp only [Function.comp_apply, List.length_append, List.length_cons]
  omega

/-- What stands before the values of a label. -/
def valuesFront (lead : Text) (own : QueryLabelValue) : Text := lead ++ (own.label ++ ['=', '~'])

theorem lead_labelText (lead rest : Text) (own : QueryLabelValue) :
    lead ++ (labelText own ++ rest) = valuesFront lead own ++ (quoted own.value ++ rest) := by
  simp [labelText, valuesFront]

/-- The two quotes that are found are those of the label's values. -/
theorem indexFrom_quotes {lead rest : Text} (hown : own.IsPlain) :
    indexFrom ['"'] (lead ++ (labelText own ++ rest)) lead.length = some (valuesFront lead own).length ∧
    indexFrom ['"'] (lead ++ (labelText own ++ rest)) ((valuesFront lead own).length + 1) =
      some ((valuesFront lead own).length + 1 + (joinValues own.value).length) := by
  constructor
  · have hnotMem : '"' ∉ own.label ++ ['=', '~'] := by
      rw [List.mem_append, not_or]
      exact ⟨hown.label.notMem (by decide), by decide⟩
    have htext : labelText own ++ rest = (own.label ++ ['=', '~']) ++ '"' :: (joinValues own.value ++ '"' :: rest) := by
      simp [labelText, quoted]
    rw [indexFrom_append, htext, indexOf_char hnotMem, Option.map_some, valuesFront]
    simp only [List.length_append]
  · have hnotMem : '"' ∉ joinValues own.value := notMem_joinValues hown.value (by decide) (by decide)
    have htext : lead ++ (labelText own ++ rest) =
        (valuesFront lead own ++ ['"']) ++ (joinValues own.value ++ '"' :: rest) := by
      rw [lead_labelText]
      simp [quoted]
    have hlength : (valuesFront lead own).length + 1 = (valuesFront lead own ++ ['"']).length := by
      rw [List.length_append, List.length_singleton]
    rw [hlength, htext, indexFrom_append, indexOf_char hnotMem, Option.map_some]

theorem substring_append (front mid back : Text) :
    substring (front ++ (mid ++ back)) front.length (front.length + mid.length) = mid := by
  rw [substring, max_eq_right (Nat.le_add_right _ _), min_eq_left (Nat.le_add_right _ _), ← List.append_assoc,
    ← List.length_append, List.take_left, List.drop_left]

/-- Where the searches find a label and its values, these are set. -/
theorem setLabel_found {lead rest : Text} {bracketIndex : ℕ}
    (hbracket : indexOf ['\x7b'] (lead ++ (labelText own ++ rest)) = some bracketIndex)
    (hlabel : indexFrom labVal.label (lead ++ (labelText own ++ rest)) bracketIndex = some lead.length)
    (hown : own.IsPlain) (hsame : own.label = labVal.label) (hvalue : labVal.value ≠ [])
    (hquoted : indexOf (quoted own.value) (lead ++ (labelText own ++ rest)) = some (valuesFront lead own).length) :
    setLabel base queryString (lead ++ (labelText own ++ rest)) labVal = lead ++ (labelText labVal ++ rest) := by
  obtain ⟨hopr, hval⟩ := @indexFrom_quotes own lead rest hown
  have hlength : (quoted own.value).length = (joinValues own.value).length + 2 := by
    rw [quoted, List.length_cons, List.length_append, List.length_singleton]
  have hsubstring : substring (lead ++ (labelText own ++ rest)) (valuesFront lead own).length
      ((valuesFront lead own).length + 1 + (joinValues own.value).length + 1) = quoted own.value := by
    have hend : (valuesFront lead own).length + 1 + (joinValues own.value).length + 1 =
        (valuesFront lead own).length + (quoted own.value).length := by omega
    rw [hend, lead_labelText, substring_append]
  have hreplaced : replaceFirst (lead ++ (labelText own ++ rest)) (quoted own.value) (quoted labVal.value) =
      valuesFront lead own ++ (quoted labVal.value ++ rest) := by
    rw [lead_labelText] at hquoted ⊢
    exact replaceFirst_of_indexOf hquoted
  have hbetween : replaceBetween (valuesFront lead own ++ (quoted labVal.value ++ rest))
      (lead.length + labVal.label.length) (valuesFront lead own).length ['=', '~'] =
        lead ++ (labelText labVal ++ rest) := by
    have hfront : valuesFront lead own = (lead ++ labVal.label) ++ ['=', '~'] := by
      rw [valuesFront, hsame, List.append_assoc]
    rw [replaceBetween, List.drop_left, hfront, List.append_assoc, ← List.length_append, List.take_left]
    simp [labelText]
  rw [setLabel, hbracket]
  simp only [hlabel, hopr, hval, hsubstring, hreplaced, hbetween]
  exact if_pos fun hlength => hvalue (List.length_eq_zero_iff.mp hlength)

theorem upsert_own (hnodup : ((before ++ own :: after).map QueryLabelValue.label).Nodup)
    (hsame : own.label = labVal.label) :
    upsert labVal (before ++ own :: after) = before ++ labVal :: after := by
  rw [List.map_append, List.map_cons, List.nodup_append] at hnodup
  obtain ⟨-, hrest, hdisjoint⟩ := hnodup
  have hbefore : ∀ item ∈ before, item.label ≠ labVal.label := fun item hitem heq =>
    hdisjoint _ (List.mem_map_of_mem hitem) _ List.mem_cons_self (heq.trans hsame.symm)
  have hafter : ∀ item ∈ after, item.label ≠ labVal.label := fun item hitem heq =>
    (List.nodup_cons.mp hrest).1 (hsame ▸ heq ▸ List.mem_map_of_mem hitem)
  rw [upsert, if_pos (by simp [hsame]), List.map_append, List.map_cons, if_pos hsame]
  refine congrArg₂ _ ?_ (congrArg _ ?_)
  · exact (List.map_congr_left fun item hitem => if_neg (hbefore item hitem)).trans (List.map_id' _)
  · exact (List.map_congr_left fun item hitem => if_neg (hafter item hitem)).trans (List.map_id' _)

theorem upsert_absent (habsent : ∀ item ∈ items, item.label ≠ labVal.label) :
    upsert labVal items = labVal :: items := by
  refine if_neg fun hany => ?_
  obtain ⟨item, hitem, hsame⟩ := List.any_eq_true.mp hany
  exact habsent item hitem (eq_of_beq hsame)

/-- The search for a label finds its own place where no label before it mentions it. -/
theorem indexFrom_own {rest : Text} (hlabVal : labVal.IsPlain) (hsame : own.label = labVal.label)
    (hbefore : ∀ item ∈ before, ¬ item.Mentions labVal.label) :
    indexFrom labVal.label (opened front before ++ (labelText own ++ rest)) front.length =
      some (opened front before).length := by
  have hmarks : ∀ {c : Char}, c ∈ marks → c ∉ labVal.label := hlabVal.label.notMem
  have hfound : indexOf labVal.label (labelText own ++ rest) = some 0 := by
    refine indexOf_eq_zero ?_
    rw [← hsame, labelText, List.append_assoc]
    exact List.prefix_append _ _
  have hskip : indexOf labVal.label (opened [] before ++ (labelText own ++ rest)) =
      (indexOf labVal.label (labelText own ++ rest)).map ((opened [] before).length + ·) :=
    indexOf_opened (hmarks (by decide)) (hmarks (by decide))
      (fun hoccurs => hlabVal.label.1 (List.infix_nil.mp hoccurs))
      fun item hitem => (infix_labelText_iff hlabVal.label).not.mpr (hbefore item hitem)
  have hfront : opened front before = front ++ opened [] before := rfl
  rw [hfront, List.append_assoc, indexFrom_append, hskip, hfound, List.length_append, Option.map_some, Option.map_some,
    Nat.add_zero]

/-- The search for values in quotes finds their own place where no label before it has the same values. -/
theorem indexOf_quoted_own {rest : Text} (hquote : '"' ∉ front) (hplain : ∀ item ∈ before, item.IsPlain)
    (hown : own.IsPlain) (hbefore : ∀ item ∈ before, item.value ≠ own.value) :
    indexOf (quoted own.value) (opened front before ++ (labelText own ++ rest)) =
      some (valuesFront (opened front before) own).length := by
  have hjoin : ∀ {c : Char}, c ∈ marks → c ≠ '|' → c ≠ '"' → c ∉ quoted own.value := by
    intro c hc hbar hne
    simp only [quoted, List.mem_cons, List.mem_append, List.not_mem_nil, or_false, not_or]
    exact ⟨hne, notMem_joinValues hown.value hc hbar, hne⟩
  have hmem : '"' ∈ quoted own.value := List.mem_cons_self
  have hfront : ∀ {label : Text}, IsWord label → '"' ∉ label ++ ['='] := by
    intro label hlabel
    rw [List.mem_append, not_or]
    exact ⟨hlabel.notMem (by decide), by decide⟩
  have htext : ∀ item : QueryLabelValue, labelText item = (item.label ++ ['=']) ++ '~' :: quoted item.value := by
    intro item
    simp [labelText]
  have hlabels : ∀ item ∈ before, ¬ quoted own.value <:+: labelText item := by
    intro item hitem
    rw [htext, infix_append_cons_iff (hjoin (by decide) (by decide) (by decide)), not_or]
    exact ⟨not_infix_of_notMem hmem (hfront (hplain item hitem).label),
      fun hoccurs => hbefore item hitem (eq_of_infix_quoted hown (hplain item hitem) hoccurs).symm⟩
  have hrest : indexOf (quoted own.value) (labelText own ++ rest) = some (own.label ++ ['=', '~']).length := by
    rw [htext, List.append_assoc, List.cons_append, indexOf_append_cons (hjoin (by decide) (by decide) (by decide))
      (not_infix_of_notMem hmem (hfront hown.label)), indexOf_eq_zero (List.prefix_append _ _), Option.map_some]
    simp
  rw [indexOf_opened (hjoin (by decide) (by decide) (by decide)) (hjoin (by decide) (by decide) (by decide))
    (not_infix_of_notMem hmem hquote) hlabels, hrest, valuesFront, Option.map_some, ← List.length_append]

/-- A label that is found at its own place gets its new values there. -/
theorem setLabel_own (hquery : WellLabelled front (before ++ own :: after)) (hlabVal : labVal.IsPlain)
    (hsame : own.label = labVal.label)
    (hbefore : ∀ item ∈ before, ¬ item.Mentions labVal.label ∧ item.value ≠ own.value) :
    setLabel base queryString (Query.labelled front (before ++ own :: after) trailing back).text labVal =
      (Query.labelled front (before ++ labVal :: after) trailing back).text := by
  have hplain : ∀ item ∈ before, item.IsPlain := fun item hitem =>
    hquery.plain item (List.mem_append_left _ hitem)
  have hown : own.IsPlain := hquery.plain own (List.mem_append_right _ List.mem_cons_self)
  have hbracket := @indexOf_bracket front back (before ++ own :: after) trailing hquery.bracket
  rw [text_around] at hbracket ⊢
  rw [text_around]
  exact setLabel_found hbracket (indexFrom_own hlabVal hsame fun item hitem => (hbefore item hitem).1) hown hsame
    hlabVal.nonempty (indexOf_quoted_own hquery.quote hplain hown fun item hitem => (hbefore item hitem).2)

/-- A label that is not found is put before the others. -/
theorem setLabel_absent (hquery : WellLabelled front items) (hlabVal : labVal.IsPlain)
    (habsent : ∀ item ∈ items, ¬ item.Mentions labVal.label) (hback : ¬ labVal.label <:+: back) :
    setLabel base queryString (Query.labelled front items trailing back).text labVal =
      (Query.labelled front (labVal :: items) trailing back).text := by
  have hmarks : ∀ {c : Char}, c ∈ marks → c ∉ labVal.label := hlabVal.label.notMem
  have hnil : ¬ labVal.label <:+: [] := fun hoccurs => hlabVal.label.1 (List.infix_nil.mp hoccurs)
  have hitems : ¬ labVal.label <:+: [','].intercalate (items.map labelText) := by
    rw [infix_intercalate_iff (hmarks (by decide)) hlabVal.label.1]
    rintro ⟨text, htext, hoccurs⟩
    obtain ⟨item, hitem, rfl⟩ := List.mem_map.mp htext
    exact habsent item hitem ((infix_labelText_iff hlabVal.label).mp hoccurs)
  have hclosing : ¬ labVal.label <:+: [','].intercalate (items.map labelText) ++ closing trailing back := by
    have hbracket : ¬ labVal.label <:+: ([] : Text) ++ '\x7d' :: back := by
      rw [infix_append_cons_iff (hmarks (by decide)), not_or]
      exact ⟨hnil, hback⟩
    cases trailing with
    | false =>
        change ¬ labVal.label <:+: _ ++ '\x7d' :: back
        rw [infix_append_cons_iff (hmarks (by decide)), not_or]
        exact ⟨hitems, hback⟩
    | true =>
        change ¬ labVal.label <:+: _ ++ ',' :: ([] ++ '\x7d' :: back)
        rw [infix_append_cons_iff (hmarks (by decide)), not_or]
        exact ⟨hitems, hbracket⟩
  have hnone : indexFrom labVal.label (Query.labelled front items trailing back).text front.length = none := by
    have hbracket := (@infix_append_cons_iff _ labVal.label []
      ([','].intercalate (items.map labelText) ++ closing trailing back) '\x7b' (hmarks (by decide))).not.mpr
      (not_or.mpr ⟨hnil, hclosing⟩)
    rw [List.nil_append] at hbracket
    rw [Query.text, indexFrom_append, indexOf_eq_none hbracket]
    rfl
  have hlength : front.length + 1 = (front ++ ['\x7b']).length := by
    rw [List.length_append, List.length_singleton]
  have hopened : (Query.labelled front items trailing back).text =
      (front ++ ['\x7b']) ++ ([','].intercalate (items.map labelText) ++ closing trailing back) := by
    rw [Query.text, List.append_assoc, List.singleton_append]
  have htake : (Query.labelled front items trailing back).text.take (front.length + 1) = front ++ ['\x7b'] := by
    rw [hopened, hlength, List.take_left]
  have hdrop : (Query.labelled front items trailing back).text.drop (front.length + 1) =
      [','].intercalate (items.map labelText) ++ closing trailing back := by
    rw [hopened, hlength, List.drop_left]
  rw [setLabel, indexOf_bracket hquery.bracket]
  simp only [hnone, htake, hdrop]
  rw [Query.text, List.map_cons, List.intercalate_cons_of_ne_nil (by simpa using hquery.nonempty)]
  simp

theorem setLabel_plain {text : Text} (htext : '\x7b' ∉ text) :
    setLabel base queryString text labVal =
      ((Query.plain text).edit (insertionIndex base queryString) labVal).text := by
  have hnone : indexOf ['\x7b'] text = none :=
    indexOf_eq_none (not_infix_of_notMem List.mem_cons_self htext)
  rw [setLabel, hnone]
  simp [Query.edit, Query.text, closing]

end Writing

/-! ## Reading -/

section Reading

variable {front inner back text body : Text} {c opening closing : Char} {items acc : List QueryLabelValue}
  {item : QueryLabelValue} {trailing : Bool}

theorem lazyTo_append (hclosing : closing ∉ inner) (hline : ∀ c ∈ inner, isLineTerminator c = false) :
    lazyTo closing (inner ++ closing :: back) = some inner := by
  induction inner with
  | nil => rw [List.nil_append, lazyTo, if_pos rfl]
  | cons first rest ih =>
      have hfirst : first ≠ closing := fun heq => hclosing (heq ▸ List.mem_cons_self)
      have hrest := ih (fun hmem => hclosing (List.mem_cons_of_mem _ hmem))
        fun c hc => hline c (List.mem_cons_of_mem _ hc)
      rw [List.cons_append, lazyTo, if_neg hfirst, hline first List.mem_cons_self, hrest]
      rfl

theorem lazyTo_eq_none (h : closing ∉ text) : lazyTo closing text = none := by
  induction text with
  | nil => rfl
  | cons first rest ih =>
      have hfirst : first ≠ closing := fun heq => h (heq ▸ List.mem_cons_self)
      rw [lazyTo, if_neg hfirst, ih fun hmem => h (List.mem_cons_of_mem _ hmem)]
      split <;> rfl

theorem between_append (hfront : opening ∉ front) (hclosing : closing ∉ inner)
    (hline : ∀ c ∈ inner, isLineTerminator c = false) :
    between opening closing (front ++ opening :: (inner ++ closing :: back)) = some inner := by
  induction front with
  | nil =>
      rw [List.nil_append, between, if_pos rfl, lazyTo_append hclosing hline]
  | cons first rest ih =>
      have hfirst : first ≠ opening := fun heq => hfront (heq ▸ List.mem_cons_self)
      rw [List.cons_append, between, if_neg hfirst, ih fun hmem => hfront (List.mem_cons_of_mem _ hmem)]

theorem between_eq_none (h : opening ∉ text) : between opening closing text = none := by
  induction text with
  | nil => rfl
  | cons first rest ih =>
      have hfirst : first ≠ opening := fun heq => h (heq ▸ List.mem_cons_self)
      rw [between, if_neg hfirst, ih fun hmem => h (List.mem_cons_of_mem _ hmem)]

theorem trim_eq (h : ∀ c ∈ text, isWhiteSpace c = false) : trim text = text := by
  have hkept : ∀ {text : Text}, (∀ c ∈ text, isWhiteSpace c = false) → text.dropWhile isWhiteSpace = text := by
    intro text htext
    cases text with
    | nil => rfl
    | cons first rest => rw [List.dropWhile_cons, htext first List.mem_cons_self, if_neg Bool.false_ne_true]
  rw [trim, hkept h, hkept fun c hc => h c (List.mem_reverse.mp hc), List.reverse_reverse]

/-! ### One label -/

theorem forall_mem_of_all {p : Char → Prop} [DecidablePred p] {cs : List Char}
    (h : cs.all (fun c => decide (p c)) = true) : ∀ c ∈ cs, p c := fun c hc =>
  of_decide_eq_true (List.all_eq_true.mp h c hc)

theorem mem_labelText (h : item.IsPlain) (hc : c ∈ labelText item) : isPlain c = true ∨ c ∈ ['|', '=', '~', '"'] := by
  simp only [labelText, quoted, List.mem_append, List.mem_cons, List.not_mem_nil, or_false] at hc
  rcases hc with hc | (hc | hc) | hc | hc | hc
  · exact .inl (h.label.2 c hc)
  · exact .inr (by simp [hc])
  · exact .inr (by simp [hc])
  · exact .inr (by simp [hc])
  · rcases mem_intercalate hc with ⟨value, hvalue, hin⟩ | hbar
    · exact .inl ((h.value value hvalue).2 c hin)
    · exact .inr (by simp [hbar])
  · exact .inr (by simp [hc])

theorem isWhiteSpace_labelText (h : item.IsPlain) (hc : c ∈ labelText item) : isWhiteSpace c = false := by
  rcases mem_labelText h hc with hplain | hmark
  · exact isWhiteSpace_of_isPlain hplain
  · have hmarks : ∀ c ∈ ['|', '=', '~', '"'], isWhiteSpace c = false := forall_mem_of_all (by decide)
    exact hmarks c hmark

theorem isLineTerminator_of_not_isWhiteSpace (h : isWhiteSpace c = false) : isLineTerminator c = false := by
  have hterminators : ∀ c ∈ ['\n', '\r', '\u2028', '\u2029'], isWhiteSpace c = true :=
    forall_mem_of_all (by decide)
  refine Bool.eq_false_iff.mpr fun hline => ?_
  have hmem : c ∈ ['\n', '\r', '\u2028', '\u2029'] := by simpa [isLineTerminator, or_assoc] using hline
  rw [hterminators c hmem] at h
  cases h

theorem notMem_labelText (h : item.IsPlain) (hc : c ∈ marks) (hmark : c ∉ ['|', '=', '~', '"']) :
    c ∉ labelText item := by
  intro hmem
  rcases mem_labelText h hmem with hplain | hin
  · exact notMem_marks hplain hc
  · exact hmark hin

theorem comma_notMem_labelText (h : item.IsPlain) : ',' ∉ labelText item :=
  notMem_labelText h (by decide) (by decide)

theorem comma_notMem_labels (h : ∀ item ∈ items, item.IsPlain) : ∀ piece ∈ items.map labelText, ',' ∉ piece := by
  intro piece hpiece
  obtain ⟨item, hitem, rfl⟩ := List.mem_map.mp hpiece
  exact comma_notMem_labelText (h item hitem)

/-- Of the operators that are tried, the one that was written is found. -/
theorem find?_operator {label : Text} (hlabel : IsWord label)
    (hbody : ∀ c ∈ ['!', '<', '>', '='], c ∉ body) :
    labelMatchOperators.find? (fun val => (indexOf val (label ++ '=' :: '~' :: body)).isSome) = some ['=', '~'] := by
  have hnotMem : ∀ c ∈ ['!', '<', '>'], c ∉ label ++ '=' :: '~' :: body := by
    intro c hc
    have hmark : ∀ c ∈ ['!', '<', '>'], c ∈ marks ∧ c ≠ '=' ∧ c ≠ '~' ∧ c ∈ ['!', '<', '>', '='] :=
      forall_mem_of_all (by decide)
    obtain ⟨hmarks, hequal, htilde, hin⟩ := hmark c hc
    simp only [List.mem_append, List.mem_cons, not_or]
    exact ⟨hlabel.notMem hmarks, hequal, htilde, hbody c hin⟩
  have hnone : ∀ (pattern : Text) (c : Char), c ∈ ['!', '<', '>'] → c ∈ pattern →
      indexOf pattern (label ++ '=' :: '~' :: body) = none := fun _ _ hc hmem =>
    indexOf_eq_none (not_infix_of_notMem hmem (hnotMem _ hc))
  have hequals : indexOf ['=', '='] (label ++ '=' :: '~' :: body) = none := by
    have htext : label ++ '=' :: '~' :: body = (label ++ ['=']) ++ '~' :: body := by simp
    refine indexOf_eq_none ?_
    rw [htext, infix_append_cons_iff (by decide), not_or]
    refine ⟨fun hoccurs => ?_, not_infix_of_notMem List.mem_cons_self (hbody '=' (by decide))⟩
    have hcount := hoccurs.sublist.count_le '='
    rw [List.count_append, List.count_eq_zero.mpr (hlabel.notMem (by decide))] at hcount
    revert hcount
    decide
  have hfound : indexOf ['=', '~'] (label ++ '=' :: '~' :: body) = some label.length :=
    indexOf_head (hlabel.notMem (by decide)) (List.prefix_append ['=', '~'] body)
  have hoperators : labelMatchOperators =
      [['=', '='], ['!', '='], ['<', '='], ['<'], ['>', '='], ['>'], ['=', '~'], ['!', '~'], ['=']] := by decide
  rw [hoperators]
  simp only [List.find?_cons, hequals, hfound, Option.isSome_none, Option.isSome_some,
    hnone ['!', '='] '!' (by decide) (by decide),
    hnone ['<', '='] '<' (by decide) (by decide),
    hnone ['<'] '<' (by decide) (by decide),
    hnone ['>', '='] '>' (by decide) (by decide),
    hnone ['>'] '>' (by decide) (by decide)]

theorem splitInTwo_operator {label : Text} (hlabel : IsWord label) (hbody : '=' ∉ body) :
    splitInTwo ['=', '~'] (label ++ '=' :: '~' :: body) = (label, some body) := by
  have hfound : indexOf ['=', '~'] (label ++ '=' :: '~' :: body) = some label.length :=
    indexOf_head (hlabel.notMem (by decide)) (List.prefix_append ['=', '~'] body)
  have hdrop : (label ++ '=' :: '~' :: body).drop (label.length + 2) = body := by
    rw [← List.drop_drop, List.drop_left]
    rfl
  have hnone : indexOf ['=', '~'] body = none := indexOf_eq_none (not_infix_of_notMem List.mem_cons_self hbody)
  rw [splitInTwo, hfound]
  change (_, some ((_ : Text).take _)) = _
  rw [List.take_left, show (['=', '~'] : Text).length = 2 from rfl, hdrop, hnone, Option.getD_none, List.take_length]

theorem addValues_new {label : Text} {values : List Text} (h : ∀ labVal ∈ acc, labVal.label ≠ label) :
    addValues acc label values = acc ++ [⟨label, values⟩] := by
  refine if_neg fun hany => ?_
  obtain ⟨labVal, hmem, hsame⟩ := List.any_eq_true.mp hany
  exact h labVal hmem (eq_of_beq hsame)

theorem readLabel_text {label : Text} (hlabel : IsWord label) (hbody : ∀ c ∈ ['!', '<', '>', '='], c ∉ body)
    (hspace : ∀ c ∈ label ++ '=' :: '~' :: body, isWhiteSpace c = false) :
    readLabel acc (label ++ '=' :: '~' :: body) =
      (between '"' '"' body).elim acc fun inner => addValues acc label (inner.splitOn '|') := by
  rw [readLabel, find?_operator hlabel hbody]
  simp only [trim_eq hspace, splitInTwo_operator hlabel (hbody '=' (by decide))]
  cases between '"' '"' body with
  | none => rfl
  | some inner => rfl

theorem notMem_operators (h : item.IsPlain) :
    ∀ c ∈ ['!', '<', '>', '='], c ∉ joinValues item.value ∧ c ≠ '"' := by
  have hmarks : ∀ c ∈ ['!', '<', '>', '='], c ∈ marks ∧ c ≠ '|' ∧ c ≠ '"' := forall_mem_of_all (by decide)
  intro c hc
  obtain ⟨hmark, hbar, hquote⟩ := hmarks c hc
  exact ⟨notMem_joinValues h.value hmark hbar, hquote⟩

/-- A label that was written is read with its values. -/
theorem readLabel_labelText (h : item.IsPlain) (hnew : ∀ labVal ∈ acc, labVal.label ≠ item.label) :
    readLabel acc (labelText item) = acc ++ [item] := by
  have hjoin : '"' ∉ joinValues item.value := notMem_joinValues h.value (by decide) (by decide)
  have hline : ∀ c ∈ joinValues item.value, isLineTerminator c = false := by
    intro c hc
    refine isLineTerminator_of_not_isWhiteSpace (isWhiteSpace_labelText h ?_)
    simp [labelText, quoted, hc]
  have hbody : ∀ c ∈ ['!', '<', '>', '='], c ∉ quoted item.value := by
    intro c hc
    obtain ⟨hmem, hquote⟩ := notMem_operators h c hc
    simp only [quoted, List.mem_cons, List.mem_append, List.not_mem_nil, or_false, not_or]
    exact ⟨hquote, hmem, hquote⟩
  have hinner : between '"' '"' (quoted item.value) = some (joinValues item.value) :=
    @between_append [] _ [] '"' '"' List.not_mem_nil hjoin hline
  have hread := @readLabel_text (quoted item.value) acc item.label h.label hbody fun c hc =>
    isWhiteSpace_labelText h hc
  rw [hinner] at hread
  rw [Option.elim_some, splitOn_joinValues h.value h.nonempty, addValues_new hnew] at hread
  exact hread

/-- Without its closing quote it is not read. -/
theorem readLabel_cut (h : item.IsPlain) : readLabel acc (labelText item).dropLast = acc := by
  have hjoin : '"' ∉ joinValues item.value := notMem_joinValues h.value (by decide) (by decide)
  have htext : labelText item = (item.label ++ '=' :: '~' :: '"' :: joinValues item.value) ++ ['"'] := by
    simp [labelText_eq]
  have hbody : ∀ c ∈ ['!', '<', '>', '='], c ∉ '"' :: joinValues item.value := by
    intro c hc
    obtain ⟨hmem, hquote⟩ := notMem_operators h c hc
    rw [List.mem_cons, not_or]
    exact ⟨hquote, hmem⟩
  have hinner : between '"' '"' ('"' :: joinValues item.value) = none := by
    rw [between, if_pos rfl, lazyTo_eq_none hjoin]
    exact between_eq_none hjoin
  have hspace : ∀ c ∈ item.label ++ '=' :: '~' :: '"' :: joinValues item.value, isWhiteSpace c = false := by
    intro c hc
    refine isWhiteSpace_labelText h ?_
    rw [htext]
    exact List.mem_append_left _ hc
  rw [htext, List.dropLast_concat, readLabel_text h.label hbody hspace, hinner, Option.elim_none]

theorem readLabel_nil : readLabel acc [] = acc := by
  have hnone : labelMatchOperators.find? (fun val => (indexOf val []).isSome) = none := by decide
  rw [readLabel, hnone]

/-- Labels of different names are read as they are. -/
theorem foldl_readLabel (h : ∀ item ∈ items, item.IsPlain)
    (hnodup : ((acc ++ items).map QueryLabelValue.label).Nodup) :
    (items.map labelText).foldl readLabel acc = acc ++ items := by
  induction items generalizing acc with
  | nil => rw [List.map_nil, List.foldl_nil, List.append_nil]
  | cons item items ih =>
      have hnew : ∀ labVal ∈ acc, labVal.label ≠ item.label := by
        rw [List.map_append, List.nodup_append] at hnodup
        exact fun labVal hmem => hnodup.2.2 _ (List.mem_map_of_mem hmem) _ (by simp)
      have happend : (acc ++ [item]) ++ items = acc ++ item :: items := by simp
      rw [List.map_cons, List.foldl_cons, readLabel_labelText (h item List.mem_cons_self) hnew,
        ih (fun next hnext => h next (List.mem_cons_of_mem _ hnext)) (by rw [happend]; exact hnodup), happend]

/-! ### All labels -/

/-- The pieces that are neither first nor last stay as they are. -/
theorem map_adjust {count k : ℕ} {pieces : List Text} (hk : 0 < k) (hcount : k + pieces.length < count) :
    ((pieces.zipIdx k).map fun piece => adjust count piece.2 piece.1) = pieces := by
  induction pieces generalizing k with
  | nil => rfl
  | cons piece pieces ih =>
      rw [List.length_cons] at hcount
      have hpiece : adjust count k piece = piece := by
        rw [adjust, if_neg (by omega), if_neg (by omega)]
      rw [List.zipIdx_cons, List.map_cons, hpiece, ih (by omega) (by omega)]

theorem intercalate_concat_append (texts : List Text) (last tail : Text) :
    [c].intercalate (texts ++ [last]) ++ tail = [c].intercalate (texts ++ [last ++ tail]) := by
  induction texts with
  | nil => simp
  | cons text texts ih =>
      rw [List.cons_append, List.cons_append, List.intercalate_cons_of_ne_nil (by simp),
        List.intercalate_cons_of_ne_nil (by simp), List.append_assoc, ih]

theorem cons_intercalate (head : Char) (first : Text) (texts : List Text) :
    head :: [c].intercalate (first :: texts) = [c].intercalate ((head :: first) :: texts) := by
  cases texts with
  | nil => simp
  | cons next texts =>
      rw [List.intercalate_cons_cons, List.intercalate_cons_cons]
      rfl

theorem intercalate_trailing (first : Text) (texts : List Text) :
    [c].intercalate (first :: (texts ++ [[]])) = [c].intercalate (first :: texts) ++ [c] := by
  induction texts generalizing first with
  | nil => simp
  | cons text texts ih =>
      rw [List.cons_append, List.intercalate_cons_cons, List.intercalate_cons_cons, ih, List.append_assoc _ _ [c]]

/-- What is read of the pieces of a text in brackets: a single one as it is, and of several the last without its last
character. -/
theorem adjusted_pieces (first last : Text) (mid : List Text)
    (hcomma : ∀ piece ∈ first :: (mid ++ [last]), ',' ∉ piece) :
    let pieces := ('\x7b' :: ([','].intercalate (first :: (mid ++ [last])) ++ ['\x7d'])).splitOn ','
    (pieces.zipIdx.map fun piece => adjust pieces.length piece.2 piece.1) = first :: (mid ++ [last.dropLast]) := by
  have htext : '\x7b' :: ([','].intercalate (first :: (mid ++ [last])) ++ ['\x7d']) =
      [','].intercalate (('\x7b' :: first) :: (mid ++ [last ++ ['\x7d']])) := by
    rw [← List.cons_append, cons_intercalate, ← List.cons_append, intercalate_concat_append, List.cons_append]
  have hsplit : ('\x7b' :: ([','].intercalate (first :: (mid ++ [last])) ++ ['\x7d'])).splitOn ',' =
      ('\x7b' :: first) :: (mid ++ [last ++ ['\x7d']]) := by
    rw [htext]
    refine List.splitOn_intercalate ',' (fun piece hpiece => ?_) (by simp)
    simp only [List.mem_cons, List.mem_append, List.not_mem_nil, or_false] at hpiece hcomma
    rcases hpiece with rfl | hmid | rfl
    · simp [hcomma first (.inl rfl)]
    · exact hcomma piece (.inr (.inl hmid))
    · simp [hcomma last (.inr (.inr rfl))]
  intro pieces
  have hpieces : pieces = ('\x7b' :: first) :: (mid ++ [last ++ ['\x7d']]) := hsplit
  have hlength : pieces.length = mid.length + 2 := by simp [hpieces]
  have hfirst : adjust (mid.length + 2) 0 ('\x7b' :: first) = first := by
    rw [adjust, if_pos rfl, if_neg (by omega), List.drop_one, List.tail_cons]
  have hlast : adjust (mid.length + 2) (0 + 1 + mid.length) (last ++ ['\x7d']) = last.dropLast := by
    have hnotFirst : ¬ 0 + 1 + mid.length = 0 := by omega
    have hindex : 0 + 1 + mid.length = mid.length + 2 - 1 := by omega
    rw [adjust, if_neg hnotFirst, if_pos hindex, List.dropLast_eq_take, List.length_append, List.length_singleton]
    exact List.take_append_of_le_length (by omega)
  rw [hlength, hpieces, List.zipIdx_cons, List.map_cons, List.zipIdx_append, List.map_append, hfirst,
    map_adjust (Nat.succ_pos 0) (by omega), List.zipIdx_cons, List.zipIdx_nil, List.map_singleton, hlast]

theorem adjusted_single (first : Text) (hcomma : ',' ∉ first) :
    let pieces := ('\x7b' :: (first ++ ['\x7d'])).splitOn ','
    (pieces.zipIdx.map fun piece => adjust pieces.length piece.2 piece.1) = [first] := by
  have hsplit : ('\x7b' :: (first ++ ['\x7d'])).splitOn ',' = ['\x7b' :: (first ++ ['\x7d'])] :=
    List.splitOn_eq_singleton (by simp [hcomma])
  intro pieces
  have hpieces : pieces = ['\x7b' :: (first ++ ['\x7d'])] := hsplit
  rw [hpieces]
  simp [adjust]

/-- What is read between the brackets of a query. -/
theorem readPieces_trailing {first : QueryLabelValue} {rest : List QueryLabelValue}
    (hplain : ∀ item ∈ first :: rest, item.IsPlain) (hnodup : ((first :: rest).map QueryLabelValue.label).Nodup) :
    let pieces := ('\x7b' :: (([','].intercalate ((first :: rest).map labelText) ++ [',']) ++ ['\x7d'])).splitOn ','
    (pieces.zipIdx.map fun piece => adjust pieces.length piece.2 piece.1).foldl readLabel [] = first :: rest := by
  have hcomma : ∀ piece ∈ labelText first :: (rest.map labelText ++ [[]]), ',' ∉ piece := by
    intro piece hpiece
    rw [← List.cons_append, ← List.map_cons, List.mem_append, List.mem_singleton] at hpiece
    rcases hpiece with hlabel | rfl
    · exact comma_notMem_labels hplain piece hlabel
    · exact List.not_mem_nil
  have hpieces := adjusted_pieces (labelText first) [] (rest.map labelText) hcomma
  rw [intercalate_trailing] at hpieces
  refine (congrArg (List.foldl readLabel []) hpieces).trans ?_
  have hread : ((first :: rest).map labelText).foldl readLabel [] = first :: rest := foldl_readLabel hplain hnodup
  rw [← List.cons_append, ← List.map_cons, List.foldl_append, hread]
  exact readLabel_nil

theorem readPieces_single {first : QueryLabelValue} (hplain : first.IsPlain) :
    let pieces := ('\x7b' :: (labelText first ++ ['\x7d'])).splitOn ','
    (pieces.zipIdx.map fun piece => adjust pieces.length piece.2 piece.1).foldl readLabel [] = [first] :=
  (congrArg (List.foldl readLabel []) (adjusted_single (labelText first) (comma_notMem_labelText hplain))).trans
    (readLabel_labelText hplain nofun)

/-- The last of several labels is lost. -/
theorem readPieces_several {first last : QueryLabelValue} {mid : List QueryLabelValue}
    (hplain : ∀ item ∈ (first :: mid) ++ [last], item.IsPlain)
    (hnodup : (((first :: mid) ++ [last]).map QueryLabelValue.label).Nodup) :
    let pieces := ('\x7b' :: ([','].intercalate (((first :: mid) ++ [last]).map labelText) ++ ['\x7d'])).splitOn ','
    (pieces.zipIdx.map fun piece => adjust pieces.length piece.2 piece.1).foldl readLabel [] = first :: mid := by
  have hlabels : ((first :: mid) ++ [last]).map labelText =
      labelText first :: (mid.map labelText ++ [labelText last]) := by simp
  have hcomma : ∀ piece ∈ labelText first :: (mid.map labelText ++ [labelText last]), ',' ∉ piece := by
    rw [← hlabels]
    exact comma_notMem_labels hplain
  have hpieces := adjusted_pieces (labelText first) (labelText last) (mid.map labelText) hcomma
  rw [hlabels]
  refine (congrArg (List.foldl readLabel []) hpieces).trans ?_
  have hread : ((first :: mid).map labelText).foldl readLabel [] = first :: mid := by
    refine foldl_readLabel (fun item hitem => hplain item (List.mem_append_left _ hitem)) ?_
    exact hnodup.sublist (List.Sublist.map _ (List.sublist_append_left _ _))
  rw [← List.cons_append, ← List.map_cons, List.foldl_append, hread]
  exact readLabel_cut (hplain last (List.mem_append_right _ List.mem_cons_self))

/-- Nothing between the brackets ends the match of the expression. -/
theorem mem_inside (hplain : ∀ item ∈ items, item.IsPlain)
    (hc : c ∈ [','].intercalate (items.map labelText) ++ (if trailing then [','] else [])) :
    isWhiteSpace c = false ∧ c ≠ '\x7d' := by
  have hcomma : isWhiteSpace ',' = false ∧ ',' ≠ '\x7d' := by decide
  rcases List.mem_append.mp hc with hlabels | htrailing
  · rcases mem_intercalate hlabels with ⟨text, htext, hin⟩ | rfl
    · obtain ⟨item, hitem, rfl⟩ := List.mem_map.mp htext
      refine ⟨isWhiteSpace_labelText (hplain item hitem) hin, fun heq => ?_⟩
      exact notMem_labelText (hplain item hitem) (by decide) (by decide) (heq ▸ hin)
    · exact hcomma
  · have hsep : c = ',' := by
      split at htrailing
      · exact List.mem_singleton.mp htrailing
      · exact absurd htrailing List.not_mem_nil
    exact hsep ▸ hcomma

/-- Of the labels of a query all are read but the last, which is read as well where a comma follows it or where it is
the only one. -/
theorem getLabelsAndValues_text (hquery : WellLabelled front items) :
    getLabelsAndValues (Query.labelled front items trailing back).text =
      if trailing = true ∨ items.length ≤ 1 then items else items.dropLast := by
  have hbetween : between '\x7b' '\x7d' (Query.labelled front items trailing back).text =
      some ([','].intercalate (items.map labelText) ++ if trailing then [','] else []) := by
    rw [Query.text, closing, ← List.append_assoc]
    exact between_append hquery.bracket (fun hmem => (mem_inside hquery.plain hmem).2 rfl)
      fun c hc => isLineTerminator_of_not_isWhiteSpace (mem_inside hquery.plain hc).1
  rw [getLabelsAndValues, hbetween]
  obtain ⟨first, rest, rfl⟩ := List.exists_cons_of_ne_nil hquery.nonempty
  cases trailing with
  | true =>
      have hall : true = true ∨ (first :: rest).length ≤ 1 := .inl rfl
      rw [if_pos hall]
      exact readPieces_trailing hquery.plain hquery.nodup
  | false =>
      rw [if_neg Bool.false_ne_true, List.append_nil]
      rcases List.eq_nil_or_concat rest with rfl | ⟨mid, last, rfl⟩
      · rw [if_pos (.inr (Nat.le_refl _)), List.map_singleton, List.intercalate_singleton]
        exact readPieces_single (hquery.plain first List.mem_cons_self)
      · have hlong : ¬ (false = true ∨ ((first :: mid) ++ [last]).length ≤ 1) := by simp
        rw [List.concat_eq_append, ← List.cons_append] at hquery ⊢
        rw [if_neg hlong, List.dropLast_concat]
        exact readPieces_several hquery.plain hquery.nodup

end Reading

/-! ## Edits read back -/

section ReadBack

variable {base queryString : Text} {query : Query} {labVal : QueryLabelValue} {index : ℕ}

theorem setLabel_edit (hquery : query.WellFormed) (hlabVal : labVal.IsPlain) (hadmits : query.Admits labVal) :
    setLabel base queryString query.text labVal = (query.edit (insertionIndex base queryString) labVal).text := by
  cases query with
  | plain text => exact setLabel_plain hquery.1
  | labelled front items trailing back =>
      rcases hadmits with ⟨before, own, after, rfl, hsame, hbefore⟩ | ⟨habsent, hback⟩
      · rw [Query.edit, upsert_own hquery.nodup hsame]
        exact setLabel_own hquery hlabVal hsame hbefore
      · have hother : ∀ item ∈ items, item.label ≠ labVal.label := fun item hitem hsame =>
          habsent item hitem (QueryLabelValue.mentions_own hsame)
        rw [Query.edit, upsert_absent hother]
        exact setLabel_absent hquery hlabVal habsent hback

theorem wellFormed_edit (hquery : query.WellFormed) (hlabVal : labVal.IsPlain) (hadmits : query.Admits labVal) :
    (query.edit index labVal).WellFormed := by
  cases query with
  | plain text =>
      exact ⟨fun hmem => hquery.1 (List.mem_of_mem_take hmem), fun hmem => hquery.2 (List.mem_of_mem_take hmem),
        List.cons_ne_nil _ _, by simpa using hlabVal, by simp⟩
  | labelled front items trailing back =>
      rcases hadmits with ⟨before, own, after, rfl, hsame, -⟩ | ⟨habsent, -⟩
      · rw [Query.edit, upsert_own hquery.nodup hsame]
        refine ⟨hquery.bracket, hquery.quote, by simp, fun item hitem => ?_, ?_⟩
        · rcases List.mem_append.mp hitem with hbefore | hrest
          · exact hquery.plain item (List.mem_append_left _ hbefore)
          · rcases List.mem_cons.mp hrest with rfl | hafter
            · exact hlabVal
            · exact hquery.plain item (List.mem_append_right _ (List.mem_cons_of_mem _ hafter))
        · have hnodup := hquery.nodup
          rw [List.map_append, List.map_cons, hsame] at hnodup
          rw [List.map_append, List.map_cons]
          exact hnodup
      · have hother : labVal.label ∉ items.map QueryLabelValue.label := by
          intro hmem
          obtain ⟨item, hitem, hsame⟩ := List.mem_map.mp hmem
          exact habsent item hitem (QueryLabelValue.mentions_own hsame)
        rw [Query.edit, upsert_absent fun item hitem hsame => hother (hsame ▸ List.mem_map_of_mem hitem)]
        exact ⟨hquery.bracket, hquery.quote, List.cons_ne_nil _ _, List.forall_mem_cons.mpr ⟨hlabVal, hquery.plain⟩,
          List.nodup_cons.mpr ⟨hother, hquery.nodup⟩⟩

/-- Labels that are written one after the other come to be the labels of the query. -/
theorem foldl_setLabel {labelValuesList : List QueryLabelValue} (hquery : query.WellFormed)
    (hplain : ∀ labVal ∈ labelValuesList, labVal.IsPlain)
    (hadmits : query.AdmitsAll (insertionIndex base queryString) labelValuesList) :
    labelValuesList.foldl (setLabel base queryString) query.text =
        (query.edits (insertionIndex base queryString) labelValuesList).text ∧
      (query.edits (insertionIndex base queryString) labelValuesList).WellFormed := by
  induction labelValuesList generalizing query with
  | nil => exact ⟨rfl, hquery⟩
  | cons labVal labelValuesList ih =>
      obtain ⟨hlabVal, hrest⟩ := List.forall_mem_cons.mp hplain
      rw [List.foldl_cons, setLabel_edit hquery hlabVal hadmits.1]
      exact ih (wellFormed_edit hquery hlabVal hadmits.1) hrest hadmits.2

theorem getLabelsAndValues_query (hquery : query.WellFormed) :
    getLabelsAndValues query.text =
      if query.trailing = true ∨ query.items.length ≤ 1 then query.items else query.items.dropLast := by
  cases query with
  | plain text =>
      rw [getLabelsAndValues, Query.text, between_eq_none hquery.1, if_pos (.inr (Nat.zero_le _))]
      rfl
  | labelled front items trailing back => exact getLabelsAndValues_text hquery

def sampleLabels : List QueryLabelValue :=
  [⟨"job".toList, ["a".toList]⟩, ⟨"env".toList, ["b".toList, "c".toList]⟩, ⟨"job".toList, ["d".toList]⟩]

theorem admits_sampleLabels : (Query.plain "up".toList).AdmitsAll 2 sampleLabels := by
  refine ⟨trivial, .inr ⟨by decide, by decide⟩, .inl ?_, trivial⟩
  exact ⟨[⟨"env".toList, ["b".toList, "c".toList]⟩], ⟨"job".toList, ["a".toList]⟩, [], rfl, rfl, by decide⟩

end ReadBack

end LitmusPortal.PromUtils
