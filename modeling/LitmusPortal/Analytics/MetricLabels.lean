import LitmusPortal.Analytics.Prometheus
import LitmusPortal.Lib.GoQuote
import LitmusPortal.Lib.Utf8
import Mathlib.Algebra.GroupWithZero.Nat
import Mathlib.Data.List.Perm.Subperm

/-!
# The labels of a metric read back

A metric is written as its name and, between braces, its labels with quoted values. `Split` takes what stands
between the braces up to the first closing one, and the labels are read from the fields of that, which are cut at
equals signs and have a fixed number of bytes taken off.
-/

namespace LitmusPortal.Prometheus

open GoStrings

/-! ### The written form -/

/-- A character as `%q` writes it. -/
def escape (isPrint : Char → Bool) (c : Char) : List Char :=
  (GoText.toChars? (GoText.quoteRune isPrint (.char c))).getD []

def quoted (isPrint : Char → Bool) (value : String) : List Char :=
  '"' :: value.toList.flatMap (escape isPrint) ++ ['"']

def renderLabel (isPrint : Char → Bool) (label : String × String) : List Char :=
  label.1.toList ++ '=' :: quoted isPrint label.2

def renderLabels (isPrint : Char → Bool) : List (String × String) → List Char
  | [] => []
  | [label] => renderLabel isPrint label
  | label :: rest => renderLabel isPrint label ++ ',' :: ' ' :: renderLabels isPrint rest

def IsLabelName (name : String) : Prop := name ≠ "" ∧ ∀ c ∈ name.toList, c.isAlphanum = true ∨ c = '_'

/-- A metric with its labels in the order in which they are written. -/
structure LabelledMetric where
  name : String
  labels : List (String × String)
  name_ok : '{' ∉ name.toList
  nodup : (labels.map Prod.fst).Nodup
  names : ∀ label ∈ labels, IsLabelName label.1

def LabelledMetric.render (isPrint : Char → Bool) (metric : LabelledMetric) : String :=
  String.ofList (metric.name.toList ++ '{' :: renderLabels isPrint metric.labels ++ ['}'])

theorem toChars?_ofChars (cs : List Char) : GoText.toChars? (GoText.ofChars cs) = some cs := by
  induction cs with
  | nil => rfl
  | cons c cs ih =>
      simp only [GoText.toChars?, GoText.ofChars, List.map_cons] at ih ⊢
      rw [List.mapM_cons, ih]
      rfl

theorem notMem_hexDigits {a : Char} (ha : ∀ n : Fin 17, GoText.hexDigit n ≠ a) (count n : ℕ) :
    a ∉ GoText.hexDigits count n := by
  induction count generalizing n with
  | zero => simp [GoText.hexDigits]
  | succ count ih =>
      rw [GoText.hexDigits, List.mem_append, List.mem_singleton]
      rintro (h | h)
      · exact ih (n / 16) h
      · exact ha ⟨n % 16, by omega⟩ h.symm

/-- A character that `%q` writes as itself. -/
def WrittenPlain (isPrint : Char → Bool) (c : Char) : Prop := c ≠ '"' ∧ c ≠ '\\' ∧ isPrint c = true

inductive Escaped (isPrint : Char → Bool) (c : Char) : Prop
  | plain (plain : WrittenPlain isPrint c) (escape : escape isPrint c = [c])
  | escaped (plain : ¬ WrittenPlain isPrint c) (letter : Char) (rest : List Char)
      (escape : escape isPrint c = '\\' :: letter :: rest) (long : rest = [] ∧ c.val < 128 ∨ 2 ≤ rest.length)
      (backslash : c = '\\' → letter = '\\' ∧ rest = []) (eq : '=' ∉ letter :: rest) (brace : '}' ∉ letter :: rest)

theorem escaped_of_quoteRune {isPrint : Char → Bool} {c : Char} {cs : List Char}
    (h : GoText.quoteRune isPrint (.char c) = GoText.ofChars cs) : escape isPrint c = cs := by
  simp [escape, h, toChars?_ofChars]

theorem quoteLetter_spec {c letter : Char} (h : GoText.quoteLetter c = some letter) :
    c.val < 128 ∧ c ≠ '\\' ∧ '=' ≠ letter ∧ '}' ≠ letter := by
  unfold GoText.quoteLetter at h
  split at h
  all_goals
    first
    | obtain rfl := Option.some.inj h
      decide
    | cases h

theorem notMem_hex {a : Char} (ha : a = '=' ∨ a = '}') {letter : Char} (hletter : letter ≠ '=' ∧ letter ≠ '}')
    (count n : ℕ) : a ∉ letter :: GoText.hexDigits count n := by
  rw [List.mem_cons]
  rintro (rfl | h)
  · rcases ha with rfl | rfl
    · exact hletter.1 rfl
    · exact hletter.2 rfl
  · refine notMem_hexDigits ?_ count n h
    rcases ha with rfl | rfl <;> decide

theorem length_hexDigits (count n : ℕ) : (GoText.hexDigits count n).length = count := by
  induction count generalizing n with
  | zero => rfl
  | succ count ih => rw [GoText.hexDigits, List.length_append, ih]; rfl

/-- The digits of a number after a letter that says how many there are. -/
theorem escaped_hex {isPrint : Char → Bool} {c letter : Char} {count : ℕ} (hplain : ¬ WrittenPlain isPrint c)
    (hc : c ≠ '\\') (hletter : letter ≠ '=' ∧ letter ≠ '}') (hcount : 2 ≤ count)
    (h : GoText.quoteRune isPrint (.char c) =
      GoText.ofChars ('\\' :: letter :: GoText.hexDigits count c.toNat)) : Escaped isPrint c :=
  .escaped hplain letter _ (escaped_of_quoteRune h) (.inr (by rwa [length_hexDigits]))
    (fun hbackslash => absurd hbackslash hc) (notMem_hex (.inl rfl) hletter count _)
    (notMem_hex (.inr rfl) hletter count _)

theorem escaped (isPrint : Char → Bool) (c : Char) : Escaped isPrint c := by
  by_cases hquote : c = '"' ∨ c = '\\'
  · have hrune : GoText.quoteRune isPrint (.char c) = GoText.ofChars ['\\', c] := by
      rw [GoText.quoteRune, if_pos hquote]
    refine .escaped (fun h => hquote.elim h.1 h.2.1) c [] (escaped_of_quoteRune hrune) (.inl ⟨rfl, ?_⟩)
      (fun h => ⟨h, rfl⟩) ?_ ?_
    all_goals rcases hquote with rfl | rfl <;> decide
  · by_cases hprint : isPrint c = true
    · have hrune : GoText.quoteRune isPrint (.char c) = GoText.ofChars [c] := by
        rw [GoText.quoteRune, if_neg hquote, if_pos hprint]
        rfl
      exact .plain ⟨fun h => hquote (.inl h), fun h => hquote (.inr h), hprint⟩ (escaped_of_quoteRune hrune)
    · have hplain : ¬ WrittenPlain isPrint c := fun h => hprint h.2.2
      have hc : c ≠ '\\' := fun h => hquote (.inr h)
      cases hletter : GoText.quoteLetter c with
      | some letter =>
          obtain ⟨hascii, -, heq, hbrace⟩ := quoteLetter_spec hletter
          have hrune : GoText.quoteRune isPrint (.char c) = GoText.ofChars ['\\', letter] := by
            rw [GoText.quoteRune, if_neg hquote, if_neg hprint, hletter]
          exact .escaped hplain letter [] (escaped_of_quoteRune hrune) (.inl ⟨rfl, hascii⟩)
            (fun h => absurd h hc) (by simpa using heq) (by simpa using hbrace)
      | none =>
          by_cases hcontrol : c < ' '
          · refine @escaped_hex isPrint c 'x' 2 hplain hc (by decide) (by decide) ?_
            rw [GoText.quoteRune, if_neg hquote, if_neg hprint, hletter]
            exact if_pos hcontrol
          · by_cases hshort : c.toNat < 0x10000
            · refine @escaped_hex isPrint c 'u' 4 hplain hc (by decide) (by decide) ?_
              rw [GoText.quoteRune, if_neg hquote, if_neg hprint, hletter]
              exact (if_neg hcontrol).trans (if_pos hshort)
            · refine @escaped_hex isPrint c 'U' 8 hplain hc (by decide) (by decide) ?_
              rw [GoText.quoteRune, if_neg hquote, if_neg hprint, hletter]
              exact (if_neg hcontrol).trans (if_neg hshort)

/-! ### Fields -/

/-- Nothing follows, or white space. -/
def Stops (rest : List Char) : Prop := ∀ c ∈ rest.head?, isSpace c = true

/-- A text of items with white space around them. -/
inductive FieldsOf : List Char → List (List Char) → Prop
  | nil : FieldsOf [] []
  | space {c : Char} {rest : List Char} {items : List (List Char)} (space : isSpace c = true)
      (fields : FieldsOf rest items) : FieldsOf (c :: rest) items
  | item {item rest : List Char} {items : List (List Char)} (nonempty : item ≠ []) (stops : Stops rest)
      (fields : FieldsOf rest items) : FieldsOf (item ++ rest) (item :: items)

theorem quotedFields_spec (cs : List Char) (lastQuote : Char) (field : List Char) :
    (field = [] → FieldsOf cs (quotedFields lastQuote field cs)) ∧
      (field ≠ [] → ∃ tail rest items, quotedFields lastQuote field cs = (field ++ tail) :: items ∧
        cs = tail ++ rest ∧ Stops rest ∧ FieldsOf rest items) := by
  induction cs generalizing lastQuote field with
  | nil =>
      refine ⟨fun hfield => ?_, fun hfield => ⟨[], [], [], by simp [quotedFields, hfield], rfl, by simp [Stops], .nil⟩⟩
      rw [quotedFields, if_pos hfield]
      exact .nil
  | cons c cs ih =>
      -- In all branches but that of a separator the character is put to the field.
      have hput : ∀ quote : Char, quotedFields lastQuote field (c :: cs) = quotedFields quote (field ++ [c]) cs →
          (field = [] → FieldsOf (c :: cs) (quotedFields lastQuote field (c :: cs))) ∧
            (field ≠ [] → ∃ tail rest items, quotedFields lastQuote field (c :: cs) = (field ++ tail) :: items ∧
              c :: cs = tail ++ rest ∧ Stops rest ∧ FieldsOf rest items) := by
        intro quote hquote
        obtain ⟨tail, rest, items, hitems, hcs, hstops, hfields⟩ := (ih quote (field ++ [c])).2 (by simp)
        rw [hquote, hitems]
        constructor
        · rintro rfl
          have hall : c :: cs = ([c] ++ tail) ++ rest := by simp [hcs]
          rw [hall]
          exact .item (by simp) hstops hfields
        · intro _
          exact ⟨c :: tail, rest, items, by simp, by simp [hcs], hstops, hfields⟩
      by_cases hlast : c = lastQuote
      · exact hput '\u0000' (by rw [quotedFields, if_pos hlast])
      · by_cases hinside : lastQuote ≠ '\u0000'
        · exact hput lastQuote (by rw [quotedFields, if_neg hlast, if_pos hinside])
        · by_cases hmark : isQuotationMark c = true
          · exact hput c (by rw [quotedFields, if_neg hlast, if_neg hinside, if_pos hmark])
          · by_cases hspace : isSpace c = true
            · have hrest : FieldsOf (c :: cs) (quotedFields lastQuote [] cs) := .space hspace ((ih lastQuote []).1 rfl)
              rw [quotedFields, if_neg hlast, if_neg hinside, if_neg hmark, if_pos hspace]
              constructor
              · intro hfield
                rw [if_pos hfield]
                exact hrest
              · intro hfield
                rw [if_neg hfield]
                exact ⟨[], c :: cs, _, by simp, rfl, by simp [Stops, hspace], hrest⟩
            · exact hput lastQuote (by
                rw [quotedFields, if_neg hlast, if_neg hinside, if_neg hmark, if_neg hspace])

theorem fieldsOf_quotedFields (cs : List Char) : FieldsOf cs (quotedFields '\u0000' [] cs) :=
  (quotedFields_spec cs '\u0000' []).1 rfl

theorem FieldsOf.mem {cs item : List Char} {items : List (List Char)} (h : FieldsOf cs items) (hitem : item ∈ items)
    {c : Char} (hc : c ∈ item) : c ∈ cs := by
  induction h with
  | nil => cases hitem
  | space _ _ ih => exact List.mem_cons_of_mem _ (ih hitem)
  | item _ _ _ ih =>
      rcases List.mem_cons.mp hitem with rfl | hitem
      · exact List.mem_append_left _ hc
      · exact List.mem_append_right _ (ih hitem)

theorem FieldsOf.count_eq {cs : List Char} {items : List (List Char)} (h : FieldsOf cs items) {a : Char}
    (ha : isSpace a = false) : cs.count a = (items.map (List.count a)).sum := by
  induction h with
  | nil => rfl
  | @space c _ _ hspace _ ih =>
      have hne : c ≠ a := by
        rintro rfl
        simp [ha] at hspace
      rw [List.count_cons_of_ne hne, ih]
  | item _ _ _ ih => rw [List.count_append, ih, List.map_cons, List.sum_cons]

/-! ### The entry of an item -/

theorem splitOnP_head (cs : List Char) :
    ∃ v rest more, cs.splitOnP (· = '=') = v :: more ∧ cs = v ++ rest ∧ '=' ∉ v ∧ (rest = [] ∨ '=' ∈ rest) := by
  by_cases hmem : '=' ∈ cs
  · obtain ⟨v, rest, rfl, hv⟩ := List.eq_append_cons_of_mem hmem
    have hfree : ∀ c ∈ v, decide (c = '=') = false := fun c hc => decide_eq_false fun heq => hv (heq ▸ hc)
    exact ⟨v, '=' :: rest, _, List.splitOnP_append_cons_of_forall_mem hfree '=' (by simp) rest, rfl, hv, .inr (by simp)⟩
  · have hfree : ∀ c ∈ cs, decide (c = '=') = false := fun c hc => decide_eq_false fun heq => hmem (heq ▸ hc)
    exact ⟨cs, [], [], List.splitOnP_eq_singleton hfree, by simp, hmem, .inl rfl⟩

def cutValue (v : List Char) : Option (List UInt8) :=
  if 3 ≤ (Utf8.bytes v).length then some (((Utf8.bytes v).drop 1).take ((Utf8.bytes v).length - 3)) else none

theorem keyValue_of_notMem {item : List Char} (h : '=' ∉ item) : keyValue item = none := by
  have hfree : ∀ c ∈ item, decide (c = '=') = false := fun c hc => decide_eq_false fun heq => h (heq ▸ hc)
  simp only [keyValue, splitAt, String.toList_ofList]
  rw [List.splitOnP_eq_singleton hfree]
  rfl

/-- A key without an equals sign, one, and a value without one. -/
theorem keyValue_spec {item : List Char} {key : String} {value : List UInt8}
    (h : keyValue item = some (key, value)) :
    ∃ k v rest, item = k ++ '=' :: (v ++ rest) ∧ '=' ∉ k ∧ '=' ∉ v ∧ (rest = [] ∨ '=' ∈ rest) ∧
      key = String.ofList k ∧ cutValue v = some value := by
  by_cases hmem : '=' ∈ item
  · obtain ⟨k, tail, rfl, hk⟩ := List.eq_append_cons_of_mem hmem
    obtain ⟨v, rest, more, hsplit, rfl, hv, hrest⟩ := splitOnP_head tail
    have hfree : ∀ c ∈ k, decide (c = '=') = false := fun c hc => decide_eq_false fun heq => hk (heq ▸ hc)
    simp only [keyValue, splitAt, String.toList_ofList] at h
    rw [List.splitOnP_append_cons_of_forall_mem hfree '=' (by simp), hsplit] at h
    simp only [List.map_cons, Utf8.toByteArray_ofList] at h
    refine ⟨k, v, rest, rfl, hk, hv, hrest, ?_⟩
    rw [cutValue]
    split at h
    · rename_i hlength
      obtain ⟨rfl, rfl⟩ := Prod.mk.inj (Option.some.inj h)
      exact ⟨rfl, if_pos hlength⟩
    · cases h
  · rw [keyValue_of_notMem hmem] at h
    cases h

theorem keyValue_single {k v : List Char} (hk : '=' ∉ k) (hv : '=' ∉ v) :
    keyValue (k ++ '=' :: v) = (cutValue v).map fun value => (String.ofList k, value) := by
  have hfree : ∀ c ∈ k, decide (c = '=') = false := fun c hc => decide_eq_false fun heq => hk (heq ▸ hc)
  have hfree' : ∀ c ∈ v, decide (c = '=') = false := fun c hc => decide_eq_false fun heq => hv (heq ▸ hc)
  simp only [keyValue, splitAt, String.toList_ofList]
  rw [List.splitOnP_append_cons_of_forall_mem hfree '=' (by simp), List.splitOnP_eq_singleton hfree']
  simp only [List.map_cons, List.map_nil, Utf8.toByteArray_ofList, cutValue]
  split <;> rfl

/-! ### The map that is filled -/

def fillMap (items : List (String × List UInt8)) : List (String × List UInt8) :=
  items.foldl (fun entries item => entries.filter (fun entry => entry.1 ≠ item.1) ++ [item]) []

theorem fillMap_append (items : List (String × List UInt8)) (item : String × List UInt8) :
    fillMap (items ++ [item]) = (fillMap items).filter (fun entry => entry.1 ≠ item.1) ++ [item] := by
  rw [fillMap, List.foldl_append]
  rfl

theorem mem_of_mem_fillMap {items : List (String × List UInt8)} {entry : String × List UInt8}
    (h : entry ∈ fillMap items) : entry ∈ items := by
  induction items using List.reverseRecOn with
  | nil => cases h
  | append_singleton items item ih =>
      rw [fillMap_append, List.mem_append] at h
      rcases h with h | h
      · exact List.mem_append_left _ (ih (List.mem_filter.mp h).1)
      · exact List.mem_append_right _ h

theorem exists_mem_fillMap {items : List (String × List UInt8)} {entry : String × List UInt8}
    (h : entry ∈ items) : ∃ entry' ∈ fillMap items, entry'.1 = entry.1 := by
  induction items using List.reverseRecOn with
  | nil => cases h
  | append_singleton items item ih =>
      rw [fillMap_append]
      by_cases hkey : entry.1 = item.1
      · exact ⟨item, List.mem_append_right _ (List.mem_singleton.mpr rfl), hkey.symm⟩
      · rcases List.mem_append.mp h with h | h
        · obtain ⟨entry', hentry', hsame⟩ := ih h
          refine ⟨entry', List.mem_append_left _ (List.mem_filter.mpr ⟨hentry', ?_⟩), hsame⟩
          simpa [hsame] using hkey
        · obtain rfl := List.mem_singleton.mp h
          exact absurd rfl hkey

theorem fillMap_of_nodup {items : List (String × List UInt8)} (h : (items.map Prod.fst).Nodup) :
    fillMap items = items := by
  induction items using List.reverseRecOn with
  | nil => rfl
  | append_singleton items item ih =>
      rw [List.map_append, List.nodup_append] at h
      rw [fillMap_append, ih h.1]
      have hall : ∀ entry ∈ items, decide (entry.1 ≠ item.1) = true := by
        intro entry hentry
        exact decide_eq_true (h.2.2 entry.1 (List.mem_map_of_mem hentry) item.1 (by simp))
      rw [List.filter_eq_self.mpr hall]

theorem getKeyValueMapFromQuotedString_eq (quotedString : String) :
    getKeyValueMapFromQuotedString quotedString =
      ((quotedFields '\u0000' [] quotedString.toList).mapM keyValue).map fillMap := by
  rw [getKeyValueMapFromQuotedString]
  cases (quotedFields '\u0000' [] quotedString.toList).mapM keyValue <;> rfl

/-! ### The fields of what is written -/

structure NameChar (c : Char) : Prop where
  space : isSpace c = false
  quotationMark : isQuotationMark c = false
  eq : c ≠ '='
  brace : c ≠ '}'
  null : c ≠ '\u0000'

theorem nameChar_of_isLabelName {name : String} (h : IsLabelName name) : ∀ c ∈ name.toList, NameChar c := by
  intro c hc
  have hascii : c.toNat < 128 := by
    rcases h.2 c hc with halnum | rfl
    · delta Char.isAlphanum Char.isAlpha Char.isUpper Char.isLower Char.isDigit at halnum
      simp only [Bool.or_eq_true, Bool.and_eq_true, decide_eq_true_eq, ge_iff_le, UInt32.le_iff_toNat_le] at halnum
      change c.val.toNat < 128
      rcases halnum with (⟨-, hle⟩ | ⟨-, hle⟩) | ⟨-, hle⟩
      all_goals exact Nat.lt_of_le_of_lt hle (by decide)
    · decide
  have hall : ∀ n : Fin 128, (Char.ofNat n).isAlphanum = true ∨ Char.ofNat n = '_' →
      isSpace (Char.ofNat n) = false ∧ isQuotationMark (Char.ofNat n) = false ∧ Char.ofNat n ≠ '=' ∧
        Char.ofNat n ≠ '}' ∧ Char.ofNat n ≠ '\u0000' := by decide +kernel
  have hchar : Char.ofNat c.toNat = c := Char.ofNat_toNat c
  obtain ⟨hspace, hmark, heq, hbrace, hnull⟩ := hall ⟨c.toNat, hascii⟩ (by simpa only [hchar] using h.2 c hc)
  simp only [hchar] at hspace hmark heq hbrace hnull
  exact ⟨hspace, hmark, heq, hbrace, hnull⟩

/-- The fields of written labels: a comma stays behind each value but the last. -/
def labelFields (isPrint : Char → Bool) : List (String × String) → List (List Char)
  | [] => []
  | [label] => [renderLabel isPrint label]
  | label :: rest => (label.1.toList ++ '=' :: (quoted isPrint label.2 ++ [','])) :: labelFields isPrint rest

theorem FieldsOf.head {c : Char} {cs : List Char} {items : List (List Char)} (h : FieldsOf (c :: cs) items)
    (hc : isSpace c = false) :
    ∃ item rest items', items = item :: items' ∧ c :: cs = item ++ rest ∧ Stops rest ∧ FieldsOf rest items' := by
  generalize htext : c :: cs = text at h
  cases h with
  | nil => cases htext
  | space hspace _ =>
      obtain ⟨rfl, -⟩ := List.cons.inj htext
      simp [hc] at hspace
  | item _ hstops hfields => exact ⟨_, _, _, rfl, rfl, hstops, hfields⟩

theorem FieldsOf.spaces {cs : List Char} (h : FieldsOf cs []) : ∀ c ∈ cs, isSpace c = true := by
  generalize hitems : ([] : List (List Char)) = items at h
  induction h with
  | nil => simp
  | space hspace _ ih => exact List.forall_mem_cons.mpr ⟨hspace, ih hitems⟩
  | item => cases hitems

theorem FieldsOf.skip {cs item : List Char} {items : List (List Char)} (h : FieldsOf cs (item :: items)) :
    ∃ spaces rest, cs = spaces ++ (item ++ rest) ∧ (∀ c ∈ spaces, isSpace c = true) ∧ Stops rest ∧
      FieldsOf rest items := by
  generalize hitems : item :: items = all at h
  induction h with
  | nil => cases hitems
  | space hspace _ ih =>
      obtain ⟨spaces, rest, rfl, hspaces, hstops, hfields⟩ := ih hitems
      exact ⟨_ :: spaces, rest, rfl, List.forall_mem_cons.mpr ⟨hspace, hspaces⟩, hstops, hfields⟩
  | item _ hstops hfields _ =>
      obtain ⟨rfl, rfl⟩ := List.cons.inj hitems
      exact ⟨[], _, rfl, by simp, hstops, hfields⟩

theorem suffix_eq_nil {p : Char → Bool} {xs ys back : List Char} {c : Char} (h : xs ++ [c] = ys ++ back)
    (hback : ∀ d ∈ back, p d = true) (hc : p c = false) : back = [] := by
  induction back using List.reverseRecOn with
  | nil => rfl
  | append_singleton back d _ =>
      rw [← List.append_assoc] at h
      have hlast := List.append_inj_right' h rfl
      obtain rfl := (List.cons.inj hlast).1
      exact absurd (hback c (by simp)) (by simp [hc])

/-- An item with one equals sign, behind a key that could be a label's. -/
structure Splits (item key value : List Char) : Prop where
  item_eq : item = key ++ '=' :: value
  key_eq : '=' ∉ key
  value_eq : '=' ∉ value
  nonempty : key ≠ []
  chars : ∀ c ∈ key, NameChar c

structure Writable (label : String × String) : Prop where
  name : IsLabelName label.1
  value : '=' ∉ label.2.toList

theorem notMem_quoted {isPrint : Char → Bool} {a : Char} {value : String} (hcase : a = '=' ∨ a = '}')
    (h : a ∉ value.toList) : a ∉ quoted isPrint value := by
  have hquote : a ≠ '"' ∧ a ≠ '\\' := by rcases hcase with rfl | rfl <;> decide
  simp only [quoted, List.cons_append, List.mem_cons, List.mem_append, List.mem_flatMap, List.not_mem_nil, or_false,
    hquote.1, false_or]
  rintro ⟨c, hc, hmem⟩
  rcases escaped isPrint c with ⟨-, hescape⟩ | ⟨-, letter, rest, hescape, -, -, heq, hbrace⟩
  · rw [hescape, List.mem_singleton] at hmem
    exact h (hmem ▸ hc)
  · rw [hescape, List.mem_cons] at hmem
    rcases hcase with rfl | rfl
    · exact hmem.elim hquote.2 heq
    · exact hmem.elim hquote.2 hbrace

theorem Writable.key {label : String × String} (h : Writable label) : '=' ∉ label.1.toList :=
  fun hmem => (nameChar_of_isLabelName h.name _ hmem).eq rfl

theorem Writable.quoted {label : String × String} (h : Writable label) (isPrint : Char → Bool) :
    '=' ∉ quoted isPrint label.2 := notMem_quoted (.inl rfl) h.value

theorem renderLabels_cons {isPrint : Char → Bool} (label : String × String) (rest : List (String × String)) :
    ∃ tail, renderLabels isPrint (label :: rest) = label.1.toList ++ '=' :: tail := by
  cases rest with
  | nil => exact ⟨_, rfl⟩
  | cons next rest =>
      exact ⟨quoted isPrint label.2 ++ ',' :: ' ' :: renderLabels isPrint (next :: rest),
        by simp [renderLabels, renderLabel]⟩

theorem toList_ne_nil {name : String} (h : IsLabelName name) : name.toList ≠ [] := by
  intro hnil
  exact h.1 (String.toList_eq_nil_iff.mp hnil)

/-- The first item of a text that begins with a label: it has the label's key. -/
theorem FieldsOf.first {key tail : List Char} {items : List (List Char)} (h : FieldsOf (key ++ '=' :: tail) items)
    (hkey : '=' ∉ key) (hchars : ∀ c ∈ key, NameChar c) (hnonempty : key ≠ [])
    (hitems : ∀ item ∈ items, ∃ k v, Splits item k v) :
    ∃ value rest items', items = (key ++ '=' :: value) :: items' ∧ tail = value ++ rest ∧ '=' ∉ value ∧
      Stops rest ∧ FieldsOf rest items' := by
  obtain ⟨c, key', rfl⟩ := List.exists_cons_of_ne_nil hnonempty
  obtain ⟨item, rest, items', rfl, htext, hstops, hfields⟩ := h.head (hchars c List.mem_cons_self).space
  obtain ⟨k, v, hsplit⟩ := hitems item List.mem_cons_self
  obtain rfl := hsplit.item_eq
  have hcut : c :: key' ++ '=' :: tail = k ++ '=' :: (v ++ rest) := htext.trans (by simp)
  obtain ⟨rfl, rfl⟩ := (append_cons_inj hkey hsplit.key_eq).mp hcut
  exact ⟨v, rest, items', rfl, rfl, hsplit.value_eq, hstops, hfields⟩

theorem isSpace_comma : isSpace ',' = false := by decide

/-- Between a value and the next key there is one space, with the value's comma in front of it. -/
theorem cut_between {front key value spaces key' : List Char}
    (h : front ++ [',', ' '] ++ key = value ++ spaces ++ key') (hkey : ∀ c ∈ key, NameChar c)
    (hkey' : ∀ c ∈ key', NameChar c) (hspaces : ∀ c ∈ spaces, isSpace c = true) (hne : spaces ≠ []) :
    key = key' ∧ value = front ++ [','] ∧ spaces = [' '] := by
  have hnospace : ∀ {cs : List Char}, (∀ c ∈ cs, NameChar c) → ∀ c ∈ cs, (!isSpace c) = true :=
    fun hcs c hc => by simp [(hcs c hc).space]
  obtain ⟨spaces', d, rfl⟩ := List.eq_nil_or_concat spaces |>.resolve_left hne
  have hd : (!isSpace d) = false := by simp [hspaces d (by simp)]
  have hkeys : key = key' ∧ front ++ [',', ' '] = value ++ (spaces' ++ [d]) := by
    rcases List.append_eq_append_iff.mp h with ⟨s, hfront, hs⟩ | ⟨s, hfront, hs⟩
    · have hnil : s = [] := by
        refine @suffix_eq_nil (fun c => !isSpace c) (value ++ spaces') (front ++ [',', ' ']) s d
          (by simpa using hfront) (fun c hc => ?_) hd
        exact hnospace hkey c (hs ▸ List.mem_append_left _ hc)
      subst hnil
      exact ⟨by simpa using hs, by simpa using hfront.symm⟩
    · have hnil : s = [] := by
        refine @suffix_eq_nil (fun c => !isSpace c) (front ++ [',']) (value ++ (spaces' ++ [d])) s ' '
          (by simpa using hfront) (fun c hc => ?_) (by decide)
        exact hnospace hkey' c (hs ▸ List.mem_append_left _ hc)
      subst hnil
      exact ⟨by simpa using hs.symm, by simpa using hfront⟩
  refine ⟨hkeys.1, ?_⟩
  have hlast : front ++ [','] ++ [' '] = value ++ spaces' ++ [d] := by simpa using hkeys.2
  obtain ⟨hfront, hspace⟩ := List.append_inj' hlast rfl
  have hnil : spaces' = [] :=
    @suffix_eq_nil isSpace _ _ _ _ hfront (fun c hc => hspaces c (by simp [hc])) isSpace_comma
  subst hnil
  exact ⟨by simpa using hfront.symm, by simpa using hspace.symm⟩

theorem labelFields_unique {isPrint : Char → Bool} {labels : List (String × String)} {items : List (List Char)}
    (hlabels : ∀ label ∈ labels, Writable label) (h : FieldsOf (renderLabels isPrint labels) items)
    (hitems : ∀ item ∈ items, ∃ k v, Splits item k v) : items = labelFields isPrint labels := by
  induction labels generalizing items with
  | nil =>
      cases items with
      | nil => rfl
      | cons item items =>
          obtain ⟨k, v, hsplit⟩ := hitems item List.mem_cons_self
          have hmem := h.mem List.mem_cons_self (hsplit.item_eq ▸ List.mem_append_right k List.mem_cons_self)
          cases hmem
  | cons label rest ih =>
      obtain ⟨hlabel, hrest⟩ := List.forall_mem_cons.mp hlabels
      have hkey := hlabel.key
      have hchars := nameChar_of_isLabelName hlabel.name
      have hnonempty := toList_ne_nil hlabel.name
      cases rest with
      | nil =>
          rw [renderLabels, renderLabel] at h
          obtain ⟨value, rest, items', rfl, htail, hvalue, -, hfields⟩ := h.first hkey hchars hnonempty hitems
          have hquoted : '=' ∉ value ++ rest := htail ▸ hlabel.quoted isPrint
          have hnone : items' = [] := by
            cases items' with
            | nil => rfl
            | cons item items' =>
                obtain ⟨k, v, hsplit⟩ := hitems item (by simp)
                have hmem := hfields.mem List.mem_cons_self
                  (hsplit.item_eq ▸ List.mem_append_right k List.mem_cons_self)
                exact absurd (List.mem_append_right value hmem) hquoted
          subst hnone
          have hspaces : rest = [] :=
            @suffix_eq_nil isSpace ('"' :: label.2.toList.flatMap (escape isPrint)) value rest '"'
              (by simpa [quoted] using htail) hfields.spaces (by decide)
          subst hspaces
          rw [List.append_nil] at htail
          rw [← htail]
          rfl
      | cons next rest =>
          obtain ⟨tail, htext⟩ := @renderLabels_cons isPrint next rest
          have hall : renderLabels isPrint (label :: next :: rest) =
              label.1.toList ++ '=' :: (quoted isPrint label.2 ++ ',' :: ' ' :: (next.1.toList ++ '=' :: tail)) := by
            rw [← htext]
            simp [renderLabels, renderLabel]
          rw [hall] at h
          obtain ⟨value, rest', items', rfl, htail, hvalue, hstops, hfields⟩ := h.first hkey hchars hnonempty hitems
          have hnext := hrest next List.mem_cons_self
          cases items' with
          | nil =>
              have hmem : '=' ∈ value ++ rest' := htail ▸ by simp
              rcases List.mem_append.mp hmem with hmem | hmem
              · exact absurd hmem hvalue
              · exact absurd (hfields.spaces '=' hmem) (by decide)
          | cons item items' =>
              obtain ⟨k, v, hsplit⟩ := hitems item (by simp)
              obtain ⟨spaces, rest'', rfl, hspaces, hstops', hfields'⟩ := hfields.skip
              obtain rfl := hsplit.item_eq
              have hne : spaces ≠ [] := by
                rintro rfl
                obtain ⟨c, k', hk⟩ := List.exists_cons_of_ne_nil hsplit.nonempty
                have hspace := hstops c (by simp [hk])
                rw [(hsplit.chars c (hk ▸ List.mem_cons_self)).space] at hspace
                cases hspace
              have hcut : (quoted isPrint label.2 ++ [',', ' '] ++ next.1.toList) ++ '=' :: tail =
                  (value ++ spaces ++ k) ++ '=' :: (v ++ rest'') := by simpa using htail
              have hfront : '=' ∉ quoted isPrint label.2 ++ [',', ' '] ++ next.1.toList := by
                simp [hlabel.quoted isPrint, hnext.key]
              have hfront' : '=' ∉ value ++ spaces ++ k := by
                have hfree : '=' ∉ spaces := fun hmem => absurd (hspaces '=' hmem) (by decide)
                simp [hvalue, hfree, hsplit.key_eq]
              obtain ⟨hbetween, rfl⟩ := (append_cons_inj hfront hfront').mp hcut
              obtain ⟨rfl, rfl, rfl⟩ := cut_between hbetween (nameChar_of_isLabelName hnext.name) hsplit.chars
                hspaces hne
              have hitem : (next.1.toList ++ '=' :: v) ++ rest'' = renderLabels isPrint (next :: rest) := by
                rw [htext]
                simp
              have hfollowing : FieldsOf (renderLabels isPrint (next :: rest)) ((next.1.toList ++ '=' :: v) :: items') :=
                hitem ▸ .item (by simp) hstops' hfields'
              rw [ih hrest hfollowing fun item hitem => hitems item (List.mem_cons_of_mem _ hitem)]
              rfl

/-! ### The values -/

def escapeAll (isPrint : Char → Bool) (cs : List Char) : List Char := cs.flatMap (escape isPrint)

theorem escapeAll_cons (isPrint : Char → Bool) (c : Char) (cs : List Char) :
    escapeAll isPrint (c :: cs) = escape isPrint c ++ escapeAll isPrint cs := List.flatMap_cons

theorem length_le_escapeAll (isPrint : Char → Bool) (cs : List Char) : cs.length ≤ (escapeAll isPrint cs).length := by
  induction cs with
  | nil => exact Nat.zero_le _
  | cons c cs ih =>
      rw [escapeAll_cons, List.length_append, List.length_cons]
      rcases escaped isPrint c with ⟨-, hescape⟩ | ⟨-, letter, rest, hescape, -⟩
      all_goals
        rw [hescape]
        simp only [List.length_cons]
        omega

theorem length_bytes_le (cs : List Char) : cs.length ≤ (Utf8.bytes cs).length := by
  induction cs with
  | nil => exact Nat.zero_le _
  | cons c cs ih =>
      have hpos := c.utf8Size_pos
      rw [Utf8.bytes_cons, List.length_append, List.length_cons, String.length_utf8EncodeChar]
      omega

theorem length_bytes_le_escapeAll (isPrint : Char → Bool) (cs : List Char) :
    (Utf8.bytes cs).length ≤ (Utf8.bytes (escapeAll isPrint cs)).length := by
  induction cs with
  | nil => exact Nat.zero_le _
  | cons c cs ih =>
      have hle := c.utf8Size_le_four
      rw [escapeAll_cons, Utf8.bytes_append, Utf8.bytes_cons, List.length_append, List.length_append,
        String.length_utf8EncodeChar]
      rcases escaped isPrint c with ⟨-, hescape⟩ | ⟨-, letter, rest, hescape, hlong, -⟩
      · rw [hescape]
        simpa using ih
      · have hlength := length_bytes_le (escape isPrint c)
        rw [hescape] at hlength ⊢
        simp only [List.length_cons] at hlength
        rcases hlong with ⟨rfl, hascii⟩ | hlong
        · have hone : c.utf8Size = 1 := by
            rw [← String.length_utf8EncodeChar, Utf8.utf8EncodeChar_of_ascii hascii]
            rfl
          omega
        · omega

theorem escapeAll_eq_self_iff {isPrint : Char → Bool} {cs : List Char} :
    escapeAll isPrint cs = cs ↔ ∀ c ∈ cs, WrittenPlain isPrint c := by
  induction cs with
  | nil => exact iff_of_true rfl (by simp)
  | cons c cs ih =>
      rw [escapeAll_cons, List.forall_mem_cons]
      rcases escaped isPrint c with ⟨hplain, hescape⟩ | ⟨hplain, letter, rest, hescape, -⟩
      · rw [hescape, List.singleton_append, List.cons.injEq, ih]
        simp [hplain]
      · refine iff_of_false (fun h => ?_) fun h => hplain h.1
        have hlength := congrArg List.length h
        have hle := length_le_escapeAll isPrint cs
        rw [hescape] at hlength
        simp only [List.length_append, List.length_cons] at hlength
        omega

theorem bytes_backslash (cs : List Char) : Utf8.bytes ('\\' :: cs) = 0x5C :: Utf8.bytes cs := rfl

theorem escape_backslash (isPrint : Char → Bool) : escape isPrint '\\' = ['\\', '\\'] := by
  rcases escaped isPrint '\\' with ⟨hplain, -⟩ | ⟨-, letter, rest, hescape, -, hbackslash, -⟩
  · exact absurd rfl hplain.2.1
  · obtain ⟨rfl, rfl⟩ := hbackslash rfl
    exact hescape

theorem bytes_escapeAll_ne_nil {isPrint : Char → Bool} {cs : List Char} (hcs : cs ≠ []) :
    Utf8.bytes (escapeAll isPrint cs) ≠ [] := by
  intro hnil
  have hlength := length_bytes_le_escapeAll isPrint cs
  have hpos := length_bytes_le cs
  rw [hnil, List.length_nil] at hlength
  exact hcs (List.length_eq_zero_iff.mp (by omega))

/-- The value ends there: behind another character a byte would be missing. -/
theorem eq_nil_of_dropLast_backslash {isPrint : Char → Bool} {cs : List Char}
    (h : (0x5C :: Utf8.bytes (escapeAll isPrint cs)).dropLast = Utf8.bytes cs) : cs = [] := by
  by_contra hcs
  rw [List.dropLast_cons_of_ne_nil (bytes_escapeAll_ne_nil hcs)] at h
  have hascii : ('\\' : Char).val < 128 := by decide
  obtain ⟨ds, rfl, hds⟩ := @Utf8.head_of_bytes_eq '\\' hascii cs _ h.symm
  have hle := length_bytes_le_escapeAll isPrint ds
  have hlength := congrArg List.length hds
  rw [escapeAll_cons, escape_backslash, Utf8.bytes_append, List.length_dropLast, List.length_append] at hlength
  have htwo : (Utf8.bytes ['\\', '\\']).length = 2 := rfl
  omega

/-- Without its last byte the written value is the value when that ends in the one character that is escaped,
a backslash. -/
theorem dropLast_bytes_escapeAll_iff {isPrint : Char → Bool} {cs : List Char} (hcs : cs ≠ []) :
    (Utf8.bytes (escapeAll isPrint cs)).dropLast = Utf8.bytes cs ↔
      ∃ front, cs = front ++ ['\\'] ∧ ∀ c ∈ front, WrittenPlain isPrint c := by
  constructor
  · intro h
    induction cs with
    | nil => exact absurd rfl hcs
    | cons c cs ih =>
        rw [escapeAll_cons, Utf8.bytes_append] at h
        rcases escaped isPrint c with ⟨hplain, hescape⟩ | ⟨-, letter, rest, hescape, -, hbackslash, -⟩
        · rw [hescape] at h
          by_cases hnil : cs = []
          · subst hnil
            have hlength := congrArg List.length h
            have hpos := c.utf8Size_pos
            simp [escapeAll] at hlength
            omega
          · rw [List.dropLast_append_of_ne_nil (bytes_escapeAll_ne_nil hnil), Utf8.bytes_cons, Utf8.bytes_nil,
              List.append_nil, Utf8.bytes_cons] at h
            obtain ⟨front, rfl, hfront⟩ := ih hnil (List.append_cancel_left h)
            exact ⟨c :: front, rfl, List.forall_mem_cons.mpr ⟨hplain, hfront⟩⟩
        · rw [hescape, bytes_backslash, List.cons_append, List.dropLast_cons_of_ne_nil (by simp)] at h
          have hascii : ('\\' : Char).val < 128 := by decide
          obtain ⟨ds, hds, hbytes⟩ := @Utf8.head_of_bytes_eq '\\' hascii (c :: cs) _ h.symm
          obtain ⟨rfl, rfl⟩ := List.cons.inj hds
          obtain ⟨rfl, rfl⟩ := hbackslash rfl
          obtain rfl := @eq_nil_of_dropLast_backslash isPrint cs hbytes.symm
          exact ⟨[], rfl, by simp⟩
  · rintro ⟨front, rfl, hfront⟩
    have hescape : escapeAll isPrint (front ++ ['\\']) = front ++ ['\\', '\\'] := by
      have hself := escapeAll_eq_self_iff.mpr hfront
      rw [escapeAll] at hself ⊢
      rw [List.flatMap_append, hself]
      simp [escape_backslash]
    rw [hescape, Utf8.bytes_append, Utf8.bytes_append]
    exact List.dropLast_append_of_ne_nil (by simp)

theorem quoted_eq (isPrint : Char → Bool) (value : String) :
    quoted isPrint value = '"' :: (escapeAll isPrint value.toList ++ ['"']) := rfl

theorem bytes_quote (cs : List Char) : Utf8.bytes ('"' :: cs) = 0x22 :: Utf8.bytes cs := rfl

theorem cutValue_comma (isPrint : Char → Bool) (value : String) :
    cutValue (quoted isPrint value ++ [',']) = some (Utf8.bytes (escapeAll isPrint value.toList)) := by
  have hbytes : Utf8.bytes (quoted isPrint value ++ [',']) =
      0x22 :: (Utf8.bytes (escapeAll isPrint value.toList) ++ [0x22, 0x2C]) := by
    rw [quoted_eq, List.cons_append, bytes_quote, List.append_assoc, Utf8.bytes_append]
    rfl
  rw [cutValue, hbytes, if_pos (by simp)]
  simp

theorem cutValue_last (isPrint : Char → Bool) (value : String) :
    cutValue (quoted isPrint value) =
      if value = "" then none else some (Utf8.bytes (escapeAll isPrint value.toList)).dropLast := by
  have hbytes : Utf8.bytes (quoted isPrint value) =
      0x22 :: (Utf8.bytes (escapeAll isPrint value.toList) ++ [0x22]) := by
    rw [quoted_eq, bytes_quote, Utf8.bytes_append]
    rfl
  rw [cutValue, hbytes]
  by_cases hempty : value = ""
  · subst hempty
    rfl
  · have hne : value.toList ≠ [] := fun hnil => hempty (String.toList_eq_nil_iff.mp hnil)
    have hpos := List.length_pos_of_ne_nil (@bytes_escapeAll_ne_nil isPrint _ hne)
    rw [if_neg hempty, if_pos (by simp; omega)]
    simp only [List.length_cons, List.length_append, List.length_nil, List.drop_succ_cons, List.drop_zero]
    rw [List.take_append_of_le_length (by omega), List.dropLast_eq_take]
    rfl

/-! ### Reading back -/

/-- Written as it is, and without the characters at which the text is cut. -/
def PlainValue (isPrint : Char → Bool) (cs : List Char) : Prop :=
  ∀ c ∈ cs, WrittenPlain isPrint c ∧ c ≠ '=' ∧ c ≠ '}'

/-- The values are plain, but that the last one ends in a backslash. -/
def Recoverable (isPrint : Char → Bool) : List (String × String) → Prop
  | [] => True
  | [label] => ∃ front, label.2.toList = front ++ ['\\'] ∧ PlainValue isPrint front
  | label :: rest => PlainValue isPrint label.2.toList ∧ Recoverable isPrint rest

def MapOf (entries : List (String × List UInt8)) (labels : List (String × String)) : Prop :=
  ∀ key, entries.lookup key = (labels.lookup key).map fun value => Utf8.bytes value.toList

theorem split_render (isPrint : Char → Bool) (metric : LabelledMetric) :
    (split (metric.render isPrint) '{' '}').toList =
      (renderLabels isPrint metric.labels ++ ['}']).takeWhile (· ≠ '}') := by
  have hdrop : ∀ rest, (metric.name.toList ++ '{' :: rest).dropWhile (· ≠ '{') = '{' :: rest := by
    intro rest
    have hname : ∀ c ∈ metric.name.toList, decide (c ≠ '{') = true := by
      intro c hc
      exact decide_eq_true fun h => metric.name_ok (h ▸ hc)
    rw [List.dropWhile_append_of_pos hname]
    simp
  simp only [split, LabelledMetric.render, String.toList_ofList, List.append_assoc, List.cons_append, hdrop]

theorem takeWhile_append_brace {cs : List Char} (h : '}' ∉ cs) : (cs ++ ['}']).takeWhile (· ≠ '}') = cs := by
  have hall : ∀ c ∈ cs, decide (c ≠ '}') = true := fun c hc => decide_eq_true fun heq => h (heq ▸ hc)
  rw [List.takeWhile_append_of_pos hall]
  simp

theorem notMem_renderLabels {isPrint : Char → Bool} {labels : List (String × String)}
    (hlabels : ∀ label ∈ labels, IsLabelName label.1 ∧ '}' ∉ label.2.toList) : '}' ∉ renderLabels isPrint labels := by
  induction labels with
  | nil => simp [renderLabels]
  | cons label rest ih =>
      obtain ⟨hlabel, hrest⟩ := List.forall_mem_cons.mp hlabels
      have hname : '}' ∉ label.1.toList := fun hmem => (nameChar_of_isLabelName hlabel.1 _ hmem).brace rfl
      have hfirst : '}' ∉ renderLabel isPrint label := by
        simp [renderLabel, hname, notMem_quoted (.inr rfl) hlabel.2]
      cases rest with
      | nil => exact hfirst
      | cons next rest =>
          rw [renderLabels]
          · simp [hfirst, ih hrest]
          · simp

theorem count_renderLabels {isPrint : Char → Bool} {labels : List (String × String)}
    (hlabels : ∀ label ∈ labels, Writable label) : (renderLabels isPrint labels).count '=' = labels.length := by
  induction labels with
  | nil => rfl
  | cons label rest ih =>
      obtain ⟨hlabel, hrest⟩ := List.forall_mem_cons.mp hlabels
      have hfirst : (renderLabel isPrint label).count '=' = 1 := by
        rw [renderLabel, List.count_append, List.count_cons_self, List.count_eq_zero.mpr hlabel.key,
          List.count_eq_zero.mpr (hlabel.quoted isPrint)]
      cases rest with
      | nil => exact hfirst
      | cons next rest =>
          rw [renderLabels]
          · have hnext := ih hrest
            rw [List.count_append, hfirst, List.count_cons_of_ne (by decide), List.count_cons_of_ne (by decide), hnext]
            simp only [List.length_cons]
            omega
          · simp

theorem forall₂_of_mapM {α β : Type} {f : α → Option β} {xs : List α} {ys : List β} (h : xs.mapM f = some ys) :
    List.Forall₂ (fun x y => f x = some y) xs ys := by
  induction xs generalizing ys with
  | nil =>
      obtain rfl : [] = ys := by simpa using h
      exact .nil
  | cons x xs ih =>
      rw [List.mapM_cons] at h
      cases hx : f x with
      | none => simp [hx] at h
      | some y =>
          cases hxs : xs.mapM f with
          | none => simp [hx, hxs] at h
          | some ys' =>
              obtain rfl : y :: ys' = ys := by simpa [hx, hxs] using h
              exact .cons hx (ih hxs)

theorem exists_mem_left {α β : Type} {R : α → β → Prop} {xs : List α} {ys : List β} (h : List.Forall₂ R xs ys)
    {y : β} (hy : y ∈ ys) : ∃ x ∈ xs, R x y := by
  induction h with
  | nil => cases hy
  | cons hxy _ ih =>
      rcases List.mem_cons.mp hy with rfl | hy
      · exact ⟨_, List.mem_cons_self, hxy⟩
      · obtain ⟨x, hx, hR⟩ := ih hy
        exact ⟨x, List.mem_cons_of_mem _ hx, hR⟩

theorem length_le_sum {counts : List ℕ} (hpos : ∀ n ∈ counts, 1 ≤ n) : counts.length ≤ counts.sum := by
  induction counts with
  | nil => exact Nat.le_refl _
  | cons n counts ih =>
      obtain ⟨hn, hrest⟩ := List.forall_mem_cons.mp hpos
      have hle := ih hrest
      simp only [List.sum_cons, List.length_cons]
      omega

theorem eq_one_of_sum_le {counts : List ℕ} (hpos : ∀ n ∈ counts, 1 ≤ n) (hsum : counts.sum ≤ counts.length) :
    ∀ n ∈ counts, n = 1 := by
  induction counts with
  | nil => simp
  | cons n counts ih =>
      obtain ⟨hn, hrest⟩ := List.forall_mem_cons.mp hpos
      have hlower := length_le_sum hrest
      simp only [List.sum_cons, List.length_cons] at hsum
      exact List.forall_mem_cons.mpr ⟨by omega, ih hrest (by omega)⟩

theorem lookup_of_nodup {β : Type} {entries : List (String × β)} (h : (entries.map Prod.fst).Nodup) {key : String}
    {value : β} (hmem : (key, value) ∈ entries) : entries.lookup key = some value := by
  induction entries with
  | nil => cases hmem
  | cons entry entries ih =>
      obtain ⟨key', value'⟩ := entry
      rw [List.map_cons, List.nodup_cons] at h
      rcases List.mem_cons.mp hmem with heq | hmem
      · obtain ⟨rfl, rfl⟩ := Prod.mk.inj heq
        exact List.lookup_cons_self
      · have hkey : key ∈ entries.map Prod.fst := List.mem_map_of_mem hmem
        have hne : key ≠ key' := fun heq => h.1 (heq ▸ hkey)
        rw [List.lookup_cons, beq_eq_false_iff_ne.mpr hne]
        exact ih h.2 hmem

theorem mem_of_lookup {β : Type} {entries : List (String × β)} {key : String} {value : β}
    (h : entries.lookup key = some value) : (key, value) ∈ entries := by
  obtain ⟨front, back, rfl, -⟩ := List.lookup_eq_some_iff.mp h
  simp

/-! ### What is read is what was written -/

theorem cutValue_subset {v : List Char} {value : List UInt8} (h : cutValue v = some value) :
    value ⊆ Utf8.bytes v := by
  unfold cutValue at h
  split at h
  · obtain rfl := Option.some.inj h
    exact fun byte hbyte => List.mem_of_mem_drop (List.mem_of_mem_take hbyte)
  · cases h

/-- A value that is found has neither of the characters at which the text is cut. -/
theorem notMem_of_found {text : List Char} {items : List (List Char)} {raw : List (String × List UInt8)}
    (hfields : FieldsOf text items) (hbrace : '}' ∉ text) (hraw : List.Forall₂ (fun item e => keyValue item = some e) items raw)
    {key value : String} (hmem : (key, Utf8.bytes value.toList) ∈ raw) :
    '=' ∉ value.toList ∧ '}' ∉ value.toList := by
  obtain ⟨item, hitem, hkeyValue⟩ := exists_mem_left hraw hmem
  obtain ⟨k, v, rest, rfl, -, hv, -, -, hcut⟩ := keyValue_spec hkeyValue
  have hsubset := cutValue_subset hcut
  have hcase : ∀ a : Char, a.val < 128 → a ∈ value.toList → a ∈ v := by
    intro a ha hmem
    exact (Utf8.mem_bytes_iff ha).mp (hsubset ((Utf8.mem_bytes_iff ha).mpr hmem))
  refine ⟨fun heq => hv (hcase '=' (by decide) heq), fun hb => hbrace (hfields.mem hitem ?_)⟩
  have hmem := hcase '}' (by decide) hb
  simp [hmem]

/-- Every item has one equals sign, behind a label's key. -/
theorem splits_of_map {isPrint : Char → Bool} {labels : List (String × String)} {items : List (List Char)}
    {raw : List (String × List UInt8)} (hnames : ∀ label ∈ labels, Writable label)
    (hnodup : (labels.map Prod.fst).Nodup) (hfields : FieldsOf (renderLabels isPrint labels) items)
    (hraw : List.Forall₂ (fun item e => keyValue item = some e) items raw) (hmap : MapOf (fillMap raw) labels) :
    ∀ item ∈ items, ∃ k v, Splits item k v := by
  have hitem : ∀ item ∈ items, ∃ e ∈ raw, keyValue item = some e := fun item hitem =>
    exists_mem_left hraw.flip hitem
  have hpositive : ∀ n ∈ items.map (List.count '='), 1 ≤ n := by
    intro n hn
    obtain ⟨item, hmem, rfl⟩ := List.mem_map.mp hn
    obtain ⟨e, -, hkeyValue⟩ := hitem item hmem
    obtain ⟨k, v, rest, rfl, -⟩ := keyValue_spec hkeyValue
    exact List.one_le_count_iff.mpr (by simp)
  have hlabelKey : ∀ key value, (key, value) ∈ raw → key ∈ labels.map Prod.fst := by
    intro key value hmem
    obtain ⟨⟨key', value'⟩, hentry, hkey⟩ := exists_mem_fillMap hmem
    obtain rfl : key' = key := hkey
    by_contra hnot
    have hnone : labels.lookup key' = none := by
      rw [List.lookup_eq_none_iff]
      intro label hlabel
      refine bne_iff_ne.mpr fun heq => hnot ?_
      rw [heq]
      exact List.mem_map_of_mem hlabel
    have hlookup := hmap key'
    rw [hnone, Option.map_none, List.lookup_eq_none_iff] at hlookup
    simpa using hlookup (key', value') hentry
  have hsubset : labels.map Prod.fst ⊆ raw.map Prod.fst := by
    intro key hkey
    obtain ⟨⟨key, value⟩, hlabel, rfl⟩ := List.mem_map.mp hkey
    have hlookup := hmap key
    rw [lookup_of_nodup hnodup hlabel] at hlookup
    exact List.mem_map_of_mem (mem_of_mem_fillMap (mem_of_lookup hlookup))
  have hsum : (items.map (List.count '=')).sum ≤ (items.map (List.count '=')).length := by
    have hle := (List.Nodup.subperm hnodup hsubset).length_le
    rw [List.length_map, List.length_map, ← hraw.length_eq] at hle
    rw [← hfields.count_eq (by decide), count_renderLabels hnames, List.length_map]
    exact hle
  have hone := eq_one_of_sum_le hpositive hsum
  intro item hmem
  obtain ⟨⟨key, value⟩, hentry, hkeyValue⟩ := hitem item hmem
  obtain ⟨k, v, rest, rfl, hk, hv, hrest, rfl, -⟩ := keyValue_spec hkeyValue
  have hcount := hone _ (List.mem_map_of_mem hmem)
  have hnone : '=' ∉ rest := by
    rw [List.count_append, List.count_cons_self, List.count_append] at hcount
    exact List.count_eq_zero.mp (by omega)
  obtain rfl : rest = [] := hrest.resolve_right hnone
  obtain ⟨label, hlabel, hkey⟩ := List.mem_map.mp (hlabelKey _ _ hentry)
  have hname := (hnames label hlabel).name
  have hchars : k = label.1.toList := by rw [hkey, String.toList_ofList]
  subst hchars
  exact ⟨label.1.toList, v, ⟨by simp, hk, hv, toList_ne_nil hname, nameChar_of_isLabelName hname⟩⟩

theorem labelFields_cons {isPrint : Char → Bool} (label next : String × String) (rest : List (String × String)) :
    labelFields isPrint (label :: next :: rest) =
      (label.1.toList ++ '=' :: (quoted isPrint label.2 ++ [','])) :: labelFields isPrint (next :: rest) := by
  rw [labelFields]
  simp

theorem keyValue_comma {isPrint : Char → Bool} {label : String × String} (h : Writable label) :
    keyValue (label.1.toList ++ '=' :: (quoted isPrint label.2 ++ [','])) =
      some (label.1, Utf8.bytes (escapeAll isPrint label.2.toList)) := by
  have hvalue : '=' ∉ quoted isPrint label.2 ++ [','] := by simp [h.quoted isPrint]
  rw [keyValue_single h.key hvalue, cutValue_comma]
  simp

theorem keyValue_last {isPrint : Char → Bool} {label : String × String} (h : Writable label) :
    keyValue (renderLabel isPrint label) =
      if label.2 = "" then none
      else some (label.1, (Utf8.bytes (escapeAll isPrint label.2.toList)).dropLast) := by
  rw [renderLabel, keyValue_single h.key (h.quoted isPrint), cutValue_last]
  by_cases hempty : label.2 = ""
  · rw [if_pos hempty, if_pos hempty]
    rfl
  · rw [if_neg hempty, if_neg hempty]
    simp

theorem keys_of_labelFields {isPrint : Char → Bool} {labels : List (String × String)}
    {raw : List (String × List UInt8)} (hlabels : ∀ label ∈ labels, Writable label)
    (hraw : List.Forall₂ (fun item e => keyValue item = some e) (labelFields isPrint labels) raw) :
    raw.map Prod.fst = labels.map Prod.fst := by
  induction labels generalizing raw with
  | nil =>
      cases hraw
      rfl
  | cons label rest ih =>
      obtain ⟨hlabel, hrest⟩ := List.forall_mem_cons.mp hlabels
      cases rest with
      | nil =>
          cases hraw with
          | cons hfirst hnone =>
              cases hnone
              rw [keyValue_last hlabel] at hfirst
              split at hfirst
              · cases hfirst
              · obtain rfl := Option.some.inj hfirst
                rfl
      | cons next rest =>
          rw [labelFields_cons] at hraw
          cases hraw with
          | cons hfirst hraw =>
              rw [keyValue_comma hlabel] at hfirst
              obtain rfl := Option.some.inj hfirst
              rw [List.map_cons, ih hrest hraw]
              rfl

theorem plainValue_of_escapeAll {isPrint : Char → Bool} {value : String} (heq : '=' ∉ value.toList)
    (hbrace : '}' ∉ value.toList) {front : List Char} (hfront : front ⊆ value.toList)
    (hplain : ∀ c ∈ front, WrittenPlain isPrint c) : PlainValue isPrint front :=
  fun c hc => ⟨hplain c hc, fun h => heq (h ▸ hfront hc), fun h => hbrace (h ▸ hfront hc)⟩

theorem recoverable_of_entries {isPrint : Char → Bool} {labels : List (String × String)}
    {raw : List (String × List UInt8)} (hlabels : ∀ label ∈ labels, Writable label ∧ '}' ∉ label.2.toList)
    (hnodup : (labels.map Prod.fst).Nodup)
    (hraw : List.Forall₂ (fun item e => keyValue item = some e) (labelFields isPrint labels) raw)
    (hfound : ∀ label ∈ labels, (label.1, Utf8.bytes label.2.toList) ∈ raw) : Recoverable isPrint labels := by
  induction labels generalizing raw with
  | nil => trivial
  | cons label rest ih =>
      obtain ⟨⟨hlabel, hbrace⟩, hrest⟩ := List.forall_mem_cons.mp hlabels
      obtain ⟨hfirstFound, hrestFound⟩ := List.forall_mem_cons.mp hfound
      cases rest with
      | nil =>
          cases hraw with
          | cons hfirst hnone =>
              cases hnone
              rw [keyValue_last hlabel] at hfirst
              split at hfirst
              · cases hfirst
              · rename_i hempty
                obtain rfl := Option.some.inj hfirst
                have hvalue := (Prod.mk.inj (List.mem_singleton.mp hfirstFound)).2
                have hne : label.2.toList ≠ [] := fun hnil => hempty (String.toList_eq_nil_iff.mp hnil)
                obtain ⟨front, hfront, hplain⟩ := (dropLast_bytes_escapeAll_iff hne).mp hvalue.symm
                refine ⟨front, hfront, plainValue_of_escapeAll hlabel.value hbrace (fun c hc => ?_) hplain⟩
                exact hfront ▸ List.mem_append_left _ hc
      | cons next rest =>
          rw [labelFields_cons] at hraw
          cases hraw with
          | cons hfirst hraw =>
              rw [keyValue_comma hlabel] at hfirst
              obtain rfl := Option.some.inj hfirst
              have hkeys := keys_of_labelFields (fun label hlabel => (hrest label hlabel).1) hraw
              rw [List.map_cons, List.nodup_cons] at hnodup
              have hother : ∀ value, (label.1, value) ∉ _ := fun value hmem =>
                hnodup.1 (hkeys ▸ List.mem_map_of_mem hmem)
              have hself : escapeAll isPrint label.2.toList = label.2.toList := by
                rcases List.mem_cons.mp hfirstFound with heq | hmem
                · exact Utf8.bytes_injective (Prod.mk.inj heq).2.symm
                · exact absurd hmem (hother _)
              have hplain := plainValue_of_escapeAll hlabel.value hbrace (List.Subset.refl _)
                (escapeAll_eq_self_iff.mp hself)
              refine ⟨hplain, ih hrest hnodup.2 hraw fun other hmem => ?_⟩
              rcases List.mem_cons.mp (hrestFound other hmem) with heq | hfound
              · have hkey : label.1 ∈ (next :: rest).map Prod.fst :=
                  (Prod.mk.inj heq).1 ▸ List.mem_map_of_mem hmem
                exact absurd hkey hnodup.1
              · exact hfound

theorem recoverable_of_map {isPrint : Char → Bool} {metric : LabelledMetric} {entries : List (String × List UInt8)}
    (hread : getKeyValueMapFromQuotedString (split (metric.render isPrint) '{' '}') = some entries)
    (hmap : MapOf entries metric.labels) : Recoverable isPrint metric.labels := by
  rw [getKeyValueMapFromQuotedString_eq] at hread
  obtain ⟨raw, hraw, rfl⟩ := Option.map_eq_some_iff.mp hread
  have htext := split_render isPrint metric
  generalize (split (metric.render isPrint) '{' '}').toList = text at htext hraw
  have hfields := fieldsOf_quotedFields text
  have hrelated := forall₂_of_mapM hraw
  have hbrace : '}' ∉ text := by
    intro hmem
    rw [htext] at hmem
    exact absurd (List.all_eq_true.mp List.all_takeWhile '}' hmem) (by simp)
  have hfound : ∀ label ∈ metric.labels, (label.1, Utf8.bytes label.2.toList) ∈ raw := by
    intro label hlabel
    have hlookup := hmap label.1
    rw [@lookup_of_nodup _ _ metric.nodup label.1 label.2 hlabel] at hlookup
    exact mem_of_mem_fillMap (mem_of_lookup hlookup)
  have hwritable : ∀ label ∈ metric.labels, Writable label ∧ '}' ∉ label.2.toList := by
    intro label hlabel
    obtain ⟨heq, hb⟩ := notMem_of_found hfields hbrace hrelated (hfound label hlabel)
    exact ⟨⟨metric.names label hlabel, heq⟩, hb⟩
  rw [takeWhile_append_brace (notMem_renderLabels fun label hlabel =>
    ⟨(hwritable label hlabel).1.name, (hwritable label hlabel).2⟩)] at htext
  subst htext
  have hsplits := splits_of_map (fun label hlabel => (hwritable label hlabel).1) metric.nodup hfields hrelated hmap
  rw [labelFields_unique (fun label hlabel => (hwritable label hlabel).1) hfields hsplits] at hrelated
  exact recoverable_of_entries hwritable metric.nodup hrelated hfound

/-! ### Plain values are read -/

theorem quotedFields_append {lastQuote : Char} {field front rest : List Char}
    (h : ∀ c ∈ front, ∀ field rest, quotedFields lastQuote field (c :: rest) =
      quotedFields lastQuote (field ++ [c]) rest) :
    quotedFields lastQuote field (front ++ rest) = quotedFields lastQuote (field ++ front) rest := by
  induction front generalizing field with
  | nil => simp
  | cons c front ih =>
      obtain ⟨hc, hfront⟩ := List.forall_mem_cons.mp h
      rw [List.cons_append, hc, ih hfront]
      simp

theorem quotedFields_outside {c : Char} (hnull : c ≠ '\u0000') (hmark : isQuotationMark c = false)
    (hspace : isSpace c = false) (field rest : List Char) :
    quotedFields '\u0000' field (c :: rest) = quotedFields '\u0000' (field ++ [c]) rest := by
  rw [quotedFields, if_neg hnull, if_neg (by simp), if_neg (by simp [hmark]), if_neg (by simp [hspace])]

theorem quotedFields_inside {c : Char} (hc : c ≠ '"') (field rest : List Char) :
    quotedFields '"' field (c :: rest) = quotedFields '"' (field ++ [c]) rest := by
  rw [quotedFields, if_neg hc, if_pos (by decide)]

theorem quotedFields_label {key value field rest : List Char} (hkey : ∀ c ∈ key, NameChar c) (hvalue : '"' ∉ value) :
    quotedFields '\u0000' field (key ++ '=' :: '"' :: (value ++ '"' :: rest)) =
      quotedFields '\u0000' (field ++ (key ++ '=' :: '"' :: (value ++ ['"']))) rest := by
  rw [quotedFields_append fun c hc => quotedFields_outside (hkey c hc).null (hkey c hc).quotationMark (hkey c hc).space,
    quotedFields_outside (by decide) (by decide) (by decide)]
  have hopen : ∀ field rest, quotedFields '\u0000' field ('"' :: rest) = quotedFields '"' (field ++ ['"']) rest := by
    intro field rest
    rw [quotedFields, if_neg (by decide), if_neg (by simp), if_pos (by decide)]
  have hclose : ∀ field rest, quotedFields '"' field ('"' :: rest) = quotedFields '\u0000' (field ++ ['"']) rest := by
    intro field rest
    rw [quotedFields, if_pos rfl]
  rw [hopen, quotedFields_append fun c hc => quotedFields_inside fun heq => hvalue (heq ▸ hc), hclose]
  simp

/-- What is asked of a value, at the end or before. -/
inductive ValueRead (isPrint : Char → Bool) (value : List Char) (last : Bool) : Prop
  | plain (last_eq : last = false) (plain : PlainValue isPrint value)
  | backslash (last_eq : last = true) (front : List Char) (value_eq : value = front ++ ['\\'])
      (plain : PlainValue isPrint front)

theorem Recoverable.head {isPrint : Char → Bool} {label : String × String} {rest : List (String × String)}
    (h : Recoverable isPrint (label :: rest)) :
    ValueRead isPrint label.2.toList rest.isEmpty ∧ Recoverable isPrint rest := by
  cases rest with
  | nil =>
      obtain ⟨front, hfront, hplain⟩ := h
      exact ⟨.backslash rfl front hfront hplain, trivial⟩
  | cons next rest => exact ⟨.plain rfl h.1, h.2⟩

theorem escapeAll_of_plainValue {isPrint : Char → Bool} {cs : List Char} (h : PlainValue isPrint cs) :
    escapeAll isPrint cs = cs := escapeAll_eq_self_iff.mpr fun c hc => (h c hc).1

theorem ValueRead.escapeAll {isPrint : Char → Bool} {value : List Char} {last : Bool}
    (h : ValueRead isPrint value last) :
    escapeAll isPrint value = value ++ if last then ['\\'] else [] := by
  cases h with
  | plain hlast hplain => simp [hlast, escapeAll_of_plainValue hplain]
  | backslash hlast front hvalue hplain =>
      subst hvalue
      have hfront := escapeAll_of_plainValue hplain
      rw [Prometheus.escapeAll] at hfront ⊢
      rw [List.flatMap_append, hfront]
      simp [escape_backslash, hlast]

theorem ValueRead.free {isPrint : Char → Bool} {value : List Char} {last : Bool} (h : ValueRead isPrint value last) :
    '"' ∉ value ∧ '=' ∉ value ∧ '}' ∉ value := by
  have hfree : ∀ {cs}, PlainValue isPrint cs → '"' ∉ cs ∧ '=' ∉ cs ∧ '}' ∉ cs := fun hplain =>
    ⟨fun hc => (hplain _ hc).1.1 rfl, fun hc => (hplain _ hc).2.1 rfl, fun hc => (hplain _ hc).2.2 rfl⟩
  cases h with
  | plain _ hplain => exact hfree hplain
  | backslash _ front hvalue hplain =>
      subst hvalue
      simpa using hfree hplain

theorem quotedFields_renderLabel {isPrint : Char → Bool} {label : String × String} {last : Bool}
    (hname : IsLabelName label.1) (hvalue : ValueRead isPrint label.2.toList last) (rest : List Char) :
    quotedFields '\u0000' [] (renderLabel isPrint label ++ rest) =
      quotedFields '\u0000' (renderLabel isPrint label) rest := by
  have hquote : '"' ∉ escapeAll isPrint label.2.toList := by
    rw [hvalue.escapeAll]
    cases last <;> simp [hvalue.free.1]
  have hfields := @quotedFields_label label.1.toList _ [] rest (nameChar_of_isLabelName hname) hquote
  simpa [renderLabel, quoted_eq] using hfields

theorem quotedFields_renderLabels {isPrint : Char → Bool} {labels : List (String × String)}
    (hnames : ∀ label ∈ labels, IsLabelName label.1) (h : Recoverable isPrint labels) :
    quotedFields '\u0000' [] (renderLabels isPrint labels) = labelFields isPrint labels := by
  induction labels with
  | nil => rfl
  | cons label rest ih =>
      obtain ⟨hname, hrest⟩ := List.forall_mem_cons.mp hnames
      obtain ⟨hvalue, hfollowing⟩ := h.head
      have hne : renderLabel isPrint label ≠ [] := by simp [renderLabel]
      cases rest with
      | nil =>
          have hfields := quotedFields_renderLabel hname hvalue []
          rw [List.append_nil] at hfields
          rw [renderLabels, hfields, quotedFields, if_neg hne]
          rfl
      | cons next rest =>
          rw [renderLabels, quotedFields_renderLabel hname hvalue, quotedFields_outside (by decide) (by decide)
            (by decide), labelFields_cons, ← ih hrest hfollowing]
          · rw [quotedFields, if_neg (by decide), if_neg (by simp), if_neg (by decide), if_pos (by decide),
              if_neg (by simp)]
            simp [renderLabel]
          · simp

theorem mapM_labelFields {isPrint : Char → Bool} {labels : List (String × String)}
    (hnames : ∀ label ∈ labels, IsLabelName label.1) (h : Recoverable isPrint labels) :
    (labelFields isPrint labels).mapM keyValue =
      some (labels.map fun label => (label.1, Utf8.bytes label.2.toList)) := by
  induction labels with
  | nil => rfl
  | cons label rest ih =>
      obtain ⟨hname, hrest⟩ := List.forall_mem_cons.mp hnames
      obtain ⟨hvalue, hfollowing⟩ := h.head
      have hwritable : Writable label := ⟨hname, hvalue.free.2.1⟩
      have hescape := hvalue.escapeAll
      cases rest with
      | nil =>
          have hempty : label.2 ≠ "" := by
            cases hvalue with
            | plain hlast => cases hlast
            | backslash _ front hfront =>
                intro hempty
                rw [hempty] at hfront
                simp at hfront
          have hbytes : (Utf8.bytes (Prometheus.escapeAll isPrint label.2.toList)).dropLast =
              Utf8.bytes label.2.toList := by
            rw [hescape, List.isEmpty_nil, if_pos rfl, Utf8.bytes_append]
            exact List.dropLast_concat
          rw [labelFields, List.mapM_cons, keyValue_last hwritable, if_neg hempty, hbytes]
          rfl
      | cons next rest =>
          have hself : Prometheus.escapeAll isPrint label.2.toList = label.2.toList := by simpa using hescape
          rw [labelFields_cons, List.mapM_cons, keyValue_comma hwritable, ih hrest hfollowing, hself]
          rfl

theorem lookup_map_bytes (labels : List (String × String)) :
    MapOf (labels.map fun label => (label.1, Utf8.bytes label.2.toList)) labels := by
  intro key
  induction labels with
  | nil => rfl
  | cons label rest ih =>
      rw [List.map_cons, List.lookup_cons, List.lookup_cons, ih]
      cases key == label.1 <;> rfl

theorem read_of_recoverable {isPrint : Char → Bool} {metric : LabelledMetric} (h : Recoverable isPrint metric.labels) :
    ∃ entries, getKeyValueMapFromQuotedString (split (metric.render isPrint) '{' '}') = some entries ∧
      MapOf entries metric.labels := by
  have hbrace : ∀ label ∈ metric.labels, '}' ∉ label.2.toList := by
    generalize metric.labels = labels at h
    induction labels with
    | nil => simp
    | cons label rest ih => exact List.forall_mem_cons.mpr ⟨h.head.1.free.2.2, ih h.head.2⟩
  have htext := split_render isPrint metric
  rw [takeWhile_append_brace (notMem_renderLabels fun label hlabel =>
    ⟨metric.names label hlabel, hbrace label hlabel⟩)] at htext
  have hnodup : ((metric.labels.map fun label => (label.1, Utf8.bytes label.2.toList)).map Prod.fst).Nodup := by
    rw [List.map_map]
    exact metric.nodup
  rw [getKeyValueMapFromQuotedString_eq, htext, quotedFields_renderLabels metric.names h,
    mapM_labelFields metric.names h, Option.map_some, fillMap_of_nodup hnodup]
  exact ⟨_, rfl, lookup_map_bytes metric.labels⟩

def asciiPrintable (c : Char) : Bool := ' ' ≤ c && c ≤ '~'

def jobMetric (value : String) : LabelledMetric where
  name := "up"
  labels := [("job", value)]
  name_ok := by decide
  nodup := by simp
  names := by
    intro label hlabel
    obtain rfl := List.mem_singleton.mp hlabel
    have hletters : "job".toList.all (fun c => c.isAlphanum || c = '_') = true := by decide
    exact ⟨by simp, fun c hc => by simpa using List.all_eq_true.mp hletters c hc⟩

theorem not_read :
    getKeyValueMapFromQuotedString (split ((jobMetric "prometheus").render asciiPrintable) '{' '}') =
        some [("job", Utf8.bytes "prometheu".toList)] ∧
      getKeyValueMapFromQuotedString (split ((jobMetric "").render asciiPrintable) '{' '}') = none := by
  decide +kernel

theorem read_iff_recoverable (isPrint : Char → Bool) (metric : LabelledMetric) :
    (∃ entries, getKeyValueMapFromQuotedString (split (metric.render isPrint) '{' '}') = some entries ∧
      MapOf entries metric.labels) ↔ Recoverable isPrint metric.labels :=
  ⟨fun ⟨_, hread, hmap⟩ => recoverable_of_map hread hmap, read_of_recoverable⟩

end LitmusPortal.Prometheus
