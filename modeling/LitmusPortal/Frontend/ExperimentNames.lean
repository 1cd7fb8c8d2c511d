import Mathlib.Data.List.AList
import Mathlib.Data.List.Induction

/-!
# Experiment names

`validateExperimentNames` counts the names of the steps in the properties of an array, under the names themselves. An
array has properties before the first is set: its `length`, which grows when an index is set, and what it inherits. The
functions it inherits differ from one engine to the other; their names are `inherited` here. A function and a number
added to it give the function's text, which is no number.
-/

namespace LitmusPortal.YamlUtils

inductive JsError where
  | typeError
  | rangeError
  deriving DecidableEq, Repr

/-! ### Arrays as objects -/

/-- What a property holds: a number, or a function, a prototype or a text, which count as no number. -/
inductive Value where
  | number (n : ℕ)
  | other
  deriving DecidableEq, Repr

def Value.isTruthy : Value → Bool
  | .number n => n != 0
  | .other => true

def Value.addOne : Value → Value
  | .number n => .number (n + 1)
  | .other => .other

def Value.exceedsOne : Value → Bool
  | .number n => 1 < n
  | .other => false

/-- One more than the greatest length. -/
def lengthBound : ℕ := 4294967296

/-- The index that a name is the decimal spelling of. -/
def arrayIndex (name : String) : Option ℕ :=
  let index := name.toList.foldl (fun n c => 10 * n + (c.toNat - '0'.toNat)) 0
  if toString index = name ∧ index + 1 < lengthBound then some index else none

structure ArrayObject where
  length : ℕ
  own : AList fun _ : String => Value

namespace ArrayObject

def empty : ArrayObject := ⟨0, ∅⟩

def truncate (value : ArrayObject) (n : ℕ) : ArrayObject where
  length := n
  own :=
    ⟨value.own.entries.filter fun entry => (arrayIndex entry.1).all (· < n),
      value.own.nodupKeys.sublist List.filter_sublist⟩

def read (inherited : String → Bool) (value : ArrayObject) (name : String) : Option Value :=
  if name = "length" then some (.number value.length)
  else
    match value.own.lookup name with
    | some found => some found
    | none => if name = "__proto__" ∨ inherited name then some .other else none

/-- The prototype is not replaced by a number or a text. -/
def write (value : ArrayObject) (name : String) (new : Value) : Except JsError ArrayObject :=
  if name = "length" then
    match new with
    | .number n => if n < lengthBound then .ok (value.truncate n) else .error .rangeError
    | .other => .error .rangeError
  else if name = "__proto__" then .ok value
  else
    .ok
      { length := ((arrayIndex name).map (· + 1)).elim value.length (max value.length)
        own := value.own.insert name new }

/-- The own properties but `length`, which is not enumerable. -/
def objectEntries (value : ArrayObject) : List (String × Value) :=
  value.own.entries.map fun entry => (entry.1, entry.2)

end ArrayObject

/-! ### The manifest -/

structure Step where
  name : String
  deriving DecidableEq, Repr

structure Template where
  steps : Option (List (List Step))
  deriving DecidableEq, Repr

structure WorkflowSpec where
  templates : Option (List Template)
  deriving DecidableEq, Repr

structure Spec extends WorkflowSpec where
  workflowSpec : Option WorkflowSpec
  deriving DecidableEq, Repr

structure Manifest where
  kind : String
  spec : Option Spec
  deriving DecidableEq, Repr

def constants.workflow : String := "Chaos Scenarios"

section Functions

variable (inherited : String → Bool)

def countName (value : ArrayObject) (values : Step) : Except JsError ArrayObject :=
  match value.read inherited values.name with
  | some found =>
      if found.isTruthy then value.write values.name found.addOne else value.write values.name (.number 1)
  | none => value.write values.name (.number 1)

def countSteps (steps : List (List Step)) : Except JsError ArrayObject :=
  steps.foldlM (fun value step => step.foldlM (countName inherited) value) .empty

def countNames (manifest : Manifest) : Except JsError ArrayObject :=
  match manifest.spec with
  | none => .ok .empty
  | some spec =>
      let yamlData := if manifest.kind = constants.workflow then some spec.toWorkflowSpec else spec.workflowSpec
      match yamlData with
      | none => .ok .empty
      | some yamlData =>
          match yamlData.templates with
          | none => .error .typeError
          | some templates =>
              match templates.head? with
              | none => .ok .empty
              | some template =>
                  match template.steps with
                  | none => .ok .empty
                  | some steps => countSteps inherited steps

def validateExperimentNames (manifest : Manifest) : Except JsError Bool :=
  match countNames inherited manifest with
  | .error error => .error error
  | .ok value =>
      let exp := (value.objectEntries.filter fun entry => entry.2.exceedsOne).length
      if exp > 0 then .ok false else .ok true

end Functions

/-! ### The length of the array -/

def nextLength (length : ℕ) (name : String) : ℕ :=
  if name = "length" then length + 1 else ((arrayIndex name).map (· + 1)).elim length (max length)

/-- The length once the names are counted, where nothing is thrown. -/
def arrayLength (names : List String) : ℕ := names.foldl nextLength 0

theorem le_nextLength (length : ℕ) (name : String) : length ≤ nextLength length name := by
  rw [nextLength]
  split
  · omega
  · cases arrayIndex name with
    | none => exact Nat.le_refl _
    | some index => exact Nat.le_max_left _ _

theorem arrayLength_concat (names : List String) (name : String) :
    arrayLength (names ++ [name]) = nextLength (arrayLength names) name := by
  rw [arrayLength, List.foldl_append]
  rfl

/-- A step is called `length` when the array cannot be longer. -/
def Overflows (names : List String) : Prop :=
  ∃ front back, names = front ++ "length" :: back ∧ arrayLength front + 1 = lengthBound

theorem overflows_concat {names : List String} {name : String} :
    Overflows (names ++ [name]) ↔ Overflows names ∨ name = "length" ∧ arrayLength names + 1 = lengthBound := by
  constructor
  · rintro ⟨front, back, heq, hfull⟩
    cases List.eq_nil_or_concat back with
    | inl hnil =>
        subst hnil
        obtain ⟨rfl, hname⟩ := List.append_inj' heq rfl
        exact .inr ⟨List.singleton_inj.mp hname, hfull⟩
    | inr hconcat =>
        obtain ⟨back, last, rfl⟩ := hconcat
        have hassoc : front ++ "length" :: (back ++ [last]) = (front ++ "length" :: back) ++ [last] := by simp
        rw [List.concat_eq_append, hassoc] at heq
        obtain ⟨rfl, -⟩ := List.append_inj' heq rfl
        exact .inl ⟨front, back, rfl, hfull⟩
  · rintro (⟨front, back, rfl, hfull⟩ | ⟨rfl, hfull⟩)
    · exact ⟨front, back ++ [name], by simp, hfull⟩
    · exact ⟨names, [], rfl, hfull⟩

/-! ### What is counted -/

section Counting

variable (inherited : String → Bool)

/-- The name is no property of an array before it is counted. -/
def IsCounted (name : String) : Prop := name ≠ "length" ∧ name ≠ "__proto__" ∧ inherited name = false

def recorded (names : List String) (name : String) : Option Value :=
  if name = "length" ∨ name = "__proto__" ∨ name ∉ names then none
  else if inherited name then some .other
  else some (.number (names.count name))

structure Records (names : List String) (value : ArrayObject) : Prop where
  length_eq : value.length = arrayLength names
  length_lt : value.length < lengthBound
  lookup_eq : ∀ name, value.own.lookup name = recorded inherited names name
  index_lt : ∀ name ∈ value.own, ∀ index, arrayIndex name = some index → index < value.length

variable {inherited} {names : List String} {name other : String} {value : ArrayObject}

theorem recorded_concat_ne (h : other ≠ name) :
    recorded inherited (names ++ [name]) other = recorded inherited names other := by
  have hmem : other ∈ names ++ [name] ↔ other ∈ names := by simp [h]
  have hcount : (names ++ [name]).count other = names.count other := by
    rw [List.count_append, List.count_singleton, if_neg (by simpa using Ne.symm h)]
    rfl
  simp only [recorded, hcount, hmem]

theorem recorded_of_not_own (h : name = "length" ∨ name = "__proto__") : recorded inherited names name = none := by
  rw [recorded, if_pos]
  exact h.imp_right Or.inl

theorem recorded_concat_of_not_own (h : name = "length" ∨ name = "__proto__") (other : String) :
    recorded inherited (names ++ [name]) other = recorded inherited names other := by
  by_cases hother : other = name
  · subst hother
    rw [recorded_of_not_own h, recorded_of_not_own h]
  · exact recorded_concat_ne hother

theorem recorded_concat_self (hlength : name ≠ "length") (hproto : name ≠ "__proto__") :
    recorded inherited (names ++ [name]) name =
      some (if inherited name then .other else .number (names.count name + 1)) := by
  have hcount : (names ++ [name]).count name = names.count name + 1 := by
    rw [List.count_append, List.count_singleton_self]
  have hown : ¬(name = "length" ∨ name = "__proto__" ∨ name ∉ names ++ [name]) := by simp [hlength, hproto]
  rw [recorded, if_neg hown, hcount]
  split <;> rfl

theorem arrayIndex_proto : arrayIndex "__proto__" = none := by decide +kernel

theorem arrayIndex_lt {index : ℕ} (h : arrayIndex name = some index) : index + 1 < lengthBound := by
  rw [arrayIndex, Option.ite_none_right_eq_some] at h
  obtain ⟨⟨-, hlt⟩, hindex⟩ := h
  rw [Option.some.injEq] at hindex
  exact hindex ▸ hlt

/-- The array never gets shorter, so no index is deleted. -/
theorem Records.truncate_own (h : Records inherited names value) {n : ℕ} (hle : value.length ≤ n) :
    (value.truncate n).own = value.own := by
  apply AList.ext
  refine List.filter_eq_self.mpr fun entry hentry => ?_
  have hmem : entry.1 ∈ value.own := List.mem_keys_of_mem hentry
  rw [Option.all_eq_true]
  intro index hindex
  have hlt := h.index_lt entry.1 hmem index hindex
  exact decide_eq_true (by omega)

theorem Records.countName_length (h : Records inherited names value) :
    countName inherited value ⟨"length"⟩ =
      if arrayLength names + 1 = lengthBound then .error .rangeError else .ok (value.truncate (value.length + 1)) := by
  have hwritten : countName inherited value ⟨"length"⟩ = value.write "length" (.number (value.length + 1)) := by
    rw [countName, ArrayObject.read, if_pos rfl]
    cases hlength : value.length with
    | zero => rfl
    | succ n => rfl
  have hlt := h.length_lt
  rw [hwritten, ArrayObject.write, if_pos rfl, ← h.length_eq]
  by_cases hfull : value.length + 1 = lengthBound
  · rw [if_pos hfull]
    exact if_neg (by omega)
  · rw [if_neg hfull]
    exact if_pos (by omega)

theorem Records.length (h : Records inherited names value) (hroom : arrayLength names + 1 ≠ lengthBound) :
    Records inherited (names ++ ["length"]) (value.truncate (value.length + 1)) := by
  have hlt := h.length_lt
  have hlength := h.length_eq
  refine ⟨?_, ?_, ?_, ?_⟩
  · rw [arrayLength_concat, nextLength, if_pos rfl, ← hlength]
    rfl
  · change value.length + 1 < lengthBound
    omega
  · intro other
    rw [h.truncate_own (Nat.le_succ _), recorded_concat_of_not_own (.inl rfl)]
    exact h.lookup_eq other
  · intro other hother index hindex
    rw [h.truncate_own (Nat.le_succ _)] at hother
    exact Nat.lt_succ_of_lt (h.index_lt other hother index hindex)

theorem Records.countName_proto (h : Records inherited names value) :
    countName inherited value ⟨"__proto__"⟩ = .ok value := by
  have hlookup : value.own.lookup "__proto__" = none := by
    rw [h.lookup_eq]
    exact recorded_of_not_own (.inr rfl)
  rw [countName, ArrayObject.read, if_neg (by decide), hlookup]
  rfl

theorem Records.proto (h : Records inherited names value) : Records inherited (names ++ ["__proto__"]) value := by
  refine ⟨?_, h.length_lt, ?_, h.index_lt⟩
  · rw [arrayLength_concat, nextLength, if_neg (by decide), arrayIndex_proto]
    exact h.length_eq
  · intro other
    rw [recorded_concat_of_not_own (.inr rfl)]
    exact h.lookup_eq other

theorem Records.countName_own (h : Records inherited names value) (hlength : name ≠ "length")
    (hproto : name ≠ "__proto__") :
    countName inherited value ⟨name⟩ =
      .ok
        { length := nextLength value.length name
          own := value.own.insert name (if inherited name then .other else .number (names.count name + 1)) } := by
  have hwrite : ∀ new : Value, value.write name new =
      .ok { length := nextLength value.length name, own := value.own.insert name new } := by
    intro new
    simp only [ArrayObject.write, nextLength, hlength, hproto, if_false]
  rw [countName, ArrayObject.read, if_neg hlength, h.lookup_eq]
  by_cases hmem : name ∈ names
  · have hpos : names.count name ≠ 0 := Nat.pos_iff_ne_zero.mp (List.count_pos_iff.mpr hmem)
    have hown : ¬(name = "length" ∨ name = "__proto__" ∨ name ∉ names) := by simp [hlength, hproto, hmem]
    rw [recorded, if_neg hown]
    cases inherited name with
    | true => exact hwrite .other
    | false =>
        have htruthy : (Value.number (names.count name)).isTruthy = true := by simpa [Value.isTruthy] using hpos
        simp only [Bool.false_eq_true, if_false, htruthy, if_true]
        exact hwrite _
  · have hzero : names.count name = 0 := List.count_eq_zero.mpr hmem
    rw [recorded, if_pos (.inr (.inr hmem)), hzero]
    cases hinherited : inherited name with
    | true =>
        simp only [hproto, false_or, if_true]
        exact hwrite .other
    | false =>
        simp only [hproto, false_or, Bool.false_eq_true, if_false]
        exact hwrite _

theorem nextLength_lt {length : ℕ} (h : length < lengthBound) (hlength : name ≠ "length") :
    nextLength length name < lengthBound := by
  rw [nextLength, if_neg hlength]
  cases hindex : arrayIndex name with
  | none => exact h
  | some index => exact Nat.max_lt.mpr ⟨h, arrayIndex_lt hindex⟩

theorem Records.own (h : Records inherited names value) (hlength : name ≠ "length") (hproto : name ≠ "__proto__") :
    Records inherited (names ++ [name])
      { length := nextLength value.length name
        own := value.own.insert name (if inherited name then .other else .number (names.count name + 1)) } := by
  refine ⟨?_, nextLength_lt h.length_lt hlength, ?_, ?_⟩
  · rw [arrayLength_concat, ← h.length_eq]
  · intro other
    by_cases hother : other = name
    · subst hother
      rw [recorded_concat_self hlength hproto]
      exact AList.lookup_insert _
    · rw [recorded_concat_ne hother, ← h.lookup_eq]
      exact AList.lookup_insert_ne hother
  · intro other hother index hindex
    rcases AList.mem_insert _ |>.mp hother with rfl | hother
    · change index < nextLength value.length other
      rw [nextLength, if_neg hlength, hindex]
      exact Nat.lt_of_lt_of_le (Nat.lt_succ_self index) (Nat.le_max_right _ _)
    · exact Nat.lt_of_lt_of_le (h.index_lt other hother index hindex) (le_nextLength _ _)

theorem Records.step (h : Records inherited names value) (name : String) :
    if name = "length" ∧ arrayLength names + 1 = lengthBound then
      countName inherited value ⟨name⟩ = .error .rangeError
    else ∃ value', countName inherited value ⟨name⟩ = .ok value' ∧ Records inherited (names ++ [name]) value' := by
  by_cases hlength : name = "length"
  · subst hlength
    by_cases hfull : arrayLength names + 1 = lengthBound
    · rw [if_pos ⟨rfl, hfull⟩, h.countName_length, if_pos hfull]
    · rw [if_neg fun hboth => hfull hboth.2]
      refine ⟨_, ?_, h.length hfull⟩
      rw [h.countName_length, if_neg hfull]
  · rw [if_neg fun hboth => hlength hboth.1]
    by_cases hproto : name = "__proto__"
    · subst hproto
      exact ⟨value, h.countName_proto, h.proto⟩
    · exact ⟨_, h.countName_own hlength hproto, h.own hlength hproto⟩

theorem records_nil : Records inherited [] .empty := by
  refine ⟨rfl, by decide, fun name => ?_, fun name hname => absurd hname (AList.notMem_empty name)⟩
  rw [recorded, if_pos (.inr (.inr List.not_mem_nil))]
  exact AList.lookup_empty name

end Counting

/-! ### A whole run -/

section Run

variable {inherited : String → Bool}

theorem foldlM_flatten {σ : Type} (visit : σ → Step → Except JsError σ) (steps : List (List Step)) (s : σ) :
    steps.foldlM (fun s step => step.foldlM visit s) s = steps.flatten.foldlM visit s := by
  induction steps generalizing s with
  | nil => rfl
  | cons step steps ih =>
      rw [List.flatten_cons, List.foldlM_append, List.foldlM_cons]
      exact bind_congr fun s' => ih s'

theorem not_overflows_nil : ¬Overflows [] := by
  rintro ⟨front, back, heq, -⟩
  exact absurd heq (by simp)

theorem records_run (steps : List Step) :
    (Overflows (steps.map Step.name) → steps.foldlM (countName inherited) .empty = .error .rangeError) ∧
      (¬Overflows (steps.map Step.name) →
        ∃ value, steps.foldlM (countName inherited) .empty = .ok value ∧
          Records inherited (steps.map Step.name) value) := by
  induction steps using List.reverseRecOn with
  | nil => exact ⟨fun h => absurd h not_overflows_nil, fun _ => ⟨_, rfl, records_nil⟩⟩
  | append_singleton steps step ih =>
      rw [List.map_append, List.map_singleton, overflows_concat, List.foldlM_append]
      by_cases hbefore : Overflows (steps.map Step.name)
      · refine ⟨fun _ => ?_, fun h => absurd (.inl hbefore) h⟩
        rw [ih.1 hbefore]
        rfl
      · obtain ⟨value, hvalue, hrecords⟩ := ih.2 hbefore
        have hlast : ([step].foldlM (countName inherited) value) = countName inherited value step := by
          rw [List.foldlM_cons]
          exact bind_pure _
        have hstep := hrecords.step step.name
        rw [hvalue]
        change (_ → [step].foldlM (countName inherited) value = _) ∧
          (_ → ∃ value', [step].foldlM (countName inherited) value = _ ∧ _)
        rw [hlast]
        refine ⟨fun h => ?_, fun h => ?_⟩
        · have hfull := h.resolve_left hbefore
          rwa [if_pos hfull] at hstep
        · have hroom := fun hfull => h (.inr hfull)
          rwa [if_neg hroom] at hstep

/-- What is left of the counts at the end: a counted name that is there twice. -/
theorem Records.exceeds_iff {names : List String} {value : ArrayObject} (h : Records inherited names value) :
    (value.objectEntries.filter fun entry => entry.2.exceedsOne).length > 0 ↔
      ∃ name, IsCounted inherited name ∧ 1 < names.count name := by
  have hrecorded : ∀ name new, recorded inherited names name = some new ↔ (name, new) ∈ value.objectEntries := by
    intro name new
    rw [← h.lookup_eq]
    constructor
    · intro hlookup
      exact List.mem_map.mpr ⟨⟨name, new⟩, AList.mem_lookup_iff.mp hlookup, rfl⟩
    · intro hmem
      obtain ⟨⟨_, _⟩, hentry, heq⟩ := List.mem_map.mp hmem
      cases heq
      exact AList.mem_lookup_iff.mpr hentry
  rw [gt_iff_lt, List.length_pos_iff_exists_mem]
  constructor
  · rintro ⟨⟨name, new⟩, hmem⟩
    obtain ⟨hentry, hexceeds⟩ := List.mem_filter.mp hmem
    have hnew := (hrecorded name new).mpr hentry
    rw [recorded, Option.ite_none_left_eq_some] at hnew
    obtain ⟨hown, hnew⟩ := hnew
    rw [not_or, not_or, not_not] at hown
    cases hinherited : inherited name with
    | true =>
        rw [hinherited] at hnew
        obtain rfl := Option.some.inj hnew
        cases hexceeds
    | false =>
        rw [hinherited] at hnew
        obtain rfl := Option.some.inj hnew
        exact ⟨name, ⟨hown.1, hown.2.1, hinherited⟩, of_decide_eq_true hexceeds⟩
  · rintro ⟨name, ⟨hlength, hproto, hinherited⟩, hcount⟩
    have hmem : name ∈ names := List.count_pos_iff.mp (by omega)
    have hown : ¬(name = "length" ∨ name = "__proto__" ∨ name ∉ names) := by simp [hlength, hproto, hmem]
    have hnew : recorded inherited names name = some (.number (names.count name)) := by
      rw [recorded, if_neg hown, hinherited]
      rfl
    exact ⟨_, List.mem_filter.mpr ⟨(hrecorded _ _).mp hnew, decide_eq_true hcount⟩⟩

theorem Records.verdict {manifest : Manifest} {names : List String} {value : ArrayObject}
    (h : Records inherited names value) (hcount : countNames inherited manifest = .ok value) :
    ∃ valid, validateExperimentNames inherited manifest = .ok valid ∧
      (valid = true ↔ ¬∃ name, IsCounted inherited name ∧ 1 < names.count name) := by
  rw [validateExperimentNames, hcount, ← h.exceeds_iff]
  by_cases hexceeds : (value.objectEntries.filter fun entry => entry.2.exceedsOne).length > 0
  · exact ⟨false, if_pos hexceeds, iff_of_false Bool.false_ne_true (not_not.mpr hexceeds)⟩
  · exact ⟨true, if_neg hexceeds, iff_of_true rfl hexceeds⟩

end Run

/-! ### The manifests of the portal -/

/-- The manifests the portal edits: where a workflow and a cron workflow have their templates. -/
inductive IsManifest : Manifest → List Template → Prop
  | workflow (templates : List Template) :
      IsManifest { kind := "Workflow", spec := some { templates := some templates, workflowSpec := none } } templates
  | cronWorkflow (templates : List Template) :
      IsManifest
        { kind := "CronWorkflow", spec := some { templates := none, workflowSpec := some ⟨some templates⟩ } } templates

def firstSteps (templates : List Template) : List Step :=
  match templates with
  | [] => []
  | template :: _ => (template.steps.getD []).flatten

def stepNames (templates : List Template) : List String := (firstSteps templates).map Step.name

/-- What the counting of a manifest depends on: nothing is read of a workflow. -/
def Judged (inherited : String → Bool) (kind : String) (names : List String) : Prop :=
  if kind = "Workflow" then names.Nodup
  else ¬Overflows names ∧ (names.Nodup ∨ ∃ name, IsCounted inherited name ∧ 1 < names.count name)

theorem validate_workflow (inherited : String → Bool) (templates : List Template) :
    validateExperimentNames inherited
      { kind := "Workflow", spec := some { templates := some templates, workflowSpec := none } } = .ok true := by
  have hkind : "Workflow" ≠ constants.workflow := by decide
  rw [validateExperimentNames, countNames]
  simp only [hkind, if_false]
  rfl

theorem countNames_cronWorkflow (inherited : String → Bool) (templates : List Template) :
    countNames inherited
        { kind := "CronWorkflow", spec := some { templates := none, workflowSpec := some ⟨some templates⟩ } } =
      (firstSteps templates).foldlM (countName inherited) .empty := by
  have hkind : "CronWorkflow" ≠ constants.workflow := by decide
  rw [countNames]
  simp only [hkind, if_false]
  cases templates with
  | nil => rfl
  | cons template templates =>
      obtain ⟨steps⟩ := template
      cases steps with
      | none => rfl
      | some steps => exact foldlM_flatten _ _ _

theorem validateExperimentNames_iff (inherited : String → Bool) {manifest : Manifest} {templates : List Template}
    (h : IsManifest manifest templates) :
    (∃ valid, validateExperimentNames inherited manifest = .ok valid ∧
        (valid = true ↔ (stepNames templates).Nodup)) ↔
      Judged inherited manifest.kind (stepNames templates) := by
  cases h with
  | workflow =>
      rw [validate_workflow, Judged, if_pos rfl]
      constructor
      · rintro ⟨valid, hvalid, hnodup⟩
        cases hvalid
        exact hnodup.mp rfl
      · intro hnodup
        exact ⟨true, rfl, iff_of_true rfl hnodup⟩
  | cronWorkflow =>
      have hkind : "CronWorkflow" ≠ "Workflow" := by decide
      rw [Judged, if_neg hkind, validateExperimentNames, countNames_cronWorkflow]
      by_cases hover : Overflows (stepNames templates)
      · rw [(records_run _).1 hover]
        refine iff_of_false ?_ fun hboth => hboth.1 hover
        rintro ⟨valid, hvalid, -⟩
        cases hvalid
      · obtain ⟨value, hvalue, hrecords⟩ := (records_run (firstSteps templates)).2 hover
        obtain ⟨valid, hvalid, hiff⟩ :=
          hrecords.verdict ((countNames_cronWorkflow inherited templates).trans hvalue)
        rw [validateExperimentNames, countNames_cronWorkflow] at hvalid
        rw [hvalid, and_iff_right hover]
        constructor
        · rintro ⟨_, hok, hnodup⟩
          obtain rfl := Except.ok.inj hok
          by_cases hrepeated : ∃ name, IsCounted inherited name ∧ 1 < (stepNames templates).count name
          · exact .inr hrepeated
          · exact .inl (hnodup.mp (hiff.mpr hrepeated))
        · intro hjudged
          refine ⟨valid, rfl, hiff.trans ⟨hjudged.resolve_right, fun hnodup hrepeated => ?_⟩⟩
          obtain ⟨name, -, hcount⟩ := hrepeated
          exact absurd (List.nodup_iff_count_le_one.mp hnodup name) (Nat.not_le.mpr hcount)

/-- The functions of arrays and of objects in the engines of today. -/
def engineFunctions : List String :=
  ["at", "concat", "copyWithin", "entries", "every", "fill", "filter", "find", "findIndex", "findLast", "findLastIndex",
    "flat", "flatMap", "forEach", "includes", "indexOf", "join", "keys", "lastIndexOf", "map", "pop", "push", "reduce",
    "reduceRight", "reverse", "shift", "slice", "some", "sort", "splice", "toLocaleString", "toReversed", "toSorted",
    "toSpliced", "toString", "unshift", "values", "with", "constructor", "hasOwnProperty", "isPrototypeOf",
    "propertyIsEnumerable", "valueOf", "__defineGetter__", "__defineSetter__", "__lookupGetter__",
    "__lookupSetter__"]

def isEngineFunction (name : String) : Bool := engineFunctions.contains name

/-- Two steps of the given names, each in a group of its own. -/
def pairOf (first second : String) : List Template := [⟨some [[⟨first⟩], [⟨second⟩]]⟩]

theorem validateExperimentNames_iff_cronWorkflow :
    (∃ valid,
        validateExperimentNames isEngineFunction
            { kind := "CronWorkflow"
              spec := some { templates := none, workflowSpec := some ⟨some (pairOf "pod-delete" "pod-delete")⟩ } } =
          .ok valid ∧
        (valid = true ↔ (stepNames (pairOf "pod-delete" "pod-delete")).Nodup)) ↔
      Judged isEngineFunction "CronWorkflow" ["pod-delete", "pod-delete"] :=
  validateExperimentNames_iff isEngineFunction (.cronWorkflow (pairOf "pod-delete" "pod-delete"))

/-- Of a workflow nothing is counted: two steps of one name pass. -/
theorem not_validateExperimentNames :
    ¬∀ (manifest : Manifest) (templates : List Template), IsManifest manifest templates →
        ∃ valid, validateExperimentNames isEngineFunction manifest = .ok valid ∧
          (valid = true ↔ (stepNames templates).Nodup) := by
  intro hall
  obtain ⟨valid, hvalid, hnodup⟩ := hall _ _ (.workflow (pairOf "pod-delete" "pod-delete"))
  rw [validate_workflow] at hvalid
  cases hvalid
  exact absurd (hnodup.mp rfl) (by decide)

end LitmusPortal.YamlUtils
