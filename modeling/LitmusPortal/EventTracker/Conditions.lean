import LitmusPortal.EventTracker.Informers
import Mathlib.Data.List.Perm.Basic

/-!
# The conditions of a policy

With the type `and` the checker passes over a condition whose selected value has not changed; what has changed must
meet its conditions. Two slices and two maps cannot be compared, and a condition need not have a value.
-/

namespace LitmusPortal.EventTracker

open LitmusPortal

theorem exists_ok_iff {α : Type} {x : Except GoError α} : (∃ result, x = .ok result) ↔ ∀ err, x ≠ .error err := by
  cases x <;> simp

/-! ### The comparison of two results -/

def Found.Comparable : Found → Found → Prop
  | .array _, .array _ | .object _, .object _ => False
  | _, _ => True

def Found.Scalar : Found → Prop
  | .array _ | .object _ => False
  | _ => True

theorem Found.exists_differs_iff (left right : Found) :
    (∃ result, left.differs right = .ok result) ↔ left.Comparable right := by
  cases left <;> cases right <;> simp only [Found.differs, Found.Comparable, Except.ok.injEq, exists_eq']
  all_goals simp

theorem Found.differs_of_scalar {left right : Found} (hleft : left.Scalar) :
    ∃ result, left.differs right = .ok result ∧ (result = true ↔ left ≠ right) := by
  cases left <;> cases right <;> simp only [Found.Scalar] at hleft
  all_goals
    refine ⟨_, rfl, ?_⟩
    simp

def Condition.Holds (queries : Queries) (condition : Condition) (newFound : Found) : Prop :=
  condition.operator = "Change" ∨
    ∃ value, condition.value = some value ∧ cases (queries.sprint newFound) value condition.operator = true

theorem Condition.met_of_value (queries : Queries) {condition : Condition}
    (hvalue : condition.operator ≠ "Change" → condition.value.isSome) (newFound : Found) :
    ∃ result, condition.met queries newFound = .ok result ∧
      (result = true ↔ condition.Holds queries newFound) := by
  unfold Condition.met Condition.Holds
  split
  · rename_i hchange
    exact ⟨true, rfl, by simp [hchange]⟩
  · rename_i hchange
    obtain ⟨value, hsome⟩ := Option.isSome_iff_exists.mp (hvalue hchange)
    exact ⟨_, by rw [hsome], by simp [hchange, hsome]⟩

theorem Condition.met_of_none (queries : Queries) {condition : Condition} (hchange : condition.operator ≠ "Change")
    (hvalue : condition.value = none) (newFound : Found) : condition.met queries newFound = .error nilPointer := by
  simp [Condition.met, hchange, hvalue]

/-- The comparison is defined, and what has changed is compared with a value that is there. -/
structure Condition.Defined (condition : Condition) (newFound oldFound : Found) : Prop where
  comparable : newFound.Comparable oldFound
  value : newFound.differs oldFound = .ok true → condition.operator ≠ "Change" → condition.value.isSome

/-- Nothing for a value that has not changed. -/
def Condition.judge (queries : Queries) (condition : Condition) (newFound oldFound : Found) :
    Except GoError (Option Bool) := do
  let differ ← newFound.differs oldFound
  if differ then
    let met ← condition.met queries newFound
    return some met
  else return none

inductive Condition.Judged (queries : Queries) (condition : Condition) (newFound oldFound : Found) : Prop
  | panics (err : GoError) (undefined : ¬ condition.Defined newFound oldFound)
      (judge : condition.judge queries newFound oldFound = .error err)
  | unchanged (defined : condition.Defined newFound oldFound) (same : newFound.differs oldFound = .ok false)
      (judge : condition.judge queries newFound oldFound = .ok none)
  | changed (defined : condition.Defined newFound oldFound) (differs : newFound.differs oldFound = .ok true)
      (met : Bool) (holds : met = true ↔ condition.Holds queries newFound)
      (judge : condition.judge queries newFound oldFound = .ok (some met))

theorem Condition.judged (queries : Queries) (condition : Condition) (newFound oldFound : Found) :
    condition.Judged queries newFound oldFound := by
  have hcomparable := newFound.exists_differs_iff oldFound
  cases hdiffers : newFound.differs oldFound with
  | error err =>
      refine .panics err (fun h => ?_) (by simp [Condition.judge, hdiffers, bind, Except.bind])
      obtain ⟨result, hresult⟩ := hcomparable.mpr h.comparable
      simp [hdiffers] at hresult
  | ok differ =>
      have hcompare : newFound.Comparable oldFound := hcomparable.mp ⟨differ, hdiffers⟩
      cases differ with
      | false =>
          exact .unchanged ⟨hcompare, by simp [hdiffers]⟩ hdiffers
            (by simp [Condition.judge, hdiffers, bind, Except.bind, pure, Except.pure])
      | true =>
          by_cases hvalue : condition.operator ≠ "Change" → condition.value.isSome
          · obtain ⟨met, hmet, hholds⟩ := Condition.met_of_value queries hvalue newFound
            exact .changed ⟨hcompare, fun _ => hvalue⟩ hdiffers met hholds
              (by simp [Condition.judge, hdiffers, hmet, bind, Except.bind, pure, Except.pure])
          · obtain ⟨hchange, hnone⟩ := Classical.not_imp.mp hvalue
            have hmet := Condition.met_of_none queries hchange
              (Option.not_isSome_iff_eq_none.mp hnone) newFound
            exact .panics nilPointer (fun h => hvalue (h.value hdiffers))
              (by simp [Condition.judge, hdiffers, hmet, bind, Except.bind])

section

variable {queries : Queries} {newData oldData : String} {condition : Condition} {newFound oldFound : Found}

/-- How the loop over the conditions goes on from one of them. -/
def afterAnd (finalResult : Bool) (rest : Bool → Except GoError Bool) : Option Bool → Except GoError Bool
  | none => rest finalResult
  | some true => rest true
  | some false => .ok false

theorem checkAnd_cons (finalResult : Bool) (conditions : List Condition)
    (hnew : queries.search condition.key newData = .ok newFound)
    (hold : queries.search condition.key oldData = .ok oldFound) :
    checkAnd queries newData oldData finalResult (condition :: conditions) =
      (condition.judge queries newFound oldFound).bind
        (afterAnd finalResult fun result => checkAnd queries newData oldData result conditions) := by
  simp only [checkAnd, hnew, hold, Condition.judge, bind, Except.bind, pure, Except.pure]
  cases newFound.differs oldFound with
  | error err => rfl
  | ok differ =>
      cases differ with
      | false => rfl
      | true =>
          cases hmet : condition.met queries newFound with
          | error err => simp
          | ok met => cases met <;> simp [afterAnd]

theorem checkOr_cons (finalResult : Bool) (conditions : List Condition)
    (hnew : (queries.search condition.key newData).toOption.getD .null = newFound)
    (hold : queries.search condition.key oldData = .ok oldFound) :
    checkOr queries newData oldData finalResult (condition :: conditions) =
      (condition.judge queries newFound oldFound).bind fun verdict =>
        checkOr queries newData oldData (verdict.getD false || finalResult) conditions := by
  simp only [checkOr, hnew, hold, Condition.judge, bind, Except.bind, pure, Except.pure]
  cases newFound.differs oldFound with
  | error err => rfl
  | ok differ =>
      cases differ with
      | false => rfl
      | true =>
          cases hmet : condition.met queries newFound with
          | error err => simp
          | ok met => simp

end

/-! ### Where the checker panics -/

def selectedByAnd (queries : Queries) (newData oldData : String) (condition : Condition) : Option (Found × Found) :=
  match queries.search condition.key newData, queries.search condition.key oldData with
  | .ok newFound, .ok oldFound => some (newFound, oldFound)
  | _, _ => none

/-- An error about the new object counts as nothing selected. -/
def selectedByOr (queries : Queries) (newData oldData : String) (condition : Condition) : Option (Found × Found) :=
  match queries.search condition.key oldData with
  | .ok oldFound => some ((queries.search condition.key newData).toOption.getD .null, oldFound)
  | .error _ => none

def GoesOnAnd (queries : Queries) (newData oldData : String) (condition : Condition) : Prop :=
  ∃ newFound oldFound, selectedByAnd queries newData oldData condition = some (newFound, oldFound) ∧
    (newFound.differs oldFound = .ok true → condition.Holds queries newFound)

def GoesOnOr (queries : Queries) (newData oldData : String) (condition : Condition) : Prop :=
  (selectedByOr queries newData oldData condition).isSome

def DefinedWhereReached (selected : Condition → Option (Found × Found)) (goesOn : Condition → Prop)
    (conditions : List Condition) : Prop :=
  ∀ front condition back, conditions = front ++ condition :: back → (∀ earlier ∈ front, goesOn earlier) →
    ∀ newFound oldFound, selected condition = some (newFound, oldFound) → condition.Defined newFound oldFound

section

variable {selected : Condition → Option (Found × Found)} {goesOn : Condition → Prop}

theorem definedWhereReached_nil : DefinedWhereReached selected goesOn [] := by
  intro front condition back hsplit
  exact absurd hsplit (by simp)

theorem definedWhereReached_cons_iff (condition : Condition) (conditions : List Condition) :
    DefinedWhereReached selected goesOn (condition :: conditions) ↔
      (∀ newFound oldFound, selected condition = some (newFound, oldFound) →
        condition.Defined newFound oldFound) ∧
      (goesOn condition → DefinedWhereReached selected goesOn conditions) := by
  constructor
  · intro h
    refine ⟨h [] condition conditions rfl (by simp), fun hgoes front other back hsplit hfront => ?_⟩
    refine h (condition :: front) other back (by simp [hsplit]) fun earlier hearlier => ?_
    rcases List.mem_cons.mp hearlier with rfl | hearlier
    · exact hgoes
    · exact hfront earlier hearlier
  · intro ⟨hfirst, hrest⟩ front other back hsplit hfront
    cases front with
    | nil =>
        obtain ⟨rfl, -⟩ := List.cons.inj hsplit
        exact hfirst
    | cons earlier front =>
        obtain ⟨rfl, hconditions⟩ := List.cons.inj hsplit
        exact hrest (hfront condition List.mem_cons_self) front other back hconditions
          fun other hother => hfront other (List.mem_cons_of_mem _ hother)

end

section

variable {queries : Queries} {newData oldData : String}

theorem checkAnd_ok_iff (finalResult : Bool) (conditions : List Condition) :
    (∃ result, checkAnd queries newData oldData finalResult conditions = .ok result) ↔
      DefinedWhereReached (selectedByAnd queries newData oldData) (GoesOnAnd queries newData oldData)
        conditions := by
  induction conditions generalizing finalResult with
  | nil => exact iff_of_true ⟨finalResult, rfl⟩ definedWhereReached_nil
  | cons condition conditions ih =>
      rw [definedWhereReached_cons_iff]
      cases hnew : queries.search condition.key newData with
      | error err => simp [checkAnd, selectedByAnd, GoesOnAnd, hnew]
      | ok newFound =>
          cases hold : queries.search condition.key oldData with
          | error err => simp [checkAnd, selectedByAnd, GoesOnAnd, hnew, hold]
          | ok oldFound =>
              have hselected : selectedByAnd queries newData oldData condition = some (newFound, oldFound) := by
                simp [selectedByAnd, hnew, hold]
              have hgoes : GoesOnAnd queries newData oldData condition ↔
                  (newFound.differs oldFound = .ok true → condition.Holds queries newFound) := by
                simp [GoesOnAnd, hselected]
              rw [checkAnd_cons finalResult conditions hnew hold, hselected, hgoes]
              simp only [Option.some.injEq, Prod.mk.injEq, and_imp]
              rcases condition.judged queries newFound oldFound with
                ⟨err, hundefined, hjudge⟩ | ⟨hdefined, hsame, hjudge⟩ | ⟨hdefined, hdiffers, met, hholds, hjudge⟩
              · simp [hundefined, hjudge, Except.bind]
              · simp [hdefined, hsame, hjudge, Except.bind, afterAnd, ih]
              · cases met with
                | false =>
                    have hnot : ¬ condition.Holds queries newFound := fun h => absurd (hholds.mpr h) (by simp)
                    simp [hdefined, hdiffers, hjudge, hnot, Except.bind, afterAnd]
                | true => simp [hdefined, hdiffers, hjudge, hholds.mp rfl, Except.bind, afterAnd, ih]

theorem checkOr_ok_iff (finalResult : Bool) (conditions : List Condition) :
    (∃ result, checkOr queries newData oldData finalResult conditions = .ok result) ↔
      DefinedWhereReached (selectedByOr queries newData oldData) (GoesOnOr queries newData oldData)
        conditions := by
  induction conditions generalizing finalResult with
  | nil => exact iff_of_true ⟨finalResult, rfl⟩ definedWhereReached_nil
  | cons condition conditions ih =>
      rw [definedWhereReached_cons_iff]
      cases hold : queries.search condition.key oldData with
      | error err => simp [checkOr, selectedByOr, GoesOnOr, hold]
      | ok oldFound =>
          obtain ⟨newFound, hnew⟩ :
              ∃ newFound, (queries.search condition.key newData).toOption.getD .null = newFound := ⟨_, rfl⟩
          have hselected : selectedByOr queries newData oldData condition = some (newFound, oldFound) := by
            simp [selectedByOr, hold, hnew]
          have hgoes : GoesOnOr queries newData oldData condition := by simp [GoesOnOr, hselected]
          rw [checkOr_cons finalResult conditions hnew hold, hselected]
          simp only [Option.some.injEq, Prod.mk.injEq, and_imp, hgoes, true_implies]
          rcases condition.judged queries newFound oldFound with
            ⟨err, hundefined, hjudge⟩ | ⟨hdefined, hsame, hjudge⟩ | ⟨hdefined, hdiffers, met, hholds, hjudge⟩
          · simp [hundefined, hjudge, Except.bind]
          · simp [hdefined, hjudge, Except.bind, ih]
          · simp [hdefined, hjudge, Except.bind, ih]

/-- A deployment whose replicas go from 1 to 2. -/
def replicasQueries : Queries where
  search key data :=
    .ok (if key = "spec.replicas" then .number (if data = "new" then 2 else 1)
      else if key = "spec.template.spec.containers" then .array [.object [("image", .string "nginx")]]
      else if key = "metadata.name" then .string "web"
      else .null)
  sprint
    | .number value => if value = 2 then "2" else "1"
    | .string value => value
    | _ => "<nil>"

def policyOf (conditionType : String) (conditions : List Condition) : EventTrackerPolicy where
  conditionType := conditionType
  conditions := conditions
  statuses := []

theorem conditionChecker_panics :
    conditionChecker replicasQueries (policyOf "and" [⟨"spec.template.spec.containers", none, "Change"⟩]) "new" "old" =
        .error (uncomparable "[]interface \x7b\x7d") ∧
      conditionChecker replicasQueries (policyOf "or" [⟨"spec.replicas", none, "EqualTo"⟩]) "new" "old" =
        .error nilPointer := by
  refine ⟨rfl, ?_⟩
  simp [conditionChecker, policyOf, checkOr, replicasQueries, Found.differs, Condition.met, bind, Except.bind,
    Except.toOption]

theorem conditionChecker_ok_iff (queries : Queries) (etp : EventTrackerPolicy) (newData oldData : String) :
    (∃ result, conditionChecker queries etp newData oldData = .ok result) ↔
      (etp.conditionType = "and" →
        DefinedWhereReached (selectedByAnd queries newData oldData) (GoesOnAnd queries newData oldData)
          etp.conditions) ∧
      (etp.conditionType = "or" →
        DefinedWhereReached (selectedByOr queries newData oldData) (GoesOnOr queries newData oldData)
          etp.conditions) := by
  unfold conditionChecker
  split
  · rename_i hand
    rw [checkAnd_ok_iff]
    simp [hand]
  · rename_i hand
    split
    · rename_i hor
      rw [checkOr_ok_iff]
      simp [hor]
    · rename_i hor
      simp [hand, hor]

/-! ### What the checker decides -/

def Changed (queries : Queries) (newData oldData : String) (condition : Condition) : Prop :=
  ∃ newFound oldFound, queries.search condition.key newData = .ok newFound ∧
    queries.search condition.key oldData = .ok oldFound ∧ newFound ≠ oldFound

/-- The value that the new object has meets the condition. -/
def Compares (queries : Queries) (newData : String) (condition : Condition) : Prop :=
  ∃ newFound, queries.search condition.key newData = .ok newFound ∧ condition.Holds queries newFound

/-- Both searches select a scalar. -/
structure Evaluable (queries : Queries) (newData oldData : String) (condition : Condition) : Prop where
  new : ∃ newFound, queries.search condition.key newData = .ok newFound ∧ newFound.Scalar
  old : ∃ oldFound, queries.search condition.key oldData = .ok oldFound ∧ oldFound.Scalar

theorem Evaluable.judge {condition : Condition} (h : Evaluable queries newData oldData condition)
    (hvalue : condition.operator ≠ "Change" → condition.value.isSome) :
    ∃ newFound oldFound, queries.search condition.key newData = .ok newFound ∧
      queries.search condition.key oldData = .ok oldFound ∧
      ((¬ Changed queries newData oldData condition ∧ condition.judge queries newFound oldFound = .ok none) ∨
        (Changed queries newData oldData condition ∧ ∃ met, (met = true ↔ Compares queries newData condition) ∧
          condition.judge queries newFound oldFound = .ok (some met))) := by
  obtain ⟨newFound, hnew, hnewScalar⟩ := h.new
  obtain ⟨oldFound, hold, -⟩ := h.old
  refine ⟨newFound, oldFound, hnew, hold, ?_⟩
  have hchanged : Changed queries newData oldData condition ↔ newFound ≠ oldFound := by simp [Changed, hnew, hold]
  have hcompares : Compares queries newData condition ↔ condition.Holds queries newFound := by simp [Compares, hnew]
  obtain ⟨differ, hdiffer, hne⟩ := @Found.differs_of_scalar newFound oldFound hnewScalar
  rw [hchanged, hcompares]
  rcases condition.judged queries newFound oldFound with
    ⟨err, hundefined, -⟩ | ⟨-, hsame, hjudge⟩ | ⟨-, hdiffers, met, hholds, hjudge⟩
  · exact absurd ⟨(newFound.exists_differs_iff oldFound).mp ⟨differ, hdiffer⟩, fun _ => hvalue⟩ hundefined
  · left
    obtain rfl : differ = false := Except.ok.inj (hdiffer.symm.trans hsame)
    exact ⟨fun h => absurd (hne.mpr h) (by simp), hjudge⟩
  · right
    obtain rfl : differ = true := Except.ok.inj (hdiffer.symm.trans hdiffers)
    exact ⟨hne.mp rfl, met, hholds, hjudge⟩

theorem checkAnd_eq {conditions : List Condition}
    (hevaluable : ∀ condition ∈ conditions, Evaluable queries newData oldData condition)
    (hvalue : ∀ condition ∈ conditions, condition.operator ≠ "Change" → condition.value.isSome)
    (finalResult : Bool) :
    ∃ result, checkAnd queries newData oldData finalResult conditions = .ok result ∧
      (result = true ↔
        (finalResult = true ∨ ∃ condition ∈ conditions, Changed queries newData oldData condition) ∧
        ∀ condition ∈ conditions, Changed queries newData oldData condition →
          Compares queries newData condition) := by
  induction conditions generalizing finalResult with
  | nil => exact ⟨finalResult, rfl, by simp⟩
  | cons condition conditions ih =>
      rw [List.forall_mem_cons] at hevaluable hvalue
      obtain ⟨newFound, oldFound, hnew, hold, hjudged⟩ := hevaluable.1.judge hvalue.1
      rw [checkAnd_cons finalResult conditions hnew hold]
      rcases hjudged with ⟨hsame, hjudge⟩ | ⟨hchanged, met, hmet, hjudge⟩
      · obtain ⟨result, hresult, hiff⟩ := ih hevaluable.2 hvalue.2 finalResult
        exact ⟨result, by simpa [hjudge, Except.bind, afterAnd] using hresult, by simp [hiff, hsame]⟩
      · cases met with
        | false =>
            have hnot : ¬ Compares queries newData condition := fun h => absurd (hmet.mpr h) (by simp)
            exact ⟨false, by simp [hjudge, Except.bind, afterAnd], by simp [hchanged, hnot]⟩
        | true =>
            obtain ⟨result, hresult, hiff⟩ := ih hevaluable.2 hvalue.2 true
            exact ⟨result, by simpa [hjudge, Except.bind, afterAnd] using hresult,
              by simp [hiff, hchanged, hmet.mp rfl]⟩

theorem checkOr_eq {conditions : List Condition}
    (hevaluable : ∀ condition ∈ conditions, Evaluable queries newData oldData condition)
    (hvalue : ∀ condition ∈ conditions, condition.operator ≠ "Change" → condition.value.isSome)
    (finalResult : Bool) :
    ∃ result, checkOr queries newData oldData finalResult conditions = .ok result ∧
      (result = true ↔ finalResult = true ∨ ∃ condition ∈ conditions,
        Changed queries newData oldData condition ∧ Compares queries newData condition) := by
  induction conditions generalizing finalResult with
  | nil => exact ⟨finalResult, rfl, by simp⟩
  | cons condition conditions ih =>
      rw [List.forall_mem_cons] at hevaluable hvalue
      obtain ⟨newFound, oldFound, hnew, hold, hjudged⟩ := hevaluable.1.judge hvalue.1
      have hfound : (queries.search condition.key newData).toOption.getD .null = newFound := by
        simp [hnew, Except.toOption]
      rw [checkOr_cons finalResult conditions hfound hold]
      rcases hjudged with ⟨hsame, hjudge⟩ | ⟨hchanged, met, hmet, hjudge⟩
      · obtain ⟨result, hresult, hiff⟩ := ih hevaluable.2 hvalue.2 finalResult
        exact ⟨result, by simpa [hjudge, Except.bind] using hresult, by simp [hiff, hsame]⟩
      · obtain ⟨result, hresult, hiff⟩ := ih hevaluable.2 hvalue.2 (met || finalResult)
        refine ⟨result, by simpa [hjudge, Except.bind] using hresult, ?_⟩
        simp only [hiff, Bool.or_eq_true, hmet, List.exists_mem_cons_iff, hchanged, true_and]
        rw [or_assoc, or_left_comm]

theorem not_conditionChecker_iff_forall :
    ¬ ∀ (queries : Queries) (etp : EventTrackerPolicy) (newData oldData : String), etp.conditions ≠ [] →
      (∀ condition ∈ etp.conditions, Evaluable queries newData oldData condition) → etp.conditionType = "and" →
      (conditionChecker queries etp newData oldData = .ok true ↔ ∀ condition ∈ etp.conditions,
        Changed queries newData oldData condition ∧ Compares queries newData condition) := by
  intro h
  have hpolicy := h replicasQueries
    (policyOf "and" [⟨"spec.replicas", some "2", "EqualTo"⟩, ⟨"metadata.name", some "web", "EqualTo"⟩]) "new" "old"
    (by simp [policyOf])
    (by
      simp only [policyOf, List.forall_mem_cons]
      refine ⟨⟨⟨.number 2, rfl, trivial⟩, ⟨.number 1, rfl, trivial⟩⟩,
        ⟨⟨.string "web", rfl, trivial⟩, ⟨.string "web", rfl, trivial⟩⟩, by simp⟩)
    rfl
  have htrue : conditionChecker replicasQueries
      (policyOf "and" [⟨"spec.replicas", some "2", "EqualTo"⟩, ⟨"metadata.name", some "web", "EqualTo"⟩])
      "new" "old" = .ok true := by
    simp [conditionChecker, policyOf, checkAnd, replicasQueries, Found.differs, Condition.met, bind, Except.bind,
      cases]
  obtain ⟨newFound, oldFound, hnew, hold, hne⟩ := ((hpolicy.mp htrue) ⟨"metadata.name", some "web", "EqualTo"⟩
    (by simp [policyOf])).1
  have hnewFound : Found.string "web" = newFound := Except.ok.inj hnew
  have holdFound : Found.string "web" = oldFound := Except.ok.inj hold
  exact hne (hnewFound ▸ holdFound ▸ rfl)

/-- The conditions decide as their type says, whatever their order. -/
def Decides (queries : Queries) (newData oldData conditionType : String) (conditions : List Condition) : Prop :=
  (conditionType = "and" ∧ (∃ condition ∈ conditions, Changed queries newData oldData condition) ∧
    ∀ condition ∈ conditions, Changed queries newData oldData condition → Compares queries newData condition) ∨
  (conditionType = "or" ∧ ∃ condition ∈ conditions,
    Changed queries newData oldData condition ∧ Compares queries newData condition)

theorem conditionChecker_decides {etp : EventTrackerPolicy}
    (hevaluable : ∀ condition ∈ etp.conditions, Evaluable queries newData oldData condition)
    (hvalue : ∀ condition ∈ etp.conditions, condition.operator ≠ "Change" → condition.value.isSome) :
    ∃ result, conditionChecker queries etp newData oldData = .ok result ∧
      (result = true ↔ Decides queries newData oldData etp.conditionType etp.conditions) := by
  unfold conditionChecker Decides
  split
  · rename_i hand
    obtain ⟨result, hresult, hiff⟩ := checkAnd_eq hevaluable hvalue false
    exact ⟨result, hresult, by simp [hiff, hand]⟩
  · rename_i hand
    split
    · rename_i hor
      obtain ⟨result, hresult, hiff⟩ := checkOr_eq hevaluable hvalue false
      exact ⟨result, hresult, by simp [hiff, hor]⟩
    · rename_i hor
      exact ⟨false, rfl, by simp [hand, hor]⟩

theorem decides_of_perm {conditionType : String} {conditions conditions' : List Condition}
    (hperm : conditions.Perm conditions') :
    Decides queries newData oldData conditionType conditions ↔
      Decides queries newData oldData conditionType conditions' := by
  simp only [Decides, hperm.mem_iff]

theorem conditionChecker_eq {etp : EventTrackerPolicy}
    (hevaluable : ∀ condition ∈ etp.conditions, Evaluable queries newData oldData condition)
    (hvalue : ∀ condition ∈ etp.conditions, condition.operator ≠ "Change" → condition.value.isSome) :
    (etp.conditionType = "and" →
      (conditionChecker queries etp newData oldData = .ok true ↔
        (∃ condition ∈ etp.conditions, Changed queries newData oldData condition) ∧
        ∀ condition ∈ etp.conditions, Changed queries newData oldData condition →
          Compares queries newData condition)) ∧
    (etp.conditionType = "or" →
      (conditionChecker queries etp newData oldData = .ok true ↔ ∃ condition ∈ etp.conditions,
        Changed queries newData oldData condition ∧ Compares queries newData condition)) ∧
    ∀ conditions, conditions.Perm etp.conditions →
      conditionChecker queries { etp with conditions := conditions } newData oldData =
        conditionChecker queries etp newData oldData := by
  obtain ⟨result, hresult, hdecides⟩ := conditionChecker_decides hevaluable hvalue
  have htrue : conditionChecker queries etp newData oldData = .ok true ↔
      Decides queries newData oldData etp.conditionType etp.conditions := by
    rw [hresult, Except.ok.injEq, hdecides]
  refine ⟨fun hand => ?_, fun hor => ?_, fun conditions hperm => ?_⟩
  · rw [htrue]
    simp [Decides, hand]
  · rw [htrue]
    simp [Decides, hor]
  · obtain ⟨result', hresult', hdecides'⟩ :=
      @conditionChecker_decides queries newData oldData { etp with conditions := conditions }
        (fun condition hcondition => hevaluable condition (hperm.mem_iff.mp hcondition))
        (fun condition hcondition => hvalue condition (hperm.mem_iff.mp hcondition))
    have hsame : result' = true ↔ result = true := hdecides'.trans ((decides_of_perm hperm).trans hdecides.symm)
    rw [hresult, hresult', Bool.eq_iff_iff.mpr hsame]

theorem conditionChecker_eq_replicas :
    conditionChecker replicasQueries
        (policyOf "and" [⟨"spec.replicas", some "2", "EqualTo"⟩, ⟨"metadata.name", none, "Change"⟩]) "new" "old" =
      conditionChecker replicasQueries
        (policyOf "and" [⟨"metadata.name", none, "Change"⟩, ⟨"spec.replicas", some "2", "EqualTo"⟩]) "new" "old" := by
  have hreplicas : Evaluable replicasQueries "new" "old" ⟨"spec.replicas", some "2", "EqualTo"⟩ :=
    ⟨⟨.number 2, rfl, trivial⟩, ⟨.number 1, rfl, trivial⟩⟩
  have hname : Evaluable replicasQueries "new" "old" ⟨"metadata.name", none, "Change"⟩ :=
    ⟨⟨.string "web", rfl, trivial⟩, ⟨.string "web", rfl, trivial⟩⟩
  exact (@conditionChecker_eq replicasQueries "new" "old"
    (policyOf "and" [⟨"metadata.name", none, "Change"⟩, ⟨"spec.replicas", some "2", "EqualTo"⟩])
    (by simp [policyOf, hreplicas, hname]) (by simp [policyOf])).2.2 _ (List.Perm.swap _ _ _)

end

end LitmusPortal.EventTracker
