import LitmusPortal.EventTracker.Conditions
import LitmusPortal.Lib.GoFloat

/-!
# Numbers in the conditions of a policy

A number that a key selects is printed and compared with the value as a text.
-/

namespace LitmusPortal.EventTracker

open LitmusPortal GoFloat

def numericOperators : List String :=
  ["EqualTo", "NotEqualTo", "LessThan", "GreaterThan", "GreaterThanEqualTo", "LessThanEqualTo"]

/-- The numeric relation that an operator is named after. -/
def Related (operator : String) (a b : ℤ) : Prop :=
  match operator with
  | "EqualTo" => a = b
  | "NotEqualTo" => a ≠ b
  | "LessThan" => a < b
  | "GreaterThan" => b < a
  | "GreaterThanEqualTo" => b ≤ a
  | "LessThanEqualTo" => a ≤ b
  | _ => False

/-- The order of the texts is that of the numbers, as far as the operator looks at it. -/
def Agrees (operator : String) (a b : ℤ) : Prop :=
  match operator with
  | "EqualTo" | "NotEqualTo" => a = b → a.natAbs < 10 ^ 6
  | "LessThan" | "GreaterThanEqualTo" => TextBefore a b ↔ a < b
  | _ => TextBefore a b ∨ a = b ∧ a.natAbs < 10 ^ 6 ↔ a ≤ b

theorem cases_sprint_iff {operator : String} (hoperator : operator ∈ numericOperators) (a b : ℤ) :
    (cases (sprint a) (toString b) operator = true ↔ Related operator a b) ↔ Agrees operator a b := by
  have hlt := sprint_lt_iff a b
  have heq := sprint_eq_iff a b
  have hge : toString b ≤ sprint a ↔ ¬ TextBefore a b := by rw [← hlt, String.not_lt]
  have hle : sprint a ≤ toString b ↔ TextBefore a b ∨ a = b ∧ a.natAbs < 10 ^ 6 := by
    rw [← hlt, ← heq]
    exact Std.le_iff_lt_or_eq
  have hgt : toString b < sprint a ↔ ¬ (TextBefore a b ∨ a = b ∧ a.natAbs < 10 ^ 6) := by
    rw [← hle, String.not_le]
  simp only [numericOperators, List.mem_cons, List.not_mem_nil, or_false] at hoperator
  rcases hoperator with rfl | rfl | rfl | rfl | rfl | rfl
  · change (decide (sprint a = toString b) = true ↔ a = b) ↔ (a = b → a.natAbs < 10 ^ 6)
    rw [decide_eq_true_iff, heq, and_iff_left_iff_imp]
  · change (decide (sprint a ≠ toString b) = true ↔ a ≠ b) ↔ (a = b → a.natAbs < 10 ^ 6)
    rw [decide_eq_true_iff, ne_eq, heq, ne_eq, not_iff_not, and_iff_left_iff_imp]
  · change (decide (sprint a < toString b) = true ↔ a < b) ↔ (TextBefore a b ↔ a < b)
    rw [decide_eq_true_iff, hlt]
  · change (decide (toString b < sprint a) = true ↔ b < a) ↔ (TextBefore a b ∨ a = b ∧ a.natAbs < 10 ^ 6 ↔ a ≤ b)
    rw [decide_eq_true_iff, hgt, ← Int.not_le, not_iff_not]
  · change (decide (toString b ≤ sprint a) = true ↔ b ≤ a) ↔ (TextBefore a b ↔ a < b)
    rw [decide_eq_true_iff, hge, ← Int.not_lt, not_iff_not]
  · change (decide (sprint a ≤ toString b) = true ↔ a ≤ b) ↔ (TextBefore a b ∨ a = b ∧ a.natAbs < 10 ^ 6 ↔ a ≤ b)
    rw [decide_eq_true_iff, hle]

theorem conditionChecker_single {queries : Queries} {newData oldData conditionType key value operator : String}
    {newFound oldFound : Found} (htype : conditionType = "and" ∨ conditionType = "or")
    (hoperator : operator ≠ "Change") (hnew : queries.search key newData = .ok newFound)
    (hold : queries.search key oldData = .ok oldFound) (hdiffers : newFound.differs oldFound = .ok true) :
    conditionChecker queries (policyOf conditionType [⟨key, some value, operator⟩]) newData oldData =
      .ok (cases (queries.sprint newFound) value operator) := by
  have hmet : Condition.met queries ⟨key, some value, operator⟩ newFound =
      .ok (cases (queries.sprint newFound) value operator) := by
    simp [Condition.met, hoperator]
  have hjudge : Condition.judge queries ⟨key, some value, operator⟩ newFound oldFound =
      .ok (some (cases (queries.sprint newFound) value operator)) := by
    simp [Condition.judge, hdiffers, hmet, bind, Except.bind, pure, Except.pure]
  rcases htype with rfl | rfl
  · change checkAnd queries newData oldData false [⟨key, some value, operator⟩] = _
    rw [checkAnd_cons false [] hnew hold, hjudge]
    cases cases (queries.sprint newFound) value operator <;> rfl
  · change checkOr queries newData oldData false [⟨key, some value, operator⟩] = _
    have hfound : (queries.search key newData).toOption.getD .null = newFound := by simp [hnew, Except.toOption]
    rw [checkOr_cons false [] hfound hold, hjudge]
    cases cases (queries.sprint newFound) value operator <;> rfl

/-- The key selects a number, which is another one than before. -/
def numberQueries (new old : ℤ) : Queries where
  search _ data := .ok (.number (if data = "new" then new else old))
  sprint
    | .number value => sprint value.num
    | _ => "<nil>"

end LitmusPortal.EventTracker
