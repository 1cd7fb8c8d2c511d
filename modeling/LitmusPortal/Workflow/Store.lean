import LitmusPortal.Cluster.Verify

/-!
# Reading and writing workflow documents

The functions of the workflow package of the database layer. `fails` is an error of the driver, in
which nothing is written.
-/

namespace LitmusPortal

open DocumentStore

def getWorkflow (fails : Bool) (workflows : Workflows) (query : ChaosWorkFlow → Bool) :
    Except GoError ChaosWorkFlow :=
  if fails then .error databaseError
  else
    match workflows.findOne query with
    | some workflow => .ok workflow
    | none => .error noDocuments

def getWorkflows (fails : Bool) (workflows : Workflows) (query : ChaosWorkFlow → Bool) :
    Except GoError (List ChaosWorkFlow) :=
  if fails then .error databaseError else .ok (workflows.find query)

def insertChaosWorkflow (fails : Bool) (workflows : Workflows) (workflow : ChaosWorkFlow) :
    Except GoError Unit × Workflows :=
  if fails then (.error databaseError, workflows)
  else
    match workflows.insertOne workflow with
    | .error _ => (.error databaseError, workflows)
    | .ok workflows' => (.ok (), workflows')

/-- How many documents were matched is not looked at. -/
def updateChaosWorkflow (fails : Bool) (workflows : Workflows) (query : ChaosWorkFlow → Bool)
    (update : ChaosWorkFlow → ChaosWorkFlow) : Except GoError Unit × Workflows :=
  if fails then (.error databaseError, workflows)
  else
    match workflows.updateOne query update with
    | .error _ => (.error databaseError, workflows)
    | .ok (workflows', _) => (.ok (), workflows')

theorem getWorkflow_ok {fails : Bool} {workflows : Workflows} {query : ChaosWorkFlow → Bool}
    {workflow : ChaosWorkFlow} (h : getWorkflow fails workflows query = .ok workflow) :
    fails = false ∧ workflows.docs.find? query = some workflow := by
  unfold getWorkflow at h
  split at h
  · cases h
  · rename_i hfails
    split at h
    · rename_i found hfound
      cases h
      exact ⟨by simpa using hfails, hfound⟩
    · cases h

theorem getWorkflow_eq {workflows : Workflows} {query : ChaosWorkFlow → Bool}
    {workflow : ChaosWorkFlow} (h : workflows.docs.find? query = some workflow) :
    getWorkflow false workflows query = .ok workflow := by
  rw [getWorkflow, if_neg (by simp), Collection.findOne, h]

/-- The spec of an insertion: refused with nothing changed, or the document is added. -/
theorem insertChaosWorkflow_cases (fails : Bool) (workflows : Workflows)
    (workflow : ChaosWorkFlow) :
    ((insertChaosWorkflow fails workflows workflow).1 = .error databaseError ∧
      (insertChaosWorkflow fails workflows workflow).2 = workflows ∧
      (fails = true ∨ ∃ doc ∈ workflows.docs, Clash workflowIndexes doc workflow)) ∨
    ((insertChaosWorkflow fails workflows workflow).1 = .ok () ∧
      (insertChaosWorkflow fails workflows workflow).2.docs = workflows.docs ++ [workflow] ∧
      fails = false ∧ ∀ doc ∈ workflows.docs, ¬ Clash workflowIndexes doc workflow) := by
  unfold insertChaosWorkflow
  cases fails with
  | true => exact Or.inl ⟨rfl, rfl, Or.inl rfl⟩
  | false =>
      simp only [Bool.false_eq_true, if_false]
      rcases Collection.insertOne_cases workflows workflow with
        ⟨hrefused, hclash⟩ | ⟨workflows', hinsert, hdocs, hfree⟩
      · rw [hrefused]
        exact Or.inl ⟨rfl, rfl, Or.inr hclash⟩
      · rw [hinsert]
        exact Or.inr ⟨rfl, hdocs, trivial, hfree⟩

/-- The spec of an update: refused with nothing changed, or the first match is changed. -/
theorem updateChaosWorkflow_cases (fails : Bool) (workflows : Workflows)
    (query : ChaosWorkFlow → Bool) (update : ChaosWorkFlow → ChaosWorkFlow) :
    ((updateChaosWorkflow fails workflows query update).1 = .error databaseError ∧
      (updateChaosWorkflow fails workflows query update).2 = workflows ∧
      (fails = true ∨ ¬ (updateFirst query update workflows.docs).Pairwise
        fun left right => ¬ Clash workflowIndexes left right)) ∨
    ((updateChaosWorkflow fails workflows query update).1 = .ok () ∧
      (updateChaosWorkflow fails workflows query update).2.docs =
        updateFirst query update workflows.docs ∧
      fails = false ∧ (updateFirst query update workflows.docs).Pairwise
        fun left right => ¬ Clash workflowIndexes left right) := by
  unfold updateChaosWorkflow
  cases fails with
  | true => exact Or.inl ⟨rfl, rfl, Or.inl rfl⟩
  | false =>
      simp only [Bool.false_eq_true, if_false]
      by_cases hunique : (updateFirst query update workflows.docs).Pairwise
        fun left right => ¬ Clash workflowIndexes left right
      · rw [Collection.updateOne, dif_pos hunique]
        exact Or.inr ⟨rfl, rfl, trivial, hunique⟩
      · rw [Collection.updateOne, dif_neg hunique]
        exact Or.inl ⟨rfl, rfl, Or.inr hunique⟩

end LitmusPortal
