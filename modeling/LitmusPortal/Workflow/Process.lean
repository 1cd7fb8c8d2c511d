import LitmusPortal.Workflow.Manifest
import LitmusPortal.Workflow.Store

/-!
# Creating, updating and removing workflow documents

`ProcessWorkflowCreation`, `ProcessWorkflowUpdate` and `ProcessWorkflowDelete`. What they send to
the agent afterwards touches no document.
-/

namespace LitmusPortal

open DocumentStore

def newChaosWorkflow (input : ChaosWorkFlowRequest) (cluster : Cluster) (username : String)
    (wfType : ChaosWorkflowType) (now : Int) : ChaosWorkFlow where
  workflowID := idOf input
  workflowManifest := input.workflowManifest
  cronSyntax := input.cronSyntax
  workflowName := input.workflowName
  workflowDescription := input.workflowDescription
  workflowType := wfType
  isCustomWorkflow := input.isCustomWorkflow
  projectID := input.projectID
  clusterID := input.clusterID
  clusterName := cluster.clusterName
  clusterType := cluster.clusterType
  weightages := input.weightages
  createdAt := formatTime now
  updatedAt := formatTime now
  workflowRuns := []
  isRemoved := false
  lastUpdatedBy := username

def processWorkflowCreation (getFails insertFails : Bool) (now : Int) (clusters : List Cluster)
    (workflows : Workflows) (input : ChaosWorkFlowRequest) (username : String)
    (wfType : ChaosWorkflowType) : Except GoError Unit × Workflows :=
  match getCluster getFails clusters input.clusterID with
  | .error err => (.error err, workflows)
  | .ok cluster =>
      insertChaosWorkflow insertFails workflows (newChaosWorkflow input cluster username wfType now)

/-- The fields `ProcessWorkflowUpdate` sets. -/
def setWorkflow (request : ChaosWorkFlowRequest) (username : String) (wfType : ChaosWorkflowType)
    (now : Int) (workflow : ChaosWorkFlow) : ChaosWorkFlow :=
  { workflow with
    workflowManifest := request.workflowManifest
    workflowType := wfType
    cronSyntax := request.cronSyntax
    workflowName := request.workflowName
    workflowDescription := request.workflowDescription
    isCustomWorkflow := request.isCustomWorkflow
    weightages := request.weightages
    updatedAt := formatTime now
    lastUpdatedBy := username }

def requestQuery (request : ChaosWorkFlowRequest) (workflow : ChaosWorkFlow) : Bool :=
  some workflow.workflowID = request.workflowID && workflow.projectID = request.projectID

def processWorkflowUpdate (fails : Bool) (now : Int) (workflows : Workflows)
    (workflow : ChaosWorkFlowRequest) (username : String) (wfType : ChaosWorkflowType) :
    Except GoError Unit × Workflows :=
  updateChaosWorkflow fails workflows (requestQuery workflow)
    (setWorkflow workflow username wfType now)

def setRemoved (username : String) (workflow : ChaosWorkFlow) : ChaosWorkFlow :=
  { workflow with isRemoved := true, lastUpdatedBy := username }

def processWorkflowDelete (fails : Bool) (workflows : Workflows) (query : ChaosWorkFlow → Bool)
    (username : String) : Except GoError Unit × Workflows :=
  updateChaosWorkflow fails workflows query (setRemoved username)

@[simp]
theorem setWorkflow_workflowID (request : ChaosWorkFlowRequest) (username : String)
    (wfType : ChaosWorkflowType) (now : Int) (workflow : ChaosWorkFlow) :
    (setWorkflow request username wfType now workflow).workflowID = workflow.workflowID := rfl

@[simp]
theorem setRemoved_workflowID (username : String) (workflow : ChaosWorkFlow) :
    (setRemoved username workflow).workflowID = workflow.workflowID := rfl

/-! ### Clashes of workflow documents -/

theorem clash_workflow_iff {left right : ChaosWorkFlow} :
    Clash workflowIndexes left right ↔ left.workflowID = right.workflowID ∨
      (left.isRemoved = false ∧ right.isRemoved = false ∧
        left.workflowName = right.workflowName) := by
  simp only [Clash, workflowIndexes, List.mem_cons, List.not_mem_nil, or_false, exists_eq_or_imp,
    exists_eq_left, ne_eq, reduceCtorEq, not_false_eq_true, Option.some.injEq, true_and]
  constructor
  · rintro (hid | ⟨hsome, hname⟩)
    · exact Or.inl hid
    · by_cases hleft : left.isRemoved = false
      · by_cases hright : right.isRemoved = false
        · exact Or.inr ⟨hleft, hright, by simpa [hleft, hright] using hname⟩
        · simp [hleft, hright] at hname
      · simp [hleft] at hsome
  · rintro (hid | ⟨hleft, hright, hname⟩)
    · exact Or.inl hid
    · exact Or.inr ⟨by simp [hleft], by simp [hleft, hright, hname]⟩

theorem pairwise_setRemoved {docs : List ChaosWorkFlow} (query : ChaosWorkFlow → Bool)
    (username : String)
    (h : docs.Pairwise fun left right => ¬ Clash workflowIndexes left right) :
    (updateFirst query (setRemoved username) docs).Pairwise
      fun left right => ¬ Clash workflowIndexes left right := by
  have hleft : ∀ {left right : ChaosWorkFlow}, Clash workflowIndexes (setRemoved username left) right →
      Clash workflowIndexes left right := by
    intro left right hclash
    rw [clash_workflow_iff] at hclash ⊢
    rcases hclash with hid | ⟨hremoved, -⟩
    · exact Or.inl hid
    · cases hremoved
  induction docs with
  | nil => exact List.Pairwise.nil
  | cons head docs ih =>
      rw [List.pairwise_cons] at h
      by_cases hhead : query head = true
      · rw [updateFirst_cons_of_pos hhead, List.pairwise_cons]
        exact ⟨fun doc hdoc hclash => h.1 doc hdoc (hleft hclash), h.2⟩
      · rw [updateFirst_cons_of_neg hhead, List.pairwise_cons]
        refine ⟨fun doc hdoc hclash => ?_, ih h.2⟩
        rcases mem_updateFirst hdoc with hdoc | ⟨old, hold, -, rfl⟩
        · exact h.1 doc hdoc hclash
        · exact h.1 old hold (hleft hclash.symm).symm

/-- The spec of a removal: it is never refused for a clash. -/
theorem processWorkflowDelete_eq (fails : Bool) (workflows : Workflows)
    (query : ChaosWorkFlow → Bool) (username : String) :
    (processWorkflowDelete fails workflows query username).1 =
        (if fails then .error databaseError else .ok ()) ∧
      (processWorkflowDelete fails workflows query username).2.docs =
        if fails then workflows.docs
        else updateFirst query (setRemoved username) workflows.docs := by
  have hunique := pairwise_setRemoved query username workflows.unique
  unfold processWorkflowDelete
  rcases updateChaosWorkflow_cases fails workflows query (setRemoved username) with
    ⟨hresult, hsame, hwhy⟩ | ⟨hresult, hdocs, rfl, -⟩
  · have hfails : fails = true := hwhy.resolve_right fun hnot => hnot hunique
    rw [hresult, hsame, hfails]
    exact ⟨rfl, rfl⟩
  · rw [hresult, hdocs]
    exact ⟨rfl, rfl⟩

end LitmusPortal
