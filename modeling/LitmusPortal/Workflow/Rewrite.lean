import LitmusPortal.Workflow.RunLemmas
import LitmusPortal.Workflow.Store

/-!
# Deleting and terminating one run

`DeleteChaosWorkflow` and `TerminateChaosWorkflow`, called with a workflow id and a run id. Both
read the workflow document, edit the run list in memory, and hand the whole list back to the
database in `ProcessWorkflowRunDelete`; they differ in the edit only.
-/

namespace LitmusPortal

open DocumentStore

inductive RewriteKind where
  | deleteRun
  | terminate
  deriving DecidableEq, Repr

/-- The arguments of a call for one run: both ids are given, which is what selects this branch in
the two handlers. -/
structure RunTarget where
  projectID : String
  workflowID : String
  workflowRunID : String
  workflowID_ne : workflowID ≠ ""
  workflowRunID_ne : workflowRunID ≠ ""
  deriving DecidableEq

/-- The body of the loop over `workflow.WorkflowRuns`. -/
def editRun (kind : RewriteKind) (workflowRunID : String) (run : ChaosWorkflowRun) :
    ChaosWorkflowRun :=
  if run.workflowRunID = workflowRunID then
    match kind with
    | .deleteRun => { run with isRemoved := some true }
    | .terminate => { run with completed := true, phase := "Terminated" }
  else run

def editRuns (kind : RewriteKind) (target : RunTarget) (workflow : ChaosWorkFlow) : ChaosWorkFlow :=
  { workflow with
    workflowRuns := workflow.workflowRuns.map (editRun kind target.workflowRunID) }

/-- The query both handlers use for the read and for the write. -/
def targetQuery (target : RunTarget) (workflow : ChaosWorkFlow) : Bool :=
  workflow.workflowID = target.workflowID && workflow.projectID = target.projectID

/-- The read, the user name of the token (`none` for an invalid token) and the edit. -/
def prepareRewrite (fails : Bool) (workflows : Workflows) (kind : RewriteKind) (target : RunTarget)
    (username : Option String) : Except GoError ChaosWorkFlow := do
  let workflow ← getWorkflow fails workflows (targetQuery target)
  match username with
  | none => .error (.failed "Invalid Token")
  | some _ => .ok (editRuns kind target workflow)

/-- `ProcessWorkflowRunDelete`: the whole array is set to the edited copy. -/
def processWorkflowRunDelete (fails : Bool) (workflows : Workflows) (target : RunTarget)
    (workflow : ChaosWorkFlow) (now : Int) : Except GoError Unit × Workflows :=
  updateChaosWorkflow fails workflows (targetQuery target) fun doc =>
    { doc with workflowRuns := workflow.workflowRuns, updatedAt := formatTime now }

/-- The read and the write with nothing between them. -/
def rewriteRun (readFails writeFails : Bool) (now : Int) (workflows : Workflows)
    (kind : RewriteKind) (target : RunTarget) (username : Option String) :
    Except GoError Bool × Workflows :=
  match prepareRewrite readFails workflows kind target username with
  | .error err => (.error err, workflows)
  | .ok workflow =>
      let (result, workflows') := processWorkflowRunDelete writeFails workflows target workflow now
      (result.map fun _ => true, workflows')

def deleteChaosWorkflowRun (readFails writeFails : Bool) (now : Int) (workflows : Workflows)
    (target : RunTarget) (username : Option String) : Except GoError Bool × Workflows :=
  rewriteRun readFails writeFails now workflows .deleteRun target username

def terminateChaosWorkflow (readFails writeFails : Bool) (now : Int) (workflows : Workflows)
    (target : RunTarget) (username : Option String) : Except GoError Bool × Workflows :=
  rewriteRun readFails writeFails now workflows .terminate target username

/-! ### The edit and the write -/

@[simp]
theorem editRun_workflowRunID (kind : RewriteKind) (workflowRunID : String)
    (run : ChaosWorkflowRun) : (editRun kind workflowRunID run).workflowRunID = run.workflowRunID := by
  unfold editRun
  split
  · cases kind <;> rfl
  · rfl

theorem editRun_of_ne {kind : RewriteKind} {workflowRunID : String} {run : ChaosWorkflowRun}
    (h : run.workflowRunID ≠ workflowRunID) : editRun kind workflowRunID run = run := if_neg h

/-- The document with its run list replaced, if it is the one the target's query selects. -/
def replaceRuns (target : RunTarget) (runs : List ChaosWorkflowRun) (now : Int)
    (doc : ChaosWorkFlow) : ChaosWorkFlow :=
  if targetQuery target doc then { doc with workflowRuns := runs, updatedAt := formatTime now }
  else doc

@[simp]
theorem replaceRuns_workflowID (target : RunTarget) (runs : List ChaosWorkflowRun) (now : Int)
    (doc : ChaosWorkFlow) : (replaceRuns target runs now doc).workflowID = doc.workflowID := by
  unfold replaceRuns
  split <;> rfl

@[simp]
theorem replaceRuns_projectID (target : RunTarget) (runs : List ChaosWorkflowRun) (now : Int)
    (doc : ChaosWorkFlow) : (replaceRuns target runs now doc).projectID = doc.projectID := by
  unfold replaceRuns
  split <;> rfl

theorem targetQuery_iff {target : RunTarget} {doc : ChaosWorkFlow} :
    targetQuery target doc = true ↔
      doc.workflowID = target.workflowID ∧ doc.projectID = target.projectID := by
  simp [targetQuery]

theorem prepareRewrite_ok {fails : Bool} {workflows : Workflows} {kind : RewriteKind}
    {target : RunTarget} {username : Option String} {workflow : ChaosWorkFlow}
    (h : prepareRewrite fails workflows kind target username = .ok workflow) :
    ∃ doc ∈ workflows.docs, targetQuery target doc = true ∧ workflow = editRuns kind target doc := by
  unfold prepareRewrite getWorkflow at h
  cases fails with
  | true => simp [bind, Except.bind] at h
  | false =>
      cases hfind : workflows.findOne (targetQuery target) with
      | none => simp [hfind, bind, Except.bind] at h
      | some doc =>
          cases username with
          | none => simp [hfind, bind, Except.bind] at h
          | some name =>
              simp only [hfind, Bool.false_eq_true, if_false, bind, Except.bind] at h
              cases h
              exact ⟨doc, List.mem_of_find?_eq_some hfind, List.find?_some hfind, rfl⟩

/-- The spec of the write: a failed one changes nothing, and any other replaces the run list of the
one document the query selects. -/
theorem processWorkflowRunDelete_docs (fails : Bool) (workflows : Workflows) (target : RunTarget)
    (workflow : ChaosWorkFlow) (now : Int) :
    (processWorkflowRunDelete fails workflows target workflow now).2.docs =
      if fails then workflows.docs
      else workflows.docs.map (replaceRuns target workflow.workflowRuns now) := by
  cases fails with
  | true => simp [processWorkflowRunDelete, updateChaosWorkflow]
  | false =>
      obtain ⟨workflows', hupdate, hdocs⟩ := updateOne_workflowRuns workflows
        (targetQuery target)
        (fun doc => { doc with workflowRuns := workflow.workflowRuns, updatedAt := formatTime now })
        (fun _ => rfl) (fun _ => rfl) (fun _ => rfl)
      rw [updateFirst_eq_map_of_key target.workflowID workflows.pairwise_workflowID
        fun doc hquery => (targetQuery_iff.mp hquery).1] at hdocs
      simp only [processWorkflowRunDelete, updateChaosWorkflow, Bool.false_eq_true, if_false, hupdate]
      exact hdocs

end LitmusPortal
