import LitmusPortal.Workflow.Run

/-!
# What a write of a run does to the collection

Every database step of the run handlers replaces the run list of the one document with the given
workflow id and leaves every other document alone; `onWorkflow` is that shape, and the lemmas here
bring each step to it. Unique workflow ids are what makes "the first match" and "the match" the
same document.
-/

namespace LitmusPortal

open DocumentStore

/-- The document with a change made to the run list, if it is the workflow meant. -/
def onWorkflow (workflowID : String) (change : List ChaosWorkflowRun → List ChaosWorkflowRun)
    (workflow : ChaosWorkFlow) : ChaosWorkFlow :=
  if workflow.workflowID = workflowID then
    { workflow with workflowRuns := change workflow.workflowRuns }
  else workflow

section OnWorkflow

variable {workflowID : String} {change : List ChaosWorkflowRun → List ChaosWorkflowRun}
  {workflow : ChaosWorkFlow}

@[simp]
theorem onWorkflow_workflowID : (onWorkflow workflowID change workflow).workflowID =
    workflow.workflowID := by
  unfold onWorkflow
  split <;> rfl

@[simp]
theorem onWorkflow_clusterID : (onWorkflow workflowID change workflow).clusterID =
    workflow.clusterID := by
  unfold onWorkflow
  split <;> rfl

@[simp]
theorem onWorkflow_projectID : (onWorkflow workflowID change workflow).projectID =
    workflow.projectID := by
  unfold onWorkflow
  split <;> rfl

theorem onWorkflow_of_eq (h : workflow.workflowID = workflowID) :
    (onWorkflow workflowID change workflow).workflowRuns = change workflow.workflowRuns := by
  rw [onWorkflow, if_pos h]

theorem onWorkflow_of_ne (h : workflow.workflowID ≠ workflowID) :
    onWorkflow workflowID change workflow = workflow := if_neg h

end OnWorkflow

/-- What a write after the count `count` does to the run list. -/
def writtenRuns (fails : Bool) (wfRun : ChaosWorkflowRun) (count : Nat)
    (runs : List ChaosWorkflowRun) : List ChaosWorkflowRun :=
  if fails then runs
  else if count = 0 then runs ++ [wfRun]
  else if count = 1 then
    updateFirst (isOpenRun wfRun.workflowRunID) (setRunFields wfRun) runs
  else runs

theorem Workflows.pairwise_workflowID (workflows : Workflows) :
    workflows.docs.Pairwise fun left right => left.workflowID ≠ right.workflowID :=
  workflows.unique.imp fun {left right} hnot heq =>
    hnot ⟨fun workflow => some workflow.workflowID, by simp [workflowIndexes], by simp, by simp [heq]⟩

theorem countRuns_le_one (workflows : Workflows) (workflowID workflowRunID : String) :
    countRuns workflows workflowID workflowRunID ≤ 1 :=
  countP_le_one_of_key workflowID workflows.pairwise_workflowID fun doc hquery => by
    simp only [Bool.and_eq_true, decide_eq_true_eq] at hquery
    exact hquery.1

theorem countRuns_eq_zero_iff {workflows : Workflows} {workflowID workflowRunID : String} :
    countRuns workflows workflowID workflowRunID = 0 ↔
      ∀ workflow ∈ workflows.docs, workflow.workflowID = workflowID →
        ∀ run ∈ workflow.workflowRuns, run.workflowRunID ≠ workflowRunID := by
  simp only [countRuns, Collection.countDocuments, List.countP_eq_zero, Bool.and_eq_true,
    decide_eq_true_eq, List.any_eq_true, not_and, not_exists]

theorem countRuns_eq_one {workflows : Workflows} {workflowID workflowRunID : String}
    {doc : ChaosWorkFlow} {run : ChaosWorkflowRun} (hdoc : doc ∈ workflows.docs)
    (hid : doc.workflowID = workflowID) (hrun : run ∈ doc.workflowRuns)
    (hrunID : run.workflowRunID = workflowRunID) :
    countRuns workflows workflowID workflowRunID = 1 := by
  have hle := countRuns_le_one workflows workflowID workflowRunID
  have hne : countRuns workflows workflowID workflowRunID ≠ 0 := fun hzero =>
    countRuns_eq_zero_iff.mp hzero doc hdoc hid run hrun hrunID
  omega

@[simp]
theorem setRunFields_workflowRunID (wfRun run : ChaosWorkflowRun) :
    (setRunFields wfRun run).workflowRunID = run.workflowRunID := rfl

theorem map_workflowRunID_updateFirst (wfRun : ChaosWorkflowRun) (runs : List ChaosWorkflowRun) :
    (updateFirst (isOpenRun wfRun.workflowRunID) (setRunFields wfRun) runs).map
      (·.workflowRunID) = runs.map (·.workflowRunID) :=
  map_updateFirst fun _ _ _ => rfl

theorem updateOne_workflowRuns (workflows : Workflows) (query : ChaosWorkFlow → Bool)
    (change : ChaosWorkFlow → ChaosWorkFlow)
    (hid : ∀ doc, (change doc).workflowID = doc.workflowID)
    (hname : ∀ doc, (change doc).workflowName = doc.workflowName)
    (hremoved : ∀ doc, (change doc).isRemoved = doc.isRemoved) :
    ∃ workflows', workflows.updateOne query change =
        .ok (workflows', if workflows.docs.any query then 1 else 0) ∧
      workflows'.docs = updateFirst query change workflows.docs := by
  refine Collection.updateOne_of_keeps fun index hindex doc _ => ?_
  simp only [workflowIndexes, List.mem_cons, List.not_mem_nil, or_false] at hindex
  rcases hindex with rfl | rfl
  · simp only [hid]
  · simp only [hname, hremoved]

theorem map_onWorkflow_id (workflowID : String) (docs : List ChaosWorkFlow) :
    docs.map (onWorkflow workflowID fun runs => runs) = docs := by
  refine (List.map_congr_left fun doc _ => ?_).trans (List.map_id' docs)
  unfold onWorkflow
  split <;> rfl

theorem writeRun_docs_of_none {fails : Bool} {count : Nat} (workflows : Workflows)
    (workflowID : String) (wfRun : ChaosWorkflowRun)
    (h : fails = true ∨ (count ≠ 0 ∧ count ≠ 1)) :
    (writeRun fails workflows workflowID wfRun count).2 = workflows := by
  unfold writeRun
  rcases h with hfails | ⟨hzero, hone⟩
  · simp only [hfails, if_true]
    split
    · rfl
    · split <;> rfl
  · simp only [hzero, hone, if_false]

theorem writeRun_push (workflows : Workflows) (workflowID : String) (wfRun : ChaosWorkflowRun) :
    (writeRun false workflows workflowID wfRun 0).1 =
        (if workflows.docs.any (fun workflow => workflow.workflowID = workflowID) then .ok 1
          else .error (.failed "workflow not found")) ∧
      (writeRun false workflows workflowID wfRun 0).2.docs =
        workflows.docs.map (onWorkflow workflowID fun runs => runs ++ [wfRun]) := by
  obtain ⟨workflows', hupdate, hdocs⟩ := updateOne_workflowRuns workflows
    (fun workflow => decide (workflow.workflowID = workflowID)) (pushRun wfRun) (fun _ => rfl) (fun _ => rfl) (fun _ => rfl)
  have hmap : workflows'.docs =
      workflows.docs.map (onWorkflow workflowID fun runs => runs ++ [wfRun]) := by
    rw [hdocs, updateFirst_eq_map_of_key workflowID workflows.pairwise_workflowID
      fun doc hquery => by simpa using hquery]
    refine List.map_congr_left fun doc _ => ?_
    by_cases hid : doc.workflowID = workflowID <;> simp [onWorkflow, pushRun, hid]
  unfold writeRun
  simp only [if_true, Bool.false_eq_true, if_false, hupdate]
  by_cases hany : workflows.docs.any (fun workflow => workflow.workflowID = workflowID) = true
  · simp [hany, hmap]
  · simp [hany, hmap]

theorem writeRun_set (workflows : Workflows) (workflowID : String) (wfRun : ChaosWorkflowRun) :
    (writeRun false workflows workflowID wfRun 1).1 =
        .ok (if workflows.docs.any (fun workflow => workflow.workflowID = workflowID &&
          workflow.workflowRuns.any (isOpenRun wfRun.workflowRunID)) then 1 else 0) ∧
      (writeRun false workflows workflowID wfRun 1).2.docs =
        workflows.docs.map (onWorkflow workflowID
          (updateFirst (isOpenRun wfRun.workflowRunID) (setRunFields wfRun))) := by
  obtain ⟨workflows', hupdate, hdocs⟩ := updateOne_workflowRuns workflows
    (fun workflow => decide (workflow.workflowID = workflowID) &&
      workflow.workflowRuns.any (isOpenRun wfRun.workflowRunID)) (setRun wfRun) (fun _ => rfl) (fun _ => rfl) (fun _ => rfl)
  have hmap : workflows'.docs = workflows.docs.map (onWorkflow workflowID
      (updateFirst (isOpenRun wfRun.workflowRunID) (setRunFields wfRun))) := by
    rw [hdocs, updateFirst_eq_map_of_key workflowID workflows.pairwise_workflowID
      fun doc hquery => by
        simp only [Bool.and_eq_true, decide_eq_true_eq] at hquery
        exact hquery.1]
    refine List.map_congr_left fun doc _ => ?_
    unfold onWorkflow
    by_cases hid : doc.workflowID = workflowID
    · by_cases hopen : doc.workflowRuns.any (isOpenRun wfRun.workflowRunID) = true
      · simp [setRun, hid, hopen]
      · -- the array has no open run with this id, so the positional change is the identity too
        have hnone : updateFirst (isOpenRun wfRun.workflowRunID) (setRunFields wfRun)
            doc.workflowRuns = doc.workflowRuns :=
          updateFirst_of_forall_not fun run hrun hopen' =>
            hopen (List.any_eq_true.mpr ⟨run, hrun, hopen'⟩)
        rw [if_neg (by simp [hopen]), if_pos hid, hnone]
    · simp [hid]
  unfold writeRun
  simp only [Nat.one_ne_zero, if_true, Bool.false_eq_true, if_false, hupdate]
  exact ⟨trivial, hmap⟩

/-- The spec of the write: the one document with the workflow id has its runs changed. -/
theorem writeRun_docs (fails : Bool) (workflows : Workflows) (workflowID : String)
    (wfRun : ChaosWorkflowRun) (count : Nat) :
    (writeRun fails workflows workflowID wfRun count).2.docs =
      workflows.docs.map (onWorkflow workflowID (writtenRuns fails wfRun count)) := by
  by_cases hnone : fails = true ∨ (count ≠ 0 ∧ count ≠ 1)
  · have hwritten : writtenRuns fails wfRun count = fun runs => runs := by
      funext runs
      rcases hnone with hfails | ⟨hzero, hone⟩
      · simp [writtenRuns, hfails]
      · simp [writtenRuns, hzero, hone]
    rw [hwritten, map_onWorkflow_id, writeRun_docs_of_none workflows workflowID wfRun hnone]
  · push Not at hnone
    obtain ⟨hfails, hcount⟩ := hnone
    obtain rfl : fails = false := by simpa using hfails
    by_cases hzero : count = 0
    · subst hzero
      exact (writeRun_push workflows workflowID wfRun).2
    · obtain rfl := hcount hzero
      exact (writeRun_set workflows workflowID wfRun).2

/-! ### The whole event -/

/-- The event passes every check and no database step of it fails, so that it is written. -/
def reachesWrite (env : Env) (faults : RunFaults) (db : Database) (request : WorkflowRunRequest) :
    Bool :=
  match verifyRequest env faults.getCluster db.clusters request with
  | .error _ => false
  | .ok (_, executionData) =>
      (measureRun env faults.getWorkflows db.workflows request executionData).isOk &&
        !faults.countDocuments && !faults.update

/-- The documents after an event: those before, or those with the run list of one workflow
written. -/
theorem chaosWorkflowRun_docs (env : Env) (faults : RunFaults) (now : Int) (db : Database)
    (request : WorkflowRunRequest) :
    (reachesWrite env faults db request = false ∧
      (chaosWorkflowRun env faults now db request).2 = db) ∨
    (reachesWrite env faults db request = true ∧ ∃ cluster executionData metrics,
      verifyRequest env faults.getCluster db.clusters request = .ok (cluster, executionData) ∧
      measureRun env faults.getWorkflows db.workflows request executionData = .ok metrics ∧
      (chaosWorkflowRun env faults now db request).2.workflows.docs =
        db.workflows.docs.map (onWorkflow request.workflowID
          (writtenRuns false (newRun request executionData metrics now)
            (countRuns db.workflows request.workflowID request.workflowRunID)))) := by
  unfold chaosWorkflowRun reachesWrite
  cases hverify : verifyRequest env faults.getCluster db.clusters request with
  | error err => exact Or.inl ⟨rfl, rfl⟩
  | ok verified =>
      obtain ⟨cluster, executionData⟩ := verified
      cases hmeasure : measureRun env faults.getWorkflows db.workflows request executionData with
      | error err => exact Or.inl ⟨by simp [hmeasure, Except.isOk, Except.toBool], by simp [hmeasure]⟩
      | ok metrics =>
          cases hcount : faults.countDocuments with
          | true =>
              exact Or.inl ⟨by simp, by simp [hmeasure, updateWorkflowRun]⟩
          | false =>
              cases hupdate : faults.update with
              | true =>
                  refine Or.inl ⟨by simp, ?_⟩
                  simp [hmeasure, updateWorkflowRun, writeRun_docs_of_none _ _ _ (Or.inl rfl)]
              | false =>
                  refine Or.inr ⟨by simp [hmeasure, Except.isOk, Except.toBool], cluster,
                    executionData, metrics, rfl, hmeasure, ?_⟩
                  simp only [hmeasure, updateWorkflowRun, Bool.false_eq_true, if_false]
                  exact writeRun_docs false db.workflows request.workflowID _ _

end LitmusPortal
