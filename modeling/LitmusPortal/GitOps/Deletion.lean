import LitmusPortal.DataStore.Connections
import LitmusPortal.GitOps.Sync
import LitmusPortal.Lib.Chooser
import LitmusPortal.Workflow.RunLemmas

/-!
# Deletion of a workflow by its file

`deleteWorkflow` where the database is free to take any match. Documents that were removed earlier keep their
names and match as well, since the query does not ask for `isRemoved`.
-/

namespace LitmusPortal

open DocumentStore Connections

/-! ## The database is free to choose -/

/-- What `SendWorkflowToSubscriber` hands to `SendRequestToSubscriber`. -/
def workflowRequest (codec : Codec) (agentNamespace projectID clusterID workflowManifest reqType : String)
    (username : Option String) : SubscriberRequests where
  requestType := reqType
  k8sManifest := workflowManifest
  externalData := none
  projectID := projectID
  clusterID := clusterID
  namespaceName :=
    let workflowNamespace := codec.jsonGet workflowManifest "metadata.namespace"
    if workflowNamespace = "" then agentNamespace else workflowNamespace
  username := username

def getWorkflowBy (choose : Chooser ChaosWorkFlow) (fails : Bool) (workflows : Workflows)
    (query : ChaosWorkFlow → Bool) : Except GoError ChaosWorkFlow :=
  if fails then .error databaseError
  else
    match workflows.findOneBy choose query with
    | some workflow => .ok workflow
    | none => .error noDocuments

def updateChaosWorkflowBy (choose : Chooser ChaosWorkFlow) (fails : Bool) (workflows : Workflows)
    (query : ChaosWorkFlow → Bool) (update : ChaosWorkFlow → ChaosWorkFlow) :
    Except GoError Unit × Workflows :=
  if fails then (.error databaseError, workflows)
  else
    match workflows.updateOneBy choose query update with
    | .error _ => (.error databaseError, workflows)
    | .ok (workflows', _) => (.ok (), workflows')

/-- `ProcessWorkflowDelete` with the request it sends. -/
def processWorkflowDeleteBy (choose : Chooser ChaosWorkFlow) (codec : Codec) (agentNamespace : String)
    (fails : Bool) (workflows : Workflows) (query : ChaosWorkFlow → Bool) (workflow : ChaosWorkFlow)
    (username : String) : Except GoError Unit × Workflows × List SubscriberRequests :=
  match updateChaosWorkflowBy choose fails workflows query (setRemoved username) with
  | (.error err, workflows) => (.error err, workflows, [])
  | (.ok _, workflows) =>
      (.ok (), workflows, [workflowRequest codec agentNamespace workflow.projectID workflow.clusterID
        workflow.workflowManifest "delete" (some username)])

/-- `deleteWorkflow` with a choice for its read and one for its update. -/
def deleteWorkflowBy (read write : Chooser ChaosWorkFlow) (env : SyncEnv) (agentNamespace : String)
    (config : GitConfig) (file : String) (workflows : Workflows) :
    Except GoError Unit × Workflows × List SubscriberRequests :=
  match getWorkflowBy read (env.faults file).getWorkflow workflows (deleteQuery config file) with
  | .error err => (.error err, workflows, [])
  | .ok workflow =>
      processWorkflowDeleteBy write env.codec agentNamespace (env.faults file).write workflows
        (deleteQuery config file) workflow gitUsername

theorem deleteWorkflowBy_first (env : SyncEnv) (agentNamespace : String) (config : GitConfig) (file : String)
    (workflows : Workflows) :
    ((deleteWorkflowBy .first .first env agentNamespace config file workflows).1,
        (deleteWorkflowBy .first .first env agentNamespace config file workflows).2.1) =
      deleteWorkflow env config file workflows := by
  have hnodup : workflows.docs.Nodup := workflows.pairwise_workflowID.imp fun hne heq =>
    hne (congrArg ChaosWorkFlow.workflowID heq)
  unfold deleteWorkflowBy deleteWorkflow getWorkflowBy getWorkflow
  rw [Collection.findOneBy_first]
  cases (env.faults file).getWorkflow with
  | true => rfl
  | false =>
  simp only [Bool.false_eq_true, if_false]
  cases workflows.findOne (deleteQuery config file) with
  | none => rfl
  | some workflow =>
  simp only [processWorkflowDeleteBy, processWorkflowDelete, updateChaosWorkflowBy, updateChaosWorkflow,
    Collection.updateOneBy_first workflows hnodup]
  cases (env.faults file).write with
  | true => rfl
  | false =>
  simp only [Bool.false_eq_true, if_false]
  cases workflows.updateOne (deleteQuery config file) (setRemoved gitUsername) with
  | error err => rfl
  | ok updated => rfl

/-! ## Removal of one document -/

section Removal

variable {workflows : Workflows} {username : String}

theorem pairwise_updateDoc_setRemoved (chosen : ChaosWorkFlow) :
    (updateDoc (setRemoved username) chosen workflows.docs).Pairwise
      fun left right => ¬ Clash workflowIndexes left right := by
  rw [updateDoc, List.pairwise_map]
  refine workflows.unique.imp fun {left right} hnot hclash => hnot ?_
  have hid : ∀ doc : ChaosWorkFlow,
      (if doc = chosen then setRemoved username doc else doc).workflowID = doc.workflowID := by
    intro doc
    split_ifs <;> rfl
  have hname : ∀ doc : ChaosWorkFlow,
      (if doc = chosen then setRemoved username doc else doc).workflowName = doc.workflowName := by
    intro doc
    split_ifs <;> rfl
  have hlive : ∀ doc : ChaosWorkFlow,
      (if doc = chosen then setRemoved username doc else doc).isRemoved = false → doc.isRemoved = false := by
    intro doc hremoved
    split_ifs at hremoved with heq
    · cases hremoved
    · exact hremoved
  rw [clash_workflow_iff, hid, hid, hname, hname] at hclash
  rw [clash_workflow_iff]
  rcases hclash with hid | hname
  · exact .inl hid
  · exact .inr ⟨hlive left hname.1, hlive right hname.2.1, hname.2.2⟩

theorem updateChaosWorkflowBy_setRemoved {choose : Chooser ChaosWorkFlow} {query : ChaosWorkFlow → Bool}
    {chosen : ChaosWorkFlow} (h : choose.pick (workflows.docs.filter query) = some chosen) :
    ∃ workflows', updateChaosWorkflowBy choose false workflows query (setRemoved username) =
        (.ok (), workflows') ∧
      workflows'.docs = updateDoc (setRemoved username) chosen workflows.docs := by
  refine ⟨⟨_, pairwise_updateDoc_setRemoved chosen⟩, ?_, rfl⟩
  simp only [updateChaosWorkflowBy, Bool.false_eq_true, if_false, Collection.updateOneBy, h,
    dif_pos (pairwise_updateDoc_setRemoved chosen)]

end Removal

/-! ## What a deletion should do -/

/-- What the deletion of one file is to do. -/
def DeletesLive (config : GitConfig) (file : String) (workflows : Workflows)
    (outcome : Except GoError Unit × Workflows × List SubscriberRequests) : Prop :=
  outcome.1 = .ok () →
    (∀ doc ∈ outcome.2.1.docs, deleteQuery config file doc = true → doc.isRemoved = true) ∧
    ∃ live ∈ workflows.docs, deleteQuery config file live = true ∧ live.isRemoved = false ∧
      ∃ request, outcome.2.2 = [request] ∧ request.requestType = "delete" ∧
        request.k8sManifest = live.workflowManifest ∧ request.clusterID = live.clusterID

section Deletion

variable {env : SyncEnv} {agentNamespace : String} {config : GitConfig} {file : String}
  {workflows : Workflows} {read write : Chooser ChaosWorkFlow}

theorem deleteWorkflowBy_of_picks {found chosen : ChaosWorkFlow}
    (hread : (env.faults file).getWorkflow = false) (hwrite : (env.faults file).write = false)
    (hfound : read.pick (workflows.docs.filter (deleteQuery config file)) = some found)
    (hchosen : write.pick (workflows.docs.filter (deleteQuery config file)) = some chosen) :
    ∃ workflows', deleteWorkflowBy read write env agentNamespace config file workflows =
        (.ok (), workflows', [workflowRequest env.codec agentNamespace found.projectID found.clusterID
          found.workflowManifest "delete" (some gitUsername)]) ∧
      workflows'.docs = updateDoc (setRemoved gitUsername) chosen workflows.docs := by
  obtain ⟨workflows', hupdate, hdocs⟩ := @updateChaosWorkflowBy_setRemoved _ gitUsername _ _ _ hchosen
  refine ⟨workflows', ?_, hdocs⟩
  simp only [deleteWorkflowBy, getWorkflowBy, hread, Bool.false_eq_true, if_false, Collection.findOneBy,
    hfound, processWorkflowDeleteBy, hwrite, hupdate]

theorem deleteWorkflowBy_ok (h : (deleteWorkflowBy read write env agentNamespace config file workflows).1 = .ok ()) :
    (env.faults file).getWorkflow = false ∧ (env.faults file).write = false ∧
      ∃ found, read.pick (workflows.docs.filter (deleteQuery config file)) = some found := by
  unfold deleteWorkflowBy getWorkflowBy at h
  cases hread : (env.faults file).getWorkflow with
  | true => simp [hread] at h
  | false =>
  simp only [hread, Bool.false_eq_true, if_false] at h
  cases hfound : workflows.findOneBy read (deleteQuery config file) with
  | none => simp [hfound] at h
  | some found =>
  rw [hfound] at h
  cases hwrite : (env.faults file).write with
  | true => simp [processWorkflowDeleteBy, updateChaosWorkflowBy, hwrite] at h
  | false => exact ⟨rfl, rfl, found, hfound⟩

/-- A name is that of one live workflow at most. -/
theorem eq_of_live {left right : ChaosWorkFlow} (hleft : left ∈ workflows.docs) (hright : right ∈ workflows.docs)
    (hmatches : deleteQuery config file left = true) (hmatches' : deleteQuery config file right = true)
    (hlive : left.isRemoved = false) (hlive' : right.isRemoved = false) : left = right := by
  simp only [deleteQuery, Bool.and_eq_true, decide_eq_true_eq] at hmatches hmatches'
  apply workflows.eq_of_clash hleft hright
  rw [clash_workflow_iff]
  exact .inr ⟨hlive, hlive', hmatches.1.trans hmatches'.1.symm⟩

end Deletion

/-- Whatever the database chooses, the live workflow is deleted and its agent is told, exactly when no removed
workflow has the name of the file. -/
theorem deletesLive_iff (env : SyncEnv) (agentNamespace : String) (config : GitConfig) (file : String)
    (workflows : Workflows) :
    (∀ read write, DeletesLive config file workflows
      (deleteWorkflowBy read write env agentNamespace config file workflows)) ↔
    (env.faults file).getWorkflow = true ∨ (env.faults file).write = true ∨
      ∀ doc ∈ workflows.docs, deleteQuery config file doc = true → doc.isRemoved = false := by
  constructor
  · intro h
    by_contra hnot
    push Not at hnot
    obtain ⟨hread, hwrite, removed, hremoved, hmatches, hnotLive⟩ := hnot
    -- the removed document is read and removed again
    have hpick := @Chooser.pick_prefer _ _ removed (workflows.docs.filter (deleteQuery config file))
      (List.mem_filter.mpr ⟨hremoved, hmatches⟩)
    obtain ⟨workflows', hdelete, hdocs⟩ := @deleteWorkflowBy_of_picks env agentNamespace config file workflows
      _ _ _ _ (by simpa using hread) (by simpa using hwrite) hpick hpick
    have hdeletes := h (.prefer removed) (.prefer removed)
    rw [hdelete] at hdeletes
    obtain ⟨hnone, live, hlive, hliveMatches, hliveRemoved, -⟩ := hdeletes rfl
    have hstays : live ∈ workflows'.docs := by
      rw [hdocs, mem_updateDoc]
      exact .inl ⟨hlive, fun heq => hnotLive (heq ▸ hliveRemoved)⟩
    exact absurd (hnone live hstays hliveMatches) (by simp [hliveRemoved])
  · intro h read write hok
    obtain ⟨hread, hwrite, found, hfound⟩ := deleteWorkflowBy_ok hok
    have hall : ∀ doc ∈ workflows.docs, deleteQuery config file doc = true → doc.isRemoved = false := by
      rcases h with hfails | hfails | hall
      · simp [hread] at hfails
      · simp [hwrite] at hfails
      · exact hall
    obtain ⟨hmem, hmatches⟩ := List.mem_filter.mp (read.pick_mem hfound)
    have honly : ∀ other ∈ workflows.docs.filter (deleteQuery config file), other = found := by
      intro other hother
      obtain ⟨hotherMem, hotherMatches⟩ := List.mem_filter.mp hother
      exact eq_of_live hotherMem hmem hotherMatches hmatches (hall _ hotherMem hotherMatches)
        (hall _ hmem hmatches)
    have hchosen := write.pick_of_forall_eq (read.pick_mem hfound) honly
    obtain ⟨workflows', hdelete, hdocs⟩ := @deleteWorkflowBy_of_picks env agentNamespace config file workflows
      _ _ _ _ hread hwrite hfound hchosen
    rw [hdelete]
    refine ⟨fun doc hdoc hdocMatches => ?_, found, hmem, hmatches, hall _ hmem hmatches, _, rfl, rfl, rfl, rfl⟩
    rw [hdocs, mem_updateDoc] at hdoc
    rcases hdoc with ⟨hdoc, hne⟩ | ⟨-, rfl⟩
    · exact absurd (honly doc (List.mem_filter.mpr ⟨hdoc, hdocMatches⟩)) hne
    · rfl

/-! ### A name that was used before -/

/-- The sample workflow after a workflow of the same name has been removed. -/
def reusedName : Workflows :=
  ⟨[{ sampleWorkflow with workflowID := "workflow-0", isRemoved := true }, sampleWorkflow], by decide⟩

theorem not_alwaysDeletesLive :
    ¬ ∀ env agentNamespace config file workflows read write, DeletesLive config file workflows
      (deleteWorkflowBy read write env agentNamespace config file workflows) := by
  intro h
  have hdeletes := h sampleSyncEnv "litmus" sampleConfig "litmus/project-1/pod-delete.yaml" reusedName .first
    .first (by decide)
  exact absurd hdeletes.1 (by decide)

end LitmusPortal
