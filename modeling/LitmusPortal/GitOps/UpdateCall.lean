import LitmusPortal.GitOps.Atomicity
import LitmusPortal.GitOps.Deletion
import LitmusPortal.GitOps.FileChange
import LitmusPortal.GitOps.Upsert
import LitmusPortal.Workflow.Weights

/-!
# Updates of a workflow by request

The handler of the mutation `updateChaosWorkflow`: the request is processed, its file is pushed, and the document
is written. A request without an id gets a fresh one, and that the write has matched a document is not looked at.
-/

namespace LitmusPortal

open DocumentStore Connections

/-! ## The handler -/

/-- `ProcessWorkflowUpdate` with the request it sends. -/
def processWorkflowUpdateTo (codec : Codec) (agentNamespace : String) (fails : Bool) (now : Int)
    (workflows : Workflows) (workflow : ChaosWorkFlowRequest) (username : String) (wfType : ChaosWorkflowType) :
    Except GoError Unit × Workflows × List SubscriberRequests :=
  match processWorkflowUpdate fails now workflows workflow username wfType with
  | (.error err, workflows) => (.error err, workflows, [])
  | (.ok _, workflows) =>
      (.ok (), workflows, [workflowRequest codec agentNamespace workflow.projectID workflow.clusterID
        workflow.workflowManifest "update" (some username)])

namespace Handler

/-- `UpdateChaosWorkflow` of the handler with what it sends to the agent. -/
def updateChaosWorkflowTo (env : SyncEnv) (agentNamespace uuid : String) (steps : SaveSteps)
    (rangeOrder : List String → List String) (request : ChaosWorkFlowRequest) (state : GitOpsState) :
    Except GoError ChaosWorkFlowResponse × GitOpsState × List SubscriberRequests :=
  match processWorkflow env.codec uuid steps.getCluster env.clusters request with
  | .error err => (.error err, state, [])
  | .ok (request, wfType) =>
  match steps.username with
  | none => (.error usernameError, state, [])
  | some username =>
  match upsertWorkflowToGit env steps.upsert rangeOrder request state with
  | (.error err, state) => (.error err, state, [])
  | (.ok _, state) =>
  match processWorkflowUpdateTo env.codec agentNamespace steps.write env.now state.workflows request username
      wfType with
  | (.error err, workflows, sent) => (.error err, { state with workflows := workflows }, sent)
  | (.ok _, workflows, sent) =>
      (.ok {
        workflowID := idOf request
        cronSyntax := request.cronSyntax
        workflowName := request.workflowName
        workflowDescription := request.workflowDescription
        isCustomWorkflow := request.isCustomWorkflow }, { state with workflows := workflows }, sent)

/-- But for what it sends, this is the handler of the pushed files. -/
theorem updateChaosWorkflowTo_fst (env : SyncEnv) (agentNamespace uuid : String) (steps : SaveSteps)
    (rangeOrder : List String → List String) (request : ChaosWorkFlowRequest) (state : GitOpsState) :
    ((updateChaosWorkflowTo env agentNamespace uuid steps rangeOrder request state).1,
      (updateChaosWorkflowTo env agentNamespace uuid steps rangeOrder request state).2.1) =
      updateChaosWorkflow env steps uuid rangeOrder request state := by
  unfold updateChaosWorkflowTo updateChaosWorkflow saveChaosWorkflow
  cases processWorkflow env.codec uuid steps.getCluster env.clusters request with
  | error err => rfl
  | ok made =>
      obtain ⟨processed, wfType⟩ := made
      cases husername : steps.username with
      | none => simp
      | some username =>
          simp only [Option.isNone_some, Bool.and_false, Bool.false_eq_true, ↓reduceIte]
          cases upsertWorkflowToGit env steps.upsert rangeOrder processed state with
          | mk pushed state' =>
              cases pushed with
              | error err => rfl
              | ok _ =>
                  simp only [storeWorkflow, husername, writeWorkflow, processWorkflowUpdateTo]
                  cases processWorkflowUpdate steps.write env.now state'.workflows processed username wfType with
                  | mk written workflows => cases written <;> rfl

end Handler

/-! ## No step loses a document -/

section Keys

variable {env : SyncEnv} {config : GitConfig} {workflows : Workflows}

/-- Which documents there are: their ids and projects. -/
def docKeys (workflows : Workflows) : List (String × String) :=
  workflows.docs.map fun workflow => (workflow.workflowID, workflow.projectID)

theorem docKeys_updateChaosWorkflow (fails : Bool) (workflows : Workflows) (query : ChaosWorkFlow → Bool)
    {update : ChaosWorkFlow → ChaosWorkFlow}
    (h : ∀ doc, (update doc).workflowID = doc.workflowID ∧ (update doc).projectID = doc.projectID) :
    docKeys (updateChaosWorkflow fails workflows query update).2 = docKeys workflows := by
  rcases updateChaosWorkflow_cases fails workflows query update with ⟨-, hsame, -⟩ | ⟨-, hdocs, -⟩
  · rw [hsame]
  · rw [docKeys, hdocs]
    exact map_updateFirst fun doc _ _ => Prod.ext (h doc).1 (h doc).2

theorem docKeys_deleteWorkflow (file : String) :
    docKeys (deleteWorkflow env config file workflows).2 = docKeys workflows := by
  unfold deleteWorkflow
  cases getWorkflow (env.faults file).getWorkflow workflows (deleteQuery config file) with
  | error err => rfl
  | ok workflow => exact docKeys_updateChaosWorkflow _ workflows _ fun _ => ⟨rfl, rfl⟩

theorem docKeys_updateWorkflow (data wfID file : String) :
    docKeys (updateWorkflow env config data wfID file workflows).2 = docKeys workflows := by
  unfold updateWorkflow
  cases prepareUpdate env config data wfID file workflows with
  | error err => rfl
  | ok prepared =>
      cases prepared with
      | none => rfl
      | some prepared => exact docKeys_updateChaosWorkflow _ workflows _ fun _ => ⟨rfl, rfl⟩

theorem docKeys_createWorkflow (data file : String) (s : SyncState) :
    docKeys s.workflows ⊆ docKeys (createWorkflow env config data file s).2.workflows := by
  have hinsert : ∀ input wfType, docKeys s.workflows ⊆
      docKeys (processWorkflowCreation (env.faults file).getClusterAgain (env.faults file).write env.now
        env.clusters s.workflows input gitUsername wfType).2 := by
    intro input wfType
    unfold processWorkflowCreation
    cases getCluster (env.faults file).getClusterAgain env.clusters input.clusterID with
    | error err => exact List.Subset.refl _
    | ok cluster =>
        rcases insertChaosWorkflow_cases (env.faults file).write s.workflows
          (newChaosWorkflow input cluster gitUsername wfType env.now) with ⟨-, hsame, -⟩ | ⟨-, hdocs, -⟩
        · rw [hsame]
          exact List.Subset.refl _
        · rw [docKeys, docKeys, hdocs, List.map_append]
          exact List.subset_append_left _ _
  unfold createWorkflow
  cases prepareCreate env config data file with
  | error err => exact List.Subset.refl _
  | ok prepared =>
  cases prepared with
  | none => exact List.Subset.refl _
  | some prepared =>
  obtain ⟨input, wfType⟩ := prepared
  simp only
  split
  · exact hinsert input wfType
  · split
    · exact hinsert input wfType
    · split_ifs
      · exact hinsert input wfType
      · exact hinsert input wfType

theorem docKeys_syncFile (file : String) (s : SyncState) :
    docKeys s.workflows ⊆ docKeys (syncFile env config file s).workflows := by
  unfold syncFile
  split
  · rw [docKeys_deleteWorkflow]
    exact List.Subset.refl _
  · split_ifs
    · exact List.Subset.refl _
    · split
      · exact List.Subset.refl _
      · simp only
        split_ifs
        · exact List.Subset.refl _
        · rw [noteCreated_workflows]
          exact docKeys_createWorkflow _ file s
        · rw [docKeys_updateWorkflow]
          exact List.Subset.refl _

theorem docKeys_syncFiles (files : List String) (s : SyncState) :
    docKeys s.workflows ⊆ docKeys (syncFiles env config files s).2.workflows := by
  induction files generalizing s with
  | nil => exact List.Subset.refl _
  | cons file rest ih =>
      rw [syncFiles]
      split_ifs
      · exact ih s
      · exact List.Subset.refl _
      · exact List.Subset.trans (docKeys_syncFile file s) (ih _)

theorem finishSync_workflows (steps : SyncSteps) (latestCommit : String) (state : GitOpsState)
    (newWorkflows : Bool) :
    (finishSync steps config latestCommit state newWorkflows).2.workflows = state.workflows := by
  unfold finishSync
  split <;> rfl

theorem docKeys_syncDBToGit (steps : SyncSteps) (rangeOrder : List String → List String)
    (state : GitOpsState) :
    docKeys state.workflows ⊆ docKeys (syncDBToGit env steps rangeOrder config state).2.workflows := by
  unfold syncDBToGit
  split
  · exact List.Subset.refl _
  · split
    · exact List.Subset.refl _
    · rename_i clone latestCommit files _
      split_ifs
      · exact List.Subset.refl _
      · have hfiles := @docKeys_syncFiles env config (rangeOrder files.keys)
          ⟨state.workflows, clone.worktree, false⟩
        simp only
        split
        · exact hfiles
        · rw [finishSync_workflows]
          exact hfiles

theorem pushWorkflow_workflows (codec : Codec) (steps : UpsertSteps) (workflow : ChaosWorkFlowRequest)
    (state : GitOpsState) : (pushWorkflow codec steps config workflow state).2.workflows = state.workflows := by
  unfold pushWorkflow
  repeat' split
  all_goals rfl

theorem docKeys_upsertWorkflowToGit (steps : UpsertSteps) (rangeOrder : List String → List String)
    (workflow : ChaosWorkFlowRequest) (state : GitOpsState) :
    docKeys state.workflows ⊆
      docKeys (upsertWorkflowToGit env steps rangeOrder workflow state).2.workflows := by
  unfold upsertWorkflowToGit
  split
  · exact List.Subset.refl _
  · exact List.Subset.refl _
  · rename_i repoData _
    have hsync := @docKeys_syncDBToGit env (getGitOpsConfig repoData) steps.sync rangeOrder state
    split
    · rename_i hfails
      rw [hfails] at hsync
      exact hsync
    · rename_i hsynced
      rw [hsynced] at hsync
      rw [pushWorkflow_workflows]
      exact hsync

end Keys

/-! ## What an update should do -/

section Update

variable (env : SyncEnv) (agentNamespace uuid : String) (steps : SaveSteps)
  (rangeOrder : List String → List String) (request : ChaosWorkFlowRequest) (state : GitOpsState)

/-- The workflows that the write finds, after the sync in front of it. -/
def workflowsAtWrite (processed : ChaosWorkFlowRequest) : Workflows :=
  (upsertWorkflowToGit env steps.upsert rangeOrder processed state).2.workflows

/-- No step of the call fails. -/
structure UpdatesAs (processed : ChaosWorkFlowRequest) (username : String) (wfType : ChaosWorkflowType) :
    Prop where
  processes : processWorkflow env.codec uuid steps.getCluster env.clusters request = .ok (processed, wfType)
  named : steps.username = some username
  pushed : (upsertWorkflowToGit env steps.upsert rangeOrder processed state).1 = .ok ()
  written : (processWorkflowUpdate steps.write env.now
    (workflowsAtWrite env steps rangeOrder state processed) processed username wfType).1 = .ok ()

def UpdateGetsThrough : Prop := ∃ processed username wfType,
  UpdatesAs env uuid steps rangeOrder request state processed username wfType

theorem Handler.updateChaosWorkflowTo_cases :
    ((∃ err, (Handler.updateChaosWorkflowTo env agentNamespace uuid steps rangeOrder request state).1 =
        .error err) ∧
      (Handler.updateChaosWorkflowTo env agentNamespace uuid steps rangeOrder request state).2.2 = [] ∧
      ¬ UpdateGetsThrough env uuid steps rangeOrder request state) ∨
    ∃ processed username wfType,
      UpdatesAs env uuid steps rangeOrder request state processed username wfType ∧
      (∃ response, (Handler.updateChaosWorkflowTo env agentNamespace uuid steps rangeOrder request state).1 =
        .ok response) ∧
      (Handler.updateChaosWorkflowTo env agentNamespace uuid steps rangeOrder request state).2.1.workflows =
        (processWorkflowUpdate steps.write env.now (workflowsAtWrite env steps rangeOrder state processed)
          processed username wfType).2 := by
  unfold Handler.updateChaosWorkflowTo
  cases hprocess : processWorkflow env.codec uuid steps.getCluster env.clusters request with
  | error err =>
      refine .inl ⟨⟨err, rfl⟩, rfl, ?_⟩
      rintro ⟨processed, username, wfType, h⟩
      cases hprocess.symm.trans h.processes
  | ok made =>
  obtain ⟨processed, wfType⟩ := made
  cases husername : steps.username with
  | none =>
      refine .inl ⟨⟨usernameError, rfl⟩, rfl, ?_⟩
      rintro ⟨processed', username, wfType', h⟩
      cases husername.symm.trans h.named
  | some username =>
  -- what a call that gets through was processed to
  have hsame : ∀ {processed' username' wfType'},
      UpdatesAs env uuid steps rangeOrder request state processed' username' wfType' →
        processed' = processed ∧ username' = username ∧ wfType' = wfType := by
    intro processed' username' wfType' h
    have hmade := Except.ok.inj (h.processes.symm.trans hprocess)
    exact ⟨congrArg Prod.fst hmade, Option.some.inj (h.named.symm.trans husername), congrArg Prod.snd hmade⟩
  cases hupsert : upsertWorkflowToGit env steps.upsert rangeOrder processed state with
  | mk pushed state' =>
  simp only [hupsert]
  have hwriteState : workflowsAtWrite env steps rangeOrder state processed = state'.workflows := by
    rw [workflowsAtWrite, hupsert]
  cases pushed with
  | error err =>
      refine .inl ⟨⟨err, rfl⟩, rfl, ?_⟩
      rintro ⟨processed', username', wfType', h⟩
      obtain ⟨rfl, rfl, rfl⟩ := hsame h
      have hpushed := h.pushed
      rw [hupsert] at hpushed
      cases hpushed
  | ok _ =>
  cases hwrite : processWorkflowUpdate steps.write env.now state'.workflows processed username wfType with
  | mk written workflows =>
  simp only [processWorkflowUpdateTo, hwrite]
  cases written with
  | error err =>
      refine .inl ⟨⟨err, rfl⟩, rfl, ?_⟩
      rintro ⟨processed', username', wfType', h⟩
      obtain ⟨rfl, rfl, rfl⟩ := hsame h
      have hwritten := h.written
      rw [hwriteState, hwrite] at hwritten
      cases hwritten
  | ok _ =>
      refine .inr ⟨processed, username, wfType, ⟨hprocess, husername, ?_, ?_⟩, ⟨_, rfl⟩, ?_⟩
      · rw [hupsert]
      · rw [hwriteState, hwrite]
      · rw [hwriteState, hwrite]

/-- The id of the request is that of a live workflow of its project. -/
def NamesLive (request : ChaosWorkFlowRequest) (workflows : Workflows) : Prop :=
  ∃ doc ∈ workflows.docs, request.workflowID = some doc.workflowID ∧ doc.workflowID ≠ "" ∧
    doc.projectID = request.projectID ∧ doc.isRemoved = false

/-- Of the documents only this one is written, and it holds what the request was processed to. -/
def WritesOnly (processed : ChaosWorkFlowRequest) (workflowID : String) (before after : Workflows) : Prop :=
  (∃ doc ∈ after.docs, doc.workflowID = workflowID ∧ doc.workflowManifest = processed.workflowManifest ∧
    doc.workflowName = processed.workflowName ∧ doc.weightages = processed.weightages) ∧
  ∀ doc ∈ after.docs, doc.workflowID ≠ workflowID → doc ∈ before.docs

/-- What one call is to do. -/
structure UpdatesLive : Prop where
  written : ∀ response processed wfType,
    (Handler.updateChaosWorkflowTo env agentNamespace uuid steps rangeOrder request state).1 = .ok response →
    processWorkflow env.codec uuid steps.getCluster env.clusters request = .ok (processed, wfType) →
    ∃ doc ∈ state.workflows.docs, doc.projectID = request.projectID ∧ doc.isRemoved = false ∧
      WritesOnly processed doc.workflowID (workflowsAtWrite env steps rangeOrder state processed)
        (Handler.updateChaosWorkflowTo env agentNamespace uuid steps rangeOrder request state).2.1.workflows
  sent : (Handler.updateChaosWorkflowTo env agentNamespace uuid steps rangeOrder request state).2.2 ≠ [] →
    ∃ response, (Handler.updateChaosWorkflowTo env agentNamespace uuid steps rangeOrder request state).1 =
      .ok response
  refused : ¬ NamesLive request state.workflows →
    ∃ err, (Handler.updateChaosWorkflowTo env agentNamespace uuid steps rangeOrder request state).1 = .error err

variable {env agentNamespace uuid steps rangeOrder request state}

theorem writesOnly_of_namesLive {processed : ChaosWorkFlowRequest} {username : String}
    {wfType : ChaosWorkflowType}
    (h : UpdatesAs env uuid steps rangeOrder request state processed username wfType)
    {doc : ChaosWorkFlow} (hdoc : doc ∈ state.workflows.docs) (hid : request.workflowID = some doc.workflowID)
    (hne : doc.workflowID ≠ "") (hproject : doc.projectID = request.projectID) :
    WritesOnly processed doc.workflowID (workflowsAtWrite env steps rangeOrder state processed)
      (processWorkflowUpdate steps.write env.now (workflowsAtWrite env steps rangeOrder state processed)
        processed username wfType).2 := by
  obtain ⟨hrequest, -⟩ := processWorkflow_ok h.processes
  rw [withID_of_id hne hid] at hrequest
  have hprocessedID : processed.workflowID = some doc.workflowID := by rw [hrequest, hid]
  have hprocessedProject : processed.projectID = doc.projectID := by rw [hrequest, hproject]
  -- the sync in front of the write has kept the document
  have hkeys : docKeys state.workflows ⊆ docKeys (workflowsAtWrite env steps rangeOrder state processed) :=
    docKeys_upsertWorkflowToGit steps.upsert rangeOrder processed state
  obtain ⟨kept, hkept, hkeptKey⟩ := List.mem_map.mp (hkeys (List.mem_map_of_mem hdoc))
  obtain ⟨hkeptID, hkeptProject⟩ := Prod.ext_iff.mp hkeptKey
  have hquery : ∀ other : ChaosWorkFlow, requestQuery processed other = true ↔
      other.workflowID = doc.workflowID ∧ other.projectID = doc.projectID := by
    intro other
    simp [requestQuery, hprocessedID, hprocessedProject]
  rcases updateChaosWorkflow_cases steps.write (workflowsAtWrite env steps rangeOrder state processed)
    (requestQuery processed) (setWorkflow processed username wfType env.now) with
    ⟨hresult, -, -⟩ | ⟨-, hdocs, -⟩
  · exact absurd (hresult.symm.trans h.written) (by simp)
  · rw [processWorkflowUpdate]
    constructor
    · obtain ⟨old, -, hold, hchanged⟩ := exists_mem_updateFirst
        (setWorkflow processed username wfType env.now)
        (List.any_eq_true.mpr ⟨kept, hkept, (hquery kept).mpr ⟨hkeptID, hkeptProject⟩⟩)
      rw [← hdocs] at hchanged
      exact ⟨_, hchanged, ((hquery old).mp hold).1, rfl, rfl, rfl⟩
    · intro other hother hotherID
      rw [hdocs] at hother
      rcases mem_updateFirst hother with hsame | ⟨old, -, hold, rfl⟩
      · exact hsame
      · exact absurd ((hquery old).mp hold).1 hotherID

/-- An update does what it should exactly when some step fails, or the id is that of a live workflow of the
project. -/
theorem updatesLive_iff (env : SyncEnv) (agentNamespace uuid : String) (steps : SaveSteps)
    (rangeOrder : List String → List String) (request : ChaosWorkFlowRequest) (state : GitOpsState) :
    UpdatesLive env agentNamespace uuid steps rangeOrder request state ↔
      (UpdateGetsThrough env uuid steps rangeOrder request state → NamesLive request state.workflows) := by
  rcases Handler.updateChaosWorkflowTo_cases env agentNamespace uuid steps rangeOrder request state with
    ⟨⟨err, hfails⟩, hsent, hnot⟩ | ⟨processed, username, wfType, hthrough, ⟨response, hok⟩, hworkflows⟩
  · refine iff_of_true ⟨?_, ?_, fun _ => ⟨err, hfails⟩⟩ fun hthrough => absurd hthrough hnot
    · intro response processed wfType hok
      rw [hfails] at hok
      cases hok
    · intro hsome
      exact absurd hsent hsome
  · constructor
    · intro h _
      by_contra hnot
      obtain ⟨err, hfails⟩ := h.refused hnot
      rw [hok] at hfails
      cases hfails
    · intro h
      have hlive := h ⟨processed, username, wfType, hthrough⟩
      refine ⟨?_, fun _ => ⟨response, hok⟩, fun hnot => absurd hlive hnot⟩
      intro _ processed' wfType' _ hprocessed'
      have hmade := Except.ok.inj (hprocessed'.symm.trans hthrough.processes)
      obtain rfl : processed' = processed := congrArg Prod.fst hmade
      obtain ⟨doc, hdoc, hid, hne, hproject, hremoved⟩ := hlive
      rw [hworkflows]
      exact ⟨doc, hdoc, hproject, hremoved, writesOnly_of_namesLive hthrough hdoc hid hne hproject⟩

end Update

/-! ### A request without an id -/

def stateWithoutGit : GitOpsState := { sampleState "" [] with configs := .empty }

def updateSteps : SaveSteps where
  getCluster := false
  upsert := ⟨false, sampleSteps, false, none, false, false⟩
  username := some "admin"
  getClusterAgain := false
  write := false

/-- The request gets a fresh id, no document is written, and the response is one of success. -/
theorem not_alwaysUpdatesLive :
    ¬ ∀ env agentNamespace uuid steps rangeOrder request state,
      UpdatesLive env agentNamespace uuid steps rangeOrder request state := by
  intro h
  let request := { podRequest "manifest" [] with workflowID := none }
  have hok : (Handler.updateChaosWorkflowTo sampleSyncEnv "litmus" "workflow-9" updateSteps id request
      stateWithoutGit).1 = .ok ⟨"workflow-9", "", "pod-kill", "", true⟩ := rfl
  have hnotLive : ¬ NamesLive request stateWithoutGit.workflows := by
    rintro ⟨doc, -, hid, -⟩
    cases hid
  obtain ⟨err, herr⟩ := (h sampleSyncEnv "litmus" "workflow-9" updateSteps id request stateWithoutGit).refused
    hnotLive
  cases hok.symm.trans herr

end LitmusPortal
