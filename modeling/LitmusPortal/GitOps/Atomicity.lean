import LitmusPortal.GitOps.Upsert

/-!
# Creating and updating a workflow under GitOps

`CreateChaosWorkflow` and `UpdateChaosWorkflow` push the file of the workflow before they write its
document, and a failure in between undoes nothing. A failed call has left no trace where it ended
before the commit, or where the commit was pushed and had changed nothing.
-/

namespace LitmusPortal

open GoStrings DocumentStore

structure ChaosWorkFlowResponse where
  workflowID : String
  cronSyntax : String
  workflowName : String
  workflowDescription : String
  isCustomWorkflow : Bool
  deriving DecidableEq, Repr

/-- What the steps of the two handlers meet. `username` is what `GetUsername` finds in the token. -/
structure SaveSteps where
  getCluster : Bool
  upsert : UpsertSteps
  username : Option String
  getClusterAgain : Bool
  write : Bool
  deriving DecidableEq, Repr

inductive SaveKind where
  | create
  | update
  deriving DecidableEq, Repr

def usernameError : GoError := .failed "Error getting username"

def writeWorkflow (kind : SaveKind) (env : SyncEnv) (steps : SaveSteps) (workflows : Workflows)
    (request : ChaosWorkFlowRequest) (username : String) (wfType : ChaosWorkflowType) :
    Except GoError Unit × Workflows :=
  match kind with
  | .create => processWorkflowCreation steps.getClusterAgain steps.write env.now env.clusters
      workflows request username wfType
  | .update => processWorkflowUpdate steps.write env.now workflows request username wfType

/-- What the handlers do once the file is pushed. -/
def storeWorkflow (kind : SaveKind) (env : SyncEnv) (steps : SaveSteps)
    (request : ChaosWorkFlowRequest) (wfType : ChaosWorkflowType) (state : GitOpsState) :
    Except GoError ChaosWorkFlowResponse × GitOpsState :=
  match steps.username with
  | none => (.error usernameError, state)
  | some username =>
      match writeWorkflow kind env steps state.workflows request username wfType with
      | (.error err, workflows) => (.error err, { state with workflows := workflows })
      | (.ok _, workflows) =>
          (.ok ⟨idOf request, request.cronSyntax, request.workflowName,
            request.workflowDescription, request.isCustomWorkflow⟩,
            { state with workflows := workflows })

/-- The two handlers. They differ in the write, and `UpdateChaosWorkflow` has looked at the token
before it goes to git. -/
def saveChaosWorkflow (kind : SaveKind) (env : SyncEnv) (steps : SaveSteps) (uuid : String)
    (rangeOrder : List String → List String) (request : ChaosWorkFlowRequest)
    (state : GitOpsState) : Except GoError ChaosWorkFlowResponse × GitOpsState :=
  match processWorkflow env.codec uuid steps.getCluster env.clusters request with
  | .error err => (.error err, state)
  | .ok (request, wfType) =>
      if kind = .update && steps.username.isNone then (.error usernameError, state)
      else
        match upsertWorkflowToGit env steps.upsert rangeOrder request state with
        | (.error err, state) => (.error err, state)
        | (.ok _, state) => storeWorkflow kind env steps request wfType state

namespace Handler

def createChaosWorkflow := saveChaosWorkflow .create

def updateChaosWorkflow := saveChaosWorkflow .update

end Handler

theorem writeWorkflow_error {kind : SaveKind} {env : SyncEnv} {steps : SaveSteps}
    {workflows : Workflows} {request : ChaosWorkFlowRequest} {username : String}
    {wfType : ChaosWorkflowType} {err : GoError}
    (h : (writeWorkflow kind env steps workflows request username wfType).1 = .error err) :
    (writeWorkflow kind env steps workflows request username wfType).2 = workflows := by
  cases kind with
  | create =>
      simp only [writeWorkflow, processWorkflowCreation] at h ⊢
      cases hcluster : getCluster steps.getClusterAgain env.clusters request.clusterID with
      | error err => rfl
      | ok cluster =>
        simp only [hcluster] at h
        rcases insertChaosWorkflow_cases steps.write workflows
            (newChaosWorkflow request cluster username wfType env.now) with
          ⟨-, hsame, -⟩ | ⟨hok, -⟩
        · exact hsame
        · cases hok.symm.trans h
  | update =>
      simp only [writeWorkflow, processWorkflowUpdate] at h ⊢
      rcases updateChaosWorkflow_cases steps.write workflows (requestQuery request)
          (setWorkflow request username wfType env.now) with
        ⟨-, hsame, -⟩ | ⟨hok, -⟩
      · exact hsame
      · cases hok.symm.trans h

theorem storeWorkflow_error {kind : SaveKind} {env : SyncEnv} {steps : SaveSteps}
    {request : ChaosWorkFlowRequest} {wfType : ChaosWorkflowType} {state : GitOpsState}
    {err : GoError} (h : (storeWorkflow kind env steps request wfType state).1 = .error err) :
    (storeWorkflow kind env steps request wfType state).2.workflows = state.workflows := by
  unfold storeWorkflow at h ⊢
  cases husername : steps.username with
  | none => rfl
  | some username =>
      simp only [husername] at h ⊢
      cases hwrite : writeWorkflow kind env steps state.workflows request username wfType with
      | mk result workflows =>
          cases result with
          | ok _ => simp [hwrite] at h
          | error err => simpa [hwrite] using writeWorkflow_error (congrArg Prod.fst hwrite)

theorem storeWorkflow_git (kind : SaveKind) (env : SyncEnv) (steps : SaveSteps)
    (request : ChaosWorkFlowRequest) (wfType : ChaosWorkflowType) (state : GitOpsState) :
    (storeWorkflow kind env steps request wfType state).2.git = state.git := by
  unfold storeWorkflow
  split
  · rfl
  · split <;> rfl

/-- A call of one of the handlers for a project with GitOps enabled. -/
structure SaveCall where
  kind : SaveKind
  env : SyncEnv
  steps : SaveSteps
  uuid : String
  order : RangeOrder
  request : ChaosWorkFlowRequest
  state : GitOpsState
  repoData : GitConfigDB
  enabled : state.configs.findOne (ofProject request.projectID) = some repoData

namespace SaveCall

def config (call : SaveCall) : GitConfig := getGitOpsConfig call.repoData

def result (call : SaveCall) : Except GoError ChaosWorkFlowResponse × GitOpsState :=
  (match call.kind with
    | .create => Handler.createChaosWorkflow
    | .update => Handler.updateChaosWorkflow)
    call.env call.steps call.uuid call.order.order call.request call.state

def path (call : SaveCall) : String := workflowPath call.config call.request.workflowName

/-- The call up to the initial sync, all of which is reading. -/
def beforeSync (call : SaveCall) : Except GoError (ChaosWorkFlowRequest × ChaosWorkflowType) := do
  let processed ← processWorkflow call.env.codec call.uuid call.steps.getCluster call.env.clusters
    call.request
  if call.kind = .update && call.steps.username.isNone then .error usernameError
  else if call.steps.upsert.getConfig then .error (.failed "Cannot get Git Config from DB")
  else return processed

def sync (call : SaveCall) : Except GoError Unit × GitOpsState :=
  syncDBToGit call.env call.steps.upsert.sync call.order.order call.config call.state

/-- The state after the initial sync, or at the start of a call that does not come to it. -/
def synced (call : SaveCall) : GitOpsState :=
  match call.beforeSync with
  | .error _ => call.state
  | .ok _ => call.sync.2

/-- A call that fails leaves the file, the unpushed commits and the workflows of the project as they
were after its sync. -/
def Atomic (call : SaveCall) : Prop :=
  ∀ err, call.result.1 = .error err → Untouched call.config call.path call.synced call.result.2

/-- The call comes to its commit. -/
structure CommitsAs (call : SaveCall) (clone : Clone) (data hash : String) : Prop where
  synced : call.sync.1 = .ok ()
  commits : ∃ request wfType, call.beforeSync = .ok (request, wfType) ∧
    Commits call.env.codec call.steps.upsert call.config request call.sync.2.git clone data hash

/-- Both branches have the file with this content, and every commit is pushed. -/
structure AlreadyThere (call : SaveCall) (data : String) : Prop where
  remoteFile : remoteFile call.config call.path call.synced.git = some (some data)
  localFile : localFile call.config call.path call.synced.git = some (some data)
  unpushed : unpushed call.config call.synced.git = []

/-- The hash of the commit is not that of a commit the remote has. -/
def FreshCommit (call : SaveCall) : Prop :=
  ∀ commit ∈ call.steps.upsert.commit, ∀ clone ∈ call.synced.git.disk call.config.localPath,
    commit.1 ∉ (call.synced.git.remotes clone.repositoryURL clone.branch).map (·.hash)

instance (call : SaveCall) : Decidable call.FreshCommit :=
  inferInstanceAs (Decidable (∀ commit ∈ call.steps.upsert.commit,
    ∀ clone ∈ call.synced.git.disk call.config.localPath, _))

/-! ### Where a call can end -/

variable {call : SaveCall}

theorem beforeSync_fields {request : ChaosWorkFlowRequest} {wfType : ChaosWorkflowType}
    (h : call.beforeSync = .ok (request, wfType)) :
    request.projectID = call.request.projectID ∧
      request.workflowName = call.request.workflowName := by
  obtain ⟨processed, hprocess, h⟩ := exists_of_bind_eq_ok h
  split_ifs at h
  cases h
  obtain ⟨hsame, -⟩ := processWorkflow_ok hprocess
  rw [hsame]
  unfold withID
  split <;> exact ⟨rfl, rfl⟩

theorem synced_eq {processed : ChaosWorkFlowRequest × ChaosWorkflowType}
    (h : call.beforeSync = .ok processed) : call.synced = call.sync.2 := by
  unfold synced
  rw [h]

theorem result_eq (call : SaveCall) :
    call.result =
      match call.beforeSync with
      | .error err => (.error err, call.state)
      | .ok (request, wfType) =>
          match call.sync with
          | (.error _, state) => (.error (.failed "Sync Error"), state)
          | (.ok _, state) =>
              match pushWorkflow call.env.codec call.steps.upsert call.config request state with
              | (.error err, state) => (.error err, state)
              | (.ok _, state) => storeWorkflow call.kind call.env call.steps request wfType state
      := by
  have hsave : call.result = saveChaosWorkflow call.kind call.env call.steps call.uuid
      call.order.order call.request call.state := by
    unfold result
    cases call.kind <;> rfl
  rw [hsave, saveChaosWorkflow, beforeSync]
  cases hprocess : processWorkflow call.env.codec call.uuid call.steps.getCluster
      call.env.clusters call.request with
  | error err => rfl
  | ok processed =>
      obtain ⟨request, wfType⟩ := processed
      have hproject : request.projectID = call.request.projectID := by
        obtain ⟨hsame, -⟩ := processWorkflow_ok hprocess
        rw [hsame]
        unfold withID
        split <;> rfl
      have hconfig : call.state.configs.findOne (ofProject request.projectID) =
          some call.repoData := by
        rw [hproject, call.enabled]
      simp only [bind, Except.bind]
      split
      · rfl
      · cases hget : call.steps.upsert.getConfig with
        | true => simp [upsertWorkflowToGit, getGitConfig, hget]
        | false =>
            have hsync : syncDBToGit call.env call.steps.upsert.sync call.order.order
                (getGitOpsConfig call.repoData) call.state = call.sync := rfl
            simp only [upsertWorkflowToGit, getGitConfig, hget, hconfig, hsync, Bool.false_eq_true,
              if_false]
            rcases call.sync with ⟨_ | _, state⟩
            · rfl
            · simp only [config, pure, Except.pure]

/-- How a call that gets through its sync ends: with the error of the push, or after a write that
changes documents only if it succeeds. -/
theorem result_of_synced {request : ChaosWorkFlowRequest} {wfType : ChaosWorkflowType}
    (hbefore : call.beforeSync = .ok (request, wfType)) (hsync : call.sync.1 = .ok ()) :
    let pushed := pushWorkflow call.env.codec call.steps.upsert call.config request call.synced
    call.result.2.git = pushed.2.git ∧
      (∀ err, call.result.1 = .error err → call.result.2.workflows = pushed.2.workflows) ∧
      ∀ err, pushed.1 = .error err → call.result.1 = .error err := by
  intro pushed
  have hsynced := synced_eq hbefore
  have hresult : call.result =
      match pushed with
      | (.error err, state) => (.error err, state)
      | (.ok _, state) => storeWorkflow call.kind call.env call.steps request wfType state := by
    have hpair : call.sync = (.ok (), call.synced) := Prod.ext hsync hsynced.symm
    rw [result_eq, hbefore, hpair]
  rw [hresult]
  obtain ⟨result, state⟩ := pushed
  cases result with
  | error err => exact ⟨rfl, fun _ _ => rfl, fun _ h => by cases h; rfl⟩
  | ok _ =>
      exact ⟨storeWorkflow_git .., fun _ herr => storeWorkflow_error herr, fun _ h => by cases h⟩

/-- A call that does not come to its commit is not seen. -/
theorem atomic_of_not_commitsAs (h : ∀ clone data hash, ¬ call.CommitsAs clone data hash) :
    call.Atomic := by
  intro err herr
  cases hbefore : call.beforeSync with
  | error err =>
      rw [result_eq, hbefore, synced, hbefore]
      exact .refl ..
  | ok processed =>
      obtain ⟨request, wfType⟩ := processed
      have hsynced := synced_eq hbefore
      cases hsync : call.sync.1 with
      | error err =>
          have hpair : call.sync = (.error err, call.synced) := Prod.ext hsync hsynced.symm
          rw [result_eq, hbefore, hpair]
          exact .refl ..
      | ok _ =>
          obtain ⟨hgit, hworkflows, -⟩ := result_of_synced hbefore hsync
          have hnot : ∀ clone data hash, ¬ Commits call.env.codec call.steps.upsert call.config
              request call.synced.git clone data hash :=
            fun clone data hash hcommits =>
              h clone data hash ⟨hsync, request, wfType, hbefore, hsynced ▸ hcommits⟩
          obtain ⟨-, huntouched⟩ := pushWorkflow_of_not_commits hnot
          rw [(beforeSync_fields hbefore).2] at huntouched
          obtain ⟨hremote, hlocal, hunpushed, hdocs⟩ := huntouched
          rw [path]
          refine ⟨?_, ?_, ?_, ?_⟩
          · rw [hgit, hremote]
          · rw [hgit, hlocal]
          · rw [hgit, hunpushed]
          · rw [hworkflows err herr, hdocs]

section Commits

variable {clone : Clone} {data hash : String} (h : call.CommitsAs clone data hash)

include h

/-- A commit that is refused leaves one more commit to push. -/
theorem not_atomic_of_not_pushes
    (hfresh : call.FreshCommit)
    (hpush : ¬ Pushes call.steps.upsert call.config call.synced.git clone hash) :
    ¬ call.Atomic := by
  obtain ⟨request, wfType, hbefore, hcommits⟩ := h.commits
  obtain ⟨hgit, -, hfails⟩ := result_of_synced hbefore h.synced
  have hsynced := synced_eq hbefore
  rw [← hsynced] at hcommits
  obtain ⟨commit, hcommit, hhash⟩ := Option.map_eq_some_iff.mp hcommits.committed
  have hnew : hash ∉ (call.synced.git.remotes clone.repositoryURL clone.branch).map (·.hash) :=
    hhash ▸ hfresh commit hcommit clone hcommits.clone
  obtain ⟨⟨err, herr⟩, hunpushed⟩ := pushWorkflow_of_not_pushes hcommits hpush hnew
  intro hatomic
  have hsame := (hatomic err (hfails err herr)).unpushed
  rw [hgit, hunpushed] at hsame
  exact List.cons_ne_self _ _ hsame

/-- A commit that is pushed stays. -/
theorem untouched_iff_of_pushes
    (hpush : Pushes call.steps.upsert call.config call.synced.git clone hash) {err : GoError}
    (herr : call.result.1 = .error err) :
    Untouched call.config call.path call.synced call.result.2 ↔ call.AlreadyThere data := by
  obtain ⟨request, wfType, hbefore, hcommits⟩ := h.commits
  obtain ⟨hgit, hworkflows, -⟩ := result_of_synced hbefore h.synced
  have hsynced := synced_eq hbefore
  rw [← hsynced] at hcommits
  obtain ⟨hdocs, hlocal, hremote, hunpushed⟩ := pushWorkflow_of_pushes hcommits hpush
  rw [(beforeSync_fields hbefore).2] at hlocal hremote
  constructor
  · intro huntouched
    refine ⟨?_, ?_, ?_⟩
    · rw [← huntouched.remoteFile, hgit, path, hremote]
    · rw [← huntouched.localFile, hgit, path, hlocal]
    · rw [← huntouched.unpushed, hgit, hunpushed]
  · intro hthere
    refine ⟨?_, ?_, ?_, ?_⟩
    · rw [hthere.remoteFile, hgit, path, hremote]
    · rw [hthere.localFile, hgit, path, hlocal]
    · rw [hthere.unpushed, hgit, hunpushed]
    · rw [hworkflows err herr, hdocs]

end Commits

/-- A call is atomic exactly when, should it fail, it has not come to its commit, or the commit was
pushed, both branches had the content before, and no other commit was left to push. -/
theorem atomic_iff (call : SaveCall) (hfresh : call.FreshCommit) :
    call.Atomic ↔ ∀ err, call.result.1 = .error err → ∀ clone data hash,
      call.CommitsAs clone data hash →
        Pushes call.steps.upsert call.config call.synced.git clone hash ∧
          call.AlreadyThere data := by
  constructor
  · intro hatomic err herr clone data hash hcommits
    have hpush : Pushes call.steps.upsert call.config call.synced.git clone hash := by
      by_contra hrefused
      exact not_atomic_of_not_pushes hcommits hfresh hrefused hatomic
    exact ⟨hpush, (untouched_iff_of_pushes hcommits hpush herr).mp (hatomic err herr)⟩
  · intro hsafe
    by_cases h : ∃ clone data hash, call.CommitsAs clone data hash
    · obtain ⟨clone, data, hash, hcommits⟩ := h
      intro err herr
      obtain ⟨hpush, hthere⟩ := hsafe err herr clone data hash hcommits
      exact (untouched_iff_of_pushes hcommits hpush herr).mpr hthere
    · simp only [not_exists] at h
      exact atomic_of_not_commitsAs h

/-! ### A name that is taken -/

/-- The creation of a workflow named `pod-kill`. The project has a clone with nothing but `.info`;
these are the workflows of all projects. -/
def sample (workflows : Workflows) (writeFile : Bool) : SaveCall where
  kind := .create
  env := sampleSyncEnv
  steps := ⟨false, ⟨false, sampleSteps, writeFile, some ("c2", []), false, false⟩, some "admin",
    false, false⟩
  uuid := "workflow-2"
  order := keysInOrder
  request := ⟨none, "manifest", "", "pod-kill", "", [], true, "project-1", "cluster-1"⟩
  state := { sampleState "c1" [⟨"c1", ["litmus/project-1/.info"],
    treeOf [("litmus/project-1/.info", "1")]⟩] with workflows := workflows }
  repoData := ⟨"project-1", "https://github.com/org/repo", "main", "c1", .token, none, none,
    some "token", none⟩
  enabled := rfl

/-- Where the file cannot be written the call has not come to its commit. -/
theorem atomic_iff_unwritten :
    (sample ⟨[], List.Pairwise.nil⟩ true).Atomic := by
  apply (atomic_iff _ (by decide)).mpr
  intro err herr clone data hash hcommits
  obtain ⟨request, wfType, -, hcommits⟩ := hcommits.commits
  cases hcommits.written

/-- The name is taken by a workflow of another project: the file is pushed and the document is
refused. -/
theorem not_atomic : ¬ ∀ call : SaveCall, call.FreshCommit → call.Atomic := by
  intro hclaim
  let taken : ChaosWorkFlow :=
    { sampleWorkflow with workflowName := "pod-kill", projectID := "project-2" }
  let call := sample ⟨[taken], List.pairwise_singleton _ _⟩ false
  have herr : call.result.1 = .error databaseError := by decide
  have hsame := (hclaim call (by decide) _ herr).localFile
  exact absurd hsame (by decide)

end SaveCall

end LitmusPortal
