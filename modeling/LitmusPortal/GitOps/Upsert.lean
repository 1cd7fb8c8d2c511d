import LitmusPortal.GitOps.Sync

/-!
# Writing a workflow to git

`UpsertWorkflowToGit` syncs the project and then writes, commits and pushes the file of one
workflow. What it leaves in the repository when it fails depends on whether the commit has been made
and whether it has been pushed.
-/

namespace LitmusPortal

open GoStrings DocumentStore

structure UpsertSteps where
  getConfig : Bool
  sync : SyncSteps
  writeFile : Bool
  commit : Option (String × List String)
  push : Bool
  updateConfig : Bool
  deriving DecidableEq, Repr

def workflowPath (config : GitConfig) (workflowName : String) : String :=
  projectPath config.projectID ++ workflowName ++ ".yaml"

/-- `UpsertWorkflowToGit` after the sync. -/
def pushWorkflow (codec : Codec) (steps : UpsertSteps) (config : GitConfig)
    (workflow : ChaosWorkFlowRequest) (state : GitOpsState) :
    Except GoError Unit × GitOpsState :=
  match codec.jsonToYAML workflow.workflowManifest with
  | none => (.error (.failed "Cannot convert manifest to yaml"), state)
  | some data =>
      match writeFile steps.writeFile config (workflowPath config workflow.workflowName) data
          state.git with
      | (.error _, git) =>
          (.error (.failed "Cannot write workflow to git"), { state with git := git })
      | (.ok _, git) =>
          match gitCommit steps.commit config git with
          | (.error _, git) =>
              (.error (.failed "Cannot commit workflow to git"), { state with git := git })
          | (.ok commit, git) =>
              match gitPush steps.push config git with
              | (.error _, git) =>
                  (.error (.failed "Cannot push workflow to git"), { state with git := git })
              | (.ok _, git) =>
                  let (result, configs) := storeLatestCommit steps.updateConfig state.configs
                    config.projectID commit
                  (result, { state with git := git, configs := configs })

def upsertWorkflowToGit (env : SyncEnv) (steps : UpsertSteps)
    (rangeOrder : List String → List String) (workflow : ChaosWorkFlowRequest)
    (state : GitOpsState) : Except GoError Unit × GitOpsState :=
  match getGitConfig steps.getConfig state.configs workflow.projectID with
  | .error _ => (.error (.failed "Cannot get Git Config from DB"), state)
  | .ok none => (.ok (), state)
  | .ok (some repoData) =>
      match syncDBToGit env steps.sync rangeOrder (getGitOpsConfig repoData) state with
      | (.error _, state) => (.error (.failed "Sync Error"), state)
      | (.ok _, state) => pushWorkflow env.codec steps (getGitOpsConfig repoData) workflow state

/-! ### What is seen of a workflow file -/

section Observed

variable (config : GitConfig) (path : String) (git : GitState)

/-- The content of a file in the branch of the clone. -/
def localFile : Option (Option String) :=
  (git.disk config.localPath).map fun clone => headTree clone.commits path

/-- The content of a file in the branch the clone is from. -/
def remoteFile : Option (Option String) :=
  (git.disk config.localPath).map fun clone =>
    headTree (git.remotes clone.repositoryURL clone.branch) path

def unpushed : List String :=
  match git.disk config.localPath with
  | none => []
  | some clone => (clone.commits.map (·.hash)).filter fun hash =>
      hash ∉ (git.remotes clone.repositoryURL clone.branch).map (·.hash)

end Observed

def projectWorkflows (projectID : String) (workflows : Workflows) : List ChaosWorkFlow :=
  workflows.docs.filter fun workflow => workflow.projectID = projectID

/-- The file, the commits that are not pushed and the workflows of the project are the same. -/
structure Untouched (config : GitConfig) (path : String) (before after : GitOpsState) : Prop where
  remoteFile : remoteFile config path after.git = remoteFile config path before.git
  localFile : localFile config path after.git = localFile config path before.git
  unpushed : unpushed config after.git = unpushed config before.git
  workflows : projectWorkflows config.projectID after.workflows =
    projectWorkflows config.projectID before.workflows

theorem Untouched.refl (config : GitConfig) (path : String) (state : GitOpsState) :
    Untouched config path state state := ⟨rfl, rfl, rfl, rfl⟩

/-! ### How a push ends -/

/-- The push of a workflow comes to its commit. -/
structure Commits (codec : Codec) (steps : UpsertSteps) (config : GitConfig)
    (workflow : ChaosWorkFlowRequest) (git : GitState) (clone : Clone) (data hash : String) :
    Prop where
  clone : git.disk config.localPath = some clone
  data : codec.jsonToYAML workflow.workflowManifest = some data
  written : steps.writeFile = false
  committed : steps.commit.map (·.1) = some hash

/-- The remote takes the commit. -/
def Pushes (steps : UpsertSteps) (config : GitConfig) (git : GitState) (clone : Clone)
    (hash : String) : Prop :=
  config.authType ≠ .none ∧ steps.push = false ∧
    ((git.remotes clone.repositoryURL clone.branch).map (·.hash)).isSuffixOf
      (hash :: clone.commits.map (·.hash)) = true

def committedClone (config : GitConfig) (clone : Clone) (path data hash : String)
    (changed : List String) : Clone :=
  let written := { clone with worktree := Function.update clone.worktree path (some data) }
  { written with commits := ⟨hash, changed, addedTree config written⟩ :: clone.commits }

theorem accepts_workflowPath (config : GitConfig) (workflowName : String) :
    acceptsPath (projectPath config.projectID) (workflowPath config workflowName) = true := by
  have hdirectory : hasSuffix (projectPath config.projectID) "/" = true := by
    rw [hasSuffix, List.isSuffixOf_iff_suffix, projectPath, String.toList_append]
    exact List.suffix_append ..
  have hprefix : hasPrefix (workflowPath config workflowName) (projectPath config.projectID) =
      true := by
    rw [hasPrefix, List.isPrefixOf_iff_prefix, workflowPath, String.append_assoc,
      String.toList_append]
    exact List.prefix_append ..
  rw [acceptsPath, hdirectory, hprefix]
  rfl

theorem committedClone_file (config : GitConfig) (clone : Clone) (workflowName data hash : String)
    (changed : List String) :
    headTree (committedClone config clone (workflowPath config workflowName) data hash
      changed).commits (workflowPath config workflowName) = some data := by
  simp [committedClone, headTree, addedTree, accepts_workflowPath]

section Push

variable {codec : Codec} {steps : UpsertSteps} {config : GitConfig}
  {workflow : ChaosWorkFlowRequest} {state : GitOpsState} {clone : Clone} {data hash : String}

theorem pushWorkflow_of_not_commits
    (h : ∀ clone data hash, ¬ Commits codec steps config workflow state.git clone data hash) :
    (∃ err, (pushWorkflow codec steps config workflow state).1 = .error err) ∧
      Untouched config (workflowPath config workflow.workflowName) state
        (pushWorkflow codec steps config workflow state).2 := by
  unfold pushWorkflow
  cases hdata : codec.jsonToYAML workflow.workflowManifest with
  | none => exact ⟨⟨_, rfl⟩, .refl ..⟩
  | some data =>
      cases hclone : state.git.disk config.localPath with
      | none =>
          simp only [writeFile, hclone]
          exact ⟨⟨_, rfl⟩, .refl ..⟩
      | some clone =>
          cases hwritten : steps.writeFile with
          | true =>
              simp only [writeFile, hclone, if_true]
              exact ⟨⟨_, rfl⟩, .refl ..⟩
          | false =>
              have hcommit : steps.commit = none := by
                by_contra hsome
                obtain ⟨commit, hcommit⟩ := Option.ne_none_iff_exists'.mp hsome
                exact h clone data commit.1 ⟨hclone, hdata, hwritten, by simp [hcommit]⟩
              simp only [writeFile, hclone, gitCommit, GitState.disk_setClone_self, hcommit,
                Bool.false_eq_true, if_false]
              refine ⟨⟨_, rfl⟩, ?_, ?_, ?_, rfl⟩
              all_goals simp [remoteFile, localFile, unpushed, hclone]

theorem pushWorkflow_of_commits
    (h : Commits codec steps config workflow state.git clone data hash) :
    ∃ changed,
      let git := state.git.setClone config.localPath (some (committedClone config clone
        (workflowPath config workflow.workflowName) data hash changed))
      pushWorkflow codec steps config workflow state =
        match gitPush steps.push config git with
        | (.error _, git) =>
            (.error (.failed "Cannot push workflow to git"), { state with git := git })
        | (.ok _, git) =>
            let (result, configs) := storeLatestCommit steps.updateConfig state.configs
              config.projectID hash
            (result, { state with git := git, configs := configs }) := by
  obtain ⟨commit, hcommit, rfl⟩ := Option.map_eq_some_iff.mp h.committed
  refine ⟨commit.2, ?_⟩
  simp only [pushWorkflow, h.data, writeFile, h.clone, h.written, gitCommit,
    GitState.disk_setClone_self, hcommit, Bool.false_eq_true, if_false]
  simp only [GitState.setClone, Function.update_idem]
  rfl

/-- The spec of the push: the remote gets the commits of the clone, or nothing changes. -/
theorem gitPush_committed (steps : UpsertSteps) (config : GitConfig) (git : GitState) (clone : Clone)
    (path data hash : String) (changed : List String) :
    let committed := committedClone config clone path data hash changed
    let git' := git.setClone config.localPath (some committed)
    (Pushes steps config git clone hash ∧ gitPush steps.push config git' =
        (.ok (), git'.setRemote clone.repositoryURL clone.branch committed.commits)) ∨
      (¬ Pushes steps config git clone hash ∧
        ∃ err, gitPush steps.push config git' = (.error err, git')) := by
  intro committed git'
  have hahead : isAhead committed.commits (git.remotes clone.repositoryURL clone.branch) =
      ((git.remotes clone.repositoryURL clone.branch).map (·.hash)).isSuffixOf
        (hash :: clone.commits.map (·.hash)) := rfl
  have hdisk : git'.disk config.localPath = some committed := GitState.disk_setClone_self ..
  have hremote : git'.remotes committed.repositoryURL committed.branch =
      git.remotes clone.repositoryURL clone.branch := rfl
  unfold gitPush Pushes
  by_cases hauth : config.authType = .none
  · exact Or.inr ⟨fun h => h.1 hauth, _, by rw [if_pos hauth]⟩
  · rw [if_neg hauth]
    simp only [hdisk, hremote]
    by_cases haccepted : steps.push = false ∧
        ((git.remotes clone.repositoryURL clone.branch).map (·.hash)).isSuffixOf
          (hash :: clone.commits.map (·.hash)) = true
    · refine Or.inl ⟨⟨hauth, haccepted⟩, ?_⟩
      rw [← hahead] at haccepted
      rw [haccepted.1, haccepted.2]
      rfl
    · refine Or.inr ⟨fun h => haccepted h.2, gitError, ?_⟩
      rw [← hahead] at haccepted
      rw [if_pos]
      cases hpush : steps.push with
      | true => rfl
      | false => simpa [hpush] using haccepted

/-- A commit that is not pushed stays behind in the clone. -/
theorem pushWorkflow_of_not_pushes
    (h : Commits codec steps config workflow state.git clone data hash)
    (hpush : ¬ Pushes steps config state.git clone hash)
    (hfresh : hash ∉ (state.git.remotes clone.repositoryURL clone.branch).map (·.hash)) :
    (∃ err, (pushWorkflow codec steps config workflow state).1 = .error err) ∧
      unpushed config (pushWorkflow codec steps config workflow state).2.git =
        hash :: unpushed config state.git := by
  obtain ⟨changed, heq⟩ := pushWorkflow_of_commits h
  rcases gitPush_committed steps config state.git clone
      (workflowPath config workflow.workflowName) data hash changed with
    ⟨hpushes, -⟩ | ⟨-, err, hrefused⟩
  · exact absurd hpushes hpush
  · rw [heq, hrefused]
    refine ⟨⟨_, rfl⟩, ?_⟩
    simp only [unpushed, GitState.disk_setClone_self, GitState.remotes_setClone, h.clone,
      committedClone, List.map_cons]
    exact List.filter_cons_of_pos (by simpa using hfresh)

/-- A commit that is pushed is in both branches, whatever happens afterwards. -/
theorem pushWorkflow_of_pushes
    (h : Commits codec steps config workflow state.git clone data hash)
    (hpush : Pushes steps config state.git clone hash) :
    (pushWorkflow codec steps config workflow state).2.workflows = state.workflows ∧
      localFile config (workflowPath config workflow.workflowName)
        (pushWorkflow codec steps config workflow state).2.git = some (some data) ∧
      remoteFile config (workflowPath config workflow.workflowName)
        (pushWorkflow codec steps config workflow state).2.git = some (some data) ∧
      unpushed config (pushWorkflow codec steps config workflow state).2.git = [] := by
  obtain ⟨changed, heq⟩ := pushWorkflow_of_commits h
  rcases gitPush_committed steps config state.git clone
      (workflowPath config workflow.workflowName) data hash changed with
    ⟨-, hpushed⟩ | ⟨hrefused, -⟩
  · have hfile := committedClone_file config clone workflow.workflowName data hash changed
    rw [heq, hpushed]
    refine ⟨rfl, ?_, ?_, ?_⟩
    · simpa [localFile] using hfile
    · simpa [remoteFile, GitState.setRemote, committedClone] using hfile
    · simp only [unpushed, GitState.disk_setRemote, GitState.disk_setClone_self]
      apply List.filter_eq_nil_iff.mpr
      intro pushed hmem
      have hpushed : pushed ∈ (committedClone config clone
          (workflowPath config workflow.workflowName) data hash changed).commits.map (·.hash) := hmem
      simp only [GitState.setRemote, committedClone, and_self, if_true, decide_eq_true_eq,
        not_not] at hpushed ⊢
      exact hpushed
  · exact absurd hpush hrefused

end Push

end LitmusPortal
