import LitmusPortal.GitOps.Repo
import LitmusPortal.GitOps.Store
import LitmusPortal.Workflow.Process

/-!
# Syncing the database with the repository

`SyncDBToGit` and its three handlers for a changed file. A handler that fails is logged, and the
loop goes on to the next file; only an error of `PathExists` ends it. The two longer handlers are cut
in front of their write: what comes before reads only.
-/

namespace LitmusPortal

open GoStrings DocumentStore

structure FileFaults where
  stat : Bool
  read : Bool
  getWorkflow : Bool
  getCluster : Bool
  getClusterAgain : Bool
  write : Bool
  writeFile : Bool
  deriving DecidableEq, Repr

def FileFaults.none : FileFaults := ⟨false, false, false, false, false, false, false⟩

/-- What the handlers of a sync find around them: the codecs, the clusters, the id drawn for a
workflow that is created from a file, the time, and the failures. -/
structure SyncEnv where
  codec : Codec
  clusters : List Cluster
  uuid : String → String
  now : Int
  faults : String → FileFaults

/-- The local variables of the loop and what it writes to. -/
structure SyncState where
  workflows : Workflows
  worktree : Tree
  newWorkflows : Bool

/-- The file name without its directories and without `.yaml`. -/
def workflowNameOf (file : String) : String := replaceAll (fileOf file) ".yaml" ""

def gitUsername : String := "git-ops"

def deleteQuery (config : GitConfig) (file : String) (workflow : ChaosWorkFlow) : Bool :=
  workflow.workflowName = workflowNameOf file && workflow.projectID = config.projectID

def deleteWorkflow (env : SyncEnv) (config : GitConfig) (file : String) (workflows : Workflows) :
    Except GoError Unit × Workflows :=
  match getWorkflow (env.faults file).getWorkflow workflows (deleteQuery config file) with
  | .error err => (.error err, workflows)
  | .ok _ =>
      processWorkflowDelete (env.faults file).write workflows (deleteQuery config file) gitUsername

/-- The request `createWorkflow` makes from the file. -/
def createRequest (config : GitConfig) (data wfName clusterID : String) : ChaosWorkFlowRequest where
  workflowID := none
  workflowManifest := data
  cronSyntax := ""
  workflowName := wfName
  workflowDescription := ""
  weightages := []
  isCustomWorkflow := true
  projectID := config.projectID
  clusterID := clusterID

/-- `createWorkflow` up to `ProcessWorkflow`; `none` is a file without name or cluster. -/
def prepareCreate (env : SyncEnv) (config : GitConfig) (data file : String) :
    Except GoError (Option (ChaosWorkFlowRequest × ChaosWorkflowType)) := do
  let wfName := env.codec.jsonGet data "metadata.name"
  let clusterID := env.codec.jsonGet data "metadata.labels.cluster_id"
  if wfName = "" ∨ clusterID = "" then return none
  else if workflowNameOf file ≠ wfName then
    .error (.failed "file name doesn't match workflow name")
  else
    return some (← processWorkflow env.codec (env.uuid file) (env.faults file).getCluster
      env.clusters (createRequest config data wfName clusterID))

def createWorkflow (env : SyncEnv) (config : GitConfig) (data file : String) (s : SyncState) :
    Except GoError Bool × SyncState :=
  match prepareCreate env config data file with
  | .error err => (.error err, s)
  | .ok none => (.ok false, s)
  | .ok (some (input, wfType)) =>
      let (result, workflows) := processWorkflowCreation (env.faults file).getClusterAgain
        (env.faults file).write env.now env.clusters s.workflows input gitUsername wfType
      let s := { s with workflows := workflows }
      match result with
      | .error err => (.error err, s)
      | .ok _ =>
          match env.codec.jsonToYAML input.workflowManifest with
          | none => (.error (.failed "Cannot convert manifest to yaml"), s)
          | some yamlData =>
              if (env.faults file).writeFile then
                (.error (.failed "Cannot write workflow to git"), s)
              else
                (.ok true, { s with
                  worktree := Function.update s.worktree file (some yamlData) })

/-- The request `updateWorkflow` makes from the file and the stored workflow. -/
def updateRequest (config : GitConfig) (data wfName : String) (workflow : ChaosWorkFlow) :
    ChaosWorkFlowRequest where
  workflowID := some workflow.workflowID
  workflowManifest := data
  cronSyntax := workflow.cronSyntax
  workflowName := wfName
  workflowDescription := workflow.workflowDescription
  weightages := []
  isCustomWorkflow := workflow.isCustomWorkflow
  projectID := config.projectID
  clusterID := workflow.clusterID

def updateQuery (config : GitConfig) (wfID : String) (workflow : ChaosWorkFlow) : Bool :=
  workflow.workflowID = wfID && workflow.projectID = config.projectID && !workflow.isRemoved

/-- `updateWorkflow` up to `ProcessWorkflow`, with the workflow it found; `none` is a file without
name or cluster, or one that names another cluster. -/
def prepareUpdate (env : SyncEnv) (config : GitConfig) (data wfID file : String)
    (workflows : Workflows) :
    Except GoError (Option (ChaosWorkFlow × ChaosWorkFlowRequest × ChaosWorkflowType)) := do
  let wfName := env.codec.jsonGet data "metadata.name"
  let clusterID := env.codec.jsonGet data "metadata.labels.cluster_id"
  if wfName = "" ∨ clusterID = "" then return none
  else if workflowNameOf file ≠ wfName then
    .error (.failed "file name doesn't match workflow name")
  else
    -- an error of the query is not looked at: its result is empty
    match getWorkflows (env.faults file).getWorkflow workflows (updateQuery config wfID) with
    | .ok (workflow :: _) =>
        if clusterID ≠ workflow.clusterID then return none
        else
          let (input, wfType) ← processWorkflow env.codec (env.uuid file)
            (env.faults file).getCluster env.clusters (updateRequest config data wfName workflow)
          return some (workflow, input, wfType)
    | _ => .error (.failed ("No such workflow found : " ++ wfID))

def updateWorkflow (env : SyncEnv) (config : GitConfig) (data wfID file : String)
    (workflows : Workflows) : Except GoError Unit × Workflows :=
  match prepareUpdate env config data wfID file workflows with
  | .error err => (.error err, workflows)
  | .ok none => (.ok (), workflows)
  | .ok (some (_, input, wfType)) =>
      processWorkflowUpdate (env.faults file).write env.now workflows input gitUsername wfType

/-- The kinds a file may have to be looked at. -/
def isWorkflowKind (kind : String) : Bool :=
  kind = "cronworkflow" || kind = "workflow" || kind = "chaosengine"

/-- The flag of `createWorkflow` is noted, its error is not. -/
def noteCreated : Except GoError Bool × SyncState → SyncState
  | (.ok true, s) => { s with newWorkflows := true }
  | (_, s) => s

/-- The body of the loop after `PathExists`, errors of the handlers logged and forgotten. -/
def syncFile (env : SyncEnv) (config : GitConfig) (file : String) (s : SyncState) : SyncState :=
  match s.worktree file with
  | none => { s with workflows := (deleteWorkflow env config file s.workflows).2 }
  | some content =>
      if (env.faults file).read then s
      else
        match env.codec.yamlToJSON content with
        | none => s
        | some data =>
            let wfID := env.codec.jsonGet data "metadata.labels.workflow_id"
            let kind := toLower (env.codec.jsonGet data "kind")
            if !isWorkflowKind kind then s
            else if wfID = "" then noteCreated (createWorkflow env config data file s)
            else { s with workflows := (updateWorkflow env config data wfID file s.workflows).2 }

/-- The loop over the changed files, in the order the map is ranged over. -/
def syncFiles (env : SyncEnv) (config : GitConfig) :
    List String → SyncState → Except GoError Unit × SyncState
  | [], s => (.ok (), s)
  | file :: rest, s =>
      if !hasSuffix file ".yaml" then syncFiles env config rest s
      else if (env.faults file).stat then
        (.error (.failed ("Error checking file in local repo : " ++ file)), s)
      else syncFiles env config rest (syncFile env config file s)

structure SyncSteps where
  statRepo : Bool
  setup : SetupSteps
  pull : Bool
  getChanges : Bool
  commit : Option (String × List String)
  push : Bool
  updateConfig : Bool
  deriving DecidableEq, Repr

structure GitOpsState where
  workflows : Workflows
  configs : GitConfigs
  git : GitState

def storeLatestCommit (fails : Bool) (configs : GitConfigs) (projectID latestCommit : String) :
    Except GoError Unit × GitConfigs :=
  updateGitConfig fails configs projectID fun config => { config with latestCommit := latestCommit }

/-- Commit and push of the created workflows; `none` is a sync without any. -/
def pushNewWorkflows (steps : SyncSteps) (config : GitConfig) (newWorkflows : Bool)
    (git : GitState) : Except GoError (Option String) × GitState :=
  if newWorkflows then
    match gitCommit steps.commit config git with
    | (.error _, git) => (.error (.failed "Cannot commit workflows to git"), git)
    | (.ok commit, git) =>
        match gitPush steps.push config git with
        | (.error _, git) => (.error (.failed "Cannot push workflows to git"), git)
        | (.ok _, git) => (.ok (some commit), git)
  else (.ok none, git)

/-- What follows the loop of `SyncDBToGit`. -/
def finishSync (steps : SyncSteps) (config : GitConfig) (latestCommit : String)
    (state : GitOpsState) (newWorkflows : Bool) : Except GoError Unit × GitOpsState :=
  match pushNewWorkflows steps config newWorkflows state.git with
  | (.error err, git) => (.error err, { state with git := git })
  | (.ok commit, git) =>
      let (result, configs) := storeLatestCommit steps.updateConfig state.configs config.projectID
        (commit.getD latestCommit)
      (result, { state with git := git, configs := configs })

/-- `SyncDBToGit` up to `GetChanges`. An error of the set-up is overwritten by the next call. -/
def prepareClone (steps : SyncSteps) (config : GitConfig) (git : GitState) :
    Except GoError Unit × GitState :=
  if steps.statRepo then (.error (.failed "Error while checking repo exists"), git)
  else
    match git.disk config.localPath with
    | none => (.ok (), (setupGitRepo steps.setup config git).2)
    | some _ =>
        match gitPull steps.pull config git with
        | (.error _, git) => (.error (.failed "Error syncing DB"), git)
        | (.ok _, git) => (.ok (), git)

/-- The clone, the latest commit and the changed files the loop starts with. -/
def getChangesOf (steps : SyncSteps) (config : GitConfig) (git : GitState) :
    Except GoError (Clone × String × Visited) :=
  match git.disk config.localPath with
  | none => .error (.failed "Error Getting File Changes")
  | some clone =>
      match getChanges steps.getChanges config clone.commits with
      | .error _ => .error (.failed "Error Getting File Changes")
      | .ok (latestCommit, files) => .ok (clone, latestCommit, files)

/-- `SyncDBToGit`. `rangeOrder` is the order in which the map of changes is ranged over. -/
def syncDBToGit (env : SyncEnv) (steps : SyncSteps) (rangeOrder : List String → List String)
    (config : GitConfig) (state : GitOpsState) : Except GoError Unit × GitOpsState :=
  match prepareClone steps config state.git with
  | (.error err, git) => (.error err, { state with git := git })
  | (.ok _, git) =>
      match getChangesOf steps config git with
      | .error err => (.error err, { state with git := git })
      | .ok (clone, latestCommit, files) =>
          if latestCommit = config.latestCommit then (.ok (), { state with git := git })
          else
            let (result, s) := syncFiles env config (rangeOrder files.keys)
              ⟨state.workflows, clone.worktree, false⟩
            let state := { state with
              workflows := s.workflows
              git := git.setClone config.localPath (some { clone with worktree := s.worktree }) }
            match result with
            | .error err => (.error err, state)
            | .ok _ => finishSync steps config latestCommit state s.newWorkflows

/-- An order in which a map may be ranged over: some permutation of its keys. -/
structure RangeOrder where
  order : List String → List String
  perm : ∀ keys, (order keys).Perm keys

/-- The files the loop ranges over. -/
def changedFiles (steps : SyncSteps) (config : GitConfig) (git : GitState) : List String :=
  match getChangesOf steps config (prepareClone steps config git).2 with
  | .error _ => []
  | .ok (_, _, files) => files.keys

def loopStart (steps : SyncSteps) (config : GitConfig) (state : GitOpsState) : SyncState where
  workflows := state.workflows
  worktree :=
    match (prepareClone steps config state.git).2.disk config.localPath with
    | none => fun _ => none
    | some clone => clone.worktree
  newWorkflows := false

/-- Every file is the manifest of a workflow named `pod-kill`; the text `labelled` has the id of the
sample workflow as its label. -/
def sampleCodec : Codec where
  unmarshalObject _ := some ⟨"pod-kill", "Workflow"⟩
  unmarshalWorkflow text := some ⟨none, [], text⟩
  marshalWorkflow manifest := some manifest.rest
  unmarshalCronWorkflow _ := none
  marshalCronWorkflow _ := none
  unmarshalEngine _ := none
  marshalEngine _ := none
  unmarshalSchedule _ := none
  marshalSchedule _ := none
  yamlToEngine _ := none
  yamlToJSON text := some text
  jsonToYAML text := some text
  jsonGet data path :=
    if path = "kind" then "Workflow"
    else if path = "metadata.name" then "pod-kill"
    else if path = "metadata.labels.cluster_id" then "cluster-1"
    else if path = "metadata.labels.workflow_id" ∧ data = "labelled" then "workflow-1"
    else ""

def sampleSyncEnv : SyncEnv where
  codec := sampleCodec
  clusters := [sampleCluster]
  uuid file := "new " ++ file
  now := 0
  faults _ := .none

def sampleSetup : SetupSteps := ⟨false, false, false, some "info", some ("c5", []), false, false⟩

def sampleSteps : SyncSteps := ⟨false, sampleSetup, false, false, some ("c4", []), false, false⟩

/-- The project of the small installation with the sample configuration; its repository has these
commits, and the clone is up to date. -/
def sampleState (latestCommit : String) (commits : List Commit) : GitOpsState where
  workflows := sampleWorkflows
  configs := ⟨[⟨"project-1", "https://github.com/org/repo", "main", latestCommit, .token, none,
    none, some "token", none⟩], List.pairwise_singleton _ _⟩
  git := {
    remotes := fun _ _ => commits
    disk := fun path =>
      if path = "/tmp/gitops/project-1" then
        some ⟨"https://github.com/org/repo", "main", commits, headTree commits⟩
      else none }

def keysInOrder : RangeOrder := ⟨fun keys => keys, List.Perm.refl⟩

def keysReversed : RangeOrder := ⟨List.reverse, List.reverse_perm⟩

end LitmusPortal
