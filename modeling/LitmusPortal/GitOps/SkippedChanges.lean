import LitmusPortal.GitOps.OrderIndependence

/-!
# Changes a sync skips

`SyncDBToGit` moves the stored commit over every change it has seen, applied or not. A change is in
effect when the collection agrees with the file at the newest commit: the workflow of an absent file
is removed, and that of a present one is what processing its manifest gives. A sync leaves a change
out when the change map leaves out the file, or when its handler ends before the write is accepted.
-/

namespace LitmusPortal

open GoStrings DocumentStore

/-- What `SyncDBToGit` treats as a workflow: its kind is one of the three, and it names itself and
its cluster. A file that cannot be converted counts as a workflow with an invalid manifest. -/
def isWorkflowContent (env : SyncEnv) (content : String) : Bool :=
  match env.codec.yamlToJSON content with
  | none => true
  | some data =>
      isWorkflowKind (toLower (env.codec.jsonGet data "kind")) &&
        env.codec.jsonGet data "metadata.name" ≠ "" &&
        env.codec.jsonGet data "metadata.labels.cluster_id" ≠ ""

/-- The file was changed since the known commit, and what it is now asks for a change of the
database. -/
structure RequiresChange (env : SyncEnv) (history : KnownHistory) (config : GitConfig)
    (file : String) : Prop where
  accepted : acceptsPath (projectPath config.projectID) file = true
  yaml : hasSuffix file ".yaml" = true
  differs : headTree history.commits file ≠ history.known.tree file
  workflow : ∀ content, headTree history.commits file = some content →
    isWorkflowContent env content = true

/-- The request a file makes for the workflow `doc`: one without a label creates it. -/
def requestFor (env : SyncEnv) (config : GitConfig) (data : String) (doc : ChaosWorkFlow) :
    ChaosWorkFlowRequest :=
  if labelOf env data = "" then
    createRequest config data (env.codec.jsonGet data "metadata.name")
      (env.codec.jsonGet data "metadata.labels.cluster_id")
  else updateRequest config data (env.codec.jsonGet data "metadata.name") doc

/-- The document is live and is what processing the file gives for its id. -/
structure Reflects (env : SyncEnv) (config : GitConfig) (data : String) (doc : ChaosWorkFlow) :
    Prop where
  live : doc.isRemoved = false
  labelled : labelOf env data = "" ∨ labelOf env data = doc.workflowID
  projectID : doc.projectID = config.projectID
  clusterID : doc.clusterID = env.codec.jsonGet data "metadata.labels.cluster_id"
  workflowName : doc.workflowName = env.codec.jsonGet data "metadata.name"
  processed : ∃ input, processWorkflow env.codec doc.workflowID false env.clusters
    (requestFor env config data doc) = .ok (input, doc.workflowType) ∧
      doc.workflowManifest = input.workflowManifest

/-- The documents agree with the content of the file. -/
def InEffect (env : SyncEnv) (config : GitConfig) (file : String) (content : Option String)
    (docs : List ChaosWorkFlow) : Prop :=
  match content with
  | none => ∀ doc ∈ docs, deleteQuery config file doc = true → doc.isRemoved = true
  | some content => ∃ data, env.codec.yamlToJSON content = some data ∧
      ∃ doc ∈ docs, Reflects env config data doc

/-- The handler of the file gets to its write and the write is accepted. -/
def GetsThrough (env : SyncEnv) (config : GitConfig) (s : SyncState) (file : String) : Prop :=
  (env.faults file).write = false ∧
  match s.worktree file with
  | none => (env.faults file).getWorkflow = false ∧
      ∃ doc, s.workflows.docs.find? (deleteQuery config file) = some doc ∧ doc.isRemoved = false
  | some content => ∃ data, fileData env content file = some data ∧
      if labelOf env data = "" then
        ∃ doc, newDocOf env config data file = some doc ∧
          ∀ other ∈ s.workflows.docs, ¬ Clash workflowIndexes other doc
      else
        (env.faults file).getWorkflow = false ∧ ∃ workflow input wfType,
          s.workflows.docs.find? (updateQuery config (labelOf env data)) = some workflow ∧
          updateInput env config data file workflow = some (input, wfType) ∧
          nameTaken s.workflows.docs workflow input.workflowName = false

def storedCommit (configs : GitConfigs) (projectID : String) : Option String :=
  (configs.findOne (ofProject projectID)).map (·.latestCommit)

/-! ### What a handler that gets through leaves behind -/

theorem processWorkflow_of_ok {codec : Codec} {uuid : String} {fails : Bool}
    {clusters : List Cluster} {request : ChaosWorkFlowRequest}
    {processed : ChaosWorkFlowRequest × ChaosWorkflowType}
    (h : processWorkflow codec uuid fails clusters request = .ok processed) :
    processWorkflow codec uuid false clusters request = .ok processed := by
  cases fails with
  | false => exact h
  | true => simp [processWorkflow, getCluster, bind, Except.bind] at h

theorem processWorkflow_of_id {codec : Codec} {id : String} {fails : Bool}
    {clusters : List Cluster} {request : ChaosWorkFlowRequest} (hid : request.workflowID = some id)
    (hne : id ≠ "") (uuid uuid' : String) :
    processWorkflow codec uuid fails clusters request =
      processWorkflow codec uuid' fails clusters request := by
  have hwith : ∀ uuid, withID uuid request = request := by
    intro uuid
    simp [withID, hid, hne]
  simp only [processWorkflow, hwith]

theorem reflects_newDoc {env : SyncEnv} {config : GitConfig} {data file : String}
    {doc : ChaosWorkFlow} (hlabel : labelOf env data = "")
    (h : newDocOf env config data file = some doc) : Reflects env config data doc := by
  obtain ⟨hid, hproject, hlive, hname⟩ := newDocOf_fields h
  unfold newDocOf at h
  split at h
  · rename_i input wfType hprepare
    unfold prepareCreate at hprepare
    dsimp only at hprepare
    split_ifs at hprepare
    · cases hprepare
    · obtain ⟨processed, hprocess, hprepare⟩ := exists_of_bind_eq_ok hprepare
      cases hprepare
      obtain ⟨hsame, -⟩ := processWorkflow_ok hprocess
      split at h
      · cases h
        refine ⟨hlive, Or.inl hlabel, hproject, ?_, hname, input, ?_, rfl⟩
        · rw [hsame]
          rfl
        · rw [requestFor, if_pos hlabel, hid]
          exact processWorkflow_of_ok hprocess
      · cases h
  · cases h

theorem reflects_setWorkflow {env : SyncEnv} {config : GitConfig} {data file username : String}
    {workflow : ChaosWorkFlow} {input : ChaosWorkFlowRequest} {wfType : ChaosWorkflowType}
    (hlabel : labelOf env data ≠ "")
    (hquery : updateQuery config (labelOf env data) workflow = true)
    (hinput : updateInput env config data file workflow = some (input, wfType)) (now : Int) :
    Reflects env config data (setWorkflow input username wfType now workflow) := by
  obtain ⟨hid, hproject, hlive⟩ := updateQuery_iff.mp hquery
  have hrequest := updateInput_request (hid ▸ hlabel) hinput
  have hcron : input.cronSyntax = workflow.cronSyntax := by rw [hrequest]; rfl
  have hdescription : input.workflowDescription = workflow.workflowDescription := by
    rw [hrequest]; rfl
  have hcustom : input.isCustomWorkflow = workflow.isCustomWorkflow := by rw [hrequest]; rfl
  have hname : input.workflowName = env.codec.jsonGet data "metadata.name" := by rw [hrequest]; rfl
  -- the update does not change what the request is made from
  have hevolves : Evolves workflow (setWorkflow input username wfType now workflow) :=
    ⟨rfl, rfl, rfl, hcron, hdescription, hcustom, id⟩
  unfold updateInput at hinput
  split at hinput
  · cases hinput
  · rename_i hchecks
    simp only [not_or, not_not] at hchecks
    cases hprocess : processWorkflow env.codec (env.uuid file) (env.faults file).getCluster
        env.clusters (updateRequest config data (env.codec.jsonGet data "metadata.name")
          workflow) with
    | error err => simp [hprocess, Except.toOption] at hinput
    | ok processed =>
        simp only [hprocess, Except.toOption, Option.some.injEq] at hinput
        subst hinput
        refine ⟨hlive, Or.inr hid.symm, hproject, hchecks.2.2.2.symm, hname, input, ?_, rfl⟩
        rw [requestFor, if_neg hlabel, updateRequest_evolves hevolves]
        calc processWorkflow env.codec workflow.workflowID false env.clusters _
            = processWorkflow env.codec (env.uuid file) false env.clusters _ :=
              processWorkflow_of_id rfl (hid ▸ hlabel) _ _
          _ = .ok (input, wfType) := processWorkflow_of_ok hprocess

section Turn

variable {env : SyncEnv} {config : GitConfig} {s : SyncState} {file : String}

/-- The write a handler has decided on is accepted, and if it removes a workflow, that one is live. -/
def FileChange.Lands (config : GitConfig) (docs : List ChaosWorkFlow) : FileChange → Prop
  | .ignored => False
  | .delete file => ∃ doc, docs.find? (deleteQuery config file) = some doc ∧ doc.isRemoved = false
  | .create doc => clashes docs doc = false
  | .update workflow input _ => nameTaken docs workflow input.workflowName = false

theorem clashes_eq_false_iff {docs : List ChaosWorkFlow} {doc : ChaosWorkFlow} :
    clashes docs doc = false ↔ ∀ other ∈ docs, ¬ Clash workflowIndexes other doc := by
  simp [clashes]

theorem getsThrough_iff (hyaml : hasSuffix file ".yaml" = true) :
    GetsThrough env config s file ↔
      (fileChange env config s file).Lands config s.workflows.docs := by
  unfold GetsThrough fileChange
  simp only [hyaml, Bool.not_true, Bool.false_or]
  cases hwrite : (env.faults file).write with
  | true => simp [FileChange.Lands]
  | false =>
      cases hcontent : s.worktree file with
      | none => cases (env.faults file).getWorkflow <;> simp [FileChange.Lands]
      | some content =>
          cases hdata : fileData env content file with
          | none => simp [hdata, FileChange.Lands]
          | some data =>
              simp only [hdata, true_and, Option.some.injEq, exists_eq_left', Bool.false_eq_true,
                if_false]
              by_cases hlabel : labelOf env data = ""
              · simp only [dataChange, hlabel, if_true]
                cases newDocOf env config data file with
                | none => simp [FileChange.Lands]
                | some doc => simp [FileChange.Lands, clashes_eq_false_iff]
              · simp only [dataChange_of_label hlabel, hlabel, if_false]
                cases (env.faults file).getWorkflow with
                | true => simp [FileChange.Lands]
                | false =>
                    cases s.workflows.docs.find? (updateQuery config (labelOf env data)) with
                    | none => simp [FileChange.Lands]
                    | some workflow =>
                        cases hinput : updateInput env config data file workflow with
                        | none => simp [hinput, FileChange.Lands]
                        | some processed =>
                            obtain ⟨input, wfType⟩ := processed
                            simp [hinput, FileChange.Lands]

theorem inEffect_of_getsThrough (hyaml : hasSuffix file ".yaml" = true)
    (h : GetsThrough env config s file) :
    InEffect env config file (s.worktree file)
      ((fileEffect env config s file).run s.workflows.docs) := by
  obtain ⟨hwrite, hfile⟩ := h
  unfold fileEffect fileChange
  simp only [hyaml, hwrite, Bool.not_true, Bool.or_self, Bool.false_eq_true, if_false]
  cases hcontent : s.worktree file with
  | none =>
      simp only [hcontent] at hfile ⊢
      obtain ⟨hget, found, hfind, hlive⟩ := hfile
      have hmem := List.mem_of_find?_eq_some hfind
      simp only [hget, Bool.false_eq_true, if_false, FileChange.effect, hfind, InEffect,
        Effect.run, Effect.edit, List.append_nil]
      rintro _ hchanged hquery
      obtain ⟨doc, hdoc, rfl⟩ := List.mem_map.mp hchanged
      by_cases hid : doc.workflowID = found.workflowID
      · rw [if_pos hid]
        rfl
      · rw [if_neg hid] at hquery ⊢
        -- another live workflow would have the name of the one that was found
        by_contra hdocLive
        have hfound := List.find?_some hfind
        simp only [deleteQuery, Bool.and_eq_true, decide_eq_true_eq] at hquery hfound
        have hclash : Clash workflowIndexes doc found := clash_workflow_iff.mpr
          (Or.inr ⟨by simpa using hdocLive, hlive, hquery.1.trans hfound.1.symm⟩)
        exact hid (congrArg _ (s.workflows.eq_of_clash hdoc hmem hclash))
  | some content =>
      simp only [hcontent] at hfile ⊢
      obtain ⟨data, hdata, hfile⟩ := hfile
      refine ⟨data, fileData_some hdata, ?_⟩
      simp only [hdata]
      split at hfile
      · rename_i hlabel
        obtain ⟨doc, hdoc, hfree⟩ := hfile
        simp only [dataChange, if_pos hlabel, hdoc, FileChange.effect,
          clashes_eq_false_iff.mpr hfree, Bool.false_eq_true, if_false, Effect.run_add]
        exact ⟨doc, by simp, reflects_newDoc hlabel hdoc⟩
      · rename_i hlabel
        obtain ⟨hget, workflow, input, wfType, hfind, hinput, hname⟩ := hfile
        simp only [dataChange_of_label hlabel, hget, hfind, hinput, FileChange.effect, hname,
          Bool.false_eq_true, if_false, Effect.run, Effect.edit, List.append_nil]
        refine ⟨setWorkflow input gitUsername wfType env.now workflow, ?_,
          reflects_setWorkflow hlabel (List.find?_some hfind) hinput env.now⟩
        exact List.mem_map.mpr ⟨workflow, List.mem_of_find?_eq_some hfind, if_pos rfl⟩

/-- A handler that does not get through leaves the documents as they are, or marks a removed one
once more. -/
theorem inEffect_iff_of_not_getsThrough (hyaml : hasSuffix file ".yaml" = true)
    (h : ¬ GetsThrough env config s file) :
    InEffect env config file (s.worktree file)
        ((fileEffect env config s file).run s.workflows.docs) ↔
      InEffect env config file (s.worktree file) s.workflows.docs := by
  rw [getsThrough_iff hyaml] at h
  unfold fileEffect
  cases hchange : fileChange env config s file with
  | ignored => simp [FileChange.effect]
  | create doc =>
      rw [hchange, FileChange.Lands, Bool.not_eq_false] at h
      simp [FileChange.effect, h]
  | update workflow input wfType =>
      rw [hchange, FileChange.Lands, Bool.not_eq_false] at h
      simp [FileChange.effect, h]
  | delete deleted =>
      obtain ⟨rfl, habsent⟩ := fileChange_delete hchange
      rw [hchange, FileChange.Lands] at h
      rw [FileChange.effect]
      cases hfind : s.workflows.docs.find? (deleteQuery config deleted) with
      | none => simp
      | some found =>
          have hremoved : found.isRemoved = true := by
            by_contra hlive
            exact h ⟨found, hfind, by simpa using hlive⟩
          simp only [habsent, InEffect, Effect.run, Effect.edit, List.append_nil,
            List.forall_mem_map]
          refine forall₂_congr fun doc hdoc => ?_
          split
          · rename_i hid
            obtain rfl := s.workflows.workflowID_injective hdoc
              (List.mem_of_find?_eq_some hfind) hid
            simp [hremoved, setRemoved]
          · rfl

/-- The spec of a turn: afterwards the change is in effect exactly when it was before, or the
handler gets through. -/
theorem inEffect_syncFile_iff (hyaml : hasSuffix file ".yaml" = true) :
    InEffect env config file (s.worktree file) (syncFile env config file s).workflows.docs ↔
      InEffect env config file (s.worktree file) s.workflows.docs ∨
        GetsThrough env config s file := by
  rw [(syncFile_eq env config s hyaml).1]
  by_cases h : GetsThrough env config s file
  · exact iff_of_true (inEffect_of_getsThrough hyaml h) (Or.inr h)
  · rw [or_iff_left h]
    exact inEffect_iff_of_not_getsThrough hyaml h

end Turn

theorem syncFiles_worktree {env : SyncEnv} {config : GitConfig} {file : String}
    (files : List String) (s : SyncState) (hfile : file ∉ files) :
    (syncFiles env config files s).2.worktree file = s.worktree file := by
  induction files generalizing s with
  | nil => rfl
  | cons other rest ih =>
      obtain ⟨hne, hrest⟩ := not_or.mp (mt List.mem_cons.mpr hfile)
      rw [syncFiles]
      split
      · exact ih s hrest
      · split
        · rfl
        · rename_i hyaml _
          rw [ih _ hrest]
          exact (syncFile_eq env config s (by simpa using hyaml)).2.2 file hne

/-! ### What a sync that stores a commit has left out -/

/-- A sync whose clone, once it is pulled, has the commits of a history, with the commit the project
knows as the latest among them, and the files of the newest one. -/
structure SyncRun where
  env : SyncEnv
  steps : SyncSteps
  order : RangeOrder
  config : GitConfig
  state : GitOpsState
  history : KnownHistory
  known : config.latestCommit = history.known.hash
  clone : Clone
  prepared : (prepareClone steps config state.git).2.disk config.localPath = some clone
  commits : clone.commits = history.commits
  worktree : clone.worktree = headTree history.commits

namespace SyncRun

def result (run : SyncRun) : GitOpsState :=
  (syncDBToGit run.env run.steps run.order.order run.config run.state).2

def files (run : SyncRun) : List String :=
  run.order.order (changedFiles run.steps run.config run.state.git)

def stateAfter (run : SyncRun) (front : List String) : SyncState :=
  (syncFiles run.env run.config front (loopStart run.steps run.config run.state)).2

def StoresCommit (run : SyncRun) : Prop :=
  storedCommit run.result.configs run.config.projectID ≠
    storedCommit run.state.configs run.config.projectID

/-- The file has its turn, and right after it the change is in effect. -/
def Applied (run : SyncRun) (file : String) : Prop :=
  ∃ front back, run.files = front ++ file :: back ∧
    InEffect run.env run.config file (headTree run.history.commits file)
      (syncFile run.env run.config file (run.stateAfter front)).workflows.docs

/-- When the turn of the file comes, the change is in effect already or its handler gets through. -/
def Handled (run : SyncRun) (file : String) : Prop :=
  ∀ front back, run.files = front ++ file :: back →
    InEffect run.env run.config file (headTree run.history.commits file)
        (run.stateAfter front).workflows.docs ∨
      GetsThrough run.env run.config (run.stateAfter front) file

/-- A sync that stores a new commit has applied every change up to it. -/
def NoSkippedChange (run : SyncRun) : Prop :=
  run.StoresCommit → ∀ file, RequiresChange run.env run.history run.config file → run.Applied file

variable {run : SyncRun} {file : String}

theorem files_nodup (run : SyncRun) : run.files.Nodup := by
  apply (run.order.perm _).nodup_iff.mpr
  unfold changedFiles
  split
  · exact List.nodup_nil
  · rename_i visited _
    exact visited.keys_nodup

theorem notMem_of_files_eq {front back : List String} (h : run.files = front ++ file :: back) :
    file ∉ front ∧ file ∉ back := by
  have hnodup := run.files_nodup
  rw [h, List.nodup_append, List.nodup_cons] at hnodup
  exact ⟨fun hmem => hnodup.2.2 file hmem file List.mem_cons_self rfl, hnodup.2.1.1⟩

theorem loopStart_worktree (run : SyncRun) :
    (loopStart run.steps run.config run.state).worktree = headTree run.history.commits := by
  simp only [loopStart, run.prepared, run.worktree]

theorem inEffect_after_turn_iff (hyaml : hasSuffix file ".yaml" = true) {front back : List String}
    (hsplit : run.files = front ++ file :: back) :
    InEffect run.env run.config file (headTree run.history.commits file)
        (syncFile run.env run.config file (run.stateAfter front)).workflows.docs ↔
      InEffect run.env run.config file (headTree run.history.commits file)
          (run.stateAfter front).workflows.docs ∨
        GetsThrough run.env run.config (run.stateAfter front) file := by
  have htree : (run.stateAfter front).worktree file = headTree run.history.commits file := by
    rw [stateAfter, syncFiles_worktree front _ (notMem_of_files_eq hsplit).1,
      run.loopStart_worktree]
  rw [← htree]
  exact inEffect_syncFile_iff hyaml

theorem applied_iff (hyaml : hasSuffix file ".yaml" = true) :
    run.Applied file ↔ file ∈ run.files ∧ run.Handled file := by
  constructor
  · rintro ⟨front, back, hsplit, hafter⟩
    refine ⟨by simp [hsplit], fun front' back' hsplit' => ?_⟩
    -- a file has one turn only
    obtain ⟨hfront, hback⟩ := notMem_of_files_eq hsplit
    obtain ⟨rfl, -, -⟩ := (List.append_cons_inj_of_notMem hfront hback).mp
      (hsplit.symm.trans hsplit')
    exact (inEffect_after_turn_iff hyaml hsplit).mp hafter
  · rintro ⟨hmem, hhandled⟩
    obtain ⟨front, back, hsplit⟩ := List.append_of_mem hmem
    exact ⟨front, back, hsplit,
      (inEffect_after_turn_iff hyaml hsplit).mpr (hhandled front back hsplit)⟩

theorem StoresCommit.getChanges (h : run.StoresCommit) : run.steps.getChanges = false := by
  by_contra hfails
  apply h
  have herror : ∀ git, ∃ err, getChangesOf run.steps run.config git = .error err := by
    intro git
    unfold getChangesOf LitmusPortal.getChanges
    split
    · exact ⟨_, rfl⟩
    · simp [Bool.not_eq_false _ ▸ hfails]
  unfold result syncDBToGit
  split
  · rfl
  · rename_i git _
    obtain ⟨err, hchanges⟩ := herror git
    simp only [hchanges]

theorem mem_files_iff (h : run.StoresCommit) :
    file ∈ run.files ↔ ∃ commit ∈ run.history.newer,
      firstChanged (projectPath run.config.projectID) commit = some file := by
  obtain ⟨latest, visited, hchanges, hvisited⟩ := mem_getChanges run.history run.known
  have hfiles : changedFiles run.steps run.config run.state.git = visited.keys := by
    simp only [changedFiles, getChangesOf, run.prepared, run.commits, h.getChanges, hchanges]
  rw [files, (run.order.perm _).mem_iff, hfiles]
  exact AList.mem_keys.symm.trans (hvisited file)

def addCommits : List Commit :=
  [⟨"c2", ["litmus/project-1/pod-kill.yaml"],
      treeOf [("litmus/project-1/.info", "1"), ("litmus/project-1/pod-kill.yaml", "new")]⟩,
    ⟨"c1", ["litmus/project-1/.info"], treeOf [("litmus/project-1/.info", "1")]⟩]

theorem changesRecorded_addCommits : ChangesRecorded addCommits := by
  refine ⟨fun path => ?_, fun path => ?_, trivial⟩
  all_goals
    simp only [treeOf, headTree, List.find?_cons]
    grind

def addHistory : KnownHistory where
  commits := addCommits
  hashes := by decide
  hash_ne := by decide
  recorded := changesRecorded_addCommits
  newer := addCommits.take 1
  known := ⟨"c1", ["litmus/project-1/.info"], treeOf [("litmus/project-1/.info", "1")]⟩
  older := []
  split := rfl

def sample : SyncRun where
  env := { sampleSyncEnv with faults := fun _ => { FileFaults.none with write := true } }
  steps := sampleSteps
  order := keysInOrder
  config := { sampleConfig with latestCommit := "c1" }
  state := sampleState "c1" addHistory.commits
  history := addHistory
  known := rfl
  clone := ⟨"https://github.com/org/repo", "main", addHistory.commits, headTree addHistory.commits⟩
  prepared := rfl
  commits := rfl
  worktree := rfl

end SyncRun

end LitmusPortal
