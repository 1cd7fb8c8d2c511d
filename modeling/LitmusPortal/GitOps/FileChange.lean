import LitmusPortal.GitOps.Sync
import LitmusPortal.Lib.Effects
import LitmusPortal.Workflow.RunLemmas

/-!
# What a changed file does to the collection

The handler of a changed file reads the file and the collection, and then writes once or not at all.
`fileChange` is what it has decided when it comes to the write, and `FileChange.effect` what the
write does to the documents: one document is removed, one is rewritten, or one is added.
-/

namespace LitmusPortal

open GoStrings DocumentStore

inductive FileChange where
  | ignored
  | delete (file : String)
  | create (workflow : ChaosWorkFlow)
  | update (workflow : ChaosWorkFlow) (input : ChaosWorkFlowRequest) (wfType : ChaosWorkflowType)

/-- The JSON of a file that is there, can be read and converted, and has a kind that is looked at. -/
def fileData (env : SyncEnv) (content file : String) : Option String :=
  if (env.faults file).read then none
  else
    match env.codec.yamlToJSON content with
    | none => none
    | some data =>
        if isWorkflowKind (toLower (env.codec.jsonGet data "kind")) then some data else none

def labelOf (env : SyncEnv) (data : String) : String :=
  env.codec.jsonGet data "metadata.labels.workflow_id"

def newDocOf (env : SyncEnv) (config : GitConfig) (data file : String) : Option ChaosWorkFlow :=
  match prepareCreate env config data file with
  | .ok (some (input, wfType)) =>
      match getCluster (env.faults file).getClusterAgain env.clusters input.clusterID with
      | .ok cluster => some (newChaosWorkflow input cluster gitUsername wfType env.now)
      | .error _ => none
  | _ => none

def dataChange (env : SyncEnv) (config : GitConfig) (workflows : Workflows) (data file : String) :
    FileChange :=
  if labelOf env data = "" then
    match newDocOf env config data file with
    | none => .ignored
    | some doc => .create doc
  else
    match prepareUpdate env config data (labelOf env data) file workflows with
    | .ok (some (workflow, input, wfType)) => .update workflow input wfType
    | _ => .ignored

def fileChange (env : SyncEnv) (config : GitConfig) (s : SyncState) (file : String) : FileChange :=
  if !hasSuffix file ".yaml" || (env.faults file).write then .ignored
  else
    match s.worktree file with
    | none => if (env.faults file).getWorkflow then .ignored else .delete file
    | some content =>
        match fileData env content file with
        | none => .ignored
        | some data => dataChange env config s.workflows data file

/-- A live document other than this workflow has the name. -/
def nameTaken (docs : List ChaosWorkFlow) (workflow : ChaosWorkFlow) (name : String) : Bool :=
  docs.any fun other => !other.isRemoved && other.workflowName = name &&
    other.workflowID ≠ workflow.workflowID

def clashes (docs : List ChaosWorkFlow) (doc : ChaosWorkFlow) : Bool :=
  docs.any fun other => decide (Clash workflowIndexes other doc)

def FileChange.effect (env : SyncEnv) (config : GitConfig) (docs : List ChaosWorkFlow) :
    FileChange → Effect ChaosWorkFlow
  | .ignored => .keep
  | .delete file =>
      match docs.find? (deleteQuery config file) with
      | none => .keep
      | some doc => .edit (·.workflowID) doc.workflowID (setRemoved gitUsername)
  | .create doc => if clashes docs doc then .keep else .add doc
  | .update workflow input wfType =>
      if nameTaken docs workflow input.workflowName then .keep
      else .edit (·.workflowID) workflow.workflowID (setWorkflow input gitUsername wfType env.now)

/-- The change makes the sync commit the file with the id that was added to it. -/
def FileChange.flags (env : SyncEnv) (docs : List ChaosWorkFlow) (file : String) :
    FileChange → Bool
  | .create doc => !clashes docs doc && (env.codec.jsonToYAML doc.workflowManifest).isSome &&
      !(env.faults file).writeFile
  | _ => false

/-! ### Updates that rename -/

/-- The write of a new name is accepted exactly when no other live workflow has the name. -/
theorem updateFirst_setWorkflow_pairwise_iff {workflows : Workflows} {workflow : ChaosWorkFlow}
    {query : ChaosWorkFlow → Bool} (request : ChaosWorkFlowRequest) (username : String)
    (wfType : ChaosWorkflowType) (now : Int) (hmem : workflow ∈ workflows.docs)
    (hlive : workflow.isRemoved = false) (hfind : workflows.docs.find? query = some workflow) :
    (updateFirst query (setWorkflow request username wfType now) workflows.docs).Pairwise
        (fun left right => ¬ Clash workflowIndexes left right) ↔
      nameTaken workflows.docs workflow request.workflowName = false := by
  rw [updateFirst_eq_map_of_find? _ workflows.pairwise_workflowID hfind, List.pairwise_map]
  set change := setWorkflow request username wfType now
  have hname : ∀ doc, (change doc).workflowName = request.workflowName := fun _ => rfl
  constructor
  · intro hpair
    by_contra htaken
    rw [Bool.not_eq_false, nameTaken, List.any_eq_true] at htaken
    obtain ⟨other, hother, htaken⟩ := htaken
    simp only [Bool.and_eq_true, Bool.not_eq_true', decide_eq_true_eq] at htaken
    obtain ⟨⟨hotherLive, hotherName⟩, hne⟩ := htaken
    have hsymm : Std.Symm fun left right : ChaosWorkFlow => ¬ Clash workflowIndexes
        (if left.workflowID = workflow.workflowID then change left else left)
        (if right.workflowID = workflow.workflowID then change right else right) :=
      ⟨fun _ _ hnot hclash => hnot hclash.symm⟩
    refine hpair.forall hmem hother (fun heq => hne (by rw [heq])) ?_
    rw [if_pos rfl, if_neg hne, clash_workflow_iff]
    exact Or.inr ⟨hlive, hotherLive, (hname workflow).trans hotherName.symm⟩
  · intro hfree
    have hclear : ∀ other ∈ workflows.docs, other.workflowID ≠ workflow.workflowID →
        ¬ Clash workflowIndexes (change workflow) other := by
      intro other hother hne hclash
      rcases clash_workflow_iff.mp hclash with hid | ⟨-, hotherLive, hotherName⟩
      · exact hne hid.symm
      · have htaken : nameTaken workflows.docs workflow request.workflowName = true := by
          refine List.any_eq_true.mpr ⟨other, hother, ?_⟩
          simp [hotherLive, hne, ← hotherName, hname]
        rw [hfree] at htaken
        cases htaken
    refine workflows.unique.imp_of_mem fun {left right} hleft hright hnot => ?_
    by_cases hl : left.workflowID = workflow.workflowID
    · obtain rfl := workflows.workflowID_injective hleft hmem hl
      have hr : right.workflowID ≠ left.workflowID := fun heq =>
        hnot (clash_workflow_iff.mpr (Or.inl heq.symm))
      rw [if_pos rfl, if_neg hr]
      exact hclear right hright hr
    · by_cases hr : right.workflowID = workflow.workflowID
      · obtain rfl := workflows.workflowID_injective hright hmem hr
        rw [if_neg hl, if_pos rfl]
        exact fun hclash => hclear left hleft hl hclash.symm
      · rw [if_neg hl, if_neg hr]
        exact hnot

/-! ### What the handlers have read -/

theorem updateQuery_iff {config : GitConfig} {wfID : String} {workflow : ChaosWorkFlow} :
    updateQuery config wfID workflow = true ↔ workflow.workflowID = wfID ∧
      workflow.projectID = config.projectID ∧ workflow.isRemoved = false := by
  simp [updateQuery, and_assoc]

/-- What `updateWorkflow` makes of the workflow it has found. -/
def updateInput (env : SyncEnv) (config : GitConfig) (data file : String)
    (workflow : ChaosWorkFlow) : Option (ChaosWorkFlowRequest × ChaosWorkflowType) :=
  if env.codec.jsonGet data "metadata.name" = "" ∨
      env.codec.jsonGet data "metadata.labels.cluster_id" = "" ∨
      workflowNameOf file ≠ env.codec.jsonGet data "metadata.name" ∨
      env.codec.jsonGet data "metadata.labels.cluster_id" ≠ workflow.clusterID then none
  else (processWorkflow env.codec (env.uuid file) (env.faults file).getCluster env.clusters
    (updateRequest config data (env.codec.jsonGet data "metadata.name") workflow)).toOption

/-- The result of the reading part: the workflow with the id, live and of the project, and what is
made of it. -/
theorem prepareUpdate_eq_ok_iff {env : SyncEnv} {config : GitConfig} {data wfID file : String}
    {workflows : Workflows} {workflow : ChaosWorkFlow} {input : ChaosWorkFlowRequest}
    {wfType : ChaosWorkflowType} :
    prepareUpdate env config data wfID file workflows = .ok (some (workflow, input, wfType)) ↔
      (env.faults file).getWorkflow = false ∧
      workflows.docs.find? (updateQuery config wfID) = some workflow ∧
      updateInput env config data file workflow = some (input, wfType) := by
  unfold prepareUpdate updateInput
  by_cases hnames : env.codec.jsonGet data "metadata.name" = "" ∨
      env.codec.jsonGet data "metadata.labels.cluster_id" = ""
  · have hskip : env.codec.jsonGet data "metadata.name" = "" ∨
        env.codec.jsonGet data "metadata.labels.cluster_id" = "" ∨
        workflowNameOf file ≠ env.codec.jsonGet data "metadata.name" ∨
        env.codec.jsonGet data "metadata.labels.cluster_id" ≠ workflow.clusterID :=
      hnames.elim Or.inl fun h => Or.inr (Or.inl h)
    simp only [hnames, hskip, if_true]
    simp [pure, Except.pure]
  · obtain ⟨hname, hcluster⟩ := not_or.mp hnames
    by_cases hfile : workflowNameOf file ≠ env.codec.jsonGet data "metadata.name"
    · simp [hname, hcluster, hfile]
    · cases hfails : (env.faults file).getWorkflow with
      | true => simp [hname, hcluster, hfile, getWorkflows]
      | false =>
          simp only [hname, hcluster, hfile, getWorkflows, Collection.find, ← List.head?_filter,
            or_self, if_false, false_or, Bool.false_eq_true, true_and]
          cases hfound : workflows.docs.filter (updateQuery config wfID) with
          | nil => simp
          | cons found rest =>
              simp only [List.head?_cons, Option.some.injEq]
              by_cases hsame : env.codec.jsonGet data "metadata.labels.cluster_id" = found.clusterID
              · cases hprocess : processWorkflow env.codec (env.uuid file)
                    (env.faults file).getCluster env.clusters
                    (updateRequest config data (env.codec.jsonGet data "metadata.name") found) with
                | error err =>
                    simp only [hsame, ne_eq, not_true_eq_false, if_false, bind, Except.bind]
                    constructor
                    · rintro ⟨⟩
                    · rintro ⟨rfl, h⟩
                      simp [← hsame, hprocess, Except.toOption] at h
                | ok processed =>
                    obtain ⟨input', wfType'⟩ := processed
                    simp only [hsame, ne_eq, not_true_eq_false, if_false, bind, Except.bind, pure,
                      Except.pure, Except.ok.injEq, Option.some.injEq, Prod.mk.injEq]
                    constructor
                    · rintro ⟨rfl, rfl, rfl⟩
                      simp [← hsame, hprocess, Except.toOption]
                    · rintro ⟨rfl, h⟩
                      simpa [← hsame, hprocess, Except.toOption] using h
              · simp only [hsame, ne_eq, not_false_eq_true, if_true, pure, Except.pure,
                  Except.ok.injEq, reduceCtorEq, false_iff, not_and]
                rintro rfl
                simp [hsame]

theorem updateInput_request {env : SyncEnv} {config : GitConfig} {data file : String}
    {workflow : ChaosWorkFlow} {input : ChaosWorkFlowRequest} {wfType : ChaosWorkflowType}
    (hid : workflow.workflowID ≠ "")
    (h : updateInput env config data file workflow = some (input, wfType)) :
    SameRequest (updateRequest config data (env.codec.jsonGet data "metadata.name") workflow)
      input := by
  unfold updateInput at h
  split at h
  · cases h
  · cases hprocess : processWorkflow env.codec (env.uuid file) (env.faults file).getCluster
        env.clusters (updateRequest config data (env.codec.jsonGet data "metadata.name")
          workflow) with
    | error err => simp [hprocess, Except.toOption] at h
    | ok processed =>
        simp only [hprocess, Except.toOption, Option.some.injEq] at h
        subst h
        obtain ⟨hsame, -⟩ := processWorkflow_ok hprocess
        have hkept : withID (env.uuid file) (updateRequest config data
            (env.codec.jsonGet data "metadata.name") workflow) =
              updateRequest config data (env.codec.jsonGet data "metadata.name") workflow := by
          simp [withID, updateRequest, hid]
        rwa [hkept] at hsame

theorem newDocOf_fields {env : SyncEnv} {config : GitConfig} {data file : String}
    {doc : ChaosWorkFlow} (h : newDocOf env config data file = some doc) :
    doc.workflowID = env.uuid file ∧ doc.projectID = config.projectID ∧ doc.isRemoved = false ∧
      doc.workflowName = env.codec.jsonGet data "metadata.name" := by
  unfold newDocOf at h
  split at h
  · rename_i input wfType hprepare
    unfold prepareCreate at hprepare
    dsimp only at hprepare
    split_ifs at hprepare
    · cases hprepare
    · obtain ⟨processed, hprocess, hprepare⟩ := exists_of_bind_eq_ok hprepare
      cases hprepare
      obtain ⟨hsame, -⟩ := processWorkflow_ok hprocess
      split at h
      · cases h
        rw [hsame]
        exact ⟨rfl, rfl, rfl, rfl⟩
      · cases h
  · cases h

/-! ### The handlers as effects -/

section Handlers

variable {env : SyncEnv} {config : GitConfig} {file : String}

theorem deleteWorkflow_docs (workflows : Workflows) :
    (deleteWorkflow env config file workflows).2.docs =
      if (env.faults file).getWorkflow || (env.faults file).write then workflows.docs
      else ((FileChange.delete file).effect env config workflows.docs).run workflows.docs := by
  unfold deleteWorkflow
  cases hget : (env.faults file).getWorkflow with
  | true => simp [getWorkflow]
  | false =>
      rw [FileChange.effect]
      cases hfind : workflows.docs.find? (deleteQuery config file) with
      | none => simp [getWorkflow, Collection.findOne, hfind]
      | some doc =>
          rw [getWorkflow_eq hfind]
          simp only [(processWorkflowDelete_eq _ _ _ _).2, Bool.false_or]
          congr 1
          rw [updateFirst_eq_map_of_find? _ workflows.pairwise_workflowID hfind]
          simp [Effect.run, Effect.edit]

variable (env config file) in
theorem createWorkflow_eq (data : String) (s : SyncState) :
    (createWorkflow env config data file s).2.workflows.docs =
        (match newDocOf env config data file with
          | none => s.workflows.docs
          | some doc => if (env.faults file).write then s.workflows.docs
              else ((FileChange.create doc).effect env config s.workflows.docs).run
                s.workflows.docs) ∧
      ((createWorkflow env config data file s).1 = .ok true ↔
        ∃ doc, newDocOf env config data file = some doc ∧ (env.faults file).write = false ∧
          (FileChange.create doc).flags env s.workflows.docs file = true) ∧
      (createWorkflow env config data file s).2.newWorkflows = s.newWorkflows ∧
      ∀ other, other ≠ file →
        (createWorkflow env config data file s).2.worktree other = s.worktree other := by
  unfold createWorkflow newDocOf
  cases prepareCreate env config data file with
  | error err => simp
  | ok prepared =>
      cases prepared with
      | none => simp
      | some prepared =>
          obtain ⟨input, wfType⟩ := prepared
          simp only [processWorkflowCreation]
          cases getCluster (env.faults file).getClusterAgain env.clusters input.clusterID with
          | error err => simp
          | ok cluster =>
              obtain ⟨doc, hdoc⟩ :
                  ∃ doc, newChaosWorkflow input cluster gitUsername wfType env.now = doc := ⟨_, rfl⟩
              have hmanifest : input.workflowManifest = doc.workflowManifest := by
                rw [← hdoc]
                rfl
              simp only [hdoc, hmanifest]
              have hclashes : clashes s.workflows.docs doc = true ↔
                  ∃ other ∈ s.workflows.docs, Clash workflowIndexes other doc := by
                simp [clashes]
              rcases insertChaosWorkflow_cases (env.faults file).write s.workflows doc with
                ⟨hresult, hsame, hwhy⟩ | ⟨hresult, hdocs, hwrite, hfree⟩
              · rw [hresult, hsame]
                rcases hwhy with hfails | hclash
                · simp [hfails]
                · simp [FileChange.effect, FileChange.flags, hclashes.mpr hclash]
              · have hnot : clashes s.workflows.docs doc = false := by
                  rw [← Bool.not_eq_true, hclashes]
                  rintro ⟨other, hother, hclash⟩
                  exact hfree other hother hclash
                rw [hwrite] at hresult hdocs
                simp only [hwrite, hresult, FileChange.effect, FileChange.flags, hnot]
                cases hyaml : env.codec.jsonToYAML doc.workflowManifest with
                | none => simp [hdocs, hnot, hyaml]
                | some yamlData =>
                    cases (env.faults file).writeFile with
                    | true => simp [hdocs]
                    | false =>
                        refine ⟨by simp [hdocs], by simp [hnot, hyaml], rfl, ?_⟩
                        exact fun other hother => by simp [hother]

variable (env config file) in
theorem updateWorkflow_docs (data : String) {wfID : String} (workflows : Workflows)
    (hid : wfID ≠ "") :
    (updateWorkflow env config data wfID file workflows).2.docs =
      match prepareUpdate env config data wfID file workflows with
      | .ok (some (workflow, input, wfType)) => if (env.faults file).write then workflows.docs
          else ((FileChange.update workflow input wfType).effect env config workflows.docs).run
            workflows.docs
      | _ => workflows.docs := by
  unfold updateWorkflow
  cases hprepare : prepareUpdate env config data wfID file workflows with
  | error err => rfl
  | ok prepared =>
      cases prepared with
      | none => rfl
      | some prepared =>
          obtain ⟨workflow, input, wfType⟩ := prepared
          obtain ⟨-, hfind, hinput⟩ := prepareUpdate_eq_ok_iff.mp hprepare
          obtain ⟨hwfID, hproject, hlive⟩ := updateQuery_iff.mp (List.find?_some hfind)
          have hrequest := updateInput_request (hwfID ▸ hid) hinput
          have hinputID : input.workflowID = some workflow.workflowID := by rw [hrequest]; rfl
          have hinputProject : input.projectID = config.projectID := by rw [hrequest]; rfl
          have hmem := List.mem_of_find?_eq_some hfind
          have hquery : ∀ doc, requestQuery input doc = true ↔
              doc.workflowID = workflow.workflowID ∧ doc.projectID = config.projectID := by
            intro doc
            simp [requestQuery, hinputID, hinputProject]
          have hfindQuery : workflows.docs.find? (requestQuery input) = some workflow :=
            find?_eq_some_of_key workflows.pairwise_workflowID hmem
              ((hquery workflow).mpr ⟨rfl, hproject⟩) fun other hother => ((hquery other).mp hother).1
          have haccepted := updateFirst_setWorkflow_pairwise_iff input gitUsername wfType env.now
            hmem hlive hfindQuery
          have hedit := updateFirst_eq_map_of_find?
            (setWorkflow input gitUsername wfType env.now) workflows.pairwise_workflowID hfindQuery
          simp only [processWorkflowUpdate, FileChange.effect]
          rcases updateChaosWorkflow_cases (env.faults file).write workflows (requestQuery input)
              (setWorkflow input gitUsername wfType env.now) with
            ⟨-, hsame, hwhy⟩ | ⟨-, hdocs, hwrite, hunique⟩
          · rw [hsame]
            rcases hwhy with hfails | hclash
            · simp [hfails]
            · rw [haccepted, Bool.not_eq_false] at hclash
              simp [hclash]
          · rw [hdocs, hwrite, hedit, haccepted.mp hunique]
            simp [Effect.run, Effect.edit]

theorem noteCreated_workflows (result : Except GoError Bool × SyncState) :
    (noteCreated result).workflows = result.2.workflows := by
  obtain ⟨_ | _ | _, s⟩ := result <;> rfl

theorem noteCreated_worktree (result : Except GoError Bool × SyncState) :
    (noteCreated result).worktree = result.2.worktree := by
  obtain ⟨_ | _ | _, s⟩ := result <;> rfl

theorem noteCreated_newWorkflows (result : Except GoError Bool × SyncState) :
    (noteCreated result).newWorkflows =
      (result.2.newWorkflows || decide (result.1 = .ok true)) := by
  obtain ⟨_ | _ | _, s⟩ := result <;> simp [noteCreated]

/-- The spec of the loop body: the collection after the file's own change, the flag, and every other
file of the worktree as it was. -/
theorem syncFile_eq (env : SyncEnv) (config : GitConfig) (s : SyncState) (hyaml : hasSuffix file ".yaml" = true) :
    (syncFile env config file s).workflows.docs =
        ((fileChange env config s file).effect env config s.workflows.docs).run
          s.workflows.docs ∧
      (syncFile env config file s).newWorkflows =
        (s.newWorkflows || (fileChange env config s file).flags env s.workflows.docs file) ∧
      ∀ other, other ≠ file → (syncFile env config file s).worktree other = s.worktree other := by
  unfold syncFile fileChange fileData dataChange labelOf
  simp only [hyaml, Bool.not_true, Bool.false_or]
  cases hfile : s.worktree file with
  | none =>
      simp only [deleteWorkflow_docs]
      cases (env.faults file).write with
      | true => simp [FileChange.effect, FileChange.flags]
      | false => cases (env.faults file).getWorkflow <;> simp [FileChange.effect, FileChange.flags]
  | some content =>
      cases hread : (env.faults file).read with
      | true => simp [FileChange.effect, FileChange.flags]
      | false =>
          cases hjson : env.codec.yamlToJSON content with
          | none => simp [hjson, FileChange.effect, FileChange.flags]
          | some data =>
              cases hkind : isWorkflowKind (toLower (env.codec.jsonGet data "kind")) with
              | false => simp [hjson, hkind, FileChange.effect, FileChange.flags]
              | true =>
                  simp only [hjson, hkind, if_true, Bool.not_true, Bool.false_eq_true, if_false]
                  by_cases hid : env.codec.jsonGet data "metadata.labels.workflow_id" = ""
                  · obtain ⟨hdocs, hflag, hnew, htree⟩ := createWorkflow_eq env config file data s
                    simp only [hid, if_true, noteCreated_workflows, noteCreated_worktree,
                      noteCreated_newWorkflows, hdocs, hnew]
                    refine ⟨?_, ?_, htree⟩
                    · cases newDocOf env config data file with
                      | none => simp [FileChange.effect]
                      | some doc =>
                          cases (env.faults file).write <;> simp [FileChange.effect]
                    · congr 1
                      rw [Bool.eq_iff_iff, decide_eq_true_iff, hflag]
                      cases newDocOf env config data file with
                      | none => simp [FileChange.flags]
                      | some doc => cases (env.faults file).write <;> simp [FileChange.flags]
                  · have hdocs := updateWorkflow_docs env config file data s.workflows hid
                    simp only [hid, if_false, hdocs]
                    refine ⟨?_, ?_, fun _ _ => trivial⟩
                    · split
                      · cases (env.faults file).write <;> simp [FileChange.effect]
                      · cases (env.faults file).write <;> simp [FileChange.effect]
                    · cases (env.faults file).write with
                      | true => simp [FileChange.flags]
                      | false =>
                          simp only [Bool.false_eq_true, if_false]
                          split <;> simp [FileChange.flags]

end Handlers

end LitmusPortal
