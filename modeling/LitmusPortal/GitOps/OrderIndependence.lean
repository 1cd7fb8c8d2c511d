import LitmusPortal.GitOps.FileChange

/-!
# The order of a sync

The loop of `SyncDBToGit` ranges over a Go map, in an order that differs from run to run. A deletion
finds its workflow by the name of the file and an update by its id, so what one file does can decide
what another does. Files that touch different workflow names do not meet: each finds the collection
as it was for its own part, and their effects commute.
-/

namespace LitmusPortal

open GoStrings DocumentStore

/-- The names a change looks at or writes. -/
def FileChange.names : FileChange → List String
  | .ignored => []
  | .delete file => [workflowNameOf file]
  | .create workflow => [workflow.workflowName]
  | .update workflow input _ => [workflow.workflowName, input.workflowName]

def FileChange.isDelete : FileChange → Bool
  | .delete _ => true
  | _ => false

/-- Two changes keep apart: both are deletions, or they have no name in common. -/
def FileChange.Separate (left right : FileChange) : Prop :=
  (left.isDelete = true ∧ right.isDelete = true) ∨ ∀ name ∈ left.names, name ∉ right.names

theorem FileChange.Separate.symm {left right : FileChange} (h : left.Separate right) :
    right.Separate left :=
  h.elim (fun both => Or.inl both.symm) fun hnames =>
    Or.inr fun name hright hleft => hnames name hleft hright

/-- Every two of the files keep apart. -/
def Apart (env : SyncEnv) (config : GitConfig) (s : SyncState) (files : List String) : Prop :=
  ∀ file ∈ files, ∀ other ∈ files, file ≠ other →
    (fileChange env config s file).Separate (fileChange env config s other)

/-- The ids `uuid.New` draws for the files: all different, and neither the id of a workflow nor one
that a file is labelled with. -/
structure FreshIDs (env : SyncEnv) (s : SyncState) (files : List String) : Prop where
  injective : ∀ file ∈ files, ∀ other ∈ files, file ≠ other → env.uuid file ≠ env.uuid other
  stored : ∀ doc ∈ s.workflows.docs, ∀ file ∈ files, doc.workflowID ≠ env.uuid file
  labelled : ∀ other ∈ files, ∀ content data, s.worktree other = some content →
    env.codec.yamlToJSON content = some data → ∀ file ∈ files, labelOf env data ≠ env.uuid file

/-- A document after an effect comes from one before, with the same values where no handler
writes, or it has just been added. -/
structure Evolves (doc doc' : ChaosWorkFlow) : Prop where
  workflowID : doc'.workflowID = doc.workflowID
  projectID : doc'.projectID = doc.projectID
  clusterID : doc'.clusterID = doc.clusterID
  cronSyntax : doc'.cronSyntax = doc.cronSyntax
  workflowDescription : doc'.workflowDescription = doc.workflowDescription
  isCustomWorkflow : doc'.isCustomWorkflow = doc.isCustomWorkflow
  live : doc'.isRemoved = false → doc.isRemoved = false

theorem Evolves.refl (doc : ChaosWorkFlow) : Evolves doc doc := ⟨rfl, rfl, rfl, rfl, rfl, rfl, id⟩

section OneFile

variable {env : SyncEnv} {config : GitConfig} {s : SyncState} {file : String}

theorem fileChange_cases (env : SyncEnv) (config : GitConfig) (s : SyncState) (file : String) :
    fileChange env config s file = .ignored ∨
      (s.worktree file = none ∧ fileChange env config s file = .delete file) ∨
      ∃ content data, s.worktree file = some content ∧ fileData env content file = some data ∧
        fileChange env config s file = dataChange env config s.workflows data file := by
  unfold fileChange
  split
  · exact Or.inl rfl
  · split
    · rename_i habsent
      split
      · exact Or.inl rfl
      · exact Or.inr (Or.inl ⟨habsent, rfl⟩)
    · rename_i content hcontent
      split
      · exact Or.inl rfl
      · rename_i data hdata
        exact Or.inr (Or.inr ⟨content, data, hcontent, hdata, rfl⟩)

theorem fileChange_delete {deleted : String}
    (h : fileChange env config s file = .delete deleted) :
    deleted = file ∧ s.worktree file = none := by
  rcases fileChange_cases env config s file with
    hchange | ⟨habsent, hchange⟩ | ⟨_, data, -, -, hchange⟩
  · cases hchange.symm.trans h
  · cases hchange.symm.trans h
    exact ⟨rfl, habsent⟩
  · rw [hchange, dataChange] at h
    split at h
    · split at h <;> cases h
    · split at h <;> cases h

theorem fileChange_create {doc : ChaosWorkFlow}
    (h : fileChange env config s file = .create doc) :
    doc.workflowID = env.uuid file ∧ doc.isRemoved = false := by
  rcases fileChange_cases env config s file with
    hchange | ⟨-, hchange⟩ | ⟨_, data, -, -, hchange⟩
  · cases hchange.symm.trans h
  · cases hchange.symm.trans h
  · rw [hchange, dataChange] at h
    split at h
    · split at h
      · cases h
      · rename_i hdoc
        cases h
        obtain ⟨hid, -, hlive, -⟩ := newDocOf_fields hdoc
        exact ⟨hid, hlive⟩
    · split at h <;> cases h

theorem fileChange_update {workflow : ChaosWorkFlow} {input : ChaosWorkFlowRequest}
    {wfType : ChaosWorkflowType} (h : fileChange env config s file = .update workflow input wfType) :
    workflow ∈ s.workflows.docs ∧ workflow.isRemoved = false ∧
      ∃ data, SameRequest
        (updateRequest config data (env.codec.jsonGet data "metadata.name") workflow) input := by
  rcases fileChange_cases env config s file with
    hchange | ⟨-, hchange⟩ | ⟨_, data, -, -, hchange⟩
  · cases hchange.symm.trans h
  · cases hchange.symm.trans h
  · rw [hchange, dataChange] at h
    split at h
    · split at h <;> cases h
    · rename_i hid
      split at h
      · rename_i hprepare
        cases h
        obtain ⟨-, hfind, hinput⟩ := prepareUpdate_eq_ok_iff.mp hprepare
        obtain ⟨hwfID, -, hlive⟩ := updateQuery_iff.mp (List.find?_some hfind)
        exact ⟨List.mem_of_find?_eq_some hfind, hlive, data,
          updateInput_request (hwfID ▸ hid) hinput⟩
      · cases h

theorem filter_effect {name : String} (hname : name ∉ (fileChange env config s file).names) :
    (((fileChange env config s file).effect env config s.workflows.docs).run
      s.workflows.docs).filter (fun doc => doc.workflowName = name) =
        s.workflows.docs.filter fun doc => doc.workflowName = name := by
  cases hchange : fileChange env config s file with
  | ignored => simp [FileChange.effect]
  | delete file =>
      simp only [hchange, FileChange.names, List.mem_singleton] at hname
      rw [FileChange.effect]
      cases hfind : s.workflows.docs.find? (deleteQuery config file) with
      | none => simp
      | some found =>
          have hquery := List.find?_some hfind
          simp only [deleteQuery, Bool.and_eq_true, decide_eq_true_eq] at hquery
          refine Effect.filter_run (fun doc hdoc => ?_) (by simp [Effect.edit])
          by_cases hid : doc.workflowID = found.workflowID
          · obtain rfl := s.workflows.workflowID_injective hdoc
              (List.mem_of_find?_eq_some hfind) hid
            refine Or.inr ⟨?_, ?_⟩ <;>
              simp [Effect.edit, setRemoved, hquery.1, Ne.symm hname]
          · exact Or.inl (by simp [Effect.edit, hid])
  | create doc =>
      simp only [hchange, FileChange.names, List.mem_singleton] at hname
      rw [FileChange.effect]
      split
      · simp
      · simp [List.filter_append, Ne.symm hname]
  | update workflow input wfType =>
      simp only [hchange, FileChange.names, List.mem_cons, List.not_mem_nil, or_false,
        not_or] at hname
      obtain ⟨hmem, -, -⟩ := fileChange_update hchange
      rw [FileChange.effect]
      split
      · simp
      · refine Effect.filter_run (fun doc hdoc => ?_) (by simp [Effect.edit])
        by_cases hid : doc.workflowID = workflow.workflowID
        · obtain rfl := s.workflows.workflowID_injective hdoc hmem hid
          refine Or.inr ⟨by simp [Ne.symm hname.1], ?_⟩
          simp [Effect.edit, setWorkflow, Ne.symm hname.2]
        · exact Or.inl (by simp [Effect.edit, hid])

theorem evolves_of_mem_effect {doc' : ChaosWorkFlow}
    (h : doc' ∈ ((fileChange env config s file).effect env config s.workflows.docs).run
      s.workflows.docs) :
    doc'.workflowID = env.uuid file ∨ ∃ doc ∈ s.workflows.docs, Evolves doc doc' := by
  cases hchange : fileChange env config s file with
  | ignored =>
      simp only [hchange, FileChange.effect, Effect.run_keep] at h
      exact Or.inr ⟨doc', h, .refl doc'⟩
  | delete file =>
      rw [hchange, FileChange.effect] at h
      split at h
      · rw [Effect.run_keep] at h
        exact Or.inr ⟨doc', h, .refl doc'⟩
      · simp only [Effect.run, Effect.edit, List.append_nil, List.mem_map] at h
        obtain ⟨doc, hdoc, rfl⟩ := h
        refine Or.inr ⟨doc, hdoc, ?_⟩
        split
        · exact ⟨rfl, rfl, rfl, rfl, rfl, rfl, fun hlive => by cases hlive⟩
        · exact .refl doc
  | create doc =>
      rw [hchange, FileChange.effect] at h
      split at h
      · rw [Effect.run_keep] at h
        exact Or.inr ⟨doc', h, .refl doc'⟩
      · rw [Effect.run_add, List.mem_append, List.mem_singleton] at h
        rcases h with h | rfl
        · exact Or.inr ⟨doc', h, .refl doc'⟩
        · exact Or.inl (fileChange_create hchange).1
  | update workflow input wfType =>
      obtain ⟨hmem, hlive, data, hrequest⟩ := fileChange_update hchange
      rw [hchange, FileChange.effect] at h
      split at h
      · rw [Effect.run_keep] at h
        exact Or.inr ⟨doc', h, .refl doc'⟩
      · simp only [Effect.run, Effect.edit, List.append_nil, List.mem_map] at h
        obtain ⟨doc, hdoc, rfl⟩ := h
        refine Or.inr ⟨doc, hdoc, ?_⟩
        split
        · rename_i hid
          obtain rfl := s.workflows.workflowID_injective hdoc hmem hid
          rw [hrequest]
          exact ⟨rfl, rfl, rfl, rfl, rfl, rfl, id⟩
        · exact .refl doc

end OneFile

/-! ### A file next to another one -/

theorem fileData_some {env : SyncEnv} {content file data : String}
    (h : fileData env content file = some data) : env.codec.yamlToJSON content = some data := by
  unfold fileData at h
  split_ifs at h
  split at h
  · cases h
  · rename_i hjson
    split_ifs at h
    rw [hjson, h]

theorem updateRequest_evolves {config : GitConfig} {data name : String}
    {doc doc' : ChaosWorkFlow} (h : Evolves doc doc') :
    updateRequest config data name doc' = updateRequest config data name doc := by
  simp only [updateRequest, h.workflowID, h.clusterID, h.cronSyntax, h.workflowDescription,
    h.isCustomWorkflow]

theorem updateInput_evolves {env : SyncEnv} {config : GitConfig} {data file : String}
    {doc doc' : ChaosWorkFlow} (h : Evolves doc doc') :
    updateInput env config data file doc' = updateInput env config data file doc := by
  simp only [updateInput, updateRequest_evolves h, h.clusterID]

theorem deleteQuery_setRemoved (config : GitConfig) (file username : String)
    (workflow : ChaosWorkFlow) : deleteQuery config file (setRemoved username workflow) =
      deleteQuery config file workflow := by
  unfold deleteQuery setRemoved
  rfl

theorem dataChange_of_label {env : SyncEnv} {config : GitConfig} {workflows : Workflows}
    {data file : String} (hlabel : labelOf env data ≠ "") :
    dataChange env config workflows data file =
      match (if (env.faults file).getWorkflow then none
        else workflows.docs.find? (updateQuery config (labelOf env data))) with
      | none => .ignored
      | some workflow =>
          match updateInput env config data file workflow with
          | none => .ignored
          | some (input, wfType) => .update workflow input wfType := by
  rw [dataChange, if_neg hlabel]
  split
  · rename_i hprepare
    obtain ⟨hfails, hfind, hinput⟩ := prepareUpdate_eq_ok_iff.mp hprepare
    simp [hfails, hfind, hinput]
  · rename_i hnot
    split
    · rfl
    · rename_i hfind
      split
      · rfl
      · rename_i hinput
        split_ifs at hfind with hfails
        exact absurd (prepareUpdate_eq_ok_iff.mpr ⟨by simpa using hfails, hfind, hinput⟩)
          (hnot _ _ _)

section TwoFiles

variable {env : SyncEnv} {config : GitConfig} {s s' : SyncState} {file other : String}
  (hdocs : s'.workflows.docs =
    ((fileChange env config s other).effect env config s.workflows.docs).run s.workflows.docs)
  (hseparate : (fileChange env config s file).Separate (fileChange env config s other))

include hdocs

theorem mem_of_not_touched {doc : ChaosWorkFlow} (hdoc : doc ∈ s.workflows.docs)
    (hname : doc.workflowName ∉ (fileChange env config s other).names) :
    doc ∈ s'.workflows.docs := by
  have hfilter := filter_effect hname
  rw [← hdocs] at hfilter
  have hmem : doc ∈ s.workflows.docs.filter fun found => found.workflowName = doc.workflowName :=
    List.mem_filter.mpr ⟨hdoc, by simp⟩
  rw [← hfilter] at hmem
  exact (List.mem_filter.mp hmem).1

include hseparate

theorem dataChange_stable {content data : String} (hcontent : s.worktree file = some content)
    (hdata : fileData env content file = some data)
    (hchange : fileChange env config s file = dataChange env config s.workflows data file)
    (hlabel : ∀ content data, s.worktree file = some content →
      env.codec.yamlToJSON content = some data → labelOf env data ≠ env.uuid other) :
    dataChange env config s'.workflows data file =
      dataChange env config s.workflows data file := by
  by_cases hempty : labelOf env data = ""
  · simp only [dataChange, hempty, if_true]
  · have hfresh := hlabel content data hcontent (fileData_some hdata)
    rw [dataChange_of_label hempty] at hchange ⊢
    rw [dataChange_of_label hempty]
    cases hfails : (env.faults file).getWorkflow with
    | true => simp
    | false =>
        simp only [hfails, Bool.false_eq_true, if_false] at hchange ⊢
        -- a workflow found afterwards was there before, with the values the update starts from
        have hbefore : ∀ found', s'.workflows.docs.find?
            (updateQuery config (labelOf env data)) = some found' →
            ∃ found, s.workflows.docs.find? (updateQuery config (labelOf env data)) =
              some found ∧ Evolves found found' := by
          intro found' hfind'
          obtain ⟨hid', hproject', hlive'⟩ := updateQuery_iff.mp (List.find?_some hfind')
          have hmem' := List.mem_of_find?_eq_some hfind'
          rw [hdocs] at hmem'
          rcases evolves_of_mem_effect hmem' with huuid | ⟨found, hfound, hevolves⟩
          · exact absurd (hid'.symm.trans huuid) hfresh
          · have hid := hevolves.workflowID.symm.trans hid'
            refine ⟨found, ?_, hevolves⟩
            exact find?_eq_some_of_key s.workflows.pairwise_workflowID hfound
              (updateQuery_iff.mpr ⟨hid, hevolves.projectID.symm.trans hproject',
                hevolves.live hlive'⟩)
              fun doc hdoc => (updateQuery_iff.mp hdoc).1.trans hid.symm
        cases hfind : s.workflows.docs.find? (updateQuery config (labelOf env data)) with
        | none =>
            cases hfind' : s'.workflows.docs.find? (updateQuery config (labelOf env data)) with
            | none => rfl
            | some found' =>
                obtain ⟨found, hfound, -⟩ := hbefore found' hfind'
                cases hfind.symm.trans hfound
        | some found =>
            cases hinput : updateInput env config data file found with
            | none =>
                cases hfind' : s'.workflows.docs.find?
                  (updateQuery config (labelOf env data)) with
                | none => simp [hinput]
                | some found' =>
                    obtain ⟨found₀, hfound₀, hevolves⟩ := hbefore found' hfind'
                    obtain rfl := Option.some.inj (hfind.symm.trans hfound₀)
                    simp [updateInput_evolves hevolves, hinput]
            | some processed =>
                obtain ⟨input, wfType⟩ := processed
                simp only [hfind, hinput] at hchange
                have hname : found.workflowName ∉ (fileChange env config s other).names := by
                  rcases hseparate with ⟨hdelete, -⟩ | hnames
                  · simp [hchange, FileChange.isDelete] at hdelete
                  · exact hnames _ (by simp [hchange, FileChange.names])
                have hmem := mem_of_not_touched hdocs (List.mem_of_find?_eq_some hfind) hname
                have hquery := List.find?_some hfind
                have hfind' : s'.workflows.docs.find?
                    (updateQuery config (labelOf env data)) = some found :=
                  find?_eq_some_of_key s'.workflows.pairwise_workflowID hmem hquery
                    fun doc hdoc => (updateQuery_iff.mp hdoc).1.trans
                      (updateQuery_iff.mp hquery).1.symm
                rw [hfind']

/-- Another file does not change what a file comes to. -/
theorem fileChange_stable (htree : s'.worktree file = s.worktree file)
    (hlabel : ∀ content data, s.worktree file = some content →
      env.codec.yamlToJSON content = some data → labelOf env data ≠ env.uuid other) :
    fileChange env config s' file = fileChange env config s file := by
  by_cases hskip : (!hasSuffix file ".yaml" || (env.faults file).write) = true
  · rw [fileChange, fileChange, if_pos hskip, if_pos hskip]
  · cases hcontent : s.worktree file with
    | none => rw [fileChange, fileChange, htree, hcontent]
    | some content =>
        cases hdata : fileData env content file with
        | none => simp only [fileChange, htree, hcontent, hdata]
        | some data =>
            have hchange : ∀ t : SyncState, t.worktree file = some content →
                fileChange env config t file = dataChange env config t.workflows data file := by
              intro t ht
              rw [fileChange, if_neg hskip]
              simp only [ht, hdata]
            rw [hchange s' (htree.trans hcontent), hchange s hcontent]
            exact dataChange_stable hdocs hseparate hcontent hdata (hchange s hcontent) hlabel

omit hseparate in
/-- Deletions keep the names, so a deletion next to another one finds the workflow it would. -/
theorem find?_deleteQuery_of_isDelete
    (hdelete : (fileChange env config s other).isDelete = true) :
    (s'.workflows.docs.find? (deleteQuery config file)).map (·.workflowID) =
      (s.workflows.docs.find? (deleteQuery config file)).map (·.workflowID) := by
  cases hchange : fileChange env config s other with
  | delete found =>
      rw [hdocs, hchange, FileChange.effect]
      split
      · rw [Effect.run_keep]
      · simp only [Effect.run, Effect.edit, List.append_nil]
        refine map_find?_map (fun doc => ?_) fun doc => ?_
        · rw [apply_ite (deleteQuery config file), deleteQuery_setRemoved, ite_self]
        · rw [apply_ite ChaosWorkFlow.workflowID, setRemoved_workflowID, ite_self]
  | ignored => simp [hchange, FileChange.isDelete] at hdelete
  | create doc => simp [hchange, FileChange.isDelete] at hdelete
  | update workflow input wfType => simp [hchange, FileChange.isDelete] at hdelete

omit hdocs hseparate in
theorem clashes_of_fresh {docs : List ChaosWorkFlow} {doc : ChaosWorkFlow}
    (hlive : doc.isRemoved = false) (hfresh : ∀ found ∈ docs, found.workflowID ≠ doc.workflowID) :
    clashes docs doc =
      docs.any fun found => !found.isRemoved && found.workflowName = doc.workflowName := by
  rw [clashes, Bool.eq_iff_iff, List.any_eq_true, List.any_eq_true]
  refine exists_congr fun found => and_congr_right fun hfound => ?_
  simp [clash_workflow_iff, hfresh found hfound, hlive]

theorem effect_stable
    (hfresh : ∀ found ∈ s.workflows.docs, found.workflowID ≠ env.uuid file)
    (hfresh' : ∀ found ∈ s'.workflows.docs, found.workflowID ≠ env.uuid file) :
    (fileChange env config s file).effect env config s'.workflows.docs =
        (fileChange env config s file).effect env config s.workflows.docs ∧
      (fileChange env config s file).flags env s'.workflows.docs file =
        (fileChange env config s file).flags env s.workflows.docs file := by
  have hfilter : ∀ name ∈ (fileChange env config s file).names,
      (fileChange env config s file).isDelete = false →
      s'.workflows.docs.filter (fun doc => doc.workflowName = name) =
        s.workflows.docs.filter fun doc => doc.workflowName = name := by
    intro name hname hnot
    rcases hseparate with ⟨hdelete, -⟩ | hnames
    · simp [hnot] at hdelete
    · rw [hdocs]
      exact filter_effect (hnames name hname)
  cases hchange : fileChange env config s file with
  | ignored => exact ⟨rfl, rfl⟩
  | delete found =>
      refine ⟨?_, rfl⟩
      have hids : (s'.workflows.docs.find? (deleteQuery config found)).map (·.workflowID) =
          (s.workflows.docs.find? (deleteQuery config found)).map (·.workflowID) := by
        rcases hseparate with ⟨-, hdelete⟩ | hnames
        · exact find?_deleteQuery_of_isDelete hdocs hdelete
        · have hname : workflowNameOf found ∉ (fileChange env config s other).names :=
            hnames _ (by simp [hchange, FileChange.names])
          rw [hdocs, find?_eq_of_filter_eq (filter_effect hname)]
          intro doc hdoc
          simp only [deleteQuery, Bool.and_eq_true] at hdoc
          exact hdoc.1
      simp only [FileChange.effect]
      cases hfind : s.workflows.docs.find? (deleteQuery config found) with
      | none =>
          rw [hfind, Option.map_none, Option.map_eq_none_iff] at hids
          rw [hids]
      | some doc =>
          rw [hfind, Option.map_some, Option.map_eq_some_iff] at hids
          obtain ⟨doc', hfind', hid⟩ := hids
          rw [hfind']
          simp only [hid]
  | create doc =>
      obtain ⟨hid, hlive⟩ := fileChange_create hchange
      have hclashes : clashes s'.workflows.docs doc = clashes s.workflows.docs doc := by
        rw [clashes_of_fresh hlive (hid ▸ hfresh'), clashes_of_fresh hlive (hid ▸ hfresh)]
        refine any_eq_of_filter_eq (hfilter doc.workflowName
          (by simp [hchange, FileChange.names]) (by simp [hchange, FileChange.isDelete])) ?_
        intro found hfound
        simp only [Bool.and_eq_true] at hfound
        exact hfound.2
      simp only [FileChange.effect, FileChange.flags, hclashes]
      exact ⟨trivial, trivial⟩
  | update workflow input wfType =>
      have htaken : nameTaken s'.workflows.docs workflow input.workflowName =
          nameTaken s.workflows.docs workflow input.workflowName := by
        refine any_eq_of_filter_eq (hfilter input.workflowName
          (by simp [hchange, FileChange.names]) (by simp [hchange, FileChange.isDelete])) ?_
        intro found hfound
        simp only [Bool.and_eq_true] at hfound
        exact hfound.1.2
      simp only [FileChange.effect, FileChange.flags, htaken]
      exact ⟨trivial, trivial⟩

end TwoFiles

/-! ### All the files of a sync -/

def fileEffect (env : SyncEnv) (config : GitConfig) (s : SyncState) (file : String) :
    Effect ChaosWorkFlow :=
  (fileChange env config s file).effect env config s.workflows.docs

def fileFlags (env : SyncEnv) (config : GitConfig) (s : SyncState) (file : String) : Bool :=
  (fileChange env config s file).flags env s.workflows.docs file

section AllFiles

variable {env : SyncEnv} {config : GitConfig} {s : SyncState}

/-- The three shapes an effect has. -/
theorem fileEffect_cases (env : SyncEnv) (config : GitConfig) (s : SyncState) (file : String) :
    fileEffect env config s file = .keep ∨
      (∃ doc, fileEffect env config s file = .add doc ∧ doc.workflowID = env.uuid file) ∨
      ∃ target ∈ s.workflows.docs, ∃ change,
        fileEffect env config s file = .edit (·.workflowID) target.workflowID change ∧
        (∀ doc, (change doc).workflowID = doc.workflowID) ∧
        target.workflowName ∈ (fileChange env config s file).names ∧
        ((fileChange env config s file).isDelete = true → change = setRemoved gitUsername) := by
  unfold fileEffect
  cases hchange : fileChange env config s file with
  | ignored => exact Or.inl rfl
  | delete found =>
      rw [FileChange.effect]
      split
      · exact Or.inl rfl
      · rename_i target hfind
        have hquery := List.find?_some hfind
        simp only [deleteQuery, Bool.and_eq_true, decide_eq_true_eq] at hquery
        exact Or.inr (Or.inr ⟨target, List.mem_of_find?_eq_some hfind, _, rfl, fun _ => rfl,
          by simp [FileChange.names, hquery.1], fun _ => rfl⟩)
  | create doc =>
      rw [FileChange.effect]
      split
      · exact Or.inl rfl
      · exact Or.inr (Or.inl ⟨doc, rfl, (fileChange_create hchange).1⟩)
  | update workflow input wfType =>
      rw [FileChange.effect]
      split
      · exact Or.inl rfl
      · exact Or.inr (Or.inr ⟨workflow, (fileChange_update hchange).1, _, rfl, fun _ => rfl,
          by simp [FileChange.names], by simp [FileChange.isDelete]⟩)

theorem fileEffect_commutes {file other : String}
    (hseparate : (fileChange env config s file).Separate (fileChange env config s other))
    (hfresh : ∀ doc ∈ s.workflows.docs,
      doc.workflowID ≠ env.uuid file ∧ doc.workflowID ≠ env.uuid other) :
    (fileEffect env config s file).Commutes (fileEffect env config s other) := by
  rcases fileEffect_cases env config s file with
    hkeep | ⟨doc, hadd, hid⟩ | ⟨target, htarget, change, hedit, hkey, hname, hremove⟩
  · rw [hkeep]
    exact Effect.commutes_keep _
  · rcases fileEffect_cases env config s other with
      hkeep' | ⟨doc', hadd', -⟩ | ⟨target', htarget', change', hedit', -, -, -⟩
    · rw [hkeep']
      exact (Effect.commutes_keep _).symm
    · rw [hadd, hadd']
      exact Effect.commutes_add_add doc doc'
    · rw [hadd, hedit']
      exact Effect.commutes_add_edit fun heq => (hfresh target' htarget').1 (heq.symm.trans hid)
  · rcases fileEffect_cases env config s other with
      hkeep' | ⟨doc', hadd', hid'⟩ | ⟨target', htarget', change', hedit', hkey', hname', hremove'⟩
    · rw [hkeep']
      exact (Effect.commutes_keep _).symm
    · rw [hedit, hadd']
      exact (Effect.commutes_add_edit fun heq =>
        (hfresh target htarget).2 (heq.symm.trans hid')).symm
    · rw [hedit, hedit']
      refine Effect.commutes_edit ?_ hkey hkey'
      rcases hseparate with ⟨hdelete, hdelete'⟩ | hnames
      · exact Or.inr ((hremove hdelete).trans (hremove' hdelete').symm)
      · -- one workflow with two changes would share its name with both
        refine Or.inl fun heq => hnames _ hname ?_
        rwa [s.workflows.workflowID_injective htarget htarget' heq]

theorem rest_stable {s' : SyncState} {file : String} {rest : List String}
    (hnodup : (file :: rest).Nodup)
    (hdocs : s'.workflows.docs = (fileEffect env config s file).run s.workflows.docs)
    (htree : ∀ other, other ≠ file → s'.worktree other = s.worktree other)
    (hapart : Apart env config s (file :: rest)) (hfresh : FreshIDs env s (file :: rest)) :
    (∀ other ∈ rest, fileEffect env config s' other = fileEffect env config s other ∧
        fileFlags env config s' other = fileFlags env config s other) ∧
      Apart env config s' rest ∧ FreshIDs env s' rest := by
  have hne : ∀ other ∈ rest, other ≠ file := fun other hother heq =>
    (List.nodup_cons.mp hnodup).1 (heq ▸ hother)
  have hmem : ∀ other ∈ rest, other ∈ file :: rest := fun _ hother => List.mem_cons_of_mem _ hother
  have hself : file ∈ file :: rest := List.mem_cons_self
  have hseparate : ∀ other ∈ rest,
      (fileChange env config s other).Separate (fileChange env config s file) :=
    fun other hother => hapart other (hmem other hother) file hself (hne other hother)
  have hstored' : ∀ doc ∈ s'.workflows.docs, ∀ other ∈ rest, doc.workflowID ≠ env.uuid other := by
    intro doc hdoc other hother
    rw [hdocs] at hdoc
    rcases evolves_of_mem_effect hdoc with huuid | ⟨before, hbefore, hevolves⟩
    · rw [huuid]
      exact hfresh.injective file hself other (hmem other hother) (hne other hother).symm
    · rw [hevolves.workflowID]
      exact hfresh.stored before hbefore other (hmem other hother)
  have hchange : ∀ other ∈ rest, fileChange env config s' other = fileChange env config s other :=
    fun other hother => fileChange_stable hdocs (hseparate other hother)
      (htree other (hne other hother)) fun content data hcontent hdata =>
        hfresh.labelled other (hmem other hother) content data hcontent hdata file hself
  refine ⟨fun other hother => ?_, fun other hother other' hother' hdiff => ?_, ?_, hstored', ?_⟩
  · rw [fileEffect, fileFlags, hchange other hother]
    exact effect_stable hdocs (hseparate other hother)
      (fun found hfound => hfresh.stored found hfound other (hmem other hother))
      fun found hfound => hstored' found hfound other hother
  · rw [hchange other hother, hchange other' hother']
    exact hapart other (hmem other hother) other' (hmem other' hother') hdiff
  · exact fun other hother other' hother' hdiff =>
      hfresh.injective other (hmem other hother) other' (hmem other' hother') hdiff
  · intro other hother content data hcontent hdata other' hother'
    rw [htree other (hne other hother)] at hcontent
    exact hfresh.labelled other (hmem other hother) content data hcontent hdata other'
      (hmem other' hother')

theorem syncFiles_cons (config : GitConfig) (s : SyncState) {file : String} (rest : List String)
    (hstat : (env.faults file).stat = false) :
    ∃ s', syncFiles env config (file :: rest) s = syncFiles env config rest s' ∧
      s'.workflows.docs = (fileEffect env config s file).run s.workflows.docs ∧
      s'.newWorkflows = (s.newWorkflows || fileFlags env config s file) ∧
      ∀ other, other ≠ file → s'.worktree other = s.worktree other := by
  cases hyaml : hasSuffix file ".yaml" with
  | false =>
      have hignored : fileChange env config s file = .ignored := by simp [fileChange, hyaml]
      refine ⟨s, by simp [syncFiles, hyaml], ?_, ?_, fun _ _ => rfl⟩
      · simp [fileEffect, hignored, FileChange.effect]
      · simp [fileFlags, hignored, FileChange.flags]
  | true =>
      obtain ⟨hdocs, hnew, htree⟩ := syncFile_eq env config s hyaml
      exact ⟨_, by simp [syncFiles, hyaml, hstat], hdocs, hnew, htree⟩

/-- The loop over files that keep apart: every file has the effect it has on the collection the
loop starts with. -/
theorem syncFiles_eq {files : List String} (hnodup : files.Nodup)
    (hstat : ∀ file ∈ files, (env.faults file).stat = false)
    (hapart : Apart env config s files) (hfresh : FreshIDs env s files) :
    (syncFiles env config files s).1 = .ok () ∧
      (syncFiles env config files s).2.workflows.docs =
        files.foldl (fun docs file => (fileEffect env config s file).run docs) s.workflows.docs ∧
      (syncFiles env config files s).2.newWorkflows =
        (s.newWorkflows || files.any (fileFlags env config s)) := by
  induction files generalizing s with
  | nil => simp [syncFiles]
  | cons file rest ih =>
      obtain ⟨s', hnext, hdocs, hnew, htree⟩ := syncFiles_cons config s rest
        (hstat file List.mem_cons_self)
      obtain ⟨hrest, hapart', hfresh'⟩ := rest_stable hnodup hdocs htree hapart hfresh
      obtain ⟨hok, hdocs', hnew'⟩ := ih (List.nodup_cons.mp hnodup).2
        (fun other hother => hstat other (List.mem_cons_of_mem _ hother)) hapart' hfresh'
      rw [hnext]
      refine ⟨hok, ?_, ?_⟩
      · rw [hdocs', hdocs, List.foldl_cons]
        exact List.foldl_ext _ _ _ fun docs other hother => by rw [(hrest other hother).1]
      · rw [hnew', hnew, List.any_cons, Bool.or_assoc]
        congr 2
        rw [Bool.eq_iff_iff, List.any_eq_true, List.any_eq_true]
        refine exists_congr fun other => and_congr_right fun hother => ?_
        rw [(hrest other hother).2]

end AllFiles

/-! ### The sync -/

/-- The same documents, in whatever order they were inserted, and the same git configurations. -/
def SameDatabase (state state' : GitOpsState) : Prop :=
  state.workflows.docs.Perm state'.workflows.docs ∧ state.configs = state'.configs

/-- For every state, and so for every set of changed files, the order in which the map of changes is
ranged over does not show in the database. -/
def SyncOrderIndependent : Prop :=
  ∀ (env : SyncEnv) (steps : SyncSteps) (config : GitConfig) (state : GitOpsState)
    (first second : RangeOrder),
    FreshIDs env (loopStart steps config state) (changedFiles steps config state.git) →
    SameDatabase (syncDBToGit env steps first.order config state).2
      (syncDBToGit env steps second.order config state).2

theorem getChangesOf_ok {steps : SyncSteps} {config : GitConfig} {git : GitState} {clone : Clone}
    {latestCommit : String} {files : Visited}
    (h : getChangesOf steps config git = .ok (clone, latestCommit, files)) :
    git.disk config.localPath = some clone ∧
      getChanges steps.getChanges config clone.commits = .ok (latestCommit, files) := by
  unfold getChangesOf at h
  split at h
  · cases h
  · rename_i hdisk
    split at h
    · cases h
    · rename_i hchanges
      cases h
      exact ⟨hdisk, hchanges⟩

/-- What git reports of the created workflows does not depend on the files of the clone. -/
theorem pushNewWorkflows_result (steps : SyncSteps) (config : GitConfig) (newWorkflows : Bool)
    (git : GitState) (clone : Clone) (left right : Tree) :
    (pushNewWorkflows steps config newWorkflows
        (git.setClone config.localPath (some { clone with worktree := left }))).1 =
      (pushNewWorkflows steps config newWorkflows
        (git.setClone config.localPath (some { clone with worktree := right }))).1 := by
  unfold pushNewWorkflows gitCommit
  simp only [GitState.disk_setClone_self]
  split
  · cases steps.commit with
    | none => rfl
    | some commit =>
        simp only [gitPush, isAhead, GitState.disk_setClone_self, GitState.remotes_setClone,
          List.map_cons]
        split_ifs <;> rfl
  · rfl

theorem finishSync_sameDatabase (steps : SyncSteps) (config : GitConfig) (latestCommit : String)
    {left right : GitOpsState} {newLeft newRight : Bool} (hsame : SameDatabase left right)
    (hpush : (pushNewWorkflows steps config newLeft left.git).1 =
      (pushNewWorkflows steps config newRight right.git).1) :
    SameDatabase (finishSync steps config latestCommit left newLeft).2
      (finishSync steps config latestCommit right newRight).2 := by
  obtain ⟨hdocs, hconfigs⟩ := hsame
  unfold finishSync
  rw [hconfigs]
  generalize pushNewWorkflows steps config newLeft left.git = pushedLeft at hpush ⊢
  generalize pushNewWorkflows steps config newRight right.git = pushedRight at hpush ⊢
  obtain ⟨result, gitLeft⟩ := pushedLeft
  obtain ⟨result', gitRight⟩ := pushedRight
  obtain rfl : result = result' := hpush
  cases result with
  | error err => exact ⟨hdocs, rfl⟩
  | ok commit => exact ⟨hdocs, rfl⟩

theorem syncFiles_perm {env : SyncEnv} {config : GitConfig} {s : SyncState}
    {files order order' : List String} (hnodup : files.Nodup) (horder : order.Perm files)
    (horder' : order'.Perm files) (hstat : ∀ file ∈ files, (env.faults file).stat = false)
    (hapart : Apart env config s files) (hfresh : FreshIDs env s files) :
    ∃ t t', syncFiles env config order s = (.ok (), t) ∧
      syncFiles env config order' s = (.ok (), t') ∧
      t.workflows.docs.Perm t'.workflows.docs ∧ t.newWorkflows = t'.newWorkflows := by
  have hrun : ∀ order, order.Perm files → (syncFiles env config order s).1 = .ok () ∧
      (syncFiles env config order s).2.workflows.docs =
        order.foldl (fun docs file => (fileEffect env config s file).run docs) s.workflows.docs ∧
      (syncFiles env config order s).2.newWorkflows =
        (s.newWorkflows || order.any (fileFlags env config s)) := by
    intro order horder
    have hmem : ∀ file ∈ order, file ∈ files := fun file hfile => horder.mem_iff.mp hfile
    refine syncFiles_eq (horder.nodup_iff.mpr hnodup) (fun file hfile => hstat file (hmem file hfile))
      (fun file hfile other hother => hapart file (hmem file hfile) other (hmem other hother)) ?_
    exact ⟨fun file hfile other hother => hfresh.injective file (hmem file hfile) other
        (hmem other hother),
      fun doc hdoc file hfile => hfresh.stored doc hdoc file (hmem file hfile),
      fun other hother content data hcontent hdata file hfile =>
        hfresh.labelled other (hmem other hother) content data hcontent hdata file
          (hmem file hfile)⟩
  obtain ⟨hok, hdocs, hnew⟩ := hrun order horder
  obtain ⟨hok', hdocs', hnew'⟩ := hrun order' horder'
  have hperm : order.Perm order' := horder.trans horder'.symm
  refine ⟨_, _, Prod.ext hok rfl, Prod.ext hok' rfl, ?_, ?_⟩
  · rw [hdocs, hdocs']
    refine Effect.foldl_run_perm hperm (fun file hfile other hother hne => ?_) _
    have hfile' := horder.mem_iff.mp hfile
    have hother' := horder.mem_iff.mp hother
    exact fileEffect_commutes (hapart file hfile' other hother' hne) fun doc hdoc =>
      ⟨hfresh.stored doc hdoc file hfile', hfresh.stored doc hdoc other hother'⟩
  · rw [hnew, hnew', hperm.any_eq]

/-- Where no `PathExists` fails and every two changed files keep apart, the database after the sync
does not depend on the order. -/
theorem syncDBToGit_order_independent (env : SyncEnv) (steps : SyncSteps) (config : GitConfig)
    (state : GitOpsState) (first second : RangeOrder)
    (hfresh : FreshIDs env (loopStart steps config state) (changedFiles steps config state.git))
    (hstat : ∀ file ∈ changedFiles steps config state.git, (env.faults file).stat = false)
    (hapart : Apart env config (loopStart steps config state)
      (changedFiles steps config state.git)) :
    SameDatabase (syncDBToGit env steps first.order config state).2
      (syncDBToGit env steps second.order config state).2 := by
  unfold syncDBToGit changedFiles loopStart at *
  generalize prepareClone steps config state.git = prepared at *
  obtain ⟨result, git⟩ := prepared
  cases result with
  | error err => exact ⟨List.Perm.refl _, rfl⟩
  | ok _ =>
      cases hchanges : getChangesOf steps config git with
      | error err =>
          simp only [hchanges]
          exact ⟨List.Perm.refl _, rfl⟩
      | ok changes =>
          obtain ⟨clone, latestCommit, files⟩ := changes
          obtain ⟨hdisk, -⟩ := getChangesOf_ok hchanges
          simp only [hchanges, hdisk] at hfresh hstat hapart ⊢
          split
          · exact ⟨List.Perm.refl _, rfl⟩
          · obtain ⟨t, t', hrun, hrun', hdocs, hnew⟩ := syncFiles_perm files.keys_nodup
              (first.perm files.keys) (second.perm files.keys) hstat hapart hfresh
            rw [hrun, hrun']
            apply finishSync_sameDatabase steps config latestCommit
            · exact ⟨hdocs, rfl⟩
            · rw [hnew]
              exact pushNewWorkflows_result steps config t'.newWorkflows git clone _ _

/-! ### A renamed file -/

instance (left right : FileChange) : Decidable (left.Separate right) :=
  inferInstanceAs (Decidable (_ ∨ _))

/-- The file of the sample workflow is removed, and one named `pod-kill.yaml` is added. -/
def renameCommits (content : String) : List Commit :=
  [⟨"c3", ["litmus/project-1/pod-kill.yaml"],
      treeOf [("litmus/project-1/.info", "1"), ("litmus/project-1/pod-kill.yaml", content)]⟩,
    ⟨"c2", ["litmus/project-1/pod-delete.yaml"], treeOf [("litmus/project-1/.info", "1")]⟩,
    ⟨"c1", ["litmus/project-1/.info", "litmus/project-1/pod-delete.yaml"],
      treeOf [("litmus/project-1/.info", "1"), ("litmus/project-1/pod-delete.yaml", "manifest")]⟩]

theorem changesRecorded_renameCommits (content : String) :
    ChangesRecorded (renameCommits content) := by
  refine ⟨fun path => ?_, fun path => ?_, fun path => ?_, trivial⟩
  all_goals
    simp only [treeOf, headTree, List.find?_cons]
    grind

def renameHistory (content : String) : History where
  commits := renameCommits content
  hashes := by simp [renameCommits]
  hash_ne := by simp [renameCommits]
  recorded := changesRecorded_renameCommits content

def renameConfig : GitConfig := { sampleConfig with latestCommit := "c1" }

def renamedFiles : List String :=
  ["litmus/project-1/pod-delete.yaml", "litmus/project-1/pod-kill.yaml"]

theorem freshIDs_rename {s : SyncState} {files : List String}
    (hdocs : s.workflows.docs = [sampleWorkflow]) (hfiles : files = renamedFiles) :
    FreshIDs sampleSyncEnv s files := by
  subst hfiles
  have hlabel : ∀ data,
      labelOf sampleSyncEnv data = "workflow-1" ∨ labelOf sampleSyncEnv data = "" := by
    intro data
    by_cases hdata : data = "labelled" <;> simp [labelOf, sampleSyncEnv, sampleCodec, hdata]
  refine ⟨by decide, ?_, fun other _ text data _ _ file hfile => ?_⟩
  · rw [hdocs]
    decide
  · revert file
    rcases hlabel data with hlabel | hlabel <;> rw [hlabel] <;> decide

def renameState (content : String) : GitOpsState :=
  sampleState "c1" (renameHistory content).commits

/-- The sample workflow's file is renamed, its label kept. If the new path comes first, the workflow
is renamed and the deletion finds nothing; otherwise it is removed and the update finds nothing. -/
theorem not_syncOrderIndependent : ¬ SyncOrderIndependent := by
  intro hclaim
  have hsame := (hclaim sampleSyncEnv sampleSteps renameConfig (renameState "labelled") keysInOrder
    keysReversed (freshIDs_rename rfl (by decide))).1.map (·.isRemoved)
  exact absurd hsame (by decide)

theorem syncDBToGit_order_independent_delete_create :
    SameDatabase
      (syncDBToGit sampleSyncEnv sampleSteps keysInOrder.order renameConfig (renameState "new")).2
      (syncDBToGit sampleSyncEnv sampleSteps keysReversed.order renameConfig
        (renameState "new")).2 :=
  syncDBToGit_order_independent sampleSyncEnv sampleSteps renameConfig (renameState "new")
    keysInOrder keysReversed (freshIDs_rename rfl (by decide)) (by decide)
    (by unfold Apart; decide)

end LitmusPortal
