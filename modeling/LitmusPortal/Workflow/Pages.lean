import LitmusPortal.Workflow.Matching

/-!
# The pages of a listing

Every page is an aggregation of its own, and its sort may leave equal keys in any order. What a page shows is read
without the field that points to the loop's variable.
-/

namespace LitmusPortal.Listing

open GoStrings Paging

/-! ### Orders -/

theorem isOrder_sortBy {α : Type} (descending : Bool) (key : α → String) : IsOrder (sortBy descending key) := by
  cases descending with
  | false =>
      refine ⟨fun x y => ?_, fun x y z hxy hyz => ?_⟩
      · simpa [sortBy] using le_total (key x) (key y)
      · simp only [sortBy, Bool.false_eq_true, if_false, decide_eq_true_eq] at hxy hyz ⊢
        exact hxy.trans hyz
  | true =>
      refine ⟨fun x y => ?_, fun x y z hxy hyz => ?_⟩
      · simpa [sortBy] using le_total (key y) (key x)
      · simp only [sortBy, if_true, decide_eq_true_eq] at hxy hyz ⊢
        exact hyz.trans hxy

theorem isOrder_sortStage {α : Type} (sort : Option WorkflowSortInput) (time name : α → String) :
    IsOrder (sortStage sort time name) := by
  cases sort with
  | none => exact isOrder_sortBy true time
  | some sort =>
      obtain ⟨field, descending⟩ := sort
      cases field with
      | name => exact isOrder_sortBy _ name
      | time => exact isOrder_sortBy _ time

/-- The requested order of runs. -/
def runsInOrder (sort : Option WorkflowSortInput) (x y : WorkflowRun) : Prop :=
  sortStage sort WorkflowRun.lastUpdated WorkflowRun.workflowName x y = true

/-- The requested order of workflows. -/
def workflowsInOrder (sort : Option WorkflowSortInput) : Except GoError Workflow → Except GoError Workflow → Prop
  | .ok x, .ok y => sortStage sort Workflow.updatedAt Workflow.workflowName x y = true
  | _, _ => True

theorem runsInOrder_of_runOrder (sort : Option WorkflowSortInput) (x y : FlattenedWorkflowRun)
    (h : runOrder sort x y = true) : runsInOrder sort (newWorkflowRun none x) (newWorkflowRun none y) := by
  cases sort with
  | none => exact h
  | some sort =>
      obtain ⟨field, descending⟩ := sort
      cases field <;> exact h

theorem workflowsInOrder_of_workflowOrder (clusters : List Cluster) (sort : Option WorkflowSortInput)
    (x y : ChaosWorkFlow) (h : workflowOrder sort x y = true) :
    workflowsInOrder sort (newChaosWorkflow clusters none x) (newChaosWorkflow clusters none y) := by
  rw [newChaosWorkflow, newChaosWorkflow]
  cases getCluster false clusters x.clusterID with
  | error err => trivial
  | ok xCluster =>
      cases getCluster false clusters y.clusterID with
      | error err => trivial
      | ok yCluster =>
          cases sort with
          | none => exact h
          | some sort =>
              obtain ⟨field, descending⟩ := sort
              cases field <;> exact h

/-! ### What is listed -/

def shownRun (run : WorkflowRun) : WorkflowRun := { run with clusterType := none }

def shownWorkflow (workflow : Workflow) : Workflow := { workflow with lastUpdatedBy := none }

def runsPage (mongo : Mongo) (sorted : List FlattenedWorkflowRun → List FlattenedWorkflowRun)
    (workflows : List ChaosWorkFlow) (request : ListWorkflowRunsRequest) (limit p : ℕ) :
    Except GoError (Answer WorkflowRun) :=
  (listWorkflowRuns mongo sorted workflows { request with pagination := some ⟨p, limit⟩ }).map (Answer.map shownRun)

def workflowsPage (mongo : Mongo) (sorted : List ChaosWorkFlow → List ChaosWorkFlow) (clusters : List Cluster)
    (workflows : List ChaosWorkFlow) (request : ListWorkflowsRequest) (limit p : ℕ) :
    Except GoError (Answer (Except GoError Workflow)) :=
  (listWorkflows mongo sorted clusters workflows { request with pagination := some ⟨p, limit⟩ }).map
    (Answer.map fun workflow => .ok (shownWorkflow workflow))

/-- However each page is sorted, the pages together are the matching runs, the texts of the filter read as texts. -/
def RunsComplete (mongo : Mongo) (workflows : List ChaosWorkFlow) (request : ListWorkflowRunsRequest) (limit : ℕ) :
    Prop :=
  ∀ sorts : ℕ → List FlattenedWorkflowRun → List FlattenedWorkflowRun,
    (∀ p rows, Arranges (runOrder request.sort) rows (sorts p rows)) →
      Complete (runsInOrder request.sort)
        ((matchingRuns (literally mongo) workflows request).map (newWorkflowRun none))
        fun p => runsPage mongo (sorts p) workflows request limit p

/-- However each page is sorted, the pages together are the matching workflows, each with its cluster. -/
def WorkflowsComplete (mongo : Mongo) (clusters : List Cluster) (workflows : List ChaosWorkFlow)
    (request : ListWorkflowsRequest) (limit : ℕ) : Prop :=
  ∀ sorts : ℕ → List ChaosWorkFlow → List ChaosWorkFlow,
    (∀ p rows, Arranges (workflowOrder request.sort) rows (sorts p rows)) →
      Complete (workflowsInOrder request.sort)
        ((matchingWorkflows mongo workflows request).map (newChaosWorkflow clusters none))
        fun p => workflowsPage mongo (sorts p) clusters workflows request limit p

/-! ### A page -/

theorem paginate_eq_page {α : Type} {limit : ℕ} (hlimit : 0 < limit) (p : ℕ) (rows : List α) :
    paginate (some ⟨p, limit⟩) rows = some (page limit p rows) := by
  have hskip : ((p : ℤ) * limit).toNat = p * limit := by
    rw [← Int.natCast_mul, Int.toNat_natCast]
  have hrefused : ¬((p : ℤ) * limit < 0 ∨ (limit : ℤ) ≤ 0) := by
    have hnonneg : (0 : ℤ) ≤ p * limit := Int.mul_nonneg (Int.natCast_nonneg p) (Int.natCast_nonneg limit)
    omega
  rw [paginate, if_neg hrefused, hskip, Int.toNat_natCast, page]

theorem headD_countStage {α : Type} (rows : List α) : (countStage rows).headD 0 = rows.length := by
  cases rows <;> rfl

section Runs

variable {mongo : Mongo} {workflows : List ChaosWorkFlow} {request : ListWorkflowRunsRequest} {limit : ℕ}

theorem runsPage_of_accepted (hlimit : 0 < limit) (haccepted : RunsAccepted mongo request)
    (sorted : List FlattenedWorkflowRun → List FlattenedWorkflowRun) (p : ℕ) :
    runsPage mongo sorted workflows request limit p =
      .ok ⟨(matchingRuns mongo workflows request).length,
        (page limit p (sorted (matchingRuns mongo workflows request))).map (newWorkflowRun none)⟩ := by
  have hpipeline : runsPipeline mongo workflows { request with pagination := some ⟨p, limit⟩ } =
      some (matchingRuns mongo workflows request) :=
    (runsPipeline_eq_some_iff mongo workflows _ _).mpr
      ⟨⟨haccepted.runIDs, haccepted.name, haccepted.status, haccepted.dates⟩, rfl⟩
  rw [runsPage, listWorkflowRuns, hpipeline]
  simp only [paginate_eq_page hlimit, headD_countStage, Except.map, Answer.map, List.map_map]
  rfl

theorem accepted_of_runsPage {sorted : List FlattenedWorkflowRun → List FlattenedWorkflowRun} {p : ℕ}
    {answer : Answer WorkflowRun} (h : runsPage mongo sorted workflows request limit p = .ok answer) :
    RunsAccepted mongo request := by
  rw [runsPage, listWorkflowRuns] at h
  cases hpipeline : runsPipeline mongo workflows { request with pagination := some ⟨p, limit⟩ } with
  | none =>
      rw [hpipeline] at h
      cases h
  | some rows =>
      have haccepted := ((runsPipeline_eq_some_iff mongo workflows _ _).mp hpipeline).1
      exact ⟨haccepted.runIDs, haccepted.name, haccepted.status, haccepted.dates⟩

theorem runsComplete_iff (hlimit : 0 < limit) :
    RunsComplete mongo workflows request limit ↔
      RunsAccepted mongo request ∧
        ((matchingRuns (literally mongo) workflows request).map (newWorkflowRun none)).Perm
          ((matchingRuns mongo workflows request).map (newWorkflowRun none)) ∧
        Unsplit (runOrder request.sort) (newWorkflowRun none) limit (matchingRuns mongo workflows request) := by
  have horder : IsOrder (runOrder request.sort) := isOrder_sortStage request.sort _ _
  have hiff : RunsAccepted mongo request → (RunsComplete mongo workflows request limit ↔ _) := fun haccepted => by
    simp only [RunsComplete, runsPage_of_accepted hlimit haccepted]
    exact (forall_sorts_iff horder _).trans (complete_iff horder hlimit (runsInOrder_of_runOrder request.sort)
      fun _ _ => rfl)
  constructor
  · intro hcomplete
    obtain ⟨count, pages, hlisting⟩ := hcomplete (fun _ rows => rows.mergeSort (runOrder request.sort))
      fun _ rows => arranges_mergeSort horder rows
    have haccepted := accepted_of_runsPage (hlisting.answers 0 (Nat.zero_le count))
    exact ⟨haccepted, (hiff haccepted).mp hcomplete⟩
  · rintro ⟨haccepted, hrest⟩
    exact (hiff haccepted).mpr hrest

end Runs

section Workflows

variable {mongo : Mongo} {clusters : List Cluster} {workflows : List ChaosWorkFlow} {request : ListWorkflowsRequest}
  {limit : ℕ}

def ClusterFound (clusters : List Cluster) (workflow : ChaosWorkFlow) : Prop :=
  ∃ cluster ∈ clusters, cluster.clusterID = workflow.clusterID

theorem newChaosWorkflow_of_found {workflow : ChaosWorkFlow} (h : ClusterFound clusters workflow)
    (lastUpdatedBy : Option String) :
    ∃ made, newChaosWorkflow clusters lastUpdatedBy workflow = .ok made := by
  obtain ⟨cluster, hmem, hid⟩ := h
  rw [newChaosWorkflow, getCluster, if_neg Bool.false_ne_true]
  cases hfind : clusters.find? fun cluster => cluster.clusterID = workflow.clusterID with
  | none => exact absurd hid (by simpa using List.find?_eq_none.mp hfind cluster hmem)
  | some found => exact ⟨_, rfl⟩

theorem found_of_newChaosWorkflow {workflow : ChaosWorkFlow} {lastUpdatedBy : Option String} {made : Workflow}
    (h : newChaosWorkflow clusters lastUpdatedBy workflow = .ok made) : ClusterFound clusters workflow := by
  rw [newChaosWorkflow, getCluster, if_neg Bool.false_ne_true] at h
  cases hfind : clusters.find? fun cluster => cluster.clusterID = workflow.clusterID with
  | none =>
      rw [hfind] at h
      cases h
  | some found => exact ⟨found, List.mem_of_find?_eq_some hfind, by simpa using List.find?_some hfind⟩

theorem newChaosWorkflow_shown {workflow : ChaosWorkFlow} {lastUpdatedBy : Option String} {made : Workflow}
    (h : newChaosWorkflow clusters lastUpdatedBy workflow = .ok made) :
    newChaosWorkflow clusters none workflow = .ok (shownWorkflow made) := by
  rw [newChaosWorkflow] at h ⊢
  cases hcluster : getCluster false clusters workflow.clusterID with
  | error err =>
      rw [hcluster] at h
      cases h
  | ok cluster =>
      rw [hcluster] at h
      rw [← Except.ok.inj h]
      rfl

theorem mapM_newChaosWorkflow (lastUpdatedBy : Option String) {scheduled : List ChaosWorkFlow}
    (h : ∀ workflow ∈ scheduled, ClusterFound clusters workflow) :
    ∃ result, scheduled.mapM (newChaosWorkflow clusters lastUpdatedBy) = .ok result ∧
      result.map (fun workflow => .ok (shownWorkflow workflow)) = scheduled.map (newChaosWorkflow clusters none) := by
  induction scheduled with
  | nil => exact ⟨[], rfl, rfl⟩
  | cons workflow scheduled ih =>
      obtain ⟨hhead, htail⟩ := List.forall_mem_cons.mp h
      obtain ⟨made, hmade⟩ := newChaosWorkflow_of_found hhead lastUpdatedBy
      obtain ⟨result, hresult, hshown⟩ := ih htail
      refine ⟨made :: result, ?_, ?_⟩
      · rw [List.mapM_cons, hmade, hresult]
        rfl
      · rw [List.map_cons, List.map_cons, hshown, newChaosWorkflow_shown hmade]

theorem workflowsPage_of_accepted (hlimit : 0 < limit) (haccepted : WorkflowsAccepted mongo request)
    (hfound : ∀ workflow ∈ matchingWorkflows mongo workflows request, ClusterFound clusters workflow)
    {sorted : List ChaosWorkFlow → List ChaosWorkFlow}
    (hsorted : Arranges (workflowOrder request.sort) (matchingWorkflows mongo workflows request)
      (sorted (matchingWorkflows mongo workflows request))) (p : ℕ) :
    workflowsPage mongo sorted clusters workflows request limit p =
      .ok ⟨(matchingWorkflows mongo workflows request).length,
        (page limit p (sorted (matchingWorkflows mongo workflows request))).map (newChaosWorkflow clusters none)⟩ := by
  have hpipeline : workflowsPipeline mongo workflows { request with pagination := some ⟨p, limit⟩ } =
      some (matchingWorkflows mongo workflows request) :=
    (workflowsPipeline_eq_some_iff mongo workflows _ _).mpr ⟨haccepted, rfl⟩
  have hpage : ∀ workflow ∈ page limit p (sorted (matchingWorkflows mongo workflows request)),
      ClusterFound clusters workflow := fun workflow hworkflow =>
    hfound workflow (hsorted.perm.subset ((page_sublist limit p _).subset hworkflow))
  obtain ⟨result, hresult, hshown⟩ := mapM_newChaosWorkflow
    ((page limit p (sorted (matchingWorkflows mongo workflows request))).getLast?.map ChaosWorkFlow.lastUpdatedBy) hpage
  rw [workflowsPage, listWorkflows, hpipeline]
  simp only [paginate_eq_page hlimit, headD_countStage, hresult]
  rw [← hshown]
  rfl

theorem accepted_of_workflowsPage {sorted : List ChaosWorkFlow → List ChaosWorkFlow} {p : ℕ}
    {answer : Answer (Except GoError Workflow)}
    (h : workflowsPage mongo sorted clusters workflows request limit p = .ok answer) :
    WorkflowsAccepted mongo request ∧ ∀ item ∈ answer.items, ∃ made, item = .ok made := by
  rw [workflowsPage] at h
  cases hanswer : listWorkflows mongo sorted clusters workflows { request with pagination := some ⟨p, limit⟩ } with
  | error err =>
      rw [hanswer] at h
      cases h
  | ok plain =>
      constructor
      · rw [listWorkflows] at hanswer
        cases hpipeline : workflowsPipeline mongo workflows { request with pagination := some ⟨p, limit⟩ } with
        | none =>
            rw [hpipeline] at hanswer
            cases hanswer
        | some rows => exact ((workflowsPipeline_eq_some_iff mongo workflows _ _).mp hpipeline).1
      · intro item hitem
        rw [hanswer] at h
        rw [← Except.ok.inj h] at hitem
        obtain ⟨workflow, _, rfl⟩ := List.mem_map.mp hitem
        exact ⟨_, rfl⟩

theorem found_of_complete (hcomplete : WorkflowsComplete mongo clusters workflows request limit) :
    WorkflowsAccepted mongo request ∧
      ∀ workflow ∈ matchingWorkflows mongo workflows request, ClusterFound clusters workflow := by
  obtain ⟨count, pages, hlisting⟩ := hcomplete (fun _ rows => rows.mergeSort (workflowOrder request.sort))
    fun _ rows => arranges_mergeSort (isOrder_sortStage request.sort _ _) rows
  refine ⟨(accepted_of_workflowsPage (hlisting.answers 0 (Nat.zero_le count))).1, fun workflow hworkflow => ?_⟩
  have hitem := hlisting.items.mem_iff.mpr (List.mem_map_of_mem hworkflow)
  obtain ⟨p, hp, hpage⟩ := List.mem_flatMap.mp hitem
  obtain ⟨made, hmade⟩ :=
    (accepted_of_workflowsPage (hlisting.answers p (List.mem_range.mp hp).le)).2 _ hpage
  exact found_of_newChaosWorkflow hmade

theorem workflowsComplete_iff (hlimit : 0 < limit) :
    WorkflowsComplete mongo clusters workflows request limit ↔
      WorkflowsAccepted mongo request ∧
        (∀ workflow ∈ matchingWorkflows mongo workflows request, ClusterFound clusters workflow) ∧
        Unsplit (workflowOrder request.sort) (newChaosWorkflow clusters none) limit
          (matchingWorkflows mongo workflows request) := by
  have horder : IsOrder (workflowOrder request.sort) := isOrder_sortStage request.sort _ _
  have hiff : WorkflowsAccepted mongo request →
      (∀ workflow ∈ matchingWorkflows mongo workflows request, ClusterFound clusters workflow) →
        (WorkflowsComplete mongo clusters workflows request limit ↔
          Unsplit (workflowOrder request.sort) (newChaosWorkflow clusters none) limit
            (matchingWorkflows mongo workflows request)) := by
    intro haccepted hfound
    have hpages : WorkflowsComplete mongo clusters workflows request limit ↔
        ∀ sorts : ℕ → List ChaosWorkFlow → List ChaosWorkFlow, (∀ p rows, Arranges (workflowOrder request.sort) rows (sorts p rows)) →
          Complete (workflowsInOrder request.sort)
            ((matchingWorkflows mongo workflows request).map (newChaosWorkflow clusters none))
            fun p => (.ok ⟨(matchingWorkflows mongo workflows request).length,
              (page limit p (sorts p (matchingWorkflows mongo workflows request))).map
                (newChaosWorkflow clusters none)⟩ : Except GoError (Answer (Except GoError Workflow))) := by
      refine forall_congr' fun sorts => forall_congr' fun hsorts => ?_
      rw [funext fun p => workflowsPage_of_accepted hlimit haccepted hfound (hsorts p _) p]
    rw [hpages]
    refine (forall_sorts_iff horder _).trans ((complete_iff horder hlimit
      (workflowsInOrder_of_workflowOrder clusters request.sort) fun _ _ => rfl).trans ?_)
    exact and_iff_right (List.Perm.refl _)
  constructor
  · intro hcomplete
    obtain ⟨haccepted, hfound⟩ := found_of_complete hcomplete
    exact ⟨haccepted, hfound, (hiff haccepted hfound).mp hcomplete⟩
  · rintro ⟨haccepted, hfound, hunsplit⟩
    exact (hiff haccepted hfound).mpr hunsplit

end Workflows

/-- Both listings lose and repeat nothing exactly if the database accepts the filter, reading some of its texts as paths
selects the same runs, the clusters are there, and no border of two pages lies among rows of one key. -/
theorem listings_complete_iff (mongo : Mongo) (clusters : List Cluster) (workflows : List ChaosWorkFlow)
    (runs : ListWorkflowRunsRequest) (request : ListWorkflowsRequest) {limit : ℕ} (hlimit : 0 < limit) :
    (RunsComplete mongo workflows runs limit ↔
      RunsAccepted mongo runs ∧
        ((matchingRuns (literally mongo) workflows runs).map (newWorkflowRun none)).Perm
          ((matchingRuns mongo workflows runs).map (newWorkflowRun none)) ∧
        Unsplit (runOrder runs.sort) (newWorkflowRun none) limit (matchingRuns mongo workflows runs)) ∧
      (WorkflowsComplete mongo clusters workflows request limit ↔
        WorkflowsAccepted mongo request ∧
          (∀ workflow ∈ matchingWorkflows mongo workflows request, ClusterFound clusters workflow) ∧
          Unsplit (workflowOrder request.sort) (newChaosWorkflow clusters none) limit
            (matchingWorkflows mongo workflows request)) :=
  ⟨runsComplete_iff hlimit, workflowsComplete_iff hlimit⟩

/-! ### Two runs, one to a page -/

/-- No pattern with a meaning of its own. -/
def plainMongo : Mongo := ⟨fun pattern => some fun text => contains text pattern, fun _ => none⟩

def listedRun (workflowRunID lastUpdated : String) : ChaosWorkflowRun where
  workflowRunID := workflowRunID
  lastUpdated := lastUpdated
  phase := "Succeeded"
  resiliencyScore := none
  experimentsPassed := none
  experimentsFailed := none
  experimentsAwaited := none
  experimentsStopped := none
  experimentsNA := none
  totalExperiments := none
  executionData := ""
  completed := true
  isRemoved := some false
  executedBy := "admin"

def listedWorkflow (first second : String) : ChaosWorkFlow :=
  { sampleWorkflow with workflowRuns := [listedRun "run-1" first, listedRun "run-2" second] }

def allRuns : ListWorkflowRunsRequest := ⟨"project-1", [], [], none, none, none⟩

def allWorkflows : ListWorkflowsRequest := ⟨"project-1", [], none, none, none⟩

theorem matchingRuns_listedWorkflow (mongo : Mongo) (first second : String) :
    matchingRuns mongo [listedWorkflow first second] allRuns =
      [flatten (listedWorkflow first second) (listedRun "run-1" first),
        flatten (listedWorkflow first second) (listedRun "run-2" second)] := rfl

theorem listings_complete_iff_runOfEachSecond :
    RunsComplete plainMongo [listedWorkflow "1600000000" "1600000001"] allRuns 1 ∧
      WorkflowsComplete plainMongo [sampleCluster] [listedWorkflow "1600000000" "1600000001"] allWorkflows 1 := by
  obtain ⟨hruns, hworkflows⟩ := listings_complete_iff plainMongo [sampleCluster]
    [listedWorkflow "1600000000" "1600000001"] allRuns allWorkflows Nat.one_pos
  constructor
  · refine hruns.mpr ⟨⟨?_, ?_, ?_, ?_⟩, List.Perm.refl _, ?_⟩
    · exact fun text htext => absurd htext List.not_mem_nil
    · exact fun filter hfilter => by cases hfilter
    · exact fun filter hfilter => by cases hfilter
    · exact fun filter hfilter => by cases hfilter
    · rw [matchingRuns_listedWorkflow]
      apply unsplit_of_pairwise
      exact List.pairwise_pair.mpr (by decide +kernel)
  · refine hworkflows.mpr ⟨fun filter hfilter => (by cases hfilter), ?_, ?_⟩
    · intro workflow hworkflow
      cases List.mem_singleton.mp hworkflow
      exact ⟨sampleCluster, List.mem_singleton_self _, rfl⟩
    · apply unsplit_of_pairwise
      exact List.pairwise_singleton _ _

/-- Two runs of one second: the first page may show one of them, and the second page the same one. -/
theorem not_runsComplete : ¬RunsComplete plainMongo [listedWorkflow "1600000000" "1600000000"] allRuns 1 := by
  intro hcomplete
  obtain ⟨_, _, hunsplit⟩ := (runsComplete_iff Nat.one_pos).mp hcomplete
  rw [matchingRuns_listedWorkflow] at hunsplit
  have hsame := hunsplit _ List.mem_cons_self _ (List.mem_cons_of_mem _ List.mem_cons_self) (by decide +kernel)
    ⟨1, by decide +kernel, by decide +kernel⟩
  exact absurd (congrArg WorkflowRun.workflowRunID hsame) (by decide)

end LitmusPortal.Listing
