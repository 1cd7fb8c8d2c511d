import LitmusPortal.Workflow.Listing

/-!
# What a listing asks for

The runs and workflows that match a request, each condition a predicate of its own, and that the stages leave exactly
these where the database accepts every text of the request.
-/

namespace LitmusPortal.Listing

open GoStrings Paging

theorem some_eq_iff_of {α : Type} {x y : α} {P : Prop} (h : P) : some x = some y ↔ P ∧ y = x :=
  ⟨fun heq => ⟨h, (Option.some.inj heq).symm⟩, fun hand => congrArg some hand.2.symm⟩

theorem none_eq_iff_of {α : Type} {x y : α} {P : Prop} (h : ¬P) : none = some y ↔ P ∧ y = x :=
  ⟨fun heq => (by cases heq), fun hand => absurd hand.1 h⟩

/-! ### Texts in a request -/

/-- A text in the filter of the runs that is a path has to be one the database knows. -/
def Accepts (mongo : Mongo) (text : String) : Prop := hasPrefix text "$" = true → (mongo.fieldPath text).isSome = true

/-- Whether the field of the run compares as asked. -/
def compares (mongo : Mongo) (text : String) (field : ChaosWorkflowRun → String) (holds : Ordering → Bool) :
    RunCondition :=
  fun workflow run =>
    if hasPrefix text "$" then
      ((mongo.fieldPath text).map fun order => holds (order (withoutRuns workflow) run (field run))).getD false
    else holds (compare (field run) text)

/-- The database if it read no text as a path. -/
def literally (mongo : Mongo) : Mongo := { mongo with fieldPath := fun text => some fun _ _ field => compare field text }

theorem accepts_literally (mongo : Mongo) (text : String) : Accepts (literally mongo) text := fun _ => rfl

theorem compares_literally (mongo : Mongo) (text : String) (field : ChaosWorkflowRun → String)
    (holds : Ordering → Bool) (workflow : ChaosWorkFlow) (run : ChaosWorkflowRun) :
    compares (literally mongo) text field holds workflow run = holds (compare (field run) text) := by
  rw [compares]
  split <;> rfl

theorem expression_eq_some_iff (mongo : Mongo) (text : String) (field : ChaosWorkflowRun → String)
    (holds : Ordering → Bool) (condition : RunCondition) :
    expression mongo text field holds = some condition ↔
      Accepts mongo text ∧ condition = compares mongo text field holds := by
  rw [expression]
  split
  · rename_i hpath
    cases hread : mongo.fieldPath text with
    | none => exact none_eq_iff_of fun haccepts => by simpa [hread] using haccepts hpath
    | some order =>
        have hcompares : compares mongo text field holds =
            fun workflow run => holds (order (withoutRuns workflow) run (field run)) := by
          funext workflow run
          rw [compares, if_pos hpath, hread]
          rfl
        rw [hcompares]
        exact some_eq_iff_of fun _ => by simp [hread]
  · rename_i hpath
    have hcompares : compares mongo text field holds = fun _ run => holds (compare (field run) text) := by
      funext workflow run
      rw [compares, if_neg hpath]
    rw [hcompares]
    exact some_eq_iff_of fun htrue => absurd htrue hpath

theorem mapM_expression_eq_some_iff (mongo : Mongo) (field : ChaosWorkflowRun → String) (holds : Ordering → Bool)
    (texts : List String) (conditions : List RunCondition) :
    (texts.mapM fun text => expression mongo text field holds) = some conditions ↔
      (∀ text ∈ texts, Accepts mongo text) ∧
        conditions = texts.map fun text => compares mongo text field holds := by
  induction texts generalizing conditions with
  | nil => exact some_eq_iff_of fun _ hnil => absurd hnil List.not_mem_nil
  | cons text texts ih =>
      rw [List.mapM_cons, List.forall_mem_cons, List.map_cons]
      constructor
      · intro h
        obtain ⟨condition, hcondition, hrest⟩ := Option.bind_eq_some_iff.mp h
        obtain ⟨others, hothers, hresult⟩ := Option.bind_eq_some_iff.mp hrest
        obtain ⟨haccepts, rfl⟩ := (expression_eq_some_iff mongo text field holds condition).mp hcondition
        obtain ⟨hall, rfl⟩ := (ih others).mp hothers
        exact ⟨⟨haccepts, hall⟩, (Option.some.inj hresult).symm⟩
      · rintro ⟨⟨haccepts, hall⟩, rfl⟩
        rw [(expression_eq_some_iff mongo text field holds _).mpr ⟨haccepts, rfl⟩, (ih _).mpr ⟨hall, rfl⟩]
        rfl

/-! ### The predicates -/

def nameMatches (mongo : Mongo) (workflowName : Option String) (workflow : ChaosWorkFlow) : Bool :=
  match given workflowName [""] with
  | none => true
  | some pattern => ((mongo.regex pattern).map fun hit => hit workflow.workflowName).getD false

def clusterMatches (clusterName : Option String) (workflow : ChaosWorkFlow) : Bool :=
  match given clusterName ["All", ""] with
  | none => true
  | some name => workflow.clusterName == name

/-- A live workflow of the project, one of those asked for. -/
def isRequested (projectID : String) (workflowIDs : List (Option String)) (workflow : ChaosWorkFlow) : Bool :=
  workflow.projectID == projectID && (workflowIDs.isEmpty || workflowIDs.contains (some workflow.workflowID)) &&
    workflow.isRemoved == false

def runIDMatches (mongo : Mongo) (workflowRunIDs : List (Option String)) : RunCondition := fun workflow run =>
  workflowRunIDs.isEmpty || workflowRunIDs.reduceOption.any fun text =>
    compares mongo text ChaosWorkflowRun.workflowRunID (· == .eq) workflow run

def statusMatches (mongo : Mongo) (workflowStatus : Option String) : RunCondition := fun workflow run =>
  match given workflowStatus ["All", ""] with
  | none => true
  | some status => compares mongo status ChaosWorkflowRun.phase (· == .eq) workflow run

def dateMatches (mongo : Mongo) (dateRange : Option DateRange) : RunCondition := fun workflow run =>
  match dateRange with
  | none => true
  | some range =>
      compares mongo (range.endDate.getD now) ChaosWorkflowRun.lastUpdated (· != .gt) workflow run &&
        compares mongo range.startDate ChaosWorkflowRun.lastUpdated (· != .lt) workflow run

def workflowMatchesRuns (mongo : Mongo) (request : ListWorkflowRunsRequest) (workflow : ChaosWorkFlow) : Bool :=
  isRequested request.projectID request.workflowIDs workflow &&
    request.filter.all fun filter =>
      nameMatches mongo filter.workflowName workflow && clusterMatches filter.clusterName workflow

def runMatches (mongo : Mongo) (request : ListWorkflowRunsRequest) : RunCondition := fun workflow run =>
  run.isRemoved == some false && runIDMatches mongo request.workflowRunIDs workflow run &&
    request.filter.all fun filter =>
      statusMatches mongo filter.workflowStatus workflow run && dateMatches mongo filter.dateRange workflow run

/-- The matching runs that are not removed, each with its live workflow. -/
def matchingRuns (mongo : Mongo) (workflows : List ChaosWorkFlow) (request : ListWorkflowRunsRequest) :
    List FlattenedWorkflowRun :=
  (workflows.filter (workflowMatchesRuns mongo request)).flatMap fun workflow =>
    (workflow.workflowRuns.filter (runMatches mongo request workflow)).map (flatten workflow)

def workflowMatches (mongo : Mongo) (request : ListWorkflowsRequest) (workflow : ChaosWorkFlow) : Bool :=
  isRequested request.projectID request.workflowIDs workflow &&
    request.filter.all fun filter =>
      nameMatches mongo filter.workflowName workflow && clusterMatches filter.clusterName workflow

def matchingWorkflows (mongo : Mongo) (workflows : List ChaosWorkFlow) (request : ListWorkflowsRequest) :
    List ChaosWorkFlow :=
  (workflows.filter (workflowMatches mongo request)).map withoutRuns

/-! ### What the database accepts -/

def NameAccepted (mongo : Mongo) (workflowName : Option String) : Prop :=
  ∀ pattern, given workflowName [""] = some pattern → (mongo.regex pattern).isSome = true

def RunIDsAccepted (mongo : Mongo) (workflowRunIDs : List (Option String)) : Prop :=
  ∀ text ∈ workflowRunIDs.reduceOption, Accepts mongo text

def StatusAccepted (mongo : Mongo) (workflowStatus : Option String) : Prop :=
  ∀ status, given workflowStatus ["All", ""] = some status → Accepts mongo status

def DatesAccepted (mongo : Mongo) (dateRange : Option DateRange) : Prop :=
  ∀ range, dateRange = some range → Accepts mongo (range.endDate.getD now) ∧ Accepts mongo range.startDate

/-- The regular expression is one, and so is every path. -/
structure RunsAccepted (mongo : Mongo) (request : ListWorkflowRunsRequest) : Prop where
  runIDs : RunIDsAccepted mongo request.workflowRunIDs
  name : ∀ filter, request.filter = some filter → NameAccepted mongo filter.workflowName
  status : ∀ filter, request.filter = some filter → StatusAccepted mongo filter.workflowStatus
  dates : ∀ filter, request.filter = some filter → DatesAccepted mongo filter.dateRange

def WorkflowsAccepted (mongo : Mongo) (request : ListWorkflowsRequest) : Prop :=
  ∀ filter, request.filter = some filter → NameAccepted mongo filter.workflowName

/-! ### Each stage -/

theorem matchIDs_eq (workflowIDs : List (Option String)) (workflows : List ChaosWorkFlow) :
    matchIDs workflowIDs workflows = workflows.filter fun workflow =>
      workflowIDs.isEmpty || workflowIDs.contains (some workflow.workflowID) := by
  cases workflowIDs with
  | nil => simp [matchIDs]
  | cons id ids => simp [matchIDs]

theorem requested_eq (projectID : String) (workflowIDs : List (Option String)) (workflows : List ChaosWorkFlow) :
    (matchIDs workflowIDs (workflows.filter fun workflow => workflow.projectID == projectID)).filter
        (fun workflow => workflow.isRemoved == false) =
      workflows.filter (isRequested projectID workflowIDs) := by
  rw [matchIDs_eq, List.filter_filter, List.filter_filter]
  refine List.filter_congr fun workflow _ => ?_
  cases h : workflow.isRemoved <;> simp [isRequested, h, Bool.and_comm]

theorem matchName_eq_some_iff (mongo : Mongo) (workflowName : Option String)
    (workflows remaining : List ChaosWorkFlow) :
    matchName mongo workflowName workflows = some remaining ↔
      NameAccepted mongo workflowName ∧ remaining = workflows.filter (nameMatches mongo workflowName) := by
  rw [matchName]
  unfold nameMatches
  cases hgiven : given workflowName [""] with
  | none =>
      rw [List.filter_true]
      exact some_eq_iff_of fun pattern hpattern => by simp [hgiven] at hpattern
  | some pattern =>
      cases hregex : mongo.regex pattern with
      | none =>
          simp only [hregex, Option.map_none]
          refine none_eq_iff_of fun haccepted => ?_
          simpa [hregex] using haccepted pattern hgiven
      | some hit =>
          simp only [hregex, Option.map_some, Option.getD_some]
          refine some_eq_iff_of fun other hother => ?_
          cases Option.some.inj (hgiven.symm.trans hother)
          simp [hregex]

theorem matchCluster_eq (clusterName : Option String) (workflows : List ChaosWorkFlow) :
    matchCluster clusterName workflows = workflows.filter (clusterMatches clusterName) := by
  rw [matchCluster]
  unfold clusterMatches
  cases given clusterName ["All", ""] with
  | none => simp
  | some name => rfl

theorem runIDCondition_eq_some_iff (mongo : Mongo) (workflowRunIDs : List (Option String)) (condition : RunCondition) :
    runIDCondition mongo workflowRunIDs = some condition ↔
      RunIDsAccepted mongo workflowRunIDs ∧ condition = runIDMatches mongo workflowRunIDs := by
  cases workflowRunIDs with
  | nil => exact some_eq_iff_of fun text htext => absurd htext List.not_mem_nil
  | cons id ids =>
      rw [runIDCondition, if_pos (List.length_pos_of_mem List.mem_cons_self).ne', anyOf, RunIDsAccepted]
      have hmatches : runIDMatches mongo (id :: ids) = fun workflow run =>
          ((id :: ids).reduceOption.map fun text =>
            compares mongo text ChaosWorkflowRun.workflowRunID (· == .eq)).any fun condition =>
              condition workflow run := by
        funext workflow run
        rw [runIDMatches, List.any_map]
        rfl
      constructor
      · intro h
        obtain ⟨conditions, hconditions, hresult⟩ := Option.bind_eq_some_iff.mp h
        obtain ⟨haccepts, rfl⟩ := (mapM_expression_eq_some_iff mongo _ _ _ conditions).mp hconditions
        exact ⟨haccepts, hmatches ▸ (Option.some.inj hresult).symm⟩
      · rintro ⟨haccepts, rfl⟩
        rw [(mapM_expression_eq_some_iff mongo _ _ _ _).mpr ⟨haccepts, rfl⟩, hmatches]
        rfl

theorem statusCondition_eq_some_iff (mongo : Mongo) (workflowStatus : Option String) (condition : RunCondition) :
    statusCondition mongo workflowStatus = some condition ↔
      StatusAccepted mongo workflowStatus ∧ condition = statusMatches mongo workflowStatus := by
  rw [statusCondition, StatusAccepted]
  unfold statusMatches
  cases given workflowStatus ["All", ""] with
  | none => exact some_eq_iff_of fun status hstatus => by cases hstatus
  | some status => simpa using expression_eq_some_iff mongo status _ _ condition

theorem dateCondition_eq_some_iff (mongo : Mongo) (dateRange : Option DateRange) (condition : RunCondition) :
    dateCondition mongo dateRange = some condition ↔
      DatesAccepted mongo dateRange ∧ condition = dateMatches mongo dateRange := by
  rw [DatesAccepted]
  unfold dateMatches
  cases dateRange with
  | none => exact some_eq_iff_of fun range hrange => by cases hrange
  | some range =>
      rw [dateCondition]
      constructor
      · intro h
        obtain ⟨upper, hupper, hrest⟩ := Option.bind_eq_some_iff.mp h
        obtain ⟨lower, hlower, hresult⟩ := Option.bind_eq_some_iff.mp hrest
        obtain ⟨hend, rfl⟩ := (expression_eq_some_iff mongo _ _ _ upper).mp hupper
        obtain ⟨hstart, rfl⟩ := (expression_eq_some_iff mongo _ _ _ lower).mp hlower
        refine ⟨fun other hother => ?_, (Option.some.inj hresult).symm⟩
        cases Option.some.inj hother
        exact ⟨hend, hstart⟩
      · rintro ⟨haccepts, rfl⟩
        obtain ⟨hend, hstart⟩ := haccepts range rfl
        rw [(expression_eq_some_iff mongo _ _ _ _).mpr ⟨hend, rfl⟩,
          (expression_eq_some_iff mongo _ _ _ _).mpr ⟨hstart, rfl⟩]
        rfl

/-! ### The stages together -/

/-- A condition that sees of the workflow what an expression can tell a text apart from. -/
def SeesNoRuns (condition : RunCondition) : Prop :=
  ∀ workflow runs, condition { workflow with workflowRuns := runs } = condition workflow

theorem seesNoRuns_compares (mongo : Mongo) (text : String) (field : ChaosWorkflowRun → String)
    (holds : Ordering → Bool) : SeesNoRuns (compares mongo text field holds) := fun _ _ => rfl

theorem seesNoRuns_statusMatches (mongo : Mongo) (workflowStatus : Option String) :
    SeesNoRuns (statusMatches mongo workflowStatus) := fun _ _ => rfl

theorem seesNoRuns_dateMatches (mongo : Mongo) (dateRange : Option DateRange) :
    SeesNoRuns (dateMatches mongo dateRange) := fun _ _ => rfl

theorem seesNoRuns_runIDMatches (mongo : Mongo) (workflowRunIDs : List (Option String)) :
    SeesNoRuns (runIDMatches mongo workflowRunIDs) := fun _ _ => rfl

theorem filterRuns_filterRuns {second : RunCondition} (h : SeesNoRuns second) (first : RunCondition)
    (workflows : List ChaosWorkFlow) :
    filterRuns second (filterRuns first workflows) =
      filterRuns (fun workflow run => first workflow run && second workflow run) workflows := by
  rw [filterRuns, filterRuns, filterRuns, List.map_map]
  refine List.map_congr_left fun workflow _ => ?_
  rw [Function.comp_apply, h, List.filter_filter]
  simp only [Bool.and_comm]

/-- A filter of workflows by what is not their runs. -/
theorem filter_filterRuns {q : ChaosWorkFlow → Bool}
    (hq : ∀ workflow runs, q { workflow with workflowRuns := runs } = q workflow) (condition : RunCondition)
    (workflows : List ChaosWorkFlow) :
    (filterRuns condition workflows).filter q = filterRuns condition (workflows.filter q) := by
  rw [filterRuns, filterRuns, List.filter_map]
  congr 1
  exact List.filter_congr fun workflow _ => hq workflow _

theorem unwind_filterRuns (condition : RunCondition) (workflows : List ChaosWorkFlow) :
    unwind (filterRuns condition workflows) = workflows.flatMap fun workflow =>
      (workflow.workflowRuns.filter (condition workflow)).map (flatten workflow) := by
  rw [unwind, filterRuns, List.flatMap_map]
  rfl

theorem runFilterStages_eq_some_iff (mongo : Mongo) (filter : WorkflowRunFilterInput)
    (workflows remaining : List ChaosWorkFlow) :
    runFilterStages mongo (some filter) workflows = some remaining ↔
      (NameAccepted mongo filter.workflowName ∧ StatusAccepted mongo filter.workflowStatus ∧
          DatesAccepted mongo filter.dateRange) ∧
        remaining = filterRuns (dateMatches mongo filter.dateRange) (filterRuns
          (statusMatches mongo filter.workflowStatus) ((workflows.filter (nameMatches mongo filter.workflowName)).filter
            (clusterMatches filter.clusterName))) := by
  rw [runFilterStages]
  constructor
  · intro h
    obtain ⟨named, hnamed, hrest⟩ := Option.bind_eq_some_iff.mp h
    obtain ⟨status, hstatus, hrest⟩ := Option.bind_eq_some_iff.mp hrest
    obtain ⟨dates, hdates, hresult⟩ := Option.bind_eq_some_iff.mp hrest
    obtain ⟨hname, rfl⟩ := (matchName_eq_some_iff mongo _ _ _).mp hnamed
    obtain ⟨hphase, rfl⟩ := (statusCondition_eq_some_iff mongo _ _).mp hstatus
    obtain ⟨hrange, rfl⟩ := (dateCondition_eq_some_iff mongo _ _).mp hdates
    rw [matchCluster_eq] at hresult
    exact ⟨⟨hname, hphase, hrange⟩, (Option.some.inj hresult).symm⟩
  · rintro ⟨⟨hname, hstatus, hdates⟩, rfl⟩
    rw [(matchName_eq_some_iff mongo _ _ _).mpr ⟨hname, rfl⟩, (statusCondition_eq_some_iff mongo _ _).mpr ⟨hstatus, rfl⟩,
      (dateCondition_eq_some_iff mongo _ _).mpr ⟨hdates, rfl⟩, ← matchCluster_eq]
    rfl

theorem runsPipeline_eq_some_iff (mongo : Mongo) (workflows : List ChaosWorkFlow) (request : ListWorkflowRunsRequest)
    (rows : List FlattenedWorkflowRun) :
    runsPipeline mongo workflows request = some rows ↔
      RunsAccepted mongo request ∧ rows = matchingRuns mongo workflows request := by
  rw [runsPipeline]
  simp only [requested_eq]
  cases hfilter : request.filter with
  | none =>
      have hmatching : matchingRuns mongo workflows request = unwind (filterRuns
          (runIDMatches mongo request.workflowRunIDs) (filterRuns (fun _ run => run.isRemoved == some false)
            (workflows.filter (isRequested request.projectID request.workflowIDs)))) := by
        have hworkflow : workflowMatchesRuns mongo request = isRequested request.projectID request.workflowIDs := by
          funext workflow
          rw [workflowMatchesRuns, hfilter, Option.all_none, Bool.and_true]
        rw [filterRuns_filterRuns (seesNoRuns_runIDMatches _ _), unwind_filterRuns, matchingRuns, hworkflow]
        congr 1
        funext workflow
        congr 2
        funext run
        rw [runMatches, hfilter, Option.all_none, Bool.and_true]
      rw [hmatching]
      constructor
      · intro h
        obtain ⟨runIDs, hrunIDs, hrest⟩ := Option.bind_eq_some_iff.mp h
        obtain ⟨haccepted, rfl⟩ := (runIDCondition_eq_some_iff mongo _ _).mp hrunIDs
        refine ⟨⟨haccepted, ?_, ?_, ?_⟩, (Option.some.inj hrest).symm⟩ <;>
          exact fun filter hsome => by cases hfilter.symm.trans hsome
      · rintro ⟨haccepted, rfl⟩
        rw [(runIDCondition_eq_some_iff mongo _ _).mpr ⟨haccepted.runIDs, rfl⟩]
        rfl
  | some filter =>
      have hmatching : matchingRuns mongo workflows request = unwind (filterRuns
          (dateMatches mongo filter.dateRange) (filterRuns (statusMatches mongo filter.workflowStatus)
            (((filterRuns (runIDMatches mongo request.workflowRunIDs)
              (filterRuns (fun _ run => run.isRemoved == some false)
                (workflows.filter (isRequested request.projectID request.workflowIDs)))).filter
                  (nameMatches mongo filter.workflowName)).filter (clusterMatches filter.clusterName)))) := by
        rw [filterRuns_filterRuns (seesNoRuns_runIDMatches _ _), filter_filterRuns fun _ _ => rfl,
          filter_filterRuns fun _ _ => rfl, filterRuns_filterRuns (seesNoRuns_statusMatches _ _),
          filterRuns_filterRuns (seesNoRuns_dateMatches _ _), unwind_filterRuns, List.filter_filter, List.filter_filter,
          matchingRuns]
        congr 1
        · funext workflow
          congr 2
          funext run
          simp only [runMatches, hfilter, Option.all_some, Bool.and_assoc]
        · congr 1
          funext workflow
          simp only [workflowMatchesRuns, hfilter, Option.all_some]
          ac_rfl
      rw [hmatching]
      constructor
      · intro h
        obtain ⟨runIDs, hrunIDs, hrest⟩ := Option.bind_eq_some_iff.mp h
        obtain ⟨haccepted, rfl⟩ := (runIDCondition_eq_some_iff mongo _ _).mp hrunIDs
        obtain ⟨remaining, hremaining, hrest⟩ := Option.bind_eq_some_iff.mp hrest
        obtain ⟨⟨hname, hstatus, hdates⟩, rfl⟩ := (runFilterStages_eq_some_iff mongo _ _ _).mp hremaining
        refine ⟨⟨haccepted, ?_, ?_, ?_⟩, (Option.some.inj hrest).symm⟩ <;>
          intro other hother <;> cases Option.some.inj (hfilter.symm.trans hother) <;> assumption
      · rintro ⟨haccepted, rfl⟩
        rw [(runIDCondition_eq_some_iff mongo _ _).mpr ⟨haccepted.runIDs, rfl⟩]
        refine Option.bind_eq_some_iff.mpr ⟨_, rfl, Option.bind_eq_some_iff.mpr ⟨_, ?_, rfl⟩⟩
        exact (runFilterStages_eq_some_iff mongo _ _ _).mpr
          ⟨⟨haccepted.name filter hfilter, haccepted.status filter hfilter, haccepted.dates filter hfilter⟩, rfl⟩

theorem workflowsPipeline_eq_some_iff (mongo : Mongo) (workflows : List ChaosWorkFlow)
    (request : ListWorkflowsRequest) (rows : List ChaosWorkFlow) :
    workflowsPipeline mongo workflows request = some rows ↔
      WorkflowsAccepted mongo request ∧ rows = matchingWorkflows mongo workflows request := by
  rw [workflowsPipeline]
  simp only [requested_eq]
  cases hfilter : request.filter with
  | none =>
      have hmatching : matchingWorkflows mongo workflows request =
          (workflows.filter (isRequested request.projectID request.workflowIDs)).map withoutRuns := by
        rw [matchingWorkflows]
        congr 2
        funext workflow
        rw [workflowMatches, hfilter, Option.all_none, Bool.and_true]
      rw [hmatching]
      exact some_eq_iff_of fun filter hsome => by cases hfilter.symm.trans hsome
  | some filter =>
      have hmatching : matchingWorkflows mongo workflows request = matchCluster filter.clusterName
          (((workflows.filter (isRequested request.projectID request.workflowIDs)).map withoutRuns).filter
            (nameMatches mongo filter.workflowName)) := by
        have hname : nameMatches mongo filter.workflowName ∘ withoutRuns = nameMatches mongo filter.workflowName := rfl
        have hcluster : clusterMatches filter.clusterName ∘ withoutRuns = clusterMatches filter.clusterName := rfl
        rw [matchCluster_eq, List.filter_map, List.filter_map, hname, hcluster, List.filter_filter, List.filter_filter,
          matchingWorkflows]
        congr 2
        funext workflow
        simp only [workflowMatches, hfilter, Option.all_some]
        ac_rfl
      rw [hmatching, Option.map_eq_some_iff]
      constructor
      · rintro ⟨named, hnamed, rfl⟩
        obtain ⟨hname, rfl⟩ := (matchName_eq_some_iff mongo _ _ _).mp hnamed
        refine ⟨fun other hother => ?_, rfl⟩
        cases Option.some.inj (hfilter.symm.trans hother)
        exact hname
      · rintro ⟨haccepted, rfl⟩
        exact ⟨_, (matchName_eq_some_iff mongo _ _ _).mpr ⟨haccepted filter hfilter, rfl⟩, rfl⟩

end LitmusPortal.Listing
