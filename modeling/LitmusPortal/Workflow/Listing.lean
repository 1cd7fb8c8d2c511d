import LitmusPortal.Lib.GoStrings
import LitmusPortal.Lib.Paging
import LitmusPortal.Workflow.Store
import Mathlib.Data.String.Basic

/-!
# Listing workflows and their runs

`ListWorkflowRuns` and `ListWorkflows` are aggregations: the documents are matched, the runs filtered and unwound, the
rows sorted and cut into a page. In the filter of the runs a text that starts with a dollar sign is not a text but a
path into the document; what such paths and regular expressions mean is `Mongo`'s. What a sort stage delivers is
`arranged`.
-/

namespace LitmusPortal.Listing

open GoStrings Paging

inductive WorkflowSortingField where
  | name
  | time
  deriving DecidableEq, Repr

structure WorkflowSortInput where
  field : WorkflowSortingField
  descending : Option Bool
  deriving DecidableEq, Repr

structure Pagination where
  page : ℤ
  limit : ℤ
  deriving DecidableEq, Repr

structure DateRange where
  startDate : String
  endDate : Option String
  deriving DecidableEq, Repr

structure WorkflowRunFilterInput where
  workflowName : Option String
  clusterName : Option String
  workflowStatus : Option String
  dateRange : Option DateRange
  deriving DecidableEq, Repr

structure ListWorkflowRunsRequest where
  projectID : String
  workflowRunIDs : List (Option String)
  workflowIDs : List (Option String)
  pagination : Option Pagination
  sort : Option WorkflowSortInput
  filter : Option WorkflowRunFilterInput
  deriving DecidableEq, Repr

structure WorkflowFilterInput where
  workflowName : Option String
  clusterName : Option String
  deriving DecidableEq, Repr

structure ListWorkflowsRequest where
  projectID : String
  workflowIDs : List (Option String)
  pagination : Option Pagination
  sort : Option WorkflowSortInput
  filter : Option WorkflowFilterInput
  deriving DecidableEq, Repr

structure FlattenedWorkflowRun where
  workflowID : String
  cronSyntax : String
  workflowName : String
  weightages : List WeightagesInput
  isCustomWorkflow : Bool
  updatedAt : String
  createdAt : String
  projectID : String
  clusterID : String
  clusterName : String
  clusterType : String
  workflowRuns : ChaosWorkflowRun
  isRemoved : Bool
  deriving DecidableEq, Repr

structure WorkflowRun where
  workflowRunID : String
  workflowID : String
  clusterName : String
  weightages : List WeightagesInput
  lastUpdated : String
  projectID : String
  clusterID : String
  workflowName : String
  clusterType : Option String
  phase : String
  resiliencyScore : Option ℚ
  experimentsPassed : Option Int
  experimentsFailed : Option Int
  experimentsAwaited : Option Int
  experimentsStopped : Option Int
  experimentsNa : Option Int
  totalExperiments : Option Int
  executionData : String
  isRemoved : Option Bool
  executedBy : String
  deriving DecidableEq, Repr

structure Workflow where
  workflowID : String
  workflowManifest : String
  cronSyntax : String
  clusterName : String
  workflowName : String
  workflowDescription : String
  weightages : List WeightagesInput
  isCustomWorkflow : Bool
  updatedAt : String
  createdAt : String
  projectID : String
  clusterID : String
  clusterType : String
  isRemoved : Bool
  lastUpdatedBy : Option String
  deriving DecidableEq, Repr

/-! ### What the database makes of a text -/

/-- `none` for a regular expression or a path that is refused. A path is compared with a text in a workflow, of which
the runs are left out, and a run: a path into the runs is an array, which no text is above. -/
structure Mongo where
  regex : String → Option (String → Bool)
  fieldPath : String → Option (ChaosWorkFlow → ChaosWorkflowRun → String → Ordering)

abbrev RunCondition := ChaosWorkFlow → ChaosWorkflowRun → Bool

def withoutRuns (workflow : ChaosWorkFlow) : ChaosWorkFlow := { workflow with workflowRuns := [] }

/-- How a field of the run compares with the value of an expression. -/
def expression (mongo : Mongo) (text : String) (field : ChaosWorkflowRun → String) (holds : Ordering → Bool) :
    Option RunCondition :=
  if hasPrefix text "$" then
    (mongo.fieldPath text).map fun order workflow run => holds (order (withoutRuns workflow) run (field run))
  else some fun _ run => holds (compare (field run) text)

/-- `$in`. A null is no text. -/
def anyOf (mongo : Mongo) (texts : List (Option String)) (field : ChaosWorkflowRun → String) : Option RunCondition := do
  let conditions ← texts.reduceOption.mapM fun text => expression mongo text field (· == .eq)
  return fun workflow run => conditions.any fun condition => condition workflow run

/-! ### Stages -/

def filterRuns (condition : RunCondition) (workflows : List ChaosWorkFlow) : List ChaosWorkFlow :=
  workflows.map fun workflow =>
    { workflow with workflowRuns := workflow.workflowRuns.filter (condition workflow) }

/-- The text of a filter that is set. -/
def given (text : Option String) (unset : List String) : Option String := text.filter fun text => text ∉ unset

def matchIDs (workflowIDs : List (Option String)) (workflows : List ChaosWorkFlow) : List ChaosWorkFlow :=
  if workflowIDs.length ≠ 0 then workflows.filter fun workflow => workflowIDs.contains (some workflow.workflowID)
  else workflows

def matchName (mongo : Mongo) (workflowName : Option String) (workflows : List ChaosWorkFlow) :
    Option (List ChaosWorkFlow) :=
  match given workflowName [""] with
  | none => some workflows
  | some pattern => (mongo.regex pattern).map fun hit => workflows.filter fun workflow => hit workflow.workflowName

def matchCluster (clusterName : Option String) (workflows : List ChaosWorkFlow) : List ChaosWorkFlow :=
  match given clusterName ["All", ""] with
  | none => workflows
  | some name => workflows.filter fun workflow => workflow.clusterName == name

def runIDCondition (mongo : Mongo) (workflowRunIDs : List (Option String)) : Option RunCondition :=
  if workflowRunIDs.length ≠ 0 then anyOf mongo workflowRunIDs ChaosWorkflowRun.workflowRunID
  else some fun _ _ => true

def statusCondition (mongo : Mongo) (workflowStatus : Option String) : Option RunCondition :=
  match given workflowStatus ["All", ""] with
  | none => some fun _ _ => true
  | some status => expression mongo status ChaosWorkflowRun.phase (· == .eq)

/-- `string(time.Now().Unix())` is the character for a number that is none. -/
def now : String := "\uFFFD"

def dateCondition (mongo : Mongo) : Option DateRange → Option RunCondition
  | none => some fun _ _ => true
  | some range => do
      let upper ← expression mongo (range.endDate.getD now) ChaosWorkflowRun.lastUpdated (· != .gt)
      let lower ← expression mongo range.startDate ChaosWorkflowRun.lastUpdated (· != .lt)
      return fun workflow run => upper workflow run && lower workflow run

def runFilterStages (mongo : Mongo) (filter : Option WorkflowRunFilterInput) (workflows : List ChaosWorkFlow) :
    Option (List ChaosWorkFlow) :=
  match filter with
  | none => some workflows
  | some filter => do
      let workflows ← matchName mongo filter.workflowName workflows
      let workflows := matchCluster filter.clusterName workflows
      let status ← statusCondition mongo filter.workflowStatus
      let workflows := filterRuns status workflows
      let dates ← dateCondition mongo filter.dateRange
      return filterRuns dates workflows

def flatten (workflow : ChaosWorkFlow) (run : ChaosWorkflowRun) : FlattenedWorkflowRun :=
  { workflowID := workflow.workflowID
    cronSyntax := workflow.cronSyntax
    workflowName := workflow.workflowName
    weightages := workflow.weightages
    isCustomWorkflow := workflow.isCustomWorkflow
    updatedAt := workflow.updatedAt
    createdAt := workflow.createdAt
    projectID := workflow.projectID
    clusterID := workflow.clusterID
    clusterName := workflow.clusterName
    clusterType := workflow.clusterType
    workflowRuns := run
    isRemoved := workflow.isRemoved }

def unwind (workflows : List ChaosWorkFlow) : List FlattenedWorkflowRun :=
  workflows.flatMap fun workflow => workflow.workflowRuns.map (flatten workflow)

/-- The order of a sort by a text. -/
def sortBy {α : Type} (descending : Bool) (key : α → String) (x y : α) : Bool :=
  if descending then decide (key y ≤ key x) else decide (key x ≤ key y)

def sortStage {α : Type} (sort : Option WorkflowSortInput) (time name : α → String) : α → α → Bool :=
  match sort with
  | some ⟨.time, descending⟩ => sortBy (descending == some true) time
  | some ⟨.name, descending⟩ => sortBy (descending == some true) name
  | none => sortBy true time

/-- `$skip` and `$limit` refuse a negative number and a limit that is not positive. -/
def paginate {α : Type} (pagination : Option Pagination) (rows : List α) : Option (List α) :=
  match pagination with
  | none => some rows
  | some ⟨page, limit⟩ =>
      if page * limit < 0 ∨ limit ≤ 0 then none
      else some ((rows.drop (page * limit).toNat).take limit.toNat)

/-- `$count` puts out nothing where there is nothing to count. -/
def countStage {α : Type} (rows : List α) : List ℕ := if rows.isEmpty then [] else [rows.length]

/-! ### Runs -/

def runsPipeline (mongo : Mongo) (workflows : List ChaosWorkFlow) (request : ListWorkflowRunsRequest) :
    Option (List FlattenedWorkflowRun) := do
  let workflows := workflows.filter fun workflow => workflow.projectID == request.projectID
  let workflows := matchIDs request.workflowIDs workflows
  let workflows := workflows.filter fun workflow => workflow.isRemoved == false
  let workflows := filterRuns (fun _ run => run.isRemoved == some false) workflows
  let runIDs ← runIDCondition mongo request.workflowRunIDs
  let workflows := filterRuns runIDs workflows
  let workflows ← runFilterStages mongo request.filter workflows
  return unwind workflows

/-- `clusterType` is that of the loop's variable, which all runs of a page point to. -/
def newWorkflowRun (clusterType : Option String) (workflow : FlattenedWorkflowRun) : WorkflowRun :=
  let workflowRun := workflow.workflowRuns
  { workflowName := workflow.workflowName
    workflowID := workflow.workflowID
    workflowRunID := workflowRun.workflowRunID
    lastUpdated := workflowRun.lastUpdated
    weightages := workflow.weightages
    projectID := workflow.projectID
    clusterID := workflow.clusterID
    phase := workflowRun.phase
    resiliencyScore := workflowRun.resiliencyScore
    experimentsPassed := workflowRun.experimentsPassed
    experimentsFailed := workflowRun.experimentsFailed
    experimentsAwaited := workflowRun.experimentsAwaited
    experimentsStopped := workflowRun.experimentsStopped
    experimentsNa := workflowRun.experimentsNA
    totalExperiments := workflowRun.totalExperiments
    executionData := workflowRun.executionData
    clusterName := workflow.clusterName
    clusterType := clusterType
    isRemoved := workflowRun.isRemoved
    executedBy := workflowRun.executedBy }

def aggregationError : GoError := .failed "mongo: aggregation failed"

def runOrder (sort : Option WorkflowSortInput) : FlattenedWorkflowRun → FlattenedWorkflowRun → Bool :=
  sortStage sort (fun row => row.workflowRuns.lastUpdated) FlattenedWorkflowRun.workflowName

def listWorkflowRuns (mongo : Mongo) (arranged : List FlattenedWorkflowRun → List FlattenedWorkflowRun)
    (workflows : List ChaosWorkFlow) (request : ListWorkflowRunsRequest) : Except GoError (Answer WorkflowRun) :=
  match runsPipeline mongo workflows request with
  | none => .error aggregationError
  | some rows =>
      match paginate request.pagination (arranged rows) with
      | none => .error aggregationError
      | some flattened =>
          let clusterType := flattened.getLast?.map FlattenedWorkflowRun.clusterType
          .ok ⟨(countStage rows).headD 0, flattened.map (newWorkflowRun clusterType)⟩

/-! ### Workflows -/

def workflowsPipeline (mongo : Mongo) (workflows : List ChaosWorkFlow) (request : ListWorkflowsRequest) :
    Option (List ChaosWorkFlow) :=
  let workflows := workflows.filter fun workflow => workflow.projectID == request.projectID
  let workflows := matchIDs request.workflowIDs workflows
  let workflows := workflows.filter fun workflow => workflow.isRemoved == false
  let workflows := workflows.map withoutRuns
  match request.filter with
  | none => some workflows
  | some filter => (matchName mongo filter.workflowName workflows).map (matchCluster filter.clusterName)

/-- `lastUpdatedBy` is that of the loop's variable, which all workflows of a page point to. -/
def newChaosWorkflow (clusters : List Cluster) (lastUpdatedBy : Option String) (workflow : ChaosWorkFlow) :
    Except GoError Workflow := do
  let cluster ← getCluster false clusters workflow.clusterID
  return {
    workflowID := workflow.workflowID
    workflowManifest := workflow.workflowManifest
    workflowName := workflow.workflowName
    cronSyntax := workflow.cronSyntax
    workflowDescription := workflow.workflowDescription
    weightages := workflow.weightages
    isCustomWorkflow := workflow.isCustomWorkflow
    updatedAt := workflow.updatedAt
    createdAt := workflow.createdAt
    projectID := workflow.projectID
    isRemoved := workflow.isRemoved
    clusterName := cluster.clusterName
    clusterID := cluster.clusterID
    clusterType := cluster.clusterType
    lastUpdatedBy := lastUpdatedBy }

def workflowOrder (sort : Option WorkflowSortInput) : ChaosWorkFlow → ChaosWorkFlow → Bool :=
  sortStage sort ChaosWorkFlow.updatedAt ChaosWorkFlow.workflowName

def listWorkflows (mongo : Mongo) (arranged : List ChaosWorkFlow → List ChaosWorkFlow) (clusters : List Cluster)
    (workflows : List ChaosWorkFlow) (request : ListWorkflowsRequest) : Except GoError (Answer Workflow) :=
  match workflowsPipeline mongo workflows request with
  | none => .error aggregationError
  | some rows =>
      match paginate request.pagination (arranged rows) with
      | none => .error aggregationError
      | some scheduled => do
          let lastUpdatedBy := scheduled.getLast?.map ChaosWorkFlow.lastUpdatedBy
          let result ← scheduled.mapM (newChaosWorkflow clusters lastUpdatedBy)
          return ⟨(countStage rows).headD 0, result⟩

end LitmusPortal.Listing
