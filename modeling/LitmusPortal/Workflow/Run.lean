import LitmusPortal.Cluster.Verify
import Mathlib.Data.List.AList
import Mathlib.Algebra.Ring.Rat

/-!
# The agent's workflow run events

`ChaosWorkflowRun` and `UpdateWorkflowRun`. The handler is cut at its database steps, so that one
set of definitions serves the call that runs alone and the calls that interleave.
-/

namespace LitmusPortal

open DocumentStore

/-- The chaos result of a node, as far as the score reads it. -/
structure ChaosData where
  engineName : String
  probeSuccessPercentage : String
  experimentVerdict : String
  deriving DecidableEq, Repr

structure Node where
  type : String
  chaosExp : Option ChaosData
  deriving DecidableEq, Repr

structure ExecutionData where
  phase : String
  nodes : List (String × Node)
  deriving DecidableEq, Repr

structure WorkflowRunRequest where
  workflowID : String
  workflowRunID : String
  workflowName : String
  executedBy : String
  executionData : String
  clusterID : ClusterIdentity
  completed : Bool
  deriving DecidableEq, Repr

/-- What the handlers take from outside the repository: the VERSION variable, the JSON decoder, and
the order in which Go ranges over a map. -/
structure Env where
  version : String
  unmarshalExecutionData : String → Option ExecutionData
  rangeOrder : List String → List String

structure Database where
  clusters : List Cluster
  workflows : Workflows

/-! ### The metrics of a completed run -/

structure WorkflowRunMetrics where
  resiliencyScore : ℚ
  experimentsPassed : Int
  experimentsFailed : Int
  experimentsAwaited : Int
  experimentsStopped : Int
  experimentsNA : Int
  totalExperiments : Int
  deriving DecidableEq

def WorkflowRunMetrics.zero : WorkflowRunMetrics := ⟨0, 0, 0, 0, 0, 0, 0⟩

/-- `utils.Truncate`, on exact rationals. -/
def truncate (num : ℚ) : ℚ := (num * 100).num.tdiv (num * 100).den / 100

/-- The value of `x, _ := strconv.Atoi(s)`: zero on a syntax error, the nearest bound out of
range. -/
def atoiValue (s : String) : Int :=
  (GoStrings.parseInt s).elim 0 fun n => max GoStrings.minInt (min n GoStrings.maxInt)

/-- The experiment a chaos engine belongs to: the last of the names, in range order, that its own
name contains. -/
def experimentNameOf (names : List String) (engineName : String) : String :=
  names.foldl (fun found expName => if GoStrings.contains engineName expName then expName else found) ""

/-- One node of the loop of `ProcessCompletedWorkflowRun`: the verdict counts and the sum of the
weighted probe results. -/
def countNode (env : Env) (weightMap : AList fun _ : String => Int)
    (acc : WorkflowRunMetrics × Int) (value : Node) : WorkflowRunMetrics × Int :=
  if value.type ≠ "ChaosEngine" then acc
  else
    match value.chaosExp with
    | none => acc
    | some exp =>
        let (result, totalTestResult) := acc
        let experimentName := experimentNameOf (env.rangeOrder weightMap.keys) exp.engineName
        let totalTestResult := match weightMap.lookup experimentName with
          | some weight => totalTestResult + weight * atoiValue exp.probeSuccessPercentage
          | none => totalTestResult
        let verdict := exp.experimentVerdict
        let result := if verdict = "Pass" then
          { result with experimentsPassed := result.experimentsPassed + 1 } else result
        let result := if verdict = "Fail" then
          { result with experimentsFailed := result.experimentsFailed + 1 } else result
        let result := if verdict = "Awaited" then
          { result with experimentsAwaited := result.experimentsAwaited + 1 } else result
        let result := if verdict = "Stopped" then
          { result with experimentsStopped := result.experimentsStopped + 1 } else result
        let result := if verdict = "N/A" ∨ verdict = "" then
          { result with experimentsNA := result.experimentsNA + 1 } else result
        (result, totalTestResult)

/-- `ProcessCompletedWorkflowRun`. `fails` is an error of the read of the workflow. -/
def processCompletedWorkflowRun (env : Env) (fails : Bool) (workflows : Workflows)
    (execData : ExecutionData) (wfID : String) : Except GoError WorkflowRunMetrics :=
  if fails then
    .error (.failed "failed to get workflow from db on complete, error: mongo: database error")
  else
    match workflows.find fun workflow => workflow.workflowID = wfID with
    | [workflow] =>
        let weightMap := workflow.weightages.foldl
          (fun (weights : AList fun _ : String => Int) entry =>
            weights.insert entry.experimentName entry.weightage) ∅
        let weightSum := (workflow.weightages.map (·.weightage)).sum
        let start := { WorkflowRunMetrics.zero with
          totalExperiments := workflow.weightages.length }
        let (result, totalTestResult) :=
          (execData.nodes.map Prod.snd).foldl (countNode env weightMap) (start, 0)
        if weightSum ≠ 0 then
          .ok { result with resiliencyScore := truncate (totalTestResult / weightSum) }
        else .ok result
    | _ => .error (.failed ("failed to get workflow from db on complete, error: " ++
        "couldn't find the unique workflow with id " ++ wfID))

/-! ### UpdateWorkflowRun -/

/-- The count of the documents with this workflow id that hold this run id. -/
def countRuns (workflows : Workflows) (workflowID workflowRunID : String) : Nat :=
  workflows.countDocuments fun workflow => workflow.workflowID = workflowID &&
    workflow.workflowRuns.any fun run => run.workflowRunID = workflowRunID

/-- The condition of the `$elemMatch`. -/
def isOpenRun (workflowRunID : String) (run : ChaosWorkflowRun) : Bool :=
  run.workflowRunID = workflowRunID && !run.completed

/-- The positional `$set`: every field but the id and `executed_by`. -/
def setRunFields (wfRun run : ChaosWorkflowRun) : ChaosWorkflowRun :=
  { run with
    lastUpdated := wfRun.lastUpdated
    phase := wfRun.phase
    resiliencyScore := wfRun.resiliencyScore
    experimentsPassed := wfRun.experimentsPassed
    experimentsFailed := wfRun.experimentsFailed
    experimentsAwaited := wfRun.experimentsAwaited
    experimentsStopped := wfRun.experimentsStopped
    experimentsNA := wfRun.experimentsNA
    totalExperiments := wfRun.totalExperiments
    executionData := wfRun.executionData
    completed := wfRun.completed
    isRemoved := wfRun.isRemoved }

def pushRun (wfRun : ChaosWorkflowRun) (workflow : ChaosWorkFlow) : ChaosWorkFlow :=
  { workflow with workflowRuns := workflow.workflowRuns ++ [wfRun] }

/-- The positional operator changes the first array element the `$elemMatch` selected. -/
def setRun (wfRun : ChaosWorkflowRun) (workflow : ChaosWorkFlow) : ChaosWorkFlow :=
  { workflow with
    workflowRuns := updateFirst (isOpenRun wfRun.workflowRunID) (setRunFields wfRun)
      workflow.workflowRuns }

/-- The write of `UpdateWorkflowRun` after a count: the number of updates it reports, and the
collection it leaves. `fails` is an error of the update. -/
def writeRun (fails : Bool) (workflows : Workflows) (workflowID : String)
    (wfRun : ChaosWorkflowRun) (count : Nat) : Except GoError Nat × Workflows :=
  if count = 0 then
    if fails then (.error databaseError, workflows)
    else
      match workflows.updateOne (fun workflow => workflow.workflowID = workflowID)
          (pushRun wfRun) with
      | .error _ => (.error databaseError, workflows)
      | .ok (workflows', matched) =>
          if matched = 0 then (.error (.failed "workflow not found"), workflows')
          else (.ok 1, workflows')
  else if count = 1 then
    if fails then (.error databaseError, workflows)
    else
      match workflows.updateOne
          (fun workflow => workflow.workflowID = workflowID &&
            workflow.workflowRuns.any (isOpenRun wfRun.workflowRunID))
          (setRun wfRun) with
      | .error _ => (.error databaseError, workflows)
      | .ok (workflows', matched) => (.ok matched, workflows')
  else (.ok 1, workflows)

/-- The two steps with nothing between them. -/
def updateWorkflowRun (countFails updateFails : Bool) (workflows : Workflows) (workflowID : String)
    (wfRun : ChaosWorkflowRun) : Except GoError Nat × Workflows :=
  if countFails then (.error databaseError, workflows)
  else writeRun updateFails workflows workflowID wfRun
    (countRuns workflows workflowID wfRun.workflowRunID)

/-! ### ChaosWorkflowRun -/

/-- What is published to the subscribers of workflow events. -/
structure WorkflowRunEvent where
  cluster : Cluster
  workflowID : String
  workflowName : String
  run : ChaosWorkflowRun
  deriving DecidableEq

structure RunReply where
  message : String
  event : Option WorkflowRunEvent
  deriving DecidableEq

def verifyRequest (env : Env) (fails : Bool) (clusters : List Cluster)
    (request : WorkflowRunRequest) : Except GoError (Cluster × ExecutionData) := do
  let cluster ← verifyCluster env.version fails clusters request.clusterID
  match env.unmarshalExecutionData request.executionData with
  | none => .error (.failed "invalid execution data")
  | some executionData => .ok (cluster, executionData)

/-- The score is calculated only for a completed run. -/
def measureRun (env : Env) (fails : Bool) (workflows : Workflows) (request : WorkflowRunRequest)
    (executionData : ExecutionData) : Except GoError WorkflowRunMetrics :=
  if request.completed then
    processCompletedWorkflowRun env fails workflows executionData request.workflowID
  else .ok .zero

/-- The entry `ChaosWorkflowRun` hands to `UpdateWorkflowRun`. -/
def newRun (request : WorkflowRunRequest) (executionData : ExecutionData)
    (metrics : WorkflowRunMetrics) (now : Int) : ChaosWorkflowRun where
  workflowRunID := request.workflowRunID
  lastUpdated := formatTime now
  phase := executionData.phase
  resiliencyScore := some metrics.resiliencyScore
  experimentsPassed := some metrics.experimentsPassed
  experimentsFailed := some metrics.experimentsFailed
  experimentsAwaited := some metrics.experimentsAwaited
  experimentsStopped := some metrics.experimentsStopped
  experimentsNA := some metrics.experimentsNA
  totalExperiments := some metrics.totalExperiments
  executionData := request.executionData
  completed := request.completed
  isRemoved := some false
  executedBy := request.executedBy

def replyTo (request : WorkflowRunRequest) (cluster : Cluster) (wfRun : ChaosWorkflowRun)
    (now : Int) (count : Nat) : RunReply :=
  if count = 0 then ⟨"Workflow Run Discarded[Duplicate Event]", none⟩
  else ⟨"Workflow Run Accepted", some {
    cluster := cluster
    workflowID := request.workflowID
    workflowName := request.workflowName
    run := { wfRun with lastUpdated := formatTime now } }⟩

/-- Which database steps of a call fail. -/
structure RunFaults where
  getCluster : Bool
  getWorkflows : Bool
  countDocuments : Bool
  update : Bool
  deriving DecidableEq, Repr

def RunFaults.none : RunFaults := ⟨false, false, false, false⟩

def chaosWorkflowRun (env : Env) (faults : RunFaults) (now : Int) (db : Database)
    (request : WorkflowRunRequest) : Except GoError RunReply × Database :=
  match verifyRequest env faults.getCluster db.clusters request with
  | .error err => (.error err, db)
  | .ok (cluster, executionData) =>
      match measureRun env faults.getWorkflows db.workflows request executionData with
      | .error err => (.error err, db)
      | .ok metrics =>
          let wfRun := newRun request executionData metrics now
          let (result, workflows) := updateWorkflowRun faults.countDocuments faults.update
            db.workflows request.workflowID wfRun
          (result.map (replyTo request cluster wfRun now), { db with workflows := workflows })

/-! ### The agent of the small installation

The decoder reads the two documents the agent sends. -/

def sampleEnv : Env where
  version := "2.6.0"
  unmarshalExecutionData text :=
    if text = "\x7b\"phase\":\"Running\"\x7d" then some ⟨"Running", []⟩
    else if text = "\x7b\"phase\":\"Succeeded\"\x7d" then some ⟨"Succeeded", []⟩
    else none
  rangeOrder names := names

def sampleDatabase : Database where
  clusters := [sampleCluster]
  workflows := sampleWorkflows

def sampleEvent (workflowRunID phase : String) (completed : Bool) : WorkflowRunRequest where
  workflowID := "workflow-1"
  workflowRunID := workflowRunID
  workflowName := "pod-delete"
  executedBy := "admin"
  executionData := "\x7b\"phase\":\"" ++ phase ++ "\"\x7d"
  clusterID := ⟨"cluster-1", "key-1", "2.6.0"⟩
  completed := completed

end LitmusPortal
