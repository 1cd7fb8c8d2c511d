import LitmusPortal.Lib.Collection
import Mathlib.Algebra.Order.Ring.Unbundled.Rat

/-!
# The documents of the control plane

The MongoDB documents the graphql-server reads and writes, and the GraphQL inputs its handlers
take, under the field names of the source.
-/

namespace LitmusPortal

open DocumentStore

/-- What a handler returns instead of a result. A Go panic is recovered by the GraphQL server, so
for its caller it is one more error. -/
inductive GoError where
  | failed (message : String)
  | panic (message : String)
  deriving DecidableEq, Repr

theorem exists_of_bind_eq_ok {ε α β : Type} {x : Except ε α} {f : α → Except ε β} {b : β}
    (h : (x >>= f) = .ok b) : ∃ a, x = .ok a ∧ f a = .ok b := by
  cases x with
  | error err => cases h
  | ok a => exact ⟨a, rfl, h⟩

/-- `strconv.FormatInt(time.Now().Unix(), 10)`. -/
def formatTime (now : Int) : String := toString now

structure Toleration where
  tolerationSeconds : Option Int
  key : Option String
  operator : Option String
  effect : Option String
  value : Option String
  deriving DecidableEq, Repr

/-- The document of `cluster-collection`. -/
structure Cluster where
  clusterID : String
  projectID : String
  clusterName : String
  description : Option String
  platformName : String
  agentNamespace : Option String
  serviceaccount : Option String
  agentScope : String
  agentNsExists : Option Bool
  agentSaExists : Option Bool
  accessKey : String
  isRegistered : Bool
  isClusterConfirmed : Bool
  isActive : Bool
  updatedAt : String
  createdAt : String
  clusterType : String
  token : String
  isRemoved : Bool
  skipSSL : Option Bool
  nodeSelector : Option String
  tolerations : Option (List Toleration)
  startTime : String
  version : String
  deriving DecidableEq, Repr

/-- What an agent presents with every request. -/
structure ClusterIdentity where
  clusterID : String
  accessKey : String
  version : String
  deriving DecidableEq, Repr

structure WeightagesInput where
  experimentName : String
  weightage : Int
  deriving DecidableEq, Repr

inductive ChaosWorkflowType where
  | workflow
  | chaosEngine
  deriving DecidableEq, Repr

/-- An entry of `workflow_runs`. -/
structure ChaosWorkflowRun where
  workflowRunID : String
  lastUpdated : String
  phase : String
  resiliencyScore : Option ℚ
  experimentsPassed : Option Int
  experimentsFailed : Option Int
  experimentsAwaited : Option Int
  experimentsStopped : Option Int
  experimentsNA : Option Int
  totalExperiments : Option Int
  executionData : String
  completed : Bool
  isRemoved : Option Bool
  executedBy : String
  deriving DecidableEq, Repr

/-- The document of `workflow-collection`. -/
structure ChaosWorkFlow where
  workflowID : String
  workflowManifest : String
  cronSyntax : String
  workflowName : String
  workflowDescription : String
  weightages : List WeightagesInput
  workflowType : ChaosWorkflowType
  isCustomWorkflow : Bool
  updatedAt : String
  createdAt : String
  projectID : String
  clusterID : String
  clusterName : String
  clusterType : String
  workflowRuns : List ChaosWorkflowRun
  isRemoved : Bool
  lastUpdatedBy : String
  deriving DecidableEq, Repr

/-- The unique indexes of `workflow-collection`: the id, and the name among the workflows that are
not removed. -/
def workflowIndexes : List (UniqueIndex ChaosWorkFlow String) :=
  [fun workflow => some workflow.workflowID,
    fun workflow => if workflow.isRemoved = false then some workflow.workflowName else none]

abbrev Workflows := Collection workflowIndexes

theorem Workflows.workflowID_injective (workflows : Workflows) {left right : ChaosWorkFlow}
    (hleft : left ∈ workflows.docs) (hright : right ∈ workflows.docs)
    (h : left.workflowID = right.workflowID) : left = right :=
  workflows.eq_of_clash hleft hright
    ⟨fun workflow => some workflow.workflowID, by simp [workflowIndexes], by simp, by simp [h]⟩

/-! ### A small installation

One project with one registered agent and one workflow without runs. -/

def sampleCluster : Cluster where
  clusterID := "cluster-1"
  projectID := "project-1"
  clusterName := "agent"
  description := none
  platformName := "Others"
  agentNamespace := some "litmus"
  serviceaccount := some "litmus"
  agentScope := "cluster"
  agentNsExists := some false
  agentSaExists := some false
  accessKey := "key-1"
  isRegistered := true
  isClusterConfirmed := true
  isActive := false
  updatedAt := "0"
  createdAt := "0"
  clusterType := "external"
  token := ""
  isRemoved := false
  skipSSL := none
  nodeSelector := none
  tolerations := none
  startTime := "0"
  version := ""

def sampleWorkflow : ChaosWorkFlow where
  workflowID := "workflow-1"
  workflowManifest := ""
  cronSyntax := ""
  workflowName := "pod-delete"
  workflowDescription := ""
  weightages := []
  workflowType := .workflow
  isCustomWorkflow := true
  updatedAt := "0"
  createdAt := "0"
  projectID := "project-1"
  clusterID := "cluster-1"
  clusterName := "agent"
  clusterType := "external"
  workflowRuns := []
  isRemoved := false
  lastUpdatedBy := "admin"

def sampleWorkflows : Workflows := ⟨[sampleWorkflow], List.pairwise_singleton _ _⟩

end LitmusPortal
