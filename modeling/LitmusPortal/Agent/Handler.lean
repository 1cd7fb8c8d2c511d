import LitmusPortal.Agent.Event
import LitmusPortal.Lib.GoStrings

/-!
# From a workflow of the cluster to an event

`WorkflowEventHandler` with the functions that look up the chaos data of a node. Kubernetes answers
each request with an object or with an error. A read through a nil pointer or past the end of a slice
panics; what ends the process otherwise is fatal.
-/

namespace LitmusPortal.Agent

open GoText GoJson

variable {R : Type}

inductive Crash where
  | panic (message : String)
  | fatal (message : String)
  deriving DecidableEq, Repr

def deref {α : Type} : Option α → Except Crash α
  | none => .error (.panic "invalid memory address or nil pointer dereference")
  | some a => .ok a

def elementAt {α : Type} (items : List α) (i : ℕ) : Except Crash α :=
  match items[i]? with
  | none => .error (.panic "index out of range")
  | some a => .ok a

def Rune.lower : Rune → Rune
  | .char c => .char (GoStrings.lowerChar c)
  | .invalid byte => .invalid byte

/-- `strings.ToLower`, for a comparison with an ASCII word. -/
def lower (text : Text) : Text := text.map Rune.lower

/-! ### The objects of the cluster -/

structure NodeStatus where
  id : Text
  displayName : Text
  type : Text
  phase : Text
  message : Text
  startedAt : ℤ
  finishedAt : ℤ
  children : Option (List Text)
  /-- The artifacts of the inputs, each with its raw data. -/
  inputs : Option (List (Option Text))

structure Workflow where
  labels : List (Text × Text)
  uid : Text
  nameSpace : Text
  name : Text
  creationTimestamp : ℤ
  phase : Text
  message : Text
  startedAt : ℤ
  finishedAt : ℤ
  nodes : List NodeStatus

def labelOf (labels : List (Text × Text)) (label : String) : Text := (labels.lookup (ofString label)).getD []

structure ExperimentStatus where
  name : Text
  expPod : Text
  runner : Text
  status : Text
  verdict : Text
  lastUpdateTime : ℤ

structure ChaosEngine where
  labels : List (Text × Text)
  uid : Text
  name : Text
  creationTimestamp : ℤ
  engineStatus : Text
  experiments : List ExperimentStatus

/-- What a manifest says that the agent decodes without its type. -/
structure Unstructured where
  kind : Text
  name : Text
  generateName : Text
  nameSpace : Text

structure ChaosResultView (R : Type) where
  withoutAnnotations : R → R
  probeSuccessPercentage : R → Text
  failStep : R → Text

structure Cluster (R : Type) where
  kubeConfig : Except Text Unit
  chaosClient : Except Text Unit
  chaosEngine : Text → Text → Except Text ChaosEngine
  chaosResult : Text → Text → Except Text R
  logs : Text → Text → Text → Except Text Text
  decode : Text → Option Unstructured

/-! ### Chaos data -/

def strConvTime (time : ℤ) : Text := if time < 0 then [] else ofString (toString time)

def isSpace (r : Rune) : Bool :=
  r ∈ ofString "\t\n\u000b\u000c\r \u0085\u00a0\u1680\u2000\u2001\u2002\u2003\u2004\u2005\u2006\u2007\u2008\u2009\u200a\u2028\u2029\u202f\u205f\u3000"

def trimSpace (text : Text) : Text := ((text.dropWhile isSpace).reverse.dropWhile isSpace).reverse

/-- The leftmost place where the log names the engine in a paragraph of its own. -/
def findEngineName : Text → Option Text
  | [] => none
  | r :: rest =>
      let start := ofString "\n\nChaosEngine Name : "
      let line := ((r :: rest).drop start.length).takeWhile (· ≠ .char '\n')
      if start <+: r :: rest ∧ ofString "\n\n" <+: (r :: rest).drop (start.length + line.length) then
        some (start ++ line ++ ofString "\n\n")
      else findEngineName rest

/-- The text after the only `: `. -/
def afterColon : Text → Option Text
  | [] => none
  | r :: rest =>
      if ofString ": " <+: r :: rest then
        if ofString ": " <:+: rest.drop 1 then none else some (rest.drop 1)
      else afterColon rest

def getNameFromLog (log : Text) : Text :=
  match findEngineName log with
  | none => []
  | some s => (afterColon (trimSpace s)).getD []

/-- With an error there may be some chaos data all the same. -/
def getChaosData (view : ChaosResultView R) (cluster : Cluster R) (startedAt : ℤ) (engineName engineNS : Text) :
    Except Crash (Option (ChaosData R) × Option Text) :=
  match cluster.chaosEngine engineNS engineName with
  | .error err => return (none, some err)
  | .ok crd =>
      if crd.creationTimestamp < startedAt then return (none, none)
      else
        let stopped := lower crd.engineStatus = ofString "stopped"
        let cd : ChaosData R := {
          engineUID := crd.uid
          engineContext := labelOf crd.labels "context"
          engineName := engineName
          nameSpace := engineNS
          experimentName := []
          experimentStatus := if stopped then crd.engineStatus else []
          lastUpdatedAt := []
          experimentVerdict := if stopped then ofString "Fail" else []
          experimentPod := []
          runnerPod := []
          probeSuccessPercentage := ofString "0"
          failStep := []
          chaosResult := none }
        if crd.experiments.length = 0 then return (some cd, none)
        else do
          let experiment ← elementAt crd.experiments 0
          let failed := stopped ∨ lower crd.engineStatus = ofString "completed" ∧
            lower experiment.verdict ≠ ofString "pass"
          let cd := { cd with
            experimentPod := experiment.expPod
            runnerPod := experiment.runner
            experimentStatus := if failed then crd.engineStatus else experiment.status
            experimentName := experiment.name
            lastUpdatedAt := ofString (toString experiment.lastUpdateTime)
            experimentVerdict := if failed then ofString "Fail" else experiment.verdict }
          if crd.experiments.length = 1 then
            match cluster.chaosResult engineNS (crd.name ++ ofString "-" ++ experiment.name) with
            | .error err => return (some cd, some err)
            | .ok expRes =>
                return (some { cd with
                  chaosResult := some (view.withoutAnnotations expRes)
                  probeSuccessPercentage := view.probeSuccessPercentage expRes
                  failStep := view.failStep expRes }, none)
          else return (some cd, none)

def chaosEngineKind : Text := ofString "ChaosEngine"

def checkChaosData (view : ChaosResultView R) (cluster : Cluster R) (nodeStatus : NodeStatus) (workflowNS : Text) :
    Except Crash (Text × Option (ChaosData R) × Option Text) := do
  let inputs ← deref nodeStatus.inputs
  let artifact ← elementAt inputs 0
  let data ← deref artifact
  match cluster.decode data with
  | none => return (nodeStatus.type, none, none)
  | some obj =>
      if obj.kind ≠ chaosEngineKind then return (nodeStatus.type, none, none)
      else if nodeStatus.phase = ofString "Pending" then return (chaosEngineKind, none, none)
      else if obj.generateName ≠ [] then
        match cluster.logs nodeStatus.id workflowNS (ofString "main") with
        | .error err => return (chaosEngineKind, none, some err)
        | .ok log =>
            let name := getNameFromLog log
            if name = [] then
              return (chaosEngineKind, none, some (ofString "Chaos-Engine Generated Name couldn't be retrieved"))
            else do
              let (cd, err) ← getChaosData view cluster nodeStatus.startedAt name obj.nameSpace
              return (chaosEngineKind, cd, err)
      else do
        let (cd, err) ← getChaosData view cluster nodeStatus.startedAt obj.name obj.nameSpace
        return (chaosEngineKind, cd, err)

/-! ### The event -/

/-- A chaos event has one artifact, with its manifest as raw data. -/
def HasManifest (nodeStatus : NodeStatus) : Prop :=
  nodeStatus.type = ofString "Pod" ∧ ∃ data, nodeStatus.inputs = some [some data]

instance (nodeStatus : NodeStatus) : Decidable (HasManifest nodeStatus) :=
  decidable_of_iff (nodeStatus.type = ofString "Pod" ∧
    (match nodeStatus.inputs with
      | some [some _] => true
      | _ => false) = true) <| by
    unfold HasManifest
    constructor
    · rintro ⟨htype, hinputs⟩
      refine ⟨htype, ?_⟩
      split at hinputs
      · exact ⟨_, ‹_›⟩
      · cases hinputs
    · rintro ⟨htype, data, hinputs⟩
      exact ⟨htype, by rw [hinputs]⟩

def ChaosData.failed (cd : ChaosData R) : Bool := lower cd.experimentVerdict = ofString "fail"

/-- The node of an event, and whether its experiment has failed. -/
def nodeOf (view : ChaosResultView R) (cluster : Cluster R) (workflowNS : Text) (nodeStatus : NodeStatus) :
    Except Crash (Node R × Bool) := do
  let (nodeType, cd, _) ←
    if HasManifest nodeStatus then checkChaosData view cluster nodeStatus workflowNS
    else pure (nodeStatus.type, none, none)
  let details : Node R := {
    name := nodeStatus.displayName
    phase := nodeStatus.phase
    message := nodeStatus.message
    startedAt := strConvTime nodeStatus.startedAt
    finishedAt := strConvTime nodeStatus.finishedAt
    children := nodeStatus.children
    type := nodeType
    chaosExp := cd }
  match cd with
  | none => return (details, false)
  | some cd =>
      if cd.failed then
        return ({ details with
          phase := ofString "Failed"
          message := ofString "Chaos Experiment Failed"
          chaosExp := some { cd with experimentVerdict := ofString "Fail" } }, true)
      else return (details, false)

def WorkflowEvent.empty : WorkflowEvent R := ⟨[], [], [], [], [], [], [], [], [], [], [], none, []⟩

/-- An event with an error is the empty one, and so is one that is to be ignored. -/
def workflowEventHandler (view : ChaosResultView R) (cluster : Cluster R) (workflowObj : Workflow)
    (eventType : Text) (startTime : ℤ) : Except Crash (WorkflowEvent R × Option Text) :=
  if labelOf workflowObj.labels "workflow_id" = [] then return (.empty, none)
  else if workflowObj.creationTimestamp < startTime then return (.empty, none)
  else
    match cluster.kubeConfig, cluster.chaosClient with
    | .error _, _ => .error (.fatal "Could not get kube config")
    | .ok _, .error err => return (.empty, some (ofString "could not get Chaos ClientSet: " ++ err))
    | .ok _, .ok _ => do
        let nodes ← workflowObj.nodes.foldlM (fun (nodes, experimentFail) nodeStatus => do
          let (details, failed) ← nodeOf view cluster workflowObj.nameSpace nodeStatus
          return (AList.insert nodeStatus.id details nodes, experimentFail || failed)) ((∅ : GoMap (Node R)), false)
        return ({
          workflowType := ofString "events"
          workflowID := labelOf workflowObj.labels "workflow_id"
          eventType := eventType
          uid := workflowObj.uid
          nameSpace := workflowObj.nameSpace
          name := workflowObj.name
          creationTimestamp := strConvTime workflowObj.creationTimestamp
          phase := if nodes.2 then ofString "Failed" else workflowObj.phase
          message := if nodes.2 then ofString "Chaos Experiment Failed" else workflowObj.message
          startedAt := strConvTime workflowObj.startedAt
          finishedAt := strConvTime workflowObj.finishedAt
          nodes := some nodes.1
          executedBy := labelOf workflowObj.labels "executed_by" }, none)

end LitmusPortal.Agent
