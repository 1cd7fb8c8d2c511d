import LitmusPortal.Agent.Event

/-!
# The execution data as the server reads it

The structs that `ChaosWorkflowRun` fills from the execution data of a request.
-/

namespace LitmusPortal.ChaosWorkflow

open GoText GoJson

variable {R : Type}

structure ChaosData (R : Type) where
  engineUID : Text
  engineContext : Text
  engineName : Text
  nameSpace : Text
  experimentName : Text
  experimentStatus : Text
  lastUpdatedAt : Text
  experimentVerdict : Text
  experimentPod : Text
  runnerPod : Text
  probeSuccessPercentage : Text
  failStep : Text
  chaosResult : Option R

structure Node (R : Type) where
  name : Text
  phase : Text
  message : Text
  startedAt : Text
  finishedAt : Text
  children : Option (List Text)
  type : Text
  chaosExp : Option (ChaosData R)

structure ExecutionData (R : Type) where
  workflowType : Text
  workflowID : Text
  eventType : Text
  uid : Text
  nameSpace : Text
  name : Text
  creationTimestamp : Text
  phase : Text
  message : Text
  startedAt : Text
  finishedAt : Text
  nodes : Option (GoMap (Node R))

def ChaosData.zero : ChaosData R := ⟨[], [], [], [], [], [], [], [], [], [], [], [], none⟩

def Node.zero : Node R := ⟨[], [], [], [], [], none, [], none⟩

def ExecutionData.zero : ExecutionData R := ⟨[], [], [], [], [], [], [], [], [], [], [], none⟩

def chaosDataFields (codec : ChaosResultCodec R) : List (StructField (ChaosData R)) :=
  [stringField "engineUID" (·.engineUID) fun data text => { data with engineUID := text },
    stringField "engine_context" (·.engineContext) fun data text => { data with engineContext := text },
    stringField "engineName" (·.engineName) fun data text => { data with engineName := text },
    stringField "namespace" (·.nameSpace) fun data text => { data with nameSpace := text },
    stringField "experimentName" (·.experimentName) fun data text => { data with experimentName := text },
    stringField "experimentStatus" (·.experimentStatus) fun data text =>
      { data with experimentStatus := text },
    stringField "lastUpdatedAt" (·.lastUpdatedAt) fun data text => { data with lastUpdatedAt := text },
    stringField "experimentVerdict" (·.experimentVerdict) fun data text =>
      { data with experimentVerdict := text },
    stringField "experimentPod" (·.experimentPod) fun data text => { data with experimentPod := text },
    stringField "runnerPod" (·.runnerPod) fun data text => { data with runnerPod := text },
    stringField "probeSuccessPercentage" (·.probeSuccessPercentage) fun data text =>
      { data with probeSuccessPercentage := text },
    stringField "failStep" (·.failStep) fun data text => { data with failStep := text },
    { tag := "chaosResult"
      store := fun json data => do
        let result ← decodePointer codec.decode codec.zero json data.chaosResult
        return { data with chaosResult := result } }]

def ChaosData.decode (codec : ChaosResultCodec R) (json : Json) (data : ChaosData R) :
    Except DecodeError (ChaosData R) :=
  decodeStruct (chaosDataFields codec) json data

def nodeFields (codec : ChaosResultCodec R) : List (StructField (Node R)) :=
  [stringField "name" (·.name) fun node text => { node with name := text },
    stringField "phase" (·.phase) fun node text => { node with phase := text },
    stringField "message" (·.message) fun node text => { node with message := text },
    stringField "startedAt" (·.startedAt) fun node text => { node with startedAt := text },
    stringField "finishedAt" (·.finishedAt) fun node text => { node with finishedAt := text },
    { tag := "children"
      store := fun json node => do
        let children ← decodeSlice (fun json => decodeString json []) json
        return { node with children := children } },
    stringField "type" (·.type) fun node text => { node with type := text },
    { tag := "chaosData"
      store := fun json node => do
        let chaosExp ← decodePointer (ChaosData.decode codec) .zero json node.chaosExp
        return { node with chaosExp := chaosExp } }]

def Node.decode (codec : ChaosResultCodec R) (json : Json) : Except DecodeError (Node R) :=
  decodeStruct (nodeFields codec) json .zero

/-- The fields that have a tag other than `-`. -/
def executionDataFields (codec : ChaosResultCodec R) : List (StructField (ExecutionData R)) :=
  [stringField "workflow_type" (·.workflowType) fun data text => { data with workflowType := text },
    stringField "event_type" (·.eventType) fun data text => { data with eventType := text },
    stringField "namespace" (·.nameSpace) fun data text => { data with nameSpace := text },
    stringField "name" (·.name) fun data text => { data with name := text },
    stringField "creationTimestamp" (·.creationTimestamp) fun data text =>
      { data with creationTimestamp := text },
    stringField "phase" (·.phase) fun data text => { data with phase := text },
    stringField "message" (·.message) fun data text => { data with message := text },
    stringField "startedAt" (·.startedAt) fun data text => { data with startedAt := text },
    stringField "finishedAt" (·.finishedAt) fun data text => { data with finishedAt := text },
    { tag := "nodes"
      store := fun json data => do
        let nodes ← decodeMap (Node.decode codec) json data.nodes
        return { data with nodes := nodes } }]

def ExecutionData.decode (codec : ChaosResultCodec R) (json : Json) (data : ExecutionData R) :
    Except DecodeError (ExecutionData R) :=
  decodeStruct (executionDataFields codec) json data

/-- `json.Unmarshal([]byte(request.ExecutionData), &executionData)` -/
def parseExecutionData (codec : ChaosResultCodec R) (text : Text) : Except DecodeError (ExecutionData R) :=
  unmarshal (ExecutionData.decode codec) .zero text

end LitmusPortal.ChaosWorkflow
