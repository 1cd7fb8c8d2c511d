import LitmusPortal.Lib.Json.Unmarshal

/-!
# The events of the subscriber

What the subscriber reports of a workflow run, and its JSON. The result of a chaos experiment is a
type of the chaos operator; what the code needs of it is that its JSON is an object which the same
type reads back.
-/

namespace LitmusPortal

open GoText GoJson

/-- `v1alpha1.ChaosResult` as `encoding/json` sees it. -/
structure ChaosResultCodec (R : Type) where
  zero : R
  encode : R → Json
  decode : Json → R → Except DecodeError R
  /-- The value that is read back is the one that was written. -/
  kept : R → R → Prop
  encode_obj : ∀ result, ∃ members, encode result = .obj members
  decode_encode : ∀ result, ∃ result', decode (encode result).sanitize zero = .ok result' ∧
    kept result result'

def emptyCodec : ChaosResultCodec Unit where
  zero := ()
  encode _ := .obj []
  decode _ _ := .ok ()
  kept _ _ := True
  encode_obj _ := ⟨[], rfl⟩
  decode_encode _ := ⟨(), rfl, trivial⟩

namespace Agent

variable {R : Type}

structure ChaosData (R : Type) where
  engineUID : Text
  engineContext : Text
  engineName : Text
  nameSpace : Text
  experimentName : Text
  experimentStatus : Text
  lastUpdatedAt : Text
  experimentVerdict : Text
  experimentPod : Text
  runnerPod : Text
  probeSuccessPercentage : Text
  failStep : Text
  chaosResult : Option R

structure Node (R : Type) where
  name : Text
  phase : Text
  message : Text
  startedAt : Text
  finishedAt : Text
  children : Option (List Text)
  type : Text
  chaosExp : Option (ChaosData R)

structure WorkflowEvent (R : Type) where
  workflowType : Text
  workflowID : Text
  eventType : Text
  uid : Text
  nameSpace : Text
  name : Text
  creationTimestamp : Text
  phase : Text
  message : Text
  startedAt : Text
  finishedAt : Text
  nodes : Option (GoMap (Node R))
  executedBy : Text

/-! ## Their JSON -/

def ChaosData.encode (codec : ChaosResultCodec R) (chaosData : ChaosData R) : Json :=
  .obj
    [field "engineUID" (.str chaosData.engineUID),
      field "engineContext" (.str chaosData.engineContext),
      field "engineName" (.str chaosData.engineName),
      field "namespace" (.str chaosData.nameSpace),
      field "experimentName" (.str chaosData.experimentName),
      field "experimentStatus" (.str chaosData.experimentStatus),
      field "lastUpdatedAt" (.str chaosData.lastUpdatedAt),
      field "experimentVerdict" (.str chaosData.experimentVerdict),
      field "experimentPod" (.str chaosData.experimentPod),
      field "runnerPod" (.str chaosData.runnerPod),
      field "probeSuccessPercentage" (.str chaosData.probeSuccessPercentage),
      field "failStep" (.str chaosData.failStep),
      field "chaosResult" (encodePointer codec.encode chaosData.chaosResult)]

/-- The chaos data of a node is left out where there is none. -/
def Node.encode (codec : ChaosResultCodec R) (node : Node R) : Json :=
  .obj
    ([field "name" (.str node.name),
      field "phase" (.str node.phase),
      field "message" (.str node.message),
      field "startedAt" (.str node.startedAt),
      field "finishedAt" (.str node.finishedAt),
      field "children" (encodeSlice Json.str node.children),
      field "type" (.str node.type)] ++
    match node.chaosExp with
    | none => []
    | some chaosExp => [field "chaosData" (chaosExp.encode codec)])

/-- The identifiers of the workflow and of its run are not part of the JSON. -/
def WorkflowEvent.encode (codec : ChaosResultCodec R) (event : WorkflowEvent R) : Json :=
  .obj
    [field "workflowType" (.str event.workflowType),
      field "eventType" (.str event.eventType),
      field "namespace" (.str event.nameSpace),
      field "name" (.str event.name),
      field "creationTimestamp" (.str event.creationTimestamp),
      field "phase" (.str event.phase),
      field "message" (.str event.message),
      field "startedAt" (.str event.startedAt),
      field "finishedAt" (.str event.finishedAt),
      field "nodes" (encodeMap (Node.encode codec) event.nodes),
      field "executedBy" (.str event.executedBy)]

end Agent

end LitmusPortal
