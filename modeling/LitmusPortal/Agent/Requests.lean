import LitmusPortal.Agent.Operations
import LitmusPortal.Agent.Updates

/-!
# The requests about workflows

`WorkflowRequest` deletes a workflow of the cluster or reports its state anew. Both look the workflow up
by the identifier of its run, and a lookup that finds nothing gives a nil pointer without an error.
-/

namespace LitmusPortal.Agent

open GoText GoJson

variable {R : Type}

/-- What the subscriber reads of its configuration. -/
structure ClusterData extends Identity where
  agentNamespace : Text
  startTime : String

/-- How Kubernetes answers, and whether a client can be made for it at all. -/
structure Api (R : Type) extends Cluster R where
  clientset : Except String Unit
  workflows : Except Text (List Workflow)
  delete : Text → Text → Except Text Unit

inductive RequestError where
  | text (message : Text)
  | json (error : DecodeError)
  | number (startTime : String)

def Api.newForConfigOrDie (api : Api R) : Except Crash Unit :=
  match api.clientset with
  | .error err => .error (.fatal err)
  | .ok _ => return ()

def getWorkflowObj (api : Api R) (uid : Text) : Except Crash (Except Text (Option Workflow)) :=
  match api.kubeConfig with
  | .error err => return .error err
  | .ok _ => do
      api.newForConfigOrDie
      match api.workflows with
      | .error err => return .error err
      | .ok listWf => return .ok (listWf.find? fun wf => wf.uid = uid)

def deleteWorflow (api : Api R) (wfname : Text) (clusterData : ClusterData) :
    Except Crash (Option RequestError) :=
  match api.kubeConfig with
  | .error err => return some (.text err)
  | .ok _ => do
      api.newForConfigOrDie
      match api.delete clusterData.agentNamespace wfname with
      | .error err => return some (.text err)
      | .ok _ => return none

structure WorkflowSyncExternalData where
  workflowID : Text
  workflowRunID : Text

def syncFields : List (StructField WorkflowSyncExternalData) :=
  [stringField "workflowID" (·.workflowID) fun data text => { data with workflowID := text },
    stringField "workflowRunID" (·.workflowRunID) fun data text => { data with workflowRunID := text }]

def parseSyncData (externalData : Text) : Except DecodeError WorkflowSyncExternalData :=
  unmarshal (decodeStruct syncFields) ⟨[], []⟩ externalData

/-- The event of a workflow that is not in the cluster has no nodes. -/
def notAvailable (clusterData : ClusterData) (extData : WorkflowSyncExternalData) : WorkflowEvent R :=
  { (WorkflowEvent.empty : WorkflowEvent R) with
    nameSpace := clusterData.agentNamespace
    workflowType := ofString "events"
    workflowID := extData.workflowID
    eventType := ofString "DELETE"
    uid := extData.workflowRunID
    phase := ofString "NotAvailable" }

/-- The comparisons of `WorkflowRequest`. -/
def workflowOperation (requestType : Text) : Option Operation :=
  if requestType = ofString "workflow_delete" then some .workflowDelete
  else if requestType = ofString "workflow_sync" then some .workflowSync
  else none

section Request

variable (isPrint : Char → Bool) (codec : ChaosResultCodec R) (view : ChaosResultView R) (api : Api R)
  (server : Text → Except Text Text) (order : RangeOrder (Node R)) (clusterData : ClusterData)

/-- `SendWorkflowUpdates`, of whose answer only the error goes back. -/
def sendSync (eventMap : EventMap R) (event : WorkflowEvent R) :
    Except Crash (Option RequestError × EventMap R) := do
  let (response, eventMap) ←
    sendWorkflowUpdates isPrint codec clusterData.toIdentity server order eventMap event
  match response with
  | .error err => return (some (.text err), eventMap)
  | .ok _ => return (none, eventMap)

def workflowDelete (eventMap : EventMap R) (externalData : Text) :
    Except Crash (Option RequestError × EventMap R) := do
  match ← getWorkflowObj api externalData with
  | .error err => return (some (.text err), eventMap)
  | .ok wfOb => do
      let wfOb ← deref wfOb
      let err ← deleteWorflow api wfOb.name clusterData
      return (err, eventMap)

def syncFound (eventMap : EventMap R) (wfOb : Workflow) (startTime : ℤ) :
    Except Crash (Option RequestError × EventMap R) := do
  let (evts, err) ← workflowEventHandler view api.toCluster wfOb (ofString "UPDATE") startTime
  match err with
  | some err => return (some (.text err), eventMap)
  | none => sendSync isPrint codec server order clusterData eventMap evts

def workflowSync (eventMap : EventMap R) (externalData : Text) :
    Except Crash (Option RequestError × EventMap R) :=
  match parseSyncData externalData with
  | .error err => return (some (.json err), eventMap)
  | .ok extData => do
      match ← getWorkflowObj api extData.workflowRunID with
      | .error err => return (some (.text err), eventMap)
      | .ok none =>
          sendSync isPrint codec server order clusterData eventMap (notAvailable clusterData extData)
      | .ok (some wfOb) =>
          match GoStrings.atoi clusterData.startTime with
          | none => return (some (.number clusterData.startTime), eventMap)
          | some startTime => syncFound isPrint codec view api server order clusterData eventMap wfOb startTime

def workflowRequest (eventMap : EventMap R) (requestType externalData : Text) :
    Except Crash (Option RequestError × EventMap R) :=
  match workflowOperation requestType with
  | some .workflowDelete => workflowDelete api clusterData eventMap externalData
  | some .workflowSync => workflowSync isPrint codec view api server order clusterData eventMap externalData
  | _ => return (none, eventMap)

end Request

end LitmusPortal.Agent
