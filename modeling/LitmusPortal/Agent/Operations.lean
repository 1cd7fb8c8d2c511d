import LitmusPortal.Agent.Handler
import LitmusPortal.Agent.Payload

/-!
# The operations on the cluster

`ClusterOperations` reads an object from the manifest of an action, labels it with the name of the user
and hands it to Kubernetes. Objects and their labels are those of the Kubernetes libraries.
-/

namespace LitmusPortal.Agent

open GoText GoJson

/-- `unstructured.Unstructured`. -/
structure ObjectAccess (O : Type) where
  getName : O → Text
  getLabels : O → GoMap Text
  setLabels : O → GoMap Text → O
  getResourceVersion : O → Text
  setResourceVersion : O → Text → O
  empty : O
  getLabels_setLabels : ∀ obj labels, getLabels (setLabels obj labels) = labels

def labelsOnly : ObjectAccess (GoMap Text) where
  getName _ := []
  getLabels labels := labels
  setLabels _ labels := labels
  getResourceVersion _ := []
  setResourceVersion labels _ := labels
  empty := ∅
  getLabels_setLabels _ _ := rfl

inductive ApiError where
  | notFound
  | alreadyExists
  | other (message : Text)
  deriving DecidableEq

/-- `dynamic.ResourceInterface`. -/
structure ResourceClient (O : Type) where
  create : O → Except ApiError O
  update : O → Except ApiError O
  get : Text → Except ApiError O
  delete : Text → Except ApiError Unit

/-- What reads a manifest and finds the resource of its kind. -/
structure Mapper (O G : Type) where
  jsonToYAML : Text → Except Text Text
  clients : Except Text Unit
  decode : Text → Except Text (O × G)
  /-- Whether the resource of the kind is in a namespace. -/
  restMapping : G → Except Text Bool
  resource : G → Option Text → ResourceClient O

structure Action where
  k8sManifest : Text
  externalData : Text
  requestType : Text
  username : Text
  nameSpace : Text

inductive Operation where
  | kubeObjects
  | logs
  | create
  | update
  | delete
  | get
  | workflowDelete
  | workflowSync
  deriving DecidableEq, Repr

/-- The comparisons of `applyRequest`. -/
def clusterOperation (requestType : Text) : Option Operation :=
  if requestType = ofString "create" then some .create
  else if requestType = ofString "update" then some .update
  else if requestType = ofString "delete" then some .delete
  else if requestType = ofString "get" then some .get
  else none

section Apply

variable {O G : Type} (access : ObjectAccess O)

/-- A pointer that may be nil, or an error. -/
def ApiError.answer (ignored : ApiError) : Except ApiError O → Except ApiError (Option O)
  | .ok response => .ok (some response)
  | .error err => if err = ignored then .ok none else .error err

def applyRequest (dr : ResourceClient O) (requestType : Text) (obj : O) : Except ApiError (Option O) :=
  match clusterOperation requestType with
  | some .create => ApiError.alreadyExists.answer (dr.create obj)
  | some .update => do
      match ← ApiError.notFound.answer (dr.get (access.getName obj)) with
      | none => return none
      | some getObj => do
          let response ← dr.update (access.setResourceVersion obj (access.getResourceVersion getObj))
          return some response
  | some .delete => ApiError.notFound.answer ((dr.delete (access.getName obj)).map fun _ => access.empty)
  | some .get => ApiError.notFound.answer (dr.get (access.getName obj))
  | _ => .error (.other (ofString "err: Invalid Request\n"))

def addCustomLabels (obj : O) (customLabels : GoMap Text) : O :=
  access.setLabels obj
    (customLabels.entries.foldl (fun newLabels entry => newLabels.insert entry.1 entry.2) (access.getLabels obj))

def executedBy : Text := ofString "executed_by"

def executorLabel (username : Text) : Text := ofChars (Base64.encodeRawURL (bytes username))

def labelled (obj : O) (username : Text) : O :=
  addCustomLabels access obj (AList.singleton executedBy (executorLabel username))

def clusterOperations (mapper : Mapper O G) (clusterAction : Action) : Except ApiError (Option O) := do
  let yamlStr ← (mapper.jsonToYAML clusterAction.k8sManifest).mapError .other
  mapper.clients.mapError .other
  let (obj, gvk) ← (mapper.decode yamlStr).mapError .other
  let obj := labelled access obj clusterAction.username
  let namespaced ← (mapper.restMapping gvk).mapError .other
  let dr := mapper.resource gvk (if namespaced then some clusterAction.nameSpace else none)
  applyRequest access dr clusterAction.requestType obj

end Apply

end LitmusPortal.Agent
