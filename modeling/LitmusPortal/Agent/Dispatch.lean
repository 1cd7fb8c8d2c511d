import LitmusPortal.Agent.Panics

/-!
# Which handler an action goes to

`RequestProcessor` looks the type of a request up in three lists of words, each time asking whether the
type is a part of the list. The handlers for operations on the cluster and for workflows compare the type
again, this time with the case of its letters.
-/

namespace LitmusPortal.Agent

open GoText GoJson

variable {R O G : Type}

/-! ### What the server sends -/

structure KubeGVRRequest where
  group : Text
  version : Text
  resource : Text

structure KubeObjRequest where
  requestID : Text
  clusterID : Text
  objectType : Text
  kubeGVRRequest : KubeGVRRequest

structure PodLogRequest where
  requestID : Text
  clusterID : Text
  workflowRunID : Text
  podName : Text
  podNamespace : Text
  podType : Text
  expPod : Option Text
  runnerPod : Option Text
  chaosNamespace : Option Text

structure ClusterConnect where
  projectID : Text
  action : Action

def gvrFields : List (StructField KubeGVRRequest) :=
  [stringField "group" (·.group) fun data text => { data with group := text },
    stringField "version" (·.version) fun data text => { data with version := text },
    stringField "resource" (·.resource) fun data text => { data with resource := text }]

def kubeObjFields : List (StructField KubeObjRequest) :=
  [stringField "RequestID" (·.requestID) fun data text => { data with requestID := text },
    stringField "clusterID" (·.clusterID) fun data text => { data with clusterID := text },
    stringField "objectType" (·.objectType) fun data text => { data with objectType := text },
    ⟨"kubeObjRequest", fun json data => do
      let gvr ← decodeStruct gvrFields json data.kubeGVRRequest
      return { data with kubeGVRRequest := gvr }⟩]

def pointerField {S : Type} (tag : String) (get : S → Option Text) (set : S → Option Text → S) : StructField S where
  tag := tag
  store json value := do
    let text ← decodePointer decodeString [] json (get value)
    return set value text

def podLogFields : List (StructField PodLogRequest) :=
  [stringField "RequestID" (·.requestID) fun data text => { data with requestID := text },
    stringField "clusterID" (·.clusterID) fun data text => { data with clusterID := text },
    stringField "workflowRunID" (·.workflowRunID) fun data text => { data with workflowRunID := text },
    stringField "podName" (·.podName) fun data text => { data with podName := text },
    stringField "podNamespace" (·.podNamespace) fun data text => { data with podNamespace := text },
    stringField "podType" (·.podType) fun data text => { data with podType := text },
    pointerField "expPod" (·.expPod) fun data text => { data with expPod := text },
    pointerField "runnerPod" (·.runnerPod) fun data text => { data with runnerPod := text },
    pointerField "chaosNamespace" (·.chaosNamespace) fun data text => { data with chaosNamespace := text }]

/-! ### The processor -/

inductive Handler where
  | sendKubeObjects
  | sendPodLogs
  | clusterOperations
  | workflowRequest
  deriving DecidableEq, Repr

inductive Cause where
  | json (error : DecodeError)
  | text (message : Text)
  | api (error : ApiError)
  | request (error : RequestError)

structure ProcessorError where
  context : String
  cause : Cause

/-- What the handlers work with. The logs are sent without an answer. -/
structure Handlers (R O G : Type) where
  isPrint : Char → Bool
  codec : ChaosResultCodec R
  view : ChaosResultView R
  api : Api R
  server : Text → Except Text Text
  order : RangeOrder (Node R)
  clusterData : ClusterData
  sendKubeObjects : KubeObjRequest → Except Text Unit
  access : ObjectAccess O
  mapper : Mapper O G

/-- The handlers that have been entered, and how the last one has ended. -/
structure Outcome (R : Type) where
  ran : List Handler
  result : Except Crash (Option ProcessorError × EventMap R)

variable (handlers : Handlers R O G)

def Handlers.handleKubeObjects (r : ClusterConnect) : Option ProcessorError :=
  let zero : KubeObjRequest := ⟨r.projectID, [], [], ⟨[], [], []⟩⟩
  match unmarshal (decodeStruct kubeObjFields) zero r.action.externalData with
  | .error err => some ⟨"failed to json unmarshal: ", .json err⟩
  | .ok request =>
      match handlers.sendKubeObjects request with
      | .error err => some ⟨"error getting kubernetes object data: ", .text err⟩
      | .ok _ => none

def handlePodLogs (r : ClusterConnect) : Option ProcessorError :=
  let zero : PodLogRequest := ⟨r.projectID, [], [], [], [], [], none, none, none⟩
  match unmarshal (decodeStruct podLogFields) zero r.action.externalData with
  | .error err => some ⟨"error reading cluster-action request [external-data]: ", .json err⟩
  | .ok _ => none

def Handlers.handleClusterOperations (r : ClusterConnect) : Option ProcessorError :=
  match clusterOperations handlers.access handlers.mapper r.action with
  | .error err => some ⟨"error performing cluster operation: ", .api err⟩
  | .ok _ => none

def Handlers.handleWorkflowRequest (eventMap : EventMap R) (r : ClusterConnect) :
    Except Crash (Option ProcessorError × EventMap R) := do
  let (err, eventMap) ← workflowRequest handlers.isPrint handlers.codec handlers.view handlers.api handlers.server
    handlers.order handlers.clusterData eventMap r.action.requestType r.action.externalData
  return (err.map fun err => ⟨"error performing events operation: ", .request err⟩, eventMap)

def kubeWords : Text := ofString "kubeobject kubeobjects"

def clusterWords : Text := ofString "create update delete get"

def workflowWords : Text := ofString "workflow_delete workflow_sync"

def Handlers.processRest (eventMap : EventMap R) (r : ClusterConnect) : Outcome R :=
  if lower r.action.requestType = ofString "logs" then ⟨[.sendPodLogs], .ok (handlePodLogs r, eventMap)⟩
  else if lower r.action.requestType <:+: clusterWords then
    ⟨[.clusterOperations], .ok (handlers.handleClusterOperations r, eventMap)⟩
  else if lower r.action.requestType <:+: workflowWords then
    ⟨[.workflowRequest], handlers.handleWorkflowRequest eventMap r⟩
  else ⟨[], .ok (none, eventMap)⟩

def Handlers.requestProcessor (eventMap : EventMap R) (r : ClusterConnect) : Outcome R :=
  if lower r.action.requestType <:+: kubeWords then
    match handlers.handleKubeObjects r with
    | some err => ⟨[.sendKubeObjects], .ok (some err, eventMap)⟩
    | none =>
        let rest := handlers.processRest eventMap r
        ⟨.sendKubeObjects :: rest.ran, rest.result⟩
  else handlers.processRest eventMap r

/-! ### The operation that is named and the one that is performed -/

def operationWords : List (Text × Operation) :=
  [(ofString "kubeobject", .kubeObjects), (ofString "kubeobjects", .kubeObjects), (ofString "logs", .logs),
    (ofString "create", .create), (ofString "update", .update), (ofString "delete", .delete),
    (ofString "get", .get), (ofString "workflow_delete", .workflowDelete),
    (ofString "workflow_sync", .workflowSync)]

def named (requestType : Text) : Option Operation := operationWords.lookup (lower requestType)

/-- What a handler does for a type: the last two compare the type themselves. -/
def Handler.performed : Handler → Text → Option Operation
  | .sendKubeObjects, _ => some .kubeObjects
  | .sendPodLogs, _ => some .logs
  | .clusterOperations, requestType => clusterOperation requestType
  | .workflowRequest, requestType => workflowOperation requestType

structure DispatchIsExact (eventMap : EventMap R) (r : ClusterConnect) : Prop where
  someRuns : (handlers.requestProcessor eventMap r).ran ≠ [] ↔ (named r.action.requestType).isSome
  performs : ∀ operation, named r.action.requestType = some operation →
    ∃ handler, (handlers.requestProcessor eventMap r).ran = [handler] ∧
      handler.performed r.action.requestType = some operation

def anyCaseWords : List Text := [ofString "kubeobject", ofString "kubeobjects", ofString "logs"]

def lowerCaseWords : List Text :=
  [ofString "create", ofString "update", ofString "delete", ofString "get", ofString "workflow_delete",
    ofString "workflow_sync"]

/-- The type in lower case is part of no list. -/
def NoWord (word : Text) : Prop :=
  ¬ word <:+: kubeWords ∧ ¬ word <:+: clusterWords ∧ ¬ word <:+: workflowWords ∧ word ≠ ofString "logs"

/-- Types that the lists and the handlers take for the same, or that are part of no list. -/
def Unambiguous (requestType : Text) : Prop :=
  lower requestType ∈ anyCaseWords ∨ requestType ∈ lowerCaseWords ∨
    NoWord (lower requestType)

/-- The branches after the one for objects, by the type in lower case. -/
def route (word : Text) : List Handler :=
  if word = ofString "logs" then [.sendPodLogs]
  else if word <:+: clusterWords then [.clusterOperations]
  else if word <:+: workflowWords then [.workflowRequest]
  else []

def Operation.handler : Operation → Handler
  | .kubeObjects => .sendKubeObjects
  | .logs => .sendPodLogs
  | .create | .update | .delete | .get => .clusterOperations
  | .workflowDelete | .workflowSync => .workflowRequest

variable {handlers} {eventMap : EventMap R} {r : ClusterConnect} {operation : Operation} {requestType : Text}

theorem ran_processRest :
    (handlers.processRest eventMap r).ran = route (lower r.action.requestType) := by
  rw [Handlers.processRest, route]
  split_ifs <;> rfl

theorem ran_of_not_kube (h : ¬ lower r.action.requestType <:+: kubeWords) :
    (handlers.requestProcessor eventMap r).ran = route (lower r.action.requestType) := by
  rw [Handlers.requestProcessor, if_neg h, ran_processRest]

theorem ran_of_kube (h : lower r.action.requestType <:+: kubeWords) :
    (handlers.requestProcessor eventMap r).ran = [.sendKubeObjects] ∨
      (handlers.requestProcessor eventMap r).ran = .sendKubeObjects :: route (lower r.action.requestType) := by
  rw [Handlers.requestProcessor, if_pos h, ← ran_processRest]
  cases handlers.handleKubeObjects r with
  | some err => exact .inl rfl
  | none => exact .inr rfl

theorem route_of_mem {entry : Text × Operation} (h : entry ∈ operationWords) :
    entry.1 <:+: kubeWords ∧ route entry.1 = [] ∧ entry.2.handler = .sendKubeObjects ∨
      ¬ entry.1 <:+: kubeWords ∧ route entry.1 = [entry.2.handler] := by
  have hall : ∀ entry ∈ operationWords,
      entry.1 <:+: kubeWords ∧ route entry.1 = [] ∧ entry.2.handler = .sendKubeObjects ∨
        ¬ entry.1 <:+: kubeWords ∧ route entry.1 = [entry.2.handler] := by decide +kernel
  exact hall entry h

theorem ran_of_mem (h : (lower r.action.requestType, operation) ∈ operationWords) :
    (handlers.requestProcessor eventMap r).ran = [operation.handler] := by
  rcases route_of_mem h with ⟨hkube, hroute, hhandler⟩ | ⟨hkube, hroute⟩
  · have hran := @ran_of_kube R O G handlers eventMap r hkube
    rw [hroute, or_self] at hran
    rw [hran, ← hhandler]
  · rw [ran_of_not_kube hkube]
    exact hroute

theorem mem_of_named (h : named requestType = some operation) : (lower requestType, operation) ∈ operationWords := by
  obtain ⟨front, back, hwords, -⟩ := List.lookup_eq_some_iff.mp h
  rw [hwords]
  exact List.mem_append_right _ List.mem_cons_self

theorem clusterOperation_mem (h : clusterOperation requestType = some operation) : requestType ∈ lowerCaseWords := by
  rw [clusterOperation] at h
  split_ifs at h with hcreate hupdate hdelete hget
  · simp [lowerCaseWords, hcreate]
  · simp [lowerCaseWords, hupdate]
  · simp [lowerCaseWords, hdelete]
  · simp [lowerCaseWords, hget]

theorem workflowOperation_mem (h : workflowOperation requestType = some operation) :
    requestType ∈ lowerCaseWords := by
  rw [workflowOperation] at h
  split_ifs at h with hdelete hsync
  · simp [lowerCaseWords, hdelete]
  · simp [lowerCaseWords, hsync]

/-- The handler of a named operation performs it if it takes any case, or the type is in lower case. -/
theorem performed_iff (h : (lower requestType, operation) ∈ operationWords) :
    operation.handler.performed requestType = some operation ↔
      lower requestType ∈ anyCaseWords ∨ requestType ∈ lowerCaseWords := by
  have hanyCase : ∀ entry ∈ operationWords, entry.2 = .kubeObjects ∨ entry.2 = .logs ↔ entry.1 ∈ anyCaseWords := by
    decide +kernel
  have hlowerCase : ∀ word ∈ lowerCaseWords, lower word = word := by decide +kernel
  have hsame : ∀ entry ∈ operationWords, entry.2.handler.performed entry.1 = some entry.2 := by decide +kernel
  constructor
  · intro hperformed
    cases operation with
    | kubeObjects => exact .inl ((hanyCase _ h).mp (.inl rfl))
    | logs => exact .inl ((hanyCase _ h).mp (.inr rfl))
    | create | update | delete | get => exact .inr (clusterOperation_mem hperformed)
    | workflowDelete | workflowSync => exact .inr (workflowOperation_mem hperformed)
  · rintro (hany | hlower)
    · rcases (hanyCase _ h).mpr hany with rfl | rfl <;> rfl
    · have hword := hsame _ h
      rw [hlowerCase _ hlower] at hword
      exact hword

theorem named_of_unambiguous (h : lower requestType ∈ anyCaseWords ∨ requestType ∈ lowerCaseWords) :
    (named requestType).isSome := by
  have hanyCase : ∀ word ∈ anyCaseWords, (operationWords.lookup word).isSome := by decide +kernel
  have hlowerCase : ∀ word ∈ lowerCaseWords, (operationWords.lookup (lower word)).isSome := by decide +kernel
  exact h.elim (hanyCase _) (hlowerCase _)

theorem route_eq_nil_iff {word : Text} :
    route word = [] ↔ ¬ word <:+: clusterWords ∧ ¬ word <:+: workflowWords ∧ word ≠ ofString "logs" := by
  rw [route]
  split_ifs with hlogs hcluster hworkflow
  · exact iff_of_false not_false fun h => h.2.2 hlogs
  · exact iff_of_false not_false fun h => h.1 hcluster
  · exact iff_of_false not_false fun h => h.2.1 hworkflow
  · exact iff_of_true rfl ⟨hcluster, hworkflow, hlogs⟩

theorem ran_eq_nil_iff :
    (handlers.requestProcessor eventMap r).ran = [] ↔ NoWord (lower r.action.requestType) := by
  by_cases hkube : lower r.action.requestType <:+: kubeWords
  · refine iff_of_false (fun hnil => ?_) fun h => h.1 hkube
    rcases @ran_of_kube R O G handlers eventMap r hkube with hran | hran <;> rw [hran] at hnil <;> cases hnil
  · rw [ran_of_not_kube hkube, route_eq_nil_iff, NoWord, and_iff_right hkube]

theorem not_noWord_of_mem {entry : Text × Operation} (h : entry ∈ operationWords) : ¬ NoWord entry.1 := by
  rintro ⟨hkube, hrest⟩
  rcases route_of_mem h with ⟨hin, -⟩ | ⟨-, hroute⟩
  · exact hkube hin
  · rw [route_eq_nil_iff.mpr hrest] at hroute
    cases hroute

theorem dispatchIsExact_iff :
    DispatchIsExact handlers eventMap r ↔ Unambiguous r.action.requestType := by
  have hunambiguous : Unambiguous r.action.requestType ↔
      (lower r.action.requestType ∈ anyCaseWords ∨ r.action.requestType ∈ lowerCaseWords) ∨
        NoWord (lower r.action.requestType) := or_assoc.symm
  rw [hunambiguous]
  cases hnamed : named r.action.requestType with
  | none =>
      have hneither : ¬ (lower r.action.requestType ∈ anyCaseWords ∨ r.action.requestType ∈ lowerCaseWords) := by
        intro h
        have hsome := named_of_unambiguous h
        rw [hnamed] at hsome
        cases hsome
      rw [or_iff_right hneither, ← @ran_eq_nil_iff R O G handlers eventMap]
      constructor
      · intro h
        by_contra hran
        have hsome := h.someRuns.mp hran
        rw [hnamed] at hsome
        cases hsome
      · intro hran
        refine ⟨iff_of_false (not_not.mpr hran) (by simp [hnamed]), fun operation h => ?_⟩
        rw [hnamed] at h
        cases h
  | some operation =>
      have hmem := mem_of_named hnamed
      rw [or_iff_left (not_noWord_of_mem hmem), ← performed_iff hmem]
      have hran := @ran_of_mem R O G handlers eventMap r operation hmem
      constructor
      · intro h
        obtain ⟨handler, hhandler, hperformed⟩ := h.performs operation hnamed
        obtain rfl : operation.handler = handler := by simpa using hran.symm.trans hhandler
        exact hperformed
      · intro hperformed
        refine ⟨iff_of_true (by simp [hran]) (by simp [hnamed]), fun operation' h => ?_⟩
        obtain rfl := Option.some.inj (hnamed.symm.trans h)
        exact ⟨operation.handler, hran, hperformed⟩

def DispatchesAreExact : Prop :=
  ∀ (R O G : Type) (handlers : Handlers R O G) (eventMap : EventMap R) (r : ClusterConnect),
    DispatchIsExact handlers eventMap r

def noKinds : Mapper (GoMap Text) Unit where
  jsonToYAML text := .ok text
  clients := .ok ()
  decode _ := .ok (∅, ())
  restMapping _ := .error (ofString "no matches for kind")
  resource _ _ := ⟨.ok, .ok, fun _ => .error .notFound, fun _ => .error .notFound⟩

def plainHandlers : Handlers Unit (GoMap Text) Unit where
  isPrint _ := true
  codec := emptyCodec
  view := ⟨id, fun _ => [], fun _ => []⟩
  api := emptyCluster
  server := .ok
  order := .asStored
  clusterData := ⟨⟨[], [], []⟩, [], "0"⟩
  sendKubeObjects _ := .ok ()
  access := labelsOnly
  mapper := noKinds

def createRequest : ClusterConnect := ⟨[], ⟨[], [], ofString "Create", [], []⟩⟩

/-- `Create` goes to the operations on the cluster, which know no such type. -/
theorem not_dispatchesAreExact : ¬ DispatchesAreExact := by
  intro h
  obtain ⟨handler, hran, hperformed⟩ :=
    (h Unit (GoMap Text) Unit plainHandlers (fun _ => none) createRequest).performs .create (by decide)
  have hroute : (plainHandlers.requestProcessor (fun _ => none) createRequest).ran = [.clusterOperations] := by
    rw [ran_of_not_kube (by decide)]
    decide
  obtain rfl : .clusterOperations = handler := List.head_eq_of_cons_eq (hroute.symm.trans hran)
  cases hperformed

end LitmusPortal.Agent
