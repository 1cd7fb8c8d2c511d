import LitmusPortal.Lib.GoStrings
import LitmusPortal.Schema

/-!
# The informers of the event tracker

Three informers watch the workloads of a cluster, one for each kind, and have the policies checked against the
new and the old object of an update. What a key of a condition selects, and how it is printed, is left open.
-/

namespace LitmusPortal.EventTracker

open LitmusPortal GoStrings

/-! ### Objects -/

inductive Kind where
  | deployment
  | statefulSet
  | daemonSet
  deriving DecidableEq, Repr

structure Workload where
  kind : Kind
  name : String
  resourceVersion : String
  annotations : List (String × String)
  json : String
  deriving DecidableEq, Repr

/-- An annotation that is not there reads as the empty string. -/
def Workload.annotation (object : Workload) (key : String) : String := (object.annotations.lookup key).getD ""

structure Condition where
  key : String
  value : Option String
  operator : String
  deriving DecidableEq, Repr

structure EventTrackerPolicyStatus where
  timeStamp : String
  resource : String
  resourceName : String
  result : String
  workflowID : String
  isTriggered : String
  deriving DecidableEq, Repr

structure EventTrackerPolicy where
  conditionType : String
  conditions : List Condition
  statuses : List EventTrackerPolicyStatus
  deriving DecidableEq, Repr

def conditionPassed : String := "ConditionPassed"

/-! ### Conditions -/

/-- What a key selects of a JSON document. -/
inductive Found where
  | null
  | bool (value : Bool)
  | number (value : ℚ)
  | string (value : String)
  | array (items : List Found)
  | object (members : List (String × Found))

/-- `jmespath.Search` and `fmt.Sprintf("%v", ...)`. -/
structure Queries where
  search : String → String → Except String Found
  sprint : Found → String

def uncomparable (type : String) : GoError := .panic ("runtime error: comparing uncomparable type " ++ type)

/-- `!=` of two interfaces: two slices or two maps are not compared. -/
def Found.differs : Found → Found → Except GoError Bool
  | .null, .null => .ok false
  | .bool left, .bool right => .ok (left ≠ right)
  | .number left, .number right => .ok (left ≠ right)
  | .string left, .string right => .ok (left ≠ right)
  | .array _, .array _ => .error (uncomparable "[]interface \x7b\x7d")
  | .object _, .object _ => .error (uncomparable "map[string]interface \x7b\x7d")
  | _, _ => .ok true

/-- Go compares strings byte by byte, which is the order of their characters. -/
def cases (key value operator : String) : Bool :=
  match operator with
  | "EqualTo" => key = value
  | "NotEqualTo" => key ≠ value
  | "LessThan" => key < value
  | "GreaterThan" => value < key
  | "GreaterThanEqualTo" => value ≤ key
  | "LessThanEqualTo" => key ≤ value
  | _ => false

def nilPointer : GoError := .panic "runtime error: invalid memory address or nil pointer dereference"

/-- A condition that is met by a difference. -/
def Condition.met (queries : Queries) (condition : Condition) (newDataResult : Found) : Except GoError Bool :=
  if condition.operator = "Change" then .ok true
  else
    match condition.value with
    | none => .error nilPointer
    | some value => .ok (cases (queries.sprint newDataResult) value condition.operator)

/-- All differences must meet their conditions; the first that does not ends the loop. -/
def checkAnd (queries : Queries) (newData oldData : String) : Bool → List Condition → Except GoError Bool
  | finalResult, [] => .ok finalResult
  | finalResult, condition :: conditions =>
      match queries.search condition.key newData with
      | .error _ => .ok false
      | .ok newDataResult =>
          match queries.search condition.key oldData with
          | .error _ => .ok false
          | .ok oldDataResult => do
              let differ ← newDataResult.differs oldDataResult
              if differ then
                let met ← condition.met queries newDataResult
                if met then checkAnd queries newData oldData true conditions else return false
              else checkAnd queries newData oldData finalResult conditions

/-- One difference that meets its condition is enough; an error about the new object leaves nothing. -/
def checkOr (queries : Queries) (newData oldData : String) : Bool → List Condition → Except GoError Bool
  | finalResult, [] => .ok finalResult
  | finalResult, condition :: conditions =>
      let newDataResult := (queries.search condition.key newData).toOption.getD .null
      match queries.search condition.key oldData with
      | .error _ => .ok false
      | .ok oldDataResult => do
          let differ ← newDataResult.differs oldDataResult
          if differ then
            let met ← condition.met queries newDataResult
            checkOr queries newData oldData (met || finalResult) conditions
          else checkOr queries newData oldData finalResult conditions

def conditionChecker (queries : Queries) (etp : EventTrackerPolicy) (newData oldData : String) :
    Except GoError Bool :=
  if etp.conditionType = "and" then checkAnd queries newData oldData false etp.conditions
  else if etp.conditionType = "or" then checkOr queries newData oldData false etp.conditions
  else .ok false

/-! ### The auditor -/

/-- What the auditor finds around it: the names of the policies, and which calls fail. -/
structure Api where
  queries : Queries
  policies : List String
  kubeConfig : Except String Unit
  dynamicClient : Except String Unit
  list : Except String Unit
  get : String → Except String EventTrackerPolicy
  update : String → Except String Unit
  now : String

/-- What an event has led to: the policies that were evaluated, on which objects, the statuses that were
added to policies, and how it ended. -/
structure Audit where
  evaluated : List (String × String × String)
  recorded : List (String × EventTrackerPolicyStatus)
  outcome : Except GoError Unit

def Audit.ended (outcome : Except GoError Unit) : Audit := ⟨[], [], outcome⟩

/-- `object.(*v1.Deployment)` and its kin. -/
def Workload.assertKind (object : Workload) (kind : Kind) : Except GoError Unit :=
  if object.kind = kind then .ok () else .error (.panic "interface conversion")

def kindOf : String → Option Kind
  | "deployment" => some .deployment
  | "statefulset" => some .statefulSet
  | "daemonset" => some .daemonSet
  | _ => none

/-- The data of the two objects, as the objects of the kind that the resource type names. -/
def dataOf (resourceType : String) (newObj oldObj : Workload) : Except GoError (String × String) :=
  match kindOf (toLower resourceType) with
  | none => .error (.failed "resource not supported")
  | some kind => do
      newObj.assertKind kind
      oldObj.assertKind kind
      return (newObj.json, oldObj.json)

def passedStatus (api : Api) (resourceType resourceName workflowid : String) : EventTrackerPolicyStatus where
  timeStamp := api.now
  resource := resourceType
  resourceName := resourceName
  result := conditionPassed
  workflowID := workflowid
  isTriggered := "false"

def auditPolicies (api : Api) (resourceType : String) (newObj oldObj : Workload) (workflowid : String) :
    List String → Audit
  | [] => .ended (.ok ())
  | name :: names =>
      match api.get name with
      | .error err => .ended (.error (.failed err))
      | .ok etp =>
          match dataOf resourceType newObj oldObj with
          | .error err => .ended (.error err)
          | .ok (newData, oldData) =>
              let rest := auditPolicies api resourceType newObj oldObj workflowid names
              match conditionChecker api.queries etp newData oldData with
              | .error err => ⟨[(name, newData, oldData)], [], .error err⟩
              | .ok false => { rest with evaluated := (name, newData, oldData) :: rest.evaluated }
              | .ok true =>
                  match api.update name with
                  | .error err => ⟨[(name, newData, oldData)], [], .error (.failed err)⟩
                  | .ok _ =>
                      { rest with
                        evaluated := (name, newData, oldData) :: rest.evaluated
                        recorded := (name, passedStatus api resourceType newObj.name workflowid) :: rest.recorded }

def policyAuditor (api : Api) (resourceType : String) (newObj oldObj : Workload) (workflowid : String) :
    Audit :=
  match api.kubeConfig, api.dynamicClient, api.list with
  | .error err, _, _ => .ended (.error (.failed err))
  | _, .error err, _ => .ended (.error (.failed err))
  | _, _, .error err => .ended (.error (.failed err))
  | .ok _, .ok _, .ok _ => auditPolicies api resourceType newObj oldObj workflowid api.policies

/-! ### The informers -/

/-- What the update functions do with the two objects they have taken. -/
def onUpdate (api : Api) (newObj oldObj : Workload) : Audit :=
  let worflowid := newObj.annotation "litmuschaos.io/workflow"
  if newObj.resourceVersion ≠ oldObj.resourceVersion ∧ newObj ≠ oldObj ∧
      newObj.annotation "litmuschaos.io/gitops" = "true" ∧ worflowid ≠ "" then
    policyAuditor api "Deployment" newObj oldObj worflowid
  else .ended (.ok ())

/-- The objects of an event are taken as objects of a kind. -/
def takeObjects (kind : Kind) (oldObj newObj : Workload) (update : Audit) : Audit :=
  match newObj.assertKind kind, oldObj.assertKind kind with
  | .error err, _ => .ended (.error err)
  | _, .error err => .ended (.error err)
  | .ok _, .ok _ => update

def runDeploymentInformer (api : Api) (oldObj newObj : Workload) : Audit :=
  takeObjects .deployment oldObj newObj (onUpdate api newObj oldObj)

def runStsInformer (api : Api) (oldObj newObj : Workload) : Audit :=
  takeObjects .statefulSet oldObj newObj (onUpdate api newObj oldObj)

/-- The old object is taken from the new one. -/
def runDSInformer (api : Api) (_ newObj : Workload) : Audit :=
  takeObjects .daemonSet newObj newObj (onUpdate api newObj newObj)

def runInformer : Kind → Api → Workload → Workload → Audit
  | .deployment => runDeploymentInformer
  | .statefulSet => runStsInformer
  | .daemonSet => runDSInformer

end LitmusPortal.EventTracker
