import LitmusPortal.GitOps.Deletion
import LitmusPortal.Lib.Json.Unmarshal

/-!
# Notifications of the event tracker

The mutation `gitopsNotifier` of the server, the request an agent makes for it, and what the agent reads of
the answer.
-/

namespace LitmusPortal.EventTracker

open LitmusPortal GoStrings DocumentStore Connections GoText GoJson

/-! ### The server -/

structure NotificationFaults where
  getCluster : Bool
  getGitConfig : Bool
  getWorkflows : Bool
  deriving DecidableEq, Repr

/-- What the handler finds when it runs. `setName` is `sjson.Set` at `metadata.name`. -/
structure Server where
  version : String
  agentNamespace : String
  codec : Codec
  setName : String → String → Except String String
  now : Int
  clusters : List LitmusPortal.Cluster
  configs : GitConfigs
  workflows : Workflows
  faults : NotificationFaults

def gitopsDisabled : String := "Gitops Disabled"

def acknowledged (workflowID : String) : String := "Request Acknowledged for workflowID: " ++ workflowID

/-- What `err.Error()` is; the server recovers from a panic. -/
def errorMessage : GoError → String
  | .failed message => message
  | .panic _ => "internal system error"

def notificationQuery (clusterInfo : ClusterIdentity) (workflowID : String) (workflow : ChaosWorkFlow) : Bool :=
  workflow.clusterID = clusterInfo.clusterID && workflow.workflowID = workflowID && workflow.isRemoved = false

/-- The answer, and the request that is sent to the subscriber. -/
def gitOpsNotificationHandler (server : Server) (clusterInfo : ClusterIdentity) (workflowID : String) :
    Except GoError String × List SubscriberRequests :=
  match verifyCluster server.version server.faults.getCluster server.clusters clusterInfo with
  | .error err => (.error err, [])
  | .ok cInfo =>
      match getGitConfig server.faults.getGitConfig server.configs cInfo.projectID with
      | .error err => (.error (.failed ("Cannot get Git Config from DB : " ++ errorMessage err)), [])
      | .ok none => (.ok gitopsDisabled, [])
      | .ok (some _) =>
          match getWorkflows server.faults.getWorkflows server.workflows
              (notificationQuery clusterInfo workflowID) with
          | .error err => (.error err, [])
          | .ok [] => (.error (.failed "no such workflow found"), [])
          | .ok (workflow :: _) =>
              if toLower (server.codec.jsonGet workflow.workflowManifest "kind") = "cronworkflow" then
                (.ok (acknowledged workflowID), [])
              else
                match server.setName workflow.workflowManifest
                    (workflow.workflowName ++ "-" ++ formatTime server.now) with
                | .error err => (.error (.failed ("Failed to updated workflow name " ++ err)), [])
                | .ok workflowManifest =>
                    (.ok (acknowledged workflowID), [workflowRequest server.codec server.agentNamespace
                      workflow.projectID workflow.clusterID workflowManifest "create" (some "git-ops")])

/-- The trigger of a workflow is accepted where the handler acknowledges it. -/
def Server.accepts (server : Server) (clusterInfo : ClusterIdentity) (workflowID : String) : Bool :=
  match (gitOpsNotificationHandler server clusterInfo workflowID).1 with
  | .ok answer => answer = acknowledged workflowID
  | .error _ => false

/-- The response of the GraphQL server: an error leaves no data. -/
def response : Except GoError String → Json
  | .ok answer => .obj [field "data" (.obj [field "gitopsNotifier" (.str (ofString answer))])]
  | .error err => .obj
      [field "errors" (.arr [.obj
        [field "message" (.str (ofString (errorMessage err))),
          field "path" (.arr [.str (ofString "gitopsNotifier")])]]),
        field "data" null]

/-! ### The request -/

/-- What becomes of the answer of the handler. -/
inductive Delivery where
  | arrives
  | lost (err : String)
  | notOk

/-- A request for which the handler does not run, or for which it does. -/
inductive Exchange where
  | unhandled (reply : Except String (Option Text))
  | handled (server : Server) (delivery : Delivery)

def Exchange.accepts (clusterInfo : ClusterIdentity) (workflowID : String) : Exchange → Bool
  | .unhandled _ => false
  | .handled server _ => server.accepts clusterInfo workflowID

def notReachable : Text := ofString "URL is not reachable or Bad request"

/-- A status other than 200 is no error. -/
def sendRequest (clusterInfo : ClusterIdentity) (workflowID : String) : Exchange → Except String Text
  | .unhandled (.error err) => .error err
  | .unhandled (.ok none) => .ok notReachable
  | .unhandled (.ok (some body)) => .ok body
  | .handled server .arrives =>
      .ok (marshal (response (gitOpsNotificationHandler server clusterInfo workflowID).1))
  | .handled _ (.lost err) => .error err
  | .handled _ .notOk => .ok notReachable

/-! ### The answer -/

/-- `Data`, with its one field. -/
def dataFields : List (StructField Text) := [stringField "gitopsNotifer" id fun _ text => text]

/-- `apiResponse` -/
def apiResponseFields : List (StructField Text) := [⟨"data", decodeStruct dataFields⟩]

/-- `res.Data.GitopsNotifer` -/
def readResponse (text : Text) : Except DecodeError Text := unmarshal (decodeStruct apiResponseFields) [] text

theorem parse_notReachable : parse notReachable = none := by
  decide +kernel

theorem readResponse_notReachable : readResponse notReachable = .error .malformed := by
  rw [readResponse, unmarshal, parse_notReachable]

theorem find_data : (apiResponseFields.find? fun field => field.tag = "data") =
    some ⟨"data", decodeStruct dataFields⟩ := by
  simp [apiResponseFields]

theorem gitopsNotifier_unknown :
    ∀ tag ∈ dataFields.map (·.tag), equalFold (ofString tag) (ofString "gitopsNotifier") = false := by
  decide

theorem errors_unknown :
    ∀ tag ∈ apiResponseFields.map (·.tag), equalFold (ofString tag) (ofString "errors") = false := by
  decide

/-- Every answer of the server reads as the empty string. -/
theorem readResponse_response (answer : Except GoError String) :
    readResponse (marshal (response answer)) = .ok [] := by
  rw [readResponse, unmarshal, parse_marshal]
  cases answer with
  | ok answer =>
      have hdata : Stores dataFields [field "gitopsNotifier" (.str (GoText.sanitize (ofString answer)))] [] [] :=
        Stores.unknown gitopsNotifier_unknown (Stores.nil _ _)
      have hresponse : Stores apiResponseFields [field "data"
          (.obj [field "gitopsNotifier" (.str (GoText.sanitize (ofString answer)))])] [] [] :=
        Stores.tag find_data hdata (Stores.nil _ _)
      simp only [response, sanitize_obj, List.map_cons, List.map_nil, sanitize_field, sanitize_str]
      exact hresponse
  | error err =>
      simp only [response, sanitize_obj, List.map_cons, List.map_nil, sanitize_field, sanitize_null]
      exact Stores.unknown errors_unknown (Stores.tag find_data rfl (Stores.nil _ _))

end LitmusPortal.EventTracker
