import LitmusPortal.Cluster.Endpoint
import LitmusPortal.DataStore.Connections

/-!
# The life of a cluster document

The handlers of the cluster package that write `cluster-collection`, and those that let an agent in
by its access key. What the environment contributes to a call (ids, keys, times, failures) is an
argument.
-/

namespace LitmusPortal

open DocumentStore GoStrings Connections

structure RegisterClusterRequest where
  clusterName : String
  description : Option String
  platformName : String
  projectID : String
  clusterType : String
  agentNamespace : Option String
  serviceAccount : Option String
  agentScope : String
  agentNsExists : Option Bool
  agentSaExists : Option Bool
  skipSsl : Option Bool
  nodeSelector : Option String
  tolerations : Option (List Toleration)
  deriving DecidableEq, Repr

structure RegisterClusterResponse where
  clusterID : String
  token : String
  clusterName : String
  deriving DecidableEq, Repr

/-- The endpoint, the new id, its token, the new key, the clock, and whether the insert fails. -/
structure RegisterSteps where
  endpoint : Except GoError String
  clusterID : String
  token : Except GoError String
  accessKey : String
  now : Int
  insertFails : Bool

def checkSelector (selector : String) : Except GoError Unit :=
  match splitAt (· = '=') selector with
  | [key, value] =>
      if contains key "\"" ∨ contains value "\"" then
        .error (.failed ("node selector environment variable contains escape character(s). Correct " ++
          "format: \"key1=value2,key2=value2\""))
      else .ok ()
  | _ => .error (.failed
      "node selector environment variable is not correct. Correct format: \"key1=value2,key2=value2\"")

def checkNodeSelector : Option String → Except GoError Unit
  | none => .ok ()
  | some nodeSelector => (splitAt (· = ',') nodeSelector).forM checkSelector

def newCluster (request : RegisterClusterRequest) (steps : RegisterSteps) (token : String) :
    Cluster where
  clusterID := steps.clusterID
  projectID := request.projectID
  clusterName := request.clusterName
  description := request.description
  platformName := request.platformName
  agentNamespace := request.agentNamespace
  serviceaccount := request.serviceAccount
  agentScope := request.agentScope
  agentNsExists := request.agentNsExists
  agentSaExists := request.agentSaExists
  accessKey := steps.accessKey
  isRegistered := false
  isClusterConfirmed := false
  isActive := false
  updatedAt := formatTime steps.now
  createdAt := formatTime steps.now
  clusterType := request.clusterType
  token := token
  isRemoved := false
  skipSSL := request.skipSsl
  nodeSelector := request.nodeSelector
  tolerations := request.tolerations
  startTime := formatTime steps.now
  version := ""

def checkRegistration (request : RegisterClusterRequest) (steps : RegisterSteps) :
    Except GoError String := do
  let endpoint ← steps.endpoint
  if endpoint = "" then .error (.failed "failed to retrieve the server endpoint") else .ok ()
  let token ← steps.token
  checkNodeSelector request.nodeSelector
  .ok token

def registerCluster (steps : RegisterSteps) (clusters : List Cluster)
    (request : RegisterClusterRequest) : Except GoError RegisterClusterResponse × List Cluster :=
  match checkRegistration request steps with
  | .error err => (.error err, clusters)
  | .ok token =>
      match insertCluster steps.insertFails clusters (newCluster request steps token) with
      | (.error err, clusters) => (.error err, clusters)
      | (.ok _, clusters) => (.ok ⟨steps.clusterID, token, request.clusterName⟩, clusters)

structure ConfirmClusterRegistrationResponse where
  isClusterConfirmed : Bool
  newAccessKey : Option String
  clusterID : Option String
  deriving DecidableEq, Repr

structure ConfirmSteps where
  newKey : String
  now : Int
  getFails : Bool
  updateFails : Bool
  deriving DecidableEq, Repr

/-- Unlike `VerifyCluster`, the confirmation wants the version of the server itself. -/
def checkConfirmVersion (version agentVersion : String) : Except GoError Unit :=
  if version ≠ agentVersion then
    .error (.failed ("ERROR: CLUSTER VERSION MISMATCH (need " ++ version ++ " got " ++ agentVersion ++
      ")"))
  else .ok ()

/-- The update of a confirmation: the key is replaced and the token is unset. -/
def confirm (newKey : String) (now : Int) (cluster : Cluster) : Cluster :=
  { cluster with
    token := ""
    accessKey := newKey
    isRegistered := true
    isClusterConfirmed := true
    updatedAt := formatTime now }

def notConfirmed : ConfirmClusterRegistrationResponse := ⟨false, none, none⟩

def confirmClusterRegistration (version : String) (steps : ConfirmSteps) (clusters : List Cluster)
    (request : ClusterIdentity) :
    Except GoError ConfirmClusterRegistrationResponse × List Cluster :=
  match checkConfirmVersion version request.version with
  | .error err => (.error err, clusters)
  | .ok _ =>
      match getCluster steps.getFails clusters request.clusterID with
      | .error err => (.error err, clusters)
      | .ok cluster =>
          if cluster.accessKey = request.accessKey then
            match updateCluster steps.updateFails clusters (ofCluster request.clusterID)
                (confirm steps.newKey steps.now) with
            | (.error err, clusters) => (.error err, clusters)
            | (.ok _, clusters) => (.ok ⟨true, some steps.newKey, some cluster.clusterID⟩, clusters)
          else (.ok notConfirmed, clusters)

structure NewClusterEventRequest where
  eventName : String
  description : String
  clusterID : String
  accessKey : String
  deriving DecidableEq, Repr

structure ClusterEventResponse where
  eventID : String
  eventType : String
  eventName : String
  description : String
  cluster : Cluster
  deriving DecidableEq, Repr

/-- The event that is sent to the observers of the project of the cluster, when there is one. -/
def newClusterEvent (eventID : String) (getFails : Bool) (clusters : List Cluster)
    (request : NewClusterEventRequest) : Except GoError String × Option ClusterEventResponse :=
  match getCluster getFails clusters request.clusterID with
  | .error err => (.error err, none)
  | .ok cluster =>
      if cluster.accessKey = request.accessKey ∧ cluster.isRegistered = true then
        (.ok "Event Published",
          some ⟨eventID, "cluster-event", request.eventName, request.description, cluster⟩)
      else (.error (.failed "ERROR WITH CLUSTER EVENT"), none)

structure DeleteSteps where
  now : Int
  username : String
  updateFails : Bool
  listFails : Bool
  deriving DecidableEq, Repr

def ofClusters (projectID : String) (clusterIDs : List String) (cluster : Cluster) : Bool :=
  cluster.projectID = projectID ∧ cluster.clusterID ∈ clusterIDs

def setRemovedCluster (now : Int) (cluster : Cluster) : Cluster :=
  { cluster with isRemoved := true, updatedAt := formatTime now }

def configMapManifest (agentNamespace : String) : String :=
  "\x7b\n\t\t   \t\t\"apiVersion\": \"v1\",\n\t\t   \t\t\"kind\": \"ConfigMap\",\n\t\t   \t\t" ++
    "\"metadata\": \x7b\n\t\t\t\t\t\"name\": \"agent-config\",\n\t\t\t\t\t\"namespace\": " ++
    agentNamespace ++ "\n\t\t   \t\t\x7d\n\t\t\t\x7d"

def deploymentManifest (agentNamespace : String) : String :=
  "\x7b\n\t\t\t\t\"apiVersion\": \"apps/v1\",\n\t\t\t\t\"kind\": \"Deployment\",\n\t\t\t\t" ++
    "\"metadata\": \x7b\n\t\t\t\t\t\"name\": \"subscriber\",\n\t\t\t\t\t\"namespace\": " ++
    agentNamespace ++ "\n\t\t\t\t\x7d\n\t\t\t\x7d"

/-- The clean-up requests for the clusters, as far as they all have a namespace. -/
def cleanUpRequests (username : String) : List Cluster → Except GoError Unit × List SubscriberRequests
  | [] => (.ok (), [])
  | cluster :: clusters =>
      match cluster.agentNamespace with
      | none => (.error (.panic "nil pointer dereference"), [])
      | some agentNamespace =>
          let (result, requests) := cleanUpRequests username clusters
          let request (manifest : String) : SubscriberRequests :=
            ⟨"delete", manifest, none, cluster.projectID, cluster.clusterID, agentNamespace,
              some username⟩
          (result, request (configMapManifest agentNamespace) ::
            request (deploymentManifest agentNamespace) :: requests)

/-- One document is updated, the first that matches; the requests are for every one that matches. -/
def deleteClusters (steps : DeleteSteps) (clusters : List Cluster) (projectID : String)
    (clusterIDs : List String) : Except GoError String × List Cluster × List SubscriberRequests :=
  match updateCluster steps.updateFails clusters (ofClusters projectID clusterIDs)
      (setRemovedCluster steps.now) with
  | (.error err, clusters) => (.error err, clusters, [])
  | (.ok _, clusters) =>
      if steps.listFails then (.ok "", clusters, [])
      else
        match cleanUpRequests steps.username (clusters.filter (ofClusters projectID clusterIDs)) with
        | (.error err, requests) => (.error err, clusters, requests)
        | (.ok _, requests) => (.ok "Successfully deleted clusters", clusters, requests)

/-! ### What the handlers do to a stored document -/

theorem storedCluster_registerCluster {steps : RegisterSteps} {clusters : List Cluster}
    {request : RegisterClusterRequest} {clusterID : String} {cluster : Cluster}
    (h : storedCluster clusters clusterID = some cluster) :
    storedCluster (registerCluster steps clusters request).2 clusterID = some cluster := by
  unfold registerCluster
  split
  · exact h
  · rename_i token _
    have hinsert : storedCluster (insertCluster steps.insertFails clusters
        (newCluster request steps token)).2 clusterID = some cluster :=
      storedCluster_insertCluster _ h
    split <;> rename_i hresult <;> rw [hresult] at hinsert <;> exact hinsert

theorem storedCluster_deleteClusters {steps : DeleteSteps} {clusters : List Cluster}
    {projectID clusterID : String} {clusterIDs : List String} {cluster : Cluster}
    (h : storedCluster clusters clusterID = some cluster) :
    storedCluster (deleteClusters steps clusters projectID clusterIDs).2.1 clusterID = some cluster ∨
      storedCluster (deleteClusters steps clusters projectID clusterIDs).2.1 clusterID =
        some (setRemovedCluster steps.now cluster) := by
  unfold deleteClusters
  cases steps.updateFails with
  | true => exact Or.inl h
  | false =>
      have hkeeps : ∀ cluster,
          (setRemovedCluster steps.now cluster).clusterID = cluster.clusterID := fun _ => rfl
      have hstored : storedCluster (updateFirst (ofClusters projectID clusterIDs)
            (setRemovedCluster steps.now) clusters) clusterID = some cluster ∨
          storedCluster (updateFirst (ofClusters projectID clusterIDs)
            (setRemovedCluster steps.now) clusters) clusterID =
              some (setRemovedCluster steps.now cluster) :=
        (storedCluster_updateFirst_cases hkeeps h).imp_right And.right
      simp only [updateCluster_succeeds]
      split
      · exact hstored
      · split <;> exact hstored

/-- What a request must bring for its confirmation to go through. -/
def Confirms (version : String) (steps : ConfirmSteps) (cluster : Cluster)
    (request : ClusterIdentity) : Prop :=
  version = request.version ∧ steps.getFails = false ∧ steps.updateFails = false ∧
    cluster.accessKey = request.accessKey

theorem confirmClusterRegistration_of_confirms {version : String} {steps : ConfirmSteps}
    {clusters : List Cluster} {request : ClusterIdentity} {cluster : Cluster}
    (hstored : storedCluster clusters request.clusterID = some cluster)
    (h : Confirms version steps cluster request) :
    confirmClusterRegistration version steps clusters request =
      (.ok ⟨true, some steps.newKey, some cluster.clusterID⟩,
        updateFirst (ofCluster request.clusterID) (confirm steps.newKey steps.now) clusters) := by
  obtain ⟨rfl, hget, hupdate, hkey⟩ := h
  simp [confirmClusterRegistration, checkConfirmVersion, hget, hupdate, getCluster_eq, hstored, hkey]

theorem confirmClusterRegistration_of_not_confirms {version : String} {steps : ConfirmSteps}
    {clusters : List Cluster} {request : ClusterIdentity}
    (h : ∀ cluster, storedCluster clusters request.clusterID = some cluster →
      ¬ Confirms version steps cluster request) :
    (confirmClusterRegistration version steps clusters request).2 = clusters ∧
      ∀ response, (confirmClusterRegistration version steps clusters request).1 = .ok response →
        response = notConfirmed := by
  unfold confirmClusterRegistration checkConfirmVersion
  by_cases hversion : version = request.version
  · cases hget : steps.getFails with
    | true => simp [hversion, getCluster]
    | false =>
        simp only [hversion, ne_eq, not_true_eq_false, if_false, getCluster_eq]
        cases hstored : storedCluster clusters request.clusterID with
        | none => simp
        | some cluster =>
            by_cases hkey : cluster.accessKey = request.accessKey
            · have hupdate : steps.updateFails = true := by
                by_contra hnot
                exact h cluster hstored ⟨hversion, hget, by simpa using hnot, hkey⟩
              simp [hkey, hupdate]
            · simp [hkey, eq_comm]
  · simp [hversion]

theorem storedCluster_confirm {clusters : List Cluster} {clusterID : String} {cluster : Cluster}
    {now : Int} (newKey : String) (h : storedCluster clusters clusterID = some cluster) :
    storedCluster (updateFirst (ofCluster clusterID) (confirm newKey now) clusters) clusterID =
      some (confirm newKey now cluster) := by
  have hkeeps : ∀ cluster, (confirm newKey now cluster).clusterID = cluster.clusterID := fun _ => rfl
  rw [storedCluster_updateFirst hkeeps, if_pos rfl, h]
  rfl

theorem storedCluster_confirm_of_ne {clusters : List Cluster} {clusterID other : String}
    (newKey : String) (now : Int) (h : other ≠ clusterID) :
    storedCluster (updateFirst (ofCluster clusterID) (confirm newKey now) clusters) other =
      storedCluster clusters other := by
  have hkeeps : ∀ cluster, (confirm newKey now cluster).clusterID = cluster.clusterID := fun _ => rfl
  rw [storedCluster_updateFirst hkeeps, if_neg h]

/-- A confirmed key lets its agent in, if the version does. -/
theorem verifyCluster_confirm {version clusterID newKey : String} {now : Int}
    {clusters : List Cluster} {cluster : Cluster}
    (hstored : storedCluster clusters clusterID = some cluster) :
    (∃ found, verifyCluster version false
        (updateFirst (ofCluster clusterID) (confirm newKey now) clusters)
        ⟨clusterID, newKey, version⟩ = .ok found) ↔ checkVersion version version = .ok () := by
  have hconfirmed : storedCluster
      (updateFirst (ofCluster clusterID) (confirm newKey now) clusters) clusterID =
        some (confirm newKey now cluster) := storedCluster_confirm newKey hstored
  have hidentity : clusterID = (ClusterIdentity.mk clusterID newKey version).clusterID := rfl
  rw [hidentity] at hconfirmed
  rw [verifyCluster_accepts_iff hconfirmed]
  simp [confirm]

end LitmusPortal
