import LitmusPortal.Schema
import LitmusPortal.Lib.GoStrings

/-!
# The endpoint of the server

`GetEndpoint` and what it asks of Kubernetes. `Kubernetes` holds the answers of the client, so that
the endpoint is a function of the environment and of the type of the agent.
-/

namespace LitmusPortal

open GoStrings

structure ServicePort where
  name : String
  port : Int
  nodePort : Int
  deriving DecidableEq, Repr

structure LoadBalancerIngress where
  hostname : String
  ip : String
  deriving DecidableEq, Repr

structure Service where
  ports : List ServicePort
  type : String
  clusterIP : String
  loadBalancer : List LoadBalancerIngress
  deriving DecidableEq, Repr

/-- `backend` is the name of the service behind the path. -/
structure IngressPath where
  path : String
  backend : Option String
  deriving DecidableEq, Repr

structure IngressRule where
  host : String
  http : Option (List IngressPath)
  deriving DecidableEq, Repr

structure Ingress where
  rules : List IngressRule
  loadBalancer : List LoadBalancerIngress
  tls : Bool
  deriving DecidableEq, Repr

structure NodeAddress where
  type : String
  address : String
  deriving DecidableEq, Repr

/-- What the client answers to the requests of `GetServerEndpoint` and `GetTLSCert`; a secret is given
by its entry `tls.crt`. -/
structure Kubernetes where
  client : Except GoError Unit
  service : Except GoError Service
  ingress : Except GoError Ingress
  node : Except GoError (List NodeAddress)
  secret : String → Except GoError (Option (List UInt8))

structure Environment where
  version : String
  endpoint : String
  scope : String
  tlsCert : String
  tlsSecretName : String
  serverServiceName : String
  litmusPortalNS : String
  ingress : String
  deriving DecidableEq, Repr

def wrapIPV6 (addr : String) : String := if contains addr ":" then "[" ++ addr ++ "]" else addr

/-- The node port and the port of the last port with the name of the server. -/
def serverPorts (service : Service) : Int × Int :=
  service.ports.foldl
    (fun found port => if port.name = "graphql-server" then (port.nodePort, port.port) else found)
    (0, 0)

/-- The host of the first rule, else the address or the hostname of the load balancer. -/
def ingressAddress (ingress : Ingress) : Except GoError String :=
  let host := ingress.rules.head?.map fun rule => rule.host
  let balancer := ingress.loadBalancer.head?
  match host.filter (· ≠ ""), (balancer.map fun b => b.ip).filter (· ≠ ""),
      (balancer.map fun b => b.hostname).filter (· ≠ "") with
  | some host, _, _ => .ok host
  | none, some ip, _ => .ok ip
  | none, none, some hostname => .ok hostname
  | none, none, none => .error (.failed "IP Address or HostName not generated")

/-- The path of a rule with its last piece replaced by `query`, or with `query` added. -/
def queryPath (path : String) : String :=
  let pieces := (splitAt (· = '/') path).filter (· ≠ "")
  "/".intercalate (if pieces.getLast? = some "(.*)" then pieces.dropLast ++ ["query"]
    else pieces ++ ["query"])

/-- The path of the last rule for the service; a rule without paths or a path without a service is a
nil dereference. -/
def ingressPath (serviceName : String) (ingress : Ingress) : Except GoError String :=
  ingress.rules.foldlM (fun found rule =>
    match rule.http with
    | none => .error (.panic "nil pointer dereference")
    | some paths => paths.foldlM (fun found path =>
        match path.backend with
        | none => .error (.panic "nil pointer dereference")
        | some backend => .ok (if backend = serviceName then queryPath path.path else found)) found) ""

def ingressEndpoint (serviceName : String) (ingress : Ingress) : Except GoError String := do
  let address ← ingressAddress ingress
  let path ← ingressPath serviceName ingress
  let scheme := if ingress.tls then "https" else "http"
  .ok (scheme ++ "://" ++ wrapIPV6 address ++ "/" ++ path)

def loadBalancerAddress (service : Service) : Except GoError String :=
  let missing := GoError.failed "LoadBalancerIP/Hostname not present for loadbalancer service type"
  match service.loadBalancer with
  | [] => .error missing
  | first :: _ =>
      if first.hostname ≠ "" then .ok first.hostname
      else if first.ip ≠ "" then .ok first.ip
      else .error missing

/-- The last external address, else the last internal one; an address that is both in name does not
exist. -/
def nodeAddress (addresses : List NodeAddress) : Except GoError String :=
  let last (type : String) := ((addresses.filter fun addr =>
    toLower addr.type = type ∧ addr.address ≠ "").getLast?).map fun addr => addr.address
  match last "externalip", last "internalip" with
  | some address, _ => .ok address
  | none, some address => .ok address
  | none, none =>
      .error (.failed "Both ExternalIP and InternalIP aren't present for NodePort service type")

def serviceEndpoint (k8s : Kubernetes) (portalScope : String) (service : Service) :
    Except GoError String :=
  let (nodePort, port) := serverPorts service
  let url (address : String) (port : Int) := "http://" ++ wrapIPV6 address ++ ":" ++ toString port ++
    "/query"
  match toLower service.type with
  | "loadbalancer" => (loadBalancerAddress service).map fun address => url address port
  | "nodeport" =>
      if portalScope = "namespace" then .error (.failed "Cannot get NodeIP in namespaced mode")
      else do
        let addresses ← k8s.node
        let address ← nodeAddress addresses
        .ok (url address nodePort)
  | "clusterip" =>
      if service.clusterIP = "" then .error (.failed "ClusterIP is not present")
      else .ok (url service.clusterIP port)
  | _ => .error (.failed "No service type found")

def getServerEndpoint (env : Environment) (k8s : Kubernetes) (portalScope agentType : String) :
    Except GoError String := do
  k8s.client
  let service ← k8s.service
  let (_, port) := serverPorts service
  if agentType = "internal" then
    .ok ("http://" ++ env.serverServiceName ++ "." ++ env.litmusPortalNS ++ ":" ++ toString port ++
      "/query")
  else if env.ingress = "true" then do
    let ingress ← k8s.ingress
    ingressEndpoint env.serverServiceName ingress
  else if env.ingress = "false" ∨ env.ingress = "" then
    serviceEndpoint k8s portalScope service
  else
    .error (.failed "Ingress value is not correct")

/-- An endpoint of the environment is for agents of every type. -/
def getEndpoint (env : Environment) (k8s : Kubernetes) (agentType : String) : Except GoError String :=
  if env.endpoint ≠ "" then .ok (env.endpoint ++ "/ws/query")
  else
    match getServerEndpoint env k8s env.scope agentType with
    | .ok endpoint =>
        if endpoint = "" then .error (.failed "failed to retrieve the server endpoint")
        else .ok endpoint
    | .error (.panic message) => .error (.panic message)
    | .error (.failed _) => .error (.failed "failed to retrieve the server endpoint")

theorem getEndpoint_ne_empty {env : Environment} {k8s : Kubernetes} {agentType endpoint : String}
    (h : getEndpoint env k8s agentType = .ok endpoint) : endpoint ≠ "" := by
  unfold getEndpoint at h
  split at h
  · obtain rfl := Except.ok.inj h
    intro hempty
    have hlength := congrArg String.length hempty
    rw [String.length_append] at hlength
    simp at hlength
  · split at h
    · split at h
      · cases h
      · rename_i hne
        obtain rfl := Except.ok.inj h
        exact hne
    · cases h
    · cases h

end LitmusPortal
