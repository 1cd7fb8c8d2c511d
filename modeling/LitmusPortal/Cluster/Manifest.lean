import LitmusPortal.Cluster.Registration
import LitmusPortal.Lib.Base64

/-!
# The manifest of an agent

`GetManifest` and `GetManifestWithClusterID` down to `ManifestParser`. The file system, the YAML encoder
and `fmt.Sprintf` are parameters. The shared configuration is passed along, so that the functions below
are the handlers as they are when nothing runs beside them.
-/

namespace LitmusPortal.Manifest

open GoStrings

structure SubscriberConfigurationVars where
  agentNamespace : String
  agentScope : String
  gqlServerURI : String
  subscriberImage : String
  eventTrackerImage : String
  workflowControllerImage : String
  chaosOperatorImage : String
  workflowExecutorImage : String
  chaosRunnerImage : String
  chaosExporterImage : String
  containerRuntimeExecutor : String
  agentDeployments : String
  version : String
  tlsCert : String
  deriving DecidableEq, Repr

structure FileSystem where
  readdirnames : String → Except GoError (List String)
  readFile : String → Except GoError String

structure Libraries where
  marshalNodeSelector : List (String × String) → Except GoError String
  marshalTolerations : List Toleration → Except GoError String
  sprintf : String → String

/-- What a request works with apart from the shared configuration. -/
structure Server where
  env : Environment
  files : FileSystem
  libraries : Libraries
  clusters : List Cluster

def notEmptyOr (default : String) : Option String → String
  | some value => if value = "" then default else value
  | none => default

def agentNamespace (cluster : Cluster) : String := notEmptyOr "litmus" cluster.agentNamespace

def serviceAccountName (cluster : Cluster) : String := notEmptyOr "litmus" cluster.serviceaccount

def namespaceStr (cluster : Cluster) : String :=
  "---\napiVersion: v1\nkind: Namespace\nmetadata:\n  name: " ++ agentNamespace cluster ++ "\n"

def serviceAccountStr (cluster : Cluster) : String :=
  "---\napiVersion: v1\nkind: ServiceAccount\nmetadata:\n  name: " ++ serviceAccountName cluster ++
    "\n  namespace: " ++ agentNamespace cluster ++ "\n"

def preamble (libraries : Libraries) (cluster : Cluster) : List String :=
  (if cluster.agentNsExists.getD false = false ∧ cluster.agentScope ≠ "namespace" then
    [libraries.sprintf (namespaceStr cluster)] else []) ++
  (if cluster.agentSaExists.getD false = false then
    [libraries.sprintf (serviceAccountStr cluster)] else [])

def setKey (entries : List (String × String)) (key value : String) : List (String × String) :=
  entries.filter (fun entry => entry.1 ≠ key) ++ [(key, value)]

def selectorEntry (entries : List (String × String)) (selector : String) :
    Except GoError (List (String × String)) :=
  match splitAt (· = '=') selector with
  | key :: value :: _ => .ok (setKey entries key value)
  | _ => .error (.panic "index out of range")

def addRootIndent (text : String) (n : Nat) : String :=
  replaceAll text "\n" ("\n" ++ String.ofList (List.replicate n ' '))

def nodeSelectorText (libraries : Libraries) : Option String → Except GoError String
  | none => .ok ""
  | some nodeSelector => do
      let entries ← (splitAt (· = ',') nodeSelector).foldlM selectorEntry []
      let text ← libraries.marshalNodeSelector entries
      .ok (addRootIndent text 6)

def tolerationsText (libraries : Libraries) : Option (List Toleration) → Except GoError String
  | none => .ok ""
  | some tolerations => do
      let text ← libraries.marshalTolerations tolerations
      .ok (addRootIndent text 6)

def placeholder (name : String) : String := "#\x7b" ++ name ++ "\x7d"

def substitute (content : String) (pairs : List (String × String)) : String :=
  pairs.foldl (fun content pair => replaceAll content (placeholder pair.1) pair.2) content

/-- A manifest that is being generated: what there is of it, and the files still to come. -/
structure Parse where
  cluster : Cluster
  nodeSelector : String
  tolerations : String
  rootPath : String
  generatedYAML : List String
  files : List String
  deriving DecidableEq, Repr

/-- The replacements of a file up to the address of the server. -/
def addrPairs (parse : Parse) (gqlServerURI : String) : List (String × String) :=
  [("tolerations", parse.tolerations),
    ("CLUSTER_ID", parse.cluster.clusterID),
    ("ACCESS_KEY", parse.cluster.accessKey),
    ("SERVER_ADDR", gqlServerURI)]

/-- Those after it. -/
def restPairs (parse : Parse) (config : SubscriberConfigurationVars) : List (String × String) :=
  [("SUBSCRIBER-IMAGE", config.subscriberImage),
    ("EVENT-TRACKER-IMAGE", config.eventTrackerImage),
    ("AGENT-NAMESPACE", agentNamespace parse.cluster),
    ("SUBSCRIBER-SERVICE-ACCOUNT", serviceAccountName parse.cluster),
    ("AGENT-SCOPE", parse.cluster.agentScope),
    ("ARGO-WORKFLOW-CONTROLLER", config.workflowControllerImage),
    ("LITMUS-CHAOS-OPERATOR", config.chaosOperatorImage),
    ("ARGO-WORKFLOW-EXECUTOR", config.workflowExecutorImage),
    ("LITMUS-CHAOS-RUNNER", config.chaosRunnerImage),
    ("LITMUS-CHAOS-EXPORTER", config.chaosExporterImage),
    ("ARGO-CONTAINER-RUNTIME-EXECUTOR", config.containerRuntimeExecutor),
    ("AGENT-DEPLOYMENTS", config.agentDeployments),
    ("VERSION", config.version),
    ("SKIP_SSL_VERIFY", if parse.cluster.skipSSL = some true then "true" else "false"),
    ("CUSTOM_TLS_CERT", config.tlsCert),
    ("START_TIME", "\"" ++ parse.cluster.startTime ++ "\""),
    ("IS_CLUSTER_CONFIRMED",
      if parse.cluster.isClusterConfirmed then "\"true\"" else "\"false\"")] ++
  if parse.cluster.nodeSelector.isSome then [("nodeselector", parse.nodeSelector)] else []

/-- `ManifestParser` up to its loop over the files. -/
def openParser (server : Server) (cluster : Cluster) (rootPath : String) : Except GoError Parse := do
  let files ← server.files.readdirnames rootPath
  let nodeSelector ← nodeSelectorText server.libraries cluster.nodeSelector
  let tolerations ← tolerationsText server.libraries cluster.tolerations
  .ok ⟨cluster, nodeSelector, tolerations, rootPath, preamble server.libraries cluster, files⟩

def addFile (parse : Parse) (files : List String) (content : String) : Parse :=
  { parse with generatedYAML := parse.generatedYAML ++ [content], files := files }

/-- The loop over the files. -/
def parseFiles (server : Server) (config : SubscriberConfigurationVars) (parse : Parse) :
    List String → Except GoError String
  | [] => .ok ("\n".intercalate parse.generatedYAML)
  | file :: files => do
      let content ← server.files.readFile (parse.rootPath ++ "/" ++ file)
      let content := substitute content (addrPairs parse config.gqlServerURI)
      let content := substitute content (restPairs parse config)
      parseFiles server config (addFile parse files content) files

def manifestParser (server : Server) (cluster : Cluster) (rootPath : String)
    (config : SubscriberConfigurationVars) : Except GoError String := do
  let parse ← openParser server cluster rootPath
  parseFiles server config parse parse.files

inductive Request where
  /-- The cluster id is the one in the token, or the error of its validation. -/
  | getManifest (clusterID : Except GoError String)
  | getManifestWithClusterID (clusterID accessKey : String)

inductive Body where
  | manifest (text : String)
  | alreadyRegistered
  /-- The scope of the agent is neither of the two, which is only logged. -/
  | nothing
  deriving DecidableEq, Repr

/-- What the environment answers in the course of a request. -/
structure RequestSteps where
  getFails : Bool
  endpointAnswer : Kubernetes
  certAnswer : Kubernetes

def lookUp (server : Server) (getFails : Bool) : Request → Except GoError Cluster
  | .getManifest clusterID => do
      let clusterID ← clusterID
      getCluster getFails server.clusters clusterID
  | .getManifestWithClusterID clusterID accessKey => do
      let cluster ← getCluster getFails server.clusters clusterID
      if cluster.accessKey ≠ accessKey then .error (.failed "Access Key is invalid") else .ok cluster

/-- An error leaves an empty address. -/
def writeEndpoint (server : Server) (k8s : Kubernetes) (cluster : Cluster)
    (config : SubscriberConfigurationVars) : Except GoError Unit × SubscriberConfigurationVars :=
  match getEndpoint server.env k8s cluster.clusterType with
  | .error (.panic message) => (.error (.panic message), config)
  | .error err => (.error err, { config with gqlServerURI := "" })
  | .ok endpoint => (.ok (), { config with gqlServerURI := endpoint })

def getTLSCert (k8s : Kubernetes) (secretName : String) : Except GoError String := do
  k8s.client
  match ← k8s.secret secretName with
  | some cert => .ok (Base64.encodeStd cert)
  | none => .error (.failed ("could not find tls.crt value in provided TLS Secret " ++ secretName))

/-- The certificate is written in one of the two scopes, and an error leaves an empty one. -/
def writeCert (server : Server) (k8s : Kubernetes) (config : SubscriberConfigurationVars) :
    Except GoError Unit × SubscriberConfigurationVars :=
  if server.env.scope = "cluster" ∧ server.env.tlsSecretName ≠ "" then
    match getTLSCert k8s server.env.tlsSecretName with
    | .error err => (.error err, { config with tlsCert := "" })
    | .ok cert => (.ok (), { config with tlsCert := cert })
  else if server.env.scope = "namespace" then (.ok (), { config with tlsCert := server.env.tlsCert })
  else (.ok (), config)

def Request.refusesRegistered : Request → Bool
  | .getManifest _ => true
  | .getManifestWithClusterID _ _ => false

/-- The directory of the manifests, unless there is none to generate. -/
def manifestDir (request : Request) (cluster : Cluster) : Except Body String :=
  if request.refusesRegistered = true ∧ cluster.isRegistered = true then .error .alreadyRegistered
  else if cluster.agentScope = "cluster" then .ok "manifests/cluster"
  else if cluster.agentScope = "namespace" then .ok "manifests/namespace"
  else .error .nothing

def generate (server : Server) (request : Request) (cluster : Cluster)
    (config : SubscriberConfigurationVars) : Except GoError Body :=
  match manifestDir request cluster with
  | .error body => .ok body
  | .ok rootPath => (manifestParser server cluster rootPath config).map .manifest

/-- A request that runs alone, and the configuration it leaves. -/
def serveRequest (server : Server) (request : Request) (steps : RequestSteps)
    (config : SubscriberConfigurationVars) :
    Except GoError Body × SubscriberConfigurationVars :=
  match lookUp server steps.getFails request with
  | .error err => (.error err, config)
  | .ok cluster =>
      match writeEndpoint server steps.endpointAnswer cluster config with
      | (.error err, config) => (.error err, config)
      | (.ok _, config) =>
          match writeCert server steps.certAnswer config with
          | (.error err, config) => (.error err, config)
          | (.ok _, config) => (generate server request cluster config, config)

def statusCode (clusterID : Except GoError String) (answer : Except GoError Body) : Nat :=
  match clusterID, answer with
  | .error _, _ => 404
  | _, .error _ => 500
  | _, .ok .alreadyRegistered => 409
  | _, .ok _ => 200

/-! ### The endpoint in the manifest -/

/-- Nothing that a replacement looks for stands in the text. -/
def Plain (text : String) : Prop := contains text "#\x7b" = false

instance (text : String) : Decidable (Plain text) := inferInstanceAs (Decidable (_ = _))

theorem substitute_of_plain {text : String} (h : Plain text) (pairs : List (String × String)) :
    substitute text pairs = text := by
  induction pairs with
  | nil => rfl
  | cons pair pairs ih =>
      have hnot : contains text (placeholder pair.1) = false := by
        by_contra hcontains
        have hmark : contains (placeholder pair.1) "#\x7b" = true := by
          rw [contains_iff]
          exact ⟨[], pair.1.toList ++ ['\x7d'], by simp [placeholder]⟩
        have hboth := contains_trans (by simpa using hcontains) hmark
        rw [h] at hboth
        cases hboth
      rw [substitute, List.foldl_cons, replaceAll_of_not_contains pair.2 hnot]
      exact ih

theorem contains_substitute {content word : String} {pairs : List (String × String)}
    (hnames : ∀ pair ∈ pairs, ' ' ∉ pair.1.toList ∧ '
' ∉ pair.1.toList)
    (h : ' ' :: word.toList ++ ['
'] <:+: content.toList) :
    ' ' :: (substitute word pairs).toList ++ ['
'] <:+: (substitute content pairs).toList := by
  induction pairs generalizing content word with
  | nil => exact h
  | cons pair pairs ih =>
      obtain ⟨hspace, hnewline⟩ := hnames pair (by simp)
      have hne : placeholder pair.1 ≠ "" := by
        intro hempty
        have hlist := congrArg String.toList hempty
        simp [placeholder] at hlist
      have hfirst := contains_replaceAll pair.2 hne (by simpa [placeholder] using hspace)
        (by simpa [placeholder] using hnewline) h
      exact ih (fun other hother => hnames other (by simp [hother])) hfirst

theorem substitute_serverAddr (parse : Parse) (gqlServerURI : String) :
    substitute (placeholder "SERVER_ADDR") (addrPairs parse gqlServerURI) = gqlServerURI := by
  have hother : ∀ name ∈ ["tolerations", "CLUSTER_ID", "ACCESS_KEY"],
      contains (placeholder "SERVER_ADDR") (placeholder name) = false := by decide
  simp only [substitute, addrPairs, List.foldl_cons, List.foldl_nil]
  rw [replaceAll_of_not_contains _ (hother "tolerations" (by simp)),
    replaceAll_of_not_contains _ (hother "CLUSTER_ID" (by simp)),
    replaceAll_of_not_contains _ (hother "ACCESS_KEY" (by simp)), replaceAll_self _ (by decide)]

theorem names_addrPairs (parse : Parse) (gqlServerURI : String) :
    ∀ pair ∈ addrPairs parse gqlServerURI, ' ' ∉ pair.1.toList ∧ '
' ∉ pair.1.toList := by
  simp [addrPairs]

theorem names_restPairs (parse : Parse) (config : SubscriberConfigurationVars) :
    ∀ pair ∈ restPairs parse config, ' ' ∉ pair.1.toList ∧ '
' ∉ pair.1.toList := by
  unfold restPairs
  split <;> simp

/-- In both directories of manifests there is a file with the line for the address of the server. -/
def HasAddrLine (files : FileSystem) : Prop :=
  ∀ rootPath ∈ ["manifests/cluster", "manifests/namespace"], ∀ names,
    files.readdirnames rootPath = .ok names → ∃ name ∈ names, ∀ content,
      files.readFile (rootPath ++ "/" ++ name) = .ok content →
        ' ' :: (placeholder "SERVER_ADDR").toList ++ ['
'] <:+: content.toList

section ParseFiles

variable {server : Server} {config : SubscriberConfigurationVars} {text : String}

theorem contains_of_generated {parse : Parse} {files : List String} {piece : String}
    (h : parseFiles server config parse files = .ok text) (hpiece : piece ∈ parse.generatedYAML) :
    contains text piece = true := by
  induction files generalizing parse with
  | nil =>
      obtain rfl := Except.ok.inj h
      exact contains_intercalate hpiece
  | cons file files ih =>
      obtain ⟨content, -, hrest⟩ := exists_of_bind_eq_ok h
      exact ih hrest (by simp [addFile, hpiece])

/-- Of the file with the line, whatever comes before and after it. -/
theorem contains_addr_of_parseFiles {parse : Parse} {files : List String} {name : String}
    (h : parseFiles server config parse files = .ok text) (hname : name ∈ files)
    (hplain : Plain config.gqlServerURI)
    (hline : ∀ content, server.files.readFile (parse.rootPath ++ "/" ++ name) = .ok content →
      ' ' :: (placeholder "SERVER_ADDR").toList ++ ['
'] <:+: content.toList) :
    contains text config.gqlServerURI = true := by
  induction files generalizing parse with
  | nil => simp at hname
  | cons file files ih =>
      obtain ⟨content, hcontent, hrest⟩ := exists_of_bind_eq_ok h
      rcases List.mem_cons.mp hname with rfl | hname
      · have haddr := contains_substitute (names_addrPairs parse config.gqlServerURI)
          (hline content hcontent)
        rw [substitute_serverAddr] at haddr
        have hfinal := contains_substitute (names_restPairs parse config) haddr
        rw [substitute_of_plain hplain] at hfinal
        have hpiece : contains (substitute (substitute content
            (addrPairs parse config.gqlServerURI)) (restPairs parse config))
            config.gqlServerURI = true := by
          refine contains_iff.mpr (List.IsInfix.trans ⟨[' '], ['
'], by simp⟩ hfinal)
        exact contains_trans (contains_of_generated hrest (by simp [addFile])) hpiece
      · exact ih hrest hname hline

end ParseFiles

theorem contains_generate {server : Server} {request : Request} {cluster : Cluster}
    {config : SubscriberConfigurationVars} {text : String} (hfiles : HasAddrLine server.files)
    (hplain : Plain config.gqlServerURI)
    (h : generate server request cluster config = .ok (.manifest text)) :
    contains text config.gqlServerURI = true := by
  unfold generate at h
  cases hdir : manifestDir request cluster with
  | error body =>
      simp only [hdir, Except.ok.injEq] at h
      subst h
      unfold manifestDir at hdir
      split at hdir
      · cases hdir
      · split at hdir
        · cases hdir
        · split at hdir <;> cases hdir
  | ok rootPath =>
      simp only [hdir] at h
      cases hparser : manifestParser server cluster rootPath config with
      | error err => simp [hparser, Except.map] at h
      | ok body =>
          obtain rfl : body = text := by simpa [hparser, Except.map] using h
          obtain ⟨parse, hparse, hloop⟩ := exists_of_bind_eq_ok hparser
          obtain ⟨names, hnames, hrest⟩ := exists_of_bind_eq_ok hparse
          obtain ⟨nodeSelector, -, hrest⟩ := exists_of_bind_eq_ok hrest
          obtain ⟨tolerations, -, hrest⟩ := exists_of_bind_eq_ok hrest
          obtain rfl := Except.ok.inj hrest
          have hroot : rootPath ∈ ["manifests/cluster", "manifests/namespace"] := by
            unfold manifestDir at hdir
            split at hdir
            · cases hdir
            · split at hdir
              · obtain rfl := Except.ok.inj hdir
                simp
              · split at hdir
                · obtain rfl := Except.ok.inj hdir
                  simp
                · cases hdir
          obtain ⟨name, hname, hline⟩ := hfiles rootPath hroot names hnames
          exact contains_addr_of_parseFiles hloop hname hplain hline

end LitmusPortal.Manifest
