import LitmusPortal.Cluster.Registration

/-!
# The start of an agent

`init` of the subscriber, with `IsClusterConfirmed`, `ClusterConfirm` and `ClusterRegister`, as steps
between which the agent may crash. What survives a crash is the config map and the secret of the agent
and the document of the server; a start reads its environment from the first two. A write of an object
whose answer is lost is the write followed by a crash, and every error of `init` ends the process.
-/

namespace LitmusPortal.StartUp

open DocumentStore

structure AgentConfig where
  isClusterConfirmed : String
  version : String
  deriving DecidableEq, Repr

structure AgentSecret where
  clusterID : String
  accessKey : String
  deriving DecidableEq, Repr

/-- The next step of the agent, with its `clusterData`. -/
inductive Agent where
  | down
  | started (clusterData : ClusterIdentity)
  | readsSecret (clusterData : ClusterIdentity)
  | confirms (clusterData : ClusterIdentity)
  | writesConfig (clusterData : ClusterIdentity)
  | writesSecret (clusterData : ClusterIdentity)
  | running (clusterData : ClusterIdentity)
  deriving DecidableEq, Repr

structure SystemState where
  clusters : List Cluster
  config : AgentConfig
  secret : AgentSecret
  agent : Agent
  deriving DecidableEq, Repr

inductive Label where
  | start
  | readConfigMap (fails : Bool)
  | readSecret (fails : Bool)
  /-- `lost` says that the answer of the server does not arrive. -/
  | clusterConfirm (steps : ConfirmSteps) (lost : Bool)
  | writeConfigMap (fails : Bool)
  | writeSecret (fails : Bool)
  | crash
  deriving DecidableEq, Repr

/-- The environment of a container is taken from the config map and the secret. -/
def environment (state : SystemState) : ClusterIdentity :=
  ⟨state.secret.clusterID, state.secret.accessKey, state.config.version⟩

/-- What the agent makes of an answer. An error is in the body of the answer, which then has no
confirmation in it. -/
def afterConfirm (clusterData : ClusterIdentity) :
    Except GoError ConfirmClusterRegistrationResponse → Agent
  | .ok ⟨true, newAccessKey, _⟩ =>
      .writesConfig { clusterData with accessKey := newAccessKey.getD "" }
  | .ok ⟨false, _, _⟩ => .running clusterData
  | .error _ => .running clusterData

def step (version : String) (state : SystemState) (label : Label) : Option SystemState :=
  match label, state.agent with
  | .start, .down => some { state with agent := .started (environment state) }
  | .readConfigMap true, .started _ => some { state with agent := .down }
  | .readConfigMap false, .started clusterData =>
      if state.config.isClusterConfirmed = "true" then
        some { state with agent := .readsSecret clusterData }
      else some { state with agent := .confirms clusterData }
  | .readSecret true, .readsSecret _ => some { state with agent := .down }
  | .readSecret false, .readsSecret clusterData =>
      some { state with agent := .running { clusterData with accessKey := state.secret.accessKey } }
  | .clusterConfirm steps lost, .confirms clusterData =>
      let (answer, clusters) := confirmClusterRegistration version steps state.clusters clusterData
      some { state with
        clusters := clusters
        agent := if lost then .down else afterConfirm clusterData answer }
  | .writeConfigMap true, .writesConfig _ => some { state with agent := .down }
  | .writeConfigMap false, .writesConfig clusterData =>
      some { state with
        config := ⟨"true", clusterData.version⟩
        agent := .writesSecret clusterData }
  | .writeSecret true, .writesSecret _ => some { state with agent := .down }
  | .writeSecret false, .writesSecret clusterData =>
      some { state with
        secret := ⟨clusterData.clusterID, clusterData.accessKey⟩
        agent := .running clusterData }
  | .crash, .down => none
  | .crash, _ => some { state with agent := .down }
  | _, _ => none

def init (version : String) (steps : ConfirmSteps) (state : SystemState) : SystemState :=
  let clusterData := environment state
  if state.config.isClusterConfirmed = "true" then
    { state with agent := .running { clusterData with accessKey := state.secret.accessKey } }
  else
    let (answer, clusters) := confirmClusterRegistration version steps state.clusters clusterData
    match answer with
    | .ok ⟨true, newAccessKey, _⟩ =>
        let clusterData := { clusterData with accessKey := newAccessKey.getD "" }
        { clusters := clusters
          config := ⟨"true", clusterData.version⟩
          secret := ⟨clusterData.clusterID, clusterData.accessKey⟩
          agent := .running clusterData }
    | .ok ⟨false, _, _⟩ | .error _ => { state with clusters := clusters, agent := .running clusterData }

def initLabels (version : String) (steps : ConfirmSteps) (state : SystemState) : List Label :=
  if state.config.isClusterConfirmed = "true" then
    [.start, .readConfigMap false, .readSecret false]
  else
    match (confirmClusterRegistration version steps state.clusters (environment state)).1 with
    | .ok ⟨true, _, _⟩ => [.start, .readConfigMap false, .clusterConfirm steps false,
        .writeConfigMap false, .writeSecret false]
    | .ok ⟨false, _, _⟩ | .error _ => [.start, .readConfigMap false, .clusterConfirm steps false]

theorem run_initLabels {version : String} {steps : ConfirmSteps} {state : SystemState}
    (hdown : state.agent = .down) :
    Transition.run (step version) state (initLabels version steps state) =
      some (init version steps state) := by
  unfold initLabels init
  by_cases hconfirmed : state.config.isClusterConfirmed = "true"
  · simp [hconfirmed, step, hdown]
  · simp only [hconfirmed, if_false]
    rcases hanswer : confirmClusterRegistration version steps state.clusters (environment state) with
      ⟨answer, clusters⟩
    rcases answer with err | ⟨_ | _, newAccessKey, clusterID⟩
    · simp [step, hdown, hconfirmed, hanswer, afterConfirm]
    · simp [step, hdown, hconfirmed, hanswer, afterConfirm]
    · simp [step, hdown, hconfirmed, hanswer, afterConfirm]

def Accepted (version : String) (clusters : List Cluster) (clusterData : ClusterIdentity) : Prop :=
  ∃ cluster, verifyCluster version false clusters clusterData = .ok cluster

/-- An agent that is down and then started without an interruption runs with a key that is accepted. -/
def Recovers (version : String) (state : SystemState) : Prop :=
  state.agent = .down → ∀ steps : ConfirmSteps, steps.getFails = false → steps.updateFails = false →
    ∃ clusterData, (init version steps state).agent = .running clusterData ∧
      Accepted version (init version steps state).clusters clusterData

/-- The objects of the manifest of a cluster, applied. -/
def installed (version : String) (clusters : List Cluster) (cluster : Cluster) : SystemState where
  clusters := clusters
  config := ⟨"false", version⟩
  secret := ⟨cluster.clusterID, cluster.accessKey⟩
  agent := .down

def RegistrationSurvivesCrashes : Prop :=
  ∀ (version : String) (clusters : List Cluster) (cluster : Cluster) (labels : List Label)
    (state : SystemState), storedCluster clusters cluster.clusterID = some cluster →
    Transition.run (step version) (installed version clusters cluster) labels = some state →
    Recovers version state

/-! ### Agreement on the key -/

def HasKey (clusters : List Cluster) (clusterID accessKey : String) (registered : Prop) : Prop :=
  ∃ cluster, storedCluster clusters clusterID = some cluster ∧ cluster.accessKey = accessKey ∧
    (registered → cluster.isRegistered = true)

/-- The secret holds the key of the server, and the flag of the config map is set for registered
clusters only. -/
structure Synced (version : String) (state : SystemState) : Prop where
  config : state.config.version = version
  key : HasKey state.clusters state.secret.clusterID state.secret.accessKey
    (state.config.isClusterConfirmed = "true")

/-- The agent has the key of the server, which is not in the secret yet. -/
structure Ahead (version : String) (state : SystemState) (clusterData : ClusterIdentity) : Prop where
  config : state.config.version = version
  clusterID : clusterData.clusterID = state.secret.clusterID
  version : clusterData.version = version
  key : HasKey state.clusters clusterData.clusterID clusterData.accessKey True

def InStep (version : String) (state : SystemState) : Prop :=
  match state.agent with
  | .down | .readsSecret _ | .running _ => Synced version state
  | .started clusterData | .confirms clusterData =>
      Synced version state ∧ clusterData = environment state
  | .writesConfig clusterData | .writesSecret clusterData => Ahead version state clusterData

theorem recovers_iff {version : String} {state : SystemState} {cluster : Cluster}
    (hdown : state.agent = .down) (hversion : state.config.version = version)
    (hstored : storedCluster state.clusters state.secret.clusterID = some cluster)
    (hregistered : state.config.isClusterConfirmed = "true" → cluster.isRegistered = true) :
    Recovers version state ↔
      checkVersion version version = .ok () ∧ cluster.accessKey = state.secret.accessKey := by
  have hagent : ∀ accessKey,
      Accepted version state.clusters ⟨state.secret.clusterID, accessKey, version⟩ ↔
        checkVersion version version = .ok () ∧ cluster.accessKey = accessKey ∧
          cluster.isRegistered = true := by
    intro accessKey
    let clusterData : ClusterIdentity := ⟨state.secret.clusterID, accessKey, version⟩
    have haccepts : Accepted version state.clusters clusterData ↔ _ :=
      verifyCluster_accepts_iff hstored
    simpa [clusterData] using haccepts
  by_cases hconfirmed : state.config.isClusterConfirmed = "true"
  · have hinit : ∀ steps, init version steps state = { state with
        agent := .running ⟨state.secret.clusterID, state.secret.accessKey, version⟩ } := by
      intro steps
      simp [init, hconfirmed, environment, hversion]
    constructor
    · intro hrecovers
      obtain ⟨clusterData, hrunning, haccepted⟩ := hrecovers hdown ⟨"", 0, false, false⟩ rfl rfl
      rw [hinit] at hrunning haccepted
      obtain rfl := Agent.running.inj hrunning
      obtain ⟨hok, hkey, -⟩ := (hagent _).mp haccepted
      exact ⟨hok, hkey⟩
    · rintro ⟨hok, hkey⟩ - steps - -
      rw [hinit]
      exact ⟨_, rfl, (hagent _).mpr ⟨hok, hkey, hregistered hconfirmed⟩⟩
  · by_cases hkey : cluster.accessKey = state.secret.accessKey
    · have hinit : ∀ steps : ConfirmSteps, steps.getFails = false → steps.updateFails = false →
          init version steps state =
            { clusters := updateFirst (ofCluster state.secret.clusterID)
                (confirm steps.newKey steps.now) state.clusters
              config := ⟨"true", version⟩
              secret := ⟨state.secret.clusterID, steps.newKey⟩
              agent := .running ⟨state.secret.clusterID, steps.newKey, version⟩ } := by
        intro steps hget hupdate
        have hconfirms : Confirms version steps cluster (environment state) :=
          ⟨hversion.symm, hget, hupdate, hkey⟩
        have hconfirm := confirmClusterRegistration_of_confirms hstored hconfirms
        simp only [init, hconfirmed, if_false, hconfirm]
        simp [environment, hversion]
      simp only [hkey, and_true]
      constructor
      · intro hrecovers
        obtain ⟨clusterData, hrunning, haccepted⟩ := hrecovers hdown ⟨"", 0, false, false⟩ rfl rfl
        rw [hinit _ rfl rfl] at hrunning haccepted
        obtain rfl := Agent.running.inj hrunning
        exact (verifyCluster_confirm hstored).mp haccepted
      · rintro hok - steps hget hupdate
        rw [hinit steps hget hupdate]
        exact ⟨_, rfl, (verifyCluster_confirm hstored).mpr hok⟩
    · refine iff_of_false (fun hrecovers => ?_) (fun h => hkey h.2)
      obtain ⟨clusterData, hrunning, haccepted⟩ := hrecovers hdown ⟨"", 0, false, false⟩ rfl rfl
      have hdenied : confirmClusterRegistration version ⟨"", 0, false, false⟩ state.clusters
          (environment state) = (.ok notConfirmed, state.clusters) := by
        simp [confirmClusterRegistration, checkConfirmVersion, environment, hversion, getCluster_eq,
          hstored, hkey]
      have hinit : init version ⟨"", 0, false, false⟩ state = { state with
          agent := .running ⟨state.secret.clusterID, state.secret.accessKey, version⟩ } := by
        simp only [init, hconfirmed, if_false, hdenied, notConfirmed]
        simp [environment, hversion]
      rw [hinit] at hrunning haccepted
      obtain rfl := Agent.running.inj hrunning
      exact hkey ((hagent _).mp haccepted).2.1

/-- From the answer of the server to the write of the secret the agent is not interrupted, unless the
new key is the one in the secret. -/
def SparesAnswer (version : String) (state : SystemState) (label : Label) : Prop :=
  match label, state.agent with
  | .clusterConfirm steps true, .confirms clusterData => ∀ cluster,
      storedCluster state.clusters clusterData.clusterID = some cluster →
        Confirms version steps cluster clusterData → steps.newKey = state.secret.accessKey
  | .writeConfigMap true, .writesConfig clusterData | .crash, .writesConfig clusterData
  | .writeSecret true, .writesSecret clusterData | .crash, .writesSecret clusterData =>
      clusterData.accessKey = state.secret.accessKey
  | _, _ => True

theorem Synced.of_agent {version : String} {state : SystemState} (h : Synced version state)
    (agent : Agent) : Synced version { state with agent := agent } := ⟨h.config, h.key⟩

theorem Ahead.synced_down {version : String} {state : SystemState} {clusterData : ClusterIdentity}
    (h : Ahead version state clusterData) (hkey : clusterData.accessKey = state.secret.accessKey) :
    Synced version { state with agent := .down } := by
  obtain ⟨cluster, hstored, haccess, hregistered⟩ := h.key
  rw [h.clusterID] at hstored
  exact ⟨h.config, cluster, hstored, haccess.trans hkey, fun _ => hregistered trivial⟩

theorem inStep_clusterConfirm {version : String} {state : SystemState} {steps : ConfirmSteps}
    {lost : Bool} (h : Synced version state)
    (hspares : lost = true → ∀ cluster,
      storedCluster state.clusters state.secret.clusterID = some cluster →
        Confirms version steps cluster (environment state) → steps.newKey = state.secret.accessKey) :
    InStep version { state with
      clusters := (confirmClusterRegistration version steps state.clusters (environment state)).2
      agent := if lost then .down else afterConfirm (environment state)
        (confirmClusterRegistration version steps state.clusters (environment state)).1 } := by
  obtain ⟨cluster, hstored, hkey, -⟩ := h.key
  by_cases hconfirms : Confirms version steps cluster (environment state)
  · have hnew : HasKey (updateFirst (ofCluster state.secret.clusterID)
        (confirm steps.newKey steps.now) state.clusters) state.secret.clusterID steps.newKey True :=
      ⟨_, storedCluster_confirm steps.newKey hstored, rfl, fun _ => rfl⟩
    rw [confirmClusterRegistration_of_confirms hstored hconfirms]
    cases lost with
    | false => exact ⟨h.config, rfl, h.config, hnew⟩
    | true =>
        have hsame := hspares rfl cluster hstored hconfirms
        rw [hsame] at hnew
        obtain ⟨new, hnewStored, hnewKey, hregistered⟩ := hnew
        exact ⟨h.config, new, by rw [hsame]; exact hnewStored, hnewKey, fun _ => hregistered trivial⟩
  · have hnot : ∀ found, storedCluster state.clusters (environment state).clusterID = some found →
        ¬ Confirms version steps found (environment state) := by
      intro found hfound
      obtain rfl := Option.some.inj (hstored.symm.trans hfound)
      exact hconfirms
    obtain ⟨hsame, hanswer⟩ := confirmClusterRegistration_of_not_confirms hnot
    rw [hsame]
    cases lost with
    | true => exact h.of_agent .down
    | false =>
        rcases hresult : (confirmClusterRegistration version steps state.clusters
            (environment state)).1 with err | response
        · exact h.of_agent (.running (environment state))
        · obtain rfl := hanswer response hresult
          exact h.of_agent (.running (environment state))

theorem inStep_step {version : String} {state next : SystemState} {label : Label}
    (h : InStep version state) (hspares : SparesAnswer version state label)
    (hstep : step version state label = some next) : InStep version next := by
  unfold step at hstep
  split at hstep <;> rename_i hagent <;> simp only [InStep, hagent] at h
  case h_1 =>
    obtain rfl := Option.some.inj hstep
    exact ⟨h.of_agent _, rfl⟩
  case h_2 =>
    obtain rfl := Option.some.inj hstep
    exact h.1.of_agent _
  case h_3 =>
    obtain ⟨hsynced, rfl⟩ := h
    split at hstep
    · obtain rfl := Option.some.inj hstep
      exact hsynced.of_agent _
    · obtain rfl := Option.some.inj hstep
      exact ⟨hsynced.of_agent _, rfl⟩
  case h_4 =>
    obtain rfl := Option.some.inj hstep
    exact h.of_agent _
  case h_5 =>
    obtain rfl := Option.some.inj hstep
    exact h.of_agent _
  case h_6 steps lost clusterData =>
    obtain ⟨hsynced, rfl⟩ := h
    obtain rfl := Option.some.inj hstep
    apply inStep_clusterConfirm hsynced
    rintro rfl
    simp only [SparesAnswer, hagent] at hspares
    exact hspares
  case h_7 =>
    obtain rfl := Option.some.inj hstep
    simp only [SparesAnswer, hagent] at hspares
    exact h.synced_down hspares
  case h_8 =>
    obtain rfl := Option.some.inj hstep
    exact ⟨h.version, h.clusterID, h.version, h.key⟩
  case h_9 =>
    obtain rfl := Option.some.inj hstep
    simp only [SparesAnswer, hagent] at hspares
    exact h.synced_down hspares
  case h_10 =>
    obtain rfl := Option.some.inj hstep
    obtain ⟨cluster, hstored, hkey, hregistered⟩ := h.key
    exact ⟨h.config, cluster, hstored, hkey, fun _ => hregistered trivial⟩
  case h_11 => cases hstep
  case h_12 =>
    obtain rfl := Option.some.inj hstep
    cases hcurrent : state.agent with
    | down => exact absurd hcurrent hagent
    | started => exact (hcurrent ▸ h).1.of_agent _
    | readsSecret => exact (hcurrent ▸ h).of_agent _
    | confirms => exact (hcurrent ▸ h).1.of_agent _
    | running => exact (hcurrent ▸ h).of_agent _
    | writesConfig =>
        simp only [hcurrent, SparesAnswer] at h hspares
        exact h.synced_down hspares
    | writesSecret =>
        simp only [hcurrent, SparesAnswer] at h hspares
        exact h.synced_down hspares
  case h_13 => cases hstep

theorem InStep.recovers {version : String} {state : SystemState} (h : InStep version state)
    (hversion : checkVersion version version = .ok ()) : Recovers version state := by
  intro hdown
  simp only [InStep, hdown] at h
  obtain ⟨cluster, hstored, hkey, hregistered⟩ := h.key
  exact (recovers_iff hdown h.config hstored hregistered).mpr ⟨hversion, hkey⟩ hdown

/-- An agent that goes down ahead of its secret is shut out. -/
theorem Ahead.not_recovers {version : String} {state : SystemState} {clusterData : ClusterIdentity}
    (h : Ahead version state clusterData) (hkey : clusterData.accessKey ≠ state.secret.accessKey) :
    ¬ Recovers version { state with agent := .down } := by
  obtain ⟨cluster, hstored, haccess, hregistered⟩ := h.key
  rw [h.clusterID] at hstored
  intro hrecovers
  let next : SystemState := { state with agent := .down }
  have hconfig : next.config.version = version := h.config
  have hnext : storedCluster next.clusters next.secret.clusterID = some cluster := hstored
  have hsame := (recovers_iff rfl hconfig hnext fun _ => hregistered trivial).mp hrecovers
  exact hkey (haccess.symm.trans hsame.2)

theorem not_recovers_of_step {version : String} {state next : SystemState} {label : Label}
    (h : InStep version state) (hspares : ¬ SparesAnswer version state label)
    (hstep : step version state label = some next) : ¬ Recovers version next := by
  unfold SparesAnswer at hspares
  split at hspares <;> rename_i hagent <;> simp only [InStep, hagent] at h
  case h_1 steps clusterData =>
    obtain ⟨hsynced, rfl⟩ := h
    push Not at hspares
    obtain ⟨cluster, hstored, hconfirms, hkey⟩ := hspares
    simp only [step, hagent, confirmClusterRegistration_of_confirms hstored hconfirms] at hstep
    obtain rfl := Option.some.inj hstep
    intro hrecovers
    let next : SystemState := { state with
      clusters := updateFirst (ofCluster (environment state).clusterID)
        (confirm steps.newKey steps.now) state.clusters
      agent := .down }
    have hconfig : next.config.version = version := hsynced.config
    have hnext : storedCluster next.clusters next.secret.clusterID =
        some (confirm steps.newKey steps.now cluster) := storedCluster_confirm steps.newKey hstored
    exact hkey ((recovers_iff rfl hconfig hnext fun _ => rfl).mp hrecovers).2
  case h_2 =>
    simp only [step, hagent] at hstep
    obtain rfl := Option.some.inj hstep
    exact h.not_recovers hspares
  case h_3 =>
    simp only [step, hagent] at hstep
    obtain rfl := Option.some.inj hstep
    exact h.not_recovers hspares
  case h_4 =>
    simp only [step, hagent] at hstep
    obtain rfl := Option.some.inj hstep
    exact h.not_recovers hspares
  case h_5 =>
    simp only [step, hagent] at hstep
    obtain rfl := Option.some.inj hstep
    exact h.not_recovers hspares
  case h_6 => exact absurd trivial hspares

/-- A restarted agent is let in again throughout a run exactly when the version of the server is one
that it accepts and no step of the run interrupts the agent between the answer of the server and the
write of the secret. -/
theorem recovers_run_iff {version : String} {clusters : List Cluster} {cluster : Cluster}
    {labels : List Label} {state : SystemState}
    (hstored : storedCluster clusters cluster.clusterID = some cluster)
    (hrun : Transition.run (step version) (installed version clusters cluster) labels = some state) :
    (∀ front mid, front <+: labels →
      Transition.run (step version) (installed version clusters cluster) front = some mid →
        Recovers version mid) ↔
      checkVersion version version = .ok () ∧
        Transition.Meets (step version) (SparesAnswer version) (installed version clusters cluster)
          labels := by
  have hflag : (installed version clusters cluster).config.isClusterConfirmed = "true" →
      cluster.isRegistered = true := by simp [installed]
  have hstart : InStep version (installed version clusters cluster) :=
    ⟨rfl, cluster, hstored, rfl, hflag⟩
  have hany : Transition.Meets (step version) (fun _ _ => True)
      (installed version clusters cluster) labels :=
    Transition.meets_of_forall (fun _ _ => trivial) _ _
  by_cases hversion : checkVersion version version = .ok ()
  · simp only [hversion, true_and]
    have hrecovers : ∀ s, InStep version s → Recovers version s := fun _ h => h.recovers hversion
    apply Transition.run_always_iff hrecovers _ _ hstart hany hrun
    · exact fun _ _ _ h _ hspares hstep => inStep_step h hspares hstep
    · exact fun _ _ _ h _ hspares hstep => not_recovers_of_step h hspares hstep
  · refine iff_of_false (fun hall => hversion ?_) (fun h => hversion h.1)
    have hrecovers := hall [] _ List.nil_prefix rfl
    exact ((recovers_iff rfl rfl hstored hflag).mp hrecovers).1

/-- A crash before the request and one after the secret is written. -/
def harmlessCrashes : List Label :=
  [.start, .readConfigMap false, .crash, .start, .readConfigMap false,
    .clusterConfirm ⟨"key-2", 0, false, false⟩ false, .writeConfigMap false, .writeSecret false, .crash]

theorem recovers_run_iff_harmless :
    ∃ state, Transition.run (step "2.6.0") (installed "2.6.0" [sampleCluster] sampleCluster)
        harmlessCrashes = some state ∧
      ∀ front mid, front <+: harmlessCrashes →
        Transition.run (step "2.6.0") (installed "2.6.0" [sampleCluster] sampleCluster) front =
          some mid → Recovers "2.6.0" mid := by
  have hsome : (Transition.run (step "2.6.0") (installed "2.6.0" [sampleCluster] sampleCluster)
      harmlessCrashes).isSome = true := by decide
  obtain ⟨state, hrun⟩ := Option.isSome_iff_exists.mp hsome
  have hstored : storedCluster [sampleCluster] sampleCluster.clusterID = some sampleCluster := by
    decide
  refine ⟨state, hrun, (recovers_run_iff hstored hrun).mpr ?_⟩
  exact ⟨rfl, trivial, trivial, trivial, trivial, trivial, trivial, trivial, trivial, trivial, trivial⟩

/-- The server replaces the key, and its answer is lost. -/
theorem not_registrationSurvivesCrashes : ¬ RegistrationSurvivesCrashes := by
  intro hsurvives
  let start := installed "2.6.0" [sampleCluster] sampleCluster
  let labels : List Label :=
    [.start, .readConfigMap false, .clusterConfirm ⟨"key-2", 0, false, false⟩ true]
  let shutOut : SystemState :=
    { start with clusters := [confirm "key-2" 0 sampleCluster] }
  have hrun : Transition.run (step "2.6.0") start labels = some shutOut := by decide
  have hrecovers := hsurvives "2.6.0" [sampleCluster] sampleCluster labels shutOut (by decide) hrun
  have hstored : storedCluster shutOut.clusters shutOut.secret.clusterID =
      some (confirm "key-2" 0 sampleCluster) := by decide
  have hkey := ((recovers_iff rfl rfl hstored fun _ => rfl).mp hrecovers).2
  exact absurd hkey (by decide)

end LitmusPortal.StartUp
