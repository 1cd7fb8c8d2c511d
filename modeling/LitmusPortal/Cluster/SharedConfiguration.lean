import LitmusPortal.Cluster.Manifest

/-!
# Concurrent requests for manifests

All requests write the address of the server and the certificate into one configuration, and
`ManifestParser` reads both again for every file. A call moves by one access to the configuration at a
time. What it would answer if it ran alone from where it is, `finish`, does not change when it moves, so
only the writes of others can change its answer.
-/

namespace LitmusPortal.Manifest

inductive Stage where
  | lookUp
  | writesEndpoint (cluster : Cluster)
  | writesCert (cluster : Cluster)
  | opens (cluster : Cluster)
  | readsAddr (parse : Parse)
  /-- The file has been read and its address put in. -/
  | readsCert (parse : Parse) (content : String)
  | answered (answer : Except GoError Body)

structure Call where
  request : Request
  steps : RequestSteps
  stage : Stage

structure PortalState where
  config : SubscriberConfigurationVars
  calls : Nat → Option Call

inductive Label where
  | begin (call : Nat) (request : Request) (steps : RequestSteps)
  | advance (call : Nat)

def stepStage (server : Server) (config : SubscriberConfigurationVars) (call : Call) :
    Option (Stage × SubscriberConfigurationVars) :=
  match call.stage with
  | .lookUp =>
      match lookUp server call.steps.getFails call.request with
      | .error err => some (.answered (.error err), config)
      | .ok cluster => some (.writesEndpoint cluster, config)
  | .writesEndpoint cluster =>
      match writeEndpoint server call.steps.endpointAnswer cluster config with
      | (.error err, config) => some (.answered (.error err), config)
      | (.ok _, config) => some (.writesCert cluster, config)
  | .writesCert cluster =>
      match writeCert server call.steps.certAnswer config with
      | (.error err, config) => some (.answered (.error err), config)
      | (.ok _, config) => some (.opens cluster, config)
  | .opens cluster =>
      match manifestDir call.request cluster with
      | .error body => some (.answered (.ok body), config)
      | .ok rootPath =>
          match openParser server cluster rootPath with
          | .error err => some (.answered (.error err), config)
          | .ok parse => some (.readsAddr parse, config)
  | .readsAddr parse =>
      match parse.files with
      | [] => some (.answered (.ok (.manifest ("\n".intercalate parse.generatedYAML))), config)
      | file :: files =>
          match server.files.readFile (parse.rootPath ++ "/" ++ file) with
          | .error err => some (.answered (.error err), config)
          | .ok content => some (.readsCert { parse with files := files }
              (substitute content (addrPairs parse config.gqlServerURI)), config)
  | .readsCert parse content =>
      some (.readsAddr (addFile parse parse.files (substitute content (restPairs parse config))), config)
  | .answered _ => none

def setCall (state : PortalState) (call : Nat) (found : Call) : PortalState :=
  { state with calls := Function.update state.calls call (some found) }

def step (server : Server) (state : PortalState) : Label → Option PortalState
  | .begin call request steps =>
      match state.calls call with
      | some _ => none
      | none => some (setCall state call ⟨request, steps, .lookUp⟩)
  | .advance call => (state.calls call).bind fun found =>
      (stepStage server state.config found).map fun (stage, config) =>
        { setCall state call { found with stage := stage } with config := config }

def startState (config : SubscriberConfigurationVars) : PortalState := ⟨config, fun _ => none⟩

/-! ### The rest of a call -/

def finishCert (server : Server) (call : Call) (config : SubscriberConfigurationVars)
    (cluster : Cluster) : Except GoError Body :=
  match writeCert server call.steps.certAnswer config with
  | (.error err, _) => .error err
  | (.ok _, config) => generate server call.request cluster config

def finishEndpoint (server : Server) (call : Call) (config : SubscriberConfigurationVars)
    (cluster : Cluster) : Except GoError Body :=
  match writeEndpoint server call.steps.endpointAnswer cluster config with
  | (.error err, _) => .error err
  | (.ok _, config) => finishCert server call config cluster

def finishParse (server : Server) (config : SubscriberConfigurationVars) (parse : Parse) :
    Except GoError Body :=
  (parseFiles server config parse parse.files).map .manifest

/-- The answer of a call that goes on alone. -/
def finish (server : Server) (config : SubscriberConfigurationVars) (call : Call) :
    Except GoError Body :=
  match call.stage with
  | .lookUp =>
      match lookUp server call.steps.getFails call.request with
      | .error err => .error err
      | .ok cluster => finishEndpoint server call config cluster
  | .writesEndpoint cluster => finishEndpoint server call config cluster
  | .writesCert cluster => finishCert server call config cluster
  | .opens cluster => generate server call.request cluster config
  | .readsAddr parse => finishParse server config parse
  | .readsCert parse content =>
      finishParse server config
        (addFile parse parse.files (substitute content (restPairs parse config)))
  | .answered answer => answer

def alone (server : Server) (config : SubscriberConfigurationVars) (call : Call) :
    Except GoError Body :=
  (serveRequest server call.request call.steps config).1

theorem finish_lookUp (server : Server) (config : SubscriberConfigurationVars) (request : Request)
    (steps : RequestSteps) :
    finish server config ⟨request, steps, .lookUp⟩ = alone server config ⟨request, steps, .lookUp⟩ := by
  simp only [finish, alone, serveRequest]
  cases lookUp server steps.getFails request with
  | error err => rfl
  | ok cluster =>
      simp only [finishEndpoint, finishCert]
      rcases writeEndpoint server steps.endpointAnswer cluster config with ⟨_ | _, written⟩
      · rfl
      · rcases hcert : writeCert server steps.certAnswer written with ⟨_ | _, written'⟩
        · simp only [hcert]
        · simp only [hcert]

/-- A call that moves is on the way to the same answer. -/
theorem finish_stepStage {server : Server} {config config' : SubscriberConfigurationVars}
    {call : Call} {stage : Stage} (h : stepStage server config call = some (stage, config')) :
    finish server config' { call with stage := stage } = finish server config call := by
  unfold stepStage at h
  cases hstage : call.stage with
  | lookUp =>
      simp only [hstage] at h
      split at h <;> rename_i hlookUp <;> obtain ⟨rfl, rfl⟩ := Prod.mk.inj (Option.some.inj h) <;>
        simp [finish, hstage, hlookUp, finishEndpoint, finishCert]
  | writesEndpoint cluster =>
      simp only [hstage] at h
      split at h <;> rename_i hwrite <;> obtain ⟨rfl, rfl⟩ := Prod.mk.inj (Option.some.inj h) <;>
        simp [finish, hstage, finishEndpoint, hwrite, finishCert]
  | writesCert cluster =>
      simp only [hstage] at h
      split at h <;> rename_i hwrite <;> obtain ⟨rfl, rfl⟩ := Prod.mk.inj (Option.some.inj h) <;>
        simp [finish, hstage, finishCert, hwrite]
  | opens cluster =>
      simp only [hstage] at h
      split at h
      · rename_i hdir
        obtain ⟨rfl, rfl⟩ := Prod.mk.inj (Option.some.inj h)
        simp [finish, hstage, generate, hdir]
      · rename_i hdir
        split at h <;> rename_i hopen <;> obtain ⟨rfl, rfl⟩ := Prod.mk.inj (Option.some.inj h) <;>
          simp [finish, hstage, generate, hdir, manifestParser, hopen, finishParse, bind, Except.bind,
            Except.map]
  | readsAddr parse =>
      simp only [hstage] at h
      split at h
      · rename_i hfiles
        obtain ⟨rfl, rfl⟩ := Prod.mk.inj (Option.some.inj h)
        simp [finish, hstage, finishParse, hfiles, parseFiles, Except.map]
      · rename_i hfiles
        split at h <;> rename_i hread <;> obtain ⟨rfl, rfl⟩ := Prod.mk.inj (Option.some.inj h) <;>
          simp [finish, hstage, finishParse, hfiles, parseFiles, hread, bind, Except.bind, Except.map,
            addFile, restPairs]
  | readsCert parse content =>
      simp only [hstage] at h
      obtain ⟨rfl, rfl⟩ := Prod.mk.inj (Option.some.inj h)
      simp [finish, hstage]
  | answered answer => simp [hstage] at h

/-! ### What a call has still to read -/

/-- The address is read again for each file that is left. -/
def Stage.awaitsEndpoint : Stage → Prop
  | .writesCert _ | .opens _ => True
  | .readsAddr parse | .readsCert parse _ => parse.files ≠ []
  | _ => False

def Stage.awaitsCert : Stage → Prop
  | .opens _ | .readsCert _ _ => True
  | .readsAddr parse => parse.files ≠ []
  | _ => False

def Server.writesCert (server : Server) : Prop :=
  server.env.scope = "cluster" ∧ server.env.tlsSecretName ≠ "" ∨ server.env.scope = "namespace"

theorem finishEndpoint_addr (server : Server) (call : Call) (config : SubscriberConfigurationVars)
    (gqlServerURI : String) (cluster : Cluster) :
    finishEndpoint server call { config with gqlServerURI := gqlServerURI } cluster =
      finishEndpoint server call config cluster := by
  unfold finishEndpoint writeEndpoint
  cases getEndpoint server.env call.steps.endpointAnswer cluster.clusterType with
  | error err => cases err <;> rfl
  | ok endpoint => rfl

/-- The address matters to a call that has a read of it ahead. -/
theorem finish_addr {server : Server} {config : SubscriberConfigurationVars} {call : Call}
    (gqlServerURI : String) (h : ¬ call.stage.awaitsEndpoint) :
    finish server { config with gqlServerURI := gqlServerURI } call = finish server config call := by
  unfold finish
  cases hstage : call.stage with
  | lookUp => simp only [finishEndpoint_addr]
  | writesEndpoint cluster => exact finishEndpoint_addr server call config gqlServerURI cluster
  | writesCert cluster => exact absurd (by simp [hstage, Stage.awaitsEndpoint]) h
  | opens cluster => exact absurd (by simp [hstage, Stage.awaitsEndpoint]) h
  | readsAddr parse =>
      have hfiles : parse.files = [] := by simpa [hstage, Stage.awaitsEndpoint] using h
      simp [finishParse, hfiles, parseFiles]
  | readsCert parse content =>
      have hfiles : parse.files = [] := by simpa [hstage, Stage.awaitsEndpoint] using h
      simp [finishParse, hfiles, parseFiles, addFile, restPairs]
  | answered answer => rfl

theorem finishCert_cert {server : Server} (hwrites : server.writesCert) (call : Call)
    (config : SubscriberConfigurationVars) (tlsCert : String) (cluster : Cluster) :
    finishCert server call { config with tlsCert := tlsCert } cluster =
      finishCert server call config cluster := by
  unfold finishCert writeCert
  by_cases hcluster : server.env.scope = "cluster" ∧ server.env.tlsSecretName ≠ ""
  · rw [if_pos hcluster, if_pos hcluster]
  · have hnamespace : server.env.scope = "namespace" := hwrites.resolve_left hcluster
    rw [if_neg hcluster, if_neg hcluster, if_pos hnamespace, if_pos hnamespace]

theorem finishEndpoint_cert {server : Server} (hwrites : server.writesCert) (call : Call)
    (config : SubscriberConfigurationVars) (tlsCert : String) (cluster : Cluster) :
    finishEndpoint server call { config with tlsCert := tlsCert } cluster =
      finishEndpoint server call config cluster := by
  unfold finishEndpoint writeEndpoint
  cases getEndpoint server.env call.steps.endpointAnswer cluster.clusterType with
  | error err => cases err <;> rfl
  | ok endpoint =>
      exact finishCert_cert hwrites call { config with gqlServerURI := endpoint } tlsCert cluster

theorem finish_cert {server : Server} {config : SubscriberConfigurationVars} {call : Call}
    (hwrites : server.writesCert) (tlsCert : String) (h : ¬ call.stage.awaitsCert) :
    finish server { config with tlsCert := tlsCert } call = finish server config call := by
  unfold finish
  cases hstage : call.stage with
  | lookUp => simp only [finishEndpoint_cert hwrites]
  | writesEndpoint cluster => exact finishEndpoint_cert hwrites call config tlsCert cluster
  | writesCert cluster => exact finishCert_cert hwrites call config tlsCert cluster
  | opens cluster => exact absurd (by simp [hstage, Stage.awaitsCert]) h
  | readsAddr parse =>
      have hfiles : parse.files = [] := by simpa [hstage, Stage.awaitsCert] using h
      simp [finishParse, hfiles, parseFiles]
  | readsCert parse content => exact absurd (by simp [hstage, Stage.awaitsCert]) h
  | answered answer => rfl

/-! ### What a call writes -/

theorem writeEndpoint_config (server : Server) (k8s : Kubernetes) (cluster : Cluster)
    (config : SubscriberConfigurationVars) : (writeEndpoint server k8s cluster config).2 =
      { config with gqlServerURI := (writeEndpoint server k8s cluster config).2.gqlServerURI } := by
  unfold writeEndpoint
  split <;> rfl

theorem writeCert_config (server : Server) (k8s : Kubernetes) (config : SubscriberConfigurationVars) :
    (writeCert server k8s config).2 =
      { config with tlsCert := (writeCert server k8s config).2.tlsCert } := by
  unfold writeCert
  split
  · split <;> rfl
  · split <;> rfl

theorem writeCert_of_not_writesCert {server : Server} (h : ¬ server.writesCert) (k8s : Kubernetes)
    (config : SubscriberConfigurationVars) : (writeCert server k8s config).2 = config := by
  unfold Server.writesCert at h
  push Not at h
  unfold writeCert
  rw [if_neg (fun hcluster => hcluster.2 (h.1 hcluster.1)), if_neg h.2]

/-- The configuration changes in two steps of a call only. -/
theorem config_of_stepStage {server : Server} {config config' : SubscriberConfigurationVars}
    {call : Call} {stage : Stage} (h : stepStage server config call = some (stage, config')) :
    (∃ cluster, call.stage = .writesEndpoint cluster ∧
      config' = (writeEndpoint server call.steps.endpointAnswer cluster config).2) ∨
    (∃ cluster, call.stage = .writesCert cluster ∧
      config' = (writeCert server call.steps.certAnswer config).2) ∨ config' = config := by
  unfold stepStage at h
  cases hstage : call.stage with
  | writesEndpoint cluster =>
      simp only [hstage] at h
      left
      split at h <;> rename_i hwrite <;> obtain ⟨-, rfl⟩ := Prod.mk.inj (Option.some.inj h) <;>
        exact ⟨cluster, rfl, by rw [hwrite]⟩
  | writesCert cluster =>
      simp only [hstage] at h
      right; left
      split at h <;> rename_i hwrite <;> obtain ⟨-, rfl⟩ := Prod.mk.inj (Option.some.inj h) <;>
        exact ⟨cluster, rfl, by rw [hwrite]⟩
  | answered answer => simp [hstage] at h
  | lookUp | opens | readsAddr | readsCert =>
      simp only [hstage] at h
      right; right
      repeat' split at h
      all_goals exact (Prod.mk.inj (Option.some.inj h)).2.symm

/-! ### Requests that do not mix -/

def ownEndpoint (server : Server) (request : Request) (steps : RequestSteps) :
    Except GoError String := do
  let cluster ← lookUp server steps.getFails request
  getEndpoint server.env steps.endpointAnswer cluster.clusterType

/-- Nothing in it looks like a placeholder. -/
def PlainEndpoint (server : Server) (request : Request) (steps : RequestSteps) : Prop :=
  ∀ endpoint, ownEndpoint server request steps = .ok endpoint → Plain endpoint

/-- The answer is that of the request alone, and a manifest contains the endpoint for its cluster. -/
structure AnswersAlone (server : Server) (config : SubscriberConfigurationVars) (call : Call)
    (answer : Except GoError Body) : Prop where
  alone : answer = alone server config call
  endpoint : ∀ text, answer = .ok (.manifest text) → ∃ endpoint,
    ownEndpoint server call.request call.steps = .ok endpoint ∧
      GoStrings.contains text endpoint = true

def ManifestsSeparate (server : Server) (config : SubscriberConfigurationVars) (state : PortalState) :
    Prop :=
  ∀ call found answer, state.calls call = some found → found.stage = .answered answer →
    AnswersAlone server config found answer

def ManifestsAlwaysSeparate : Prop :=
  ∀ (server : Server) (config : SubscriberConfigurationVars) (labels : List Label)
    (state : PortalState), HasAddrLine server.files →
    Transition.run (step server) (startState config) labels = some state →
    ManifestsSeparate server config state

theorem endpoint_of_alone {server : Server} {config : SubscriberConfigurationVars} {call : Call}
    {text : String} (hfiles : HasAddrLine server.files)
    (hplain : PlainEndpoint server call.request call.steps)
    (h : alone server config call = .ok (.manifest text)) :
    ∃ endpoint, ownEndpoint server call.request call.steps = .ok endpoint ∧
      GoStrings.contains text endpoint = true := by
  unfold alone serveRequest at h
  cases hlookUp : lookUp server call.steps.getFails call.request with
  | error err => simp [hlookUp] at h
  | ok cluster =>
      simp only [hlookUp] at h
      cases hendpoint : getEndpoint server.env call.steps.endpointAnswer cluster.clusterType with
      | error err => cases err <;> simp [writeEndpoint, hendpoint] at h
      | ok endpoint =>
          simp only [writeEndpoint, hendpoint] at h
          have hcert := writeCert_config server call.steps.certAnswer
            { config with gqlServerURI := endpoint }
          split at h
          · cases h
          · rename_i _ written hwrite
            rw [hwrite] at hcert
            have hwritten : written.gqlServerURI = endpoint := congrArg (·.gqlServerURI) hcert
            have hown : ownEndpoint server call.request call.steps = .ok endpoint := by
              simp [ownEndpoint, hlookUp, hendpoint, bind, Except.bind]
            have hmanifest := contains_generate hfiles (hwritten ▸ hplain endpoint hown) h
            exact ⟨endpoint, hown, hwritten ▸ hmanifest⟩

/-- A call that begins has an endpoint without a placeholder in it; and no write changes the address
or the certificate while another call has still to read it. -/
def SparesReaders (server : Server) (state : PortalState) : Label → Prop
  | .begin _ request steps => PlainEndpoint server request steps
  | .advance call => ∀ found other found', state.calls call = some found → other ≠ call →
      state.calls other = some found' →
        match found.stage with
        | .writesEndpoint cluster => found'.stage.awaitsEndpoint →
            (writeEndpoint server found.steps.endpointAnswer cluster state.config).2.gqlServerURI =
              state.config.gqlServerURI
        | .writesCert _ => found'.stage.awaitsCert →
            (writeCert server found.steps.certAnswer state.config).2.tlsCert = state.config.tlsCert
        | _ => True

/-- Every call is on the way to the answer it would give alone. -/
structure Separate (server : Server) (config : SubscriberConfigurationVars) (state : PortalState) :
    Prop where
  shape : state.config = { config with
    gqlServerURI := state.config.gqlServerURI
    tlsCert := state.config.tlsCert }
  cert : ¬ server.writesCert → state.config.tlsCert = config.tlsCert
  finish : ∀ call found, state.calls call = some found →
    finish server state.config found = alone server config found
  plain : ∀ call found, state.calls call = some found →
    PlainEndpoint server found.request found.steps

theorem Separate.manifestsSeparate {server : Server} {config : SubscriberConfigurationVars}
    {state : PortalState} (hfiles : HasAddrLine server.files) (h : Separate server config state) :
    ManifestsSeparate server config state := by
  intro call found answer hfound hanswer
  have hfinish := h.finish call found hfound
  simp only [Manifest.finish, hanswer] at hfinish
  refine ⟨hfinish, fun text htext => ?_⟩
  exact endpoint_of_alone hfiles (h.plain call found hfound) (hfinish.symm.trans htext)

theorem calls_setCall {state : PortalState} {call other : Nat} {found found' : Call}
    (h : (setCall state call found).calls other = some found') :
    other = call ∧ found' = found ∨ other ≠ call ∧ state.calls other = some found' := by
  by_cases hother : other = call
  · subst hother
    exact Or.inl ⟨rfl, by simpa [setCall] using h.symm⟩
  · exact Or.inr ⟨hother, by simpa [setCall, hother] using h⟩

namespace Separate

variable {server : Server} {config : SubscriberConfigurationVars} {state : PortalState}

/-- A new call: neither the address nor a certificate that is written matters to it yet. -/
theorem begin (h : Separate server config state) (call : Nat) {request : Request}
    {steps : RequestSteps} (hplain : PlainEndpoint server request steps) :
    Separate server config (setCall state call ⟨request, steps, .lookUp⟩) where
  shape := h.shape
  cert := h.cert
  finish other found hother := by
    rcases calls_setCall hother with ⟨rfl, rfl⟩ | ⟨-, hold⟩
    · let new : Call := ⟨request, steps, .lookUp⟩
      let written : SubscriberConfigurationVars := { config with tlsCert := state.config.tlsCert }
      have hnone : ¬ new.stage.awaitsEndpoint := id
      have haddr := @finish_addr server written new state.config.gqlServerURI hnone
      rw [← finish_lookUp]
      change Manifest.finish server state.config _ = _
      rw [h.shape, haddr]
      by_cases hwrites : server.writesCert
      · exact finish_cert hwrites state.config.tlsCert (by simp [Stage.awaitsCert])
      · have hsame : written = config := by simp [written, h.cert hwrites]
        rw [hsame]
    · exact h.finish other found hold
  plain other found hother := by
    rcases calls_setCall hother with ⟨rfl, rfl⟩ | ⟨-, hold⟩
    · exact hplain
    · exact h.plain other found hold

/-- A call moves, and the new configuration makes no difference to the others. -/
theorem advance (h : Separate server config state) {call : Nat} {found : Call} {stage : Stage}
    {config' : SubscriberConfigurationVars} (hfound : state.calls call = some found)
    (hstep : stepStage server state.config found = some (stage, config'))
    (hconfig : config' = { config with
      gqlServerURI := config'.gqlServerURI
      tlsCert := config'.tlsCert })
    (hcert : ¬ server.writesCert → config'.tlsCert = config.tlsCert)
    (hothers : ∀ other found', other ≠ call → state.calls other = some found' →
      Manifest.finish server config' found' = Manifest.finish server state.config found') :
    Separate server config
      { setCall state call { found with stage := stage } with config := config' } where
  shape := hconfig
  cert := hcert
  finish other found' hother := by
    rcases calls_setCall hother with ⟨rfl, rfl⟩ | ⟨hne, hold⟩
    · exact (finish_stepStage hstep).trans (h.finish other found hfound)
    · exact (hothers other found' hne hold).trans (h.finish other found' hold)
  plain other found' hother := by
    rcases calls_setCall hother with ⟨rfl, rfl⟩ | ⟨-, hold⟩
    · exact h.plain other found hfound
    · exact h.plain other found' hold

theorem step (h : Separate server config state) {label : Label} {next : PortalState}
    (hspares : SparesReaders server state label) (hstep : step server state label = some next) :
    Separate server config next := by
  cases label with
  | begin call request steps =>
      simp only [Manifest.step] at hstep
      split at hstep
      · cases hstep
      · obtain rfl := Option.some.inj hstep
        exact h.begin call hspares
  | advance call =>
      obtain ⟨found, hfound, hstep⟩ := Option.bind_eq_some_iff.mp hstep
      obtain ⟨⟨stage, config'⟩, hstage, rfl⟩ := Option.map_eq_some_iff.mp hstep
      rcases config_of_stepStage hstage with ⟨cluster, hcurrent, hwrite⟩ |
        ⟨cluster, hcurrent, hwrite⟩ | rfl
      · have hshape := writeEndpoint_config server found.steps.endpointAnswer cluster state.config
        rw [← hwrite] at hshape
        refine h.advance hfound hstage ?_ (fun hnot => ?_) fun other found' hne hother => ?_
        · rw [hshape, h.shape]
        · rw [hshape]
          exact h.cert hnot
        · by_cases hawaits : found'.stage.awaitsEndpoint
          · have hsame := hspares found other found' hfound hne hother
            simp only [hcurrent] at hsame
            have hkept : config'.gqlServerURI = state.config.gqlServerURI := by
              rw [hwrite]
              exact hsame hawaits
            rw [hshape, hkept]
          · rw [hshape]
            exact finish_addr _ hawaits
      · have hshape := writeCert_config server found.steps.certAnswer state.config
        rw [← hwrite] at hshape
        refine h.advance hfound hstage ?_ (fun hnot => ?_) fun other found' hne hother => ?_
        · rw [hshape, h.shape]
        · rw [hwrite, writeCert_of_not_writesCert hnot]
          exact h.cert hnot
        · by_cases hwrites : server.writesCert
          · by_cases hawaits : found'.stage.awaitsCert
            · have hsame := hspares found other found' hfound hne hother
              simp only [hcurrent] at hsame
              have hkept : config'.tlsCert = state.config.tlsCert := by
                rw [hwrite]
                exact hsame hawaits
              rw [hshape, hkept]
            · rw [hshape]
              exact finish_cert hwrites _ hawaits
          · rw [hwrite, writeCert_of_not_writesCert hwrites]
      · exact h.advance hfound hstage h.shape h.cert fun _ _ _ _ => rfl

end Separate

def sampleK8s : Kubernetes where
  client := .ok ()
  service := .ok ⟨[⟨"graphql-server", 80, 30000⟩], "LoadBalancer", "", [⟨"lb", ""⟩]⟩
  ingress := .error (.failed "not found")
  node := .ok []
  secret := fun _ => .ok none

def sampleServer : Server where
  env := ⟨"2.6.0", "", "cluster", "", "", "api", "ns", "false"⟩
  files := ⟨fun _ => .ok ["agent.yaml"], fun _ => .ok " #\x7bSERVER_ADDR\x7d\n"⟩
  libraries := ⟨fun _ => .ok "", fun _ => .ok "", id⟩
  clusters :=
    [{ sampleCluster with agentNsExists := some true, agentSaExists := some true },
      { sampleCluster with
        clusterID := "cluster-2"
        clusterType := "internal"
        agentNsExists := some true
        agentSaExists := some true }]

def sampleConfig : SubscriberConfigurationVars := ⟨"", "", "", "", "", "", "", "", "", "", "", "", "", ""⟩

def sampleBegin (call : Nat) (clusterID : String) : Label :=
  .begin call (.getManifestWithClusterID clusterID "key-1") ⟨false, sampleK8s, sampleK8s⟩

theorem hasAddrLine_sampleServer : HasAddrLine sampleServer.files := by
  intro rootPath _ names hnames
  obtain rfl := Except.ok.inj hnames
  refine ⟨"agent.yaml", by simp, fun content hcontent => ?_⟩
  obtain rfl := Except.ok.inj hcontent
  decide

theorem sparesReaders_of_only {server : Server} {state : PortalState} {call : Nat}
    (h : ∀ other, other ≠ call → state.calls other = none) :
    SparesReaders server state (.advance call) := by
  intro found other found' _ hne hother
  cases (h other hne).symm.trans hother

def Call.manifestText (call : Call) : Option String :=
  match call.stage with
  | .answered (.ok (.manifest text)) => some text
  | _ => none

end LitmusPortal.Manifest
