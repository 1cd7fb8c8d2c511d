import LitmusPortal.Workflow.Calls

/-!
# What an agent can reach with its events

An event carries the identity of the agent and, apart from it, the id of a workflow. The identity
is verified against the clusters; the write goes to the workflow, whichever cluster that belongs
to. An event therefore stays among the workflows of its own cluster exactly when the write has
nothing to change in the document of another.
-/

namespace LitmusPortal

open DocumentStore

structure AgentEvent where
  faults : RunFaults
  now : Int
  request : WorkflowRunRequest
  deriving DecidableEq, Repr

def serve (env : Env) (db : Database) (event : AgentEvent) : Database :=
  (chaosWorkflowRun env event.faults event.now db event.request).2

def serveAll (env : Env) (db : Database) (events : List AgentEvent) : Database :=
  events.foldl (serve env) db

/-- `VerifyCluster` accepts the identity of the event for this cluster. -/
def Authenticated (env : Env) (db : Database) (cluster : Cluster) (event : AgentEvent) : Prop :=
  verifyCluster env.version event.faults.getCluster db.clusters event.request.clusterID =
    .ok cluster

instance (env : Env) (db : Database) (cluster : Cluster) (event : AgentEvent) :
    Decidable (Authenticated env db cluster event) :=
  inferInstanceAs (Decidable (verifyCluster env.version event.faults.getCluster db.clusters
    event.request.clusterID = .ok cluster))

/-- Every document the event changes belongs to the cluster. No event adds or removes one, so the
two lists are compared place by place. -/
def ChangesOwnOnly (env : Env) (db : Database) (cluster : Cluster) (event : AgentEvent) : Prop :=
  (serve env db event).workflows.docs.length = db.workflows.docs.length ∧
    ∀ docs ∈ db.workflows.docs.zip (serve env db event).workflows.docs, docs.1 ≠ docs.2 →
      docs.1.clusterID = cluster.clusterID

def workflowsOf (db : Database) (clusterID : String) : List ChaosWorkFlow :=
  db.workflows.docs.filter fun doc => doc.clusterID = clusterID

/-- In every state the events lead through, the workflows of every other cluster are what they were
at the start. -/
def OthersUntouched (env : Env) (db : Database) (cluster : Cluster) (events : List AgentEvent) :
    Prop :=
  ∀ clusterID ≠ cluster.clusterID, ∀ front back, events = front ++ back →
    workflowsOf (serveAll env db front) clusterID = workflowsOf db clusterID

/-- Both forms of the isolation of agents, for every database and every request. -/
def AgentsIsolated : Prop :=
  (∀ env db cluster event, Authenticated env db cluster event →
    ChangesOwnOnly env db cluster event) ∧
  (∀ env db cluster events, (∀ event ∈ events, Authenticated env db cluster event) →
    OthersUntouched env db cluster events)

/-- If the event passes its checks and reaches the write, then the document it names belongs to the
cluster, or it already has an entry for the run and the first open one, if any, holds the values
of the event. -/
def SparesOthers (env : Env) (db : Database) (cluster : Cluster) (event : AgentEvent) : Prop :=
  reachesWrite env event.faults db event.request = true → ∀ executionData metrics,
    verifyRequest env event.faults.getCluster db.clusters event.request =
      .ok (cluster, executionData) →
    measureRun env event.faults.getWorkflows db.workflows event.request executionData =
      .ok metrics →
    ∀ doc ∈ db.workflows.docs, doc.workflowID = event.request.workflowID →
      doc.clusterID ≠ cluster.clusterID →
      (∃ run ∈ doc.workflowRuns, run.workflowRunID = event.request.workflowRunID) ∧
        ∀ entry ∈ doc.workflowRuns.find? (isOpenRun event.request.workflowRunID),
          setRunFields (newRun event.request executionData metrics event.now) entry = entry

/-! ### When a write changes nothing -/

theorem onWorkflow_eq_self_iff {workflowID : String}
    {change : List ChaosWorkflowRun → List ChaosWorkflowRun} {doc : ChaosWorkFlow}
    (hid : doc.workflowID = workflowID) :
    onWorkflow workflowID change doc = doc ↔ change doc.workflowRuns = doc.workflowRuns := by
  constructor
  · intro h
    have hwritten : (onWorkflow workflowID change doc).workflowRuns = change doc.workflowRuns :=
      onWorkflow_of_eq hid
    rw [h] at hwritten
    exact hwritten.symm
  · intro h
    rw [onWorkflow, if_pos hid, h]

/-- The write leaves the document of its workflow alone exactly when the run is recorded there and
its first open entry, if any, holds the values already. -/
theorem writtenRuns_eq_self_iff {workflows : Workflows} {doc : ChaosWorkFlow}
    {workflowID workflowRunID : String} {wfRun : ChaosWorkflowRun} (hdoc : doc ∈ workflows.docs)
    (hid : doc.workflowID = workflowID) (hrunID : wfRun.workflowRunID = workflowRunID) :
    writtenRuns false wfRun (countRuns workflows workflowID workflowRunID)
        doc.workflowRuns = doc.workflowRuns ↔
      (∃ run ∈ doc.workflowRuns, run.workflowRunID = workflowRunID) ∧
        ∀ entry ∈ doc.workflowRuns.find? (isOpenRun workflowRunID),
          setRunFields wfRun entry = entry := by
  subst hid hrunID
  by_cases hrecorded : ∃ run ∈ doc.workflowRuns, run.workflowRunID = wfRun.workflowRunID
  · obtain ⟨run, hrun, hrunID⟩ := hrecorded
    rw [countRuns_eq_one hdoc rfl hrun hrunID]
    simp only [writtenRuns, Bool.false_eq_true, if_false, Nat.one_ne_zero, if_true,
      updateFirst_eq_self_iff]
    exact ⟨fun h => ⟨⟨run, hrun, hrunID⟩, h⟩, fun h => h.2⟩
  · have hzero : countRuns workflows doc.workflowID wfRun.workflowRunID = 0 := by
      refine countRuns_eq_zero_iff.mpr fun other hother hid run hrun hrunID => hrecorded ?_
      obtain rfl := workflows.workflowID_injective hother hdoc hid
      exact ⟨run, hrun, hrunID⟩
    rw [hzero]
    simp [writtenRuns, hrecorded]

/-! ### One request -/

theorem verifyRequest_ok {env : Env} {fails : Bool} {clusters : List Cluster}
    {request : WorkflowRunRequest} {cluster : Cluster} {executionData : ExecutionData}
    (h : verifyRequest env fails clusters request = .ok (cluster, executionData)) :
    verifyCluster env.version fails clusters request.clusterID = .ok cluster := by
  unfold verifyRequest at h
  cases hverify : verifyCluster env.version fails clusters request.clusterID with
  | error err => simp [hverify, bind, Except.bind] at h
  | ok found =>
      cases hdata : env.unmarshalExecutionData request.executionData with
      | none => simp [hverify, hdata, bind, Except.bind] at h
      | some data =>
          simp only [hverify, hdata, bind, Except.bind, Except.ok.injEq, Prod.mk.injEq] at h
          rw [h.1]

section OneEvent

variable {env : Env} {db : Database} {cluster : Cluster} {event : AgentEvent}

/-- An accepted event changes each document on its own, and changes those of other clusters exactly
when the condition fails. -/
theorem docs_serve (hauth : Authenticated env db cluster event) :
    ∃ change : ChaosWorkFlow → ChaosWorkFlow,
      (∀ doc, (change doc).clusterID = doc.clusterID) ∧
      (serve env db event).workflows.docs = db.workflows.docs.map change ∧
      (SparesOthers env db cluster event ↔
        ∀ doc ∈ db.workflows.docs, doc.clusterID ≠ cluster.clusterID → change doc = doc) := by
  unfold serve
  rcases chaosWorkflowRun_docs env event.faults event.now db event.request with
    ⟨hstops, hsame⟩ | ⟨hreaches, found, executionData, metrics, hverify, hmeasure, hdocs⟩
  · refine ⟨id, fun _ => rfl, by rw [hsame, List.map_id], ?_⟩
    refine iff_of_true ?_ fun _ _ _ => rfl
    intro hreaches
    rw [hstops] at hreaches
    cases hreaches
  · obtain rfl : cluster = found := Except.ok.inj (hauth.symm.trans (verifyRequest_ok hverify))
    let wfRun := newRun event.request executionData metrics event.now
    have hrunID : wfRun.workflowRunID = event.request.workflowRunID := rfl
    refine ⟨onWorkflow event.request.workflowID (writtenRuns false wfRun
      (countRuns db.workflows event.request.workflowID event.request.workflowRunID)),
      fun _ => onWorkflow_clusterID, hdocs, ?_⟩
    constructor
    · intro hspares doc hdoc hforeign
      by_cases hid : doc.workflowID = event.request.workflowID
      · rw [onWorkflow_eq_self_iff hid, writtenRuns_eq_self_iff hdoc hid hrunID]
        exact hspares hreaches executionData metrics hverify hmeasure doc hdoc hid hforeign
      · exact onWorkflow_of_ne hid
    · intro hsame _ executionData' metrics' hverify' hmeasure' doc hdoc hid hforeign
      obtain rfl : executionData = executionData' :=
        congrArg Prod.snd (Except.ok.inj (hverify.symm.trans hverify'))
      obtain rfl : metrics = metrics' := Except.ok.inj (hmeasure.symm.trans hmeasure')
      have hself := hsame doc hdoc hforeign
      rwa [onWorkflow_eq_self_iff hid, writtenRuns_eq_self_iff hdoc hid hrunID] at hself

theorem changesOwnOnly_iff (hauth : Authenticated env db cluster event) :
    ChangesOwnOnly env db cluster event ↔ SparesOthers env db cluster event := by
  obtain ⟨change, -, hdocs, hspares⟩ := docs_serve hauth
  have hzip : (db.workflows.docs.map id).zip (db.workflows.docs.map change) =
      db.workflows.docs.map fun doc => (doc, change doc) := List.zip_map'
  rw [List.map_id] at hzip
  rw [hspares, ChangesOwnOnly, hdocs, hzip, List.length_map]
  constructor
  · rintro ⟨-, hown⟩ doc hdoc hforeign
    by_contra hchanged
    exact hforeign (hown _ (List.mem_map_of_mem hdoc) fun heq => hchanged heq.symm)
  · intro hsame
    refine ⟨rfl, ?_⟩
    intro pair hpair hchanged
    obtain ⟨doc, hdoc, rfl⟩ := List.mem_map.mp hpair
    by_contra hforeign
    exact hchanged (hsame doc hdoc hforeign).symm

theorem workflowsOf_serve_iff (hauth : Authenticated env db cluster event) :
    (∀ clusterID ≠ cluster.clusterID,
      workflowsOf (serve env db event) clusterID = workflowsOf db clusterID) ↔
      SparesOthers env db cluster event := by
  obtain ⟨change, hkeeps, hdocs, hspares⟩ := docs_serve hauth
  have hfilter : ∀ clusterID, workflowsOf (serve env db event) clusterID =
      (workflowsOf db clusterID).map change := by
    intro clusterID
    have hpred : ((fun doc : ChaosWorkFlow => decide (doc.clusterID = clusterID)) ∘ change) =
        fun doc => decide (doc.clusterID = clusterID) := funext fun doc => by simp [hkeeps]
    rw [workflowsOf, hdocs, List.filter_map, hpred, workflowsOf]
  rw [hspares]
  constructor
  · intro hsame doc hdoc hforeign
    have hlist : (workflowsOf db doc.clusterID).map change =
        (workflowsOf db doc.clusterID).map id := by
      rw [List.map_id, ← hfilter]
      exact hsame doc.clusterID hforeign
    exact List.map_inj_left.mp hlist doc (List.mem_filter.mpr ⟨hdoc, by simp⟩)
  · intro hsame clusterID hother
    rw [hfilter]
    calc (workflowsOf db clusterID).map change
        = (workflowsOf db clusterID).map id := List.map_congr_left fun doc hdoc => by
          obtain ⟨hmem, hcluster⟩ := List.mem_filter.mp hdoc
          exact hsame doc hmem (by simpa [of_decide_eq_true hcluster] using hother)
      _ = workflowsOf db clusterID := List.map_id _

end OneEvent

/-! ### Sequences of requests -/

theorem serveAll_cons (env : Env) (db : Database) (event : AgentEvent) (rest : List AgentEvent) :
    serveAll env db (event :: rest) = serveAll env (serve env db event) rest := rfl

theorem serveAll_concat (env : Env) (db : Database) (front : List AgentEvent)
    (event : AgentEvent) :
    serveAll env db (front ++ [event]) = serve env (serveAll env db front) event := by
  simp [serveAll, List.foldl_append]

theorem serve_clusters (env : Env) (db : Database) (event : AgentEvent) :
    (serve env db event).clusters = db.clusters := by
  unfold serve chaosWorkflowRun
  split
  · rfl
  · split <;> rfl

/-- No event changes the clusters, so whoever is accepted at first is accepted throughout. -/
theorem serveAll_clusters (env : Env) (db : Database) (events : List AgentEvent) :
    (serveAll env db events).clusters = db.clusters := by
  induction events generalizing db with
  | nil => rfl
  | cons event rest ih => rw [serveAll_cons, ih, serve_clusters]

theorem Authenticated.after {env : Env} {db : Database} {cluster : Cluster} {event : AgentEvent}
    (h : Authenticated env db cluster event) (front : List AgentEvent) :
    Authenticated env (serveAll env db front) cluster event := by
  unfold Authenticated
  rw [serveAll_clusters]
  exact h

theorem othersUntouched_iff {env : Env} {db : Database} {cluster : Cluster}
    {events : List AgentEvent} (hauth : ∀ event ∈ events, Authenticated env db cluster event) :
    OthersUntouched env db cluster events ↔ ∀ front event back, events = front ++ event :: back →
      SparesOthers env (serveAll env db front) cluster event := by
  have hafter : ∀ front event back, events = front ++ event :: back →
      Authenticated env (serveAll env db front) cluster event := fun front event back hevents =>
    (hauth event (by simp [hevents])).after front
  constructor
  · intro huntouched front event back hevents
    rw [← workflowsOf_serve_iff (hafter front event back hevents)]
    intro clusterID hother
    rw [← serveAll_concat, huntouched clusterID hother (front ++ [event]) back (by simp [hevents]),
      huntouched clusterID hother front (event :: back) hevents]
  · intro hspares clusterID hother front
    induction front using List.reverseRecOn with
    | nil => exact fun _ _ => rfl
    | append_singleton front event ih =>
        intro back hevents
        have hsplit : events = front ++ event :: back := by simp [hevents]
        rw [serveAll_concat, (workflowsOf_serve_iff (hafter front event back hsplit)).mpr
          (hspares front event back hsplit) clusterID hother]
        exact ih (event :: back) hsplit

/-- An accepted event changes documents of its own cluster only, and a sequence of them leaves the
workflows of every other cluster alone, exactly when each event spares the others in the state it
is served in. -/
theorem agentsIsolated_iff (env : Env) (db : Database) (cluster : Cluster) :
    (∀ event, Authenticated env db cluster event →
      (ChangesOwnOnly env db cluster event ↔ SparesOthers env db cluster event)) ∧
    (∀ events, (∀ event ∈ events, Authenticated env db cluster event) →
      (OthersUntouched env db cluster events ↔ ∀ front event back,
        events = front ++ event :: back →
          SparesOthers env (serveAll env db front) cluster event)) :=
  ⟨fun _ => changesOwnOnly_iff, fun _ => othersUntouched_iff⟩

/-- The sample agent, reporting a run of a workflow that is its own. -/
theorem agentsIsolated_iff_own :
    ChangesOwnOnly sampleEnv sampleDatabase sampleCluster
        ⟨RunFaults.none, 0, sampleEvent "run-1" "Running" false⟩ ∧
      OthersUntouched sampleEnv sampleDatabase sampleCluster
        [⟨RunFaults.none, 0, sampleEvent "run-1" "Running" false⟩] := by
  have hspares : ∀ db : Database, (∀ doc ∈ db.workflows.docs, doc.clusterID = "cluster-1") →
      SparesOthers sampleEnv db sampleCluster
        ⟨RunFaults.none, 0, sampleEvent "run-1" "Running" false⟩ :=
    fun db hown _ _ _ _ _ doc hdoc _ hforeign => absurd (hown doc hdoc) hforeign
  constructor
  · exact ((agentsIsolated_iff sampleEnv sampleDatabase sampleCluster).1 _ (by decide)).mpr
      (hspares _ (by decide))
  · refine ((agentsIsolated_iff sampleEnv sampleDatabase sampleCluster).2 _ (by decide)).mpr ?_
    intro front event back hevents
    obtain ⟨rfl, rfl, rfl⟩ : front = [] ∧ event = _ ∧ back = [] := by
      cases front with
      | nil => simpa using hevents.symm
      | cons head tail => simp at hevents
    exact hspares _ (by decide)

/-- The sample agent reports a run for a workflow of another agent, and it is recorded there. -/
theorem not_agentsIsolated : ¬ AgentsIsolated := by
  intro hclaim
  let db : Database := {
    clusters := [sampleCluster,
      { sampleCluster with clusterID := "cluster-2", accessKey := "key-2" }]
    workflows := ⟨[{ sampleWorkflow with clusterID := "cluster-2" }], List.pairwise_singleton _ _⟩ }
  let event : AgentEvent := ⟨RunFaults.none, 0, sampleEvent "run-1" "Running" false⟩
  obtain ⟨-, hown⟩ := hclaim.1 sampleEnv db sampleCluster event (by decide)
  have hforeign : ∃ docs ∈ db.workflows.docs.zip (serve sampleEnv db event).workflows.docs,
      docs.1 ≠ docs.2 ∧ docs.1.clusterID ≠ sampleCluster.clusterID := by decide
  obtain ⟨docs, hdocs, hchanged, hother⟩ := hforeign
  exact hother (hown docs hdocs hchanged)

end LitmusPortal
