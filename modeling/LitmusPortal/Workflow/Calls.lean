import LitmusPortal.Workflow.Rewrite
import LitmusPortal.Lib.Transition

/-!
# Calls in flight

Any number of `ChaosWorkflowRun`, `DeleteChaosWorkflow` and `TerminateChaosWorkflow` calls, each at
some stage between its database steps, over one database. One step lets one call take its next
database step. What a call does between two of them touches nothing shared, so these are all the
interleavings there are.
-/

namespace LitmusPortal

/-- Where a `ChaosWorkflowRun` call stands; a stage is named after the step that comes next. -/
inductive RunStage where
  | verify
  | measure (cluster : Cluster) (executionData : ExecutionData)
  | count (cluster : Cluster) (wfRun : ChaosWorkflowRun)
  | write (cluster : Cluster) (wfRun : ChaosWorkflowRun) (count : Nat)
  | done (result : Except GoError RunReply)

inductive RewriteStage where
  | read
  | write (workflow : ChaosWorkFlow)
  | done (result : Except GoError Bool)

inductive Call where
  | event (request : WorkflowRunRequest) (stage : RunStage)
  | rewrite (kind : RewriteKind) (target : RunTarget) (username : Option String)
      (stage : RewriteStage)

/-- The database, the calls, and two histories no handler reads: the runs that acknowledged events
wrote, each with its workflow, and the runs that a delete or terminate has rewritten. -/
structure CallState where
  clusters : List Cluster
  workflows : Workflows
  calls : List Call
  acked : List (String × ChaosWorkflowRun)
  rewritten : List (String × String)

structure Tick where
  call : Nat
  fails : Bool
  now : Int
  deriving DecidableEq, Repr

/-- An event is acknowledged when it is accepted, not when it is discarded as a duplicate. -/
def acknowledged (request : WorkflowRunRequest) (wfRun : ChaosWorkflowRun) :
    Except GoError Nat → List (String × ChaosWorkflowRun)
  | .ok 0 => []
  | .ok _ => [(request.workflowID, wfRun)]
  | .error _ => []

/-- The stage an event call is in after its next step, with the collection and the history that
step leaves. -/
def stepEvent (env : Env) (s : CallState) (tick : Tick) (request : WorkflowRunRequest) :
    RunStage → Option (RunStage × Workflows × List (String × ChaosWorkflowRun))
  | .verify =>
      match verifyRequest env tick.fails s.clusters request with
      | .error err => some (.done (.error err), s.workflows, s.acked)
      | .ok (cluster, executionData) => some (.measure cluster executionData, s.workflows, s.acked)
  | .measure cluster executionData =>
      match measureRun env tick.fails s.workflows request executionData with
      | .error err => some (.done (.error err), s.workflows, s.acked)
      | .ok metrics =>
          some (.count cluster (newRun request executionData metrics tick.now), s.workflows, s.acked)
  | .count cluster wfRun =>
      if tick.fails then some (.done (.error databaseError), s.workflows, s.acked)
      else some (.write cluster wfRun (countRuns s.workflows request.workflowID wfRun.workflowRunID),
        s.workflows, s.acked)
  | .write cluster wfRun count =>
      let (result, workflows) := writeRun tick.fails s.workflows request.workflowID wfRun count
      some (.done (result.map (replyTo request cluster wfRun tick.now)), workflows,
        s.acked ++ acknowledged request wfRun result)
  | .done _ => none

def stepRewrite (s : CallState) (tick : Tick) (kind : RewriteKind) (target : RunTarget)
    (username : Option String) :
    RewriteStage → Option (RewriteStage × Workflows × List (String × String))
  | .read =>
      match prepareRewrite tick.fails s.workflows kind target username with
      | .error err => some (.done (.error err), s.workflows, s.rewritten)
      | .ok workflow => some (.write workflow, s.workflows, s.rewritten)
  | .write workflow =>
      let (result, workflows) :=
        processWorkflowRunDelete tick.fails s.workflows target workflow tick.now
      some (.done (result.map fun _ => true), workflows,
        if tick.fails then s.rewritten
        else s.rewritten ++ [(target.workflowID, target.workflowRunID)])
  | .done _ => none

def stepCall (env : Env) (s : CallState) (tick : Tick) : Option CallState :=
  match s.calls[tick.call]? with
  | none => none
  | some (.event request stage) =>
      (stepEvent env s tick request stage).map fun (stage', workflows, acked) =>
        { s with
          workflows := workflows
          calls := s.calls.set tick.call (.event request stage')
          acked := acked }
  | some (.rewrite kind target username stage) =>
      (stepRewrite s tick kind target username stage).map fun (stage', workflows, rewritten) =>
        { s with
          workflows := workflows
          calls := s.calls.set tick.call (.rewrite kind target username stage')
          rewritten := rewritten }

def startCalls (db : Database) (calls : List Call) : CallState where
  clusters := db.clusters
  workflows := db.workflows
  calls := calls
  acked := []
  rewritten := []

def Call.atStart : Call → Bool
  | .event _ .verify => true
  | .rewrite _ _ _ .read => true
  | _ => false

/-- The workflow and run a delete or terminate call is for; an event has none. -/
def Call.target : Call → Option (String × String)
  | .event _ _ => none
  | .rewrite _ target _ _ => some (target.workflowID, target.workflowRunID)

/-! ### Calls of the small installation -/

def sampleTarget (workflowRunID : String) (h : workflowRunID ≠ "") : RunTarget where
  projectID := "project-1"
  workflowID := "workflow-1"
  workflowRunID := workflowRunID
  workflowID_ne := by decide
  workflowRunID_ne := h

/-- Steps that succeed, taken by these calls one after the other. -/
def ticksOf (movers : List Nat) : List Tick := movers.map fun mover => ⟨mover, false, 0⟩

/-! ### What one step can do -/

/-- The workflow and run a call is about to push to: it has counted none and not written yet. -/
def Call.pendingPush : Call → Option (String × String)
  | .event request (.write _ wfRun 0) => some (request.workflowID, wfRun.workflowRunID)
  | _ => none

/-- The count a call is about to write after. -/
def Call.pendingWrite : Call → Option Nat
  | .event _ (.write _ _ count) => some count
  | _ => none

/-- The workflow and run a call is about to count. -/
def Call.pendingCount : Call → Option (String × String)
  | .event request (.count _ wfRun) => some (request.workflowID, wfRun.workflowRunID)
  | _ => none

/-- The target and the copy of a call that has read a workflow and not written it back. -/
def Call.pendingRewrite : Call → Option (RunTarget × ChaosWorkFlow)
  | .rewrite _ target _ (.write workflow) => some (target, workflow)
  | _ => none

/-- Everything a step can do. `quiet` is every step that neither counts nor reads for a later write
nor writes. -/
inductive Moved (s : CallState) (tick : Tick) : Call → Call → CallState → Prop
  | quiet {call call' : Call} (htarget : call'.target = call.target)
      (hpush : call'.pendingPush = none) (hrewrite : call'.pendingRewrite = none)
      (hwrite : call'.pendingWrite = none) :
      Moved s tick call call' { s with calls := s.calls.set tick.call call' }
  | counted {request : WorkflowRunRequest} {cluster : Cluster} {wfRun : ChaosWorkflowRun}
      (hfails : tick.fails = false) :
      Moved s tick (.event request (.count cluster wfRun))
        (.event request (.write cluster wfRun
          (countRuns s.workflows request.workflowID wfRun.workflowRunID)))
        { s with
          calls := s.calls.set tick.call (.event request (.write cluster wfRun
            (countRuns s.workflows request.workflowID wfRun.workflowRunID))) }
  | wrote {request : WorkflowRunRequest} {cluster : Cluster} {wfRun : ChaosWorkflowRun}
      {count : Nat} {call' : Call} (htarget : call'.target = none)
      (hpush : call'.pendingPush = none) (hrewrite : call'.pendingRewrite = none)
      (hwrite : call'.pendingWrite = none) :
      Moved s tick (.event request (.write cluster wfRun count)) call'
        { s with
          workflows := (writeRun tick.fails s.workflows request.workflowID wfRun count).2
          calls := s.calls.set tick.call call'
          acked := s.acked ++ acknowledged request wfRun
            (writeRun tick.fails s.workflows request.workflowID wfRun count).1 }
  | read {kind : RewriteKind} {target : RunTarget} {username : Option String}
      {doc : ChaosWorkFlow} (hdoc : doc ∈ s.workflows.docs)
      (hquery : targetQuery target doc = true) :
      Moved s tick (.rewrite kind target username .read)
        (.rewrite kind target username (.write (editRuns kind target doc)))
        { s with
          calls := s.calls.set tick.call
            (.rewrite kind target username (.write (editRuns kind target doc))) }
  | rewrote {kind : RewriteKind} {target : RunTarget} {username : Option String}
      {workflow : ChaosWorkFlow} {call' : Call} (hfails : tick.fails = false)
      (htarget : call'.target = some (target.workflowID, target.workflowRunID))
      (hpush : call'.pendingPush = none) (hrewrite : call'.pendingRewrite = none)
      (hwrite : call'.pendingWrite = none) :
      Moved s tick (.rewrite kind target username (.write workflow)) call'
        { s with
          workflows := (processWorkflowRunDelete false s.workflows target workflow tick.now).2
          calls := s.calls.set tick.call call'
          rewritten := s.rewritten ++ [(target.workflowID, target.workflowRunID)] }

theorem stepCall_moved {env : Env} {s s' : CallState} {tick : Tick}
    (h : stepCall env s tick = some s') :
    ∃ call call', s.calls[tick.call]? = some call ∧ Moved s tick call call' s' := by
  unfold stepCall at h
  cases hcall : s.calls[tick.call]? with
  | none => simp [hcall] at h
  | some call =>
      simp only [hcall] at h
      cases call with
      | event request stage =>
          cases stage with
          | verify =>
              simp only [stepEvent] at h
              split at h
              · cases h
                exact ⟨_, _, rfl, .quiet rfl rfl rfl rfl⟩
              · cases h
                exact ⟨_, _, rfl, .quiet rfl rfl rfl rfl⟩
          | measure cluster executionData =>
              simp only [stepEvent] at h
              split at h
              · cases h
                exact ⟨_, _, rfl, .quiet rfl rfl rfl rfl⟩
              · cases h
                exact ⟨_, _, rfl, .quiet rfl rfl rfl rfl⟩
          | count cluster wfRun =>
              simp only [stepEvent] at h
              split at h
              · cases h
                exact ⟨_, _, rfl, .quiet rfl rfl rfl rfl⟩
              · rename_i hfails
                cases h
                exact ⟨_, _, rfl, .counted (by simpa using hfails)⟩
          | write cluster wfRun count =>
              simp only [stepEvent, Option.map_some, Option.some.injEq] at h
              subst h
              exact ⟨_, _, rfl, .wrote rfl rfl rfl rfl⟩
          | done result => simp [stepEvent] at h
      | rewrite kind target username stage =>
          cases stage with
          | read =>
              simp only [stepRewrite] at h
              split at h
              · cases h
                exact ⟨_, _, rfl, .quiet rfl rfl rfl rfl⟩
              · rename_i workflow hread
                cases h
                obtain ⟨doc, hdoc, hquery, rfl⟩ := prepareRewrite_ok hread
                exact ⟨_, _, rfl, .read hdoc hquery⟩
          | write workflow =>
              simp only [stepRewrite, Option.map_some, Option.some.injEq] at h
              subst h
              cases hfails : tick.fails with
              | true =>
                  refine ⟨_, .rewrite kind target username (.done (.error databaseError)), rfl, ?_⟩
                  have hquiet : Moved s tick (.rewrite kind target username (.write workflow))
                      (.rewrite kind target username (.done (.error databaseError))) _ :=
                    .quiet rfl rfl rfl rfl
                  simpa [processWorkflowRunDelete, updateChaosWorkflow, Except.map] using hquiet
              | false => exact ⟨_, _, rfl, .rewrote hfails rfl rfl rfl rfl⟩
          | done result => simp [stepRewrite] at h

/-! ### A call that is not interrupted -/

section Alone

variable {env : Env} {s : CallState} {i : Nat} {request : WorkflowRunRequest}

/-- Some ticks of call `i` alone bring its event to this end and leave this collection. -/
def EventEnds (env : Env) (s : CallState) (i : Nat) (request : WorkflowRunRequest)
    (result : Except GoError RunReply) (workflows : Workflows) : Prop :=
  ∃ ticks acked, (∀ tick ∈ ticks, tick.call = i) ∧
    Transition.run (stepCall env) s ticks = some { s with
      workflows := workflows
      calls := s.calls.set i (.event request (.done result))
      acked := acked }

theorem EventEnds.step {stage stage' : RunStage} {workflows workflows' : Workflows}
    {acked : List (String × ChaosWorkflowRun)} {result : Except GoError RunReply} (tick : Tick)
    (hcall : s.calls[tick.call]? = some (.event request stage))
    (hstep : stepEvent env s tick request stage = some (stage', workflows, acked))
    (hends : ∀ s', s'.clusters = s.clusters → s'.workflows = workflows →
      s'.calls[tick.call]? = some (.event request stage') →
      EventEnds env s' tick.call request result workflows') :
    EventEnds env s tick.call request result workflows' := by
  have hlt := (List.getElem?_eq_some_iff.mp hcall).1
  let next : CallState := { s with
    workflows := workflows
    calls := s.calls.set tick.call (.event request stage')
    acked := acked }
  have hnext : stepCall env s tick = some next := by
    unfold stepCall
    rw [hcall]
    simp only [hstep, Option.map_some]
    rfl
  obtain ⟨ticks, acked', hmine, hrun⟩ := hends next rfl rfl (List.getElem?_set_self hlt)
  refine ⟨tick :: ticks, acked', ?_, ?_⟩
  · intro other hother
    rcases List.mem_cons.mp hother with rfl | hother
    · rfl
    · exact hmine other hother
  · rw [Transition.run_cons, hnext, Option.bind_some, hrun]
    simp only [next, List.set_set]

theorem EventEnds.done {result : Except GoError RunReply}
    (hcall : s.calls[i]? = some (.event request (.done result))) :
    EventEnds env s i request result s.workflows := by
  obtain ⟨hlt, hget⟩ := List.getElem?_eq_some_iff.mp hcall
  exact ⟨[], s.acked, by simp, by rw [Transition.run_nil, ← hget, List.set_getElem_self]⟩

/-- A call whose steps follow one another does what the handler does. -/
theorem run_event_alone (faults : RunFaults) (now : Int)
    (hcall : s.calls[i]? = some (.event request .verify)) :
    EventEnds env s i request
      (chaosWorkflowRun env faults now ⟨s.clusters, s.workflows⟩ request).1
      (chaosWorkflowRun env faults now ⟨s.clusters, s.workflows⟩ request).2.workflows := by
  unfold chaosWorkflowRun
  cases hverify : verifyRequest env faults.getCluster s.clusters request with
  | error err =>
      refine EventEnds.step ⟨i, faults.getCluster, now⟩ hcall
        (by simp only [stepEvent, hverify]; rfl) ?_
      rintro s' - hworkflows hcall'
      exact hworkflows ▸ EventEnds.done hcall'
  | ok verified =>
      obtain ⟨cluster, executionData⟩ := verified
      refine EventEnds.step ⟨i, faults.getCluster, now⟩ hcall
        (by simp only [stepEvent, hverify]; rfl) ?_
      rintro s₁ - hworkflows₁ hcall₁
      cases hmeasure : measureRun env faults.getWorkflows s.workflows request executionData with
      | error err =>
          refine EventEnds.step ⟨i, faults.getWorkflows, now⟩ hcall₁
            (by simp only [stepEvent, hworkflows₁, hmeasure]; rfl) ?_
          rintro s' - hworkflows hcall'
          simp only [hmeasure]
          exact hworkflows ▸ EventEnds.done hcall'
      | ok metrics =>
          refine EventEnds.step ⟨i, faults.getWorkflows, now⟩ hcall₁
            (by simp only [stepEvent, hworkflows₁, hmeasure]; rfl) ?_
          rintro s₂ - hworkflows₂ hcall₂
          simp only [hmeasure]
          cases hcount : faults.countDocuments with
          | true =>
              refine EventEnds.step ⟨i, true, now⟩ hcall₂
                (by simp only [stepEvent, if_true]; rfl) ?_
              rintro s' - hworkflows hcall'
              simp only [updateWorkflowRun, if_true]
              exact (hworkflows.trans hworkflows₂) ▸ EventEnds.done hcall'
          | false =>
              refine EventEnds.step ⟨i, false, now⟩ hcall₂
                (by simp only [stepEvent, Bool.false_eq_true, if_false]; rfl) ?_
              rintro s₃ - hworkflows₃ hcall₃
              refine EventEnds.step ⟨i, faults.update, now⟩ hcall₃ (by simp only [stepEvent]; rfl) ?_
              rintro s' - hworkflows hcall'
              rw [hworkflows₃, hworkflows₂] at hworkflows hcall'
              simp only [updateWorkflowRun, Bool.false_eq_true, if_false]
              exact hworkflows ▸ EventEnds.done hcall'

theorem run_rewrite_alone {kind : RewriteKind} {target : RunTarget} {username : Option String}
    (readFails writeFails : Bool) (now : Int)
    (hcall : s.calls[i]? = some (.rewrite kind target username .read)) :
    ∃ ticks rewritten, (∀ tick ∈ ticks, tick.call = i) ∧
      Transition.run (stepCall env) s ticks = some { s with
        workflows := (rewriteRun readFails writeFails now s.workflows kind target username).2
        calls := s.calls.set i (.rewrite kind target username
          (.done (rewriteRun readFails writeFails now s.workflows kind target username).1))
        rewritten := rewritten } := by
  have hlt := (List.getElem?_eq_some_iff.mp hcall).1
  unfold rewriteRun
  cases hread : prepareRewrite readFails s.workflows kind target username with
  | error err =>
      refine ⟨[⟨i, readFails, now⟩], s.rewritten, by simp, ?_⟩
      simp only [Transition.run_cons, stepCall, hcall, stepRewrite, hread, Option.map_some,
        Option.bind_some, Transition.run_nil]
  | ok workflow =>
      refine ⟨[⟨i, readFails, now⟩, ⟨i, writeFails, now⟩], if writeFails then s.rewritten
        else s.rewritten ++ [(target.workflowID, target.workflowRunID)], by simp, ?_⟩
      simp only [Transition.run_cons, stepCall, hcall, stepRewrite, hread, Option.map_some,
        Option.bind_some, List.getElem?_set_self hlt, List.set_set, Transition.run_nil]

end Alone

end LitmusPortal
