import LitmusPortal.Workflow.Calls

/-!
# The life cycle of a run

Events, terminate calls and delete calls one after another. An entry of a run list never moves, so
it is named by its workflow and its position. Two latches are looked at: a completed entry takes no
more values from events, and a removed entry stays removed. The first always holds. The second
fails where an event is written over an entry that is removed and not yet completed, because the
write sets `isRemoved` back to false, and there only.
-/

namespace LitmusPortal

open DocumentStore

inductive RunOp where
  | event (faults : RunFaults) (now : Int) (request : WorkflowRunRequest)
  | rewrite (readFails writeFails : Bool) (now : Int) (kind : RewriteKind) (target : RunTarget)
      (username : Option String)

def RunOp.apply (env : Env) (db : Database) : RunOp → Database
  | .event faults now request => (chaosWorkflowRun env faults now db request).2
  | .rewrite readFails writeFails now kind target username =>
      { db with
        workflows := (rewriteRun readFails writeFails now db.workflows kind target username).2 }

def applyAll (env : Env) (db : Database) (ops : List RunOp) : Database :=
  ops.foldl (RunOp.apply env) db

@[simp]
theorem applyAll_nil (env : Env) (db : Database) : applyAll env db [] = db := rfl

theorem applyAll_append (env : Env) (db : Database) (front back : List RunOp) :
    applyAll env db (front ++ back) = applyAll env (applyAll env db front) back :=
  List.foldl_append

theorem applyAll_concat (env : Env) (db : Database) (front : List RunOp) (op : RunOp) :
    applyAll env db (front ++ [op]) = op.apply env (applyAll env db front) := by
  rw [applyAll_append]
  rfl

def runAt (db : Database) (workflowID : String) (i : Nat) : Option ChaosWorkflowRun :=
  (db.workflows.docs.find? fun doc => doc.workflowID = workflowID).bind (·.workflowRuns[i]?)

/-- The entries that are removed in the first database are removed in the second. -/
def RemovedKept (db db' : Database) : Prop :=
  ∀ workflowID i run, runAt db workflowID i = some run → run.isRemoved = some true →
    ∃ run', runAt db' workflowID i = some run' ∧ run'.isRemoved = some true

/-- The entries that are completed in the first database have the same phase, score and execution
data in the second and the third. -/
def CompletedFrozen (db before after : Database) : Prop :=
  ∀ workflowID i run, runAt db workflowID i = some run → run.completed = true →
    ∃ old new, runAt before workflowID i = some old ∧ runAt after workflowID i = some new ∧
      new.phase = old.phase ∧ new.resiliencyScore = old.resiliencyScore ∧
      new.executionData = old.executionData

/-- Over the whole sequence, an entry once completed is not changed by a later event, and an entry
once removed stays removed. -/
def LifeCycleMonotone (env : Env) (db : Database) (ops : List RunOp) : Prop :=
  (∀ front mid faults now request back,
    ops = front ++ mid ++ RunOp.event faults now request :: back →
    CompletedFrozen (applyAll env db front) (applyAll env db (front ++ mid))
      (applyAll env db (front ++ mid ++ [.event faults now request]))) ∧
  (∀ front mid back, ops = front ++ mid ++ back →
    RemovedKept (applyAll env db front) (applyAll env db (front ++ mid)))

/-- The entry a positional update for this request would hit. -/
def openEntry (db : Database) (request : WorkflowRunRequest) : Option ChaosWorkflowRun :=
  (db.workflows.docs.find? fun doc => doc.workflowID = request.workflowID).bind
    (·.workflowRuns.find? (isOpenRun request.workflowRunID))

/-- No event is written over an entry that is removed and not completed. -/
def SparesRemoved (env : Env) (db : Database) : RunOp → Prop
  | .event faults _ request => reachesWrite env faults db request = true →
      ∀ entry ∈ openEntry db request, entry.isRemoved ≠ some true
  | .rewrite _ _ _ _ _ _ => True

/-! ### What an event does to an entry -/

theorem find?_map_onWorkflow (workflowID : String)
    (change : List ChaosWorkflowRun → List ChaosWorkflowRun) (docs : List ChaosWorkFlow)
    (other : String) :
    ((docs.map (onWorkflow workflowID change)).find? fun doc => doc.workflowID = other) =
      (docs.find? fun doc => doc.workflowID = other).map (onWorkflow workflowID change) := by
  rw [List.find?_map]
  congr 1
  exact congrArg (docs.find? ·) (funext fun doc => by simp)

theorem runAt_onWorkflow {db db' : Database} {workflowID other : String} {i : Nat}
    {change : List ChaosWorkflowRun → List ChaosWorkflowRun} {run : ChaosWorkflowRun}
    (hdocs : db'.workflows.docs = db.workflows.docs.map (onWorkflow workflowID change))
    (hrun : runAt db other i = some run) :
    ∃ doc, db.workflows.docs.find? (fun doc => doc.workflowID = other) = some doc ∧
      doc.workflowRuns[i]? = some run ∧
      runAt db' other i =
        if other = workflowID then (change doc.workflowRuns)[i]? else some run := by
  obtain ⟨doc, hfind, hget⟩ := Option.bind_eq_some_iff.mp hrun
  have hid : doc.workflowID = other := by simpa using List.find?_some hfind
  refine ⟨doc, hfind, hget, ?_⟩
  rw [runAt, hdocs, find?_map_onWorkflow, hfind, Option.map_some, Option.bind_some]
  by_cases heq : other = workflowID
  · rw [if_pos heq, onWorkflow_of_eq (hid.trans heq)]
  · rw [if_neg heq, onWorkflow_of_ne (hid ▸ heq), hget]

/-- The write hits the open entry with the event's run id, and no other. -/
theorem getElem?_writtenRuns {wfRun run : ChaosWorkflowRun} {count i : Nat}
    {runs : List ChaosWorkflowRun} (hrun : runs[i]? = some run) :
    (writtenRuns false wfRun count runs)[i]? = some run ∨
      (runs.find? (isOpenRun wfRun.workflowRunID) = some run ∧
        (writtenRuns false wfRun count runs)[i]? = some (setRunFields wfRun run)) := by
  unfold writtenRuns
  by_cases hzero : count = 0
  · simp only [hzero, if_true, Bool.false_eq_true, if_false]
    exact Or.inl (by rw [List.getElem?_append_left (List.getElem?_eq_some_iff.mp hrun).1, hrun])
  · by_cases hone : count = 1
    · simp only [hone, Nat.one_ne_zero, if_true, Bool.false_eq_true, if_false]
      exact getElem?_updateFirst hrun
    · simp only [hzero, hone, Bool.false_eq_true, if_false]
      exact Or.inl hrun

/-- What an event does to an entry: nothing, or it writes its values over the open entry of its
run. -/
theorem runAt_event (env : Env) (faults : RunFaults) (now : Int) {db : Database}
    (request : WorkflowRunRequest) {workflowID : String} {i : Nat} {run : ChaosWorkflowRun}
    (hrun : runAt db workflowID i = some run) :
    runAt (chaosWorkflowRun env faults now db request).2 workflowID i = some run ∨
      (reachesWrite env faults db request = true ∧ openEntry db request = some run ∧
        ∃ run', runAt (chaosWorkflowRun env faults now db request).2 workflowID i = some run') := by
  rcases chaosWorkflowRun_docs env faults now db request with
    ⟨-, hsame⟩ | ⟨hreaches, -, executionData, metrics, -, -, hdocs⟩
  · rw [hsame]
    exact Or.inl hrun
  · obtain ⟨doc, hfind, hget, hafter⟩ := runAt_onWorkflow hdocs hrun
    rw [hafter]
    by_cases heq : workflowID = request.workflowID
    · subst heq
      simp only [if_true]
      rcases getElem?_writtenRuns hget with hsame | ⟨hopen, hset⟩
      · exact Or.inl hsame
      · refine Or.inr ⟨hreaches, ?_, _, hset⟩
        rw [openEntry, hfind, Option.bind_some]
        exact hopen
    · exact Or.inl (if_neg heq)

theorem openEntry_completed {db : Database} {request : WorkflowRunRequest}
    {run : ChaosWorkflowRun} (h : openEntry db request = some run) : run.completed = false := by
  obtain ⟨doc, -, hfind⟩ := Option.bind_eq_some_iff.mp h
  have hopen := List.find?_some hfind
  simp only [isOpenRun, Bool.and_eq_true, Bool.not_eq_true'] at hopen
  exact hopen.2

/-! ### What a delete or terminate does to an entry -/

theorem runAt_rewrite (readFails writeFails : Bool) (now : Int) {db : Database}
    (kind : RewriteKind) (target : RunTarget) (username : Option String) {workflowID : String}
    {i : Nat} {run : ChaosWorkflowRun} (hrun : runAt db workflowID i = some run) :
    let workflows := (rewriteRun readFails writeFails now db.workflows kind target username).2
    runAt { db with workflows := workflows } workflowID i = some run ∨
      runAt { db with workflows := workflows } workflowID i =
        some (editRun kind target.workflowRunID run) := by
  intro workflows
  obtain ⟨doc, hfind, hget⟩ := Option.bind_eq_some_iff.mp hrun
  have hdoc : doc ∈ db.workflows.docs := List.mem_of_find?_eq_some hfind
  cases hread : prepareRewrite readFails db.workflows kind target username with
  | error err =>
      have hsame : workflows = db.workflows := by simp [workflows, rewriteRun, hread]
      exact Or.inl (by rw [hsame]; exact hrun)
  | ok copy =>
      obtain ⟨source, hsource, hquery, rfl⟩ := prepareRewrite_ok hread
      have hdocs : workflows.docs = if writeFails then db.workflows.docs else
          db.workflows.docs.map
            (replaceRuns target (editRuns kind target source).workflowRuns now) := by
        simp only [workflows, rewriteRun, hread]
        exact processWorkflowRunDelete_docs writeFails db.workflows target _ now
      cases writeFails with
      | true => exact Or.inl (by rw [runAt, hdocs, if_pos rfl]; exact hrun)
      | false =>
          have hafter : runAt { db with workflows := workflows } workflowID i =
              (replaceRuns target (editRuns kind target source).workflowRuns now
                doc).workflowRuns[i]? := by
            have hpred : ((fun doc : ChaosWorkFlow => decide (doc.workflowID = workflowID)) ∘
                replaceRuns target (editRuns kind target source).workflowRuns now) =
                  fun doc => decide (doc.workflowID = workflowID) := funext fun doc => by simp
            rw [runAt, hdocs, if_neg (by simp), List.find?_map, hpred, hfind, Option.map_some,
              Option.bind_some]
          rw [hafter]
          unfold replaceRuns
          by_cases htarget : targetQuery target doc = true
          · -- the document written is the one that was read, so the copy holds this very entry
            have hcopy : source = doc := db.workflows.workflowID_injective hsource hdoc
              ((targetQuery_iff.mp hquery).1.trans (targetQuery_iff.mp htarget).1.symm)
            refine Or.inr ?_
            rw [if_pos htarget, hcopy]
            simp only [editRuns, List.getElem?_map, hget, Option.map_some]
          · rw [if_neg htarget]
            exact Or.inl hget

theorem editRun_isRemoved {kind : RewriteKind} {workflowRunID : String} {run : ChaosWorkflowRun}
    (h : run.isRemoved = some true) :
    (editRun kind workflowRunID run).isRemoved = some true := by
  unfold editRun
  split
  · cases kind with
    | deleteRun => rfl
    | terminate => exact h
  · exact h

theorem editRun_completed {kind : RewriteKind} {workflowRunID : String} {run : ChaosWorkflowRun}
    (h : run.completed = true) : (editRun kind workflowRunID run).completed = true := by
  unfold editRun
  split
  · cases kind with
    | deleteRun => exact h
    | terminate => rfl
  · exact h

/-! ### The latches over a sequence -/

/-- An entry keeps its place, and a completed one stays completed. -/
theorem apply_completed (env : Env) {db : Database} (op : RunOp) {workflowID : String} {i : Nat}
    {run : ChaosWorkflowRun} (hrun : runAt db workflowID i = some run)
    (hcompleted : run.completed = true) :
    ∃ run', runAt (op.apply env db) workflowID i = some run' ∧ run'.completed = true := by
  cases op with
  | event faults now request =>
      rcases runAt_event env faults now request hrun with hsame | ⟨-, hopen, -⟩
      · exact ⟨run, hsame, hcompleted⟩
      · rw [openEntry_completed hopen] at hcompleted
        cases hcompleted
  | rewrite readFails writeFails now kind target username =>
      rcases runAt_rewrite readFails writeFails now kind target username hrun with hsame | hedit
      · exact ⟨run, hsame, hcompleted⟩
      · exact ⟨_, hedit, editRun_completed hcompleted⟩

theorem applyAll_completed (env : Env) {db : Database} (ops : List RunOp) {workflowID : String}
    {i : Nat} {run : ChaosWorkflowRun} (hrun : runAt db workflowID i = some run)
    (hcompleted : run.completed = true) :
    ∃ run', runAt (applyAll env db ops) workflowID i = some run' ∧ run'.completed = true := by
  induction ops generalizing db run with
  | nil => exact ⟨run, hrun, hcompleted⟩
  | cons op ops ih =>
      obtain ⟨run', hrun', hcompleted'⟩ := apply_completed env op hrun hcompleted
      exact ih hrun' hcompleted'

theorem completedFrozen_event (env : Env) (db : Database) (mid : List RunOp) (faults : RunFaults)
    (now : Int) (request : WorkflowRunRequest) :
    CompletedFrozen db (applyAll env db mid)
      (applyAll env db (mid ++ [.event faults now request])) := by
  intro workflowID i run hrun hcompleted
  obtain ⟨old, hold, holdCompleted⟩ := applyAll_completed env mid hrun hcompleted
  rw [applyAll_concat]
  rcases runAt_event env faults now request hold with hsame | ⟨-, hopen, -⟩
  · exact ⟨old, old, hold, hsame, rfl, rfl, rfl⟩
  · rw [openEntry_completed hopen] at holdCompleted
    cases holdCompleted

/-- A request that spares the removed entries keeps them removed. -/
theorem removedKept_apply {env : Env} {db : Database} {op : RunOp} (h : SparesRemoved env db op) :
    RemovedKept db (op.apply env db) := by
  intro workflowID i run hrun hremoved
  cases op with
  | event faults now request =>
      rcases runAt_event env faults now request hrun with hsame | ⟨hreaches, hopen, -⟩
      · exact ⟨run, hsame, hremoved⟩
      · exact absurd hremoved (h hreaches run hopen)
  | rewrite readFails writeFails now kind target username =>
      rcases runAt_rewrite readFails writeFails now kind target username hrun with hsame | hedit
      · exact ⟨run, hsame, hremoved⟩
      · exact ⟨_, hedit, editRun_isRemoved hremoved⟩

theorem removedKept_applyAll {env : Env} {db : Database} {ops : List RunOp}
    (h : ∀ front op back, ops = front ++ op :: back →
      SparesRemoved env (applyAll env db front) op) :
    RemovedKept db (applyAll env db ops) := by
  induction ops generalizing db with
  | nil => exact fun workflowID i run hrun hremoved => ⟨run, hrun, hremoved⟩
  | cons op ops ih =>
      have hrest : RemovedKept (op.apply env db) (applyAll env (op.apply env db) ops) :=
        ih fun front later back hops => h (op :: front) later back (by rw [hops, List.cons_append])
      intro workflowID i run hrun hremoved
      obtain ⟨run', hrun', hremoved'⟩ :=
        removedKept_apply (h [] op ops rfl) workflowID i run hrun hremoved
      exact hrest workflowID i run' hrun' hremoved'

/-- An event that is written over an open entry leaves that entry with `isRemoved` false. -/
theorem exists_runAt_event_not_removed {env : Env} {faults : RunFaults} (now : Int) {db : Database}
    {request : WorkflowRunRequest} {entry : ChaosWorkflowRun}
    (hreaches : reachesWrite env faults db request = true)
    (hopen : openEntry db request = some entry) :
    ∃ i run, runAt db request.workflowID i = some entry ∧
      runAt (chaosWorkflowRun env faults now db request).2 request.workflowID i = some run ∧
      run.isRemoved = some false := by
  obtain ⟨doc, hfind, hentry⟩ := Option.bind_eq_some_iff.mp hopen
  have hrunID : entry.workflowRunID = request.workflowRunID := by
    have hopenRun := List.find?_some hentry
    simp only [isOpenRun, Bool.and_eq_true, decide_eq_true_eq] at hopenRun
    exact hopenRun.1
  have hcount : countRuns db.workflows request.workflowID request.workflowRunID = 1 :=
    countRuns_eq_one (List.mem_of_find?_eq_some hfind) (by simpa using List.find?_some hfind)
      (List.mem_of_find?_eq_some hentry) hrunID
  rcases chaosWorkflowRun_docs env faults now db request with
    ⟨hnot, -⟩ | ⟨-, -, executionData, metrics, -, -, hdocs⟩
  · rw [hreaches] at hnot
    cases hnot
  · obtain ⟨i, hi, hset⟩ := exists_getElem?_updateFirst
      (setRunFields (newRun request executionData metrics now)) hentry
    have hbefore : runAt db request.workflowID i = some entry := by
      rw [runAt, hfind, Option.bind_some, hi]
    obtain ⟨doc', hfind', -, hafter⟩ := runAt_onWorkflow hdocs hbefore
    obtain rfl : doc = doc' := Option.some.inj (hfind.symm.trans hfind')
    refine ⟨i, setRunFields (newRun request executionData metrics now) entry, hbefore, ?_, rfl⟩
    rw [hafter, if_pos rfl, hcount]
    exact hset

/-- A sequence keeps the life cycle of every entry monotone exactly when none of its events is
written over an entry that is removed and not completed. -/
theorem lifeCycleMonotone_iff (env : Env) (db : Database) (ops : List RunOp) :
    LifeCycleMonotone env db ops ↔
      ∀ front op back, ops = front ++ op :: back → SparesRemoved env (applyAll env db front) op := by
  constructor
  · rintro ⟨-, hremoved⟩ front op back hops
    cases op with
    | rewrite readFails writeFails now kind target username => trivial
    | event faults now request =>
        intro hreaches entry hopen hentry
        obtain ⟨i, run, hbefore, hafter, hnot⟩ :=
          exists_runAt_event_not_removed now hreaches (Option.mem_def.mp hopen)
        have hkept := hremoved front [.event faults now request] back (by rw [hops]; simp)
        obtain ⟨run', hrun', hremoved'⟩ := hkept _ i entry hbefore hentry
        rw [applyAll_concat] at hrun'
        obtain rfl : run = run' := Option.some.inj (hafter.symm.trans hrun')
        rw [hnot] at hremoved'
        cases hremoved'
  · intro hspares
    constructor
    · intro front mid faults now request back hops
      rw [List.append_assoc, applyAll_append, applyAll_append]
      exact completedFrozen_event env _ mid faults now request
    · intro front mid back hops
      rw [applyAll_append]
      refine removedKept_applyAll fun front' op back' hmid => ?_
      rw [← applyAll_append]
      exact hspares (front ++ front') op (back' ++ back) (by rw [hops, hmid]; simp)

/-- A running run is recorded and deleted; the next event of the agent brings it back. -/
theorem not_lifeCycleMonotone :
    ¬ ∀ (env : Env) (db : Database) (ops : List RunOp), LifeCycleMonotone env db ops := by
  intro hclaim
  let running := RunOp.event RunFaults.none 0 (sampleEvent "run-1" "Running" false)
  let deleted := RunOp.rewrite false false 0 .deleteRun (sampleTarget "run-1" (by decide))
    (some "admin")
  have hkept := (hclaim sampleEnv sampleDatabase [running, deleted, running]).2
    [running, deleted] [running] [] rfl
  have hbefore : (runAt (applyAll sampleEnv sampleDatabase [running, deleted]) "workflow-1" 0).map
      (·.isRemoved) = some (some true) := by decide
  have hafter : (runAt (applyAll sampleEnv sampleDatabase [running, deleted, running])
      "workflow-1" 0).map (·.isRemoved) = some (some false) := by decide
  obtain ⟨run, hrun, hremoved⟩ := Option.map_eq_some_iff.mp hbefore
  obtain ⟨run', hrun', hremoved'⟩ := hkept "workflow-1" 0 run hrun hremoved
  rw [List.cons_append, List.cons_append, List.nil_append] at hrun'
  rw [hrun', Option.map_some, hremoved'] at hafter
  cases hafter

end LitmusPortal
