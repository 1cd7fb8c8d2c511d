import LitmusPortal.Workflow.Calls

/-!
# One entry per run

`UpdateWorkflowRun` counts the entries of a run and then pushes one or updates one. What keeps the
entries unique is that a count of none still holds when the push is made. The invariant charges each
call between its count of none and its push one unit for its run, on top of the entries already
there: the total for a run is at most one.
-/

namespace LitmusPortal

/-- Every workflow document holds at most one entry for each run id. -/
def UniqueRuns (workflows : Workflows) : Prop :=
  ∀ doc ∈ workflows.docs, (doc.workflowRuns.map (·.workflowRunID)).Nodup

instance (workflows : Workflows) : Decidable (UniqueRuns workflows) :=
  inferInstanceAs (Decidable (∀ doc ∈ workflows.docs, (doc.workflowRuns.map (·.workflowRunID)).Nodup))

/-- Uniqueness is kept by every interleaving of any number of events. -/
def EventsKeepRunsUnique : Prop :=
  ∀ (env : Env) (db : Database) (calls : List Call) (ticks : List Tick) (s : CallState),
    UniqueRuns db.workflows → (∀ call ∈ calls, call.target = none) →
    (∀ call ∈ calls, call.atStart = true) →
    Transition.run (stepCall env) (startCalls db calls) ticks = some s → UniqueRuns s.workflows

/-- A count is only taken while no other call is between its count of none and its push for the
same run. -/
def NoOverlappingCount (s : CallState) (tick : Tick) : Prop :=
  match s.calls[tick.call]?.bind Call.pendingCount with
  | none => True
  | some key => ∀ other ∈ s.calls, other.pendingPush ≠ some key

instance (s : CallState) (tick : Tick) : Decidable (NoOverlappingCount s tick) := by
  unfold NoOverlappingCount
  split <;> infer_instance

/-- The calls that are about to push this run. -/
def pushers (calls : List Call) (workflowID workflowRunID : String) : Nat :=
  calls.countP fun call => call.pendingPush = some (workflowID, workflowRunID)

def entries (runs : List ChaosWorkflowRun) (workflowRunID : String) : Nat :=
  (runs.map (·.workflowRunID)).count workflowRunID

structure PushBudget (s : CallState) : Prop where
  events : ∀ call ∈ s.calls, call.target = none
  budget : ∀ doc ∈ s.workflows.docs, ∀ workflowRunID,
    pushers s.calls doc.workflowID workflowRunID + entries doc.workflowRuns workflowRunID ≤ 1

theorem PushBudget.uniqueRuns {s : CallState} (h : PushBudget s) : UniqueRuns s.workflows := by
  intro doc hdoc
  rw [List.nodup_iff_count_le_one]
  intro workflowRunID
  have hbudget := h.budget doc hdoc workflowRunID
  unfold entries at hbudget
  omega

theorem pushBudget_start {db : Database} {calls : List Call} (hunique : UniqueRuns db.workflows)
    (hevents : ∀ call ∈ calls, call.target = none) (hstart : ∀ call ∈ calls, call.atStart = true) :
    PushBudget (startCalls db calls) := by
  refine ⟨hevents, fun doc hdoc workflowRunID => ?_⟩
  have hpushers : pushers calls doc.workflowID workflowRunID = 0 := by
    rw [pushers, List.countP_eq_zero]
    intro call hcall hpush
    have hcallStart := hstart call hcall
    unfold Call.pendingPush at hpush
    split at hpush
    · simp [Call.atStart] at hcallStart
    · simp at hpush
  have hentries : entries doc.workflowRuns workflowRunID ≤ 1 :=
    List.nodup_iff_count_le_one.mp (hunique doc hdoc) workflowRunID
  simp only [startCalls, hpushers]
  omega

/-- Moving one call changes the number of pushers by what that call was and what it becomes. -/
theorem pushers_set {calls : List Call} {i : Nat} {call : Call} (hcall : calls[i]? = some call)
    (call' : Call) (workflowID workflowRunID : String) :
    pushers (calls.set i call') workflowID workflowRunID +
        (if call.pendingPush = some (workflowID, workflowRunID) then 1 else 0) =
      pushers calls workflowID workflowRunID +
        (if call'.pendingPush = some (workflowID, workflowRunID) then 1 else 0) := by
  obtain ⟨hlt, hget⟩ := List.getElem?_eq_some_iff.mp hcall
  unfold pushers
  rw [List.countP_set hlt, hget]
  have hpos : call.pendingPush = some (workflowID, workflowRunID) →
      0 < calls.countP fun call => call.pendingPush = some (workflowID, workflowRunID) :=
    fun hpush => List.countP_pos_iff.mpr ⟨call, hget ▸ List.getElem_mem hlt, by simpa using hpush⟩
  by_cases hold : call.pendingPush = some (workflowID, workflowRunID)
  · have := hpos hold
    simp only [hold, decide_true, if_true, decide_eq_true_eq]
    omega
  · simp [hold]

theorem target_set {calls : List Call} {i : Nat} {call' : Call}
    (hcalls : ∀ call ∈ calls, call.target = none) (h : call'.target = none) :
    ∀ call ∈ calls.set i call', call.target = none := by
  intro call hmem
  rcases List.mem_or_eq_of_mem_set hmem with hmem | rfl
  · exact hcalls call hmem
  · exact h

/-- A written document has at most the entries it had, and one more for a run that a count of none
was pushed for. -/
theorem entries_onWorkflow_le (fails : Bool) (wfRun : ChaosWorkflowRun) (count : Nat)
    (workflowID : String) (doc : ChaosWorkFlow) (workflowRunID : String) :
    entries (onWorkflow workflowID (writtenRuns fails wfRun count) doc).workflowRuns workflowRunID ≤
      entries doc.workflowRuns workflowRunID +
        (if count = 0 ∧ doc.workflowID = workflowID ∧ wfRun.workflowRunID = workflowRunID
          then 1 else 0) := by
  by_cases hid : doc.workflowID = workflowID
  · rw [onWorkflow_of_eq hid]
    unfold writtenRuns entries
    by_cases hfails : fails = true
    · simp [hfails]
    · by_cases hzero : count = 0
      · simp only [hfails, hzero, hid, if_true, true_and, Bool.false_eq_true, if_false,
          List.map_append, List.map_cons, List.map_nil, List.count_append, List.count_singleton,
          beq_iff_eq]
        exact le_rfl
      · by_cases hone : count = 1
        · simp only [hfails, hone, if_true, Bool.false_eq_true, if_false, Nat.one_ne_zero,
            map_workflowRunID_updateFirst]
          exact Nat.le_add_right _ _
        · simp [hfails, hzero, hone]
  · rw [onWorkflow_of_ne hid]
    exact Nat.le_add_right _ _

theorem pushBudget_step {env : Env} {s s' : CallState} {tick : Tick} (h : PushBudget s)
    (hallowed : NoOverlappingCount s tick) (hstep : stepCall env s tick = some s') :
    PushBudget s' := by
  obtain ⟨call, call', hcall, hmoved⟩ := stepCall_moved hstep
  have hmem : call ∈ s.calls := List.mem_of_getElem? hcall
  cases hmoved with
  | quiet htarget hpush hrewrite hwrite =>
      refine ⟨target_set h.events (htarget.trans (h.events call hmem)), ?_⟩
      intro doc hdoc workflowRunID
      have hset := pushers_set hcall call' doc.workflowID workflowRunID
      have hbudget := h.budget doc hdoc workflowRunID
      simp only [hpush, reduceCtorEq, if_false] at hset
      simp only
      omega
  | counted hfails =>
      rename_i request cluster wfRun
      refine ⟨target_set h.events rfl, ?_⟩
      intro doc hdoc workflowRunID
      have hset := pushers_set hcall (.event request (.write cluster wfRun
        (countRuns s.workflows request.workflowID wfRun.workflowRunID))) doc.workflowID
        workflowRunID
      have hbudget := h.budget doc hdoc workflowRunID
      have hcounting : Call.pendingPush (.event request (.count cluster wfRun)) = none := rfl
      simp only [hcounting, reduceCtorEq, if_false] at hset
      simp only
      by_cases hpush : Call.pendingPush (.event request (.write cluster wfRun
          (countRuns s.workflows request.workflowID wfRun.workflowRunID))) =
            some (doc.workflowID, workflowRunID)
      · -- a count of none: by the condition nobody else is about to push this run
        have hzero : countRuns s.workflows request.workflowID wfRun.workflowRunID = 0 ∧
            request.workflowID = doc.workflowID ∧ wfRun.workflowRunID = workflowRunID := by
          unfold Call.pendingPush at hpush
          split at hpush
          · rename_i heq
            simp only [Call.event.injEq, RunStage.write.injEq] at heq
            obtain ⟨rfl, -, rfl, hcount⟩ := heq
            simp only [Option.some.injEq, Prod.mk.injEq] at hpush
            exact ⟨hcount, hpush⟩
          · cases hpush
        obtain ⟨hcount, hid, rfl⟩ := hzero
        have hnobody : pushers s.calls doc.workflowID wfRun.workflowRunID = 0 := by
          rw [pushers, List.countP_eq_zero]
          intro other hother hpending
          unfold NoOverlappingCount at hallowed
          simp only [hcall, Option.bind_some, Call.pendingCount] at hallowed
          exact hallowed other hother (by rw [hid]; simpa using hpending)
        have hempty : entries doc.workflowRuns wfRun.workflowRunID = 0 := by
          rw [entries, List.count_eq_zero]
          intro hrun
          obtain ⟨run, hrun, hrunID⟩ := List.mem_map.mp hrun
          exact countRuns_eq_zero_iff.mp hcount doc hdoc hid.symm run hrun hrunID
        rw [if_pos hpush] at hset
        omega
      · rw [if_neg hpush] at hset
        omega
  | wrote htarget hpush hrewrite hwrite =>
      rename_i request cluster wfRun count
      refine ⟨target_set h.events htarget, ?_⟩
      intro doc' hdoc' workflowRunID
      rw [writeRun_docs] at hdoc'
      obtain ⟨doc, hdoc, rfl⟩ := List.mem_map.mp hdoc'
      have hset := pushers_set hcall call' doc.workflowID workflowRunID
      have hbudget := h.budget doc hdoc workflowRunID
      have hentries := entries_onWorkflow_le tick.fails wfRun count request.workflowID doc
        workflowRunID
      have hpaid : (if count = 0 ∧ doc.workflowID = request.workflowID ∧
            wfRun.workflowRunID = workflowRunID then 1 else 0) ≤
          if Call.pendingPush (.event request (.write cluster wfRun count)) =
            some (doc.workflowID, workflowRunID) then 1 else 0 := by
        split
        · rename_i hpushed
          obtain ⟨rfl, hid, rfl⟩ := hpushed
          simp [Call.pendingPush, hid]
        · exact Nat.zero_le _
      simp only [hpush, reduceCtorEq, if_false] at hset
      simp only [onWorkflow_workflowID]
      omega
  | read hdoc hquery => simpa [Call.target] using h.events _ hmem
  | rewrote hfails htarget hpush hrewrite hwrite => simpa [Call.target] using h.events _ hmem

end LitmusPortal
