import LitmusPortal.Workflow.Calls

/-!
# Updates of other runs survive a rewrite

A delete or terminate call hands back the whole run list it read before. What an agent writes
between that read and that write is overwritten. When nothing is written in between, the copy a
call holds still carries the latest acknowledged value of every run but its own, which is the
invariant.
-/

namespace LitmusPortal

open DocumentStore

/-- Some entry holds the values an event set for its run. -/
def Carries (runs : List ChaosWorkflowRun) (wfRun : ChaosWorkflowRun) : Prop :=
  ∃ entry ∈ runs, entry.workflowRunID = wfRun.workflowRunID ∧ setRunFields wfRun entry = entry

/-- Every acknowledged event whose run is not excluded is still present in its workflow, with its
values or with those of a later acknowledged event of the same run. -/
def NoLostUpdate (excluded : List (String × String)) (s : CallState) : Prop :=
  ∀ (i : Nat) (workflowID : String) (wfRun : ChaosWorkflowRun),
    s.acked[i]? = some (workflowID, wfRun) → (workflowID, wfRun.workflowRunID) ∉ excluded →
    ∃ (j : Nat) (later : ChaosWorkflowRun), i ≤ j ∧ s.acked[j]? = some (workflowID, later) ∧
      later.workflowRunID = wfRun.workflowRunID ∧
      ∃ doc ∈ s.workflows.docs, doc.workflowID = workflowID ∧ Carries doc.workflowRuns later

def rewriteTargets (calls : List Call) : List (String × String) := calls.filterMap Call.target

theorem NoLostUpdate.present {excluded : List (String × String)} {s : CallState}
    (h : NoLostUpdate excluded s) :
    ∀ ack ∈ s.acked, (ack.1, ack.2.workflowRunID) ∉ excluded →
      ∃ doc ∈ s.workflows.docs, doc.workflowID = ack.1 ∧
        ∃ entry ∈ doc.workflowRuns, entry.workflowRunID = ack.2.workflowRunID := by
  rintro ⟨workflowID, wfRun⟩ hack hexcluded
  obtain ⟨i, hi⟩ := List.mem_iff_getElem?.mp hack
  obtain ⟨j, later, -, -, hrunID, doc, hdoc, hid, entry, hentry, hentryID, -⟩ :=
    h i workflowID wfRun hi hexcluded
  exact ⟨doc, hdoc, hid, entry, hentry, hentryID.trans hrunID⟩

/-- No interleaving of delete and terminate calls with events loses an update. -/
def RewritesKeepUpdates : Prop :=
  ∀ (env : Env) (db : Database) (calls : List Call) (ticks : List Tick) (s : CallState),
    (∀ call ∈ calls, call.atStart = true) →
    Transition.run (stepCall env) (startCalls db calls) ticks = some s →
    NoLostUpdate (rewriteTargets s.calls) s

/-- Some does: `run-2` is pushed while the call that terminates `run-1` holds its copy of the list,
and is gone when that copy is written back. -/
theorem not_rewritesKeepUpdates : ¬ RewritesKeepUpdates := by
  intro hclaim
  let calls := [Call.event (sampleEvent "run-1" "Running" false) .verify,
    Call.rewrite .terminate (sampleTarget "run-1" (by decide)) (some "admin") .read,
    Call.event (sampleEvent "run-2" "Running" false) .verify]
  let final := Transition.run (stepCall sampleEnv) (startCalls sampleDatabase calls)
    (ticksOf [0, 0, 0, 0, 1, 2, 2, 2, 2, 1])
  have hkept : NoLostUpdate (rewriteTargets (final.get (by decide)).calls)
      (final.get (by decide)) :=
    hclaim sampleEnv sampleDatabase calls (ticksOf [0, 0, 0, 0, 1, 2, 2, 2, 2, 1]) _ (by decide)
      (Option.some_get _).symm
  exact absurd hkept.present (by decide)

/-- An event does not write to a workflow while a delete or terminate call is between its read and
its write of that workflow. -/
def NoWriteInsideRewrite (s : CallState) (tick : Tick) : Prop :=
  match s.calls[tick.call]? with
  | some (.event request (.write _ _ _)) =>
      ∀ other ∈ s.calls, ∀ pending ∈ other.pendingRewrite,
        pending.1.workflowID ≠ request.workflowID
  | _ => True

instance (s : CallState) (tick : Tick) : Decidable (NoWriteInsideRewrite s tick) := by
  unfold NoWriteInsideRewrite
  split <;> infer_instance

/-! ### The latest acknowledged value of a run -/

/-- The last acknowledged event of a run. -/
def latest (acked : List (String × ChaosWorkflowRun)) (workflowID workflowRunID : String) :
    Option ChaosWorkflowRun :=
  (acked.reverse.find? fun entry =>
    entry.1 = workflowID && entry.2.workflowRunID = workflowRunID).map Prod.snd

theorem latest_append (acked : List (String × ChaosWorkflowRun)) (entry : String × ChaosWorkflowRun)
    (workflowID workflowRunID : String) :
    latest (acked ++ [entry]) workflowID workflowRunID =
      if entry.1 = workflowID ∧ entry.2.workflowRunID = workflowRunID then some entry.2
      else latest acked workflowID workflowRunID := by
  unfold latest
  rw [List.reverse_append, List.reverse_singleton, List.singleton_append, List.find?_cons]
  by_cases h : entry.1 = workflowID ∧ entry.2.workflowRunID = workflowRunID
  · simp [h.1, h.2]
  · rw [if_neg h]
    have hfalse : (decide (entry.1 = workflowID) &&
        decide (entry.2.workflowRunID = workflowRunID)) = false := by
      simpa using h
    rw [hfalse]

theorem exists_latest {acked : List (String × ChaosWorkflowRun)} {i : Nat} {workflowID : String}
    {wfRun : ChaosWorkflowRun} (h : acked[i]? = some (workflowID, wfRun)) :
    ∃ j later, i ≤ j ∧ acked[j]? = some (workflowID, later) ∧
      later.workflowRunID = wfRun.workflowRunID ∧
      latest acked workflowID wfRun.workflowRunID = some later := by
  induction acked using List.reverseRecOn with
  | nil => simp at h
  | append_singleton acked entry ih =>
      have hlast : (acked ++ [entry])[acked.length]? = some entry := by simp
      by_cases hentry : entry.1 = workflowID ∧ entry.2.workflowRunID = wfRun.workflowRunID
      · obtain ⟨rfl, hrunID⟩ := hentry
        have hle : i ≤ acked.length := by
          have hlt := (List.getElem?_eq_some_iff.mp h).1
          simp only [List.length_append, List.length_singleton] at hlt
          omega
        exact ⟨acked.length, entry.2, hle, hlast, hrunID, by rw [latest_append]; simp [hrunID]⟩
      · have hne : i ≠ acked.length := by
          rintro rfl
          rw [hlast] at h
          cases h
          exact hentry ⟨rfl, rfl⟩
        have hlt : i < acked.length := by
          have hlt := (List.getElem?_eq_some_iff.mp h).1
          simp only [List.length_append, List.length_singleton] at hlt
          omega
        rw [List.getElem?_append_left hlt] at h
        obtain ⟨j, later, hle, hj, hrunID, hlatest⟩ := ih h
        have hjlt := (List.getElem?_eq_some_iff.mp hj).1
        exact ⟨j, later, hle, by rwa [List.getElem?_append_left hjlt], hrunID,
          by rw [latest_append, if_neg hentry, hlatest]⟩

/-! ### What an acknowledged write leaves -/

theorem Carries.append {runs : List ChaosWorkflowRun} {wfRun : ChaosWorkflowRun}
    (h : Carries runs wfRun) (rest : List ChaosWorkflowRun) : Carries (runs ++ rest) wfRun := by
  obtain ⟨entry, hentry, hvalues⟩ := h
  exact ⟨entry, List.mem_append_left _ hentry, hvalues⟩

theorem Carries.updateFirst {runs : List ChaosWorkflowRun} {wfRun other : ChaosWorkflowRun}
    (h : Carries runs other) (hne : other.workflowRunID ≠ wfRun.workflowRunID) :
    Carries (updateFirst (isOpenRun wfRun.workflowRunID) (setRunFields wfRun) runs) other := by
  obtain ⟨entry, hentry, hid, hvalues⟩ := h
  refine ⟨entry, mem_updateFirst_of_not hentry ?_, hid, hvalues⟩
  simp [isOpenRun, hid, hne]

/-- A write either is not acknowledged and leaves the documents alone, or puts the event's values
into its workflow and keeps what is carried for every other run. -/
theorem acknowledged_cases (fails : Bool) (workflows : Workflows) (request : WorkflowRunRequest)
    (wfRun : ChaosWorkflowRun) {count : Nat} (hcount : count ≤ 1) :
    (acknowledged request wfRun (writeRun fails workflows request.workflowID wfRun count).1 = [] ∧
      (writeRun fails workflows request.workflowID wfRun count).2.docs = workflows.docs) ∨
    (acknowledged request wfRun (writeRun fails workflows request.workflowID wfRun count).1 =
        [(request.workflowID, wfRun)] ∧
      ∃ change, (writeRun fails workflows request.workflowID wfRun count).2.docs =
          workflows.docs.map (onWorkflow request.workflowID change) ∧
        (∃ doc ∈ workflows.docs, doc.workflowID = request.workflowID ∧
          Carries (change doc.workflowRuns) wfRun) ∧
        ∀ runs other, other.workflowRunID ≠ wfRun.workflowRunID → Carries runs other →
          Carries (change runs) other) := by
  cases fails with
  | true =>
      refine Or.inl ⟨?_, by rw [writeRun_docs_of_none _ _ _ (Or.inl rfl)]⟩
      unfold writeRun
      simp only [if_true]
      split
      · rfl
      · split
        · rfl
        · omega
  | false =>
      obtain rfl | rfl : count = 0 ∨ count = 1 := by omega
      · obtain ⟨hresult, hdocs⟩ := writeRun_push workflows request.workflowID wfRun
        by_cases hany :
            workflows.docs.any (fun workflow => workflow.workflowID = request.workflowID) = true
        · right
          obtain ⟨doc, hdoc, hid⟩ := List.any_eq_true.mp hany
          refine ⟨by simp [hresult, hany, acknowledged], _, hdocs, ⟨doc, hdoc, by simpa using hid,
            wfRun, by simp, rfl, rfl⟩, fun runs other _ hcarries => hcarries.append _⟩
        · left
          refine ⟨by simp [hresult, hany, acknowledged], ?_⟩
          rw [hdocs]
          refine (List.map_congr_left fun doc hdoc => ?_).trans (List.map_id' _)
          refine onWorkflow_of_ne fun hid => hany ?_
          exact List.any_eq_true.mpr ⟨doc, hdoc, by simpa using hid⟩
      · obtain ⟨hresult, hdocs⟩ := writeRun_set workflows request.workflowID wfRun
        by_cases hany : workflows.docs.any (fun workflow =>
            workflow.workflowID = request.workflowID &&
              workflow.workflowRuns.any (isOpenRun wfRun.workflowRunID)) = true
        · right
          obtain ⟨doc, hdoc, hquery⟩ := List.any_eq_true.mp hany
          simp only [Bool.and_eq_true, decide_eq_true_eq] at hquery
          obtain ⟨old, -, hopen, hmem⟩ :=
            exists_mem_updateFirst (setRunFields wfRun) hquery.2
          simp only [isOpenRun, Bool.and_eq_true, decide_eq_true_eq] at hopen
          exact ⟨by simp [hresult, hany, acknowledged], _, hdocs, ⟨doc, hdoc, hquery.1,
            _, hmem, hopen.1, rfl⟩, fun runs other hne hcarries => hcarries.updateFirst hne⟩
        · left
          refine ⟨by simp [hresult, hany, acknowledged], ?_⟩
          rw [hdocs]
          refine (List.map_congr_left fun doc hdoc => ?_).trans (List.map_id' _)
          by_cases hid : doc.workflowID = request.workflowID
          · have hnone : updateFirst (isOpenRun wfRun.workflowRunID) (setRunFields wfRun)
                doc.workflowRuns = doc.workflowRuns :=
              updateFirst_of_forall_not fun run hrun hopen => hany (List.any_eq_true.mpr
                ⟨doc, hdoc, by simpa [hid] using ⟨run, hrun, hopen⟩⟩)
            rw [onWorkflow, if_pos hid, hnone]
          · exact onWorkflow_of_ne hid

/-! ### The invariant -/

structure AckedKept (s : CallState) : Prop where
  docs : ∀ workflowID workflowRunID wfRun,
    latest s.acked workflowID workflowRunID = some wfRun →
    (workflowID, workflowRunID) ∉ s.rewritten →
    ∃ doc ∈ s.workflows.docs, doc.workflowID = workflowID ∧ Carries doc.workflowRuns wfRun
  /-- The copy a call is about to write back carries everything but its own run. -/
  copies : ∀ call ∈ s.calls, ∀ target copy, call.pendingRewrite = some (target, copy) →
    ∀ workflowRunID wfRun, latest s.acked target.workflowID workflowRunID = some wfRun →
      (target.workflowID, workflowRunID) ∉ s.rewritten → workflowRunID ≠ target.workflowRunID →
      Carries copy.workflowRuns wfRun
  counts : ∀ call ∈ s.calls, ∀ count ∈ call.pendingWrite, count ≤ 1
  targets : ∀ key ∈ s.rewritten, key ∈ rewriteTargets s.calls

theorem latest_workflowRunID {acked : List (String × ChaosWorkflowRun)}
    {workflowID workflowRunID : String} {wfRun : ChaosWorkflowRun}
    (h : latest acked workflowID workflowRunID = some wfRun) :
    wfRun.workflowRunID = workflowRunID := by
  obtain ⟨entry, hfind, rfl⟩ := Option.map_eq_some_iff.mp h
  have hquery := List.find?_some hfind
  simp only [Bool.and_eq_true, decide_eq_true_eq] at hquery
  exact hquery.2

theorem ackedKept_start {db : Database} {calls : List Call}
    (hstart : ∀ call ∈ calls, call.atStart = true) : AckedKept (startCalls db calls) where
  docs := fun workflowID workflowRunID wfRun h => by simp [startCalls, latest] at h
  copies := fun call hcall target copy hpending workflowRunID wfRun h => by
    simp [startCalls, latest] at h
  counts := fun call hcall count hpending => by
    have hcallStart := hstart call hcall
    unfold Call.pendingWrite at hpending
    split at hpending
    · simp [Call.atStart] at hcallStart
    · cases hpending
  targets := by simp [startCalls]

theorem mem_rewriteTargets_set {calls : List Call} {i : Nat} {call call' : Call}
    (hcall : calls[i]? = some call) (htarget : call'.target = call.target)
    {key : String × String} (h : key ∈ rewriteTargets calls) :
    key ∈ rewriteTargets (calls.set i call') := by
  obtain ⟨hlt, hget⟩ := List.getElem?_eq_some_iff.mp hcall
  obtain ⟨other, hother, hkey⟩ := List.mem_filterMap.mp h
  obtain ⟨j, hj, rfl⟩ := List.mem_iff_getElem.mp hother
  refine List.mem_filterMap.mpr ?_
  by_cases hij : i = j
  · subst hij
    exact ⟨call', List.mem_set hlt _, by rw [htarget, ← hget, hkey]⟩
  · refine ⟨calls[j], ?_, hkey⟩
    have hget' : (calls.set i call')[j]? = some calls[j] := by
      rw [List.getElem?_set_ne hij, List.getElem?_eq_getElem hj]
    exact List.mem_of_getElem? hget'

section Step

variable {s : CallState} {tick : Tick} {call' : Call}

/-- A call that becomes nothing the invariant speaks of leaves only its old claims behind. -/
theorem AckedKept.mem_set_of_pendingRewrite {other : Call} (hother : other ∈ s.calls.set tick.call call')
    (hrewrite : call'.pendingRewrite = none) {pending : RunTarget × ChaosWorkFlow}
    (hpending : other.pendingRewrite = some pending) : other ∈ s.calls := by
  rcases List.mem_or_eq_of_mem_set hother with hother | rfl
  · exact hother
  · rw [hrewrite] at hpending
    cases hpending

theorem AckedKept.quiet {call : Call} (h : AckedKept s) (hcall : s.calls[tick.call]? = some call)
    (htarget : call'.target = call.target) (hrewrite : call'.pendingRewrite = none)
    (hwrite : ∀ count ∈ call'.pendingWrite, count ≤ 1) :
    AckedKept { s with calls := s.calls.set tick.call call' } where
  docs := h.docs
  copies := fun other hother target copy hpending =>
    h.copies other (mem_set_of_pendingRewrite hother hrewrite hpending) target copy hpending
  counts := fun other hother count hpending => by
    rcases List.mem_or_eq_of_mem_set hother with hother | rfl
    · exact h.counts other hother count hpending
    · exact hwrite count hpending
  targets := fun key hkey => mem_rewriteTargets_set hcall htarget (h.targets key hkey)

theorem AckedKept.wrote {request : WorkflowRunRequest} {cluster : Cluster}
    {wfRun : ChaosWorkflowRun} {count : Nat} (h : AckedKept s)
    (hcall : s.calls[tick.call]? = some (.event request (.write cluster wfRun count)))
    (hallowed : ∀ other ∈ s.calls, ∀ pending ∈ other.pendingRewrite,
      pending.1.workflowID ≠ request.workflowID)
    (htarget : call'.target = none) (hrewrite : call'.pendingRewrite = none)
    (hwrite : ∀ count ∈ call'.pendingWrite, count ≤ 1) :
    AckedKept { s with
      workflows := (writeRun tick.fails s.workflows request.workflowID wfRun count).2
      calls := s.calls.set tick.call call'
      acked := s.acked ++ acknowledged request wfRun
        (writeRun tick.fails s.workflows request.workflowID wfRun count).1 } := by
  have hquiet := h.quiet hcall htarget hrewrite hwrite
  rcases acknowledged_cases tick.fails s.workflows request wfRun
      (h.counts _ (List.mem_of_getElem? hcall) count rfl) with
    ⟨hacked, hdocs⟩ | ⟨hacked, change, hdocs, ⟨doc, hdoc, hid, hcarries⟩, hothers⟩
  · have hworkflows : (writeRun tick.fails s.workflows request.workflowID wfRun count).2 =
        s.workflows := DocumentStore.Collection.ext hdocs
    rw [hacked, hworkflows, List.append_nil]
    exact hquiet
  · rw [hacked]
    refine ⟨?_, ?_, hquiet.counts, hquiet.targets⟩
    · intro workflowID workflowRunID latestRun hlatest hrewritten
      simp only [latest_append, hdocs] at hlatest ⊢
      split at hlatest
      · rename_i hkey
        obtain ⟨rfl, rfl⟩ := hkey
        cases hlatest
        exact ⟨_, List.mem_map_of_mem hdoc, by simpa using hid, by rwa [onWorkflow_of_eq hid]⟩
      · rename_i hkey
        obtain ⟨old, hold, holdID, holdCarries⟩ := h.docs _ _ _ hlatest hrewritten
        refine ⟨_, List.mem_map_of_mem hold, by simpa using holdID, ?_⟩
        by_cases hsame : old.workflowID = request.workflowID
        · rw [onWorkflow_of_eq hsame]
          refine hothers _ _ (fun hrunID => hkey ⟨hsame.symm.trans holdID, ?_⟩) holdCarries
          exact hrunID.symm.trans (latest_workflowRunID hlatest)
        · rwa [onWorkflow_of_ne hsame]
    · intro other hother target copy hpending workflowRunID latestRun hlatest
      have hmem := mem_set_of_pendingRewrite hother hrewrite hpending
      -- by the condition the copy is of another workflow, whose history did not grow
      have hne := hallowed other hmem (target, copy) hpending
      simp only [latest_append] at hlatest
      rw [if_neg fun hkey => hne hkey.1.symm] at hlatest
      exact h.copies other hmem target copy hpending workflowRunID latestRun hlatest

theorem AckedKept.read {kind : RewriteKind} {target : RunTarget} {username : Option String}
    {doc : ChaosWorkFlow} (h : AckedKept s)
    (hcall : s.calls[tick.call]? = some (.rewrite kind target username .read))
    (hdoc : doc ∈ s.workflows.docs) (hquery : targetQuery target doc = true) :
    AckedKept { s with
      calls := s.calls.set tick.call
        (.rewrite kind target username (.write (editRuns kind target doc))) } where
  docs := h.docs
  copies := by
    intro other hother target' copy hpending workflowRunID wfRun hlatest hrewritten hne
    rcases List.mem_or_eq_of_mem_set hother with hother | rfl
    · exact h.copies other hother target' copy hpending workflowRunID wfRun hlatest hrewritten hne
    · simp only [Call.pendingRewrite, Option.some.injEq, Prod.mk.injEq] at hpending
      obtain ⟨rfl, rfl⟩ := hpending
      obtain ⟨old, hold, holdID, entry, hentry, hid, hvalues⟩ :=
        h.docs _ _ _ hlatest hrewritten
      obtain rfl : old = doc := s.workflows.workflowID_injective hold hdoc
        (holdID.trans (targetQuery_iff.mp hquery).1.symm)
      refine ⟨entry, List.mem_map.mpr ⟨entry, hentry, editRun_of_ne ?_⟩, hid, hvalues⟩
      rw [hid, latest_workflowRunID hlatest]
      exact hne
  counts := fun other hother count hpending => by
    rcases List.mem_or_eq_of_mem_set hother with hother | rfl
    · exact h.counts other hother count hpending
    · cases hpending
  targets := fun key hkey =>
    have htarget : Call.target (.rewrite kind target username (.write (editRuns kind target doc))) =
        Call.target (.rewrite kind target username .read) := rfl
    mem_rewriteTargets_set hcall htarget (h.targets key hkey)

theorem AckedKept.rewrote {kind : RewriteKind} {target : RunTarget} {username : Option String}
    {workflow : ChaosWorkFlow} (h : AckedKept s)
    (hcall : s.calls[tick.call]? = some (.rewrite kind target username (.write workflow)))
    (htarget : call'.target = some (target.workflowID, target.workflowRunID))
    (hrewrite : call'.pendingRewrite = none)
    (hwrite : ∀ count ∈ call'.pendingWrite, count ≤ 1) :
    AckedKept { s with
      workflows := (processWorkflowRunDelete false s.workflows target workflow tick.now).2
      calls := s.calls.set tick.call call'
      rewritten := s.rewritten ++ [(target.workflowID, target.workflowRunID)] } := by
  have hquiet := h.quiet hcall htarget hrewrite hwrite
  have hmem := List.mem_of_getElem? hcall
  refine ⟨?_, ?_, hquiet.counts, ?_⟩
  · intro workflowID workflowRunID wfRun hlatest hrewritten
    simp only [List.mem_append, List.mem_singleton, Prod.mk.injEq, not_or, not_and] at hrewritten
    obtain ⟨hrewritten, hother⟩ := hrewritten
    obtain ⟨doc, hdoc, rfl, hcarries⟩ := h.docs _ _ _ hlatest hrewritten
    simp only [processWorkflowRunDelete_docs, Bool.false_eq_true, if_false]
    refine ⟨_, List.mem_map_of_mem hdoc, by simp, ?_⟩
    unfold replaceRuns
    split
    · rename_i hquery
      have hid := (targetQuery_iff.mp hquery).1
      exact h.copies _ hmem target workflow rfl workflowRunID wfRun (hid ▸ hlatest)
        (hid ▸ hrewritten) (hother hid)
    · exact hcarries
  · intro other hother target' copy hpending workflowRunID wfRun hlatest hrewritten hne
    refine h.copies other (mem_set_of_pendingRewrite hother hrewrite hpending) target' copy hpending
      workflowRunID wfRun hlatest (fun hold => hrewritten ?_) hne
    exact List.mem_append_left _ hold
  · intro key hkey
    rcases List.mem_append.mp hkey with hkey | hkey
    · exact hquiet.targets key hkey
    · refine mem_rewriteTargets_set hcall htarget (List.mem_filterMap.mpr ⟨_, hmem, ?_⟩)
      rw [List.mem_singleton.mp hkey]
      rfl

end Step

theorem ackedKept_step {env : Env} {s s' : CallState} {tick : Tick} (h : AckedKept s)
    (hallowed : NoWriteInsideRewrite s tick) (hstep : stepCall env s tick = some s') :
    AckedKept s' := by
  obtain ⟨call, call', hcall, hmoved⟩ := stepCall_moved hstep
  cases hmoved with
  | quiet htarget hpush hrewrite hwrite =>
      exact h.quiet hcall htarget hrewrite (by simp [hwrite])
  | counted hfails =>
      refine h.quiet hcall rfl rfl fun count hcount => ?_
      cases hcount
      exact countRuns_le_one _ _ _
  | wrote htarget hpush hrewrite hwrite =>
      unfold NoWriteInsideRewrite at hallowed
      rw [hcall] at hallowed
      exact h.wrote hcall hallowed htarget hrewrite (by simp [hwrite])
  | read hdoc hquery => exact h.read hcall hdoc hquery
  | rewrote hfails htarget hpush hrewrite hwrite =>
      exact h.rewrote hcall htarget hrewrite (by simp [hwrite])

theorem AckedKept.noLostUpdate {s : CallState} (h : AckedKept s) : NoLostUpdate s.rewritten s := by
  intro i workflowID wfRun hi hexcluded
  obtain ⟨j, later, hle, hj, hrunID, hlatest⟩ := exists_latest hi
  exact ⟨j, later, hle, hj, hrunID, h.docs _ _ _ hlatest hexcluded⟩

theorem NoLostUpdate.mono {s : CallState} {small large : List (String × String)}
    (h : NoLostUpdate small s) (hsub : ∀ key ∈ small, key ∈ large) : NoLostUpdate large s :=
  fun i workflowID wfRun hi hexcluded => h i workflowID wfRun hi fun hmem => hexcluded (hsub _ hmem)

/-- In every interleaving in which no event writes between the read and the write of a delete or
terminate call of its workflow, no acknowledged update is lost. A run is protected until its own
delete or terminate has written, which is more than being no call's target. -/
theorem noLostUpdate_of_noWriteInsideRewrite (env : Env) (db : Database) (calls : List Call)
    (ticks : List Tick) (s : CallState) (hstart : ∀ call ∈ calls, call.atStart = true)
    (hmeets : Transition.Meets (stepCall env) NoWriteInsideRewrite (startCalls db calls) ticks)
    (hrun : Transition.run (stepCall env) (startCalls db calls) ticks = some s) :
    NoLostUpdate s.rewritten s ∧ NoLostUpdate (rewriteTargets s.calls) s := by
  have hkept : AckedKept s :=
    Transition.run_invariant (fun _ _ _ hinv hallowed hstep => ackedKept_step hinv hallowed hstep)
      (ackedKept_start hstart) hmeets hrun
  exact ⟨hkept.noLostUpdate, hkept.noLostUpdate.mono hkept.targets⟩

/-- The calls of `not_rewritesKeepUpdates`, with the push of `run-2` after the rewrite. -/
theorem noLostUpdate_of_noWriteInsideRewrite_sequential :
    ∃ s, Transition.run (stepCall sampleEnv) (startCalls sampleDatabase
        [.event (sampleEvent "run-1" "Running" false) .verify,
          .rewrite .terminate (sampleTarget "run-1" (by decide)) (some "admin") .read,
          .event (sampleEvent "run-2" "Running" false) .verify])
      (ticksOf [0, 0, 0, 0, 1, 2, 2, 2, 1, 2]) = some s ∧
      NoLostUpdate s.rewritten s ∧ NoLostUpdate (rewriteTargets s.calls) s := by
  refine ⟨_, (Option.some_get (by decide)).symm, ?_⟩
  exact noLostUpdate_of_noWriteInsideRewrite sampleEnv sampleDatabase _ _ _ (by decide) (by decide)
    (Option.some_get (by decide)).symm

end LitmusPortal
