import LitmusPortal.Workflow.MetricBounds

/-!
# The statistics of workflow runs

`GetWorkflowRunStats` counts in one aggregation and divides afterwards. The floating-point numbers are exact
rationals; a division by zero is no number.
-/

namespace LitmusPortal.Analytics

open LitmusPortal

structure WorkflowRunStatsRequest where
  projectID : String
  workflowIDs : List (Option String)

structure ExperimentMetric where
  experimentsPassed : Int
  experimentsFailed : Int
  experimentsAwaited : Int
  experimentsStopped : Int
  experimentsNA : Int
  totalExperiments : Int

/-- What the facets give, each no document or one. -/
structure WorkflowRunStats where
  totalWorkflowRuns : Option ℕ
  succeededWorkflowRuns : Option ℕ
  failedWorkflowRuns : Option ℕ
  runningWorkflowRuns : Option ℕ
  averageResiliencyScore : Option ℚ
  experimentStats : Option ExperimentMetric

/-- `none` for a quotient that is no number. -/
structure WorkflowRunStatsResponse where
  totalWorkflowRuns : ℕ
  succeededWorkflowRuns : ℕ
  failedWorkflowRuns : ℕ
  runningWorkflowRuns : ℕ
  averageResiliencyScore : ℚ
  totalExperiments : Int
  experimentsPassed : Int
  experimentsFailed : Int
  experimentsAwaited : Int
  experimentsStopped : Int
  experimentsNA : Int
  passedPercentage : Option ℚ
  failedPercentage : Option ℚ
  workflowRunSucceededPercentage : Option ℚ
  workflowRunFailedPercentage : Option ℚ
  deriving DecidableEq

def WorkflowRunStatsResponse.zero : WorkflowRunStatsResponse :=
  ⟨0, 0, 0, 0, 0, 0, 0, 0, 0, 0, 0, some 0, some 0, some 0, some 0⟩

/-! ### The aggregation -/

/-- The first three stages. -/
def selected (request : WorkflowRunStatsRequest) (workflow : ChaosWorkFlow) : Bool :=
  workflow.projectID = request.projectID ∧
    (request.workflowIDs ≠ [] → some workflow.workflowID ∈ request.workflowIDs) ∧ workflow.isRemoved = false

def kept (wfRun : ChaosWorkflowRun) : Bool :=
  wfRun.phase ≠ "Running" ∧ wfRun.isRemoved ≠ some true ∧ wfRun.completed ≠ false

def selectedRuns (workflows : List ChaosWorkFlow) (request : WorkflowRunStatsRequest) : List ChaosWorkflowRun :=
  (workflows.filter (selected request)).flatMap ChaosWorkFlow.workflowRuns

/-- `$count`, which gives no document for no runs. -/
def count (runs : List ChaosWorkflowRun) : Option ℕ := if runs = [] then none else some runs.length

def ofPhase (phase : String) (runs : List ChaosWorkflowRun) : List ChaosWorkflowRun :=
  runs.filter fun wfRun => wfRun.phase = phase

def sumOf (number : ChaosWorkflowRun → Option Int) (runs : List ChaosWorkflowRun) : Int :=
  (runs.map fun wfRun => (number wfRun).getD 0).sum

/-- `$avg`, which is null, and read as zero, where no run has a score. -/
def averageOf (runs : List ChaosWorkflowRun) : ℚ :=
  let scores := runs.filterMap ChaosWorkflowRun.resiliencyScore
  if scores = [] then 0 else scores.sum / scores.length

def experimentStats (runs : List ChaosWorkflowRun) : ExperimentMetric where
  experimentsPassed := sumOf ChaosWorkflowRun.experimentsPassed runs
  experimentsFailed := sumOf ChaosWorkflowRun.experimentsFailed runs
  experimentsAwaited := sumOf ChaosWorkflowRun.experimentsAwaited runs
  experimentsStopped := sumOf ChaosWorkflowRun.experimentsStopped runs
  experimentsNA := sumOf ChaosWorkflowRun.experimentsNA runs
  totalExperiments := sumOf ChaosWorkflowRun.totalExperiments runs

/-- The facets, over the runs that are left by then. -/
def aggregate (runs : List ChaosWorkflowRun) : WorkflowRunStats :=
  let finished := runs.filter fun wfRun => wfRun.phase ≠ "Running"
  { totalWorkflowRuns := count runs
    succeededWorkflowRuns := count (ofPhase "Succeeded" runs)
    failedWorkflowRuns := count (ofPhase "Failed" runs)
    runningWorkflowRuns := count (ofPhase "Running" runs)
    averageResiliencyScore := if finished = [] then none else some (averageOf finished)
    experimentStats := if finished = [] then none else some (experimentStats finished) }

/-! ### The response -/

/-- `utils.Truncate((float64(part) / float64(total)) * 100)` -/
def percentage (part total : Int) : Option ℚ := if total = 0 then none else some (truncate (part / total * 100))

/-- The two percentages of the runs are only set where there are runs. -/
def runStats (stats : WorkflowRunStats) (result : WorkflowRunStatsResponse) : WorkflowRunStatsResponse :=
  match stats.totalWorkflowRuns with
  | none => result
  | some total =>
      let succeeded := stats.succeededWorkflowRuns.getD result.succeededWorkflowRuns
      let failed := stats.failedWorkflowRuns.getD result.failedWorkflowRuns
      { result with
        totalWorkflowRuns := total
        succeededWorkflowRuns := succeeded
        failedWorkflowRuns := failed
        runningWorkflowRuns := stats.runningWorkflowRuns.getD result.runningWorkflowRuns
        workflowRunSucceededPercentage := percentage succeeded total
        workflowRunFailedPercentage := percentage failed total }

def experimentNumbers (stats : WorkflowRunStats) (result : WorkflowRunStatsResponse) : WorkflowRunStatsResponse :=
  match stats.experimentStats with
  | none => result
  | some experimentStats => { result with
      totalExperiments := experimentStats.totalExperiments
      experimentsPassed := experimentStats.experimentsPassed
      experimentsFailed := experimentStats.experimentsFailed
      experimentsAwaited := experimentStats.experimentsAwaited
      experimentsStopped := experimentStats.experimentsStopped
      experimentsNA := experimentStats.experimentsNA
      passedPercentage := percentage experimentStats.experimentsPassed experimentStats.totalExperiments
      failedPercentage := percentage experimentStats.experimentsFailed experimentStats.totalExperiments }

def responseOf (stats : WorkflowRunStats) : WorkflowRunStatsResponse :=
  let result := runStats stats .zero
  let result := { result with
    averageResiliencyScore := (stats.averageResiliencyScore.map truncate).getD result.averageResiliencyScore }
  experimentNumbers stats result

/-- An answer that cannot be read gives the zero response and no error. -/
def getWorkflowRunStats (aggregateFails readFails : Bool) (workflows : List ChaosWorkFlow)
    (request : WorkflowRunStatsRequest) : Except GoError WorkflowRunStatsResponse :=
  if aggregateFails then .error databaseError
  else if readFails then .ok .zero
  else .ok (responseOf (aggregate ((selectedRuns workflows request).filter kept)))

/-! ### What the response says -/

/-- The verdicts of a run add up to its experiments at most. -/
structure CountsFit (wfRun : ChaosWorkflowRun) : Prop where
  passed : 0 ≤ wfRun.experimentsPassed.getD 0
  failed : 0 ≤ wfRun.experimentsFailed.getD 0
  awaited : 0 ≤ wfRun.experimentsAwaited.getD 0
  stopped : 0 ≤ wfRun.experimentsStopped.getD 0
  na : 0 ≤ wfRun.experimentsNA.getD 0
  total : wfRun.experimentsPassed.getD 0 + wfRun.experimentsFailed.getD 0 + wfRun.experimentsAwaited.getD 0 +
    wfRun.experimentsStopped.getD 0 + wfRun.experimentsNA.getD 0 ≤ wfRun.totalExperiments.getD 0

def IsPercentage (number : Option ℚ) : Prop := ∃ q, number = some q ∧ 0 ≤ q ∧ q ≤ 100

/-- The selected workflows have no other runs that run. -/
def isRunning (wfRun : ChaosWorkflowRun) : Bool := wfRun.phase = "Running" ∧ wfRun.isRemoved ≠ some true

structure RunStatsRight (runs : List ChaosWorkflowRun) (response : WorkflowRunStatsResponse) : Prop where
  passed : IsPercentage response.passedPercentage
  failed : IsPercentage response.failedPercentage
  runSucceeded : IsPercentage response.workflowRunSucceededPercentage
  runFailed : IsPercentage response.workflowRunFailedPercentage
  counts : response.succeededWorkflowRuns + response.failedWorkflowRuns + response.runningWorkflowRuns ≤
    response.totalWorkflowRuns
  running : response.runningWorkflowRuns = runs.countP isRunning

theorem isPercentage_percentage_iff {part total : Int} (hpart : 0 ≤ part) (hle : part ≤ total) :
    IsPercentage (percentage part total) ↔ total ≠ 0 := by
  rw [percentage]
  by_cases htotal : total = 0
  · rw [if_pos htotal]
    refine iff_of_false ?_ (not_not.mpr htotal)
    rintro ⟨q, hq, -⟩
    cases hq
  · rw [if_neg htotal]
    have hpos : (0 : ℚ) < total := by exact_mod_cast lt_of_le_of_ne (hpart.trans hle) (Ne.symm htotal)
    have hpart' : (0 : ℚ) ≤ part := by exact_mod_cast hpart
    have hquotient : (part : ℚ) / total ≤ 1 := (div_le_one hpos).mpr (by exact_mod_cast hle)
    have hzero : truncate 0 = 0 := by simp [truncate]
    have hhundred : truncate 100 = 100 := by norm_num [truncate]
    refine iff_of_true ⟨_, rfl, ?_, ?_⟩ htotal
    · rw [← hzero]
      exact truncate_mono (mul_nonneg (div_nonneg hpart' hpos.le) (by norm_num))
    · calc
        truncate (part / total * 100) ≤ truncate 100 := truncate_mono (by linarith)
        _ = 100 := hhundred

theorem isPercentage_zero : IsPercentage (some 0) := ⟨0, rfl, le_refl 0, by norm_num⟩

theorem sumOf_nonneg {number : ChaosWorkflowRun → Option Int} {runs : List ChaosWorkflowRun}
    (h : ∀ wfRun ∈ runs, 0 ≤ (number wfRun).getD 0) : 0 ≤ sumOf number runs := by
  rw [sumOf]
  apply List.sum_nonneg
  intro x hx
  obtain ⟨wfRun, hmem, rfl⟩ := List.mem_map.mp hx
  exact h wfRun hmem

theorem sumOf_le {number total : ChaosWorkflowRun → Option Int} {runs : List ChaosWorkflowRun}
    (h : ∀ wfRun ∈ runs, (number wfRun).getD 0 ≤ (total wfRun).getD 0) : sumOf number runs ≤ sumOf total runs :=
  List.sum_le_sum h

section Kept

variable {runs : List ChaosWorkflowRun}

theorem count_getD (runs : List ChaosWorkflowRun) : (count runs).getD 0 = runs.length := by
  rw [count]
  split_ifs with hnil
  · rw [hnil]
    rfl
  · rfl

theorem aggregate_of_kept (hkept : ∀ wfRun ∈ runs, kept wfRun = true) :
    aggregate runs = {
      totalWorkflowRuns := count runs
      succeededWorkflowRuns := count (ofPhase "Succeeded" runs)
      failedWorkflowRuns := count (ofPhase "Failed" runs)
      runningWorkflowRuns := none
      averageResiliencyScore := if runs = [] then none else some (averageOf runs)
      experimentStats := if runs = [] then none else some (experimentStats runs) } := by
  have hphase : ∀ wfRun ∈ runs, wfRun.phase ≠ "Running" := fun wfRun hrun => (of_decide_eq_true (hkept wfRun hrun)).1
  have hfinished : (runs.filter fun wfRun => wfRun.phase ≠ "Running") = runs :=
    List.filter_eq_self.mpr fun wfRun hrun => decide_eq_true (hphase wfRun hrun)
  have hrunning : ofPhase "Running" runs = [] :=
    List.filter_eq_nil_iff.mpr fun wfRun hrun h => hphase wfRun hrun (of_decide_eq_true h)
  rw [aggregate, hfinished, hrunning]
  rfl

theorem length_ofPhase_add_le (runs : List ChaosWorkflowRun) :
    (ofPhase "Succeeded" runs).length + (ofPhase "Failed" runs).length ≤ runs.length := by
  rw [ofPhase, ofPhase, ← List.countP_eq_length_filter, ← List.countP_eq_length_filter]
  induction runs with
  | nil => exact Nat.le_refl 0
  | cons wfRun runs ih =>
      simp only [List.countP_cons, List.length_cons, decide_eq_true_eq]
      have hdiffer : ¬ (wfRun.phase = "Succeeded" ∧ wfRun.phase = "Failed") := by
        rintro ⟨hsucceeded, hfailed⟩
        exact absurd (hsucceeded.symm.trans hfailed) (by decide)
      split_ifs with hsucceeded hfailed
      · exact absurd ⟨hsucceeded, hfailed⟩ hdiffer
      all_goals omega

theorem runningWorkflowRuns_responseOf (hkept : ∀ wfRun ∈ runs, kept wfRun = true) :
    (responseOf (aggregate runs)).runningWorkflowRuns = 0 := by
  rw [aggregate_of_kept hkept]
  unfold responseOf experimentNumbers runStats
  by_cases hnil : runs = []
  · simp [count, hnil, WorkflowRunStatsResponse.zero]
  · simp [count, hnil, WorkflowRunStatsResponse.zero]

theorem responseOf_of_kept (hkept : ∀ wfRun ∈ runs, kept wfRun = true) (hne : runs ≠ []) :
    (responseOf (aggregate runs)).totalWorkflowRuns = runs.length ∧
      (responseOf (aggregate runs)).succeededWorkflowRuns = (ofPhase "Succeeded" runs).length ∧
      (responseOf (aggregate runs)).failedWorkflowRuns = (ofPhase "Failed" runs).length ∧
      (responseOf (aggregate runs)).workflowRunSucceededPercentage =
        percentage (ofPhase "Succeeded" runs).length runs.length ∧
      (responseOf (aggregate runs)).workflowRunFailedPercentage =
        percentage (ofPhase "Failed" runs).length runs.length ∧
      (responseOf (aggregate runs)).passedPercentage =
        percentage (sumOf ChaosWorkflowRun.experimentsPassed runs) (sumOf ChaosWorkflowRun.totalExperiments runs) ∧
      (responseOf (aggregate runs)).failedPercentage =
        percentage (sumOf ChaosWorkflowRun.experimentsFailed runs) (sumOf ChaosWorkflowRun.totalExperiments runs) := by
  have hcount : count runs = some runs.length := if_neg hne
  rw [aggregate_of_kept hkept, hcount, if_neg hne, if_neg hne]
  simp [responseOf, experimentNumbers, runStats, WorkflowRunStatsResponse.zero, count_getD, experimentStats]

theorem responseOf_nil : responseOf (aggregate []) = .zero := rfl

theorem CountsFit.passed_le {wfRun : ChaosWorkflowRun} (h : CountsFit wfRun) :
    wfRun.experimentsPassed.getD 0 ≤ wfRun.totalExperiments.getD 0 := by
  obtain ⟨hpassed, hfailed, hawaited, hstopped, hna, htotal⟩ := h
  omega

theorem CountsFit.failed_le {wfRun : ChaosWorkflowRun} (h : CountsFit wfRun) :
    wfRun.experimentsFailed.getD 0 ≤ wfRun.totalExperiments.getD 0 := by
  obtain ⟨hpassed, hfailed, hawaited, hstopped, hna, htotal⟩ := h
  omega

end Kept

section Response

variable {workflows : List ChaosWorkFlow} {request : WorkflowRunStatsRequest}

def countedRuns (workflows : List ChaosWorkFlow) (request : WorkflowRunStatsRequest) : List ChaosWorkflowRun :=
  (selectedRuns workflows request).filter kept

theorem runStatsRight_zero_iff {runs : List ChaosWorkflowRun} :
    RunStatsRight runs .zero ↔ runs.countP isRunning = 0 := by
  constructor
  · exact fun h => h.running.symm
  · exact fun h => ⟨isPercentage_zero, isPercentage_zero, isPercentage_zero, isPercentage_zero, Nat.le_refl 0, h.symm⟩

theorem runStatsRight_counted_iff {runs : List ChaosWorkflowRun} {counted : List ChaosWorkflowRun}
    (hkept : ∀ wfRun ∈ counted, kept wfRun = true) (hfit : ∀ wfRun ∈ counted, CountsFit wfRun) :
    RunStatsRight runs (responseOf (aggregate counted)) ↔
      runs.countP isRunning = 0 ∧ (counted = [] ∨ sumOf ChaosWorkflowRun.totalExperiments counted ≠ 0) := by
  by_cases hnil : counted = []
  · rw [hnil, responseOf_nil, runStatsRight_zero_iff, and_iff_left (.inl rfl)]
  · rw [or_iff_right hnil]
    obtain ⟨htotal, hsucceeded, hfailed, hrunSucceeded, hrunFailed, hpassed, hfailedPercentage⟩ :=
      responseOf_of_kept hkept hnil
    have hrunning := runningWorkflowRuns_responseOf hkept
    have hle := length_ofPhase_add_le counted
    have hpassedIff := isPercentage_percentage_iff
      (sumOf_nonneg fun wfRun h => (hfit wfRun h).passed) (sumOf_le fun wfRun h => (hfit wfRun h).passed_le)
    have hfailedIff := isPercentage_percentage_iff
      (sumOf_nonneg fun wfRun h => (hfit wfRun h).failed) (sumOf_le fun wfRun h => (hfit wfRun h).failed_le)
    have hlength : (counted.length : Int) ≠ 0 := by
      exact_mod_cast fun h => hnil (List.length_eq_zero_iff.mp h)
    constructor
    · intro h
      refine ⟨?_, hpassedIff.mp (hpassed ▸ h.passed)⟩
      rw [← h.running, hrunning]
    · rintro ⟨hnone, hsum⟩
      refine ⟨?_, ?_, ?_, ?_, ?_, ?_⟩
      · rw [hpassed]
        exact hpassedIff.mpr hsum
      · rw [hfailedPercentage]
        exact hfailedIff.mpr hsum
      · rw [hrunSucceeded]
        exact (isPercentage_percentage_iff (by omega) (by omega)).mpr hlength
      · rw [hrunFailed]
        exact (isPercentage_percentage_iff (by omega) (by omega)).mpr hlength
      · omega
      · rw [hrunning, hnone]

theorem runStatsRight_iff {aggregateFails readFails : Bool} {response : WorkflowRunStatsResponse}
    (hfit : ∀ workflow ∈ workflows, ∀ wfRun ∈ workflow.workflowRuns, CountsFit wfRun)
    (hresponse : getWorkflowRunStats aggregateFails readFails workflows request = .ok response) :
    RunStatsRight (selectedRuns workflows request) response ↔
      (∀ wfRun ∈ selectedRuns workflows request, wfRun.phase = "Running" → wfRun.isRemoved = some true) ∧
        (readFails = true ∨ countedRuns workflows request = [] ∨
          sumOf ChaosWorkflowRun.totalExperiments (countedRuns workflows request) ≠ 0) := by
  have hnone : (selectedRuns workflows request).countP isRunning = 0 ↔
      ∀ wfRun ∈ selectedRuns workflows request, wfRun.phase = "Running" → wfRun.isRemoved = some true := by
    simp [List.countP_eq_zero, isRunning]
  rw [← hnone]
  rw [getWorkflowRunStats] at hresponse
  by_cases haggregate : aggregateFails = true
  · rw [if_pos haggregate] at hresponse
    cases hresponse
  · rw [if_neg haggregate] at hresponse
    by_cases hread : readFails = true
    · rw [if_pos hread] at hresponse
      obtain rfl := Except.ok.inj hresponse
      rw [runStatsRight_zero_iff, and_iff_left (.inl hread)]
    · rw [if_neg hread] at hresponse
      obtain rfl := Except.ok.inj hresponse
      rw [or_iff_right hread]
      refine runStatsRight_counted_iff (fun wfRun h => (List.mem_filter.mp h).2) fun wfRun h => ?_
      obtain ⟨workflow, hworkflow, hmem⟩ := List.mem_flatMap.mp (List.mem_filter.mp h).1
      exact hfit workflow (List.mem_filter.mp hworkflow).1 wfRun hmem

end Response

/-- A run of one experiment, or of none, that has ended or runs. -/
def runOf (phase : String) (experiments : Int) : ChaosWorkflowRun where
  workflowRunID := "run"
  lastUpdated := "0"
  phase := phase
  resiliencyScore := none
  experimentsPassed := some experiments
  experimentsFailed := some 0
  experimentsAwaited := some 0
  experimentsStopped := some 0
  experimentsNA := some 0
  totalExperiments := some experiments
  executionData := ""
  completed := true
  isRemoved := none
  executedBy := ""

def workflowOf (wfRun : ChaosWorkflowRun) : ChaosWorkFlow :=
  { sampleWorkflow with projectID := "project", workflowRuns := [wfRun] }

theorem countsFit_runOf {phase : String} {experiments : Int} (h : 0 ≤ experiments) :
    CountsFit (runOf phase experiments) :=
  ⟨h, le_refl 0, le_refl 0, le_refl 0, le_refl 0, by simp [runOf]⟩

theorem runStatsRight_one :
    RunStatsRight (selectedRuns [workflowOf (runOf "Succeeded" 1)] ⟨"project", []⟩)
      (responseOf (aggregate (countedRuns [workflowOf (runOf "Succeeded" 1)] ⟨"project", []⟩))) := by
  refine (@runStatsRight_iff [workflowOf (runOf "Succeeded" 1)] ⟨"project", []⟩ false false _ ?_ rfl).mpr
    ⟨by decide, .inr (.inr (by decide))⟩
  intro workflow hworkflow wfRun hrun
  obtain rfl := List.mem_singleton.mp hworkflow
  obtain rfl := List.mem_singleton.mp hrun
  exact countsFit_runOf (by decide)

def RunStatsAreRight : Prop :=
  ∀ (aggregateFails readFails : Bool) (workflows : List ChaosWorkFlow) (request : WorkflowRunStatsRequest)
    (response : WorkflowRunStatsResponse),
    (∀ workflow ∈ workflows, ∀ wfRun ∈ workflow.workflowRuns, CountsFit wfRun) →
    getWorkflowRunStats aggregateFails readFails workflows request = .ok response →
    RunStatsRight (selectedRuns workflows request) response

/-- A run that runs is not counted as one, and a run without experiments is divided by zero. -/
theorem not_runStatsAreRight :
    ¬ RunStatsAreRight ∧
      ¬ IsPercentage (responseOf (aggregate [runOf "Succeeded" 0])).passedPercentage := by
  constructor
  · intro h
    have hright := h false false [workflowOf (runOf "Running" 1)] ⟨"project", []⟩ _ ?_ rfl
    · exact absurd hright.running (by decide)
    · intro workflow hworkflow wfRun hrun
      obtain rfl := List.mem_singleton.mp hworkflow
      obtain rfl := List.mem_singleton.mp hrun
      exact countsFit_runOf (by decide)
  · rintro ⟨q, hq, -⟩
    cases hq

end LitmusPortal.Analytics
