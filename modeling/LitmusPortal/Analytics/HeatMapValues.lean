import LitmusPortal.Analytics.HeatMapCalendar

/-!
# The values of the heat map

A run is for the cell of its day if its time lies in the year. The window on the timestamps compares their
numerals as strings, which is the order of the numbers for numerals of one length only.
-/

namespace LitmusPortal.Analytics

open LitmusPortal Calendar DocumentStore GoStrings

def runDay (zone : Int) (wfRun : ChaosWorkflowRun) : Int := (localDays zone).index (stampOf wfRun)

def InYear (zone year : Int) (wfRun : ChaosWorkflowRun) : Prop := yearOf (runDay zone wfRun) = year

/-- Completed, not removed and not terminated. -/
def Ended (wfRun : ChaosWorkflowRun) : Prop :=
  wfRun.completed = true ∧ wfRun.isRemoved ≠ some true ∧ wfRun.phase ≠ "Terminated"

/-- The runs that the loop adds to the cells; none if the answer is not read. -/
def contributors (zone : Int) (readFails : Bool) (workflows : Workflows) (workflowID projectID : String) (year : Int) :
    List ChaosWorkflowRun :=
  if readFails then [] else runsInYear zone workflows workflowID projectID year

def mean (runs : List ChaosWorkflowRun) : Option ℚ :=
  if runs = [] then none else some ((runs.map fun wfRun => wfRun.resiliencyScore.getD 0).sum / runs.length)

def cellAt (result : List HeatmapDataResponse) (p : ℕ) : Option WorkflowRunsData :=
  result[p / 7]?.bind fun week => week.bins[p % 7]?

/-- A cell shows its runs; no cell is needed where there are none. -/
def Shows (cell : Option WorkflowRunsData) (runs : List ChaosWorkflowRun) : Prop :=
  match cell with
  | none => runs = []
  | some cell => cell.value = mean runs ∧ cell.workflowRunDetail.map WorkflowRunDetails.noOfRuns = some runs.length

structure ValuesRight (zone year : Int) (workflow : ChaosWorkFlow) (added : List ChaosWorkflowRun)
    (result : List HeatmapDataResponse) : Prop where
  contributes : ∀ wfRun ∈ workflow.workflowRuns, Ended wfRun → (wfRun ∈ added ↔ InYear zone year wfRun)
  cells : ∀ i < noOfDays zone year,
    Shows (cellAt result (weekdayOf zone (startTimeStamp zone year) + i))
      (added.filter fun wfRun => runDay zone wfRun = yearStart year + i)

/-- The loop returns, and the result is right. -/
def ValuesHold (zone : Int) (aggregateFails readFails : Bool) (workflows : Workflows) (workflow : ChaosWorkFlow)
    (year : Int) : Prop :=
  ∃ result,
    listHeatmapData zone aggregateFails readFails workflows workflow.workflowID workflow.projectID year = .ok result ∧
    ValuesRight zone year workflow
      (contributors zone readFails workflows workflow.workflowID workflow.projectID year) result

structure ValuesFit (zone year : Int) (workflow : ChaosWorkFlow) : Prop where
  notRunning : ∀ wfRun ∈ workflow.workflowRuns, Ended wfRun → InYear zone year wfRun → wfRun.phase ≠ "Running"
  window : ∀ wfRun ∈ workflow.workflowRuns, Ended wfRun → wfRun.phase ≠ "Running" →
    (inWindow zone year wfRun = true ↔ InYear zone year wfRun)
  scored : ∀ wfRun ∈ workflow.workflowRuns, Ended wfRun → InYear zone year wfRun → wfRun.resiliencyScore ≠ none
  lastDay : isLeap year = true → weekday (yearStart year) = 6 →
    ∀ wfRun ∈ workflow.workflowRuns, Ended wfRun → runDay zone wfRun ≠ yearStart year + 365

/-! ### The cells -/

section Cells

variable {zone year : Int}

theorem mean_mul_length (runs : List ChaosWorkflowRun) :
    (mean runs).getD 0 * runs.length = (runs.map fun wfRun => wfRun.resiliencyScore.getD 0).sum := by
  rw [mean]
  split_ifs with hnil
  · simp [hnil]
  · have hne : (runs.length : ℚ) ≠ 0 := by exact_mod_cast fun h => hnil (List.length_eq_zero_iff.mp h)
    exact div_mul_cancel₀ _ hne

theorem value_addRuns (unix : Int) (runs : List ChaosWorkflowRun) :
    (addRuns (emptyDay unix) runs).value = mean runs := by
  induction runs using List.reverseRecOn with
  | nil => rfl
  | append_singleton runs wfRun ih =>
      have hstep : addRuns (emptyDay unix) (runs ++ [wfRun]) =
          addRun (addRuns (emptyDay unix) runs) (wfRun.resiliencyScore.getD 0) (stampOf wfRun) :=
        List.foldl_concat _ _ _ _
      rw [hstep, addRun, workflowRunDetail_addRuns, ih]
      dsimp only
      rw [mean_mul_length, mean, if_neg (List.append_ne_nil_of_right_ne_nil _ (List.cons_ne_nil _ _))]
      simp

theorem shows_addRuns (unix : Int) (runs : List ChaosWorkflowRun) : Shows (some (addRuns (emptyDay unix) runs)) runs :=
  ⟨value_addRuns unix runs, by rw [workflowRunDetail_addRuns]; rfl⟩

theorem cellAt_cut {cells : List WorkflowRunsData} {n p : ℕ} (h : p < 7 * n) : cellAt (cut cells n) p = cells[p]? := by
  have hweek : p / 7 < n := by omega
  have hplace : 7 * (p / 7) + p % 7 = p := Nat.div_add_mod p 7
  rw [cellAt, cut, List.getElem?_map, List.getElem?_range hweek, Option.map_some, Option.bind_some,
    List.getElem?_take_of_lt (Nat.mod_lt _ (by decide)), List.getElem?_drop, hplace]

theorem cellAt_cut_of_le {cells : List WorkflowRunsData} {n p : ℕ} (h : 7 * n ≤ p) : cellAt (cut cells n) p = none := by
  have hnone : (cut cells n)[p / 7]? = none := by
    apply List.getElem?_eq_none
    rw [cut, List.length_map, List.length_range]
    omega
  rw [cellAt, hnone, Option.bind_none]

theorem getElem?_padded {cells : List WorkflowRunsData} {i : ℕ} (h : i < cells.length) :
    (padded zone year cells)[weekdayOf zone (startTimeStamp zone year) + i]? = cells[i]? := by
  rw [padded, List.append_assoc, List.getElem?_append_right (by simp), List.length_replicate, Nat.add_sub_cancel_left,
    List.getElem?_append_left h]

theorem ofDay_eq {runs : List ChaosWorkflowRun} (hyear : ∀ wfRun ∈ runs, InYear zone year wfRun) (i : ℕ) :
    ofDay zone i runs = runs.filter fun wfRun => runDay zone wfRun = yearStart year + i := by
  apply List.filter_congr
  intro wfRun hmem
  have hday : dayNumber zone wfRun = i ↔ runDay zone wfRun = yearStart year + i := by
    rw [dayNumber_eq_iff]
    change yearDay (runDay zone wfRun) = i ↔ _
    rw [yearDay, hyear wfRun hmem]
    omega
  exact decide_eq_decide.mpr hday

theorem cells_of_inYear {runs : List ChaosWorkflowRun} (hyear : ∀ wfRun ∈ runs, InYear zone year wfRun) {i : ℕ}
    (hi : i < noOfDays zone year) (hfits : weekdayOf zone (startTimeStamp zone year) + i < 371) :
    Shows (cellAt (cut (padded zone year (groupedDays zone year runs)) 53)
        (weekdayOf zone (startTimeStamp zone year) + i))
      (runs.filter fun wfRun => runDay zone wfRun = yearStart year + i) := by
  rw [cellAt_cut hfits, getElem?_padded (by rwa [length_groupedDays]), groupedDays, List.getElem?_map,
    List.getElem?_range hi, Option.map_some, ofDay_eq hyear]
  exact shows_addRuns _ _

end Cells

/-! ### The window -/

section Window

variable {zone year : Int}

theorem stampOf_eq {wfRun : ChaosWorkflowRun} {n : Int} (htext : wfRun.lastUpdated = toString n)
    (hlower : minInt ≤ n) (hupper : n ≤ maxInt) : stampOf wfRun = n := by
  rw [stampOf, atoiValue, htext, parseInt_toString]
  change max minInt (min n maxInt) = n
  omega

theorem inYear_iff {wfRun : ChaosWorkflowRun} :
    InYear zone year wfRun ↔ startTimeStamp zone year ≤ stampOf wfRun ∧ stampOf wfRun ≤ endTimeStamp zone year := by
  have hindex : InYear zone year wfRun ↔ ((years.comp (localDays zone)).index (stampOf wfRun) = year) := Iff.rfl
  rw [hindex, Periods.index_eq_iff, startTimeStamp_eq, endTimeStamp_eq, Int.le_sub_one_iff]
  rfl

/-- Where the bounds of the year and the timestamp have as many digits, the window is right. -/
theorem inWindow_iff {wfRun : ChaosWorkflowRun} {n : Int} {k : ℕ} (htext : wfRun.lastUpdated = toString n)
    (hn : 10 ^ k ≤ n ∧ n < 10 ^ (k + 1)) (hmax : n ≤ maxInt)
    (hstart : 10 ^ k ≤ startTimeStamp zone year) (hend : endTimeStamp zone year < 10 ^ (k + 1)) :
    inWindow zone year wfRun = true ↔ InYear zone year wfRun := by
  have hpow : (0 : Int) ≤ 10 ^ k := by positivity
  have hlower : minInt ≤ n := by
    unfold minInt
    omega
  have horder : startTimeStamp zone year ≤ endTimeStamp zone year := by
    have hlt := (localDays zone).start_lt_start (years.start_lt year)
    rw [startTimeStamp_eq, endTimeStamp_eq]
    exact Int.le_sub_one_of_lt hlt
  rw [inYear_iff, stampOf_eq htext hlower hmax, inWindow, htext, decide_eq_true_eq,
    toString_le_iff hn ⟨hstart.trans horder, hend⟩, toString_le_iff ⟨hstart, by omega⟩ hn, and_comm]

end Window

/-! ### When the values are right -/

section Values

variable {zone year : Int} {workflows : Workflows} {workflow : ChaosWorkFlow}

theorem runsInYear_eq (hworkflow : workflow ∈ workflows.docs) :
    runsInYear zone workflows workflow.workflowID workflow.projectID year =
      workflow.workflowRuns.filter fun wfRun =>
        kept wfRun ∧ wfRun.phase ≠ "Terminated" ∧ inWindow zone year wfRun := by
  have hclash : ∀ other : ChaosWorkFlow,
      decide (other.projectID = workflow.projectID ∧ other.workflowID = workflow.workflowID) = true →
        Clash workflowIndexes workflow other := by
    intro other hother
    exact ⟨fun workflow => some workflow.workflowID, by simp [workflowIndexes], by simp,
      congrArg some (of_decide_eq_true hother).2.symm⟩
  rw [runsInYear, workflows.find_eq_singleton hworkflow (by simp) hclash]
  simp [copySlice]

theorem mem_runsInYear_iff (hworkflow : workflow ∈ workflows.docs) {wfRun : ChaosWorkflowRun} :
    wfRun ∈ runsInYear zone workflows workflow.workflowID workflow.projectID year ↔
      wfRun ∈ workflow.workflowRuns ∧ Ended wfRun ∧ wfRun.phase ≠ "Running" ∧ inWindow zone year wfRun = true := by
  rw [runsInYear_eq hworkflow, List.mem_filter]
  simp only [kept, Ended, decide_eq_true_eq]
  constructor
  · rintro ⟨hmem, ⟨hphase, hremoved, hcompleted⟩, hterminated, hwindow⟩
    exact ⟨hmem, ⟨by simpa using hcompleted, hremoved, hterminated⟩, hphase, hwindow⟩
  · rintro ⟨hmem, ⟨hcompleted, hremoved, hterminated⟩, hphase, hwindow⟩
    exact ⟨hmem, ⟨hphase, hremoved, by simp [hcompleted]⟩, hterminated, hwindow⟩

theorem contributes_iff (hworkflow : workflow ∈ workflows.docs) :
    (∀ wfRun ∈ workflow.workflowRuns, Ended wfRun →
      (wfRun ∈ runsInYear zone workflows workflow.workflowID workflow.projectID year ↔ InYear zone year wfRun)) ↔
      (∀ wfRun ∈ workflow.workflowRuns, Ended wfRun → InYear zone year wfRun → wfRun.phase ≠ "Running") ∧
        ∀ wfRun ∈ workflow.workflowRuns, Ended wfRun → wfRun.phase ≠ "Running" →
          (inWindow zone year wfRun = true ↔ InYear zone year wfRun) := by
  constructor
  · intro h
    refine ⟨fun wfRun hmem hended hyear => ?_, fun wfRun hmem hended hphase => ?_⟩
    · exact ((mem_runsInYear_iff hworkflow).mp ((h wfRun hmem hended).mpr hyear)).2.2.1
    · rw [← h wfRun hmem hended, mem_runsInYear_iff hworkflow]
      exact ⟨fun hwindow => ⟨hmem, hended, hphase, hwindow⟩, fun hadded => hadded.2.2.2⟩
  · rintro ⟨hphase, hwindow⟩ wfRun hmem hended
    rw [mem_runsInYear_iff hworkflow]
    constructor
    · exact fun hadded => (hwindow wfRun hmem hended hadded.2.2.1).mp hadded.2.2.2
    · intro hyear
      have hrunning := hphase wfRun hmem hended hyear
      exact ⟨hmem, hended, hrunning, (hwindow wfRun hmem hended hrunning).mpr hyear⟩

theorem groupable_of_inYear {runs : List ChaosWorkflowRun} (hyear : ∀ wfRun ∈ runs, InYear zone year wfRun)
    (hscored : ∀ wfRun ∈ runs, wfRun.resiliencyScore ≠ none) : Groupable zone (noOfDays zone year) runs := by
  intro wfRun hmem
  refine ⟨?_, hscored wfRun hmem⟩
  have hlt := yearDay_lt (runDay zone wfRun)
  have hnonneg := yearDay_nonneg (runDay zone wfRun)
  have hdays := noOfDays_eq zone year
  rw [hyear wfRun hmem] at hlt
  unfold dayNumber yearDayOf
  unfold runDay at *
  omega

theorem valuesHold_of_fit (hworkflow : workflow ∈ workflows.docs) (h : ValuesFit zone year workflow) :
    ValuesHold zone false false workflows workflow year := by
  have hcontributes := (contributes_iff hworkflow).mpr ⟨h.notRunning, h.window⟩
  have hyear : ∀ wfRun ∈ runsInYear zone workflows workflow.workflowID workflow.projectID year,
      InYear zone year wfRun := by
    intro wfRun hadded
    obtain ⟨hmem, hended, -⟩ := (mem_runsInYear_iff hworkflow).mp hadded
    exact (hcontributes wfRun hmem hended).mp hadded
  have hscored : ∀ wfRun ∈ runsInYear zone workflows workflow.workflowID workflow.projectID year,
      wfRun.resiliencyScore ≠ none := by
    intro wfRun hadded
    obtain ⟨hmem, hended, -⟩ := (mem_runsInYear_iff hworkflow).mp hadded
    exact h.scored wfRun hmem hended (hyear wfRun hadded)
  refine ⟨_, listHeatmapData_of_groupable (groupable_of_inYear hyear hscored), hcontributes, fun i hi => ?_⟩
  by_cases hplace : weekdayOf zone (startTimeStamp zone year) + i < 371
  · exact cells_of_inYear hyear hi hplace
  · have hfits : ¬ weekdayOf zone (startTimeStamp zone year) + noOfDays zone year ≤ 371 := by omega
    rw [fits_iff, not_not] at hfits
    have hlast : i = 365 := by
      have hlt := @weekdayOf_start_lt zone year
      have hdays := noOfDays_eq zone year
      rw [yearLength, if_pos hfits.1] at hdays
      omega
    rw [cellAt_cut_of_le (by omega)]
    change List.filter _ _ = []
    rw [List.filter_eq_nil_iff]
    intro wfRun hadded hday
    obtain ⟨hmem, hended, -⟩ := (mem_runsInYear_iff hworkflow).mp hadded
    subst hlast
    exact h.lastDay hfits.1 hfits.2 wfRun hmem hended (of_decide_eq_true hday)

theorem fit_of_valuesHold (hworkflow : workflow ∈ workflows.docs)
    (h : ValuesHold zone false false workflows workflow year) : ValuesFit zone year workflow := by
  obtain ⟨result, hresult, hcontributes, hcells⟩ := h
  obtain ⟨hphase, hwindow⟩ := (contributes_iff hworkflow).mp hcontributes
  have hgroupable := groupable_of_listHeatmapData hresult
  rw [listHeatmapData_of_groupable hgroupable] at hresult
  obtain rfl := Except.ok.inj hresult
  refine ⟨hphase, hwindow, fun wfRun hmem hended hyear => ?_, fun hleap hsaturday wfRun hmem hended hday => ?_⟩
  · exact (hgroupable wfRun ((hcontributes wfRun hmem hended).mpr hyear)).2
  · have hdays := noOfDays_eq zone year
    have hstart := @weekdayOf_start zone year
    have hlength : yearLength year = 366 := if_pos hleap
    have hyear : InYear zone year wfRun := by
      rw [InYear, hday]
      exact yearOf_add (by decide) (by omega)
    have hcell := hcells 365 (by omega)
    rw [cellAt_cut_of_le (by omega)] at hcell
    have hnone := List.filter_eq_nil_iff.mp hcell wfRun ((hcontributes wfRun hmem hended).mpr hyear)
    exact hnone (decide_eq_true hday)

theorem valuesHold_iff {aggregateFails readFails : Bool} (hworkflow : workflow ∈ workflows.docs) :
    ValuesHold zone aggregateFails readFails workflows workflow year ↔
      aggregateFails = false ∧
        (readFails = true ∧ (∀ wfRun ∈ workflow.workflowRuns, Ended wfRun → ¬ InYear zone year wfRun) ∨
          readFails = false ∧ ValuesFit zone year workflow) := by
  cases aggregateFails with
  | true =>
      refine iff_of_false ?_ fun h => Bool.noConfusion h.1
      rintro ⟨result, hresult, -⟩
      cases hresult
  | false =>
      rw [and_iff_right rfl]
      cases readFails with
      | true =>
          simp only [true_and, Bool.true_eq_false, false_and, or_false]
          constructor
          · rintro ⟨result, -, hcontributes, -⟩ wfRun hmem hended hyear
            cases (hcontributes wfRun hmem hended).mpr hyear
          · intro h
            refine ⟨[], rfl, fun wfRun hmem hended => ?_, fun i _ => rfl⟩
            exact iff_of_false List.not_mem_nil (h wfRun hmem hended)
      | false =>
          simp only [Bool.false_eq_true, false_and, true_and, false_or]
          exact ⟨fit_of_valuesHold hworkflow, valuesHold_of_fit hworkflow⟩

end Values

def endedRun (lastUpdated : String) : ChaosWorkflowRun :=
  { runOf "Succeeded" 1 with lastUpdated := lastUpdated, resiliencyScore := some 100 }

def workflowOfRun (lastUpdated : String) : ChaosWorkFlow := workflowOf (endedRun lastUpdated)

def workflowsOfRun (lastUpdated : String) : Workflows := ⟨[workflowOfRun lastUpdated], List.pairwise_singleton _ _⟩

/-- A run of 2022, with a timestamp of ten digits. -/
theorem valuesHold_of_2022 :
    ValuesHold 0 false false (workflowsOfRun "1650000000") (workflowOfRun "1650000000") 2022 := by
  refine (@valuesHold_iff 0 2022 (workflowsOfRun "1650000000") _ false false (List.mem_singleton.mpr rfl)).mpr
    ⟨rfl, .inr ⟨rfl, ?_, ?_, ?_, ?_⟩⟩
  · rintro wfRun hmem - -
    obtain rfl := List.mem_singleton.mp hmem
    decide
  · rintro wfRun hmem - -
    obtain rfl := List.mem_singleton.mp hmem
    exact @inWindow_iff 0 2022 (endedRun "1650000000") 1650000000 9 (by decide) (by decide) (by decide) (by decide)
      (by decide)
  · rintro wfRun hmem - -
    obtain rfl := List.mem_singleton.mp hmem
    exact Option.some_ne_none _
  · intro hleap
    exact absurd hleap (by decide)

def ValuesAreRight : Prop :=
  ∀ (zone year : Int) (workflows : Workflows) (workflow : ChaosWorkFlow), workflow ∈ workflows.docs →
    (∀ wfRun ∈ workflow.workflowRuns, ∃ n : Int, minInt ≤ n ∧ n ≤ maxInt ∧ wfRun.lastUpdated = toString n) →
    ValuesHold zone false false workflows workflow year

/-- The last day of 2484 passes the window of 2021, which has no such day. -/
theorem not_valuesAreRight : ¬ ValuesAreRight := by
  intro h
  have hdecimal : ∀ wfRun ∈ (workflowOfRun "16251840000").workflowRuns,
      ∃ n : Int, minInt ≤ n ∧ n ≤ maxInt ∧ wfRun.lastUpdated = toString n := by
    intro wfRun hmem
    obtain rfl := List.mem_singleton.mp hmem
    exact ⟨16251840000, by decide, by decide, by decide⟩
  obtain ⟨result, hresult, -⟩ := h 0 2021 (workflowsOfRun "16251840000") _ (List.mem_singleton.mpr rfl) hdecimal
  have hgroupable := groupable_of_listHeatmapData hresult (endedRun "16251840000") (by decide)
  exact absurd hgroupable.1 (by decide)

end LitmusPortal.Analytics
