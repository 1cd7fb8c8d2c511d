import LitmusPortal.Analytics.HeatMap

/-!
# The calendar of the heat map

The cells of a year and their padding fill 53 weeks, but for a leap year that begins on a Saturday, which
has days in 54 weeks. A run stamps the cell of its day with its own time, whatever its year is.
-/

namespace LitmusPortal.Analytics

open LitmusPortal Calendar

def daysOfYear (year : Int) : List Int := (List.range (yearLength year).toNat).map fun i : ℕ => yearStart year + i

/-- The day a cell stands for; none for padding. -/
def dayOfCell (zone : Int) (cell : WorkflowRunsData) : Option Int :=
  cell.workflowRunDetail.map fun detail => (localDays zone).index detail.dateStamp

structure CalendarRight (zone year : Int) (result : List HeatmapDataResponse) : Prop where
  days : (result.flatMap HeatmapDataResponse.bins).filterMap (dayOfCell zone) = daysOfYear year
  weekdays : ∀ (i j : ℕ) week cell day, result[i]? = some week → week.bins[j]? = some cell →
    dayOfCell zone cell = some day → weekday day = j
  padding : ∀ week ∈ result, ∀ cell ∈ week.bins, dayOfCell zone cell = none → cell = padding

/-- The last run of each number of the day is of the year. -/
def LastRunsOfYear (zone year : Int) (runs : List ChaosWorkflowRun) : Prop :=
  ∀ i, ∀ wfRun ∈ (ofDay zone i runs).getLast?, yearOf ((localDays zone).index (stampOf wfRun)) = year

section Days

variable {zone year : Int} {runs : List ChaosWorkflowRun}

theorem workflowRunDetail_addRuns (unix : Int) (runs : List ChaosWorkflowRun) :
    (addRuns (emptyDay unix) runs).workflowRunDetail =
      some ⟨runs.length, (runs.getLast?.map stampOf).getD unix⟩ := by
  induction runs using List.reverseRecOn with
  | nil => rfl
  | append_singleton runs wfRun ih =>
      have hstep : addRuns (emptyDay unix) (runs ++ [wfRun]) =
          addRun (addRuns (emptyDay unix) runs) (wfRun.resiliencyScore.getD 0) (stampOf wfRun) :=
        List.foldl_concat _ _ _ _
      rw [hstep, addRun, ih]
      simp

def groupedDays (zone year : Int) (runs : List ChaosWorkflowRun) : List WorkflowRunsData :=
  (List.range (noOfDays zone year)).map fun i : ℕ =>
    addRuns (emptyDay (addDays (startTimeStamp zone year) i)) (ofDay zone i runs)

theorem length_groupedDays : (groupedDays zone year runs).length = noOfDays zone year := by
  rw [groupedDays, List.length_map, List.length_range]

theorem groupRuns_emptyDays (h : Groupable zone (noOfDays zone year) runs) :
    runs.foldlM (groupRun zone) (emptyDays zone year) = .ok (groupedDays zone year runs) := by
  have hlength : (emptyDays zone year).length = noOfDays zone year := by
    rw [emptyDays, List.length_map, List.length_range]
  rw [groupRuns_of_groupable (by rwa [hlength])]
  refine congrArg Except.ok (List.ext_getElem? fun i => ?_)
  rw [List.getElem?_mapIdx, emptyDays, groupedDays, List.getElem?_map, List.getElem?_map]
  by_cases hi : i < noOfDays zone year
  · rw [List.getElem?_range hi]
    rfl
  · rw [List.getElem?_eq_none (by simpa using hi)]
    rfl

def stampOfDay (zone year : Int) (runs : List ChaosWorkflowRun) (i : ℕ) : Int :=
  ((ofDay zone i runs).getLast?.map stampOf).getD (addDays (startTimeStamp zone year) i)

theorem dayOfCell_groupedDays {i : ℕ} {cell : WorkflowRunsData} (h : (groupedDays zone year runs)[i]? = some cell) :
    dayOfCell zone cell = some ((localDays zone).index (stampOfDay zone year runs i)) := by
  rw [groupedDays, List.getElem?_map] at h
  obtain ⟨j, hj, rfl⟩ := Option.map_eq_some_iff.mp h
  obtain ⟨hi, rfl⟩ := List.getElem?_eq_some_iff.mp hj
  rw [dayOfCell, workflowRunDetail_addRuns, List.getElem_range]
  rfl

theorem filterMap_groupedDays :
    (groupedDays zone year runs).filterMap (dayOfCell zone) =
      (List.range (noOfDays zone year)).map fun i : ℕ => (localDays zone).index (stampOfDay zone year runs i) := by
  rw [groupedDays, List.filterMap_map, ← List.filterMap_eq_map']
  apply List.filterMap_congr
  intro i _
  rw [Function.comp_apply, dayOfCell, workflowRunDetail_addRuns]
  rfl

theorem index_addDays (i : ℕ) :
    (localDays zone).index (addDays (startTimeStamp zone year) i) = yearStart year + i := by
  rw [startTimeStamp_eq, ← start_add, Periods.index_start]

theorem dayNumber_eq_iff {wfRun : ChaosWorkflowRun} {i : ℕ} :
    dayNumber zone wfRun = i ↔ yearDay ((localDays zone).index (stampOf wfRun)) = i := by
  have hnonneg := yearDay_nonneg ((localDays zone).index (stampOf wfRun))
  unfold dayNumber yearDayOf
  omega

theorem index_eq_iff_yearOf {day : Int} {i : ℕ} (hi : (i : Int) < yearLength year) (hday : yearDay day = i) :
    day = yearStart year + i ↔ yearOf day = year := by
  constructor
  · rintro rfl
    exact yearOf_add (by omega) hi
  · rintro rfl
    unfold yearDay at hday
    omega

theorem index_stampOfDay_iff {i : ℕ} (hi : (i : Int) < yearLength year) :
    (localDays zone).index (stampOfDay zone year runs i) = yearStart year + i ↔
      ∀ wfRun ∈ (ofDay zone i runs).getLast?, yearOf ((localDays zone).index (stampOf wfRun)) = year := by
  unfold stampOfDay
  cases hlast : (ofDay zone i runs).getLast? with
  | none => exact iff_of_true (index_addDays i) fun _ h => nomatch h
  | some wfRun =>
      have hmem := List.mem_of_getLast? hlast
      have hday := dayNumber_eq_iff.mp (of_decide_eq_true (List.mem_filter.mp hmem).2)
      change (localDays zone).index (stampOf wfRun) = _ ↔ _
      rw [index_eq_iff_yearOf hi hday]
      simp

theorem lastRunsOfYear_iff (hdays : ∀ wfRun ∈ runs, dayNumber zone wfRun < noOfDays zone year) :
    (∀ i < noOfDays zone year, (localDays zone).index (stampOfDay zone year runs i) = yearStart year + (i : ℕ)) ↔
      LastRunsOfYear zone year runs := by
  have hlength := noOfDays_eq zone year
  constructor
  · intro h i wfRun hlast
    obtain ⟨hmem, hday⟩ := List.mem_filter.mp (List.mem_of_getLast? hlast)
    obtain rfl := of_decide_eq_true hday
    have hi := hdays wfRun hmem
    exact (index_stampOfDay_iff (by omega)).mp (h _ hi) wfRun hlast
  · intro h i hi
    exact (index_stampOfDay_iff (by omega)).mpr (h i)

end Days

/-! ### The padding -/

section Padding

variable {zone year : Int} {cells : List WorkflowRunsData}

theorem weekdayOf_start : (weekdayOf zone (startTimeStamp zone year) : Int) = weekday (yearStart year) := by
  unfold weekdayOf weekday
  rw [index_startTimeStamp]
  omega

theorem weekdayOf_end :
    (weekdayOf zone (endTimeStamp zone year) : Int) =
      (weekdayOf zone (startTimeStamp zone year) + noOfDays zone year + 6) % 7 := by
  have hstart := @weekdayOf_start zone year
  have hdays := noOfDays_eq zone year
  have hsucc := yearStart_succ year
  unfold weekday at hstart
  unfold weekdayOf weekday at *
  rw [index_endTimeStamp]
  omega

theorem weekdayOf_start_lt : weekdayOf zone (startTimeStamp zone year) < 7 := by
  have h := @weekdayOf_start zone year
  unfold weekday at h
  omega

/-- The year and the padding before it are a week too long only in one kind of year. -/
theorem fits_iff :
    weekdayOf zone (startTimeStamp zone year) + noOfDays zone year ≤ 371 ↔
      ¬ (isLeap year = true ∧ weekday (yearStart year) = 6) := by
  have hstart := @weekdayOf_start zone year
  have hlt := @weekdayOf_start_lt zone year
  have hdays := noOfDays_eq zone year
  unfold yearLength at hdays
  by_cases hleap : isLeap year = true
  · rw [if_pos hleap] at hdays
    rw [and_iff_right hleap]
    omega
  · rw [if_neg hleap] at hdays
    refine iff_of_true (by omega) fun h => hleap h.1

theorem length_padded (h : cells.length = noOfDays zone year) : 371 ≤ (padded zone year cells).length := by
  have hend := @weekdayOf_end zone year
  have hdays := noOfDays_eq zone year
  have hlt := @weekdayOf_start_lt zone year
  have hlength := yearLength_cases year
  rw [padded, List.length_append, List.length_append, List.length_replicate, List.length_replicate, h]
  omega

theorem weeks_padded (h : cells.length = noOfDays zone year) :
    weeks (padded zone year cells) 0 53 = .ok (cut (padded zone year cells) 53) :=
  weeks_eq (length_padded h)

theorem dayOfCell_padding : dayOfCell zone padding = none := rfl

theorem filterMap_replicate (n : ℕ) : (List.replicate n padding).filterMap (dayOfCell zone) = [] := by
  rw [List.filterMap_eq_nil_iff]
  intro cell hcell
  rw [List.eq_of_mem_replicate hcell, dayOfCell_padding]

theorem filterMap_cut :
    ((cut (padded zone year cells) 53).flatMap HeatmapDataResponse.bins).filterMap (dayOfCell zone) =
      (cells.take (371 - weekdayOf zone (startTimeStamp zone year))).filterMap (dayOfCell zone) := by
  rw [flatMap_cut, padded, List.take_append, List.take_append, List.take_replicate, List.take_replicate,
    List.filterMap_append, List.filterMap_append, filterMap_replicate, filterMap_replicate, List.length_replicate]
  simp

theorem eq_padding_of_replicate {n p : ℕ} {cell : WorkflowRunsData}
    (h : (List.replicate n padding)[p]? = some cell) : cell = padding :=
  List.eq_of_mem_replicate (List.mem_of_getElem? h)

theorem exists_of_padded {p : ℕ} {cell : WorkflowRunsData} (h : (padded zone year cells)[p]? = some cell)
    (hcell : cell ≠ padding) :
    ∃ i, p = weekdayOf zone (startTimeStamp zone year) + i ∧ cells[i]? = some cell := by
  rw [padded, List.append_assoc] at h
  by_cases hfront : p < (List.replicate (weekdayOf zone (startTimeStamp zone year)) padding).length
  · rw [List.getElem?_append_left hfront] at h
    exact absurd (eq_padding_of_replicate h) hcell
  · rw [List.getElem?_append_right (Nat.not_lt.mp hfront), List.length_replicate] at h
    rw [List.length_replicate] at hfront
    by_cases hmiddle : p - weekdayOf zone (startTimeStamp zone year) < cells.length
    · rw [List.getElem?_append_left hmiddle] at h
      exact ⟨_, by omega, h⟩
    · rw [List.getElem?_append_right (Nat.not_lt.mp hmiddle)] at h
      exact absurd (eq_padding_of_replicate h) hcell

theorem getElem?_of_cut {i j n : ℕ} {week : HeatmapDataResponse} {cell : WorkflowRunsData}
    (hweek : (cut cells n)[i]? = some week) (hcell : week.bins[j]? = some cell) :
    j < 7 ∧ cells[7 * i + j]? = some cell := by
  rw [cut, List.getElem?_map] at hweek
  obtain ⟨k, hk, rfl⟩ := Option.map_eq_some_iff.mp hweek
  obtain ⟨hi, rfl⟩ := List.getElem?_eq_some_iff.mp hk
  rw [List.getElem_range] at hcell
  have hj : j < 7 := by
    have hlt := (List.getElem?_eq_some_iff.mp hcell).1
    rw [List.length_take] at hlt
    omega
  rw [List.getElem?_take_of_lt hj, List.getElem?_drop] at hcell
  exact ⟨hj, hcell⟩

end Padding

/-! ### The calendar -/

section Calendar

variable {zone year : Int} {runs : List ChaosWorkflowRun}

theorem days_iff (hdays : ∀ wfRun ∈ runs, dayNumber zone wfRun < noOfDays zone year) :
    ((cut (padded zone year (groupedDays zone year runs)) 53).flatMap HeatmapDataResponse.bins).filterMap
        (dayOfCell zone) = daysOfYear year ↔
      LastRunsOfYear zone year runs ∧ ¬ (isLeap year = true ∧ weekday (yearStart year) = 6) := by
  have hnumber := noOfDays_eq zone year
  have hnat : (yearLength year).toNat = noOfDays zone year := by omega
  rw [filterMap_cut, ← fits_iff, ← lastRunsOfYear_iff hdays, daysOfYear, hnat]
  by_cases hfits : weekdayOf zone (startTimeStamp zone year) + noOfDays zone year ≤ 371
  · rw [and_iff_left hfits, List.take_of_length_le (by rw [length_groupedDays]; omega), filterMap_groupedDays,
      List.map_inj_left]
    simp only [List.mem_range]
  · refine iff_of_false (fun h => ?_) fun h => hfits h.2
    have hlength := congrArg List.length h
    have hle := List.length_filterMap_le (dayOfCell zone)
      ((groupedDays zone year runs).take (371 - weekdayOf zone (startTimeStamp zone year)))
    rw [hlength, List.length_map, List.length_range, List.length_take] at hle
    have hlt := @weekdayOf_start_lt zone year
    omega

theorem calendarRight_iff (hdays : ∀ wfRun ∈ runs, dayNumber zone wfRun < noOfDays zone year) :
    CalendarRight zone year (cut (padded zone year (groupedDays zone year runs)) 53) ↔
      LastRunsOfYear zone year runs ∧ ¬ (isLeap year = true ∧ weekday (yearStart year) = 6) := by
  rw [← days_iff hdays]
  constructor
  · exact CalendarRight.days
  · intro hright
    refine ⟨hright, ?_, ?_⟩
    · intro i j week cell day hweek hcell hday
      obtain ⟨hj, hplace⟩ := getElem?_of_cut hweek hcell
      have hcell : cell ≠ padding := by
        rintro rfl
        cases hday
      obtain ⟨k, hk, hgrouped⟩ := exists_of_padded hplace hcell
      have hlt : k < noOfDays zone year := by
        rw [← @length_groupedDays zone year runs]
        exact (List.getElem?_eq_some_iff.mp hgrouped).1
      have hlast := (lastRunsOfYear_iff hdays).mpr ((days_iff hdays).mp hright).1
      rw [dayOfCell_groupedDays hgrouped, hlast k hlt] at hday
      obtain rfl := Option.some.inj hday
      have hstart := @weekdayOf_start zone year
      unfold weekday at *
      omega
    · intro week hweek cell hcell hnone
      obtain ⟨i, hweek⟩ := List.mem_iff_getElem?.mp hweek
      obtain ⟨j, hcell⟩ := List.mem_iff_getElem?.mp hcell
      by_contra hne
      obtain ⟨k, -, hgrouped⟩ := exists_of_padded (getElem?_of_cut hweek hcell).2 hne
      rw [dayOfCell_groupedDays hgrouped] at hnone
      cases hnone

def ListsTheYear (zone : Int) (aggregateFails readFails : Bool) (workflows : Workflows)
    (workflowID projectID : String) (year : Int) : Prop :=
  ∃ result, listHeatmapData zone aggregateFails readFails workflows workflowID projectID year = .ok result ∧
    CalendarRight zone year result

theorem not_calendarRight_nil : ¬ CalendarRight zone year [] := by
  intro h
  have hlength := congrArg List.length h.days
  rw [daysOfYear, List.length_map, List.length_range] at hlength
  change 0 = _ at hlength
  rcases yearLength_cases year with hyear | hyear <;> omega

theorem listHeatmapData_of_groupable {workflows : Workflows} {workflowID projectID : String}
    (h : Groupable zone (noOfDays zone year) (runsInYear zone workflows workflowID projectID year)) :
    listHeatmapData zone false false workflows workflowID projectID year =
      .ok (cut (padded zone year
        (groupedDays zone year (runsInYear zone workflows workflowID projectID year))) 53) := by
  rw [listHeatmapData, if_neg (by decide), if_neg (by decide), groupRuns_emptyDays h]
  exact weeks_padded length_groupedDays

theorem groupable_of_listHeatmapData {workflows : Workflows} {workflowID projectID : String}
    {result : List HeatmapDataResponse}
    (h : listHeatmapData zone false false workflows workflowID projectID year = .ok result) :
    Groupable zone (noOfDays zone year) (runsInYear zone workflows workflowID projectID year) := by
  rw [listHeatmapData, if_neg (by decide), if_neg (by decide)] at h
  obtain ⟨cells, hcells, -⟩ := exists_of_bind_eq_ok h
  have hgroupable := groupable_of_groupRuns hcells
  rwa [emptyDays, List.length_map, List.length_range] at hgroupable

theorem listsTheYear_iff {aggregateFails readFails : Bool} {workflows : Workflows} {workflowID projectID : String} :
    ListsTheYear zone aggregateFails readFails workflows workflowID projectID year ↔
      aggregateFails = false ∧ readFails = false ∧
        Groupable zone (noOfDays zone year) (runsInYear zone workflows workflowID projectID year) ∧
        LastRunsOfYear zone year (runsInYear zone workflows workflowID projectID year) ∧
        ¬ (isLeap year = true ∧ weekday (yearStart year) = 6) := by
  cases aggregateFails with
  | true =>
      refine iff_of_false ?_ fun h => Bool.noConfusion h.1
      rintro ⟨result, hresult, -⟩
      cases hresult
  | false =>
      cases readFails with
      | true =>
          refine iff_of_false ?_ fun h => Bool.noConfusion h.2.1
          rintro ⟨result, hresult, hright⟩
          obtain rfl := Except.ok.inj hresult
          exact not_calendarRight_nil hright
      | false =>
          rw [and_iff_right rfl, and_iff_right rfl]
          constructor
          · rintro ⟨result, hresult, hright⟩
            have hgroupable := groupable_of_listHeatmapData hresult
            rw [listHeatmapData_of_groupable hgroupable] at hresult
            obtain rfl := Except.ok.inj hresult
            exact ⟨hgroupable, (calendarRight_iff fun wfRun h => (hgroupable wfRun h).1).mp hright⟩
          · rintro ⟨hgroupable, hright⟩
            exact ⟨_, listHeatmapData_of_groupable hgroupable,
              (calendarRight_iff fun wfRun h => (hgroupable wfRun h).1).mpr hright⟩

end Calendar

def YearsAreListed : Prop :=
  ∀ (zone : Int) (workflows : Workflows) (workflowID projectID : String) (year : Int)
    (result : List HeatmapDataResponse),
    listHeatmapData zone false false workflows workflowID projectID year = .ok result → CalendarRight zone year result

/-- The last day of 2028 is in the 54th week. -/
theorem not_yearsAreListed : ¬ YearsAreListed := by
  intro h
  have hnone : runsInYear 0 .empty "workflow" "project" 2028 = [] := rfl
  have hresult := @listHeatmapData_of_groupable 0 2028 .empty "workflow" "project" (by
    rw [hnone]
    exact fun _ hmem => absurd hmem List.not_mem_nil)
  have hright := h _ _ _ _ _ _ hresult
  rw [hnone, calendarRight_iff fun _ hmem => absurd hmem List.not_mem_nil] at hright
  exact hright.2 (by decide)

end LitmusPortal.Analytics
