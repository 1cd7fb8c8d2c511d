import LitmusPortal.Analytics.RunStats
import LitmusPortal.Lib.Calendar

/-!
# The heat map of a year

`ListHeatmapData` makes a cell for each day of a year, groups the runs of a workflow by their number of the
day in the year, and cuts the padded cells into 53 weeks. The local time has a fixed offset from UTC.
-/

namespace LitmusPortal.Analytics

open LitmusPortal Calendar

/-! ### Local time -/

def localDays (zone : Int) : Periods := (Periods.every 86400 (by decide)).ahead zone

/-- `time.Date(...).Unix()` -/
def timeDate (zone year month day hour minute second : Int) : Int :=
  (localDays zone).start (monthStart (12 * year + (month - 1)) + (day - 1)) + 3600 * hour + 60 * minute + second

/-- `AddDate(0, 0, days)`, which keeps the time of the day. -/
def addDays (unix days : Int) : Int := unix + 86400 * days

def weekdayOf (zone unix : Int) : ℕ := (weekday ((localDays zone).index unix)).toNat

/-- `YearDay()-1` -/
def yearDayOf (zone unix : Int) : ℕ := (yearDay ((localDays zone).index unix)).toNat

/-! ### The cells -/

structure WorkflowRunDetails where
  noOfRuns : ℕ
  dateStamp : Int
  deriving DecidableEq

structure WorkflowRunsData where
  value : Option ℚ
  workflowRunDetail : Option WorkflowRunDetails
  deriving DecidableEq

structure HeatmapDataResponse where
  bins : List WorkflowRunsData
  deriving DecidableEq

def startTimeStamp (zone year : Int) : Int := timeDate zone year 1 1 0 0 0

def endTimeStamp (zone year : Int) : Int := timeDate zone year 12 31 23 59 59

def noOfDays (zone year : Int) : ℕ := if yearDayOf zone (endTimeStamp zone year) + 1 = 366 then 366 else 365

def emptyDay (dateStamp : Int) : WorkflowRunsData := ⟨none, some ⟨0, dateStamp⟩⟩

def emptyDays (zone year : Int) : List WorkflowRunsData :=
  (List.range (noOfDays zone year)).map fun i : ℕ => emptyDay (addDays (startTimeStamp zone year) i)

/-- The timestamps are compared as strings. -/
def inWindow (zone year : Int) (wfRun : ChaosWorkflowRun) : Bool :=
  wfRun.lastUpdated ≤ toString (endTimeStamp zone year) ∧ toString (startTimeStamp zone year) ≤ wfRun.lastUpdated

/-- `copier.Copy` of a slice into a slice, which overwrites from the first element on. -/
def copySlice {α : Type} (dest source : List α) : List α := source ++ dest.drop source.length

def runsInYear (zone : Int) (workflows : Workflows) (workflowID projectID : String) (year : Int) :
    List ChaosWorkflowRun :=
  let matching := workflows.find fun workflow => workflow.projectID = projectID ∧ workflow.workflowID = workflowID
  (matching.map fun workflow => workflow.workflowRuns.filter fun wfRun =>
    kept wfRun ∧ wfRun.phase ≠ "Terminated" ∧ inWindow zone year wfRun).foldl copySlice []

def indexOutOfRange : GoError := .panic "runtime error: index out of range"

def nilPointer : GoError := .panic "runtime error: invalid memory address or nil pointer dereference"

/-- A run is one more in the cell of its day. -/
def addRun (cell : WorkflowRunsData) (score : ℚ) (unix : Int) : WorkflowRunsData :=
  match cell.workflowRunDetail with
  | none => cell
  | some detail =>
      let avgRSTemp := cell.value.getD 0 * detail.noOfRuns
      ⟨some ((avgRSTemp + score) / (detail.noOfRuns + 1 : ℕ)), some ⟨detail.noOfRuns + 1, unix⟩⟩

/-- The body of the loop; an error of `ParseInt` is printed. -/
def groupRun (zone : Int) (cells : List WorkflowRunsData) (workflowRun : ChaosWorkflowRun) :
    Except GoError (List WorkflowRunsData) :=
  let unix := atoiValue workflowRun.lastUpdated
  if cells.length ≤ yearDayOf zone unix then .error indexOutOfRange
  else
    match workflowRun.resiliencyScore with
    | none => .error nilPointer
    | some score => .ok (cells.modify (yearDayOf zone unix) fun cell => addRun cell score unix)

def padding : WorkflowRunsData := ⟨some (-1), none⟩

def padded (zone year : Int) (cells : List WorkflowRunsData) : List WorkflowRunsData :=
  List.replicate (weekdayOf zone (startTimeStamp zone year)) padding ++ cells ++
    List.replicate (6 - weekdayOf zone (endTimeStamp zone year)) padding

/-- The inner loop: the cells from `day` on. -/
def week (cells : List WorkflowRunsData) (day : ℕ) : ℕ → Except GoError (List WorkflowRunsData)
  | 0 => .ok []
  | j + 1 =>
      match cells[day]? with
      | none => .error indexOutOfRange
      | some cell => do
          let x ← week cells (day + 1) j
          return cell :: x

/-- The outer loop, which counts the days on. -/
def weeks (cells : List WorkflowRunsData) (day : ℕ) : ℕ → Except GoError (List HeatmapDataResponse)
  | 0 => .ok []
  | i + 1 => do
      let x ← week cells day 7
      let result ← weeks cells (day + 7) i
      return ⟨x⟩ :: result

/-- The error of the aggregation is overwritten, and its cursor is nil. -/
def listHeatmapData (zone : Int) (aggregateFails readFails : Bool) (workflows : Workflows)
    (workflowID projectID : String) (year : Int) : Except GoError (List HeatmapDataResponse) :=
  if aggregateFails then .error nilPointer
  else if readFails then .ok []
  else do
    let cells ← (runsInYear zone workflows workflowID projectID year).foldlM (groupRun zone) (emptyDays zone year)
    weeks (padded zone year cells) 0 53

section Dates

variable (zone year : Int)

theorem startTimeStamp_eq : startTimeStamp zone year = (localDays zone).start (yearStart year) := by
  have hmonth : 12 * year + (1 - 1) = 12 * year := by omega
  have hday : yearStart year + (1 - 1) = yearStart year := by omega
  rw [startTimeStamp, timeDate, hmonth, monthStart_twelve_mul, hday]
  omega

theorem start_add (day count : Int) :
    (localDays zone).start (day + count) = addDays ((localDays zone).start day) count := by
  unfold localDays Periods.ahead Periods.every addDays
  dsimp only
  omega

theorem endTimeStamp_eq : endTimeStamp zone year = (localDays zone).start (yearStart (year + 1)) - 1 := by
  have hmonth : 12 * year + (12 - 1) = 12 * year + 11 := by omega
  rw [← monthStart_december, start_add, endTimeStamp, timeDate, start_add, hmonth]
  unfold addDays
  omega

theorem index_startTimeStamp : (localDays zone).index (startTimeStamp zone year) = yearStart year := by
  rw [startTimeStamp_eq, Periods.index_start]

theorem index_endTimeStamp : (localDays zone).index (endTimeStamp zone year) = yearStart (year + 1) - 1 := by
  rw [(localDays zone).index_eq_iff, endTimeStamp_eq, sub_add_cancel]
  have h := (localDays zone).start_lt (yearStart (year + 1) - 1)
  rw [sub_add_cancel] at h
  omega

theorem yearOf_endTimeStamp : yearOf ((localDays zone).index (endTimeStamp zone year)) = year := by
  apply years.index_eq_iff.mpr
  have h := years.start_lt year
  change yearStart year ≤ _ ∧ _ < yearStart (year + 1)
  change yearStart year < yearStart (year + 1) at h
  rw [index_endTimeStamp]
  omega

theorem noOfDays_eq : (noOfDays zone year : Int) = yearLength year := by
  have hday : (yearDayOf zone (endTimeStamp zone year) : Int) + 1 = yearLength year := by
    have hnonneg := yearDay_nonneg ((localDays zone).index (endTimeStamp zone year))
    have hsucc := yearStart_succ year
    unfold yearDayOf
    rw [Int.toNat_of_nonneg hnonneg, yearDay, yearOf_endTimeStamp, index_endTimeStamp]
    omega
  unfold noOfDays
  rcases yearLength_cases year with h | h
  · rw [if_neg (by omega)]
    omega
  · rw [if_pos (by omega)]
    omega

end Dates

/-! ### What the loops do -/

def stampOf (wfRun : ChaosWorkflowRun) : Int := atoiValue wfRun.lastUpdated

def dayNumber (zone : Int) (wfRun : ChaosWorkflowRun) : ℕ := yearDayOf zone (stampOf wfRun)

def ofDay (zone : Int) (i : ℕ) (runs : List ChaosWorkflowRun) : List ChaosWorkflowRun :=
  runs.filter fun wfRun => dayNumber zone wfRun = i

def addRuns (cell : WorkflowRunsData) (runs : List ChaosWorkflowRun) : WorkflowRunsData :=
  runs.foldl (fun cell wfRun => addRun cell (wfRun.resiliencyScore.getD 0) (stampOf wfRun)) cell

/-- No run leads to a panic. -/
def Groupable (zone : Int) (days : ℕ) (runs : List ChaosWorkflowRun) : Prop :=
  ∀ wfRun ∈ runs, dayNumber zone wfRun < days ∧ wfRun.resiliencyScore ≠ none

section Loops

variable {zone : Int} {cells : List WorkflowRunsData}

theorem groupRun_of_groupable {wfRun : ChaosWorkflowRun} (hday : dayNumber zone wfRun < cells.length)
    (hscore : wfRun.resiliencyScore ≠ none) :
    groupRun zone cells wfRun = .ok (cells.modify (dayNumber zone wfRun) fun cell =>
      addRun cell (wfRun.resiliencyScore.getD 0) (stampOf wfRun)) := by
  obtain ⟨score, hscore⟩ := Option.ne_none_iff_exists'.mp hscore
  unfold groupRun
  dsimp only
  rw [show yearDayOf zone (atoiValue wfRun.lastUpdated) = dayNumber zone wfRun from rfl,
    if_neg (Nat.not_le.mpr hday), hscore]
  rfl

theorem groupable_of_groupRun {wfRun : ChaosWorkflowRun} {after : List WorkflowRunsData}
    (h : groupRun zone cells wfRun = .ok after) :
    dayNumber zone wfRun < cells.length ∧ wfRun.resiliencyScore ≠ none := by
  unfold groupRun at h
  dsimp only at h
  by_cases hday : cells.length ≤ yearDayOf zone (atoiValue wfRun.lastUpdated)
  · rw [if_pos hday] at h
    cases h
  · rw [if_neg hday] at h
    refine ⟨Nat.not_le.mp hday, fun hscore => ?_⟩
    rw [hscore] at h
    cases h

theorem groupRuns_of_groupable {runs : List ChaosWorkflowRun} (h : Groupable zone cells.length runs) :
    runs.foldlM (groupRun zone) cells = .ok (cells.mapIdx fun i cell => addRuns cell (ofDay zone i runs)) := by
  induction runs generalizing cells with
  | nil =>
      refine congrArg Except.ok (List.ext_getElem? fun i => ?_)
      simp [List.getElem?_mapIdx, ofDay, addRuns]
  | cons wfRun runs ih =>
      obtain ⟨⟨hday, hscore⟩, hrest⟩ := List.forall_mem_cons.mp h
      rw [List.foldlM_cons, groupRun_of_groupable hday hscore]
      refine (ih (by rwa [List.length_modify])).trans (congrArg Except.ok ?_)
      apply List.ext_getElem?
      intro i
      rw [List.getElem?_mapIdx, List.getElem?_mapIdx, List.getElem?_modify]
      cases cells[i]? with
      | none => rfl
      | some cell =>
          by_cases hi : dayNumber zone wfRun = i
          · simp [ofDay, addRuns, hi]
          · simp [ofDay, addRuns, hi]

theorem groupable_of_groupRuns {runs : List ChaosWorkflowRun} {after : List WorkflowRunsData}
    (h : runs.foldlM (groupRun zone) cells = .ok after) : Groupable zone cells.length runs := by
  induction runs generalizing cells with
  | nil => exact fun _ hmem => absurd hmem List.not_mem_nil
  | cons wfRun runs ih =>
      rw [List.foldlM_cons] at h
      obtain ⟨next, hnext, hrest⟩ := exists_of_bind_eq_ok h
      obtain ⟨hday, hscore⟩ := groupable_of_groupRun hnext
      rw [groupRun_of_groupable hday hscore] at hnext
      obtain rfl := Except.ok.inj hnext
      have hrest := ih hrest
      rw [List.length_modify] at hrest
      exact List.forall_mem_cons.mpr ⟨⟨hday, hscore⟩, hrest⟩

theorem week_eq {day n : ℕ} (h : day + n ≤ cells.length) : week cells day n = .ok ((cells.drop day).take n) := by
  induction n generalizing day with
  | zero => rfl
  | succ n ih =>
      have hday : day < cells.length := by omega
      rw [week, List.getElem?_eq_getElem hday, List.drop_eq_getElem_cons hday, List.take_succ_cons]
      dsimp only
      rw [ih (by omega)]
      rfl

def cut (cells : List WorkflowRunsData) (n : ℕ) : List HeatmapDataResponse :=
  (List.range n).map fun i => ⟨(cells.drop (7 * i)).take 7⟩

theorem weeks_eq {day n : ℕ} (h : day + 7 * n ≤ cells.length) : weeks cells day n = .ok (cut (cells.drop day) n) := by
  induction n generalizing day with
  | zero => rfl
  | succ n ih =>
      have hnext : day + 7 + 7 * n ≤ cells.length := by omega
      rw [weeks, week_eq (by omega), ih hnext, cut, cut, List.range_succ_eq_map, List.map_cons, List.map_map]
      refine congrArg (fun rest => Except.ok (HeatmapDataResponse.mk ((cells.drop day).take 7) :: rest)) ?_
      apply List.map_congr_left
      intro i _
      rw [List.drop_drop, Function.comp_apply, List.drop_drop]
      congr 3
      omega

theorem flatMap_cut (n : ℕ) : (cut cells n).flatMap HeatmapDataResponse.bins = cells.take (7 * n) := by
  induction n with
  | zero => rfl
  | succ n ih =>
      have hsplit : cut cells (n + 1) = cut cells n ++ [⟨(cells.drop (7 * n)).take 7⟩] := by
        rw [cut, List.range_succ, List.map_append]
        rfl
      rw [hsplit, List.flatMap_append, ih, Nat.mul_succ, List.take_add]
      simp

end Loops

end LitmusPortal.Analytics
