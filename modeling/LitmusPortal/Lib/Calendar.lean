import Mathlib.Order.Monotone.Basic
import Mathlib.Order.SuccPred.Basic
import Mathlib.Algebra.Order.Group.Int
import Mathlib.Data.Int.SuccPred
import Mathlib.Data.List.Range

/-!
# The calendar

Days are counted from 1 January 1970, seconds from the midnight before it, and the calendar is the proleptic
Gregorian one. Years, months, days and hours are periods: consecutive intervals of the integers, numbered
in order.
-/

namespace Calendar

/-! ### Periods -/

/-- The integers are cut into consecutive intervals. -/
structure Periods where
  start : Int → Int
  index : Int → Int
  start_lt (i : Int) : start i < start (i + 1)
  start_index_le (t : Int) : start (index t) ≤ t
  lt_start_index (t : Int) : t < start (index t + 1)

namespace Periods

variable (periods : Periods)

theorem start_lt_start {i j : Int} (h : i < j) : periods.start i < periods.start j :=
  strictMono_int_of_lt_succ periods.start_lt h

theorem start_lt_start_iff {i j : Int} : periods.start i < periods.start j ↔ i < j :=
  (strictMono_int_of_lt_succ periods.start_lt).lt_iff_lt

theorem start_le_start_iff {i j : Int} : periods.start i ≤ periods.start j ↔ i ≤ j :=
  (strictMono_int_of_lt_succ periods.start_lt).le_iff_le

theorem start_inj {i j : Int} : periods.start i = periods.start j ↔ i = j :=
  (strictMono_int_of_lt_succ periods.start_lt).injective.eq_iff

theorem le_index_iff {i t : Int} : i ≤ periods.index t ↔ periods.start i ≤ t := by
  constructor
  · intro h
    exact (periods.start_le_start_iff.mpr h).trans (periods.start_index_le t)
  · intro h
    have hlt := periods.start_lt_start_iff.mp (h.trans_lt (periods.lt_start_index t))
    omega

theorem index_lt_iff {i t : Int} : periods.index t < i ↔ t < periods.start i := by
  rw [← not_le, periods.le_index_iff, not_le]

theorem index_eq_iff {i t : Int} : periods.index t = i ↔ periods.start i ≤ t ∧ t < periods.start (i + 1) := by
  rw [← periods.le_index_iff, ← periods.index_lt_iff]
  omega

@[simp] theorem index_start (i : Int) : periods.index (periods.start i) = i :=
  periods.index_eq_iff.mpr ⟨le_refl _, periods.start_lt i⟩

theorem index_le_index {s t : Int} (h : s ≤ t) : periods.index s ≤ periods.index t :=
  periods.le_index_iff.mpr ((periods.start_index_le s).trans h)

/-- The periods of the periods. -/
def comp (outer inner : Periods) : Periods where
  start i := inner.start (outer.start i)
  index t := outer.index (inner.index t)
  start_lt i := inner.start_lt_start (outer.start_lt i)
  start_index_le _ := inner.le_index_iff.mp (outer.start_index_le _)
  lt_start_index _ := inner.index_lt_iff.mp (outer.lt_start_index _)

/-- The periods of a clock that is ahead by an offset. -/
def ahead (offset : Int) : Periods where
  start i := periods.start i - offset
  index t := periods.index (t + offset)
  start_lt i := sub_lt_sub_right (periods.start_lt i) offset
  start_index_le _ := sub_le_iff_le_add.mpr (periods.start_index_le _)
  lt_start_index _ := lt_sub_iff_add_lt.mpr (periods.lt_start_index _)

def every (length : Int) (hlength : 0 < length) : Periods where
  start i := length * i
  index t := t / length
  start_lt i := mul_lt_mul_of_pos_left (Int.lt_succ i) hlength
  start_index_le t := Int.mul_ediv_self_le hlength.ne'
  lt_start_index t := by
    rw [mul_comm]
    exact Int.lt_ediv_add_one_mul_self t hlength

end Periods

/-! ### Years -/

def isLeap (year : Int) : Bool := year % 4 = 0 ∧ (year % 100 ≠ 0 ∨ year % 400 = 0)

def yearLength (year : Int) : Int := if isLeap year then 366 else 365

/-- The leap years before a year, from year 1 on. -/
def leapsBefore (year : Int) : Int := (year - 1) / 4 - (year - 1) / 100 + (year - 1) / 400

def yearStart (year : Int) : Int := 365 * (year - 1970) + leapsBefore year - 477

theorem yearStart_succ (year : Int) : yearStart (year + 1) = yearStart year + yearLength year := by
  unfold yearStart leapsBefore yearLength isLeap
  split_ifs with hleap
  · have hleap := of_decide_eq_true hleap
    omega
  · have hleap := of_decide_eq_false (Bool.not_eq_true _ ▸ hleap)
    omega

theorem yearLength_cases (year : Int) : yearLength year = 365 ∨ yearLength year = 366 := by
  unfold yearLength
  split_ifs
  · exact .inr rfl
  · exact .inl rfl

/-- The average year has 146097 / 400 days, so the quotient is a year off at most. -/
def yearNear (day : Int) : Int := 1970 + 400 * day / 146097

def yearOf (day : Int) : Int :=
  if day < yearStart (yearNear day) then yearNear day - 1
  else if yearStart (yearNear day + 1) ≤ day then yearNear day + 1
  else yearNear day

theorem yearStart_yearOf_le (day : Int) : yearStart (yearOf day) ≤ day := by
  unfold yearOf
  split_ifs with hbefore hafter
  · unfold yearStart leapsBefore yearNear
    omega
  · exact hafter
  · exact not_lt.mp hbefore

theorem lt_yearStart_yearOf (day : Int) : day < yearStart (yearOf day + 1) := by
  unfold yearOf
  split_ifs with hbefore hafter
  · rwa [sub_add_cancel]
  · unfold yearStart leapsBefore yearNear
    omega
  · exact not_le.mp hafter

def years : Periods where
  start := yearStart
  index := yearOf
  start_lt year := by
    rw [yearStart_succ]
    rcases yearLength_cases year with h | h <;> omega
  start_index_le := yearStart_yearOf_le
  lt_start_index := lt_yearStart_yearOf

theorem yearOf_add {year i : Int} (hlower : 0 ≤ i) (hupper : i < yearLength year) :
    yearOf (yearStart year + i) = year := by
  apply years.index_eq_iff.mpr
  change yearStart year ≤ _ ∧ _ < yearStart (year + 1)
  rw [yearStart_succ]
  omega

/-- The day of the year, from zero. -/
def yearDay (day : Int) : Int := day - yearStart (yearOf day)

theorem yearDay_nonneg (day : Int) : 0 ≤ yearDay day := sub_nonneg.mpr (yearStart_yearOf_le day)

theorem yearDay_lt (day : Int) : yearDay day < yearLength (yearOf day) := by
  have h := lt_yearStart_yearOf day
  rw [yearStart_succ] at h
  unfold yearDay
  omega

/-- Sunday is zero; 1 January 1970 was a Thursday. -/
def weekday (day : Int) : Int := (day + 4) % 7

/-! ### Months

A month is numbered by twelve times its year, and its place in the year from zero. -/

def monthOfYear (month : Int) : Int := month % 12

/-- The days of its year before a month. -/
def daysBefore (leap : Bool) (month : Int) : Int :=
  (367 * month + 5) / 12 - if month ≤ 1 then 0 else if leap then 1 else 2

def monthStart (month : Int) : Int :=
  yearStart (month / 12) + daysBefore (isLeap (month / 12)) (monthOfYear month)

def monthLength (month : Int) : Int :=
  if monthOfYear month = 1 then if isLeap (month / 12) then 29 else 28
  else if monthOfYear month = 3 ∨ monthOfYear month = 5 ∨ monthOfYear month = 8 ∨ monthOfYear month = 10 then 30
  else 31

theorem monthStart_succ (month : Int) : monthStart (month + 1) = monthStart month + monthLength month := by
  have hsplit : monthOfYear month = 11 ∧ monthOfYear (month + 1) = 0 ∧ (month + 1) / 12 = month / 12 + 1 ∨
      monthOfYear month < 11 ∧ monthOfYear (month + 1) = monthOfYear month + 1 ∧ (month + 1) / 12 = month / 12 := by
    unfold monthOfYear
    omega
  have hlower : 0 ≤ monthOfYear month := Int.emod_nonneg _ (by decide)
  unfold monthStart monthLength
  rcases hsplit with ⟨hmonth, hnext, hyear⟩ | ⟨hmonth, hnext, hyear⟩
  · rw [hmonth, hnext, hyear, yearStart_succ, yearLength]
    cases isLeap (month / 12) <;> cases isLeap (month / 12 + 1) <;> simp [daysBefore] <;> omega
  · rw [hnext, hyear]
    generalize monthOfYear month = m at *
    have hm : m = 0 ∨ m = 1 ∨ m = 2 ∨ m = 3 ∨ m = 4 ∨ m = 5 ∨ m = 6 ∨ m = 7 ∨ m = 8 ∨ m = 9 ∨ m = 10 := by omega
    rcases hm with rfl | rfl | rfl | rfl | rfl | rfl | rfl | rfl | rfl | rfl | rfl <;>
      cases isLeap (month / 12) <;> simp [daysBefore] <;> omega

@[simp] theorem monthStart_twelve_mul (year : Int) : monthStart (12 * year) = yearStart year := by
  have hyear : 12 * year / 12 = year := by omega
  have hmonth : monthOfYear (12 * year) = 0 := by
    unfold monthOfYear
    omega
  rw [monthStart, hyear, hmonth]
  simp [daysBefore]

theorem monthStart_december (year : Int) : monthStart (12 * year + 11) + 31 = yearStart (year + 1) := by
  have hmonth : monthOfYear (12 * year + 11) = 11 := by
    unfold monthOfYear
    omega
  have hlength : monthLength (12 * year + 11) = 31 := by simp [monthLength, hmonth]
  rw [← monthStart_twelve_mul, ← hlength, ← monthStart_succ]
  congr 1
  omega

/-- The month of a day of a year; the days from March on are counted as if February had thirty days. -/
def monthOfYearDay (leap : Bool) (day : Int) : Int :=
  let leapDay := if leap then 1 else 0
  (12 * (day + if day < 59 + leapDay then 0 else 2 - leapDay) + 6) / 367

theorem monthOfYearDay_spec {leap : Bool} {day : Int} (hlower : 0 ≤ day)
    (hupper : day < if leap then 366 else 365) :
    0 ≤ monthOfYearDay leap day ∧ monthOfYearDay leap day < 12 ∧
      daysBefore leap (monthOfYearDay leap day) ≤ day ∧
      (monthOfYearDay leap day < 11 → day < daysBefore leap (monthOfYearDay leap day + 1)) := by
  unfold monthOfYearDay daysBefore
  cases leap
  · simp only [Bool.false_eq_true, if_false] at *
    split_ifs <;> omega
  · simp only [if_true] at *
    split_ifs <;> omega

def monthOf (day : Int) : Int := 12 * yearOf day + monthOfYearDay (isLeap (yearOf day)) (yearDay day)

section MonthOf

variable (day : Int)

theorem monthOf_spec : monthOf day / 12 = yearOf day ∧
    monthOfYear (monthOf day) = monthOfYearDay (isLeap (yearOf day)) (yearDay day) := by
  obtain ⟨hlower, hupper, -⟩ := monthOfYearDay_spec (yearDay_nonneg day) (yearDay_lt day)
  unfold monthOfYear monthOf
  omega

theorem monthStart_monthOf_le : monthStart (monthOf day) ≤ day := by
  obtain ⟨hyear, hmonth⟩ := monthOf_spec day
  obtain ⟨-, -, hstart, -⟩ := monthOfYearDay_spec (yearDay_nonneg day) (yearDay_lt day)
  rw [monthStart, hyear, hmonth]
  unfold yearDay at *
  omega

theorem lt_monthStart_monthOf : day < monthStart (monthOf day + 1) := by
  obtain ⟨hyear, hmonth⟩ := monthOf_spec day
  obtain ⟨hlower, hupper, -, hnext⟩ := monthOfYearDay_spec (yearDay_nonneg day) (yearDay_lt day)
  rw [← hmonth] at hlower hupper hnext
  by_cases hlast : monthOfYear (monthOf day) = 11
  · have hnextYear : (monthOf day + 1) / 12 = yearOf day + 1 ∧ monthOfYear (monthOf day + 1) = 0 := by
      unfold monthOfYear at *
      omega
    rw [monthStart, hnextYear.1, hnextYear.2]
    exact (lt_yearStart_yearOf day).trans_eq (by simp [daysBefore])
  · have hsameYear : (monthOf day + 1) / 12 = yearOf day ∧
        monthOfYear (monthOf day + 1) = monthOfYear (monthOf day) + 1 := by
      unfold monthOfYear at *
      omega
    have hlt := hnext (by omega)
    rw [monthStart, hsameYear.1, hsameYear.2]
    unfold yearDay at *
    omega

end MonthOf

theorem monthLength_of_february {month : Int} (h : monthOfYear month = 1) :
    monthLength month = if isLeap (month / 12) then 29 else 28 := if_pos h

theorem monthLength_of_short {month : Int}
    (h : monthOfYear month = 3 ∨ monthOfYear month = 5 ∨ monthOfYear month = 8 ∨ monthOfYear month = 10) :
    monthLength month = 30 := by
  rw [monthLength, if_neg (by omega), if_pos h]

theorem monthLength_of_long {month : Int} (hfebruary : monthOfYear month ≠ 1)
    (h : ¬ (monthOfYear month = 3 ∨ monthOfYear month = 5 ∨ monthOfYear month = 8 ∨ monthOfYear month = 10)) :
    monthLength month = 31 := by
  rw [monthLength, if_neg hfebruary, if_neg h]

theorem monthLength_pos (month : Int) : 28 ≤ monthLength month := by
  unfold monthLength
  split_ifs <;> decide

theorem monthLength_le (month : Int) : monthLength month ≤ 31 := by
  unfold monthLength
  split_ifs <;> decide

def months : Periods where
  start := monthStart
  index := monthOf
  start_lt month := by
    rw [monthStart_succ]
    have := monthLength_pos month
    omega
  start_index_le := monthStart_monthOf_le
  lt_start_index := lt_monthStart_monthOf

def monthDay (day : Int) : Int := day - monthStart (monthOf day)

/-- The day of the same number some months later, which may lie beyond the end of its month. -/
def addMonths (day count : Int) : Int := monthStart (monthOf day + count) + monthDay day

theorem monthOf_addMonths {day count : Int} (h : monthDay day < monthLength (monthOf day + count)) :
    monthOf (addMonths day count) = monthOf day + count := by
  apply months.index_eq_iff.mpr
  have hlower : 0 ≤ monthDay day := sub_nonneg.mpr (monthStart_monthOf_le day)
  change monthStart _ ≤ addMonths day count ∧ addMonths day count < monthStart _
  rw [monthStart_succ, addMonths]
  omega

/-- A day that its month does not have is one of the next month. -/
theorem monthOf_addMonths_of_le {day count : Int} (h : monthLength (monthOf day + count) ≤ monthDay day) :
    monthOf (addMonths day count) = monthOf day + count + 1 := by
  apply months.index_eq_iff.mpr
  have hupper : monthDay day < monthLength (monthOf day) := by
    have := lt_monthStart_monthOf day
    rw [monthStart_succ] at this
    unfold monthDay
    omega
  have hlong := monthLength_le (monthOf day)
  have hshort := monthLength_pos (monthOf day + count)
  have hnext := monthLength_pos (monthOf day + count + 1)
  change monthStart _ ≤ addMonths day count ∧ addMonths day count < monthStart _
  rw [monthStart_succ (monthOf day + count + 1), monthStart_succ, addMonths]
  omega

end Calendar
