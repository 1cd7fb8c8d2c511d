import LitmusPortal.Analytics.StatsPeriods

/-!
# The months of the statistics

The loop over the months starts five months ago and the query six months ago. A day that a month does not have
becomes a day of the next month, so the loop may skip months, and the query may start a month later.
-/

namespace LitmusPortal.Analytics

open LitmusPortal Calendar RangeLoop

def bucketTimes (zone now : Int) (filter : TimeFrequency) : List Int :=
  timesUpTo (fun unix => nextBucket zone unix filter) now (firstBucket zone now filter)

section Months

variable {zone now : Int}

theorem addMonths_one (day : Int) : addMonths day 1 = day + monthLength (monthOf day) := by
  rw [addMonths, monthStart_succ, monthDay]
  omega

theorem lt_nextBucket (filter : TimeFrequency) (unix : Int) : unix < nextBucket zone unix filter := by
  cases filter with
  | monthly =>
      have hlength := monthLength_pos (monthOf ((localDays zone).index unix))
      change unix < addMonthsAt zone unix 1
      rw [addMonthsAt, addMonths_one, start_add, addDays]
      omega
  | daily =>
      change unix < addDays unix 1
      unfold addDays
      omega
  | hourly => exact lt_add_of_pos_right unix (by decide)

/-- The local date and time of now in another month. -/
def inMonth (zone now month : Int) : Int :=
  (localDays zone).start (monthStart month + monthDay ((localDays zone).index now)) +
    (now - (localDays zone).start ((localDays zone).index now))

theorem addMonthsAt_eq (count : Int) :
    addMonthsAt zone now count = inMonth zone now (monthOf ((localDays zone).index now) + count) := rfl

theorem inMonth_self : inMonth zone now (monthOf ((localDays zone).index now)) = now := by
  have hday : monthStart (monthOf ((localDays zone).index now)) + monthDay ((localDays zone).index now) =
      (localDays zone).index now := by
    rw [monthDay]
    omega
  rw [inMonth, hday]
  omega

theorem index_inMonth (month : Int) :
    (localDays zone).index (inMonth zone now month) =
      monthStart month + monthDay ((localDays zone).index now) := by
  rw [(localDays zone).index_eq_iff, inMonth, start_add _ _ 1]
  have hlower := (localDays zone).start_index_le now
  have hupper := (localDays zone).lt_start_index now
  rw [start_add] at hupper
  unfold addDays at *
  omega

theorem inMonth_lt_inMonth {month month' : Int} (h : month < month') :
    inMonth zone now month < inMonth zone now month' := by
  have hstart := months.start_lt_start h
  change monthStart month < monthStart month' at hstart
  have hlt := (localDays zone).start_lt_start (Int.add_lt_add_right hstart (monthDay ((localDays zone).index now)))
  unfold inMonth
  omega

theorem monthDay_lt (day : Int) : monthDay day < monthLength (monthOf day) := by
  have h := lt_monthStart_monthOf day
  rw [monthStart_succ] at h
  unfold monthDay
  omega

theorem monthOf_inMonth {month : Int} (h : monthDay ((localDays zone).index now) < monthLength month) :
    monthOf ((localDays zone).index (inMonth zone now month)) = month := by
  have hnonneg := monthDay_nonneg ((localDays zone).index now)
  apply months.index_eq_iff.mpr
  change monthStart month ≤ _ ∧ _ < monthStart (month + 1)
  rw [index_inMonth, monthStart_succ]
  omega

theorem monthOf_inMonth_of_le {month : Int} (h : monthLength month ≤ monthDay ((localDays zone).index now)) :
    monthOf ((localDays zone).index (inMonth zone now month)) = month + 1 := by
  have hlt := monthDay_lt ((localDays zone).index now)
  have hlong := monthLength_le (monthOf ((localDays zone).index now))
  have hshort := monthLength_pos month
  have hnext := monthLength_pos (month + 1)
  apply months.index_eq_iff.mpr
  change monthStart (month + 1) ≤ _ ∧ _ < monthStart (month + 1 + 1)
  rw [index_inMonth, monthStart_succ (month + 1), monthStart_succ]
  omega

theorem nextBucket_inMonth {month : Int} (h : monthDay ((localDays zone).index now) < monthLength month) :
    nextBucket zone (inMonth zone now month) .monthly = inMonth zone now (month + 1) := by
  change addMonthsAt zone (inMonth zone now month) 1 = _
  rw [addMonthsAt, addMonths_one, monthOf_inMonth h, index_inMonth, inMonth, inMonth, monthStart_succ]
  have hday : monthStart month + monthLength month + monthDay ((localDays zone).index now) =
      monthStart month + monthDay ((localDays zone).index now) + monthLength month := by omega
  rw [hday]
  omega

end Months

/-! ### The months the loop finds -/

def monthsOf (zone : Int) : Periods := periodsOf zone .monthly

/-- The times of the loop over the months, from a month on. -/
def timesFrom (zone now month : Int) : List Int :=
  timesUpTo (fun unix => nextBucket zone unix .monthly) now (inMonth zone now month)

/-- From a month on the loop finds every month up to now. -/
def Covers (zone now month : Int) : Prop :=
  ∀ i, month ≤ i → i ≤ (monthsOf zone).index now → ∃ unix ∈ timesFrom zone now month, (monthsOf zone).index unix = i

section Covers

variable {zone now month : Int}

theorem timesFrom_of_lt (hmonth : month < (monthsOf zone).index now)
    (hday : monthDay ((localDays zone).index now) < monthLength month) :
    timesFrom zone now month = inMonth zone now month :: timesFrom zone now (month + 1) := by
  have hlt := @inMonth_lt_inMonth zone now _ _ hmonth
  have hself : inMonth zone now ((monthsOf zone).index now) = now := inMonth_self
  have hle : inMonth zone now month ≤ now := by omega
  rw [timesFrom, timesUpTo_of_le (lt_nextBucket .monthly) hle, nextBucket_inMonth hday]
  rfl

theorem timesFrom_now : timesFrom zone now ((monthsOf zone).index now) = [now] := by
  have hself : inMonth zone now ((monthsOf zone).index now) = now := inMonth_self
  rw [timesFrom, hself, timesUpTo_of_le (lt_nextBucket .monthly) (le_refl now),
    timesUpTo_of_lt (lt_nextBucket .monthly now)]

theorem Covers.succ (h : Covers zone now month) (hmonth : month < (monthsOf zone).index now) :
    monthDay ((localDays zone).index now) < monthLength month ∧ Covers zone now (month + 1) := by
  have hday : monthDay ((localDays zone).index now) < monthLength month := by
    by_contra hle
    obtain ⟨unix, hunix, hindex⟩ := h month (le_refl month) hmonth.le
    have hmono := (monthsOf zone).index_le_index (le_of_mem_timesUpTo (lt_nextBucket .monthly) hunix)
    have hskipped : (monthsOf zone).index (inMonth zone now month) = month + 1 :=
      monthOf_inMonth_of_le (Int.not_lt.mp hle)
    omega
  refine ⟨hday, fun i hlower hupper => ?_⟩
  obtain ⟨unix, hunix, hindex⟩ := h i (by omega) hupper
  rw [timesFrom_of_lt hmonth hday] at hunix
  rcases List.mem_cons.mp hunix with rfl | hrest
  · have hfirst : (monthsOf zone).index (inMonth zone now month) = month := monthOf_inMonth hday
    omega
  · exact ⟨unix, hrest, hindex⟩

/-- The day of now is too late for the month six months ago, and in the months since then. -/
structure DayFits (zone now : Int) : Prop where
  late : monthLength ((monthsOf zone).index now - 6) ≤ monthDay ((localDays zone).index now)
  early : ∀ month, (monthsOf zone).index now - 5 ≤ month → month < (monthsOf zone).index now →
    monthDay ((localDays zone).index now) < monthLength month

theorem Covers.early {n : ℕ} (h : Covers zone now ((monthsOf zone).index now - n)) :
    ∀ month, (monthsOf zone).index now - n ≤ month → month < (monthsOf zone).index now →
      monthDay ((localDays zone).index now) < monthLength month := by
  induction n with
  | zero =>
      intro month hlower hupper
      omega
  | succ n ih =>
      intro month hlower hupper
      obtain ⟨hday, hrest⟩ := h.succ (by omega)
      have hnext : (monthsOf zone).index now - (n + 1 : ℕ) + 1 = (monthsOf zone).index now - n := by omega
      rw [hnext] at hrest
      rcases Int.le_iff_lt_or_eq.mp hlower with hlt | rfl
      · exact ih hrest month (by omega) hupper
      · exact hday

theorem firstBucket_monthly : firstBucket zone now .monthly = inMonth zone now ((monthsOf zone).index now - 5) := rfl

theorem windowStart_monthly : windowStart zone now .monthly = inMonth zone now ((monthsOf zone).index now - 6) := rfl

theorem dayFits_of_covers
    (h : ∀ i ∈ windowPeriods zone now .monthly,
      ∃ unix ∈ bucketTimes zone now .monthly, (monthsOf zone).index unix = i) :
    DayFits zone now := by
  have hlate : monthLength ((monthsOf zone).index now - 6) ≤ monthDay ((localDays zone).index now) := by
    by_contra hlt
    have hindex : (monthsOf zone).index (windowStart zone now .monthly) = (monthsOf zone).index now - 6 :=
      monthOf_inMonth (Int.not_le.mp hlt)
    obtain ⟨unix, hunix, hfound⟩ := h ((monthsOf zone).index now - 6)
      (mem_windowPeriods_iff.mpr ⟨hindex.le, by change _ ≤ (monthsOf zone).index now; omega⟩)
    have hle := le_of_mem_timesUpTo (lt_nextBucket .monthly) hunix
    have hmono := (monthsOf zone).index_le_index hle
    have hfirst : (monthsOf zone).index now - 5 ≤ (monthsOf zone).index (firstBucket zone now .monthly) := by
      rw [firstBucket_monthly]
      by_cases hday : monthDay ((localDays zone).index now) < monthLength ((monthsOf zone).index now - 5)
      · exact (show (monthsOf zone).index _ = _ from monthOf_inMonth hday).ge
      · have hnext : (monthsOf zone).index (inMonth zone now ((monthsOf zone).index now - 5)) =
            (monthsOf zone).index now - 5 + 1 := monthOf_inMonth_of_le (Int.not_lt.mp hday)
        omega
    omega
  have hstart : (monthsOf zone).index (windowStart zone now .monthly) = (monthsOf zone).index now - 6 + 1 :=
    monthOf_inMonth_of_le hlate
  have hcovers : Covers zone now ((monthsOf zone).index now - (5 : ℕ)) := by
    intro i hlower hupper
    exact h i (mem_windowPeriods_iff.mpr ⟨by change (monthsOf zone).index _ ≤ _; omega, hupper⟩)
  exact ⟨hlate, hcovers.early⟩

/-- Then the loop finds them once each and in order. -/
theorem map_timesFrom {n : ℕ} (hearly : ∀ month, (monthsOf zone).index now - n ≤ month →
    month < (monthsOf zone).index now → monthDay ((localDays zone).index now) < monthLength month) :
    (timesFrom zone now ((monthsOf zone).index now - n)).map (monthsOf zone).index =
      (List.range (n + 1)).map fun i : ℕ => (monthsOf zone).index now - n + i := by
  induction n with
  | zero =>
      simp only [Int.natCast_zero, Int.sub_zero, timesFrom_now]
      simp
  | succ n ih =>
      have hrest := ih fun month hlower hupper => hearly month (by omega) hupper
      have hday := hearly ((monthsOf zone).index now - (n + 1 : ℕ)) (le_refl _) (by omega)
      have hnext : (monthsOf zone).index now - (n + 1 : ℕ) + 1 = (monthsOf zone).index now - n := by omega
      have hfirst : (monthsOf zone).index (inMonth zone now ((monthsOf zone).index now - (n + 1 : ℕ))) =
          (monthsOf zone).index now - (n + 1 : ℕ) := monthOf_inMonth hday
      have hrange : List.range (n + 1 + 1) = 0 :: (List.range (n + 1)).map Nat.succ := List.range_succ_eq_map
      rw [timesFrom_of_lt (by omega) hday, hnext, List.map_cons, hrest, hfirst, hrange, List.map_cons, List.map_map]
      congr 1
      · omega
      · apply List.map_congr_left
        intro i _
        rw [Function.comp_apply]
        omega

/-- The one date in a year on which the day fits, or one of two. -/
def MonthFits (zone now : Int) : Prop :=
  monthAt zone now = 8 ∧ (dayAt zone now = 30 ∨ dayAt zone now = 29 ∧ isLeap (yearAt zone now) = false)

theorem MonthFits.dayFits (h : MonthFits zone now) : DayFits zone now := by
  obtain ⟨hmonth, hday⟩ := h
  have hyear : ((monthsOf zone).index now - 6) / 12 = yearAt zone now ∧
      monthOfYear ((monthsOf zone).index now - 6) = 1 := by
    have hspec := (monthOf_spec ((localDays zone).index now)).1
    change monthOfYear ((monthsOf zone).index now) + 1 = 8 at hmonth
    change (monthsOf zone).index now / 12 = yearAt zone now at hspec
    unfold monthOfYear at *
    omega
  constructor
  · rw [monthLength_of_february hyear.2, hyear.1]
    unfold dayAt at hday
    split_ifs with hleap
    · rw [hleap] at hday
      simp only [Bool.true_eq_false, and_false, or_false] at hday
      omega
    · omega
  · intro month hlower hupper
    have hlength : 30 ≤ monthLength month := by
      have hother : monthOfYear month ≠ 1 := by
        have hfebruary := hyear.2
        unfold monthOfYear at *
        omega
      unfold monthLength
      rw [if_neg hother]
      split_ifs <;> decide
    unfold dayAt at hday
    omega

theorem DayFits.monthFits (h : DayFits zone now) : MonthFits zone now := by
  obtain ⟨hlate, hearly⟩ := h
  have hspec := (monthOf_spec ((localDays zone).index now)).1
  change (monthsOf zone).index now / 12 = yearAt zone now at hspec
  -- a month of thirty days, and each has another one of at most as many within the next four
  have hnotShort : ¬ (monthOfYear ((monthsOf zone).index now - 6) = 3 ∨
      monthOfYear ((monthsOf zone).index now - 6) = 5 ∨ monthOfYear ((monthsOf zone).index now - 6) = 8 ∨
      monthOfYear ((monthsOf zone).index now - 6) = 10) := by
    intro hshort
    rw [monthLength_of_short hshort] at hlate
    have hfour := hearly ((monthsOf zone).index now - 4) (by omega) (by omega)
    have hthree := hearly ((monthsOf zone).index now - 3) (by omega) (by omega)
    have hlong : ∀ month, 30 < monthLength month → ¬ (monthOfYear month = 1 ∨ monthOfYear month = 3 ∨
        monthOfYear month = 5 ∨ monthOfYear month = 8 ∨ monthOfYear month = 10) := by
      intro month hlength hmonth
      rcases hmonth with hmonth | hmonth
      · rw [monthLength_of_february hmonth] at hlength
        split_ifs at hlength <;> omega
      · rw [monthLength_of_short hmonth] at hlength
        omega
    have hfour := hlong _ (by omega : 30 < monthLength ((monthsOf zone).index now - 4))
    have hthree := hlong _ (by omega : 30 < monthLength ((monthsOf zone).index now - 3))
    unfold monthOfYear at *
    omega
  have hfebruary : monthOfYear ((monthsOf zone).index now - 6) = 1 := by
    by_contra hother
    rw [monthLength_of_long hother hnotShort] at hlate
    have hlt := monthDay_lt ((localDays zone).index now)
    have hle := monthLength_le (monthOf ((localDays zone).index now))
    omega
  have hyear : ((monthsOf zone).index now - 6) / 12 = yearAt zone now ∧
      monthOfYear ((monthsOf zone).index now) = 7 ∧ monthOfYear ((monthsOf zone).index now - 4) = 3 := by
    unfold monthOfYear at *
    omega
  have hapril := hearly ((monthsOf zone).index now - 4) (by omega) (by omega)
  rw [monthLength_of_short (.inl hyear.2.2)] at hapril
  rw [monthLength_of_february hfebruary, hyear.1] at hlate
  refine ⟨?_, ?_⟩
  · change monthOfYear ((monthsOf zone).index now) + 1 = 8
    omega
  · unfold dayAt
    cases hleap : isLeap (yearAt zone now) with
    | true =>
        rw [hleap, if_pos rfl] at hlate
        omega
    | false =>
        rw [hleap, if_neg (by decide)] at hlate
        have hday : monthDay ((localDays zone).index now) + 1 = 30 ∨
            monthDay ((localDays zone).index now) + 1 = 29 := by
          omega
        exact hday.imp_right fun h => ⟨h, rfl⟩

end Covers

end LitmusPortal.Analytics
