import LitmusPortal.Analytics.StatsMonths
import LitmusPortal.Lib.Buckets

/-!
# The buckets of the statistics

Where the loop finds the periods of the query, and every item is in one of them, the buckets are those of the
periods with the numbers of their items.
-/

namespace LitmusPortal.Analytics

open LitmusPortal Calendar GoStrings RangeLoop Buckets

def bucketOf (zone : Int) (filter : TimeFrequency) (i : Int) (value : ℕ) : WorkflowStatsResponse :=
  ⟨(periodsOf zone filter).start i * 1000, value⟩

def periodOfTime (zone : Int) (filter : TimeFrequency) (time : String) : Option Int :=
  (atoi time).map (periodsOf zone filter).index

def countIn (zone : Int) (filter : TimeFrequency) (times : List String) (i : Int) : ℕ :=
  times.countP fun time => periodOfTime zone filter time = some i

structure StatsRight (zone now : Int) (filter : TimeFrequency) (times : List String)
    (buckets : List WorkflowStatsResponse) : Prop where
  periods : buckets = (windowPeriods zone now filter).map fun i => bucketOf zone filter i (countIn zone filter times i)
  ascending : (buckets.map WorkflowStatsResponse.date).Pairwise (· < ·)
  total : (buckets.map WorkflowStatsResponse.value).sum = times.length
  noZero : ∀ bucket ∈ buckets, bucket.date ≠ 0

def StatsHold (zone now : Int) (order : RangeOrder) (aggregateFails readFails : Bool)
    (workflows : List ChaosWorkFlow) (projectID : String) (filter : TimeFrequency) (showWorkflowRuns : Bool) : Prop :=
  ∃ buckets,
    listWorkflowStats zone now order aggregateFails readFails workflows projectID filter showWorkflowRuns =
      .ok buckets ∧
    StatsRight zone now filter (fetchedTimes zone now workflows projectID filter showWorkflowRuns) buckets

structure StatsFit (zone now : Int) (filter : TimeFrequency) (times : List String) : Prop where
  inWindow : ∀ time ∈ times, ∃ i ∈ windowPeriods zone now filter, periodOfTime zone filter time = some i
  noEpoch : ∀ i ∈ windowPeriods zone now filter, (periodsOf zone filter).start i ≠ 0
  monthly : filter = .monthly → MonthFits zone now

section Loop

variable {zone now : Int} {filter : TimeFrequency}

theorem windowPeriods_eq {n : ℕ}
    (h : (periodsOf zone filter).index (windowStart zone now filter) = (periodsOf zone filter).index now - n) :
    windowPeriods zone now filter =
      (List.range (n + 1)).map fun i : ℕ => (periodsOf zone filter).index now - n + i := by
  have hlength : ((periodsOf zone filter).index now - ((periodsOf zone filter).index now - n) + 1).toNat = n + 1 := by
    omega
  rw [windowPeriods, h, hlength]

theorem index_every (length : Int) (hlength : 0 < length) (n i : ℕ) :
    ((Periods.every length hlength).ahead zone).index (now - length * n + length * i) =
      ((Periods.every length hlength).ahead zone).index now - n + i := by
  change (now - length * n + length * i + zone) / length = (now + zone) / length - n + i
  have hshift : now - length * n + length * i + zone = now + zone + length * (i - n) := by ring
  rw [hshift, Int.add_mul_ediv_left _ _ hlength.ne']
  ring

theorem map_timesUpTo_every (length : Int) (hlength : 0 < length) (n : ℕ) :
    (timesUpTo (fun t => t + length) now (now - length * n)).map ((Periods.every length hlength).ahead zone).index =
      (List.range (n + 1)).map fun i : ℕ => ((Periods.every length hlength).ahead zone).index now - n + i := by
  rw [timesUpTo_add hlength, List.map_map]
  exact List.map_congr_left fun i _ => index_every length hlength n i

theorem index_windowStart_daily :
    (periodsOf zone .daily).index (windowStart zone now .daily) = (periodsOf zone .daily).index now - (28 : ℕ) := by
  have hwindow : windowStart zone now .daily = now - 86400 * (28 : ℕ) + 86400 * (0 : ℕ) := by
    change addDays now (-28) = _
    unfold addDays
    omega
  rw [hwindow]
  exact (@index_every zone now 86400 (by decide) 28 0).trans (add_zero _)

theorem index_windowStart_hourly :
    (periodsOf zone .hourly).index (windowStart zone now .hourly) = (periodsOf zone .hourly).index now - (48 : ℕ) := by
  have hwindow : windowStart zone now .hourly = now - 3600 * (48 : ℕ) + 3600 * (0 : ℕ) := by
    change now + 3600 * -48 = _
    omega
  rw [hwindow]
  exact (@index_every zone now 3600 (by decide) 48 0).trans (add_zero _)

theorem index_windowStart_ge :
    (periodsOf zone filter).index now ≤
      (periodsOf zone filter).index (windowStart zone now filter) + keySpan filter := by
  cases filter with
  | monthly =>
      change (monthsOf zone).index now ≤ (monthsOf zone).index (windowStart zone now .monthly) + 6
      rw [windowStart_monthly]
      by_cases hday : monthDay ((localDays zone).index now) < monthLength ((monthsOf zone).index now - 6)
      · have hsame : (monthsOf zone).index (inMonth zone now ((monthsOf zone).index now - 6)) =
            (monthsOf zone).index now - 6 := monthOf_inMonth hday
        omega
      · have hnext : (monthsOf zone).index (inMonth zone now ((monthsOf zone).index now - 6)) =
            (monthsOf zone).index now - 6 + 1 := monthOf_inMonth_of_le (Int.not_lt.mp hday)
        omega
  | daily =>
      rw [index_windowStart_daily]
      change _ ≤ _ + (28 : Int)
      omega
  | hourly =>
      rw [index_windowStart_hourly]
      change _ ≤ _ + (48 : Int)
      omega

theorem map_bucketTimes (h : filter = .monthly → DayFits zone now) :
    (bucketTimes zone now filter).map (periodsOf zone filter).index = windowPeriods zone now filter := by
  cases filter with
  | monthly =>
      have hfits := h rfl
      have hstart : (monthsOf zone).index (windowStart zone now .monthly) = (monthsOf zone).index now - 6 + 1 :=
        monthOf_inMonth_of_le hfits.late
      have hfirst : (monthsOf zone).index now - 6 + 1 = (monthsOf zone).index now - (5 : ℕ) := by omega
      rw [windowPeriods_eq (hstart.trans hfirst)]
      exact map_timesFrom hfits.early
  | daily =>
      rw [windowPeriods_eq index_windowStart_daily]
      exact map_timesUpTo_every 86400 (by decide) 28
  | hourly =>
      rw [windowPeriods_eq index_windowStart_hourly]
      exact map_timesUpTo_every 3600 (by decide) 48

theorem windowStart_le : windowStart zone now filter ≤ now := by
  cases filter with
  | monthly =>
      have hlt := @inMonth_lt_inMonth zone now ((monthsOf zone).index now - 6) ((monthsOf zone).index now) (by omega)
      have hself : inMonth zone now ((monthsOf zone).index now) = now := inMonth_self
      rw [windowStart_monthly]
      omega
  | daily =>
      change addDays now (-28) ≤ now
      unfold addDays
      omega
  | hourly =>
      change now + 3600 * -48 ≤ now
      omega

theorem now_mem_windowPeriods : (periodsOf zone filter).index now ∈ windowPeriods zone now filter :=
  mem_windowPeriods_iff.mpr ⟨(periodsOf zone filter).index_le_index windowStart_le, le_refl _⟩

theorem windowPeriods_near {i j : Int} (hi : i ∈ windowPeriods zone now filter)
    (hj : j ∈ windowPeriods zone now filter) : j ≤ i + keySpan filter := by
  have hlower := (mem_windowPeriods_iff.mp hi).1
  have hupper := (mem_windowPeriods_iff.mp hj).2
  have hspan := @index_windowStart_ge zone now filter
  omega

end Loop

/-! ### The map -/

section Map

variable {zone now : Int} {filter : TimeFrequency}

theorem key_inj : ∀ i ∈ windowPeriods zone now filter, ∀ j ∈ windowPeriods zone now filter,
    periodKey filter i = periodKey filter j → i = j := fun _ hi _ hj h =>
  periodKey_inj (windowPeriods_near hi hj) (windowPeriods_near hj hi) h

theorem represents_initialMap (h : filter = .monthly → DayFits zone now) :
    Represents (windowPeriods zone now filter) (periodKey filter) (bucketOf zone filter) (initialMap zone now filter)
      fun _ => 0 := by
  have hmap : initialMap zone now filter =
      (windowPeriods zone now filter).foldl
        (fun statsMap i => statsMap.insert (periodKey filter i) (bucketOf zone filter i 0)) ∅ := by
    rw [← map_bucketTimes h, List.foldl_map, initialMap]
    simp only [bucketKey_eq, bucketDate_eq]
    rfl
  rw [hmap]
  exact represents_foldl key_inj

theorem represents_createDateMap {statsMap : StatsMap} {counts : Int → ℕ}
    (h : Represents (windowPeriods zone now filter) (periodKey filter) (bucketOf zone filter) statsMap counts)
    {time : String} {i : Int} (hi : i ∈ windowPeriods zone now filter) (htime : periodOfTime zone filter time = some i)
    (hmonth : filter = .monthly → monthOfYear i < 11) :
    ∃ after, createDateMap zone filter statsMap time = .ok after ∧
      Represents (windowPeriods zone now filter) (periodKey filter) (bucketOf zone filter) after
        (Function.update counts i (counts i + 1)) := by
  obtain ⟨unix, hunix, rfl⟩ := Option.map_eq_some_iff.mp htime
  refine ⟨_, ?_, h.insert_count hi fun other hother => key_inj other hother _ hi⟩
  rw [createDateMap, hunix]
  dsimp only
  rw [countKey_eq hmonth, h.lookup hi]
  rfl

theorem countIn_cons {times : List String} {time : String} {i : Int} (h : periodOfTime zone filter time = some i)
    (j : Int) :
    countIn zone filter (time :: times) j = countIn zone filter times j + if j = i then 1 else 0 := by
  rw [countIn, countIn, List.countP_cons, h]
  by_cases hj : j = i
  · simp [hj]
  · simp [hj, Ne.symm hj]

theorem represents_createDateMaps {times : List String} {statsMap : StatsMap} {counts : Int → ℕ}
    (h : Represents (windowPeriods zone now filter) (periodKey filter) (bucketOf zone filter) statsMap counts)
    (htimes : ∀ time ∈ times, ∃ i ∈ windowPeriods zone now filter, periodOfTime zone filter time = some i)
    (hmonth : filter = .monthly → ∀ i ∈ windowPeriods zone now filter, monthOfYear i < 11) :
    ∃ after, times.foldlM (createDateMap zone filter) statsMap = .ok after ∧
      Represents (windowPeriods zone now filter) (periodKey filter) (bucketOf zone filter) after
        fun i => counts i + countIn zone filter times i := by
  induction times generalizing statsMap counts with
  | nil => exact ⟨statsMap, rfl, h⟩
  | cons time times ih =>
      obtain ⟨⟨i, hi, htime⟩, hrest⟩ := List.forall_mem_cons.mp htimes
      obtain ⟨next, hnext, hcounts⟩ := represents_createDateMap h hi htime fun hfilter => hmonth hfilter i hi
      obtain ⟨after, hafter, hfinal⟩ := ih hcounts hrest
      refine ⟨after, ?_, ?_⟩
      · rw [List.foldlM_cons, hnext]
        exact hafter
      · have hsame : (fun j => Function.update counts i (counts i + 1) j + countIn zone filter times j) =
            fun j => counts j + countIn zone filter (time :: times) j := by
          funext j
          rw [countIn_cons htime]
          by_cases hj : j = i
          · subst hj
            rw [Function.update_self, if_pos rfl]
            omega
          · rw [Function.update_of_ne hj, if_neg hj]
            omega
        rwa [hsame] at hfinal

theorem monthOfYear_lt_of_fits (h : MonthFits zone now) {i : Int} (hi : i ∈ windowPeriods zone now .monthly) :
    monthOfYear i < 11 := by
  obtain ⟨hlower, hupper⟩ := mem_windowPeriods_iff.mp hi
  have hstart : (monthsOf zone).index (windowStart zone now .monthly) = (monthsOf zone).index now - 6 + 1 :=
    monthOf_inMonth_of_le h.dayFits.late
  have hmonth := h.1
  change monthOfYear ((monthsOf zone).index now) + 1 = 8 at hmonth
  change (monthsOf zone).index (windowStart zone now .monthly) ≤ i at hlower
  change i ≤ (monthsOf zone).index now at hupper
  unfold monthOfYear at *
  omega

end Map

/-! ### When the statistics are right -/

section Stats

variable {zone now : Int} {filter : TimeFrequency} {order : RangeOrder}

theorem sum_indicator {periods : List Int} (hnodup : periods.Nodup) (period : Option Int) :
    (periods.map fun i => if period = some i then 1 else 0).sum =
      if ∃ i ∈ periods, period = some i then 1 else 0 := by
  induction periods with
  | nil => simp
  | cons i periods ih =>
      obtain ⟨hnot, hrest⟩ := List.nodup_cons.mp hnodup
      rw [List.map_cons, List.sum_cons, ih hrest]
      by_cases hi : period = some i
      · have hnone : ¬ ∃ j ∈ periods, period = some j := by
          rintro ⟨j, hj, hperiod⟩
          obtain rfl := Option.some.inj (hi.symm.trans hperiod)
          exact hnot hj
        rw [if_pos hi, if_neg hnone, if_pos ⟨i, List.mem_cons_self, hi⟩]
      · rw [if_neg hi, Nat.zero_add]
        refine if_congr ?_ rfl rfl
        simp [hi]

theorem sum_countIn (periods : List Int) (hnodup : periods.Nodup) (times : List String) :
    (periods.map (countIn zone filter times)).sum =
      times.countP fun time => ∃ i ∈ periods, periodOfTime zone filter time = some i := by
  induction times with
  | nil =>
      apply List.sum_eq_zero
      intro n hn
      obtain ⟨i, -, rfl⟩ := List.mem_map.mp hn
      rfl
  | cons time times ih =>
      have hsplit : periods.map (countIn zone filter (time :: times)) = periods.map fun i =>
          countIn zone filter times i + if periodOfTime zone filter time = some i then 1 else 0 := by
        apply List.map_congr_left
        intro i _
        rw [countIn, List.countP_cons, countIn]
        simp
      rw [hsplit, List.sum_map_add, ih, List.countP_cons, sum_indicator hnodup]
      simp only [decide_eq_true_eq]

theorem countIn_total (times : List String) :
    ((windowPeriods zone now filter).map (countIn zone filter times)).sum = times.length ↔
      ∀ time ∈ times, ∃ i ∈ windowPeriods zone now filter, periodOfTime zone filter time = some i := by
  have hnodup : (windowPeriods zone now filter).Nodup := windowPeriods_ascend.imp ne_of_lt
  rw [sum_countIn _ hnodup, List.countP_eq_length]
  simp only [decide_eq_true_eq]

theorem bucketDates_ascend (counts : Int → ℕ) :
    (windowPeriods zone now filter).Pairwise fun i j =>
      (bucketOf zone filter i (counts i)).date < (bucketOf zone filter j (counts j)).date := by
  apply windowPeriods_ascend.imp
  intro i j hlt
  have hstart := (periodsOf zone filter).start_lt_start hlt
  change (periodsOf zone filter).start i * 1000 < (periodsOf zone filter).start j * 1000
  omega

theorem statsRight_of_fit {times : List String} (hfit : StatsFit zone now filter times) :
    StatsRight zone now filter times
      ((windowPeriods zone now filter).map fun i => bucketOf zone filter i (countIn zone filter times i)) := by
  refine ⟨rfl, ?_, ?_, ?_⟩
  · rw [List.map_map, List.pairwise_map]
    exact bucketDates_ascend _
  · rw [List.map_map]
    exact (countIn_total times).mpr hfit.inWindow
  · intro bucket hbucket hzero
    obtain ⟨i, hi, rfl⟩ := List.mem_map.mp hbucket
    change (periodsOf zone filter).start i * 1000 = 0 at hzero
    exact hfit.noEpoch i hi (by omega)

theorem listWorkflowStats_of_fit {workflows : List ChaosWorkFlow} {projectID : String} {showWorkflowRuns : Bool}
    (hne : fetchedTimes zone now workflows projectID filter showWorkflowRuns ≠ [])
    (hfit : StatsFit zone now filter (fetchedTimes zone now workflows projectID filter showWorkflowRuns)) :
    StatsHold zone now order false false workflows projectID filter showWorkflowRuns := by
  have hinitial := represents_initialMap fun hfilter => (hfit.monthly hfilter).dayFits
  obtain ⟨statsMap, hcounted, hrepresents⟩ := represents_createDateMaps hinitial hfit.inWindow (by
    rintro rfl i hi
    exact monthOfYear_lt_of_fits (hfit.monthly rfl) hi)
  simp only [Nat.zero_add] at hrepresents
  have hsorted := hrepresents.sorted key_inj (bucketDates_ascend _) (order.perm statsMap.keys)
  refine ⟨_, ?_, statsRight_of_fit hfit⟩
  rw [listWorkflowStats, if_neg (by decide)]
  dsimp only
  rw [if_neg (by simp [hne]), hcounted]
  exact congrArg Except.ok hsorted

/-! ### The dates of the buckets -/

/-- A bucket has the date of one that was put in first, or none. -/
def DatesOf (zone now : Int) (filter : TimeFrequency) (statsMap : StatsMap) : Prop :=
  ∀ key bucket, statsMap.lookup key = some bucket →
    bucket.date = 0 ∨ ∃ unix ∈ bucketTimes zone now filter, bucket.date = bucketDate zone unix filter * 1000

theorem DatesOf.insert {statsMap : StatsMap} (h : DatesOf zone now filter statsMap) {key : String}
    {bucket : WorkflowStatsResponse} (hbucket : bucket.date = 0 ∨
      ∃ unix ∈ bucketTimes zone now filter, bucket.date = bucketDate zone unix filter * 1000) :
    DatesOf zone now filter (statsMap.insert key bucket) := by
  intro other found hfound
  by_cases hother : other = key
  · subst hother
    rw [AList.lookup_insert] at hfound
    obtain rfl := Option.some.inj hfound
    exact hbucket
  · rw [AList.lookup_insert_ne hother] at hfound
    exact h other found hfound

theorem datesOf_initialMap : DatesOf zone now filter (initialMap zone now filter) := by
  have hfold : ∀ (times : List Int) (statsMap : StatsMap), (∀ unix ∈ times, unix ∈ bucketTimes zone now filter) →
      DatesOf zone now filter statsMap →
      DatesOf zone now filter (times.foldl (fun statsMap unix =>
        statsMap.insert (bucketKey zone unix filter) ⟨bucketDate zone unix filter * 1000, 0⟩) statsMap) := by
    intro times
    induction times with
    | nil => exact fun _ _ h => h
    | cons unix times ih =>
        intro statsMap hmem h
        obtain ⟨hunix, hrest⟩ := List.forall_mem_cons.mp hmem
        exact ih _ hrest (h.insert (.inr ⟨unix, hunix, rfl⟩))
  refine hfold _ ∅ (fun _ h => h) fun key bucket hbucket => ?_
  rw [AList.lookup_empty] at hbucket
  cases hbucket

theorem DatesOf.createDateMap {statsMap after : StatsMap} (h : DatesOf zone now filter statsMap) {time : String}
    (hafter : createDateMap zone filter statsMap time = .ok after) : DatesOf zone now filter after := by
  rw [Analytics.createDateMap] at hafter
  cases htime : atoi time with
  | none =>
      rw [htime] at hafter
      cases hafter
  | some unix =>
      rw [htime] at hafter
      obtain rfl := Except.ok.inj hafter
      apply h.insert
      cases hfound : statsMap.lookup (countKey zone unix filter) with
      | none => exact .inl rfl
      | some bucket => exact h _ bucket hfound

theorem DatesOf.createDateMaps {times : List String} {statsMap after : StatsMap} (h : DatesOf zone now filter statsMap)
    (hafter : times.foldlM (Analytics.createDateMap zone filter) statsMap = .ok after) :
    DatesOf zone now filter after := by
  induction times generalizing statsMap with
  | nil =>
      obtain rfl := Except.ok.inj hafter
      exact h
  | cons time times ih =>
      rw [List.foldlM_cons] at hafter
      obtain ⟨next, hnext, hrest⟩ := exists_of_bind_eq_ok hafter
      exact ih (h.createDateMap hnext) hrest

theorem DatesOf.sortedBuckets {statsMap : StatsMap} (h : DatesOf zone now filter statsMap)
    {bucket : WorkflowStatsResponse} (hbucket : bucket ∈ sortedBuckets order statsMap) :
    bucket.date = 0 ∨ ∃ unix ∈ bucketTimes zone now filter, bucket.date = bucketDate zone unix filter * 1000 := by
  rw [Analytics.sortedBuckets, List.mem_insertionSort] at hbucket
  obtain ⟨key, -, hlookup⟩ := List.mem_filterMap.mp hbucket
  exact h key bucket hlookup

/-- Right statistics have buckets for the periods of the query, which the loop has found. -/
theorem fit_of_statsRight {times : List String} {statsMap : StatsMap} (hdates : DatesOf zone now filter statsMap)
    (hright : StatsRight zone now filter times (sortedBuckets order statsMap)) : StatsFit zone now filter times := by
  have hbucket : ∀ i ∈ windowPeriods zone now filter,
      bucketOf zone filter i (countIn zone filter times i) ∈ sortedBuckets order statsMap := by
    intro i hi
    rw [hright.periods]
    exact List.mem_map_of_mem hi
  have hnoZero : ∀ i ∈ windowPeriods zone now filter, (periodsOf zone filter).start i * 1000 ≠ 0 :=
    fun i hi => hright.noZero _ (hbucket i hi)
  refine ⟨?_, fun i hi hzero => hnoZero i hi (by omega), ?_⟩
  · rw [← countIn_total]
    have htotal := hright.total
    rw [hright.periods, List.map_map] at htotal
    exact htotal
  · rintro rfl
    refine (dayFits_of_covers fun i hi => ?_).monthFits
    rcases hdates.sortedBuckets (hbucket i hi) with hzero | ⟨unix, hunix, hdate⟩
    · exact absurd hzero (hnoZero i hi)
    · refine ⟨unix, hunix, ?_⟩
      rw [bucketDate_eq] at hdate
      change (monthsOf zone).start i * 1000 = (monthsOf zone).start ((monthsOf zone).index unix) * 1000 at hdate
      exact (monthsOf zone).start_inj.mp (by omega)

theorem not_statsRight_nil {times : List String} : ¬ StatsRight zone now filter times [] := by
  intro h
  have hnil := List.map_eq_nil_iff.mp h.periods.symm
  have hmem := @now_mem_windowPeriods zone now filter
  rw [hnil] at hmem
  cases hmem

section Calls

variable {aggregateFails readFails : Bool} {workflows : List ChaosWorkFlow} {projectID : String}
  {showWorkflowRuns : Bool}

theorem fit_of_statsHold
    (h : StatsHold zone now order aggregateFails readFails workflows projectID filter showWorkflowRuns) :
    aggregateFails = false ∧ readFails = false ∧
      fetchedTimes zone now workflows projectID filter showWorkflowRuns ≠ [] ∧
      StatsFit zone now filter (fetchedTimes zone now workflows projectID filter showWorkflowRuns) := by
  obtain ⟨buckets, hbuckets, hright⟩ := h
  rw [listWorkflowStats] at hbuckets
  by_cases haggregate : aggregateFails = true
  · rw [if_pos haggregate] at hbuckets
    cases hbuckets
  · rw [if_neg haggregate] at hbuckets
    dsimp only at hbuckets
    by_cases hread : readFails = true ∨ fetchedTimes zone now workflows projectID filter showWorkflowRuns = []
    · rw [if_pos hread] at hbuckets
      obtain rfl := Except.ok.inj hbuckets
      exact absurd hright not_statsRight_nil
    · rw [if_neg hread] at hbuckets
      obtain ⟨statsMap, hcounted, hsorted⟩ := exists_of_bind_eq_ok hbuckets
      obtain rfl := Except.ok.inj hsorted
      rw [not_or, Bool.not_eq_true] at hread
      exact ⟨Bool.eq_false_of_not_eq_true haggregate, hread.1, hread.2,
        fit_of_statsRight (datesOf_initialMap.createDateMaps hcounted) hright⟩

theorem statsHold_iff :
    StatsHold zone now order aggregateFails readFails workflows projectID filter showWorkflowRuns ↔
      aggregateFails = false ∧ readFails = false ∧
        fetchedTimes zone now workflows projectID filter showWorkflowRuns ≠ [] ∧
        StatsFit zone now filter (fetchedTimes zone now workflows projectID filter showWorkflowRuns) := by
  constructor
  · exact fit_of_statsHold
  · rintro ⟨rfl, rfl, hne, hfit⟩
    exact listWorkflowStats_of_fit hne hfit

end Calls

end Stats

def StatsAreRight : Prop :=
  ∀ (zone now : Int) (order : RangeOrder) (workflows : List ChaosWorkFlow) (projectID : String)
    (filter : TimeFrequency) (showWorkflowRuns : Bool),
    fetchedTimes zone now workflows projectID filter showWorkflowRuns ≠ [] →
    StatsHold zone now order false false workflows projectID filter showWorkflowRuns

def decemberWorkflow : ChaosWorkFlow :=
  { workflowOf (runOf "Succeeded" 1) with updatedAt := "1640000000", createdAt := "1640000000" }

/-- A workflow of December is counted under a key that no bucket has. -/
theorem not_statsAreRight :
    ¬ StatsAreRight ∧ (initialMap 0 1642204800 .monthly).lookup (countKey 0 1640000000 .monthly) = none := by
  constructor
  · intro h
    have hhold := h 0 1642204800 keysInOrder [decemberWorkflow] "project" .monthly false (by decide)
    have hmonth := ((fit_of_statsHold hhold).2.2.2.monthly rfl).1
    exact absurd hmonth (by decide)
  · decide

end LitmusPortal.Analytics
