import LitmusPortal.Lib.BinarySearch
import LitmusPortal.Lib.GoFloat
import LitmusPortal.Lib.Rounding

/-!
# The steps of the queries

`getPromQueryInput` gives each query the step of its text where the range then has few enough points, and otherwise one
that is looked up by the range. What there is no number for, neither a text nor a place of the table, is `none`.
-/

namespace LitmusPortal.PromUtils

open Rounding

def timeInSeconds : List ℕ :=
  [30, 60, 300, 600, 900, 1800, 3600, 10800, 21600, 43200, 86400, 259200, 604800, 1209600]

def allowedMinSteps : List ℕ := [1, 2, 10, 20, 30, 60, 120, 360, 720, 1440, 2880, 8640, 20160, 40320]

def prometheusQueryResolutionLimit : ℕ := 11000

def timeThresholdForTsdb : ℕ := 1

def defaultTsdbScrapeInterval : ℕ := 5

def defaultChaosEventQueryID : String := "chaos-event"

def defaultChaosVerdictQueryID : String := "chaos-verdict"

def defaultChaosEventAndVerdictPrometheusQueryLegend : String := "\x7b\x7bchaosresult_name\x7d\x7d"

def defaultChaosEventAndVerdictPrometheusQueryResolution : String := "1/2"

/-! ### `parseInt` -/

/-- Zero has a sign. -/
structure JsInteger where
  negative : Bool
  magnitude : ℕ
  deriving DecidableEq, Repr

def isWhiteSpace (c : Char) : Bool :=
  c == ' ' || ('\t' ≤ c && c ≤ '\r') || c == '\u00a0' || c == '\u1680' || ('\u2000' ≤ c && c ≤ '\u200a') ||
    c == '\u2028' || c == '\u2029' || c == '\u202f' || c == '\u205f' || c == '\u3000' || c == '\ufeff'

def digitsValue (digits : List Char) : ℕ := digits.foldl (fun n c => 10 * n + (c.toNat - '0'.toNat)) 0

/-- With base 10. What follows the digits is not read. -/
def parseInt (text : String) : Option JsInteger :=
  let trimmed := text.toList.dropWhile isWhiteSpace
  let unsigned := if trimmed.head? = some '-' ∨ trimmed.head? = some '+' then trimmed.tail else trimmed
  let digits := unsigned.takeWhile Char.isDigit
  if digits = [] then none else some ⟨trimmed.head? == some '-', GoFloat.round64 (digitsValue digits)⟩

example : ["5", " 15s", "s", "-3", "1e3"].map parseInt =
    [some ⟨false, 5⟩, some ⟨false, 15⟩, none, some ⟨true, 3⟩, some ⟨false, 1⟩] := by decide +kernel

/-! ### The query input -/

structure PromQueryDetails where
  queryID : String
  promQueryName : String
  legend : String
  resolution : String
  minstep : String
  deriving DecidableEq, Repr

structure PromQueryInput where
  queryID : String
  query : String
  legend : String
  resolution : String
  minstep : Option JsInteger
  deriving DecidableEq, Repr

def getNormalizedMinStep (timeRangeDiff : ℕ) : Option ℕ :=
  match timeInSeconds.idxOf? timeRangeDiff with
  | some timeIndex => allowedMinSteps[timeIndex]?
  | none =>
      let ans := BinarySearch.search timeInSeconds timeRangeDiff 0 (timeInSeconds.length - 1) (-1)
      BinarySearch.entryAt allowedMinSteps ans

/-- `Math.ceil(timeRangeDiff / minstep) < PROMETHEUS_QUERY_RESOLUTION_LIMIT - TIME_THRESHOLD_FOR_TSDB` -/
def keepsMinStep (timeRangeDiff : ℕ) : Option JsInteger → Bool
  | none => false
  | some ⟨negative, 0⟩ => negative && timeRangeDiff != 0
  | some ⟨true, _ + 1⟩ => true
  | some ⟨false, n + 1⟩ =>
      ⌈round53 (timeRangeDiff / (n + 1 : ℕ))⌉ < (prometheusQueryResolutionLimit - timeThresholdForTsdb : ℕ)

def queryMinStep (timeRangeDiff : ℕ) (minstep : String) : Option JsInteger :=
  if keepsMinStep timeRangeDiff (parseInt minstep) then parseInt minstep
  else (getNormalizedMinStep timeRangeDiff).map (⟨false, ·⟩)

def eventMinStep (timeRangeDiff : ℕ) : ℕ :=
  if timeRangeDiff < prometheusQueryResolutionLimit - timeThresholdForTsdb then defaultTsdbScrapeInterval
  else ⌈round53 (timeRangeDiff / (prometheusQueryResolutionLimit + timeThresholdForTsdb : ℕ))⌉.toNat

def eventQuery (queryID query : String) (timeRangeDiff : ℕ) : PromQueryInput where
  queryID := queryID
  query := query
  legend := defaultChaosEventAndVerdictPrometheusQueryLegend
  resolution := defaultChaosEventAndVerdictPrometheusQueryResolution
  minstep := some ⟨false, eventMinStep timeRangeDiff⟩

/-- The empty text is no template. -/
def eventQueries (timeRangeDiff : ℕ) (withEvents : Bool) (eventQueryTemplate verdictQueryTemplate : Option String) :
    List PromQueryInput :=
  match withEvents, eventQueryTemplate, verdictQueryTemplate with
  | true, some eventTemplate, some verdictTemplate =>
      if eventTemplate ≠ "" ∧ verdictTemplate ≠ "" then
        [eventQuery defaultChaosEventQueryID eventTemplate timeRangeDiff,
          eventQuery defaultChaosVerdictQueryID verdictTemplate timeRangeDiff]
      else []
  | _, _, _ => []

def getPromQueryInput (promQueries : List PromQueryDetails) (timeRangeDiff : ℕ) (withEvents : Bool)
    (eventQueryTemplate verdictQueryTemplate : Option String) : List PromQueryInput :=
  (promQueries.map fun query =>
    { queryID := query.queryID
      query := query.promQueryName
      legend := query.legend
      resolution := query.resolution
      minstep := queryMinStep timeRangeDiff query.minstep }) ++
    eventQueries timeRangeDiff withEvents eventQueryTemplate verdictQueryTemplate

/-! ### The table -/

theorem table_steps : timeInSeconds = allowedMinSteps.map (30 * ·) := by decide

theorem table_sorted : timeInSeconds.Pairwise (· < ·) := by decide

/-- Each time of the table is thirty of the steps beside it. -/
theorem step_of_time {place time : ℕ} (h : timeInSeconds[place]? = some time) :
    ∃ step, allowedMinSteps[place]? = some step ∧ time = 30 * step := by
  rw [table_steps, List.getElem?_map, Option.map_eq_some_iff] at h
  obtain ⟨step, hstep, rfl⟩ := h
  exact ⟨step, hstep, rfl⟩

theorem le_last_time {time : ℕ} (h : time ∈ timeInSeconds) : time ≤ 1209600 := by
  revert time
  decide

theorem getNormalizedMinStep_of_le {timeRangeDiff : ℕ} (hpos : 0 < timeRangeDiff) (h : timeRangeDiff ≤ 1209600) :
    ∃ step, getNormalizedMinStep timeRangeDiff = some step ∧ timeRangeDiff ≤ 30 * step := by
  rw [getNormalizedMinStep]
  cases hindex : timeInSeconds.idxOf? timeRangeDiff with
  | some place =>
      obtain ⟨hplace, hat, -⟩ := List.idxOf?_eq_some_iff.mp hindex
      have htime := List.getElem?_eq_some_iff.mpr ⟨hplace, hat⟩
      obtain ⟨step, hstep, heq⟩ := step_of_time htime
      exact ⟨step, hstep, heq.le⟩
  | none =>
      have hnotMem : timeRangeDiff ∉ timeInSeconds := List.idxOf?_eq_none_iff.mp hindex
      rcases BinarySearch.search_spec table_sorted timeRangeDiff with ⟨-, hbelow⟩ | ⟨place, time, hsearch, htime, hlt⟩
      · have hlast := hbelow 1209600 (by decide)
        obtain rfl : timeRangeDiff = 1209600 := by omega
        exact absurd (by decide) hnotMem
      · obtain ⟨step, hstep, heq⟩ := step_of_time htime
        refine ⟨step, ?_, by omega⟩
        rw [hsearch, BinarySearch.entryAt, if_neg (by omega)]
        exact hstep

/-- Beyond two weeks the table has no step. -/
theorem getNormalizedMinStep_of_lt {timeRangeDiff : ℕ} (h : 1209600 < timeRangeDiff) :
    getNormalizedMinStep timeRangeDiff = none := by
  have hnotMem : timeRangeDiff ∉ timeInSeconds := fun hmem => absurd (le_last_time hmem) (by omega)
  rw [getNormalizedMinStep, List.idxOf?_eq_none_iff.mpr hnotMem]
  rcases BinarySearch.search_spec table_sorted timeRangeDiff with ⟨hsearch, -⟩ | ⟨place, time, -, htime, hlt⟩
  · rw [hsearch]
    rfl
  · have hle := le_last_time (List.mem_of_getElem? htime)
    omega

/-! ### What a step has to be -/

def WithinLimit (timeRangeDiff : ℕ) (minstep : Option JsInteger) : Prop :=
  ∃ step, minstep = some ⟨false, step⟩ ∧ 0 < step ∧ timeRangeDiff ≤ prometheusQueryResolutionLimit * step

def ParsesPositive (minstep : String) : Prop := ∃ step, parseInt minstep = some ⟨false, step⟩ ∧ 0 < step

theorem le_of_round53_le {q : ℚ} (hq : 0 < q) (h : round53 q ≤ 10998) : q ≤ 11000 := by
  have herror := (abs_le.mp (abs_round53_sub_le hq)).1
  norm_num at herror
  linarith

theorem withinLimit_of_keepsMinStep {timeRangeDiff step : ℕ} (hrange : 0 < timeRangeDiff) (hstep : 0 < step)
    (h : keepsMinStep timeRangeDiff (some ⟨false, step⟩) = true) : WithinLimit timeRangeDiff (some ⟨false, step⟩) := by
  refine ⟨step, rfl, hstep, ?_⟩
  obtain ⟨n, rfl⟩ := Nat.exists_eq_succ_of_ne_zero hstep.ne'
  have hceil : ⌈round53 (timeRangeDiff / (n + 1 : ℕ))⌉ ≤ 10998 := Int.le_of_lt_add_one (of_decide_eq_true h)
  have hround : round53 (timeRangeDiff / (n + 1 : ℕ)) ≤ 10998 := by exact_mod_cast Int.ceil_le.mp hceil
  have hnpos : (0 : ℚ) < (n + 1 : ℕ) := by exact_mod_cast Nat.succ_pos n
  have hbound := le_of_round53_le (div_pos (by exact_mod_cast hrange) hnpos) hround
  rw [div_le_iff₀ hnpos] at hbound
  exact_mod_cast hbound

theorem withinLimit_queryMinStep_iff {timeRangeDiff : ℕ} {minstep : String} (hrange : 0 < timeRangeDiff)
    (h : ParsesPositive minstep) :
    WithinLimit timeRangeDiff (queryMinStep timeRangeDiff minstep) ↔
      keepsMinStep timeRangeDiff (parseInt minstep) = true ∨ timeRangeDiff ≤ 1209600 := by
  obtain ⟨step, hparse, hstep⟩ := h
  rw [queryMinStep, hparse]
  cases hkeeps : keepsMinStep timeRangeDiff (some ⟨false, step⟩) with
  | true => exact iff_of_true (withinLimit_of_keepsMinStep hrange hstep hkeeps) (.inl rfl)
  | false =>
      rw [if_neg Bool.false_ne_true]
      by_cases hle : timeRangeDiff ≤ 1209600
      · obtain ⟨found, hfound, hbound⟩ := getNormalizedMinStep_of_le hrange hle
        refine iff_of_true ⟨found, by rw [hfound]; rfl, by omega, ?_⟩ (.inr hle)
        rw [prometheusQueryResolutionLimit]
        omega
      · rw [getNormalizedMinStep_of_lt (by omega)]
        refine iff_of_false ?_ fun hor => hor.elim Bool.noConfusion hle
        rintro ⟨found, hfound, -⟩
        cases hfound

/-! ### The step of the events -/

section Events

variable {timeRangeDiff : ℕ}

/-- The range lies in one of the intervals where the quotient by 11001 and that by 11000 have the same ceiling. -/
def EventsFit (timeRangeDiff : ℕ) : Prop :=
  timeRangeDiff < 10999 ∨ ∃ k, 11001 * k < timeRangeDiff ∧ timeRangeDiff ≤ 11000 * (k + 1)

/-- Where the two ceilings agree, the rounding of the quotient does not reach the next whole number. -/
theorem lt_round53 {k : ℕ} (hlt : 11001 * k < timeRangeDiff) (hle : timeRangeDiff ≤ 11000 * (k + 1)) :
    (k : ℚ) < round53 (timeRangeDiff / 11001) := by
  have hk : k ≤ 10999 := by omega
  have hupper : (timeRangeDiff : ℚ) / 11001 ≤ 11000 := by
    rw [div_le_iff₀ (by norm_num)]
    exact_mod_cast (by omega : timeRangeDiff ≤ 11000 * 11001)
  have hlower : (k : ℚ) + 1 / 11001 ≤ timeRangeDiff / 11001 := by
    rw [le_div_iff₀ (by norm_num)]
    have hsucc : ((11001 * k + 1 : ℕ) : ℚ) ≤ timeRangeDiff := by exact_mod_cast hlt
    push_cast at hsucc
    linarith
  have hpos : (0 : ℚ) < timeRangeDiff / 11001 := by
    have hk0 : (0 : ℚ) ≤ k := Nat.cast_nonneg k
    linarith
  have herror := (abs_le.mp (abs_round53_sub_le hpos)).1
  norm_num at herror hlower ⊢
  linarith

theorem fit_of_le_mul_ceil {s : ℕ} (hrange : 0 < timeRangeDiff)
    (hceil : ⌈round53 (timeRangeDiff / 11001)⌉ = (s : ℤ)) (hle : timeRangeDiff ≤ 11000 * s) :
    ∃ k, 11001 * k < timeRangeDiff ∧ timeRangeDiff ≤ 11000 * (k + 1) := by
  obtain ⟨k, rfl⟩ : ∃ k, s = k + 1 := Nat.exists_eq_succ_of_ne_zero (by omega)
  refine ⟨k, ?_, hle⟩
  have hpos : (0 : ℚ) < timeRangeDiff / 11001 := div_pos (by exact_mod_cast hrange) (by norm_num)
  have hround : (k : ℚ) < round53 (timeRangeDiff / 11001) := by
    have hlt := Int.lt_ceil.mp (hceil ▸ (by push_cast; omega) : ((k : ℕ) : ℤ) < ⌈round53 (timeRangeDiff / 11001)⌉)
    exact_mod_cast hlt
  have herror := (abs_le.mp (abs_round53_sub_le hpos)).2
  have hquotient : (timeRangeDiff : ℚ) / 11001 ≤ 11000 * (k + 1) / 11001 := by
    refine div_le_div_of_nonneg_right ?_ (by norm_num)
    exact_mod_cast hle
  norm_num at herror
  -- a larger range needs more points than the ceiling of its quotient gives
  have hsmall : k ≤ 11000 := by
    have hcast : (k : ℚ) < 11001 := by linarith
    have hlt : k < 11001 := by exact_mod_cast hcast
    omega
  by_contra hnot
  rcases Nat.eq_or_lt_of_le (Nat.not_lt.mp hnot) with heq | hlt
  · have hexact : (timeRangeDiff : ℚ) / 11001 = k := by
      rw [heq]
      push_cast
      ring
    rw [hexact, round53_natCast (by omega) (by omega)] at hround
    exact lt_irrefl _ hround
  · have hbelow : (timeRangeDiff : ℚ) / 11001 ≤ k - 1 / 11001 := by
      rw [div_le_iff₀ (by norm_num)]
      have hsucc : ((timeRangeDiff + 1 : ℕ) : ℚ) ≤ (11001 * k : ℕ) := by exact_mod_cast hlt
      push_cast at hsucc
      linarith
    have hk : (k : ℚ) ≤ 11000 := by exact_mod_cast hsmall
    linarith

theorem withinLimit_eventMinStep_iff (hrange : 0 < timeRangeDiff) :
    WithinLimit timeRangeDiff (some ⟨false, eventMinStep timeRangeDiff⟩) ↔ EventsFit timeRangeDiff := by
  by_cases hshort : timeRangeDiff < 10999
  · have hstep : eventMinStep timeRangeDiff = 5 := if_pos hshort
    refine iff_of_true ⟨5, by rw [hstep], by decide, ?_⟩ (.inl hshort)
    rw [prometheusQueryResolutionLimit]
    omega
  · have hstep : eventMinStep timeRangeDiff = ⌈round53 (timeRangeDiff / 11001)⌉.toNat := if_neg hshort
    rw [hstep]
    constructor
    · rintro ⟨step, heq, hpos, hle⟩
      obtain rfl : ⌈round53 (timeRangeDiff / 11001)⌉.toNat = step := by
        simpa using heq
      exact .inr (fit_of_le_mul_ceil hrange (by omega) hle)
    · intro hfit
      obtain ⟨k, hlt, hle⟩ := hfit.resolve_left hshort
      have hceil : (k : ℤ) < ⌈round53 (timeRangeDiff / 11001)⌉ := by
        rw [Int.lt_ceil]
        exact_mod_cast lt_round53 hlt hle
      refine ⟨_, rfl, by omega, hle.trans (Nat.mul_le_mul_left _ ?_)⟩
      omega

end Events

/-! ### All queries -/

/-- Both queries of the events are asked for. -/
def AsksForEvents (withEvents : Bool) (eventQueryTemplate verdictQueryTemplate : Option String) : Prop :=
  withEvents = true ∧ (∃ event, eventQueryTemplate = some event ∧ event ≠ "") ∧
    ∃ verdict, verdictQueryTemplate = some verdict ∧ verdict ≠ ""

theorem forall_eventQueries_iff {timeRangeDiff : ℕ} {withEvents : Bool}
    {eventQueryTemplate verdictQueryTemplate : Option String} :
    (∀ input ∈ eventQueries timeRangeDiff withEvents eventQueryTemplate verdictQueryTemplate,
        WithinLimit timeRangeDiff input.minstep) ↔
      (AsksForEvents withEvents eventQueryTemplate verdictQueryTemplate →
        WithinLimit timeRangeDiff (some ⟨false, eventMinStep timeRangeDiff⟩)) := by
  rw [AsksForEvents]
  cases withEvents with
  | false => simp [eventQueries]
  | true =>
      cases eventQueryTemplate with
      | none => simp [eventQueries]
      | some event =>
          cases verdictQueryTemplate with
          | none => simp [eventQueries]
          | some verdict =>
              by_cases hboth : event ≠ "" ∧ verdict ≠ ""
              · simp [eventQueries, hboth, eventQuery]
              · rw [eventQueries, if_neg hboth]
                refine iff_of_true (by simp) fun hasks => absurd ?_ hboth
                obtain ⟨-, ⟨event', hevent, hevent'⟩, verdict', hverdict, hverdict'⟩ := hasks
                exact ⟨Option.some.inj hevent ▸ hevent', Option.some.inj hverdict ▸ hverdict'⟩

/-- A step that a query has is kept, or the table has one; the range is one that the events' step fits. -/
def Resolvable (promQueries : List PromQueryDetails) (timeRangeDiff : ℕ) (withEvents : Bool)
    (eventQueryTemplate verdictQueryTemplate : Option String) : Prop :=
  (∀ query ∈ promQueries, keepsMinStep timeRangeDiff (parseInt query.minstep) = true ∨ timeRangeDiff ≤ 1209600) ∧
    (AsksForEvents withEvents eventQueryTemplate verdictQueryTemplate → EventsFit timeRangeDiff)

theorem getPromQueryInput_withinLimit_iff (promQueries : List PromQueryDetails) (timeRangeDiff : ℕ) (withEvents : Bool)
    (eventQueryTemplate verdictQueryTemplate : Option String) (hrange : 0 < timeRangeDiff)
    (hparses : ∀ query ∈ promQueries, ParsesPositive query.minstep) :
    (∀ input ∈ getPromQueryInput promQueries timeRangeDiff withEvents eventQueryTemplate verdictQueryTemplate,
        WithinLimit timeRangeDiff input.minstep) ↔
      Resolvable promQueries timeRangeDiff withEvents eventQueryTemplate verdictQueryTemplate := by
  rw [getPromQueryInput, List.forall_mem_append, forall_eventQueries_iff, withinLimit_eventMinStep_iff hrange,
    List.forall_mem_map, Resolvable]
  refine and_congr_left fun _ => forall₂_congr fun query hquery => ?_
  exact withinLimit_queryMinStep_iff hrange (hparses query hquery)

def cpuQuery : PromQueryDetails where
  queryID := "q1"
  promQueryName := "node_cpu_seconds_total"
  legend := ""
  resolution := "1/2"
  minstep := "5"

theorem parsesPositive_cpuQuery : ∀ query ∈ [cpuQuery], ParsesPositive query.minstep := by
  intro query hquery
  obtain rfl := List.mem_singleton.mp hquery
  exact ⟨5, by decide +kernel, by decide⟩

theorem getPromQueryInput_withinLimit_hour :
    (∀ input ∈ getPromQueryInput [cpuQuery] 3600 true (some "up") (some "up"), WithinLimit 3600 input.minstep) ↔
      Resolvable [cpuQuery] 3600 true (some "up") (some "up") :=
  getPromQueryInput_withinLimit_iff [cpuQuery] 3600 true (some "up") (some "up") (by decide) parsesPositive_cpuQuery

/-- Three weeks: the step of the text gives too many points, and the table has none for the range. -/
theorem not_getPromQueryInput_withinLimit :
    ¬∀ (promQueries : List PromQueryDetails) (timeRangeDiff : ℕ), 0 < timeRangeDiff →
        (∀ query ∈ promQueries, ParsesPositive query.minstep) →
        ∀ input ∈ getPromQueryInput promQueries timeRangeDiff false none none,
          WithinLimit timeRangeDiff input.minstep := by
  intro hall
  have hparse : parseInt cpuQuery.minstep = some ⟨false, 5⟩ := by decide +kernel
  have hmem := hall [cpuQuery] 1814400 (by decide) parsesPositive_cpuQuery _ List.mem_cons_self
  rcases (withinLimit_queryMinStep_iff (by decide) ⟨5, hparse, by decide⟩).mp hmem with hkeeps | hle
  · rw [hparse] at hkeeps
    obtain ⟨step, hstep, -, hle⟩ := withinLimit_of_keepsMinStep (by decide) (by decide) hkeeps
    obtain rfl : 5 = step := by simpa using hstep
    exact absurd hle (by decide)
  · exact absurd hle (by decide)

end LitmusPortal.PromUtils
