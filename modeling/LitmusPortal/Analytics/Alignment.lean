import LitmusPortal.Analytics.Prometheus

/-!
# The slices of an answer

The loop over the series appends to the legends, the values and the sub-data in different branches. What it has
appended to each of them after some series is said here series by series, and then when the slices stay aligned.
-/

namespace LitmusPortal.Prometheus

open GoStrings

variable {F : Type}

/-! ### What one series contributes -/

section Series

variable (fl : Float64 F) (prometheus : Client F) (prom : PromQuery) (startTime endTime : Int)

def labelsOf (metric : Metric) : List (String × List UInt8) :=
  (getKeyValueMapFromQuotedString (split (prometheus.metricString metric) '\x7b' '\x7d')).getD []

def injectionTime (metric : Metric) : List UInt8 :=
  ((labelsOf prometheus metric).lookup "chaos_injection_time").getD []

/-- Only chaos queries with a legend look at the labels. -/
def PromQuery.readsLabels : Bool :=
  prom.legend.getD "" ≠ "" && (isChaosEvent prom.queryID || isChaosVerdict prom.queryID)

def readable (metric : Metric) : Bool :=
  injectionTime prometheus metric = [] || !(fl.parse (injectionTime prometheus metric)).2

/-- An event that was injected in the range of the query. -/
def validEvent (metric : Metric) : Bool :=
  prom.readsLabels && isChaosEvent prom.queryID && injectionTime prometheus metric ≠ [] &&
    startTime ≤ fl.truncate (fl.parse (injectionTime prometheus metric)).1 &&
    fl.truncate (fl.parse (injectionTime prometheus metric)).1 ≤ endTime

def kept (v : SampleStream F) : Bool :=
  !isChaosEvent prom.queryID || validEvent fl prometheus prom startTime endTime v.metric

def legendOf (v : SampleStream F) : String :=
  if prom.legend.getD "" = "" then prometheus.metricString v.metric else fillLegend v.metric (prom.legend.getD "")

def metricsTSV (v : SampleStream F) : List (F × F) :=
  v.values.map fun value =>
    (orZero fl (fl.ofInt value.timestamp) (fl.ofInt value.timestamp), orZero fl value.value value.value)

def annotationsTSV (v : SampleStream F) : List (F × Int) :=
  v.values.map fun value =>
    (orZero fl (fl.ofInt value.timestamp) (fl.ofInt value.timestamp),
      if 0 ≤ fl.truncate value.value then fl.truncate value.value else 0)

def subDataOf (v : SampleStream F) : List (SubData F) :=
  subData fl (if isChaosEvent prom.queryID then chaosEventLabels else chaosVerdictLabels)
    (if injectionTime prometheus v.metric = [] then fl.zero
      else (fl.parse (injectionTime prometheus v.metric)).1)
    (labelsOf prometheus v.metric)

/-- The error after a series. A series without a time leaves the earlier one. -/
def errAfter (err : Bool) (v : SampleStream F) : Bool :=
  if prom.readsLabels && injectionTime prometheus v.metric ≠ [] then
    (fl.parse (injectionTime prometheus v.metric)).2
  else err

/-- The series whose sub-data is recorded. -/
def recorded (err : Bool) : List (SampleStream F) → List (SampleStream F)
  | [] => []
  | v :: rest =>
      if prom.readsLabels && !errAfter fl prometheus prom err v && kept fl prometheus prom startTime endTime v then
        v :: recorded (errAfter fl prometheus prom err v) rest
      else recorded (errAfter fl prometheus prom err v) rest

end Series

/-! ### What the loop has appended -/

section Loop

variable {fl : Float64 F} {prometheus : Client F} {prom : PromQuery} {startTime endTime : Int}
  {visit : List (String × List UInt8) → List (String × List UInt8)} {queryType : QueryType}
  {columns columns' columns'' : Columns F}

/-- What the loop appends for some series. -/
structure Adds (fl : Float64 F) (prometheus : Client F) (prom : PromQuery) (queryType : QueryType)
    (startTime endTime : Int) (data : List (SampleStream F)) (columns columns' : Columns F) : Prop where
  legends : columns'.legends = columns.legends ++
    (data.filter (kept fl prometheus prom startTime endTime)).map (legendOf prometheus prom)
  metricsTSVs : queryType = .metrics → columns'.metricsTSVs = columns.metricsTSVs ++ data.map (metricsTSV fl)
  annotationsTSVs : queryType = .annotations → columns'.annotationsTSVs = columns.annotationsTSVs ++
    (data.filter (kept fl prometheus prom startTime endTime)).map (annotationsTSV fl)
  subDataArray : ∃ added, columns'.subDataArray = columns.subDataArray ++ added ∧
    (recorded fl prometheus prom startTime endTime columns.err data).Forall₂
      (fun v data => data.Perm (subDataOf fl prometheus prom v)) added
  err : columns'.err = data.foldl (errAfter fl prometheus prom) columns.err

theorem Adds.nil (columns : Columns F) : Adds fl prometheus prom queryType startTime endTime [] columns columns where
  legends := by simp
  metricsTSVs := by simp
  annotationsTSVs := by simp
  subDataArray := ⟨[], by simp, .nil⟩
  err := rfl

theorem recorded_append (err : Bool) (data data' : List (SampleStream F)) :
    recorded fl prometheus prom startTime endTime err (data ++ data') =
      recorded fl prometheus prom startTime endTime err data ++
        recorded fl prometheus prom startTime endTime (data.foldl (errAfter fl prometheus prom) err) data' := by
  induction data generalizing err with
  | nil => rfl
  | cons v rest ih =>
      rw [List.cons_append, recorded, recorded, List.foldl_cons, ih]
      split <;> rfl

theorem Adds.trans {data data' : List (SampleStream F)}
    (h : Adds fl prometheus prom queryType startTime endTime data columns columns')
    (h' : Adds fl prometheus prom queryType startTime endTime data' columns' columns'') :
    Adds fl prometheus prom queryType startTime endTime (data ++ data') columns columns'' where
  legends := by rw [h'.legends, h.legends, List.filter_append, List.map_append, List.append_assoc]
  metricsTSVs hq := by rw [h'.metricsTSVs hq, h.metricsTSVs hq, List.map_append, List.append_assoc]
  annotationsTSVs hq := by
    rw [h'.annotationsTSVs hq, h.annotationsTSVs hq, List.filter_append, List.map_append, List.append_assoc]
  subDataArray := by
    obtain ⟨added, hadded, hdata⟩ := h.subDataArray
    obtain ⟨added', hadded', hdata'⟩ := h'.subDataArray
    refine ⟨added ++ added', by rw [hadded', hadded, List.append_assoc], ?_⟩
    rw [recorded_append, ← h.err]
    exact List.rel_append hdata hdata'
  err := by rw [h'.err, h.err, List.foldl_append]

theorem chaosTime_eq (isEvent : Bool) (startTime endTime : Int) (err : Bool) (entries : List (String × List UInt8))
    (text : List UInt8) (htext : (entries.lookup "chaos_injection_time").getD [] = text) :
    chaosTime fl isEvent startTime endTime err entries =
      (if text = [] then fl.zero else (fl.parse text).1, if text = [] then err else (fl.parse text).2,
        isEvent && text ≠ [] && startTime ≤ fl.truncate (fl.parse text).1 &&
          fl.truncate (fl.parse text).1 ≤ endTime) := by
  unfold chaosTime
  rw [htext]
  cases text with
  | nil => simp
  | cons byte rest => simp

/-- The labels of a chaos series: whether it is a valid event, the error after it, and its sub-data where it is
recorded. -/
theorem addLabels_spec (hvisit : ∀ entries, (visit entries).Perm entries) {v : SampleStream F} {eventValid : Bool}
    (h : addLabels fl prometheus visit prom startTime endTime columns v.metric = some (columns', eventValid)) :
    eventValid = validEvent fl prometheus prom startTime endTime v.metric ∧
      ∃ added, (recorded fl prometheus prom startTime endTime columns.err [v]).Forall₂
          (fun v data => data.Perm (subDataOf fl prometheus prom v)) added ∧
        columns' = { columns with
          err := errAfter fl prometheus prom columns.err v, subDataArray := columns.subDataArray ++ added } := by
  unfold addLabels at h
  by_cases hreads : prom.legend.getD "" ≠ "" ∧ (isChaosEvent prom.queryID || isChaosVerdict prom.queryID) = true
  · have hlabels : prom.readsLabels = true := by simpa [PromQuery.readsLabels] using hreads
    rw [if_pos hreads] at h
    unfold addChaosLabels at h
    cases hmap : getKeyValueMapFromQuotedString (split (prometheus.metricString v.metric) '\x7b' '\x7d') with
    | none =>
        rw [hmap] at h
        cases h
    | some keyValueMap =>
        have hof : labelsOf prometheus v.metric = keyValueMap := by rw [labelsOf, hmap, Option.getD_some]
        have htext : (keyValueMap.lookup "chaos_injection_time").getD [] = injectionTime prometheus v.metric := by
          rw [injectionTime, hof]
        have herr : errAfter fl prometheus prom columns.err v =
            if injectionTime prometheus v.metric = [] then columns.err
            else (fl.parse (injectionTime prometheus v.metric)).2 := by
          rw [errAfter, hlabels]
          by_cases hnone : injectionTime prometheus v.metric = [] <;> simp [hnone]
        have hvalid : validEvent fl prometheus prom startTime endTime v.metric =
            (isChaosEvent prom.queryID && injectionTime prometheus v.metric ≠ [] &&
              startTime ≤ fl.truncate (fl.parse (injectionTime prometheus v.metric)).1 &&
              fl.truncate (fl.parse (injectionTime prometheus v.metric)).1 ≤ endTime) := by
          rw [validEvent, hlabels, Bool.true_and]
        rw [hmap, Option.bind_eq_bind, Option.bind_some, chaosTime_eq _ _ _ _ _ _ htext, ← herr, ← hvalid] at h
        dsimp only at h
        have hskip : (errAfter fl prometheus prom columns.err v || (isChaosEvent prom.queryID &&
            !validEvent fl prometheus prom startTime endTime v.metric)) =
              !(prom.readsLabels && !errAfter fl prometheus prom columns.err v &&
                kept fl prometheus prom startTime endTime v) := by
          rw [hlabels, kept]
          simp
        rw [hskip] at h
        cases hrecorded : prom.readsLabels && !errAfter fl prometheus prom columns.err v &&
            kept fl prometheus prom startTime endTime v with
        | false =>
            rw [hrecorded] at h
            obtain ⟨rfl, rfl⟩ := Prod.ext_iff.mp (Option.some.inj h)
            exact ⟨rfl, [], by simp [recorded, hrecorded], by simp⟩
        | true =>
            rw [hrecorded] at h
            obtain ⟨rfl, rfl⟩ := Prod.ext_iff.mp (Option.some.inj h)
            refine ⟨rfl, [_], ?_, rfl⟩
            rw [recorded, hrecorded, if_pos rfl]
            refine .cons ?_ .nil
            rw [subDataOf, hof]
            exact (hvisit keyValueMap).filterMap _
  · have hlabels : prom.readsLabels = false := by
      cases hread : prom.readsLabels
      · rfl
      · exact absurd (by simpa [PromQuery.readsLabels] using hread) hreads
    rw [if_neg hreads] at h
    obtain ⟨rfl, rfl⟩ := Prod.ext_iff.mp (Option.some.inj h)
    refine ⟨by rw [validEvent, hlabels]; rfl, [], by simp [recorded, hlabels], ?_⟩
    simp [errAfter, hlabels]

theorem Adds.of_addSeries (hvisit : ∀ entries, (visit entries).Perm entries) {v : SampleStream F}
    (h : addSeries fl prometheus visit prom queryType startTime endTime columns v = some columns') :
    Adds fl prometheus prom queryType startTime endTime [v] columns columns' := by
  obtain ⟨⟨labelled, eventValid⟩, hlabels, rfl⟩ := Option.map_eq_some_iff.mp h
  obtain ⟨rfl, added, hadded, rfl⟩ := addLabels_spec hvisit hlabels
  have hkept : (!isChaosEvent prom.queryID || validEvent fl prometheus prom startTime endTime v.metric) =
      kept fl prometheus prom startTime endTime v := rfl
  unfold addValues
  dsimp only
  rw [hkept]
  cases hv : kept fl prometheus prom startTime endTime v <;> cases queryType
  case false.metrics => exact ⟨by simp [hv], by simp [metricsTSV], by simp, ⟨added, rfl, hadded⟩, rfl⟩
  case false.annotations => exact ⟨by simp [hv], by simp, by simp [hv], ⟨added, rfl, hadded⟩, rfl⟩
  case true.metrics =>
    exact ⟨by simp [hv, legendOf], by simp [metricsTSV], by simp, ⟨added, rfl, hadded⟩, rfl⟩
  case true.annotations =>
    exact ⟨by simp [hv, legendOf], by simp, by simp [hv, annotationsTSV], ⟨added, rfl, hadded⟩, rfl⟩

theorem Adds.of_foldlM {order : MapOrder} (data : List (SampleStream F × ℕ))
    (h : data.foldlM (fun columns v =>
      addSeries fl prometheus (order.visit v.2) prom queryType startTime endTime columns v.1) columns = some columns') :
    Adds fl prometheus prom queryType startTime endTime (data.map Prod.fst) columns columns' := by
  induction data generalizing columns with
  | nil =>
      obtain rfl := Option.some.inj h
      exact .nil columns
  | cons v rest ih =>
      rw [List.foldlM_cons] at h
      obtain ⟨next, hnext, hrest⟩ := Option.bind_eq_some_iff.mp h
      exact (Adds.of_addSeries (order.perm v.2) hnext).trans (ih hrest)

theorem recorded_sublist (err : Bool) (data : List (SampleStream F)) :
    (recorded fl prometheus prom startTime endTime err data).Sublist
      (data.filter (kept fl prometheus prom startTime endTime)) := by
  induction data generalizing err with
  | nil => exact .slnil
  | cons v rest ih =>
      rw [recorded, List.filter_cons]
      cases hv : kept fl prometheus prom startTime endTime v with
      | false =>
          rw [Bool.and_false]
          exact ih _
      | true =>
          split
          · exact (ih _).cons_cons v
          · exact (ih _).cons v

theorem recorded_length_lt {err : Bool} {v : SampleStream F} (rest : List (SampleStream F))
    (hv : kept fl prometheus prom startTime endTime v = true)
    (hnot : (prom.readsLabels && !errAfter fl prometheus prom err v) = false) :
    (recorded fl prometheus prom startTime endTime err (v :: rest)).length <
      ((v :: rest).filter (kept fl prometheus prom startTime endTime)).length := by
  rw [recorded, hnot, Bool.false_and, if_neg Bool.false_ne_true, List.filter_cons_of_pos hv, List.length_cons]
  exact Nat.lt_succ_of_le (recorded_sublist _ rest).length_le

theorem readable_of_errAfter {err : Bool} {v : SampleStream F} (hreads : prom.readsLabels = true)
    (h : errAfter fl prometheus prom err v = false) : readable fl prometheus v.metric = true := by
  by_cases htext : injectionTime prometheus v.metric = []
  · simp [readable, htext]
  · have hparsed : (fl.parse (injectionTime prometheus v.metric)).2 = false := by
      simpa [errAfter, hreads, htext] using h
    simp [readable, hparsed]

theorem errAfter_of_readable {err : Bool} {v : SampleStream F}
    (herr : err = true → injectionTime prometheus v.metric ≠ []) (hreads : prom.readsLabels = true)
    (h : readable fl prometheus v.metric = true) : errAfter fl prometheus prom err v = false := by
  by_cases htext : injectionTime prometheus v.metric = []
  · have hnone : err = false := by
      cases err
      · rfl
      · exact absurd htext (herr rfl)
    simp [errAfter, htext, hnone]
  · simpa [errAfter, readable, hreads, htext] using h

theorem injectionTime_of_validEvent {metric : Metric}
    (h : validEvent fl prometheus prom startTime endTime metric = true) : injectionTime prometheus metric ≠ [] := by
  simp only [validEvent, Bool.and_eq_true, decide_eq_true_eq] at h
  exact h.1.1.2

/-- An earlier error is harmless for events only. -/
theorem recorded_eq_filter_iff {err : Bool} (herr : err = true → isChaosEvent prom.queryID = true)
    (data : List (SampleStream F)) :
    recorded fl prometheus prom startTime endTime err data =
        data.filter (kept fl prometheus prom startTime endTime) ↔
      ∀ v ∈ data, kept fl prometheus prom startTime endTime v = true →
        prom.readsLabels = true ∧ readable fl prometheus v.metric = true := by
  induction data generalizing err with
  | nil => simp [recorded]
  | cons v rest ih =>
      rw [List.forall_mem_cons]
      cases hv : kept fl prometheus prom startTime endTime v with
      | false =>
          have hevent : isChaosEvent prom.queryID = true := by
            have hboth : isChaosEvent prom.queryID = true ∧
                validEvent fl prometheus prom startTime endTime v.metric = false := by simpa [kept] using hv
            exact hboth.1
          rw [recorded, hv, Bool.and_false, if_neg Bool.false_ne_true, List.filter_cons_of_neg (by simp [hv]),
            ih fun _ => hevent]
          simp
      | true =>
          by_cases hgood : prom.readsLabels = true ∧ errAfter fl prometheus prom err v = false
          · obtain ⟨hreads, hnext⟩ := hgood
            rw [recorded, hreads, hnext, hv, if_pos (show (true && !false && true) = true from rfl),
              List.filter_cons_of_pos hv, List.cons_inj_right, ih (by simp)]
            simp [readable_of_errAfter hreads hnext, hreads]
          · have hnot : (prom.readsLabels && !errAfter fl prometheus prom err v) = false := by
              by_contra hpos
              exact hgood (by simpa using hpos)
            have hlt := recorded_length_lt rest hv hnot
            refine iff_of_false (fun heq => absurd (congrArg List.length heq) (by omega)) ?_
            rintro ⟨hfirst, -⟩
            obtain ⟨hreads, hreadable⟩ := hfirst rfl
            refine hgood ⟨hreads, errAfter_of_readable (fun hearlier => ?_) hreads hreadable⟩
            have hvalid : validEvent fl prometheus prom startTime endTime v.metric = true := by
              simpa [kept, herr hearlier] using hv
            exact injectionTime_of_validEvent hvalid

end Loop

/-! ### Alignment -/

section Answer

variable (fl : Float64 F) (prometheus : Client F) (prom : PromQuery) (startTime endTime : Int)

/-- The entries of the answer describe these series, one after the other. -/
def PromResponse.Describes (series : List (SampleStream F)) : PromResponse F → Prop
  | .metrics response =>
      response.legends = series.map (legendOf prometheus prom) ∧ response.tsvs = series.map (metricsTSV fl)
  | .annotations response =>
      response.legends = series.map (legendOf prometheus prom) ∧ response.tsvs = series.map (annotationsTSV fl) ∧
        series.Forall₂ (fun v data => data.Perm (subDataOf fl prometheus prom v)) response.subDataArray

def PromResponse.Aligned (data : List (SampleStream F)) (response : PromResponse F) : Prop :=
  ∃ series : List (SampleStream F), series.Sublist data ∧ response.Describes fl prometheus prom series

/-- Values are always kept, and the other slices must have kept all too; an answer without legends is empty. Sub-data is
there when the labels of the series are read and their times make sense. -/
def AlignsOn (data : List (SampleStream F)) : QueryType → Prop
  | .metrics =>
      (∀ v ∈ data, kept fl prometheus prom startTime endTime v = true) ∨
        ∀ v ∈ data, kept fl prometheus prom startTime endTime v = false
  | .annotations =>
      ∀ v ∈ data, kept fl prometheus prom startTime endTime v = true →
        prom.readsLabels = true ∧ readable fl prometheus v.metric = true

end Answer

variable {fl : Float64 F} {prometheus : Client F} {prom : PromQuery} {startTime endTime : Int}
  {data : List (SampleStream F)} {columns : Columns F}

theorem aligned_metrics_iff (h : Adds fl prometheus prom .metrics startTime endTime data {} columns) :
    (columns.response prom .metrics).Aligned fl prometheus prom data ↔
      AlignsOn fl prometheus prom startTime endTime data .metrics := by
  have hlegends := h.legends
  have hvalues := h.metricsTSVs rfl
  rw [List.nil_append] at hlegends hvalues
  unfold Columns.response
  dsimp only
  by_cases hnone : columns.legends = []
  · rw [if_pos hnone]
    have hfilter := List.map_eq_nil_iff.mp (hlegends.symm.trans hnone)
    refine iff_of_true ⟨[], List.nil_sublist data, rfl, rfl⟩ (.inr fun v hv => ?_)
    simpa using List.filter_eq_nil_iff.mp hfilter v hv
  · rw [if_neg hnone]
    constructor
    · rintro ⟨series, -, hseries, hvalued⟩
      have hlength := congrArg List.length (hseries.symm.trans hlegends)
      have hlength' := congrArg List.length (hvalued.symm.trans hvalues)
      simp only [List.length_map] at hlength hlength'
      have hall : data.filter (kept fl prometheus prom startTime endTime) = data :=
        List.filter_sublist.eq_of_length (by omega)
      exact .inl (List.filter_eq_self.mp hall)
    · rintro (hall | hall)
      · rw [List.filter_eq_self.mpr hall] at hlegends
        exact ⟨data, .refl data, hlegends, hvalues⟩
      · have hfilter : data.filter (kept fl prometheus prom startTime endTime) = [] :=
          List.filter_eq_nil_iff.mpr fun v hv => by simp [hall v hv]
        rw [hfilter] at hlegends
        exact absurd hlegends hnone

theorem aligned_annotations_iff (h : Adds fl prometheus prom .annotations startTime endTime data {} columns) :
    (columns.response prom .annotations).Aligned fl prometheus prom data ↔
      AlignsOn fl prometheus prom startTime endTime data .annotations := by
  have hlegends := h.legends
  have hvalues := h.annotationsTSVs rfl
  obtain ⟨added, hadded, hdata⟩ := h.subDataArray
  rw [List.nil_append] at hlegends hvalues hadded
  have hearlier : false = true → isChaosEvent prom.queryID = true := nofun
  rw [AlignsOn, ← recorded_eq_filter_iff hearlier]
  constructor
  · rintro ⟨series, -, hseries, -, hsub⟩
    have hlength := congrArg List.length (hseries.symm.trans hlegends)
    have hlength' := hsub.length_eq
    have hlength'' := hdata.length_eq
    have harray := congrArg List.length hadded
    simp only [List.length_map] at hlength
    exact (recorded_sublist false data).eq_of_length (by dsimp only at *; omega)
  · intro hall
    rw [hall] at hdata
    exact ⟨_, List.filter_sublist, hlegends, hvalues, hadded ▸ hdata⟩

/-- The answer to a query is aligned on just these matrices. -/
theorem query_aligned_iff {order : MapOrder} {queryType : QueryType} {value : Option (List (SampleStream F))}
    {response : PromResponse F} (hstart : atoi prom.dsDetails.start = some startTime)
    (hend : atoi prom.dsDetails.endTime = some endTime)
    (hrange : prometheus.queryRange prom.dsDetails.url prom.query startTime endTime prom.step = some value)
    (hquery : prometheus.query fl order prom queryType = .ok response) :
    response.Aligned fl prometheus prom (value.getD []) ↔
      AlignsOn fl prometheus prom startTime endTime (value.getD []) queryType := by
  unfold Client.query at hquery
  by_cases hclient : prometheus.newClient prom.dsDetails.url = false
  · rw [if_pos hclient] at hquery
    cases hquery
  rw [if_neg hclient, hstart, hend] at hquery
  dsimp only at hquery
  rw [hrange] at hquery
  dsimp only at hquery
  split at hquery
  · cases hquery
  · rename_i columns hloop
    obtain rfl := QueryResult.ok.inj hquery
    have hadds := Adds.of_foldlM _ hloop
    rw [List.zipIdx_map_fst] at hadds
    cases queryType with
    | metrics => exact aligned_metrics_iff hadds
    | annotations => exact aligned_annotations_iff hadds

def wholeSeconds : Float64 Int where
  ofInt n := n
  nonneg n := 0 ≤ n
  zero := 0
  thousandfold n := n * 1000
  truncate n := n
  parse text :=
    if text ≠ [] ∧ text.all (fun byte => 48 ≤ byte && byte ≤ 57) then
      (text.foldl (fun n byte => 10 * n + (byte.toNat - 48)) 0, false)
    else (0, true)

/-- An experiment with an injection time. -/
def resultSeries (injected : String) : SampleStream Int where
  metric := [("__name__", "litmuschaos_experiment_verdict"), ("chaos_injection_time", injected),
    ("chaosresult_name", "pod-delete")]
  values := [⟨30, 1⟩]

def resultClient (injected : String) : Client Int where
  newClient _ := true
  queryRange _ _ _ _ _ := some (some [resultSeries injected])
  metricString metric := metric.value "__name__" ++ "\x7bchaos_injection_time=\"" ++
    metric.value "chaos_injection_time" ++ "\", chaosresult_name=\"" ++ metric.value "chaosresult_name" ++ "\"\x7d"

def resultQuery (queryID : String) : PromQuery where
  queryID := queryID
  query := "litmuschaos_experiment_verdict"
  legend := some "\x7b\x7bchaosresult_name\x7d\x7d"
  resolution := none
  minstep := 5
  dsDetails := ⟨"http://prometheus:9090", "0", "60"⟩

theorem query_aligned_iff_event :
    (PromResponse.annotations ⟨"chaos-event-1", ["pod-delete"], [[(30, 1)]], [[]]⟩).Aligned wholeSeconds
        (resultClient "20") (resultQuery "chaos-event-1") [resultSeries "20"] ↔
      AlignsOn wholeSeconds (resultClient "20") (resultQuery "chaos-event-1") 0 60 [resultSeries "20"]
        .annotations := by
  have hquery : (resultClient "20").query wholeSeconds .asFilled (resultQuery "chaos-event-1") .annotations =
      .ok (.annotations ⟨"chaos-event-1", ["pod-delete"], [[(30, 1)]], [[]]⟩) := by decide +kernel
  have hrange : (resultClient "20").queryRange "http://prometheus:9090" "litmuschaos_experiment_verdict" 0 60
      (resultQuery "chaos-event-1").step = some (some [resultSeries "20"]) := rfl
  exact query_aligned_iff (by decide +kernel) (by decide +kernel) hrange hquery

/-- A verdict without a time that makes sense has a legend and values, and no sub-data. -/
theorem not_query_aligned : ∃ response,
    (resultClient "unknown").query wholeSeconds .asFilled (resultQuery "chaos-verdict-1") .annotations =
        .ok response ∧
      ¬ response.Aligned wholeSeconds (resultClient "unknown") (resultQuery "chaos-verdict-1")
        [resultSeries "unknown"] := by
  refine ⟨.annotations ⟨"chaos-verdict-1", ["pod-delete"], [[(30, 1)]], []⟩, by decide +kernel, ?_⟩
  rintro ⟨series, -, hlegends, -, hdata⟩
  obtain rfl := List.forall₂_nil_right_iff.mp hdata
  cases hlegends

end LitmusPortal.Prometheus
