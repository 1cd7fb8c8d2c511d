import LitmusPortal.Lib.GoStrings
import Mathlib.Data.List.Perm.Basic

/-!
# Queries to Prometheus

`prometheus.Query` of the analytics package: the request for a range, and the answer that is built from the series.
The client library, the arithmetic of `float64` and the order in which a map is ranged over are parameters.
-/

namespace LitmusPortal.Prometheus

open GoStrings

/-- `float64`, as far as the code uses it. `parse` is `strconv.ParseFloat`, which returns a number also with an
error. -/
structure Float64 (F : Type) where
  ofInt : Int → F
  nonneg : F → Bool
  zero : F
  thousandfold : F → F
  truncate : F → Int
  parse : List UInt8 → F × Bool

abbrev Metric := List (String × String)

def Metric.value (metric : Metric) (label : String) : String := (metric.lookup label).getD ""

structure SamplePair (F : Type) where
  timestamp : Int
  value : F
  deriving DecidableEq, Repr

structure SampleStream (F : Type) where
  metric : Metric
  values : List (SamplePair F)
  deriving DecidableEq, Repr

/-- The client library on a Prometheus with its data. A range query that is answered with something else than a
matrix is `some none`. -/
structure Client (F : Type) where
  newClient : String → Bool
  queryRange : String → String → Int → Int → Int → Option (Option (List (SampleStream F)))
  metricString : Metric → String

/-! ## Requests and answers -/

structure DsDetails where
  url : String
  start : String
  endTime : String
  deriving DecidableEq, Repr

structure PromQuery where
  queryID : String
  query : String
  legend : Option String
  resolution : Option String
  minstep : Int64
  dsDetails : DsDetails
  deriving DecidableEq, Repr

inductive QueryType where
  | metrics
  | annotations
  deriving DecidableEq, Repr

structure SubData (F : Type) where
  date : F
  value : List UInt8
  subDataName : String
  deriving DecidableEq, Repr

structure MetricsPromResponse (F : Type) where
  queryID : String := ""
  legends : List String := []
  tsvs : List (List (F × F)) := []
  deriving DecidableEq, Repr

structure AnnotationsPromResponse (F : Type) where
  queryID : String := ""
  legends : List String := []
  tsvs : List (List (F × Int)) := []
  subDataArray : List (List (SubData F)) := []
  deriving DecidableEq, Repr

inductive PromResponse (F : Type) where
  | metrics (response : MetricsPromResponse F)
  | annotations (response : AnnotationsPromResponse F)
  deriving DecidableEq, Repr

def isChaosEvent (queryID : String) : Bool := contains queryID "chaos-event"

def isChaosVerdict (queryID : String) : Bool := contains queryID "chaos-verdict"

/-! ## The labels of a series -/

/-- `utils.Split`: what stands between the first occurrences of two characters. -/
def split (str : String) (before after : Char) : String :=
  let rest := match str.toList.dropWhile (· ≠ before) with
    | [] => str.toList
    | _ :: rest => rest
  String.ofList (rest.takeWhile (· ≠ after))

/-- The range table `unicode.Quotation_Mark`. -/
def isQuotationMark (c : Char) : Bool :=
  c ∈ ['"', '\u0027', '«', '»', '‹', '›', '⹂', '〝', '〞', '〟', '＂', '＇', '｢', '｣'] ||
    ('\u2018' ≤ c && c ≤ '\u201F') || ('\u300C' ≤ c && c ≤ '\u300F') || ('\uFE41' ≤ c && c ≤ '\uFE44')

def isSpace (c : Char) : Bool :=
  c ∈ ['\t', '\n', '\u000B', '\u000C', '\r', ' ', '\u0085', '\u00A0', '\u1680', '\u2028', '\u2029', '\u202F',
    '\u205F', '\u3000'] || ('\u2000' ≤ c && c ≤ '\u200A')

/-- `strings.FieldsFunc` with the closure that remembers the quotation mark a quoted part began with. -/
def quotedFields (lastQuote : Char) (field : List Char) : List Char → List (List Char)
  | [] => if field = [] then [] else [field]
  | c :: rest =>
      if c = lastQuote then quotedFields '\u0000' (field ++ [c]) rest
      else if lastQuote ≠ '\u0000' then quotedFields lastQuote (field ++ [c]) rest
      else if isQuotationMark c then quotedFields c (field ++ [c]) rest
      else if isSpace c then
        if field = [] then quotedFields lastQuote [] rest
        else field :: quotedFields lastQuote [] rest
      else quotedFields lastQuote (field ++ [c]) rest

/-- The entry of an item: its key, and the bytes of its value without the first and the last two. -/
def keyValue (item : List Char) : Option (String × List UInt8) :=
  match splitAt (· = '=') (String.ofList item) with
  | key :: value :: _ =>
      let bytes := value.toByteArray.data.toList
      if 3 ≤ bytes.length then some (key, (bytes.drop 1).take (bytes.length - 3)) else none
  | _ => none

/-- `utils.GetKeyValueMapFromQuotedString`. An item without a value is a panic. -/
def getKeyValueMapFromQuotedString (quotedString : String) : Option (List (String × List UInt8)) := do
  let items ← (quotedFields '\u0000' [] quotedString.toList).mapM keyValue
  return items.foldl (fun entries item => entries.filter (fun entry => entry.1 ≠ item.1) ++ [item]) []

/-! ## The legend of a series -/

/-- Up to and with the first `}}` of the line. -/
def untilClosed : List Char → Option (List Char)
  | '}' :: '}' :: _ => some ['}', '}']
  | '\n' :: _ => none
  | c :: rest => (untilClosed rest).map (c :: ·)
  | [] => none

/-- `FindAllString` for the expression of the templates. `skip` counts what is left of a match. -/
def findTemplates : Nat → List Char → List String
  | _, [] => []
  | skip + 1, _ :: rest => findTemplates skip rest
  | 0, c :: rest =>
      match c, rest with
      | '{', '{' :: body =>
          match untilClosed body with
          | some element => String.ofList ('{' :: '{' :: element) :: findTemplates (element.length + 1) rest
          | none => findTemplates 0 rest
      | _, _ => findTemplates 0 rest

/-- A template is replaced by the value of its label, and where there is none by the name of the label. -/
def fillTemplate (metric : Metric) (filterResponse element : String) : String :=
  let tmpElement := trim (trim element "\x7b") "\x7d"
  let value := metric.value tmpElement
  let filterResponse := if value = "" then replaceAll filterResponse element tmpElement else filterResponse
  replaceAll filterResponse element value

def fillLegend (metric : Metric) (legend : String) : String :=
  (findTemplates 0 legend.toList).foldl (fillTemplate metric) legend

/-! ## The answer -/

def chaosEventLabels : List (String × String) :=
  [("workflow_name", "Workflow"), ("chaosengine_context", "Engine context")]

def chaosVerdictLabels : List (String × String) :=
  [("workflow_name", "Workflow"), ("chaosengine_context", "Engine context"), ("app_namespace", "App namespace"),
    ("app_label", "App label"), ("app_kind", "App kind"), ("chaosresult_verdict", "Experiment verdict"),
    ("probe_success_percentage", "Probe success percentage")]

structure MapOrder where
  visit : Nat → List (String × List UInt8) → List (String × List UInt8)
  perm : ∀ n entries, (visit n entries).Perm entries

def MapOrder.asFilled : MapOrder := ⟨fun _ entries => entries, fun _ _ => .refl _⟩

/-- The slices the loop over the series appends to, and whether the last number was not one. -/
structure Columns (F : Type) where
  legends : List String := []
  metricsTSVs : List (List (F × F)) := []
  annotationsTSVs : List (List (F × Int)) := []
  subDataArray : List (List (SubData F)) := []
  err : Bool := false

variable {F : Type} (fl : Float64 F)

/-- The time of the injection, whether it could not be read, and whether it makes a valid event. Without a time an
earlier error stands. -/
def chaosTime (isEvent : Bool) (startTime endTime : Int) (err : Bool) (keyValueMap : List (String × List UInt8)) :
    F × Bool × Bool :=
  match (keyValueMap.lookup "chaos_injection_time").getD [] with
  | [] => (fl.zero, err, false)
  | text =>
      let timeStampInteger := fl.truncate (fl.parse text).1
      ((fl.parse text).1, (fl.parse text).2,
        isEvent && startTime ≤ timeStampInteger && timeStampInteger ≤ endTime)

def orZero (value : F) (result : F) : F := if fl.nonneg value then result else fl.zero

def subData (checkMap : List (String × String)) (timeStamp : F) (entries : List (String × List UInt8)) :
    List (SubData F) :=
  entries.filterMap fun entry => (checkMap.lookup entry.1).map fun nameVal =>
    { date := orZero fl timeStamp (fl.thousandfold timeStamp), value := entry.2, subDataName := nameVal }

/-- What the labels of a chaos series add, with whether it is a valid event. -/
def addChaosLabels (prometheus : Client F) (visit : List (String × List UInt8) → List (String × List UInt8))
    (queryID : String) (startTime endTime : Int) (columns : Columns F) (metric : Metric) :
    Option (Columns F × Bool) := do
  let keyValueMap ← getKeyValueMapFromQuotedString (split (prometheus.metricString metric) '\x7b' '\x7d')
  let (timeStamp, err, eventValid) :=
    chaosTime fl (isChaosEvent queryID) startTime endTime columns.err keyValueMap
  let checkMap := if isChaosEvent queryID then chaosEventLabels else chaosVerdictLabels
  if err || (isChaosEvent queryID && !eventValid) then return ({ columns with err := err }, eventValid)
  else
    return ({ columns with
      err := err
      subDataArray := columns.subDataArray ++ [subData fl checkMap timeStamp (visit keyValueMap)] }, eventValid)

/-- The legend and the values of a series. An event that is not valid is left out of an annotation. -/
def addValues (prometheus : Client F) (prom : PromQuery) (queryType : QueryType) (v : SampleStream F)
    (columns : Columns F) (eventValid : Bool) : Columns F :=
  let legend := prom.legend.getD ""
  let tempLegend := if legend = "" then prometheus.metricString v.metric else fillLegend v.metric legend
  let kept := !isChaosEvent prom.queryID || eventValid
  let columns := if kept then { columns with legends := columns.legends ++ [tempLegend] } else columns
  match queryType with
  | .metrics =>
      { columns with
        metricsTSVs := columns.metricsTSVs ++ [v.values.map fun value =>
          (orZero fl (fl.ofInt value.timestamp) (fl.ofInt value.timestamp), orZero fl value.value value.value)] }
  | .annotations =>
      if kept then
        { columns with
          annotationsTSVs := columns.annotationsTSVs ++ [v.values.map fun value =>
            (orZero fl (fl.ofInt value.timestamp) (fl.ofInt value.timestamp),
              if 0 ≤ fl.truncate value.value then fl.truncate value.value else 0)] }
      else columns

/-- The sub-data of a series: only chaos queries with a legend have some. -/
def addLabels (prometheus : Client F) (visit : List (String × List UInt8) → List (String × List UInt8))
    (prom : PromQuery) (startTime endTime : Int) (columns : Columns F) (metric : Metric) : Option (Columns F × Bool) :=
  if prom.legend.getD "" ≠ "" ∧ (isChaosEvent prom.queryID || isChaosVerdict prom.queryID) = true then
    addChaosLabels fl prometheus visit prom.queryID startTime endTime columns metric
  else some (columns, false)

/-- One round of the loop over the series. -/
def addSeries (prometheus : Client F) (visit : List (String × List UInt8) → List (String × List UInt8))
    (prom : PromQuery) (queryType : QueryType) (startTime endTime : Int) (columns : Columns F)
    (v : SampleStream F) : Option (Columns F) :=
  (addLabels fl prometheus visit prom startTime endTime columns v.metric).map fun labelled =>
    addValues fl prometheus prom queryType v labelled.1 labelled.2

inductive QueryResult (F : Type) where
  | panics
  | failed
  | ok (response : PromResponse F)
  deriving DecidableEq, Repr

def Columns.response (prom : PromQuery) (columns : Columns F) : QueryType → PromResponse F
  | .metrics =>
      if columns.legends = [] then .metrics {}
      else .metrics { queryID := prom.queryID, legends := columns.legends, tsvs := columns.metricsTSVs }
  | .annotations =>
      .annotations {
        queryID := prom.queryID
        legends := columns.legends
        tsvs := columns.annotationsTSVs
        subDataArray := columns.subDataArray }

/-- `time.Duration(int64(prom.Minstep)) * time.Second`, in nanoseconds. -/
def PromQuery.step (prom : PromQuery) : Int := (prom.minstep * 1000000000).toInt

/-- `prometheus.Query`. An answer that is no matrix is taken for one without series. -/
def Client.query (prometheus : Client F) (order : MapOrder) (prom : PromQuery) (queryType : QueryType) :
    QueryResult F :=
  if prometheus.newClient prom.dsDetails.url = false then .failed
  else
    match atoi prom.dsDetails.start, atoi prom.dsDetails.endTime with
    | some startTime, some endTime =>
        match prometheus.queryRange prom.dsDetails.url prom.query startTime endTime prom.step with
        | none => .failed
        | some value =>
            match (value.getD []).zipIdx.foldlM (fun columns v =>
              addSeries fl prometheus (order.visit v.2) prom queryType startTime endTime columns v.1) {} with
            | none => .panics
            | some columns => .ok (columns.response prom queryType)
    | _, _ => .failed

/-! ## The order of the labels

Two calls may range over the labels of a series in different orders. They answer alike up to the order of the data
under each legend. -/

/-- Equal but for the order of the data under each legend. -/
def PromResponse.Same : PromResponse F → PromResponse F → Prop
  | .metrics response, .metrics response' => response = response'
  | .annotations response, .annotations response' =>
      response.queryID = response'.queryID ∧ response.legends = response'.legends ∧
        response.tsvs = response'.tsvs ∧ response.subDataArray.Forall₂ List.Perm response'.subDataArray
  | _, _ => False

structure Columns.Agree (columns columns' : Columns F) : Prop where
  legends : columns.legends = columns'.legends
  metricsTSVs : columns.metricsTSVs = columns'.metricsTSVs
  annotationsTSVs : columns.annotationsTSVs = columns'.annotationsTSVs
  err : columns.err = columns'.err
  subDataArray : columns.subDataArray.Forall₂ List.Perm columns'.subDataArray

variable {fl} {prometheus : Client F} {columns columns' : Columns F}
  {visit visit' : List (String × List UInt8) → List (String × List UInt8)} {prom : PromQuery}

theorem Columns.Agree.refl (columns : Columns F) : columns.Agree columns :=
  ⟨rfl, rfl, rfl, rfl, List.forall₂_same.mpr fun _ _ => .refl _⟩

theorem addChaosLabels_agree (hvisit : ∀ entries, (visit entries).Perm (visit' entries))
    (hcolumns : columns.Agree columns') (queryID : String) (startTime endTime : Int) (metric : Metric) :
    Option.Rel (fun result result' => result.1.Agree result'.1 ∧ result.2 = result'.2)
      (addChaosLabels fl prometheus visit queryID startTime endTime columns metric)
      (addChaosLabels fl prometheus visit' queryID startTime endTime columns' metric) := by
  unfold addChaosLabels
  rw [hcolumns.err]
  cases getKeyValueMapFromQuotedString (split (prometheus.metricString metric) '\x7b' '\x7d') with
  | none => exact .none
  | some keyValueMap =>
      simp only [Option.bind_eq_bind, Option.bind_some]
      generalize chaosTime fl (isChaosEvent queryID) startTime endTime columns'.err keyValueMap = time
      obtain ⟨timeStamp, err, eventValid⟩ := time
      by_cases hskip : (err || (isChaosEvent queryID && !eventValid)) = true
      · simp only [hskip, ↓reduceIte]
        exact .some ⟨{ hcolumns with err := rfl }, rfl⟩
      · simp only [hskip, Bool.false_eq_true, ↓reduceIte]
        have hdata : (subData fl (if isChaosEvent queryID then chaosEventLabels else chaosVerdictLabels) timeStamp
            (visit keyValueMap)).Perm (subData fl
              (if isChaosEvent queryID then chaosEventLabels else chaosVerdictLabels) timeStamp
              (visit' keyValueMap)) := (hvisit keyValueMap).filterMap _
        have happended := List.rel_append hcolumns.subDataArray (List.Forall₂.cons hdata .nil)
        exact .some ⟨{ hcolumns with err := rfl, subDataArray := happended }, rfl⟩

theorem addValues_agree (hcolumns : columns.Agree columns') (queryType : QueryType) (v : SampleStream F)
    (eventValid : Bool) :
    (addValues fl prometheus prom queryType v columns eventValid).Agree
      (addValues fl prometheus prom queryType v columns' eventValid) := by
  obtain ⟨hlegends, hmetrics, hannotations, herr, hdata⟩ := hcolumns
  unfold addValues
  cases hkept : !isChaosEvent prom.queryID || eventValid <;> cases queryType <;>
    constructor <;> simp [hlegends, hmetrics, hannotations, herr, hdata]

theorem addLabels_agree (fl : Float64 F) (prometheus : Client F) (prom : PromQuery)
    (hvisit : ∀ entries, (visit entries).Perm (visit' entries))
    (hcolumns : columns.Agree columns') (startTime endTime : Int) (metric : Metric) :
    Option.Rel (fun result result' => result.1.Agree result'.1 ∧ result.2 = result'.2)
      (addLabels fl prometheus visit prom startTime endTime columns metric)
      (addLabels fl prometheus visit' prom startTime endTime columns' metric) := by
  unfold addLabels
  split
  · exact addChaosLabels_agree hvisit hcolumns _ _ _ _
  · exact .some ⟨hcolumns, rfl⟩

theorem addSeries_agree (fl : Float64 F) (prometheus : Client F) (prom : PromQuery)
    (hvisit : ∀ entries, (visit entries).Perm (visit' entries))
    (hcolumns : columns.Agree columns') (queryType : QueryType) (startTime endTime : Int) (v : SampleStream F) :
    Option.Rel Columns.Agree (addSeries fl prometheus visit prom queryType startTime endTime columns v)
      (addSeries fl prometheus visit' prom queryType startTime endTime columns' v) := by
  have hlabels := addLabels_agree fl prometheus prom hvisit hcolumns startTime endTime v.metric
  unfold addSeries
  revert hlabels
  generalize addLabels fl prometheus visit prom startTime endTime columns v.metric = result
  generalize addLabels fl prometheus visit' prom startTime endTime columns' v.metric = result'
  intro hlabels
  cases hlabels with
  | none => exact .none
  | some hpair =>
      obtain ⟨hcolumns, hvalid⟩ := hpair
      rw [Option.map_some, Option.map_some, hvalid]
      exact .some (addValues_agree hcolumns queryType v _)

theorem foldlM_agree {α : Type} {add add' : Columns F → α → Option (Columns F)}
    (hadd : ∀ columns columns' v, columns.Agree columns' → Option.Rel Columns.Agree (add columns v) (add' columns' v))
    (series : List α) (hcolumns : columns.Agree columns') :
    Option.Rel Columns.Agree (series.foldlM add columns) (series.foldlM add' columns') := by
  induction series generalizing columns columns' with
  | nil => exact .some hcolumns
  | cons v rest ih =>
      rw [List.foldlM_cons, List.foldlM_cons]
      have hv := hadd columns columns' v hcolumns
      revert hv
      generalize add columns v = next
      generalize add' columns' v = next'
      intro hv
      cases hv with
      | none => exact .none
      | some hnext => exact ih hnext

theorem Columns.Agree.response (h : columns.Agree columns') (queryType : QueryType) :
    (columns.response prom queryType).Same (columns'.response prom queryType) := by
  cases queryType with
  | metrics =>
      unfold Columns.response
      rw [h.legends, h.metricsTSVs]
      by_cases hnone : columns'.legends = []
      · rw [if_pos hnone]
        rfl
      · rw [if_neg hnone]
        rfl
  | annotations => exact ⟨rfl, h.legends, h.annotationsTSVs, h.subDataArray⟩

def QueryResult.Same : QueryResult F → QueryResult F → Prop
  | .panics, .panics => True
  | .failed, .failed => True
  | .ok response, .ok response' => response.Same response'
  | _, _ => False

theorem query_order (fl : Float64 F) (prometheus : Client F) (order order' : MapOrder) (prom : PromQuery) (queryType : QueryType) :
    (prometheus.query fl order prom queryType).Same (prometheus.query fl order' prom queryType) := by
  unfold Client.query
  by_cases hclient : prometheus.newClient prom.dsDetails.url = false
  · rw [if_pos hclient, if_pos hclient]
    trivial
  · rw [if_neg hclient, if_neg hclient]
    cases atoi prom.dsDetails.start with
    | none => trivial
    | some startTime =>
        cases atoi prom.dsDetails.endTime with
        | none => trivial
        | some endTime =>
            dsimp only
            cases prometheus.queryRange prom.dsDetails.url prom.query startTime endTime prom.step with
            | none => trivial
            | some value =>
                have hloop := foldlM_agree (F := F) (fun columns columns' (v : SampleStream F × Nat) hcolumns =>
                  addSeries_agree fl prometheus prom
                    (fun entries => (order.perm v.2 entries).trans (order'.perm v.2 entries).symm)
                    hcolumns queryType startTime endTime v.1)
                  (value.getD []).zipIdx (Columns.Agree.refl {})
                revert hloop
                dsimp only
                generalize (value.getD []).zipIdx.foldlM (fun columns v =>
                  addSeries fl prometheus (order.visit v.2) prom queryType startTime endTime columns v.1) {} = loop
                generalize (value.getD []).zipIdx.foldlM (fun columns v =>
                  addSeries fl prometheus (order'.visit v.2) prom queryType startTime endTime columns v.1) {} = loop'
                intro hloop
                cases hloop with
                | none => trivial
                | some hcolumns => exact hcolumns.response queryType

/-! ## What a query asks for -/

/-- Equal in all that the query reads. A missing legend is read as an empty one. -/
structure PromQuery.AsksTheSame (prom prom' : PromQuery) : Prop where
  queryID : prom.queryID = prom'.queryID
  query : prom.query = prom'.query
  legend : prom.legend.getD "" = prom'.legend.getD ""
  minstep : prom.minstep = prom'.minstep
  dsDetails : prom.dsDetails = prom'.dsDetails

instance (prom prom' : PromQuery) : Decidable (prom.AsksTheSame prom') :=
  decidable_of_iff (prom.queryID = prom'.queryID ∧ prom.query = prom'.query ∧
      prom.legend.getD "" = prom'.legend.getD "" ∧ prom.minstep = prom'.minstep ∧
      prom.dsDetails = prom'.dsDetails)
    ⟨fun ⟨h₁, h₂, h₃, h₄, h₅⟩ => ⟨h₁, h₂, h₃, h₄, h₅⟩, fun h => ⟨h.1, h.2, h.3, h.4, h.5⟩⟩

theorem query_congr {prom' : PromQuery} (h : prom.AsksTheSame prom') (order : MapOrder) (queryType : QueryType) :
    prometheus.query fl order prom queryType = prometheus.query fl order prom' queryType := by
  have hseries : ∀ visit startTime endTime columns v,
      addSeries fl prometheus visit prom queryType startTime endTime columns v =
        addSeries fl prometheus visit prom' queryType startTime endTime columns v := by
    intro visit startTime endTime columns v
    simp only [addSeries, addLabels, addValues, h.queryID, h.legend]
  have hresponse : Columns.response (F := F) prom = Columns.response prom' := by
    funext columns queryType
    cases queryType <;> simp only [Columns.response, h.queryID]
  have hstep : prom.step = prom'.step := by
    rw [PromQuery.step, h.minstep, PromQuery.step]
  simp only [Client.query, hseries, hresponse, hstep, h.query, h.dsDetails]

theorem exists_columns_of_query {order : MapOrder} {queryType : QueryType} {response : PromResponse F}
    (h : prometheus.query fl order prom queryType = .ok response) :
    ∃ columns : Columns F, response = columns.response prom queryType := by
  unfold Client.query at h
  by_cases hclient : prometheus.newClient prom.dsDetails.url = false
  · rw [if_pos hclient] at h
    cases h
  · rw [if_neg hclient] at h
    split at h
    · split at h
      · cases h
      · split at h
        · cases h
        · exact ⟨_, (QueryResult.ok.inj h).symm⟩
    · cases h

theorem queryID_of_query_annotations {order : MapOrder} {response : PromResponse F}
    (h : prometheus.query fl order prom .annotations = .ok response) :
    ∃ annotations, response = .annotations annotations ∧ annotations.queryID = prom.queryID := by
  obtain ⟨columns, rfl⟩ := exists_columns_of_query h
  exact ⟨_, rfl, rfl⟩

theorem metrics_of_query_metrics {order : MapOrder} {response : PromResponse F}
    (h : prometheus.query fl order prom .metrics = .ok response) : ∃ metrics, response = .metrics metrics := by
  obtain ⟨columns, rfl⟩ := exists_columns_of_query h
  unfold Columns.response
  by_cases hnone : columns.legends = []
  · exact ⟨_, if_pos hnone⟩
  · exact ⟨_, if_neg hnone⟩

end LitmusPortal.Prometheus
