import LitmusPortal.Analytics.Prometheus
import LitmusPortal.Lib.ObjectCache
import LitmusPortal.Lib.Transition

/-!
# The cache of Prometheus answers

`GetPrometheusData` runs a goroutine for each query. It looks up a key made of some fields of the query, and on a miss
asks Prometheus and keeps the answer. Requests come one after the other; their goroutines interleave, and an entry may
expire at any time.
-/

namespace LitmusPortal.Prometheus

open Transition

structure PromQueryInput where
  queryID : String
  query : String
  legend : Option String
  resolution : Option String
  minstep : Int64
  deriving DecidableEq, Repr

structure PrometheusDataRequest where
  queries : List PromQueryInput
  dsDetails : DsDetails
  deriving DecidableEq, Repr

def newPromQuery (dsDetails : DsDetails) (val : PromQueryInput) : PromQuery :=
  { queryID := val.queryID
    query := val.query
    legend := val.legend
    resolution := val.resolution
    minstep := val.minstep
    dsDetails := dsDetails }

def PromQueryInput.queryType (val : PromQueryInput) : QueryType :=
  if isChaosEvent val.queryID || isChaosVerdict val.queryID then .annotations else .metrics

def annotationKey (dsDetails : DsDetails) (queryID : String) : String :=
  queryID ++ "-" ++ dsDetails.start ++ "-" ++ dsDetails.endTime ++ "-" ++ dsDetails.url

def cacheKey (dsDetails : DsDetails) (val : PromQueryInput) : String :=
  match val.queryType with
  | .metrics => val.query ++ "-" ++ dsDetails.start ++ "-" ++ dsDetails.endTime ++ "-" ++ dsDetails.url
  | .annotations => annotationKey dsDetails val.queryID

/-! ## Answers -/

/-- What a goroutine hands to its request. -/
inductive Answer (F : Type) where
  | nothing
  | metrics (response : MetricsPromResponse F)
  | event (response : AnnotationsPromResponse F)
  | verdict (response : AnnotationsPromResponse F)
  deriving DecidableEq, Repr

/-- The answer by a cached object. An object of the wrong type is a panic. -/
def fromCache {F : Type} (val : PromQueryInput) (object : PromResponse F) : Option (Answer F) :=
  match val.queryType, object with
  | .metrics, .metrics response => some (.metrics response)
  | .metrics, .annotations _ => none
  | .annotations, object =>
      if isChaosEvent val.queryID then
        match object with
        | .annotations response => some (.event response)
        | .metrics _ => none
      else some .nothing

/-- The answer by what Prometheus says. -/
def fromPrometheus {F : Type} (val : PromQueryInput) (response : PromResponse F) : Option (Answer F) :=
  match val.queryType, response with
  | .metrics, .metrics response => some (.metrics response)
  | .annotations, .annotations response =>
      if isChaosEvent val.queryID then some (.event response)
      else if isChaosVerdict val.queryID then some (.verdict response)
      else some .nothing
  | _, _ => none

/-- The answer to a query for a verdict is not kept. -/
def PromQueryInput.isKept (val : PromQueryInput) : Bool :=
  val.queryType = .metrics || isChaosEvent val.queryID

variable {F : Type} (fl : Float64 F) (prometheus : Client F)

/-- The answer without a cache. A panic is `none`. -/
def uncachedAnswer (order : MapOrder) (dsDetails : DsDetails) (val : PromQueryInput) : Option (Answer F) :=
  match prometheus.query fl order (newPromQuery dsDetails val) val.queryType with
  | .panics => none
  | .failed => some .nothing
  | .ok response => fromPrometheus val response

/-- Equal but for the order of the data under each legend. -/
def Answer.Same : Answer F → Answer F → Prop
  | .nothing, .nothing => True
  | .metrics response, .metrics response' => (PromResponse.metrics response).Same (.metrics response')
  | .event response, .event response' => (PromResponse.annotations response).Same (.annotations response')
  | .verdict response, .verdict response' => (PromResponse.annotations response).Same (.annotations response')
  | _, _ => False

/-! ## The server -/

inductive Goroutine where
  | ready
  | missed
  | done
  deriving DecidableEq, Repr

/-- A request that is being answered. `patchEventWithVerdict` is set together with `verdictResponse`. -/
structure Pending where
  promInput : PrometheusDataRequest
  goroutines : List Goroutine
  metrics : List Nat
  annotations : List Nat
  queryResponseMap : String → Option Nat
  verdictResponse : Option Nat

def Pending.start (promInput : PrometheusDataRequest) : Pending :=
  { promInput := promInput
    goroutines := promInput.queries.map fun _ => .ready
    metrics := []
    annotations := []
    queryResponseMap := fun _ => none
    verdictResponse := none }

/-- Answers are handed on as references to the cached objects. -/
def Pending.receive (pending : Pending) (i : Nat) (val : PromQueryInput) (ref : Nat) : Answer F → Pending
  | .nothing => { pending with goroutines := pending.goroutines.set i .done }
  | .metrics _ => { pending with
      goroutines := pending.goroutines.set i .done
      metrics := pending.metrics ++ [ref]
      queryResponseMap := Function.update pending.queryResponseMap val.queryID (some ref) }
  | .event _ => { pending with
      goroutines := pending.goroutines.set i .done
      annotations := pending.annotations ++ [ref] }
  | .verdict _ => { pending with
      goroutines := pending.goroutines.set i .done
      verdictResponse := some ref }

/-- `patched` are the annotations that a verdict has been patched into. -/
structure Server (F : Type) where
  cache : ObjectCache String (PromResponse F)
  pending : Option Pending
  patched : List Nat

def Server.start : Server F := ⟨.empty, none, []⟩

/-- `utils.AddCache`, `none` for the error that the item already exists. -/
def addCache (cache : ObjectCache String (PromResponse F)) (key : String) (ref : Nat) :
    Option (ObjectCache String (PromResponse F)) :=
  match cache.entry key with
  | none => some (cache.bind key ref)
  | some _ => none

/-- `utils.UpdateCache`, `none` for the error that the item does not exist. -/
def updateCache (cache : ObjectCache String (PromResponse F)) (key : String) (ref : Nat) :
    Option (ObjectCache String (PromResponse F)) :=
  match cache.entry key with
  | none => none
  | some _ => some (cache.bind key ref)

/-- The entry that is in the way may expire before it is updated. -/
def store (expires : Bool) (cache : ObjectCache String (PromResponse F)) (key : String) (ref : Nat) :
    ObjectCache String (PromResponse F) :=
  match addCache cache key ref with
  | some cache => cache
  | none =>
      let cache := if expires then cache.expire key else cache
      (updateCache cache key ref).getD cache

/-- What a patch leaves of an annotation besides its id. -/
structure Patch (F : Type) where
  legends : List String
  tsvs : List (List (F × Int))
  subDataArray : List (List (SubData F))

def Patch.apply (patch : Patch F) : PromResponse F → PromResponse F
  | .metrics response => .metrics response
  | .annotations response =>
      if isChaosEvent response.queryID then
        .annotations {
          queryID := response.queryID
          legends := patch.legends
          tsvs := patch.tsvs
          subDataArray := patch.subDataArray }
      else .annotations response

def patchAt (patches : Nat → Patch F) (refs : List Nat) (ref : Nat) (object : PromResponse F) : PromResponse F :=
  if ref ∈ refs then (patches ref).apply object else object

/-- An event annotation is put back under the key of its id. -/
def putBack (dsDetails : DsDetails) (expires : Nat → Bool) (cache : ObjectCache String (PromResponse F)) (ref : Nat) :
    ObjectCache String (PromResponse F) :=
  match cache.valueAt ref with
  | some (.annotations response) =>
      if isChaosEvent response.queryID then
        store (expires ref) cache (annotationKey dsDetails response.queryID) ref
      else cache
  | _ => cache

/-- `PatchChaosEventWithVerdict` changes the event annotations of the request in place, and through the sub-data they
share those it has changed before. What it writes into them is open. -/
def patchChaosEventWithVerdict (patches : Nat → Patch F) (expires : Nat → Bool) (pending : Pending)
    (s : Server F) : ObjectCache String (PromResponse F) :=
  let cache := s.cache.rewrite (patchAt patches (pending.annotations ++ s.patched))
  pending.annotations.foldl (putBack pending.promInput.dsDetails expires) cache

/-- A step, with what the goroutines and the environment choose. -/
inductive Event (F : Type) where
  | request (promInput : PrometheusDataRequest)
  | lookup (i : Nat)
  | query (i : Nat) (reached expires : Bool) (order : MapOrder)
  | expire (key : String)
  | finish (patches : Nat → Patch F) (expires : Nat → Bool)

def lookupStep (s : Server F) (pending : Pending) (i : Nat) (val : PromQueryInput) : Option (Server F) :=
  match s.cache.entry (cacheKey pending.promInput.dsDetails val) with
  | none => some { s with pending := some { pending with goroutines := pending.goroutines.set i .missed } }
  | some ref => do
      let object ← s.cache.valueAt ref
      let answer ← fromCache val object
      return { s with pending := some (pending.receive i val ref answer) }

def queryStep (s : Server F) (pending : Pending) (i : Nat) (val : PromQueryInput) (reached expires : Bool)
    (order : MapOrder) : Option (Server F) :=
  let dsDetails := pending.promInput.dsDetails
  if reached = false then some { s with pending := some (pending.receive i val 0 (.nothing : Answer F)) }
  else
    match prometheus.query fl order (newPromQuery dsDetails val) val.queryType with
    | .panics => none
    | .failed => some { s with pending := some (pending.receive i val 0 (.nothing : Answer F)) }
    | .ok response => do
        let answer ← fromPrometheus val response
        let ref := s.cache.objects.length
        let cache := s.cache.make (cacheKey dsDetails val) response
        return { s with
          cache := if val.isKept then store expires cache (cacheKey dsDetails val) ref else cache
          pending := some (pending.receive i val ref answer) }

def step (s : Server F) : Event F → Option (Server F)
  | .request promInput =>
      match s.pending with
      | none => some { s with pending := some (.start promInput) }
      | some _ => none
  | .lookup i => do
      let pending ← s.pending
      let val ← pending.promInput.queries[i]?
      if pending.goroutines[i]? = some Goroutine.ready then lookupStep s pending i val else none
  | .query i reached expires order => do
      let pending ← s.pending
      let val ← pending.promInput.queries[i]?
      if pending.goroutines[i]? = some Goroutine.missed then queryStep fl prometheus s pending i val reached expires order
      else none
  | .expire key => some { s with cache := s.cache.expire key }
  | .finish patches expires => do
      let pending ← s.pending
      if pending.goroutines.all (· = .done) = false then none
      else if pending.verdictResponse = none then return { s with pending := none }
      else
        return { s with
          cache := patchChaosEventWithVerdict patches expires pending s
          pending := none
          patched := pending.annotations ++ s.patched }

/-- Every query that is about to be answered from the cache is answered as Prometheus would answer it. -/
def HitsAreRight (s : Server F) : Prop :=
  ∀ (pending : Pending) (i : Nat) (val : PromQueryInput) (ref : Nat),
    s.pending = some pending → pending.promInput.queries[i]? = some val →
    pending.goroutines[i]? = some Goroutine.ready →
    s.cache.entry (cacheKey pending.promInput.dsDetails val) = some ref →
    ∀ order, ∃ object answer uncached, s.cache.valueAt ref = some object ∧ fromCache val object = some answer ∧
      uncachedAnswer fl prometheus order pending.promInput.dsDetails val = some uncached ∧ answer.Same uncached

def CacheIsTransparent (events : List (Event F)) : Prop :=
  ∀ done s, done <+: events → run (step fl prometheus) .start done = some s → HitsAreRight fl prometheus s

/-! ## Queries that may share an entry -/

def Event.request? : Event F → Option PrometheusDataRequest
  | .request promInput => some promInput
  | _ => none

def requestsOf (events : List (Event F)) : List PrometheusDataRequest := events.filterMap Event.request?

/-- The request has its event annotations patched. -/
def PrometheusDataRequest.asksForVerdict (request : PrometheusDataRequest) : Bool :=
  request.queries.any fun val => !val.isKept

/-- A query whose key is that of an answer that is kept asks for the same, and an event that has been asked for
together with a verdict is not asked for again. -/
structure DistinctQuestions (requests : List PrometheusDataRequest) : Prop where
  sameKey : ∀ r ∈ requests, ∀ val ∈ r.queries, ∀ r' ∈ requests, ∀ val' ∈ r'.queries, val.isKept = true →
    cacheKey r.dsDetails val = cacheKey r'.dsDetails val' →
    (newPromQuery r.dsDetails val).AsksTheSame (newPromQuery r'.dsDetails val')
  unpatched : requests.Pairwise fun r r' => r.asksForVerdict = true →
    ∀ val ∈ r.queries, isChaosEvent val.queryID = true → ∀ val' ∈ r'.queries, isChaosEvent val'.queryID = true →
      cacheKey r.dsDetails val ≠ cacheKey r'.dsDetails val'

end LitmusPortal.Prometheus
