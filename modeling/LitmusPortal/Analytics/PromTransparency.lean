import LitmusPortal.Analytics.PromCache

/-!
# When the cache is transparent

An entry was made by a query with its key. Where queries that share a key ask for the same, the entry is what
Prometheus would answer, until a verdict is patched into it.
-/

namespace LitmusPortal.Prometheus

open Transition ObjectCache

variable {F : Type} {fl : Float64 F} {prometheus : Client F} {s s' : Server F} {pending : Pending}
  {finished : List PrometheusDataRequest} {val : PromQueryInput} {ref : Nat}

/-! ## The kinds of a query -/

theorem queryType_of_event (h : isChaosEvent val.queryID = true) : val.queryType = .annotations := by
  rw [PromQueryInput.queryType, h, Bool.true_or, if_pos rfl]

theorem isKept_of_event (h : isChaosEvent val.queryID = true) : val.isKept = true := by
  rw [PromQueryInput.isKept, h, Bool.or_true]

theorem cacheKey_of_event (dsDetails : DsDetails) (h : isChaosEvent val.queryID = true) :
    cacheKey dsDetails val = annotationKey dsDetails val.queryID := by
  rw [cacheKey, queryType_of_event h]

theorem kept_cases (h : val.isKept = true) :
    val.queryType = .metrics ∨ val.queryType = .annotations ∧ isChaosEvent val.queryID = true := by
  cases hevent : isChaosEvent val.queryID with
  | true => exact .inr ⟨queryType_of_event hevent, rfl⟩
  | false =>
      refine .inl ?_
      rwa [PromQueryInput.isKept, hevent, Bool.or_false, decide_eq_true_eq] at h

theorem kind_eq {val' : PromQueryInput} (h : val.queryID = val'.queryID) :
    val.queryType = val'.queryType ∧ val.isKept = val'.isKept := by
  have htype : val.queryType = val'.queryType := by
    rw [PromQueryInput.queryType, h, PromQueryInput.queryType]
  refine ⟨htype, ?_⟩
  rw [PromQueryInput.isKept, htype, h, PromQueryInput.isKept]

/-! ## Answers -/

theorem event_of_fromCache {object : PromResponse F} {response : AnnotationsPromResponse F}
    (h : fromCache val object = some (.event response)) : isChaosEvent val.queryID = true := by
  by_contra hevent
  rw [Bool.not_eq_true] at hevent
  cases htype : val.queryType <;> cases object <;> simp [fromCache, htype, hevent] at h

theorem fromCache_ne_verdict {object : PromResponse F} {response : AnnotationsPromResponse F} :
    fromCache val object ≠ some (.verdict response) := by
  intro h
  cases htype : val.queryType <;> cases hevent : isChaosEvent val.queryID <;> cases object <;>
    simp [fromCache, htype, hevent] at h

theorem event_of_fromPrometheus {object : PromResponse F} {response : AnnotationsPromResponse F}
    (h : fromPrometheus val object = some (.event response)) : isChaosEvent val.queryID = true := by
  by_contra hevent
  rw [Bool.not_eq_true] at hevent
  cases htype : val.queryType <;> cases hverdict : isChaosVerdict val.queryID <;> cases object <;>
    simp [fromPrometheus, htype, hevent, hverdict] at h

theorem not_kept_of_fromPrometheus {object : PromResponse F} {response : AnnotationsPromResponse F}
    (h : fromPrometheus val object = some (.verdict response)) : val.isKept = false := by
  by_contra hkept
  rw [Bool.not_eq_false] at hkept
  rcases kept_cases hkept with htype | ⟨htype, hevent⟩
  · cases object <;> simp [fromPrometheus, htype] at h
  · cases object <;> simp [fromPrometheus, htype, hevent] at h

/-- An object that Prometheus gave for the query answers it as any other call does. -/
theorem answers_same {order : MapOrder} {dsDetails : DsDetails} {object : PromResponse F} (hkept : val.isKept = true)
    (hquery : prometheus.query fl order (newPromQuery dsDetails val) val.queryType = .ok object) (order' : MapOrder) :
    ∃ answer uncached, fromCache val object = some answer ∧
      uncachedAnswer fl prometheus order' dsDetails val = some uncached ∧ answer.Same uncached := by
  have hsame := query_order fl prometheus order order' (newPromQuery dsDetails val) val.queryType
  rw [hquery] at hsame
  unfold uncachedAnswer
  cases hquery' : prometheus.query fl order' (newPromQuery dsDetails val) val.queryType with
  | panics =>
      rw [hquery'] at hsame
      exact absurd hsame not_false
  | failed =>
      rw [hquery'] at hsame
      exact absurd hsame not_false
  | ok object' =>
      rw [hquery'] at hsame
      rcases kept_cases hkept with htype | ⟨htype, hevent⟩
      · rw [htype] at hquery hquery'
        obtain ⟨response, rfl⟩ := metrics_of_query_metrics hquery
        obtain ⟨response', rfl⟩ := metrics_of_query_metrics hquery'
        exact ⟨.metrics response, .metrics response', by simp [fromCache, htype], by simp [fromPrometheus, htype],
          hsame⟩
      · rw [htype] at hquery hquery'
        obtain ⟨response, rfl, -⟩ := queryID_of_query_annotations hquery
        obtain ⟨response', rfl, -⟩ := queryID_of_query_annotations hquery'
        exact ⟨.event response, .event response', by simp [fromCache, htype, hevent],
          by simp [fromPrometheus, htype, hevent], hsame⟩

/-! ## What the entries are worth -/

def Server.current (s : Server F) : List PrometheusDataRequest := s.pending.toList.map Pending.promInput

theorem current_of_pending (h : s.pending = some pending) : s.current = [pending.promInput] := by
  rw [Server.current, h, Option.toList_some, List.map_singleton]

/-- A verdict has been patched into the annotation under this key. -/
def PatchedKey (finished : List PrometheusDataRequest) (key : String) : Prop :=
  ∃ r ∈ finished, r.asksForVerdict = true ∧
    ∃ val ∈ r.queries, isChaosEvent val.queryID = true ∧ cacheKey r.dsDetails val = key

/-- The object was made by a query that has been asked, and as long as it is not patched it is its answer. -/
def Worth (fl : Float64 F) (prometheus : Client F) (finished requests : List PrometheusDataRequest)
    (key : String) (object : PromResponse F) : Prop :=
  ∃ r ∈ requests, ∃ val ∈ r.queries, val.isKept = true ∧ cacheKey r.dsDetails val = key ∧
    (¬ PatchedKey finished key →
      ∃ order, prometheus.query fl order (newPromQuery r.dsDetails val) val.queryType = .ok object)

theorem PatchedKey.mono {finished' : List PrometheusDataRequest} {key : String} (h : PatchedKey finished key)
    (hfinished : finished ⊆ finished') : PatchedKey finished' key := by
  obtain ⟨r, hr, hrest⟩ := h
  exact ⟨r, hfinished hr, hrest⟩

theorem Worth.mono {finished' requests requests' : List PrometheusDataRequest} {key : String}
    {object : PromResponse F} (h : Worth fl prometheus finished requests key object)
    (hfinished : finished ⊆ finished') (hrequests : requests ⊆ requests') :
    Worth fl prometheus finished' requests' key object := by
  obtain ⟨r, hr, val, hval, hkept, hkey, hquery⟩ := h
  exact ⟨r, hrequests hr, val, hval, hkept, hkey, fun hnot => hquery fun hpatched => hnot (hpatched.mono hfinished)⟩

/-- The object is an annotation with the id of the query. -/
def IsAnnotationOf (val : PromQueryInput) (object : PromResponse F) : Prop :=
  ∃ response, object = .annotations response ∧ response.queryID = val.queryID

structure Inv (fl : Float64 F) (prometheus : Client F) (finished : List PrometheusDataRequest)
    (s : Server F) : Prop where
  backed : s.cache.Backed (Worth fl prometheus finished (finished ++ s.current))
  held : ∀ pending, s.pending = some pending → ∀ ref ∈ pending.annotations,
    ∃ val ∈ pending.promInput.queries, isChaosEvent val.queryID = true ∧
      s.cache.Holds (fun key object =>
        Worth fl prometheus finished (finished ++ s.current) key object ∧ IsAnnotationOf val object)
        (cacheKey pending.promInput.dsDetails val) ref
  verdict : ∀ pending, s.pending = some pending → pending.verdictResponse ≠ none →
    pending.promInput.asksForVerdict = true
  patched : ∀ ref ∈ s.patched, ∃ key, PatchedKey finished key ∧ s.cache.Holds (fun _ _ => True) key ref

theorem inv_start : Inv fl prometheus [] Server.start where
  backed := backed_empty
  held pending h := by cases h
  verdict pending h := by cases h
  patched ref h := by cases h

/-- A hit finds the answer that Prometheus gave to a query that asks for the same. -/
theorem Inv.hit (h : Inv fl prometheus finished s) (hdistinct : DistinctQuestions (finished ++ s.current))
    (hpending : s.pending = some pending) (hval : val ∈ pending.promInput.queries)
    (hentry : s.cache.entry (cacheKey pending.promInput.dsDetails val) = some ref) :
    val.isKept = true ∧ s.cache.Holds (fun key object =>
      Worth fl prometheus finished (finished ++ s.current) key object ∧
        ∃ order, prometheus.query fl order (newPromQuery pending.promInput.dsDetails val) val.queryType = .ok object)
      (cacheKey pending.promInput.dsDetails val) ref := by
  obtain ⟨object, hobject, hworth⟩ := h.backed _ _ hentry
  obtain ⟨r, hr, val', hval', hkept', hkey, hquery⟩ := id hworth
  have hcurrent : pending.promInput ∈ finished ++ s.current := by
    rw [current_of_pending hpending]
    exact List.mem_append_right _ (List.mem_singleton_self _)
  have hsame := hdistinct.sameKey r hr val' hval' _ hcurrent val hval hkept' hkey
  obtain ⟨htype, hkept⟩ := kind_eq hsame.queryID
  refine ⟨hkept ▸ hkept', object, hobject, hworth, ?_⟩
  have hunpatched : ¬ PatchedKey finished (cacheKey pending.promInput.dsDetails val) := by
    rintro ⟨r', hr', hverdict, event, hevent, hisEvent, hkey'⟩
    have hevent' := hdistinct.sameKey r' (List.mem_append_left _ hr') event hevent _ hcurrent val hval
      (isKept_of_event hisEvent) hkey'
    have hid : event.queryID = val.queryID := hevent'.queryID
    have hpairs := (List.pairwise_append.mp hdistinct.unpatched).2.2 r' hr' pending.promInput
      (by rw [current_of_pending hpending]; exact List.mem_singleton_self _)
    exact hpairs hverdict event hevent hisEvent val hval (hid ▸ hisEvent) hkey'
  obtain ⟨order, hok⟩ := hquery hunpatched
  refine ⟨order, ?_⟩
  rw [← htype, ← query_congr hsame]
  exact hok

theorem Inv.hitsAreRight (h : Inv fl prometheus finished s) (hdistinct : DistinctQuestions (finished ++ s.current)) :
    HitsAreRight fl prometheus s := by
  intro pending i val ref hpending hval _ hentry order
  obtain ⟨hkept, hholds⟩ := h.hit hdistinct hpending (List.mem_of_getElem? hval) hentry
  obtain ⟨object, hobject, -, order', hquery⟩ := hholds.valueAt
  obtain ⟨answer, uncached, hanswer, huncached, hsame⟩ := answers_same hkept hquery order
  exact ⟨object, answer, uncached, hobject, hanswer, huncached, hsame⟩

/-! ## The steps of a goroutine -/

variable {i : Nat} {answer : Answer F} {cache : ObjectCache String (PromResponse F)} {expires : Bool} {key : String}

@[simp]
theorem receive_promInput : (pending.receive i val ref answer).promInput = pending.promInput := by
  cases answer <;> rfl

theorem mem_receive_annotations {ref' : Nat} (h : ref' ∈ (pending.receive i val ref answer).annotations) :
    ref' ∈ pending.annotations ∨ ref' = ref ∧ ∃ response, answer = .event response := by
  cases answer with
  | event response =>
      rcases List.mem_append.mp h with hold | hnew
      · exact .inl hold
      · exact .inr ⟨List.mem_singleton.mp hnew, response, rfl⟩
  | nothing => exact .inl h
  | metrics response => exact .inl h
  | verdict response => exact .inl h

theorem receive_verdictResponse (h : (pending.receive i val ref answer).verdictResponse ≠ none) :
    pending.verdictResponse ≠ none ∨ ∃ response, answer = .verdict response := by
  cases answer with
  | verdict response => exact .inr ⟨response, rfl⟩
  | nothing => exact .inl h
  | metrics response => exact .inl h
  | event response => exact .inl h

theorem Inv.receive (h : Inv fl prometheus finished s) (hpending : s.pending = some pending)
    (hbacked : cache.Backed (Worth fl prometheus finished (finished ++ s.current)))
    (hgrown : ∀ (P : String → PromResponse F → Prop) key ref, s.cache.Holds P key ref → cache.Holds P key ref)
    (hevent : ∀ response, answer = .event response → ∃ val ∈ pending.promInput.queries,
      isChaosEvent val.queryID = true ∧ cache.Holds (fun key object =>
        Worth fl prometheus finished (finished ++ s.current) key object ∧ IsAnnotationOf val object)
        (cacheKey pending.promInput.dsDetails val) ref)
    (hverdict : ∀ response, answer = .verdict response → pending.promInput.asksForVerdict = true) :
    Inv fl prometheus finished { s with cache := cache, pending := some (pending.receive i val ref answer) } := by
  have hcurrent : Server.current { s with cache := cache, pending := some (pending.receive i val ref answer) } =
      s.current := by
    rw [current_of_pending hpending, current_of_pending rfl, receive_promInput]
  constructor
  · rwa [hcurrent]
  · intro pending' hpending' ref' href'
    obtain rfl := Option.some.inj hpending'
    rw [hcurrent, receive_promInput]
    rcases mem_receive_annotations href' with hold | ⟨rfl, response, rfl⟩
    · obtain ⟨event, hevent', hisEvent, hholds⟩ := h.held pending hpending ref' hold
      exact ⟨event, hevent', hisEvent, hgrown _ _ _ hholds⟩
    · exact hevent response rfl
  · intro pending' hpending' hresponse
    obtain rfl := Option.some.inj hpending'
    rw [receive_promInput]
    rcases receive_verdictResponse hresponse with hold | ⟨response, rfl⟩
    · exact h.verdict pending hpending hold
    · exact hverdict response rfl
  · intro ref' href'
    obtain ⟨key, hkey, hholds⟩ := h.patched ref' href'
    exact ⟨key, hkey, hgrown _ _ _ hholds⟩

theorem Inv.lookupStep (h : Inv fl prometheus finished s) (hdistinct : DistinctQuestions (finished ++ s.current))
    (hpending : s.pending = some pending) (hval : val ∈ pending.promInput.queries)
    (hstep : lookupStep s pending i val = some s') : Inv fl prometheus finished s' ∧ s'.current = s.current := by
  unfold Prometheus.lookupStep at hstep
  cases hentry : s.cache.entry (cacheKey pending.promInput.dsDetails val) with
  | none =>
      rw [hentry] at hstep
      obtain rfl := Option.some.inj hstep
      have hcurrent := current_of_pending hpending
      refine ⟨⟨?_, ?_, ?_, h.patched⟩, hcurrent.symm⟩
      · have hbacked := h.backed
        rwa [hcurrent] at hbacked
      · intro pending' hpending' ref' href'
        obtain rfl := Option.some.inj hpending'
        have hheld := h.held pending hpending ref' href'
        rwa [hcurrent] at hheld
      · intro pending' hpending' hresponse
        obtain rfl := Option.some.inj hpending'
        exact h.verdict pending hpending hresponse
  | some ref =>
      rw [hentry] at hstep
      obtain ⟨object, hobject, hrest⟩ := Option.bind_eq_some_iff.mp hstep
      obtain ⟨answer, hanswer, hs'⟩ := Option.bind_eq_some_iff.mp hrest
      obtain rfl := Option.some.inj hs'
      refine ⟨h.receive hpending h.backed (fun _ _ _ hholds => hholds) ?_ ?_, ?_⟩
      · rintro response rfl
        have hevent := event_of_fromCache hanswer
        obtain ⟨-, hholds⟩ := h.hit hdistinct hpending hval hentry
        refine ⟨val, hval, hevent, hholds.mono fun object hworth => ⟨hworth.1, ?_⟩⟩
        obtain ⟨order, hquery⟩ := hworth.2
        rw [queryType_of_event hevent] at hquery
        exact queryID_of_query_annotations hquery
      · rintro response rfl
        exact absurd hanswer fromCache_ne_verdict
      · rw [current_of_pending hpending, current_of_pending rfl, receive_promInput]

theorem store_objects : (store expires cache key ref).objects = cache.objects := by
  unfold store addCache updateCache
  cases hentry : cache.entry key with
  | none => rfl
  | some old => cases expires <;> simp [hentry, ObjectCache.expire, ObjectCache.bind]

theorem backed_store {P : String → PromResponse F → Prop} (h : cache.Backed P) (hholds : cache.Holds P key ref) :
    (store expires cache key ref).Backed P := by
  unfold store addCache updateCache
  cases hentry : cache.entry key with
  | none => exact h.bind hholds
  | some old =>
      cases expires with
      | false => simpa [hentry] using h.bind hholds
      | true => simpa [ObjectCache.expire] using h.expire key

theorem Inv.queryStep {reached : Bool} {order : MapOrder} (h : Inv fl prometheus finished s)
    (hpending : s.pending = some pending) (hval : val ∈ pending.promInput.queries)
    (hstep : queryStep fl prometheus s pending i val reached expires order = some s') :
    Inv fl prometheus finished s' ∧ s'.current = s.current := by
  have hcurrent := current_of_pending hpending
  have hnothing : Inv fl prometheus finished
      { s with pending := some (pending.receive i val 0 (.nothing : Answer F)) } :=
    h.receive hpending h.backed (fun _ _ _ hholds => hholds) (fun response hanswer => by cases hanswer)
      fun response hanswer => by cases hanswer
  unfold Prometheus.queryStep at hstep
  by_cases hreached : reached = false
  · rw [if_pos hreached] at hstep
    obtain rfl := Option.some.inj hstep
    exact ⟨hnothing, hcurrent.symm⟩
  · rw [if_neg hreached] at hstep
    cases hquery : prometheus.query fl order (newPromQuery pending.promInput.dsDetails val) val.queryType with
    | panics =>
        rw [hquery] at hstep
        cases hstep
    | failed =>
        rw [hquery] at hstep
        obtain rfl := Option.some.inj hstep
        exact ⟨hnothing, hcurrent.symm⟩
    | ok response =>
        rw [hquery] at hstep
        obtain ⟨answer, hanswer, hs'⟩ := Option.bind_eq_some_iff.mp hstep
        obtain rfl := Option.some.inj hs'
        generalize hmade : s.cache.make (cacheKey pending.promInput.dsDetails val) response = made
        have hbackedMade : made.Backed (Worth fl prometheus finished (finished ++ s.current)) :=
          hmade ▸ h.backed.make _ _
        have hworth (hkept : val.isKept = true) : Worth fl prometheus finished (finished ++ s.current)
            (cacheKey pending.promInput.dsDetails val) response := by
          refine ⟨pending.promInput, ?_, val, hval, hkept, rfl, fun _ => ⟨order, hquery⟩⟩
          rw [hcurrent]
          exact List.mem_append_right _ (List.mem_singleton_self _)
        have hnew (P : String → PromResponse F → Prop) (hP : P (cacheKey pending.promInput.dsDetails val) response) :
            made.Holds P (cacheKey pending.promInput.dsDetails val) s.cache.objects.length :=
          hmade ▸ holds_make s.cache hP
        have hobjects : (if val.isKept then store expires made (cacheKey pending.promInput.dsDetails val)
            s.cache.objects.length else made).objects = made.objects := by
          split
          · exact store_objects
          · rfl
        refine ⟨h.receive hpending ?_ ?_ ?_ ?_, ?_⟩
        · split
          · rename_i hkept
            exact backed_store hbackedMade (hnew _ (hworth hkept))
          · exact hbackedMade
        · intro P key ref hholds
          exact Holds.of_objects_eq (hmade ▸ hholds.make _ _) hobjects
        · rintro response' rfl
          have hevent := event_of_fromPrometheus hanswer
          rw [queryType_of_event hevent] at hquery
          refine ⟨val, hval, hevent, Holds.of_objects_eq (hnew _ ⟨hworth (isKept_of_event hevent), ?_⟩) hobjects⟩
          exact queryID_of_query_annotations hquery
        · rintro response' rfl
          refine List.any_eq_true.mpr ⟨val, hval, ?_⟩
          rw [not_kept_of_fromPrometheus hanswer]
          rfl
        · rw [hcurrent, current_of_pending rfl, receive_promInput]

/-! ## The end of a request -/

variable {patches : Nat → Patch F} {expiresAt : Nat → Bool}

theorem patch_isAnnotationOf {patch : Patch F} {object : PromResponse F} (h : IsAnnotationOf val object) :
    IsAnnotationOf val (patch.apply object) := by
  obtain ⟨response, rfl, hid⟩ := h
  unfold Patch.apply
  by_cases hevent : isChaosEvent response.queryID = true
  · exact ⟨_, if_pos hevent, hid⟩
  · exact ⟨_, if_neg hevent, hid⟩

/-- Annotations that are put back under the key of their id are put back under their own key. -/
theorem backed_foldl_store (expiresAt : Nat → Bool) {P : String → PromResponse F → Prop} {dsDetails : DsDetails} (refs : List Nat)
    (hrefs : ∀ ref ∈ refs, ∃ val : PromQueryInput, isChaosEvent val.queryID = true ∧
      cache.Holds (fun key object => P key object ∧ IsAnnotationOf val object) (cacheKey dsDetails val) ref)
    (hbacked : cache.Backed P) :
    (refs.foldl (putBack dsDetails expiresAt) cache).Backed P ∧
      (refs.foldl (putBack dsDetails expiresAt) cache).objects = cache.objects := by
  induction refs generalizing cache with
  | nil => exact ⟨hbacked, rfl⟩
  | cons ref rest ih =>
      obtain ⟨val, hevent, hholds⟩ := hrefs ref List.mem_cons_self
      obtain ⟨object, hobject, -, response, rfl, hid⟩ := hholds.valueAt
      have hput : putBack dsDetails expiresAt cache ref =
          store (expiresAt ref) cache (cacheKey dsDetails val) ref := by
        rw [putBack, hobject, cacheKey_of_event dsDetails hevent]
        simp only [hid, hevent, ↓reduceIte]
      have hobjects : (putBack dsDetails expiresAt cache ref).objects = cache.objects := by
        rw [hput, store_objects]
      have hstored : (putBack dsDetails expiresAt cache ref).Backed P := by
        rw [hput]
        exact backed_store hbacked (hholds.mono fun _ h => h.1)
      have hrest := ih (fun ref' href' => by
        obtain ⟨val', hevent', hholds'⟩ := hrefs ref' (List.mem_cons_of_mem _ href')
        exact ⟨val', hevent', hholds'.of_objects_eq hobjects⟩) hstored
      exact ⟨hrest.1, hrest.2.trans hobjects⟩

theorem Inv.patched_of_touched (h : Inv fl prometheus finished s) (hpending : s.pending = some pending)
    (hverdict : pending.promInput.asksForVerdict = true) {ref : Nat} (href : ref ∈ pending.annotations ++ s.patched) :
    ∃ key, PatchedKey (finished ++ [pending.promInput]) key ∧ s.cache.Holds (fun _ _ => True) key ref := by
  rcases List.mem_append.mp href with hkind | hpatched
  · obtain ⟨val, hval, hevent, hholds⟩ := h.held pending hpending ref hkind
    refine ⟨cacheKey pending.promInput.dsDetails val, ⟨pending.promInput, ?_, hverdict, val, hval, hevent, rfl⟩,
      hholds.mono fun _ _ => trivial⟩
    exact List.mem_append_right _ (List.mem_singleton_self _)
  · obtain ⟨key, hkey, hholds⟩ := h.patched ref hpatched
    exact ⟨key, hkey.mono (List.subset_append_left _ _), hholds⟩

theorem Inv.finish (h : Inv fl prometheus finished s) (hpending : s.pending = some pending) :
    Inv fl prometheus (finished ++ [pending.promInput]) { s with pending := none } := by
  have hcurrent := current_of_pending hpending
  constructor
  · have hbacked := h.backed
    rw [hcurrent] at hbacked
    refine hbacked.mono fun key object hworth => hworth.mono (List.subset_append_left _ _) ?_
    exact List.subset_append_left _ _
  · intro pending' hpending'
    cases hpending'
  · intro pending' hpending'
    cases hpending'
  · intro ref href
    obtain ⟨key, hkey, hholds⟩ := h.patched ref href
    exact ⟨key, hkey.mono (List.subset_append_left _ _), hholds⟩

theorem Inv.patch (h : Inv fl prometheus finished s) (hpending : s.pending = some pending)
    (hverdict : pending.promInput.asksForVerdict = true) :
    Inv fl prometheus (finished ++ [pending.promInput]) { s with
      cache := patchChaosEventWithVerdict patches expiresAt pending s
      pending := none
      patched := pending.annotations ++ s.patched } := by
  have hcurrent := current_of_pending hpending
  have hfinished : finished ⊆ finished ++ [pending.promInput] := List.subset_append_left _ _
  have hrequests : finished ++ s.current ⊆ finished ++ [pending.promInput] ++ [] := by
    rw [hcurrent, List.append_nil]
    exact List.Subset.refl _
  generalize hchange : patchAt patches (pending.annotations ++ s.patched) = change
  have hwritten : (s.cache.rewrite change).Backed
      (Worth fl prometheus (finished ++ [pending.promInput]) (finished ++ [pending.promInput] ++ [])) := by
    refine h.backed.rewrite fun key ref hholds object hworth => ?_
    by_cases href : ref ∈ pending.annotations ++ s.patched
    · -- a touched object is under a key that is now a patched one
      obtain ⟨key', hkey', hholds'⟩ := h.patched_of_touched hpending hverdict href
      obtain rfl := hholds.key_eq hholds'
      obtain ⟨r, hr, val, hval, hkept, hkey, -⟩ := hworth
      exact ⟨r, hrequests hr, val, hval, hkept, hkey, fun hnot => absurd hkey' hnot⟩
    · rw [← hchange, patchAt, if_neg href]
      exact hworth.mono hfinished hrequests
  have hheld : ∀ ref ∈ pending.annotations, ∃ val : PromQueryInput, isChaosEvent val.queryID = true ∧
      (s.cache.rewrite change).Holds (fun key object =>
        Worth fl prometheus (finished ++ [pending.promInput]) (finished ++ [pending.promInput] ++ []) key object ∧
          IsAnnotationOf val object) (cacheKey pending.promInput.dsDetails val) ref := by
    intro ref href
    obtain ⟨val, hval, hevent, hholds⟩ := h.held pending hpending ref href
    refine ⟨val, hevent, hholds.rewrite fun object ⟨hworth, hkind⟩ => ?_⟩
    rw [← hchange, patchAt, if_pos (List.mem_append_left _ href)]
    refine ⟨⟨pending.promInput, ?_, val, hval, isKept_of_event hevent, rfl, fun hnot => absurd ?_ hnot⟩,
      patch_isAnnotationOf hkind⟩
    · rw [List.append_nil]
      exact List.mem_append_right _ (List.mem_singleton_self _)
    · exact ⟨pending.promInput, List.mem_append_right _ (List.mem_singleton_self _), hverdict, val, hval, hevent, rfl⟩
  obtain ⟨hbacked, hobjects⟩ := backed_foldl_store expiresAt pending.annotations hheld hwritten
  constructor
  · rw [← hchange] at hbacked
    exact hbacked
  · intro pending' hpending'
    cases hpending'
  · intro pending' hpending'
    cases hpending'
  · intro ref href
    obtain ⟨key, hkey, hholds⟩ := h.patched_of_touched hpending hverdict href
    have hrewritten : (s.cache.rewrite change).Holds (fun _ _ => True) key ref :=
      hholds.rewrite fun _ _ => trivial
    have hend := hrewritten.of_objects_eq hobjects
    rw [← hchange] at hend
    exact ⟨key, hkey, hend⟩

/-! ## Runs -/

theorem Inv.step {event : Event F} (h : Inv fl prometheus finished s)
    (hdistinct : DistinctQuestions (finished ++ s.current)) (hstep : step fl prometheus s event = some s') :
    ∃ finished', Inv fl prometheus finished' s' ∧
      finished' ++ s'.current = finished ++ s.current ++ event.request?.toList := by
  cases event with
  | request promInput =>
      unfold Prometheus.step at hstep
      cases hpending : s.pending with
      | some pending =>
          rw [hpending] at hstep
          cases hstep
      | none =>
          rw [hpending] at hstep
          obtain rfl := Option.some.inj hstep
          have hcurrent : s.current = [] := by rw [Server.current, hpending]; rfl
          refine ⟨finished, ⟨?_, ?_, ?_, h.patched⟩, ?_⟩
          · have hbacked := h.backed
            rw [hcurrent, List.append_nil] at hbacked
            exact hbacked.mono fun key object hworth =>
              hworth.mono (List.Subset.refl _) (List.subset_append_left _ _)
          · intro pending hpending' ref href
            obtain rfl := Option.some.inj hpending'
            cases href
          · intro pending hpending' hverdict
            obtain rfl := Option.some.inj hpending'
            exact absurd rfl hverdict
          · rw [hcurrent, List.append_nil]
            rfl
  | lookup i =>
      obtain ⟨pending, hpending, hrest⟩ := Option.bind_eq_some_iff.mp hstep
      obtain ⟨val, hval, hrest⟩ := Option.bind_eq_some_iff.mp hrest
      split at hrest
      · obtain ⟨hinv, hcurrent⟩ := h.lookupStep hdistinct hpending (List.mem_of_getElem? hval) hrest
        exact ⟨finished, hinv, by rw [hcurrent]; exact (List.append_nil _).symm⟩
      · cases hrest
  | query i reached expires order =>
      obtain ⟨pending, hpending, hrest⟩ := Option.bind_eq_some_iff.mp hstep
      obtain ⟨val, hval, hrest⟩ := Option.bind_eq_some_iff.mp hrest
      split at hrest
      · obtain ⟨hinv, hcurrent⟩ := h.queryStep hpending (List.mem_of_getElem? hval) hrest
        exact ⟨finished, hinv, by rw [hcurrent]; exact (List.append_nil _).symm⟩
      · cases hrest
  | expire key =>
      obtain rfl := Option.some.inj hstep
      exact ⟨finished, ⟨h.backed.expire key, h.held, h.verdict, h.patched⟩, (List.append_nil _).symm⟩
  | finish patches expires =>
      obtain ⟨pending, hpending, hrest⟩ := Option.bind_eq_some_iff.mp hstep
      have hrequests : finished ++ [pending.promInput] ++ [] = finished ++ s.current ++ [] := by
        rw [current_of_pending hpending]
      split at hrest
      · cases hrest
      · split at hrest
        · obtain rfl := Option.some.inj hrest
          exact ⟨_, h.finish hpending, hrequests⟩
        · rename_i hverdict
          obtain rfl := Option.some.inj hrest
          exact ⟨_, h.patch hpending (h.verdict pending hpending hverdict), hrequests⟩

theorem DistinctQuestions.of_append {front back : List PrometheusDataRequest}
    (h : DistinctQuestions (front ++ back)) : DistinctQuestions front where
  sameKey r hr val hval r' hr' :=
    h.sameKey r (List.mem_append_left _ hr) val hval r' (List.mem_append_left _ hr')
  unpatched := (List.pairwise_append.mp h.unpatched).1

theorem Inv.run {events : List (Event F)} (h : Inv fl prometheus finished s)
    (hdistinct : DistinctQuestions (finished ++ s.current ++ requestsOf events))
    (hrun : run (Prometheus.step fl prometheus) s events = some s') : HitsAreRight fl prometheus s' := by
  induction events generalizing finished s with
  | nil =>
      obtain rfl : s = s' := by simpa using hrun
      exact h.hitsAreRight hdistinct.of_append
  | cons event rest ih =>
      rw [run_cons] at hrun
      obtain ⟨next, hnext, hrest⟩ := Option.bind_eq_some_iff.mp hrun
      obtain ⟨finished', hinv, hrequests⟩ := h.step hdistinct.of_append hnext
      refine ih hinv ?_ hrest
      have hsplit : requestsOf (event :: rest) = event.request?.toList ++ requestsOf rest := by
        cases hrequest : event.request? <;> simp [requestsOf, hrequest]
      rwa [hrequests, List.append_assoc, ← hsplit]

/-- The cache is transparent where queries that share a key ask for the same, and no patched annotation is asked for
again. -/
theorem cacheIsTransparent_of_distinctQuestions (fl : Float64 F) (prometheus : Client F) (events : List (Event F))
    (h : DistinctQuestions (requestsOf events)) : CacheIsTransparent fl prometheus events := by
  rintro done s ⟨rest, rfl⟩ hrun
  refine inv_start.run ?_ hrun
  rw [requestsOf, List.filterMap_append] at h
  exact h.of_append

/-! ### Two panels with one expression -/

def wholeNumbers : Float64 Int where
  ofInt n := n
  nonneg n := 0 ≤ n
  zero := 0
  thousandfold n := n * 1000
  truncate n := n
  parse _ := (0, true)

def upClient : Client Int where
  newClient _ := true
  queryRange _ _ _ _ _ := some (some [⟨[("__name__", "up")], [⟨1000, 1⟩]⟩])
  metricString metric := metric.value "__name__"

def upQuery (queryID : String) : PromQueryInput := ⟨queryID, "up", none, none, 5⟩

def dashboardRequest (queryIDs : List String) : PrometheusDataRequest :=
  ⟨queryIDs.map upQuery, ⟨"http://prometheus:9090", "0", "60"⟩⟩

/-- The first goroutine has its answer before the second one looks. -/
def twoPanels : List (Event Int) :=
  [.request (dashboardRequest ["panel-1", "panel-2"]), .lookup 0, .query 0 true false .asFilled]

/-- The second panel gets the answer of the first, with its id. -/
theorem not_cacheIsTransparent : ¬ ∀ events, CacheIsTransparent wholeNumbers upClient events := by
  intro h
  have hpending : (run (step wholeNumbers upClient) .start twoPanels).bind (fun s =>
      s.pending.map fun pending => (pending.promInput, pending.goroutines)) =
      some (dashboardRequest ["panel-1", "panel-2"], [.done, .ready]) := by decide +kernel
  have hentry : (run (step wholeNumbers upClient) .start twoPanels).bind (fun s =>
      s.cache.entry (cacheKey (dashboardRequest []).dsDetails (upQuery "panel-2"))) = some 0 := by decide +kernel
  have hvalue : (run (step wholeNumbers upClient) .start twoPanels).bind (fun s => s.cache.valueAt 0) =
      some (.metrics ⟨"panel-1", ["up"], [[(1000, 1)]]⟩) := by decide +kernel
  cases hrun : run (step wholeNumbers upClient) .start twoPanels with
  | none =>
      rw [hrun] at hentry
      cases hentry
  | some s =>
      rw [hrun, Option.bind_some] at hpending hentry hvalue
      obtain ⟨pending, hpending, hrequest⟩ := Option.map_eq_some_iff.mp hpending
      obtain ⟨hinput, hgoroutines⟩ := Prod.ext_iff.mp hrequest
      have hright := h twoPanels twoPanels s List.prefix_rfl hrun pending 1 (upQuery "panel-2") 0 hpending
      dsimp only at hinput hgoroutines
      rw [hinput, hgoroutines] at hright
      obtain ⟨object, answer, uncached, hobject, hanswer, huncached, hsame⟩ := hright rfl rfl hentry .asFilled
      obtain rfl := Option.some.inj (hvalue.symm.trans hobject)
      have hcached : fromCache (upQuery "panel-2") (.metrics ⟨"panel-1", ["up"], [[(1000, 1)]]⟩) =
          some (.metrics (⟨"panel-1", ["up"], [[(1000, 1)]]⟩ : MetricsPromResponse Int)) := by decide +kernel
      have hdirect : uncachedAnswer wholeNumbers upClient .asFilled (dashboardRequest []).dsDetails
          (upQuery "panel-2") = some (.metrics ⟨"panel-2", ["up"], [[(1000, 1)]]⟩) := by decide +kernel
      obtain rfl := Option.some.inj (hcached.symm.trans hanswer)
      obtain rfl := Option.some.inj (hdirect.symm.trans huncached)
      have hid : ("panel-1" : String) = "panel-2" := congrArg MetricsPromResponse.queryID hsame
      exact absurd hid (by decide)

def onePanelTwice : List (Event Int) :=
  [.request (dashboardRequest ["panel-1"]), .lookup 0, .query 0 true false .asFilled,
    .finish (fun _ => ⟨[], [], []⟩) fun _ => false, .request (dashboardRequest ["panel-1"]), .lookup 0]

theorem cacheIsTransparent_onePanelTwice :
    (run (step wholeNumbers upClient) .start onePanelTwice).isSome = true ∧
      CacheIsTransparent wholeNumbers upClient onePanelTwice := by
  refine ⟨by decide +kernel, cacheIsTransparent_of_distinctQuestions wholeNumbers upClient onePanelTwice ⟨?_, ?_⟩⟩
  · have hrequests : requestsOf onePanelTwice = [dashboardRequest ["panel-1"], dashboardRequest ["panel-1"]] := rfl
    intro r hr val hval r' hr' val' hval' _ _
    rw [hrequests] at hr hr'
    obtain rfl : r = dashboardRequest ["panel-1"] := by simpa using hr
    obtain rfl : r' = dashboardRequest ["panel-1"] := by simpa using hr'
    obtain rfl : val = upQuery "panel-1" := List.mem_singleton.mp hval
    obtain rfl : val' = upQuery "panel-1" := List.mem_singleton.mp hval'
    exact ⟨rfl, rfl, rfl, rfl, rfl⟩
  · refine List.pairwise_pair.mpr fun hverdict => ?_
    exact absurd hverdict (by decide +kernel)

end LitmusPortal.Prometheus
