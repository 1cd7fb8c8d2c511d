import LitmusPortal.EventTracker.Reconcile
import LitmusPortal.Lib.Transition

/-!
# Exactly-once notification

What the runs of the event tracker accept and mark. The marks follow the requests, so a trigger is accepted again
where they are not stored, and every answer of the server leads to a mark.
-/

namespace LitmusPortal.EventTracker

open GoStrings

/-- A trigger is accepted at most once for each status, and a status that is marked now was marked at the
start or has had its trigger accepted. -/
structure NotifiedOnce (start s : State) : Prop where
  once : ∀ index, s.accepted.count index ≤ 1
  marked : ∀ index status, s.policy.statuses[index]? = some status → status.isTriggered = "true" →
    index ∈ s.accepted ∨ ∃ first, start.policy.statuses[index]? = some first ∧ first.isTriggered = "true"

/-- Where marks are stored, only those of accepted triggers are; where none are stored, none was accepted. -/
def Reconcile.IsExact (r : Reconcile) (s : State) : Prop :=
  ∀ behind etp, r.get = .ok behind → s.version behind = some etp →
    (r.IsStored behind etp.statuses.zipIdx →
      ∀ entry ∈ requests etp.statuses.zipIdx, r.marks entry = true → r.accepts entry = true) ∧
    (¬ r.IsStored behind etp.statuses.zipIdx → ∀ entry ∈ r.made etp.statuses.zipIdx, r.accepts entry = false)

def Event.IsExact (s : State) : Event → Prop
  | .reconcile r => r.IsExact s
  | .audit .. => True

variable {r : Reconcile} {s start : State}

/-- A reconcile that keeps exactness either accepts and stores nothing, or marks what it accepts. -/
theorem run_cases (hexact : r.IsExact s) :
    (r.run s).2 = s ∨
      ((∀ entry ∈ requests s.policy.statuses.zipIdx, r.marks entry = r.accepts entry) ∧
        (r.run s).2 = { s.store { s.policy with statuses := s.policy.statuses.zipIdx.map r.after } with
          accepted := s.accepted ++ r.acceptedOf s.policy.statuses.zipIdx }) := by
  cases hget : r.get with
  | error err => exact .inl (by rw [Reconcile.run, hget])
  | ok behind =>
      cases hversion : s.version behind with
      | none => exact .inl (by simp only [Reconcile.run, hget, hversion])
      | some etp =>
          obtain ⟨hmarked, hnone⟩ := hexact behind etp hget hversion
          by_cases hstored : r.IsStored behind etp.statuses.zipIdx
          · obtain rfl : behind = 0 := hstored.1
            obtain rfl : s.policy = etp := Option.some.inj hversion
            refine .inr ⟨fun entry hentry => ?_, run_of_isStored hget hversion hstored⟩
            have haccepts : r.accepts entry = true → r.marks entry = true :=
              fun h => marks_of_accepts h (hstored.2.2 entry hentry)
            exact Bool.eq_iff_iff.mpr ⟨hmarked hstored entry hentry, haccepts⟩
          · left
            have hfilter : (r.made etp.statuses.zipIdx).filter r.accepts = [] :=
              List.filter_eq_nil_iff.mpr fun entry hentry => by simp [hnone hstored entry hentry]
            rw [run_of_not_isStored hget hversion hstored, hfilter, List.map_nil, List.append_nil]

/-! ### Runs -/

/-- What is kept with the property: the trigger of a pending status has not been accepted. -/
structure State.Inv (start s : State) : Prop extends NotifiedOnce start s where
  pending : ∀ index status, s.policy.statuses[index]? = some status → Indexed.isPending (status, index) = true →
    index ∉ s.accepted
  known : ∀ index ∈ s.accepted, index < s.policy.statuses.length

theorem inv_newState (policy : EventTrackerPolicy) (older : List EventTrackerPolicy) :
    State.Inv (newState policy older) (newState policy older) where
  once _ := Nat.zero_le 1
  marked _ status hstatus htrue := .inr ⟨status, hstatus, htrue⟩
  pending _ _ _ _ h := by cases h
  known _ h := by cases h

theorem mem_acceptedOf {statuses : List EventTrackerPolicyStatus} {index : ℕ} :
    index ∈ r.acceptedOf statuses.zipIdx ↔ ∃ status, statuses[index]? = some status ∧
      Indexed.isPending (status, index) = true ∧ r.accepts (status, index) = true := by
  simp only [Reconcile.acceptedOf, requests, List.mem_map, List.mem_filter, List.mem_zipIdx_iff_getElem?]
  constructor
  · rintro ⟨⟨status, _⟩, ⟨⟨hstatus, hpending⟩, haccepts⟩, rfl⟩
    exact ⟨status, hstatus, hpending, haccepts⟩
  · rintro ⟨status, hstatus, hpending, haccepts⟩
    exact ⟨(status, index), ⟨⟨hstatus, hpending⟩, haccepts⟩, rfl⟩

theorem nodup_acceptedOf (statuses : List EventTrackerPolicyStatus) :
    (r.acceptedOf statuses.zipIdx).Nodup := by
  have hindices : (statuses.zipIdx.map (·.2)).Nodup := by
    rw [List.zipIdx_map_snd]
    exact List.nodup_range'
  have hsub : ((requests statuses.zipIdx).filter r.accepts).Sublist statuses.zipIdx :=
    List.filter_sublist.trans List.filter_sublist
  exact hindices.sublist (hsub.map _)

theorem getElem?_append_status {statuses : List EventTrackerPolicyStatus}
    {added found : EventTrackerPolicyStatus} {index : ℕ} (h : (statuses ++ [added])[index]? = some found) :
    statuses[index]? = some found ∨ index = statuses.length ∧ found = added := by
  rcases lt_trichotomy index statuses.length with hlt | rfl | hgt
  · exact .inl (by rwa [List.getElem?_append_left hlt] at h)
  · rw [List.getElem?_concat_length] at h
    exact .inr ⟨rfl, (Option.some.inj h).symm⟩
  · have hlength : (statuses ++ [added]).length ≤ index := by
      simp only [List.length_append, List.length_singleton]
      omega
    rw [List.getElem?_eq_none hlength] at h
    cases h

/-- The status that the auditor adds is new, and not marked. -/
theorem State.Inv.audit (hinv : State.Inv start s) (api : Api) (resourceType resourceName workflowid : String) :
    State.Inv start (s.apply (.audit api resourceType resourceName workflowid)) where
  once := hinv.once
  marked index found hfound htrue := by
    rcases getElem?_append_status hfound with hold | ⟨-, rfl⟩
    · exact hinv.marked index found hold htrue
    · exact absurd htrue (show "false" ≠ "true" by decide)
  pending index found hfound hpending := by
    rcases getElem?_append_status hfound with hold | ⟨rfl, -⟩
    · exact hinv.pending index found hold hpending
    · exact fun hmem => absurd (hinv.known _ hmem) (lt_irrefl _)
  known index hmem := by
    have hlt := hinv.known index hmem
    simp only [State.apply, State.store, List.length_append]
    omega

theorem getElem?_after {statuses : List EventTrackerPolicyStatus} {found : EventTrackerPolicyStatus} {index : ℕ}
    (h : (statuses.zipIdx.map r.after)[index]? = some found) :
    ∃ status, statuses[index]? = some status ∧ r.after (status, index) = found := by
  simp only [List.getElem?_map, List.getElem?_zipIdx, Option.map_eq_some_iff, Nat.zero_add] at h
  obtain ⟨entry, ⟨status, hstatus, rfl⟩, rfl⟩ := h
  exact ⟨status, hstatus, rfl⟩

theorem marks_of_isPending_after {entry : Indexed} (hpending : entry.isPending = true)
    (hstill : Indexed.isPending (r.after entry, entry.2) = true) : r.marks entry = false := by
  by_contra hmarked
  have htriggered : (r.after entry).isTriggered = "true" := by simp [Reconcile.after, hpending, hmarked]
  have hlower : toLower "true" ≠ "false" := by decide
  simp only [Indexed.isPending, htriggered, Bool.and_eq_true, decide_eq_true_eq] at hstill
  exact hlower hstill.2

theorem State.Inv.stored (hinv : State.Inv start s)
    (hmarks : ∀ entry ∈ requests s.policy.statuses.zipIdx, r.marks entry = r.accepts entry) :
    State.Inv start { s.store { s.policy with statuses := s.policy.statuses.zipIdx.map r.after } with
      accepted := s.accepted ++ r.acceptedOf s.policy.statuses.zipIdx } where
  once index := by
    rw [List.count_append]
    have hold := hinv.once index
    have hnew := List.nodup_iff_count_le_one.mp (nodup_acceptedOf (r := r) s.policy.statuses) index
    by_cases hmem : index ∈ r.acceptedOf s.policy.statuses.zipIdx
    · obtain ⟨status, hstatus, hpending, -⟩ := mem_acceptedOf.mp hmem
      have hzero := List.count_eq_zero.mpr (hinv.pending index status hstatus hpending)
      omega
    · have hzero := List.count_eq_zero.mpr hmem
      omega
  marked index found hfound htrue := by
    obtain ⟨status, hstatus, rfl⟩ := getElem?_after hfound
    rw [List.mem_append]
    by_cases hpending : Indexed.isPending (status, index)
    · have hentry : (status, index) ∈ requests s.policy.statuses.zipIdx :=
        List.mem_filter.mpr ⟨List.mk_mem_zipIdx_iff_getElem?.mpr hstatus, hpending⟩
      have haccepts : r.accepts (status, index) = true := by
        rw [← hmarks _ hentry]
        by_contra hnot
        simp [Reconcile.after, hpending, hnot] at htrue
      exact .inl (.inr (mem_acceptedOf.mpr ⟨status, hstatus, hpending, haccepts⟩))
    · rw [Reconcile.after, if_neg hpending] at htrue
      rcases hinv.marked index status hstatus htrue with hold | hfirst
      · exact .inl (.inl hold)
      · exact .inr hfirst
  pending index found hfound hstill := by
    obtain ⟨status, hstatus, rfl⟩ := getElem?_after hfound
    have hpending : Indexed.isPending (status, index) = true := by
      by_contra hnot
      rw [Reconcile.after, if_neg hnot] at hstill
      exact hnot hstill
    have hentry : (status, index) ∈ requests s.policy.statuses.zipIdx :=
      List.mem_filter.mpr ⟨List.mk_mem_zipIdx_iff_getElem?.mpr hstatus, hpending⟩
    have hnotMarked : r.marks (status, index) = false := marks_of_isPending_after hpending hstill
    have hnew : index ∉ r.acceptedOf s.policy.statuses.zipIdx := by
      intro hmem
      obtain ⟨other, hother, -, haccepts⟩ := mem_acceptedOf.mp hmem
      obtain rfl : status = other := Option.some.inj (hstatus.symm.trans hother)
      rw [← hmarks _ hentry, hnotMarked] at haccepts
      cases haccepts
    rw [List.mem_append, not_or]
    exact ⟨hinv.pending index status hstatus hpending, hnew⟩
  known index hmem := by
    have hlength : (s.policy.statuses.zipIdx.map r.after).length = s.policy.statuses.length := by simp
    change index < (s.policy.statuses.zipIdx.map r.after).length
    rw [hlength]
    rcases List.mem_append.mp hmem with hold | hnew
    · exact hinv.known index hold
    · obtain ⟨status, hstatus, -⟩ := mem_acceptedOf.mp hnew
      exact (List.getElem?_eq_some_iff.mp hstatus).1

theorem State.Inv.apply (hinv : State.Inv start s) {event : Event} (hexact : event.IsExact s) :
    State.Inv start (s.apply event) := by
  cases event with
  | audit api resourceType resourceName workflowid => exact hinv.audit api resourceType resourceName workflowid
  | reconcile r =>
      rw [State.apply]
      rcases run_cases hexact with hsame | ⟨hmarks, hrun⟩
      · rw [hsame]
        exact hinv
      · rw [hrun]
        exact hinv.stored hmarks

def waiting : EventTrackerPolicyStatus where
  timeStamp := "Monday, 02-Jan-06 15:04:05 UTC"
  resource := "Deployment"
  resourceName := "nginx"
  result := conditionPassed
  workflowID := "workflow-1"
  isTriggered := "false"

def waitingPolicy : EventTrackerPolicy := ⟨"and", [⟨"spec.replicas", none, "Change"⟩], [waiting]⟩

def serverWith (configs : GitConfigs) : Server where
  version := "ci"
  agentNamespace := "litmus"
  codec := sampleCodec
  setName manifest _ := .ok manifest
  now := 0
  clusters := [sampleCluster]
  configs := configs
  workflows := sampleWorkflows
  faults := ⟨false, false, false⟩

def answeredBy (configs : GitConfigs) : Reconcile where
  get := .ok 0
  clusterInfo := ⟨"cluster-1", "key-1", "ci"⟩
  exchange _ := .handled (serverWith configs) .arrives
  update := .ok ()

theorem isStored_answeredBy (configs : GitConfigs) (entries : List Indexed) :
    (answeredBy configs).IsStored 0 entries := by
  refine ⟨rfl, rfl, fun entry _ => ?_⟩
  simp [Reconcile.isRead, Reconcile.answer, answeredBy, sendRequest, readResponse_response, Except.mapError,
    Except.isOk, Except.toBool]

theorem accepts_answeredBy :
    (answeredBy (sampleState "" []).configs).accepts (waiting, 0) = true := by
  decide +kernel

end LitmusPortal.EventTracker
