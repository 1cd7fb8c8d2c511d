import LitmusPortal.EventTracker.Informers
import LitmusPortal.EventTracker.Notification
import Mathlib.Data.List.TakeWhile

/-!
# Reconciling a policy

`Reconcile` sends a request for every status that is pending and stores the marks of all of them at the end.
It reads the policy from a cache, which may lag behind, and an update of an older version is a conflict.
-/

namespace LitmusPortal.EventTracker

open LitmusPortal GoStrings GoText GoJson

/-! ### The loop -/

abbrev Indexed := EventTrackerPolicyStatus × ℕ

def Indexed.isPending (entry : Indexed) : Bool :=
  entry.1.result = conditionPassed && toLower entry.1.isTriggered = "false"

/-- What a call of `Reconcile` meets: how far the version that is read is behind the stored one, the answers
to the requests by their index, and whether the update fails for a reason other than a conflict. -/
structure Reconcile where
  get : Except String ℕ
  clusterInfo : ClusterIdentity
  exchange : ℕ → Exchange
  update : Except String Unit

def Reconcile.accepts (r : Reconcile) (entry : Indexed) : Bool :=
  (r.exchange entry.2).accepts r.clusterInfo entry.1.workflowID

def decodeFailed : DecodeError → GoError
  | .malformed => .failed "invalid character"
  | .type => .failed "json: cannot unmarshal into Go value"

def Reconcile.answer (r : Reconcile) (entry : Indexed) : Except GoError Text :=
  match sendRequest r.clusterInfo entry.1.workflowID (r.exchange entry.2) with
  | .error err => .error (.failed err)
  | .ok body => (readResponse body).mapError decodeFailed

def isTriggeredAfter (answer : Text) : String := if answer = ofString gitopsDisabled then "false" else "true"

/-- The loop over the statuses, with the indices whose triggers the server has accepted. -/
def Reconcile.notify (r : Reconcile) : List Indexed → List ℕ × Except GoError (List EventTrackerPolicyStatus)
  | [] => ([], .ok [])
  | entry :: entries =>
      if entry.isPending then
        let accepted := if r.accepts entry then [entry.2] else []
        match r.answer entry with
        | .error err => (accepted, .error err)
        | .ok answer =>
            let rest := r.notify entries
            (accepted ++ rest.1, rest.2.map ({ entry.1 with isTriggered := isTriggeredAfter answer } :: ·))
      else
        let rest := r.notify entries
        (rest.1, rest.2.map (entry.1 :: ·))

/-! ### The system -/

/-- The stored policy, its older versions, latest first, and the indices of the statuses whose triggers were
accepted, in the order in which they were. -/
structure State where
  policy : EventTrackerPolicy
  older : List EventTrackerPolicy
  accepted : List ℕ

def newState (policy : EventTrackerPolicy) (older : List EventTrackerPolicy) : State := ⟨policy, older, []⟩

def State.store (s : State) (policy : EventTrackerPolicy) : State :=
  { s with policy := policy, older := s.policy :: s.older }

def State.version (s : State) (behind : ℕ) : Option EventTrackerPolicy := (s.policy :: s.older)[behind]?

def conflict : GoError := .failed "the object has been modified"

def State.update (s : State) (behind : ℕ) (update : Except String Unit) (etp : EventTrackerPolicy) :
    Except GoError Unit × State :=
  match update with
  | .error err => (.error (.failed err), s)
  | .ok _ => if behind = 0 then (.ok (), s.store etp) else (.error conflict, s)

def Reconcile.run (r : Reconcile) (s : State) : Except GoError Unit × State :=
  match r.get with
  | .error err => (.error (.failed err), s)
  | .ok behind =>
      match s.version behind with
      | none => (.ok (), s)
      | some etp =>
          let (accepted, outcome) := r.notify etp.statuses.zipIdx
          let s := { s with accepted := s.accepted ++ accepted }
          match outcome with
          | .error err => (.error err, s)
          | .ok statuses => s.update behind r.update { etp with statuses := statuses }

/-- The policy is reconciled, or the auditor adds a status to it. -/
inductive Event where
  | reconcile (r : Reconcile)
  | audit (api : Api) (resourceType resourceName workflowid : String)

def State.apply (s : State) : Event → State
  | .reconcile r => (r.run s).2
  | .audit api resourceType resourceName workflowid =>
      s.store { s.policy with
        statuses := s.policy.statuses ++ [passedStatus api resourceType resourceName workflowid] }

/-! ### What the loop does -/

def requests (entries : List Indexed) : List Indexed := entries.filter Indexed.isPending

def Reconcile.isRead (r : Reconcile) (entry : Indexed) : Bool := (r.answer entry).isOk

def Reconcile.marks (r : Reconcile) (entry : Indexed) : Bool :=
  match r.answer entry with
  | .ok answer => isTriggeredAfter answer = "true"
  | .error _ => false

/-- The requests up to the first one whose answer cannot be read. -/
def Reconcile.made (r : Reconcile) (entries : List Indexed) : List Indexed :=
  (requests entries).takeWhile r.isRead ++ ((requests entries).dropWhile r.isRead).take 1

def Reconcile.after (r : Reconcile) (entry : Indexed) : EventTrackerPolicyStatus :=
  if entry.isPending then { entry.1 with isTriggered := if r.marks entry then "true" else "false" } else entry.1

variable {r : Reconcile} {entries : List Indexed} {s start : State}

theorem isTriggeredAfter_eq (answer : Text) :
    isTriggeredAfter answer = if isTriggeredAfter answer = "true" then "true" else "false" := by
  unfold isTriggeredAfter
  split <;> decide

theorem accepted_notify : (r.notify entries).1 = ((r.made entries).filter r.accepts).map (·.2) := by
  induction entries with
  | nil => rfl
  | cons entry entries ih =>
      by_cases hpending : entry.isPending
      · have hrequests : requests (entry :: entries) = entry :: requests entries := List.filter_cons_of_pos hpending
        cases hanswer : r.answer entry with
        | error err =>
            have hread : r.isRead entry = false := by rw [Reconcile.isRead, hanswer]; rfl
            simp only [Reconcile.notify, hpending, if_true, hanswer, Reconcile.made, hrequests,
              List.takeWhile_cons, List.dropWhile_cons, hread]
            by_cases haccepts : r.accepts entry <;> simp [haccepts]
        | ok answer =>
            have hread : r.isRead entry = true := by rw [Reconcile.isRead, hanswer]; rfl
            have hmade : r.made (entry :: entries) = entry :: r.made entries := by
              simp [Reconcile.made, hrequests, hread]
            simp only [Reconcile.notify, hpending, if_true, hanswer, hmade, ih]
            by_cases haccepts : r.accepts entry <;> simp [haccepts]
      · have hrequests : requests (entry :: entries) = requests entries := List.filter_cons_of_neg hpending
        simp only [Reconcile.notify, hpending, Reconcile.made, hrequests]
        exact ih

theorem notify_ok (hread : ∀ entry ∈ requests entries, r.isRead entry = true) :
    (r.notify entries).2 = .ok (entries.map r.after) := by
  induction entries with
  | nil => rfl
  | cons entry entries ih =>
      have hrest : ∀ entry ∈ requests entries, r.isRead entry = true := fun other hother =>
        hread other (List.mem_filter.mpr ⟨List.mem_cons_of_mem _ (List.mem_filter.mp hother).1,
          (List.mem_filter.mp hother).2⟩)
      by_cases hpending : entry.isPending
      · have hentry := hread entry (List.mem_filter.mpr ⟨List.mem_cons_self, hpending⟩)
        cases hanswer : r.answer entry with
        | error err => simp [Reconcile.isRead, hanswer, Except.isOk, Except.toBool] at hentry
        | ok answer =>
            simp only [Reconcile.notify, hpending, if_true, hanswer, ih hrest, Except.map, List.map_cons,
              Reconcile.after, Reconcile.marks, decide_eq_true_eq]
            rw [← isTriggeredAfter_eq]
      · simp [Reconcile.notify, hpending, ih hrest, Except.map, Reconcile.after]

theorem notify_error {entry : Indexed} (hentry : entry ∈ requests entries) (hread : r.isRead entry = false) :
    ∃ err, (r.notify entries).2 = .error err := by
  induction entries with
  | nil => cases hentry
  | cons first entries ih =>
      by_cases hpending : first.isPending
      · cases hanswer : r.answer first with
        | error err => exact ⟨err, by simp [Reconcile.notify, hpending, hanswer]⟩
        | ok answer =>
            rw [requests, List.filter_cons_of_pos hpending] at hentry
            rcases List.mem_cons.mp hentry with rfl | hrest
            · simp [Reconcile.isRead, hanswer, Except.isOk, Except.toBool] at hread
            · obtain ⟨err, herr⟩ := ih hrest
              exact ⟨err, by simp [Reconcile.notify, hpending, hanswer, herr, Except.map]⟩
      · rw [requests, List.filter_cons_of_neg hpending] at hentry
        obtain ⟨err, herr⟩ := ih hentry
        exact ⟨err, by simp [Reconcile.notify, hpending, herr, Except.map]⟩

theorem made_of_isRead (hread : ∀ entry ∈ requests entries, r.isRead entry = true) :
    r.made entries = requests entries := by
  have htake : (requests entries).takeWhile r.isRead = requests entries := List.takeWhile_eq_self_iff.mpr hread
  have hdrop : (requests entries).dropWhile r.isRead = [] := List.dropWhile_eq_nil_iff.mpr hread
  rw [Reconcile.made, htake, hdrop, List.take_nil, List.append_nil]

/-- No answer of the server is read as disabled. -/
theorem marks_of_handled {entry : Indexed} {server : Server} {delivery : Delivery}
    (hexchange : r.exchange entry.2 = .handled server delivery) (hread : r.isRead entry = true) :
    r.marks entry = true := by
  rw [Reconcile.isRead, Reconcile.answer, hexchange] at hread
  rw [Reconcile.marks, Reconcile.answer, hexchange]
  cases delivery with
  | arrives =>
      simp only [sendRequest, readResponse_response, Except.mapError]
      decide
  | lost err => simp [sendRequest, Except.isOk, Except.toBool] at hread
  | notOk => simp [sendRequest, readResponse_notReachable, Except.mapError, Except.isOk, Except.toBool] at hread

theorem marks_of_accepts {entry : Indexed} (haccepts : r.accepts entry = true) (hread : r.isRead entry = true) :
    r.marks entry = true := by
  rw [Reconcile.accepts] at haccepts
  cases hexchange : r.exchange entry.2 with
  | unhandled reply => simp [hexchange, Exchange.accepts] at haccepts
  | handled server delivery => exact marks_of_handled hexchange hread

/-! ### What a call does -/

/-- The marks are stored: the version is the current one, every answer is read, and the update goes through. -/
def Reconcile.IsStored (r : Reconcile) (behind : ℕ) (entries : List Indexed) : Prop :=
  behind = 0 ∧ r.update = .ok () ∧ ∀ entry ∈ requests entries, r.isRead entry = true

def Reconcile.acceptedOf (r : Reconcile) (entries : List Indexed) : List ℕ :=
  ((requests entries).filter r.accepts).map (·.2)

theorem run_of_isStored {etp : EventTrackerPolicy} (hget : r.get = .ok 0) (hversion : s.version 0 = some etp)
    (hstored : r.IsStored 0 etp.statuses.zipIdx) :
    (r.run s).2 = { s.store { etp with statuses := etp.statuses.zipIdx.map r.after } with
      accepted := s.accepted ++ r.acceptedOf etp.statuses.zipIdx } := by
  obtain ⟨-, hupdate, hread⟩ := hstored
  have haccepted := @accepted_notify r etp.statuses.zipIdx
  rw [made_of_isRead hread] at haccepted
  simp only [Reconcile.run, hget, hversion, notify_ok hread, haccepted, State.update, hupdate, if_true]
  rfl

theorem run_of_not_isStored {behind : ℕ} {etp : EventTrackerPolicy} (hget : r.get = .ok behind)
    (hversion : s.version behind = some etp) (hstored : ¬ r.IsStored behind etp.statuses.zipIdx) :
    (r.run s).2 = { s with
      accepted := s.accepted ++ ((r.made etp.statuses.zipIdx).filter r.accepts).map (·.2) } := by
  simp only [Reconcile.run, hget, hversion, accepted_notify]
  by_cases hread : ∀ entry ∈ requests etp.statuses.zipIdx, r.isRead entry = true
  · rw [notify_ok hread]
    simp only [State.update]
    cases hupdate : r.update with
    | error err => rfl
    | ok _ =>
        have hbehind : behind ≠ 0 := fun h => hstored ⟨h, hupdate, hread⟩
        simp [hbehind]
  · push Not at hread
    obtain ⟨entry, hentry, hunread⟩ := hread
    obtain ⟨err, herr⟩ := notify_error hentry (Bool.eq_false_iff.mpr hunread)
    rw [herr]

end LitmusPortal.EventTracker
