import LitmusPortal.Agent.Panics
import LitmusPortal.Lib.Channel
import LitmusPortal.Lib.Transition

/-!
# The watch of the workflows

`startWatchWorkflow` hands every event of the handler to a channel, also the empty one that stands for a
workflow that is ignored or could not be read. `WorkflowUpdates` takes the events from the channel and
reports each.
-/

namespace LitmusPortal.Agent

open GoText GoJson

variable {R : Type}

/-- An addition or an update that the informer tells of, and how the cluster answers meanwhile. -/
structure Notification (R : Type) where
  eventType : Text
  workflowObj : Workflow
  cluster : Cluster R

structure WatchState (R : Type) where
  stream : Channel (Notification R × WorkflowEvent R)
  eventMap : EventMap R
  consumed : List (Notification R)
  sent : List (WorkflowEvent R)

def WatchState.start : WatchState R := ⟨Channel.make 10, fun _ => none, [], []⟩

inductive Move (R : Type) where
  | notify (notification : Notification R)
  | update (order : RangeOrder (Node R))

/-- A workflow that the event handler makes an event of. -/
def Accepted (startTime : ℤ) (notification : Notification R) : Prop :=
  ¬ Ignored notification.workflowObj startTime ∧ notification.cluster.chaosClient = .ok ()

section Watch

variable (isPrint : Char → Bool) (codec : ChaosResultCodec R) (view : ChaosResultView R) (clusterData : Identity)
  (startTime : ℤ)

def handle (notification : Notification R) : Except Crash (WorkflowEvent R × Option Text) :=
  workflowEventHandler view notification.cluster notification.workflowObj notification.eventType startTime

/-- The error of the handler is logged and no more. A process that has crashed takes no step. -/
def step (state : WatchState R) : Move R → Option (WatchState R)
  | .notify notification =>
      match handle view startTime notification with
      | .error _ => none
      | .ok (workflow, _) =>
          (state.stream.send (notification, workflow)).map fun stream => { state with stream := stream }
  | .update order =>
      match state.stream.receive with
      | none => none
      | some ((notification, event), stream) =>
          match prepareUpdate isPrint codec clusterData order state.eventMap event with
          | .error _ => none
          | .ok update => some {
              stream := stream
              eventMap := update.eventMap
              consumed := state.consumed ++ [notification]
              sent := state.sent ++ [update.sent] }

/-! ### What is sent -/

theorem restoreNode_ids {event event' : WorkflowEvent R} {entry : (_ : Text) × Node R}
    (h : restoreNode event entry = .ok event') :
    event'.workflowID = event.workflowID ∧ event'.uid = event.uid := by
  rw [restoreNode] at h
  by_cases hrestored : entry.2.hasChaosData ∧ (event.node entry.1).chaosExp.isNone
  · rw [if_pos hrestored] at h
    cases hnodes : event.nodes with
    | none =>
        rw [hnodes] at h
        cases h
    | some nodes =>
        rw [hnodes] at h
        obtain rfl := Except.ok.inj h
        exact ⟨rfl, rfl⟩
  · rw [if_neg hrestored] at h
    obtain rfl := Except.ok.inj h
    exact ⟨rfl, rfl⟩

theorem restoreNodes_ids {event event' : WorkflowEvent R} {entries : List ((_ : Text) × Node R)}
    (h : entries.foldlM restoreNode event = .ok event') :
    event'.workflowID = event.workflowID ∧ event'.uid = event.uid := by
  induction entries generalizing event with
  | nil =>
      obtain rfl := Except.ok.inj h
      exact ⟨rfl, rfl⟩
  | cons entry entries ih =>
      rw [List.foldlM_cons] at h
      obtain ⟨mid, hmid, h⟩ := exists_of_bind_eq_ok h
      obtain ⟨hid, huid⟩ := restoreNode_ids hmid
      exact ⟨(ih h).1.trans hid, (ih h).2.trans huid⟩

theorem prepareUpdate_ids {order : RangeOrder (Node R)} {eventMap : EventMap R} {event : WorkflowEvent R}
    {update : Update R} (h : prepareUpdate isPrint codec clusterData order eventMap event = .ok update) :
    update.sent.workflowID = event.workflowID ∧ update.sent.uid = event.uid := by
  obtain ⟨restored, hrestored, h⟩ := exists_of_bind_eq_ok h
  obtain rfl := Except.ok.inj h
  rw [restore] at hrestored
  cases hstored : eventMap event.uid with
  | none =>
      rw [hstored] at hrestored
      obtain rfl := Except.ok.inj hrestored
      exact ⟨rfl, rfl⟩
  | some stored =>
      rw [hstored] at hrestored
      exact restoreNodes_ids hrestored

theorem handle_cases {notification : Notification R} {event : WorkflowEvent R} {err : Option Text}
    (h : handle view startTime notification = .ok (event, err)) :
    Accepted startTime notification ∧
        event.workflowID = labelOf notification.workflowObj.labels "workflow_id" ∧
        event.uid = notification.workflowObj.uid ∨
      ¬ Accepted startTime notification ∧ event = .empty := by
  by_cases hignored : Ignored notification.workflowObj startTime
  · have hempty := workflowEventHandler_of_ignored view notification.cluster hignored notification.eventType
    obtain ⟨rfl, -⟩ := Prod.mk.inj (Except.ok.inj (hempty.symm.trans h))
    exact .inr ⟨fun haccepted => haccepted.1 hignored, rfl⟩
  · rcases workflowEventHandler_cases view notification.cluster hignored h with
      ⟨hclient, -, -, hid, huid, -⟩ | ⟨hclient, -, hempty⟩
    · exact .inl ⟨⟨hignored, hclient⟩, hid, huid⟩
    · exact .inr ⟨fun haccepted => hclient haccepted.2, hempty⟩

end Watch

/-! ### Runs -/

section Runs

variable (isPrint : Char → Bool) (codec : ChaosResultCodec R) (view : ChaosResultView R) (clusterData : Identity)
  (startTime : ℤ)

/-- The event names the workflow and the run of a notification that was accepted. -/
def Reports (startTime : ℤ) (notification : Notification R) (event : WorkflowEvent R) : Prop :=
  Accepted startTime notification ∧
    event.workflowID = labelOf notification.workflowObj.labels "workflow_id" ∧ event.workflowID ≠ [] ∧
    event.uid = notification.workflowObj.uid ∧ event.uid ≠ []

/-- Every event that has been sent reports an accepted workflow. -/
def Reported (state : WatchState R) : Prop :=
  ∀ event ∈ state.sent, ∃ notification ∈ state.consumed, Reports startTime notification event

/-- A workflow that is not accepted causes no mutation and no change of the event map. -/
def Unmoved (before after : WatchState R) : Prop :=
  ∀ notification, after.consumed = before.consumed ++ [notification] → ¬ Accepted startTime notification →
    after.sent = before.sent ∧ after.eventMap = before.eventMap

def StaysIgnored (moves : List (Move R)) : Prop :=
  ∀ front mid, front <+: moves →
    Transition.run (step isPrint codec view clusterData startTime) .start front = some mid →
    Reported startTime mid ∧ ∀ move next, front ++ [move] <+: moves →
      step isPrint codec view clusterData startTime mid move = some next → Unmoved startTime mid next

/-- The event that is taken from the channel is that of an accepted workflow, whose run has an identifier. -/
def TakesAccepted (state : WatchState R) : Move R → Prop
  | .notify _ => True
  | .update _ => ∀ entry stream, state.stream.receive = some (entry, stream) →
      Accepted startTime entry.1 ∧ entry.1.workflowObj.uid ≠ []

def Handled (notification : Notification R) (event : WorkflowEvent R) : Prop :=
  ∃ handled err, handle view startTime notification = .ok (handled, err) ∧
    event.workflowID = handled.workflowID ∧ event.uid = handled.uid

structure Watched (state : WatchState R) : Prop where
  waiting : ∀ entry ∈ state.stream.buffer, Handled view startTime entry.1 entry.2
  sent : List.Forall₂ (Handled view startTime) state.consumed state.sent

theorem watched_start : Watched view startTime (.start : WatchState R) where
  waiting := fun _ h => absurd h List.not_mem_nil
  sent := .nil

theorem step_cases {state next : WatchState R} {move : Move R}
    (h : step isPrint codec view clusterData startTime state move = some next) :
    (∃ notification workflow err stream, move = .notify notification ∧
        handle view startTime notification = .ok (workflow, err) ∧
        state.stream.send (notification, workflow) = some stream ∧ next = { state with stream := stream }) ∨
      ∃ order notification event stream update, move = .update order ∧
        state.stream.receive = some ((notification, event), stream) ∧
        prepareUpdate isPrint codec clusterData order state.eventMap event = .ok update ∧
        next = ⟨stream, update.eventMap, state.consumed ++ [notification], state.sent ++ [update.sent]⟩ := by
  cases move with
  | notify notification =>
      rw [step] at h
      cases hhandle : handle view startTime notification with
      | error crash =>
          rw [hhandle] at h
          cases h
      | ok handled =>
          obtain ⟨workflow, err⟩ := handled
          rw [hhandle] at h
          obtain ⟨stream, hsend, rfl⟩ := Option.map_eq_some_iff.mp h
          exact .inl ⟨notification, workflow, err, stream, rfl, hhandle, hsend, rfl⟩
  | update order =>
      rw [step] at h
      cases hreceive : state.stream.receive with
      | none =>
          rw [hreceive] at h
          cases h
      | some received =>
          obtain ⟨⟨notification, event⟩, stream⟩ := received
          rw [hreceive] at h
          dsimp only at h
          cases hupdate : prepareUpdate isPrint codec clusterData order state.eventMap event with
          | error crash =>
              rw [hupdate] at h
              cases h
          | ok update =>
              rw [hupdate] at h
              obtain rfl := Option.some.inj h
              exact .inr ⟨order, notification, event, stream, update, rfl, rfl, hupdate, rfl⟩

theorem watched_step {state next : WatchState R} {move : Move R} (h : Watched view startTime state)
    (hstep : step isPrint codec view clusterData startTime state move = some next) :
    Watched view startTime next := by
  rcases step_cases isPrint codec view clusterData startTime hstep with
    ⟨notification, workflow, err, stream, rfl, hhandle, hsend, rfl⟩ |
    ⟨order, notification, event, stream, update, rfl, hreceive, hupdate, rfl⟩
  · refine ⟨fun entry hentry => ?_, h.sent⟩
    rw [Channel.buffer_send hsend] at hentry
    rcases List.mem_append.mp hentry with hwaiting | hlast
    · exact h.waiting entry hwaiting
    · obtain rfl := List.mem_singleton.mp hlast
      exact ⟨workflow, err, hhandle, rfl, rfl⟩
  · have hbuffer := (Channel.receive_cases hreceive).1
    refine ⟨fun entry hentry => h.waiting entry ?_, ?_⟩
    · rw [hbuffer]
      exact List.mem_cons_of_mem _ hentry
    · refine List.rel_append h.sent (.cons ?_ .nil)
      obtain ⟨handled, err, hhandle, hid, huid⟩ := h.waiting (notification, event) (hbuffer ▸ List.mem_cons_self)
      obtain ⟨hid', huid'⟩ := prepareUpdate_ids isPrint codec clusterData hupdate
      exact ⟨handled, err, hhandle, hid'.trans hid, huid'.trans huid⟩

theorem kept_iff {state next : WatchState R} {move : Move R} (hwatched : Watched view startTime state)
    (hreported : Reported startTime state)
    (hstep : step isPrint codec view clusterData startTime state move = some next) :
    Reported startTime next ∧ Unmoved startTime state next ↔ TakesAccepted startTime state move := by
  rcases step_cases isPrint codec view clusterData startTime hstep with
    ⟨notification, workflow, err, stream, rfl, hhandle, hsend, rfl⟩ |
    ⟨order, notification, event, stream, update, rfl, hreceive, hupdate, rfl⟩
  · refine iff_of_true ⟨hreported, fun n hn => ?_⟩ trivial
    exact absurd (congrArg List.length hn) (by simp)
  · have hbuffer := (Channel.receive_cases hreceive).1
    obtain ⟨handled, err, hhandle, hid, huid⟩ := hwatched.waiting (notification, event) (hbuffer ▸ List.mem_cons_self)
    obtain ⟨hid', huid'⟩ := prepareUpdate_ids isPrint codec clusterData hupdate
    have hcases := handle_cases view startTime hhandle
    constructor
    · rintro ⟨hafter, -⟩ entry stream' hentry
      obtain ⟨rfl, -⟩ : (notification, event) = entry ∧ stream = stream' := by
        simpa using hreceive.symm.trans hentry
      obtain ⟨reported, -, -, hid'', hne, huid'', hune⟩ :=
        hafter update.sent (List.mem_append_right _ (List.mem_singleton_self _))
      rcases hcases with ⟨haccepted, -, hrun⟩ | ⟨-, rfl⟩
      · refine ⟨haccepted, ?_⟩
        rw [← hrun, ← huid, ← huid']
        exact hune
      · exact absurd (hid'.trans hid) hne
    · intro htakes
      obtain ⟨haccepted, hrun⟩ := htakes _ _ hreceive
      refine ⟨fun sent hsent => ?_, fun n hn hnot => ?_⟩
      · rcases List.mem_append.mp hsent with hbefore | hlast
        · obtain ⟨n, hn, hreports⟩ := hreported sent hbefore
          exact ⟨n, List.mem_append_left _ hn, hreports⟩
        · obtain rfl := List.mem_singleton.mp hlast
          refine ⟨notification, List.mem_append_right _ (List.mem_singleton_self _), haccepted, ?_⟩
          rcases hcases with ⟨-, hworkflow, hrun'⟩ | ⟨hnot, -⟩
          · have hworkflowID := hid'.trans (hid.trans hworkflow)
            have huid'' := huid'.trans (huid.trans hrun')
            refine ⟨hworkflowID, ?_, huid'', ?_⟩
            · rw [hworkflowID]
              exact fun h => haccepted.1 (.inl h)
            · rw [huid'']
              exact hrun
          · exact absurd haccepted hnot
      · obtain rfl : notification = n := by simpa using hn
        exact absurd haccepted hnot

theorem staysIgnored_iff {moves : List (Move R)} {state : WatchState R}
    (hrun : Transition.run (step isPrint codec view clusterData startTime) .start moves = some state) :
    StaysIgnored isPrint codec view clusterData startTime moves ↔
      Transition.Meets (step isPrint codec view clusterData startTime) (TakesAccepted startTime) .start moves := by
  have hwatched : ∀ front mid,
      Transition.run (step isPrint codec view clusterData startTime) .start front = some mid →
        Watched view startTime mid := fun front mid =>
    Transition.run_invariant_of_step (fun _ _ _ h => watched_step isPrint codec view clusterData startTime h)
      (watched_start view startTime)
  have hstart : Watched view startTime (.start : WatchState R) ∧ Reported startTime (.start : WatchState R) :=
    ⟨watched_start view startTime, fun _ h => absurd h List.not_mem_nil⟩
  have hkept : ∀ s move next, Watched view startTime s ∧ Reported startTime s →
      step isPrint codec view clusterData startTime s move = some next →
      ((Watched view startTime next ∧ Reported startTime next) ∧ Unmoved startTime s next ↔
        TakesAccepted startTime s move) := by
    intro s move next hs hnext
    rw [and_assoc, and_iff_right (watched_step isPrint codec view clusterData startTime hs.1 hnext)]
    exact kept_iff isPrint codec view clusterData startTime hs.1 hs.2 hnext
  rw [← Transition.run_related_iff hkept hstart hrun]
  constructor
  · intro h front mid hfront hmid
    exact ⟨⟨hwatched front mid hmid, (h front mid hfront hmid).1⟩, (h front mid hfront hmid).2⟩
  · intro h front mid hfront hmid
    exact ⟨(h front mid hfront hmid).1.2, (h front mid hfront hmid).2⟩

end Runs

def noLabels : Workflow := ⟨[], [], [], [], 0, [], [], 0, 0, []⟩

def noView : ChaosResultView Unit := ⟨id, fun _ => [], fun _ => []⟩

def accepted : Notification Unit where
  eventType := ofString "ADD"
  workflowObj := { noLabels with labels := [(ofString "workflow_id", ofString "w")], uid := ofString "run" }
  cluster := emptyCluster.toCluster

/-- An accepted workflow is added and reported. -/
theorem staysIgnored_accepted :
    StaysIgnored (fun _ => true) emptyCodec noView ⟨[], [], []⟩ 0 [.notify accepted, .update .asStored] ↔
      Transition.Meets (step (fun _ => true) emptyCodec noView ⟨[], [], []⟩ 0) (TakesAccepted 0) .start
        [.notify accepted, .update .asStored] :=
  staysIgnored_iff (fun _ => true) emptyCodec noView ⟨[], [], []⟩ 0 rfl

def WorkflowsStayIgnored : Prop :=
  ∀ (R : Type) (isPrint : Char → Bool) (codec : ChaosResultCodec R) (view : ChaosResultView R)
    (clusterData : Identity) (startTime : ℤ) (moves : List (Move R)) (state : WatchState R),
    Transition.run (step isPrint codec view clusterData startTime) .start moves = some state →
    StaysIgnored isPrint codec view clusterData startTime moves

/-- A workflow without labels is reported with empty identifiers. -/
theorem not_workflowsStayIgnored : ¬ WorkflowsStayIgnored := by
  intro h
  have hstays := h Unit (fun _ => true) emptyCodec noView ⟨[], [], []⟩ 0
    [.notify ⟨ofString "ADD", noLabels, emptyCluster.toCluster⟩, .update .asStored] _ rfl
  obtain ⟨_, _, -, -, hne, -⟩ := (hstays _ _ (List.prefix_refl _) rfl).1 .empty List.mem_cons_self
  exact hne rfl

end LitmusPortal.Agent
