import LitmusPortal.DataStore.Subscriptions
import LitmusPortal.Lib.Traffic

/-!
# What the subscribers of a project see

An event that is published reaches every subscriber its project had at that moment, once and in the order of the
publications, however the subscribers read and leave. Two subscribers of a project see the same events in the same
order from the moment on at which the later one came.
-/

namespace LitmusPortal.Subscriptions

open Transition

variable {Event : Type}

def subscribes (state : StoreState Event) (channel : Nat) (topic : Topic) (projectID : String) : Bool :=
  (state.subscribers channel).any fun subscriber => subscriber.topic = topic && subscriber.projectID = projectID

/-- The events that are published while the subscriber is there to see them. -/
def published (channel : Nat) (state : StoreState Event) : Label Event → List Event
  | .sendWorkflowEvent projectID event => if subscribes state channel .workflow projectID then [event] else []
  | .sendClusterEvent projectID event => if subscribes state channel .cluster projectID then [event] else []
  | _ => []

def received (channel : Nat) (state : StoreState Event) : Label Event → List Event
  | .receive other =>
      if other = channel then (state.subscribers other).elim [] fun subscriber => subscriber.channel.buffer.take 1
      else []
  | _ => []

def buffered (subscribers : Nat → Option (Subscriber Event)) (channel : Nat) : List Event :=
  (subscribers channel).elim [] fun subscriber => subscriber.channel.buffer

/-- The event of a broadcast that has not come to the channel yet. -/
def awaited (sending : Option (Broadcast Event)) (channel : Nat) : List Event :=
  sending.elim [] fun broadcast => if channel ∈ broadcast.waiting then [broadcast.event] else []

def inTransit (channel : Nat) (state : StoreState Event) : List Event :=
  buffered state.subscribers channel ++ awaited state.sending channel

/-- A channel is in the list of its own project only. -/
def OwnLists (state : StoreState Event) : Prop :=
  ∀ topic projectID, ∀ channel ∈ state.publish topic projectID, ∀ subscriber ∈ state.subscribers channel,
    subscriber.topic = topic ∧ subscriber.projectID = projectID

section Step

variable {state state' : StoreState Event} {label : Label Event} {channel other : Nat} {topic : Topic}
  {projectID : String} {subscriber subscriber' : Subscriber Event}

theorem subscribes_iff : subscribes state channel topic projectID = true ↔
    ∃ subscriber, state.subscribers channel = some subscriber ∧ subscriber.topic = topic ∧
      subscriber.projectID = projectID := by
  rw [subscribes, Option.any_eq_true]
  simp only [Bool.and_eq_true, decide_eq_true_eq]

theorem mem_publish_iff (hregistered : Registered state) (hown : OwnLists state) :
    channel ∈ state.publish topic projectID ↔ subscribes state channel topic projectID = true := by
  rw [subscribes_iff]
  constructor
  · intro hmem
    obtain ⟨subscriber, hsubscriber⟩ := hregistered.known topic projectID channel hmem
    exact ⟨subscriber, hsubscriber, hown topic projectID channel hmem subscriber hsubscriber⟩
  · rintro ⟨subscriber, hsubscriber, rfl, rfl⟩
    exact hregistered.listed channel subscriber hsubscriber

theorem OwnLists.setSubscriber (h : OwnLists state) (hsubscriber : state.subscribers other = some subscriber)
    (hsame : SameSubscription subscriber subscriber') : OwnLists (setSubscriber state other subscriber') := by
  intro topic projectID channel hmem found hfound
  by_cases heq : channel = other
  · subst heq
    obtain rfl := Option.some.inj ((setSubscriber_self ..).symm.trans hfound)
    rw [hsame.1, hsame.2.1]
    exact h topic projectID channel hmem subscriber hsubscriber
  · rw [Option.mem_def, setSubscriber_of_ne state heq] at hfound
    exact h topic projectID channel hmem found hfound

theorem mem_of_mem_update {publish : Topic → String → List Nat} {listTopic : Topic} {listProject : String}
    (h : channel ∈ Function.update publish topic
      (Function.update (publish topic) projectID (publish topic projectID ++ [other])) listTopic listProject) :
    channel ∈ publish listTopic listProject ∨ channel = other ∧ listTopic = topic ∧ listProject = projectID := by
  by_cases htopic : listTopic = topic
  · subst htopic
    rw [Function.update_self] at h
    by_cases hproject : listProject = projectID
    · subst hproject
      rw [Function.update_self, List.mem_append, List.mem_singleton] at h
      exact h.imp_right fun heq => ⟨heq, rfl, rfl⟩
    · rw [Function.update_of_ne hproject] at h
      exact .inl h
  · rw [Function.update_of_ne htopic] at h
    exact .inl h

theorem OwnLists.subscribe (h : OwnLists state) (hregistered : Registered state)
    (hstep : subscribe topic other projectID state = some state') : OwnLists state' := by
  obtain ⟨-, hnew, rfl⟩ := subscribe_cases hstep
  intro listTopic listProject channel hmem found hfound
  change Function.update state.subscribers other _ channel = some found at hfound
  rcases mem_of_mem_update hmem with hlisted | ⟨rfl, rfl, rfl⟩
  · obtain ⟨subscriber, hsubscriber⟩ := hregistered.known listTopic listProject channel hlisted
    have hne : channel ≠ other := by
      rintro rfl
      rw [hnew] at hsubscriber
      cases hsubscriber
    rw [Function.update_of_ne hne] at hfound
    exact h listTopic listProject channel hlisted found hfound
  · rw [Function.update_self] at hfound
    obtain rfl := Option.some.inj hfound
    exact ⟨rfl, rfl⟩

theorem OwnLists.step (h : OwnLists state) (hregistered : Registered state) (hstep : step state label = some state') :
    OwnLists state' := by
  cases label with
  | getWorkflowEvents channel projectID => exact h.subscribe hregistered hstep
  | getClusterEvents channel projectID => exact h.subscribe hregistered hstep
  | sendWorkflowEvent projectID event =>
      obtain ⟨-, rfl⟩ := beginSend_cases hstep
      exact h
  | sendClusterEvent projectID event =>
      obtain ⟨-, rfl⟩ := beginSend_cases hstep
      exact h
  | send =>
      obtain ⟨event, channel, rest, subscriber, sent, hsending, hsubscriber, hsend, rfl⟩ := sendNext_cases hstep
      exact h.setSubscriber hsubscriber ⟨rfl, rfl, Channel.capacity_send hsend⟩
  | unlock =>
      obtain ⟨-, rfl⟩ := unlock_cases hstep
      exact h
  | cancel channel =>
      obtain ⟨subscriber, subscriber', hsubscriber, hact, rfl⟩ := stepSubscriber_cases hstep
      obtain rfl := cancel_cases hact
      exact h.setSubscriber hsubscriber ⟨rfl, rfl, rfl⟩
  | cleanUp channel =>
      obtain ⟨subscriber, subscriber', hsubscriber, hact, rfl⟩ := stepSubscriber_cases hstep
      obtain ⟨-, rfl⟩ := cleanUp_cases hact
      exact h.setSubscriber hsubscriber ⟨rfl, rfl, rfl⟩
  | receive channel =>
      obtain ⟨subscriber, subscriber', hsubscriber, hact, rfl⟩ := stepSubscriber_cases hstep
      obtain ⟨-, event, received, hreceive, rfl⟩ := receive_cases hact
      exact h.setSubscriber hsubscriber ⟨rfl, rfl, (Channel.receive_cases hreceive).2⟩
  | leave channel =>
      obtain ⟨subscriber, subscriber', hsubscriber, hact, rfl⟩ := stepSubscriber_cases hstep
      obtain ⟨-, rfl⟩ := leave_cases hact
      exact h.setSubscriber hsubscriber ⟨rfl, rfl, rfl⟩

/-! ### The balance of a channel -/

theorem buffered_setSubscriber (hsubscriber : state.subscribers other = some subscriber)
    (hbuffer : subscriber'.channel.buffer = subscriber.channel.buffer) :
    buffered (setSubscriber state other subscriber').subscribers channel = buffered state.subscribers channel := by
  by_cases heq : channel = other
  · subst heq
    rw [buffered, setSubscriber_self, buffered, hsubscriber, Option.elim_some, Option.elim_some, hbuffer]
  · rw [buffered, setSubscriber_of_ne state heq, buffered]

theorem balance_quiet (hpublished : published channel state label = []) (hreceived : received channel state label = [])
    (hsame : inTransit channel state' = inTransit channel state) :
    inTransit channel state ++ published channel state label =
      received channel state label ++ inTransit channel state' := by
  rw [hpublished, hreceived, hsame, List.append_nil, List.nil_append]

theorem inTransit_setSubscriber (hsubscriber : state.subscribers other = some subscriber)
    (hbuffer : subscriber'.channel.buffer = subscriber.channel.buffer) :
    inTransit channel (setSubscriber state other subscriber') = inTransit channel state := by
  rw [inTransit, buffered_setSubscriber hsubscriber hbuffer, inTransit]
  rfl

theorem inTransit_subscribe (hstep : subscribe topic other projectID state = some state') :
    inTransit channel state' = inTransit channel state := by
  obtain ⟨-, hnew, rfl⟩ := subscribe_cases hstep
  have hbuffered : buffered (Function.update state.subscribers other
      (some ⟨topic, projectID, Channel.make 1, false, false, true⟩)) channel = buffered state.subscribers channel := by
    by_cases heq : channel = other
    · subst heq
      rw [buffered, Function.update_self, buffered, hnew]
      rfl
    · rw [buffered, Function.update_of_ne heq, buffered]
  rw [inTransit, hbuffered, inTransit]

/-- A publication is in the hands of its sender for every subscriber it will come to. -/
theorem balance_beginSend (hregistered : Registered state) (hown : OwnLists state) {event : Event}
    (hstep : beginSend topic projectID event state = some state')
    (hpublished : published channel state label =
      if subscribes state channel topic projectID then [event] else [])
    (hreceived : received channel state label = []) :
    inTransit channel state ++ published channel state label =
      received channel state label ++ inTransit channel state' := by
  obtain ⟨hfree, rfl⟩ := beginSend_cases hstep
  have hbefore : inTransit channel state = buffered state.subscribers channel := by
    rw [inTransit, hfree, awaited, Option.elim_none, List.append_nil]
  have hafter : inTransit channel { state with sending := some ⟨event, state.publish topic projectID⟩ } =
      buffered state.subscribers channel ++ if channel ∈ state.publish topic projectID then [event] else [] := rfl
  rw [hbefore, hafter, hpublished, hreceived, List.nil_append]
  simp only [mem_publish_iff hregistered hown]

theorem balance_send (hregistered : Registered state) (hstep : sendNext state = some state') :
    inTransit channel state ++ published channel state .send =
      received channel state .send ++ inTransit channel state' := by
  obtain ⟨event, other, rest, subscriber, sent, hsending, hsubscriber, hsend, rfl⟩ := sendNext_cases hstep
  have hnodup := hregistered.waitingNodup _ hsending
  apply balance_quiet rfl rfl
  rw [inTransit, inTransit, hsending]
  by_cases heq : channel = other
  · subst heq
    have hgone : awaited (some ⟨event, rest⟩) channel = [] := if_neg (List.nodup_cons.mp hnodup).1
    have hwaits : awaited (some ⟨event, channel :: rest⟩) channel = [event] := if_pos List.mem_cons_self
    rw [hgone, hwaits, List.append_nil, buffered, setSubscriber_self, Option.elim_some, Channel.buffer_send hsend,
      buffered, hsubscriber, Option.elim_some]
  · have hwaits : awaited (some ⟨event, other :: rest⟩) channel = awaited (some ⟨event, rest⟩) channel := by
      simp only [awaited, Option.elim_some, List.mem_cons, heq, false_or]
    rw [hwaits, buffered, setSubscriber_of_ne state heq, buffered]

theorem balance_receive (hstep : stepSubscriber state other receive = some state') :
    inTransit channel state ++ published channel state (.receive other) =
      received channel state (.receive other) ++ inTransit channel state' := by
  obtain ⟨subscriber, subscriber', hsubscriber, hact, rfl⟩ := stepSubscriber_cases hstep
  obtain ⟨-, event, rest, hreceive, rfl⟩ := receive_cases hact
  obtain ⟨hbuffer, -⟩ := Channel.receive_cases hreceive
  have hnone : published channel state (.receive other) = [] := rfl
  by_cases heq : other = channel
  · subst heq
    have htaken : received other state (.receive other) = [event] := by
      rw [received, if_pos rfl, hsubscriber, Option.elim_some, hbuffer, List.take_succ_cons, List.take_zero]
    rw [htaken, hnone, inTransit, inTransit, buffered, hsubscriber, Option.elim_some, hbuffer, buffered,
      setSubscriber_self, Option.elim_some, List.append_nil]
    rfl
  · apply balance_quiet hnone (if_neg heq)
    rw [inTransit, buffered, setSubscriber_of_ne state (Ne.symm heq), inTransit, buffered]
    rfl

theorem balance_step (hregistered : Registered state) (hown : OwnLists state) (hstep : step state label = some state') :
    inTransit channel state ++ published channel state label =
      received channel state label ++ inTransit channel state' := by
  cases label with
  | getWorkflowEvents other projectID => exact balance_quiet rfl rfl (inTransit_subscribe hstep)
  | getClusterEvents other projectID => exact balance_quiet rfl rfl (inTransit_subscribe hstep)
  | sendWorkflowEvent projectID event => exact balance_beginSend hregistered hown hstep rfl rfl
  | sendClusterEvent projectID event => exact balance_beginSend hregistered hown hstep rfl rfl
  | send => exact balance_send hregistered hstep
  | receive other => exact balance_receive hstep
  | unlock =>
      obtain ⟨⟨event, hsending⟩, rfl⟩ := unlock_cases hstep
      apply balance_quiet rfl rfl
      rw [inTransit, inTransit, hsending]
      rfl
  | cancel other =>
      obtain ⟨subscriber, subscriber', hsubscriber, hact, rfl⟩ := stepSubscriber_cases hstep
      obtain rfl := cancel_cases hact
      exact balance_quiet rfl rfl (inTransit_setSubscriber hsubscriber rfl)
  | cleanUp other =>
      obtain ⟨subscriber, subscriber', hsubscriber, hact, rfl⟩ := stepSubscriber_cases hstep
      obtain ⟨-, rfl⟩ := cleanUp_cases hact
      exact balance_quiet rfl rfl (inTransit_setSubscriber hsubscriber rfl)
  | leave other =>
      obtain ⟨subscriber, subscriber', hsubscriber, hact, rfl⟩ := stepSubscriber_cases hstep
      obtain ⟨-, rfl⟩ := leave_cases hact
      exact balance_quiet rfl rfl (inTransit_setSubscriber hsubscriber rfl)

theorem subscriber_step (hstep : step state label = some state')
    (hsubscriber : state.subscribers channel = some subscriber) :
    ∃ subscriber', state'.subscribers channel = some subscriber' ∧ SameSubscription subscriber subscriber' := by
  have hset : ∀ {other : Nat} {before after : Subscriber Event}, state.subscribers other = some before →
      SameSubscription before after → ∃ subscriber', (setSubscriber state other after).subscribers channel =
        some subscriber' ∧ SameSubscription subscriber subscriber' := by
    intro other before after hbefore hsame
    by_cases heq : channel = other
    · subst heq
      obtain rfl := Option.some.inj (hsubscriber.symm.trans hbefore)
      exact ⟨after, setSubscriber_self .., hsame⟩
    · exact ⟨subscriber, by rw [setSubscriber_of_ne state heq, hsubscriber], rfl, rfl, rfl⟩
  have hnew : ∀ {topic : Topic} {other : Nat} {projectID : String},
      subscribe topic other projectID state = some state' → ∃ subscriber',
        state'.subscribers channel = some subscriber' ∧ SameSubscription subscriber subscriber' := by
    intro topic other projectID hsubscribe
    obtain ⟨-, hnone, rfl⟩ := subscribe_cases hsubscribe
    have hne : channel ≠ other := by
      rintro rfl
      rw [hnone] at hsubscriber
      cases hsubscriber
    exact ⟨subscriber, (Function.update_of_ne hne _ _).trans hsubscriber, rfl, rfl, rfl⟩
  cases label with
  | getWorkflowEvents other projectID => exact hnew hstep
  | getClusterEvents other projectID => exact hnew hstep
  | sendWorkflowEvent projectID event =>
      obtain ⟨-, rfl⟩ := beginSend_cases hstep
      exact ⟨subscriber, hsubscriber, rfl, rfl, rfl⟩
  | sendClusterEvent projectID event =>
      obtain ⟨-, rfl⟩ := beginSend_cases hstep
      exact ⟨subscriber, hsubscriber, rfl, rfl, rfl⟩
  | unlock =>
      obtain ⟨-, rfl⟩ := unlock_cases hstep
      exact ⟨subscriber, hsubscriber, rfl, rfl, rfl⟩
  | send =>
      obtain ⟨event, other, rest, before, sent, -, hbefore, hsend, rfl⟩ := sendNext_cases hstep
      exact hset hbefore ⟨rfl, rfl, Channel.capacity_send hsend⟩
  | cancel other =>
      obtain ⟨before, after, hbefore, hact, rfl⟩ := stepSubscriber_cases hstep
      obtain rfl := cancel_cases hact
      exact hset hbefore ⟨rfl, rfl, rfl⟩
  | cleanUp other =>
      obtain ⟨before, after, hbefore, hact, rfl⟩ := stepSubscriber_cases hstep
      obtain ⟨-, rfl⟩ := cleanUp_cases hact
      exact hset hbefore ⟨rfl, rfl, rfl⟩
  | receive other =>
      obtain ⟨before, after, hbefore, hact, rfl⟩ := stepSubscriber_cases hstep
      obtain ⟨-, event, rest, hreceive, rfl⟩ := receive_cases hact
      exact hset hbefore ⟨rfl, rfl, (Channel.receive_cases hreceive).2⟩
  | leave other =>
      obtain ⟨before, after, hbefore, hact, rfl⟩ := stepSubscriber_cases hstep
      obtain ⟨-, rfl⟩ := leave_cases hact
      exact hset hbefore ⟨rfl, rfl, rfl⟩

end Step

/-! ### Runs -/

section Run

variable {labels : List (Label Event)} {state : StoreState Event}

theorem registered_run (hrun : run step newStore labels = some state) : Registered state ∧ OwnLists state := by
  refine run_invariant_of_step (fun s label s' (h : Registered s ∧ OwnLists s) hstep => ?_)
    ⟨registered_newStore, nofun⟩ hrun
  exact ⟨h.1.step hstep, h.2.step h.1 hstep⟩

theorem inTransit_length_le (hregistered : Registered state) (channel : Nat) :
    (inTransit channel state).length ≤ 2 := by
  have hbuffered : (buffered state.subscribers channel).length ≤ 1 := by
    rw [buffered]
    cases hsubscriber : state.subscribers channel with
    | none => exact Nat.zero_le 1
    | some subscriber =>
        have hcapacity := hregistered.capacity channel subscriber hsubscriber
        exact hcapacity ▸ subscriber.channel.fits
  have hawaited : (awaited state.sending channel).length ≤ 1 := by
    rw [awaited]
    cases state.sending with
    | none => exact Nat.zero_le 1
    | some broadcast =>
        rw [Option.elim_some]
        split
        · exact Nat.le_refl 1
        · exact Nat.zero_le 1
  rw [inTransit, List.length_append]
  omega

theorem balance_run (hrun : run step (newStore : StoreState Event) labels = some state) (channel : Nat) :
    observed step (published channel) newStore labels =
      observed step (received channel) newStore labels ++ inTransit channel state := by
  refine observed_balance (fun s label s' (h : Registered s ∧ OwnLists s) hstep => ?_)
    (fun s label s' h hstep => balance_step h.1 h.2 hstep) ⟨registered_newStore, nofun⟩ hrun
  exact ⟨h.1.step hstep, h.2.step h.1 hstep⟩

/-- A subscriber reads the events published to its project in their order and each one once; at most two of them are on
their way to it. -/
theorem events_inOrder (hrun : run step (newStore : StoreState Event) labels = some state) (channel : Nat) :
    observed step (published channel) newStore labels =
        observed step (received channel) newStore labels ++ inTransit channel state ∧
      (inTransit channel state).length ≤ 2 :=
  ⟨balance_run hrun channel, inTransit_length_le (registered_run hrun).1 channel⟩

/-- A second subscriber comes between two events, and the first one has read one of them. -/
def lateSubscriber : List (Label String) :=
  [.getWorkflowEvents 0 "project-1", .sendWorkflowEvent "project-1" "started", .send, .unlock,
    .getWorkflowEvents 1 "project-1", .receive 0, .sendWorkflowEvent "project-1" "stopped", .send]

theorem isSome_run_lateSubscriber : (run step newStore lateSubscriber).isSome = true := by decide

theorem events_inOrder_lateSubscriber :
    ∃ state, run step newStore lateSubscriber = some state ∧
      observed step (published 1) newStore lateSubscriber =
        observed step (received 1) newStore lateSubscriber ++ inTransit 1 state ∧
      (inTransit 1 state).length ≤ 2 := by
  obtain ⟨state, hrun⟩ := Option.isSome_iff_exists.mp isSome_run_lateSubscriber
  exact ⟨state, hrun, events_inOrder hrun 1⟩

def SubscribedAs (channel : Nat) (subscriber : Subscriber Event) (state : StoreState Event) : Prop :=
  ∃ subscriber', state.subscribers channel = some subscriber' ∧ SameSubscription subscriber subscriber'

theorem subscribedAs_run {start : StoreState Event} (hrun : run step start labels = some state) {channel : Nat}
    {subscriber : Subscriber Event} (hsubscriber : start.subscribers channel = some subscriber) :
    SubscribedAs channel subscriber state := by
  have hstart : SubscribedAs channel subscriber start := ⟨subscriber, hsubscriber, rfl, rfl, rfl⟩
  refine run_invariant_of_step (fun s label s' h hstep => ?_) hstart hrun
  obtain ⟨mid, hmid, hsame⟩ := h
  obtain ⟨subscriber', hsubscriber', hsame'⟩ := subscriber_step hstep hmid
  exact ⟨subscriber', hsubscriber', hsame'.1.trans hsame.1, hsame'.2.1.trans hsame.2.1,
    hsame'.2.2.trans hsame.2.2⟩

/-- Two subscriptions to one list. -/
def SameList (left right : Subscriber Event) : Prop := left.topic = right.topic ∧ left.projectID = right.projectID

theorem published_congr {s : StoreState Event} {left right : Nat} {leftSubscriber rightSubscriber : Subscriber Event}
    (hleft : s.subscribers left = some leftSubscriber) (hright : s.subscribers right = some rightSubscriber)
    (hsame : SameList leftSubscriber rightSubscriber) (label : Label Event) :
    published left s label = published right s label := by
  have hsubscribes : ∀ topic projectID, subscribes s left topic projectID = subscribes s right topic projectID := by
    intro topic projectID
    rw [subscribes, subscribes, hleft, hright, Option.any_some, Option.any_some, hsame.1, hsame.2]
  cases label <;> simp only [published, hsubscribes]

theorem published_of_none {s : StoreState Event} {channel : Nat} (h : s.subscribers channel = none)
    (label : Label Event) : published channel s label = [] := by
  have hnot : ∀ topic projectID, subscribes s channel topic projectID = false := by
    intro topic projectID
    rw [subscribes, h, Option.any_none]
  cases label <;> simp [published, hnot]

theorem sameList_of_run {start : StoreState Event} (hrun : run step start labels = some state) {left right : Nat}
    {leftSubscriber rightSubscriber first second : Subscriber Event}
    (hleft : state.subscribers left = some leftSubscriber) (hright : state.subscribers right = some rightSubscriber)
    (hsame : SameList leftSubscriber rightSubscriber) (hfirst : start.subscribers left = some first)
    (hsecond : start.subscribers right = some second) : SameList first second := by
  obtain ⟨last, hlast, htopic, hproject, -⟩ := subscribedAs_run hrun hfirst
  obtain ⟨last', hlast', htopic', hproject', -⟩ := subscribedAs_run hrun hsecond
  obtain rfl := Option.some.inj (hleft.symm.trans hlast)
  obtain rfl := Option.some.inj (hright.symm.trans hlast')
  exact ⟨htopic.symm.trans (hsame.1.trans htopic'), hproject.symm.trans (hsame.2.trans hproject')⟩

/-- Two subscribers that are both there see the same events from now on. -/
theorem observed_congr {start : StoreState Event} (hrun : run step start labels = some state) {left right : Nat}
    {first second : Subscriber Event} (hfirst : start.subscribers left = some first)
    (hsecond : start.subscribers right = some second) (hsame : SameList first second) :
    observed step (published left) start labels = observed step (published right) start labels := by
  induction labels generalizing start first second with
  | nil => rfl
  | cons label rest ih =>
      obtain ⟨next, hnext, hrest⟩ := Option.bind_eq_some_iff.mp hrun
      obtain ⟨first', hfirst', htopic, hproject, -⟩ := subscriber_step hnext hfirst
      obtain ⟨second', hsecond', htopic', hproject', -⟩ := subscriber_step hnext hsecond
      have hsame' : SameList first' second' :=
        ⟨htopic.trans (hsame.1.trans htopic'.symm), hproject.trans (hsame.2.trans hproject'.symm)⟩
      rw [observed_cons hnext, observed_cons hnext, published_congr hfirst hsecond hsame,
        ih hrest hfirst' hsecond' hsame']

/-- While one subscriber is there already, the other one sees a last part of what the first one sees. -/
theorem observed_suffix {start : StoreState Event} (hrun : run step start labels = some state) {left right : Nat}
    {leftSubscriber rightSubscriber first : Subscriber Event} (hleft : state.subscribers left = some leftSubscriber)
    (hright : state.subscribers right = some rightSubscriber) (hsame : SameList leftSubscriber rightSubscriber)
    (hfirst : start.subscribers left = some first) :
    observed step (published right) start labels <:+ observed step (published left) start labels := by
  induction labels generalizing start first with
  | nil => exact List.suffix_rfl
  | cons label rest ih =>
      cases hsecond : start.subscribers right with
      | some second =>
          have hlist := sameList_of_run hrun hleft hright hsame hfirst hsecond
          exact (observed_congr hrun hfirst hsecond hlist).symm ▸ List.suffix_rfl
      | none =>
          obtain ⟨next, hnext, hrest⟩ := Option.bind_eq_some_iff.mp hrun
          obtain ⟨first', hfirst', -⟩ := subscriber_step hnext hfirst
          rw [observed_cons hnext, observed_cons hnext, published_of_none hsecond, List.nil_append]
          exact (ih hrest hfirst').trans (List.suffix_append _ _)

theorem observed_suffix_or {start : StoreState Event} (hrun : run step start labels = some state) {left right : Nat}
    {leftSubscriber rightSubscriber : Subscriber Event} (hleft : state.subscribers left = some leftSubscriber)
    (hright : state.subscribers right = some rightSubscriber) (hsame : SameList leftSubscriber rightSubscriber) :
    observed step (published right) start labels <:+ observed step (published left) start labels ∨
      observed step (published left) start labels <:+ observed step (published right) start labels := by
  induction labels generalizing start with
  | nil => exact .inl List.suffix_rfl
  | cons label rest ih =>
      cases hfirst : start.subscribers left with
      | some first => exact .inl (observed_suffix hrun hleft hright hsame hfirst)
      | none =>
          cases hsecond : start.subscribers right with
          | some second =>
              have hsymm : SameList rightSubscriber leftSubscriber := ⟨hsame.1.symm, hsame.2.symm⟩
              exact .inr (observed_suffix hrun hright hleft hsymm hsecond)
          | none =>
              obtain ⟨next, hnext, hrest⟩ := Option.bind_eq_some_iff.mp hrun
              rw [observed_cons hnext, observed_cons hnext, published_of_none hfirst, published_of_none hsecond]
              exact ih hrest

end Run

end LitmusPortal.Subscriptions
