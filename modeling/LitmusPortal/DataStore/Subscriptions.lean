import LitmusPortal.Lib.Channel
import LitmusPortal.Lib.Transition
import Mathlib.Logic.Function.Basic

/-!
# Subscriptions to workflow and cluster events

`GetWorkflowEvents` and `GetClusterEvents` put a channel of capacity one into the list of its
project, and `SendWorkflowEvent` and `SendClusterEvent` send to every channel of a list while they
hold the mutex of the store. Nothing ever takes a channel out of its list. The reader of a channel
belongs to the GraphQL server: it takes what is in the channel until it leaves, and it leaves some
time after the context of the subscription is cancelled.
-/

namespace LitmusPortal.Subscriptions

inductive Topic where
  | workflow
  | cluster
  deriving DecidableEq, Repr

structure Subscriber (Event : Type) where
  topic : Topic
  projectID : String
  channel : Channel Event
  cancelled : Bool
  cleanedUp : Bool
  reading : Bool

/-- A send that holds the mutex, and the channels it has not come to yet. -/
structure Broadcast (Event : Type) where
  event : Event
  waiting : List Nat

structure StoreState (Event : Type) where
  subscribers : Nat → Option (Subscriber Event)
  publish : Topic → String → List Nat
  sending : Option (Broadcast Event)

inductive Label (Event : Type) where
  | getWorkflowEvents (channel : Nat) (projectID : String)
  | getClusterEvents (channel : Nat) (projectID : String)
  | cancel (channel : Nat)
  | cleanUp (channel : Nat)
  | receive (channel : Nat)
  | leave (channel : Nat)
  | sendWorkflowEvent (projectID : String) (event : Event)
  | sendClusterEvent (projectID : String) (event : Event)
  | send
  | unlock

variable {Event : Type}

def newStore : StoreState Event := ⟨fun _ => none, fun _ _ => [], none⟩

/-- A channel is new, so its number is not in use, and the list changes under the mutex. -/
def subscribe (topic : Topic) (channel : Nat) (projectID : String) (state : StoreState Event) :
    Option (StoreState Event) :=
  match state.sending, state.subscribers channel with
  | none, none => some { state with
      subscribers := Function.update state.subscribers channel
        (some ⟨topic, projectID, Channel.make 1, false, false, true⟩)
      publish := Function.update state.publish topic
        (Function.update (state.publish topic) projectID (state.publish topic projectID ++ [channel])) }
  | _, _ => none

def getWorkflowEvents : Nat → String → StoreState Event → Option (StoreState Event) :=
  subscribe .workflow

def getClusterEvents : Nat → String → StoreState Event → Option (StoreState Event) :=
  subscribe .cluster

/-- The mutex is taken, and the loop over the observers begins. -/
def beginSend (topic : Topic) (projectID : String) (event : Event) (state : StoreState Event) :
    Option (StoreState Event) :=
  match state.sending with
  | none => some { state with sending := some ⟨event, state.publish topic projectID⟩ }
  | some _ => none

def sendWorkflowEvent : String → Event → StoreState Event → Option (StoreState Event) :=
  beginSend .workflow

def sendClusterEvent : String → Event → StoreState Event → Option (StoreState Event) :=
  beginSend .cluster

def setSubscriber (state : StoreState Event) (channel : Nat) (subscriber : Subscriber Event) :
    StoreState Event :=
  { state with subscribers := Function.update state.subscribers channel (some subscriber) }

/-- `observer <- event` for the next observer. -/
def sendNext (state : StoreState Event) : Option (StoreState Event) := do
  let broadcast ← state.sending
  match broadcast.waiting with
  | [] => none
  | channel :: rest =>
      let subscriber ← state.subscribers channel
      let sent ← subscriber.channel.send broadcast.event
      some { setSubscriber state channel { subscriber with channel := sent } with
        sending := some { broadcast with waiting := rest } }

/-- One step of a subscriber: its context, its clean-up goroutine or its reader. -/
def stepSubscriber (state : StoreState Event) (channel : Nat)
    (act : Subscriber Event → Option (Subscriber Event)) : Option (StoreState Event) := do
  let subscriber ← state.subscribers channel
  let subscriber' ← act subscriber
  some (setSubscriber state channel subscriber')

def cancel (subscriber : Subscriber Event) : Option (Subscriber Event) :=
  if subscriber.cancelled then none else some { subscriber with cancelled := true }

/-- The goroutine behind `<-ctx.Done()` does nothing but log. -/
def cleanUp (subscriber : Subscriber Event) : Option (Subscriber Event) :=
  if subscriber.cancelled && !subscriber.cleanedUp then some { subscriber with cleanedUp := true }
  else none

def receive (subscriber : Subscriber Event) : Option (Subscriber Event) :=
  if subscriber.reading then
    subscriber.channel.receive.map fun (_, channel) => { subscriber with channel := channel }
  else none

def leave (subscriber : Subscriber Event) : Option (Subscriber Event) :=
  if subscriber.cancelled && subscriber.reading then some { subscriber with reading := false }
  else none

def step (state : StoreState Event) : Label Event → Option (StoreState Event)
  | .getWorkflowEvents channel projectID => getWorkflowEvents channel projectID state
  | .getClusterEvents channel projectID => getClusterEvents channel projectID state
  | .cancel channel => stepSubscriber state channel cancel
  | .cleanUp channel => stepSubscriber state channel cleanUp
  | .receive channel => stepSubscriber state channel receive
  | .leave channel => stepSubscriber state channel leave
  | .sendWorkflowEvent projectID event => sendWorkflowEvent projectID event state
  | .sendClusterEvent projectID event => sendClusterEvent projectID event state
  | .send => sendNext state
  | .unlock =>
      match state.sending with
      | some ⟨_, []⟩ => some { state with sending := none }
      | _ => none

/-! ### What always holds -/

/-- A channel is in the list of its project, and a send only comes to channels that exist. -/
structure Registered (state : StoreState Event) : Prop where
  listed : ∀ channel subscriber, state.subscribers channel = some subscriber →
    channel ∈ state.publish subscriber.topic subscriber.projectID
  known : ∀ topic projectID, ∀ channel ∈ state.publish topic projectID,
    ∃ subscriber, state.subscribers channel = some subscriber
  nodup : ∀ topic projectID, (state.publish topic projectID).Nodup
  capacity : ∀ channel subscriber, state.subscribers channel = some subscriber →
    subscriber.channel.capacity = 1
  waitingKnown : ∀ broadcast ∈ state.sending, ∀ channel ∈ broadcast.waiting,
    ∃ subscriber, state.subscribers channel = some subscriber
  waitingNodup : ∀ broadcast ∈ state.sending, broadcast.waiting.Nodup

theorem registered_newStore : Registered (newStore : StoreState Event) := by
  constructor <;> simp [newStore]

@[simp]
theorem setSubscriber_self (state : StoreState Event) (channel : Nat)
    (subscriber : Subscriber Event) :
    (setSubscriber state channel subscriber).subscribers channel = some subscriber :=
  Function.update_self ..

theorem setSubscriber_of_ne (state : StoreState Event) {channel other : Nat} (h : other ≠ channel)
    (subscriber : Subscriber Event) :
    (setSubscriber state channel subscriber).subscribers other = state.subscribers other :=
  Function.update_of_ne h ..

/-- The two subscribers are of one subscription: same list, and a channel of the same size. -/
def SameSubscription (subscriber subscriber' : Subscriber Event) : Prop :=
  subscriber'.topic = subscriber.topic ∧ subscriber'.projectID = subscriber.projectID ∧
    subscriber'.channel.capacity = subscriber.channel.capacity

theorem Registered.setSubscriber {state : StoreState Event} (h : Registered state) {channel : Nat}
    {subscriber subscriber' : Subscriber Event}
    (hsubscriber : state.subscribers channel = some subscriber)
    (hsame : SameSubscription subscriber subscriber') :
    Registered (setSubscriber state channel subscriber') := by
  obtain ⟨htopic, hproject, hcapacity⟩ := hsame
  have hknown : ∀ other, (∃ found, state.subscribers other = some found) →
      ∃ found, (Subscriptions.setSubscriber state channel subscriber').subscribers other =
        some found := by
    intro other hother
    by_cases heq : other = channel
    · subst heq
      exact ⟨subscriber', setSubscriber_self ..⟩
    · rwa [setSubscriber_of_ne state heq]
  constructor
  · intro other found hfound
    by_cases heq : other = channel
    · subst heq
      obtain rfl := Option.some.inj ((setSubscriber_self ..).symm.trans hfound)
      have hlisted := h.listed other subscriber hsubscriber
      rwa [← htopic, ← hproject] at hlisted
    · rw [setSubscriber_of_ne state heq] at hfound
      exact h.listed other found hfound
  · exact fun topic projectID other hother => hknown other (h.known topic projectID other hother)
  · exact h.nodup
  · intro other found hfound
    by_cases heq : other = channel
    · subst heq
      obtain rfl := Option.some.inj ((setSubscriber_self ..).symm.trans hfound)
      exact hcapacity.trans (h.capacity other subscriber hsubscriber)
    · rw [setSubscriber_of_ne state heq] at hfound
      exact h.capacity other found hfound
  · intro broadcast hbroadcast other hother
    exact hknown other (h.waitingKnown broadcast hbroadcast other hother)
  · exact h.waitingNodup

theorem stepSubscriber_cases {state state' : StoreState Event} {channel : Nat}
    {act : Subscriber Event → Option (Subscriber Event)}
    (h : stepSubscriber state channel act = some state') :
    ∃ subscriber subscriber', state.subscribers channel = some subscriber ∧
      act subscriber = some subscriber' ∧ state' = setSubscriber state channel subscriber' := by
  unfold stepSubscriber at h
  cases hsubscriber : state.subscribers channel with
  | none => simp [hsubscriber] at h
  | some subscriber =>
      cases hact : act subscriber with
      | none => simp [hsubscriber, hact] at h
      | some subscriber' =>
          exact ⟨subscriber, subscriber', rfl, hact, by simpa [hsubscriber, hact] using h.symm⟩

theorem cancel_cases {subscriber subscriber' : Subscriber Event}
    (h : cancel subscriber = some subscriber') :
    subscriber' = { subscriber with cancelled := true } := by
  unfold cancel at h
  split at h <;> cases h
  rfl

theorem cleanUp_cases {subscriber subscriber' : Subscriber Event}
    (h : cleanUp subscriber = some subscriber') :
    subscriber.cancelled = true ∧ subscriber' = { subscriber with cleanedUp := true } := by
  unfold cleanUp at h
  split at h <;> cases h
  simp_all

theorem receive_cases {subscriber subscriber' : Subscriber Event}
    (h : receive subscriber = some subscriber') :
    subscriber.reading = true ∧ ∃ event channel,
      subscriber.channel.receive = some (event, channel) ∧
        subscriber' = { subscriber with channel := channel } := by
  unfold receive at h
  split at h
  · rename_i hreading
    obtain ⟨⟨event, channel⟩, hreceive, rfl⟩ := Option.map_eq_some_iff.mp h
    exact ⟨hreading, event, channel, hreceive, rfl⟩
  · cases h

theorem leave_cases {subscriber subscriber' : Subscriber Event}
    (h : leave subscriber = some subscriber') :
    subscriber.reading = true ∧ subscriber' = { subscriber with reading := false } := by
  unfold leave at h
  split at h <;> cases h
  simp_all

theorem subscribe_cases {state state' : StoreState Event} {topic : Topic} {channel : Nat}
    {projectID : String} (h : subscribe topic channel projectID state = some state') :
    state.sending = none ∧ state.subscribers channel = none ∧ state' = { state with
      subscribers := Function.update state.subscribers channel
        (some ⟨topic, projectID, Channel.make 1, false, false, true⟩)
      publish := Function.update state.publish topic
        (Function.update (state.publish topic) projectID
          (state.publish topic projectID ++ [channel])) } := by
  unfold subscribe at h
  split at h
  · rename_i hsending hnew
    exact ⟨hsending, hnew, (Option.some.inj h).symm⟩
  · cases h

theorem beginSend_cases {state state' : StoreState Event} {topic : Topic} {projectID : String}
    {event : Event} (h : beginSend topic projectID event state = some state') :
    state.sending = none ∧
      state' = { state with sending := some ⟨event, state.publish topic projectID⟩ } := by
  unfold beginSend at h
  split at h <;> cases h
  exact ⟨‹_›, rfl⟩

theorem sendNext_cases {state state' : StoreState Event} (h : sendNext state = some state') :
    ∃ event channel rest subscriber sent, state.sending = some ⟨event, channel :: rest⟩ ∧
      state.subscribers channel = some subscriber ∧ subscriber.channel.send event = some sent ∧
      state' = { setSubscriber state channel { subscriber with channel := sent } with
        sending := some ⟨event, rest⟩ } := by
  unfold sendNext at h
  cases hsending : state.sending with
  | none => simp [hsending] at h
  | some broadcast =>
      obtain ⟨event, waiting⟩ := broadcast
      cases waiting with
      | nil => simp [hsending] at h
      | cons channel rest =>
          cases hsubscriber : state.subscribers channel with
          | none => simp [hsending, hsubscriber] at h
          | some subscriber =>
              cases hsend : subscriber.channel.send event with
              | none => simp [hsending, hsubscriber, hsend] at h
              | some sent =>
                  exact ⟨event, channel, rest, subscriber, sent, rfl, hsubscriber, hsend,
                    by simpa [hsending, hsubscriber, hsend] using h.symm⟩

theorem unlock_cases {state state' : StoreState Event} (h : step state .unlock = some state') :
    (∃ event, state.sending = some ⟨event, []⟩) ∧ state' = { state with sending := none } := by
  simp only [step] at h
  split at h <;> cases h
  exact ⟨⟨_, ‹_›⟩, rfl⟩

theorem Registered.subscribe {state state' : StoreState Event} (h : Registered state)
    {topic : Topic} {channel : Nat} {projectID : String}
    (hstep : subscribe topic channel projectID state = some state') : Registered state' := by
  obtain ⟨hsending, hnew, rfl⟩ := subscribe_cases hstep
  have hfresh : ∀ topic projectID, channel ∉ state.publish topic projectID := by
    intro topic projectID hmem
    obtain ⟨subscriber, hsubscriber⟩ := h.known topic projectID channel hmem
    simp [hnew] at hsubscriber
  have hpublish : ∀ topic' projectID',
      Function.update state.publish topic (Function.update (state.publish topic) projectID
        (state.publish topic projectID ++ [channel])) topic' projectID' =
        if topic' = topic ∧ projectID' = projectID then state.publish topic projectID ++ [channel]
        else state.publish topic' projectID' := by
    intro topic' projectID'
    by_cases htopic : topic' = topic
    · subst htopic
      by_cases hproject : projectID' = projectID <;> simp [hproject]
    · simp [htopic]
  constructor
  · intro other subscriber hsubscriber
    dsimp only at hsubscriber ⊢
    rw [hpublish]
    by_cases heq : other = channel
    · subst heq
      rw [Function.update_self] at hsubscriber
      obtain rfl := Option.some.inj hsubscriber
      simp
    · rw [Function.update_of_ne heq] at hsubscriber
      have hlisted := h.listed other subscriber hsubscriber
      split
      · rename_i hkey
        rw [hkey.1, hkey.2] at hlisted
        exact List.mem_append_left _ hlisted
      · exact hlisted
  · intro topic' projectID' other hother
    dsimp only at hother ⊢
    rw [hpublish] at hother
    by_cases heq : other = channel
    · subst heq
      exact ⟨_, Function.update_self ..⟩
    · rw [Function.update_of_ne heq]
      split at hother
      · simp only [List.mem_append, List.mem_singleton, heq, or_false] at hother
        exact h.known topic projectID other hother
      · exact h.known topic' projectID' other hother
  · intro topic' projectID'
    dsimp only
    rw [hpublish]
    split
    · have hnodup := h.nodup topic projectID
      have hnot := hfresh topic projectID
      rw [List.nodup_append]
      refine ⟨hnodup, by simp, ?_⟩
      rintro other hother _ hlast rfl
      exact hnot (List.mem_singleton.mp hlast ▸ hother)
    · exact h.nodup topic' projectID'
  · intro other subscriber hsubscriber
    dsimp only at hsubscriber
    by_cases heq : other = channel
    · subst heq
      rw [Function.update_self] at hsubscriber
      obtain rfl := Option.some.inj hsubscriber
      rfl
    · rw [Function.update_of_ne heq] at hsubscriber
      exact h.capacity other subscriber hsubscriber
  · simp [hsending]
  · simp [hsending]

theorem Registered.beginSend {state state' : StoreState Event} (h : Registered state)
    {topic : Topic} {projectID : String} {event : Event}
    (hstep : beginSend topic projectID event state = some state') : Registered state' := by
  obtain ⟨-, rfl⟩ := beginSend_cases hstep
  refine ⟨h.listed, h.known, h.nodup, h.capacity, ?_, ?_⟩
  · rintro broadcast hbroadcast
    obtain rfl := Option.some.inj hbroadcast
    exact h.known topic projectID
  · rintro broadcast hbroadcast
    obtain rfl := Option.some.inj hbroadcast
    exact h.nodup topic projectID

theorem Registered.sendNext {state state' : StoreState Event} (h : Registered state)
    (hstep : sendNext state = some state') : Registered state' := by
  obtain ⟨event, channel, rest, subscriber, sent, hsending, hsubscriber, hsend, rfl⟩ :=
    sendNext_cases hstep
  have hsame : SameSubscription subscriber { subscriber with channel := sent } :=
    ⟨rfl, rfl, Channel.capacity_send hsend⟩
  have hset := h.setSubscriber hsubscriber hsame
  refine ⟨hset.listed, hset.known, hset.nodup, hset.capacity, ?_, ?_⟩
  · rintro broadcast hbroadcast other hother
    obtain rfl := Option.some.inj hbroadcast
    exact hset.waitingKnown ⟨event, channel :: rest⟩ hsending other (List.mem_cons_of_mem _ hother)
  · rintro broadcast hbroadcast
    obtain rfl := Option.some.inj hbroadcast
    exact (h.waitingNodup _ hsending).of_cons

theorem Registered.step {state state' : StoreState Event} {label : Label Event}
    (h : Registered state) (hstep : step state label = some state') : Registered state' := by
  cases label with
  | getWorkflowEvents channel projectID => exact h.subscribe hstep
  | getClusterEvents channel projectID => exact h.subscribe hstep
  | sendWorkflowEvent projectID event => exact h.beginSend hstep
  | sendClusterEvent projectID event => exact h.beginSend hstep
  | send => exact h.sendNext hstep
  | unlock =>
      obtain ⟨-, rfl⟩ := unlock_cases hstep
      exact ⟨h.listed, h.known, h.nodup, h.capacity, by simp, by simp⟩
  | cancel channel =>
      obtain ⟨subscriber, subscriber', hsubscriber, hact, rfl⟩ := stepSubscriber_cases hstep
      obtain rfl := cancel_cases hact
      exact h.setSubscriber hsubscriber ⟨rfl, rfl, rfl⟩
  | cleanUp channel =>
      obtain ⟨subscriber, subscriber', hsubscriber, hact, rfl⟩ := stepSubscriber_cases hstep
      obtain ⟨-, rfl⟩ := cleanUp_cases hact
      exact h.setSubscriber hsubscriber ⟨rfl, rfl, rfl⟩
  | receive channel =>
      obtain ⟨subscriber, subscriber', hsubscriber, hact, rfl⟩ := stepSubscriber_cases hstep
      obtain ⟨-, event, received, hreceive, rfl⟩ := receive_cases hact
      exact h.setSubscriber hsubscriber ⟨rfl, rfl, (Channel.receive_cases hreceive).2⟩
  | leave channel =>
      obtain ⟨subscriber, subscriber', hsubscriber, hact, rfl⟩ := stepSubscriber_cases hstep
      obtain ⟨-, rfl⟩ := leave_cases hact
      exact h.setSubscriber hsubscriber ⟨rfl, rfl, rfl⟩

/-! ### Sends that wait forever -/

/-- The channel is full and nobody reads it any more. -/
def Abandoned (state : StoreState Event) (channel : Nat) : Prop :=
  ∃ subscriber ∈ state.subscribers channel,
    subscriber.channel.isFull = true ∧ subscriber.reading = false

/-- The mutex is held, and whatever happens it is not released again. -/
def NeverUnlocks (state : StoreState Event) : Prop :=
  ∀ labels state', Transition.run step state labels = some state' → state'.sending ≠ none

/-- The send that holds the mutex has an abandoned channel before it. -/
def Stuck (state : StoreState Event) : Prop :=
  ∃ broadcast ∈ state.sending, ∃ channel ∈ broadcast.waiting, Abandoned state channel

theorem abandoned_setSubscriber_of_ne (state : StoreState Event) {channel other : Nat}
    (h : other ≠ channel) (subscriber : Subscriber Event) :
    Abandoned (setSubscriber state channel subscriber) other ↔ Abandoned state other := by
  rw [Abandoned, setSubscriber_of_ne state h, Abandoned]

theorem abandoned_setSubscriber_self (state : StoreState Event) (channel : Nat)
    (subscriber : Subscriber Event) : Abandoned (setSubscriber state channel subscriber) channel ↔
      subscriber.channel.isFull = true ∧ subscriber.reading = false := by
  simp [Abandoned]

theorem Abandoned.setSubscriber {state : StoreState Event} {channel other : Nat}
    {subscriber subscriber' : Subscriber Event} (h : Abandoned state other)
    (hsubscriber : state.subscribers channel = some subscriber)
    (hkeeps : subscriber.channel.isFull = true → subscriber.reading = false →
      subscriber'.channel.isFull = true ∧ subscriber'.reading = false) :
    Abandoned (setSubscriber state channel subscriber') other := by
  by_cases heq : other = channel
  · subst heq
    obtain ⟨found, hfound, hfull, hgone⟩ := h
    obtain rfl := Option.some.inj (hsubscriber.symm.trans hfound)
    exact (abandoned_setSubscriber_self ..).mpr (hkeeps hfull hgone)
  · exact (abandoned_setSubscriber_of_ne state heq subscriber').mpr h

/-- Nothing gets a stuck send going. -/
theorem Stuck.step {state state' : StoreState Event} {label : Label Event} (h : Stuck state)
    (hstep : step state label = some state') : Stuck state' := by
  obtain ⟨broadcast, hsending, channel, hwaiting, habandoned⟩ := h
  have hlocal : ∀ (act : Subscriber Event → Option (Subscriber Event)) (actor : Nat),
      (∀ subscriber subscriber', act subscriber = some subscriber' →
        subscriber.channel.isFull = true → subscriber.reading = false →
        subscriber'.channel.isFull = true ∧ subscriber'.reading = false) →
      stepSubscriber state actor act = some state' → Stuck state' := by
    intro act actor hkeeps hlocal
    obtain ⟨subscriber, subscriber', hsubscriber, hact, rfl⟩ := stepSubscriber_cases hlocal
    exact ⟨broadcast, hsending, channel, hwaiting,
      habandoned.setSubscriber hsubscriber (hkeeps subscriber subscriber' hact)⟩
  cases label with
  | getWorkflowEvents => simp [(subscribe_cases hstep).1] at hsending
  | getClusterEvents => simp [(subscribe_cases hstep).1] at hsending
  | sendWorkflowEvent => simp [(beginSend_cases hstep).1] at hsending
  | sendClusterEvent => simp [(beginSend_cases hstep).1] at hsending
  | cancel actor =>
      refine hlocal cancel actor (fun subscriber subscriber' hact hfull hgone => ?_) hstep
      obtain rfl := cancel_cases hact
      exact ⟨hfull, hgone⟩
  | cleanUp actor =>
      refine hlocal cleanUp actor (fun subscriber subscriber' hact hfull hgone => ?_) hstep
      obtain ⟨-, rfl⟩ := cleanUp_cases hact
      exact ⟨hfull, hgone⟩
  | receive actor =>
      refine hlocal receive actor (fun subscriber subscriber' hact hfull hgone => ?_) hstep
      simp [(receive_cases hact).1] at hgone
  | leave actor =>
      refine hlocal leave actor (fun subscriber subscriber' hact hfull hgone => ?_) hstep
      simp [(leave_cases hact).1] at hgone
  | send =>
      obtain ⟨event, next, rest, subscriber, sent, hnext, hsubscriber, hsend, rfl⟩ :=
        sendNext_cases hstep
      obtain rfl := Option.some.inj (hnext.symm.trans hsending)
      have hne : channel ≠ next := by
        rintro rfl
        obtain ⟨found, hfound, hfull, -⟩ := habandoned
        obtain rfl := Option.some.inj (hsubscriber.symm.trans hfound)
        simp [Channel.send_eq_none_iff.mpr hfull] at hsend
      refine ⟨⟨event, rest⟩, rfl, channel, ?_, ?_⟩
      · exact (List.mem_cons.mp hwaiting).resolve_left hne
      · exact (abandoned_setSubscriber_of_ne state hne _).mpr habandoned
  | unlock =>
      obtain ⟨⟨event, hempty⟩, -⟩ := unlock_cases hstep
      obtain rfl := Option.some.inj (hempty.symm.trans hsending)
      simp at hwaiting

/-- A send that is not stuck gets to the end of its list when readers read and nobody else moves. -/
theorem exists_unlock (waiting : List Nat) {event : Event} {state : StoreState Event}
    (hsending : state.sending = some ⟨event, waiting⟩) (h : Registered state)
    (hstuck : ¬ Stuck state) :
    ∃ labels state', Transition.run step state labels = some state' ∧ state'.sending = none := by
  induction waiting generalizing state with
  | nil =>
      have hunlock : step state .unlock = some { state with sending := none } := by
        simp [step, hsending]
      exact ⟨[.unlock], { state with sending := none }, by simp [hunlock], rfl⟩
  | cons channel rest ih =>
      obtain ⟨subscriber, hsubscriber⟩ := h.waitingKnown _ hsending channel (by simp)
      have hsendStep : ∀ mid : StoreState Event, ∀ found sent, Registered mid → ¬ Stuck mid →
          mid.sending = some ⟨event, channel :: rest⟩ → mid.subscribers channel = some found →
          found.channel.send event = some sent →
          ∃ labels state', Transition.run step mid labels = some state' ∧ state'.sending = none := by
        intro mid found sent hmid hmidStuck hmidSending hfound hsent
        have hstep : step mid .send = some { setSubscriber mid channel
            { found with channel := sent } with sending := some ⟨event, rest⟩ } := by
          simp [step, sendNext, hmidSending, hfound, hsent]
        have hrest : ¬ Stuck ({ setSubscriber mid channel { found with channel := sent } with
            sending := some ⟨event, rest⟩ } : StoreState Event) := by
          rintro ⟨broadcast, hbroadcast, other, hother, habandoned⟩
          obtain rfl := Option.some.inj hbroadcast
          have hne : other ≠ channel := by
            rintro rfl
            exact (List.nodup_cons.mp (hmid.waitingNodup _ hmidSending)).1 hother
          refine hmidStuck ⟨_, hmidSending, other, List.mem_cons_of_mem _ hother, ?_⟩
          exact (abandoned_setSubscriber_of_ne mid hne _).mp habandoned
        obtain ⟨labels, state', hrun, hfree⟩ := ih rfl (hmid.sendNext hstep) hrest
        exact ⟨.send :: labels, state', by simpa [hstep] using hrun, hfree⟩
      cases hsend : subscriber.channel.send event with
      | some sent => exact hsendStep state subscriber sent h hstuck hsending hsubscriber hsend
      | none =>
          have hfull := Channel.send_eq_none_iff.mp hsend
          have hreading : subscriber.reading = true := by
            by_contra hgone
            exact hstuck ⟨_, hsending, channel, by simp, subscriber, hsubscriber, hfull,
              by simpa using hgone⟩
          -- the reader makes room first
          obtain ⟨received, channel', hreceive⟩ := Channel.exists_receive_of_isFull
            (by rw [h.capacity channel subscriber hsubscriber]; exact Nat.one_pos) hfull
          have hstep : step state (.receive channel) =
              some (setSubscriber state channel { subscriber with channel := channel' }) := by
            simp [step, stepSubscriber, receive, hsubscriber, hreading, hreceive]
          have hmid := h.step hstep
          have hroom := Channel.isFull_of_receive hreceive
          obtain ⟨sent, hsent⟩ : ∃ sent, channel'.send event = some sent := by
            apply Option.ne_none_iff_exists'.mp
            simp [Channel.send_eq_none_iff, hroom]
          have hmidStuck : ¬ Stuck (setSubscriber state channel
              { subscriber with channel := channel' }) := by
            rintro ⟨broadcast, hbroadcast, other, hother, habandoned⟩
            refine hstuck ⟨broadcast, hbroadcast, other, hother, ?_⟩
            by_cases heq : other = channel
            · subst heq
              simp [abandoned_setSubscriber_self, hroom] at habandoned
            · exact (abandoned_setSubscriber_of_ne state heq _).mp habandoned
          obtain ⟨labels, state', hrun, hfree⟩ :=
            hsendStep _ _ sent hmid hmidStuck hsending (setSubscriber_self ..) hsent
          exact ⟨.receive channel :: labels, state', by simpa [hstep] using hrun, hfree⟩

/-- The mutex is lost exactly when its holder has an abandoned channel before it. -/
theorem neverUnlocks_iff {state : StoreState Event} (h : Registered state) :
    NeverUnlocks state ↔ Stuck state := by
  constructor
  · intro hnever
    by_contra hstuck
    have hheld := hnever [] state rfl
    obtain ⟨⟨event, waiting⟩, hsending⟩ := Option.ne_none_iff_exists'.mp hheld
    obtain ⟨labels, state', hrun, hfree⟩ := exists_unlock waiting hsending h hstuck
    exact hnever labels state' hrun hfree
  · intro hstuck labels state' hrun
    obtain ⟨broadcast, hsending, -⟩ : Stuck state' :=
      Transition.run_invariant_of_step (fun _ _ _ => Stuck.step) hstuck hrun
    simp [Option.mem_def.mp hsending]

/-! ### The registry -/

/-- The channel of a subscription that has ended and been cleaned up is in no list. -/
def CleanedUp (state : StoreState Event) : Prop :=
  ∀ channel, ∀ subscriber ∈ state.subscribers channel, subscriber.cleanedUp = true →
    ∀ topic projectID, channel ∉ state.publish topic projectID

def RegistrySafe (state : StoreState Event) : Prop := CleanedUp state ∧ ¬ NeverUnlocks state

/-- In every state of every run of subscriptions, cancellations and sends. -/
def RegistryAlwaysSafe (Event : Type) : Prop :=
  ∀ labels (state : StoreState Event), Transition.run step newStore labels = some state →
    RegistrySafe state

/-- No clean-up goroutine comes to its end, no event is sent to a project with an abandoned channel,
and no reader leaves a full channel that a send still has before it. -/
def Spares (state : StoreState Event) : Label Event → Prop
  | .cleanUp _ => False
  | .sendWorkflowEvent projectID _ =>
      ∀ channel ∈ state.publish .workflow projectID, ¬ Abandoned state channel
  | .sendClusterEvent projectID _ =>
      ∀ channel ∈ state.publish .cluster projectID, ¬ Abandoned state channel
  | .leave channel => ∀ broadcast ∈ state.sending, channel ∈ broadcast.waiting →
      ∀ subscriber ∈ state.subscribers channel, subscriber.channel.isFull = false
  | _ => True

/-- A channel never leaves its list, so nothing has been cleaned up at all. -/
theorem cleanedUp_iff {state : StoreState Event} (h : Registered state) : CleanedUp state ↔
    ∀ channel, ∀ subscriber ∈ state.subscribers channel, subscriber.cleanedUp = false := by
  constructor
  · intro hclean channel subscriber hsubscriber
    by_contra hdone
    exact hclean channel subscriber hsubscriber (by simpa using hdone) subscriber.topic
      subscriber.projectID (h.listed channel subscriber hsubscriber)
  · intro hnone channel subscriber hsubscriber hdone
    simp [hnone channel subscriber hsubscriber] at hdone

section Step

variable {state state' : StoreState Event} {label : Label Event}

theorem registrySafe_iff (h : Registered state) : RegistrySafe state ↔
    (∀ channel, ∀ subscriber ∈ state.subscribers channel, subscriber.cleanedUp = false) ∧
      ¬ Stuck state := by
  rw [RegistrySafe, cleanedUp_iff h, neverUnlocks_iff h]

theorem cleanedUp_setSubscriber {channel : Nat} {subscriber subscriber' : Subscriber Event}
    (hsubscriber : state.subscribers channel = some subscriber)
    (hsame : subscriber'.cleanedUp = subscriber.cleanedUp)
    (hnone : ∀ channel, ∀ subscriber ∈ state.subscribers channel, subscriber.cleanedUp = false) :
    ∀ other, ∀ found ∈ (setSubscriber state channel subscriber').subscribers other,
      found.cleanedUp = false := by
  intro other found hfound
  by_cases heq : other = channel
  · subst heq
    obtain rfl := Option.some.inj ((setSubscriber_self ..).symm.trans hfound)
    exact hsame.trans (hnone other subscriber hsubscriber)
  · rw [setSubscriber_of_ne state heq] at hfound
    exact hnone other found hfound

theorem stuck_of_setSubscriber {channel : Nat} {subscriber subscriber' : Subscriber Event}
    (hsubscriber : state.subscribers channel = some subscriber)
    (hkeeps : subscriber'.channel.isFull = true → subscriber'.reading = false →
      subscriber.channel.isFull = true ∧ subscriber.reading = false)
    (hstuck : Stuck (setSubscriber state channel subscriber')) : Stuck state := by
  obtain ⟨broadcast, hsending, other, hwaiting, habandoned⟩ := hstuck
  refine ⟨broadcast, hsending, other, hwaiting, ?_⟩
  by_cases heq : other = channel
  · subst heq
    obtain ⟨hfull, hgone⟩ := (abandoned_setSubscriber_self ..).mp habandoned
    exact ⟨subscriber, hsubscriber, hkeeps hfull hgone⟩
  · exact (abandoned_setSubscriber_of_ne state heq _).mp habandoned

theorem not_stuck_of_free (h : state.sending = none) : ¬ Stuck state := by
  rintro ⟨broadcast, hsending, -⟩
  simp [h] at hsending

theorem stuck_beginSend {topic : Topic} {projectID : String} {event : Event}
    (hstep : beginSend topic projectID event state = some state') :
    Stuck state' ↔ ∃ channel ∈ state.publish topic projectID, Abandoned state channel := by
  obtain ⟨-, rfl⟩ := beginSend_cases hstep
  simp [Stuck, Abandoned]

theorem stuck_leave {channel : Nat} (hstuck : ¬ Stuck state)
    (hstep : stepSubscriber state channel leave = some state') : Stuck state' ↔
      ∃ broadcast ∈ state.sending, channel ∈ broadcast.waiting ∧
        ∃ subscriber ∈ state.subscribers channel, subscriber.channel.isFull = true := by
  obtain ⟨subscriber, subscriber', hsubscriber, hact, rfl⟩ := stepSubscriber_cases hstep
  obtain ⟨-, rfl⟩ := leave_cases hact
  constructor
  · rintro ⟨broadcast, hsending, other, hwaiting, habandoned⟩
    by_cases heq : other = channel
    · subst heq
      exact ⟨broadcast, hsending, hwaiting, subscriber, hsubscriber,
        ((abandoned_setSubscriber_self ..).mp habandoned).1⟩
    · exact absurd ⟨broadcast, hsending, other, hwaiting,
        (abandoned_setSubscriber_of_ne state heq _).mp habandoned⟩ hstuck
  · rintro ⟨broadcast, hsending, hwaiting, found, hfound, hfull⟩
    obtain rfl := Option.some.inj (hsubscriber.symm.trans hfound)
    exact ⟨broadcast, hsending, channel, hwaiting,
      (abandoned_setSubscriber_self ..).mpr ⟨hfull, rfl⟩⟩

/-- The step lemma: the registry stays safe exactly when the step spares it. -/
theorem registrySafe_step_iff (h : Registered state) (hsafe : RegistrySafe state)
    (hstep : step state label = some state') : RegistrySafe state' ↔ Spares state label := by
  have hafter := h.step hstep
  obtain ⟨hnone, hstuck⟩ := (registrySafe_iff h).mp hsafe
  rw [registrySafe_iff hafter]
  have hsubscribe : ∀ topic channel projectID,
      subscribe topic channel projectID state = some state' →
      (∀ channel, ∀ subscriber ∈ state'.subscribers channel, subscriber.cleanedUp = false) ∧
        ¬ Stuck state' := by
    intro topic channel projectID hsubscribe
    obtain ⟨hsending, -, rfl⟩ := subscribe_cases hsubscribe
    refine ⟨fun other subscriber hsubscriber => ?_, not_stuck_of_free hsending⟩
    by_cases heq : other = channel
    · subst heq
      dsimp only at hsubscriber
      rw [Function.update_self] at hsubscriber
      obtain rfl := Option.some.inj hsubscriber
      rfl
    · dsimp only at hsubscriber
      rw [Function.update_of_ne heq] at hsubscriber
      exact hnone other subscriber hsubscriber
  have hbegin : ∀ topic projectID event, beginSend topic projectID event state = some state' →
      ((∀ channel, ∀ subscriber ∈ state'.subscribers channel, subscriber.cleanedUp = false) ∧
        ¬ Stuck state' ↔ ∀ channel ∈ state.publish topic projectID, ¬ Abandoned state channel) := by
    intro topic projectID event hbegin
    have hfree := stuck_beginSend hbegin
    obtain ⟨-, rfl⟩ := beginSend_cases hbegin
    rw [hfree]
    push Not
    exact and_iff_right hnone
  cases label with
  | getWorkflowEvents channel projectID => exact iff_of_true (hsubscribe _ _ _ hstep) trivial
  | getClusterEvents channel projectID => exact iff_of_true (hsubscribe _ _ _ hstep) trivial
  | sendWorkflowEvent projectID event => exact hbegin _ _ _ hstep
  | sendClusterEvent projectID event => exact hbegin _ _ _ hstep
  | cancel channel =>
      obtain ⟨subscriber, subscriber', hsubscriber, hact, rfl⟩ := stepSubscriber_cases hstep
      obtain rfl := cancel_cases hact
      have hsame : ({ subscriber with cancelled := true } : Subscriber Event).cleanedUp =
        subscriber.cleanedUp := rfl
      refine iff_of_true ⟨cleanedUp_setSubscriber hsubscriber hsame hnone, fun hstuck' => ?_⟩ trivial
      refine hstuck (stuck_of_setSubscriber hsubscriber ?_ hstuck')
      exact fun hfull hgone => ⟨hfull, hgone⟩
  | cleanUp channel =>
      obtain ⟨subscriber, subscriber', hsubscriber, hact, rfl⟩ := stepSubscriber_cases hstep
      obtain ⟨-, rfl⟩ := cleanUp_cases hact
      refine iff_of_false (fun hclean => ?_) id
      simpa using hclean.1 channel _ (setSubscriber_self ..)
  | receive channel =>
      obtain ⟨subscriber, subscriber', hsubscriber, hact, rfl⟩ := stepSubscriber_cases hstep
      obtain ⟨-, event, received, hreceive, rfl⟩ := receive_cases hact
      refine iff_of_true ⟨cleanedUp_setSubscriber hsubscriber rfl hnone, fun hstuck' => ?_⟩ trivial
      refine hstuck (stuck_of_setSubscriber hsubscriber (fun hfull _ => ?_) hstuck')
      simp [Channel.isFull_of_receive hreceive] at hfull
  | leave channel =>
      have hleave := stuck_leave hstuck hstep
      obtain ⟨subscriber, subscriber', hsubscriber, hact, rfl⟩ := stepSubscriber_cases hstep
      obtain ⟨-, rfl⟩ := leave_cases hact
      have hsame : ({ subscriber with reading := false } : Subscriber Event).cleanedUp =
        subscriber.cleanedUp := rfl
      rw [hleave, and_iff_right (cleanedUp_setSubscriber hsubscriber hsame hnone), Spares]
      push Not
      simp only [Bool.not_eq_true]
  | send =>
      obtain ⟨event, channel, rest, subscriber, sent, hsending, hsubscriber, hsend, rfl⟩ :=
        sendNext_cases hstep
      refine iff_of_true ⟨cleanedUp_setSubscriber hsubscriber rfl hnone, ?_⟩ trivial
      rintro ⟨broadcast, hbroadcast, other, hother, habandoned⟩
      obtain rfl := Option.some.inj hbroadcast
      have hne : other ≠ channel := by
        rintro rfl
        exact (List.nodup_cons.mp (h.waitingNodup _ hsending)).1 hother
      exact hstuck ⟨_, hsending, other, List.mem_cons_of_mem _ hother,
        (abandoned_setSubscriber_of_ne state hne _).mp habandoned⟩
  | unlock =>
      obtain ⟨-, rfl⟩ := unlock_cases hstep
      exact iff_of_true ⟨hnone, not_stuck_of_free rfl⟩ trivial

end Step

theorem registrySafe_newStore : RegistrySafe (newStore : StoreState Event) := by
  rw [registrySafe_iff registered_newStore]
  exact ⟨by simp [newStore], not_stuck_of_free rfl⟩

/-- The registry is safe in every state of a run exactly when every step of the run spares it. -/
theorem registrySafe_run_iff {labels : List (Label Event)} {state : StoreState Event}
    (hrun : Transition.run step newStore labels = some state) :
    (∀ front mid, front <+: labels → Transition.run step newStore front = some mid →
      RegistrySafe mid) ↔ Transition.Meets step Spares newStore labels :=
  Transition.run_invariant_iff (fun _ _ _ => Registered.step)
    (fun _ _ _ => registrySafe_step_iff) registered_newStore registrySafe_newStore hrun

def receivedEvent : List (Label String) :=
  [.getWorkflowEvents 0 "project-1", .sendWorkflowEvent "project-1" "Succeeded", .send, .unlock,
    .receive 0, .cancel 0, .leave 0]

theorem registrySafe_run_iff_received :
    ∃ state, Transition.run step newStore receivedEvent = some state ∧ ∀ front mid,
      front <+: receivedEvent → Transition.run step newStore front = some mid → RegistrySafe mid := by
  have hsome : (Transition.run step newStore receivedEvent).isSome = true := by decide
  obtain ⟨state, hrun⟩ := Option.isSome_iff_exists.mp hsome
  refine ⟨state, hrun, (registrySafe_run_iff hrun).mpr ?_⟩
  refine ⟨trivial, ?_, trivial, trivial, trivial, trivial, ?_, trivial⟩
  · rintro channel hchannel ⟨subscriber, hsubscriber, hfull, -⟩
    obtain rfl := List.mem_singleton.mp hchannel
    obtain rfl := Option.some.inj hsubscriber
    exact absurd hfull (by decide)
  · intro broadcast hbroadcast
    cases (show none = some broadcast from hbroadcast)

/-- The first event after the client left fills its channel, the send of the second one keeps the
mutex. -/
theorem not_registryAlwaysSafe : ¬ RegistryAlwaysSafe String := by
  intro hclaim
  let labels := [Label.getWorkflowEvents 0 "project-1", .cancel 0, .leave 0, .cleanUp 0,
    .sendWorkflowEvent "project-1" "Running", .send, .unlock,
    .sendWorkflowEvent "project-1" "Succeeded"]
  have hsome : (Transition.run step newStore labels).isSome = true := by decide
  obtain ⟨state, hrun⟩ := Option.isSome_iff_exists.mp hsome
  have hsafe := (hclaim labels state hrun).2
  have hregistered : Registered state :=
    Transition.run_invariant_of_step (fun _ _ _ => Registered.step) registered_newStore hrun
  rw [neverUnlocks_iff hregistered] at hsafe
  obtain rfl := Option.some.inj hrun
  exact hsafe ⟨_, rfl, 0, List.mem_singleton_self 0, _, rfl, by decide, rfl⟩

end LitmusPortal.Subscriptions
