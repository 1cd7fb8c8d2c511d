import LitmusPortal.Cluster.Store
import LitmusPortal.Lib.Channel
import LitmusPortal.Lib.Transition
import Mathlib.Logic.Function.Basic

/-!
# Replies to log and object requests

A subscription `GetPodLog` or `GetKubeObject` puts a channel into the map under a request id, and
the goroutine `GetLogs` or `GetKubeObjData` passes the request on to the agent, or answers itself when
the agent is not connected. The agent answers with a `PodLog` or `KubeObj` mutation. Whoever answers
looks the channel up, sends to it and closes it, in three steps without a lock. The clean-up of the
subscription takes the channel out of the map.
-/

namespace LitmusPortal.Replies

structure PodLogResponse where
  workflowRunID : String
  podName : String
  podType : String
  log : String
  deriving DecidableEq, Repr

structure KubeObjectResponse where
  clusterID : String
  kubeObj : String
  deriving DecidableEq, Repr

inductive Response where
  | podLog (response : PodLogResponse)
  | kubeObject (response : KubeObjectResponse)
  deriving DecidableEq, Repr

/-- The two maps, `WorkflowLog` and `KubeObjectData`. -/
inductive Kind where
  | workflowLog
  | kubeObjectData
  deriving DecidableEq, Repr

structure PodLog where
  clusterID : ClusterIdentity
  requestID : String
  workflowRunID : String
  podName : String
  podType : String
  log : String
  deriving DecidableEq, Repr

structure KubeObjectData where
  requestID : String
  clusterID : ClusterIdentity
  kubeObj : String
  deriving DecidableEq, Repr

structure PodLogRequest where
  clusterID : String
  workflowRunID : String
  podName : String
  podType : String
  deriving DecidableEq, Repr

structure KubeObjectRequest where
  clusterID : String
  objectType : String
  deriving DecidableEq, Repr

/-- The next step of a call that may answer a request. -/
inductive Stage where
  | verify (clusterID : ClusterIdentity)
  | findCluster
  | findRequest
  | send (channel : Nat)
  | close (channel : Nat)
  | returned (result : Except GoError String)
  deriving DecidableEq

/-- A call, with what it sends, and what it returns when it has sent and when there is no channel. -/
structure Call where
  kind : Kind
  requestID : String
  response : Response
  sent : String
  missing : String
  stage : Stage
  deriving DecidableEq

structure Listener where
  kind : Kind
  requestID : String
  channel : Channel Response
  cancelled : Bool
  cleanedUp : Bool
  reading : Bool

structure ReplyState where
  listeners : Nat → Option Listener
  requests : Kind → String → Option Nat
  calls : Nat → Option Call

def emptyState : ReplyState := ⟨fun _ => none, fun _ _ => none, fun _ => none⟩

def podLog (request : PodLog) : Call where
  kind := .workflowLog
  requestID := request.requestID
  response := .podLog ⟨request.workflowRunID, request.podName, request.podType, request.log⟩
  sent := "LOGS SENT SUCCESSFULLY"
  missing := "LOG REQUEST CANCELLED"
  stage := .verify request.clusterID

def kubeObj (request : KubeObjectData) : Call where
  kind := .kubeObjectData
  requestID := request.requestID
  response := .kubeObject ⟨request.clusterID.clusterID, request.kubeObj⟩
  sent := "KubeData sent successfully"
  missing := "KubeData sent successfully"
  stage := .verify request.clusterID

/-- `GetLogs`, which returns nothing. -/
def getLogs (reqID : String) (pod : PodLogRequest) : Call where
  kind := .workflowLog
  requestID := reqID
  response := .podLog ⟨pod.workflowRunID, pod.podName, pod.podType,
    "CLUSTER ERROR : CLUSTER NOT CONNECTED"⟩
  sent := ""
  missing := ""
  stage := .findCluster

/-- `GetKubeObjData`, which returns nothing. -/
def getKubeObjData (reqID : String) (kubeObject : KubeObjectRequest) : Call where
  kind := .kubeObjectData
  requestID := reqID
  response := .kubeObject ⟨kubeObject.clusterID, "Data not available"⟩
  sent := ""
  missing := ""
  stage := .findCluster

inductive Label where
  | getPodLog (channel call : Nat) (reqID : String) (request : PodLogRequest)
  | getKubeObject (channel call : Nat) (reqID : String) (request : KubeObjectRequest)
  | podLog (call : Nat) (request : PodLog)
  | kubeObj (call : Nat) (request : KubeObjectData)
  | verify (call : Nat) (fails : Bool)
  | findCluster (call : Nat) (connected : Bool)
  | findRequest (call : Nat)
  | send (call : Nat)
  | close (call : Nat)
  | receive (channel : Nat)
  | cancel (channel : Nat)
  | cleanUp (channel : Nat)
  | leave (channel : Nat)
  deriving DecidableEq, Repr

def setCall (state : ReplyState) (call : Nat) (found : Call) : ReplyState :=
  { state with calls := Function.update state.calls call (some found) }

def setListener (state : ReplyState) (channel : Nat) (listener : Listener) : ReplyState :=
  { state with listeners := Function.update state.listeners channel (some listener) }

def setRequest (state : ReplyState) (kind : Kind) (requestID : String) (channel : Option Nat) :
    ReplyState :=
  { state with
    requests := Function.update state.requests kind
      (Function.update (state.requests kind) requestID channel) }

/-- The channel is made and entered in the map, and the goroutine is started. -/
def subscribe (capacity channel call : Nat) (started : Call) (state : ReplyState) :
    Option ReplyState :=
  match state.listeners channel, state.calls call with
  | none, none => some (setCall (setRequest (setListener state channel
        ⟨started.kind, started.requestID, Channel.make capacity, false, false, true⟩)
      started.kind started.requestID (some channel)) call started)
  | _, _ => none

def getPodLog (channel call : Nat) (reqID : String) (request : PodLogRequest) :
    ReplyState → Option ReplyState :=
  subscribe 1 channel call (getLogs reqID request)

def getKubeObject (channel call : Nat) (reqID : String) (request : KubeObjectRequest) :
    ReplyState → Option ReplyState :=
  subscribe 0 channel call (getKubeObjData reqID request)

/-- The steps of a call that touch no channel: what it finds decides the next step. -/
def advance (version : String) (clusters : List Cluster) (state : ReplyState) (found : Call) :
    Label → Option Stage
  | .verify _ fails =>
      match found.stage with
      | .verify clusterID =>
          match verifyCluster version fails clusters clusterID with
          | .error err => some (.returned (.error err))
          | .ok _ => some .findRequest
      | _ => none
  | .findCluster _ connected =>
      if found.stage = .findCluster then
        -- a connected agent gets the request, and the goroutine ends
        if connected then some (.returned (.ok "")) else some .findRequest
      else none
  | .findRequest _ =>
      if found.stage = .findRequest then
        match state.requests found.kind found.requestID with
        | none => some (.returned (.ok found.missing))
        | some channel => some (.send channel)
      else none
  | _ => none

/-- `reqChan <- &resp`. A channel without a buffer takes the response when its reader is there. -/
def sendResponse (call : Nat) (found : Call) (state : ReplyState) : Option ReplyState :=
  match found.stage with
  | .send channel => do
      let listener ← state.listeners channel
      if listener.channel.closed then
        some (setCall state call
          { found with stage := .returned (.error (.panic "send on closed channel")) })
      else if listener.channel.capacity = 0 then
        if listener.reading then some (setCall state call { found with stage := .close channel })
        else none
      else
        let sent ← listener.channel.send found.response
        some (setCall (setListener state channel { listener with channel := sent }) call
          { found with stage := .close channel })
  | _ => none

/-- `close(reqChan)`. -/
def closeChannel (call : Nat) (found : Call) (state : ReplyState) : Option ReplyState :=
  match found.stage with
  | .close channel => do
      let listener ← state.listeners channel
      if listener.channel.closed then
        some (setCall state call
          { found with stage := .returned (.error (.panic "close of closed channel")) })
      else
        some (setCall (setListener state channel { listener with channel := listener.channel.close })
          call { found with stage := .returned (.ok found.sent) })
  | _ => none

/-- The reader, which ends with its context or with the channel. -/
def stepListener (listener : Listener) : Label → Option Listener
  | .receive _ =>
      if listener.reading then
        listener.channel.receive.map fun (_, channel) => { listener with channel := channel }
      else none
  | .cancel _ => if listener.cancelled then none else some { listener with cancelled := true }
  | .leave _ =>
      if listener.reading && (listener.cancelled || listener.channel.closed) then
        some { listener with reading := false }
      else none
  | _ => none

/-- The goroutine behind `<-ctx.Done()` deletes whatever is in the map under the id. -/
def cleanUp (channel : Nat) (listener : Listener) (state : ReplyState) : Option ReplyState :=
  if listener.cancelled && !listener.cleanedUp then
    some (setRequest (setListener state channel { listener with cleanedUp := true }) listener.kind
      listener.requestID none)
  else none

def start (call : Nat) (started : Call) (state : ReplyState) : Option ReplyState :=
  match state.calls call with
  | none => some (setCall state call started)
  | some _ => none

def step (version : String) (clusters : List Cluster) (state : ReplyState) (label : Label) :
    Option ReplyState :=
  match label with
  | .getPodLog channel call reqID request => getPodLog channel call reqID request state
  | .getKubeObject channel call reqID request => getKubeObject channel call reqID request state
  | .podLog call request => start call (podLog request) state
  | .kubeObj call request => start call (kubeObj request) state
  | .verify call _ | .findCluster call _ | .findRequest call =>
      (state.calls call).bind fun found => (advance version clusters state found label).map
        fun stage => setCall state call { found with stage := stage }
  | .send call => (state.calls call).bind fun found => sendResponse call found state
  | .close call => (state.calls call).bind fun found => closeChannel call found state
  | .receive channel | .cancel channel | .leave channel =>
      (state.listeners channel).bind fun listener =>
        (stepListener listener label).map (setListener state channel)
  | .cleanUp channel => (state.listeners channel).bind fun listener =>
      cleanUp channel listener state

/-! ### Panics -/

/-- The call is about to send to the channel or to close it. -/
def Call.Holds (found : Call) (channel : Nat) : Prop :=
  found.stage = .send channel ∨ found.stage = .close channel

def Closed (state : ReplyState) (channel : Nat) : Prop :=
  ∃ listener ∈ state.listeners channel, listener.channel.closed = true

/-- The next step of some call is a send on a closed channel or a second close. -/
def WouldPanic (state : ReplyState) : Prop :=
  ∃ call, ∃ found ∈ state.calls call, ∃ channel, found.Holds channel ∧ Closed state channel

def NeverPanics : Prop :=
  ∀ version clusters labels state,
    Transition.run (step version clusters) emptyState labels = some state → ¬ WouldPanic state

/-- No call finds a channel that has been closed, and none closes a channel that another call is about
to send to or to close. -/
def SparesChannel (state : ReplyState) : Label → Prop
  | .findRequest call => ∀ found ∈ state.calls call,
      ∀ channel ∈ state.requests found.kind found.requestID, ¬ Closed state channel
  | .close call => ∀ found ∈ state.calls call, ∀ channel, found.stage = .close channel →
      ∀ other, other ≠ call → ∀ found' ∈ state.calls other, ¬ found'.Holds channel
  | _ => True

section Step

variable {version : String} {clusters : List Cluster} {state state' : ReplyState} {call : Nat}

@[simp]
theorem setCall_self (state : ReplyState) (call : Nat) (found : Call) :
    (setCall state call found).calls call = some found := Function.update_self ..

theorem setCall_of_ne (state : ReplyState) {call other : Nat} (h : other ≠ call) (found : Call) :
    (setCall state call found).calls other = state.calls other := Function.update_of_ne h ..

@[simp]
theorem closed_setCall {found : Call} {channel : Nat} :
    Closed (setCall state call found) channel ↔ Closed state channel := Iff.rfl

@[simp]
theorem closed_setRequest {kind : Kind} {requestID : String} {entry : Option Nat} {channel : Nat} :
    Closed (setRequest state kind requestID entry) channel ↔ Closed state channel := Iff.rfl

theorem closed_setListener {channel other : Nat} {listener : Listener} :
    Closed (setListener state channel listener) other ↔
      if other = channel then listener.channel.closed = true else Closed state other := by
  by_cases heq : other = channel
  · subst heq
    simp [Closed, setListener]
  · simp [Closed, setListener, heq]

/-- The call goes on to a step in which it holds no closed channel. -/
theorem wouldPanic_setCall_iff (h : ¬ WouldPanic state) {found : Call} :
    WouldPanic (setCall state call found) ↔
      ∃ channel, found.Holds channel ∧ Closed state channel := by
  constructor
  · rintro ⟨other, found', hfound', channel, hholds, hclosed⟩
    by_cases heq : other = call
    · subst heq
      obtain rfl := Option.some.inj ((setCall_self ..).symm.trans hfound')
      exact ⟨channel, hholds, hclosed⟩
    · rw [setCall_of_ne state heq] at hfound'
      exact absurd ⟨other, found', hfound', channel, hholds, hclosed⟩ h
  · rintro ⟨channel, hholds, hclosed⟩
    exact ⟨call, found, setCall_self .., channel, hholds, hclosed⟩

theorem not_wouldPanic_of_closed (h : ¬ WouldPanic state) (hcalls : state'.calls = state.calls)
    (hclosed : ∀ channel, Closed state' channel → Closed state channel) : ¬ WouldPanic state' := by
  rintro ⟨other, found, hfound, channel, hholds, hchannel⟩
  rw [hcalls] at hfound
  exact h ⟨other, found, hfound, channel, hholds, hclosed channel hchannel⟩

theorem holds_returned {found : Call} {result : Except GoError String} {channel : Nat} :
    ¬ ({ found with stage := .returned result } : Call).Holds channel := by
  simp [Call.Holds]

theorem not_wouldPanic_start (h : ¬ WouldPanic state) {started : Call}
    (hstage : ∀ channel, ¬ started.Holds channel) (hstep : start call started state = some state') :
    ¬ WouldPanic state' := by
  unfold start at hstep
  split at hstep <;> cases hstep
  rw [wouldPanic_setCall_iff h]
  rintro ⟨channel, hholds, -⟩
  exact hstage channel hholds

theorem not_wouldPanic_subscribe (h : ¬ WouldPanic state) {capacity channel : Nat} {started : Call}
    (hstage : ∀ channel, ¬ started.Holds channel)
    (hstep : subscribe capacity channel call started state = some state') : ¬ WouldPanic state' := by
  unfold subscribe at hstep
  split at hstep <;> cases hstep
  have hopen : ¬ WouldPanic (setRequest (setListener state channel
      ⟨started.kind, started.requestID, Channel.make capacity, false, false, true⟩)
      started.kind started.requestID (some channel)) := by
    refine not_wouldPanic_of_closed h rfl fun other hclosed => ?_
    rw [closed_setRequest, closed_setListener] at hclosed
    split at hclosed
    · simp [Channel.make] at hclosed
    · exact hclosed
  rw [wouldPanic_setCall_iff hopen]
  rintro ⟨other, hholds, -⟩
  exact hstage other hholds

theorem wouldPanic_close_iff (h : ¬ WouldPanic state) {found : Call}
    (hfound : state.calls call = some found) (hstep : closeChannel call found state = some state') :
    WouldPanic state' ↔ ∃ channel, found.stage = .close channel ∧
      ∃ other, other ≠ call ∧ ∃ found' ∈ state.calls other, found'.Holds channel := by
  unfold closeChannel at hstep
  split at hstep
  · rename_i channel hstage
    cases hlistener : state.listeners channel with
    | none => simp [hlistener] at hstep
    | some listener =>
        have hopen : listener.channel.closed = false := by
          by_contra hclosed
          exact h ⟨call, found, hfound, channel, Or.inr hstage, listener, hlistener,
            by simpa using hclosed⟩
        simp only [hlistener, Option.bind_eq_bind, Option.bind_some, hopen, Bool.false_eq_true,
          if_false, Option.some.injEq] at hstep
        subst hstep
        simp only [hstage, Stage.close.injEq, exists_eq_left']
        constructor
        · rintro ⟨other, found', hfound', held, hholds, hclosed⟩
          by_cases heq : other = call
          · subst heq
            obtain rfl := Option.some.inj ((setCall_self ..).symm.trans hfound')
            exact absurd hholds holds_returned
          · rw [setCall_of_ne _ heq] at hfound'
            rw [closed_setCall, closed_setListener] at hclosed
            split at hclosed
            · rename_i hheld
              subst hheld
              exact ⟨other, heq, found', hfound', hholds⟩
            · exact absurd ⟨other, found', hfound', held, hholds, hclosed⟩ h
        · rintro ⟨other, heq, found', hfound', hholds⟩
          refine ⟨other, found', (setCall_of_ne _ heq _).trans hfound', channel, hholds, ?_⟩
          rw [closed_setCall, closed_setListener, if_pos rfl]
          rfl
  · cases hstep

theorem not_wouldPanic_send (h : ¬ WouldPanic state) {found : Call}
    (hfound : state.calls call = some found) (hstep : sendResponse call found state = some state') :
    ¬ WouldPanic state' := by
  unfold sendResponse at hstep
  split at hstep
  · rename_i channel hstage
    cases hlistener : state.listeners channel with
    | none => simp [hlistener] at hstep
    | some listener =>
        have hopen : listener.channel.closed = false := by
          by_contra hclosed
          exact h ⟨call, found, hfound, channel, Or.inl hstage, listener, hlistener,
            by simpa using hclosed⟩
        have hdone : ∀ {next : ReplyState}, ¬ WouldPanic next →
            (Closed next channel → Closed state channel) →
            ¬ WouldPanic (setCall next call { found with stage := .close channel }) := by
          intro next hnext hkept
          rw [wouldPanic_setCall_iff hnext]
          rintro ⟨other, hholds, hclosed⟩
          have hother : channel = other := by simpa [Call.Holds] using hholds
          subst hother
          obtain ⟨listener', hlistener', hclosed⟩ := hkept hclosed
          obtain rfl := Option.some.inj (hlistener.symm.trans hlistener')
          simp [hopen] at hclosed
        simp only [hlistener, Option.bind_eq_bind, Option.bind_some, hopen, Bool.false_eq_true,
          if_false] at hstep
        split at hstep
        · split at hstep <;> cases hstep
          exact hdone h id
        · obtain ⟨sent, hsent, hstep⟩ := Option.bind_eq_some_iff.mp hstep
          cases hstep
          have hkept : ∀ other, Closed (setListener state channel
              { listener with channel := sent }) other → Closed state other := by
            intro other hclosed
            rw [closed_setListener] at hclosed
            split at hclosed
            · rename_i heq
              subst heq
              exact ⟨listener, hlistener, (Channel.closed_send hsent).symm.trans hclosed⟩
            · exact hclosed
          exact hdone (not_wouldPanic_of_closed h rfl hkept) (hkept channel)
  · cases hstep

theorem not_wouldPanic_listener (h : ¬ WouldPanic state) {channel : Nat}
    {listener listener' : Listener} (hlistener : state.listeners channel = some listener)
    (hclosed : listener'.channel.closed = listener.channel.closed) :
    ¬ WouldPanic (setListener state channel listener') := by
  refine not_wouldPanic_of_closed h rfl fun other hother => ?_
  rw [closed_setListener] at hother
  split at hother
  · rename_i heq
    subst heq
    exact ⟨listener, hlistener, hclosed.symm.trans hother⟩
  · exact hother

theorem closed_stepListener {listener listener' : Listener} {label : Label}
    (hstep : stepListener listener label = some listener') :
    listener'.channel.closed = listener.channel.closed := by
  cases label with
  | receive channel =>
      simp only [stepListener] at hstep
      split at hstep
      · obtain ⟨⟨response, received⟩, hreceive, rfl⟩ := Option.map_eq_some_iff.mp hstep
        exact Channel.closed_receive hreceive
      · cases hstep
  | cancel channel =>
      simp only [stepListener] at hstep
      split at hstep <;> cases hstep
      rfl
  | leave channel =>
      simp only [stepListener] at hstep
      split at hstep <;> cases hstep
      rfl
  | _ => cases hstep

/-- The step lemma: a step makes no panic possible exactly when it spares the channel. -/
theorem not_wouldPanic_step_iff {label : Label} (h : ¬ WouldPanic state)
    (hstep : step version clusters state label = some state') :
    ¬ WouldPanic state' ↔ SparesChannel state label := by
  have hlistener : ∀ channel, (state.listeners channel).bind (fun listener =>
      (stepListener listener label).map (setListener state channel)) = some state' →
      ¬ WouldPanic state' := by
    intro channel hstep
    obtain ⟨listener, hfound, hstep⟩ := Option.bind_eq_some_iff.mp hstep
    obtain ⟨listener', hact, rfl⟩ := Option.map_eq_some_iff.mp hstep
    exact not_wouldPanic_listener h hfound (closed_stepListener hact)
  cases label with
  | getPodLog channel call reqID request =>
      exact iff_of_true
        (not_wouldPanic_subscribe h (by simp [Call.Holds, getLogs]) hstep) trivial
  | getKubeObject channel call reqID request =>
      exact iff_of_true
        (not_wouldPanic_subscribe h (by simp [Call.Holds, getKubeObjData]) hstep) trivial
  | podLog call request =>
      exact iff_of_true (not_wouldPanic_start h (by simp [Call.Holds, podLog]) hstep) trivial
  | kubeObj call request =>
      exact iff_of_true (not_wouldPanic_start h (by simp [Call.Holds, kubeObj]) hstep) trivial
  | verify call fails =>
      obtain ⟨found, hfound, hstep⟩ := Option.bind_eq_some_iff.mp hstep
      obtain ⟨stage, hstage, rfl⟩ := Option.map_eq_some_iff.mp hstep
      rw [wouldPanic_setCall_iff h]
      refine iff_of_true ?_ trivial
      rintro ⟨channel, hholds, -⟩
      simp only [advance] at hstage
      split at hstage
      · split at hstage <;> cases hstage <;> simp [Call.Holds] at hholds
      · cases hstage
  | findCluster call connected =>
      obtain ⟨found, hfound, hstep⟩ := Option.bind_eq_some_iff.mp hstep
      obtain ⟨stage, hstage, rfl⟩ := Option.map_eq_some_iff.mp hstep
      rw [wouldPanic_setCall_iff h]
      refine iff_of_true ?_ trivial
      rintro ⟨channel, hholds, -⟩
      simp only [advance] at hstage
      split at hstage
      · split at hstage <;> cases hstage <;> simp [Call.Holds] at hholds
      · cases hstage
  | findRequest call =>
      obtain ⟨found, hfound, hstep⟩ := Option.bind_eq_some_iff.mp hstep
      obtain ⟨stage, hstage, rfl⟩ := Option.map_eq_some_iff.mp hstep
      rw [wouldPanic_setCall_iff h]
      simp only [advance] at hstage
      split at hstage
      · simp only [SparesChannel, hfound, Option.mem_def, Option.some.injEq, forall_eq']
        cases hentry : state.requests found.kind found.requestID with
        | none =>
            simp only [hentry, Option.some.injEq] at hstage
            subst hstage
            simp [Call.Holds]
        | some channel =>
            simp only [hentry, Option.some.injEq] at hstage
            subst hstage
            simp [Call.Holds]
      · cases hstage
  | send call =>
      obtain ⟨found, hfound, hstep⟩ := Option.bind_eq_some_iff.mp hstep
      exact iff_of_true (not_wouldPanic_send h hfound hstep) trivial
  | close call =>
      obtain ⟨found, hfound, hstep⟩ := Option.bind_eq_some_iff.mp hstep
      rw [wouldPanic_close_iff h hfound hstep]
      simp only [SparesChannel, hfound, Option.mem_def, Option.some.injEq, forall_eq']
      push Not
      rfl
  | receive channel => exact iff_of_true (hlistener channel hstep) trivial
  | cancel channel => exact iff_of_true (hlistener channel hstep) trivial
  | leave channel => exact iff_of_true (hlistener channel hstep) trivial
  | cleanUp channel =>
      obtain ⟨listener, hfound, hstep⟩ := Option.bind_eq_some_iff.mp hstep
      unfold cleanUp at hstep
      split at hstep <;> cases hstep
      have hset : ¬ WouldPanic (setListener state channel { listener with cleanedUp := true }) :=
        not_wouldPanic_listener h hfound rfl
      exact iff_of_true (not_wouldPanic_of_closed hset rfl fun _ hclosed => hclosed) trivial

end Step

theorem not_wouldPanic_emptyState : ¬ WouldPanic emptyState := by
  rintro ⟨call, found, hfound, -⟩
  cases hfound

/-- No state of a run would panic exactly when every step of the run spares the channels. -/
theorem neverPanics_iff {version : String} {clusters : List Cluster} {labels : List Label}
    {state : ReplyState}
    (hrun : Transition.run (step version clusters) emptyState labels = some state) :
    (∀ front mid, front <+: labels →
      Transition.run (step version clusters) emptyState front = some mid → ¬ WouldPanic mid) ↔
      Transition.Meets (step version clusters) SparesChannel emptyState labels :=
  Transition.run_invariant_iff (fun _ _ _ _ _ => trivial)
    (fun _ _ _ _ => not_wouldPanic_step_iff) trivial not_wouldPanic_emptyState hrun

/-! ### A reply that comes twice -/

def sampleSubscription : Label :=
  .getPodLog 0 0 "request-1" ⟨"cluster-1", "run-1", "pod-1", "workflow"⟩

def sampleReply (call : Nat) : List Label :=
  [.podLog call ⟨⟨"cluster-1", "key-1", "2.6.0"⟩, "request-1", "run-1", "pod-1", "workflow", "log"⟩,
    .verify call false, .findRequest call, .send call, .close call]

/-- The agent answers once. -/
theorem neverPanics_iff_answered :
    ∃ state, Transition.run (step "2.6.0" [sampleCluster]) emptyState
        (sampleSubscription :: .findCluster 0 true :: sampleReply 1) = some state ∧
      ∀ front mid, front <+: sampleSubscription :: .findCluster 0 true :: sampleReply 1 →
        Transition.run (step "2.6.0" [sampleCluster]) emptyState front = some mid →
        ¬ WouldPanic mid := by
  have hsome : (Transition.run (step "2.6.0" [sampleCluster]) emptyState
      (sampleSubscription :: .findCluster 0 true :: sampleReply 1)).isSome = true := by decide
  obtain ⟨state, hrun⟩ := Option.isSome_iff_exists.mp hsome
  refine ⟨state, hrun, (neverPanics_iff hrun).mpr ?_⟩
  refine ⟨trivial, trivial, trivial, trivial, ?_, trivial, ?_, trivial⟩
  · intro found hfound channel hchannel hclosed
    obtain rfl := Option.some.inj hfound
    obtain rfl := Option.some.inj hchannel
    obtain ⟨listener, hlistener, hclosed⟩ := hclosed
    obtain rfl := Option.some.inj hlistener
    cases hclosed
  · intro found hfound channel hstage other hne found' hfound' hholds
    match other with
    | 0 =>
        obtain rfl := Option.some.inj hfound'
        rcases hholds with hholds | hholds <;> cases hholds
    | 1 => exact hne rfl
    | n + 2 => cases (show none = some found' from hfound')

/-- The subscription is still there when the agent answers again, and its channel is closed. -/
theorem not_neverPanics : ¬ NeverPanics := by
  intro hclaim
  let labels := sampleSubscription :: .findCluster 0 true :: sampleReply 1 ++
    (sampleReply 2).take 3
  have hsome : (Transition.run (step "2.6.0" [sampleCluster]) emptyState labels).isSome = true := by
    decide
  obtain ⟨state, hrun⟩ := Option.isSome_iff_exists.mp hsome
  refine hclaim "2.6.0" [sampleCluster] labels state hrun ?_
  obtain rfl := Option.some.inj hrun
  exact ⟨2, _, rfl, 0, Or.inl rfl, _, rfl, rfl⟩

end LitmusPortal.Replies
