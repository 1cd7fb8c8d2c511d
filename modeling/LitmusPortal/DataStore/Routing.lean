import LitmusPortal.DataStore.Replies
import LitmusPortal.Lib.Traffic

/-!
# Where the replies go

A reply finds its listener by the id of the request, in a map that new subscriptions overwrite and that clean-ups empty.
However these interleave, a listener gets the answers to its own request only, in the order of the sends, and what an
agent answers has been let through by `VerifyCluster`.
-/

namespace LitmusPortal.Replies

open Transition

/-- The call that a label starts. -/
def startedBy : Label → Option (Nat × Call)
  | .getPodLog _ call reqID request => some (call, getLogs reqID request)
  | .getKubeObject _ call reqID request => some (call, getKubeObjData reqID request)
  | .podLog call request => some (call, podLog request)
  | .kubeObj call request => some (call, kubeObj request)
  | _ => none

/-- The response that a call puts into the channel, or hands to the reader of a channel without a buffer. -/
def answered (channel : Nat) (state : ReplyState) : Label → List Response
  | .send call => (state.calls call).elim [] fun found =>
      if found.stage = .send channel ∧ ∃ listener ∈ state.listeners channel, listener.channel.closed = false then
        [found.response]
      else []
  | _ => []

def delivered (channel : Nat) (state : ReplyState) : Label → List Response
  | .receive other =>
      if other = channel then (state.listeners other).elim [] fun listener => listener.channel.buffer.take 1 else []
  | .send call =>
      if ∃ listener ∈ state.listeners channel, listener.channel.capacity = 0 then answered channel state (.send call)
      else []
  | _ => []

def buffered (listeners : Nat → Option Listener) (channel : Nat) : List Response :=
  (listeners channel).elim [] fun listener => listener.channel.buffer

/-! ### What a step does -/

/-- The steps, one constructor for each branch that is taken. -/
inductive Moved (version : String) (clusters : List Cluster) (state : ReplyState) : Label → ReplyState → Prop
  | subscribed {label : Label} {channel call capacity : Nat} {started : Call}
      (hstarts : startedBy label = some (call, started)) (hnew : state.listeners channel = none) :
      Moved version clusters state label (setCall (setRequest (setListener state channel
          ⟨started.kind, started.requestID, Channel.make capacity, false, false, true⟩)
        started.kind started.requestID (some channel)) call started)
  | started {label : Label} {call : Nat} {started : Call} (hstarts : startedBy label = some (call, started)) :
      Moved version clusters state label (setCall state call started)
  | verifyFailed {call : Nat} {fails : Bool} {found : Call} {err : GoError} (hfound : state.calls call = some found) :
      Moved version clusters state (.verify call fails)
        (setCall state call { found with stage := .returned (.error err) })
  | verified {call : Nat} {fails : Bool} {found : Call} {clusterID : ClusterIdentity} {cluster : Cluster}
      (hfound : state.calls call = some found) (hstage : found.stage = .verify clusterID)
      (hverify : verifyCluster version fails clusters clusterID = .ok cluster) :
      Moved version clusters state (.verify call fails) (setCall state call { found with stage := .findRequest })
  | foundCluster {call : Nat} {connected : Bool} {found : Call} {stage : Stage}
      (hfound : state.calls call = some found) (hstage : found.stage = .findCluster)
      (hnext : stage = .findRequest ∨ stage = .returned (.ok "")) :
      Moved version clusters state (.findCluster call connected) (setCall state call { found with stage := stage })
  | missing {call : Nat} {found : Call} (hfound : state.calls call = some found) (hstage : found.stage = .findRequest) :
      Moved version clusters state (.findRequest call)
        (setCall state call { found with stage := .returned (.ok found.missing) })
  | foundRequest {call channel : Nat} {found : Call} (hfound : state.calls call = some found)
      (hstage : found.stage = .findRequest) (hentry : state.requests found.kind found.requestID = some channel) :
      Moved version clusters state (.findRequest call) (setCall state call { found with stage := .send channel })
  | sentClosed {call channel : Nat} {found : Call} {listener : Listener} (hfound : state.calls call = some found)
      (hstage : found.stage = .send channel) (hlistener : state.listeners channel = some listener)
      (hclosed : listener.channel.closed = true) :
      Moved version clusters state (.send call)
        (setCall state call { found with stage := .returned (.error (.panic "send on closed channel")) })
  | handed {call channel : Nat} {found : Call} {listener : Listener} (hfound : state.calls call = some found)
      (hstage : found.stage = .send channel) (hlistener : state.listeners channel = some listener)
      (hopen : listener.channel.closed = false) (hcapacity : listener.channel.capacity = 0) :
      Moved version clusters state (.send call) (setCall state call { found with stage := .close channel })
  | sent {call channel : Nat} {found : Call} {listener : Listener} {sent : Channel Response}
      (hfound : state.calls call = some found) (hstage : found.stage = .send channel)
      (hlistener : state.listeners channel = some listener) (hopen : listener.channel.closed = false)
      (hcapacity : listener.channel.capacity ≠ 0) (hsend : listener.channel.send found.response = some sent) :
      Moved version clusters state (.send call)
        (setCall (setListener state channel { listener with channel := sent }) call
          { found with stage := .close channel })
  | closedTwice {call channel : Nat} {found : Call} (hfound : state.calls call = some found)
      (hstage : found.stage = .close channel) :
      Moved version clusters state (.close call)
        (setCall state call { found with stage := .returned (.error (.panic "close of closed channel")) })
  | closed {call channel : Nat} {found : Call} {listener : Listener} (hfound : state.calls call = some found)
      (hstage : found.stage = .close channel) (hlistener : state.listeners channel = some listener) :
      Moved version clusters state (.close call)
        (setCall (setListener state channel { listener with channel := listener.channel.close }) call
          { found with stage := .returned (.ok found.sent) })
  | received {channel : Nat} {listener : Listener} {response : Response} {rest : Channel Response}
      (hlistener : state.listeners channel = some listener)
      (hreceive : listener.channel.receive = some (response, rest)) :
      Moved version clusters state (.receive channel) (setListener state channel { listener with channel := rest })
  | cancelled {channel : Nat} {listener : Listener} (hlistener : state.listeners channel = some listener) :
      Moved version clusters state (.cancel channel) (setListener state channel { listener with cancelled := true })
  | left {channel : Nat} {listener : Listener} (hlistener : state.listeners channel = some listener) :
      Moved version clusters state (.leave channel) (setListener state channel { listener with reading := false })
  | cleanedUp {channel : Nat} {listener : Listener} (hlistener : state.listeners channel = some listener) :
      Moved version clusters state (.cleanUp channel)
        (setRequest (setListener state channel { listener with cleanedUp := true }) listener.kind listener.requestID
          none)

section Step

variable {version : String} {clusters : List Cluster} {state state' : ReplyState} {label : Label}

theorem moved_of_subscribe {capacity channel call : Nat} {started : Call}
    (hstarts : startedBy label = some (call, started))
    (h : subscribe capacity channel call started state = some state') : Moved version clusters state label state' := by
  unfold subscribe at h
  split at h
  · cases h
    exact .subscribed hstarts ‹_›
  · cases h

theorem moved_of_start {call : Nat} {started : Call} (hstarts : startedBy label = some (call, started))
    (h : start call started state = some state') : Moved version clusters state label state' := by
  unfold start at h
  split at h
  · cases h
    exact .started hstarts
  · cases h

theorem moved_of_send {call : Nat} {found : Call} (hfound : state.calls call = some found)
    (h : sendResponse call found state = some state') : Moved version clusters state (.send call) state' := by
  unfold sendResponse at h
  split at h
  · rename_i channel hstage
    obtain ⟨listener, hlistener, h⟩ := Option.bind_eq_some_iff.mp h
    split at h
    · cases h
      exact .sentClosed hfound hstage hlistener ‹_›
    · rename_i hopen
      split at h
      · split at h <;> cases h
        exact .handed hfound hstage hlistener (Bool.eq_false_iff.mpr hopen) ‹_›
      · obtain ⟨sent, hsend, h⟩ := Option.bind_eq_some_iff.mp h
        cases h
        exact .sent hfound hstage hlistener (Bool.eq_false_iff.mpr hopen) ‹_› hsend
  · cases h

theorem moved_of_close {call : Nat} {found : Call} (hfound : state.calls call = some found)
    (h : closeChannel call found state = some state') : Moved version clusters state (.close call) state' := by
  unfold closeChannel at h
  split at h
  · rename_i channel hstage
    obtain ⟨listener, hlistener, h⟩ := Option.bind_eq_some_iff.mp h
    split at h <;> cases h
    · exact .closedTwice hfound hstage
    · exact .closed hfound hstage hlistener
  · cases h

theorem moved_of_step (h : step version clusters state label = some state') :
    Moved version clusters state label state' := by
  cases label with
  | getPodLog channel call reqID request => exact moved_of_subscribe rfl h
  | getKubeObject channel call reqID request => exact moved_of_subscribe rfl h
  | podLog call request => exact moved_of_start rfl h
  | kubeObj call request => exact moved_of_start rfl h
  | verify call fails =>
      obtain ⟨found, hfound, h⟩ := Option.bind_eq_some_iff.mp h
      obtain ⟨stage, hstage, rfl⟩ := Option.map_eq_some_iff.mp h
      simp only [advance] at hstage
      split at hstage
      · split at hstage <;> cases hstage
        · exact .verifyFailed hfound
        · exact .verified hfound ‹_› ‹_›
      · cases hstage
  | findCluster call connected =>
      obtain ⟨found, hfound, h⟩ := Option.bind_eq_some_iff.mp h
      obtain ⟨stage, hstage, rfl⟩ := Option.map_eq_some_iff.mp h
      simp only [advance] at hstage
      split at hstage
      · rename_i hfinds
        split at hstage <;> cases hstage
        · exact .foundCluster hfound hfinds (.inr rfl)
        · exact .foundCluster hfound hfinds (.inl rfl)
      · cases hstage
  | findRequest call =>
      obtain ⟨found, hfound, h⟩ := Option.bind_eq_some_iff.mp h
      obtain ⟨stage, hstage, rfl⟩ := Option.map_eq_some_iff.mp h
      simp only [advance] at hstage
      split at hstage
      · split at hstage <;> cases hstage
        · exact .missing hfound ‹_›
        · exact .foundRequest hfound ‹_› ‹_›
      · cases hstage
  | send call =>
      obtain ⟨found, hfound, h⟩ := Option.bind_eq_some_iff.mp h
      exact moved_of_send hfound h
  | close call =>
      obtain ⟨found, hfound, h⟩ := Option.bind_eq_some_iff.mp h
      exact moved_of_close hfound h
  | receive channel =>
      obtain ⟨listener, hlistener, h⟩ := Option.bind_eq_some_iff.mp h
      obtain ⟨listener', hact, rfl⟩ := Option.map_eq_some_iff.mp h
      simp only [stepListener] at hact
      split at hact
      · obtain ⟨⟨response, rest⟩, hreceive, rfl⟩ := Option.map_eq_some_iff.mp hact
        exact .received hlistener hreceive
      · cases hact
  | cancel channel =>
      obtain ⟨listener, hlistener, h⟩ := Option.bind_eq_some_iff.mp h
      obtain ⟨listener', hact, rfl⟩ := Option.map_eq_some_iff.mp h
      simp only [stepListener] at hact
      split at hact <;> cases hact
      exact .cancelled hlistener
  | leave channel =>
      obtain ⟨listener, hlistener, h⟩ := Option.bind_eq_some_iff.mp h
      obtain ⟨listener', hact, rfl⟩ := Option.map_eq_some_iff.mp h
      simp only [stepListener] at hact
      split at hact <;> cases hact
      exact .left hlistener
  | cleanUp channel =>
      obtain ⟨listener, hlistener, h⟩ := Option.bind_eq_some_iff.mp h
      unfold cleanUp at h
      split at h <;> cases h
      exact .cleanedUp hlistener

/-! ### The balance of a channel -/

section Balance

variable {channel other call : Nat} {found : Call} {listener listener' : Listener}

@[simp]
theorem listeners_setCall (state : ReplyState) (call : Nat) (found : Call) :
    (setCall state call found).listeners = state.listeners := rfl

@[simp]
theorem listeners_setRequest (state : ReplyState) (kind : Kind) (requestID : String) (entry : Option Nat) :
    (setRequest state kind requestID entry).listeners = state.listeners := rfl

theorem setListener_self (state : ReplyState) (channel : Nat) (listener : Listener) :
    (setListener state channel listener).listeners channel = some listener := Function.update_self ..

theorem setListener_of_ne (state : ReplyState) (h : other ≠ channel) (listener : Listener) :
    (setListener state channel listener).listeners other = state.listeners other := Function.update_of_ne h ..

theorem buffered_setListener (hlistener : state.listeners other = some listener)
    (hbuffer : listener'.channel.buffer = listener.channel.buffer) :
    buffered (setListener state other listener').listeners channel = buffered state.listeners channel := by
  by_cases heq : channel = other
  · subst heq
    rw [buffered, setListener_self, buffered, hlistener, Option.elim_some, Option.elim_some, hbuffer]
  · rw [buffered, setListener_of_ne state heq, buffered]

theorem answered_of_startedBy {started : Call} (h : startedBy label = some (call, started)) (channel : Nat)
    (state : ReplyState) : answered channel state label = [] ∧ delivered channel state label = [] := by
  cases label <;> first | exact ⟨rfl, rfl⟩ | cases h

theorem delivered_of_ne (h : other ≠ channel) : delivered channel state (.receive other) = [] := if_neg h

theorem answered_send (hfound : state.calls call = some found) :
    answered channel state (.send call) =
      if found.stage = .send channel ∧ ∃ listener ∈ state.listeners channel, listener.channel.closed = false then
        [found.response]
      else [] := by
  rw [answered, hfound, Option.elim_some]

theorem answered_of_ne (hfound : state.calls call = some found) (hstage : found.stage = .send other)
    (hne : channel ≠ other) : answered channel state (.send call) = [] := by
  rw [answered_send hfound, if_neg]
  rintro ⟨hsame, -⟩
  rw [hstage] at hsame
  exact hne (Stage.send.inj hsame).symm

/-- Nothing goes in and nothing out. -/
theorem balance_quiet (hanswered : answered channel state label = []) (hdelivered : delivered channel state label = [])
    (hsame : buffered state'.listeners channel = buffered state.listeners channel) :
    buffered state.listeners channel ++ answered channel state label =
      delivered channel state label ++ buffered state'.listeners channel := by
  rw [hanswered, hdelivered, hsame, List.append_nil, List.nil_append]

theorem delivered_send_of_nil (h : answered channel state (.send call) = []) :
    delivered channel state (.send call) = [] := by
  rw [delivered, h, ite_self]

theorem balance_step (h : step version clusters state label = some state') :
    buffered state.listeners channel ++ answered channel state label =
      delivered channel state label ++ buffered state'.listeners channel := by
  cases moved_of_step h with
  | @subscribed _ other call capacity started hstarts hnew =>
      obtain ⟨hanswered, hdelivered⟩ := answered_of_startedBy hstarts channel state
      apply balance_quiet hanswered hdelivered
      rw [listeners_setCall, listeners_setRequest]
      by_cases heq : channel = other
      · subst heq
        rw [buffered, setListener_self, buffered, hnew]
        rfl
      · rw [buffered, setListener_of_ne state heq, buffered]
  | started hstarts =>
      obtain ⟨hanswered, hdelivered⟩ := answered_of_startedBy hstarts channel state
      exact balance_quiet hanswered hdelivered rfl
  | verifyFailed => exact balance_quiet rfl rfl rfl
  | verified => exact balance_quiet rfl rfl rfl
  | foundCluster => exact balance_quiet rfl rfl rfl
  | missing => exact balance_quiet rfl rfl rfl
  | foundRequest => exact balance_quiet rfl rfl rfl
  | closedTwice => exact balance_quiet rfl rfl rfl
  | @sentClosed call other found listener hfound hstage hlistener hclosed =>
      have hnone : answered channel state (.send call) = [] := by
        rw [answered_send hfound, if_neg]
        rintro ⟨hsame, found, hopen, hopenFalse⟩
        rw [hstage, Stage.send.injEq] at hsame
        rw [← hsame, hlistener] at hopen
        obtain rfl := Option.some.inj hopen
        rw [hclosed] at hopenFalse
        cases hopenFalse
      exact balance_quiet hnone (delivered_send_of_nil hnone) rfl
  | @handed call other found listener hfound hstage hlistener hopen hcapacity =>
      by_cases heq : channel = other
      · subst heq
        have hbuffer : buffered state.listeners channel = [] := by
          have hfits := listener.channel.fits
          rw [hcapacity] at hfits
          rw [buffered, hlistener, Option.elim_some]
          exact List.length_eq_zero_iff.mp (Nat.le_zero.mp hfits)
        have hdelivered : delivered channel state (.send call) = answered channel state (.send call) :=
          if_pos ⟨listener, hlistener, hcapacity⟩
        rw [hdelivered, listeners_setCall, hbuffer, List.append_nil, List.nil_append]
      · have hnone := answered_of_ne hfound hstage heq
        exact balance_quiet hnone (delivered_send_of_nil hnone) rfl
  | @sent call other found listener sent hfound hstage hlistener hopen hcapacity hsend =>
      by_cases heq : channel = other
      · subst heq
        have hanswered : answered channel state (.send call) = [found.response] := by
          rw [answered_send hfound, if_pos ⟨hstage, listener, hlistener, hopen⟩]
        have hdelivered : delivered channel state (.send call) = [] := by
          apply if_neg
          rintro ⟨other, hother, hzero⟩
          obtain rfl := Option.some.inj (hlistener.symm.trans hother)
          exact hcapacity hzero
        rw [hanswered, hdelivered, listeners_setCall, buffered, buffered, hlistener, setListener_self,
          Option.elim_some, Option.elim_some, Channel.buffer_send hsend, List.nil_append]
      · have hnone := answered_of_ne hfound hstage heq
        apply balance_quiet hnone (delivered_send_of_nil hnone)
        rw [listeners_setCall, buffered, setListener_of_ne state heq, buffered]
  | closed hfound hstage hlistener =>
      exact balance_quiet rfl rfl (buffered_setListener hlistener rfl)
  | @received other listener response rest hlistener hreceive =>
      obtain ⟨hbuffer, -⟩ := Channel.receive_cases hreceive
      by_cases heq : other = channel
      · subst heq
        have hdelivered : delivered other state (.receive other) = [response] := by
          rw [delivered, if_pos rfl, hlistener, Option.elim_some, hbuffer, List.take_succ_cons, List.take_zero]
        have hanswered : answered other state (.receive other) = [] := rfl
        rw [hdelivered, hanswered, buffered, buffered, hlistener, setListener_self, Option.elim_some, Option.elim_some,
          hbuffer, List.append_nil]
        rfl
      · apply balance_quiet rfl (delivered_of_ne heq)
        rw [buffered, setListener_of_ne state (Ne.symm heq), buffered]
  | cancelled hlistener => exact balance_quiet rfl rfl (buffered_setListener hlistener rfl)
  | left hlistener => exact balance_quiet rfl rfl (buffered_setListener hlistener rfl)
  | cleanedUp hlistener => exact balance_quiet rfl rfl (buffered_setListener hlistener rfl)

end Balance

/-! ### Calls and listeners from step to step -/

def Stage.Underway (stage : Stage) : Prop :=
  (∀ clusterID, stage ≠ .verify clusterID) ∧ ∀ result, stage ≠ .returned result

/-- What a step makes of a call. -/
structure Advances (version : String) (clusters : List Cluster) (state : ReplyState) (label : Label) (call : Nat)
    (found found' : Call) : Prop where
  same : found' = { found with stage := found'.stage }
  holds : ∀ channel, found'.Holds channel →
    found.Holds channel ∨ state.requests found.kind found.requestID = some channel
  passed : (∃ err, found'.stage = .returned (.error err)) ∨ found.stage.Underway ∨
    ∃ fails clusterID cluster, label = .verify call fails ∧ found.stage = .verify clusterID ∧
      verifyCluster version fails clusters clusterID = .ok cluster

section Calls

variable {call other channel : Nat} {found found' : Call} {listener : Listener} {kind : Kind} {requestID : String}

theorem underway_send : (Stage.send channel).Underway := ⟨nofun, nofun⟩

theorem underway_close : (Stage.close channel).Underway := ⟨nofun, nofun⟩

/-- A step that moves one call on. -/
theorem exists_advances_of_setCall {mid : ReplyState} (hcalls : mid.calls = state.calls)
    (hfound : state.calls other = some found) {changed : Call}
    (hchanged : (setCall mid other found').calls call = some changed)
    (hadvances : Advances version clusters state label other found found') :
    state.calls call = some changed ∨
      ∃ before, state.calls call = some before ∧ Advances version clusters state label call before changed := by
  by_cases heq : call = other
  · subst heq
    obtain rfl := Option.some.inj ((setCall_self ..).symm.trans hchanged)
    exact .inr ⟨found, hfound, hadvances⟩
  · rw [setCall_of_ne mid heq, hcalls] at hchanged
    exact .inl hchanged

theorem call_of_setCall {mid : ReplyState} (hcalls : mid.calls = state.calls) {started : Call}
    (hstarts : startedBy label = some (other, started))
    (hfound : (setCall mid other started).calls call = some found) :
    startedBy label = some (call, found) ∨ state.calls call = some found := by
  by_cases heq : call = other
  · subst heq
    obtain rfl := Option.some.inj ((setCall_self ..).symm.trans hfound)
    exact .inl hstarts
  · rw [setCall_of_ne mid heq, hcalls] at hfound
    exact .inr hfound

/-- A call has just begun, stands where it stood, or has moved on. -/
theorem call_step (h : step version clusters state label = some state') (hfound' : state'.calls call = some found') :
    startedBy label = some (call, found') ∨ state.calls call = some found' ∨
      ∃ found, state.calls call = some found ∧ Advances version clusters state label call found found' := by
  cases moved_of_step h with
  | subscribed hstarts => exact (call_of_setCall rfl hstarts hfound').imp_right .inl
  | started hstarts => exact (call_of_setCall rfl hstarts hfound').imp_right .inl
  | verifyFailed hfound =>
      refine .inr (exists_advances_of_setCall rfl hfound hfound' ⟨rfl, fun channel hholds => ?_, .inl ⟨_, rfl⟩⟩)
      exact absurd hholds holds_returned
  | verified hfound hstage hverify =>
      refine .inr (exists_advances_of_setCall rfl hfound hfound'
        ⟨rfl, fun channel hholds => ?_, .inr (.inr ⟨_, _, _, rfl, hstage, hverify⟩)⟩)
      rcases hholds with hholds | hholds <;> cases hholds
  | foundCluster hfound hstage hnext =>
      refine .inr (exists_advances_of_setCall rfl hfound hfound'
        ⟨rfl, fun channel hholds => ?_, .inr (.inl (hstage ▸ ⟨nofun, nofun⟩))⟩)
      rcases hnext with rfl | rfl <;> rcases hholds with hholds | hholds <;> cases hholds
  | missing hfound hstage =>
      refine .inr (exists_advances_of_setCall rfl hfound hfound'
        ⟨rfl, fun channel hholds => ?_, .inr (.inl (hstage ▸ ⟨nofun, nofun⟩))⟩)
      exact absurd hholds holds_returned
  | foundRequest hfound hstage hentry =>
      refine .inr (exists_advances_of_setCall rfl hfound hfound'
        ⟨rfl, fun channel hholds => .inr ?_, .inr (.inl (hstage ▸ ⟨nofun, nofun⟩))⟩)
      rcases hholds with hholds | hholds <;> cases hholds
      exact hentry
  | sentClosed hfound hstage =>
      refine .inr (exists_advances_of_setCall rfl hfound hfound' ⟨rfl, fun channel hholds => ?_, .inl ⟨_, rfl⟩⟩)
      exact absurd hholds holds_returned
  | handed hfound hstage =>
      refine .inr (exists_advances_of_setCall rfl hfound hfound'
        ⟨rfl, fun channel hholds => .inl ?_, .inr (.inl (hstage ▸ underway_send))⟩)
      rcases hholds with hholds | hholds <;> cases hholds
      exact .inl hstage
  | sent hfound hstage =>
      refine .inr (exists_advances_of_setCall rfl hfound hfound'
        ⟨rfl, fun channel hholds => .inl ?_, .inr (.inl (hstage ▸ underway_send))⟩)
      rcases hholds with hholds | hholds <;> cases hholds
      exact .inl hstage
  | closedTwice hfound hstage =>
      refine .inr (exists_advances_of_setCall rfl hfound hfound' ⟨rfl, fun channel hholds => ?_, .inl ⟨_, rfl⟩⟩)
      exact absurd hholds holds_returned
  | closed hfound hstage =>
      refine .inr (exists_advances_of_setCall rfl hfound hfound'
        ⟨rfl, fun channel hholds => ?_, .inr (.inl (hstage ▸ underway_close))⟩)
      exact absurd hholds holds_returned
  | received => exact .inr (.inl hfound')
  | cancelled => exact .inr (.inl hfound')
  | left => exact .inr (.inl hfound')
  | cleanedUp => exact .inr (.inl hfound')

/-- The listener behind a channel waits for this request. -/
def WaitsFor (state : ReplyState) (channel : Nat) (kind : Kind) (requestID : String) : Prop :=
  ∃ listener, state.listeners channel = some listener ∧ listener.kind = kind ∧ listener.requestID = requestID

theorem waitsFor_setListener {listener' : Listener} (hlistener : state.listeners other = some listener)
    (hkind : listener'.kind = listener.kind) (hrequestID : listener'.requestID = listener.requestID)
    (h : WaitsFor state channel kind requestID) :
    WaitsFor (setListener state other listener') channel kind requestID := by
  obtain ⟨waiting, hwaiting, rfl, rfl⟩ := h
  by_cases heq : channel = other
  · subst heq
    obtain rfl := Option.some.inj (hlistener.symm.trans hwaiting)
    exact ⟨listener', setListener_self .., hkind, hrequestID⟩
  · exact ⟨waiting, (setListener_of_ne state heq listener').trans hwaiting, rfl, rfl⟩

theorem waitsFor_step (h : step version clusters state label = some state')
    (hwaits : WaitsFor state channel kind requestID) : WaitsFor state' channel kind requestID := by
  cases moved_of_step h with
  | @subscribed _ other call capacity started hstarts hnew =>
      obtain ⟨waiting, hwaiting, hkind, hrequestID⟩ := hwaits
      have hne : channel ≠ other := by
        rintro rfl
        rw [hnew] at hwaiting
        cases hwaiting
      exact ⟨waiting, (setListener_of_ne state hne _).trans hwaiting, hkind, hrequestID⟩
  | sent _ _ hlistener => exact waitsFor_setListener hlistener rfl rfl hwaits
  | closed _ _ hlistener => exact waitsFor_setListener hlistener rfl rfl hwaits
  | received hlistener => exact waitsFor_setListener hlistener rfl rfl hwaits
  | cancelled hlistener => exact waitsFor_setListener hlistener rfl rfl hwaits
  | left hlistener => exact waitsFor_setListener hlistener rfl rfl hwaits
  | cleanedUp hlistener => exact waitsFor_setListener hlistener rfl rfl hwaits
  | _ => exact hwaits

theorem setRequest_cases (state : ReplyState) {entry : Option Nat} {kind' : Kind} {requestID' : String}
    (h : (setRequest state kind requestID entry).requests kind' requestID' = some channel) :
    (kind' = kind ∧ requestID' = requestID ∧ entry = some channel) ∨
      state.requests kind' requestID' = some channel := by
  by_cases hkind : kind' = kind
  · subst hkind
    by_cases hrequestID : requestID' = requestID
    · subst hrequestID
      simp only [setRequest, Function.update_self] at h
      exact .inl ⟨rfl, rfl, h⟩
    · simp only [setRequest, Function.update_self, Function.update_of_ne hrequestID] at h
      exact .inr h
  · simp only [setRequest, Function.update_of_ne hkind] at h
    exact .inr h

/-- An entry of the map is an old one, or the listener has just come. -/
theorem request_step (h : step version clusters state label = some state')
    (hentry : state'.requests kind requestID = some channel) :
    state.requests kind requestID = some channel ∨ WaitsFor state' channel kind requestID := by
  cases moved_of_step h with
  | @subscribed _ other call capacity started hstarts hnew =>
      rcases setRequest_cases (setListener state other _) hentry with ⟨rfl, rfl, hsame⟩ | hold
      · obtain rfl := Option.some.inj hsame
        exact .inr ⟨_, setListener_self .., rfl, rfl⟩
      · exact .inl hold
  | @cleanedUp other listener hlistener =>
      rcases setRequest_cases (setListener state other _) hentry with ⟨-, -, hnone⟩ | hold
      · cases hnone
      · exact .inl hold
  | _ => exact .inl hentry

end Calls

end Step

/-! ### Runs -/

section Run

variable {version : String} {clusters : List Cluster} {labels front : List Label} {state : ReplyState} {label : Label}
  {call channel : Nat} {found started : Call}

/-- A call that begins with `VerifyCluster` has passed it. -/
def LetIn (version : String) (clusters : List Cluster) (labels : List Label) (call : Nat) (started : Call) : Prop :=
  ∀ clusterID, started.stage = .verify clusterID → ∃ fails cluster, .verify call fails ∈ labels ∧
    verifyCluster version fails clusters clusterID = .ok cluster

def StartedAs (version : String) (clusters : List Cluster) (labels : List Label) (call : Nat) (found : Call) : Prop :=
  ∃ label ∈ labels, ∃ started, startedBy label = some (call, started) ∧ found = { started with stage := found.stage } ∧
    (found.stage = started.stage ∨ (∃ err, found.stage = .returned (.error err)) ∨
      LetIn version clusters labels call started)

theorem LetIn.append (h : LetIn version clusters labels call started) :
    LetIn version clusters (labels ++ [label]) call started := by
  intro clusterID hstage
  obtain ⟨fails, cluster, hmem, hverify⟩ := h clusterID hstage
  exact ⟨fails, cluster, List.mem_append_left _ hmem, hverify⟩

theorem StartedAs.append (h : StartedAs version clusters labels call found) :
    StartedAs version clusters (labels ++ [label]) call found := by
  obtain ⟨first, hmem, started, hstarts, hsame, hstage⟩ := h
  exact ⟨first, List.mem_append_left _ hmem, started, hstarts, hsame, hstage.imp_right (.imp_right LetIn.append)⟩

theorem StartedAs.advance {found' : Call} (h : StartedAs version clusters labels call found)
    (hadvances : Advances version clusters state label call found found') :
    StartedAs version clusters (labels ++ [label]) call found' := by
  obtain ⟨first, hmem, started, hstarts, hsame, hstage⟩ := h
  have hsame' : found' = { started with stage := found'.stage } := by
    rw [hadvances.same, hsame]
  refine ⟨first, List.mem_append_left _ hmem, started, hstarts, hsame', .inr ?_⟩
  rcases hadvances.passed with herror | ⟨hverify, hreturned⟩ | ⟨fails, clusterID, cluster, rfl, hverify, hpassed⟩
  · exact .inl herror
  · rcases hstage with hstage | ⟨err, herr⟩ | hletIn
    · exact .inr fun clusterID h => absurd (hstage.trans h) (hverify clusterID)
    · exact absurd herr (hreturned _)
    · exact .inr hletIn.append
  · refine .inr fun otherID hother => ?_
    rcases hstage with hstage | ⟨err, herr⟩ | hletIn
    · obtain rfl := Stage.verify.inj (hverify.symm.trans (hstage.trans hother))
      exact ⟨fails, cluster, List.mem_append_right _ (List.mem_singleton_self _), hpassed⟩
    · rw [hverify] at herr
      cases herr
    · exact hletIn.append otherID hother

/-- Who waits for what, and where the calls come from. -/
structure Routed (version : String) (clusters : List Cluster) (labels : List Label) (state : ReplyState) : Prop where
  requests : ∀ kind requestID channel, state.requests kind requestID = some channel →
    WaitsFor state channel kind requestID
  holds : ∀ call found channel, state.calls call = some found → found.Holds channel →
    WaitsFor state channel found.kind found.requestID
  origin : ∀ call found, state.calls call = some found → StartedAs version clusters labels call found

theorem not_holds_of_startedBy (h : startedBy label = some (call, started)) : ¬ started.Holds channel := by
  cases label with
  | getPodLog | getKubeObject | podLog | kubeObj => cases h; rintro (h | h) <;> cases h
  | _ => cases h

theorem Routed.step {state' : ReplyState} (h : Routed version clusters front state)
    (hstep : step version clusters state label = some state') : Routed version clusters (front ++ [label]) state' where
  requests kind requestID channel hentry := by
    rcases request_step hstep hentry with hold | hnew
    · exact waitsFor_step hstep (h.requests kind requestID channel hold)
    · exact hnew
  holds call found channel hfound hholds := by
    rcases call_step hstep hfound with hstarts | hold | ⟨before, hbefore, hadvances⟩
    · exact absurd hholds (not_holds_of_startedBy hstarts)
    · exact waitsFor_step hstep (h.holds call found channel hold hholds)
    · rw [hadvances.same]
      rcases hadvances.holds channel hholds with hheld | hentry
      · exact waitsFor_step hstep (h.holds call before channel hbefore hheld)
      · exact waitsFor_step hstep (h.requests _ _ channel hentry)
  origin call found hfound := by
    rcases call_step hstep hfound with hstarts | hold | ⟨before, hbefore, hadvances⟩
    · exact ⟨label, List.mem_append_right _ (List.mem_singleton_self _), found, hstarts, rfl, .inl rfl⟩
    · exact (h.origin call found hold).append
    · exact (h.origin call before hbefore).advance hadvances

theorem routed_run (hrun : run (step version clusters) emptyState labels = some state) :
    Routed version clusters labels state := by
  have hempty : Routed version clusters [] emptyState := {
    requests := fun kind requestID channel hentry => by cases hentry
    holds := fun call found channel hfound => by cases hfound
    origin := fun call found hfound => by cases hfound }
  exact run_history hempty (fun _ _ _ _ h hstep => h.step hstep) hrun

/-- A listener gets the answers in the order of their sends, none lost and none twice; they answer its own request, and
the agent behind an answer was let in by `VerifyCluster` before. -/
theorem replies_routed (hrun : run (step version clusters) emptyState labels = some state) {listener : Listener}
    (hlistener : state.listeners channel = some listener) :
    observed (step version clusters) (answered channel) emptyState labels =
        observed (step version clusters) (delivered channel) emptyState labels ++ listener.channel.buffer ∧
      ∀ response ∈ observed (step version clusters) (answered channel) emptyState labels,
        ∃ before call after label started, labels = before ++ .send call :: after ∧ label ∈ before ∧
          startedBy label = some (call, started) ∧ started.kind = listener.kind ∧
          started.requestID = listener.requestID ∧ started.response = response ∧
          LetIn version clusters before call started := by
  constructor
  · have hstep : ∀ s label s', True → step version clusters s label = some s' →
        buffered s.listeners channel ++ answered channel s label =
          delivered channel s label ++ buffered s'.listeners channel := fun _ _ _ _ h => balance_step h
    have hbalance := observed_balance (fun _ _ _ _ _ => trivial) hstep trivial hrun
    have hbuffer : buffered state.listeners channel = listener.channel.buffer := by
      rw [buffered, hlistener, Option.elim_some]
    rw [← hbuffer]
    exact hbalance
  · intro response hresponse
    obtain ⟨front, label, back, mid, next, rfl, hfront, -, hnext, hback, hmem⟩ :=
      exists_of_mem_observed (fun _ _ _ _ _ => trivial) trivial hrun hresponse
    obtain ⟨call, rfl⟩ : ∃ call, label = .send call := by
      cases label with
      | send call => exact ⟨call, rfl⟩
      | _ => cases hmem
    cases hfound : mid.calls call with
    | none =>
        rw [answered, hfound] at hmem
        cases hmem
    | some found =>
        rw [answered_send hfound] at hmem
        split at hmem
        · rename_i hsends
          have hrouted := routed_run hfront
          have hwaits := hrouted.holds call found channel hfound (.inl hsends.1)
          have hrest : run (step version clusters) mid (.send call :: back) = some state := by
            rw [run_cons, hnext]
            exact hback
          obtain ⟨last, hlast, hkind, hrequestID⟩ :=
            run_invariant_of_step (fun _ _ _ h hstep => waitsFor_step hstep h) hwaits hrest
          obtain rfl := Option.some.inj (hlistener.symm.trans hlast)
          obtain ⟨first, hfirst, started, hstarts, hsame, hstage⟩ := hrouted.origin call found hfound
          have hletIn : LetIn version clusters front call started := by
            rcases hstage with hstage | ⟨err, herr⟩ | hletIn
            · exact absurd (.inl (hstage.symm.trans hsends.1)) (not_holds_of_startedBy hstarts)
            · rw [hsends.1] at herr
              cases herr
            · exact hletIn
          rw [hsame] at hkind hrequestID
          refine ⟨front, call, back, first, started, rfl, hfirst, hstarts, hkind.symm, hrequestID.symm, ?_, hletIn⟩
          rw [List.mem_singleton.mp hmem, hsame]
        · cases hmem

def answeredOnce : List Label := sampleSubscription :: .findCluster 0 true :: sampleReply 1 ++ [.receive 0]

theorem replies_routed_answeredOnce :
    ∃ state listener, run (step "2.6.0" [sampleCluster]) emptyState answeredOnce = some state ∧
      state.listeners 0 = some listener ∧
      observed (step "2.6.0" [sampleCluster]) (answered 0) emptyState answeredOnce =
        observed (step "2.6.0" [sampleCluster]) (delivered 0) emptyState answeredOnce ++ listener.channel.buffer ∧
      ∀ response ∈ observed (step "2.6.0" [sampleCluster]) (answered 0) emptyState answeredOnce,
        ∃ before call after label started, answeredOnce = before ++ .send call :: after ∧ label ∈ before ∧
          startedBy label = some (call, started) ∧ started.kind = listener.kind ∧
          started.requestID = listener.requestID ∧ started.response = response ∧
          LetIn "2.6.0" [sampleCluster] before call started := by
  have hsome : (run (step "2.6.0" [sampleCluster]) emptyState answeredOnce).isSome = true := by decide
  obtain ⟨state, hrun⟩ := Option.isSome_iff_exists.mp hsome
  obtain ⟨listener, hlistener⟩ : ∃ listener, state.listeners 0 = some listener := by
    obtain rfl := Option.some.inj hrun
    exact ⟨_, rfl⟩
  exact ⟨state, listener, hrun, hlistener, replies_routed hrun hlistener⟩

end Run

end LitmusPortal.Replies
