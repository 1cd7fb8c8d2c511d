import LitmusPortal.Cluster.Store
import LitmusPortal.Lib.Channel
import LitmusPortal.Lib.Transition
import Mathlib.Logic.Function.Basic

/-!
# Connections of agents

The subscription `ClusterConnect`, the goroutine that cleans up after it, and
`SendRequestToSubscriber`, as steps of concurrent parties. A critical section without a send in it is
one step, which wants the mutex of the store to be free. The cluster events in between are such a
step; where they go is the matter of `Subscriptions`.

The reader of a channel belongs to the GraphQL server: it reads once the resolver has returned the
channel without an error, and leaves some time after the context is cancelled.
-/

namespace LitmusPortal.Connections

structure SubscriberRequests where
  requestType : String
  k8sManifest : String
  externalData : Option String
  projectID : String
  clusterID : String
  namespaceName : String
  username : Option String
  deriving DecidableEq, Repr

structure ActionPayload where
  k8sManifest : String
  namespaceName : String
  requestType : String
  externalData : Option String
  username : Option String
  deriving DecidableEq, Repr

structure ClusterActionResponse where
  projectID : String
  action : ActionPayload
  deriving DecidableEq, Repr

/-- The next step of the resolver `ClusterConnect`. -/
inductive Resolver where
  | verify
  | enter
  | activate
  | announce
  | connected
  | failed (err : GoError)
  deriving DecidableEq, Repr

/-- The next step of the goroutine of `ClusterConnect`. -/
inductive CleanUp where
  | unspawned
  | waitDone
  | announce
  | remove
  | deactivate
  | done
  deriving DecidableEq, Repr

inductive Reader where
  | notYet
  | reading
  | gone
  deriving DecidableEq, Repr

structure Session where
  clusterInfo : ClusterIdentity
  channel : Channel ClusterActionResponse
  resolver : Resolver
  cleanUp : CleanUp
  cancelled : Bool
  reader : Reader

structure ServerState where
  clusters : List Cluster
  sessions : Nat → Option Session
  connectedCluster : String → Option Nat
  /-- The call of `SendRequestToSubscriber` that holds the mutex, by the channel it sends to. -/
  sending : Option (Nat × ClusterActionResponse)

inductive Label where
  | clusterConnect (session : Nat) (clusterInfo : ClusterIdentity)
  | verify (session : Nat) (fails : Bool)
  | enter (session : Nat)
  | activate (session : Nat) (now : Int) (fails : Bool)
  | announce (session : Nat)
  | cancel (session : Nat)
  | wake (session : Nat)
  | announceOffline (session : Nat)
  | remove (session : Nat)
  | deactivate (session : Nat) (now : Int) (fails : Bool)
  | receive (session : Nat)
  | leave (session : Nat)
  | sendRequestToSubscriber (request : SubscriberRequests)
  | send
  deriving DecidableEq, Repr

/-- A server that has just started: nothing is connected. -/
def startState (clusters : List Cluster) : ServerState := ⟨clusters, fun _ => none, fun _ => none, none⟩

def newSession (clusterInfo : ClusterIdentity) : Session where
  clusterInfo := clusterInfo
  channel := Channel.make 1
  resolver := .verify
  cleanUp := .unspawned
  cancelled := false
  reader := .notYet

def setSession (state : ServerState) (session : Nat) (found : Session) : ServerState :=
  { state with sessions := Function.update state.sessions session (some found) }

/-- The resolver returns an error, so nobody will read the channel. -/
def Session.fail (found : Session) (err : GoError) : Session :=
  { found with resolver := .failed err, reader := .gone }

def stepVerify (version : String) (fails : Bool) (clusters : List Cluster) (found : Session) :
    Option Session :=
  match found.resolver with
  | .verify =>
      match verifyCluster version fails clusters found.clusterInfo with
      | .error err => some (found.fail err)
      | .ok _ => some { found with resolver := .enter }
  | _ => none

/-- The entry is checked and made in one critical section, and the goroutine is spawned. -/
def stepEnter (session : Nat) (found : Session) (state : ServerState) : Option ServerState :=
  match found.resolver, state.sending with
  | .enter, none =>
      match state.connectedCluster found.clusterInfo.clusterID with
      | some _ => some (setSession state session (found.fail (.failed "CLUSTER ALREADY CONNECTED")))
      | none => some { setSession state session
            { found with resolver := .activate, cleanUp := .waitDone } with
          connectedCluster := Function.update state.connectedCluster found.clusterInfo.clusterID
            (some session) }
  | _, _ => none

def setActive (version : String) (now : Int) (cluster : Cluster) : Cluster :=
  { cluster with isActive := true, updatedAt := formatTime now, version := version }

def setInactive (now : Int) (cluster : Cluster) : Cluster :=
  { cluster with isActive := false, updatedAt := formatTime now }

def stepActivate (now : Int) (fails : Bool) (session : Nat) (found : Session)
    (state : ServerState) : Option ServerState :=
  match found.resolver with
  | .activate =>
      match updateCluster fails state.clusters (ofCluster found.clusterInfo.clusterID)
          (setActive found.clusterInfo.version now) with
      | (.error err, clusters) =>
          some { setSession state session (found.fail err) with clusters := clusters }
      | (.ok _, clusters) =>
          some { setSession state session { found with resolver := .announce } with
            clusters := clusters }
  | _ => none

def stepRemove (session : Nat) (found : Session) (state : ServerState) : Option ServerState :=
  match found.cleanUp, state.sending with
  | .remove, none => some { setSession state session { found with cleanUp := .deactivate } with
      connectedCluster := Function.update state.connectedCluster found.clusterInfo.clusterID none }
  | _, _ => none

/-- An error of the update is only logged. -/
def stepDeactivate (now : Int) (fails : Bool) (session : Nat) (found : Session)
    (state : ServerState) : Option ServerState :=
  match found.cleanUp with
  | .deactivate => some { setSession state session { found with cleanUp := .done } with
      clusters := (updateCluster fails state.clusters (ofCluster found.clusterInfo.clusterID)
        (setInactive now)).2 }
  | _ => none

/-- What only changes the session; `free` says that nobody holds the mutex. -/
def stepSession (version : String) (clusters : List Cluster) (free : Bool) (found : Session) :
    Label → Option Session
  | .verify _ fails => stepVerify version fails clusters found
  | .announce _ =>
      if found.resolver = .announce ∧ free = true then
        some { found with resolver := .connected, reader := .reading }
      else none
  | .cancel _ => if found.cancelled then none else some { found with cancelled := true }
  | .wake _ =>
      if found.cleanUp = .waitDone ∧ found.cancelled = true then
        some { found with cleanUp := .announce }
      else none
  | .announceOffline _ =>
      if found.cleanUp = .announce ∧ free = true then some { found with cleanUp := .remove } else none
  | .receive _ =>
      if found.reader = .reading then
        found.channel.receive.map fun (_, channel) => { found with channel := channel }
      else none
  | .leave _ =>
      if found.reader = .reading ∧ found.cancelled = true then some { found with reader := .gone }
      else none
  | _ => none

/-- The message for the agent. -/
def actionOf (request : SubscriberRequests) : ClusterActionResponse where
  projectID := request.projectID
  action := {
    k8sManifest := request.k8sManifest
    namespaceName := request.namespaceName
    requestType := request.requestType
    externalData := request.externalData
    username := request.username }

/-- The mutex is taken and the channel looked up; without one the mutex is free again at once. -/
def sendRequestToSubscriber (request : SubscriberRequests) (state : ServerState) :
    Option ServerState :=
  match state.sending with
  | some _ => none
  | none =>
      match state.connectedCluster request.clusterID with
      | none => some state
      | some session => some { state with sending := some (session, actionOf request) }

/-- `observer <- newAction`, and the mutex is free. -/
def sendAction (state : ServerState) : Option ServerState := do
  let (session, action) ← state.sending
  let found ← state.sessions session
  let channel ← found.channel.send action
  some { setSession state session { found with channel := channel } with sending := none }

def step (version : String) (state : ServerState) (label : Label) : Option ServerState :=
  match label with
  | .clusterConnect session clusterInfo =>
      match state.sessions session with
      | some _ => none
      | none => some (setSession state session (newSession clusterInfo))
  | .enter session => (state.sessions session).bind fun found => stepEnter session found state
  | .activate session now fails =>
      (state.sessions session).bind fun found => stepActivate now fails session found state
  | .remove session => (state.sessions session).bind fun found => stepRemove session found state
  | .deactivate session now fails =>
      (state.sessions session).bind fun found => stepDeactivate now fails session found state
  | .sendRequestToSubscriber request => sendRequestToSubscriber request state
  | .send => sendAction state
  | .verify session _ | .announce session | .cancel session | .wake session
  | .announceOffline session | .receive session | .leave session =>
      (state.sessions session).bind fun found =>
        (stepSession version state.clusters state.sending.isNone found label).map
          (setSession state session)

/-! ### What a step does -/

/-- The steps, one constructor for each branch that is taken. -/
inductive Move (version : String) (state : ServerState) : Label → ServerState → Prop
  | clusterConnect {session : Nat} {clusterInfo : ClusterIdentity}
      (hnew : state.sessions session = none) :
      Move version state (.clusterConnect session clusterInfo)
        (setSession state session (newSession clusterInfo))
  | verifyFailed {session : Nat} {fails : Bool} {found : Session} {err : GoError}
      (hfound : state.sessions session = some found) (hnext : found.resolver = .verify) :
      Move version state (.verify session fails) (setSession state session (found.fail err))
  | verified {session : Nat} {fails : Bool} {found : Session} {cluster : Cluster}
      (hfound : state.sessions session = some found) (hnext : found.resolver = .verify)
      (hverify : verifyCluster version fails state.clusters found.clusterInfo = .ok cluster) :
      Move version state (.verify session fails)
        (setSession state session { found with resolver := .enter })
  | refused {session other : Nat} {found : Session}
      (hfound : state.sessions session = some found) (hnext : found.resolver = .enter)
      (hentry : state.connectedCluster found.clusterInfo.clusterID = some other) :
      Move version state (.enter session)
        (setSession state session (found.fail (.failed "CLUSTER ALREADY CONNECTED")))
  | entered {session : Nat} {found : Session}
      (hfound : state.sessions session = some found) (hnext : found.resolver = .enter)
      (hfree : state.sending = none)
      (hentry : state.connectedCluster found.clusterInfo.clusterID = none) :
      Move version state (.enter session)
        { setSession state session { found with resolver := .activate, cleanUp := .waitDone } with
          connectedCluster := Function.update state.connectedCluster found.clusterInfo.clusterID
            (some session) }
  | activateFailed {session : Nat} {now : Int} {found : Session}
      (hfound : state.sessions session = some found) (hnext : found.resolver = .activate) :
      Move version state (.activate session now true)
        (setSession state session (found.fail databaseError))
  | activated {session : Nat} {now : Int} {found : Session}
      (hfound : state.sessions session = some found) (hnext : found.resolver = .activate) :
      Move version state (.activate session now false)
        { setSession state session { found with resolver := .announce } with
          clusters := DocumentStore.updateFirst (ofCluster found.clusterInfo.clusterID)
            (setActive found.clusterInfo.version now) state.clusters }
  | announced {session : Nat} {found : Session}
      (hfound : state.sessions session = some found) (hnext : found.resolver = .announce) :
      Move version state (.announce session)
        (setSession state session { found with resolver := .connected, reader := .reading })
  | cancelled {session : Nat} {found : Session}
      (hfound : state.sessions session = some found) :
      Move version state (.cancel session)
        (setSession state session { found with cancelled := true })
  | woken {session : Nat} {found : Session}
      (hfound : state.sessions session = some found) (hnext : found.cleanUp = .waitDone)
      (hcancelled : found.cancelled = true) :
      Move version state (.wake session)
        (setSession state session { found with cleanUp := .announce })
  | announcedOffline {session : Nat} {found : Session}
      (hfound : state.sessions session = some found) (hnext : found.cleanUp = .announce)
      (hfree : state.sending = none) :
      Move version state (.announceOffline session)
        (setSession state session { found with cleanUp := .remove })
  | removed {session : Nat} {found : Session}
      (hfound : state.sessions session = some found) (hnext : found.cleanUp = .remove)
      (hfree : state.sending = none) :
      Move version state (.remove session)
        { setSession state session { found with cleanUp := .deactivate } with
          connectedCluster := Function.update state.connectedCluster found.clusterInfo.clusterID
            none }
  | deactivated {session : Nat} {now : Int} {fails : Bool} {found : Session}
      (hfound : state.sessions session = some found) (hnext : found.cleanUp = .deactivate) :
      Move version state (.deactivate session now fails)
        { setSession state session { found with cleanUp := .done } with
          clusters := (updateCluster fails state.clusters
            (ofCluster found.clusterInfo.clusterID) (setInactive now)).2 }
  | received {session : Nat} {found : Session} {action : ClusterActionResponse}
      {channel : Channel ClusterActionResponse}
      (hfound : state.sessions session = some found) (hreading : found.reader = .reading)
      (hreceive : found.channel.receive = some (action, channel)) :
      Move version state (.receive session)
        (setSession state session { found with channel := channel })
  | left {session : Nat} {found : Session}
      (hfound : state.sessions session = some found) (hreading : found.reader = .reading)
      (hcancelled : found.cancelled = true) :
      Move version state (.leave session) (setSession state session { found with reader := .gone })
  | notConnected {request : SubscriberRequests} (hfree : state.sending = none)
      (hentry : state.connectedCluster request.clusterID = none) :
      Move version state (.sendRequestToSubscriber request) state
  | held {request : SubscriberRequests} {session : Nat} (hfree : state.sending = none)
      (hentry : state.connectedCluster request.clusterID = some session) :
      Move version state (.sendRequestToSubscriber request)
        { state with sending := some (session, actionOf request) }
  | sent {session : Nat} {action : ClusterActionResponse} {found : Session}
      {channel : Channel ClusterActionResponse}
      (hsending : state.sending = some (session, action))
      (hfound : state.sessions session = some found)
      (hsend : found.channel.send action = some channel) :
      Move version state .send
        { setSession state session { found with channel := channel } with sending := none }

theorem move_of_step {version : String} {state state' : ServerState} {label : Label}
    (h : step version state label = some state') : Move version state label state' := by
  cases label with
  | clusterConnect session clusterInfo =>
      simp only [step] at h
      split at h
      · cases h
      · cases h
        exact .clusterConnect ‹_›
  | verify session fails =>
      obtain ⟨found, hfound, hstep⟩ := Option.bind_eq_some_iff.mp h
      obtain ⟨found', hsession, rfl⟩ := Option.map_eq_some_iff.mp hstep
      simp only [stepSession, stepVerify] at hsession
      split at hsession
      · split at hsession <;> cases hsession
        · exact .verifyFailed hfound ‹_›
        · exact .verified hfound ‹_› ‹_›
      · cases hsession
  | enter session =>
      obtain ⟨found, hfound, hstep⟩ := Option.bind_eq_some_iff.mp h
      unfold stepEnter at hstep
      split at hstep
      · split at hstep <;> cases hstep
        · exact .refused hfound ‹_› ‹_›
        · exact .entered hfound ‹_› ‹_› ‹_›
      · cases hstep
  | activate session now fails =>
      obtain ⟨found, hfound, hstep⟩ := Option.bind_eq_some_iff.mp h
      unfold stepActivate at hstep
      split at hstep
      · cases fails with
        | true =>
            cases hstep
            exact .activateFailed hfound ‹_›
        | false =>
            cases hstep
            exact .activated hfound ‹_›
      · cases hstep
  | announce session =>
      obtain ⟨found, hfound, hstep⟩ := Option.bind_eq_some_iff.mp h
      obtain ⟨found', hsession, rfl⟩ := Option.map_eq_some_iff.mp hstep
      simp only [stepSession] at hsession
      split at hsession
      · rename_i hnext
        cases hsession
        exact .announced hfound hnext.1
      · cases hsession
  | cancel session =>
      obtain ⟨found, hfound, hstep⟩ := Option.bind_eq_some_iff.mp h
      obtain ⟨found', hsession, rfl⟩ := Option.map_eq_some_iff.mp hstep
      simp only [stepSession] at hsession
      split at hsession <;> cases hsession
      exact .cancelled hfound
  | wake session =>
      obtain ⟨found, hfound, hstep⟩ := Option.bind_eq_some_iff.mp h
      obtain ⟨found', hsession, rfl⟩ := Option.map_eq_some_iff.mp hstep
      simp only [stepSession] at hsession
      split at hsession
      · rename_i hnext
        cases hsession
        exact .woken hfound hnext.1 hnext.2
      · cases hsession
  | announceOffline session =>
      obtain ⟨found, hfound, hstep⟩ := Option.bind_eq_some_iff.mp h
      obtain ⟨found', hsession, rfl⟩ := Option.map_eq_some_iff.mp hstep
      simp only [stepSession] at hsession
      split at hsession
      · rename_i hnext
        cases hsession
        exact .announcedOffline hfound hnext.1 (Option.isNone_iff_eq_none.mp hnext.2)
      · cases hsession
  | remove session =>
      obtain ⟨found, hfound, hstep⟩ := Option.bind_eq_some_iff.mp h
      unfold stepRemove at hstep
      split at hstep <;> cases hstep
      exact .removed hfound ‹_› ‹_›
  | deactivate session now fails =>
      obtain ⟨found, hfound, hstep⟩ := Option.bind_eq_some_iff.mp h
      unfold stepDeactivate at hstep
      split at hstep <;> cases hstep
      exact .deactivated hfound ‹_›
  | receive session =>
      obtain ⟨found, hfound, hstep⟩ := Option.bind_eq_some_iff.mp h
      obtain ⟨found', hsession, rfl⟩ := Option.map_eq_some_iff.mp hstep
      simp only [stepSession] at hsession
      split at hsession
      · obtain ⟨⟨action, channel⟩, hreceive, rfl⟩ := Option.map_eq_some_iff.mp hsession
        exact .received hfound ‹_› hreceive
      · cases hsession
  | leave session =>
      obtain ⟨found, hfound, hstep⟩ := Option.bind_eq_some_iff.mp h
      obtain ⟨found', hsession, rfl⟩ := Option.map_eq_some_iff.mp hstep
      simp only [stepSession] at hsession
      split at hsession
      · rename_i hnext
        cases hsession
        exact .left hfound hnext.1 hnext.2
      · cases hsession
  | sendRequestToSubscriber request =>
      simp only [step, sendRequestToSubscriber] at h
      split at h
      · cases h
      · split at h <;> cases h
        · exact .notConnected ‹_› ‹_›
        · exact .held ‹_› ‹_›
  | send =>
      simp only [step, sendAction, Option.bind_eq_bind] at h
      obtain ⟨⟨session, action⟩, hsending, hrest⟩ := Option.bind_eq_some_iff.mp h
      obtain ⟨found, hfound, hrest⟩ := Option.bind_eq_some_iff.mp hrest
      obtain ⟨channel, hsend, hrest⟩ := Option.bind_eq_some_iff.mp hrest
      cases hrest
      exact .sent hsending hfound hsend

@[simp]
theorem setSession_self (state : ServerState) (session : Nat) (found : Session) :
    (setSession state session found).sessions session = some found := Function.update_self ..

theorem setSession_of_ne (state : ServerState) {session other : Nat} (h : other ≠ session)
    (found : Session) : (setSession state session found).sessions other = state.sessions other :=
  Function.update_of_ne h ..

/-! ### What always holds -/

/-- The channel of the session is in the map. -/
def Session.InMap (found : Session) : Prop :=
  found.cleanUp = .waitDone ∨ found.cleanUp = .announce ∨ found.cleanUp = .remove

/-- The goroutine is spawned with the entry, and goes on when the context has ended; the reader comes
when the resolver returns. -/
structure Session.WellFormed (found : Session) : Prop where
  unspawned : found.resolver = .verify ∨ found.resolver = .enter → found.cleanUp = .unspawned
  spawned : found.resolver = .activate ∨ found.resolver = .announce ∨ found.resolver = .connected →
    found.cleanUp ≠ .unspawned
  unread : (∀ err, found.resolver ≠ .failed err) → found.resolver ≠ .connected →
    found.reader = .notYet
  cancelled : found.cleanUp = .unspawned ∨ found.cleanUp = .waitDone ∨ found.cancelled = true

/-- The map has the sessions between the start of their goroutine and its removal. -/
structure Consistent (state : ServerState) : Prop where
  wellFormed : ∀ session, ∀ found ∈ state.sessions session, found.WellFormed
  entry : ∀ clusterID session, state.connectedCluster clusterID = some session ↔
    ∃ found ∈ state.sessions session, found.clusterInfo.clusterID = clusterID ∧ found.InMap

theorem consistent_startState (clusters : List Cluster) : Consistent (startState clusters) := by
  constructor <;> simp [startState]

theorem Consistent.setSession {state : ServerState} (h : Consistent state) {session : Nat}
    {found found' : Session} (hfound : state.sessions session = some found)
    (hwell : found'.WellFormed) (hinfo : found'.clusterInfo = found.clusterInfo)
    (hmap : found'.InMap ↔ found.InMap) : Consistent (setSession state session found') := by
  constructor
  · intro other stored hstored
    by_cases heq : other = session
    · subst heq
      obtain rfl := Option.some.inj ((setSession_self ..).symm.trans hstored)
      exact hwell
    · rw [setSession_of_ne state heq] at hstored
      exact h.wellFormed other stored hstored
  · intro clusterID other
    change state.connectedCluster clusterID = some other ↔ _
    rw [h.entry clusterID other]
    by_cases heq : other = session
    · subst heq
      simp [hfound, hinfo, hmap]
    · rw [setSession_of_ne state heq]

/-- The sessions and the map after an entry is made or removed. -/
theorem Consistent.update {state : ServerState} (h : Consistent state) {session : Nat}
    {found found' : Session} {entry : Option Nat} (hfound : state.sessions session = some found)
    (hwell : found'.WellFormed) (hinfo : found'.clusterInfo = found.clusterInfo)
    (hentry : entry = some session ∧ found'.InMap ∧
        state.connectedCluster found.clusterInfo.clusterID = none ∨
      entry = none ∧ ¬ found'.InMap ∧ found.InMap) :
    Consistent { Connections.setSession state session found' with
      connectedCluster := Function.update state.connectedCluster found.clusterInfo.clusterID
        entry } := by
  constructor
  · intro other stored hstored
    by_cases heq : other = session
    · subst heq
      obtain rfl := Option.some.inj ((setSession_self ..).symm.trans hstored)
      exact hwell
    · dsimp only at hstored
      rw [setSession_of_ne state heq] at hstored
      exact h.wellFormed other stored hstored
  · intro clusterID other
    dsimp only
    by_cases hcluster : clusterID = found.clusterInfo.clusterID
    · subst hcluster
      rw [Function.update_self]
      by_cases heq : other = session
      · subst heq
        rcases hentry with ⟨rfl, hmap, -⟩ | ⟨rfl, hmap, -⟩ <;> simp [hinfo, hmap]
      · rw [setSession_of_ne state heq, ← h.entry]
        rcases hentry with ⟨rfl, -, hnone⟩ | ⟨rfl, -, hmap⟩
        · simp [hnone, Ne.symm heq]
        · have hown := (h.entry _ session).mpr ⟨found, hfound, rfl, hmap⟩
          simp [hown, Ne.symm heq]
    · rw [Function.update_of_ne hcluster, h.entry]
      by_cases heq : other = session
      · subst heq
        simp [hfound, hinfo, Ne.symm hcluster]
      · rw [setSession_of_ne state heq]

theorem Consistent.step {version : String} {state state' : ServerState} {label : Label}
    (h : Consistent state) (hstep : step version state label = some state') :
    Consistent state' := by
  cases move_of_step hstep with
  | @clusterConnect session clusterInfo hnew =>
      constructor
      · intro other stored hstored
        by_cases heq : other = session
        · subst heq
          obtain rfl := Option.some.inj ((setSession_self ..).symm.trans hstored)
          constructor <;> simp [newSession]
        · rw [setSession_of_ne state heq] at hstored
          exact h.wellFormed other stored hstored
      · intro clusterID other
        change state.connectedCluster clusterID = some other ↔ _
        rw [h.entry]
        by_cases heq : other = session
        · subst heq
          simp [hnew, newSession, Session.InMap]
        · rw [setSession_of_ne state heq]
  | verifyFailed hfound hnext =>
      have hwell := h.wellFormed _ _ hfound
      refine h.setSession hfound ⟨?_, ?_, ?_, hwell.cancelled⟩ rfl Iff.rfl <;> simp [Session.fail]
  | verified hfound hnext =>
      have hwell := h.wellFormed _ _ hfound
      have hunspawned := hwell.unspawned (Or.inl hnext)
      have hunread := hwell.unread (by simp [hnext]) (by simp [hnext])
      exact h.setSession hfound ⟨fun _ => hunspawned, by simp, fun _ _ => hunread, hwell.cancelled⟩
        rfl Iff.rfl
  | refused hfound hnext =>
      have hwell := h.wellFormed _ _ hfound
      refine h.setSession hfound ⟨?_, ?_, ?_, hwell.cancelled⟩ rfl Iff.rfl <;> simp [Session.fail]
  | @entered session found hfound hnext hfree hentry =>
      have hwell := h.wellFormed _ _ hfound
      have hunread := hwell.unread (by simp [hnext]) (by simp [hnext])
      have hwell' : ({ found with resolver := .activate, cleanUp := .waitDone } : Session).WellFormed :=
        ⟨by simp, by simp, fun _ _ => hunread, by simp⟩
      have hset := h.update hfound hwell' rfl (Or.inl ⟨rfl, Or.inl rfl, hentry⟩)
      exact ⟨hset.wellFormed, hset.entry⟩
  | activateFailed hfound hnext =>
      have hwell := h.wellFormed _ _ hfound
      refine h.setSession hfound ⟨?_, ?_, ?_, hwell.cancelled⟩ rfl Iff.rfl <;> simp [Session.fail]
  | @activated session now found hfound hnext =>
      have hwell := h.wellFormed _ _ hfound
      have hspawned := hwell.spawned (Or.inl hnext)
      have hunread := hwell.unread (by simp [hnext]) (by simp [hnext])
      have hwell' : ({ found with resolver := .announce } : Session).WellFormed :=
        ⟨by simp, fun _ => hspawned, fun _ _ => hunread, hwell.cancelled⟩
      have hset := h.setSession hfound hwell' rfl Iff.rfl
      exact ⟨hset.wellFormed, hset.entry⟩
  | announced hfound hnext =>
      have hwell := h.wellFormed _ _ hfound
      have hspawned := hwell.spawned (Or.inr (Or.inl hnext))
      exact h.setSession hfound ⟨by simp, fun _ => hspawned, by simp, hwell.cancelled⟩ rfl Iff.rfl
  | cancelled hfound =>
      have hwell := h.wellFormed _ _ hfound
      exact h.setSession hfound
        ⟨hwell.unspawned, hwell.spawned, hwell.unread, Or.inr (Or.inr rfl)⟩ rfl Iff.rfl
  | woken hfound hnext hcancelled =>
      have hwell := h.wellFormed _ _ hfound
      refine h.setSession hfound ⟨fun hresolver => ?_, by simp, hwell.unread,
        Or.inr (Or.inr hcancelled)⟩ rfl (by simp [Session.InMap, hnext])
      simp [hwell.unspawned hresolver] at hnext
  | @announcedOffline session found hfound hnext =>
      have hwell := h.wellFormed _ _ hfound
      have hcancelled : found.cancelled = true := by simpa [hnext] using hwell.cancelled
      refine h.setSession hfound ⟨fun hresolver => ?_, by simp, hwell.unread,
        Or.inr (Or.inr hcancelled)⟩ rfl (by simp [Session.InMap, hnext])
      simp [hwell.unspawned hresolver] at hnext
  | @removed session found hfound hnext =>
      have hwell := h.wellFormed _ _ hfound
      have hcancelled : found.cancelled = true := by simpa [hnext] using hwell.cancelled
      have hwell' : ({ found with cleanUp := .deactivate } : Session).WellFormed :=
        ⟨fun hresolver => by simp [hwell.unspawned hresolver] at hnext, by simp, hwell.unread,
          Or.inr (Or.inr hcancelled)⟩
      have hset := h.update hfound hwell' rfl
        (Or.inr ⟨rfl, by simp [Session.InMap], Or.inr (Or.inr hnext)⟩)
      exact ⟨hset.wellFormed, hset.entry⟩
  | @deactivated session now fails found hfound hnext =>
      have hwell := h.wellFormed _ _ hfound
      have hcancelled : found.cancelled = true := by simpa [hnext] using hwell.cancelled
      have hwell' : ({ found with cleanUp := .done } : Session).WellFormed :=
        ⟨fun hresolver => by simp [hwell.unspawned hresolver] at hnext, by simp, hwell.unread,
          Or.inr (Or.inr hcancelled)⟩
      have hset := h.setSession hfound hwell' rfl (by simp [Session.InMap, hnext])
      exact ⟨hset.wellFormed, hset.entry⟩
  | received hfound =>
      have hwell := h.wellFormed _ _ hfound
      exact h.setSession hfound ⟨hwell.unspawned, hwell.spawned, hwell.unread, hwell.cancelled⟩ rfl
        Iff.rfl
  | left hfound hreading =>
      have hwell := h.wellFormed _ _ hfound
      refine h.setSession hfound ⟨hwell.unspawned, hwell.spawned, fun hfailed hconnected => ?_,
        hwell.cancelled⟩ rfl Iff.rfl
      simp [hwell.unread hfailed hconnected] at hreading
  | notConnected => exact h
  | held => exact ⟨h.wellFormed, h.entry⟩
  | @sent session action found channel hsending hfound =>
      have hwell := h.wellFormed _ _ hfound
      have hwell' : ({ found with channel := channel } : Session).WellFormed :=
        ⟨hwell.unspawned, hwell.spawned, hwell.unread, hwell.cancelled⟩
      have hset := h.setSession hfound hwell' rfl Iff.rfl
      exact ⟨hset.wellFormed, hset.entry⟩

def sampleAgent : ClusterIdentity := ⟨"cluster-1", "key-1", "2.6.0"⟩

end LitmusPortal.Connections
