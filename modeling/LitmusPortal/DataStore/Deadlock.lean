import LitmusPortal.DataStore.Connections

/-!
# A request that waits for a reader that has gone

`SendRequestToSubscriber` sends while it holds the mutex of the store, and the clean-up of a
connection wants the same mutex before it takes the channel out of the map.
-/

namespace LitmusPortal.Connections

/-- The goroutine has seen the end of the context, and has not removed the channel yet. -/
def Session.Removing (found : Session) : Prop :=
  found.cleanUp = .announce ∨ found.cleanUp = .remove

/-- The channel is full, its reader has gone, and its clean-up is under way. -/
def Session.Trapped (found : Session) : Prop :=
  found.channel.isFull = true ∧ found.reader = .gone ∧ found.Removing

/-- A request holds the mutex and sends to such a channel, whose clean-up waits for the mutex. -/
def Deadlocked (state : ServerState) : Prop :=
  ∃ held ∈ state.sending, ∃ found ∈ state.sessions held.1, found.Trapped

def NoDeadlock : Prop :=
  ∀ version clusters labels state,
    Transition.run (step version) (startState clusters) labels = some state → ¬ Deadlocked state

/-- The mutex is held by a request for this session. -/
def SendsTo (state : ServerState) (session : Nat) : Prop :=
  ∃ held ∈ state.sending, held.1 = session

/-- No request comes to a channel that is full after its reader has gone and while its clean-up is
under way, and while a request waits for room in a channel the other two do not come together: the
reader does not leave a connection whose clean-up is under way, and the clean-up of a connection does
not begin after its reader has gone. -/
def SparesReader (state : ServerState) : Label → Prop
  | .sendRequestToSubscriber request =>
      ∀ session ∈ state.connectedCluster request.clusterID,
        ∀ found ∈ state.sessions session, ¬ found.Trapped
  | .wake session => SendsTo state session → ∀ found ∈ state.sessions session,
      found.channel.isFull = true → found.reader ≠ .gone
  | .leave session => SendsTo state session → ∀ found ∈ state.sessions session,
      found.channel.isFull = true → ¬ found.Removing
  | .activate session _ fails => fails = true → SendsTo state session →
      ∀ found ∈ state.sessions session, found.channel.isFull = true → ¬ found.Removing
  | _ => True

/-- Without a deadlock, the change of one session makes one only if a request sends to it. -/
theorem deadlocked_setSession_iff {state : ServerState} (h : ¬ Deadlocked state) (session : Nat)
    (found : Session) :
    Deadlocked (setSession state session found) ↔ SendsTo state session ∧ found.Trapped := by
  constructor
  · rintro ⟨held, hheld, found', hfound', htrapped⟩
    by_cases heq : held.1 = session
    · rw [heq] at hfound'
      obtain rfl := Option.some.inj ((setSession_self ..).symm.trans hfound')
      exact ⟨⟨held, hheld, heq⟩, htrapped⟩
    · rw [setSession_of_ne state heq] at hfound'
      exact absurd ⟨held, hheld, found', hfound', htrapped⟩ h
  · rintro ⟨⟨held, hheld, rfl⟩, htrapped⟩
    exact ⟨held, hheld, found, setSession_self .., htrapped⟩

theorem not_deadlocked_of_free {state : ServerState} (h : state.sending = none) :
    ¬ Deadlocked state := by
  rintro ⟨held, hheld, -⟩
  simp [h] at hheld

theorem deadlocked_congr {state state' : ServerState} (hsending : state'.sending = state.sending)
    (hsessions : state'.sessions = state.sessions) : Deadlocked state' ↔ Deadlocked state := by
  rw [Deadlocked, hsending, hsessions, Deadlocked]

/-- The step lemma: a step makes no deadlock exactly when it spares the reader. -/
theorem not_deadlocked_step_iff {version : String} {state state' : ServerState} {label : Label}
    (hconsistent : Consistent state) (h : ¬ Deadlocked state)
    (hstep : step version state label = some state') :
    ¬ Deadlocked state' ↔ SparesReader state label := by
  have hsafe : ∀ {session : Nat} {found : Session}, (SendsTo state session → ¬ found.Trapped) →
      ¬ Deadlocked (setSession state session found) := by
    intro session found hnot hdead
    obtain ⟨hsends, htrapped⟩ := (deadlocked_setSession_iff h session found).mp hdead
    exact hnot hsends htrapped
  have hbefore : ∀ {session : Nat} {found : Session}, state.sessions session = some found →
      SendsTo state session → ¬ found.Trapped := by
    rintro session found hfound ⟨held, hheld, rfl⟩ htrapped
    exact h ⟨held, hheld, found, hfound, htrapped⟩
  cases move_of_step hstep with
  | clusterConnect hnew =>
      exact iff_of_true (hsafe fun _ htrapped => by
        simp [Session.Trapped, newSession, Channel.isFull, Channel.make] at htrapped) trivial
  | verifyFailed hfound hnext =>
      refine iff_of_true (hsafe fun _ htrapped => ?_) trivial
      have hcleanUp := (hconsistent.wellFormed _ _ hfound).unspawned (Or.inl hnext)
      simp [Session.Trapped, Session.Removing, Session.fail, hcleanUp] at htrapped
  | verified hfound hnext =>
      have hnot := hbefore hfound
      exact iff_of_true (hsafe hnot) trivial
  | refused hfound hnext =>
      refine iff_of_true (hsafe fun _ htrapped => ?_) trivial
      have hcleanUp := (hconsistent.wellFormed _ _ hfound).unspawned (Or.inr hnext)
      simp [Session.Trapped, Session.Removing, Session.fail, hcleanUp] at htrapped
  | entered hfound hnext hfree => exact iff_of_true (not_deadlocked_of_free hfree) trivial
  | activateFailed hfound hnext =>
      rw [deadlocked_setSession_iff h, not_and]
      simp only [SparesReader, forall_true_left, Option.mem_def, hfound, Option.some.injEq,
        forall_eq', Session.Trapped, Session.Removing, Session.fail, true_and]
      tauto
  | activated hfound hnext =>
      have hnot := hbefore hfound
      exact iff_of_true (hsafe hnot) (by simp [SparesReader])
  | announced hfound hnext =>
      refine iff_of_true (hsafe fun _ htrapped => ?_) trivial
      simp [Session.Trapped] at htrapped
  | cancelled hfound =>
      have hnot := hbefore hfound
      exact iff_of_true (hsafe hnot) trivial
  | woken hfound hnext =>
      rw [deadlocked_setSession_iff h, not_and]
      simp only [SparesReader, Option.mem_def, hfound, Option.some.injEq, forall_eq',
        Session.Trapped, Session.Removing, true_or, and_true]
      tauto
  | announcedOffline hfound hnext hfree => exact iff_of_true (not_deadlocked_of_free hfree) trivial
  | removed hfound hnext hfree => exact iff_of_true (not_deadlocked_of_free hfree) trivial
  | deactivated hfound hnext =>
      refine iff_of_true (hsafe fun _ htrapped => ?_) trivial
      simp [Session.Trapped, Session.Removing] at htrapped
  | received hfound hreading =>
      refine iff_of_true (hsafe fun _ htrapped => ?_) trivial
      simp [Session.Trapped, hreading] at htrapped
  | left hfound =>
      rw [deadlocked_setSession_iff h, not_and]
      simp only [SparesReader, Option.mem_def, hfound, Option.some.injEq, forall_eq',
        Session.Trapped, true_and]
      tauto
  | notConnected hfree => exact iff_of_true h (by simp [SparesReader, *])
  | held hfree hentry =>
      simp only [SparesReader, Deadlocked, Option.mem_def, hentry, Option.some.injEq,
        exists_eq_left', forall_eq']
      push Not
      rfl
  | sent => exact iff_of_true (not_deadlocked_of_free rfl) trivial

/-- The two wait for each other for good: no later step ends a deadlock. -/
theorem Deadlocked.step {version : String} {state state' : ServerState} {label : Label}
    (h : Deadlocked state) (hconsistent : Consistent state)
    (hstep : step version state label = some state') : Deadlocked state' := by
  have hheld : state.sending ≠ none := fun hfree => not_deadlocked_of_free hfree h
  have hkept : ∀ {session : Nat} {found : Session} (found' : Session),
      state.sessions session = some found → (found.Trapped → found'.Trapped) →
      Deadlocked (setSession state session found') := by
    intro session found found' hfound htrapped
    obtain ⟨held, hsending, trapped, hat, htrap⟩ := h
    by_cases heq : held.1 = session
    · rw [heq] at hat
      obtain rfl := Option.some.inj (hfound.symm.trans hat)
      exact ⟨held, hsending, found', heq ▸ setSession_self .., htrapped htrap⟩
    · exact ⟨held, hsending, trapped, (setSession_of_ne state heq found').trans hat, htrap⟩
  cases move_of_step hstep with
  | @clusterConnect session clusterInfo hnew =>
      obtain ⟨held, hsending, trapped, hat, htrap⟩ := h
      have hne : held.1 ≠ session := by
        rintro rfl
        simp [hnew] at hat
      exact ⟨held, hsending, trapped, (setSession_of_ne state hne _).trans hat, htrap⟩
  | verifyFailed hfound => exact hkept _ hfound fun htrap => ⟨htrap.1, rfl, htrap.2.2⟩
  | verified hfound => exact hkept _ hfound fun htrap => htrap
  | refused hfound => exact hkept _ hfound fun htrap => ⟨htrap.1, rfl, htrap.2.2⟩
  | entered hfound hnext hfree => exact absurd hfree hheld
  | activateFailed hfound => exact hkept _ hfound fun htrap => ⟨htrap.1, rfl, htrap.2.2⟩
  | activated hfound => exact hkept _ hfound fun htrap => htrap
  | announced hfound hnext =>
      have hunread := (hconsistent.wellFormed _ _ hfound).unread (by simp [hnext]) (by simp [hnext])
      refine hkept _ hfound fun htrap => ?_
      simp [Session.Trapped, hunread] at htrap
  | cancelled hfound => exact hkept _ hfound fun htrap => htrap
  | woken hfound => exact hkept _ hfound fun htrap => ⟨htrap.1, htrap.2.1, Or.inl rfl⟩
  | announcedOffline hfound hnext hfree => exact absurd hfree hheld
  | removed hfound hnext hfree => exact absurd hfree hheld
  | deactivated hfound hnext =>
      refine hkept _ hfound fun htrap => ?_
      simp [Session.Trapped, Session.Removing, hnext] at htrap
  | received hfound hreading =>
      refine hkept _ hfound fun htrap => ?_
      simp [Session.Trapped, hreading] at htrap
  | left hfound => exact hkept _ hfound fun htrap => ⟨htrap.1, rfl, htrap.2.2⟩
  | notConnected hfree => exact absurd hfree hheld
  | held hfree => exact absurd hfree hheld
  | @sent session action found channel hsending hfound hsend =>
      obtain ⟨held, hheld, trapped, hat, htrap⟩ := h
      obtain rfl := Option.some.inj (hsending.symm.trans hheld)
      obtain rfl := Option.some.inj (hfound.symm.trans hat)
      simp [Channel.send_eq_none_iff.mpr htrap.1] at hsend

theorem Deadlocked.run {version : String} {state state' : ServerState} {labels : List Label}
    (h : Deadlocked state) (hconsistent : Consistent state)
    (hrun : Transition.run (Connections.step version) state labels = some state') :
    Deadlocked state' := by
  have hstep : ∀ state label state', Consistent state ∧ Deadlocked state →
      Connections.step version state label = some state' → Consistent state' ∧ Deadlocked state' :=
    fun _ _ _ hinv hstep => ⟨hinv.1.step hstep, hinv.2.step hinv.1 hstep⟩
  exact (Transition.run_invariant_of_step hstep ⟨hconsistent, h⟩ hrun).2

/-! ### A request after the agent has gone -/

def sampleRequest : SubscriberRequests :=
  ⟨"create", "", none, "project-1", "cluster-1", "litmus", some "admin"⟩

def connectAndSend : List Label :=
  [.clusterConnect 0 sampleAgent, .verify 0 false, .enter 0, .activate 0 0 false, .announce 0,
    .sendRequestToSubscriber sampleRequest, .send]

end LitmusPortal.Connections
