import LitmusPortal.DataStore.Deadlock
import LitmusPortal.Lib.Traffic

/-!
# Deliveries to an agent

The requests for an agent pass through `SendRequestToSubscriber`, the channel of its connection and the reader of that
channel. Whatever runs beside them, a connection hands out the requests it has accepted in their order, each one once,
and it has accepted requests for its own cluster only.
-/

namespace LitmusPortal.Connections

open Transition

/-- A request that finds this connection in the map. -/
def accepted (session : Nat) (state : ServerState) : Label → List ClusterActionResponse
  | .sendRequestToSubscriber request =>
      if state.connectedCluster request.clusterID = some session then [actionOf request] else []
  | _ => []

/-- What the reader of the connection takes. -/
def received (session : Nat) (state : ServerState) : Label → List ClusterActionResponse
  | .receive other =>
      if other = session then (state.sessions other).elim [] fun found => found.channel.buffer.take 1 else []
  | _ => []

def buffered (sessions : Nat → Option Session) (session : Nat) : List ClusterActionResponse :=
  (sessions session).elim [] fun found => found.channel.buffer

def pending (sending : Option (Nat × ClusterActionResponse)) (session : Nat) : List ClusterActionResponse :=
  sending.elim [] fun (other, action) => if other = session then [action] else []

/-- What lies in the channel, and behind it what a sender holds in its hands. -/
def inTransit (session : Nat) (state : ServerState) : List ClusterActionResponse :=
  buffered state.sessions session ++ pending state.sending session

theorem received_of_ne {session other : Nat} (h : other ≠ session) (state : ServerState) :
    received session state (.receive other) = [] := if_neg h

theorem pending_some (other session : Nat) (action : ClusterActionResponse) :
    pending (some (other, action)) session = if other = session then [action] else [] := rfl

section Step

variable {version : String} {state state' : ServerState} {label : Label} {session other : Nat} {found found' : Session}

theorem buffered_setSession (hfound : state.sessions other = some found)
    (hbuffer : found'.channel.buffer = found.channel.buffer) :
    buffered (setSession state other found').sessions session = buffered state.sessions session := by
  by_cases heq : session = other
  · subst heq
    rw [buffered, setSession_self, buffered, hfound, Option.elim_some, Option.elim_some, hbuffer]
  · rw [buffered, setSession_of_ne state heq, buffered]

theorem inTransit_congr (hbuffered : buffered state'.sessions session = buffered state.sessions session)
    (hsending : state'.sending = state.sending) : inTransit session state' = inTransit session state := by
  rw [inTransit, hbuffered, hsending, inTransit]

/-- A step of a session that leaves its channel alone. -/
theorem inTransit_setSession (hfound : state.sessions other = some found)
    (hbuffer : found'.channel.buffer = found.channel.buffer) :
    inTransit session (setSession state other found') = inTransit session state :=
  inTransit_congr (buffered_setSession hfound hbuffer) rfl

theorem balance_quiet (haccepted : accepted session state label = []) (hreceived : received session state label = [])
    (hsame : inTransit session state' = inTransit session state) :
    inTransit session state ++ accepted session state label =
      received session state label ++ inTransit session state' := by
  rw [haccepted, hreceived, hsame, List.append_nil, List.nil_append]

/-- A step takes in what it will hand out later, behind what is on its way already. -/
theorem balance_step (h : step version state label = some state') :
    inTransit session state ++ accepted session state label =
      received session state label ++ inTransit session state' := by
  cases move_of_step h with
  | @clusterConnect other clusterInfo hnew =>
      apply balance_quiet rfl rfl
      refine inTransit_congr ?_ rfl
      by_cases heq : session = other
      · subst heq
        rw [buffered, setSession_self, buffered, hnew]
        rfl
      · rw [buffered, setSession_of_ne state heq, buffered]
  | verifyFailed hfound => exact balance_quiet rfl rfl (inTransit_setSession hfound rfl)
  | verified hfound => exact balance_quiet rfl rfl (inTransit_setSession hfound rfl)
  | refused hfound => exact balance_quiet rfl rfl (inTransit_setSession hfound rfl)
  | entered hfound => exact balance_quiet rfl rfl (inTransit_congr (buffered_setSession hfound rfl) rfl)
  | activateFailed hfound => exact balance_quiet rfl rfl (inTransit_setSession hfound rfl)
  | activated hfound => exact balance_quiet rfl rfl (inTransit_congr (buffered_setSession hfound rfl) rfl)
  | announced hfound => exact balance_quiet rfl rfl (inTransit_setSession hfound rfl)
  | cancelled hfound => exact balance_quiet rfl rfl (inTransit_setSession hfound rfl)
  | woken hfound => exact balance_quiet rfl rfl (inTransit_setSession hfound rfl)
  | announcedOffline hfound => exact balance_quiet rfl rfl (inTransit_setSession hfound rfl)
  | removed hfound => exact balance_quiet rfl rfl (inTransit_congr (buffered_setSession hfound rfl) rfl)
  | deactivated hfound => exact balance_quiet rfl rfl (inTransit_congr (buffered_setSession hfound rfl) rfl)
  | left hfound => exact balance_quiet rfl rfl (inTransit_setSession hfound rfl)
  | @received other found action channel hfound hreading hreceive =>
      obtain ⟨hbuffer, -⟩ := Channel.receive_cases hreceive
      by_cases heq : other = session
      · subst heq
        have hbefore : buffered state.sessions other = action :: channel.buffer := by
          rw [buffered, hfound, Option.elim_some, hbuffer]
        have hafter : buffered (setSession state other { found with channel := channel }).sessions other =
            channel.buffer := by
          rw [buffered, setSession_self, Option.elim_some]
        have htaken : received other state (.receive other) = [action] := by
          rw [received, if_pos rfl, hfound, Option.elim_some, hbuffer, List.take_succ_cons, List.take_zero]
        have hnone : accepted other state (.receive other) = [] := rfl
        rw [htaken, hnone, inTransit, inTransit, hbefore, hafter, List.append_nil]
        rfl
      · apply balance_quiet rfl (received_of_ne heq state)
        refine inTransit_congr ?_ rfl
        rw [buffered, setSession_of_ne state (Ne.symm heq), buffered]
  | @notConnected request hfree hentry =>
      have hnone : accepted session state (.sendRequestToSubscriber request) = [] :=
        if_neg fun hsome => by rw [hentry] at hsome; cases hsome
      exact balance_quiet hnone rfl rfl
  | @held request other hfree hentry =>
      have hempty : pending state.sending session = [] := by rw [hfree, pending, Option.elim_none]
      have htaken : accepted session state (.sendRequestToSubscriber request) =
          if other = session then [actionOf request] else [] := by
        simp only [accepted, hentry, Option.some_inj]
      rw [inTransit, inTransit, hempty, htaken, pending_some, List.append_nil]
      rfl
  | @sent other action found channel hsending hfound hsend =>
      have hbuffer := Channel.buffer_send hsend
      by_cases heq : other = session
      · subst heq
        have hbefore : buffered state.sessions other = found.channel.buffer := by
          rw [buffered, hfound, Option.elim_some]
        have hafter : buffered (setSession state other { found with channel := channel }).sessions other =
            found.channel.buffer ++ [action] := by
          rw [buffered, setSession_self, Option.elim_some, hbuffer]
        have hheld : pending state.sending other = [action] := by
          rw [hsending, pending_some, if_pos rfl]
        have hnone : accepted other state .send = [] := rfl
        rw [inTransit, inTransit, hbefore, hafter, hheld, hnone, List.append_nil]
        exact (List.append_nil _).symm
      · apply balance_quiet rfl rfl
        have hheld : pending state.sending session = [] := by
          rw [hsending, pending_some, if_neg heq]
        rw [inTransit, inTransit, hheld, buffered, setSession_of_ne state (Ne.symm heq)]
        rfl

end Step

/-! ### Sessions from step to step -/

/-- The identity has passed `VerifyCluster`. -/
def Session.Passed (found : Session) : Prop := found.resolver = .enter ∨ found.cleanUp ≠ .unspawned

/-- What a step makes of a session. -/
structure Evolves (version : String) (clusters : List Cluster) (label : Label) (session : Nat)
    (found found' : Session) : Prop where
  clusterInfo : found'.clusterInfo = found.clusterInfo
  capacity : found'.channel.capacity = found.channel.capacity
  passed : found'.Passed → found.Passed ∨ ∃ fails cluster, label = .verify session fails ∧
    verifyCluster version fails clusters found.clusterInfo = .ok cluster

section Sessions

variable {version : String} {state state' : ServerState} {label : Label} {session other : Nat} {found found' : Session}

theorem evolves_refl (found : Session) : Evolves version state.clusters label session found found :=
  ⟨rfl, rfl, .inl⟩

/-- A step that changes one session. -/
theorem exists_evolves_of_setSession (hfound : state.sessions other = some found)
    (hsessions : state'.sessions = (setSession state other found').sessions) {changed : Session}
    (hchanged : state'.sessions session = some changed)
    (hevolves : Evolves version state.clusters label other found found') :
    ∃ before, state.sessions session = some before ∧ Evolves version state.clusters label session before changed := by
  rw [hsessions] at hchanged
  by_cases heq : session = other
  · subst heq
    obtain rfl := Option.some.inj ((setSession_self ..).symm.trans hchanged)
    exact ⟨found, hfound, hevolves⟩
  · rw [setSession_of_ne state heq] at hchanged
    exact ⟨changed, hchanged, evolves_refl changed⟩

theorem session_step (h : step version state label = some state') (hfound' : state'.sessions session = some found') :
    (state.sessions session = none ∧ ∃ clusterInfo, found' = newSession clusterInfo) ∨
      ∃ found, state.sessions session = some found ∧ Evolves version state.clusters label session found found' := by
  cases move_of_step h with
  | @clusterConnect other clusterInfo hnew =>
      by_cases heq : session = other
      · subst heq
        obtain rfl := Option.some.inj ((setSession_self ..).symm.trans hfound')
        exact .inl ⟨hnew, clusterInfo, rfl⟩
      · rw [setSession_of_ne state heq] at hfound'
        exact .inr ⟨found', hfound', evolves_refl found'⟩
  | verifyFailed hfound hnext =>
      refine .inr (exists_evolves_of_setSession hfound rfl hfound' ⟨rfl, rfl, fun hpassed => ?_⟩)
      exact .inl (.inr (hpassed.resolve_left nofun))
  | @verified other fails found cluster hfound hnext hverify =>
      exact .inr (exists_evolves_of_setSession hfound rfl hfound'
        ⟨rfl, rfl, fun _ => .inr ⟨fails, cluster, rfl, hverify⟩⟩)
  | refused hfound hnext =>
      exact .inr (exists_evolves_of_setSession hfound rfl hfound' ⟨rfl, rfl, fun _ => .inl (.inl hnext)⟩)
  | entered hfound hnext =>
      exact .inr (exists_evolves_of_setSession hfound rfl hfound' ⟨rfl, rfl, fun _ => .inl (.inl hnext)⟩)
  | activateFailed hfound hnext =>
      refine .inr (exists_evolves_of_setSession hfound rfl hfound' ⟨rfl, rfl, fun hpassed => ?_⟩)
      exact .inl (.inr (hpassed.resolve_left nofun))
  | activated hfound hnext =>
      refine .inr (exists_evolves_of_setSession hfound rfl hfound' ⟨rfl, rfl, fun hpassed => ?_⟩)
      exact .inl (.inr (hpassed.resolve_left nofun))
  | announced hfound hnext =>
      refine .inr (exists_evolves_of_setSession hfound rfl hfound' ⟨rfl, rfl, fun hpassed => ?_⟩)
      exact .inl (.inr (hpassed.resolve_left nofun))
  | cancelled hfound =>
      exact .inr (exists_evolves_of_setSession hfound rfl hfound' ⟨rfl, rfl, .inl⟩)
  | woken hfound hnext hcancelled =>
      refine .inr (exists_evolves_of_setSession hfound rfl hfound' ⟨rfl, rfl, fun _ => .inl (.inr ?_)⟩)
      rw [hnext]
      nofun
  | announcedOffline hfound hnext =>
      refine .inr (exists_evolves_of_setSession hfound rfl hfound' ⟨rfl, rfl, fun _ => .inl (.inr ?_)⟩)
      rw [hnext]
      nofun
  | removed hfound hnext =>
      refine .inr (exists_evolves_of_setSession hfound rfl hfound' ⟨rfl, rfl, fun _ => .inl (.inr ?_)⟩)
      rw [hnext]
      nofun
  | deactivated hfound hnext =>
      refine .inr (exists_evolves_of_setSession hfound rfl hfound' ⟨rfl, rfl, fun _ => .inl (.inr ?_)⟩)
      rw [hnext]
      nofun
  | received hfound hreading hreceive =>
      have hcapacity := (Channel.receive_cases hreceive).2
      exact .inr (exists_evolves_of_setSession hfound rfl hfound' ⟨rfl, hcapacity, .inl⟩)
  | left hfound =>
      exact .inr (exists_evolves_of_setSession hfound rfl hfound' ⟨rfl, rfl, .inl⟩)
  | notConnected => exact .inr ⟨found', hfound', evolves_refl found'⟩
  | held => exact .inr ⟨found', hfound', evolves_refl found'⟩
  | sent hsending hfound hsend =>
      have hcapacity := Channel.capacity_send hsend
      exact .inr (exists_evolves_of_setSession hfound rfl hfound' ⟨rfl, hcapacity, .inl⟩)

theorem sessions_step (h : step version state label = some state') :
    state'.sessions = state.sessions ∨
      ∃ other changed, state'.sessions = Function.update state.sessions other (some changed) := by
  cases move_of_step h with
  | notConnected => exact .inl rfl
  | held => exact .inl rfl
  | _ => exact .inr ⟨_, _, rfl⟩

theorem exists_found_step (h : step version state label = some state') (hfound : state.sessions session = some found) :
    ∃ found', state'.sessions session = some found' ∧ found'.clusterInfo = found.clusterInfo := by
  have hstays : ∃ found', state'.sessions session = some found' := by
    rcases sessions_step h with hsame | ⟨other, changed, hupdate⟩
    · exact ⟨found, by rw [hsame, hfound]⟩
    · by_cases heq : session = other
      · exact ⟨changed, by rw [hupdate, heq, Function.update_self]⟩
      · exact ⟨found, by rw [hupdate, Function.update_of_ne heq, hfound]⟩
  obtain ⟨found', hfound'⟩ := hstays
  rcases session_step h hfound' with ⟨hnone, -⟩ | ⟨before, hbefore, hevolves⟩
  · rw [hnone] at hfound
    cases hfound
  · obtain rfl := Option.some.inj (hfound.symm.trans hbefore)
    exact ⟨found', hfound', hevolves.clusterInfo⟩

end Sessions

/-! ### Runs -/

section Run

variable {version : String} {clusters : List Cluster} {labels : List Label} {state : ServerState}

theorem consistent_run (hrun : run (step version) (startState clusters) labels = some state) : Consistent state :=
  run_invariant_of_step (fun _ _ _ h => h.step) (consistent_startState clusters) hrun

def SingleSlots (state : ServerState) : Prop :=
  ∀ session, ∀ found ∈ state.sessions session, found.channel.capacity = 1

theorem singleSlots_run (hrun : run (step version) (startState clusters) labels = some state) : SingleSlots state := by
  have hstart : SingleSlots (startState clusters) := fun session found hfound => by cases hfound
  refine run_invariant_of_step (fun s label s' h hstep session found' hfound' => ?_) hstart hrun
  rcases session_step hstep hfound' with ⟨-, clusterInfo, rfl⟩ | ⟨found, hfound, hevolves⟩
  · rfl
  · exact hevolves.capacity.trans (h session found hfound)

theorem inTransit_length_le (hrun : run (step version) (startState clusters) labels = some state) (session : Nat) :
    (inTransit session state).length ≤ 2 := by
  have hbuffered : (buffered state.sessions session).length ≤ 1 := by
    rw [buffered]
    cases hfound : state.sessions session with
    | none => exact Nat.zero_le 1
    | some found => exact found.channel.fits.trans_eq (singleSlots_run hrun session found hfound)
  have hpending : (pending state.sending session).length ≤ 1 := by
    cases state.sending with
    | none => exact Nat.zero_le 1
    | some sending =>
        rw [pending_some]
        split
        · exact le_rfl
        · exact Nat.zero_le 1
  rw [inTransit, List.length_append]
  omega

/-- A connection hands out the requests it has accepted in their order and each one once; at most two of them are on
their way, one in the channel and one in the hands of its sender. -/
theorem deliveries_inOrder (hrun : run (step version) (startState clusters) labels = some state) (session : Nat) :
    observed (step version) (accepted session) (startState clusters) labels =
        observed (step version) (received session) (startState clusters) labels ++ inTransit session state ∧
      (inTransit session state).length ≤ 2 :=
  ⟨observed_balance (fun _ _ _ _ _ => trivial) (fun _ _ _ _ h => balance_step h) trivial hrun,
    inTransit_length_le hrun session⟩

/-- One request is read while the sender of the next one holds it. -/
def readBetween : List Label := connectAndSend ++ [.sendRequestToSubscriber sampleRequest, .receive 0]

theorem isSome_run_readBetween :
    (run (step "2.6.0") (startState [sampleCluster]) readBetween).isSome = true := by decide

theorem deliveries_inOrder_readBetween :
    ∃ state, run (step "2.6.0") (startState [sampleCluster]) readBetween = some state ∧
      observed (step "2.6.0") (accepted 0) (startState [sampleCluster]) readBetween =
        observed (step "2.6.0") (received 0) (startState [sampleCluster]) readBetween ++ inTransit 0 state ∧
      (inTransit 0 state).length ≤ 2 := by
  obtain ⟨state, hrun⟩ := Option.isSome_iff_exists.mp isSome_run_readBetween
  exact ⟨state, hrun, deliveries_inOrder hrun 0⟩

def KnownAs (session : Nat) (clusterInfo : ClusterIdentity) (state : ServerState) : Prop :=
  ∃ found, state.sessions session = some found ∧ found.clusterInfo = clusterInfo

theorem knownAs_run {mid : ServerState} (hrun : run (step version) mid labels = some state)
    {session : Nat} {found : Session} (hfound : mid.sessions session = some found) :
    KnownAs session found.clusterInfo state := by
  have hstart : KnownAs session found.clusterInfo mid := ⟨found, hfound, rfl⟩
  refine run_invariant_of_step (fun s label s' h hstep => ?_) hstart hrun
  obtain ⟨before, hbefore, hinfo⟩ := h
  obtain ⟨found', hfound', hsame⟩ := exists_found_step hstep hbefore
  exact ⟨found', hfound', hsame.trans hinfo⟩

/-- The session is the one of an agent that has been let in. -/
def PassedAs (session : Nat) (clusterInfo : ClusterIdentity) (state : ServerState) : Prop :=
  ∃ found, state.sessions session = some found ∧ found.clusterInfo = clusterInfo ∧ found.Passed

/-- Nobody is let in but by `VerifyCluster`. -/
theorem exists_verify_of_passedAs {session : Nat} {clusterInfo : ClusterIdentity}
    (hpassed : PassedAs session clusterInfo state)
    (hrun : run (step version) (startState clusters) labels = some state) :
    ∃ front fails back mid cluster, labels = front ++ .verify session fails :: back ∧
      run (step version) (startState clusters) front = some mid ∧
      verifyCluster version fails mid.clusters clusterInfo = .ok cluster := by
  have hstart : ¬ PassedAs session clusterInfo (startState clusters) := by
    rintro ⟨found, hfound, -⟩
    cases hfound
  obtain ⟨front, label, back, mid, next, rfl, hfront, hmid, hnext, found', hfound', hinfo, hturn⟩ :=
    exists_turn hstart hpassed hrun
  rcases session_step hnext hfound' with ⟨-, fresh, rfl⟩ | ⟨found, hfound, hevolves⟩
  · exact absurd hturn (not_or.mpr ⟨nofun, fun h => h rfl⟩)
  · rcases hevolves.passed hturn with hbefore | ⟨fails, cluster, rfl, hverify⟩
    · exact absurd ⟨found, hfound, hevolves.clusterInfo.symm.trans hinfo, hbefore⟩ hmid
    · rw [← hevolves.clusterInfo, hinfo] at hverify
      exact ⟨front, fails, back, mid, cluster, rfl, hfront, hverify⟩

/-- Whatever a connection has accepted was meant for the cluster of its identity, and the identity had passed
`VerifyCluster` before. -/
theorem accepted_verified (hrun : run (step version) (startState clusters) labels = some state) {session : Nat}
    {found : Session} (hfound : state.sessions session = some found) :
    ∀ action ∈ observed (step version) (accepted session) (startState clusters) labels,
      ∃ before between request after fails mid cluster,
        labels = before ++ .verify session fails :: between ++ .sendRequestToSubscriber request :: after ∧
        actionOf request = action ∧ request.clusterID = found.clusterInfo.clusterID ∧
        run (step version) (startState clusters) before = some mid ∧
        verifyCluster version fails mid.clusters found.clusterInfo = .ok cluster := by
  intro action haction
  obtain ⟨front, label, back, mid, next, rfl, hfront, hconsistent, hnext, hback, hmem⟩ :=
    exists_of_mem_observed (fun _ _ _ h => h.step) (consistent_startState clusters) hrun haction
  obtain ⟨request, rfl, hentry, rfl⟩ : ∃ request, label = .sendRequestToSubscriber request ∧
      mid.connectedCluster request.clusterID = some session ∧ actionOf request = action := by
    cases label with
    | sendRequestToSubscriber request =>
        rw [accepted] at hmem
        split at hmem
        · exact ⟨request, rfl, ‹_›, (List.mem_singleton.mp hmem).symm⟩
        · cases hmem
    | _ => cases hmem
  obtain ⟨entry, hmid, hcluster, hmap⟩ := (hconsistent.entry _ session).mp hentry
  have hrest : run (step version) mid (.sendRequestToSubscriber request :: back) = some state := by
    rw [run_cons, hnext]
    exact hback
  obtain ⟨last, hlast, hinfo⟩ := knownAs_run hrest hmid
  obtain rfl := Option.some.inj (hfound.symm.trans hlast)
  have hspawned : entry.cleanUp ≠ .unspawned := by
    rcases hmap with h | h | h <;> rw [h] <;> nofun
  obtain ⟨before, fails, between, earlier, cluster, rfl, hbefore, hverify⟩ :=
    exists_verify_of_passedAs ⟨entry, hmid, rfl, .inr hspawned⟩ hfront
  rw [← hinfo] at hcluster hverify
  exact ⟨before, between, request, back, fails, earlier, cluster, rfl, rfl, hcluster.symm, hbefore, hverify⟩

theorem accepted_verified_readBetween :
    ∃ state found, run (step "2.6.0") (startState [sampleCluster]) readBetween = some state ∧
      state.sessions 0 = some found ∧
      ∀ action ∈ observed (step "2.6.0") (accepted 0) (startState [sampleCluster]) readBetween,
        ∃ before between request after fails mid cluster,
          readBetween = before ++ .verify 0 fails :: between ++ .sendRequestToSubscriber request :: after ∧
          actionOf request = action ∧ request.clusterID = found.clusterInfo.clusterID ∧
          run (step "2.6.0") (startState [sampleCluster]) before = some mid ∧
          verifyCluster "2.6.0" fails mid.clusters found.clusterInfo = .ok cluster := by
  obtain ⟨state, hrun⟩ := Option.isSome_iff_exists.mp isSome_run_readBetween
  obtain ⟨found, hfound⟩ : ∃ found, state.sessions 0 = some found := by
    obtain rfl := Option.some.inj hrun
    exact ⟨_, rfl⟩
  exact ⟨state, found, hrun, hfound, accepted_verified hrun hfound⟩

end Run

end LitmusPortal.Connections
