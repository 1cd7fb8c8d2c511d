import LitmusPortal.DataStore.Connections

/-!
# The active flag and the map of connections

A resolver enters its channel in the map and then sets `is_active`; the clean-up takes the channel
out and then unsets the flag. The four writes are in no common critical section, so those of two
connections of one cluster, and those of one connection that ends at once, can come in another order.
-/

namespace LitmusPortal.Connections

open DocumentStore

def isActive (clusters : List Cluster) (clusterID : String) : Bool :=
  (storedCluster clusters clusterID).any (·.isActive)

/-- The resolver has returned, and the goroutine, if there is one, waits for the end of the context
or is through. -/
def Session.Quiet (found : Session) : Prop :=
  (found.resolver = .connected ∨ ∃ err, found.resolver = .failed err) ∧
    (found.cleanUp = .unspawned ∨ (found.cleanUp = .waitDone ∧ found.cancelled = false) ∨
      found.cleanUp = .done)

def Quiescent (state : ServerState) : Prop :=
  ∀ session, ∀ found ∈ state.sessions session, found.Quiet

/-- An accepted connection whose context has not ended. -/
def Live (state : ServerState) (clusterID : String) (session : Nat) : Prop :=
  ∃ found ∈ state.sessions session, found.clusterInfo.clusterID = clusterID ∧
    found.cleanUp ≠ .unspawned ∧ found.cancelled = false

/-- The flag of a cluster says whether it is in the map, and what is in the map is its latest live
connection: it is live, and no other connection of the cluster is. -/
def FlagsAccurate (state : ServerState) : Prop :=
  ∀ clusterID,
    (isActive state.clusters clusterID = true ↔ (state.connectedCluster clusterID).isSome = true) ∧
      ∀ session ∈ state.connectedCluster clusterID, Live state clusterID session ∧
        ∀ other, Live state clusterID other → other = session

/-- Every quiescent state of a server that starts with no cluster active. -/
def FlagsFollowConnections : Prop :=
  ∀ version clusters, (∀ cluster ∈ clusters, cluster.isActive = false) → ∀ labels state,
    Transition.run (step version) (startState clusters) labels = some state →
    Quiescent state → FlagsAccurate state

/-- A clean-up of the cluster still has to unset the flag. -/
def UnsetPending (state : ServerState) (clusterID : String) : Prop :=
  ∃ session, ∃ found ∈ state.sessions session,
    found.clusterInfo.clusterID = clusterID ∧ found.cleanUp = .deactivate

/-- No update of the flag fails. A resolver sets the flag while the cluster is in the map or a
clean-up still has to unset the flag, and a clean-up unsets it while the cluster is not in the map or
its resolver still has to set the flag. -/
def SparesFlag (state : ServerState) : Label → Prop
  | .activate session _ fails => fails = false ∧ ∀ found ∈ state.sessions session,
      state.connectedCluster found.clusterInfo.clusterID = none →
        UnsetPending state found.clusterInfo.clusterID
  | .deactivate session _ fails => fails = false ∧ ∀ found ∈ state.sessions session,
      ∀ other ∈ state.connectedCluster found.clusterInfo.clusterID,
        ∀ connected ∈ state.sessions other, connected.resolver = .activate
  | _ => True

/-- Only a failing update of the flag ends a connection that is in the map with an error, and a
connection that is verified is of a cluster of the database. -/
structure Session.Admitted (clusters : List Cluster) (found : Session) : Prop where
  accepted : found.cleanUp ≠ .unspawned → ∀ err, found.resolver ≠ .failed err
  stored : found.resolver = .enter ∨ found.resolver = .activate →
    ∃ cluster, storedCluster clusters found.clusterInfo.clusterID = some cluster

/-- What a run whose steps spare the flag keeps. -/
structure FlagsKept (state : ServerState) : Prop where
  consistent : Consistent state
  set : ∀ clusterID, ∀ session ∈ state.connectedCluster clusterID,
    ∀ found ∈ state.sessions session, found.resolver ≠ .activate →
      isActive state.clusters clusterID = true
  unset : ∀ clusterID, state.connectedCluster clusterID = none →
    isActive state.clusters clusterID = true → UnsetPending state clusterID
  admitted : ∀ session, ∀ found ∈ state.sessions session, found.Admitted state.clusters

theorem isActive_setActive {clusters : List Cluster} {clusterID : String} {cluster : Cluster}
    (h : storedCluster clusters clusterID = some cluster) (version : String) (now : Int)
    (other : String) :
    isActive (updateFirst (ofCluster clusterID) (setActive version now) clusters) other =
      (decide (other = clusterID) || isActive clusters other) := by
  have hkeeps : ∀ cluster, (setActive version now cluster).clusterID = cluster.clusterID :=
    fun _ => rfl
  rw [isActive, storedCluster_updateFirst hkeeps]
  by_cases heq : other = clusterID
  · simp [heq, h, setActive]
  · simp [heq, isActive]

theorem isActive_setInactive (clusters : List Cluster) (clusterID : String) (now : Int)
    (other : String) :
    isActive (updateFirst (ofCluster clusterID) (setInactive now) clusters) other =
      (decide (other ≠ clusterID) && isActive clusters other) := by
  have hkeeps : ∀ cluster, (setInactive now cluster).clusterID = cluster.clusterID := fun _ => rfl
  rw [isActive, storedCluster_updateFirst hkeeps]
  by_cases heq : other = clusterID
  · cases hstored : storedCluster clusters clusterID <;> simp [heq, setInactive]
  · simp [heq, isActive]

theorem exists_storedCluster_updateFirst {clusters : List Cluster} {clusterID other : String}
    {update : Cluster → Cluster} (hkeeps : ∀ cluster, (update cluster).clusterID = cluster.clusterID)
    (h : ∃ cluster, storedCluster clusters other = some cluster) :
    ∃ cluster, storedCluster (updateFirst (ofCluster clusterID) update clusters) other =
      some cluster := by
  obtain ⟨cluster, hcluster⟩ := h
  rw [storedCluster_updateFirst hkeeps]
  by_cases heq : other = clusterID
  · subst heq
    simp [hcluster]
  · simp [heq, hcluster]

theorem Session.Admitted.updateFirst {clusters : List Cluster} {found : Session} {clusterID : String}
    {update : Cluster → Cluster} (h : found.Admitted clusters)
    (hkeeps : ∀ cluster, (update cluster).clusterID = cluster.clusterID) :
    found.Admitted (DocumentStore.updateFirst (ofCluster clusterID) update clusters) :=
  ⟨h.accepted, fun hresolver => exists_storedCluster_updateFirst hkeeps (h.stored hresolver)⟩

/-- In a quiescent state the kept facts are what the flags are for. -/
theorem FlagsKept.accurate {state : ServerState} (h : FlagsKept state) (hquiet : Quiescent state) :
    FlagsAccurate state := by
  have hunique : ∀ clusterID session other, state.connectedCluster clusterID = some session →
      Live state clusterID other → other = session := by
    rintro clusterID session other hentry ⟨found, hfound, hcluster, hspawned, hlive⟩
    have hwait : found.cleanUp = .waitDone := by
      rcases (h.consistent.wellFormed _ _ hfound).cancelled with hun | hwait | hcancelled
      · exact absurd hun hspawned
      · exact hwait
      · simp [hlive] at hcancelled
    have hother := (h.consistent.entry clusterID other).mpr ⟨found, hfound, hcluster, Or.inl hwait⟩
    exact Option.some.inj (hother.symm.trans hentry)
  intro clusterID
  cases hentry : state.connectedCluster clusterID with
  | none =>
      refine ⟨iff_of_false (fun hactive => ?_) (by simp), by simp⟩
      obtain ⟨session, found, hfound, -, hpending⟩ := h.unset clusterID hentry hactive
      have hcleanUp := (hquiet session found hfound).2
      simp [hpending] at hcleanUp
  | some session =>
      obtain ⟨found, hfound, hcluster, hmap⟩ := (h.consistent.entry clusterID session).mp hentry
      obtain ⟨hresolver, hcleanUp⟩ := hquiet session found hfound
      have hwait : found.cleanUp = .waitDone ∧ found.cancelled = false := by
        rcases hmap with hmap | hmap | hmap <;> simp_all
      have hspawned : found.cleanUp ≠ .unspawned := by simp [hwait.1]
      have hconnected : found.resolver = .connected := by
        refine hresolver.resolve_right ?_
        rintro ⟨err, herr⟩
        exact (h.admitted session found hfound).accepted hspawned err herr
      have hactive := h.set clusterID session hentry found hfound (by simp [hconnected])
      refine ⟨iff_of_true hactive rfl, ?_⟩
      rintro _ ⟨⟩
      exact ⟨⟨found, hfound, hcluster, hspawned, hwait.2⟩,
        fun other => hunique clusterID session other hentry⟩

theorem forall_setSession {state : ServerState} {P : Session → Prop} {session : Nat}
    {found : Session} (h : ∀ other, ∀ stored ∈ state.sessions other, P stored) (hfound : P found) :
    ∀ other, ∀ stored ∈ (setSession state session found).sessions other, P stored := by
  intro other stored hother
  by_cases heq : other = session
  · subst heq
    obtain rfl := Option.some.inj ((setSession_self ..).symm.trans hother)
    exact hfound
  · rw [setSession_of_ne state heq] at hother
    exact h other stored hother

theorem unsetPending_setSession {state : ServerState} {session : Nat} {found found' : Session}
    {clusterID : String} (h : UnsetPending state clusterID)
    (hfound : state.sessions session = some found)
    (hinfo : found'.clusterInfo = found.clusterInfo)
    (hunset : found.clusterInfo.clusterID = clusterID → found.cleanUp = .deactivate →
      found'.cleanUp = .deactivate) :
    UnsetPending (setSession state session found') clusterID := by
  obtain ⟨other, pending, hpending, hcluster, hcleanUp⟩ := h
  by_cases heq : other = session
  · subst heq
    obtain rfl := Option.some.inj (hfound.symm.trans hpending)
    exact ⟨other, found', setSession_self .., hinfo ▸ hcluster, hunset hcluster hcleanUp⟩
  · exact ⟨other, pending, (setSession_of_ne state heq _).trans hpending, hcluster, hcleanUp⟩

theorem FlagsKept.setSession {state : ServerState} (h : FlagsKept state) {session : Nat}
    {found found' : Session} (hconsistent : Consistent (setSession state session found'))
    (hfound : state.sessions session = some found)
    (hinfo : found'.clusterInfo = found.clusterInfo)
    (hset : found'.resolver ≠ .activate → found.resolver ≠ .activate)
    (hunset : found.cleanUp = .deactivate → found'.cleanUp = .deactivate)
    (hadmitted : found'.Admitted state.clusters) :
    FlagsKept (Connections.setSession state session found') := by
  refine ⟨hconsistent, ?_, ?_, forall_setSession h.admitted hadmitted⟩
  · intro clusterID other hentry stored hother hresolver
    by_cases heq : other = session
    · subst heq
      obtain rfl := Option.some.inj ((setSession_self ..).symm.trans hother)
      exact h.set clusterID other hentry found hfound (hset hresolver)
    · rw [setSession_of_ne state heq] at hother
      exact h.set clusterID other hentry stored hother hresolver
  · intro clusterID hentry hactive
    exact unsetPending_setSession (h.unset clusterID hentry hactive) hfound hinfo fun _ => hunset

theorem exists_storedCluster_of_verifyCluster {version : String} {fails : Bool}
    {clusters : List Cluster} {identity : ClusterIdentity} {cluster : Cluster}
    (h : verifyCluster version fails clusters identity = .ok cluster) :
    ∃ cluster, storedCluster clusters identity.clusterID = some cluster := by
  obtain ⟨hmem, hid, -, -⟩ := verifyCluster_ok h
  apply Option.isSome_iff_exists.mp
  rw [storedCluster, List.find?_isSome]
  exact ⟨cluster, hmem, by simpa [ofCluster] using hid⟩

/-- The step lemma. -/
theorem FlagsKept.step {version : String} {state state' : ServerState} {label : Label}
    (h : FlagsKept state) (hspares : SparesFlag state label)
    (hstep : step version state label = some state') : FlagsKept state' := by
  have hafter := h.consistent.step hstep
  cases move_of_step hstep with
  | @clusterConnect session clusterInfo hnew =>
      have hother : ∀ {other found}, state.sessions other = some found → other ≠ session := by
        rintro other found hfound rfl
        simp [hnew] at hfound
      refine ⟨hafter, ?_, ?_, forall_setSession h.admitted ⟨by simp [newSession],
        by simp [newSession]⟩⟩
      · intro clusterID other hentry stored hstored hresolver
        obtain ⟨entered, hentered, -⟩ := (h.consistent.entry clusterID other).mp hentry
        rw [setSession_of_ne state (hother hentered)] at hstored
        exact h.set clusterID other hentry stored hstored hresolver
      · intro clusterID hentry hactive
        obtain ⟨other, pending, hpending, hcluster⟩ := h.unset clusterID hentry hactive
        exact ⟨other, pending, (setSession_of_ne state (hother hpending) _).trans hpending, hcluster⟩
  | verifyFailed hfound hnext =>
      have hunspawned := (h.consistent.wellFormed _ _ hfound).unspawned (Or.inl hnext)
      exact h.setSession hafter hfound rfl (by simp [hnext]) id
        ⟨fun hspawned => absurd hunspawned hspawned, by simp [Session.fail]⟩
  | verified hfound hnext hverify =>
      exact h.setSession hafter hfound rfl (by simp [hnext]) id
        ⟨by simp, fun _ => exists_storedCluster_of_verifyCluster hverify⟩
  | refused hfound hnext =>
      have hunspawned := (h.consistent.wellFormed _ _ hfound).unspawned (Or.inr hnext)
      exact h.setSession hafter hfound rfl (by simp [hnext]) id
        ⟨fun hspawned => absurd hunspawned hspawned, by simp [Session.fail]⟩
  | @entered session found hfound hnext hfree hentry =>
      have hunspawned := (h.consistent.wellFormed _ _ hfound).unspawned (Or.inr hnext)
      have hstored := (h.admitted _ _ hfound).stored (Or.inl hnext)
      refine ⟨hafter, ?_, ?_, forall_setSession h.admitted ⟨by simp, fun _ => hstored⟩⟩
      · intro clusterID other hother stored hstored hresolver
        dsimp only at hother hstored ⊢
        by_cases heq : other = session
        · subst heq
          obtain rfl := Option.some.inj ((setSession_self ..).symm.trans hstored)
          simp at hresolver
        · rw [setSession_of_ne state heq] at hstored
          by_cases hcluster : clusterID = found.clusterInfo.clusterID
          · rw [hcluster, Function.update_self] at hother
            exact absurd (Option.some.inj hother).symm heq
          · rw [Function.update_of_ne hcluster] at hother
            exact h.set clusterID other hother stored hstored hresolver
      · intro clusterID hother hactive
        dsimp only at hother hactive
        by_cases hcluster : clusterID = found.clusterInfo.clusterID
        · rw [hcluster, Function.update_self] at hother
          cases hother
        · rw [Function.update_of_ne hcluster] at hother
          exact unsetPending_setSession (h.unset clusterID hother hactive) hfound rfl
            (by simp [hunspawned])
  | activateFailed => exact absurd hspares.1 (by simp)
  | @activated session now found hfound hnext =>
      obtain ⟨cluster, hstored⟩ := (h.admitted _ _ hfound).stored (Or.inr hnext)
      have hactive := isActive_setActive hstored found.clusterInfo.version now
      refine ⟨hafter, ?_, ?_, ?_⟩
      · intro clusterID other hentry stored hother hresolver
        rw [hactive]
        by_cases hcluster : clusterID = found.clusterInfo.clusterID
        · simp [hcluster]
        · have hne : other ≠ session := by
            rintro rfl
            obtain ⟨entered, hentered, hid, -⟩ := (h.consistent.entry clusterID other).mp hentry
            obtain rfl := Option.some.inj (hfound.symm.trans hentered)
            exact hcluster hid.symm
          dsimp only at hother
          rw [setSession_of_ne state hne] at hother
          simp [h.set clusterID other hentry stored hother hresolver]
      · intro clusterID hentry hset
        have hpending : UnsetPending state clusterID := by
          by_cases hcluster : clusterID = found.clusterInfo.clusterID
          · subst hcluster
            exact hspares.2 found hfound hentry
          · rw [hactive] at hset
            exact h.unset clusterID hentry (by simpa [hcluster] using hset)
        exact unsetPending_setSession hpending hfound rfl fun _ => id
      · exact forall_setSession (fun other stored hother =>
          (h.admitted other stored hother).updateFirst fun _ => rfl) ⟨by simp, by simp⟩
  | announced hfound hnext =>
      exact h.setSession hafter hfound rfl (by simp [hnext]) id ⟨by simp, by simp⟩
  | cancelled hfound =>
      have hadmitted := h.admitted _ _ hfound
      exact h.setSession hafter hfound rfl id id ⟨hadmitted.accepted, hadmitted.stored⟩
  | woken hfound hnext =>
      have hadmitted := h.admitted _ _ hfound
      exact h.setSession hafter hfound rfl id (by simp [hnext])
        ⟨fun _ => hadmitted.accepted (by simp [hnext]), hadmitted.stored⟩
  | announcedOffline hfound hnext =>
      have hadmitted := h.admitted _ _ hfound
      exact h.setSession hafter hfound rfl id (by simp [hnext])
        ⟨fun _ => hadmitted.accepted (by simp [hnext]), hadmitted.stored⟩
  | @removed session found hfound hnext =>
      have hadmitted := h.admitted _ _ hfound
      refine ⟨hafter, ?_, ?_, forall_setSession h.admitted
        ⟨fun _ => hadmitted.accepted (by simp [hnext]), hadmitted.stored⟩⟩
      · intro clusterID other hentry stored hother hresolver
        dsimp only at hentry hother ⊢
        by_cases hcluster : clusterID = found.clusterInfo.clusterID
        · simp [hcluster] at hentry
        · rw [Function.update_of_ne hcluster] at hentry
          by_cases heq : other = session
          · subst heq
            obtain rfl := Option.some.inj ((setSession_self ..).symm.trans hother)
            exact h.set clusterID other hentry found hfound hresolver
          · rw [setSession_of_ne state heq] at hother
            exact h.set clusterID other hentry stored hother hresolver
      · intro clusterID hentry hactive
        dsimp only at hentry hactive
        by_cases hcluster : clusterID = found.clusterInfo.clusterID
        · exact ⟨session, _, setSession_self .., hcluster.symm, rfl⟩
        · rw [Function.update_of_ne hcluster] at hentry
          exact unsetPending_setSession (h.unset clusterID hentry hactive) hfound rfl
            fun hid => absurd hid.symm hcluster
  | @deactivated session now fails found hfound hnext =>
      have hadmitted := h.admitted _ _ hfound
      obtain ⟨rfl, hspares⟩ := hspares
      have hactive := isActive_setInactive state.clusters found.clusterInfo.clusterID now
      refine ⟨hafter, ?_, ?_, ?_⟩
      · intro clusterID other hentry stored hother hresolver
        obtain ⟨entered, hentered, hid, hmap⟩ := (h.consistent.entry clusterID other).mp hentry
        have hne : other ≠ session := by
          rintro rfl
          obtain rfl := Option.some.inj (hfound.symm.trans hentered)
          simp [Session.InMap, hnext] at hmap
        dsimp only at hother hentry ⊢
        rw [setSession_of_ne state hne] at hother
        by_cases hcluster : clusterID = found.clusterInfo.clusterID
        · subst hcluster
          exact absurd (hspares found hfound other hentry stored hother) hresolver
        · rw [updateCluster_succeeds, hactive]
          simp [hcluster, h.set clusterID other hentry stored hother hresolver]
      · intro clusterID hentry hset
        rw [updateCluster_succeeds, hactive] at hset
        obtain ⟨hcluster, hset⟩ := Bool.and_eq_true_iff.mp hset
        exact unsetPending_setSession (h.unset clusterID hentry hset) hfound rfl
          fun hid => absurd hid.symm (by simpa using hcluster)
      · exact forall_setSession (fun other stored hother =>
          (h.admitted other stored hother).updateFirst fun _ => rfl)
          ⟨fun _ => hadmitted.accepted (by simp [hnext]), fun hresolver =>
            exists_storedCluster_updateFirst (fun _ => rfl) (hadmitted.stored hresolver)⟩
  | received hfound =>
      have hadmitted := h.admitted _ _ hfound
      exact h.setSession hafter hfound rfl id id ⟨hadmitted.accepted, hadmitted.stored⟩
  | left hfound =>
      have hadmitted := h.admitted _ _ hfound
      exact h.setSession hafter hfound rfl id id ⟨hadmitted.accepted, hadmitted.stored⟩
  | notConnected => exact h
  | held => exact ⟨hafter, h.set, h.unset, h.admitted⟩
  | @sent session action found channel hsending hfound =>
      have hadmitted := h.admitted _ _ hfound
      have hset : FlagsKept (Connections.setSession state session { found with channel := channel }) :=
        h.setSession ⟨hafter.wellFormed, hafter.entry⟩ hfound rfl id id
          ⟨hadmitted.accepted, hadmitted.stored⟩
      exact ⟨hafter, hset.set, hset.unset, hset.admitted⟩

theorem flagsKept_startState {clusters : List Cluster}
    (h : ∀ cluster ∈ clusters, cluster.isActive = false) : FlagsKept (startState clusters) := by
  refine ⟨consistent_startState clusters, by simp [startState], ?_, by simp [startState]⟩
  intro clusterID hentry hactive
  obtain ⟨cluster, hcluster, hset⟩ := (Option.any_eq_true _ _).mp hactive
  simp [h cluster (List.mem_of_find?_eq_some hcluster)] at hset

/-- In every run whose steps spare the flag, the flags are accurate in every quiescent state. -/
theorem flagsAccurate_of_sparesFlag {version : String} {clusters : List Cluster}
    {labels : List Label} {state : ServerState}
    (hclusters : ∀ cluster ∈ clusters, cluster.isActive = false)
    (hspares : Transition.Meets (step version) SparesFlag (startState clusters) labels)
    (hrun : Transition.run (step version) (startState clusters) labels = some state)
    (hquiet : Quiescent state) : FlagsAccurate state := by
  have hkept : FlagsKept state := Transition.run_invariant
    (fun _ _ _ hkept hspares => hkept.step hspares) (flagsKept_startState hclusters) hspares hrun
  exact hkept.accurate hquiet

/-! ### A connection that is followed by another -/

def connects (session : Nat) : List Label :=
  [.clusterConnect session sampleAgent, .verify session false, .enter session,
    .activate session 0 false, .announce session]

def disconnects (session : Nat) : List Label :=
  [.cancel session, .wake session, .announceOffline session, .remove session]

/-- The agent connects and goes. -/
theorem flagsAccurate_of_sparesFlag_disconnected :
    ∃ state, Transition.run (step "2.6.0") (startState [sampleCluster])
        (connects 0 ++ disconnects 0 ++ [.deactivate 0 0 false]) = some state ∧
      FlagsAccurate state := by
  have hsome : (Transition.run (step "2.6.0") (startState [sampleCluster])
      (connects 0 ++ disconnects 0 ++ [.deactivate 0 0 false])).isSome = true := by decide
  obtain ⟨state, hrun⟩ := Option.isSome_iff_exists.mp hsome
  refine ⟨state, hrun, flagsAccurate_of_sparesFlag (by decide) ?_ hrun ?_⟩
  · refine ⟨trivial, trivial, trivial, ⟨rfl, fun found hfound hnone => ?_⟩, trivial, trivial, trivial,
      trivial, trivial, ⟨rfl, fun found hfound other hother => ?_⟩, trivial⟩
    · obtain rfl := Option.some.inj hfound
      cases (show some 0 = none from hnone)
    · obtain rfl := Option.some.inj hfound
      cases (show none = some other from hother)
  · obtain rfl := Option.some.inj hrun
    intro session found hfound
    match session with
    | 0 =>
        obtain rfl := Option.some.inj hfound
        exact ⟨Or.inl rfl, Or.inr (Or.inr rfl)⟩
    | n + 1 => cases (show none = some found from hfound)

/-- The second connection is accepted once the first has left the map, and the clean-up of the first
unsets the flag when the resolver of the second has set it. -/
theorem not_flagsFollowConnections : ¬ FlagsFollowConnections := by
  intro hclaim
  let labels := connects 0 ++ disconnects 0 ++ connects 1 ++ [.deactivate 0 0 false]
  have hsome : (Transition.run (step "2.6.0") (startState [sampleCluster]) labels).isSome = true := by
    decide
  obtain ⟨state, hrun⟩ := Option.isSome_iff_exists.mp hsome
  have hquiet : Quiescent state := by
    obtain rfl := Option.some.inj hrun
    intro session found hfound
    match session with
    | 0 =>
        obtain rfl := Option.some.inj hfound
        exact ⟨Or.inl rfl, Or.inr (Or.inr rfl)⟩
    | 1 =>
        obtain rfl := Option.some.inj hfound
        exact ⟨Or.inl rfl, Or.inr (Or.inl ⟨rfl, rfl⟩)⟩
    | n + 2 => cases (show none = some found from hfound)
  have haccurate := (hclaim "2.6.0" [sampleCluster] (by decide) labels state hrun hquiet
    "cluster-1").1
  obtain rfl := Option.some.inj hrun
  exact absurd (haccurate.mpr (by decide)) (by decide)

end LitmusPortal.Connections
