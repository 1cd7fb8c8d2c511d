import LitmusPortal.Cluster.Registration

/-!
# Concurrent confirmations of one cluster

`ConfirmClusterRegistration` as the steps of concurrent calls: the version check, the read of the
document, the check of the key, the update. The state also records, for the statements only, which key
each successful call presented and returned, and every key there has been.
-/

namespace LitmusPortal.Confirmations

open DocumentStore

inductive Phase where
  | read
  | check (cluster : Cluster)
  | update (cluster : Cluster) (newKey : String)
  | answered (answer : Except GoError ConfirmClusterRegistrationResponse)

structure Call where
  request : ClusterIdentity
  phase : Phase

structure Success where
  presented : String
  returned : String
  deriving DecidableEq, Repr

structure ConfirmState where
  clusters : List Cluster
  calls : Nat → Option Call
  successes : List Success
  keys : List String

inductive Label where
  | confirmClusterRegistration (call : Nat) (request : ClusterIdentity)
  | getCluster (call : Nat) (fails : Bool)
  | check (call : Nat) (newKey : String)
  | update (call : Nat) (now : Int) (fails : Bool)

def storedKey (clusters : List Cluster) (clusterID : String) : Option String :=
  (storedCluster clusters clusterID).map fun cluster => cluster.accessKey

def ConfirmState.presented (state : ConfirmState) : List String :=
  state.successes.map fun success => success.presented

def startState (clusterID : String) (clusters : List Cluster) : ConfirmState :=
  ⟨clusters, fun _ => none, [], (storedKey clusters clusterID).toList⟩

def setCall (state : ConfirmState) (call : Nat) (found : Call) : ConfirmState :=
  { state with calls := Function.update state.calls call (some found) }

def beginCall (version : String) (request : ClusterIdentity) : Call :=
  match checkConfirmVersion version request.version with
  | .error err => ⟨request, .answered (.error err)⟩
  | .ok _ => ⟨request, .read⟩

def stepGetCluster (fails : Bool) (clusters : List Cluster) (found : Call) : Option Call :=
  match found.phase with
  | .read =>
      match getCluster fails clusters found.request.clusterID with
      | .error err => some { found with phase := .answered (.error err) }
      | .ok cluster => some { found with phase := .check cluster }
  | _ => none

/-- The new key is drawn when the presented one fits. -/
def stepCheck (newKey : String) (call : Nat) (found : Call) (state : ConfirmState) :
    Option ConfirmState :=
  match found.phase with
  | .check cluster =>
      if cluster.accessKey = found.request.accessKey then
        some { setCall state call { found with phase := .update cluster newKey } with
          keys := newKey :: state.keys }
      else some (setCall state call { found with phase := .answered (.ok notConfirmed) })
  | _ => none

def stepUpdate (now : Int) (fails : Bool) (call : Nat) (found : Call) (state : ConfirmState) :
    Option ConfirmState :=
  match found.phase with
  | .update cluster newKey =>
      match updateCluster fails state.clusters (ofCluster found.request.clusterID)
          (confirm newKey now) with
      | (.error err, clusters) =>
          some { setCall state call { found with phase := .answered (.error err) } with
            clusters := clusters }
      | (.ok _, clusters) =>
          some { setCall state call { found with
              phase := .answered (.ok ⟨true, some newKey, some cluster.clusterID⟩) } with
            clusters := clusters
            successes := ⟨found.request.accessKey, newKey⟩ :: state.successes }
  | _ => none

/-- All calls are for the one cluster. -/
def step (version clusterID : String) (state : ConfirmState) (label : Label) : Option ConfirmState :=
  match label with
  | .confirmClusterRegistration call request =>
      if state.calls call = none ∧ request.clusterID = clusterID then
        some (setCall state call (beginCall version request))
      else none
  | .getCluster call fails => (state.calls call).bind fun found =>
      (stepGetCluster fails state.clusters found).map (setCall state call)
  | .check call newKey => (state.calls call).bind fun found => stepCheck newKey call found state
  | .update call now fails => (state.calls call).bind fun found => stepUpdate now fails call found state

theorem run_undisturbed {version : String} {state : ConfirmState} {call : Nat}
    {request : ClusterIdentity} {steps : ConfirmSteps} {cluster : Cluster}
    (hnew : state.calls call = none)
    (hstored : storedCluster state.clusters request.clusterID = some cluster)
    (hconfirms : Confirms version steps cluster request) :
    ∃ next, Transition.run (step version request.clusterID) state
        [.confirmClusterRegistration call request, .getCluster call steps.getFails,
          .check call steps.newKey, .update call steps.now steps.updateFails] = some next ∧
      next.calls call = some ⟨request, .answered
        (confirmClusterRegistration version steps state.clusters request).1⟩ ∧
      next.clusters = (confirmClusterRegistration version steps state.clusters request).2 := by
  rw [confirmClusterRegistration_of_confirms hstored hconfirms]
  obtain ⟨hversion, hget, hupdate, hkey⟩ := hconfirms
  simp [step, hnew, beginCall, checkConfirmVersion, hversion, setCall, stepGetCluster, hget,
    getCluster_eq, hstored, stepCheck, hkey, stepUpdate, hupdate]

/-! ### What a step does -/

/-- The key a call found in the document and has not acted on. -/
def Call.readKey (found : Call) : Option String :=
  match found.phase with
  | .check cluster => some cluster.accessKey
  | .update cluster _ => some cluster.accessKey
  | _ => none

/-- The key a call is about to store. -/
def Call.drawn (found : Call) : Option String :=
  match found.phase with
  | .update _ newKey => some newKey
  | _ => none

/-- A call acts only on the key it presents, and all calls are for the one cluster. -/
structure Call.WellFormed (clusterID : String) (found : Call) : Prop where
  cluster : found.request.clusterID = clusterID
  presents : ∀ key, found.drawn ≠ none → found.readKey = some key → found.request.accessKey = key

/-- The steps by what they do to the keys. -/
inductive Move (clusterID : String) (state : ConfirmState) : Label → ConfirmState → Prop
  | idle {label : Label} {call : Nat} {found : Call} (hwf : found.WellFormed clusterID)
      (hlabel : ∀ call now, label ≠ .update call now false) (hread : found.readKey = none)
      (hdrawn : found.drawn = none) :
      Move clusterID state label (setCall state call found)
  | read {call : Nat} {fails : Bool} {found : Call} {cluster : Cluster}
      (hwf : found.WellFormed clusterID) (hdrawn : found.drawn = none)
      (hread : found.readKey = some cluster.accessKey)
      (hstored : storedCluster state.clusters clusterID = some cluster) :
      Move clusterID state (.getCluster call fails) (setCall state call found)
  | draw {call : Nat} {newKey : String} {before found : Call} (hwf : found.WellFormed clusterID)
      (hbefore : state.calls call = some before) (hread : found.readKey = before.readKey)
      (hdrawn : found.drawn = some newKey) :
      Move clusterID state (.check call newKey)
        { setCall state call found with keys := newKey :: state.keys }
  | confirmed {call : Nat} {now : Int} {before found : Call} {newKey : String}
      (hwf : found.WellFormed clusterID) (hbefore : state.calls call = some before)
      (hkey : before.readKey = some before.request.accessKey) (hdrawn : before.drawn = some newKey)
      (hread : found.readKey = none) (hnone : found.drawn = none) :
      Move clusterID state (.update call now false)
        { setCall state call found with
          clusters := updateFirst (ofCluster clusterID) (confirm newKey now) state.clusters
          successes := ⟨before.request.accessKey, newKey⟩ :: state.successes }

theorem move_of_step {version clusterID : String} {state next : ConfirmState} {label : Label}
    (hwf : ∀ call found, state.calls call = some found → found.WellFormed clusterID)
    (h : step version clusterID state label = some next) : Move clusterID state label next := by
  cases label with
  | confirmClusterRegistration call request =>
      simp only [step] at h
      split at h
      · rename_i hnew
        obtain rfl := Option.some.inj h
        unfold beginCall
        split
        · exact .idle ⟨hnew.2, by simp [Call.drawn]⟩ (by simp) rfl rfl
        · exact .idle ⟨hnew.2, by simp [Call.drawn]⟩ (by simp) rfl rfl
      · cases h
  | getCluster call fails =>
      obtain ⟨found, hfound, h⟩ := Option.bind_eq_some_iff.mp h
      obtain ⟨after, hafter, rfl⟩ := Option.map_eq_some_iff.mp h
      have hcluster := (hwf call found hfound).cluster
      unfold stepGetCluster at hafter
      split at hafter
      · split at hafter
        · obtain rfl := Option.some.inj hafter
          exact .idle ⟨hcluster, by simp [Call.drawn]⟩ (by simp) rfl rfl
        · rename_i cluster hget
          obtain rfl := Option.some.inj hafter
          have hstored : storedCluster state.clusters clusterID = some cluster := by
            cases fails with
            | true => simp [getCluster] at hget
            | false =>
                rw [getCluster_eq, hcluster] at hget
                split at hget
                · rename_i stored hstored
                  obtain rfl := Except.ok.inj hget
                  exact hstored
                · cases hget
          exact .read ⟨hcluster, by simp [Call.drawn]⟩ rfl rfl hstored
      · cases hafter
  | check call newKey =>
      obtain ⟨found, hfound, h⟩ := Option.bind_eq_some_iff.mp h
      have hcluster := (hwf call found hfound).cluster
      unfold stepCheck at h
      split at h
      · rename_i cluster hphase
        split at h
        · rename_i hkey
          obtain rfl := Option.some.inj h
          refine .draw ⟨hcluster, fun key _ hread => ?_⟩ hfound (by simp [Call.readKey, hphase]) rfl
          rw [← Option.some.inj hread]
          exact hkey.symm
        · obtain rfl := Option.some.inj h
          exact .idle ⟨hcluster, by simp [Call.drawn]⟩ (by simp) rfl rfl
      · cases h
  | update call now fails =>
      obtain ⟨found, hfound, h⟩ := Option.bind_eq_some_iff.mp h
      have hcall := hwf call found hfound
      have hcluster := hcall.cluster
      unfold stepUpdate at h
      split at h
      · rename_i cluster newKey hphase
        cases fails with
        | true =>
            obtain rfl := Option.some.inj h
            exact .idle ⟨hcluster, by simp [Call.drawn]⟩ (by simp) rfl rfl
        | false =>
            obtain rfl := Option.some.inj h
            have hread : found.readKey = some cluster.accessKey := by simp [Call.readKey, hphase]
            have hkey := hcall.presents cluster.accessKey (by simp [Call.drawn, hphase]) hread
            rw [hcluster]
            exact .confirmed ⟨hcluster, by simp [Call.drawn]⟩ hfound (by rw [hread, hkey])
              (by simp [Call.drawn, hphase]) rfl rfl
      · cases h

/-! ### The handshake -/

/-- No key has been accepted twice, and the one returned last is stored and lets its agent in. -/
structure HandshakeSafe (version clusterID : String) (state : ConfirmState) : Prop where
  once : state.presented.Nodup
  newest : ∀ success ∈ state.successes.head?,
    storedKey state.clusters clusterID = some success.returned ∧
      ∃ cluster, verifyCluster version false state.clusters ⟨clusterID, success.returned, version⟩ =
        .ok cluster

/-- `RandomString` does not repeat a key. -/
def FreshKey (state : ConfirmState) : Label → Prop
  | .check _ newKey => newKey ∉ state.keys
  | _ => True

instance (state : ConfirmState) (label : Label) : Decidable (FreshKey state label) := by
  unfold FreshKey
  split <;> infer_instance

def HandshakeAlwaysSafe : Prop :=
  ∀ (version clusterID : String) (clusters : List Cluster) (labels : List Label)
    (state : ConfirmState),
    Transition.Meets (step version clusterID) FreshKey (startState clusterID clusters) labels →
    Transition.run (step version clusterID) (startState clusterID clusters) labels = some state →
    HandshakeSafe version clusterID state

/-- The update replaces the key its call has read, and the version of the server is one that
`VerifyCluster` accepts from an agent. -/
def ReplacesReadKey (version clusterID : String) (state : ConfirmState) : Label → Prop
  | .update call _ false => ∀ found, state.calls call = some found →
      storedKey state.clusters clusterID = found.readKey ∧ checkVersion version version = .ok ()
  | _ => True

/-- A call holds a key that is stored or has been accepted already, and no key that is stored or about
to be stored has been accepted. -/
structure Orderly (version clusterID : String) (state : ConfirmState) : Prop where
  wellFormed : ∀ call found, state.calls call = some found → found.WellFormed clusterID
  safe : HandshakeSafe version clusterID state
  read : ∀ call found key, state.calls call = some found → found.readKey = some key →
    storedKey state.clusters clusterID = some key ∨ key ∈ state.presented
  stored : ∀ key, storedKey state.clusters clusterID = some key → key ∉ state.presented
  drawn : ∀ call found key, state.calls call = some found → found.drawn = some key →
    key ∉ state.presented ∧ storedKey state.clusters clusterID ≠ some key
  drawnOnce : ∀ call call' found found' key, state.calls call = some found →
    state.calls call' = some found' → found.drawn = some key → found'.drawn = some key → call = call'
  storedKnown : ∀ key, storedKey state.clusters clusterID = some key → key ∈ state.keys
  presentedKnown : ∀ key ∈ state.presented, key ∈ state.keys
  drawnKnown : ∀ call found key, state.calls call = some found → found.drawn = some key →
    key ∈ state.keys

theorem orderly_startState (version clusterID : String) (clusters : List Cluster) :
    Orderly version clusterID (startState clusterID clusters) where
  wellFormed := by simp [startState]
  safe := ⟨List.nodup_nil, by simp [startState]⟩
  read := by simp [startState]
  stored := by simp [startState, ConfirmState.presented]
  drawn := by simp [startState]
  drawnOnce := by simp [startState]
  storedKnown := by simp [startState]
  presentedKnown := by simp [startState, ConfirmState.presented]
  drawnKnown := by simp [startState]

theorem calls_setCall {state : ConfirmState} {call other : Nat} {found found' : Call}
    (h : Function.update state.calls call (some found) other = some found') :
    other = call ∧ found' = found ∨ other ≠ call ∧ state.calls other = some found' := by
  by_cases hother : other = call
  · subst hother
    exact Or.inl ⟨rfl, by simpa using h.symm⟩
  · exact Or.inr ⟨hother, by simpa [hother] using h⟩

theorem storedKey_confirm (clusters : List Cluster) (clusterID newKey : String) (now : Int) :
    storedKey (updateFirst (ofCluster clusterID) (confirm newKey now) clusters) clusterID =
      (storedKey clusters clusterID).map fun _ => newKey := by
  have hkeeps : ∀ cluster, (confirm newKey now cluster).clusterID = cluster.clusterID := fun _ => rfl
  rw [storedKey, storedKey, storedCluster_updateFirst hkeeps, if_pos rfl, Option.map_map,
    Option.map_map]
  rfl

namespace Orderly

variable {version clusterID : String} {state : ConfirmState} {call : Nat} {found : Call}

theorem setCall (h : Orderly version clusterID state) (hwf : found.WellFormed clusterID)
    (hdrawn : found.drawn = none)
    (hread : ∀ key, found.readKey = some key → storedKey state.clusters clusterID = some key) :
    Orderly version clusterID (setCall state call found) where
  wellFormed other found' hother := by
    rcases calls_setCall hother with ⟨rfl, rfl⟩ | ⟨-, hold⟩
    · exact hwf
    · exact h.wellFormed other found' hold
  safe := ⟨h.safe.once, h.safe.newest⟩
  read other found' key hother hkey := by
    rcases calls_setCall hother with ⟨rfl, rfl⟩ | ⟨-, hold⟩
    · exact Or.inl (hread key hkey)
    · exact h.read other found' key hold hkey
  stored := h.stored
  drawn other found' key hother hkey := by
    rcases calls_setCall hother with ⟨rfl, rfl⟩ | ⟨-, hold⟩
    · cases hdrawn.symm.trans hkey
    · exact h.drawn other found' key hold hkey
  drawnOnce other other' found' found'' key hother hother' hkey hkey' := by
    rcases calls_setCall hother with ⟨rfl, rfl⟩ | ⟨-, hold⟩
    · cases hdrawn.symm.trans hkey
    · rcases calls_setCall hother' with ⟨rfl, rfl⟩ | ⟨-, hold'⟩
      · cases hdrawn.symm.trans hkey'
      · exact h.drawnOnce other other' found' found'' key hold hold' hkey hkey'
  storedKnown := h.storedKnown
  presentedKnown := h.presentedKnown
  drawnKnown other found' key hother hkey := by
    rcases calls_setCall hother with ⟨rfl, rfl⟩ | ⟨-, hold⟩
    · cases hdrawn.symm.trans hkey
    · exact h.drawnKnown other found' key hold hkey

theorem draw (h : Orderly version clusterID state) {newKey : String} {before : Call}
    (hwf : found.WellFormed clusterID) (hbefore : state.calls call = some before)
    (hread : found.readKey = before.readKey) (hdrawn : found.drawn = some newKey)
    (hfresh : newKey ∉ state.keys) :
    Orderly version clusterID
      { Confirmations.setCall state call found with keys := newKey :: state.keys } where
  wellFormed other found' hother := by
    rcases calls_setCall hother with ⟨rfl, rfl⟩ | ⟨-, hold⟩
    · exact hwf
    · exact h.wellFormed other found' hold
  safe := ⟨h.safe.once, h.safe.newest⟩
  read other found' key hother hkey := by
    rcases calls_setCall hother with ⟨rfl, rfl⟩ | ⟨-, hold⟩
    · exact h.read other before key hbefore (hread ▸ hkey)
    · exact h.read other found' key hold hkey
  stored := h.stored
  drawn other found' key hother hkey := by
    rcases calls_setCall hother with ⟨rfl, rfl⟩ | ⟨-, hold⟩
    · obtain rfl := Option.some.inj (hdrawn.symm.trans hkey)
      exact ⟨fun hmem => hfresh (h.presentedKnown _ hmem),
        fun hstored => hfresh (h.storedKnown _ hstored)⟩
    · exact h.drawn other found' key hold hkey
  drawnOnce other other' found' found'' key hother hother' hkey hkey' := by
    rcases calls_setCall hother with ⟨rfl, rfl⟩ | ⟨-, hold⟩
    · rcases calls_setCall hother' with ⟨rfl, rfl⟩ | ⟨-, hold'⟩
      · rfl
      · obtain rfl := Option.some.inj (hdrawn.symm.trans hkey)
        exact absurd (h.drawnKnown other' found'' _ hold' hkey') hfresh
    · rcases calls_setCall hother' with ⟨rfl, rfl⟩ | ⟨-, hold'⟩
      · obtain rfl := Option.some.inj (hdrawn.symm.trans hkey')
        exact absurd (h.drawnKnown other found' _ hold hkey) hfresh
      · exact h.drawnOnce other other' found' found'' key hold hold' hkey hkey'
  storedKnown key hkey := List.mem_cons_of_mem _ (h.storedKnown key hkey)
  presentedKnown key hkey := List.mem_cons_of_mem _ (h.presentedKnown key hkey)
  drawnKnown other found' key hother hkey := by
    rcases calls_setCall hother with ⟨rfl, rfl⟩ | ⟨-, hold⟩
    · obtain rfl := Option.some.inj (hdrawn.symm.trans hkey)
      exact List.mem_cons_self
    · exact List.mem_cons_of_mem _ (h.drawnKnown other found' key hold hkey)

theorem confirmed (h : Orderly version clusterID state) {newKey : String} {before : Call}
    {now : Int} (hwf : found.WellFormed clusterID) (hbefore : state.calls call = some before)
    (hkey : before.readKey = some before.request.accessKey) (hdrawn : before.drawn = some newKey)
    (hread : found.readKey = none) (hnone : found.drawn = none)
    (hstored : storedKey state.clusters clusterID = before.readKey)
    (hversion : checkVersion version version = .ok ()) :
    Orderly version clusterID { Confirmations.setCall state call found with
      clusters := updateFirst (ofCluster clusterID) (confirm newKey now) state.clusters
      successes := ⟨before.request.accessKey, newKey⟩ :: state.successes } := by
  have hold : storedKey state.clusters clusterID = some before.request.accessKey := hstored.trans hkey
  have hnew : storedKey (updateFirst (ofCluster clusterID) (confirm newKey now) state.clusters)
      clusterID = some newKey := by
    rw [storedKey_confirm, hold]
    rfl
  obtain ⟨cluster, hcluster, -⟩ := Option.map_eq_some_iff.mp hold
  obtain ⟨hunused, hother⟩ := h.drawn call before newKey hbefore hdrawn
  have hne : newKey ≠ before.request.accessKey := fun heq => hother (heq ▸ hold)
  constructor
  case wellFormed =>
    intro other found' hcall
    rcases calls_setCall hcall with ⟨rfl, rfl⟩ | ⟨-, hcall⟩
    · exact hwf
    · exact h.wellFormed other found' hcall
  case safe =>
    refine ⟨List.nodup_cons.mpr ⟨h.stored _ hold, h.safe.once⟩, ?_⟩
    rintro success hsuccess
    obtain rfl := Option.some.inj hsuccess
    exact ⟨hnew, (verifyCluster_confirm hcluster).mpr hversion⟩
  case read =>
    intro other found' key hcall hfound'
    rcases calls_setCall hcall with ⟨rfl, rfl⟩ | ⟨-, hcall⟩
    · cases hread.symm.trans hfound'
    · right
      rcases h.read other found' key hcall hfound' with hkept | hmem
      · obtain rfl := Option.some.inj (hold.symm.trans hkept)
        exact List.mem_cons_self
      · exact List.mem_cons_of_mem _ hmem
  case stored =>
    intro key hkey'
    obtain rfl := Option.some.inj (hnew.symm.trans hkey')
    exact fun hmem => (List.mem_cons.mp hmem).elim hne hunused
  case drawn =>
    intro other found' key hcall hfound'
    rcases calls_setCall hcall with ⟨rfl, rfl⟩ | ⟨hcalls, hcall⟩
    · cases hnone.symm.trans hfound'
    · obtain ⟨hnot, hnotStored⟩ := h.drawn other found' key hcall hfound'
      refine ⟨fun hmem => (List.mem_cons.mp hmem).elim (fun heq => ?_) hnot, fun heq => ?_⟩
      · exact hnotStored (heq ▸ hold)
      · obtain rfl := Option.some.inj (hnew.symm.trans heq)
        exact hcalls (h.drawnOnce other call found' before _ hcall hbefore hfound' hdrawn)
  case drawnOnce =>
    intro other other' found' found'' key hcall hcall' hfound' hfound''
    rcases calls_setCall hcall with ⟨rfl, rfl⟩ | ⟨-, hcall⟩
    · cases hnone.symm.trans hfound'
    · rcases calls_setCall hcall' with ⟨rfl, rfl⟩ | ⟨-, hcall'⟩
      · cases hnone.symm.trans hfound''
      · exact h.drawnOnce other other' found' found'' key hcall hcall' hfound' hfound''
  case storedKnown =>
    intro key hkey'
    obtain rfl := Option.some.inj (hnew.symm.trans hkey')
    exact h.drawnKnown call before _ hbefore hdrawn
  case presentedKnown =>
    intro key hmem
    rcases List.mem_cons.mp hmem with rfl | hmem
    · exact h.storedKnown _ hold
    · exact h.presentedKnown key hmem
  case drawnKnown =>
    intro other found' key hcall hfound'
    rcases calls_setCall hcall with ⟨rfl, rfl⟩ | ⟨-, hcall⟩
    · cases hnone.symm.trans hfound'
    · exact h.drawnKnown other found' key hcall hfound'

/-- A step that replaces the key it has read, if it replaces one, keeps the order. -/
theorem step (h : Orderly version clusterID state) {label : Label} {next : ConfirmState}
    (hfresh : FreshKey state label) (hreplaces : ReplacesReadKey version clusterID state label)
    (hstep : step version clusterID state label = some next) : Orderly version clusterID next := by
  cases move_of_step h.wellFormed hstep with
  | idle hwf hlabel hread hdrawn => exact h.setCall hwf hdrawn (by simp [hread])
  | read hwf hdrawn hread hstored =>
      refine h.setCall hwf hdrawn fun key hkey => ?_
      rw [storedKey, hstored, ← hkey, hread]
      rfl
  | draw hwf hbefore hread hdrawn => exact h.draw hwf hbefore hread hdrawn hfresh
  | confirmed hwf hbefore hkey hdrawn hread hnone =>
      obtain ⟨hstored, hversion⟩ := hreplaces _ hbefore
      exact h.confirmed hwf hbefore hkey hdrawn hread hnone hstored hversion

/-- Any other step accepts a key for the second time, or stores a key that lets nobody in. -/
theorem not_safe_of_step (h : Orderly version clusterID state) {label : Label}
    {next : ConfirmState} (hreplaces : ¬ ReplacesReadKey version clusterID state label)
    (hstep : Confirmations.step version clusterID state label = some next) :
    ¬ HandshakeSafe version clusterID next := by
  intro hsafe
  apply hreplaces
  cases move_of_step h.wellFormed hstep with
  | idle hwf hlabel hread hdrawn =>
      cases label with
      | update call now fails =>
          cases fails with
          | true => trivial
          | false => exact absurd rfl (hlabel call now)
      | _ => trivial
  | read hwf hdrawn hread hstored => trivial
  | draw hwf hbefore hread hdrawn => trivial
  | confirmed hwf hbefore hkey hdrawn hread hnone =>
      rintro found hfound
      obtain rfl := Option.some.inj (hfound.symm.trans hbefore)
      have honce : found.request.accessKey ∉ state.presented := (List.nodup_cons.mp hsafe.once).1
      have hstored : storedKey state.clusters clusterID = some found.request.accessKey :=
        (h.read _ found _ hfound hkey).resolve_right honce
      obtain ⟨cluster, hcluster, -⟩ := Option.map_eq_some_iff.mp hstored
      obtain ⟨-, haccepted⟩ := hsafe.newest _ rfl
      exact ⟨hstored.trans hkey.symm, (verifyCluster_confirm hcluster).mp haccepted⟩

end Orderly

def callOf (call : Nat) (presented newKey : String) : List Label :=
  [.confirmClusterRegistration call ⟨"cluster-1", presented, "2.6.0"⟩, .getCluster call false,
    .check call newKey, .update call 0 false]

end LitmusPortal.Confirmations
