import LitmusPortal.Cluster.Registration

/-!
# Whether a removal is final

`DeleteClusters` marks a cluster as removed, and the lists of the portal leave marked clusters out.
The entry points of the agent look at the access key alone, so an agent that has the key of a removed
cluster is still let in.
-/

namespace LitmusPortal.Deregistration

open DocumentStore Connections

inductive Operation where
  | registerCluster (request : RegisterClusterRequest) (steps : RegisterSteps)
  | confirmClusterRegistration (request : ClusterIdentity) (steps : ConfirmSteps)
  | newClusterEvent (request : NewClusterEventRequest) (eventID : String) (getFails : Bool)
  | deleteClusters (projectID : String) (clusterIDs : List String) (steps : DeleteSteps)
  /-- Any request of an agent that begins with `VerifyCluster`. -/
  | verifyCluster (identity : ClusterIdentity) (getFails : Bool)
  /-- The two updates of `ClusterConnect`, at its beginning and in its clean-up. -/
  | setActive (clusterInfo : ClusterIdentity) (now : Int) (fails : Bool)
  | setInactive (clusterInfo : ClusterIdentity) (now : Int) (fails : Bool)

def serve (version : String) (clusters : List Cluster) : Operation → List Cluster
  | .registerCluster request steps => (registerCluster steps clusters request).2
  | .confirmClusterRegistration request steps =>
      (confirmClusterRegistration version steps clusters request).2
  | .newClusterEvent _ _ _ | .verifyCluster _ _ => clusters
  | .deleteClusters projectID clusterIDs steps =>
      (deleteClusters steps clusters projectID clusterIDs).2.1
  | .setActive clusterInfo now fails =>
      (updateCluster fails clusters (ofCluster clusterInfo.clusterID)
        (setActive clusterInfo.version now)).2
  | .setInactive clusterInfo now fails =>
      (updateCluster fails clusters (ofCluster clusterInfo.clusterID) (setInactive now)).2

def Operation.agentOf : Operation → Option String
  | .confirmClusterRegistration request _ => some request.clusterID
  | .newClusterEvent request _ _ => some request.clusterID
  | .verifyCluster identity _ => some identity.clusterID
  | _ => none

def Refused (version : String) (clusters : List Cluster) : Operation → Prop
  | .confirmClusterRegistration request steps => ∀ response,
      (confirmClusterRegistration version steps clusters request).1 = .ok response →
        response.isClusterConfirmed = false
  | .newClusterEvent request eventID getFails =>
      ∀ response, (newClusterEvent eventID getFails clusters request).1 ≠ .ok response
  | .verifyCluster identity getFails =>
      ∀ cluster, verifyCluster version getFails clusters identity ≠ .ok cluster
  | _ => True

/-- The request carries the key of the document, with a version that is accepted, and no read or
update of it fails. -/
def PresentsKey (version : String) (cluster : Cluster) : Operation → Prop
  | .confirmClusterRegistration request steps => Confirms version steps cluster request
  | .newClusterEvent request _ getFails =>
      getFails = false ∧ cluster.accessKey = request.accessKey ∧ cluster.isRegistered = true
  | .verifyCluster identity getFails => checkVersion version identity.version = .ok () ∧
      getFails = false ∧ cluster.accessKey = identity.accessKey ∧ cluster.isRegistered = true
  | _ => False

def MarkedRemoved (clusterID : String) (clusters : List Cluster) : Prop :=
  ∃ cluster, storedCluster clusters clusterID = some cluster ∧ cluster.isRemoved = true

/-- The mark stays, and no request in the name of the cluster is let in or changes its document. -/
structure DeregistrationFinal (version : String) (clusters : List Cluster) (later : List Operation)
    (clusterID : String) : Prop where
  marked : ∀ front back, later = front ++ back →
    MarkedRemoved clusterID (front.foldl (serve version) clusters)
  refused : ∀ front op back, later = front ++ op :: back → op.agentOf = some clusterID →
    Refused version (front.foldl (serve version) clusters) op ∧
      storedCluster (serve version (front.foldl (serve version) clusters) op) clusterID =
        storedCluster (front.foldl (serve version) clusters) clusterID

/-- In every state that operations lead to from a database without clusters, a cluster that is marked
as removed is removed for good. -/
def DeregistrationAlwaysFinal : Prop :=
  ∀ (version : String) (before later : List Operation) (clusterID : String),
    MarkedRemoved clusterID (before.foldl (serve version) []) →
      DeregistrationFinal version (before.foldl (serve version) []) later clusterID

/-- What decides over the requests of an agent is the same, and a removed cluster stays removed. -/
structure SameAdmission (old new : Cluster) : Prop where
  accessKey : new.accessKey = old.accessKey
  isRegistered : new.isRegistered = old.isRegistered
  isRemoved : old.isRemoved = true → new.isRemoved = true

theorem SameAdmission.refl (cluster : Cluster) : SameAdmission cluster cluster := ⟨rfl, rfl, id⟩

theorem SameAdmission.trans {first second third : Cluster} (h : SameAdmission first second)
    (h' : SameAdmission second third) : SameAdmission first third where
  accessKey := h'.accessKey.trans h.accessKey
  isRegistered := h'.isRegistered.trans h.isRegistered
  isRemoved := fun hremoved => h'.isRemoved (h.isRemoved hremoved)

theorem SameAdmission.presentsKey_iff {old new : Cluster} (h : SameAdmission old new)
    (version : String) (op : Operation) :
    PresentsKey version new op ↔ PresentsKey version old op := by
  cases op <;> simp [PresentsKey, Confirms, h.accessKey, h.isRegistered]

theorem exists_sameAdmission_updateCluster {fails : Bool} {clusters : List Cluster}
    {query : Cluster → Bool} {update : Cluster → Cluster} {clusterID : String} {cluster : Cluster}
    (hkeeps : ∀ cluster, (update cluster).clusterID = cluster.clusterID)
    (hsame : ∀ cluster, SameAdmission cluster (update cluster))
    (h : storedCluster clusters clusterID = some cluster) :
    ∃ new, storedCluster (updateCluster fails clusters query update).2 clusterID = some new ∧
      SameAdmission cluster new := by
  cases fails with
  | true => exact ⟨cluster, h, SameAdmission.refl cluster⟩
  | false =>
      rcases storedCluster_updateFirst_cases hkeeps h with hsome | ⟨-, hsome⟩
      · exact ⟨cluster, hsome, SameAdmission.refl cluster⟩
      · exact ⟨update cluster, hsome, hsame cluster⟩

theorem exists_sameAdmission_serve {version clusterID : String} {clusters : List Cluster}
    {cluster : Cluster} {op : Operation} (h : storedCluster clusters clusterID = some cluster)
    (hop : op.agentOf = some clusterID → ¬ PresentsKey version cluster op) :
    ∃ new, storedCluster (serve version clusters op) clusterID = some new ∧
      SameAdmission cluster new := by
  have hrefl := SameAdmission.refl cluster
  cases op with
  | registerCluster request steps => exact ⟨cluster, storedCluster_registerCluster h, hrefl⟩
  | newClusterEvent request eventID getFails => exact ⟨cluster, h, hrefl⟩
  | verifyCluster identity getFails => exact ⟨cluster, h, hrefl⟩
  | deleteClusters projectID clusterIDs steps =>
      rcases storedCluster_deleteClusters h with hstored | hstored
      · exact ⟨cluster, hstored, hrefl⟩
      · exact ⟨_, hstored, rfl, rfl, fun _ => rfl⟩
  | setActive clusterInfo now fails =>
      exact exists_sameAdmission_updateCluster (fun _ => rfl) (fun _ => ⟨rfl, rfl, id⟩) h
  | setInactive clusterInfo now fails =>
      exact exists_sameAdmission_updateCluster (fun _ => rfl) (fun _ => ⟨rfl, rfl, id⟩) h
  | confirmClusterRegistration request steps =>
      by_cases hconfirms : ∃ found, storedCluster clusters request.clusterID = some found ∧
          Confirms version steps found request
      · obtain ⟨found, hfound, hconfirms⟩ := hconfirms
        have hother : clusterID ≠ request.clusterID := by
          rintro rfl
          obtain rfl := Option.some.inj (h.symm.trans hfound)
          exact hop rfl hconfirms
        refine ⟨cluster, ?_, hrefl⟩
        rw [serve, confirmClusterRegistration_of_confirms hfound hconfirms]
        exact (storedCluster_confirm_of_ne _ _ hother).trans h
      · push Not at hconfirms
        obtain ⟨hsame, -⟩ := confirmClusterRegistration_of_not_confirms hconfirms
        exact ⟨cluster, by rw [serve, hsame]; exact h, hrefl⟩

/-- An agent's request is refused, and its document stays, unless the request presents the key. -/
theorem refused_iff {version clusterID : String} {clusters : List Cluster} {cluster : Cluster}
    {op : Operation} (h : storedCluster clusters clusterID = some cluster)
    (hagent : op.agentOf = some clusterID) :
    (Refused version clusters op ∧
      storedCluster (serve version clusters op) clusterID = storedCluster clusters clusterID) ↔
      ¬ PresentsKey version cluster op := by
  cases op with
  | registerCluster request steps => cases hagent
  | deleteClusters projectID clusterIDs steps => cases hagent
  | setActive clusterInfo now fails => cases hagent
  | setInactive clusterInfo now fails => cases hagent
  | newClusterEvent request eventID getFails =>
      obtain rfl := Option.some.inj hagent
      cases getFails with
      | true => simp [Refused, newClusterEvent, getCluster, PresentsKey, serve]
      | false =>
          simp only [Refused, newClusterEvent, getCluster_eq, h, serve, PresentsKey, true_and,
            and_true]
          split <;> simp_all
  | verifyCluster identity getFails =>
      obtain rfl := Option.some.inj hagent
      simp only [Refused, serve, PresentsKey, and_true]
      rw [← not_exists, verifyCluster_accepts_iff h]
  | confirmClusterRegistration request steps =>
      obtain rfl := Option.some.inj hagent
      by_cases hconfirms : Confirms version steps cluster request
      · refine iff_of_false (fun hrefused => ?_) (not_not_intro hconfirms)
        have hanswer := hrefused.1
        simp [Refused, confirmClusterRegistration_of_confirms h hconfirms] at hanswer
      · have hnone : ∀ found, storedCluster clusters request.clusterID = some found →
            ¬ Confirms version steps found request := by
          intro found hfound
          obtain rfl := Option.some.inj (h.symm.trans hfound)
          exact hconfirms
        obtain ⟨hsame, hanswer⟩ := confirmClusterRegistration_of_not_confirms hnone
        refine iff_of_true ⟨fun response hresponse => ?_, by rw [serve, hsame]⟩ hconfirms
        rw [hanswer response hresponse]
        rfl

/-- As long as nobody presents the key, what decides over requests stays as it was. -/
theorem exists_sameAdmission_foldl {version clusterID : String} {clusters : List Cluster}
    {cluster : Cluster} {ops : List Operation}
    (h : storedCluster clusters clusterID = some cluster)
    (hops : ∀ op ∈ ops, op.agentOf = some clusterID → ¬ PresentsKey version cluster op) :
    ∃ new, storedCluster (ops.foldl (serve version) clusters) clusterID = some new ∧
      SameAdmission cluster new := by
  induction ops using List.reverseRecOn with
  | nil => exact ⟨cluster, h, SameAdmission.refl cluster⟩
  | append_singleton front op ih =>
      obtain ⟨mid, hmid, hsame⟩ := ih fun other hother => hops other (by simp [hother])
      have hop : op.agentOf = some clusterID → ¬ PresentsKey version mid op :=
        fun hagent hpresents =>
          hops op (by simp) hagent ((hsame.presentsKey_iff version op).mp hpresents)
      obtain ⟨new, hnew, hnext⟩ := exists_sameAdmission_serve hmid hop
      exact ⟨new, by simpa using hnew, hsame.trans hnext⟩

/-- A removal is final exactly when no later request presents the key the document had at the time. -/
theorem deregistrationFinal_iff {version clusterID : String} {clusters : List Cluster}
    {cluster : Cluster} {later : List Operation}
    (h : storedCluster clusters clusterID = some cluster) (hremoved : cluster.isRemoved = true) :
    DeregistrationFinal version clusters later clusterID ↔
      ∀ op ∈ later, op.agentOf = some clusterID → ¬ PresentsKey version cluster op := by
  constructor
  · intro hfinal
    have hfront : ∀ front back, later = front ++ back →
        ∀ op ∈ front, op.agentOf = some clusterID → ¬ PresentsKey version cluster op := by
      intro front
      induction front using List.reverseRecOn with
      | nil => simp
      | append_singleton front op ih =>
          intro back hlater other hother hagent
          have hsplit : later = front ++ op :: back := by simpa using hlater
          have hbefore := ih (op :: back) hsplit
          obtain ⟨mid, hmid, hsame⟩ := exists_sameAdmission_foldl h hbefore
          rcases List.mem_append.mp hother with hmem | hmem
          · exact hbefore other hmem hagent
          · obtain rfl : other = op := by simpa using hmem
            have hrefused := (refused_iff hmid hagent).mp (hfinal.refused front other back hsplit hagent)
            exact fun hpresents => hrefused ((hsame.presentsKey_iff version other).mpr hpresents)
    exact hfront later [] (by simp)
  · intro hops
    have hfront : ∀ front back, later = front ++ back →
        ∃ new, storedCluster (front.foldl (serve version) clusters) clusterID = some new ∧
          SameAdmission cluster new :=
      fun front back hlater => exists_sameAdmission_foldl h fun op hop =>
        hops op (by simp [hlater, hop])
    constructor
    · intro front back hlater
      obtain ⟨new, hnew, hsame⟩ := hfront front back hlater
      exact ⟨new, hnew, hsame.isRemoved hremoved⟩
    · intro front op back hlater hagent
      obtain ⟨new, hnew, hsame⟩ := hfront front (op :: back) hlater
      have hnot := hops op (by simp [hlater]) hagent
      exact (refused_iff hnew hagent).mpr
        fun hpresents => hnot ((hsame.presentsKey_iff version op).mp hpresents)

/-- The key the agent had before its confirmation is refused for good. -/
theorem deregistrationFinal_iff_old_key :
    DeregistrationFinal "2.6.0" [{ sampleCluster with isRemoved := true }]
      [.verifyCluster ⟨"cluster-1", "key-0", "2.6.0"⟩ false] "cluster-1" := by
  have hstored : storedCluster [{ sampleCluster with isRemoved := true }] "cluster-1" =
      some { sampleCluster with isRemoved := true } := by decide
  refine (deregistrationFinal_iff hstored rfl).mpr fun op hop _ => ?_
  obtain rfl := List.mem_singleton.mp hop
  simp [PresentsKey, sampleCluster]

def sampleRequest : RegisterClusterRequest :=
  ⟨"agent", none, "Others", "project-1", "external", some "litmus", some "litmus", "cluster", some false,
    some false, none, none, none⟩

def removedAgent : List Operation :=
  [.registerCluster sampleRequest ⟨.ok "http://server/query", "cluster-1", .ok "token", "key-0", 0, false⟩,
    .confirmClusterRegistration ⟨"cluster-1", "key-0", "2.6.0"⟩ ⟨"key-1", 0, false, false⟩,
    .deleteClusters "project-1" ["cluster-1"] ⟨0, "admin", false, false⟩]

/-- The removed agent goes on with the key of its confirmation. -/
theorem not_deregistrationAlwaysFinal : ¬ DeregistrationAlwaysFinal := by
  intro hfinal
  let cluster : Cluster := { sampleCluster with isRemoved := true }
  have hstored : storedCluster (removedAgent.foldl (serve "2.6.0") []) "cluster-1" =
      some cluster := by decide
  let op : Operation := .verifyCluster ⟨"cluster-1", "key-1", "2.6.0"⟩ false
  have hrefused := (hfinal "2.6.0" removedAgent [op] "cluster-1" ⟨_, hstored, rfl⟩).refused
    [] op [] rfl rfl
  apply (refused_iff hstored rfl).mp hrefused
  exact ⟨rfl, rfl, rfl, rfl⟩

end LitmusPortal.Deregistration
