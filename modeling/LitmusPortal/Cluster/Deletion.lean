import LitmusPortal.Cluster.Registration

/-!
# The deletion of clusters

`DeleteClusters` marks the listed clusters of a project as removed, by a function that updates one
document, and sends requests for the clean-up to all of them. The documents are listed in the order in
which the database finds them, so the first one listed is the one that is updated.
-/

namespace LitmusPortal

open DocumentStore Connections

/-- What a call that returns without an error has done. -/
structure DeletionDone (projectID : String) (clusterIDs : List String) (before after : List Cluster)
    (requests : List SubscriberRequests) : Prop where
  removed : ∀ cluster ∈ after, ofClusters projectID clusterIDs cluster = true → cluster.isRemoved = true
  requests : ∀ request ∈ requests,
    (∃ cluster ∈ after, cluster.projectID = request.projectID ∧ cluster.clusterID = request.clusterID) ∧
      ∀ cluster ∈ after, cluster.projectID = request.projectID → cluster.clusterID = request.clusterID →
        cluster.isRemoved = true
  others : List.Forall₂ (fun old new => ofClusters projectID clusterIDs old = false → new = old) before after

def DeletionHolds (clusters : List Cluster) (projectID : String) (clusterIDs : List String) : Prop :=
  ∀ steps message after requests, deleteClusters steps clusters projectID clusterIDs = (.ok message, after, requests) →
    DeletionDone projectID clusterIDs clusters after requests

/-- Of the listed documents only the first may not be removed yet. -/
def OnlyFirstStays (clusters : List Cluster) (projectID : String) (clusterIDs : List String) : Prop :=
  clusters.Pairwise fun left right =>
    ofClusters projectID clusterIDs left = true → ofClusters projectID clusterIDs right = true → right.isRemoved = true

section Deletion

variable {projectID : String} {clusterIDs : List String} {clusters after : List Cluster}

theorem mem_cleanUpRequests {username : String} {found : List Cluster} {request : SubscriberRequests}
    (h : request ∈ (cleanUpRequests username found).2) :
    ∃ cluster ∈ found, request.projectID = cluster.projectID ∧ request.clusterID = cluster.clusterID := by
  induction found with
  | nil => cases h
  | cons cluster found ih =>
      rw [cleanUpRequests] at h
      cases hns : cluster.agentNamespace with
      | none =>
          rw [hns] at h
          cases h
      | some agentNamespace =>
          rw [hns] at h
          rcases List.mem_cons.mp h with rfl | hrest
          · exact ⟨cluster, List.mem_cons_self, rfl, rfl⟩
          · rcases List.mem_cons.mp hrest with rfl | hrest
            · exact ⟨cluster, List.mem_cons_self, rfl, rfl⟩
            · obtain ⟨found, hmem, hids⟩ := ih hrest
              exact ⟨found, List.mem_cons_of_mem _ hmem, hids⟩

/-- The first listed cluster is updated, and the requests go to listed ones. -/
theorem deleteClusters_ok {steps : DeleteSteps} {message : String} {requests : List SubscriberRequests}
    (h : deleteClusters steps clusters projectID clusterIDs = (.ok message, after, requests)) :
    after = updateFirst (ofClusters projectID clusterIDs) (setRemovedCluster steps.now) clusters ∧
      ∀ request ∈ requests, ∃ cluster ∈ after, ofClusters projectID clusterIDs cluster = true ∧
        request.projectID = cluster.projectID ∧ request.clusterID = cluster.clusterID := by
  rw [deleteClusters] at h
  cases hupdate : steps.updateFails with
  | true =>
      rw [hupdate, updateCluster_fails] at h
      cases (Prod.mk.inj h).1
  | false =>
      rw [hupdate, updateCluster_succeeds] at h
      dsimp only at h
      by_cases hlist : steps.listFails = true
      · rw [if_pos hlist] at h
        obtain ⟨-, hrest⟩ := Prod.mk.inj h
        obtain ⟨rfl, rfl⟩ := Prod.mk.inj hrest
        exact ⟨rfl, fun _ hrequest => absurd hrequest List.not_mem_nil⟩
      · rw [if_neg hlist] at h
        split at h
        · cases (Prod.mk.inj h).1
        · rename_i sent hsent
          obtain ⟨-, hrest⟩ := Prod.mk.inj h
          obtain ⟨rfl, rfl⟩ := Prod.mk.inj hrest
          refine ⟨rfl, fun request hrequest => ?_⟩
          have hmem : request ∈ (cleanUpRequests steps.username (List.filter (ofClusters projectID clusterIDs)
              (updateFirst (ofClusters projectID clusterIDs) (setRemovedCluster steps.now) clusters))).2 := by
            rw [hsent]
            exact hrequest
          obtain ⟨cluster, hcluster, hids⟩ := mem_cleanUpRequests hmem
          obtain ⟨hmem, hlisted⟩ := List.mem_filter.mp hcluster
          exact ⟨cluster, hmem, hlisted, hids⟩

theorem forall_removed_updateFirst_iff (now : Int) :
    (∀ cluster ∈ updateFirst (ofClusters projectID clusterIDs) (setRemovedCluster now) clusters,
      ofClusters projectID clusterIDs cluster = true → cluster.isRemoved = true) ↔
        OnlyFirstStays clusters projectID clusterIDs := by
  rw [OnlyFirstStays]
  induction clusters with
  | nil => simp
  | cons cluster clusters ih =>
      by_cases hlisted : ofClusters projectID clusterIDs cluster = true
      · rw [updateFirst_cons_of_pos hlisted, List.forall_mem_cons, List.pairwise_cons]
        constructor
        · rintro ⟨-, hrest⟩
          refine ⟨fun other hmem _ => hrest other hmem, ?_⟩
          exact List.pairwise_iff_forall_sublist.mpr fun hsub _ => hrest _ (hsub.subset (by simp))
        · rintro ⟨hrest, -⟩
          exact ⟨fun _ => rfl, fun other hmem => hrest other hmem hlisted⟩
      · rw [updateFirst_cons_of_neg hlisted, List.forall_mem_cons, List.pairwise_cons, ih]
        constructor
        · rintro ⟨-, hrest⟩
          exact ⟨fun _ _ h => absurd h hlisted, hrest⟩
        · rintro ⟨-, hrest⟩
          exact ⟨fun h => absurd h hlisted, hrest⟩

theorem forall₂_updateFirst (now : Int) :
    List.Forall₂ (fun old new => ofClusters projectID clusterIDs old = false → new = old) clusters
      (updateFirst (ofClusters projectID clusterIDs) (setRemovedCluster now) clusters) := by
  induction clusters with
  | nil => exact .nil
  | cons cluster clusters ih =>
      by_cases hlisted : ofClusters projectID clusterIDs cluster = true
      · rw [updateFirst_cons_of_pos hlisted]
        refine .cons (fun hnot => ?_) (List.forall₂_same.mpr fun _ _ _ => rfl)
        rw [hlisted] at hnot
        cases hnot
      · rw [updateFirst_cons_of_neg hlisted]
        exact .cons (fun _ => rfl) ih

theorem deletionDone_iff {steps : DeleteSteps} {message : String} {requests : List SubscriberRequests}
    (h : deleteClusters steps clusters projectID clusterIDs = (.ok message, after, requests)) :
    DeletionDone projectID clusterIDs clusters after requests ↔ OnlyFirstStays clusters projectID clusterIDs := by
  obtain ⟨rfl, hrequests⟩ := deleteClusters_ok h
  rw [← forall_removed_updateFirst_iff steps.now]
  constructor
  · exact DeletionDone.removed
  · intro hremoved
    refine ⟨hremoved, fun request hrequest => ?_, forall₂_updateFirst steps.now⟩
    obtain ⟨cluster, hmem, hlisted, hproject, hcluster⟩ := hrequests request hrequest
    refine ⟨⟨cluster, hmem, hproject.symm, hcluster.symm⟩, fun other hother hproject' hcluster' => ?_⟩
    apply hremoved other hother
    have hsame : ofClusters projectID clusterIDs other = ofClusters projectID clusterIDs cluster := by
      rw [ofClusters, ofClusters, hproject', hcluster', hproject, hcluster]
    rw [hsame, hlisted]

theorem deletionHolds_iff :
    DeletionHolds clusters projectID clusterIDs ↔ OnlyFirstStays clusters projectID clusterIDs := by
  constructor
  · intro h
    have hlistFails : deleteClusters ⟨0, "", false, true⟩ clusters projectID clusterIDs =
        (.ok "", updateFirst (ofClusters projectID clusterIDs) (setRemovedCluster 0) clusters, []) := rfl
    exact (deletionDone_iff hlistFails).mp (h _ _ _ _ hlistFails)
  · intro hfirst steps message after requests h
    exact (deletionDone_iff h).mpr hfirst

end Deletion

def ClustersAreDeleted : Prop :=
  ∀ (clusters : List Cluster) (projectID : String) (clusterIDs : List String),
    DeletionHolds clusters projectID clusterIDs

def agentOf (clusterID : String) : Cluster :=
  { sampleCluster with clusterID := clusterID, projectID := "project" }

/-- Of two agents that are listed one stays. -/
theorem not_clustersAreDeleted : ¬ ClustersAreDeleted := by
  intro h
  have hcall : deleteClusters ⟨0, "admin", false, true⟩ [agentOf "a", agentOf "b"] "project" ["a", "b"] =
      (.ok "", [setRemovedCluster 0 (agentOf "a"), agentOf "b"], []) := rfl
  have hdone := h _ _ _ _ _ _ _ hcall
  cases hdone.removed (agentOf "b") (by simp) rfl

end LitmusPortal
