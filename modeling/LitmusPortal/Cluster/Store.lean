import LitmusPortal.Cluster.Verify

/-!
# Writing clusters

The writing functions of the cluster package of the database layer. The collection has no unique
index, and an update changes the first document that matches.
-/

namespace LitmusPortal

open DocumentStore

def ofCluster (clusterID : String) (cluster : Cluster) : Bool := cluster.clusterID = clusterID

def storedCluster (clusters : List Cluster) (clusterID : String) : Option Cluster :=
  clusters.find? (ofCluster clusterID)

def insertCluster (fails : Bool) (clusters : List Cluster) (cluster : Cluster) :
    Except GoError Unit × List Cluster :=
  if fails then (.error databaseError, clusters) else (.ok (), clusters ++ [cluster])

def updateCluster (fails : Bool) (clusters : List Cluster) (query : Cluster → Bool)
    (update : Cluster → Cluster) : Except GoError Unit × List Cluster :=
  if fails then (.error databaseError, clusters)
  else (.ok (), updateFirst query update clusters)

@[simp]
theorem updateCluster_fails (clusters : List Cluster) (query : Cluster → Bool)
    (update : Cluster → Cluster) :
    updateCluster true clusters query update = (.error databaseError, clusters) := rfl

@[simp]
theorem updateCluster_succeeds (clusters : List Cluster) (query : Cluster → Bool)
    (update : Cluster → Cluster) :
    updateCluster false clusters query update = (.ok (), updateFirst query update clusters) := rfl

theorem getCluster_eq (clusters : List Cluster) (clusterID : String) :
    getCluster false clusters clusterID =
      match storedCluster clusters clusterID with
      | some cluster => .ok cluster
      | none => .error noDocuments := rfl

/-- `VerifyCluster` lets in who presents the key of a registered cluster with a fitting version. -/
theorem verifyCluster_accepts_iff {version : String} {fails : Bool} {clusters : List Cluster}
    {identity : ClusterIdentity} {stored : Cluster}
    (hstored : storedCluster clusters identity.clusterID = some stored) :
    (∃ cluster, verifyCluster version fails clusters identity = .ok cluster) ↔
      checkVersion version identity.version = .ok () ∧ fails = false ∧
        stored.accessKey = identity.accessKey ∧ stored.isRegistered = true := by
  unfold verifyCluster
  cases checkVersion version identity.version with
  | error err => simp [bind, Except.bind]
  | ok _ =>
      cases fails with
      | true => simp [bind, Except.bind, getCluster]
      | false =>
          simp only [bind, Except.bind, getCluster_eq, hstored, true_and]
          split <;> simp_all

theorem storedCluster_updateFirst {clusters : List Cluster} {clusterID : String}
    {update : Cluster → Cluster} (hkeeps : ∀ cluster, (update cluster).clusterID = cluster.clusterID)
    (other : String) : storedCluster (updateFirst (ofCluster clusterID) update clusters) other =
      if other = clusterID then (storedCluster clusters clusterID).map update
      else storedCluster clusters other := by
  unfold storedCluster
  by_cases hother : other = clusterID
  · subst hother
    rw [if_pos rfl]
    apply find?_updateFirst
    intro cluster hcluster
    simpa [ofCluster, hkeeps] using hcluster
  · rw [if_neg hother]
    apply find?_updateFirst_of_not
    intro cluster hcluster
    have hid : cluster.clusterID = clusterID := by simpa [ofCluster] using hcluster
    simp [ofCluster, hkeeps, hid, Ne.symm hother]

theorem storedCluster_updateFirst_cases {clusters : List Cluster} {query : Cluster → Bool}
    {update : Cluster → Cluster} {clusterID : String} {cluster : Cluster}
    (hkeeps : ∀ cluster, (update cluster).clusterID = cluster.clusterID)
    (h : storedCluster clusters clusterID = some cluster) :
    storedCluster (updateFirst query update clusters) clusterID = some cluster ∨
      query cluster = true ∧
        storedCluster (updateFirst query update clusters) clusterID = some (update cluster) :=
  find?_updateFirst_cases (fun other _ => by simp [ofCluster, hkeeps other]) h

theorem storedCluster_insertCluster {fails : Bool} {clusters : List Cluster}
    {clusterID : String} {cluster : Cluster} (new : Cluster)
    (h : storedCluster clusters clusterID = some cluster) :
    storedCluster (insertCluster fails clusters new).2 clusterID = some cluster := by
  cases fails with
  | true => exact h
  | false =>
      unfold storedCluster at h
      simp [insertCluster, storedCluster, List.find?_append, h]

end LitmusPortal
