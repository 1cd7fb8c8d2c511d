import LitmusPortal.Schema
import LitmusPortal.Lib.GoStrings

namespace LitmusPortal

open GoStrings

def databaseError : GoError := .failed "mongo: database error"

def noDocuments : GoError := .failed "mongo: no documents in result"

/-- `fails` is a database error. -/
def getCluster (fails : Bool) (clusters : List Cluster) (clusterID : String) :
    Except GoError Cluster :=
  if fails then .error databaseError
  else
    match clusters.find? fun cluster => cluster.clusterID = clusterID with
    | some cluster => .ok cluster
    | none => .error noDocuments

def ciVersion : String := "ci"

/-- The version check of `VerifyCluster`: a CI build wants the agent's version to be its own, a
release wants the same major and minor version. -/
def checkVersion (currentVersion agentVersion : String) : Except GoError Unit :=
  if contains (toLower currentVersion) ciVersion then
    if currentVersion ≠ agentVersion then
      .error (.failed ("ERROR: CLUSTER VERSION MISMATCH (need " ++ currentVersion ++ " got " ++
        agentVersion ++ ")"))
    else .ok ()
  else
    match splitAt (· = '.') currentVersion with
    | cpMajor :: cpMinor :: _ =>
        let mismatch := GoError.failed ("ERROR: CLUSTER VERSION MISMATCH (need " ++ cpMajor ++ "." ++
          cpMinor ++ ".x got " ++ agentVersion ++ ")")
        match splitAt (· = '.') agentVersion with
        | [subMajor, subMinor, _] =>
            if subMajor ≠ cpMajor ∨ subMinor ≠ cpMinor then .error mismatch else .ok ()
        | _ => .error mismatch
    -- the comparison and the error message both index the second part of VERSION
    | _ => .error (.panic "index out of range")

def verifyCluster (version : String) (fails : Bool) (clusters : List Cluster)
    (identity : ClusterIdentity) : Except GoError Cluster := do
  checkVersion version identity.version
  let cluster ← getCluster fails clusters identity.clusterID
  if cluster.accessKey = identity.accessKey ∧ cluster.isRegistered = true then
    .ok cluster
  else
    .error (.failed "ERROR:  CLUSTER ID MISMATCH")

theorem verifyCluster_ok {version : String} {fails : Bool} {clusters : List Cluster}
    {identity : ClusterIdentity} {cluster : Cluster}
    (h : verifyCluster version fails clusters identity = .ok cluster) :
    cluster ∈ clusters ∧ cluster.clusterID = identity.clusterID ∧
      cluster.accessKey = identity.accessKey ∧ cluster.isRegistered = true := by
  unfold verifyCluster at h
  cases hversion : checkVersion version identity.version with
  | error err => simp [hversion, bind, Except.bind] at h
  | ok _ =>
      simp only [hversion, bind, Except.bind, getCluster] at h
      cases fails with
      | true => simp at h
      | false =>
          cases hfind : clusters.find? (fun c => c.clusterID = identity.clusterID) with
          | none => simp [hfind] at h
          | some found =>
              simp only [hfind, Bool.false_eq_true, if_false] at h
              split at h
              · rename_i hkey
                cases h
                exact ⟨List.mem_of_find?_eq_some hfind, by simpa using List.find?_some hfind, hkey⟩
              · cases h

end LitmusPortal
