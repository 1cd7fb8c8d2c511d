import LitmusPortal.Upgrade.Store

/-!
# The upgrade manager of the control plane

`upgradeAuthDb`, `upgradeWorkflowCollection` and the walk over the upgrade path that runs them, with a
call for each result the source reads or drops. The loops of the walk have fuel; that they end is
proved, not assumed.
-/

namespace LitmusPortal.Upgrade

variable {Doc : Type}

inductive Stop where
  | panic (message : String)
  | outOfFuel
  deriving DecidableEq, Repr

/-- A Go function against the database. Its `error` is `nil` or a message. -/
abbrev DBScript (Doc α : Type) := Script (Op Doc) Op.Reply Stop α

abbrev callDB (op : Op Doc) : DBScript Doc op.Reply := Script.perform op

/-- The errors up to the last drop are formatted and not returned. -/
def upgradeAuthDb : DBScript Doc (Option String) := do
  let findErr : Option String ← callDB .findProjects
  -- the cursor of a failed `Find` is `nil`
  if findErr.isSome then .halt (.panic "invalid memory address or nil pointer dereference")
  else do
    let result : Except String (List Doc) ← callDB .allProjects
    let _ ← callDB (.insertProjects (result.toOption.getD []))
    let _ ← callDB (.drop .litmusProject)
    let _ ← callDB (.drop .litmusUser)
    let err : Option String ← callDB (.drop .authUsers)
    let res : Option String ← callDB .renameUsercredentials
    if res.isSome then return res else return err

/-- The error of the drop is formatted and not returned. -/
def upgradeWorkflowCollection : DBScript Doc (Option String) := do
  let _ ← callDB .dropWorkflowName
  callDB .createWorkflowName

inductive VersionManager where
  | v2_4_0
  | v2_6_0
  deriving DecidableEq, Repr

def VersionManager.run : VersionManager → DBScript Doc (Option String)
  | .v2_4_0 => do
      let err ← upgradeAuthDb
      if err.isSome then return err else return none
  | .v2_6_0 => do
      let err ← upgradeWorkflowCollection
      if err.isSome then return none else return none

structure UpgradeExecutor where
  nextVersion : String
  versionManager : Option VersionManager
  deriving DecidableEq, Repr

def getUpgradePath : List (String × UpgradeExecutor) := [
  ("2.3.0", ⟨"2.4.0", some .v2_4_0⟩),
  ("2.4.0", ⟨"2.5.0", none⟩),
  ("2.5.0", ⟨"2.6.0", some .v2_6_0⟩),
  ("2.6.0", ⟨"2.7.0", none⟩),
  ("2.7.0", ⟨"2.8.0", none⟩),
  ("2.8.0", ⟨"2.9.0", none⟩),
  ("2.9.0", ⟨"2.10.0", none⟩),
  ("2.10.0", ⟨"2.11.0", none⟩),
  ("2.11.0", ⟨"2.12.0", none⟩),
  ("2.12.0", ⟨"2.13.0", none⟩),
  ("2.13.0", ⟨"2.14.0", none⟩),
  ("2.14.0", ⟨"", none⟩)]

/-- The map at a version; one that is missing has the zero value. -/
def executor (version : String) : UpgradeExecutor := (getUpgradePath.lookup version).getD ⟨"", none⟩

def nextVersion (version : String) : String := (executor version).nextVersion

/-- What the manager calls on: the database for the version, and the managers. -/
inductive UpgradeCall where
  | getVersion
  | run (manager : VersionManager)
  | updateVersion (version : String)
  deriving DecidableEq, Repr

abbrev UpgradeCall.Reply : UpgradeCall → Type
  | .getVersion => Except String ConfigValue
  | _ => Option String

abbrev UpgradeScript (α : Type) := Script UpgradeCall UpgradeCall.Reply Stop α

abbrev callManager (call : UpgradeCall) : UpgradeScript call.Reply := Script.perform call

def UpgradeCall.script : (call : UpgradeCall) → DBScript Doc call.Reply
  | .getVersion => callDB .findVersion
  | .run manager => manager.run
  | .updateVersion version => callDB (.updateVersion version)

structure UpgradeManager where
  previousVersion : String
  targetVersion : String
  deriving DecidableEq, Repr

namespace UpgradeManager

/-- The loop of `verifyPath`: whether it comes past the target. -/
def comesTo (target : String) : ℕ → String → Option Bool
  | 0, _ => none
  | fuel + 1, versionIterator =>
      if versionIterator = "" then some false
      else if nextVersion versionIterator = target then some true
      else comesTo target fuel (nextVersion versionIterator)

/-- `none` when the fuel does not last. -/
def verifyPath (fuel : ℕ) (m : UpgradeManager) : Option (Option String) :=
  let okP := (getUpgradePath.lookup m.previousVersion).isSome
  let okT := (getUpgradePath.lookup m.targetVersion).isSome
  if !okP && !okT then
    some (some ("previous version=" ++ m.previousVersion ++ " or target version=" ++ m.targetVersion ++
      " not found in upgrade path"))
  else
    (comesTo m.targetVersion fuel m.previousVersion).map fun found =>
      if found then none
      else some ("upgrade path not found from previous version=" ++ m.previousVersion ++
        " to target version=" ++ m.targetVersion)

/-- The loop of `Run`, up to the first error of a manager. -/
def walk (target : String) : ℕ → String → UpgradeScript (Option String)
  | 0, _ => .halt .outOfFuel
  | fuel + 1, versionIterator =>
      if versionIterator = target then return none
      else
        match (executor versionIterator).versionManager with
        | none => walk target fuel (nextVersion versionIterator)
        | some manager => do
            let reply : Option String ← callManager (.run manager)
            match reply with
            | some err => return some ("failed to upgrade to version " ++ versionIterator ++ ", error : " ++ err)
            | none => walk target fuel (nextVersion versionIterator)

def run (fuel : ℕ) (m : UpgradeManager) : UpgradeScript (Option String) :=
  match m.verifyPath fuel with
  | none => .halt .outOfFuel
  | some (some err) => return some err
  | some none => do
      match ← walk m.targetVersion fuel m.previousVersion with
      | some err => return some err
      | none =>
          let reply : Option String ← callManager (.updateVersion m.targetVersion)
          match reply with
          | some err => return some ("failed to update version in server config collection, error=" ++ err)
          | none => return none

end UpgradeManager

/-- `NewUpgradeManager`, for a value of `VERSION`. -/
def newUpgradeManager (currentVersion : String) : UpgradeScript (Except String (Option UpgradeManager)) :=
  if currentVersion = "" then return .error "current version env data missing"
  else do
    let config : Except String ConfigValue ← callManager .getVersion
    match config with
    | .error err => return .error ("failed to get previous version data from db, error=" ++ err)
    | .ok .null => return .error "failed to get previous version data from db, value=<nil>"
    | .ok .other => .halt (.panic "interface conversion: interface is not string")
    | .ok (.text value) =>
        if value = "" then return .error "failed to get previous version data from db, value="
        else if value = currentVersion then return .ok none
        else return .ok (some ⟨value, currentVersion⟩)

/-- An error ends the process. -/
def main (fuel : ℕ) (currentVersion : String) : UpgradeScript (Option String) := do
  match ← newUpgradeManager currentVersion with
  | .error err => return some ("failed to create upgrade manager: " ++ err)
  | .ok none => return none
  | .ok (some m) =>
      match ← m.run fuel with
      | some err => return some ("failed to run upgrade manager: " ++ err)
      | none => return none

end LitmusPortal.Upgrade
