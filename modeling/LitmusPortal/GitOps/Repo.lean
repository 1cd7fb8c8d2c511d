import LitmusPortal.GitOps.Changes
import Mathlib.Logic.Function.Basic

/-!
# Clones and remote repositories

The git operations of `GitConfig` on the files under `/tmp` and on the remote repositories. What
go-git makes of a call is an argument: whether it fails, and the hash and the changed paths of a
commit.
-/

namespace LitmusPortal

open GoStrings

structure Clone where
  repositoryURL : String
  branch : String
  commits : List Commit
  worktree : Tree

/-- The branches of the remote repositories, by URL and name, and the clones, by their path. -/
structure GitState where
  remotes : String → String → List Commit
  disk : String → Option Clone

def GitState.setClone (git : GitState) (path : String) (clone : Option Clone) : GitState :=
  { git with disk := Function.update git.disk path clone }

def GitState.setRemote (git : GitState) (repositoryURL branch : String) (commits : List Commit) :
    GitState :=
  { git with remotes := fun url name =>
      if url = repositoryURL ∧ name = branch then commits else git.remotes url name }

/-- One branch contains the commits of another. -/
def isAhead (commits behind : List Commit) : Bool :=
  (behind.map (·.hash)).isSuffixOf (commits.map (·.hash))

def gitError : GoError := .failed "git: error"

def noRepository : GoError := .failed "repository does not exist"

def removeAll (fails : Bool) (path : String) (git : GitState) : Except GoError Unit × GitState :=
  if fails then (.error (.failed "remove: error"), git) else (.ok (), git.setClone path none)

def rename (fails : Bool) (oldPath newPath : String) (git : GitState) :
    Except GoError Unit × GitState :=
  match git.disk oldPath with
  | none => (.error (.failed "no such file or directory"), git)
  | some clone =>
      if fails then (.error (.failed "rename: error"), git)
      else (.ok (), (git.setClone newPath (some clone)).setClone oldPath none)

/-- What the steps of a set-up meet. `info` is the text `.info` gets; there is none when the old one
cannot be read or the new one not be written. -/
structure SetupSteps where
  removeAll : Bool
  auth : Bool
  clone : Bool
  info : Option String
  commit : Option (String × List String)
  push : Bool
  latestCommit : Bool
  deriving DecidableEq, Repr

def gitClone (steps : SetupSteps) (config : GitConfig) (git : GitState) :
    Except GoError Unit × GitState :=
  match removeAll steps.removeAll config.localPath git with
  | (.error err, git) => (.error err, git)
  | (.ok _, git) =>
      if steps.auth || steps.clone then (.error gitError, git)
      else
        let commits := git.remotes config.repositoryURL config.branch
        (.ok (), git.setClone config.localPath
          (some ⟨config.repositoryURL, config.branch, commits, headTree commits⟩))

/-- Files whose content differs between the two branches are checked out, the others stay. -/
def gitPull (fails : Bool) (config : GitConfig) (git : GitState) :
    Except GoError Unit × GitState :=
  match git.disk config.localPath with
  | none => (.error noRepository, git)
  | some clone =>
      let commits := git.remotes clone.repositoryURL config.branch
      if fails then (.error gitError, git)
      else if isAhead clone.commits commits then (.ok (), git)
      else if isAhead commits clone.commits then
        (.ok (), git.setClone config.localPath (some { clone with
          commits := commits
          worktree := fun path =>
            if headTree commits path = headTree clone.commits path then clone.worktree path
            else headTree commits path }))
      else (.error (.failed "non-fast-forward update"), git)

/-- The tree of the next commit: what is in the directory of the project is added, and what is gone
from it is not. -/
def addedTree (config : GitConfig) (clone : Clone) : Tree := fun path =>
  if acceptsPath (projectPath config.projectID) path then
    (clone.worktree path).orElse fun _ => headTree clone.commits path
  else headTree clone.commits path

/-- `GitCommit` without a file to delete. -/
def gitCommit (commit : Option (String × List String)) (config : GitConfig) (git : GitState) :
    Except GoError String × GitState :=
  match git.disk config.localPath, commit with
  | some clone, some (hash, changed) =>
      (.ok hash, git.setClone config.localPath (some { clone with
        commits := ⟨hash, changed, addedTree config clone⟩ :: clone.commits }))
  | some _, none => (.error gitError, git)
  | none, _ => (.error noRepository, git)

/-- A push is refused without credentials, and when the remote branch has other commits. -/
def gitPush (fails : Bool) (config : GitConfig) (git : GitState) :
    Except GoError Unit × GitState :=
  if config.authType = .none then
    (.error (.failed "cannot write/push without credentials, auth type = none"), git)
  else
    match git.disk config.localPath with
    | none => (.error noRepository, git)
    | some clone =>
        if fails || !isAhead clone.commits (git.remotes clone.repositoryURL clone.branch) then
          (.error gitError, git)
        else (.ok (), git.setRemote clone.repositoryURL clone.branch clone.commits)

def writeFile (fails : Bool) (config : GitConfig) (file content : String) (git : GitState) :
    Except GoError Unit × GitState :=
  match git.disk config.localPath with
  | none => (.error (.failed "no such file or directory"), git)
  | some clone =>
      if fails then (.error (.failed "write: error"), git)
      else (.ok (), git.setClone config.localPath (some { clone with
        worktree := Function.update clone.worktree file (some content) }))

def setupGitRepo (steps : SetupSteps) (config : GitConfig) (git : GitState) :
    Except GoError Unit × GitState :=
  match gitClone steps config git with
  | (.error err, git) => (.error err, git)
  | (.ok _, git) =>
      match steps.info with
      | none => (.error (.failed "can't read existing git info file"), git)
      | some info =>
          let git := (writeFile false config (projectPath config.projectID ++ ".info") info git).2
          match gitCommit steps.commit config git with
          | (.error err, git) => (.error err, git)
          | (.ok _, git) => gitPush steps.push config git

def getLatestCommitHash (fails : Bool) (config : GitConfig) (git : GitState) :
    Except GoError String :=
  match git.disk config.localPath with
  | none => .error noRepository
  | some clone =>
      match clone.commits.find? fun commit =>
          (firstChanged (projectPath config.projectID) commit).isSome with
      | none => .error (.failed "Failed to get latest commit hash:EOF")
      | some commit => if fails then .error gitError else .ok commit.hash

def setupGitOps (steps : SetupSteps) (config : GitConfig) (git : GitState) :
    Except GoError String × GitState :=
  match setupGitRepo steps config git with
  | (.error err, git) => (.error err, git)
  | (.ok _, git) => (getLatestCommitHash steps.latestCommit config git, git)

/-! ### How a set-up ends -/

@[simp]
theorem GitState.disk_setClone_self (git : GitState) (path : String) (clone : Option Clone) :
    (git.setClone path clone).disk path = clone := Function.update_self ..

@[simp]
theorem GitState.disk_setClone_of_ne (git : GitState) {path other : String} (h : other ≠ path)
    (clone : Option Clone) : (git.setClone path clone).disk other = git.disk other :=
  Function.update_of_ne h ..

@[simp]
theorem GitState.remotes_setClone (git : GitState) (path : String) (clone : Option Clone) :
    (git.setClone path clone).remotes = git.remotes := rfl

@[simp]
theorem GitState.disk_setRemote (git : GitState) (repositoryURL branch : String)
    (commits : List Commit) : (git.setRemote repositoryURL branch commits).disk = git.disk := rfl

@[simp]
theorem isAhead_cons (commit : Commit) (commits : List Commit) :
    isAhead (commit :: commits) commits = true := by
  rw [isAhead, List.isSuffixOf_iff_suffix, List.map_cons]
  exact List.suffix_cons ..

/-- The set-up comes to a clone. -/
def SetupSteps.clones (steps : SetupSteps) : Bool :=
  !steps.removeAll && !steps.auth && !steps.clone

/-- What follows the clone succeeds: `.info` is committed and pushed, and there is a commit of the
project directory. -/
def SetupSteps.pushes (steps : SetupSteps) (config : GitConfig) (git : GitState) : Bool :=
  steps.info.isSome && config.authType ≠ .none && !steps.push && !steps.latestCommit &&
    match steps.commit with
    | none => false
    | some (_, changed) => changed.any (acceptsPath (projectPath config.projectID)) ||
        (git.remotes config.repositoryURL config.branch).any fun commit =>
          (firstChanged (projectPath config.projectID) commit).isSome

theorem getLatestCommitHash_ok_iff {fails : Bool} {config : GitConfig} {git : GitState} :
    (∃ hash, getLatestCommitHash fails config git = .ok hash) ↔ fails = false ∧
      ((git.disk config.localPath).any fun clone => clone.commits.any fun commit =>
        (firstChanged (projectPath config.projectID) commit).isSome) = true := by
  unfold getLatestCommitHash
  cases git.disk config.localPath with
  | none => simp
  | some clone =>
      simp only [Option.any_some, ← List.isSome_find?]
      split
      · rename_i hnone
        simp [hnone]
      · rename_i commit hsome
        cases fails <;> simp [hsome]

section Setup

variable {steps : SetupSteps} (config : GitConfig) (git : GitState)

theorem setupGitOps_of_not_clones (h : steps.clones = false) :
    (∃ err, (setupGitOps steps config git).1 = .error err) ∧
      ((setupGitOps steps config git).2 = git ∨
        (setupGitOps steps config git).2 = git.setClone config.localPath none) := by
  unfold setupGitOps setupGitRepo gitClone removeAll
  cases hremove : steps.removeAll with
  | true => exact ⟨⟨_, rfl⟩, Or.inl rfl⟩
  | false =>
      have hfails : (steps.auth || steps.clone) = true := by
        simp only [SetupSteps.clones, hremove] at h
        cases hauth : steps.auth <;> simp_all
      simp only [Bool.false_eq_true, if_false, hfails, if_true]
      exact ⟨⟨_, rfl⟩, Or.inr trivial⟩

theorem setupGitOps_of_clones (h : steps.clones = true) :
    (∃ clone, (setupGitOps steps config git).2.disk config.localPath = some clone ∧
        clone.repositoryURL = config.repositoryURL ∧ clone.branch = config.branch) ∧
      (∀ other, other ≠ config.localPath →
        (setupGitOps steps config git).2.disk other = git.disk other) ∧
      ((∃ commit, (setupGitOps steps config git).1 = .ok commit) ↔
        steps.pushes config git = true) := by
  simp only [SetupSteps.clones, Bool.and_eq_true, Bool.not_eq_true'] at h
  obtain ⟨⟨hremove, hauth⟩, hclone⟩ := h
  unfold setupGitOps setupGitRepo gitClone removeAll SetupSteps.pushes
  simp only [hremove, hauth, hclone, Bool.false_eq_true, if_false, Bool.or_self]
  cases hinfo : steps.info with
  | none =>
      refine ⟨⟨_, GitState.disk_setClone_self .., rfl, rfl⟩, fun other hother => ?_, by simp⟩
      simp [hother]
  | some info =>
      simp only [writeFile, GitState.disk_setClone_self, Bool.false_eq_true, if_false, gitCommit]
      cases hcommit : steps.commit with
      | none =>
          refine ⟨⟨_, GitState.disk_setClone_self .., rfl, rfl⟩, fun other hother => ?_, by simp⟩
          simp [hother]
      | some commit =>
          obtain ⟨hash, changed⟩ := commit
          simp only [gitPush, GitState.disk_setClone_self, GitState.remotes_setClone,
            isAhead_cons, Bool.not_true, Bool.or_false]
          by_cases hauthType : config.authType = .none
          · rw [if_pos hauthType]
            refine ⟨⟨_, GitState.disk_setClone_self .., rfl, rfl⟩, fun other hother => ?_, ?_⟩
            · simp [hother]
            · simp [hauthType]
          · rw [if_neg hauthType]
            cases hpush : steps.push with
            | true =>
                simp only [if_true]
                refine ⟨⟨_, GitState.disk_setClone_self .., rfl, rfl⟩, fun other hother => ?_, ?_⟩
                · simp [hother]
                · simp
            | false =>
                simp only [Bool.false_eq_true, if_false]
                refine ⟨⟨_, GitState.disk_setClone_self .., rfl, rfl⟩, fun other hother => ?_, ?_⟩
                · simp [hother]
                · rw [getLatestCommitHash_ok_iff]
                  simp [hauthType, firstChanged, List.isSome_find?]

end Setup

end LitmusPortal
