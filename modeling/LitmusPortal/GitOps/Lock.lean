import LitmusPortal.GitOps.Config
import LitmusPortal.Lib.GoStrings
import LitmusPortal.Lib.Transition
import LitmusPortal.Workflow.Manifest
import Mathlib.Logic.Function.Basic

/-!
# The locks of the GitOps handlers

`GitMutexLock` makes a mutex for each key when the key is first locked, in a map that has a mutex of
its own. `Lock` and `Unlock` are taken apart into the steps between which other goroutines move. A
handler is the tree of what it does next, for each result of the calls it makes; its deferred unlocks
run in reverse order when it returns and when it panics.
-/

namespace LitmusPortal.GitLock

/-- `none` where the slice of the last two pieces is out of range, and `getKey` panics. -/
def getKey (repo : String) (branch : Option String) : Option String :=
  match branch with
  | none => some repo
  | some branch =>
      let key := GoStrings.trim repo ".git"
      let split := GoStrings.splitAt (fun c => c == ':' || c == '/') key
      if split.length < 2 then none
      else some (String.intercalate "/" (split.drop (split.length - 2)) ++ "/" ++ branch)

structure LockArgs where
  repo : String
  branch : Option String
  key : String
  getKey_eq : getKey repo branch = some key

def lockArgs (repo : String) (branch : Option String) : Option LockArgs :=
  match h : getKey repo branch with
  | none => none
  | some key => some ⟨repo, branch, key, h⟩

/-- The addresses from `allocated` on have not been given to a mutex yet. -/
structure GitMutexLock where
  mapMutex : Bool
  gitMutex : String → Option Nat
  locked : Nat → Bool
  allocated : Nat

def newGitLock : GitMutexLock where
  mapMutex := false
  gitMutex := fun _ => none
  locked := fun _ => false
  allocated := 0

/-- `g.gitMutex[key] = &sync.Mutex{}` -/
def GitMutexLock.newMutex (g : GitMutexLock) (key : String) : GitMutexLock :=
  { g with
    gitMutex := Function.update g.gitMutex key (some g.allocated)
    locked := Function.update g.locked g.allocated false
    allocated := g.allocated + 1 }

def GitMutexLock.setLocked (g : GitMutexLock) (temp : Nat) (locked : Bool) : GitMutexLock :=
  { g with locked := Function.update g.locked temp locked }

/-- `none` while the mutex is taken. -/
def GitMutexLock.lockMap (g : GitMutexLock) : Option GitMutexLock :=
  if g.mapMutex then none else some { g with mapMutex := true }

/-- `none` where the mutex is not locked, which is fatal. -/
def GitMutexLock.unlockMap (g : GitMutexLock) : Option GitMutexLock :=
  if g.mapMutex then some { g with mapMutex := false } else none

inductive LockAt where
  | lockMap
  | check
  | create
  | read
  | unlockMap (temp : Nat)
  | lock (temp : Nat)
  deriving DecidableEq, Repr

inductive UnlockAt where
  | lockMap
  | check
  | read
  | unlockMap (temp : Nat)
  | unlock (temp : Nat)
  deriving DecidableEq, Repr

/-- A step of `Lock`, and where it stands then; it has returned where that is `none`. -/
def GitMutexLock.lock (g : GitMutexLock) (key : String) :
    LockAt → Option (GitMutexLock × Option LockAt)
  | .lockMap => g.lockMap.map fun g => (g, some .check)
  | .check => some (g, some (if (g.gitMutex key).isNone then .create else .read))
  | .create => some (g.newMutex key, some .read)
  | .read => (g.gitMutex key).map fun temp => (g, some (.unlockMap temp))
  | .unlockMap temp => g.unlockMap.map fun g => (g, some (.lock temp))
  | .lock temp => if g.locked temp then none else some (g.setLocked temp true, none)

/-- A step of `Unlock`. It returns early, with the mutex of the map still locked, for a key that the
map does not have. -/
def GitMutexLock.unlock (g : GitMutexLock) (key : String) :
    UnlockAt → Option (GitMutexLock × Option UnlockAt)
  | .lockMap => g.lockMap.map fun g => (g, some .check)
  | .check => some (g, if (g.gitMutex key).isNone then none else some .read)
  | .read => (g.gitMutex key).map fun temp => (g, some (.unlockMap temp))
  | .unlockMap temp => g.unlockMap.map fun g => (g, some (.unlock temp))
  | .unlock temp => if g.locked temp then some (g.setLocked temp false, none) else none

inductive Call where
  | getProjectById
  | setupGitOps
  | addGitConfig
  | deleteGitConfig
  | removeAll
  | replaceGitConfig
  | rename
  | getWorkflows
  | setWorkflowName
  | sendWorkflowToSubscriber
  | syncDBToGit
  | jsonToYAML
  | writeFile
  | pathExists
  | gitCommit
  | gitPush
  | updateGitConfig
  deriving DecidableEq, Repr

inductive Code where
  | done
  /-- `gitLock.Lock(repo, branch)` and, when it returns, `defer gitLock.Unlock(repo, branch)`. -/
  | lock (repo : String) (branch : Option String) (next : Code)
  | getGitConfig (projectID : String) (next : Except String (Option GitConfigDB) → Code)
  /-- A call, and what follows it without and with an error. -/
  | call (name : Call) (next failed : Code)

/-- `if err != nil { return err }` -/
def Code.orReturn (name : Call) (next : Code) : Code := .call name next .done

def enableGitOpsHandler (config : GitConfigInput) : Code :=
  .lock config.projectID none <|
  .lock config.repoURL (some config.branch) <|
  .orReturn .getProjectById <|
  .orReturn .setupGitOps <|
  .orReturn .addGitConfig .done

def disableGitOpsHandler (projectID : String) : Code :=
  .lock projectID none <|
  .orReturn .deleteGitConfig <|
  .orReturn .removeAll .done

def getGitOpsDetails (projectID : String) : Code :=
  .lock projectID none <|
  .getGitConfig projectID fun _ => .done

def updateGitOpsDetailsHandler (config : GitConfigInput) : Code :=
  .lock config.projectID none <|
  .lock config.repoURL (some config.branch) <|
  .getGitConfig config.projectID fun
    | .ok (some _) =>
        .orReturn .setupGitOps <|
        .orReturn .replaceGitConfig <|
        .orReturn .removeAll <|
        .orReturn .rename .done
    | _ => .done

/-- What `GitOpsNotificationHandler` does once the cluster, of this project, is verified. A workflow
that is not found and a cron workflow end it as an error does. -/
def gitOpsNotificationHandler (projectID : String) : Code :=
  .lock projectID none <|
  .getGitConfig projectID fun
    | .ok (some _) =>
        .orReturn .getWorkflows <|
        .orReturn .setWorkflowName <|
        .orReturn .sendWorkflowToSubscriber .done
    | _ => .done

def upsertWorkflowToGit (workflow : ChaosWorkFlowRequest) : Code :=
  .lock workflow.projectID none <|
  .getGitConfig workflow.projectID fun
    | .ok (some config) =>
        .lock config.repositoryURL (some config.branch) <|
        .orReturn .syncDBToGit <|
        .orReturn .jsonToYAML <|
        .orReturn .writeFile <|
        .orReturn .gitCommit <|
        .orReturn .gitPush <|
        .orReturn .updateGitConfig .done
    | _ => .done

/-- A file that is not found ends it as an error does. -/
def deleteWorkflowFromGit (workflow : ChaosWorkFlowRequest) : Code :=
  .lock workflow.projectID none <|
  .getGitConfig workflow.projectID fun
    | .ok (some config) =>
        .lock config.repositoryURL (some config.branch) <|
        .orReturn .syncDBToGit <|
        .orReturn .pathExists <|
        .orReturn .removeAll <|
        .orReturn .gitCommit <|
        .orReturn .gitPush <|
        .orReturn .updateGitConfig .done
    | _ => .done

/-- The lock is on the repository of the configuration the sync was started with, which need not be
the one read from the database afterwards. -/
def gitSyncHelper (config : GitConfigDB) : Code :=
  .lock config.projectID none <|
  .lock config.repositoryURL (some config.branch) <|
  .getGitConfig config.projectID fun
    | .ok (some _) => .call .syncDBToGit .done .done
    | _ => .done

inductive Handler where
  | enableGitOps (config : GitConfigInput)
  | disableGitOps (projectID : String)
  | gitOpsDetails (projectID : String)
  | updateGitOps (config : GitConfigInput)
  | gitOpsNotification (projectID : String)
  | upsertWorkflow (workflow : ChaosWorkFlowRequest)
  | deleteWorkflow (workflow : ChaosWorkFlowRequest)
  | gitSync (config : GitConfigDB)

def Handler.projectID : Handler → String
  | .enableGitOps config | .updateGitOps config => config.projectID
  | .disableGitOps projectID | .gitOpsDetails projectID | .gitOpsNotification projectID => projectID
  | .upsertWorkflow workflow | .deleteWorkflow workflow => workflow.projectID
  | .gitSync config => config.projectID

def Handler.code : Handler → Code
  | .enableGitOps config => enableGitOpsHandler config
  | .disableGitOps projectID => disableGitOpsHandler projectID
  | .gitOpsDetails projectID => getGitOpsDetails projectID
  | .updateGitOps config => updateGitOpsDetailsHandler config
  | .gitOpsNotification projectID => gitOpsNotificationHandler projectID
  | .upsertWorkflow workflow => upsertWorkflowToGit workflow
  | .deleteWorkflow workflow => deleteWorkflowFromGit workflow
  | .gitSync config => gitSyncHelper config

inductive Pc where
  | body (code : Code)
  | lock (place : LockAt) (args : LockArgs) (next : Code)
  /-- The deferred calls are next. -/
  | unwind
  /-- `Unlock` of the deferred call that is first. -/
  | unlock (place : UnlockAt)

/-- The deferred unlocks, the last one first. -/
structure Goroutine where
  pc : Pc
  deferred : List LockArgs

def Goroutine.start (handler : Handler) : Goroutine := ⟨.body handler.code, []⟩

def Goroutine.Finished (goroutine : Goroutine) : Prop :=
  goroutine.pc = .unwind ∧ goroutine.deferred = []

/-- How what a handler calls goes. -/
structure Reply where
  config : Except String (Option GitConfigDB)
  fails : Bool
  panics : Bool

def Goroutine.step (g : GitMutexLock) (goroutine : Goroutine) (reply : Reply) :
    Option (GitMutexLock × Goroutine) :=
  let goto (pc : Pc) := some (g, { goroutine with pc := pc })
  match goroutine.pc with
  | .body .done => goto .unwind
  | .body (.lock repo branch next) =>
      match lockArgs repo branch with
      | none => goto .unwind
      | some args => goto (.lock .lockMap args next)
  | .body (.getGitConfig _ next) =>
      goto (if reply.panics then .unwind else .body (next reply.config))
  | .body (.call _ next failed) =>
      goto (if reply.panics then .unwind else .body (if reply.fails then failed else next))
  | .lock place args next =>
      (g.lock args.key place).map fun
        | (g, some place) => (g, { goroutine with pc := .lock place args next })
        | (g, none) => (g, { pc := .body next, deferred := args :: goroutine.deferred })
  | .unwind =>
      match goroutine.deferred with
      | [] => none
      | _ :: _ => goto (.unlock .lockMap)
  | .unlock place =>
      match goroutine.deferred with
      | [] => none
      | args :: rest =>
          (g.unlock args.key place).map fun
            | (g, some place) => (g, { goroutine with pc := .unlock place })
            | (g, none) => (g, { pc := .unwind, deferred := rest })

variable {Run : Type*} [DecidableEq Run]

structure State (Run : Type*) where
  gitLock : GitMutexLock
  goroutines : Run → Goroutine

/-- One run of a handler takes a step. -/
def step (state : State Run) : Run × Reply → Option (State Run)
  | (run, reply) =>
      ((state.goroutines run).step state.gitLock reply).map fun (gitLock, goroutine) =>
        { gitLock, goroutines := Function.update state.goroutines run goroutine }

def start (handlers : Run → Handler) : State Run where
  gitLock := newGitLock
  goroutines := fun run => .start (handlers run)

/-- The keys whose `Lock` has returned, and whose mutex `Unlock` has not given back. -/
def Goroutine.held (goroutine : Goroutine) : List String := goroutine.deferred.map (·.key)

/-- The goroutine is between `Lock` and `Unlock` of the mutex of the map. -/
def Goroutine.InMap (goroutine : Goroutine) : Prop :=
  match goroutine.pc with
  | .lock .check _ _ | .lock .create _ _ | .lock .read _ _ | .lock (.unlockMap _) _ _ => True
  | .unlock .check | .unlock .read | .unlock (.unlockMap _) => True
  | _ => False

def InCriticalSection (state : State Run) (run : Run) (key : String) : Prop :=
  key ∈ (state.goroutines run).held

def HoldsLock (state : State Run) (run : Run) : Prop :=
  (state.goroutines run).InMap ∨ ∃ key, InCriticalSection state run key

/-- The run can move whatever its calls return. -/
def CanStep (state : State Run) (run : Run) : Prop :=
  ∀ reply, (step state (run, reply)).isSome

end LitmusPortal.GitLock
