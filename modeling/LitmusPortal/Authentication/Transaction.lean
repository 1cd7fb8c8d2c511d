import LitmusPortal.Authentication.SelfService

/-!
# The activation of users

A user is activated or deactivated inside of a transaction. What belongs to a transaction are the operations
that carry its context; the repositories issue theirs with a background context, so that a failure after the
first of them leaves what was written.
-/

namespace LitmusPortal.Authentication

open DocumentStore Program

/-! ## Transactions -/

inductive Context where
  | background
  | session
  deriving DecidableEq, Repr

/-- A call is answered, or it fails once so many documents are written. -/
inductive Outcome where
  | answered
  | failed (documents : Nat)
  deriving DecidableEq, Repr

/-- The database, and the changes of the transaction that are not yet committed. -/
structure Session where
  db : Database
  transaction : List (Database → Database)

abbrev SessionCall := EStateM GoError Session

def errUpdatingAdmin : GoError := .failed "cannot remove admin"
def errUserAlreadyDeactivated : GoError := .failed "user already deactivated"

def reach : Outcome → SessionCall Unit
  | .answered => pure ()
  | .failed _ => throw serverDown

/-- A failed operation of a transaction aborts it. -/
def issue (ctx : Context) (outcome : Outcome) (change : Outcome → Database → Database) :
    SessionCall Unit := do
  match ctx, outcome with
  | .background, _ => modify fun session => { session with db := change outcome session.db }
  | .session, .answered =>
      modify fun session => { session with transaction := session.transaction ++ [change .answered] }
  | .session, .failed _ => modify fun session => { session with transaction := [] }
  reach outcome

def commitTransaction (outcome : Outcome) : SessionCall Unit := do
  reach outcome
  modify fun session =>
    { db := session.transaction.foldl (fun db change => change db) session.db, transaction := [] }

/-! ## Repositories -/

def setUserState (deactivatedAt : Option String) : Change User.id where
  val user := { user with deactivatedAt := deactivatedAt }
  property _ := rfl

def setMemberState (userID deactivateTime : String) (member : Member) : Member :=
  if member.userID = userID then { member with deactivatedAt := some deactivateTime } else member

def setRemovedAt (deactivateTime : String) : Change Project.id where
  val project := { project with removedAt := deactivateTime }
  property _ := rfl

def isOwnerOf (userID : String) (project : Project) : Bool :=
  project.members.any fun member => member.userID = userID ∧ member.role = .owner

def changeUser (username : String) (deactivatedAt : Option String) (outcome : Outcome) (db : Database) :
    Database :=
  match outcome with
  | .failed 0 => db
  | .failed (_ + 1) | .answered =>
      { db with
        users := db.users.update (fun user => user.userName = username) (setUserState deactivatedAt) }

def Outcome.limit (outcome : Outcome) (db : Database) : Nat :=
  match outcome with
  | .answered => db.projects.docs.length
  | .failed documents => documents

/-- `UpdateMany` on the entries of the user; its filter takes every project. -/
def changeEntries (userID deactivateTime : String) (outcome : Outcome) (db : Database) : Database :=
  { db with
    projects := db.projects.updateMany (outcome.limit db) (fun _ => true)
      (setMembers fun members => members.map (setMemberState userID deactivateTime)) }

/-- `UpdateMany` on the projects of the user. -/
def changeRemoved (userID deactivateTime : String) (outcome : Outcome) (db : Database) : Database :=
  { db with
    projects := db.projects.updateMany (outcome.limit db) (isOwnerOf userID) (setRemovedAt deactivateTime) }

structure UpdateUserState where
  username : String
  isDeactivate : Bool
  deriving DecidableEq, Repr

structure Outcomes where
  now : Int
  startSession : Outcome
  startTransaction : Outcome
  findUser : Outcome
  updateUser : Outcome
  updateEntries : Outcome
  updateRemoved : Outcome
  commit : Outcome
  deriving DecidableEq, Repr

variable (env : Outcomes) (userRequest : UpdateUserState)

namespace Repository

def findUserByUsername (username : String) : SessionCall User := do
  reach env.findUser
  let session ← get
  match session.db.users.docs.find? fun user => user.userName = username with
  | none => throw errNoDocuments
  | some user => return user

def updateUserState (username : String) (isDeactivate : Bool) (deactivateTime : String) :
    SessionCall Unit :=
  if isDeactivate then issue .background env.updateUser (changeUser username (some deactivateTime))
  else issue .background env.updateUser (changeUser username none)

def updateProjectState (userID deactivateTime : String) : SessionCall Unit := do
  issue .background env.updateEntries (changeEntries userID deactivateTime)
  issue .background env.updateRemoved (changeRemoved userID deactivateTime)

end Repository

/-! ## The handler -/

/-- The empty time stands for an active user. -/
def deactivateTime : String := if userRequest.isDeactivate then formatTime env.now else ""

def updateState (user : User) : SessionCall Unit := do
  mapError (fun _ => errServerError) (Repository.updateUserState env userRequest.username
    userRequest.isDeactivate (deactivateTime env userRequest))
  mapError (fun _ => errServerError)
    (Repository.updateProjectState env user.id (deactivateTime env userRequest))
  commitTransaction env.commit

def updateStateTransaction : SessionCall Unit := do
  reach env.startSession
  reach env.startTransaction
  let user ← mapError (fun _ => errUserNotFound)
    (Repository.findUserByUsername env userRequest.username)
  if user.role = .admin then throw errUpdatingAdmin
  else if userRequest.isDeactivate ∧ user.deactivatedAt ≠ none then throw errUserAlreadyDeactivated
  else updateState env userRequest user

end LitmusPortal.Authentication
