import LitmusPortal.Lib.Documents
import LitmusPortal.Lib.Program
import LitmusPortal.Schema

/-!
# Users and projects of the authentication service

The documents of the users and projects and the repositories over them. Each call of a repository may
fail, a write also after it has been made.
-/

namespace LitmusPortal.Authentication

open DocumentStore

/-! ## Documents -/

/-- A role in a project is a text, of which three have a meaning. -/
inductive MemberRole where
  | owner
  | editor
  | viewer
  | other (text : String)
  deriving DecidableEq, Repr

inductive Invitation where
  | pending
  | accepted
  | declined
  | exited
  | other (text : String)
  deriving DecidableEq, Repr

structure Member where
  userID : String
  role : MemberRole
  invitation : Invitation
  joinedAt : String
  deactivatedAt : Option String
  deriving DecidableEq, Repr

structure Project where
  id : String
  name : String
  members : List Member
  state : Option String
  createdAt : String
  updatedAt : String
  removedAt : String
  deriving DecidableEq, Repr

/-- The role of a user in the portal. -/
inductive Role where
  | admin
  | user
  deriving DecidableEq, Repr

structure User where
  id : String
  userName : String
  role : Role
  deactivatedAt : Option String
  deriving DecidableEq, Repr

structure Database where
  users : Documents User.id
  projects : Documents Project.id

/-! ## Calls -/

/-- What may happen to a call: it fails, or a write is made and the answer to it is lost. -/
inductive Fault where
  | none
  | fails
  | unanswered
  deriving DecidableEq, Repr

structure Env where
  now : Nat → Int
  fault : Nat → Fault

structure World where
  db : Database
  calls : Nat

abbrev Call := EStateM GoError World

variable (env : Env)

def serverDown : GoError := .failed "database is not reachable"

def errNoDocuments : GoError := .failed "mongo: no documents in result"

def errNotMatched : GoError := .failed "could not find matching projectID in database"

def read {α : Type} (find : Database → α) : Call α := do
  let world ← modifyGet fun world => (world, { world with calls := world.calls + 1 })
  match env.fault world.calls with
  | .none => return find world.db
  | _ => throw serverDown

def write (change : Database → Database) : Call Unit := do
  let world ← modifyGet fun world => (world, { world with calls := world.calls + 1 })
  match env.fault world.calls with
  | .none => set { world with db := change world.db, calls := world.calls + 1 }
  | .fails => throw serverDown
  | .unanswered => do
      set { world with db := change world.db, calls := world.calls + 1 }
      throw serverDown

def timestamp : Call String := do
  let world ← get
  return formatTime (env.now world.calls)

/-! ## Repositories -/

namespace Repository

def getUser (uid : String) : Call User := do
  let user ← read env fun db => db.users.docs.find? fun user => user.id = uid
  match user with
  | none => throw errNoDocuments
  | some user => return user

def getProjects (query : Project → Bool) : Call (List Project) :=
  read env fun db => db.projects.docs.filter query

def getProjectByProjectID (projectID : String) : Call Project := do
  let project ← read env fun db => db.projects.docs.find? fun project => project.id = projectID
  match project with
  | none => throw errNoDocuments
  | some project => return project

def createProject (project : Project) : Call Unit := do
  let world ← get
  write env fun db => { db with projects := db.projects.add project }
  if world.db.projects.docs.any fun other => other.id = project.id then throw (.failed "user_exists")

end Repository

def setMembers (change : List Member → List Member) : Change Project.id where
  val project := { project with members := change project.members }
  property _ := rfl

def Database.changeMembers (db : Database) (projectID : String) (change : List Member → List Member) :
    Database :=
  { db with projects := db.projects.update (fun project => project.id = projectID) (setMembers change) }

/-- The members of a project are changed; no project with the id is an error. -/
def updateMembers (projectID : String) (change : List Member → List Member) : Call Unit := do
  let world ← get
  write env fun db => db.changeMembers projectID change
  if world.db.projects.docs.any fun project => project.id = projectID then return ()
  else throw errNotMatched

/-- The `$set` of an invitation under the array filter on the user id; a role without a value is stored
as null. -/
def setInvitation (userID : String) (invitation : Invitation) (role : Option MemberRole) (time : String)
    (member : Member) : Member :=
  if member.userID = userID then
    match invitation with
    | .pending => { member with invitation := .pending, role := role.getD (.other "") }
    | .accepted => { member with invitation := .accepted, joinedAt := time }
    | .declined => { member with invitation := .declined }
    | .exited => { member with invitation := .exited }
    | .other _ => member
  else member

namespace Repository

def addMember (projectID : String) (member : Member) : Call Unit :=
  updateMembers env projectID fun members => members ++ [member]

/-- The invitation that it is given makes no difference. -/
def removeInvitation (projectID userID : String) (_invitation : Invitation) : Call Unit :=
  updateMembers env projectID fun members => members.filter fun member => member.userID ≠ userID

/-- Any other invitation leaves the update without a document, which the driver refuses. -/
def updateInvite (projectID userID : String) (invitation : Invitation) (role : Option MemberRole) :
    Call Unit := do
  match invitation with
  | .other _ => throw (.failed "document is nil")
  | _ => do
      let time ← timestamp env
      updateMembers env projectID fun members => members.map (setInvitation userID invitation role time)

end Repository

end LitmusPortal.Authentication
