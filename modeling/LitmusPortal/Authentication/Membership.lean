import LitmusPortal.Authentication.Store

/-!
# The membership of projects

The project handlers that invite, accept, decline, leave and remove. The right to call one is checked
for the user of the token, and the entry to change is that of the user id of the body.
-/

namespace LitmusPortal.Authentication

open DocumentStore

variable (env : Env)

/-! ## Requests and answers -/

structure MemberInput where
  projectID : String
  userID : String
  role : Option MemberRole
  deriving DecidableEq, Repr

structure CreateProjectInput where
  projectName : String
  deriving DecidableEq, Repr

def errInvalidRequest : GoError := .failed "invalid_request"
def errUnauthorized : GoError := .failed "unauthorized"
def errServerError : GoError := .failed "server_error"
def errUserNotFound : GoError := .failed "user does not exist"
def errProjectNotFound : GoError := .failed "project does not exist"
def errInvalidRole : GoError := .failed "invalid role"
def errEmptyProjectName : GoError := .failed "invalid project name"

def answer {α : Type} (reply : GoError → GoError) (call : Call α) : Call α := Program.mapError reply call

def orServerError (notFound : GoError) (err : GoError) : GoError :=
  if err = errNoDocuments then notFound else errServerError

/-! ## Permissions -/

inductive Rule where
  | sendInvitation
  | acceptInvitation
  | declineInvitation
  | removeInvitation
  | leaveProject
  deriving DecidableEq, Repr

def mutationRbacRules : Rule → List MemberRole
  | .sendInvitation | .removeInvitation => [.owner]
  | .acceptInvitation | .declineInvitation | .leaveProject => [.viewer, .editor]

/-- The `$elemMatch` on the members. -/
def hasMember (uid : String) (requiredRoles : List MemberRole) (invitation : Invitation)
    (project : Project) : Bool :=
  project.members.any fun member =>
    member.userID = uid ∧ member.role ∈ requiredRoles ∧ member.invitation = invitation

def rbacValidator (uid projectID : String) (requiredRoles : List MemberRole) (invitation : Invitation) :
    Call Unit := do
  let user ← Repository.getUser env uid
  if user.deactivatedAt ≠ none then throw (.failed "auth gRPC - Deactivated User")
  else do
    let projects ← Repository.getProjects env fun project =>
      project.id = projectID ∧ hasMember uid requiredRoles invitation project
    if projects = [] then throw (.failed "auth gRPC - Unauthorized")

def validate (uid projectID : String) (rule : Rule) (invitation : Invitation) : Call Unit :=
  answer (fun _ => errUnauthorized)
    (rbacValidator env uid projectID (mutationRbacRules rule) invitation)

/-! ## Handlers -/

/-- The invitation of the first entry, or the empty text. -/
def invitationOf (members : List Member) (userID : String) : Invitation :=
  match members.find? fun member => member.userID = userID with
  | none => .other ""
  | some member => member.invitation

def getInvitation (member : MemberInput) : Call Invitation := do
  let project ← Repository.getProjectByProjectID env member.projectID
  return invitationOf project.members member.userID

def sendInvitation (uid : String) (member : MemberInput) : Call Unit := do
  validate env uid member.projectID .sendInvitation .accepted
  if member.role ≠ some .editor ∧ member.role ≠ some .viewer then throw errInvalidRole
  else do
    let user ← answer (orServerError errUserNotFound) (Repository.getUser env member.userID)
    let invitation ← answer (orServerError errProjectNotFound) (getInvitation env member)
    match invitation with
    | .accepted => throw (.failed "user is already a member of this project")
    | .pending | .declined | .exited =>
        answer (fun _ => errServerError)
          (Repository.updateInvite env member.projectID member.userID .pending member.role)
    | .other _ => do
        let joinedAt ← timestamp env
        answer (fun _ => errServerError) (Repository.addMember env member.projectID
          { userID := user.id
            role := member.role.getD (.other "")
            invitation := .pending
            joinedAt := joinedAt
            deactivatedAt := none })

/-- The handlers with which a member changes the invitation. -/
def changeInvitation (rule : Rule) (required invitation : Invitation) (uid : String)
    (member : MemberInput) : Call Unit := do
  validate env uid member.projectID rule required
  answer (fun _ => errServerError)
    (Repository.updateInvite env member.projectID member.userID invitation none)

def acceptInvitation : String → MemberInput → Call Unit :=
  changeInvitation env .acceptInvitation .pending .accepted

def declineInvitation : String → MemberInput → Call Unit :=
  changeInvitation env .declineInvitation .pending .declined

def leaveProject : String → MemberInput → Call Unit :=
  changeInvitation env .leaveProject .accepted .exited

def removeInvitation (uid : String) (member : MemberInput) : Call Unit := do
  if member.userID = "" then throw errInvalidRequest
  else do
    validate env uid member.projectID .removeInvitation .accepted
    let invitation ← answer (fun _ => errServerError) (getInvitation env member)
    match invitation with
    | .accepted | .pending =>
        answer (fun _ => errServerError)
          (Repository.removeInvitation env member.projectID member.userID invitation)
    | .declined | .exited => throw (.failed "User is already not a part of your project")
    | .other _ => return ()

/-- `projectID` is the new random id. What follows the insertion prepares the project in the
graphql-server. -/
def createProject (projectID uid : String) (userRequest : CreateProjectInput) : Call Project := do
  if userRequest.projectName = "" then throw errEmptyProjectName
  else do
    let user ← answer (fun _ => errServerError) (Repository.getUser env uid)
    let projects ← Repository.getProjects env fun project => project.name = userRequest.projectName
    if projects ≠ [] then
      throw (.failed ("project with name:" ++ userRequest.projectName ++ " already exists"))
    else do
      let joinedAt ← timestamp env
      let createdAt ← timestamp env
      let updatedAt ← timestamp env
      let newProject : Project :=
        { id := projectID
          name := userRequest.projectName
          members := [{ userID := user.id
                        role := .owner
                        invitation := .accepted
                        joinedAt := joinedAt
                        deactivatedAt := none }]
          state := some "active"
          createdAt := createdAt
          updatedAt := updatedAt
          removedAt := "" }
      answer (fun _ => errServerError) (Repository.createProject env newProject)
      return newProject

end LitmusPortal.Authentication
