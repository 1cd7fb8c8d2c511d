import LitmusPortal.Authentication.Calls

/-!
# Members that answer for themselves

A member accepts or declines an invitation, or leaves. The check is made for the user of the token, the
write for the user id of the body: the entries of the other members stay as they are exactly when the two
are one, or when the entries of the body's user already have the new invitation.
-/

namespace LitmusPortal.Authentication

open DocumentStore Program

inductive SelfService where
  | accept
  | decline
  | leave
  deriving DecidableEq, Repr

def SelfService.request : SelfService → MemberInput → Request
  | .accept => .acceptInvitation
  | .decline => .declineInvitation
  | .leave => .leaveProject

def SelfService.outcome : SelfService → Invitation
  | .accept => .accepted
  | .decline => .declined
  | .leave => .exited

variable {env : Env} {db : Database} {uid : String}

theorem changed_of_ok {service : SelfService} {member : MemberInput} {calls : Nat} {world' : World}
    (hrun : handle env uid (service.request member) ⟨db, calls⟩ = .ok () world') :
    ∃ time, world'.db = db.changeMembers member.projectID fun members =>
      members.map (setInvitation member.userID service.outcome none time) := by
  have hchanged : Changed db uid (service.request member) world'.db := by
    cases service with
    | accept =>
        have h := @triple_changeInvitation env db uid _ _ _ member _ rfl fun time => .accept member time
        exact h.ok rfl hrun
    | decline =>
        have h := @triple_changeInvitation env db uid _ _ _ member _ rfl fun time => .decline member time
        exact h.ok rfl hrun
    | leave =>
        have h := @triple_changeInvitation env db uid _ _ _ member _ rfl fun time => .leave member time
        exact h.ok rfl hrun
  obtain ⟨change, hmakes, hdb⟩ := hchanged
  cases service with
  | accept =>
      cases hmakes with
      | accept _ time _ => exact ⟨time, hdb⟩
  | decline =>
      cases hmakes with
      | decline _ time _ => exact ⟨time, hdb⟩
  | leave =>
      cases hmakes with
      | leave _ time _ => exact ⟨time, hdb⟩

/-! ## The entries of the other members -/

/-- What an entry says of a member. -/
def Member.entry (member : Member) : String × MemberRole × Invitation :=
  (member.userID, member.role, member.invitation)

/-- Nothing but the entries of one user in one project is changed. -/
structure ProjectKept (uid projectID : String) (before after : Project) : Prop where
  others : before.id ≠ projectID → after = before
  rest : after = { before with members := after.members }
  members : List.Forall₂ (fun member member' : Member => member.userID ≠ uid → member'.entry = member.entry)
    before.members after.members

structure OthersKept (uid projectID : String) (before after : Database) : Prop where
  users : after.users = before.users
  projects : List.Forall₂ (ProjectKept uid projectID) before.projects.docs after.projects.docs

/-- The project of the body has no entry of its user with another invitation. -/
def HasOutcome (db : Database) (member : MemberInput) (outcome : Invitation) : Prop :=
  ∀ project ∈ db.projects.docs, project.id = member.projectID →
    ∀ entry ∈ project.members, entry.userID = member.userID → entry.invitation = outcome

theorem entry_setInvitation {service : SelfService} {userID time : String} {member : Member} :
    (setInvitation userID service.outcome none time member).entry = member.entry ↔
      (member.userID = userID → member.invitation = service.outcome) := by
  unfold setInvitation
  by_cases huser : member.userID = userID
  · cases service <;> simp [huser, Member.entry, SelfService.outcome, eq_comm]
  · simp [huser]

theorem projects_changeMembers (db : Database) (projectID : String)
    (change : List Member → List Member) :
    (db.changeMembers projectID change).projects.docs = db.projects.docs.map fun project =>
      if project.id = projectID then { project with members := change project.members } else project := by
  have hdocs := @Documents.docs_update _ _ _ db.projects (fun project => project.id = projectID)
    (setMembers change) projectID fun project hproject => of_decide_eq_true hproject
  rw [Database.changeMembers, hdocs]
  exact List.map_congr_left fun project _ => by simp [setMembers]

theorem othersKept_changeMembers {projectID : String} {change : Member → Member} :
    OthersKept uid projectID db (db.changeMembers projectID fun members => members.map change) ↔
      ∀ project ∈ db.projects.docs, project.id = projectID →
        ∀ member ∈ project.members, member.userID ≠ uid → (change member).entry = member.entry := by
  constructor
  · intro hkept project hproject hid member hmember huser
    have hprojects := hkept.projects
    rw [projects_changeMembers, List.forall₂_map_right_iff, List.forall₂_same] at hprojects
    have hmembers := (hprojects project hproject).members
    rw [if_pos hid, List.forall₂_map_right_iff, List.forall₂_same] at hmembers
    exact hmembers member hmember huser
  · intro hentries
    refine ⟨rfl, ?_⟩
    rw [projects_changeMembers, List.forall₂_map_right_iff, List.forall₂_same]
    intro project hproject
    by_cases hid : project.id = projectID
    · rw [if_pos hid]
      refine ⟨fun hne => absurd hid hne, rfl, ?_⟩
      rw [List.forall₂_map_right_iff, List.forall₂_same]
      exact fun member hmember => hentries project hproject hid member hmember
    · rw [if_neg hid]
      exact ⟨fun _ => rfl, rfl, List.forall₂_same.mpr fun _ _ _ => rfl⟩

/-- A member that succeeds changes the own entry only. -/
def SelfServiceOnly : Prop :=
  ∀ (service : SelfService) (env : Env) (uid : String) (member : MemberInput) (db : Database) (calls : Nat)
    (world' : World), handle env uid (service.request member) ⟨db, calls⟩ = .ok () world' →
      OthersKept uid member.projectID db world'.db

theorem othersKept_iff (service : SelfService) (env : Env) (uid : String) (member : MemberInput)
    (db : Database) (calls : Nat) (world' : World)
    (hrun : handle env uid (service.request member) ⟨db, calls⟩ = .ok () world') :
    OthersKept uid member.projectID db world'.db ↔
      member.userID = uid ∨ HasOutcome db member service.outcome := by
  obtain ⟨time, hdb⟩ := changed_of_ok hrun
  rw [hdb, othersKept_changeMembers]
  constructor
  · intro hentries
    by_cases huser : member.userID = uid
    · exact .inl huser
    · refine .inr fun project hproject hid entry hentry hbody => ?_
      have hkept := hentries project hproject hid entry hentry (hbody ▸ huser)
      exact entry_setInvitation.mp hkept hbody
  · intro hown project hproject hid entry hentry hother
    refine entry_setInvitation.mpr fun hbody => ?_
    rcases hown with huser | houtcome
    · exact absurd (hbody.trans huser) hother
    · exact houtcome project hproject hid entry hentry hbody

/-! ## A viewer and an owner -/

def calmEnv : Env := ⟨fun _ => 0, fun _ => .none⟩

def sampleUser (id : String) : User := ⟨id, id, .user, none⟩

def sampleMember (userID : String) (role : MemberRole) (invitation : Invitation) : Member :=
  ⟨userID, role, invitation, "0", none⟩

def sampleProject (id : String) (members : List Member) : Project :=
  ⟨id, id, members, some "active", "0", "0", ""⟩

def sampleUsers : Documents User.id := ⟨[sampleUser "owner", sampleUser "viewer"], by decide⟩

def sampleDatabase (members : List Member) : Database where
  users := sampleUsers
  projects := ⟨[sampleProject "project" members], by simp⟩

def ownedDatabase : Database :=
  sampleDatabase [sampleMember "owner" .owner .accepted, sampleMember "viewer" .viewer .accepted]

/-- What the members of the project are once the viewer has left in the name of a user. -/
def leftDatabase (userID : String) : Database :=
  ownedDatabase.changeMembers "project" fun members =>
    members.map (setInvitation userID .exited none (formatTime 0))

theorem leaveProject_ok (userID : String) :
    handle calmEnv "viewer" (.leaveProject ⟨"project", userID, none⟩) ⟨ownedDatabase, 0⟩ =
      .ok () ⟨leftDatabase userID, 3⟩ := rfl

theorem othersKept_viewerLeaves :
    OthersKept "viewer" "project" ownedDatabase (leftDatabase "viewer") :=
  (othersKept_iff .leave calmEnv "viewer" ⟨"project", "viewer", none⟩ ownedDatabase 0
    ⟨leftDatabase "viewer", 3⟩ (leaveProject_ok "viewer")).mpr (.inl rfl)

/-- The viewer leaves with the user id of the owner in the body. -/
theorem not_selfServiceOnly : ¬ SelfServiceOnly := by
  intro h
  have hkept := h .leave calmEnv "viewer" ⟨"project", "owner", none⟩ ownedDatabase 0
    ⟨leftDatabase "owner", 3⟩ (leaveProject_ok "owner")
  have howner := othersKept_changeMembers.mp hkept _ List.mem_cons_self rfl _ List.mem_cons_self
    (by decide)
  exact absurd howner (by decide)

end LitmusPortal.Authentication
