import LitmusPortal.Authentication.Membership

/-!
# What the membership handlers do

A handler that is let through changes the members of one project, in one write. Before it the database
is only read.
-/

namespace LitmusPortal.Authentication

open DocumentStore Program

variable {env : Env} {db : Database} {uid projectID : String}

/-! ## Reads -/

theorem yields_read {α : Type} {find : Database → α} :
    Yields World.db db (read env find) fun a => a = find db := by
  refine Triple.bind (@Triple.modifyGet _ _ _ _ _ (fun world world' => world.db = db ∧ world'.db = db) _
    fun world hworld => ⟨hworld, hworld⟩) fun world => ?_
  rintro world' ⟨hworld, hworld'⟩
  cases env.fault world.calls with
  | none => exact ⟨by rw [hworld], hworld'⟩
  | fails | unanswered => exact hworld'

theorem yields_timestamp : Yields World.db db (timestamp env) fun _ => True :=
  fun _ hworld => ⟨trivial, hworld⟩

theorem yields_getUser : Yields World.db db (Repository.getUser env uid)
    fun user => db.users.docs.find? (fun user => user.id = uid) = some user := by
  refine Yields.bind yields_read fun found hfound => ?_
  cases found with
  | none => exact Yields.throw
  | some user => exact Yields.pure hfound.symm

theorem yields_getProjects {query : Project → Bool} : Yields World.db db (Repository.getProjects env query)
    fun projects => projects = db.projects.docs.filter query := yields_read

theorem yields_getProjectByProjectID :
    Yields World.db db (Repository.getProjectByProjectID env projectID)
      fun project => db.projects.docs.find? (fun project => project.id = projectID) = some project := by
  refine Yields.bind yields_read fun found hfound => ?_
  cases found with
  | none => exact Yields.throw
  | some project => exact Yields.pure hfound.symm

theorem triple_answer {α : Type} {reply : GoError → GoError} {call : Call α} {pre failed : World → Prop}
    {post : α → World → Prop} (h : Triple pre call post failed) :
    Triple pre (answer reply call) post failed := Triple.mapError h

/-! ## Permissions -/

/-- What the permission check asks of the database. -/
def Allowed (db : Database) (uid projectID : String) (rule : Rule) (invitation : Invitation) : Prop :=
  (∃ user ∈ db.users.docs, user.id = uid ∧ user.deactivatedAt = none) ∧
    ∃ project ∈ db.projects.docs, project.id = projectID ∧
      ∃ member ∈ project.members, member.userID = uid ∧ member.role ∈ mutationRbacRules rule ∧
        member.invitation = invitation

theorem yields_validate {rule : Rule} {invitation : Invitation} :
    Yields World.db db (validate env uid projectID rule invitation)
      fun _ => Allowed db uid projectID rule invitation := by
  refine triple_answer (Yields.bind yields_getUser fun user hfound => ?_)
  refine Yields.ite (fun _ => Yields.throw) fun hactive => ?_
  refine Yields.bind yields_getProjects fun projects hprojects => ?_
  refine Yields.ite (fun _ => Yields.throw) fun hne => Yields.pure ⟨?_, ?_⟩
  · have hid := List.find?_some hfound
    exact ⟨user, List.mem_of_find?_eq_some hfound, by simpa using hid, not_not.mp hactive⟩
  · obtain ⟨project, hmem⟩ := List.exists_mem_of_ne_nil _ hne
    rw [hprojects, List.mem_filter] at hmem
    have hmatch : project.id = projectID ∧
        hasMember uid (mutationRbacRules rule) invitation project = true := by
      simpa using hmem.2
    obtain ⟨member, hmember, hentry⟩ := List.any_eq_true.mp hmatch.2
    exact ⟨project, hmem.1, hmatch.1, member, hmember, by simpa using hentry⟩

theorem triple_bind_read {α β : Type} {call : Call α} {rest : α → Call β} {result : α → Prop}
    {post : β → World → Prop} {change : Database → Prop} (hcall : Yields World.db db call result)
    (hrest : ∀ a, result a → Triple (fun world => world.db = db) (rest a) post
      fun world => world.db = db ∨ change world.db) :
    Triple (fun world => world.db = db) (call >>= rest) post
      fun world => world.db = db ∨ change world.db :=
  Triple.bind (Triple.mono hcall (fun _ hs => hs) (fun _ _ hs => hs) fun _ => .inl) fun a =>
    Triple.of_and (hrest a)

/-! ## Writes -/

theorem triple_write {change : Database → Database} :
    Triple (fun world => world.db = db) (write env change) (fun _ world => world.db = change db)
      (fun world => world.db = db ∨ world.db = change db) := by
  refine Triple.bind (@Triple.modifyGet _ _ _ _ _ (fun world world' => world.db = db ∧ world'.db = db) _
    fun world hworld => ⟨hworld, hworld⟩) fun world => ?_
  rintro world' ⟨hworld, hworld'⟩
  cases env.fault world.calls with
  | none => exact congrArg change hworld
  | fails => exact .inl hworld'
  | unanswered => exact .inr (congrArg change hworld)

theorem triple_updateMembers {change : List Member → List Member} :
    Triple (fun world => world.db = db) (updateMembers env projectID change)
      (fun _ world => world.db = db.changeMembers projectID change)
      (fun world => world.db = db ∨ world.db = db.changeMembers projectID change) := by
  refine Triple.bind Triple.get fun world => ?_
  refine Triple.bind (triple_write.mono (fun _ hs => hs.2) (fun _ _ hs => hs) fun _ hs => hs) fun _ => ?_
  exact Triple.ite (fun _ => Triple.pure fun _ hs => hs) fun _ => Triple.throw fun _ => .inr

theorem triple_updateInvite {userID : String} {invitation : Invitation} {role : Option MemberRole} :
    Triple (fun world => world.db = db) (Repository.updateInvite env projectID userID invitation role)
      (fun _ world => ∃ time, world.db = db.changeMembers projectID
        fun members => members.map (setInvitation userID invitation role time))
      (fun world => world.db = db ∨ ∃ time, world.db = db.changeMembers projectID
        fun members => members.map (setInvitation userID invitation role time)) := by
  have hupdate : ∀ invitation, Triple (fun world => world.db = db)
      (do
        let time ← timestamp env
        updateMembers env projectID fun members => members.map (setInvitation userID invitation role time))
      (fun _ world => ∃ time, world.db = db.changeMembers projectID
        fun members => members.map (setInvitation userID invitation role time))
      (fun world => world.db = db ∨ ∃ time, world.db = db.changeMembers projectID
        fun members => members.map (setInvitation userID invitation role time)) := by
    intro invitation
    refine @Triple.bind _ _ _ _ _ _ (timestamp env) _ (fun _ world => world.db = db) _
      (fun _ hworld => hworld) fun time => ?_
    exact triple_updateMembers.mono (fun _ hs => hs) (fun _ _ hs => ⟨time, hs⟩)
      fun _ hs => hs.imp_right fun hs => ⟨time, hs⟩
  cases invitation with
  | pending => exact hupdate .pending
  | accepted => exact hupdate .accepted
  | declined => exact hupdate .declined
  | exited => exact hupdate .exited
  | other text => exact Triple.throw fun _ hs => .inl hs

/-! ## Requests -/

inductive Request where
  | sendInvitation (member : MemberInput)
  | acceptInvitation (member : MemberInput)
  | declineInvitation (member : MemberInput)
  | leaveProject (member : MemberInput)
  | removeInvitation (member : MemberInput)
  deriving DecidableEq, Repr

def Request.member : Request → MemberInput
  | .sendInvitation member | .acceptInvitation member | .declineInvitation member
  | .leaveProject member | .removeInvitation member => member

def handle (env : Env) (uid : String) : Request → Call Unit
  | .sendInvitation member => sendInvitation env uid member
  | .acceptInvitation member => acceptInvitation env uid member
  | .declineInvitation member => declineInvitation env uid member
  | .leaveProject member => leaveProject env uid member
  | .removeInvitation member => removeInvitation env uid member

/-- The members of the project of a request, as a lookup finds them. -/
def Found (db : Database) (projectID : String) (members : List Member) : Prop :=
  ∃ project ∈ db.projects.docs, project.id = projectID ∧ project.members = members

/-- The change of the members that a request makes, if it makes one. -/
inductive Makes (db : Database) (uid : String) : Request → (List Member → List Member) → Prop where
  | invite (member : MemberInput) (members : List Member) (time : String)
      (allowed : Allowed db uid member.projectID .sendInvitation .accepted)
      (found : Found db member.projectID members)
      (left : invitationOf members member.userID ≠ .accepted) :
      Makes db uid (.sendInvitation member)
        fun members => members.map (setInvitation member.userID .pending member.role time)
  | add (member : MemberInput) (members : List Member) (newMember : Member) (text : String)
      (allowed : Allowed db uid member.projectID .sendInvitation .accepted)
      (found : Found db member.projectID members)
      (absent : invitationOf members member.userID = .other text)
      (user : newMember.userID = member.userID) (pending : newMember.invitation = .pending) :
      Makes db uid (.sendInvitation member) fun members => members ++ [newMember]
  | accept (member : MemberInput) (time : String)
      (allowed : Allowed db uid member.projectID .acceptInvitation .pending) :
      Makes db uid (.acceptInvitation member)
        fun members => members.map (setInvitation member.userID .accepted none time)
  | decline (member : MemberInput) (time : String)
      (allowed : Allowed db uid member.projectID .declineInvitation .pending) :
      Makes db uid (.declineInvitation member)
        fun members => members.map (setInvitation member.userID .declined none time)
  | leave (member : MemberInput) (time : String)
      (allowed : Allowed db uid member.projectID .leaveProject .accepted) :
      Makes db uid (.leaveProject member)
        fun members => members.map (setInvitation member.userID .exited none time)
  | remove (member : MemberInput) (members : List Member)
      (allowed : Allowed db uid member.projectID .removeInvitation .accepted)
      (found : Found db member.projectID members)
      (status : invitationOf members member.userID = .accepted ∨
        invitationOf members member.userID = .pending) :
      Makes db uid (.removeInvitation member)
        fun members => members.filter fun other => other.userID ≠ member.userID

def Changed (db : Database) (uid : String) (request : Request) (db' : Database) : Prop :=
  ∃ change, Makes db uid request change ∧ db' = db.changeMembers request.member.projectID change

theorem triple_changeInvitation {rule : Rule} {required invitation : Invitation} {member : MemberInput}
    {request : Request} (hmember : request.member = member)
    (hmakes : ∀ time, Allowed db uid member.projectID rule required → Makes db uid request
      fun members => members.map (setInvitation member.userID invitation none time)) :
    Triple (fun world => world.db = db) (changeInvitation env rule required invitation uid member)
      (fun _ world => Changed db uid request world.db)
      (fun world => world.db = db ∨ Changed db uid request world.db) := by
  refine triple_bind_read yields_validate fun _ hallowed => triple_answer ?_
  have hchanged : ∀ world : World, (∃ time, world.db = db.changeMembers member.projectID fun members =>
      members.map (setInvitation member.userID invitation none time)) →
      Changed db uid request world.db := by
    rintro world ⟨time, htime⟩
    exact ⟨_, hmakes time hallowed, by rw [hmember, htime]⟩
  exact triple_updateInvite.mono (fun _ hs => hs) (fun _ world => hchanged world)
    fun world => Or.imp_right (hchanged world)

theorem yields_getInvitation {member : MemberInput} :
    Yields World.db db (getInvitation env member) fun invitation =>
      ∃ members, Found db member.projectID members ∧ invitation = invitationOf members member.userID := by
  refine Yields.bind yields_getProjectByProjectID fun project hfound => Yields.pure ⟨_, ⟨project, ?_⟩, rfl⟩
  have hid := List.find?_some hfound
  exact ⟨List.mem_of_find?_eq_some hfound, by simpa using hid, rfl⟩

theorem triple_sendInvitation {member : MemberInput} :
    Triple (fun world => world.db = db) (sendInvitation env uid member)
      (fun _ world => Changed db uid (.sendInvitation member) world.db)
      (fun world => world.db = db ∨ Changed db uid (.sendInvitation member) world.db) := by
  refine triple_bind_read yields_validate fun _ hallowed => ?_
  refine Triple.ite (fun _ => Triple.throw fun _ => .inl) fun _ => ?_
  refine triple_bind_read (triple_answer yields_getUser) fun user huser => ?_
  refine triple_bind_read (triple_answer yields_getInvitation) fun invitation hinvitation => ?_
  obtain ⟨members, hfound, rfl⟩ := hinvitation
  have hinvite : invitationOf members member.userID ≠ .accepted →
      Triple (fun world => world.db = db)
        (answer (fun _ => errServerError)
          (Repository.updateInvite env member.projectID member.userID .pending member.role))
        (fun _ world => Changed db uid (.sendInvitation member) world.db)
        (fun world => world.db = db ∨ Changed db uid (.sendInvitation member) world.db) := by
    intro hleft
    have hchanged : ∀ world : World, (∃ time, world.db = db.changeMembers member.projectID
        fun members => members.map (setInvitation member.userID .pending member.role time)) →
        Changed db uid (.sendInvitation member) world.db := fun _ ⟨time, htime⟩ =>
      ⟨_, .invite member members time hallowed hfound hleft, htime⟩
    exact triple_answer (triple_updateInvite.mono (fun _ hs => hs) (fun _ world => hchanged world)
      fun world => Or.imp_right (hchanged world))
  cases hstatus : invitationOf members member.userID with
  | accepted => exact Triple.throw fun _ => .inl
  | pending => exact hinvite (by simp [hstatus])
  | declined => exact hinvite (by simp [hstatus])
  | exited => exact hinvite (by simp [hstatus])
  | other text =>
      refine triple_bind_read yields_timestamp fun joinedAt _ => triple_answer ?_
      have hid := List.find?_some huser
      have hchanged : ∀ world : World, world.db = db.changeMembers member.projectID (fun members =>
          members ++ [{ userID := user.id, role := member.role.getD (.other ""), invitation := .pending,
                        joinedAt := joinedAt, deactivatedAt := none }]) →
          Changed db uid (.sendInvitation member) world.db := fun _ hworld =>
        ⟨_, .add member members _ text hallowed hfound hstatus (of_decide_eq_true hid) rfl, hworld⟩
      exact triple_updateMembers.mono (fun _ hs => hs) (fun _ world => hchanged world)
        fun world => Or.imp_right (hchanged world)

theorem triple_removeInvitation {member : MemberInput} :
    Triple (fun world => world.db = db) (removeInvitation env uid member)
      (fun _ world => world.db = db ∨ Changed db uid (.removeInvitation member) world.db)
      (fun world => world.db = db ∨ Changed db uid (.removeInvitation member) world.db) := by
  refine Triple.ite (fun _ => Triple.throw fun _ => .inl) fun _ => ?_
  refine triple_bind_read yields_validate fun _ hallowed => ?_
  refine triple_bind_read (triple_answer yields_getInvitation) fun invitation hinvitation => ?_
  obtain ⟨members, hfound, rfl⟩ := hinvitation
  have hremove : ∀ invitation, (invitationOf members member.userID = .accepted ∨
      invitationOf members member.userID = .pending) →
      Triple (fun world => world.db = db)
        (answer (fun _ => errServerError)
          (Repository.removeInvitation env member.projectID member.userID invitation))
        (fun _ world => world.db = db ∨ Changed db uid (.removeInvitation member) world.db)
        (fun world => world.db = db ∨ Changed db uid (.removeInvitation member) world.db) := by
    intro invitation hstatus
    have hchanged : ∀ world : World, world.db = db.changeMembers member.projectID (fun members =>
        members.filter fun other => other.userID ≠ member.userID) →
        Changed db uid (.removeInvitation member) world.db := fun _ hworld =>
      ⟨_, .remove member members hallowed hfound hstatus, hworld⟩
    exact triple_answer (triple_updateMembers.mono (fun _ hs => hs) (fun _ world hs => .inr (hchanged world hs))
      fun world => Or.imp_right (hchanged world))
  cases hstatus : invitationOf members member.userID with
  | accepted => exact hremove .accepted (.inl hstatus)
  | pending => exact hremove .pending (.inr hstatus)
  | declined | exited => exact Triple.throw fun _ => .inl
  | other text => exact Triple.pure fun _ => .inl

theorem triple_handle (request : Request) :
    Triple (fun world => world.db = db) (handle env uid request)
      (fun _ world => world.db = db ∨ Changed db uid request world.db)
      (fun world => world.db = db ∨ Changed db uid request world.db) := by
  cases request with
  | sendInvitation member =>
      exact triple_sendInvitation.mono (fun _ hs => hs) (fun _ _ => .inr) fun _ hs => hs
  | acceptInvitation member =>
      have h := @triple_changeInvitation env db uid _ _ _ member _ rfl fun time => .accept member time
      exact h.mono (fun _ hs => hs) (fun _ _ => .inr) fun _ hs => hs
  | declineInvitation member =>
      have h := @triple_changeInvitation env db uid _ _ _ member _ rfl fun time => .decline member time
      exact h.mono (fun _ hs => hs) (fun _ _ => .inr) fun _ hs => hs
  | leaveProject member =>
      have h := @triple_changeInvitation env db uid _ _ _ member _ rfl fun time => .leave member time
      exact h.mono (fun _ hs => hs) (fun _ _ => .inr) fun _ hs => hs
  | removeInvitation member => exact triple_removeInvitation

def afterRequest (env : Env) (uid : String) (db : Database) (request : Request) : Database :=
  match handle env uid request ⟨db, 0⟩ with
  | .ok _ world | .error _ world => world.db

theorem afterRequest_cases (env : Env) (uid : String) (db : Database) (request : Request) :
    afterRequest env uid db request = db ∨
      Changed db uid request (afterRequest env uid db request) := by
  have hends := @triple_handle env db uid request ⟨db, 0⟩ rfl
  unfold afterRequest
  cases hrun : handle env uid request ⟨db, 0⟩ with
  | ok _ world =>
      rw [hrun] at hends
      exact hends
  | error _ world =>
      rw [hrun] at hends
      exact hends

end LitmusPortal.Authentication
