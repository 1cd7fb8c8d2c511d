import LitmusPortal.Authentication.Owners

/-!
# Invitations under concurrency

A request is handled call by call: the check of the rights, the lookup of the invitation and the write, with
the steps of other requests in between. The write goes by what the lookup has found. No user gets a second
entry, and no acceptance is taken back, exactly when what it has found still rules that out at each write.
-/

namespace LitmusPortal.Authentication

open DocumentStore Program Transition

variable {env : Env} {world : World}

/-! ## Requests in flight -/

def lookUp (env : Env) (member : MemberInput) : Call (User × Invitation) := do
  if member.role ≠ some .editor ∧ member.role ≠ some .viewer then throw errInvalidRole
  else do
    let user ← answer (orServerError errUserNotFound) (Repository.getUser env member.userID)
    let invitation ← answer (orServerError errProjectNotFound) (getInvitation env member)
    return (user, invitation)

/-- What is done with the invitation that was found. -/
def invite (env : Env) (member : MemberInput) (user : User) (invitation : Invitation) : Call Unit := do
  match invitation with
  | .accepted => throw (.failed "user is already a member of this project")
  | .pending | .declined | .exited =>
      answer (fun _ => errServerError)
        (Repository.updateInvite env member.projectID member.userID .pending member.role)
  | .other _ => do
      let joinedAt ← timestamp env
      answer (fun _ => errServerError) (Repository.addMember env member.projectID
        { userID := user.id
          role := member.role.getD (.other "")
          invitation := .pending
          joinedAt := joinedAt
          deactivatedAt := none })

inductive Flight where
  | sending (uid : String) (member : MemberInput)
  | lookingUp (member : MemberInput)
  | inviting (member : MemberInput) (user : User) (invitation : Invitation)
  | accepting (uid : String) (member : MemberInput)
  | joining (member : MemberInput)
  | answered (answer : Except GoError Unit)

/-- The next step of a request, up to the write that ends it. -/
def Flight.next (env : Env) : Flight → Call Flight
  | .sending uid member => do
      validate env uid member.projectID .sendInvitation .accepted
      return .lookingUp member
  | .lookingUp member => do
      let found ← lookUp env member
      return .inviting member found.1 found.2
  | .inviting member user invitation => do
      invite env member user invitation
      return .answered (.ok ())
  | .accepting uid member => do
      validate env uid member.projectID .acceptInvitation .pending
      return .joining member
  | .joining member => do
      answer (fun _ => errServerError)
        (Repository.updateInvite env member.projectID member.userID .accepted none)
      return .answered (.ok ())
  | .answered answer => return .answered answer

structure Service where
  world : World
  flights : List Flight

inductive Label where
  | send (uid : String) (member : MemberInput)
  | accept (uid : String) (member : MemberInput)
  | move (index : Nat)
  deriving DecidableEq, Repr

def Service.step (env : Env) (s : Service) : Label → Option Service
  | .send uid member => some { s with flights := s.flights ++ [.sending uid member] }
  | .accept uid member => some { s with flights := s.flights ++ [.accepting uid member] }
  | .move index =>
      s.flights[index]?.map fun flight =>
        match flight.next env s.world with
        | .ok flight' world' => ⟨world', s.flights.set index flight'⟩
        | .error err world' => ⟨world', s.flights.set index (.answered (.error err))⟩

/-! ### A request on its own -/

theorem sendInvitation_eq (uid : String) (member : MemberInput) :
    sendInvitation env uid member = (do
      validate env uid member.projectID .sendInvitation .accepted
      let found ← lookUp env member
      invite env member found.1 found.2) := by
  unfold sendInvitation lookUp
  by_cases hrole : member.role ≠ some .editor ∧ member.role ≠ some .viewer
  · simp only [if_pos hrole]
    rfl
  · simp only [if_neg hrole, bind_assoc, pure_bind]
    rfl

/-- The request ends as a call of the handler does. -/
def Service.settle (s : Service) (index : Nat) : EStateM.Result GoError World Unit → Service
  | .ok _ world => ⟨world, s.flights.set index (.answered (.ok ()))⟩
  | .error err world => ⟨world, s.flights.set index (.answered (.error err))⟩

def Service.Settles (env : Env) (s : Service) (index : Nat) (result : EStateM.Result GoError World Unit) :
    Prop :=
  ∃ moves, run (Service.step env) s (List.replicate moves (.move index)) = some (s.settle index result)

section Alone

variable {s : Service} {index : Nat} {flight : Flight}

theorem settles_error {err : GoError} (hflight : s.flights[index]? = some flight)
    (hnext : flight.next env s.world = .error err world) : s.Settles env index (.error err world) :=
  ⟨1, by simp [Service.step, Service.settle, hflight, hnext]⟩

theorem settles_ok (hflight : s.flights[index]? = some flight)
    (hnext : flight.next env s.world = .ok (.answered (.ok ())) world) :
    s.Settles env index (.ok () world) :=
  ⟨1, by simp [Service.step, Service.settle, hflight, hnext]⟩

theorem settles_next {flight' : Flight} {result : EStateM.Result GoError World Unit}
    (hflight : s.flights[index]? = some flight)
    (hnext : flight.next env s.world = .ok flight' world)
    (hrest : Service.Settles env ⟨world, s.flights.set index flight'⟩ index result) :
    s.Settles env index result := by
  obtain ⟨moves, hmoves⟩ := hrest
  refine ⟨moves + 1, ?_⟩
  rw [List.replicate_succ, run_cons, Service.step, hflight, Option.map_some, hnext, Option.bind_some, hmoves]
  cases result <;> simp [Service.settle]

theorem getElem?_set_flight {flights : List Flight} (hflight : flights[index]? = some flight)
    (flight' : Flight) : (flights.set index flight')[index]? = some flight' := by
  obtain ⟨hlt, -⟩ := List.getElem?_eq_some_iff.mp hflight
  simp [hlt]

/-- An invitation with no other request in between is sent as the handler sends it. -/
theorem settles_send {uid : String} {member : MemberInput}
    (hflight : s.flights[index]? = some (.sending uid member)) :
    s.Settles env index (sendInvitation env uid member s.world) := by
  rw [sendInvitation_eq]
  cases hvalidate : validate env uid member.projectID .sendInvitation .accepted s.world with
  | error err world =>
      rw [bind_of_error hvalidate]
      exact settles_error hflight (bind_of_error hvalidate)
  | ok _ world =>
      rw [bind_of_ok hvalidate]
      apply settles_next hflight (bind_of_ok hvalidate)
      have hlooking := getElem?_set_flight hflight (.lookingUp member)
      cases hlookUp : lookUp env member world with
      | error err world =>
          rw [bind_of_error hlookUp]
          exact settles_error hlooking (bind_of_error hlookUp)
      | ok found world =>
          rw [bind_of_ok hlookUp]
          apply settles_next hlooking (bind_of_ok hlookUp)
          have hinviting := getElem?_set_flight hlooking (.inviting member found.1 found.2)
          cases hinvite : invite env member found.1 found.2 world with
          | error err world => exact settles_error hinviting (bind_of_error hinvite)
          | ok _ world => exact settles_ok hinviting (bind_of_ok hinvite)

theorem settles_accept {uid : String} {member : MemberInput}
    (hflight : s.flights[index]? = some (.accepting uid member)) :
    s.Settles env index (acceptInvitation env uid member s.world) := by
  unfold acceptInvitation changeInvitation
  cases hvalidate : validate env uid member.projectID .acceptInvitation .pending s.world with
  | error err world =>
      rw [bind_of_error hvalidate]
      exact settles_error hflight (bind_of_error hvalidate)
  | ok _ world =>
      rw [bind_of_ok hvalidate]
      apply settles_next hflight (bind_of_ok hvalidate)
      have hjoining := getElem?_set_flight hflight (.joining member)
      cases hupdate : answer (fun _ => errServerError)
          (Repository.updateInvite env member.projectID member.userID .accepted none) world with
      | error err world => exact settles_error hjoining (bind_of_error hupdate)
      | ok _ world => exact settles_ok hjoining (bind_of_ok hupdate)

end Alone

/-! ## What a step writes -/

/-- What a write leaves: it is made unless the call fails before. -/
def written (env : Env) (world : World) (change : Database → Database) : Database :=
  if env.fault world.calls = .fails then world.db else change world.db

theorem triple_write_at {change : Database → Database} :
    Triple (fun world' => world' = world) (write env change)
      (fun _ world' => world'.db = written env world change)
      (fun world' => world'.db = written env world change) := by
  refine Triple.bind (@Triple.modifyGet _ _ _ _ _
    (fun found world' => found = world ∧ world'.db = world.db) _
    fun _ hworld => ⟨hworld, congrArg World.db hworld⟩) fun found => ?_
  rintro world' ⟨rfl, hdb⟩
  unfold written
  cases hfault : env.fault found.calls with
  | none => exact (if_neg (by simp)).symm
  | fails => exact hdb.trans (if_pos rfl).symm
  | unanswered => exact (if_neg (by simp)).symm

theorem triple_updateMembers_at {projectID : String} {change : List Member → List Member} :
    Triple (fun world' => world' = world) (updateMembers env projectID change)
      (fun _ world' => world'.db = written env world fun db => db.changeMembers projectID change)
      (fun world' => world'.db = written env world fun db => db.changeMembers projectID change) := by
  refine Triple.bind Triple.get fun found => ?_
  refine Triple.bind (triple_write_at.mono (fun _ hs => hs.2) (fun _ _ hs => hs) fun _ hs => hs) fun _ => ?_
  exact Triple.ite (fun _ => Triple.pure fun _ hs => hs) fun _ => Triple.throw fun _ hs => hs

theorem triple_timestamp_at {α : Type} {rest : String → Call α} {post : α → World → Prop}
    {failed : World → Prop} (h : ∀ time, Triple (fun world' => world' = world) (rest time) post failed) :
    Triple (fun world' => world' = world) (timestamp env >>= rest) post failed :=
  @Triple.bind _ _ _ _ _ _ (timestamp env) rest (fun _ world' => world' = world) _
    (fun _ hworld => hworld) h

/-- An invitation of a user that was found with an invitation. -/
def Invites (env : Env) (world : World) (member : MemberInput) (user : User) :
    Invitation → Database → Prop
  | .accepted, db' => db' = world.db
  | .pending, db' | .declined, db' | .exited, db' => ∃ time, db' = written env world fun db =>
      db.changeMembers member.projectID fun members =>
        members.map (setInvitation member.userID .pending member.role time)
  | .other _, db' => ∃ newMember : Member, newMember.userID = user.id ∧ newMember.invitation = .pending ∧
      db' = written env world fun db =>
        db.changeMembers member.projectID fun members => members ++ [newMember]

theorem triple_invite {member : MemberInput} {user : User} {invitation : Invitation} :
    Triple (fun world' => world' = world) (invite env member user invitation)
      (fun _ world' => Invites env world member user invitation world'.db)
      (fun world' => Invites env world member user invitation world'.db) := by
  have hupdate : Triple (fun world' => world' = world)
      (answer (fun _ => errServerError)
        (Repository.updateInvite env member.projectID member.userID .pending member.role))
      (fun _ world' => Invites env world member user .pending world'.db)
      (fun world' => Invites env world member user .pending world'.db) := by
    refine triple_answer (triple_timestamp_at fun time => ?_)
    exact triple_updateMembers_at.mono (fun _ hs => hs) (fun _ _ hs => ⟨time, hs⟩) fun _ hs => ⟨time, hs⟩
  cases invitation with
  | accepted => exact Triple.throw fun _ => congrArg World.db
  | pending => exact hupdate
  | declined => exact hupdate
  | exited => exact hupdate
  | other text =>
      refine triple_timestamp_at fun joinedAt => triple_answer ?_
      exact triple_updateMembers_at.mono (fun _ hs => hs) (fun _ _ hs => ⟨_, rfl, rfl, hs⟩)
        fun _ hs => ⟨_, rfl, rfl, hs⟩

/-- What the next step of a request leaves in the database. -/
def Flight.Leaves (env : Env) (world : World) (db' : Database) : Flight → Prop
  | .inviting member user invitation => Invites env world member user invitation db'
  | .joining member => db' = world.db ∨ ∃ time, db' = world.db.changeMembers member.projectID
      fun members => members.map (setInvitation member.userID .accepted none time)
  | .sending _ _ | .lookingUp _ | .accepting _ _ | .answered _ => db' = world.db

theorem triple_of_yields {α : Type} {call : Call α} {result : α → Prop}
    (h : Yields World.db world.db call result) :
    Triple (fun world' => world' = world) call (fun _ world' => world'.db = world.db)
      fun world' => world'.db = world.db :=
  Triple.mono h (fun _ => congrArg World.db) (fun _ _ hs => hs.2) fun _ hs => hs

theorem yields_lookUp {db : Database} {member : MemberInput} :
    Yields World.db db (lookUp env member) fun _ => True := by
  refine Yields.ite (fun _ => Yields.throw) fun _ => ?_
  refine Yields.bind (triple_answer yields_getUser) fun user _ => ?_
  exact Yields.bind (triple_answer yields_getInvitation) fun invitation _ => Yields.pure trivial

theorem triple_next (flight : Flight) :
    Triple (fun world' => world' = world) (flight.next env)
      (fun _ world' => flight.Leaves env world world'.db)
      (fun world' => flight.Leaves env world world'.db) := by
  cases flight with
  | sending uid member =>
      exact triple_of_yields (Yields.bind yields_validate fun _ _ => @Yields.pure _ _ _ _ _ _
        (fun _ => True) _ trivial)
  | lookingUp member =>
      exact triple_of_yields (Yields.bind yields_lookUp fun _ _ => @Yields.pure _ _ _ _ _ _
        (fun _ => True) _ trivial)
  | inviting member user invitation =>
      exact Triple.bind triple_invite fun _ => Triple.pure fun _ hs => hs
  | accepting uid member =>
      exact triple_of_yields (Yields.bind yields_validate fun _ _ => @Yields.pure _ _ _ _ _ _
        (fun _ => True) _ trivial)
  | joining member =>
      refine Triple.bind (triple_answer ?_) fun _ => Triple.pure fun _ hs => hs
      exact triple_updateInvite.mono (fun _ => congrArg World.db) (fun _ _ => .inr) fun _ hs => hs
  | answered answer => exact Triple.pure fun _ => congrArg World.db

theorem Service.leaves_of_move {s s' : Service} {index : Nat} {flight : Flight}
    (hstep : s.step env (.move index) = some s') (hflight : s.flights[index]? = some flight) :
    flight.Leaves env s.world s'.world.db := by
  have hends := @triple_next env s.world flight s.world rfl
  rw [Service.step, hflight, Option.map_some, Option.some.injEq] at hstep
  cases hnext : flight.next env s.world with
  | ok flight' world' =>
      rw [hnext] at hends hstep
      rw [← hstep]
      exact hends
  | error err world' =>
      rw [hnext] at hends hstep
      rw [← hstep]
      exact hends

/-! ## One entry for each user, and no way back from an acceptance -/

def UniqueEntries (db : Database) : Prop :=
  ∀ project ∈ db.projects.docs, (project.members.map Member.userID).Nodup

/-- No accepted entry has become a pending one. -/
def KeepsAccepted (before after : Database) : Prop :=
  ∀ project ∈ before.projects.docs, ∀ project' ∈ after.projects.docs, project'.id = project.id →
    ∀ (i : Nat) (member member' : Member), project.members[i]? = some member →
      project'.members[i]? = some member' → member.invitation = .accepted → member'.invitation ≠ .pending

section Changes

variable {db : Database} {projectID : String} {change : List Member → List Member}

theorem KeepsAccepted.refl (db : Database) : KeepsAccepted db db := by
  intro project hproject project' hproject' hid i member member' hmember hmember' haccepted
  obtain rfl := db.projects.eq_of_key hproject' hproject hid
  obtain rfl : member = member' := Option.some.inj (hmember.symm.trans hmember')
  rw [haccepted]
  exact Invitation.noConfusion

theorem uniqueEntries_changeMembers (h : UniqueEntries db) :
    UniqueEntries (db.changeMembers projectID change) ↔
      ∀ project ∈ db.projects.docs, project.id = projectID →
        ((change project.members).map Member.userID).Nodup := by
  unfold UniqueEntries
  rw [projects_changeMembers]
  constructor
  · intro hunique project hproject hid
    have hchanged := hunique _ (List.mem_map_of_mem hproject)
    rwa [if_pos hid] at hchanged
  · intro hchange project hproject
    obtain ⟨old, hold, rfl⟩ := List.mem_map.mp hproject
    by_cases hid : old.id = projectID
    · rw [if_pos hid]
      exact hchange old hold hid
    · rw [if_neg hid]
      exact h old hold

theorem keepsAccepted_changeMembers :
    KeepsAccepted db (db.changeMembers projectID change) ↔
      ∀ project ∈ db.projects.docs, project.id = projectID → ∀ (i : Nat) (member member' : Member),
        project.members[i]? = some member → (change project.members)[i]? = some member' →
        member.invitation = .accepted → member'.invitation ≠ .pending := by
  unfold KeepsAccepted
  rw [projects_changeMembers]
  constructor
  · intro hkept project hproject hid i member member' hmember hmember'
    refine hkept project hproject _ (List.mem_map_of_mem hproject) ?_ i member member' hmember ?_
    · rw [if_pos hid]
    · rw [if_pos hid]
      exact hmember'
  · intro hchange project hproject project' hproject' hid i member member' hmember hmember' haccepted
    obtain ⟨old, hold, rfl⟩ := List.mem_map.mp hproject'
    by_cases htarget : old.id = projectID
    · rw [if_pos htarget] at hid hmember'
      obtain rfl := db.projects.eq_of_key hold hproject hid
      exact hchange old hold htarget i member member' hmember hmember' haccepted
    · rw [if_neg htarget] at hid hmember'
      obtain rfl := db.projects.eq_of_key hold hproject hid
      exact KeepsAccepted.refl db old hold old hold rfl i member member' hmember hmember' haccepted

theorem UniqueEntries.map_setInvitation (h : UniqueEntries db) (userID time : String)
    (invitation : Invitation) (role : Option MemberRole) :
    UniqueEntries
      (db.changeMembers projectID fun members => members.map (setInvitation userID invitation role time)) := by
  refine (uniqueEntries_changeMembers h).mpr fun project hproject _ => ?_
  have huser : Member.userID ∘ setInvitation userID invitation role time = Member.userID :=
    funext fun member => userID_setInvitation userID time invitation role member
  rw [List.map_map, huser]
  exact h project hproject

theorem keepsAccepted_invite {userID time : String} {role : Option MemberRole} :
    KeepsAccepted db
        (db.changeMembers projectID fun members => members.map (setInvitation userID .pending role time)) ↔
      ∀ project ∈ db.projects.docs, project.id = projectID →
        ∀ member ∈ project.members, member.userID = userID → member.invitation ≠ .accepted := by
  rw [keepsAccepted_changeMembers]
  refine forall₃_congr fun project _ _ => ⟨fun h member hmember huser haccepted => ?_, ?_⟩
  · obtain ⟨i, hi⟩ := List.getElem?_of_mem hmember
    refine h i member _ hi (by rw [List.getElem?_map, hi]; rfl) haccepted ?_
    unfold setInvitation
    rw [if_pos huser]
  · intro h i member member' hmember hmember' haccepted
    rw [List.getElem?_map, hmember, Option.map_some, Option.some.injEq] at hmember'
    rw [← hmember', setInvitation_of_ne fun huser =>
      h member (List.mem_of_getElem? hmember) huser haccepted, haccepted]
    exact Invitation.noConfusion

theorem keepsAccepted_accept {userID time : String} {role : Option MemberRole} :
    KeepsAccepted db
      (db.changeMembers projectID fun members => members.map (setInvitation userID .accepted role time)) := by
  refine keepsAccepted_changeMembers.mpr fun project _ _ i member member' hmember hmember' haccepted => ?_
  rw [List.getElem?_map, hmember, Option.map_some, Option.some.injEq] at hmember'
  rw [← hmember']
  unfold setInvitation
  by_cases huser : member.userID = userID
  · rw [if_pos huser]
    exact Invitation.noConfusion
  · rw [if_neg huser, haccepted]
    exact Invitation.noConfusion

theorem keepsAccepted_add {newMember : Member} :
    KeepsAccepted db (db.changeMembers projectID fun members => members ++ [newMember]) := by
  refine keepsAccepted_changeMembers.mpr fun project _ _ i member member' hmember hmember' haccepted => ?_
  obtain ⟨hlt, -⟩ := List.getElem?_eq_some_iff.mp hmember
  rw [List.getElem?_append_left hlt, hmember, Option.some.injEq] at hmember'
  rw [← hmember', haccepted]
  exact Invitation.noConfusion

theorem uniqueEntries_add {newMember : Member} (h : UniqueEntries db) :
    UniqueEntries (db.changeMembers projectID fun members => members ++ [newMember]) ↔
      ∀ project ∈ db.projects.docs, project.id = projectID →
        ∀ member ∈ project.members, member.userID ≠ newMember.userID := by
  rw [uniqueEntries_changeMembers h]
  refine forall₃_congr fun project hproject _ => ?_
  rw [List.map_append, List.map_singleton, ← List.concat_eq_append, List.nodup_concat]
  constructor
  · rintro ⟨hnot, -⟩ member hmember huser
    exact hnot (huser ▸ List.mem_map_of_mem hmember)
  · intro habsent
    refine ⟨fun hmem => ?_, h project hproject⟩
    obtain ⟨member, hmember, huser⟩ := List.mem_map.mp hmem
    exact habsent member hmember huser

end Changes

/-! ## Every interleaving -/

/-- What was found is still no reason against the write. -/
def StillFits (db : Database) (member : MemberInput) (user : User) : Invitation → Prop
  | .accepted => True
  | .pending | .declined | .exited => ∀ project ∈ db.projects.docs, project.id = member.projectID →
      ∀ entry ∈ project.members, entry.userID = member.userID → entry.invitation ≠ .accepted
  | .other _ => ∀ project ∈ db.projects.docs, project.id = member.projectID →
      ∀ entry ∈ project.members, entry.userID ≠ user.id

def Service.KeepsMembers (env : Env) (s : Service) : Label → Prop
  | .send _ _ | .accept _ _ => True
  | .move index =>
      match s.flights[index]? with
      | some (.inviting member user invitation) =>
          env.fault s.world.calls ≠ .fails → StillFits s.world.db member user invitation
      | _ => True

theorem written_iff {change : Database → Database} {p : Database → Prop} (h : p world.db) :
    p (written env world change) ↔ (env.fault world.calls ≠ .fails → p (change world.db)) := by
  unfold written
  by_cases hfault : env.fault world.calls = .fails
  · simp [hfault, h]
  · simp [hfault]

theorem invites_iff {member : MemberInput} {user : User} {invitation : Invitation} {db' : Database}
    (hunique : UniqueEntries world.db) (h : Invites env world member user invitation db') :
    UniqueEntries db' ∧ KeepsAccepted world.db db' ↔
      (env.fault world.calls ≠ .fails → StillFits world.db member user invitation) := by
  have hsame : UniqueEntries world.db ∧ KeepsAccepted world.db world.db :=
    ⟨hunique, KeepsAccepted.refl world.db⟩
  have hset : ∀ {time : String} {role : Option MemberRole},
      db' = written env world (fun db => db.changeMembers member.projectID fun members =>
        members.map (setInvitation member.userID .pending role time)) →
      (UniqueEntries db' ∧ KeepsAccepted world.db db' ↔
        (env.fault world.calls ≠ .fails →
          ∀ project ∈ world.db.projects.docs, project.id = member.projectID →
            ∀ entry ∈ project.members, entry.userID = member.userID → entry.invitation ≠ .accepted)) := by
    rintro time role rfl
    rw [@written_iff _ _ _ (fun db' => UniqueEntries db' ∧ KeepsAccepted world.db db') hsame]
    refine imp_congr_right fun _ => ?_
    rw [keepsAccepted_invite]
    exact and_iff_right (hunique.map_setInvitation _ _ _ _)
  cases invitation with
  | accepted =>
      obtain rfl : db' = world.db := h
      exact iff_of_true hsame fun _ => trivial
  | pending => exact hset h.choose_spec
  | declined => exact hset h.choose_spec
  | exited => exact hset h.choose_spec
  | other text =>
      obtain ⟨newMember, huser, -, rfl⟩ := h
      rw [@written_iff _ _ _ (fun db' => UniqueEntries db' ∧ KeepsAccepted world.db db') hsame]
      refine imp_congr_right fun _ => ?_
      rw [uniqueEntries_add hunique, huser]
      exact and_iff_left keepsAccepted_add

theorem Service.step_iff {s s' : Service} {label : Label} (hunique : UniqueEntries s.world.db)
    (hstep : s.step env label = some s') :
    UniqueEntries s'.world.db ∧ KeepsAccepted s.world.db s'.world.db ↔ s.KeepsMembers env label := by
  have hsame : UniqueEntries s.world.db ∧ KeepsAccepted s.world.db s.world.db :=
    ⟨hunique, KeepsAccepted.refl s.world.db⟩
  cases label with
  | send uid member =>
      obtain rfl := Option.some.inj hstep
      exact iff_of_true hsame trivial
  | accept uid member =>
      obtain rfl := Option.some.inj hstep
      exact iff_of_true hsame trivial
  | move index =>
      cases hflight : s.flights[index]? with
      | none => simp [Service.step, hflight] at hstep
      | some flight =>
          have hleaves := Service.leaves_of_move hstep hflight
          simp only [Service.KeepsMembers, hflight]
          cases flight with
          | inviting member user invitation => exact invites_iff hunique hleaves
          | joining member =>
              refine iff_of_true ?_ trivial
              rcases hleaves with hdb | ⟨time, hdb⟩
              · rwa [hdb]
              · rw [hdb]
                exact ⟨hunique.map_setInvitation _ _ _ _, keepsAccepted_accept⟩
          | sending uid member | lookingUp member | accepting uid member | answered answer =>
              have hdb : s'.world.db = s.world.db := hleaves
              rw [hdb]
              exact iff_of_true hsame trivial

/-- In every state that requests lead to the users have one entry each, and no step to it has turned an
accepted entry into a pending one. -/
def KeepsMembership (env : Env) (s : Service) (labels : List Label) : Prop :=
  ∀ front mid, front <+: labels → run (Service.step env) s front = some mid →
    UniqueEntries mid.world.db ∧ ∀ label next, front ++ [label] <+: labels →
      mid.step env label = some next → KeepsAccepted mid.world.db next.world.db

def MembershipIsKept : Prop :=
  ∀ (env : Env) (world : World) (labels : List Label) (s' : Service), UniqueEntries world.db →
    run (Service.step env) ⟨world, []⟩ labels = some s' → KeepsMembership env ⟨world, []⟩ labels

theorem keepsMembership_iff (env : Env) (world : World) (labels : List Label) (s' : Service)
    (hunique : UniqueEntries world.db)
    (hrun : run (Service.step env) ⟨world, []⟩ labels = some s') :
    KeepsMembership env ⟨world, []⟩ labels ↔
      Meets (Service.step env) (Service.KeepsMembers env) ⟨world, []⟩ labels := by
  have hstep : ∀ (s : Service) (label : Label) (next : Service), UniqueEntries s.world.db →
      s.step env label = some next →
      (UniqueEntries next.world.db ∧ KeepsAccepted s.world.db next.world.db ↔ s.KeepsMembers env label) :=
    fun _ _ _ => Service.step_iff
  exact @run_related_iff _ _ _ (fun s : Service => UniqueEntries s.world.db)
    (fun s next : Service => KeepsAccepted s.world.db next.world.db) _ hstep _ _ _ hunique hrun

/-! ### Two invitations at once -/

def viewerInput : MemberInput := ⟨"project", "viewer", some .viewer⟩

def ownerWorld : World := ⟨sampleDatabase [sampleMember "owner" .owner .accepted], 0⟩

theorem uniqueEntries_ownerWorld : UniqueEntries ownerWorld.db := by
  unfold UniqueEntries
  decide

/-- Both look the user up before one of them writes. -/
def twoInvitations : List Label :=
  [.send "owner" viewerInput, .send "owner" viewerInput, .move 0, .move 1, .move 0, .move 1, .move 0, .move 1]

def invitedTwice : Service where
  world :=
    { db := sampleDatabase [sampleMember "owner" .owner .accepted, sampleMember "viewer" .viewer .pending,
        sampleMember "viewer" .viewer .pending]
      calls := 10 }
  flights := [.answered (.ok ()), .answered (.ok ())]

theorem run_twoInvitations :
    run (Service.step calmEnv) ⟨ownerWorld, []⟩ twoInvitations = some invitedTwice := by
  rfl

theorem not_membershipIsKept : ¬ MembershipIsKept := by
  intro h
  have hkept := h calmEnv ownerWorld twoInvitations invitedTwice uniqueEntries_ownerWorld
    run_twoInvitations twoInvitations invitedTwice (List.prefix_refl _) run_twoInvitations
  exact absurd (hkept.1 _ List.mem_cons_self) (by decide)

def inviteAndAccept : List Label :=
  [.send "owner" viewerInput, .move 0, .move 0, .move 0, .accept "viewer" viewerInput, .move 1, .move 1]

def joined : Service where
  world :=
    { db := sampleDatabase [sampleMember "owner" .owner .accepted, sampleMember "viewer" .viewer .accepted]
      calls := 8 }
  flights := [.answered (.ok ()), .answered (.ok ())]

theorem keepsMembership_inviteAndAccept : KeepsMembership calmEnv ⟨ownerWorld, []⟩ inviteAndAccept := by
  apply (keepsMembership_iff calmEnv ownerWorld inviteAndAccept joined uniqueEntries_ownerWorld rfl).mpr
  refine ⟨trivial, trivial, trivial, fun _ project hproject _ => ?_, trivial, trivial, trivial, trivial⟩
  obtain rfl := List.mem_singleton.mp hproject
  decide

end LitmusPortal.Authentication
