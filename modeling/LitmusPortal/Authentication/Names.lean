import LitmusPortal.Authentication.Calls
import LitmusPortal.Authentication.Owners

/-!
# The names of projects

A project is created under a name that no project has. It is renamed to a name that no project of the caller has:
the filter asks for the name, for the caller among the members and for some owner.
-/

namespace LitmusPortal.Authentication

open DocumentStore Program Transition

/-! ## Renaming -/

structure ProjectInput where
  projectID : String
  projectName : String
  deriving DecidableEq, Repr

def setName (projectName : String) : Change Project.id where
  val project := { project with name := projectName }
  property _ := rfl

def Database.rename (db : Database) (input : ProjectInput) : Database :=
  { db with
    projects := db.projects.update (fun project => project.id = input.projectID) (setName input.projectName) }

/-- The filter of the rename. Its two conditions on the members may be met by different ones. -/
def ofCaller (uid projectName : String) (project : Project) : Bool :=
  project.name = projectName && project.members.any (fun member => member.userID = uid) &&
    project.members.any fun member => member.role = .owner

variable (env : Env)

/-- How many documents are matched is not looked at. -/
def Repository.updateProjectName (input : ProjectInput) : Call Unit := write env fun db => db.rename input

def updateProjectName (uid : String) (userRequest : ProjectInput) : Call Unit := do
  answer (fun _ => errUnauthorized) (rbacValidator env uid userRequest.projectID [.owner] .accepted)
  let projects ← Repository.getProjects env (ofCaller uid userRequest.projectName)
  if projects ≠ [] then
    throw (.failed ("project with name: " ++ userRequest.projectName ++ " already exists"))
  else answer (fun _ => errServerError) (Repository.updateProjectName env userRequest)

/-! ## Requests -/

/-- A request with the id that is drawn for a new project. -/
inductive NameRequest where
  | create (projectID : String) (userRequest : CreateProjectInput)
  | rename (userRequest : ProjectInput)
  deriving DecidableEq, Repr

structure NameCall where
  env : Env
  uid : String
  request : NameRequest

def dbAfter {α : Type} : EStateM.Result GoError World α → Database
  | .ok _ world | .error _ world => world.db

def NameCall.apply (db : Database) (call : NameCall) : Database :=
  match call.request with
  | .create projectID userRequest => dbAfter (createProject call.env projectID call.uid userRequest ⟨db, 0⟩)
  | .rename userRequest => dbAfter (updateProjectName call.env call.uid userRequest ⟨db, 0⟩)

def UniqueNames (db : Database) : Prop := (db.projects.docs.map Project.name).Nodup

instance (db : Database) : Decidable (UniqueNames db) :=
  inferInstanceAs (Decidable (db.projects.docs.map Project.name).Nodup)

/-! ## A creation -/

variable {env} {db : Database} {uid : String}

def Added (db db' : Database) : Prop :=
  ∃ project, (∀ other ∈ db.projects.docs, other.name ≠ project.name) ∧
    db' = { db with projects := db.projects.add project }

theorem triple_addProject {project : Project} (hfree : ∀ other ∈ db.projects.docs, other.name ≠ project.name) :
    Triple (fun world => world.db = db) (Repository.createProject env project)
      (fun _ world => world.db = db ∨ Added db world.db) (fun world => world.db = db ∨ Added db world.db) := by
  refine Triple.bind Triple.get fun world => ?_
  have hwrite := @triple_write env db fun db => { db with projects := db.projects.add project }
  refine Triple.bind (hwrite.mono (fun _ hs => hs.2) (fun _ _ hs => hs)
    fun _ hs => hs.imp_right fun hs => ⟨project, hfree, hs⟩) fun _ => ?_
  exact Triple.ite (fun _ => Triple.throw fun _ hs => .inr ⟨project, hfree, hs⟩)
    fun _ => Triple.pure fun _ hs => .inr ⟨project, hfree, hs⟩

theorem triple_create {projectID : String} {userRequest : CreateProjectInput} :
    Triple (fun world => world.db = db) (createProject env projectID uid userRequest)
      (fun _ world => world.db = db ∨ Added db world.db) (fun world => world.db = db ∨ Added db world.db) := by
  refine Triple.ite (fun _ => Triple.throw fun _ => .inl) fun _ => ?_
  refine triple_bind_read (triple_answer yields_getUser) fun user _ => ?_
  refine triple_bind_read yields_getProjects fun projects hprojects => ?_
  refine Triple.ite (fun _ => Triple.throw fun _ => .inl) fun hnone => ?_
  refine triple_bind_read yields_timestamp fun joinedAt _ => ?_
  refine triple_bind_read yields_timestamp fun createdAt _ => ?_
  refine triple_bind_read yields_timestamp fun updatedAt _ => ?_
  refine Triple.bind (triple_answer (triple_addProject ?_)) fun _ => Triple.pure fun _ hs => hs
  intro other hother
  rw [not_not.mp hnone] at hprojects
  have hname := List.filter_eq_nil_iff.mp hprojects.symm other hother
  simpa using hname

theorem UniqueNames.create (h : UniqueNames db) (projectID : String) (userRequest : CreateProjectInput) :
    UniqueNames (dbAfter (createProject env projectID uid userRequest ⟨db, 0⟩)) := by
  have hends := @triple_create env db uid projectID userRequest ⟨db, 0⟩ rfl
  have hafter : dbAfter (createProject env projectID uid userRequest ⟨db, 0⟩) = db ∨
      Added db (dbAfter (createProject env projectID uid userRequest ⟨db, 0⟩)) := by
    cases hrun : createProject env projectID uid userRequest ⟨db, 0⟩ with
    | ok _ world =>
        rw [hrun] at hends
        exact hends
    | error _ world =>
        rw [hrun] at hends
        exact hends
  rcases hafter with hsame | ⟨project, hfree, hadded⟩
  · rwa [hsame]
  · rw [hadded, UniqueNames]
    rcases Documents.docs_add db.projects project with hdocs | hdocs
    · rwa [hdocs]
    · rw [hdocs, List.map_append, List.map_singleton]
      exact h.append (List.nodup_singleton _) (by simpa using fun other hother => hfree other hother)

/-! ## A rename -/

/-- The rename is let through and its write is made. -/
structure Renames (env : Env) (uid : String) (userRequest : ProjectInput) (db : Database) : Prop where
  reads : env.fault 0 = .none ∧ env.fault 1 = .none ∧ env.fault 2 = .none
  writes : env.fault 3 ≠ .fails
  active : ∃ user, db.users.docs.find? (fun user => user.id = uid) = some user ∧ user.deactivatedAt = none
  owned : ∃ project ∈ db.projects.docs, project.id = userRequest.projectID ∧
    hasMember uid [.owner] .accepted project = true
  free : ∀ project ∈ db.projects.docs, ofCaller uid userRequest.projectName project = false

theorem run_read {α : Type} (find : Database → α) (n : Nat) :
    read env find ⟨db, n⟩ =
      if env.fault n = .none then .ok (find db) ⟨db, n + 1⟩ else .error serverDown ⟨db, n + 1⟩ := by
  have hcall : (modifyGet fun world => (world, { world with calls := world.calls + 1 }) : Call World) ⟨db, n⟩ =
      .ok ⟨db, n⟩ ⟨db, n + 1⟩ := rfl
  rw [read, bind_of_ok hcall]
  dsimp only
  cases env.fault n with
  | none => rfl
  | fails => rfl
  | unanswered => rfl

theorem dbAfter_write (change : Database → Database) (n : Nat) :
    dbAfter (write env change ⟨db, n⟩) = if env.fault n = .fails then db else change db := by
  have hcall : (modifyGet fun world => (world, { world with calls := world.calls + 1 }) : Call World) ⟨db, n⟩ =
      .ok ⟨db, n⟩ ⟨db, n + 1⟩ := rfl
  rw [write, bind_of_ok hcall]
  dsimp only
  cases env.fault n with
  | none => rfl
  | fails => rfl
  | unanswered => rfl

theorem dbAfter_answer {α : Type} (reply : GoError → GoError) (call : Call α) (world : World) :
    dbAfter (answer reply call world) = dbAfter (call world) := by
  unfold answer mapError
  cases call world with
  | ok _ _ => rfl
  | error _ _ => rfl

theorem run_getUser (n : Nat) :
    Repository.getUser env uid ⟨db, n⟩ =
      if env.fault n = .none then
        match db.users.docs.find? (fun user => user.id = uid) with
        | none => .error errNoDocuments ⟨db, n + 1⟩
        | some user => .ok user ⟨db, n + 1⟩
      else .error serverDown ⟨db, n + 1⟩ := by
  have hread := @run_read env db _ (fun db => db.users.docs.find? fun user => user.id = uid) n
  rw [Repository.getUser]
  by_cases hfault : env.fault n = .none
  · rw [if_pos hfault] at hread ⊢
    rw [bind_of_ok hread]
    cases db.users.docs.find? fun user => user.id = uid with
    | none => rfl
    | some user => rfl
  · rw [if_neg hfault] at hread ⊢
    rw [bind_of_error hread]

theorem run_rbacValidator {projectID : String} {requiredRoles : List MemberRole} {invitation : Invitation} :
    (rbacValidator env uid projectID requiredRoles invitation ⟨db, 0⟩ = .ok () ⟨db, 2⟩ ∧
      (env.fault 0 = .none ∧ env.fault 1 = .none) ∧
      (∃ user, db.users.docs.find? (fun user => user.id = uid) = some user ∧ user.deactivatedAt = none) ∧
      ∃ project ∈ db.projects.docs, project.id = projectID ∧
        hasMember uid requiredRoles invitation project = true) ∨
    ((∃ err n, rbacValidator env uid projectID requiredRoles invitation ⟨db, 0⟩ = .error err ⟨db, n⟩) ∧
      ¬ ((env.fault 0 = .none ∧ env.fault 1 = .none) ∧
        (∃ user, db.users.docs.find? (fun user => user.id = uid) = some user ∧ user.deactivatedAt = none) ∧
        ∃ project ∈ db.projects.docs, project.id = projectID ∧
          hasMember uid requiredRoles invitation project = true)) := by
  have huser := @run_getUser env db uid 0
  rw [rbacValidator]
  by_cases hfirst : env.fault 0 = .none
  swap
  · rw [if_neg hfirst] at huser
    exact .inr ⟨⟨_, _, bind_of_error huser⟩, fun h => hfirst h.1.1⟩
  rw [if_pos hfirst] at huser
  cases hfound : db.users.docs.find? fun user => user.id = uid with
  | none =>
      rw [hfound] at huser
      refine .inr ⟨⟨_, _, bind_of_error huser⟩, ?_⟩
      rintro ⟨-, ⟨user, hsome, -⟩, -⟩
      cases hsome
  | some user =>
  rw [hfound] at huser
  rw [bind_of_ok huser]
  by_cases hactive : user.deactivatedAt ≠ none
  · rw [if_pos hactive]
    refine .inr ⟨⟨_, _, rfl⟩, ?_⟩
    rintro ⟨-, ⟨user', hsome, hactive'⟩, -⟩
    exact hactive (Option.some.inj hsome ▸ hactive')
  rw [if_neg hactive]
  have hprojects := @run_read env db _
    (fun db => db.projects.docs.filter fun project =>
      project.id = projectID ∧ hasMember uid requiredRoles invitation project) 1
  by_cases hsecond : env.fault 1 = .none
  swap
  · rw [if_neg hsecond] at hprojects
    exact .inr ⟨⟨_, _, bind_of_error hprojects⟩, fun h => hsecond h.1.2⟩
  rw [if_pos hsecond] at hprojects
  rw [Repository.getProjects, bind_of_ok hprojects]
  by_cases hnone : (db.projects.docs.filter fun project =>
      project.id = projectID ∧ hasMember uid requiredRoles invitation project) = []
  · rw [if_pos hnone]
    refine .inr ⟨⟨_, _, rfl⟩, ?_⟩
    rintro ⟨-, -, project, hproject, hmatches⟩
    have hmem : project ∈ db.projects.docs.filter fun project =>
        project.id = projectID ∧ hasMember uid requiredRoles invitation project :=
      List.mem_filter.mpr ⟨hproject, decide_eq_true hmatches⟩
    rw [hnone] at hmem
    cases hmem
  · rw [if_neg hnone]
    obtain ⟨project, hmem⟩ := List.exists_mem_of_ne_nil _ hnone
    obtain ⟨hproject, hmatches⟩ := List.mem_filter.mp hmem
    exact .inl ⟨rfl, ⟨hfirst, hsecond⟩, ⟨user, rfl, not_not.mp hactive⟩, project, hproject,
      of_decide_eq_true hmatches⟩

/-- A rename is made exactly when it is let through and its write is made. -/
theorem dbAfter_updateProjectName (env : Env) (uid : String) (userRequest : ProjectInput) (db : Database) :
    (Renames env uid userRequest db ∧
      dbAfter (updateProjectName env uid userRequest ⟨db, 0⟩) = db.rename userRequest) ∨
    (¬ Renames env uid userRequest db ∧
      dbAfter (updateProjectName env uid userRequest ⟨db, 0⟩) = db) := by
  rw [updateProjectName]
  rcases @run_rbacValidator env db uid userRequest.projectID [.owner] .accepted with
    ⟨hvalid, ⟨hfirst, hsecond⟩, hactive, howned⟩ | ⟨⟨err, n, hvalid⟩, hnot⟩
  swap
  · have hanswer : answer (fun _ => errUnauthorized)
        (rbacValidator env uid userRequest.projectID [.owner] .accepted) ⟨db, 0⟩ =
          .error errUnauthorized ⟨db, n⟩ := by
      rw [answer, mapError, hvalid]
    rw [bind_of_error hanswer]
    exact .inr ⟨fun h => hnot ⟨⟨h.reads.1, h.reads.2.1⟩, h.active, h.owned⟩, rfl⟩
  have hanswer : answer (fun _ => errUnauthorized)
      (rbacValidator env uid userRequest.projectID [.owner] .accepted) ⟨db, 0⟩ = .ok () ⟨db, 2⟩ := by
    rw [answer, mapError, hvalid]
  rw [bind_of_ok hanswer]
  have hprojects := @run_read env db _
    (fun db => db.projects.docs.filter (ofCaller uid userRequest.projectName)) 2
  by_cases hthird : env.fault 2 = .none
  swap
  · rw [if_neg hthird] at hprojects
    rw [Repository.getProjects, bind_of_error hprojects]
    exact .inr ⟨fun h => hthird h.reads.2.2, rfl⟩
  rw [if_pos hthird] at hprojects
  rw [Repository.getProjects, bind_of_ok hprojects]
  by_cases htaken : db.projects.docs.filter (ofCaller uid userRequest.projectName) ≠ []
  · rw [if_pos htaken]
    refine .inr ⟨fun h => ?_, rfl⟩
    obtain ⟨project, hmem⟩ := List.exists_mem_of_ne_nil _ htaken
    obtain ⟨hproject, hmatches⟩ := List.mem_filter.mp hmem
    simp [h.free project hproject] at hmatches
  rw [if_neg htaken, dbAfter_answer, Repository.updateProjectName, dbAfter_write]
  have hfree : ∀ project ∈ db.projects.docs, ofCaller uid userRequest.projectName project = false := by
    intro project hproject
    have hnone := List.filter_eq_nil_iff.mp (not_not.mp htaken) project hproject
    simpa using hnone
  by_cases hwrite : env.fault 3 = .fails
  · rw [if_pos hwrite]
    exact .inr ⟨fun h => h.writes hwrite, rfl⟩
  · rw [if_neg hwrite]
    exact .inl ⟨⟨⟨hfirst, hsecond, hthird⟩, hwrite, hactive, howned, hfree⟩, rfl⟩

/-- No other project has the name. -/
def NameIsFree (userRequest : ProjectInput) (db : Database) : Prop :=
  ∀ project ∈ db.projects.docs, project.id ≠ userRequest.projectID → project.name ≠ userRequest.projectName

theorem names_rename (db : Database) (userRequest : ProjectInput) :
    (db.rename userRequest).projects.docs.map Project.name = db.projects.docs.map fun project =>
      if project.id = userRequest.projectID then userRequest.projectName else project.name := by
  have hdocs : (db.rename userRequest).projects.docs = db.projects.docs.map fun project =>
      if decide (project.id = userRequest.projectID) = true then
        (setName userRequest.projectName).val project else project :=
    Documents.docs_update userRequest.projectID fun project hquery => of_decide_eq_true hquery
  rw [hdocs, List.map_map]
  refine List.map_congr_left fun project _ => ?_
  by_cases hid : project.id = userRequest.projectID
  · simp [hid, setName]
  · simp [hid]

/-- A rename keeps the names apart exactly when no other project has the name. -/
theorem uniqueNames_rename_iff {userRequest : ProjectInput} (h : UniqueNames db)
    (hproject : ∃ project ∈ db.projects.docs, project.id = userRequest.projectID) :
    UniqueNames (db.rename userRequest) ↔ NameIsFree userRequest db := by
  have hnodup : db.projects.docs.Nodup := h.of_map _
  rw [UniqueNames, names_rename]
  constructor
  · intro hunique other hother hne hname
    obtain ⟨project, hproject, hid⟩ := hproject
    have hsame := List.inj_on_of_nodup_map hunique hproject hother
      (by rw [if_pos hid, if_neg hne, hname])
    exact hne (hsame ▸ hid)
  · intro hfree
    refine List.Nodup.map_on (fun left hleft right hright hname => ?_) hnodup
    by_cases hid : left.id = userRequest.projectID
    · by_cases hid' : right.id = userRequest.projectID
      · exact db.projects.eq_of_key hleft hright (hid.trans hid'.symm)
      · rw [if_pos hid, if_neg hid'] at hname
        exact absurd hname.symm (hfree right hright hid')
    · by_cases hid' : right.id = userRequest.projectID
      · rw [if_neg hid, if_pos hid'] at hname
        exact absurd hname (hfree left hleft hid)
      · rw [if_neg hid, if_neg hid'] at hname
        exact List.inj_on_of_nodup_map h hleft hright hname

/-! ## Runs -/

/-- A rename that is made is to a name that no other project has. -/
def NameCall.KeepsNames (db : Database) (call : NameCall) : Prop :=
  match call.request with
  | .create _ _ => True
  | .rename userRequest => Renames call.env call.uid userRequest db → NameIsFree userRequest db

theorem uniqueNames_apply_iff (h : UniqueNames db) (call : NameCall) :
    UniqueNames (call.apply db) ↔ call.KeepsNames db := by
  obtain ⟨env, uid, request⟩ := call
  cases request with
  | create projectID userRequest => exact iff_of_true (h.create projectID userRequest) trivial
  | rename userRequest =>
      rcases dbAfter_updateProjectName env uid userRequest db with ⟨hrenames, hafter⟩ | ⟨hnot, hafter⟩
      · obtain ⟨project, hproject, hid, -⟩ := hrenames.owned
        change UniqueNames (dbAfter (updateProjectName env uid userRequest ⟨db, 0⟩)) ↔
          (Renames env uid userRequest db → NameIsFree userRequest db)
        rw [hafter, uniqueNames_rename_iff h ⟨project, hproject, hid⟩]
        exact ⟨fun hfree _ => hfree, fun hfree => hfree hrenames⟩
      · refine iff_of_true ?_ fun hrenames => absurd hrenames hnot
        change UniqueNames (dbAfter (updateProjectName env uid userRequest ⟨db, 0⟩))
        rwa [hafter]

def NamesStayUnique (db : Database) (calls : List NameCall) : Prop :=
  ∀ front back, calls = front ++ back → UniqueNames (front.foldl NameCall.apply db)

theorem namesStayUnique_iff (db : Database) (calls : List NameCall) (h : UniqueNames db) :
    NamesStayUnique db calls ↔
      ∀ front call back, calls = front ++ call :: back → call.KeepsNames (front.foldl NameCall.apply db) := by
  refine foldl_invariant_iff (fun db call _ hunique => ?_) h
  exact uniqueNames_apply_iff hunique call

/-! ### A name of somebody else -/

def otherProject : Project :=
  { newProject with
    id := "other"
    name := "taken"
    members := [sampleMember "stranger" .owner .accepted] }

def twoProjects : Database := { emptyDatabase with projects := ⟨[newProject, otherProject], by decide⟩ }

def renameTo (projectName : String) : NameCall := ⟨calmEnv, "owner", .rename ⟨"project", projectName⟩⟩

/-- The owner of a project takes the name of a project it is no member of. -/
theorem not_namesStayUnique : ¬ ∀ db calls, UniqueNames db → NamesStayUnique db calls := by
  intro h
  have hunique := h twoProjects [renameTo "taken"] (by decide) [renameTo "taken"] [] rfl
  exact absurd hunique (by decide +kernel)

theorem namesStayUnique_fresh : NamesStayUnique twoProjects [renameTo "fresh"] := by
  apply (namesStayUnique_iff twoProjects [renameTo "fresh"] (by decide)).mpr
  intro front call back hcalls
  cases front with
  | nil =>
      obtain rfl : renameTo "fresh" = call := (List.cons.inj hcalls).1
      intro _
      change ∀ project ∈ twoProjects.projects.docs, project.id ≠ "project" → project.name ≠ "fresh"
      decide
  | cons first front =>
      have hlength := congrArg List.length hcalls
      simp at hlength

end LitmusPortal.Authentication
