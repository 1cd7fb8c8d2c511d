import LitmusPortal.Authentication.SelfService
import LitmusPortal.Lib.Transition

/-!
# Projects and their owners

A project is created with one member, an owner that has accepted. An invitation goes to users that have
not accepted and an acceptance leaves the role, but a decline, an exit or a removal that is allowed may name
any member in its body: the project keeps an owner as long as such a call leaves another one.
-/

namespace LitmusPortal.Authentication

open DocumentStore Program Transition

variable {env : Env} {db : Database} {uid projectID : String}

/-! ## Members -/

def Member.IsOwner (member : Member) : Prop := member.role = .owner ∧ member.invitation = .accepted

instance instDecidableIsOwner (member : Member) : Decidable member.IsOwner :=
  inferInstanceAs (Decidable (_ ∧ _))

def Invitation.IsKnown (invitation : Invitation) : Prop := ∀ text, invitation ≠ .other text

/-- One entry for each user, with an invitation that a handler knows. -/
structure Sound (members : List Member) : Prop where
  unique : (members.map Member.userID).Nodup
  known : ∀ member ∈ members, member.invitation.IsKnown

@[simp]
theorem userID_setInvitation (userID time : String) (invitation : Invitation) (role : Option MemberRole)
    (member : Member) :
    (setInvitation userID invitation role time member).userID = member.userID := by
  unfold setInvitation
  by_cases huser : member.userID = userID
  · cases invitation <;> simp [huser]
  · rw [if_neg huser]

theorem setInvitation_of_ne {userID time : String} {invitation : Invitation} {role : Option MemberRole}
    {member : Member} (h : member.userID ≠ userID) :
    setInvitation userID invitation role time member = member := if_neg h

theorem isKnown_setInvitation {userID time : String} {invitation : Invitation} {role : Option MemberRole}
    {member : Member} (h : member.invitation.IsKnown) :
    (setInvitation userID invitation role time member).invitation.IsKnown := by
  unfold setInvitation
  by_cases huser : member.userID = userID
  · rw [if_pos huser]
    cases invitation with
    | pending | accepted | declined | exited => simp [Invitation.IsKnown]
    | other text => exact h
  · rwa [if_neg huser]

theorem Sound.map_setInvitation {members : List Member} (h : Sound members) (userID time : String)
    (invitation : Invitation) (role : Option MemberRole) :
    Sound (members.map (setInvitation userID invitation role time)) where
  unique := by
    have huser : Member.userID ∘ setInvitation userID invitation role time = Member.userID :=
      funext fun member => userID_setInvitation userID time invitation role member
    rw [List.map_map, huser]
    exact h.unique
  known := by
    intro member hmember
    obtain ⟨old, hold, rfl⟩ := List.mem_map.mp hmember
    exact isKnown_setInvitation (h.known old hold)

theorem Sound.filter {members : List Member} (h : Sound members) (keep : Member → Bool) :
    Sound (members.filter keep) where
  unique := h.unique.sublist (List.filter_sublist.map _)
  known member hmember := h.known member (List.mem_filter.mp hmember).1

theorem Sound.append {members : List Member} (h : Sound members) {member : Member}
    (habsent : ∀ other ∈ members, other.userID ≠ member.userID) (hknown : member.invitation.IsKnown) :
    Sound (members ++ [member]) where
  unique := by
    rw [List.map_append, List.map_singleton]
    refine h.unique.append (List.nodup_singleton _) ?_
    simpa using fun other hother => habsent other hother
  known other hother := by
    rcases List.mem_append.mp hother with hold | hnew
    · exact h.known other hold
    · rw [List.mem_singleton.mp hnew]
      exact hknown

theorem Sound.invitationOf_eq {members : List Member} (h : Sound members) {member : Member}
    (hmember : member ∈ members) : invitationOf members member.userID = member.invitation := by
  unfold invitationOf
  cases hfind : members.find? fun other => other.userID = member.userID with
  | none => exact absurd (List.find?_eq_none.mp hfind member hmember) (by simp)
  | some found =>
      have huser : found.userID = member.userID := by simpa using List.find?_some hfind
      have hsame := List.inj_on_of_nodup_map h.unique (List.mem_of_find?_eq_some hfind) hmember huser
      rw [hsame]

theorem Sound.absent {members : List Member} (h : Sound members) {userID text : String}
    (hstatus : invitationOf members userID = .other text) :
    ∀ member ∈ members, member.userID ≠ userID := by
  rintro member hmember rfl
  exact h.known member hmember text (h.invitationOf_eq hmember ▸ hstatus)

/-! ## Projects -/

def HasOwner (db : Database) (projectID : String) : Prop :=
  ∃ project ∈ db.projects.docs, project.id = projectID ∧ ∃ member ∈ project.members, member.IsOwner

/-- What every handler may rely on. -/
def Owned (projectID : String) (db : Database) : Prop :=
  ∃ project ∈ db.projects.docs, project.id = projectID ∧ Sound project.members ∧
    ∃ member ∈ project.members, member.IsOwner

theorem Owned.hasOwner (h : Owned projectID db) : HasOwner db projectID := by
  obtain ⟨project, hproject, hid, -, howner⟩ := h
  exact ⟨project, hproject, hid, howner⟩

/-- A change of the members of a project is looked at where they are; that of another project does not
matter. -/
theorem Owned.changeMembers {target : String} {change : List Member → List Member}
    (h : Owned projectID db)
    (hchange : target = projectID → ∀ members, Found db projectID members → Sound members →
      (∃ member ∈ members, member.IsOwner) →
      Sound (change members) ∧ ∃ member ∈ change members, member.IsOwner) :
    Owned projectID (db.changeMembers target change) := by
  obtain ⟨project, hproject, hid, hsound, howner⟩ := h
  have hdocs := projects_changeMembers db target change
  by_cases htarget : project.id = target
  · obtain ⟨hsound', howner'⟩ := hchange (htarget.symm.trans hid) project.members
      ⟨project, hproject, hid, rfl⟩ hsound howner
    refine ⟨{ project with members := change project.members }, ?_, hid, hsound', howner'⟩
    rw [hdocs, List.mem_map]
    exact ⟨project, hproject, if_pos htarget⟩
  · refine ⟨project, ?_, hid, hsound, howner⟩
    rw [hdocs, List.mem_map]
    exact ⟨project, hproject, if_neg htarget⟩

theorem Found.eq {members members' : List Member} (h : Found db projectID members)
    (h' : Found db projectID members') : members = members' := by
  obtain ⟨project, hproject, hid, rfl⟩ := h
  obtain ⟨project', hproject', hid', rfl⟩ := h'
  rw [db.projects.eq_of_key hproject hproject' (hid.trans hid'.symm)]

/-! ## The creation -/

theorem triple_createProject {project : Project} :
    Triple (fun _ => True) (Repository.createProject env project)
      (fun _ world => project ∈ world.db.projects.docs) (fun _ => True) := by
  refine Triple.bind Triple.get fun start => ?_
  refine Triple.bind (@Triple.mono _ _ _ _ _ _ _ _ _ (fun _ world => world.db =
    { start.db with projects := start.db.projects.add project }) (@triple_write env start.db _)
    (fun world hworld => by rw [hworld.1]) (fun _ _ hs => hs) fun _ _ => trivial) fun _ => ?_
  refine Triple.ite (fun _ => Triple.throw fun _ _ => trivial) fun hnew => Triple.pure fun world hworld => ?_
  have hid : project.id ∉ start.db.projects.docs.map Project.id := by
    simpa using hnew
  rw [hworld, Documents.docs_add_of_notMem _ hid]
  exact List.mem_append_right _ (List.mem_singleton.mpr rfl)

theorem owned_of_createProject {input : CreateProjectInput} {project : Project} {world world' : World}
    (hrun : createProject env projectID uid input world = .ok project world') :
    Owned projectID world'.db := by
  have htriple : Triple (fun _ => True) (createProject env projectID uid input)
      (fun _ world => Owned projectID world.db) (fun _ => True) := by
    refine Triple.ite (fun _ => Triple.throw fun _ _ => trivial) fun _ => ?_
    refine Triple.bind_of_forall fun user => ?_
    refine Triple.bind_of_forall fun projects => ?_
    refine Triple.ite (fun _ => Triple.throw fun _ _ => trivial) fun _ => ?_
    refine Triple.bind_of_forall fun joinedAt => ?_
    refine Triple.bind_of_forall fun createdAt => ?_
    refine Triple.bind_of_forall fun updatedAt => ?_
    refine Triple.bind (triple_answer triple_createProject) fun _ => Triple.pure fun world hworld => ?_
    refine ⟨_, hworld, rfl, ⟨?_, ?_⟩, _, List.mem_singleton.mpr rfl, rfl, rfl⟩
    · exact List.nodup_singleton _
    · intro member hmember
      rw [List.mem_singleton.mp hmember]
      simp [Invitation.IsKnown]
  exact htriple.ok trivial hrun

/-! ## One call -/

structure MembershipCall where
  env : Env
  uid : String
  request : Request

def MembershipCall.step (db : Database) (call : MembershipCall) : Option Database :=
  some (afterRequest call.env call.uid db call.request)

/-- An owner of the project other than the user. -/
def OwnerBeside (db : Database) (projectID userID : String) : Prop :=
  ∃ project ∈ db.projects.docs, project.id = projectID ∧
    ∃ member ∈ project.members, member.IsOwner ∧ member.userID ≠ userID

/-- A decline, an exit or a removal that is allowed leaves an owner beside the user of the body. -/
def MembershipCall.KeepsOwner (projectID : String) (db : Database) (call : MembershipCall) : Prop :=
  match call.request with
  | .sendInvitation _ | .acceptInvitation _ => True
  | .declineInvitation member => member.projectID = projectID →
      Allowed db call.uid projectID .declineInvitation .pending → OwnerBeside db projectID member.userID
  | .leaveProject member => member.projectID = projectID →
      Allowed db call.uid projectID .leaveProject .accepted → OwnerBeside db projectID member.userID
  | .removeInvitation member => member.projectID = projectID →
      Allowed db call.uid projectID .removeInvitation .accepted → OwnerBeside db projectID member.userID

theorem OwnerBeside.exists_mem {userID : String} {members : List Member}
    (h : OwnerBeside db projectID userID) (hfound : Found db projectID members) :
    ∃ member ∈ members, member.IsOwner ∧ member.userID ≠ userID := by
  obtain ⟨project, hproject, hid, howner⟩ := h
  rwa [Found.eq ⟨project, hproject, hid, rfl⟩ hfound] at howner

theorem exists_owner_map {members : List Member} {userID time : String} {invitation : Invitation}
    {role : Option MemberRole} (h : ∃ member ∈ members, member.IsOwner ∧ member.userID ≠ userID) :
    ∃ member ∈ members.map (setInvitation userID invitation role time), member.IsOwner := by
  obtain ⟨member, hmember, howner, huser⟩ := h
  exact ⟨member, List.mem_map.mpr ⟨member, hmember, setInvitation_of_ne huser⟩, howner⟩

theorem Owned.map_setInvitation {target userID time : String} {invitation : Invitation}
    {role : Option MemberRole} (h : Owned projectID db)
    (hbeside : target = projectID → ∀ members, Found db projectID members → Sound members →
      (∃ member ∈ members, member.IsOwner) → ∃ member ∈ members, member.IsOwner ∧ member.userID ≠ userID) :
    Owned projectID
      (db.changeMembers target fun members => members.map (setInvitation userID invitation role time)) := by
  refine h.changeMembers fun htarget members hfound hsound howner => ⟨?_, ?_⟩
  · exact hsound.map_setInvitation userID time invitation role
  · exact exists_owner_map (hbeside htarget members hfound hsound howner)

theorem Owned.accept {target userID time : String} (h : Owned projectID db) :
    Owned projectID
      (db.changeMembers target fun members => members.map (setInvitation userID .accepted none time)) := by
  refine h.changeMembers fun _ members _ hsound howner => ⟨?_, ?_⟩
  · exact hsound.map_setInvitation userID time .accepted none
  · obtain ⟨member, hmember, hrole, hinvitation⟩ := howner
    refine ⟨_, List.mem_map_of_mem hmember, ?_⟩
    unfold setInvitation
    by_cases huser : member.userID = userID
    · rw [if_pos huser]
      exact ⟨hrole, rfl⟩
    · rw [if_neg huser]
      exact ⟨hrole, hinvitation⟩

theorem Owned.step {call : MembershipCall} {db' : Database} (h : Owned projectID db)
    (hkeeps : call.KeepsOwner projectID db) (hstep : call.step db = some db') : Owned projectID db' := by
  obtain ⟨env, uid, request⟩ := call
  obtain rfl : afterRequest env uid db request = db' := Option.some.inj hstep
  rcases afterRequest_cases env uid db request with hsame | ⟨change, hmakes, hdb⟩
  · rwa [hsame]
  rw [hdb]
  cases hmakes with
  | invite member members time _ found left =>
      refine h.map_setInvitation fun htarget members' hfound hsound howner => ?_
      obtain rfl : members = members' := Found.eq (htarget ▸ found) hfound
      obtain ⟨owner, hmem, howner⟩ := howner
      refine ⟨owner, hmem, howner, fun huser => left ?_⟩
      rw [← huser, hsound.invitationOf_eq hmem, howner.2]
  | add member members newMember text _ found absent user pending =>
      refine h.changeMembers fun htarget members' hfound hsound howner => ?_
      obtain rfl : members = members' := Found.eq (htarget ▸ found) hfound
      obtain ⟨owner, hmem, howner⟩ := howner
      refine ⟨hsound.append (fun other hother => ?_) ?_, owner, List.mem_append_left _ hmem, howner⟩
      · rw [user]
        exact hsound.absent absent other hother
      · rw [pending]
        exact fun text => Invitation.noConfusion
  | accept member time _ => exact h.accept
  | decline member time allowed =>
      exact h.map_setInvitation fun htarget members hfound _ _ =>
        (hkeeps htarget (htarget ▸ allowed)).exists_mem hfound
  | leave member time allowed =>
      exact h.map_setInvitation fun htarget members hfound _ _ =>
        (hkeeps htarget (htarget ▸ allowed)).exists_mem hfound
  | remove member members allowed _ _ =>
      refine h.changeMembers fun htarget members' hfound hsound _ => ⟨hsound.filter _, ?_⟩
      obtain ⟨owner, hmem, howner, huser⟩ := (hkeeps htarget (htarget ▸ allowed)).exists_mem hfound
      exact ⟨owner, List.mem_filter.mpr ⟨hmem, by simpa using huser⟩, howner⟩

/-! ## Runs -/

/-- A created project has an owner after any calls. -/
def NoOrphanProject : Prop :=
  ∀ (env : Env) (uid : String) (input : CreateProjectInput) (projectID : String) (project : Project)
    (world world' : World), createProject env projectID uid input world = .ok project world' →
      ∀ (calls : List MembershipCall) (db : Database),
        run MembershipCall.step world'.db calls = some db → HasOwner db projectID

theorem hasOwner_run (env : Env) (uid : String) (input : CreateProjectInput) (projectID : String)
    (project : Project) (world world' : World)
    (hcreate : createProject env projectID uid input world = .ok project world')
    (calls : List MembershipCall) (db : Database)
    (hkeeps : Meets MembershipCall.step (fun db call => call.KeepsOwner projectID db) world'.db calls)
    (hrun : run MembershipCall.step world'.db calls = some db) : HasOwner db projectID := by
  have howned : Owned projectID db := by
    refine run_invariant (fun db call db' h hkeeps hstep => ?_) (owned_of_createProject hcreate) hkeeps hrun
    exact Owned.step h hkeeps hstep
  exact howned.hasOwner

/-! ## An owner that removes itself -/

def emptyDatabase : Database where
  users := sampleUsers
  projects := .empty

def newProject : Project :=
  { id := "project"
    name := "name"
    members := [sampleMember "owner" .owner .accepted]
    state := some "active"
    createdAt := "0"
    updatedAt := "0"
    removedAt := "" }

def createdDatabase : Database := { emptyDatabase with projects := Documents.empty.add newProject }

theorem createProject_ok :
    createProject calmEnv "project" "owner" ⟨"name"⟩ ⟨emptyDatabase, 0⟩ =
      .ok newProject ⟨createdDatabase, 3⟩ := by
  rfl

def removeSelf : MembershipCall := ⟨calmEnv, "owner", .removeInvitation ⟨"project", "owner", none⟩⟩

theorem not_noOrphanProject : ¬ NoOrphanProject := by
  intro h
  have howner := h calmEnv "owner" ⟨"name"⟩ "project" newProject ⟨emptyDatabase, 0⟩
    ⟨createdDatabase, 3⟩ createProject_ok [removeSelf] _ rfl
  have hnone : ¬ ∃ project ∈ (afterRequest calmEnv "owner" createdDatabase removeSelf.request).projects.docs,
      project.id = "project" ∧ ∃ member ∈ project.members, member.IsOwner := by decide +kernel
  exact hnone howner

def visit : List MembershipCall :=
  [⟨calmEnv, "owner", .sendInvitation ⟨"project", "viewer", some .viewer⟩⟩,
    ⟨calmEnv, "viewer", .acceptInvitation ⟨"project", "viewer", none⟩⟩,
    ⟨calmEnv, "viewer", .leaveProject ⟨"project", "viewer", none⟩⟩]

def visitedDatabase : Database :=
  { emptyDatabase with
    projects := ⟨[{ newProject with
      members := [sampleMember "owner" .owner .accepted, sampleMember "viewer" .viewer .exited] }],
      List.nodup_singleton _⟩ }

theorem hasOwner_visit : HasOwner visitedDatabase "project" := by
  refine hasOwner_run calmEnv "owner" ⟨"name"⟩ "project" newProject ⟨emptyDatabase, 0⟩ ⟨createdDatabase, 3⟩
    createProject_ok visit visitedDatabase ⟨trivial, trivial, fun _ _ => ?_, trivial⟩ rfl
  exact ⟨_, List.mem_cons_self, rfl, _, List.mem_cons_self, ⟨rfl, rfl⟩, by decide⟩

end LitmusPortal.Authentication
