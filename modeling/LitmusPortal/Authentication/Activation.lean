import LitmusPortal.Authentication.Transaction

/-!
# All or nothing

An activation that fails before its first write leaves nothing. After it the user carries the new state
already, whatever happens to the projects: the failure leaves a trace unless what was written was there before.
-/

namespace LitmusPortal.Authentication

open DocumentStore Program

variable {env : Outcomes} {userRequest : UpdateUserState} {db : Database} {user : User}

/-! ## The calls in their order -/

/-- The state that the request asks for. -/
def deactivatedAt (env : Outcomes) (userRequest : UpdateUserState) : Option String :=
  if userRequest.isDeactivate then some (deactivateTime env userRequest) else none

def afterUser (env : Outcomes) (userRequest : UpdateUserState) (db : Database) : Database :=
  changeUser userRequest.username (deactivatedAt env userRequest) env.updateUser db

def afterEntries (env : Outcomes) (userRequest : UpdateUserState) (user : User) (db : Database) : Database :=
  changeEntries user.id (deactivateTime env userRequest) env.updateEntries (afterUser env userRequest db)

def afterRemoved (env : Outcomes) (userRequest : UpdateUserState) (user : User) (db : Database) : Database :=
  changeRemoved user.id (deactivateTime env userRequest) env.updateRemoved
    (afterEntries env userRequest user db)

theorem updateState_run (env : Outcomes) (userRequest : UpdateUserState) (user : User) (db : Database) :
    updateState env userRequest user ⟨db, []⟩ =
      match env.updateUser, env.updateEntries, env.updateRemoved, env.commit with
      | .failed _, _, _, _ => .error errServerError ⟨afterUser env userRequest db, []⟩
      | .answered, .failed _, _, _ => .error errServerError ⟨afterEntries env userRequest user db, []⟩
      | .answered, .answered, .failed _, _ =>
          .error errServerError ⟨afterRemoved env userRequest user db, []⟩
      | .answered, .answered, .answered, .failed _ =>
          .error serverDown ⟨afterRemoved env userRequest user db, []⟩
      | .answered, .answered, .answered, .answered =>
          .ok () ⟨afterRemoved env userRequest user db, []⟩ := by
  obtain ⟨now, _, _, _, updateUser, updateEntries, updateRemoved, commit⟩ := env
  obtain ⟨username, isDeactivate⟩ := userRequest
  cases isDeactivate <;> cases updateUser <;> cases updateEntries <;> cases updateRemoved <;>
    cases commit <;> rfl

theorem reach_answered (session : Session) : reach .answered session = .ok () session := rfl

theorem reach_failed (documents : Nat) (session : Session) :
    reach (.failed documents) session = .error serverDown session := rfl

/-- The request gets as far as its first write. -/
structure Reaches (env : Outcomes) (userRequest : UpdateUserState) (db : Database) (user : User) : Prop where
  startSession : env.startSession = .answered
  startTransaction : env.startTransaction = .answered
  findUser : env.findUser = .answered
  found : db.users.docs.find? (fun user => user.userName = userRequest.username) = some user
  notAdmin : user.role ≠ .admin
  active : userRequest.isDeactivate = true → user.deactivatedAt = none

theorem findUserByUsername_run (hfind : env.findUser = .answered) :
    mapError (fun _ => errUserNotFound) (Repository.findUserByUsername env userRequest.username) ⟨db, []⟩ =
      match db.users.docs.find? fun user => user.userName = userRequest.username with
      | none => .error errUserNotFound ⟨db, []⟩
      | some user => .ok user ⟨db, []⟩ := by
  unfold Repository.findUserByUsername mapError
  rw [hfind, bind_of_ok (reach_answered _), bind_get]
  cases db.users.docs.find? fun user => user.userName = userRequest.username with
  | none => rfl
  | some user => rfl

theorem run_of_reaches (h : Reaches env userRequest db user) :
    updateStateTransaction env userRequest ⟨db, []⟩ = updateState env userRequest user ⟨db, []⟩ := by
  have hfind := @findUserByUsername_run env userRequest db h.findUser
  rw [h.found] at hfind
  have hactive : ¬ (userRequest.isDeactivate = true ∧ user.deactivatedAt ≠ none) :=
    fun hdeactivated => hdeactivated.2 (h.active hdeactivated.1)
  unfold updateStateTransaction
  rw [h.startSession, bind_of_ok (reach_answered _), h.startTransaction, bind_of_ok (reach_answered _),
    bind_of_ok hfind, if_neg h.notAdmin, if_neg hactive]

theorem run_of_not_reaches (h : ∀ user, ¬ Reaches env userRequest db user) :
    ∃ err, updateStateTransaction env userRequest ⟨db, []⟩ = .error err ⟨db, []⟩ := by
  unfold updateStateTransaction
  cases hsession : env.startSession with
  | failed documents => exact ⟨_, bind_of_error (reach_failed _ _)⟩
  | answered =>
  cases htransaction : env.startTransaction with
  | failed documents =>
      rw [bind_of_ok (reach_answered _)]
      exact ⟨_, bind_of_error (reach_failed _ _)⟩
  | answered =>
  rw [bind_of_ok (reach_answered _), bind_of_ok (reach_answered _)]
  cases hfindUser : env.findUser with
  | failed documents =>
      have hfind : mapError (fun _ => errUserNotFound)
          (Repository.findUserByUsername env userRequest.username) ⟨db, []⟩ =
            .error errUserNotFound ⟨db, []⟩ := by
        rw [mapError, Repository.findUserByUsername, hfindUser, bind_of_error (reach_failed _ _)]
      exact ⟨_, bind_of_error hfind⟩
  | answered =>
  have hfind := @findUserByUsername_run env userRequest db hfindUser
  cases hfound : db.users.docs.find? fun user => user.userName = userRequest.username with
  | none =>
      rw [hfound] at hfind
      exact ⟨_, bind_of_error hfind⟩
  | some user =>
      rw [hfound] at hfind
      rw [bind_of_ok hfind]
      by_cases hadmin : user.role = .admin
      · rw [if_pos hadmin]
        exact ⟨_, rfl⟩
      · have hactive : userRequest.isDeactivate = true ∧ user.deactivatedAt ≠ none := by
          by_contra hactive
          exact h user ⟨hsession, htransaction, hfindUser, hfound, hadmin, fun hdeactivate =>
            not_not.mp fun hne => hactive ⟨hdeactivate, hne⟩⟩
        rw [if_neg hadmin, if_pos hactive]
        exact ⟨_, rfl⟩

/-! ## What is left -/

def Database.entries (db : Database) : List (List Member) := db.projects.docs.map Project.members

def Unchanged (before after : Database) : Prop :=
  after.users.docs.map User.deactivatedAt = before.users.docs.map User.deactivatedAt ∧
    after.entries = before.entries

/-- The entries of a user have the state. -/
def EntriesCarry (entries : List (List Member)) (userID time : String) : Prop :=
  ∀ members ∈ entries, ∀ member ∈ members, member.userID = userID → member.deactivatedAt = some time

theorem unchanged_afterUser
    (hfound : db.users.docs.find? (fun user => user.userName = userRequest.username) = some user) :
    Unchanged db (afterUser env userRequest db) ↔
      env.updateUser = .failed 0 ∨ user.deactivatedAt = deactivatedAt env userRequest := by
  have hchanged : (db.users.update (fun user => user.userName = userRequest.username)
      (setUserState (deactivatedAt env userRequest))).docs.map User.deactivatedAt =
        db.users.docs.map User.deactivatedAt ↔ user.deactivatedAt = deactivatedAt env userRequest := by
    have hiff := @map_updateFirst_eq_map_iff User (fun user => user.userName = userRequest.username)
      (setUserState (deactivatedAt env userRequest)).val db.users.docs _ User.deactivatedAt
    rw [hfound] at hiff
    exact hiff.trans (by simp [setUserState, eq_comm])
  unfold afterUser changeUser Unchanged
  cases hupdate : env.updateUser with
  | answered => simpa [Database.entries] using hchanged
  | failed documents =>
      cases documents with
      | zero => simp
      | succ documents => simpa [Database.entries] using hchanged

theorem entries_afterUser : (afterUser env userRequest db).entries = db.entries := by
  unfold afterUser changeUser
  cases env.updateUser with
  | answered => rfl
  | failed documents => cases documents <;> rfl

theorem entries_afterEntries (env : Outcomes) (userRequest : UpdateUserState) (user : User)
    (db : Database) :
    (afterEntries env userRequest user db).entries =
      (db.entries.take (env.updateEntries.limit db)).map
          (List.map (setMemberState user.id (deactivateTime env userRequest))) ++
        db.entries.drop (env.updateEntries.limit db) := by
  have hlength : (afterUser env userRequest db).projects.docs.length = db.projects.docs.length := by
    have hentries := congrArg List.length (@entries_afterUser env userRequest db)
    simpa [Database.entries] using hentries
  have hlimit : env.updateEntries.limit (afterUser env userRequest db) = env.updateEntries.limit db := by
    unfold Outcome.limit
    cases env.updateEntries with
    | answered => exact hlength
    | failed documents => rfl
  have hdocs := @updateAtMost_of_forall _ (fun _ => true)
    (setMembers fun members =>
      members.map (setMemberState user.id (deactivateTime env userRequest))).val
    (env.updateEntries.limit db) (afterUser env userRequest db).projects.docs fun _ => rfl
  have hentries : (afterEntries env userRequest user db).entries =
      (updateAtMost (fun _ => true) (setMembers fun members =>
        members.map (setMemberState user.id (deactivateTime env userRequest))).val
        (env.updateEntries.limit db) (afterUser env userRequest db).projects.docs).map Project.members := by
    rw [← hlimit]
    rfl
  rw [hentries, hdocs, List.map_append, List.map_drop, List.map_map, ← @entries_afterUser env userRequest db,
    Database.entries, ← List.map_take, List.map_map]
  rfl

theorem setMemberState_eq_self_iff {userID time : String} {member : Member} :
    setMemberState userID time member = member ↔
      (member.userID = userID → member.deactivatedAt = some time) := by
  unfold setMemberState
  by_cases huser : member.userID = userID
  · rw [if_pos huser]
    constructor
    · intro hsame _
      rw [← hsame]
    · intro hstate
      rw [← hstate huser]
  · simp [huser]

theorem map_eq_self_iff {α : Type} {f : α → α} {items : List α} :
    items.map f = items ↔ ∀ a ∈ items, f a = a := by
  constructor
  · intro hsame
    rw [← List.map_id items, List.map_map] at hsame
    exact List.map_inj_left.mp hsame
  · intro hsame
    rw [List.map_congr_left hsame, List.map_id']

theorem entries_afterEntries_eq_iff :
    (afterEntries env userRequest user db).entries = db.entries ↔
      EntriesCarry (db.entries.take (env.updateEntries.limit db)) user.id
        (deactivateTime env userRequest) := by
  rw [entries_afterEntries]
  conv_lhs => rhs; rw [← List.take_append_drop (env.updateEntries.limit db) db.entries]
  rw [List.append_left_inj, map_eq_self_iff]
  refine forall₂_congr fun members _ => ?_
  rw [map_eq_self_iff]
  exact forall₂_congr fun member _ => setMemberState_eq_self_iff

theorem entries_afterRemoved :
    (afterRemoved env userRequest user db).entries = (afterEntries env userRequest user db).entries :=
  map_updateAtMost fun _ => rfl

theorem users_afterRemoved :
    (afterRemoved env userRequest user db).users = (afterUser env userRequest db).users := rfl

/-- After the write of the user, only what was the case already is no trace. -/
theorem unchanged_iff_of_users {db' : Database}
    (hfound : db.users.docs.find? (fun user => user.userName = userRequest.username) = some user)
    (hupdate : env.updateUser = .answered) (husers : db'.users = (afterUser env userRequest db).users)
    (hentries : db'.entries = (afterEntries env userRequest user db).entries) :
    Unchanged db db' ↔ user.deactivatedAt = deactivatedAt env userRequest ∧
      EntriesCarry (db.entries.take (env.updateEntries.limit db)) user.id
        (deactivateTime env userRequest) := by
  have huser := @unchanged_afterUser env userRequest db user hfound
  unfold Unchanged at huser ⊢
  rw [entries_afterUser, and_iff_left rfl, hupdate] at huser
  rw [husers, hentries, huser, entries_afterEntries_eq_iff]
  simp

/-! ## The condition -/

/-- A failure leaves what was the case before. -/
def LeavesNoTrace (env : Outcomes) (userRequest : UpdateUserState) (db : Database) (user : User) : Prop :=
  match env.updateUser with
  | .failed documents => documents = 0 ∨ user.deactivatedAt = deactivatedAt env userRequest
  | .answered => env.updateEntries = .answered ∧ env.updateRemoved = .answered ∧ env.commit = .answered ∨
      user.deactivatedAt = deactivatedAt env userRequest ∧
        EntriesCarry (db.entries.take (env.updateEntries.limit db)) user.id (deactivateTime env userRequest)

/-- The user of the request and the entries of the user carry the new state. -/
def CarriesState (env : Outcomes) (userRequest : UpdateUserState) (db : Database) : Prop :=
  ∃ user, db.users.docs.find? (fun user => user.userName = userRequest.username) = some user ∧
    user.deactivatedAt = deactivatedAt env userRequest ∧
    EntriesCarry db.entries user.id (deactivateTime env userRequest)

def AllOrNothing (env : Outcomes) (userRequest : UpdateUserState) (db : Database) : Prop :=
  match updateStateTransaction env userRequest ⟨db, []⟩ with
  | .ok _ session => CarriesState env userRequest session.db
  | .error _ session => Unchanged db session.db

def ActivationIsAtomic : Prop :=
  ∀ (env : Outcomes) (userRequest : UpdateUserState) (db : Database), AllOrNothing env userRequest db

theorem carriesState_afterRemoved
    (hfound : db.users.docs.find? (fun user => user.userName = userRequest.username) = some user)
    (hupdate : env.updateUser = .answered) (hentries : env.updateEntries = .answered) :
    CarriesState env userRequest (afterRemoved env userRequest user db) := by
  refine ⟨(setUserState (deactivatedAt env userRequest)).val user, ?_, rfl, ?_⟩
  · have hfind := @find?_updateFirst _ (fun user : User => user.userName = userRequest.username)
      (setUserState (deactivatedAt env userRequest)).val db.users.docs fun user hname => hname
    rw [hfound] at hfind
    rw [users_afterRemoved, afterUser, hupdate]
    exact hfind
  · intro members hmembers member hmember huser
    have hlimit : env.updateEntries.limit db = db.entries.length := by
      rw [hentries, Database.entries, List.length_map]
      rfl
    rw [entries_afterRemoved, entries_afterEntries, hlimit, List.take_length, List.drop_length,
      List.append_nil] at hmembers
    obtain ⟨old, -, rfl⟩ := List.mem_map.mp hmembers
    obtain ⟨entry, -, rfl⟩ := List.mem_map.mp hmember
    unfold setMemberState at huser ⊢
    by_cases hentry : entry.userID = user.id
    · rw [if_pos hentry]
    · rw [if_neg hentry] at huser
      exact absurd huser hentry

theorem allOrNothing_iff (env : Outcomes) (userRequest : UpdateUserState) (db : Database) :
    AllOrNothing env userRequest db ↔
      ∀ user, Reaches env userRequest db user → LeavesNoTrace env userRequest db user := by
  by_cases hreaches : ∃ user, Reaches env userRequest db user
  · obtain ⟨user, h⟩ := hreaches
    have hunique : (∀ user, Reaches env userRequest db user → LeavesNoTrace env userRequest db user) ↔
        LeavesNoTrace env userRequest db user := by
      refine ⟨fun hall => hall user h, fun htrace other hother => ?_⟩
      obtain rfl : user = other := Option.some.inj (h.found.symm.trans hother.found)
      exact htrace
    rw [hunique]
    unfold AllOrNothing LeavesNoTrace
    rw [run_of_reaches h, updateState_run]
    cases hupdate : env.updateUser with
    | failed documents =>
        have huser := @unchanged_afterUser env userRequest db user h.found
        rw [hupdate] at huser
        simpa using huser
    | answered =>
    cases hentries : env.updateEntries with
    | failed documents =>
        have hchanged := @unchanged_iff_of_users env userRequest db user
          (afterEntries env userRequest user db) h.found hupdate rfl rfl
        rw [hentries] at hchanged
        simpa using hchanged
    | answered =>
    have hchanged := unchanged_iff_of_users h.found hupdate users_afterRemoved entries_afterRemoved
    rw [hentries] at hchanged
    cases env.updateRemoved with
    | failed documents => simpa using hchanged
    | answered =>
    cases env.commit with
    | failed documents => simpa using hchanged
    | answered =>
        refine iff_of_true ?_ (.inl ⟨rfl, rfl, rfl⟩)
        exact carriesState_afterRemoved h.found hupdate hentries
  · have hnone : ∀ user, ¬ Reaches env userRequest db user := fun user h => hreaches ⟨user, h⟩
    refine iff_of_true ?_ fun user h => absurd h (hnone user)
    obtain ⟨err, hrun⟩ := run_of_not_reaches hnone
    unfold AllOrNothing
    rw [hrun]
    exact ⟨rfl, rfl⟩

/-- The user is deactivated, and the projects are not reached. -/
def lostProjects : Outcomes where
  now := 0
  startSession := .answered
  startTransaction := .answered
  findUser := .answered
  updateUser := .answered
  updateEntries := .failed 0
  updateRemoved := .answered
  commit := .answered

theorem not_activationIsAtomic : ¬ ActivationIsAtomic := by
  intro h
  have hchanged : Unchanged ownedDatabase
      (afterEntries lostProjects ⟨"viewer", true⟩ (sampleUser "viewer") ownedDatabase) :=
    h lostProjects ⟨"viewer", true⟩ ownedDatabase
  exact absurd hchanged.1 (by decide)

end LitmusPortal.Authentication
