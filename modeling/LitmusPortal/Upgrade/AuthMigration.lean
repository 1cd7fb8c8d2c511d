import LitmusPortal.Upgrade.Path

/-!
# What the migration of the authentication database keeps

The upgrade runs as a process that can stop at any call and be started again, for any version. A
project that was there at the start is to stay in `litmus` or in `auth`, and the credentials of a user
in `auth.usercredentials` or in `auth.users`.
-/

namespace LitmusPortal.Upgrade

open DocumentStore Transition

variable {Doc Id : Type} [DecidableEq Id] {key : Doc → Id}

abbrev UpgradeMachine (key : Doc → Id) := Script.Machine (Op Doc) Op.Reply Stop (Option String) (Database key)

/-- The process is started with a `VERSION`; each call of the driver goes through or meets a fault. -/
abbrev UpgradeMove := Script.Move String (Option Fault)

def upgradeStep (fuel : ℕ) : UpgradeMachine key → UpgradeMove → Option (UpgradeMachine key) :=
  Script.step (fun version => (main fuel version).interpret UpgradeCall.script) exec

/-- Every project and all credentials are in their old location or in the new one. -/
structure Kept (start db : Database key) : Prop where
  projects : ∀ doc, doc ∈ start.litmusProject.docs ∨ doc ∈ start.authProject.docs →
    doc ∈ db.litmusProject.docs ∨ doc ∈ db.authProject.docs
  credentials : ∀ doc ∈ docsOf start.authUsercredentials,
    doc ∈ docsOf db.authUsercredentials ∨ doc ∈ docsOf db.authUsers

def DocumentsKept (fuel : ℕ) (start : Database key) (moves : List UpgradeMove) : Prop :=
  ∀ front mid, front <+: moves → run (upgradeStep fuel) ⟨start, none⟩ front = some mid →
    Kept start mid.store

def TakesEffect (fault : Option Fault) : Prop := ∀ f ∈ fault, f.carriedOut ≠ 0

/-- A drop that takes effect finds everything of the dropped collection elsewhere. -/
def DropsSafely (start : Database key) (op : Op Doc) (fault : Option Fault) (db : Database key) : Prop :=
  match op with
  | .drop .litmusProject => TakesEffect fault → ∀ doc ∈ db.litmusProject.docs, doc ∈ db.authProject.docs
  | .drop .authUsers => TakesEffect fault →
      db.authUsercredentials.isSome ∨ docsOf start.authUsercredentials = []
  | _ => True

def MovesSafely (start : Database key) : UpgradeMachine key → UpgradeMove → Prop :=
  Script.OnAnswers (DropsSafely start)

/-! ### What a call changes -/

section Calls

variable {start db db' : Database key} {fault : Option Fault}

/-- The collections that the migration is about. -/
structure SameCollections (db db' : Database key) : Prop where
  litmusProject : db'.litmusProject = db.litmusProject
  authProject : ∀ doc ∈ db.authProject.docs, doc ∈ db'.authProject.docs
  authUsers : db'.authUsers = db.authUsers
  authUsercredentials : db'.authUsercredentials = db.authUsercredentials

omit [DecidableEq Id] in
theorem SameCollections.refl (db : Database key) : SameCollections db db := ⟨rfl, fun _ h => h, rfl, rfl⟩

omit [DecidableEq Id] in
theorem sameCollections_change {f : Database key → Database key} (hf : SameCollections db (f db)) :
    SameCollections db (change fault f db).2 := by
  rcases change_cases fault f db with ⟨hsame, -⟩ | hdone
  · rw [hsame]
    exact .refl db
  · rw [hdone]
    exact hf

omit [DecidableEq Id] in
theorem change_of_takesEffect (h : TakesEffect fault) (f : Database key → Database key) :
    (change fault f db).2 = f db := by
  rcases fault with _ | ⟨_ | n, message⟩
  · rfl
  · exact absurd rfl (h _ rfl)
  · rfl

omit [DecidableEq Id] in
theorem change_of_not_takesEffect (h : ¬ TakesEffect fault) (f : Database key → Database key) :
    (change fault f db).2 = db := by
  rcases fault with _ | ⟨_ | n, message⟩
  · exact absurd (fun _ => nofun) h
  · rfl
  · exact absurd (fun g hg => by cases hg; exact n.succ_ne_zero) h

/-- Drops and the renaming apart, a call takes nothing away from these collections. -/
theorem exec_cases (op : Op Doc) (fault : Option Fault) (db : Database key) :
    SameCollections db (exec op fault db).2 ∨
      (∃ coll, op = .drop coll ∧ TakesEffect fault ∧ (exec op fault db).2 = db.drop coll) ∨
      ∃ coll, db.authUsers = none ∧ db.authUsercredentials = some coll ∧
        (exec op fault db).2 = { db with authUsers := some coll, authUsercredentials := none } := by
  cases op with
  | findVersion => exact .inl (.refl db)
  | findProjects => exact .inl (.refl db)
  | allProjects => exact .inl (.refl db)
  | insertProjects docs =>
      left
      cases docs with
      | nil => exact .refl db
      | cons doc docs => exact ⟨rfl, fun _ => mem_insertMany_of_mem, rfl, rfl⟩
  | drop coll =>
      by_cases heffect : TakesEffect fault
      · exact .inr (.inl ⟨coll, rfl, heffect, change_of_takesEffect heffect _⟩)
      · left
        rw [exec, change_of_not_takesEffect heffect]
        exact .refl db
  | renameUsercredentials =>
      rw [exec]
      split
      · exact .inl (.refl db)
      · exact .inl (.refl db)
      · rename_i coll hold hnew
        rcases change_cases fault (fun db => { db with authUsers := some coll, authUsercredentials := none }) db
          with ⟨hsame, -⟩ | hdone
        · rw [hsame]
          exact .inl (.refl db)
        · exact .inr (.inr ⟨coll, hnew, hold, hdone⟩)
  | dropWorkflowName =>
      left
      rw [exec]
      split
      · exact .refl db
      · exact sameCollections_change ⟨rfl, fun _ h => h, rfl, rfl⟩
  | createWorkflowName =>
      left
      rw [exec]
      split
      · exact .refl db
      · exact sameCollections_change ⟨rfl, fun _ h => h, rfl, rfl⟩
  | updateVersion version => exact .inl (sameCollections_change ⟨rfl, fun _ h => h, rfl, rfl⟩)

/-- Nothing comes into the old locations. -/
structure OldLocations (start db : Database key) : Prop where
  projects : ∀ doc ∈ db.litmusProject.docs, doc ∈ start.litmusProject.docs
  credentials : db.authUsercredentials = start.authUsercredentials ∨ db.authUsercredentials = none

theorem OldLocations.exec (h : OldLocations start db) (op : Op Doc) (fault : Option Fault) :
    OldLocations start (exec op fault db).2 := by
  rcases exec_cases op fault db with hsame | ⟨coll, -, -, hdrop⟩ | ⟨coll, -, -, hrename⟩
  · refine ⟨?_, ?_⟩
    · rw [hsame.litmusProject]
      exact h.projects
    · rw [hsame.authUsercredentials]
      exact h.credentials
  · rw [hdrop]
    cases coll with
    | litmusProject => exact ⟨fun _ hdoc => absurd hdoc List.not_mem_nil, h.credentials⟩
    | litmusUser => exact ⟨h.projects, h.credentials⟩
    | authUsers => exact ⟨h.projects, h.credentials⟩
  · rw [hrename]
    exact ⟨h.projects, .inr rfl⟩

omit [DecidableEq Id] in
theorem Kept.of_sameCollections (h : Kept start db) (hsame : SameCollections db db') : Kept start db' := by
  refine ⟨fun doc hdoc => ?_, fun doc hdoc => ?_⟩
  · rw [hsame.litmusProject]
    exact (h.projects doc hdoc).imp id (hsame.authProject doc)
  · rw [hsame.authUsercredentials, hsame.authUsers]
    exact h.credentials doc hdoc

omit [DecidableEq Id] in
theorem kept_dropProject_iff (hold : OldLocations start db) (hkept : Kept start db) :
    Kept start (db.drop .litmusProject) ↔ ∀ doc ∈ db.litmusProject.docs, doc ∈ db.authProject.docs := by
  constructor
  · intro h doc hdoc
    exact (h.projects doc (.inl (hold.projects doc hdoc))).resolve_left List.not_mem_nil
  · intro h
    refine ⟨fun doc hdoc => .inr ?_, hkept.credentials⟩
    rcases hkept.projects doc hdoc with hlitmus | hauth
    · exact h doc hlitmus
    · exact hauth

omit [DecidableEq Id] in
theorem kept_dropUsers_iff (hold : OldLocations start db) (hkept : Kept start db) :
    Kept start (db.drop .authUsers) ↔
      db.authUsercredentials.isSome ∨ docsOf start.authUsercredentials = [] := by
  constructor
  · intro h
    by_contra hnot
    obtain ⟨hgone, hsome⟩ := not_or.mp hnot
    have hnone : db.authUsercredentials = none := by simpa using hgone
    obtain ⟨doc, hdoc⟩ := List.exists_mem_of_ne_nil _ hsome
    have hleft := h.credentials doc hdoc
    change doc ∈ docsOf db.authUsercredentials ∨ doc ∈ docsOf none at hleft
    rw [hnone] at hleft
    exact hleft.elim List.not_mem_nil List.not_mem_nil
  · intro h
    refine ⟨hkept.projects, fun doc hdoc => ?_⟩
    rcases h with hsome | hnone
    · rcases hold.credentials with hsame | hgone
      · left
        change doc ∈ docsOf db.authUsercredentials
        rw [hsame]
        exact hdoc
      · rw [hgone] at hsome
        cases hsome
    · rw [hnone] at hdoc
      cases hdoc

theorem kept_exec_iff (hold : OldLocations start db) (hkept : Kept start db) (op : Op Doc) (fault : Option Fault) :
    Kept start (exec op fault db).2 ↔ DropsSafely start op fault db := by
  by_cases heffect : ∃ coll, op = .drop coll ∧ TakesEffect fault
  · obtain ⟨coll, rfl, heffect⟩ := heffect
    have hdrop : (Upgrade.exec (.drop coll) fault db).2 = db.drop coll := change_of_takesEffect heffect _
    rw [hdrop]
    cases coll with
    | litmusProject =>
        rw [kept_dropProject_iff hold hkept]
        exact ⟨fun h _ => h, fun h => h heffect⟩
    | litmusUser => exact iff_of_true ⟨hkept.projects, hkept.credentials⟩ trivial
    | authUsers =>
        rw [kept_dropUsers_iff hold hkept]
        exact ⟨fun h _ => h, fun h => h heffect⟩
  · refine iff_of_true ?_ ?_
    · rcases exec_cases op fault db with hsame | ⟨coll, hop, htakes, -⟩ | ⟨coll, hnew, hfrom, hrename⟩
      · exact hkept.of_sameCollections hsame
      · exact absurd ⟨coll, hop, htakes⟩ heffect
      · rw [hrename]
        refine ⟨hkept.projects, fun doc hdoc => .inr ?_⟩
        have hbefore := hkept.credentials doc hdoc
        rw [hnew, hfrom] at hbefore
        exact hbefore.resolve_right List.not_mem_nil
    · unfold DropsSafely
      split
      · exact fun htakes => absurd ⟨_, rfl, htakes⟩ heffect
      · exact fun htakes => absurd ⟨_, rfl, htakes⟩ heffect
      · trivial

end Calls

/-! ### Runs -/

theorem upgradeStep_cases {fuel : ℕ} {machine machine' : UpgradeMachine key} {move : UpgradeMove}
    (h : upgradeStep fuel machine move = some machine') (start : Database key) :
    (machine'.store = machine.store ∧ MovesSafely start machine move) ∨
      ∃ op fault, machine'.store = (exec op fault machine.store).2 ∧
        (MovesSafely start machine move ↔ DropsSafely start op fault machine.store) := by
  rcases Script.step_cases h with ⟨hstore, hmove⟩ | ⟨op, next, fault, hrunning, rfl, rfl⟩
  · refine .inl ⟨hstore, ?_⟩
    unfold MovesSafely Script.OnAnswers
    split
    · exact absurd rfl (hmove _)
    · trivial
  · refine .inr ⟨op, fault, rfl, ?_⟩
    unfold MovesSafely Script.OnAnswers
    rw [hrunning]

theorem OldLocations.step {fuel : ℕ} (start : Database key) (machine : UpgradeMachine key) (move : UpgradeMove)
    (machine' : UpgradeMachine key) (hold : OldLocations start machine.store)
    (hstep : upgradeStep fuel machine move = some machine') : OldLocations start machine'.store := by
  rcases upgradeStep_cases hstep start with ⟨hstore, -⟩ | ⟨op, fault, hstore, -⟩
  · rw [hstore]
    exact hold
  · rw [hstore]
    exact hold.exec op fault

theorem kept_step_iff {fuel : ℕ} (start : Database key) (machine : UpgradeMachine key) (move : UpgradeMove)
    (machine' : UpgradeMachine key) (hold : OldLocations start machine.store) (hkept : Kept start machine.store)
    (hstep : upgradeStep fuel machine move = some machine') :
    Kept start machine'.store ↔ MovesSafely start machine move := by
  rcases upgradeStep_cases hstep start with ⟨hstore, hsafe⟩ | ⟨op, fault, hstore, hsafe⟩
  · rw [hstore]
    exact iff_of_true hkept hsafe
  · rw [hstore, hsafe]
    exact kept_exec_iff hold hkept op fault

omit [DecidableEq Id] in
theorem OldLocations.refl (start : Database key) : OldLocations start start := ⟨fun _ h => h, .inl rfl⟩

omit [DecidableEq Id] in
theorem Kept.refl (start : Database key) : Kept start start := ⟨fun _ h => h, fun _ h => .inl h⟩

theorem documentsKept_iff (fuel : ℕ) {start : Database key} {moves : List UpgradeMove} {last : UpgradeMachine key}
    (hrun : run (upgradeStep fuel) ⟨start, none⟩ moves = some last) :
    DocumentsKept fuel start moves ↔ Meets (upgradeStep fuel) (MovesSafely start) ⟨start, none⟩ moves :=
  run_invariant_iff (OldLocations.step start) (kept_step_iff start) (OldLocations.refl start) (Kept.refl start) hrun

def sampleDatabase : Database (id : String → String) where
  litmusProject := ⟨["project"], by decide⟩
  litmusUser := .empty
  authProject := .empty
  authUsers := none
  authUsercredentials := some ⟨["admin"], by decide⟩
  workflowName := none
  version := some (.text "2.3.0")

/-- The driver loses its connection at the insertion and gets it back. -/
def insertFails : List UpgradeMove :=
  [.start "2.4.0", .answer none, .answer none, .answer none, .answer (some ⟨0, "connection closed"⟩), .answer none]

/-- All goes well up to the version, which is not stored; the upgrade is started again. -/
def upgradedTwice : List UpgradeMove :=
  [.start "2.4.0", .answer none, .answer none, .answer none, .answer none, .answer none, .answer none, .answer none,
    .answer none, .answer (some ⟨0, "connection closed"⟩), .stop,
    .start "2.4.0", .answer none, .answer none, .answer none, .answer none, .answer none, .answer none, .answer none]

theorem documentsKept_iff_insertFails :
    DocumentsKept 13 sampleDatabase (insertFails ++ [.stop]) ↔
      Meets (upgradeStep 13) (MovesSafely sampleDatabase) ⟨sampleDatabase, none⟩ (insertFails ++ [.stop]) :=
  @documentsKept_iff _ _ _ _ 13 sampleDatabase (insertFails ++ [.stop])
    ⟨{ sampleDatabase with litmusProject := .empty }, none⟩ rfl

/-- A project is lost in the first case, the credentials in the second. -/
theorem not_documentsKept :
    ¬ DocumentsKept 13 sampleDatabase insertFails ∧ ¬ DocumentsKept 13 sampleDatabase upgradedTwice := by
  refine ⟨fun h => ?_, fun h => ?_⟩
  · have hkept := h insertFails _ (List.prefix_refl _) rfl
    exact absurd (hkept.projects "project" (.inl (by decide))) (by decide)
  · have hkept := h upgradedTwice _ (List.prefix_refl _) rfl
    exact absurd (hkept.credentials "admin" (by decide)) (by decide)

/-! ### The first run -/

section FirstRun

variable {start db : Database key}

/-- The credentials are still in their old collection, and no project has an `_id` that is taken in
the new one. -/
structure Fresh (db : Database key) : Prop where
  credentials : db.authUsercredentials.isSome
  projects : ∀ doc ∈ db.litmusProject.docs, key doc ∉ db.authProject.docs.map key

/-- The projects are read and inserted without a fault. -/
def CopiesProjects (op : Op Doc) (fault : Option Fault) (_ : Database key) : Prop :=
  match op with
  | .findProjects | .allProjects | .insertProjects _ => fault = none
  | _ => True

theorem insertMany_of_free {docs : List Doc} {coll : Documents key} (hnodup : (docs.map key).Nodup)
    (hfree : ∀ doc ∈ docs, key doc ∉ coll.docs.map key) : (insertMany none docs coll).1 = none := by
  induction docs generalizing coll with
  | nil => rfl
  | cons doc docs ih =>
      rw [List.map_cons, List.nodup_cons] at hnodup
      have hdoc := hfree doc List.mem_cons_self
      rw [insertMany, if_neg hdoc]
      refine ih hnodup.2 fun doc' hdoc' => ?_
      rw [Documents.docs_add_of_notMem coll hdoc, List.map_append, List.mem_append, not_or]
      refine ⟨hfree doc' (List.mem_cons_of_mem _ hdoc'), fun hsame => hnodup.1 ?_⟩
      rw [← List.mem_singleton.mp hsame]
      exact List.mem_map_of_mem hdoc'

theorem mem_authProject_of_insert (hfresh : Fresh db) {doc : Doc} (hdoc : doc ∈ db.litmusProject.docs) :
    doc ∈ (exec (.insertProjects db.litmusProject.docs) none db).2.authProject.docs := by
  have hinsert := mem_insertMany_of_nil (insertMany_of_free db.litmusProject.unique hfresh.projects) hdoc
  cases hdocs : db.litmusProject.docs with
  | nil =>
      rw [hdocs] at hdoc
      cases hdoc
  | cons first rest =>
      rw [hdocs] at hinsert
      exact hinsert

theorem exec_insertProjects (docs : List Doc) (fault : Option Fault) (db : Database key) :
    (exec (.insertProjects docs) fault db).2.litmusProject = db.litmusProject ∧
      (exec (.insertProjects docs) fault db).2.authUsercredentials = db.authUsercredentials := by
  cases docs with
  | nil => exact ⟨rfl, rfl⟩
  | cons doc docs => exact ⟨rfl, rfl⟩

theorem exec_drop (coll : CollectionName) (fault : Option Fault) (db : Database key) :
    (exec (.drop coll) fault db).2.authUsercredentials = db.authUsercredentials := by
  rw [exec]
  rcases change_cases fault (·.drop coll) db with ⟨hsame, -⟩ | hdone
  · rw [hsame]
  · rw [hdone]
    cases coll <;> rfl

/-- The order of the calls is what makes it safe: insert, then drop, and rename last. -/
theorem safe_upgradeAuthDb (hfresh : Fresh db) :
    (@upgradeAuthDb Doc).Safe exec CopiesProjects (DropsSafely start) (fun _ _ => True) db := by
  intro fault hfind
  obtain rfl : fault = none := hfind
  refine ⟨trivial, fun fault hall => ⟨trivial, ?_⟩⟩
  obtain rfl : fault = none := hall
  intro fault hinsert
  obtain rfl : fault = none := hinsert
  refine ⟨trivial, fun fault _ => ⟨fun _ doc hdoc => ?_, ?_⟩⟩
  · rw [(exec_insertProjects _ _ _).1] at hdoc
    exact mem_authProject_of_insert hfresh hdoc
  -- the credentials stay where they are up to the renaming
  refine fun fault _ => ⟨trivial, fun fault _ => ⟨fun _ => .inl ?_, fun fault _ => ⟨trivial, ?_⟩⟩⟩
  · rw [exec_drop, exec_drop, (exec_insertProjects _ _ _).2]
    exact hfresh.credentials
  · change Script.Safe _ _ _ _ (if _ then _ else _) _
    split_ifs <;> trivial

theorem safe_run (manager : VersionManager) (h : manager = .v2_4_0 → Fresh db) :
    (@VersionManager.run Doc manager).Safe exec CopiesProjects (DropsSafely start) (fun _ _ => True) db := by
  cases manager with
  | v2_4_0 =>
      refine Script.Safe.bind (safe_upgradeAuthDb (h rfl)) fun err db' _ => ?_
      split_ifs <;> trivial
  | v2_6_0 =>
      refine fun fault _ => ⟨trivial, fun fault _ => ⟨trivial, ?_⟩⟩
      change Script.Safe _ _ _ _ (if _ then _ else _) _
      split_ifs <;> trivial

/-- `VersionManager` 2.4.0 is run at the start of the path or not at all. -/
theorem safe_walk (target : String) (fuel : ℕ) {version : String} (h : version = "2.3.0" → Fresh db) :
    ((UpgradeManager.walk target fuel version).interpret UpgradeCall.script).Safe exec CopiesProjects
      (DropsSafely start) (fun _ _ => True) db := by
  induction fuel generalizing version db with
  | zero => trivial
  | succ fuel ih =>
      have hrest : ∀ db : Database key,
          ((UpgradeManager.walk target fuel (nextVersion version)).interpret UpgradeCall.script).Safe exec
            CopiesProjects (DropsSafely start) (fun _ _ => True) db :=
        fun db => ih fun hfirst => absurd hfirst (nextVersion_ne_first version)
      rw [UpgradeManager.walk]
      split_ifs with htarget
      · trivial
      · cases hmanager : (executor version).versionManager with
        | none => exact hrest db
        | some manager =>
            have hfresh : manager = .v2_4_0 → Fresh db := by
              rintro rfl
              exact h (eq_first_of_manager hmanager)
            refine Script.Safe.bind (safe_run manager hfresh) fun reply db' _ => ?_
            cases reply with
            | none => exact hrest db'
            | some err => trivial

theorem safe_upgrade (fuel : ℕ) (m : UpgradeManager) (hfresh : Fresh db) :
    ((m.run fuel).interpret UpgradeCall.script).Safe exec CopiesProjects (DropsSafely start) (fun _ _ => True) db := by
  rw [UpgradeManager.run]
  rcases m.verifyPath fuel with _ | _ | err
  · trivial
  · change Script.Safe _ _ _ _ ((Script.bind _ _).interpret _) db
    rw [Script.interpret_bind]
    refine Script.Safe.bind (safe_walk m.targetVersion fuel fun _ => hfresh) fun reply db' _ => ?_
    cases reply with
    | some err => trivial
    | none =>
        intro fault _
        refine ⟨trivial, ?_⟩
        rcases (exec (Op.updateVersion m.targetVersion) fault db').1 with _ | err <;> trivial
  · trivial

theorem safe_newUpgradeManager (currentVersion : String) (hfresh : Fresh db) :
    ((newUpgradeManager currentVersion).interpret UpgradeCall.script).Safe exec CopiesProjects (DropsSafely start)
      (fun _ db => Fresh db) db := by
  rw [newUpgradeManager]
  split_ifs with hempty
  · exact hfresh
  · intro fault _
    refine ⟨trivial, ?_⟩
    rcases (@exec _ _ _ key Op.findVersion fault db).1 with err | config
    · exact hfresh
    · cases config with
      | null => exact hfresh
      | other => trivial
      | text value =>
          change Script.Safe _ _ _ _ (Script.interpret _ (if _ then _ else _)) db
          split_ifs <;> exact hfresh

theorem safe_main (fuel : ℕ) (currentVersion : String) (hfresh : Fresh db) :
    ((main fuel currentVersion).interpret UpgradeCall.script).Safe exec CopiesProjects (DropsSafely start)
      (fun _ _ => True) db := by
  change Script.Safe _ _ _ _ ((Script.bind _ _).interpret _) db
  rw [Script.interpret_bind]
  refine Script.Safe.bind (safe_newUpgradeManager currentVersion hfresh) fun reply db' hfresh' => ?_
  rcases reply with err | _ | m
  · trivial
  · trivial
  · change Script.Safe _ _ _ _ ((Script.bind _ _).interpret _) db'
    rw [Script.interpret_bind]
    refine Script.Safe.bind (safe_upgrade fuel m hfresh') fun reply db'' _ => ?_
    cases reply <;> trivial

/-- A first run that copies the projects loses nothing, wherever else it fails or is stopped. -/
theorem documentsKept_firstRun (fuel : ℕ) {currentVersion : String} {moves : List UpgradeMove}
    {last : UpgradeMachine key} (hfresh : Fresh start) (hmoves : ∀ version, .start version ∉ moves)
    (hcopies : Meets (upgradeStep fuel) (Script.OnAnswers CopiesProjects) ⟨start, none⟩
      (.start currentVersion :: moves))
    (hrun : run (upgradeStep fuel) ⟨start, none⟩ (.start currentVersion :: moves) = some last) :
    DocumentsKept fuel start (.start currentVersion :: moves) := by
  have hsafe : ∀ script ∈ some ((main fuel currentVersion).interpret (@UpgradeCall.script Doc)),
      script.Safe exec CopiesProjects (DropsSafely start) (fun _ _ => True) start := by
    intro script hscript
    obtain rfl := Option.some.inj hscript
    exact safe_main fuel currentVersion hfresh
  have hmeets : Meets (upgradeStep fuel) (MovesSafely start) ⟨start, none⟩ (.start currentVersion :: moves) :=
    ⟨trivial, Script.meets_of_safe hsafe hmoves hcopies.2⟩
  exact (run_invariant_iff (OldLocations.step start) (kept_step_iff start) (OldLocations.refl start)
    (Kept.refl start) hrun).mpr hmeets

end FirstRun

end LitmusPortal.Upgrade
