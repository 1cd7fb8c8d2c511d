import LitmusPortal.Upgrade.Path

/-!
# One run of the upgrade manager

The managers on the path are run in its order, up to the first one that reports an error, and the
version is stored after all of them have reported none. What a manager reports is less than what it
has seen: `v2_6_0` never reports an error, and `v2_4_0` those of its last two calls.
-/

namespace LitmusPortal.Upgrade

open Script

variable {Doc Id : Type} [DecidableEq Id] {key : Doc → Id}

abbrev UpgradeSession (key : Doc → Id) := Session (Op Doc) Op.Reply (Option Fault) (Database key)

/-- The calls of the upgrade manager, carried out against a database under faults. -/
def execUpgrade : (call : UpgradeCall) → UpgradeSession key → Except Stop call.Reply × UpgradeSession key :=
  execBy UpgradeCall.script (serve exec)

/-- A run from a database, with the faults its calls to the database meet. -/
def playRun (fuel : ℕ) (m : UpgradeManager) (faults : ℕ → Option Fault) (db : Database key) :
    Played UpgradeCall UpgradeCall.Reply Stop (Option String) (UpgradeSession key) :=
  (m.run fuel).play execUpgrade ⟨faults, db, []⟩

/-- What `Run` of a manager has come to: an error or `nil`, or a panic. -/
abbrev Outcome := Except Stop (Option String)

/-- The managers that were run, with what each has come to. -/
def reports (calls : List ((call : UpgradeCall) × Except Stop call.Reply)) : List (VersionManager × Outcome) :=
  calls.filterMap fun
    | ⟨.run manager, outcome⟩ => some (manager, outcome)
    | _ => none

/-- The managers are run one after the other, each once, up to the first that does not end well. -/
inductive RunInOrder : List VersionManager → List (VersionManager × Outcome) → Prop where
  | done : RunInOrder [] []
  | failed {manager : VersionManager} {managers : List VersionManager} {outcome : Outcome}
      (h : outcome ≠ .ok none) : RunInOrder (manager :: managers) [(manager, outcome)]
  | next {manager : VersionManager} {managers : List VersionManager} {reports : List (VersionManager × Outcome)}
      (h : RunInOrder managers reports) : RunInOrder (manager :: managers) ((manager, .ok none) :: reports)

def allSucceed (managers : List VersionManager) : List (VersionManager × Outcome) :=
  managers.map fun manager => (manager, .ok none)

/-! ### The walk -/

section Walk

variable {σ : Type} {exec : (call : UpgradeCall) → σ → Except Stop call.Reply × σ} {target version : String}
  {fuel : ℕ} {s s' : σ}

theorem play_walk_here : (UpgradeManager.walk target (fuel + 1) target).play exec s = ⟨.ok none, s, []⟩ := by
  rw [UpgradeManager.walk, if_pos rfl]
  rfl

theorem walk_of_none (hne : version ≠ target) (h : (executor version).versionManager = none) :
    UpgradeManager.walk target (fuel + 1) version = UpgradeManager.walk target fuel (nextVersion version) := by
  rw [UpgradeManager.walk, if_neg hne, h]

theorem walk_of_some (hne : version ≠ target) {manager : VersionManager}
    (h : (executor version).versionManager = some manager) :
    UpgradeManager.walk target (fuel + 1) version =
      .call (.run manager) fun reply =>
        match (reply : Option String) with
        | some err => .done (some ("failed to upgrade to version " ++ version ++ ", error : " ++ err))
        | none => UpgradeManager.walk target fuel (nextVersion version) := by
  rw [UpgradeManager.walk, if_neg hne, h]
  refine congrArg (Script.call (UpgradeCall.run manager)) (funext fun reply => ?_)
  cases reply <;> rfl

/-- What the walk over a path does, whatever the managers come to. `kept` is what a manager that ends
well keeps, `inv` what every one keeps. -/
structure WalkSpec (exec : (call : UpgradeCall) → σ → Except Stop call.Reply × σ) (kept inv : σ → Prop)
    (managers : List VersionManager) (s : σ) (played : Played UpgradeCall UpgradeCall.Reply Stop (Option String) σ) :
    Prop where
  order : RunInOrder managers (reports played.calls)
  succeed : played.result = .ok none → reports played.calls = allSucceed managers
  kept : played.result = .ok none → kept s → kept played.store
  inv : inv s → inv played.store
  ends : played.result ≠ .error .outOfFuel

theorem walk_spec {kept inv : σ → Prop} (hends : ∀ manager s, (exec (.run manager) s).1 ≠ .error .outOfFuel)
    (hkept : ∀ manager s, (exec (.run manager) s).1 = .ok none → kept s → kept (exec (.run manager) s).2)
    (hinv : ∀ manager s, inv s → inv (exec (.run manager) s).2)
    {versions : List String} (hleads : Leads target version versions) (hfuel : versions.length < fuel) (s : σ) :
    WalkSpec exec kept inv (managersOf versions) s ((UpgradeManager.walk target fuel version).play exec s) := by
  induction hleads generalizing fuel s with
  | here =>
      obtain ⟨fuel, rfl⟩ := Nat.exists_eq_succ_of_ne_zero (Nat.ne_of_gt hfuel)
      rw [play_walk_here]
      exact ⟨.done, fun _ => rfl, fun _ h => h, id, fun h => by cases h⟩
  | @next version versions hne hempty hleads ih =>
      obtain ⟨fuel, rfl⟩ := Nat.exists_eq_succ_of_ne_zero (Nat.ne_of_gt (Nat.zero_lt_of_lt hfuel))
      have hrest : versions.length < fuel := Nat.lt_of_succ_lt_succ hfuel
      cases hmanager : (executor version).versionManager with
      | none =>
          have hmanagers : managersOf (version :: versions) = managersOf versions := by
            rw [managersOf, List.filterMap_cons, hmanager]
            rfl
          rw [walk_of_none hne hmanager, hmanagers]
          exact ih hrest s
      | some manager =>
          have hmanagers : managersOf (version :: versions) = manager :: managersOf versions := by
            rw [managersOf, List.filterMap_cons, hmanager]
            rfl
          have hmanagerEnds := hends manager s
          have hmanagerKept := hkept manager s
          have hmanagerInv := hinv manager s
          rw [walk_of_some hne hmanager, hmanagers]
          rcases hcall : exec (.run manager) s with ⟨err | reply, s'⟩
          · rw [hcall] at hmanagerEnds hmanagerInv
            rw [play_call_of_error hcall]
            refine ⟨.failed fun h => ?_, fun h => ?_, fun h => ?_, hmanagerInv, fun h => ?_⟩
            · cases h
            · cases h
            · cases h
            · exact hmanagerEnds (by rw [Except.error.inj h])
          · rw [hcall] at hmanagerKept hmanagerInv
            rw [play_call_of_ok hcall]
            cases reply with
            | some err =>
                refine ⟨.failed fun h => ?_, fun h => ?_, fun h => ?_, hmanagerInv, fun h => ?_⟩ <;> cases h
            | none =>
                obtain ⟨horder, hsucceed, hkeptRest, hinvRest, hendsRest⟩ := ih hrest s'
                refine ⟨.next horder, fun h => ?_, fun h hs => ?_, fun h => hinvRest (hmanagerInv h), hendsRest⟩
                · exact congrArg (List.cons (manager, .ok none)) (hsucceed h)
                · exact hkeptRest h (hmanagerKept rfl hs)

end Walk

/-! ### The managers -/

section Managers

variable {db : Database key} {session : UpgradeSession key}

def LeavesVersion (op : Op Doc) : Prop := ∀ version, op ≠ .updateVersion version

theorem version_exec {op : Op Doc} (h : LeavesVersion op) (fault : Option Fault) (db : Database key) :
    (exec op fault db).2.version = db.version := by
  have hchange : ∀ f : Database key → Database key, (f db).version = db.version →
      (change fault f db).2.version = db.version := by
    intro f hf
    rcases change_cases fault f db with ⟨hsame, -⟩ | hdone
    · rw [hsame]
    · rw [hdone, hf]
  cases op with
  | findVersion => rfl
  | findProjects => rfl
  | allProjects => rfl
  | insertProjects docs => cases docs <;> rfl
  | drop coll => exact hchange _ (by cases coll <;> rfl)
  | renameUsercredentials =>
      rw [exec]
      split
      · rfl
      · rfl
      · exact hchange _ rfl
  | dropWorkflowName =>
      rw [exec]
      split
      · rfl
      · exact hchange _ rfl
  | createWorkflowName =>
      rw [exec]
      split
      · rfl
      · exact hchange _ rfl
  | updateVersion version => exact absurd rfl (h version)

theorem within_run (manager : VersionManager) :
    (@VersionManager.run Doc manager).Within LeavesVersion (· ≠ .outOfFuel) := by
  cases manager with
  | v2_4_0 =>
      refine Within.bind ⟨nofun, fun findErr => ?_⟩ fun err => ?_
      · change Within _ _ (if _ then _ else _)
        split_ifs with hfind
        · exact nofun
        · refine ⟨nofun, fun _ => ⟨nofun, fun _ => ⟨nofun, fun _ => ⟨nofun, fun _ => ⟨nofun, fun err => ⟨nofun, ?_⟩⟩⟩⟩⟩⟩
          intro res
          change Within _ _ (if _ then _ else _)
          split_ifs <;> trivial
      · split_ifs <;> trivial
  | v2_6_0 =>
      refine ⟨nofun, fun _ => ⟨nofun, fun err => ?_⟩⟩
      change Within _ _ (if _ then _ else _)
      split_ifs <;> trivial

/-- The error of a call, if it is one whose errors a manager returns. -/
def reportedError : ((op : Op Doc) × op.Reply) → Option String
  | ⟨.drop .authUsers, err⟩ | ⟨.renameUsercredentials, err⟩ => err
  | _ => none

def NoErrorReported (session : UpgradeSession key) : Prop := ∀ answer ∈ session.answers, reportedError answer = none

theorem noErrorReported_after_iff {op : Op Doc} :
    NoErrorReported (session.after exec op) ↔
      NoErrorReported session ∧ reportedError ⟨op, (exec op (session.faults 0) session.store).1⟩ = none := by
  rw [NoErrorReported, Session.after, List.forall_mem_append, List.forall_mem_singleton]
  rfl

theorem after_of_silent {op : Op Doc} (hop : ∀ reply, reportedError ⟨op, reply⟩ = none) (h : NoErrorReported session) :
    NoErrorReported (session.after exec op) := noErrorReported_after_iff.mpr ⟨h, hop _⟩

theorem noErrorReported_run (manager : VersionManager) (h : NoErrorReported session) :
    (@VersionManager.run Doc manager).Ensures exec
      (fun result after => result = .ok none → NoErrorReported after) session := by
  cases manager with
  | v2_4_0 =>
      apply Ensures.call
      change Ensures _ _ (Script.bind (if _ then _ else _) _) _
      split_ifs with hfind
      · exact Ensures.halt nofun
      · refine Ensures.call (Ensures.call (Ensures.call (Ensures.call (Ensures.call (Ensures.call ?_)))))
        change Ensures _ _ (Script.bind (if _ then _ else _) _) _
        split_ifs with hres
        · change Ensures _ _ (if _ then _ else _) _
          rw [if_pos hres]
          exact Ensures.done fun hnone => by simp [Except.ok.inj hnone] at hres
        · change Ensures _ _ (if _ then _ else _) _
          split_ifs with herr
          · exact Ensures.done fun hnone => by simp [Except.ok.inj hnone] at herr
          · refine Ensures.done fun _ => noErrorReported_after_iff.mpr ⟨?_, Option.not_isSome_iff_eq_none.mp hres⟩
            refine noErrorReported_after_iff.mpr ⟨?_, Option.not_isSome_iff_eq_none.mp herr⟩
            iterate 5 apply after_of_silent fun _ => rfl
            exact h
  | v2_6_0 =>
      refine Ensures.call (Ensures.call ?_)
      change Ensures _ _ (if _ then _ else _) _
      have hafter : NoErrorReported ((session.after exec .dropWorkflowName).after exec .createWorkflowName) :=
        after_of_silent (fun _ => rfl) (after_of_silent (fun _ => rfl) h)
      split_ifs
      · exact Ensures.done fun _ => hafter
      · exact Ensures.done fun _ => hafter

end Managers

/-! ### A run -/

section Run

variable {fuel : ℕ} {m : UpgradeManager} {faults : ℕ → Option Fault} {db : Database key}

theorem walk_execUpgrade {versions : List String} (hleads : Leads m.targetVersion m.previousVersion versions)
    (hfuel : getUpgradePath.length + 2 ≤ fuel) (session : UpgradeSession key) :
    WalkSpec execUpgrade NoErrorReported (fun after => after.store.version = session.store.version)
      (managersOf versions) session
      ((UpgradeManager.walk m.targetVersion fuel m.previousVersion).play execUpgrade session) := by
  have hserve : ∀ (op : Op Doc) (s : UpgradeSession key), LeavesVersion op → ∀ err : Stop,
      (serve exec op s).1 = .error err → err ≠ .outOfFuel := by
    intro op s _ err herr
    rw [serve_eq] at herr
    cases herr
  have hversion : ∀ (op : Op Doc) (s : UpgradeSession key), LeavesVersion op →
      s.store.version = session.store.version →
      (serve exec op s : Except Stop op.Reply × UpgradeSession key).2.store.version = session.store.version :=
    fun op s hop hs => (version_exec hop (s.faults 0) s.store).trans hs
  have hlength := hleads.length_le
  refine walk_spec (fun manager s h => ?_) (fun manager s h hs => ?_) (fun manager s hs => ?_) hleads (by omega) session
  · exact (within_run manager).play_result hserve h rfl
  · exact noErrorReported_run manager hs h
  · exact (within_run manager).play_store hversion hs

/-- What a run does, whatever its calls come to. The managers on the path are run in its order, each
once, up to the first that fails, and the version is stored when all have succeeded. -/
structure RunsThePath (fuel : ℕ) (m : UpgradeManager) (faults : ℕ → Option Fault) (db : Database key) : Prop where
  verifyPath_ends : (m.verifyPath fuel).isSome
  run_ends : (playRun fuel m faults db).result ≠ .error .outOfFuel
  inOrder : ∀ versions, Leads m.targetVersion m.previousVersion versions →
    RunInOrder (managersOf versions) (reports (playRun fuel m faults db).calls)
  noPath : (¬ ∃ versions, Leads m.targetVersion m.previousVersion versions) →
    reports (playRun fuel m faults db).calls = []
  version : (playRun fuel m faults db).store.store.version ≠ db.version →
    (playRun fuel m faults db).store.store.version = some (.text m.targetVersion) ∧
      NoErrorReported (playRun fuel m faults db).store ∧
      ∃ versions, Leads m.targetVersion m.previousVersion versions ∧
        reports (playRun fuel m faults db).calls = allSucceed (managersOf versions)

theorem run_of_verifyPath_error {err : String} (h : m.verifyPath fuel = some (some err)) :
    m.run fuel = .done (some err) := by
  rw [UpgradeManager.run, h]
  rfl

/-- What `Run` does after its loop. -/
def afterWalk (target : String) : Option String → UpgradeScript (Option String)
  | some err => .done (some err)
  | none => .call (.updateVersion target) fun reply =>
      match (reply : Option String) with
      | some err => .done (some ("failed to update version in server config collection, error=" ++ err))
      | none => .done none

theorem run_of_verifyPath (h : m.verifyPath fuel = some none) :
    m.run fuel = (UpgradeManager.walk m.targetVersion fuel m.previousVersion).bind (afterWalk m.targetVersion) := by
  rw [UpgradeManager.run, h]
  refine congrArg (Script.bind _) (funext fun reply => ?_)
  cases reply with
  | some err => rfl
  | none =>
      refine congrArg (Script.call (UpgradeCall.updateVersion m.targetVersion)) (funext fun reply => ?_)
      cases reply <;> rfl

theorem version_updateVersion (target : String) (fault : Option Fault) (db : Database key) :
    (exec (.updateVersion target) fault db).2.version ≠ db.version →
      (exec (.updateVersion target) fault db).2.version = some (.text target) := by
  intro h
  rcases change_cases fault (fun db => { db with version := db.version.map fun _ => .text target }) db
    with ⟨hsame, -⟩ | hdone
  · exact absurd (congrArg Database.version hsame) h
  · have hversion : (exec (.updateVersion target) fault db).2.version = db.version.map fun _ => .text target :=
      congrArg Database.version hdone
    rw [hversion] at h ⊢
    cases hstored : db.version with
    | none => exact absurd (by rw [hstored]; rfl) h
    | some value => rfl

theorem play_afterWalk (target : String) (session : UpgradeSession key) :
    ∃ result reply, (afterWalk target none).play execUpgrade session =
      ⟨.ok result, session.after exec (.updateVersion target), [⟨.updateVersion target, .ok reply⟩]⟩ := by
  have hcall : execUpgrade (.updateVersion target) session =
      (.ok (exec (.updateVersion target) (session.faults 0) session.store).1,
        session.after exec (.updateVersion target)) := rfl
  rw [afterWalk, play_call_of_ok hcall]
  cases (exec (.updateVersion target) (session.faults 0) session.store).1 with
  | none => exact ⟨none, none, rfl⟩
  | some err => exact ⟨_, some err, rfl⟩

theorem runsThePath_of_walk (hverify : (m.verifyPath fuel).isSome) {versions : List String}
    (hleads : Leads m.targetVersion m.previousVersion versions)
    {played : Played UpgradeCall UpgradeCall.Reply Stop (Option String) (UpgradeSession key)}
    (hwalk : WalkSpec execUpgrade NoErrorReported (fun after => after.store.version = db.version)
      (managersOf versions) ⟨faults, db, []⟩ played)
    (hplay : playRun fuel m faults db = played) : RunsThePath fuel m faults db := by
  refine ⟨hverify, ?_, fun versions' hleads' => ?_, fun hnone => absurd ⟨versions, hleads⟩ hnone, fun h => ?_⟩
  · rw [hplay]
    exact hwalk.ends
  · rw [hplay, hleads'.unique hleads]
    exact hwalk.order
  · rw [hplay] at h
    exact absurd (hwalk.inv rfl) h

theorem runsThePath_of_succeeds (hverify : (m.verifyPath fuel).isSome) {versions : List String}
    (hleads : Leads m.targetVersion m.previousVersion versions)
    {walked : Played UpgradeCall UpgradeCall.Reply Stop (Option String) (UpgradeSession key)}
    (hwalk : WalkSpec execUpgrade NoErrorReported (fun after => after.store.version = db.version)
      (managersOf versions) ⟨faults, db, []⟩ walked)
    (hresult : walked.result = .ok none)
    (hplay : playRun fuel m faults db =
      { (afterWalk m.targetVersion none).play execUpgrade walked.store with
        calls := walked.calls ++ ((afterWalk m.targetVersion none).play execUpgrade walked.store).calls }) :
    RunsThePath fuel m faults db := by
  obtain ⟨result, reply, hupdate⟩ := play_afterWalk m.targetVersion walked.store
  rw [hupdate] at hplay
  have hreports : reports (playRun fuel m faults db).calls = reports walked.calls := by
    rw [hplay, reports, List.filterMap_append]
    exact List.append_nil _
  have hstore : (playRun fuel m faults db).store = walked.store.after exec (.updateVersion m.targetVersion) := by
    rw [hplay]
  have hversion : walked.store.store.version = db.version := hwalk.inv rfl
  have hsilent : NoErrorReported walked.store := hwalk.kept hresult fun _ h => absurd h List.not_mem_nil
  refine ⟨hverify, ?_, fun versions' hleads' => ?_, fun hnone => absurd ⟨versions, hleads⟩ hnone, fun h => ?_⟩
  · rw [hplay]
    exact nofun
  · rw [hreports, hleads'.unique hleads]
    exact hwalk.order
  · rw [hstore] at h ⊢
    refine ⟨version_updateVersion _ _ _ (hversion ▸ h), after_of_silent (fun _ => rfl) hsilent, versions, hleads, ?_⟩
    rw [hreports]
    exact hwalk.succeed hresult

theorem runsThePath (hfuel : getUpgradePath.length + 2 ≤ fuel) (m : UpgradeManager) (faults : ℕ → Option Fault)
    (db : Database key) : RunsThePath fuel m faults db := by
  have hverify := @verifyPath_isSome m fuel hfuel
  rcases hcase : m.verifyPath fuel with _ | _ | err
  · rw [hcase] at hverify
    cases hverify
  · obtain ⟨versions, hleads⟩ := leads_of_verifyPath hfuel hcase
    have hwalk := @walk_execUpgrade _ _ _ key fuel m versions hleads hfuel ⟨faults, db, []⟩
    have hrun : playRun fuel m faults db = ((UpgradeManager.walk m.targetVersion fuel m.previousVersion).bind
        (afterWalk m.targetVersion)).play execUpgrade ⟨faults, db, []⟩ := by
      rw [playRun, run_of_verifyPath hcase]
    rcases hresult : ((UpgradeManager.walk m.targetVersion fuel m.previousVersion).play execUpgrade
      (⟨faults, db, []⟩ : UpgradeSession key)).result with err | _ | err
    · refine runsThePath_of_walk hverify hleads hwalk ?_
      rw [hrun, play_bind_of_error hresult, ← hresult]
    · refine runsThePath_of_succeeds hverify hleads hwalk hresult ?_
      rw [hrun, play_bind_of_ok hresult]
    · refine runsThePath_of_walk hverify hleads hwalk ?_
      rw [hrun, play_bind_of_ok hresult]
      simp only [afterWalk, play, List.append_nil, ← hresult]
  · have hplay : playRun fuel m faults db = ⟨.ok (some err), ⟨faults, db, []⟩, []⟩ := by
      rw [playRun, run_of_verifyPath_error hcase]
      rfl
    refine ⟨hverify, ?_, fun versions hleads => ?_, fun _ => ?_, fun h => ?_⟩
    · rw [hplay]
      exact fun h => by cases h
    · rw [hplay, managersOf_of_verifyPath hfuel hcase hleads]
      exact .done
    · rw [hplay]
      rfl
    · rw [hplay] at h
      exact absurd rfl h

end Run

/-! ### Runs that fail -/

/-- The error of a call that changes the schema. -/
def schemaError : ((op : Op Doc) × op.Reply) → Option String
  | ⟨.insertProjects _, err⟩ | ⟨.drop _, err⟩ | ⟨.renameUsercredentials, err⟩ | ⟨.dropWorkflowName, err⟩
  | ⟨.createWorkflowName, err⟩ => err
  | _ => none

/-- Every manager on the path is run, and none stands between the version and its schema. -/
structure EveryManagerRun (fuel : ℕ) (m : UpgradeManager) (faults : ℕ → Option Fault) (db : Database key) : Prop where
  everyManager : ∀ versions, Leads m.targetVersion m.previousVersion versions →
    (reports (playRun fuel m faults db).calls).map Prod.fst = managersOf versions
  version : (playRun fuel m faults db).store.store.version ≠ db.version →
    ∀ answer ∈ (playRun fuel m faults db).store.answers, schemaError answer = none

def faultAt (n : ℕ) : ℕ → Option Fault := fun call => if call = n then some ⟨0, "connection closed"⟩ else none

def emptyDatabase (version : String) : Database (id : String → String) where
  litmusProject := .empty
  litmusUser := .empty
  authProject := .empty
  authUsers := none
  authUsercredentials := some .empty
  workflowName := some .unique
  version := some (.text version)

theorem runsThePath_indexFails : RunsThePath 14 ⟨"2.5.0", "2.6.0"⟩ (faultAt 1) (emptyDatabase "2.5.0") :=
  runsThePath (by decide) ⟨"2.5.0", "2.6.0"⟩ (faultAt 1) (emptyDatabase "2.5.0")

/-- After a failed renaming the next manager is left out; after a failed index the version is stored. -/
theorem not_everyManagerRun :
    ¬ EveryManagerRun 14 ⟨"2.3.0", "2.6.0"⟩ (faultAt 6) (emptyDatabase "2.3.0") ∧
      ¬ EveryManagerRun 14 ⟨"2.5.0", "2.6.0"⟩ (faultAt 1) (emptyDatabase "2.5.0") := by
  refine ⟨fun h => ?_, fun h => ?_⟩
  · have hleads : Leads "2.6.0" "2.3.0" ["2.3.0", "2.4.0", "2.5.0"] :=
      .next (by decide) (by decide) (.next (by decide) (by decide) (.next (by decide) (by decide) .here))
    have hall := h.everyManager _ hleads
    exact absurd hall (by decide)
  · have hversion := h.version (by decide)
    exact absurd (hversion ⟨.createWorkflowName, some "connection closed"⟩ (.tail _ (.head _))) (by decide)

end LitmusPortal.Upgrade
