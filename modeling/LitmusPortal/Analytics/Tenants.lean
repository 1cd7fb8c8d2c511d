import LitmusPortal.Analytics.Foreign
import LitmusPortal.Lib.Transition

/-!
# Mutations by the members of one project

What a sequence of mutations leaves of other projects. A dashboard of the project that is given the
group of a panel of another project would own this panel from then on, so that the groups of a request
are part of the condition.
-/

namespace LitmusPortal.Analytics

open DocumentStore Program

/-! ## The property and the condition -/

/-- A mutation by some member of the project. -/
structure MemberCall where
  env : Env
  role : MemberRole
  mutation : Mutation

def MemberCall.apply (projectID : String) (db : Database) (call : MemberCall) : Database :=
  after call.env ⟨projectID, call.role⟩ db call.mutation

/-- A new id is not that of a group. -/
def NewGroups (env : Env) (db : Database) : Prop :=
  ∀ n, ∀ panel ∈ db.panels.docs, panel.panelGroupID ≠ some (env.uuid n)

/-- The groups that a request gives a dashboard have no panels of other projects. -/
def OwnGroups (caller : Caller) (db : Database) : Mutation → Prop
  | .updateDashboard projectID dashboard chaosQueryUpdate =>
      MayEdit caller projectID → chaosQueryUpdate = false →
        ∀ group, some group ∈ dashboard.panelGroups → group.panelGroupID ≠ "" →
          ∀ panel ∈ db.panels.docs, panel.panelGroupID = some group.panelGroupID →
            OwnPanel db caller.projectID panel
  | _ => True

structure MemberCall.KeepsToOwn (projectID : String) (db : Database) (call : MemberCall) : Prop where
  writes : Analytics.KeepsToOwn ⟨projectID, call.role⟩ db call.mutation
  groups : OwnGroups ⟨projectID, call.role⟩ db call.mutation
  newIDs : NewIDs call.env call.mutation
  newGroups : NewGroups call.env db

/-! ## Groups -/

variable {projectID : String} {start before : Database}

/-- No dashboard of the project has the group of a panel that was of another project at the start. -/
def Apart (projectID : String) (start db : Database) : Prop :=
  ∀ panel ∈ start.panels.docs, ¬ OwnPanel start projectID panel →
    ∀ dashboard ∈ db.dashboards.docs, dashboard.projectID = projectID →
      ∀ group ∈ dashboard.panelGroups, panel.panelGroupID ≠ some group.panelGroupID

theorem Apart.refl (projectID : String) (db : Database) : Apart projectID db db :=
  fun _ _ hother dashboard hdashboard hown group hgroup hid =>
    hother ⟨dashboard, hdashboard, hown, group, hgroup, hid⟩

theorem Apart.add {db : Database} (h : Apart projectID start db) {doc : DashBoard}
    (hdoc : ∀ panel ∈ start.panels.docs, ¬ OwnPanel start projectID panel → doc.projectID = projectID →
      ∀ group ∈ doc.panelGroups, panel.panelGroupID ≠ some group.panelGroupID) :
    Apart projectID start { db with dashboards := db.dashboards.add doc } := by
  intro panel hpanel hother dashboard hdashboard
  rcases Documents.docs_add db.dashboards doc with hsame | hnew
  · exact h panel hpanel hother dashboard (hsame ▸ hdashboard)
  · rw [show (db.dashboards.add doc).docs = db.dashboards.docs ++ [doc] from hnew] at hdashboard
    rcases List.mem_append.mp hdashboard with hold | hadded
    · exact h panel hpanel hother dashboard hold
    · rw [List.mem_singleton.mp hadded]
      exact hdoc panel hpanel hother

theorem Apart.update {db : Database} (h : Apart projectID start db) {query : DashBoard → Bool}
    {change : Change DashBoard.dbID}
    (hchange : ∀ doc ∈ db.dashboards.docs, (change.val doc).projectID = doc.projectID ∧
      ∀ panel ∈ start.panels.docs, ¬ OwnPanel start projectID panel → doc.projectID = projectID →
        ∀ group ∈ (change.val doc).panelGroups, panel.panelGroupID ≠ some group.panelGroupID) :
    Apart projectID start { db with dashboards := db.dashboards.update query change } := by
  intro panel hpanel hother dashboard hdashboard hown
  rcases mem_updateFirst hdashboard with hsame | ⟨old, hold, -, rfl⟩
  · exact h panel hpanel hother dashboard hsame hown
  · obtain ⟨hproject, hgroups⟩ := hchange old hold
    exact hgroups panel hpanel hother (hproject ▸ hown)

variable {env : Env} {caller : Caller}

theorem Apart.resolve {mutation : Mutation}
    (hnew : ∀ panel ∈ start.panels.docs, ¬ OwnPanel start caller.projectID panel →
      ∀ n, panel.panelGroupID ≠ some (env.uuid n))
    (hgroups : ∀ projectID dashboard chaosQueryUpdate,
      mutation = .updateDashboard projectID dashboard chaosQueryUpdate → MayEdit caller projectID →
        chaosQueryUpdate = false → ∀ group, some group ∈ dashboard.panelGroups →
          group.panelGroupID ≠ "" → ∀ panel ∈ start.panels.docs,
            ¬ OwnPanel start caller.projectID panel → panel.panelGroupID ≠ some group.panelGroupID) :
    Keeps (Apart caller.projectID start) (resolve env caller mutation) := by
  have hpanels : ∀ db panels, Apart caller.projectID start db →
      Apart caller.projectID start { db with panels := panels } := fun _ _ h => h
  -- a change that leaves the groups
  have hkept : ∀ (change : Change DashBoard.dbID) (query : DashBoard → Bool) db,
      (∀ doc, (change.val doc).projectID = doc.projectID ∧
        (change.val doc).panelGroups = doc.panelGroups) → Apart caller.projectID start db →
        Apart caller.projectID start { db with dashboards := db.dashboards.update query change } := by
    intro change query db hchange h
    refine h.update fun doc hdoc => ⟨(hchange doc).1, fun panel hpanel hother hown => ?_⟩
    rw [(hchange doc).2]
    exact h panel hpanel hother doc hdoc hown
  cases mutation with
  | createDataSource datasource =>
      refine Keeps.bind_yields (fun _ => yields_deref) fun _ _ _ _ => ?_
      refine Keeps.bind_yields (fun _ => yields_validateRole) fun _ _ _ _ => ?_
      exact Keeps.bind (Keeps.createDataSource fun _ _ _ h => h) fun _ => Keeps.pure
  | createDashBoard dashboard =>
      refine Keeps.bind_yields (fun _ => yields_validateRole) fun _ _ _ _ => ?_
      refine Keeps.bind (Keeps.createDashboard hpanels fun doc db _ _ hgroups h => ?_) fun _ => Keeps.pure
      refine h.add fun panel hpanel hother _ group hgroup => ?_
      obtain ⟨n, hn⟩ := hgroups group hgroup
      rw [hn]
      exact hnew panel hpanel hother n
  | updateDataSource datasource =>
      refine Keeps.bind_yields (fun _ => yields_deref) fun _ _ _ _ => ?_
      refine Keeps.bind_yields (fun _ => yields_validateRole) fun _ _ _ _ => ?_
      exact Keeps.updateDataSourceHandler fun _ _ _ _ _ h => h
  | updateDashboard projectID dashboard chaosQueryUpdate =>
      refine Keeps.bind_yields (fun _ => yields_validateRole) fun _ _ _ hmay => ?_
      refine Keeps.updateDashBoard hpanels (fun time db h => hkept _ _ db (fun _ => ⟨rfl, rfl⟩) h)
        fun hchaos groups hlisted time db h => ?_
      refine h.update fun doc hdoc => ⟨rfl, fun panel hpanel hother _ group hgroup => ?_⟩
      rcases hlisted group hgroup with ⟨given, hgiven, hid, hne⟩ | ⟨n, hn⟩
      · rw [hid]
        exact hgroups _ _ _ rfl hmay hchaos given hgiven hne panel hpanel hother
      · rw [hn]
        exact hnew panel hpanel hother n
  | updatePanel panels => exact Keeps.updatePanelHandler fun _ _ _ h => h
  | deleteDashboard projectID dbID =>
      refine Keeps.bind_yields (fun _ => yields_validateRole) fun _ _ _ _ => ?_
      exact Keeps.deleteDashboard hpanels fun time db h => hkept _ _ db (fun _ => ⟨rfl, rfl⟩) h
  | deleteDataSource projectID input =>
      refine Keeps.bind_yields (fun _ => yields_validateRole) fun _ _ _ _ => ?_
      exact Keeps.deleteDataSource hpanels (fun id time db h => hkept _ _ db (fun _ => ⟨rfl, rfl⟩) h)
        fun _ _ h => h

/-! ## Runs -/

/-- What is left of the other projects after each mutation. -/
structure Untouched (projectID : String) (start db : Database) : Prop where
  spares : SparesOthers projectID start db
  apart : Apart projectID start db

theorem Untouched.mem_panels {db : Database} (h : Untouched projectID start db) {panel : Panel}
    (hpanel : panel ∈ start.panels.docs) (hother : ¬ OwnPanel start projectID panel) :
    panel ∈ db.panels.docs ∧ ¬ OwnPanel db projectID panel := by
  obtain ⟨i, hi⟩ := List.mem_iff_getElem?.mp hpanel
  refine ⟨List.mem_of_getElem? (h.spares.panels i panel hi hother), ?_⟩
  rintro ⟨dashboard, hdashboard, hown, group, hgroup, hid⟩
  exact h.apart panel hpanel hother dashboard hdashboard hown group hgroup hid

theorem Untouched.step {db : Database} {call : MemberCall} (h : Untouched projectID start db)
    (hkeeps : call.KeepsToOwn projectID db) : Untouched projectID start (call.apply projectID db) := by
  have hspares := changesOwnOnly_of_keepsToOwn hkeeps.writes call.env hkeeps.newIDs
  refine ⟨⟨fun i doc hdoc hother => ?_, fun i doc hdoc hother => ?_, fun i doc hdoc hother => ?_⟩, ?_⟩
  · exact hspares.dataSources i doc (h.spares.dataSources i doc hdoc hother) hother
  · exact hspares.dashboards i doc (h.spares.dashboards i doc hdoc hother) hother
  · have hforeign := (h.mem_panels (List.mem_of_getElem? hdoc) hother).2
    exact hspares.panels i doc (h.spares.panels i doc hdoc hother) hforeign
  · refine after_of_reaches (Keeps.reaches (@Apart.resolve start _ ⟨projectID, call.role⟩ _ ?_ ?_) h.apart)
    · exact fun panel hpanel hother n => hkeeps.newGroups n panel (h.mem_panels hpanel hother).1
    · intro requestID dashboard chaosQueryUpdate hmutation hmay hchaos group hgroup hne panel hpanel hother hid
      obtain ⟨hmem, hforeign⟩ := h.mem_panels hpanel hother
      have hgroups := hkeeps.groups
      rw [hmutation] at hgroups
      exact hforeign (hgroups hmay hchaos group hgroup hne panel hmem hid)

/-- A mutation changes documents of the caller's project only, exactly when it keeps to the project; and
no sequence of such mutations changes a document that was of another project at its start. -/
theorem changesOwnOnly_iff_keepsToOwn (caller : Caller) (db : Database) (mutation : Mutation) :
    (ChangesOwnOnly caller db mutation ↔ KeepsToOwn caller db mutation) ∧
      ∀ calls : List MemberCall,
        (∀ front call back, calls = front ++ call :: back →
          call.KeepsToOwn caller.projectID (front.foldl (MemberCall.apply caller.projectID) db)) →
        ∀ front back, calls = front ++ back →
          SparesOthers caller.projectID db (front.foldl (MemberCall.apply caller.projectID) db) := by
  refine ⟨⟨keepsToOwn_of_changesOwnOnly, changesOwnOnly_of_keepsToOwn⟩, fun calls hkeeps front back hcalls => ?_⟩
  have hrun := @Transition.foldl_invariant _ _ (MemberCall.apply caller.projectID)
    (Untouched caller.projectID db) (fun db call => call.KeepsToOwn caller.projectID db) calls db
    (fun _ _ h => h.step) ⟨SparesOthers.refl caller.projectID db, Apart.refl caller.projectID db⟩
    hkeeps front back hcalls
  exact hrun.spares

/-! ## A panel of another project -/

def sampleDashboard (projectID dbID panelGroupID : String) : DashBoard :=
  { dbID := dbID
    dsID := some "ds"
    dbName := some "db"
    dbTypeID := none
    dbTypeName := none
    dbInformation := none
    chaosEventQueryTemplate := none
    chaosVerdictQueryTemplate := none
    applicationMetadataMap := []
    createdAt := "1"
    updatedAt := "1"
    clusterID := some "cluster"
    projectID := projectID
    endTime := none
    startTime := none
    refreshRate := none
    panelGroups := [⟨"group", panelGroupID⟩]
    isRemoved := false }

def samplePanel (panelID panelGroupID : String) : Panel :=
  { panelID := panelID
    panelOptions := noOptions
    panelName := "panel"
    panelGroupID := some panelGroupID
    promQueries := []
    yAxisLeft := none
    yAxisRight := none
    xAxisDown := none
    unit := none
    createdAt := "1"
    updatedAt := "1"
    isRemoved := false }

def sampleDatabase : Database where
  dataSources := ⟨[], by decide⟩
  dashboards := ⟨[sampleDashboard "own" "db-1" "group-1", sampleDashboard "other" "db-2" "group-2"],
    by decide⟩
  panels := ⟨[samplePanel "panel-1" "group-1", samplePanel "panel-2" "group-2"], by decide⟩

def samplePanelInput (panelID panelGroupID : String) : PanelInput :=
  { panelID := some panelID
    yAxisLeft := none
    yAxisRight := none
    xAxisDown := none
    unit := none
    panelGroupID := some panelGroupID
    createdAt := some "1"
    promQueries := []
    panelOptions := none
    panelName := "renamed" }

/-- A viewer of one project renames a panel of another one. -/
theorem not_tenantsIsolated : ¬ TenantsIsolated := by
  intro h
  have hspares := h ⟨"own", .viewer⟩ sampleDatabase
    (.updatePanel [some (samplePanelInput "panel-2" "group-2")]) (calmEnv 2 "new") trivial
  have hpanel := hspares.panels 1 _ rfl (by decide)
  exact absurd hpanel (by decide +kernel)

def renameOwnPanel : MemberCall :=
  ⟨calmEnv 2 "new", .viewer, .updatePanel [some (samplePanelInput "panel-1" "group-1")]⟩

theorem keepsToOwn_renameOwnPanel : renameOwnPanel.KeepsToOwn "own" sampleDatabase where
  writes := by
    intro front panel back hpanels _ id hid doc hdoc hdocID
    obtain ⟨rfl, rfl, rfl⟩ : front = [] ∧ panel = some (samplePanelInput "panel-1" "group-1") ∧
        back = [] := by
      cases front with
      | nil =>
          obtain ⟨rfl, rfl⟩ := List.cons.inj hpanels
          exact ⟨rfl, rfl, rfl⟩
      | cons head tail => simp at hpanels
    obtain rfl : "panel-1" = id := Option.some.inj hid
    have hown : ∀ doc ∈ sampleDatabase.panels.docs, doc.panelID = "panel-1" →
        OwnPanel sampleDatabase "own" doc := by decide
    exact hown doc hdoc hdocID
  groups := trivial
  newIDs := trivial
  newGroups := by
    have hgroups : ∀ panel ∈ sampleDatabase.panels.docs, panel.panelGroupID ≠ some "new" := by decide
    exact fun _ panel hpanel => hgroups panel hpanel

theorem sparesOthers_renameOwnPanel :
    SparesOthers "own" sampleDatabase ([renameOwnPanel].foldl (MemberCall.apply "own") sampleDatabase) := by
  refine (changesOwnOnly_iff_keepsToOwn ⟨"own", .viewer⟩ sampleDatabase renameOwnPanel.mutation).2
    [renameOwnPanel] (fun front call back hcalls => ?_) [renameOwnPanel] [] rfl
  cases front with
  | nil =>
      obtain ⟨rfl, rfl⟩ := List.cons.inj hcalls
      exact keepsToOwn_renameOwnPanel
  | cons head tail => simp at hcalls

end LitmusPortal.Analytics
