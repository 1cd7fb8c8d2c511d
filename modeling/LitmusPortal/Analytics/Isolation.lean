import LitmusPortal.Analytics.Plans

/-!
# What a caller can change in other projects

The role is checked against the project of the request, and the writes select a document by its id. A
mutation stays in the caller's project exactly when each id that it writes under is of that project.
-/

namespace LitmusPortal.Analytics

open DocumentStore Program

/-! ## The property -/

/-- A panel belongs to the project of a dashboard in one of whose groups it is. -/
def OwnPanel (db : Database) (projectID : String) (panel : Panel) : Prop :=
  ∃ dashboard ∈ db.dashboards.docs, dashboard.projectID = projectID ∧
    ∃ group ∈ dashboard.panelGroups, panel.panelGroupID = some group.panelGroupID

instance (db : Database) (projectID : String) (panel : Panel) :
    Decidable (OwnPanel db projectID panel) :=
  inferInstanceAs (Decidable (∃ dashboard ∈ db.dashboards.docs, dashboard.projectID = projectID ∧
    ∃ group ∈ dashboard.panelGroups, panel.panelGroupID = some group.panelGroupID))

/-- Only documents of the project differ. -/
structure SparesOthers (projectID : String) (before after : Database) : Prop where
  dataSources : Spares (fun doc => doc.projectID = projectID) before.dataSources.docs
    after.dataSources.docs
  dashboards : Spares (fun doc => doc.projectID = projectID) before.dashboards.docs
    after.dashboards.docs
  panels : Spares (OwnPanel before projectID) before.panels.docs after.panels.docs

/-- A new id is none of those of the request. -/
def NewIDs (env : Env) : Mutation → Prop
  | .updateDashboard _ dashboard _ => ∀ n, env.uuid n ∉ dashboard.panelIDs
  | _ => True

def ChangesOwnOnly (caller : Caller) (db : Database) (mutation : Mutation) : Prop :=
  ∀ env, NewIDs env mutation → SparesOthers caller.projectID db (after env caller db mutation)

def TenantsIsolated : Prop := ∀ caller db mutation, ChangesOwnOnly caller db mutation

/-! ## The condition -/

/-- Every panel under the id is one of the project. -/
def OwnPanelID (db : Database) (projectID : String) (id : String) : Prop :=
  ∀ panel ∈ db.panels.docs, panel.panelID = id → OwnPanel db projectID panel

/-- The ids are looked up one after the other, up to the first that no panel has. -/
def OwnPanelIDs (db : Database) (projectID : String) (ids : List String) : Prop :=
  ∀ front id back, ids = front ++ id :: back → (∀ id ∈ front, HasPanel db id) →
    OwnPanelID db projectID id

/-- Each id that the mutation writes under is one of the caller's project. -/
def KeepsToOwn (caller : Caller) (db : Database) : Mutation → Prop
  | .createDataSource _ | .createDashBoard _ | .deleteDashboard _ _ => True
  | .updateDataSource datasource =>
      ∀ projectID ∈ datasource.projectID, MayEdit caller projectID → ∀ id ∈ datasource.dsID, id ≠ "" →
        ∀ doc ∈ db.dataSources.docs, doc.dsID = id → doc.projectID = caller.projectID
  | .updateDashboard projectID dashboard chaosQueryUpdate =>
      MayEdit caller projectID → dashboard.dbID ≠ "" → chaosQueryUpdate = false →
        (∀ group ∈ dashboard.panelGroups, ∃ group', group = some group' ∧
          ∀ panel ∈ group'.panels, Planned panel) →
        (∃ doc ∈ db.dashboards.docs, liveDashboard projectID (some dashboard.dbID) doc = true) →
        OwnPanelIDs db projectID dashboard.panelIDs
  | .updatePanel panels =>
      ∀ front panel back, panels = front ++ panel :: back →
        (∀ panel ∈ front, ∃ id, checkedID panel = some id ∧ HasPanel db id) →
        ∀ id, checkedID panel = some id → OwnPanelID db caller.projectID id
  | .deleteDataSource projectID input =>
      MayEdit caller projectID →
        (input.forceDelete = true ∨ ∀ doc ∈ db.dashboards.docs,
          attached projectID input.dsID doc = false) →
        ∀ doc ∈ db.dataSources.docs, doc.dsID = input.dsID → doc.projectID = caller.projectID

/-! ## Writes that spare the others -/

variable {env : Env} {caller : Caller} {before : Database} {projectID : String}

theorem SparesOthers.addPanel {db : Database} (h : SparesOthers projectID before db) (panel : Panel) :
    SparesOthers projectID before { db with panels := db.panels.add panel } := by
  refine { h with panels := ?_ }
  rcases Documents.docs_add db.panels panel with hsame | hnew
  · rw [hsame]
    exact h.panels
  · rw [hnew]
    exact h.panels.append _

theorem SparesOthers.insertPanel {panels : List Panel} :
    Keeps (SparesOthers projectID before) (insertPanel env panels) :=
  keeps_insertPanel fun panel _ _ h => h.addPanel panel

theorem SparesOthers.insertDashBoard {dashboard : DashBoard} :
    Keeps (SparesOthers projectID before) (insertDashBoard env dashboard) := by
  refine keeps_write_one fun db h => { h with dashboards := ?_ }
  rcases Documents.docs_add db.dashboards dashboard with hsame | hnew
  · rw [hsame]
    exact h.dashboards
  · rw [hnew]
    exact h.dashboards.append _

theorem keeps_updatePanel_own {query : Panel → Bool} {change : Change Panel.panelID} {id : String}
    (hquery : ∀ doc, query doc = true → doc.panelID = id) (hown : OwnPanelID before projectID id) :
    Keeps (SparesOthers projectID before) (updatePanel env query change) := by
  refine keeps_updatePanel fun db h => { h with panels := h.panels.updateFirst fun doc hdoc _ hother => ?_ }
  rw [Bool.eq_false_iff]
  exact fun hmatch => hother (hown doc hdoc (hquery doc hmatch))

theorem keeps_updateDashboard_own {query : DashBoard → Bool} {change : Change DashBoard.dbID}
    (hown : ∀ doc ∈ before.dashboards.docs, query doc = true → doc.projectID = projectID) :
    Keeps (SparesOthers projectID before) (updateDashboard env query change) := by
  refine keeps_write_one fun db h => ?_
  refine { h with dashboards := h.dashboards.updateFirst fun doc hdoc _ hother => ?_ }
  rw [Bool.eq_false_iff]
  exact fun hmatch => hother (hown doc hdoc hmatch)

theorem keeps_updateDataSource_own {query : DataSource → Bool} {change : Change DataSource.dsID}
    (hown : ∀ doc ∈ before.dataSources.docs, query doc = true → doc.projectID = projectID) :
    Keeps (SparesOthers projectID before) (updateDataSource env query change) := by
  refine keeps_write_one fun db h => ?_
  refine { h with dataSources := h.dataSources.updateFirst fun doc hdoc _ hother => ?_ }
  rw [Bool.eq_false_iff]
  exact fun hmatch => hother (hown doc hdoc hmatch)

/-! ## Removals -/

theorem ownPanelID_of_listed {db : Database} (h : SparesOthers projectID before db) {dashboard : DashBoard}
    (hdashboard : dashboard ∈ before.dashboards.docs) (hown : dashboard.projectID = projectID)
    {group : PanelGroup} (hgroup : group ∈ dashboard.panelGroups) {panel : Panel}
    (hpanel : panel ∈ db.panels.docs) (hin : panelsOfGroup group panel = true) :
    OwnPanelID before projectID panel.panelID := by
  intro doc hdoc hid
  by_contra hother
  obtain ⟨i, hi⟩ := List.mem_iff_getElem?.mp hdoc
  have hstays : doc ∈ db.panels.docs := List.mem_of_getElem? (h.panels i doc hi hother)
  obtain rfl := db.panels.eq_of_key hstays hpanel hid
  have hlisted : doc.panelGroupID = some group.panelGroupID ∧ doc.isRemoved = false := by
    simpa [panelsOfGroup] using hin
  exact hother ⟨dashboard, hdashboard, hown, group, hgroup, hlisted.1⟩

theorem keeps_removePanelGroup {time : Call String} {dashboard : DashBoard} {group : PanelGroup}
    (htime : ∀ v, Yields World.seen v time fun _ => True)
    (hdashboard : dashboard ∈ before.dashboards.docs) (hown : dashboard.projectID = projectID)
    (hgroup : group ∈ dashboard.panelGroups) :
    Keeps (SparesOthers projectID before) (removePanelGroup env time group) := by
  refine Keeps.removePanelGroup htime fun db panel hdb hpanel hin db' time hdb' => ?_
  have hownID := ownPanelID_of_listed hdb hdashboard hown hgroup hpanel hin
  refine { hdb' with panels := hdb'.panels.updateFirst fun doc hdoc _ hother => ?_ }
  rw [Bool.eq_false_iff]
  intro hmatch
  simp only [Bool.decide_and, Bool.and_eq_true, decide_eq_true_eq] at hmatch
  exact hother (hownID doc hdoc hmatch.1)

/-! ## Mutations that spare the others -/

abbrev Starts (projectID : String) (before : Database) {α : Type} (call : Call α) : Prop :=
  Reaches before call (SparesOthers projectID before)

theorem SparesOthers.refl (projectID : String) (db : Database) : SparesOthers projectID db db :=
  ⟨Spares.refl _ _, Spares.refl _ _, Spares.refl _ _⟩

theorem Keeps.starts {α : Type} {call : Call α} (h : Keeps (SparesOthers projectID before) call) :
    Starts projectID before call := h.reaches (SparesOthers.refl projectID before)

theorem Starts.bind_yields {α β : Type} {call : Call α} {rest : α → Call β}
    {result : Database × Nat → α → Prop} (hcall : ∀ v, Yields World.seen v call (result v))
    (hrest : ∀ a v, v.1 = before → result v a → Starts projectID before (rest a)) :
    Starts projectID before (call >>= rest) :=
  Reaches.bind_yields (SparesOthers.refl projectID before) hcall hrest

theorem SparesOthers.createDataSource {datasource : DSInput} :
    Keeps (SparesOthers projectID before) (createDataSource env datasource) := by
  refine Keeps.createDataSource fun doc db _ h => { h with dataSources := ?_ }
  rcases Documents.docs_add db.dataSources doc with hsame | hnew
  · rw [hsame]
    exact h.dataSources
  · rw [hnew]
    exact h.dataSources.append _

theorem SparesOthers.createDashboard {dashboard : CreateDBInput} :
    Keeps (SparesOthers projectID before) (createDashboard env dashboard) := by
  refine Keeps.bind_yields (fun _ => yields_newUUID) fun _ _ _ _ => ?_
  refine Keeps.bind_yields (fun _ => yields_deref) fun _ _ _ _ => ?_
  refine Keeps.bind_yields (fun _ => yields_timestamp) fun _ _ _ _ => ?_
  refine Keeps.bind_yields (fun _ => yields_timestamp) fun _ _ _ _ => ?_
  refine Keeps.bind_yields (fun _ => yields_createPanelGroups) fun _ _ _ _ => ?_
  refine Keeps.bind (triple_orElse SparesOthers.insertPanel) fun _ => ?_
  refine Keeps.bind (triple_orElse SparesOthers.insertDashBoard) fun _ => ?_
  exact Keeps.of_yields fun _ => triple_wrap yields_read

theorem starts_deleteDashboard {dbID : Option String} :
    Starts projectID before (deleteDashboard env projectID dbID) := by
  refine Starts.bind_yields (fun v => triple_wrap yields_getDashboard) fun dashboard v hv hfound => ?_
  rw [hv] at hfound
  have hmem := List.mem_of_find?_eq_some hfound
  have hlive : dashboard.projectID = projectID ∧ some dashboard.dbID = dbID ∧
      dashboard.isRemoved = false := by
    simpa [liveDashboard] using List.find?_some hfound
  refine Keeps.starts (Keeps.bind (Triple.forM fun group hgroup => ?_) fun _ => ?_)
  · exact keeps_removePanelGroup (fun v => yields_timestamp.mono fun _ _ => trivial) hmem hlive.1 hgroup
  · refine Keeps.bind_yields (fun v => yields_timestamp) fun _ _ _ _ => triple_wrap ?_
    refine keeps_updateDashboard_own fun doc hdoc hquery => ?_
    have hid : some doc.dbID = some dashboard.dbID := (of_decide_eq_true hquery).trans hlive.2.1.symm
    rw [before.dashboards.eq_of_key hdoc hmem (Option.some.inj hid), hlive.1]

theorem starts_deleteDataSource {input : DeleteDSInput}
    (h : (input.forceDelete = true ∨ ∀ doc ∈ before.dashboards.docs,
        attached projectID input.dsID doc = false) →
      ∀ doc ∈ before.dataSources.docs, doc.dsID = input.dsID → doc.projectID = projectID) :
    Starts projectID before (deleteDataSource env projectID input) := by
  refine Starts.bind_yields (fun _ => yields_timestamp) fun time _ _ _ => ?_
  refine Starts.bind_yields (fun v => triple_wrap yields_listDashboard) fun dashboards v hv hlisted => ?_
  rw [hv] at hlisted
  have hremove : (input.forceDelete = true ∨ ∀ doc ∈ before.dashboards.docs,
      attached projectID input.dsID doc = false) → Keeps (SparesOthers projectID before)
        (wrap "failed to delete datasource, error: "
          (updateDataSource env (fun doc => doc.dsID = input.dsID) (removeDataSource time))) :=
    fun hreached => triple_wrap (keeps_updateDataSource_own fun doc hdoc hquery =>
      h hreached doc hdoc (of_decide_eq_true hquery))
  refine Keeps.starts (Triple.ite (fun hforce => ?_) fun _ => Triple.ite (fun _ => ?_) fun hnone => ?_)
  · refine Keeps.bind (Triple.forM fun dashboard hdashboard => ?_) fun _ => hremove (.inl hforce)
    rw [hlisted, List.mem_filter] at hdashboard
    have hattached : dashboard.projectID = projectID ∧ dashboard.dsID = some input.dsID ∧
        dashboard.isRemoved = false := by
      simpa [attached] using hdashboard.2
    refine Keeps.bind (Triple.forM fun group hgroup => ?_) fun _ => triple_wrap ?_
    · exact keeps_removePanelGroup (fun v => Yields.pure trivial) hdashboard.1 hattached.1 hgroup
    · refine keeps_updateDashboard_own fun doc hdoc hquery => ?_
      rw [before.dashboards.eq_of_key hdoc hdashboard.1 (of_decide_eq_true hquery), hattached.1]
  · exact Keeps.throw_bind
  · refine hremove (.inr fun doc hdoc => ?_)
    rw [not_not, hlisted, List.filter_eq_nil_iff] at hnone
    simpa using hnone doc hdoc

theorem SparesOthers.updateDataSourceHandler {datasource : DSInput}
    (hown : ∀ id ∈ datasource.dsID, id ≠ "" →
      ∀ doc ∈ before.dataSources.docs, doc.dsID = id → doc.projectID = projectID) :
    Keeps (SparesOthers projectID before) (updateDataSourceHandler env datasource) := by
  refine Keeps.updateDataSourceHandler fun id hid hne time db h =>
    { h with dataSources := h.dataSources.updateFirst fun doc hdoc _ hother => ?_ }
  rw [Bool.eq_false_iff]
  exact fun hmatch => hother (hown id hid hne doc hdoc (of_decide_eq_true hmatch))

/-! ## Updates of panels -/

/-- What is known of the database while the panels of a request are updated one after the other. -/
structure Follows (projectID : String) (new : String → Prop) (before db : Database) : Prop where
  spares : SparesOthers projectID before db
  ids : ∀ doc ∈ db.panels.docs, HasPanel before doc.panelID ∨ new doc.panelID

theorem Follows.refl (projectID : String) (new : String → Prop) (db : Database) :
    Follows projectID new db db :=
  ⟨SparesOthers.refl _ _, fun doc hdoc => .inl ⟨doc, hdoc, rfl⟩⟩

theorem Follows.update {new : String → Prop} {db : Database} (h : Follows projectID new before db)
    {id : String} (hown : OwnPanelID before projectID id) {query : Panel → Bool}
    (hquery : ∀ doc, query doc = true → doc.panelID = id) (change : Change Panel.panelID) :
    Follows projectID new before { db with panels := db.panels.update query change } := by
  refine ⟨{ h.spares with panels := h.spares.panels.updateFirst fun doc hdoc _ hother => ?_ },
    fun doc hdoc => ?_⟩
  · rw [Bool.eq_false_iff]
    exact fun hmatch => hother (hown doc hdoc (hquery doc hmatch))
  · rcases mem_updateFirst hdoc with hsame | ⟨old, hold, -, rfl⟩
    · exact h.ids doc hsame
    · rw [change.property]
      exact h.ids old hold

theorem follows_updatePanel {new : String → Prop} {id : String} (hown : OwnPanelID before projectID id)
    (hnew : ¬ new id) {query : Panel → Bool} (hquery : ∀ doc, query doc = true → doc.panelID = id)
    (change : Change Panel.panelID) :
    Triple (fun world => Follows projectID new before world.db) (updatePanel env query change)
      (fun _ world => HasPanel before id ∧ Follows projectID new before world.db)
      (fun world => SparesOthers projectID before world.db) := by
  refine triple_updatePanel.mono (fun _ hs => hs) ?_ ?_
  · rintro _ s ⟨db, hdb, hmatched, hs⟩
    rw [hs]
    refine ⟨?_, hdb.update hown hquery change⟩
    obtain ⟨doc, hdoc, hmatch⟩ := List.any_eq_true.mp hmatched
    have hid := hquery doc hmatch
    rcases hdb.ids doc hdoc with hfound | hisNew
    · exact hid ▸ hfound
    · exact absurd (hid ▸ hisNew) hnew
  · rintro s ⟨db, hdb, hs | hs⟩
    · rw [hs]
      exact hdb.spares
    · rw [hs]
      exact (hdb.update hown hquery change).spares

theorem starts_updatePanelHandler {panels : List (Option PanelInput)}
    (h : ∀ front panel back, panels = front ++ panel :: back →
      (∀ panel ∈ front, ∃ id, checkedID panel = some id ∧ HasPanel before id) →
        ∀ id, checkedID panel = some id → OwnPanelID before projectID id) :
    Starts projectID before (updatePanelHandler env panels) := by
  have hloop : Triple
      (fun world => (∀ panel ∈ ([] : List (Option PanelInput)), ∃ id, checkedID panel = some id ∧
        HasPanel before id) ∧ Follows projectID (fun _ => False) before world.db)
      (panels.forM (updatePanelInput env))
      (fun _ world => (∀ panel ∈ panels, ∃ id, checkedID panel = some id ∧ HasPanel before id) ∧
        Follows projectID (fun _ => False) before world.db)
      (fun world => SparesOthers projectID before world.db) := by
    refine @Triple.forM_prefix _ _ _ _ _ panels (fun front (world : World) =>
      (∀ panel ∈ front, ∃ id, checkedID panel = some id ∧ HasPanel before id) ∧
        Follows projectID (fun _ => False) before world.db) fun front panel back hpanels => ?_
    refine Triple.of_and fun hfront => ?_
    have hown := h front panel back hpanels hfront
    refine triple_bind_yields (fun _ => yields_timestamp) (fun _ hs => hs.spares) fun time _ _ _ => ?_
    refine triple_bind_yields (fun _ => yields_deref) (fun _ hs => hs.spares) fun panel' _ _ hsome => ?_
    subst hsome
    refine triple_bind_yields (fun _ => yields_checkPanelIDs) (fun _ hs => hs.spares)
      fun id _ _ hchecked => ?_
    refine triple_bind_yields (fun _ => yields_copy) (fun _ hs => hs.spares) fun _ _ _ _ => ?_
    refine triple_bind_yields (fun _ => yields_copy) (fun _ hs => hs.spares) fun _ _ _ _ => ?_
    refine (follows_updatePanel (hown id hchecked) (fun hfalse => hfalse)
      (fun doc hquery => of_decide_eq_true hquery) _).mono (fun _ hs => hs) (fun _ s hs => ?_) fun _ hs => hs
    refine ⟨fun panel hpanel => ?_, hs.2⟩
    rcases List.mem_append.mp hpanel with hpanel | hpanel
    · exact hfront panel hpanel
    · rw [List.mem_singleton.mp hpanel]
      exact ⟨id, hchecked, hs.1⟩
  refine hloop.mono (fun world hs => ⟨by simp, ?_⟩) (fun _ _ hs => hs.2.spares) fun _ hs => hs
  rw [hs]
  exact Follows.refl _ _ _

/-! ## The update of a dashboard -/

theorem keeps_writePanel {panel : Panel} (hown : OwnPanelID before projectID panel.panelID) :
    Keeps (SparesOthers projectID before) (writePanel env panel) := by
  refine Keeps.bind_yields (fun _ => yields_timestamp) fun _ _ _ _ => ?_
  refine Triple.ite (fun _ => Keeps.throw) fun _ => ?_
  refine Keeps.bind_yields (fun _ => yields_copy) fun _ _ _ _ => ?_
  refine Keeps.bind_yields (fun _ => yields_copy) fun _ _ _ _ => ?_
  exact keeps_updatePanel_own (fun doc hquery => of_decide_eq_true hquery) hown

theorem follows_writePanel {new : String → Prop} {panel : Panel}
    (hown : OwnPanelID before projectID panel.panelID) (hnew : ¬ new panel.panelID) :
    Triple (fun world => Follows projectID new before world.db) (writePanel env panel)
      (fun _ world => HasPanel before panel.panelID ∧ Follows projectID new before world.db)
      (fun world => SparesOthers projectID before world.db) := by
  refine triple_bind_yields (fun _ => yields_timestamp) (fun _ hs => hs.spares) fun _ _ _ _ => ?_
  refine Triple.ite (fun _ => Triple.throw fun _ hs => hs.spares) fun _ => ?_
  refine triple_bind_yields (fun _ => yields_copy) (fun _ hs => hs.spares) fun _ _ _ _ => ?_
  refine triple_bind_yields (fun _ => yields_copy) (fun _ hs => hs.spares) fun _ _ _ _ => ?_
  exact follows_updatePanel hown hnew (fun doc hquery => of_decide_eq_true hquery) _

theorem follows_insertPanel {new : String → Prop} {panels : List Panel}
    (hnew : ∀ panel ∈ panels, new panel.panelID) :
    Triple (fun world => Follows projectID new before world.db) (insertPanel env panels)
      (fun _ world => Follows projectID new before world.db)
      (fun world => Follows projectID new before world.db) := by
  refine keeps_insertPanel fun panel hpanel db h => ⟨h.spares.addPanel panel, fun doc hdoc => ?_⟩
  rcases Documents.docs_add db.panels panel with hsame | hadded
  · exact h.ids doc (hsame ▸ hdoc)
  · rw [show (db.panels.add panel).docs = db.panels.docs ++ [panel] from hadded] at hdoc
    rcases List.mem_append.mp hdoc with hdoc | hdoc
    · exact h.ids doc hdoc
    · rw [List.mem_singleton.mp hdoc]
      exact .inr (hnew panel hpanel)

theorem follows_writePanels {new : String → Prop} {panels : List Panel}
    (hown : OwnPanelIDs before projectID (panels.map (·.panelID)))
    (hnew : ∀ panel ∈ panels, ¬ new panel.panelID) :
    Triple (fun world => Follows projectID new before world.db) (panels.forM (writePanel env))
      (fun _ world => SparesOthers projectID before world.db)
      (fun world => SparesOthers projectID before world.db) := by
  have hloop := @Triple.forM_prefix _ _ _ (fun world : World => SparesOthers projectID before world.db)
    (writePanel env) panels
    (fun front (world : World) => (∀ panel ∈ front, HasPanel before panel.panelID) ∧
      Follows projectID new before world.db) fun front panel back hpanels => by
      refine Triple.of_and fun hfront => ?_
      have hone : OwnPanelID before projectID panel.panelID := by
        apply hown (front.map (·.panelID)) panel.panelID (back.map (·.panelID)) (by simp [hpanels])
        simpa using hfront
      refine (follows_writePanel hone (hnew panel (by simp [hpanels]))).mono (fun _ hs => hs)
        (fun _ s hs => ⟨fun panel hpanel => ?_, hs.2⟩) fun _ hs => hs
      rcases List.mem_append.mp hpanel with hpanel | hpanel
      · exact hfront panel hpanel
      · rw [List.mem_singleton.mp hpanel]
        exact hs.1
  exact hloop.mono (fun _ hs => ⟨by simp, hs⟩) (fun _ _ hs => hs.2.spares) fun _ hs => hs

theorem ownPanelID_of_removals {dashboard : DashBoard} (hdashboard : dashboard ∈ before.dashboards.docs)
    (hown : dashboard.projectID = projectID) {ids : List String} {removals : List (List Panel)}
    (h : List.Forall₂ (fun group => List.Forall₂
      (fun doc removal : Panel => removal.panelID = doc.panelID ∧ removal.isRemoved = true)
      ((before.panels.docs.filter (panelsOfGroup group)).filter fun panel => panel.panelID ∉ ids))
      dashboard.panelGroups removals) :
    ∀ removal ∈ removals.flatten, OwnPanelID before projectID removal.panelID := by
  intro removal hremoval
  obtain ⟨list, hlist, hmem⟩ := List.mem_flatten.mp hremoval
  obtain ⟨group, hgroup, hforall⟩ := exists_left_of_forall₂ h hlist
  obtain ⟨doc, hdoc, hid, -⟩ := exists_left_of_forall₂ hforall hmem
  simp only [List.mem_filter] at hdoc
  rw [hid]
  exact ownPanelID_of_listed (SparesOthers.refl _ _) hdashboard hown hgroup hdoc.1.1 hdoc.1.2

theorem starts_updateDashBoard {dashboard : UpdateDBInput} {chaosQueryUpdate : Bool}
    (hnew : ∀ n, env.uuid n ∉ dashboard.panelIDs)
    (hown : dashboard.dbID ≠ "" → chaosQueryUpdate = false →
      (∀ group ∈ dashboard.panelGroups, ∃ group', group = some group' ∧
        ∀ panel ∈ group'.panels, Planned panel) →
      (∃ doc ∈ before.dashboards.docs, liveDashboard projectID (some dashboard.dbID) doc = true) →
      OwnPanelIDs before projectID dashboard.panelIDs) :
    Starts projectID before (updateDashBoard env projectID dashboard chaosQueryUpdate) := by
  have hdashboard : ∀ change, Keeps (SparesOthers projectID before)
      (updateDashboard env (liveDashboard projectID (some dashboard.dbID)) change) := by
    refine fun change => keeps_updateDashboard_own fun doc _ hquery => ?_
    have hlive : doc.projectID = projectID ∧ some doc.dbID = some dashboard.dbID ∧
        doc.isRemoved = false := by
      simpa [liveDashboard] using hquery
    exact hlive.1
  refine Starts.bind_yields (fun _ => yields_timestamp) fun time _ _ _ => ?_
  refine Triple.ite (fun _ => Keeps.throw.starts) fun hid => ?_
  refine Triple.ite (fun _ => (hdashboard _).starts) fun hchaos => ?_
  refine Starts.bind_yields (fun _ => yields_planPanelGroups) fun plan _ _ hplan => ?_
  refine Starts.bind_yields (fun _ => triple_wrap yields_getDashboard) fun existing v hv hfound => ?_
  rw [hv] at hfound
  have hmem := List.mem_of_find?_eq_some hfound
  have hlive : existing.projectID = projectID ∧ some existing.dbID = some dashboard.dbID ∧
      existing.isRemoved = false := by
    simpa [liveDashboard] using List.find?_some hfound
  have hids := hown hid (by simpa using hchaos) (planned_of_plannedAs hplan)
    ⟨existing, hmem, List.find?_some hfound⟩
  refine Starts.bind_yields (fun _ => Yields.mapM fun _ _ => yields_planRemovals)
    fun removals v hv hremovals => ?_
  rw [hv] at hremovals
  have hremoved := ownPanelID_of_removals hmem hlive.1 hremovals
  have hupdateIDs := updateIDs_eq hplan
  have hwrites : ∀ u : Unit, Triple
      (fun world => Follows projectID (fun id => ∃ n, id = env.uuid n) before world.db)
      (do
        ((((plan.flatMap (·.2)).filter (!·.1)).map (·.2)) ++ removals.flatten).forM (writePanel env)
        updateDashboard env (liveDashboard projectID (some dashboard.dbID))
          (setDashboard dashboard (plan.map (·.1)) time))
      (fun _ world => SparesOthers projectID before world.db)
      (fun world => SparesOthers projectID before world.db) := by
    refine fun _ => Triple.bind ?_ fun _ => hdashboard _
    refine Triple.forM_append (follows_writePanels ?_ ?_)
      (Triple.forM fun removal hremoval => keeps_writePanel (hremoved removal hremoval))
    · rw [List.map_map]
      exact hupdateIDs ▸ hids
    · rintro panel hpanel ⟨n, hn⟩
      refine hnew n ?_
      obtain ⟨planned, hplanned, rfl⟩ := List.mem_map.mp hpanel
      rw [← hn, UpdateDBInput.panelIDs, ← hupdateIDs]
      exact List.mem_map_of_mem hplanned
  have hstart : ∀ world : World, world.db = before →
      Follows projectID (fun id => ∃ n, id = env.uuid n) before world.db := by
    intro world hworld
    rw [hworld]
    exact Follows.refl _ _ _
  refine Triple.ite (fun _ => ?_) fun _ => (hwrites ()).mono hstart (fun _ _ hs => hs) fun _ hs => hs
  refine Triple.bind ?_ hwrites
  refine (triple_orElse (follows_insertPanel fun panel hpanel => ?_)).mono hstart (fun _ _ hs => hs)
    fun _ hs => hs.spares
  obtain ⟨planned, hplanned, rfl⟩ := List.mem_map.mp hpanel
  obtain ⟨hplanned, hisNew⟩ := List.mem_filter.mp hplanned
  obtain ⟨_, _, _, -, -, -, hid⟩ := plannedAs_of_mem hplan hplanned
  rw [if_pos hisNew] at hid
  exact hid.2

/-! ## Assembly -/

theorem changesOwnOnly_of_keepsToOwn {mutation : Mutation} (h : KeepsToOwn caller before mutation) :
    ChangesOwnOnly caller before mutation := by
  intro env hnew
  apply after_of_reaches
  cases mutation with
  | createDataSource datasource =>
      refine Starts.bind_yields (fun _ => yields_deref) fun projectID _ _ _ => ?_
      refine Starts.bind_yields (fun _ => yields_validateRole) fun _ _ _ _ => ?_
      exact (Keeps.bind SparesOthers.createDataSource fun _ => Keeps.pure).starts
  | createDashBoard dashboard =>
      refine Starts.bind_yields (fun _ => yields_validateRole) fun _ _ _ _ => ?_
      exact (Keeps.bind SparesOthers.createDashboard fun _ => Keeps.pure).starts
  | updateDataSource datasource =>
      refine Starts.bind_yields (fun _ => yields_deref) fun projectID _ _ hproject => ?_
      refine Starts.bind_yields (fun _ => yields_validateRole) fun _ _ _ hmay => ?_
      exact (SparesOthers.updateDataSourceHandler (h projectID hproject hmay)).starts
  | updateDashboard projectID dashboard chaosQueryUpdate =>
      refine Starts.bind_yields (fun _ => yields_validateRole) fun _ _ _ hmay => ?_
      obtain rfl := hmay.1
      exact starts_updateDashBoard hnew (h hmay)
  | updatePanel panelInput => exact starts_updatePanelHandler h
  | deleteDashboard projectID dbID =>
      refine Starts.bind_yields (fun _ => yields_validateRole) fun _ _ _ hmay => ?_
      obtain rfl := hmay.1
      exact starts_deleteDashboard
  | deleteDataSource projectID input =>
      refine Starts.bind_yields (fun _ => yields_validateRole) fun _ _ _ hmay => ?_
      obtain rfl := hmay.1
      exact starts_deleteDataSource (h hmay)

end LitmusPortal.Analytics
