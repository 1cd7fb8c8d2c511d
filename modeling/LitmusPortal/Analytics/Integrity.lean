import LitmusPortal.Analytics.Progress

/-!
# What the analytics documents refer to

A live dashboard shows a data source that is not removed, and a live panel is in a group of a live
dashboard. A removal takes the panels of a dashboard before the dashboard itself, so that it may fail at
any point. An update of a dashboard writes the panels first, so that it may not.
-/

namespace LitmusPortal.Analytics

open DocumentStore Program

/-! ## The property -/

def Listed (db : Database) (panelGroupID : Option String) : Prop :=
  ∃ dashboard ∈ db.dashboards.docs, dashboard.isRemoved = false ∧
    ∃ group ∈ dashboard.panelGroups, panelGroupID = some group.panelGroupID

def RemovedSource (db : Database) (id : String) : Prop :=
  ∃ doc ∈ db.dataSources.docs, doc.dsID = id ∧ doc.isRemoved = true

structure Intact (db : Database) : Prop where
  sources : ∀ dashboard ∈ db.dashboards.docs, dashboard.isRemoved = false →
    ∀ id ∈ dashboard.dsID, ¬ RemovedSource db id
  panels : ∀ panel ∈ db.panels.docs, panel.isRemoved = false → Listed db panel.panelGroupID

/-! ## Removals -/

variable {env : Env} {before db : Database}

/-- What a removal leaves until it comes to the dashboard. -/
structure Fewer (before db : Database) : Prop where
  dataSources : db.dataSources = before.dataSources
  dashboards : db.dashboards = before.dashboards
  panels : ∀ panel ∈ db.panels.docs, panel.isRemoved = false → panel ∈ before.panels.docs

theorem Fewer.refl (db : Database) : Fewer db db := ⟨rfl, rfl, fun _ h _ => h⟩

theorem Fewer.trans {mid : Database} (h : Fewer before mid) (h' : Fewer mid db) : Fewer before db :=
  ⟨h'.dataSources.trans h.dataSources, h'.dashboards.trans h.dashboards,
    fun panel hpanel hlive => h.panels panel (h'.panels panel hpanel hlive) hlive⟩

theorem Fewer.remove (h : Fewer before db) (query : Panel → Bool) (time : String) :
    Fewer before { db with panels := db.panels.update query (removePanel time) } := by
  refine { h with panels := fun panel hpanel hlive => ?_ }
  rcases mem_updateFirst hpanel with hsame | ⟨old, -, -, rfl⟩
  · exact h.panels panel hsame hlive
  · exact absurd hlive (by simp [removePanel])

theorem Intact.fewer (h : Intact before) (hfewer : Fewer before db) : Intact db := by
  obtain ⟨hsources, hdashboards, hpanels⟩ := hfewer
  refine ⟨?_, fun panel hpanel hlive => ?_⟩
  · unfold RemovedSource
    rw [hsources, hdashboards]
    exact h.sources
  · unfold Listed
    rw [hdashboards]
    exact h.panels panel (hpanels panel hpanel hlive) hlive

theorem triple_removePanelGroup {time : Call String} {group : PanelGroup}
    (htime : ∀ v, Yields World.seen v time fun _ => True) :
    Triple (fun world => Fewer before world.db) (removePanelGroup env time group)
      (fun _ world => Fewer before world.db ∧ ∀ panel ∈ world.db.panels.docs,
        panelsOfGroup group panel = false)
      (fun world => Fewer before world.db) := by
  intro start hstart
  refine (?_ : Triple (fun world => world.db = start.db) _ _ _) start rfl
  refine @triple_bind_yields _ _ _ _ (fun db => db = start.db) _ _ _
    (fun _ => triple_wrap yields_listPanel) (fun world hworld => hworld ▸ hstart) fun panels v hv hpanels => ?_
  rw [hv] at hpanels
  have hloop := @Triple.forM_prefix World GoError Panel (fun world => Fewer before world.db)
    (fun panel => do
      let time ← time
      wrap "failed to delete panel, error: " (updatePanel env
        (fun doc => doc.panelID = panel.panelID ∧ doc.isRemoved = false) (removePanel time)))
    panels
    (fun front world => Fewer start.db world.db ∧
      ∀ panel ∈ world.db.panels.docs, panel.isRemoved = false → panel ∉ front)
    fun front panel back hsplit => ?_
  · refine hloop.mono (fun world hworld => ?_) (fun _ world hs => ?_) fun _ hs => hs
    · rw [hworld]
      exact ⟨Fewer.refl _, fun _ _ _ => List.not_mem_nil⟩
    · refine ⟨hstart.trans hs.1, fun panel hpanel => ?_⟩
      rw [Bool.eq_false_iff]
      intro hin
      have hlisted : panel.panelGroupID = some group.panelGroupID ∧ panel.isRemoved = false := by
        simpa [panelsOfGroup] using hin
      refine hs.2 panel hpanel hlisted.2 ?_
      rw [hpanels, List.mem_filter]
      exact ⟨hs.1.panels panel hpanel hlisted.2, hin⟩
  · refine @triple_bind_yields _ _ _ _ (fun db => Fewer start.db db ∧
      ∀ panel ∈ db.panels.docs, panel.isRemoved = false → panel ∉ front) _ _ _ htime
      (fun world hs => hstart.trans hs.1) fun time _ _ _ => triple_wrap ?_
    refine (@triple_updatePanel env (fun db => Fewer start.db db ∧
      ∀ panel ∈ db.panels.docs, panel.isRemoved = false → panel ∉ front) _ _).mono (fun _ hs => hs) ?_ ?_
    · rintro _ world ⟨db, ⟨hfewer, hfront⟩, -, hworld⟩
      rw [hworld]
      refine ⟨hfewer.remove _ _, fun other hother hlive hmem => ?_⟩
      have hquery : ∀ doc : Panel, decide (doc.panelID = panel.panelID ∧ doc.isRemoved = false) = true →
          doc.panelID = panel.panelID := fun doc hmatch => (of_decide_eq_true hmatch).1
      rcases Documents.mem_update panel.panelID hquery hother with ⟨hsame, hnot⟩ | ⟨old, -, -, rfl⟩
      · rcases List.mem_append.mp hmem with hdone | hdone
        · exact hfront other hsame hlive hdone
        · rw [List.mem_singleton.mp hdone] at hlive hnot
          simp [hlive] at hnot
      · exact absurd hlive (by simp [removePanel])
    · rintro world ⟨db, ⟨hfewer, -⟩, hworld | hworld⟩
      · rw [hworld]
        exact hstart.trans hfewer
      · rw [hworld]
        exact hstart.trans (hfewer.remove _ _)

structure Emptied (before : Database) (groups : List PanelGroup) (db : Database) : Prop where
  fewer : Fewer before db
  empty : ∀ group ∈ groups, ∀ panel ∈ db.panels.docs, panelsOfGroup group panel = false

theorem triple_removePanelGroups {time : Call String} {groups : List PanelGroup}
    (htime : ∀ v, Yields World.seen v time fun _ => True) :
    Triple (fun world => Fewer before world.db) (groups.forM (removePanelGroup env time))
      (fun _ world => Emptied before groups world.db) (fun world => Fewer before world.db) := by
  have hloop := @Triple.forM_prefix World GoError PanelGroup (fun world => Fewer before world.db)
    (removePanelGroup env time) groups
    (fun front world => Emptied before front world.db) fun front group back _ => ?_
  · exact hloop.mono (fun _ hs => ⟨hs, by simp⟩) (fun _ _ hs => hs) fun _ hs => hs
  · intro start hstart
    have hgroup := @triple_removePanelGroup env start.db time group htime start (Fewer.refl start.db)
    cases hrun : removePanelGroup env time group start with
    | ok a world =>
        rw [hrun] at hgroup
        refine ⟨hstart.fewer.trans hgroup.1, fun other hother panel hpanel => ?_⟩
        rcases List.mem_append.mp hother with hdone | hdone
        · rw [Bool.eq_false_iff]
          intro hin
          have hlive : panel.panelGroupID = some other.panelGroupID ∧ panel.isRemoved = false := by
            simpa [panelsOfGroup] using hin
          rw [hstart.empty other hdone panel (hgroup.1.panels panel hpanel hlive.2)] at hin
          exact Bool.false_ne_true hin
        · rw [List.mem_singleton.mp hdone]
          exact hgroup.2 panel hpanel
    | error err world =>
        rw [hrun] at hgroup
        exact hstart.fewer.trans hgroup

theorem Intact.removeDashboard (h : Intact db) {groups : List PanelGroup}
    (hgroups : ∀ group ∈ groups, ∀ panel ∈ db.panels.docs, panelsOfGroup group panel = false)
    {query : DashBoard → Bool}
    (hquery : ∀ doc ∈ db.dashboards.docs, doc.isRemoved = false → query doc = true →
      doc.panelGroups = groups) (time : String) :
    Intact { db with dashboards := db.dashboards.update query (removeDashboard time) } := by
  refine ⟨fun dashboard hdashboard hlive => ?_, fun panel hpanel hlive => ?_⟩
  · rcases mem_updateFirst hdashboard with hsame | ⟨old, -, -, rfl⟩
    · exact h.sources dashboard hsame hlive
    · exact absurd hlive (by simp [Analytics.removeDashboard])
  · obtain ⟨dashboard, hdashboard, hdashboardLive, group, hgroup, hid⟩ := h.panels panel hpanel hlive
    have hnot : ¬ query dashboard = true := by
      intro hmatch
      rw [hquery dashboard hdashboard hdashboardLive hmatch] at hgroup
      have hgone := hgroups group hgroup panel hpanel
      simp [panelsOfGroup, hid, hlive] at hgone
    exact ⟨dashboard, mem_updateFirst_of_not hdashboard hnot, hdashboardLive, group, hgroup, hid⟩

theorem Intact.removeDataSource (h : Intact db) {id : String}
    (hno : ∀ doc ∈ db.dataSources.docs, doc.dsID = id →
      ∀ dashboard ∈ db.dashboards.docs, dashboard.isRemoved = false → dashboard.dsID ≠ some id)
    (time : String) :
    Intact { db with
      dataSources := db.dataSources.update (fun doc => doc.dsID = id) (removeDataSource time) } := by
  refine ⟨fun dashboard hdashboard hlive dsID hdsID => ?_, h.panels⟩
  rintro ⟨doc, hdoc, rfl, hremoved⟩
  rcases mem_updateFirst hdoc with hsame | ⟨old, hold, hmatch, rfl⟩
  · exact h.sources dashboard hdashboard hlive doc.dsID hdsID ⟨doc, hsame, rfl, hremoved⟩
  · have hid : old.dsID = id := of_decide_eq_true hmatch
    exact hno old hold hid dashboard hdashboard hlive (hid ▸ hdsID)

/-! ## Handlers that remove -/

theorem Intact.deleteDashboard (h : Intact before) {projectID : String} {dbID : Option String} :
    Reaches before (deleteDashboard env projectID dbID) Intact := by
  refine Reaches.bind_yields h (fun _ => triple_wrap yields_getDashboard) fun dashboard v hv hfound => ?_
  rw [hv] at hfound
  have hmem := List.mem_of_find?_eq_some hfound
  have hfoundLive : dashboard.projectID = projectID ∧ some dashboard.dbID = dbID ∧
      dashboard.isRemoved = false := by
    simpa [liveDashboard] using List.find?_some hfound
  have hloop := @triple_removePanelGroups env before (timestamp env) dashboard.panelGroups
    fun v => yields_timestamp.mono fun _ _ => trivial
  refine Triple.bind (hloop.mono (fun world hworld => hworld ▸ Fewer.refl before) (fun _ _ hs => hs)
    fun world hworld => h.fewer hworld) fun _ => ?_
  refine @triple_bind_yields _ _ _ _ (Emptied before dashboard.panelGroups) _ _ _
    (fun _ => yields_timestamp) (fun world hworld => h.fewer hworld.fewer) fun time _ _ _ => triple_wrap ?_
  refine @triple_write_one env (Emptied before dashboard.panelGroups) Intact Intact _
    (fun db hdb => h.fewer hdb.fewer) (fun db hdb => ?_) fun _ hdb => hdb
  refine (h.fewer hdb.fewer).removeDashboard hdb.empty (fun doc hdoc _ hquery => ?_) time
  have hid : some doc.dbID = some dashboard.dbID := (of_decide_eq_true hquery).trans hfoundLive.2.1.symm
  rw [hdb.fewer.dashboards] at hdoc
  rw [before.dashboards.eq_of_key hdoc hmem (Option.some.inj hid)]

/-- The dashboards that a forced removal has gone over are removed. -/
structure Detached (before : Database) (removed : List DashBoard) (db : Database) : Prop where
  intact : Intact db
  dataSources : db.dataSources = before.dataSources
  dashboards : ∀ doc ∈ db.dashboards.docs, doc.isRemoved = false →
    doc ∈ before.dashboards.docs ∧ doc ∉ removed

theorem Detached.step {front : List DashBoard} {dashboard : DashBoard} {time : String}
    (hdashboard : dashboard ∈ before.dashboards.docs) :
    Triple (fun world => Detached before front world.db)
      (do
        dashboard.panelGroups.forM (removePanelGroup env (return time))
        wrap "failed to delete dashboard, error: "
          (updateDashboard env (fun doc => doc.dbID = dashboard.dbID) (removeDashboard time)))
      (fun _ world => Detached before (front ++ [dashboard]) world.db)
      (fun world => Intact world.db) := by
  intro start hstart
  refine (?_ : Triple (fun world => world.db = start.db) _ _ _) start rfl
  have hloop := @triple_removePanelGroups env start.db (return time) dashboard.panelGroups
    fun v => Yields.pure trivial
  refine Triple.bind (hloop.mono (fun world hworld => hworld ▸ Fewer.refl start.db) (fun _ _ hs => hs)
    fun world hworld => hstart.intact.fewer hworld) fun _ => triple_wrap ?_
  have hquery : ∀ doc ∈ start.db.dashboards.docs, doc.isRemoved = false →
      decide (doc.dbID = dashboard.dbID) = true → doc = dashboard := fun doc hdoc hlive hmatch =>
    before.dashboards.eq_of_key (hstart.dashboards doc hdoc hlive).1 hdashboard (of_decide_eq_true hmatch)
  refine @triple_write_one env (Emptied start.db dashboard.panelGroups) (Detached before _) Intact _
    (fun db hdb => hstart.intact.fewer hdb.fewer) (fun db hdb => ?_) fun _ hdb => hdb.intact
  have hintact := (hstart.intact.fewer hdb.fewer).removeDashboard hdb.empty (fun doc hdoc hlive hmatch => by
    rw [hquery doc (hdb.fewer.dashboards ▸ hdoc) hlive hmatch]) time
  refine ⟨hintact, hdb.fewer.dataSources.trans hstart.dataSources, fun doc hdoc hlive => ?_⟩
  have hfixes : ∀ doc : DashBoard, decide (doc.dbID = dashboard.dbID) = true →
      doc.dbID = dashboard.dbID := fun doc hmatch => of_decide_eq_true hmatch
  rcases Documents.mem_update dashboard.dbID hfixes hdoc with ⟨hsame, hnot⟩ | ⟨old, -, -, rfl⟩
  · rw [hdb.fewer.dashboards] at hsame
    obtain ⟨hmem, hfront⟩ := hstart.dashboards doc hsame hlive
    refine ⟨hmem, fun hdone => ?_⟩
    rcases List.mem_append.mp hdone with hdone | hdone
    · exact hfront hdone
    · rw [List.mem_singleton.mp hdone] at hnot
      simp at hnot
  · exact absurd hlive (by simp [Analytics.removeDashboard])

theorem Intact.deleteDataSource (h : Intact before) {projectID : String} {input : DeleteDSInput}
    (hshown : (input.forceDelete = true ∨ ∀ doc ∈ before.dashboards.docs,
        attached projectID input.dsID doc = false) →
      ∀ doc ∈ before.dataSources.docs, doc.dsID = input.dsID →
        ∀ dashboard ∈ before.dashboards.docs, dashboard.isRemoved = false →
          dashboard.dsID = some input.dsID → dashboard.projectID = projectID) :
    Reaches before (deleteDataSource env projectID input) Intact := by
  refine Reaches.bind_yields h (fun _ => yields_timestamp) fun time _ _ _ => ?_
  refine Reaches.bind_yields h (fun _ => triple_wrap yields_listDashboard) fun dashboards v hv hlisted => ?_
  rw [hv] at hlisted
  have hstart : ∀ world : World, world.db = before → Detached before [] world.db := by
    intro world hworld
    rw [hworld]
    exact ⟨h, rfl, fun doc hdoc _ => ⟨hdoc, List.not_mem_nil⟩⟩
  have hremove : (input.forceDelete = true ∨ ∀ doc ∈ before.dashboards.docs,
      attached projectID input.dsID doc = false) →
      Triple (fun world => Detached before dashboards world.db)
        (wrap "failed to delete datasource, error: "
          (updateDataSource env (fun doc => doc.dsID = input.dsID) (Analytics.removeDataSource time)))
        (fun _ world => Intact world.db) (fun world => Intact world.db) := by
    intro hreached
    refine triple_wrap (@triple_write_one env (Detached before dashboards) Intact Intact _
      (fun db hdb => hdb.intact) (fun db hdb => ?_) fun _ hdb => hdb)
    refine hdb.intact.removeDataSource (fun doc hdoc hid dashboard hdashboard hlive hshows => ?_) time
    obtain ⟨hmem, hleft⟩ := hdb.dashboards dashboard hdashboard hlive
    have hproject := hshown hreached doc (hdb.dataSources ▸ hdoc) hid dashboard hmem hlive hshows
    apply hleft
    rw [hlisted, List.mem_filter]
    exact ⟨hmem, by simp [attached, hproject, hshows, hlive]⟩
  refine Triple.ite (fun hforce => Triple.bind ?_ fun _ => hremove (.inl hforce)) fun hforce => ?_
  · have hloop := @Triple.forM_prefix World GoError DashBoard (fun world => Intact world.db)
      (fun dashboard => do
        dashboard.panelGroups.forM (removePanelGroup env (return time))
        wrap "failed to delete dashboard, error: "
          (updateDashboard env (fun doc => doc.dbID = dashboard.dbID) (Analytics.removeDashboard time)))
      dashboards (fun front world => Detached before front world.db) fun front dashboard back hsplit => ?_
    · exact hloop.mono hstart (fun _ _ hs => hs) fun _ hs => hs
    · have hdashboard : dashboard ∈ dashboards := by simp [hsplit]
      rw [hlisted, List.mem_filter] at hdashboard
      exact Detached.step hdashboard.1
  · refine Triple.ite (fun _ => Triple.throw fun world hworld => hworld ▸ h) fun hnone => ?_
    rw [not_not] at hnone
    rw [hnone] at hremove hlisted
    refine (hremove (.inr fun doc hdoc => ?_)).mono hstart (fun _ _ hs => hs) fun _ hs => hs
    have hnot := List.filter_eq_nil_iff.mp hlisted.symm doc hdoc
    simpa using hnot

/-! ## A new dashboard -/

/-- The request comes to its first write: it has its pointers, and some panel. -/
def CreateDBInput.Writes (dashboard : CreateDBInput) : Prop :=
  dashboard.dbInformation ≠ none ∧
    (∀ group ∈ dashboard.panelGroups, ∃ group', group = some group' ∧ ∀ panel ∈ group'.panels, panel ≠ none) ∧
    ∃ group, some group ∈ dashboard.panelGroups ∧ group.panels ≠ []

/-- The panels are written whole, and the dashboard after them. -/
def WritesWhole (env : Env) : Prop :=
  ∀ written, (env.cut = some (0, written) → written = 0) ∧ (env.cut = some (1, written) → 0 < written)

/-- No dashboard has one of the new ids. -/
def NewDashboards (env : Env) (db : Database) : Prop :=
  ∀ n, ∀ doc ∈ db.dashboards.docs, doc.dbID ≠ env.uuid n

structure WithPanels (before : Database) (groups : List PanelGroup) (db : Database) : Prop where
  dataSources : db.dataSources = before.dataSources
  dashboards : db.dashboards = before.dashboards
  panels : ∀ panel ∈ db.panels.docs, panel ∈ before.panels.docs ∨
    ∃ group ∈ groups, panel.panelGroupID = some group.panelGroupID

theorem WithPanels.refl (db : Database) (groups : List PanelGroup) : WithPanels db groups db :=
  ⟨rfl, rfl, fun _ h => .inl h⟩

theorem WithPanels.add {groups : List PanelGroup} (h : WithPanels before groups db) {panel : Panel}
    (hpanel : ∃ group ∈ groups, panel.panelGroupID = some group.panelGroupID) :
    WithPanels before groups { db with panels := db.panels.add panel } := by
  refine { h with panels := fun other hother => ?_ }
  rcases Documents.docs_add db.panels panel with hsame | hnew
  · exact h.panels other (hsame ▸ hother)
  · rw [show (db.panels.add panel).docs = db.panels.docs ++ [panel] from hnew] at hother
    rcases List.mem_append.mp hother with hold | hadded
    · exact h.panels other hold
    · rw [List.mem_singleton.mp hadded]
      exact .inr hpanel

theorem Intact.addDashboard (h : Intact before) {dashboard : DashBoard}
    (hpanels : WithPanels before dashboard.panelGroups db) (hlive : dashboard.isRemoved = false)
    (hsource : ∀ id ∈ dashboard.dsID, ¬ RemovedSource before id)
    (hnew : ∀ doc ∈ before.dashboards.docs, doc.dbID ≠ dashboard.dbID) :
    Intact { db with dashboards := db.dashboards.add dashboard } := by
  have hfresh : dashboard.dbID ∉ db.dashboards.docs.map (·.dbID) := by
    rw [hpanels.dashboards, List.mem_map]
    rintro ⟨doc, hdoc, hid⟩
    exact hnew doc hdoc hid
  have hdocs : (db.dashboards.add dashboard).docs = before.dashboards.docs ++ [dashboard] := by
    rw [Documents.docs_add_of_notMem _ hfresh, hpanels.dashboards]
  refine ⟨fun doc hdoc hdocLive id hid => ?_, fun panel hpanel hpanelLive => ?_⟩
  · have hsources : ∀ id, RemovedSource { db with dashboards := db.dashboards.add dashboard } id →
        RemovedSource before id := by
      intro id hremoved
      unfold RemovedSource at hremoved
      rwa [hpanels.dataSources] at hremoved
    rw [hdocs, List.mem_append, List.mem_singleton] at hdoc
    rcases hdoc with hold | rfl
    · exact fun hremoved => h.sources doc hold hdocLive id hid (hsources id hremoved)
    · exact fun hremoved => hsource id hid (hsources id hremoved)
  · unfold Listed
    rw [hdocs]
    rcases hpanels.panels panel hpanel with hold | ⟨group, hgroup, hid⟩
    · obtain ⟨doc, hdoc, hdocLive, hgroup⟩ := h.panels panel hold hpanelLive
      exact ⟨doc, by simp [hdoc], hdocLive, hgroup⟩
    · exact ⟨dashboard, by simp, hlive, group, hgroup, hid⟩

theorem Intact.createDashboard (h : Intact before) {dashboard : CreateDBInput}
    (hwrites : dashboard.Writes → ¬ RemovedSource before dashboard.dsID ∧ WritesWhole env)
    (hnew : NewDashboards env before) :
    Triple (fun world => world.seen = (before, 0)) (createDashboard env dashboard)
      (fun _ world => Intact world.db) (fun world => Intact world.db) := by
  have hseen : ∀ world : World, world.seen = (before, 0) → Intact world.db := by
    intro world hworld
    rw [show world.db = before from congrArg Prod.fst hworld]
    exact h
  refine triple_bind_seen yields_newUUID hseen fun dbID hdbID => ?_
  refine triple_bind_seen yields_deref hseen fun dbInformation hinformation => ?_
  refine triple_bind_seen yields_timestamp hseen fun createdAt _ => ?_
  refine triple_bind_seen yields_timestamp hseen fun updatedAt _ => ?_
  refine triple_bind_seen yields_createPanelGroups hseen fun created hcreated => ?_
  have hreached : created.flatMap (·.2) ≠ [] → dashboard.Writes := by
    intro hne
    obtain ⟨panel, hpanel⟩ := List.exists_mem_of_ne_nil _ hne
    obtain ⟨pair, hpair, hpanel⟩ := List.mem_flatMap.mp hpanel
    refine ⟨by simp [hinformation], fun group hgroup => ?_, ?_⟩
    · obtain ⟨_, -, group', rfl, -, hpanels⟩ := exists_right_of_forall₂ hcreated hgroup
      refine ⟨group', rfl, fun panel hpanel => ?_⟩
      obtain ⟨_, -, hsome, -⟩ := exists_right_of_forall₂ hpanels hpanel
      exact hsome
    · obtain ⟨_, hgroup, group', rfl, -, hpanels⟩ := exists_left_of_forall₂ hcreated hpair
      obtain ⟨request, hrequest, -⟩ := exists_left_of_forall₂ hpanels hpanel
      exact ⟨group', hgroup, List.ne_nil_of_mem hrequest⟩
  have hin : ∀ panel ∈ created.flatMap (·.2), ∃ group ∈ created.map (·.1),
      panel.panelGroupID = some group.panelGroupID := by
    intro panel hpanel
    obtain ⟨pair, hpair, hpanel⟩ := List.mem_flatMap.mp hpanel
    obtain ⟨_, -, _, -, -, hpanels⟩ := exists_left_of_forall₂ hcreated hpair
    obtain ⟨_, -, -, hid⟩ := exists_left_of_forall₂ hpanels hpanel
    exact ⟨pair.1, List.mem_map_of_mem hpair, hid⟩
  have hinsert : Triple (fun world => world.seen = (before, 0))
      (insertPanel env (created.flatMap (·.2)))
      (fun _ world => dashboard.Writes ∧ WithPanels before (created.map (·.1)) world.seen.1 ∧
        world.seen.2 = 1) (fun world => Intact world.db) := by
    refine Triple.ite (fun _ => Triple.throw hseen) fun hne => ?_
    have hdashboard := hreached hne
    refine @triple_write env _ (fun v => v = (before, 0))
      (fun v => dashboard.Writes ∧ WithPanels before (created.map (·.1)) v.1 ∧ v.2 = 1)
      (fun v => Intact v.1) (fun db n hv _ => ?_) fun db n written hv hcut => ?_
    · obtain ⟨rfl, rfl⟩ := Prod.mk.inj hv
      refine ⟨hdashboard, keeps_applySteps (fun step hstep db hdb => ?_) (WithPanels.refl _ _), rfl⟩
      obtain ⟨panel, hpanel, rfl⟩ := List.mem_map.mp hstep
      exact hdb.add (hin panel hpanel)
    · obtain ⟨rfl, rfl⟩ := Prod.mk.inj hv
      rw [((hwrites hdashboard).2 written).1 hcut]
      exact h
  refine Triple.bind (triple_orElse hinsert) fun _ => Triple.of_and fun hdashboard => ?_
  obtain ⟨hsource, hwhole⟩ := hwrites hdashboard
  have hinsertDashboard : ∀ doc : DashBoard, doc.dbID = dbID → doc.dsID = some dashboard.dsID →
      doc.isRemoved = false → doc.panelGroups = created.map (·.1) →
      Triple (fun world => WithPanels before (created.map (·.1)) world.seen.1 ∧ world.seen.2 = 1)
        (insertDashBoard env doc) (fun _ world => Intact world.db) (fun world => Intact world.db) := by
    intro doc hid hdsID hlive hgroups
    have hadd : ∀ db, WithPanels before (created.map (·.1)) db →
        Intact { db with dashboards := db.dashboards.add doc } := by
      intro db hdb
      obtain ⟨n, hn⟩ := hdbID
      refine h.addDashboard (hgroups ▸ hdb) hlive (fun id hmem => ?_) fun other hother => ?_
      · rw [hdsID, Option.mem_some_iff] at hmem
        exact hmem ▸ hsource
      · rw [hid, hn]
        exact hnew n other hother
    refine @triple_write env [fun db => { db with dashboards := db.dashboards.add doc }]
      (fun v => WithPanels before (created.map (·.1)) v.1 ∧ v.2 = 1) (fun v => Intact v.1) (fun v => Intact v.1) (fun db n hv _ => hadd db hv.1)
      fun db n written hv hcut => ?_
    obtain rfl : n = 1 := hv.2
    obtain ⟨written, rfl⟩ := Nat.exists_eq_add_one.mpr ((hwhole written).2 hcut)
    simpa [applySteps] using hadd db hv.1
  exact Triple.bind (triple_orElse (hinsertDashboard _ rfl rfl rfl rfl)) fun _ =>
    Keeps.of_yields fun _ => triple_wrap yields_read

end LitmusPortal.Analytics
