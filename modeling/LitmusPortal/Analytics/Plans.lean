import LitmusPortal.Analytics.Calls

/-!
# What the handlers plan to write

The panels that a request asks for, those that an update of a dashboard leaves out, and the handlers
that keep a property which each of their writes keeps.
-/

namespace LitmusPortal.Analytics

open DocumentStore Program

variable {env : Env}

/-! ## What a request asks for -/

def MayEdit (caller : Caller) (projectID : String) : Prop :=
  projectID = caller.projectID ∧ caller.role ∈ mutationRoles

theorem yields_validateRole {caller : Caller} {projectID : String} {v : Database × Nat} :
    Yields World.seen v (validateRole caller projectID) fun _ => MayEdit caller projectID :=
  Yields.ite (fun hmay => Yields.pure hmay) fun _ => Yields.throw

def idOf (panel : Option PanelInput) : Option String :=
  panel.bind fun panel => panel.panelID.filter fun id => id ≠ ""

def UpdateDBInput.panelIDs (dashboard : UpdateDBInput) : List String :=
  dashboard.panelGroups.flatMap fun group => (group.elim [] (·.panels)).filterMap idOf

def HasPanel (db : Database) (id : String) : Prop := ∃ panel ∈ db.panels.docs, panel.panelID = id

/-- The id that `UpdatePanel` writes under, if the ids of the panel pass its check. -/
def checkedID (panel : Option PanelInput) : Option String :=
  panel.bind fun panel => panel.panelID.bind fun id =>
    if id = "" ∧ (panel.panelGroupID = none ∨ panel.panelGroupID = some "") then none else some id

/-- The update of a panel that is planned has its pointers. -/
def Planned (panel : Option PanelInput) : Prop :=
  ∃ panel', panel = some panel' ∧ ∃ id, panel'.panelID = some id ∧
    (id ≠ "" → panel'.createdAt ≠ none)

theorem ne_empty_of_mem_panelIDs {dashboard : UpdateDBInput} {id : String}
    (h : id ∈ dashboard.panelIDs) : id ≠ "" := by
  obtain ⟨group, -, hid⟩ := List.mem_flatMap.mp h
  obtain ⟨panel, -, hpanel⟩ := List.mem_filterMap.mp hid
  obtain ⟨panel', -, hfilter⟩ := Option.bind_eq_some_iff.mp hpanel
  simpa using (Option.filter_eq_some_iff.mp hfilter).2

/-! ## New panels -/

/-- A new group, with a panel in it for each one of the request. -/
def CreatedGroup (env : Env) (group : Option PanelGroupInput) (created : PanelGroup × List Panel) : Prop :=
  ∃ group', group = some group' ∧ (∃ n, created.1.panelGroupID = env.uuid n) ∧
    List.Forall₂ (fun panel doc => panel ≠ none ∧ doc.panelGroupID = some created.1.panelGroupID)
      group'.panels created.2

theorem yields_createPanel {v : Database × Nat} {id : String} {panel : Option PanelInput} :
    Yields World.seen v (createPanel env id panel)
      fun doc => panel ≠ none ∧ doc.panelGroupID = some id := by
  refine Yields.bind yields_deref fun _ hpanel => ?_
  refine Yields.bind yields_copy fun _ _ => ?_
  refine Yields.bind yields_copy fun _ _ => ?_
  refine Yields.bind yields_newUUID fun _ _ => ?_
  refine Yields.bind yields_timestamp fun _ _ => ?_
  exact Yields.bind yields_timestamp fun _ _ => Yields.pure ⟨by simp [hpanel], rfl⟩

theorem yields_createPanelGroups {v : Database × Nat} {groups : List (Option PanelGroupInput)} :
    Yields World.seen v (groups.mapM (createPanelGroup env)) (List.Forall₂ (CreatedGroup env) groups) := by
  refine Yields.mapM fun group _ => ?_
  refine Yields.bind yields_newUUID fun id hid => ?_
  refine Yields.bind yields_deref fun group' hgroup => ?_
  refine Yields.bind (Yields.mapM fun _ _ => yields_createPanel) fun panels hpanels => Yields.pure ?_
  exact ⟨group', hgroup, hid, hpanels⟩

/-! ## Panels of an update -/

theorem yields_checkPanelIDs {v : Database × Nat} {panel : PanelInput} :
    Yields World.seen v (checkPanelIDs panel) fun id => checkedID (some panel) = some id := by
  refine Yields.bind yields_deref fun id hid => ?_
  refine Yields.ite (fun hempty => ?_) fun hne => ?_
  · refine Yields.bind yields_deref fun groupID hgroup => ?_
    refine Yields.ite (fun _ => Yields.throw) fun hgroupNe => Yields.pure ?_
    simp [checkedID, hid, hgroup, hgroupNe]
  · exact Yields.pure (by simp [checkedID, hid, hne])

/-- The panel that is planned for one of the request. -/
def PlannedAs (env : Env) (panelGroupID : String) (panel : Option PanelInput) (planned : Bool × Panel) :
    Prop :=
  Planned panel ∧ planned.2.isRemoved = false ∧ planned.2.panelGroupID = some panelGroupID ∧
    if planned.1 then idOf panel = none ∧ ∃ n, planned.2.panelID = env.uuid n
    else idOf panel = some planned.2.panelID

theorem yields_planPanel {v : Database × Nat} {panelGroupID : String} {panel : Option PanelInput} :
    Yields World.seen v (planPanel env panelGroupID panel) (PlannedAs env panelGroupID panel) := by
  refine Yields.bind yields_deref fun panel' hpanel => ?_
  refine Yields.bind yields_deref fun givenID hgiven => ?_
  subst hpanel
  by_cases hnew : givenID = ""
  · simp only [hnew, if_true]
    refine Yields.bind yields_newUUID fun id hid => ?_
    refine Yields.bind yields_timestamp fun _ _ => ?_
    refine Yields.bind yields_timestamp fun _ _ => ?_
    refine Yields.bind yields_copy fun _ _ => ?_
    refine Yields.bind yields_copy fun _ _ => Yields.pure ?_
    simp [PlannedAs, Planned, idOf, hgiven, hnew, hid]
  · simp only [hnew, if_false]
    refine Yields.bind (Yields.pure (rfl : givenID = givenID)) fun id hid => ?_
    subst hid
    refine Yields.bind yields_deref fun createdAt hcreated => ?_
    refine Yields.bind yields_timestamp fun _ _ => ?_
    refine Yields.bind yields_copy fun _ _ => ?_
    refine Yields.bind yields_copy fun _ _ => Yields.pure ?_
    simp [PlannedAs, Planned, idOf, hgiven, hnew, hcreated]

def PlannedGroup (env : Env) (group : Option UpdatePanelGroupInput)
    (planned : PanelGroup × List (Bool × Panel)) : Prop :=
  ∃ group', group = some group' ∧
    (planned.1.panelGroupID = group'.panelGroupID ∧ group'.panelGroupID ≠ "" ∨
      group'.panelGroupID = "" ∧ ∃ n, planned.1.panelGroupID = env.uuid n) ∧
    List.Forall₂ (PlannedAs env planned.1.panelGroupID) group'.panels planned.2

theorem yields_planPanelGroups {v : Database × Nat} {groups : List (Option UpdatePanelGroupInput)} :
    Yields World.seen v (groups.mapM (planPanelGroup env)) (List.Forall₂ (PlannedGroup env) groups) := by
  refine Yields.mapM fun group _ => Yields.bind yields_deref fun group' hgroup => ?_
  have hrest : ∀ id, (id = group'.panelGroupID ∧ group'.panelGroupID ≠ "" ∨
        group'.panelGroupID = "" ∧ ∃ n, id = env.uuid n) →
      Yields World.seen v (do
        let panels ← group'.panels.mapM (planPanel env id)
        return ((⟨group'.panelGroupName, id⟩ : PanelGroup), panels)) (PlannedGroup env group) := by
    intro id hid
    refine Yields.bind (Yields.mapM fun _ _ => yields_planPanel) fun panels hpanels => Yields.pure ?_
    exact ⟨group', hgroup, hid, hpanels⟩
  refine Yields.ite (fun hempty => Yields.bind yields_newUUID fun id hid => hrest id (.inr ⟨hempty, hid⟩))
    fun hne => ?_
  exact Yields.bind (Yields.pure (rfl : group'.panelGroupID = group'.panelGroupID)) fun id hid =>
    hrest id (.inl ⟨hid.symm, hne⟩)

theorem updateIDs_of_plannedAs {panelGroupID : String} {panels : List (Option PanelInput)}
    {planned : List (Bool × Panel)} (h : List.Forall₂ (PlannedAs env panelGroupID) panels planned) :
    (planned.filter (!·.1)).map (·.2.panelID) = panels.filterMap idOf := by
  induction h with
  | nil => rfl
  | @cons panel planned panels rest hplanned _ ih =>
      obtain ⟨isNew, doc⟩ := planned
      obtain ⟨-, -, -, hid⟩ := hplanned
      cases isNew with
      | true =>
          have hnone : idOf panel = none := hid.1
          simpa [hnone] using ih
      | false =>
          have hsome : idOf panel = some doc.panelID := hid
          simpa [hsome] using ih

theorem updateIDs_eq {groups : List (Option UpdatePanelGroupInput)}
    {plan : List (PanelGroup × List (Bool × Panel))} (h : List.Forall₂ (PlannedGroup env) groups plan) :
    ((plan.flatMap (·.2)).filter (!·.1)).map (·.2.panelID) =
      groups.flatMap fun group => (group.elim [] (·.panels)).filterMap idOf := by
  induction h with
  | nil => rfl
  | @cons group planned groups rest hplanned _ ih =>
      obtain ⟨group', rfl, -, hpanels⟩ := hplanned
      have hfirst := updateIDs_of_plannedAs hpanels
      simp only [List.flatMap_cons, List.filter_append, List.map_append, hfirst, ih]
      rfl

theorem plannedAs_of_mem {groups : List (Option UpdatePanelGroupInput)}
    {plan : List (PanelGroup × List (Bool × Panel))} (h : List.Forall₂ (PlannedGroup env) groups plan)
    {planned : Bool × Panel} (hplanned : planned ∈ plan.flatMap (·.2)) :
    ∃ group ∈ plan.map (·.1), ∃ panel, PlannedAs env group.panelGroupID panel planned := by
  obtain ⟨group, hgroup, hmem⟩ := List.mem_flatMap.mp hplanned
  obtain ⟨_, -, _, -, -, hlist⟩ := exists_left_of_forall₂ h hgroup
  obtain ⟨panel, -, hpanel⟩ := exists_left_of_forall₂ hlist hmem
  exact ⟨group.1, List.mem_map_of_mem hgroup, panel, hpanel⟩

theorem yields_planRemovals {v : Database × Nat} {ids : List String} {group : PanelGroup} :
    Yields World.seen v (planRemovals env ids group)
      (List.Forall₂ (fun doc removal => removal.panelID = doc.panelID ∧ removal.isRemoved = true)
        ((v.1.panels.docs.filter (panelsOfGroup group)).filter fun panel => panel.panelID ∉ ids)) := by
  refine Yields.bind (triple_wrap yields_listPanel) fun panels hpanels => ?_
  refine Yields.bind yields_copy fun copied hcopied => ?_
  subst hpanels hcopied
  refine Yields.mapM fun panel _ => ?_
  refine Yields.bind yields_copy fun _ _ => ?_
  refine Yields.bind yields_copy fun _ _ => ?_
  exact Yields.bind yields_timestamp fun _ _ => Yields.pure ⟨rfl, rfl⟩

theorem planned_of_plannedAs {groups : List (Option UpdatePanelGroupInput)}
    {plan : List (PanelGroup × List (Bool × Panel))} (h : List.Forall₂ (PlannedGroup env) groups plan) :
    ∀ group ∈ groups, ∃ group', group = some group' ∧ ∀ panel ∈ group'.panels, Planned panel := by
  intro group hgroup
  obtain ⟨_, -, group', rfl, -, hlist⟩ := exists_right_of_forall₂ h hgroup
  refine ⟨group', rfl, fun panel hpanel => ?_⟩
  obtain ⟨_, -, hplanned, -⟩ := exists_right_of_forall₂ hlist hpanel
  exact hplanned

/-! ## Properties of the data sources and dashboards

The panels that a handler writes are left out of these.
-/

section PanelFree

variable {inv : Database → Prop} {projectID : String}

theorem Keeps.createDataSource {datasource : DSInput}
    (h : ∀ doc db, doc.isRemoved = false → inv db → inv { db with dataSources := db.dataSources.add doc }) :
    Keeps inv (createDataSource env datasource) := by
  refine Triple.ite (fun _ => ?_) fun _ => Keeps.throw
  refine Keeps.bind_yields (fun _ => yields_newUUID) fun _ _ _ _ => ?_
  refine Keeps.bind_yields (fun _ => yields_deref) fun _ _ _ _ => ?_
  refine Keeps.bind_yields (fun _ => yields_timestamp) fun _ _ _ _ => ?_
  refine Keeps.bind_yields (fun _ => yields_timestamp) fun _ _ _ _ => ?_
  exact Keeps.bind (keeps_write_one fun db hdb => h _ db rfl hdb) fun _ => Keeps.pure

theorem Keeps.updateDataSourceHandler {datasource : DSInput}
    (h : ∀ id ∈ datasource.dsID, id ≠ "" → ∀ time db, inv db → inv { db with
      dataSources := db.dataSources.update (fun doc => doc.dsID = id) (setDataSource datasource time) }) :
    Keeps inv (updateDataSourceHandler env datasource) := by
  refine Keeps.bind_yields (fun _ => yields_timestamp) fun time _ _ _ => ?_
  split
  · exact Keeps.throw
  · exact Keeps.throw
  · next id hne hid =>
      refine Triple.ite (fun _ => ?_) fun _ => Keeps.throw
      exact keeps_write_one fun db hdb => h id hid hne time db hdb

theorem Keeps.updatePanelHandler {panels : List (Option PanelInput)}
    (h : ∀ db id change, inv db → inv { db with
      panels := db.panels.update (fun doc => doc.panelID = id) change }) :
    Keeps inv (updatePanelHandler env panels) := by
  refine Keeps.forM fun panel _ => ?_
  refine Keeps.bind_yields (fun _ => yields_timestamp) fun _ _ _ _ => ?_
  refine Keeps.bind_yields (fun _ => yields_deref) fun _ _ _ _ => ?_
  refine Keeps.bind_yields (fun _ => yields_checkPanelIDs) fun _ _ _ _ => ?_
  refine Keeps.bind_yields (fun _ => yields_copy) fun _ _ _ _ => ?_
  refine Keeps.bind_yields (fun _ => yields_copy) fun _ _ _ _ => ?_
  exact keeps_updatePanel fun db hdb => h db _ _ hdb

variable (hpanels : ∀ db panels, inv db → inv { db with panels := panels })

include hpanels

theorem Keeps.createDashboard {dashboard : CreateDBInput}
    (h : ∀ (doc : DashBoard) db, doc.projectID = dashboard.projectID → doc.dsID = some dashboard.dsID →
      (∀ group ∈ doc.panelGroups, ∃ n, group.panelGroupID = env.uuid n) → inv db →
        inv { db with dashboards := db.dashboards.add doc }) :
    Keeps inv (createDashboard env dashboard) := by
  refine Keeps.bind_yields (fun _ => yields_newUUID) fun _ _ _ _ => ?_
  refine Keeps.bind_yields (fun _ => yields_deref) fun _ _ _ _ => ?_
  refine Keeps.bind_yields (fun _ => yields_timestamp) fun _ _ _ _ => ?_
  refine Keeps.bind_yields (fun _ => yields_timestamp) fun _ _ _ _ => ?_
  refine Keeps.bind_yields (fun _ => yields_createPanelGroups) fun created _ _ hcreated => ?_
  refine Keeps.bind (triple_orElse (keeps_insertPanel fun _ _ db hdb => hpanels db _ hdb)) fun _ => ?_
  refine Keeps.bind (triple_orElse (keeps_write_one fun db hdb => h _ db rfl rfl ?_ hdb)) fun _ => ?_
  · intro group hgroup
    obtain ⟨pair, hpair, rfl⟩ := List.mem_map.mp hgroup
    obtain ⟨_, -, _, -, hnew, -⟩ := exists_left_of_forall₂ hcreated hpair
    exact hnew
  · exact Keeps.of_yields fun _ => triple_wrap yields_read

def GroupOfUpdate (env : Env) (dashboard : UpdateDBInput) (group : PanelGroup) : Prop :=
  (∃ group', some group' ∈ dashboard.panelGroups ∧ group.panelGroupID = group'.panelGroupID ∧
    group'.panelGroupID ≠ "") ∨ ∃ n, group.panelGroupID = env.uuid n

theorem Keeps.updateDashBoard {dashboard : UpdateDBInput} {chaosQueryUpdate : Bool}
    (hchaos : ∀ time db, inv db → inv { db with
      dashboards := db.dashboards.update (liveDashboard projectID (some dashboard.dbID))
        (setChaosQueries dashboard time) })
    (h : chaosQueryUpdate = false → ∀ groups, (∀ group ∈ groups, GroupOfUpdate env dashboard group) →
      ∀ time db, inv db → inv { db with
        dashboards := db.dashboards.update (liveDashboard projectID (some dashboard.dbID))
          (setDashboard dashboard groups time) }) :
    Keeps inv (updateDashBoard env projectID dashboard chaosQueryUpdate) := by
  refine Keeps.bind_yields (fun _ => yields_timestamp) fun time _ _ _ => ?_
  refine Triple.ite (fun _ => Keeps.throw) fun _ => ?_
  refine Triple.ite (fun _ => keeps_write_one fun db hdb => hchaos time db hdb) fun hno => ?_
  refine Keeps.bind_yields (fun _ => yields_planPanelGroups) fun plan _ _ hplan => ?_
  refine Keeps.bind_yields (fun _ => triple_wrap yields_getDashboard) fun _ _ _ _ => ?_
  refine Keeps.bind_yields (fun _ => Yields.mapM fun _ _ => yields_planRemovals) fun removals _ _ _ => ?_
  have hgroups : ∀ group ∈ plan.map (·.1), GroupOfUpdate env dashboard group := by
    intro group hgroup
    obtain ⟨planned, hplanned, rfl⟩ := List.mem_map.mp hgroup
    obtain ⟨request, hrequest, group', rfl, hid, -⟩ := exists_left_of_forall₂ hplan hplanned
    exact hid.imp (fun hgiven => ⟨group', hrequest, hgiven⟩) And.right
  have hwrites : ∀ u : Unit, Keeps inv (do
      ((((plan.flatMap (·.2)).filter (!·.1)).map (·.2)) ++ removals.flatten).forM (writePanel env)
      updateDashboard env (liveDashboard projectID (some dashboard.dbID))
        (setDashboard dashboard (plan.map (·.1)) time)) := by
    refine fun _ => Keeps.bind (Keeps.forM fun panel _ => ?_)
      fun _ => keeps_write_one fun db hdb => h (by simpa using hno) _ hgroups time db hdb
    refine Keeps.bind_yields (fun _ => yields_timestamp) fun _ _ _ _ => ?_
    refine Triple.ite (fun _ => Keeps.throw) fun _ => ?_
    refine Keeps.bind_yields (fun _ => yields_copy) fun _ _ _ _ => ?_
    refine Keeps.bind_yields (fun _ => yields_copy) fun _ _ _ _ => ?_
    exact keeps_updatePanel fun db hdb => hpanels db _ hdb
  refine Triple.ite (fun _ => ?_) fun _ => hwrites ()
  exact Keeps.bind (triple_orElse (keeps_insertPanel fun _ _ db hdb => hpanels db _ hdb)) hwrites

theorem Keeps.deleteDashboard {dbID : Option String}
    (h : ∀ time db, inv db → inv { db with
      dashboards := db.dashboards.update (fun doc => some doc.dbID = dbID) (removeDashboard time) }) :
    Keeps inv (deleteDashboard env projectID dbID) := by
  refine Keeps.bind_yields (fun _ => triple_wrap yields_getDashboard) fun dashboard _ _ _ => ?_
  refine Keeps.bind (Keeps.forM fun group _ => ?_) fun _ => ?_
  · exact Keeps.removePanelGroup (fun v => yields_timestamp.mono fun _ _ => trivial)
      fun _ _ _ _ _ db _ hdb => hpanels db _ hdb
  · refine Keeps.bind_yields (fun _ => yields_timestamp) fun time _ _ _ => triple_wrap ?_
    exact keeps_write_one fun db hdb => h time db hdb

theorem Keeps.deleteDataSource {input : DeleteDSInput}
    (hdashboard : ∀ id time db, inv db → inv { db with
      dashboards := db.dashboards.update (fun doc => doc.dbID = id) (removeDashboard time) })
    (h : ∀ time db, inv db → inv { db with
      dataSources := db.dataSources.update (fun doc => doc.dsID = input.dsID) (removeDataSource time) }) :
    Keeps inv (deleteDataSource env projectID input) := by
  refine Keeps.bind_yields (fun _ => yields_timestamp) fun time _ _ _ => ?_
  refine Keeps.bind_yields (fun _ => triple_wrap yields_listDashboard) fun dashboards _ _ _ => ?_
  have hremove : Keeps inv (wrap "failed to delete datasource, error: "
      (updateDataSource env (fun doc => doc.dsID = input.dsID) (removeDataSource time))) :=
    triple_wrap (keeps_write_one fun db hdb => h time db hdb)
  refine Triple.ite (fun _ => ?_) fun _ => Triple.ite (fun _ => Keeps.throw_bind) fun _ => hremove
  refine Keeps.bind (Keeps.forM fun dashboard _ => ?_)
    fun _ => hremove
  refine Keeps.bind (Keeps.forM fun group _ => ?_) fun _ => ?_
  · exact Keeps.removePanelGroup (fun v => Yields.pure trivial) fun _ _ _ _ _ db _ hdb => hpanels db _ hdb
  · exact triple_wrap (keeps_write_one fun db hdb => hdashboard dashboard.dbID time db hdb)

end PanelFree

end LitmusPortal.Analytics
