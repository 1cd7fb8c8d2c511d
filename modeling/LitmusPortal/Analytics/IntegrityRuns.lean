import LitmusPortal.Analytics.Integrity
import LitmusPortal.Lib.Transition

/-!
# Referential integrity over whole runs

What updates of panels and dashboards do to the references, and the calls that keep them. Where an
update of a dashboard is cut short, its panels are already in the groups of the request.
-/

namespace LitmusPortal.Analytics

open DocumentStore Program

variable {env : Env} {before db : Database}

/-! ## Updates of panels -/

/-- The panels are those of the start, and the live ones are in groups of then. -/
structure Regrouped (before db : Database) : Prop where
  dataSources : db.dataSources = before.dataSources
  dashboards : db.dashboards = before.dashboards
  panels : ∀ doc ∈ db.panels.docs, (doc.isRemoved = false → Listed before doc.panelGroupID) ∧
    ∃ old ∈ before.panels.docs, old.panelID = doc.panelID ∧ old.isRemoved = doc.isRemoved

theorem Intact.regrouped (h : Intact before) : Regrouped before before :=
  ⟨rfl, rfl, fun doc hdoc => ⟨h.panels doc hdoc, doc, hdoc, rfl, rfl⟩⟩

theorem Regrouped.intact (h : Intact before) (hregrouped : Regrouped before db) : Intact db := by
  obtain ⟨hsources, hdashboards, hpanels⟩ := hregrouped
  refine ⟨?_, fun panel hpanel hlive => ?_⟩
  · unfold RemovedSource
    rw [hsources, hdashboards]
    exact h.sources
  · unfold Listed
    rw [hdashboards]
    exact (hpanels panel hpanel).1 hlive

theorem Regrouped.update (h : Regrouped before db) {id : String} {panel : PanelInput} {time : String}
    (hlisted : ∀ doc ∈ before.panels.docs, doc.panelID = id → doc.isRemoved = false →
      Listed before panel.panelGroupID) :
    Regrouped before { db with
      panels := db.panels.update (fun doc => doc.panelID = id) (setPanelInput panel time) } := by
  refine { h with panels := fun doc hdoc => ?_ }
  rcases mem_updateFirst hdoc with hsame | ⟨current, hcurrent, hmatch, rfl⟩
  · exact h.panels doc hsame
  · obtain ⟨-, old, hold, hid, hremoved⟩ := h.panels current hcurrent
    refine ⟨fun hlive => ?_, old, hold, hid, hremoved⟩
    exact hlisted old hold (hid.trans (of_decide_eq_true hmatch)) (hremoved.trans hlive)

/-- The ids are looked up one after the other, up to the first that no panel has. -/
def ListsPanels (db : Database) (panels : List (Option PanelInput)) : Prop :=
  ∀ front panel back, panels = front ++ some panel :: back →
    (∀ panel ∈ front, ∃ id, checkedID panel = some id ∧ HasPanel db id) →
      ∀ id, checkedID (some panel) = some id → ∀ doc ∈ db.panels.docs, doc.panelID = id →
        doc.isRemoved = false → Listed db panel.panelGroupID

theorem Intact.updatePanelHandler (h : Intact before) {panels : List (Option PanelInput)}
    (hlists : ListsPanels before panels) : Reaches before (updatePanelHandler env panels) Intact := by
  have hintact : ∀ world : World, Regrouped before world.db → Intact world.db :=
    fun _ hworld => hworld.intact h
  have hloop := @Triple.forM_prefix World GoError (Option PanelInput) (fun world => Intact world.db)
    (updatePanelInput env) panels
    (fun front world => (∀ panel ∈ front, ∃ id, checkedID panel = some id ∧ HasPanel before id) ∧
      Regrouped before world.db) fun front panel back hpanels => Triple.of_and fun hfront => ?_
  · refine hloop.mono (fun world hworld => ⟨by simp, ?_⟩) (fun _ world hs => hintact world hs.2) fun _ hs => hs
    rw [hworld]
    exact h.regrouped
  · refine triple_bind_yields (fun _ => yields_timestamp) hintact fun time _ _ _ => ?_
    refine triple_bind_yields (fun _ => yields_deref) hintact fun panel' _ _ hsome => ?_
    subst hsome
    refine triple_bind_yields (fun _ => yields_checkPanelIDs) hintact fun id _ _ hchecked => ?_
    refine triple_bind_yields (fun _ => yields_copy) hintact fun panelOptions _ _ hoptions => ?_
    refine triple_bind_yields (fun _ => yields_copy) hintact fun promQueries _ _ hqueries => ?_
    subst hoptions hqueries
    have hlisted := hlists front panel' back hpanels hfront id hchecked
    refine (@triple_updatePanel env (Regrouped before) _ _).mono (fun _ hs => hs) ?_ ?_
    · rintro _ world ⟨db, hdb, hmatched, hworld⟩
      rw [hworld]
      refine ⟨fun panel hpanel => ?_, hdb.update hlisted⟩
      rcases List.mem_append.mp hpanel with hpanel | hpanel
      · exact hfront panel hpanel
      · obtain ⟨doc, hdoc, hmatch⟩ := List.any_eq_true.mp hmatched
        obtain ⟨-, old, hold, hid, -⟩ := hdb.panels doc hdoc
        rw [List.mem_singleton.mp hpanel]
        exact ⟨id, hchecked, old, hold, hid.trans (of_decide_eq_true hmatch)⟩
    · rintro world ⟨db, hdb, hworld | hworld⟩
      · rw [hworld]
        exact hdb.intact h
      · rw [hworld]
        exact (hdb.update hlisted).intact h

/-! ## Updates of dashboards -/

abbrev Plan := List (PanelGroup × List (Bool × Panel))

/-- The panel is in a planned group that has panels. -/
def InPlan (plan : Plan) (panel : Panel) : Prop :=
  ∃ planned ∈ plan, planned.2 ≠ [] ∧ panel.panelGroupID = some planned.1.panelGroupID

/-- Panels under some ids have been written. -/
structure Written (before : Database) (plan : Plan) (ids : List String) (db : Database) : Prop where
  dataSources : db.dataSources = before.dataSources
  dashboards : db.dashboards = before.dashboards
  kept : Kept before db
  panels : ∀ panel ∈ db.panels.docs, panel.isRemoved = false →
    InPlan plan panel ∨ (panel ∈ before.panels.docs ∧ panel.panelID ∉ ids)

variable {plan : Plan} {ids : List String}

theorem Written.refl (db : Database) (plan : Plan) : Written db plan [] db :=
  ⟨rfl, rfl, Kept.refl db, fun _ hpanel _ => .inr ⟨hpanel, List.not_mem_nil⟩⟩

theorem Written.some (h : Written before plan ids db) : Written before plan [] db :=
  { h with panels := fun panel hpanel hlive =>
      (h.panels panel hpanel hlive).imp_right fun hold => ⟨hold.1, List.not_mem_nil⟩ }

theorem Written.add (h : Written before plan ids db) {panel : Panel} (hpanel : InPlan plan panel) :
    Written before plan ids { db with panels := db.panels.add panel } := by
  refine { h with kept := h.kept.add panel, panels := fun other hother hlive => ?_ }
  rcases Documents.docs_add db.panels panel with hsame | hnew
  · exact h.panels other (hsame ▸ hother) hlive
  · rw [show (db.panels.add panel).docs = db.panels.docs ++ [panel] from hnew] at hother
    rcases List.mem_append.mp hother with hold | hadded
    · exact h.panels other hold hlive
    · rw [List.mem_singleton.mp hadded]
      exact .inl hpanel

theorem Written.update (h : Written before plan ids db) {panel : Panel} {time : String}
    (hpanel : panel.isRemoved = false → InPlan plan panel) :
    Written before plan (ids ++ [panel.panelID]) { db with
      panels := db.panels.update (fun doc => doc.panelID = panel.panelID) (setPanel panel time) } := by
  refine { h with kept := h.kept.update _ _, panels := fun doc hdoc hlive => ?_ }
  have hquery : ∀ doc : Panel, decide (doc.panelID = panel.panelID) = true →
      doc.panelID = panel.panelID := fun doc hmatch => of_decide_eq_true hmatch
  rcases Documents.mem_update panel.panelID hquery hdoc with ⟨hsame, hnot⟩ | ⟨old, -, -, rfl⟩
  · refine (h.panels doc hsame hlive).imp_right fun hold => ⟨hold.1, fun hid => ?_⟩
    rcases List.mem_append.mp hid with hid | hid
    · exact hold.2 hid
    · exact of_decide_eq_false hnot (List.mem_singleton.mp hid)
  · exact .inl (hpanel hlive)

theorem written_writePanel {panel : Panel} (hpanel : panel.isRemoved = false → InPlan plan panel) :
    Triple (fun world => Written before plan ids world.db) (writePanel env panel)
      (fun _ world => Written before plan (ids ++ [panel.panelID]) world.db)
      (fun world => Written before plan [] world.db) := by
  have hsome : ∀ world : World, Written before plan ids world.db → Written before plan [] world.db :=
    fun _ hworld => hworld.some
  refine triple_bind_yields (fun _ => yields_timestamp) hsome fun time _ _ _ => ?_
  refine Triple.ite (fun _ => Triple.throw hsome) fun _ => ?_
  refine triple_bind_yields (fun _ => yields_copy) hsome fun panelOptions _ _ hoptions => ?_
  refine triple_bind_yields (fun _ => yields_copy) hsome fun promQueries _ _ hqueries => ?_
  subst hoptions hqueries
  refine (@triple_updatePanel env (Written before plan ids) _ _).mono (fun _ hs => hs) ?_ ?_
  · rintro _ world ⟨db, hdb, -, hworld⟩
    rw [hworld]
    exact hdb.update hpanel
  · rintro world ⟨db, hdb, hworld | hworld⟩
    · rw [hworld]
      exact hdb.some
    · rw [hworld]
      exact (hdb.update hpanel).some

theorem written_writePanels {panels : List Panel}
    (hpanels : ∀ panel ∈ panels, panel.isRemoved = false → InPlan plan panel) :
    Triple (fun world => Written before plan [] world.db) (panels.forM (writePanel env))
      (fun _ world => Written before plan (panels.map (·.panelID)) world.db)
      (fun world => Written before plan [] world.db) := by
  refine @Triple.forM_prefix World GoError Panel (fun world => Written before plan [] world.db)
    (writePanel env) panels (fun front world => Written before plan (front.map (·.panelID)) world.db)
    fun front panel back hsplit => ?_
  rw [List.map_append]
  exact written_writePanel (hpanels panel (by simp [hsplit]))

theorem written_insertPanel {panels : List Panel} (hpanels : ∀ panel ∈ panels, InPlan plan panel) :
    Keeps (Written before plan []) (insertPanel env panels) :=
  keeps_insertPanel fun panel hpanel _ hdb => hdb.add (hpanels panel hpanel)

theorem intact_setDashboard (h : Intact before) {projectID : String} {dashboard : UpdateDBInput}
    {existing : DashBoard} (hfound : before.dashboards.docs.find?
      (liveDashboard projectID (some dashboard.dbID)) = some existing)
    (hsource : ∀ id ∈ dashboard.dsID, ¬ RemovedSource before id)
    (hwritten : Written before plan ids db)
    (hleft : ∀ group ∈ existing.panelGroups, ∀ panel ∈ before.panels.docs,
      panelsOfGroup group panel = true → panel.panelID ∈ ids) (time : String) :
    Intact { db with
      dashboards := db.dashboards.update (liveDashboard projectID (some dashboard.dbID))
        (setDashboard dashboard (plan.map (·.1)) time) } := by
  have hmem := List.mem_of_find?_eq_some hfound
  have hmatch := List.find?_some hfound
  have hexisting : existing.projectID = projectID ∧ some existing.dbID = some dashboard.dbID ∧
      existing.isRemoved = false := by
    simpa [liveDashboard] using hmatch
  have hfixes : ∀ doc, liveDashboard projectID (some dashboard.dbID) doc = true →
      doc.dbID = existing.dbID := by
    intro doc hdoc
    have hlive : doc.projectID = projectID ∧ some doc.dbID = some dashboard.dbID ∧
        doc.isRemoved = false := by
      simpa [liveDashboard] using hdoc
    exact Option.some.inj (hlive.2.1.trans hexisting.2.1.symm)
  have hsources : ∀ {dashboards}, ∀ id, RemovedSource { db with dashboards := dashboards } id →
      RemovedSource before id := by
    intro dashboards id hremoved
    unfold RemovedSource at hremoved
    rwa [hwritten.dataSources] at hremoved
  refine ⟨fun doc hdoc hlive id hid hremoved => ?_, fun panel hpanel hlive => ?_⟩
  · rcases mem_updateFirst hdoc with hsame | ⟨old, -, -, rfl⟩
    · rw [hwritten.dashboards] at hsame
      exact h.sources doc hsame hlive id hid (hsources id hremoved)
    · exact hsource id hid (hsources id hremoved)
  · rcases hwritten.panels panel hpanel hlive with ⟨planned, hplanned, -, hid⟩ | ⟨hold, hnot⟩
    · obtain ⟨i, hi⟩ := List.mem_iff_getElem?.mp hmem
      have hafter := @Documents.getElem?_update _ _ _ db.dashboards _
        (setDashboard dashboard (plan.map (·.1)) time) i existing (hwritten.dashboards ▸ hi) hmatch hfixes
      exact ⟨_, List.mem_of_getElem? hafter, hexisting.2.2, planned.1, List.mem_map_of_mem hplanned, hid⟩
    · obtain ⟨doc, hdoc, hdocLive, group, hgroup, hid⟩ := h.panels panel hold hlive
      have hother : ¬ liveDashboard projectID (some dashboard.dbID) doc = true := by
        intro hdocMatch
        obtain rfl := before.dashboards.eq_of_key hdoc hmem (hfixes doc hdocMatch)
        exact hnot (hleft group hgroup panel hold (by simp [panelsOfGroup, hid, hlive]))
      exact ⟨doc, mem_updateFirst_of_not (hwritten.dashboards ▸ hdoc) hother, hdocLive, group, hgroup, hid⟩

theorem intact_setChaosQueries (h : Intact db) {query : DashBoard → Bool} {dashboard : UpdateDBInput}
    {time : String} : Intact { db with
      dashboards := db.dashboards.update query (setChaosQueries dashboard time) } := by
  refine ⟨fun doc hdoc hlive => ?_, fun panel hpanel hlive => ?_⟩
  · rcases mem_updateFirst hdoc with hsame | ⟨old, hold, -, rfl⟩
    · exact h.sources doc hsame hlive
    · exact h.sources old hold hlive
  · obtain ⟨doc, hdoc, hdocLive, hgroups⟩ := h.panels panel hpanel hlive
    obtain ⟨i, hi⟩ := List.mem_iff_getElem?.mp hdoc
    rcases @getElem?_updateFirst _ query (setChaosQueries dashboard time).val _ _ _ hi with
      hsame | ⟨-, hchanged⟩
    · exact ⟨doc, List.mem_of_getElem? hsame, hdocLive, hgroups⟩
    · exact ⟨_, List.mem_of_getElem? hchanged, hdocLive, hgroups⟩

/-- Nothing stops the update before its last write. -/
structure RunsThrough (env : Env) (db : Database) (dashboard : UpdateDBInput) : Prop where
  undisturbed : Undisturbed env
  found : ∀ id ∈ dashboard.panelIDs, HasPanel db id
  ids : ∀ panel ∈ db.panels.docs, panel.panelID ≠ ""

/-- The groups that have panels in the request are groups of live dashboards already. -/
def GroupsListed (db : Database) (dashboard : UpdateDBInput) : Prop :=
  ∀ group, some group ∈ dashboard.panelGroups → group.panels ≠ [] →
    group.panelGroupID ≠ "" ∧ Listed db (some group.panelGroupID)

theorem inPlan_of_mem {groups : List (Option UpdatePanelGroupInput)}
    (hplan : List.Forall₂ (PlannedGroup env) groups plan) {pair : Bool × Panel}
    (hpair : pair ∈ plan.flatMap (·.2)) : InPlan plan pair.2 := by
  obtain ⟨planned, hplanned, hmem⟩ := List.mem_flatMap.mp hpair
  obtain ⟨_, -, _, -, -, hpanels⟩ := exists_left_of_forall₂ hplan hplanned
  obtain ⟨_, -, -, -, hid, -⟩ := exists_left_of_forall₂ hpanels hmem
  exact ⟨planned, hplanned, List.ne_nil_of_mem hmem, hid⟩

/-- The groups were listed before, so that the update may be cut short. -/
theorem Written.intact (h : Intact before) {dashboard : UpdateDBInput}
    (hlisted : GroupsListed before dashboard)
    (hplan : List.Forall₂ (PlannedGroup env) dashboard.panelGroups plan)
    (hwritten : Written before plan ids db) : Intact db := by
  refine ⟨?_, fun panel hpanel hlive => ?_⟩
  · unfold RemovedSource
    rw [hwritten.dataSources, hwritten.dashboards]
    exact h.sources
  · unfold Listed
    rw [hwritten.dashboards]
    rcases hwritten.panels panel hpanel hlive with ⟨planned, hplanned, hne, hid⟩ | ⟨hold, -⟩
    · obtain ⟨_, hgroup, group, rfl, hgroupID, hpanels⟩ := exists_left_of_forall₂ hplan hplanned
      have hnonempty : group.panels ≠ [] := by
        intro hnil
        rw [hnil, List.forall₂_nil_left_iff] at hpanels
        exact hne hpanels
      obtain ⟨hgiven, hgroupListed⟩ := hlisted group hgroup hnonempty
      rcases hgroupID with ⟨hsame, -⟩ | ⟨hempty, -⟩
      · rw [hid, hsame]
        exact hgroupListed
      · exact absurd hempty hgiven
    · exact h.panels panel hold hlive

/-! What is written for a dashboard: the panels of the request, and those that it leaves out. -/

section Writes

variable {groups : List (Option UpdatePanelGroupInput)} {existing : DashBoard} {removals : List (List Panel)}
  (hplan : List.Forall₂ (PlannedGroup env) groups plan)
  (hremovals : List.Forall₂ (fun group => List.Forall₂
    (fun doc removal : Panel => removal.panelID = doc.panelID ∧ removal.isRemoved = true)
    ((before.panels.docs.filter (panelsOfGroup group)).filter fun panel =>
      panel.panelID ∉ (((plan.flatMap (·.2)).filter (!·.1)).map (·.2)).map (·.panelID)))
    existing.panelGroups removals)

include hplan hremovals

theorem inPlan_of_update : ∀ panel ∈ ((plan.flatMap (·.2)).filter (!·.1)).map (·.2) ++ removals.flatten,
    panel.isRemoved = false → InPlan plan panel := by
  intro panel hpanel hlive
  rcases List.mem_append.mp hpanel with hupdate | hremoval
  · obtain ⟨pair, hpair, rfl⟩ := List.mem_map.mp hupdate
    exact inPlan_of_mem hplan (List.mem_filter.mp hpair).1
  · obtain ⟨list, hlist, hmem⟩ := List.mem_flatten.mp hremoval
    obtain ⟨_, -, hpanels⟩ := exists_left_of_forall₂ hremovals hlist
    obtain ⟨_, -, -, hremoved⟩ := exists_left_of_forall₂ hpanels hmem
    exact absurd hlive (by simp [hremoved])

theorem hasPanel_of_update (hfound : ∀ id ∈ groups.flatMap fun group =>
      (group.elim [] (·.panels)).filterMap idOf, HasPanel before id) :
    ∀ panel ∈ ((plan.flatMap (·.2)).filter (!·.1)).map (·.2) ++ removals.flatten,
      HasPanel before panel.panelID := by
  intro panel hpanel
  rcases List.mem_append.mp hpanel with hupdate | hremoval
  · obtain ⟨pair, hpair, rfl⟩ := List.mem_map.mp hupdate
    apply hfound
    rw [← updateIDs_eq hplan]
    exact List.mem_map_of_mem hpair
  · obtain ⟨list, hlist, hmem⟩ := List.mem_flatten.mp hremoval
    obtain ⟨_, -, hpanels⟩ := exists_left_of_forall₂ hremovals hlist
    obtain ⟨doc, hdoc, hid, -⟩ := exists_left_of_forall₂ hpanels hmem
    exact ⟨doc, (List.mem_filter.mp (List.mem_filter.mp hdoc).1).1, hid.symm⟩

omit hplan in
theorem mem_update_ids : ∀ group ∈ existing.panelGroups, ∀ panel ∈ before.panels.docs,
    panelsOfGroup group panel = true → panel.panelID ∈
      (((plan.flatMap (·.2)).filter (!·.1)).map (·.2) ++ removals.flatten).map (·.panelID) := by
  intro group hgroup panel hpanel hin
  rw [List.map_append, List.mem_append]
  by_cases hupdate : panel.panelID ∈ (((plan.flatMap (·.2)).filter (!·.1)).map (·.2)).map (·.panelID)
  · exact .inl hupdate
  · obtain ⟨list, hlist, hpanels⟩ := exists_right_of_forall₂ hremovals hgroup
    have hleft : panel ∈ (before.panels.docs.filter (panelsOfGroup group)).filter fun panel =>
        panel.panelID ∉ (((plan.flatMap (·.2)).filter (!·.1)).map (·.2)).map (·.panelID) := by
      simp only [List.mem_filter]
      exact ⟨⟨hpanel, hin⟩, by simpa using hupdate⟩
    obtain ⟨removal, hremoval, hid, -⟩ := exists_right_of_forall₂ hpanels hleft
    exact .inr (List.mem_map.mpr ⟨removal, List.mem_flatten.mpr ⟨list, hlist, hremoval⟩, hid⟩)

end Writes

theorem Intact.updateDashBoard (h : Intact before) {projectID : String} {dashboard : UpdateDBInput}
    {chaosQueryUpdate : Bool}
    (hallowed : dashboard.dbID ≠ "" → chaosQueryUpdate = false →
      (∀ group ∈ dashboard.panelGroups, ∃ group', group = some group' ∧
        ∀ panel ∈ group'.panels, Planned panel) →
      (∃ doc ∈ before.dashboards.docs, liveDashboard projectID (some dashboard.dbID) doc = true) →
      (∀ id ∈ dashboard.dsID, ¬ RemovedSource before id) ∧
        (RunsThrough env before dashboard ∨ GroupsListed before dashboard)) :
    Reaches before (updateDashBoard env projectID dashboard chaosQueryUpdate) Intact := by
  refine Reaches.bind_yields h (fun _ => yields_timestamp) fun time _ _ _ => ?_
  refine Triple.ite (fun _ => Triple.throw fun world hworld => hworld ▸ h) fun hid => ?_
  refine Triple.ite (fun _ => ?_) fun hchaos => ?_
  · exact Keeps.reaches (@keeps_write_one env Intact _ fun db hdb => intact_setChaosQueries hdb) h
  refine Reaches.bind_yields h (fun _ => yields_planPanelGroups) fun plan _ _ hplan => ?_
  refine Reaches.bind_yields h (fun _ => triple_wrap yields_getDashboard) fun existing v hv hfound => ?_
  rw [hv] at hfound
  obtain ⟨hsource, hcut⟩ := hallowed hid (by simpa using hchaos) (planned_of_plannedAs hplan)
    ⟨existing, List.mem_of_find?_eq_some hfound, List.find?_some hfound⟩
  refine Reaches.bind_yields h (fun _ => Yields.mapM fun _ _ => yields_planRemovals)
    fun removals v hv hremovals => ?_
  rw [hv] at hremovals
  -- a call that is not cut short, or may be
  have hfinish : ∀ {call : Call Unit} {pre post : World → Prop},
      Triple pre call (fun _ => post) (fun world => Intact world.db ∨ Written before plan [] world.db) →
      (RunsThrough env before dashboard → Succeeds pre call) →
      Triple pre call (fun _ => post) (fun world => Intact world.db) := by
    intro call pre post htriple hsucceeds
    rcases hcut with hruns | hlisted
    · exact ((hsucceeds hruns).triple htriple).mono (fun _ hs => hs) (fun _ _ hs => hs) fun _ hs => hs.elim
    · exact htriple.mono (fun _ hs => hs) (fun _ _ hs => hs) fun world hworld =>
        hworld.elim id fun hworld => hworld.intact h hlisted hplan
  have hwrites : ∀ u : Unit, Triple (fun world => Written before plan [] world.db)
      (do
        ((((plan.flatMap (·.2)).filter (!·.1)).map (·.2)) ++ removals.flatten).forM (writePanel env)
        updateDashboard env (liveDashboard projectID (some dashboard.dbID))
          (setDashboard dashboard (plan.map (·.1)) time))
      (fun _ world => Intact world.db) (fun world => Intact world.db) := by
    intro _
    have hloop := @written_writePanels env before plan _ (inPlan_of_update hplan hremovals)
    refine Triple.bind (hfinish (hloop.mono (fun _ hs => hs) (fun _ _ hs => hs) fun _ => .inr)
      fun hruns => ?_) fun _ => hfinish ?_ fun hruns => succeeds_write hruns.undisturbed
    · have hfound := hasPanel_of_update hplan hremovals hruns.found
      have hsucceeds : Triple (fun world => Kept before world.db)
          ((((plan.flatMap (·.2)).filter (!·.1)).map (·.2) ++ removals.flatten).forM (writePanel env))
          (fun _ world => Kept before world.db) (fun _ => False) := by
        refine Triple.forM fun panel hpanel => ?_
        obtain ⟨doc, hdoc, hdocID⟩ := hfound panel hpanel
        have hne : panel.panelID ≠ "" := hdocID ▸ hruns.ids doc hdoc
        exact (succeeds_writePanel hruns.undisturbed hne ⟨doc, hdoc, hdocID⟩).triple Kept.writePanel
      exact hsucceeds.mono (fun _ hworld => hworld.kept) (fun _ _ _ => trivial) fun _ hs => hs
    · exact @triple_write_one env (Written before plan _) Intact
        (fun db => Intact db ∨ Written before plan [] db) _ (fun _ hdb => .inr hdb.some)
        (fun db hdb => intact_setDashboard h hfound hsource hdb (mem_update_ids hremovals) time)
        fun _ => .inl
  have hstart : ∀ world : World, world.db = before → Written before plan [] world.db := by
    intro world hworld
    rw [hworld]
    exact Written.refl before plan
  refine Triple.ite (fun hcreate => ?_) fun _ => (hwrites ()).mono hstart (fun _ _ hs => hs) fun _ hs => hs
  have hinsert : Keeps (Written before plan [])
      (insertPanel env (((plan.flatMap (·.2)).filter (·.1)).map (·.2))) := by
    refine written_insertPanel fun panel hpanel => ?_
    obtain ⟨pair, hpair, rfl⟩ := List.mem_map.mp hpanel
    exact inPlan_of_mem hplan (List.mem_filter.mp hpair).1
  refine Triple.bind (triple_orElse (hfinish (Triple.mono hinsert hstart (fun _ _ hs => hs) fun _ => .inr)
    fun hruns => succeeds_insertPanel hruns.undisturbed hcreate)) hwrites

/-! ## Mutations -/

/-- What a mutation must meet: data sources that are shown stay, and panels come into groups of live
dashboards. -/
def KeepsIntact (env : Env) (caller : Caller) (db : Database) : Mutation → Prop
  | .createDataSource _ | .updateDataSource _ | .deleteDashboard _ _ => True
  | .createDashBoard dashboard =>
      MayEdit caller dashboard.projectID → dashboard.Writes →
        ¬ RemovedSource db dashboard.dsID ∧ WritesWhole env
  | .updateDashboard projectID dashboard chaosQueryUpdate =>
      MayEdit caller projectID → dashboard.dbID ≠ "" → chaosQueryUpdate = false →
        (∀ group ∈ dashboard.panelGroups, ∃ group', group = some group' ∧
          ∀ panel ∈ group'.panels, Planned panel) →
        (∃ doc ∈ db.dashboards.docs, liveDashboard projectID (some dashboard.dbID) doc = true) →
        (∀ id ∈ dashboard.dsID, ¬ RemovedSource db id) ∧
          (RunsThrough env db dashboard ∨ GroupsListed db dashboard)
  | .updatePanel panels => ListsPanels db panels
  | .deleteDataSource projectID input =>
      MayEdit caller projectID →
        (input.forceDelete = true ∨ ∀ doc ∈ db.dashboards.docs,
          attached projectID input.dsID doc = false) →
        ∀ doc ∈ db.dataSources.docs, doc.dsID = input.dsID →
          ∀ dashboard ∈ db.dashboards.docs, dashboard.isRemoved = false →
            dashboard.dsID = some input.dsID → dashboard.projectID = projectID

variable {caller : Caller}

theorem Intact.createDataSource {datasource : DSInput} :
    Keeps Intact (Analytics.createDataSource env datasource) := by
  refine Keeps.createDataSource fun doc db hlive h => ⟨fun dashboard hdashboard hdashboardLive id hid => ?_,
    h.panels⟩
  rintro ⟨removed, hremoved, hremovedID, hisRemoved⟩
  rcases Documents.docs_add db.dataSources doc with hsame | hnew
  · exact h.sources dashboard hdashboard hdashboardLive id hid
      ⟨removed, hsame ▸ hremoved, hremovedID, hisRemoved⟩
  · rw [show (db.dataSources.add doc).docs = db.dataSources.docs ++ [doc] from hnew,
      List.mem_append, List.mem_singleton] at hremoved
    rcases hremoved with hold | rfl
    · exact h.sources dashboard hdashboard hdashboardLive id hid ⟨removed, hold, hremovedID, hisRemoved⟩
    · simp [hlive] at hisRemoved

theorem Intact.updateDataSourceHandler {datasource : DSInput} :
    Keeps Intact (Analytics.updateDataSourceHandler env datasource) := by
  refine Keeps.updateDataSourceHandler fun id _ _ time db h =>
    ⟨fun dashboard hdashboard hlive id hid => ?_, h.panels⟩
  rintro ⟨removed, hremoved, hremovedID, hisRemoved⟩
  rcases mem_updateFirst hremoved with hsame | ⟨old, hold, -, rfl⟩
  · exact h.sources dashboard hdashboard hlive id hid ⟨removed, hsame, hremovedID, hisRemoved⟩
  · exact h.sources dashboard hdashboard hlive id hid ⟨old, hold, hremovedID, hisRemoved⟩

theorem Intact.after (h : Intact before) {mutation : Mutation}
    (hkeeps : KeepsIntact env caller before mutation) (hnew : NewDashboards env before) :
    Intact (after env caller before mutation) := by
  cases mutation with
  | createDataSource datasource =>
      refine after_of_reaches (Keeps.reaches (Keeps.bind_yields (fun _ => yields_deref) fun _ _ _ _ => ?_) h)
      refine Keeps.bind_yields (fun _ => yields_validateRole) fun _ _ _ _ => ?_
      exact Keeps.bind Intact.createDataSource fun _ => Keeps.pure
  | createDashBoard dashboard =>
      have hseen : ∀ world : World, world.seen = (before, 0) → Intact world.db := by
        intro world hworld
        rw [show world.db = before from congrArg Prod.fst hworld]
        exact h
      refine after_of_triple (triple_bind_seen yields_validateRole hseen fun _ hmay => ?_)
      exact Triple.bind (h.createDashboard (hkeeps hmay) hnew) fun _ => Keeps.pure
  | updateDataSource datasource =>
      refine after_of_reaches (Keeps.reaches (Keeps.bind_yields (fun _ => yields_deref) fun _ _ _ _ => ?_) h)
      exact Keeps.bind_yields (fun _ => yields_validateRole) fun _ _ _ _ => Intact.updateDataSourceHandler
  | updateDashboard projectID dashboard chaosQueryUpdate =>
      refine after_of_reaches (Reaches.bind_yields h (fun _ => yields_validateRole) fun _ _ _ hmay => ?_)
      exact h.updateDashBoard (hkeeps hmay)
  | updatePanel panels => exact after_of_reaches (h.updatePanelHandler hkeeps)
  | deleteDashboard projectID dbID =>
      exact after_of_reaches (Reaches.bind_yields h (fun _ => yields_validateRole) fun _ _ _ _ =>
        h.deleteDashboard)
  | deleteDataSource projectID input =>
      refine after_of_reaches (Reaches.bind_yields h (fun _ => yields_validateRole) fun _ _ _ hmay => ?_)
      exact h.deleteDataSource (hkeeps hmay)

/-! ## Runs -/

structure AnyCall where
  env : Env
  caller : Caller
  mutation : Mutation

def AnyCall.apply (db : Database) (call : AnyCall) : Database :=
  after call.env call.caller db call.mutation

def emptyDatabase : Database := ⟨Documents.empty, Documents.empty, Documents.empty⟩

def AlwaysIntact : Prop := ∀ calls : List AnyCall, Intact (calls.foldl AnyCall.apply emptyDatabase)

structure AnyCall.KeepsIntact (db : Database) (call : AnyCall) : Prop where
  keeps : Analytics.KeepsIntact call.env call.caller db call.mutation
  newIDs : NewDashboards call.env db

/-- From a state without a dangling reference, a run of calls that meet the condition leaves none. -/
theorem intact_run (db : Database) (calls : List AnyCall) (h : Intact db)
    (hkeeps : ∀ front call back, calls = front ++ call :: back →
      call.KeepsIntact (front.foldl AnyCall.apply db)) :
    ∀ front back, calls = front ++ back → Intact (front.foldl AnyCall.apply db) :=
  Transition.foldl_invariant (fun _ _ hintact hcall => hintact.after hcall.keeps hcall.newIDs) h hkeeps

theorem intact_emptyDatabase : Intact emptyDatabase :=
  ⟨fun _ hdashboard => absurd hdashboard List.not_mem_nil, fun _ hpanel => absurd hpanel List.not_mem_nil⟩

/-! ## A panel that leaves its group -/

def sampleEnv : Env where
  now _ := 1
  uuid n := String.ofList (List.replicate (n + 1) 'x')
  fails _ := false
  cut := none
  tsdbHealthCheck _ _ := "Active"

def newPanel : PanelInput :=
  { panelID := none
    yAxisLeft := none
    yAxisRight := none
    xAxisDown := none
    unit := none
    panelGroupID := none
    createdAt := none
    promQueries := []
    panelOptions := none
    panelName := "panel" }

def newDashboard : CreateDBInput :=
  { dsID := "ds"
    dbName := "dashboard"
    dbTypeName := "custom"
    dbTypeID := "custom"
    dbInformation := some ""
    chaosEventQueryTemplate := ""
    chaosVerdictQueryTemplate := ""
    applicationMetadataMap := []
    panelGroups := [some ⟨[some newPanel], "group"⟩]
    endTime := ""
    startTime := ""
    projectID := "project"
    clusterID := "cluster"
    refreshRate := "5" }

def createCall : AnyCall := ⟨sampleEnv, ⟨"project", .editor⟩, .createDashBoard newDashboard⟩

/-- The update gives no group, which its check lets through. -/
def regroupCall : AnyCall :=
  ⟨sampleEnv, ⟨"project", .editor⟩, .updatePanel [some { newPanel with panelID := some "xxxxxxx" }]⟩

theorem not_alwaysIntact : ¬ AlwaysIntact := by
  intro h
  have hpanel : ∃ panel ∈ ([createCall, regroupCall].foldl AnyCall.apply emptyDatabase).panels.docs,
      panel.isRemoved = false ∧ panel.panelGroupID = none := by decide +kernel
  obtain ⟨panel, hmem, hlive, hnone⟩ := hpanel
  obtain ⟨dashboard, -, -, group, -, hid⟩ := (h [createCall, regroupCall]).panels panel hmem hlive
  rw [hnone] at hid
  cases hid

theorem intact_createCall : Intact ([createCall].foldl AnyCall.apply emptyDatabase) := by
  refine intact_run emptyDatabase [createCall] intact_emptyDatabase (fun front call back hcalls => ?_)
    [createCall] [] rfl
  cases front with
  | nil =>
      obtain ⟨rfl, rfl⟩ := List.cons.inj hcalls
      refine ⟨fun _ _ => ⟨?_, fun _ => ⟨fun hcut => ?_, fun hcut => ?_⟩⟩,
        fun _ _ hdoc => absurd hdoc List.not_mem_nil⟩
      · rintro ⟨doc, hdoc, -⟩
        exact absurd hdoc List.not_mem_nil
      · cases hcut
      · cases hcut
  | cons head tail => simp at hcalls

end LitmusPortal.Analytics
