import LitmusPortal.Analytics.Isolation
import LitmusPortal.Analytics.Progress
import Mathlib.Data.Fintype.EquivFin
import Mathlib.Data.Fintype.List

/-!
# Writes that reach other projects

Where nothing fails, a mutation writes under each id that it looks up. A document of another project
under such an id gets a new time, so that the condition of isolation is also necessary.
-/

namespace LitmusPortal.Analytics

open DocumentStore Program

def calmEnv (now : Int) (uuid : String) : Env where
  now _ := now
  uuid _ := uuid
  fails _ := false
  cut := none
  tsdbHealthCheck _ _ := "Active"

variable {now : Int} {uuid : String} {before : Database}

theorem undisturbed_calmEnv : Undisturbed (calmEnv now uuid) := ⟨fun _ => rfl, rfl⟩

theorem time_eq {v : Database × Nat} :
    Yields World.seen v (timestamp (calmEnv now uuid)) fun time => time = formatTime now :=
  yields_timestamp.mono fun _ ⟨_, htime⟩ => htime

theorem false_of_formatTime {updatedAt : String} (h : ∀ now, updatedAt = formatTime now) : False := by
  have hzero := h 0
  have hone := h 1
  exact absurd (hzero.symm.trans hone) (by decide)

/-! ## Where a panel has been written -/

/-- The panel at a place has been written. -/
def Stamped (i : Nat) (time : String) (db : Database) : Prop :=
  ∃ doc, db.panels.docs[i]? = some doc ∧ doc.updatedAt = time

theorem Stamped.update {db : Database} {i : Nat} {time : String} (h : Stamped i time db)
    (query : Panel → Bool) {change : Change Panel.panelID}
    (hchange : ∀ doc, (change.val doc).updatedAt = time) :
    Stamped i time { db with panels := db.panels.update query change } := by
  obtain ⟨doc, hdoc, htime⟩ := h
  rcases @getElem?_updateFirst _ query change.val _ _ _ hdoc with hsame | ⟨-, hchanged⟩
  · exact ⟨doc, hsame, htime⟩
  · exact ⟨change.val doc, hchanged, hchange doc⟩

theorem Stamped.of_update {db : Database} (h : Kept before db) {i : Nat} {doc : Panel}
    (hdoc : before.panels.docs[i]? = some doc) {time : String} {change : Change Panel.panelID}
    (hchange : ∀ doc, (change.val doc).updatedAt = time) :
    Stamped i time { db with
      panels := db.panels.update (fun other => other.panelID = doc.panelID) change } := by
  obtain ⟨doc', hdoc', hid⟩ := h i doc hdoc
  refine ⟨change.val doc', Documents.getElem?_update hdoc' (by simpa using hid) fun other hother => ?_,
    hchange doc'⟩
  exact (of_decide_eq_true hother).trans hid.symm

/-! ## A loop of updates by id -/

/-- A step of a loop that comes to the update of the panel with an id, and sets the time. -/
def Updates (now : Int) (uuid : String) (call : Call Unit) (id : String) : Prop :=
  ∃ change : Change Panel.panelID, (∀ doc, (change.val doc).updatedAt = formatTime now) ∧
    ∀ world, ∃ ticks, call world =
      updatePanel (calmEnv now uuid) (fun doc => doc.panelID = id) change { world with ticks := ticks }

/-- A step that leaves the time of a written panel. -/
def KeepsStamp (now : Int) (call : Call Unit) : Prop := ∀ i, Keeps (Stamped i (formatTime now)) call

theorem Updates.triple {call : Call Unit} {id : String} (h : Updates now uuid call id)
    {inv : Database → Prop} {post : Unit → World → Prop} {failed : World → Prop}
    (hupdate : ∀ change : Change Panel.panelID, (∀ doc, (change.val doc).updatedAt = formatTime now) →
      Triple (fun world => inv world.db)
        (updatePanel (calmEnv now uuid) (fun doc => doc.panelID = id) change) post failed) :
    Triple (fun world => inv world.db) call post failed := by
  obtain ⟨change, hchange, heq⟩ := h
  intro world hworld
  obtain ⟨ticks, hticks⟩ := heq world
  rw [hticks]
  exact hupdate change hchange { world with ticks := ticks } hworld

theorem Updates.keeps {call : Call Unit} {id : String} (h : Updates now uuid call id)
    (hfound : HasPanel before id) :
    Triple (fun world => Kept before world.db) call (fun _ world => Kept before world.db)
      (fun _ => False) := by
  refine h.triple fun change _ => ?_
  have hsucceeds : Succeeds (fun world : World => Kept before world.db)
      (updatePanel (calmEnv now uuid) (fun doc => doc.panelID = id) change) :=
    succeeds_updatePanel undisturbed_calmEnv fun world hworld => hworld.any hfound
  exact hsucceeds.triple (keeps_updatePanel fun db hdb => hdb.update _ change)

theorem Updates.stamps {call : Call Unit} {i : Nat} {doc : Panel}
    (h : Updates now uuid call doc.panelID) (hdoc : before.panels.docs[i]? = some doc) :
    Triple (fun world => Kept before world.db) call
      (fun _ world => Stamped i (formatTime now) world.db) (fun _ => False) := by
  refine h.triple fun change hchange => ?_
  have hsucceeds : Succeeds (fun world : World => Kept before world.db)
      (updatePanel (calmEnv now uuid) (fun other => other.panelID = doc.panelID) change) :=
    succeeds_updatePanel undisturbed_calmEnv fun world hworld => hworld.any ⟨doc, List.mem_of_getElem? hdoc, rfl⟩
  refine (hsucceeds.triple triple_updatePanel).mono (fun _ hs => hs) ?_ fun _ hs => hs
  rintro _ world ⟨db, hdb, -, hworld⟩
  rw [hworld]
  exact Stamped.of_update hdb hdoc hchange

theorem stamps_loop {α : Type} {f : α → Call Unit} {front back : List α} {item : α} {idOf : α → String}
    (hfront : ∀ item ∈ front, Updates now uuid (f item) (idOf item) ∧ HasPanel before (idOf item))
    (hback : ∀ item ∈ back, KeepsStamp now (f item)) {i : Nat} {doc : Panel}
    (hitem : Updates now uuid (f item) doc.panelID) (hdoc : before.panels.docs[i]? = some doc) :
    Triple (fun world => Kept before world.db) ((front ++ item :: back).forM f)
      (fun _ world => Stamped i (formatTime now) world.db)
      (fun world => Stamped i (formatTime now) world.db) := by
  have hlooked : Triple (fun world => Kept before world.db) (front.forM f)
      (fun _ world => Kept before world.db) fun world => Stamped i (formatTime now) world.db :=
    Triple.forM fun item hitem => ((hfront item hitem).1.keeps (hfront item hitem).2).mono
      (fun _ hs => hs) (fun _ _ hs => hs) fun _ hs => hs.elim
  refine Triple.forM_append hlooked (Triple.bind ?_ fun _ => Triple.forM fun item hitem => hback item hitem i)
  exact (hitem.stamps hdoc).mono (fun _ hs => hs) (fun _ _ hs => hs) fun _ hs => hs.elim

/-! ## Updates of panels -/

theorem checkPanelIDs_eq {panel : PanelInput} {id : String} (h : checkedID (some panel) = some id) :
    checkPanelIDs panel = pure id := by
  have hbind : (panel.panelID.bind fun id =>
      if id = "" ∧ (panel.panelGroupID = none ∨ panel.panelGroupID = some "") then none else some id) =
        some id := h
  obtain ⟨given, hgiven, hcheck⟩ := Option.bind_eq_some_iff.mp hbind
  unfold checkPanelIDs
  rw [hgiven]
  by_cases hempty : given = ""
  · simp only [hempty, true_and] at hcheck ⊢
    cases hgroup : panel.panelGroupID with
    | none => simp [hgroup] at hcheck
    | some group =>
        have hne : group ≠ "" := by
          intro hgroupEmpty
          simp [hgroup, hgroupEmpty] at hcheck
        have hid : "" = id := by simpa [hgroup, hne] using hcheck
        subst hid
        simp [deref, hne]
  · have hid : given = id := by simpa [hempty] using hcheck
    subst hid
    simp [deref, hempty]

theorem updates_updatePanelInput {panel : Option PanelInput} {id : String}
    (h : checkedID panel = some id) :
    Updates now uuid (updatePanelInput (calmEnv now uuid) panel) id := by
  obtain ⟨panel', rfl, -⟩ := Option.bind_eq_some_iff.mp h
  refine ⟨setPanelInput panel' (formatTime now), fun _ => rfl, fun world => ⟨world.ticks + 3, ?_⟩⟩
  have hcheck := checkPanelIDs_eq h
  unfold updatePanelInput
  simp only [deref, pure_bind, hcheck]
  rfl

theorem keepsStamp_updatePanelInput {panel : Option PanelInput} :
    KeepsStamp now (updatePanelInput (calmEnv now uuid) panel) := by
  intro i
  refine Keeps.bind_yields (fun _ => time_eq) fun time _ _ htime => ?_
  refine Keeps.bind_yields (fun _ => yields_deref) fun _ _ _ _ => ?_
  refine Keeps.bind_yields (fun _ => yields_checkPanelIDs) fun _ _ _ _ => ?_
  refine Keeps.bind_yields (fun _ => yields_copy) fun _ _ _ _ => ?_
  refine Keeps.bind_yields (fun _ => yields_copy) fun _ _ _ _ => ?_
  subst htime
  exact keeps_updatePanel fun db hdb => hdb.update _ fun _ => rfl

theorem updates_writePanel {panel : Panel} (h : panel.panelID ≠ "") :
    Updates now uuid (writePanel (calmEnv now uuid) panel) panel.panelID := by
  refine ⟨setPanel panel (formatTime now), fun _ => rfl, fun world => ⟨world.ticks + 3, ?_⟩⟩
  unfold writePanel
  simp only [h, false_and, if_false]
  rfl

theorem keepsStamp_writePanel {panel : Panel} : KeepsStamp now (writePanel (calmEnv now uuid) panel) := by
  intro i
  refine Keeps.bind_yields (fun _ => time_eq) fun time _ _ htime => ?_
  refine Triple.ite (fun _ => Keeps.throw) fun _ => ?_
  refine Keeps.bind_yields (fun _ => yields_copy) fun _ _ _ _ => ?_
  refine Keeps.bind_yields (fun _ => yields_copy) fun _ _ _ _ => ?_
  subst htime
  exact keeps_updatePanel fun db hdb => hdb.update _ fun _ => rfl

theorem stamped_updatePanelHandler {front back : List (Option PanelInput)} {panel : Option PanelInput}
    (hfront : ∀ panel ∈ front, ∃ id, checkedID panel = some id ∧ HasPanel before id) {i : Nat}
    {doc : Panel} (hchecked : checkedID panel = some doc.panelID)
    (hdoc : before.panels.docs[i]? = some doc) :
    Reaches before (updatePanelHandler (calmEnv now uuid) (front ++ panel :: back))
      (Stamped i (formatTime now)) := by
  have hloop := @stamps_loop now uuid before _ (updatePanelInput (calmEnv now uuid)) front back panel
    (fun panel => (checkedID panel).getD "") (fun panel hpanel => ?_)
    (fun _ _ => keepsStamp_updatePanelInput) i doc (updates_updatePanelInput hchecked) hdoc
  · refine hloop.mono (fun world hworld => ?_) (fun _ _ hs => hs) fun _ hs => hs
    rw [hworld]
    exact Kept.refl before
  · obtain ⟨id, hid, hfound⟩ := hfront panel hpanel
    simp only [hid, Option.getD_some]
    exact ⟨updates_updatePanelInput hid, hfound⟩

/-! ## The update of a dashboard -/

theorem Stamped.updateDashboard {i : Nat} {time : String} {query : DashBoard → Bool}
    {change : Change DashBoard.dbID} :
    Keeps (Stamped i time) (updateDashboard (calmEnv now uuid) query change) :=
  keeps_write_one fun _ hdb => hdb

/-- The panels under the first ids are there, so that the update comes to the one at the place. -/
theorem stamped_updateDashBoard {projectID : String} {dashboard : UpdateDBInput}
    (hid : dashboard.dbID ≠ "")
    (hplanned : ∀ group ∈ dashboard.panelGroups, ∃ group', group = some group' ∧
      ∀ panel ∈ group'.panels, Planned panel)
    (hlive : ∃ doc ∈ before.dashboards.docs, liveDashboard projectID (some dashboard.dbID) doc = true)
    {front back : List String} {i : Nat} {doc : Panel}
    (hids : dashboard.panelIDs = front ++ doc.panelID :: back) (hfront : ∀ id ∈ front, HasPanel before id)
    (hdoc : before.panels.docs[i]? = some doc) :
    Reaches before (updateDashBoard (calmEnv now uuid) projectID dashboard false)
      (Stamped i (formatTime now)) := by
  refine triple_bind_calm (fun _ => time_eq) succeeds_timestamp fun time _ _ htime => ?_
  refine Triple.ite (fun hempty => absurd hempty hid) fun _ => ?_
  simp only [Bool.false_eq_true, if_false]
  refine triple_bind_calm (fun _ => yields_planPanelGroups)
    ((succeeds_planPanelGroups undisturbed_calmEnv hplanned).mono fun _ _ => trivial) fun plan _ _ hplan => ?_
  refine triple_bind_calm (fun _ => triple_wrap yields_getDashboard)
    (succeeds_wrap (succeeds_getDashboard undisturbed_calmEnv hlive)) fun existing _ _ _ => ?_
  refine triple_bind_calm (fun _ => Yields.mapM fun _ _ => yields_planRemovals)
    (Succeeds.mono (Succeeds.mapM fun _ _ => succeeds_planRemovals undisturbed_calmEnv) fun _ _ => trivial)
    fun removals _ _ _ => ?_
  have hupdates : ((((plan.flatMap (·.2)).filter (!·.1)).map (·.2)).map (·.panelID)) =
      front ++ doc.panelID :: back := by
    rw [List.map_map, ← hids]
    exact updateIDs_eq hplan
  obtain ⟨frontPanels, rest, hsplit, hfrontIDs, hrest⟩ := List.map_eq_append_iff.mp hupdates
  obtain ⟨panel, backPanels, rfl, hpanelID, -⟩ := List.map_eq_cons_iff.mp hrest
  have hnonempty : ∀ id ∈ front ++ doc.panelID :: back, id ≠ "" := fun id hmem =>
    ne_empty_of_mem_panelIDs (hids ▸ hmem)
  subst htime
  have hloop : Triple (fun world => Kept before world.db)
      ((frontPanels ++ panel :: (backPanels ++ removals.flatten)).forM (writePanel (calmEnv now uuid)))
      (fun _ world => Stamped i (formatTime now) world.db)
      (fun world => Stamped i (formatTime now) world.db) := by
    refine @stamps_loop now uuid before _ _ frontPanels _ panel (·.panelID) (fun other hother => ?_)
      (fun _ _ => keepsStamp_writePanel) i doc ?_ hdoc
    · have hmem : other.panelID ∈ front := hfrontIDs ▸ List.mem_map_of_mem hother
      exact ⟨updates_writePanel (hnonempty _ (by simp [hmem])), hfront _ hmem⟩
    · rw [← hpanelID]
      exact updates_writePanel (hnonempty _ (by simp [hpanelID]))
  have hwrites : ∀ u : Unit, Triple (fun world => Kept before world.db)
      (do
        ((((plan.flatMap (·.2)).filter (!·.1)).map (·.2)) ++ removals.flatten).forM
          (writePanel (calmEnv now uuid))
        updateDashboard (calmEnv now uuid) (liveDashboard projectID (some dashboard.dbID))
          (setDashboard dashboard (plan.map (·.1)) (formatTime now)))
      (fun _ world => Stamped i (formatTime now) world.db)
      (fun world => Stamped i (formatTime now) world.db) := by
    refine fun _ => Triple.bind ?_ fun _ => Stamped.updateDashboard
    rw [hsplit, List.append_assoc]
    exact hloop
  have hstart : ∀ world : World, world.db = before → Kept before world.db := by
    intro world hworld
    rw [hworld]
    exact Kept.refl before
  refine Triple.ite (fun hcreate => ?_) fun _ => (hwrites ()).mono hstart (fun _ _ hs => hs) fun _ hs => hs
  refine Triple.bind (triple_orElse (Triple.mono ?_ hstart (fun _ _ hs => hs) fun _ => False.elim)) hwrites
  exact (succeeds_insertPanel undisturbed_calmEnv hcreate).triple Kept.insertPanel

/-! ## The removal of a data source -/

def StampedSource (i : Nat) (time : String) (db : Database) : Prop :=
  ∃ doc, db.dataSources.docs[i]? = some doc ∧ doc.updatedAt = time

theorem stampedSource_updateDataSource {i : Nat} {doc : DataSource}
    (hdoc : before.dataSources.docs[i]? = some doc) {time : String} {change : Change DataSource.dsID}
    (hchange : ∀ doc, (change.val doc).updatedAt = time) :
    Triple (fun world => world.db.dataSources = before.dataSources)
      (updateDataSource (calmEnv now uuid) (fun other => other.dsID = doc.dsID) change)
      (fun _ world => StampedSource i time world.db) (fun world => StampedSource i time world.db) := by
  intro world hworld
  refine ⟨change.val doc, ?_, hchange doc⟩
  exact Documents.getElem?_update (hworld ▸ hdoc) (by simp) fun other hother => of_decide_eq_true hother

theorem stampedSource_deleteDataSource {projectID : String} {input : DeleteDSInput}
    (hreached : input.forceDelete = true ∨ ∀ doc ∈ before.dashboards.docs,
      attached projectID input.dsID doc = false) {i : Nat} {doc : DataSource}
    (hdoc : before.dataSources.docs[i]? = some doc) (hid : doc.dsID = input.dsID) :
    Reaches before (deleteDataSource (calmEnv now uuid) projectID input)
      (StampedSource i (formatTime now)) := by
  refine triple_bind_calm (fun _ => time_eq) succeeds_timestamp fun time _ _ htime => ?_
  subst htime
  refine triple_bind_calm (fun _ => triple_wrap yields_listDashboard) (succeeds_wrap (succeeds_read undisturbed_calmEnv))
    fun dashboards v hv hlisted => ?_
  rw [hv] at hlisted
  have hremove : Triple (fun world : World => world.db.dataSources = before.dataSources)
      (wrap "failed to delete datasource, error: " (updateDataSource (calmEnv now uuid)
        (fun doc => doc.dsID = input.dsID) (removeDataSource (formatTime now))))
      (fun _ world => StampedSource i (formatTime now) world.db)
      (fun world => StampedSource i (formatTime now) world.db) :=
    triple_wrap (hid ▸ stampedSource_updateDataSource hdoc fun _ => rfl)
  have hstart : ∀ world : World, world.db = before → world.db.dataSources = before.dataSources :=
    fun world hworld => by rw [hworld]
  refine Triple.ite (fun _ => Triple.bind ?_ fun _ => hremove) fun hforce => ?_
  · have hsucceeds : ∀ dashboard ∈ dashboards, Succeeds (fun _ => True) (do
        dashboard.panelGroups.forM (removePanelGroup (calmEnv now uuid) (return formatTime now))
        wrap "failed to delete dashboard, error: " (updateDashboard (calmEnv now uuid)
          (fun doc => doc.dbID = dashboard.dbID) (removeDashboard (formatTime now)))) := by
      refine fun dashboard _ => Triple.bind (Triple.forM fun group _ => ?_) fun _ =>
        succeeds_wrap (succeeds_write undisturbed_calmEnv)
      exact succeeds_removePanelGroup undisturbed_calmEnv Succeeds.pure fun _ => Yields.pure trivial
    have hkeeps : ∀ dashboard ∈ dashboards, Keeps (fun db => db.dataSources = before.dataSources) (do
        dashboard.panelGroups.forM (removePanelGroup (calmEnv now uuid) (return formatTime now))
        wrap "failed to delete dashboard, error: " (updateDashboard (calmEnv now uuid)
          (fun doc => doc.dbID = dashboard.dbID) (removeDashboard (formatTime now)))) := by
      refine fun dashboard _ => Keeps.bind (Triple.forM fun group _ => ?_) fun _ => triple_wrap ?_
      · exact @Keeps.removePanelGroup _ (fun db => db.dataSources = before.dataSources) _ _
          (fun _ => Yields.pure trivial) fun _ _ _ _ _ _ _ h => h
      · exact @keeps_write_one _ (fun db => db.dataSources = before.dataSources) _ fun _ h => h
    have hloop := (Succeeds.mono (Triple.forM hsucceeds) fun _ _ => trivial).triple
      (Triple.forM hkeeps)
    exact hloop.mono hstart (fun _ _ hs => hs) fun _ hs => hs.elim
  · have hnone : dashboards = [] := by
      rw [hlisted, List.filter_eq_nil_iff]
      intro doc hdoc
      rw [(hreached.resolve_left hforce) doc hdoc]
      exact Bool.false_ne_true
    refine Triple.ite (fun hne => absurd hnone hne) fun _ => ?_
    exact hremove.mono hstart (fun _ _ hs => hs) fun _ hs => hs

theorem stampedSource_updateDataSourceHandler {datasource : DSInput} {i : Nat} {doc : DataSource}
    (hid : doc.dsID ∈ datasource.dsID) (hne : doc.dsID ≠ "") (hdoc : before.dataSources.docs[i]? = some doc) :
    Reaches before (updateDataSourceHandler (calmEnv now uuid) datasource)
      (StampedSource i (formatTime now)) := by
  rw [Option.mem_def] at hid
  refine triple_bind_calm (fun _ => time_eq) succeeds_timestamp fun time _ _ htime => ?_
  subst htime
  split
  · next hnone => simp [hnone] at hid
  · next hempty =>
      rw [hempty, Option.some.injEq] at hid
      exact absurd hid.symm hne
  · next id _ hsome =>
      obtain rfl := Option.some.inj (hsome.symm.trans hid)
      refine Triple.ite (fun _ => ?_) fun hinactive => absurd rfl hinactive
      exact (stampedSource_updateDataSource hdoc fun _ => rfl).mono (fun world hworld => by rw [hworld])
        (fun _ _ hs => hs) fun _ hs => hs

/-! ## The condition is necessary -/

variable {caller : Caller} {mutation : Mutation}

theorem ownPanel_of_stamped {i : Nat} {doc : Panel} (hdoc : before.panels.docs[i]? = some doc)
    (h : ChangesOwnOnly caller before mutation) (hnew : ∀ now, NewIDs (calmEnv now uuid) mutation)
    (hreaches : ∀ now, Reaches before (resolve (calmEnv now uuid) caller mutation)
      (Stamped i (formatTime now))) : OwnPanel before caller.projectID doc := by
  by_contra hother
  refine @false_of_formatTime doc.updatedAt fun now => ?_
  obtain ⟨doc', hstamped, htime⟩ := after_of_reaches (hreaches now)
  have hspared := (h (calmEnv now uuid) (hnew now)).panels i doc hdoc hother
  obtain rfl := Option.some.inj (hspared.symm.trans hstamped)
  exact htime

theorem ownDataSource_of_stamped {i : Nat} {doc : DataSource}
    (hdoc : before.dataSources.docs[i]? = some doc) (h : ChangesOwnOnly caller before mutation)
    (hnew : ∀ now, NewIDs (calmEnv now uuid) mutation)
    (hreaches : ∀ now, Reaches before (resolve (calmEnv now uuid) caller mutation)
      (StampedSource i (formatTime now))) : doc.projectID = caller.projectID := by
  by_contra hother
  refine @false_of_formatTime doc.updatedAt fun now => ?_
  obtain ⟨doc', hstamped, htime⟩ := after_of_reaches (hreaches now)
  have hspared := (h (calmEnv now uuid) (hnew now)).dataSources i doc hdoc hother
  obtain rfl := Option.some.inj (hspared.symm.trans hstamped)
  exact htime

theorem validateRole_eq {projectID : String} (h : MayEdit caller projectID) :
    validateRole caller projectID = pure () := if_pos h

theorem keepsToOwn_of_changesOwnOnly (h : ChangesOwnOnly caller before mutation) :
    KeepsToOwn caller before mutation := by
  cases mutation with
  | createDataSource | createDashBoard | deleteDashboard => exact trivial
  | updateDataSource datasource =>
      intro projectID hproject hmay id hid hne doc hdoc hdocID
      subst hdocID
      obtain ⟨i, hi⟩ := List.mem_iff_getElem?.mp hdoc
      refine @ownDataSource_of_stamped "" _ _ _ i doc hi h (fun _ => trivial) fun now => ?_
      simp only [resolve, Option.mem_def.mp hproject, deref, pure_bind, validateRole_eq hmay]
      exact stampedSource_updateDataSourceHandler hid hne hi
  | updateDashboard projectID dashboard chaosQueryUpdate =>
      intro hmay hid hchaos hplanned hlive front id back hids hfront doc hdoc hdocID
      subst hchaos hdocID
      obtain ⟨i, hi⟩ := List.mem_iff_getElem?.mp hdoc
      obtain ⟨uuid, hnew⟩ := Infinite.exists_notMem_finset dashboard.panelIDs.toFinset
      obtain rfl := hmay.1
      have hnewID : uuid ∉ dashboard.panelIDs := by simpa using hnew
      refine @ownPanel_of_stamped uuid _ _ _ i doc hi h (fun _ _ => hnewID) fun now => ?_
      simp only [resolve, validateRole_eq hmay, pure_bind]
      exact stamped_updateDashBoard hid hplanned hlive hids hfront hi
  | updatePanel panels =>
      intro front panel back hpanels hfront id hchecked doc hdoc hdocID
      subst hpanels hdocID
      obtain ⟨i, hi⟩ := List.mem_iff_getElem?.mp hdoc
      exact @ownPanel_of_stamped "" _ _ _ i doc hi h (fun _ => trivial) fun now =>
        stamped_updatePanelHandler hfront hchecked hi
  | deleteDataSource projectID input =>
      intro hmay hreached doc hdoc hdocID
      obtain ⟨i, hi⟩ := List.mem_iff_getElem?.mp hdoc
      refine @ownDataSource_of_stamped "" _ _ _ i doc hi h (fun _ => trivial) fun now => ?_
      simp only [resolve, validateRole_eq hmay, pure_bind]
      exact stampedSource_deleteDataSource hreached hi hdocID

end LitmusPortal.Analytics
