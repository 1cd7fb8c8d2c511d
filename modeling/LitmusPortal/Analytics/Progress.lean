import LitmusPortal.Analytics.Plans

/-!
# Calls that do not fail

Where the environment lets every copy, read and write through, a handler only fails on what it is given:
a pointer without a value, and the id of no panel.
-/

namespace LitmusPortal.Analytics

open DocumentStore Program

structure Undisturbed (env : Env) : Prop where
  fails : ∀ n, env.fails n = false
  cut : env.cut = none

variable {env : Env} {pre : World → Prop} {before : Database}

theorem succeeds_timestamp : Succeeds pre (timestamp env) := fun _ _ => trivial

theorem succeeds_newUUID : Succeeds pre (newUUID env) := fun _ _ => trivial

theorem succeeds_deref {α : Type} (value : α) : Succeeds pre (deref (some value)) := Succeeds.pure

section Undisturbed

variable (henv : Undisturbed env)

include henv

theorem succeeds_copy {α : Type} {value : α} : Succeeds pre (copy env value) := by
  refine @Triple.bind _ _ _ _ _ _ _ _ (fun _ _ => True) _ (fun _ _ => trivial) fun n => ?_
  exact Triple.ite (fun hfails => by simp [henv.fails] at hfails) fun _ => Succeeds.pure

theorem succeeds_read {α : Type} {find : Database → α} : Succeeds pre (read env find) := by
  refine @Triple.bind _ _ _ _ _ _ _ _ (fun _ _ => True) _ (fun _ _ => trivial) fun n => ?_
  exact Triple.ite (fun hfails => by simp [henv.fails] at hfails) fun _ _ _ => trivial

theorem succeeds_write {steps : List (Database → Database)} : Succeeds pre (write env steps) := by
  intro world _
  unfold write
  rw [henv.cut]
  exact trivial

omit henv in
theorem succeeds_wrap {α : Type} {text : String} {call : Call α} (h : Succeeds pre call) :
    Succeeds pre (wrap text call) := triple_wrap h

theorem succeeds_updatePanel {query : Panel → Bool} {change : Change Panel.panelID}
    (h : ∀ world, pre world → world.db.panels.docs.any query = true) :
    Succeeds pre (updatePanel env query change) := by
  refine Triple.bind (Triple.get.mono (fun _ hs => hs)
    (fun world s hs => (⟨hs.1, hs.2⟩ : world = s ∧ pre s)) fun _ hs => hs) fun world => ?_
  rintro s ⟨rfl, hs⟩
  refine Triple.bind (succeeds_write henv) (fun _ => ?_) world hs
  rw [h world hs]
  exact Succeeds.pure

omit henv in
theorem triple_bind_looks {α β : Type} {call : Call α} {rest : α → Call β} {known : Database → Prop}
    {post : β → World → Prop} {failed : World → Prop} {result : Database × Nat → α → Prop}
    (hcall : ∀ v, Yields World.seen v call (result v))
    (hsucceeds : Succeeds (fun world => known world.db) call)
    (hrest : ∀ a v, known v.1 → result v a → Triple (fun world => known world.db) (rest a) post failed) :
    Triple (fun world => known world.db) (call >>= rest) post failed := by
  have htriple := @Yields.triple _ _ _ _ World.seen call (fun v => known v.1) result fun v _ => hcall v
  refine Triple.bind ((hsucceeds.triple htriple).mono (fun _ hs => hs) (fun _ _ hs => hs)
    fun _ hs => hs.elim) fun a s hs => ?_
  exact hrest a s.seen hs.2 hs.1 s hs.2

omit henv in
theorem triple_bind_calm {α β : Type} {call : Call α} {rest : α → Call β} {post : β → World → Prop}
    {failed : World → Prop} {result : Database × Nat → α → Prop}
    (hcall : ∀ v, Yields World.seen v call (result v))
    (hsucceeds : Succeeds (fun world => world.db = before) call)
    (hrest : ∀ a v, v.1 = before → result v a →
      Triple (fun world => world.db = before) (rest a) post failed) :
    Triple (fun world => world.db = before) (call >>= rest) post failed :=
  @triple_bind_looks _ _ call rest (fun db => db = before) _ _ result hcall hsucceeds hrest

theorem succeeds_getDashboard {query : DashBoard → Bool}
    (h : ∃ doc ∈ before.dashboards.docs, query doc = true) :
    Succeeds (fun world => world.db = before) (getDashboard env query) := by
  refine triple_bind_calm (fun _ => yields_read) (succeeds_read henv) fun found v hv hfound => ?_
  cases found with
  | none =>
      obtain ⟨doc, hdoc, hmatch⟩ := h
      rw [hv, eq_comm, List.find?_eq_none] at hfound
      exact absurd hmatch (hfound doc hdoc)
  | some dashboard => exact Succeeds.pure

theorem succeeds_insertPanel {panels : List Panel} (h : panels ≠ []) :
    Succeeds pre (insertPanel env panels) :=
  Triple.ite (fun hnone => absurd hnone h) fun _ => succeeds_write henv

end Undisturbed

/-! ## The panels of the start -/

/-- The panels that were there are where they were, under their ids. -/
def Kept (before db : Database) : Prop :=
  ∀ (i : Nat) (doc : Panel), before.panels.docs[i]? = some doc →
    ∃ doc', db.panels.docs[i]? = some doc' ∧ doc'.panelID = doc.panelID

theorem Kept.refl (db : Database) : Kept db db := fun _ doc hdoc => ⟨doc, hdoc, rfl⟩

theorem Kept.update {db : Database} (h : Kept before db) (query : Panel → Bool)
    (change : Change Panel.panelID) :
    Kept before { db with panels := db.panels.update query change } := by
  intro i doc hdoc
  obtain ⟨doc', hdoc', hid⟩ := h i doc hdoc
  rcases @getElem?_updateFirst _ query change.val _ _ _ hdoc' with hsame | ⟨-, hchanged⟩
  · exact ⟨doc', hsame, hid⟩
  · exact ⟨change.val doc', hchanged, (change.property doc').trans hid⟩

theorem Kept.add {db : Database} (h : Kept before db) (panel : Panel) :
    Kept before { db with panels := db.panels.add panel } := by
  intro i doc hdoc
  obtain ⟨doc', hdoc', hid⟩ := h i doc hdoc
  refine ⟨doc', ?_, hid⟩
  rcases Documents.docs_add db.panels panel with hsame | hnew
  · rw [hsame]
    exact hdoc'
  · rw [hnew, List.getElem?_append_left (List.getElem?_eq_some_iff.mp hdoc').choose]
    exact hdoc'

theorem Kept.any {db : Database} (h : Kept before db) {id : String} (hid : HasPanel before id) :
    db.panels.docs.any (fun doc => doc.panelID = id) = true := by
  obtain ⟨doc, hdoc, rfl⟩ := hid
  obtain ⟨i, hi⟩ := List.mem_iff_getElem?.mp hdoc
  obtain ⟨doc', hdoc', hid⟩ := h i doc hi
  exact List.any_eq_true.mpr ⟨doc', List.mem_of_getElem? hdoc', by simpa using hid⟩

theorem Kept.insertPanel {panels : List Panel} :
    Keeps (Kept before) (insertPanel env panels) :=
  keeps_insertPanel fun panel _ _ hdb => hdb.add panel

theorem Kept.writePanel {panel : Panel} : Keeps (Kept before) (writePanel env panel) := by
  refine Keeps.bind_yields (fun _ => yields_timestamp) fun _ _ _ _ => ?_
  refine Triple.ite (fun _ => Keeps.throw) fun _ => ?_
  refine Keeps.bind_yields (fun _ => yields_copy) fun _ _ _ _ => ?_
  refine Keeps.bind_yields (fun _ => yields_copy) fun _ _ _ _ => ?_
  exact keeps_updatePanel fun _ hdb => hdb.update _ _

theorem succeeds_writePanel (henv : Undisturbed env) {panel : Panel} (hid : panel.panelID ≠ "")
    (hfound : HasPanel before panel.panelID) :
    Succeeds (fun world => Kept before world.db) (writePanel env panel) := by
  refine triple_bind_looks (fun _ => yields_timestamp) succeeds_timestamp fun _ _ _ _ => ?_
  refine Triple.ite (fun hempty => absurd hempty.1 hid) fun _ => ?_
  refine triple_bind_looks (fun _ => yields_copy) (succeeds_copy henv) fun _ _ _ _ => ?_
  refine triple_bind_looks (fun _ => yields_copy) (succeeds_copy henv) fun _ _ _ _ => ?_
  exact succeeds_updatePanel henv fun world hworld => hworld.any hfound

/-! ## Plans -/

section Undisturbed

variable (henv : Undisturbed env)

include henv

theorem succeeds_planPanel {panelGroupID : String} {panel : Option PanelInput} (h : Planned panel) :
    Succeeds pre (planPanel env panelGroupID panel) := by
  obtain ⟨panel', rfl, id, hid, hcreated⟩ := h
  unfold planPanel
  by_cases hnew : id = ""
  · simp only [deref, hid, pure_bind, hnew, if_true]
    refine Triple.bind succeeds_newUUID fun _ => ?_
    refine Triple.bind succeeds_timestamp fun _ => ?_
    refine Triple.bind succeeds_timestamp fun _ => ?_
    refine Triple.bind (succeeds_copy henv) fun _ => ?_
    exact Triple.bind (succeeds_copy henv) fun _ => Succeeds.pure
  · obtain ⟨createdAt, hcreatedAt⟩ := Option.ne_none_iff_exists'.mp (hcreated hnew)
    simp only [deref, hid, pure_bind, hnew, if_false, hcreatedAt]
    refine Triple.bind succeeds_timestamp fun _ => ?_
    refine Triple.bind (succeeds_copy henv) fun _ => ?_
    exact Triple.bind (succeeds_copy henv) fun _ => Succeeds.pure

theorem succeeds_planPanelGroups {groups : List (Option UpdatePanelGroupInput)}
    (h : ∀ group ∈ groups, ∃ group', group = some group' ∧ ∀ panel ∈ group'.panels, Planned panel) :
    Succeeds (fun _ => True) (groups.mapM (planPanelGroup env)) := by
  refine Succeeds.mapM fun group hgroup => ?_
  obtain ⟨group', rfl, hplanned⟩ := h group hgroup
  have hrest : ∀ id, Succeeds (fun _ => True) (do
      let panels ← group'.panels.mapM (planPanel env id)
      return ((⟨group'.panelGroupName, id⟩ : PanelGroup), panels)) := fun id =>
    Triple.bind (Succeeds.mapM fun panel hpanel => succeeds_planPanel henv (hplanned panel hpanel))
      fun _ => Succeeds.pure
  unfold planPanelGroup
  simp only [deref, pure_bind]
  exact Triple.ite (fun _ => Triple.bind succeeds_newUUID fun id => hrest id) fun _ => hrest _

theorem succeeds_planRemovals {ids : List String} {group : PanelGroup} :
    Succeeds (fun _ => True) (planRemovals env ids group) := by
  refine Triple.bind (succeeds_wrap (succeeds_read henv)) fun _ => ?_
  refine Triple.bind (succeeds_copy henv) fun _ => ?_
  refine Succeeds.mapM fun _ _ => ?_
  refine Triple.bind (succeeds_copy henv) fun _ => ?_
  refine Triple.bind (succeeds_copy henv) fun _ => ?_
  exact Triple.bind succeeds_timestamp fun _ => Succeeds.pure

/-! ## Removals -/

/-- Each panel that a group lists is there for its own removal. -/
theorem succeeds_removePanelGroup {time : Call String} {group : PanelGroup}
    (htime : Succeeds (fun _ => True) time) (htimeYields : ∀ v, Yields World.seen v time fun _ => True) :
    Succeeds (fun _ => True) (removePanelGroup env time group) := by
  intro start _
  refine (?_ : Succeeds (fun world => world.db = start.db)
    (removePanelGroup env time group)) start rfl
  refine triple_bind_calm (fun _ => triple_wrap yields_listPanel) (succeeds_wrap (succeeds_read henv))
    fun panels v hv hpanels => ?_
  rw [hv] at hpanels
  have hsublist : List.Sublist panels start.db.panels.docs := hpanels ▸ List.filter_sublist
  have hunique : (panels.map (·.panelID)).Nodup := (hsublist.map _).nodup start.db.panels.unique
  have hloop := @Triple.forM_prefix World GoError Panel (fun _ => False)
    (fun panel => do
      let time ← time
      wrap "failed to delete panel, error: " (updatePanel env
        (fun doc => doc.panelID = panel.panelID ∧ doc.isRemoved = false) (removePanel time)))
    panels
    (fun front world => ∀ panel ∈ panels, panel ∉ front → panel ∈ world.db.panels.docs)
    fun front panel back hsplit => ?_
  · refine hloop.mono (fun world hworld panel hpanel _ => ?_) (fun _ _ _ => trivial) fun _ hs => hs
    rw [hworld]
    exact hsublist.subset hpanel
  · refine @triple_bind_looks _ _ time _
      (fun db => ∀ panel ∈ panels, panel ∉ front → panel ∈ db.panels.docs) _ _ _ htimeYields
      (htime.mono fun _ _ => trivial) fun time _ _ _ => triple_wrap ?_
    have hpanel : panel ∈ panels := by simp [hsplit]
    have hnodup : (front ++ panel :: back).Nodup := hsplit ▸ List.Nodup.of_map _ hunique
    have hfresh : panel ∉ front := fun hmem =>
      (List.disjoint_of_nodup_append hnodup) hmem List.mem_cons_self
    have hlive : panel.isRemoved = false := by
      rw [hpanels, List.mem_filter] at hpanel
      have hin : panel.panelGroupID = some group.panelGroupID ∧ panel.isRemoved = false := by
        simpa [panelsOfGroup] using hpanel.2
      exact hin.2
    refine (Succeeds.triple (succeeds_updatePanel henv fun world hworld => ?_)
      (@triple_updatePanel _ (fun db => ∀ panel ∈ panels, panel ∉ front →
        panel ∈ db.panels.docs) _ _)).mono (fun _ hs => hs) ?_ fun _ hs => hs
    · exact List.any_eq_true.mpr ⟨panel, hworld panel hpanel hfresh, by simp [hlive]⟩
    · rintro _ world ⟨db, hdb, -, hworld⟩ other hother hleft
      rw [List.mem_append, List.mem_singleton, not_or] at hleft
      rw [hworld]
      refine mem_updateFirst_of_not (hdb other hother hleft.1) fun hmatch => hleft.2 ?_
      simp only [Bool.decide_and, Bool.and_eq_true, decide_eq_true_eq] at hmatch
      exact List.inj_on_of_nodup_map hunique hother hpanel hmatch.1

end Undisturbed

end LitmusPortal.Analytics
