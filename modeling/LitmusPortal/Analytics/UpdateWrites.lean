import LitmusPortal.Analytics.IntegrityRuns

/-!
# What an update of a dashboard writes

The panels of a request are written one after the other, those without an id under new ones, and then those that are
left out. An update that ends without an error has made all of these writes; a panel shows the last one under its id.
-/

namespace LitmusPortal.Analytics

open DocumentStore Program

variable {env : Env} {before : Database}

/-! ### The ids that are drawn -/

/-- Ids that were drawn up to some tick, each at a tick of its own. -/
def Drawn (env : Env) (ids : List String) (world : World) : Prop :=
  ∃ ticks : List ℕ, ticks.Nodup ∧ (∀ n ∈ ticks, n < world.ticks) ∧ ids = ticks.map env.uuid

theorem Drawn.later {ids : List String} {world world' : World} (h : Drawn env ids world)
    (hle : world.ticks ≤ world'.ticks) : Drawn env ids world' := by
  obtain ⟨ticks, hnodup, hlt, hids⟩ := h
  exact ⟨ticks, hnodup, fun n hn => (hlt n hn).trans_le hle, hids⟩

/-- A call that draws ids after some others. -/
def Draws (env : Env) {α : Type} (call : Call α) (drawn : α → List String) : Prop :=
  ∀ ids, Triple (Drawn env ids) call (fun a => Drawn env (ids ++ drawn a)) fun _ => True

theorem Draws.pure {α : Type} {a : α} {drawn : α → List String} (h : drawn a = []) :
    Draws env (Pure.pure a : Call α) drawn := by
  intro ids
  refine Triple.pure fun world hworld => ?_
  rwa [h, List.append_nil]

theorem draws_newUUID : Draws env (newUUID env) fun id => [id] := by
  intro ids
  refine @Triple.bind _ _ _ _ _ _ _ _ (fun n => Drawn env (ids ++ [env.uuid n])) _ ?_ fun n =>
    Triple.pure fun _ hworld => hworld
  refine Triple.modifyGet ?_
  rintro world ⟨ticks, hnodup, hlt, rfl⟩
  have hfresh : world.ticks ∉ ticks := fun hmem => absurd (hlt _ hmem) (by omega)
  refine ⟨ticks ++ [world.ticks], hnodup.append (List.nodup_singleton _) (by simpa using hfresh), ?_, by simp⟩
  intro n hn
  rcases List.mem_append.mp hn with hn | hn
  · exact (hlt n hn).trans (Nat.lt_succ_self _)
  · rw [List.mem_singleton.mp hn]
    exact Nat.lt_succ_self _

/-- A call that draws nothing. -/
def Idle (env : Env) {α : Type} (call : Call α) : Prop :=
  ∀ ids, Triple (Drawn env ids) call (fun _ => Drawn env ids) fun _ => True

theorem Idle.bind {α β : Type} {call : Call α} {rest : α → Call β} (hcall : Idle env call)
    (hrest : ∀ a, Idle env (rest a)) : Idle env (call >>= rest) :=
  fun ids => Triple.bind (hcall ids) fun a => hrest a ids

theorem Draws.idle_bind {α β : Type} {call : Call α} {rest : α → Call β} {drawn : β → List String}
    (hcall : Idle env call) (hrest : ∀ a, Draws env (rest a) drawn) : Draws env (call >>= rest) drawn :=
  fun ids => Triple.bind (hcall ids) fun a => hrest a ids

theorem idle_pure {α : Type} {a : α} : Idle env (Pure.pure a : Call α) := fun _ => Triple.pure fun _ h => h

theorem idle_tick : Idle env tick :=
  fun _ => Triple.modifyGet fun _ hworld => hworld.later (Nat.le_succ _)

theorem idle_timestamp : Idle env (timestamp env) := idle_tick.bind fun _ => idle_pure

theorem idle_copy {α : Type} {value : α} : Idle env (copy env value) :=
  idle_tick.bind fun _ _ => Triple.ite (fun _ => Triple.throw fun _ _ => trivial) fun _ => idle_pure _

theorem idle_deref {α : Type} {pointer : Option α} : Idle env (deref pointer) := by
  cases pointer with
  | none => exact fun _ => Triple.throw fun _ _ => trivial
  | some value => exact idle_pure

theorem Draws.mapM {ι α : Type} {f : ι → Call α} {drawn : ι → α → List String} {items : List ι}
    (h : ∀ item, Draws env (f item) (drawn item)) :
    Draws env (items.mapM f) fun results => (List.zipWith drawn items results).flatten := by
  induction items with
  | nil => exact Draws.pure rfl
  | cons item items ih =>
      intro ids
      rw [List.mapM_cons]
      refine Triple.bind (h item ids) fun a => Triple.bind (ih (ids ++ drawn item a)) fun results => ?_
      refine Triple.pure fun world hworld => ?_
      change Drawn env (ids ++ (drawn item a ++ (List.zipWith drawn items results).flatten)) world
      rwa [← List.append_assoc]

def newPanelIDs (planned : Bool × Panel) : List String := if planned.1 then [planned.2.panelID] else []

def newGroupIDs (group : Option UpdatePanelGroupInput) (planned : PanelGroup × List (Bool × Panel)) : List String :=
  (if group.elim "" (·.panelGroupID) = "" then [planned.1.panelGroupID] else []) ++
    (List.zipWith (fun _ => newPanelIDs) (group.elim [] (·.panels)) planned.2).flatten

theorem draws_planPanel {panelGroupID : String} {panel : Option PanelInput} :
    Draws env (planPanel env panelGroupID panel) newPanelIDs := by
  refine Draws.idle_bind idle_deref fun panel => Draws.idle_bind idle_deref fun givenID => ?_
  intro ids
  by_cases hnew : givenID = ""
  · simp only [hnew, if_true]
    refine Triple.bind (draws_newUUID ids) fun id => ?_
    refine Triple.bind (idle_timestamp _) fun _ => Triple.bind (idle_timestamp _) fun _ => ?_
    exact Triple.bind (idle_copy _) fun _ => Triple.bind (idle_copy _) fun _ => Triple.pure fun _ h => h
  · simp only [hnew, if_false]
    refine Triple.bind (idle_pure ids) fun _ => Triple.bind (idle_deref _) fun _ => ?_
    refine Triple.bind (idle_timestamp _) fun _ => Triple.bind (idle_copy _) fun _ => ?_
    exact Triple.bind (idle_copy _) fun _ => Draws.pure rfl ids

theorem draws_planPanelGroup {group : Option UpdatePanelGroupInput} :
    Draws env (planPanelGroup env group) (newGroupIDs group) := by
  cases group with
  | none => exact fun _ => Triple.throw fun _ _ => trivial
  | some group =>
      intro ids
      have hpanels : ∀ id, Draws env (group.panels.mapM (planPanel env id)) fun panels =>
          (List.zipWith (fun _ => newPanelIDs) group.panels panels).flatten :=
        fun id => Draws.mapM fun _ => draws_planPanel
      by_cases hnew : group.panelGroupID = ""
      · simp only [planPanelGroup, deref, pure_bind, hnew, if_true]
        refine Triple.bind (draws_newUUID ids) fun id => Triple.bind (hpanels id _) fun panels => ?_
        refine Triple.pure fun world hworld => ?_
        simpa [newGroupIDs, hnew] using hworld
      · simp only [planPanelGroup, deref, pure_bind, hnew, if_false]
        refine Triple.bind (hpanels _ ids) fun panels => Triple.pure fun world hworld => ?_
        simpa [newGroupIDs, hnew] using hworld

/-- The ids of a plan are drawn at different ticks. -/
theorem drawn_planPanelGroups {groups : List (Option UpdatePanelGroupInput)} {pre : World → Prop} :
    Triple pre (groups.mapM (planPanelGroup env))
      (fun plan => Drawn env (List.zipWith newGroupIDs groups plan).flatten) fun _ => True := by
  have hdraws := @Draws.mapM env _ _ (planPanelGroup env) newGroupIDs groups (fun _ => draws_planPanelGroup) []
  exact hdraws.mono (fun _ _ => ⟨[], List.nodup_nil, by simp, rfl⟩) (fun _ _ h => h) fun _ _ => trivial

theorem Drawn.nodup {ids : List String} {world : World} (h : Drawn env ids world)
    (huuid : Function.Injective env.uuid) : ids.Nodup := by
  obtain ⟨ticks, hnodup, -, rfl⟩ := h
  exact hnodup.map huuid

/-! ### The panels under their last writes -/

def PanelInput.contents (panel : PanelInput) :=
  (panel.panelName, panel.panelOptions.getD noOptions, panel.promQueries, panel.yAxisLeft, panel.yAxisRight,
    panel.xAxisDown, panel.unit)

def Panel.contents (panel : Panel) :=
  (panel.panelName, panel.panelOptions, panel.promQueries, panel.yAxisLeft, panel.yAxisRight, panel.xAxisDown,
    panel.unit)

def lastWrite (writes : List Panel) (id : String) : Option Panel :=
  (writes.filter fun panel => panel.panelID = id).getLast?

theorem lastWrite_append (writes : List Panel) (panel : Panel) (id : String) :
    lastWrite (writes ++ [panel]) id = if panel.panelID = id then some panel else lastWrite writes id := by
  unfold lastWrite
  by_cases hid : panel.panelID = id
  · simp [hid]
  · simp [hid]

theorem lastWrite_eq_none_iff {writes : List Panel} {id : String} :
    lastWrite writes id = none ↔ ∀ panel ∈ writes, panel.panelID ≠ id := by
  simp [lastWrite]

theorem mem_of_lastWrite {writes : List Panel} {panel : Panel} {id : String} (h : lastWrite writes id = some panel) :
    panel ∈ writes ∧ panel.panelID = id := by
  simpa using List.mem_of_getLast? h

structure WrittenAs (panel doc : Panel) : Prop where
  isRemoved : doc.isRemoved = panel.isRemoved
  panelGroupID : doc.panelGroupID = panel.panelGroupID
  contents : doc.contents = panel.contents

structure Overwritten (writes : List Panel) (old new : Panel) : Prop where
  panelID : new.panelID = old.panelID
  createdAt : new.createdAt = old.createdAt
  unwritten : lastWrite writes old.panelID = none → new = old
  written : ∀ panel, lastWrite writes old.panelID = some panel → WrittenAs panel new

theorem Overwritten.refl (doc : Panel) : Overwritten [] doc doc :=
  ⟨rfl, rfl, fun _ => rfl, fun _ h => by cases h⟩

theorem Overwritten.write {writes : List Panel} {old new : Panel} (h : Overwritten writes old new) (panel : Panel)
    (time : String) : Overwritten (writes ++ [panel]) old
      (if decide (new.panelID = panel.panelID) then (setPanel panel time).val new else new) := by
  rw [h.panelID]
  by_cases hid : panel.panelID = old.panelID
  · have hlast : lastWrite (writes ++ [panel]) old.panelID = some panel := by rw [lastWrite_append, if_pos hid]
    rw [if_pos (by simp [hid])]
    refine ⟨h.panelID, h.createdAt, fun hnone => ?_, fun last hsome => ?_⟩
    · rw [hlast] at hnone
      cases hnone
    · obtain rfl := Option.some.inj (hlast.symm.trans hsome)
      exact ⟨rfl, rfl, rfl⟩
  · have hlast : lastWrite (writes ++ [panel]) old.panelID = lastWrite writes old.panelID := by
      rw [lastWrite_append, if_neg hid]
    rw [if_neg (by simpa using Ne.symm hid)]
    exact ⟨h.panelID, h.createdAt, fun hnone => h.unwritten (hlast ▸ hnone), fun last hsome =>
      h.written last (hlast ▸ hsome)⟩

/-- Some panels were written over those of `base`. -/
structure Rewritten (before : Database) (base writes : List Panel) (db : Database) : Prop where
  dashboards : db.dashboards = before.dashboards
  panels : base.Forall₂ (Overwritten writes) db.panels.docs
  found : ∀ panel ∈ writes, ∃ doc ∈ base, doc.panelID = panel.panelID

theorem Rewritten.write {base writes : List Panel} {db : Database} (h : Rewritten before base writes db)
    {panel : Panel} (hfound : db.panels.docs.any (fun doc => doc.panelID = panel.panelID) = true) (time : String) :
    Rewritten before base (writes ++ [panel]) { db with
      panels := db.panels.update (fun doc => doc.panelID = panel.panelID) (setPanel panel time) } where
  dashboards := h.dashboards
  panels := by
    rw [Documents.docs_update panel.panelID fun _ hmatch => of_decide_eq_true hmatch, List.forall₂_map_right_iff]
    exact h.panels.imp fun _ _ hdoc => hdoc.write panel time
  found := by
    intro other hother
    rcases List.mem_append.mp hother with hother | hother
    · exact h.found other hother
    · rw [List.mem_singleton.mp hother]
      obtain ⟨doc, hdoc, hid⟩ := List.any_eq_true.mp hfound
      obtain ⟨old, hold, hwritten⟩ := exists_left_of_forall₂ h.panels hdoc
      exact ⟨old, hold, hwritten.panelID.symm.trans (of_decide_eq_true hid)⟩

theorem rewritten_writePanel {base writes : List Panel} {panel : Panel} :
    Triple (fun world => Rewritten before base writes world.db) (writePanel env panel)
      (fun _ world => Rewritten before base (writes ++ [panel]) world.db) fun _ => True := by
  have hdone : ∀ world : World, Rewritten before base writes world.db → True := fun _ _ => trivial
  refine triple_bind_yields (fun _ => yields_timestamp) hdone fun time _ _ _ => ?_
  refine Triple.ite (fun _ => Triple.throw hdone) fun _ => ?_
  refine triple_bind_yields (fun _ => yields_copy) hdone fun panelOptions _ _ hoptions => ?_
  refine triple_bind_yields (fun _ => yields_copy) hdone fun promQueries _ _ hqueries => ?_
  subst hoptions hqueries
  refine (@triple_updatePanel env (Rewritten before base writes) _ _).mono (fun _ hs => hs) ?_ fun _ _ => trivial
  rintro _ world ⟨db, hdb, hfound, hworld⟩
  rw [hworld]
  exact hdb.write hfound time

theorem rewritten_writePanels {base panels : List Panel} :
    Triple (fun world => Rewritten before base [] world.db) (panels.forM (writePanel env))
      (fun _ world => Rewritten before base panels world.db) fun _ => True :=
  @Triple.forM_prefix World GoError Panel (fun _ => True) (writePanel env) panels
    (fun front world => Rewritten before base front world.db) fun _ _ _ _ => rewritten_writePanel

theorem docs_addPanels {panels : List Panel} {db : Database}
    (h : ((db.panels.docs ++ panels).map (·.panelID)).Nodup) :
    (applySteps (panels.map fun panel db => { db with panels := db.panels.add panel }) db).dashboards =
        db.dashboards ∧
      (applySteps (panels.map fun panel db => { db with panels := db.panels.add panel }) db).panels.docs =
        db.panels.docs ++ panels := by
  induction panels generalizing db with
  | nil => exact ⟨rfl, (List.append_nil _).symm⟩
  | cons panel rest ih =>
      have hfresh : panel.panelID ∉ db.panels.docs.map (·.panelID) := by
        rw [List.map_append, List.map_cons] at h
        exact fun hmem => List.disjoint_of_nodup_append h hmem List.mem_cons_self
      have hadd := Documents.docs_add_of_notMem db.panels hfresh
      have hnext : (((db.panels.add panel).docs ++ rest).map (·.panelID)).Nodup := by
        rw [hadd, List.append_assoc]
        exact h
      obtain ⟨hdashboards, hdocs⟩ := @ih { db with panels := db.panels.add panel } hnext
      refine ⟨hdashboards, hdocs.trans ?_⟩
      change (db.panels.add panel).docs ++ rest = _
      rw [hadd, List.append_assoc]
      rfl

theorem rewritten_insertPanel {panels : List Panel} (h : ((before.panels.docs ++ panels).map (·.panelID)).Nodup) :
    Triple (fun world => world.db = before) (insertPanel env panels)
      (fun _ world => Rewritten before (before.panels.docs ++ panels) [] world.db) fun _ => True := by
  refine Triple.ite (fun _ => Triple.throw fun _ _ => trivial) fun _ => ?_
  refine @triple_write env _ (fun v => v.1 = before)
    (fun v => Rewritten before (before.panels.docs ++ panels) [] v.1) (fun _ => True) (fun db n hdb _ => ?_)
    fun _ _ _ _ _ => trivial
  rw [show db = before from hdb]
  obtain ⟨hdashboards, hdocs⟩ := docs_addPanels h
  refine ⟨hdashboards, ?_, fun _ hmem => absurd hmem List.not_mem_nil⟩
  dsimp only
  rw [hdocs]
  exact List.forall₂_same.mpr fun doc _ => Overwritten.refl doc

/-! ### A successful update -/

/-- The ids of `uuid.New` are new, and no two are the same. -/
structure FreshIDs (env : Env) (before : Database) (dashboard : UpdateDBInput) : Prop where
  injective : Function.Injective env.uuid
  panels : ∀ n, ∀ doc ∈ before.panels.docs, doc.panelID ≠ env.uuid n ∧ doc.panelGroupID ≠ some (env.uuid n)
  panelIDs : ∀ n, env.uuid n ∉ dashboard.panelIDs
  panelGroups : ∀ n group, some group ∈ dashboard.panelGroups → group.panelGroupID ≠ env.uuid n

def Plan.created (plan : Plan) : List Panel := ((plan.flatMap (·.2)).filter (·.1)).map (·.2)

def Plan.updated (plan : Plan) : List Panel := ((plan.flatMap (·.2)).filter (!·.1)).map (·.2)

def PlansPanel (panel : Option PanelInput) (planned : Bool × Panel) : Prop :=
  ∃ panel', panel = some panel' ∧ planned.2.contents = panel'.contents

def PlansGroup (group : Option UpdatePanelGroupInput) (planned : PanelGroup × List (Bool × Panel)) : Prop :=
  ∃ group', group = some group' ∧ planned.1.panelGroupName = group'.panelGroupName ∧
    group'.panels.Forall₂ PlansPanel planned.2

theorem yields_planPanel_contents {v : Database × Nat} {panelGroupID : String} {panel : Option PanelInput} :
    Yields World.seen v (planPanel env panelGroupID panel) (PlansPanel panel) := by
  refine Yields.bind yields_deref fun panel' hpanel => Yields.bind yields_deref fun givenID _ => ?_
  subst hpanel
  have hrest : ∀ id createdAt, Yields World.seen v (do
      let updatedAt ← timestamp env
      let promQueries ← copy env panel'.promQueries
      let panelOptions ← copy env (panel'.panelOptions.getD noOptions)
      return (decide (givenID = ""), ({
        panelID := id
        panelOptions := panelOptions
        panelName := panel'.panelName
        panelGroupID := some panelGroupID
        promQueries := promQueries
        yAxisLeft := panel'.yAxisLeft
        yAxisRight := panel'.yAxisRight
        xAxisDown := panel'.xAxisDown
        unit := panel'.unit
        createdAt := createdAt
        updatedAt := updatedAt
        isRemoved := false } : Panel))) (PlansPanel (some panel')) := by
    intro id createdAt
    refine Yields.bind yields_timestamp fun _ _ => Yields.bind yields_copy fun _ hqueries => ?_
    refine Yields.bind yields_copy fun _ hoptions => Yields.pure ⟨panel', rfl, ?_⟩
    rw [Panel.contents, PanelInput.contents, hqueries, hoptions]
  by_cases hnew : givenID = ""
  · simp only [hnew, if_true]
    refine Yields.bind yields_newUUID fun id _ => Yields.bind yields_timestamp fun createdAt _ => ?_
    simpa only [hnew] using hrest id createdAt
  · simp only [hnew, if_false]
    refine Yields.bind (Yields.pure (rfl : givenID = givenID)) fun id _ => ?_
    refine Yields.bind yields_deref fun createdAt _ => ?_
    simpa only [hnew] using hrest id createdAt

theorem yields_planPanelGroups_contents {v : Database × Nat} {groups : List (Option UpdatePanelGroupInput)} :
    Yields World.seen v (groups.mapM (planPanelGroup env)) (groups.Forall₂ PlansGroup) := by
  refine Yields.mapM fun group _ => Yields.bind yields_deref fun group' hgroup => ?_
  have hrest : ∀ id, Yields World.seen v (do
      let panels ← group'.panels.mapM (planPanel env id)
      return ((⟨group'.panelGroupName, id⟩ : PanelGroup), panels)) (PlansGroup group) := fun id =>
    Yields.bind (Yields.mapM fun _ _ => yields_planPanel_contents) fun panels hpanels =>
      Yields.pure ⟨group', hgroup, rfl, hpanels⟩
  exact Yields.ite (fun _ => Yields.bind yields_newUUID fun id _ => hrest id) fun _ =>
    Yields.bind (Yields.pure (rfl : group'.panelGroupID = group'.panelGroupID)) fun id _ => hrest id

theorem created_panelIDs {groups : List (Option UpdatePanelGroupInput)} {plan : Plan}
    (h : List.Forall₂ (PlannedGroup env) groups plan) :
    (plan.created.map (·.panelID)).Sublist (List.zipWith newGroupIDs groups plan).flatten := by
  have hpanels : ∀ (panels : List (Option PanelInput)) (id : String) (planned : List (Bool × Panel)),
      panels.Forall₂ (PlannedAs env id) planned →
        (List.zipWith (fun _ => newPanelIDs) panels planned).flatten =
          ((planned.filter (·.1)).map (·.2)).map (·.panelID) := by
    intro panels id planned hplanned
    induction hplanned with
    | nil => rfl
    | @cons panel planned panels rest _ _ ih =>
        obtain ⟨isNew, doc⟩ := planned
        cases isNew <;> simp [newPanelIDs, ih]
  unfold Plan.created
  induction h with
  | nil => exact .slnil
  | @cons group planned groups rest hplanned _ ih =>
      obtain ⟨group', rfl, -, hlist⟩ := hplanned
      rw [List.flatMap_cons, List.filter_append, List.map_append, List.map_append, List.zipWith_cons_cons,
        List.flatten_cons, newGroupIDs, ← hpanels _ _ _ hlist]
      exact (List.sublist_append_right _ _).append ih

theorem exists_uuid_of_created {groups : List (Option UpdatePanelGroupInput)} {plan : Plan}
    (h : List.Forall₂ (PlannedGroup env) groups plan) {panel : Panel} (hpanel : panel ∈ plan.created) :
    ∃ n, panel.panelID = env.uuid n := by
  obtain ⟨pair, hpair, rfl⟩ := List.mem_map.mp hpanel
  obtain ⟨hmem, hnew⟩ := List.mem_filter.mp hpair
  obtain ⟨_, -, _, -, -, -, hid⟩ := plannedAs_of_mem h hmem
  rw [if_pos hnew] at hid
  exact hid.2

/-- What a successful update has planned and left. -/
structure UpdateOutcome (env : Env) (before : Database) (projectID : String) (dashboard : UpdateDBInput) (plan : Plan)
    (existing : DashBoard) (removals : List (List Panel)) (time : String) (after : Database) : Prop where
  planned : dashboard.panelGroups.Forall₂ (PlannedGroup env) plan
  contents : dashboard.panelGroups.Forall₂ PlansGroup plan
  nodup : (List.zipWith newGroupIDs dashboard.panelGroups plan).flatten.Nodup
  find : before.dashboards.docs.find? (liveDashboard projectID (some dashboard.dbID)) = some existing
  removed : existing.panelGroups.Forall₂ (fun group => List.Forall₂
    (fun doc removal : Panel => removal.panelID = doc.panelID ∧ removal.isRemoved = true)
    ((before.panels.docs.filter (panelsOfGroup group)).filter fun panel =>
      panel.panelID ∉ plan.updated.map (·.panelID))) removals
  panels : (before.panels.docs ++ plan.created).Forall₂ (Overwritten (plan.updated ++ removals.flatten))
    after.panels.docs
  found : ∀ panel ∈ plan.updated, ∃ doc ∈ before.panels.docs ++ plan.created, doc.panelID = panel.panelID
  dashboards : after.dashboards = before.dashboards.update (liveDashboard projectID (some dashboard.dbID))
    (setDashboard dashboard (plan.map (·.1)) time)

theorem nodup_created {dashboard : UpdateDBInput} (huuid : FreshIDs env before dashboard) {plan : Plan}
    (hplanned : List.Forall₂ (PlannedGroup env) dashboard.panelGroups plan)
    (hnodup : (List.zipWith newGroupIDs dashboard.panelGroups plan).flatten.Nodup) :
    ((before.panels.docs ++ plan.created).map (·.panelID)).Nodup := by
  rw [List.map_append]
  refine before.panels.unique.append ((created_panelIDs hplanned).nodup hnodup) fun id hold hnew => ?_
  obtain ⟨doc, hdoc, rfl⟩ := List.mem_map.mp hold
  obtain ⟨panel, hpanel, hid⟩ := List.mem_map.mp hnew
  obtain ⟨n, hn⟩ := exists_uuid_of_created hplanned hpanel
  exact (huuid.panels n doc hdoc).1 (hid.symm.trans hn)

theorem updateDashBoard_spec {projectID : String} {dashboard : UpdateDBInput}
    (huuid : FreshIDs env before dashboard) :
    Triple (fun world => world.db = before) (updateDashBoard env projectID dashboard false)
      (fun _ world => ∃ plan existing removals time,
        UpdateOutcome env before projectID dashboard plan existing removals time world.db) fun _ => True := by
  refine @triple_bind_yields _ _ _ _ (fun db => db = before) _ _ _ (fun _ => yields_timestamp) (fun _ _ => trivial)
    fun time _ _ _ => ?_
  refine Triple.ite (fun _ => Triple.throw fun _ _ => trivial) fun _ => ?_
  simp only [Bool.false_eq_true, if_false]
  have hplan : Triple (fun world => world.db = before) (dashboard.panelGroups.mapM (planPanelGroup env))
      (fun plan world => (dashboard.panelGroups.Forall₂ (PlannedGroup env) plan ∧
        dashboard.panelGroups.Forall₂ PlansGroup plan ∧
        (List.zipWith newGroupIDs dashboard.panelGroups plan).flatten.Nodup) ∧ world.db = before) fun _ => True := by
    have hplanned := @Yields.triple _ _ _ _ World.seen _ (fun v => v.1 = before) _
      fun v _ => @yields_planPanelGroups env v dashboard.panelGroups
    have hcontents := @Yields.triple _ _ _ _ World.seen _ (fun v => v.1 = before) _
      fun v _ => @yields_planPanelGroups_contents env v dashboard.panelGroups
    refine ((hplanned.and hcontents).and drawn_planPanelGroups).mono (fun _ h => h) ?_ fun _ _ => trivial
    rintro plan world ⟨⟨⟨hgroups, hworld⟩, hnames, -⟩, hdrawn⟩
    exact ⟨⟨hgroups, hnames, hdrawn.nodup huuid.injective⟩, hworld⟩
  refine Triple.bind hplan fun (plan : Plan) => Triple.of_and fun ⟨hplanned, hcontents, hnodup⟩ => ?_
  refine @triple_bind_yields _ _ _ _ (fun db => db = before) _ _ _ (fun _ => triple_wrap yields_getDashboard)
    (fun _ _ => trivial) fun existing v hv hfind => ?_
  rw [hv] at hfind
  refine @triple_bind_yields _ _ _ _ (fun db => db = before) _ _ _
    (fun _ => Yields.mapM fun _ _ => yields_planRemovals) (fun _ _ => trivial) fun removals v hv hremovals => ?_
  rw [hv] at hremovals
  have hwrites : Triple (fun world => Rewritten before (before.panels.docs ++ plan.created) [] world.db)
      (do
        (plan.updated ++ removals.flatten).forM (writePanel env)
        updateDashboard env (liveDashboard projectID (some dashboard.dbID))
          (setDashboard dashboard (plan.map (·.1)) time))
      (fun _ world => ∃ plan existing removals time,
        UpdateOutcome env before projectID dashboard plan existing removals time world.db) fun _ => True := by
    refine Triple.bind rewritten_writePanels fun _ => ?_
    refine @triple_write_one env
      (Rewritten before (before.panels.docs ++ plan.created) (plan.updated ++ removals.flatten))
      (fun db => ∃ plan existing removals time,
        UpdateOutcome env before projectID dashboard plan existing removals time db)
      (fun _ => True) _ (fun _ _ => trivial) (fun db hdb => ?_) fun _ _ => trivial
    refine ⟨plan, existing, removals, time, hplanned, hcontents, hnodup, hfind, hremovals, hdb.panels, ?_, ?_⟩
    · exact fun panel hpanel => hdb.found panel (List.mem_append_left _ hpanel)
    · rw [← hdb.dashboards]
  have hstart : ∀ panels : List Panel, panels = [] → ∀ world : World, world.db = before →
      Rewritten before (before.panels.docs ++ panels) [] world.db := by
    rintro _ rfl world hworld
    rw [hworld, List.append_nil]
    exact ⟨rfl, List.forall₂_same.mpr fun doc _ => Overwritten.refl doc, fun _ h => absurd h List.not_mem_nil⟩
  refine Triple.ite (fun _ => ?_) fun hnone => ?_
  · refine Triple.bind (triple_orElse (rewritten_insertPanel ?_)) fun _ => hwrites
    exact nodup_created huuid hplanned hnodup
  · exact hwrites.mono (hstart _ (not_not.mp hnone)) (fun _ _ h => h) fun _ h => h

end LitmusPortal.Analytics
