import LitmusPortal.Analytics.UpdateWrites

/-!
# Where an update leaves the panels

After an update the groups of the dashboard are to show the panels of the request and no others. The update reads the
panels of the groups that the dashboard had, and so does not see those in groups that it did not have.
-/

namespace LitmusPortal.Analytics

open DocumentStore Program

variable {env : Env} {before after : Database} {projectID : String} {dashboard : UpdateDBInput}

/-! ### The panels of a request -/

def UpdateDBInput.Requests (dashboard : UpdateDBInput) (i j : ℕ) (group : UpdatePanelGroupInput)
    (panel : PanelInput) : Prop :=
  dashboard.panelGroups[i]? = some (some group) ∧ group.panels[j]? = some (some panel)

structure PanelShows (panelGroupID : String) (panel : PanelInput) (doc : Panel) : Prop where
  isRemoved : doc.isRemoved = false
  panelGroupID : doc.panelGroupID = some panelGroupID
  contents : doc.contents = panel.contents

/-- The live panels in the groups of the stored dashboard are those of the request, each in its group, under these
ids: a panel with an id is updated in place, one without is new. -/
structure PlacedUnder (before after : Database) (projectID : String) (dashboard : UpdateDBInput)
    (groupID : ℕ → String) (panelID : ℕ → ℕ → String) : Prop where
  stored : ∃ doc ∈ after.dashboards.docs, liveDashboard projectID (some dashboard.dbID) doc = true ∧
    ∀ i : ℕ, doc.panelGroups[i]? =
      dashboard.panelGroups[i]?.join.map fun group => ⟨group.panelGroupName, groupID i⟩
  givenGroup : ∀ (i : ℕ) group, dashboard.panelGroups[i]? = some (some group) → group.panelGroupID ≠ "" →
    groupID i = group.panelGroupID
  newGroup : ∀ (i : ℕ) group, dashboard.panelGroups[i]? = some (some group) → group.panelGroupID = "" →
    ∀ (i' : ℕ) group', dashboard.panelGroups[i']? = some (some group') → groupID i' = groupID i → i' = i
  updated : ∀ i j group panel id, dashboard.Requests i j group panel → idOf (some panel) = some id →
    panelID i j = id ∧ ∃ (k : ℕ) (old new : Panel), before.panels.docs[k]? = some old ∧ old.panelID = id ∧
      after.panels.docs[k]? = some new ∧ new.panelID = id ∧ new.createdAt = old.createdAt
  created : ∀ i j group panel, dashboard.Requests i j group panel → idOf (some panel) = none →
    ¬ HasPanel before (panelID i j) ∧ ∀ i' j' group' panel', dashboard.Requests i' j' group' panel' →
      panelID i' j' = panelID i j → i' = i ∧ j' = j
  shown : ∀ i j group panel, dashboard.Requests i j group panel →
    ∃ doc ∈ after.panels.docs, doc.panelID = panelID i j ∧ PanelShows (groupID i) panel doc
  only : ∀ doc ∈ after.panels.docs, doc.isRemoved = false → ∀ (i : ℕ) group,
    dashboard.panelGroups[i]? = some (some group) → doc.panelGroupID = some (groupID i) →
      ∃ i j group panel, dashboard.Requests i j group panel ∧ doc.panelID = panelID i j

def Placed (before after : Database) (projectID : String) (dashboard : UpdateDBInput) : Prop :=
  ∃ groupID panelID, PlacedUnder before after projectID dashboard groupID panelID

/-- A panel that is requested twice is requested for one group with one content, and the groups that the dashboard did
not have before show no panels but those of the request. -/
structure Settled (before : Database) (projectID : String) (dashboard : UpdateDBInput) : Prop where
  consistent : ∀ i j group panel i' j' group' panel' id,
    dashboard.Requests i j group panel → dashboard.Requests i' j' group' panel' →
      idOf (some panel) = some id → idOf (some panel') = some id →
        (i' = i ∨ group'.panelGroupID = group.panelGroupID ∧ group.panelGroupID ≠ "") ∧
          panel'.contents = panel.contents
  others : ∀ doc ∈ before.panels.docs, doc.isRemoved = false → ∀ group, some group ∈ dashboard.panelGroups →
    group.panelGroupID ≠ "" → doc.panelGroupID = some group.panelGroupID →
      doc.panelID ∈ dashboard.panelIDs ∨ ∃ existing ∈ before.dashboards.docs,
        liveDashboard projectID (some dashboard.dbID) existing = true ∧
          ∃ group' ∈ existing.panelGroups, group'.panelGroupID = group.panelGroupID

theorem mem_panelIDs_iff {id : String} :
    id ∈ dashboard.panelIDs ↔
      ∃ i j group panel, dashboard.Requests i j group panel ∧ idOf (some panel) = some id := by
  constructor
  · intro h
    obtain ⟨group, hgroup, hid⟩ := List.mem_flatMap.mp h
    obtain ⟨panel, hpanel, hidOf⟩ := List.mem_filterMap.mp hid
    cases group with
    | none => exact absurd hpanel List.not_mem_nil
    | some group =>
        cases panel with
        | none => cases hidOf
        | some panel =>
            obtain ⟨i, hi⟩ := List.mem_iff_getElem?.mp hgroup
            obtain ⟨j, hj⟩ := List.mem_iff_getElem?.mp hpanel
            exact ⟨i, j, group, panel, ⟨hi, hj⟩, hidOf⟩
  · rintro ⟨i, j, group, panel, ⟨hgroup, hpanel⟩, hid⟩
    refine List.mem_flatMap.mpr ⟨some group, List.mem_of_getElem? hgroup, ?_⟩
    exact List.mem_filterMap.mpr ⟨some panel, List.mem_of_getElem? hpanel, hid⟩

/-! ### What a request and its plan have at a place -/

variable {plan : Plan} {existing : DashBoard} {removals : List (List Panel)} {time : String}

def Plan.groupID (plan : Plan) (i : ℕ) : String := (plan[i]?.map (·.1.panelGroupID)).getD ""

def Plan.panelID (plan : Plan) (i j : ℕ) : String := ((plan[i]?.bind (·.2[j]?)).map (·.2.panelID)).getD ""

theorem Plan.mem_updated {i j : ℕ} {planned : PanelGroup × List (Bool × Panel)} {pair : Bool × Panel}
    (hplanned : plan[i]? = some planned) (hpair : planned.2[j]? = some pair) (hold : pair.1 = false) :
    pair.2 ∈ plan.updated := by
  refine List.mem_map_of_mem (List.mem_filter.mpr ⟨?_, by rw [hold]; rfl⟩)
  exact List.mem_flatMap.mpr ⟨planned, List.mem_of_getElem? hplanned, List.mem_of_getElem? hpair⟩

theorem Plan.mem_created {i j : ℕ} {planned : PanelGroup × List (Bool × Panel)} {pair : Bool × Panel}
    (hplanned : plan[i]? = some planned) (hpair : planned.2[j]? = some pair) (hnew : pair.1 = true) :
    pair.2 ∈ plan.created := by
  refine List.mem_map_of_mem (List.mem_filter.mpr ⟨?_, hnew⟩)
  exact List.mem_flatMap.mpr ⟨planned, List.mem_of_getElem? hplanned, List.mem_of_getElem? hpair⟩

theorem eq_of_mem_flatten {α : Type} {lists : List (List α)} (h : lists.flatten.Nodup) {i i' : ℕ}
    {left right : List α} (hleft : lists[i]? = some left) (hright : lists[i']? = some right) {a : α} (ha : a ∈ left)
    (ha' : a ∈ right) : i' = i := by
  obtain ⟨hi, rfl⟩ := List.getElem?_eq_some_iff.mp hleft
  obtain ⟨hi', rfl⟩ := List.getElem?_eq_some_iff.mp hright
  have hdisjoint := List.pairwise_iff_getElem.mp (List.nodup_flatten.mp h).2
  rcases Nat.lt_trichotomy i i' with hlt | heq | hlt
  · exact (hdisjoint i i' hi hi' hlt ha ha').elim
  · exact heq.symm
  · exact (hdisjoint i' i hi' hi hlt ha' ha).elim

theorem newIDs_at {i : ℕ} {group : UpdatePanelGroupInput} {planned : PanelGroup × List (Bool × Panel)}
    (hgroup : dashboard.panelGroups[i]? = some (some group)) (hplanned : plan[i]? = some planned) :
    (List.zipWith newGroupIDs dashboard.panelGroups plan)[i]? = some (newGroupIDs (some group) planned) := by
  rw [List.getElem?_zipWith, hgroup, hplanned]

theorem newPanelIDs_at {i j : ℕ} {group : UpdatePanelGroupInput} {panel : PanelInput}
    {planned : List (Bool × Panel)} {pair : Bool × Panel} (hrequest : dashboard.Requests i j group panel)
    (hpair : planned[j]? = some pair) :
    (List.zipWith (fun _ => newPanelIDs) group.panels planned)[j]? = some (newPanelIDs pair) := by
  rw [List.getElem?_zipWith, hrequest.2, hpair]

theorem dbID_of_live {doc : DashBoard} (hmatch : liveDashboard projectID (some dashboard.dbID) doc = true) :
    doc.dbID = dashboard.dbID := by
  have hlive : doc.projectID = projectID ∧ some doc.dbID = some dashboard.dbID ∧ doc.isRemoved = false := by
    simpa [liveDashboard] using hmatch
  exact Option.some.inj hlive.2.1

namespace UpdateOutcome

variable (h : UpdateOutcome env before projectID dashboard plan existing removals time after)

include h

theorem group_at {i : ℕ} {group : UpdatePanelGroupInput} (hgroup : dashboard.panelGroups[i]? = some (some group)) :
    ∃ planned, plan[i]? = some planned ∧ planned.1.panelGroupName = group.panelGroupName ∧
      (planned.1.panelGroupID = group.panelGroupID ∧ group.panelGroupID ≠ "" ∨
        group.panelGroupID = "" ∧ ∃ n, planned.1.panelGroupID = env.uuid n) ∧
      group.panels.Forall₂ (PlannedAs env planned.1.panelGroupID) planned.2 ∧
      group.panels.Forall₂ PlansPanel planned.2 := by
  obtain ⟨planned, hplanned, group', hsome, hid, hpanels⟩ := getElem?_of_forall₂ h.planned hgroup
  obtain ⟨planned', hplanned', group'', hsome', hname, hcontents⟩ := getElem?_of_forall₂ h.contents hgroup
  obtain rfl := Option.some.inj hsome
  obtain rfl := Option.some.inj hsome'
  obtain rfl := Option.some.inj (hplanned.symm.trans hplanned')
  exact ⟨planned, hplanned, hname, hid, hpanels, hcontents⟩

theorem panel_at {i j : ℕ} {group : UpdatePanelGroupInput} {panel : PanelInput}
    (hrequest : dashboard.Requests i j group panel) :
    ∃ planned pair, plan[i]? = some planned ∧ planned.2[j]? = some pair ∧
      PlannedAs env planned.1.panelGroupID (some panel) pair ∧ pair.2.contents = panel.contents := by
  obtain ⟨planned, hplanned, -, -, hpanels, hcontents⟩ := h.group_at hrequest.1
  obtain ⟨pair, hpair, hplannedAs⟩ := getElem?_of_forall₂ hpanels hrequest.2
  obtain ⟨pair', hpair', panel', hsome, hsame⟩ := getElem?_of_forall₂ hcontents hrequest.2
  obtain rfl := Option.some.inj hsome
  obtain rfl := Option.some.inj (hpair.symm.trans hpair')
  exact ⟨planned, pair, hplanned, hpair, hplannedAs, hsame⟩

theorem request_of_mem {pair : Bool × Panel} (hpair : pair ∈ plan.flatMap (·.2)) :
    ∃ i j group panel planned, dashboard.Requests i j group panel ∧ plan[i]? = some planned ∧
      planned.2[j]? = some pair ∧ PlannedAs env planned.1.panelGroupID (some panel) pair ∧
      pair.2.contents = panel.contents := by
  obtain ⟨planned, hplanned, hmem⟩ := List.mem_flatMap.mp hpair
  obtain ⟨i, hi⟩ := List.mem_iff_getElem?.mp hplanned
  obtain ⟨j, hj⟩ := List.mem_iff_getElem?.mp hmem
  obtain ⟨request, hrequest, group, rfl, -, hpanels⟩ := getElem?_of_forall₂ h.planned.flip hi
  obtain ⟨input, hinput, hplannedAs⟩ := getElem?_of_forall₂ hpanels.flip hj
  obtain ⟨⟨panel, rfl, -⟩, -⟩ := hplannedAs
  obtain ⟨planned', pair', hplanned', hpair', hfacts⟩ := h.panel_at ⟨hrequest, hinput⟩
  obtain rfl := Option.some.inj (hi.symm.trans hplanned')
  obtain rfl := Option.some.inj (hj.symm.trans hpair')
  exact ⟨i, j, group, panel, planned, ⟨hrequest, hinput⟩, hi, hj, hfacts⟩

theorem updated_ids : plan.updated.map (·.panelID) = dashboard.panelIDs := by
  rw [Plan.updated, List.map_map]
  exact updateIDs_eq h.planned

theorem removal {panel : Panel} (hpanel : panel ∈ removals.flatten) :
    panel.isRemoved = true ∧ panel.panelID ∉ dashboard.panelIDs ∧
      ∃ doc ∈ before.panels.docs, doc.panelID = panel.panelID ∧
        ∃ group ∈ existing.panelGroups, panelsOfGroup group doc = true := by
  obtain ⟨list, hlist, hmem⟩ := List.mem_flatten.mp hpanel
  obtain ⟨group, hgroup, hpanels⟩ := exists_left_of_forall₂ h.removed hlist
  obtain ⟨doc, hdoc, hid, hremoved⟩ := exists_left_of_forall₂ hpanels hmem
  obtain ⟨hin, hnot⟩ := List.mem_filter.mp hdoc
  rw [h.updated_ids] at hnot
  obtain ⟨hbefore, hlisted⟩ := List.mem_filter.mp hin
  exact ⟨hremoved, by simpa [hid] using hnot, doc, hbefore, hid.symm, group, hgroup, hlisted⟩

theorem last_of_written {doc new : Panel}
    (hdoc : Overwritten (plan.updated ++ removals.flatten) doc new) (hid : doc.panelID ∈ dashboard.panelIDs) :
    ∃ panel ∈ plan.updated, panel.panelID = doc.panelID ∧ WrittenAs panel new := by
  cases hlast : lastWrite (plan.updated ++ removals.flatten) doc.panelID with
  | none =>
      rw [← h.updated_ids] at hid
      obtain ⟨panel, hpanel, hpanelID⟩ := List.mem_map.mp hid
      exact absurd hpanelID (lastWrite_eq_none_iff.mp hlast panel (List.mem_append_left _ hpanel))
  | some panel =>
      obtain ⟨hmem, hpanelID⟩ := mem_of_lastWrite hlast
      refine ⟨panel, (List.mem_append.mp hmem).resolve_right fun hremoval => ?_, hpanelID, hdoc.written panel hlast⟩
      rw [← hpanelID] at hid
      exact (h.removal hremoval).2.1 hid

theorem existing_eq {doc : DashBoard} (hdoc : doc ∈ before.dashboards.docs)
    (hmatch : liveDashboard projectID (some dashboard.dbID) doc = true) : existing = doc := by
  refine before.dashboards.eq_of_key (List.mem_of_find?_eq_some h.find) hdoc ?_
  rw [dbID_of_live (List.find?_some h.find), dbID_of_live hmatch]

/-- A panel with an id was there. -/
theorem exists_old (huuid : FreshIDs env before dashboard) {id : String} (hid : id ∈ dashboard.panelIDs) :
    ∃ (k : ℕ) (old new : Panel), before.panels.docs[k]? = some old ∧ old.panelID = id ∧
      after.panels.docs[k]? = some new ∧ Overwritten (plan.updated ++ removals.flatten) old new := by
  have hmem := hid
  rw [← h.updated_ids] at hmem
  obtain ⟨panel, hpanel, rfl⟩ := List.mem_map.mp hmem
  obtain ⟨old, hold, holdID⟩ := h.found panel hpanel
  have hbefore : old ∈ before.panels.docs := by
    refine (List.mem_append.mp hold).resolve_right fun hcreated => ?_
    obtain ⟨n, hn⟩ := exists_uuid_of_created h.planned hcreated
    rw [← holdID, hn] at hid
    exact huuid.panelIDs n hid
  obtain ⟨k, hk⟩ := List.mem_iff_getElem?.mp hbefore
  have hbase : (before.panels.docs ++ plan.created)[k]? = some old := by
    rw [List.getElem?_append_left (List.getElem?_eq_some_iff.mp hk).choose, hk]
  obtain ⟨new, hnew, hwritten⟩ := getElem?_of_forall₂ h.panels hbase
  exact ⟨k, old, new, hk, holdID, hnew, hwritten⟩

theorem created_after (huuid : FreshIDs env before dashboard) {panel : Panel} (hpanel : panel ∈ plan.created) :
    panel ∈ after.panels.docs := by
  obtain ⟨n, hn⟩ := exists_uuid_of_created h.planned hpanel
  obtain ⟨new, hnew, hwritten⟩ := exists_right_of_forall₂ h.panels (List.mem_append_right _ hpanel)
  have hunwritten : lastWrite (plan.updated ++ removals.flatten) panel.panelID = none := by
    rw [lastWrite_eq_none_iff]
    intro other hother hid
    rcases List.mem_append.mp hother with hother | hother
    · have hmem : other.panelID ∈ plan.updated.map (·.panelID) := List.mem_map_of_mem hother
      rw [h.updated_ids, hid, hn] at hmem
      exact huuid.panelIDs n hmem
    · obtain ⟨-, -, doc, hdoc, hdocID, -⟩ := h.removal hother
      exact (huuid.panels n doc hdoc).1 (hdocID.trans (hid.trans hn))
  rwa [hwritten.unwritten hunwritten] at hnew

theorem groupID_eq {i i' : ℕ} {group group' : UpdatePanelGroupInput} (huuid : FreshIDs env before dashboard)
    (hgroup : dashboard.panelGroups[i]? = some (some group)) (hnew : group.panelGroupID = "")
    (hgroup' : dashboard.panelGroups[i']? = some (some group')) (hid : plan.groupID i' = plan.groupID i) : i' = i := by
  obtain ⟨planned, hplanned, -, hplannedID, -⟩ := h.group_at hgroup
  obtain ⟨planned', hplanned', -, hplannedID', -⟩ := h.group_at hgroup'
  simp only [Plan.groupID, hplanned, hplanned', Option.map_some, Option.getD_some] at hid
  have hmem : planned.1.panelGroupID ∈ newGroupIDs (some group) planned := by simp [newGroupIDs, hnew]
  obtain ⟨n, hn⟩ := (hplannedID.resolve_left fun hgiven => hgiven.2 hnew).2
  rcases hplannedID' with ⟨hsame, -⟩ | ⟨hnew', -⟩
  · rw [hid, hn] at hsame
    exact absurd hsame.symm (huuid.panelGroups n group' (List.mem_of_getElem? hgroup'))
  · have hmem' : planned.1.panelGroupID ∈ newGroupIDs (some group') planned' := by simp [newGroupIDs, hnew', hid]
    exact eq_of_mem_flatten h.nodup (newIDs_at hgroup hplanned) (newIDs_at hgroup' hplanned') hmem hmem'

theorem panelID_eq {i j i' j' : ℕ} {group group' : UpdatePanelGroupInput} {panel panel' : PanelInput}
    (huuid : FreshIDs env before dashboard) (hrequest : dashboard.Requests i j group panel)
    (hnew : idOf (some panel) = none) (hrequest' : dashboard.Requests i' j' group' panel')
    (hid : plan.panelID i' j' = plan.panelID i j) : i' = i ∧ j' = j := by
  obtain ⟨planned, pair, hplanned, hpair, ⟨-, -, -, hpairID⟩, -⟩ := h.panel_at hrequest
  obtain ⟨planned', pair', hplanned', hpair', ⟨-, -, -, hpairID'⟩, -⟩ := h.panel_at hrequest'
  simp only [Plan.panelID, hplanned, hplanned', Option.bind_some, hpair, hpair', Option.map_some,
    Option.getD_some] at hid
  obtain ⟨isNew, doc⟩ := pair
  obtain ⟨isNew', doc'⟩ := pair'
  cases isNew with
  | false => cases hnew.symm.trans hpairID
  | true =>
      obtain ⟨n, hn⟩ := hpairID.2
      cases isNew' with
      | false =>
          have hmem := mem_panelIDs_iff.mpr ⟨i', j', group', panel', hrequest', hpairID'⟩
          dsimp only at hmem hid hn
          rw [hid, hn] at hmem
          exact (huuid.panelIDs n hmem).elim
      | true =>
          have hin := newPanelIDs_at hrequest hpair
          have hin' := newPanelIDs_at hrequest' hpair'
          have hinGroup : doc.panelID ∈ newGroupIDs (some group) planned := by
            refine List.mem_append_right _ (List.mem_flatten.mpr ⟨_, List.mem_of_getElem? hin, ?_⟩)
            simp [newPanelIDs]
          have hinGroup' : doc.panelID ∈ newGroupIDs (some group') planned' := by
            refine List.mem_append_right _ (List.mem_flatten.mpr ⟨_, List.mem_of_getElem? hin', ?_⟩)
            simpa [newPanelIDs] using hid.symm
          obtain rfl := eq_of_mem_flatten h.nodup (newIDs_at hrequest.1 hplanned)
            (newIDs_at hrequest'.1 hplanned') hinGroup hinGroup'
          obtain rfl := Option.some.inj (hplanned.symm.trans hplanned')
          obtain rfl := Option.some.inj (Option.some.inj (hrequest.1.symm.trans hrequest'.1))
          have hnodup : (newGroupIDs (some group) planned).Nodup :=
            (List.nodup_flatten.mp h.nodup).1 _ (List.mem_of_getElem? (newIDs_at hrequest.1 hplanned))
          refine ⟨rfl, eq_of_mem_flatten (List.nodup_append.mp hnodup).2.1 hin hin' (a := doc.panelID) ?_ ?_⟩
          · simp [newPanelIDs]
          · simpa [newPanelIDs] using hid.symm

/-! ### The update places the panels -/

theorem shown (huuid : FreshIDs env before dashboard) (hsettled : Settled before projectID dashboard) {i j : ℕ}
    {group : UpdatePanelGroupInput} {panel : PanelInput} (hrequest : dashboard.Requests i j group panel) :
    ∃ doc ∈ after.panels.docs, doc.panelID = plan.panelID i j ∧ PanelShows (plan.groupID i) panel doc := by
  obtain ⟨planned, ⟨isNew, doc⟩, hplanned, hpair, ⟨-, hlive, hgroup, hid⟩, hcontents⟩ := h.panel_at hrequest
  have hgroupID : plan.groupID i = planned.1.panelGroupID := by simp [Plan.groupID, hplanned]
  have hpanelID : plan.panelID i j = doc.panelID := by simp [Plan.panelID, hplanned, hpair]
  rw [hgroupID, hpanelID]
  cases isNew with
  | true =>
      have hcreated := h.created_after huuid (Plan.mem_created hplanned hpair rfl)
      exact ⟨doc, hcreated, rfl, hlive, hgroup, hcontents⟩
  | false =>
      have hin : doc.panelID ∈ dashboard.panelIDs := mem_panelIDs_iff.mpr ⟨i, j, group, panel, hrequest, hid⟩
      obtain ⟨k, old, new, -, holdID, hnew, hwritten⟩ := h.exists_old huuid hin
      obtain ⟨last, hlast, hlastID, hlastWritten⟩ := h.last_of_written hwritten (holdID ▸ hin)
      obtain ⟨⟨isNew', last⟩, hmem, rfl⟩ := List.mem_map.mp hlast
      obtain ⟨hmem, hold⟩ := List.mem_filter.mp hmem
      obtain ⟨i', j', group', panel', planned', hrequest', hplanned', -, ⟨-, hlive', hgroup', hid'⟩, hcontents'⟩ :=
        h.request_of_mem hmem
      cases isNew' with
      | true => cases hold
      | false =>
          have hid' : idOf (some panel') = some doc.panelID := hid'.trans (congrArg some (hlastID.trans holdID))
          obtain ⟨hsame, hsameContents⟩ := hsettled.consistent i j group panel i' j' group' panel' doc.panelID
            hrequest hrequest' hid hid'
          have hsameGroup : planned'.1.panelGroupID = planned.1.panelGroupID := by
            rcases hsame with rfl | ⟨hids, hne⟩
            · rw [Option.some.inj (hplanned.symm.trans hplanned')]
            · obtain ⟨found, hfound, -, hfoundID, -⟩ := h.group_at hrequest.1
              obtain ⟨found', hfound', -, hfoundID', -⟩ := h.group_at hrequest'.1
              obtain rfl := Option.some.inj (hplanned.symm.trans hfound)
              obtain rfl := Option.some.inj (hplanned'.symm.trans hfound')
              have hgiven := hfoundID.resolve_right fun hnew => hne hnew.1
              have hgiven' := hfoundID'.resolve_right fun hnew => hne (hids.symm.trans hnew.1)
              rw [hgiven.1, hgiven'.1, hids]
          refine ⟨new, List.mem_of_getElem? hnew, hwritten.panelID.trans holdID, ?_, ?_, ?_⟩
          · exact hlastWritten.isRemoved.trans hlive'
          · rw [hlastWritten.panelGroupID, ← hsameGroup]
            exact hgroup'
          · exact hlastWritten.contents.trans (hcontents'.trans hsameContents)

theorem only (huuid : FreshIDs env before dashboard) (hsettled : Settled before projectID dashboard) {new : Panel}
    (hnew : new ∈ after.panels.docs) (hlive : new.isRemoved = false) {i : ℕ} {group : UpdatePanelGroupInput}
    (hgroup : dashboard.panelGroups[i]? = some (some group)) (hin : new.panelGroupID = some (plan.groupID i)) :
    ∃ i j group panel, dashboard.Requests i j group panel ∧ new.panelID = plan.panelID i j := by
  have hplace : ∀ pair ∈ plan.flatMap (·.2), pair.2.panelID = new.panelID →
      ∃ i j group panel, dashboard.Requests i j group panel ∧ new.panelID = plan.panelID i j := by
    intro pair hpair hid
    obtain ⟨i, j, group, panel, planned, hrequest, hplanned, hat, -⟩ := h.request_of_mem hpair
    exact ⟨i, j, group, panel, hrequest, by simp [Plan.panelID, hplanned, hat, hid]⟩
  have hupdated : ∀ panel ∈ plan.updated, panel.panelID = new.panelID →
      ∃ i j group panel, dashboard.Requests i j group panel ∧ new.panelID = plan.panelID i j := by
    intro panel hpanel hid
    obtain ⟨pair, hpair, rfl⟩ := List.mem_map.mp hpanel
    exact hplace pair (List.mem_filter.mp hpair).1 hid
  obtain ⟨old, hold, hwritten⟩ := exists_left_of_forall₂ h.panels hnew
  rcases List.mem_append.mp hold with hold | hcreated
  · cases hlast : lastWrite (plan.updated ++ removals.flatten) old.panelID with
    | some panel =>
        obtain ⟨hmem, hid⟩ := mem_of_lastWrite hlast
        rcases List.mem_append.mp hmem with hmem | hremoval
        · exact hupdated panel hmem (hid.trans hwritten.panelID.symm)
        · have hremoved := (hwritten.written panel hlast).isRemoved
          rw [hlive, (h.removal hremoval).1] at hremoved
          cases hremoved
    | none =>
        obtain rfl := hwritten.unwritten hlast
        obtain ⟨planned, hplanned, -, hid, -⟩ := h.group_at hgroup
        have hgroupID : plan.groupID i = planned.1.panelGroupID := by simp [Plan.groupID, hplanned]
        rw [hgroupID] at hin
        rcases hid with ⟨hgiven, hne⟩ | ⟨-, n, hn⟩
        · rw [hgiven] at hin
          rcases hsettled.others new hold hlive group (List.mem_of_getElem? hgroup) hne hin with
            hmem | ⟨doc, hdoc, hmatch, group', hgroup', hid'⟩
          · rw [← h.updated_ids] at hmem
            obtain ⟨panel, hpanel, hpanelID⟩ := List.mem_map.mp hmem
            exact absurd hpanelID (lastWrite_eq_none_iff.mp hlast panel (List.mem_append_left _ hpanel))
          · obtain rfl := h.existing_eq hdoc hmatch
            have hlisted : panelsOfGroup group' new = true := by simp [panelsOfGroup, hid', hin, hlive]
            have hwrittenID := mem_update_ids h.removed group' hgroup' new hold hlisted
            obtain ⟨panel, hpanel, hpanelID⟩ := List.mem_map.mp hwrittenID
            exact absurd hpanelID (lastWrite_eq_none_iff.mp hlast panel hpanel)
        · rw [hn] at hin
          exact absurd hin (huuid.panels n new hold).2
  · obtain ⟨pair, hpair, rfl⟩ := List.mem_map.mp hcreated
    exact hplace pair (List.mem_filter.mp hpair).1 hwritten.panelID.symm

theorem stored : ∃ doc ∈ after.dashboards.docs, liveDashboard projectID (some dashboard.dbID) doc = true ∧
    ∀ i : ℕ, doc.panelGroups[i]? =
      dashboard.panelGroups[i]?.join.map fun group => ⟨group.panelGroupName, plan.groupID i⟩ := by
  have hmatch := List.find?_some h.find
  obtain ⟨k, hk⟩ := List.mem_iff_getElem?.mp (List.mem_of_find?_eq_some h.find)
  have hafter := @Documents.getElem?_update _ _ _ before.dashboards _
    (setDashboard dashboard (plan.map (·.1)) time) k existing hk hmatch
    fun other hother => (dbID_of_live hother).trans (dbID_of_live hmatch).symm
  rw [← h.dashboards] at hafter
  refine ⟨_, List.mem_of_getElem? hafter, hmatch, fun i => ?_⟩
  change (plan.map (·.1))[i]? = _
  rw [List.getElem?_map]
  cases hgroup : dashboard.panelGroups[i]? with
  | none =>
      have hlength := h.planned.length_eq
      rw [List.getElem?_eq_none_iff] at hgroup
      rw [List.getElem?_eq_none (by omega)]
      rfl
  | some group =>
      obtain ⟨planned, hplanned, group, rfl, -⟩ := getElem?_of_forall₂ h.planned hgroup
      obtain ⟨planned', hplanned', hname, -⟩ := h.group_at hgroup
      obtain rfl := Option.some.inj (hplanned.symm.trans hplanned')
      rw [hplanned, Plan.groupID, hplanned]
      exact congrArg (fun name => some (⟨name, planned.1.panelGroupID⟩ : PanelGroup)) hname

theorem placed (huuid : FreshIDs env before dashboard) (hsettled : Settled before projectID dashboard) :
    PlacedUnder before after projectID dashboard plan.groupID plan.panelID where
  stored := h.stored
  givenGroup i group hgroup hne := by
    obtain ⟨planned, hplanned, -, hid, -⟩ := h.group_at hgroup
    rw [Plan.groupID, hplanned]
    exact (hid.resolve_right fun hnew => hne hnew.1).1
  newGroup i group hgroup hnew i' group' hgroup' hid := h.groupID_eq huuid hgroup hnew hgroup' hid
  updated i j group panel id hrequest hid := by
    obtain ⟨planned, ⟨isNew, doc⟩, hplanned, hpair, ⟨-, -, -, hplannedID⟩, -⟩ := h.panel_at hrequest
    obtain ⟨k, old, new, hold, holdID, hnew, hwritten⟩ :=
      h.exists_old huuid (mem_panelIDs_iff.mpr ⟨i, j, group, panel, hrequest, hid⟩)
    refine ⟨?_, k, old, new, hold, holdID, hnew, hwritten.panelID.trans holdID, hwritten.createdAt⟩
    rw [Plan.panelID, hplanned, Option.bind_some, hpair]
    cases isNew with
    | true => cases hid.symm.trans hplannedID.1
    | false => exact Option.some.inj (hplannedID.symm.trans hid)
  created i j group panel hrequest hnew := by
    obtain ⟨planned, ⟨isNew, doc⟩, hplanned, hpair, ⟨-, -, -, hplannedID⟩, -⟩ := h.panel_at hrequest
    refine ⟨?_, fun i' j' group' panel' hrequest' hid => h.panelID_eq huuid hrequest hnew hrequest' hid⟩
    rw [Plan.panelID, hplanned, Option.bind_some, hpair]
    cases isNew with
    | false => cases hnew.symm.trans hplannedID
    | true =>
        obtain ⟨n, hn⟩ := hplannedID.2
        rintro ⟨old, hold, hid⟩
        exact (huuid.panels n old hold).1 (hid.trans hn)
  shown i j group panel hrequest := h.shown huuid hsettled hrequest
  only doc hdoc hlive i group hgroup hin := h.only huuid hsettled hdoc hlive hgroup hin

theorem settled_of_placed (hplaced : Placed before after projectID dashboard) :
    Settled before projectID dashboard := by
  obtain ⟨groupID, panelID, hplaced⟩ := hplaced
  refine ⟨fun i j group panel i' j' group' panel' id hrequest hrequest' hid hid' => ?_,
    fun doc hdoc hlive group hgroup hne hin => ?_⟩
  · obtain ⟨new, hnew, hnewID, hshows⟩ := hplaced.shown i j group panel hrequest
    obtain ⟨new', hnew', hnewID', hshows'⟩ := hplaced.shown i' j' group' panel' hrequest'
    rw [(hplaced.updated i j group panel id hrequest hid).1] at hnewID
    rw [(hplaced.updated i' j' group' panel' id hrequest' hid').1] at hnewID'
    obtain rfl := after.panels.eq_of_key hnew hnew' (hnewID.trans hnewID'.symm)
    have hgroups : groupID i' = groupID i :=
      Option.some.inj (hshows'.panelGroupID.symm.trans hshows.panelGroupID)
    refine ⟨?_, hshows'.contents.symm.trans hshows.contents⟩
    by_cases hnone : group.panelGroupID = ""
    · exact .inl (hplaced.newGroup i group hrequest.1 hnone i' group' hrequest'.1 hgroups)
    · by_cases hnone' : group'.panelGroupID = ""
      · exact .inl (hplaced.newGroup i' group' hrequest'.1 hnone' i group hrequest.1 hgroups.symm).symm
      · have hgiven := hplaced.givenGroup i group hrequest.1 hnone
        have hgiven' := hplaced.givenGroup i' group' hrequest'.1 hnone'
        exact .inr ⟨hgiven'.symm.trans (hgroups.trans hgiven), hnone⟩
  · by_contra hnot
    rw [not_or] at hnot
    obtain ⟨hnotRequested, hnotListed⟩ := hnot
    obtain ⟨i, hi⟩ := List.mem_iff_getElem?.mp hgroup
    obtain ⟨new, hnew, hwritten⟩ := exists_right_of_forall₂ h.panels (List.mem_append_left _ hdoc)
    have hunwritten : lastWrite (plan.updated ++ removals.flatten) doc.panelID = none := by
      rw [lastWrite_eq_none_iff]
      intro panel hpanel hid
      rcases List.mem_append.mp hpanel with hpanel | hpanel
      · have hmem : panel.panelID ∈ plan.updated.map (·.panelID) := List.mem_map_of_mem hpanel
        rw [h.updated_ids, hid] at hmem
        exact hnotRequested hmem
      · obtain ⟨-, -, old, hold, holdID, group', hgroup', hlisted⟩ := h.removal hpanel
        obtain rfl := before.panels.eq_of_key hold hdoc (holdID.trans hid)
        have hlistedIn : old.panelGroupID = some group'.panelGroupID ∧ old.isRemoved = false := by
          simpa [panelsOfGroup] using hlisted
        exact hnotListed ⟨existing, List.mem_of_find?_eq_some h.find, List.find?_some h.find, group', hgroup',
          Option.some.inj (hlistedIn.1.symm.trans hin)⟩
    obtain rfl := hwritten.unwritten hunwritten
    rw [← hplaced.givenGroup i group hi hne] at hin
    obtain ⟨i', j', group', panel', hrequest, hid⟩ := hplaced.only new hnew hlive i group hi hin
    cases hidOf : idOf (some panel') with
    | none => exact (hplaced.created i' j' group' panel' hrequest hidOf).1 ⟨new, hdoc, hid⟩
    | some id =>
        rw [(hplaced.updated i' j' group' panel' id hrequest hidOf).1] at hid
        rw [hid] at hnotRequested
        exact hnotRequested (mem_panelIDs_iff.mpr ⟨i', j', group', panel', hrequest, hidOf⟩)

end UpdateOutcome

/-- A successful update places the panels of the request just where it settles what the groups show. -/
theorem placed_iff_settled {world world' : World} (huuid : FreshIDs env world.db dashboard)
    (hok : updateDashBoard env projectID dashboard false world = .ok () world') :
    Placed world.db world'.db projectID dashboard ↔ Settled world.db projectID dashboard := by
  obtain ⟨plan, existing, removals, time, h⟩ := (updateDashBoard_spec huuid).ok rfl hok
  constructor
  · exact h.settled_of_placed
  · intro hsettled
    exact ⟨plan.groupID, plan.panelID, h.placed huuid hsettled⟩

/-! ### A group of another dashboard -/

def boardOf (dbID : String) (panelGroups : List PanelGroup) : DashBoard where
  dbID := dbID
  dsID := some "ds"
  dbName := some "dashboard"
  dbTypeID := some "custom"
  dbTypeName := some "custom"
  dbInformation := some ""
  chaosEventQueryTemplate := some ""
  chaosVerdictQueryTemplate := some ""
  applicationMetadataMap := []
  createdAt := "1"
  updatedAt := "1"
  clusterID := some "cluster"
  projectID := "project"
  endTime := some ""
  startTime := some ""
  refreshRate := some "5"
  panelGroups := panelGroups
  isRemoved := false

def cpuPanel : Panel where
  panelID := "cpu"
  panelOptions := noOptions
  panelName := "cpu"
  panelGroupID := some "nodes"
  promQueries := []
  yAxisLeft := none
  yAxisRight := none
  xAxisDown := none
  unit := none
  createdAt := "1"
  updatedAt := "1"
  isRemoved := false

/-- Of two dashboards the second one has a group with a panel. -/
def twoBoards : Database where
  dataSources := Documents.empty
  dashboards := ⟨[boardOf "first" [], boardOf "second" [⟨"Nodes", "nodes"⟩]], by decide⟩
  panels := ⟨[cpuPanel], by decide⟩

def regroup (dbID : String) (panels : List (Option PanelInput)) : UpdateDBInput where
  dbID := dbID
  dsID := some "ds"
  dbName := some "dashboard"
  dbTypeName := some "custom"
  dbTypeID := some "custom"
  dbInformation := some ""
  chaosEventQueryTemplate := none
  chaosVerdictQueryTemplate := none
  applicationMetadataMap := []
  panelGroups := [some ⟨"Nodes", "nodes", panels⟩]
  endTime := some ""
  startTime := some ""
  clusterID := some "cluster"
  refreshRate := some "5"

theorem uuid_injective : Function.Injective sampleEnv.uuid := by
  intro n n' h
  have hlength := congrArg List.length (String.ofList_injective h)
  simpa using hlength

theorem uuid_ne {text : String} (h : 'x' ∉ text.toList) (n : ℕ) : text ≠ sampleEnv.uuid n := by
  rintro rfl
  exact h (by simp [sampleEnv])

theorem freshIDs_regroup (dbID : String) : FreshIDs sampleEnv twoBoards (regroup dbID []) where
  injective := uuid_injective
  panels n doc hdoc := by
    obtain rfl := List.mem_singleton.mp hdoc
    exact ⟨uuid_ne (by decide) n, fun hid => uuid_ne (by decide) n (Option.some.inj hid)⟩
  panelIDs _ := List.not_mem_nil
  panelGroups n group hgroup := by
    obtain rfl := Option.some.inj (List.mem_singleton.mp hgroup)
    exact uuid_ne (by decide) n

/-- The second dashboard is emptied, and its panel is removed. -/
theorem placed_iff_settled_second : ∃ world',
    updateDashBoard sampleEnv "project" (regroup "second" []) false ⟨twoBoards, 0, 0⟩ = .ok () world' ∧
      (Placed twoBoards world'.db "project" (regroup "second" []) ↔
        Settled twoBoards "project" (regroup "second" [])) := by
  have hruns : ∃ world',
      updateDashBoard sampleEnv "project" (regroup "second" []) false ⟨twoBoards, 0, 0⟩ = .ok () world' :=
    ⟨_, rfl⟩
  obtain ⟨world', hok⟩ := hruns
  exact ⟨world', hok, @placed_iff_settled sampleEnv "project" (regroup "second" []) ⟨twoBoards, 0, 0⟩ world'
    (freshIDs_regroup "second") hok⟩

/-- The first dashboard gets the group of the second one with the panel in it, which was not requested. -/
theorem not_placed : ∃ world', FreshIDs sampleEnv twoBoards (regroup "first" []) ∧
    updateDashBoard sampleEnv "project" (regroup "first" []) false ⟨twoBoards, 0, 0⟩ = .ok () world' ∧
      ¬ Placed twoBoards world'.db "project" (regroup "first" []) := by
  refine ⟨_, freshIDs_regroup "first", rfl, ?_⟩
  rintro ⟨groupID, panelID, hplaced⟩
  have hgroupID := hplaced.givenGroup 0 ⟨"Nodes", "nodes", []⟩ rfl (by decide)
  obtain ⟨i, j, group, panel, ⟨hgroup, hpanel⟩, -⟩ :=
    hplaced.only cpuPanel List.mem_cons_self rfl 0 ⟨"Nodes", "nodes", []⟩ rfl (by rw [hgroupID]; rfl)
  obtain rfl := Option.some.inj (List.mem_singleton.mp (List.mem_of_getElem? hgroup))
  cases hpanel

end LitmusPortal.Analytics
