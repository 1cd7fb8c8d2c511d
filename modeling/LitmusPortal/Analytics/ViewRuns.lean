import LitmusPortal.Analytics.Views

/-!
# The run of a view

What the reader of a view is given are the answers to the questions the viewer asks, in their order, each for a time
the client has asked for. Once a view is out of the store, at most one more response comes, and the goroutines of the
view end.
-/

namespace LitmusPortal.Views

open Transition Prometheus

variable {Metrics Annotations : Type} {view view' : View Metrics Annotations} {move : Move Metrics Annotations}
  {locked : Bool}

/-! ## What a move does -/

inductive Moves (locked : Bool) (view : View Metrics Annotations) :
    Move Metrics Annotations → View Metrics Annotations → Prop
  | cancel : Moves locked view .cancel { view with cancelled := true }
  | start (currentTime : Int64) (h : view.viewer = .started) :
      Moves locked view (.start currentTime) (startViewer currentTime view)
  | answered {dsDetails : DsDetails} (data : PrometheusData Metrics Annotations)
      (h : view.viewer = .querying dsDetails) :
      Moves locked view (.answer (some data))
        { view with viewer := .sending dsDetails (mapMetricsToDashboard view.dashboardQueryMap data) }
  | failed {dsDetails : DsDetails} (h : view.viewer = .querying dsDetails) :
      Moves locked view (.answer none) { view with viewer := .updatingViewedAt }
  | receive {dsDetails : DsDetails} {response : DashboardPromResponse Metrics Annotations}
      (h : view.viewer = .sending dsDetails response) (hopen : view.closed = false) :
      Moves locked view .receive { view with viewer := afterSend view }
  | wake (currentTime : Int64) (h : view.viewer = .sleeping) :
      Moves locked view (.wake currentTime)
        { view with viewer := .checking (view.dataVariables.detailsAt currentTime) }
  | check {dsDetails : DsDetails} (h : view.viewer = .checking dsDetails) :
      Moves locked view .check
        { view with viewer := if view.stored then .querying dsDetails else .updatingViewedAt }
  | updateViewedAt (h : view.viewer = .updatingViewedAt) :
      Moves locked view .updateViewedAt { view with viewer := .closing }
  | close (h : view.viewer = .closing) (hopen : view.closed = false) :
      Moves locked view .close { view with viewer := .deleting, closed := true }
  | delete (h : view.viewer = .deleting) (hfree : locked = false) :
      Moves locked view .delete { view with viewer := .gone, stored := false }
  | finish (hclosed : view.closed = true) (h : view.cancelled = false) :
      Moves locked view .finish { view with cancelled := true }
  | notice (h : view.cleanUp = .waiting) (hcancelled : view.cancelled = true) :
      Moves locked view .notice { view with cleanUp := .checking }
  | cleanUpCheck (h : view.cleanUp = .checking) :
      Moves locked view .cleanUpCheck { view with cleanUp := if view.stored then .updatingViewedAt else .gone }
  | cleanUpUpdateViewedAt (h : view.cleanUp = .updatingViewedAt) :
      Moves locked view .cleanUpUpdateViewedAt { view with cleanUp := .deleting }
  | cleanUpDelete (h : view.cleanUp = .deleting) (hfree : locked = false) :
      Moves locked view .cleanUpDelete { view with cleanUp := .gone, stored := false }

theorem moves_of_step (h : view.step locked move = some view') : Moves locked view move view' := by
  cases move with
  | cancel =>
      cases h
      exact .cancel
  | start currentTime =>
      cases hviewer : view.viewer <;> simp only [View.step, hviewer, reduceCtorEq] at h
      cases h
      exact .start currentTime hviewer
  | answer result =>
      cases hviewer : view.viewer <;> cases result <;> simp only [View.step, hviewer, reduceCtorEq] at h
      · cases h
        exact .failed hviewer
      · cases h
        exact .answered _ hviewer
  | receive =>
      cases hviewer : view.viewer <;> simp only [View.step, hviewer, reduceCtorEq] at h
      split at h
      · cases h
      · rename_i hopen
        cases h
        exact .receive hviewer (Bool.eq_false_iff.mpr hopen)
  | wake currentTime =>
      cases hviewer : view.viewer <;> simp only [View.step, hviewer, reduceCtorEq] at h
      cases h
      exact .wake currentTime hviewer
  | check =>
      cases hviewer : view.viewer <;> simp only [View.step, hviewer, reduceCtorEq] at h
      cases h
      exact .check hviewer
  | updateViewedAt =>
      cases hviewer : view.viewer <;> simp only [View.step, hviewer, reduceCtorEq] at h
      cases h
      exact .updateViewedAt hviewer
  | close =>
      cases hviewer : view.viewer <;> simp only [View.step, hviewer, reduceCtorEq] at h
      split at h
      · cases h
      · rename_i hopen
        cases h
        exact .close hviewer (Bool.eq_false_iff.mpr hopen)
  | delete =>
      cases hviewer : view.viewer <;> cases locked <;>
        simp only [View.step, hviewer, reduceCtorEq, ↓reduceIte, Bool.false_eq_true] at h
      cases h
      exact .delete hviewer rfl
  | finish =>
      simp only [View.step] at h
      split at h
      · rename_i hends
        obtain ⟨hclosed, hcancelled⟩ := Bool.and_eq_true_iff.mp hends
        cases h
        exact .finish hclosed (by simpa using hcancelled)
      · cases h
  | notice =>
      cases hcleanUp : view.cleanUp <;> simp only [View.step, hcleanUp, reduceCtorEq] at h
      split at h
      · rename_i hcancelled
        cases h
        exact .notice hcleanUp hcancelled
      · cases h
  | cleanUpCheck =>
      cases hcleanUp : view.cleanUp <;> simp only [View.step, hcleanUp, reduceCtorEq] at h
      cases h
      exact .cleanUpCheck hcleanUp
  | cleanUpUpdateViewedAt =>
      cases hcleanUp : view.cleanUp <;> simp only [View.step, hcleanUp, reduceCtorEq] at h
      cases h
      exact .cleanUpUpdateViewedAt hcleanUp
  | cleanUpDelete =>
      cases hcleanUp : view.cleanUp <;> cases locked <;>
        simp only [View.step, hcleanUp, reduceCtorEq, ↓reduceIte, Bool.false_eq_true] at h
      cases h
      exact .cleanUpDelete hcleanUp rfl

/-! ## What holds of a view -/

/-- A time that the client has asked for. -/
def Window (dataVariables : DataVars) (dsDetails : DsDetails) : Prop :=
  match dataVariables.queryType with
  | .fixed => dsDetails = dataVariables.fixedDetails
  | .relative | .relativelyFixed => ∃ currentTime, dsDetails = dataVariables.detailsAt currentTime
  | .invalid => False

def Viewer.asks : Viewer Metrics Annotations → Option DsDetails
  | .querying dsDetails | .sending dsDetails _ | .checking dsDetails => some dsDetails
  | _ => none

structure View.Inv (view : View Metrics Annotations) : Prop where
  closed : view.closed = true ↔ view.viewer = .deleting ∨ view.viewer = .gone
  window : ∀ dsDetails, view.viewer.asks = some dsDetails → Window view.dataVariables dsDetails
  repeats : view.viewer = .sleeping ∨ (∃ dsDetails, view.viewer = .checking dsDetails) →
    view.dataVariables.queryType = .relative
  removed : view.stored = false → view.viewer = .gone ∨ view.cleanUp = .gone
  missed : view.viewer = .missed → view.cleanUp = .gone

theorem View.Inv.new (dashboardQueryMap : List QueryMapForPanelGroup) (dataVariables : DataVars) :
    (View.new dashboardQueryMap dataVariables : View Metrics Annotations).Inv :=
  ⟨by simp [View.new], nofun, by simp [View.new], nofun, nofun⟩

theorem View.Inv.isOpen (h : view.Inv) (hviewer : view.viewer ≠ .deleting) (hviewer' : view.viewer ≠ .gone) :
    view.closed = false :=
  Bool.eq_false_iff.mpr fun hclosed => (h.closed.mp hclosed).elim hviewer hviewer'

/-- The viewer goes on to a place where the channel is open, in a view that is as it was. -/
theorem View.Inv.goOn {viewer : Viewer Metrics Annotations} (h : view.Inv) (hviewer : view.viewer ≠ .deleting)
    (hviewer' : view.viewer ≠ .gone) (hdeleting : viewer ≠ .deleting) (hgone : viewer ≠ .gone)
    (hwindow : ∀ dsDetails, viewer.asks = some dsDetails → Window view.dataVariables dsDetails)
    (hrepeats : viewer = .sleeping ∨ (∃ dsDetails, viewer = .checking dsDetails) →
      view.dataVariables.queryType = .relative)
    (hmissed : viewer = .missed → view.stored = false) : View.Inv { view with viewer := viewer } where
  closed := by
    have hopen := h.isOpen hviewer hviewer'
    simp [hopen, hdeleting, hgone]
  window := hwindow
  repeats := hrepeats
  removed hstored := .inr ((h.removed hstored).resolve_left hviewer')
  missed hviewer := (h.removed (hmissed hviewer)).resolve_left hviewer'

/-- A move of the client, the reader or the other goroutine. -/
theorem View.Inv.aside {cleanUp : CleanUp} {stored cancelled : Bool} (h : view.Inv)
    (hgone : view.cleanUp = .gone → cleanUp = .gone)
    (hstored : stored = false → view.stored = false ∨ cleanUp = .gone) :
    View.Inv { view with cleanUp := cleanUp, stored := stored, cancelled := cancelled } where
  closed := h.closed
  window := h.window
  repeats := h.repeats
  removed hremoved := (hstored hremoved).elim (fun hview => (h.removed hview).imp_right hgone) .inr
  missed hviewer := hgone (h.missed hviewer)

theorem startViewer_eq (currentTime : Int64) (view : View Metrics Annotations) :
    ∃ viewer, startViewer currentTime view = { view with viewer := viewer } ∧
      ((viewer = .missed ∧ view.stored = false) ∨ viewer = .updatingViewedAt ∨
        ∃ dsDetails, viewer = .querying dsDetails ∧ Window view.dataVariables dsDetails) := by
  unfold startViewer
  split
  · cases htype : view.dataVariables.queryType with
    | fixed => exact ⟨_, rfl, .inr (.inr ⟨_, rfl, by rw [Window, htype]⟩)⟩
    | relative => exact ⟨_, rfl, .inr (.inr ⟨_, rfl, by rw [Window, htype]; exact ⟨currentTime, rfl⟩⟩)⟩
    | relativelyFixed => exact ⟨_, rfl, .inr (.inr ⟨_, rfl, by rw [Window, htype]; exact ⟨currentTime, rfl⟩⟩)⟩
    | invalid => exact ⟨_, rfl, .inr (.inl rfl)⟩
  · rename_i hstored
    exact ⟨_, rfl, .inl ⟨rfl, Bool.eq_false_iff.mpr hstored⟩⟩

theorem afterSend_cases (view : View Metrics Annotations) :
    (afterSend view = .sleeping ∧ view.dataVariables.queryType = .relative) ∨
      afterSend view = .updatingViewedAt ∧ view.dataVariables.queryType ≠ .relative := by
  unfold afterSend
  cases view.dataVariables.queryType with
  | relative => exact .inl ⟨rfl, rfl⟩
  | fixed => exact .inr ⟨rfl, nofun⟩
  | relativelyFixed => exact .inr ⟨rfl, nofun⟩
  | invalid => exact .inr ⟨rfl, nofun⟩

theorem View.Inv.step (h : view.Inv) (hmove : Moves locked view move view') : view'.Inv := by
  cases hmove with
  | cancel => exact h.aside id .inl
  | start currentTime hviewer =>
      obtain ⟨viewer, hstart, hviewer'⟩ := startViewer_eq currentTime view
      rw [hstart]
      rcases hviewer' with ⟨rfl, hstored⟩ | rfl | ⟨dsDetails, rfl, hwindow⟩
      · exact h.goOn (by simp [hviewer]) (by simp [hviewer]) nofun nofun nofun (by simp) fun _ => hstored
      · exact h.goOn (by simp [hviewer]) (by simp [hviewer]) nofun nofun nofun (by simp) nofun
      · refine h.goOn (by simp [hviewer]) (by simp [hviewer]) nofun nofun ?_ (by simp) nofun
        rintro _ ⟨⟩
        exact hwindow
  | @answered dsDetails data hviewer =>
      have hwindow := h.window dsDetails (by rw [hviewer]; rfl)
      refine h.goOn (by simp [hviewer]) (by simp [hviewer]) nofun nofun ?_ (by simp) nofun
      rintro _ ⟨⟩
      exact hwindow
  | failed hviewer => exact h.goOn (by simp [hviewer]) (by simp [hviewer]) nofun nofun nofun (by simp) nofun
  | receive hviewer hopen =>
      rcases afterSend_cases view with ⟨hafter, htype⟩ | ⟨hafter, -⟩
      · rw [hafter]
        exact h.goOn (by simp [hviewer]) (by simp [hviewer]) nofun nofun nofun (fun _ => htype) nofun
      · rw [hafter]
        exact h.goOn (by simp [hviewer]) (by simp [hviewer]) nofun nofun nofun (by simp) nofun
  | wake currentTime hviewer =>
      have htype := h.repeats (.inl hviewer)
      refine h.goOn (by simp [hviewer]) (by simp [hviewer]) nofun nofun ?_ (fun _ => htype) nofun
      rintro _ ⟨⟩
      rw [Window, htype]
      exact ⟨currentTime, rfl⟩
  | @check dsDetails hviewer =>
      have hwindow := h.window dsDetails (by rw [hviewer]; rfl)
      split
      · refine h.goOn (by simp [hviewer]) (by simp [hviewer]) nofun nofun ?_ (by simp) nofun
        rintro _ ⟨⟩
        exact hwindow
      · exact h.goOn (by simp [hviewer]) (by simp [hviewer]) nofun nofun nofun (by simp) nofun
  | updateViewedAt hviewer => exact h.goOn (by simp [hviewer]) (by simp [hviewer]) nofun nofun nofun (by simp) nofun
  | close hviewer hopen =>
      exact ⟨by simp, nofun, by simp, fun hstored => .inr ((h.removed hstored).resolve_left (by simp [hviewer])), nofun⟩
  | delete hviewer hfree =>
      have hclosed : view.closed = true := h.closed.mpr (.inl hviewer)
      exact ⟨by simp [hclosed], nofun, by simp, fun _ => .inl rfl, nofun⟩
  | finish hclosed hcancelled => exact h.aside id .inl
  | notice hcleanUp hcancelled => exact h.aside (by simp [hcleanUp]) .inl
  | cleanUpCheck hcleanUp => exact h.aside (by simp [hcleanUp]) .inl
  | cleanUpUpdateViewedAt hcleanUp => exact h.aside (by simp [hcleanUp]) .inl
  | cleanUpDelete hcleanUp hfree => exact h.aside (fun _ => rfl) fun _ => .inr rfl

/-! ## Among the other views -/

variable {state state' : State Metrics Annotations} {label : Label Metrics Annotations} {viewID : Nat}

/-- A view stays as it is, or it is new, or it makes the move of the label. -/
theorem views_step (h : step state label = some state') (hview : state'.views viewID = some view') :
    (state.views viewID = some view' ∧ ∀ move, label ≠ .move viewID move) ∨
    (∃ dashboardQueryMap dataVariables, label = .viewDashboard viewID dashboardQueryMap dataVariables ∧
      state.views viewID = none ∧ view' = View.new dashboardQueryMap dataVariables) ∨
    ∃ view move, state.views viewID = some view ∧ label = .move viewID move ∧ Moves state.locked view move view' := by
  cases label with
  | viewDashboard newID dashboardQueryMap dataVariables =>
      simp only [step] at h
      split at h
      · rename_i hfree hlocked
        cases h
        dsimp only at hview
        by_cases hid : viewID = newID
        · subst hid
          rw [Function.update_self] at hview
          exact .inr (.inl ⟨_, _, rfl, hfree, (Option.some.inj hview).symm⟩)
        · rw [Function.update_of_ne hid] at hview
          exact .inl ⟨hview, nofun⟩
      · cases h
  | move movedID move =>
      obtain ⟨moved, hmoved, hrest⟩ := Option.bind_eq_some_iff.mp h
      obtain ⟨moved', hmove, hstate⟩ := Option.bind_eq_some_iff.mp hrest
      cases hstate
      dsimp only at hview
      by_cases hid : viewID = movedID
      · subst hid
        rw [Function.update_self] at hview
        cases hview
        exact .inr (.inr ⟨moved, move, hmoved, rfl, moves_of_step hmove⟩)
      · rw [Function.update_of_ne hid] at hview
        exact .inl ⟨hview, fun other hother => hid (by cases hother; rfl)⟩
  | lock =>
      simp only [step] at h
      split at h
      · cases h
      · cases h
        exact .inl ⟨hview, nofun⟩
  | unlock =>
      simp only [step] at h
      split at h
      · cases h
        exact .inl ⟨hview, nofun⟩
      · cases h

/-- No view goes away. -/
theorem exists_views_step (h : step state label = some state') (hview : state.views viewID = some view) :
    ∃ view', state'.views viewID = some view' := by
  cases label with
  | viewDashboard newID dashboardQueryMap dataVariables =>
      simp only [step] at h
      split at h
      · rename_i hfree hlocked
        cases h
        have hid : viewID ≠ newID := fun hid => by
          subst hid
          cases hfree.symm.trans hview
        exact ⟨view, (Function.update_of_ne hid _ _).trans hview⟩
      · cases h
  | move movedID move =>
      obtain ⟨moved, hmoved, hrest⟩ := Option.bind_eq_some_iff.mp h
      obtain ⟨moved', hmove, hstate⟩ := Option.bind_eq_some_iff.mp hrest
      cases hstate
      by_cases hid : viewID = movedID
      · subst hid
        exact ⟨moved', Function.update_self _ _ _⟩
      · exact ⟨view, (Function.update_of_ne hid _ _).trans hview⟩
  | lock =>
      simp only [step] at h
      split at h
      · cases h
      · cases h
        exact ⟨view, hview⟩
  | unlock =>
      simp only [step] at h
      split at h
      · cases h
        exact ⟨view, hview⟩
      · cases h

def Inv (state : State Metrics Annotations) : Prop := ∀ viewID view, state.views viewID = some view → view.Inv

theorem Inv.step (hinv : Inv state) (h : Views.step state label = some state') : Inv state' := by
  intro viewID view' hview
  rcases views_step h hview with ⟨hsame, -⟩ | ⟨_, _, -, -, rfl⟩ | ⟨view, move, hview, -, hmove⟩
  · exact hinv viewID view' hsame
  · exact View.Inv.new _ _
  · exact (hinv viewID view hview).step hmove

theorem Inv.of_run {labels : List (Label Metrics Annotations)} (hrun : run Views.step newStore labels = some state) :
    Inv state :=
  run_invariant_of_step (fun _ _ _ h hstep => h.step hstep) (fun _ _ h => by cases h) hrun

/-! ## What the reader is given -/

abbrev Told (Metrics Annotations : Type) := DsDetails × DashboardPromResponse Metrics Annotations

def View.inFlight (view : View Metrics Annotations) : List (Told Metrics Annotations) :=
  match view.viewer with
  | .sending dsDetails response => [(dsDetails, response)]
  | _ => []

/-- The answer to a question of the viewer, as it is sent. -/
def View.answered (view : View Metrics Annotations) : Move Metrics Annotations → List (Told Metrics Annotations)
  | .answer (some data) =>
      match view.viewer with
      | .querying dsDetails => [(dsDetails, mapMetricsToDashboard view.dashboardQueryMap data)]
      | _ => []
  | _ => []

def View.received (view : View Metrics Annotations) : Move Metrics Annotations → List (Told Metrics Annotations)
  | .receive => view.inFlight
  | _ => []

/-- What is told of one view, where it makes the move. -/
def told (viewID : Nat) (tell : View Metrics Annotations → Move Metrics Annotations → List (Told Metrics Annotations))
    (state : State Metrics Annotations) (label : Label Metrics Annotations) : List (Told Metrics Annotations) :=
  match label, state.views viewID with
  | .move movedID move, some view => if movedID = viewID then tell view move else []
  | _, _ => []

/-- The questions that a view without repetition still has. -/
def View.questions (view : View Metrics Annotations) : Nat :=
  match view.viewer with
  | .started | .querying _ => 1
  | _ => 0

/-- What has been asked and received so far. -/
structure View.History (view : View Metrics Annotations) (asked given : List (Told Metrics Annotations)) : Prop where
  balance : asked = given ++ view.inFlight
  told : ∀ item ∈ asked, Window view.dataVariables item.1 ∧
    ∃ data, item.2 = mapMetricsToDashboard view.dashboardQueryMap data
  few : view.dataVariables.queryType ≠ .relative → asked.length + view.questions ≤ 1

variable {asked given : List (Told Metrics Annotations)}

/-- A move that neither answers a question nor hands out a response. -/
theorem View.History.quiet (h : view.History asked given) (hmap : view'.dashboardQueryMap = view.dashboardQueryMap)
    (hvars : view'.dataVariables = view.dataVariables) (hflight : view'.inFlight = view.inFlight)
    (hquestions : view.dataVariables.queryType ≠ .relative → view'.questions ≤ view.questions) :
    view'.History asked given where
  balance := by
    rw [hflight]
    exact h.balance
  told := by
    rw [hmap, hvars]
    exact h.told
  few htype := by
    rw [hvars] at htype
    exact (Nat.add_le_add_left (hquestions htype) _).trans (h.few htype)

theorem View.History.extend (hinv : view.Inv) (h : view.History asked given) (hmove : Moves locked view move view') :
    view'.History (asked ++ view.answered move) (given ++ view.received move) := by
  cases hmove with
  | @answered dsDetails data hviewer =>
      have hflight : view.inFlight = [] := by rw [View.inFlight, hviewer]
      simp only [View.answered, View.received, hviewer, List.append_nil]
      refine ⟨?_, fun told htold => ?_, fun htype => ?_⟩
      · rw [h.balance, hflight, List.append_nil]
        rfl
      · rcases List.mem_append.mp htold with hold | hnew
        · exact h.told told hold
        · obtain rfl := List.mem_singleton.mp hnew
          exact ⟨hinv.window dsDetails (by rw [hviewer]; rfl), data, rfl⟩
      · have hfew := h.few htype
        rw [View.questions, hviewer] at hfew
        simpa [View.questions] using hfew
  | @receive dsDetails response hviewer hopen =>
      have hasked : asked = given ++ view.inFlight := h.balance
      have hempty : View.inFlight { view with viewer := afterSend view } = [] := by
        rcases afterSend_cases view with ⟨hafter, -⟩ | ⟨hafter, -⟩ <;> rw [View.inFlight, hafter]
      simp only [View.answered, View.received, List.append_nil]
      refine ⟨by rw [hempty, List.append_nil]; exact hasked, h.told, fun htype => ?_⟩
      have hfew := h.few htype
      have hnone : View.questions { view with viewer := afterSend view } = 0 := by
        rcases afterSend_cases view with ⟨hafter, -⟩ | ⟨hafter, -⟩ <;> rw [View.questions, hafter]
      rw [hnone]
      omega
  | start currentTime hviewer =>
      simp only [View.answered, View.received, List.append_nil]
      obtain ⟨viewer, hstart, hviewer'⟩ := startViewer_eq currentTime view
      rw [hstart]
      refine h.quiet rfl rfl ?_ fun _ => ?_
      · rcases hviewer' with ⟨rfl, -⟩ | rfl | ⟨_, rfl, -⟩ <;> simp [View.inFlight, hviewer]
      · rcases hviewer' with ⟨rfl, -⟩ | rfl | ⟨_, rfl, -⟩ <;> simp [View.questions, hviewer]
  | failed hviewer =>
      simp only [View.answered, View.received, List.append_nil]
      exact h.quiet rfl rfl (by simp [View.inFlight, hviewer]) (by simp [View.questions])
  | wake currentTime hviewer =>
      simp only [View.answered, View.received, List.append_nil]
      exact h.quiet rfl rfl (by simp [View.inFlight, hviewer]) (by simp [View.questions])
  | check hviewer =>
      simp only [View.answered, View.received, List.append_nil]
      have hrelative := hinv.repeats (.inr ⟨_, hviewer⟩)
      refine h.quiet rfl rfl ?_ fun htype => absurd hrelative htype
      split <;> simp [View.inFlight, hviewer]
  | updateViewedAt hviewer =>
      simp only [View.answered, View.received, List.append_nil]
      exact h.quiet rfl rfl (by simp [View.inFlight, hviewer]) (by simp [View.questions])
  | close hviewer hopen =>
      simp only [View.answered, View.received, List.append_nil]
      exact h.quiet rfl rfl (by simp [View.inFlight, hviewer]) (by simp [View.questions])
  | delete hviewer hfree =>
      simp only [View.answered, View.received, List.append_nil]
      exact h.quiet rfl rfl (by simp [View.inFlight, hviewer]) (by simp [View.questions])
  | cancel | finish | notice | cleanUpCheck | cleanUpUpdateViewedAt | cleanUpDelete =>
      simp only [View.answered, View.received, List.append_nil]
      exact h.quiet rfl rfl rfl fun _ => Nat.le_refl _

/-- What the labels of a run have told of a view. -/
def RunHistory (viewID : Nat) (labels : List (Label Metrics Annotations)) (state : State Metrics Annotations) : Prop :=
  run step newStore labels = some state ∧
    match state.views viewID with
    | none => observed step (told viewID View.answered) newStore labels = [] ∧
        observed step (told viewID View.received) newStore labels = []
    | some view => view.History (observed step (told viewID View.answered) newStore labels)
        (observed step (told viewID View.received) newStore labels)

section Told

variable {tell : View Metrics Annotations → Move Metrics Annotations → List (Told Metrics Annotations)}

theorem told_of_views_none (hview : state.views viewID = none) : told viewID tell state label = [] := by
  unfold told
  rw [hview]
  cases label <;> rfl

theorem told_of_other (hlabel : ∀ move, label ≠ .move viewID move) : told viewID tell state label = [] := by
  unfold told
  split
  · exact if_neg fun hid => hlabel _ (by rw [hid])
  · rfl

theorem told_move (hview : state.views viewID = some view) :
    told viewID tell state (.move viewID move) = tell view move := by
  unfold told
  rw [hview]
  exact if_pos rfl

end Told

theorem RunHistory.of_run {labels : List (Label Metrics Annotations)}
    (hrun : run step newStore labels = some state) : RunHistory viewID labels state := by
  refine run_history (motive := RunHistory viewID) ⟨rfl, rfl, rfl⟩ ?_ hrun
  rintro front label mid next ⟨hfront, hmid⟩ hstep
  refine ⟨by rw [run_append, hfront, Option.bind_some, run_cons, hstep]; rfl, ?_⟩
  rw [observed_concat hfront hstep, observed_concat hfront hstep]
  cases hnext : next.views viewID with
  | none =>
      cases hbefore : mid.views viewID with
      | none =>
          rw [hbefore] at hmid
          rw [told_of_views_none hbefore, told_of_views_none hbefore]
          exact ⟨by rw [hmid.1]; rfl, by rw [hmid.2]; rfl⟩
      | some view =>
          obtain ⟨view', hview'⟩ := exists_views_step hstep hbefore
          cases hnext.symm.trans hview'
  | some view' =>
      rcases views_step hstep hnext with ⟨hsame, hlabel⟩ | ⟨_, _, rfl, hnone, rfl⟩ | ⟨view, move, hview, rfl, hmove⟩
      · rw [hsame] at hmid
        rw [told_of_other hlabel, told_of_other hlabel, List.append_nil, List.append_nil]
        exact hmid
      · rw [hnone] at hmid
        rw [told_of_views_none hnone, told_of_views_none hnone, hmid.1, hmid.2]
        exact ⟨rfl, nofun, fun _ => Nat.le_refl _⟩
      · rw [hview] at hmid
        rw [told_move hview, told_move hview]
        exact View.History.extend (Inv.of_run hfront viewID view hview) hmid hmove

/-- In every run, the reader of a view has received the answers to the questions of the viewer, in their order and
each once, but for one that is being sent; each of them is for a time the client has asked for, with a place for every
query of the dashboard; and a view that is not refreshed gets one answer at most. -/
theorem views_inOrder {labels : List (Label Metrics Annotations)} (hrun : run step newStore labels = some state)
    (hview : state.views viewID = some view) :
    observed step (told viewID View.answered) newStore labels =
        observed step (told viewID View.received) newStore labels ++ view.inFlight ∧
      (∀ item ∈ observed step (told viewID View.received) newStore labels, Window view.dataVariables item.1 ∧
        ∃ data, item.2 = mapMetricsToDashboard view.dashboardQueryMap data) ∧
      (view.dataVariables.queryType ≠ .relative →
        (observed step (told viewID View.received) newStore labels).length ≤ 1) := by
  have hhistory := (@RunHistory.of_run _ _ state viewID labels hrun).2
  rw [hview] at hhistory
  refine ⟨hhistory.balance, fun item hitem => hhistory.told item ?_, fun htype => ?_⟩
  · rw [hhistory.balance]
    exact List.mem_append_left _ hitem
  · have hfew := hhistory.few htype
    rw [hhistory.balance, List.length_append] at hfew
    omega

section Sample

def refreshed : DataVars := ⟨"http://prometheus", "", "", 300, 30⟩

def answers : PrometheusData Nat Nat := ⟨fun _ => some 1, []⟩

/-- The client leaves while the second response is on its way. -/
def untilRemoved : List (Label Nat Nat) :=
  .viewDashboard 0 [⟨"group", [⟨"panel", ["query"]⟩]⟩] refreshed ::
    [.start 1000, .answer (some answers), .receive, .wake 1030, .check, .answer (some answers), .cancel, .notice,
      .cleanUpCheck, .cleanUpUpdateViewedAt, .cleanUpDelete].map (.move 0)

def afterwards : List (Label Nat Nat) :=
  [.receive, .wake 1060, .check, .updateViewedAt, .close, .delete].map (.move 0)

def removedState : State Nat Nat := (run step newStore untilRemoved).getD newStore

def endState : State Nat Nat := (run step removedState afterwards).getD newStore

theorem run_untilRemoved : run step newStore untilRemoved = some removedState := by
  rw [removedState]
  rfl

theorem run_afterwards : run step removedState afterwards = some endState := by
  rw [endState]
  rfl

end Sample

theorem views_inOrder_untilRemoved :
    ∃ state view, run step newStore untilRemoved = some state ∧ state.views 0 = some view ∧
      observed step (told 0 View.answered) newStore untilRemoved =
        observed step (told 0 View.received) newStore untilRemoved ++ view.inFlight ∧
      ∀ item ∈ observed step (told 0 View.received) newStore untilRemoved, Window refreshed item.1 := by
  obtain ⟨hbalance, hitems, -⟩ := @views_inOrder _ _ _ removedState 0 _ run_untilRemoved rfl
  exact ⟨_, _, run_untilRemoved, rfl, hbalance, fun item hitem => (hitems item hitem).1⟩

/-! ## How a view ends -/

/-- A move of one of the goroutines of a view, or of its reader at the end. -/
def isOwn : Move Metrics Annotations → Bool
  | .cancel => false
  | _ => true

def ownMoves (viewID : Nat) (_ : State Metrics Annotations) : Label Metrics Annotations → List Unit
  | .move movedID move => if movedID = viewID ∧ isOwn move = true then [()] else []
  | _ => []

/-- The moves that the viewer of a view out of the store may still make. -/
def Viewer.left : Viewer Metrics Annotations → Nat
  | .started => 1
  | .querying _ => 7
  | .sending _ _ => 6
  | .sleeping => 5
  | .checking _ => 4
  | .updatingViewedAt => 3
  | .closing => 2
  | .deleting => 1
  | .gone | .missed => 0

def CleanUp.left : CleanUp → Nat
  | .waiting => 4
  | .checking => 3
  | .updatingViewedAt => 2
  | .deleting => 1
  | .gone => 0

def View.left (view : View Metrics Annotations) : Nat :=
  view.viewer.left + view.cleanUp.left + if view.cancelled then 0 else 1

/-- The responses that may still come. -/
def View.toCome (view : View Metrics Annotations) : Nat :=
  match view.viewer with
  | .querying _ | .sending _ _ => 1
  | _ => 0

theorem View.left_le (view : View Metrics Annotations) : view.left ≤ 12 := by
  unfold View.left
  have hviewer : view.viewer.left ≤ 7 := by cases view.viewer <;> simp [Viewer.left]
  have hcleanUp : view.cleanUp.left ≤ 4 := by cases view.cleanUp <;> simp [CleanUp.left]
  split <;> omega

theorem View.toCome_le (view : View Metrics Annotations) : view.toCome ≤ 1 := by
  unfold View.toCome
  split <;> omega

theorem startViewer_of_not_stored {currentTime : Int64} (h : view.stored = false) :
    startViewer currentTime view = { view with viewer := .missed } := by
  rw [startViewer, h, if_neg Bool.false_ne_true]

theorem stored_of_moves (hmove : Moves locked view move view') (h : view.stored = false) : view'.stored = false := by
  cases hmove with
  | start currentTime hviewer =>
      rw [startViewer_of_not_stored h]
      exact h
  | delete | cleanUpDelete => rfl
  | _ => exact h

theorem left_of_moves (hmove : Moves locked view move view') (h : view.stored = false) :
    view'.left + (if isOwn move then 1 else 0) ≤ view.left := by
  cases hmove with
  | start currentTime hviewer =>
      rw [startViewer_of_not_stored h]
      simp only [View.left, Viewer.left, hviewer, isOwn, ↓reduceIte]
      omega
  | receive hviewer hopen =>
      rcases afterSend_cases view with ⟨hafter, -⟩ | ⟨hafter, -⟩ <;>
        simp only [View.left, Viewer.left, hviewer, hafter, isOwn, ↓reduceIte] <;> omega
  | answered _ hviewer | failed hviewer | wake _ hviewer =>
      simp only [View.left, Viewer.left, hviewer, isOwn, ↓reduceIte]
      omega
  | updateViewedAt hviewer | close hviewer _ | delete hviewer _ =>
      simp only [View.left, Viewer.left, hviewer, isOwn, ↓reduceIte]
      omega
  | check hviewer =>
      simp only [View.left, Viewer.left, hviewer, h, isOwn, ↓reduceIte, Bool.false_eq_true]
      omega
  | cancel =>
      simp only [View.left, isOwn, ↓reduceIte, Bool.false_eq_true]
      omega
  | finish hclosed hcancelled =>
      simp only [View.left, hcancelled, isOwn, ↓reduceIte, Bool.false_eq_true]
      omega
  | notice hcleanUp _ | cleanUpUpdateViewedAt hcleanUp | cleanUpDelete hcleanUp _ =>
      simp only [View.left, CleanUp.left, hcleanUp, isOwn, ↓reduceIte]
      omega
  | cleanUpCheck hcleanUp =>
      simp only [View.left, CleanUp.left, hcleanUp, h, isOwn, ↓reduceIte, Bool.false_eq_true]
      omega

theorem toCome_of_moves (hmove : Moves locked view move view') (h : view.stored = false) :
    view'.toCome + (view.received move).length ≤ view.toCome := by
  cases hmove with
  | start currentTime hviewer =>
      rw [startViewer_of_not_stored h]
      simp [View.toCome, View.received]
  | receive hviewer hopen =>
      rcases afterSend_cases view with ⟨hafter, -⟩ | ⟨hafter, -⟩ <;>
        simp [View.toCome, View.received, View.inFlight, hviewer, hafter]
  | answered _ hviewer | failed hviewer | wake _ hviewer => simp [View.toCome, View.received, hviewer]
  | updateViewedAt hviewer | close hviewer _ | delete hviewer _ => simp [View.toCome, View.received]
  | check hviewer => simp [View.toCome, View.received, h]
  | _ => exact Nat.le_refl _

/-- The goroutines of the view, and its reader, can do nothing more although the mutex is free. -/
def View.Ended (view : View Metrics Annotations) : Prop := ∀ move, isOwn move = true → view.step false move = none

theorem View.Ended.viewer (hended : view.Ended) (hinv : view.Inv) : view.viewer = .gone ∨ view.viewer = .missed := by
  cases hviewer : view.viewer with
  | started => exact absurd (hended (.start 0) rfl) (by simp [View.step, hviewer])
  | querying dsDetails => exact absurd (hended (.answer none) rfl) (by simp [View.step, hviewer])
  | sending dsDetails response =>
      have hopen := hinv.isOpen (by simp [hviewer]) (by simp [hviewer])
      exact absurd (hended .receive rfl) (by simp [View.step, hviewer, hopen])
  | sleeping => exact absurd (hended (.wake 0) rfl) (by simp [View.step, hviewer])
  | checking dsDetails => exact absurd (hended .check rfl) (by simp [View.step, hviewer])
  | updatingViewedAt => exact absurd (hended .updateViewedAt rfl) (by simp [View.step, hviewer])
  | closing =>
      have hopen := hinv.isOpen (by simp [hviewer]) (by simp [hviewer])
      exact absurd (hended .close rfl) (by simp [View.step, hviewer, hopen])
  | deleting => exact absurd (hended .delete rfl) (by simp [View.step, hviewer])
  | gone => exact .inl rfl
  | missed => exact .inr rfl

theorem View.Ended.cleanUp (hended : view.Ended) (hinv : view.Inv) (hgone : view.viewer = .gone) :
    view.cleanUp = .gone := by
  have hclosed : view.closed = true := hinv.closed.mpr (.inr hgone)
  have hcancelled : view.cancelled = true := by
    have hfinish := hended .finish rfl
    cases hcancelled : view.cancelled with
    | true => rfl
    | false => simp [View.step, hclosed, hcancelled] at hfinish
  cases hcleanUp : view.cleanUp with
  | waiting => exact absurd (hended .notice rfl) (by simp [View.step, hcleanUp, hcancelled])
  | checking => exact absurd (hended .cleanUpCheck rfl) (by simp [View.step, hcleanUp])
  | updatingViewedAt => exact absurd (hended .cleanUpUpdateViewedAt rfl) (by simp [View.step, hcleanUp])
  | deleting => exact absurd (hended .cleanUpDelete rfl) (by simp [View.step, hcleanUp])
  | gone => rfl

theorem View.Ended.cases (hended : view.Ended) (hinv : view.Inv) :
    view.cleanUp = .gone ∧
      ((view.viewer = .gone ∧ view.closed = true) ∨ (view.viewer = .missed ∧ view.closed = false)) := by
  rcases hended.viewer hinv with hgone | hmissed
  · exact ⟨hended.cleanUp hinv hgone, .inl ⟨hgone, hinv.closed.mpr (.inr hgone)⟩⟩
  · exact ⟨hinv.missed hmissed, .inr ⟨hmissed, hinv.isOpen (by simp [hmissed]) (by simp [hmissed])⟩⟩

/-- The view is there, and out of the store. -/
def Removed (viewID : Nat) (state : State Metrics Annotations) : Prop :=
  ∃ view, state.views viewID = some view ∧ view.stored = false

theorem removed_step (hremoved : Removed viewID state) (h : step state label = some state') :
    Removed viewID state' := by
  obtain ⟨view, hview, hstored⟩ := hremoved
  obtain ⟨view', hview'⟩ := exists_views_step h hview
  refine ⟨view', hview', ?_⟩
  rcases views_step h hview' with ⟨hsame, -⟩ | ⟨_, _, -, hnone, -⟩ | ⟨before, move, hbefore, -, hmove⟩
  · cases hview.symm.trans hsame
    exact hstored
  · cases hview.symm.trans hnone
  · cases hview.symm.trans hbefore
    exact stored_of_moves hmove hstored

/-- A quantity of one view, none for a view that is not there. -/
def ofView (viewID : Nat) (quantity : View Metrics Annotations → Nat) (state : State Metrics Annotations) : Nat :=
  ((state.views viewID).map quantity).getD 0

theorem ofView_some {quantity : View Metrics Annotations → Nat} (hview : state.views viewID = some view) :
    ofView viewID quantity state = quantity view := by
  rw [ofView, hview]
  rfl

theorem left_step (hremoved : Removed viewID state) (h : step state label = some state') :
    ofView viewID View.left state' + (ownMoves viewID state label).length ≤ ofView viewID View.left state := by
  obtain ⟨view, hview, hstored⟩ := hremoved
  obtain ⟨view', hview'⟩ := exists_views_step h hview
  rw [ofView_some hview, ofView_some hview']
  rcases views_step h hview' with ⟨hsame, hlabel⟩ | ⟨_, _, -, hnone, -⟩ | ⟨before, move, hbefore, rfl, hmove⟩
  · cases hview.symm.trans hsame
    have hnone : ownMoves viewID state label = [] := by
      cases label with
      | move movedID move => exact if_neg fun hown => hlabel move (by rw [hown.1])
      | _ => rfl
    rw [hnone]
    exact Nat.le_refl _
  · cases hview.symm.trans hnone
  · cases hview.symm.trans hbefore
    have hleft := left_of_moves hmove hstored
    have hlength : (ownMoves viewID state (.move viewID move)).length = if isOwn move then 1 else 0 := by
      cases hown : isOwn move <;> simp [ownMoves, hown]
    rw [hlength]
    exact hleft

theorem toCome_step (hremoved : Removed viewID state) (h : step state label = some state') :
    ofView viewID View.toCome state' + (told viewID View.received state label).length ≤
      ofView viewID View.toCome state := by
  obtain ⟨view, hview, hstored⟩ := hremoved
  obtain ⟨view', hview'⟩ := exists_views_step h hview
  rw [ofView_some hview, ofView_some hview']
  rcases views_step h hview' with ⟨hsame, hlabel⟩ | ⟨_, _, -, hnone, -⟩ | ⟨before, move, hbefore, rfl, hmove⟩
  · cases hview.symm.trans hsame
    rw [told_of_other hlabel]
    exact Nat.le_refl _
  · cases hview.symm.trans hnone
  · cases hview.symm.trans hbefore
    rw [told_move hview]
    exact toCome_of_moves hmove hstored

/-- Once a view is out of the store, the reader gets at most one more response, whatever goes on, and the goroutines of
the view make no more than a dozen moves. When they can make no other, they are gone, and the channel is closed,
unless the view was taken out before the viewer looked: then it stays open, and its reader waits on. -/
theorem views_end {front back : List (Label Metrics Annotations)} (hfront : run step newStore front = some state)
    (hview : state.views viewID = some view) (hremoved : view.stored = false)
    (hback : run step state back = some state') :
    (observed step (told viewID View.received) state back).length ≤ 1 ∧
      (observed step (ownMoves viewID) state back).length ≤ 12 ∧
      ∃ view', state'.views viewID = some view' ∧
        (view'.Ended → view'.cleanUp = .gone ∧
          ((view'.viewer = .gone ∧ view'.closed = true) ∨ (view'.viewer = .missed ∧ view'.closed = false))) := by
  have hout : Removed viewID state := ⟨view, hview, hremoved⟩
  have hstep : ∀ (s : State Metrics Annotations) label s', Removed viewID s → step s label = some s' →
      Removed viewID s' := fun _ _ _ => removed_step
  refine ⟨?_, ?_, ?_⟩
  · have hresponses := length_observed_le hstep (fun _ _ _ => toCome_step) hout hback
    rw [ofView_some hview] at hresponses
    exact (Nat.le_add_left _ _).trans (hresponses.trans view.toCome_le)
  · have hmoves := length_observed_le hstep (fun _ _ _ => left_step) hout hback
    rw [ofView_some hview] at hmoves
    exact (Nat.le_add_left _ _).trans (hmoves.trans view.left_le)
  · obtain ⟨view', hview', -⟩ := run_invariant_of_step hstep hout hback
    have hinv : Inv state' :=
      run_invariant_of_step (fun _ _ _ h hnext => h.step hnext) (Inv.of_run hfront) hback
    exact ⟨view', hview', fun hended => hended.cases (hinv viewID view' hview')⟩

theorem views_end_afterwards :
    ∃ state state', run step newStore untilRemoved = some state ∧ run step state afterwards = some state' ∧
      (observed step (told 0 View.received) state afterwards).length ≤ 1 ∧
      (observed step (ownMoves 0) state afterwards).length ≤ 12 :=
  have hend := @views_end _ _ _ removedState endState 0 _ _ run_untilRemoved rfl rfl run_afterwards
  ⟨_, _, run_untilRemoved, run_afterwards, hend.1, hend.2.1⟩

end LitmusPortal.Views
