import LitmusPortal.Analytics.Prometheus
import LitmusPortal.Lib.Traffic
import LitmusPortal.Schema

/-!
# Views of a dashboard

`ViewDashboard` hands a channel without a buffer to the reader of the subscription, and starts two goroutines. The
viewer asks the data source, sends what it has got, and closes the channel in the end; the other one takes the view
out of the store when the client has left, which is what the viewer looks at between two questions. The reader goes on
until the channel is closed. Whoever else uses the store may hold its mutex at any time.
-/

namespace LitmusPortal.Views

open Transition Prometheus

/-! ## What is sent -/

structure QueryMapForPanel where
  panelID : String
  queryIDs : List String
  deriving DecidableEq, Repr

structure QueryMapForPanelGroup where
  panelGroupID : String
  panelQueryMap : List QueryMapForPanel
  deriving DecidableEq, Repr

structure MetricDataForPanel (Metrics : Type) where
  panelID : String
  panelMetricsResponse : List (Option Metrics)
  deriving DecidableEq, Repr

structure MetricDataForPanelGroup (Metrics : Type) where
  panelGroupID : String
  panelGroupMetricsResponse : List (MetricDataForPanel Metrics)
  deriving DecidableEq, Repr

structure DashboardPromResponse (Metrics Annotations : Type) where
  dashboardMetricsResponse : List (MetricDataForPanelGroup Metrics)
  annotationsResponse : List Annotations
  deriving DecidableEq, Repr

/-- What `GetPrometheusData` returns: the metrics by the ids of their queries, and the annotations. -/
structure PrometheusData (Metrics Annotations : Type) where
  queryResponseMap : String → Option Metrics
  annotations : List Annotations

variable {Metrics Annotations : Type}

/-- A query without an answer leaves a nil in its place. -/
def mapMetricsToDashboard (dashboardQueryMap : List QueryMapForPanelGroup)
    (data : PrometheusData Metrics Annotations) : DashboardPromResponse Metrics Annotations where
  dashboardMetricsResponse := dashboardQueryMap.map fun panelGroup =>
    { panelGroupID := panelGroup.panelGroupID
      panelGroupMetricsResponse := panelGroup.panelQueryMap.map fun panel =>
        { panelID := panel.panelID
          panelMetricsResponse := panel.queryIDs.map data.queryResponseMap } }
  annotationsResponse := data.annotations

/-! ## What is asked -/

structure DataVars where
  url : String
  start : String
  endTime : String
  relativeTime : Int64
  refreshInterval : Int64
  deriving DecidableEq, Repr

inductive ViewType where
  | fixed
  | relative
  | relativelyFixed
  | invalid
  deriving DecidableEq, Repr

def DataVars.queryType (dataVariables : DataVars) : ViewType :=
  if dataVariables.start ≠ "" ∧ dataVariables.endTime ≠ "" then .fixed
  else if dataVariables.relativeTime ≠ 0 ∧ dataVariables.refreshInterval ≠ 0 then .relative
  else if dataVariables.relativeTime ≠ 0 ∧ dataVariables.refreshInterval = 0 then .relativelyFixed
  else .invalid

def DataVars.fixedDetails (dataVariables : DataVars) : DsDetails :=
  ⟨dataVariables.url, dataVariables.start, dataVariables.endTime⟩

/-- The time up to now. -/
def DataVars.detailsAt (dataVariables : DataVars) (currentTime : Int64) : DsDetails :=
  ⟨dataVariables.url, formatTime (currentTime - dataVariables.relativeTime).toInt, formatTime currentTime.toInt⟩

/-! ## The goroutines -/

/-- The viewer, by what it does next. It has `missed` a view that was out of the store before it looked. -/
inductive Viewer (Metrics Annotations : Type) where
  | started
  | querying (dsDetails : DsDetails)
  | sending (dsDetails : DsDetails) (response : DashboardPromResponse Metrics Annotations)
  | sleeping
  | checking (dsDetails : DsDetails)
  | updatingViewedAt
  | closing
  | deleting
  | gone
  | missed
  deriving DecidableEq, Repr

/-- The goroutine that waits for the end of the context. -/
inductive CleanUp where
  | waiting
  | checking
  | updatingViewedAt
  | deleting
  | gone
  deriving DecidableEq, Repr

/-- A view, with whether it is in the store. -/
structure View (Metrics Annotations : Type) where
  dashboardQueryMap : List QueryMapForPanelGroup
  dataVariables : DataVars
  viewer : Viewer Metrics Annotations
  cleanUp : CleanUp
  stored : Bool
  closed : Bool
  cancelled : Bool

def View.new (dashboardQueryMap : List QueryMapForPanelGroup) (dataVariables : DataVars) :
    View Metrics Annotations :=
  ⟨dashboardQueryMap, dataVariables, .started, .waiting, true, false, false⟩

/-- The client leaves, or one of the goroutines or the reader makes a step. -/
inductive Move (Metrics Annotations : Type) where
  | cancel
  | start (currentTime : Int64)
  | answer (result : Option (PrometheusData Metrics Annotations))
  | receive
  | wake (currentTime : Int64)
  | check
  | updateViewedAt
  | close
  | delete
  | finish
  | notice
  | cleanUpCheck
  | cleanUpUpdateViewedAt
  | cleanUpDelete

def startViewer (currentTime : Int64) (view : View Metrics Annotations) : View Metrics Annotations :=
  if view.stored then
    match view.dataVariables.queryType with
    | .fixed => { view with viewer := .querying view.dataVariables.fixedDetails }
    | .relative | .relativelyFixed =>
        { view with viewer := .querying (view.dataVariables.detailsAt currentTime) }
    | .invalid => { view with viewer := .updatingViewedAt }
  else { view with viewer := .missed }

/-- What comes after a response has been sent. -/
def afterSend (view : View Metrics Annotations) : Viewer Metrics Annotations :=
  match view.dataVariables.queryType with
  | .relative => .sleeping
  | _ => .updatingViewedAt

/-- A closed channel is closed once: a second `close`, and a send on a closed channel, would be a panic, and are no
steps here. Whoever deletes the view holds the mutex. The end of the stream ends the context. -/
def View.step (locked : Bool) (view : View Metrics Annotations) :
    Move Metrics Annotations → Option (View Metrics Annotations)
  | .cancel => some { view with cancelled := true }
  | .start currentTime =>
      match view.viewer with
      | .started => some (startViewer currentTime view)
      | _ => none
  | .answer result =>
      match view.viewer, result with
      | .querying dsDetails, some data =>
          some { view with viewer := .sending dsDetails (mapMetricsToDashboard view.dashboardQueryMap data) }
      | .querying _, none => some { view with viewer := .updatingViewedAt }
      | _, _ => none
  | .receive =>
      match view.viewer with
      | .sending _ _ => if view.closed then none else some { view with viewer := afterSend view }
      | _ => none
  | .wake currentTime =>
      match view.viewer with
      | .sleeping => some { view with viewer := .checking (view.dataVariables.detailsAt currentTime) }
      | _ => none
  | .check =>
      match view.viewer with
      | .checking dsDetails =>
          some { view with viewer := if view.stored then .querying dsDetails else .updatingViewedAt }
      | _ => none
  | .updateViewedAt =>
      match view.viewer with
      | .updatingViewedAt => some { view with viewer := .closing }
      | _ => none
  | .close =>
      match view.viewer with
      | .closing => if view.closed then none else some { view with viewer := .deleting, closed := true }
      | _ => none
  | .delete =>
      match view.viewer with
      | .deleting => if locked then none else some { view with viewer := .gone, stored := false }
      | _ => none
  | .finish => if view.closed && !view.cancelled then some { view with cancelled := true } else none
  | .notice =>
      match view.cleanUp with
      | .waiting => if view.cancelled then some { view with cleanUp := .checking } else none
      | _ => none
  | .cleanUpCheck =>
      match view.cleanUp with
      | .checking => some { view with cleanUp := if view.stored then .updatingViewedAt else .gone }
      | _ => none
  | .cleanUpUpdateViewedAt =>
      match view.cleanUp with
      | .updatingViewedAt => some { view with cleanUp := .deleting }
      | _ => none
  | .cleanUpDelete =>
      match view.cleanUp with
      | .deleting => if locked then none else some { view with cleanUp := .gone, stored := false }
      | _ => none

/-! ## The store -/

structure State (Metrics Annotations : Type) where
  views : Nat → Option (View Metrics Annotations)
  locked : Bool

def newStore : State Metrics Annotations := ⟨fun _ => none, false⟩

inductive Label (Metrics Annotations : Type) where
  | viewDashboard (viewID : Nat) (dashboardQueryMap : List QueryMapForPanelGroup) (dataVariables : DataVars)
  | move (viewID : Nat) (move : Move Metrics Annotations)
  | lock
  | unlock

/-- The id of a view is new. -/
def step (state : State Metrics Annotations) : Label Metrics Annotations → Option (State Metrics Annotations)
  | .viewDashboard viewID dashboardQueryMap dataVariables =>
      match state.views viewID, state.locked with
      | none, false =>
          some { state with
            views := Function.update state.views viewID (some (View.new dashboardQueryMap dataVariables)) }
      | _, _ => none
  | .move viewID move => do
      let view ← state.views viewID
      let view' ← view.step state.locked move
      return { state with views := Function.update state.views viewID (some view') }
  | .lock => if state.locked then none else some { state with locked := true }
  | .unlock => if state.locked then some { state with locked := false } else none

end LitmusPortal.Views
