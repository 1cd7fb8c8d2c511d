import LitmusPortal.Analytics.Store

/-!
# The analytics handlers

The mutations of the analytics package and their resolvers. Where the source returns a text next to an
error, the GraphQL server sends only the error.
-/

namespace LitmusPortal.Analytics

open DocumentStore

/-! ## Inputs -/

structure DSInput where
  dsID : Option String
  dsName : String
  dsType : String
  dsURL : String
  accessType : String
  authType : String
  basicAuthUsername : Option String
  basicAuthPassword : Option String
  scrapeInterval : Int
  queryTimeout : Int
  httpMethod : String
  projectID : Option String
  deriving DecidableEq, Repr

structure PanelInput where
  panelID : Option String
  yAxisLeft : Option String
  yAxisRight : Option String
  xAxisDown : Option String
  unit : Option String
  panelGroupID : Option String
  createdAt : Option String
  promQueries : List PromQuery
  panelOptions : Option PanelOption
  panelName : String
  deriving DecidableEq, Repr

structure PanelGroupInput where
  panels : List (Option PanelInput)
  panelGroupName : String
  deriving DecidableEq, Repr

structure CreateDBInput where
  dsID : String
  dbName : String
  dbTypeName : String
  dbTypeID : String
  dbInformation : Option String
  chaosEventQueryTemplate : String
  chaosVerdictQueryTemplate : String
  applicationMetadataMap : List ApplicationMetadata
  panelGroups : List (Option PanelGroupInput)
  endTime : String
  startTime : String
  projectID : String
  clusterID : String
  refreshRate : String
  deriving DecidableEq, Repr

structure UpdatePanelGroupInput where
  panelGroupName : String
  panelGroupID : String
  panels : List (Option PanelInput)
  deriving DecidableEq, Repr

structure UpdateDBInput where
  dbID : String
  dsID : Option String
  dbName : Option String
  dbTypeName : Option String
  dbTypeID : Option String
  dbInformation : Option String
  chaosEventQueryTemplate : Option String
  chaosVerdictQueryTemplate : Option String
  applicationMetadataMap : List ApplicationMetadata
  panelGroups : List (Option UpdatePanelGroupInput)
  endTime : Option String
  startTime : Option String
  clusterID : Option String
  refreshRate : Option String
  deriving DecidableEq, Repr

structure DeleteDSInput where
  forceDelete : Bool
  dsID : String
  deriving DecidableEq, Repr

/-! ## Data sources -/

variable (env : Env)

/-- The error of a call with some text before it. -/
def wrap {α : Type} (text : String) (call : Call α) : Call α := fun world =>
  match call world with
  | .error (.failed message) world => .error (.failed (text ++ message)) world
  | result => result

/-- What stands in the place of the error of a call. -/
def orElse {α : Type} (text : String) (call : Call α) : Call α := fun world =>
  match call world with
  | .error (.failed _) world => .error (.failed text) world
  | result => result

def createDataSource (datasource : DSInput) : Call DataSource := do
  let datasourceStatus := env.tsdbHealthCheck datasource.dsURL datasource.dsType
  if datasourceStatus = "Active" then do
    let dsID ← newUUID env
    let projectID ← deref datasource.projectID
    let createdAt ← timestamp env
    let updatedAt ← timestamp env
    let newDS : DataSource :=
      { dsID := dsID
        dsName := datasource.dsName
        dsType := datasource.dsType
        dsURL := datasource.dsURL
        accessType := datasource.accessType
        authType := datasource.authType
        basicAuthUsername := datasource.basicAuthUsername
        basicAuthPassword := datasource.basicAuthPassword
        scrapeInterval := datasource.scrapeInterval
        queryTimeout := datasource.queryTimeout
        httpMethod := datasource.httpMethod
        createdAt := createdAt
        updatedAt := updatedAt
        projectID := projectID
        isRemoved := false }
    insertDataSource env newDS
    return newDS
  else throw (.failed ("Datasource: " ++ datasourceStatus))

def setDataSource (datasource : DSInput) (timestamp : String) : Change DataSource.dsID where
  val doc :=
    { doc with
      dsName := datasource.dsName
      dsType := datasource.dsType
      dsURL := datasource.dsURL
      accessType := datasource.accessType
      authType := datasource.authType
      basicAuthUsername := datasource.basicAuthUsername
      basicAuthPassword := datasource.basicAuthPassword
      scrapeInterval := datasource.scrapeInterval
      queryTimeout := datasource.queryTimeout
      httpMethod := datasource.httpMethod
      updatedAt := timestamp }
  property _ := rfl

def updateDataSourceHandler (datasource : DSInput) : Call Unit := do
  let timestamp ← timestamp env
  match datasource.dsID with
  | none | some "" => throw (.failed "data source ID is nil or empty")
  | some dsID =>
      if env.tsdbHealthCheck datasource.dsURL datasource.dsType = "Active" then
        updateDataSource env (fun doc => doc.dsID = dsID) (setDataSource datasource timestamp)
      else throw (.failed "data source is inactive")

/-! ## Dashboards -/

def noOptions : PanelOption := ⟨none, none, none⟩

def createPanel (panelGroupID : String) (panel : Option PanelInput) : Call Panel := do
  let panel ← deref panel
  let promQueries ← copy env panel.promQueries
  let panelOptions ← copy env (panel.panelOptions.getD noOptions)
  let panelID ← newUUID env
  let createdAt ← timestamp env
  let updatedAt ← timestamp env
  return {
    panelID := panelID
    panelOptions := panelOptions
    panelName := panel.panelName
    panelGroupID := some panelGroupID
    promQueries := promQueries
    yAxisLeft := panel.yAxisLeft
    yAxisRight := panel.yAxisRight
    xAxisDown := panel.xAxisDown
    unit := panel.unit
    createdAt := createdAt
    updatedAt := updatedAt
    isRemoved := false }

def createPanelGroup (panelGroup : Option PanelGroupInput) : Call (PanelGroup × List Panel) := do
  let panelGroupID ← newUUID env
  let panelGroup ← deref panelGroup
  let panels ← panelGroup.panels.mapM (createPanel env panelGroupID)
  return (⟨panelGroup.panelGroupName, panelGroupID⟩, panels)

/-- The name of the cluster is read last, for the response. -/
def createDashboard (dashboard : CreateDBInput) : Call DashBoard := do
  let dbID ← newUUID env
  let dbInformation ← deref dashboard.dbInformation
  let createdAt ← timestamp env
  let updatedAt ← timestamp env
  let newPanelGroups ← dashboard.panelGroups.mapM (createPanelGroup env)
  orElse "error on inserting panel data" (insertPanel env (newPanelGroups.flatMap (·.2)))
  let newDashboard : DashBoard :=
    { dbID := dbID
      dsID := some dashboard.dsID
      dbName := some dashboard.dbName
      dbTypeID := some dashboard.dbTypeID
      dbTypeName := some dashboard.dbTypeName
      dbInformation := some dbInformation
      chaosEventQueryTemplate := some dashboard.chaosEventQueryTemplate
      chaosVerdictQueryTemplate := some dashboard.chaosVerdictQueryTemplate
      applicationMetadataMap := dashboard.applicationMetadataMap
      createdAt := createdAt
      updatedAt := updatedAt
      clusterID := some dashboard.clusterID
      projectID := dashboard.projectID
      endTime := some dashboard.endTime
      startTime := some dashboard.startTime
      refreshRate := some dashboard.refreshRate
      panelGroups := newPanelGroups.map (·.1)
      isRemoved := false }
  orElse "error on inserting panel data" (insertDashBoard env newDashboard)
  wrap "error on querying from cluster collection: " (read env fun _ => newDashboard)

/-- A panel of an update, under its own id or a new one. -/
def planPanel (panelGroupID : String) (panel : Option PanelInput) : Call (Bool × Panel) := do
  let panel ← deref panel
  let givenID ← deref panel.panelID
  let isNew := givenID = ""
  let panelID ← if isNew then newUUID env else pure givenID
  let createdAt ← if isNew then timestamp env else deref panel.createdAt
  let updatedAt ← timestamp env
  let promQueries ← copy env panel.promQueries
  let panelOptions ← copy env (panel.panelOptions.getD noOptions)
  return (isNew, {
    panelID := panelID
    panelOptions := panelOptions
    panelName := panel.panelName
    panelGroupID := some panelGroupID
    promQueries := promQueries
    yAxisLeft := panel.yAxisLeft
    yAxisRight := panel.yAxisRight
    xAxisDown := panel.xAxisDown
    unit := panel.unit
    createdAt := createdAt
    updatedAt := updatedAt
    isRemoved := false })

def planPanelGroup (panelGroup : Option UpdatePanelGroupInput) :
    Call (PanelGroup × List (Bool × Panel)) := do
  let panelGroup ← deref panelGroup
  let panelGroupID ←
    if panelGroup.panelGroupID = "" then newUUID env else pure panelGroup.panelGroupID
  let panels ← panelGroup.panels.mapM (planPanel env panelGroupID)
  return (⟨panelGroup.panelGroupName, panelGroupID⟩, panels)

def panelsOfGroup (panelGroup : PanelGroup) (panel : Panel) : Bool :=
  panel.panelGroupID = some panelGroup.panelGroupID ∧ panel.isRemoved = false

/-- The panel as it is to be written where the update of its dashboard has left it out. -/
def planRemoval (panelGroup : PanelGroup) (panel : Panel) : Call Panel := do
  let promQueries ← copy env panel.promQueries
  let panelOptions ← copy env panel.panelOptions
  let updatedAt ← timestamp env
  return { panel with
    panelOptions := panelOptions
    promQueries := promQueries
    panelGroupID := some panelGroup.panelGroupID
    updatedAt := updatedAt
    isRemoved := true }

def planRemovals (updatedDashboardPanelIDs : List String) (panelGroup : PanelGroup) :
    Call (List Panel) := do
  let panels ← wrap "error on querying from promquery collection: "
    (listPanel env (panelsOfGroup panelGroup))
  let tempPanels ← copy env panels
  let removed := tempPanels.filter fun panel => panel.panelID ∉ updatedDashboardPanelIDs
  removed.mapM (planRemoval env panelGroup)

def setPanel (panel : Panel) (timestamp : String) : Change Panel.panelID where
  val doc :=
    { doc with
      panelName := panel.panelName
      isRemoved := panel.isRemoved
      panelGroupID := panel.panelGroupID
      panelOptions := panel.panelOptions
      promQueries := panel.promQueries
      updatedAt := timestamp
      yAxisLeft := panel.yAxisLeft
      yAxisRight := panel.yAxisRight
      xAxisDown := panel.xAxisDown
      unit := panel.unit }
  property _ := rfl

def writePanel (panel : Panel) : Call Unit := do
  let timestamp ← timestamp env
  if panel.panelID = "" ∧ panel.panelGroupID = some "" then
    throw (.failed "panel ID or panel group ID is nil or empty")
  else do
    let panelOptions ← copy env panel.panelOptions
    let promQueries ← copy env panel.promQueries
    updatePanel env (fun doc => doc.panelID = panel.panelID)
      (setPanel { panel with panelOptions := panelOptions, promQueries := promQueries } timestamp)

def setDashboard (dashboard : UpdateDBInput) (panelGroups : List PanelGroup) (timestamp : String) :
    Change DashBoard.dbID where
  val doc :=
    { doc with
      dsID := dashboard.dsID
      dbName := dashboard.dbName
      dbTypeID := dashboard.dbTypeID
      dbTypeName := dashboard.dbTypeName
      dbInformation := dashboard.dbInformation
      clusterID := dashboard.clusterID
      applicationMetadataMap := dashboard.applicationMetadataMap
      endTime := dashboard.endTime
      startTime := dashboard.startTime
      refreshRate := dashboard.refreshRate
      panelGroups := panelGroups
      updatedAt := timestamp }
  property _ := rfl

def setChaosQueries (dashboard : UpdateDBInput) (timestamp : String) : Change DashBoard.dbID where
  val doc :=
    { doc with
      chaosEventQueryTemplate := dashboard.chaosEventQueryTemplate
      chaosVerdictQueryTemplate := dashboard.chaosVerdictQueryTemplate
      updatedAt := timestamp }
  property _ := rfl

def liveDashboard (projectID : String) (dbID : Option String) (doc : DashBoard) : Bool :=
  doc.projectID = projectID ∧ some doc.dbID = dbID ∧ doc.isRemoved = false

def updateDashBoard (projectID : String) (dashboard : UpdateDBInput) (chaosQueryUpdate : Bool) :
    Call Unit := do
  let timestamp ← timestamp env
  if dashboard.dbID = "" then throw (.failed "dashBoard ID is nil or empty")
  else if chaosQueryUpdate then
    updateDashboard env (liveDashboard projectID (some dashboard.dbID))
      (setChaosQueries dashboard timestamp)
  else do
    let newPanelGroups ← dashboard.panelGroups.mapM (planPanelGroup env)
    let planned := newPanelGroups.flatMap (·.2)
    let panelsToCreate := (planned.filter (·.1)).map (·.2)
    let panelsToUpdate := (planned.filter (!·.1)).map (·.2)
    let existingDashboard ← wrap "error on query from dashboard collection by projectid: "
      (getDashboard env (liveDashboard projectID (some dashboard.dbID)))
    let removals ← existingDashboard.panelGroups.mapM
      (planRemovals env (panelsToUpdate.map (·.panelID)))
    if panelsToCreate ≠ [] then
      orElse "error while inserting panel data" (insertPanel env panelsToCreate)
    (panelsToUpdate ++ removals.flatten).forM (writePanel env)
    updateDashboard env (liveDashboard projectID (some dashboard.dbID))
      (setDashboard dashboard (newPanelGroups.map (·.1)) timestamp)

/-! ## Panels -/

/-- The id of the group is only looked at where that of the panel is empty. -/
def checkPanelIDs (panel : PanelInput) : Call String := do
  let panelID ← deref panel.panelID
  if panelID = "" then do
    let panelGroupID ← deref panel.panelGroupID
    if panelGroupID = "" then throw (.failed "panel ID or panel group ID is nil or empty")
  return panelID

def setPanelInput (panel : PanelInput) (timestamp : String) : Change Panel.panelID where
  val doc :=
    { doc with
      panelName := panel.panelName
      panelGroupID := panel.panelGroupID
      panelOptions := panel.panelOptions.getD noOptions
      promQueries := panel.promQueries
      updatedAt := timestamp
      yAxisLeft := panel.yAxisLeft
      yAxisRight := panel.yAxisRight
      xAxisDown := panel.xAxisDown
      unit := panel.unit }
  property _ := rfl

def updatePanelInput (panel : Option PanelInput) : Call Unit := do
  let timestamp ← timestamp env
  let panel ← deref panel
  let panelID ← checkPanelIDs panel
  let panelOptions ← copy env panel.panelOptions
  let promQueries ← copy env panel.promQueries
  updatePanel env (fun doc => doc.panelID = panelID)
    (setPanelInput { panel with panelOptions := panelOptions, promQueries := promQueries } timestamp)

def updatePanelHandler (panels : List (Option PanelInput)) : Call Unit :=
  panels.forM (updatePanelInput env)

/-! ## Removals -/

def removePanel (timestamp : String) : Change Panel.panelID where
  val doc := { doc with isRemoved := true, updatedAt := timestamp }
  property _ := rfl

def removeDashboard (timestamp : String) : Change DashBoard.dbID where
  val doc := { doc with isRemoved := true, updatedAt := timestamp }
  property _ := rfl

def removeDataSource (timestamp : String) : Change DataSource.dsID where
  val doc := { doc with isRemoved := true, updatedAt := timestamp }
  property _ := rfl

/-- The loop over the panels of a group, which two handlers share. They differ in where they take the
time. -/
def removePanelGroup (time : Call String) (panelGroup : PanelGroup) : Call Unit := do
  let panels ← wrap "failed to list Panel, error: " (listPanel env (panelsOfGroup panelGroup))
  panels.forM fun panel => do
    let time ← time
    wrap "failed to delete panel, error: "
      (updatePanel env (fun doc => doc.panelID = panel.panelID ∧ doc.isRemoved = false)
        (removePanel time))

def deleteDashboard (projectID : String) (dbID : Option String) : Call Unit := do
  let dashboard ← wrap "failed to list dashboard, error: "
    (getDashboard env (liveDashboard projectID dbID))
  dashboard.panelGroups.forM (removePanelGroup env (timestamp env))
  let time ← timestamp env
  wrap "failed to delete dashboard, error: "
    (updateDashboard env (fun doc => some doc.dbID = dbID) (removeDashboard time))

/-- A live dashboard of the project that shows the data source. -/
def attached (projectID dsID : String) (doc : DashBoard) : Bool :=
  doc.projectID = projectID ∧ doc.dsID = some dsID ∧ doc.isRemoved = false

def attachedError (dashboards : List DashBoard) : String :=
  "failed to delete datasource, dashboard(s) are attached to the datasource: [" ++
    String.intercalate "," (dashboards.map fun dashboard => dashboard.dbName.getD "") ++ "]"

def deleteDataSource (projectID : String) (input : DeleteDSInput) : Call Unit := do
  let time ← timestamp env
  let dashboards ← wrap "failed to list dashboard, error: "
    (listDashboard env (attached projectID input.dsID))
  if input.forceDelete then
    dashboards.forM fun dashboard => do
      dashboard.panelGroups.forM (removePanelGroup env (return time))
      wrap "failed to delete dashboard, error: "
        (updateDashboard env (fun doc => doc.dbID = dashboard.dbID) (removeDashboard time))
  else if dashboards ≠ [] then throw (.failed (attachedError dashboards))
  wrap "failed to delete datasource, error: "
    (updateDataSource env (fun doc => doc.dsID = input.dsID) (removeDataSource time))

/-! ## Resolvers -/

inductive MemberRole where
  | owner
  | editor
  | viewer
  deriving DecidableEq, Repr

/-- Who sends a mutation, an accepted member of one project and of no other. -/
structure Caller where
  projectID : String
  role : MemberRole
  deriving DecidableEq, Repr

inductive Mutation where
  | createDataSource (datasource : DSInput)
  | createDashBoard (dashboard : CreateDBInput)
  | updateDataSource (datasource : DSInput)
  | updateDashboard (projectID : String) (dashboard : UpdateDBInput) (chaosQueryUpdate : Bool)
  | updatePanel (panelInput : List (Option PanelInput))
  | deleteDashboard (projectID : String) (dbID : Option String)
  | deleteDataSource (projectID : String) (input : DeleteDSInput)
  deriving DecidableEq, Repr

/-- The roles that `MutationRbacRules` has for each analytics mutation. -/
def mutationRoles : List MemberRole := [.owner, .editor]

/-- The membership is looked up by the authentication service. -/
def validateRole (caller : Caller) (projectID : String) : Call Unit :=
  if projectID = caller.projectID ∧ caller.role ∈ mutationRoles then return ()
  else throw (.failed "permission_denied")

/-- `UpdatePanel` is the only one that asks for no role. -/
def resolve (caller : Caller) : Mutation → Call Unit
  | .createDataSource datasource => do
      let projectID ← deref datasource.projectID
      validateRole caller projectID
      let _ ← createDataSource env datasource
  | .createDashBoard dashboard => do
      validateRole caller dashboard.projectID
      let _ ← createDashboard env dashboard
  | .updateDataSource datasource => do
      let projectID ← deref datasource.projectID
      validateRole caller projectID
      updateDataSourceHandler env datasource
  | .updateDashboard projectID dashboard chaosQueryUpdate => do
      validateRole caller projectID
      updateDashBoard env projectID dashboard chaosQueryUpdate
  | .updatePanel panelInput => updatePanelHandler env panelInput
  | .deleteDashboard projectID dbID => do
      validateRole caller projectID
      deleteDashboard env projectID dbID
  | .deleteDataSource projectID input => do
      validateRole caller projectID
      deleteDataSource env projectID input

/-- The database after a mutation, whether it returns a result or an error. -/
def after (caller : Caller) (db : Database) (mutation : Mutation) : Database :=
  match resolve env caller mutation ⟨db, 0, 0⟩ with
  | .ok _ world | .error _ world => world.db

end LitmusPortal.Analytics
