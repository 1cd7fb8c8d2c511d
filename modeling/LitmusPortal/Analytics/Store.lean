import LitmusPortal.Lib.Documents
import LitmusPortal.Lib.Program
import LitmusPortal.Schema
import LitmusPortal.Cluster.Verify

/-!
# The analytics collections

The documents of the data sources, dashboards and panels, and the database layer over them. A handler
ends with the first of its calls that fails. What the environment decides, the time, the new ids and
which call fails, is counted through the calls of a handler.
-/

namespace LitmusPortal.Analytics

open DocumentStore

/-! ## Documents -/

structure DataSource where
  dsID : String
  dsName : String
  dsType : String
  dsURL : String
  accessType : String
  authType : String
  basicAuthUsername : Option String
  basicAuthPassword : Option String
  scrapeInterval : Int
  queryTimeout : Int
  httpMethod : String
  createdAt : String
  updatedAt : String
  projectID : String
  isRemoved : Bool
  deriving DecidableEq, Repr

structure Resource where
  kind : String
  names : List (Option String)
  deriving DecidableEq, Repr

structure ApplicationMetadata where
  appNamespace : String
  applications : List Resource
  deriving DecidableEq, Repr

structure PanelGroup where
  panelGroupName : String
  panelGroupID : String
  deriving DecidableEq, Repr

/-- An update may leave a field without a value where the input has none. -/
structure DashBoard where
  dbID : String
  dsID : Option String
  dbName : Option String
  dbTypeID : Option String
  dbTypeName : Option String
  dbInformation : Option String
  chaosEventQueryTemplate : Option String
  chaosVerdictQueryTemplate : Option String
  applicationMetadataMap : List ApplicationMetadata
  createdAt : String
  updatedAt : String
  clusterID : Option String
  projectID : String
  endTime : Option String
  startTime : Option String
  refreshRate : Option String
  panelGroups : List PanelGroup
  isRemoved : Bool
  deriving DecidableEq, Repr

structure PanelOption where
  points : Option Bool
  grIDs : Option Bool
  leftAxis : Option Bool
  deriving DecidableEq, Repr

structure PromQuery where
  queryID : String
  promQueryName : Option String
  legend : Option String
  resolution : Option String
  minstep : Option String
  line : Option Bool
  closeArea : Option Bool
  deriving DecidableEq, Repr

structure Panel where
  panelID : String
  panelOptions : PanelOption
  panelName : String
  panelGroupID : Option String
  promQueries : List PromQuery
  yAxisLeft : Option String
  yAxisRight : Option String
  xAxisDown : Option String
  unit : Option String
  createdAt : String
  updatedAt : String
  isRemoved : Bool
  deriving DecidableEq, Repr

/-- The ids are those of `uuid.New`, and no update writes one. -/
structure Database where
  dataSources : Documents DataSource.dsID
  dashboards : Documents DashBoard.dbID
  panels : Documents Panel.panelID

/-! ## Calls -/

/-- The reads and copies that fail, and the write at which the database fails, with the number of
documents that it writes there all the same. -/
structure Env where
  now : Nat → Int
  uuid : Nat → String
  fails : Nat → Bool
  cut : Option (Nat × Nat)
  tsdbHealthCheck : String → String → String

structure World where
  db : Database
  ticks : Nat
  writes : Nat

abbrev Call := EStateM GoError World

variable (env : Env)

def tick : Call Nat := modifyGet fun world => (world.ticks, { world with ticks := world.ticks + 1 })

def timestamp : Call String := do
  let n ← tick
  return formatTime (env.now n)

def newUUID : Call String := do
  let n ← tick
  return env.uuid n

/-- `copier.Copy`, which may fail; the fields of the two types have the same names. -/
def copy {α : Type} (value : α) : Call α := do
  let n ← tick
  if env.fails n then throw (.failed "copier") else return value

/-- A nil pointer that is dereferenced. -/
def deref {α : Type} : Option α → Call α
  | none => throw (.panic "nil pointer dereference")
  | some value => return value

def read {α : Type} (find : Database → α) : Call α := do
  let n ← tick
  if env.fails n then throw databaseError
  else
    let world ← get
    return find world.db

/-- A write of some documents, each of which is one step. -/
def write (step : List (Database → Database)) : Call Unit := do
  let world ← get
  let done := fun steps : List (Database → Database) => steps.foldl (fun db change => change db) world.db
  match env.cut with
  | some (index, written) =>
      if index = world.writes then do
        set { world with db := done (step.take written), writes := world.writes + 1 }
        throw databaseError
      else set { world with db := done step, writes := world.writes + 1 }
  | none => set { world with db := done step, writes := world.writes + 1 }

def insertDataSource (dataSource : DataSource) : Call Unit :=
  write env [fun db => { db with dataSources := db.dataSources.add dataSource }]

def insertDashBoard (dashboard : DashBoard) : Call Unit :=
  write env [fun db => { db with dashboards := db.dashboards.add dashboard }]

/-- `InsertMany` takes at least one document. -/
def insertPanel (panels : List Panel) : Call Unit :=
  if panels = [] then throw databaseError
  else write env (panels.map fun panel db => { db with panels := db.panels.add panel })

def listDashboard (query : DashBoard → Bool) : Call (List DashBoard) :=
  read env fun db => db.dashboards.docs.filter query

def listPanel (query : Panel → Bool) : Call (List Panel) :=
  read env fun db => db.panels.docs.filter query

def getDashboard (query : DashBoard → Bool) : Call DashBoard := do
  let dashboard ← read env fun db => db.dashboards.docs.find? query
  match dashboard with
  | none => throw noDocuments
  | some dashboard => return dashboard

def updateDataSource (query : DataSource → Bool) (change : Change DataSource.dsID) : Call Unit :=
  write env [fun db => { db with dataSources := db.dataSources.update query change }]

def updateDashboard (query : DashBoard → Bool) (change : Change DashBoard.dbID) : Call Unit :=
  write env [fun db => { db with dashboards := db.dashboards.update query change }]

/-- An update that finds no panel is an error. -/
def updatePanel (query : Panel → Bool) (change : Change Panel.panelID) : Call Unit := do
  let world ← get
  write env [fun db => { db with panels := db.panels.update query change }]
  if world.db.panels.docs.any query then return ()
  else throw (.failed "panel collection query didn't matched")

end LitmusPortal.Analytics
