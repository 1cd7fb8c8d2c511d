import LitmusPortal.MyHubs.Store

/-!
# The operations on ChaosHubs

A hub is added, with or without a clone of its repository, updated, synced and removed. The name of a hub is the name
of its directory; a removed hub stays in the database with its name.
-/

namespace LitmusPortal.MyHubs

open DocumentStore FileTree

structure CreateChaosHubRequest where
  hubName : String
  repoURL : String
  repoBranch : String
  isPrivate : Bool
  authType : AuthType
  token : Option String
  userName : Option String
  password : Option String
  sshPrivateKey : Option String
  sshPublicKey : Option String
  projectID : String
  deriving DecidableEq, Repr

structure UpdateChaosHubRequest extends CreateChaosHubRequest where
  id : String
  deriving DecidableEq, Repr

structure ChaosHub where
  id : String
  repoURL : String
  repoBranch : String
  projectID : String
  hubName : String
  hubType : HubType
  isPrivate : Bool
  authType : AuthType
  token : Option String
  userName : Option String
  password : Option String
  sshPrivateKey : Option String
  sshPublicKey : Option String
  isRemoved : Bool
  createdAt : String
  updatedAt : String
  lastSyncedAt : String
  deriving DecidableEq, Repr

/-- The public key is left out. -/
def MyHub.getOutputMyHub (myhub : MyHub) : ChaosHub :=
  { id := myhub.id
    repoURL := myhub.repoURL
    repoBranch := myhub.repoBranch
    projectID := myhub.projectID
    hubName := myhub.hubName
    hubType := myhub.hubType
    isPrivate := myhub.isPrivate
    authType := myhub.authType
    token := myhub.token
    userName := myhub.userName
    password := myhub.password
    sshPrivateKey := myhub.sshPrivateKey
    sshPublicKey := none
    isRemoved := myhub.isRemoved
    createdAt := myhub.createdAt
    updatedAt := myhub.updatedAt
    lastSyncedAt := myhub.lastSyncedAt }

/-- What the steps of an operation meet. `now` is read once for each time that is written. -/
structure Env where
  now : Nat → Int
  uuid : String
  readFails : Bool
  write : WriteFault
  removal : Option (Path → Bool)
  clone : CloneEnv
  pull : PullEnv
  download : DownloadEnv

variable (env : Env)

def errNameExists : GoError := .failed "HubName Already exists"

def isMyHubAvailable (hubname projectID : String) : Call Bool := do
  let myhubs ← getMyHubByProjectID env.readFails projectID
  return myhubs.any fun n => n.hubName = hubname

def CreateChaosHubRequest.cloningInput (chaosHub : CreateChaosHubRequest) : CloningInput :=
  { hubName := chaosHub.hubName
    projectID := chaosHub.projectID
    repoBranch := chaosHub.repoBranch
    repoURL := chaosHub.repoURL
    isPrivate := chaosHub.isPrivate
    authType := chaosHub.authType
    token := chaosHub.token
    userName := chaosHub.userName
    password := chaosHub.password
    sshPrivateKey := chaosHub.sshPrivateKey }

def MyHub.cloningInput (myhub : MyHub) : CloningInput :=
  { hubName := myhub.hubName
    projectID := myhub.projectID
    repoBranch := myhub.repoBranch
    repoURL := myhub.repoURL
    isPrivate := myhub.isPrivate
    authType := myhub.authType
    token := myhub.token
    userName := myhub.userName
    password := myhub.password
    sshPrivateKey := myhub.sshPrivateKey }

def newGitHub (hubType : HubType) (chaosHub : CreateChaosHubRequest) : MyHub :=
  { id := env.uuid
    projectID := chaosHub.projectID
    repoURL := chaosHub.repoURL
    repoBranch := chaosHub.repoBranch
    hubName := chaosHub.hubName
    isPrivate := chaosHub.isPrivate
    authType := chaosHub.authType
    hubType := hubType
    token := chaosHub.token
    userName := chaosHub.userName
    password := chaosHub.password
    sshPrivateKey := chaosHub.sshPrivateKey
    sshPublicKey := chaosHub.sshPublicKey
    isRemoved := false
    createdAt := formatTime (env.now 0)
    updatedAt := formatTime (env.now 1)
    lastSyncedAt := formatTime (env.now 2) }

def newRemoteHub (chaosHub : CreateRemoteMyHub) : MyHub :=
  { id := env.uuid
    projectID := chaosHub.projectID
    repoURL := chaosHub.repoURL
    repoBranch := ""
    hubName := chaosHub.hubName
    isPrivate := false
    authType := .none
    hubType := .remote
    token := none
    userName := none
    password := none
    sshPrivateKey := none
    sshPublicKey := none
    isRemoved := false
    createdAt := formatTime (env.now 0)
    updatedAt := formatTime (env.now 1)
    lastSyncedAt := formatTime (env.now 2) }

/-- The document of a new hub, under a name that is free in the project. -/
def insertHub (newHub : MyHub) : Call Unit := do
  if (← isMyHubAvailable env newHub.hubName newHub.projectID) then throw errNameExists
  else createMyHub env.write newHub

/-- An error of the step is logged. A panic is not one. -/
def logged (call : Call Unit) : Call Unit := fun s =>
  match call s with
  | .error (.failed _) s' => .ok () s'
  | result => result

def addChaosHub (chaosHub : CreateChaosHubRequest) : Call ChaosHub := do
  let newHub := newGitHub env .git chaosHub
  insertHub env newHub
  logged (gitClone env.clone chaosHub.cloningInput)
  return newHub.getOutputMyHub

def savedButNotConnected : GoError → GoError
  | .failed message =>
      .failed ("Hub configurations saved successfully. Failed to connect the remote repo: " ++ message)
  | .panic message => .panic message

def addRemoteMyHub (chaosHub : CreateRemoteMyHub) : Call ChaosHub := do
  let newHub := newRemoteHub env chaosHub
  insertHub env newHub
  Program.mapError savedButNotConnected (downloadRemoteHub env.download chaosHub)
  return newHub.getOutputMyHub

def saveChaosHub (chaosHub : CreateChaosHubRequest) : Call ChaosHub := do
  let newHub := newGitHub env .unset chaosHub
  insertHub env newHub
  return newHub.getOutputMyHub

/-- The query of the updates that follow a sync. -/
def liveByID (hubID : String) (hub : MyHub) : Bool := hub.id = hubID && !hub.isRemoved

def setSynced (time : String) : Change MyHub.id := ⟨fun hub => { hub with lastSyncedAt := time }, fun _ => rfl⟩

def syncFiles (myhub : MyHub) : Call Unit :=
  match myhub.hubType with
  | .remote => syncRemoteRepo env.removal env.download myhub.cloningInput
  | _ => gitSyncHandlerForProjects env.clone env.pull myhub.cloningInput

def syncHub (hubID projectID : String) : Call String := do
  let myhub ← getHubByID env.readFails hubID projectID
  syncFiles env myhub
  updateMyHub env.write (liveByID hubID) (setSynced (formatTime (env.now 0)))
  return "Successfully synced ChaosHub"

def setHub (chaosHub : UpdateChaosHubRequest) (time : String) : Change MyHub.id :=
  ⟨fun hub => { hub with
    repoURL := chaosHub.repoURL
    repoBranch := chaosHub.repoBranch
    hubName := chaosHub.hubName
    isPrivate := chaosHub.isPrivate
    authType := chaosHub.authType
    token := chaosHub.token
    userName := chaosHub.userName
    password := chaosHub.password
    sshPrivateKey := chaosHub.sshPrivateKey
    sshPublicKey := chaosHub.sshPublicKey
    updatedAt := time }, fun _ => rfl⟩

/-- A remote hub is downloaded again under another name or address. -/
def moveRemoteHub (prevMyHub : MyHub) (chaosHub : UpdateChaosHubRequest) : Call Unit :=
  if prevMyHub.hubName ≠ chaosHub.hubName ∨ prevMyHub.repoURL ≠ chaosHub.repoURL then do
    removeDir env.removal (clonePath prevMyHub.projectID prevMyHub.hubName)
    downloadRemoteHub env.download {
      hubName := chaosHub.hubName
      repoURL := chaosHub.repoURL
      projectID := chaosHub.projectID }
  else return ()

/-- A git hub is cloned again where its settings have changed, and else synced. -/
def moveGitHub (prevMyHub : MyHub) (chaosHub : UpdateChaosHubRequest) : Call Unit :=
  if prevMyHub.hubName ≠ chaosHub.hubName ∨ prevMyHub.repoURL ≠ chaosHub.repoURL ∨
      prevMyHub.repoBranch ≠ chaosHub.repoBranch ∨ prevMyHub.isPrivate ≠ chaosHub.isPrivate ∨
      prevMyHub.authType ≠ chaosHub.authType then do
    removeDir env.removal (clonePath prevMyHub.projectID prevMyHub.hubName)
    gitClone env.clone chaosHub.cloningInput
  else gitSyncHandlerForProjects env.clone env.pull chaosHub.cloningInput

def moveHub (prevMyHub : MyHub) (chaosHub : UpdateChaosHubRequest) : Call Unit :=
  match prevMyHub.hubType with
  | .remote => moveRemoteHub env prevMyHub chaosHub
  | _ => moveGitHub env prevMyHub chaosHub

/-- The answer is the request. -/
def UpdateChaosHubRequest.output (chaosHub : UpdateChaosHubRequest) (time : String) : ChaosHub :=
  { id := chaosHub.id
    repoURL := chaosHub.repoURL
    repoBranch := chaosHub.repoBranch
    projectID := chaosHub.projectID
    hubName := chaosHub.hubName
    hubType := .unset
    isPrivate := chaosHub.isPrivate
    authType := chaosHub.authType
    token := chaosHub.token
    userName := chaosHub.userName
    password := chaosHub.password
    sshPrivateKey := chaosHub.sshPrivateKey
    sshPublicKey := chaosHub.sshPublicKey
    isRemoved := false
    createdAt := ""
    updatedAt := time
    lastSyncedAt := "" }

def updateChaosHub (chaosHub : UpdateChaosHubRequest) : Call ChaosHub := do
  let prevMyHub ← getHubByID env.readFails chaosHub.id chaosHub.projectID
  moveHub env prevMyHub chaosHub
  let time := formatTime (env.now 0)
  updateMyHub env.write (liveByID chaosHub.id) (setHub chaosHub time)
  return chaosHub.output time

def setRemovedHub (time : String) : Change MyHub.id :=
  ⟨fun hub => { hub with isRemoved := true, updatedAt := time }, fun _ => rfl⟩

/-- A removed hub is removed once more. -/
def deleteChaosHub (hubID projectID : String) : Call Bool := do
  let myHub ← getHubByID env.readFails hubID projectID
  updateMyHub env.write (fun hub => hub.id = hubID && hub.projectID = projectID)
    (setRemovedHub (formatTime (env.now 0)))
  removeDir env.removal (clonePath projectID myHub.hubName)
  return true

/-! ## Sequences of calls -/

inductive Request where
  | add (chaosHub : CreateChaosHubRequest)
  | addRemote (chaosHub : CreateRemoteMyHub)
  | save (chaosHub : CreateChaosHubRequest)
  | update (chaosHub : UpdateChaosHubRequest)
  | sync (hubID projectID : String)
  | delete (hubID projectID : String)
  deriving DecidableEq, Repr

structure HubCall where
  env : Env
  request : Request

/-- The world that a call leaves, whatever its answer. -/
def worldAfter {α : Type} : EStateM.Result GoError World α → World
  | .ok _ world | .error _ world => world

def HubCall.apply (world : World) (call : HubCall) : World :=
  match call.request with
  | .add chaosHub => worldAfter (addChaosHub call.env chaosHub world)
  | .addRemote chaosHub => worldAfter (addRemoteMyHub call.env chaosHub world)
  | .save chaosHub => worldAfter (saveChaosHub call.env chaosHub world)
  | .update chaosHub => worldAfter (updateChaosHub call.env chaosHub world)
  | .sync hubID projectID => worldAfter (syncHub call.env hubID projectID world)
  | .delete hubID projectID => worldAfter (deleteChaosHub call.env hubID projectID world)

def HubCall.hubID (call : HubCall) : String :=
  match call.request with
  | .add _ | .addRemote _ | .save _ => call.env.uuid
  | .update chaosHub => chaosHub.id
  | .sync hubID _ | .delete hubID _ => hubID

/-! ## The invariant -/

def liveHubs (projectID : String) (hubs : List MyHub) : List MyHub :=
  hubs.filter fun hub => hub.projectID = projectID && !hub.isRemoved

def DistinctNames (world : World) : Prop :=
  ∀ projectID, ((liveHubs projectID world.hubs.docs).map MyHub.hubName).Nodup

/-- The directories of the other live hubs are as they were. -/
def HubCall.Spares (call : HubCall) (world : World) : Prop :=
  ∀ hub ∈ world.hubs.docs, hub.isRemoved = false → hub.id ≠ call.hubID →
    SameUnder (clonePath hub.projectID hub.hubName) world.files (call.apply world).files

def HubsAreKept (world : World) (calls : List HubCall) : Prop :=
  ∀ front back, calls = front ++ back →
    DistinctNames (front.foldl HubCall.apply world) ∧
      ∀ call rest, back = call :: rest → call.Spares (front.foldl HubCall.apply world)

end LitmusPortal.MyHubs
