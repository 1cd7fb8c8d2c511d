import LitmusPortal.GitOps.Config
import LitmusPortal.Lib.Documents
import LitmusPortal.Lib.FileTree
import LitmusPortal.Lib.Program

/-!
# ChaosHubs in the database and on disk

The documents of the collection `myhub`, the directories below `/tmp/version/`, and the steps of the handlers: the
queries, the clone and the pull of a git hub, and the download of a remote hub.
-/

namespace LitmusPortal.MyHubs

open DocumentStore FileTree GoStrings

inductive HubType where
  | unset
  | git
  | remote
  deriving DecidableEq, Repr

structure MyHub where
  id : String
  projectID : String
  repoURL : String
  repoBranch : String
  hubName : String
  isPrivate : Bool
  authType : AuthType
  hubType : HubType
  token : Option String
  userName : Option String
  password : Option String
  sshPrivateKey : Option String
  sshPublicKey : Option String
  isRemoved : Bool
  createdAt : String
  updatedAt : String
  lastSyncedAt : String
  deriving DecidableEq, Repr

structure CloningInput where
  hubName : String
  projectID : String
  repoBranch : String
  repoURL : String
  isPrivate : Bool
  authType : AuthType
  token : Option String
  userName : Option String
  password : Option String
  sshPrivateKey : Option String
  deriving DecidableEq, Repr

structure CreateRemoteMyHub where
  hubName : String
  repoURL : String
  projectID : String
  deriving DecidableEq, Repr

structure World where
  hubs : Documents MyHub.id
  files : FileMap

abbrev Call := EStateM GoError World

/-! ## Queries -/

/-- What may happen to a write: it fails, or it is made and the answer to it is lost. -/
inductive WriteFault where
  | none
  | fails
  | unanswered
  deriving DecidableEq, Repr

def serverDown : GoError := .failed "database is not reachable"

def errNoDocuments : GoError := .failed "mongo: no documents in result"

def errNotMatched : GoError := .failed "Myhub collection query didn't matched"

def readHubs {α : Type} (fails : Bool) (find : List MyHub → α) : Call α := do
  let world ← get
  if fails then throw serverDown else return find world.hubs.docs

def writeHubs (fault : WriteFault) (change : Documents MyHub.id → Documents MyHub.id) : Call Unit :=
  match fault with
  | .none => modify fun world => { world with hubs := change world.hubs }
  | .fails => throw serverDown
  | .unanswered => do
      modify fun world => { world with hubs := change world.hubs }
      throw serverDown

def createMyHub (fault : WriteFault) (myhub : MyHub) : Call Unit := writeHubs fault fun hubs => hubs.add myhub

/-- The live hubs of the project. -/
def getMyHubByProjectID (fails : Bool) (projectID : String) : Call (List MyHub) :=
  readHubs fails fun hubs => hubs.filter fun hub => hub.projectID = projectID && !hub.isRemoved

/-- A hub of the project, removed or not. -/
def getHubByID (fails : Bool) (hubID projectID : String) : Call MyHub := do
  let hub ← readHubs fails fun hubs => hubs.find? fun hub => hub.id = hubID && hub.projectID = projectID
  match hub with
  | none => throw errNoDocuments
  | some hub => return hub

def updateMyHub (fault : WriteFault) (query : MyHub → Bool) (update : Change MyHub.id) : Call Unit := do
  let world ← get
  writeHubs fault fun hubs => hubs.update query update
  if world.hubs.docs.any query then return () else throw errNotMatched

/-! ## Directories -/

def defaultPath : String := "/tmp/version/"

def clonePath (projectID hubName : String) : Path := clean (defaultPath ++ projectID ++ "/" ++ hubName)

def zipPath (projectID hubName : String) : Path := clean (defaultPath ++ projectID ++ "/" ++ hubName ++ ".zip")

/-- `os.RemoveAll`. A failing one has left some paths. -/
def removeDir (left : Option (Path → Bool)) (path : Path) : Call Unit := do
  modify fun world => { world with files := eraseUnder (left.getD fun _ => false) path world.files }
  if left.isSome then throw (.failed "unlinkat") else return ()

/-! ## Git -/

/-- A run of git in a directory: what it leaves there, and whether it ends well. -/
structure GitRun where
  leaves : FileMap
  succeeds : Bool

structure CloneEnv where
  sweep : Option (Path → Bool)
  keyParses : Bool
  branch : GitRun
  tag : GitRun

structure PullEnv where
  statFails : Bool
  opens : Bool
  keyParses : Bool
  run : GitRun

def gitError : GoError := .failed "repository not found"

def nilDereference : GoError := .panic "runtime error: invalid memory address or nil pointer dereference"

def runGit (run : GitRun) (path : Path) : Call Bool := do
  modify fun world => { world with files := overwrite run.leaves path (mkdirAll path world.files) }
  return run.succeeds

/-- The fields that the kind of authentication needs are dereferenced. -/
def generateAuthMethod (keyParses : Bool) (c : CloningInput) : Except GoError Unit :=
  match c.authType with
  | .token => if c.token = none then .error nilDereference else .ok ()
  | .basic => if c.userName = none ∨ c.password = none then .error nilDereference else .ok ()
  | .ssh =>
      if c.sshPrivateKey = none then .error nilDereference
      else if keyParses then .ok ()
      else .error (.failed "ssh: no key found")
  | .none => .ok ()

/-- The branch of the hub, and if there is none of this name the tag. -/
def plainClone (env : CloneEnv) (path : Path) : Call Unit := do
  if (← runGit env.branch path) then return ()
  else if (← runGit env.tag path) then return ()
  else throw gitError

/-- The directory is removed before the clone, whether that succeeds or not. -/
def gitClone (env : CloneEnv) (repoData : CloningInput) : Call Unit := do
  let path := clonePath repoData.projectID repoData.hubName
  modify fun world => { world with files := eraseUnder (env.sweep.getD fun _ => false) path world.files }
  if repoData.isPrivate then
    match generateAuthMethod env.keyParses repoData with
    | .error err => throw err
    | .ok _ => plainClone env path
  else plainClone env path

/-- A private hub whose key cannot be read is not pulled, without an error. -/
def gitPull (env : PullEnv) (c : CloningInput) : Call Unit := do
  let path := clonePath c.projectID c.hubName
  if env.opens = false then throw gitError
  else
    match if c.isPrivate then generateAuthMethod env.keyParses c else .ok () with
    | .error (.panic message) => throw (.panic message)
    | .error (.failed _) => return ()
    | .ok _ => if (← runGit env.run path) then return () else throw gitError

def gitSyncHandlerForProjects (cloneEnv : CloneEnv) (pullEnv : PullEnv) (repoData : CloningInput) : Call Unit := do
  let world ← get
  if pullEnv.statFails then throw (.failed "Error while checking repo exists, err: permission denied")
  else if world.files (clonePath repoData.projectID repoData.hubName) = none then gitClone cloneEnv repoData
  else gitPull pullEnv repoData

/-! ## Remote hubs -/

/-- An entry of an archive, with what of it gets written. -/
structure ZipItem where
  name : String
  isDir : Bool
  opens : Bool
  written : String
  mkdirFails : Bool
  createFails : Bool
  deriving DecidableEq, Repr

structure HttpAnswer where
  status : String
  isOK : Bool
  contentLength : String
  contentType : String
  deriving DecidableEq, Repr

/-- What a download meets. `archive` is what the written file is read back as. -/
structure DownloadEnv where
  createFails : Bool
  answer : Option HttpAnswer
  maxSize : String
  copied : String
  copyFails : Bool
  archive : Option (List ZipItem)
  removeFails : Bool

/-- The number that `strconv.Atoi` returns, also with an error. -/
def atoiValue (s : String) : Int :=
  match parseInt s with
  | none => 0
  | some n => max minInt (min maxInt n)

def createFile (fails : Bool) (content : String) (path : Path) : Call Bool := do
  let world ← get
  match if fails then none else create content path world.files with
  | none => return false
  | some files => do
      set { world with files := files }
      return true

def unlink (path : Path) : Call Unit := modify fun world => { world with files := removeFile path world.files }

def makeParent (file : ZipItem) (path : Path) : Call Unit :=
  if file.mkdirFails then return ()
  else modify fun world => { world with files := mkdirAll path.dropLast world.files }

def writeItem (file : ZipItem) (path : Path) : Call Unit :=
  if file.isDir then return () else discard (createFile file.createFails file.written path)

def ZipItem.path (extractPath : String) (file : ZipItem) : Path := clean (extractPath ++ "/" ++ file.name)

/-- Items that would lie outside of the directory of the project are skipped. -/
def ZipItem.isLegal (extractPath : String) (file : ZipItem) : Prop :=
  clean extractPath <+: file.path extractPath ∧ file.path extractPath ≠ clean extractPath

instance (extractPath : String) (file : ZipItem) : Decidable (file.isLegal extractPath) :=
  inferInstanceAs (Decidable (_ ∧ _))

/-- `CopyZipItems`. Its errors are dropped; an item that cannot be opened is a nil reader. -/
def copyZipItem (extractPath : String) (file : ZipItem) : Call Unit :=
  if file.isLegal extractPath then do
    makeParent file (file.path extractPath)
    writeItem file (file.path extractPath)
    if file.opens then return () else throw nilDereference
  else return ()

def unzipRemoteHub (items : List ZipItem) (hubDetails : CreateRemoteMyHub) : Call Unit :=
  items.forM (copyZipItem (defaultPath ++ hubDetails.projectID))

/-- The archive is kept next to the directories of the hubs while it is unpacked. -/
def downloadRemoteHub (env : DownloadEnv) (hubDetails : CreateRemoteMyHub) : Call Unit := do
  let hubpath := zipPath hubDetails.projectID hubDetails.hubName
  if (← createFile env.createFails "" hubpath) then
    match env.answer with
    | none => throw (.failed "connection refused")
    | some download =>
        if download.isOK = false then throw (.failed ("err: %!(EXTRA string=" ++ download.status ++ ")"))
        else
          match atoi env.maxSize with
          | none => throw (.failed "invalid syntax")
          | some maxSize =>
              let length := atoiValue download.contentLength
              if maxSize < length then
                unlink hubpath
                throw (.failed ("err: File size exceeded the threshold " ++ toString length))
              else if download.contentType ≠ "application/zip" then
                unlink hubpath
                throw (.failed ("err: Invalid file type " ++ download.contentType))
              else
                discard (createFile false env.copied hubpath)
                if env.copyFails then throw (.failed "unexpected EOF")
                else
                  match env.archive with
                  | none => throw (.failed "zip: not a valid zip file")
                  | some items =>
                      unzipRemoteHub items hubDetails
                      if env.removeFails then throw (.failed "remove") else unlink hubpath
  else throw (.failed "open")

def syncRemoteRepo (left : Option (Path → Bool)) (env : DownloadEnv) (hubData : CloningInput) : Call Unit := do
  removeDir left (clonePath hubData.projectID hubData.hubName)
  downloadRemoteHub env {
    hubName := hubData.hubName
    repoURL := hubData.repoURL
    projectID := hubData.projectID }

end LitmusPortal.MyHubs
