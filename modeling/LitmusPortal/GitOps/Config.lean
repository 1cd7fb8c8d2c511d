import LitmusPortal.Schema

/-!
# The git configuration of a project

The documents of `gitops-collection`, one for each project, and the settings the git operations
read from them.
-/

namespace LitmusPortal

open DocumentStore

inductive AuthType where
  | basic
  | none
  | ssh
  | token
  deriving DecidableEq, Repr

/-- The GraphQL input of the GitOps mutations, `model.GitConfig`. -/
structure GitConfigInput where
  projectID : String
  branch : String
  repoURL : String
  authType : AuthType
  token : Option String
  userName : Option String
  password : Option String
  sshPrivateKey : Option String
  deriving DecidableEq, Repr

structure GitConfigDB where
  projectID : String
  repositoryURL : String
  branch : String
  latestCommit : String
  authType : AuthType
  userName : Option String
  password : Option String
  token : Option String
  sshPrivateKey : Option String
  deriving DecidableEq, Repr

def gitConfigIndexes : List (UniqueIndex GitConfigDB String) := [fun config => some config.projectID]

abbrev GitConfigs := Collection gitConfigIndexes

structure GitConfig where
  projectID : String
  repositoryURL : String
  localPath : String
  remoteName : String
  branch : String
  latestCommit : String
  userName : Option String
  password : Option String
  authType : AuthType
  token : Option String
  sshPrivateKey : Option String
  deriving DecidableEq, Repr

def defaultPath : String := "/tmp/gitops/"

def projectDataPath : String := "litmus"

def getGitConfigDB (config : GitConfigInput) : GitConfigDB where
  projectID := config.projectID
  repositoryURL := config.repoURL
  branch := config.branch
  latestCommit := ""
  authType := config.authType
  userName := config.userName
  password := config.password
  token := config.token
  sshPrivateKey := config.sshPrivateKey

def getGitOpsConfig (repoData : GitConfigDB) : GitConfig where
  projectID := repoData.projectID
  repositoryURL := repoData.repositoryURL
  remoteName := "origin"
  branch := repoData.branch
  localPath := defaultPath ++ repoData.projectID
  latestCommit := repoData.latestCommit
  userName := repoData.userName
  password := repoData.password
  authType := repoData.authType
  token := repoData.token
  sshPrivateKey := repoData.sshPrivateKey

theorem GitConfigs.pairwise_projectID (configs : GitConfigs) :
    configs.docs.Pairwise fun left right => left.projectID ≠ right.projectID :=
  configs.unique.imp fun {left right} hnot heq =>
    hnot ⟨fun config => some config.projectID, by simp [gitConfigIndexes], by simp, by simp [heq]⟩

end LitmusPortal
