import LitmusPortal.GitOps.Sync
import LitmusPortal.Lib.Transition

/-!
# The clone and the stored configuration

`EnableGitOps` wipes and clones the directory of the project before it writes the configuration,
`UpdateGitOps` clones elsewhere and moves the clone once the configuration is replaced, and
`DisableGitOps` deletes the configuration and then the clone. In between the two disagree, and a call
that ends there leaves them so.
-/

namespace LitmusPortal

open DocumentStore

structure EnableSteps where
  getProject : Bool
  setup : SetupSteps
  add : Bool
  deriving DecidableEq, Repr

structure UpdateSteps where
  getConfig : Bool
  setup : SetupSteps
  replace : Bool
  removeAll : Bool
  rename : Bool
  deriving DecidableEq, Repr

structure DisableSteps where
  delete : Bool
  removeAll : Bool
  deriving DecidableEq, Repr

def tempPath : String := "/tmp/gitops_test/"

def enableGitOpsHandler (steps : EnableSteps) (config : GitConfigInput) (state : GitOpsState) :
    Except GoError Bool × GitOpsState :=
  if steps.getProject then (.error (.failed "Failed to setup GitOps"), state)
  else
    let gitDB := getGitConfigDB config
    match setupGitOps steps.setup (getGitOpsConfig gitDB) state.git with
    | (.error _, git) => (.error (.failed "Failed to setup GitOps"), { state with git := git })
    | (.ok commit, git) =>
        match addGitConfig steps.add state.configs { gitDB with latestCommit := commit } with
        | (.error _, configs) => (.error (.failed "Failed to enable GitOps in DB"),
            { state with git := git, configs := configs })
        | (.ok _, configs) => (.ok true, { state with git := git, configs := configs })

/-- The last two steps of `UpdateGitOpsDetailsHandler`: the new clone takes the place of the old. -/
def swapClone (steps : UpdateSteps) (oldPath newPath : String) (git : GitState) :
    Except GoError Bool × GitState :=
  match removeAll steps.removeAll oldPath git with
  | (.error _, git) => (.error (.failed "Cannot remove existing repo"), git)
  | (.ok _, git) =>
      match rename steps.rename newPath oldPath git with
      | (.error _, git) => (.error (.failed "Cannot copy new repo"), git)
      | (.ok _, git) => (.ok true, git)

/-- The configuration an update clones with, away from the directory of the project. -/
def gitTempConfig (config : GitConfigInput) : GitConfig :=
  let gitConfig := getGitOpsConfig (getGitConfigDB config)
  { gitConfig with localPath := tempPath ++ gitConfig.projectID }

/-- What `UpdateGitOpsDetailsHandler` does once it has found a configuration. -/
def replaceByClone (steps : UpdateSteps) (config : GitConfigInput) (state : GitOpsState) :
    Except GoError Bool × GitOpsState :=
  match setupGitOps steps.setup (gitTempConfig config) state.git with
  | (.error _, git) => (.error (.failed "Failed to setup GitOps"), { state with git := git })
  | (.ok commit, git) =>
      match replaceGitConfig steps.replace state.configs config.projectID
          { getGitConfigDB config with latestCommit := commit } with
      | (.error _, configs) => (.error (.failed "Failed to enable GitOps in DB"),
          { state with git := git, configs := configs })
      | (.ok _, configs) =>
          let originalPath := (getGitOpsConfig (getGitConfigDB config)).localPath
          let (result, git) := swapClone steps originalPath (gitTempConfig config).localPath git
          (result, { state with git := git, configs := configs })

def updateGitOpsDetailsHandler (steps : UpdateSteps) (config : GitConfigInput)
    (state : GitOpsState) : Except GoError Bool × GitOpsState :=
  match getGitConfig steps.getConfig state.configs config.projectID with
  | .error _ => (.error (.failed "Cannot get Git Config from DB"), state)
  | .ok none => (.error (.failed "GitOps Disabled "), state)
  | .ok (some _) => replaceByClone steps config state

def disableGitOpsHandler (steps : DisableSteps) (projectID : String) (state : GitOpsState) :
    Except GoError Bool × GitOpsState :=
  match deleteGitConfig steps.delete state.configs projectID with
  | (.error _, configs) =>
      (.error (.failed "Failed to delete git config from DB"), { state with configs := configs })
  | (.ok _, configs) =>
      match removeAll steps.removeAll (defaultPath ++ projectID) state.git with
      | (.error _, git) => (.error (.failed "Failed to delete git repo from disk"),
          { state with configs := configs, git := git })
      | (.ok _, git) => (.ok true, { state with configs := configs, git := git })

inductive GitOpsCall where
  | enable (steps : EnableSteps) (config : GitConfigInput)
  | update (steps : UpdateSteps) (config : GitConfigInput)
  | disable (steps : DisableSteps) (projectID : String)
  deriving DecidableEq, Repr

def GitOpsCall.projectID : GitOpsCall → String
  | .enable _ config => config.projectID
  | .update _ config => config.projectID
  | .disable _ projectID => projectID

def serveGitOps (state : GitOpsState) : GitOpsCall → GitOpsState
  | .enable steps config => (enableGitOpsHandler steps config state).2
  | .update steps config => (updateGitOpsDetailsHandler steps config state).2
  | .disable steps projectID => (disableGitOpsHandler steps projectID state).2

/-- The clone of a project, if there is one, is of the repository and branch of its configuration. -/
def Agrees (projectID : String) (state : GitOpsState) : Prop :=
  ∀ clone ∈ state.git.disk (defaultPath ++ projectID),
    ∃ config ∈ storedConfig state.configs projectID,
      config.repositoryURL = clone.repositoryURL ∧ config.branch = clone.branch

/-- Every sequence of calls for a project keeps the two in agreement. -/
def CallsKeepAgreement : Prop :=
  ∀ (projectID : String) (state : GitOpsState) (calls : List GitOpsCall),
    Agrees projectID state → (∀ call ∈ calls, call.projectID = projectID) →
    ∀ front back, calls = front ++ back → Agrees projectID (front.foldl serveGitOps state)

/-- A call that comes to a clone of its own ends well: the project has the same repository and
branch stored, or it has none stored and the rest of the call succeeds. A call that removes the
configuration or replaces it gets the old clone out of the way, unless there is none or, for an
update, it is of the new repository. -/
def Reconciles (state : GitOpsState) : GitOpsCall → Prop
  | .enable steps config => steps.getProject = false → steps.setup.clones = true →
      (∃ stored ∈ storedConfig state.configs config.projectID,
        stored.repositoryURL = config.repoURL ∧ stored.branch = config.branch) ∨
      (storedConfig state.configs config.projectID = none ∧ steps.add = false ∧
        steps.setup.pushes (getGitOpsConfig (getGitConfigDB config)) state.git = true)
  | .update steps config => steps.getConfig = false → steps.setup.clones = true →
      steps.setup.pushes (getGitOpsConfig (getGitConfigDB config)) state.git = true →
      steps.replace = false → steps.removeAll = true →
      ∀ clone ∈ state.git.disk (defaultPath ++ config.projectID),
        clone.repositoryURL = config.repoURL ∧ clone.branch = config.branch
  | .disable steps projectID => steps.delete = false → steps.removeAll = true →
      state.git.disk (defaultPath ++ projectID) = none

theorem localPath_eq (config : GitConfigInput) :
    (getGitOpsConfig (getGitConfigDB config)).localPath = defaultPath ++ config.projectID := rfl

theorem agrees_iff_of_disk {projectID : String} {state : GitOpsState} {clone : Clone}
    (h : state.git.disk (defaultPath ++ projectID) = some clone) :
    Agrees projectID state ↔ ∃ config ∈ storedConfig state.configs projectID,
      config.repositoryURL = clone.repositoryURL ∧ config.branch = clone.branch := by
  simp [Agrees, h]

theorem agrees_of_no_clone {projectID : String} {state : GitOpsState}
    (h : state.git.disk (defaultPath ++ projectID) = none) : Agrees projectID state := by
  simp [Agrees, h]

theorem agrees_enable_iff (steps : EnableSteps) (config : GitConfigInput) (state : GitOpsState)
    (h : Agrees config.projectID state) :
    Agrees config.projectID (enableGitOpsHandler steps config state).2 ↔
      Reconciles state (.enable steps config) := by
  unfold enableGitOpsHandler
  simp only [Reconciles]
  cases hproject : steps.getProject with
  | true => simpa using h
  | false =>
      simp only [Bool.false_eq_true, if_false, forall_true_left]
      cases hclones : steps.setup.clones with
      | false =>
          obtain ⟨⟨err, herr⟩, hgit⟩ :=
            setupGitOps_of_not_clones (getGitOpsConfig (getGitConfigDB config)) state.git hclones
          generalize setupGitOps steps.setup (getGitOpsConfig (getGitConfigDB config)) state.git =
            result at herr hgit
          obtain ⟨result, git⟩ := result
          subst herr
          refine iff_of_true ?_ (by simp)
          rcases hgit with rfl | rfl
          · exact h
          · exact agrees_of_no_clone (GitState.disk_setClone_self ..)
      | true =>
          obtain ⟨⟨clone, hdisk, hurl, hbranch⟩, -, hok⟩ :=
            setupGitOps_of_clones (getGitOpsConfig (getGitConfigDB config)) state.git hclones
          generalize setupGitOps steps.setup (getGitOpsConfig (getGitConfigDB config)) state.git =
            result at hdisk hok
          obtain ⟨result, git⟩ := result
          change clone.repositoryURL = config.repoURL at hurl
          change clone.branch = config.branch at hbranch
          change git.disk (defaultPath ++ config.projectID) = some clone at hdisk
          cases result with
          | error err =>
              have hpushes : steps.setup.pushes (getGitOpsConfig (getGitConfigDB config))
                  state.git ≠ true := fun hpushes => by simpa using hok.mpr hpushes
              rw [agrees_iff_of_disk (show _ = some clone from hdisk), hurl, hbranch]
              simp [hpushes]
          | ok commit =>
              have hpushes := hok.mp ⟨commit, rfl⟩
              simp only [hpushes, and_true, forall_true_left]
              rcases addGitConfig_cases steps.add state.configs
                  { getGitConfigDB config with latestCommit := commit } with
                ⟨⟨err, herr⟩, hconfigs, hrefused⟩ | ⟨hadded, hstored, hadd, hnone⟩
              · generalize addGitConfig steps.add state.configs _ = added at herr hconfigs
                obtain ⟨added, configs⟩ := added
                subst herr hconfigs
                change _ ∨ storedConfig state.configs config.projectID ≠ none at hrefused
                rw [agrees_iff_of_disk (show _ = some clone from hdisk), hurl, hbranch]
                have hnot : ¬ (storedConfig state.configs config.projectID = none ∧
                    steps.add = false) := by
                  intro ⟨hnone, hadd⟩
                  rcases hrefused with hfails | hsome
                  · simp [hadd] at hfails
                  · exact hsome hnone
                simp only [hnot, or_false]
              · generalize addGitConfig steps.add state.configs _ = added at hadded hstored
                obtain ⟨added, configs⟩ := added
                subst hadded
                refine iff_of_true ?_ (Or.inr ⟨hnone, hadd⟩)
                apply (agrees_iff_of_disk (show _ = some clone from hdisk)).mpr
                exact ⟨_, hstored, hurl.symm, hbranch.symm⟩

/-- The clone an update tries out is not in the directory of the project. -/
theorem tempPath_ne (projectID : String) : tempPath ++ projectID ≠ defaultPath ++ projectID := by
  intro heq
  have hlength := congrArg String.length heq
  rw [String.length_append, String.length_append] at hlength
  simp only [tempPath, defaultPath, Nat.add_right_cancel_iff] at hlength
  exact absurd hlength (by decide)

/-- The swap of an update removes the old clone before it moves the new one. -/
theorem disk_swapClone (steps : UpdateSteps) {oldPath newPath : String} (hne : newPath ≠ oldPath)
    (git : GitState) : (swapClone steps oldPath newPath git).2.disk oldPath =
      if steps.removeAll then git.disk oldPath
      else if steps.rename then none else git.disk newPath := by
  unfold swapClone removeAll rename
  cases steps.removeAll with
  | true => rfl
  | false =>
      simp only [Bool.false_eq_true, if_false, GitState.disk_setClone_of_ne _ hne]
      cases hdisk : git.disk newPath with
      | none => simp
      | some clone => cases steps.rename <;> simp [hne.symm]

theorem agrees_update_of_stored_iff (steps : UpdateSteps) (config : GitConfigInput)
    (state : GitOpsState) {stored : GitConfigDB}
    (hstored : storedConfig state.configs config.projectID = some stored)
    (h : Agrees config.projectID state) :
    Agrees config.projectID (replaceByClone steps config state).2 ↔
      (steps.setup.clones = true →
        steps.setup.pushes (getGitOpsConfig (getGitConfigDB config)) state.git = true →
        steps.replace = false → steps.removeAll = true →
        ∀ clone ∈ state.git.disk (defaultPath ++ config.projectID),
          clone.repositoryURL = config.repoURL ∧ clone.branch = config.branch) := by
  have hkept : ∀ state' : GitOpsState,
      state'.git.disk (defaultPath ++ config.projectID) =
        state.git.disk (defaultPath ++ config.projectID) →
      storedConfig state'.configs config.projectID = storedConfig state.configs config.projectID →
      Agrees config.projectID state' := by
    intro state' hdisk hconfig
    rw [Agrees, hdisk, hconfig]
    exact h
  have hne := tempPath_ne config.projectID
  unfold replaceByClone
  cases hclones : steps.setup.clones with
  | false =>
      obtain ⟨⟨err, herr⟩, hgit⟩ := setupGitOps_of_not_clones (gitTempConfig config) state.git hclones
      generalize setupGitOps steps.setup (gitTempConfig config) state.git = result at herr hgit ⊢
      obtain ⟨result, git⟩ := result
      subst herr
      refine iff_of_true (hkept _ ?_ rfl) (by simp)
      rcases hgit with rfl | rfl
      · rfl
      · exact GitState.disk_setClone_of_ne _ hne.symm _
  | true =>
      obtain ⟨⟨clone, hdisk, hurl, hbranch⟩, hother, hok⟩ :=
        setupGitOps_of_clones (gitTempConfig config) state.git hclones
      generalize setupGitOps steps.setup (gitTempConfig config) state.git = result
        at hdisk hother hok ⊢
      obtain ⟨result, git⟩ := result
      have hkeptDisk := hother (defaultPath ++ config.projectID) hne.symm
      simp only [forall_true_left]
      cases result with
      | error err =>
          have hpushes : steps.setup.pushes (getGitOpsConfig (getGitConfigDB config)) state.git ≠
              true := fun hpushes => by simpa using hok.mpr hpushes
          exact iff_of_true (hkept _ hkeptDisk rfl) fun h => absurd h hpushes
      | ok commit =>
          have hpushes : steps.setup.pushes (getGitOpsConfig (getGitConfigDB config)) state.git =
            true := hok.mp ⟨commit, rfl⟩
          dsimp only
          have hconfig : ∃ newConfig : GitConfigDB,
              { getGitConfigDB config with latestCommit := commit } = newConfig ∧
              newConfig.projectID = config.projectID ∧ newConfig.repositoryURL = config.repoURL ∧
              newConfig.branch = config.branch := ⟨_, rfl, rfl, rfl, rfl⟩
          obtain ⟨newConfig, hconfig, hproject, hnewURL, hnewBranch⟩ := hconfig
          rw [hconfig]
          have hreplace := replaceGitConfig_cases steps.replace state.configs hproject
            (by simp [hstored])
          generalize replaceGitConfig steps.replace state.configs config.projectID newConfig =
            replaced at hreplace
          obtain ⟨replaced, configs⟩ := replaced
          rcases hreplace with ⟨⟨err, herr⟩, hsame, hfails⟩ | ⟨hreplaced, hnew, hfails⟩
          · subst herr
            have hsame : storedConfig configs config.projectID =
                storedConfig state.configs config.projectID := congrArg (storedConfig · _) hsame
            exact iff_of_true (hkept _ hkeptDisk hsame) (by simp [hfails])
          · subst hreplaced
            change storedConfig configs config.projectID = some newConfig at hnew
            have hswapped : (swapClone steps (defaultPath ++ config.projectID)
                (tempPath ++ config.projectID) git).2.disk (defaultPath ++ config.projectID) = _ :=
              disk_swapClone steps hne git
            have hagrees : ∀ git' : GitState, Agrees config.projectID
                { state with configs := configs, git := git' } ↔
                ∀ clone ∈ git'.disk (defaultPath ++ config.projectID),
                  clone.repositoryURL = config.repoURL ∧ clone.branch = config.branch := by
              intro git'
              simp [Agrees, hnew, hnewURL, hnewBranch, eq_comm]
            simp only [hpushes, hfails, forall_true_left]
            rw [hagrees]
            change (∀ clone ∈ (swapClone steps (defaultPath ++ config.projectID)
              (tempPath ++ config.projectID) git).2.disk _, _) ↔ _
            rw [hswapped]
            cases steps.removeAll with
            | true =>
                change git.disk (defaultPath ++ config.projectID) = _ at hkeptDisk
                simp [hkeptDisk]
            | false =>
                change git.disk (tempPath ++ config.projectID) = some clone at hdisk
                cases steps.rename with
                | true => simp
                | false =>
                    simp only [hdisk, Bool.false_eq_true, if_false, Option.mem_some_iff]
                    refine iff_of_true ?_ (by simp)
                    rintro _ rfl
                    exact ⟨hurl, hbranch⟩

theorem agrees_update_iff (steps : UpdateSteps) (config : GitConfigInput) (state : GitOpsState)
    (h : Agrees config.projectID state) :
    Agrees config.projectID (updateGitOpsDetailsHandler steps config state).2 ↔
      Reconciles state (.update steps config) := by
  unfold updateGitOpsDetailsHandler getGitConfig
  simp only [Reconciles]
  cases hget : steps.getConfig with
  | true => simpa using h
  | false =>
      simp only [Bool.false_eq_true, if_false, forall_const]
      cases hstored : state.configs.findOne (ofProject config.projectID) with
      | none =>
          refine iff_of_true h fun _ _ _ _ clone hclone => ?_
          obtain ⟨stored, hmem, -⟩ := h clone hclone
          rw [storedConfig, hstored] at hmem
          cases hmem
      | some stored => exact agrees_update_of_stored_iff steps config state hstored h

theorem agrees_disable_iff (steps : DisableSteps) (projectID : String) (state : GitOpsState)
    (h : Agrees projectID state) :
    Agrees projectID (disableGitOpsHandler steps projectID state).2 ↔
      Reconciles state (.disable steps projectID) := by
  unfold disableGitOpsHandler Reconciles
  rcases deleteGitConfig_cases steps.delete state.configs projectID with
    ⟨hfails, ⟨err, herr⟩, hconfigs⟩ | ⟨hfails, hdeleted, hnone⟩
  · generalize deleteGitConfig steps.delete state.configs projectID = deleted at herr hconfigs
    obtain ⟨deleted, configs⟩ := deleted
    subst herr hconfigs
    simpa [hfails] using h
  · generalize deleteGitConfig steps.delete state.configs projectID = deleted at hdeleted hnone
    obtain ⟨deleted, configs⟩ := deleted
    subst hdeleted
    change storedConfig configs projectID = none at hnone
    simp only [hfails, forall_true_left, removeAll]
    cases steps.removeAll with
    | true => simp [Agrees, hnone, Option.eq_none_iff_forall_not_mem]
    | false => simp [Agrees]

/-- The step lemma: a call keeps the agreement exactly when it reconciles. -/
theorem agrees_serveGitOps_iff {projectID : String} {state : GitOpsState} {call : GitOpsCall}
    (hproject : call.projectID = projectID) (h : Agrees projectID state) :
    Agrees projectID (serveGitOps state call) ↔ Reconciles state call := by
  subst hproject
  cases call with
  | enable steps config => exact agrees_enable_iff steps config state h
  | update steps config => exact agrees_update_iff steps config state h
  | disable steps projectID => exact agrees_disable_iff steps projectID state h

def emptyState : GitOpsState where
  workflows := ⟨[], List.Pairwise.nil⟩
  configs := ⟨[], List.Pairwise.nil⟩
  git := ⟨fun _ _ => [], fun _ => none⟩

def sampleInput (repoURL : String) : GitConfigInput :=
  ⟨"project-1", "main", repoURL, .token, some "token", none, none, none⟩

def sampleEnable (repoURL : String) : GitOpsCall :=
  .enable ⟨false, { sampleSetup with commit := some ("c1", ["litmus/project-1/.info"]) }, false⟩
    (sampleInput repoURL)

theorem agrees_emptyState : Agrees "project-1" emptyState := agrees_of_no_clone rfl

/-- A sequence of calls keeps the agreement in all its states exactly when every call reconciles in
the state it is served in. -/
theorem callsKeepAgreement_iff {projectID : String} {state : GitOpsState} {calls : List GitOpsCall}
    (h : Agrees projectID state) (hproject : ∀ call ∈ calls, call.projectID = projectID) :
    (∀ front back, calls = front ++ back → Agrees projectID (front.foldl serveGitOps state)) ↔
      ∀ front call back, calls = front ++ call :: back →
        Reconciles (front.foldl serveGitOps state) call :=
  Transition.foldl_invariant_iff
    (fun _ _ hcall hagrees => agrees_serveGitOps_iff (hproject _ hcall) hagrees) h

/-- Enabling GitOps and disabling it again keeps the agreement. -/
theorem callsKeepAgreement_iff_disable :
    Agrees "project-1" ([sampleEnable "https://github.com/org/repo",
      .disable ⟨false, false⟩ "project-1"].foldl serveGitOps emptyState) := by
  have hproject : ∀ call ∈ [sampleEnable "https://github.com/org/repo",
      .disable ⟨false, false⟩ "project-1"], call.projectID = "project-1" := by
    simp [sampleEnable, sampleInput, GitOpsCall.projectID]
  apply (callsKeepAgreement_iff agrees_emptyState hproject).mpr _ _ [] (by simp)
  intro front call back hcalls
  rcases front with _ | ⟨other, front⟩
  · obtain ⟨rfl, -⟩ := List.cons.inj hcalls
    exact fun _ _ => Or.inr (by decide)
  · obtain ⟨-, hrest⟩ := List.cons.inj hcalls
    obtain ⟨-, rfl, -⟩ | ⟨_, -, hnil⟩ := List.cons_eq_append_iff.mp hrest
    · simp [Reconciles]
    · simp at hnil

/-- The first call enables GitOps, so the insert of the second is refused by the unique index when
the other repository has been cloned already. -/
theorem not_callsKeepAgreement : ¬ CallsKeepAgreement := by
  intro hkeep
  let first := sampleEnable "https://github.com/org/repo"
  let second := sampleEnable "https://github.com/org/other"
  have hproject : ∀ call ∈ [first, second], call.projectID = "project-1" := by
    simp [first, second, sampleEnable, sampleInput, GitOpsCall.projectID]
  have hbefore := hkeep "project-1" emptyState [first, second] agrees_emptyState hproject
    [first] [second] rfl
  have hafter := hkeep "project-1" emptyState [first, second] agrees_emptyState hproject
    [first, second] [] rfl
  have hreconciles := (agrees_serveGitOps_iff (hproject second (by simp)) hbefore).mp hafter
  have hstored : storedConfig (serveGitOps emptyState first).configs "project-1" =
      some ⟨"project-1", "https://github.com/org/repo", "main", "c1", .token, none, none,
        some "token", none⟩ := by decide
  rcases hreconciles rfl rfl with ⟨stored, hmem, hurl, -⟩ | ⟨hnone, -⟩
  · obtain rfl := Option.some.inj (hstored.symm.trans hmem)
    simp [sampleInput] at hurl
  · exact absurd (hstored.symm.trans hnone) (by simp)

end LitmusPortal
