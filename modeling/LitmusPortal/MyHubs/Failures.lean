import LitmusPortal.MyHubs.Invariant

/-!
# What a failed update leaves

An update and a sync remove the directory of the hub before they fetch it again, and write the document last. What has
failed is put right by a sync. A call that fails before it gets to the directory leaves everything as it was.
-/

namespace LitmusPortal.MyHubs

open DocumentStore FileTree Program

variable {env : Env} {world : World}

/-- A directory that is missing is cloned, and one that opens is pulled in. -/
def GitFetches (env : PullEnv) (files : FileMap) (c : CloningInput) : Prop :=
  env.statFails = false ∧ (files (clonePath c.projectID c.hubName) = none ∨
    env.opens = true ∧ (if c.isPrivate then generateAuthMethod env.keyParses c else .ok ()) = .ok ())

/-- The settings for which a git hub is cloned again. -/
def UpdateChaosHubRequest.resets (chaosHub : UpdateChaosHubRequest) (prevMyHub : MyHub) : Prop :=
  prevMyHub.hubName ≠ chaosHub.hubName ∨ prevMyHub.repoURL ≠ chaosHub.repoURL ∨
    prevMyHub.repoBranch ≠ chaosHub.repoBranch ∨ prevMyHub.isPrivate ≠ chaosHub.isPrivate ∨
    prevMyHub.authType ≠ chaosHub.authType

/-- The update gets to the directory of the hub. -/
def UpdateFetches (env : Env) (files : FileMap) (prevMyHub : MyHub) (chaosHub : UpdateChaosHubRequest) : Prop :=
  env.readFails = false ∧
    match prevMyHub.hubType with
    | .remote => chaosHub.moves prevMyHub
    | _ => chaosHub.resets prevMyHub ∨ GitFetches env.pull files chaosHub.cloningInput

/-- The sync does. -/
def SyncFetches (env : Env) (files : FileMap) (myhub : MyHub) : Prop :=
  env.readFails = false ∧
    match myhub.hubType with
    | .remote => True
    | _ => GitFetches env.pull files myhub.cloningInput

/-- The documents are as they were, unless the answer to their write was lost, and the directory is as it was unless
the call has got to it. -/
structure FailsHarmlessly (env : Env) (fetches : Prop) (hub : MyHub) (world after : World) : Prop where
  hubs : env.write ≠ .unanswered → after.hubs = world.hubs
  files : ¬fetches → SameUnder hub.path world.files after.files

theorem failsHarmlessly_self (env : Env) (fetches : Prop) (hub : MyHub) {w : World} (h : w = world) :
    FailsHarmlessly env fetches hub world w := by
  subst h
  exact ⟨fun _ => rfl, fun _ _ _ => rfl⟩

/-! ### Before the directory -/

theorem triple_gitSync_of_not {cloneEnv : CloneEnv} {pullEnv : PullEnv} {c : CloningInput}
    (h : ¬GitFetches pullEnv world.files c) :
    Triple (fun w => w = world) (gitSyncHandlerForProjects cloneEnv pullEnv c) (fun _ w => w = world)
      (fun w => w = world) := by
  refine Triple.bind Triple.get fun w => ?_
  refine Triple.ite (fun _ => Triple.throw fun _ hs => hs.2) fun hstat => ?_
  have hstat : pullEnv.statFails = false := by simpa using hstat
  refine Triple.ite (fun hmissing => ?_) fun _ => ?_
  · rintro s ⟨rfl, rfl⟩
    exact absurd ⟨hstat, .inl hmissing⟩ h
  · refine Triple.ite (fun _ => Triple.throw fun _ hs => hs.2) fun hopens => ?_
    have hopens : pullEnv.opens = true := by simpa using hopens
    cases hauth : (if c.isPrivate then generateAuthMethod pullEnv.keyParses c else .ok () : Except GoError Unit) with
    | error err =>
        cases err with
        | panic message => exact Triple.throw fun _ hs => hs.2
        | failed message => exact Triple.pure fun _ hs => hs.2
    | ok _ => exact absurd ⟨hstat, .inr ⟨hopens, hauth⟩⟩ h

theorem triple_moveHub_of_not {prevMyHub : MyHub} {chaosHub : UpdateChaosHubRequest} (hread : env.readFails = false)
    (h : ¬UpdateFetches env world.files prevMyHub chaosHub) :
    Triple (fun w => w = world) (moveHub env prevMyHub chaosHub) (fun _ w => w = world) (fun w => w = world) := by
  unfold UpdateFetches at h
  unfold moveHub
  have hgit : ¬(chaosHub.resets prevMyHub ∨ GitFetches env.pull world.files chaosHub.cloningInput) →
      Triple (fun w => w = world) (moveGitHub env prevMyHub chaosHub) (fun _ w => w = world) (fun w => w = world) := by
    intro hnot
    rw [not_or] at hnot
    exact Triple.ite (fun hresets => absurd hresets hnot.1) fun _ => triple_gitSync_of_not hnot.2
  cases htype : prevMyHub.hubType with
  | remote =>
      rw [htype] at h
      exact Triple.ite (fun hmoves => absurd ⟨hread, hmoves⟩ h) fun _ => Triple.pure fun _ hs => hs
  | git =>
      rw [htype] at h
      exact hgit fun hnot => h ⟨hread, hnot⟩
  | unset =>
      rw [htype] at h
      exact hgit fun hnot => h ⟨hread, hnot⟩

theorem triple_syncFiles_of_not {myhub : MyHub} (hread : env.readFails = false)
    (h : ¬SyncFetches env world.files myhub) :
    Triple (fun w => w = world) (syncFiles env myhub) (fun _ w => w = world) (fun w => w = world) := by
  unfold SyncFetches at h
  unfold syncFiles
  cases htype : myhub.hubType with
  | remote =>
      rw [htype] at h
      exact absurd ⟨hread, trivial⟩ h
  | git =>
      rw [htype] at h
      exact triple_gitSync_of_not fun hnot => h ⟨hread, hnot⟩
  | unset =>
      rw [htype] at h
      exact triple_gitSync_of_not fun hnot => h ⟨hread, hnot⟩

/-! ### The steps of a call -/

/-- A step on the disk that leaves the documents, and everything where it does not get to the directory. -/
theorem triple_step {α : Type} {region : Path → Prop} {step : Call α} {fetches : Prop} (hub : MyHub)
    (hregion : StaysIn region step)
    (hnot : ¬fetches → Triple (fun w => w = world) step (fun _ w => w = world) (fun w => w = world)) :
    Triple (fun w => w = world) step
      (fun _ w => w.hubs = world.hubs ∧ (¬fetches → SameUnder hub.path world.files w.files))
      (FailsHarmlessly env fetches hub world) := by
  have hhubs := hregion world.hubs world.files
  by_cases hfetches : fetches
  · refine hhubs.mono ?_ (fun _ w hw => ⟨hw.hubs, absurd hfetches⟩) fun w hw =>
      ⟨fun _ => hw.hubs, absurd hfetches⟩
    rintro w rfl
    exact confined_self _
  · refine (hnot hfetches).mono (fun _ hs => hs) ?_ fun w hw => failsHarmlessly_self env fetches hub hw
    rintro _ w rfl
    exact ⟨rfl, fun _ _ _ => rfl⟩

/-- The write of a document that is there. -/
theorem triple_update_of_mem {fetches : Prop} {query : MyHub → Bool} {update : Change MyHub.id} {hub : MyHub}
    (hmem : hub ∈ world.hubs.docs) (hquery : query hub = true) :
    Triple (fun w => w.hubs = world.hubs ∧ (¬fetches → SameUnder hub.path world.files w.files))
      (updateMyHub env.write query update) (fun _ _ => True) (FailsHarmlessly env fetches hub world) := by
  have hwrite : Triple (fun w => w.hubs = world.hubs ∧ (¬fetches → SameUnder hub.path world.files w.files))
      (writeHubs env.write fun hubs => hubs.update query update) (fun _ _ => True)
      (FailsHarmlessly env fetches hub world) := by
    cases hfault : env.write with
    | none => exact Triple.modify fun _ _ => trivial
    | fails => exact Triple.throw fun w hw => ⟨fun _ => hw.1, hw.2⟩
    | unanswered =>
        refine Triple.bind (@Triple.modify _ _ _ _ _ (fun _ w => ¬fetches → SameUnder hub.path world.files w.files)
          fun w hw => hw.2) fun _ => ?_
        exact Triple.throw fun w hw => ⟨fun hne => absurd hfault hne, hw⟩
  refine Triple.bind Triple.get fun w => ?_
  by_cases hsame : w.hubs = world.hubs
  · have hany : w.hubs.docs.any query = true := by
      rw [hsame]
      exact List.any_eq_true.mpr ⟨hub, hmem, hquery⟩
    refine Triple.bind (hwrite.mono (fun _ hs => hs.2) (fun _ _ hs => hs) fun _ hs => hs) fun _ => ?_
    exact Triple.ite (fun _ => Triple.pure fun _ hs => hs) fun hnot => absurd hany hnot
  · rintro s ⟨rfl, hs⟩
    exact absurd hs.1 hsame

theorem mem_of_findHub {hubID projectID : String} {hub : MyHub} (h : findHub world hubID projectID = some hub) :
    hub ∈ world.hubs.docs ∧ hub.id = hubID ∧ hub.projectID = projectID := by
  have hquery := List.find?_some h
  rw [Bool.and_eq_true, decide_eq_true_eq, decide_eq_true_eq] at hquery
  exact ⟨List.mem_of_find?_eq_some h, hquery⟩

section Calls

variable {hub : MyHub} {hubID projectID : String}

theorem triple_updateChaosHub_fails {chaosHub : UpdateChaosHubRequest}
    (hfound : findHub world chaosHub.id chaosHub.projectID = some hub) (hlive : hub.isRemoved = false) :
    Triple (fun w => w = world) (updateChaosHub env chaosHub) (fun _ _ => True)
      (FailsHarmlessly env (UpdateFetches env world.files hub chaosHub) hub world) := by
  obtain ⟨hmem, hid, -⟩ := mem_of_findHub hfound
  have hquery : liveByID chaosHub.id hub = true := by simp [liveByID, hid, hlive]
  cases hread : env.readFails with
  | true =>
      intro w hw
      have hfails : getHubByID env.readFails chaosHub.id chaosHub.projectID w = .error serverDown w := by
        rw [hread]
        rfl
      rw [updateChaosHub, bind_of_error hfails]
      exact failsHarmlessly_self env _ hub hw
  | false =>
      refine Triple.bind (triple_getHubByID.mono (fun _ hs => hs) (fun _ _ hs => hs) fun w hw =>
        failsHarmlessly_self env _ hub hw) fun prevMyHub => Triple.of_and fun hprev => ?_
      cases Option.some.inj (hfound.symm.trans hprev)
      refine Triple.bind (triple_step hub (staysIn_moveHub hfound) (triple_moveHub_of_not hread)) fun _ => ?_
      exact Triple.bind (triple_update_of_mem hmem hquery) fun _ => Triple.pure fun _ _ => trivial

theorem triple_syncHub_fails (hfound : findHub world hubID projectID = some hub) (hlive : hub.isRemoved = false) :
    Triple (fun w => w = world) (syncHub env hubID projectID) (fun _ _ => True)
      (FailsHarmlessly env (SyncFetches env world.files hub) hub world) := by
  obtain ⟨hmem, hid, -⟩ := mem_of_findHub hfound
  have hquery : liveByID hubID hub = true := by simp [liveByID, hid, hlive]
  cases hread : env.readFails with
  | true =>
      intro w hw
      have hfails : getHubByID env.readFails hubID projectID w = .error serverDown w := by
        rw [hread]
        rfl
      rw [syncHub, bind_of_error hfails]
      exact failsHarmlessly_self env _ hub hw
  | false =>
      refine Triple.bind (triple_getHubByID.mono (fun _ hs => hs) (fun _ _ hs => hs) fun w hw =>
        failsHarmlessly_self env _ hub hw) fun myhub => Triple.of_and fun hmyhub => ?_
      cases Option.some.inj (hfound.symm.trans hmyhub)
      refine Triple.bind (triple_step hub (staysIn_syncFiles hfound) (triple_syncFiles_of_not hread)) fun _ => ?_
      exact Triple.bind (triple_update_of_mem hmem hquery) fun _ => Triple.pure fun _ _ => trivial

end Calls

/-- **A failed call that has not got to the directory is harmless**, and the document survives every failure but that of
its own write. -/
theorem failedCalls_harmless (env : Env) {world : World} {hub : MyHub} {hubID projectID : String}
    (hfound : findHub world hubID projectID = some hub) (hlive : hub.isRemoved = false) :
    (∀ chaosHub : UpdateChaosHubRequest, chaosHub.id = hubID → chaosHub.projectID = projectID → ∀ err after,
      updateChaosHub env chaosHub world = .error err after →
        FailsHarmlessly env (UpdateFetches env world.files hub chaosHub) hub world after) ∧
      ∀ err after, syncHub env hubID projectID world = .error err after →
        FailsHarmlessly env (SyncFetches env world.files hub) hub world after := by
  constructor
  · rintro chaosHub rfl rfl err after hrun
    have hends := (triple_updateChaosHub_fails hfound hlive :
      Triple _ (updateChaosHub env chaosHub) _ _) world rfl
    rwa [hrun] at hends
  · intro err after hrun
    have hends := (triple_syncHub_fails hfound hlive : Triple _ (syncHub env hubID projectID) _ _) world rfl
    rwa [hrun] at hends

/-! ### A remote hub -/

def remoteHub : MyHub where
  id := "hub-1"
  projectID := "p1"
  repoURL := "https://example.com/hub.zip"
  repoBranch := ""
  hubName := "hub"
  isPrivate := false
  authType := .none
  hubType := .remote
  token := none
  userName := none
  password := none
  sshPrivateKey := none
  sshPublicKey := none
  isRemoved := false
  createdAt := "0"
  updatedAt := "0"
  lastSyncedAt := "0"

/-- The directory has one chart. -/
def remoteHubFiles : FileMap := fun path =>
  if path = ["tmp", "version", "p1", "hub", "chart.yaml"] then some (.file "kind: ChaosChart")
  else if path <+: ["tmp", "version", "p1", "hub"] then some .dir
  else none

def remoteHubWorld : World := ⟨⟨[remoteHub], List.pairwise_singleton _ _⟩, remoteHubFiles⟩

def unreachable (readFails : Bool) (write : WriteFault) : Env where
  now _ := 1
  uuid := "hub-2"
  readFails := readFails
  write := write
  removal := none
  clone := ⟨none, true, ⟨fun _ => none, false⟩, ⟨fun _ => none, false⟩⟩
  pull := ⟨false, true, true, ⟨fun _ => none, false⟩⟩
  download := ⟨false, none, "5000000", "", false, none, false⟩

def sameSettings : UpdateChaosHubRequest where
  id := "hub-1"
  projectID := "p1"
  hubName := "hub"
  repoURL := "https://example.com/hub.zip"
  repoBranch := ""
  isPrivate := false
  authType := .none
  token := none
  userName := none
  password := none
  sshPrivateKey := none
  sshPublicKey := none

theorem failedCalls_harmless_unread :
    ∃ err after, syncHub (unreachable true .none) "hub-1" "p1" remoteHubWorld = .error err after ∧
      after.hubs = remoteHubWorld.hubs ∧ SameUnder remoteHub.path remoteHubWorld.files after.files := by
  have hfound : findHub remoteHubWorld "hub-1" "p1" = some remoteHub := by decide
  refine ⟨_, _, rfl, ?_⟩
  have hfails := (failedCalls_harmless (unreachable true .none) hfound rfl).2 _ _ rfl
  exact ⟨hfails.hubs nofun, hfails.files fun hfetches => Bool.noConfusion hfetches.1⟩

/-- The server of the hub does not answer a sync, and the charts are gone. The answer to the write of an update is lost,
and the document is another. -/
theorem not_failedCalls_harmless :
    (∃ err after, syncHub (unreachable false .none) "hub-1" "p1" remoteHubWorld = .error err after ∧
        remoteHubWorld.files ["tmp", "version", "p1", "hub", "chart.yaml"] = some (.file "kind: ChaosChart") ∧
        after.files ["tmp", "version", "p1", "hub", "chart.yaml"] = none) ∧
      ∃ err after, updateChaosHub (unreachable false .unanswered) sameSettings remoteHubWorld = .error err after ∧
        after.hubs.docs ≠ remoteHubWorld.hubs.docs := by
  constructor
  · refine ⟨_, _, rfl, by decide, by decide +kernel⟩
  · refine ⟨_, _, rfl, by decide +kernel⟩

end LitmusPortal.MyHubs
