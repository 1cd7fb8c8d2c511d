import LitmusPortal.Lib.Transition
import LitmusPortal.MyHubs.Reach

/-!
# When the hubs of a project stay apart

Only a new hub is checked for its name. An update may take the name of another hub, with its directory, and a removed
hub can still be updated, synced and removed, in a directory that may belong to a new hub of its name by then. A
remote hub is unpacked into the directory of the project.
-/

namespace LitmusPortal.MyHubs

open DocumentStore FileTree Program Transition

/-! ## What a call reaches -/

def findHub (world : World) (hubID projectID : String) : Option MyHub :=
  world.hubs.docs.find? fun hub => hub.id = hubID && hub.projectID = projectID

def NameFree (world : World) (hubName projectID : String) : Prop :=
  ∀ hub ∈ liveHubs projectID world.hubs.docs, hub.hubName ≠ hubName

instance (world : World) (hubName projectID : String) : Decidable (NameFree world hubName projectID) :=
  inferInstanceAs (Decidable (∀ hub ∈ _, _))

def MyHub.path (hub : MyHub) : Path := clonePath hub.projectID hub.hubName

def UpdateChaosHubRequest.moves (chaosHub : UpdateChaosHubRequest) (prevMyHub : MyHub) : Prop :=
  prevMyHub.hubName ≠ chaosHub.hubName ∨ prevMyHub.repoURL ≠ chaosHub.repoURL

instance (chaosHub : UpdateChaosHubRequest) (prevMyHub : MyHub) : Decidable (chaosHub.moves prevMyHub) :=
  inferInstanceAs (Decidable (_ ∨ _))

/-- The directories that the call removes, clones into or pulls in. -/
def HubCall.dirs (call : HubCall) (world : World) : List Path :=
  match call.request with
  | .add chaosHub =>
      if NameFree world chaosHub.hubName chaosHub.projectID then [clonePath chaosHub.projectID chaosHub.hubName]
      else []
  | .addRemote _ | .save _ => []
  | .update chaosHub =>
      match findHub world chaosHub.id chaosHub.projectID with
      | none => []
      | some prevMyHub =>
          if prevMyHub.hubType = .remote then if chaosHub.moves prevMyHub then [prevMyHub.path] else []
          else [prevMyHub.path, clonePath chaosHub.projectID chaosHub.hubName]
  | .sync hubID projectID | .delete hubID projectID =>
      ((findHub world hubID projectID).map MyHub.path).toList

/-- The files that the call downloads. -/
def HubCall.files (call : HubCall) (world : World) : List Path :=
  match call.request with
  | .addRemote chaosHub =>
      if NameFree world chaosHub.hubName chaosHub.projectID then
        downloadFiles call.env.download chaosHub.projectID chaosHub.hubName
      else []
  | .update chaosHub =>
      match findHub world chaosHub.id chaosHub.projectID with
      | none => []
      | some prevMyHub =>
          if prevMyHub.hubType = .remote ∧ chaosHub.moves prevMyHub then
            downloadFiles call.env.download chaosHub.projectID chaosHub.hubName
          else []
  | .sync hubID projectID =>
      match findHub world hubID projectID with
      | none => []
      | some myhub =>
          if myhub.hubType = .remote then downloadFiles call.env.download myhub.projectID myhub.hubName else []
  | .add _ | .save _ | .delete _ _ => []

def Reaches (dirs files : List Path) (path : Path) : Prop :=
  (∃ dir ∈ dirs, Overlap dir path) ∨ ∃ file ∈ files, path <+: file

/-- The call reaches no directory of another live hub, and an update does not take the name of one. -/
structure HubCall.IsSafe (call : HubCall) (world : World) : Prop where
  apart : ∀ hub ∈ world.hubs.docs, hub.isRemoved = false → hub.id ≠ call.hubID →
    (∀ dir ∈ call.dirs world, ¬ Overlap dir hub.path) ∧ ∀ file ∈ call.files world, ¬ hub.path <+: file
  renames : ∀ chaosHub, call.request = .update chaosHub → ∀ prevMyHub,
    findHub world chaosHub.id chaosHub.projectID = some prevMyHub → prevMyHub.isRemoved = false →
    ∀ hub ∈ liveHubs chaosHub.projectID world.hubs.docs, hub.id ≠ chaosHub.id → hub.hubName ≠ chaosHub.hubName

theorem not_reaches {dirs files : List Path} {p path : Path} (hdirs : ∀ dir ∈ dirs, ¬ Overlap dir p)
    (hfiles : ∀ file ∈ files, ¬ p <+: file) (h : Reaches dirs files path) : ¬ p <+: path := by
  intro hp
  rcases h with ⟨dir, hdir, hdirPath | hpathDir⟩ | ⟨file, hfile, hpath⟩
  · exact hdirs dir hdir (overlap_of_both hdirPath hp)
  · exact hdirs dir hdir (.inr (hp.trans hpathDir))
  · exact hfiles file hfile (hp.trans hpath)

/-! ## The steps on the database -/

variable {world : World} {env : Env}

theorem triple_readHubs {α : Type} {fails : Bool} {find : List MyHub → α} :
    Triple (fun w => w = world) (readHubs fails find) (fun a w => a = find world.hubs.docs ∧ w = world)
      (fun w => w = world) := by
  refine Triple.bind Triple.get fun w => ?_
  rintro _ ⟨rfl, rfl⟩
  cases fails with
  | false => exact ⟨rfl, rfl⟩
  | true => exact rfl

theorem triple_getHubByID {fails : Bool} {hubID projectID : String} :
    Triple (fun w => w = world) (getHubByID fails hubID projectID)
      (fun hub w => findHub world hubID projectID = some hub ∧ w = world) (fun w => w = world) := by
  refine Triple.bind triple_readHubs fun found => ?_
  cases found with
  | none => exact Triple.throw fun _ h => h.2
  | some hub => exact Triple.pure fun _ h => ⟨h.1.symm, h.2⟩

theorem triple_writeHubs {region : Path → Prop} {hubs : Documents MyHub.id} {files : FileMap} {fault : WriteFault}
    {change : Documents MyHub.id → Documents MyHub.id} :
    Triple (Confined region hubs files) (writeHubs fault change) (fun _ => Confined region (change hubs) files)
      (fun w => Confined region hubs files w ∨ Confined region (change hubs) files w) := by
  cases fault with
  | none => exact Triple.modify fun w hw => ⟨congrArg change hw.hubs, hw.files⟩
  | fails => exact Triple.throw fun _ => .inl
  | unanswered =>
      refine Triple.bind (@Triple.modify _ _ _ _ _ (fun _ => Confined region (change hubs) files)
        fun w hw => ⟨congrArg change hw.hubs, hw.files⟩) fun _ => ?_
      exact Triple.throw fun _ => .inr

theorem triple_updateMyHub {region : Path → Prop} {hubs : Documents MyHub.id} {files : FileMap} {fault : WriteFault}
    {query : MyHub → Bool} {update : Change MyHub.id} :
    Triple (Confined region hubs files) (updateMyHub fault query update)
      (fun _ => Confined region (hubs.update query update) files)
      (fun w => Confined region hubs files w ∨ Confined region (hubs.update query update) files w) := by
  refine Triple.bind Triple.get fun w => ?_
  refine Triple.bind (triple_writeHubs.mono (fun _ hs => hs.2) (fun _ _ hs => hs) fun _ hs => hs) fun _ => ?_
  exact Triple.ite (fun _ => Triple.pure fun _ hs => hs) fun _ => Triple.throw fun _ => .inr

theorem triple_insertHub {newHub : MyHub} {region : Path → Prop} :
    Triple (fun w => w = world) (insertHub env newHub)
      (fun _ w => NameFree world newHub.hubName newHub.projectID ∧
        Confined region (world.hubs.add newHub) world.files w)
      (fun w => Confined region world.hubs world.files w ∨
        NameFree world newHub.hubName newHub.projectID ∧ Confined region (world.hubs.add newHub) world.files w) := by
  have hsame : ∀ w, w = world → Confined region world.hubs world.files w := by
    rintro w rfl
    exact ⟨rfl, ChangedOnly.refl _ _⟩
  have hread : Triple (fun w => w = world) (isMyHubAvailable env newHub.hubName newHub.projectID)
      (fun taken w => (taken = false → NameFree world newHub.hubName newHub.projectID) ∧ w = world)
      (fun w => w = world) := by
    refine Triple.bind triple_readHubs fun myhubs => Triple.pure fun w hw => ⟨fun hfree => ?_, hw.2⟩
    intro hub hhub
    rw [hw.1] at hfree
    have hname := List.any_eq_false.mp hfree hub hhub
    simpa using hname
  refine Triple.bind (hread.mono (fun _ hs => hs) (fun _ _ hs => hs) fun w hs => .inl (hsame w hs)) fun taken => ?_
  refine Triple.ite (fun _ => Triple.throw fun w hs => .inl (hsame w hs.2)) fun htaken => ?_
  refine Triple.of_and fun hfree => ?_
  have hfree := hfree (by simpa using htaken)
  refine (@triple_writeHubs region _ _ _ _).mono hsame (fun _ _ hs => ⟨hfree, hs⟩) fun w hs => ?_
  exact hs.imp_right fun hs => ⟨hfree, hs⟩

/-! ## What a call leaves -/

/-- The documents after the call. -/
def HubCall.Changes (call : HubCall) (world : World) (hubs : Documents MyHub.id) : Prop :=
  hubs = world.hubs ∨
    match call.request with
    | .add chaosHub => NameFree world chaosHub.hubName chaosHub.projectID ∧
        hubs = world.hubs.add (newGitHub call.env .git chaosHub)
    | .addRemote chaosHub => NameFree world chaosHub.hubName chaosHub.projectID ∧
        hubs = world.hubs.add (newRemoteHub call.env chaosHub)
    | .save chaosHub => NameFree world chaosHub.hubName chaosHub.projectID ∧
        hubs = world.hubs.add (newGitHub call.env .unset chaosHub)
    | .update chaosHub => (findHub world chaosHub.id chaosHub.projectID).isSome = true ∧
        ∃ time, hubs = world.hubs.update (liveByID chaosHub.id) (setHub chaosHub time)
    | .sync hubID _ => ∃ time, hubs = world.hubs.update (liveByID hubID) (setSynced time)
    | .delete hubID projectID => ∃ time, hubs =
        world.hubs.update (fun hub => hub.id = hubID && hub.projectID = projectID) (setRemovedHub time)

def HubCall.region (call : HubCall) (world : World) : Path → Prop := Reaches (call.dirs world) (call.files world)

def HubCall.Leaves (call : HubCall) (world after : World) : Prop :=
  ∃ hubs, call.Changes world hubs ∧ Confined (call.region world) hubs world.files after

theorem confined_self (region : Path → Prop) : Confined region world.hubs world.files world :=
  ⟨rfl, ChangedOnly.refl _ _⟩

theorem leaves_self {call : HubCall} {w : World} (h : w = world) : call.Leaves world w :=
  ⟨world.hubs, .inl rfl, h ▸ confined_self _⟩

/-- A step on the disk, after which the documents are what they were before. -/
theorem triple_bind_disk {α β : Type} {call : HubCall} {region : Path → Prop} {step : Call α} {rest : α → Call β}
    {hubs : Documents MyHub.id} {post : β → World → Prop} (hstep : StaysIn region step)
    (hregion : ∀ path, region path → call.region world path) (hhubs : call.Changes world hubs)
    (hrest : ∀ a, Triple (Confined (call.region world) hubs world.files) (rest a) post (call.Leaves world)) :
    Triple (Confined (call.region world) hubs world.files) (step >>= rest) post (call.Leaves world) := by
  refine Triple.bind (((hstep.mono hregion) hubs world.files).mono (fun _ hs => hs) (fun _ _ hs => hs)
    fun w hs => ⟨hubs, hhubs, hs⟩) hrest

theorem triple_afterInsert {α : Type} {call : HubCall} {newHub : MyHub} {rest : Call α}
    (hhubs : NameFree world newHub.hubName newHub.projectID → call.Changes world (world.hubs.add newHub))
    (hrest : NameFree world newHub.hubName newHub.projectID →
      Triple (Confined (call.region world) (world.hubs.add newHub) world.files) rest
        (fun _ => call.Leaves world) (call.Leaves world)) :
    Triple (fun w => w = world) (insertHub call.env newHub >>= fun _ => rest) (fun _ => call.Leaves world)
      (call.Leaves world) := by
  refine Triple.bind (triple_insertHub.mono (fun _ hs => hs) (fun _ _ hs => hs) fun w hs => ?_)
    fun _ => Triple.of_and hrest
  rcases hs with hsame | ⟨hfree, hadded⟩
  · exact ⟨world.hubs, .inl rfl, hsame⟩
  · exact ⟨_, hhubs hfree, hadded⟩

theorem triple_addChaosHub {chaosHub : CreateChaosHubRequest} :
    Triple (fun w => w = world) (addChaosHub env chaosHub) (fun _ => HubCall.Leaves ⟨env, .add chaosHub⟩ world)
      (HubCall.Leaves ⟨env, .add chaosHub⟩ world) := by
  refine @triple_afterInsert world _ ⟨env, .add chaosHub⟩ _ _ (fun hfree => .inr ⟨hfree, rfl⟩) fun hfree => ?_
  have hdirs : HubCall.dirs ⟨env, .add chaosHub⟩ world = [clonePath chaosHub.projectID chaosHub.hubName] :=
    if_pos hfree
  refine triple_bind_disk (staysIn_gitClone env.clone chaosHub.cloningInput).logged (fun path hpath => .inl ?_)
    (.inr ⟨hfree, rfl⟩) fun _ => Triple.pure fun w hs => ⟨_, .inr ⟨hfree, rfl⟩, hs⟩
  rw [hdirs]
  exact ⟨_, List.mem_singleton_self _, hpath⟩

theorem triple_addRemoteMyHub {chaosHub : CreateRemoteMyHub} :
    Triple (fun w => w = world) (addRemoteMyHub env chaosHub)
      (fun _ => HubCall.Leaves ⟨env, .addRemote chaosHub⟩ world)
      (HubCall.Leaves ⟨env, .addRemote chaosHub⟩ world) := by
  refine @triple_afterInsert world _ ⟨env, .addRemote chaosHub⟩ _ _ (fun hfree => .inr ⟨hfree, rfl⟩) fun hfree => ?_
  have hfiles : HubCall.files ⟨env, .addRemote chaosHub⟩ world =
      downloadFiles env.download chaosHub.projectID chaosHub.hubName := if_pos hfree
  refine triple_bind_disk (staysIn_downloadRemoteHub env.download chaosHub).mapError (fun path hpath => .inr ?_)
    (.inr ⟨hfree, rfl⟩) fun _ => Triple.pure fun w hs => ⟨_, .inr ⟨hfree, rfl⟩, hs⟩
  rw [hfiles]
  exact hpath

theorem triple_saveChaosHub {chaosHub : CreateChaosHubRequest} :
    Triple (fun w => w = world) (saveChaosHub env chaosHub) (fun _ => HubCall.Leaves ⟨env, .save chaosHub⟩ world)
      (HubCall.Leaves ⟨env, .save chaosHub⟩ world) :=
  @triple_afterInsert world _ ⟨env, .save chaosHub⟩ _ _ (fun hfree => .inr ⟨hfree, rfl⟩) fun hfree =>
    Triple.pure fun _ hs => ⟨_, .inr ⟨hfree, rfl⟩, hs⟩

theorem triple_afterFind {α : Type} {call : HubCall} {hubID projectID : String} {rest : MyHub → Call α}
    (hrest : ∀ hub, findHub world hubID projectID = some hub →
      Triple (Confined (call.region world) world.hubs world.files) (rest hub) (fun _ => call.Leaves world)
        (call.Leaves world)) :
    Triple (fun w => w = world) (getHubByID call.env.readFails hubID projectID >>= rest)
      (fun _ => call.Leaves world) (call.Leaves world) := by
  refine Triple.bind (triple_getHubByID.mono (fun _ hs => hs) (fun _ _ hs => hs) fun w hs => leaves_self hs)
    fun hub => Triple.of_and fun hfound => ?_
  refine (hrest hub hfound).mono (fun w hs => ?_) (fun _ _ hs => hs) fun _ hs => hs
  exact hs ▸ confined_self _

theorem triple_bind_update {α : Type} {call : HubCall} {fault : WriteFault} {query : MyHub → Bool}
    {update : Change MyHub.id} {rest : Unit → Call α} {post : α → World → Prop}
    (hhubs : call.Changes world (world.hubs.update query update))
    (hrest : ∀ a, Triple (Confined (call.region world) (world.hubs.update query update) world.files) (rest a) post
      (call.Leaves world)) :
    Triple (Confined (call.region world) world.hubs world.files) (updateMyHub fault query update >>= rest) post
      (call.Leaves world) := by
  refine Triple.bind (triple_updateMyHub.mono (fun _ hs => hs) (fun _ _ hs => hs) fun w hs => ?_) hrest
  rcases hs with hsame | hchanged
  · exact ⟨world.hubs, .inl rfl, hsame⟩
  · exact ⟨_, hhubs, hchanged⟩

theorem staysIn_moveHub {prevMyHub : MyHub} {chaosHub : UpdateChaosHubRequest}
    (hfound : findHub world chaosHub.id chaosHub.projectID = some prevMyHub) :
    StaysIn (HubCall.region ⟨env, .update chaosHub⟩ world) (moveHub env prevMyHub chaosHub) := by
  have hdirs : HubCall.dirs ⟨env, .update chaosHub⟩ world =
      if prevMyHub.hubType = .remote then if chaosHub.moves prevMyHub then [prevMyHub.path] else []
      else [prevMyHub.path, clonePath chaosHub.projectID chaosHub.hubName] := by
    simp only [HubCall.dirs, hfound]
  have hfiles : HubCall.files ⟨env, .update chaosHub⟩ world =
      if prevMyHub.hubType = .remote ∧ chaosHub.moves prevMyHub then
        downloadFiles env.download chaosHub.projectID chaosHub.hubName
      else [] := by
    simp only [HubCall.files, hfound]
  unfold HubCall.region
  rw [hdirs, hfiles]
  by_cases hremote : prevMyHub.hubType = .remote
  · by_cases hmoves : chaosHub.moves prevMyHub
    · have hmove : moveHub env prevMyHub chaosHub = (do
          removeDir env.removal (clonePath prevMyHub.projectID prevMyHub.hubName)
          downloadRemoteHub env.download ⟨chaosHub.hubName, chaosHub.repoURL, chaosHub.projectID⟩) := by
        rw [moveHub, hremote]
        exact if_pos hmoves
      rw [hmove, if_pos hremote, if_pos hmoves, if_pos ⟨hremote, hmoves⟩]
      refine ((staysIn_removeDir _ _).mono fun path hpath => ?_).bind fun _ =>
        (staysIn_downloadRemoteHub _ _).mono fun path hpath => .inr hpath
      exact .inl ⟨_, List.mem_singleton_self _, .inl hpath⟩
    · have hmove : moveHub env prevMyHub chaosHub = Pure.pure () := by
        rw [moveHub, hremote]
        exact if_neg hmoves
      rw [hmove]
      exact StaysIn.pure _
  · have hmove : moveHub env prevMyHub chaosHub = moveGitHub env prevMyHub chaosHub := by
      rw [moveHub]
      cases htype : prevMyHub.hubType with
      | remote => exact absurd htype hremote
      | git => rfl
      | unset => rfl
    rw [hmove, if_neg hremote]
    have hnew : ∀ path, Overlap (clonePath chaosHub.projectID chaosHub.hubName) path →
        Reaches [prevMyHub.path, clonePath chaosHub.projectID chaosHub.hubName]
          (if prevMyHub.hubType = .remote ∧ chaosHub.moves prevMyHub then
            downloadFiles env.download chaosHub.projectID chaosHub.hubName else []) path :=
      fun path hpath => .inl ⟨_, List.mem_cons_of_mem _ (List.mem_singleton_self _), hpath⟩
    refine StaysIn.ite (((staysIn_removeDir _ _).mono fun path hpath => ?_).bind fun _ =>
      (staysIn_gitClone _ _).mono hnew) ((staysIn_gitSyncHandlerForProjects _ _ _).mono hnew)
    exact .inl ⟨_, List.mem_cons_self, .inl hpath⟩

theorem triple_updateChaosHub {chaosHub : UpdateChaosHubRequest} :
    Triple (fun w => w = world) (updateChaosHub env chaosHub)
      (fun _ => HubCall.Leaves ⟨env, .update chaosHub⟩ world) (HubCall.Leaves ⟨env, .update chaosHub⟩ world) := by
  refine @triple_afterFind world _ ⟨env, .update chaosHub⟩ _ _ _ fun prevMyHub hfound => ?_
  refine triple_bind_disk (staysIn_moveHub hfound) (fun _ hpath => hpath) (.inl rfl) fun _ => ?_
  have hhubs : HubCall.Changes ⟨env, .update chaosHub⟩ world
      (world.hubs.update (liveByID chaosHub.id) (setHub chaosHub (formatTime (env.now 0)))) :=
    .inr ⟨by rw [hfound]; rfl, _, rfl⟩
  exact triple_bind_update hhubs fun _ => Triple.pure fun w hs => ⟨_, hhubs, hs⟩

theorem staysIn_syncFiles {myhub : MyHub} {hubID projectID : String}
    (hfound : findHub world hubID projectID = some myhub) :
    StaysIn (HubCall.region ⟨env, .sync hubID projectID⟩ world) (syncFiles env myhub) := by
  have hdirs : HubCall.dirs ⟨env, .sync hubID projectID⟩ world = [myhub.path] := by
    simp only [HubCall.dirs, hfound, Option.map_some, Option.toList_some]
  have hfiles : HubCall.files ⟨env, .sync hubID projectID⟩ world =
      if myhub.hubType = .remote then downloadFiles env.download myhub.projectID myhub.hubName else [] := by
    simp only [HubCall.files, hfound]
  unfold HubCall.region
  rw [hdirs, hfiles, syncFiles]
  have hgit : ∀ files, StaysIn (Reaches [myhub.path] files)
      (gitSyncHandlerForProjects env.clone env.pull myhub.cloningInput) := fun files =>
    (staysIn_gitSyncHandlerForProjects _ _ _).mono fun path hpath => .inl ⟨_, List.mem_singleton_self _, hpath⟩
  cases htype : myhub.hubType with
  | git => exact hgit _
  | unset => exact hgit _
  | remote =>
      refine (staysIn_syncRemoteRepo _ _ _).mono fun path hpath => ?_
      exact hpath.imp (fun hdir => ⟨_, List.mem_singleton_self _, .inl hdir⟩) fun hfile => hfile

theorem triple_syncHub {hubID projectID : String} :
    Triple (fun w => w = world) (syncHub env hubID projectID)
      (fun _ => HubCall.Leaves ⟨env, .sync hubID projectID⟩ world)
      (HubCall.Leaves ⟨env, .sync hubID projectID⟩ world) := by
  refine @triple_afterFind world _ ⟨env, .sync hubID projectID⟩ _ _ _ fun myhub hfound => ?_
  refine triple_bind_disk (staysIn_syncFiles hfound) (fun _ hpath => hpath) (.inl rfl) fun _ => ?_
  exact triple_bind_update (.inr ⟨_, rfl⟩) fun _ => Triple.pure fun w hs => ⟨_, .inr ⟨_, rfl⟩, hs⟩

theorem triple_deleteChaosHub {hubID projectID : String} :
    Triple (fun w => w = world) (deleteChaosHub env hubID projectID)
      (fun _ => HubCall.Leaves ⟨env, .delete hubID projectID⟩ world)
      (HubCall.Leaves ⟨env, .delete hubID projectID⟩ world) := by
  refine @triple_afterFind world _ ⟨env, .delete hubID projectID⟩ _ _ _ fun myHub hfound => ?_
  have hproject : myHub.projectID = projectID := by
    have hmatch := List.find?_some hfound
    simp only [Bool.and_eq_true, decide_eq_true_eq] at hmatch
    exact hmatch.2
  refine triple_bind_update (.inr ⟨_, rfl⟩) fun _ => ?_
  refine triple_bind_disk (staysIn_removeDir _ _) (fun path hpath => .inl ⟨myHub.path, ?_, .inl ?_⟩)
    (.inr ⟨_, rfl⟩) fun _ => Triple.pure fun w hs => ⟨_, .inr ⟨_, rfl⟩, hs⟩
  · simp only [HubCall.dirs, hfound, Option.map_some, Option.toList_some, List.mem_singleton]
  · rw [MyHub.path, hproject]
    exact hpath

theorem leaves_apply (call : HubCall) (world : World) : call.Leaves world (call.apply world) := by
  have hafter : ∀ {α : Type} {program : Call α}, Triple (fun w => w = world) program
      (fun _ => call.Leaves world) (call.Leaves world) → call.Leaves world (worldAfter (program world)) := by
    intro α program h
    have hends := h world rfl
    cases hrun : program world with
    | ok _ _ =>
        rw [hrun] at hends
        exact hends
    | error _ _ =>
        rw [hrun] at hends
        exact hends
  obtain ⟨env, request⟩ := call
  cases request with
  | add chaosHub => exact hafter triple_addChaosHub
  | addRemote chaosHub => exact hafter triple_addRemoteMyHub
  | save chaosHub => exact hafter triple_saveChaosHub
  | update chaosHub => exact hafter triple_updateChaosHub
  | sync hubID projectID => exact hafter triple_syncHub
  | delete hubID projectID => exact hafter triple_deleteChaosHub

/-! ## Directories -/

/-- A call that reaches no directory of another live hub leaves them all. -/
theorem HubCall.IsSafe.spares {call : HubCall} (h : call.IsSafe world) : call.Spares world := by
  intro hub hhub hlive hid
  obtain ⟨hubs, -, hconfined⟩ := leaves_apply call world
  obtain ⟨hdirs, hfiles⟩ := h.apart hub hhub hlive hid
  exact hconfined.files.sameUnder fun path hpath => not_reaches hdirs hfiles hpath

/-! ## Names -/

/-- Two live hubs of one project with one name. -/
structure Clash (hub other : MyHub) : Prop where
  project : hub.projectID = other.projectID
  name : hub.hubName = other.hubName
  live : hub.isRemoved = false
  live' : other.isRemoved = false

instance (hub other : MyHub) : Decidable (Clash hub other) :=
  decidable_of_iff (hub.projectID = other.projectID ∧ hub.hubName = other.hubName ∧ hub.isRemoved = false ∧
      other.isRemoved = false)
    ⟨fun ⟨h₁, h₂, h₃, h₄⟩ => ⟨h₁, h₂, h₃, h₄⟩, fun h => ⟨h.1, h.2, h.3, h.4⟩⟩

theorem Clash.symm {hub other : MyHub} (h : Clash hub other) : Clash other hub :=
  ⟨h.project.symm, h.name.symm, h.live', h.live⟩

theorem distinctNames_iff : DistinctNames world ↔ world.hubs.docs.Pairwise fun hub other => ¬ Clash hub other := by
  have hpairs : ∀ projectID, ((liveHubs projectID world.hubs.docs).map MyHub.hubName).Nodup ↔
      world.hubs.docs.Pairwise fun hub other => hub.projectID = projectID ∧ hub.isRemoved = false →
        other.projectID = projectID ∧ other.isRemoved = false → hub.hubName ≠ other.hubName := by
    intro projectID
    rw [List.Nodup, List.pairwise_map, liveHubs, List.pairwise_filter]
    simp only [Bool.and_eq_true, decide_eq_true_eq, Bool.not_eq_true']
  constructor
  · intro h
    rw [List.pairwise_iff_getElem]
    intro i j hi hj hij hclash
    have hpair := List.pairwise_iff_getElem.mp ((hpairs _).mp (h world.hubs.docs[j].projectID)) i j hi hj hij
    exact hpair ⟨hclash.project, hclash.live⟩ ⟨rfl, hclash.live'⟩ hclash.name
  · intro h projectID
    refine (hpairs projectID).mpr (h.imp fun hnot hhub hother hname => hnot ?_)
    exact ⟨hhub.1.trans hother.1.symm, hname, hhub.2, hother.2⟩

variable {world' : World}

theorem DistinctNames.add (h : DistinctNames world) {newHub : MyHub}
    (hfree : NameFree world newHub.hubName newHub.projectID) (hhubs : world'.hubs = world.hubs.add newHub) :
    DistinctNames world' := by
  rw [distinctNames_iff] at h ⊢
  rw [hhubs]
  rcases Documents.docs_add world.hubs newHub with hdocs | hdocs
  · rwa [hdocs]
  · rw [hdocs, List.pairwise_append]
    refine ⟨h, List.pairwise_singleton _ _, fun hub hhub other hother hclash => ?_⟩
    obtain rfl := List.mem_singleton.mp hother
    refine hfree hub (List.mem_filter.mpr ⟨hhub, ?_⟩) hclash.name
    simp [hclash.project, hclash.live]

theorem DistinctNames.update (h : DistinctNames world) {query : MyHub → Bool} {change : Change MyHub.id} (id : String)
    (hquery : ∀ hub, query hub = true → hub.id = id)
    (hchange : ∀ hub ∈ world.hubs.docs, query hub = true → ∀ other ∈ world.hubs.docs, other.id ≠ id →
      ¬ Clash hub other → ¬ Clash (change.val hub) other)
    (hhubs : world'.hubs = world.hubs.update query change) : DistinctNames world' := by
  rw [distinctNames_iff] at h ⊢
  rw [hhubs, Documents.docs_update id hquery, List.pairwise_map]
  have hids := List.pairwise_map.mp world.hubs.unique
  refine (hids.and h).imp_of_mem fun {hub other} hhub hother hpair => ?_
  obtain ⟨hne, hnot⟩ := hpair
  by_cases hmatch : query hub = true
  · have hother' : query other = false := by
      by_contra hquery'
      exact hne ((hquery hub hmatch).trans (hquery other (by simpa using hquery')).symm)
    rw [if_pos hmatch, if_neg (by simp [hother'])]
    exact hchange hub hhub hmatch other hother (fun hid => hne ((hquery hub hmatch).trans hid.symm)) hnot
  · rw [if_neg hmatch]
    by_cases hmatch' : query other = true
    · rw [if_pos hmatch']
      have hnot' : ¬ Clash other hub := fun hclash => hnot hclash.symm
      intro hclash
      exact hchange other hother hmatch' hub hhub (fun hid => hne (hid.trans (hquery other hmatch').symm)) hnot'
        hclash.symm
    · rw [if_neg hmatch']
      exact hnot

theorem eq_of_liveByID {hubID : String} (hub : MyHub) (h : liveByID hubID hub = true) :
    hub.id = hubID ∧ hub.isRemoved = false := by
  simpa [liveByID] using h

/-- A call keeps the names apart, unless it gives a hub the name of another one. -/
theorem DistinctNames.apply {call : HubCall} (h : DistinctNames world) (hsafe : call.IsSafe world) :
    DistinctNames (call.apply world) := by
  obtain ⟨hubs, hchanges, hconfined⟩ := leaves_apply call world
  have hhubs := hconfined.hubs
  rcases hchanges with rfl | hchanges
  · have hsame : ∀ projectID, liveHubs projectID (call.apply world).hubs.docs =
        liveHubs projectID world.hubs.docs := fun projectID => by rw [hhubs]
    intro projectID
    rw [hsame projectID]
    exact h projectID
  · obtain ⟨env, request⟩ := call
    cases request with
    | add chaosHub =>
        obtain ⟨hfree, rfl⟩ := hchanges
        exact h.add hfree hhubs
    | addRemote chaosHub =>
        obtain ⟨hfree, rfl⟩ := hchanges
        exact h.add hfree hhubs
    | save chaosHub =>
        obtain ⟨hfree, rfl⟩ := hchanges
        exact h.add hfree hhubs
    | update chaosHub =>
        obtain ⟨hfound, time, rfl⟩ := hchanges
        refine h.update chaosHub.id (fun hub hmatch => (eq_of_liveByID hub hmatch).1)
          (fun hub hhub hmatch other hother hid _ => ?_)
          hhubs
        obtain ⟨prevMyHub, hprev⟩ := Option.isSome_iff_exists.mp hfound
        have hprevMatch := List.find?_some hprev
        simp only [Bool.and_eq_true, decide_eq_true_eq] at hprevMatch
        obtain ⟨hhubID, hlive⟩ := eq_of_liveByID hub hmatch
        obtain rfl : hub = prevMyHub :=
          world.hubs.eq_of_key hhub (List.mem_of_find?_eq_some hprev) (hhubID.trans hprevMatch.1.symm)
        intro hclash
        refine hsafe.renames chaosHub rfl hub hprev hlive other (List.mem_filter.mpr ⟨hother, ?_⟩) hid
          hclash.name.symm
        have hproject : other.projectID = chaosHub.projectID := hclash.project.symm.trans hprevMatch.2
        have hother' : other.isRemoved = false := hclash.live'
        simp [hproject, hother']
    | sync hubID projectID =>
        obtain ⟨time, rfl⟩ := hchanges
        refine h.update hubID (fun hub hmatch => (eq_of_liveByID hub hmatch).1)
          (fun hub _ _ other _ _ hnot hclash => ?_) hhubs
        exact hnot ⟨hclash.project, hclash.name, hclash.live, hclash.live'⟩
    | delete hubID projectID =>
        obtain ⟨time, rfl⟩ := hchanges
        refine h.update hubID (fun hub hmatch => ?_) (fun hub _ _ other _ _ _ hclash => ?_) hhubs
        · simp only [Bool.and_eq_true, decide_eq_true_eq] at hmatch
          exact hmatch.1
        · exact absurd hclash.live Bool.true_eq_false_eq_False

/-- The hubs are kept apart in every run whose calls are all safe where they are made. -/
theorem hubsAreKept_of_safe (world : World) (calls : List HubCall) (h : DistinctNames world)
    (hsafe : ∀ front call rest, calls = front ++ call :: rest → call.IsSafe (front.foldl HubCall.apply world)) :
    HubsAreKept world calls := by
  intro front back hcalls
  refine ⟨foldl_invariant (fun world call hnames hcall => hnames.apply hcall) h hsafe front back hcalls, ?_⟩
  rintro call rest rfl
  exact (hsafe front call rest hcalls).spares

/-! ### Plain names

Where all live hubs are of one project and their names are single components of a path, a new hub and the removal of
a live one are always safe. -/

def PlainHubs (projectID : String) (world : World) : Prop :=
  ∀ hub ∈ world.hubs.docs, hub.isRemoved = false → hub.projectID = projectID ∧ IsPlain hub.hubName

theorem not_overlap_of_plain {projectID hubName hubName' : String} (h : IsPlain hubName) (h' : IsPlain hubName')
    (hne : hubName ≠ hubName') : ¬ Overlap (clonePath projectID hubName) (clonePath projectID hubName') :=
  fun hoverlap => hne ((overlap_plain_iff h h').mp hoverlap)

theorem isSafe_add {chaosHub : CreateChaosHubRequest} (hplain : IsPlain chaosHub.hubName)
    (hhubs : PlainHubs chaosHub.projectID world) : HubCall.IsSafe ⟨env, .add chaosHub⟩ world := by
  constructor
  · intro hub hhub hlive _
    obtain ⟨hproject, hname⟩ := hhubs hub hhub hlive
    refine ⟨fun dir hdir => ?_, fun file hfile => by cases hfile⟩
    unfold HubCall.dirs at hdir
    by_cases hfree : NameFree world chaosHub.hubName chaosHub.projectID
    · obtain rfl : dir = clonePath chaosHub.projectID chaosHub.hubName := by simpa [hfree] using hdir
      rw [MyHub.path, hproject]
      refine not_overlap_of_plain hplain hname (Ne.symm (hfree hub (List.mem_filter.mpr ⟨hhub, ?_⟩)))
      simp [hproject, hlive]
    · simp [hfree] at hdir
  · intro chaosHub' hrequest
    cases hrequest

theorem isSafe_delete {hubID projectID : String} {hub : MyHub} (hnames : DistinctNames world)
    (hhubs : PlainHubs projectID world) (hfound : findHub world hubID projectID = some hub)
    (hlive : hub.isRemoved = false) : HubCall.IsSafe ⟨env, .delete hubID projectID⟩ world := by
  have hhub := List.mem_of_find?_eq_some hfound
  have hmatch := List.find?_some hfound
  simp only [Bool.and_eq_true, decide_eq_true_eq] at hmatch
  constructor
  · intro other hother hlive' hid
    refine ⟨fun dir hdir => ?_, fun file hfile => by cases hfile⟩
    obtain rfl : dir = hub.path := by simpa [HubCall.dirs, hfound] using hdir
    obtain ⟨hproject, hplain⟩ := hhubs hub hhub hlive
    obtain ⟨hproject', hplain'⟩ := hhubs other hother hlive'
    rw [MyHub.path, MyHub.path, hproject, hproject']
    refine not_overlap_of_plain hplain hplain' fun hname => ?_
    have heq : hub = other := List.inj_on_of_nodup_map (hnames projectID)
      (List.mem_filter.mpr ⟨hhub, by simp [hproject, hlive]⟩)
      (List.mem_filter.mpr ⟨hother, by simp [hproject', hlive']⟩) hname
    exact hid (heq ▸ hmatch.1)
  · intro chaosHub hrequest
    cases hrequest

/-! ### A hub that takes the name of another one -/

def calmEnv : Env where
  now _ := 0
  uuid := "hub-3"
  readFails := false
  write := .none
  removal := none
  clone := ⟨none, true, ⟨fun _ => none, true⟩, ⟨fun _ => none, true⟩⟩
  pull := ⟨false, true, true, ⟨fun _ => none, true⟩⟩
  download := ⟨false, none, "5000000", "", false, none, false⟩

def hubRequest (hubName : String) : CreateChaosHubRequest :=
  { hubName := hubName
    repoURL := "https://github.com/litmuschaos/chaos-charts"
    repoBranch := "master"
    isPrivate := false
    authType := .none
    token := none
    userName := none
    password := none
    sshPrivateKey := none
    sshPublicKey := none
    projectID := "project" }

def twoHubs : World where
  hubs := ⟨[newGitHub { calmEnv with uuid := "hub-1" } .git (hubRequest "first"),
    newGitHub { calmEnv with uuid := "hub-2" } .git (hubRequest "second")], by decide⟩
  files path :=
    if path ∈ [["tmp", "version", "project", "first"], ["tmp", "version", "project", "second"]] then some .dir
    else none

def renameHub (hubName : String) : HubCall := ⟨calmEnv, .update { hubRequest hubName with id := "hub-1" }⟩

theorem distinctNames_twoHubs : DistinctNames twoHubs := distinctNames_iff.mpr (by decide +kernel)

/-- After the update both hubs have the name, and the directory is that of the first one. -/
theorem not_alwaysKept : ¬ ∀ world calls, DistinctNames world → HubsAreKept world calls := by
  intro h
  have hnames := (h twoHubs [renameHub "second"] distinctNames_twoHubs [renameHub "second"] [] rfl).1 "project"
  exact absurd hnames (by decide +kernel)

theorem hubsAreKept_renamed : HubsAreKept twoHubs [renameHub "third"] := by
  apply hubsAreKept_of_safe twoHubs [renameHub "third"] distinctNames_twoHubs
  intro front call rest hcalls
  obtain rfl : front = [] := by
    cases front with
    | nil => rfl
    | cons first front =>
        have hlength := congrArg List.length hcalls
        simp at hlength
  obtain rfl : renameHub "third" = call := (List.cons.inj hcalls).1
  constructor
  · change ∀ hub ∈ twoHubs.hubs.docs, hub.isRemoved = false → hub.id ≠ "hub-1" →
      (∀ dir ∈ (renameHub "third").dirs twoHubs, ¬ Overlap dir hub.path) ∧
        ∀ file ∈ (renameHub "third").files twoHubs, ¬ hub.path <+: file
    decide +kernel
  · intro chaosHub hrequest prevMyHub _ _
    obtain rfl := Request.update.inj hrequest
    change ∀ hub ∈ liveHubs "project" twoHubs.hubs.docs, hub.id ≠ "hub-1" → hub.hubName ≠ "third"
    decide +kernel

end LitmusPortal.MyHubs
