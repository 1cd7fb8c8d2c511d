import LitmusPortal.MyHubs.Handler

/-!
# What an operation on a hub can reach

The steps on the disk leave the database, and change no path outside of their region: a clone that of the directory, a
download the archive and the places of its items.
-/

namespace LitmusPortal.MyHubs

open DocumentStore FileTree Program

variable {α β : Type} {region region' : Path → Prop}

/-- The hubs are these, and the files are these outside of the region. -/
structure Confined (region : Path → Prop) (hubs : Documents MyHub.id) (files : FileMap) (world : World) : Prop where
  hubs : world.hubs = hubs
  files : ChangedOnly region files world.files

def StaysIn (region : Path → Prop) (call : Call α) : Prop :=
  ∀ hubs files, Triple (Confined region hubs files) call (fun _ => Confined region hubs files)
    (Confined region hubs files)

namespace StaysIn

theorem pure (a : α) : StaysIn region (Pure.pure a : Call α) := fun _ _ => Triple.pure fun _ h => h

theorem throw (err : GoError) : StaysIn region (throw err : Call α) := fun _ _ => Triple.throw fun _ h => h

theorem bind {first : Call α} {rest : α → Call β} (hfirst : StaysIn region first)
    (hrest : ∀ a, StaysIn region (rest a)) : StaysIn region (first >>= rest) :=
  fun hubs files => Triple.bind (hfirst hubs files) fun a => hrest a hubs files

theorem ite {p : Prop} [Decidable p] {left right : Call α} (hleft : StaysIn region left)
    (hright : StaysIn region right) : StaysIn region (if p then left else right) :=
  fun hubs files => Triple.ite (fun _ => hleft hubs files) fun _ => hright hubs files

theorem change {f : World → FileMap} (h : ∀ world, ChangedOnly region world.files (f world)) :
    StaysIn region (modify fun world => { world with files := f world }) := by
  intro hubs files
  refine Triple.modify fun world hworld => ⟨hworld.hubs, ?_⟩
  exact hworld.files.trans (h world)

theorem get_bind {rest : World → Call β} (h : ∀ world, StaysIn region (rest world)) :
    StaysIn region (get >>= rest) := by
  intro hubs files
  refine Triple.bind Triple.get fun world => ?_
  exact (h world hubs files).mono (fun _ hs => hs.2) (fun _ _ hs => hs) fun _ hs => hs

theorem forM {ι : Type} {f : ι → Call PUnit} {items : List ι} (h : ∀ item ∈ items, StaysIn region (f item)) :
    StaysIn region (items.forM f) :=
  fun hubs files => Triple.forM fun item hitem => h item hitem hubs files

theorem mapError {reply : GoError → GoError} {call : Call α} (h : StaysIn region call) :
    StaysIn region (Program.mapError reply call) := fun hubs files => Triple.mapError (h hubs files)

theorem logged {call : Call Unit} (h : StaysIn region call) : StaysIn region (logged call) := by
  intro hubs files world hworld
  have hends := h hubs files world hworld
  unfold MyHubs.logged
  cases hrun : call world with
  | ok _ _ =>
      rw [hrun] at hends
      exact hends
  | error err _ =>
      rw [hrun] at hends
      cases err with
      | failed _ => exact hends
      | panic _ => exact hends

theorem discard {call : Call α} (h : StaysIn region call) : StaysIn region (Functor.discard call) :=
  fun hubs files => Triple.discard (h hubs files)

theorem mono {call : Call α} (h : StaysIn region call) (hregion : ∀ path, region path → region' path) :
    StaysIn region' call := by
  intro hubs files world hworld
  have hends := h world.hubs world.files world ⟨rfl, ChangedOnly.refl _ _⟩
  have hgrown : ∀ world', Confined region world.hubs world.files world' → Confined region' hubs files world' :=
    fun world' hafter =>
      ⟨hafter.hubs.trans hworld.hubs, hworld.files.trans (hafter.files.mono hregion)⟩
  cases hrun : call world with
  | ok a world' =>
      rw [hrun] at hends
      exact hgrown world' hends
  | error err world' =>
      rw [hrun] at hends
      exact hgrown world' hends

end StaysIn

/-! ## Git -/

theorem staysIn_removeDir (left : Option (Path → Bool)) (path : Path) : StaysIn (path <+: ·) (removeDir left path) :=
  (StaysIn.change fun _ => changedOnly_eraseUnder _).bind fun _ => (StaysIn.throw _).ite (StaysIn.pure _)

theorem staysIn_runGit (run : GitRun) (path : Path) : StaysIn (Overlap path) (runGit run path) := by
  refine (StaysIn.change fun world => ?_).bind fun _ => StaysIn.pure _
  have hmade : ChangedOnly (Overlap path) world.files (mkdirAll path world.files) :=
    changedOnly_mkdirAll.mono fun _ => .inr
  exact hmade.trans ((changedOnly_overwrite run.leaves).mono fun _ => .inl)

theorem staysIn_plainClone (env : CloneEnv) (path : Path) : StaysIn (Overlap path) (plainClone env path) := by
  refine (staysIn_runGit env.branch path).bind fun _ => (StaysIn.pure _).ite ?_
  exact (staysIn_runGit env.tag path).bind fun _ => (StaysIn.pure _).ite (StaysIn.throw _)

theorem staysIn_gitClone (env : CloneEnv) (repoData : CloningInput) :
    StaysIn (Overlap (clonePath repoData.projectID repoData.hubName)) (gitClone env repoData) := by
  refine (StaysIn.change fun _ => (changedOnly_eraseUnder _).mono fun _ => .inl).bind fun _ => StaysIn.ite ?_ ?_
  · cases generateAuthMethod env.keyParses repoData with
    | error err => exact StaysIn.throw _
    | ok _ => exact staysIn_plainClone env _
  · exact staysIn_plainClone env _

theorem staysIn_gitPull (env : PullEnv) (c : CloningInput) :
    StaysIn (Overlap (clonePath c.projectID c.hubName)) (gitPull env c) := by
  refine (StaysIn.throw _).ite ?_
  cases (if c.isPrivate then generateAuthMethod env.keyParses c else .ok () : Except GoError Unit) with
  | error err =>
      cases err with
      | panic message => exact StaysIn.throw _
      | failed message => exact StaysIn.pure _
  | ok _ => exact (staysIn_runGit env.run _).bind fun _ => (StaysIn.pure _).ite (StaysIn.throw _)

theorem staysIn_gitSyncHandlerForProjects (cloneEnv : CloneEnv) (pullEnv : PullEnv) (repoData : CloningInput) :
    StaysIn (Overlap (clonePath repoData.projectID repoData.hubName))
      (gitSyncHandlerForProjects cloneEnv pullEnv repoData) :=
  StaysIn.get_bind fun _ =>
    (StaysIn.throw _).ite ((staysIn_gitClone cloneEnv repoData).ite (staysIn_gitPull pullEnv repoData))

/-! ## Downloads -/

/-- The files of a download: its archive, and the items that are unpacked. -/
def downloadFiles (env : DownloadEnv) (projectID hubName : String) : List Path :=
  zipPath projectID hubName ::
    (((env.archive.getD []).filter fun file => decide (file.isLegal (defaultPath ++ projectID))).map
      (ZipItem.path (defaultPath ++ projectID)))

def InDownload (env : DownloadEnv) (projectID hubName : String) (path : Path) : Prop :=
  ∃ file ∈ downloadFiles env projectID hubName, path <+: file

theorem staysIn_createFile (fails : Bool) (content : String) (path : Path) :
    StaysIn (· = path) (createFile fails content path) := by
  intro hubs files
  refine Triple.bind Triple.get fun world => ?_
  rintro _ ⟨rfl, hworld⟩
  cases hcreate : if fails then none else create content path world.files with
  | none => exact hworld
  | some files' =>
      have hchanged : ChangedOnly (· = path) world.files files' := by
        cases fails with
        | true => cases hcreate
        | false => exact changedOnly_create hcreate
      exact ⟨hworld.hubs, hworld.files.trans hchanged⟩

theorem staysIn_unlink (path : Path) : StaysIn (· = path) (unlink path) :=
  StaysIn.change fun _ => changedOnly_removeFile

theorem staysIn_copyZipItem (extractPath : String) (file : ZipItem) :
    StaysIn (fun path => file.isLegal extractPath ∧ path <+: file.path extractPath)
      (copyZipItem extractPath file) := by
  unfold copyZipItem
  by_cases hlegal : file.isLegal extractPath
  · rw [if_pos hlegal]
    have hparent : StaysIn (· <+: file.path extractPath) (makeParent file (file.path extractPath)) :=
      (StaysIn.pure _).ite (StaysIn.change fun _ => changedOnly_mkdirAll.mono fun path hpath =>
        hpath.trans (List.dropLast_prefix _))
    have hwrite : StaysIn (· <+: file.path extractPath) (writeItem file (file.path extractPath)) :=
      (StaysIn.pure _).ite ((staysIn_createFile _ _ _).discard.mono fun path hpath => hpath ▸ List.prefix_rfl)
    exact (hparent.bind fun _ => hwrite.bind fun _ => (StaysIn.pure _).ite (StaysIn.throw _)).mono
      fun path hpath => ⟨hlegal, hpath⟩
  · rw [if_neg hlegal]
    exact StaysIn.pure _

theorem staysIn_downloadRemoteHub (env : DownloadEnv) (hubDetails : CreateRemoteMyHub) :
    StaysIn (InDownload env hubDetails.projectID hubDetails.hubName) (downloadRemoteHub env hubDetails) := by
  have hzip : ∀ path, path = zipPath hubDetails.projectID hubDetails.hubName →
      InDownload env hubDetails.projectID hubDetails.hubName path := by
    rintro path rfl
    exact ⟨_, List.mem_cons_self, List.prefix_rfl⟩
  have hunlink := (staysIn_unlink (zipPath hubDetails.projectID hubDetails.hubName)).mono hzip
  refine ((staysIn_createFile _ _ _).mono hzip).bind fun created => StaysIn.ite ?_ (StaysIn.throw _)
  cases env.answer with
  | none => exact StaysIn.throw _
  | some download =>
      refine (StaysIn.throw _).ite ?_
      cases GoStrings.atoi env.maxSize with
      | none => exact StaysIn.throw _
      | some maxSize =>
          refine StaysIn.ite (hunlink.bind fun _ => StaysIn.throw _) ?_
          refine StaysIn.ite (hunlink.bind fun _ => StaysIn.throw _) ?_
          refine ((staysIn_createFile _ _ _).discard.mono hzip).bind fun _ => (StaysIn.throw _).ite ?_
          cases harchive : env.archive with
          | none => exact StaysIn.throw _
          | some items =>
              refine StaysIn.bind (StaysIn.forM fun file hfile => ?_) fun _ => (StaysIn.throw _).ite hunlink
              refine (staysIn_copyZipItem _ file).mono fun path hpath => ⟨_, ?_, hpath.2⟩
              refine List.mem_cons_of_mem _ (List.mem_map_of_mem (List.mem_filter.mpr ⟨?_, decide_eq_true hpath.1⟩))
              rwa [harchive]

theorem staysIn_syncRemoteRepo (left : Option (Path → Bool)) (env : DownloadEnv) (hubData : CloningInput) :
    StaysIn (fun path => clonePath hubData.projectID hubData.hubName <+: path ∨
      InDownload env hubData.projectID hubData.hubName path) (syncRemoteRepo left env hubData) :=
  ((staysIn_removeDir left _).mono fun _ => .inl).bind fun _ =>
    (staysIn_downloadRemoteHub env _).mono fun _ => .inr

end LitmusPortal.MyHubs
