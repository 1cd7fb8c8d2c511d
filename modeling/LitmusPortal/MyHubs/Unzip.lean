import LitmusPortal.Lib.PathText
import LitmusPortal.MyHubs.Handler

/-!
# Where an archive is unpacked

`CopyZipItems` compares the text of an item's cleaned path with that of the project's directory and a slash. The names
of the items are the archive's own; what they may reach is the inside of that directory, and the directories above it
where these are missing.
-/

namespace LitmusPortal.MyHubs

open FileTree GoStrings Program

/-- The parents of an item and the item. One that cannot be opened is a nil reader. -/
def unpackItem (file : ZipItem) (path : Path) : Call (Option GoError) := do
  makeParent file path
  writeItem file path
  if file.opens then return none else throw nilDereference

/-- `CopyZipItems`, with the error it returns. -/
def copyZipItems (file : ZipItem) (extractPath chartsPath : String) : Call (Option GoError) :=
  let path := clean (extractPath ++ "/" ++ chartsPath)
  if hasPrefix (pathText path) (pathText (clean extractPath) ++ "/") = false then
    return some (.failed ("illegal file path: " ++ pathText path))
  else unpackItem file path

/-- `UnzipRemoteHub`. The errors of the items are dropped. -/
def unzipArchive (archive : Option (List ZipItem)) (hubDetails : CreateRemoteMyHub) : Call Unit :=
  let extractPath := defaultPath ++ hubDetails.projectID
  match archive with
  | none => throw (.failed "zip: not a valid zip file")
  | some items => items.forM fun file => discard (copyZipItems file extractPath file.name)

/-! ### The test of an item -/

section Item

variable {file : ZipItem} {extractPath chartsPath : String}

theorem passes_iff (hroot : clean extractPath ≠ []) :
    hasPrefix (pathText (clean (extractPath ++ "/" ++ chartsPath))) (pathText (clean extractPath) ++ "/") = true ↔
      StrictlyBelow (clean extractPath) (clean (extractPath ++ "/" ++ chartsPath)) :=
  hasPrefix_pathText_iff hroot (slashFree_clean _) (slashFree_clean _)

theorem copyZipItems_of_below (hroot : clean extractPath ≠ [])
    (hbelow : StrictlyBelow (clean extractPath) (clean (extractPath ++ "/" ++ chartsPath))) :
    copyZipItems file extractPath chartsPath = unpackItem file (clean (extractPath ++ "/" ++ chartsPath)) := by
  have hpasses := (passes_iff hroot).mpr hbelow
  exact if_neg (by rw [hpasses]; exact Bool.noConfusion)

theorem copyZipItems_of_not_below (hroot : clean extractPath ≠ [])
    (hbelow : ¬StrictlyBelow (clean extractPath) (clean (extractPath ++ "/" ++ chartsPath))) :
    copyZipItems file extractPath chartsPath =
      return some (.failed ("illegal file path: " ++ pathText (clean (extractPath ++ "/" ++ chartsPath)))) :=
  if_pos (Bool.eq_false_iff.mpr fun hpasses => hbelow ((passes_iff hroot).mp hpasses))

theorem unpackItem_returns_none (path : Path) :
    Triple (fun _ => True) (unpackItem file path) (fun err _ => err = none) (fun _ => True) := by
  refine Triple.bind_of_forall fun _ => Triple.bind_of_forall fun _ => ?_
  exact Triple.ite (fun _ => Triple.pure fun _ _ => rfl) fun _ => Triple.throw fun _ _ => trivial

/-- An item is refused exactly where its path does not lie strictly below the directory. -/
theorem refused_iff (hroot : clean extractPath ≠ []) (world : World) :
    (∃ err world', copyZipItems file extractPath chartsPath world = .ok (some err) world') ↔
      ¬StrictlyBelow (clean extractPath) (clean (extractPath ++ "/" ++ chartsPath)) := by
  by_cases hbelow : StrictlyBelow (clean extractPath) (clean (extractPath ++ "/" ++ chartsPath))
  · rw [copyZipItems_of_below hroot hbelow]
    refine iff_of_false ?_ (not_not.mpr hbelow)
    rintro ⟨err, world', hresult⟩
    exact absurd ((unpackItem_returns_none _).ok trivial hresult) (by simp)
  · rw [copyZipItems_of_not_below hroot hbelow]
    exact iff_of_true ⟨_, world, rfl⟩ hbelow

/-- The component-wise test of the hub's downloads is that of the texts. -/
theorem discard_copyZipItems (hroot : clean extractPath ≠ []) :
    discard (copyZipItems file extractPath file.name) = copyZipItem extractPath file := by
  by_cases hbelow : StrictlyBelow (clean extractPath) (file.path extractPath)
  · have hlegal : file.isLegal extractPath := hbelow
    rw [copyZipItems_of_below hroot hbelow, copyZipItem, if_pos hlegal, unpackItem, ZipItem.path]
    rw [discard_eq_bind, bind_assoc]
    refine bind_congr fun _ => ?_
    rw [bind_assoc]
    refine bind_congr fun _ => ?_
    cases file.opens with
    | true => rfl
    | false => rfl
  · have hlegal : ¬file.isLegal extractPath := hbelow
    rw [copyZipItems_of_not_below hroot hbelow, copyZipItem, if_neg hlegal]
    rfl

end Item

/-! ### What is made and overwritten -/

/-- Only what lies strictly below the directory has changed, and the directory and those above it have been made where
they were missing. -/
def Unpacked (dir : Path) (t t' : FileMap) : Prop :=
  ∀ path, t' path ≠ t path → StrictlyBelow dir path ∨ path <+: dir ∧ t path = none ∧ t' path = some .dir

section Unpacking

variable {dir p : Path} {t t' t'' : FileMap}

theorem Unpacked.refl (dir : Path) (t : FileMap) : Unpacked dir t t := fun _ hpath => absurd rfl hpath

theorem Unpacked.trans (h : Unpacked dir t t') (h' : Unpacked dir t' t'') : Unpacked dir t t'' := by
  intro path hpath
  by_cases hsecond : t'' path = t' path
  · rw [hsecond] at hpath ⊢
    exact h path hpath
  · refine (h' path hsecond).imp_right fun hmade => ⟨hmade.1, ?_, hmade.2.2⟩
    by_contra hfound
    have hfirst : t' path ≠ t path := fun heq => hfound (heq.symm.trans hmade.2.1)
    rcases h path hfirst with hbelow | ⟨-, hmissing, -⟩
    · exact hbelow.2 (hmade.1.eq_of_length_le hbelow.1.length_le)
    · exact hfound hmissing

theorem below_or_above {path p : Path} (hdir : dir <+: p) (hpath : path <+: p) :
    StrictlyBelow dir path ∨ path <+: dir := by
  rcases overlap_of_both hdir hpath with hbelow | habove
  · by_cases heq : path = dir
    · exact .inr (heq ▸ List.prefix_rfl)
    · exact .inl ⟨hbelow, heq⟩
  · exact .inr habove

theorem unpacked_mkdirAll (h : StrictlyBelow dir p) : Unpacked dir t (mkdirAll p.dropLast t) := by
  intro path hpath
  rw [mkdirAll] at hpath
  split at hpath
  · rename_i hmissing
    refine (below_or_above h.1 (hmissing.1.trans (List.dropLast_prefix p))).imp_right fun habove => ?_
    exact ⟨habove, hmissing.2.1, if_pos hmissing⟩
  · exact absurd rfl hpath

theorem unpacked_of_changedOnly (h : StrictlyBelow dir p) (hchanged : ChangedOnly (· = p) t t') :
    Unpacked dir t t' := by
  intro path hpath
  by_cases heq : path = p
  · exact .inl (heq ▸ h)
  · exact absurd (hchanged path heq) hpath

/-- The files a call leaves are an unpacked archive, whether it returns or panics. -/
structure Unpacks {α : Type} (dir : Path) (call : Call α) : Prop where
  triple : ∀ t, Triple (fun world : World => Unpacked dir t world.files) call
    (fun _ world => Unpacked dir t world.files) (fun world => Unpacked dir t world.files)

namespace Unpacks

variable {α β : Type}

theorem pure (a : α) : Unpacks dir (Pure.pure a : Call α) := ⟨fun _ => Triple.pure fun _ hs => hs⟩

theorem throw (err : GoError) : Unpacks dir (throw err : Call α) := ⟨fun _ => Triple.throw fun _ hs => hs⟩

theorem bind {first : Call α} {rest : α → Call β} (hfirst : Unpacks dir first) (hrest : ∀ a, Unpacks dir (rest a)) :
    Unpacks dir (first >>= rest) :=
  ⟨fun t => Triple.bind (hfirst.triple t) fun a => (hrest a).triple t⟩

theorem ite {P : Prop} [Decidable P] {left right : Call α} (hleft : Unpacks dir left) (hright : Unpacks dir right) :
    Unpacks dir (if P then left else right) :=
  ⟨fun t => Triple.ite (fun _ => hleft.triple t) fun _ => hright.triple t⟩

theorem discard {call : Call α} (h : Unpacks dir call) : Unpacks dir (Functor.discard call) :=
  ⟨fun t => (h.triple t).discard⟩

theorem forM {ι : Type} {f : ι → Call PUnit} {items : List ι} (h : ∀ item, Unpacks dir (f item)) :
    Unpacks dir (items.forM f) :=
  ⟨fun t => Triple.forM fun item _ => (h item).triple t⟩

theorem makeParent (file : ZipItem) (h : StrictlyBelow dir p) : Unpacks dir (makeParent file p) := by
  refine (Unpacks.pure _).ite ⟨fun t => Triple.modify fun world hworld => ?_⟩
  exact hworld.trans (unpacked_mkdirAll h)

theorem createFile (fails : Bool) (content : String) (h : StrictlyBelow dir p) :
    Unpacks dir (createFile fails content p) := by
  refine ⟨fun t => Triple.bind Triple.get fun world => ?_⟩
  rintro _ ⟨rfl, hworld⟩
  cases hcreate : if fails then none else create content p world.files with
  | none => exact hworld
  | some files' =>
      have hchanged : ChangedOnly (· = p) world.files files' := by
        cases fails with
        | true => cases hcreate
        | false => exact changedOnly_create hcreate
      exact hworld.trans (unpacked_of_changedOnly h hchanged)

theorem unpackItem (file : ZipItem) (h : StrictlyBelow dir p) : Unpacks dir (unpackItem file p) := by
  have hwrite : Unpacks dir (writeItem file p) := (Unpacks.pure _).ite (Unpacks.createFile _ _ h).discard
  exact (Unpacks.makeParent file h).bind fun _ => hwrite.bind fun _ => (Unpacks.pure _).ite (Unpacks.throw _)

theorem copyZipItems (file : ZipItem) {extractPath : String} (chartsPath : String) (hroot : clean extractPath ≠ []) :
    Unpacks (clean extractPath) (copyZipItems file extractPath chartsPath) := by
  by_cases hbelow : StrictlyBelow (clean extractPath) (clean (extractPath ++ "/" ++ chartsPath))
  · rw [copyZipItems_of_below hroot hbelow]
    exact Unpacks.unpackItem file hbelow
  · rw [copyZipItems_of_not_below hroot hbelow]
    exact Unpacks.pure _

theorem unzipArchive (archive : Option (List ZipItem)) (hubDetails : CreateRemoteMyHub)
    (hroot : clean (defaultPath ++ hubDetails.projectID) ≠ []) :
    Unpacks (clean (defaultPath ++ hubDetails.projectID)) (unzipArchive archive hubDetails) := by
  cases archive with
  | none => exact Unpacks.throw _
  | some items => exact Unpacks.forM fun file => (Unpacks.copyZipItems file file.name hroot).discard

end Unpacks

end Unpacking

/-! ### A whole archive -/

/-- Only the directory itself is made above, where those around it are there. -/
theorem Unpacked.eq_dir {dir path : Path} {t t' : FileMap} (h : Unpacked dir t t')
    (haround : ∀ n < dir.length, t (dir.take n) ≠ none) (hpath : t' path ≠ t path) :
    StrictlyBelow dir path ∨ path = dir ∧ t path = none ∧ t' path = some .dir := by
  refine (h path hpath).imp_right fun hmade => ⟨?_, hmade.2⟩
  by_contra hne
  have hlt : path.length < dir.length := by
    refine lt_of_le_of_ne hmade.1.length_le fun heq => hne (hmade.1.eq_of_length heq)
  refine haround path.length hlt ?_
  rw [← List.prefix_iff_eq_take.mp hmade.1]
  exact hmade.2.1

/-- Unpacking is confined to the project's directory. -/
structure ConfinedTo (dir : Path) (archive : Option (List ZipItem)) (hubDetails : CreateRemoteMyHub) : Prop where
  confined : ∀ world, Unpacked dir world.files (worldAfter (unzipArchive archive hubDetails world)).files
  directory : ∀ world : World, (∀ n < dir.length, world.files (dir.take n) ≠ none) → ∀ path,
    (worldAfter (unzipArchive archive hubDetails world)).files path ≠ world.files path →
      StrictlyBelow dir path ∨ path = dir ∧ world.files path = none
  refused : ∀ (world : World) (file : ZipItem),
    (∃ err world', copyZipItems file (defaultPath ++ hubDetails.projectID) file.name world = .ok (some err) world') ↔
      ¬StrictlyBelow dir (file.path (defaultPath ++ hubDetails.projectID))

theorem unzipArchive_confined (archive : Option (List ZipItem)) (hubDetails : CreateRemoteMyHub)
    (hroot : clean (defaultPath ++ hubDetails.projectID) ≠ []) :
    ConfinedTo (clean (defaultPath ++ hubDetails.projectID)) archive hubDetails := by
  have hunpacks : ∀ world : World, Unpacked (clean (defaultPath ++ hubDetails.projectID)) world.files
      (worldAfter (unzipArchive archive hubDetails world)).files := by
    intro world
    have hends := (Unpacks.unzipArchive archive hubDetails hroot).triple world.files world (.refl _ _)
    cases hrun : unzipArchive archive hubDetails world with
    | ok result world' =>
        rw [hrun] at hends
        exact hends
    | error err world' =>
        rw [hrun] at hends
        exact hends
  refine ⟨hunpacks, fun world haround path hpath => ?_, fun world file => refused_iff hroot world⟩
  exact ((hunpacks world).eq_dir haround hpath).imp_right fun hmade => ⟨hmade.1, hmade.2.1⟩

def siblingItem : ZipItem := ⟨"../p10/charts.yaml", false, true, "", false, false⟩

def insideItem : ZipItem := ⟨"hub/./a/../charts.yaml", false, true, "", false, false⟩

theorem unzipArchive_confined_project :
    ConfinedTo (clean (defaultPath ++ "p1")) (some [siblingItem, insideItem])
      ⟨"hub", "https://example.com/hub.zip", "p1"⟩ :=
  unzipArchive_confined (some [siblingItem, insideItem]) ⟨"hub", "https://example.com/hub.zip", "p1"⟩ (by decide +kernel)

end LitmusPortal.MyHubs
