import LitmusPortal.Lib.GoStrings

/-!
# File trees

A tree of directories and files under absolute paths without symbolic links. Each operation has the region it may
change, so that what lies outside of the regions of a program is left as it was.
-/

namespace FileTree

open GoStrings

abbrev Path := List String

inductive Node where
  | dir
  | file (content : String)
  deriving DecidableEq, Repr

abbrev FileMap := Path → Option Node

/-! ## Paths -/

/-- One component of a path is followed. -/
def follow (path : Path) (component : String) : Path :=
  if component = "" ∨ component = "." then path
  else if component = ".." then path.dropLast
  else path ++ [component]

/-- `filepath.Clean` of an absolute path, by its components. -/
def clean (s : String) : Path := (splitAt (· = '/') s).foldl follow []

/-- One lies in the other. -/
def Overlap (p q : Path) : Prop := p <+: q ∨ q <+: p

instance (p q : Path) : Decidable (Overlap p q) := inferInstanceAs (Decidable (_ ∨ _))

theorem overlap_of_both {p q r : Path} (hp : p <+: r) (hq : q <+: r) : Overlap p q :=
  List.prefix_or_prefix_of_prefix hp hq

/-- A name that is one component of a path. -/
def IsPlain (name : String) : Prop := '/' ∉ name.toList ∧ name ≠ "" ∧ name ≠ "." ∧ name ≠ ".."

instance (name : String) : Decidable (IsPlain name) := inferInstanceAs (Decidable (_ ∧ _))

theorem splitAt_append_slash {dir name : String} (h : '/' ∉ name.toList) :
    splitAt (· = '/') (dir ++ "/" ++ name) = splitAt (· = '/') dir ++ [name] := by
  have hname : name.toList.splitOnP (· = '/') = [name.toList] :=
    List.splitOnP_eq_singleton fun c hc => decide_eq_false fun heq => h (heq ▸ hc)
  have hchars : (dir ++ "/" ++ name).toList = dir.toList ++ '/' :: name.toList := by
    simp [String.toList_append]
  rw [splitAt, hchars, List.splitOnP_append_cons _ _ (by simp), hname, List.map_append, List.map_singleton,
    String.ofList_toList, splitAt]

theorem clean_append_plain {dir name : String} (h : IsPlain name) :
    clean (dir ++ "/" ++ name) = clean dir ++ [name] := by
  obtain ⟨hslash, hempty, hdot, hparent⟩ := h
  rw [clean, splitAt_append_slash hslash, List.foldl_append, List.foldl_cons, List.foldl_nil, follow,
    if_neg (by simp [hempty, hdot]), if_neg hparent]
  rfl

/-- In one directory, the paths of two plain names only overlap where the names are equal. -/
theorem overlap_plain_iff {dir name name' : String} (h : IsPlain name) (h' : IsPlain name') :
    Overlap (clean (dir ++ "/" ++ name)) (clean (dir ++ "/" ++ name')) ↔ name = name' := by
  rw [clean_append_plain h, clean_append_plain h']
  constructor
  · rintro (hpre | hpre)
    · have heq := hpre.eq_of_length (by simp)
      simpa using heq
    · have heq := hpre.eq_of_length (by simp)
      simpa using heq.symm
  · rintro rfl
    exact .inl List.prefix_rfl

/-! ## Regions -/

/-- What a program leaves, by the region it may change. -/
def ChangedOnly (region : Path → Prop) (t t' : FileMap) : Prop := ∀ path, ¬ region path → t' path = t path

/-- A directory with all that is in it is as it was. -/
def SameUnder (p : Path) (t t' : FileMap) : Prop := ∀ path, p <+: path → t' path = t path

variable {region region' : Path → Prop} {t t' t'' : FileMap} {p : Path}

theorem ChangedOnly.refl (region : Path → Prop) (t : FileMap) : ChangedOnly region t t := fun _ _ => rfl

theorem ChangedOnly.trans (h : ChangedOnly region t t') (h' : ChangedOnly region t' t'') :
    ChangedOnly region t t'' := fun path hpath => (h' path hpath).trans (h path hpath)

theorem ChangedOnly.mono (h : ChangedOnly region t t') (hregion : ∀ path, region path → region' path) :
    ChangedOnly region' t t' := fun path hpath => h path fun hin => hpath (hregion path hin)

theorem ChangedOnly.sameUnder (h : ChangedOnly region t t') (hregion : ∀ path, region path → ¬ p <+: path) :
    SameUnder p t t' := fun path hpath => h path fun hin => hregion path hin hpath

/-! ## Operations -/

/-- `os.RemoveAll` that has left some of the paths. -/
def eraseUnder (kept : Path → Bool) (p : Path) (t : FileMap) : FileMap :=
  fun path => if p <+: path ∧ kept path = false then none else t path

/-- A program writes what it likes into a directory. -/
def overwrite (new : FileMap) (p : Path) (t : FileMap) : FileMap := fun path => if p <+: path then new path else t path

/-- `os.MkdirAll`: what is missing on the way is made, as far as no file is in the way. -/
def mkdirAll (p : Path) (t : FileMap) : FileMap :=
  fun path =>
    if path <+: p ∧ t path = none ∧ ∀ n ≤ path.length, t (path.take n) = none ∨ t (path.take n) = some .dir then
      some .dir
    else t path

/-- `os.Create` with what is written then. It fails where a directory is in the way or there is none around it. -/
def create (content : String) (p : Path) (t : FileMap) : Option FileMap :=
  if t p.dropLast = some .dir ∧ t p ≠ some .dir then
    some fun path => if path = p then some (.file content) else t path
  else none

/-- `os.Remove` of a file. -/
def removeFile (p : Path) (t : FileMap) : FileMap := fun path => if path = p then none else t path

theorem changedOnly_eraseUnder (kept : Path → Bool) : ChangedOnly (p <+: ·) t (eraseUnder kept p t) :=
  fun _ hpath => if_neg fun h => hpath h.1

theorem changedOnly_overwrite (new : FileMap) : ChangedOnly (p <+: ·) t (overwrite new p t) := fun _ hpath => if_neg hpath

theorem changedOnly_mkdirAll : ChangedOnly (· <+: p) t (mkdirAll p t) := fun _ hpath => if_neg fun h => hpath h.1

theorem changedOnly_create {content : String} (h : create content p t = some t') : ChangedOnly (· = p) t t' := by
  unfold create at h
  split at h
  · obtain rfl := Option.some.inj h
    exact fun _ hpath => if_neg hpath
  · cases h

theorem changedOnly_removeFile : ChangedOnly (· = p) t (removeFile p t) := fun _ hpath => if_neg hpath

end FileTree
