import LitmusPortal.Lib.FileTree

/-!
# Paths as they are written

A cleaned absolute path is written with a slash in front of each component, the root as a slash. One path lies strictly
below another where its text starts with the other's and a slash: the components themselves have none.
-/

namespace FileTree

open GoStrings

/-- In a directory, at any depth. -/
def StrictlyBelow (dir path : Path) : Prop := dir <+: path ∧ path ≠ dir

instance (dir path : Path) : Decidable (StrictlyBelow dir path) := inferInstanceAs (Decidable (_ ∧ _))

def slashed (path : Path) : List Char := path.flatMap fun component => '/' :: component.toList

def pathText (path : Path) : String := if path = [] then "/" else String.ofList (slashed path)

/-! ### Components -/

def SlashFree (path : Path) : Prop := ∀ component ∈ path, '/' ∉ component.toList

theorem slashFree_follow {path : Path} {component : String} (h : SlashFree path) (hcomponent : '/' ∉ component.toList) :
    SlashFree (follow path component) := by
  rw [follow]
  split
  · exact h
  · split
    · exact fun c hc => h c (List.dropLast_subset path hc)
    · intro c hc
      rcases List.mem_append.mp hc with hc | hc
      · exact h c hc
      · exact List.mem_singleton.mp hc ▸ hcomponent

theorem slashFree_clean (s : String) : SlashFree (clean s) := by
  have hpieces : ∀ component ∈ splitAt (· = '/') s, '/' ∉ component.toList := fun _ => not_mem_of_mem_splitAt
  suffices hfold : ∀ (components : List String) (path : Path), (∀ component ∈ components, '/' ∉ component.toList) →
      SlashFree path → SlashFree (components.foldl follow path) from
    hfold _ [] hpieces fun _ hc => absurd hc List.not_mem_nil
  intro components
  induction components with
  | nil => exact fun path _ hpath => hpath
  | cons component components ih =>
      intro path hcomponents hpath
      obtain ⟨hfirst, hrest⟩ := List.forall_mem_cons.mp hcomponents
      exact ih _ hrest (slashFree_follow hpath hfirst)

/-! ### Prefixes -/

theorem slashed_cons (component : String) (path : Path) :
    slashed (component :: path) = '/' :: (component.toList ++ slashed path) := List.flatMap_cons

theorem slashed_append (path path' : Path) : slashed (path ++ path') = slashed path ++ slashed path' :=
  List.flatMap_append

theorem slashed_eq_nil_or (path : Path) : path = [] ∧ slashed path = [] ∨ ∃ rest, slashed path = '/' :: rest := by
  cases path with
  | nil => exact .inl ⟨rfl, rfl⟩
  | cons component path => exact .inr ⟨_, slashed_cons component path⟩

theorem slashed_prefix_iff {dir path : Path} (hdir : SlashFree dir) (hpath : SlashFree path) :
    slashed dir ++ ['/'] <+: slashed path ↔ StrictlyBelow dir path := by
  induction dir generalizing path with
  | nil =>
      cases path with
      | nil => simp [slashed, StrictlyBelow]
      | cons component path => simp [slashed, StrictlyBelow]
  | cons component dir ih =>
      obtain ⟨hcomponent, hdir⟩ := List.forall_mem_cons.mp hdir
      cases path with
      | nil => simp [slashed, StrictlyBelow]
      | cons component' path =>
          obtain ⟨hcomponent', hpath⟩ := List.forall_mem_cons.mp hpath
          have hbelow : StrictlyBelow (component :: dir) (component' :: path) ↔
              component = component' ∧ StrictlyBelow dir path := by
            rw [StrictlyBelow, StrictlyBelow, List.cons_prefix_cons]
            constructor
            · rintro ⟨⟨rfl, hprefix⟩, hne⟩
              exact ⟨rfl, hprefix, fun heq => hne (by rw [heq])⟩
            · rintro ⟨rfl, hprefix, hne⟩
              exact ⟨⟨rfl, hprefix⟩, fun heq => hne (List.cons_inj_right _ |>.mp heq)⟩
          rw [hbelow, ← ih hdir hpath, slashed_cons, slashed_cons, List.cons_append, List.cons_prefix_cons,
            and_iff_right rfl, List.append_assoc]
          constructor
          · rintro ⟨rest, hrest⟩
            obtain ⟨more, hmore⟩ : ∃ more, slashed dir ++ ['/'] = '/' :: more := by
              rcases slashed_eq_nil_or dir with ⟨-, hnil⟩ | ⟨more, hmore⟩
              · exact ⟨[], by rw [hnil, List.nil_append]⟩
              · exact ⟨more ++ ['/'], by rw [hmore, List.cons_append]⟩
            rw [hmore, List.append_assoc, List.cons_append] at hrest
            rcases slashed_eq_nil_or path with ⟨-, hnil⟩ | ⟨more', hmore'⟩
            · rw [hnil, List.append_nil] at hrest
              exact absurd (hrest ▸ by simp) hcomponent'
            · rw [hmore', append_cons_inj hcomponent hcomponent'] at hrest
              refine ⟨String.toList_inj.mp hrest.1, rest, ?_⟩
              rw [hmore, hmore', ← hrest.2, List.cons_append]
          · rintro ⟨rfl, hprefix⟩
            exact List.prefix_append_right_inj _ |>.mpr hprefix

/-- Of a directory that is not the root, exactly what lies strictly below it starts with its text and a slash. -/
theorem hasPrefix_pathText_iff {dir path : Path} (hne : dir ≠ []) (hdir : SlashFree dir) (hpath : SlashFree path) :
    hasPrefix (pathText path) (pathText dir ++ "/") = true ↔ StrictlyBelow dir path := by
  have htext : (pathText dir ++ "/").toList = slashed dir ++ ['/'] := by
    rw [pathText, if_neg hne, String.toList_append, String.toList_ofList]
    rfl
  rw [hasPrefix_iff, htext, pathText]
  by_cases hroot : path = []
  · subst hroot
    rw [if_pos rfl]
    refine iff_of_false ?_ fun hbelow => hne (List.prefix_nil.mp hbelow.1)
    intro hprefix
    have hlength := hprefix.length_le
    obtain ⟨component, dir, rfl⟩ := List.exists_cons_of_ne_nil hne
    rw [slashed_cons] at hlength
    simp at hlength
  · rw [if_neg hroot, String.toList_ofList]
    exact slashed_prefix_iff hdir hpath

end FileTree
