import Mathlib.Data.List.Basic
import Mathlib.Data.List.Nodup

/-!
# Linear commit histories

A history lists its commits newest first. Each commit lists the paths it changes, in the order git
reports them, and the proof that these are the paths on which its tree differs from the one before
is part of the history.
-/

namespace LitmusPortal

abbrev Tree := String → Option String

structure Commit where
  hash : String
  changed : List String
  tree : Tree

/-- The tree of the newest of these commits; before the first there is nothing. -/
def headTree : List Commit → Tree
  | [] => fun _ => none
  | commit :: _ => commit.tree

def ChangesRecorded : List Commit → Prop
  | [] => True
  | commit :: older =>
      (∀ path, path ∈ commit.changed ↔ commit.tree path ≠ headTree older path) ∧
        ChangesRecorded older

structure History where
  commits : List Commit
  hashes : (commits.map (·.hash)).Nodup
  hash_ne : ∀ commit ∈ commits, commit.hash ≠ ""
  recorded : ChangesRecorded commits

/-- A history with one of its commits singled out: the one the database knows as the latest. -/
structure KnownHistory extends History where
  newer : List Commit
  known : Commit
  older : List Commit
  split : commits = newer ++ known :: older

/-- `IsAncestor` on a linear history: a commit is an ancestor of itself and of what is newer. -/
def isAncestor (commits : List Commit) (commit : Commit) (known : String) : Bool :=
  (commits.dropWhile fun other => other.hash ≠ known).any fun other => other.hash = commit.hash

theorem ChangesRecorded.of_append {newer older : List Commit}
    (h : ChangesRecorded (newer ++ older)) : ChangesRecorded older := by
  induction newer with
  | nil => exact h
  | cons commit newer ih => exact ih h.2

/-- A file that differs was changed on the way. -/
theorem exists_changed_of_differs {newer older : List Commit} {path : String}
    (hrecorded : ChangesRecorded (newer ++ older))
    (hdiffers : headTree (newer ++ older) path ≠ headTree older path) :
    ∃ commit ∈ newer, path ∈ commit.changed := by
  induction newer with
  | nil => exact absurd rfl hdiffers
  | cons commit newer ih =>
      by_cases hhere : path ∈ commit.changed
      · exact ⟨commit, by simp, hhere⟩
      · have hsame : commit.tree path = headTree (newer ++ older) path := by
          by_contra hne
          exact hhere ((hrecorded.1 path).mpr hne)
        obtain ⟨found, hfound, hpath⟩ := ih hrecorded.2 (hsame ▸ hdiffers)
        exact ⟨found, by simp [hfound], hpath⟩

namespace KnownHistory

variable (history : KnownHistory)

theorem known_mem : history.known ∈ history.commits := by
  rw [history.split]
  simp

theorem hash_ne_known {commit : Commit} (h : commit ∈ history.newer) :
    commit.hash ≠ history.known.hash := by
  have hnodup := history.hashes
  rw [history.split, List.map_append, List.map_cons, List.nodup_append] at hnodup
  intro heq
  exact hnodup.2.2 _ (List.mem_map_of_mem h) _ (List.mem_cons_self) heq

theorem dropWhile_commits :
    (history.commits.dropWhile fun other => other.hash ≠ history.known.hash) =
      history.known :: history.older := by
  rw [history.split, List.dropWhile_append_of_pos fun commit hcommit => by
    simpa using history.hash_ne_known hcommit]
  simp

/-- The commits that are the known one or older than it are its ancestors, and no others. -/
theorem isAncestor_iff {commit : Commit} (h : commit ∈ history.commits) :
    isAncestor history.commits commit history.known.hash = true ↔
      commit ∈ history.known :: history.older := by
  rw [isAncestor, history.dropWhile_commits, List.any_eq_true]
  constructor
  · rintro ⟨other, hother, hhash⟩
    have hmem : other ∈ history.commits := by
      rw [history.split]
      exact List.mem_append_right _ hother
    have heq : other = commit :=
      List.inj_on_of_nodup_map history.hashes hmem h (by simpa using hhash)
    exact heq ▸ hother
  · intro hmem
    exact ⟨commit, hmem, by simp⟩

theorem not_isAncestor_of_newer {commit : Commit} (h : commit ∈ history.newer) :
    ¬ isAncestor history.commits commit history.known.hash = true := by
  have hmem : commit ∈ history.commits := by
    rw [history.split]
    exact List.mem_append_left _ h
  rw [history.isAncestor_iff hmem]
  have hnodup := history.hashes
  rw [history.split, List.map_append, List.nodup_append] at hnodup
  intro hknown
  exact hnodup.2.2 _ (List.mem_map_of_mem h) _ (List.mem_map_of_mem hknown) rfl

end KnownHistory

end LitmusPortal
