import LitmusPortal.GitOps.Config
import LitmusPortal.GitOps.History
import LitmusPortal.Lib.GoStrings
import Mathlib.Data.List.AList

/-!
# Which files changed since the known commit

`GetChanges` collects file names as a side effect of the path filter of the log it walks. The filter
is asked about the paths of a commit in their order and not asked again once it has accepted one, so
a commit contributes its first project file and no other.
-/

namespace LitmusPortal

open GoStrings

abbrev Visited := AList fun _ : String => Nat

def projectPath (projectID : String) : String := projectDataPath ++ "/" ++ projectID ++ "/"

def acceptsPath (path file : String) : Bool :=
  (hasSuffix path "/" && hasPrefix file path) || path = file

/-- `visited[file] += 1`. -/
def visit (visited : Visited) (file : String) : Visited :=
  visited.insert file ((visited.lookup file).getD 0 + 1)

/-- The path filter over the changed paths of one commit: the file it accepts and the map it leaves. -/
def filterCommit (path : String) (visited : Visited) : List String → Option String × Visited
  | [] => (none, visited)
  | file :: rest =>
      if acceptsPath path file then (some file, visit visited file)
      else filterCommit path visited rest

/-- The variables of `GetChanges` while it walks the log. -/
structure LogWalk where
  visited : Visited
  lastFile : String
  latestCommit : Option String
  eof : Bool

def LogWalk.start : LogWalk := ⟨∅, "", none, false⟩

/-- The calls of `commitIter.Next` and the loop around them. `reached` is the test that ends the
loop. -/
def walkLog (path : String) (reached : Commit → Bool) : List Commit → LogWalk → LogWalk
  | [], walk => { walk with eof := true }
  | commit :: older, walk =>
      match filterCommit path walk.visited commit.changed with
      | (none, _) => walkLog path reached older walk
      | (some file, visited) =>
          let walk' : LogWalk :=
            ⟨visited, file, walk.latestCommit.orElse fun _ => some commit.hash, false⟩
          if reached commit then walk' else walkLog path reached older walk'

/-- The test that ends the loop: the commit is the known one or an ancestor of it. -/
def reachesKnown (config : GitConfig) (commits : List Commit) (commit : Commit) : Bool :=
  config.latestCommit ≠ "" &&
    (config.latestCommit = commit.hash || isAncestor commits commit config.latestCommit)

/-- The map after the loop: a file counted only in the last step is taken out, unless the log came
to its end. -/
def LogWalk.changes (walk : LogWalk) : Visited :=
  if !walk.eof && (walk.visited.lookup walk.lastFile).getD 0 = 1 then
    walk.visited.erase walk.lastFile
  else walk.visited

/-- `GetChanges` over the commits of the local branch, newest first. `fails` is an error of git. -/
def getChanges (fails : Bool) (config : GitConfig) (commits : List Commit) :
    Except GoError (String × Visited) :=
  if fails then .error (.failed "git: error")
  else if config.latestCommit ≠ "" ∧
      ¬ commits.any (fun commit => commit.hash = config.latestCommit) = true then
    .error (.failed "object not found")
  else
    let walk := walkLog (projectPath config.projectID) (reachesKnown config commits) commits .start
    .ok (walk.latestCommit.getD config.latestCommit, walk.changes)

def firstChanged (path : String) (commit : Commit) : Option String :=
  commit.changed.find? (acceptsPath path)

/-! ### Counting in the map -/

theorem filterCommit_eq (path : String) (visited : Visited) (commit : Commit) :
    filterCommit path visited commit.changed =
      match firstChanged path commit with
      | none => (none, visited)
      | some file => (some file, visit visited file) := by
  unfold firstChanged
  induction commit.changed with
  | nil => rfl
  | cons file rest ih =>
      by_cases haccepts : acceptsPath path file = true
      · simp [filterCommit, haccepts]
      · simp [filterCommit, haccepts, ih]

@[simp]
theorem mem_visit {visited : Visited} {file other : String} :
    other ∈ visit visited file ↔ other = file ∨ other ∈ visited := AList.mem_insert _

/-- Every file in the map has been counted. -/
def CountsPositive (visited : Visited) : Prop := ∀ file ∈ visited, 0 < (visited.lookup file).getD 0

theorem lookup_visit_self (visited : Visited) (file : String) :
    ((visit visited file).lookup file).getD 0 = (visited.lookup file).getD 0 + 1 := by
  simp [visit]

theorem CountsPositive.visit {visited : Visited} (h : CountsPositive visited) (file : String) :
    CountsPositive (visit visited file) := by
  intro other hother
  by_cases heq : other = file
  · subst heq
    rw [lookup_visit_self]
    exact Nat.succ_pos _
  · have hmem : other ∈ visited := (mem_visit.mp hother).resolve_left heq
    rw [LitmusPortal.visit, AList.lookup_insert_ne heq]
    exact h other hmem

/-! ### The walk -/

/-- What the walk makes of a commit it goes past. -/
def LogWalk.pass (path : String) (walk : LogWalk) (commit : Commit) : LogWalk :=
  match firstChanged path commit with
  | none => walk
  | some file =>
      ⟨visit walk.visited file, file, walk.latestCommit.orElse fun _ => some commit.hash, false⟩

theorem walkLog_append {path : String} {reached : Commit → Bool} {newer : List Commit}
    (rest : List Commit) (walk : LogWalk) (hnewer : ∀ commit ∈ newer, reached commit = false) :
    walkLog path reached (newer ++ rest) walk =
      walkLog path reached rest (newer.foldl (LogWalk.pass path) walk) := by
  induction newer generalizing walk with
  | nil => rfl
  | cons commit newer ih =>
      have hrest := fun walk => ih walk fun other hother => hnewer other (by simp [hother])
      rw [List.cons_append, walkLog, filterCommit_eq, List.foldl_cons, LogWalk.pass]
      cases firstChanged path commit with
      | none => exact hrest walk
      | some file =>
          simp only [hnewer commit (by simp), Bool.false_eq_true, if_false]
          exact hrest _

theorem walkLog_of_reached {path : String} {reached : Commit → Bool} {older : List Commit}
    (walk : LogWalk) (holder : ∀ commit ∈ older, reached commit = true) :
    walkLog path reached older walk = { walk with eof := true } ∨
      ∃ commit ∈ older, (firstChanged path commit).isSome = true ∧
        walkLog path reached older walk = walk.pass path commit := by
  induction older with
  | nil => exact Or.inl rfl
  | cons commit older ih =>
      rw [walkLog, filterCommit_eq]
      cases hfirst : firstChanged path commit with
      | none =>
          rcases ih fun other hother => holder other (by simp [hother]) with hend | ⟨found, hmem, h⟩
          · exact Or.inl hend
          · exact Or.inr ⟨found, by simp [hmem], h⟩
      | some file =>
          refine Or.inr ⟨commit, by simp, by simp [hfirst], ?_⟩
          simp only [holder commit (by simp), if_true, LogWalk.pass, hfirst]

theorem mem_foldl_pass {path : String} {commits : List Commit} {walk : LogWalk} {file : String} :
    file ∈ (commits.foldl (LogWalk.pass path) walk).visited ↔
      file ∈ walk.visited ∨ ∃ commit ∈ commits, firstChanged path commit = some file := by
  induction commits generalizing walk with
  | nil => simp
  | cons commit commits ih =>
      rw [List.foldl_cons, ih, LogWalk.pass]
      cases hfirst : firstChanged path commit with
      | none => simp [hfirst]
      | some found =>
          simp only [mem_visit, List.mem_cons, exists_eq_or_imp, hfirst, Option.some.injEq]
          grind

theorem countsPositive_foldl_pass (path : String) (commits : List Commit) {walk : LogWalk}
    (h : CountsPositive walk.visited) :
    CountsPositive (commits.foldl (LogWalk.pass path) walk).visited := by
  induction commits generalizing walk with
  | nil => exact h
  | cons commit commits ih =>
      refine ih ?_
      unfold LogWalk.pass
      split
      · exact h
      · exact h.visit _

/-- What the last step of the walk counted is taken out again, so the map is that of the commits the
walk went past before. -/
theorem mem_changes_of_reached {path : String} {reached : Commit → Bool} {older : List Commit}
    {walk : LogWalk} (hpositive : CountsPositive walk.visited)
    (holder : ∀ commit ∈ older, reached commit = true) (file : String) :
    file ∈ (walkLog path reached older walk).changes ↔ file ∈ walk.visited := by
  rcases walkLog_of_reached walk holder with hend | ⟨commit, -, hsome, hstop⟩
  · rw [hend, LogWalk.changes]
    simp
  · obtain ⟨last, hfirst⟩ := Option.isSome_iff_exists.mp hsome
    have hpass : walk.pass path commit = ⟨visit walk.visited last, last,
        walk.latestCommit.orElse fun _ => some commit.hash, false⟩ := by
      rw [LogWalk.pass, hfirst]
    rw [hstop, hpass, LogWalk.changes]
    simp only [Bool.not_false, Bool.true_and, lookup_visit_self, decide_eq_true_eq]
    by_cases hmem : last ∈ walk.visited
    · have hcount := hpositive last hmem
      rw [if_neg (by omega), mem_visit]
      exact ⟨fun h => h.elim (fun heq => heq ▸ hmem) id, Or.inr⟩
    · have hzero : (walk.visited.lookup last).getD 0 = 0 := by
        rw [AList.lookup_eq_none.mpr hmem]
        rfl
      rw [if_pos (by omega), AList.mem_erase, mem_visit]
      constructor
      · rintro ⟨hother, heq | h⟩
        · exact absurd heq hother
        · exact h
      · intro h
        exact ⟨fun heq => hmem (heq ▸ h), Or.inr h⟩

section Known

variable (history : KnownHistory) {config : GitConfig}
  (hknown : config.latestCommit = history.known.hash)

include hknown

theorem latestCommit_ne : config.latestCommit ≠ "" :=
  hknown ▸ history.hash_ne _ history.known_mem

theorem reachesKnown_newer {commit : Commit} (h : commit ∈ history.newer) :
    reachesKnown config history.commits commit = false := by
  have hancestor := history.not_isAncestor_of_newer h
  have hhash := (history.hash_ne_known h).symm
  rw [reachesKnown, hknown, Bool.eq_false_of_not_eq_true hancestor]
  simp [hhash]

theorem reachesKnown_older {commit : Commit} (h : commit ∈ history.known :: history.older) :
    reachesKnown config history.commits commit = true := by
  have hmem : commit ∈ history.commits := history.split ▸ List.mem_append_right _ h
  have hne := latestCommit_ne history hknown
  have hancestor := (history.isAncestor_iff hmem).mpr h
  rw [hknown] at hne
  rw [reachesKnown, hknown, hancestor]
  simp [hne]

/-- The files of the map are the first project files of the commits newer than the known one. -/
theorem mem_getChanges :
    ∃ latest visited, getChanges false config history.commits = .ok (latest, visited) ∧
      ∀ file, file ∈ visited ↔ ∃ commit ∈ history.newer,
        firstChanged (projectPath config.projectID) commit = some file := by
  have hfound : ¬ (config.latestCommit ≠ "" ∧
      ¬ history.commits.any (fun commit => commit.hash = config.latestCommit) = true) := by
    rintro ⟨-, hmissing⟩
    exact hmissing (List.any_eq_true.mpr ⟨_, history.known_mem, by simp [hknown]⟩)
  refine ⟨_, _, by rw [getChanges, if_neg (by simp), if_neg hfound], fun file => ?_⟩
  have hpositive : CountsPositive
      (history.newer.foldl (LogWalk.pass (projectPath config.projectID)) .start).visited :=
    countsPositive_foldl_pass _ _ fun file hfile => by simp [LogWalk.start] at hfile
  rw [history.split, walkLog_append _ _ fun commit hcommit => by
      rw [← history.split]
      exact reachesKnown_newer history hknown hcommit,
    mem_changes_of_reached hpositive fun commit hcommit => by
      rw [← history.split]
      exact reachesKnown_older history hknown hcommit,
    mem_foldl_pass]
  simp [LogWalk.start]

end Known

/-! ### Is every changed file there? -/

/-- `GetChanges` returns a map with every project file whose content at the newest commit is not
what it is at the known one. -/
def ChangesComplete (history : KnownHistory) (config : GitConfig) : Prop :=
  ∃ latest visited,
    getChanges false { config with latestCommit := history.known.hash } history.commits =
      .ok (latest, visited) ∧
    ∀ file, acceptsPath (projectPath config.projectID) file = true →
      headTree history.commits file ≠ history.known.tree file → file ∈ visited

section Complete

variable {history : KnownHistory} {config : GitConfig}

theorem firstChanged_of_changesComplete (h : ChangesComplete history config) {file : String}
    (haccepts : acceptsPath (projectPath config.projectID) file = true)
    (hdiffers : headTree history.commits file ≠ history.known.tree file) :
    ∃ commit ∈ history.newer, firstChanged (projectPath config.projectID) commit = some file := by
  obtain ⟨latest, visited, hchanges, hcomplete⟩ := h
  obtain ⟨latest', visited', hchanges', hvisited⟩ :=
    mem_getChanges history (rfl : { config with latestCommit := history.known.hash }.latestCommit = _)
  obtain ⟨-, rfl⟩ : latest' = latest ∧ visited' = visited := by
    simpa using hchanges'.symm.trans hchanges
  exact (hvisited file).mp (hcomplete file haccepts hdiffers)

theorem changesComplete_of_firstChanged
    (h : ∀ file, acceptsPath (projectPath config.projectID) file = true →
      headTree history.commits file ≠ history.known.tree file →
      ∃ commit ∈ history.newer,
        firstChanged (projectPath config.projectID) commit = some file) :
    ChangesComplete history config := by
  obtain ⟨latest, visited, hchanges, hvisited⟩ :=
    mem_getChanges history (rfl : { config with latestCommit := history.known.hash }.latestCommit = _)
  exact ⟨latest, visited, hchanges, fun file haccepts hdiffers =>
    (hvisited file).mpr (h file haccepts hdiffers)⟩

end Complete

/-- The map is complete exactly when every such file comes first, among the project files, in some
commit newer than the known one. -/
theorem changesComplete_iff (history : KnownHistory) (config : GitConfig) :
    ChangesComplete history config ↔
      ∀ file, acceptsPath (projectPath config.projectID) file = true →
        headTree history.commits file ≠ history.known.tree file →
        ∃ commit ∈ history.newer,
          firstChanged (projectPath config.projectID) commit = some file :=
  ⟨fun hcomplete _ haccepts hdiffers =>
    firstChanged_of_changesComplete hcomplete haccepts hdiffers, changesComplete_of_firstChanged⟩

/-- In particular where no commit touches two files of the project. -/
theorem changesComplete_of_single (history : KnownHistory) (config : GitConfig)
    (hsingle : ∀ commit ∈ history.newer,
      (commit.changed.filter (acceptsPath (projectPath config.projectID))).length ≤ 1) :
    ChangesComplete history config := by
  apply changesComplete_of_firstChanged
  intro file haccepts hdiffers
  have hrecorded := history.recorded
  rw [history.split] at hrecorded hdiffers
  obtain ⟨commit, hcommit, hchanged⟩ := exists_changed_of_differs hrecorded hdiffers
  refine ⟨commit, hcommit, ?_⟩
  have hmem := List.mem_filter.mpr ⟨hchanged, haccepts⟩
  have hlength := hsingle commit hcommit
  rw [firstChanged, ← List.head?_filter]
  match hfilter : commit.changed.filter (acceptsPath (projectPath config.projectID)) with
  | [] => simp [hfilter] at hmem
  | [only] =>
      obtain rfl : file = only := by simpa [hfilter] using hmem
      rfl
  | first :: second :: rest => simp [hfilter] at hlength

def sampleConfig : GitConfig where
  projectID := "project-1"
  repositoryURL := "https://github.com/org/repo"
  localPath := "/tmp/gitops/project-1"
  remoteName := "origin"
  branch := "main"
  latestCommit := ""
  userName := none
  password := none
  authType := .token
  token := some "token"
  sshPrivateKey := none

def treeOf (files : List (String × String)) : Tree := fun path =>
  (files.find? fun file => file.1 = path).map (·.2)

/-- The set-up commit, and one commit that adds two workflows. -/
def twoFilesHistory : KnownHistory where
  newer := [⟨"c2", ["litmus/project-1/a.yaml", "litmus/project-1/b.yaml"],
    treeOf [("litmus/project-1/a.yaml", "a"), ("litmus/project-1/b.yaml", "b"),
      ("litmus/project-1/.info", "1")]⟩]
  known := ⟨"c1", ["litmus/project-1/.info"], treeOf [("litmus/project-1/.info", "1")]⟩
  older := []
  commits := _
  split := rfl
  hashes := by decide
  hash_ne := by decide
  recorded := by
    refine ⟨fun path => ?_, fun path => ?_, trivial⟩
    · simp only [treeOf, headTree, List.find?_cons, List.append_eq, List.nil_append]
      grind
    · simp only [treeOf, headTree, List.find?_cons]
      grind

/-- Of the two workflows the second is not in the map. -/
theorem not_changesComplete :
    ¬ ∀ (history : KnownHistory) (config : GitConfig), ChangesComplete history config := by
  intro hclaim
  have hfirst := firstChanged_of_changesComplete (hclaim twoFilesHistory sampleConfig)
    (show acceptsPath _ "litmus/project-1/b.yaml" = true by decide) (by decide)
  revert hfirst
  decide

end LitmusPortal
