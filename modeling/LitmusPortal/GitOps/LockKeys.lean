import LitmusPortal.GitOps.Lock
import Mathlib.Data.List.DropRight

/-!
# Which repositories share a lock

`getKey` trims a set of characters off the address of a repository where a suffix is meant, and takes the last two
pieces of what is left, however many there are.
-/

namespace LitmusPortal.GitLock

/-! ## The last two pieces of an address -/

def gitCutset : Char → Bool := ".git".toList.contains

def separator : Char → Bool := fun c => c == ':' || c == '/'

theorem gitCutset_eq_false {c : Char} (hc : separator c = true) : gitCutset c = false := by
  simp only [separator, Bool.or_eq_true, beq_iff_eq] at hc
  rcases hc with rfl | rfl <;> decide

theorem toList_trim (repo : String) :
    (GoStrings.trim repo ".git").toList = (repo.toList.dropWhile gitCutset).rdropWhile gitCutset := by
  simp [GoStrings.trim, List.rdropWhile, gitCutset]

theorem rdropWhile_append_cons {α : Type} {p : α → Bool} {c : α} (hc : p c = false) (front back : List α) :
    (front ++ c :: back).rdropWhile p = front ++ c :: back.rdropWhile p := by
  induction back using List.reverseRecOn with
  | nil => simpa using List.rdropWhile_concat_neg p front c (by simp [hc])
  | append_singleton back d ih =>
      have hassoc : front ++ c :: (back ++ [d]) = (front ++ c :: back) ++ [d] := by simp
      rw [hassoc, List.rdropWhile_concat, List.rdropWhile_concat, ih]
      split <;> simp

theorem dropWhile_append_cons {α : Type} {p : α → Bool} {c : α} (hc : p c = false) (front back : List α) :
    (front ++ c :: back).dropWhile p = front.dropWhile p ++ c :: back := by
  induction front with
  | nil => simp [hc]
  | cons d front ih =>
      simp only [List.cons_append, List.dropWhile_cons, ih]
      split <;> rfl

/-- What is left of the trimmed end of an address. -/
def trimEnd (word : String) : String := String.ofList (word.toList.rdropWhile gitCutset)

theorem drop_splitAt_append_two (front : List Char) {owner last : List Char} {sep : Char} (hsep : separator sep = true)
    (howner : ∀ c ∈ owner, separator c = false) (hlast : ∀ c ∈ last, separator c = false) :
    let split := (front ++ sep :: (owner ++ '/' :: last)).splitOnP separator
    2 ≤ split.length ∧ split.drop (split.length - 2) = [owner, last] := by
  have hsplit : (front ++ sep :: (owner ++ '/' :: last)).splitOnP separator =
      front.splitOnP separator ++ [owner, last] := by
    rw [List.splitOnP_append_cons _ _ hsep, List.splitOnP_append_cons _ _ (by decide),
      List.splitOnP_eq_singleton howner, List.splitOnP_eq_singleton hlast]
    rfl
  simp [hsplit]

theorem getKey_of_trim {repo : String} {front owner last : List Char} {sep : Char} (branch : String)
    (htrim : (GoStrings.trim repo ".git").toList = front ++ sep :: (owner ++ '/' :: last))
    (hsep : separator sep = true) (howner : ∀ c ∈ owner, separator c = false)
    (hlast : ∀ c ∈ last, separator c = false) :
    getKey repo (some branch) = some (String.ofList owner ++ "/" ++ String.ofList last ++ "/" ++ branch) := by
  obtain ⟨hlength, hdrop⟩ := drop_splitAt_append_two front hsep howner hlast
  have hsplit : GoStrings.splitAt (fun c => c == ':' || c == '/') (GoStrings.trim repo ".git") =
      ((front ++ sep :: (owner ++ '/' :: last)).splitOnP separator).map String.ofList := by
    rw [GoStrings.splitAt, htrim]
    rfl
  simp only [getKey, hsplit, List.length_map]
  rw [if_neg (by omega), ← List.map_drop, hdrop]
  rfl

/-! ## Where there are two pieces -/

theorem length_splitOnP {α : Type} (p : α → Bool) (l : List α) : (l.splitOnP p).length = l.countP p + 1 := by
  induction l with
  | nil => rfl
  | cons c l ih =>
      rw [List.splitOnP_cons_eq_if_modifyHead, List.countP_cons]
      split <;> simp [ih]

theorem countP_dropWhile_of_disjoint {α : Type} {p q : α → Bool} (hpq : ∀ c, p c = true → q c = false)
    (l : List α) : (l.dropWhile q).countP p = l.countP p := by
  induction l with
  | nil => rfl
  | cons c l ih =>
      rw [List.dropWhile_cons]
      split
      · rename_i hq
        have hp : ¬ p c = true := fun hp => by simp [hpq c hp] at hq
        rw [ih, List.countP_cons_of_neg hp]
      · rfl

theorem countP_rdropWhile_of_disjoint {α : Type} {p q : α → Bool} (hpq : ∀ c, p c = true → q c = false)
    (l : List α) : (l.rdropWhile q).countP p = l.countP p := by
  rw [List.rdropWhile, List.countP_reverse, countP_dropWhile_of_disjoint hpq, List.countP_reverse]

theorem isSome_getKey_iff (repo branch : String) :
    (getKey repo (some branch)).isSome ↔ ∃ c ∈ repo.toList, c = ':' ∨ c = '/' := by
  have hlength : (GoStrings.splitAt (fun c => c == ':' || c == '/') (GoStrings.trim repo ".git")).length =
      repo.toList.countP separator + 1 := by
    have hdisjoint : ∀ c, separator c = true → gitCutset c = false := fun c hc => gitCutset_eq_false hc
    rw [GoStrings.splitAt, List.length_map, toList_trim]
    change ((_ : List Char).splitOnP separator).length = _
    rw [length_splitOnP, countP_rdropWhile_of_disjoint hdisjoint, countP_dropWhile_of_disjoint hdisjoint]
  have hpieces : (getKey repo (some branch)).isSome ↔ 0 < repo.toList.countP separator := by
    simp only [getKey, hlength]
    split
    · rename_i hless
      simp only [Option.isSome_none, Bool.false_eq_true, false_iff]
      omega
    · rename_i hless
      simp only [Option.isSome_some, true_iff]
      omega
  rw [hpieces, List.countP_pos_iff]
  simp [separator]

/-! ## The spellings of a repository -/

def Word (s : String) : Prop := s ≠ "" ∧ ∀ c ∈ s.toList, c ≠ '/' ∧ c ≠ ':'

instance (s : String) : Decidable (Word s) :=
  decidable_of_iff (s ≠ "" ∧ s.toList.all (fun c => c ≠ '/' && c ≠ ':') = true) (by simp [Word])

inductive Scheme where
  | https
  | ssh
  | scp
  deriving DecidableEq, Repr

/-- An address of a repository, with or without the trailing `.git` and the trailing slash. -/
structure Remote where
  scheme : Scheme
  host : String
  owner : String
  repo : String
  dotGit : Bool
  slash : Bool
  word_owner : Word owner
  word_repo : Word repo

def Remote.base (remote : Remote) : String :=
  match remote.scheme with
  | .https => "https://" ++ remote.host ++ "/"
  | .ssh => "ssh://git@" ++ remote.host ++ "/"
  | .scp => "git@" ++ remote.host ++ ":"

/-- The last word of the address. -/
def Remote.word (remote : Remote) : String := remote.repo ++ if remote.dotGit then ".git" else ""

def Remote.url (remote : Remote) : String :=
  remote.base ++ remote.owner ++ "/" ++ remote.word ++ if remote.slash then "/" else ""

theorem Word.separator_eq_false {s : String} (h : Word s) : ∀ c ∈ s.toList, separator c = false := by
  intro c hc
  simp [separator, h.2 c hc]

theorem Remote.word_separator (remote : Remote) : ∀ c ∈ remote.word.toList, separator c = false := by
  intro c hc
  rw [Remote.word, String.toList_append, List.mem_append] at hc
  rcases hc with hc | hc
  · exact remote.word_repo.separator_eq_false c hc
  · have hsuffix : (if remote.dotGit then ".git" else "").toList.all (fun c => !separator c) = true := by
      cases remote.dotGit <;> decide
    simpa using List.all_eq_true.mp hsuffix c hc

theorem Remote.trimEnd_word (remote : Remote) : trimEnd remote.word = trimEnd remote.repo := by
  have hchars : remote.word.toList.rdropWhile gitCutset = remote.repo.toList.rdropWhile gitCutset := by
    rw [Remote.word, String.toList_append]
    cases remote.dotGit with
    | false => simp
    | true =>
        have hgit : (".git" : String).toList = ['.', 'g', 'i', 't'] := rfl
        have hassoc : remote.repo.toList ++ ['.', 'g', 'i', 't'] =
            (((remote.repo.toList ++ ['.']) ++ ['g']) ++ ['i']) ++ ['t'] := by simp
        simp only [if_true, hgit, hassoc]
        repeat rw [List.rdropWhile_concat_pos _ _ _ (by decide)]
  rw [trimEnd, hchars, trimEnd]

/-- Trimming at the front stops before the separator in front of the owner. -/
theorem Remote.dropWhile_base (remote : Remote) :
    ∃ front sep, separator sep = true ∧ ∀ rest,
      (remote.base.toList ++ rest).dropWhile gitCutset = front ++ sep :: rest := by
  cases hscheme : remote.scheme with
  | https =>
      refine ⟨("https://" ++ remote.host).toList, '/', rfl, fun rest => ?_⟩
      simp [Remote.base, hscheme, String.toList_append, gitCutset]
  | ssh =>
      refine ⟨("ssh://git@" ++ remote.host).toList, '/', rfl, fun rest => ?_⟩
      simp [Remote.base, hscheme, String.toList_append, gitCutset]
  | scp =>
      refine ⟨("@" ++ remote.host).toList, ':', rfl, fun rest => ?_⟩
      simp [Remote.base, hscheme, String.toList_append, gitCutset]

/-- The two pieces a key is made of. -/
def Remote.pieces (remote : Remote) : String × String :=
  if remote.slash then (remote.word, "") else (remote.owner, trimEnd remote.repo)

theorem mem_of_mem_rdropWhile {α : Type} {p : α → Bool} {l : List α} {c : α} (hc : c ∈ l.rdropWhile p) : c ∈ l :=
  (List.rdropWhile_prefix p l).subset hc

theorem Remote.getKey_url (remote : Remote) (branch : String) :
    getKey remote.url (some branch) = some (remote.pieces.1 ++ "/" ++ remote.pieces.2 ++ "/" ++ branch) := by
  obtain ⟨front, sep, hsep, hdrop⟩ := remote.dropWhile_base
  have howner := remote.word_owner.separator_eq_false
  have hword := remote.word_separator
  cases hslash : remote.slash with
  | true =>
      have hurl : remote.url.toList =
          remote.base.toList ++ (remote.owner.toList ++ '/' :: (remote.word.toList ++ ['/'])) := by
        simp [Remote.url, hslash, String.toList_append]
      have htrim : (GoStrings.trim remote.url ".git").toList =
          (front ++ sep :: remote.owner.toList) ++ '/' :: (remote.word.toList ++ '/' :: []) := by
        have hassoc : front ++ sep :: (remote.owner.toList ++ '/' :: (remote.word.toList ++ ['/'])) =
            (front ++ sep :: (remote.owner.toList ++ '/' :: remote.word.toList)) ++ '/' :: [] := by simp
        rw [toList_trim, hurl, hdrop, hassoc, rdropWhile_append_cons (by decide)]
        simp
      rw [getKey_of_trim branch htrim (by decide) hword (by simp)]
      simp [Remote.pieces, hslash]
  | false =>
      have hurl : remote.url.toList =
          remote.base.toList ++ (remote.owner.toList ++ '/' :: remote.word.toList) := by
        simp [Remote.url, hslash, String.toList_append]
      have htrim : (GoStrings.trim remote.url ".git").toList =
          front ++ sep :: (remote.owner.toList ++ '/' :: (trimEnd remote.repo).toList) := by
        have hassoc : front ++ sep :: (remote.owner.toList ++ '/' :: remote.word.toList) =
            (front ++ sep :: remote.owner.toList) ++ '/' :: remote.word.toList := by simp
        rw [toList_trim, hurl, hdrop, hassoc, rdropWhile_append_cons (by decide), ← remote.trimEnd_word,
          trimEnd, String.toList_ofList]
        simp
      have hlast : ∀ c ∈ (trimEnd remote.repo).toList, separator c = false := by
        intro c hc
        rw [trimEnd, String.toList_ofList] at hc
        exact remote.word_repo.separator_eq_false c (mem_of_mem_rdropWhile hc)
      rw [getKey_of_trim branch htrim hsep howner hlast]
      simp [Remote.pieces, hslash]

/-! ## When two addresses share a key -/

theorem append_slash_inj {front front' back back' : String} (hfront : '/' ∉ front.toList)
    (hfront' : '/' ∉ front'.toList) :
    front ++ "/" ++ back = front' ++ "/" ++ back' ↔ front = front' ∧ back = back' := by
  have hinj := @GoStrings.append_cons_inj '/' _ _ back.toList back'.toList hfront hfront'
  rw [String.toList_inj, String.toList_inj] at hinj
  rw [← hinj, ← String.toList_inj]
  simp [String.toList_append]

theorem Remote.slash_notMem_pieces (remote : Remote) :
    '/' ∉ remote.pieces.1.toList ∧ '/' ∉ remote.pieces.2.toList := by
  have hfree : ∀ {s : String}, (∀ c ∈ s.toList, separator c = false) → '/' ∉ s.toList :=
    fun h hmem => absurd (h _ hmem) (by decide)
  unfold Remote.pieces
  split
  · exact ⟨hfree remote.word_separator, by simp⟩
  · refine ⟨hfree remote.word_owner.separator_eq_false, hfree fun c hc => ?_⟩
    rw [trimEnd, String.toList_ofList] at hc
    exact remote.word_repo.separator_eq_false c (mem_of_mem_rdropWhile hc)

theorem getKey_url_eq_iff (a b : Remote) (branch branch' : String) :
    getKey a.url (some branch) = getKey b.url (some branch') ↔ a.pieces = b.pieces ∧ branch = branch' := by
  obtain ⟨hfirst, hsecond⟩ := a.slash_notMem_pieces
  obtain ⟨hfirst', hsecond'⟩ := b.slash_notMem_pieces
  rw [a.getKey_url, b.getKey_url, Option.some.injEq]
  have hassoc : ∀ (p : String × String) (branch : String),
      p.1 ++ "/" ++ p.2 ++ "/" ++ branch = p.1 ++ "/" ++ (p.2 ++ "/" ++ branch) := by
    intro p branch
    simp [String.append_assoc]
  rw [hassoc, hassoc, append_slash_inj hfirst hfirst', append_slash_inj hsecond hsecond',
    Prod.ext_iff, and_assoc]

/-- Without trailing slashes the repositories must not differ in their trimmed ends only. With them the owners are
not looked at, and where one address has it and the other has not, they are taken for different repositories
unless the one's last word is the other's owner and nothing is left of the other's repository. -/
def Apart (a b : Remote) : Prop :=
  match a.slash, b.slash with
  | false, false => a.owner = b.owner → trimEnd a.repo = trimEnd b.repo → a.repo = b.repo
  | true, true => a.word = b.word ↔ a.owner = b.owner ∧ a.repo = b.repo
  | true, false => a.word = b.owner ∧ trimEnd b.repo = "" ↔ a.owner = b.owner ∧ a.repo = b.repo
  | false, true => b.word = a.owner ∧ trimEnd a.repo = "" ↔ a.owner = b.owner ∧ a.repo = b.repo

theorem pieces_eq_iff (a b : Remote) :
    (a.pieces = b.pieces ↔ a.owner = b.owner ∧ a.repo = b.repo) ↔ Apart a b := by
  unfold Apart Remote.pieces
  cases ha : a.slash <;> cases hb : b.slash <;> simp only [Bool.false_eq_true, if_true, if_false, Prod.mk.injEq]
  · constructor
    · intro h howner htrim
      exact (h.mp ⟨howner, htrim⟩).2
    · intro h
      constructor
      · exact fun ⟨howner, htrim⟩ => ⟨howner, h howner htrim⟩
      · exact fun ⟨howner, hrepo⟩ => ⟨howner, by rw [hrepo]⟩
  · rw [@eq_comm _ a.owner b.word]
  · rw [@eq_comm _ "" (trimEnd b.repo)]
  · simp

def tigRemote : Remote where
  scheme := .https
  host := "github.com"
  owner := "owner"
  repo := "tig"
  dotGit := false
  slash := false
  word_owner := by decide
  word_repo := by decide

def gitRemote : Remote where
  scheme := .scp
  host := "github.com"
  owner := "owner"
  repo := "git"
  dotGit := true
  slash := false
  word_owner := by decide
  word_repo := by decide

theorem getKey_not_per_repository :
    ¬ (∀ repo branch, (getKey repo (some branch)).isSome) ∧
      ¬ (∀ (a b : Remote) (branch : String), a.owner = b.owner → a.repo = b.repo →
        getKey a.url (some branch) = getKey b.url (some branch)) ∧
      ¬ ∀ (a b : Remote) (branch branch' : String), getKey a.url (some branch) = getKey b.url (some branch') →
        a.owner = b.owner ∧ a.repo = b.repo ∧ branch = branch' := by
  refine ⟨fun h => ?_, fun h => ?_, fun h => ?_⟩
  · have hpanics : (getKey "" (some "main")).isSome = false := by decide
    exact absurd (h "" "main") (by simp [hpanics])
  · have hsame := h gitRemote { gitRemote with slash := true } "main" rfl rfl
    rw [Remote.getKey_url, Remote.getKey_url] at hsame
    exact absurd hsame (by decide)
  · have hkeys : getKey tigRemote.url (some "main") = getKey gitRemote.url (some "main") := by
      rw [Remote.getKey_url, Remote.getKey_url]
      decide
    exact absurd (h tigRemote gitRemote "main" "main" hkeys).2.1 (by decide)

theorem getKey_iff (repo : String) (a b : Remote) (branch branch' : String) :
    ((getKey repo (some branch)).isSome ↔ ∃ c ∈ repo.toList, c = ':' ∨ c = '/') ∧
      ((getKey a.url (some branch) = getKey b.url (some branch') ↔
          a.owner = b.owner ∧ a.repo = b.repo ∧ branch = branch') ↔ branch = branch' → Apart a b) := by
  refine ⟨isSome_getKey_iff repo branch, ?_⟩
  rw [getKey_url_eq_iff, ← pieces_eq_iff]
  by_cases hbranch : branch = branch'
  · simp [hbranch]
  · simp [hbranch]

end LitmusPortal.GitLock
