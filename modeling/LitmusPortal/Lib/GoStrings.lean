import Mathlib.Algebra.Group.Int.Defs
import Mathlib.Algebra.Group.Nat.Defs
import Mathlib.Data.List.Infix

/-!
# Strings as Go's standard library handles them

`strings`, `path/filepath` and the single-character classes of `regexp`, on the characters of a
string. On valid UTF-8 the byte-wise search of Go and the character-wise one here find the same
places.
-/

namespace GoStrings

def hasPrefix (s pre : String) : Bool := pre.toList.isPrefixOf s.toList

def hasSuffix (s suf : String) : Bool := suf.toList.isSuffixOf s.toList

def containsChars (sub : List Char) : List Char → Bool
  | [] => sub.isEmpty
  | c :: cs => sub.isPrefixOf (c :: cs) || containsChars sub cs

def contains (s sub : String) : Bool := containsChars sub.toList s.toList

/-- `unicode.ToLower` as far as its result is an ASCII letter: the capital letters, the dotted
capital I and the Kelvin sign. -/
def lowerChar (c : Char) : Char :=
  if 'A' ≤ c ∧ c ≤ 'Z' then Char.ofNat (c.toNat + 32)
  else if c.toNat = 0x130 then 'i'
  else if c.toNat = 0x212A then 'k'
  else c

/-- `strings.ToLower`, for a comparison with or a search of an ASCII word. -/
def toLower (s : String) : String := String.ofList (s.toList.map lowerChar)

/-- The pieces between the characters of a class: `strings.Split` at one character, and
`regexp.Split` at a class of characters. -/
def splitAt (separator : Char → Bool) (s : String) : List String :=
  (s.toList.splitOnP separator).map String.ofList

/-- `skip` counts the characters left of an occurrence that has been replaced. -/
def replaceChars (old new : List Char) : Nat → List Char → List Char
  | _, [] => []
  | skip + 1, _ :: cs => replaceChars old new skip cs
  | 0, c :: cs =>
      if old.isPrefixOf (c :: cs) then new ++ replaceChars old new (old.length - 1) cs
      else c :: replaceChars old new 0 cs

/-- `strings.Replace` of every occurrence of a non-empty word. -/
def replaceAll (s old new : String) : String :=
  String.ofList (replaceChars old.toList new.toList 0 s.toList)

/-- `strings.Trim`: the characters of the cutset are removed at both ends. -/
def trim (s cutset : String) : String :=
  String.ofList (((s.toList.dropWhile cutset.toList.contains).reverse.dropWhile
    cutset.toList.contains).reverse)

/-- The file part of `filepath.Split`: what follows the last slash. -/
def fileOf (path : String) : String :=
  String.ofList ((path.toList.reverse.takeWhile (· ≠ '/')).reverse)

def digits : List Char → Option Nat
  | [] => none
  | c :: cs => (c :: cs).foldlM (fun acc d =>
      if '0' ≤ d ∧ d ≤ '9' then some (10 * acc + (d.toNat - 48)) else none) 0

/-- A decimal integer with an optional sign, of any size. -/
def parseInt (s : String) : Option Int :=
  match s.toList with
  | '-' :: cs => (digits cs).map fun n => -n
  | '+' :: cs => (digits cs).map fun n => n
  | cs => (digits cs).map fun n => n

def minInt : Int := -2 ^ 63

def maxInt : Int := 2 ^ 63 - 1

/-- `strconv.Atoi`, `none` for an error. -/
def atoi (s : String) : Option Int :=
  (parseInt s).filter fun n => minInt ≤ n ∧ n ≤ maxInt

theorem hasPrefix_iff {s pre : String} : hasPrefix s pre = true ↔ pre.toList <+: s.toList :=
  List.isPrefixOf_iff_prefix

theorem containsChars_iff {sub cs : List Char} : containsChars sub cs = true ↔ sub <:+: cs := by
  induction cs with
  | nil => simp [containsChars]
  | cons c cs ih =>
      simp only [containsChars, Bool.or_eq_true, List.isPrefixOf_iff_prefix, ih, List.infix_cons_iff]

theorem contains_iff {s sub : String} : contains s sub = true ↔ sub.toList <:+: s.toList :=
  containsChars_iff

theorem contains_trans {s mid sub : String} (h : contains s mid = true)
    (hmid : contains mid sub = true) : contains s sub = true :=
  contains_iff.mpr ((contains_iff.mp hmid).trans (contains_iff.mp h))

theorem contains_intercalate {separator piece : String} {pieces : List String}
    (h : piece ∈ pieces) : contains (separator.intercalate pieces) piece = true := by
  rw [contains_iff]
  induction pieces with
  | nil => simp at h
  | cons head pieces ih =>
      rcases List.mem_cons.mp h with rfl | h
      · by_cases hnil : pieces = []
        · simp [hnil]
        · rw [String.intercalate_cons_of_ne_nil hnil]
          simp only [String.toList_append, List.append_assoc]
          exact (List.prefix_append _ _).isInfix
      · rw [String.intercalate_cons_of_ne_nil (List.ne_nil_of_mem h)]
        simp only [String.toList_append]
        exact (ih h).trans (List.suffix_append _ _).isInfix

/-! ### Splitting at a character -/

theorem not_mem_of_mem_splitOnP {separator : Char} {cs piece : List Char}
    (h : piece ∈ cs.splitOnP (· = separator)) : separator ∉ piece := by
  induction cs generalizing piece with
  | nil =>
      obtain rfl := List.mem_singleton.mp (List.splitOnP_nil ▸ h)
      exact List.not_mem_nil
  | cons c cs ih =>
      rw [List.splitOnP_cons_eq_if_modifyHead] at h
      split at h
      · rcases List.mem_cons.mp h with rfl | h
        · exact List.not_mem_nil
        · exact ih h
      · rename_i hc
        obtain ⟨head, tail, hsplit⟩ := List.exists_cons_of_ne_nil (List.splitOnP_ne_nil (· = separator) cs)
        rw [hsplit] at h ih
        rcases List.mem_cons.mp h with rfl | h
        · rw [List.mem_cons, not_or]
          exact ⟨fun heq => hc (decide_eq_true heq.symm), ih List.mem_cons_self⟩
        · exact ih (List.mem_cons_of_mem _ h)

theorem not_mem_of_mem_splitAt {separator : Char} {s piece : String} (h : piece ∈ splitAt (· = separator) s) :
    separator ∉ piece.toList := by
  obtain ⟨cs, hcs, rfl⟩ := List.mem_map.mp h
  rw [String.toList_ofList]
  exact not_mem_of_mem_splitOnP hcs

theorem intercalate_splitAt (separator : Char) (s : String) :
    (String.singleton separator).intercalate (splitAt (· = separator) s) = s := by
  rw [← String.toList_inj, String.toList_intercalate, String.toList_singleton, splitAt, List.map_map]
  have hpieces : String.toList ∘ String.ofList = id := by
    funext cs
    exact String.toList_ofList
  rw [hpieces, List.map_id]
  exact List.intercalate_splitOn separator

/-! ### Replacing a word -/

section Replace

variable {old new : List Char}

theorem replaceChars_of_not_infix {cs : List Char} (h : ¬ old <:+: cs) :
    replaceChars old new 0 cs = cs := by
  induction cs with
  | nil => rfl
  | cons c cs ih =>
      rw [List.infix_cons_iff, not_or] at h
      rw [replaceChars, if_neg (by simpa [List.isPrefixOf_iff_prefix] using h.1), ih h.2]

theorem replaceChars_self (h : old ≠ []) : replaceChars old new 0 old = new := by
  have hskip : ∀ cs : List Char, replaceChars old new cs.length cs = [] := by
    intro cs
    induction cs with
    | nil => rfl
    | cons c cs ih => exact ih
  cases old with
  | nil => exact absurd rfl h
  | cons c cs =>
      have hmatch : (c :: cs).isPrefixOf (c :: cs) = true :=
        List.isPrefixOf_iff_prefix.mpr List.prefix_rfl
      rw [replaceChars, if_pos hmatch]
      simpa using hskip cs

theorem prefix_of_prefix_append_cons {c : Char} {left right : List Char} (hc : c ∉ old)
    (h : old <+: left ++ c :: right) : old <+: left := by
  have hleft : left <+: left ++ c :: right := List.prefix_append left _
  rcases Nat.lt_or_ge left.length old.length with hlt | hle
  · obtain ⟨rest, rfl⟩ := List.prefix_of_prefix_length_le hleft h hlt.le
    cases rest with
    | nil => simp
    | cons d rest =>
        obtain ⟨rfl, -⟩ := List.cons_prefix_cons.mp ((List.prefix_append_right_inj left).mp h)
        exact absurd (by simp) hc
  · exact List.prefix_of_prefix_length_le h hleft hle

/-- An occurrence of the word does not run across a character that is not in it. -/
theorem replaceChars_append_cons {c : Char} (hold : old ≠ []) (hc : c ∉ old)
    (left right : List Char) : replaceChars old new 0 (left ++ c :: right) =
      replaceChars old new 0 left ++ c :: replaceChars old new 0 right := by
  have hskip : ∀ (skip : Nat) (left : List Char), skip ≤ left.length →
      replaceChars old new skip (left ++ c :: right) =
        replaceChars old new skip left ++ c :: replaceChars old new 0 right := by
    intro skip left hle
    induction left generalizing skip with
    | nil =>
        obtain rfl : skip = 0 := by simpa using hle
        have hnot : ¬ old.isPrefixOf (c :: right) = true := by
          intro hprefix
          have hnil : old <+: [] :=
            prefix_of_prefix_append_cons hc (List.isPrefixOf_iff_prefix.mp hprefix)
          exact hold (List.prefix_nil.mp hnil)
        simp [replaceChars, hnot]
    | cons d left ih =>
        cases skip with
        | succ skip => exact ih skip (by simpa using hle)
        | zero =>
            rw [List.cons_append, replaceChars, replaceChars]
            by_cases hprefix : old <+: d :: left
            · have hprefix' : old <+: d :: (left ++ c :: right) :=
                hprefix.trans (List.prefix_append (d :: left) _)
              have hlength := hprefix.length_le
              rw [if_pos (List.isPrefixOf_iff_prefix.mpr hprefix'),
                if_pos (List.isPrefixOf_iff_prefix.mpr hprefix), List.append_assoc]
              congr 1
              exact ih _ (by simp only [List.length_cons] at hlength; omega)
            · have hprefix' : ¬ old <+: d :: (left ++ c :: right) := by
                intro h
                have hleft : old <+: d :: left := prefix_of_prefix_append_cons hc h
                exact hprefix hleft
              rw [if_neg (by simpa [List.isPrefixOf_iff_prefix] using hprefix'),
                if_neg (by simpa [List.isPrefixOf_iff_prefix] using hprefix), List.cons_append]
              congr 1
              exact ih 0 (Nat.zero_le _)
  exact hskip 0 left (Nat.zero_le _)

end Replace

theorem replaceAll_of_not_contains {s old : String} (new : String) (h : contains s old = false) :
    replaceAll s old new = s := by
  have hinfix : ¬ old.toList <:+: s.toList := by
    rw [← contains_iff, h]
    simp
  rw [replaceAll, replaceChars_of_not_infix hinfix, String.ofList_toList]

theorem replaceAll_self {old : String} (new : String) (h : old ≠ "") : replaceAll old old new = new := by
  have hnil : old.toList ≠ [] := by simpa using h
  rw [replaceAll, replaceChars_self hnil, String.ofList_toList]

/-- What stands between two characters that the word does not have is replaced on its own. -/
theorem contains_replaceAll {s old word : String} {open' close : Char} (new : String)
    (hne : old ≠ "") (hopen : open' ∉ old.toList) (hclose : close ∉ old.toList)
    (h : open' :: word.toList ++ [close] <:+: s.toList) :
    open' :: (replaceAll word old new).toList ++ [close] <:+: (replaceAll s old new).toList := by
  obtain ⟨left, right, hs⟩ := h
  have hnil : old.toList ≠ [] := by simpa using hne
  have hsplit : s.toList = left ++ open' :: (word.toList ++ close :: right) := by simp [← hs]
  refine ⟨replaceChars old.toList new.toList 0 left, replaceChars old.toList new.toList 0 right, ?_⟩
  simp only [replaceAll, String.toList_ofList, hsplit]
  rw [replaceChars_append_cons hnil hopen, replaceChars_append_cons hnil hclose]
  simp

/-- A text is cut at the first of its separators in one way. -/
theorem append_cons_inj {c : Char} {front front' back back' : List Char} (hfront : c ∉ front)
    (hfront' : c ∉ front') : front ++ c :: back = front' ++ c :: back' ↔ front = front' ∧ back = back' := by
  induction front generalizing front' with
  | nil =>
      cases front' with
      | nil => simp
      | cons d front' =>
          have hc : ¬ c = d := fun hc => hfront' (by rw [hc]; exact List.mem_cons_self)
          simp [hc]
  | cons d front ih =>
      cases front' with
      | nil =>
          have hc : ¬ d = c := fun hc => hfront (by rw [hc]; exact List.mem_cons_self)
          simp [hc]
      | cons e front' =>
          have hrest := @ih front' (fun h => hfront (List.mem_cons_of_mem d h))
            (fun h => hfront' (List.mem_cons_of_mem e h))
          simp [hrest, and_assoc]

/-! ### Reading a number that was written -/

theorem foldlM_digits {cs : List Char} (h : ∀ c ∈ cs, c.isDigit = true) (acc : Nat) :
    cs.foldlM (fun acc d => if '0' ≤ d ∧ d ≤ '9' then some (10 * acc + (d.toNat - 48)) else none) acc =
      some (Nat.ofDigitChars 10 cs acc) := by
  induction cs generalizing acc with
  | nil => simp
  | cons c cs ih =>
      have hdigit : '0' ≤ c ∧ c ≤ '9' := by
        have hc := h c (by simp)
        simpa [Char.isDigit, Char.le_def] using hc
      rw [List.foldlM_cons, if_pos hdigit, Nat.ofDigitChars_cons]
      exact ih (fun d hd => h d (by simp [hd])) _

theorem digits_toDigits (n : Nat) : digits (Nat.toDigits 10 n) = some n := by
  have hdigits : ∀ c ∈ Nat.toDigits 10 n, c.isDigit = true := fun c hc =>
    Nat.isDigit_of_mem_toDigits (by decide) (by decide) hc
  cases htext : Nat.toDigits 10 n with
  | nil => exact absurd htext Nat.toDigits_ne_nil
  | cons c cs =>
      rw [htext] at hdigits
      rw [digits, foldlM_digits hdigits, ← htext, Nat.ofDigitChars_ten_toDigits]

theorem parseInt_toString (n : Int) : parseInt (toString n) = some n := by
  cases n with
  | ofNat n =>
      have htext : (toString (Int.ofNat n)).toList = Nat.toDigits 10 n := by
        change (Nat.repr n).toList = _
        simp [Nat.repr_eq_ofList_toDigits]
      have hdigits : ∀ c ∈ Nat.toDigits 10 n, c.isDigit = true := fun c hc =>
        Nat.isDigit_of_mem_toDigits (by decide) (by decide) hc
      have hread := digits_toDigits n
      unfold parseInt
      rw [htext]
      cases hcs : Nat.toDigits 10 n with
      | nil => exact absurd hcs Nat.toDigits_ne_nil
      | cons c cs =>
          rw [hcs] at hdigits hread
          have hc := hdigits c (by simp)
          have hminus : c ≠ '-' := by
            rintro rfl
            exact absurd hc (by decide)
          have hplus : c ≠ '+' := by
            rintro rfl
            exact absurd hc (by decide)
          simp [hminus, hplus, hread]
  | negSucc n =>
      have htext : (toString (Int.negSucc n)).toList = '-' :: Nat.toDigits 10 (n + 1) := by
        change ("-" ++ Nat.repr (n + 1)).toList = _
        simp [Nat.repr_eq_ofList_toDigits]
      unfold parseInt
      rw [htext]
      simp [digits_toDigits, Int.negSucc_eq]

theorem atoi_toString {n : Int} (h : minInt ≤ n ∧ n ≤ maxInt) : atoi (toString n) = some n := by
  rw [atoi, parseInt_toString, Option.filter_some, if_pos (by simpa using h)]

/-! ### Numerals in order -/

theorem append_lt_append_iff {xs ys xs' ys' : List Char} (h : xs.length = ys.length) :
    xs ++ xs' < ys ++ ys' ↔ xs < ys ∨ xs = ys ∧ xs' < ys' := by
  induction xs generalizing ys with
  | nil =>
      obtain rfl := List.length_eq_zero_iff.mp h.symm
      simp
  | cons head xs ih =>
      cases ys with
      | nil => cases h
      | cons head' ys =>
          rw [List.cons_append, List.cons_append, List.cons_lt_cons_iff, List.cons_lt_cons_iff,
            ih (Nat.succ.inj h), List.cons.injEq]
          tauto

theorem digitChar_lt_iff {m n : ℕ} (hm : m < 10) (hn : n < 10) : m.digitChar < n.digitChar ↔ m < n := by
  have h : ∀ i j : Fin 10, (i : ℕ).digitChar < (j : ℕ).digitChar ↔ (i : ℕ) < j := by decide
  exact h ⟨m, hm⟩ ⟨n, hn⟩

theorem toDigits_injective : Function.Injective (Nat.toDigits 10) := by
  intro m n h
  rw [← @Nat.ofDigitChars_ten_toDigits m, h, Nat.ofDigitChars_ten_toDigits]

theorem toDigits_lt_iff {m n : ℕ} (h : (Nat.toDigits 10 m).length = (Nat.toDigits 10 n).length) :
    Nat.toDigits 10 m < Nat.toDigits 10 n ↔ m < n := by
  induction m using Nat.strong_induction_on generalizing n with
  | h m ih =>
      by_cases hm : m < 10
      · have hn : n < 10 := by
          have hle : (Nat.toDigits 10 n).length ≤ 1 := by
            rw [← h, Nat.toDigits_of_lt_base hm]
            exact Nat.le_refl 1
          exact (Nat.length_toDigits_le_iff (by decide) (by decide)).mp hle
        rw [Nat.toDigits_of_lt_base hm, Nat.toDigits_of_lt_base hn, List.cons_lt_cons_iff]
        simp [digitChar_lt_iff hm hn]
      · have hn : ¬ n < 10 := by
          intro hn
          have hle : (Nat.toDigits 10 m).length ≤ 1 := by
            rw [h, Nat.toDigits_of_lt_base hn]
            exact Nat.le_refl 1
          exact hm ((Nat.length_toDigits_le_iff (by decide) (by decide)).mp hle)
        have hm' := Nat.not_lt.mp hm
        have hn' := Nat.not_lt.mp hn
        rw [Nat.toDigits_of_base_le (by decide) hm', Nat.toDigits_of_base_le (by decide) hn'] at h ⊢
        have hprefix : (Nat.toDigits 10 (m / 10)).length = (Nat.toDigits 10 (n / 10)).length := by
          simpa using h
        have hlast : [(m % 10).digitChar] < [(n % 10).digitChar] ↔ m % 10 < n % 10 := by
          simp [List.cons_lt_cons_iff, digitChar_lt_iff (Nat.mod_lt m (by decide)) (Nat.mod_lt n (by decide))]
        rw [append_lt_append_iff hprefix, ih (m / 10) (by omega) hprefix, toDigits_injective.eq_iff, hlast]
        omega

theorem length_toDigits {n k : ℕ} (hlower : 10 ^ k ≤ n) (hupper : n < 10 ^ (k + 1)) :
    (Nat.toDigits 10 n).length = k + 1 := by
  have hle := (Nat.length_toDigits_le_iff (by decide) (Nat.succ_pos k)).mpr hupper
  have hlt : ¬ (Nat.toDigits 10 n).length ≤ k := by
    intro h
    cases k with
    | zero => exact Nat.toDigits_ne_nil (List.length_eq_zero_iff.mp (Nat.le_zero.mp h))
    | succ k =>
        exact absurd ((Nat.length_toDigits_le_iff (by decide) (Nat.succ_pos k)).mp h) (Nat.not_lt.mpr hlower)
  omega

theorem toString_le_iff {m n : Int} {k : ℕ} (hm : 10 ^ k ≤ m ∧ m < 10 ^ (k + 1))
    (hn : 10 ^ k ≤ n ∧ n < 10 ^ (k + 1)) : toString m ≤ toString n ↔ m ≤ n := by
  have hpow : (0 : Int) ≤ 10 ^ k := by exact_mod_cast Nat.zero_le (10 ^ k)
  obtain ⟨m, rfl⟩ := Int.eq_ofNat_of_zero_le (Int.le_trans hpow hm.1)
  obtain ⟨n, rfl⟩ := Int.eq_ofNat_of_zero_le (Int.le_trans hpow hn.1)
  have hlength : (Nat.toDigits 10 n).length = k + 1 :=
    length_toDigits (by exact_mod_cast hn.1) (by exact_mod_cast hn.2)
  have hlength' : (Nat.toDigits 10 m).length = k + 1 :=
    length_toDigits (by exact_mod_cast hm.1) (by exact_mod_cast hm.2)
  have htext : ∀ n : ℕ, (toString (n : Int)).toList = Nat.toDigits 10 n := fun n => Nat.toList_repr
  rw [← String.not_lt, String.lt_iff, htext, htext, toDigits_lt_iff (hlength.trans hlength'.symm), Nat.not_lt,
    Int.ofNat_le]

example : splitAt (· = '.') "2.6.0" = ["2", "6", "0"] := by decide

example : replaceAll "pod-delete.yaml" ".yaml" "" = "pod-delete" := by decide

example : trim "github.com/org/repo.git" ".git" = "hub.com/org/repo" := by decide

example : fileOf "litmus/project/pod-delete.yaml" = "pod-delete.yaml" := by decide

end GoStrings
