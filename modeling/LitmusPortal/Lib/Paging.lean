import Mathlib.Data.List.Pairwise
import Mathlib.Data.List.Perm.Lattice
import Mathlib.Data.List.Perm.Subperm
import Mathlib.Data.List.Sort
import Mathlib.Data.Nat.Find

/-!
# Pages of a sorted list

Each page is cut out of the whole list, sorted anew. Entries with equal sort keys may come in another order for each
page. The pages together are the list exactly where no class of equal entries that can be told apart lies across the
border of two pages.
-/

namespace Paging

variable {α β ε : Type}

def page (limit p : ℕ) (xs : List α) : List α := (xs.drop (p * limit)).take limit

structure IsOrder (le : α → α → Bool) : Prop where
  total : ∀ x y, le x y = true ∨ le y x = true
  trans : ∀ x y z, le x y = true → le y z = true → le x z = true

/-- One of the orders in which a sort may deliver the rows. -/
structure Arranges (le : α → α → Bool) (rows arranged : List α) : Prop where
  perm : arranged.Perm rows
  sorted : arranged.Pairwise fun x y => le x y = true

/-- The entries that a sort may swap with `x`. -/
def tied (le : α → α → Bool) (x z : α) : Bool := le z x && le x z

def before (le : α → α → Bool) (rows : List α) (x : α) : ℕ := rows.countP fun z => !le x z

def upTo (le : α → α → Bool) (rows : List α) (x : α) : ℕ := rows.countP fun z => le z x

/-- No border of two pages lies among equal entries that can be told apart by `f`. -/
def Unsplit (le : α → α → Bool) (f : α → β) (limit : ℕ) (rows : List α) : Prop :=
  ∀ x ∈ rows, ∀ y ∈ rows, tied le x y = true →
    (∃ k, before le rows x < k * limit ∧ k * limit < upTo le rows x) → f x = f y

section Counts

variable {le : α → α → Bool} {rows xs : List α}

theorem countP_take {q : α → Bool} (hsorted : xs.Pairwise fun x y => le x y = true)
    (hq : ∀ x y, le x y = true → q y = true → q x = true) (i : ℕ) :
    (xs.take i).countP q = min i (xs.countP q) := by
  induction xs generalizing i with
  | nil => simp
  | cons x xs ih =>
      obtain ⟨hhead, htail⟩ := List.pairwise_cons.mp hsorted
      cases i with
      | zero => simp
      | succ i =>
          rw [List.take_succ_cons, List.countP_cons, List.countP_cons, ih htail]
          cases hx : q x with
          | true =>
              simp only [if_true]
              omega
          | false =>
              have hnone : xs.countP q = 0 := by
                rw [List.countP_eq_zero]
                intro y hy hqy
                rw [hq x y (hhead y hy) hqy] at hx
                cases hx
              simp [hnone]

theorem countP_page {q : α → Bool} (hsorted : xs.Pairwise fun x y => le x y = true)
    (hq : ∀ x y, le x y = true → q y = true → q x = true) (limit p : ℕ) :
    (page limit p xs).countP q = min (p * limit + limit) (xs.countP q) - min (p * limit) (xs.countP q) := by
  have hsplit : (xs.take (p * limit + limit)).countP q = (xs.take (p * limit)).countP q + (page limit p xs).countP q := by
    rw [List.take_add, List.countP_append, page]
  rw [countP_take hsorted hq, countP_take hsorted hq] at hsplit
  omega

theorem before_closed (h : IsOrder le) (x : α) : ∀ y z, le y z = true → (!le x z) = true → (!le x y) = true := by
  intro y z hyz hz
  cases hxy : le x y with
  | false => rfl
  | true =>
      rw [h.trans x y z hxy hyz] at hz
      cases hz

theorem upTo_closed (h : IsOrder le) (x : α) : ∀ y z, le y z = true → le z x = true → le y x = true :=
  fun y z hyz hzx => h.trans y z x hyz hzx

theorem countP_upTo (h : IsOrder le) (x : α) (xs : List α) :
    (xs.countP fun z => le z x) = (xs.countP fun z => !le x z) + xs.countP (tied le x) := by
  induction xs with
  | nil => rfl
  | cons z xs ih =>
      rw [List.countP_cons, List.countP_cons, List.countP_cons, ih, tied]
      cases hxz : le x z with
      | true =>
          cases le z x with
          | true =>
              simp
              omega
          | false => simp
      | false =>
          have hzx : le z x = true := (h.total x z).resolve_left (by rw [hxz]; exact Bool.false_ne_true)
          simp [hzx]
          omega

/-- How many of a class a page has does not depend on the arrangement: none, all, or some, and then a border of the
page lies in the class. -/
theorem countP_tied_page (h : IsOrder le) {arranged : List α} (harranges : Arranges le rows arranged) (limit p : ℕ)
    (x : α) :
    (page limit p arranged).countP (tied le x) =
      (min (p * limit + limit) (upTo le rows x) - min (p * limit) (upTo le rows x)) -
        (min (p * limit + limit) (before le rows x) - min (p * limit) (before le rows x)) := by
  have hupTo := countP_page harranges.sorted (upTo_closed h x) limit p
  have hbefore := countP_page harranges.sorted (before_closed h x) limit p
  rw [harranges.perm.countP_eq] at hupTo hbefore
  have hsplit := countP_upTo h x (page limit p arranged)
  rw [upTo, before]
  omega

theorem border_of_some (h : IsOrder le) {arranged : List α} (harranges : Arranges le rows arranged) {limit p : ℕ}
    {x : α} (hpos : 0 < (page limit p arranged).countP (tied le x))
    (hlt : (page limit p arranged).countP (tied le x) < rows.countP (tied le x)) :
    ∃ k, before le rows x < k * limit ∧ k * limit < upTo le rows x := by
  have hcount := countP_tied_page h harranges limit p x
  have hclass : upTo le rows x = before le rows x + rows.countP (tied le x) := countP_upTo h x rows
  have hnext : (p + 1) * limit = p * limit + limit := Nat.succ_mul p limit
  by_cases hfirst : before le rows x < p * limit ∧ p * limit < upTo le rows x
  · exact ⟨p, hfirst⟩
  · refine ⟨p + 1, ?_⟩
    rw [hnext]
    omega

end Counts

/-! ### Unsplit classes -/

section Sufficient

variable {le : α → α → Bool} {f : α → β} {rows : List α}

theorem page_sublist (limit p : ℕ) (xs : List α) : (page limit p xs).Sublist xs :=
  (List.take_sublist _ _).trans (List.drop_sublist _ _)

theorem tied_self (h : IsOrder le) (x : α) : tied le x x = true := by
  have hself : le x x = true := (h.total x x).elim id id
  rw [tied, hself]
  rfl

/-- A page that has a whole class has it as the rows have it. -/
theorem filter_page_of_le {arranged : List α} (harranges : Arranges le rows arranged) {limit p : ℕ} {x : α}
    (hge : (rows.filter (tied le x)).length ≤ ((page limit p arranged).filter (tied le x)).length) :
    ((page limit p arranged).filter (tied le x)).Perm (rows.filter (tied le x)) := by
  have hclass : (arranged.filter (tied le x)).Perm (rows.filter (tied le x)) := harranges.perm.filter _
  have hsub : ((page limit p arranged).filter (tied le x)).Sublist (arranged.filter (tied le x)) :=
    (page_sublist limit p arranged).filter _
  rw [hsub.eq_of_length_le (hclass.length_eq.trans_le hge)]
  exact hclass

/-- The part of a class that a page has, where the class is unsplit. -/
theorem perm_filter_page (h : IsOrder le) {limit p : ℕ} (hunsplit : Unsplit le f limit rows) {left right : List α}
    (hleft : Arranges le rows left) (hright : Arranges le rows right) {x : α} (hx : x ∈ rows) :
    (((page limit p left).filter (tied le x)).map f).Perm (((page limit p right).filter (tied le x)).map f) := by
  have hlengths : ((page limit p left).filter (tied le x)).length = ((page limit p right).filter (tied le x)).length := by
    rw [← List.countP_eq_length_filter, ← List.countP_eq_length_filter, countP_tied_page h hleft,
      countP_tied_page h hright]
  rcases Nat.lt_or_ge ((page limit p left).filter (tied le x)).length (rows.filter (tied le x)).length with hlt | hge
  · rcases Nat.eq_zero_or_pos ((page limit p left).filter (tied le x)).length with hzero | hpos
    · have hleftNil := List.eq_nil_of_length_eq_zero hzero
      have hrightNil := List.eq_nil_of_length_eq_zero (hlengths.symm.trans hzero)
      rw [hleftNil, hrightNil]
    · rw [← List.countP_eq_length_filter] at hpos hlt
      rw [← List.countP_eq_length_filter] at hlt
      have hborder := border_of_some h hleft hpos hlt
      have hconstant : ∀ arranged, Arranges le rows arranged →
          ∀ b ∈ ((page limit p arranged).filter (tied le x)).map f, b = f x := by
        intro arranged harranges b hb
        obtain ⟨y, hy, rfl⟩ := List.mem_map.mp hb
        obtain ⟨hpage, htied⟩ := List.mem_filter.mp hy
        have hrow := harranges.perm.subset ((page_sublist limit p arranged).subset hpage)
        exact (hunsplit x hx y hrow htied hborder).symm
      rw [List.eq_replicate_of_mem (hconstant left hleft), List.eq_replicate_of_mem (hconstant right hright),
        List.length_map, List.length_map, hlengths]
  · exact ((filter_page_of_le hleft hge).trans (filter_page_of_le hright (hlengths ▸ hge)).symm).map f

theorem tied_symm {x y : α} (h : tied le x y = true) : tied le y x = true := by
  rw [tied, Bool.and_eq_true] at h ⊢
  exact h.symm

theorem tied_trans (h : IsOrder le) {x y z : α} (hxy : tied le x y = true) (hyz : tied le y z = true) :
    tied le x z = true := by
  rw [tied, Bool.and_eq_true] at hxy hyz ⊢
  exact ⟨h.trans z y x hyz.1 hxy.1, h.trans x y z hxy.2 hyz.2⟩

/-- Two lists with the same images class by class have the same images. -/
theorem perm_map_of_classes (h : IsOrder le) (left right : List α)
    (hclasses : ∀ x ∈ left ++ right, ((left.filter (tied le x)).map f).Perm ((right.filter (tied le x)).map f)) :
    (left.map f).Perm (right.map f) := by
  induction hlength : left.length using Nat.strong_induction_on generalizing left right with
  | _ n ih =>
      subst hlength
      cases left with
      | nil =>
          cases right with
          | nil => exact List.Perm.refl _
          | cons y right =>
              have hclass := (hclasses y List.mem_cons_self).length_eq
              rw [List.filter_cons_of_pos (tied_self h y)] at hclass
              simp at hclass
      | cons x left =>
          set others : List α → List α := fun xs => xs.filter fun z => !tied le x z with hothers
          have hparts : ∀ xs : List α, (xs.map f).Perm ((xs.filter (tied le x)).map f ++ (others xs).map f) := by
            intro xs
            rw [← List.map_append]
            exact (List.filter_append_perm _ xs).symm.map f
          have hsmaller : (others (x :: left)).length < (x :: left).length := by
            rw [hothers]
            simp only
            rw [List.filter_cons_of_neg (by simp [tied_self h x]), List.length_cons]
            exact Nat.lt_succ_of_le (List.length_filter_le _ _)
          refine (hparts _).trans (List.Perm.trans ?_ (hparts _).symm)
          refine (hclasses x List.mem_cons_self).append (ih _ hsmaller _ _ ?_ rfl)
          intro y hy
          have hy' : y ∈ x :: left ++ right ∧ tied le x y = false := by
            rw [hothers] at hy
            rcases List.mem_append.mp hy with hy | hy
            · obtain ⟨hmem, hnot⟩ := List.mem_filter.mp hy
              exact ⟨List.mem_append_left _ hmem, by simpa using hnot⟩
            · obtain ⟨hmem, hnot⟩ := List.mem_filter.mp hy
              exact ⟨List.mem_append_right _ hmem, by simpa using hnot⟩
          -- another class than that of `x` is as it was
          have hkept : ∀ xs : List α, (others xs).filter (tied le y) = xs.filter (tied le y) := by
            intro xs
            rw [hothers, List.filter_filter]
            refine List.filter_congr fun z _ => ?_
            cases hyz : tied le y z with
            | false => rfl
            | true =>
                cases hxz : tied le x z with
                | false => rfl
                | true =>
                    have hxy := tied_trans h hxz (tied_symm hyz)
                    rw [hy'.2] at hxy
                    cases hxy
          rw [hkept, hkept]
          exact hclasses y hy'.1

theorem perm_page (h : IsOrder le) {limit : ℕ} (hunsplit : Unsplit le f limit rows) {left right : List α}
    (hleft : Arranges le rows left) (hright : Arranges le rows right) (p : ℕ) :
    ((page limit p left).map f).Perm ((page limit p right).map f) := by
  apply perm_map_of_classes h
  intro x hx
  refine perm_filter_page h hunsplit hleft hright ?_
  rcases List.mem_append.mp hx with hx | hx
  · exact hleft.perm.subset ((page_sublist limit p left).subset hx)
  · exact hright.perm.subset ((page_sublist limit p right).subset hx)

theorem flatMap_page (limit count : ℕ) (xs : List α) :
    ((List.range count).flatMap fun p => page limit p xs) = xs.take (count * limit) := by
  induction count with
  | zero => simp
  | succ count ih =>
      rw [List.range_succ, List.flatMap_append, ih, List.flatMap_singleton, Nat.succ_mul, List.take_add, page]

/-- Entries of an earlier page come before those of a later one, whatever the two arrangements. -/
theorem le_of_mem_pages (h : IsOrder le) {left right : List α} (hleft : Arranges le rows left)
    (hright : Arranges le rows right) {m : ℕ} {x y : α} (hx : x ∈ left.take m) (hy : y ∈ right.drop m) :
    le x y = true := by
  by_contra hnot
  have hq : (!le x y) = true := by simpa using hnot
  have hclosed := before_closed h x
  have hleftCount := countP_take hleft.sorted hclosed m
  have hrightCount := countP_take hright.sorted hclosed m
  rw [hleft.perm.countP_eq] at hleftCount
  rw [hright.perm.countP_eq] at hrightCount
  have hself : ¬(!le x x) = true := by simpa using (h.total x x).elim id id
  have hstrict : (left.take m).countP (fun z => !le x z) < (left.take m).length := by
    refine lt_of_le_of_ne List.countP_le_length fun heq => hself ?_
    exact List.countP_eq_length.mp heq x hx
  have hlength : (left.take m).length ≤ m := List.length_take_le m left
  have hsplit : rows.countP (fun z => !le x z) =
      (right.take m).countP (fun z => !le x z) + (right.drop m).countP (fun z => !le x z) := by
    rw [← hright.perm.countP_eq, ← List.countP_append, List.take_append_drop]
  have hpos : 0 < (right.drop m).countP (fun z => !le x z) := List.countP_pos_iff.mpr ⟨y, hy, hq⟩
  omega

/-- The pages in a row are in order. -/
theorem pairwise_pages (h : IsOrder le) {limit : ℕ} {arrange : ℕ → List α}
    (harrange : ∀ p, Arranges le rows (arrange p)) (count : ℕ) :
    ((List.range count).flatMap fun p => page limit p (arrange p)).Pairwise fun x y => le x y = true := by
  induction count with
  | zero => exact List.Pairwise.nil
  | succ count ih =>
      rw [List.range_succ, List.flatMap_append, List.flatMap_singleton, List.pairwise_append]
      refine ⟨ih, (harrange count).sorted.sublist (page_sublist limit count _), fun x hx y hy => ?_⟩
      obtain ⟨p, hp, hpage⟩ := List.mem_flatMap.mp hx
      have hle : p * limit + limit ≤ count * limit := by
        rw [← Nat.succ_mul]
        exact Nat.mul_le_mul_right limit (List.mem_range.mp hp)
      have htake : x ∈ (arrange p).take (p * limit + limit) := by
        rw [List.take_add]
        exact List.mem_append_right _ hpage
      exact le_of_mem_pages h (harrange p) (harrange count) ((List.take_prefix_take_left hle).subset htake)
        (List.take_subset limit _ hy)

end Sufficient

/-! ### Complete listings -/

structure Answer (β : Type) where
  total : ℕ
  items : List β
  deriving DecidableEq, Repr

def Answer.map {γ : Type} (g : β → γ) (answer : Answer β) : Answer γ := ⟨answer.total, answer.items.map g⟩

/-- The pages up to the last one that is not empty. -/
structure IsListing (order : β → β → Prop) (expected : List β) (answer : ℕ → Except ε (Answer β)) (count : ℕ)
    (pages : ℕ → Answer β) : Prop where
  answers : ∀ p ≤ count, answer p = .ok (pages p)
  totals : ∀ p ≤ count, (pages p).total = expected.length
  nonempty : ∀ p < count, (pages p).items ≠ []
  last : (pages count).items = []
  items : ((List.range count).flatMap fun p => (pages p).items).Perm expected
  ordered : ((List.range count).flatMap fun p => (pages p).items).Pairwise order

def Complete (order : β → β → Prop) (expected : List β) (answer : ℕ → Except ε (Answer β)) : Prop :=
  ∃ count pages, IsListing order expected answer count pages

section Listings

variable {le : α → α → Bool} {f : α → β} {rows : List α} {limit : ℕ} {order : β → β → Prop}

theorem page_eq_nil_iff {p : ℕ} (hlimit : 0 < limit) {arranged : List α} (harranges : Arranges le rows arranged) :
    page limit p arranged = [] ↔ rows.length ≤ p * limit := by
  rw [page, List.take_eq_nil_iff, List.drop_eq_nil_iff, harranges.perm.length_eq]
  exact or_iff_right hlimit.ne'

theorem complete_of_unsplit (h : IsOrder le) (hlimit : 0 < limit)
    (horder : ∀ x y, le x y = true → order (f x) (f y)) (hunsplit : Unsplit le f limit rows)
    {arrange : ℕ → List α} (harrange : ∀ p, Arranges le rows (arrange p)) {answer : ℕ → Except ε (Answer β)}
    (hanswer : ∀ p, answer p = .ok ⟨rows.length, (page limit p (arrange p)).map f⟩) :
    Complete order (rows.map f) answer := by
  have henough : ∃ count, rows.length ≤ count * limit := ⟨rows.length, Nat.le_mul_of_pos_right _ hlimit⟩
  have hall : rows.length ≤ Nat.find henough * limit := Nat.find_spec henough
  refine ⟨Nat.find henough, fun p => ⟨rows.length, (page limit p (arrange p)).map f⟩, fun p _ => hanswer p,
    fun p _ => (List.length_map _).symm, fun p hp => ?_, ?_, ?_, ?_⟩
  · rw [Ne, List.map_eq_nil_iff, page_eq_nil_iff hlimit (harrange p)]
    exact Nat.find_min henough hp
  · rw [List.map_eq_nil_iff, page_eq_nil_iff hlimit (harrange _)]
    exact hall
  · calc
      ((List.range (Nat.find henough)).flatMap fun p => (page limit p (arrange p)).map f).Perm
          ((List.range (Nat.find henough)).flatMap fun p => (page limit p (arrange 0)).map f) :=
        List.Perm.flatMap_left _ fun p _ => perm_page h hunsplit (harrange p) (harrange 0) p
      List.Perm _ ((arrange 0).map f) := by
        rw [← List.map_flatMap, flatMap_page, List.take_of_length_le]
        rw [(harrange 0).perm.length_eq]
        exact hall
      List.Perm _ (rows.map f) := (harrange 0).perm.map f
  · have hpairwise : ((List.range (Nat.find henough)).flatMap fun p => page limit p (arrange p)).Pairwise
        fun x y => le x y = true := pairwise_pages h harrange (Nat.find henough)
    have hmapped := hpairwise.map f fun x y hle => horder x y hle
    rwa [List.map_flatMap] at hmapped

/-! ### A split class shows -/

/-- Where the class of `x` stands in `block`, with what is before it and behind it sorted. -/
def arrangeBlock (le : α → α → Bool) (rows : List α) (x : α) (block : List α) : List α :=
  (rows.filter fun z => !le x z).mergeSort le ++ (block ++ (rows.filter fun z => !le z x).mergeSort le)

theorem arranges_arrangeBlock (h : IsOrder le) {x : α} {block : List α} (hblock : block.Perm (rows.filter (tied le x))) :
    Arranges le rows (arrangeBlock le rows x block) := by
  have htotal : ∀ a b, (le a b || le b a) = true := fun a b => by simpa using h.total a b
  have hbefore : ∀ z ∈ (rows.filter fun z => !le x z).mergeSort le, le z x = true := by
    intro z hz
    rw [List.mem_mergeSort, List.mem_filter] at hz
    exact (h.total x z).resolve_left (by simpa using hz.2)
  have hbehind : ∀ z ∈ (rows.filter fun z => !le z x).mergeSort le, le x z = true := by
    intro z hz
    rw [List.mem_mergeSort, List.mem_filter] at hz
    exact (h.total x z).resolve_right (by simpa using hz.2)
  have hwithin : ∀ z ∈ block, le z x = true ∧ le x z = true := by
    intro z hz
    have htied := (List.mem_filter.mp (hblock.subset hz)).2
    rwa [tied, Bool.and_eq_true] at htied
  constructor
  · have hrest : (block ++ (rows.filter fun z => !le z x).mergeSort le).Perm (rows.filter fun z => le x z) := by
      refine (hblock.append (List.mergeSort_perm _ _)).trans ?_
      have hparts := List.filter_append_perm (fun z => le z x) (rows.filter fun z => le x z)
      rw [List.filter_filter, List.filter_filter] at hparts
      refine List.Perm.trans (List.Perm.append (List.Perm.of_eq ?_) (List.Perm.of_eq ?_)) hparts
      · rfl
      · refine List.filter_congr fun z _ => ?_
        cases hzx : le z x with
        | true => rfl
        | false => simp [(h.total x z).resolve_right (by rw [hzx]; exact Bool.false_ne_true)]
    refine ((List.mergeSort_perm _ _).append hrest).trans (List.perm_append_comm.trans ?_)
    exact List.filter_append_perm (fun z => le x z) rows
  · rw [arrangeBlock, List.pairwise_append, List.pairwise_append]
    refine ⟨List.pairwise_mergeSort h.trans htotal _, ⟨?_, List.pairwise_mergeSort h.trans htotal _, ?_⟩, ?_⟩
    · exact List.pairwise_of_forall_mem_list fun a ha b hb =>
        h.trans a x b (hwithin a ha).1 (hwithin b hb).2
    · exact fun a ha b hb => h.trans a x b (hwithin a ha).1 (hbehind b hb)
    · intro a ha b hb
      refine h.trans a x b (hbefore a ha) ?_
      rcases List.mem_append.mp hb with hb | hb
      · exact (hwithin b hb).2
      · exact hbehind b hb

theorem exists_perm_pair {xs : List α} {x y : α} (hx : x ∈ xs) (hy : y ∈ xs) (hne : x ≠ y) :
    ∃ others, xs.Perm (x :: y :: others) := by
  obtain ⟨front, back, rfl⟩ := List.append_of_mem hx
  have hy' : y ∈ front ++ back := by
    rcases List.mem_append.mp hy with hy | hy
    · exact List.mem_append_left _ hy
    · exact List.mem_append_right _ ((List.mem_cons.mp hy).resolve_left hne.symm)
  obtain ⟨front', back', hsplit⟩ := List.append_of_mem hy'
  refine ⟨front' ++ back', List.perm_middle.trans (List.Perm.cons x ?_)⟩
  rw [hsplit]
  exact List.perm_middle

theorem eq_of_cons_perm_cons {b c : β} {xs : List β} (h : (b :: xs).Perm (c :: xs)) : b = c := by
  classical
  have hcount := h.count_eq b
  rw [List.count_cons_self, List.count_cons] at hcount
  by_contra hne
  rw [if_neg (by simpa using Ne.symm hne)] at hcount
  omega

theorem page_add (k p : ℕ) (xs : List α) : page limit (k + p) xs = page limit p (xs.drop (k * limit)) := by
  rw [page, page, List.drop_drop, Nat.add_mul]

/-- Pages of one arrangement up to the `k`-th, and of another from there on. -/
theorem flatMap_page_switch {left right : List α} {k count : ℕ} (hk : k ≤ count) (hall : right.length ≤ count * limit) :
    ((List.range count).flatMap fun p => page limit p (if p < k then left else right)) =
      left.take (k * limit) ++ right.drop (k * limit) := by
  obtain ⟨more, rfl⟩ := Nat.exists_eq_add_of_le hk
  rw [List.range_add, List.flatMap_append, List.flatMap_map]
  congr 1
  · rw [← flatMap_page limit k left]
    refine List.flatMap_congr fun p hp => ?_
    rw [if_pos (List.mem_range.mp hp)]
  · have hlength : (right.drop (k * limit)).length ≤ more * limit := by
      rw [List.length_drop]
      rw [Nat.add_mul] at hall
      omega
    rw [← List.take_of_length_le hlength, ← flatMap_page limit more]
    refine List.flatMap_congr fun p _ => ?_
    rw [if_neg (by omega), page_add]

/-- What the pages of two arrangements, changed at the `k`-th page, have to agree on. -/
theorem perm_drop_of_complete {answer : (ℕ → List α) → ℕ → Except ε (Answer β)} (hlimit : 0 < limit)
    (hanswer : ∀ arrange p, answer arrange p = .ok ⟨rows.length, (page limit p (arrange p)).map f⟩)
    (hall : ∀ arrange, (∀ p, Arranges le rows (arrange p)) → Complete order (rows.map f) (answer arrange))
    {left right : List α} (hleft : Arranges le rows left) (hright : Arranges le rows right) {k : ℕ}
    (hk : k * limit < rows.length) :
    ((right.drop (k * limit)).map f).Perm ((left.drop (k * limit)).map f) := by
  obtain ⟨count, pages, hlisting⟩ := hall (fun p => if p < k then left else right) fun p => by
    by_cases hp : p < k
    · rwa [if_pos hp]
    · rwa [if_neg hp]
  have hpages : ∀ p ≤ count, (pages p).items = (page limit p (if p < k then left else right)).map f := by
    intro p hp
    have hok := hlisting.answers p hp
    rw [hanswer] at hok
    rw [← Except.ok.inj hok]
  have hend : rows.length ≤ count * limit := by
    have hlast := hlisting.last
    rw [hpages count le_rfl, List.map_eq_nil_iff] at hlast
    by_cases hcount : count < k
    · rw [if_pos hcount] at hlast
      exact (page_eq_nil_iff hlimit hleft).mp hlast
    · rw [if_neg hcount] at hlast
      exact (page_eq_nil_iff hlimit hright).mp hlast
  have hcount : k ≤ count := le_of_lt (Nat.lt_of_mul_lt_mul_right (hk.trans_le hend))
  have hitems : ((List.range count).flatMap fun p => (pages p).items) =
      (left.take (k * limit) ++ right.drop (k * limit)).map f := by
    rw [← flatMap_page_switch hcount (hright.perm.length_eq.trans_le hend), List.map_flatMap]
    exact List.flatMap_congr fun p hp => hpages p (List.mem_range.mp hp).le
  have hperm := hlisting.items
  rw [hitems, List.map_append] at hperm
  have hwhole : (rows.map f).Perm ((left.take (k * limit)).map f ++ (left.drop (k * limit)).map f) := by
    rw [← List.map_append, List.take_append_drop]
    exact hleft.perm.symm.map f
  exact (List.perm_append_left_iff _).mp (hperm.trans hwhole)

theorem drop_arrangeBlock {x y z : α} {others : List α} {k : ℕ} (hclass : others.length + 2 = rows.countP (tied le x))
    (h : IsOrder le) (hbefore : before le rows x < k * limit) (hupTo : k * limit < upTo le rows x) :
    (arrangeBlock le rows x (y :: (others ++ [z]))).drop (k * limit) =
      others.drop (k * limit - before le rows x - 1) ++ z :: (rows.filter fun z => !le z x).mergeSort le := by
  have hlength : ((rows.filter fun z => !le x z).mergeSort le).length = before le rows x := by
    rw [List.length_mergeSort, ← List.countP_eq_length_filter, before]
  have hsum : upTo le rows x = before le rows x + rows.countP (tied le x) := countP_upTo h x rows
  obtain ⟨j, hj⟩ : ∃ j, k * limit = before le rows x + (j + 1) := Nat.exists_eq_add_of_lt hbefore
  have hindex : k * limit - before le rows x - 1 = j := by omega
  have hinside : j ≤ others.length := by omega
  rw [hindex, hj, ← hlength, arrangeBlock, List.drop_length_add_append, List.cons_append, List.drop_succ_cons,
    List.append_assoc, List.drop_append_of_le_length hinside]
  rfl

theorem unsplit_of_complete {answer : (ℕ → List α) → ℕ → Except ε (Answer β)} (h : IsOrder le) (hlimit : 0 < limit)
    (hanswer : ∀ arrange p, answer arrange p = .ok ⟨rows.length, (page limit p (arrange p)).map f⟩)
    (hall : ∀ arrange, (∀ p, Arranges le rows (arrange p)) → Complete order (rows.map f) (answer arrange)) :
    Unsplit le f limit rows := by
  rintro x hx y hy htied ⟨k, hbefore, hupTo⟩
  by_contra hne
  have hxClass : x ∈ rows.filter (tied le x) := List.mem_filter.mpr ⟨hx, tied_self h x⟩
  have hyClass : y ∈ rows.filter (tied le x) := List.mem_filter.mpr ⟨hy, htied⟩
  obtain ⟨others, hothers⟩ := exists_perm_pair hxClass hyClass fun heq => hne (congrArg f heq)
  have hclass : others.length + 2 = rows.countP (tied le x) := by
    rw [List.countP_eq_length_filter, hothers.length_eq]
    rfl
  have hfirst : (x :: (others ++ [y])).Perm (rows.filter (tied le x)) :=
    (List.Perm.cons x (List.perm_append_singleton y others)).trans hothers.symm
  have hsecond : (y :: (others ++ [x])).Perm (rows.filter (tied le x)) :=
    ((List.Perm.cons y (List.perm_append_singleton x others)).trans (List.Perm.swap x y others)).trans hothers.symm
  have hk : k * limit < rows.length := hupTo.trans_le List.countP_le_length
  have hperm := perm_drop_of_complete hlimit hanswer hall (arranges_arrangeBlock h hfirst)
    (arranges_arrangeBlock h hsecond) hk
  rw [drop_arrangeBlock hclass h hbefore hupTo, drop_arrangeBlock hclass h hbefore hupTo, List.map_append,
    List.map_append, List.map_cons, List.map_cons] at hperm
  exact hne (eq_of_cons_perm_cons ((List.perm_append_left_iff _).mp hperm))

/-- Rows of which no two are tied lie apart at every border. -/
theorem unsplit_of_pairwise (h : rows.Pairwise fun x y => tied le x y = false) (f : α → β) (limit : ℕ) :
    Unsplit le f limit rows := by
  intro x hx y hy htied _
  by_contra hne
  have hsymm : Std.Symm fun x y => tied le x y = false := ⟨fun x y hxy => by rwa [tied, Bool.and_comm]⟩
  rw [h.forall hx hy fun heq => hne (congrArg f heq)] at htied
  cases htied

/-! ### Both directions -/

theorem arranges_mergeSort (h : IsOrder le) (rows : List α) : Arranges le rows (rows.mergeSort le) where
  perm := List.mergeSort_perm rows le
  sorted := List.pairwise_mergeSort h.trans (fun x y => by simpa using h.total x y) rows

theorem Complete.congr {expected expected' : List β} {answer : ℕ → Except ε (Answer β)}
    (h : Complete order expected answer) (hperm : expected.Perm expected') : Complete order expected' answer := by
  obtain ⟨count, pages, hlisting⟩ := h
  exact ⟨count, pages, hlisting.answers, fun p hp => (hlisting.totals p hp).trans hperm.length_eq, hlisting.nonempty,
    hlisting.last, hlisting.items.trans hperm, hlisting.ordered⟩

/-- What the pages of one arrangement hold is what is asked for. -/
theorem perm_of_complete {expected : List β} {answer : ℕ → Except ε (Answer β)} (hlimit : 0 < limit) {arranged : List α}
    (harranges : Arranges le rows arranged)
    (hanswer : ∀ p, answer p = .ok ⟨rows.length, (page limit p arranged).map f⟩)
    (hcomplete : Complete order expected answer) : expected.Perm (rows.map f) := by
  obtain ⟨count, pages, hlisting⟩ := hcomplete
  have hpages : ∀ p ≤ count, (pages p).items = (page limit p arranged).map f := by
    intro p hp
    have hok := hlisting.answers p hp
    rw [hanswer] at hok
    rw [← Except.ok.inj hok]
  have hend : rows.length ≤ count * limit := by
    have hlast := hlisting.last
    rw [hpages count le_rfl, List.map_eq_nil_iff] at hlast
    exact (page_eq_nil_iff hlimit harranges).mp hlast
  have hitems : ((List.range count).flatMap fun p => (pages p).items) = arranged.map f := by
    calc
      ((List.range count).flatMap fun p => (pages p).items) =
          (List.range count).flatMap fun p => (page limit p arranged).map f :=
        List.flatMap_congr fun p hp => hpages p (List.mem_range.mp hp).le
      _ = (arranged.take (count * limit)).map f := by rw [← List.map_flatMap, flatMap_page]
      _ = arranged.map f := by rw [List.take_of_length_le (harranges.perm.length_eq.trans_le hend)]
  exact (hlisting.items.symm.trans (List.Perm.of_eq hitems)).trans (harranges.perm.map f)

/-- The listing is complete in every order the sorts may deliver exactly if the rows are what is asked for, and no
border of two pages lies among equal rows. -/
theorem complete_iff (h : IsOrder le) (hlimit : 0 < limit) (horder : ∀ x y, le x y = true → order (f x) (f y))
    {expected : List β} {answer : (ℕ → List α) → ℕ → Except ε (Answer β)}
    (hanswer : ∀ arrange p, answer arrange p = .ok ⟨rows.length, (page limit p (arrange p)).map f⟩) :
    (∀ arrange, (∀ p, Arranges le rows (arrange p)) → Complete order expected (answer arrange)) ↔
      expected.Perm (rows.map f) ∧ Unsplit le f limit rows := by
  constructor
  · intro hall
    have hsorted := arranges_mergeSort h rows
    have hperm : expected.Perm (rows.map f) :=
      perm_of_complete hlimit hsorted (hanswer fun _ => rows.mergeSort le) (hall _ fun _ => hsorted)
    exact ⟨hperm, unsplit_of_complete h hlimit hanswer fun arrange harrange => (hall arrange harrange).congr hperm⟩
  · rintro ⟨hperm, hunsplit⟩ arrange harrange
    exact (complete_of_unsplit h hlimit horder hunsplit harrange (hanswer arrange)).congr hperm.symm

/-- A sort that may answer every query in its own way can deliver any arrangement of the rows. -/
theorem forall_sorts_iff (h : IsOrder le) (rows : List α) {P : (ℕ → List α) → Prop} :
    (∀ sorts : ℕ → List α → List α, (∀ p xs, Arranges le xs (sorts p xs)) → P fun p => sorts p rows) ↔
      ∀ arrange : ℕ → List α, (∀ p, Arranges le rows (arrange p)) → P arrange := by
  classical
  constructor
  · intro hall arrange harrange
    have hsorts := hall (fun p xs => if xs = rows then arrange p else xs.mergeSort le) fun p xs => by
      split
      · rename_i heq
        exact heq ▸ harrange p
      · exact arranges_mergeSort h xs
    simpa only [if_true] using hsorts
  · exact fun hall sorts hsorts => hall _ fun p => hsorts p rows

end Listings

end Paging
