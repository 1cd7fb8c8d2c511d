import Mathlib.Data.List.Induction
import Mathlib.Data.List.Nodup
import Mathlib.Data.List.Perm.Basic

/-!
# Removing noted positions

Positions of a list are noted one after the other, and then removed from the first to the last, each moved down by the
number that it was noted under. When they were noted in ascending order, this leaves just the other items.
-/

namespace Removal

variable {α : Type}

/-! ### The positions of an item -/

section Positions

variable [DecidableEq α]

def positions (xs : List α) (x : α) : List ℕ := (xs.zipIdx.filter fun item => item.1 = x).map Prod.snd

theorem positions_append_singleton (xs : List α) (x y : α) :
    positions (xs ++ [y]) x = positions xs x ++ if y = x then [xs.length] else [] := by
  rw [positions, List.zipIdx_append, List.filter_append, List.map_append, positions]
  by_cases hy : y = x <;> simp [hy]

theorem mem_positions {xs : List α} {x : α} {i : ℕ} : i ∈ positions xs x ↔ xs[i]? = some x := by
  simp only [positions, List.mem_map, List.mem_filter, decide_eq_true_eq, Prod.exists, exists_eq_right,
    List.mem_zipIdx_iff_getElem?]

theorem positions_lt {xs : List α} {x : α} {i : ℕ} (h : i ∈ positions xs x) : i < xs.length :=
  (List.getElem?_eq_some_iff.mp (mem_positions.mp h)).1

theorem positions_ascend (xs : List α) (x : α) : (positions xs x).Pairwise (· < ·) := by
  induction xs using List.reverseRecOn with
  | nil => exact .nil
  | append_singleton xs y ih =>
      rw [positions_append_singleton]
      refine List.pairwise_append.mpr ⟨ih, by split <;> simp, fun i hi j hj => ?_⟩
      have hlt := positions_lt hi
      split at hj
      · rwa [List.mem_singleton.mp hj]
      · exact absurd hj List.not_mem_nil

theorem positions_eq_nil_iff {xs : List α} {x : α} : positions xs x = [] ↔ x ∉ xs := by
  rw [List.eq_nil_iff_forall_not_mem]
  constructor
  · intro h hx
    obtain ⟨i, hi⟩ := List.mem_iff_getElem?.mp hx
    exact h i (mem_positions.mpr hi)
  · exact fun hx i hi => hx (List.mem_of_getElem? (mem_positions.mp hi))

/-- The later positions are those with the item before them. -/
theorem mem_tail_positions {xs : List α} {x : α} {i : ℕ} :
    i ∈ (positions xs x).tail ↔ xs[i]? = some x ∧ x ∈ xs.take i := by
  induction xs using List.reverseRecOn with
  | nil => simp [positions]
  | append_singleton xs y ih =>
      rw [positions_append_singleton]
      rcases Nat.lt_trichotomy i xs.length with hi | rfl | hi
      · have hleft : (xs ++ [y])[i]? = xs[i]? := List.getElem?_append_left hi
        rw [hleft, List.take_append_of_le_length (Nat.le_of_lt hi), ← ih]
        cases hfirst : positions xs x with
        | nil =>
            split
            · simp
            · simp
        | cons f rest =>
            split
            · simp only [List.cons_append, List.tail_cons, List.mem_append, List.mem_singleton]
              exact or_iff_left (by omega)
            · simp
      · have hlast : (xs ++ [y])[xs.length]? = some y := by simp
        rw [hlast, List.take_left]
        have hnot : xs.length ∉ (positions xs x).tail := fun hmem =>
          absurd (positions_lt (List.mem_of_mem_tail hmem)) (by omega)
        cases hfirst : positions xs x with
        | nil =>
            have hx := positions_eq_nil_iff.mp hfirst
            split <;> simp [hx]
        | cons f rest =>
            have hx : x ∈ xs := List.mem_of_getElem? (mem_positions.mp (hfirst ▸ List.mem_cons_self))
            rw [hfirst] at hnot
            by_cases hy : y = x
            · simp [hy, hx]
            · simpa [hy] using hnot
      · have hnone : (xs ++ [y])[i]? = none := List.getElem?_eq_none (by simpa using Nat.succ_le_of_lt hi)
        rw [hnone]
        simp only [reduceCtorEq, false_and, iff_false]
        intro hmem
        have hmem : i ∈ positions xs x ++ if y = x then [xs.length] else [] := List.mem_of_mem_tail hmem
        rw [← positions_append_singleton] at hmem
        have hlt := positions_lt hmem
        rw [List.length_append, List.length_singleton] at hlt
        omega

end Positions

/-! ### Noting positions -/

def note (noted : List ℕ) (i : ℕ) : List ℕ := if i ∈ noted then noted else noted ++ [i]

theorem mem_foldl_note {noted is : List ℕ} {i : ℕ} : i ∈ is.foldl note noted ↔ i ∈ noted ∨ i ∈ is := by
  induction is generalizing noted with
  | nil => simp
  | cons j is ih =>
      rw [List.foldl_cons, ih, List.mem_cons, note]
      split
      · next hj => exact ⟨fun h => h.imp_right .inr, fun h => h.elim .inl fun h => h.elim (fun h => .inl (h ▸ hj)) .inr⟩
      · rw [List.mem_append, List.mem_singleton, or_assoc]

theorem nodup_foldl_note {noted is : List ℕ} (h : noted.Nodup) : (is.foldl note noted).Nodup := by
  induction is generalizing noted with
  | nil => exact h
  | cons j is ih =>
      rw [List.foldl_cons, note]
      split
      · exact ih h
      · next hj => exact ih (h.append (List.nodup_singleton j) (by simpa using hj))

/-! ### What is left -/

def without (noted : List ℕ) (xs : List α) : List α :=
  xs.zipIdx.filterMap fun item => if item.2 ∈ noted then none else some item.1

def remaining (noted : List ℕ) (n : ℕ) : List ℕ := (List.range n).filter (· ∉ noted)

theorem without_append_singleton (noted : List ℕ) (xs : List α) (x : α) :
    without noted (xs ++ [x]) = without noted xs ++ if xs.length ∈ noted then [] else [x] := by
  rw [without, List.zipIdx_append, List.filterMap_append, without]
  by_cases hx : xs.length ∈ noted <;> simp [hx]

theorem remaining_succ (noted : List ℕ) (n : ℕ) :
    remaining noted (n + 1) = remaining noted n ++ if n ∈ noted then [] else [n] := by
  rw [remaining, List.range_succ, List.filter_append, remaining]
  by_cases hn : n ∈ noted <;> simp [hn]

theorem lt_of_mem_remaining {noted : List ℕ} {n i : ℕ} (h : i ∈ remaining noted n) : i < n :=
  List.mem_range.mp (List.mem_filter.mp h).1

theorem length_without (noted : List ℕ) (xs : List α) :
    (without noted xs).length = (remaining noted xs.length).length := by
  induction xs using List.reverseRecOn with
  | nil => rfl
  | append_singleton xs x ih =>
      have hsize : (xs ++ [x]).length = xs.length + 1 := by simp
      rw [without_append_singleton, hsize, remaining_succ, List.length_append, List.length_append, ih]
      split <;> rfl

theorem getElem?_without (noted : List ℕ) (xs : List α) (r : ℕ) :
    (without noted xs)[r]? = (remaining noted xs.length)[r]?.bind (xs[·]?) := by
  induction xs using List.reverseRecOn with
  | nil => rfl
  | append_singleton xs x ih =>
      have hold : ((remaining noted xs.length)[r]?.bind fun i => (xs ++ [x])[i]?) =
          (remaining noted xs.length)[r]?.bind (xs[·]?) := by
        cases hr : (remaining noted xs.length)[r]? with
        | none => rfl
        | some i => exact List.getElem?_append_left (lt_of_mem_remaining (List.mem_of_getElem? hr))
      have hlength := length_without noted xs
      have hsize : (xs ++ [x]).length = xs.length + 1 := by simp
      rw [without_append_singleton, hsize, remaining_succ]
      rcases Nat.lt_or_ge r (without noted xs).length with hr | hr
      · rw [List.getElem?_append_left hr, List.getElem?_append_left (by omega), hold, ih]
      · rw [List.getElem?_append_right hr, List.getElem?_append_right (by omega), hlength]
        split
        · simp
        · cases r - (remaining noted xs.length).length <;> simp

/-- An ascending position has as many before it as it was noted under. -/
theorem add_length_remaining {noted : List ℕ} (h : noted.Pairwise (· < ·)) {p i : ℕ} (hi : noted[p]? = some i) :
    p + (remaining noted i).length = i := by
  obtain ⟨hp, rfl⟩ := List.getElem?_eq_some_iff.mp hi
  have hbefore : ((List.range noted[p]).filter (· ∈ noted)).Perm (noted.take p) := by
    refine (List.perm_ext_iff_of_nodup (List.nodup_range.filter _) ?_).mpr fun j => ?_
    · exact (h.sublist (List.take_sublist p noted)).imp Nat.ne_of_lt
    · rw [List.mem_filter, List.mem_range, decide_eq_true_eq, List.mem_take_iff_getElem]
      constructor
      · rintro ⟨hj, hmem⟩
        obtain ⟨q, hq, rfl⟩ := List.mem_iff_getElem.mp hmem
        refine ⟨q, ?_, rfl⟩
        have hle : q < p := by
          by_contra hnot
          rcases Nat.lt_or_eq_of_le (Nat.not_lt.mp hnot) with hlt | rfl
          · exact absurd (List.pairwise_iff_getElem.mp h p q hp hq hlt) (by omega)
          · omega
        omega
      · rintro ⟨q, hq, rfl⟩
        have hqp : q < p := by omega
        exact ⟨List.pairwise_iff_getElem.mp h q p (by omega) hp hqp, List.getElem_mem _⟩
  have hcount := List.length_eq_length_filter_add (l := List.range noted[p]) fun j => decide (j ∈ noted)
  have hlength := hbefore.length_eq
  rw [List.length_take] at hlength
  have hnot : remaining noted noted[p] = (List.range noted[p]).filter fun j => !decide (j ∈ noted) := by
    simp [remaining]
  rw [hnot]
  rw [List.length_range] at hcount
  omega

/-! ### Removing them -/

/-- What a list is when the noted positions below `j` have been removed. -/
def removing (noted : List ℕ) (xs : List α) (j : ℕ) : List α := without noted (xs.take j) ++ xs.drop j

theorem removing_zero (noted : List ℕ) (xs : List α) : removing noted xs 0 = xs := by
  rw [removing, List.take_zero, List.drop_zero]
  exact List.nil_append xs

theorem removing_length (noted : List ℕ) (xs : List α) : removing noted xs xs.length = without noted xs := by
  rw [removing, List.take_length, List.drop_length, List.append_nil]

theorem without_take_succ (noted : List ℕ) {xs : List α} {j : ℕ} {x : α} (hx : xs[j]? = some x) :
    without noted (xs.take (j + 1)) = without noted (xs.take j) ++ if j ∈ noted then [] else [x] := by
  have hj : j < xs.length := (List.getElem?_eq_some_iff.mp hx).1
  have htake : (xs.take j).length = j := by
    rw [List.length_take]
    omega
  have hsucc : xs.take (j + 1) = xs.take j ++ [x] := by
    rw [List.take_add_one, hx]
    rfl
  rw [hsucc, without_append_singleton, htake]

theorem removing_succ_of_notMem {noted : List ℕ} {xs : List α} {j : ℕ} (hj : j < xs.length) (hnot : j ∉ noted) :
    removing noted xs (j + 1) = removing noted xs j := by
  have hx : xs[j]? = some xs[j] := List.getElem?_eq_getElem hj
  rw [removing, without_take_succ noted hx, if_neg hnot, List.append_assoc, removing]
  apply congrArg
  rw [List.drop_eq_getElem_cons hj]
  rfl

theorem length_removing {noted : List ℕ} (h : noted.Pairwise (· < ·)) {p j : ℕ} (hp : noted[p]? = some j)
    {xs : List α} (hj : j < xs.length) : (removing noted xs j).length = xs.length - p := by
  have hcount := add_length_remaining h hp
  have htake : (xs.take j).length = j := by
    rw [List.length_take]
    omega
  rw [removing, List.length_append, length_without, htake, List.length_drop]
  omega

theorem eraseIdx_removing {noted : List ℕ} (h : noted.Pairwise (· < ·)) {p j : ℕ} (hp : noted[p]? = some j)
    {xs : List α} (hj : j < xs.length) : (removing noted xs j).eraseIdx (j - p) = removing noted xs (j + 1) := by
  have hcount := add_length_remaining h hp
  have htake : (xs.take j).length = j := by
    rw [List.length_take]
    omega
  have hlength : (without noted (xs.take j)).length = j - p := by
    rw [length_without, htake]
    omega
  have hx : xs[j]? = some xs[j] := List.getElem?_eq_getElem hj
  calc
    (removing noted xs j).eraseIdx (j - p) = without noted (xs.take j) ++ (xs.drop j).eraseIdx 0 := by
      rw [removing, List.eraseIdx_append_of_length_le (by omega), hlength, Nat.sub_self]
    _ = without noted (xs.take j) ++ xs.drop (j + 1) := by
      rw [List.drop_eq_getElem_cons hj]
      rfl
    _ = removing noted xs (j + 1) := by
      rw [removing, without_take_succ noted hx, if_pos (List.mem_of_getElem? hp), List.append_nil]

/-! ### Numbers of the noted positions -/

theorem lookup_zipIdx (noted : List ℕ) (k i : ℕ) :
    (noted.zipIdx k).lookup i = if i ∈ noted then some (noted.idxOf i + k) else none := by
  induction noted generalizing k with
  | nil => rfl
  | cons j noted ih =>
      rw [List.zipIdx_cons]
      by_cases hj : i = j
      · subst hj
        simp
      · have hne : (i == j) = false := by simpa using hj
        rw [List.lookup_cons, hne, ih, List.idxOf_cons_ne _ (Ne.symm hj)]
        simp only [List.mem_cons, hj, false_or]
        split
        · exact congrArg some (by omega)
        · rfl

theorem lookup_zipIdx_eq_some {noted : List ℕ} (h : noted.Nodup) {p i : ℕ} (hp : noted[p]? = some i) :
    noted.zipIdx.lookup i = some p := by
  obtain ⟨hlt, rfl⟩ := List.getElem?_eq_some_iff.mp hp
  rw [lookup_zipIdx, if_pos (List.getElem_mem hlt), h.idxOf_getElem]
  rfl

theorem lookup_zipIdx_eq_none {noted : List ℕ} {i : ℕ} (h : i ∉ noted) : noted.zipIdx.lookup i = none := by
  rw [lookup_zipIdx, if_neg h]

theorem note_zipIdx (noted : List ℕ) (i : ℕ) :
    (note noted i).zipIdx =
      if (noted.zipIdx.lookup i).isSome then noted.zipIdx else noted.zipIdx ++ [(i, noted.zipIdx.length)] := by
  rw [lookup_zipIdx, note]
  by_cases hi : i ∈ noted
  · simp [hi]
  · simp [hi, List.zipIdx_append]

/-! ### First positions -/

theorem mem_remaining {noted : List ℕ} {n i : ℕ} : i ∈ remaining noted n ↔ i < n ∧ i ∉ noted := by
  rw [remaining, List.mem_filter, List.mem_range, decide_eq_true_eq]

theorem mem_without {noted : List ℕ} {xs : List α} {x : α} :
    x ∈ without noted xs ↔ ∃ i, xs[i]? = some x ∧ i ∉ noted := by
  constructor
  · intro hx
    obtain ⟨r, hr⟩ := List.mem_iff_getElem?.mp hx
    rw [getElem?_without] at hr
    obtain ⟨i, hi, hat⟩ := Option.bind_eq_some_iff.mp hr
    exact ⟨i, hat, (mem_remaining.mp (List.mem_of_getElem? hi)).2⟩
  · rintro ⟨i, hat, hi⟩
    have hlt := (List.getElem?_eq_some_iff.mp hat).1
    obtain ⟨r, hr⟩ := List.mem_iff_getElem?.mp (mem_remaining.mpr ⟨hlt, hi⟩)
    refine List.mem_of_getElem? (?_ : (without noted xs)[r]? = some x)
    rw [getElem?_without, hr]
    exact hat

theorem remaining_ascend (noted : List ℕ) (n : ℕ) : (remaining noted n).Pairwise (· < ·) :=
  List.pairwise_lt_range.filter _

/-- What stands only once among the items that are left is at its first position there. -/
theorem tail_positions_without [DecidableEq α] {noted : List ℕ} {xs : List α} {x : α}
    (h : ∀ i j, xs[i]? = some x → xs[j]? = some x → i ∉ noted → j ∉ noted → i = j) :
    (positions (without noted xs) x).tail = [] := by
  rw [List.eq_nil_iff_forall_not_mem]
  intro r hr
  obtain ⟨hat, htake⟩ := mem_tail_positions.mp hr
  obtain ⟨q, hq, hbefore⟩ := List.mem_take_iff_getElem.mp htake
  have hat' : (without noted xs)[q]? = some x := List.getElem?_eq_some_iff.mpr ⟨by omega, hbefore⟩
  rw [getElem?_without] at hat hat'
  obtain ⟨i, hi, hxi⟩ := Option.bind_eq_some_iff.mp hat
  obtain ⟨j, hj, hxj⟩ := Option.bind_eq_some_iff.mp hat'
  have heq := h i j hxi hxj (mem_remaining.mp (List.mem_of_getElem? hi)).2 (mem_remaining.mp (List.mem_of_getElem? hj)).2
  obtain ⟨hr, rfl⟩ := List.getElem?_eq_some_iff.mp hi
  obtain ⟨hq', rfl⟩ := List.getElem?_eq_some_iff.mp hj
  have hlt := List.pairwise_iff_getElem.mp (remaining_ascend noted xs.length) q r hq' hr (by omega)
  omega

/-- Nothing is removed from what is appended. -/
theorem remaining_add {noted : List ℕ} {n : ℕ} (h : ∀ i ∈ noted, i < n) (m : ℕ) :
    remaining noted (n + m) = remaining noted n ++ (List.range m).map (n + ·) := by
  rw [remaining, List.range_add, List.filter_append, remaining]
  apply congrArg
  refine List.filter_eq_self.mpr fun i hi => ?_
  obtain ⟨k, -, rfl⟩ := List.mem_map.mp hi
  exact decide_eq_true fun hmem => absurd (h _ hmem) (by omega)

theorem without_append {noted : List ℕ} {xs : List α} (h : ∀ i ∈ noted, i < xs.length) (ys : List α) :
    without noted (xs ++ ys) = without noted xs ++ ys := by
  induction ys using List.reverseRecOn with
  | nil => rw [List.append_nil, List.append_nil]
  | append_singleton ys y ih =>
      have hnot : (xs ++ ys).length ∉ noted := fun hmem => by
        have hlt := h _ hmem
        rw [List.length_append] at hlt
        omega
      rw [← List.append_assoc, without_append_singleton, ih, if_neg hnot, List.append_assoc]

theorem without_sublist (noted : List ℕ) (xs : List α) : (without noted xs).Sublist xs := by
  induction xs using List.reverseRecOn with
  | nil => exact .slnil
  | append_singleton xs x ih =>
      rw [without_append_singleton]
      refine ih.append ?_
      split
      · exact List.nil_sublist _
      · exact List.Sublist.refl _

theorem nodup_without {noted : List ℕ} {xs : List α}
    (h : ∀ i x, xs[i]? = some x → x ∈ xs.take i → i ∈ noted) : (without noted xs).Nodup := by
  induction xs using List.reverseRecOn with
  | nil => exact .nil
  | append_singleton xs x ih =>
      have hnodup : (without noted xs).Nodup := by
        refine ih fun i y hy htake => ?_
        have hlt : i < xs.length := (List.getElem?_eq_some_iff.mp hy).1
        refine h i y (by rw [List.getElem?_append_left hlt, hy]) ?_
        rwa [List.take_append_of_le_length (by omega)]
      rw [without_append_singleton]
      split
      · rwa [List.append_nil]
      · next hlast =>
          refine hnodup.append (List.nodup_singleton x) ?_
          rw [List.disjoint_singleton]
          intro hmem
          refine hlast (h xs.length x (by simp) ?_)
          rw [List.take_left]
          exact (without_sublist noted xs).mem hmem

section Firsts

variable [DecidableEq α]

/-- The positions whose item does not stand before them. -/
def firsts (xs : List α) : List ℕ := (List.range xs.length).filter fun i => xs[i]?.all (· ∉ xs.take i)

theorem remaining_eq_firsts {noted : List ℕ} {xs : List α}
    (h : ∀ i, i ∈ noted ↔ ∃ x, xs[i]? = some x ∧ x ∈ xs.take i) : remaining noted xs.length = firsts xs := by
  refine List.filter_congr fun i _ => ?_
  rw [Bool.eq_iff_iff, decide_eq_true_eq, h]
  cases xs[i]? with
  | none => simp
  | some x => simp

/-- The positions that are not first ones. -/
def laters (xs : List α) : List ℕ := (List.range xs.length).filter fun i => !xs[i]?.all (· ∉ xs.take i)

theorem mem_laters {xs : List α} {i : ℕ} : i ∈ laters xs ↔ ∃ x, xs[i]? = some x ∧ x ∈ xs.take i := by
  rw [laters, List.mem_filter, List.mem_range]
  cases hx : xs[i]? with
  | none => simp
  | some x => simp [(List.getElem?_eq_some_iff.mp hx).1]

theorem length_firsts_add_laters (xs : List α) : (firsts xs).length + (laters xs).length = xs.length := by
  have hsplit := List.length_eq_length_filter_add (l := List.range xs.length) fun i => xs[i]?.all (· ∉ xs.take i)
  rw [List.length_range] at hsplit
  exact hsplit.symm

theorem subperm_laters {noted : List ℕ} {xs : List α} (hnodup : noted.Nodup)
    (h : ∀ i ∈ noted, ∃ x, xs[i]? = some x ∧ x ∈ xs.take i) : noted.Subperm (laters xs) :=
  List.subperm_of_subset hnodup fun i hi => mem_laters.mpr (h i hi)

end Firsts

end Removal
