import Mathlib.Algebra.Order.Ring.Int

/-!
# Binary search

The first place of a sorted list where the entry is above a value, as a loop over the bounds finds it: `-1` where there
is no such place.
-/

namespace BinarySearch

variable {α : Type} [LinearOrder α]

def entryAt (xs : List α) (i : ℤ) : Option α := if i < 0 then none else xs[i.toNat]?

def middle (start stop : ℤ) : ℤ := (start + stop).tdiv 2

theorem le_middle {start stop : ℤ} (h : start ≤ stop) : start ≤ middle start stop ∧ middle start stop ≤ stop := by
  rw [middle, Int.tdiv_eq_ediv]
  split
  · omega
  · rw [Int.sign_eq_one_of_pos (by decide)]
    omega

def search (xs : List α) (x : α) (start stop ans : ℤ) : ℤ :=
  if h : start ≤ stop then
    let mid := middle start stop
    if (entryAt xs mid).any (· ≤ x) then search xs x (mid + 1) stop ans else search xs x start (mid - 1) mid
  else ans
termination_by (stop + 1 - start).toNat
decreasing_by
  · have hmiddle := le_middle h
    omega
  · have hmiddle := le_middle h
    omega

/-- What the bounds stand for: below `start` nothing is above `x`, and behind `stop` everything is. -/
structure Bounded (xs : List α) (x : α) (start stop ans : ℤ) : Prop where
  start_nonneg : 0 ≤ start
  start_le : start ≤ stop + 1
  stop_lt : stop < xs.length
  below : ∀ i : ℕ, (i : ℤ) < start → ∀ entry, xs[i]? = some entry → entry ≤ x
  ans_eq : ans = if stop + 1 < xs.length then stop + 1 else -1
  above : ∀ i : ℕ, stop < i → ∀ entry, xs[i]? = some entry → x < entry

variable {xs : List α} {x : α} {start stop ans : ℤ}

theorem bounded_start : Bounded xs x 0 (xs.length - 1) (-1) where
  start_nonneg := Int.le_refl 0
  start_le := by omega
  stop_lt := by omega
  below := fun i hi => absurd hi (by omega)
  ans_eq := by
    rw [if_neg]
    omega
  above := by
    intro i hi entry hentry
    have hlt := (List.getElem?_eq_some_iff.mp hentry).1
    omega

theorem Bounded.entryAt_middle (h : Bounded xs x start stop ans) (hle : start ≤ stop) :
    ∃ mid : ℕ, middle start stop = mid ∧ ∃ entry, xs[mid]? = some entry ∧ entryAt xs (middle start stop) = some entry := by
  have hmiddle := le_middle hle
  have hstart := h.start_nonneg
  have hstop := h.stop_lt
  have hlt : (middle start stop).toNat < xs.length := by omega
  refine ⟨(middle start stop).toNat, by omega, _, List.getElem?_eq_getElem hlt, ?_⟩
  rw [entryAt, if_neg (by omega)]
  exact List.getElem?_eq_getElem hlt

theorem Bounded.search (hsorted : xs.Pairwise (· < ·)) (h : Bounded xs x start stop ans) :
    ∃ last, Bounded xs x last (last - 1) (BinarySearch.search xs x start stop ans) := by
  have hordered : ∀ {i j : ℕ} {entry entry' : α}, i ≤ j → xs[i]? = some entry → xs[j]? = some entry' →
      entry ≤ entry' := by
    intro i j entry entry' hij hi hj
    obtain ⟨hi', rfl⟩ := List.getElem?_eq_some_iff.mp hi
    obtain ⟨hj', rfl⟩ := List.getElem?_eq_some_iff.mp hj
    rcases Nat.lt_or_eq_of_le hij with hlt | rfl
    · exact (List.pairwise_iff_getElem.mp hsorted i j hi' hj' hlt).le
    · exact le_rfl
  fun_induction BinarySearch.search xs x start stop ans with
  | case1 start stop ans hle mid hany ih =>
      obtain ⟨place, hplace, entry, hentry, hat⟩ := h.entryAt_middle hle
      have hmiddle := le_middle hle
      have hbelow : entry ≤ x := by simpa [mid, hat] using hany
      have hstart := h.start_nonneg
      apply ih
      refine ⟨by omega, by omega, h.stop_lt, ?_, h.ans_eq, h.above⟩
      intro i hi entry' hentry'
      exact (hordered (by omega) hentry' hentry).trans hbelow
  | case2 start stop ans hle mid hany ih =>
      obtain ⟨place, hplace, entry, hentry, hat⟩ := h.entryAt_middle hle
      have hmiddle := le_middle hle
      have habove : x < entry := by simpa [mid, hat] using hany
      have hstart := h.start_nonneg
      have hstop := h.stop_lt
      apply ih
      refine ⟨hstart, by omega, by omega, h.below, ?_, ?_⟩
      · rw [if_pos (by omega)]
        omega
      · intro i hi entry' hentry'
        exact habove.trans_le (hordered (by omega) hentry hentry')
  | case3 start stop ans hgt =>
      have hlast := h.start_le
      refine ⟨start, ?_⟩
      obtain rfl : stop = start - 1 := by omega
      exact h

/-- Where the search ends: at the first entry above the value, or at `-1` where none is above. -/
theorem search_spec (hsorted : xs.Pairwise (· < ·)) (x : α) :
    (BinarySearch.search xs x 0 (xs.length - 1) (-1) = -1 ∧ ∀ entry ∈ xs, entry ≤ x) ∨
      ∃ (place : ℕ) (entry : α), BinarySearch.search xs x 0 (xs.length - 1) (-1) = place ∧
        xs[place]? = some entry ∧ x < entry := by
  obtain ⟨last, h⟩ := bounded_start.search (x := x) hsorted
  have hans := h.ans_eq
  have hlast := h.start_nonneg
  by_cases hend : last < xs.length
  · rw [if_pos (by omega)] at hans
    have hlt : last.toNat < xs.length := by omega
    refine .inr ⟨last.toNat, xs[last.toNat], by omega, List.getElem?_eq_getElem hlt, ?_⟩
    exact h.above last.toNat (by omega) _ (List.getElem?_eq_getElem hlt)
  · rw [if_neg (by omega)] at hans
    refine .inl ⟨hans, fun entry hentry => ?_⟩
    obtain ⟨i, hi⟩ := List.mem_iff_getElem?.mp hentry
    have hlt := (List.getElem?_eq_some_iff.mp hi).1
    exact h.below i (by omega) entry hi

end BinarySearch
