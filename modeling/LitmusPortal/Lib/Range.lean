import Mathlib.Data.List.Basic
import Mathlib.Data.List.Forall2
import Mathlib.Tactic.Ring

/-!
# Loops

The loop of an imperative program over the elements of a list, with their indices and with variables that its
body changes. A body that changes the element at its own index, and adds to what has been collected, makes
the loop a map over the list. The other kind of loop counts a variable up to a bound.
-/

namespace RangeLoop

variable {α ε σ δ : Type}

/-- `for i, x := range xs`, from an index on; an error leaves the loop. -/
def rangeFrom (body : Nat → α → σ → Except ε σ) : Nat → List α → σ → Except ε σ
  | _, [], s => .ok s
  | i, x :: xs, s => do
      let s ← body i x s
      rangeFrom body (i + 1) xs s

/-- Each element is replaced, and what comes of it is collected. -/
def mapCollect (f : α → Except ε (α × List δ)) : List α → Except ε (List α × List δ)
  | [] => .ok ([], [])
  | x :: xs => do
      let (y, collected) ← f x
      let (ys, rest) ← mapCollect f xs
      return (y :: ys, collected ++ rest)

theorem rangeFrom_eq_mapCollect {f : α → Except ε (α × List δ)} {write : List α → σ → σ}
    {body : Nat → α → σ × List δ → Except ε (σ × List δ)}
    (hbody : ∀ front x back s collected,
      body front.length x (write (front ++ x :: back) s, collected) =
        (f x).map fun r => (write (front ++ r.1 :: back) s, collected ++ r.2))
    (front back : List α) (s : σ) (collected : List δ) :
    rangeFrom body front.length back (write (front ++ back) s, collected) =
      (mapCollect f back).map fun r => (write (front ++ r.1) s, collected ++ r.2) := by
  induction back generalizing front collected with
  | nil => simp [rangeFrom, mapCollect, Except.map]
  | cons x back ih =>
      rw [rangeFrom, hbody, mapCollect]
      cases hx : f x with
      | error err => rfl
      | ok r =>
          have hrest := ih (front ++ [r.1]) (collected ++ r.2)
          rw [List.length_append, List.length_singleton, List.append_assoc, List.singleton_append] at hrest
          change rangeFrom body (front.length + 1) back
            (write (front ++ r.1 :: back) s, collected ++ r.2) = _
          rw [hrest]
          cases hback : mapCollect f back with
          | error err => rfl
          | ok rest => simp [Except.map, bind, Except.bind, pure, Except.pure]

theorem mapCollect_ok {f : α → Except ε (α × List δ)} {xs ys : List α}
    {collected : List δ} (h : mapCollect f xs = .ok (ys, collected)) :
    ∃ parts, List.Forall₂ (fun x part => f x = .ok part) xs parts ∧
      ys = parts.map Prod.fst ∧ collected = parts.flatMap Prod.snd := by
  induction xs generalizing ys collected with
  | nil =>
      cases h
      exact ⟨[], .nil, rfl, rfl⟩
  | cons x xs ih =>
      cases hx : f x with
      | error err => simp [mapCollect, hx, bind, Except.bind] at h
      | ok part =>
          cases hxs : mapCollect f xs with
          | error err => simp [mapCollect, hx, hxs, bind, Except.bind] at h
          | ok rest =>
              obtain ⟨parts, hparts, hys, hcollected⟩ := ih hxs
              simp only [mapCollect, hx, hxs, bind, Except.bind, pure, Except.pure, Except.ok.injEq,
                Prod.mk.injEq] at h
              refine ⟨part :: parts, .cons hx hparts, ?_, ?_⟩
              · rw [← h.1, hys, List.map_cons]
              · rw [← h.2, hcollected, List.flatMap_cons]

theorem modify_append (front back : List α) (x : α) (f : α → α) :
    (front ++ x :: back).modify front.length f = front ++ f x :: back := by
  induction front with
  | nil => rfl
  | cons head front ih => rw [List.cons_append, List.length_cons, List.modify_succ_cons, ih]; rfl

/-! ### Loops that count up -/

section Ascent

variable (next : Int → Int) (last : Int)

/-- `for t := first; t <= last; t = next(t)`, for a number of rounds at most. -/
def rounds : ℕ → Int → List Int
  | 0, _ => []
  | fuel + 1, t => if t ≤ last then t :: rounds fuel (next t) else []

/-- A step that is one at least leaves as many rounds as there are numbers up to the last one. -/
def timesUpTo (first : Int) : List Int := rounds next last (last - first + 1).toNat first

variable {next last}

theorem rounds_eq (hnext : ∀ t, t < next t) {fuel fuel' : ℕ} {t : Int} (hfuel : last - t < fuel)
    (hfuel' : last - t < fuel') : rounds next last fuel t = rounds next last fuel' t := by
  induction fuel generalizing fuel' t with
  | zero =>
      cases fuel' with
      | zero => rfl
      | succ fuel' => rw [rounds, rounds, if_neg (by omega)]
  | succ fuel ih =>
      cases fuel' with
      | zero => rw [rounds, rounds, if_neg (by omega)]
      | succ fuel' =>
          have hlt := hnext t
          rw [rounds, rounds]
          split_ifs with hle
          · exact congrArg (t :: ·) (ih (by omega) (by omega))
          · rfl

theorem timesUpTo_of_le (hnext : ∀ t, t < next t) {t : Int} (h : t ≤ last) :
    timesUpTo next last t = t :: timesUpTo next last (next t) := by
  have hlt := hnext t
  have hfuel : (last - t + 1).toNat = (last - t).toNat + 1 := by omega
  rw [timesUpTo, hfuel, rounds, if_pos h, timesUpTo]
  congr 1
  exact rounds_eq hnext (by omega) (by omega)

theorem timesUpTo_of_lt {t : Int} (h : last < t) : timesUpTo next last t = [] := by
  have hfuel : (last - t + 1).toNat = 0 := by omega
  rw [timesUpTo, hfuel, rounds]

theorem le_of_mem_timesUpTo (hnext : ∀ t, t < next t) {first t : Int} (h : t ∈ timesUpTo next last first) :
    first ≤ t := by
  rw [timesUpTo] at h
  generalize (last - first + 1).toNat = fuel at h
  induction fuel generalizing first with
  | zero => cases h
  | succ fuel ih =>
      rw [rounds] at h
      split_ifs at h
      · rcases List.mem_cons.mp h with rfl | hrest
        · exact le_refl t
        · exact (hnext first).le.trans (ih hrest)
      · cases h

theorem timesUpTo_add {length : Int} (hlength : 0 < length) (n : ℕ) :
    timesUpTo (fun t => t + length) last (last - length * n) =
      (List.range (n + 1)).map fun i : ℕ => last - length * n + length * i := by
  have hnext : ∀ t, t < t + length := fun t => lt_add_of_pos_right t hlength
  induction n with
  | zero =>
      rw [timesUpTo_of_le hnext (by simp), timesUpTo_of_lt (by simpa using hlength)]
      simp
  | succ n ih =>
      have hstep : last - length * (n + 1 : ℕ) + length = last - length * n := by
        push_cast
        ring
      have hle : last - length * (n + 1 : ℕ) ≤ last := by
        have hnonneg := Int.mul_nonneg hlength.le (Int.natCast_nonneg (n + 1))
        omega
      have hrange : List.range (n + 1 + 1) = 0 :: (List.range (n + 1)).map Nat.succ := List.range_succ_eq_map
      rw [timesUpTo_of_le hnext hle, hstep, ih, hrange, List.map_cons, List.map_map]
      congr 1
      · simp
      · apply List.map_congr_left
        intro i _
        rw [Function.comp_apply]
        push_cast
        ring

end Ascent

end RangeLoop
