import Mathlib.Data.List.Perm.Basic

/-!
# Splicing

`splice` takes a run of items out of a list and puts others in its place. A loop over a list that takes items out of it
while it runs goes on behind the place it was at, and so never looks at the item after one that it has taken out.
-/

namespace Splice

variable {α : Type}

def splice (xs : List α) (start deleteCount : ℕ) (items : List α) : List α :=
  xs.take start ++ items ++ xs.drop (start + deleteCount)

/-! ### Taking out and putting in -/

theorem splice_remove (xs : List α) (i : ℕ) : splice xs i 1 [] = xs.eraseIdx i := by
  rw [splice, List.append_nil, List.eraseIdx_eq_take_drop_succ]

theorem length_splice_insert (xs : List α) (i : ℕ) (x : α) : (splice xs i 0 [x]).length = xs.length + 1 := by
  simp only [splice, List.length_append, List.length_take, List.length_drop, List.length_singleton]
  omega

theorem getElem?_splice_insert {xs : List α} {i : ℕ} (h : i ≤ xs.length) (x : α) : (splice xs i 0 [x])[i]? = some x := by
  have hlength : (xs.take i).length = i := by
    rw [List.length_take]
    omega
  rw [splice, List.append_assoc, List.getElem?_append_right (by omega), hlength, Nat.sub_self]
  rfl

theorem eraseIdx_splice_insert {xs : List α} {i : ℕ} (h : i ≤ xs.length) (x : α) :
    (splice xs i 0 [x]).eraseIdx i = xs := by
  have hlength : (xs.take i).length = i := by
    rw [List.length_take]
    omega
  calc
    (splice xs i 0 [x]).eraseIdx i = xs.take i ++ (x :: xs.drop i).eraseIdx 0 := by
      rw [splice, List.append_assoc, List.eraseIdx_append_of_length_le (by omega), hlength, Nat.sub_self]
      rfl
    _ = xs := List.take_append_drop i xs

theorem splice_insert_eraseIdx {xs : List α} {i : ℕ} {x : α} (h : xs[i]? = some x) :
    splice (xs.eraseIdx i) i 0 [x] = xs := by
  obtain ⟨hlt, rfl⟩ := List.getElem?_eq_some_iff.mp h
  have hlength : (xs.take i).length = i := by
    rw [List.length_take]
    omega
  have htake : (xs.eraseIdx i).take i = xs.take i := by
    rw [List.eraseIdx_eq_take_drop_succ, List.take_append_of_le_length (by omega), List.take_of_length_le (by omega)]
  have hdrop : (xs.eraseIdx i).drop i = xs.drop (i + 1) := by
    rw [List.eraseIdx_eq_take_drop_succ]
    exact List.drop_left' hlength
  calc
    splice (xs.eraseIdx i) i 0 [xs[i]] = xs.take i ++ xs[i] :: xs.drop (i + 1) := by
      rw [splice, htake, Nat.add_zero, hdrop, List.append_assoc]
      rfl
    _ = xs := by rw [← List.drop_eq_getElem_cons hlt, List.take_append_drop]

theorem perm_splice_insert (xs : List α) (i : ℕ) (x : α) : (splice xs i 0 [x]).Perm (x :: xs) := by
  have hparts : (xs.take i ++ x :: xs.drop i).Perm (x :: (xs.take i ++ xs.drop i)) := List.perm_middle
  rw [List.take_append_drop] at hparts
  rw [splice, List.append_assoc]
  exact hparts

theorem perm_cons_eraseIdx {xs : List α} {i : ℕ} {x : α} (h : xs[i]? = some x) : (x :: xs.eraseIdx i).Perm xs := by
  have hinsert := perm_splice_insert (xs.eraseIdx i) i x
  rw [splice_insert_eraseIdx h] at hinsert
  exact hinsert.symm

/-! ### Taking out in a loop -/

section Loop

variable (visit : α → Option α)

/-- `n` rounds of a loop from place `k` on: what is visited is changed in its place or taken out. -/
def forEach : ℕ → ℕ → List α → List α
  | 0, _, xs => xs
  | n + 1, k, xs =>
      match xs[k]? with
      | none => forEach n (k + 1) xs
      | some x =>
          match visit x with
          | some x' => forEach n (k + 1) (xs.set k x')
          | none => forEach n (k + 1) (splice xs k 1 [])

/-- The item after one that is taken out is passed over. -/
def skipping : List α → List α
  | [] => []
  | [x] => (visit x).toList
  | x :: y :: xs =>
      match visit x with
      | some x' => x' :: skipping (y :: xs)
      | none => y :: skipping xs

theorem forEach_of_length_le {n k : ℕ} {xs : List α} (h : xs.length ≤ k) : forEach visit n k xs = xs := by
  induction n generalizing k with
  | zero => rfl
  | succ n ih =>
      rw [forEach, List.getElem?_eq_none h]
      exact ih (by omega)

theorem forEach_append (n : ℕ) (front back : List α) (h : back.length ≤ n) :
    forEach visit n front.length (front ++ back) = front ++ skipping visit back := by
  induction n generalizing front back with
  | zero =>
      obtain rfl := List.eq_nil_of_length_eq_zero (Nat.le_zero.mp h)
      rfl
  | succ n ih =>
      cases back with
      | nil =>
          rw [List.append_nil, forEach_of_length_le visit (Nat.le_refl _)]
          exact (List.append_nil front).symm
      | cons x back =>
          have hat : (front ++ x :: back)[front.length]? = some x := by simp
          have herase : splice (front ++ x :: back) front.length 1 [] = front ++ back := by
            rw [splice_remove, List.eraseIdx_append_of_length_le (Nat.le_refl _), Nat.sub_self]
            rfl
          have hset : ∀ x', (front ++ x :: back).set front.length x' = (front ++ [x']) ++ back := by
            intro x'
            rw [List.set_append_right _ _ (Nat.le_refl _), Nat.sub_self, List.append_assoc]
            rfl
          have hnext : ∀ x' : α, front.length + 1 = (front ++ [x']).length := by simp
          rw [forEach, hat]
          rw [List.length_cons] at h
          cases hvisit : visit x with
          | some x' =>
              simp only [hvisit]
              rw [hset, hnext x', ih (front ++ [x']) back (by omega)]
              cases back <;> simp [skipping, hvisit]
          | none =>
              simp only [hvisit]
              rw [herase]
              cases back with
              | nil =>
                  rw [forEach_of_length_le visit (by simp)]
                  simp [skipping, hvisit]
              | cons y back =>
                  have hmove : front ++ y :: back = (front ++ [y]) ++ back := by simp
                  rw [List.length_cons] at h
                  rw [hmove, hnext y, ih (front ++ [y]) back (by omega)]
                  simp [skipping, hvisit]

theorem forEach_eq_skipping (xs : List α) : forEach visit xs.length 0 xs = skipping visit xs :=
  forEach_append visit xs.length [] xs (Nat.le_refl _)

end Loop

end Splice
