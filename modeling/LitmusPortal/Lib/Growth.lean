import Mathlib.Data.List.Forall2
import Mathlib.Data.List.Infix
import Mathlib.Data.Option.Basic

/-!
# Loops over rows that only grow

The rows of a table under a loop that may fail: what a step keeps for the items before it holds after the loop, and a
loop whose steps succeed succeeds. A row grows when it is only appended to.
-/

namespace Growth

/-! ### Loops that may fail -/

section Loop

variable {σ ι : Type} {step : σ → ι → Option σ} {inv : List ι → σ → Prop} {items : List ι} {s s' : σ}

theorem foldlM_invariant
    (hstep : ∀ front item back s s', items = front ++ item :: back → inv front s → step s item = some s' →
      inv (front ++ [item]) s')
    (hs : inv [] s) (h : items.foldlM step s = some s') : inv items s' := by
  suffices hback : ∀ back front s, items = front ++ back → inv front s → back.foldlM step s = some s' → inv items s' from
    hback items [] s rfl hs h
  intro back
  induction back with
  | nil =>
      intro front s hitems hs h
      obtain rfl := Option.some.inj h
      rwa [hitems, List.append_nil]
  | cons item back ih =>
      intro front s hitems hs h
      rw [List.foldlM_cons] at h
      obtain ⟨next, hnext, hrest⟩ := Option.bind_eq_some_iff.mp h
      refine ih (front ++ [item]) next ?_ (hstep front item back s next hitems hs hnext) hrest
      rw [hitems, List.append_assoc]
      rfl

theorem foldlM_total
    (hstep : ∀ front item back s, items = front ++ item :: back → inv front s →
      ∃ s', step s item = some s' ∧ inv (front ++ [item]) s')
    (hs : inv [] s) : ∃ s', items.foldlM step s = some s' ∧ inv items s' := by
  suffices hback : ∀ back front s, items = front ++ back → inv front s →
      ∃ s', back.foldlM step s = some s' ∧ inv items s' from hback items [] s rfl hs
  intro back
  induction back with
  | nil =>
      intro front s hitems hs
      refine ⟨s, rfl, ?_⟩
      rwa [hitems, List.append_nil]
  | cons item back ih =>
      intro front s hitems hs
      obtain ⟨next, hnext, hinv⟩ := hstep front item back s hitems hs
      obtain ⟨last, hlast, hend⟩ := ih (front ++ [item]) next (by rw [hitems, List.append_assoc]; rfl) hinv
      refine ⟨last, ?_, hend⟩
      rw [List.foldlM_cons, hnext]
      exact hlast

theorem forall₂_of_mapM {α β : Type} {f : α → Option β} {xs : List α} {ys : List β} (h : xs.mapM f = some ys) :
    List.Forall₂ (fun x y => f x = some y) xs ys := by
  induction xs generalizing ys with
  | nil =>
      obtain rfl : [] = ys := by simpa using h
      exact .nil
  | cons x xs ih =>
      rw [List.mapM_cons] at h
      obtain ⟨y, hy, h⟩ := Option.bind_eq_some_iff.mp h
      obtain ⟨ys', hys', h⟩ := Option.bind_eq_some_iff.mp h
      obtain rfl := Option.some.inj h
      exact .cons hy (ih hys')

theorem mapM_of_forall₂ {α β : Type} {f : α → Option β} {xs : List α} {ys : List β}
    (h : List.Forall₂ (fun x y => f x = some y) xs ys) : xs.mapM f = some ys := by
  induction h with
  | nil => rfl
  | cons hxy _ ih =>
      rw [List.mapM_cons, hxy, Option.bind_eq_bind, Option.bind_some, ih]
      rfl

theorem mapM_total {α β : Type} {f : α → Option β} {related : α → β → Prop} {xs : List α}
    (h : ∀ x ∈ xs, ∃ y, f x = some y ∧ related x y) : ∃ ys, xs.mapM f = some ys ∧ List.Forall₂ related xs ys := by
  induction xs with
  | nil => exact ⟨[], rfl, .nil⟩
  | cons x xs ih =>
      obtain ⟨y, hy, hrelated⟩ := h x List.mem_cons_self
      obtain ⟨ys, hys, hall⟩ := ih fun x hx => h x (List.mem_cons_of_mem _ hx)
      refine ⟨y :: ys, ?_, .cons hrelated hall⟩
      rw [List.mapM_cons, hy, Option.bind_eq_bind, Option.bind_some, hys]
      rfl

end Loop

/-! ### Rows -/

section Rows

variable {α : Type}

/-- Row `i` is still there, and has only been appended to. -/
def GrowsAt (i : ℕ) (rows rows' : List (List α)) : Prop :=
  ∀ row, rows[i]? = some row → ∃ row', rows'[i]? = some row' ∧ row <+: row'

theorem GrowsAt.refl (i : ℕ) (rows : List (List α)) : GrowsAt i rows rows :=
  fun row hrow => ⟨row, hrow, List.prefix_refl row⟩

theorem GrowsAt.trans {i : ℕ} {rows rows' rows'' : List (List α)} (h : GrowsAt i rows rows')
    (h' : GrowsAt i rows' rows'') : GrowsAt i rows rows'' := by
  intro row hrow
  obtain ⟨row', hrow', hle⟩ := h row hrow
  obtain ⟨row'', hrow'', hle'⟩ := h' row' hrow'
  exact ⟨row'', hrow'', hle.trans hle'⟩

theorem GrowsAt.of_eq {i : ℕ} {rows rows' : List (List α)} (h : rows'[i]? = rows[i]?) : GrowsAt i rows rows' :=
  fun row hrow => ⟨row, h.trans hrow, List.prefix_refl row⟩

theorem GrowsAt.append {i : ℕ} (rows more : List (List α)) : GrowsAt i rows (rows ++ more) := by
  intro row hrow
  have hlt := (List.getElem?_eq_some_iff.mp hrow).1
  exact ⟨row, (List.getElem?_append_left hlt).trans hrow, List.prefix_refl row⟩

end Rows

end Growth
