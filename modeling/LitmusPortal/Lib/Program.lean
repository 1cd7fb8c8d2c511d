import Mathlib.Data.List.Basic
import Mathlib.Data.List.Forall2

/-!
# Programs that may end with an error

A program changes a state, and returns a value or ends with an error; what it has changed before the
error stays. A triple says what holds at either end.
-/

namespace Program

variable {σ ε α β ι : Type}

def Triple (pre : σ → Prop) (program : EStateM ε σ α) (post : α → σ → Prop) (failed : σ → Prop) : Prop :=
  ∀ s, pre s →
    match program s with
    | .ok a s' => post a s'
    | .error _ s' => failed s'

variable {pre inv failed : σ → Prop} {post : α → σ → Prop}

theorem bind_of_ok {first : EStateM ε σ α} {rest : α → EStateM ε σ β} {s s' : σ} {a : α}
    (h : first s = .ok a s') : (first >>= rest) s = rest a s' := by
  change EStateM.bind first rest s = _
  rw [EStateM.bind, h]

theorem bind_of_error {first : EStateM ε σ α} {rest : α → EStateM ε σ β} {s s' : σ} {err : ε}
    (h : first s = .error err s') : (first >>= rest) s = .error err s' := by
  change EStateM.bind first rest s = _
  rw [EStateM.bind, h]

theorem bind_get {rest : σ → EStateM ε σ β} (s : σ) :
    ((get : EStateM ε σ σ) >>= rest) s = rest s s := rfl

theorem Triple.pure {a : α} (h : ∀ s, pre s → post a s) :
    Triple pre (Pure.pure a : EStateM ε σ α) post failed := h

theorem Triple.throw {err : ε} (h : ∀ s, pre s → failed s) :
    Triple pre (throw err : EStateM ε σ α) post failed := h

theorem Triple.get : Triple pre (get : EStateM ε σ σ) (fun s s' => s = s' ∧ pre s') failed :=
  fun _ h => ⟨rfl, h⟩

theorem Triple.modifyGet {f : σ → α × σ} (h : ∀ s, pre s → post (f s).1 (f s).2) :
    Triple pre (modifyGet f : EStateM ε σ α) post failed := h

theorem Triple.modify {f : σ → σ} {post : Unit → σ → Prop} (h : ∀ s, pre s → post () (f s)) :
    Triple pre (modify f : EStateM ε σ Unit) post failed := h

theorem Triple.bind {first : EStateM ε σ α} {rest : α → EStateM ε σ β} {mid : α → σ → Prop}
    {post : β → σ → Prop} (hfirst : Triple pre first mid failed)
    (hrest : ∀ a, Triple (mid a) (rest a) post failed) : Triple pre (first >>= rest) post failed := by
  intro s hs
  have hmid := hfirst s hs
  change match EStateM.bind first rest s with
    | .ok b s' => post b s'
    | .error _ s' => failed s'
  unfold EStateM.bind
  cases hrun : first s with
  | ok a s' =>
      rw [hrun] at hmid
      exact hrest a s' hmid
  | error err s' =>
      rw [hrun] at hmid
      exact hmid

theorem Triple.bind_of_forall {first : EStateM ε σ α} {rest : α → EStateM ε σ β} {post : β → σ → Prop}
    (h : ∀ a, Triple (fun _ => True) (rest a) post fun _ => True) :
    Triple pre (first >>= rest) post fun _ => True := by
  refine @Triple.bind _ _ _ _ _ _ _ _ (fun _ _ => True) _ (fun s _ => ?_) h
  cases first s with
  | ok _ _ => trivial
  | error _ _ => trivial

theorem Triple.mono {program : EStateM ε σ α} {pre' failed' : σ → Prop} {post' : α → σ → Prop}
    (h : Triple pre program post failed) (hpre : ∀ s, pre' s → pre s)
    (hpost : ∀ a s, post a s → post' a s) (hfailed : ∀ s, failed s → failed' s) :
    Triple pre' program post' failed' := by
  intro s hs
  have hends := h s (hpre s hs)
  cases hrun : program s with
  | ok a s' =>
      rw [hrun] at hends
      exact hpost a s' hends
  | error err s' =>
      rw [hrun] at hends
      exact hfailed s' hends

theorem Triple.ok {program : EStateM ε σ α} {s s' : σ} {a : α} (h : Triple pre program post failed)
    (hs : pre s) (hrun : program s = .ok a s') : post a s' := by
  have hends := h s hs
  rw [hrun] at hends
  exact hends

theorem Triple.and {program : EStateM ε σ α} {post' : α → σ → Prop} {failed' : σ → Prop}
    (h : Triple pre program post failed) (h' : Triple pre program post' failed') :
    Triple pre program (fun a s => post a s ∧ post' a s) (fun s => failed s ∧ failed' s) := by
  intro s hs
  have hleft := h s hs
  have hright := h' s hs
  cases hrun : program s with
  | ok a s' =>
      rw [hrun] at hleft hright
      exact ⟨hleft, hright⟩
  | error err s' =>
      rw [hrun] at hleft hright
      exact ⟨hleft, hright⟩

/-- What does not depend on the state may be assumed. -/
theorem Triple.of_and {program : EStateM ε σ α} {p : Prop} (h : p → Triple pre program post failed) :
    Triple (fun s => p ∧ pre s) program post failed :=
  fun s hs => h hs.1 s hs.2

/-- A loop, with an invariant that knows the items it has gone over. -/
theorem Triple.forM_prefix {f : ι → EStateM ε σ PUnit} {items : List ι} {inv : List ι → σ → Prop}
    (h : ∀ front item back, items = front ++ item :: back →
      Triple (inv front) (f item) (fun _ => inv (front ++ [item])) failed) :
    Triple (inv []) (items.forM f) (fun _ => inv items) failed := by
  have hloop : ∀ back front, items = front ++ back →
      Triple (inv front) (back.forM f) (fun _ => inv items) failed := by
    intro back
    induction back with
    | nil =>
        intro front hitems
        rw [List.append_nil] at hitems
        subst hitems
        exact Triple.pure fun _ hs => hs
    | cons item back ih =>
        intro front hitems
        exact Triple.bind (h front item back hitems) fun _ => ih (front ++ [item]) (by simp [hitems])
  exact hloop items [] rfl

theorem Triple.forM {f : ι → EStateM ε σ PUnit} {items : List ι}
    (h : ∀ item ∈ items, Triple inv (f item) (fun _ => inv) failed) :
    Triple inv (items.forM f) (fun _ => inv) failed :=
  @Triple.forM_prefix σ ε ι failed f items (fun _ => inv) fun front item back hitems =>
    h item (by simp [hitems])

theorem Triple.forM_append {f : ι → EStateM ε σ PUnit} {left right : List ι} {mid post : σ → Prop}
    (hleft : Triple pre (left.forM f) (fun _ => mid) failed)
    (hright : Triple mid (right.forM f) (fun _ => post) failed) :
    Triple pre ((left ++ right).forM f) (fun _ => post) failed := by
  have happend : (left ++ right).forM f = left.forM f >>= fun _ => right.forM f := List.forM_append
  rw [happend]
  exact Triple.bind hleft fun _ => hright

theorem discard_eq_bind (program : EStateM ε σ α) :
    Functor.discard program = program >>= fun _ => Pure.pure PUnit.unit := by
  rw [Functor.discard, map_const, Function.comp_apply, map_eq_pure_bind]

theorem Triple.discard {program : EStateM ε σ α} (h : Triple pre program (fun _ => inv) failed) :
    Triple pre (Functor.discard program) (fun _ => inv) failed := by
  rw [discard_eq_bind]
  exact Triple.bind h fun _ => Triple.pure fun _ hs => hs

theorem Triple.ite {p : Prop} [Decidable p] {left right : EStateM ε σ α}
    (hleft : p → Triple pre left post failed) (hright : ¬ p → Triple pre right post failed) :
    Triple pre (if p then left else right) post failed := by
  by_cases hp : p
  · simpa [hp] using hleft hp
  · simpa [hp] using hright hp

/-- The error of a program is replaced. -/
def mapError (reply : ε → ε) (program : EStateM ε σ α) : EStateM ε σ α := fun s =>
  match program s with
  | .error err s' => .error (reply err) s'
  | .ok a s' => .ok a s'

theorem Triple.mapError {reply : ε → ε} {program : EStateM ε σ α} (h : Triple pre program post failed) :
    Triple pre (mapError reply program) post failed := by
  intro s hs
  have hends := h s hs
  unfold Program.mapError
  cases hrun : program s with
  | ok a s' =>
      rw [hrun] at hends
      exact hends
  | error err s' =>
      rw [hrun] at hends
      exact hends

/-! ### Programs that end without an error -/

def Succeeds (pre : σ → Prop) (program : EStateM ε σ α) : Prop :=
  Triple pre program (fun _ _ => True) (fun _ => False)

theorem Succeeds.pure {a : α} : Succeeds pre (Pure.pure a : EStateM ε σ α) := Triple.pure fun _ _ => trivial

theorem Succeeds.triple {program : EStateM ε σ α} (h : Succeeds pre program)
    (hpost : Triple pre program post failed) : Triple pre program post (fun _ => False) :=
  (hpost.and h).mono (fun _ hs => hs) (fun _ _ hs => hs.1) (fun _ hs => hs.2)

theorem Succeeds.mono {program : EStateM ε σ α} {pre' : σ → Prop} (h : Succeeds pre program)
    (hpre : ∀ s, pre' s → pre s) : Succeeds pre' program :=
  Triple.mono h hpre (fun _ _ hs => hs) (fun _ hs => hs)

theorem Succeeds.bind {first : EStateM ε σ α} {rest : α → EStateM ε σ β} {mid : α → σ → Prop}
    (hfirst : Succeeds pre first) (hmid : Triple pre first mid failed)
    (hrest : ∀ a, Succeeds (mid a) (rest a)) : Succeeds pre (first >>= rest) :=
  Triple.bind (hfirst.triple hmid) hrest

theorem Succeeds.mapM {f : ι → EStateM ε σ α} {items : List ι}
    (h : ∀ item ∈ items, Succeeds (fun _ => True) (f item)) :
    Succeeds (fun _ => True) (items.mapM f) := by
  induction items with
  | nil => exact Succeeds.pure
  | cons item items ih =>
      rw [List.mapM_cons]
      refine Triple.bind (h item (by simp)) fun a => ?_
      exact Triple.bind (ih fun item hitem => h item (by simp [hitem])) fun as => Succeeds.pure

/-! ### Programs that only look -/

variable {ν : Type} {view : σ → ν} {v : ν}

/-- A program that leaves what can be seen of the state, and returns a value with a property where it
does not end with an error. -/
def Yields (view : σ → ν) (v : ν) (program : EStateM ε σ α) (result : α → Prop) : Prop :=
  Triple (fun s => view s = v) program (fun a s => result a ∧ view s = v) (fun s => view s = v)

variable {result : α → Prop}

theorem Yields.pure {a : α} (h : result a) : Yields view v (Pure.pure a : EStateM ε σ α) result :=
  Triple.pure fun _ hs => ⟨h, hs⟩

theorem Yields.throw {err : ε} : Yields view v (throw err : EStateM ε σ α) result :=
  Triple.throw fun _ hs => hs

theorem Yields.bind {first : EStateM ε σ α} {rest : α → EStateM ε σ β} {result' : β → Prop}
    (hfirst : Yields view v first result) (hrest : ∀ a, result a → Yields view v (rest a) result') :
    Yields view v (first >>= rest) result' :=
  Triple.bind hfirst fun a => Triple.of_and (hrest a)

theorem Yields.ite {p : Prop} [Decidable p] {left right : EStateM ε σ α}
    (hleft : p → Yields view v left result) (hright : ¬ p → Yields view v right result) :
    Yields view v (if p then left else right) result :=
  Triple.ite hleft hright

theorem Yields.mono {program : EStateM ε σ α} {result' : α → Prop} (h : Yields view v program result)
    (hresult : ∀ a, result a → result' a) : Yields view v program result' :=
  Triple.mono h (fun _ hs => hs) (fun a _ hs => ⟨hresult a hs.1, hs.2⟩) (fun _ hs => hs)

theorem Yields.mapM {f : ι → EStateM ε σ α} {items : List ι} {related : ι → α → Prop}
    (h : ∀ item ∈ items, Yields view v (f item) (related item)) :
    Yields view v (items.mapM f) (List.Forall₂ related items) := by
  induction items with
  | nil => exact Yields.pure .nil
  | cons item items ih =>
      rw [List.mapM_cons]
      refine Yields.bind (h item (by simp)) fun a ha => ?_
      refine Yields.bind (ih fun item hitem => h item (by simp [hitem])) fun as has => ?_
      exact Yields.pure (.cons ha has)

theorem exists_left_of_forall₂ {κ : Type} {related : ι → κ → Prop} {left : List ι} {right : List κ}
    (h : List.Forall₂ related left right) {b : κ} (hb : b ∈ right) : ∃ a ∈ left, related a b := by
  induction h with
  | nil => cases hb
  | cons hhead _ ih =>
      obtain rfl | hmem := List.mem_cons.mp hb
      · exact ⟨_, List.mem_cons_self, hhead⟩
      · obtain ⟨a, ha, hrelated⟩ := ih hmem
        exact ⟨a, List.mem_cons_of_mem _ ha, hrelated⟩

theorem exists_right_of_forall₂ {κ : Type} {related : ι → κ → Prop} {left : List ι} {right : List κ}
    (h : List.Forall₂ related left right) {a : ι} (ha : a ∈ left) : ∃ b ∈ right, related a b :=
  @exists_left_of_forall₂ _ _ (flip related) right left (List.Forall₂.flip h) a ha

theorem getElem?_of_forall₂ {κ : Type} {related : ι → κ → Prop} {left : List ι} {right : List κ}
    (h : List.Forall₂ related left right) {i : ℕ} {a : ι} (ha : left[i]? = some a) :
    ∃ b, right[i]? = some b ∧ related a b := by
  induction h generalizing i with
  | nil => cases ha
  | @cons head b _ _ hhead _ ih =>
      cases i with
      | zero =>
          obtain rfl := Option.some.inj ha
          exact ⟨b, rfl, hhead⟩
      | succ i => exact ih ha

/-- What is known of the view stays, and the result is known with it. -/
theorem Yields.triple {program : EStateM ε σ α} {known : ν → Prop} {result : ν → α → Prop}
    (h : ∀ v, known v → Yields view v program (result v)) :
    Triple (fun s => known (view s)) program (fun a s => result (view s) a ∧ known (view s))
      (fun s => known (view s)) := by
  intro s hs
  have hends := h (view s) hs s rfl
  cases hrun : program s with
  | ok a s' =>
      rw [hrun] at hends
      obtain ⟨hresult, hview⟩ := hends
      change result (view s') a ∧ known (view s')
      rw [hview]
      exact ⟨hresult, hs⟩
  | error err s' =>
      rw [hrun] at hends
      change known (view s')
      rw [show view s' = view s from hends]
      exact hs

end Program
