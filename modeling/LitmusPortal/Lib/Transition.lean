import Mathlib.Data.List.Induction

/-!
# Runs of a system under a schedule

A system is a partial step function; every choice the environment makes, who moves next and what
fails, is part of the label. A schedule is a list of labels, so a statement about every schedule is
a statement about every interleaving. `Meets` singles out the schedules each step of which is taken
from a state that allows it.
-/

namespace Transition

variable {State Label : Type*} (step : State → Label → Option State)

/-- The state a schedule leads to, or `none` when one of its labels is not enabled. -/
def run (s : State) : List Label → Option State
  | [] => some s
  | label :: rest => (step s label).bind fun next => run next rest

@[simp]
theorem run_nil (s : State) : run step s [] = some s := rfl

@[simp]
theorem run_cons (s : State) (label : Label) (rest : List Label) :
    run step s (label :: rest) = (step s label).bind fun next => run step next rest := rfl

theorem run_append (s : State) (front back : List Label) :
    run step s (front ++ back) = (run step s front).bind fun mid => run step mid back := by
  induction front generalizing s with
  | nil => rfl
  | cons label rest ih =>
      cases hstep : step s label with
      | none => simp [hstep]
      | some next => simpa [hstep] using ih next

/-- Every step of the schedule is taken from a state that allows its label. -/
def Meets (allowed : State → Label → Prop) (s : State) : List Label → Prop
  | [] => True
  | label :: rest => allowed s label ∧
      match step s label with
      | none => True
      | some next => Meets allowed next rest

variable {step} {allowed : State → Label → Prop}

instance instDecidableMeets [∀ s label, Decidable (allowed s label)] :
    ∀ (s : State) (labels : List Label), Decidable (Meets step allowed s labels)
  | _, [] => isTrue trivial
  | s, label :: rest =>
      have : Decidable (match step s label with
          | none => True
          | some next => Meets step allowed next rest) :=
        match step s label with
        | none => isTrue trivial
        | some next => instDecidableMeets next rest
      inferInstanceAs (Decidable (_ ∧ _))

theorem meets_of_forall (h : ∀ s label, allowed s label) (s : State) (labels : List Label) :
    Meets step allowed s labels := by
  induction labels generalizing s with
  | nil => trivial
  | cons label rest ih =>
      refine ⟨h s label, ?_⟩
      cases step s label with
      | none => trivial
      | some next => exact ih next

/-- What holds at the start and is kept by every allowed step holds at the end of every schedule
whose steps are allowed. -/
theorem run_invariant {inv : State → Prop}
    (hstep : ∀ s label s', inv s → allowed s label → step s label = some s' → inv s')
    {s s' : State} {labels : List Label} (hinit : inv s)
    (hmeets : Meets step allowed s labels) (hrun : run step s labels = some s') : inv s' := by
  induction labels generalizing s with
  | nil =>
      obtain rfl : s = s' := by simpa using hrun
      exact hinit
  | cons label rest ih =>
      obtain ⟨hallowed, hrest⟩ := hmeets
      cases hnext : step s label with
      | none => simp [hnext] at hrun
      | some next =>
          rw [hnext] at hrest
          exact ih (hstep s label next hinit hallowed hnext) hrest (by simpa [hnext] using hrun)

theorem run_invariant_of_step {inv : State → Prop}
    (hstep : ∀ s label s', inv s → step s label = some s' → inv s')
    {s s' : State} {labels : List Label} (hinit : inv s)
    (hrun : run step s labels = some s') : inv s' :=
  have hmeets : Meets step (fun _ _ => True) s labels :=
    meets_of_forall (fun _ _ => trivial) s labels
  run_invariant (fun s label s' hinv _ => hstep s label s' hinv) hinit hmeets hrun

/-- Where a good state is kept by the steps that meet a condition, and left for a state without the
property by those that do not, all states of a run have the property exactly when each step of the run
meets the condition. -/
theorem run_always_iff {assumed keeps : State → Label → Prop} {good prop : State → Prop}
    (hgood : ∀ s, good s → prop s)
    (hkeep : ∀ s label s', good s → assumed s label → keeps s label →
      step s label = some s' → good s')
    (hbreak : ∀ s label s', good s → assumed s label → ¬ keeps s label →
      step s label = some s' → ¬ prop s')
    {s s' : State} {labels : List Label} (hs : good s) (hassumed : Meets step assumed s labels)
    (hrun : run step s labels = some s') :
    (∀ front mid, front <+: labels → run step s front = some mid → prop mid) ↔
      Meets step keeps s labels := by
  induction labels generalizing s with
  | nil =>
      refine iff_of_true (fun front mid hfront hmid => ?_) trivial
      obtain rfl := List.prefix_nil.mp hfront
      obtain rfl : s = mid := by simpa using hmid
      exact hgood s hs
  | cons label rest ih =>
      cases hnext : step s label with
      | none => simp [hnext] at hrun
      | some next =>
          have hrest : run step next rest = some s' := by simpa [hnext] using hrun
          simp only [Meets, hnext] at hassumed ⊢
          obtain ⟨hlabel, hassumed⟩ := hassumed
          constructor
          · intro hall
            have hkeeps : keeps s label := by
              by_contra hnot
              exact hbreak s label next hs hlabel hnot hnext
                (hall [label] next (List.cons_prefix_cons.mpr ⟨rfl, List.nil_prefix⟩)
                  (by simp [hnext]))
            have hnextGood := hkeep s label next hs hlabel hkeeps hnext
            refine ⟨hkeeps, (ih hnextGood hassumed hrest).mp fun front mid hfront hmid => ?_⟩
            exact hall (label :: front) mid (List.cons_prefix_cons.mpr ⟨rfl, hfront⟩)
              (by simpa [hnext] using hmid)
          · intro ⟨hkeeps, hmeets⟩ front mid hfront hmid
            cases front with
            | nil =>
                obtain rfl : s = mid := by simpa using hmid
                exact hgood s hs
            | cons label' front =>
                obtain ⟨rfl, hrestFront⟩ := List.cons_prefix_cons.mp hfront
                have hnextGood := hkeep s label' next hs hlabel hkeeps hnext
                exact (ih hnextGood hassumed hrest).mpr hmeets front mid hrestFront
                  (by simpa [hnext] using hmid)

/-- The case of an exact condition for each step, where what always holds may help with the steps. -/
theorem run_invariant_iff {base inv : State → Prop} {keeps : State → Label → Prop}
    (hbase : ∀ s label s', base s → step s label = some s' → base s')
    (hstep : ∀ s label s', base s → inv s → step s label = some s' → (inv s' ↔ keeps s label))
    {s s' : State} {labels : List Label} (hs : base s) (hinv : inv s)
    (hrun : run step s labels = some s') :
    (∀ front mid, front <+: labels → run step s front = some mid → inv mid) ↔
      Meets step keeps s labels := by
  have hassumed : Meets step (fun _ _ => True) s labels :=
    meets_of_forall (fun _ _ => trivial) s labels
  have hgood : ∀ s, base s ∧ inv s → inv s := fun _ h => h.2
  refine run_always_iff hgood (fun s label s' h _ hkeeps hnext => ?_)
    (fun s label s' h _ hnot hnext => ?_) ⟨hs, hinv⟩ hassumed hrun
  · exact ⟨hbase s label s' h.1 hnext, (hstep s label s' h.1 h.2 hnext).mpr hkeeps⟩
  · exact fun hafter => hnot ((hstep s label s' h.1 h.2 hnext).mp hafter)

/-- The same where each step must also relate the state before it to the one after it. -/
theorem run_related_iff {inv : State → Prop} {related : State → State → Prop}
    {keeps : State → Label → Prop}
    (hstep : ∀ s label s', inv s → step s label = some s' →
      (inv s' ∧ related s s' ↔ keeps s label))
    {s s' : State} {labels : List Label} (hs : inv s) (hrun : run step s labels = some s') :
    (∀ front mid, front <+: labels → run step s front = some mid → inv mid ∧
      ∀ label next, front ++ [label] <+: labels → step mid label = some next → related mid next) ↔
      Meets step keeps s labels := by
  induction labels generalizing s with
  | nil =>
      refine iff_of_true (fun front mid hfront hmid => ?_) trivial
      obtain rfl := List.prefix_nil.mp hfront
      obtain rfl : s = mid := by simpa using hmid
      exact ⟨hs, fun label _ hlabel => absurd hlabel (by simp)⟩
  | cons label rest ih =>
      cases hnext : step s label with
      | none => simp [hnext] at hrun
      | some next =>
          have hrest : run step next rest = some s' := by simpa [hnext] using hrun
          simp only [Meets, hnext]
          constructor
          · intro hall
            have hafter : inv next := (hall [label] next
              (List.cons_prefix_cons.mpr ⟨rfl, List.nil_prefix⟩) (by simp [hnext])).1
            have hrelated : related s next := (hall [] s List.nil_prefix rfl).2 label next
              (List.cons_prefix_cons.mpr ⟨rfl, List.nil_prefix⟩) hnext
            refine ⟨(hstep s label next hs hnext).mp ⟨hafter, hrelated⟩,
              (ih hafter hrest).mp fun front mid hfront hmid => ?_⟩
            obtain ⟨hinv, hsteps⟩ := hall (label :: front) mid
              (List.cons_prefix_cons.mpr ⟨rfl, hfront⟩) (by simpa [hnext] using hmid)
            exact ⟨hinv, fun label' next' hlabel =>
              hsteps label' next' (List.cons_prefix_cons.mpr ⟨rfl, hlabel⟩)⟩
          · intro ⟨hkeeps, hmeets⟩ front mid hfront hmid
            obtain ⟨hafter, hrelated⟩ := (hstep s label next hs hnext).mpr hkeeps
            cases front with
            | nil =>
                obtain rfl : s = mid := by simpa using hmid
                refine ⟨hs, fun label' next' hlabel hnext' => ?_⟩
                obtain ⟨rfl, -⟩ := List.cons_prefix_cons.mp hlabel
                obtain rfl : next = next' := Option.some.inj (hnext.symm.trans hnext')
                exact hrelated
            | cons label' front =>
                obtain ⟨rfl, hrestFront⟩ := List.cons_prefix_cons.mp hfront
                obtain ⟨hinv, hsteps⟩ := (ih hafter hrest).mpr hmeets front mid hrestFront
                  (by simpa [hnext] using hmid)
                refine ⟨hinv, fun label'' next' hlabel => hsteps label'' next' ?_⟩
                exact (List.cons_prefix_cons.mp hlabel).2

/-- The same for operations that always go through. -/
theorem foldl_invariant_iff {Op : Type*} {apply : State → Op → State} {inv : State → Prop}
    {keeps : State → Op → Prop} {ops : List Op} {s : State}
    (hstep : ∀ s, ∀ op ∈ ops, inv s → (inv (apply s op) ↔ keeps s op)) (hs : inv s) :
    (∀ front back, ops = front ++ back → inv (front.foldl apply s)) ↔
      ∀ front op back, ops = front ++ op :: back → keeps (front.foldl apply s) op := by
  constructor
  · intro hinv front op back hops
    have hbefore := hinv front (op :: back) hops
    have hafter := hinv (front ++ [op]) back (by simp [hops])
    rw [List.foldl_append] at hafter
    exact (hstep _ op (by simp [hops]) hbefore).mp hafter
  · intro hkeeps front
    induction front using List.reverseRecOn with
    | nil => exact fun _ _ => hs
    | append_singleton front op ih =>
        intro back hops
        have hsplit : ops = front ++ op :: back := by simp [hops]
        rw [List.foldl_append]
        exact (hstep _ op (by simp [hsplit]) (ih (op :: back) hsplit)).mpr
          (hkeeps front op back hsplit)

theorem foldl_invariant {Op : Type*} {apply : State → Op → State} {inv : State → Prop}
    {keeps : State → Op → Prop} {ops : List Op} {s : State}
    (hstep : ∀ s op, inv s → keeps s op → inv (apply s op)) (hs : inv s)
    (hkeeps : ∀ front op back, ops = front ++ op :: back → keeps (front.foldl apply s) op) :
    ∀ front back, ops = front ++ back → inv (front.foldl apply s) := by
  intro front
  induction front using List.reverseRecOn with
  | nil => exact fun _ _ => hs
  | append_singleton front op ih =>
      intro back hops
      have hsplit : ops = front ++ op :: back := by simp [hops]
      rw [List.foldl_append]
      exact hstep _ op (ih (op :: back) hsplit) (hkeeps front op back hsplit)

theorem forall_front_cons {α : Type} {a : α} {items : List α} {P : List α → α → Prop} (hhead : P [] a)
    (htail : ∀ front item back, items = front ++ item :: back → P (a :: front) item) :
    ∀ front item back, a :: items = front ++ item :: back → P front item := by
  intro front item back hitems
  cases front with
  | nil =>
      obtain ⟨rfl, -⟩ := List.cons.inj hitems
      exact hhead
  | cons first front =>
      obtain ⟨rfl, hrest⟩ := List.cons.inj hitems
      exact htail front item back hrest

theorem forall_front_singleton {α : Type} {a : α} {P : List α → α → Prop} (h : P [] a) :
    ∀ front item back, [a] = front ++ item :: back → P front item := by
  refine forall_front_cons h fun front item back hitems => ?_
  exact absurd hitems (by simp)

theorem forall_front_pair {α : Type} {a b : α} {P : List α → α → Prop} (hfirst : P [] a) (hsecond : P [a] b) :
    ∀ front item back, [a, b] = front ++ item :: back → P front item := by
  refine forall_front_cons hfirst ?_
  exact @forall_front_singleton α b (fun front item => P (a :: front) item) hsecond

end Transition
