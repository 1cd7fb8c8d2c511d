import LitmusPortal.Lib.Transition

/-!
# What passes through a system

An observation says what one step takes in, hands out or turns down. Along a schedule the observations follow one
another. A system in which every step balances what it takes in against what it hands out and what it still holds
loses nothing, repeats nothing and keeps the order.
-/

namespace Transition

variable {State Label Item : Type*} (step : State → Label → Option State)

/-- What is observed along a schedule. -/
def observed (observe : State → Label → List Item) (s : State) : List Label → List Item
  | [] => []
  | label :: rest => observe s label ++
      match step s label with
      | none => []
      | some next => observed observe next rest

variable {step} {observe taken given : State → Label → List Item}

@[simp]
theorem observed_nil (s : State) : observed step observe s [] = [] := rfl

theorem observed_cons {s next : State} {label : Label} (h : step s label = some next) (rest : List Label) :
    observed step observe s (label :: rest) = observe s label ++ observed step observe next rest := by
  rw [observed, h]

theorem observed_append {s mid : State} {front : List Label} (hrun : run step s front = some mid) (back : List Label) :
    observed step observe s (front ++ back) = observed step observe s front ++ observed step observe mid back := by
  induction front generalizing s with
  | nil =>
      obtain rfl : s = mid := by simpa using hrun
      rfl
  | cons label rest ih =>
      obtain ⟨next, hnext, hrest⟩ := Option.bind_eq_some_iff.mp hrun
      rw [List.cons_append, observed_cons hnext, observed_cons hnext, ih hrest, List.append_assoc]

theorem observed_concat {s mid next : State} {front : List Label} {label : Label} (hrun : run step s front = some mid)
    (hstep : step mid label = some next) :
    observed step observe s (front ++ [label]) = observed step observe s front ++ observe mid label := by
  rw [observed_append hrun, observed_cons hstep, observed_nil, List.append_nil]

/-- A balance that every step keeps is one that every run keeps. -/
theorem observed_balance {inv : State → Prop} {contents : State → List Item}
    (hinv : ∀ s label s', inv s → step s label = some s' → inv s')
    (hstep : ∀ s label s', inv s → step s label = some s' →
      contents s ++ taken s label = given s label ++ contents s')
    {s s' : State} {labels : List Label} (hs : inv s) (hrun : run step s labels = some s') :
    contents s ++ observed step taken s labels = observed step given s labels ++ contents s' := by
  induction labels generalizing s with
  | nil =>
      obtain rfl : s = s' := by simpa using hrun
      rw [observed_nil, observed_nil, List.append_nil, List.nil_append]
  | cons label rest ih =>
      obtain ⟨next, hnext, hrest⟩ := Option.bind_eq_some_iff.mp hrun
      rw [observed_cons hnext, observed_cons hnext]
      calc
        contents s ++ (taken s label ++ observed step taken next rest) =
            (contents s ++ taken s label) ++ observed step taken next rest := (List.append_assoc _ _ _).symm
        _ = given s label ++ (contents next ++ observed step taken next rest) := by
          rw [hstep s label next hs hnext, List.append_assoc]
        _ = given s label ++ (observed step given next rest ++ contents s') := by
          rw [ih (hinv s label next hs hnext) hrest]
        _ = given s label ++ observed step given next rest ++ contents s' := (List.append_assoc _ _ _).symm

/-- Where every step uses up as much of a potential as it lets be observed, no more is observed than there is. -/
theorem length_observed_le {inv : State → Prop} {potential : State → Nat}
    (hinv : ∀ s label s', inv s → step s label = some s' → inv s')
    (hstep : ∀ s label s', inv s → step s label = some s' → potential s' + (observe s label).length ≤ potential s)
    {s s' : State} {labels : List Label} (hs : inv s) (hrun : run step s labels = some s') :
    potential s' + (observed step observe s labels).length ≤ potential s := by
  induction labels generalizing s with
  | nil =>
      obtain rfl : s = s' := by simpa using hrun
      exact Nat.le_refl _
  | cons label rest ih =>
      obtain ⟨next, hnext, hrest⟩ := Option.bind_eq_some_iff.mp hrun
      rw [observed_cons hnext, List.length_append]
      calc
        potential s' + ((observe s label).length + (observed step observe next rest).length) =
            potential s' + (observed step observe next rest).length + (observe s label).length := by omega
        _ ≤ potential next + (observe s label).length :=
          Nat.add_le_add_right (ih (hinv s label next hs hnext) hrest) _
        _ ≤ potential s := hstep s label next hs hnext

/-- What is observed was observed at one of the labels, in a state on the way. -/
theorem exists_of_mem_observed {inv : State → Prop}
    (hinv : ∀ s label s', inv s → step s label = some s' → inv s') {s s' : State} {labels : List Label} {item : Item}
    (hs : inv s) (hrun : run step s labels = some s') (hitem : item ∈ observed step observe s labels) :
    ∃ front label back mid next, labels = front ++ label :: back ∧ run step s front = some mid ∧ inv mid ∧
      step mid label = some next ∧ run step next back = some s' ∧ item ∈ observe mid label := by
  induction labels generalizing s with
  | nil => exact absurd hitem List.not_mem_nil
  | cons label rest ih =>
      obtain ⟨next, hnext, hrest⟩ := Option.bind_eq_some_iff.mp hrun
      rw [observed_cons hnext, List.mem_append] at hitem
      rcases hitem with hitem | hitem
      · exact ⟨[], label, rest, s, next, rfl, rfl, hs, hnext, hrest, hitem⟩
      · obtain ⟨front, later, back, mid, after, rfl, hfront, hmid, hafter, hback, hmem⟩ :=
          ih (hinv s label next hs hnext) hrest hitem
        refine ⟨label :: front, later, back, mid, after, rfl, ?_, hmid, hafter, hback, hmem⟩
        rw [run_cons, hnext]
        exact hfront

/-- What does not hold at the start and holds at the end has come to hold at one of the labels. -/
theorem exists_turn {holds : State → Prop} {s s' : State} {labels : List Label} (hstart : ¬ holds s) (hend : holds s')
    (hrun : run step s labels = some s') :
    ∃ front label back mid next, labels = front ++ label :: back ∧ run step s front = some mid ∧ ¬ holds mid ∧
      step mid label = some next ∧ holds next := by
  induction labels generalizing s with
  | nil =>
      obtain rfl : s = s' := by simpa using hrun
      exact absurd hend hstart
  | cons label rest ih =>
      obtain ⟨next, hnext, hrest⟩ := Option.bind_eq_some_iff.mp hrun
      by_cases hholds : holds next
      · exact ⟨[], label, rest, s, next, rfl, rfl, hstart, hnext, hholds⟩
      · obtain ⟨front, later, back, mid, after, rfl, hfront, hmid, hafter, hturn⟩ := ih hholds hrest
        refine ⟨label :: front, later, back, mid, after, rfl, ?_, hmid, hafter, hturn⟩
        rw [run_cons, hnext]
        exact hfront

/-- What holds of the labels so far and the state they lead to. -/
theorem run_history {motive : List Label → State → Prop} {s : State} (hstart : motive [] s)
    (hstep : ∀ front label mid next, motive front mid → step mid label = some next → motive (front ++ [label]) next)
    {s' : State} {labels : List Label} (hrun : run step s labels = some s') : motive labels s' := by
  induction labels using List.reverseRecOn generalizing s' with
  | nil =>
      obtain rfl : s = s' := by simpa using hrun
      exact hstart
  | append_singleton front label ih =>
      rw [run_append] at hrun
      obtain ⟨mid, hfront, hlast⟩ := Option.bind_eq_some_iff.mp hrun
      obtain ⟨next, hnext, hend⟩ := Option.bind_eq_some_iff.mp hlast
      obtain rfl : next = s' := by simpa using hend
      exact hstep front label mid next (ih hfront) hnext

end Transition
