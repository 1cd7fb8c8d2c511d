import LitmusPortal.Lib.Script

/-!
# Scripts that run side by side

Requests are answered by scripts of their own against one store, and between two calls of one script the others may
make any number of calls. What the store holds is told by the calls that were made so far, so a script is judged
against such histories: however the history has grown when its next call is answered, the call has to be a good
one, and the end has to be as promised. As each script relies only on the good calls of the others, and makes good
calls itself, a pool of them makes good calls only.
-/

namespace Script

variable {Req Op Fault : Type} {Reply : Op → Type} {ε α β σ : Type}

/-- A call that was made, by the script that was started as such a one. -/
structure Made (Req Op Fault : Type) where
  index : Nat
  request : Req
  op : Op
  fault : Fault

structure Flight (Req Op : Type) (Reply : Op → Type) (ε α : Type) where
  request : Req
  script : Script Op Reply ε α

structure Pool (Req Op Fault : Type) (Reply : Op → Type) (ε α σ : Type) where
  store : σ
  flights : List (Flight Req Op Reply ε α)
  made : List (Made Req Op Fault)

inductive Turn (Req Fault : Type) where
  | start (request : Req)
  | answer (index : Nat) (fault : Fault)
  deriving DecidableEq, Repr

def Pool.initial (store : σ) : Pool Req Op Fault Reply ε α σ := ⟨store, [], []⟩

/-- Any number of scripts may be started, and any of them may have its next call answered. -/
def Pool.step (program : Req → Script Op Reply ε α) (exec : (op : Op) → Fault → σ → Reply op × σ)
    (pool : Pool Req Op Fault Reply ε α σ) :
    Turn Req Fault → Option (Pool Req Op Fault Reply ε α σ)
  | .start request => some { pool with flights := pool.flights ++ [⟨request, program request⟩] }
  | .answer index fault =>
      match pool.flights[index]? with
      | some ⟨request, .call op next⟩ =>
          some
            { store := (exec op fault pool.store).2
              flights := pool.flights.set index ⟨request, next (exec op fault pool.store).1⟩
              made := pool.made ++ [⟨index, request, op, fault⟩] }
      | _ => none

/-! ### Histories -/

/-- What the store holds after such calls. -/
def storeAfter (exec : (op : Op) → Fault → σ → Reply op × σ) (initial : σ) (made : List (Made Req Op Fault)) : σ :=
  made.foldl (fun store call => (exec call.op call.fault store).2) initial

section Histories

variable {exec : (op : Op) → Fault → σ → Reply op × σ} {initial : σ} {made more : List (Made Req Op Fault)}
  {call : Made Req Op Fault}

@[simp]
theorem storeAfter_nil : storeAfter exec initial ([] : List (Made Req Op Fault)) = initial := rfl

theorem storeAfter_append :
    storeAfter exec initial (made ++ more) = storeAfter exec (storeAfter exec initial made) more :=
  List.foldl_append

theorem storeAfter_concat :
    storeAfter exec initial (made ++ [call]) = (exec call.op call.fault (storeAfter exec initial made)).2 := by
  rw [storeAfter_append]
  rfl

/-- What every call relates is related along any number of them. -/
theorem storeAfter_related {related : σ → σ → Prop} (hrefl : ∀ s, related s s)
    (htrans : ∀ a b c, related a b → related b c → related a c)
    (hexec : ∀ op fault s, related s (exec op fault s).2) :
    related (storeAfter exec initial made) (storeAfter exec initial (made ++ more)) := by
  induction more using List.reverseRecOn with
  | nil =>
      rw [List.append_nil]
      exact hrefl _
  | append_singleton front last ih =>
      rw [← List.append_assoc, storeAfter_concat]
      exact htrans _ _ _ ih (hexec _ _ _)

end Histories

/-- Each of the calls was a good one at the moment it was made. -/
def Good (good : List (Made Req Op Fault) → Made Req Op Fault → Prop) (made : List (Made Req Op Fault)) : Prop :=
  ∀ front call back, made = front ++ call :: back → good front call

section Good

variable {good : List (Made Req Op Fault) → Made Req Op Fault → Prop} {made more : List (Made Req Op Fault)}
  {call : Made Req Op Fault}

theorem good_nil : Good good [] := by
  intro front call back h
  cases front <;> cases h

theorem Good.of_append (h : Good good (made ++ more)) : Good good made := by
  intro front call back hmade
  apply h front call (back ++ more)
  rw [hmade, List.append_assoc, List.cons_append]

theorem good_concat_iff : Good good (made ++ [call]) ↔ Good good made ∧ good made call := by
  constructor
  · intro h
    exact ⟨h.of_append, h made call [] rfl⟩
  · rintro ⟨hmade, hcall⟩ front other back h
    rcases List.eq_nil_or_concat back with rfl | ⟨back, last, rfl⟩
    · obtain ⟨rfl, hlast⟩ := List.append_inj' h rfl
      obtain rfl : call = other := by simpa using hlast
      exact hcall
    · rw [List.concat_eq_append, ← List.cons_append, ← List.append_assoc] at h
      obtain ⟨hfront, -⟩ := List.append_inj' h rfl
      exact hmade front other back hfront

/-- An invariant of histories that good calls keep. -/
theorem Good.induction {motive : List (Made Req Op Fault) → Prop} (hnil : motive [])
    (hconcat : ∀ made call, Good good made → motive made → good made call → motive (made ++ [call]))
    (h : Good good made) : motive made := by
  induction made using List.reverseRecOn with
  | nil => exact hnil
  | append_singleton front last ih =>
      obtain ⟨hfront, hlast⟩ := good_concat_iff.mp h
      exact hconcat front last hfront (ih hfront) hlast

end Good

/-! ### Scripts against histories -/

/-- The script makes good calls only, however the history has grown by good calls when one is answered, and ends
as promised. -/
def Sound (exec : (op : Op) → Fault → σ → Reply op × σ) (initial : σ)
    (good : List (Made Req Op Fault) → Made Req Op Fault → Prop) (index : Nat) (request : Req)
    (post : α → List (Made Req Op Fault) → Prop) : Script Op Reply ε α → List (Made Req Op Fault) → Prop
  | .done a, made => post a made
  | .halt _, _ => True
  | .call op next, made => ∀ more fault, Good good (made ++ more) →
      good (made ++ more) ⟨index, request, op, fault⟩ ∧
        (next (exec op fault (storeAfter exec initial (made ++ more))).1).Sound exec initial good index request post
          (made ++ more ++ [⟨index, request, op, fault⟩])

section Sound

variable {exec : (op : Op) → Fault → σ → Reply op × σ} {initial : σ}
  {good : List (Made Req Op Fault) → Made Req Op Fault → Prop} {index : Nat} {request : Req}
  {post : α → List (Made Req Op Fault) → Prop} {made : List (Made Req Op Fault)}

theorem sound_done {a : α} (h : post a made) :
    (Script.done a : Script Op Reply ε α).Sound exec initial good index request post made := h

/-- The call is good after any good history that goes on from here, and so is what comes of its answer. -/
theorem sound_perform {op : Op} {next : Reply op → Script Op Reply ε α}
    (hcall : ∀ made' fault, made <+: made' → Good good made' → good made' ⟨index, request, op, fault⟩)
    (hnext : ∀ made' fault, made <+: made' → Good good (made' ++ [⟨index, request, op, fault⟩]) →
      (next (exec op fault (storeAfter exec initial made')).1).Sound exec initial good index request post
        (made' ++ [⟨index, request, op, fault⟩])) :
    (perform op >>= next : Script Op Reply ε α).Sound exec initial good index request post made := by
  intro more fault hgood
  have hlater := hcall (made ++ more) fault (List.prefix_append made more) hgood
  exact ⟨hlater, hnext (made ++ more) fault (List.prefix_append made more) (good_concat_iff.mpr ⟨hgood, hlater⟩)⟩

theorem Sound.mono {script : Script Op Reply ε α} {post' : α → List (Made Req Op Fault) → Prop}
    (h : script.Sound exec initial good index request post made) (hpost : ∀ a made, post a made → post' a made) :
    script.Sound exec initial good index request post' made := by
  induction script generalizing made with
  | done a => exact hpost a made h
  | halt err => trivial
  | call op next ih =>
      intro more fault hgood
      obtain ⟨hcall, hnext⟩ := h more fault hgood
      exact ⟨hcall, ih _ hnext⟩

/-- What others do in between leaves a script sound. -/
theorem Sound.extend {script : Script Op Reply ε α} {more : List (Made Req Op Fault)}
    (hpost : ∀ a made more, post a made → post a (made ++ more))
    (h : script.Sound exec initial good index request post made) :
    script.Sound exec initial good index request post (made ++ more) := by
  cases script with
  | done a => exact hpost a made more h
  | halt err => trivial
  | call op next =>
      intro later fault hgood
      rw [List.append_assoc] at hgood ⊢
      exact h (more ++ later) fault hgood

theorem Sound.bind {first : Script Op Reply ε β} {rest : β → Script Op Reply ε α}
    {mid : β → List (Made Req Op Fault) → Prop}
    (hfirst : first.Sound exec initial good index request mid made)
    (hrest : ∀ b made, mid b made → (rest b).Sound exec initial good index request post made) :
    (first >>= rest).Sound exec initial good index request post made := by
  change (first.bind rest).Sound exec initial good index request post made
  induction first generalizing made with
  | done b => exact hrest b made hfirst
  | halt err => trivial
  | call op next ih =>
      intro more fault hgood
      obtain ⟨hcall, hnext⟩ := hfirst more fault hgood
      exact ⟨hcall, ih _ hnext⟩

end Sound

/-! ### Pools -/

section Pool

variable {program : Req → Script Op Reply ε α} {exec : (op : Op) → Fault → σ → Reply op × σ} {initial : σ}
  {good : List (Made Req Op Fault) → Made Req Op Fault → Prop}
  {post : Nat → Req → α → List (Made Req Op Fault) → Prop}
  {pool pool' : Pool Req Op Fault Reply ε α σ} {turn : Turn Req Fault} {turns : List (Turn Req Fault)}

theorem Pool.step_cases (h : pool.step program exec turn = some pool') :
    (∃ request, turn = .start request ∧
      pool' = { pool with flights := pool.flights ++ [⟨request, program request⟩] }) ∨
    ∃ index fault request op next, turn = .answer index fault ∧
      pool.flights[index]? = some ⟨request, .call op next⟩ ∧
      pool' =
        { store := (exec op fault pool.store).2
          flights := pool.flights.set index ⟨request, next (exec op fault pool.store).1⟩
          made := pool.made ++ [⟨index, request, op, fault⟩] } := by
  cases turn with
  | start request => exact .inl ⟨request, rfl, (Option.some.inj h).symm⟩
  | answer index fault =>
      rw [Pool.step] at h
      split at h
      · rename_i request op next hflight
        exact .inr ⟨index, fault, request, op, next, rfl, hflight, (Option.some.inj h).symm⟩
      · cases h

structure Pool.Inv (exec : (op : Op) → Fault → σ → Reply op × σ) (initial : σ)
    (good : List (Made Req Op Fault) → Made Req Op Fault → Prop)
    (post : Nat → Req → α → List (Made Req Op Fault) → Prop) (pool : Pool Req Op Fault Reply ε α σ) : Prop where
  store : pool.store = storeAfter exec initial pool.made
  good_made : Good good pool.made
  sound : ∀ (index : Nat) (flight : Flight Req Op Reply ε α), pool.flights[index]? = some flight →
    flight.script.Sound exec initial good index flight.request (post index flight.request) pool.made

/-- One turn: the script that moves makes a good call, and the others stay sound. -/
theorem Pool.Inv.step
    (hprogram : ∀ index request made, Good good made →
      (program request).Sound exec initial good index request (post index request) made)
    (hpost : ∀ index request a made more, post index request a made → post index request a (made ++ more))
    (h : pool.Inv exec initial good post) (hstep : pool.step program exec turn = some pool') :
    pool'.Inv exec initial good post := by
  rcases Pool.step_cases hstep with ⟨request, -, rfl⟩ | ⟨index, fault, request, op, next, -, hflight, rfl⟩
  · refine ⟨h.store, h.good_made, fun index flight hmem => ?_⟩
    rw [List.getElem?_append] at hmem
    split at hmem
    · exact h.sound index flight hmem
    · obtain ⟨_, hnew⟩ := List.getElem?_eq_some_iff.mp hmem
      rw [List.getElem_singleton] at hnew
      rw [← hnew]
      exact hprogram index request pool.made h.good_made
  · have hcalling := h.sound index _ hflight [] fault (by rw [List.append_nil]; exact h.good_made)
    rw [List.append_nil, ← h.store] at hcalling
    obtain ⟨hgood, hnext⟩ := hcalling
    refine ⟨?_, good_concat_iff.mpr ⟨h.good_made, hgood⟩, fun other flight hmem => ?_⟩
    · rw [storeAfter_concat, ← h.store]
    · rw [List.getElem?_set] at hmem
      split at hmem
      · rename_i heq
        subst heq
        split at hmem
        · cases hmem
          exact hnext
        · cases hmem
      · exact (h.sound other flight hmem).extend (hpost other flight.request)

theorem Pool.inv_initial : (Pool.initial initial : Pool Req Op Fault Reply ε α σ).Inv exec initial good post :=
  ⟨rfl, good_nil, fun index flight hmem => absurd hmem (by simp [Pool.initial])⟩

/-- Every run of a pool of sound scripts makes good calls only, and every script that has ended has ended as
promised. -/
theorem Pool.run_inv
    (hprogram : ∀ index request made, Good good made →
      (program request).Sound exec initial good index request (post index request) made)
    (hpost : ∀ index request a made more, post index request a made → post index request a (made ++ more))
    (hrun : Transition.run (Pool.step program exec) (Pool.initial initial) turns = some pool) :
    pool.Inv exec initial good post :=
  Transition.run_invariant_of_step (fun _ _ _ h hstep => h.step hprogram hpost hstep) Pool.inv_initial hrun

/-- The history only grows. -/
theorem Pool.made_prefix (hrun : Transition.run (Pool.step program exec) pool turns = some pool') :
    ∃ more, pool.made ++ more = pool'.made := by
  have hstep : ∀ mid turn next, pool.made <+: mid.made → Pool.step program exec mid turn = some next →
      pool.made <+: next.made := by
    intro mid turn next hmid hstep
    refine hmid.trans ?_
    rcases Pool.step_cases hstep with ⟨request, -, rfl⟩ | ⟨index, fault, request, op, next, -, -, rfl⟩
    · exact List.prefix_refl _
    · exact List.prefix_append _ _
  exact Transition.run_invariant_of_step hstep (List.prefix_refl _) hrun

end Pool

end Script
