import LitmusPortal.Lib.Transition

/-!
# Programs that call on their surroundings

A script makes calls one after the other and chooses the next one from the answers. What a call does
is said apart from it, so that one script can be played to its end against any surroundings, have its
calls answered by scripts of a lower level, or be stopped between any two calls and started anew.
-/

inductive Script (Op : Type) (Reply : Op → Type) (ε α : Type) where
  | done (a : α)
  | halt (err : ε)
  | call (op : Op) (next : Reply op → Script Op Reply ε α)

namespace Script

variable {Op Low Fault Start : Type} {Reply : Op → Type} {LowReply : Low → Type} {ε α β σ : Type}

def bind : Script Op Reply ε α → (α → Script Op Reply ε β) → Script Op Reply ε β
  | .done a, rest => rest a
  | .halt err, _ => .halt err
  | .call op next, rest => .call op fun reply => (next reply).bind rest

instance : Monad (Script Op Reply ε) where
  pure := .done
  bind := bind

def perform (op : Op) : Script Op Reply ε (Reply op) := .call op .done

/-- Every call answered by a script of the level below. -/
def interpret (handler : (op : Op) → Script Low LowReply ε (Reply op)) :
    Script Op Reply ε α → Script Low LowReply ε α
  | .done a => .done a
  | .halt err => .halt err
  | .call op next => (handler op).bind fun reply => (next reply).interpret handler

theorem bind_assoc {γ : Type} (script : Script Op Reply ε α) (f : α → Script Op Reply ε β) (g : β → Script Op Reply ε γ) :
    (script.bind f).bind g = script.bind fun a => (f a).bind g := by
  induction script with
  | done a => rfl
  | halt err => rfl
  | call op next ih => exact congrArg (call op) (funext ih)

theorem interpret_bind {handler : (op : Op) → Script Low LowReply ε (Reply op)} (script : Script Op Reply ε α)
    (rest : α → Script Op Reply ε β) :
    (script.bind rest).interpret handler = (script.interpret handler).bind fun a => (rest a).interpret handler := by
  induction script with
  | done a => rfl
  | halt err => rfl
  | call op next ih =>
      rw [bind, interpret, interpret, bind_assoc]
      exact congrArg _ (funext ih)

/-! ### Played to the end -/

/-- What a script leaves that is played to its end, and the calls it has made. -/
structure Played (Op : Type) (Reply : Op → Type) (ε α σ : Type) where
  result : Except ε α
  store : σ
  calls : List ((op : Op) × Except ε (Reply op))

/-- A call that does not come back ends the script. -/
def play (exec : (op : Op) → σ → Except ε (Reply op) × σ) : Script Op Reply ε α → σ → Played Op Reply ε α σ
  | .done a, s => ⟨.ok a, s, []⟩
  | .halt err, s => ⟨.error err, s, []⟩
  | .call op next, s =>
      match exec op s with
      | (.error err, s') => ⟨.error err, s', [⟨op, .error err⟩]⟩
      | (.ok reply, s') =>
          let played := (next reply).play exec s'
          { played with calls := ⟨op, .ok reply⟩ :: played.calls }

section Play

variable {exec : (op : Op) → σ → Except ε (Reply op) × σ} {s s' : σ}

theorem play_call_of_ok {op : Op} {next : Reply op → Script Op Reply ε α} {reply : Reply op}
    (h : exec op s = (.ok reply, s')) :
    (Script.call op next).play exec s =
      { (next reply).play exec s' with calls := ⟨op, .ok reply⟩ :: ((next reply).play exec s').calls } := by
  rw [play, h]

theorem play_call_of_error {op : Op} {next : Reply op → Script Op Reply ε α} {err : ε}
    (h : exec op s = (.error err, s')) :
    (Script.call op next).play exec s = ⟨.error err, s', [⟨op, .error err⟩]⟩ := by
  rw [play, h]

theorem play_bind_of_ok {first : Script Op Reply ε α} {rest : α → Script Op Reply ε β} {a : α}
    (h : (first.play exec s).result = .ok a) :
    (first.bind rest).play exec s =
      { (rest a).play exec (first.play exec s).store with
        calls := (first.play exec s).calls ++ ((rest a).play exec (first.play exec s).store).calls } := by
  induction first generalizing s with
  | done a' =>
      cases h
      rfl
  | halt err => cases h
  | call op next ih =>
      rcases hexec : exec op s with ⟨err | reply, s'⟩
      · rw [play_call_of_error hexec] at h
        cases h
      · rw [play_call_of_ok hexec] at h
        rw [bind, play_call_of_ok hexec, play_call_of_ok hexec, ih reply h]
        rfl

theorem play_bind_of_error {first : Script Op Reply ε α} {rest : α → Script Op Reply ε β} {err : ε}
    (h : (first.play exec s).result = .error err) :
    (first.bind rest).play exec s = ⟨.error err, (first.play exec s).store, (first.play exec s).calls⟩ := by
  induction first generalizing s with
  | done a => cases h
  | halt err' =>
      cases h
      rfl
  | call op next ih =>
      rcases hexec : exec op s with ⟨err' | reply, s'⟩
      · rw [play_call_of_error hexec] at h
        cases h
        rw [bind, play_call_of_error hexec, play_call_of_error hexec]
      · rw [play_call_of_ok hexec] at h
        rw [bind, play_call_of_ok hexec, play_call_of_ok hexec, ih reply h]

/-- The surroundings a lower level makes. -/
def execBy (handler : (op : Op) → Script Low LowReply ε (Reply op))
    (exec : (op : Low) → σ → Except ε (LowReply op) × σ) (op : Op) (s : σ) : Except ε (Reply op) × σ :=
  (((handler op).play exec s).result, ((handler op).play exec s).store)

/-- Played against these surroundings, a script does what it does once it is brought to the lower
level. -/
theorem play_interpret {handler : (op : Op) → Script Low LowReply ε (Reply op)}
    {low : (op : Low) → σ → Except ε (LowReply op) × σ} (script : Script Op Reply ε α) :
    ((script.interpret handler).play low s).result = (script.play (execBy handler low) s).result ∧
      ((script.interpret handler).play low s).store = (script.play (execBy handler low) s).store := by
  induction script generalizing s with
  | done a => exact ⟨rfl, rfl⟩
  | halt err => exact ⟨rfl, rfl⟩
  | call op next ih =>
      cases hresult : ((handler op).play low s).result with
      | error err =>
          have hexec : execBy handler low op s = (.error err, ((handler op).play low s).store) := by
            rw [execBy, hresult]
          rw [interpret, play_bind_of_error hresult, play_call_of_error hexec]
          exact ⟨rfl, rfl⟩
      | ok reply =>
          have hexec : execBy handler low op s = (.ok reply, ((handler op).play low s).store) := by
            rw [execBy, hresult]
          rw [interpret, play_bind_of_ok hresult, play_call_of_ok hexec]
          exact ih reply

end Play

/-! ### Faults -/

/-- A store whose calls meet faults that are fixed beforehand, with the answers given so far. -/
structure Session (Op : Type) (Reply : Op → Type) (Fault σ : Type) where
  faults : ℕ → Fault
  store : σ
  answers : List ((op : Op) × Reply op)

def serve (exec : (op : Op) → Fault → σ → Reply op × σ) (op : Op) (session : Session Op Reply Fault σ) :
    Except ε (Reply op) × Session Op Reply Fault σ :=
  let reply := (exec op (session.faults 0) session.store).1
  let store := (exec op (session.faults 0) session.store).2
  (.ok reply, ⟨fun n => session.faults (n + 1), store, session.answers ++ [⟨op, reply⟩]⟩)

/-! ### The calls a script may come to -/

/-- Whatever it is answered, a script makes such calls only, and only halts in such a way. -/
def Within (calls : Op → Prop) (halts : ε → Prop) : Script Op Reply ε α → Prop
  | .done _ => True
  | .halt err => halts err
  | .call op next => calls op ∧ ∀ reply, (next reply).Within calls halts

section Within

variable {calls : Op → Prop} {halts : ε → Prop} {exec : (op : Op) → σ → Except ε (Reply op) × σ}

theorem Within.bind {first : Script Op Reply ε α} {rest : α → Script Op Reply ε β}
    (hfirst : first.Within calls halts) (hrest : ∀ a, (rest a).Within calls halts) :
    (first.bind rest).Within calls halts := by
  induction first with
  | done a => exact hrest a
  | halt err => exact hfirst
  | call op next ih => exact ⟨hfirst.1, fun reply => ih reply (hfirst.2 reply)⟩

theorem Within.play_store {inv : σ → Prop} {script : Script Op Reply ε α} (h : script.Within calls halts)
    (hexec : ∀ op s, calls op → inv s → inv (exec op s).2) {s : σ} (hs : inv s) : inv (script.play exec s).store := by
  induction script generalizing s with
  | done a => exact hs
  | halt err => exact hs
  | call op next ih =>
      have hafter := hexec op s h.1 hs
      rcases hcall : exec op s with ⟨err | reply, s'⟩
      · rw [hcall] at hafter
        rw [play_call_of_error hcall]
        exact hafter
      · rw [hcall] at hafter
        rw [play_call_of_ok hcall]
        exact ih reply (h.2 reply) hafter

theorem Within.play_result {script : Script Op Reply ε α} (h : script.Within calls halts)
    (hexec : ∀ op s, calls op → ∀ err, (exec op s).1 = .error err → halts err) {s : σ} {err : ε}
    (herr : (script.play exec s).result = .error err) : halts err := by
  induction script generalizing s with
  | done a => cases herr
  | halt err' =>
      cases herr
      exact h
  | call op next ih =>
      rcases hcall : exec op s with ⟨err' | reply, s'⟩
      · rw [play_call_of_error hcall] at herr
        cases herr
        exact hexec op s h.1 err (by rw [hcall])
      · rw [play_call_of_ok hcall] at herr
        exact ih reply (h.2 reply) herr

end Within

/-! ### Safe under any fault that may come -/

/-- Whatever faults the calls of the script meet among those that are allowed, each call is a good one,
and the end makes `post` true. -/
def Safe (exec : (op : Op) → Fault → σ → Reply op × σ) (allowed good : Op → Fault → σ → Prop)
    (post : α → σ → Prop) : Script Op Reply ε α → σ → Prop
  | .done a, s => post a s
  | .halt _, _ => True
  | .call op next, s => ∀ fault, allowed op fault s →
      good op fault s ∧ (next (exec op fault s).1).Safe exec allowed good post (exec op fault s).2

section Safe

variable {exec : (op : Op) → Fault → σ → Reply op × σ} {allowed good : Op → Fault → σ → Prop}

theorem Safe.bind {first : Script Op Reply ε α} {rest : α → Script Op Reply ε β} {mid : α → σ → Prop}
    {post : β → σ → Prop} {s : σ} (hfirst : first.Safe exec allowed good mid s)
    (hrest : ∀ a s, mid a s → (rest a).Safe exec allowed good post s) :
    (first.bind rest).Safe exec allowed good post s := by
  induction first generalizing s with
  | done a => exact hrest a s hfirst
  | halt err => trivial
  | call op next ih =>
      intro fault hallowed
      obtain ⟨hgood, hnext⟩ := hfirst fault hallowed
      exact ⟨hgood, ih _ hnext⟩

theorem safe_of_forall (hgood : ∀ op fault s, allowed op fault s → good op fault s)
    (script : Script Op Reply ε α) (s : σ) : script.Safe exec allowed good (fun _ _ => True) s := by
  induction script generalizing s with
  | done a => trivial
  | halt err => trivial
  | call op next ih => exact fun fault hallowed => ⟨hgood op fault s hallowed, ih _ _⟩

end Safe

def Session.after (exec : (op : Op) → Fault → σ → Reply op × σ) (session : Session Op Reply Fault σ) (op : Op) :
    Session Op Reply Fault σ :=
  ⟨fun n => session.faults (n + 1), (exec op (session.faults 0) session.store).2,
    session.answers ++ [⟨op, (exec op (session.faults 0) session.store).1⟩]⟩

theorem serve_eq {exec : (op : Op) → Fault → σ → Reply op × σ} (op : Op) (session : Session Op Reply Fault σ) :
    (serve exec op session : Except ε (Reply op) × Session Op Reply Fault σ) =
      (.ok (exec op (session.faults 0) session.store).1, session.after exec op) := rfl

/-- What a script played to its end in a session makes true. -/
def Ensures (exec : (op : Op) → Fault → σ → Reply op × σ) (post : Except ε α → Session Op Reply Fault σ → Prop)
    (script : Script Op Reply ε α) (session : Session Op Reply Fault σ) : Prop :=
  post (script.play (serve exec) session).result (script.play (serve exec) session).store

section Ensures

variable {exec : (op : Op) → Fault → σ → Reply op × σ} {post : Except ε α → Session Op Reply Fault σ → Prop}
  {session : Session Op Reply Fault σ}

theorem Ensures.done {a : α} (h : post (.ok a) session) : (Script.done a).Ensures exec post session := h

theorem Ensures.halt {err : ε} (h : post (.error err) session) : (Script.halt err).Ensures exec post session := h

theorem Ensures.call {op : Op} {next : Reply op → Script Op Reply ε α}
    (h : (next (exec op (session.faults 0) session.store).1).Ensures exec post (session.after exec op)) :
    (Script.call op next).Ensures exec post session := h

end Ensures

/-! ### Stopped and started -/

/-- A store, and what is left of the script that runs against it. -/
structure Machine (Op : Type) (Reply : Op → Type) (ε α σ : Type) where
  store : σ
  running : Option (Script Op Reply ε α)

inductive Move (Start Fault : Type) where
  | start (input : Start)
  | answer (fault : Fault)
  | stop

/-- A script is started where none runs. Its calls are answered one at a time, and it is taken away
at its end, or before. -/
def step (program : Start → Script Op Reply ε α) (exec : (op : Op) → Fault → σ → Reply op × σ) :
    Machine Op Reply ε α σ → Move Start Fault → Option (Machine Op Reply ε α σ)
  | ⟨store, none⟩, .start input => some ⟨store, some (program input)⟩
  | ⟨store, some (.call op next)⟩, .answer fault =>
      let (reply, store') := exec op fault store
      some ⟨store', some (next reply)⟩
  | ⟨store, some _⟩, .stop => some ⟨store, none⟩
  | _, _ => none

section Machine

variable {program : Start → Script Op Reply ε α} {exec : (op : Op) → Fault → σ → Reply op × σ}
  {machine machine' : Machine Op Reply ε α σ} {move : Move Start Fault}

theorem step_cases (h : step program exec machine move = some machine') :
    (machine'.store = machine.store ∧ ∀ fault, move ≠ .answer fault) ∨
      ∃ op next fault, machine.running = some (.call op next) ∧ move = .answer fault ∧
        machine' = ⟨(exec op fault machine.store).2, some (next (exec op fault machine.store).1)⟩ := by
  obtain ⟨store, running⟩ := machine
  cases move with
  | start input =>
      cases running with
      | none =>
          cases h
          exact .inl ⟨rfl, fun _ => nofun⟩
      | some script => cases script <;> cases h
  | answer fault =>
      cases running with
      | none => cases h
      | some script =>
          cases script with
          | done a => cases h
          | halt err => cases h
          | call op next =>
              cases h
              exact .inr ⟨op, next, fault, rfl, rfl, rfl⟩
  | stop =>
      cases running with
      | none => cases h
      | some script =>
          have hstop : machine' = ⟨store, none⟩ := by
            cases script <;> exact (Option.some.inj h).symm
          exact .inl ⟨by rw [hstop], fun _ => nofun⟩

/-- What a condition on the answers of the calls says of the moves of a machine. -/
def OnAnswers (cond : Op → Fault → σ → Prop) (machine : Machine Op Reply ε α σ) (move : Move Start Fault) : Prop :=
  match machine.running, move with
  | some (.call op _), .answer fault => cond op fault machine.store
  | _, _ => True

/-- A safe script that runs makes good calls as long as it is not started again. -/
theorem meets_of_safe {allowed good : Op → Fault → σ → Prop} {post : α → σ → Prop} {moves : List (Move Start Fault)}
    (hsafe : ∀ script ∈ machine.running, script.Safe exec allowed good post machine.store)
    (hmoves : ∀ input, .start input ∉ moves)
    (hallowed : Transition.Meets (step program exec) (OnAnswers allowed) machine moves) :
    Transition.Meets (step program exec) (OnAnswers good) machine moves := by
  induction moves generalizing machine with
  | nil => trivial
  | cons move moves ih =>
      obtain ⟨hmove, hrest⟩ := hallowed
      have hlater : ∀ input, .start input ∉ moves := fun input h => hmoves input (List.mem_cons_of_mem _ h)
      obtain ⟨store, running⟩ := machine
      cases move with
      | start input => exact absurd List.mem_cons_self (hmoves input)
      | stop =>
          refine ⟨by unfold OnAnswers; split <;> trivial, ?_⟩
          cases running with
          | none => trivial
          | some script => cases script <;> exact ih (fun _ h => nomatch h) hlater hrest
      | answer fault =>
          rcases running with _ | ⟨a | err | ⟨op, next⟩⟩
          · exact ⟨trivial, trivial⟩
          · exact ⟨trivial, trivial⟩
          · exact ⟨trivial, trivial⟩
          · obtain ⟨hgood, hnext⟩ := hsafe _ rfl fault hmove
            exact ⟨hgood, ih (fun _ h => by cases h; exact hnext) hlater hrest⟩

end Machine

end Script
