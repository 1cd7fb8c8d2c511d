import LitmusPortal.GitOps.Config
import LitmusPortal.Lib.Transition
import Mathlib.Algebra.GroupWithZero.Nat

/-!
# One round of the sync

`GitOpsSyncHandler` starts a goroutine with `GitSyncHelper` for each configuration, ten at a time. Each wave has a
`WaitGroup` of its own, on which the round waits; a helper counts itself off when it returns, whatever it has come
to, and the helpers of a wave return in any order.
-/

namespace LitmusPortal.SyncRound

open Transition

/-- A wave, with the helpers that have been started, the last one first, and those that have not returned. -/
structure Wave where
  added : Int
  counter : Int
  started : List GitConfigDB
  running : List GitConfigDB

def Wave.add (delta : Int) : Wave := ⟨delta, delta, [], []⟩

def Wave.go (config : GitConfigDB) (wave : Wave) : Wave :=
  { wave with started := config :: wave.started, running := config :: wave.running }

def Wave.done (helper : ℕ) (wave : Wave) : Wave :=
  { wave with counter := wave.counter - 1, running := wave.running.eraseIdx helper }

inductive Stage where
  | outerLoop
  | innerLoop (min : Int)
  | wait
  | complete
  | panicked
  deriving DecidableEq, Repr

/-- The waves, the last one first. -/
structure Round where
  count : Int
  stage : Stage
  waves : List Wave

def syncGroupSize : Int := 10

def startRound (configs : List GitConfigDB) : Round where
  count := configs.length - 1
  stage := if 0 < configs.length then .outerLoop else .complete
  waves := []

/-- The lower bound of the inner loop. -/
def lowerBound (count : Int) : Int :=
  let min := count - (syncGroupSize - 1)
  if min < 0 then 0 else min

inductive Move where
  | handler
  | helper (wave helper : ℕ)
  deriving DecidableEq, Repr

def stepHandler (configs : List GitConfigDB) (s : Round) : Option Round :=
  match s.stage, s.waves with
  | .outerLoop, waves =>
      if 0 ≤ s.count then
        let min := lowerBound s.count
        some { s with stage := .innerLoop min, waves := Wave.add (s.count + 1 - min) :: waves }
      else some { s with stage := .complete }
  | .innerLoop min, wave :: waves =>
      if min ≤ s.count then
        match configs[s.count.toNat]? with
        | none => some { s with stage := .panicked }
        | some config => some { s with count := s.count - 1, waves := wave.go config :: waves }
      else some { s with stage := .wait }
  | .wait, wave :: _ => if wave.counter = 0 then some { s with stage := .outerLoop } else none
  | _, _ => none

/-- `wg.Done()`, which panics where the counter gets negative. -/
def stepHelper (s : Round) (wave helper : ℕ) : Option Round := do
  let found ← s.waves[wave]?
  if helper < found.running.length then
    if found.counter ≤ 0 then some { s with stage := .panicked }
    else some { s with waves := s.waves.modify wave (Wave.done helper) }
  else none

def step (configs : List GitConfigDB) (s : Round) : Move → Option Round
  | .handler => stepHandler configs s
  | .helper wave helper => stepHelper s wave helper

/-! ## What stands at each moment of a round -/

/-- The wave has accounted for its helpers up to those it has still to start. -/
structure Wave.Accounts (wave : Wave) (pending : Int) : Prop where
  added : wave.added = wave.started.length + pending
  counter : wave.counter = wave.running.length + pending
  size : wave.added ≤ syncGroupSize

structure Wave.Finished (wave : Wave) : Prop extends wave.Accounts 0 where
  running : wave.running = []

theorem Wave.accounts_add {delta : Int} (hdelta : delta ≤ syncGroupSize) : (Wave.add delta).Accounts delta where
  added := by simp [Wave.add]
  counter := by simp [Wave.add]
  size := hdelta

theorem Wave.Accounts.go {wave : Wave} {pending : Int} (h : wave.Accounts (pending + 1)) (config : GitConfigDB) :
    (wave.go config).Accounts pending where
  added := by
    have hadded := h.added
    simp only [Wave.go, List.length_cons]
    omega
  counter := by
    have hcounter := h.counter
    simp only [Wave.go, List.length_cons]
    omega
  size := h.size

theorem Wave.Accounts.done {wave : Wave} {pending : Int} (h : wave.Accounts pending) {helper : ℕ}
    (hhelper : helper < wave.running.length) : (wave.done helper).Accounts pending where
  added := h.added
  counter := by
    have hcounter := h.counter
    have hlength := List.length_eraseIdx_add_one hhelper
    simp only [Wave.done]
    omega
  size := h.size

/-- The helpers started so far are those of the configurations behind the counter, each of them once. -/
structure Counted (configs : List GitConfigDB) (count : Int) (waves : List Wave) : Prop where
  lower : -1 ≤ count
  upper : count < configs.length
  started : waves.flatMap Wave.started = configs.drop (count + 1).toNat

theorem Counted.modify {configs : List GitConfigDB} {count : Int} {wave : Wave} {older : List Wave}
    (h : Counted configs count (wave :: older)) (helper : ℕ) :
    Counted configs count (wave.done helper :: older) where
  lower := h.lower
  upper := h.upper
  started := h.started

theorem Counted.go {configs : List GitConfigDB} {count : Int} {wave : Wave} {older : List Wave}
    (h : Counted configs count (wave :: older)) (hcount : 0 ≤ count) {config : GitConfigDB}
    (hconfig : configs[count.toNat]? = some config) :
    Counted configs (count - 1) (wave.go config :: older) where
  lower := by omega
  upper := by
    have hupper := h.upper
    omega
  started := by
    have hindex : (count + 1).toNat = count.toNat + 1 := by omega
    have hnext : (count - 1 + 1).toNat = count.toNat := by omega
    obtain ⟨hlt, rfl⟩ := List.getElem?_eq_some_iff.mp hconfig
    have hstarted := h.started
    rw [hindex] at hstarted
    rw [hnext, List.drop_eq_getElem_cons hlt, ← hstarted]
    rfl

inductive Sound (configs : List GitConfigDB) : Round → Prop
  | outerLoop {count : Int} {waves : List Wave} (counted : Counted configs count waves)
      (finished : ∀ wave ∈ waves, wave.Finished) : Sound configs ⟨count, .outerLoop, waves⟩
  | innerLoop {count min : Int} {wave : Wave} {older : List Wave} (counted : Counted configs count (wave :: older))
      (finished : ∀ wave ∈ older, wave.Finished) (accounts : wave.Accounts (count + 1 - min)) (lower : 0 ≤ min)
      (upper : min ≤ count + 1) (first : wave.started = [] → min ≤ count) :
      Sound configs ⟨count, .innerLoop min, wave :: older⟩
  | wait {count : Int} {wave : Wave} {older : List Wave} (counted : Counted configs count (wave :: older))
      (finished : ∀ wave ∈ older, wave.Finished) (accounts : wave.Accounts 0) :
      Sound configs ⟨count, .wait, wave :: older⟩
  | complete {waves : List Wave} (counted : Counted configs (-1) waves)
      (finished : ∀ wave ∈ waves, wave.Finished) : Sound configs ⟨-1, .complete, waves⟩

theorem sound_startRound (configs : List GitConfigDB) : Sound configs (startRound configs) := by
  have hcounted : Counted configs (configs.length - 1) [] :=
    { lower := by omega
      upper := by omega
      started := by simp }
  unfold startRound
  split
  · exact .outerLoop hcounted (by simp)
  · rename_i hlength
    have hzero : ((configs.length : Int) - 1) = -1 := by omega
    rw [hzero] at hcounted ⊢
    exact .complete hcounted (by simp)

theorem lowerBound_spec {count : Int} (hcount : 0 ≤ count) :
    0 ≤ lowerBound count ∧ lowerBound count ≤ count ∧ count + 1 - lowerBound count ≤ syncGroupSize := by
  unfold lowerBound syncGroupSize
  simp only
  split <;> omega

theorem Sound.stepHandler {configs : List GitConfigDB} {s s' : Round} (hs : Sound configs s)
    (hstep : stepHandler configs s = some s') : Sound configs s' := by
  cases hs with
  | @outerLoop count waves counted finished =>
      simp only [SyncRound.stepHandler] at hstep
      split at hstep
      · rename_i hcount
        obtain ⟨hlower, hupper, hsize⟩ := lowerBound_spec hcount
        obtain rfl := Option.some.inj hstep
        refine .innerLoop ?_ finished (Wave.accounts_add hsize) hlower (by omega) fun _ => hupper
        exact { counted with started := counted.started }
      · obtain rfl := Option.some.inj hstep
        have hcount : count = -1 := by
          have hlower := counted.lower
          omega
        subst hcount
        exact .complete counted finished
  | @innerLoop count min wave older counted finished accounts lower upper first =>
      simp only [SyncRound.stepHandler] at hstep
      split at hstep
      · rename_i hmin
        have hcount : 0 ≤ count := by omega
        have hlt : count.toNat < configs.length := by
          have hupper := counted.upper
          omega
        simp only [List.getElem?_eq_getElem hlt, Option.some.injEq] at hstep
        subst hstep
        have haccounts : wave.Accounts (count - 1 + 1 - min + 1) := by
          convert accounts using 1
          omega
        refine .innerLoop (counted.go hcount (List.getElem?_eq_getElem hlt)) finished (haccounts.go _) lower
          (by omega) fun hempty => ?_
        simp [Wave.go] at hempty
      · obtain rfl := Option.some.inj hstep
        have hpending : count + 1 - min = 0 := by omega
        rw [hpending] at accounts
        exact .wait counted finished accounts
  | @wait count wave older counted finished accounts =>
      simp only [SyncRound.stepHandler] at hstep
      split at hstep
      · rename_i hcounter
        obtain rfl := Option.some.inj hstep
        have hrunning : wave.running = [] := by
          have hlength := accounts.counter
          exact List.length_eq_zero_iff.mp (by omega)
        refine .outerLoop counted fun other hother => ?_
        rcases List.mem_cons.mp hother with rfl | hother
        · exact ⟨accounts, hrunning⟩
        · exact finished other hother
      · cases hstep
  | complete => simp [SyncRound.stepHandler] at hstep

theorem not_stepHelper_of_finished {s : Round} {index helper : ℕ} {found : Wave}
    (hfound : s.waves[index]? = some found) (hfinished : found.Finished) : stepHelper s index helper = none := by
  simp [stepHelper, hfound, hfinished.running]

theorem not_stepHelper {count : Int} {stage : Stage} {waves : List Wave}
    (hfinished : ∀ wave ∈ waves, wave.Finished) (index helper : ℕ) :
    stepHelper ⟨count, stage, waves⟩ index helper = none := by
  cases hfound : waves[index]? with
  | none => simp [stepHelper, hfound]
  | some found => exact not_stepHelper_of_finished hfound (hfinished found (List.mem_of_getElem? hfound))

/-- Only a helper of the last wave can return, and its wave is waiting for it. -/
theorem stepHelper_of_accounts {count pending : Int} {stage : Stage} {wave : Wave} {older : List Wave}
    {index helper : ℕ} {s' : Round} (hfinished : ∀ wave ∈ older, wave.Finished) (haccounts : wave.Accounts pending)
    (hpending : 0 ≤ pending) (hstep : stepHelper ⟨count, stage, wave :: older⟩ index helper = some s') :
    helper < wave.running.length ∧ s' = ⟨count, stage, wave.done helper :: older⟩ := by
  cases index with
  | zero =>
      simp only [stepHelper, List.getElem?_cons_zero, Option.bind_eq_bind, Option.bind_some] at hstep
      split at hstep
      · rename_i hhelper
        have hcounter : ¬ wave.counter ≤ 0 := by
          have hlength := haccounts.counter
          omega
        rw [if_neg hcounter] at hstep
        exact ⟨hhelper, (Option.some.inj hstep).symm⟩
      · cases hstep
  | succ index =>
      cases hfound : older[index]? with
      | none => simp [stepHelper, hfound] at hstep
      | some found =>
          have hnone := @not_stepHelper_of_finished ⟨count, stage, wave :: older⟩ (index + 1) helper found
            (by simpa using hfound) (hfinished found (List.mem_of_getElem? hfound))
          rw [hnone] at hstep
          cases hstep

theorem Sound.stepHelper {configs : List GitConfigDB} {s s' : Round} {index helper : ℕ} (hs : Sound configs s)
    (hstep : stepHelper s index helper = some s') : Sound configs s' := by
  cases hs with
  | outerLoop counted finished | complete counted finished =>
      rw [not_stepHelper finished] at hstep
      cases hstep
  | innerLoop counted finished accounts lower upper first =>
      obtain ⟨hhelper, rfl⟩ := stepHelper_of_accounts finished accounts (by omega) hstep
      exact .innerLoop (counted.modify helper) finished (accounts.done hhelper) lower upper first
  | wait counted finished accounts =>
      obtain ⟨hhelper, rfl⟩ := stepHelper_of_accounts finished accounts le_rfl hstep
      exact .wait (counted.modify helper) finished (accounts.done hhelper)

theorem Sound.step {configs : List GitConfigDB} {s s' : Round} {move : Move} (hs : Sound configs s)
    (hstep : step configs s move = some s') : Sound configs s' := by
  cases move with
  | handler => exact hs.stepHandler hstep
  | helper wave helper => exact hs.stepHelper hstep

/-! ## Every round comes to an end -/

def weight : Stage → Bool → ℕ
  | .outerLoop, _ => 1
  | .innerLoop _, anyStarted => if anyStarted then 3 else 0
  | .wait, _ => 2
  | .complete, _ | .panicked, _ => 0

def runningHelpers (waves : List Wave) : ℕ :=
  (waves.map fun wave => wave.running.length).sum

/-- An upper bound of the moves left. -/
def movesLeft (s : Round) : ℕ :=
  5 * (s.count + 1).toNat + runningHelpers s.waves +
    weight s.stage (s.waves.head?.any fun wave => !wave.started.isEmpty)

theorem movesLeft_startRound (configs : List GitConfigDB) :
    movesLeft (startRound configs) ≤ 5 * configs.length + 1 := by
  unfold startRound movesLeft
  split <;> simp [weight, runningHelpers]

theorem Sound.movesLeft_stepHandler {configs : List GitConfigDB} {s s' : Round} (hs : Sound configs s)
    (hstep : SyncRound.stepHandler configs s = some s') : movesLeft s' < movesLeft s := by
  cases hs with
  | outerLoop counted finished =>
      simp only [SyncRound.stepHandler] at hstep
      split at hstep
      all_goals
        obtain rfl := Option.some.inj hstep
        simp [movesLeft, weight, runningHelpers, Wave.add]
  | @innerLoop count min wave older counted finished accounts lower upper first =>
      simp only [SyncRound.stepHandler] at hstep
      split at hstep
      · have hlt : count.toNat < configs.length := by
          have hupper := counted.upper
          omega
        simp only [List.getElem?_eq_getElem hlt, Option.some.injEq] at hstep
        subst hstep
        simp [movesLeft, weight, runningHelpers, Wave.go]
        omega
      · obtain rfl := Option.some.inj hstep
        have hstarted : wave.started ≠ [] := fun hempty => absurd (first hempty) (by omega)
        simp [movesLeft, weight, hstarted]
  | wait counted finished accounts =>
      simp only [SyncRound.stepHandler] at hstep
      split at hstep
      · obtain rfl := Option.some.inj hstep
        simp [movesLeft, weight]
      · cases hstep
  | complete => simp [SyncRound.stepHandler] at hstep

theorem movesLeft_done {count : Int} {stage : Stage} {wave : Wave} {older : List Wave} {helper : ℕ}
    (hhelper : helper < wave.running.length) :
    movesLeft ⟨count, stage, wave.done helper :: older⟩ < movesLeft ⟨count, stage, wave :: older⟩ := by
  have hlength := List.length_eraseIdx_add_one hhelper
  simp only [movesLeft, runningHelpers, Wave.done, List.map_cons, List.sum_cons, List.head?_cons, Option.any_some]
  omega

theorem Sound.movesLeft_step {configs : List GitConfigDB} {s s' : Round} {move : Move} (hs : Sound configs s)
    (hstep : SyncRound.step configs s move = some s') : movesLeft s' < movesLeft s := by
  cases move with
  | handler => exact hs.movesLeft_stepHandler hstep
  | helper index helper =>
      cases hs with
      | outerLoop counted finished | complete counted finished =>
          exact absurd hstep (by simp [SyncRound.step, not_stepHelper finished])
      | innerLoop counted finished accounts lower upper first =>
          obtain ⟨hhelper, rfl⟩ := stepHelper_of_accounts finished accounts (by omega) hstep
          exact movesLeft_done hhelper
      | wait counted finished accounts =>
          obtain ⟨hhelper, rfl⟩ := stepHelper_of_accounts finished accounts le_rfl hstep
          exact movesLeft_done hhelper

theorem Sound.length_add_movesLeft_le {configs : List GitConfigDB} {s s' : Round} {moves : List Move}
    (hs : Sound configs s) (hrun : run (SyncRound.step configs) s moves = some s') :
    moves.length + movesLeft s' ≤ movesLeft s := by
  induction moves generalizing s with
  | nil =>
      obtain rfl : s = s' := by simpa using hrun
      simp
  | cons move rest ih =>
      cases hnext : SyncRound.step configs s move with
      | none => simp [hnext] at hrun
      | some next =>
          have hrest := ih (hs.step hnext) (by simpa [hnext] using hrun)
          have hless := hs.movesLeft_step hnext
          simp only [List.length_cons]
          omega

/-- Only a wait holds the round up, and it does so for a helper that can return. -/
theorem Sound.progress {configs : List GitConfigDB} {s : Round} (hs : Sound configs s)
    (hstage : s.stage ≠ .complete) :
    (SyncRound.stepHandler configs s).isSome ∨
      s.stage = .wait ∧ ∃ helper, (SyncRound.stepHelper s 0 helper).isSome := by
  cases hs with
  | outerLoop counted finished =>
      left
      simp only [SyncRound.stepHandler]
      split <;> rfl
  | @innerLoop count min wave older counted finished accounts lower upper first =>
      left
      simp only [SyncRound.stepHandler]
      split
      · split <;> rfl
      · rfl
  | @wait count wave older counted finished accounts =>
      by_cases hcounter : wave.counter = 0
      · left
        simp [SyncRound.stepHandler, hcounter]
      · right
        have hlength : 0 < wave.running.length := by
          have hcount := accounts.counter
          omega
        have hpositive : ¬ wave.counter ≤ 0 := by
          have hcount := accounts.counter
          omega
        exact ⟨rfl, 0, by simp [SyncRound.stepHelper, hlength, hpositive]⟩
  | complete => exact absurd rfl hstage

/-! ## The fan-out -/

structure FanOut (configs : List GitConfigDB) (s : Round) : Prop where
  noPanic : s.stage ≠ .panicked
  started : s.waves.flatMap Wave.started = configs.drop (s.count + 1).toNat
  all : s.stage = .complete → s.waves.flatMap Wave.started = configs
  size : ∀ wave ∈ s.waves, wave.started.length ≤ 10
  added : ∀ wave ∈ s.waves, wave.added = wave.started.length ∨
    s.waves.head? = some wave ∧ ∃ min, s.stage = .innerLoop min
  previous : ∀ wave ∈ s.waves.tail, wave.running = []
  between : s.stage = .outerLoop ∨ s.stage = .complete → ∀ wave ∈ s.waves, wave.running = []

theorem Wave.Accounts.size_le {wave : Wave} {pending : Int} (h : wave.Accounts pending) (hpending : 0 ≤ pending) :
    wave.started.length ≤ 10 := by
  have hadded := h.added
  have hsize := h.size
  unfold syncGroupSize at hsize
  omega

theorem Wave.Finished.added_eq {wave : Wave} (h : wave.Finished) : wave.added = wave.started.length := by
  simpa using h.added

theorem Sound.fanOut {configs : List GitConfigDB} {s : Round} (hs : Sound configs s) : FanOut configs s := by
  cases hs with
  | outerLoop counted finished =>
      exact
        { noPanic := by simp
          started := counted.started
          all := by simp
          size := fun wave hwave => (finished wave hwave).size_le le_rfl
          added := fun wave hwave => .inl (finished wave hwave).added_eq
          previous := fun wave hwave => (finished wave (List.mem_of_mem_tail hwave)).running
          between := fun _ wave hwave => (finished wave hwave).running }
  | complete counted finished =>
      exact
        { noPanic := by simp
          started := counted.started
          all := fun _ => by simpa using counted.started
          size := fun wave hwave => (finished wave hwave).size_le le_rfl
          added := fun wave hwave => .inl (finished wave hwave).added_eq
          previous := fun wave hwave => (finished wave (List.mem_of_mem_tail hwave)).running
          between := fun _ wave hwave => (finished wave hwave).running }
  | @innerLoop count min wave older counted finished accounts lower upper first =>
      exact
        { noPanic := by simp
          started := counted.started
          all := by simp
          size := by
            refine List.forall_mem_cons.mpr ⟨accounts.size_le (by omega), fun other hother => ?_⟩
            exact (finished other hother).size_le le_rfl
          added := by
            refine List.forall_mem_cons.mpr ⟨.inr ⟨rfl, min, rfl⟩, fun other hother => ?_⟩
            exact .inl (finished other hother).added_eq
          previous := fun other hother => (finished other hother).running
          between := by simp }
  | @wait count wave older counted finished accounts =>
      exact
        { noPanic := by simp
          started := counted.started
          all := by simp
          size := by
            refine List.forall_mem_cons.mpr ⟨accounts.size_le le_rfl, fun other hother => ?_⟩
            exact (finished other hother).size_le le_rfl
          added := by
            refine List.forall_mem_cons.mpr ⟨.inl (by simpa using accounts.added), fun other hother => ?_⟩
            exact .inl (finished other hother).added_eq
          previous := fun other hother => (finished other hother).running
          between := by simp }

/-- Under every schedule of the handler and the helpers, a round starts each configuration's helper once, in
waves that follow one another, and it comes to an end unless a helper never returns. -/
theorem fanOut_of_run {configs : List GitConfigDB} {moves : List Move} {s : Round}
    (hrun : run (step configs) (startRound configs) moves = some s) :
    FanOut configs s ∧ moves.length ≤ 5 * configs.length + 1 ∧
      (s.stage ≠ .complete → (stepHandler configs s).isSome ∨
        s.stage = .wait ∧ ∃ helper, (stepHelper s 0 helper).isSome) := by
  have hsound : Sound configs s :=
    run_invariant_of_step (fun _ _ _ hs hstep => hs.step hstep) (sound_startRound configs) hrun
  refine ⟨hsound.fanOut, ?_, hsound.progress⟩
  have hbound := (sound_startRound configs).length_add_movesLeft_le hrun
  have hstart := movesLeft_startRound configs
  omega

def lonelyConfig : GitConfigDB where
  projectID := "project"
  repositoryURL := "https://host/owner/repo"
  branch := "main"
  latestCommit := ""
  authType := .none
  userName := none
  password := none
  token := none
  sshPrivateKey := none

theorem fanOut_of_run_single :
    ∃ s, run (step [lonelyConfig]) (startRound [lonelyConfig])
        [.handler, .handler, .helper 0 0, .handler, .handler, .handler] = some s ∧
      s.stage = .complete ∧ FanOut [lonelyConfig] s := by
  have hrun : run (step [lonelyConfig]) (startRound [lonelyConfig])
      [.handler, .handler, .helper 0 0, .handler, .handler, .handler] =
        some ⟨-1, .complete, [⟨1, 0, [lonelyConfig], []⟩]⟩ := rfl
  exact ⟨_, hrun, rfl, (fanOut_of_run hrun).1⟩

end LitmusPortal.SyncRound
