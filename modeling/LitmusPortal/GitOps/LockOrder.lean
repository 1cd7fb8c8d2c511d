import LitmusPortal.GitOps.Lock
import LitmusPortal.Lib.LockOrder
import Mathlib.Data.Fintype.EquivFin
import Mathlib.Order.Fin.Basic

/-!
# The order in which the GitOps locks are taken

The key of a project has no slash and the key of a repository has one, and every handler takes its
project first. The invariant says who owns the mutex of the map and who owns each key; a goroutine
holds what it owns, so nobody else does, and waits only for a lock that ranks above all it holds.
-/

namespace LitmusPortal.GitLock

inductive Lock where
  | mutex (key : String)
  | map

def Lock.rank : Lock → Fin 3
  | .mutex key => if '/' ∈ key.toList then 1 else 0
  | .map => 2

theorem Lock.rank_mutex_lt_map (key : String) : (Lock.mutex key).rank < Lock.map.rank := by
  by_cases hslash : '/' ∈ key.toList <;> simp [rank, hslash]

theorem Lock.rank_mutex_eq_zero {key : String} (h : '/' ∉ key.toList) : (Lock.mutex key).rank = 0 :=
  if_neg h

theorem Lock.rank_mutex_eq_one {key : String} (h : '/' ∈ key.toList) : (Lock.mutex key).rank = 1 :=
  if_pos h

/-! ## Keys -/

theorem lockArgs_eq_some {repo : String} {branch : Option String} {args : LockArgs}
    (h : lockArgs repo branch = some args) : getKey repo branch = some args.key := by
  unfold lockArgs at h
  split at h
  · cases h
  · obtain rfl := Option.some.inj h
    assumption

theorem getKey_project (projectID : String) : getKey projectID none = some projectID := rfl

theorem slash_mem_getKey {repo branch key : String} (h : getKey repo (some branch) = some key) :
    '/' ∈ key.toList := by
  simp only [getKey] at h
  split at h
  · cases h
  · obtain rfl := Option.some.inj h
    simp [String.toList_append]

/-- `key` ranks above every key of the list. -/
def Above (held : List String) (key : String) : Prop :=
  ∀ other ∈ held, (Lock.mutex other).rank < (Lock.mutex key).rank

theorem Above.not_mem {held : List String} {key : String} (h : Above held key) : key ∉ held :=
  fun hmem => lt_irrefl _ (h key hmem)

/-! ## What a handler still takes -/

/-- Each lock that the code takes ranks above those held then. -/
def Code.Ordered : List String → Code → Prop
  | _, .done => True
  | held, .lock repo branch next => ∀ args, lockArgs repo branch = some args →
      Above held args.key ∧ next.Ordered (args.key :: held)
  | held, .getGitConfig _ next => ∀ config, (next config).Ordered held
  | held, .call _ next failed => next.Ordered held ∧ failed.Ordered held

/-- The code takes no lock. -/
def Code.Free : Code → Prop
  | .done => True
  | .lock .. => False
  | .getGitConfig _ next => ∀ config, (next config).Free
  | .call _ next failed => next.Free ∧ failed.Free

theorem Code.Free.ordered {code : Code} (h : code.Free) (held : List String) : code.Ordered held := by
  induction code with
  | done => trivial
  | lock => exact h.elim
  | getGitConfig projectID next ih => exact fun config => ih config (h config)
  | call name next failed ihNext ihFailed => exact ⟨ihNext h.1, ihFailed h.2⟩

theorem Code.ordered_lock_repo {projectID repo branch : String} {next : Code}
    (hproject : '/' ∉ projectID.toList) (hnext : next.Free) :
    (Code.lock repo (some branch) next).Ordered [projectID] := by
  intro args hargs
  have hslash : '/' ∈ args.key.toList := slash_mem_getKey (lockArgs_eq_some hargs)
  refine ⟨fun other hother => ?_, hnext.ordered _⟩
  obtain rfl := List.mem_singleton.mp hother
  rw [Lock.rank_mutex_eq_zero hproject, Lock.rank_mutex_eq_one hslash]
  decide

theorem Code.ordered_lock_project {projectID : String} {next : Code}
    (hnext : next.Ordered [projectID]) : (Code.lock projectID none next).Ordered [] := by
  intro args hargs
  have hkey : projectID = args.key := Option.some.inj (lockArgs_eq_some hargs)
  exact ⟨fun other hother => absurd hother List.not_mem_nil, hkey ▸ hnext⟩

/-- A project is locked first, and then at most one repository. -/
theorem Handler.code_ordered {handler : Handler} (hproject : '/' ∉ handler.projectID.toList) :
    handler.code.Ordered [] := by
  cases handler with
  | enableGitOps config =>
      apply Code.ordered_lock_project
      apply Code.ordered_lock_repo hproject
      simp [Code.orReturn, Code.Free]
  | disableGitOps projectID =>
      apply Code.ordered_lock_project
      simp [Code.orReturn, Code.Ordered]
  | gitOpsDetails projectID =>
      apply Code.ordered_lock_project
      simp [Code.Ordered]
  | updateGitOps config =>
      apply Code.ordered_lock_project
      apply Code.ordered_lock_repo hproject
      rintro (_ | _ | config) <;> simp [Code.orReturn, Code.Free]
  | gitOpsNotification projectID =>
      apply Code.ordered_lock_project
      rintro (_ | _ | config) <;> simp [Code.orReturn, Code.Ordered]
  | upsertWorkflow workflow | deleteWorkflow workflow =>
      apply Code.ordered_lock_project
      rintro (_ | _ | config)
      · trivial
      · trivial
      · apply Code.ordered_lock_repo hproject
        simp [Code.orReturn, Code.Free]
  | gitSync config =>
      apply Code.ordered_lock_project
      apply Code.ordered_lock_repo hproject
      rintro (_ | _ | config) <;> simp [Code.Free]

/-! ## One goroutine -/

structure Goroutine.Ordered (goroutine : Goroutine) : Prop where
  nodup : goroutine.held.Nodup
  pc : match goroutine.pc with
    | .body code => code.Ordered goroutine.held
    | .lock _ args next => Above goroutine.held args.key ∧ next.Ordered (args.key :: goroutine.held)
    | .unwind => True
    | .unlock _ => goroutine.deferred ≠ []

/-- The addresses the goroutine has read are those of the map. -/
def Goroutine.Located (gitMutex : String → Option Nat) (goroutine : Goroutine) : Prop :=
  match goroutine.pc with
  | .lock .create args _ => gitMutex args.key = none
  | .lock .read args _ => gitMutex args.key ≠ none
  | .lock (.unlockMap temp) args _ | .lock (.lock temp) args _ => gitMutex args.key = some temp
  | .unlock (.unlockMap temp) | .unlock (.unlock temp) =>
      ∀ args ∈ goroutine.deferred.head?, gitMutex args.key = some temp
  | _ => True

/-- A mutex that is made for a new key changes no address that was read, outside the map's section. -/
theorem Goroutine.Located.update {gitMutex : String → Option Nat} {goroutine : Goroutine}
    (h : goroutine.Located gitMutex) (hnot : ¬ goroutine.InMap) {key : String}
    (hkey : gitMutex key = none) (temp : Nat) :
    goroutine.Located (Function.update gitMutex key (some temp)) := by
  have hkeep : ∀ other found, gitMutex other = some found →
      Function.update gitMutex key (some temp) other = some found := by
    intro other found hfound
    rw [Function.update_of_ne _ _ _, hfound]
    rintro rfl
    simp [hkey] at hfound
  obtain ⟨pc, deferred⟩ := goroutine
  unfold Located at h ⊢
  unfold InMap at hnot
  cases pc with
  | body => trivial
  | unwind => trivial
  | lock place args next =>
      cases place with
      | lock found => exact hkeep _ _ h
      | lockMap => trivial
      | check | create | read | unlockMap => simp at hnot
  | unlock place =>
      cases place with
      | unlock found => exact fun args hargs => hkeep _ _ (h args hargs)
      | lockMap => trivial
      | check | read | unlockMap => simp at hnot

/-! ## Owners -/

variable {Run : Type*} [DecidableEq Run]

/-- The owner of the mutex of the map, and the owner of each key. -/
structure Owned (state : State Run) (mapOwner : Option Run) (owner : String → Option Run) : Prop where
  ordered : ∀ run, (state.goroutines run).Ordered
  located : ∀ run, (state.goroutines run).Located state.gitLock.gitMutex
  allocated : ∀ key temp, state.gitLock.gitMutex key = some temp → temp < state.gitLock.allocated
  injective : ∀ key key' temp, state.gitLock.gitMutex key = some temp →
    state.gitLock.gitMutex key' = some temp → key = key'
  mapMutex : state.gitLock.mapMutex = mapOwner.isSome
  inMap : ∀ run, (state.goroutines run).InMap ↔ mapOwner = some run
  locked : ∀ key temp, state.gitLock.gitMutex key = some temp →
    state.gitLock.locked temp = (owner key).isSome
  held : ∀ run key, key ∈ (state.goroutines run).held ↔ owner key = some run
  known : ∀ key, state.gitLock.gitMutex key = none → owner key = none

omit [DecidableEq Run] in
theorem owned_start {handlers : Run → Handler}
    (hproject : ∀ run, '/' ∉ (handlers run).projectID.toList) :
    Owned (start handlers) none fun _ => none where
  ordered run := ⟨List.nodup_nil, Handler.code_ordered (hproject run)⟩
  located run := trivial
  allocated key temp h := by simp [start, newGitLock] at h
  injective key key' temp h := by simp [start, newGitLock] at h
  mapMutex := rfl
  inMap run := by simp [start, Goroutine.start, Goroutine.InMap]
  locked key temp h := by simp [start, newGitLock] at h
  held run key := by simp [start, Goroutine.start, Goroutine.held]
  known key _ := rfl

variable {state : State Run} {mapOwner : Option Run} {owner : String → Option Run}
  {run : Run} {goroutine : Goroutine}

theorem forall_update {goroutines : Run → Goroutine} (property : Run → Goroutine → Prop)
    (hmoved : property run goroutine) (hothers : ∀ other, other ≠ run → property other (goroutines other))
    (other : Run) : property other (Function.update goroutines run goroutine other) := by
  by_cases heq : other = run
  · subst heq
    rwa [Function.update_self]
  · rw [Function.update_of_ne heq]
    exact hothers other heq

theorem Owned.skip (h : Owned state mapOwner owner) (hordered : goroutine.Ordered)
    (hlocated : goroutine.Located state.gitLock.gitMutex)
    (hinMap : goroutine.InMap ↔ (state.goroutines run).InMap)
    (hheld : goroutine.held = (state.goroutines run).held) :
    Owned { state with goroutines := Function.update state.goroutines run goroutine } mapOwner owner where
  ordered := forall_update (fun _ g => g.Ordered) hordered fun other _ => h.ordered other
  located := forall_update (fun _ g => g.Located _) hlocated fun other _ => h.located other
  allocated := h.allocated
  injective := h.injective
  mapMutex := h.mapMutex
  inMap := forall_update (fun run g => g.InMap ↔ mapOwner = some run)
    (hinMap.trans (h.inMap run)) fun other _ => h.inMap other
  locked := h.locked
  held := forall_update (fun run g => ∀ key, key ∈ g.held ↔ owner key = some run)
    (hheld ▸ h.held run) fun other _ => h.held other
  known := h.known

theorem Owned.takeMap (h : Owned state mapOwner owner) (hfree : state.gitLock.mapMutex = false)
    (hordered : goroutine.Ordered) (hlocated : goroutine.Located state.gitLock.gitMutex)
    (hinMap : goroutine.InMap) (hheld : goroutine.held = (state.goroutines run).held) :
    Owned
      { gitLock := { state.gitLock with mapMutex := true }
        goroutines := Function.update state.goroutines run goroutine } (some run) owner where
  ordered := forall_update (fun _ g => g.Ordered) hordered fun other _ => h.ordered other
  located := forall_update (fun _ g => g.Located _) hlocated fun other _ => h.located other
  allocated := h.allocated
  injective := h.injective
  mapMutex := rfl
  inMap := by
    have hnone : mapOwner = none := by simpa [hfree] using h.mapMutex
    refine forall_update (fun other g => g.InMap ↔ some run = some other)
      (by simp [hinMap]) fun other hne => ?_
    rw [h.inMap other, hnone]
    simp [hne.symm]
  locked := h.locked
  held := forall_update (fun run g => ∀ key, key ∈ g.held ↔ owner key = some run)
    (hheld ▸ h.held run) fun other _ => h.held other
  known := h.known

theorem Owned.freeMap (h : Owned state mapOwner owner) (hin : (state.goroutines run).InMap)
    (hordered : goroutine.Ordered) (hlocated : goroutine.Located state.gitLock.gitMutex)
    (hinMap : ¬ goroutine.InMap) (hheld : goroutine.held = (state.goroutines run).held) :
    Owned
      { gitLock := { state.gitLock with mapMutex := false }
        goroutines := Function.update state.goroutines run goroutine } none owner where
  ordered := forall_update (fun _ g => g.Ordered) hordered fun other _ => h.ordered other
  located := forall_update (fun _ g => g.Located _) hlocated fun other _ => h.located other
  allocated := h.allocated
  injective := h.injective
  mapMutex := rfl
  inMap := by
    have howner : mapOwner = some run := (h.inMap run).mp hin
    refine forall_update (fun other g => g.InMap ↔ none = some other)
      (by simp [hinMap]) fun other hne => ?_
    rw [h.inMap other, howner]
    simp [hne.symm]
  locked := h.locked
  held := forall_update (fun run g => ∀ key, key ∈ g.held ↔ owner key = some run)
    (hheld ▸ h.held run) fun other _ => h.held other
  known := h.known

theorem Owned.create (h : Owned state mapOwner owner) (hin : (state.goroutines run).InMap)
    {key : String} (hnew : state.gitLock.gitMutex key = none) (hordered : goroutine.Ordered)
    (hlocated : goroutine.Located (state.gitLock.newMutex key).gitMutex) (hinMap : goroutine.InMap)
    (hheld : goroutine.held = (state.goroutines run).held) :
    Owned
      { gitLock := state.gitLock.newMutex key
        goroutines := Function.update state.goroutines run goroutine } mapOwner owner := by
  have howner : mapOwner = some run := (h.inMap run).mp hin
  have hfresh : ∀ other temp, state.gitLock.gitMutex other = some temp →
      temp ≠ state.gitLock.allocated :=
    fun other temp hfound => Nat.ne_of_lt (h.allocated other temp hfound)
  have hfound : ∀ other temp, (state.gitLock.newMutex key).gitMutex other = some temp →
      (other = key ∧ temp = state.gitLock.allocated) ∨
        (other ≠ key ∧ state.gitLock.gitMutex other = some temp) := by
    intro other temp hsome
    by_cases heq : other = key
    · subst heq
      refine .inl ⟨rfl, ?_⟩
      simpa [GitMutexLock.newMutex] using hsome.symm
    · refine .inr ⟨heq, ?_⟩
      simpa [GitMutexLock.newMutex, Function.update_of_ne heq] using hsome
  constructor
  · exact forall_update (fun _ g => g.Ordered) hordered fun other _ => h.ordered other
  · refine forall_update (fun _ g => g.Located _) hlocated fun other hne => ?_
    refine (h.located other).update (fun hother => hne ?_) hnew _
    exact Option.some.inj (((h.inMap other).mp hother).symm.trans howner)
  · intro other temp hsome
    obtain ⟨-, rfl⟩ | ⟨-, hold⟩ := hfound other temp hsome
    · exact Nat.lt_succ_self _
    · exact Nat.lt_succ_of_lt (h.allocated other temp hold)
  · intro left right temp hleft hright
    obtain ⟨rfl, rfl⟩ | ⟨-, hleft⟩ := hfound left temp hleft
    · obtain ⟨rfl, -⟩ | ⟨-, hright⟩ := hfound right _ hright
      · rfl
      · exact absurd rfl (hfresh right _ hright)
    · obtain ⟨-, rfl⟩ | ⟨-, hright⟩ := hfound right temp hright
      · exact absurd rfl (hfresh left _ hleft)
      · exact h.injective left right temp hleft hright
  · exact h.mapMutex
  · refine forall_update (fun run g => g.InMap ↔ mapOwner = some run) ?_
      fun other _ => h.inMap other
    exact iff_of_true hinMap howner
  · intro other temp hsome
    obtain ⟨rfl, rfl⟩ | ⟨-, hold⟩ := hfound other temp hsome
    · simp [GitMutexLock.newMutex, h.known other hnew]
    · simp [GitMutexLock.newMutex, Function.update_of_ne (hfresh other temp hold),
        h.locked other temp hold]
  · exact forall_update (fun run g => ∀ key, key ∈ g.held ↔ owner key = some run)
      (hheld ▸ h.held run) fun other _ => h.held other
  · intro other hnone
    by_cases heq : other = key
    · exact heq ▸ h.known key hnew
    · refine h.known other ?_
      simpa [GitMutexLock.newMutex, Function.update_of_ne heq] using hnone

theorem Owned.setLocked (h : Owned state mapOwner owner) {key : String} {temp : Nat}
    (hmutex : state.gitLock.gitMutex key = some temp) (hordered : goroutine.Ordered)
    (hlocated : goroutine.Located state.gitLock.gitMutex)
    (hinMap : goroutine.InMap ↔ (state.goroutines run).InMap) (owner' : Option Run)
    (hheld : ∀ other, other ∈ goroutine.held ↔ Function.update owner key owner' other = some run)
    (hothers : ∀ other, other ≠ run → owner key ≠ some other ∧ owner' ≠ some other) :
    Owned
      { gitLock := state.gitLock.setLocked temp owner'.isSome
        goroutines := Function.update state.goroutines run goroutine }
      mapOwner (Function.update owner key owner') where
  ordered := forall_update (fun _ g => g.Ordered) hordered fun other _ => h.ordered other
  located := forall_update (fun _ g => g.Located _) hlocated fun other _ => h.located other
  allocated := h.allocated
  injective := h.injective
  mapMutex := h.mapMutex
  inMap := forall_update (fun run g => g.InMap ↔ mapOwner = some run)
    (hinMap.trans (h.inMap run)) fun other _ => h.inMap other
  locked := by
    intro other found hfound
    by_cases heq : other = key
    · subst heq
      obtain rfl := Option.some.inj (hmutex.symm.trans hfound)
      simp [GitMutexLock.setLocked]
    · have hne : found ≠ temp := by
        rintro rfl
        exact heq (h.injective other key found hfound hmutex)
      simp [GitMutexLock.setLocked, Function.update_of_ne hne, Function.update_of_ne heq,
        h.locked other found hfound]
  held := by
    refine forall_update
      (fun run g => ∀ other, other ∈ g.held ↔ Function.update owner key owner' other = some run)
      hheld fun other hne found => ?_
    by_cases heq : found = key
    · subst heq
      obtain ⟨hbefore, hafter⟩ := hothers other hne
      rw [Function.update_self, h.held other found]
      exact iff_of_false hbefore hafter
    · rw [Function.update_of_ne heq]
      exact h.held other found
  known := by
    intro other hnone
    have hne : other ≠ key := by
      rintro rfl
      exact absurd (hnone.symm.trans hmutex) (by simp)
    rw [Function.update_of_ne hne]
    exact h.known other hnone

/-! ## One step -/

theorem GitMutexLock.lockMap_eq_some {g g' : GitMutexLock} :
    g.lockMap = some g' ↔ g.mapMutex = false ∧ g' = { g with mapMutex := true } := by
  cases hmap : g.mapMutex <;> simp [lockMap, hmap, eq_comm]

theorem GitMutexLock.unlockMap_eq_some {g g' : GitMutexLock} :
    g.unlockMap = some g' ↔ g.mapMutex = true ∧ g' = { g with mapMutex := false } := by
  cases hmap : g.mapMutex <;> simp [unlockMap, hmap, eq_comm]

theorem Owned.lock (h : Owned state mapOwner owner) {place : LockAt} {args : LockArgs} {code : Code}
    {deferred : List LockArgs} (hrun : state.goroutines run = ⟨.lock place args code, deferred⟩)
    {g : GitMutexLock} {place' : Option LockAt}
    (hlock : state.gitLock.lock args.key place = some (g, place')) :
    ∃ mapOwner owner, Owned
      { gitLock := g
        goroutines := Function.update state.goroutines run
          (match place' with
          | some place' => ⟨.lock place' args code, deferred⟩
          | none => ⟨.body code, args :: deferred⟩) } mapOwner owner := by
  have hordered := h.ordered run
  have hlocated := h.located run
  rw [hrun] at hordered hlocated
  have hpc : ∀ place', (⟨.lock place' args code, deferred⟩ : Goroutine).Ordered :=
    fun _ => ⟨hordered.nodup, hordered.pc⟩
  have hheld : ∀ place', (⟨.lock place' args code, deferred⟩ : Goroutine).held =
      (state.goroutines run).held := fun _ => by rw [hrun]; rfl
  cases place with
  | lockMap =>
      simp only [GitMutexLock.lock, Option.map_eq_some_iff, GitMutexLock.lockMap_eq_some] at hlock
      obtain ⟨g, ⟨hfree, rfl⟩, hlock⟩ := hlock
      obtain ⟨rfl, rfl⟩ := Prod.mk.inj hlock
      exact ⟨some run, owner, h.takeMap hfree (hpc _) trivial trivial (hheld _)⟩
  | check =>
      obtain ⟨rfl, rfl⟩ := Prod.mk.inj (Option.some.inj hlock)
      have hin : (state.goroutines run).InMap := by rw [hrun]; trivial
      cases hkey : state.gitLock.gitMutex args.key with
      | none =>
          refine ⟨mapOwner, owner, h.skip (hpc _) hkey (iff_of_true trivial hin) (hheld _)⟩
      | some temp =>
          refine ⟨mapOwner, owner, h.skip (hpc _) ?_ (iff_of_true trivial hin) (hheld _)⟩
          simp [Goroutine.Located, hkey]
  | create =>
      obtain ⟨rfl, rfl⟩ := Prod.mk.inj (Option.some.inj hlock)
      have hin : (state.goroutines run).InMap := by rw [hrun]; trivial
      refine ⟨mapOwner, owner, h.create hin hlocated (hpc _) ?_ trivial (hheld _)⟩
      simp [Goroutine.Located, GitMutexLock.newMutex]
  | read =>
      have hin : (state.goroutines run).InMap := by rw [hrun]; trivial
      simp only [GitMutexLock.lock, Option.map_eq_some_iff] at hlock
      obtain ⟨temp, htemp, hlock⟩ := hlock
      obtain ⟨rfl, rfl⟩ := Prod.mk.inj hlock
      exact ⟨mapOwner, owner, h.skip (hpc _) htemp (iff_of_true trivial hin) (hheld _)⟩
  | unlockMap temp =>
      have hin : (state.goroutines run).InMap := by rw [hrun]; trivial
      simp only [GitMutexLock.lock, Option.map_eq_some_iff, GitMutexLock.unlockMap_eq_some] at hlock
      obtain ⟨g, ⟨-, rfl⟩, hlock⟩ := hlock
      obtain ⟨rfl, rfl⟩ := Prod.mk.inj hlock
      exact ⟨none, owner, h.freeMap hin (hpc _) hlocated id (hheld _)⟩
  | lock temp =>
      have hout : ¬ (state.goroutines run).InMap := by rw [hrun]; exact id
      cases htaken : state.gitLock.locked temp with
      | true => simp [GitMutexLock.lock, htaken] at hlock
      | false =>
          obtain ⟨rfl, rfl⟩ : state.gitLock.setLocked temp true = g ∧ none = place' := by
            simpa [GitMutexLock.lock, htaken] using hlock
          have hfree : owner args.key = none := by
            simpa [htaken] using h.locked args.key temp hlocated
          have hafter : (⟨.body code, args :: deferred⟩ : Goroutine).Ordered :=
            ⟨List.nodup_cons.mpr ⟨hordered.pc.1.not_mem, hordered.nodup⟩, hordered.pc.2⟩
          refine ⟨mapOwner, _, h.setLocked hlocated hafter trivial (iff_of_false id hout) (some run)
            (fun other => ?_) fun other hne => ?_⟩
          · have hbefore := h.held run other
            rw [hrun] at hbefore
            by_cases heq : other = args.key
            · simp [heq, Goroutine.held]
            · rw [Function.update_of_ne heq, ← hbefore]
              simp [Goroutine.held, heq]
          · simp [hfree, hne.symm]

theorem Owned.unlock (h : Owned state mapOwner owner) {place : UnlockAt} {args : LockArgs}
    {rest : List LockArgs} (hrun : state.goroutines run = ⟨.unlock place, args :: rest⟩)
    {g : GitMutexLock} {place' : Option UnlockAt}
    (hunlock : state.gitLock.unlock args.key place = some (g, place')) :
    ∃ mapOwner owner, Owned
      { gitLock := g
        goroutines := Function.update state.goroutines run
          (match place' with
          | some place' => ⟨.unlock place', args :: rest⟩
          | none => ⟨.unwind, rest⟩) } mapOwner owner := by
  have hordered := h.ordered run
  have hlocated := h.located run
  rw [hrun] at hordered hlocated
  have hpc : ∀ place', (⟨.unlock place', args :: rest⟩ : Goroutine).Ordered :=
    fun _ => ⟨hordered.nodup, hordered.pc⟩
  have hheld : ∀ place', (⟨.unlock place', args :: rest⟩ : Goroutine).held =
      (state.goroutines run).held := fun _ => by rw [hrun]; rfl
  have howner : owner args.key = some run := by
    rw [← h.held run args.key, hrun]
    simp [Goroutine.held]
  have hknown : state.gitLock.gitMutex args.key ≠ none := by
    intro hnone
    simp [h.known args.key hnone] at howner
  cases place with
  | lockMap =>
      simp only [GitMutexLock.unlock, Option.map_eq_some_iff, GitMutexLock.lockMap_eq_some] at hunlock
      obtain ⟨g, ⟨hfree, rfl⟩, hunlock⟩ := hunlock
      obtain ⟨rfl, rfl⟩ := Prod.mk.inj hunlock
      exact ⟨some run, owner, h.takeMap hfree (hpc _) trivial trivial (hheld _)⟩
  | check =>
      have hin : (state.goroutines run).InMap := by rw [hrun]; trivial
      have hfound : (state.gitLock.gitMutex args.key).isNone = false := by
        simpa using Option.isSome_iff_ne_none.mpr hknown
      obtain ⟨rfl, rfl⟩ := Prod.mk.inj (Option.some.inj hunlock)
      rw [hfound]
      exact ⟨mapOwner, owner, h.skip (hpc .read) trivial (iff_of_true trivial hin) (hheld .read)⟩
  | read =>
      have hin : (state.goroutines run).InMap := by rw [hrun]; trivial
      simp only [GitMutexLock.unlock, Option.map_eq_some_iff] at hunlock
      obtain ⟨temp, htemp, hunlock⟩ := hunlock
      obtain ⟨rfl, rfl⟩ := Prod.mk.inj hunlock
      refine ⟨mapOwner, owner, h.skip (hpc _) ?_ (iff_of_true trivial hin) (hheld _)⟩
      simpa [Goroutine.Located] using htemp
  | unlockMap temp =>
      have hin : (state.goroutines run).InMap := by rw [hrun]; trivial
      simp only [GitMutexLock.unlock, Option.map_eq_some_iff, GitMutexLock.unlockMap_eq_some] at hunlock
      obtain ⟨g, ⟨-, rfl⟩, hunlock⟩ := hunlock
      obtain ⟨rfl, rfl⟩ := Prod.mk.inj hunlock
      exact ⟨none, owner, h.freeMap hin (hpc _) hlocated id (hheld _)⟩
  | unlock temp =>
      have hout : ¬ (state.goroutines run).InMap := by rw [hrun]; exact id
      have htemp : state.gitLock.gitMutex args.key = some temp := by
        simpa [Goroutine.Located] using hlocated
      have htaken : state.gitLock.locked temp = true := by simp [h.locked args.key temp htemp, howner]
      obtain ⟨rfl, rfl⟩ : state.gitLock.setLocked temp false = g ∧ none = place' := by
        simpa [GitMutexLock.unlock, htaken] using hunlock
      obtain ⟨hfirst, hrest⟩ := List.nodup_cons.mp hordered.nodup
      have hafter : (⟨.unwind, rest⟩ : Goroutine).Ordered := ⟨hrest, trivial⟩
      refine ⟨mapOwner, _, h.setLocked htemp hafter trivial (iff_of_false id hout) none
        (fun other => ?_) fun other hne => ?_⟩
      · have hbefore := h.held run other
        rw [hrun] at hbefore
        by_cases heq : other = args.key
        · subst heq
          simpa [Goroutine.held] using hfirst
        · rw [Function.update_of_ne heq, ← hbefore]
          simp [Goroutine.held, heq]
      · simp [howner, hne.symm]

theorem Owned.goto (h : Owned state mapOwner owner) {pc pc' : Pc} {deferred : List LockArgs}
    (hrun : state.goroutines run = ⟨pc, deferred⟩) (hordered : (⟨pc', deferred⟩ : Goroutine).Ordered)
    (hlocated : (⟨pc', deferred⟩ : Goroutine).Located state.gitLock.gitMutex)
    (hbefore : ¬ (⟨pc, deferred⟩ : Goroutine).InMap) (hafter : ¬ (⟨pc', deferred⟩ : Goroutine).InMap) :
    ∃ mapOwner owner, Owned
      { state with goroutines := Function.update state.goroutines run ⟨pc', deferred⟩ }
      mapOwner owner := by
  refine ⟨mapOwner, owner, h.skip hordered hlocated (iff_of_false hafter ?_) ?_⟩
  · rwa [hrun]
  · rw [hrun]
    rfl

theorem Owned.step (h : Owned state mapOwner owner) {reply : Reply} {next : State Run}
    (hstep : step state (run, reply) = some next) : ∃ mapOwner owner, Owned next mapOwner owner := by
  simp only [GitLock.step, Option.map_eq_some_iff] at hstep
  obtain ⟨⟨g, goroutine⟩, hstep, rfl⟩ := hstep
  have hordered := h.ordered run
  rcases hrun : state.goroutines run with ⟨pc, deferred⟩
  rw [hrun] at hstep hordered
  have hunwind : (⟨.unwind, deferred⟩ : Goroutine).Ordered := ⟨hordered.nodup, trivial⟩
  cases pc with
  | body code =>
      cases code with
      | done =>
          obtain ⟨rfl, rfl⟩ := Prod.mk.inj (Option.some.inj hstep)
          exact h.goto hrun hunwind trivial id id
      | lock repo branch code =>
          cases hargs : lockArgs repo branch with
          | none =>
              simp only [Goroutine.step, hargs] at hstep
              obtain ⟨rfl, rfl⟩ := Prod.mk.inj (Option.some.inj hstep)
              exact h.goto hrun hunwind trivial id id
          | some args =>
              simp only [Goroutine.step, hargs] at hstep
              obtain ⟨rfl, rfl⟩ := Prod.mk.inj (Option.some.inj hstep)
              exact h.goto hrun ⟨hordered.nodup, hordered.pc args hargs⟩ trivial id id
      | getGitConfig projectID code =>
          obtain ⟨rfl, rfl⟩ := Prod.mk.inj (Option.some.inj hstep)
          cases reply.panics with
          | true => exact h.goto hrun hunwind trivial id id
          | false => exact h.goto hrun ⟨hordered.nodup, hordered.pc reply.config⟩ trivial id id
      | call name code failed =>
          obtain ⟨rfl, rfl⟩ := Prod.mk.inj (Option.some.inj hstep)
          cases reply.panics with
          | true => exact h.goto hrun hunwind trivial id id
          | false =>
              cases reply.fails with
              | true => exact h.goto hrun ⟨hordered.nodup, hordered.pc.2⟩ trivial id id
              | false => exact h.goto hrun ⟨hordered.nodup, hordered.pc.1⟩ trivial id id
  | lock place args code =>
      simp only [Goroutine.step, Option.map_eq_some_iff] at hstep
      obtain ⟨⟨g', place'⟩, hlock, hstep⟩ := hstep
      have hnext := h.lock hrun hlock
      cases place' with
      | none | some =>
          obtain ⟨rfl, rfl⟩ := Prod.mk.inj hstep
          exact hnext
  | unwind =>
      cases deferred with
      | nil => simp [Goroutine.step] at hstep
      | cons args rest =>
          obtain ⟨rfl, rfl⟩ := Prod.mk.inj (Option.some.inj hstep)
          exact h.goto hrun ⟨hordered.nodup, by simp⟩ trivial id id
  | unlock place =>
      cases deferred with
      | nil => simp [Goroutine.step] at hstep
      | cons args rest =>
          simp only [Goroutine.step, Option.map_eq_some_iff] at hstep
          obtain ⟨⟨g', place'⟩, hunlock, hstep⟩ := hstep
          have hnext := h.unlock hrun hunlock
          cases place' with
          | none | some =>
              obtain ⟨rfl, rfl⟩ := Prod.mk.inj hstep
              exact hnext

theorem owned_run {handlers : Run → Handler}
    (hproject : ∀ run, '/' ∉ (handlers run).projectID.toList) {labels : List (Run × Reply)}
    (hrun : Transition.run step (start handlers) labels = some state) :
    ∃ mapOwner owner, Owned state mapOwner owner :=
  have hstart : ∃ mapOwner owner, Owned (start handlers) mapOwner owner :=
    ⟨none, _, owned_start hproject⟩
  @Transition.run_invariant_of_step _ _ step (fun state => ∃ mapOwner owner, Owned state mapOwner owner)
    (fun _ _ _ ⟨_, _, h⟩ hstep => h.step hstep) _ _ _ hstart hrun

/-! ## Waiting -/

/-- The lock the goroutine wants next, where its next step is to take one. -/
def Goroutine.waits (goroutine : Goroutine) : Option Lock :=
  match goroutine.pc with
  | .lock .lockMap _ _ | .unlock .lockMap => some .map
  | .lock (.lock _) args _ => some (.mutex args.key)
  | _ => none

def snapshot (state : State Run) : LockOrder.Snapshot Run Lock where
  holds run lock :=
    match lock with
    | .map => (state.goroutines run).InMap
    | .mutex key => InCriticalSection state run key
  waits run lock := (state.goroutines run).waits = some lock

omit [DecidableEq Run] in
theorem holds_snapshot_iff : (snapshot state).Holds run ↔ HoldsLock state run := by
  constructor
  · rintro ⟨lock, hholds⟩
    cases lock with
    | map => exact .inl hholds
    | mutex key => exact .inr ⟨key, hholds⟩
  · rintro (hin | ⟨key, hheld⟩)
    · exact ⟨.map, hin⟩
    · exact ⟨.mutex key, hheld⟩

theorem Goroutine.not_inMap_of_waits {lock : Lock} (h : goroutine.waits = some lock) :
    ¬ goroutine.InMap := by
  obtain ⟨pc, deferred⟩ := goroutine
  cases pc with
  | body => exact id
  | unwind => exact id
  | lock place => cases place <;> first | exact id | cases h
  | unlock place => cases place <;> first | exact id | cases h

theorem Goroutine.Ordered.lt_of_waits (h : goroutine.Ordered) {held : String} {wanted : Lock}
    (hheld : held ∈ goroutine.held) (hwaits : goroutine.waits = some wanted) :
    (Lock.mutex held).rank < wanted.rank := by
  obtain ⟨pc, deferred⟩ := goroutine
  cases pc with
  | body => cases hwaits
  | unwind => cases hwaits
  | lock place args code =>
      cases place with
      | lockMap =>
          obtain rfl := Option.some.inj hwaits
          exact Lock.rank_mutex_lt_map held
      | lock temp =>
          obtain rfl := Option.some.inj hwaits
          exact h.pc.1 held hheld
      | check | create | read | unlockMap => cases hwaits
  | unlock place =>
      cases place with
      | lockMap =>
          obtain rfl := Option.some.inj hwaits
          exact Lock.rank_mutex_lt_map held
      | check | read | unlockMap | unlock => cases hwaits

omit [DecidableEq Run] in
theorem Owned.snapshot_ordered (h : Owned state mapOwner owner) :
    (snapshot state).Ordered Lock.rank := by
  intro run held wanted hholds hwaits
  cases held with
  | map => exact absurd hholds (Goroutine.not_inMap_of_waits hwaits)
  | mutex key => exact (h.ordered run).lt_of_waits hholds hwaits

omit [DecidableEq Run] in
/-- A run that does not wait for a taken lock can move, unless it has finished: the mutexes it gives
back are locked, and the keys it looks up are in the map. -/
theorem Owned.isSome_step (h : Owned state mapOwner owner)
    (hactive : ¬ (state.goroutines run).Finished) (hfree : ¬ (snapshot state).Blocked run)
    (reply : Reply) : ((state.goroutines run).step state.gitLock reply).isSome := by
  have hordered := h.ordered run
  have hlocated := h.located run
  have hin := h.inMap run
  have hheld := h.held run
  have hmapFree : (state.goroutines run).waits = some .map → state.gitLock.mapMutex = false := by
    intro hwaits
    rw [h.mapMutex, Option.isSome_eq_false_iff, Option.isNone_iff_eq_none]
    refine Option.eq_none_iff_forall_ne_some.mpr fun other hother => hfree ?_
    exact ⟨.map, hwaits, other, (h.inMap other).mpr hother⟩
  have hkeyFree : ∀ key, (state.goroutines run).waits = some (.mutex key) → owner key = none := by
    refine fun key hwaits => Option.eq_none_iff_forall_ne_some.mpr fun other hother => hfree ?_
    exact ⟨.mutex key, hwaits, other, (h.held other key).mpr hother⟩
  rcases hrun : state.goroutines run with ⟨pc, deferred⟩
  rw [hrun] at hactive hordered hlocated hin hheld hmapFree hkeyFree
  have hmapTaken : (⟨pc, deferred⟩ : Goroutine).InMap → state.gitLock.mapMutex = true := by
    intro hinMap
    simp [h.mapMutex, hin.mp hinMap]
  cases pc with
  | body code =>
      cases code with
      | lock repo branch => cases hargs : lockArgs repo branch <;> simp [Goroutine.step, hargs]
      | done | getGitConfig | call => rfl
  | lock place args code =>
      simp only [Goroutine.step, Option.isSome_map]
      cases place with
      | lockMap => simp [GitMutexLock.lock, GitMutexLock.lockMap, hmapFree rfl]
      | check | create => rfl
      | read => simpa [GitMutexLock.lock] using Option.isSome_iff_ne_none.mpr hlocated
      | unlockMap => simp [GitMutexLock.lock, GitMutexLock.unlockMap, hmapTaken trivial]
      | lock temp =>
          have hnot : state.gitLock.locked temp = false := by
            simp [h.locked args.key temp hlocated, hkeyFree args.key rfl]
          simp [GitMutexLock.lock, hnot]
  | unwind =>
      cases deferred with
      | nil => exact absurd ⟨rfl, rfl⟩ hactive
      | cons => rfl
  | unlock place =>
      cases deferred with
      | nil => exact absurd rfl hordered.pc
      | cons args rest =>
          have howner : owner args.key = some run := (hheld args.key).mp (by simp [Goroutine.held])
          have hknown : state.gitLock.gitMutex args.key ≠ none := by
            intro hnone
            simp [h.known args.key hnone] at howner
          simp only [Goroutine.step, Option.isSome_map]
          cases place with
          | lockMap => simp [GitMutexLock.unlock, GitMutexLock.lockMap, hmapFree rfl]
          | check => rfl
          | read => simpa [GitMutexLock.unlock] using Option.isSome_iff_ne_none.mpr hknown
          | unlockMap => simp [GitMutexLock.unlock, GitMutexLock.unlockMap, hmapTaken trivial]
          | unlock temp =>
              have htemp : state.gitLock.gitMutex args.key = some temp := by
                simpa [Goroutine.Located] using hlocated
              simp [GitMutexLock.unlock, h.locked args.key temp htemp, howner]

omit [DecidableEq Run] in
theorem not_finished_of_holdsLock (h : HoldsLock state run) : ¬ (state.goroutines run).Finished := by
  rintro ⟨hpc, hdeferred⟩
  obtain hin | ⟨key, hheld⟩ := h
  · simp [Goroutine.InMap, hpc] at hin
  · simp [InCriticalSection, Goroutine.held, hdeferred] at hheld

/-! ## All interleavings -/

/-- Whatever handlers run, and in whatever interleaving: nobody else is in the critical section of a
key while one run is, and a state in which runs are left is no deadlock. -/
theorem gitLock_safe (handlers : Run → Handler)
    (hproject : ∀ run, '/' ∉ (handlers run).projectID.toList) {labels : List (Run × Reply)}
    {state : State Run} (hrun : Transition.run step (start handlers) labels = some state) :
    (∀ key run run', InCriticalSection state run key → InCriticalSection state run' key →
      run = run') ∧
    ((∃ run, HoldsLock state run) → ∃ run, HoldsLock state run ∧ CanStep state run) ∧
    ((∃ run, ¬ (state.goroutines run).Finished) → ∃ run, CanStep state run) := by
  obtain ⟨mapOwner, owner, h⟩ := owned_run hproject hrun
  have hcanStep : ∀ run, ¬ (state.goroutines run).Finished → ¬ (snapshot state).Blocked run →
      CanStep state run := by
    intro run hactive hfree reply
    simpa [step] using h.isSome_step hactive hfree reply
  refine ⟨fun key run run' hleft hright => ?_, fun hheld => ?_, fun ⟨run, hactive⟩ => ?_⟩
  · have hleft : owner key = some run := (h.held run key).mp hleft
    have hright : owner key = some run' := (h.held run' key).mp hright
    exact Option.some.inj (hleft.symm.trans hright)
  · simp only [← holds_snapshot_iff] at hheld ⊢
    obtain ⟨run, hholds, hfree⟩ := h.snapshot_ordered.exists_holder_not_blocked hheld
    have hactive := not_finished_of_holdsLock (holds_snapshot_iff.mp hholds)
    exact ⟨run, hholds, hcanStep run hactive hfree⟩
  · have hholders : ∀ run, (snapshot state).Holds run → ¬ (state.goroutines run).Finished :=
      fun run hholds => not_finished_of_holdsLock (holds_snapshot_iff.mp hholds)
    obtain ⟨run, hactive, hfree⟩ := h.snapshot_ordered.exists_not_blocked hactive hholders
    exact ⟨run, hcanStep run hactive hfree⟩

def sampleConfig : GitConfigDB where
  projectID := "project-1"
  repositoryURL := "https://host/org/repo.git"
  branch := "main"
  latestCommit := ""
  authType := .none
  userName := none
  password := none
  token := none
  sshPrivateKey := none

def sampleHandlers : Bool → Handler
  | true => .disableGitOps "project-1"
  | false => .gitSync sampleConfig

/-- The sync takes the project and then its repository, and the other handler comes to wait. -/
def sampleSchedule : List (Bool × Reply) :=
  (List.replicate 14 false ++ List.replicate 5 true).map fun run => (run, ⟨.ok none, false, false⟩)

theorem gitLock_safe_sync_disable :
    ∃ state, Transition.run step (start sampleHandlers) sampleSchedule = some state ∧
      InCriticalSection state false "project-1" ∧ InCriticalSection state false "org/repo/main" ∧
      ¬ InCriticalSection state true "project-1" ∧ ∃ run, HoldsLock state run ∧ CanStep state run := by
  have hproject : ∀ run, '/' ∉ (sampleHandlers run).projectID.toList := by decide
  have hends : (Transition.run step (start sampleHandlers) sampleSchedule).map
      (fun state => (state.goroutines false).held) = some ["org/repo/main", "project-1"] := by
    decide +kernel
  obtain ⟨state, hrun, hheld⟩ := Option.map_eq_some_iff.mp hends
  have hsync : InCriticalSection state false "project-1" := by simp [InCriticalSection, hheld]
  obtain ⟨hexclusive, hmove, -⟩ := gitLock_safe sampleHandlers hproject hrun
  refine ⟨state, hrun, hsync, by simp [InCriticalSection, hheld], fun hother => ?_, ?_⟩
  · exact absurd (hexclusive _ _ _ hsync hother) (by decide)
  · exact hmove ⟨false, .inr ⟨_, hsync⟩⟩

end LitmusPortal.GitLock
