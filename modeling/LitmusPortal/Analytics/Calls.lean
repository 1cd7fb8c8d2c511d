import LitmusPortal.Analytics.Handler

/-!
# What the calls of the handlers do

The calls that only look leave the database as it is. A write is made as a whole, or up to where the
database fails.
-/

namespace LitmusPortal.Analytics

open DocumentStore Program

/-- What the calls of a handler can change. -/
def World.seen (world : World) : Database × Nat := (world.db, world.writes)

variable {env : Env} {v : Database × Nat}

theorem yields_tick : Yields World.seen v tick (fun _ => True) :=
  Triple.modifyGet fun _ h => ⟨trivial, h⟩

theorem yields_timestamp : Yields World.seen v (timestamp env) (fun time => ∃ n, time = formatTime (env.now n)) :=
  Yields.bind yields_tick fun n _ => Yields.pure ⟨n, rfl⟩

theorem yields_newUUID : Yields World.seen v (newUUID env) (fun id => ∃ n, id = env.uuid n) :=
  Yields.bind yields_tick fun n _ => Yields.pure ⟨n, rfl⟩

theorem yields_copy {α : Type} {value : α} : Yields World.seen v (copy env value) (fun a => a = value) := by
  refine Yields.bind yields_tick fun n _ => ?_
  exact Yields.ite (fun _ => Yields.throw) fun _ => Yields.pure rfl

theorem yields_deref {α : Type} {pointer : Option α} :
    Yields World.seen v (deref pointer) (fun a => pointer = some a) := by
  cases pointer with
  | none => exact Yields.throw
  | some value => exact Yields.pure rfl

theorem yields_read {α : Type} {find : Database → α} :
    Yields World.seen v (read env find) (fun a => a = find v.1) := by
  refine Yields.bind yields_tick fun n _ => ?_
  refine Yields.ite (fun _ => Yields.throw) fun _ => ?_
  refine Triple.bind Triple.get fun world => Triple.pure fun s hs => ?_
  obtain ⟨rfl, hv⟩ := hs
  exact ⟨by rw [← hv]; rfl, hv⟩

theorem yields_listPanel {query : Panel → Bool} :
    Yields World.seen v (listPanel env query) (fun panels => panels = v.1.panels.docs.filter query) :=
  yields_read

theorem yields_listDashboard {query : DashBoard → Bool} :
    Yields World.seen v (listDashboard env query)
      (fun dashboards => dashboards = v.1.dashboards.docs.filter query) :=
  yields_read

theorem yields_getDashboard {query : DashBoard → Bool} :
    Yields World.seen v (getDashboard env query)
      (fun dashboard => v.1.dashboards.docs.find? query = some dashboard) := by
  refine Yields.bind yields_read fun found hfound => ?_
  cases found with
  | none => exact Yields.throw
  | some dashboard => exact Yields.pure hfound.symm

variable {pre failed : World → Prop}

theorem triple_wrap {α : Type} {text : String} {call : Call α} {post : α → World → Prop}
    (h : Triple pre call post failed) : Triple pre (wrap text call) post failed := by
  intro s hs
  have hends := h s hs
  unfold wrap
  cases hrun : call s with
  | ok a s' =>
      rw [hrun] at hends
      exact hends
  | error err s' =>
      rw [hrun] at hends
      cases err <;> exact hends

theorem triple_orElse {α : Type} {text : String} {call : Call α} {post : α → World → Prop}
    (h : Triple pre call post failed) : Triple pre (orElse text call) post failed := by
  intro s hs
  have hends := h s hs
  unfold orElse
  cases hrun : call s with
  | ok a s' =>
      rw [hrun] at hends
      exact hends
  | error err s' =>
      rw [hrun] at hends
      cases err <;> exact hends

/-! ## Writes -/

def applySteps (steps : List (Database → Database)) (db : Database) : Database :=
  steps.foldl (fun db step => step db) db

theorem triple_write {steps : List (Database → Database)} {known known' last : Database × Nat → Prop}
    (hdone : ∀ db n, known (db, n) → (∀ written, env.cut ≠ some (n, written)) →
      known' (applySteps steps db, n + 1))
    (hcut : ∀ db n written, known (db, n) → env.cut = some (n, written) →
      last (applySteps (steps.take written) db, n + 1)) :
    Triple (fun world => known world.seen) (write env steps) (fun _ world => known' world.seen)
      (fun world => last world.seen) := by
  refine Triple.bind Triple.get fun world => ?_
  rintro s ⟨rfl, hs⟩
  cases hcutAt : env.cut with
  | none => exact hdone world.db world.writes hs (by simp [hcutAt])
  | some found =>
      obtain ⟨index, written⟩ := found
      by_cases hindex : index = world.writes
      · subst hindex
        have hlast := hcut world.db world.writes written hs hcutAt
        simp only [if_true]
        exact hlast
      · have hafter := hdone world.db world.writes hs (by simp [hcutAt, hindex])
        simp only [hindex, if_false]
        exact hafter

/-- A call that keeps a property of the database, also where it fails. -/
def Keeps (inv : Database → Prop) {α : Type} (call : Call α) : Prop :=
  Triple (fun world => inv world.db) call (fun _ world => inv world.db) (fun world => inv world.db)

variable {inv : Database → Prop}

theorem Keeps.of_yields {α : Type} {call : Call α} {result : Database × Nat → α → Prop}
    (h : ∀ v, Yields World.seen v call (result v)) : Keeps inv call := by
  have htriple := @Yields.triple _ _ _ _ World.seen call (fun v => inv v.1) result fun v _ => h v
  exact htriple.mono (fun _ hs => hs) (fun _ _ hs => hs.2) (fun _ hs => hs)

theorem triple_bind_yields {α β : Type} {call : Call α} {rest : α → Call β} {known : Database → Prop}
    {post : β → World → Prop} {failed : World → Prop} {result : Database × Nat → α → Prop}
    (hcall : ∀ v, Yields World.seen v call (result v))
    (hfailed : ∀ world : World, known world.db → failed world)
    (hrest : ∀ a v, known v.1 → result v a → Triple (fun world => known world.db) (rest a) post failed) :
    Triple (fun world => known world.db) (call >>= rest) post failed := by
  have htriple := @Yields.triple _ _ _ _ World.seen call (fun v => known v.1) result fun v _ => hcall v
  refine Triple.bind (htriple.mono (fun _ hs => hs) (fun _ _ hs => hs) hfailed) fun a s hs => ?_
  exact hrest a s.seen hs.2 hs.1 s hs.2

theorem Keeps.bind_yields {α β : Type} {call : Call α} {rest : α → Call β}
    {result : Database × Nat → α → Prop} (hcall : ∀ v, Yields World.seen v call (result v))
    (hrest : ∀ a v, inv v.1 → result v a → Keeps inv (rest a)) : Keeps inv (call >>= rest) :=
  triple_bind_yields hcall (fun _ h => h) hrest

theorem Keeps.bind {α β : Type} {call : Call α} {rest : α → Call β} (hcall : Keeps inv call)
    (hrest : ∀ a, Keeps inv (rest a)) : Keeps inv (call >>= rest) :=
  Triple.bind hcall hrest

theorem Keeps.forM {ι : Type} {f : ι → Call Unit} {items : List ι}
    (h : ∀ item ∈ items, Keeps inv (f item)) : Keeps inv (items.forM f) := Triple.forM h

theorem Keeps.throw {α : Type} {err : GoError} : Keeps inv (throw err : Call α) := Triple.throw fun _ hs => hs

theorem Keeps.throw_bind {α β : Type} {err : GoError} {rest : α → Call β} :
    Keeps inv ((MonadExcept.throw err : Call α) >>= rest) := fun _ hs => hs

theorem Keeps.pure {α : Type} {a : α} : Keeps inv (Pure.pure a : Call α) := Triple.pure fun _ hs => hs

theorem keeps_applySteps {steps : List (Database → Database)}
    (h : ∀ step ∈ steps, ∀ db, inv db → inv (step db)) {db : Database} (hdb : inv db) :
    inv (applySteps steps db) := by
  induction steps generalizing db with
  | nil => exact hdb
  | cons step steps ih =>
      exact ih (fun step hstep => h step (by simp [hstep])) (h step (by simp) db hdb)

theorem keeps_write {steps : List (Database → Database)}
    (h : ∀ step ∈ steps, ∀ db, inv db → inv (step db)) : Keeps inv (write env steps) :=
  @triple_write env steps (fun v => inv v.1) (fun v => inv v.1) (fun v => inv v.1)
    (fun _ _ hdb _ => keeps_applySteps h hdb)
    (fun _ _ _ hdb _ => keeps_applySteps (fun step hstep => h step (List.mem_of_mem_take hstep)) hdb)

theorem keeps_write_one {step : Database → Database} (h : ∀ db, inv db → inv (step db)) :
    Keeps inv (write env [step]) :=
  keeps_write fun _ hother => List.mem_singleton.mp hother ▸ h

theorem keeps_insertPanel {panels : List Panel}
    (h : ∀ panel ∈ panels, ∀ db, inv db → inv { db with panels := db.panels.add panel }) :
    Keeps inv (insertPanel env panels) := by
  refine Triple.ite (fun _ => Keeps.throw) fun _ => keeps_write fun step hstep => ?_
  obtain ⟨panel, hpanel, rfl⟩ := List.mem_map.mp hstep
  exact h panel hpanel

theorem triple_updatePanel {known : Database → Prop} {query : Panel → Bool}
    {change : Change Panel.panelID} :
    Triple (fun world => known world.db) (updatePanel env query change)
      (fun _ world => ∃ db, known db ∧ db.panels.docs.any query = true ∧
        world.db = { db with panels := db.panels.update query change })
      (fun world => ∃ db, known db ∧
        (world.db = db ∨ world.db = { db with panels := db.panels.update query change })) := by
  refine Triple.bind Triple.get fun world => ?_
  rintro s ⟨rfl, hs⟩
  have hwrite := @triple_write env [fun db => { db with panels := db.panels.update query change }]
    (fun v => v.1 = world.db)
    (fun v => v.1 = { world.db with panels := world.db.panels.update query change })
    (fun v => v.1 = world.db ∨ v.1 = { world.db with panels := world.db.panels.update query change })
    (fun db n hdb _ => by rw [show db = world.db from hdb]; rfl)
    (fun db n written hdb _ => by
      rw [show db = world.db from hdb]
      cases written with
      | zero => exact .inl rfl
      | succ written => exact .inr (by simp [applySteps]))
  have hrest : ∀ u : Unit, Triple
      (fun s : World => s.db = { world.db with panels := world.db.panels.update query change })
      (if world.db.panels.docs.any query then (Pure.pure () : Call Unit)
        else throw (.failed "panel collection query didn't matched"))
      (fun _ s => ∃ db, known db ∧ db.panels.docs.any query = true ∧
        s.db = { db with panels := db.panels.update query change })
      (fun s => ∃ db, known db ∧
        (s.db = db ∨ s.db = { db with panels := db.panels.update query change })) := fun _ =>
    Triple.ite (fun hmatched => Triple.pure fun s hs' => ⟨world.db, hs, hmatched, hs'⟩)
      fun _ => Triple.throw fun s hs' => ⟨world.db, hs, .inr hs'⟩
  have hfail : ∀ s : World, (s.db = world.db ∨
      s.db = { world.db with panels := world.db.panels.update query change }) →
        ∃ db, known db ∧ (s.db = db ∨ s.db = { db with panels := db.panels.update query change }) :=
    fun s hs' => ⟨world.db, hs, hs'⟩
  exact Triple.bind (hwrite.mono (fun _ h => h) (fun _ _ h => h) hfail) hrest world rfl

theorem keeps_updatePanel {query : Panel → Bool} {change : Change Panel.panelID}
    (h : ∀ db, inv db → inv { db with panels := db.panels.update query change }) :
    Keeps inv (updatePanel env query change) := by
  refine triple_updatePanel.mono (fun _ hs => hs) ?_ ?_
  · rintro _ s ⟨db, hdb, -, hs⟩
    rw [hs]
    exact h db hdb
  · rintro s ⟨db, hdb, hs | hs⟩
    · rwa [hs]
    · rw [hs]
      exact h db hdb

/-- The panels that are removed with a group are those that it has listed. -/
theorem Keeps.removePanelGroup {time : Call String} {group : PanelGroup}
    (htime : ∀ v, Yields World.seen v time fun _ => True)
    (h : ∀ db panel, inv db → panel ∈ db.panels.docs → panelsOfGroup group panel = true →
      ∀ db' time, inv db' → inv { db' with
        panels := db'.panels.update (fun doc => doc.panelID = panel.panelID ∧ doc.isRemoved = false)
          (removePanel time) }) :
    Keeps inv (removePanelGroup env time group) := by
  refine Keeps.bind_yields (fun v => triple_wrap yields_listPanel) fun panels v hv hpanels => ?_
  refine Keeps.forM fun panel hpanel => ?_
  rw [hpanels, List.mem_filter] at hpanel
  refine Keeps.bind_yields htime fun time _ _ _ => triple_wrap (keeps_updatePanel fun db hdb => ?_)
  exact h v.1 panel hv hpanel.1 hpanel.2 db time hdb

theorem triple_write_one {known post last : Database → Prop} {step : Database → Database}
    (hbefore : ∀ db, known db → last db) (hafter : ∀ db, known db → post (step db))
    (hpost : ∀ db, post db → last db) :
    Triple (fun world => known world.db) (write env [step]) (fun _ world => post world.db)
      (fun world => last world.db) := by
  refine @triple_write env [step] (fun v => known v.1) (fun v => post v.1) (fun v => last v.1)
    (fun db _ hdb _ => hafter db hdb) fun db _ written hdb _ => ?_
  cases written with
  | zero => exact hbefore db hdb
  | succ written => simpa [applySteps] using hpost _ (hafter db hdb)

/-! ## Mutations -/

/-- What a handler comes to, at whichever end. -/
def Reaches (before : Database) {α : Type} (call : Call α) (post : Database → Prop) : Prop :=
  Triple (fun world => world.db = before) call (fun _ world => post world.db) (fun world => post world.db)

theorem Keeps.reaches {α : Type} {call : Call α} {before : Database} (h : Keeps inv call)
    (hinv : inv before) : Reaches before call inv :=
  Triple.mono h (fun world hworld => by rwa [hworld]) (fun _ _ hs => hs) fun _ hs => hs

theorem Reaches.bind_yields {α β : Type} {call : Call α} {rest : α → Call β} {before : Database}
    {post : Database → Prop} {result : Database × Nat → α → Prop} (hpost : post before)
    (hcall : ∀ v, Yields World.seen v call (result v))
    (hrest : ∀ a v, v.1 = before → result v a → Reaches before (rest a) post) :
    Reaches before (call >>= rest) post :=
  @triple_bind_yields _ _ call rest (fun db => db = before) _ _ result hcall
    (fun _ hworld => hworld ▸ hpost) hrest

theorem triple_bind_seen {α β : Type} {call : Call α} {rest : α → Call β} {post : β → World → Prop}
    {result : α → Prop} (hcall : Yields World.seen v call result)
    (hfailed : ∀ world : World, world.seen = v → failed world)
    (hrest : ∀ a, result a → Triple (fun world => world.seen = v) (rest a) post failed) :
    Triple (fun world => world.seen = v) (call >>= rest) post failed :=
  Triple.bind (Triple.mono hcall (fun _ hs => hs) (fun _ _ hs => hs) hfailed) fun a =>
    Triple.of_and (hrest a)

theorem after_of_triple {caller : Caller} {before : Database} {mutation : Mutation}
    {post : Database → Prop}
    (h : Triple (fun world => world.seen = (before, 0)) (resolve env caller mutation)
      (fun _ world => post world.db) (fun world => post world.db)) :
    post (after env caller before mutation) := by
  have hends := h ⟨before, 0, 0⟩ rfl
  unfold after
  cases hrun : resolve env caller mutation ⟨before, 0, 0⟩ with
  | ok _ world =>
      rw [hrun] at hends
      exact hends
  | error _ world =>
      rw [hrun] at hends
      exact hends

theorem after_of_reaches {caller : Caller} {before : Database} {mutation : Mutation}
    {post : Database → Prop} (h : Reaches before (resolve env caller mutation) post) :
    post (after env caller before mutation) :=
  after_of_triple (Triple.mono h (fun _ hs => congrArg Prod.fst hs) (fun _ _ hs => hs) fun _ hs => hs)

end LitmusPortal.Analytics
