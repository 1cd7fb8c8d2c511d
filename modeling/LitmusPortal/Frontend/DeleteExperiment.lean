import LitmusPortal.Lib.Splice
import Mathlib.Data.List.Infix
import Mathlib.Data.List.Zip

/-!
# Deleting an experiment

`deleteExperiment` of the workflow table takes a template out of the manifest and the steps of its name out of the
groups. Both loops over the steps take items out of the list they run over. What throws a `TypeError` is `none`.
-/

namespace LitmusPortal.WorkflowTable

open Splice

structure Step where
  name : String
  template : String
  deriving DecidableEq, Repr

structure Container where
  args : Option (List String)
  deriving DecidableEq, Repr

structure Template where
  name : String
  steps : Option (List (List Step))
  container : Option Container
  deriving DecidableEq, Repr

structure WorkflowSpec where
  templates : Option (List Template)
  deriving DecidableEq, Repr

structure Spec extends WorkflowSpec where
  workflowSpec : Option WorkflowSpec
  deriving DecidableEq, Repr

structure Manifest where
  kind : String
  spec : Spec
  deriving DecidableEq, Repr

namespace Manifest

def isWorkflow (wfManifest : Manifest) : Bool := wfManifest.kind.toLower == "workflow"

def templates (wfManifest : Manifest) : Option (List Template) :=
  if wfManifest.isWorkflow then wfManifest.spec.templates
  else wfManifest.spec.workflowSpec.bind WorkflowSpec.templates

def setTemplates (wfManifest : Manifest) (templates : List Template) : Manifest :=
  if wfManifest.isWorkflow then { wfManifest with spec := { wfManifest.spec with templates := some templates } }
  else { wfManifest with spec := { wfManifest.spec with workflowSpec := some ⟨some templates⟩ } }

end Manifest

def includes (text pattern : String) : Bool := pattern.toList <:+: text.toList

def revertArgument : String :=
  "kubectl delete chaosengine -l workflow_run_id=\x7b\x7bworkflow.uid\x7d\x7d -n " ++
    "\x7b\x7bworkflow.parameters.adminModeNamespace\x7d\x7d"

/-- The first argument of a last template called `revert-` is replaced. -/
def resetRevert (templates : List Template) : Option (List Template) := do
  let last ← templates.getLast?
  if includes last.name "revert-" then
    let container ← last.container
    let args ← container.args
    return templates.set (templates.length - 1) { last with container := some ⟨some (revertArgument :: args.tail)⟩ }
  else
    return templates

def visitStep (templateName : String) (step : Step) : Option Step :=
  if step.name = templateName then none else some step

def visitGroup (templateName : String) (data : List Step) : Option (List Step) :=
  let data := forEach (visitStep templateName) data.length 0 data
  if data.length = 0 then none else some data

def deleteSteps (templateName : String) (steps : List (List Step)) : List (List Step) :=
  forEach (visitGroup templateName) steps.length 0 steps

def deleteExperiment (wfManifest : Manifest) (experimentIndex : ℕ) : Option Manifest := do
  let templates ← wfManifest.templates
  let experiment ← templates[experimentIndex]?
  let templateName := experiment.name
  let templates ← resetRevert templates
  let first ← templates[0]?
  let steps ← first.steps
  let templates := templates.set 0 { first with steps := some (deleteSteps templateName steps) }
  let templates := splice templates experimentIndex 1 []
  return wfManifest.setTemplates templates

/-! ### What is left of the steps -/

section Steps

variable (templateName : String)

/-- The steps that are to stay. -/
def others (steps : List Step) : List Step := steps.filter fun step => step.template ≠ templateName

/-- A step is taken out exactly when it refers to the template, and the step behind it, which is passed over, does not
refer to it. -/
def GroupMatches : List Step → Prop
  | [] => True
  | [step] => step.name = templateName ↔ step.template = templateName
  | step :: next :: steps =>
      if step.name = templateName then
        step.template = templateName ∧ next.template ≠ templateName ∧ GroupMatches steps
      else step.template ≠ templateName ∧ GroupMatches (next :: steps)

/-- Behind a group of which nothing is left the next one is passed over. -/
def GroupsMatch : List (List Step) → Prop
  | [] => True
  | [group] => GroupMatches templateName group
  | group :: next :: groups =>
      GroupMatches templateName group ∧
        if others templateName group = [] then others templateName next = next ∧ GroupsMatch groups
        else GroupsMatch (next :: groups)

/-- The other steps and only they are left, in their order, and no group is empty. -/
structure StepsDeleted (steps steps' : List (List Step)) : Prop where
  noReference : ∀ group ∈ steps', ∀ step ∈ group, step.template ≠ templateName
  noEmptyGroup : ∀ group ∈ steps', group ≠ []
  otherSteps : others templateName steps'.flatten = others templateName steps.flatten

variable {templateName}

theorem eq_of_append_eq {α : Type} {a a' b b' : List α} (ha : a'.Sublist a) (hb : b'.Sublist b)
    (h : a' ++ b' = a ++ b) : a' = a ∧ b' = b := by
  have hlength := congrArg List.length h
  have hale := ha.length_le
  have hble := hb.length_le
  rw [List.length_append, List.length_append] at hlength
  exact ⟨ha.eq_of_length (by omega), hb.eq_of_length (by omega)⟩

theorem skipping_cons_of_eq {step next : Step} {steps : List Step} (h : step.name = templateName) :
    skipping (visitStep templateName) (step :: next :: steps) = next :: skipping (visitStep templateName) steps := by
  rw [skipping, visitStep, if_pos h]

theorem skipping_cons_of_ne {step next : Step} {steps : List Step} (h : step.name ≠ templateName) :
    skipping (visitStep templateName) (step :: next :: steps) =
      step :: skipping (visitStep templateName) (next :: steps) := by
  rw [skipping, visitStep, if_neg h]

theorem skipping_singleton (step : Step) :
    skipping (visitStep templateName) [step] = if step.name = templateName then [] else [step] := by
  rw [skipping, visitStep]
  split <;> rfl

theorem skipping_sublist (steps : List Step) : (skipping (visitStep templateName) steps).Sublist steps := by
  induction steps using GroupMatches.induct templateName with
  | case1 => exact List.nil_sublist _
  | case2 step =>
      rw [skipping_singleton]
      split
      · exact List.nil_sublist _
      · exact List.Sublist.refl _
  | case3 step next steps hname ih =>
      rw [skipping_cons_of_eq hname]
      exact (ih.cons_cons next).cons step
  | case4 step next steps hname ih =>
      rw [skipping_cons_of_ne hname]
      exact ih.cons_cons step

theorem others_cons_of_eq {step : Step} {steps : List Step} (h : step.template = templateName) :
    others templateName (step :: steps) = others templateName steps := by
  rw [others, List.filter_cons_of_neg (by simpa using h)]
  rfl

theorem others_cons_of_ne {step : Step} {steps : List Step} (h : step.template ≠ templateName) :
    others templateName (step :: steps) = step :: others templateName steps := by
  rw [others, List.filter_cons_of_pos (by simpa using h)]
  rfl

theorem others_eq_self_iff {steps : List Step} :
    others templateName steps = steps ↔ ∀ step ∈ steps, step.template ≠ templateName := by
  rw [others, List.filter_eq_self]
  simp

theorem others_append (steps steps' : List Step) :
    others templateName (steps ++ steps') = others templateName steps ++ others templateName steps' :=
  List.filter_append _ _

theorem mem_others {step : Step} {steps : List Step} :
    step ∈ others templateName steps ↔ step ∈ steps ∧ step.template ≠ templateName := by
  rw [others, List.mem_filter, decide_eq_true_eq]

/-- Of a group exactly the others are left, where it matches and only there. -/
theorem groupMatches_iff (group : List Step) :
    GroupMatches templateName group ↔ skipping (visitStep templateName) group = others templateName group := by
  induction group using GroupMatches.induct templateName with
  | case1 => exact iff_of_true trivial rfl
  | case2 step =>
      rw [GroupMatches, skipping_singleton]
      by_cases hname : step.name = templateName
      · by_cases htemplate : step.template = templateName
        · simp [hname, htemplate, others]
        · simp [hname, htemplate, others]
      · by_cases htemplate : step.template = templateName
        · simp [hname, htemplate, others]
        · simp [hname, htemplate, others]
  | case3 step next steps hname ih =>
      rw [GroupMatches, if_pos hname, skipping_cons_of_eq hname, ih]
      constructor
      · rintro ⟨htemplate, hnext, hrest⟩
        rw [others_cons_of_eq htemplate, others_cons_of_ne hnext, hrest]
      · intro heq
        have hothers : ∀ other ∈ next :: skipping (visitStep templateName) steps, other.template ≠ templateName :=
          fun other hother => (mem_others.mp (heq ▸ hother)).2
        obtain ⟨hnext, hkept⟩ := List.forall_mem_cons.mp hothers
        have htemplate : step.template = templateName := by
          by_contra htemplate
          rw [others_cons_of_ne htemplate, others_cons_of_ne hnext] at heq
          -- what is left of the rest is too short to have one more of the others
          have hlength := congrArg List.length heq
          have hsublist : (skipping (visitStep templateName) steps).Sublist steps := skipping_sublist steps
          have hle := (hsublist.filter fun step => step.template ≠ templateName).length_le
          rw [← others, ← others, others_eq_self_iff.mpr hkept] at hle
          simp only [List.length_cons] at hlength
          omega
        rw [others_cons_of_eq htemplate, others_cons_of_ne hnext, List.cons_inj_right] at heq
        exact ⟨htemplate, hnext, heq⟩
  | case4 step next steps hname ih =>
      rw [GroupMatches, if_neg hname, skipping_cons_of_ne hname, ih]
      by_cases htemplate : step.template = templateName
      · refine iff_of_false (fun hboth => hboth.1 htemplate) fun heq => ?_
        exact (mem_others.mp (heq ▸ List.mem_cons_self)).2 htemplate
      · rw [others_cons_of_ne htemplate, List.cons_inj_right]
        exact and_iff_right htemplate

/-! ### What is left of the groups -/

theorem visitGroup_eq (group : List Step) :
    visitGroup templateName group =
      if skipping (visitStep templateName) group = [] then none
      else some (skipping (visitStep templateName) group) := by
  simp only [visitGroup, forEach_eq_skipping, List.length_eq_zero_iff]

theorem deleteSteps_eq (steps : List (List Step)) :
    deleteSteps templateName steps = skipping (visitGroup templateName) steps :=
  forEach_eq_skipping _ _

theorem visitGroup_eq_none {group : List Step} :
    visitGroup templateName group = none ↔ skipping (visitStep templateName) group = [] := by
  rw [visitGroup_eq]
  split
  · rename_i hnil
    exact iff_of_true rfl hnil
  · rename_i hne
    exact iff_of_false (by simp) hne

theorem visitGroup_eq_some {group group' : List Step} (h : visitGroup templateName group = some group') :
    group' = skipping (visitStep templateName) group ∧ group' ≠ [] := by
  rw [visitGroup_eq, Option.ite_none_left_eq_some, Option.some.injEq] at h
  obtain ⟨hne, rfl⟩ := h
  exact ⟨rfl, hne⟩

theorem flatten_sublist (groups : List (List Step)) :
    (skipping (visitGroup templateName) groups).flatten.Sublist groups.flatten := by
  induction groups using skipping.induct (visitGroup templateName) with
  | case1 => exact List.nil_sublist _
  | case2 group =>
      rw [skipping]
      cases hvisit : visitGroup templateName group with
      | none => exact List.nil_sublist _
      | some group' =>
          obtain ⟨rfl, -⟩ := visitGroup_eq_some hvisit
          exact (skipping_sublist group).append_right []
  | case3 group next groups group' hvisit ih =>
      obtain ⟨rfl, -⟩ := visitGroup_eq_some hvisit
      rw [skipping, hvisit]
      exact (skipping_sublist group).append ih
  | case4 group next groups hvisit ih =>
      rw [skipping, hvisit]
      exact (ih.append_left next).trans (List.sublist_append_right group _)

theorem others_skipping_sublist (group : List Step) :
    (others templateName (skipping (visitStep templateName) group)).Sublist (others templateName group) :=
  (skipping_sublist group).filter _

theorem others_flatten_sublist (groups : List (List Step)) :
    (others templateName (skipping (visitGroup templateName) groups).flatten).Sublist
      (others templateName groups.flatten) :=
  (flatten_sublist groups).filter _

/-- What is left of a group is right when no reference is left and none of the others is lost. -/
theorem groupMatches_iff_kept (group : List Step) :
    GroupMatches templateName group ↔
      (∀ step ∈ skipping (visitStep templateName) group, step.template ≠ templateName) ∧
        others templateName (skipping (visitStep templateName) group) = others templateName group := by
  rw [groupMatches_iff]
  constructor
  · intro heq
    have hothers : ∀ step ∈ skipping (visitStep templateName) group, step.template ≠ templateName :=
      fun step hstep => (mem_others.mp (heq ▸ hstep)).2
    exact ⟨hothers, (others_eq_self_iff.mpr hothers).trans heq⟩
  · rintro ⟨hothers, heq⟩
    exact (others_eq_self_iff.mpr hothers).symm.trans heq

theorem stepsDeleted_cons_iff {group group' : List Step} {groups groups' : List (List Step)}
    (hgroup : (others templateName group').Sublist (others templateName group))
    (hgroups : (others templateName groups'.flatten).Sublist (others templateName groups.flatten)) :
    StepsDeleted templateName (group :: groups) (group' :: groups') ↔
      ((∀ step ∈ group', step.template ≠ templateName) ∧
        others templateName group' = others templateName group) ∧
        group' ≠ [] ∧ StepsDeleted templateName groups groups' := by
  constructor
  · rintro ⟨hreference, hempty, hothers⟩
    obtain ⟨hreference, hreferences⟩ := List.forall_mem_cons.mp hreference
    obtain ⟨hempty, hempties⟩ := List.forall_mem_cons.mp hempty
    rw [List.flatten_cons, List.flatten_cons, others_append, others_append] at hothers
    obtain ⟨hfirst, hrest⟩ := eq_of_append_eq hgroup hgroups hothers
    exact ⟨⟨hreference, hfirst⟩, hempty, hreferences, hempties, hrest⟩
  · rintro ⟨⟨hreference, hfirst⟩, hempty, hreferences, hempties, hrest⟩
    refine ⟨List.forall_mem_cons.mpr ⟨hreference, hreferences⟩, List.forall_mem_cons.mpr ⟨hempty, hempties⟩, ?_⟩
    rw [List.flatten_cons, List.flatten_cons, others_append, others_append, hfirst, hrest]

/-- A group of which nothing is left has none of the others, and can be left out of account. -/
theorem stepsDeleted_drop_iff {group : List Step} {groups groups' : List (List Step)}
    (hgroups : (others templateName groups'.flatten).Sublist (others templateName groups.flatten)) :
    StepsDeleted templateName (group :: groups) groups' ↔
      others templateName group = [] ∧ StepsDeleted templateName groups groups' := by
  constructor
  · rintro ⟨hreferences, hempties, hothers⟩
    rw [List.flatten_cons, others_append, ← List.nil_append (others _ groups'.flatten)] at hothers
    obtain ⟨hfirst, hrest⟩ := eq_of_append_eq (List.nil_sublist _) hgroups hothers
    exact ⟨hfirst.symm, hreferences, hempties, hrest⟩
  · rintro ⟨hfirst, hreferences, hempties, hothers⟩
    refine ⟨hreferences, hempties, ?_⟩
    rw [List.flatten_cons, others_append, hfirst, hothers]
    rfl

theorem stepsDeleted_nil : StepsDeleted templateName [] [] :=
  ⟨fun _ hgroup => absurd hgroup List.not_mem_nil, fun _ hgroup => absurd hgroup List.not_mem_nil, rfl⟩

theorem groupMatches_of_nil {group : List Step} (h : skipping (visitStep templateName) group = []) :
    GroupMatches templateName group ↔ others templateName group = [] := by
  rw [groupMatches_iff, h]
  exact eq_comm

theorem stepsDeleted_iff {groups : List (List Step)} (hgroups : ∀ group ∈ groups, group ≠ []) :
    StepsDeleted templateName groups (skipping (visitGroup templateName) groups) ↔
      GroupsMatch templateName groups := by
  induction groups using skipping.induct (visitGroup templateName) with
  | case1 => exact iff_of_true stepsDeleted_nil trivial
  | case2 group =>
      rw [GroupsMatch, skipping]
      cases hvisit : visitGroup templateName group with
      | none =>
          rw [groupMatches_of_nil (visitGroup_eq_none.mp hvisit)]
          exact (stepsDeleted_drop_iff (List.Sublist.refl _)).trans (and_iff_left stepsDeleted_nil)
      | some group' =>
          obtain ⟨rfl, hne⟩ := visitGroup_eq_some hvisit
          rw [groupMatches_iff_kept]
          exact (stepsDeleted_cons_iff (others_skipping_sublist group) (List.Sublist.refl _)).trans
            (and_iff_left ⟨hne, stepsDeleted_nil⟩)
  | case3 group next groups group' hvisit ih =>
      obtain ⟨rfl, hne⟩ := visitGroup_eq_some hvisit
      obtain ⟨-, hrest⟩ := List.forall_mem_cons.mp hgroups
      rw [GroupsMatch, skipping, hvisit]
      refine (stepsDeleted_cons_iff (others_skipping_sublist group) (others_flatten_sublist _)).trans ?_
      rw [← groupMatches_iff_kept, ih hrest]
      refine and_congr_right fun hmatches => ?_
      have hothers : others templateName group ≠ [] := (groupMatches_iff group).mp hmatches ▸ hne
      rw [if_neg hothers]
      exact and_iff_right hne
  | case4 group next groups hvisit ih =>
      obtain ⟨-, hrest⟩ := List.forall_mem_cons.mp hgroups
      obtain ⟨hnext, hrest⟩ := List.forall_mem_cons.mp hrest
      have hnil := visitGroup_eq_none.mp hvisit
      rw [GroupsMatch, skipping, hvisit]
      refine (stepsDeleted_drop_iff ?_).trans ?_
      · rw [List.flatten_cons, List.flatten_cons, others_append, others_append]
        exact (others_flatten_sublist groups).append_left _
      rw [groupMatches_of_nil hnil]
      refine and_congr_right fun hothers => ?_
      rw [if_pos hothers, stepsDeleted_cons_iff (List.Sublist.refl _) (others_flatten_sublist groups), ih hrest,
        others_eq_self_iff]
      simp [hnext]

end Steps

/-! ### The templates -/

/-- A template that stays, with its place before: only the steps of the first and what the container of a last one
called `revert-` is given may be others. -/
structure Remains (last : ℕ) (template : Template × ℕ) (template' : Template) : Prop where
  name : template'.name = template.1.name
  steps : template.2 ≠ 0 → template'.steps = template.1.steps
  container : template.2 = last ∧ includes template.1.name "revert-" = true ∨
    template'.container = template.1.container

/-- What the deletion is for. -/
structure Deleted (templates templates' : List Template) (steps : List (List Step)) (experimentIndex : ℕ)
    (templateName : String) : Prop where
  templateGone : ∀ template ∈ templates', template.name ≠ templateName
  otherTemplates :
    List.Forall₂ (Remains (templates.length - 1)) (templates.zipIdx.eraseIdx experimentIndex) templates'
  stepsDeleted :
    ∃ first steps', templates'[0]? = some first ∧ first.steps = some steps' ∧ StepsDeleted templateName steps steps'

structure WellFormed (templates : List Template) (steps : List (List Step)) : Prop where
  nodup : (templates.map Template.name).Nodup
  first : ∃ first, templates[0]? = some first ∧ first.steps = some steps
  noEmptyGroup : ∀ group ∈ steps, group ≠ []

/-- A last template called `revert-` has arguments. -/
def RevertReady (templates : List Template) : Prop :=
  ∀ last, templates.getLast? = some last → includes last.name "revert-" = true →
    ∃ args, last.container = some ⟨some args⟩

section Templates

variable {templates reverted : List Template}

theorem revertReady_of_resetRevert (h : resetRevert templates = some reverted) : RevertReady templates := by
  intro last hlast hrevert
  rw [resetRevert, hlast] at h
  simp only [Option.bind_eq_bind, Option.bind_some, hrevert, if_true, Option.bind_eq_some_iff] at h
  obtain ⟨⟨args⟩, hcontainer, args', hargs, -⟩ := h
  exact ⟨args', hargs ▸ hcontainer⟩

theorem forall₂_zipIdx_self {R : Template × ℕ → Template → Prop} (templates : List Template) (k : ℕ)
    (h : ∀ template, ∀ j : ℕ, R (template, j) template) : List.Forall₂ R (templates.zipIdx k) templates := by
  induction templates generalizing k with
  | nil => exact .nil
  | cons template templates ih => exact .cons (h template k) (ih (k + 1))

theorem remains_self (last : ℕ) (template : Template) (place : ℕ) : Remains last (template, place) template :=
  ⟨rfl, fun _ => rfl, .inr rfl⟩

theorem forall₂_set {α β : Type} {R : α → β → Prop} {xs : List α} {ys : List β} (h : List.Forall₂ R xs ys) {i : ℕ}
    {y : β} (hy : ∀ x, xs[i]? = some x → R x y) : List.Forall₂ R xs (ys.set i y) := by
  induction h generalizing i with
  | nil => exact .nil
  | cons hhead htail ih =>
      cases i with
      | zero => exact .cons (hy _ rfl) htail
      | succ i => exact .cons hhead (ih hy)

theorem forall₂_eraseIdx {α β : Type} {R : α → β → Prop} {xs : List α} {ys : List β} (h : List.Forall₂ R xs ys)
    (i : ℕ) : List.Forall₂ R (xs.eraseIdx i) (ys.eraseIdx i) := by
  induction h generalizing i with
  | nil => exact .nil
  | cons hhead htail ih =>
      cases i with
      | zero => exact htail
      | succ i => exact .cons hhead (ih i)

theorem resetRevert_spec (hready : RevertReady templates) (hne : templates ≠ []) :
    ∃ reverted, resetRevert templates = some reverted ∧
      List.Forall₂ (Remains (templates.length - 1)) templates.zipIdx reverted ∧
      ∀ i, i + 1 < templates.length → reverted[i]? = templates[i]? := by
  have hself := forall₂_zipIdx_self templates 0 (remains_self (templates.length - 1))
  have hlast := List.getLast?_eq_some_getLast hne
  cases hrevert : includes (templates.getLast hne).name "revert-" with
  | false =>
      refine ⟨templates, ?_, hself, fun _ _ => rfl⟩
      simp [resetRevert, hlast, hrevert]
  | true =>
      obtain ⟨args, hcontainer⟩ := hready _ hlast hrevert
      refine ⟨_, by simp [resetRevert, hlast, hrevert, hcontainer]; rfl, ?_, ?_⟩
      · refine forall₂_set hself fun template htemplate => ?_
        rw [List.getElem?_zipIdx, Option.map_eq_some_iff] at htemplate
        obtain ⟨last, hat, rfl⟩ := htemplate
        rw [← List.getLast?_eq_getElem?, hlast] at hat
        obtain rfl := Option.some.inj hat
        exact ⟨rfl, fun _ => rfl, .inl ⟨Nat.zero_add _, hrevert⟩⟩
      · intro i hi
        exact List.getElem?_set_ne (by omega)

theorem names_of_remains {last : ℕ} {pairs : List (Template × ℕ)} {templates' : List Template}
    (h : List.Forall₂ (Remains last) pairs templates') :
    templates'.map Template.name = pairs.map fun template => template.1.name := by
  induction h with
  | nil => rfl
  | cons hhead htail ih => rw [List.map_cons, List.map_cons, hhead.name, ih]

end Templates

/-! ### The manifests of the portal -/

inductive Kind where
  | workflow
  | cronWorkflow

def manifestOf : Kind → List Template → Manifest
  | .workflow, templates => ⟨"Workflow", { templates := some templates, workflowSpec := none }⟩
  | .cronWorkflow, templates => ⟨"CronWorkflow", { templates := none, workflowSpec := some ⟨some templates⟩ }⟩

theorem templates_manifestOf (kind : Kind) (templates : List Template) :
    (manifestOf kind templates).templates = some templates := by
  cases kind with
  | workflow =>
      have hkind : ("Workflow".toLower == "workflow") = true := by decide +kernel
      exact if_pos hkind
  | cronWorkflow =>
      have hkind : ¬("CronWorkflow".toLower == "workflow") = true := by decide +kernel
      exact if_neg hkind

theorem setTemplates_manifestOf (kind : Kind) (templates templates' : List Template) :
    (manifestOf kind templates).setTemplates templates' = manifestOf kind templates' := by
  cases kind with
  | workflow =>
      have hkind : ("Workflow".toLower == "workflow") = true := by decide +kernel
      exact if_pos hkind
  | cronWorkflow =>
      have hkind : ¬("CronWorkflow".toLower == "workflow") = true := by decide +kernel
      exact if_neg hkind

theorem manifestOf_injective (kind : Kind) {templates templates' : List Template}
    (h : manifestOf kind templates = manifestOf kind templates') : templates = templates' := by
  have htemplates := congrArg Manifest.templates h
  rw [templates_manifestOf, templates_manifestOf] at htemplates
  exact Option.some.inj htemplates

section Deletion

variable {kind : Kind} {templates reverted : List Template} {steps : List (List Step)} {first experiment : Template}
  {experimentIndex : ℕ}

/-- The templates after the deletion, whose steps are `steps` before it. -/
def remaining (reverted : List Template) (first : Template) (steps : List (List Step)) (experimentIndex : ℕ)
    (templateName : String) : List Template :=
  (reverted.set 0 { first with steps := some (deleteSteps templateName steps) }).eraseIdx experimentIndex

theorem deleteExperiment_manifestOf (hexperiment : templates[experimentIndex]? = some experiment)
    (hreverted : resetRevert templates = some reverted) (hfirst : reverted[0]? = some first)
    (hsteps : first.steps = some steps) :
    deleteExperiment (manifestOf kind templates) experimentIndex =
      some (manifestOf kind (remaining reverted first steps experimentIndex experiment.name)) := by
  rw [deleteExperiment, templates_manifestOf]
  simp [hexperiment, hreverted, hfirst, hsteps, splice_remove, setTemplates_manifestOf, remaining]

theorem deleteExperiment_eq_none (h : resetRevert templates = none) :
    deleteExperiment (manifestOf kind templates) experimentIndex = none := by
  rw [deleteExperiment, templates_manifestOf]
  cases hexperiment : templates[experimentIndex]? with
  | none => simp [hexperiment]
  | some experiment => simp [hexperiment, h]

theorem deleted_remaining_iff (hnodup : (templates.map Template.name).Nodup) (hindex : 0 < experimentIndex)
    (hexperiment : templates[experimentIndex]? = some experiment) (hfirst : templates[0]? = some first)
    (hremains : List.Forall₂ (Remains (templates.length - 1)) templates.zipIdx reverted)
    (hreverted : reverted[0]? = some first) :
    Deleted templates (remaining reverted first steps experimentIndex experiment.name) steps experimentIndex
        experiment.name ↔
      StepsDeleted experiment.name steps (deleteSteps experiment.name steps) := by
  set changed := reverted.set 0 { first with steps := some (deleteSteps experiment.name steps) } with hchanged
  have hlength : 0 < reverted.length := (List.getElem?_eq_some_iff.mp hreverted).1
  have hhead : (changed.eraseIdx experimentIndex)[0]? =
      some { first with steps := some (deleteSteps experiment.name steps) } := by
    rw [List.getElem?_eraseIdx_of_lt hindex, hchanged]
    exact List.getElem?_set_self hlength
  constructor
  · rintro ⟨-, -, first', steps', hfirst', hsteps', hdeleted⟩
    obtain rfl := Option.some.inj (hhead.symm.trans hfirst')
    obtain rfl := Option.some.inj hsteps'
    exact hdeleted
  · intro hdeleted
    have hall : List.Forall₂ (Remains (templates.length - 1)) templates.zipIdx changed := by
      refine forall₂_set hremains fun template htemplate => ?_
      rw [List.getElem?_zipIdx, hfirst] at htemplate
      obtain rfl := Option.some.inj htemplate
      exact ⟨rfl, fun hne => absurd rfl hne, .inr rfl⟩
    refine ⟨?_, forall₂_eraseIdx hall experimentIndex, _, _, hhead, rfl, hdeleted⟩
    have hnames : changed.map Template.name = templates.map Template.name := by
      calc
        changed.map Template.name = (templates.zipIdx.map Prod.fst).map Template.name := by
          rw [names_of_remains hall, List.map_map]
          rfl
        _ = templates.map Template.name := by rw [List.zipIdx_map_fst]
    intro template htemplate hname
    obtain ⟨place, hne, hplace⟩ := List.mem_eraseIdx_iff_getElem?.mp htemplate
    have hat : (templates.map Template.name)[place]? = some experiment.name := by
      rw [← hnames, List.getElem?_map, hplace, Option.map_some, hname]
    have hat' : (templates.map Template.name)[experimentIndex]? = some experiment.name := by
      rw [List.getElem?_map, hexperiment, Option.map_some]
    have hlt := (List.getElem?_eq_some_iff.mp hat).1
    exact hne ((List.getElem?_inj hlt hnodup).mp (hat.trans hat'.symm))

end Deletion

theorem deleteExperiment_iff (kind : Kind) {templates : List Template} {steps : List (List Step)}
    {experimentIndex : ℕ} (experiment : Template) (hformed : WellFormed templates steps) (hindex : 0 < experimentIndex)
    (hexperiment : templates[experimentIndex]? = some experiment) :
    (∃ templates', deleteExperiment (manifestOf kind templates) experimentIndex = some (manifestOf kind templates') ∧
        Deleted templates templates' steps experimentIndex experiment.name) ↔
      RevertReady templates ∧ GroupsMatch experiment.name steps := by
  obtain ⟨first, hfirst, hsteps⟩ := hformed.first
  have hlt := (List.getElem?_eq_some_iff.mp hexperiment).1
  by_cases hready : RevertReady templates
  · have hne : templates ≠ [] := List.ne_nil_of_length_pos (by omega)
    obtain ⟨reverted, hreverted, hremains, hsame⟩ := resetRevert_spec hready hne
    have hfirst' : reverted[0]? = some first := (hsame 0 (by omega)).trans hfirst
    rw [deleteExperiment_manifestOf hexperiment hreverted hfirst' hsteps, and_iff_right hready,
      ← stepsDeleted_iff hformed.noEmptyGroup, ← deleteSteps_eq,
      ← deleted_remaining_iff hformed.nodup hindex hexperiment hfirst hremains hfirst']
    constructor
    · rintro ⟨templates', heq, hdeleted⟩
      rw [manifestOf_injective kind (Option.some.inj heq)]
      exact hdeleted
    · intro hdeleted
      exact ⟨_, rfl, hdeleted⟩
  · refine iff_of_false ?_ fun hboth => hready hboth.1
    rintro ⟨templates', heq, -⟩
    cases hreverted : resetRevert templates with
    | none =>
        rw [deleteExperiment_eq_none hreverted] at heq
        cases heq
    | some reverted => exact hready (revertReady_of_resetRevert hreverted)

/-! ### Two manifests -/

def engineTemplate (name : String) : Template := ⟨name, none, some ⟨some ["-file=/tmp/chaosengine.yaml"]⟩⟩

def twoExperiments (steps : List (List Step)) : List Template :=
  [⟨"custom-chaos", some steps, none⟩, engineTemplate "cpu-hog", engineTemplate "pod-delete"]

def namedAlike : List (List Step) := [[⟨"cpu-hog", "cpu-hog"⟩], [⟨"pod-delete", "pod-delete"⟩]]

theorem deleteExperiment_iff_namedAlike :
    (∃ templates',
        deleteExperiment (manifestOf .workflow (twoExperiments namedAlike)) 1 =
            some (manifestOf .workflow templates') ∧
          Deleted (twoExperiments namedAlike) templates' namedAlike 1 "cpu-hog") ↔
      RevertReady (twoExperiments namedAlike) ∧ GroupsMatch "cpu-hog" namedAlike :=
  deleteExperiment_iff .workflow (engineTemplate "cpu-hog") ⟨by decide, ⟨_, rfl, rfl⟩, by decide⟩ (by decide) rfl

def namedOtherwise : List (List Step) := [[⟨"run-cpu-hog", "cpu-hog"⟩], [⟨"pod-delete", "pod-delete"⟩]]

/-- A step of another name than its template is left behind. -/
theorem not_deleteExperiment :
    ¬∀ (kind : Kind) (templates : List Template) (steps : List (List Step)) (experimentIndex : ℕ)
        (experiment : Template), WellFormed templates steps → 0 < experimentIndex →
        templates[experimentIndex]? = some experiment →
        ∃ templates',
          deleteExperiment (manifestOf kind templates) experimentIndex = some (manifestOf kind templates') ∧
            Deleted templates templates' steps experimentIndex experiment.name := by
  intro hall
  have hformed : WellFormed (twoExperiments namedOtherwise) namedOtherwise :=
    ⟨by decide, ⟨_, rfl, rfl⟩, by decide⟩
  obtain ⟨templates', heq, hdeleted⟩ :=
    hall .workflow _ _ 1 (engineTemplate "cpu-hog") hformed (by decide) rfl
  have hcompute : deleteExperiment (manifestOf .workflow (twoExperiments namedOtherwise)) 1 =
      some (manifestOf .workflow [⟨"custom-chaos", some namedOtherwise, none⟩, engineTemplate "pod-delete"]) := by
    decide +kernel
  obtain rfl := manifestOf_injective .workflow (Option.some.inj (hcompute.symm.trans heq))
  obtain ⟨first, steps', hfirst, hsteps, hstepsDeleted⟩ := hdeleted.stepsDeleted
  obtain rfl := Option.some.inj hfirst
  obtain rfl := Option.some.inj hsteps
  exact hstepsDeleted.noReference [⟨"run-cpu-hog", "cpu-hog"⟩] List.mem_cons_self _ List.mem_cons_self rfl

end LitmusPortal.WorkflowTable
