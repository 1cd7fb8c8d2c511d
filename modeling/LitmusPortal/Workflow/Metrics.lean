import LitmusPortal.Workflow.Manifest
import LitmusPortal.Workflow.Run
import Mathlib.Algebra.BigOperators.Ring.Finset
import Mathlib.Algebra.Order.BigOperators.Group.List
import Mathlib.Data.Rat.Floor
import Mathlib.Tactic.Linarith
import Mathlib.Tactic.FieldSimp

/-!
# The metrics of a run, in every order

`ProcessCompletedWorkflowRun` ranges over two maps: over the nodes of the run, and at each node over the names
of the weightages. A pass fixes all of these orders. At a node the last name that the engine name contains
decides, so the total is any sum of one option for each node.
-/

namespace LitmusPortal

open GoStrings DocumentStore

/-! ## Passes -/

abbrev Visit := List String × Node

/-- Every node is visited once, with the names in some order. -/
structure IsPass (names : List String) (nodes : List (String × Node)) (visits : List Visit) : Prop where
  nodes : (visits.map Prod.snd).Perm (nodes.map Prod.snd)
  names : ∀ visit ∈ visits, visit.1.Perm names

/-- What a node does where the names come in this order. -/
def countVisit (weightMap : Weights) (acc : WorkflowRunMetrics × Int) (visit : Visit) :
    WorkflowRunMetrics × Int :=
  countNode ⟨"", fun _ => none, fun _ => visit.1⟩ weightMap acc visit.2

def weightSum (weightages : List WeightagesInput) : Int := (weightages.map (·.weightage)).sum

def metricsIn (weightages : List WeightagesInput) (visits : List Visit) : WorkflowRunMetrics :=
  let start := { WorkflowRunMetrics.zero with totalExperiments := weightages.length }
  let (result, totalTestResult) := visits.foldl (countVisit (weightsOf weightages)) (start, 0)
  if weightSum weightages ≠ 0 then
    { result with resiliencyScore := truncate (totalTestResult / weightSum weightages) }
  else result

/-- `ProcessCompletedWorkflowRun` with a pass for the names of its workflow. -/
def processCompletedWorkflowRunIn (pass : List String → List Visit) (fails : Bool) (workflows : Workflows)
    (wfID : String) : Except GoError WorkflowRunMetrics :=
  if fails then
    .error (.failed "failed to get workflow from db on complete, error: mongo: database error")
  else
    match workflows.find fun workflow => workflow.workflowID = wfID with
    | [workflow] =>
        .ok (metricsIn workflow.weightages (pass (weightsOf workflow.weightages).keys))
    | _ => .error (.failed ("failed to get workflow from db on complete, error: " ++
        "couldn't find the unique workflow with id " ++ wfID))

theorem processCompletedWorkflowRun_eq (env : Env) (fails : Bool) (workflows : Workflows)
    (execData : ExecutionData) (wfID : String) :
    processCompletedWorkflowRun env fails workflows execData wfID =
      processCompletedWorkflowRunIn
        (fun names => (execData.nodes.map Prod.snd).map fun node => (env.rangeOrder names, node))
        fails workflows wfID := by
  unfold processCompletedWorkflowRun processCompletedWorkflowRunIn
  cases fails with
  | true => rfl
  | false =>
  simp only [Bool.false_eq_true, if_false]
  cases workflows.find fun workflow => workflow.workflowID = wfID with
  | nil => rfl
  | cons workflow rest =>
  cases rest with
  | cons other rest => rfl
  | nil =>
      have hloop : ∀ weightMap acc,
          ((execData.nodes.map Prod.snd).map fun node =>
              (env.rangeOrder weightMap.keys, node)).foldl (countVisit weightMap) acc =
            (execData.nodes.map Prod.snd).foldl (countNode env weightMap) acc := by
        intro weightMap acc
        rw [List.foldl_map]
        rfl
      have hsum : ((weightSum workflow.weightages : Int) : ℚ) =
          (workflow.weightages.map fun entry => (entry.weightage : ℚ)).sum := by
        rw [weightSum, Int.cast_list_sum, List.map_map]
        rfl
      simp only [metricsIn, hloop, ← hsum, ne_eq, Int.cast_eq_zero]
      split_ifs <;> rfl

/-! ## What one node adds -/

section Nodes

variable {weightMap : Weights}

def engineData (node : Node) : Option ChaosData := if node.type = "ChaosEngine" then node.chaosExp else none

/-- What the node adds to the total where the names come in this order. -/
def part (weightMap : Weights) (visit : Visit) : Int :=
  match engineData visit.2 with
  | none => 0
  | some exp =>
      match weightMap.lookup (experimentNameOf visit.1 exp.engineName) with
      | some weight => weight * atoiValue exp.probeSuccessPercentage
      | none => 0

/-- What the node may add: one product for each listed name that the engine name contains. -/
def options (weightMap : Weights) (node : Node) : List Int :=
  match engineData node with
  | none => [0]
  | some exp =>
      match weightMap.keys.filter (contains exp.engineName) with
      | [] => [0]
      | name :: names => (name :: names).map fun name =>
          (weightMap.lookup name).getD 0 * atoiValue exp.probeSuccessPercentage

def hasVerdict (verdicts : List String) (node : Node) : Bool :=
  (engineData node).any fun exp => verdicts.contains exp.experimentVerdict

def counted (result : WorkflowRunMetrics) (nodes : List Node) : WorkflowRunMetrics :=
  { result with
    experimentsPassed := result.experimentsPassed + nodes.countP (hasVerdict ["Pass"])
    experimentsFailed := result.experimentsFailed + nodes.countP (hasVerdict ["Fail"])
    experimentsAwaited := result.experimentsAwaited + nodes.countP (hasVerdict ["Awaited"])
    experimentsStopped := result.experimentsStopped + nodes.countP (hasVerdict ["Stopped"])
    experimentsNA := result.experimentsNA + nodes.countP (hasVerdict ["N/A", ""]) }

theorem countVisit_eq (result : WorkflowRunMetrics) (total : Int) (visit : Visit) :
    countVisit weightMap (result, total) visit =
      (counted result [visit.2], total + part weightMap visit) := by
  obtain ⟨names, type, chaosExp⟩ := visit
  by_cases htype : type = "ChaosEngine"
  · cases chaosExp with
    | none => simp [countVisit, countNode, counted, part, hasVerdict, engineData, htype]
    | some exp =>
        subst htype
        refine Prod.ext ?_ ?_
        swap
        · simp only [countVisit, countNode, part, engineData, ne_eq, not_true_eq_false, if_false, if_true]
          cases weightMap.lookup (experimentNameOf names exp.engineName) with
          | none => exact (Int.add_zero total).symm
          | some weight => rfl
        simp only [countVisit, countNode, ne_eq, not_true_eq_false, if_false]
        by_cases hpass : exp.experimentVerdict = "Pass"
        · simp [counted, hasVerdict, engineData, hpass]
        by_cases hfail : exp.experimentVerdict = "Fail"
        · simp [counted, hasVerdict, engineData, hfail]
        by_cases hawaited : exp.experimentVerdict = "Awaited"
        · simp [counted, hasVerdict, engineData, hawaited]
        by_cases hstopped : exp.experimentVerdict = "Stopped"
        · simp [counted, hasVerdict, engineData, hstopped]
        by_cases hna : exp.experimentVerdict = "N/A"
        · simp [counted, hasVerdict, engineData, hna]
        by_cases hempty : exp.experimentVerdict = ""
        · simp [counted, hasVerdict, engineData, hempty]
        · simp [counted, hasVerdict, engineData, hpass, hfail, hawaited, hstopped, hna, hempty]
  · simp [countVisit, countNode, counted, part, hasVerdict, engineData, htype]

theorem counted_append (result : WorkflowRunMetrics) (front back : List Node) :
    counted (counted result front) back = counted result (front ++ back) := by
  simp only [counted, List.countP_append, Nat.cast_add, Int.add_assoc]

theorem foldl_countVisit (visits : List Visit) (result : WorkflowRunMetrics) (total : Int) :
    visits.foldl (countVisit weightMap) (result, total) =
      (counted result (visits.map Prod.snd), total + (visits.map (part weightMap)).sum) := by
  induction visits generalizing result total with
  | nil => simp [counted]
  | cons visit visits ih =>
      rw [List.foldl_cons, countVisit_eq, ih, counted_append, List.map_cons, List.map_cons, List.sum_cons,
        Int.add_assoc]
      rfl

/-! ### The last name that is contained -/

theorem experimentNameOf_eq (names : List String) (engineName : String) :
    experimentNameOf names engineName = ((names.filter (contains engineName)).getLast?).getD "" := by
  induction names using List.reverseRecOn with
  | nil => rfl
  | append_singleton names name ih =>
      have hlast : experimentNameOf (names ++ [name]) engineName =
          if contains engineName name then name else experimentNameOf names engineName := by
        simp only [experimentNameOf, List.foldl_append, List.foldl_cons, List.foldl_nil]
      rw [hlast, List.filter_append]
      by_cases hname : contains engineName name = true
      · rw [if_pos hname, List.filter_cons_of_pos hname, List.getLast?_append]
        rfl
      · rw [if_neg hname, List.filter_cons_of_neg hname, List.filter_nil, List.append_nil, ih]

theorem options_ne_nil (node : Node) : options weightMap node ≠ [] := by
  unfold options
  cases engineData node with
  | none => exact List.cons_ne_nil _ _
  | some exp =>
      cases hnames : weightMap.keys.filter (contains exp.engineName) with
      | nil => simp [hnames]
      | cons name names => simp [hnames]

theorem part_eq {visit : Visit} {exp : ChaosData} {name : String} (hdata : engineData visit.2 = some exp)
    (hname : experimentNameOf visit.1 exp.engineName = name) :
    part weightMap visit = (weightMap.lookup name).getD 0 * atoiValue exp.probeSuccessPercentage := by
  subst hname
  simp only [part, hdata]
  cases weightMap.lookup (experimentNameOf visit.1 exp.engineName) with
  | none => exact (Int.zero_mul _).symm
  | some weight => rfl

/-- In every order of the names a node adds one of its options. -/
theorem part_mem_options {visit : Visit} (h : visit.1.Perm weightMap.keys) :
    part weightMap visit ∈ options weightMap visit.2 := by
  cases hdata : engineData visit.2 with
  | none => simp [part, options, hdata]
  | some exp =>
      have hperm := h.filter (contains exp.engineName)
      have hname := experimentNameOf_eq visit.1 exp.engineName
      cases hnames : weightMap.keys.filter (contains exp.engineName) with
      | nil =>
          rw [hnames, List.perm_nil] at hperm
          rw [hperm] at hname
          -- the empty name would be contained
          have hempty : weightMap.lookup "" = none := by
            rw [AList.lookup_eq_none]
            intro hmem
            have hcontained : "" ∈ weightMap.keys.filter (contains exp.engineName) :=
              List.mem_filter.mpr ⟨hmem, contains_iff.mpr List.nil_infix⟩
            rw [hnames] at hcontained
            cases hcontained
          rw [part_eq hdata hname]
          simp [options, hdata, hnames, hempty]
      | cons first names =>
          rw [hnames] at hperm
          have hne : visit.1.filter (contains exp.engineName) ≠ [] := by
            intro hnil
            rw [hnil] at hperm
            exact List.cons_ne_nil _ _ hperm.nil_eq.symm
          rw [List.getLast?_eq_some_getLast hne, Option.getD_some] at hname
          rw [part_eq hdata hname]
          simp only [options, hdata, hnames]
          exact List.mem_map_of_mem (hperm.mem_iff.mp (List.getLast_mem hne))

/-- Every option of a node is what it adds in some order of the names. -/
theorem exists_part_eq {node : Node} {val : Int} (h : val ∈ options weightMap node) :
    ∃ names : List String, names.Perm weightMap.keys ∧ part weightMap (names, node) = val := by
  have hkeys := @part_mem_options weightMap (weightMap.keys, node) (.refl _)
  cases hdata : engineData node with
  | none =>
      simp only [options, hdata, List.mem_singleton] at h hkeys
      exact ⟨weightMap.keys, .refl _, hkeys.trans h.symm⟩
  | some exp =>
      cases hnames : weightMap.keys.filter (contains exp.engineName) with
      | nil =>
          simp only [options, hdata, hnames, List.mem_singleton] at h hkeys
          exact ⟨weightMap.keys, .refl _, hkeys.trans h.symm⟩
      | cons first names =>
          simp only [options, hdata, hnames] at h
          obtain ⟨name, hname, rfl⟩ := List.mem_map.mp h
          rw [← hnames] at hname
          obtain ⟨hkey, hcontained⟩ := List.mem_filter.mp hname
          -- the name comes last
          refine ⟨weightMap.keys.erase name ++ [name],
            (List.perm_append_singleton _ _).trans (List.perm_cons_erase hkey).symm, part_eq hdata ?_⟩
          simp [experimentNameOf_eq, List.filter_append, hcontained]

end Nodes

/-! ## Totals -/

section Totals

variable {weightMap : Weights} {nodes : List (String × Node)}

def lowestPart (weightMap : Weights) (node : Node) : Int := (options weightMap node).min?.getD 0

def highestPart (weightMap : Weights) (node : Node) : Int := (options weightMap node).max?.getD 0

/-- The total of a pass that takes the lowest option of every node. -/
def lowestTotal (weightMap : Weights) (nodes : List (String × Node)) : Int :=
  (nodes.map fun node => lowestPart weightMap node.2).sum

def highestTotal (weightMap : Weights) (nodes : List (String × Node)) : Int :=
  (nodes.map fun node => highestPart weightMap node.2).sum

def total (weightMap : Weights) (visits : List Visit) : Int := (visits.map (part weightMap)).sum

theorem lowestPart_mem (node : Node) : lowestPart weightMap node ∈ options weightMap node := by
  obtain ⟨val, hval⟩ := Option.isSome_iff_exists.mp (List.isSome_min?_of_ne_nil (@options_ne_nil weightMap node))
  rw [lowestPart, hval]
  exact List.min?_mem hval

theorem highestPart_mem (node : Node) : highestPart weightMap node ∈ options weightMap node := by
  obtain ⟨val, hval⟩ := Option.isSome_iff_exists.mp (List.isSome_max?_of_ne_nil (@options_ne_nil weightMap node))
  rw [highestPart, hval]
  exact List.max?_mem hval

theorem lowestPart_le {node : Node} {val : Int} (h : val ∈ options weightMap node) :
    lowestPart weightMap node ≤ val := by
  obtain ⟨least, hleast⟩ := Option.isSome_iff_exists.mp (List.isSome_min?_of_mem h)
  rw [lowestPart, hleast]
  exact (List.min?_eq_some_iff.mp hleast).2 val h

theorem le_highestPart {node : Node} {val : Int} (h : val ∈ options weightMap node) :
    val ≤ highestPart weightMap node := by
  obtain ⟨most, hmost⟩ := Option.isSome_iff_exists.mp (List.isSome_max?_of_mem h)
  rw [highestPart, hmost]
  exact (List.max?_eq_some_iff.mp hmost).2 val h

/-- Whatever option is picked at each node, some pass adds them up. -/
theorem exists_pass_total (pick : Node → Int) (h : ∀ node, pick node ∈ options weightMap node)
    (nodes : List (String × Node)) :
    ∃ visits, IsPass weightMap.keys nodes visits ∧
      total weightMap visits = (nodes.map fun node => pick node.2).sum := by
  choose order horder hpart using fun node => exists_part_eq (h node)
  refine ⟨nodes.map fun node => (order node.2, node.2), ⟨?_, ?_⟩, ?_⟩
  · rw [List.map_map]
    exact List.Perm.refl _
  · intro visit hvisit
    obtain ⟨node, -, rfl⟩ := List.mem_map.mp hvisit
    exact horder node.2
  · rw [total, List.map_map]
    exact congrArg List.sum (List.map_congr_left fun node _ => hpart node.2)

theorem isPass_of_order {order names : List String} (h : order.Perm names) (nodes : List (String × Node)) :
    IsPass names nodes (nodes.map fun node => (order, node.2)) := by
  constructor
  · rw [List.map_map]
    exact List.Perm.refl _
  · intro visit hvisit
    obtain ⟨node, -, rfl⟩ := List.mem_map.mp hvisit
    exact h

theorem exists_pass_of_names {names : List String} {visits : List Visit} (h : IsPass names nodes visits) :
    ∃ pass : List String → List Visit, (∀ names', IsPass names' nodes (pass names')) ∧ pass names = visits := by
  refine ⟨fun names' => if names' = names then visits else nodes.map fun node => (names', node.2),
    fun names' => ?_, if_pos rfl⟩
  by_cases hnames : names' = names
  · subst hnames
    simp only [if_true]
    exact h
  · simp only [if_neg hnames]
    exact isPass_of_order (.refl _) nodes

theorem IsPass.sum_map {visits : List Visit} (h : IsPass weightMap.keys nodes visits) (val : Node → Int) :
    (visits.map fun visit => val visit.2).sum = (nodes.map fun node => val node.2).sum := by
  have hsum := (h.nodes.map val).sum_eq
  rw [List.map_map, List.map_map] at hsum
  exact hsum

theorem IsPass.lowestTotal_le {visits : List Visit} (h : IsPass weightMap.keys nodes visits) :
    lowestTotal weightMap nodes ≤ total weightMap visits := by
  rw [lowestTotal, ← h.sum_map]
  exact List.sum_le_sum fun visit hvisit => lowestPart_le (part_mem_options (h.names visit hvisit))

theorem IsPass.le_highestTotal {visits : List Visit} (h : IsPass weightMap.keys nodes visits) :
    total weightMap visits ≤ highestTotal weightMap nodes := by
  rw [highestTotal, ← h.sum_map]
  exact List.sum_le_sum fun visit hvisit => le_highestPart (part_mem_options (h.names visit hvisit))

end Totals

theorem metricsIn_eq (weightages : List WeightagesInput) (visits : List Visit) :
    metricsIn weightages visits =
      { counted { WorkflowRunMetrics.zero with totalExperiments := weightages.length }
          (visits.map Prod.snd) with
        resiliencyScore :=
          if weightSum weightages ≠ 0 then
            truncate (total (weightsOf weightages) visits / weightSum weightages)
          else 0 } := by
  unfold metricsIn
  simp only [foldl_countVisit, Int.zero_add, total]
  split_ifs <;> rfl

theorem counted_perm {result : WorkflowRunMetrics} {nodes nodes' : List Node} (h : nodes.Perm nodes') :
    counted result nodes = counted result nodes' := by
  simp only [counted, h.countP_eq]

/-! ## Truncation -/

theorem tdiv_of_nonneg {q : ℚ} (h : 0 ≤ q) : q.num.tdiv q.den = ⌊q⌋ := by
  rw [Int.tdiv_eq_ediv_of_nonneg (Rat.num_nonneg.mpr h), Rat.floor_def']

theorem tdiv_neg (q : ℚ) : (-q).num.tdiv (-q).den = -(q.num.tdiv q.den) := by
  rw [Rat.neg_num, Rat.neg_den, Int.neg_tdiv]

theorem tdiv_le_tdiv {q r : ℚ} (hle : q ≤ r) : q.num.tdiv q.den ≤ r.num.tdiv r.den := by
  have hnonneg : ∀ {q : ℚ}, 0 ≤ q → 0 ≤ q.num.tdiv q.den := fun hq => by
    rw [tdiv_of_nonneg hq]
    exact Int.floor_nonneg.mpr hq
  rcases le_total 0 q with hq | hq
  · rw [tdiv_of_nonneg hq, tdiv_of_nonneg (hq.trans hle)]
    exact Int.floor_le_floor hle
  · have hneg := hnonneg (neg_nonneg.mpr hq)
    rw [tdiv_neg] at hneg
    rcases le_total 0 r with hr | hr
    · have hpos := hnonneg hr
      omega
    · have hfloor : ⌊-r⌋ ≤ ⌊-q⌋ := Int.floor_le_floor (neg_le_neg hle)
      rw [← tdiv_of_nonneg (neg_nonneg.mpr hq), ← tdiv_of_nonneg (neg_nonneg.mpr hr), tdiv_neg, tdiv_neg]
        at hfloor
      omega

theorem truncate_mono : Monotone truncate := by
  intro q r hle
  have hcast : (((q * 100).num.tdiv (q * 100).den : Int) : ℚ) ≤ ((r * 100).num.tdiv (r * 100).den : Int) :=
    Int.cast_le.mpr (tdiv_le_tdiv (mul_le_mul_of_nonneg_right hle (by norm_num)))
  unfold truncate
  linarith

/-! ## Independence of the order -/

/-- The lowest and the highest total make the same score. -/
def ScoreIsFixed (weightages : List WeightagesInput) (nodes : List (String × Node)) : Prop :=
  weightSum weightages = 0 ∨
    truncate (lowestTotal (weightsOf weightages) nodes / weightSum weightages) =
      truncate (highestTotal (weightsOf weightages) nodes / weightSum weightages)

theorem truncate_total_eq {weightages : List WeightagesInput} {nodes : List (String × Node)}
    {visits : List Visit}
    (hfixed : truncate (lowestTotal (weightsOf weightages) nodes / weightSum weightages) =
      truncate (highestTotal (weightsOf weightages) nodes / weightSum weightages))
    (hpass : IsPass (weightsOf weightages).keys nodes visits) :
    truncate (total (weightsOf weightages) visits / weightSum weightages) =
      truncate (lowestTotal (weightsOf weightages) nodes / weightSum weightages) := by
  have hlowest : (lowestTotal (weightsOf weightages) nodes : ℚ) ≤ total (weightsOf weightages) visits :=
    Int.cast_le.mpr hpass.lowestTotal_le
  have hhighest : (total (weightsOf weightages) visits : ℚ) ≤ highestTotal (weightsOf weightages) nodes :=
    Int.cast_le.mpr hpass.le_highestTotal
  -- a negative sum of weights turns the order around
  rcases le_total (0 : ℚ) (weightSum weightages) with hsum | hsum
  · have hlow := truncate_mono (div_le_div_of_nonneg_right hlowest hsum)
    have hhigh := truncate_mono (div_le_div_of_nonneg_right hhighest hsum)
    exact le_antisymm (hhigh.trans hfixed.ge) hlow
  · have hlow := truncate_mono (div_le_div_of_nonpos_of_le hsum hlowest)
    have hhigh := truncate_mono (div_le_div_of_nonpos_of_le hsum hhighest)
    exact le_antisymm hlow (hfixed.le.trans hhigh)

theorem metricsIn_eq_iff (weightages : List WeightagesInput) (nodes : List (String × Node)) :
    (∀ visits visits', IsPass (weightsOf weightages).keys nodes visits →
      IsPass (weightsOf weightages).keys nodes visits' →
      metricsIn weightages visits = metricsIn weightages visits') ↔ ScoreIsFixed weightages nodes := by
  constructor
  · intro h
    by_cases hsum : weightSum weightages = 0
    · exact .inl hsum
    · obtain ⟨lowest, hlowest, hlowestTotal⟩ :=
        exists_pass_total _ (fun node => @lowestPart_mem (weightsOf weightages) node) nodes
      obtain ⟨highest, hhighest, hhighestTotal⟩ :=
        exists_pass_total _ (fun node => @highestPart_mem (weightsOf weightages) node) nodes
      have hscore := congrArg WorkflowRunMetrics.resiliencyScore (h lowest highest hlowest hhighest)
      simp only [metricsIn_eq, ne_eq, hsum, not_false_eq_true, if_true, hlowestTotal, hhighestTotal]
        at hscore
      exact .inr hscore
  · intro hfixed visits visits' hpass hpass'
    have hcounted := @counted_perm { WorkflowRunMetrics.zero with totalExperiments := weightages.length }
      _ _ (hpass.nodes.trans hpass'.nodes.symm)
    rw [metricsIn_eq, metricsIn_eq, hcounted]
    rcases hfixed with hsum | hfixed
    · rw [if_neg (not_not.mpr hsum), if_neg (not_not.mpr hsum)]
    · rw [truncate_total_eq hfixed hpass, truncate_total_eq hfixed hpass']

/-- Whatever the orders, two passes give the same result. -/
def OrderDoesNotMatter (workflows : Workflows) (execData : ExecutionData) (wfID : String) : Prop :=
  ∀ fails pass pass', (∀ names, IsPass names execData.nodes (pass names)) →
    (∀ names, IsPass names execData.nodes (pass' names)) →
    processCompletedWorkflowRunIn pass fails workflows wfID =
      processCompletedWorkflowRunIn pass' fails workflows wfID

def weightedWorkflows (weightages : List WeightagesInput) : Workflows :=
  ⟨[{ sampleWorkflow with weightages := weightages }], List.pairwise_singleton _ _⟩

def engineNode (engineName probeSuccessPercentage experimentVerdict : String) : Node :=
  ⟨"ChaosEngine", some ⟨engineName, probeSuccessPercentage, experimentVerdict⟩⟩

end LitmusPortal
