import LitmusPortal.Workflow.Metrics

/-!
# The bounds of the metrics

The score adds a product for every node and divides by the weights of the list. It is a hundred at most as long
as the nodes do not take one weight twice, and the verdicts add up to the nodes as long as all of them are known.
-/

namespace LitmusPortal

open GoStrings DocumentStore

theorem truncate_le_hundred_iff {q : ℚ} (h : 0 ≤ q) : truncate q ≤ 100 ↔ q * 100 < 10001 := by
  unfold truncate
  rw [tdiv_of_nonneg (mul_nonneg h (by norm_num)), div_le_iff₀ (by norm_num)]
  have hfloor : ⌊q * 100⌋ ≤ 10000 ↔ q * 100 < 10001 := by
    rw [← Int.lt_add_one_iff, Int.floor_lt]
    norm_num
  rw [← hfloor]
  constructor
  · intro hle
    have hcast : ((⌊q * 100⌋ : Int) : ℚ) ≤ (10000 : Int) := by
      push_cast
      linarith
    exact Int.cast_le.mp hcast
  · intro hle
    have hcast : ((⌊q * 100⌋ : Int) : ℚ) ≤ (10000 : Int) := Int.cast_le.mpr hle
    push_cast at hcast
    linarith

def engineNodes (nodes : List (String × Node)) : Nat := nodes.countP fun node => (engineData node.2).isSome

def WorkflowRunMetrics.experimentsCounted (metrics : WorkflowRunMetrics) : Int :=
  metrics.experimentsPassed + metrics.experimentsFailed + metrics.experimentsAwaited +
    metrics.experimentsStopped + metrics.experimentsNA

structure MetricsAreBounded (nodes : List (String × Node)) (metrics : WorkflowRunMetrics) : Prop where
  lower : 0 ≤ metrics.resiliencyScore
  upper : metrics.resiliencyScore ≤ 100
  counted : metrics.experimentsCounted = engineNodes nodes
  experiments : metrics.experimentsCounted ≤ metrics.totalExperiments

def listedVerdicts : List String := ["Pass", "Fail", "Awaited", "Stopped", "N/A", ""]

/-- When the metrics stay in their bounds. -/
structure StaysInBounds (weightages : List WeightagesInput) (nodes : List (String × Node)) : Prop where
  score : weightSum weightages = 0 ∨
    highestTotal (weightsOf weightages) nodes * 100 < 10001 * weightSum weightages
  verdicts : ∀ node ∈ nodes, ∀ exp, engineData node.2 = some exp → exp.experimentVerdict ∈ listedVerdicts
  nodes : engineNodes nodes ≤ weightages.length

/-- No weight is negative, and every percentage is a number from 0 to 100. -/
structure InRange (weightages : List WeightagesInput) (nodes : List (String × Node)) : Prop where
  weights : ∀ entry ∈ weightages, 0 ≤ entry.weightage
  percentages : ∀ node ∈ nodes, ∀ exp, engineData node.2 = some exp →
    ∃ x, parseInt exp.probeSuccessPercentage = some x ∧ 0 ≤ x ∧ x ≤ 100

section Bounds

variable {weightages : List WeightagesInput} {nodes : List (String × Node)}

theorem atoiValue_of_parseInt {text : String} {x : Int} (h : parseInt text = some x) (hlower : 0 ≤ x)
    (hupper : x ≤ 100) : atoiValue text = x := by
  have hmin : minInt ≤ 0 := by decide
  have hmax : 100 ≤ maxInt := by decide
  simp only [atoiValue, h, Option.elim_some]
  omega

theorem lookup_nonneg (h : ∀ entry ∈ weightages, 0 ≤ entry.weightage) (name : String) :
    0 ≤ ((weightsOf weightages).lookup name).getD 0 := by
  cases hlookup : (weightsOf weightages).lookup name with
  | none => exact Int.le_refl 0
  | some val =>
      obtain ⟨entry, hentry, rfl⟩ := lookup_weightsOf hlookup
      exact h entry hentry

theorem options_nonneg (h : InRange weightages nodes) {node : String × Node} (hnode : node ∈ nodes) {val : Int}
    (hval : val ∈ options (weightsOf weightages) node.2) : 0 ≤ val := by
  cases hdata : engineData node.2 with
  | none =>
      simp only [options, hdata, List.mem_singleton] at hval
      exact hval.ge
  | some exp =>
      obtain ⟨x, hx, hlower, hupper⟩ := h.percentages node hnode exp hdata
      cases hnames : (weightsOf weightages).keys.filter (contains exp.engineName) with
      | nil =>
          simp only [options, hdata, hnames, List.mem_singleton] at hval
          exact hval.ge
      | cons name names =>
          simp only [options, hdata, hnames] at hval
          obtain ⟨name', -, rfl⟩ := List.mem_map.mp hval
          rw [atoiValue_of_parseInt hx hlower hupper]
          exact Int.mul_nonneg (lookup_nonneg h.weights name') hlower

theorem weightSum_nonneg (h : ∀ entry ∈ weightages, 0 ≤ entry.weightage) : 0 ≤ weightSum weightages := by
  apply List.sum_nonneg
  intro val hval
  obtain ⟨entry, hentry, rfl⟩ := List.mem_map.mp hval
  exact h entry hentry

theorem lowestTotal_nonneg (h : InRange weightages nodes) : 0 ≤ lowestTotal (weightsOf weightages) nodes := by
  apply List.sum_nonneg
  intro val hval
  obtain ⟨node, hnode, rfl⟩ := List.mem_map.mp hval
  exact options_nonneg h hnode (lowestPart_mem node.2)

/-! ## The score -/

theorem score_eq (hsum : weightSum weightages ≠ 0) (visits : List Visit) :
    (metricsIn weightages visits).resiliencyScore =
      truncate (total (weightsOf weightages) visits / weightSum weightages) := by
  rw [metricsIn_eq]
  exact if_pos hsum

theorem score_of_zero (hsum : weightSum weightages = 0) (visits : List Visit) :
    (metricsIn weightages visits).resiliencyScore = 0 := by
  rw [metricsIn_eq]
  exact if_neg (not_not.mpr hsum)

theorem quotient_nonneg (h : InRange weightages nodes) {visits : List Visit}
    (hpass : IsPass (weightsOf weightages).keys nodes visits) :
    (0 : ℚ) ≤ total (weightsOf weightages) visits / weightSum weightages :=
  div_nonneg (Int.cast_nonneg ((lowestTotal_nonneg h).trans hpass.lowestTotal_le))
    (Int.cast_nonneg (weightSum_nonneg h.weights))

theorem score_lower (h : InRange weightages nodes) {visits : List Visit}
    (hpass : IsPass (weightsOf weightages).keys nodes visits) :
    0 ≤ (metricsIn weightages visits).resiliencyScore := by
  by_cases hsum : weightSum weightages = 0
  · exact (score_of_zero hsum visits).ge
  · rw [score_eq hsum]
    have hzero : truncate 0 = 0 := by decide +kernel
    calc (0 : ℚ) = truncate 0 := hzero.symm
      _ ≤ truncate (total (weightsOf weightages) visits / weightSum weightages) :=
        truncate_mono (quotient_nonneg h hpass)

theorem score_le_hundred_iff (h : InRange weightages nodes) (hsum : weightSum weightages ≠ 0)
    {visits : List Visit} (hpass : IsPass (weightsOf weightages).keys nodes visits) :
    (metricsIn weightages visits).resiliencyScore ≤ 100 ↔
      total (weightsOf weightages) visits * 100 < 10001 * weightSum weightages := by
  have hpos : (0 : ℚ) < weightSum weightages :=
    Int.cast_pos.mpr (lt_of_le_of_ne (weightSum_nonneg h.weights) (Ne.symm hsum))
  rw [score_eq hsum, truncate_le_hundred_iff (quotient_nonneg h hpass), div_mul_eq_mul_div, div_lt_iff₀ hpos]
  exact_mod_cast Iff.rfl

theorem score_upper_iff (h : InRange weightages nodes) :
    (∀ visits, IsPass (weightsOf weightages).keys nodes visits →
      (metricsIn weightages visits).resiliencyScore ≤ 100) ↔
    weightSum weightages = 0 ∨
      highestTotal (weightsOf weightages) nodes * 100 < 10001 * weightSum weightages := by
  by_cases hsum : weightSum weightages = 0
  · refine iff_of_true (fun visits _ => ?_) (.inl hsum)
    rw [score_of_zero hsum]
    norm_num
  · rw [or_iff_right hsum]
    constructor
    · intro hupper
      obtain ⟨visits, hpass, htotal⟩ :=
        exists_pass_total _ (fun node => @highestPart_mem (weightsOf weightages) node) nodes
      have hscore := (score_le_hundred_iff h hsum hpass).mp (hupper visits hpass)
      rw [htotal] at hscore
      exact hscore
    · intro hhighest visits hpass
      apply (score_le_hundred_iff h hsum hpass).mpr
      have hle := hpass.le_highestTotal
      omega

/-! ## The counts -/

theorem verdict_once (verdict : String) :
    (if ["Pass"].contains verdict then 1 else 0) + (if ["Fail"].contains verdict then 1 else 0) +
        (if ["Awaited"].contains verdict then 1 else 0) + (if ["Stopped"].contains verdict then 1 else 0) +
        (if ["N/A", ""].contains verdict then 1 else 0) = if listedVerdicts.contains verdict then 1 else 0 := by
  by_cases hlisted : verdict ∈ listedVerdicts
  · revert verdict
    decide
  · simp only [listedVerdicts, List.mem_cons, List.not_mem_nil, or_false, not_or] at hlisted
    simp [listedVerdicts, hlisted]

theorem countP_verdicts (nodes : List Node) :
    nodes.countP (hasVerdict ["Pass"]) + nodes.countP (hasVerdict ["Fail"]) +
        nodes.countP (hasVerdict ["Awaited"]) + nodes.countP (hasVerdict ["Stopped"]) +
        nodes.countP (hasVerdict ["N/A", ""]) = nodes.countP (hasVerdict listedVerdicts) := by
  induction nodes with
  | nil => rfl
  | cons node nodes ih =>
      have hnode : (if hasVerdict ["Pass"] node then 1 else 0) + (if hasVerdict ["Fail"] node then 1 else 0) +
          (if hasVerdict ["Awaited"] node then 1 else 0) + (if hasVerdict ["Stopped"] node then 1 else 0) +
          (if hasVerdict ["N/A", ""] node then 1 else 0) =
            if hasVerdict listedVerdicts node then 1 else 0 := by
        unfold hasVerdict
        cases engineData node with
        | none => rfl
        | some exp => exact verdict_once exp.experimentVerdict
      simp only [List.countP_cons]
      omega

theorem experimentsCounted_metricsIn {visits : List Visit}
    (hpass : IsPass (weightsOf weightages).keys nodes visits) :
    (metricsIn weightages visits).experimentsCounted =
      (nodes.map Prod.snd).countP (hasVerdict listedVerdicts) := by
  rw [metricsIn_eq, counted_perm hpass.nodes, ← countP_verdicts]
  simp only [WorkflowRunMetrics.experimentsCounted, counted, WorkflowRunMetrics.zero, Int.zero_add]
  push_cast
  rfl

theorem totalExperiments_metricsIn (visits : List Visit) :
    (metricsIn weightages visits).totalExperiments = weightages.length := by
  rw [metricsIn_eq]
  rfl

theorem countP_eq_countP_iff {α : Type} {p q : α → Bool} (h : ∀ x, p x = true → q x = true) (xs : List α) :
    xs.countP p = xs.countP q ↔ ∀ x ∈ xs, q x = true → p x = true := by
  induction xs with
  | nil => simp
  | cons x xs ih =>
      have hle : xs.countP p ≤ xs.countP q := List.countP_mono_left fun x _ => h x
      rw [List.countP_cons, List.countP_cons, List.forall_mem_cons, ← ih]
      by_cases hp : p x = true
      · simp [hp, h x hp]
      · by_cases hq : q x = true
        · simp only [hp, hq, if_true]
          simp only [Bool.false_eq_true, if_false, imp_false, not_true_eq_false, false_and, iff_false]
          omega
        · simp [hp, hq]

/-- All engine nodes are counted exactly when their verdicts are listed. -/
theorem countP_listed_iff (nodes : List (String × Node)) :
    (nodes.map Prod.snd).countP (hasVerdict listedVerdicts) = engineNodes nodes ↔
      ∀ node ∈ nodes, ∀ exp, engineData node.2 = some exp → exp.experimentVerdict ∈ listedVerdicts := by
  have hlisted : ∀ node : Node, hasVerdict listedVerdicts node = true ↔
      ∃ exp, engineData node = some exp ∧ exp.experimentVerdict ∈ listedVerdicts := by
    intro node
    simp [hasVerdict, Option.any_eq_true]
  have hengine : engineNodes nodes = (nodes.map Prod.snd).countP fun node => (engineData node).isSome := by
    rw [engineNodes, List.countP_map]
    rfl
  rw [hengine, countP_eq_countP_iff, List.forall_mem_map]
  · refine forall₂_congr fun node _ => ?_
    rw [hlisted, Option.isSome_iff_exists]
    constructor
    · intro h exp hexp
      obtain ⟨exp', hexp', hverdict⟩ := h ⟨exp, hexp⟩
      rw [Option.some.inj (hexp.symm.trans hexp')]
      exact hverdict
    · rintro h ⟨exp, hexp⟩
      exact ⟨exp, hexp, h exp hexp⟩
  · intro node hnode
    obtain ⟨exp, hexp, -⟩ := (hlisted node).mp hnode
    exact Option.isSome_iff_exists.mpr ⟨exp, hexp⟩

/-! ## Both -/

theorem metrics_bounded_iff (h : InRange weightages nodes) :
    (∀ visits, IsPass (weightsOf weightages).keys nodes visits →
      MetricsAreBounded nodes (metricsIn weightages visits)) ↔ StaysInBounds weightages nodes := by
  constructor
  · intro hbounded
    obtain ⟨visits, hpass⟩ : ∃ visits, IsPass (weightsOf weightages).keys nodes visits :=
      ⟨_, isPass_of_order (.refl _) nodes⟩
    have hcounted := (hbounded visits hpass).counted
    have hexperiments := (hbounded visits hpass).experiments
    rw [hcounted, totalExperiments_metricsIn] at hexperiments
    rw [experimentsCounted_metricsIn hpass] at hcounted
    refine ⟨?_, ?_, by exact_mod_cast hexperiments⟩
    · exact (score_upper_iff h).mp fun visits hpass => (hbounded visits hpass).upper
    · exact (countP_listed_iff nodes).mp (by exact_mod_cast hcounted)
  · intro hin visits hpass
    have hcounted : (metricsIn weightages visits).experimentsCounted = engineNodes nodes := by
      rw [experimentsCounted_metricsIn hpass, (countP_listed_iff nodes).mpr hin.verdicts]
    refine ⟨score_lower h hpass, (score_upper_iff h).mpr hin.score visits hpass, hcounted, ?_⟩
    rw [hcounted, totalExperiments_metricsIn]
    exact_mod_cast hin.nodes

end Bounds

/-- Whatever the orders, the metrics of a run are in their bounds. -/
def RunMetricsAreBounded (workflows : Workflows) (execData : ExecutionData) (wfID : String) : Prop :=
  ∀ fails pass metrics, (∀ names, IsPass names execData.nodes (pass names)) →
    processCompletedWorkflowRunIn pass fails workflows wfID = .ok metrics →
    MetricsAreBounded execData.nodes metrics

def passedNodes (count : Nat) : List (String × Node) :=
  List.replicate count ("node-1", engineNode "pod-delete-x" "100" "Pass")

theorem inRange_passedNodes (count : Nat) : InRange [⟨"pod-delete", 10⟩] (passedNodes count) := by
  constructor
  · intro entry hentry
    rw [List.mem_singleton.mp hentry]
    decide
  · intro node hnode exp hexp
    rw [List.eq_of_mem_replicate hnode] at hexp
    obtain rfl := Option.some.inj hexp
    exact ⟨100, by decide, by decide, by decide⟩

theorem inRange_of_find {count : Nat} {workflow : ChaosWorkFlow}
    (h : ((weightedWorkflows [⟨"pod-delete", 10⟩]).find fun workflow => workflow.workflowID = "workflow-1") =
      [workflow]) : InRange workflow.weightages (passedNodes count) := by
  obtain rfl : { sampleWorkflow with weightages := [⟨"pod-delete", 10⟩] } = workflow := (List.cons.inj h).1
  exact inRange_passedNodes count

section MatchedOnce

variable {weightages : List WeightagesInput} {nodes : List (String × Node)}

def matchesName (node : Node) (name : String) : Bool :=
  (engineData node).any fun exp => contains exp.engineName name

/-- No name is contained in the engine names of two nodes. -/
def MatchedOnce (names : List String) (nodes : List (String × Node)) : Prop :=
  nodes.Pairwise fun left right => ∀ name ∈ names,
    matchesName left.2 name = true → matchesName right.2 name = false

theorem sum_matched_le {weigh : String → Int} (hweigh : ∀ name, 0 ≤ weigh name) {names : List String}
    (h : MatchedOnce names nodes) :
    (nodes.map fun node => ((names.filter (matchesName node.2)).map weigh).sum).sum ≤ (names.map weigh).sum := by
  induction nodes generalizing names with
  | nil =>
      apply List.sum_nonneg
      intro val hval
      obtain ⟨name, -, rfl⟩ := List.mem_map.mp hval
      exact hweigh name
  | cons node nodes ih =>
      rw [MatchedOnce, List.pairwise_cons] at h
      -- the other nodes match only what this one does not
      have hrest : ∀ other ∈ nodes, names.filter (matchesName other.2) =
          (names.filter fun name => !matchesName node.2 name).filter (matchesName other.2) := by
        intro other hother
        rw [List.filter_filter]
        refine List.filter_congr fun name hname => ?_
        cases hmatches : matchesName node.2 name with
        | false => simp
        | true => simp [h.1 other hother name hname hmatches]
      have honce : MatchedOnce (names.filter fun name => !matchesName node.2 name) nodes :=
        h.2.imp fun hdisjoint name hname => hdisjoint name (List.mem_of_mem_filter hname)
      have hsplit : ((names.filter (matchesName node.2)).map weigh).sum +
          ((names.filter fun name => !matchesName node.2 name).map weigh).sum = (names.map weigh).sum := by
        rw [← List.sum_append, ← List.map_append]
        exact ((List.filter_append_perm _ names).map weigh).sum_eq
      rw [List.map_cons, List.sum_cons, ← hsplit]
      apply Int.add_le_add_left
      calc (nodes.map fun other => ((names.filter (matchesName other.2)).map weigh).sum).sum
          = (nodes.map fun other => (((names.filter fun name => !matchesName node.2 name).filter
              (matchesName other.2)).map weigh).sum).sum :=
            congrArg List.sum (List.map_congr_left fun other hother => by rw [hrest other hother])
        _ ≤ ((names.filter fun name => !matchesName node.2 name).map weigh).sum := ih honce

/-- A name that is listed twice counts once in the map and twice in the sum. -/
theorem sum_weightsOf_le (h : ∀ entry ∈ weightages, 0 ≤ entry.weightage) :
    ((weightsOf weightages).entries.map Sigma.snd).sum ≤ weightSum weightages := by
  have hfold : ∀ (weightages : List WeightagesInput) (weights : Weights),
      (∀ entry ∈ weightages, 0 ≤ entry.weightage) → (∀ entry ∈ weights.entries, 0 ≤ entry.2) →
      ((weightages.foldl (fun weights weight =>
        weights.insert weight.experimentName weight.weightage) weights).entries.map Sigma.snd).sum ≤
          (weights.entries.map Sigma.snd).sum + weightSum weightages := by
    intro weightages
    induction weightages with
    | nil => exact fun weights _ _ => (Int.add_zero _).ge
    | cons weight weightages ih =>
        intro weights hentries hweights
        rw [List.forall_mem_cons] at hentries
        have herase := List.kerase_sublist weight.experimentName weights.entries
        have hinsert := ih (weights.insert weight.experimentName weight.weightage) hentries.2 (by
          rw [AList.entries_insert, List.forall_mem_cons]
          exact ⟨hentries.1, fun entry hentry => hweights entry (herase.subset hentry)⟩)
        have hle : ((List.kerase weight.experimentName weights.entries).map Sigma.snd).sum ≤
            (weights.entries.map Sigma.snd).sum := by
          refine (herase.map Sigma.snd).sum_le_sum fun val hval => ?_
          obtain ⟨entry, hentry, rfl⟩ := List.mem_map.mp hval
          exact hweights entry hentry
        rw [AList.entries_insert, List.map_cons, List.sum_cons] at hinsert
        rw [List.foldl_cons]
        have hsum : weightSum (weight :: weightages) = weight.weightage + weightSum weightages := rfl
        linarith
  have hsum := hfold weightages ∅ h (by simp)
  rw [AList.empty_entries, List.map_nil, List.sum_nil, Int.zero_add] at hsum
  exact hsum

theorem sum_lookup (weights : Weights) :
    (weights.keys.map fun name => (weights.lookup name).getD 0).sum = (weights.entries.map Sigma.snd).sum := by
  rw [AList.keys, List.keys, List.map_map]
  refine congrArg List.sum (List.map_congr_left fun entry hentry => ?_)
  have hlookup := AList.mem_lookup_iff.mpr hentry
  rw [Option.mem_def] at hlookup
  rw [Function.comp_apply, hlookup]
  rfl

theorem highestPart_le (h : InRange weightages nodes) {node : String × Node} (hnode : node ∈ nodes) :
    highestPart (weightsOf weightages) node.2 ≤
      100 * (((weightsOf weightages).keys.filter (matchesName node.2)).map fun name =>
        ((weightsOf weightages).lookup name).getD 0).sum := by
  have hmem := @highestPart_mem (weightsOf weightages) node.2
  have hnonneg : ∀ val ∈ ((weightsOf weightages).keys.filter (matchesName node.2)).map fun name =>
      ((weightsOf weightages).lookup name).getD 0, 0 ≤ val := by
    intro val hval
    obtain ⟨name, -, rfl⟩ := List.mem_map.mp hval
    exact lookup_nonneg h.weights name
  have hsum := List.sum_nonneg hnonneg
  generalize highestPart (weightsOf weightages) node.2 = val at hmem ⊢
  cases hdata : engineData node.2 with
  | none =>
      simp only [options, hdata, List.mem_singleton] at hmem
      omega
  | some exp =>
      obtain ⟨x, hx, hlower, hupper⟩ := h.percentages node hnode exp hdata
      have hmatches : matchesName node.2 = contains exp.engineName := by
        funext name
        rw [matchesName, hdata]
        rfl
      cases hnames : (weightsOf weightages).keys.filter (contains exp.engineName) with
      | nil =>
          simp only [options, hdata, hnames, List.mem_singleton] at hmem
          omega
      | cons first names =>
          simp only [options, hdata, hnames] at hmem
          obtain ⟨name, hname, rfl⟩ := List.mem_map.mp hmem
          rw [hmatches, hnames] at hnonneg ⊢
          have hsingle := List.single_le_sum hnonneg _ (List.mem_map_of_mem hname)
          have hweight := lookup_nonneg h.weights name
          rw [atoiValue_of_parseInt hx hlower hupper]
          calc ((weightsOf weightages).lookup name).getD 0 * x
              ≤ ((weightsOf weightages).lookup name).getD 0 * 100 := Int.mul_le_mul_of_nonneg_left hupper hweight
            _ = 100 * ((weightsOf weightages).lookup name).getD 0 := Int.mul_comm _ _
            _ ≤ _ := Int.mul_le_mul_of_nonneg_left hsingle (by decide)

/-- With every name matched once the score is bounded. -/
theorem highestTotal_le_of_matchedOnce (h : InRange weightages nodes)
    (honce : MatchedOnce (weightsOf weightages).keys nodes) :
    highestTotal (weightsOf weightages) nodes ≤ 100 * weightSum weightages := by
  have hmatched := sum_matched_le (lookup_nonneg h.weights) honce
  rw [sum_lookup] at hmatched
  calc highestTotal (weightsOf weightages) nodes
      ≤ (nodes.map fun node => 100 * (((weightsOf weightages).keys.filter (matchesName node.2)).map fun name =>
          ((weightsOf weightages).lookup name).getD 0).sum).sum :=
        List.sum_le_sum fun node hnode => highestPart_le h hnode
    _ = 100 * (nodes.map fun node => (((weightsOf weightages).keys.filter (matchesName node.2)).map fun name =>
          ((weightsOf weightages).lookup name).getD 0).sum).sum := List.sum_map_mul_left _ _ _
    _ ≤ 100 * ((weightsOf weightages).entries.map Sigma.snd).sum :=
        Int.mul_le_mul_of_nonneg_left hmatched (by decide)
    _ ≤ 100 * weightSum weightages :=
        Int.mul_le_mul_of_nonneg_left (sum_weightsOf_le h.weights) (by decide)

end MatchedOnce

end LitmusPortal
