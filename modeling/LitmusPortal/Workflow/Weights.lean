import LitmusPortal.Workflow.Frame

/-!
# The weights after a sync

The weights of a request end in the labels of the templates. A manifest that comes back from the repository
has no weights with it, and they are read from the labels: one entry for each template that carries an engine,
in the order of the templates.
-/

namespace LitmusPortal

open GoStrings RangeLoop

variable {codec : Codec} {weights : Weights}

/-! ## One template -/

/-- The entry that the first pass stands for. -/
def assigned (codec : Codec) (weights : Weights) (template : Template) : List WeightagesInput :=
  match templateEngine codec template with
  | .ok (some engine) =>
      [⟨engine.generateName, (weights.lookup engine.generateName).getD
        (((labelAt template.labels "weight").bind atoi).getD 10)⟩]
  | _ => []

theorem templateEngine_congr {template template' : Template}
    (h : template'.artifacts = template.artifacts) :
    templateEngine codec template' = templateEngine codec template := by
  unfold templateEngine
  rw [h]

theorem processTemplate_of_label {template : Template} {engine : ChaosEngine} {text : String} {intVal : Int}
    (hcarries : templateEngine codec template = .ok (some engine))
    (hnamed : experimentName engine.toEngineMeta = .ok engine.generateName)
    (hlabel : labelAt template.labels "weight" = some text) (hvalue : atoi text = some intVal) :
    processTemplate codec ∅ template = .ok (template, [⟨engine.generateName, intVal⟩]) := by
  have hweigh : weigh ∅ engine.generateName (template.labels.bind (·.lookup "weight")) =
      .ok ([⟨engine.generateName, intVal⟩], none) := by
    change weigh ∅ engine.generateName (labelAt template.labels "weight") = _
    rw [hlabel, weigh, AList.lookup_empty, hvalue]
  simp only [processTemplate, hcarries, hnamed, hweigh, bind, Except.bind, pure, Except.pure]

/-- The second pass over a template reads what the first one wrote. -/
theorem Processed.again {template template' template'' : Template} {newWeights : List WeightagesInput}
    (hrange : ∀ name val, weights.lookup name = some val → minInt ≤ val ∧ val ≤ maxInt)
    (h : Processed codec weights template template' newWeights) (hsame : SameTemplate template' template'') :
    processTemplate codec ∅ template'' = .ok (template'', assigned codec weights template) := by
  cases h with
  | plain hnone =>
      have hnone' := (templateEngine_congr hsame.artifacts).trans hnone
      simp only [processTemplate, assigned, hnone, hnone', bind, Except.bind, pure, Except.pure]
  | requested engine val hcarries hnamed hweight =>
      have hcarries' := (@templateEngine_congr codec _ _ hsame.artifacts).trans hcarries
      have hlabel := hsame.labels "weight"
      rw [labelAt_withWeight, if_pos rfl] at hlabel
      rw [processTemplate_of_label hcarries' hnamed hlabel (atoi_toString (hrange _ _ hweight))]
      simp [assigned, hcarries, hweight]
  | labelled engine text intVal hcarries hnamed hnone hlabel hvalue =>
      have hcarries' := (@templateEngine_congr codec _ _ hsame.artifacts).trans hcarries
      have hlabel' := (hsame.labels "weight").trans hlabel
      rw [processTemplate_of_label hcarries' hnamed hlabel' hvalue]
      simp [assigned, hcarries, hnone, hlabel, hvalue]
  | unlabelled engine hcarries hnamed hnone hlabel =>
      have hcarries' := (@templateEngine_congr codec _ _ hsame.artifacts).trans hcarries
      have hlabel' := hsame.labels "weight"
      rw [labelAt_withWeight, if_pos rfl] at hlabel'
      have hten : atoi "10" = some 10 := by decide
      rw [processTemplate_of_label hcarries' hnamed hlabel' hten]
      simp [assigned, hcarries, hnone, hlabel]

theorem processTemplates_again {templates templates' templates'' : List Template}
    {newWeights : List WeightagesInput}
    (hrange : ∀ name val, weights.lookup name = some val → minInt ≤ val ∧ val ≤ maxInt)
    (h : processTemplates codec weights templates = .ok (templates', newWeights))
    (hsame : List.Forall₂ SameTemplate templates' templates'') :
    processTemplates codec ∅ templates'' =
      .ok (templates'', templates.flatMap (assigned codec weights)) := by
  obtain ⟨parts, hparts, rfl, -⟩ := processTemplates_ok h
  clear h
  induction hparts generalizing templates'' with
  | nil =>
      cases hsame
      rfl
  | cons hpart _ ih =>
      cases hsame with
      | cons hhead htail =>
          rw [processTemplates, hpart.again hrange hhead, ih htail, List.flatMap_cons]
          rfl

/-! ## The labels of the object -/

theorem lookup_getD (labels : Option Labels) (key : String) :
    (labels.getD ∅).lookup key = labelAt labels key := by
  cases labels with
  | none => exact AList.lookup_empty key
  | some labels => rfl

theorem sameLabels_addLabels_again {labels labels' : Option Labels} {added : List (String × String)}
    (h : SameLabels (some (addLabels labels added)) labels') :
    SameLabels (some (addLabels labels added)) (some (addLabels labels' added)) := by
  have hfold : ∀ (added : List (String × String)) (left right : Labels),
      (∀ key, key ∉ added.map Prod.fst → right.lookup key = left.lookup key) →
      ∀ key, (added.foldl (fun labels label => labels.insert label.1 label.2) right).lookup key =
        (added.foldl (fun labels label => labels.insert label.1 label.2) left).lookup key := by
    intro added
    induction added with
    | nil => exact fun left right hsame key => hsame key List.not_mem_nil
    | cons label added ih =>
        intro left right hsame
        refine ih _ _ fun key hkey => ?_
        by_cases hlabel : key = label.1
        · subst hlabel
          rw [AList.lookup_insert, AList.lookup_insert]
        · rw [AList.lookup_insert_ne hlabel, AList.lookup_insert_ne hlabel]
          exact hsame key (by simp [hlabel, hkey])
  intro key
  refine hfold added _ _ (fun key hkey => ?_) key
  rw [lookup_getD, lookup_getD, h key, labelAt_addLabels hkey]

/-! ## The two passes -/

/-- The request of a sync has the manifest of a processed one, and no weightages. -/
structure IsSync (processed second : ChaosWorkFlowRequest) : Prop where
  workflowID : second.workflowID = processed.workflowID
  manifest : second.workflowManifest = processed.workflowManifest
  workflowName : second.workflowName = processed.workflowName
  weightages : second.weightages = []
  projectID : second.projectID = processed.projectID
  clusterID : second.clusterID = processed.clusterID

/-- What is read from the text of a workflow is what was written, up to the order of its labels, and it is
written as the same text again. -/
structure Codec.KeepsWorkflow (codec : Codec) (head : ObjectHead) (out : String) : Prop where
  head : codec.unmarshalObject out = some head
  reads : ∀ written, codec.marshalWorkflow written = some out →
    ∃ manifest, codec.unmarshalWorkflow out = some manifest ∧ SameWorkflow written manifest
  writes : ∀ written manifest, codec.marshalWorkflow written = some out → SameWorkflow written manifest →
    codec.marshalWorkflow manifest = some out

theorem processWorkflow_eq {uuid : String} {fails : Bool} {clusters : List Cluster} {cluster : Cluster}
    {request : ChaosWorkFlowRequest} {head : ObjectHead}
    (hcluster : getCluster fails clusters request.clusterID = .ok cluster)
    (hproject : cluster.projectID = request.projectID)
    (hhead : codec.unmarshalObject request.workflowManifest = some head)
    (hname : request.workflowName = head.name) (hkind : toLower head.kind = "workflow") :
    processWorkflow codec uuid fails clusters request =
      (processWorkflowManifest codec (weightsOf request.weightages) (withID uuid request)).map
        fun processed => (processed, .workflow) := by
  unfold processWorkflow
  simp only [hcluster, bind, Except.bind, hproject, ne_eq, not_true_eq_false, if_false, hhead, hname,
    hkind, processManifest, if_true]
  cases processWorkflowManifest codec (weightsOf request.weightages) (withID uuid request) with
  | error err => rfl
  | ok processed => rfl

theorem workflowID_withID {uuid : String} (huuid : uuid ≠ "") (request : ChaosWorkFlowRequest) :
    ∃ id, id ≠ "" ∧ (withID uuid request).workflowID = some id := by
  unfold withID
  by_cases hid : request.workflowID = none ∨ request.workflowID = some ""
  · rw [if_pos hid]
    exact ⟨uuid, huuid, rfl⟩
  · rw [if_neg hid]
    push Not at hid
    obtain ⟨id, hsome⟩ := Option.ne_none_iff_exists'.mp hid.1
    exact ⟨id, fun hempty => hid.2 (hempty ▸ hsome), hsome⟩

theorem withID_of_id {uuid id : String} {request : ChaosWorkFlowRequest} (hid : id ≠ "")
    (h : request.workflowID = some id) : withID uuid request = request := by
  unfold withID
  rw [h, if_neg (by simp [hid])]

/-- The first pass has succeeded, and the second one gets to the manifest. -/
structure TwoPasses (codec : Codec) (uuid : String) (fails : Bool) (clusters : List Cluster)
    (workflow processed : ChaosWorkFlowRequest) (wfType : ChaosWorkflowType) (head : ObjectHead)
    (manifest : WorkflowManifest) (fails' : Bool) (clusters' : List Cluster)
    (second : ChaosWorkFlowRequest) : Prop where
  drawn : uuid ≠ ""
  range : ∀ weight ∈ workflow.weightages, minInt ≤ weight.weightage ∧ weight.weightage ≤ maxInt
  object : codec.unmarshalObject workflow.workflowManifest = some head
  kind : toLower head.kind = "workflow"
  read : codec.unmarshalWorkflow workflow.workflowManifest = some manifest
  first : processWorkflow codec uuid fails clusters workflow = .ok (processed, wfType)
  keeps : codec.KeepsWorkflow head processed.workflowManifest
  sync : IsSync processed second
  cluster : ∃ cluster, getCluster fails' clusters' second.clusterID = .ok cluster ∧
    cluster.projectID = second.projectID

theorem TwoPasses.again {uuid uuid' : String} {fails fails' : Bool} {clusters clusters' : List Cluster}
    {workflow processed second : ChaosWorkFlowRequest} {wfType : ChaosWorkflowType} {head : ObjectHead}
    {manifest : WorkflowManifest}
    (h : TwoPasses codec uuid fails clusters workflow processed wfType head manifest fails' clusters' second) :
    ∃ result, processWorkflow codec uuid' fails' clusters' second = .ok (result, .workflow) ∧
      result.workflowManifest = processed.workflowManifest ∧
      result.weightages = manifest.templates.flatMap (assigned codec (weightsOf workflow.weightages)) := by
  -- the first pass
  obtain ⟨hrequest, cluster, hcluster, hproject⟩ := processWorkflow_ok h.first
  have hname : workflow.workflowName = head.name := by
    by_contra hne
    have hfirst := h.first
    simp only [processWorkflow, hcluster, bind, Except.bind, hproject, ne_eq, not_true_eq_false, if_false,
      h.object, hne, not_false_eq_true, if_true] at hfirst
    cases hfirst
  have hfirst := h.first
  rw [processWorkflow_eq hcluster hproject h.object hname h.kind] at hfirst
  cases hprocessed : processWorkflowManifest codec (weightsOf workflow.weightages) (withID uuid workflow) with
  | error err => simp [hprocessed, Except.map] at hfirst
  | ok processed' =>
  rw [hprocessed] at hfirst
  obtain rfl : processed' = processed := congrArg Prod.fst (Except.ok.inj hfirst)
  have hread : codec.unmarshalWorkflow (withID uuid workflow).workflowManifest = some manifest := by
    have hsame : (withID uuid workflow).workflowManifest = workflow.workflowManifest := by
      unfold withID
      split <;> rfl
    rw [hsame, h.read]
  rw [← ByIndex.processWorkflowManifest_eq] at hprocessed
  obtain ⟨templates, newWeights, htemplates, hwritten, -⟩ := processWorkflowManifest_ok hread hprocessed
  obtain ⟨id, hid, hworkflowID⟩ := workflowID_withID h.drawn workflow
  have hprocessedID : processed'.workflowID = (withID uuid workflow).workflowID := by rw [hrequest]
  have hprocessedCluster : processed'.clusterID = (withID uuid workflow).clusterID := by rw [hrequest]
  have hprocessedName : processed'.workflowName = workflow.workflowName := by
    rw [hrequest]
    unfold withID
    split <;> rfl
  -- what the second pass reads
  obtain ⟨readManifest, hreadAgain, hsame⟩ := h.keeps.reads _ hwritten
  have hrange : ∀ name val, (weightsOf workflow.weightages).lookup name = some val →
      minInt ≤ val ∧ val ≤ maxInt := by
    intro name val hlookup
    obtain ⟨weight, hweight, rfl⟩ := lookup_weightsOf hlookup
    exact h.range weight hweight
  have hagain := processTemplates_again hrange htemplates hsame.templates
  have hsecondID : second.workflowID = some id := by rw [h.sync.workflowID, hprocessedID, hworkflowID]
  have hidOf : idOf second = idOf (withID uuid workflow) := by
    rw [idOf, idOf, hsecondID, hworkflowID]
  have hclusterID : second.clusterID = (withID uuid workflow).clusterID := by
    rw [h.sync.clusterID, hprocessedCluster]
  have hwrittenAgain : codec.marshalWorkflow { readManifest with
      labels := some (addLabels readManifest.labels (workflowLabels (idOf second) second.clusterID)) } =
        some processed'.workflowManifest := by
    apply h.keeps.writes _ _ hwritten
    rw [hidOf, hclusterID]
    exact ⟨sameLabels_addLabels_again hsame.labels, hsame.templates, hsame.rest⟩
  -- the second pass
  obtain ⟨cluster', hcluster', hproject'⟩ := h.cluster
  have hhead' : codec.unmarshalObject second.workflowManifest = some head := by
    rw [h.sync.manifest, h.keeps.head]
  have hname' : second.workflowName = head.name := by rw [h.sync.workflowName, hprocessedName, hname]
  have hreadSecond : codec.unmarshalWorkflow second.workflowManifest = some readManifest := by
    rw [h.sync.manifest, hreadAgain]
  have hsecond : processWorkflowManifest codec ∅ second =
      .ok { second with
        weightages := manifest.templates.flatMap (assigned codec (weightsOf workflow.weightages))
        workflowManifest := processed'.workflowManifest } := by
    simp only [processWorkflowManifest, hreadSecond, hagain, bind, Except.bind, hwrittenAgain, withManifest,
      h.sync.weightages, List.nil_append]
  refine ⟨{ second with
    weightages := manifest.templates.flatMap (assigned codec (weightsOf workflow.weightages))
    workflowManifest := processed'.workflowManifest }, ?_, rfl, rfl⟩
  rw [processWorkflow_eq hcluster' hproject' hhead' hname' h.kind, withID_of_id hid hsecondID,
    h.sync.weightages]
  change (processWorkflowManifest codec ∅ second).map _ = _
  rw [hsecond]
  rfl

/-- For every engine of the manifest, one entry under its name, with the weight the first pass gave it. -/
def OneEntryEach (codec : Codec) (weights : Weights) (manifest : WorkflowManifest)
    (weightages : List WeightagesInput) : Prop :=
  ∀ template ∈ manifest.templates, ∀ entry ∈ assigned codec weights template,
    weightages.filter (fun weight => weight.experimentName = entry.experimentName) = [entry]

/-- What every two passes should leave. -/
def WeightsSurvive : Prop :=
  ∀ (codec : Codec) (uuid uuid' : String) (fails fails' : Bool) (clusters clusters' : List Cluster)
    (workflow processed second : ChaosWorkFlowRequest) (wfType : ChaosWorkflowType) (head : ObjectHead)
    (manifest : WorkflowManifest),
    TwoPasses codec uuid fails clusters workflow processed wfType head manifest fails' clusters' second →
    ∃ result, processWorkflow codec uuid' fails' clusters' second = .ok (result, .workflow) ∧
      result.workflowManifest = processed.workflowManifest ∧
      OneEntryEach codec (weightsOf workflow.weightages) manifest result.weightages

/-- One entry for each template that carries an engine, in the order of the templates, and the same text. -/
theorem weights_survive_inOrder (codec : Codec) (uuid uuid' : String) (fails fails' : Bool)
    (clusters clusters' : List Cluster) (workflow processed second : ChaosWorkFlowRequest)
    (wfType : ChaosWorkflowType) (head : ObjectHead) (manifest : WorkflowManifest)
    (h : TwoPasses codec uuid fails clusters workflow processed wfType head manifest fails' clusters' second) :
    ∃ result, processWorkflow codec uuid' fails' clusters' second = .ok (result, .workflow) ∧
      result.workflowManifest = processed.workflowManifest ∧
      result.weightages = manifest.templates.flatMap (assigned codec (weightsOf workflow.weightages)) :=
  h.again

/-! ### One engine in many templates -/

instance : DecidableRel SameLabels := fun labels labels' =>
  decidable_of_iff
    (∀ key ∈ (labels.getD ∅).keys ++ (labels'.getD ∅).keys, labelAt labels' key = labelAt labels key) (by
      constructor
      · intro h key
        by_cases hkey : key ∈ (labels.getD ∅).keys ++ (labels'.getD ∅).keys
        · exact h key hkey
        · rw [List.mem_append, not_or] at hkey
          rw [← lookup_getD, ← lookup_getD, AList.lookup_eq_none.mpr hkey.1, AList.lookup_eq_none.mpr hkey.2]
      · exact fun h key _ => h key)

instance : DecidableRel SameTemplate := fun template template' =>
  decidable_of_iff (template'.artifacts = template.artifacts ∧ template'.rest = template.rest ∧
      SameLabels template.labels template'.labels)
    ⟨fun h => ⟨h.1, h.2.1, h.2.2⟩, fun h => ⟨h.artifacts, h.rest, h.labels⟩⟩

instance : DecidableRel SameWorkflow := fun manifest manifest' =>
  decidable_of_iff (SameLabels manifest.labels manifest'.labels ∧
      (manifest.templates.length = manifest'.templates.length ∧
        ∀ pair ∈ manifest.templates.zip manifest'.templates, SameTemplate pair.1 pair.2) ∧
      manifest'.rest = manifest.rest) (by
    have htemplates : List.Forall₂ SameTemplate manifest.templates manifest'.templates ↔
        manifest.templates.length = manifest'.templates.length ∧
          ∀ pair ∈ manifest.templates.zip manifest'.templates, SameTemplate pair.1 pair.2 := by
      rw [List.forall₂_iff_zip, Prod.forall]
    constructor
    · exact fun h => ⟨h.1, htemplates.mpr h.2.1, h.2.2⟩
    · exact fun h => ⟨h.labels, htemplates.mp h.templates, h.rest⟩)

/-- Templates with one engine, labelled with a weight of five. -/
def podsWorkflow (count : Nat) (labels templateLabels : Option Labels) : WorkflowManifest :=
  ⟨labels, List.replicate count (podTemplate templateLabels), "spec"⟩

def podsCodec (count : Nat) : Codec :=
  { podCodec none with
    unmarshalObject := fun _ => some ⟨"pod-kill", "Workflow"⟩
    unmarshalWorkflow := fun text =>
      if text = "in" then some (podsWorkflow count none none)
      else some (podsWorkflow count (some podLabels) (some (weightLabel "5")))
    marshalWorkflow := fun manifest =>
      if SameWorkflow manifest (podsWorkflow count (some podLabels) (some (weightLabel "5"))) then some "out"
      else none }

theorem SameTemplate.of_left {template template' template'' : Template}
    (h : SameTemplate template template') (h' : SameTemplate template template'') :
    SameTemplate template'' template' :=
  ⟨h.artifacts.trans h'.artifacts.symm, h.rest.trans h'.rest.symm, fun key =>
    (h.labels key).trans (h'.labels key).symm⟩

theorem SameWorkflow.of_left {manifest manifest' manifest'' : WorkflowManifest}
    (h : SameWorkflow manifest manifest') (h' : SameWorkflow manifest manifest'') :
    SameWorkflow manifest'' manifest' := by
  have htemplates : ∀ {templates templates' templates'' : List Template},
      List.Forall₂ SameTemplate templates templates' → List.Forall₂ SameTemplate templates templates'' →
      List.Forall₂ SameTemplate templates'' templates' := by
    intro templates templates' templates'' hleft hright
    induction hleft generalizing templates'' with
    | nil =>
        cases hright
        exact .nil
    | cons hhead _ ih =>
        cases hright with
        | cons hhead' htail => exact .cons (hhead.of_left hhead') (ih htail)
  exact ⟨fun key => (h.labels key).trans (h'.labels key).symm, htemplates h.templates h'.templates,
    h.rest.trans h'.rest.symm⟩

theorem SameWorkflow.refl (manifest : WorkflowManifest) : SameWorkflow manifest manifest :=
  ⟨fun _ => rfl, List.forall₂_same.mpr fun template _ => SameTemplate.refl template, rfl⟩

theorem podsCodec_written {count : Nat} {written : WorkflowManifest}
    (h : (podsCodec count).marshalWorkflow written = some "out") :
    SameWorkflow written (podsWorkflow count (some podLabels) (some (weightLabel "5"))) := by
  by_contra hwritten
  have hnone : (podsCodec count).marshalWorkflow written = none := if_neg hwritten
  rw [hnone] at h
  cases h

theorem podsCodec_keeps (count : Nat) : (podsCodec count).KeepsWorkflow ⟨"pod-kill", "Workflow"⟩ "out" where
  head := rfl
  reads _ hwritten := ⟨_, rfl, podsCodec_written hwritten⟩
  writes _ _ hwritten hsame := if_pos ((podsCodec_written hwritten).of_left hsame)

theorem processTemplates_pods (count : Nat) :
    processTemplates (podsCodec count) (weightsOf [⟨"pod-delete", 5⟩])
        (List.replicate count (podTemplate none)) =
      .ok (List.replicate count (podTemplate (some (weightLabel "5"))), []) := by
  have htemplate : processTemplate (podsCodec count) (weightsOf [⟨"pod-delete", 5⟩]) (podTemplate none) =
      .ok (podTemplate (some (weightLabel "5")), []) := rfl
  generalize podsCodec count = codec at htemplate ⊢
  induction count with
  | zero => rfl
  | succ count ih =>
      rw [List.replicate_succ, processTemplates, htemplate, ih]
      rfl

theorem twoPasses_pods (count : Nat) :
    TwoPasses (podsCodec count) "workflow-1" false [sampleCluster] (podRequest "in" [⟨"pod-delete", 5⟩])
      (podRequest "out" [⟨"pod-delete", 5⟩]) .workflow ⟨"pod-kill", "Workflow"⟩
      (podsWorkflow count none none) false [sampleCluster] (podRequest "out" []) where
  drawn := by decide
  range := by
    intro weight hweight
    rw [List.mem_singleton.mp hweight]
    decide
  object := rfl
  kind := by decide
  read := rfl
  first := by
    have hwritten : (podsCodec count).marshalWorkflow
        (podsWorkflow count (some podLabels) (some (weightLabel "5"))) = some "out" :=
      if_pos (SameWorkflow.refl _)
    have hprocessed : processWorkflowManifest (podsCodec count) (weightsOf [⟨"pod-delete", 5⟩])
        (podRequest "in" [⟨"pod-delete", 5⟩]) = .ok (podRequest "out" [⟨"pod-delete", 5⟩]) := by
      change (processTemplates (podsCodec count) (weightsOf [⟨"pod-delete", 5⟩])
        (List.replicate count (podTemplate none)) >>= _) = _
      rw [processTemplates_pods]
      change withManifest _ _ ((podsCodec count).marshalWorkflow
        (podsWorkflow count (some podLabels) (some (weightLabel "5")))) = _
      rw [hwritten]
      rfl
    have hcluster : getCluster false [sampleCluster] "cluster-1" = .ok sampleCluster := rfl
    rw [processWorkflow_eq hcluster rfl rfl rfl (by decide)]
    change (processWorkflowManifest (podsCodec count) (weightsOf [⟨"pod-delete", 5⟩])
      (podRequest "in" [⟨"pod-delete", 5⟩])).map _ = _
    rw [hprocessed]
    rfl
  keeps := podsCodec_keeps count
  sync := ⟨rfl, rfl, rfl, rfl, rfl, rfl⟩
  cluster := ⟨sampleCluster, rfl, rfl⟩

/-- An engine in two templates has two entries after the sync. -/
theorem not_weightsSurvive : ¬ WeightsSurvive := by
  intro h
  obtain ⟨result, hresult, -, hentries⟩ := h (podsCodec 2) "workflow-1" "workflow-2" false false _ _ _ _ _ _ _
    _ (twoPasses_pods 2)
  obtain ⟨result', hresult', -, hinOrder⟩ := (twoPasses_pods 2).again
  obtain rfl : result = result' := congrArg Prod.fst (Except.ok.inj (hresult.symm.trans hresult'))
  have hentry := hentries (podTemplate none) List.mem_cons_self ⟨"pod-delete", 5⟩ List.mem_cons_self
  rw [hinOrder] at hentry
  exact absurd hentry (by decide)

theorem weights_survive_pods :
    ∃ result, processWorkflow (podsCodec 1) "workflow-2" false [sampleCluster] (podRequest "out" []) =
        .ok (result, .workflow) ∧
      result.workflowManifest = "out" ∧
      result.weightages = [⟨"pod-delete", 5⟩] :=
  weights_survive_inOrder (podsCodec 1) "workflow-1" "workflow-2" false false [sampleCluster]
    [sampleCluster] (podRequest "in" [⟨"pod-delete", 5⟩]) (podRequest "out" [⟨"pod-delete", 5⟩])
    (podRequest "out" []) .workflow ⟨"pod-kill", "Workflow"⟩ (podsWorkflow 1 none none) (twoPasses_pods 1)

end LitmusPortal
