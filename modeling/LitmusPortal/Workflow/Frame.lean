import LitmusPortal.Workflow.Loops

/-!
# What processing leaves of a manifest

The labels of the object are added to those it has. The label of a weight that is written to a template
replaces the labels of the template: the others are kept exactly when there are none.
-/

namespace LitmusPortal

open GoStrings RangeLoop

variable {codec : Codec} {weights : Weights}

/-! ## One template -/

def labelAt (labels : Option Labels) (key : String) : Option String :=
  labels.bind fun labels => labels.lookup key

def withWeight (template : Template) (weight : String) : Template :=
  { template with labels := some (AList.singleton "weight" weight) }

/-- What becomes of a template, and the new entry of the weightages. -/
inductive Processed (codec : Codec) (weights : Weights) (template : Template) :
    Template → List WeightagesInput → Prop where
  | plain (none : templateEngine codec template = .ok none) : Processed codec weights template template []
  | requested (engine : ChaosEngine) (val : Int)
      (carries : templateEngine codec template = .ok (some engine))
      (named : experimentName engine.toEngineMeta = .ok engine.generateName)
      (weight : weights.lookup engine.generateName = some val) :
      Processed codec weights template (withWeight template (toString val)) []
  | labelled (engine : ChaosEngine) (text : String) (intVal : Int)
      (carries : templateEngine codec template = .ok (some engine))
      (named : experimentName engine.toEngineMeta = .ok engine.generateName)
      (unrequested : weights.lookup engine.generateName = none)
      (label : labelAt template.labels "weight" = some text) (value : atoi text = some intVal) :
      Processed codec weights template template [⟨engine.generateName, intVal⟩]
  | unlabelled (engine : ChaosEngine) (carries : templateEngine codec template = .ok (some engine))
      (named : experimentName engine.toEngineMeta = .ok engine.generateName)
      (unrequested : weights.lookup engine.generateName = none)
      (label : labelAt template.labels "weight" = none) :
      Processed codec weights template (withWeight template "10") [⟨engine.generateName, 10⟩]

theorem experimentName_ok {engine : EngineMeta} {name : String} (h : experimentName engine = .ok name) :
    name = engine.generateName := by
  unfold experimentName at h
  split_ifs at h
  exact (Except.ok.inj h).symm

theorem weigh_ok {exprname : String} {label : Option String} {newWeights : List WeightagesInput}
    {weight : Option String} (h : weigh weights exprname label = .ok (newWeights, weight)) :
    (∃ val, weights.lookup exprname = some val ∧ newWeights = [] ∧ weight = some (toString val)) ∨
      weights.lookup exprname = none ∧
        ((∃ text intVal, label = some text ∧ atoi text = some intVal ∧
          newWeights = [⟨exprname, intVal⟩] ∧ weight = none) ∨
        label = none ∧ newWeights = [⟨exprname, 10⟩] ∧ weight = some "10") := by
  unfold weigh at h
  cases hval : weights.lookup exprname with
  | some val =>
      rw [hval] at h
      cases h
      exact .inl ⟨val, rfl, rfl, rfl⟩
  | none =>
      rw [hval] at h
      refine .inr ⟨rfl, ?_⟩
      cases label with
      | none =>
          cases h
          exact .inr ⟨rfl, rfl, rfl⟩
      | some text =>
          cases hatoi : atoi text with
          | none => simp [hatoi] at h
          | some intVal =>
              simp only [hatoi, Except.ok.injEq, Prod.mk.injEq] at h
              exact .inl ⟨text, intVal, rfl, hatoi, h.1.symm, h.2.symm⟩

theorem processTemplate_ok {template template' : Template} {newWeights : List WeightagesInput}
    (h : processTemplate codec weights template = .ok (template', newWeights)) :
    Processed codec weights template template' newWeights := by
  unfold processTemplate at h
  obtain ⟨found, hfound, h⟩ := exists_of_bind_eq_ok h
  cases found with
  | none =>
      cases h
      exact .plain hfound
  | some engine =>
      obtain ⟨exprname, hexprname, h⟩ := exists_of_bind_eq_ok h
      obtain rfl := experimentName_ok hexprname
      obtain ⟨⟨entries, weight⟩, hweigh, h⟩ := exists_of_bind_eq_ok h
      rcases weigh_ok hweigh with ⟨val, hval, rfl, rfl⟩ | ⟨hnone, htext | ⟨hlabel, rfl, rfl⟩⟩
      · cases h
        exact .requested engine val hfound hexprname hval
      · obtain ⟨text, intVal, hlabel, hatoi, rfl, rfl⟩ := htext
        cases h
        exact .labelled engine text intVal hfound hexprname hnone hlabel hatoi
      · cases h
        exact .unlabelled engine hfound hexprname hnone hlabel

theorem processTemplates_ok {templates templates' : List Template} {newWeights : List WeightagesInput}
    (h : processTemplates codec weights templates = .ok (templates', newWeights)) :
    ∃ parts : List (Template × List WeightagesInput),
      List.Forall₂ (fun template part => Processed codec weights template part.1 part.2) templates parts ∧
        templates' = parts.map Prod.fst ∧ newWeights = parts.flatMap Prod.snd := by
  rw [processTemplates_eq_mapCollect] at h
  obtain ⟨parts, hparts, htemplates, hweights⟩ := mapCollect_ok h
  exact ⟨parts, hparts.imp fun _ _ => processTemplate_ok, htemplates, hweights⟩

/-! ## The frame -/

/-- A template that carries a chaos engine may have another weight. -/
structure TemplateFrame (codec : Codec) (template template' : Template) : Prop where
  artifacts : template'.artifacts = template.artifacts
  rest : template'.rest = template.rest
  labels : ∀ key, (key = "weight" → ¬ ∃ engine, templateEngine codec template = .ok (some engine)) →
    labelAt template'.labels key = labelAt template.labels key

def ownLabels : List String := ["workflow_id", "cluster_id", "workflows.argoproj.io/controller-instanceid"]

/-- Only the labels of the portal may differ. -/
def LabelsFrame (labels labels' : Option Labels) : Prop :=
  ∀ key, key ∉ ownLabels → labelAt labels' key = labelAt labels key

structure WorkflowFrame (codec : Codec) (manifest manifest' : WorkflowManifest) : Prop where
  labels : LabelsFrame manifest.labels manifest'.labels
  templates : List.Forall₂ (TemplateFrame codec) manifest.templates manifest'.templates
  rest : manifest'.rest = manifest.rest

structure CronWorkflowFrame (codec : Codec) (manifest manifest' : CronWorkflowManifest) : Prop where
  labels : LabelsFrame manifest.labels manifest'.labels
  metadata : LabelsFrame (manifest.workflowMetadata.bind ObjectMeta.labels)
    (manifest'.workflowMetadata.bind ObjectMeta.labels)
  metadataRest : (manifest'.workflowMetadata.map ObjectMeta.rest).getD "" =
    (manifest.workflowMetadata.map ObjectMeta.rest).getD ""
  templates : List.Forall₂ (TemplateFrame codec) manifest.templates manifest'.templates
  rest : manifest'.rest = manifest.rest

/-! ### Reading back what was written -/

/-- The same labels, in any order; no labels are as good as an empty map of them. -/
def SameLabels (labels labels' : Option Labels) : Prop := ∀ key, labelAt labels' key = labelAt labels key

structure SameTemplate (template template' : Template) : Prop where
  artifacts : template'.artifacts = template.artifacts
  rest : template'.rest = template.rest
  labels : SameLabels template.labels template'.labels

structure SameWorkflow (manifest manifest' : WorkflowManifest) : Prop where
  labels : SameLabels manifest.labels manifest'.labels
  templates : List.Forall₂ SameTemplate manifest.templates manifest'.templates
  rest : manifest'.rest = manifest.rest

structure SameCronWorkflow (manifest manifest' : CronWorkflowManifest) : Prop where
  labels : SameLabels manifest.labels manifest'.labels
  metadata : SameLabels (manifest.workflowMetadata.bind ObjectMeta.labels)
    (manifest'.workflowMetadata.bind ObjectMeta.labels)
  metadataRest : (manifest'.workflowMetadata.map ObjectMeta.rest).getD "" =
    (manifest.workflowMetadata.map ObjectMeta.rest).getD ""
  templates : List.Forall₂ SameTemplate manifest.templates manifest'.templates
  rest : manifest'.rest = manifest.rest

/-! ### Labels of objects -/

theorem labelAt_addLabels {labels : Option Labels} {added : List (String × String)} {key : String}
    (h : key ∉ added.map Prod.fst) : labelAt (some (addLabels labels added)) key = labelAt labels key := by
  have hfold : ∀ (added : List (String × String)) (labels : Labels), key ∉ added.map Prod.fst →
      (added.foldl (fun labels label => labels.insert label.1 label.2) labels).lookup key =
        labels.lookup key := by
    intro added
    induction added with
    | nil => exact fun _ _ => rfl
    | cons label added ih =>
        intro labels hkey
        rw [List.map_cons, List.mem_cons, not_or] at hkey
        rw [List.foldl_cons, ih _ hkey.2, AList.lookup_insert_ne hkey.1]
  unfold labelAt addLabels
  rw [Option.bind_some, hfold added _ h]
  cases labels with
  | none => exact AList.lookup_empty key
  | some labels => rfl

theorem labelsFrame_addLabels (labels : Option Labels) (workflowID clusterID : String) :
    LabelsFrame labels (some (addLabels labels (workflowLabels workflowID clusterID))) :=
  fun _ hkey => labelAt_addLabels hkey

theorem LabelsFrame.same {labels labels' labels'' : Option Labels} (h : LabelsFrame labels labels')
    (hsame : SameLabels labels' labels'') : LabelsFrame labels labels'' :=
  fun key hkey => (hsame key).trans (h key hkey)

/-! ### Labels of templates -/

/-- A weight is written over no other label. -/
def LosesNoLabel (codec : Codec) (weights : Weights) (template : Template) : Prop :=
  ∀ engine, templateEngine codec template = .ok (some engine) →
    weights.lookup engine.generateName ≠ none ∨ labelAt template.labels "weight" = none →
    ∀ key, key ≠ "weight" → labelAt template.labels key = none

theorem labelAt_withWeight (template : Template) (weight key : String) :
    labelAt (withWeight template weight).labels key = if key = "weight" then some weight else none := by
  unfold withWeight labelAt
  rw [← AList.insert_empty, Option.bind_some]
  by_cases hkey : key = "weight"
  · subst hkey
    rw [if_pos rfl, AList.lookup_insert]
  · rw [if_neg hkey, AList.lookup_insert_ne hkey, AList.lookup_empty]

theorem templateFrame_withWeight {template : Template} {engine : ChaosEngine}
    (hcarries : templateEngine codec template = .ok (some engine)) (weight : String) :
    TemplateFrame codec template (withWeight template weight) ↔
      ∀ key, key ≠ "weight" → labelAt template.labels key = none := by
  constructor
  · intro hframe key hkey
    have hlabel := hframe.labels key fun heq => absurd heq hkey
    rw [labelAt_withWeight, if_neg hkey] at hlabel
    exact hlabel.symm
  · intro hnone
    refine ⟨rfl, rfl, fun key hkey => ?_⟩
    rw [labelAt_withWeight]
    by_cases hweight : key = "weight"
    · exact absurd ⟨engine, hcarries⟩ (hkey hweight)
    · rw [if_neg hweight, hnone key hweight]

theorem TemplateFrame.refl (template : Template) : TemplateFrame codec template template :=
  ⟨rfl, rfl, fun _ _ => rfl⟩

theorem Processed.frame_iff {template template' : Template} {newWeights : List WeightagesInput}
    (h : Processed codec weights template template' newWeights) :
    TemplateFrame codec template template' ↔ LosesNoLabel codec weights template := by
  cases h with
  | plain hnone =>
      refine iff_of_true (TemplateFrame.refl template) fun engine hcarries => ?_
      rw [hnone] at hcarries
      cases hcarries
  | requested engine val hcarries _ hweight =>
      rw [templateFrame_withWeight hcarries]
      constructor
      · intro hkept other hother _
        exact hkept
      · intro hloses
        exact hloses engine hcarries (.inl (by simp [hweight]))
  | labelled engine text intVal hcarries _ hnone hlabel _ =>
      refine iff_of_true (TemplateFrame.refl template) fun other hother hrewritten => ?_
      obtain rfl : engine = other := by
        rw [hcarries] at hother
        exact Option.some.inj (Except.ok.inj hother)
      simp [hnone, hlabel] at hrewritten
  | unlabelled engine hcarries _ _ hlabel =>
      rw [templateFrame_withWeight hcarries]
      constructor
      · intro hkept other hother _
        exact hkept
      · intro hloses
        exact hloses engine hcarries (.inr hlabel)

theorem TemplateFrame.congr {template template' template'' : Template}
    (h : SameTemplate template' template'') :
    TemplateFrame codec template template'' ↔ TemplateFrame codec template template' := by
  constructor
  · intro hframe
    exact ⟨h.artifacts.symm.trans hframe.artifacts, h.rest.symm.trans hframe.rest, fun key hkey =>
      (h.labels key).symm.trans (hframe.labels key hkey)⟩
  · intro hframe
    exact ⟨h.artifacts.trans hframe.artifacts, h.rest.trans hframe.rest, fun key hkey =>
      (h.labels key).trans (hframe.labels key hkey)⟩

/-- The templates that are read back differ as allowed exactly when no label is lost. -/
theorem templates_frame_iff {templates templates' templates'' : List Template}
    {newWeights : List WeightagesInput}
    (h : processTemplates codec weights templates = .ok (templates', newWeights))
    (hsame : List.Forall₂ SameTemplate templates' templates'') :
    List.Forall₂ (TemplateFrame codec) templates templates'' ↔
      ∀ template ∈ templates, LosesNoLabel codec weights template := by
  obtain ⟨parts, hparts, rfl, -⟩ := processTemplates_ok h
  clear h
  induction hparts generalizing templates'' with
  | nil =>
      cases hsame
      simp
  | cons hpart _ ih =>
      cases hsame with
      | cons hhead htail =>
          rw [List.forall₂_cons, List.forall_mem_cons, ih htail, TemplateFrame.congr hhead, hpart.frame_iff]

/-! ### Manifests -/

theorem withManifest_eq_ok {request request' : ChaosWorkFlowRequest} {newWeights : List WeightagesInput}
    {out : Option String} (h : withManifest request newWeights out = .ok request') :
    out = some request'.workflowManifest ∧ request'.weightages = request.weightages ++ newWeights := by
  cases out with
  | none => cases h
  | some out =>
      cases h
      exact ⟨rfl, rfl⟩

theorem processWorkflowManifest_ok {request request' : ChaosWorkFlowRequest} {manifest : WorkflowManifest}
    (hread : codec.unmarshalWorkflow request.workflowManifest = some manifest)
    (hrun : ByIndex.processWorkflowManifest codec weights request = .ok request') :
    ∃ templates newWeights, processTemplates codec weights manifest.templates = .ok (templates, newWeights) ∧
      codec.marshalWorkflow { manifest with
        labels := some (addLabels manifest.labels (workflowLabels (idOf request) request.clusterID))
        templates := templates } = some request'.workflowManifest ∧
      request'.weightages = request.weightages ++ newWeights := by
  rw [ByIndex.processWorkflowManifest_eq] at hrun
  unfold processWorkflowManifest at hrun
  simp only [hread] at hrun
  obtain ⟨⟨templates, newWeights⟩, htemplates, hend⟩ := exists_of_bind_eq_ok hrun
  exact ⟨templates, newWeights, htemplates, withManifest_eq_ok hend⟩

theorem processCronWorkflowManifest_ok {request request' : ChaosWorkFlowRequest}
    {manifest : CronWorkflowManifest}
    (hread : codec.unmarshalCronWorkflow request.workflowManifest = some manifest)
    (hrun : ByIndex.processCronWorkflowManifest codec weights request = .ok request') :
    ∃ templates newWeights, processTemplates codec weights manifest.templates = .ok (templates, newWeights) ∧
      codec.marshalCronWorkflow { manifest with
        labels := some (addLabels manifest.labels (workflowLabels (idOf request) request.clusterID))
        workflowMetadata := some { manifest.workflowMetadata.getD ⟨none, ""⟩ with
          labels := some (addLabels (manifest.workflowMetadata.getD ⟨none, ""⟩).labels
            (workflowLabels (idOf request) request.clusterID)) }
        templates := templates } = some request'.workflowManifest ∧
      request'.weightages = request.weightages ++ newWeights := by
  rw [ByIndex.processCronWorkflowManifest_eq] at hrun
  unfold processCronWorkflowManifest at hrun
  simp only [hread] at hrun
  obtain ⟨⟨templates, newWeights⟩, htemplates, hend⟩ := exists_of_bind_eq_ok hrun
  exact ⟨templates, newWeights, htemplates, withManifest_eq_ok hend⟩

theorem labels_getD_metadata (metadata : Option ObjectMeta) :
    (metadata.getD ⟨none, ""⟩).labels = metadata.bind ObjectMeta.labels := by
  cases metadata with
  | none => rfl
  | some metadata => rfl

theorem rest_getD_metadata (metadata : Option ObjectMeta) :
    (metadata.getD ⟨none, ""⟩).rest = (metadata.map ObjectMeta.rest).getD "" := by
  cases metadata with
  | none => rfl
  | some metadata => rfl

section Statements

variable (codec) (weights) (request request' : ChaosWorkFlowRequest)

/-- A workflow that is processed and read back differs from what it was as allowed. -/
def WorkflowIsFramed : Prop :=
  ∀ manifest manifest', codec.unmarshalWorkflow request.workflowManifest = some manifest →
    ByIndex.processWorkflowManifest codec weights request = .ok request' →
    (∀ written, codec.marshalWorkflow written = some request'.workflowManifest →
      SameWorkflow written manifest') → WorkflowFrame codec manifest manifest'

def CronWorkflowIsFramed : Prop :=
  ∀ manifest manifest', codec.unmarshalCronWorkflow request.workflowManifest = some manifest →
    ByIndex.processCronWorkflowManifest codec weights request = .ok request' →
    (∀ written, codec.marshalCronWorkflow written = some request'.workflowManifest →
      SameCronWorkflow written manifest') → CronWorkflowFrame codec manifest manifest'

end Statements

theorem workflowFrame_iff {request request' : ChaosWorkFlowRequest} {manifest manifest' : WorkflowManifest}
    (hread : codec.unmarshalWorkflow request.workflowManifest = some manifest)
    (hrun : ByIndex.processWorkflowManifest codec weights request = .ok request')
    (hreadBack : ∀ written, codec.marshalWorkflow written = some request'.workflowManifest →
      SameWorkflow written manifest') :
    WorkflowFrame codec manifest manifest' ↔
      ∀ template ∈ manifest.templates, LosesNoLabel codec weights template := by
  obtain ⟨templates, newWeights, htemplates, hwritten, -⟩ := processWorkflowManifest_ok hread hrun
  have hsame := hreadBack _ hwritten
  rw [← templates_frame_iff htemplates hsame.templates]
  constructor
  · exact fun hframe => hframe.templates
  · intro hframe
    exact ⟨(labelsFrame_addLabels _ _ _).same hsame.labels, hframe, hsame.rest⟩

theorem cronWorkflowFrame_iff {request request' : ChaosWorkFlowRequest}
    {manifest manifest' : CronWorkflowManifest}
    (hread : codec.unmarshalCronWorkflow request.workflowManifest = some manifest)
    (hrun : ByIndex.processCronWorkflowManifest codec weights request = .ok request')
    (hreadBack : ∀ written, codec.marshalCronWorkflow written = some request'.workflowManifest →
      SameCronWorkflow written manifest') :
    CronWorkflowFrame codec manifest manifest' ↔
      ∀ template ∈ manifest.templates, LosesNoLabel codec weights template := by
  obtain ⟨templates, newWeights, htemplates, hwritten, -⟩ := processCronWorkflowManifest_ok hread hrun
  have hsame := hreadBack _ hwritten
  rw [← templates_frame_iff htemplates hsame.templates]
  constructor
  · exact fun hframe => hframe.templates
  · intro hframe
    refine ⟨(labelsFrame_addLabels _ _ _).same hsame.labels, ?_, ?_, hframe, hsame.rest⟩
    · refine LabelsFrame.same ?_ hsame.metadata
      rw [← labels_getD_metadata manifest.workflowMetadata]
      exact labelsFrame_addLabels _ _ _
    · rw [hsame.metadataRest, ← rest_getD_metadata manifest.workflowMetadata]
      rfl

/-- Both processors, on every manifest. -/
def ManifestsAreFramed : Prop :=
  ∀ (codec : Codec) (weights : Weights) (request request' : ChaosWorkFlowRequest),
    WorkflowIsFramed codec weights request request' ∧ CronWorkflowIsFramed codec weights request request'

theorem manifests_frame_iff (codec : Codec) (weights : Weights) (request request' : ChaosWorkFlowRequest) :
    (∀ manifest manifest', codec.unmarshalWorkflow request.workflowManifest = some manifest →
      ByIndex.processWorkflowManifest codec weights request = .ok request' →
      (∀ written, codec.marshalWorkflow written = some request'.workflowManifest →
        SameWorkflow written manifest') →
      (WorkflowFrame codec manifest manifest' ↔
        ∀ template ∈ manifest.templates, LosesNoLabel codec weights template)) ∧
    (∀ manifest manifest', codec.unmarshalCronWorkflow request.workflowManifest = some manifest →
      ByIndex.processCronWorkflowManifest codec weights request = .ok request' →
      (∀ written, codec.marshalCronWorkflow written = some request'.workflowManifest →
        SameCronWorkflow written manifest') →
      (CronWorkflowFrame codec manifest manifest' ↔
        ∀ template ∈ manifest.templates, LosesNoLabel codec weights template)) :=
  ⟨fun _ _ => workflowFrame_iff, fun _ _ => cronWorkflowFrame_iff⟩

/-! ### A template with a label of its own -/

theorem processTemplates_pod (templateLabels : Option Labels) (h : labelAt templateLabels "weight" = none) :
    processTemplates (podCodec templateLabels) ∅ [podTemplate templateLabels] =
      .ok ([podTemplate (some (weightLabel "10"))], [⟨"pod-delete", 10⟩]) := by
  have hengine : templateEngine (podCodec templateLabels) (podTemplate templateLabels) =
      .ok (some podEngine) := by
    rfl
  have hlabel : (podTemplate templateLabels).labels.bind (·.lookup "weight") = none := h
  have htemplate : processTemplate (podCodec templateLabels) ∅ (podTemplate templateLabels) =
      .ok (podTemplate (some (weightLabel "10")), [⟨"pod-delete", 10⟩]) := by
    rw [processTemplate, hengine, hlabel]
    rfl
  rw [processTemplates, htemplate]
  rfl

theorem processWorkflowManifest_pod (templateLabels : Option Labels)
    (h : labelAt templateLabels "weight" = none) :
    ByIndex.processWorkflowManifest (podCodec templateLabels) ∅ (podRequest "in" []) =
      .ok (podRequest "out" [⟨"pod-delete", 10⟩]) := by
  have hread : (podCodec templateLabels).unmarshalWorkflow (podRequest "in" []).workflowManifest =
      some (podWorkflow none templateLabels) := rfl
  have hwritten : (podCodec templateLabels).marshalWorkflow
      (podWorkflow (some podLabels) (some (weightLabel "10"))) = some "out" := if_pos rfl
  rw [ByIndex.processWorkflowManifest_eq, processWorkflowManifest, hread]
  change (processTemplates (podCodec templateLabels) ∅ [podTemplate templateLabels] >>= _) = _
  rw [processTemplates_pod templateLabels h]
  change withManifest _ _ ((podCodec templateLabels).marshalWorkflow
    (podWorkflow (some podLabels) (some (weightLabel "10")))) = _
  rw [hwritten]
  rfl

theorem processCronWorkflowManifest_pod (templateLabels : Option Labels)
    (h : labelAt templateLabels "weight" = none) :
    ByIndex.processCronWorkflowManifest (podCodec templateLabels) ∅ (podRequest "in" []) =
      .ok (podRequest "out" [⟨"pod-delete", 10⟩]) := by
  have hread : (podCodec templateLabels).unmarshalCronWorkflow (podRequest "in" []).workflowManifest =
      some (podCronWorkflow none none templateLabels) := rfl
  have hwritten : (podCodec templateLabels).marshalCronWorkflow
      (podCronWorkflow (some podLabels) (some ⟨some podLabels, ""⟩) (some (weightLabel "10"))) =
        some "out" := if_pos rfl
  rw [ByIndex.processCronWorkflowManifest_eq, processCronWorkflowManifest, hread]
  change (processTemplates (podCodec templateLabels) ∅ [podTemplate templateLabels] >>= _) = _
  rw [processTemplates_pod templateLabels h]
  change withManifest _ _ ((podCodec templateLabels).marshalCronWorkflow
    (podCronWorkflow (some podLabels) (some ⟨some podLabels, ""⟩) (some (weightLabel "10")))) = _
  rw [hwritten]
  rfl

theorem SameTemplate.refl (template : Template) : SameTemplate template template :=
  ⟨rfl, rfl, fun _ => rfl⟩

theorem sameWorkflow_of_written {templateLabels : Option Labels} {written : WorkflowManifest}
    (h : (podCodec templateLabels).marshalWorkflow written = some "out") :
    SameWorkflow written (podWorkflow (some podLabels) (some (weightLabel "10"))) := by
  by_cases hwritten : written = podWorkflow (some podLabels) (some (weightLabel "10"))
  · rw [hwritten]
    exact ⟨fun _ => rfl, List.forall₂_same.mpr fun template _ => SameTemplate.refl template, rfl⟩
  · simp [podCodec, hwritten] at h

theorem sameCronWorkflow_of_written {templateLabels : Option Labels} {written : CronWorkflowManifest}
    (h : (podCodec templateLabels).marshalCronWorkflow written = some "out") :
    SameCronWorkflow written
      (podCronWorkflow (some podLabels) (some ⟨some podLabels, ""⟩) (some (weightLabel "10"))) := by
  by_cases hwritten : written =
      podCronWorkflow (some podLabels) (some ⟨some podLabels, ""⟩) (some (weightLabel "10"))
  · rw [hwritten]
    exact ⟨fun _ => rfl, fun _ => rfl, rfl,
      List.forall₂_same.mpr fun template _ => SameTemplate.refl template, rfl⟩
  · simp [podCodec, hwritten] at h

/-- A template that carries an engine and the label of an application. -/
theorem not_manifestsAreFramed : ¬ ManifestsAreFramed := by
  intro h
  let appLabels : Option Labels := some (AList.singleton "app" "nginx")
  have hframe := (h (podCodec appLabels) ∅ (podRequest "in" []) (podRequest "out" [⟨"pod-delete", 10⟩])).1
    (podWorkflow none appLabels) _ rfl (processWorkflowManifest_pod appLabels (by decide))
    fun written => sameWorkflow_of_written
  cases hframe.templates with
  | cons htemplate _ =>
      have hlabel := htemplate.labels "app" fun hweight => absurd hweight (by decide)
      exact absurd hlabel (by decide)

theorem losesNoLabel_pod (template : Template) (h : template ∈ [podTemplate none]) :
    LosesNoLabel (podCodec none) ∅ template := by
  rw [List.mem_singleton.mp h]
  exact fun _ _ _ _ _ => rfl

theorem manifests_frame_pod :
    WorkflowFrame (podCodec none) (podWorkflow none none)
        (podWorkflow (some podLabels) (some (weightLabel "10"))) ∧
      CronWorkflowFrame (podCodec none) (podCronWorkflow none none none)
        (podCronWorkflow (some podLabels) (some ⟨some podLabels, ""⟩) (some (weightLabel "10"))) := by
  have hiff := manifests_frame_iff (podCodec none) ∅ (podRequest "in" [])
    (podRequest "out" [⟨"pod-delete", 10⟩])
  constructor
  · exact (hiff.1 _ _ rfl (processWorkflowManifest_pod none rfl)
      fun written => sameWorkflow_of_written).mpr losesNoLabel_pod
  · exact (hiff.2 _ _ rfl (processCronWorkflowManifest_pod none rfl)
      fun written => sameCronWorkflow_of_written).mpr losesNoLabel_pod

end LitmusPortal
