import LitmusPortal.Lib.Range
import LitmusPortal.Workflow.Manifest

/-!
# The two loops over the templates

The processors of workflows and of cron workflows, each with its own loop over the templates of its manifest,
as the source has them. Either loop is `processTemplates`.
-/

namespace LitmusPortal

open GoStrings RangeLoop

/-! ## Workflows -/

def WorkflowManifest.setTemplateLabels (manifest : WorkflowManifest) (i : Nat) (labels : Labels) :
    WorkflowManifest :=
  { manifest with
    templates := manifest.templates.modify i fun template => { template with labels := some labels } }

def WorkflowManifest.templateLabel (manifest : WorkflowManifest) (i : Nat) (key : String) : Option String :=
  manifest.templates[i]?.bind fun template => template.labels.bind fun labels => labels.lookup key

/-- The body of the loop of `processWorkflowManifest`. -/
def workflowTemplateBody (codec : Codec) (weights : Weights) (i : Nat) (template : Template)
    (vars : WorkflowManifest × List WeightagesInput) :
    Except GoError (WorkflowManifest × List WeightagesInput) :=
  let (workflowManifest, newWeights) := vars
  match template.artifacts with
  | [] => .ok (workflowManifest, newWeights)
  | none :: _ => .ok (workflowManifest, newWeights)
  | some data :: _ =>
      if data = "" then .ok (workflowManifest, newWeights)
      else
        match codec.yamlToEngine (replaceAll (replaceAll data "\x7b\x7b" "") "\x7d\x7d" "") with
        | none => .error (.failed "failed to unmarshal chaosengine")
        | some engine =>
            if toLower engine.kind = "chaosengine" then
              if 0 < engine.experiments then
                let exprname := engine.generateName
                if exprname = "" then .error (.failed "empty chaos experiment name")
                else
                  match weights.lookup exprname with
                  | some val =>
                      .ok (workflowManifest.setTemplateLabels i
                        (AList.singleton "weight" (toString val)), newWeights)
                  | none =>
                      match workflowManifest.templateLabel i "weight" with
                      | some val =>
                          match atoi val with
                          | none => .error (.failed "failed to convert")
                          | some intVal => .ok (workflowManifest, newWeights ++ [⟨exprname, intVal⟩])
                      | none =>
                          .ok (workflowManifest.setTemplateLabels i (AList.singleton "weight" "10"),
                            newWeights ++ [⟨exprname, 10⟩])
              else .error (.failed ("no experiments specified in chaosengine - " ++ engine.name))
            else .ok (workflowManifest, newWeights)

/-! ## Cron workflows -/

def CronWorkflowManifest.setTemplateLabels (manifest : CronWorkflowManifest) (i : Nat) (labels : Labels) :
    CronWorkflowManifest :=
  { manifest with
    templates := manifest.templates.modify i fun template => { template with labels := some labels } }

def CronWorkflowManifest.templateLabel (manifest : CronWorkflowManifest) (i : Nat) (key : String) :
    Option String :=
  manifest.templates[i]?.bind fun template => template.labels.bind fun labels => labels.lookup key

/-- The body of the loop of `processCronWorkflowManifest`. -/
def cronTemplateBody (codec : Codec) (weights : Weights) (i : Nat) (template : Template)
    (vars : CronWorkflowManifest × List WeightagesInput) :
    Except GoError (CronWorkflowManifest × List WeightagesInput) :=
  let (cronWorkflowManifest, newWeights) := vars
  match template.artifacts with
  | [] => .ok (cronWorkflowManifest, newWeights)
  | none :: _ => .ok (cronWorkflowManifest, newWeights)
  | some data :: _ =>
      if data = "" then .ok (cronWorkflowManifest, newWeights)
      else
        match codec.yamlToEngine (replaceAll (replaceAll data "\x7b\x7b" "") "\x7d\x7d" "") with
        | none => .error (.failed "failed to unmarshal chaosengine")
        | some engine =>
            if toLower engine.kind = "chaosengine" then
              if 0 < engine.experiments then
                let exprname := engine.generateName
                if exprname = "" then .error (.failed "empty chaos experiment name")
                else
                  match weights.lookup exprname with
                  | some val =>
                      .ok (cronWorkflowManifest.setTemplateLabels i
                        (AList.singleton "weight" (toString val)), newWeights)
                  | none =>
                      match cronWorkflowManifest.templateLabel i "weight" with
                      | some val =>
                          match atoi val with
                          | none => .error (.failed "failed to convert")
                          | some intVal => .ok (cronWorkflowManifest, newWeights ++ [⟨exprname, intVal⟩])
                      | none =>
                          .ok (cronWorkflowManifest.setTemplateLabels i (AList.singleton "weight" "10"),
                            newWeights ++ [⟨exprname, 10⟩])
              else .error (.failed ("no experiments specified in chaosengine - " ++ engine.name))
            else .ok (cronWorkflowManifest, newWeights)

/-! ## The processors -/

namespace ByIndex

def processWorkflowManifest (codec : Codec) (weights : Weights) (request : ChaosWorkFlowRequest) :
    Except GoError ChaosWorkFlowRequest := do
  match codec.unmarshalWorkflow request.workflowManifest with
  | none => .error unmarshalError
  | some manifest =>
      let manifest := { manifest with
        labels := some (addLabels manifest.labels (workflowLabels (idOf request) request.clusterID)) }
      let (manifest, newWeights) ←
        rangeFrom (workflowTemplateBody codec weights) 0 manifest.templates (manifest, [])
      withManifest request newWeights (codec.marshalWorkflow manifest)

def processCronWorkflowManifest (codec : Codec) (weights : Weights)
    (request : ChaosWorkFlowRequest) : Except GoError ChaosWorkFlowRequest := do
  match codec.unmarshalCronWorkflow request.workflowManifest with
  | none => .error unmarshalError
  | some manifest =>
      let added := workflowLabels (idOf request) request.clusterID
      let manifest := { manifest with labels := some (addLabels manifest.labels added) }
      let metadata :=
        match manifest.workflowMetadata with
        | none => ⟨some (addLabels none added), ""⟩
        | some metadata => { metadata with labels := some (addLabels metadata.labels added) }
      let manifest := { manifest with workflowMetadata := some metadata }
      let (manifest, newWeights) ←
        rangeFrom (cronTemplateBody codec weights) 0 manifest.templates (manifest, [])
      withManifest request newWeights (codec.marshalCronWorkflow manifest)

end ByIndex

/-! ## Either loop is the recursion over the templates -/

section Bodies

variable {codec : Codec} {weights : Weights} {Manifest : Type}

theorem processTemplates_eq_mapCollect (templates : List Template) :
    processTemplates codec weights templates = mapCollect (processTemplate codec weights) templates := by
  induction templates with
  | nil => rfl
  | cons template rest ih => rw [processTemplates, mapCollect, ih]

/-- The body for any manifest with a way to read and write the labels of its templates. -/
def templateBody (setLabels : Manifest → Nat → Labels → Manifest)
    (label : Manifest → Nat → String → Option String) (codec : Codec) (weights : Weights) (i : Nat)
    (template : Template) (vars : Manifest × List WeightagesInput) :
    Except GoError (Manifest × List WeightagesInput) :=
  match template.artifacts with
  | [] => .ok vars
  | none :: _ => .ok vars
  | some data :: _ =>
      if data = "" then .ok vars
      else
        match codec.yamlToEngine (replaceAll (replaceAll data "\x7b\x7b" "") "\x7d\x7d" "") with
        | none => .error (.failed "failed to unmarshal chaosengine")
        | some engine =>
            if toLower engine.kind = "chaosengine" then
              if 0 < engine.experiments then
                if engine.generateName = "" then .error (.failed "empty chaos experiment name")
                else
                  match weights.lookup engine.generateName with
                  | some val =>
                      .ok (setLabels vars.1 i (AList.singleton "weight" (toString val)), vars.2)
                  | none =>
                      match label vars.1 i "weight" with
                      | some val =>
                          match atoi val with
                          | none => .error (.failed "failed to convert")
                          | some intVal => .ok (vars.1, vars.2 ++ [⟨engine.generateName, intVal⟩])
                      | none =>
                          .ok (setLabels vars.1 i (AList.singleton "weight" "10"),
                            vars.2 ++ [⟨engine.generateName, 10⟩])
              else .error (.failed ("no experiments specified in chaosengine - " ++ engine.name))
            else .ok vars

theorem workflowTemplateBody_eq :
    workflowTemplateBody codec weights =
      templateBody WorkflowManifest.setTemplateLabels WorkflowManifest.templateLabel codec weights := rfl

theorem cronTemplateBody_eq :
    cronTemplateBody codec weights =
      templateBody CronWorkflowManifest.setTemplateLabels CronWorkflowManifest.templateLabel codec weights :=
  rfl

theorem addLabels_weight (weight : String) :
    addLabels none [("weight", weight)] = AList.singleton "weight" weight := rfl

theorem templateBody_append {setLabels : Manifest → Nat → Labels → Manifest}
    {label : Manifest → Nat → String → Option String} {write : List Template → Manifest → Manifest}
    (hset : ∀ front template back manifest labels,
      setLabels (write (front ++ template :: back) manifest) front.length labels =
        write (front ++ { template with labels := some labels } :: back) manifest)
    (hlabel : ∀ front template back manifest key,
      label (write (front ++ template :: back) manifest) front.length key =
        template.labels.bind fun labels => labels.lookup key)
    (front : List Template) (template : Template) (back : List Template) (manifest : Manifest)
    (newWeights : List WeightagesInput) :
    templateBody setLabels label codec weights front.length template
        (write (front ++ template :: back) manifest, newWeights) =
      (processTemplate codec weights template).map fun r =>
        (write (front ++ r.1 :: back) manifest, newWeights ++ r.2) := by
  unfold templateBody processTemplate templateEngine
  cases hartifacts : template.artifacts with
  | nil => simp [Except.map, bind, Except.bind, pure, Except.pure]
  | cons artifact artifacts =>
  cases artifact with
  | none => simp [Except.map, bind, Except.bind, pure, Except.pure]
  | some data =>
  by_cases hdata : data = ""
  · simp [hdata, Except.map, bind, Except.bind, pure, Except.pure]
  simp only [if_neg hdata]
  cases codec.yamlToEngine (replaceAll (replaceAll data "\x7b\x7b" "") "\x7d\x7d" "") with
  | none => rfl
  | some engine =>
  by_cases hkind : toLower engine.kind = "chaosengine"
  · simp only [if_pos hkind, hset, hlabel]
    by_cases hexperiments : engine.experiments = 0
    · simp [hexperiments, experimentName, Except.map, bind, Except.bind]
    have hpos : 0 < engine.experiments := Nat.pos_of_ne_zero hexperiments
    by_cases hname : engine.generateName = ""
    · simp [hexperiments, hpos, hname, experimentName, Except.map, bind, Except.bind]
    have hexprname : experimentName engine.toEngineMeta = .ok engine.generateName := by
      rw [experimentName, if_neg hexperiments, if_neg hname]
    simp only [if_pos hpos, if_neg hname, bind, Except.bind, hexprname]
    unfold weigh
    cases weights.lookup engine.generateName with
    | some val => simp [hartifacts, Except.map, pure, Except.pure, addLabels_weight]
    | none =>
    cases template.labels.bind fun labels => labels.lookup "weight" with
    | none => simp [hartifacts, Except.map, pure, Except.pure, addLabels_weight]
    | some val =>
    cases hval : atoi val with
    | none => simp [hval, Except.map]
    | some intVal => simp [hval, Except.map, pure, Except.pure]
  · simp [hkind, Except.map, bind, Except.bind, pure, Except.pure]

theorem modify_labels (front : List Template) (template : Template) (back : List Template)
    (labels : Labels) :
    ((front ++ template :: back).modify front.length fun template =>
        { template with labels := some labels }) =
      front ++ { template with labels := some labels } :: back :=
  modify_append front back template _

theorem workflowLoop_eq (manifest : WorkflowManifest) :
    rangeFrom (workflowTemplateBody codec weights) 0 manifest.templates (manifest, []) =
      (processTemplates codec weights manifest.templates).map fun r =>
        ({ manifest with templates := r.1 }, r.2) := by
  rw [processTemplates_eq_mapCollect, workflowTemplateBody_eq]
  refine @rangeFrom_eq_mapCollect _ _ _ _ _
    (fun templates (manifest : WorkflowManifest) => { manifest with templates := templates }) _ ?_ []
    manifest.templates manifest []
  refine @templateBody_append codec weights _ _ _
    (fun templates (manifest : WorkflowManifest) => { manifest with templates := templates })
    (fun front template back manifest labels => ?_) fun front template back manifest key => ?_
  · rw [WorkflowManifest.setTemplateLabels, modify_labels]
  · simp [WorkflowManifest.templateLabel]

theorem cronLoop_eq (manifest : CronWorkflowManifest) :
    rangeFrom (cronTemplateBody codec weights) 0 manifest.templates (manifest, []) =
      (processTemplates codec weights manifest.templates).map fun r =>
        ({ manifest with templates := r.1 }, r.2) := by
  rw [processTemplates_eq_mapCollect, cronTemplateBody_eq]
  refine @rangeFrom_eq_mapCollect _ _ _ _ _
    (fun templates (manifest : CronWorkflowManifest) => { manifest with templates := templates }) _ ?_ []
    manifest.templates manifest []
  refine @templateBody_append codec weights _ _ _
    (fun templates (manifest : CronWorkflowManifest) => { manifest with templates := templates })
    (fun front template back manifest labels => ?_) fun front template back manifest key => ?_
  · rw [CronWorkflowManifest.setTemplateLabels, modify_labels]
  · simp [CronWorkflowManifest.templateLabel]

theorem ByIndex.processWorkflowManifest_eq (codec : Codec) (weights : Weights)
    (request : ChaosWorkFlowRequest) :
    ByIndex.processWorkflowManifest codec weights request =
      LitmusPortal.processWorkflowManifest codec weights request := by
  unfold ByIndex.processWorkflowManifest LitmusPortal.processWorkflowManifest
  cases codec.unmarshalWorkflow request.workflowManifest with
  | none => rfl
  | some manifest =>
      have hloop := @workflowLoop_eq codec weights { manifest with
        labels := some (addLabels manifest.labels (workflowLabels (idOf request) request.clusterID)) }
      simp only at hloop ⊢
      rw [hloop]
      cases processTemplates codec weights manifest.templates with
      | error err => rfl
      | ok r => rfl

theorem ByIndex.processCronWorkflowManifest_eq (codec : Codec) (weights : Weights)
    (request : ChaosWorkFlowRequest) :
    ByIndex.processCronWorkflowManifest codec weights request =
      LitmusPortal.processCronWorkflowManifest codec weights request := by
  unfold ByIndex.processCronWorkflowManifest LitmusPortal.processCronWorkflowManifest
  cases codec.unmarshalCronWorkflow request.workflowManifest with
  | none => rfl
  | some manifest =>
      have hloop : ∀ labels metadata,
          rangeFrom (cronTemplateBody codec weights) 0 manifest.templates
              ({ manifest with labels := labels, workflowMetadata := metadata }, []) =
            (processTemplates codec weights manifest.templates).map fun r =>
              ({ manifest with labels := labels, workflowMetadata := metadata, templates := r.1 }, r.2) :=
        fun labels metadata =>
          cronLoop_eq { manifest with labels := labels, workflowMetadata := metadata }
      simp only [hloop]
      cases manifest.workflowMetadata with
      | none =>
          cases processTemplates codec weights manifest.templates with
          | error err => rfl
          | ok r => rfl
      | some metadata =>
          cases processTemplates codec weights manifest.templates with
          | error err => rfl
          | ok r => rfl

end Bodies

/-! ## Two copies of one loop -/

structure Codec.WritesManifests (codec : Codec) : Prop where
  workflow : ∀ manifest, (codec.marshalWorkflow manifest).isSome = true
  cronWorkflow : ∀ manifest, (codec.marshalCronWorkflow manifest).isSome = true

/-- A workflow and a cron workflow come to the same end: one error, or the same templates and the same new
weightages. -/
inductive SameEnd (codec : Codec) (request cronRequest : ChaosWorkFlowRequest)
    (manifest : WorkflowManifest) (cronManifest : CronWorkflowManifest) :
    Except GoError ChaosWorkFlowRequest → Except GoError ChaosWorkFlowRequest → Prop where
  | error (err : GoError) : SameEnd codec request cronRequest manifest cronManifest (.error err) (.error err)
  | ok (templates : List Template) (newWeights : List WeightagesInput) (labels cronLabels : Option Labels)
      (metadata : Option ObjectMeta) (out cronOut : String)
      (written : codec.marshalWorkflow
        { manifest with labels := labels, templates := templates } = some out)
      (cronWritten : codec.marshalCronWorkflow
        { cronManifest with
          labels := cronLabels, workflowMetadata := metadata, templates := templates } = some cronOut) :
      SameEnd codec request cronRequest manifest cronManifest
        (.ok { request with
          weightages := request.weightages ++ newWeights, workflowManifest := out })
        (.ok { cronRequest with
          weightages := cronRequest.weightages ++ newWeights, workflowManifest := cronOut })

theorem processors_sameEnd (codec : Codec) (weights : Weights)
    (request cronRequest : ChaosWorkFlowRequest) (manifest : WorkflowManifest)
    (cronManifest : CronWorkflowManifest) (hwrites : codec.WritesManifests)
    (hread : codec.unmarshalWorkflow request.workflowManifest = some manifest)
    (hcronRead : codec.unmarshalCronWorkflow cronRequest.workflowManifest = some cronManifest)
    (htemplates : cronManifest.templates = manifest.templates) :
    SameEnd codec request cronRequest manifest cronManifest
      (ByIndex.processWorkflowManifest codec weights request)
      (ByIndex.processCronWorkflowManifest codec weights cronRequest) := by
  rw [ByIndex.processWorkflowManifest_eq, ByIndex.processCronWorkflowManifest_eq]
  unfold processWorkflowManifest processCronWorkflowManifest
  simp only [hread, hcronRead, htemplates]
  cases processTemplates codec weights manifest.templates with
  | error err => exact .error err
  | ok r =>
      obtain ⟨templates, newWeights⟩ := r
      obtain ⟨out, hout⟩ := Option.isSome_iff_exists.mp (hwrites.workflow { manifest with
        labels := some (addLabels manifest.labels (workflowLabels (idOf request) request.clusterID))
        templates := templates })
      have hcronWritten := fun labels metadata =>
        Option.isSome_iff_exists.mp (hwrites.cronWorkflow { cronManifest with
          labels := labels, workflowMetadata := metadata, templates := templates })
      obtain ⟨cronOut, hcronOut⟩ := hcronWritten
        (some (addLabels cronManifest.labels
          (workflowLabels (idOf cronRequest) cronRequest.clusterID)))
        (some { cronManifest.workflowMetadata.getD ⟨none, ""⟩ with
          labels := some (addLabels (cronManifest.workflowMetadata.getD ⟨none, ""⟩).labels
            (workflowLabels (idOf cronRequest) cronRequest.clusterID)) })
      change SameEnd codec request cronRequest manifest cronManifest
        (withManifest request newWeights (codec.marshalWorkflow _))
        (withManifest cronRequest newWeights (codec.marshalCronWorkflow _))
      rw [hout, hcronOut]
      exact .ok templates newWeights _ _ _ out cronOut hout hcronOut

/-! ### One template with an engine -/

def podEngine : ChaosEngine :=
  { name := "pod", generateName := "pod-delete", labels := none, experiments := 1
    kind := "ChaosEngine", rest := "" }

def podTemplate (labels : Option Labels) : Template := ⟨[some "engine"], labels, "pod"⟩

def podWorkflow (labels templateLabels : Option Labels) : WorkflowManifest :=
  ⟨labels, [podTemplate templateLabels], "spec"⟩

def podCronWorkflow (labels : Option Labels) (metadata : Option ObjectMeta)
    (templateLabels : Option Labels) : CronWorkflowManifest :=
  ⟨labels, metadata, [podTemplate templateLabels], "spec"⟩

def podLabels : Labels := addLabels none (workflowLabels "workflow-1" "cluster-1")

def weightLabel (weight : String) : Labels := AList.singleton "weight" weight

/-- What the labels of the template were, and what was written. -/
def podCodec (templateLabels : Option Labels) : Codec where
  unmarshalObject _ := none
  unmarshalWorkflow text :=
    if text = "in" then some (podWorkflow none templateLabels)
    else some (podWorkflow (some podLabels) (some (weightLabel "10")))
  marshalWorkflow manifest :=
    if manifest = podWorkflow (some podLabels) (some (weightLabel "10")) then some "out" else none
  unmarshalCronWorkflow text :=
    if text = "in" then some (podCronWorkflow none none templateLabels)
    else some (podCronWorkflow (some podLabels) (some ⟨some podLabels, ""⟩) (some (weightLabel "10")))
  marshalCronWorkflow manifest :=
    if manifest = podCronWorkflow (some podLabels) (some ⟨some podLabels, ""⟩) (some (weightLabel "10"))
    then some "out" else none
  unmarshalEngine _ := none
  marshalEngine _ := none
  unmarshalSchedule _ := none
  marshalSchedule _ := none
  yamlToEngine text := if text = "engine" then some podEngine else none
  yamlToJSON _ := none
  jsonToYAML _ := none
  jsonGet _ _ := ""

def podRequest (workflowManifest : String) (weightages : List WeightagesInput) : ChaosWorkFlowRequest where
  workflowID := some "workflow-1"
  workflowManifest := workflowManifest
  cronSyntax := ""
  workflowName := "pod-kill"
  workflowDescription := ""
  weightages := weightages
  isCustomWorkflow := true
  projectID := "project-1"
  clusterID := "cluster-1"

/-- The library with a short answer to every manifest. -/
def writingCodec : Codec :=
  { podCodec none with
    marshalWorkflow := fun _ => some "out"
    marshalCronWorkflow := fun _ => some "out" }

theorem processors_sameEnd_pod :
    SameEnd writingCodec (podRequest "in" []) (podRequest "in" []) (podWorkflow none none)
      (podCronWorkflow none none none)
      (ByIndex.processWorkflowManifest writingCodec ∅ (podRequest "in" []))
      (ByIndex.processCronWorkflowManifest writingCodec ∅ (podRequest "in" [])) :=
  processors_sameEnd writingCodec ∅ (podRequest "in" []) (podRequest "in" []) (podWorkflow none none)
    (podCronWorkflow none none none) ⟨fun _ => rfl, fun _ => rfl⟩ rfl rfl rfl

end LitmusPortal
