import LitmusPortal.Cluster.Verify
import Mathlib.Data.List.AList

/-!
# Processing a workflow manifest

`ProcessWorkflow` and the four manifest processors of the workflow operations. JSON and YAML are
read and written by libraries outside the repository; `Codec` holds their functions, and the
manifest types have the fields the processors touch, with everything else in `rest`.
-/

namespace LitmusPortal

open GoStrings

abbrev Labels := AList fun _ : String => String

/-- What the engine and the schedule have in common. -/
structure EngineMeta where
  name : String
  generateName : String
  labels : Option Labels
  experiments : Nat
  deriving DecidableEq

structure ChaosEngine extends EngineMeta where
  kind : String
  rest : String
  deriving DecidableEq

structure ChaosSchedule extends EngineMeta where
  rest : String
  deriving DecidableEq

/-- An artifact, as its raw data, which may be absent. -/
abbrev Artifact := Option String

structure Template where
  artifacts : List Artifact
  labels : Option Labels
  rest : String
  deriving DecidableEq

structure WorkflowManifest where
  labels : Option Labels
  templates : List Template
  rest : String
  deriving DecidableEq

/-- `Spec.WorkflowMetadata`. -/
structure ObjectMeta where
  labels : Option Labels
  rest : String
  deriving DecidableEq

structure CronWorkflowManifest where
  labels : Option Labels
  workflowMetadata : Option ObjectMeta
  templates : List Template
  rest : String
  deriving DecidableEq

structure ObjectHead where
  name : String
  kind : String
  deriving DecidableEq, Repr

/-- The encoders and decoders; `none` is an error. -/
structure Codec where
  unmarshalObject : String → Option ObjectHead
  unmarshalWorkflow : String → Option WorkflowManifest
  marshalWorkflow : WorkflowManifest → Option String
  unmarshalCronWorkflow : String → Option CronWorkflowManifest
  marshalCronWorkflow : CronWorkflowManifest → Option String
  unmarshalEngine : String → Option ChaosEngine
  marshalEngine : ChaosEngine → Option String
  unmarshalSchedule : String → Option ChaosSchedule
  marshalSchedule : ChaosSchedule → Option String
  yamlToEngine : String → Option ChaosEngine
  yamlToJSON : String → Option String
  jsonToYAML : String → Option String
  jsonGet : String → String → String

structure ChaosWorkFlowRequest where
  workflowID : Option String
  workflowManifest : String
  cronSyntax : String
  workflowName : String
  workflowDescription : String
  weightages : List WeightagesInput
  isCustomWorkflow : Bool
  projectID : String
  clusterID : String
  deriving DecidableEq, Repr

abbrev Weights := AList fun _ : String => Int

/-- The map of the requested weights. -/
def weightsOf (weightages : List WeightagesInput) : Weights :=
  weightages.foldl (fun weights weight => weights.insert weight.experimentName weight.weightage) ∅

theorem lookup_weightsOf {weightages : List WeightagesInput} {name : String} {val : Int}
    (h : (weightsOf weightages).lookup name = some val) :
    ∃ weight ∈ weightages, weight.weightage = val := by
  have hfold : ∀ (weightages : List WeightagesInput) (weights : Weights),
      (weightages.foldl (fun weights weight =>
        weights.insert weight.experimentName weight.weightage) weights).lookup name = some val →
      (∃ weight ∈ weightages, weight.weightage = val) ∨ weights.lookup name = some val := by
    intro weightages
    induction weightages with
    | nil => exact fun weights hlookup => .inr hlookup
    | cons weight weightages ih =>
        intro weights hlookup
        rcases ih _ hlookup with ⟨other, hother, hval⟩ | hinsert
        · exact .inl ⟨other, List.mem_cons_of_mem _ hother, hval⟩
        · by_cases hname : name = weight.experimentName
          · subst hname
            rw [AList.lookup_insert] at hinsert
            exact .inl ⟨weight, List.mem_cons_self, Option.some.inj hinsert⟩
          · rw [AList.lookup_insert_ne hname] at hinsert
            exact .inr hinsert
  rcases hfold weightages ∅ h with hweight | hempty
  · exact hweight
  · simp at hempty

def addLabels (labels : Option Labels) (added : List (String × String)) : Labels :=
  added.foldl (fun labels label => labels.insert label.1 label.2) (labels.getD ∅)

def workflowLabels (workflowID clusterID : String) : List (String × String) :=
  [("workflow_id", workflowID), ("cluster_id", clusterID),
    ("workflows.argoproj.io/controller-instanceid", clusterID)]

def engineLabels (workflowID clusterID : String) : List (String × String) :=
  [("workflow_id", workflowID), ("cluster_id", clusterID), ("type", "standalone_workflow")]

/-- The name the weight of an engine goes by. -/
def experimentName (engine : EngineMeta) : Except GoError String :=
  if engine.experiments = 0 then
    .error (.failed ("no experiments specified in chaosengine - " ++ engine.name))
  else if engine.generateName = "" then .error (.failed "empty chaos experiment name")
  else .ok engine.generateName

/-- The weight of one experiment: the requested one, else the one of the label, else ten. The
result is the new entry of the weightages, if there is one, and the label to write, if there is
one. -/
def weigh (weights : Weights) (exprname : String) (label : Option String) :
    Except GoError (List WeightagesInput × Option String) :=
  match weights.lookup exprname with
  | some val => .ok ([], some (toString val))
  | none =>
      match label with
      | some val =>
          match atoi val with
          | some intVal => .ok ([⟨exprname, intVal⟩], none)
          | none => .error (.failed "failed to convert")
      | none => .ok ([⟨exprname, 10⟩], some "10")

/-- The engine in the first artifact of a template, if that artifact holds one. -/
def templateEngine (codec : Codec) (template : Template) : Except GoError (Option ChaosEngine) :=
  match template.artifacts with
  | some data :: _ =>
      if data = "" then .ok none
      else
        -- the placeholders of workflow parameters would not be YAML
        match codec.yamlToEngine (replaceAll (replaceAll data "\x7b\x7b" "") "\x7d\x7d" "") with
        | none => .error (.failed "failed to unmarshal chaosengine")
        | some engine => .ok (if toLower engine.kind = "chaosengine" then some engine else none)
  | _ => .ok none

/-- The body of the loop over the templates. -/
def processTemplate (codec : Codec) (weights : Weights) (template : Template) :
    Except GoError (Template × List WeightagesInput) := do
  match ← templateEngine codec template with
  | none => return (template, [])
  | some engine =>
      let exprname ← experimentName engine.toEngineMeta
      let (newWeights, weight) ←
        weigh weights exprname (template.labels.bind (·.lookup "weight"))
      match weight with
      | some weight =>
          return ({ template with labels := some (addLabels none [("weight", weight)]) },
            newWeights)
      | none => return (template, newWeights)

def processTemplates (codec : Codec) (weights : Weights) :
    List Template → Except GoError (List Template × List WeightagesInput)
  | [] => .ok ([], [])
  | template :: rest => do
      let (template, newWeights) ← processTemplate codec weights template
      let (rest, restWeights) ← processTemplates codec weights rest
      return (template :: rest, newWeights ++ restWeights)

/-- The end the four processors share: the new weightages are added and the manifest is written. -/
def withManifest (request : ChaosWorkFlowRequest) (newWeights : List WeightagesInput)
    (out : Option String) : Except GoError ChaosWorkFlowRequest :=
  match out with
  | none => .error (.failed "json: error")
  | some out => .ok { request with
      weightages := request.weightages ++ newWeights
      workflowManifest := out }

def unmarshalError : GoError := .failed "failed to unmarshal workflow manifest"

/-- The dereference `*workflow.WorkflowID`; the id has been filled in before. -/
def idOf (request : ChaosWorkFlowRequest) : String := request.workflowID.getD ""

def processWorkflowManifest (codec : Codec) (weights : Weights) (request : ChaosWorkFlowRequest) :
    Except GoError ChaosWorkFlowRequest := do
  match codec.unmarshalWorkflow request.workflowManifest with
  | none => .error unmarshalError
  | some manifest =>
      let labels := addLabels manifest.labels (workflowLabels (idOf request) request.clusterID)
      let (templates, newWeights) ← processTemplates codec weights manifest.templates
      withManifest request newWeights
        (codec.marshalWorkflow { manifest with labels := some labels, templates := templates })

def processCronWorkflowManifest (codec : Codec) (weights : Weights)
    (request : ChaosWorkFlowRequest) : Except GoError ChaosWorkFlowRequest := do
  match codec.unmarshalCronWorkflow request.workflowManifest with
  | none => .error unmarshalError
  | some manifest =>
      let added := workflowLabels (idOf request) request.clusterID
      let metadata := manifest.workflowMetadata.getD ⟨none, ""⟩
      let (templates, newWeights) ← processTemplates codec weights manifest.templates
      withManifest request newWeights (codec.marshalCronWorkflow { manifest with
        labels := some (addLabels manifest.labels added)
        workflowMetadata := some { metadata with labels := some (addLabels metadata.labels added) }
        templates := templates })

/-- Labels and weight of an engine or a schedule. -/
def processEngineMeta (weights : Weights) (request : ChaosWorkFlowRequest) (engine : EngineMeta) :
    Except GoError (EngineMeta × List WeightagesInput) := do
  let labels := addLabels engine.labels (engineLabels (idOf request) request.clusterID)
  let exprname ← experimentName engine
  let (newWeights, weight) ← weigh weights exprname (labels.lookup "weight")
  match weight with
  | some weight => return ({ engine with labels := some (labels.insert "weight" weight) }, newWeights)
  | none => return ({ engine with labels := some labels }, newWeights)

def processChaosengineManifest (codec : Codec) (weights : Weights)
    (request : ChaosWorkFlowRequest) : Except GoError ChaosWorkFlowRequest := do
  match codec.unmarshalEngine request.workflowManifest with
  | none => .error unmarshalError
  | some manifest =>
      let (engine, newWeights) ← processEngineMeta weights request manifest.toEngineMeta
      withManifest request newWeights
        (codec.marshalEngine { manifest with toEngineMeta := engine })

def processChaosScheduleManifest (codec : Codec) (weights : Weights)
    (request : ChaosWorkFlowRequest) : Except GoError ChaosWorkFlowRequest := do
  match codec.unmarshalSchedule request.workflowManifest with
  | none => .error unmarshalError
  | some manifest =>
      let (schedule, newWeights) ← processEngineMeta weights request manifest.toEngineMeta
      withManifest request newWeights
        (codec.marshalSchedule { manifest with toEngineMeta := schedule })

def processManifest (codec : Codec) (weights : Weights) (request : ChaosWorkFlowRequest)
    (kind : String) : Except GoError (ChaosWorkFlowRequest × ChaosWorkflowType) := do
  if kind = "workflow" then
    return (← processWorkflowManifest codec weights request, .workflow)
  else if kind = "cronworkflow" then
    return (← processCronWorkflowManifest codec weights request, .workflow)
  else if kind = "chaosengine" then
    return (← processChaosengineManifest codec weights request, .chaosEngine)
  else if kind = "chaosschedule" then
    return (← processChaosScheduleManifest codec weights request, .chaosEngine)
  else
    .error (.failed "not a valid object, only workflows/cronworkflows/chaosengines supported")

/-- A request without an id gets the one drawn for it. -/
def withID (uuid : String) (workflow : ChaosWorkFlowRequest) : ChaosWorkFlowRequest :=
  if workflow.workflowID = none ∨ workflow.workflowID = some "" then
    { workflow with workflowID := some uuid }
  else workflow

/-- `ProcessWorkflow`. `uuid` is the id a new workflow gets, `fails` an error of the database. -/
def processWorkflow (codec : Codec) (uuid : String) (fails : Bool) (clusters : List Cluster)
    (workflow : ChaosWorkFlowRequest) :
    Except GoError (ChaosWorkFlowRequest × ChaosWorkflowType) := do
  let cluster ← getCluster fails clusters workflow.clusterID
  if cluster.projectID ≠ workflow.projectID then
    .error (.failed "cluster doesn't belong to this project")
  else
    match codec.unmarshalObject workflow.workflowManifest with
    | none => .error (.failed "failed to unmarshal workflow manifest1")
    | some head =>
        if workflow.workflowName ≠ head.name then
          .error (.failed (head.kind ++ " name doesn't match"))
        else
          processManifest codec (weightsOf workflow.weightages) (withID uuid workflow)
            (toLower head.kind)

/-! ### What processing keeps -/

/-- Processing a manifest changes the manifest and the weightages of a request. -/
def SameRequest (request request' : ChaosWorkFlowRequest) : Prop :=
  request' = { request with
    workflowManifest := request'.workflowManifest
    weightages := request'.weightages }

theorem withManifest_ok {request request' : ChaosWorkFlowRequest}
    {newWeights : List WeightagesInput} {out : Option String}
    (h : withManifest request newWeights out = .ok request') : SameRequest request request' := by
  cases out with
  | none => cases h
  | some out =>
      cases h
      rfl

theorem processManifest_ok {codec : Codec} {weights : Weights}
    {request request' : ChaosWorkFlowRequest} {kind : String} {wfType : ChaosWorkflowType}
    (h : processManifest codec weights request kind = .ok (request', wfType)) :
    SameRequest request request' := by
  unfold processManifest processWorkflowManifest processCronWorkflowManifest
    processChaosengineManifest processChaosScheduleManifest at h
  split_ifs at h
  -- each processor decodes the manifest, works on it, and ends in `withManifest`
  all_goals
    obtain ⟨processed, hprocessed, h⟩ := exists_of_bind_eq_ok h
    cases h
    split at hprocessed
    · cases hprocessed
    · obtain ⟨_, -, hend⟩ := exists_of_bind_eq_ok hprocessed
      exact withManifest_ok hend

/-- A processed request is for a cluster of its own project, and apart from the id, the manifest
and the weightages it is the request that came in. -/
theorem processWorkflow_ok {codec : Codec} {uuid : String} {fails : Bool} {clusters : List Cluster}
    {workflow request' : ChaosWorkFlowRequest} {wfType : ChaosWorkflowType}
    (h : processWorkflow codec uuid fails clusters workflow = .ok (request', wfType)) :
    SameRequest (withID uuid workflow) request' ∧
      ∃ cluster, getCluster fails clusters workflow.clusterID = .ok cluster ∧
        cluster.projectID = workflow.projectID := by
  unfold processWorkflow at h
  obtain ⟨cluster, hcluster, h⟩ := exists_of_bind_eq_ok h
  split at h
  · cases h
  · rename_i hproject
    split at h
    · cases h
    · split at h
      · cases h
      · exact ⟨processManifest_ok h, cluster, hcluster, not_not.mp hproject⟩

end LitmusPortal
