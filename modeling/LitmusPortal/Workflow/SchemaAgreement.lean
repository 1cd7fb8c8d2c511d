import LitmusPortal.Workflow.ExecutionData

/-!
# The execution data against the event

The subscriber and the server keep their structs apart, with tags of their own. A field whose tags are
the same in both carries its value over; one that neither side writes is empty at the server.
-/

namespace LitmusPortal.ChaosWorkflow

open GoText GoJson

variable {R : Type} {codec : ChaosResultCodec R}

/-! ## Fields with one tag -/

/-- The fields of the chaos data whose tags agree; that of the engine's context differs. -/
structure ChaosDataAgrees (codec : ChaosResultCodec R) (sent : Agent.ChaosData R) (read : ChaosData R) :
    Prop where
  engineUID : read.engineUID = sanitize sent.engineUID
  engineName : read.engineName = sanitize sent.engineName
  nameSpace : read.nameSpace = sanitize sent.nameSpace
  experimentName : read.experimentName = sanitize sent.experimentName
  experimentStatus : read.experimentStatus = sanitize sent.experimentStatus
  lastUpdatedAt : read.lastUpdatedAt = sanitize sent.lastUpdatedAt
  experimentVerdict : read.experimentVerdict = sanitize sent.experimentVerdict
  experimentPod : read.experimentPod = sanitize sent.experimentPod
  runnerPod : read.runnerPod = sanitize sent.runnerPod
  probeSuccessPercentage : read.probeSuccessPercentage = sanitize sent.probeSuccessPercentage
  failStep : read.failStep = sanitize sent.failStep
  chaosResult : Option.Rel codec.kept sent.chaosResult read.chaosResult

structure NodeAgrees (codec : ChaosResultCodec R) (sent : Agent.Node R) (read : Node R) : Prop where
  name : read.name = sanitize sent.name
  phase : read.phase = sanitize sent.phase
  message : read.message = sanitize sent.message
  startedAt : read.startedAt = sanitize sent.startedAt
  finishedAt : read.finishedAt = sanitize sent.finishedAt
  children : read.children = sent.children.map fun children => children.map sanitize
  type : read.type = sanitize sent.type
  chaosExp : Option.Rel (ChaosDataAgrees codec) sent.chaosExp read.chaosExp

/-- A node is found under its identifier; where two of them differ in invalid bytes only, the last one
in the order of the encoding is left. -/
def NodesAgree (codec : ChaosResultCodec R) (sent : GoMap (Agent.Node R)) (read : GoMap (Node R)) : Prop :=
  ∀ id, Option.Rel (NodeAgrees codec) (latest sent.sortedEntries id) (read.lookup id)

/-- The fields of an event whose tags agree, and those whose tag is `-`. -/
structure Agrees (codec : ChaosResultCodec R) (sent : Agent.WorkflowEvent R) (read : ExecutionData R) :
    Prop where
  workflowID : read.workflowID = []
  uid : read.uid = []
  nameSpace : read.nameSpace = sanitize sent.nameSpace
  name : read.name = sanitize sent.name
  creationTimestamp : read.creationTimestamp = sanitize sent.creationTimestamp
  phase : read.phase = sanitize sent.phase
  message : read.message = sanitize sent.message
  startedAt : read.startedAt = sanitize sent.startedAt
  finishedAt : read.finishedAt = sanitize sent.finishedAt
  nodes : Option.Rel (NodesAgree codec) sent.nodes read.nodes

/-! ## Decoding what was encoded -/

theorem chaosData_unknown : ∀ tag ∈ (chaosDataFields codec).map (·.tag),
    equalFold (ofString tag) (ofString "engineContext") = false := by
  simp only [chaosDataFields, stringField, List.map_cons, List.map_nil]
  decide +kernel

theorem executionData_unknown (codec : ChaosResultCodec R) : ∀ key ∈ ["workflowType", "eventType", "executedBy"],
    ∀ tag ∈ (executionDataFields codec).map (·.tag),
      equalFold (ofString tag) (ofString key) = false := by
  simp only [executionDataFields, stringField, List.map_cons, List.map_nil]
  decide +kernel

theorem decode_chaosResult (codec : ChaosResultCodec R) (result : Option R) :
    ∃ read, decodePointer codec.decode codec.zero (encodePointer codec.encode result).sanitize none =
      .ok read ∧ Option.Rel codec.kept result read := by
  cases result with
  | none => exact ⟨none, rfl, .none⟩
  | some result =>
      obtain ⟨read, hdecode, hkept⟩ := codec.decode_encode result
      obtain ⟨members, hobj⟩ := codec.encode_obj result
      refine ⟨some read, ?_, .some hkept⟩
      rw [hobj, sanitize_obj] at hdecode
      simp [encodePointer, hobj, sanitize_obj, decodePointer, hdecode, bind, Except.bind, pure,
        Except.pure]

theorem decode_chaosData (codec : ChaosResultCodec R) (chaosData : Agent.ChaosData R) :
    ∃ read, ChaosData.decode codec (chaosData.encode codec).sanitize .zero = .ok read ∧
      ChaosDataAgrees codec chaosData read := by
  obtain ⟨result, hresult, hkept⟩ := decode_chaosResult codec chaosData.chaosResult
  refine ⟨{
    engineUID := sanitize chaosData.engineUID
    engineContext := []
    engineName := sanitize chaosData.engineName
    nameSpace := sanitize chaosData.nameSpace
    experimentName := sanitize chaosData.experimentName
    experimentStatus := sanitize chaosData.experimentStatus
    lastUpdatedAt := sanitize chaosData.lastUpdatedAt
    experimentVerdict := sanitize chaosData.experimentVerdict
    experimentPod := sanitize chaosData.experimentPod
    runnerPod := sanitize chaosData.runnerPod
    probeSuccessPercentage := sanitize chaosData.probeSuccessPercentage
    failStep := sanitize chaosData.failStep
    chaosResult := result }, ?_, by constructor <;> first | rfl | exact hkept⟩
  simp only [Agent.ChaosData.encode, sanitize_obj, List.map_cons, List.map_nil, sanitize_field,
    sanitize_str, ChaosData.decode, decodeStruct]
  apply Stores.string rfl
  apply Stores.unknown chaosData_unknown
  iterate 10 apply Stores.string rfl
  apply Stores.tag rfl
  · exact congrArg (· >>= _) hresult
  · apply Stores.nil

theorem encode_chaosData_obj (codec : ChaosResultCodec R) (chaosData : Agent.ChaosData R) :
    ∃ members, (chaosData.encode codec).sanitize = .obj members := ⟨_, sanitize_obj _⟩

theorem stores_node (node : Agent.Node R) {rest : List (Text × Json)} {read : Node R}
    (hrest : Stores (nodeFields codec) rest
      { name := sanitize node.name
        phase := sanitize node.phase
        message := sanitize node.message
        startedAt := sanitize node.startedAt
        finishedAt := sanitize node.finishedAt
        children := node.children.map fun children => children.map sanitize
        type := sanitize node.type
        chaosExp := none } read) :
    Stores (nodeFields codec)
      (field "name" (.str (sanitize node.name)) :: field "phase" (.str (sanitize node.phase)) ::
        field "message" (.str (sanitize node.message)) ::
        field "startedAt" (.str (sanitize node.startedAt)) ::
        field "finishedAt" (.str (sanitize node.finishedAt)) ::
        field "children" (encodeSlice Json.str node.children).sanitize ::
        field "type" (.str (sanitize node.type)) :: rest) .zero read := by
  iterate 5 apply Stores.string rfl
  apply Stores.tag rfl
  · exact congrArg (· >>= _) (decodeSlice_encodeSlice node.children)
  · apply Stores.string rfl
    exact hrest

theorem decode_node (node : Agent.Node R) :
    ∃ read, Node.decode codec (node.encode codec).sanitize = .ok read ∧ NodeAgrees codec node read := by
  simp only [Agent.Node.encode, sanitize_obj, List.map_append, List.map_cons, List.map_nil,
    sanitize_field, sanitize_str, Node.decode, decodeStruct]
  cases hchaos : node.chaosExp with
  | none =>
      refine ⟨_, stores_node node (Stores.nil _ _), ?_⟩
      constructor <;> first | rfl | exact hchaos ▸ .none
  | some chaosData =>
      obtain ⟨read, hdecode, hagrees⟩ := decode_chaosData codec chaosData
      obtain ⟨members, hobj⟩ := encode_chaosData_obj codec chaosData
      have hpointer : decodePointer (ChaosData.decode codec) .zero (chaosData.encode codec).sanitize none =
          .ok (some read) := by
        rw [hobj] at hdecode ⊢
        simp [decodePointer, hdecode, bind, Except.bind, pure, Except.pure]
      simp only [List.map_cons, List.map_nil, sanitize_field]
      refine ⟨_, stores_node node (Stores.tag rfl (congrArg (· >>= _) hpointer) (Stores.nil _ _)), ?_⟩
      constructor <;> first | rfl | exact hchaos ▸ .some hagrees

theorem decode_nodes (codec : ChaosResultCodec R) (nodes : Option (GoMap (Agent.Node R))) :
    ∃ read, decodeMap (Node.decode codec) (encodeMap (Agent.Node.encode codec) nodes).sanitize none =
      .ok read ∧ Option.Rel (NodesAgree codec) nodes read := by
  cases nodes with
  | none => exact ⟨none, rfl, .none⟩
  | some nodes =>
      have hnode : ∀ id node, nodes.lookup id = some node →
          ∃ read, Node.decode codec (node.encode codec).sanitize = .ok read ∧ NodeAgrees codec node read :=
        fun _ node _ => decode_node node
      obtain ⟨read, hdecode, hlookup⟩ := decodeMap_encodeMap hnode
      exact ⟨some read, hdecode, .some hlookup⟩

/-- The server reads every event the subscriber may send, and each field whose tags agree has the
value it has in the event, with its invalid bytes replaced. -/
theorem parseExecutionData_marshal (codec : ChaosResultCodec R) (event : Agent.WorkflowEvent R) :
    ∃ read, parseExecutionData codec (marshal (event.encode codec)) = .ok read ∧
      Agrees codec event read := by
  obtain ⟨nodes, hnodes, hagree⟩ := decode_nodes codec event.nodes
  have hunknown := executionData_unknown codec
  refine ⟨{
    workflowType := []
    workflowID := []
    eventType := []
    uid := []
    nameSpace := sanitize event.nameSpace
    name := sanitize event.name
    creationTimestamp := sanitize event.creationTimestamp
    phase := sanitize event.phase
    message := sanitize event.message
    startedAt := sanitize event.startedAt
    finishedAt := sanitize event.finishedAt
    nodes := nodes }, ?_, by constructor <;> first | rfl | exact hagree⟩
  simp only [parseExecutionData, unmarshal, parse_marshal, Agent.WorkflowEvent.encode, sanitize_obj,
    List.map_cons, List.map_nil, sanitize_field, sanitize_str, ExecutionData.decode, decodeStruct]
  apply Stores.unknown (hunknown "workflowType" (by simp))
  apply Stores.unknown (hunknown "eventType" (by simp))
  iterate 7 apply Stores.string rfl
  apply Stores.tag rfl
  · exact congrArg (· >>= _) hnodes
  · apply Stores.unknown (hunknown "executedBy" (by simp))
    apply Stores.nil

theorem NodesAgree.lookup {sent : GoMap (Agent.Node R)} {read : GoMap (Node R)}
    (h : NodesAgree codec sent read) (hvalid : ∀ id ∈ sent, sanitize id = id) (id : Text) :
    Option.Rel (NodeAgrees codec) (sent.lookup id) (read.lookup id) := by
  rw [← latest_sortedEntries hvalid id]
  exact h id

/-! ## Fields the JSON leaves out -/

/-- The fields of an event that both sides declare as strings. -/
structure SameFields (sent : Agent.WorkflowEvent R) (read : ExecutionData R) : Prop where
  workflowType : read.workflowType = sent.workflowType
  workflowID : read.workflowID = sent.workflowID
  eventType : read.eventType = sent.eventType
  uid : read.uid = sent.uid
  nameSpace : read.nameSpace = sent.nameSpace
  name : read.name = sent.name
  creationTimestamp : read.creationTimestamp = sent.creationTimestamp
  phase : read.phase = sent.phase
  message : read.message = sent.message
  startedAt : read.startedAt = sent.startedAt
  finishedAt : read.finishedAt = sent.finishedAt

def SchemasAgree : Prop :=
  ∀ (R : Type) (codec : ChaosResultCodec R) (event : Agent.WorkflowEvent R),
    ∃ read, parseExecutionData codec (marshal (event.encode codec)) = .ok read ∧ SameFields event read

def sampleEvent : Agent.WorkflowEvent Unit where
  workflowType := []
  workflowID := []
  eventType := []
  uid := ofString "run-1"
  nameSpace := ofString "litmus"
  name := ofString "workflow"
  creationTimestamp := []
  phase := ofString "Running"
  message := []
  startedAt := []
  finishedAt := []
  nodes := none
  executedBy := []

/-- The identifier of the run is not part of the JSON. -/
theorem not_schemasAgree : ¬ SchemasAgree := by
  intro h
  obtain ⟨read, hread, hsame⟩ := h Unit emptyCodec sampleEvent
  obtain ⟨read', hread', hagrees⟩ := parseExecutionData_marshal emptyCodec sampleEvent
  obtain rfl := Except.ok.inj (hread.symm.trans hread')
  have hempty : ofString "run-1" = [] := hsame.uid.symm.trans hagrees.uid
  exact absurd hempty (by decide)

end LitmusPortal.ChaosWorkflow
