import LitmusPortal.Agent.Handler
import LitmusPortal.Agent.Payload

/-!
# The updates the subscriber sends

`SendWorkflowUpdates` completes an event with the chaos data of the events before it, which the agent
keeps for each run until the run has ended. A map of Go is ranged over in any order.
-/

namespace LitmusPortal.Agent

open GoText GoJson

variable {R : Type}

/-- The last event of each run. -/
abbrev EventMap (R : Type) := Text → Option (WorkflowEvent R)

/-- The order in which a map is ranged over. -/
structure RangeOrder (α : Type) where
  visit : List ((_ : Text) × α) → List ((_ : Text) × α)
  perm : ∀ entries, (visit entries).Perm entries

def RangeOrder.asStored {α : Type} : RangeOrder α := ⟨id, fun _ => .refl _⟩

/-- The zero value, which a map gives for a key it does not have. -/
def Node.zero : Node R := ⟨[], [], [], [], [], none, [], none⟩

def WorkflowEvent.node? (event : WorkflowEvent R) (key : Text) : Option (Node R) :=
  event.nodes.bind fun nodes => nodes.lookup key

def WorkflowEvent.node (event : WorkflowEvent R) (key : Text) : Node R := (event.node? key).getD .zero

def Node.hasChaosData (node : Node R) : Bool := node.type = chaosEngineKind ∧ node.chaosExp.isSome

def failedPhase : Text := ofString "Failed"

/-- The body of the loop over the nodes of the stored event. -/
def restoreNode (event : WorkflowEvent R) (entry : (_ : Text) × Node R) : Except Crash (WorkflowEvent R) :=
  if entry.2.hasChaosData ∧ (event.node entry.1).chaosExp.isNone then
    match event.nodes with
    | none => .error (.panic "assignment to entry in nil map")
    | some nodes =>
        let nodeData := { event.node entry.1 with
          chaosExp := entry.2.chaosExp
          phase := entry.2.phase
          message := entry.2.message }
        return { event with
          phase := if entry.2.phase = failedPhase then failedPhase else event.phase
          message := if entry.2.phase = failedPhase then ofString "Chaos Experiment Failed" else event.message
          nodes := some (nodes.insert entry.1 nodeData) }
  else return event

def entriesOf (event : WorkflowEvent R) : List ((_ : Text) × Node R) := (event.nodes.map AList.entries).getD []

def restore (order : RangeOrder (Node R)) (eventMap : EventMap R) (event : WorkflowEvent R) :
    Except Crash (WorkflowEvent R) :=
  match eventMap event.uid with
  | none => return event
  | some wfEvent => (order.visit (entriesOf wfEvent)).foldlM restoreNode event

/-- The payload takes the quotes from the messages of the nodes, in the map that is stored. -/
def WorkflowEvent.withoutQuotes (event : WorkflowEvent R) : WorkflowEvent R :=
  { event with nodes := event.nodes.map cleanNodes }

/-- The event that is written, the request made of it, and what the agent keeps. -/
structure Update (R : Type) where
  sent : WorkflowEvent R
  payload : Text
  eventMap : EventMap R

/-- The agent's side of `SendWorkflowUpdates`, up to the request. -/
def prepareUpdate (isPrint : Char → Bool) (codec : ChaosResultCodec R) (clusterData : Identity)
    (order : RangeOrder (Node R)) (eventMap : EventMap R) (event : WorkflowEvent R) : Except Crash (Update R) := do
  let event ← restore order eventMap event
  let completed := event.finishedAt ≠ []
  return {
    sent := event
    payload := generateWorkflowPayload isPrint codec clusterData (completedText completed) event
    eventMap := Function.update eventMap event.uid (if completed then none else some event.withoutQuotes) }

/-- With the answer of the server. -/
def sendWorkflowUpdates (isPrint : Char → Bool) (codec : ChaosResultCodec R) (clusterData : Identity)
    (server : Text → Except Text Text) (order : RangeOrder (Node R)) (eventMap : EventMap R)
    (event : WorkflowEvent R) : Except Crash (Except Text Text × EventMap R) := do
  let update ← prepareUpdate isPrint codec clusterData order eventMap event
  return (server update.payload, update.eventMap)

/-! ### What is restored -/

/-- The node of an event once it has been completed. -/
def completeNode (stored : Option (Node R)) (own : Option (Node R)) : Option (Node R) :=
  match stored with
  | none => own
  | some node =>
      if node.hasChaosData ∧ (own.getD .zero).chaosExp.isNone then
        some { own.getD .zero with chaosExp := node.chaosExp, phase := node.phase, message := node.message }
      else own

section Restore

variable {event event' : WorkflowEvent R} {nodes : GoMap (Node R)}

theorem node?_of_nodes (h : event.nodes = some nodes) (key : Text) : event.node? key = nodes.lookup key := by
  rw [WorkflowEvent.node?, h]
  rfl

theorem restoreNode_spec (hnodes : event.nodes.isSome) (entry : (_ : Text) × Node R) :
    ∃ event', restoreNode event entry = .ok event' ∧ event'.nodes.isSome ∧ event'.uid = event.uid ∧
      event'.finishedAt = event.finishedAt ∧
      (∀ key, event'.node? key =
        if key = entry.1 then completeNode (some entry.2) (event.node? key) else event.node? key) ∧
      (event.phase = failedPhase ∨
        (entry.2.hasChaosData ∧ (event.node entry.1).chaosExp.isNone ∧ entry.2.phase = failedPhase) →
        event'.phase = failedPhase) := by
  obtain ⟨nodes, hsome⟩ := Option.isSome_iff_exists.mp hnodes
  unfold restoreNode
  by_cases hrestored : entry.2.hasChaosData ∧ (event.node entry.1).chaosExp.isNone
  · rw [if_pos hrestored, hsome]
    refine ⟨_, rfl, rfl, rfl, rfl, fun key => ?_, fun h => ?_⟩
    · rw [WorkflowEvent.node?]
      by_cases hkey : key = entry.1
      · subst hkey
        have hcond : entry.2.hasChaosData ∧ ((event.node? entry.1).getD .zero).chaosExp.isNone := hrestored
        rw [if_pos rfl, completeNode, if_pos hcond]
        exact AList.lookup_insert nodes
      · rw [if_neg hkey, node?_of_nodes hsome]
        exact AList.lookup_insert_ne hkey
    · dsimp only
      split_ifs with hphase
      · rfl
      · exact h.resolve_right fun hrest => hphase hrest.2.2
  · rw [if_neg hrestored]
    refine ⟨event, rfl, hnodes, rfl, rfl, fun key => ?_, fun h => ?_⟩
    · split_ifs with hkey
      · subst hkey
        have hcond : ¬ (entry.2.hasChaosData ∧ ((event.node? entry.1).getD .zero).chaosExp.isNone) := hrestored
        rw [completeNode, if_neg hcond]
      · rfl
    · exact h.resolve_right fun hrest => hrestored ⟨hrest.1, hrest.2.1⟩

theorem restoreNodes_spec (hnodes : event.nodes.isSome) {entries : List ((_ : Text) × Node R)}
    (hkeys : entries.NodupKeys) :
    ∃ event', entries.foldlM restoreNode event = .ok event' ∧ event'.nodes.isSome ∧ event'.uid = event.uid ∧
      event'.finishedAt = event.finishedAt ∧
      (∀ key, event'.node? key = completeNode (entries.dlookup key) (event.node? key)) ∧
      (event.phase = failedPhase ∨ (∃ entry ∈ entries, entry.2.hasChaosData ∧
          (event.node entry.1).chaosExp.isNone ∧ entry.2.phase = failedPhase) →
        event'.phase = failedPhase) := by
  induction entries generalizing event with
  | nil =>
      refine ⟨event, rfl, hnodes, rfl, rfl, fun key => rfl, fun h => h.resolve_right ?_⟩
      rintro ⟨entry, hentry, -⟩
      exact absurd hentry List.not_mem_nil
  | cons entry entries ih =>
      obtain ⟨hnotMem, hrest⟩ := List.nodupKeys_cons.mp hkeys
      obtain ⟨mid, hmid, hmidNodes, hmidUid, hmidFinished, hmidNode, hmidPhase⟩ := restoreNode_spec hnodes entry
      obtain ⟨event', hevent, hnodes', huid, hfinished, hnode, hphase⟩ := ih hmidNodes hrest
      refine ⟨event', ?_, hnodes', huid.trans hmidUid, hfinished.trans hmidFinished, fun key => ?_, fun h => ?_⟩
      · rw [List.foldlM_cons, hmid]
        exact hevent
      · rw [hnode key, hmidNode key]
        by_cases hkey : key = entry.1
        · have hnone : entries.dlookup key = none := List.dlookup_eq_none.mpr (hkey ▸ hnotMem)
          subst hkey
          rw [if_pos rfl, hnone, List.dlookup_cons_eq]
          rfl
        · rw [if_neg hkey, List.dlookup_cons_ne _ _ hkey]
      · apply hphase
        rcases h with hown | ⟨entry', hmem, hdata, hnone, hfailed⟩
        · exact .inl (hmidPhase (.inl hown))
        · rcases List.mem_cons.mp hmem with rfl | hmem
          · exact .inl (hmidPhase (.inr ⟨hdata, hnone, hfailed⟩))
          · have hne : entry'.1 ≠ entry.1 := fun heq => hnotMem (heq ▸ List.mem_keys_of_mem hmem)
            refine .inr ⟨entry', hmem, hdata, ?_, hfailed⟩
            rw [WorkflowEvent.node, hmidNode, if_neg hne]
            exact hnone

theorem dlookup_map {α β : Type} (f : α → β) (key : Text) (entries : List ((_ : Text) × α)) :
    (entries.map fun entry => (⟨entry.1, f entry.2⟩ : (_ : Text) × β)).dlookup key =
      (entries.dlookup key).map f := by
  induction entries with
  | nil => rfl
  | cons entry entries ih =>
      rw [List.map_cons]
      by_cases hkey : key = entry.1
      · subst hkey
        rw [List.dlookup_cons_eq, List.dlookup_cons_eq]
        rfl
      · have hhead : key ≠ (⟨entry.1, f entry.2⟩ : (_ : Text) × β).1 := hkey
        rw [List.dlookup_cons_ne _ _ hhead, List.dlookup_cons_ne _ _ hkey]
        exact ih

theorem node?_withoutQuotes (event : WorkflowEvent R) (key : Text) :
    event.withoutQuotes.node? key = (event.node? key).map Node.withoutQuotes := by
  rw [WorkflowEvent.node?, WorkflowEvent.withoutQuotes, WorkflowEvent.node?]
  cases event.nodes with
  | none => rfl
  | some nodes => exact dlookup_map Node.withoutQuotes key nodes.entries

theorem nodupKeys_visit (order : RangeOrder (Node R)) (event : WorkflowEvent R) :
    (order.visit (entriesOf event)).NodupKeys := by
  rw [List.perm_nodupKeys (order.perm _), entriesOf]
  cases event.nodes with
  | none => exact List.nodupKeys_nil
  | some nodes => exact nodes.nodupKeys

theorem dlookup_visit (order : RangeOrder (Node R)) (event : WorkflowEvent R) (key : Text) :
    (order.visit (entriesOf event)).dlookup key = event.node? key := by
  rw [List.perm_dlookup key (nodupKeys_visit order event) (order.perm _), WorkflowEvent.node?, entriesOf]
  cases event.nodes <;> rfl

/-- What an event with nodes is completed to, whatever the order. -/
theorem restore_spec (order : RangeOrder (Node R)) (eventMap : EventMap R) (hnodes : event.nodes.isSome) :
    ∃ event', restore order eventMap event = .ok event' ∧ event'.nodes.isSome ∧ event'.uid = event.uid ∧
      event'.finishedAt = event.finishedAt ∧
      (∀ key, event'.node? key =
        completeNode ((eventMap event.uid).bind (·.node? key)) (event.node? key)) ∧
      ∀ key node, (eventMap event.uid).bind (·.node? key) = some node → node.hasChaosData →
        (event.node key).chaosExp.isNone → node.phase = failedPhase → event'.phase = failedPhase := by
  unfold restore
  cases eventMap event.uid with
  | none => exact ⟨event, rfl, hnodes, rfl, rfl, fun _ => rfl, fun _ _ h => nomatch h⟩
  | some stored =>
      obtain ⟨event', hevent, hnodes', huid, hfinished, hnode, hphase⟩ :=
        restoreNodes_spec hnodes (nodupKeys_visit order stored)
      refine ⟨event', hevent, hnodes', huid, hfinished, fun key => ?_, fun key node hstored hdata hown hfailed => ?_⟩
      · rw [hnode key, dlookup_visit]
        rfl
      · refine hphase (.inr ⟨⟨key, node⟩, List.of_mem_dlookup ?_, hdata, hown, hfailed⟩)
        rw [dlookup_visit]
        exact hstored

end Restore

end LitmusPortal.Agent
