import LitmusPortal.Agent.Requests
import LitmusPortal.Schema

/-!
# Which calls of the subscriber panic

A panic is a read through a nil pointer, a write to a nil map or an index out of range. Looking up the
chaos data of a node is guarded, so that the event handler does not panic. What remains is an event
without nodes for a run that has chaos data stored, and the deletion of a workflow that is not there.
-/

namespace LitmusPortal.Agent

open GoText GoJson

variable {R α β : Type}

def Panics (result : Except Crash α) : Prop := ∃ message, result = .error (.panic message)

@[simp] theorem not_panics_ok (a : α) : ¬ Panics (.ok a : Except Crash α) := by
  rintro ⟨message, h⟩
  cases h

@[simp] theorem not_panics_pure (a : α) : ¬ Panics (pure a : Except Crash α) := not_panics_ok a

@[simp] theorem not_panics_fatal (message : String) : ¬ Panics (.error (.fatal message) : Except Crash α) := by
  rintro ⟨message', h⟩
  cases h

@[simp] theorem panics_panic (message : String) : Panics (.error (.panic message) : Except Crash α) :=
  ⟨message, rfl⟩

theorem panics_bind {x : Except Crash α} {f : α → Except Crash β} :
    Panics (x >>= f) ↔ Panics x ∨ ∃ a, x = .ok a ∧ Panics (f a) := by
  cases x with
  | ok a =>
      constructor
      · exact fun h => .inr ⟨a, rfl, h⟩
      · rintro (h | ⟨a', ha, h⟩)
        · exact absurd h (not_panics_ok a)
        · obtain rfl := Except.ok.inj ha
          exact h
  | error crash =>
      constructor
      · rintro ⟨message, h⟩
        exact .inl ⟨message, congrArg Except.error (Except.error.inj h)⟩
      · rintro (⟨message, h⟩ | ⟨a, ha, -⟩)
        · exact ⟨message, congrArg Except.error (Except.error.inj h)⟩
        · cases ha

theorem not_panics_bind {x : Except Crash α} {f : α → Except Crash β} (hx : ¬ Panics x)
    (hf : ∀ a, x = .ok a → ¬ Panics (f a)) : ¬ Panics (x >>= f) := by
  rw [panics_bind]
  rintro (h | ⟨a, ha, h⟩)
  · exact hx h
  · exact hf a ha h

theorem not_panics_ite {c : Prop} [Decidable c] {x y : Except Crash α} (hx : c → ¬ Panics x)
    (hy : ¬ c → ¬ Panics y) : ¬ Panics (if c then x else y) := by
  split_ifs with hc
  · exact hx hc
  · exact hy hc

theorem not_panics_foldlM {f : β → α → Except Crash β} (hf : ∀ b a, ¬ Panics (f b a)) (items : List α) (b : β) :
    ¬ Panics (items.foldlM f b) := by
  induction items generalizing b with
  | nil => exact not_panics_pure b
  | cons item items ih =>
      rw [List.foldlM_cons]
      exact not_panics_bind (hf b item) fun b' _ => ih b'

/-! ### The event handler -/

section Handler

variable (view : ChaosResultView R) (cluster : Cluster R)

theorem not_panics_getChaosData (startedAt : ℤ) (engineName engineNS : Text) :
    ¬ Panics (getChaosData view cluster startedAt engineName engineNS) := by
  unfold getChaosData
  cases cluster.chaosEngine engineNS engineName with
  | error err => exact not_panics_pure _
  | ok crd =>
      refine not_panics_ite (fun _ => not_panics_pure _) fun _ => ?_
      refine not_panics_ite (fun _ => not_panics_pure _) fun hempty => ?_
      obtain ⟨experiment, hfirst⟩ : ∃ experiment, crd.experiments[0]? = some experiment :=
        ⟨_, List.getElem?_eq_getElem (Nat.pos_of_ne_zero hempty)⟩
      refine not_panics_bind ?_ fun experiment _ => ?_
      · rw [elementAt, hfirst]
        exact not_panics_ok experiment
      · refine not_panics_ite (fun _ => ?_) fun _ => not_panics_pure _
        cases cluster.chaosResult engineNS (crd.name ++ ofString "-" ++ experiment.name) with
        | error err => exact not_panics_pure _
        | ok expRes => exact not_panics_pure _

theorem not_panics_checkChaosData {nodeStatus : NodeStatus} (h : HasManifest nodeStatus) (workflowNS : Text) :
    ¬ Panics (checkChaosData view cluster nodeStatus workflowNS) := by
  obtain ⟨-, data, hinputs⟩ := h
  have hdata := not_panics_getChaosData view cluster
  rw [checkChaosData, hinputs]
  refine not_panics_bind (not_panics_ok [some data]) fun inputs hinputs => ?_
  obtain rfl := Except.ok.inj hinputs
  refine not_panics_bind (not_panics_ok (some data)) fun artifact hartifact => ?_
  obtain rfl := Except.ok.inj hartifact
  refine not_panics_bind (not_panics_ok data) fun raw hraw => ?_
  obtain rfl := Except.ok.inj hraw
  cases cluster.decode data with
  | none => exact not_panics_pure _
  | some obj =>
      refine not_panics_ite (fun _ => not_panics_pure _) fun _ => ?_
      refine not_panics_ite (fun _ => not_panics_pure _) fun _ => ?_
      refine not_panics_ite (fun _ => ?_) fun _ => not_panics_bind (hdata _ _ _) fun _ _ => not_panics_pure _
      cases cluster.logs nodeStatus.id workflowNS (ofString "main") with
      | error err => exact not_panics_pure _
      | ok log =>
          refine not_panics_ite (fun _ => not_panics_pure _) fun _ => ?_
          exact not_panics_bind (hdata _ _ _) fun _ _ => not_panics_pure _

theorem not_panics_nodeOf (workflowNS : Text) (nodeStatus : NodeStatus) :
    ¬ Panics (nodeOf view cluster workflowNS nodeStatus) := by
  unfold nodeOf
  refine not_panics_ite (fun h => ?_) fun _ => ?_
  · refine not_panics_bind (not_panics_checkChaosData view cluster h workflowNS) fun found _ => ?_
    obtain ⟨nodeType, cd, err⟩ := found
    cases cd with
    | none => exact not_panics_pure _
    | some cd => exact not_panics_ite (fun _ => not_panics_pure _) fun _ => not_panics_pure _
  · exact not_panics_pure _

theorem not_panics_workflowEventHandler (workflowObj : Workflow) (eventType : Text) (startTime : ℤ) :
    ¬ Panics (workflowEventHandler view cluster workflowObj eventType startTime) := by
  unfold workflowEventHandler
  refine not_panics_ite (fun _ => not_panics_pure _) fun _ => ?_
  refine not_panics_ite (fun _ => not_panics_pure _) fun _ => ?_
  cases cluster.kubeConfig with
  | error err => exact not_panics_fatal _
  | ok _ =>
      cases cluster.chaosClient with
      | error err => exact not_panics_pure _
      | ok _ =>
          refine not_panics_bind ?_ fun _ _ => not_panics_pure _
          apply not_panics_foldlM
          rintro ⟨nodes, experimentFail⟩ nodeStatus
          exact not_panics_bind (not_panics_nodeOf view cluster workflowObj.nameSpace nodeStatus) fun _ _ =>
            not_panics_pure _

/-- A workflow the agent is not to report. -/
def Ignored (workflowObj : Workflow) (startTime : ℤ) : Prop :=
  labelOf workflowObj.labels "workflow_id" = [] ∨ workflowObj.creationTimestamp < startTime

theorem workflowEventHandler_of_ignored {workflowObj : Workflow} {startTime : ℤ}
    (h : Ignored workflowObj startTime) (eventType : Text) :
    workflowEventHandler view cluster workflowObj eventType startTime = .ok (.empty, none) := by
  unfold workflowEventHandler
  split_ifs with hlabel hold
  · rfl
  · rfl
  · exact absurd h (not_or.mpr ⟨hlabel, hold⟩)

/-- An event that is made of a workflow has a node map and names the workflow and its run. Without a client
for the chaos engines there is an error and the empty event. -/
theorem workflowEventHandler_cases {workflowObj : Workflow} {startTime : ℤ} (h : ¬ Ignored workflowObj startTime)
    {eventType : Text} {event : WorkflowEvent R} {err : Option Text}
    (hevent : workflowEventHandler view cluster workflowObj eventType startTime = .ok (event, err)) :
    cluster.chaosClient = .ok () ∧ err = none ∧ event.nodes.isSome ∧
        event.workflowID = labelOf workflowObj.labels "workflow_id" ∧ event.uid = workflowObj.uid ∧
        event.executedBy = labelOf workflowObj.labels "executed_by" ∨
      cluster.chaosClient ≠ .ok () ∧ err ≠ none ∧ event = .empty := by
  obtain ⟨hlabel, hold⟩ := not_or.mp h
  rw [workflowEventHandler, if_neg hlabel, if_neg hold] at hevent
  cases hkube : cluster.kubeConfig with
  | error err =>
      rw [hkube] at hevent
      cases hevent
  | ok _ =>
      cases hchaos : cluster.chaosClient with
      | error err =>
          rw [hkube, hchaos] at hevent
          obtain ⟨rfl, rfl⟩ := Prod.mk.inj (Except.ok.inj hevent)
          exact .inr ⟨(nomatch ·), Option.some_ne_none _, rfl⟩
      | ok _ =>
          rw [hkube, hchaos] at hevent
          obtain ⟨nodes, -, hok⟩ := exists_of_bind_eq_ok hevent
          obtain ⟨rfl, rfl⟩ := Prod.mk.inj (Except.ok.inj hok)
          exact .inl ⟨rfl, rfl, rfl, rfl, rfl, rfl⟩

theorem workflowEventHandler_spec {workflowObj : Workflow} {startTime : ℤ} (h : ¬ Ignored workflowObj startTime)
    {eventType : Text} {event : WorkflowEvent R}
    (hevent : workflowEventHandler view cluster workflowObj eventType startTime = .ok (event, none)) :
    event.nodes.isSome ∧ event.workflowID = labelOf workflowObj.labels "workflow_id" ∧
      event.uid = workflowObj.uid ∧ event.executedBy = labelOf workflowObj.labels "executed_by" := by
  rcases workflowEventHandler_cases view cluster h hevent with ⟨-, -, hspec⟩ | ⟨-, herr, -⟩
  · exact hspec
  · exact absurd rfl herr

end Handler

/-! ### The updates -/

section Updates

variable (isPrint : Char → Bool) (codec : ChaosResultCodec R) (clusterData : Identity)
  (server : Text → Except Text Text) (order : RangeOrder (Node R)) {eventMap : EventMap R} {event : WorkflowEvent R}

/-- The event has no node map, and its run has chaos data stored. -/
def NothingToRestoreTo (eventMap : EventMap R) (event : WorkflowEvent R) : Prop :=
  event.nodes = none ∧ ∃ stored, eventMap event.uid = some stored ∧
    ∃ key node, stored.node? key = some node ∧ node.hasChaosData

theorem panics_restoreNode (hnodes : event.nodes = none) (entry : (_ : Text) × Node R) :
    Panics (restoreNode event entry) ↔ entry.2.hasChaosData := by
  have hnone : (event.node entry.1).chaosExp.isNone = true := by
    rw [WorkflowEvent.node, WorkflowEvent.node?, hnodes]
    rfl
  rw [restoreNode, hnodes, hnone]
  by_cases hdata : entry.2.hasChaosData = true
  · rw [if_pos ⟨hdata, rfl⟩]
    exact iff_of_true (panics_panic _) hdata
  · rw [if_neg fun h => hdata h.1]
    exact iff_of_false (not_panics_pure _) hdata

theorem panics_restoreNodes (hnodes : event.nodes = none) (entries : List ((_ : Text) × Node R)) :
    Panics (entries.foldlM restoreNode event) ↔ ∃ entry ∈ entries, entry.2.hasChaosData := by
  induction entries with
  | nil => simp
  | cons entry entries ih =>
      rw [List.foldlM_cons, panics_bind, panics_restoreNode hnodes, List.exists_mem_cons_iff]
      by_cases hdata : entry.2.hasChaosData = true
      · exact iff_of_true (.inl hdata) (.inl hdata)
      · have hsame : restoreNode event entry = .ok event := if_neg fun h => hdata h.1
        rw [hsame, or_iff_right hdata, or_iff_right hdata, ← ih]
        constructor
        · rintro ⟨event', hevent, h⟩
          obtain rfl := Except.ok.inj hevent
          exact h
        · exact fun h => ⟨event, rfl, h⟩

theorem panics_restore : Panics (restore order eventMap event) ↔ NothingToRestoreTo eventMap event := by
  cases hnodes : event.nodes with
  | some nodes =>
      have hsome : event.nodes.isSome := by
        rw [hnodes]
        rfl
      obtain ⟨event', hevent, -⟩ := restore_spec order eventMap hsome
      rw [hevent]
      refine iff_of_false (not_panics_ok _) fun h => ?_
      cases hnodes.symm.trans h.1
  | none =>
      rw [NothingToRestoreTo, restore]
      cases hstored : eventMap event.uid with
      | none => simp
      | some stored =>
          dsimp only
          rw [panics_restoreNodes hnodes]
          constructor
          · rintro ⟨⟨key, node⟩, hentry, hdata⟩
            refine ⟨hnodes, stored, rfl, key, node, ?_, hdata⟩
            rw [← dlookup_visit order stored key]
            exact List.mem_dlookup (nodupKeys_visit order stored) hentry
          · rintro ⟨-, stored', hstored', key, node, hnode, hdata⟩
            obtain rfl := Option.some.inj hstored'
            refine ⟨⟨key, node⟩, List.of_mem_dlookup ?_, hdata⟩
            rw [dlookup_visit]
            exact hnode

theorem panics_sendWorkflowUpdates :
    Panics (sendWorkflowUpdates isPrint codec clusterData server order eventMap event) ↔
      NothingToRestoreTo eventMap event := by
  rw [sendWorkflowUpdates, prepareUpdate, bind_assoc, panics_bind, panics_restore]
  refine or_iff_left ?_
  rintro ⟨event', -, h⟩
  exact not_panics_ok _ h

end Updates

/-! ### The requests -/

section Requests

variable (isPrint : Char → Bool) (codec : ChaosResultCodec R) (view : ChaosResultView R) (api : Api R)
  (server : Text → Except Text Text) (order : RangeOrder (Node R)) (clusterData : ClusterData)
  (eventMap : EventMap R)

def Lists (listWf : List Workflow) : Prop :=
  api.kubeConfig = .ok () ∧ api.clientset = .ok () ∧ api.workflows = .ok listWf

def NotFound (uid : Text) : Prop := ∃ listWf, Lists api listWf ∧ ∀ wf ∈ listWf, wf.uid ≠ uid

def Found (uid : Text) (wfOb : Workflow) : Prop :=
  ∃ listWf, Lists api listWf ∧ listWf.find? (fun wf => wf.uid = uid) = some wfOb

theorem not_panics_newForConfigOrDie : ¬ Panics api.newForConfigOrDie := by
  rw [Api.newForConfigOrDie]
  cases api.clientset with
  | error err => exact not_panics_fatal _
  | ok _ => exact not_panics_pure _

theorem not_panics_getWorkflowObj (uid : Text) : ¬ Panics (getWorkflowObj api uid) := by
  rw [getWorkflowObj]
  cases api.kubeConfig with
  | error err => exact not_panics_pure _
  | ok _ =>
      refine not_panics_bind (not_panics_newForConfigOrDie api) fun _ _ => ?_
      cases api.workflows <;> exact not_panics_pure _

theorem not_panics_deleteWorflow (wfname : Text) : ¬ Panics (deleteWorflow api wfname clusterData) := by
  rw [deleteWorflow]
  cases api.kubeConfig with
  | error err => exact not_panics_pure _
  | ok _ =>
      refine not_panics_bind (not_panics_newForConfigOrDie api) fun _ _ => ?_
      cases api.delete clusterData.agentNamespace wfname <;> exact not_panics_pure _

theorem getWorkflowObj_eq_ok_iff {uid : Text} {found : Option Workflow} :
    getWorkflowObj api uid = .ok (.ok found) ↔
      ∃ listWf, Lists api listWf ∧ listWf.find? (fun wf => wf.uid = uid) = found := by
  constructor
  · intro h
    rw [getWorkflowObj] at h
    cases hkube : api.kubeConfig with
    | error err =>
        rw [hkube] at h
        cases h
    | ok _ =>
        rw [hkube] at h
        obtain ⟨_, hclient, h⟩ := exists_of_bind_eq_ok h
        rw [Api.newForConfigOrDie] at hclient
        cases hset : api.clientset with
        | error err =>
            rw [hset] at hclient
            cases hclient
        | ok _ =>
            cases hlist : api.workflows with
            | error err =>
                rw [hlist] at h
                cases h
            | ok listWf =>
                rw [hlist] at h
                exact ⟨listWf, ⟨hkube, hset, hlist⟩, Except.ok.inj (Except.ok.inj h)⟩
  · rintro ⟨listWf, ⟨hkube, hset, hlist⟩, hfind⟩
    rw [getWorkflowObj, hkube]
    dsimp only
    rw [Api.newForConfigOrDie, hset, hlist]
    exact congrArg (fun found => Except.ok (Except.ok found)) hfind

theorem getWorkflowObj_eq_none_iff {uid : Text} : getWorkflowObj api uid = .ok (.ok none) ↔ NotFound api uid := by
  rw [getWorkflowObj_eq_ok_iff, NotFound]
  simp only [List.find?_eq_none, decide_eq_true_eq]

theorem panics_workflowDelete (externalData : Text) :
    Panics (workflowDelete api clusterData eventMap externalData) ↔ NotFound api externalData := by
  rw [workflowDelete, panics_bind, or_iff_right (not_panics_getWorkflowObj api externalData),
    ← getWorkflowObj_eq_none_iff]
  constructor
  · rintro ⟨answer, hanswer, h⟩
    rcases answer with err | found
    · exact absurd h (not_panics_pure _)
    · cases found with
      | none => exact hanswer
      | some wfOb =>
          refine absurd h (not_panics_bind (not_panics_pure wfOb) fun _ _ => ?_)
          exact not_panics_bind (not_panics_deleteWorflow api clusterData _) fun _ _ => not_panics_pure _
  · exact fun h => ⟨_, h, panics_panic _⟩

theorem panics_sendSync {event : WorkflowEvent R} :
    Panics (sendSync isPrint codec server order clusterData eventMap event) ↔ NothingToRestoreTo eventMap event := by
  rw [sendSync, panics_bind, panics_sendWorkflowUpdates]
  refine or_iff_left ?_
  rintro ⟨⟨response, after⟩, -, h⟩
  cases response <;> exact not_panics_pure _ h

theorem panics_syncFound {wfOb : Workflow} {startTime : ℤ} :
    Panics (syncFound isPrint codec view api server order clusterData eventMap wfOb startTime) ↔
      Ignored wfOb startTime ∧ NothingToRestoreTo eventMap .empty := by
  rw [syncFound, panics_bind, or_iff_right (not_panics_workflowEventHandler view api.toCluster wfOb _ startTime)]
  by_cases hignored : Ignored wfOb startTime
  · rw [workflowEventHandler_of_ignored view api.toCluster hignored, and_iff_right hignored,
      ← panics_sendSync isPrint codec server order clusterData eventMap]
    constructor
    · rintro ⟨handled, hhandled, h⟩
      obtain rfl := Except.ok.inj hhandled
      exact h
    · exact fun h => ⟨_, rfl, h⟩
  · refine iff_of_false ?_ fun h => hignored h.1
    rintro ⟨⟨evts, err⟩, hhandled, h⟩
    cases err with
    | some err => exact not_panics_pure _ h
    | none =>
        have hnothing := (panics_sendSync isPrint codec server order clusterData eventMap).mp h
        have hnodes := (workflowEventHandler_spec view api.toCluster hignored hhandled).1
        rw [hnothing.1] at hnodes
        cases hnodes

/-- A workflow is to be synchronised whose event has no nodes, though its run has chaos data stored. -/
def SyncsWithoutNodes (externalData : Text) : Prop :=
  ∃ extData, parseSyncData externalData = .ok extData ∧
    (NotFound api extData.workflowRunID ∧ NothingToRestoreTo eventMap (notAvailable clusterData extData) ∨
      ∃ wfOb startTime, Found api extData.workflowRunID wfOb ∧
        GoStrings.atoi clusterData.startTime = some startTime ∧ Ignored wfOb startTime ∧
        NothingToRestoreTo eventMap .empty)

theorem panics_workflowSync (externalData : Text) :
    Panics (workflowSync isPrint codec view api server order clusterData eventMap externalData) ↔
      SyncsWithoutNodes api clusterData eventMap externalData := by
  rw [workflowSync, SyncsWithoutNodes]
  cases hdata : parseSyncData externalData with
  | error err => exact iff_of_false (not_panics_pure _) fun ⟨_, h, _⟩ => nomatch h
  | ok extData =>
      dsimp only
      rw [panics_bind, or_iff_right (not_panics_getWorkflowObj api _)]
      constructor
      · rintro ⟨answer, hanswer, h⟩
        refine ⟨extData, rfl, ?_⟩
        rcases answer with err | found
        · exact absurd h (not_panics_pure _)
        · cases found with
          | none =>
              have hsend := (panics_sendSync isPrint codec server order clusterData eventMap).mp h
              exact .inl ⟨(getWorkflowObj_eq_none_iff api).mp hanswer, hsend⟩
          | some wfOb =>
              cases hstart : GoStrings.atoi clusterData.startTime with
              | none =>
                  rw [hstart] at h
                  exact absurd h (not_panics_pure _)
              | some startTime =>
                  rw [hstart] at h
                  obtain ⟨hignored, hnothing⟩ :=
                    (panics_syncFound isPrint codec view api server order clusterData eventMap).mp h
                  exact .inr ⟨wfOb, startTime, (getWorkflowObj_eq_ok_iff api).mp hanswer, rfl, hignored, hnothing⟩
      · rintro ⟨extData', hextData, hcases⟩
        obtain rfl := Except.ok.inj hextData
        rcases hcases with ⟨hnotFound, hnothing⟩ | ⟨wfOb, startTime, hfound, hstart, hignored, hnothing⟩
        · exact ⟨_, (getWorkflowObj_eq_none_iff api).mpr hnotFound,
            (panics_sendSync isPrint codec server order clusterData eventMap).mpr hnothing⟩
        · refine ⟨_, (getWorkflowObj_eq_ok_iff api).mpr hfound, ?_⟩
          dsimp only
          rw [hstart]
          exact (panics_syncFound isPrint codec view api server order clusterData eventMap).mpr ⟨hignored, hnothing⟩

def Faults (requestType externalData : Text) : Prop :=
  requestType = ofString "workflow_delete" ∧ NotFound api externalData ∨
    requestType = ofString "workflow_sync" ∧ SyncsWithoutNodes api clusterData eventMap externalData

theorem panics_workflowRequest (requestType externalData : Text) :
    Panics (workflowRequest isPrint codec view api server order clusterData eventMap requestType externalData) ↔
      Faults api clusterData eventMap requestType externalData := by
  have hdiffer : ofString "workflow_sync" ≠ ofString "workflow_delete" := by decide
  rw [workflowRequest, workflowOperation, Faults]
  by_cases hdelete : requestType = ofString "workflow_delete"
  · rw [if_pos hdelete, and_iff_right hdelete, or_iff_left fun h => hdiffer (h.1.symm.trans hdelete)]
    exact panics_workflowDelete api clusterData eventMap externalData
  · rw [if_neg hdelete, or_iff_right fun h => hdelete h.1]
    by_cases hsync : requestType = ofString "workflow_sync"
    · rw [if_pos hsync, and_iff_right hsync]
      exact panics_workflowSync isPrint codec view api server order clusterData eventMap externalData
    · rw [if_neg hsync]
      exact iff_of_false (not_panics_pure _) fun h => hsync h.1

/-- The updates, the requests about workflows and the functions these call. -/
structure DoesNotPanic (event : WorkflowEvent R) (requestType externalData : Text) : Prop where
  sendWorkflowUpdates :
    ¬ Panics (sendWorkflowUpdates isPrint codec clusterData.toIdentity server order eventMap event)
  workflowRequest :
    ¬ Panics (workflowRequest isPrint codec view api server order clusterData eventMap requestType externalData)
  getWorkflowObj : ∀ uid, ¬ Panics (getWorkflowObj api uid)
  deleteWorflow : ∀ wfname, ¬ Panics (deleteWorflow api wfname clusterData)

theorem doesNotPanic_iff (event : WorkflowEvent R) (requestType externalData : Text) :
    DoesNotPanic isPrint codec view api server order clusterData eventMap event requestType externalData ↔
      ¬ NothingToRestoreTo eventMap event ∧ ¬ Faults api clusterData eventMap requestType externalData := by
  rw [← panics_sendWorkflowUpdates isPrint codec clusterData.toIdentity server order,
    ← panics_workflowRequest isPrint codec view api server order clusterData eventMap]
  constructor
  · exact fun h => ⟨h.sendWorkflowUpdates, h.workflowRequest⟩
  · rintro ⟨hsends, hrequests⟩
    exact ⟨hsends, hrequests, not_panics_getWorkflowObj api, not_panics_deleteWorflow api clusterData⟩

end Requests

def SubscriberNeverPanics : Prop :=
  ∀ (R : Type) (isPrint : Char → Bool) (codec : ChaosResultCodec R) (view : ChaosResultView R) (api : Api R)
    (server : Text → Except Text Text) (order : RangeOrder (Node R)) (clusterData : ClusterData)
    (eventMap : EventMap R) (event : WorkflowEvent R) (requestType externalData : Text),
    DoesNotPanic isPrint codec view api server order clusterData eventMap event requestType externalData

def emptyCluster : Api Unit where
  kubeConfig := .ok ()
  chaosClient := .ok ()
  chaosEngine _ _ := .error (ofString "not found")
  chaosResult _ _ := .error (ofString "not found")
  logs _ _ _ := .error (ofString "not found")
  decode _ := none
  clientset := .ok ()
  workflows := .ok []
  delete _ _ := .error (ofString "not found")

/-- The workflow that is to be deleted has been deleted before. -/
theorem not_subscriberNeverPanics : ¬ SubscriberNeverPanics := by
  intro h
  have hrequest := (h Unit (fun _ => true) emptyCodec ⟨id, fun _ => [], fun _ => []⟩ emptyCluster .ok .asStored
    ⟨⟨[], [], []⟩, [], "0"⟩ (fun _ => none) .empty (ofString "workflow_delete") []).workflowRequest
  rw [panics_workflowRequest] at hrequest
  exact hrequest (.inl ⟨rfl, [], ⟨rfl, rfl, rfl⟩, fun _ hwf => nomatch hwf⟩)

end LitmusPortal.Agent
