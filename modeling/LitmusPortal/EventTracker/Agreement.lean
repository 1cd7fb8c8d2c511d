import LitmusPortal.EventTracker.Informers

/-!
# The informers side by side

The three informers get the same event, each with the objects of its own kind.
-/

namespace LitmusPortal.EventTracker

def Workload.ofKind (object : Workload) (kind : Kind) : Workload := { object with kind := kind }

def afterEvent (api : Api) (newObj oldObj : Workload) (kind : Kind) : Audit :=
  runInformer kind api (oldObj.ofKind kind) (newObj.ofKind kind)

/-- An update that changes the resource version of an object with both annotations. -/
structure GitOpsEvent (newObj oldObj : Workload) : Prop where
  changed : newObj.resourceVersion ≠ oldObj.resourceVersion
  gitops : newObj.annotation "litmuschaos.io/gitops" = "true"
  workflow : newObj.annotation "litmuschaos.io/workflow" ≠ ""

/-- Every informer evaluates every policy on the two objects, all record the same, and none panics. -/
structure InformersAgree (api : Api) (newObj oldObj : Workload) : Prop where
  evaluates : ∀ kind, (afterEvent api newObj oldObj kind).evaluated =
    api.policies.map fun name => (name, newObj.json, oldObj.json)
  records : ∀ kind other, (afterEvent api newObj oldObj kind).recorded =
    (afterEvent api newObj oldObj other).recorded
  neverPanics : ∀ kind reason, (afterEvent api newObj oldObj kind).outcome ≠ .error (.panic reason)

variable {api : Api} {newObj oldObj : Workload}

/-! ### One informer -/

theorem takeObjects_ofKind (kind : Kind) (update : Audit) :
    takeObjects kind (oldObj.ofKind kind) (newObj.ofKind kind) update = update := by
  simp [takeObjects, Workload.assertKind, Workload.ofKind]

theorem onUpdate_ofKind (hevent : GitOpsEvent newObj oldObj) (kind : Kind) :
    onUpdate api (newObj.ofKind kind) (oldObj.ofKind kind) =
      policyAuditor api "Deployment" (newObj.ofKind kind) (oldObj.ofKind kind)
        (newObj.annotation "litmuschaos.io/workflow") := by
  have hne : newObj.ofKind kind ≠ oldObj.ofKind kind := by
    intro h
    have hversion := congrArg Workload.resourceVersion h
    exact hevent.changed hversion
  exact if_pos ⟨hevent.changed, hne, hevent.gitops, hevent.workflow⟩

theorem onUpdate_self (object : Workload) : onUpdate api object object = .ended (.ok ()) :=
  if_neg fun h => h.1 rfl

/-- The resource type is that of the Deployments, whatever the objects are. -/
theorem dataOf_ofKind (kind : Kind) :
    dataOf "Deployment" (newObj.ofKind kind) (oldObj.ofKind kind) =
      if kind = .deployment then .ok (newObj.json, oldObj.json)
      else .error (.panic "interface conversion") := by
  have hkind : kindOf (GoStrings.toLower "Deployment") = some .deployment := by decide
  rw [dataOf, hkind]
  by_cases h : kind = .deployment
  · subst h
    rfl
  · simp [Workload.assertKind, Workload.ofKind, h, bind, Except.bind]

theorem evaluated_auditPolicies {resourceType workflowid newData oldData : String}
    (hdata : dataOf resourceType newObj oldObj = .ok (newData, oldData)) {names : List String}
    (hok : (auditPolicies api resourceType newObj oldObj workflowid names).outcome = .ok ()) :
    (auditPolicies api resourceType newObj oldObj workflowid names).evaluated =
      names.map fun name => (name, newData, oldData) := by
  induction names with
  | nil => rfl
  | cons name names ih =>
      simp only [auditPolicies, hdata] at hok ⊢
      cases hget : api.get name with
      | error err => simp [hget, Audit.ended] at hok
      | ok etp =>
          simp only [hget] at hok ⊢
          cases hcheck : conditionChecker api.queries etp newData oldData with
          | error err => simp [hcheck] at hok
          | ok passed =>
              cases passed with
              | false =>
                  simp only [hcheck] at hok ⊢
                  rw [ih hok, List.map_cons]
              | true =>
                  cases hupdate : api.update name with
                  | error err => simp [hcheck, hupdate] at hok
                  | ok _ =>
                      simp only [hcheck, hupdate] at hok ⊢
                      rw [ih hok, List.map_cons]

theorem evaluated_deployment (hevent : GitOpsEvent newObj oldObj)
    (hok : (afterEvent api newObj oldObj .deployment).outcome = .ok ())
    (hapi : api.kubeConfig = .ok () ∧ api.dynamicClient = .ok () ∧ api.list = .ok ()) :
    (afterEvent api newObj oldObj .deployment).evaluated =
      api.policies.map fun name => (name, newObj.json, oldObj.json) := by
  obtain ⟨hconfig, hclient, hlist⟩ := hapi
  simp only [afterEvent, runInformer, runDeploymentInformer, takeObjects_ofKind, onUpdate_ofKind hevent,
    policyAuditor, hconfig, hclient, hlist] at hok ⊢
  exact evaluated_auditPolicies (dataOf_ofKind .deployment) hok

/-- The StatefulSet informer panics at the first policy it has got. -/
theorem outcome_statefulSet (hevent : GitOpsEvent newObj oldObj)
    (hapi : api.kubeConfig = .ok () ∧ api.dynamicClient = .ok () ∧ api.list = .ok ()) {name : String}
    {names : List String} (hpolicies : api.policies = name :: names) {etp : EventTrackerPolicy}
    (hget : api.get name = .ok etp) :
    (afterEvent api newObj oldObj .statefulSet).outcome = .error (.panic "interface conversion") := by
  obtain ⟨hconfig, hclient, hlist⟩ := hapi
  simp only [afterEvent, runInformer, runStsInformer, takeObjects_ofKind, onUpdate_ofKind hevent, policyAuditor,
    hconfig, hclient, hlist, hpolicies, auditPolicies, hget, dataOf_ofKind]
  rfl

/-- The DaemonSet informer does nothing with any event. -/
theorem afterEvent_daemonSet : afterEvent api newObj oldObj .daemonSet = .ended (.ok ()) := by
  rw [afterEvent, runInformer, runDSInformer, onUpdate_self]
  exact @takeObjects_ofKind newObj newObj .daemonSet _

/-! ### All informers -/

theorem policyAuditor_nil (hpolicies : api.policies = []) (resourceType workflowid : String) :
    (policyAuditor api resourceType newObj oldObj workflowid).evaluated = [] ∧
      (policyAuditor api resourceType newObj oldObj workflowid).recorded = [] ∧
      ∀ reason, (policyAuditor api resourceType newObj oldObj workflowid).outcome ≠ .error (.panic reason) := by
  unfold policyAuditor
  split <;> simp [Audit.ended, auditPolicies, hpolicies]

theorem afterEvent_nil (hpolicies : api.policies = []) (hevent : GitOpsEvent newObj oldObj) (kind : Kind) :
    (afterEvent api newObj oldObj kind).evaluated = [] ∧ (afterEvent api newObj oldObj kind).recorded = [] ∧
      ∀ reason, (afterEvent api newObj oldObj kind).outcome ≠ .error (.panic reason) := by
  cases kind with
  | deployment =>
      rw [afterEvent, runInformer, runDeploymentInformer, takeObjects_ofKind, onUpdate_ofKind hevent]
      exact policyAuditor_nil hpolicies _ _
  | statefulSet =>
      rw [afterEvent, runInformer, runStsInformer, takeObjects_ofKind, onUpdate_ofKind hevent]
      exact policyAuditor_nil hpolicies _ _
  | daemonSet =>
      rw [afterEvent_daemonSet]
      exact ⟨rfl, rfl, fun _ h => by cases h⟩

/-- The informers agree only where there is no policy, since that for the DaemonSets evaluates none. -/
theorem informersAgree_iff (hevent : GitOpsEvent newObj oldObj) :
    InformersAgree api newObj oldObj ↔ api.policies = [] := by
  constructor
  · intro hagree
    have hevaluated := hagree.evaluates .daemonSet
    rw [afterEvent_daemonSet] at hevaluated
    exact List.map_eq_nil_iff.mp hevaluated.symm
  · intro hpolicies
    have hall := afterEvent_nil hpolicies hevent
    constructor
    · intro kind
      rw [(hall kind).1, hpolicies, List.map_nil]
    · intro kind other
      rw [(hall kind).2.1, (hall other).2.1]
    · exact fun kind => (hall kind).2.2

/-! ### An image that changes -/

def nothingSelected : Queries where
  search _ _ := .ok .null
  sprint _ := "<nil>"

def withPolicies (policies : List String) : Api where
  queries := nothingSelected
  policies := policies
  kubeConfig := .ok ()
  dynamicClient := .ok ()
  list := .ok ()
  get _ := .ok { conditionType := "and", conditions := [⟨"spec.replicas", none, "Change"⟩], statuses := [] }
  update _ := .ok ()
  now := "Monday, 02-Jan-06 15:04:05 UTC"

def rollout (version image : String) : Workload where
  kind := .deployment
  name := "nginx"
  resourceVersion := version
  annotations := [("litmuschaos.io/gitops", "true"), ("litmuschaos.io/workflow", "w1")]
  json := image

theorem rollout_event : GitOpsEvent (rollout "2" "\"nginx:2\"") (rollout "1" "\"nginx:1\"") :=
  ⟨by decide, by decide, by decide⟩

theorem informersAgree_rollout :
    GitOpsEvent (rollout "2" "\"nginx:2\"") (rollout "1" "\"nginx:1\"") ∧
      InformersAgree (withPolicies []) (rollout "2" "\"nginx:2\"") (rollout "1" "\"nginx:1\"") :=
  ⟨rollout_event, (informersAgree_iff rollout_event).mpr rfl⟩

/-- With a policy the update of a StatefulSet panics. -/
theorem not_informersAgree :
    ¬ ∀ api newObj oldObj, GitOpsEvent newObj oldObj → InformersAgree api newObj oldObj := by
  intro hall
  have hagree := hall (withPolicies ["image-policy"]) _ _ rollout_event
  have hpanic := @outcome_statefulSet (withPolicies ["image-policy"]) _ _ rollout_event
    ⟨rfl, rfl, rfl⟩ _ _ rfl _ rfl
  exact hagree.neverPanics .statefulSet _ hpanic

end LitmusPortal.EventTracker
