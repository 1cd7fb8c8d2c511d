import LitmusPortal.Agent.Updates
import LitmusPortal.Lib.Transition

/-!
# What the agent remembers of a run

Once an event of a run has told of the chaos data of a node, the later events of the run are to be sent
with that node and its chaos data. The agent keeps the last event of each run; what it remembers is
what that event shows under the type of a chaos engine.
-/

namespace LitmusPortal.Agent

open GoText GoJson

variable {R : Type}

/-- An event that reaches the agent, and the order its map is ranged over. -/
structure Arrival (R : Type) where
  order : RangeOrder (Node R)
  event : WorkflowEvent R

def eventsOf (uid : Text) (arrivals : List (Arrival R)) : List (WorkflowEvent R) :=
  (arrivals.map Arrival.event).filter fun event => event.uid = uid

/-- The chaos data of a node in the latest event that has some. -/
def latest (key : Text) (earlier : List (WorkflowEvent R)) : Option (Node R) :=
  earlier.foldl (fun found event => ((event.node? key).filter Node.hasChaosData).or found) none

theorem latest_append (key : Text) (earlier : List (WorkflowEvent R)) (event : WorkflowEvent R) :
    latest key (earlier ++ [event]) = ((event.node? key).filter Node.hasChaosData).or (latest key earlier) := by
  rw [latest, List.foldl_append]
  rfl

theorem hasChaosData_of_latest {key : Text} {earlier : List (WorkflowEvent R)} {node : Node R}
    (h : latest key earlier = some node) : node.hasChaosData = true := by
  induction earlier using List.reverseRecOn with
  | nil => cases h
  | append_singleton earlier event ih =>
      rw [latest_append] at h
      cases hown : (event.node? key).filter Node.hasChaosData with
      | none => exact ih (by simpa [hown] using h)
      | some own =>
          obtain rfl : own = node := by simpa [hown] using h
          exact (Option.filter_eq_some_iff.mp hown).2

/-- The event that is sent shows the node with its chaos data: that of the event, or else the latest, with
the phase and the message that came with it. -/
def ShowsChaosData (event sent : WorkflowEvent R) (key : Text) (node : Node R) : Prop :=
  ∃ shown, sent.cleaned.node? key = some shown ∧ shown.name = node.name ∧ shown.type = node.type ∧
    match (event.node key).chaosExp with
    | some chaosExp => shown.chaosExp = some chaosExp
    | none => shown.chaosExp = node.chaosExp ∧ shown.phase = node.phase ∧
        shown.message = node.withoutQuotes.message ∧ (node.phase = failedPhase → sent.phase = failedPhase)

def Remembers (earlier : List (WorkflowEvent R)) (event sent : WorkflowEvent R) : Prop :=
  ∀ key node, latest key earlier = some node → ShowsChaosData event sent key node

/-- The event lists every node that had chaos data, as it was listed then. -/
def ListsNodes (earlier : List (WorkflowEvent R)) (event : WorkflowEvent R) : Prop :=
  ∀ key node, latest key earlier = some node →
    ∃ own, event.node? key = some own ∧ own.name = node.name ∧ own.type = node.type

/-! ### Messages without quotes -/

theorem replaceAll_quote (text : Text) :
    replaceAll text (ofString "\"") [] = text.filter (· ≠ .char '"') := by
  induction text with
  | nil => rfl
  | cons r text ih =>
      by_cases hquote : r = .char '"'
      · subst hquote
        rw [List.filter_cons_of_neg (by simp)]
        exact ih
      · rw [List.filter_cons_of_pos (by simpa using hquote), ← ih]
        exact replaceRunes_of_ne hquote

theorem withoutQuotes_withoutQuotes (node : Node R) : node.withoutQuotes.withoutQuotes = node.withoutQuotes := by
  have hmessage : replaceAll (replaceAll node.message (ofString "\"") []) (ofString "\"") [] =
      replaceAll node.message (ofString "\"") [] := by
    rw [replaceAll_quote, replaceAll_quote, List.filter_filter]
    simp
  rw [Node.withoutQuotes, Node.withoutQuotes]
  exact congrArg (fun message => ({ node with message := message } : Node R)) hmessage

/-- A message that has been sent once is sent the same again. -/
theorem message_withoutQuotes {node shown : Node R} (h : shown.message = node.withoutQuotes.message) :
    shown.withoutQuotes.message = node.withoutQuotes.message := by
  rw [← congrArg Node.message (withoutQuotes_withoutQuotes node)]
  exact congrArg (fun message => replaceAll message (ofString "\"") []) h

/-! ### One update -/

section Update

variable (isPrint : Char → Bool) (codec : ChaosResultCodec R) (clusterData : Identity)
variable {event sent : WorkflowEvent R} {eventMap : EventMap R} {earlier : List (WorkflowEvent R)} {key : Text}
  {node : Node R}

/-- The agent has, for each node with chaos data, what came with the latest. -/
def Holds (earlier : List (WorkflowEvent R)) (stored : Option (WorkflowEvent R)) : Prop :=
  ∀ key node, latest key earlier = some node → ∃ kept, stored.bind (·.node? key) = some kept ∧
    kept.hasChaosData ∧ kept.chaosExp = node.chaosExp ∧ kept.phase = node.phase ∧
    kept.message = node.withoutQuotes.message

theorem prepareUpdate_spec (order : RangeOrder (Node R)) (eventMap : EventMap R) (hnodes : event.nodes.isSome) :
    ∃ update, prepareUpdate isPrint codec clusterData order eventMap event = .ok update ∧
      (∀ key, update.sent.node? key = completeNode ((eventMap event.uid).bind (·.node? key)) (event.node? key)) ∧
      (∀ key node, (eventMap event.uid).bind (·.node? key) = some node → node.hasChaosData →
        (event.node key).chaosExp.isNone → node.phase = failedPhase → update.sent.phase = failedPhase) ∧
      update.eventMap = Function.update eventMap event.uid
        (if event.finishedAt ≠ [] then none else some update.sent.withoutQuotes) := by
  obtain ⟨sent, hsent, -, huid, hfinished, hnode, hphase⟩ := restore_spec order eventMap hnodes
  refine ⟨_, by rw [prepareUpdate, hsent]; rfl, hnode, hphase, ?_⟩
  rw [huid, hfinished]

theorem hasChaosData_iff : node.hasChaosData = true ↔ node.type = chaosEngineKind ∧ node.chaosExp.isSome = true := by
  rw [Node.hasChaosData, decide_eq_true_eq]

theorem completeNode_of_hasChaosData {own : Node R} (h : own.hasChaosData = true) (stored : Option (Node R)) :
    completeNode stored (some own) = some own := by
  cases stored with
  | none => rfl
  | some kept =>
      refine if_neg fun hcond => ?_
      have hnone : own.chaosExp.isNone = true := hcond.2
      have hsome := (hasChaosData_iff.mp h).2
      rw [Option.isNone_iff_eq_none.mp hnone] at hsome
      cases hsome

theorem completeNode_of_kept {kept own : Node R} (hkept : kept.hasChaosData) (hown : own.chaosExp = none) :
    completeNode (some kept) (some own) =
      some { own with chaosExp := kept.chaosExp, phase := kept.phase, message := kept.message } := by
  refine if_pos ⟨hkept, ?_⟩
  rw [Option.getD_some, hown]
  rfl

theorem chaosExp_eq_none {own : Node R} (hkind : own.type = chaosEngineKind) (h : ¬ own.hasChaosData = true) :
    own.chaosExp = none := by
  rw [hasChaosData_iff, not_and] at h
  exact Option.not_isSome_iff_eq_none.mp (h hkind)

theorem node?_cleaned (event : WorkflowEvent R) (key : Text) :
    event.cleaned.node? key = (event.node? key).map Node.withoutQuotes := node?_withoutQuotes event key

theorem node_of_node? {own : Node R} (h : event.node? key = some own) : event.node key = own := by
  rw [WorkflowEvent.node, h]
  rfl

theorem completeNode_name_type (stored own : Option (Node R)) {shown : Node R}
    (h : completeNode stored own = some shown) :
    shown.name = (own.getD .zero).name ∧ shown.type = (own.getD .zero).type := by
  unfold completeNode at h
  split at h
  · rw [h]
    exact ⟨rfl, rfl⟩
  · split_ifs at h
    · obtain rfl := Option.some.inj h
      exact ⟨rfl, rfl⟩
    · rw [h]
      exact ⟨rfl, rfl⟩

variable {stored : Option (WorkflowEvent R)}

theorem remembers_iff_listsNodes (hholds : Holds earlier stored)
    (hnode : ∀ key, sent.node? key = completeNode (stored.bind (·.node? key)) (event.node? key))
    (hphase : ∀ key node, stored.bind (·.node? key) = some node → node.hasChaosData →
      (event.node key).chaosExp.isNone → node.phase = failedPhase → sent.phase = failedPhase) :
    Remembers earlier event sent ↔ ListsNodes earlier event := by
  constructor
  · intro h key node hlatest
    obtain ⟨shown, hshown, hname, htype, -⟩ := h key node hlatest
    rw [node?_cleaned, hnode, Option.map_eq_some_iff] at hshown
    obtain ⟨shown', hcomplete, rfl⟩ := hshown
    obtain ⟨hname', htype'⟩ := completeNode_name_type _ _ hcomplete
    cases hown : event.node? key with
    | none =>
        -- a node that the event does not list is sent without a type
        rw [hown] at htype'
        have hkind := htype.symm.trans htype'
        rw [(hasChaosData_iff.mp (hasChaosData_of_latest hlatest)).1] at hkind
        have hempty : chaosEngineKind ≠ [] := by decide
        exact absurd hkind hempty
    | some own =>
        rw [hown] at hname' htype'
        exact ⟨own, rfl, hname'.symm.trans hname, htype'.symm.trans htype⟩
  · intro h key node hlatest
    obtain ⟨own, hown, hname, htype⟩ := h key node hlatest
    obtain ⟨kept, hkept, hdata, hchaosExp, hkeptPhase, hmessage⟩ := hholds key node hlatest
    have hkind : own.type = chaosEngineKind :=
      htype.trans (hasChaosData_iff.mp (hasChaosData_of_latest hlatest)).1
    rw [ShowsChaosData, node?_cleaned, hnode, hkept, hown, node_of_node? hown]
    by_cases hdataOwn : own.hasChaosData = true
    · obtain ⟨chaosExp, hchaosExpOwn⟩ := Option.isSome_iff_exists.mp (hasChaosData_iff.mp hdataOwn).2
      rw [completeNode_of_hasChaosData hdataOwn, hchaosExpOwn]
      exact ⟨_, rfl, hname, htype, hchaosExpOwn⟩
    · have hnone := chaosExp_eq_none hkind hdataOwn
      rw [completeNode_of_kept hdata hnone, hnone]
      refine ⟨_, rfl, hname, htype, hchaosExp, hkeptPhase, ?_, fun hfailed => ?_⟩
      · exact message_withoutQuotes hmessage
      · refine hphase key kept hkept hdata ?_ (hkeptPhase.trans hfailed)
        rw [node_of_node? hown, hnone]
        rfl

theorem holds_of_listsNodes (hholds : Holds earlier stored) (hlists : ListsNodes earlier event)
    (hnode : ∀ key, sent.node? key = completeNode (stored.bind (·.node? key)) (event.node? key)) :
    Holds (earlier ++ [event]) (some sent.withoutQuotes) := by
  intro key node hlatest
  rw [latest_append] at hlatest
  have hkept : (some sent.withoutQuotes).bind (·.node? key) =
      (completeNode (stored.bind (·.node? key)) (event.node? key)).map Node.withoutQuotes := by
    rw [← hnode]
    exact node?_withoutQuotes sent key
  rw [hkept]
  cases hown : (event.node? key).filter Node.hasChaosData with
  | some own =>
      -- the event has chaos data of its own
      obtain rfl : own = node := by simpa [hown] using hlatest
      obtain ⟨hlisted, hdata⟩ := Option.filter_eq_some_iff.mp hown
      rw [hlisted, completeNode_of_hasChaosData hdata]
      exact ⟨_, rfl, hdata, rfl, rfl, rfl⟩
  | none =>
      have hbefore : latest key earlier = some node := by simpa [hown] using hlatest
      obtain ⟨own, hlisted, -, htype⟩ := hlists key node hbefore
      obtain ⟨kept, hstored, hdata, hchaosExp, hphase, hmessage⟩ := hholds key node hbefore
      have hkind : own.type = chaosEngineKind :=
        htype.trans (hasChaosData_iff.mp (hasChaosData_of_latest hbefore)).1
      have hnotOwn : ¬ own.hasChaosData = true := by
        intro h
        rw [hlisted, Option.filter_some, if_pos h] at hown
        cases hown
      rw [hstored, hlisted, completeNode_of_kept hdata (chaosExp_eq_none hkind hnotOwn)]
      refine ⟨_, rfl, ?_, hchaosExp, hphase, message_withoutQuotes hmessage⟩
      exact hasChaosData_iff.mpr ⟨hkind, (hasChaosData_iff.mp hdata).2⟩

end Update

/-! ### Runs -/

section Runs

variable (isPrint : Char → Bool) (codec : ChaosResultCodec R) (clusterData : Identity)

def sendOne (eventMap : EventMap R) (arrival : Arrival R) : Except Crash (EventMap R) :=
  (prepareUpdate isPrint codec clusterData arrival.order eventMap arrival.event).map Update.eventMap

def sendAll (eventMap : EventMap R) (arrivals : List (Arrival R)) : Except Crash (EventMap R) :=
  arrivals.foldlM (sendOne isPrint codec clusterData) eventMap

/-- Every update of the run shows the chaos data of the events of the run before it. -/
def RunRemembers (uid : Text) (eventMap : EventMap R) (arrivals : List (Arrival R)) : Prop :=
  ∀ front arrival back, arrivals = front ++ arrival :: back → arrival.event.uid = uid →
    ∃ before update, sendAll isPrint codec clusterData eventMap front = .ok before ∧
      prepareUpdate isPrint codec clusterData arrival.order before arrival.event = .ok update ∧
      Remembers (eventsOf uid front) arrival.event update.sent

/-- Every event of the run lists the nodes that had chaos data. -/
def RunListsNodes (uid : Text) (arrivals : List (Arrival R)) : Prop :=
  ∀ front arrival back, arrivals = front ++ arrival :: back → arrival.event.uid = uid →
    ListsNodes (eventsOf uid front) arrival.event

/-- No event of the run comes after its final one. -/
def EndsOnce (uid : Text) (arrivals : List (Arrival R)) : Prop :=
  ∀ front arrival back, arrivals = front ++ arrival :: back → arrival.event.uid = uid →
    ∀ event ∈ eventsOf uid front, event.finishedAt = []

variable {uid : Text} {eventMap : EventMap R} {arrivals : List (Arrival R)}

theorem eventsOf_append (front : List (Arrival R)) (arrival : Arrival R) :
    eventsOf uid (front ++ [arrival]) =
      eventsOf uid front ++ if arrival.event.uid = uid then [arrival.event] else [] := by
  rw [eventsOf, List.map_append, List.filter_append]
  by_cases huid : arrival.event.uid = uid
  · simp [eventsOf, huid]
  · simp [eventsOf, huid]

theorem sendAll_append {front : List (Arrival R)} {arrival : Arrival R} {before : EventMap R} {update : Update R}
    (hbefore : sendAll isPrint codec clusterData eventMap front = .ok before)
    (hupdate : prepareUpdate isPrint codec clusterData arrival.order before arrival.event = .ok update) :
    sendAll isPrint codec clusterData eventMap (front ++ [arrival]) = .ok update.eventMap := by
  have hone : [arrival].foldlM (sendOne isPrint codec clusterData) before = .ok update.eventMap := by
    rw [List.foldlM_cons, sendOne, hupdate]
    rfl
  rw [sendAll] at hbefore ⊢
  rw [List.foldlM_append, hbefore]
  exact hone

/-- Up to the final event of the run, the agent has the chaos data of the run. -/
theorem exists_sendAll (hnodes : ∀ arrival ∈ arrivals, arrival.event.nodes.isSome) (hstart : eventMap uid = none)
    (hlists : RunListsNodes uid arrivals) :
    ∃ after, sendAll isPrint codec clusterData eventMap arrivals = .ok after ∧
      ((∀ event ∈ eventsOf uid arrivals, event.finishedAt = []) → Holds (eventsOf uid arrivals) (after uid)) := by
  induction arrivals using List.reverseRecOn with
  | nil => exact ⟨eventMap, rfl, fun _ _ _ h => nomatch h⟩
  | append_singleton front arrival ih =>
      have hlistsFront : RunListsNodes uid front := by
        rintro before next back rfl
        exact hlists before next (back ++ [arrival]) (by simp)
      obtain ⟨before, hbefore, hholds⟩ := ih (fun a ha => hnodes a (List.mem_append_left _ ha)) hlistsFront
      obtain ⟨update, hupdate, hnode, -, hmap⟩ := prepareUpdate_spec isPrint codec clusterData arrival.order before
        (hnodes arrival (List.mem_append_right _ (List.mem_singleton_self _)))
      refine ⟨update.eventMap, ?_, fun hopen => ?_⟩
      · exact sendAll_append isPrint codec clusterData hbefore hupdate
      · rw [eventsOf_append] at hopen ⊢
        rw [hmap]
        have hfront := hholds fun event h => hopen event (List.mem_append_left _ h)
        by_cases huid : arrival.event.uid = uid
        · subst huid
          rw [if_pos rfl] at hopen ⊢
          have hunfinished := hopen arrival.event (List.mem_append_right _ (List.mem_singleton_self _))
          rw [Function.update_self, if_neg (not_not.mpr hunfinished)]
          exact holds_of_listsNodes hfront (hlists front arrival [] rfl rfl) hnode
        · rw [if_neg huid, List.append_nil, Function.update_of_ne (Ne.symm huid)]
          exact hfront

theorem remembers_iff {front back : List (Arrival R)} {arrival : Arrival R}
    (hnodes : ∀ arrival ∈ arrivals, arrival.event.nodes.isSome) (hstart : eventMap uid = none)
    (hends : EndsOnce uid arrivals) (harrivals : arrivals = front ++ arrival :: back) (huid : arrival.event.uid = uid)
    (hlists : RunListsNodes uid front) :
    (∃ before update, sendAll isPrint codec clusterData eventMap front = .ok before ∧
      prepareUpdate isPrint codec clusterData arrival.order before arrival.event = .ok update ∧
      Remembers (eventsOf uid front) arrival.event update.sent) ↔ ListsNodes (eventsOf uid front) arrival.event := by
  subst harrivals
  obtain ⟨before, hbefore, hholds⟩ := exists_sendAll isPrint codec clusterData
    (fun a ha => hnodes a (List.mem_append_left _ ha)) hstart hlists
  obtain ⟨update, hupdate, hnode, hphase, -⟩ := prepareUpdate_spec isPrint codec clusterData arrival.order before
    (hnodes arrival (List.mem_append_right _ List.mem_cons_self))
  rw [huid] at hnode hphase
  have hiff := remembers_iff_listsNodes (hholds (hends front arrival back rfl huid)) hnode hphase
  constructor
  · rintro ⟨before', update', hbefore', hupdate', hremembers⟩
    obtain rfl := Except.ok.inj (hbefore.symm.trans hbefore')
    obtain rfl := Except.ok.inj (hupdate.symm.trans hupdate')
    exact hiff.mp hremembers
  · intro hlisted
    exact ⟨before, update, hbefore, hupdate, hiff.mpr hlisted⟩

theorem RunListsNodes.front {front back : List (Arrival R)} (h : RunListsNodes uid (front ++ back)) :
    RunListsNodes uid front := by
  rintro before next rest rfl
  exact h before next (rest ++ back) (by simp)

theorem runRemembers_iff (hnodes : ∀ arrival ∈ arrivals, arrival.event.nodes.isSome) (hstart : eventMap uid = none)
    (hends : EndsOnce uid arrivals) :
    RunRemembers isPrint codec clusterData uid eventMap arrivals ↔ RunListsNodes uid arrivals := by
  constructor
  · intro hremembers
    -- the arrivals before one list the nodes, so that the agent has the chaos data when it comes
    have hfronts : ∀ front back, arrivals = front ++ back → RunListsNodes uid front := by
      intro front
      induction front using List.reverseRecOn with
      | nil => exact fun _ _ front arrival back h => absurd h (by simp)
      | append_singleton front last ih =>
          intro back harrivals front' arrival back' hsplit huid
          have hbefore := ih (last :: back) (by simpa using harrivals)
          rcases List.eq_nil_or_concat back' with rfl | ⟨back', last', rfl⟩
          · obtain ⟨rfl, hlast⟩ := List.append_inj' hsplit rfl
            obtain rfl : last = arrival := by simpa using hlast
            have hall : arrivals = front ++ last :: back := by simpa using harrivals
            exact (remembers_iff isPrint codec clusterData hnodes hstart hends hall huid hbefore).mp
              (hremembers front last back hall huid)
          · have hshort : front = front' ++ arrival :: back' := by
              have hconcat : front ++ [last] = (front' ++ arrival :: back') ++ [last'] := by simpa using hsplit
              exact (List.append_inj' hconcat rfl).1
            exact hbefore front' arrival back' hshort huid
    exact hfronts arrivals [] (List.append_nil _).symm
  · intro hlists front arrival back harrivals huid
    have hfront : RunListsNodes uid front := RunListsNodes.front (harrivals ▸ hlists)
    exact (remembers_iff isPrint codec clusterData hnodes hstart hends harrivals huid hfront).mpr
      (hlists front arrival back harrivals huid)

end Runs

/-! ### Runs of two events -/

def arrivalOf (nodes : GoMap (Node Unit)) : Arrival Unit :=
  ⟨.asStored, { (WorkflowEvent.empty : WorkflowEvent Unit) with nodes := some nodes }⟩

def engineNode (chaosExp : Option (ChaosData Unit)) : Node Unit :=
  { (Node.zero : Node Unit) with name := ofString "pod-delete", type := chaosEngineKind, chaosExp := chaosExp }

def noFields : ChaosData Unit := ⟨[], [], [], [], [], [], [], [], [], [], [], [], none⟩

def withEngine (chaosExp : Option (ChaosData Unit)) : Arrival Unit :=
  arrivalOf (AList.singleton [] (engineNode chaosExp))

theorem latest_withEngine (key : Text) :
    latest key (eventsOf [] [withEngine (some noFields)]) =
      if key = [] then some (engineNode (some noFields)) else none := by
  by_cases hkey : key = []
  · subst hkey
    rfl
  · have hnone : (withEngine (some noFields)).event.node? key = none := by
      have hnotMem : key ∉ (AList.singleton [] (engineNode (some noFields)) : GoMap (Node Unit)) :=
        fun h => hkey (List.mem_singleton.mp h)
      exact AList.lookup_eq_none.mpr hnotMem
    rw [if_neg hkey, eventsOf]
    change latest key ([] ++ [(withEngine (some noFields)).event]) = none
    rw [latest_append, hnone]
    rfl

theorem isSome_nodes_pair (nodes nodes' : GoMap (Node Unit)) :
    ∀ arrival ∈ [arrivalOf nodes, arrivalOf nodes'], arrival.event.nodes.isSome := by
  intro arrival harrival
  rcases List.mem_pair.mp harrival with rfl | rfl <;> rfl

theorem endsOnce_pair (nodes nodes' : GoMap (Node Unit)) : EndsOnce [] [arrivalOf nodes, arrivalOf nodes'] := by
  apply Transition.forall_front_pair
  · exact fun _ _ h => nomatch h
  · intro _ event hevent
    obtain rfl : event = (arrivalOf nodes).event := List.mem_singleton.mp hevent
    rfl

/-- The second event has the node, but not its chaos data. -/
theorem runRemembers_listed : RunRemembers (fun _ => true) emptyCodec ⟨[], [], []⟩ [] (fun _ => none)
    [withEngine (some noFields), withEngine none] := by
  refine (runRemembers_iff (fun _ => true) emptyCodec ⟨[], [], []⟩ (isSome_nodes_pair _ _) rfl
    (endsOnce_pair _ _)).mpr (Transition.forall_front_pair ?_ ?_)
  · exact fun _ _ _ h => nomatch h
  · intro _ key node hlatest
    have hengine := (latest_withEngine key).symm.trans hlatest
    split_ifs at hengine with hkey
    obtain rfl := Option.some.inj hengine
    subst hkey
    exact ⟨engineNode none, rfl, rfl, rfl⟩

def RunsRemember : Prop :=
  ∀ (R : Type) (isPrint : Char → Bool) (codec : ChaosResultCodec R) (clusterData : Identity) (uid : Text)
    (eventMap : EventMap R) (arrivals : List (Arrival R)), (∀ arrival ∈ arrivals, arrival.event.nodes.isSome) →
    eventMap uid = none → EndsOnce uid arrivals → RunRemembers isPrint codec clusterData uid eventMap arrivals

/-- A node that the second event does not have is sent without its name and its type. -/
theorem not_runsRemember : ¬ RunsRemember := by
  intro h
  have hremembers := h Unit (fun _ => true) emptyCodec ⟨[], [], []⟩ [] (fun _ => none)
    [withEngine (some noFields), arrivalOf ∅] (isSome_nodes_pair _ _) rfl (endsOnce_pair _ _)
    [withEngine (some noFields)] (arrivalOf ∅) [] rfl rfl
  have hfront : RunListsNodes [] [withEngine (some noFields)] := by
    refine Transition.forall_front_cons (fun _ _ _ h => nomatch h) fun front arrival back h => ?_
    exact absurd h (by simp)
  have hlists := (remembers_iff (fun _ => true) emptyCodec ⟨[], [], []⟩ (isSome_nodes_pair _ _) rfl
    (endsOnce_pair _ _) rfl rfl hfront).mp hremembers
  obtain ⟨own, hown, -⟩ := hlists [] (engineNode (some noFields)) (latest_withEngine [])
  cases hown

end LitmusPortal.Agent
