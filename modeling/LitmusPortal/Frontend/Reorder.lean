import LitmusPortal.Lib.Splice
import Mathlib.Data.List.Nodup

/-!
# Moving a step

`reorder` and `reorderSteps` of the workflow sequence: a step is dragged to another place of its group or of another
one. A read past the end of an array, or of a group that there is not, is `none`. A move is a removal and an insertion,
each of which undoes the other at one place.
-/

namespace LitmusPortal.WorkflowSequence

open Splice

structure ManifestSteps where
  name : String
  template : String
  deriving DecidableEq, Repr

/-- An object with a group of steps under each key. -/
structure StepType where
  groups : List (String × List ManifestSteps)
  nodup : (groups.map Prod.fst).Nodup
  deriving DecidableEq

structure DraggableLocation where
  droppableId : String
  index : ℕ
  deriving DecidableEq, Repr

def setKey (groups : List (String × List ManifestSteps)) (key : String) (group : List ManifestSteps) :
    List (String × List ManifestSteps) :=
  groups.map fun entry => if entry.1 = key then (key, group) else entry

theorem map_fst_setKey (groups : List (String × List ManifestSteps)) (key : String) (group : List ManifestSteps) :
    (setKey groups key group).map Prod.fst = groups.map Prod.fst := by
  rw [setKey, List.map_map]
  refine List.map_congr_left fun entry _ => ?_
  by_cases hkey : entry.1 = key
  · rw [Function.comp, if_pos hkey, hkey]
  · rw [Function.comp, if_neg hkey]

namespace StepType

def get (steps : StepType) (key : String) : Option (List ManifestSteps) := steps.groups.lookup key

/-- `{...steps, [key]: group}` for a key that is there. -/
def set (steps : StepType) (key : String) (group : List ManifestSteps) : StepType where
  groups := setKey steps.groups key group
  nodup := by
    rw [map_fst_setKey]
    exact steps.nodup

/-- The steps of all groups, in order. -/
def allSteps (steps : StepType) : List ManifestSteps := steps.groups.flatMap Prod.snd

end StepType

def reorder (list : List ManifestSteps) (startIndex endIndex : ℕ) : Option (List ManifestSteps) := do
  let result := splice list startIndex 1 []
  let removed ← list[startIndex]?
  return splice result endIndex 0 [removed]

def reorderSteps (steps : StepType) (source destination : DraggableLocation) : Option StepType := do
  let current ← steps.get source.droppableId
  let next ← steps.get destination.droppableId
  let target ← current[source.index]?
  if source.droppableId = destination.droppableId then
    let reordered ← reorder current source.index destination.index
    return steps.set source.droppableId reordered
  else
    let current := splice current source.index 1 []
    let next := splice next destination.index 0 [target]
    return (steps.set source.droppableId current).set destination.droppableId next

/-! ### Groups -/

namespace StepType

variable {steps : StepType} {key other : String} {group group' : List ManifestSteps}

theorem ext_groups {left right : StepType} (h : left.groups = right.groups) : left = right := by
  obtain ⟨groups, _⟩ := left
  obtain ⟨groups', _⟩ := right
  obtain rfl : groups = groups' := h
  rfl

theorem lookup_setKey (groups : List (String × List ManifestSteps)) (key other : String)
    (group : List ManifestSteps) :
    (setKey groups key group).lookup other =
      if other = key then (groups.lookup key).map fun _ => group else groups.lookup other := by
  induction groups with
  | nil => simp [setKey]
  | cons entry groups ih =>
      obtain ⟨head, value⟩ := entry
      rw [setKey, List.map_cons, ← setKey]
      by_cases hother : other = head
      · by_cases hhead : head = key
        · simp [hother, hhead]
        · simp [hother, hhead]
      · have hne : (other == head) = false := by simpa using hother
        by_cases hhead : head = key
        · subst hhead
          rw [if_pos rfl, List.lookup_cons, hne, ih, if_neg hother, if_neg hother, List.lookup_cons, hne]
        · have hkey : (key == head) = false := by simpa using Ne.symm hhead
          rw [if_neg hhead, List.lookup_cons, hne, ih, List.lookup_cons, hkey, List.lookup_cons, hne]

theorem get_set_self (h : steps.get key = some group) : (steps.set key group').get key = some group' := by
  have hlookup := lookup_setKey steps.groups key key group'
  rw [if_pos rfl, ← get, h] at hlookup
  exact hlookup

theorem get_set_ne (h : other ≠ key) : (steps.set key group').get other = steps.get other := by
  have hlookup := lookup_setKey steps.groups key other group'
  rw [if_neg h] at hlookup
  exact hlookup

theorem set_set (steps : StepType) (key : String) (group group' : List ManifestSteps) :
    (steps.set key group).set key group' = steps.set key group' := by
  apply ext_groups
  change setKey (setKey steps.groups key group) key group' = setKey steps.groups key group'
  rw [setKey, setKey, setKey, List.map_map]
  refine List.map_congr_left fun entry _ => ?_
  by_cases hkey : entry.1 = key
  · rw [Function.comp, if_pos hkey, if_pos rfl, if_pos hkey]
  · rw [Function.comp, if_neg hkey, if_neg hkey]

theorem mem_of_lookup {groups : List (String × List ManifestSteps)} (h : groups.lookup key = some group) :
    (key, group) ∈ groups := by
  induction groups with
  | nil => cases h
  | cons entry groups ih =>
      obtain ⟨head, value⟩ := entry
      rw [List.lookup_cons] at h
      cases hhead : key == head with
      | true =>
          rw [hhead] at h
          obtain rfl := Option.some.inj h
          rw [beq_iff_eq] at hhead
          exact hhead ▸ List.mem_cons_self
      | false =>
          rw [hhead] at h
          exact List.mem_cons_of_mem _ (ih h)

theorem set_get (h : steps.get key = some group) : steps.set key group = steps := by
  have hmem := mem_of_lookup h
  apply ext_groups
  calc
    setKey steps.groups key group = steps.groups.map id := by
      refine List.map_congr_left fun entry hentry => ?_
      by_cases hkey : entry.1 = key
      · rw [if_pos hkey]
        exact List.inj_on_of_nodup_map steps.nodup hmem hentry hkey.symm
      · rw [if_neg hkey]
        rfl
    _ = steps.groups := List.map_id _

end StepType

/-! ### One step out, one step in -/

namespace StepType

def stepAt (steps : StepType) (location : DraggableLocation) : Option ManifestSteps := do
  let group ← steps.get location.droppableId
  group[location.index]?

def remove (steps : StepType) (location : DraggableLocation) : StepType :=
  match steps.get location.droppableId with
  | none => steps
  | some group => steps.set location.droppableId (group.eraseIdx location.index)

def insert (steps : StepType) (location : DraggableLocation) (step : ManifestSteps) : StepType :=
  match steps.get location.droppableId with
  | none => steps
  | some group => steps.set location.droppableId (splice group location.index 0 [step])

/-- A step can be put in at the place: the group is there and is not shorter. -/
def HasPlace (steps : StepType) (location : DraggableLocation) : Prop :=
  ∃ group, steps.get location.droppableId = some group ∧ location.index ≤ group.length

variable {steps : StepType} {location : DraggableLocation} {step : ManifestSteps} {group : List ManifestSteps}

theorem stepAt_eq_some (h : steps.stepAt location = some step) :
    ∃ group, steps.get location.droppableId = some group ∧ group[location.index]? = some step :=
  Option.bind_eq_some_iff.mp h

theorem remove_eq (h : steps.get location.droppableId = some group) :
    steps.remove location = steps.set location.droppableId (group.eraseIdx location.index) := by
  rw [remove, h]

theorem insert_eq (h : steps.get location.droppableId = some group) :
    steps.insert location step = steps.set location.droppableId (splice group location.index 0 [step]) := by
  rw [insert, h]

theorem stepAt_insert (h : steps.HasPlace location) : (steps.insert location step).stepAt location = some step := by
  obtain ⟨group, hget, hle⟩ := h
  rw [insert_eq hget, stepAt, get_set_self hget]
  exact getElem?_splice_insert hle step

theorem remove_insert (h : steps.HasPlace location) : (steps.insert location step).remove location = steps := by
  obtain ⟨group, hget, hle⟩ := h
  rw [insert_eq hget, remove_eq (get_set_self hget), set_set, eraseIdx_splice_insert hle]
  exact set_get hget

theorem insert_remove (h : steps.stepAt location = some step) : (steps.remove location).insert location step = steps := by
  obtain ⟨group, hget, hstep⟩ := stepAt_eq_some h
  rw [remove_eq hget, insert_eq (get_set_self hget), set_set, splice_insert_eraseIdx hstep]
  exact set_get hget

theorem get_remove_ne {key : String} (h : key ≠ location.droppableId) :
    (steps.remove location).get key = steps.get key := by
  rw [remove]
  cases steps.get location.droppableId with
  | none => rfl
  | some group => exact get_set_ne h

theorem get_insert_ne {key : String} (h : key ≠ location.droppableId) :
    (steps.insert location step).get key = steps.get key := by
  rw [insert]
  cases steps.get location.droppableId with
  | none => rfl
  | some group => exact get_set_ne h

theorem hasPlace_remove (h : steps.stepAt location = some step) : (steps.remove location).HasPlace location := by
  obtain ⟨group, hget, hstep⟩ := stepAt_eq_some h
  obtain ⟨hlt, -⟩ := List.getElem?_eq_some_iff.mp hstep
  refine ⟨_, (remove_eq hget).symm ▸ get_set_self hget, ?_⟩
  rw [List.length_eraseIdx_of_lt hlt]
  omega

theorem keys_set (key : String) : (steps.set key group).groups.map Prod.fst = steps.groups.map Prod.fst :=
  map_fst_setKey _ _ _

theorem keys_remove : (steps.remove location).groups.map Prod.fst = steps.groups.map Prod.fst := by
  rw [remove]
  cases steps.get location.droppableId with
  | none => rfl
  | some group => exact keys_set _

theorem keys_insert : (steps.insert location step).groups.map Prod.fst = steps.groups.map Prod.fst := by
  rw [insert]
  cases steps.get location.droppableId with
  | none => rfl
  | some group => exact keys_set _

theorem setKey_of_notMem {groups : List (String × List ManifestSteps)} {key : String}
    (h : key ∉ groups.map Prod.fst) : setKey groups key group = groups := by
  calc
    setKey groups key group = groups.map id := by
      refine List.map_congr_left fun entry hentry => ?_
      have hne : entry.1 ≠ key := fun heq => h (heq ▸ List.mem_map_of_mem hentry)
      rw [if_neg hne]
      rfl
    _ = groups := List.map_id _

theorem perm_flatMap_setKey {groups : List (String × List ManifestSteps)} {key : String} {smaller : List ManifestSteps}
    (hnodup : (groups.map Prod.fst).Nodup) (hlookup : groups.lookup key = some group)
    (hperm : (step :: smaller).Perm group) :
    (step :: (setKey groups key smaller).flatMap Prod.snd).Perm (groups.flatMap Prod.snd) := by
  induction groups with
  | nil => cases hlookup
  | cons entry groups ih =>
      obtain ⟨head, value⟩ := entry
      obtain ⟨hnotMem, hrest⟩ := List.nodup_cons.mp hnodup
      rw [List.lookup_cons] at hlookup
      by_cases hhead : key = head
      · subst hhead
        rw [beq_self_eq_true] at hlookup
        obtain rfl := Option.some.inj hlookup
        have htail : setKey ((key, value) :: groups) key smaller = (key, smaller) :: groups := by
          rw [setKey, List.map_cons, if_pos rfl, ← setKey, setKey_of_notMem hnotMem]
        rw [htail, List.flatMap_cons, List.flatMap_cons]
        exact hperm.append_right _
      · have hbeq : (key == head) = false := by simpa using hhead
        rw [hbeq] at hlookup
        have htail : setKey ((head, value) :: groups) key smaller = (head, value) :: setKey groups key smaller := by
          rw [setKey, List.map_cons, if_neg (Ne.symm hhead), ← setKey]
        rw [htail, List.flatMap_cons, List.flatMap_cons]
        exact List.perm_middle.symm.trans ((ih hrest hlookup).append_left _)

theorem perm_remove (h : steps.stepAt location = some step) :
    (step :: (steps.remove location).allSteps).Perm steps.allSteps := by
  obtain ⟨group, hget, hstep⟩ := stepAt_eq_some h
  rw [remove_eq hget]
  exact perm_flatMap_setKey steps.nodup hget (perm_cons_eraseIdx hstep)

end StepType

/-! ### A move -/

section Move

variable {steps result : StepType} {source destination : DraggableLocation} {target : ManifestSteps}

theorem reorderSteps_eq (hsource : steps.stepAt source = some target)
    (hdestination : (steps.remove source).HasPlace destination) :
    reorderSteps steps source destination = some ((steps.remove source).insert destination target) := by
  obtain ⟨current, hcurrent, htarget⟩ := StepType.stepAt_eq_some hsource
  obtain ⟨next, hnext, -⟩ := hdestination
  rw [StepType.insert_eq hnext]
  by_cases hsame : source.droppableId = destination.droppableId
  · rw [← hsame, StepType.remove_eq hcurrent, StepType.get_set_self hcurrent] at hnext
    obtain rfl := Option.some.inj hnext
    rw [← hsame, StepType.remove_eq hcurrent, StepType.set_set]
    simp [reorderSteps, reorder, ← hsame, hcurrent, htarget, splice_remove]
  · rw [StepType.get_remove_ne (Ne.symm hsame)] at hnext
    rw [StepType.remove_eq hcurrent]
    simp [reorderSteps, hsame, hcurrent, hnext, htarget, splice_remove]

/-- Both places are there. In the group that the step leaves there is one place less. -/
def InRange (steps : StepType) (source destination : DraggableLocation) : Prop :=
  ∃ current next, steps.get source.droppableId = some current ∧ steps.get destination.droppableId = some next ∧
    source.index < current.length ∧
      if source.droppableId = destination.droppableId then destination.index < next.length
      else destination.index ≤ next.length

theorem InRange.stepAt (h : InRange steps source destination) : ∃ target, steps.stepAt source = some target := by
  obtain ⟨current, next, hcurrent, -, hlt, -⟩ := h
  refine ⟨current[source.index], ?_⟩
  rw [StepType.stepAt, hcurrent]
  exact List.getElem?_eq_getElem hlt

theorem InRange.hasPlace (h : InRange steps source destination) : (steps.remove source).HasPlace destination := by
  obtain ⟨current, next, hcurrent, hnext, hlt, hplace⟩ := h
  by_cases hsame : source.droppableId = destination.droppableId
  · rw [if_pos hsame] at hplace
    rw [← hsame, hcurrent] at hnext
    obtain rfl := Option.some.inj hnext
    refine ⟨current.eraseIdx source.index, ?_, ?_⟩
    · rw [StepType.remove_eq hcurrent, ← hsame]
      exact StepType.get_set_self hcurrent
    · rw [List.length_eraseIdx_of_lt hlt]
      omega
  · rw [if_neg hsame] at hplace
    refine ⟨next, ?_, hplace⟩
    rw [StepType.get_remove_ne (Ne.symm hsame)]
    exact hnext

/-- What a move does: `result` is `steps` with one step at another place. -/
structure Moved (steps result : StepType) (source destination : DraggableLocation) : Prop where
  keys : result.groups.map Prod.fst = steps.groups.map Prod.fst
  sameSteps : result.allSteps.Perm steps.allSteps
  moved : ∃ target, steps.stepAt source = some target ∧ result.stepAt destination = some target
  otherGroups : ∀ key, key ≠ source.droppableId → key ≠ destination.droppableId → result.get key = steps.get key
  otherSteps : result.remove destination = steps.remove source
  back : reorderSteps result destination source = some steps

theorem moved_of_stepAt (hsource : steps.stepAt source = some target)
    (hdestination : (steps.remove source).HasPlace destination) :
    Moved steps ((steps.remove source).insert destination target) source destination := by
  have htarget : ((steps.remove source).insert destination target).stepAt destination = some target :=
    StepType.stepAt_insert hdestination
  have hremove : ((steps.remove source).insert destination target).remove destination = steps.remove source :=
    StepType.remove_insert hdestination
  refine ⟨?_, ?_, ⟨target, hsource, htarget⟩, ?_, hremove, ?_⟩
  · exact StepType.keys_insert.trans StepType.keys_remove
  · have hresult := StepType.perm_remove htarget
    rw [hremove] at hresult
    exact hresult.symm.trans (StepType.perm_remove hsource)
  · intro key hkey hkey'
    rw [StepType.get_insert_ne hkey', StepType.get_remove_ne hkey]
  · rw [reorderSteps_eq htarget (hremove.symm ▸ StepType.hasPlace_remove hsource), hremove,
      StepType.insert_remove hsource]

theorem reorderSteps_moves (steps : StepType) (source destination : DraggableLocation)
    (h : InRange steps source destination) :
    ∃ result, reorderSteps steps source destination = some result ∧ Moved steps result source destination := by
  obtain ⟨target, htarget⟩ := h.stepAt
  exact ⟨_, reorderSteps_eq htarget h.hasPlace, moved_of_stepAt htarget h.hasPlace⟩

end Move

def podDelete : ManifestSteps := ⟨"pod-delete", "pod-delete"⟩

def cpuHog : ManifestSteps := ⟨"cpu-hog", "cpu-hog"⟩

/-- A step that is alone in its group is dragged behind another. -/
theorem reorderSteps_moves_alone :
    ∃ result, reorderSteps ⟨[("0", [podDelete]), ("1", [cpuHog])], by decide⟩ ⟨"0", 0⟩ ⟨"1", 1⟩ = some result ∧
      Moved ⟨[("0", [podDelete]), ("1", [cpuHog])], by decide⟩ result ⟨"0", 0⟩ ⟨"1", 1⟩ :=
  reorderSteps_moves _ _ _ ⟨[podDelete], [cpuHog], rfl, rfl, by decide, by decide⟩

end LitmusPortal.WorkflowSequence
