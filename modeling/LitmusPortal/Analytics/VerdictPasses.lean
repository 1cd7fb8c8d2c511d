import LitmusPortal.Analytics.Verdicts
import LitmusPortal.Lib.Growth

/-!
# A verdict over the events

What one verdict leaves of the events of a response: where its legend stands, the sub-data is patched, except that the
first of several events takes over that of the last; the other events stay as they were.
-/

namespace LitmusPortal.Prometheus

open Removal Growth

variable {F : Type} {cmp : Comparison F}

/-! ### Sub-data -/

section SubData

/-- What a sub-data is found by. -/
def SubData.key (subData : SubData F) : F × String := (subData.date, subData.subDataName)

def keys (data : List (SubData F)) : List (F × String) := data.map SubData.key

theorem length_keys (data : List (SubData F)) : (keys data).length = data.length := List.length_map _

theorem matches_congr {subData subData' : SubData F} (h : subData.key = subData'.key) (verdictSubData : SubData F) :
    subData.matches cmp verdictSubData = subData'.matches cmp verdictSubData := by
  obtain ⟨hdate, hname⟩ := Prod.mk.inj h
  rw [SubData.matches, SubData.matches, hdate, hname]

theorem setValue_eq_some {data data' : List (SubData F)} {index : ℕ} {value : List UInt8}
    (h : setValue data index value = some data') :
    data' = data.modify index fun subData => { subData with value := value } := by
  rw [setValue] at h
  split at h
  · exact (Option.some.inj h).symm
  · cases h

/-- A verdict sets the values at the places where the copy has a sub-data like it. -/
theorem getElem?_patchValue {events data data' : List (SubData F)} {verdictSubData : SubData F}
    (h : patchValue cmp events data verdictSubData = some data') (k : ℕ) :
    data'[k]? = data[k]?.map fun subData =>
      if events[k]?.any (·.matches cmp verdictSubData) then { subData with value := verdictSubData.value }
      else subData := by
  induction events using List.reverseRecOn generalizing data' with
  | nil =>
      obtain rfl := Option.some.inj h
      simp
  | append_singleton events event ih =>
      rw [patchValue, List.zipIdx_append, List.foldlM_append] at h
      obtain ⟨before, hbefore, hlast⟩ := Option.bind_eq_some_iff.mp h
      have ih := ih hbefore
      have hlast : (if event.matches cmp verdictSubData then setValue before events.length verdictSubData.value
          else some before) = some data' := by simpa using hlast
      rcases Nat.lt_trichotomy k events.length with hk | rfl | hk
      · rw [List.getElem?_append_left hk, ← ih]
        split at hlast
        · rw [setValue_eq_some hlast, List.getElem?_modify_ne _ _ (by omega)]
        · rw [Option.some.inj hlast]
      · have hnone : events[events.length]? = none := List.getElem?_eq_none (Nat.le_refl _)
        rw [hnone] at ih
        have hat : (events ++ [event])[events.length]? = some event := by simp
        rw [hat]
        split at hlast
        · next hmatches =>
            rw [setValue_eq_some hlast, List.getElem?_modify_eq, ih]
            simp [hmatches]
        · next hmatches =>
            rw [← Option.some.inj hlast, ih]
            simp [hmatches]
      · have hnone : events[k]? = none := List.getElem?_eq_none (Nat.le_of_lt hk)
        have hnone' : (events ++ [event])[k]? = none := List.getElem?_eq_none (by simpa using Nat.succ_le_of_lt hk)
        rw [hnone] at ih
        rw [hnone', ← ih]
        split at hlast
        · rw [setValue_eq_some hlast, List.getElem?_modify_ne _ _ (by omega)]
        · rw [Option.some.inj hlast]

theorem keys_patchValue {events data data' : List (SubData F)} {verdictSubData : SubData F}
    (h : patchValue cmp events data verdictSubData = some data') : keys data' = keys data := by
  apply List.ext_getElem?
  intro k
  rw [keys, keys, List.getElem?_map, List.getElem?_map, getElem?_patchValue h k]
  cases data[k]? with
  | none => rfl
  | some subData =>
      rw [Option.map_some, Option.map_some, Option.map_some]
      split <;> rfl

theorem patchValue_total {events data : List (SubData F)} (h : events.length ≤ data.length)
    (verdictSubData : SubData F) : ∃ data', patchValue cmp events data verdictSubData = some data' := by
  have hloop := @foldlM_total _ _
    (fun (data : List (SubData F)) (event : SubData F × ℕ) =>
      if event.1.matches cmp verdictSubData then setValue data event.2 verdictSubData.value else some data)
    (fun _ now => now.length = data.length) events.zipIdx data (fun front event back now hitems hnow => ?_) rfl
  · obtain ⟨data', hdata', -⟩ := hloop
    exact ⟨data', hdata'⟩
  · split
    · have hmem : event ∈ events.zipIdx := hitems ▸ by simp
      have hlt := List.snd_lt_of_mem_zipIdx hmem
      refine ⟨now.modify event.2 fun subData => { subData with value := verdictSubData.value }, ?_, ?_⟩
      · exact if_pos (by omega)
      · rw [List.length_modify, hnow]
    · exact ⟨now, rfl, hnow⟩

theorem patchSubData_eq_some {events : Option (List (SubData F))} {verdict data data' : List (SubData F)}
    (h : patchSubData cmp events verdict data = some data') :
    ∃ valued, keys valued = keys data ∧
      verdict.foldlM (fun data verdictSubData => do
        let events ← events
        patchValue cmp events data verdictSubData) data = some valued ∧
      data' = valued ++ verdict.filter fun verdictSubData =>
        !(events.getD []).any (·.matches cmp verdictSubData) && cmp.positive verdictSubData.date := by
  obtain ⟨valued, hvalued, hdata'⟩ := Option.bind_eq_some_iff.mp h
  refine ⟨valued, ?_, hvalued, (Option.some.inj hdata').symm⟩
  refine @foldlM_invariant _ _ _ (fun _ now => keys now = keys data) _ _ _ ?_ rfl hvalued
  intro _ _ _ now next _ hnow hnext
  obtain ⟨events, -, hvalue⟩ := Option.bind_eq_some_iff.mp hnext
  exact (keys_patchValue hvalue).trans hnow

theorem keys_patchSubData {events : Option (List (SubData F))} {verdict data data' : List (SubData F)}
    (h : patchSubData cmp events verdict data = some data') : keys data <+: keys data' := by
  obtain ⟨valued, hkeys, -, rfl⟩ := patchSubData_eq_some h
  rw [← hkeys, keys, keys, List.map_append]
  exact List.prefix_append _ _

theorem patchSubData_total {events data : List (SubData F)} (h : events.length ≤ data.length)
    (verdict : List (SubData F)) : ∃ data', patchSubData cmp (some events) verdict data = some data' := by
  have hloop := @foldlM_total _ _ (fun now verdictSubData => patchValue cmp events now verdictSubData)
    (fun _ now => keys now = keys data) verdict data (fun _ verdictSubData _ now _ hnow => ?_) rfl
  · obtain ⟨valued, hvalued, -⟩ := hloop
    refine ⟨valued ++ verdict.filter fun verdictSubData =>
      !events.any (·.matches cmp verdictSubData) && cmp.positive verdictSubData.date, ?_⟩
    exact Option.bind_eq_some_iff.mpr ⟨valued, hvalued, rfl⟩
  · have hlength : now.length = data.length := by rw [← length_keys, hnow, length_keys]
    obtain ⟨next, hnext⟩ := @patchValue_total _ cmp events now (by omega) verdictSubData
    exact ⟨next, hnext, (keys_patchValue hnext).trans hnow⟩

end SubData

/-! ### One event -/

section Event

@[simp] theorem setSubData_legends (patching : Patching F) (index : ℕ) (data : List (SubData F)) :
    (patching.setSubData index data).response.legends = patching.response.legends := rfl

@[simp] theorem setSubData_tsvs (patching : Patching F) (index : ℕ) (data : List (SubData F)) :
    (patching.setSubData index data).response.tsvs = patching.response.tsvs := rfl

@[simp] theorem setSubData_subDataArray (patching : Patching F) (index : ℕ) (data : List (SubData F)) :
    (patching.setSubData index data).response.subDataArray = patching.response.subDataArray.set index data := rfl

theorem noteDuplicate_eq (patching : Patching F) (index : ℕ) :
    patching.noteDuplicate index =
      { patching with duplicateEventIndices := (patching.noteDuplicate index).duplicateEventIndices } := by
  rw [Patching.noteDuplicate]
  split <;> rfl

theorem duplicateEventIndices_noteDuplicate {patching : Patching F} {noted : List ℕ}
    (h : patching.duplicateEventIndices = noted.zipIdx) (index : ℕ) :
    (patching.noteDuplicate index).duplicateEventIndices = (note noted index).zipIdx := by
  rw [note_zipIdx, Patching.noteDuplicate, h]
  split
  · exact h
  · rfl

variable (cmp) in
/-- What the sub-data of an event becomes under a verdict. -/
def Patching.patched (verdictSubData : Option (List (SubData F))) (patching : Patching F) (index : ℕ) :
    Option (List (SubData F)) := do
  let verdictSubData ← verdictSubData
  let data ← patching.response.subDataArray[index]?
  patchSubData cmp patching.seen[index]? verdictSubData data

theorem patchEvent_first (verdictSubData : Option (List (SubData F))) (patching : Patching F) (index : ℕ) :
    patchEvent cmp verdictSubData patching none index =
      (patching.patched cmp verdictSubData index).map (patching.setSubData index) := by
  rw [patchEvent, Patching.patched]
  cases verdictSubData with
  | none => rfl
  | some verdict =>
      cases hdata : patching.response.subDataArray[index]? with
      | none => simp [hdata]
      | some data => cases hpatched : patchSubData cmp patching.seen[index]? verdict data <;> simp [hdata, hpatched]

theorem patchEvent_later (verdictSubData : Option (List (SubData F))) (patching : Patching F) (first index : ℕ) :
    patchEvent cmp verdictSubData patching (some first) index =
      (patching.patched cmp verdictSubData index).bind fun data =>
        ((patching.noteDuplicate index).setSubData index data).merge cmp first index := by
  have hresponse : (patching.noteDuplicate index).response = patching.response := by rw [noteDuplicate_eq]
  have hseen : (patching.noteDuplicate index).seen = patching.seen := by
    rw [noteDuplicate_eq]
    rfl
  rw [patchEvent, Patching.patched]
  simp only [Option.isSome_some, ↓reduceIte, hresponse, hseen]
  cases verdictSubData with
  | none => rfl
  | some verdict =>
      cases hdata : patching.response.subDataArray[index]? with
      | none => rfl
      | some data => cases hpatched : patchSubData cmp patching.seen[index]? verdict data <;> simp [hpatched]

theorem merge_eq_some {patching next : Patching F} {first index : ℕ} (h : patching.merge cmp first index = some next) :
    ∃ tsv value rest data, patching.response.tsvs[first]? = some tsv ∧
      patching.response.tsvs[index]? = some (value :: rest) ∧
      patching.response.subDataArray[index]? = some data ∧
      next = { patching with
        response := { patching.response with
          tsvs :=
            if tsv.any (cmp.same ·.1 value.1) then patching.response.tsvs
            else patching.response.tsvs.set first (tsv ++ value :: rest)
          subDataArray := patching.response.subDataArray.set first data } } := by
  obtain ⟨tsv, htsv, h⟩ := Option.bind_eq_some_iff.mp h
  obtain ⟨duplicate, hduplicate, h⟩ := Option.bind_eq_some_iff.mp h
  obtain ⟨value, hvalue, h⟩ := Option.bind_eq_some_iff.mp h
  obtain ⟨data, hdata, h⟩ := Option.bind_eq_some_iff.mp h
  obtain ⟨rest, rfl⟩ := List.head?_eq_some_iff.mp hvalue
  exact ⟨tsv, value, rest, data, htsv, hduplicate, hdata, (Option.some.inj h).symm⟩

theorem merge_total {patching : Patching F} {first index : ℕ} {tsv : List (F × Int)} {value : F × Int}
    {rest : List (F × Int)} {data : List (SubData F)} (htsv : patching.response.tsvs[first]? = some tsv)
    (hduplicate : patching.response.tsvs[index]? = some (value :: rest))
    (hdata : patching.response.subDataArray[index]? = some data) :
    ∃ next, patching.merge cmp first index = some next := by
  rw [Patching.merge, htsv, hduplicate, hdata]
  exact ⟨_, rfl⟩

end Event

/-! ### The events of a verdict -/

section Events

variable (cmp)

/-- What holds when the verdict has been written into the events at `occurrences`. -/
structure Passed (verdictSubData : Option (List (SubData F))) (before : Patching F) (occurrences : List ℕ)
    (after : Patching F) : Prop where
  queryID : after.response.queryID = before.response.queryID
  legends : after.response.legends = before.response.legends
  stale : after.stale = before.stale
  spare : after.spare = before.spare
  tsvs_length : after.response.tsvs.length = before.response.tsvs.length
  subDataArray_length : after.response.subDataArray.length = before.response.subDataArray.length
  duplicates : ∀ noted, before.duplicateEventIndices = noted.zipIdx →
    after.duplicateEventIndices = (occurrences.tail.foldl note noted).zipIdx
  series : ∀ i, GrowsAt i before.response.tsvs after.response.tsvs
  later : ∀ i, occurrences.head? ≠ some i → after.response.tsvs[i]? = before.response.tsvs[i]?
  merged : ∀ i ∈ occurrences.tail, ∃ value rest, before.response.tsvs[i]? = some (value :: rest)
  untouched : ∀ i ∉ occurrences, after.response.subDataArray[i]? = before.response.subDataArray[i]?
  patched : ∀ i ∈ occurrences, (occurrences.head? = some i → occurrences.getLast? = some i) →
    ∃ data, before.patched cmp verdictSubData i = some data ∧ after.response.subDataArray[i]? = some data
  replaced : ∀ first last, occurrences.head? = some first → occurrences.getLast? = some last →
    after.response.subDataArray[first]? = after.response.subDataArray[last]?

variable {cmp} {verdictSubData : Option (List (SubData F))} {before after next : Patching F} {occurrences : List ℕ}
  {index : ℕ}

theorem passed_nil (verdictSubData : Option (List (SubData F))) (before : Patching F) :
    Passed cmp verdictSubData before [] before where
  queryID := rfl
  legends := rfl
  stale := rfl
  spare := rfl
  tsvs_length := rfl
  subDataArray_length := rfl
  duplicates _ hnoted := hnoted
  series i := GrowsAt.refl i _
  later _ _ := rfl
  merged _ hi := absurd hi List.not_mem_nil
  untouched _ _ := rfl
  patched _ hi := absurd hi List.not_mem_nil
  replaced _ _ hfirst := by cases hfirst

/-- An event that is still to come is seen as it was. -/
theorem Passed.patched_next (h : Passed cmp verdictSubData before occurrences after) (hindex : index ∉ occurrences) :
    after.patched cmp verdictSubData index = before.patched cmp verdictSubData index := by
  have huntouched := h.untouched index hindex
  have hseen : after.seen[index]? = before.seen[index]? := by
    rw [Patching.seen, Patching.seen, h.stale]
    cases before.stale with
    | none => exact huntouched
    | some snapshot => rfl
  rw [Patching.patched, Patching.patched, huntouched, hseen]

theorem patched_eq_some {data : List (SubData F)} (h : before.patched cmp verdictSubData index = some data) :
    ∃ verdict old, verdictSubData = some verdict ∧ before.response.subDataArray[index]? = some old ∧
      patchSubData cmp before.seen[index]? verdict old = some data := by
  obtain ⟨verdict, hverdict, h⟩ := Option.bind_eq_some_iff.mp h
  obtain ⟨old, hold, h⟩ := Option.bind_eq_some_iff.mp h
  exact ⟨verdict, old, hverdict, hold, h⟩

theorem patched_index_lt {data : List (SubData F)} (h : before.patched cmp verdictSubData index = some data) :
    index < before.response.subDataArray.length := by
  obtain ⟨-, old, -, hold, -⟩ := patched_eq_some h
  exact (List.getElem?_eq_some_iff.mp hold).1

theorem Passed.first (h : Passed cmp verdictSubData before [] after)
    (hevent : patchEvent cmp verdictSubData after none index = some next) :
    Passed cmp verdictSubData before [index] next := by
  rw [patchEvent_first, h.patched_next List.not_mem_nil] at hevent
  obtain ⟨data, hdata, rfl⟩ := Option.map_eq_some_iff.mp hevent
  have hlt := patched_index_lt hdata
  rw [← h.subDataArray_length] at hlt
  refine { h with
    subDataArray_length := ?_, duplicates := h.duplicates, later := fun i _ => h.later i (by simp), merged := ?_,
    untouched := ?_, patched := ?_, replaced := ?_ }
  · rw [setSubData_subDataArray, List.length_set, h.subDataArray_length]
  · intro i hi
    cases hi
  · intro i hi
    have hne : index ≠ i := fun heq => hi (by simp [heq])
    rw [setSubData_subDataArray, List.getElem?_set_ne hne]
    exact h.untouched i List.not_mem_nil
  · intro i hi _
    obtain rfl := List.mem_singleton.mp hi
    refine ⟨data, hdata, ?_⟩
    rw [setSubData_subDataArray, List.getElem?_set_self hlt]
  · intro first last hfirst hlast
    obtain rfl := Option.some.inj hfirst
    obtain rfl := Option.some.inj hlast
    rfl

theorem Passed.again {first : ℕ} (h : Passed cmp verdictSubData before occurrences after)
    (hfirst : occurrences.head? = some first) (hindex : ∀ i ∈ occurrences, i < index)
    (hevent : patchEvent cmp verdictSubData after (some first) index = some next) :
    Passed cmp verdictSubData before (occurrences ++ [index]) next := by
  have hmem : first ∈ occurrences := List.mem_of_head? hfirst
  have hne : index ≠ first := Nat.ne_of_gt (hindex first hmem)
  have hhead : (occurrences ++ [index]).head? = some first := by rw [List.head?_append, hfirst]; rfl
  have hlast : (occurrences ++ [index]).getLast? = some index := List.getLast?_concat
  have htail : (occurrences ++ [index]).tail = occurrences.tail ++ [index] :=
    List.tail_append_of_ne_nil (List.ne_nil_of_mem hmem)
  rw [patchEvent_later, h.patched_next fun hmem => Nat.lt_irrefl _ (hindex index hmem)] at hevent
  obtain ⟨data, hdata, hmerge⟩ := Option.bind_eq_some_iff.mp hevent
  have hlt := patched_index_lt hdata
  rw [← h.subDataArray_length] at hlt
  have hresponse : (after.noteDuplicate index).response = after.response := by rw [noteDuplicate_eq]
  obtain ⟨tsv, value, rest, last, htsv, hduplicate, hlastData, rfl⟩ := merge_eq_some hmerge
  rw [setSubData_tsvs, hresponse] at htsv hduplicate
  rw [setSubData_subDataArray, hresponse, List.getElem?_set_self hlt] at hlastData
  obtain rfl := Option.some.inj hlastData
  have hfirstLt : first < (after.response.subDataArray.set index data).length := by
    have := hindex first hmem
    rw [List.length_set]
    omega
  have hkept : ∀ i, first ≠ i → (if tsv.any (cmp.same ·.1 value.1) then after.response.tsvs
      else after.response.tsvs.set first (tsv ++ value :: rest))[i]? = after.response.tsvs[i]? := by
    intro i hi
    split
    · rfl
    · exact List.getElem?_set_ne hi
  constructor
  case queryID => simpa [Patching.setSubData, hresponse] using h.queryID
  case legends => simpa [hresponse] using h.legends
  case stale =>
    rw [noteDuplicate_eq]
    exact h.stale
  case spare =>
    rw [noteDuplicate_eq]
    exact h.spare
  case tsvs_length =>
    simp only [setSubData_tsvs, hresponse, ← h.tsvs_length]
    split
    · rfl
    · exact List.length_set
  case subDataArray_length =>
    simp only [setSubData_subDataArray, hresponse, List.length_set, h.subDataArray_length]
  case duplicates =>
    intro noted hnoted
    rw [htail, List.foldl_append]
    exact duplicateEventIndices_noteDuplicate (h.duplicates noted hnoted) index
  case series =>
    intro i
    refine (h.series i).trans ?_
    simp only [setSubData_tsvs, hresponse]
    by_cases hi : first = i
    · subst hi
      intro row hrow
      obtain rfl := Option.some.inj (htsv.symm.trans hrow)
      split
      · exact ⟨tsv, htsv, List.prefix_refl tsv⟩
      · refine ⟨tsv ++ value :: rest, ?_, List.prefix_append _ _⟩
        exact List.getElem?_set_self (List.getElem?_eq_some_iff.mp htsv).1
    · exact GrowsAt.of_eq (hkept i hi)
  case later =>
    intro i hi
    have hi : first ≠ i := fun heq => hi (heq ▸ hhead)
    simp only [setSubData_tsvs, hresponse]
    rw [hkept i hi]
    exact h.later i fun heq => hi (Option.some.inj (hfirst.symm.trans heq))
  case merged =>
    intro i hi
    rw [htail] at hi
    rcases List.mem_append.mp hi with hi | hi
    · exact h.merged i hi
    · obtain rfl := List.mem_singleton.mp hi
      have hlater := h.later i fun heq => hne (Option.some.inj (heq.symm.trans hfirst))
      exact ⟨value, rest, hlater ▸ hduplicate⟩
  case untouched =>
    intro i hi
    rw [List.mem_append, List.mem_singleton, not_or] at hi
    simp only [setSubData_subDataArray, hresponse]
    have hi' : first ≠ i := fun heq => hi.1 (heq ▸ hmem)
    rw [List.getElem?_set_ne hi', List.getElem?_set_ne (Ne.symm hi.2)]
    exact h.untouched i hi.1
  case patched =>
    intro i hi hnotReplaced
    have hi' : first ≠ i := by
      rintro rfl
      have heq := Option.some.inj ((hnotReplaced hhead).symm.trans hlast)
      exact hne heq.symm
    simp only [setSubData_subDataArray, hresponse]
    rw [List.getElem?_set_ne hi']
    rcases List.mem_append.mp hi with hi | hi
    · rw [List.getElem?_set_ne (Nat.ne_of_gt (hindex i hi))]
      exact h.patched i hi fun heq => absurd (Option.some.inj (hfirst.symm.trans heq)) hi'
    · obtain rfl := List.mem_singleton.mp hi
      exact ⟨data, hdata, List.getElem?_set_self hlt⟩
  case replaced =>
    intro first' last' hfirst' hlast'
    obtain rfl := Option.some.inj (hhead.symm.trans hfirst')
    obtain rfl := Option.some.inj (hlast.symm.trans hlast')
    simp only [setSubData_subDataArray, hresponse]
    rw [List.getElem?_set_self hfirstLt, List.getElem?_set_ne hne.symm, List.getElem?_set_self hlt]

theorem patchEvents_append (verdictLegend : String) (verdictSubData : Option (List (SubData F)))
    (legends : List String) (legend : String) (patching : Patching F) :
    patchEvents cmp verdictLegend verdictSubData (legends ++ [legend]) patching =
      (patchEvents cmp verdictLegend verdictSubData legends patching).bind fun state =>
        if verdictLegend = legend then
          (patchEvent cmp verdictSubData state.1 state.2 legends.length).map fun patching =>
            (patching, some (state.2.getD legends.length))
        else some state := by
  rw [patchEvents, List.zipIdx_append, List.foldlM_append, patchEvents]
  apply Option.bind_congr
  intro state _
  simp

theorem passed_of_patchEvents {verdictLegend : String} {legends : List String} {found : Option ℕ}
    (h : patchEvents cmp verdictLegend verdictSubData legends before = some (after, found)) :
    Passed cmp verdictSubData before (positions legends verdictLegend) after ∧
      found = (positions legends verdictLegend).head? := by
  induction legends using List.reverseRecOn generalizing after found with
  | nil =>
      obtain ⟨rfl, rfl⟩ := Prod.mk.inj (Option.some.inj h)
      exact ⟨passed_nil verdictSubData before, rfl⟩
  | append_singleton legends legend ih =>
      rw [patchEvents_append] at h
      obtain ⟨⟨mid, found'⟩, hmid, hevent⟩ := Option.bind_eq_some_iff.mp h
      obtain ⟨hpassed, rfl⟩ := ih hmid
      rw [positions_append_singleton]
      by_cases hlegend : verdictLegend = legend
      · rw [if_pos hlegend] at hevent
        rw [if_pos hlegend.symm]
        obtain ⟨next, hnext, heq⟩ := Option.map_eq_some_iff.mp hevent
        obtain ⟨rfl, rfl⟩ := Prod.mk.inj heq
        cases hfirst : positions legends verdictLegend with
        | nil =>
            rw [hfirst] at hpassed hnext
            exact ⟨hpassed.first hnext, rfl⟩
        | cons first rest =>
            have hhead : (positions legends verdictLegend).head? = some first := by rw [hfirst]; rfl
            rw [hhead] at hnext
            rw [← hfirst]
            refine ⟨hpassed.again hhead (fun i hi => positions_lt hi) hnext, ?_⟩
            rw [List.head?_append, hhead]
            rfl
      · rw [if_neg hlegend] at hevent
        obtain ⟨rfl, rfl⟩ := Prod.mk.inj (Option.some.inj hevent)
        rw [if_neg (Ne.symm hlegend), List.append_nil]
        exact ⟨hpassed, rfl⟩

/-- No index is out of range when every event can be patched and the later ones have series. -/
theorem patchEvents_total {verdictLegend : String} {legends : List String}
    (hpatched : ∀ i ∈ positions legends verdictLegend, ∃ data, before.patched cmp verdictSubData i = some data)
    (htsvs : ∀ i ∈ positions legends verdictLegend, i < before.response.tsvs.length)
    (hseries : ∀ i ∈ (positions legends verdictLegend).tail,
      ∃ value rest, before.response.tsvs[i]? = some (value :: rest)) :
    ∃ state, patchEvents cmp verdictLegend verdictSubData legends before = some state := by
  induction legends using List.reverseRecOn with
  | nil => exact ⟨_, rfl⟩
  | append_singleton legends legend ih =>
      rw [positions_append_singleton] at hpatched htsvs hseries
      have hprefix : ∀ i ∈ (positions legends verdictLegend).tail,
          ∃ value rest, before.response.tsvs[i]? = some (value :: rest) := by
        intro i hi
        have hne : positions legends verdictLegend ≠ [] := List.ne_nil_of_mem (List.mem_of_mem_tail hi)
        rw [List.tail_append_of_ne_nil hne] at hseries
        exact hseries i (List.mem_append_left _ hi)
      obtain ⟨⟨mid, found⟩, hmid⟩ := ih (fun i hi => hpatched i (List.mem_append_left _ hi))
        (fun i hi => htsvs i (List.mem_append_left _ hi)) hprefix
      rw [patchEvents_append, hmid, Option.bind_some]
      by_cases hlegend : verdictLegend = legend
      · rw [if_pos hlegend]
        rw [if_pos hlegend.symm] at hpatched htsvs hseries
        obtain ⟨hpassed, rfl⟩ := passed_of_patchEvents hmid
        obtain ⟨data, hdata⟩ := hpatched legends.length (by simp)
        have hnot : legends.length ∉ positions legends verdictLegend := fun hmem =>
          Nat.lt_irrefl _ (positions_lt hmem)
        have hlt := patched_index_lt hdata
        rw [← hpassed.patched_next hnot] at hdata
        cases hfirst : positions legends verdictLegend with
        | nil =>
            refine ⟨_, Option.map_eq_some_iff.mpr ⟨mid.setSubData legends.length data, ?_, rfl⟩⟩
            exact patchEvent_first _ _ _ ▸ Option.map_eq_some_iff.mpr ⟨data, hdata, rfl⟩
        | cons first rest =>
            have hresponse : (mid.noteDuplicate legends.length).response = mid.response := by rw [noteDuplicate_eq]
            have hfirstLt : first < mid.response.tsvs.length := by
              rw [hpassed.tsvs_length]
              exact htsvs first (by simp [hfirst])
            obtain ⟨value, series, hvalue⟩ := hseries legends.length (by simp [hfirst])
            have hne : (positions legends verdictLegend).head? ≠ some legends.length := fun heq =>
              hnot (List.mem_of_head? heq)
            rw [← hpassed.later _ hne] at hvalue
            rw [← hpassed.subDataArray_length] at hlt
            obtain ⟨next, hnext⟩ := @merge_total _ cmp ((mid.noteDuplicate legends.length).setSubData legends.length data)
              first legends.length _ _ _ _ (by rw [setSubData_tsvs, hresponse, List.getElem?_eq_getElem hfirstLt])
              (by rw [setSubData_tsvs, hresponse, hvalue])
              (by rw [setSubData_subDataArray, hresponse, List.getElem?_set_self hlt])
            refine ⟨_, Option.map_eq_some_iff.mpr ⟨next, ?_, rfl⟩⟩
            change patchEvent cmp verdictSubData mid (some first) legends.length = some next
            rw [patchEvent_later]
            exact Option.bind_eq_some_iff.mpr ⟨data, hdata, hnext⟩
      · rw [if_neg hlegend]
        exact ⟨_, rfl⟩

theorem patchEvents_of_notMem {verdictLegend : String} {legends : List String} (h : verdictLegend ∉ legends)
    (patching : Patching F) :
    patchEvents cmp verdictLegend verdictSubData legends patching = some (patching, none) := by
  induction legends using List.reverseRecOn with
  | nil => rfl
  | append_singleton legends legend ih =>
      rw [List.mem_append, List.mem_singleton, not_or] at h
      rw [patchEvents_append, ih h.1, Option.bind_some, if_neg h.2]

theorem Passed.grows (h : Passed cmp verdictSubData before occurrences after) {i : ℕ}
    (hi : occurrences.head? = some i → occurrences.getLast? = some i) :
    GrowsAt i (before.response.subDataArray.map keys) (after.response.subDataArray.map keys) := by
  by_cases hmem : i ∈ occurrences
  · intro row hrow
    rw [List.getElem?_map] at hrow
    obtain ⟨old', hold', rfl⟩ := Option.map_eq_some_iff.mp hrow
    obtain ⟨data, hdata, hafter⟩ := h.patched i hmem hi
    obtain ⟨verdict, old, -, hold, hpatched⟩ := patched_eq_some hdata
    obtain rfl := Option.some.inj (hold.symm.trans hold')
    exact ⟨keys data, by rw [List.getElem?_map, hafter, Option.map_some], keys_patchSubData hpatched⟩
  · apply GrowsAt.of_eq
    rw [List.getElem?_map, List.getElem?_map, h.untouched i hmem]

end Events

end LitmusPortal.Prometheus
