import LitmusPortal.Analytics.PatchedEvents

/-!
# Patching a patched response

The answer of `PatchChaosEventWithVerdict` is cached and patched again by the next request. Where each legend of a
verdict is left with one event, what the verdicts have to say about its sub-data has been written there, and a second
pass finds nothing to do.
-/

namespace LitmusPortal.Prometheus

open Removal Growth

variable {F : Type} {cmp : Comparison F}

/-! ### Sub-data -/

section Fits

variable (cmp) in
/-- The sub-data of an event is as the verdict has it. -/
structure Fits (verdict data : List (SubData F)) : Prop where
  values : ∀ subData ∈ data, ∀ verdictSubData ∈ verdict, subData.matches cmp verdictSubData = true →
    subData.value = verdictSubData.value
  found : ∀ verdictSubData ∈ verdict, cmp.positive verdictSubData.date = true →
    ∃ subData ∈ data, subData.matches cmp verdictSubData = true

theorem matches_self {subData : SubData F} (h : cmp.same subData.date subData.date = true) :
    subData.matches cmp subData = true := by
  rw [SubData.matches, h]
  simp

theorem matches_left {subData verdictSubData : SubData F} (h : subData.matches cmp verdictSubData = true) :
    subData.matches cmp subData = true := by
  rw [SubData.matches, Bool.and_eq_true] at h
  exact matches_self (cmp.same_left _ _ h.2)

theorem patchValue_of_values {data : List (SubData F)} {verdictSubData : SubData F}
    (h : ∀ subData ∈ data, subData.matches cmp verdictSubData = true → subData.value = verdictSubData.value) :
    patchValue cmp data data verdictSubData = some data := by
  obtain ⟨data', hdata'⟩ := @patchValue_total _ cmp data data (Nat.le_refl _) verdictSubData
  rw [hdata']
  apply congrArg
  apply List.ext_getElem?
  intro k
  rw [getElem?_patchValue hdata' k]
  cases hk : data[k]? with
  | none => rfl
  | some subData =>
      rw [Option.map_some, Option.any_some]
      split
      · next hmatches =>
          rw [← h subData (List.mem_of_getElem? hk) hmatches]
      · rfl

/-- A verdict leaves sub-data as it is that it fits. -/
theorem Fits.patchSubData {verdict data : List (SubData F)} (h : Fits cmp verdict data) :
    patchSubData cmp (some data) verdict data = some data := by
  obtain ⟨valued, hvalued, rfl⟩ := @foldlM_total _ _ (fun now verdictSubData => patchValue cmp data now verdictSubData)
    (fun _ now => now = data) verdict data (fun front verdictSubData back now hitems hnow => by
      have hmem : verdictSubData ∈ verdict := hitems ▸ by simp
      rw [hnow]
      exact ⟨data, patchValue_of_values fun subData hsubData => h.values subData hsubData _ hmem, rfl⟩) rfl
  have hnew : (verdict.filter fun verdictSubData =>
      !valued.any (·.matches cmp verdictSubData) && cmp.positive verdictSubData.date) = [] := by
    apply List.filter_eq_nil_iff.mpr
    intro verdictSubData hmem
    rw [Bool.and_eq_true, Bool.not_eq_true']
    rintro ⟨hnot, hpositive⟩
    obtain ⟨subData, hsubData, hmatches⟩ := h.found verdictSubData hmem hpositive
    rw [List.any_eq_true.mpr ⟨subData, hsubData, hmatches⟩] at hnot
    cases hnot
  refine Option.bind_eq_some_iff.mpr ⟨valued, hvalued, ?_⟩
  change some (valued ++ verdict.filter fun verdictSubData =>
    !valued.any (·.matches cmp verdictSubData) && cmp.positive verdictSubData.date) = some valued
  rw [hnew, List.append_nil]

variable (cmp) in
/-- A sub-data keeps its key, and its value unless the copy has one like it that the verdict sets. -/
def Written (events verdict : List (SubData F)) (k : ℕ) (old new : SubData F) : Prop :=
  old.key = new.key ∧
    ((new = old ∧ ∀ verdictSubData ∈ verdict, events[k]?.any (·.matches cmp verdictSubData) = false) ∨
      ∃ verdictSubData ∈ verdict, events[k]?.any (·.matches cmp verdictSubData) = true ∧
        new.value = verdictSubData.value)

theorem Written.append {events verdict : List (SubData F)} {k : ℕ} {old new : SubData F}
    (h : Written cmp events verdict k old new) (verdictSubData : SubData F) :
    Written cmp events (verdict ++ [verdictSubData]) k old
      (if events[k]?.any (·.matches cmp verdictSubData) then { new with value := verdictSubData.value } else new) := by
  obtain ⟨hkey, hcases⟩ := h
  by_cases hmatches : events[k]?.any (·.matches cmp verdictSubData) = true
  · rw [if_pos hmatches]
    exact ⟨hkey, .inr ⟨verdictSubData, by simp, hmatches, rfl⟩⟩
  · rw [if_neg hmatches]
    refine ⟨hkey, ?_⟩
    rcases hcases with ⟨heq, hnone⟩ | ⟨other, hother, hhit⟩
    · refine .inl ⟨heq, fun other hother => ?_⟩
      rcases List.mem_append.mp hother with hother | hother
      · exact hnone other hother
      · rw [List.mem_singleton.mp hother]
        exact Bool.eq_false_iff.mpr hmatches
    · exact .inr ⟨other, List.mem_append_left _ hother, hhit⟩

/-- What stands in the sub-data afterwards was there before, or has been appended from the verdict. -/
theorem getElem?_of_patchSubData {events verdict data data' : List (SubData F)}
    (h : patchSubData cmp (some events) verdict data = some data') {k : ℕ} {new : SubData F}
    (hk : data'[k]? = some new) :
    (∃ old, data[k]? = some old ∧ Written cmp events verdict k old new) ∨
      data.length ≤ k ∧ new ∈ verdict ∧ cmp.positive new.date = true := by
  obtain ⟨valued, hkeys, hvalued, rfl⟩ := patchSubData_eq_some h
  have hlength : valued.length = data.length := by rw [← length_keys, hkeys, length_keys]
  have hrun : ∀ k new, valued[k]? = some new → ∃ old, data[k]? = some old ∧ Written cmp events verdict k old new := by
    refine @foldlM_invariant _ _ _ (fun front now => ∀ k new, now[k]? = some new →
      ∃ old, data[k]? = some old ∧ Written cmp events front k old new) _ _ _ ?_ ?_ hvalued
    · intro front verdictSubData _ now next _ hnow hnext k new hk
      obtain ⟨events', hevents, hvalue⟩ := Option.bind_eq_some_iff.mp hnext
      obtain rfl := Option.some.inj hevents
      rw [getElem?_patchValue hvalue k] at hk
      obtain ⟨before, hbefore, rfl⟩ := Option.map_eq_some_iff.mp hk
      obtain ⟨old, hold, hwritten⟩ := hnow k before hbefore
      exact ⟨old, hold, hwritten.append verdictSubData⟩
    · intro k new hk
      exact ⟨new, hk, rfl, .inl ⟨rfl, fun _ hmem => absurd hmem List.not_mem_nil⟩⟩
  rcases Nat.lt_or_ge k valued.length with hlt | hge
  · rw [List.getElem?_append_left hlt] at hk
    exact .inl (hrun k new hk)
  · rw [List.getElem?_append_right hge] at hk
    obtain ⟨hmem, hcond⟩ := List.mem_filter.mp (List.mem_of_getElem? hk)
    rw [Bool.and_eq_true] at hcond
    exact .inr ⟨by omega, hmem, hcond.2⟩

/-- Sub-data of the verdict with a date is found afterwards. -/
theorem found_of_patchSubData {events verdict data data' : List (SubData F)}
    (h : patchSubData cmp (some events) verdict data = some data') (hevents : keys events <+: keys data) :
    ∀ verdictSubData ∈ verdict, cmp.positive verdictSubData.date = true →
      ∃ subData ∈ data', subData.matches cmp verdictSubData = true := by
  intro verdictSubData hmem hpositive
  obtain ⟨valued, hkeys, -, rfl⟩ := patchSubData_eq_some h
  by_cases hany : events.any (·.matches cmp verdictSubData) = true
  · obtain ⟨event, hevent, hmatches⟩ := List.any_eq_true.mp hany
    have hkey : event.key ∈ keys valued := by
      rw [hkeys]
      exact hevents.subset (List.mem_map_of_mem hevent)
    obtain ⟨subData, hsubData, heq⟩ := List.mem_map.mp hkey
    exact ⟨subData, List.mem_append_left _ hsubData, matches_congr heq verdictSubData ▸ hmatches⟩
  · refine ⟨verdictSubData, List.mem_append_right _ (List.mem_filter.mpr ⟨hmem, ?_⟩), ?_⟩
    · rw [Option.getD_some, Bool.eq_false_iff.mpr hany, hpositive]
      rfl
    · exact matches_self (cmp.same_positive _ hpositive)

end Fits

/-! ### The first pass -/

section FirstPass

variable (cmp) in
/-- What the verdicts say of one sub-data does not depend on which of them says it. -/
def Consistent (verdictResponse : AnnotationsPromResponse F) : Prop :=
  ∀ verdict ∈ verdictResponse.legends.zipIdx, ∀ verdict' ∈ verdictResponse.legends.zipIdx, verdict.1 = verdict'.1 →
    ∀ data data', verdictResponse.subDataArray[verdict.2]? = some data →
      verdictResponse.subDataArray[verdict'.2]? = some data' →
      ∀ left ∈ data, ∀ right ∈ data', ∀ subData : SubData F, subData.matches cmp left = true →
        subData.matches cmp right = true → left.value = right.value

variable (cmp) in
/-- The sub-data is as every verdict with the legend has it. -/
def Sound (verdictResponse : AnnotationsPromResponse F) (legend : String) (subData : SubData F) : Prop :=
  ∀ verdict ∈ verdictResponse.legends.zipIdx, verdict.1 = legend →
    ∀ data, verdictResponse.subDataArray[verdict.2]? = some data →
      ∀ verdictSubData ∈ data, subData.matches cmp verdictSubData = true → subData.value = verdictSubData.value

variable (cmp) in
/-- The sub-data of an event that had `size` of them, when the verdicts of `front` have been written into it. -/
structure Settled (verdictResponse : AnnotationsPromResponse F) (front : List (String × ℕ)) (legend : String)
    (size : ℕ) (data : List (SubData F)) : Prop where
  values : Consistent cmp verdictResponse → ∀ (k : ℕ) (subData : SubData F), data[k]? = some subData →
    Sound cmp verdictResponse legend subData ∨
      k < size ∧ ∀ verdict ∈ front, verdict.1 = legend →
        ∀ verdictData, verdictResponse.subDataArray[verdict.2]? = some verdictData →
          ∀ verdictSubData ∈ verdictData, subData.matches cmp verdictSubData = false
  found : ∀ verdict ∈ front, verdict.1 = legend →
    ∀ verdictData, verdictResponse.subDataArray[verdict.2]? = some verdictData →
      ∀ verdictSubData ∈ verdictData, cmp.positive verdictSubData.date = true →
        ∃ subData ∈ data, subData.matches cmp verdictSubData = true

variable {verdictResponse original : AnnotationsPromResponse F} {front : List (String × ℕ)} {legend : String}
  {size : ℕ} {data data' : List (SubData F)} {verdict : String × ℕ}

theorem Consistent.sound (h : Consistent cmp verdictResponse) (hmem : verdict ∈ verdictResponse.legends.zipIdx)
    {verdictData : List (SubData F)} (hdata : verdictResponse.subDataArray[verdict.2]? = some verdictData)
    {subData verdictSubData : SubData F} (hverdictSubData : verdictSubData ∈ verdictData)
    (hmatches : subData.matches cmp verdictSubData = true) (hvalue : subData.value = verdictSubData.value) :
    Sound cmp verdictResponse verdict.1 subData := by
  intro verdict' hmem' hlegend data' hdata' other hother hmatches'
  rw [hvalue]
  exact h verdict hmem verdict' hmem' hlegend.symm _ _ hdata hdata' _ hverdictSubData _ hother subData hmatches hmatches'

theorem Settled.skip (h : Settled cmp verdictResponse front legend size data) (hne : verdict.1 ≠ legend) :
    Settled cmp verdictResponse (front ++ [verdict]) legend size data := by
  constructor
  · intro hconsistent k subData hk
    refine (h.values hconsistent k subData hk).imp_right fun ⟨hlt, hnone⟩ => ⟨hlt, fun other hother heq => ?_⟩
    rcases List.mem_append.mp hother with hother | hother
    · exact hnone other hother heq
    · exact absurd (List.mem_singleton.mp hother ▸ heq) hne
  · intro other hother heq
    rcases List.mem_append.mp hother with hother | hother
    · exact h.found other hother heq
    · exact absurd (List.mem_singleton.mp hother ▸ heq) hne

/-- The verdict is written: what is set or appended is sound, the rest is of before and untouched. -/
theorem Settled.write (h : Settled cmp verdictResponse front verdict.1 size data)
    (hmem : verdict ∈ verdictResponse.legends.zipIdx) {verdictData events : List (SubData F)}
    (hdata : verdictResponse.subDataArray[verdict.2]? = some verdictData) (hevents : keys events <+: keys data)
    (hsize : size ≤ events.length) (hpatch : patchSubData cmp (some events) verdictData data = some data') :
    Settled cmp verdictResponse (front ++ [verdict]) verdict.1 size data' := by
  have hkeys : ∀ {k : ℕ} {event subData : SubData F}, events[k]? = some event → data[k]? = some subData →
      event.key = subData.key := by
    intro k event subData hevent hsubData
    obtain ⟨rest, hrest⟩ := hevents
    have hat : (keys data)[k]? = some event.key := by
      rw [← hrest, List.getElem?_append_left, keys, List.getElem?_map, hevent, Option.map_some]
      rw [length_keys]
      exact (List.getElem?_eq_some_iff.mp hevent).1
    rw [keys, List.getElem?_map, hsubData] at hat
    exact (Option.some.inj hat).symm
  constructor
  · intro hconsistent k subData hk
    rcases getElem?_of_patchSubData hpatch hk with ⟨old, hold, hkey, hcases⟩ | ⟨-, hnew, hpositive⟩
    · rcases hcases with ⟨rfl, hnone⟩ | ⟨verdictSubData, hverdictSubData, hhit, hvalue⟩
      · refine (h.values hconsistent k subData hold).imp_right fun hunwritten => ⟨hunwritten.1, ?_⟩
        have hbefore := hunwritten.2
        have hlt := hunwritten.1
        intro other hother heq otherData hotherData verdictSubData hverdictSubData
        rcases List.mem_append.mp hother with hother | hother
        · exact hbefore other hother heq otherData hotherData verdictSubData hverdictSubData
        · obtain rfl := List.mem_singleton.mp hother
          obtain rfl := Option.some.inj (hdata.symm.trans hotherData)
          have hevent : events[k]? = some events[k] := List.getElem?_eq_getElem (by omega)
          have hmiss := hnone verdictSubData hverdictSubData
          rw [hevent, Option.any_some] at hmiss
          rwa [matches_congr (hkeys hevent hold) verdictSubData] at hmiss
      · left
        refine hconsistent.sound hmem hdata hverdictSubData ?_ hvalue
        cases hevent : events[k]? with
        | none =>
            rw [hevent] at hhit
            cases hhit
        | some event =>
            rw [hevent, Option.any_some] at hhit
            rwa [matches_congr ((hkeys hevent hold).trans hkey) verdictSubData] at hhit
    · exact .inl (hconsistent.sound hmem hdata hnew (matches_self (cmp.same_positive _ hpositive)) rfl)
  · intro other hother heq otherData hotherData verdictSubData hverdictSubData hpositive
    rcases List.mem_append.mp hother with hother | hother
    · obtain ⟨subData, hsubData, hmatches⟩ :=
        h.found other hother heq otherData hotherData verdictSubData hverdictSubData hpositive
      have hkey := (keys_patchSubData hpatch).subset (List.mem_map_of_mem hsubData)
      obtain ⟨subData', hsubData', hsame⟩ := List.mem_map.mp hkey
      exact ⟨subData', hsubData', matches_congr hsame verdictSubData ▸ hmatches⟩
    · obtain rfl := List.mem_singleton.mp hother
      obtain rfl := Option.some.inj (hdata.symm.trans hotherData)
      exact found_of_patchSubData hpatch hevents verdictSubData hverdictSubData hpositive

/-- When all verdicts have been written, the sub-data fits each of them. -/
theorem Settled.fits (h : Settled cmp verdictResponse verdictResponse.legends.zipIdx verdict.1 size data)
    (hconsistent : Consistent cmp verdictResponse) (hmem : verdict ∈ verdictResponse.legends.zipIdx)
    {verdictData : List (SubData F)} (hdata : verdictResponse.subDataArray[verdict.2]? = some verdictData) :
    Fits cmp verdictData data := by
  constructor
  · intro subData hsubData verdictSubData hverdictSubData hmatches
    obtain ⟨k, hk⟩ := List.mem_iff_getElem?.mp hsubData
    rcases h.values hconsistent k subData hk with hsound | ⟨-, hnone⟩
    · exact hsound verdict hmem rfl verdictData hdata verdictSubData hverdictSubData hmatches
    · have hmiss := hnone verdict hmem rfl verdictData hdata verdictSubData hverdictSubData
      rw [hmatches] at hmiss
      cases hmiss
  · exact h.found verdict hmem rfl verdictData hdata

variable (cmp) in
/-- The events whose sub-data is not replaced, and what has been read of the verdicts. -/
structure Valued (verdictResponse original : AnnotationsPromResponse F) (front : List (String × ℕ))
    (patching : Patching F) : Prop where
  settled : ∀ i legend old data, original.legends[i]? = some legend → Stays original.legends i →
    original.subDataArray[i]? = some old → patching.response.subDataArray[i]? = some data →
    Settled cmp verdictResponse front legend old.length data
  data : ∀ verdict ∈ front, verdict.1 ∈ original.legends → ∃ data, verdictResponse.subDataArray[verdict.2]? = some data
  tsvs : ∀ verdict ∈ front, verdict.1 ∉ original.legends → ∃ tsv, verdictResponse.tsvs[verdict.2]? = some tsv

variable {patching next : Patching F}

theorem valued_nil (spare : ℕ) : Valued cmp verdictResponse original [] ⟨original, none, spare, []⟩ where
  settled i legend old data _ _ hold hdata := by
    obtain rfl := Option.some.inj (hold.symm.trans hdata)
    constructor
    · intro _ k subData hk
      exact .inr ⟨(List.getElem?_eq_some_iff.mp hk).1, fun _ hmem => absurd hmem List.not_mem_nil⟩
    · exact fun _ hmem => absurd hmem List.not_mem_nil
  data _ hmem := absurd hmem List.not_mem_nil
  tsvs _ hmem := absurd hmem List.not_mem_nil

theorem forall_mem_append {p : String × ℕ → Prop} (h : ∀ other ∈ front, p other) (hverdict : p verdict) :
    ∀ other ∈ front ++ [verdict], p other := by
  intro other hother
  rcases List.mem_append.mp hother with hother | hother
  · exact h other hother
  · exact List.mem_singleton.mp hother ▸ hverdict

theorem Valued.patched (h : Valued cmp verdictResponse original front patching)
    (hran : Ran verdictResponse original front patching) (hmem : verdict ∈ verdictResponse.legends.zipIdx)
    (hverdict : patchVerdict cmp verdictResponse original.legends patching verdict = some next) :
    Valued cmp verdictResponse original (front ++ [verdict]) next := by
  by_cases hevent : verdict.1 ∈ original.legends
  · have hpassed := patchVerdict_found hevent hverdict
    refine ⟨?_, forall_mem_append h.data fun _ => ?_, forall_mem_append h.tsvs fun hnot => absurd hevent hnot⟩
    · intro i legend old data hi hstays hold hdata
      by_cases hlegend : verdict.1 = legend
      · subst hlegend
        obtain ⟨new, hpatched, hnew⟩ := hpassed.patched i (mem_positions.mpr hi) (hstays _)
        obtain rfl := Option.some.inj (hdata.symm.trans hnew)
        obtain ⟨verdictData, before, hverdictData, hbefore, hpatch⟩ := patched_eq_some hpatched
        obtain ⟨events, hevents, hle⟩ := grows_of_keys (hran.seen_data i hstays).1 hold
        obtain ⟨before', hbefore', hle'⟩ := grows_of_keys (hran.seen_data i hstays).2 hevents
        obtain rfl := Option.some.inj (hbefore.symm.trans hbefore')
        rw [hevents] at hpatch
        refine (h.settled i _ old before hi hstays hold hbefore).write hmem hverdictData hle' ?_ hpatch
        rw [← length_keys, ← length_keys]
        exact hle.length_le
      · have hnot : i ∉ positions original.legends verdict.1 := fun hpos =>
          hlegend (Option.some.inj ((mem_positions.mp hpos).symm.trans hi))
        rw [hpassed.untouched i hnot] at hdata
        exact (h.settled i legend old data hi hstays hold hdata).skip hlegend
    · have hne : positions original.legends verdict.1 ≠ [] := fun hnil => positions_eq_nil_iff.mp hnil hevent
      obtain ⟨_, hpatched, _⟩ := hpassed.patched _ (List.getLast_mem hne) fun _ => List.getLast?_eq_some_getLast hne
      obtain ⟨verdictData, _, hverdictData, _, _⟩ := patched_eq_some hpatched
      exact ⟨verdictData, hverdictData⟩
  · rw [patchVerdict_unfound hevent] at hverdict
    obtain ⟨tsv, htsv, _⟩ := Option.bind_eq_some_iff.mp hverdict
    refine ⟨?_, forall_mem_append h.data fun hin => absurd hin hevent, forall_mem_append h.tsvs fun _ => ⟨tsv, htsv⟩⟩
    intro i legend old data hi hstays hold hdata
    have hlt : i < patching.response.subDataArray.length := by
      have := (List.getElem?_eq_some_iff.mp hi).1
      rw [hran.subDataArray_length, hran.legends, List.length_append]
      omega
    have hbefore : patching.response.subDataArray[i]? = some data := by
      rcases addVerdict_eq_some hverdict with ⟨-, rfl⟩ | ⟨-, verdictSubData, -, rfl⟩
      · exact hdata
      · exact (List.getElem?_append_left hlt).symm.trans hdata
    refine (h.settled i legend old data hi hstays hold hbefore).skip ?_
    rintro rfl
    exact hevent (List.mem_of_getElem? hi)

theorem valued_of_foldlM (hlengths : original.EqualLengths) {spare : ℕ}
    (hrun : verdictResponse.legends.zipIdx.foldlM (patchVerdict cmp verdictResponse original.legends)
      ⟨original, none, spare, []⟩ = some patching) :
    Valued cmp verdictResponse original verdictResponse.legends.zipIdx patching := by
  have hloop := @foldlM_invariant _ _ _ (fun front now =>
    Ran verdictResponse original front now ∧ Valued cmp verdictResponse original front now) _ _ _
    (fun front verdict back now next hitems hnow hnext => ?_) ⟨ran_nil hlengths spare, valued_nil spare⟩ hrun
  · exact hloop.2
  · have hmem : verdict ∈ verdictResponse.legends.zipIdx := hitems ▸ by simp
    exact ⟨hnow.1.verdict hnext, hnow.2.patched hnow.1 hmem hnext⟩

end FirstPass

/-! ### The second pass -/

section SecondPass

variable {verdictResponse original response : AnnotationsPromResponse F} {patching : Patching F} {spare : ℕ}

theorem setSubData_self {index : ℕ} {data : List (SubData F)}
    (h : patching.response.subDataArray[index]? = some data) : patching.setSubData index data = patching := by
  obtain ⟨hlt, rfl⟩ := List.getElem?_eq_some_iff.mp h
  rw [Patching.setSubData, List.set_getElem_self]

variable (cmp) in
/-- The verdict has been written into the one event it has, or has none and does not count. -/
structure Done (verdictResponse response : AnnotationsPromResponse F) (verdict : String × ℕ) : Prop where
  once : (positions response.legends verdict.1).tail = []
  event : ∀ r ∈ positions response.legends verdict.1, ∃ verdictData data,
    verdictResponse.subDataArray[verdict.2]? = some verdictData ∧ response.subDataArray[r]? = some data ∧
      Fits cmp verdictData data
  unfound : verdict.1 ∉ response.legends →
    ∃ tsv, verdictResponse.tsvs[verdict.2]? = some tsv ∧ isValid verdictResponse verdict = false

theorem patchEvents_of_fits {verdict : String × ℕ} {legends : List String}
    (honce : (positions legends verdict.1).tail = [])
    (hevent : ∀ r ∈ positions legends verdict.1, ∃ verdictData data,
      verdictResponse.subDataArray[verdict.2]? = some verdictData ∧ response.subDataArray[r]? = some data ∧
        Fits cmp verdictData data) :
    patchEvents cmp verdict.1 verdictResponse.subDataArray[verdict.2]? legends ⟨response, none, spare, []⟩ =
      some (⟨response, none, spare, []⟩, (positions legends verdict.1).head?) := by
  induction legends using List.reverseRecOn with
  | nil => rfl
  | append_singleton legends legend ih =>
      rw [positions_append_singleton] at honce hevent
      rw [patchEvents_append, positions_append_singleton]
      by_cases hlegend : verdict.1 = legend
      · rw [if_pos hlegend.symm] at honce hevent
        have hnil : positions legends verdict.1 = [] := by
          cases hpositions : positions legends verdict.1 with
          | nil => rfl
          | cons first rest => simp [hpositions] at honce
        have hnot : verdict.1 ∉ legends := positions_eq_nil_iff.mp hnil
        obtain ⟨verdictData, data, hverdictData, hdata, hfits⟩ := hevent legends.length (by simp)
        have hpatched : (⟨response, none, spare, []⟩ : Patching F).patched cmp
            verdictResponse.subDataArray[verdict.2]? legends.length = some data := by
          rw [Patching.patched, hverdictData]
          change (response.subDataArray[legends.length]?).bind _ = _
          rw [hdata]
          change patchSubData cmp response.subDataArray[legends.length]? verdictData data = some data
          rw [hdata, hfits.patchSubData]
        rw [patchEvents_of_notMem hnot, Option.bind_some, if_pos hlegend, patchEvent_first, hpatched, hnil,
          Option.map_some, setSubData_self hdata, if_pos hlegend.symm]
        rfl
      · rw [if_neg (Ne.symm hlegend), List.append_nil] at honce hevent
        rw [ih honce hevent, Option.bind_some, if_neg hlegend, if_neg (Ne.symm hlegend), List.append_nil]

theorem Done.patchVerdict {verdict : String × ℕ} (h : Done cmp verdictResponse response verdict) :
    patchVerdict cmp verdictResponse response.legends ⟨response, none, spare, []⟩ verdict =
      some ⟨response, none, spare, []⟩ := by
  rw [LitmusPortal.Prometheus.patchVerdict, patchEvents_of_fits h.once h.event]
  change (if (positions response.legends verdict.1).head?.isSome = true then _ else _) = _
  split
  · rfl
  · next hnone =>
      have hnot : verdict.1 ∉ response.legends := by
        rw [List.isSome_head?, ne_eq, not_not] at hnone
        exact positions_eq_nil_iff.mp hnone
      obtain ⟨tsv, htsv, hvalid⟩ := h.unfound hnot
      have hany : tsv.any (·.2 = 1) = false := by
        rw [isValid, htsv] at hvalid
        exact hvalid
      rw [Patching.addVerdict, htsv]
      change (if tsv.any (·.2 = 1) = true then _ else _) = _
      rw [hany]
      rfl

theorem removeDuplicates_nil (response : AnnotationsPromResponse F) :
    removeDuplicates [] response = some response := by
  obtain ⟨result, hresult, rfl⟩ := @foldlM_total _ _ (removeDuplicate (F := F) []) (fun _ now => now = response)
    (List.range response.legends.length) response (fun _ _ _ now _ hnow => ⟨now, rfl, hnow⟩) rfl
  exact hresult

theorem patchResponse_of_done
    (h : isChaosEvent response.queryID = true →
      ∀ verdict ∈ verdictResponse.legends.zipIdx, Done cmp verdictResponse response verdict) :
    patchResponse cmp verdictResponse spare response = some response := by
  rw [patchResponse]
  split
  · next hevent =>
      obtain ⟨patching, hpatching, rfl⟩ := @foldlM_total _ _ (patchVerdict cmp verdictResponse response.legends)
        (fun _ now => now = ⟨response, none, spare, []⟩) verdictResponse.legends.zipIdx ⟨response, none, spare, []⟩
        (fun _ verdict _ now hitems hnow => by
          rw [hnow]
          exact ⟨_, (h hevent verdict (hitems ▸ by simp)).patchVerdict, rfl⟩) rfl
      refine Option.bind_eq_some_iff.mpr ⟨_, hpatching, removeDuplicates_nil response⟩
  · rfl

end SecondPass

/-! ### The answer -/

section Answer

/-- The events are found in their order. -/
structure Ordered (verdictResponse original : AnnotationsPromResponse F) : Prop where
  lengths : original.EqualLengths
  ascending : (discovered original.legends verdictResponse.legends).Pairwise (· < ·)

variable (cmp) in
/-- No verdict is appended twice, and what is appended has all the sub-data that verdicts have under its legend. -/
structure Separate (verdictResponse original : AnnotationsPromResponse F) : Prop where
  added : ((verdictOnly verdictResponse original.legends verdictResponse.legends.zipIdx).map Prod.fst).Nodup
  covered : ∀ added ∈ verdictOnly verdictResponse original.legends verdictResponse.legends.zipIdx,
    ∀ verdict ∈ verdictResponse.legends.zipIdx, verdict.1 = added.1 →
      ∀ data, verdictResponse.subDataArray[added.2]? = some data →
        ∃ verdictData, verdictResponse.subDataArray[verdict.2]? = some verdictData ∧
          ∀ verdictSubData ∈ verdictData, cmp.positive verdictSubData.date = true →
            ∃ subData ∈ data, subData.matches cmp verdictSubData = true

variable {verdictResponse original result : AnnotationsPromResponse F} {patching : Patching F} {verdict : String × ℕ}

theorem mem_zipIdx_fst {legend : String} (h : legend ∈ verdictResponse.legends) :
    ∃ verdict ∈ verdictResponse.legends.zipIdx, verdict.1 = legend := by
  rw [← map_fst_zipIdx verdictResponse.legends] at h
  exact List.mem_map.mp h

section Columns

variable (hran : Ran verdictResponse original verdictResponse.legends.zipIdx patching)

include hran

theorem Ran.legends_length : patching.response.legends.length = original.legends.length +
    (verdictOnly verdictResponse original.legends verdictResponse.legends.zipIdx).length := by
  rw [hran.legends, List.length_append, List.length_map]

theorem Ran.legend_added {k : ℕ} {added : String × ℕ}
    (h : (verdictOnly verdictResponse original.legends verdictResponse.legends.zipIdx)[k]? = some added) :
    patching.response.legends[original.legends.length + k]? = some added.1 := by
  rw [hran.legends, List.getElem?_append_right (by omega), Nat.add_sub_cancel_left, List.getElem?_map, h]
  rfl

/-- Behind the events that are left, the appended verdicts stand as they were appended. -/
theorem Ran.getElem?_added {β : Type} {column : List β} (hcolumn : column.length = patching.response.legends.length)
    {k : ℕ} (hk : k < (verdictOnly verdictResponse original.legends verdictResponse.legends.zipIdx).length) :
    (without (discovered original.legends verdictResponse.legends) column)[
        (remaining (discovered original.legends verdictResponse.legends) original.legends.length).length + k]? =
      column[original.legends.length + k]? := by
  rw [getElem?_without, hcolumn, hran.legends_length, remaining_add fun i hi => discovered_lt hi,
    List.getElem?_append_right (Nat.le_add_right _ _), Nat.add_sub_cancel_left, List.getElem?_map,
    List.getElem?_range hk]
  rfl

/-- Of two places with the legend of a verdict the second is an event noted as a duplicate. -/
theorem Ran.noted (hadded : ((verdictOnly verdictResponse original.legends
    verdictResponse.legends.zipIdx).map Prod.fst).Nodup) {legend : String} (hlegend : legend ∈ verdictResponse.legends)
    {i j : ℕ} (hlt : i < j) (hi : patching.response.legends[i]? = some legend)
    (hj : patching.response.legends[j]? = some legend) :
    j ∈ discovered original.legends verdictResponse.legends := by
  rw [hran.legends] at hi hj
  rcases Nat.lt_or_ge j original.legends.length with hjlt | hjge
  · rw [List.getElem?_append_left hjlt] at hj
    rw [List.getElem?_append_left (by omega)] at hi
    obtain ⟨hilt, hiat⟩ := List.getElem?_eq_some_iff.mp hi
    exact mem_discovered.mpr ⟨legend, hlegend, hj, List.mem_take_iff_getElem.mpr ⟨i, by omega, hiat⟩⟩
  · rw [List.getElem?_append_right hjge] at hj
    have hnot := (mem_verdictOnly (List.mem_of_getElem? hj)).2
    rcases Nat.lt_or_ge i original.legends.length with hilt | hige
    · rw [List.getElem?_append_left hilt] at hi
      exact absurd (List.mem_of_getElem? hi) hnot
    · rw [List.getElem?_append_right hige] at hi
      obtain ⟨hilt, hiat⟩ := List.getElem?_eq_some_iff.mp hi
      obtain ⟨hjlt, hjat⟩ := List.getElem?_eq_some_iff.mp hj
      have heq := (@List.Nodup.getElem_inj_iff _ _ hadded _ hilt _ hjlt).mp (hiat.trans hjat.symm)
      omega

theorem Ran.once (hadded : ((verdictOnly verdictResponse original.legends
    verdictResponse.legends.zipIdx).map Prod.fst).Nodup) {legend : String} (hlegend : legend ∈ verdictResponse.legends) :
    (positions (without (discovered original.legends verdictResponse.legends) patching.response.legends)
      legend).tail = [] := by
  apply tail_positions_without
  intro i j hi hj hinot hjnot
  rcases Nat.lt_trichotomy i j with hlt | heq | hlt
  · exact absurd (hran.noted hadded hlegend hlt hi hj) hjnot
  · exact heq
  · exact absurd (hran.noted hadded hlegend hlt hj hi) hinot

end Columns

/-- The first pass leaves nothing to do. -/
theorem done_of_ran (hran : Ran verdictResponse original verdictResponse.legends.zipIdx patching)
    (hvalued : Valued cmp verdictResponse original verdictResponse.legends.zipIdx patching)
    (hordered : Ordered verdictResponse original) (hseparate : Separate cmp verdictResponse original)
    (hconsistent : Consistent cmp verdictResponse) (hmem : verdict ∈ verdictResponse.legends.zipIdx) :
    Done cmp verdictResponse (patching.response.mapColumns
      (without (discovered original.legends verdictResponse.legends))) verdict := by
  have hlegend : verdict.1 ∈ verdictResponse.legends := List.fst_mem_of_mem_zipIdx hmem
  have hfits : ∀ j : ℕ, original.legends[j]? = some verdict.1 → ∃ verdictData data,
      verdictResponse.subDataArray[verdict.2]? = some verdictData ∧
        patching.response.subDataArray[j]? = some data ∧ Fits cmp verdictData data := by
    intro j hj
    obtain ⟨verdictData, hverdictData⟩ := hvalued.data verdict hmem (List.mem_of_getElem? hj)
    have hstaying : ∀ i : ℕ, original.legends[i]? = some verdict.1 → Stays original.legends i →
        ∃ data, patching.response.subDataArray[i]? = some data ∧ Fits cmp verdictData data := by
      intro i hi hstays
      have hlt : i < original.subDataArray.length := by
        rw [hordered.lengths.subDataArray]
        exact (List.getElem?_eq_some_iff.mp hi).1
      have hold : original.subDataArray[i]? = some original.subDataArray[i] := List.getElem?_eq_getElem hlt
      obtain ⟨data, hdata, -⟩ := grows_of_keys (hran.data i hstays) hold
      exact ⟨data, hdata, (hvalued.settled i _ _ data hi hstays hold hdata).fits hconsistent hmem hverdictData⟩
    rcases stays_or_replaced original.legends j with hstays | ⟨legend, last, hfirst, hlast⟩
    · obtain ⟨data, hdata, hfit⟩ := hstaying j hj hstays
      exact ⟨verdictData, data, hverdictData, hdata, hfit⟩
    · obtain rfl := Option.some.inj (hj.symm.trans (mem_positions.mp (List.mem_of_head? hfirst)))
      obtain ⟨data, hdata, hfit⟩ := hstaying last (mem_positions.mp (List.mem_of_getLast? hlast))
        (stays_of_getLast? hlast)
      refine ⟨verdictData, data, hverdictData, ?_, hfit⟩
      rw [hran.replaced _ j last hfirst hlast, if_pos (List.mem_map_of_mem hmem)]
      exact hdata
  constructor
  case once => exact hran.once hseparate.added hlegend
  case event =>
    intro r hr
    have hat := mem_positions.mp hr
    change (without _ patching.response.legends)[r]? = some verdict.1 at hat
    change ∃ verdictData data, _ ∧ (without _ patching.response.subDataArray)[r]? = some data ∧ _
    rw [getElem?_without] at hat
    obtain ⟨j, hj, hjat⟩ := Option.bind_eq_some_iff.mp hat
    rw [getElem?_without, hran.subDataArray_length, hj, Option.bind_some]
    rw [hran.legends] at hjat
    rcases Nat.lt_or_ge j original.legends.length with hlt | hge
    · rw [List.getElem?_append_left hlt] at hjat
      exact hfits j hjat
    · rw [List.getElem?_append_right hge, List.getElem?_map] at hjat
      obtain ⟨added, hadded, heq⟩ := Option.map_eq_some_iff.mp hjat
      have hdata := (hran.added _ added hadded).2
      rw [Nat.add_sub_cancel' hge] at hdata
      have hlt : j < patching.response.subDataArray.length := by
        rw [hran.subDataArray_length]
        exact lt_of_mem_remaining (List.mem_of_getElem? hj)
      rw [List.getElem?_eq_getElem hlt] at hdata ⊢
      have haddedMem := List.mem_of_getElem? hadded
      obtain ⟨verdictData, hverdictData, hcovered⟩ :=
        hseparate.covered added haddedMem verdict hmem heq.symm _ hdata.symm
      refine ⟨verdictData, _, hverdictData, rfl, ⟨?_, hcovered⟩⟩
      intro subData hsubData verdictSubData hverdictSubData hmatches
      exact hconsistent added (List.mem_filter.mp haddedMem).1 verdict hmem heq _ _ hdata.symm hverdictData
        subData hsubData verdictSubData hverdictSubData subData (matches_left hmatches) hmatches
  case unfound =>
    intro hnot
    have hleft : ∀ {j : ℕ}, patching.response.legends[j]? = some verdict.1 →
        j ∈ discovered original.legends verdictResponse.legends := by
      intro j hj
      by_contra hjnot
      exact hnot (mem_without.mpr ⟨j, hj, hjnot⟩)
    have hevent : verdict.1 ∉ original.legends := by
      intro hevent
      have hne : positions original.legends verdict.1 ≠ [] := fun hnil => positions_eq_nil_iff.mp hnil hevent
      obtain ⟨first, rest, hpositions⟩ := List.exists_cons_of_ne_nil hne
      have hfirst : original.legends[first]? = some verdict.1 := mem_positions.mp (hpositions ▸ List.mem_cons_self)
      have hlegends : patching.response.legends[first]? = some verdict.1 := by
        rw [hran.legends, List.getElem?_append_left (List.getElem?_eq_some_iff.mp hfirst).1]
        exact hfirst
      obtain ⟨legend, _, hlegend, htake⟩ := mem_discovered.mp (hleft hlegends)
      obtain rfl := Option.some.inj (hfirst.symm.trans hlegend)
      have htail := mem_tail_positions.mpr ⟨hfirst, htake⟩
      have hascend := positions_ascend original.legends verdict.1
      rw [hpositions] at htail hascend
      exact Nat.lt_irrefl _ (List.rel_of_pairwise_cons hascend htail)
    obtain ⟨tsv, htsv⟩ := hvalued.tsvs verdict hmem hevent
    refine ⟨tsv, htsv, Bool.eq_false_iff.mpr fun hvalid => ?_⟩
    have hadded : verdict ∈ verdictOnly verdictResponse original.legends verdictResponse.legends.zipIdx :=
      List.mem_filter.mpr ⟨hmem, decide_eq_true ⟨hevent, hvalid⟩⟩
    obtain ⟨k, hk⟩ := List.mem_iff_getElem?.mp hadded
    have hlt := discovered_lt (hleft (hran.legend_added hk))
    omega

/-- A second pass that changes nothing has found each appended verdict once, with all its sub-data. -/
theorem separate_of_repeats (hran : Ran verdictResponse original verdictResponse.legends.zipIdx patching)
    {spare : ℕ} (hagain : patchResponse cmp verdictResponse spare (patching.response.mapColumns
      (without (discovered original.legends verdictResponse.legends))) = some (patching.response.mapColumns
        (without (discovered original.legends verdictResponse.legends))))
    (hevent : isChaosEvent original.queryID = true) : Separate cmp verdictResponse original := by
  generalize hresult : patching.response.mapColumns (without (discovered original.legends verdictResponse.legends)) =
    result at hagain
  have hlegends : result.legends = without (discovered original.legends verdictResponse.legends)
      patching.response.legends := by rw [← hresult]; rfl
  have htsvs : result.tsvs = without (discovered original.legends verdictResponse.legends)
      patching.response.tsvs := by rw [← hresult]; rfl
  have hdata : result.subDataArray = without (discovered original.legends verdictResponse.legends)
      patching.response.subDataArray := by rw [← hresult]; rfl
  have hqueryID : result.queryID = original.queryID := by rw [← hresult]; exact hran.queryID
  have hlengths : result.EqualLengths := by
    constructor
    · rw [htsvs, hlegends, length_without, length_without, hran.tsvs_length]
    · rw [hdata, hlegends, length_without, length_without, hran.subDataArray_length]
  rw [patchResponse, if_pos (hqueryID ▸ hevent)] at hagain
  obtain ⟨after, hrun, hremoved⟩ := Option.bind_eq_some_iff.mp hagain
  have hran' := ran_of_foldlM hlengths hrun
  have hvalued' := valued_of_foldlM hlengths hrun
  have hat : ∀ {k : ℕ} {added : String × ℕ}, (verdictOnly verdictResponse original.legends
      verdictResponse.legends.zipIdx)[k]? = some added →
      result.legends[(remaining (discovered original.legends verdictResponse.legends)
        original.legends.length).length + k]? = some added.1 := by
    intro k added hk
    rw [hlegends, hran.getElem?_added rfl (List.getElem?_eq_some_iff.mp hk).1]
    exact hran.legend_added hk
  have hadded : ((verdictOnly verdictResponse original.legends
      verdictResponse.legends.zipIdx).map Prod.fst).Nodup := by
    refine List.pairwise_iff_getElem.mpr fun k k' hk hk' hlt heq => ?_
    rw [List.length_map] at hk hk'
    rw [List.getElem_map, List.getElem_map] at heq
    have hfirst := hat (List.getElem?_eq_getElem hk)
    have hsecond := hat (List.getElem?_eq_getElem hk')
    obtain ⟨hlt', hfirst⟩ := List.getElem?_eq_some_iff.mp hfirst
    have hmem : (verdictOnly verdictResponse original.legends verdictResponse.legends.zipIdx)[k'] ∈
        verdictResponse.legends.zipIdx := (List.mem_filter.mp (List.getElem_mem hk')).1
    -- the second of them has no values
    obtain ⟨value, rest, hvalue⟩ := hran'.merged _ hmem _ (mem_tail_positions.mpr
      ⟨hsecond, List.mem_take_iff_getElem.mpr ⟨_, by omega, hfirst.trans heq⟩⟩)
    rw [htsvs, hran.getElem?_added hran.tsvs_length hk',
      (hran.added k' _ (List.getElem?_eq_getElem hk')).1] at hvalue
    cases hvalue
  refine ⟨hadded, fun added haddedMem verdict hmem heq data haddedData => ?_⟩
  have honce : ∀ legend ∈ verdictResponse.legends, (positions result.legends legend).tail = [] :=
    fun legend hlegend => hlegends ▸ hran.once hadded hlegend
  have hnone : discovered result.legends verdictResponse.legends = [] := by
    refine List.eq_nil_iff_forall_not_mem.mpr fun i hi => ?_
    obtain ⟨legend, hlegend, hlater⟩ := mem_discovered.mp hi
    have htail := mem_tail_positions.mpr hlater
    rw [honce legend hlegend] at htail
    cases htail
  rw [hran'.duplicates, map_fst_zipIdx, hnone] at hremoved
  have hsame : after.response = result := Option.some.inj ((removeDuplicates_nil _).symm.trans hremoved)
  obtain ⟨k, hk⟩ := List.mem_iff_getElem?.mp haddedMem
  have hlt := (List.getElem?_eq_some_iff.mp hk).1
  have hlegend := hat hk
  have hslot : result.subDataArray[(remaining (discovered original.legends verdictResponse.legends)
      original.legends.length).length + k]? = some data := by
    rw [hdata, hran.getElem?_added hran.subDataArray_length hlt, (hran.added k added hk).2]
    exact haddedData
  have hverdictMem : verdict.1 ∈ verdictResponse.legends := List.fst_mem_of_mem_zipIdx hmem
  obtain ⟨verdictData, hverdictData⟩ := hvalued'.data verdict hmem (heq ▸ List.mem_of_getElem? hlegend)
  have hstays : Stays result.legends ((remaining (discovered original.legends verdictResponse.legends)
      original.legends.length).length + k) := by
    intro legend hhead
    have hsome := mem_positions.mp (List.mem_of_head? hhead)
    obtain rfl := Option.some.inj (hlegend.symm.trans hsome)
    have htail := honce added.1 (heq ▸ hverdictMem)
    rw [List.eq_cons_of_mem_head? hhead, htail]
    rfl
  refine ⟨verdictData, hverdictData, ?_⟩
  exact (hvalued'.settled _ _ _ data hlegend hstays hslot (hsame ▸ hslot)).found verdict hmem heq verdictData
    hverdictData

end Answer

/-! ### All responses -/

theorem patchResponse_ran {verdictResponse original result : AnnotationsPromResponse F} {spare : ℕ}
    (hordered : Ordered verdictResponse original) (hevent : isChaosEvent original.queryID = true)
    (h : patchResponse cmp verdictResponse spare original = some result) :
    ∃ patching, Ran verdictResponse original verdictResponse.legends.zipIdx patching ∧
      Valued cmp verdictResponse original verdictResponse.legends.zipIdx patching ∧
      result = patching.response.mapColumns (without (discovered original.legends verdictResponse.legends)) := by
  rw [patchResponse, if_pos hevent] at h
  obtain ⟨patching, hrun, hremoved⟩ := Option.bind_eq_some_iff.mp h
  have hran := ran_of_foldlM hordered.lengths hrun
  refine ⟨patching, hran, valued_of_foldlM hordered.lengths hrun, ?_⟩
  rw [hran.duplicates, map_fst_zipIdx,
    removeDuplicates_of_ascending ⟨hran.tsvs_length, hran.subDataArray_length⟩ hordered.ascending] at hremoved
  exact (Option.some.inj hremoved).symm

theorem isChaosEvent_of_patchResponse {verdictResponse original result : AnnotationsPromResponse F} {spare : ℕ}
    (h : patchResponse cmp verdictResponse spare original = some result)
    (hevent : isChaosEvent original.queryID = false) : result = original := by
  rw [patchResponse, hevent] at h
  exact (Option.some.inj h).symm

theorem patchResponse_repeats {verdictResponse original result : AnnotationsPromResponse F} {spare : ℕ}
    (h : patchResponse cmp verdictResponse spare original = some result)
    (hcond : isChaosEvent original.queryID = true → Ordered verdictResponse original ∧
      Separate cmp verdictResponse original ∧ Consistent cmp verdictResponse) (spare' : ℕ) :
    patchResponse cmp verdictResponse spare' result = some result := by
  cases hevent : isChaosEvent original.queryID with
  | false =>
      have hsame := isChaosEvent_of_patchResponse h hevent
      refine patchResponse_of_done fun hresult => ?_
      rw [hsame, hevent] at hresult
      cases hresult
  | true =>
      obtain ⟨hordered, hseparate, hconsistent⟩ := hcond hevent
      obtain ⟨patching, hran, hvalued, rfl⟩ := patchResponse_ran hordered hevent h
      exact patchResponse_of_done fun _ verdict hmem =>
        done_of_ran hran hvalued hordered hseparate hconsistent hmem

theorem patchChaosEventWithVerdict_repeats {spare : ℕ → ℕ} {annotations results : List (AnnotationsPromResponse F)}
    {verdictResponse : AnnotationsPromResponse F}
    (hrun : Ops.patchChaosEventWithVerdict cmp spare annotations verdictResponse = some results) :
    ((∀ annotation ∈ annotations, isChaosEvent annotation.queryID = true → Ordered verdictResponse annotation ∧
        Separate cmp verdictResponse annotation ∧ Consistent cmp verdictResponse) →
      ∀ spare', Ops.patchChaosEventWithVerdict cmp spare' results verdictResponse = some results) ∧
    ((∃ spare', Ops.patchChaosEventWithVerdict cmp spare' results verdictResponse = some results) →
      ∀ annotation ∈ annotations, isChaosEvent annotation.queryID = true → Ordered verdictResponse annotation →
        Separate cmp verdictResponse annotation) := by
  have hall := forall₂_of_mapM hrun
  constructor
  · intro hcond spare'
    have hfixed : List.Forall₂ (fun ( annotation : AnnotationsPromResponse F × ℕ) result =>
        patchResponse cmp verdictResponse (spare' annotation.2) annotation.1 = some result) results.zipIdx results := by
      refine List.forall₂_iff_get.mpr ⟨by simp, fun i hi hi' => ?_⟩
      obtain ⟨ annotation, hannotation, hpatch⟩ := Program.exists_left_of_forall₂ hall (List.get_mem results ⟨i, hi'⟩)
      have hmem := List.fst_mem_of_mem_zipIdx hannotation
      simpa using patchResponse_repeats hpatch (hcond _ hmem) (spare' i)
    exact mapM_of_forall₂ hfixed
  · rintro ⟨spare', hagain⟩ annotation hannotation hevent hordered
    obtain ⟨i, hi⟩ := List.mem_iff_getElem?.mp hannotation
    have hzip : annotations.zipIdx[i]? = some ( annotation, i) := by
      rw [List.getElem?_zipIdx, hi, Option.map_some, Nat.zero_add]
    obtain ⟨result, hresult, hpatch⟩ := Program.getElem?_of_forall₂ hall hzip
    have hzip' : results.zipIdx[i]? = some (result, i) := by
      rw [List.getElem?_zipIdx, hresult, Option.map_some, Nat.zero_add]
    obtain ⟨result', hresult', hpatch'⟩ := Program.getElem?_of_forall₂ (forall₂_of_mapM hagain) hzip'
    obtain rfl := Option.some.inj (hresult.symm.trans hresult')
    obtain ⟨patching, hran, -, rfl⟩ := patchResponse_ran hordered hevent hpatch
    exact separate_of_repeats hran hpatch' hevent

theorem verdictAnswer_subDataArray {legends : List String} {i : ℕ} {data : List (SubData Int)}
    (h : (verdictAnswer legends).subDataArray[i]? = some data) : data = [] := by
  obtain ⟨_, _, rfl⟩ := List.mem_map.mp (List.mem_of_getElem? h)
  rfl

theorem patchChaosEventWithVerdict_repeats_added :
    Ops.patchChaosEventWithVerdict wholeDates (fun _ => 0)
        [⟨"chaos-event-1", ["pod-delete", "node-drain"], [[(30, 1)], []], [[], []]⟩]
        (verdictAnswer ["pod-delete", "node-drain"]) =
      some [⟨"chaos-event-1", ["pod-delete", "node-drain"], [[(30, 1)], []], [[], []]⟩] := by
  have hrun : Ops.patchChaosEventWithVerdict wholeDates (fun _ => 0) [eventResponse ["pod-delete"]]
      (verdictAnswer ["pod-delete", "node-drain"]) =
        some [⟨"chaos-event-1", ["pod-delete", "node-drain"], [[(30, 1)], []], [[], []]⟩] := by decide +kernel
  refine (patchChaosEventWithVerdict_repeats hrun).1 (fun annotation hannotation _ => ?_) _
  obtain rfl := List.mem_singleton.mp hannotation
  refine ⟨⟨⟨rfl, rfl⟩, by decide +kernel⟩, ⟨by decide +kernel, ?_⟩, ?_⟩
  · intro _ _ verdict hmem _ _ _
    have hlt : verdict.2 < (verdictAnswer ["pod-delete", "node-drain"]).subDataArray.length :=
      List.snd_lt_of_mem_zipIdx hmem
    refine ⟨_, List.getElem?_eq_getElem hlt, fun verdictSubData hverdictSubData => ?_⟩
    rw [verdictAnswer_subDataArray (List.getElem?_eq_getElem hlt)] at hverdictSubData
    cases hverdictSubData
  · intro _ _ _ _ _ _ _ hdata _ left hleft
    rw [verdictAnswer_subDataArray hdata] at hleft
    cases hleft

/-- A verdict that is listed twice and has no event is appended twice, and has no values the next time. -/
theorem not_repeats : ¬ ∀ (spare spare' : ℕ → ℕ) (annotations results : List (AnnotationsPromResponse Int))
    (verdictResponse : AnnotationsPromResponse Int),
    Ops.patchChaosEventWithVerdict wholeDates spare annotations verdictResponse = some results →
    Ops.patchChaosEventWithVerdict wholeDates spare' results verdictResponse = some results := by
  intro h
  have hrun : Ops.patchChaosEventWithVerdict wholeDates (fun _ => 0) [eventResponse []]
      (verdictAnswer ["pod-delete", "pod-delete"]) =
        some [⟨"chaos-event-1", ["pod-delete", "pod-delete"], [[], []], [[], []]⟩] := by decide +kernel
  have hnone : Ops.patchChaosEventWithVerdict wholeDates (fun _ => 0)
      [⟨"chaos-event-1", ["pod-delete", "pod-delete"], [[], []], [[], []]⟩]
      (verdictAnswer ["pod-delete", "pod-delete"]) = none := by decide +kernel
  have hagain := h _ (fun _ => 0) _ _ _ hrun
  rw [hnone] at hagain
  cases hagain

end LitmusPortal.Prometheus
