import LitmusPortal.Analytics.VerdictRuns
import LitmusPortal.Lib.Program
import Mathlib.Data.List.Dedup

/-!
# Duplicate events

Later events are removed by the order in which the verdicts found them. When that is the order of the events, just the
later ones go and the first ones keep their series and sub-data.
-/

namespace LitmusPortal.Prometheus

open Removal Growth

variable {F : Type} {cmp : Comparison F}

/-! ### Removal -/

def AnnotationsPromResponse.mapColumns (response : AnnotationsPromResponse F)
    (f : {α : Type} → List α → List α) : AnnotationsPromResponse F :=
  { response with
    legends := f response.legends
    tsvs := f response.tsvs
    subDataArray := f response.subDataArray }

theorem removeDuplicate_removing {response : AnnotationsPromResponse F} (hlengths : response.EqualLengths)
    {noted : List ℕ} (h : noted.Pairwise (· < ·)) {j : ℕ} (hj : j < response.legends.length) :
    removeDuplicate noted.zipIdx (response.mapColumns (removing noted · j)) j =
      some (response.mapColumns (removing noted · (j + 1))) := by
  have htsvs : j < response.tsvs.length := hlengths.tsvs.symm ▸ hj
  have hdata : j < response.subDataArray.length := hlengths.subDataArray.symm ▸ hj
  by_cases hmem : j ∈ noted
  · obtain ⟨p, hp⟩ := List.mem_iff_getElem?.mp hmem
    have hcount := add_length_remaining h hp
    have hlt : ∀ {β : Type} {xs : List β}, j < xs.length → j - p < (removing noted xs j).length := by
      intro β xs hxs
      rw [length_removing h hp hxs]
      omega
    rw [removeDuplicate, lookup_zipIdx_eq_some (h.imp Nat.ne_of_lt) hp]
    dsimp only
    rw [if_pos (by omega), removeAt, if_pos ⟨hlt hj, hlt htsvs, hlt hdata⟩]
    simp only [AnnotationsPromResponse.mapColumns, eraseIdx_removing h hp hj, eraseIdx_removing h hp htsvs,
      eraseIdx_removing h hp hdata]
  · rw [removeDuplicate, lookup_zipIdx_eq_none hmem]
    simp only [AnnotationsPromResponse.mapColumns, removing_succ_of_notMem hj hmem,
      removing_succ_of_notMem htsvs hmem, removing_succ_of_notMem hdata hmem]

theorem removeDuplicates_of_ascending {response : AnnotationsPromResponse F} (hlengths : response.EqualLengths)
    {noted : List ℕ} (h : noted.Pairwise (· < ·)) :
    removeDuplicates noted.zipIdx response = some (response.mapColumns (without noted)) := by
  have hloop := @foldlM_total _ _ (removeDuplicate (F := F) noted.zipIdx)
    (fun front now => now = response.mapColumns (removing noted · front.length)) (List.range response.legends.length)
    response (fun front j back now hitems hnow => ?_) ?_
  · obtain ⟨result, hresult, rfl⟩ := hloop
    rw [removeDuplicates, hresult, List.length_range]
    have htsvs := removing_length noted response.tsvs
    have hdata := removing_length noted response.subDataArray
    rw [hlengths.tsvs] at htsvs
    rw [hlengths.subDataArray] at hdata
    simp only [AnnotationsPromResponse.mapColumns, removing_length, htsvs, hdata]
  · have hat : (List.range response.legends.length)[front.length]? = some j := by
      rw [hitems, List.getElem?_append_right (Nat.le_refl _), Nat.sub_self]
      rfl
    obtain ⟨hlt, rfl⟩ := List.getElem?_eq_some_iff.mp hat
    rw [List.length_range] at hlt
    rw [List.getElem_range, hnow, List.length_append]
    exact ⟨_, removeDuplicate_removing hlengths h hlt, rfl⟩
  · simp only [AnnotationsPromResponse.mapColumns, List.length_nil, removing_zero]

/-! ### When the loop goes through -/

/-- The events that can be found as duplicates: each has the legend of a verdict and a value, and no verdict is
appended twice. -/
structure Discoverable (verdictResponse original : AnnotationsPromResponse F) : Prop where
  later : ∀ i legend, original.legends[i]? = some legend → legend ∈ original.legends.take i →
    legend ∈ verdictResponse.legends ∧ ∃ value rest, original.tsvs[i]? = some (value :: rest)
  added : ((verdictOnly verdictResponse original.legends verdictResponse.legends.zipIdx).map Prod.fst).Nodup

/-- The events are found in their order, and the last one of a legend has the sub-data of the first one. -/
structure InOrder (verdictResponse original : AnnotationsPromResponse F) : Prop where
  ascending : (discovered original.legends verdictResponse.legends).Pairwise (· < ·)
  data : ∀ legend first last data data', (positions original.legends legend).head? = some first →
    (positions original.legends legend).getLast? = some last → original.subDataArray[first]? = some data →
    original.subDataArray[last]? = some data' → keys data <+: keys data'

variable {verdictResponse original : AnnotationsPromResponse F} {front : List (String × ℕ)} {patching next : Patching F}

theorem stays_or_replaced (events : List String) (i : ℕ) :
    Stays events i ∨ ∃ legend last, (positions events legend).head? = some i ∧
      (positions events legend).getLast? = some last := by
  by_cases h : ∃ legend, (positions events legend).head? = some i
  · obtain ⟨legend, hfirst⟩ := h
    have hne : positions events legend ≠ [] := List.ne_nil_of_mem (List.mem_of_head? hfirst)
    exact .inr ⟨legend, _, hfirst, List.getLast?_eq_some_getLast hne⟩
  · exact .inl fun legend hfirst => absurd ⟨legend, hfirst⟩ h

theorem stays_of_getLast? {events : List String} {legend : String} {last : ℕ}
    (h : (positions events legend).getLast? = some last) : Stays events last := by
  intro legend' hfirst
  have hlast := mem_positions.mp (List.mem_of_getLast? h)
  have hlegend := Option.some.inj (hlast.symm.trans (mem_positions.mp (List.mem_of_head? hfirst)))
  exact hlegend ▸ h

theorem grows_of_keys {rows rows' : List (List (SubData F))} {i : ℕ}
    (h : GrowsAt i (rows.map keys) (rows'.map keys)) {data : List (SubData F)} (hdata : rows[i]? = some data) :
    ∃ data', rows'[i]? = some data' ∧ keys data <+: keys data' := by
  obtain ⟨row, hrow, hle⟩ := h (keys data) (by rw [List.getElem?_map, hdata, Option.map_some])
  rw [List.getElem?_map] at hrow
  obtain ⟨data', hdata', rfl⟩ := Option.map_eq_some_iff.mp hrow
  exact ⟨data', hdata', hle⟩

/-- The sub-data of every event has only been appended to. -/
theorem Ran.grows (h : Ran verdictResponse original front patching) (horder : InOrder verdictResponse original)
    (hlengths : original.EqualLengths) {i : ℕ} {data : List (SubData F)} (hdata : original.subDataArray[i]? = some data) :
    ∃ data', patching.response.subDataArray[i]? = some data' ∧ keys data <+: keys data' := by
  rcases stays_or_replaced original.legends i with hstays | ⟨legend, last, hfirst, hlast⟩
  · exact grows_of_keys (h.data i hstays) hdata
  · have hlt : last < original.subDataArray.length := by
      rw [hlengths.subDataArray]
      exact positions_lt (List.mem_of_getLast? hlast)
    have hlastData : original.subDataArray[last]? = some original.subDataArray[last] := List.getElem?_eq_getElem hlt
    obtain ⟨data', hdata', hle⟩ := grows_of_keys (h.data last (stays_of_getLast? hlast)) hlastData
    rw [h.replaced legend i last hfirst hlast]
    split
    · exact ⟨data', hdata', (horder.data legend i last _ _ hfirst hlast hdata hlastData).trans hle⟩
    · exact ⟨data, hdata, List.prefix_refl _⟩

/-- The copy has no more sub-data of an event than the response. -/
theorem Ran.seen_le (h : Ran verdictResponse original front patching) (horder : InOrder verdictResponse original)
    (hlengths : original.EqualLengths) {i : ℕ} (hi : i < original.legends.length) :
    ∃ events data, patching.seen[i]? = some events ∧ patching.response.subDataArray[i]? = some data ∧
      events.length ≤ data.length := by
  have hold : ∀ {j}, j < original.legends.length → ∃ old, original.subDataArray[j]? = some old := by
    intro j hj
    rw [← hlengths.subDataArray] at hj
    exact ⟨_, List.getElem?_eq_getElem hj⟩
  have hseen : ∀ {j}, j < original.legends.length → Stays original.legends j →
      ∃ events data, patching.seen[j]? = some events ∧ patching.response.subDataArray[j]? = some data ∧
        events.length ≤ data.length := by
    intro j hj hstays
    obtain ⟨old, hold⟩ := hold hj
    obtain ⟨events, hevents, -⟩ := grows_of_keys (h.seen_data j hstays).1 hold
    obtain ⟨data, hdata, hle⟩ := grows_of_keys (h.seen_data j hstays).2 hevents
    refine ⟨events, data, hevents, hdata, ?_⟩
    rw [← length_keys, ← length_keys]
    exact hle.length_le
  rcases stays_or_replaced original.legends i with hstays | ⟨legend, last, hfirst, hlast⟩
  · exact hseen hi hstays
  · rcases h.seen_replaced legend i last hfirst hlast with ⟨hmem, heq⟩ | heq
    · have hreplaced := h.replaced legend i last hfirst hlast
      rw [if_pos hmem] at hreplaced
      rw [heq, hreplaced]
      exact hseen (positions_lt (List.mem_of_getLast? hlast)) (stays_of_getLast? hlast)
    · obtain ⟨old, hold⟩ := hold hi
      obtain ⟨data, hdata, hle⟩ := h.grows horder hlengths hold
      refine ⟨old, data, heq.trans hold, hdata, ?_⟩
      rw [← length_keys, ← length_keys]
      exact hle.length_le

theorem patchVerdict_total (h : Ran verdictResponse original front patching) (hlengths : original.EqualLengths)
    (hverdicts : verdictResponse.EqualLengths) (hlater : Discoverable verdictResponse original)
    (horder : InOrder verdictResponse original) {verdict : String × ℕ}
    (hverdict : verdict.2 < verdictResponse.legends.length) :
    ∃ next, patchVerdict cmp verdictResponse original.legends patching verdict = some next := by
  have htsv : verdict.2 < verdictResponse.tsvs.length := hverdicts.tsvs.symm ▸ hverdict
  have hdata : verdict.2 < verdictResponse.subDataArray.length := hverdicts.subDataArray.symm ▸ hverdict
  by_cases hmem : verdict.1 ∈ original.legends
  · have hpatched : ∀ i ∈ positions original.legends verdict.1,
        ∃ data, patching.patched cmp verdictResponse.subDataArray[verdict.2]? i = some data := by
      intro i hi
      obtain ⟨events, old, hevents, hold, hle⟩ := h.seen_le horder hlengths (positions_lt hi)
      obtain ⟨data, hpatch⟩ := @patchSubData_total _ cmp events old hle verdictResponse.subDataArray[verdict.2]
      refine ⟨data, ?_⟩
      rw [Patching.patched, List.getElem?_eq_getElem hdata, hevents, hold]
      exact hpatch
    have htsvs : ∀ i ∈ positions original.legends verdict.1, i < patching.response.tsvs.length := by
      intro i hi
      have hlt := positions_lt hi
      rw [h.tsvs_length, h.legends, List.length_append]
      omega
    have hseries : ∀ i ∈ (positions original.legends verdict.1).tail,
        ∃ value rest, patching.response.tsvs[i]? = some (value :: rest) := by
      intro i hi
      obtain ⟨hlegend, htake⟩ := mem_tail_positions.mp hi
      rw [h.later verdict.1 i hi]
      exact (hlater.later i verdict.1 hlegend htake).2
    obtain ⟨⟨after, found⟩, hevents⟩ := patchEvents_total hpatched htsvs hseries
    obtain ⟨-, rfl⟩ := passed_of_patchEvents hevents
    have hsome : (positions original.legends verdict.1).head?.isSome = true := by
      rw [List.isSome_head?, Ne, positions_eq_nil_iff, not_not]
      exact hmem
    refine ⟨after, Option.bind_eq_some_iff.mpr ⟨_, hevents, ?_⟩⟩
    dsimp only
    rw [if_pos hsome]
    rfl
  · rw [patchVerdict_unfound hmem, Patching.addVerdict, List.getElem?_eq_getElem htsv, List.getElem?_eq_getElem hdata]
    by_cases hvalid : (verdictResponse.tsvs[verdict.2]).any (·.2 = 1) = true
    · exact ⟨_, Option.bind_eq_some_iff.mpr ⟨_, rfl, if_pos hvalid⟩⟩
    · exact ⟨_, Option.bind_eq_some_iff.mpr ⟨_, rfl, if_neg hvalid⟩⟩

theorem foldlM_patchVerdict_total (hlengths : original.EqualLengths) (hverdicts : verdictResponse.EqualLengths)
    (hlater : Discoverable verdictResponse original) (horder : InOrder verdictResponse original) (spare : ℕ) :
    ∃ patching, verdictResponse.legends.zipIdx.foldlM (patchVerdict cmp verdictResponse original.legends)
        ⟨original, none, spare, []⟩ = some patching ∧
      Ran verdictResponse original verdictResponse.legends.zipIdx patching := by
  refine foldlM_total (fun front verdict back patching hitems hran => ?_) (ran_nil hlengths spare)
  have hmem : verdict ∈ verdictResponse.legends.zipIdx := hitems ▸ by simp
  obtain ⟨next, hnext⟩ := @patchVerdict_total _ cmp _ _ _ _ hran hlengths hverdicts hlater horder verdict
    (List.snd_lt_of_mem_zipIdx hmem)
  exact ⟨next, hnext, hran.verdict hnext⟩

/-! ### What is kept -/

/-- The first event of each legend is kept in its place among the first ones, and else there are only verdicts. -/
structure EventsKept (verdictResponse original result : AnnotationsPromResponse F) : Prop where
  lengths : result.EqualLengths
  nodup : result.legends.Nodup
  kept : ∀ r i : ℕ, (firsts original.legends)[r]? = some i →
    result.legends[r]? = original.legends[i]? ∧
    (∀ tsv, original.tsvs[i]? = some tsv → ∃ tsv', result.tsvs[r]? = some tsv' ∧ tsv <+: tsv') ∧
    ∀ data, original.subDataArray[i]? = some data →
      ∃ data', result.subDataArray[r]? = some data' ∧ keys data <+: keys data'
  rest : ∀ r legend, (firsts original.legends).length ≤ r → result.legends[r]? = some legend →
    legend ∈ verdictResponse.legends ∧ legend ∉ original.legends

theorem Discoverable.remaining (h : Discoverable verdictResponse original) :
    remaining (discovered original.legends verdictResponse.legends) original.legends.length =
      firsts original.legends := by
  apply remaining_eq_firsts
  intro i
  rw [mem_discovered]
  constructor
  · rintro ⟨legend, -, hlater⟩
    exact ⟨legend, hlater⟩
  · rintro ⟨legend, hlegend, htake⟩
    exact ⟨legend, (h.later i legend hlegend htake).1, hlegend, htake⟩

theorem mem_verdictOnly {events : List String} {verdicts : List (String × ℕ)} {legend : String}
    (h : legend ∈ (verdictOnly verdictResponse events verdicts).map Prod.fst) :
    legend ∈ verdicts.map Prod.fst ∧ legend ∉ events := by
  obtain ⟨verdict, hverdict, rfl⟩ := List.mem_map.mp h
  obtain ⟨hmem, hcond⟩ := List.mem_filter.mp hverdict
  exact ⟨List.mem_map_of_mem hmem, (of_decide_eq_true hcond).1⟩

theorem map_fst_zipIdx (legends : List String) : legends.zipIdx.map Prod.fst = legends :=
  List.zipIdx_map_fst 0 legends

/-- Of the columns after the loop, those of the first events and of the verdicts are left. -/
theorem eventsKept_of_ran (hran : Ran verdictResponse original verdictResponse.legends.zipIdx patching)
    (hlengths : original.EqualLengths) (hlater : Discoverable verdictResponse original)
    (horder : InOrder verdictResponse original) :
    EventsKept verdictResponse original (patching.response.mapColumns
      (without (discovered original.legends verdictResponse.legends))) := by
  have hnoted : ∀ i ∈ discovered original.legends verdictResponse.legends, i < original.legends.length :=
    fun i hi => discovered_lt hi
  have hsize : ∀ {β : Type} {column : List β}, column.length = patching.response.legends.length →
      (without (discovered original.legends verdictResponse.legends) column).length =
        (without (discovered original.legends verdictResponse.legends) patching.response.legends).length := by
    intro β column hcolumn
    rw [length_without, length_without, hcolumn]
  have hat : ∀ {β : Type} {column : List β} {r i : ℕ}, column.length = patching.response.legends.length →
      (firsts original.legends)[r]? = some i →
      (without (discovered original.legends verdictResponse.legends) column)[r]? = column[i]? := by
    intro β column r i hcolumn hi
    have hlt : r < (firsts original.legends).length := (List.getElem?_eq_some_iff.mp hi).1
    rw [getElem?_without, hcolumn, hran.legends, List.length_append, remaining_add hnoted, hlater.remaining,
      List.getElem?_append_left hlt, hi]
    rfl
  have hkept : without (discovered original.legends verdictResponse.legends) patching.response.legends =
      without (discovered original.legends verdictResponse.legends) original.legends ++
        (verdictOnly verdictResponse original.legends verdictResponse.legends.zipIdx).map Prod.fst := by
    rw [hran.legends, without_append hnoted]
  constructor
  case lengths => exact ⟨hsize hran.tsvs_length, hsize hran.subDataArray_length⟩
  case nodup =>
    change (without (discovered original.legends verdictResponse.legends) patching.response.legends).Nodup
    rw [hkept]
    refine (nodup_without fun i legend hlegend htake => ?_).append hlater.added ?_
    · exact mem_discovered.mpr ⟨legend, (hlater.later i legend hlegend htake).1, hlegend, htake⟩
    · intro legend hleft hright
      exact (mem_verdictOnly hright).2 ((without_sublist _ _).mem hleft)
  case kept =>
    intro r i hi
    have hlt : i < original.legends.length := by
      rw [← hlater.remaining] at hi
      exact lt_of_mem_remaining (List.mem_of_getElem? hi)
    refine ⟨?_, fun tsv htsv => ?_, fun data hdata => ?_⟩
    · refine (hat rfl hi).trans ?_
      rw [hran.legends, List.getElem?_append_left hlt]
    · obtain ⟨tsv', htsv', hle⟩ := hran.series i tsv htsv
      exact ⟨tsv', (hat hran.tsvs_length hi).trans htsv', hle⟩
    · obtain ⟨data', hdata', hle⟩ := hran.grows horder hlengths hdata
      exact ⟨data', (hat hran.subDataArray_length hi).trans hdata', hle⟩
  case rest =>
    intro r legend hr hlegend
    have hlength : (without (discovered original.legends verdictResponse.legends) original.legends).length =
        (firsts original.legends).length := by
      rw [length_without, hlater.remaining]
    change (without (discovered original.legends verdictResponse.legends) patching.response.legends)[r]? = _ at hlegend
    rw [hkept, List.getElem?_append_right (by omega)] at hlegend
    have hmem := mem_verdictOnly (List.mem_of_getElem? hlegend)
    rwa [map_fst_zipIdx] at hmem

/-! ### What has to be found -/

theorem sublist_of_removeDuplicate {duplicates : List (ℕ × ℕ)} {response result : AnnotationsPromResponse F} {i : ℕ}
    (h : removeDuplicate duplicates response i = some result) : result.legends.Sublist response.legends ∧
      response.legends.length ≤ result.legends.length + if (duplicates.lookup i).isSome then 1 else 0 := by
  rw [removeDuplicate] at h
  split at h
  · next offset hlookup =>
      rw [hlookup]
      split at h
      · rw [removeAt] at h
        split at h
        · next hlt =>
            obtain rfl := Option.some.inj h
            refine ⟨List.eraseIdx_sublist _ _, ?_⟩
            have hlength := List.length_eraseIdx_of_lt hlt.1
            simp only [Option.isSome_some, ↓reduceIte, hlength]
            omega
        · cases h
      · obtain rfl := Option.some.inj h
        exact ⟨List.Sublist.refl _, Nat.le_add_right _ _⟩
  · obtain rfl := Option.some.inj h
    exact ⟨List.Sublist.refl _, Nat.le_add_right _ _⟩

/-- No more is removed than was noted. -/
theorem sublist_of_removeDuplicates {noted : List ℕ} {response result : AnnotationsPromResponse F}
    (h : removeDuplicates noted.zipIdx response = some result) : result.legends.Sublist response.legends ∧
      response.legends.length ≤ result.legends.length + noted.length := by
  have hloop := @foldlM_invariant _ _ (removeDuplicate (F := F) noted.zipIdx)
    (fun front now => now.legends.Sublist response.legends ∧
      response.legends.length ≤ now.legends.length + (front.filter (· ∈ noted)).length)
    (List.range response.legends.length) response result (fun front i back now next _ hnow hnext => ?_)
    ⟨List.Sublist.refl _, Nat.le_add_right _ _⟩ h
  · refine ⟨hloop.1, ?_⟩
    have hfiltered : ((List.range response.legends.length).filter (· ∈ noted)).Subperm noted :=
      List.subperm_of_subset (List.nodup_range.filter _) fun i hi => of_decide_eq_true (List.mem_filter.mp hi).2
    have hle := hfiltered.length_le
    omega
  · obtain ⟨hsublist, hlength⟩ := sublist_of_removeDuplicate hnext
    refine ⟨hsublist.trans hnow.1, ?_⟩
    have hcount := hnow.2
    rw [lookup_zipIdx] at hlength
    rw [List.filter_append, List.length_append]
    by_cases hi : i ∈ noted
    · simp only [hi, ↓reduceIte, Option.isSome_some] at hlength
      simp only [hi, decide_true, List.filter_cons_of_pos, List.filter_nil, List.length_singleton]
      omega
    · simp only [hi, ↓reduceIte, Option.isSome_none, Bool.false_eq_true] at hlength
      omega

/-- As many legends as are left have to be found as duplicates, and those that are added differ. -/
theorem discoverable_of_eventsKept (hran : Ran verdictResponse original verdictResponse.legends.zipIdx patching)
    {result : AnnotationsPromResponse F} (h : removeDuplicates patching.duplicateEventIndices patching.response = some result)
    (hkept : EventsKept verdictResponse original result) : Discoverable verdictResponse original := by
  rw [hran.duplicates, map_fst_zipIdx] at h
  obtain ⟨hsublist, hlength⟩ := sublist_of_removeDuplicates h
  rw [hran.legends, List.length_append] at hlength
  have hnoted := subperm_laters (nodup_discovered original.legends verdictResponse.legends) fun i hi => by
    obtain ⟨legend, -, hlater⟩ := mem_discovered.mp hi
    exact ⟨legend, hlater⟩
  have hsplit := length_firsts_add_laters original.legends
  have hle := hnoted.length_le
  -- behind the first events there is nothing but verdicts that were added, each once
  have hrest : (result.legends.drop (firsts original.legends).length).Subperm
      ((verdictOnly verdictResponse original.legends verdictResponse.legends.zipIdx).map Prod.fst).dedup := by
    refine List.subperm_of_subset (hkept.nodup.sublist (List.drop_sublist _ _)) fun legend hlegend => ?_
    obtain ⟨r, hr⟩ := List.mem_iff_getElem?.mp hlegend
    rw [List.getElem?_drop] at hr
    have hnot := (hkept.rest _ legend (Nat.le_add_right _ _) hr).2
    have hmem := hsublist.mem (List.mem_of_mem_drop hlegend)
    rw [hran.legends, List.mem_append] at hmem
    exact List.mem_dedup.mpr (hmem.resolve_left hnot)
  have hrestLength := hrest.length_le
  rw [List.length_drop] at hrestLength
  have hdedup := (List.dedup_sublist
    ((verdictOnly verdictResponse original.legends verdictResponse.legends.zipIdx).map Prod.fst)).length_le
  constructor
  · intro i legend hlegend htake
    have hall : (discovered original.legends verdictResponse.legends).Perm (laters original.legends) :=
      hnoted.perm_of_length_le (by omega)
    have hmem : i ∈ discovered original.legends verdictResponse.legends :=
      hall.mem_iff.mpr (mem_laters.mpr ⟨legend, hlegend, htake⟩)
    obtain ⟨legend', hverdict, hlegend', -⟩ := mem_discovered.mp hmem
    obtain rfl := Option.some.inj (hlegend.symm.trans hlegend')
    have hzip := hverdict
    rw [← map_fst_zipIdx verdictResponse.legends] at hzip
    obtain ⟨verdict, hmerged, rfl⟩ := List.mem_map.mp hzip
    exact ⟨hverdict, hran.merged verdict hmerged i (mem_tail_positions.mpr ⟨hlegend, htake⟩)⟩
  · have heq := (List.dedup_sublist
      ((verdictOnly verdictResponse original.legends verdictResponse.legends.zipIdx).map Prod.fst)).eq_of_length
      (by omega)
    exact heq ▸ List.nodup_dedup _

/-! ### The responses -/

/-- The condition on a response: those that are not patched have to have distinct legends. -/
def Patchable (verdictResponse original : AnnotationsPromResponse F) : Prop :=
  if isChaosEvent original.queryID then Discoverable verdictResponse original else original.legends.Nodup

theorem eventsKept_self (hlengths : original.EqualLengths) :
    EventsKept verdictResponse original original ↔ original.legends.Nodup := by
  refine ⟨fun h => h.nodup, fun hnodup => ?_⟩
  have hfirsts : firsts original.legends = List.range original.legends.length := by
    rw [← @remaining_eq_firsts _ _ [] original.legends]
    · exact List.filter_eq_self.mpr fun i _ => by simp
    · intro i
      refine ⟨fun hi => absurd hi List.not_mem_nil, ?_⟩
      rintro ⟨legend, hlegend, htake⟩
      obtain ⟨j, hj, hat⟩ := List.mem_take_iff_getElem.mp htake
      obtain ⟨hi, heq⟩ := List.getElem?_eq_some_iff.mp hlegend
      have hj : j < original.legends.length := by omega
      have := (@List.Nodup.getElem_inj_iff _ _ hnodup _ hj _ hi).mp (hat.trans heq.symm)
      omega
  refine ⟨hlengths, hnodup, fun r i hi => ?_, fun r legend hr hlegend => ?_⟩
  · rw [hfirsts] at hi
    obtain ⟨hlt, rfl⟩ := List.getElem?_eq_some_iff.mp hi
    rw [List.getElem_range]
    exact ⟨rfl, fun tsv htsv => ⟨tsv, htsv, List.prefix_refl _⟩, fun data hdata => ⟨data, hdata, List.prefix_refl _⟩⟩
  · rw [hfirsts, List.length_range] at hr
    have := (List.getElem?_eq_some_iff.mp hlegend).1
    omega

theorem patchResponse_keeps (hlengths : original.EqualLengths) (hverdicts : verdictResponse.EqualLengths)
    (hpatchable : Patchable verdictResponse original)
    (horder : isChaosEvent original.queryID = true → InOrder verdictResponse original) (spare : ℕ) :
    ∃ result, patchResponse cmp verdictResponse spare original = some result ∧
      EventsKept verdictResponse original result := by
  rw [Patchable] at hpatchable
  by_cases hevent : isChaosEvent original.queryID = true
  · rw [if_pos hevent] at hpatchable
    obtain ⟨patching, hrun, hran⟩ := foldlM_patchVerdict_total hlengths hverdicts hpatchable (horder hevent) spare
    refine ⟨_, ?_, eventsKept_of_ran hran hlengths hpatchable (horder hevent)⟩
    rw [patchResponse, if_pos hevent]
    refine Option.bind_eq_some_iff.mpr ⟨patching, hrun, ?_⟩
    rw [hran.duplicates, map_fst_zipIdx]
    exact removeDuplicates_of_ascending ⟨hran.tsvs_length, hran.subDataArray_length⟩ (horder hevent).ascending
  · rw [if_neg hevent] at hpatchable
    refine ⟨original, ?_, (eventsKept_self hlengths).mpr hpatchable⟩
    rw [patchResponse, if_neg hevent]

theorem patchable_of_patchResponse (hlengths : original.EqualLengths) {spare : ℕ} {result : AnnotationsPromResponse F}
    (h : patchResponse cmp verdictResponse spare original = some result)
    (hkept : EventsKept verdictResponse original result) : Patchable verdictResponse original := by
  rw [patchResponse] at h
  split at h
  · next hevent =>
      obtain ⟨patching, hrun, hremoved⟩ := Option.bind_eq_some_iff.mp h
      rw [Patchable, if_pos hevent]
      exact discoverable_of_eventsKept (ran_of_foldlM hlengths hrun) hremoved hkept
  · next hevent =>
      obtain rfl := Option.some.inj h
      rw [Patchable, if_neg hevent]
      exact hkept.nodup

theorem forall₂_zipIdx {α β : Type} {related : α → β → Prop} {xs : List α} {ys : List β} :
    List.Forall₂ (fun x y => related x.1 y) xs.zipIdx ys ↔ List.Forall₂ related xs ys := by
  rw [← List.forall₂_map_left_iff, List.zipIdx_map_fst]

theorem patchChaosEventWithVerdict_keeps_events (cmp : Comparison F) (spare : ℕ → ℕ)
    {annotations : List (AnnotationsPromResponse F)} {verdictResponse : AnnotationsPromResponse F}
    (hlengths : ∀ annotation ∈ annotations, annotation.EqualLengths) (hverdicts : verdictResponse.EqualLengths) :
    ((∀ annotation ∈ annotations, Patchable verdictResponse annotation ∧
        (isChaosEvent annotation.queryID = true → InOrder verdictResponse annotation)) →
      ∃ results, Ops.patchChaosEventWithVerdict cmp spare annotations verdictResponse = some results ∧
        List.Forall₂ (EventsKept verdictResponse) annotations results) ∧
    ((∃ results, Ops.patchChaosEventWithVerdict cmp spare annotations verdictResponse = some results ∧
        List.Forall₂ (EventsKept verdictResponse) annotations results) →
      ∀ annotation ∈ annotations, Patchable verdictResponse annotation) := by
  constructor
  · intro hpatchable
    obtain ⟨results, hresults, hkept⟩ := @mapM_total _ _
      (fun annotation : AnnotationsPromResponse F × ℕ =>
        patchResponse cmp verdictResponse (spare annotation.2) annotation.1)
      (fun annotation result => EventsKept verdictResponse annotation.1 result) annotations.zipIdx
      fun annotation hannotation => by
        have hmem := List.fst_mem_of_mem_zipIdx hannotation
        obtain ⟨hfound, horder⟩ := hpatchable _ hmem
        exact patchResponse_keeps (hlengths _ hmem) hverdicts hfound horder _
    exact ⟨results, hresults, forall₂_zipIdx.mp hkept⟩
  · rintro ⟨results, hresults, hkept⟩ annotation hannotation
    obtain ⟨i, hi⟩ := List.mem_iff_getElem?.mp hannotation
    obtain ⟨result, hresult, hevents⟩ := Program.getElem?_of_forall₂ hkept hi
    have hzip : annotations.zipIdx[i]? = some ( annotation, i) := by
      rw [List.getElem?_zipIdx, hi, Option.map_some, Nat.zero_add]
    obtain ⟨result', hresult', hpatch⟩ := Program.getElem?_of_forall₂ (forall₂_of_mapM hresults) hzip
    obtain rfl := Option.some.inj (hresult.symm.trans hresult')
    exact patchable_of_patchResponse (hlengths annotation hannotation) hpatch hevents

def wholeDates : Comparison Int where
  same date date' := date = date'
  positive date := 0 < date
  same_left _ _ _ := decide_eq_true rfl
  same_positive _ _ := decide_eq_true rfl

def eventResponse (legends : List String) : AnnotationsPromResponse Int where
  queryID := "chaos-event-1"
  legends := legends
  tsvs := legends.map fun _ => [(30, 1)]
  subDataArray := legends.map fun _ => []

def verdictAnswer (legends : List String) : AnnotationsPromResponse Int where
  queryID := "chaos-verdict-1"
  legends := legends
  tsvs := legends.map fun _ => [(60, 1)]
  subDataArray := legends.map fun _ => []

theorem patchChaosEventWithVerdict_keeps_events_merged :
    ∃ results, Ops.patchChaosEventWithVerdict wholeDates (fun _ => 0)
        [eventResponse ["pod-delete", "disk-fill", "pod-delete"]] (verdictAnswer ["pod-delete", "node-drain"]) =
          some results ∧
      List.Forall₂ (EventsKept (verdictAnswer ["pod-delete", "node-drain"]))
        [eventResponse ["pod-delete", "disk-fill", "pod-delete"]] results := by
  refine (patchChaosEventWithVerdict_keeps_events wholeDates (fun _ => 0) ?_ ⟨rfl, rfl⟩).1 ?_
  · intro annotation hannotation
    obtain rfl := List.mem_singleton.mp hannotation
    exact ⟨rfl, rfl⟩
  · intro annotation hannotation
    obtain rfl := List.mem_singleton.mp hannotation
    have hevent : isChaosEvent (eventResponse ["pod-delete", "disk-fill", "pod-delete"]).queryID = true := by
      decide +kernel
    rw [Patchable, if_pos hevent]
    refine ⟨⟨fun i legend hlegend htake => ?_, by decide +kernel⟩, fun _ => ⟨by decide +kernel, ?_⟩⟩
    · have hlater : i ∈ laters ["pod-delete", "disk-fill", "pod-delete"] := mem_laters.mpr ⟨legend, hlegend, htake⟩
      rw [show laters ["pod-delete", "disk-fill", "pod-delete"] = [2] by decide +kernel] at hlater
      obtain rfl := List.mem_singleton.mp hlater
      obtain rfl := Option.some.inj hlegend
      exact ⟨by decide +kernel, (30, 1), [], rfl⟩
    · intro legend first last data data' hfirst _ hdata _
      have hempty : data = [] := by
        have hmem := List.mem_of_getElem? hdata
        obtain ⟨_, _, rfl⟩ := List.mem_map.mp hmem
        rfl
      rw [hempty]
      exact List.nil_prefix

/-- Four events found in the order of the verdicts: the offset of the last one is 0. -/
theorem not_keeps_events : ¬ ∀ (spare : ℕ → ℕ) (annotations : List (AnnotationsPromResponse Int))
    (verdictResponse : AnnotationsPromResponse Int),
    (∀ annotation ∈ annotations, annotation.EqualLengths) → verdictResponse.EqualLengths →
    ∃ results, Ops.patchChaosEventWithVerdict wholeDates spare annotations verdictResponse = some results ∧
      List.Forall₂ (EventsKept verdictResponse) annotations results := by
  intro h
  obtain ⟨results, hresults, -⟩ := h (fun _ => 0) [eventResponse ["pod-delete", "disk-fill", "pod-delete", "disk-fill"]]
    (verdictAnswer ["disk-fill", "pod-delete"]) (fun annotation hannotation => by
      obtain rfl := List.mem_singleton.mp hannotation
      exact ⟨rfl, rfl⟩) ⟨rfl, rfl⟩
  have hnone : (Ops.patchChaosEventWithVerdict wholeDates (fun _ => 0)
      [eventResponse ["pod-delete", "disk-fill", "pod-delete", "disk-fill"]]
      (verdictAnswer ["disk-fill", "pod-delete"])).isNone = true := by decide +kernel
  rw [hresults] at hnone
  cases hnone

end LitmusPortal.Prometheus
