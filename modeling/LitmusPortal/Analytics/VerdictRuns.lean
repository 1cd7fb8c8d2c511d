import LitmusPortal.Analytics.VerdictPasses

/-!
# All verdicts over the events

The invariant of the loop over the verdicts, for the verdicts handled so far: which legends have been appended, which
events have been noted as duplicates, and what has become of the series and the sub-data of each event.
-/

namespace LitmusPortal.Prometheus

open Removal Growth

variable {F : Type} {cmp : Comparison F}

/-- The columns of a response have the length of its legends. -/
structure AnnotationsPromResponse.EqualLengths (response : AnnotationsPromResponse F) : Prop where
  tsvs : response.tsvs.length = response.legends.length
  subDataArray : response.subDataArray.length = response.legends.length

/-! ### What the verdicts add and note -/

/-- A verdict counts if one of its values is 1. -/
def isValid (verdictResponse : AnnotationsPromResponse F) (verdict : String × ℕ) : Bool :=
  (verdictResponse.tsvs[verdict.2]?.getD []).any (·.2 = 1)

/-- The verdicts that are appended. -/
def verdictOnly (verdictResponse : AnnotationsPromResponse F) (events : List String) (verdicts : List (String × ℕ)) :
    List (String × ℕ) :=
  verdicts.filter fun verdict => verdict.1 ∉ events ∧ isValid verdictResponse verdict = true

/-- The later events with the legend of a verdict, in the order in which they are found. -/
def discovered (events verdicts : List String) : List ℕ :=
  verdicts.foldl (fun noted verdict => (positions events verdict).tail.foldl note noted) []

theorem discovered_append_singleton (events verdicts : List String) (verdict : String) :
    discovered events (verdicts ++ [verdict]) =
      (positions events verdict).tail.foldl note (discovered events verdicts) := by
  rw [discovered, List.foldl_append]
  rfl

theorem mem_discovered {events verdicts : List String} {i : ℕ} :
    i ∈ discovered events verdicts ↔
      ∃ legend ∈ verdicts, events[i]? = some legend ∧ legend ∈ events.take i := by
  induction verdicts using List.reverseRecOn with
  | nil => simp [discovered]
  | append_singleton verdicts verdict ih =>
      rw [discovered_append_singleton, mem_foldl_note, ih, mem_tail_positions]
      constructor
      · rintro (⟨legend, hlegend, hlater⟩ | hlater)
        · exact ⟨legend, List.mem_append_left _ hlegend, hlater⟩
        · exact ⟨verdict, by simp, hlater⟩
      · rintro ⟨legend, hlegend, hlater⟩
        rcases List.mem_append.mp hlegend with hlegend | hlegend
        · exact .inl ⟨legend, hlegend, hlater⟩
        · exact .inr (List.mem_singleton.mp hlegend ▸ hlater)

theorem nodup_discovered (events verdicts : List String) : (discovered events verdicts).Nodup := by
  induction verdicts using List.reverseRecOn with
  | nil => exact .nil
  | append_singleton verdicts verdict ih =>
      rw [discovered_append_singleton]
      exact nodup_foldl_note ih

theorem discovered_lt {events verdicts : List String} {i : ℕ} (h : i ∈ discovered events verdicts) :
    i < events.length := by
  obtain ⟨legend, _, hi, _⟩ := mem_discovered.mp h
  exact (List.getElem?_eq_some_iff.mp hi).1

/-! ### The invariant -/

/-- An event whose sub-data is not replaced by that of a later one. -/
def Stays (events : List String) (i : ℕ) : Prop :=
  ∀ legend, (positions events legend).head? = some i → (positions events legend).getLast? = some i

structure Ran (verdictResponse original : AnnotationsPromResponse F) (front : List (String × ℕ))
    (patching : Patching F) : Prop where
  queryID : patching.response.queryID = original.queryID
  legends : patching.response.legends =
    original.legends ++ (verdictOnly verdictResponse original.legends front).map Prod.fst
  tsvs_length : patching.response.tsvs.length = patching.response.legends.length
  subDataArray_length : patching.response.subDataArray.length = patching.response.legends.length
  added : ∀ k verdict, (verdictOnly verdictResponse original.legends front)[k]? = some verdict →
    patching.response.tsvs[original.legends.length + k]? = some [] ∧
      patching.response.subDataArray[original.legends.length + k]? = verdictResponse.subDataArray[verdict.2]?
  duplicates : patching.duplicateEventIndices = (discovered original.legends (front.map Prod.fst)).zipIdx
  series : ∀ i, GrowsAt i original.tsvs patching.response.tsvs
  later : ∀ legend, ∀ i ∈ (positions original.legends legend).tail,
    patching.response.tsvs[i]? = original.tsvs[i]?
  merged : ∀ verdict ∈ front, ∀ i ∈ (positions original.legends verdict.1).tail,
    ∃ value rest, original.tsvs[i]? = some (value :: rest)
  data : ∀ i, Stays original.legends i →
    GrowsAt i (original.subDataArray.map keys) (patching.response.subDataArray.map keys)
  replaced : ∀ legend first last, (positions original.legends legend).head? = some first →
    (positions original.legends legend).getLast? = some last →
    patching.response.subDataArray[first]? =
      if legend ∈ front.map Prod.fst then patching.response.subDataArray[last]? else original.subDataArray[first]?
  seen_data : ∀ i, Stays original.legends i →
    GrowsAt i (original.subDataArray.map keys) (patching.seen.map keys) ∧
      GrowsAt i (patching.seen.map keys) (patching.response.subDataArray.map keys)
  seen_replaced : ∀ legend first last, (positions original.legends legend).head? = some first →
    (positions original.legends legend).getLast? = some last →
    legend ∈ front.map Prod.fst ∧ patching.seen[first]? = patching.seen[last]? ∨
      patching.seen[first]? = original.subDataArray[first]?

variable {verdictResponse original : AnnotationsPromResponse F} {front : List (String × ℕ)} {patching next : Patching F}

theorem ran_nil (h : original.EqualLengths) (spare : ℕ) :
    Ran verdictResponse original [] ⟨original, none, spare, []⟩ where
  queryID := rfl
  legends := (List.append_nil _).symm
  tsvs_length := h.tsvs
  subDataArray_length := h.subDataArray
  added _ _ hverdict := by cases hverdict
  duplicates := rfl
  series i := GrowsAt.refl i _
  later _ _ _ := rfl
  merged _ hverdict := absurd hverdict List.not_mem_nil
  data i _ := GrowsAt.refl i _
  replaced _ _ _ _ _ := rfl
  seen_data i _ := ⟨GrowsAt.refl i _, GrowsAt.refl i _⟩
  seen_replaced _ _ _ _ _ := .inr rfl

theorem verdictOnly_append_singleton (verdictResponse : AnnotationsPromResponse F) (events : List String)
    (front : List (String × ℕ)) (verdict : String × ℕ) :
    verdictOnly verdictResponse events (front ++ [verdict]) =
      verdictOnly verdictResponse events front ++
        if verdict.1 ∉ events ∧ isValid verdictResponse verdict = true then [verdict] else [] := by
  rw [verdictOnly, List.filter_append, verdictOnly]
  apply congrArg
  by_cases h : verdict.1 ∉ events ∧ isValid verdictResponse verdict = true <;> simp [h]

theorem mem_map_fst_append {legend : String} {front : List (String × ℕ)} {verdict : String × ℕ} :
    legend ∈ (front ++ [verdict]).map Prod.fst ↔ legend ∈ front.map Prod.fst ∨ legend = verdict.1 := by
  rw [List.map_append, List.mem_append, List.map_singleton, List.mem_singleton]

/-- A verdict with events under its legend. -/
theorem Ran.passed {verdict : String × ℕ} (h : Ran verdictResponse original front patching)
    (hmem : verdict.1 ∈ original.legends)
    (hpassed : Passed cmp verdictResponse.subDataArray[verdict.2]? patching
      (positions original.legends verdict.1) next) :
    Ran verdictResponse original (front ++ [verdict]) next := by
  have honly : verdictOnly verdictResponse original.legends (front ++ [verdict]) =
      verdictOnly verdictResponse original.legends front := by
    rw [verdictOnly_append_singleton, if_neg fun hnot => hnot.1 hmem, List.append_nil]
  have hother : ∀ legend i, legend ≠ verdict.1 → i ∈ positions original.legends legend →
      i ∉ positions original.legends verdict.1 := by
    intro legend i hne hi hi'
    exact hne (Option.some.inj ((mem_positions.mp hi).symm.trans (mem_positions.mp hi')))
  have hdata : ∀ i, Stays original.legends i →
      GrowsAt i (patching.response.subDataArray.map keys) (next.response.subDataArray.map keys) :=
    fun i hi => hpassed.grows (hi verdict.1)
  have hreplaced : ∀ legend first last, (positions original.legends legend).head? = some first →
      (positions original.legends legend).getLast? = some last →
      next.response.subDataArray[first]? =
        if legend ∈ (front ++ [verdict]).map Prod.fst then next.response.subDataArray[last]?
        else original.subDataArray[first]? := by
    intro legend first last hfirst hlast
    by_cases hlegend : legend = verdict.1
    · subst hlegend
      rw [if_pos (mem_map_fst_append.mpr (.inr rfl))]
      exact hpassed.replaced first last hfirst hlast
    · have hiff : legend ∈ (front ++ [verdict]).map Prod.fst ↔ legend ∈ front.map Prod.fst :=
        mem_map_fst_append.trans (or_iff_left hlegend)
      rw [hpassed.untouched first (hother legend first hlegend (List.mem_of_head? hfirst)),
        hpassed.untouched last (hother legend last hlegend (List.mem_of_getLast? hlast)),
        h.replaced legend first last hfirst hlast]
      exact if_congr hiff.symm rfl rfl
  constructor
  case queryID => exact hpassed.queryID.trans h.queryID
  case legends => rw [honly, hpassed.legends, h.legends]
  case tsvs_length => rw [hpassed.tsvs_length, hpassed.legends, h.tsvs_length]
  case subDataArray_length => rw [hpassed.subDataArray_length, hpassed.legends, h.subDataArray_length]
  case added =>
    intro k added hadded
    rw [honly] at hadded
    have hnot : original.legends.length + k ∉ positions original.legends verdict.1 := fun hmem =>
      absurd (positions_lt hmem) (by omega)
    rw [hpassed.untouched _ hnot, hpassed.later _ fun hhead => hnot (List.mem_of_head? hhead)]
    exact h.added k added hadded
  case duplicates =>
    rw [List.map_append, List.map_singleton, discovered_append_singleton]
    exact hpassed.duplicates _ h.duplicates
  case series => exact fun i => (h.series i).trans (hpassed.series i)
  case later =>
    intro legend i hi
    rw [← h.later legend i hi]
    apply hpassed.later
    intro hhead
    obtain ⟨hi, htake⟩ := mem_tail_positions.mp hi
    have hlegend := Option.some.inj (hi.symm.trans (mem_positions.mp (List.mem_of_head? hhead)))
    subst hlegend
    have hnot : i ∉ (positions original.legends verdict.1).tail := by
      have hascend := positions_ascend original.legends verdict.1
      rw [List.eq_cons_of_mem_head? hhead] at hascend ⊢
      exact fun hmem => Nat.lt_irrefl i (List.rel_of_pairwise_cons hascend hmem)
    exact hnot (mem_tail_positions.mpr ⟨hi, htake⟩)
  case merged =>
    intro verdict' hverdict' i hi
    rcases List.mem_append.mp hverdict' with hold | hnew
    · exact h.merged verdict' hold i hi
    · obtain rfl := List.mem_singleton.mp hnew
      rw [← h.later verdict'.1 i hi]
      exact hpassed.merged i hi
  case data => exact fun i hi => (h.data i hi).trans (hdata i hi)
  case replaced => exact hreplaced
  case seen_data =>
    intro i hi
    rw [Patching.seen, hpassed.stale]
    cases hstale : patching.stale with
    | none => exact ⟨(h.data i hi).trans (hdata i hi), GrowsAt.refl i _⟩
    | some snapshot =>
        have hseen : patching.seen = snapshot := by rw [Patching.seen, hstale]; rfl
        have hold := h.seen_data i hi
        rw [hseen] at hold
        exact ⟨hold.1, hold.2.trans (hdata i hi)⟩
  case seen_replaced =>
    intro legend first last hfirst hlast
    rw [Patching.seen, hpassed.stale]
    cases hstale : patching.stale with
    | none =>
        have heq := hreplaced legend first last hfirst hlast
        split at heq
        · next hlegend => exact .inl ⟨hlegend, heq⟩
        · exact .inr heq
    | some snapshot =>
        have hseen : patching.seen = snapshot := by rw [Patching.seen, hstale]; rfl
        have hold := h.seen_replaced legend first last hfirst hlast
        rw [hseen] at hold
        exact hold.imp_left fun hold => ⟨mem_map_fst_append.mpr (.inl hold.1), hold.2⟩

theorem addVerdict_eq_some {verdict : String × ℕ}
    (h : patching.addVerdict verdict.1 verdictResponse.tsvs[verdict.2]? verdictResponse.subDataArray[verdict.2]? =
      some next) :
    isValid verdictResponse verdict = false ∧ next = patching ∨
      isValid verdictResponse verdict = true ∧
        ∃ verdictSubData, verdictResponse.subDataArray[verdict.2]? = some verdictSubData ∧
          next = { patching with
            response := { patching.response with
              legends := patching.response.legends ++ [verdict.1]
              tsvs := patching.response.tsvs ++ [[]]
              subDataArray := patching.response.subDataArray ++ [verdictSubData] }
            stale := patching.stale <|> if patching.spare = 0 then some patching.response.subDataArray else none
            spare := patching.spare - 1 } := by
  obtain ⟨tsv, htsv, h⟩ := Option.bind_eq_some_iff.mp h
  have hvalid : isValid verdictResponse verdict = tsv.any (·.2 = 1) := by rw [isValid, htsv]; rfl
  rw [hvalid]
  by_cases hany : tsv.any (·.2 = 1) = true
  · rw [if_pos hany] at h
    obtain ⟨verdictSubData, hdata, h⟩ := Option.bind_eq_some_iff.mp h
    exact .inr ⟨hany, verdictSubData, hdata, (Option.some.inj h).symm⟩
  · rw [if_neg hany] at h
    exact .inl ⟨Bool.eq_false_iff.mpr hany, (Option.some.inj h).symm⟩

section Unfound

variable {verdict : String × ℕ}

theorem discovered_of_notMem (hmem : verdict.1 ∉ original.legends) :
    discovered original.legends ((front ++ [verdict]).map Prod.fst) =
      discovered original.legends (front.map Prod.fst) := by
  rw [List.map_append, List.map_singleton, discovered_append_singleton, positions_eq_nil_iff.mpr hmem]
  rfl

theorem mem_map_fst_of_notMem (hmem : verdict.1 ∉ original.legends) {legend : String} {first : ℕ}
    (hfirst : (positions original.legends legend).head? = some first) :
    legend ∈ (front ++ [verdict]).map Prod.fst ↔ legend ∈ front.map Prod.fst := by
  refine mem_map_fst_append.trans (or_iff_left ?_)
  rintro rfl
  exact hmem (List.mem_of_getElem? (mem_positions.mp (List.mem_of_head? hfirst)))

theorem merged_of_notMem (h : Ran verdictResponse original front patching) (hmem : verdict.1 ∉ original.legends) :
    ∀ verdict' ∈ front ++ [verdict], ∀ i ∈ (positions original.legends verdict'.1).tail,
      ∃ value rest, original.tsvs[i]? = some (value :: rest) := by
  intro verdict' hverdict' i hi
  rcases List.mem_append.mp hverdict' with hold | hnew
  · exact h.merged verdict' hold i hi
  · obtain rfl := List.mem_singleton.mp hnew
    rw [positions_eq_nil_iff.mpr hmem] at hi
    cases hi

/-- A verdict without an event that does not count. -/
theorem Ran.skip (h : Ran verdictResponse original front patching) (hmem : verdict.1 ∉ original.legends)
    (hvalid : isValid verdictResponse verdict = false) :
    Ran verdictResponse original (front ++ [verdict]) patching := by
  have honly : verdictOnly verdictResponse original.legends (front ++ [verdict]) =
      verdictOnly verdictResponse original.legends front := by
    rw [verdictOnly_append_singleton, if_neg (by simp [hvalid]), List.append_nil]
  refine { h with
    legends := honly ▸ h.legends, added := honly ▸ h.added, duplicates := ?_, merged := merged_of_notMem h hmem,
    replaced := ?_, seen_replaced := ?_ }
  · rw [discovered_of_notMem hmem]
    exact h.duplicates
  · intro legend first last hfirst hlast
    rw [h.replaced legend first last hfirst hlast]
    exact if_congr (mem_map_fst_of_notMem hmem hfirst).symm rfl rfl
  · intro legend first last hfirst hlast
    rw [mem_map_fst_of_notMem hmem hfirst]
    exact h.seen_replaced legend first last hfirst hlast

/-- A verdict without an event that is appended. -/
theorem Ran.add (h : Ran verdictResponse original front patching) (hmem : verdict.1 ∉ original.legends)
    (hvalid : isValid verdictResponse verdict = true) {verdictSubData : List (SubData F)}
    (hdata : verdictResponse.subDataArray[verdict.2]? = some verdictSubData)
    (hresponse : next.response = { patching.response with
      legends := patching.response.legends ++ [verdict.1]
      tsvs := patching.response.tsvs ++ [[]]
      subDataArray := patching.response.subDataArray ++ [verdictSubData] })
    (hduplicates : next.duplicateEventIndices = patching.duplicateEventIndices)
    (hseen : next.seen = patching.seen ∨ next.seen = next.response.subDataArray) :
    Ran verdictResponse original (front ++ [verdict]) next := by
  have honly : verdictOnly verdictResponse original.legends (front ++ [verdict]) =
      verdictOnly verdictResponse original.legends front ++ [verdict] := by
    rw [verdictOnly_append_singleton, if_pos ⟨hmem, hvalid⟩]
  have hlength : patching.response.subDataArray.length =
      original.legends.length + (verdictOnly verdictResponse original.legends front).length := by
    rw [h.subDataArray_length, h.legends, List.length_append, List.length_map]
  have hold : ∀ {i}, i < patching.response.subDataArray.length →
      next.response.subDataArray[i]? = patching.response.subDataArray[i]? := by
    intro i hi
    rw [hresponse]
    exact List.getElem?_append_left hi
  have htsv : ∀ {i}, i < patching.response.subDataArray.length →
      next.response.tsvs[i]? = patching.response.tsvs[i]? := by
    intro i hi
    rw [hresponse]
    refine List.getElem?_append_left ?_
    rwa [h.tsvs_length, ← h.subDataArray_length]
  have hevent : ∀ {legend i}, i ∈ positions original.legends legend → i < patching.response.subDataArray.length := by
    intro legend i hi
    have hlt := positions_lt hi
    omega
  have hgrows : ∀ i, GrowsAt i (patching.response.subDataArray.map keys) (next.response.subDataArray.map keys) := by
    intro i
    rw [hresponse, List.map_append]
    exact GrowsAt.append _ _
  have hreplaced : ∀ legend first last, (positions original.legends legend).head? = some first →
      (positions original.legends legend).getLast? = some last →
      next.response.subDataArray[first]? =
        if legend ∈ (front ++ [verdict]).map Prod.fst then next.response.subDataArray[last]?
        else original.subDataArray[first]? := by
    intro legend first last hfirst hlast
    rw [hold (hevent (List.mem_of_head? hfirst)), hold (hevent (List.mem_of_getLast? hlast)),
      h.replaced legend first last hfirst hlast]
    exact if_congr (mem_map_fst_of_notMem hmem hfirst).symm rfl rfl
  constructor
  case queryID =>
    rw [hresponse]
    exact h.queryID
  case legends =>
    rw [hresponse, honly, List.map_append, ← List.append_assoc, ← h.legends]
    rfl
  case tsvs_length =>
    rw [hresponse, List.length_append, List.length_append, h.tsvs_length]
    rfl
  case subDataArray_length =>
    rw [hresponse, List.length_append, List.length_append, h.subDataArray_length]
    rfl
  case added =>
    intro k added hadded
    rw [honly] at hadded
    rcases Nat.lt_or_ge k (verdictOnly verdictResponse original.legends front).length with hk | hk
    · rw [List.getElem?_append_left hk] at hadded
      rw [hold (by omega), htsv (by omega)]
      exact h.added k added hadded
    · rw [List.getElem?_append_right hk] at hadded
      have hlast := (List.getElem?_eq_some_iff.mp hadded).1
      rw [List.length_singleton] at hlast
      obtain rfl := List.mem_singleton.mp (List.mem_of_getElem? hadded)
      have heq : original.legends.length + k = patching.response.subDataArray.length := by omega
      have htsvs : patching.response.tsvs.length = patching.response.subDataArray.length :=
        h.tsvs_length.trans h.subDataArray_length.symm
      rw [heq, hresponse, hdata]
      exact ⟨by rw [← htsvs]; exact List.getElem?_concat_length, List.getElem?_concat_length⟩
  case duplicates =>
    rw [discovered_of_notMem hmem, hduplicates]
    exact h.duplicates
  case series =>
    intro i
    rw [hresponse]
    exact (h.series i).trans (GrowsAt.append _ _)
  case later =>
    intro legend i hi
    rw [htsv (hevent (List.mem_of_mem_tail hi))]
    exact h.later legend i hi
  case merged => exact merged_of_notMem h hmem
  case data => exact fun i hi => (h.data i hi).trans (hgrows i)
  case replaced => exact hreplaced
  case seen_data =>
    intro i hi
    rcases hseen with hseen | hseen
    · rw [hseen]
      exact ⟨(h.seen_data i hi).1, (h.seen_data i hi).2.trans (hgrows i)⟩
    · rw [hseen]
      exact ⟨(h.data i hi).trans (hgrows i), GrowsAt.refl i _⟩
  case seen_replaced =>
    intro legend first last hfirst hlast
    rcases hseen with hseen | hseen
    · rw [hseen, mem_map_fst_of_notMem hmem hfirst]
      exact h.seen_replaced legend first last hfirst hlast
    · rw [hseen]
      have heq := hreplaced legend first last hfirst hlast
      split at heq
      · next hlegend => exact .inl ⟨hlegend, heq⟩
      · exact .inr heq

end Unfound

/-! ### The run -/

theorem patchVerdict_found {verdict : String × ℕ} (hmem : verdict.1 ∈ original.legends)
    (h : patchVerdict cmp verdictResponse original.legends patching verdict = some next) :
    Passed cmp verdictResponse.subDataArray[verdict.2]? patching (positions original.legends verdict.1) next := by
  obtain ⟨⟨after, found⟩, hevents, hrest⟩ := Option.bind_eq_some_iff.mp h
  obtain ⟨hpassed, rfl⟩ := passed_of_patchEvents hevents
  have hsome : (positions original.legends verdict.1).head?.isSome = true := by
    cases hpositions : positions original.legends verdict.1 with
    | nil => exact absurd hmem (positions_eq_nil_iff.mp hpositions)
    | cons first rest => rfl
  dsimp only at hrest
  rw [if_pos hsome] at hrest
  obtain rfl := Option.some.inj hrest
  exact hpassed

theorem patchVerdict_unfound {verdict : String × ℕ} (hmem : verdict.1 ∉ original.legends) :
    patchVerdict cmp verdictResponse original.legends patching verdict =
      patching.addVerdict verdict.1 verdictResponse.tsvs[verdict.2]? verdictResponse.subDataArray[verdict.2]? := by
  rw [patchVerdict, patchEvents_of_notMem hmem]
  rfl

theorem Ran.verdict {verdict : String × ℕ} (h : Ran verdictResponse original front patching)
    (hverdict : patchVerdict cmp verdictResponse original.legends patching verdict = some next) :
    Ran verdictResponse original (front ++ [verdict]) next := by
  by_cases hmem : verdict.1 ∈ original.legends
  · exact h.passed hmem (patchVerdict_found hmem hverdict)
  · rw [patchVerdict_unfound hmem] at hverdict
    rcases addVerdict_eq_some hverdict with ⟨hvalid, rfl⟩ | ⟨hvalid, verdictSubData, hdata, rfl⟩
    · exact h.skip hmem hvalid
    · refine h.add hmem hvalid hdata rfl rfl ?_
      rw [Patching.seen, Patching.seen]
      cases patching.stale with
      | some snapshot => exact .inl rfl
      | none =>
          by_cases hspare : patching.spare = 0
          · exact .inl (by simp [hspare])
          · exact .inr (by simp [hspare])

theorem ran_of_foldlM (h : original.EqualLengths) {spare : ℕ}
    (hrun : verdictResponse.legends.zipIdx.foldlM (patchVerdict cmp verdictResponse original.legends)
      ⟨original, none, spare, []⟩ = some patching) :
    Ran verdictResponse original verdictResponse.legends.zipIdx patching :=
  @foldlM_invariant _ _ _ (Ran verdictResponse original) _ _ _
    (fun _ _ _ _ _ _ hran hnext => hran.verdict hnext) (ran_nil h spare) hrun

end LitmusPortal.Prometheus
