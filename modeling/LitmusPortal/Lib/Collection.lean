import Mathlib.Data.List.Basic
import Mathlib.Data.List.Pairwise
import Mathlib.Data.List.Nodup
import Mathlib.Data.List.Perm.Basic

/-!
# Document collections with unique indexes

A collection is its documents in natural order together with the proof that no unique index is
violated. An insertion or an update that would violate one is refused, so the proof is part of the
value and no later lemma has to establish it again.
-/

namespace DocumentStore

variable {Doc Key : Type*}

/-- A unique index: the key of a document, or `none` when the partial filter leaves it out. -/
abbrev UniqueIndex (Doc Key : Type*) := Doc → Option Key

/-- Two documents have the same key in some unique index. -/
def Clash (indexes : List (UniqueIndex Doc Key)) (left right : Doc) : Prop :=
  ∃ index ∈ indexes, index left ≠ none ∧ index left = index right

instance [DecidableEq Key] (indexes : List (UniqueIndex Doc Key)) (left right : Doc) :
    Decidable (Clash indexes left right) :=
  inferInstanceAs (Decidable (∃ index ∈ indexes, index left ≠ none ∧ index left = index right))

theorem Clash.symm {indexes : List (UniqueIndex Doc Key)} {left right : Doc}
    (h : Clash indexes left right) : Clash indexes right left := by
  obtain ⟨index, hmem, hsome, heq⟩ := h
  exact ⟨index, hmem, heq ▸ hsome, heq.symm⟩

structure Collection (indexes : List (UniqueIndex Doc Key)) where
  docs : List Doc
  unique : docs.Pairwise fun left right => ¬ Clash indexes left right

inductive WriteError where
  | duplicateKey
  deriving DecidableEq, Repr

/-! ### Changing the first match of a list -/

/-- The list with its first match changed, as `UpdateOne` does. -/
def updateFirst (query : Doc → Bool) (change : Doc → Doc) : List Doc → List Doc
  | [] => []
  | doc :: docs => if query doc then change doc :: docs else doc :: updateFirst query change docs

section UpdateFirst

variable {query : Doc → Bool} {change : Doc → Doc} {docs : List Doc}

@[simp]
theorem updateFirst_nil : updateFirst query change [] = [] := rfl

theorem updateFirst_cons_of_pos {doc : Doc} (h : query doc = true) :
    updateFirst query change (doc :: docs) = change doc :: docs := by
  simp [updateFirst, h]

theorem updateFirst_cons_of_neg {doc : Doc} (h : ¬ query doc = true) :
    updateFirst query change (doc :: docs) = doc :: updateFirst query change docs := by
  simp [updateFirst, h]

@[simp]
theorem length_updateFirst : (updateFirst query change docs).length = docs.length := by
  induction docs with
  | nil => rfl
  | cons doc docs ih =>
      by_cases hquery : query doc = true
      · simp [updateFirst_cons_of_pos hquery]
      · simp [updateFirst_cons_of_neg hquery, ih]

theorem updateFirst_of_forall_not (h : ∀ doc ∈ docs, ¬ query doc = true) :
    updateFirst query change docs = docs := by
  induction docs with
  | nil => rfl
  | cons doc docs ih =>
      rw [updateFirst_cons_of_neg (h doc (by simp)), ih fun d hd => h d (by simp [hd])]

theorem mem_updateFirst {doc : Doc} (h : doc ∈ updateFirst query change docs) :
    doc ∈ docs ∨ ∃ old ∈ docs, query old = true ∧ doc = change old := by
  induction docs with
  | nil => simp at h
  | cons head docs ih =>
      by_cases hquery : query head = true
      · rw [updateFirst_cons_of_pos hquery, List.mem_cons] at h
        rcases h with rfl | h
        · exact Or.inr ⟨head, by simp, hquery, rfl⟩
        · exact Or.inl (by simp [h])
      · rw [updateFirst_cons_of_neg hquery, List.mem_cons] at h
        rcases h with rfl | h
        · exact Or.inl (by simp)
        · rcases ih h with h | ⟨old, hold, hq, rfl⟩
          · exact Or.inl (by simp [h])
          · exact Or.inr ⟨old, by simp [hold], hq, rfl⟩

theorem mem_updateFirst_of_not {doc : Doc} (h : doc ∈ docs) (hquery : ¬ query doc = true) :
    doc ∈ updateFirst query change docs := by
  induction docs with
  | nil => simp at h
  | cons head docs ih =>
      by_cases hhead : query head = true
      · rw [updateFirst_cons_of_pos hhead]
        rcases List.mem_cons.mp h with rfl | h
        · exact absurd hhead hquery
        · simp [h]
      · rw [updateFirst_cons_of_neg hhead]
        rcases List.mem_cons.mp h with rfl | h
        · simp
        · exact List.mem_cons_of_mem _ (ih h)

theorem exists_mem_updateFirst (change : Doc → Doc) (h : docs.any query = true) :
    ∃ old ∈ docs, query old = true ∧ change old ∈ updateFirst query change docs := by
  induction docs with
  | nil => simp at h
  | cons head docs ih =>
      by_cases hhead : query head = true
      · exact ⟨head, by simp, hhead, by simp [updateFirst_cons_of_pos hhead]⟩
      · obtain ⟨old, hold, hq, hmem⟩ := ih (by simpa [hhead] using h)
        exact ⟨old, by simp [hold], hq, by simp [updateFirst_cons_of_neg hhead, hmem]⟩

theorem getElem?_updateFirst {i : Nat} {doc : Doc} (h : docs[i]? = some doc) :
    (updateFirst query change docs)[i]? = some doc ∨
      (docs.find? query = some doc ∧
        (updateFirst query change docs)[i]? = some (change doc)) := by
  induction docs generalizing i with
  | nil => simp at h
  | cons head docs ih =>
      by_cases hhead : query head = true
      · rw [updateFirst_cons_of_pos hhead, List.find?_cons_of_pos hhead]
        cases i with
        | zero =>
            obtain rfl : head = doc := by simpa using h
            exact Or.inr ⟨rfl, rfl⟩
        | succ i => exact Or.inl (by simpa using h)
      · rw [updateFirst_cons_of_neg hhead, List.find?_cons_of_neg hhead]
        cases i with
        | zero => exact Or.inl (by simpa using h)
        | succ i =>
            simp only [List.getElem?_cons_succ] at h ⊢
            exact ih h

theorem exists_getElem?_updateFirst {doc : Doc} (change : Doc → Doc)
    (h : docs.find? query = some doc) :
    ∃ i : Nat, docs[i]? = some doc ∧ (updateFirst query change docs)[i]? = some (change doc) := by
  induction docs with
  | nil => simp at h
  | cons head docs ih =>
      by_cases hhead : query head = true
      · obtain rfl : head = doc := by simpa [List.find?_cons_of_pos hhead] using h
        exact ⟨0, rfl, by rw [updateFirst_cons_of_pos hhead]; rfl⟩
      · rw [List.find?_cons_of_neg hhead] at h
        obtain ⟨i, hi, hchange⟩ := ih h
        exact ⟨i + 1, by simpa using hi, by rw [updateFirst_cons_of_neg hhead]; simpa using hchange⟩

theorem updateFirst_eq_self_iff :
    updateFirst query change docs = docs ↔ ∀ doc ∈ docs.find? query, change doc = doc := by
  induction docs with
  | nil => simp
  | cons head docs ih =>
      by_cases hhead : query head = true
      · simp [updateFirst_cons_of_pos hhead, List.find?_cons_of_pos hhead]
      · simp only [updateFirst_cons_of_neg hhead, List.find?_cons_of_neg hhead, List.cons.injEq,
          true_and, ih]

/-- When at most one element matches, the change is a map. -/
theorem updateFirst_eq_map
    (h : docs.Pairwise fun left right => ¬ (query left = true ∧ query right = true)) :
    updateFirst query change docs =
      docs.map fun doc => if query doc then change doc else doc := by
  induction docs with
  | nil => rfl
  | cons head docs ih =>
      rw [List.pairwise_cons] at h
      by_cases hhead : query head = true
      · rw [updateFirst_cons_of_pos hhead, List.map_cons, if_pos hhead]
        congr 1
        refine (List.map_id' docs).symm.trans (List.map_congr_left fun doc hdoc => ?_)
        have hnot : ¬ query doc = true := fun hdoc' => h.1 doc hdoc ⟨hhead, hdoc'⟩
        rw [if_neg hnot]
      · rw [updateFirst_cons_of_neg hhead, List.map_cons, if_neg hhead, ih h.2]

theorem find?_updateFirst (h : ∀ doc, query doc = true → query (change doc) = true) :
    (updateFirst query change docs).find? query = (docs.find? query).map change := by
  induction docs with
  | nil => rfl
  | cons head docs ih =>
      by_cases hhead : query head = true
      · rw [updateFirst_cons_of_pos hhead, List.find?_cons_of_pos (h head hhead),
          List.find?_cons_of_pos hhead]
        rfl
      · rw [updateFirst_cons_of_neg hhead, List.find?_cons_of_neg hhead,
          List.find?_cons_of_neg hhead, ih]

theorem find?_updateFirst_of_not {other : Doc → Bool}
    (h : ∀ doc, query doc = true → other doc = false ∧ other (change doc) = false) :
    (updateFirst query change docs).find? other = docs.find? other := by
  induction docs with
  | nil => rfl
  | cons head docs ih =>
      by_cases hhead : query head = true
      · obtain ⟨hbefore, hafter⟩ := h head hhead
        rw [updateFirst_cons_of_pos hhead, List.find?_cons_of_neg (by simp [hafter]),
          List.find?_cons_of_neg (by simp [hbefore])]
      · rw [updateFirst_cons_of_neg hhead, List.find?_cons, List.find?_cons, ih]

/-- The first match of a query the change does not affect stays, or it is the one that is changed. -/
theorem find?_updateFirst_cases {other : Doc → Bool} {doc : Doc}
    (hsame : ∀ doc, query doc = true → other (change doc) = other doc)
    (h : docs.find? other = some doc) :
    (updateFirst query change docs).find? other = some doc ∨
      query doc = true ∧ (updateFirst query change docs).find? other = some (change doc) := by
  induction docs with
  | nil => simp at h
  | cons head docs ih =>
      by_cases hhead : query head = true
      · rw [updateFirst_cons_of_pos hhead]
        by_cases hother : other head = true
        · obtain rfl : head = doc := by simpa [hother] using h
          exact Or.inr ⟨hhead, by simp [hsame head hhead, hother]⟩
        · exact Or.inl (by simpa [hsame head hhead, hother] using h)
      · rw [updateFirst_cons_of_neg hhead]
        by_cases hother : other head = true
        · exact Or.inl (by simpa [hother] using h)
        · simp only [List.find?_cons_of_neg hother] at h ⊢
          exact ih h

theorem find?_eraseP
    (h : docs.Pairwise fun left right => ¬ (query left = true ∧ query right = true)) :
    (docs.eraseP query).find? query = none := by
  induction docs with
  | nil => rfl
  | cons head docs ih =>
      rw [List.pairwise_cons] at h
      by_cases hhead : query head = true
      · rw [List.eraseP_cons_of_pos hhead]
        exact List.find?_eq_none.mpr fun doc hdoc hquery => h.1 doc hdoc ⟨hhead, hquery⟩
      · rw [List.eraseP_cons_of_neg hhead, List.find?_cons_of_neg hhead]
        exact ih h.2

section Key

variable {Value : Type*} {key : Doc → Value} (value : Value)

/-- A query that fixes a key no two documents share matches at most one of them. -/
theorem pairwise_not_query_of_key (hkey : docs.Pairwise fun left right => key left ≠ key right)
    (hquery : ∀ doc, query doc = true → key doc = value) :
    docs.Pairwise fun left right => ¬ (query left = true ∧ query right = true) :=
  hkey.imp fun hne hboth => hne ((hquery _ hboth.1).trans (hquery _ hboth.2).symm)

theorem countP_le_one_of_key (hkey : docs.Pairwise fun left right => key left ≠ key right)
    (hquery : ∀ doc, query doc = true → key doc = value) : docs.countP query ≤ 1 := by
  have hpair := pairwise_not_query_of_key value hkey hquery
  clear hkey hquery
  induction docs with
  | nil => simp
  | cons head docs ih =>
      rw [List.pairwise_cons] at hpair
      rw [List.countP_cons]
      split
      · rename_i hhead
        have hzero : docs.countP query = 0 :=
          List.countP_eq_zero.mpr fun doc hdoc hquery => hpair.1 doc hdoc ⟨hhead, hquery⟩
        omega
      · simpa using ih hpair.2

theorem updateFirst_eq_map_of_key (hkey : docs.Pairwise fun left right => key left ≠ key right)
    (hquery : ∀ doc, query doc = true → key doc = value) :
    updateFirst query change docs =
      docs.map fun doc => if query doc then change doc else doc :=
  updateFirst_eq_map (pairwise_not_query_of_key value hkey hquery)

omit value in
theorem find?_eq_some_of_key {doc : Doc}
    (hkey : docs.Pairwise fun left right => key left ≠ key right) (hdoc : doc ∈ docs)
    (hquery : query doc = true) (hfixes : ∀ other, query other = true → key other = key doc) :
    docs.find? query = some doc := by
  have hsome : (docs.find? query).isSome = true := List.find?_isSome.mpr ⟨doc, hdoc, hquery⟩
  obtain ⟨found, hfound⟩ := Option.isSome_iff_exists.mp hsome
  have hsymm : Std.Symm fun left right : Doc => key left ≠ key right := ⟨fun _ _ h => h.symm⟩
  by_contra hne
  have hother : found ≠ doc := fun heq => hne (heq ▸ hfound)
  exact hkey.forall (List.mem_of_find?_eq_some hfound) hdoc hother
    (hfixes found (List.find?_some hfound))

omit value in
/-- Changing the first match is an edit of the one document with its key. -/
theorem updateFirst_eq_map_of_find? [DecidableEq Value] {doc : Doc} (change : Doc → Doc)
    (hkey : docs.Pairwise fun left right => key left ≠ key right)
    (hfind : docs.find? query = some doc) :
    updateFirst query change docs =
      docs.map fun other => if key other = key doc then change other else other := by
  induction docs with
  | nil => rfl
  | cons head docs ih =>
      rw [List.pairwise_cons] at hkey
      by_cases hhead : query head = true
      · obtain rfl : head = doc := by simpa [List.find?_cons_of_pos hhead] using hfind
        rw [updateFirst_cons_of_pos hhead, List.map_cons, if_pos rfl]
        congr 1
        refine (List.map_id' docs).symm.trans (List.map_congr_left fun other hother => ?_)
        rw [if_neg (hkey.1 other hother).symm]
      · rw [List.find?_cons_of_neg hhead] at hfind
        rw [updateFirst_cons_of_neg hhead, List.map_cons, ih hkey.2 hfind,
          if_neg (hkey.1 doc (List.mem_of_find?_eq_some hfind))]

end Key

theorem map_updateFirst {Value : Type*} {proj : Doc → Value}
    (h : ∀ doc ∈ docs, query doc = true → proj (change doc) = proj doc) :
    (updateFirst query change docs).map proj = docs.map proj := by
  induction docs with
  | nil => rfl
  | cons head docs ih =>
      by_cases hhead : query head = true
      · simp [updateFirst_cons_of_pos hhead, h head (by simp) hhead]
      · simp [updateFirst_cons_of_neg hhead, ih fun d hd => h d (by simp [hd])]

theorem map_updateFirst_eq_map_iff {Value : Type*} {proj : Doc → Value} :
    (updateFirst query change docs).map proj = docs.map proj ↔
      ∀ doc ∈ docs.find? query, proj (change doc) = proj doc := by
  induction docs with
  | nil => simp
  | cons head docs ih =>
      by_cases hhead : query head = true
      · simp [updateFirst_cons_of_pos hhead, List.find?_cons_of_pos hhead]
      · simp only [updateFirst_cons_of_neg hhead, List.find?_cons_of_neg hhead, List.map_cons,
          List.cons.injEq, true_and, ih]

end UpdateFirst

namespace Collection

variable {indexes : List (UniqueIndex Doc Key)}

@[ext]
theorem ext {left right : Collection indexes} (h : left.docs = right.docs) : left = right := by
  cases left
  cases right
  cases h
  rfl

def empty : Collection indexes := ⟨[], List.Pairwise.nil⟩

def find (coll : Collection indexes) (query : Doc → Bool) : List Doc := coll.docs.filter query

def findOne (coll : Collection indexes) (query : Doc → Bool) : Option Doc := coll.docs.find? query

def countDocuments (coll : Collection indexes) (query : Doc → Bool) : Nat := coll.docs.countP query

theorem eq_of_clash (coll : Collection indexes) {left right : Doc} (hleft : left ∈ coll.docs)
    (hright : right ∈ coll.docs) (h : Clash indexes left right) : left = right := by
  by_contra hne
  have : Std.Symm fun left right : Doc => ¬ Clash indexes left right :=
    ⟨fun _ _ hnot hclash => hnot hclash.symm⟩
  exact coll.unique.forall hleft hright hne h

theorem find_eq_singleton (coll : Collection indexes) {query : Doc → Bool} {doc : Doc} (hdoc : doc ∈ coll.docs)
    (hquery : query doc = true) (hclash : ∀ other, query other = true → Clash indexes doc other) :
    coll.find query = [doc] := by
  have hsame : ∀ other ∈ coll.find query, other = doc := by
    intro other hother
    obtain ⟨hmem, hmatch⟩ := List.mem_filter.mp hother
    exact coll.eq_of_clash hmem hdoc (hclash other hmatch).symm
  have hunique : (coll.find query).Pairwise fun left right => ¬ Clash indexes left right := coll.unique.filter query
  have hfound : doc ∈ coll.find query := List.mem_filter.mpr ⟨hdoc, hquery⟩
  cases hlist : coll.find query with
  | nil =>
      rw [hlist] at hfound
      cases hfound
  | cons first rest =>
      rw [hlist] at hsame hunique
      cases rest with
      | nil => rw [hsame first List.mem_cons_self]
      | cons second rest =>
          have hne := List.rel_of_pairwise_cons hunique List.mem_cons_self
          rw [hsame first List.mem_cons_self, hsame second (List.mem_cons_of_mem _ List.mem_cons_self)] at hne
          exact absurd (hclash doc hquery) hne

variable [DecidableEq Key]

/-- `InsertOne`: the document is added last, unless it clashes with one that is there. -/
def insertOne (coll : Collection indexes) (doc : Doc) : Except WriteError (Collection indexes) :=
  if h : (coll.docs ++ [doc]).Pairwise fun left right => ¬ Clash indexes left right then
    .ok ⟨coll.docs ++ [doc], h⟩
  else
    .error .duplicateKey

/-- `UpdateOne`: the first match is changed, unless the changed document clashes with another. The
second component is the number of documents matched. -/
def updateOne (coll : Collection indexes) (query : Doc → Bool) (change : Doc → Doc) :
    Except WriteError (Collection indexes × Nat) :=
  if h : (updateFirst query change coll.docs).Pairwise
      fun left right => ¬ Clash indexes left right then
    .ok (⟨updateFirst query change coll.docs, h⟩, if coll.docs.any query then 1 else 0)
  else
    .error .duplicateKey

/-- `DeleteOne`: the first match is removed. -/
def deleteOne (coll : Collection indexes) (query : Doc → Bool) : Collection indexes :=
  ⟨coll.docs.eraseP query, coll.unique.sublist List.eraseP_sublist⟩

/-- An insertion is refused for a clash with some document, and otherwise adds the document. -/
theorem insertOne_cases (coll : Collection indexes) (doc : Doc) :
    (coll.insertOne doc = .error .duplicateKey ∧ ∃ other ∈ coll.docs, Clash indexes other doc) ∨
    ∃ coll', coll.insertOne doc = .ok coll' ∧ coll'.docs = coll.docs ++ [doc] ∧
      ∀ other ∈ coll.docs, ¬ Clash indexes other doc := by
  have hiff : ((coll.docs ++ [doc]).Pairwise fun left right => ¬ Clash indexes left right) ↔
      ∀ other ∈ coll.docs, ¬ Clash indexes other doc := by
    rw [List.pairwise_append]
    simp [coll.unique]
  unfold insertOne
  by_cases hfree : ∀ other ∈ coll.docs, ¬ Clash indexes other doc
  · rw [dif_pos (hiff.mpr hfree)]
    exact Or.inr ⟨_, rfl, rfl, hfree⟩
  · rw [dif_neg fun hpair => hfree (hiff.mp hpair)]
    push Not at hfree
    exact Or.inl ⟨rfl, hfree⟩

omit [DecidableEq Key] in
theorem pairwise_not_clash_iff {docs docs' : List Doc}
    (h : docs.map (fun doc => indexes.map fun index => index doc) =
      docs'.map fun doc => indexes.map fun index => index doc) :
    (docs.Pairwise fun left right => ¬ Clash indexes left right) ↔
      docs'.Pairwise fun left right => ¬ Clash indexes left right := by
  let keysClash (left right : List (Option Key)) : Prop :=
    ∃ pair ∈ left.zip right, pair.1 ≠ none ∧ pair.1 = pair.2
  have hclash : ∀ left right : Doc, Clash indexes left right ↔
      keysClash (indexes.map fun index => index left) (indexes.map fun index => index right) := by
    intro left right
    simp only [keysClash, Clash, List.zip_map', List.mem_map]
    constructor
    · rintro ⟨index, hmem, hkey⟩
      exact ⟨(index left, index right), ⟨index, hmem, rfl⟩, hkey⟩
    · rintro ⟨pair, ⟨index, hmem, rfl⟩, hkey⟩
      exact ⟨index, hmem, hkey⟩
  have hkeys : ∀ list : List Doc,
      (list.Pairwise fun left right => ¬ Clash indexes left right) ↔
        (list.map fun doc => indexes.map fun index => index doc).Pairwise
          fun left right => ¬ keysClash left right := by
    intro list
    simp only [hclash, List.pairwise_map]
  rw [hkeys, hkeys, h]

/-- An update that touches no indexed key is never refused. -/
theorem updateOne_of_keeps {coll : Collection indexes} {query : Doc → Bool} {change : Doc → Doc}
    (h : ∀ index ∈ indexes, ∀ doc, query doc = true → index (change doc) = index doc) :
    ∃ coll', coll.updateOne query change =
        .ok (coll', if coll.docs.any query then 1 else 0) ∧
      coll'.docs = updateFirst query change coll.docs := by
  have hunique : (updateFirst query change coll.docs).Pairwise
      fun left right => ¬ Clash indexes left right :=
    (pairwise_not_clash_iff (map_updateFirst fun doc _ hquery =>
      List.map_congr_left fun index hindex => h index hindex doc hquery)).mpr coll.unique
  exact ⟨⟨_, hunique⟩, by rw [updateOne, dif_pos hunique], rfl⟩

end Collection

end DocumentStore
