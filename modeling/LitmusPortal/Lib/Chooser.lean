import LitmusPortal.Lib.Collection

/-!
# Reads and updates of an arbitrary match

Without a sort, `FindOne` and `UpdateOne` act on some document that matches. A chooser says on which; what holds
for every chooser does not depend on the order of the documents.
-/

namespace DocumentStore

variable {Doc Key : Type*}

structure Chooser (Doc : Type*) where
  pick : List Doc → Option Doc
  pick_mem : ∀ {docs doc}, pick docs = some doc → doc ∈ docs
  pick_isSome : ∀ {docs}, docs ≠ [] → (pick docs).isSome = true

namespace Chooser

def first : Chooser Doc where
  pick docs := docs.head?
  pick_mem h := List.mem_of_mem_head? h
  pick_isSome h := List.isSome_head?.mpr h

/-- A choice of this document wherever it matches. -/
def prefer [DecidableEq Doc] (doc : Doc) : Chooser Doc where
  pick docs := if doc ∈ docs then some doc else docs.head?
  pick_mem {docs other} h := by
    by_cases hmem : doc ∈ docs
    · rw [if_pos hmem] at h
      exact Option.some.inj h ▸ hmem
    · rw [if_neg hmem] at h
      exact List.mem_of_mem_head? h
  pick_isSome {docs} h := by
    by_cases hmem : doc ∈ docs
    · rw [if_pos hmem]
      rfl
    · rw [if_neg hmem]
      exact List.isSome_head?.mpr h

theorem pick_prefer [DecidableEq Doc] {doc : Doc} {docs : List Doc} (h : doc ∈ docs) :
    (prefer doc).pick docs = some doc := if_pos h

theorem pick_nil (choose : Chooser Doc) : choose.pick [] = none :=
  Option.eq_none_iff_forall_not_mem.mpr fun _ h => List.not_mem_nil (choose.pick_mem h)

theorem pick_of_forall_eq (choose : Chooser Doc) {docs : List Doc} {doc : Doc} (hmem : doc ∈ docs)
    (h : ∀ other ∈ docs, other = doc) : choose.pick docs = some doc := by
  obtain ⟨found, hfound⟩ := Option.isSome_iff_exists.mp (choose.pick_isSome (List.ne_nil_of_mem hmem))
  rw [hfound, h found (choose.pick_mem hfound)]

end Chooser

/-! ## The document that is changed -/

section Update

variable [DecidableEq Doc] {change : Doc → Doc} {chosen : Doc} {docs : List Doc}

def updateDoc (change : Doc → Doc) (chosen : Doc) (docs : List Doc) : List Doc :=
  docs.map fun doc => if doc = chosen then change doc else doc

theorem mem_updateDoc {doc : Doc} :
    doc ∈ updateDoc change chosen docs ↔
      (doc ∈ docs ∧ doc ≠ chosen) ∨ (chosen ∈ docs ∧ doc = change chosen) := by
  simp only [updateDoc, List.mem_map]
  constructor
  · rintro ⟨old, hold, rfl⟩
    by_cases heq : old = chosen
    · subst heq
      rw [if_pos rfl]
      exact .inr ⟨hold, rfl⟩
    · rw [if_neg heq]
      exact .inl ⟨hold, heq⟩
  · rintro (⟨hdoc, hne⟩ | ⟨hchosen, rfl⟩)
    · exact ⟨doc, hdoc, if_neg hne⟩
    · exact ⟨chosen, hchosen, if_pos rfl⟩

theorem updateDoc_find? {query : Doc → Bool} (hnodup : docs.Nodup) (h : docs.find? query = some chosen) :
    updateDoc change chosen docs = updateFirst query change docs := by
  induction docs with
  | nil => cases h
  | cons head docs ih =>
      rw [List.nodup_cons] at hnodup
      have hrest : ∀ {doc : Doc}, doc ∉ docs → updateDoc change doc docs = docs := by
        intro doc hdoc
        refine (List.map_congr_left fun other hother => ?_).trans (List.map_id' docs)
        exact if_neg (ne_of_mem_of_not_mem hother hdoc)
      by_cases hhead : query head = true
      · rw [List.find?_cons_of_pos hhead] at h
        obtain rfl := Option.some.inj h
        rw [updateFirst_cons_of_pos hhead]
        change (if head = head then change head else head) :: updateDoc change head docs = _
        rw [if_pos rfl, hrest hnodup.1]
      · rw [List.find?_cons_of_neg hhead] at h
        have hne : head ≠ chosen := (ne_of_mem_of_not_mem (List.mem_of_find?_eq_some h) hnodup.1).symm
        rw [updateFirst_cons_of_neg hhead, ← ih hnodup.2 h]
        change (if head = chosen then change head else head) :: updateDoc change chosen docs = _
        rw [if_neg hne]

end Update

namespace Collection

variable {indexes : List (UniqueIndex Doc Key)}

def findOneBy (choose : Chooser Doc) (coll : Collection indexes) (query : Doc → Bool) : Option Doc :=
  choose.pick (coll.docs.filter query)

/-- `UpdateOne` of an arbitrary match. -/
def updateOneBy [DecidableEq Doc] [DecidableEq Key] (choose : Chooser Doc) (coll : Collection indexes)
    (query : Doc → Bool) (change : Doc → Doc) : Except WriteError (Collection indexes × Nat) :=
  match choose.pick (coll.docs.filter query) with
  | none => .ok (coll, 0)
  | some chosen =>
      if h : (updateDoc change chosen coll.docs).Pairwise fun left right => ¬ Clash indexes left right then
        .ok (⟨updateDoc change chosen coll.docs, h⟩, 1)
      else .error .duplicateKey

theorem findOneBy_first (coll : Collection indexes) (query : Doc → Bool) :
    coll.findOneBy .first query = coll.findOne query := List.head?_filter

theorem findOneBy_some {choose : Chooser Doc} {coll : Collection indexes} {query : Doc → Bool} {doc : Doc}
    (h : coll.findOneBy choose query = some doc) : doc ∈ coll.docs ∧ query doc = true :=
  List.mem_filter.mp (choose.pick_mem h)

theorem updateOneBy_first [DecidableEq Doc] [DecidableEq Key] (coll : Collection indexes)
    (hnodup : coll.docs.Nodup) (query : Doc → Bool) (change : Doc → Doc) :
    coll.updateOneBy .first query change = coll.updateOne query change := by
  unfold updateOneBy updateOne
  have hpick : Chooser.first.pick (coll.docs.filter query) = coll.docs.find? query := List.head?_filter
  rw [hpick]
  cases hfind : coll.docs.find? query with
  | none =>
      have hnot : ∀ doc ∈ coll.docs, ¬ query doc = true := List.find?_eq_none.mp hfind
      have hsame : updateFirst query change coll.docs = coll.docs := updateFirst_of_forall_not hnot
      have hany : coll.docs.any query = false := by simpa using hnot
      simp only [hsame, dif_pos coll.unique, hany]
      rfl
  | some chosen =>
      have hany : coll.docs.any query = true :=
        List.any_eq_true.mpr ⟨chosen, List.mem_of_find?_eq_some hfind, List.find?_some hfind⟩
      simp only [updateDoc_find? hnodup hfind, hany, if_true]

end Collection

end DocumentStore
