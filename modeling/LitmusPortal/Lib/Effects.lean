import LitmusPortal.Lib.Collection
import Mathlib.Data.Multiset.MapFold

/-!
# Effects on a list of documents

An effect changes every document on its own and adds documents at the end. Two effects commute when
their changes do and neither changes what the other adds; the order in which pairwise commuting
effects are run does not matter, up to the order of the documents.
-/

namespace DocumentStore

variable {Doc : Type*}

structure Effect (Doc : Type*) where
  onDoc : Doc → Doc
  added : List Doc

namespace Effect

def keep : Effect Doc := ⟨id, []⟩

def add (doc : Doc) : Effect Doc := ⟨id, [doc]⟩

/-- The documents with this key are changed. -/
def edit {Key : Type*} [DecidableEq Key] (key : Doc → Key) (target : Key) (change : Doc → Doc) :
    Effect Doc :=
  ⟨fun doc => if key doc = target then change doc else doc, []⟩

def run (effect : Effect Doc) (docs : List Doc) : List Doc := docs.map effect.onDoc ++ effect.added

@[simp]
theorem run_keep (docs : List Doc) : keep.run docs = docs := by simp [keep, run]

@[simp]
theorem run_add (doc : Doc) (docs : List Doc) : (add doc).run docs = docs ++ [doc] := by
  simp [add, run]

structure Commutes (left right : Effect Doc) : Prop where
  onDoc : ∀ doc, left.onDoc (right.onDoc doc) = right.onDoc (left.onDoc doc)
  left_added : ∀ doc ∈ left.added, right.onDoc doc = doc
  right_added : ∀ doc ∈ right.added, left.onDoc doc = doc

theorem Commutes.run_perm {left right : Effect Doc} (h : Commutes left right) (docs : List Doc) :
    (left.run (right.run docs)).Perm (right.run (left.run docs)) := by
  have hleft : left.added.map right.onDoc = left.added :=
    (List.map_congr_left h.left_added).trans (List.map_id' _)
  have hright : right.added.map left.onDoc = right.added :=
    (List.map_congr_left h.right_added).trans (List.map_id' _)
  have hdocs : (docs.map right.onDoc).map left.onDoc = (docs.map left.onDoc).map right.onDoc := by
    simp only [List.map_map]
    exact List.map_congr_left fun doc _ => h.onDoc doc
  simp only [run, List.map_append, hleft, hright, hdocs, List.append_assoc]
  exact List.Perm.append_left _ List.perm_append_comm

/-- Pairwise commuting effects lead to the same documents in every order. -/
theorem foldl_run_perm {ι : Type*} {effectOf : ι → Effect Doc} {order order' : List ι}
    (hperm : order.Perm order')
    (hcommutes : ∀ i ∈ order, ∀ j ∈ order, i ≠ j → Commutes (effectOf i) (effectOf j))
    (docs : List Doc) :
    (order.foldl (fun docs i => (effectOf i).run docs) docs).Perm
      (order'.foldl (fun docs i => (effectOf i).run docs) docs) := by
  -- on multisets the runs commute exactly, so the general fact about folds applies
  let runM (docs : Multiset Doc) (i : ι) : Multiset Doc :=
    docs.map (effectOf i).onDoc + (effectOf i).added
  have hcoe : ∀ (order : List ι) (docs : List Doc),
      ((order.foldl (fun docs i => (effectOf i).run docs) docs : List Doc) : Multiset Doc) =
        order.foldl runM docs := by
    intro order
    induction order with
    | nil => exact fun _ => rfl
    | cons i order ih =>
        intro docs
        rw [List.foldl_cons, List.foldl_cons, ih]
        simp [runM, run]
  have hcomm : ∀ i ∈ order, ∀ j ∈ order, ∀ docs, runM (runM docs i) j = runM (runM docs j) i := by
    intro i hi j hj docs
    by_cases heq : i = j
    · rw [heq]
    · induction docs using Quotient.inductionOn with
      | h docs =>
          have hrun := (hcommutes j hj i hi (Ne.symm heq)).run_perm docs
          rw [← Multiset.coe_eq_coe] at hrun
          simpa [runM, run] using hrun
  rw [← Multiset.coe_eq_coe, hcoe, hcoe]
  exact hperm.foldl_eq' hcomm _

theorem Commutes.symm {left right : Effect Doc} (h : Commutes left right) :
    Commutes right left := ⟨fun doc => (h.onDoc doc).symm, h.right_added, h.left_added⟩

theorem commutes_keep (effect : Effect Doc) : Commutes keep effect :=
  ⟨fun _ => rfl, by simp [keep], fun _ _ => rfl⟩

theorem commutes_add_add (doc doc' : Doc) : Commutes (add doc) (add doc') :=
  ⟨fun _ => rfl, fun _ _ => rfl, fun _ _ => rfl⟩

section Edit

variable {Key : Type*} [DecidableEq Key] {key : Doc → Key}

theorem commutes_add_edit {doc : Doc} {target : Key} {change : Doc → Doc}
    (hne : key doc ≠ target) : Commutes (add doc) (edit key target change) where
  onDoc _ := rfl
  left_added added hadded := by
    obtain rfl : added = doc := by simpa [add] using hadded
    simp [edit, hne]
  right_added _ hadded := by simp [edit] at hadded

/-- Edits of different documents commute, and so do edits that make the same change. -/
theorem commutes_edit {left right : Key} {change change' : Doc → Doc}
    (h : left ≠ right ∨ change = change') (hkey : ∀ doc, key (change doc) = key doc)
    (hkey' : ∀ doc, key (change' doc) = key doc) :
    Commutes (edit key left change) (edit key right change') where
  onDoc doc := by
    simp only [edit]
    by_cases hleft : key doc = left
    · by_cases hright : key doc = right
      · have hsame : change = change' := h.resolve_left fun hne => hne (hleft.symm.trans hright)
        rw [if_pos hright, if_pos hleft, hsame, if_pos (by rwa [hkey']), if_pos (by rwa [hkey'])]
      · rw [if_neg hright, if_pos hleft, if_neg (by rwa [hkey])]
    · by_cases hright : key doc = right
      · rw [if_pos hright, if_neg hleft, if_neg (by rwa [hkey']), if_pos hright]
      · rw [if_neg hright, if_neg hleft, if_neg hright]
  left_added doc hdoc := by simp [edit] at hdoc
  right_added doc hdoc := by simp [edit] at hdoc

end Edit

/-- An effect leaves alone what a filter selects, when it changes and adds only what the filter
leaves out. -/
theorem filter_run {effect : Effect Doc} {p : Doc → Bool} {docs : List Doc}
    (honDoc : ∀ doc ∈ docs, effect.onDoc doc = doc ∨ (p doc = false ∧ p (effect.onDoc doc) = false))
    (hadded : ∀ doc ∈ effect.added, p doc = false) :
    (effect.run docs).filter p = docs.filter p := by
  have hnone : effect.added.filter p = [] :=
    List.filter_eq_nil_iff.mpr fun doc hdoc => by simp [hadded doc hdoc]
  rw [run, List.filter_append, hnone, List.append_nil]
  induction docs with
  | nil => rfl
  | cons doc docs ih =>
      have hrest := ih fun other hother => honDoc other (by simp [hother])
      rcases honDoc doc (by simp) with hsame | ⟨hbefore, hafter⟩
      · simp only [List.map_cons, List.filter_cons, hsame, hrest]
      · simp [hbefore, hafter, hrest]

end Effect

/-! ### Queries inside a filter -/

section Queries

variable {p query : Doc → Bool} {docs docs' : List Doc}

theorem find?_eq_of_filter_eq (hfilter : docs'.filter p = docs.filter p)
    (hquery : ∀ doc, query doc = true → p doc = true) : docs'.find? query = docs.find? query := by
  have hinside : ∀ docs : List Doc, docs.find? query = (docs.filter p).find? query := by
    intro docs
    rw [List.find?_filter]
    congr 1
    funext doc
    by_cases hdoc : query doc = true
    · simp [hdoc, hquery doc hdoc]
    · simp [hdoc]
  rw [hinside docs', hfilter, ← hinside docs]

theorem any_eq_of_filter_eq (hfilter : docs'.filter p = docs.filter p)
    (hquery : ∀ doc, query doc = true → p doc = true) : docs'.any query = docs.any query := by
  rw [← List.isSome_find?, ← List.isSome_find?, find?_eq_of_filter_eq hfilter hquery]

theorem map_find?_map {Key : Type*} {key : Doc → Key} {change : Doc → Doc}
    (hquery : ∀ doc, query (change doc) = query doc) (hkey : ∀ doc, key (change doc) = key doc) :
    ((docs.map change).find? query).map key = (docs.find? query).map key := by
  induction docs with
  | nil => rfl
  | cons doc docs ih =>
      rw [List.map_cons]
      by_cases hdoc : query doc = true
      · rw [List.find?_cons_of_pos ((hquery doc).trans hdoc), List.find?_cons_of_pos hdoc]
        simp [hkey]
      · rw [List.find?_cons_of_neg (by rwa [hquery]), List.find?_cons_of_neg hdoc, ih]

end Queries

end DocumentStore
