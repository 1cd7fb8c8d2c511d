import LitmusPortal.Lib.Collection

/-!
# Documents with an id of their own

The documents of a collection in their order, no two with the same id. A change keeps the id, so that
the documents stay apart; a new document is only added under an id that no other one has.
-/

namespace DocumentStore

variable {Doc Id : Type} {key : Doc → Id}

structure Documents (key : Doc → Id) where
  docs : List Doc
  unique : (docs.map key).Nodup

/-- A change that leaves the id. -/
def Change (key : Doc → Id) := { change : Doc → Doc // ∀ doc, key (change doc) = key doc }

/-! ### Changing so many matches of a list -/

def updateAtMost (query : Doc → Bool) (change : Doc → Doc) : Nat → List Doc → List Doc
  | 0, docs => docs
  | _ + 1, [] => []
  | limit + 1, doc :: docs =>
      if query doc then change doc :: updateAtMost query change limit docs
      else doc :: updateAtMost query change (limit + 1) docs

section UpdateAtMost

variable {query : Doc → Bool} {change : Doc → Doc} {limit : Nat} {docs : List Doc}

theorem map_updateAtMost {Value : Type} {proj : Doc → Value} (h : ∀ doc, proj (change doc) = proj doc) :
    (updateAtMost query change limit docs).map proj = docs.map proj := by
  fun_induction updateAtMost query change limit docs with
  | case1 docs => rfl
  | case2 limit => rfl
  | case3 limit doc docs hquery ih => rw [List.map_cons, h doc, ih, List.map_cons]
  | case4 limit doc docs hquery ih => rw [List.map_cons, ih, List.map_cons]

theorem updateAtMost_of_forall (h : ∀ doc, query doc = true) :
    updateAtMost query change limit docs = (docs.take limit).map change ++ docs.drop limit := by
  fun_induction updateAtMost query change limit docs with
  | case1 docs => rfl
  | case2 limit => rfl
  | case3 limit doc docs hquery ih =>
      rw [ih]
      rfl
  | case4 limit doc docs hquery ih => exact absurd (h doc) hquery

end UpdateAtMost

namespace Documents

def empty : Documents key := ⟨[], List.nodup_nil⟩

/-- `UpdateOne` -/
def update (coll : Documents key) (query : Doc → Bool) (change : Change key) : Documents key where
  docs := updateFirst query change.val coll.docs
  unique := by
    rw [map_updateFirst fun doc _ _ => change.property doc]
    exact coll.unique

def add [DecidableEq Id] (coll : Documents key) (doc : Doc) : Documents key :=
  if h : key doc ∈ coll.docs.map key then coll
  else
    { docs := coll.docs ++ [doc]
      unique := by
        rw [List.map_append, List.map_singleton]
        exact coll.unique.append (List.nodup_singleton _) (by simpa using h) }

/-- `UpdateMany` that ends once so many of the matching documents are written. -/
def updateMany (coll : Documents key) (limit : Nat) (query : Doc → Bool) (change : Change key) :
    Documents key where
  docs := updateAtMost query change.val limit coll.docs
  unique := by
    rw [map_updateAtMost change.property]
    exact coll.unique

theorem eq_of_key (coll : Documents key) {left right : Doc} (hleft : left ∈ coll.docs)
    (hright : right ∈ coll.docs) (h : key left = key right) : left = right :=
  List.inj_on_of_nodup_map coll.unique hleft hright h

theorem docs_update {coll : Documents key} {query : Doc → Bool} {change : Change key} (id : Id)
    (hquery : ∀ doc, query doc = true → key doc = id) :
    (coll.update query change).docs = coll.docs.map fun doc => if query doc then change.val doc else doc :=
  updateFirst_eq_map_of_key id (List.pairwise_map.mp coll.unique) hquery

theorem mem_update {coll : Documents key} {query : Doc → Bool} {change : Change key} {doc : Doc} (id : Id)
    (hquery : ∀ doc, query doc = true → key doc = id) (h : doc ∈ (coll.update query change).docs) :
    (doc ∈ coll.docs ∧ query doc = false) ∨ ∃ old ∈ coll.docs, query old = true ∧ doc = change.val old := by
  rw [docs_update id hquery] at h
  obtain ⟨old, hold, rfl⟩ := List.mem_map.mp h
  by_cases hmatch : query old = true
  · exact .inr ⟨old, hold, hmatch, by rw [if_pos hmatch]⟩
  · rw [if_neg hmatch]
    exact .inl ⟨hold, by simpa using hmatch⟩

theorem getElem?_update {coll : Documents key} {query : Doc → Bool} {change : Change key} {i : Nat}
    {doc : Doc} (hdoc : coll.docs[i]? = some doc) (hmatch : query doc = true)
    (hquery : ∀ other, query other = true → key other = key doc) :
    (coll.update query change).docs[i]? = some (change.val doc) := by
  rw [docs_update (key doc) hquery, List.getElem?_map, hdoc]
  simp [hmatch]

theorem docs_add [DecidableEq Id] (coll : Documents key) (doc : Doc) :
    (coll.add doc).docs = coll.docs ∨ (coll.add doc).docs = coll.docs ++ [doc] := by
  unfold add
  split
  · exact .inl rfl
  · exact .inr rfl

theorem docs_add_of_notMem [DecidableEq Id] (coll : Documents key) {doc : Doc}
    (h : key doc ∉ coll.docs.map key) : (coll.add doc).docs = coll.docs ++ [doc] := by
  unfold add
  rw [dif_neg h]

end Documents

/-! ### Documents that are left as they are -/

/-- The documents that a caller does not own are where they were, and as they were. -/
def Spares (own : Doc → Prop) (before after : List Doc) : Prop :=
  ∀ (i : Nat) (doc : Doc), before[i]? = some doc → ¬ own doc → after[i]? = some doc

theorem Spares.refl (own : Doc → Prop) (docs : List Doc) : Spares own docs docs := fun _ _ h _ => h

theorem Spares.append {own : Doc → Prop} {before after : List Doc} (h : Spares own before after)
    (added : List Doc) : Spares own before (after ++ added) := by
  intro i doc hdoc hown
  have hafter := h i doc hdoc hown
  rwa [List.getElem?_append_left (List.getElem?_eq_some_iff.mp hafter).choose]

theorem Spares.updateFirst {own : Doc → Prop} {before after : List Doc} {query : Doc → Bool}
    {change : Doc → Doc} (h : Spares own before after)
    (hquery : ∀ doc ∈ before, doc ∈ after → ¬ own doc → query doc = false) :
    Spares own before (updateFirst query change after) := by
  intro i doc hdoc hown
  have hafter := h i doc hdoc hown
  rcases @getElem?_updateFirst _ query change _ _ _ hafter with hsame | ⟨hfind, -⟩
  · exact hsame
  · have hnot := hquery doc (List.mem_of_getElem? hdoc) (List.mem_of_getElem? hafter) hown
    simp [List.find?_some hfind] at hnot

end DocumentStore
