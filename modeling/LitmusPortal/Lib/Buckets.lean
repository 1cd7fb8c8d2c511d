import Mathlib.Data.List.AList
import Mathlib.Data.List.Induction
import Mathlib.Data.List.Sort
import Mathlib.Logic.Function.Basic

/-!
# Counting into buckets

A map holds one bucket for each label of a window, under the key of the label, and items are counted one by
one. Where the keys tell the labels of the window apart, the buckets hold the numbers of the items of their
labels, and a sort brings them into the order of the labels, however the map is ranged over.
-/

namespace Buckets

variable {Key Label Value : Type} [DecidableEq Key]

/-- The buckets of a map are those of a window. -/
def Represents (window : List Label) (key : Label → Key) (bucket : Label → ℕ → Value)
    (map : AList fun _ : Key => Value) (counts : Label → ℕ) : Prop :=
  ∀ k value, map.lookup k = some value ↔ ∃ label ∈ window, k = key label ∧ value = bucket label (counts label)

section Represents

variable {window : List Label} {key : Label → Key} {bucket : Label → ℕ → Value} {map : AList fun _ : Key => Value}
  {counts : Label → ℕ}

theorem represents_empty : Represents [] key bucket ∅ counts := by
  intro k value
  refine iff_of_false (by simp) ?_
  rintro ⟨label, hlabel, -⟩
  cases hlabel

theorem Represents.lookup (h : Represents window key bucket map counts) {label : Label} (hlabel : label ∈ window) :
    map.lookup (key label) = some (bucket label (counts label)) :=
  (h _ _).mpr ⟨label, hlabel, rfl, rfl⟩

theorem Represents.insert_new (h : Represents window key bucket map counts) {label : Label}
    (hinj : ∀ other ∈ window, key other = key label → other = label) :
    Represents (window ++ [label]) key bucket (map.insert (key label) (bucket label (counts label))) counts := by
  intro k value
  by_cases hk : k = key label
  · subst hk
    rw [AList.lookup_insert]
    constructor
    · intro hvalue
      exact ⟨label, by simp, rfl, (Option.some.inj hvalue).symm⟩
    · rintro ⟨other, hother, hkey, rfl⟩
      rcases List.mem_append.mp hother with hmem | hmem
      · rw [hinj other hmem hkey.symm]
      · rw [List.mem_singleton.mp hmem]
  · rw [AList.lookup_insert_ne hk, h k value]
    constructor
    · rintro ⟨other, hother, hrest⟩
      exact ⟨other, List.mem_append_left _ hother, hrest⟩
    · rintro ⟨other, hother, hkey, hvalue⟩
      rcases List.mem_append.mp hother with hmem | hmem
      · exact ⟨other, hmem, hkey, hvalue⟩
      · rw [List.mem_singleton.mp hmem] at hkey
        exact absurd hkey hk

theorem Represents.insert_count [DecidableEq Label] (h : Represents window key bucket map counts) {label : Label}
    (hlabel : label ∈ window)
    (hinj : ∀ other ∈ window, key other = key label → other = label) :
    Represents window key bucket (map.insert (key label) (bucket label (counts label + 1)))
      (Function.update counts label (counts label + 1)) := by
  intro k value
  by_cases hk : k = key label
  · subst hk
    rw [AList.lookup_insert]
    constructor
    · intro hvalue
      refine ⟨label, hlabel, rfl, ?_⟩
      rw [Function.update_self]
      exact (Option.some.inj hvalue).symm
    · rintro ⟨other, hother, hkey, rfl⟩
      rw [hinj other hother hkey.symm, Function.update_self]
  · rw [AList.lookup_insert_ne hk, h k value]
    refine exists_congr fun other => and_congr_right fun _ => and_congr_right fun hkey => ?_
    have hne : other ≠ label := by
      rintro rfl
      exact hk hkey
    rw [Function.update_of_ne hne]

theorem represents_foldl (hinj : ∀ left ∈ window, ∀ right ∈ window, key left = key right → left = right) :
    Represents window key bucket
      (window.foldl (fun map label => map.insert (key label) (bucket label (counts label))) ∅) counts := by
  induction window using List.reverseRecOn with
  | nil => exact represents_empty
  | append_singleton window label ih =>
      rw [List.foldl_concat]
      have hwindow := ih fun left hleft right hright =>
        hinj left (List.mem_append_left _ hleft) right (List.mem_append_left _ hright)
      exact hwindow.insert_new fun other hother =>
        hinj other (List.mem_append_left _ hother) label (by simp)

theorem Represents.keys_perm (h : Represents window key bucket map counts) (hnodup : window.Nodup)
    (hinj : ∀ left ∈ window, ∀ right ∈ window, key left = key right → left = right) :
    map.keys.Perm (window.map key) := by
  rw [List.perm_ext_iff_of_nodup map.keys_nodup (hnodup.map_on hinj)]
  intro k
  rw [← AList.mem_keys, ← AList.lookup_isSome, Option.isSome_iff_exists, List.mem_map]
  constructor
  · rintro ⟨value, hvalue⟩
    obtain ⟨label, hlabel, rfl, -⟩ := (h k value).mp hvalue
    exact ⟨label, hlabel, rfl⟩
  · rintro ⟨label, hlabel, rfl⟩
    exact ⟨_, h.lookup hlabel⟩

/-- Whatever the order of the keys, the sorted values are the buckets of the window. -/
theorem Represents.sorted (h : Represents window key bucket map counts)
    (hinj : ∀ left ∈ window, ∀ right ∈ window, key left = key right → left = right)
    {date : Value → Int} (hwindow : window.Pairwise fun left right =>
      date (bucket left (counts left)) < date (bucket right (counts right)))
    {keys : List Key} (hkeys : keys.Perm map.keys) :
    (keys.filterMap map.lookup).insertionSort (fun left right => date left ≤ date right) =
      window.map fun label => bucket label (counts label) := by
  have hnodup : window.Nodup := hwindow.imp fun {left right} hlt heq => by
    subst heq
    exact lt_irrefl _ hlt
  have hvalues : (window.map key).filterMap map.lookup = window.map fun label => bucket label (counts label) := by
    rw [List.filterMap_map, ← List.filterMap_eq_map']
    exact List.filterMap_congr fun label hlabel => h.lookup hlabel
  have hperm : ((keys.filterMap map.lookup).insertionSort fun left right => date left ≤ date right).Perm
      (window.map fun label => bucket label (counts label)) := by
    rw [← hvalues]
    exact (List.perm_insertionSort _ _).trans ((hkeys.trans (h.keys_perm hnodup hinj)).filterMap _)
  have htotal : Std.Total fun left right : Value => date left ≤ date right := ⟨fun _ _ => le_total _ _⟩
  have htrans : IsTrans Value fun left right => date left ≤ date right := ⟨fun _ _ _ => le_trans⟩
  refine hperm.eq_of_pairwise ?_ (List.pairwise_insertionSort _ _) ?_
  · intro left right hleft hright hle hge
    obtain ⟨label, hlabel, rfl⟩ := List.mem_map.mp (hperm.subset hleft)
    obtain ⟨label', hlabel', rfl⟩ := List.mem_map.mp hright
    by_contra hne
    have hlabels : label ≠ label' := by
      rintro rfl
      exact hne rfl
    have hsymm : Std.Symm fun left right => date (bucket left (counts left)) ≠ date (bucket right (counts right)) :=
      ⟨fun _ _ => Ne.symm⟩
    have hdates : window.Pairwise fun left right =>
        date (bucket left (counts left)) ≠ date (bucket right (counts right)) := hwindow.imp ne_of_lt
    exact hdates.forall hlabel hlabel' hlabels (le_antisymm hle hge)
  · rw [List.pairwise_map]
    exact hwindow.imp le_of_lt

end Represents

end Buckets
