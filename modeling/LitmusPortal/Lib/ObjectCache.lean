import Mathlib.Logic.Function.Basic
import Mathlib.Data.List.Basic

/-!
# A cache of shared objects

The cache holds references. An object that has been handed out stays what the cache hands out next, so a holder
that rewrites it rewrites the cached value. `Backed` is what the entries of a cache are worth: under its key each
has an object that was made for this key and meets a property of key and value.
-/

/-- `key` is the key an object was made for. No operation reads it. -/
structure CachedObject (Key Value : Type*) where
  key : Key
  value : Value

structure ObjectCache (Key Value : Type*) where
  objects : List (CachedObject Key Value)
  entry : Key → Option Nat

namespace ObjectCache

variable {Key Value : Type*} {P Q : Key → Value → Prop} {c : ObjectCache Key Value} {key : Key}
  {ref : Nat} {value : Value}

def empty : ObjectCache Key Value := ⟨[], fun _ => none⟩

def valueAt (c : ObjectCache Key Value) (ref : Nat) : Option Value :=
  c.objects[ref]?.map CachedObject.value

/-- A new object. Its reference is the number of the objects before. -/
def make (c : ObjectCache Key Value) (key : Key) (value : Value) : ObjectCache Key Value :=
  { c with objects := c.objects ++ [⟨key, value⟩] }

section Entries

variable [DecidableEq Key]

def bind (c : ObjectCache Key Value) (key : Key) (ref : Nat) : ObjectCache Key Value :=
  { c with entry := Function.update c.entry key (some ref) }

def expire (c : ObjectCache Key Value) (key : Key) : ObjectCache Key Value :=
  { c with entry := Function.update c.entry key none }

end Entries

/-- The objects are changed in place. -/
def rewrite (change : Nat → Value → Value) (c : ObjectCache Key Value) : ObjectCache Key Value :=
  { c with objects := c.objects.mapIdx fun ref object => { object with value := change ref object.value } }

/-! ## What a reference is worth -/

def Holds (P : Key → Value → Prop) (c : ObjectCache Key Value) (key : Key) (ref : Nat) : Prop :=
  ∃ value, c.objects[ref]? = some ⟨key, value⟩ ∧ P key value

theorem Holds.mono (h : Holds P c key ref) (hPQ : ∀ value, P key value → Q key value) : Holds Q c key ref := by
  obtain ⟨value, hobject, hvalue⟩ := h
  exact ⟨value, hobject, hPQ value hvalue⟩

theorem Holds.of_objects_eq {c' : ObjectCache Key Value} (h : Holds P c key ref) (hobjects : c'.objects = c.objects) :
    Holds P c' key ref := by
  obtain ⟨value, hobject, hvalue⟩ := h
  exact ⟨value, by rwa [hobjects], hvalue⟩

theorem Holds.key_eq {key' : Key} (h : Holds P c key ref) (h' : Holds Q c key' ref) : key = key' := by
  obtain ⟨value, hobject, -⟩ := h
  obtain ⟨value', hobject', -⟩ := h'
  rw [hobject] at hobject'
  exact congrArg CachedObject.key (Option.some.inj hobject')

theorem Holds.valueAt (h : Holds P c key ref) : ∃ value, c.valueAt ref = some value ∧ P key value := by
  obtain ⟨value, hobject, hvalue⟩ := h
  refine ⟨value, ?_, hvalue⟩
  rw [ObjectCache.valueAt, hobject, Option.map_some]

theorem Holds.make (h : Holds P c key ref) (key' : Key) (value' : Value) :
    Holds P (c.make key' value') key ref := by
  obtain ⟨value, hobject, hvalue⟩ := h
  refine ⟨value, ?_, hvalue⟩
  have hlt : ref < c.objects.length := (List.getElem?_eq_some_iff.mp hobject).1
  rw [ObjectCache.make, List.getElem?_append_left hlt]
  exact hobject

theorem holds_make (c : ObjectCache Key Value) (h : P key value) :
    Holds P (c.make key value) key c.objects.length := ⟨value, List.getElem?_concat_length, h⟩

theorem Holds.rewrite {change : Nat → Value → Value} (h : Holds P c key ref)
    (hchange : ∀ value, P key value → Q key (change ref value)) : Holds Q (c.rewrite change) key ref := by
  obtain ⟨value, hobject, hvalue⟩ := h
  refine ⟨change ref value, ?_, hchange value hvalue⟩
  rw [ObjectCache.rewrite, List.getElem?_mapIdx, hobject]
  rfl

/-! ## What the entries are worth -/

/-- Each entry has an object that was made for its key and meets the property. -/
def Backed (P : Key → Value → Prop) (c : ObjectCache Key Value) : Prop :=
  ∀ key ref, c.entry key = some ref → Holds P c key ref

theorem backed_empty : Backed P (empty : ObjectCache Key Value) := by
  intro key ref hentry
  cases hentry

theorem Backed.mono (h : Backed P c) (hPQ : ∀ key value, P key value → Q key value) : Backed Q c :=
  fun key ref hentry => (h key ref hentry).mono (hPQ key)

theorem Backed.make (h : Backed P c) (key : Key) (value : Value) : Backed P (c.make key value) :=
  fun key' ref hentry => (h key' ref hentry).make key value

theorem Backed.rewrite {change : Nat → Value → Value} (h : Backed P c)
    (hchange : ∀ key ref, Holds P c key ref → ∀ value, P key value → Q key (change ref value)) :
    Backed Q (c.rewrite change) := by
  intro key ref hentry
  have hholds := h key ref hentry
  exact hholds.rewrite (hchange key ref hholds)

section Entries

variable [DecidableEq Key]

theorem Backed.bind (h : Backed P c) (hholds : Holds P c key ref) : Backed P (c.bind key ref) := by
  intro key' ref' hentry
  by_cases hkey : key' = key
  · subst hkey
    obtain rfl : ref = ref' := by simpa [ObjectCache.bind] using hentry
    exact hholds
  · exact h key' ref' (by simpa [ObjectCache.bind, hkey] using hentry)

theorem Backed.expire (h : Backed P c) (key : Key) : Backed P (c.expire key) := by
  intro key' ref' hentry
  by_cases hkey : key' = key
  · subst hkey
    simp [ObjectCache.expire] at hentry
  · exact h key' ref' (by simpa [ObjectCache.expire, hkey] using hentry)

end Entries

end ObjectCache
