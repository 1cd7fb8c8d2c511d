import LitmusPortal.Analytics.Prometheus
import LitmusPortal.Lib.Removal

/-!
# Chaos events with their verdicts

`PatchChaosEventWithVerdict`: the sub-data of a verdict is written into the events under its legend, later events with
that legend are merged into the first one and then removed, and a verdict without an event is appended. An index that
is out of range is a panic, here `none`. The cached entry is the response itself and not stated.

`annotation` is a copy of the response made before the loop. It shares the slots of `SubDataArray` with it until an
append finds no capacity and moves them; from then on it still has those of that moment.
-/

namespace LitmusPortal.Prometheus

open Removal

/-- The comparisons of `float64`. -/
structure Comparison (F : Type) where
  same : F → F → Bool
  positive : F → Bool
  same_left : ∀ date date', same date date' = true → same date date = true
  same_positive : ∀ date, positive date = true → same date date = true

/-- A response while it is patched. `spare` is what is left of the capacity of its `SubDataArray`, and `stale` what
the copy has once that has moved. -/
structure Patching (F : Type) where
  response : AnnotationsPromResponse F
  stale : Option (List (List (SubData F)))
  spare : ℕ
  duplicateEventIndices : List (ℕ × ℕ)

variable {F : Type}

/-- The `SubDataArray` of `annotation`. -/
def Patching.seen (patching : Patching F) : List (List (SubData F)) :=
  patching.stale.getD patching.response.subDataArray

section Patch

variable (cmp : Comparison F)

/-! ### Sub-data -/

def SubData.matches (eventSubData verdictSubData : SubData F) : Bool :=
  eventSubData.subDataName = verdictSubData.subDataName && cmp.same eventSubData.date verdictSubData.date

def setValue (data : List (SubData F)) (index : ℕ) (value : List UInt8) : Option (List (SubData F)) :=
  if index < data.length then some (data.modify index fun subData => { subData with value := value }) else none

def patchValue (events : List (SubData F)) (data : List (SubData F)) (verdictSubData : SubData F) :
    Option (List (SubData F)) :=
  events.zipIdx.foldlM (fun data event =>
    if event.1.matches cmp verdictSubData then setValue data event.2 verdictSubData.value else some data) data

/-- Sub-data that is not found is appended if it has a date. -/
def patchSubData (events : Option (List (SubData F))) (verdict data : List (SubData F)) :
    Option (List (SubData F)) := do
  let data ← verdict.foldlM (fun data verdictSubData => do
    let events ← events
    patchValue cmp events data verdictSubData) data
  return data ++ verdict.filter fun verdictSubData =>
    !(events.getD []).any (·.matches cmp verdictSubData) && cmp.positive verdictSubData.date

/-! ### Events -/

def Patching.setSubData (patching : Patching F) (index : ℕ) (data : List (SubData F)) : Patching F :=
  { patching with
    response := { patching.response with subDataArray := patching.response.subDataArray.set index data } }

/-- The offset of a duplicate is the number of those found before it. -/
def Patching.noteDuplicate (patching : Patching F) (index : ℕ) : Patching F :=
  if (patching.duplicateEventIndices.lookup index).isSome then patching
  else
    { patching with
      duplicateEventIndices :=
        patching.duplicateEventIndices ++ [(index, patching.duplicateEventIndices.length)] }

/-- The series of a later event are appended to those of the first one, unless that has the date of their first
value; its sub-data replaces that of the first one. -/
def Patching.merge (patching : Patching F) (first index : ℕ) : Option (Patching F) := do
  let tsv ← patching.response.tsvs[first]?
  let duplicate ← patching.response.tsvs[index]?
  let head ← duplicate.head?
  let data ← patching.response.subDataArray[index]?
  return { patching with
    response := { patching.response with
      tsvs :=
        if tsv.any (cmp.same ·.1 head.1) then patching.response.tsvs
        else patching.response.tsvs.set first (tsv ++ duplicate)
      subDataArray := patching.response.subDataArray.set first data } }

/-- An event under the legend of the verdict. -/
def patchEvent (verdictSubData : Option (List (SubData F))) (patching : Patching F) (first : Option ℕ) (index : ℕ) :
    Option (Patching F) := do
  let patching := if first.isSome then patching.noteDuplicate index else patching
  let verdictSubData ← verdictSubData
  let data ← patching.response.subDataArray[index]?
  let data ← patchSubData cmp patching.seen[index]? verdictSubData data
  match first with
  | none => return patching.setSubData index data
  | some first => (patching.setSubData index data).merge cmp first index

def patchEvents (verdictLegend : String) (verdictSubData : Option (List (SubData F))) (legends : List String)
    (patching : Patching F) : Option (Patching F × Option ℕ) :=
  legends.zipIdx.foldlM (fun state event =>
    if verdictLegend = event.1 then
      (patchEvent cmp verdictSubData state.1 state.2 event.2).map fun patching =>
        (patching, some (state.2.getD event.2))
    else some state) (patching, none)

/-! ### Verdicts -/

/-- A verdict without an event is appended if one of its values is 1. -/
def Patching.addVerdict (patching : Patching F) (verdictLegend : String) (tsv : Option (List (F × Int)))
    (verdictSubData : Option (List (SubData F))) : Option (Patching F) := do
  let tsv ← tsv
  if tsv.any (·.2 = 1) then
    let verdictSubData ← verdictSubData
    return { patching with
      response := { patching.response with
        legends := patching.response.legends ++ [verdictLegend]
        tsvs := patching.response.tsvs ++ [[]]
        subDataArray := patching.response.subDataArray ++ [verdictSubData] }
      stale := patching.stale <|> if patching.spare = 0 then some patching.response.subDataArray else none
      spare := patching.spare - 1 }
  else return patching

def patchVerdict (verdictResponse : AnnotationsPromResponse F) (legends : List String) (patching : Patching F)
    (verdict : String × ℕ) : Option (Patching F) := do
  let (patching, first) ← patchEvents cmp verdict.1 verdictResponse.subDataArray[verdict.2]? legends patching
  if first.isSome then return patching
  else patching.addVerdict verdict.1 verdictResponse.tsvs[verdict.2]? verdictResponse.subDataArray[verdict.2]?

/-! ### Removal -/

def removeAt (response : AnnotationsPromResponse F) (index : ℕ) : Option (AnnotationsPromResponse F) :=
  if index < response.legends.length ∧ index < response.tsvs.length ∧ index < response.subDataArray.length then
    some { response with
      legends := response.legends.eraseIdx index
      tsvs := response.tsvs.eraseIdx index
      subDataArray := response.subDataArray.eraseIdx index }
  else none

def removeDuplicate (duplicateEventIndices : List (ℕ × ℕ)) (response : AnnotationsPromResponse F) (i : ℕ) :
    Option (AnnotationsPromResponse F) :=
  match duplicateEventIndices.lookup i with
  | some offset => if offset ≤ i then removeAt response (i - offset) else some response
  | none => some response

def removeDuplicates (duplicateEventIndices : List (ℕ × ℕ)) (response : AnnotationsPromResponse F) :
    Option (AnnotationsPromResponse F) :=
  (List.range response.legends.length).foldlM (removeDuplicate duplicateEventIndices) response

def patchResponse (verdictResponse : AnnotationsPromResponse F) (spare : ℕ) (response : AnnotationsPromResponse F) :
    Option (AnnotationsPromResponse F) :=
  if isChaosEvent response.queryID then do
    let patching ← verdictResponse.legends.zipIdx.foldlM (patchVerdict cmp verdictResponse response.legends)
      ⟨response, none, spare, []⟩
    removeDuplicates patching.duplicateEventIndices patching.response
  else some response

/-- The responses are distinct objects; `spare` is the capacity beyond the length of each one's `SubDataArray`. -/
def Ops.patchChaosEventWithVerdict (spare : ℕ → ℕ) (annotations : List (AnnotationsPromResponse F))
    (verdictResponse : AnnotationsPromResponse F) : Option (List (AnnotationsPromResponse F)) :=
  annotations.zipIdx.mapM fun annotation => patchResponse cmp verdictResponse (spare annotation.2) annotation.1

end Patch

end LitmusPortal.Prometheus
