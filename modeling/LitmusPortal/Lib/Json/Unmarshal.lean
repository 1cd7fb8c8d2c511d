import LitmusPortal.Lib.Json.Text
import Mathlib.Data.List.AList

/-!
# Structs, slices and maps of Go

How `encoding/json` writes and fills them. A key names the field whose tag it is, or else the first
field whose tag differs from it in case only; other keys are passed over, and `null` leaves a string
as it is. A map is written in the order of its keys.
-/

namespace GoJson

open GoText

inductive DecodeError where
  | malformed
  | type
  deriving DecidableEq, Repr

/-! ## Encoding -/

def field (key : String) (value : Json) : Text × Json := (ofString key, value)

def null : Json := .lit .null

def encodeSlice {α : Type*} (encode : α → Json) : Option (List α) → Json
  | none => null
  | some items => .arr (items.map encode)

def encodePointer {α : Type*} (encode : α → Json) : Option α → Json
  | none => null
  | some value => encode value

/-- A map of strings; a nil map is `none`. -/
abbrev GoMap (α : Type*) := AList fun _ : Text => α

def GoMap.sortedEntries {α : Type*} (map : GoMap α) : List (Text × α) :=
  (map.entries.map fun entry => (entry.1, entry.2)).mergeSort fun left right =>
    decide (bytes left.1 ≤ bytes right.1)

def encodeMap {α : Type*} (encode : α → Json) : Option (GoMap α) → Json
  | none => null
  | some map => .obj (map.sortedEntries.map fun entry => (entry.1, encode entry.2))

/-! ## Decoding -/

/-- The letters that `bytes.EqualFold` takes for the same. -/
def foldChar (c : Char) : Char :=
  if 'A' ≤ c ∧ c ≤ 'Z' then Char.ofNat (c.toNat + 32)
  else if c = '\u212a' then 'k'
  else if c = '\u017f' then 's'
  else c

def Rune.fold : Rune → Rune
  | .char c => .char (foldChar c)
  | .invalid byte => .invalid byte

def equalFold (left right : Text) : Bool := left.map Rune.fold = right.map Rune.fold

/-- A field of a struct, by its tag, and how a value is stored in it. -/
structure StructField (S : Type*) where
  tag : String
  store : Json → S → Except DecodeError S

variable {S α : Type*}

def findField (fields : List (StructField S)) (key : Text) : Option (StructField S) :=
  match fields.find? fun field => ofString field.tag = key with
  | some field => some field
  | none => fields.find? fun field => equalFold (ofString field.tag) key

def storeMember (fields : List (StructField S)) (value : S) (member : Text × Json) : Except DecodeError S :=
  match findField fields member.1 with
  | some field => field.store member.2 value
  | none => .ok value

def decodeStruct (fields : List (StructField S)) (json : Json) (value : S) : Except DecodeError S :=
  match json with
  | .obj members => members.foldlM (storeMember fields) value
  | .lit .null => .ok value
  | _ => .error .type

def decodeString (json : Json) (value : Text) : Except DecodeError Text :=
  match json with
  | .str text => .ok text
  | .lit .null => .ok value
  | _ => .error .type

def stringField {S : Type} (tag : String) (get : S → Text) (set : S → Text → S) : StructField S where
  tag := tag
  store json value := do
    let text ← decodeString json (get value)
    return set value text

def decodeSlice (decode : Json → Except DecodeError α) : Json → Except DecodeError (Option (List α))
  | .arr items => do
      let items ← items.mapM decode
      return some items
  | .lit .null => .ok none
  | _ => .error .type

def decodePointer (decode : Json → α → Except DecodeError α) (zero : α) (json : Json)
    (value : Option α) : Except DecodeError (Option α) :=
  match json with
  | .lit .null => .ok none
  | json => do
      let value ← decode json (value.getD zero)
      return some value

def storeEntry (decode : Json → Except DecodeError α) (map : GoMap α) (member : Text × Json) :
    Except DecodeError (GoMap α) := do
  let value ← decode member.2
  return map.insert member.1 value

def decodeMap (decode : Json → Except DecodeError α) (json : Json) (map : Option (GoMap α)) :
    Except DecodeError (Option (GoMap α)) :=
  match json with
  | .obj members => do
      let map ← members.foldlM (storeEntry decode) (map.getD ∅)
      return some map
  | .lit .null => .ok none
  | _ => .error .type

def unmarshal (decode : Json → α → Except DecodeError α) (zero : α) (text : Text) :
    Except DecodeError α :=
  match parse text with
  | none => .error .malformed
  | some json => decode json zero

/-! ## What was written -/

theorem ofString_inj {left right : String} : ofString left = ofString right ↔ left = right := by
  have hinj : Function.Injective Rune.char := fun _ _ h => Rune.char.inj h
  rw [ofString, ofString, ofChars, ofChars, (List.map_injective_iff.mpr hinj).eq_iff, String.toList_inj]

theorem storeMember_tag {fields : List (StructField S)} {key : String} {found : StructField S}
    (h : (fields.find? fun field => field.tag = key) = some found) (json : Json) (value : S) :
    storeMember fields value (field key json) = found.store json value := by
  have hfind : (fields.find? fun field => ofString field.tag = ofString key) = some found := by
    simpa only [ofString_inj] using h
  have hfound : findField fields (ofString key) = some found := by rw [findField, hfind]
  simp only [storeMember, field, hfound]

/-- A key that differs from every tag in more than case is passed over. -/
theorem storeMember_unknown {fields : List (StructField S)} {key : String}
    (h : ∀ tag ∈ fields.map (·.tag), equalFold (ofString tag) (ofString key) = false) (json : Json)
    (value : S) : storeMember fields value (field key json) = .ok value := by
  have hfold : (fields.find? fun field => equalFold (ofString field.tag) (ofString key)) = none := by
    rw [List.find?_eq_none]
    intro field hfield
    simp [h field.tag (List.mem_map_of_mem hfield)]
  have hexact : (fields.find? fun field => ofString field.tag = ofString key) = none := by
    rw [List.find?_eq_none]
    intro field hfield heq
    have hnot := h field.tag (List.mem_map_of_mem hfield)
    simp [equalFold, of_decide_eq_true heq] at hnot
  have hnone : findField fields (ofString key) = none := by rw [findField, hexact, hfold]
  simp only [storeMember, field, hnone]

/-- The struct that the members of an object leave, one after the other. -/
def Stores (fields : List (StructField S)) (members : List (Text × Json)) (value read : S) : Prop :=
  members.foldlM (storeMember fields) value = .ok read

theorem Stores.nil (fields : List (StructField S)) (value : S) : Stores fields [] value value := rfl

theorem Stores.tag {fields : List (StructField S)} {key : String} {found : StructField S} {json : Json}
    {rest : List (Text × Json)} {value next read : S}
    (hfound : (fields.find? fun field => field.tag = key) = some found)
    (hstore : found.store json value = .ok next) (hrest : Stores fields rest next read) :
    Stores fields (field key json :: rest) value read := by
  rw [Stores, List.foldlM_cons, storeMember_tag hfound, hstore]
  exact hrest

theorem Stores.string {S : Type} {fields : List (StructField S)} {key : String} {get : S → Text}
    {set : S → Text → S} {text : Text} {rest : List (Text × Json)} {value read : S}
    (hfound : (fields.find? fun field => field.tag = key) = some (stringField key get set))
    (hrest : Stores fields rest (set value text) read) :
    Stores fields (field key (.str text) :: rest) value read :=
  Stores.tag hfound rfl hrest

theorem Stores.unknown {fields : List (StructField S)} {key : String} {json : Json}
    {rest : List (Text × Json)} {value read : S}
    (h : ∀ tag ∈ fields.map (·.tag), equalFold (ofString tag) (ofString key) = false)
    (hrest : Stores fields rest value read) : Stores fields (field key json :: rest) value read := by
  rw [Stores, List.foldlM_cons, storeMember_unknown h]
  exact hrest

theorem sanitize_obj (members : List (Text × Json)) :
    (Json.obj members).sanitize = .obj (members.map fun member => (GoText.sanitize member.1,
      member.2.sanitize)) := by
  simp [Json.sanitize, Json.mapText, mapMembers_eq_map, GoText.sanitize]

theorem sanitize_arr (items : List Json) : (Json.arr items).sanitize = .arr (items.map Json.sanitize) := by
  simp [Json.sanitize, Json.mapText, mapItems_eq_map]

@[simp]
theorem sanitize_str (text : Text) : (Json.str text).sanitize = .str (GoText.sanitize text) := rfl

@[simp]
theorem sanitize_null : null.sanitize = null := rfl

theorem sanitize_field (key : String) (value : Json) :
    (GoText.sanitize (field key value).1, (field key value).2.sanitize) = field key value.sanitize := by
  simp [field]

/-- The value that the last of the entries leaves under a key. -/
def latest (entries : List (Text × α)) (key : Text) : Option α :=
  (entries.reverse.find? fun entry => GoText.sanitize entry.1 = key).map (·.2)

theorem latest_append (entries : List (Text × α)) (entry : Text × α) (key : Text) :
    latest (entries ++ [entry]) key =
      if GoText.sanitize entry.1 = key then some entry.2 else latest entries key := by
  by_cases h : GoText.sanitize entry.1 = key <;> simp [latest, h]

theorem sortedEntries_perm (map : GoMap α) :
    map.sortedEntries.Perm (map.entries.map fun entry => (entry.1, entry.2)) :=
  List.mergeSort_perm _ _

/-- Where the keys are valid, the entry that is left is the one of the map. -/
theorem latest_sortedEntries {map : GoMap α} (h : ∀ key ∈ map, GoText.sanitize key = key) (key : Text) :
    latest map.sortedEntries key = map.lookup key := by
  have hmem : ∀ entry : Text × α, entry ∈ map.sortedEntries ↔ map.lookup entry.1 = some entry.2 := by
    intro entry
    rw [(sortedEntries_perm map).mem_iff]
    simp [AList.mem_lookup_iff.symm, Option.mem_def, Prod.ext_iff, Sigma.exists]
  have hvalid : ∀ entry ∈ map.sortedEntries, GoText.sanitize entry.1 = entry.1 := fun entry hentry =>
    h entry.1 (AList.lookup_isSome.mp (by simp [(hmem entry).mp hentry]))
  unfold latest
  cases hfind : map.sortedEntries.reverse.find? fun entry => GoText.sanitize entry.1 = key with
  | none =>
      rw [List.find?_eq_none] at hfind
      cases hlookup : map.lookup key with
      | none => rfl
      | some value =>
          have hentry : (key, value) ∈ map.sortedEntries := (hmem (key, value)).mpr hlookup
          have hnot := hfind (key, value) (List.mem_reverse.mpr hentry)
          simp [hvalid _ hentry] at hnot
  | some entry =>
      have hentry : entry ∈ map.sortedEntries := List.mem_reverse.mp (List.mem_of_find?_eq_some hfind)
      have hkey : entry.1 = key := by
        have hsanitize : GoText.sanitize entry.1 = key := by simpa using List.find?_some hfind
        rw [← hsanitize, hvalid entry hentry]
      rw [Option.map_some, ← (hmem entry).mp hentry, hkey]

theorem lookup_storeEntries {β : Type*} {decode : Json → Except DecodeError β} {encode : α → Json}
    {kept : α → β → Prop} {entries : List (Text × α)}
    (h : ∀ entry ∈ entries, ∃ value, decode (encode entry.2).sanitize = .ok value ∧ kept entry.2 value) :
    ∃ map : GoMap β,
      (entries.map fun entry => (GoText.sanitize entry.1, (encode entry.2).sanitize)).foldlM
        (storeEntry decode) ∅ = .ok map ∧
      ∀ key, Option.Rel kept (latest entries key) (map.lookup key) := by
  induction entries using List.reverseRecOn with
  | nil => exact ⟨∅, rfl, fun key => .none⟩
  | append_singleton entries entry ih =>
      obtain ⟨map, hfold, hlookup⟩ := ih fun entry hentry => h entry (by simp [hentry])
      obtain ⟨value, hdecode, hkept⟩ := h entry (by simp)
      refine ⟨map.insert (GoText.sanitize entry.1) value, ?_, fun key => ?_⟩
      · rw [List.map_append, List.foldlM_append, hfold]
        simp [storeEntry, hdecode, bind, Except.bind, pure, Except.pure]
      · rw [latest_append]
        by_cases hkey : GoText.sanitize entry.1 = key
        · subst hkey
          rw [if_pos rfl, AList.lookup_insert]
          exact .some hkept
        · rw [if_neg hkey, AList.lookup_insert_ne (Ne.symm hkey)]
          exact hlookup key

theorem decodeMap_encodeMap {β : Type*} {decode : Json → Except DecodeError β} {encode : α → Json}
    {kept : α → β → Prop} {map : GoMap α}
    (h : ∀ key value, map.lookup key = some value →
      ∃ value', decode (encode value).sanitize = .ok value' ∧ kept value value') :
    ∃ map' : GoMap β, decodeMap decode (encodeMap encode (some map)).sanitize none = .ok (some map') ∧
      ∀ key, Option.Rel kept (latest map.sortedEntries key) (map'.lookup key) := by
  have hentries : ∀ entry ∈ map.sortedEntries,
      ∃ value, decode (encode entry.2).sanitize = .ok value ∧ kept entry.2 value := by
    intro entry hentry
    rw [(sortedEntries_perm map).mem_iff] at hentry
    obtain ⟨found, hfound, rfl⟩ := List.mem_map.mp hentry
    exact h found.1 found.2 (AList.mem_lookup_iff.mpr hfound)
  obtain ⟨map', hfold, hlookup⟩ := lookup_storeEntries hentries
  refine ⟨map', ?_, hlookup⟩
  simp [encodeMap, sanitize_obj, decodeMap, List.map_map, Function.comp_def, hfold, bind, Except.bind,
    pure, Except.pure]

theorem decodeSlice_encodeSlice (items : Option (List Text)) :
    decodeSlice (fun json => decodeString json []) (encodeSlice Json.str items).sanitize =
      .ok (items.map fun items => items.map GoText.sanitize) := by
  cases items with
  | none => rfl
  | some items =>
      have hitems : ∀ items : List Text, (items.map fun item => Json.str (GoText.sanitize item)).mapM
          (fun json => decodeString json []) = .ok (items.map GoText.sanitize) := by
        intro items
        induction items with
        | nil => rfl
        | cons item rest ih =>
            rw [List.map_cons, List.mapM_cons, ih]
            rfl
      simp [encodeSlice, sanitize_arr, decodeSlice, List.map_map, Function.comp_def, hitems, bind,
        Except.bind, pure, Except.pure]

end GoJson
