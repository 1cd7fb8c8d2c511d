import LitmusPortal.Agent.Operations
import LitmusPortal.Agent.Panics

/-!
# The label with the name of the executor

The user name goes to the cluster as a label value, in the raw encoding for URLs, and comes back with the
events of the run. What Kubernetes takes as the value of a label is short, and begins and ends with a
letter or a digit.
-/

namespace LitmusPortal.Agent

open GoText GoJson Base64

def isAlphanumeric : Rune → Bool
  | .char c => c.isAlphanum
  | .invalid _ => false

def isLabelRune (r : Rune) : Bool := isAlphanumeric r || r ∈ ofString "-_."

structure IsLabelValue (value : Text) : Prop where
  length_le : value.length ≤ 63
  runes : ∀ r ∈ value, isLabelRune r
  first : ∀ r ∈ value.head?, isAlphanumeric r
  last : ∀ r ∈ value.getLast?, isAlphanumeric r

/-- The name under which `CreateUser` stores a user. -/
def createdName (userName : List Char) : Option Text :=
  let name := trimSpace (ofChars userName)
  if name = [] then none else some name

/-- At most 47 bytes; and if they come in threes, the last is none that `-` or `_` stands for. -/
structure FitsLabel (name : Text) : Prop where
  length_le : (bytes name).length ≤ 47
  last : 3 ∣ (bytes name).length → ∀ byte ∈ (bytes name).getLast?, byte.toNat % 64 < 62

/-! ### The value -/

theorem isLabelRune_urlDigit {digit : Nat} (h : digit < 64) : isLabelRune (.char (urlDigit digit)) = true := by
  have hall : ∀ digit < 64, isLabelRune (.char (urlDigit digit)) = true := by decide +kernel
  exact hall digit h

theorem isAlphanumeric_urlDigit {digit : Nat} (h : digit < 64) :
    isAlphanumeric (.char (urlDigit digit)) = true ↔ digit < 62 := by
  have hall : ∀ digit < 64, isAlphanumeric (.char (urlDigit digit)) = true ↔ digit < 62 := by decide +kernel
  exact hall digit h

theorem head_utf8EncodeChar (c : Char) :
    ∃ byte rest, String.utf8EncodeChar c = byte :: rest ∧ byte.toNat / 4 < 62 := by
  unfold String.utf8EncodeChar
  dsimp only
  split_ifs with hone htwo hthree
  · refine ⟨_, _, rfl, ?_⟩
    rw [UInt8.toNat_ofNat']
    omega
  · refine ⟨_, _, rfl, ?_⟩
    rw [UInt8.toNat_ofNat']
    omega
  · refine ⟨_, _, rfl, ?_⟩
    rw [UInt8.toNat_ofNat']
    omega
  · refine ⟨_, _, rfl, ?_⟩
    rw [UInt8.toNat_ofNat']
    omega

theorem length_executorLabel (name : Text) :
    (executorLabel name).length = (4 * (bytes name).length + 2) / 3 := by
  rw [executorLabel, ofChars, List.length_map, encodeRawURL, List.length_map, length_encodeDigits]

theorem head?_executorLabel {byte : UInt8} {rest : List UInt8} {name : Text} (h : bytes name = byte :: rest) :
    (executorLabel name).head? = some (.char (urlDigit (byte.toNat / 4))) := by
  rw [executorLabel, ofChars, encodeRawURL, h, List.head?_map, List.head?_map, head?_encodeDigits]
  rfl

theorem getLast?_executorLabel (name : Text) :
    (executorLabel name).getLast? =
      (bytes name).getLast?.map fun byte => .char (urlDigit (lastDigit (bytes name).length byte)) := by
  rw [executorLabel, ofChars, encodeRawURL, List.getLast?_map, List.getLast?_map, getLast?_encodeDigits,
    Option.map_map, Option.map_map]
  rfl

theorem lastDigit_lt (count : ℕ) (byte : UInt8) : lastDigit count byte < 64 := by
  rw [lastDigit]
  split_ifs <;> omega

theorem lastDigit_lt_iff (count : ℕ) (byte : UInt8) :
    lastDigit count byte < 62 ↔ (3 ∣ count → byte.toNat % 64 < 62) := by
  rw [lastDigit, Nat.dvd_iff_mod_eq_zero]
  split_ifs with hthrees hone
  · simp [hthrees]
  · refine iff_of_true (by omega) fun h => absurd h hthrees
  · refine iff_of_true (by omega) fun h => absurd h hthrees

theorem isLabelValue_executorLabel_iff {cs : List Char} (hne : cs ≠ []) :
    IsLabelValue (executorLabel (ofChars cs)) ↔ FitsLabel (ofChars cs) := by
  constructor
  · rintro ⟨hlength, -, -, hlast⟩
    rw [length_executorLabel] at hlength
    refine ⟨by omega, fun hthrees byte hbyte => ?_⟩
    have halphanumeric := hlast (.char (urlDigit (lastDigit (bytes (ofChars cs)).length byte)))
      (by rw [getLast?_executorLabel, hbyte]; rfl)
    rw [isAlphanumeric_urlDigit (lastDigit_lt _ _), lastDigit_lt_iff] at halphanumeric
    exact halphanumeric hthrees
  · rintro ⟨hlength, hlast⟩
    refine ⟨?_, fun r hr => ?_, fun r hr => ?_, fun r hr => ?_⟩
    · rw [length_executorLabel]
      omega
    · obtain ⟨c, hc, rfl⟩ := List.mem_map.mp hr
      obtain ⟨digit, hdigit, rfl⟩ := List.mem_map.mp hc
      exact isLabelRune_urlDigit (encodeDigits_lt _ digit hdigit)
    · obtain ⟨c, cs, rfl⟩ := List.exists_cons_of_ne_nil hne
      obtain ⟨byte, rest, hbyte, hsmall⟩ := head_utf8EncodeChar c
      have hbytes : bytes (ofChars (c :: cs)) = byte :: (rest ++ bytes (ofChars cs)) := by
        rw [← List.cons_append, ← hbyte]
        rfl
      rw [head?_executorLabel hbytes] at hr
      obtain rfl := Option.some.inj hr
      exact (isAlphanumeric_urlDigit (by omega)).mpr hsmall
    · rw [getLast?_executorLabel] at hr
      obtain ⟨byte, hbyte, rfl⟩ := Option.map_eq_some_iff.mp hr
      rw [isAlphanumeric_urlDigit (lastDigit_lt _ _), lastDigit_lt_iff]
      exact fun hthrees => hlast hthrees byte hbyte

/-! ### The way there and back -/

theorem toChars?_ofChars (cs : List Char) : toChars? (ofChars cs) = some cs := by
  rw [toChars?, ofChars]
  induction cs with
  | nil => rfl
  | cons c cs ih =>
      rw [List.map_cons, List.mapM_cons, ih]
      rfl

theorem urlDecodeBase64_executorLabel (cs : List Char) :
    urlDecodeBase64 (executorLabel (ofChars cs)) = ofChars cs := by
  rw [urlDecodeBase64, executorLabel, toChars?_ofChars, Option.bind_some, decodeRawURL_encodeRawURL]
  exact ofBytes_bytes_ofChars cs

section Labels

variable {O R : Type} (access : ObjectAccess O) (view : ChaosResultView R) (cluster : Cluster R)

theorem getLabels_labelled (obj : O) (username : Text) :
    access.getLabels (labelled access obj username) =
      (access.getLabels obj).insert executedBy (executorLabel username) := access.getLabels_setLabels _ _

/-- The label is one, the other labels stay, and the events of the run bring the name back. -/
structure ExecutorKept (obj : O) (name : Text) : Prop where
  isLabelValue : ∃ value, (access.getLabels (labelled access obj name)).lookup executedBy = some value ∧
    IsLabelValue value
  others : ∀ label ≠ executedBy,
    (access.getLabels (labelled access obj name)).lookup label = (access.getLabels obj).lookup label
  comesBack : ∀ workflowObj eventType startTime event, ¬ Ignored workflowObj startTime →
    (access.getLabels (labelled access obj name)).lookup executedBy =
      some (labelOf workflowObj.labels "executed_by") →
    workflowEventHandler view cluster workflowObj eventType startTime = .ok (event, none) →
    event.cleaned.executedBy = name

theorem trimSpace_subset (text : Text) : trimSpace text ⊆ text := by
  intro r hr
  rw [trimSpace, List.mem_reverse] at hr
  have hfront := (List.dropWhile_suffix isSpace).subset hr
  rw [List.mem_reverse] at hfront
  exact (List.dropWhile_suffix isSpace).subset hfront

theorem exists_ofChars {text : Text} (h : ∀ r ∈ text, ∃ c, r = .char c) : ∃ cs, text = ofChars cs := by
  induction text with
  | nil => exact ⟨[], rfl⟩
  | cons r text ih =>
      obtain ⟨hr, hrest⟩ := List.forall_mem_cons.mp h
      obtain ⟨c, rfl⟩ := hr
      obtain ⟨cs, rfl⟩ := ih hrest
      exact ⟨c :: cs, rfl⟩

theorem createdName_eq_some {userName : List Char} {name : Text} (h : createdName userName = some name) :
    ∃ cs, cs ≠ [] ∧ name = ofChars cs := by
  rw [createdName] at h
  split_ifs at h with hempty
  obtain rfl := Option.some.inj h
  have hchars : ∀ r ∈ trimSpace (ofChars userName), ∃ c, r = .char c := by
    intro r hr
    obtain ⟨c, -, rfl⟩ := List.mem_map.mp (trimSpace_subset _ hr)
    exact ⟨c, rfl⟩
  obtain ⟨cs, hcs⟩ := exists_ofChars hchars
  refine ⟨cs, ?_, hcs⟩
  rintro rfl
  exact hempty hcs

theorem executorKept_iff {userName : List Char} {name : Text} (hname : createdName userName = some name) (obj : O) :
    ExecutorKept access view cluster obj name ↔ FitsLabel name := by
  obtain ⟨cs, hne, rfl⟩ := createdName_eq_some hname
  have hlabel : (access.getLabels (labelled access obj (ofChars cs))).lookup executedBy =
      some (executorLabel (ofChars cs)) := by
    rw [getLabels_labelled]
    exact AList.lookup_insert _
  rw [← isLabelValue_executorLabel_iff hne]
  constructor
  · rintro ⟨⟨value, hvalue, h⟩, -, -⟩
    obtain rfl := Option.some.inj (hlabel.symm.trans hvalue)
    exact h
  · intro h
    refine ⟨⟨_, hlabel, h⟩, fun label hother => ?_, ?_⟩
    · rw [getLabels_labelled]
      exact AList.lookup_insert_ne hother
    · intro workflowObj eventType startTime event hignored hcarries hevent
      have hlabelOf := Option.some.inj (hlabel.symm.trans hcarries)
      have hexecutedBy := (workflowEventHandler_spec view cluster hignored hevent).2.2.2
      calc
        event.cleaned.executedBy = urlDecodeBase64 event.executedBy := rfl
        _ = urlDecodeBase64 (executorLabel (ofChars cs)) := by rw [hexecutedBy, hlabelOf]
        _ = ofChars cs := urlDecodeBase64_executorLabel cs

end Labels

theorem executorKept_admin :
    ExecutorKept labelsOnly ⟨id, fun _ => [], fun _ => []⟩ emptyCluster.toCluster ∅ (ofString "admin") ↔
      FitsLabel (ofString "admin") :=
  @executorKept_iff _ _ labelsOnly _ _ " admin".toList _ rfl ∅

def ExecutorsKept : Prop :=
  ∀ (O R : Type) (access : ObjectAccess O) (view : ChaosResultView R) (cluster : Cluster R) (obj : O)
    (userName : List Char) (name : Text), createdName userName = some name →
    ExecutorKept access view cluster obj name

/-- The value of the label for `ab?` is `YWI_`. -/
theorem not_executorsKept : ¬ ExecutorsKept := by
  intro h
  obtain ⟨⟨value, hvalue, hvalid⟩, -, -⟩ := h (GoMap Text) Unit labelsOnly ⟨id, fun _ => [], fun _ => []⟩
    emptyCluster.toCluster ∅ "ab?".toList (ofString "ab?") rfl
  obtain rfl : ofString "YWI_" = value := Option.some.inj hvalue
  exact absurd (hvalid.last (.char '_') rfl) (by decide)

end LitmusPortal.Agent
