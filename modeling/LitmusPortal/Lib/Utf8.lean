import Mathlib.Data.List.Basic

/-!
# The bytes of a string

A character of ASCII is one byte, and a byte of its kind is no part of another character.
-/

namespace Utf8

def bytes (cs : List Char) : List UInt8 := cs.flatMap String.utf8EncodeChar

@[simp]
theorem bytes_nil : bytes [] = [] := rfl

@[simp]
theorem bytes_cons (c : Char) (cs : List Char) : bytes (c :: cs) = String.utf8EncodeChar c ++ bytes cs := rfl

@[simp]
theorem bytes_append (cs ds : List Char) : bytes (cs ++ ds) = bytes cs ++ bytes ds := List.flatMap_append

theorem toByteArray_ofList (cs : List Char) : (String.ofList cs).toByteArray.data.toList = bytes cs := by
  have hbytes : (String.ofList cs).toByteArray = cs.utf8Encode := rfl
  rw [hbytes, List.utf8Encode]
  exact List.data_toByteArray ▸ rfl

theorem bytes_injective : Function.Injective bytes := by
  intro cs ds h
  rw [← toByteArray_ofList, ← toByteArray_ofList] at h
  have hstrings : String.ofList cs = String.ofList ds :=
    String.toByteArray_inj.mp (ByteArray.ext (Array.toList_inj.mp h))
  exact String.ofList_injective hstrings

theorem le_or_right (x y : UInt8) : y ≤ x ||| y := by
  rw [UInt8.le_iff_toNat_le, UInt8.toNat_or]
  exact Nat.right_le_or

theorem utf8EncodeChar_of_ascii {c : Char} (hc : c.val < 128) : String.utf8EncodeChar c = [c.val.toUInt8] := by
  have hle : c.val ≤ 0x7f := by
    rw [UInt32.le_iff_toNat_le]
    rw [UInt32.lt_iff_toNat_lt] at hc
    exact Nat.le_of_lt_succ hc
  rw [String.utf8EncodeChar_eq_utf8EncodeCharFast, String.utf8EncodeCharFast]
  simp only [hle, if_true]

theorem toNat_toUInt8_of_ascii {c : Char} (hc : c.val < 128) : c.val.toUInt8.toNat = c.val.toNat := by
  rw [UInt32.lt_iff_toNat_lt] at hc
  rw [UInt32.toNat_toUInt8]
  exact Nat.mod_eq_of_lt (Nat.lt_trans hc (by decide))

/-- The bytes of a longer encoding are not those of ASCII. -/
theorem le_of_mem_utf8EncodeChar {c : Char} (hc : ¬ c.val < 128) :
    ∀ byte ∈ String.utf8EncodeChar c, 0x80 ≤ byte := by
  have hnot : ¬ c.val ≤ 0x7f := by
    rw [UInt32.le_iff_toNat_le]
    rw [UInt32.lt_iff_toNat_lt] at hc
    intro hle
    exact hc (Nat.lt_succ_of_le hle)
  have hor : ∀ x y : UInt8, 0x80 ≤ y → 0x80 ≤ x ||| y := fun x y hy => UInt8.le_trans hy (le_or_right x y)
  rw [String.utf8EncodeChar_eq_utf8EncodeCharFast, String.utf8EncodeCharFast]
  simp only [hnot, if_false]
  split
  · simp only [List.forall_mem_cons]
    exact ⟨hor _ _ (by decide), hor _ _ (by decide), by simp⟩
  · split
    · simp only [List.forall_mem_cons]
      exact ⟨hor _ _ (by decide), hor _ _ (by decide), hor _ _ (by decide), by simp⟩
    · simp only [List.forall_mem_cons]
      exact ⟨hor _ _ (by decide), hor _ _ (by decide), hor _ _ (by decide), hor _ _ (by decide), by simp⟩

theorem eq_of_mem_utf8EncodeChar {a c : Char} (ha : a.val < 128)
    (h : a.val.toUInt8 ∈ String.utf8EncodeChar c) : c = a := by
  by_cases hc : c.val < 128
  · rw [utf8EncodeChar_of_ascii hc, List.mem_singleton] at h
    have hval : c.val.toNat = a.val.toNat := by
      rw [← toNat_toUInt8_of_ascii hc, ← toNat_toUInt8_of_ascii ha, h]
    exact Char.ext (UInt32.toNat_inj.mp hval)
  · have hle := le_of_mem_utf8EncodeChar hc _ h
    rw [UInt8.le_iff_toNat_le, toNat_toUInt8_of_ascii ha] at hle
    rw [UInt32.lt_iff_toNat_lt] at ha
    exact absurd hle (Nat.not_le_of_lt ha)

theorem mem_bytes_iff {a : Char} (ha : a.val < 128) {cs : List Char} : a.val.toUInt8 ∈ bytes cs ↔ a ∈ cs := by
  constructor
  · intro h
    obtain ⟨c, hc, hbyte⟩ := List.mem_flatMap.mp h
    exact eq_of_mem_utf8EncodeChar ha hbyte ▸ hc
  · intro h
    exact List.mem_flatMap.mpr ⟨a, h, by simp [utf8EncodeChar_of_ascii ha]⟩

/-- A text that begins with a byte of ASCII begins with its character. -/
theorem head_of_bytes_eq {a : Char} (ha : a.val < 128) {cs : List Char} {rest : List UInt8}
    (h : bytes cs = a.val.toUInt8 :: rest) : ∃ ds, cs = a :: ds ∧ bytes ds = rest := by
  cases cs with
  | nil => cases h
  | cons c ds =>
      rw [bytes_cons] at h
      have hmem : a.val.toUInt8 ∈ String.utf8EncodeChar c := by
        cases hencode : String.utf8EncodeChar c with
        | nil => exact absurd hencode String.utf8EncodeChar_ne_nil
        | cons byte tail =>
            rw [hencode, List.cons_append] at h
            rw [(List.cons.inj h).1]
            exact List.mem_cons_self
      obtain rfl := eq_of_mem_utf8EncodeChar ha hmem
      rw [utf8EncodeChar_of_ascii ha] at h
      exact ⟨ds, rfl, (List.cons.inj h).2⟩

end Utf8
