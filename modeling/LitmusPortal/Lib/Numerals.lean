import LitmusPortal.Lib.GoStrings

/-!
# Decimal numerals in the order of their texts

Of two numerals the leading digits are compared, as many as the shorter one has; where they are equal the shorter
one comes first.
-/

namespace Numerals

open GoStrings

def length (n : ℕ) : ℕ := (Nat.toDigits 10 n).length

/-- As many of the leading digits of a number as another one has. -/
def leading (m n : ℕ) : ℕ := m / 10 ^ (length m - length n)

def firstDigit (n : ℕ) : ℕ := n / 10 ^ (length n - 1)

/-- The text of one number is before that of the other. -/
def Before (m n : ℕ) : Prop := leading m n < leading n m ∨ leading m n = leading n m ∧ length m < length n

instance (m n : ℕ) : Decidable (Before m n) := inferInstanceAs (Decidable (_ ∨ _))

theorem length_pos (n : ℕ) : 0 < length n := List.length_pos_of_ne_nil Nat.toDigits_ne_nil

theorem length_le_one_iff {n : ℕ} : length n ≤ 1 ↔ n < 10 :=
  Nat.length_toDigits_le_iff (by decide) (by decide)

theorem length_le_iff {n k : ℕ} (hk : 0 < k) : length n ≤ k ↔ n < 10 ^ k :=
  Nat.length_toDigits_le_iff (by decide) hk

theorem pow_le_of_lt_length {n k : ℕ} (hk : 0 < k) (h : k < length n) : 10 ^ k ≤ n := by
  have hnot : ¬ n < 10 ^ k := by
    rw [← length_le_iff hk]
    omega
  omega

theorem length_le_of_le {m n : ℕ} (h : m ≤ n) : length m ≤ length n := by
  have hlt : n < 10 ^ length n := (length_le_iff (length_pos n)).mp (Nat.le_refl _)
  exact (length_le_iff (length_pos n)).mpr (Nat.lt_of_le_of_lt h hlt)

theorem isDigit_of_mem_toDigits {n : ℕ} {c : Char} (hc : c ∈ Nat.toDigits 10 n) : c.isDigit = true :=
  @Nat.isDigit_of_mem_toDigits 10 n c (by decide) (by decide) hc

/-- The text of a number is that of its leading digits, and behind it as many digits as have been cut off. -/
theorem toDigits_split {n j : ℕ} (hj : j < length n) :
    ∃ tail, Nat.toDigits 10 n = Nat.toDigits 10 (n / 10 ^ j) ++ tail ∧ tail.length = j ∧
      ((∀ c ∈ tail, c = '0') ↔ n % 10 ^ j = 0) := by
  induction j with
  | zero => exact ⟨[], by simp, rfl, by simp [Nat.mod_one]⟩
  | succ j ih =>
      obtain ⟨tail, hsplit, hlength, hzeros⟩ := ih (by omega)
      have hleft : ¬ n / 10 ^ j < 10 := by
        rw [← length_le_one_iff]
        have hsum := congrArg List.length hsplit
        rw [List.length_append] at hsum
        unfold length at hj ⊢
        omega
      have hquotient : n / 10 ^ j / 10 = n / 10 ^ (j + 1) := by rw [Nat.div_div_eq_div_mul, pow_succ]
      have hsplit' : Nat.toDigits 10 (n / 10 ^ j) =
          Nat.toDigits 10 (n / 10 ^ (j + 1)) ++ [(n / 10 ^ j % 10).digitChar] := by
        rw [Nat.toDigits_of_base_le (by decide) (Nat.not_lt.mp hleft), hquotient]
      refine ⟨(n / 10 ^ j % 10).digitChar :: tail, by rw [hsplit, hsplit']; simp, by simp [hlength], ?_⟩
      have hmod : n % 10 ^ (j + 1) = n % 10 ^ j + 10 ^ j * (n / 10 ^ j % 10) := by
        rw [pow_succ, Nat.mod_mul]
      have hpos : 10 ^ j ≠ 0 := Nat.ne_of_gt (Nat.pow_pos (by decide))
      rw [List.forall_mem_cons, hzeros, Nat.digitChar_eq_zero, hmod, Nat.add_eq_zero_iff, Nat.mul_eq_zero]
      simp only [hpos, false_or]
      exact And.comm

theorem length_div {n j : ℕ} (hj : j < length n) : length (n / 10 ^ j) = length n - j := by
  obtain ⟨tail, hsplit, hlength, -⟩ := toDigits_split hj
  have hsum := congrArg List.length hsplit
  rw [List.length_append] at hsum
  unfold length
  omega

theorem length_leading (m n : ℕ) : length (leading m n) = min (length m) (length n) := by
  have hm := length_pos m
  have hn := length_pos n
  rw [leading, length_div (by omega)]
  omega

theorem toDigits_lt_iff_before (m n : ℕ) : Nat.toDigits 10 m < Nat.toDigits 10 n ↔ Before m n := by
  have hm := length_pos m
  have hn := length_pos n
  obtain ⟨tail, hsplit, hlength, -⟩ := @toDigits_split m (length m - length n) (by omega)
  obtain ⟨tail', hsplit', hlength', -⟩ := @toDigits_split n (length n - length m) (by omega)
  have hsame : (Nat.toDigits 10 (leading m n)).length = (Nat.toDigits 10 (leading n m)).length := by
    change length (leading m n) = length (leading n m)
    rw [length_leading, length_leading, Nat.min_comm]
  have htails : tail < tail' ↔ length m < length n := by
    rcases Nat.lt_or_ge (length m) (length n) with hlt | hge
    · have hnil : tail = [] := List.length_eq_zero_iff.mp (by omega)
      obtain ⟨c, rest, htail⟩ := List.exists_cons_of_length_pos (l := tail') (by omega)
      simp [hnil, htail, hlt]
    · have hnil : tail' = [] := List.length_eq_zero_iff.mp (by omega)
      simp [hnil, Nat.not_lt.mpr hge]
  rw [hsplit, hsplit']
  change Nat.toDigits 10 (leading m n) ++ tail < Nat.toDigits 10 (leading n m) ++ tail' ↔ _
  rw [append_lt_append_iff hsame, toDigits_lt_iff hsame, toDigits_injective.eq_iff, htails, Before]

theorem digitChar_inj {m n : ℕ} (hm : m < 10) (hn : n < 10) : m.digitChar = n.digitChar ↔ m = n := by
  have h : ∀ i j : Fin 10, (i : ℕ).digitChar = (j : ℕ).digitChar ↔ (i : ℕ) = j := by decide
  exact h ⟨m, hm⟩ ⟨n, hn⟩

/-- The first digit of a numeral, and the others, which are zero when the number is a multiple of its unit. -/
theorem toDigits_firstDigit (n : ℕ) :
    ∃ tail, Nat.toDigits 10 n = (firstDigit n).digitChar :: tail ∧ tail.length = length n - 1 ∧ firstDigit n < 10 ∧
      ((∀ c ∈ tail, c = '0') ↔ n % 10 ^ (length n - 1) = 0) := by
  have hpos := length_pos n
  obtain ⟨tail, hsplit, hlength, hzeros⟩ := @toDigits_split n (length n - 1) (by omega)
  have hone : length (firstDigit n) = 1 := by
    rw [firstDigit, length_div (by omega)]
    omega
  have hlt : firstDigit n < 10 := length_le_one_iff.mp (by omega)
  refine ⟨tail, ?_, hlength, hlt, hzeros⟩
  rw [hsplit]
  change Nat.toDigits 10 (firstDigit n) ++ tail = _
  rw [Nat.toDigits_of_lt_base hlt]
  rfl

end Numerals
