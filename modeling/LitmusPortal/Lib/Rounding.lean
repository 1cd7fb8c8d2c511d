import Mathlib.Algebra.Order.Floor.Ring
import Mathlib.Data.Int.Log
import Mathlib.Data.Rat.Floor
import Mathlib.Tactic.Linarith
import Mathlib.Tactic.FieldSimp

/-!
# Rounding a quotient

A positive quotient is rounded to 53 bits, halves to the even neighbour. The exponent is not bounded here.
-/

namespace Rounding

def roundEven (q : ℚ) : ℤ :=
  let down := ⌊q⌋
  let rest := q - down
  if 1 / 2 < rest ∨ rest = 1 / 2 ∧ down % 2 = 1 then down + 1 else down

/-- The weight of the last bit. -/
def unit (q : ℚ) : ℚ := 2 ^ (Int.log 2 q - 52)

def round53 (q : ℚ) : ℚ := roundEven (q / unit q) * unit q

theorem abs_roundEven_sub_le (q : ℚ) : |(roundEven q : ℚ) - q| ≤ 1 / 2 := by
  have hfloor := Int.floor_le q
  have hlt := Int.lt_floor_add_one q
  rw [roundEven, abs_le]
  split
  · rename_i hup
    have hhalf : 1 / 2 ≤ q - ⌊q⌋ := hup.elim le_of_lt fun htie => htie.1.ge
    push_cast
    constructor <;> linarith
  · rename_i hdown
    have hhalf : q - ⌊q⌋ ≤ 1 / 2 := not_lt.mp fun hgt => hdown (.inl hgt)
    constructor <;> linarith

theorem unit_pos (q : ℚ) : 0 < unit q := zpow_pos (by norm_num) _

theorem unit_le {q : ℚ} (h : 0 < q) : unit q ≤ q / 2 ^ 52 := by
  have hlog : (2 : ℚ) ^ Int.log 2 q ≤ q := by exact_mod_cast Int.zpow_log_le_self (by norm_num) h
  have hsplit : unit q = 2 ^ Int.log 2 q / 2 ^ 52 := by
    rw [unit, zpow_sub₀ (by norm_num)]
    norm_cast
  rw [hsplit]
  exact div_le_div_of_nonneg_right hlog (by norm_num)

theorem abs_round53_sub_le {q : ℚ} (h : 0 < q) : |round53 q - q| ≤ q / 2 ^ 53 := by
  have hunit := unit_pos q
  calc
    |round53 q - q| = |(roundEven (q / unit q) : ℚ) - q / unit q| * unit q := by
      rw [round53, ← abs_of_pos hunit, ← abs_mul, abs_of_pos hunit, sub_mul, div_mul_cancel₀ _ hunit.ne']
    _ ≤ 1 / 2 * (q / 2 ^ 52) :=
      mul_le_mul (abs_roundEven_sub_le _) (unit_le h) hunit.le (by norm_num)
    _ = q / 2 ^ 53 := by ring

theorem roundEven_intCast (n : ℤ) : roundEven n = n := by
  rw [roundEven, Int.floor_intCast, sub_self]
  exact if_neg (by norm_num)

/-- What fits in 53 bits stays as it is. -/
theorem round53_natCast {n : ℕ} (hpos : 0 < n) (hlt : n < 2 ^ 53) : round53 n = n := by
  have hlog : Nat.log 2 n ≤ 52 := Nat.le_of_lt_succ (Nat.log_lt_of_lt_pow hpos.ne' hlt)
  have hunit : unit n = (2 ^ (52 - Nat.log 2 n))⁻¹ := by
    have hexponent : Int.log 2 (n : ℚ) - 52 = -((52 - Nat.log 2 n : ℕ) : ℤ) := by
      rw [Int.log_natCast]
      omega
    rw [unit, hexponent, zpow_neg, zpow_natCast]
  have hmantissa : (n : ℚ) / unit n = ((n * 2 ^ (52 - Nat.log 2 n) : ℕ) : ℤ) := by
    rw [hunit, div_inv_eq_mul]
    push_cast
    rfl
  rw [round53, hmantissa, roundEven_intCast, ← hmantissa, div_mul_cancel₀ _ (unit_pos _).ne']

end Rounding
