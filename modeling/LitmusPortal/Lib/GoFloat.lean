import LitmusPortal.Lib.Numerals
import Mathlib.Data.List.DropRight

/-!
# Floating-point numbers as Go prints them

`fmt` prints a `float64` under `%v` as `strconv` does under `'g'` with the shortest digits that read back as the
number: plainly below 10⁶, with an exponent from there on. Here for integers, which are first rounded as the reading
of a JSON number does; the exponent of a `float64` is not bounded here.
-/

namespace GoFloat

open Numerals

/-- The number with a mantissa of 53 bits that is nearest, of two the one with the even mantissa. -/
def round64 (n : ℕ) : ℕ :=
  let unit := 2 ^ (n.log2 - 52)
  let mantissa := n / unit
  let rest := n % unit
  (if unit < 2 * rest ∨ unit = 2 * rest ∧ mantissa % 2 = 1 then mantissa + 1 else mantissa) * unit

/-- The multiple of `10 ^ k` next to a number that reads back as the number, the nearer one of two. -/
def candidate (n k : ℕ) : Option ℕ :=
  let down := n / 10 ^ k
  let okdown := round64 (down * 10 ^ k) = n
  let okup := round64 ((down + 1) * 10 ^ k) = n
  let nearer := 2 * (n % 10 ^ k) < 10 ^ k ∨ 2 * (n % 10 ^ k) = 10 ^ k ∧ down % 2 = 0
  if okdown ∧ (¬ okup ∨ nearer) then some down else if okup then some (down + 1) else none

/-- The shortest digits that read back as the number, and how many zeros follow them. -/
def shortestFrom (n : ℕ) : ℕ → ℕ × ℕ
  | 0 => (n, 0)
  | k + 1 => ((candidate n (k + 1)).map fun digits => (digits, k + 1)).getD (shortestFrom n k)

def shortest (n : ℕ) : ℕ × ℕ := shortestFrom (round64 n) (length (round64 n) - 1)

/-- `%e`: one digit in front of the point, no zeros at the end, and two digits of the exponent at least. -/
def formatE (digits exponent : ℕ) : List Char :=
  match Nat.toDigits 10 digits with
  | [] => []
  | first :: rest =>
      let fraction := rest.rdropWhile (· == '0')
      first :: (if fraction.isEmpty then [] else '.' :: fraction) ++
        'e' :: '+' :: (if exponent < 10 then ['0'] else []) ++ Nat.toDigits 10 exponent

/-- `%g` with the shortest digits. -/
def formatG (n : ℕ) : List Char :=
  let (digits, zeros) := shortest n
  let exponent := length digits + zeros - 1
  if exponent < 6 then Nat.toDigits 10 (digits * 10 ^ zeros) else formatE digits exponent

/-- `fmt.Sprintf("%v", float64(a))` -/
def sprint (a : ℤ) : String :=
  String.ofList ((if a < 0 then ['-'] else []) ++ formatG a.natAbs)

example : [0, 7, 999999, 1000000, -1500000, 9007199254740993, 99999999999999991611392].map sprint =
    ["0", "7", "999999", "1e+06", "-1.5e+06", "9.007199254740992e+15", "1e+23"] := by decide +kernel

/-! ### The shortest digits -/

theorem round64_of_lt {n : ℕ} (h : n < 2 ^ 53) : round64 n = n := by
  have hlog : n.log2 - 52 = 0 := by
    rcases Nat.eq_zero_or_pos n with rfl | hpos
    · rfl
    · have hlt := (Nat.log2_lt (Nat.ne_of_gt hpos)).mpr h
      omega
  simp [round64, hlog, Nat.mod_one]

theorem le_round64 {n : ℕ} (h : 10 ^ 6 ≤ n) : 10 ^ 6 ≤ round64 n := by
  rcases Nat.lt_or_ge n (2 ^ 53) with hlt | hge
  · rwa [round64_of_lt hlt]
  · have hn : n ≠ 0 := by omega
    have hlog : 53 ≤ n.log2 := (Nat.le_log2 hn).mpr hge
    have hmantissa : 2 ^ 52 ≤ n / 2 ^ (n.log2 - 52) := by
      rw [Nat.le_div_iff_mul_le (Nat.pow_pos (by decide)), ← pow_add]
      have hsum : 52 + (n.log2 - 52) = n.log2 := by omega
      rw [hsum]
      exact Nat.log2_self_le hn
    have hunit : 1 ≤ 2 ^ (n.log2 - 52) := Nat.pow_pos (by decide)
    have hrounded : n / 2 ^ (n.log2 - 52) ≤ round64 n := by
      unfold round64
      simp only
      split
      · calc n / 2 ^ (n.log2 - 52) ≤ n / 2 ^ (n.log2 - 52) + 1 := Nat.le_succ _
          _ ≤ _ := Nat.le_mul_of_pos_right _ hunit
      · exact Nat.le_mul_of_pos_right _ hunit
    omega

theorem candidate_spec {n k digits : ℕ} (h : candidate n k = some digits) :
    n / 10 ^ k ≤ digits ∧ digits ≤ n / 10 ^ k + 1 ∧ round64 (digits * 10 ^ k) = n := by
  unfold candidate at h
  simp only at h
  split at h
  · rename_i hdown
    obtain rfl := Option.some.inj h
    exact ⟨Nat.le_refl _, Nat.le_succ _, hdown.1⟩
  · split at h
    · rename_i hup
      obtain rfl := Option.some.inj h
      exact ⟨Nat.le_succ _, Nat.le_refl _, hup⟩
    · cases h

theorem shortestFrom_spec {n k digits zeros : ℕ} (h : shortestFrom n k = (digits, zeros)) :
    zeros ≤ k ∧ n / 10 ^ zeros ≤ digits ∧ digits ≤ n / 10 ^ zeros + 1 ∧
      (round64 n = n → round64 (digits * 10 ^ zeros) = n) := by
  induction k with
  | zero =>
      simp only [shortestFrom, Prod.mk.injEq] at h
      obtain ⟨rfl, rfl⟩ := h
      rw [pow_zero, Nat.div_one, Nat.mul_one]
      exact ⟨Nat.le_refl _, Nat.le_refl _, Nat.le_succ _, id⟩
  | succ k ih =>
      rw [shortestFrom] at h
      cases hcandidate : candidate n (k + 1) with
      | none =>
          rw [hcandidate] at h
          obtain ⟨hzeros, hspec⟩ := ih h
          exact ⟨Nat.le_succ_of_le hzeros, hspec⟩
      | some found =>
          simp only [hcandidate, Option.map_some, Option.getD_some, Prod.mk.injEq] at h
          obtain ⟨rfl, rfl⟩ := h
          obtain ⟨hlower, hupper, hrounds⟩ := candidate_spec hcandidate
          exact ⟨Nat.le_refl _, hlower, hupper, fun _ => hrounds⟩

theorem shortest_spec {n digits zeros : ℕ} (h : shortest n = (digits, zeros)) :
    zeros < length (round64 n) ∧ round64 n / 10 ^ zeros ≤ digits ∧ digits ≤ round64 n / 10 ^ zeros + 1 ∧
      (round64 (round64 n) = round64 n → round64 (digits * 10 ^ zeros) = round64 n) := by
  have hpos := length_pos (round64 n)
  obtain ⟨hzeros, hspec⟩ := shortestFrom_spec h
  exact ⟨by omega, hspec⟩

theorem formatG_of_lt {n : ℕ} (h : n < 10 ^ 6) : formatG n = Nat.toDigits 10 n := by
  have hround : round64 n = n := round64_of_lt (by omega)
  have hlength : length n ≤ 6 := (@length_le_iff n 6 (by decide)).mpr h
  obtain ⟨digits, zeros, hshortest⟩ : ∃ digits zeros, shortest n = (digits, zeros) := ⟨_, _, rfl⟩
  obtain ⟨hzeros, -, hupper, hrounds⟩ := shortest_spec hshortest
  replace hrounds := hrounds (by rw [hround, hround])
  rw [hround] at hzeros hupper hrounds
  have hunit : zeros = 0 ∨ 10 ^ zeros ≤ n := by
    rcases Nat.eq_zero_or_pos zeros with hzero | hsome
    · exact .inl hzero
    · exact .inr (pow_le_of_lt_length hsome hzeros)
  have hsmall : digits * 10 ^ zeros < 2 ^ 53 := by
    have hquotient : n / 10 ^ zeros * 10 ^ zeros ≤ n := Nat.div_mul_le_self _ _
    have hle : digits * 10 ^ zeros ≤ n + 10 ^ zeros := by
      calc digits * 10 ^ zeros ≤ (n / 10 ^ zeros + 1) * 10 ^ zeros := Nat.mul_le_mul_right _ hupper
        _ = n / 10 ^ zeros * 10 ^ zeros + 10 ^ zeros := by rw [Nat.add_mul, Nat.one_mul]
        _ ≤ n + 10 ^ zeros := by omega
    rcases hunit with rfl | hunit
    · omega
    · omega
  rw [round64_of_lt hsmall] at hrounds
  have hdigits : length digits = length n - zeros := by
    have hdiv : n / 10 ^ zeros = digits := by
      rw [← hrounds]
      exact Nat.mul_div_cancel _ (Nat.pow_pos (by decide))
    rw [← hdiv, length_div hzeros]
  have hexponent : length digits + zeros - 1 < 6 := by omega
  simp only [formatG, hshortest]
  rw [if_pos hexponent, hrounds]

theorem formatG_of_le {n : ℕ} (h : 10 ^ 6 ≤ n) :
    ∃ exponent, formatG n = formatE (shortest n).1 exponent := by
  obtain ⟨digits, zeros, hshortest⟩ : ∃ digits zeros, shortest n = (digits, zeros) := ⟨_, _, rfl⟩
  obtain ⟨hzeros, hlower, -, -⟩ := shortest_spec hshortest
  have hlength : ¬ length (round64 n) ≤ 6 := by
    rw [@length_le_iff (round64 n) 6 (by decide)]
    have hle := le_round64 h
    omega
  have hdigits : length (round64 n) - zeros ≤ length digits := by
    rw [← length_div hzeros]
    exact length_le_of_le hlower
  have hexponent : ¬ length digits + zeros - 1 < 6 := by omega
  refine ⟨length digits + zeros - 1, ?_⟩
  simp only [formatG, hshortest]
  rw [if_neg hexponent]

/-! ### The order of the texts -/

/-- The text with an exponent is before the numeral: by their first digits, or by the point behind it. -/
def BeforeE (digits n : ℕ) : Prop :=
  firstDigit digits < firstDigit n ∨
    firstDigit digits = firstDigit n ∧ 10 ≤ n ∧ digits % 10 ^ (length digits - 1) ≠ 0

theorem formatE_eq (digits exponent : ℕ) :
    ∃ rest, formatE digits exponent = (firstDigit digits).digitChar :: rest ∧ firstDigit digits < 10 ∧
      (digits % 10 ^ (length digits - 1) = 0 → ∃ text, rest = 'e' :: text) ∧
      (digits % 10 ^ (length digits - 1) ≠ 0 → ∃ text, rest = '.' :: text) := by
  obtain ⟨tail, htext, -, hlt, hzeros⟩ := toDigits_firstDigit digits
  have hempty : (tail.rdropWhile (· == '0')).isEmpty = true ↔ digits % 10 ^ (length digits - 1) = 0 := by
    rw [← hzeros, List.isEmpty_iff, List.rdropWhile_eq_nil_iff]
    simp
  simp only [formatE, htext]
  refine ⟨_, rfl, hlt, fun hzero => ?_, fun hsome => ?_⟩
  · rw [if_pos (hempty.mpr hzero)]
    exact ⟨_, rfl⟩
  · rw [if_neg fun h => hsome (hempty.mp h)]
    exact ⟨_, rfl⟩

theorem isDigit_bounds {c : Char} (hc : c.isDigit = true) : '.' < c ∧ c < 'e' := by
  have hbounds : '0' ≤ c ∧ c ≤ '9' := by simpa [Char.isDigit, Char.le_def] using hc
  have hlower : '.' < '0' := by decide
  have hupper : '9' < 'e' := by decide
  simp only [Char.le_def, Char.lt_def, UInt32.le_iff_toNat_le, UInt32.lt_iff_toNat_lt] at *
  omega

theorem formatE_tail_lt_iff {digits n : ℕ} {rest tail : List Char}
    (hsingle : digits % 10 ^ (length digits - 1) = 0 → ∃ text, rest = 'e' :: text)
    (hmore : digits % 10 ^ (length digits - 1) ≠ 0 → ∃ text, rest = '.' :: text)
    (htail : ∀ c ∈ tail, c.isDigit = true) (hlength : tail.length = length n - 1) :
    rest ≠ tail ∧ (rest < tail ↔ 10 ≤ n ∧ digits % 10 ^ (length digits - 1) ≠ 0) := by
  have hpos := length_pos n
  have hten : 10 ≤ n ↔ 1 < length n := by
    rw [← Nat.not_lt, ← length_le_one_iff, Nat.not_le]
  cases tail with
  | nil =>
      have hn : ¬ 10 ≤ n := by
        rw [hten, ← Nat.sub_pos_iff_lt, ← hlength]
        simp
      by_cases hzero : digits % 10 ^ (length digits - 1) = 0
      · obtain ⟨text, rfl⟩ := hsingle hzero
        simp [hn]
      · obtain ⟨text, rfl⟩ := hmore hzero
        simp [hn]
  | cons c tail =>
      obtain ⟨hpoint, he⟩ := isDigit_bounds (htail c List.mem_cons_self)
      have hn : 10 ≤ n := by
        rw [List.length_cons] at hlength
        omega
      by_cases hzero : digits % 10 ^ (length digits - 1) = 0
      · obtain ⟨text, rfl⟩ := hsingle hzero
        simp [List.cons_lt_cons_iff, hzero, Char.lt_asymm he, (Char.ne_of_lt he).symm]
      · obtain ⟨text, rfl⟩ := hmore hzero
        simp [List.cons_lt_cons_iff, hn, hzero, hpoint, Char.ne_of_lt hpoint]

theorem formatE_lt_iff (digits exponent n : ℕ) :
    formatE digits exponent ≠ Nat.toDigits 10 n ∧
      (formatE digits exponent < Nat.toDigits 10 n ↔ BeforeE digits n) := by
  obtain ⟨rest, htext, hlt, hsingle, hmore⟩ := formatE_eq digits exponent
  obtain ⟨tail, htext', hlength, hlt', -⟩ := toDigits_firstDigit n
  have hdigits : ∀ c ∈ tail, c.isDigit = true := fun c hc =>
    @isDigit_of_mem_toDigits n c (by rw [htext']; exact List.mem_cons_of_mem _ hc)
  obtain ⟨hne, htails⟩ := formatE_tail_lt_iff hsingle hmore hdigits hlength
  rw [htext, htext', List.cons_lt_cons_iff, GoStrings.digitChar_lt_iff hlt hlt', htails,
    digitChar_inj hlt hlt', BeforeE]
  exact ⟨fun h => hne (List.cons.inj h).2, Iff.rfl⟩

/-- The text of a magnitude is before a numeral. -/
def MagnitudeBefore (m n : ℕ) : Prop := if m < 10 ^ 6 then Before m n else BeforeE (shortest m).1 n

theorem formatG_lt_iff (m n : ℕ) : formatG m < Nat.toDigits 10 n ↔ MagnitudeBefore m n := by
  unfold MagnitudeBefore
  split
  · rename_i hm
    rw [formatG_of_lt hm, toDigits_lt_iff_before]
  · rename_i hm
    obtain ⟨exponent, htext⟩ := formatG_of_le (Nat.not_lt.mp hm)
    rw [htext, (formatE_lt_iff _ exponent n).2]

theorem formatG_eq_iff (m n : ℕ) : formatG m = Nat.toDigits 10 n ↔ m = n ∧ m < 10 ^ 6 := by
  by_cases hm : m < 10 ^ 6
  · rw [formatG_of_lt hm, GoStrings.toDigits_injective.eq_iff]
    simp only [hm, and_true]
  · obtain ⟨exponent, htext⟩ := formatG_of_le (Nat.not_lt.mp hm)
    rw [htext]
    simp only [(formatE_lt_iff _ exponent n).1, hm, and_false]

theorem minus_lt_digitChar {d : ℕ} (hd : d < 10) : '-' < d.digitChar := by
  have h : ∀ i : Fin 10, '-' < (i : ℕ).digitChar := by decide
  exact h ⟨d, hd⟩

theorem toDigits_head (n : ℕ) : ∃ c rest, Nat.toDigits 10 n = c :: rest ∧ '-' < c := by
  obtain ⟨tail, htext, -, hlt, -⟩ := toDigits_firstDigit n
  exact ⟨_, tail, htext, minus_lt_digitChar hlt⟩

theorem formatG_head (m : ℕ) : ∃ c rest, formatG m = c :: rest ∧ '-' < c := by
  by_cases hm : m < 10 ^ 6
  · rw [formatG_of_lt hm]
    exact toDigits_head m
  · obtain ⟨exponent, hG⟩ := formatG_of_le (Nat.not_lt.mp hm)
    obtain ⟨rest, htext, hlt, -⟩ := formatE_eq (shortest m).1 exponent
    exact ⟨_, rest, hG.trans htext, minus_lt_digitChar hlt⟩

theorem toList_toString (b : ℤ) :
    (toString b).toList = (if b < 0 then ['-'] else []) ++ Nat.toDigits 10 b.natAbs := by
  cases b with
  | ofNat n =>
      have hsign : ¬ Int.ofNat n < 0 := by simp
      rw [if_neg hsign]
      exact Nat.toList_repr
  | negSucc n =>
      have hsign : Int.negSucc n < 0 := Int.negSucc_lt_zero n
      rw [if_pos hsign]
      change ("-" ++ Nat.repr (n + 1)).toList = _
      simp [Nat.repr_eq_ofList_toDigits]

/-- A sign is before every digit; behind two signs the magnitudes are compared as they are. -/
def TextBefore (a b : ℤ) : Prop :=
  a < 0 ∧ 0 ≤ b ∨ (a < 0 ↔ b < 0) ∧ MagnitudeBefore a.natAbs b.natAbs

theorem sprint_lt_iff (a b : ℤ) : sprint a < toString b ↔ TextBefore a b := by
  obtain ⟨c, rest, hc, hminus⟩ := formatG_head a.natAbs
  obtain ⟨d, tail, hd, hminus'⟩ := toDigits_head b.natAbs
  rw [String.lt_iff, sprint, String.toList_ofList, toList_toString, TextBefore, ← formatG_lt_iff]
  by_cases ha : a < 0 <;> by_cases hb : b < 0
  · simp [ha, hb, Int.not_le.mpr hb]
  · simp [ha, hb, hd, List.cons_lt_cons_iff, hminus', Int.not_lt.mp hb]
  · simp [ha, hb, hc, List.cons_lt_cons_iff, Char.lt_asymm hminus, (Char.ne_of_lt hminus).symm]
  · simp [ha, hb]

theorem sprint_eq_iff (a b : ℤ) : sprint a = toString b ↔ a = b ∧ a.natAbs < 10 ^ 6 := by
  obtain ⟨c, rest, hc, hminus⟩ := formatG_head a.natAbs
  obtain ⟨d, tail, hd, hminus'⟩ := toDigits_head b.natAbs
  rw [← String.toList_inj, sprint, String.toList_ofList, toList_toString]
  by_cases ha : a < 0 <;> by_cases hb : b < 0
  · simp only [ha, hb, if_true, List.cons_append, List.nil_append, List.cons.injEq, true_and, formatG_eq_iff]
    refine and_congr_left fun _ => ?_
    omega
  · have hne : a ≠ b := by omega
    simp [ha, hb, hd, hne, Char.ne_of_lt hminus']
  · have hne : a ≠ b := by omega
    simp [ha, hb, hc, hne, (Char.ne_of_lt hminus).symm]
  · simp only [ha, hb, if_false, List.nil_append, formatG_eq_iff]
    refine and_congr_left fun _ => ?_
    omega

end GoFloat
