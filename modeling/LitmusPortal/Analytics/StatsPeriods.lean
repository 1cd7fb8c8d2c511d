import LitmusPortal.Analytics.WorkflowStats

/-!
# The periods of the statistics

The buckets stand for consecutive months, days or hours. The keys of the map tell the periods of one window
apart, since it is shorter than the time after which a key returns.
-/

namespace LitmusPortal.Analytics

open LitmusPortal Calendar GoStrings RangeLoop

def localHours (zone : Int) : Periods := (Periods.every 3600 (by decide)).ahead zone

def periodsOf (zone : Int) : TimeFrequency → Periods
  | .monthly => months.comp (localDays zone)
  | .daily => localDays zone
  | .hourly => localHours zone

def windowPeriods (zone now : Int) (filter : TimeFrequency) : List Int :=
  let first := (periodsOf zone filter).index (windowStart zone now filter)
  (List.range ((periodsOf zone filter).index now - first + 1).toNat).map fun i : ℕ => first + i

section Dates

variable {zone now unix : Int} {filter : TimeFrequency}

theorem mem_windowPeriods_iff {i : Int} :
    i ∈ windowPeriods zone now filter ↔
      (periodsOf zone filter).index (windowStart zone now filter) ≤ i ∧ i ≤ (periodsOf zone filter).index now := by
  rw [windowPeriods, List.mem_map]
  constructor
  · rintro ⟨j, hj, rfl⟩
    have hlt := List.mem_range.mp hj
    omega
  · rintro ⟨hlower, hupper⟩
    refine ⟨(i - (periodsOf zone filter).index (windowStart zone now filter)).toNat, List.mem_range.mpr ?_, ?_⟩
    all_goals omega

theorem windowPeriods_ascend : (windowPeriods zone now filter).Pairwise (· < ·) := by
  rw [windowPeriods, List.pairwise_map]
  exact List.pairwise_lt_range.imp fun h => by omega

theorem twelve_mul_yearOf (day : Int) : 12 * yearOf day + monthOfYear (monthOf day) = monthOf day := by
  rw [← (monthOf_spec day).1]
  exact Int.mul_ediv_add_emod _ 12

theorem date_eq (day : Int) :
    monthStart (12 * yearOf day + (monthOfYear (monthOf day) + 1 - 1)) + (monthDay day + 1 - 1) = day := by
  have hmonth : 12 * yearOf day + (monthOfYear (monthOf day) + 1 - 1) = monthOf day := by
    have h := twelve_mul_yearOf day
    omega
  rw [hmonth, monthDay]
  omega

theorem monthDate_eq (day : Int) :
    monthStart (12 * yearOf day + (monthOfYear (monthOf day) + 1 - 1)) = monthStart (monthOf day) := by
  congr 1
  have h := twelve_mul_yearOf day
  omega

theorem bucketDate_eq :
    bucketDate zone unix filter = (periodsOf zone filter).start ((periodsOf zone filter).index unix) := by
  cases filter with
  | monthly =>
      rw [bucketDate, timeDate, yearAt, monthAt, monthDate_eq]
      simp only [sub_self, mul_zero, add_zero]
      rfl
  | daily =>
      rw [bucketDate, timeDate, yearAt, monthAt, dayAt, date_eq]
      change (localDays zone).start ((localDays zone).index unix) + 3600 * 0 + 60 * 0 + 0 =
        (localDays zone).start ((localDays zone).index unix)
      omega
  | hourly =>
      rw [bucketDate, timeDate, yearAt, monthAt, dayAt, date_eq, hourAt]
      unfold periodsOf localHours localDays Periods.ahead Periods.every
      dsimp only
      omega

end Dates

/-! ### The keys -/

/-- The key of a period, under which its bucket is put. -/
def periodKey : TimeFrequency → Int → String
  | .monthly, month => stringOfCode ((monthOfYear month + 1) % 12)
  | .daily, day => dashed (monthOfYear (monthOf day) + 1) (monthDay day + 1)
  | .hourly, hour => dashed (monthDay (hour / 24) + 1) (hour % 24)

section Keys

variable {zone unix : Int} {filter : TimeFrequency}

theorem index_localDays : (localDays zone).index unix = (localHours zone).index unix / 24 := by
  unfold localHours localDays Periods.ahead Periods.every
  dsimp only
  omega

theorem hourAt_eq : hourAt zone unix = (localHours zone).index unix % 24 := by
  unfold hourAt localHours localDays Periods.ahead Periods.every
  dsimp only
  omega

theorem bucketKey_eq : bucketKey zone unix filter = periodKey filter ((periodsOf zone filter).index unix) := by
  cases filter with
  | monthly => rfl
  | daily => rfl
  | hourly =>
      rw [bucketKey, dayAt, index_localDays, hourAt_eq]
      rfl

/-- Both keys are one but in December. -/
theorem countKey_eq
    (h : filter = .monthly → monthOfYear ((periodsOf zone filter).index unix) < 11) :
    countKey zone unix filter = periodKey filter ((periodsOf zone filter).index unix) := by
  cases filter with
  | monthly =>
      have hlt : monthOfYear (monthOf ((localDays zone).index unix)) < 11 := h rfl
      have hnonneg : 0 ≤ monthOfYear (monthOf ((localDays zone).index unix)) := Int.emod_nonneg _ (by decide)
      change stringOfCode (monthAt zone unix) = stringOfCode (monthAt zone unix % 12)
      rw [monthAt, Int.emod_eq_of_lt (by omega) (by omega)]
  | daily => rfl
  | hourly =>
      rw [countKey, dayAt, index_localDays, hourAt_eq]
      rfl

theorem stringOfCode_inj {left right : Int} (hleft : 0 ≤ left ∧ left < 12) (hright : 0 ≤ right ∧ right < 12)
    (h : stringOfCode left = stringOfCode right) : left = right := by
  have hcodes : ∀ i j : Fin 12, Char.ofNat i = Char.ofNat j → i = j := by decide
  have hchar : Char.ofNat left.toNat = Char.ofNat right.toNat := by
    have hlist := congrArg String.toList h
    simpa [stringOfCode] using hlist
  have hnat := hcodes ⟨left.toNat, by omega⟩ ⟨right.toNat, by omega⟩ hchar
  have heq : left.toNat = right.toNat := congrArg Fin.val hnat
  omega

theorem toString_injective : Function.Injective (fun n : Int => toString n) := by
  intro left right h
  have hparse := congrArg parseInt h
  rw [parseInt_toString, parseInt_toString] at hparse
  exact Option.some.inj hparse

theorem notMem_toString {n : Int} (h : 0 ≤ n) : '-' ∉ (toString n).toList := by
  obtain ⟨n, rfl⟩ := Int.eq_ofNat_of_zero_le h
  intro hmem
  have htext : (toString (n : Int)).toList = Nat.toDigits 10 n := Nat.toList_repr
  rw [htext] at hmem
  exact absurd (Nat.isDigit_of_mem_toDigits (by decide) (by decide) hmem) (by decide)

theorem dashed_inj {left right left' right' : Int} (hleft : 0 ≤ left) (hright : 0 ≤ right)
    (h : dashed left right = dashed left' right') : left = left' ∧ right = right' := by
  have hlist := congrArg String.toList h
  rw [dashed, dashed, String.toList_append, String.toList_append, String.toList_append, String.toList_append,
    List.append_assoc, List.append_assoc] at hlist
  obtain ⟨hfront, -, hback⟩ :=
    (List.append_cons_inj_of_notMem (notMem_toString hleft) (notMem_toString hright)).mp hlist
  exact ⟨toString_injective (String.toList_injective hfront), toString_injective (String.toList_injective hback)⟩

/-- How far apart periods of different keys may be. -/
def keySpan : TimeFrequency → Int
  | .monthly => 6
  | .daily => 28
  | .hourly => 48

theorem monthDay_nonneg (day : Int) : 0 ≤ monthDay day := sub_nonneg.mpr (monthStart_monthOf_le day)

theorem monthOf_le_of_le {day day' : Int} (h : day' ≤ day + 28) : monthOf day' ≤ monthOf day + 1 := by
  have hstart := monthStart_monthOf_le day
  have hlt := lt_monthStart_monthOf day
  have hsucc := monthStart_succ (monthOf day + 1)
  have hlength := monthLength_pos (monthOf day + 1)
  have hnext : monthOf day' < monthOf day + 1 + 1 := by
    change months.index day' < _
    rw [months.index_lt_iff]
    change day' < monthStart _
    omega
  omega

theorem periodKey_inj_of_le {i j : Int} (hle : i ≤ j) (hspan : j ≤ i + keySpan filter)
    (h : periodKey filter i = periodKey filter j) : i = j := by
  cases filter with
  | monthly =>
      have hcode := stringOfCode_inj ⟨Int.emod_nonneg _ (by decide), Int.emod_lt_of_pos _ (by decide)⟩
        ⟨Int.emod_nonneg _ (by decide), Int.emod_lt_of_pos _ (by decide)⟩ h
      change j ≤ i + 6 at hspan
      unfold monthOfYear at hcode
      omega
  | daily =>
      have hmonth : 0 ≤ monthOfYear (monthOf i) := Int.emod_nonneg _ (by decide)
      obtain ⟨hmonths, hdays⟩ := dashed_inj (by omega) (by have := monthDay_nonneg i; omega) h
      have hnear := monthOf_le_of_le hspan
      have hmono : monthOf i ≤ monthOf j := months.index_le_index hle
      have hsame : monthOf i = monthOf j := by
        unfold monthOfYear at hmonths
        omega
      unfold monthDay at hdays
      rw [hsame] at hdays
      omega
  | hourly =>
      obtain ⟨hdays, hhours⟩ := dashed_inj (by have := monthDay_nonneg (i / 24); omega)
        (Int.emod_nonneg _ (by decide)) h
      change j ≤ i + 48 at hspan
      have hmono : monthOf (i / 24) ≤ monthOf (j / 24) := months.index_le_index (by omega)
      have hnear : monthOf (j / 24) ≤ monthOf (i / 24) + 1 := monthOf_le_of_le (by omega)
      by_cases hsame : monthOf (i / 24) = monthOf (j / 24)
      · unfold monthDay at hdays
        rw [hsame] at hdays
        omega
      · have hnext : monthOf (j / 24) = monthOf (i / 24) + 1 := by omega
        have hlt := lt_monthStart_monthOf (i / 24)
        have hstart := monthStart_monthOf_le (j / 24)
        have hlength := monthLength_pos (monthOf (i / 24))
        unfold monthDay at hdays
        rw [hnext, monthStart_succ] at hdays hstart
        rw [monthStart_succ] at hlt
        omega

theorem periodKey_inj {i j : Int} (hleft : j ≤ i + keySpan filter) (hright : i ≤ j + keySpan filter)
    (h : periodKey filter i = periodKey filter j) : i = j := by
  rcases Int.le_total i j with hle | hle
  · exact periodKey_inj_of_le hle hleft h
  · exact (periodKey_inj_of_le hle hright h.symm).symm

end Keys

end LitmusPortal.Analytics
