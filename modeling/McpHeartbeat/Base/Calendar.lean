import Mathlib.Data.Nat.Notation
import Mathlib.Tactic.Common

/-!
# The proleptic Gregorian calendar

Day ordinals count from `1`, the first of January of year `1`.

* `ymd2ord`, `ord2ymd`: the ordinal of a date and the date of an ordinal;
* **`ord2ymd_spec`**: reading the date of an ordinal loses nothing and yields a date of the calendar;
* `ord2ymd_year_mono`: a later day is of no earlier year.
-/

namespace Base

/-- Leap years. -/
def isLeap (y : ℕ) : Bool := y % 4 == 0 && (y % 100 != 0 || y % 400 == 0)

/-- Days in the years before year `y`. -/
def daysBeforeYear (y : ℕ) : ℕ := (y - 1) * 365 + (y - 1) / 4 - (y - 1) / 100 + (y - 1) / 400

/-- Days before each month of a common year; index `0` is unused. -/
def daysBeforeMonthTable : List ℕ := [0, 0, 31, 59, 90, 120, 151, 181, 212, 243, 273, 304, 334]

/-- Days in each month of a common year; index `0` is unused. -/
def daysInMonthTable : List ℕ := [0, 31, 28, 31, 30, 31, 30, 31, 31, 30, 31, 30, 31]

/-- Days before month `m`. -/
def daysBeforeMonth (leap : Bool) (m : ℕ) : ℕ :=
  daysBeforeMonthTable.getD m 0 + (if 2 < m && leap then 1 else 0)

/-- Days in month `m`. -/
def daysInMonth (leap : Bool) (m : ℕ) : ℕ :=
  daysInMonthTable.getD m 0 + (if m == 2 && leap then 1 else 0)

/-- The ordinal of a date. -/
def ymd2ord (y m d : ℕ) : ℕ := daysBeforeYear y + daysBeforeMonth (isLeap y) m + d

/-- The month and day of the day with index `k` in its year: a first estimate of the month, one
too large at most. -/
def monthDay (leap : Bool) (k : ℕ) : ℕ × ℕ :=
  let month := (k + 50) / 32
  if daysBeforeMonth leap month > k then (month - 1, k - daysBeforeMonth leap (month - 1) + 1)
  else (month, k - daysBeforeMonth leap month + 1)

/-- The date of an ordinal, by cycles of 400, 100, 4 and 1 years. -/
def ord2ymd (n : ℕ) : ℕ × ℕ × ℕ :=
  let k := n - 1
  let n400 := k / 146097
  let n100 := k % 146097 / 36524
  let n4 := k % 146097 % 36524 / 1461
  let n1 := k % 146097 % 36524 % 1461 / 365
  let year := n400 * 400 + 1 + n100 * 100 + n4 * 4 + n1
  -- the last day of a leap year that closes a cycle overflows the division
  if n1 = 4 ∨ n100 = 4 then (year - 1, 12, 31)
  else
    let leap := n1 == 3 && (n4 != 24 || n100 == 3)
    (year, monthDay leap (k % 146097 % 36524 % 1461 % 365))

/-- A date of the calendar. -/
structure ValidDate (y m d : ℕ) : Prop where
  year : 1 ≤ y
  month : 1 ≤ m ∧ m ≤ 12
  day : 1 ≤ d ∧ d ≤ daysInMonth (isLeap y) m

/-- The dates of one year, day by day. -/
theorem monthDay_spec : ∀ (leap : Bool) (k : ℕ), k < 365 + leap.toNat →
    daysBeforeMonth leap (monthDay leap k).1 + (monthDay leap k).2 = k + 1 ∧
      (1 ≤ (monthDay leap k).1 ∧ (monthDay leap k).1 ≤ 12) ∧
      1 ≤ (monthDay leap k).2 ∧ (monthDay leap k).2 ≤ daysInMonth leap (monthDay leap k).1 := by
  intro leap k hk
  cases leap
  · have h : ∀ k < 365, daysBeforeMonth false (monthDay false k).1 + (monthDay false k).2 = k + 1 ∧
        (1 ≤ (monthDay false k).1 ∧ (monthDay false k).1 ≤ 12) ∧ 1 ≤ (monthDay false k).2 ∧
        (monthDay false k).2 ≤ daysInMonth false (monthDay false k).1 := by decide +kernel
    exact h k hk
  · have h : ∀ k < 366, daysBeforeMonth true (monthDay true k).1 + (monthDay true k).2 = k + 1 ∧
        (1 ≤ (monthDay true k).1 ∧ (monthDay true k).1 ≤ 12) ∧ 1 ≤ (monthDay true k).2 ∧
        (monthDay true k).2 ≤ daysInMonth true (monthDay true k).1 := by decide +kernel
    exact h k hk

/-- Leap years by their place in the cycles. -/
theorem isLeap_cycle {a b c d : ℕ} (hb : b ≤ 3) (hc : c ≤ 24) (hd : d ≤ 3) :
    isLeap (a * 400 + 1 + b * 100 + c * 4 + d) = (d == 3 && (c != 24 || b == 3)) := by
  rw [Bool.eq_iff_iff]
  simp only [isLeap, Bool.and_eq_true, Bool.or_eq_true, beq_iff_eq, bne_iff_ne]
  omega

/-- Days before a year by its place in the cycles. -/
theorem daysBeforeYear_cycle {a b c d : ℕ} (hb : b ≤ 3) (hc : c ≤ 24) (hd : d ≤ 3) :
    daysBeforeYear (a * 400 + 1 + b * 100 + c * 4 + d) =
      a * 146097 + b * 36524 + c * 1461 + d * 365 := by
  unfold daysBeforeYear
  omega

/-- The last year of a cycle of 400 years. -/
theorem lastYear_cycle (a : ℕ) : isLeap (a * 400 + 400) = true ∧
    daysBeforeYear (a * 400 + 400) = a * 146097 + 145731 := by
  constructor
  · simp only [isLeap, Bool.and_eq_true, Bool.or_eq_true, beq_iff_eq, bne_iff_ne]
    omega
  · unfold daysBeforeYear
    omega

theorem december_31 {y : ℕ} (hy : 1 ≤ y) (hl : isLeap y = true) :
    ymd2ord y 12 31 = daysBeforeYear y + 366 ∧ ValidDate y 12 31 := by
  refine ⟨?_, hy, ⟨by omega, by omega⟩, by omega, ?_⟩
  · rw [ymd2ord, hl]
    rfl
  · rw [hl]
    decide

/-- **Reading the date of an ordinal loses nothing**, and yields a date of the calendar. -/
theorem ord2ymd_spec {n : ℕ} (hn : 1 ≤ n) :
    ymd2ord (ord2ymd n).1 (ord2ymd n).2.1 (ord2ymd n).2.2 = n ∧
      ValidDate (ord2ymd n).1 (ord2ymd n).2.1 (ord2ymd n).2.2 := by
  obtain ⟨k, rfl⟩ : ∃ k, n = k + 1 := ⟨n - 1, by omega⟩
  unfold ord2ymd
  simp only [Nat.add_sub_cancel]
  set a := k / 146097 with ha
  set b := k % 146097 / 36524 with hb
  set c := k % 146097 % 36524 / 1461 with hc
  set d := k % 146097 % 36524 % 1461 / 365 with hd
  set i := k % 146097 % 36524 % 1461 % 365 with hi
  have hk : k = a * 146097 + b * 36524 + c * 1461 + d * 365 + i := by omega
  split_ifs with h
  · by_cases h4 : b = 4
    · -- the last day of a cycle of 400 years
      have hy : a * 400 + 1 + b * 100 + c * 4 + d - 1 = a * 400 + 400 := by omega
      have hl := lastYear_cycle a
      obtain ⟨ho, hv⟩ := december_31 (y := a * 400 + 400) (by omega) hl.1
      simp only [hy]
      exact ⟨by rw [ho, hl.2]; omega, hv⟩
    · -- the last day of a cycle of 4 years
      have hd4 : d = 4 := h.resolve_right h4
      have hc' : c ≤ 23 := by omega
      have hy : a * 400 + 1 + b * 100 + c * 4 + d - 1 = a * 400 + 1 + b * 100 + c * 4 + 3 := by omega
      have hl : isLeap (a * 400 + 1 + b * 100 + c * 4 + 3) = true := by
        rw [isLeap_cycle (by omega) (by omega) (by omega)]
        simp only [beq_self_eq_true, Bool.true_and, Bool.or_eq_true, bne_iff_ne]
        omega
      obtain ⟨ho, hv⟩ := december_31 (by omega) hl
      simp only [hy]
      exact ⟨by rw [ho, daysBeforeYear_cycle (by omega) (by omega) (by omega)]; omega, hv⟩
  · rw [not_or] at h
    have hb' : b ≤ 3 := by omega
    have hc' : c ≤ 24 := by omega
    have hd' : d ≤ 3 := by omega
    have hl := isLeap_cycle (a := a) hb' hc' hd'
    have hdays := daysBeforeYear_cycle (a := a) hb' hc' hd'
    obtain ⟨hs, hm, hday⟩ := monthDay_spec (d == 3 && (c != 24 || b == 3)) i (by omega)
    dsimp only
    refine ⟨?_, by omega, hm, by rw [hl]; exact hday⟩
    rw [ymd2ord, hl, hdays]
    omega

theorem ord2ymd_injective {m n : ℕ} (hm : 1 ≤ m) (hn : 1 ≤ n) (h : ord2ymd m = ord2ymd n) :
    m = n := by
  rw [← (ord2ymd_spec hm).1, h, (ord2ymd_spec hn).1]

/-- A year is as long as its days. -/
theorem daysBeforeYear_succ {y : ℕ} (hy : 1 ≤ y) :
    daysBeforeYear (y + 1) = daysBeforeYear y + 365 + (isLeap y).toNat := by
  obtain ⟨k, rfl⟩ : ∃ k, y = k + 1 := ⟨y - 1, by omega⟩
  have hless : k / 100 ≤ k := Nat.div_le_self _ _
  unfold daysBeforeYear
  simp only [Nat.add_sub_cancel]
  by_cases h4 : (k + 1) % 4 = 0
  · have h₄ : (k + 1) / 4 = k / 4 + 1 := by omega
    by_cases h100 : (k + 1) % 100 = 0
    · have h₁₀₀ : (k + 1) / 100 = k / 100 + 1 := by omega
      by_cases h400 : (k + 1) % 400 = 0
      · have h₄₀₀ : (k + 1) / 400 = k / 400 + 1 := by omega
        simp only [isLeap, h4, h100, h400, h₄, h₁₀₀, h₄₀₀, beq_self_eq_true, Bool.or_true,
          Bool.and_self, Bool.toNat_true]
        omega
      · have h₄₀₀ : (k + 1) / 400 = k / 400 := by omega
        simp only [isLeap, h4, h100, h₄, h₁₀₀, h₄₀₀, beq_eq_false_iff_ne.mpr h400, bne_self_eq_false,
          Bool.or_false, Bool.and_false, Bool.toNat_false]
        omega
    · have h₁₀₀ : (k + 1) / 100 = k / 100 := by omega
      have h₄₀₀ : (k + 1) / 400 = k / 400 := by omega
      simp only [isLeap, h4, h₄, h₁₀₀, h₄₀₀, bne_iff_ne.mpr h100, beq_self_eq_true, Bool.true_or,
        Bool.and_self, Bool.toNat_true]
      omega
  · have h₄ : (k + 1) / 4 = k / 4 := by omega
    have h₁₀₀ : (k + 1) / 100 = k / 100 := by omega
    have h₄₀₀ : (k + 1) / 400 = k / 400 := by omega
    simp only [isLeap, h₄, h₁₀₀, h₄₀₀, beq_eq_false_iff_ne.mpr h4, Bool.false_and, Bool.toNat_false]
    omega

theorem daysBeforeYear_mono {y z : ℕ} (h : y ≤ z) : daysBeforeYear y ≤ daysBeforeYear z := by
  induction h with
  | refl => exact Nat.le_refl _
  | @step z _ ih =>
    apply Nat.le_trans ih
    rcases Nat.eq_zero_or_pos z with rfl | hz
    · exact Nat.le_refl _
    · rw [daysBeforeYear_succ hz]
      omega

/-- A date lies in its year. -/
theorem ValidDate.ymd2ord_le {y m d : ℕ} (hv : ValidDate y m d) :
    ymd2ord y m d ≤ daysBeforeYear (y + 1) := by
  have hday := hv.day.2
  have hmonth : ∀ leap, ∀ m < 13, 1 ≤ m →
      daysBeforeMonth leap m + daysInMonth leap m ≤ 365 + leap.toNat := by decide
  have := hmonth (isLeap y) m (by have := hv.month; omega) hv.month.1
  rw [daysBeforeYear_succ hv.year, ymd2ord]
  omega

/-- **A later day is of no earlier year.** -/
theorem ord2ymd_year_mono {m n : ℕ} (hm : 1 ≤ m) (h : m ≤ n) : (ord2ymd m).1 ≤ (ord2ymd n).1 := by
  by_contra hlt
  obtain ⟨hom, hvm⟩ := ord2ymd_spec hm
  obtain ⟨hon, hvn⟩ := ord2ymd_spec (Nat.le_trans hm h)
  have hle := hvn.ymd2ord_le
  have hmono : daysBeforeYear ((ord2ymd n).1 + 1) ≤ daysBeforeYear (ord2ymd m).1 :=
    daysBeforeYear_mono (Nat.lt_of_not_le hlt)
  have hday := hvm.day.1
  rw [hon] at hle
  unfold ymd2ord at hom
  omega

end Base
