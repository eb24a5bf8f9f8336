import McpHeartbeat.Core.Model
import McpHeartbeat.Py.Canon

/-!
# What a written timestamp says

`formatRfc3339` keeps milliseconds.

* `fixed_eq_iff`: numerals of one width are equal modulo a power of ten;
* **`formatRfc3339_eq_iff`**: two instants are written alike exactly when they fall in the same
  millisecond, whether or not the platform pads years.
-/

namespace McpHeartbeat

open Base Json Str

/-! ## Numerals of one width -/

@[simp] theorem length_fixed (w n : ℕ) : (fixed w n).length = w := by
  induction w generalizing n with
  | zero => rfl
  | succ w ih => rw [fixed, List.length_append, ih, List.length_singleton]

theorem mem_fixed {w n : ℕ} {c : CodePoint} (h : c ∈ fixed w n) : ∃ d < 10, c = digit d := by
  induction w generalizing n with
  | zero => simp [fixed] at h
  | succ w ih =>
    rw [fixed, List.mem_append, List.mem_singleton] at h
    rcases h with h | rfl
    · exact ih h
    · exact ⟨n % 10, Nat.mod_lt _ (by omega), rfl⟩

theorem fixed_eq_iff {w m n : ℕ} : fixed w m = fixed w n ↔ m % 10 ^ w = n % 10 ^ w := by
  induction w generalizing m n with
  | zero => simp [fixed, Nat.mod_one]
  | succ w ih =>
    have hsplit : ∀ k : ℕ, k % 10 ^ (w + 1) = k % 10 + 10 * (k / 10 % 10 ^ w) := fun k => by
      rw [Nat.pow_succ, Nat.mul_comm, Nat.mod_mul]
    have hinj : digit (m % 10) = digit (n % 10) ↔ m % 10 = n % 10 :=
      ⟨digit_inj _ (Nat.mod_lt _ (by omega)) _ (Nat.mod_lt _ (by omega)), congrArg digit⟩
    rw [fixed, fixed, List.append_singleton_inj, ih, hinj, hsplit, hsplit]
    omega

theorem fixed_inj {w m n : ℕ} (hm : m < 10 ^ w) (hn : n < 10 ^ w) :
    fixed w m = fixed w n ↔ m = n := by
  rw [fixed_eq_iff, Nat.mod_eq_of_lt hm, Nat.mod_eq_of_lt hn]

/-- Dropping the last digit divides by ten. -/
theorem dropLast_append_fixed (s : Str) (w n : ℕ) :
    (s ++ fixed (w + 1) n).dropLast = s ++ fixed w (n / 10) := by
  rw [fixed, ← List.append_assoc, List.dropLast_concat]

/-- The year, as the platform writes it. -/
def yearText (padsYear : Bool) (y : ℕ) : Str := if padsYear then fixed 4 y else natText y

theorem mem_yearText {b : Bool} {y : ℕ} {c : CodePoint} (h : c ∈ yearText b y) :
    ∃ d < 10, c = digit d := by
  unfold yearText at h
  split_ifs at h
  · exact mem_fixed h
  · obtain ⟨d, hd, rfl⟩ := List.mem_map.mp h
    exact ⟨d, decimal_lt hd, rfl⟩

theorem yearText_inj {b : Bool} {y z : ℕ} (hy : y < 10000) (hz : z < 10000)
    (h : yearText b y = yearText b z) : y = z := by
  unfold yearText at h
  split_ifs at h
  · exact (fixed_inj (by omega) (by omega)).mp h
  · exact natText_inj h

/-- A year is read off the front of what follows it. -/
theorem yearText_append_inj {b : Bool} {y z : ℕ} {r s : Str}
    (h : yearText b y ++ .scalar '-' :: r = yearText b z ++ .scalar '-' :: s) :
    yearText b y = yearText b z ∧ r = s := by
  have hdigits : ∀ y, ∀ c ∈ yearText b y, ¬ c = .scalar '-' := fun y c hc => by
    obtain ⟨d, hd, rfl⟩ := mem_yearText hc
    exact digit_ne_minus d hd
  obtain ⟨h₁, h₂⟩ := @run_append_inj _ (· = .scalar '-') _ _ _ _ (hdigits y) (hdigits z)
    (stops_cons rfl) (stops_cons rfl) h
  exact ⟨h₁, (List.cons.inj h₂).2⟩

/-! ## Dates and times -/

theorem year_lt {n : ℕ} (h₁ : 1 ≤ n) (h₂ : n ≤ 3652059) : (ord2ymd n).1 < 10000 := by
  obtain ⟨h, hv⟩ := ord2ymd_spec h₁
  have hd := hv.day.1
  unfold ymd2ord daysBeforeYear at h
  omega

theorem month_day_lt {n : ℕ} (h : 1 ≤ n) : (ord2ymd n).2.1 < 100 ∧ (ord2ymd n).2.2 < 100 := by
  obtain ⟨-, hv⟩ := ord2ymd_spec h
  have hmonth := hv.month
  have hd : (ord2ymd n).2.2 ≤ 100 - 1 := by
    apply hv.day.2.trans
    have hall : ∀ leap, ∀ m < 13, daysInMonth leap m ≤ 99 := by decide
    exact hall _ _ (by omega)
  omega

namespace Datetime

theorem ordinal_bounds (t : Datetime) : 1 ≤ t.ordinal ∧ t.ordinal ≤ 3652059 := by
  have h : t.micros < 3652059 * day := t.lt
  have hd : t.micros / day < 3652059 := Nat.div_lt_of_lt_mul (by rwa [Nat.mul_comm])
  unfold ordinal
  exact ⟨Nat.le_add_left _ _, hd⟩

theorem timeOfDay_lt (t : Datetime) : t.timeOfDay < 86400 * second :=
  Nat.mod_lt _ (by decide)

/-- The millisecond of an instant, by its date and time of day. -/
theorem micros_eq (t : Datetime) : t.micros = (t.ordinal - 1) * day + t.timeOfDay := by
  rw [ordinal, Nat.add_sub_cancel, timeOfDay, Nat.mul_comm]
  exact (Nat.div_add_mod _ _).symm

end Datetime

/-- What `formatRfc3339` writes. -/
theorem formatRfc3339_eq (P : Platform) (t : Datetime) : formatRfc3339 P t =
    yearText P.padsYear (ord2ymd t.ordinal).1 ++ .scalar '-' ::
      (fixed 2 (ord2ymd t.ordinal).2.1 ++ .scalar '-' :: (fixed 2 (ord2ymd t.ordinal).2.2 ++
        .scalar 'T' :: (fixed 2 (t.timeOfDay / second / 3600) ++ .scalar ':' ::
          (fixed 2 (t.timeOfDay / second / 60 % 60) ++ .scalar ':' ::
            (fixed 2 (t.timeOfDay / second % 60) ++ .scalar '.' ::
              (fixed 3 (t.timeOfDay % second / 1000) ++ [.scalar 'Z'])))))) := by
  have h1000 : t.timeOfDay % second / 10 / 10 / 10 = t.timeOfDay % second / 1000 := by omega
  unfold formatRfc3339 strftime
  dsimp only
  rw [dropLast_append_fixed, dropLast_append_fixed, dropLast_append_fixed, h1000]
  simp only [List.append_assoc]
  rfl

/-- **Two instants are written alike exactly when they fall in the same millisecond.** -/
theorem formatRfc3339_eq_iff {P : Platform} {s t : Datetime} :
    formatRfc3339 P s = formatRfc3339 P t ↔ s.micros / 1000 = t.micros / 1000 := by
  have hs := s.micros_eq
  have ht := t.micros_eq
  have hs₁ := s.ordinal_bounds
  have ht₁ := t.ordinal_bounds
  have hs₂ := s.timeOfDay_lt
  have ht₂ := t.timeOfDay_lt
  simp only [day, second] at hs ht hs₂ ht₂
  constructor
  · intro h
    rw [formatRfc3339_eq, formatRfc3339_eq] at h
    obtain ⟨hy, h⟩ := yearText_append_inj h
    have hcut : ∀ {w m n : ℕ} {c : CodePoint} {x y : Str},
        fixed w m ++ c :: x = fixed w n ++ c :: y → fixed w m = fixed w n ∧ x = y := by
      intro w m n c x y h
      obtain ⟨h₁, h₂⟩ := List.append_inj h (by rw [length_fixed, length_fixed])
      exact ⟨h₁, (List.cons.inj h₂).2⟩
    obtain ⟨hmonth, h⟩ := hcut h
    obtain ⟨hday, h⟩ := hcut h
    obtain ⟨hhour, h⟩ := hcut h
    obtain ⟨hminute, h⟩ := hcut h
    obtain ⟨hsecond, h⟩ := hcut h
    obtain ⟨hmilli, -⟩ := hcut h
    have hord : s.ordinal = t.ordinal := by
      obtain ⟨hm, hd⟩ := month_day_lt hs₁.1
      obtain ⟨hm', hd'⟩ := month_day_lt ht₁.1
      refine ord2ymd_injective hs₁.1 ht₁.1 (Prod.ext ?_ (Prod.ext ?_ ?_))
      · exact yearText_inj (year_lt hs₁.1 hs₁.2) (year_lt ht₁.1 ht₁.2) hy
      · exact (fixed_inj hm hm').mp hmonth
      · exact (fixed_inj hd hd').mp hday
    rw [fixed_eq_iff] at hhour hminute hsecond hmilli
    simp only [second] at hhour hminute hsecond hmilli
    omega
  · intro h
    have hord : s.ordinal = t.ordinal := by omega
    have htime : s.timeOfDay / 1000 = t.timeOfDay / 1000 := by omega
    have hsec : s.timeOfDay / second = t.timeOfDay / second := by simp only [second]; omega
    have hmilli : s.timeOfDay % second / 1000 = t.timeOfDay % second / 1000 := by
      simp only [second]
      omega
    rw [formatRfc3339_eq, formatRfc3339_eq, hord, hsec, hmilli]

theorem wellFormed_formatRfc3339 (P : Platform) (t : Datetime) :
    Str.WellFormed (formatRfc3339 P t) := by
  have hfixed : ∀ w n, Str.WellFormed (fixed w n) := fun w n => wellFormed_scalars fun c hc => by
    obtain ⟨d, -, rfl⟩ := mem_fixed hc
    exact ⟨_, rfl⟩
  have hyear : ∀ y, Str.WellFormed (yearText P.padsYear y) := by
    intro y
    apply wellFormed_scalars
    intro c hc
    obtain ⟨d, -, rfl⟩ := mem_yearText hc
    exact ⟨_, rfl⟩
  rw [formatRfc3339_eq]
  simp [hfixed, hyear, CodePoint.scalar?]

end McpHeartbeat
