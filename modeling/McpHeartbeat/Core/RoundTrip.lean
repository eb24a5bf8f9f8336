import Mathlib.Data.Nat.Digits.Lemmas
import McpHeartbeat.Core.Digest

/-!
# Reading what was written

* `takeDigits_fixed`, `natText_eq_fixed`: numerals of one width are read back;
* `fromisoformat_stamp`: a date and a time of day are read back;
* **`parse_format_iff`**: a written timestamp reads as its instant cut to milliseconds, and as
  nothing else; a year below `1000` is read only if the platform pads it;
* `toDict_reads_iff`, **`round_trip_exactly_when`**: when a heartbeat is what its document reads as.
-/

namespace McpHeartbeat

open Base Json Str

/-! ## Digits -/

theorem digitVal_digit : ∀ d < 10, digitVal (digit d) = some d := by decide

/-- One digit more is one more step. -/
theorem takeDigits_succ (w acc : ℕ) (s : Str) :
    takeDigits (w + 1) acc s = (takeDigits w acc s).bind fun p => takeDigits 1 p.1 p.2 := by
  induction w generalizing acc s with
  | zero => rfl
  | succ w ih =>
    cases s with
    | nil => rfl
    | cons c s =>
      rw [takeDigits, takeDigits]
      cases digitVal c with
      | none => rfl
      | some d => exact ih _ _

/-- **Digits of one width are read back**, whatever follows. -/
theorem takeDigits_fixed (w acc n : ℕ) (r : Str) :
    takeDigits w acc (fixed w n ++ r) = some (acc * 10 ^ w + n % 10 ^ w, r) := by
  induction w generalizing n r with
  | zero => simp [takeDigits, fixed, Nat.mod_one]
  | succ w ih =>
    have hmod : n % 10 ^ (w + 1) = n % 10 + 10 * (n / 10 % 10 ^ w) := by
      rw [Nat.pow_succ, Nat.mul_comm, Nat.mod_mul]
    rw [takeDigits_succ, fixed, List.append_assoc, ih]
    simp only [Option.bind_some, List.singleton_append, takeDigits,
      digitVal_digit _ (Nat.mod_lt n (by omega : 10 > 0)), Option.some.injEq, Prod.mk.injEq, and_true]
    rw [hmod, Nat.pow_succ]
    ring

theorem takeDigits_fixed_lt {w n : ℕ} (h : n < 10 ^ w) (r : Str) :
    takeDigits w 0 (fixed w n ++ r) = some (n, r) := by
  rw [takeDigits_fixed, Nat.zero_mul, Nat.zero_add, Nat.mod_eq_of_lt h]

/-- A numeral without leading zeros is the numeral of its width. -/
theorem natText_eq_fixed {w n : ℕ} (h₁ : 10 ^ w ≤ n) (h₂ : n < 10 ^ (w + 1)) :
    natText n = fixed (w + 1) n := by
  induction w generalizing n with
  | zero =>
    have hn : n ≠ 0 := by omega
    have hlt : n < 10 := by omega
    simp [natText, decimal, hn, fixed, Nat.digits_of_lt 10 n hn hlt, Nat.mod_eq_of_lt hlt]
  | succ w ih =>
    have hpos : 0 < 10 ^ w := Nat.pow_pos (by omega)
    rw [Nat.pow_succ] at h₁ h₂
    rw [Nat.pow_succ] at h₂
    have hn : n ≠ 0 := by omega
    have hdiv : n / 10 ≠ 0 := by omega
    have hstep : natText n = natText (n / 10) ++ [digit (n % 10)] := by
      rw [natText, natText, decimal, decimal, if_neg hn, if_neg hdiv,
        Nat.digits_def' (by omega) (Nat.pos_of_ne_zero hn), List.reverse_cons, List.map_append]
      rfl
    rw [hstep, fixed, ih (by omega) (by rw [Nat.pow_succ]; omega)]

/-- A short numeral has few digits. -/
theorem length_natText_lt {w n : ℕ} (h : n < 10 ^ w) (hw : 0 < w) : (natText n).length ≤ w := by
  rw [natText, List.length_map, decimal]
  split_ifs with hn
  · exact hw
  · rw [List.length_reverse]
    exact (Nat.digits_length_le_iff (by omega) n).mpr h

/-- Nothing is read from too few digits. -/
theorem takeDigits_none {c : CodePoint} (hc : digitVal c = none) (r : Str) :
    ∀ (p : Str) (n acc k : ℕ), p.length < n → takeDigits n acc ((p ++ c :: r).take k) = none
  | _, n + 1, _, 0, _ => rfl
  | [], n + 1, acc, k + 1, _ => by simp [takeDigits, hc]
  | d :: p, n + 1, acc, k + 1, h => by
    have hp : p.length < n := by simpa using h
    rw [List.cons_append, List.take_succ_cons, takeDigits]
    cases digitVal d with
    | none => rfl
    | some v => exact takeDigits_none hc r p n _ k hp

/-! ## Dates and times of day -/

/-- A numeral does not begin with a symbol that is no digit. -/
theorem head_fixed {w n : ℕ} {r : Str} {c : CodePoint} (hc : digitVal c = none) :
    (fixed (w + 1) n ++ r).head? ≠ some c := by
  intro h
  have hne : fixed (w + 1) n ≠ [] := List.ne_nil_of_length_eq_add_one (length_fixed _ _)
  rw [List.head?_append_of_ne_nil _ hne] at h
  obtain ⟨d, hd, rfl⟩ := mem_fixed (List.mem_of_head? h)
  rw [digitVal_digit d hd] at hc
  cases hc

/-- `YYYY-MM-DD`. -/
def dateText (y m d : ℕ) : Str := fixed 4 y ++ .scalar '-' :: (fixed 2 m ++ .scalar '-' :: fixed 2 d)

/-- `hh:mm:ss.fff`. -/
def clockText (hour minute second milli : ℕ) : Str :=
  fixed 2 hour ++ .scalar ':' :: (fixed 2 minute ++ .scalar ':' ::
    (fixed 2 second ++ .scalar '.' :: fixed 3 milli))

theorem length_dateText (y m d : ℕ) : (dateText y m d).length = 10 := by
  simp [dateText]

theorem length_clockText (h m s f : ℕ) : (clockText h m s f).length = 12 := by
  simp [clockText]

theorem parse_dateText {y m d : ℕ} (hv : ValidDate y m d) (hy : y < 10000) :
    parseIsoformatDate (dateText y m d) = some (ymd2ord y m d) := by
  have hm := hv.month
  have hd : d ≤ 31 := by
    apply hv.day.2.trans
    have hall : ∀ leap, ∀ m < 13, daysInMonth leap m ≤ 31 := by decide
    exact hall _ _ (by omega)
  have hguard : 1 ≤ y ∧ y ≤ 9999 ∧ 1 ≤ m ∧ m ≤ 12 ∧ 1 ≤ d ∧ d ≤ daysInMonth (isLeap y) m :=
    ⟨hv.year, by omega, hm.1, hm.2, hv.day.1, hv.day.2⟩
  have hw : digitVal (.scalar 'W') = none := rfl
  have hlast : takeDigits 2 0 (fixed 2 d) = some (d, []) := by
    have := takeDigits_fixed_lt (w := 2) (n := d) (by omega) []
    rwa [List.append_nil] at this
  unfold parseIsoformatDate dateText
  simp only [takeDigits_fixed_lt (w := 4) (n := y) (by omega), Option.bind_eq_bind,
    Option.bind_some, List.head?_cons, decide_true, skip, if_true, List.tail_cons, head_fixed hw,
    if_false, takeDigits_fixed_lt (w := 2) (n := m) (by omega), hlast, hguard, and_self]

theorem parse_clockText {h m s f : ℕ} (hh : h < 24) (hm : m < 60) (hs : s < 60) (hf : f < 1000) :
    parseHhMmSsFf (clockText h m s f) = some ⟨h, m, s, f * 1000⟩ := by
  have hne : ∀ w n, fixed (w + 1) n ≠ [] := fun w n =>
    List.ne_nil_of_length_eq_add_one (length_fixed _ _)
  have hdigits : (fixed 3 f).all (fun c => (digitVal c).isSome) = true := by
    rw [List.all_eq_true]
    intro c hc
    obtain ⟨d, hd, rfl⟩ := mem_fixed hc
    rw [digitVal_digit d hd]
    rfl
  have hfraction : fractionMicros (fixed 3 f) = some (f * 1000) := by
    have htake := takeDigits_fixed_lt (w := 3) (n := f) (by omega) []
    rw [List.append_nil] at htake
    unfold fractionMicros
    rw [if_pos ⟨hne 2 f, hdigits⟩]
    simp [htake]
  unfold parseHhMmSsFf clockText
  simp [takeDigits_fixed_lt (w := 2) (n := h) (by omega),
    takeDigits_fixed_lt (w := 2) (n := m) (by omega),
    takeDigits_fixed_lt (w := 2) (n := s) (by omega), skip, hfraction]

/-- No symbol of a time of day begins an offset. -/
theorem isOffsetSign_clockText {h m s f : ℕ} : ∀ c ∈ clockText h m s f, isOffsetSign c = false := by
  have hdigit : ∀ d < 10, isOffsetSign (digit d) = false := by decide
  have hfixed : ∀ w n, ∀ c ∈ fixed w n, isOffsetSign c = false := by
    intro w n c hc
    obtain ⟨d, hd, rfl⟩ := mem_fixed hc
    exact hdigit d hd
  intro c hc
  simp only [clockText, List.mem_append, List.mem_cons] at hc
  rcases hc with hc | rfl | hc | rfl | hc | rfl | hc
  · exact hfixed _ _ _ hc
  · rfl
  · exact hfixed _ _ _ hc
  · rfl
  · exact hfixed _ _ _ hc
  · rfl
  · exact hfixed _ _ _ hc

/-- The offset of UTC. -/
def utcOffset : Str := py "+00:00"

theorem parse_time {h m s f : ℕ} (hh : h < 24) (hm : m < 60) (hs : s < 60) (hf : f < 1000) :
    parseIsoformatTime (clockText h m s f ++ utcOffset) =
      some (⟨h, m, s, f * 1000⟩, some 0) := by
  have hsign : ∀ c ∈ clockText h m s f, (!isOffsetSign c) = true := fun c hc => by
    rw [isOffsetSign_clockText c hc]
    rfl
  have htake : (clockText h m s f ++ utcOffset).takeWhile (fun c => !isOffsetSign c) =
      clockText h m s f := by
    rw [List.takeWhile_append_of_pos hsign]
    simp [utcOffset, py, isOffsetSign]
  have hdrop : (clockText h m s f ++ utcOffset).dropWhile (fun c => !isOffsetSign c) =
      .scalar '+' :: py "00:00" := by
    rw [List.dropWhile_append_of_pos hsign]
    rfl
  have hoffset : parseHhMmSsFf (py "00:00") = some ⟨0, 0, 0, 0⟩ := by decide
  unfold parseIsoformatTime
  rw [htake, hdrop, parse_clockText hh hm hs hf]
  simp [hoffset, TimeParts.micros, day, second]

/-- **A date and a time of day are read back.** -/
theorem fromisoformat_stamp {y mo d h m s f : ℕ} (hv : ValidDate y mo d) (hy : y < 10000)
    (hh : h < 24) (hm : m < 60) (hs : s < 60) (hf : f < 1000) :
    fromisoformat (dateText y mo d ++ .scalar 'T' :: (clockText h m s f ++ utcOffset)) =
      some ((ymd2ord y mo d - 1) * day + (⟨h, m, s, f * 1000⟩ : TimeParts).micros, some 0) := by
  have hlen : (dateText y mo d ++ .scalar 'T' :: (clockText h m s f ++ utcOffset)).length = 29 := by
    simp [length_dateText, length_clockText, utcOffset, py]
  have hdash : (dateText y mo d ++ .scalar 'T' :: (clockText h m s f ++ utcOffset))[4]? =
      some (.scalar '-') := by
    rw [dateText, List.append_assoc, List.getElem?_append_right (by simp)]
    simp
  have hweek : (dateText y mo d ++ .scalar 'T' :: (clockText h m s f ++ utcOffset))[5]? ≠
      some (.scalar 'W') := by
    rw [dateText, List.append_assoc, List.getElem?_append_right (by simp)]
    simp only [length_fixed, List.cons_append, List.append_assoc, Nat.reduceSub,
      List.getElem?_cons_succ]
    rw [← List.head?_eq_getElem?]
    exact head_fixed rfl
  have hloc : separatorLocation
      (dateText y mo d ++ .scalar 'T' :: (clockText h m s f ++ utcOffset)) = some 10 := by
    unfold separatorLocation
    rw [hlen, hdash]
    simp [hweek]
  have htake : (dateText y mo d ++ .scalar 'T' :: (clockText h m s f ++ utcOffset)).take 10 =
      dateText y mo d := List.take_left' (length_dateText y mo d)
  have hdrop : (dateText y mo d ++ .scalar 'T' :: (clockText h m s f ++ utcOffset)).drop 11 =
      clockText h m s f ++ utcOffset := by
    rw [List.drop_append, length_dateText, List.drop_eq_nil_of_le (by simp [length_dateText])]
    rfl
  unfold fromisoformat
  rw [hlen, hloc]
  simp only [Option.bind_eq_bind, Option.bind_some, htake, hdrop, parse_dateText hv hy,
    parse_time hh hm hs hf]
  simp [hh, hm, hs]

/-- Nothing is read before a year of fewer than four digits. -/
theorem fromisoformat_short {y : ℕ} (h : y < 1000) (r : Str) :
    fromisoformat (natText y ++ .scalar '-' :: r) = none := by
  have hlen : (natText y).length < 4 := Nat.lt_succ_of_le (length_natText_lt h (by omega))
  have hdate : ∀ k, parseIsoformatDate ((natText y ++ .scalar '-' :: r).take k) = none := by
    intro k
    unfold parseIsoformatDate
    rw [takeDigits_none rfl r (natText y) 4 0 k hlen]
    rfl
  unfold fromisoformat
  split_ifs
  · rfl
  · cases separatorLocation (natText y ++ .scalar '-' :: r) with
    | none => rfl
    | some loc => simp [hdate loc]

/-! ## Timestamps -/

namespace Datetime

/-- The year of an instant. -/
def year (t : Datetime) : ℕ := (ord2ymd t.ordinal).1

/-- The instant without what is below a millisecond. -/
def toMillis (t : Datetime) : Datetime :=
  ⟨t.micros / 1000 * 1000, (Nat.div_mul_le_self _ _).trans_lt t.lt⟩

theorem toMillis_instant (t : Datetime) :
    t.toMillis.instant = t.instant - (t.micros % 1000 : ℕ) := by
  show ((t.micros / 1000 * 1000 : ℕ) : ℤ) = (t.micros : ℤ) - (t.micros % 1000 : ℕ)
  omega

theorem toMillis_eq_iff {t : Datetime} : t.toMillis = t ↔ t.micros % 1000 = 0 := by
  obtain ⟨n, hn⟩ := t
  rw [toMillis, Datetime.mk.injEq]
  show n / 1000 * 1000 = n ↔ n % 1000 = 0
  omega

end Datetime

/-- A final `Z` is read as an offset of zero. -/
theorem parse_zulu (s : Str) : parseRfc3339 (.str (s ++ [.scalar 'Z'])) =
    match fromisoformat (s ++ utcOffset) with
    | none => .error (.valueError (.malformed (s ++ utcOffset)))
    | some (_, none) => .error (.valueError (.noOffset (s ++ [.scalar 'Z'])))
    | some (parsed, some offset) =>
      match Datetime.ofInstant? (parsed - offset) with
      | none => .error .overflowError
      | some t => .ok t := by
  have hcand : (s ++ [CodePoint.scalar 'Z']).dropLast ++ py "+00:00" = s ++ utcOffset := by
    rw [List.dropLast_concat, utcOffset]
  obtain ⟨c, r, hcr⟩ : ∃ c r, s ++ [CodePoint.scalar 'Z'] = c :: r :=
    List.exists_cons_of_ne_nil (by simp)
  have hlast : (c :: r).getLast? = some (.scalar 'Z') := by rw [← hcr, List.getLast?_concat]
  rw [hcr] at hcand ⊢
  rcases hread : fromisoformat (s ++ utcOffset) with - | ⟨parsed, - | offset⟩
  · simp only [parseRfc3339, hlast, if_true, hcand, hread]
  · simp only [parseRfc3339, hlast, if_true, hcand, hread]
  · cases ht : Datetime.ofInstant? (parsed - offset) with
    | none => simp only [parseRfc3339, hlast, if_true, hcand, hread, ht]
    | some t => simp only [parseRfc3339, hlast, if_true, hcand, hread, ht]

theorem parse_zulu_none {s : Str} (h : fromisoformat (s ++ utcOffset) = none) :
    parseRfc3339 (.str (s ++ [.scalar 'Z'])) = .error (.valueError (.malformed (s ++ utcOffset))) := by
  rw [parse_zulu, h]

theorem parse_zulu_some {s : Str} {t : Datetime}
    (h : fromisoformat (s ++ utcOffset) = some (t.micros, some 0)) :
    parseRfc3339 (.str (s ++ [.scalar 'Z'])) = .ok t := by
  have hinstant : Datetime.ofInstant? ((t.micros : ℤ) - 0) = some t := by
    rw [sub_zero]
    exact Datetime.ofInstant?_instant t
  rw [parse_zulu]
  split
  · rename_i hnone
    cases h.symm.trans hnone
  · rename_i hnaive
    cases h.symm.trans hnaive
  · rename_i hread
    obtain ⟨rfl, hzero⟩ := Prod.mk.inj (Option.some.inj (h.symm.trans hread))
    obtain rfl := Option.some.inj hzero
    rw [hinstant]

variable {P : Platform} {t u : Datetime}

/-- A year that is read back: `%Y` pads it, or it has four digits. -/
def Platform.Dates (P : Platform) (t : Datetime) : Prop := P.padsYear = true ∨ 1000 ≤ t.year

instance (P : Platform) (t : Datetime) : Decidable (P.Dates t) := by
  unfold Platform.Dates
  infer_instance

theorem yearText_fixed (h : P.Dates t) : yearText P.padsYear t.year = fixed 4 t.year := by
  have hlt : t.year < 10000 := year_lt t.ordinal_bounds.1 t.ordinal_bounds.2
  unfold yearText
  split_ifs with hp
  · rfl
  · exact natText_eq_fixed (w := 3) (h.resolve_left hp) hlt

/-- **A written timestamp** is a stamp in UTC, of its instant cut to milliseconds. -/
theorem format_stamp (h : P.Dates t) : ∃ s, formatRfc3339 P t = s ++ [.scalar 'Z'] ∧
    fromisoformat (s ++ utcOffset) = some (t.toMillis.micros, some 0) := by
  obtain ⟨hord, hv⟩ := ord2ymd_spec t.ordinal_bounds.1
  have hy := year_lt t.ordinal_bounds.1 t.ordinal_bounds.2
  have htod := t.timeOfDay_lt
  have hmicros := t.micros_eq
  refine ⟨dateText t.year (ord2ymd t.ordinal).2.1 (ord2ymd t.ordinal).2.2 ++
    .scalar 'T' :: clockText (t.timeOfDay / second / 3600) (t.timeOfDay / second / 60 % 60)
      (t.timeOfDay / second % 60) (t.timeOfDay % second / 1000), ?_, ?_⟩
  · rw [formatRfc3339_eq, dateText, clockText, ← yearText_fixed h, Datetime.year]
    simp only [List.append_assoc, List.cons_append]
  · rw [List.append_assoc, List.cons_append]
    simp only [second] at htod ⊢
    rw [Datetime.year, fromisoformat_stamp hv hy (by omega) (by omega) (by omega) (by omega), hord]
    simp only [TimeParts.micros, second, day, Datetime.toMillis, Option.some.injEq, Prod.mk.injEq,
      and_true] at hmicros ⊢
    omega

/-- **A written timestamp reads as its instant cut to milliseconds.** -/
theorem parse_format (h : P.Dates t) :
    parseRfc3339 (.str (formatRfc3339 P t)) = .ok t.toMillis := by
  obtain ⟨s, hs, hread⟩ := format_stamp h
  rw [hs]
  exact parse_zulu_some hread

/-- **What a written timestamp reads as.** -/
theorem parse_format_iff :
    parseRfc3339 (.str (formatRfc3339 P t)) = .ok u ↔ P.Dates t ∧ u = t.toMillis := by
  by_cases h : P.Dates t
  · rw [parse_format h, Except.ok.injEq]
    simp only [h, true_and, eq_comm]
  · simp only [h, false_and, iff_false]
    intro hu
    obtain ⟨hp, hlt⟩ := not_or.mp h
    have hread : ∀ r : Str, fromisoformat
        (yearText P.padsYear (ord2ymd t.ordinal).1 ++ .scalar '-' :: r) = none := by
      intro r
      rw [yearText, if_neg hp]
      exact fromisoformat_short (Nat.lt_of_not_le hlt) r
    rw [formatRfc3339_eq] at hu
    simp only [← List.cons_append, ← List.append_assoc] at hu
    rw [parse_zulu_none (by simp only [List.append_assoc, List.cons_append]; exact hread _)] at hu
    cases hu

/-! ## Heartbeats -/

namespace Heartbeat

/-- The heartbeat with its instants cut to milliseconds. -/
def toMillis (h : Heartbeat) : Heartbeat :=
  { h with issuedAt := h.issuedAt.toMillis, expiresAt := h.expiresAt.toMillis }

/-- What the contract asks of the fields that are no instants. -/
structure Proper (h : Heartbeat) : Prop where
  current : h.extensionVersion = EXTENSION_VERSION
  node_re : ∀ s, h.nodeId = some s → NODE_ID_RE s = true
  boot_re : ∀ s, h.bootId = some s → BOOT_ID_RE s = true
  seq_nonneg : ∀ n, h.sequence = some n → 0 ≤ n
  namespaced : ∀ p ∈ h.extensions, McpHeartbeat.namespaced p.1 = true

/-- The window of a heartbeat. -/
def Windowed (h : Heartbeat) : Prop :=
  0 < h.expiresAt.instant - h.issuedAt.instant ∧
    h.expiresAt.instant - h.issuedAt.instant ≤ MAX_LEASE

end Heartbeat

variable {h g : Heartbeat}

theorem unknownViolations_members (P : Platform) (h : Heartbeat) :
    Members.unknownViolations (h.members P) = [] := by
  unfold Members.unknownViolations
  rw [List.map_eq_nil_iff, List.filter_eq_nil_iff]
  intro p hp
  have hkey : p.1 ∈ REQUIRED_FIELDS ∨ p.1 = EXTENSIONS_KEY := by
    rcases List.mem_append.mp hp with hp | hp
    · exact Or.inl (List.mem_map_of_mem (f := Prod.fst) hp)
    · split_ifs at hp
      · cases hp
      · exact Or.inr (congrArg Prod.fst (List.mem_singleton.mp hp))
  rcases hkey with hkey | hkey <;> simp [hkey]

theorem get_extensions (P : Platform) (h : Heartbeat) :
    (Members.get (h.members P) EXTENSIONS_KEY = .null ∧ h.extensions = []) ∨
      Members.get (h.members P) EXTENSIONS_KEY = .obj h.extensions := by
  by_cases he : h.extensions = []
  · exact Or.inl ⟨by simp only [Heartbeat.members, he, if_true]; rfl, he⟩
  · exact Or.inr (by simp only [Heartbeat.members, he, if_false]; rfl)

/-- **The document of a proper heartbeat** reads as the heartbeat cut to milliseconds. -/
theorem toDict_reads (hp : h.Proper) (hi : P.Dates h.issuedAt) (he : P.Dates h.expiresAt)
    (hw : h.toMillis.Windowed) : Reads (h.toDict P) h.toMillis := by
  refine reads_iff.mpr ⟨h.members P, rfl, ?_⟩
  exact {
    version := congrArg (fun v => some (Json.str v)) hp.current
    node := rfl
    boot := rfl
    seq := rfl
    node_re := hp.node_re
    boot_re := hp.boot_re
    seq_nonneg := hp.seq_nonneg
    issued := parse_format hi
    expires := parse_format he
    window := hw
    current := hp.current
    extensions := get_extensions P h
    namespaced := hp.namespaced
    unknown := unknownViolations_members P h }

/-- Two instants a lease apart are written with four digits of the year, if the first is. -/
theorem dates_of_lease (P : Platform) {lease : ℤ} (hyear : 1000 ≤ h.issuedAt.year)
    (he : h.expiresAt.instant = h.issuedAt.instant + lease) (hl : 1000 ≤ lease) :
    P.Dates h.issuedAt ∧ P.Dates h.expiresAt := by
  refine ⟨Or.inr hyear, Or.inr (hyear.trans ?_)⟩
  apply ord2ymd_year_mono h.issuedAt.ordinal_bounds.1
  apply Nat.succ_le_succ
  apply Nat.div_le_div_right
  simp only [Datetime.instant] at he
  omega

/-- **The window of a lease, cut to milliseconds**, is positive and no longer than an hour. -/
theorem windowed_of_lease {lease : ℤ} (he : h.expiresAt.instant = h.issuedAt.instant + lease)
    (hl : 1000 ≤ lease) (hu : lease ≤ MAX_LEASE) : h.toMillis.Windowed := by
  show 0 < h.expiresAt.toMillis.instant - h.issuedAt.toMillis.instant ∧
    h.expiresAt.toMillis.instant - h.issuedAt.toMillis.instant ≤ MAX_LEASE
  simp only [Datetime.instant, Datetime.toMillis, MAX_LEASE, second] at he hu ⊢
  omega

/-- What is cut from the instants is not written. -/
theorem toDict_toMillis (P : Platform) (h : Heartbeat) : h.toMillis.toDict P = h.toDict P := by
  have hcut : ∀ t : Datetime, formatRfc3339 P t.toMillis = formatRfc3339 P t := by
    intro t
    rw [formatRfc3339_eq_iff]
    exact Nat.mul_div_cancel _ (by omega)
  unfold Heartbeat.toDict Heartbeat.toMillis
  rw [hcut, hcut]

/-- An instant that its text names: its year is read back, and it is a whole millisecond. -/
def Platform.Names (P : Platform) (t : Datetime) : Prop := P.Dates t ∧ t.micros % 1000 = 0

instance (P : Platform) (t : Datetime) : Decidable (P.Names t) := by
  unfold Platform.Names
  infer_instance

/-- **When the document of a proper heartbeat reads as that heartbeat.** -/
theorem toDict_reads_iff (hp : h.Proper) (hw : h.Windowed) :
    Reads (h.toDict P) h ↔ P.Names h.issuedAt ∧ P.Names h.expiresAt := by
  constructor
  · intro hr
    obtain ⟨m, hm, hc⟩ := reads_iff.mp hr
    obtain rfl : h.members P = m := Json.obj.inj hm
    obtain ⟨hi, hi'⟩ := parse_format_iff.mp hc.issued
    obtain ⟨he, he'⟩ := parse_format_iff.mp hc.expires
    exact ⟨⟨hi, Datetime.toMillis_eq_iff.mp hi'.symm⟩, ⟨he, Datetime.toMillis_eq_iff.mp he'.symm⟩⟩
  · rintro ⟨⟨hi, hi'⟩, ⟨he, he'⟩⟩
    have hsame : h.toMillis = h := by
      unfold Heartbeat.toMillis
      rw [Datetime.toMillis_eq_iff.mpr hi', Datetime.toMillis_eq_iff.mpr he']
    have hread := toDict_reads hp hi he (hsame.symm ▸ hw)
    rwa [hsame] at hread

theorem Reads.proper {d : Json} (hr : Reads d h) : h.Proper ∧ h.Windowed := by
  obtain ⟨m, -, hc⟩ := reads_iff.mp hr
  exact ⟨⟨hc.current, hc.node_re, hc.boot_re, hc.seq_nonneg, hc.namespaced⟩, hc.window⟩

theorem Members.mem_of_item {m : Members} {key : Str} {v : Json} (hv : m.item key = some v) :
    (key, v) ∈ m := by
  obtain ⟨pre, post, rfl, -⟩ := List.lookup_eq_some_iff.mp hv
  exact List.mem_append_right _ List.mem_cons_self

/-- **Decoding undoes encoding** exactly for the heartbeats whose two instants their texts name. A
document that passes and has no null member reads as a heartbeat; its own document passes and
reads as the same heartbeat just if both instants are whole milliseconds and their years are
written with four digits. -/
theorem round_trip_exactly_when (P : Platform) {m : Members}
    (hreason : documentReason (.obj m) = .ok none) (hnull : ∀ p ∈ m, p.2 ≠ .null) :
    ∃ h, Heartbeat.fromDict (.obj m) = .ok h ∧
      (documentReason (h.toDict P) = .ok none ∧ Heartbeat.fromDict (h.toDict P) = .ok h ↔
        P.Names h.issuedAt ∧ P.Names h.expiresAt) := by
  have hget : ∀ {key}, m.has key = true → m.get key ≠ .null := by
    intro key hk hn
    exact hnull _ (Members.mem_of_item (Members.item_of_has hk)) hn
  obtain ⟨-, -, hv⟩ := Members.reason_eq_none.mp hreason
  obtain ⟨-, -, -, -, -, hmiss, -⟩ := m.violations_eq_nil.mp hv
  have hall := Members.missingViolations_eq_nil.mp hmiss
  rcases Members.heartbeat_of_reason hreason with ⟨-, h, hh⟩ | ⟨hn | hn, -⟩
  · have hr : Reads (.obj m) h := ⟨hreason, hh⟩
    refine ⟨h, hh, ?_⟩
    rw [← toDict_reads_iff hr.proper.1 hr.proper.2]
    exact ⟨fun ⟨h₁, h₂⟩ => ⟨h₁, h₂⟩, fun hread => ⟨hread.reason, hread.parse⟩⟩
  · exact absurd hn (hget (hall _ (by decide)))
  · exact absurd hn (hget (hall _ (by decide)))

/-- The members of a document of the participant `node`. -/
def beatMembers (issuedAt expiresAt : String) : Members :=
  [(py "extension_version", .str EXTENSION_VERSION), (py "node_id", .str (py "node")),
    (py "boot_id", .str (py "boot")), (py "sequence", .int 0),
    (py "issued_at", .str (py issuedAt)), (py "expires_at", .str (py expiresAt))]

theorem round_trip_exactly_when_local :
    let m := beatMembers "2026-01-01T00:00:00.250+01:00" "2026-01-01T00:00:30+01:00"
    ∃ h, Heartbeat.fromDict (.obj m) = .ok h ∧
      (documentReason (h.toDict plainPlatform) = .ok none ∧
        Heartbeat.fromDict (h.toDict plainPlatform) = .ok h ↔
          plainPlatform.Names h.issuedAt ∧ plainPlatform.Names h.expiresAt) :=
  round_trip_exactly_when plainPlatform (by decide +kernel) (by simp [beatMembers])

/-- **Decoding does not always undo encoding**: a window within one millisecond is lost. -/
theorem round_trip_broken : ¬ ∀ (P : Platform) (m : Members),
    documentReason (.obj m) = .ok none → (∀ p ∈ m, p.2 ≠ .null) →
      ∃ h, Heartbeat.fromDict (.obj m) = .ok h ∧ documentReason (h.toDict P) = .ok none ∧
        Heartbeat.fromDict (h.toDict P) = .ok h := by
  intro hall
  let m := beatMembers "2026-01-01T00:00:00.000100Z" "2026-01-01T00:00:00.000900Z"
  have hreason : documentReason (.obj m) = .ok none := by decide +kernel
  obtain ⟨h, hh, hr, hp⟩ := hall plainPlatform m hreason (by simp [m, beatMembers])
  have hissued : (Heartbeat.fromDict (.obj m)).toOption.map (fun h => h.issuedAt.micros % 1000) =
      some 100 := by decide +kernel
  have hread : Reads (.obj m) h := ⟨hreason, hh⟩
  obtain ⟨⟨-, hmilli⟩, -⟩ := (toDict_reads_iff hread.proper.1 hread.proper.2).mp ⟨hr, hp⟩
  rw [hh, Except.toOption, Option.map_some, hmilli] at hissued
  cases hissued

end McpHeartbeat
