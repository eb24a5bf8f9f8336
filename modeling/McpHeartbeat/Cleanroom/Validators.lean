import McpHeartbeat.Cleanroom.Participant
import McpHeartbeat.Core.Schema

/-!
# Two validators

What the clean-room validator accepts, against the reference one.

* `parse_ok_iff`, `overflows_iff`, `parseTimestamp_eq_none`: the two readers of a timestamp differ on
  an instant outside the calendar only, where the reference raises;
* `CleanRoom.violations_nil_iff`: the clean-room validator, in the terms of the contract;
* **`validators_agree_exactly_when`**: the two accept the same objects, and neither raises, exactly on
  the objects without such an instant and without a null timestamp as their only defect.
-/

namespace McpHeartbeat

/-- Neither validator takes a float for a sequence. -/
def noFloat : FloatRules := ⟨fun _ => false, fun _ _ => false⟩

theorem not_isWholeFloat {v : Json} : ¬ v.IsWholeFloat noFloat := fun ⟨_, _, h, _⟩ => by cases h

/-! ## Timestamps -/

section Timestamps

variable {v : Json}

/-- **Both readers, on any value.** -/
theorem parse_eq (v : Json) :
    (∃ n, CleanRoom.parseTimestamp v = some n ∧ parseRfc3339 v =
      match Datetime.ofInstant? n with | none => .error .overflowError | some t => .ok t) ∨
    (CleanRoom.parseTimestamp v = none ∧ ∃ f, parseRfc3339 v = .error (.valueError f)) := by
  cases v with
  | str s =>
    cases s with
    | nil => exact Or.inr ⟨rfl, .notText, rfl⟩
    | cons c s =>
      simp only [CleanRoom.parseTimestamp, parseRfc3339]
      generalize (if (c :: s).getLast? = some (.scalar 'Z') then (c :: s).dropLast ++ py "+00:00"
        else c :: s) = candidate
      rcases fromisoformat candidate with _ | ⟨parsed, _ | offset⟩
      · exact Or.inr ⟨rfl, _, rfl⟩
      · exact Or.inr ⟨rfl, _, rfl⟩
      · exact Or.inl ⟨parsed - offset, rfl, rfl⟩
  | _ => exact Or.inr ⟨rfl, .notText, rfl⟩

theorem parse_ok_iff {t : Datetime} :
    parseRfc3339 v = .ok t ↔ CleanRoom.parseTimestamp v = some t.instant := by
  rcases parse_eq v with ⟨n, hn, hr⟩ | ⟨hn, f, hr⟩ <;> rw [hn, hr]
  · constructor
    · intro h
      split at h
      · cases h
      · rename_i u hu
        obtain rfl := Except.ok.inj h
        rw [Datetime.ofInstant?_eq_some hu]
    · intro h
      obtain rfl := Option.some.inj h
      rw [Datetime.ofInstant?_instant]
  · simp

/-- The reference raises on an instant the clean room reads outside the calendar. -/
theorem overflows_iff : Overflows v ↔
    ∃ n, CleanRoom.parseTimestamp v = some n ∧ Datetime.ofInstant? n = none := by
  unfold Overflows
  rcases parse_eq v with ⟨n, hn, hr⟩ | ⟨hn, f, hr⟩ <;> rw [hn, hr]
  · cases ho : Datetime.ofInstant? n <;> simp [ho]
  · simp

theorem parseTimestamp_eq_none :
    CleanRoom.parseTimestamp v = none ↔ ∃ f, parseRfc3339 v = .error (.valueError f) := by
  rcases parse_eq v with ⟨n, hn, hr⟩ | ⟨hn, hr⟩
  · rw [hn, hr]
    cases Datetime.ofInstant? n <;> simp
  · simp only [hn, hr]

/-- Within the calendar the clean room reads what the reference reads. -/
theorem isStamp_iff_parseTimestamp (ho : ¬ Overflows v) :
    v.IsStamp ↔ CleanRoom.parseTimestamp v ≠ none := by
  rw [Ne, parseTimestamp_eq_none, Json.IsStamp]
  rcases attempt_parse v with ⟨t, ht, -⟩ | ⟨f, hf, -⟩ | ⟨h, -⟩
  · simp [ht]
  · simp [hf]
  · exact absurd h ho

end Timestamps

/-! ## The clean-room validator -/

namespace CleanRoom

variable {m : Members}

theorem missingViolations_eq_nil :
    missingViolations m = [] ↔ ∀ key ∈ CORE_FIELDS, m.has key = true := by
  simp [missingViolations, REQUIRED_FIELDS, CORE_FIELDS]

theorem versionViolations_eq_nil : versionViolations m = [] ↔
    m.get (py "extension_version") = .null ∨
      m.get (py "extension_version") = .str EXTENSION_VERSION := by
  unfold versionViolations
  cases m.get (py "extension_version") <;> simp

theorem nodeIdViolations_eq_nil : nodeIdViolations m = [] ↔
    m.get (py "node_id") = .null ∨ (m.get (py "node_id")).IsWord NODE_ID_PATTERN := by
  unfold nodeIdViolations
  cases m.get (py "node_id") <;> simp [Json.IsWord]

theorem bootIdViolations_eq_nil : bootIdViolations m = [] ↔
    m.get (py "boot_id") = .null ∨ (m.get (py "boot_id")).IsWord BOOT_ID_PATTERN := by
  unfold bootIdViolations
  cases m.get (py "boot_id") <;> simp [Json.IsWord]

theorem sequenceViolations_eq_nil : sequenceViolations m = [] ↔
    m.get (py "sequence") = .null ∨ ∃ n, m.get (py "sequence") = .int n ∧ 0 ≤ n := by
  unfold sequenceViolations
  cases m.get (py "sequence") <;> simp

theorem timestampViolations_eq_nil {name : Str} (h : m.has name = true) :
    timestampViolations m name = [] ↔ parseTimestamp (m.get name) ≠ none := by
  simp [timestampViolations, h]

theorem windowViolations_eq_nil {i e : ℤ} :
    windowViolations (some i) (some e) = [] ↔ 0 < e - i ∧ e - i ≤ MAX_LEASE := by
  unfold windowViolations
  dsimp only
  split_ifs with h₁ h₂ <;> simp <;> omega

theorem extensionsViolations_eq_nil : extensionsViolations m = [] ↔
    m.get EXTENSIONS_KEY = .null ∨
      ∃ e, m.get EXTENSIONS_KEY = .obj e ∧ ∀ p ∈ e, namespaced p.1 = true := by
  unfold extensionsViolations
  rw [← show EXTENSIONS_KEY = py "extensions" from rfl]
  cases m.get EXTENSIONS_KEY <;> simp [List.filter_eq_nil_iff, namespaced]

theorem unknownViolations_eq_nil : unknownViolations m = [] ↔ m.NoUnknown := by
  unfold unknownViolations Members.NoUnknown
  rw [List.map_eq_nil_iff, List.filter_eq_nil_iff]
  apply forall₂_congr
  intro p _
  rw [← or_assoc, or_iff_not_imp_left, not_or]
  simp [REQUIRED_FIELDS, CORE_FIELDS, EXTENSIONS_KEY, namespaced]

/-- **Within the calendar the clean-room validator is the contract without null timestamps.** -/
theorem violations_nil_iff (hi : ¬ Overflows (m.get (py "issued_at")))
    (he : ¬ Overflows (m.get (py "expires_at"))) : violations m = [] ↔
      m.Passable noFloat ∧ m.get (py "issued_at") ≠ .null ∧ m.get (py "expires_at") ≠ .null := by
  simp only [violations, List.append_eq_nil_iff, and_assoc, missingViolations_eq_nil,
    versionViolations_eq_nil, nodeIdViolations_eq_nil, bootIdViolations_eq_nil,
    sequenceViolations_eq_nil, extensionsViolations_eq_nil, unknownViolations_eq_nil]
  constructor
  · rintro ⟨hreq, hv, hn, hb, hs, hti, hte, hw, hx, hu⟩
    rw [timestampViolations_eq_nil (hreq _ (by decide)), ← isStamp_iff_parseTimestamp hi] at hti
    rw [timestampViolations_eq_nil (hreq _ (by decide)), ← isStamp_iff_parseTimestamp he] at hte
    obtain ⟨i, hi'⟩ := hti
    obtain ⟨e, he'⟩ := hte
    rw [parse_ok_iff.mp hi', parse_ok_iff.mp he'] at hw
    refine ⟨?_, ?_, ?_⟩
    · exact {
        required := hreq
        version := hv
        node := hn
        boot := hb
        seq := hs.imp_right Or.inl
        issued := Or.inr ⟨i, hi'⟩
        expires := Or.inr ⟨e, he'⟩
        extensions := hx
        unknown := hu
        window := fun i₂ e₂ hi₂ he₂ => by
          obtain rfl := Except.ok.inj (hi'.symm.trans hi₂)
          obtain rfl := Except.ok.inj (he'.symm.trans he₂)
          exact windowViolations_eq_nil.mp hw }
    · intro hnull
      rw [hnull] at hi'
      cases hi'
    · intro hnull
      rw [hnull] at he'
      cases he'
  · rintro ⟨h, hni, hne⟩
    have hti := h.issued.resolve_left hni
    have hte := h.expires.resolve_left hne
    have hseq := h.seq.imp_right fun hs => hs.resolve_right not_isWholeFloat
    obtain ⟨i, hi'⟩ := hti
    obtain ⟨e, he'⟩ := hte
    refine ⟨h.required, h.version, h.node, h.boot, hseq, ?_, ?_, ?_, h.extensions, h.unknown⟩
    · rw [timestampViolations_eq_nil (h.required _ (by decide)), ← isStamp_iff_parseTimestamp hi]
      exact ⟨i, hi'⟩
    · rw [timestampViolations_eq_nil (h.required _ (by decide)), ← isStamp_iff_parseTimestamp he]
      exact ⟨e, he'⟩
    · rw [parse_ok_iff.mp hi', parse_ok_iff.mp he']
      exact windowViolations_eq_nil.mpr (h.window i e hi' he')

end CleanRoom

/-- **When the two validators agree and neither raises**: no timestamp leaves the calendar, and an
object that keeps the contract up to null members has no null timestamp. -/
theorem validators_agree_exactly_when (m : Members) :
    ((∃ out, validateDocument (.obj m) = .ok out) ∧
      (validateDocument (.obj m) = .ok [] ↔ CleanRoom.validate (.obj m) = [])) ↔
    (¬ Overflows (m.get (py "issued_at")) ∧ ¬ Overflows (m.get (py "expires_at"))) ∧
      (m.Passable noFloat →
        m.get (py "issued_at") ≠ .null ∧ m.get (py "expires_at") ≠ .null) := by
  have hraise : (∃ out, validateDocument (.obj m) = .ok out) ↔
      ¬ Overflows (m.get (py "issued_at")) ∧ ¬ Overflows (m.get (py "expires_at")) := by
    rw [← not_or]
    constructor
    · rintro ⟨out, hout⟩ ho
      cases hout.symm.trans (Members.violations_error.mpr ⟨ho, rfl⟩)
    · intro ho
      cases hv : m.violations with
      | ok out => exact ⟨out, hv⟩
      | error e => exact absurd (Members.violations_error.mp hv).1 ho
  rw [hraise]
  apply and_congr_right
  rintro ⟨hi, he⟩
  rw [show CleanRoom.validate (.obj m) = CleanRoom.violations m from rfl,
    CleanRoom.violations_nil_iff hi he, validateDocument,
    Members.violations_nil_iff_passable noFloat, and_iff_left not_isWholeFloat]
  exact ⟨fun h hp => (h.mp hp).2, fun h => ⟨fun hp => ⟨hp, h hp⟩, And.left⟩⟩

/-- **The validators part** on a document whose `issued_at` is null: the reference takes it. -/
theorem validators_part : ¬ ∀ m : Members,
    (∃ out, validateDocument (.obj m) = .ok out) ∧
      (validateDocument (.obj m) = .ok [] ↔ CleanRoom.validate (.obj m) = []) := by
  intro hall
  let m : Members := [(py "extension_version", .str EXTENSION_VERSION),
    (py "node_id", .str (py "node")), (py "boot_id", .str (py "boot")), (py "sequence", .int 0),
    (py "issued_at", .null), (py "expires_at", .str (py "2026-01-01T00:00:30Z"))]
  have hreference : validateDocument (.obj m) = .ok [] := by decide +kernel
  have hclean : CleanRoom.validate (.obj m) ≠ [] := by decide +kernel
  exact hclean ((hall m).2.mp hreference)

-- before year 1, in UTC: the clean room accepts it and the reference raises
example :
    let m : Members := [(py "extension_version", .str EXTENSION_VERSION),
      (py "node_id", .str (py "node")), (py "boot_id", .str (py "boot")), (py "sequence", .int 0),
      (py "issued_at", .str (py "0001-01-01T00:30:00+01:00")),
      (py "expires_at", .str (py "0001-01-01T00:31:00+01:00"))]
    validateDocument (.obj m) = .error .overflowError ∧ CleanRoom.validate (.obj m) = [] := by
  decide +kernel

end McpHeartbeat
