import McpHeartbeat.Core.Totality

/-!
# The reason and the violations of a document

* `windowCode`: the code of two instants; `windowViolations_eq`, `expiryWindowViolation_eq`: the two
  checks of the window agree;
* `mem_violations_window`: the window is named by no other check;
* **`reason_agrees_with_violations`**: `document_reason`, `validate_document` and
  `Heartbeat.from_dict` decide a document alike.
-/

namespace McpHeartbeat

namespace Members

variable {m : Members}

/-- The code of the window of two instants. -/
def windowCode : Option Datetime → Option Datetime → Option ViolationCode
  | some issuedAt, some expiresAt =>
    if expiresAt.instant - issuedAt.instant ≤ 0 then some .invalidExpiryWindow
    else if MAX_LEASE < expiresAt.instant - issuedAt.instant then some .expiryWindowTooLong
    else none
  | _, _ => none

/-- The violation list names the window as the code does. -/
theorem windowViolations_eq (i e : Option Datetime) : windowViolations i e =
    match windowCode i e with
    | some .invalidExpiryWindow => [.window]
    | some .expiryWindowTooLong => [.leaseWindow]
    | _ => [] := by
  cases i with
  | none => rfl
  | some i =>
    cases e with
    | none => rfl
    | some e =>
      unfold windowViolations windowCode
      dsimp only
      split_ifs <;> rfl

theorem windowCode_cases (i e : Option Datetime) : windowCode i e = none ∨
    windowCode i e = some .invalidExpiryWindow ∨ windowCode i e = some .expiryWindowTooLong := by
  unfold windowCode
  split
  · split_ifs <;> simp
  · exact .inl rfl

theorem mem_windowViolations (i e : Option Datetime) :
    (.window ∈ windowViolations i e ↔ windowCode i e = some .invalidExpiryWindow) ∧
      (.leaseWindow ∈ windowViolations i e ↔ windowCode i e = some .expiryWindowTooLong) := by
  rw [windowViolations_eq]
  rcases windowCode_cases i e with hcode | hcode | hcode <;> rw [hcode] <;> simp

/-- One timestamp, as the validator and as the window check read it. -/
theorem stamp_agrees {name : Str} (h : ¬ Overflows (m.get name)) : ∃ o out,
    m.readTimestamp name = .ok (o, out) ∧
      ((∃ t, o = some t ∧ (m.getItem name >>= parseRfc3339) = .ok t) ∨
        (o = none ∧ ∃ e, (m.getItem name >>= parseRfc3339) = .error e ∧
          e.isLookupOrValue = true)) := by
  by_cases hhas : m.has name = true
  · rw [getItem_of_has hhas, ok_bind]
    rcases readTimestamp_cases m name with ⟨hn, hr⟩ | ⟨t, ht, hr⟩ | ⟨-, ⟨f, hf⟩, hr⟩ | ⟨ho, -⟩
    · exact ⟨_, _, hr, .inr ⟨rfl, _, by rw [hn, parse_null], rfl⟩⟩
    · exact ⟨_, _, hr, .inl ⟨t, rfl, ht⟩⟩
    · exact ⟨_, _, hr, .inr ⟨rfl, _, hf, rfl⟩⟩
    · exact absurd ho h
  · -- a missing member reads as null, and is a `KeyError` of the window check
    have hitem : m.item name = none := by
      rw [← Option.not_isSome_iff_eq_none, ← has_iff]
      exact hhas
    have hread : m.readTimestamp name = .ok (none, []) := by
      rw [readTimestamp, get_of_not_has hhas]
    exact ⟨_, _, hread, .inr ⟨rfl, .keyError name, by rw [getItem, hitem]; rfl, rfl⟩⟩

/-- **The window check reads what the validator reads.** -/
theorem expiryWindowViolation_eq (hi : ¬ Overflows (m.get (py "issued_at")))
    (he : ¬ Overflows (m.get (py "expires_at"))) : ∃ i e o₁ o₂,
    m.readTimestamp (py "issued_at") = .ok (i, o₁) ∧
      m.readTimestamp (py "expires_at") = .ok (e, o₂) ∧
      m.expiryWindowViolation = .ok (windowCode i e) := by
  obtain ⟨i, o₁, hi, hci⟩ := stamp_agrees hi
  obtain ⟨e, o₂, he, hce⟩ := stamp_agrees he
  refine ⟨i, e, o₁, o₂, hi, he, ?_⟩
  have hnone : ∀ {err : Error}, err.isLookupOrValue = true → m.stamps = .error err →
      m.expiryWindowViolation = .ok none := by
    intro err hl hs
    rw [expiryWindowViolation, hs, attempt, if_pos hl]
    rfl
  rcases hci with ⟨ti, rfl, hti⟩ | ⟨rfl, err, herr, hl⟩
  · rcases hce with ⟨te, rfl, hte⟩ | ⟨rfl, err, herr, hl⟩
    · have hs : m.stamps = .ok (ti, te) := by
        rw [stamps_eq, hti, hte]
        rfl
      rw [expiryWindowViolation, hs]
      rfl
    · exact hnone hl (by rw [stamps_eq, hti, herr]; rfl)
  · have hcode : windowCode none e = none := rfl
    rw [hcode]
    exact hnone hl (by rw [stamps_eq, herr]; rfl)

/-- The violations of every check but that of the window. -/
theorem not_window_of_mem {x : Violation} {name : Str} {o : Option Datetime} {out : List Violation}
    (hread : m.readTimestamp name = .ok (o, out))
    (hx : x ∈ m.missingViolations ∨ x ∈ m.versionViolations ∨ x ∈ m.nodeIdViolations ∨
      x ∈ m.bootIdViolations ∨ x ∈ m.sequenceViolations ∨ x ∈ out ∨ x ∈ m.extensionsViolations ∨
      x ∈ m.unknownViolations) : x ≠ .window ∧ x ≠ .leaseWindow := by
  rcases hx with hx | hx | hx | hx | hx | hx | hx | hx
  · obtain ⟨_, -, rfl⟩ := List.mem_map.mp hx
    simp
  · unfold versionViolations at hx
    split at hx
    · simp at hx
    · split_ifs at hx <;> simp_all
  · unfold nodeIdViolations at hx
    split at hx
    · simp at hx
    · split_ifs at hx <;> simp_all
    · simp_all
  · unfold bootIdViolations at hx
    split at hx
    · simp at hx
    · split_ifs at hx <;> simp_all
    · simp_all
  · unfold sequenceViolations at hx
    split at hx
    · simp at hx
    · split_ifs at hx <;> simp_all
    · simp_all
  · rcases readTimestamp_cases m name with ⟨-, hr⟩ | ⟨t, -, hr⟩ | ⟨-, -, hr⟩ | ⟨-, hr⟩
    · obtain ⟨-, rfl⟩ := Prod.mk.inj (Except.ok.inj (hr.symm.trans hread))
      simp at hx
    · obtain ⟨-, rfl⟩ := Prod.mk.inj (Except.ok.inj (hr.symm.trans hread))
      simp at hx
    · obtain ⟨-, rfl⟩ := Prod.mk.inj (Except.ok.inj (hr.symm.trans hread))
      simp [List.mem_singleton.mp hx]
    · cases hr.symm.trans hread
  · unfold extensionsViolations at hx
    split at hx
    · simp at hx
    · obtain ⟨_, -, rfl⟩ := List.mem_map.mp hx
      simp
    · simp_all
  · obtain ⟨_, -, rfl⟩ := List.mem_map.mp hx
    simp

/-- **Only the window check names the window.** -/
theorem mem_violations_window {i e : Option Datetime} {o₁ o₂ out : List Violation}
    (hi : m.readTimestamp (py "issued_at") = .ok (i, o₁))
    (he : m.readTimestamp (py "expires_at") = .ok (e, o₂)) (hout : m.violations = .ok out)
    {x : Violation} (hx : x = .window ∨ x = .leaseWindow) :
    x ∈ out ↔ x ∈ windowViolations i e := by
  obtain rfl := Except.ok.inj ((violations_eq hi he).symm.trans hout)
  have hno : ∀ h : x ≠ .window ∧ x ≠ .leaseWindow, x ∈ windowViolations i e := by
    rintro ⟨h₁, h₂⟩
    exact absurd hx (by simp [h₁, h₂])
  have hi' := not_window_of_mem (x := x) hi
  have he' := not_window_of_mem (x := x) he
  simp only [List.mem_append]
  constructor
  · rintro (((((((((h | h) | h) | h) | h) | h) | h) | h) | h) | h)
    · exact hno (hi' (.inl h))
    · exact hno (hi' (.inr (.inl h)))
    · exact hno (hi' (.inr (.inr (.inl h))))
    · exact hno (hi' (.inr (.inr (.inr (.inl h)))))
    · exact hno (hi' (.inr (.inr (.inr (.inr (.inl h))))))
    · exact hno (hi' (.inr (.inr (.inr (.inr (.inr (.inl h)))))))
    · exact hno (he' (.inr (.inr (.inr (.inr (.inr (.inl h)))))))
    · exact h
    · exact hno (hi' (.inr (.inr (.inr (.inr (.inr (.inr (.inl h))))))))
    · exact hno (hi' (.inr (.inr (.inr (.inr (.inr (.inr (.inr h))))))))
  · exact fun h => .inl (.inl (.inr h))

end Members

/-- A timestamp member that `parse_rfc3339` reads, or refuses with a `ValueError`. -/
def ReadOrRefused (v : Json) : Prop :=
  (∃ t, parseRfc3339 v = .ok t) ∨ ∃ fault, parseRfc3339 v = .error (.valueError fault)

theorem readOrRefused_iff {v : Json} : ReadOrRefused v ↔ ¬ Overflows v := by
  rw [ReadOrRefused]
  rcases attempt_parse v with ⟨t, ht, -⟩ | ⟨f, hf, -⟩ | ⟨ho, -⟩
  · simp [Overflows, ht]
  · simp [Overflows, hf]
  · have ho' : parseRfc3339 v = .error .overflowError := ho
    simp [Overflows, ho']

/-- What the three functions agree on, for the violations `out` and the reason `r` of `m`. -/
structure Agrees (m : Members) (out : List Violation) (r : Option ViolationCode) : Prop where
  version : r = some .unsupportedExtensionVersion ↔
    m.get (py "extension_version") ≠ .str EXTENSION_VERSION
  window : m.get (py "extension_version") = .str EXTENSION_VERSION →
    (r = some .invalidExpiryWindow ↔ .window ∈ out)
  leaseWindow : m.get (py "extension_version") = .str EXTENSION_VERSION →
    (r = some .expiryWindowTooLong ↔ .leaseWindow ∈ out)
  passes : m.get (py "extension_version") = .str EXTENSION_VERSION → (r = none ↔ out = [])
  schema : m.get (py "extension_version") = .str EXTENSION_VERSION →
    (r = some .schemaInvalid ↔ out ≠ [] ∧ .window ∉ out ∧ .leaseWindow ∉ out)
  unsupported : r = some .unsupportedExtensionVersion → Heartbeat.fromDict (.obj m) =
    .error (.heartbeat (.unsupportedExtensionVersion (m.get (py "extension_version"))
      EXTENSION_VERSION))
  invalid : ∀ code, r = some code → code ≠ .unsupportedExtensionVersion →
    Heartbeat.fromDict (.obj m) = .error (.heartbeat (.invalidHeartbeat out))

section Parts

variable {m : Members} {out : List Violation} {i e : Option Datetime}

/-- A document of another version is refused as that by all three. -/
theorem agrees_unsupported (hv : m.get (py "extension_version") ≠ .str EXTENSION_VERSION)
    (out : List Violation) : documentReason (.obj m) = .ok (some .unsupportedExtensionVersion) ∧
      Agrees m out (some .unsupportedExtensionVersion) := by
  have hreason : documentReason (.obj m) = .ok (some .unsupportedExtensionVersion) := by
    show Members.reason m = _
    rw [Members.reason, if_pos hv]
  have hfrom : Heartbeat.fromDict (.obj m) = .error (.heartbeat
      (.unsupportedExtensionVersion (m.get (py "extension_version")) EXTENSION_VERSION)) := by
    show Members.heartbeat m = _
    simp only [Members.heartbeat, ne_eq, hv, not_false_eq_true, if_true]
  refine ⟨hreason, ?_⟩
  exact {
    version := iff_of_true rfl hv
    window := fun h => absurd h hv
    leaseWindow := fun h => absurd h hv
    passes := fun h => absurd h hv
    schema := fun h => absurd h hv
    unsupported := fun _ => hfrom
    invalid := fun code hc hne => absurd (Option.some.inj hc).symm hne }

/-- Of a document of this version, the reason is the code of its window, or else the schema. -/
theorem documentReason_supported (hv : m.get (py "extension_version") = .str EXTENSION_VERSION)
    (hwindow : m.expiryWindowViolation = .ok (Members.windowCode i e))
    (hout : m.violations = .ok out) : documentReason (.obj m) =
      .ok ((Members.windowCode i e).or (if out = [] then none else some .schemaInvalid)) := by
  show Members.reason m = _
  rw [Members.reason, if_neg (not_not.mpr hv), hwindow, ok_bind]
  cases Members.windowCode i e with
  | some code => rfl
  | none =>
    rw [hout]
    rfl

theorem fromDict_violated (hv : m.get (py "extension_version") = .str EXTENSION_VERSION)
    (hout : m.violations = .ok out) (hne : out ≠ []) :
    Heartbeat.fromDict (.obj m) = .error (.heartbeat (.invalidHeartbeat out)) := by
  show Members.heartbeat m = _
  simp only [Members.heartbeat, hv, ne_eq, not_true_eq_false, if_false, hout, ok_bind, hne,
    not_false_eq_true, if_true, error_bind]

/-- The code of the window and the list agree, where the list names the window as the code does. -/
theorem agrees_supported (hv : m.get (py "extension_version") = .str EXTENSION_VERSION)
    (hw : .window ∈ out ↔ Members.windowCode i e = some .invalidExpiryWindow)
    (hl : .leaseWindow ∈ out ↔ Members.windowCode i e = some .expiryWindowTooLong)
    (hfrom : out ≠ [] → Heartbeat.fromDict (.obj m) =
      .error (.heartbeat (.invalidHeartbeat out))) :
    Agrees m out ((Members.windowCode i e).or (if out = [] then none else some .schemaInvalid)) := by
  rcases Members.windowCode_cases i e with hcode | hcode | hcode <;> rw [hcode] at hw hl ⊢
  · -- the window is not the problem: some other violation is, or none
    have hnw : Violation.window ∉ out := hw.not.mpr (by simp)
    have hnl : Violation.leaseWindow ∉ out := hl.not.mpr (by simp)
    by_cases hnil : out = []
    · simp only [hnil, if_true]
      exact ⟨by simp [hv], by simp, by simp, by simp, by simp, by simp, by simp⟩
    · simp only [hnil, if_false]
      exact ⟨by simp [hv], by simp [hnw], by simp [hnl], by simp [hnil], by simp [hnil, hnw, hnl],
        by simp, fun _ _ _ => hfrom hnil⟩
  · have hmw : Violation.window ∈ out := hw.mpr rfl
    have hnl : Violation.leaseWindow ∉ out := hl.not.mpr (by simp)
    have hne : out ≠ [] := List.ne_nil_of_mem hmw
    exact ⟨by simp [hv], by simp [hmw], by simp [hnl], by simp [hne], by simp [hmw],
      by simp, fun _ _ _ => hfrom hne⟩
  · have hnw : Violation.window ∉ out := hw.not.mpr (by simp)
    have hml : Violation.leaseWindow ∈ out := hl.mpr rfl
    have hne : out ≠ [] := List.ne_nil_of_mem hml
    exact ⟨by simp [hv], by simp [hnw], by simp [hml], by simp [hne], by simp [hml],
      by simp, fun _ _ _ => hfrom hne⟩

end Parts

/-- **The reason and the violation list never disagree**, nor does `Heartbeat.from_dict`. -/
theorem reason_agrees_with_violations (m : Members) (hi : ReadOrRefused (m.get (py "issued_at")))
    (he : ReadOrRefused (m.get (py "expires_at"))) :
    ∃ out r, validateDocument (.obj m) = .ok out ∧ documentReason (.obj m) = .ok r ∧
      Agrees m out r := by
  obtain ⟨i, e, o₁, o₂, hri, hre, hwindow⟩ :=
    Members.expiryWindowViolation_eq (readOrRefused_iff.mp hi) (readOrRefused_iff.mp he)
  obtain ⟨out, hout⟩ : ∃ out, m.violations = .ok out := ⟨_, Members.violations_eq hri hre⟩
  have hmem : ∀ x, x = .window ∨ x = .leaseWindow → (x ∈ out ↔ x ∈ Members.windowViolations i e) :=
    fun x hx => Members.mem_violations_window hri hre hout hx
  obtain ⟨hw, hl⟩ := Members.mem_windowViolations i e
  by_cases hv : m.get (py "extension_version") = .str EXTENSION_VERSION
  · exact ⟨out, _, hout, documentReason_supported hv hwindow hout,
      agrees_supported hv ((hmem .window (.inl rfl)).trans hw)
        ((hmem .leaseWindow (.inr rfl)).trans hl) (fromDict_violated hv hout)⟩
  · obtain ⟨hreason, hagrees⟩ := agrees_unsupported hv out
    exact ⟨out, _, hout, hreason, hagrees⟩

/-- A document of this version with a negative sequence and an expiry before its issue. -/
theorem reason_agrees_with_violations_backwards :
    let m : Members := [(py "extension_version", .str EXTENSION_VERSION),
      (py "sequence", .int (-1)),
      (py "issued_at", .str (py "2026-01-01T00:00:30Z")),
      (py "expires_at", .str (py "2026-01-01T00:00:00Z"))]
    ∃ out r, validateDocument (.obj m) = .ok out ∧ documentReason (.obj m) = .ok r ∧
      Agrees m out r :=
  reason_agrees_with_violations _ (readOrRefused_iff.mpr (by decide +kernel))
    (readOrRefused_iff.mpr (by decide +kernel))

end McpHeartbeat
