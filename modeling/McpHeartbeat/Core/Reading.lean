import McpHeartbeat.Core.Lineage

/-!
# What a document that passes the validator reads as

`Reads d h`: `document_reason(d)` is `None` and `Heartbeat.from_dict(d)` returns `h`.

* `parse_error`: a timestamp raises `ValueError` or `OverflowError`, nothing else;
* `violations_eq_nil`: the empty violation list, check by check;
* `Members.Carries`, **`reads_iff`**: what an object that reads as `h` carries;
* **`heartbeat_of_reason`**: a document that passes reads as a heartbeat unless a timestamp is null.
-/

namespace McpHeartbeat

/-- `document_reason(d)` is `None` and `Heartbeat.from_dict(d)` returns `h`. -/
structure Reads (d : Json) (h : Heartbeat) : Prop where
  reason : documentReason d = .ok none
  parse : Heartbeat.fromDict d = .ok h

theorem Reads.unique {d : Json} {g h : Heartbeat} (hg : Reads d g) (hh : Reads d h) : g = h :=
  Except.ok.inj (hg.parse.symm.trans hh.parse)

/-! ## Members of an object -/

namespace Members

variable {m : Members} {key : Str}

theorem has_iff : m.has key = true ↔ (m.item key).isSome := by
  induction m with
  | nil => simp [has, item]
  | cons p m ih =>
    obtain ⟨k, v⟩ := p
    have hcons : has ((k, v) :: m) key = (k == key || has m key) := by simp [has]
    by_cases hk : k = key
    · subst hk
      simp [hcons, item]
    · have hk' : (key == k) = false := beq_eq_false_iff_ne.mpr (Ne.symm hk)
      rw [hcons, beq_eq_false_iff_ne.mpr hk, Bool.false_or, ih]
      simp only [item, List.lookup_cons, hk']

theorem getItem_of_has (h : m.has key = true) : m.getItem key = .ok (m.get key) := by
  obtain ⟨v, hv⟩ := Option.isSome_iff_exists.mp (has_iff.mp h)
  rw [getItem, get, hv]
  rfl

theorem get_of_not_has (h : ¬ m.has key = true) : m.get key = .null := by
  rw [has_iff, Option.not_isSome_iff_eq_none] at h
  rw [get, h]
  rfl

theorem item_of_has (h : m.has key = true) : m.item key = some (m.get key) := by
  obtain ⟨v, hv⟩ := Option.isSome_iff_exists.mp (has_iff.mp h)
  rw [get, hv]
  rfl

end Members

/-! ## Timestamps -/

/-- **A timestamp raises `ValueError` or `OverflowError`.** -/
theorem parse_error {v : Json} {e : Error} (h : parseRfc3339 v = .error e) :
    (∃ f, e = .valueError f) ∨ e = .overflowError := by
  unfold parseRfc3339 at h
  split at h
  · dsimp only at h
    split at h
    · exact Or.inl ⟨_, (Except.error.inj h).symm⟩
    · exact Or.inl ⟨_, (Except.error.inj h).symm⟩
    · split at h
      · exact Or.inr (Except.error.inj h).symm
      · cases h
  · exact Or.inl ⟨_, (Except.error.inj h).symm⟩

theorem parse_null : parseRfc3339 .null = .error (.valueError .notText) := rfl

/-- The instant of a timestamp leaves the calendar. -/
def Overflows (v : Json) : Prop := parseRfc3339 v = .error .overflowError

instance (v : Json) : Decidable (Overflows v) := by
  unfold Overflows
  cases parseRfc3339 v with
  | ok t => exact isFalse (by simp)
  | error e => exact decidable_of_iff (e = .overflowError) (by simp)

theorem not_overflows_null : ¬ Overflows .null := by simp [Overflows, parse_null]

theorem attempt_parse (v : Json) :
    (∃ t, parseRfc3339 v = .ok t ∧ attempt (parseRfc3339 v) = .ok (some t)) ∨
      (∃ f, parseRfc3339 v = .error (.valueError f) ∧ attempt (parseRfc3339 v) = .ok none) ∨
      (Overflows v ∧ attempt (parseRfc3339 v) = .error .overflowError) := by
  cases h : parseRfc3339 v with
  | ok t => exact Or.inl ⟨t, rfl, rfl⟩
  | error e =>
    rcases parse_error h with ⟨f, rfl⟩ | rfl
    · exact Or.inr (Or.inl ⟨f, rfl, rfl⟩)
    · exact Or.inr (Or.inr ⟨h, rfl⟩)

namespace Members

variable {m : Members} {name : Str}

/-- What one timestamp member can be. -/
theorem readTimestamp_cases (m : Members) (name : Str) :
    (m.get name = .null ∧ m.readTimestamp name = .ok (none, [])) ∨
      (∃ t, parseRfc3339 (m.get name) = .ok t ∧ m.readTimestamp name = .ok (some t, [])) ∨
      (m.get name ≠ .null ∧ (∃ f, parseRfc3339 (m.get name) = .error (.valueError f)) ∧
        m.readTimestamp name = .ok (none, [.timestamp name])) ∨
      (Overflows (m.get name) ∧ m.readTimestamp name = .error .overflowError) := by
  by_cases hn : m.get name = .null
  · refine Or.inl ⟨hn, ?_⟩
    rw [readTimestamp, hn]
  · have hr : m.readTimestamp name = (attempt (parseRfc3339 (m.get name))).map fun t =>
        (t, if t.isSome then [] else [.timestamp name]) := by
      unfold readTimestamp
      split
      · exact absurd (by assumption) hn
      · rcases attempt (parseRfc3339 (m.get name)) with e | (_ | t) <;> rfl
    rcases attempt_parse (m.get name) with ⟨t, ht, ha⟩ | ⟨f, hf, ha⟩ | ⟨ho, ha⟩ <;> rw [ha] at hr
    · exact Or.inr (Or.inl ⟨t, ht, hr⟩)
    · exact Or.inr (Or.inr (Or.inl ⟨hn, ⟨f, hf⟩, hr⟩))
    · exact Or.inr (Or.inr (Or.inr ⟨ho, hr⟩))

/-- Reading a timestamp raises exactly on an instant that leaves the calendar. -/
theorem readTimestamp_error {e : Error} :
    m.readTimestamp name = .error e ↔ Overflows (m.get name) ∧ e = .overflowError := by
  rcases readTimestamp_cases m name with ⟨hn, hr⟩ | ⟨t, ht, hr⟩ | ⟨_, ⟨f, hf⟩, hr⟩ | ⟨ho, hr⟩ <;>
    rw [hr]
  · simp [hn, not_overflows_null]
  · simp [Overflows, ht]
  · simp [Overflows, hf]
  · simp only [Except.error.injEq, ho, true_and, eq_comm]

/-- The violation list of an object without overflow. -/
theorem violations_eq {i e : Option Datetime} {o₁ o₂ : List Violation}
    (hi : m.readTimestamp (py "issued_at") = .ok (i, o₁))
    (he : m.readTimestamp (py "expires_at") = .ok (e, o₂)) :
    m.violations = .ok (m.missingViolations ++ m.versionViolations ++ m.nodeIdViolations ++
      m.bootIdViolations ++ m.sequenceViolations ++ o₁ ++ o₂ ++ windowViolations i e ++
      m.extensionsViolations ++ m.unknownViolations) := by
  rw [violations, hi]
  simp only [bind, Except.bind, he]
  rfl

/-- **The validator raises exactly when a timestamp leaves the calendar.** -/
theorem violations_error {e : Error} : m.violations = .error e ↔
    (Overflows (m.get (py "issued_at")) ∨ Overflows (m.get (py "expires_at"))) ∧
      e = .overflowError := by
  cases hi : m.readTimestamp (py "issued_at") with
  | error e' =>
    have hv : m.violations = .error e' := by rw [violations, hi]; rfl
    obtain ⟨ho, rfl⟩ := readTimestamp_error.mp hi
    simp only [hv, Except.error.injEq, ho, true_or, true_and, eq_comm]
  | ok p =>
    have hni : ¬ Overflows (m.get (py "issued_at")) := fun ho => by
      rw [readTimestamp_error.mpr ⟨ho, rfl⟩] at hi
      cases hi
    cases he : m.readTimestamp (py "expires_at") with
    | error e' =>
      have hv : m.violations = .error e' := by
        rw [violations, hi]
        simp only [bind, Except.bind, he]
      obtain ⟨ho, rfl⟩ := readTimestamp_error.mp he
      simp only [hv, Except.error.injEq, ho, or_true, true_and, eq_comm]
    | ok q =>
      have hne : ¬ Overflows (m.get (py "expires_at")) := fun ho => by
        rw [readTimestamp_error.mpr ⟨ho, rfl⟩] at he
        cases he
      rw [violations_eq hi he]
      simp [hni, hne]

end Members

/-! ## The empty violation list -/

/-- What one member that is text has to be. -/
theorem textViolations_eq_nil {re : Str → Bool} {v : Json} {x : Violation} :
    (match v with | .null => [] | .str s => if re s then [] else [x] | _ => [x]) = [] ↔
      v = Json.ofStr? v.asStr? ∧ ∀ s, v.asStr? = some s → re s = true := by
  cases v <;> simp [Json.ofStr?, Json.asStr?]

namespace Members

variable {m : Members}

theorem missingViolations_eq_nil :
    m.missingViolations = [] ↔ ∀ key ∈ CORE_FIELDS, m.has key = true := by
  simp [missingViolations, REQUIRED_FIELDS, List.filter_eq_nil_iff]

theorem nodeIdViolations_eq_nil : m.nodeIdViolations = [] ↔
    m.get (py "node_id") = Json.ofStr? (m.get (py "node_id")).asStr? ∧
      ∀ s, (m.get (py "node_id")).asStr? = some s → NODE_ID_RE s = true :=
  textViolations_eq_nil

theorem bootIdViolations_eq_nil : m.bootIdViolations = [] ↔
    m.get (py "boot_id") = Json.ofStr? (m.get (py "boot_id")).asStr? ∧
      ∀ s, (m.get (py "boot_id")).asStr? = some s → BOOT_ID_RE s = true :=
  textViolations_eq_nil

theorem sequenceViolations_eq_nil : m.sequenceViolations = [] ↔
    m.get (py "sequence") = Json.ofInt? (m.get (py "sequence")).asInt? ∧
      ∀ n, (m.get (py "sequence")).asInt? = some n → 0 ≤ n := by
  unfold sequenceViolations
  cases m.get (py "sequence") <;> simp [Json.ofInt?, Json.asInt?]

theorem extensionsViolations_eq_nil : m.extensionsViolations = [] ↔
    (m.get EXTENSIONS_KEY = .null ∨
      m.get EXTENSIONS_KEY = .obj (m.get EXTENSIONS_KEY).asMembers) ∧
      ∀ p ∈ (m.get EXTENSIONS_KEY).asMembers, namespaced p.1 = true := by
  unfold extensionsViolations
  cases m.get EXTENSIONS_KEY <;> simp [Json.asMembers, List.filter_eq_nil_iff]

theorem windowViolations_eq_nil {i e : Datetime} :
    windowViolations (some i) (some e) = [] ↔
      0 < e.instant - i.instant ∧ e.instant - i.instant ≤ MAX_LEASE := by
  unfold windowViolations
  dsimp only
  split_ifs with h₁ h₂ <;> simp <;> omega

/-- A timestamp that raised nothing and is no violation. -/
theorem readTimestamp_nil {name : Str} {i : Option Datetime}
    (h : m.readTimestamp name = .ok (i, [])) :
    (m.get name = .null ∧ i = none) ∨ ∃ t, parseRfc3339 (m.get name) = .ok t ∧ i = some t := by
  rcases readTimestamp_cases m name with ⟨hn, hr⟩ | ⟨t, ht, hr⟩ | ⟨_, _, hr⟩ | ⟨_, hr⟩ <;>
    rw [hr] at h
  · exact Or.inl ⟨hn, by simpa using h.symm⟩
  · exact Or.inr ⟨t, ht, by simpa using h.symm⟩
  · simp at h
  · cases h

theorem readTimestamp_of_parse {name : Str} {t : Datetime} (h : parseRfc3339 (m.get name) = .ok t) :
    m.readTimestamp name = .ok (some t, []) := by
  have hn : m.get name ≠ .null := fun hn => by rw [hn, parse_null] at h; cases h
  unfold readTimestamp
  split
  · contradiction
  · rw [h]
    rfl

/-- **The empty violation list, check by check.** -/
theorem violations_eq_nil (m : Members) : m.violations = .ok [] ↔
    ∃ i e, m.readTimestamp (py "issued_at") = .ok (i, []) ∧
      m.readTimestamp (py "expires_at") = .ok (e, []) ∧ windowViolations i e = [] ∧
      m.missingViolations = [] ∧ m.versionViolations = [] ∧ m.nodeIdViolations = [] ∧
      m.bootIdViolations = [] ∧ m.sequenceViolations = [] ∧ m.extensionsViolations = [] ∧
      m.unknownViolations = [] := by
  constructor
  · intro h
    obtain ⟨⟨i, o₁⟩, hi, h'⟩ := bind_eq_ok.mp h
    obtain ⟨⟨e, o₂⟩, he, -⟩ := bind_eq_ok.mp h'
    rw [violations_eq hi he] at h
    simp only [Except.ok.injEq, List.append_eq_nil_iff] at h
    obtain ⟨⟨⟨⟨⟨⟨⟨⟨⟨h₁, h₂⟩, h₃⟩, h₄⟩, h₅⟩, rfl⟩, rfl⟩, h₆⟩, h₇⟩, h₈⟩ := h
    exact ⟨i, e, hi, he, h₆, h₁, h₂, h₃, h₄, h₅, h₇, h₈⟩
  · rintro ⟨i, e, hi, he, h₆, h₁, h₂, h₃, h₄, h₅, h₇, h₈⟩
    rw [violations_eq hi he, h₁, h₂, h₃, h₄, h₅, h₆, h₇, h₈]
    rfl

/-! ## Documents that pass -/

/-- The object `m` carries the heartbeat `h`, and nothing that is refused. -/
structure Carries (m : Members) (h : Heartbeat) : Prop where
  version : m.item (py "extension_version") = some (.str EXTENSION_VERSION)
  node : m.item (py "node_id") = some (Json.ofStr? h.nodeId)
  boot : m.item (py "boot_id") = some (Json.ofStr? h.bootId)
  seq : m.item (py "sequence") = some (Json.ofInt? h.sequence)
  node_re : ∀ s, h.nodeId = some s → NODE_ID_RE s = true
  boot_re : ∀ s, h.bootId = some s → BOOT_ID_RE s = true
  seq_nonneg : ∀ n, h.sequence = some n → 0 ≤ n
  issued : parseRfc3339 (m.get (py "issued_at")) = .ok h.issuedAt
  expires : parseRfc3339 (m.get (py "expires_at")) = .ok h.expiresAt
  window : 0 < h.expiresAt.instant - h.issuedAt.instant ∧
    h.expiresAt.instant - h.issuedAt.instant ≤ MAX_LEASE
  current : h.extensionVersion = EXTENSION_VERSION
  extensions : (m.get EXTENSIONS_KEY = .null ∧ h.extensions = []) ∨
    m.get EXTENSIONS_KEY = .obj h.extensions
  namespaced : ∀ p ∈ h.extensions, namespaced p.1 = true
  unknown : m.unknownViolations = []

/-- What `document_reason` is `None` on. -/
theorem reason_eq_none : m.reason = .ok none ↔
    m.get (py "extension_version") = .str EXTENSION_VERSION ∧
      m.expiryWindowViolation = .ok none ∧ m.violations = .ok [] := by
  unfold reason
  split_ifs with hv
  · simp [hv]
  · rw [not_not] at hv
    simp only [hv, true_and]
    constructor
    · intro h
      obtain ⟨w, hw, h⟩ := bind_eq_ok.mp h
      cases w with
      | some w => cases h
      | none =>
        obtain ⟨out, ho, h⟩ := bind_eq_ok.mp h
        refine ⟨hw, ?_⟩
        by_cases hout : out = []
        · rw [ho, hout]
        · simp [hout] at h
    · rintro ⟨hw, ho⟩
      rw [hw, ho]
      rfl

/-- The two timestamps of an object that has them. -/
theorem stamps_of_has (hi : m.has (py "issued_at") = true) (he : m.has (py "expires_at") = true) :
    m.stamps = (parseRfc3339 (m.get (py "issued_at")) >>= fun i =>
      parseRfc3339 (m.get (py "expires_at")) >>= fun e => .ok (i, e)) := by
  rw [stamps, getItem_of_has hi, getItem_of_has he]
  rfl

/-- What `from_dict` does on an object of this version that has no violation. -/
theorem heartbeat_eq (hv : m.get (py "extension_version") = .str EXTENSION_VERSION)
    (ho : m.violations = .ok []) : m.heartbeat =
      (parseRfc3339 (m.get (py "issued_at")) >>= fun issuedAt =>
        parseRfc3339 (m.get (py "expires_at")) >>= fun expiresAt => .ok {
          nodeId := (m.get (py "node_id")).asStr?
          bootId := (m.get (py "boot_id")).asStr?
          sequence := (m.get (py "sequence")).asInt?
          issuedAt
          expiresAt
          extensionVersion := EXTENSION_VERSION
          extensions := (m.get EXTENSIONS_KEY).asMembers }) := by
  obtain ⟨-, -, -, -, -, hmiss, -⟩ := m.violations_eq_nil.mp ho
  have hall := missingViolations_eq_nil.mp hmiss
  have hget : ∀ key ∈ CORE_FIELDS, m.getItem key = .ok (m.get key) := fun key hk =>
    getItem_of_has (hall key hk)
  have hs := stamps_of_has (hall (py "issued_at") (by decide)) (hall (py "expires_at") (by decide))
  simp only [heartbeat, hv, ne_eq, not_true_eq_false, if_false, ho, ok_bind,
    hget (py "node_id") (by decide), hget (py "boot_id") (by decide),
    hget (py "sequence") (by decide), hs]
  cases parseRfc3339 (m.get (py "issued_at")) with
  | error e => rfl
  | ok i => cases parseRfc3339 (m.get (py "expires_at")) <;> rfl

/-- **What passes and reads as `h` carries `h`.** -/
theorem carries_of_heartbeat {h : Heartbeat} (hr : m.reason = .ok none)
    (hh : m.heartbeat = .ok h) : m.Carries h := by
  obtain ⟨hv, hw, ho⟩ := reason_eq_none.mp hr
  obtain ⟨i, e, hi, he, hwin, hmiss, -, hnode, hboot, hseq, hext, hunk⟩ := m.violations_eq_nil.mp ho
  have hall := missingViolations_eq_nil.mp hmiss
  have hhas : ∀ key ∈ CORE_FIELDS, m.item key = some (m.get key) := fun key hk =>
    item_of_has (hall key hk)
  rw [nodeIdViolations_eq_nil] at hnode
  rw [bootIdViolations_eq_nil] at hboot
  rw [sequenceViolations_eq_nil] at hseq
  rw [extensionsViolations_eq_nil] at hext
  rw [heartbeat_eq hv ho] at hh
  obtain ⟨i₁, hpi, hh⟩ := bind_eq_ok.mp hh
  obtain ⟨e₁, hpe, hh⟩ := bind_eq_ok.mp hh
  obtain rfl := Except.ok.inj hh
  rw [readTimestamp_of_parse hpi] at hi
  rw [readTimestamp_of_parse hpe] at he
  obtain rfl : some i₁ = i := by simpa using hi
  obtain rfl : some e₁ = e := by simpa using he
  exact {
    version := by rw [hhas _ (by decide), hv]
    node := by rw [hhas _ (by decide)]; exact congrArg some hnode.1
    boot := by rw [hhas _ (by decide)]; exact congrArg some hboot.1
    seq := by rw [hhas _ (by decide)]; exact congrArg some hseq.1
    node_re := hnode.2
    boot_re := hboot.2
    seq_nonneg := hseq.2
    issued := hpi
    expires := hpe
    window := windowViolations_eq_nil.mp hwin
    current := rfl
    extensions := by
      rcases hext.1 with hn | he
      · exact Or.inl ⟨hn, by rw [hn]; rfl⟩
      · exact Or.inr he
    namespaced := hext.2
    unknown := hunk }

/-- Whatever carries `h` passes and reads as `h`. -/
theorem Carries.reads {h : Heartbeat} (c : m.Carries h) : Reads (.obj m) h := by
  have hget : ∀ {key v}, m.item key = some v → m.get key = v := fun hv => by rw [get, hv]; rfl
  have hhas : ∀ {key v}, m.item key = some v → m.has key = true := fun hv => by
    rw [has_iff, hv]
    rfl
  have hstamp : ∀ {key t}, parseRfc3339 (m.get key) = .ok t → m.has key = true := fun {key t} ht => by
    by_contra hn
    rw [get_of_not_has hn, parse_null] at ht
    cases ht
  have hversion := hget c.version
  have hstr : ∀ o, (Json.ofStr? o).asStr? = o := fun o => by cases o <;> rfl
  have hint : ∀ o, (Json.ofInt? o).asInt? = o := fun o => by cases o <;> rfl
  have hext : (m.get EXTENSIONS_KEY).asMembers = h.extensions := by
    rcases c.extensions with ⟨hn, he⟩ | he
    · rw [hn, he]; rfl
    · rw [he]; rfl
  have hs : m.stamps = .ok (h.issuedAt, h.expiresAt) := by
    rw [stamps_of_has (hstamp c.issued) (hstamp c.expires), c.issued, c.expires]
    rfl
  have hv : m.violations = .ok [] := by
    refine m.violations_eq_nil.mpr ⟨some h.issuedAt, some h.expiresAt,
      readTimestamp_of_parse c.issued, readTimestamp_of_parse c.expires,
      windowViolations_eq_nil.mpr c.window, missingViolations_eq_nil.mpr ?_, ?_,
      nodeIdViolations_eq_nil.mpr ?_, bootIdViolations_eq_nil.mpr ?_,
      sequenceViolations_eq_nil.mpr ?_, extensionsViolations_eq_nil.mpr ?_, c.unknown⟩
    · simp only [CORE_FIELDS, List.forall_mem_cons, List.not_mem_nil, false_implies, implies_true,
        and_true]
      exact ⟨hhas c.version, hhas c.node, hhas c.boot, hhas c.seq, hstamp c.issued,
        hstamp c.expires⟩
    · simp [versionViolations, hversion]
    · rw [hget c.node, hstr]
      exact ⟨rfl, c.node_re⟩
    · rw [hget c.boot, hstr]
      exact ⟨rfl, c.boot_re⟩
    · rw [hget c.seq, hint]
      exact ⟨rfl, c.seq_nonneg⟩
    · rw [hext]
      exact ⟨c.extensions.imp And.left id, c.namespaced⟩
  have hw : m.expiryWindowViolation = .ok none := by
    have h₁ : h.issuedAt.instant < h.expiresAt.instant := sub_pos.mp c.window.1
    have h₂ : ¬ MAX_LEASE < h.expiresAt.instant - h.issuedAt.instant := not_lt.mpr c.window.2
    simp [expiryWindowViolation, hs, attempt, h₁, h₂]
  refine ⟨reason_eq_none.mpr ⟨hversion, hw, hv⟩, ?_⟩
  show m.heartbeat = .ok h
  rw [heartbeat_eq hversion hv, c.issued, c.expires]
  simp only [ok_bind, hget c.node, hget c.boot, hget c.seq, hext, hstr, hint, ← c.current]

end Members

/-- **A document reads as `h` exactly when it is an object that carries `h`.** -/
theorem reads_iff {d : Json} {h : Heartbeat} : Reads d h ↔ ∃ m, d = .obj m ∧ Members.Carries m h := by
  constructor
  · rintro ⟨hr, hp⟩
    cases d with
    | obj m => exact ⟨m, rfl, Members.carries_of_heartbeat hr hp⟩
    | _ => cases hp
  · rintro ⟨m, rfl, c⟩
    exact c.reads

/-- The two timestamps of an object, one of them null. -/
def Members.NullStamp (m : Members) : Prop :=
  m.get (py "issued_at") = .null ∨ m.get (py "expires_at") = .null

instance (m : Members) : Decidable m.NullStamp := by unfold Members.NullStamp; infer_instance

namespace Members

variable {m : Members}

/-- **What passes reads as a heartbeat, unless a timestamp is null.** Then `from_dict` raises. -/
theorem heartbeat_of_reason (hr : m.reason = .ok none) :
    (¬ m.NullStamp ∧ ∃ h, m.heartbeat = .ok h) ∨
      (m.NullStamp ∧ m.heartbeat = .error (.valueError .notText)) := by
  obtain ⟨hv, hw, ho⟩ := reason_eq_none.mp hr
  obtain ⟨i, e, hi, he, -⟩ := m.violations_eq_nil.mp ho
  rw [heartbeat_eq hv ho]
  have hnot : ∀ {key t}, parseRfc3339 (m.get key) = .ok t → m.get key ≠ .null := fun ht hn => by
    rw [hn, parse_null] at ht
    cases ht
  rcases readTimestamp_nil hi with ⟨hin, -⟩ | ⟨t, ht, -⟩
  · refine Or.inr ⟨Or.inl hin, ?_⟩
    rw [hin, parse_null]
    rfl
  · rcases readTimestamp_nil he with ⟨hen, -⟩ | ⟨u, hu, -⟩
    · refine Or.inr ⟨Or.inr hen, ?_⟩
      rw [ht, hen, parse_null]
      rfl
    · refine Or.inl ⟨not_or.mpr ⟨hnot ht, hnot hu⟩, ?_⟩
      rw [ht, hu]
      exact ⟨_, rfl⟩

end Members

/-! ## A document -/

/-- A document of the participant `node` in the epoch `boot`. -/
def beat (sequence : Json) (issuedAt expiresAt : String) (extensions : Members) : Json :=
  .obj [(py "extension_version", .str EXTENSION_VERSION),
    (py "node_id", .str (py "node")),
    (py "boot_id", .str (py "boot")),
    (py "sequence", sequence),
    (py "issued_at", .str (py issuedAt)),
    (py "expires_at", .str (py expiresAt)),
    (EXTENSIONS_KEY, .obj extensions)]

/-- The instant `2026-01-01T00:00:00Z`. -/
def newYear : ℤ := ((Base.ymd2ord 2026 1 1 - 1) * day : ℕ)

/-- The `datetime` of `newYear`. -/
def newYearMoment : Datetime := ⟨newYear.toNat, by decide⟩

/-- What a document reads as, if it is structurally valid. -/
def reading (d : Json) : Option Heartbeat :=
  match documentReason d, Heartbeat.fromDict d with
  | .ok none, .ok h => some h
  | _, _ => none

theorem reading_eq_some {d : Json} {h : Heartbeat} : reading d = some h ↔ Reads d h := by
  unfold reading
  constructor
  · intro hc
    split at hc
    · rename_i hr hp
      obtain rfl := Option.some.inj hc
      exact ⟨hr, hp⟩
    · cases hc
  · rintro ⟨hr, hp⟩
    rw [hr, hp]

example : (reading (beat (.int 0) "2026-01-01T00:00:00Z" "2026-01-01T00:00:30+00:00" [])).map
    (fun h => (h.sequence, h.issuedAt.instant, h.expiresAt.instant)) =
      some (some 0, newYear, newYear + 30000000) := by decide +kernel

end McpHeartbeat
