import McpHeartbeat.Core.Reading

/-!
# The published schema

`schema/mcp-heartbeat-0.1.schema.json` as data, and where the validator agrees with it.

* `Keyword`, `Schema`: the keywords of JSON Schema it uses, and what they accept;
* `heartbeatSchema`: the schema itself; `accepts_iff`: what it accepts, member by member;
* `Members.Passable`: the contract with the liberties either side takes; `violations_nil_iff`,
  `conforms_iff`: each side is `Passable` without the other's liberty;
* **`schema_parity_exactly_when`**: when the two sides agree on an object.

What a JSON Schema library makes of a number written as a float is left open.
-/

namespace McpHeartbeat

/-- What a library says of a float: is it an `integer`, and is it at least a `minimum`. -/
structure FloatRules where
  isInteger : FloatText → Bool
  atLeast : ℤ → FloatText → Bool

/-- The types the schema names. -/
inductive JsonType
  | string
  | integer
  | object
deriving DecidableEq

/-- The keywords the schema puts on a member. A pattern is a search; here it is its predicate. -/
inductive Keyword
  | type (t : JsonType)
  | const (s : Str)
  | pattern (re : Str → Bool)
  | minimum (n : ℤ)
  | formatDateTime
  | propertyNames (re : Str → Bool)

/-- The keywords the schema puts on a document; the members that `patternProperties` admits are
unconstrained, and `additionalProperties` is `false`. -/
structure Schema where
  required : List Str
  properties : List (Str × List Keyword)
  patternProperties : List (Str → Bool)

/-- A keyword constrains only the values it is about. -/
def Keyword.accepts (F : FloatRules) : Keyword → Json → Bool
  | .type .string, v => match v with | .str _ => true | _ => false
  | .type .integer, v => match v with | .int _ => true | .float x => F.isInteger x | _ => false
  | .type .object, v => match v with | .obj _ => true | _ => false
  | .const s, v => decide (v = .str s)
  | .pattern re, v => match v with | .str s => re s | _ => true
  | .minimum n, v => match v with | .int k => decide (n ≤ k) | .float x => F.atLeast n x | _ => true
  -- a date-time is what `parse_rfc3339` reads
  | .formatDateTime, v => match v with | .str _ => (parseRfc3339 v).isOk | _ => true
  | .propertyNames re, v => match v with | .obj e => e.all fun p => re p.1 | _ => true

/-- The documents a schema accepts, of type `object`. -/
structure Schema.Accepts (F : FloatRules) (schema : Schema) (m : Members) : Prop where
  required : ∀ key ∈ schema.required, m.has key = true
  properties : ∀ p ∈ schema.properties, ∀ v, m.item p.1 = some v →
    ∀ k ∈ p.2, k.accepts F v = true
  additional : ∀ p ∈ m, p.1 ∈ schema.properties.map Prod.fst ∨
    ∃ re ∈ schema.patternProperties, re p.1 = true

/-- `schema/mcp-heartbeat-0.1.schema.json`. The dollar of a schema matches at the end only. -/
def heartbeatSchema : Schema where
  required := CORE_FIELDS
  properties := [
    (py "extension_version", [.const EXTENSION_VERSION]),
    (py "node_id", [.type .string, .pattern (idWord "._:/+-" 254)]),
    (py "boot_id", [.type .string, .pattern (idWord "._-" 127)]),
    (py "sequence", [.type .integer, .minimum 0]),
    (py "issued_at", [.type .string, .formatDateTime]),
    (py "expires_at", [.type .string, .formatDateTime]),
    (EXTENSIONS_KEY, [.type .object, .propertyNames namespaced])]
  patternProperties := [namespaced]

/-! ## The contract, member by member -/

/-- A string of the whole pattern. -/
def Json.IsWord (word : Str → Bool) (v : Json) : Prop := ∃ s, v = .str s ∧ word s = true

/-- A number the schema takes for a sequence and the validator does not. -/
def Json.IsWholeFloat (F : FloatRules) (v : Json) : Prop :=
  ∃ x, v = .float x ∧ F.isInteger x = true ∧ F.atLeast 0 x = true

/-- A string that ends with a newline. -/
def Json.EndsLine (v : Json) : Prop := ∃ s, v = .str s ∧ s.getLast? = some (.scalar '\n')

/-- A timestamp. -/
def Json.IsStamp (v : Json) : Prop := ∃ t, parseRfc3339 v = .ok t

namespace Members

variable (F : FloatRules) (m : Members)

/-- Members beyond the named ones are namespaced. -/
def NoUnknown : Prop :=
  ∀ p ∈ m, p.1 ∈ CORE_FIELDS ∨ p.1 = EXTENSIONS_KEY ∨ namespaced p.1 = true

/-- The window of the contract. -/
def Windowed : Prop :=
  ∃ i e, parseRfc3339 (m.get (py "issued_at")) = .ok i ∧
    parseRfc3339 (m.get (py "expires_at")) = .ok e ∧
      0 < e.instant - i.instant ∧ e.instant - i.instant ≤ MAX_LEASE

/-- A named member is null, or an identifier ends with a newline: the validator minds neither. -/
def Slack : Prop :=
  (∃ key ∈ CORE_FIELDS ++ [EXTENSIONS_KEY], m.item key = some .null) ∨
    (m.get (py "node_id")).EndsLine ∨ (m.get (py "boot_id")).EndsLine

/-- The contract, with the liberties of both sides. -/
structure Passable : Prop where
  required : ∀ key ∈ CORE_FIELDS, m.has key = true
  version : m.get (py "extension_version") = .null ∨
    m.get (py "extension_version") = .str EXTENSION_VERSION
  node : m.get (py "node_id") = .null ∨ (m.get (py "node_id")).IsWord NODE_ID_RE
  boot : m.get (py "boot_id") = .null ∨ (m.get (py "boot_id")).IsWord BOOT_ID_RE
  seq : m.get (py "sequence") = .null ∨ (∃ n, m.get (py "sequence") = .int n ∧ 0 ≤ n) ∨
    (m.get (py "sequence")).IsWholeFloat F
  issued : m.get (py "issued_at") = .null ∨ (m.get (py "issued_at")).IsStamp
  expires : m.get (py "expires_at") = .null ∨ (m.get (py "expires_at")).IsStamp
  extensions : m.get EXTENSIONS_KEY = .null ∨
    ∃ e, m.get EXTENSIONS_KEY = .obj e ∧ ∀ p ∈ e, namespaced p.1 = true
  unknown : m.NoUnknown
  window : ∀ i e, parseRfc3339 (m.get (py "issued_at")) = .ok i →
    parseRfc3339 (m.get (py "expires_at")) = .ok e →
      0 < e.instant - i.instant ∧ e.instant - i.instant ≤ MAX_LEASE

/-- What the schema and the window ask of an object. -/
structure Conforms : Prop where
  required : ∀ key ∈ CORE_FIELDS, m.has key = true
  version : m.get (py "extension_version") = .str EXTENSION_VERSION
  node : (m.get (py "node_id")).IsWord (idWord "._:/+-" 254)
  boot : (m.get (py "boot_id")).IsWord (idWord "._-" 127)
  seq : (∃ n, m.get (py "sequence") = .int n ∧ 0 ≤ n) ∨ (m.get (py "sequence")).IsWholeFloat F
  extensions : m.has EXTENSIONS_KEY = true →
    ∃ e, m.get EXTENSIONS_KEY = .obj e ∧ ∀ p ∈ e, namespaced p.1 = true
  unknown : m.NoUnknown
  window : m.Windowed

end Members

theorem isConst_iff {F : FloatRules} {c : Str} {v : Json} :
    (Keyword.const c).accepts F v = true ↔ v = .str c := decide_eq_true_iff

/-- A string has its type and its pattern. -/
theorem isWord_iff {F : FloatRules} {word : Str → Bool} {v : Json} :
    ((Keyword.type .string).accepts F v = true ∧ (Keyword.pattern word).accepts F v = true) ↔
      v.IsWord word := by
  cases v <;> simp [Keyword.accepts, Json.IsWord]

theorem isStamp_iff {F : FloatRules} {v : Json} :
    ((Keyword.type .string).accepts F v = true ∧ Keyword.formatDateTime.accepts F v = true) ↔
      v.IsStamp := by
  cases v with
  | str s =>
    simp only [Keyword.accepts, Json.IsStamp, true_and]
    cases parseRfc3339 (.str s) <;> simp [Except.isOk, Except.toBool]
  | _ => simp [Keyword.accepts, Json.IsStamp, parseRfc3339]

theorem isSequence_iff {F : FloatRules} {v : Json} :
    ((Keyword.type .integer).accepts F v = true ∧ (Keyword.minimum 0).accepts F v = true) ↔
      (∃ n, v = .int n ∧ 0 ≤ n) ∨ v.IsWholeFloat F := by
  cases v <;> simp [Keyword.accepts, Json.IsWholeFloat]

theorem isExtensions_iff {F : FloatRules} {v : Json} :
    ((Keyword.type .object).accepts F v = true ∧
      (Keyword.propertyNames namespaced).accepts F v = true) ↔
        ∃ e, v = .obj e ∧ ∀ p ∈ e, namespaced p.1 = true := by
  cases v <;> simp [Keyword.accepts]

namespace Members

variable {F : FloatRules} {m : Members}

/-- A subschema holds of the member of a name, if there is one. -/
theorem item_forall {key : Str} {Q : Json → Prop} :
    (∀ v, m.item key = some v → Q v) ↔ (m.has key = true → Q (m.get key)) := by
  constructor
  · intro h hk
    exact h _ (item_of_has hk)
  · intro h v hv
    have hk : m.has key = true := by rw [has_iff, hv]; rfl
    have hget : m.get key = v := by rw [get, hv]; rfl
    exact hget ▸ h hk

/-- **The schema and the window, member by member.** -/
theorem conforms_iff : heartbeatSchema.Accepts F m ∧ m.Windowed ↔ m.Conforms F := by
  have hadd : (∀ p ∈ m, p.1 ∈ heartbeatSchema.properties.map Prod.fst ∨
      ∃ re ∈ heartbeatSchema.patternProperties, re p.1 = true) ↔ m.NoUnknown := by
    apply forall₂_congr
    intro p _
    simp only [heartbeatSchema, CORE_FIELDS, List.map_cons, List.map_nil, List.mem_cons,
      List.not_mem_nil, or_false, exists_eq_left, or_assoc]
  have hprop : (∀ p ∈ heartbeatSchema.properties, ∀ v, m.item p.1 = some v →
      ∀ k ∈ p.2, k.accepts F v = true) ↔
      (m.has (py "extension_version") = true →
        m.get (py "extension_version") = .str EXTENSION_VERSION) ∧
      (m.has (py "node_id") = true → (m.get (py "node_id")).IsWord (idWord "._:/+-" 254)) ∧
      (m.has (py "boot_id") = true → (m.get (py "boot_id")).IsWord (idWord "._-" 127)) ∧
      (m.has (py "sequence") = true → (∃ n, m.get (py "sequence") = .int n ∧ 0 ≤ n) ∨
        (m.get (py "sequence")).IsWholeFloat F) ∧
      (m.has (py "issued_at") = true → (m.get (py "issued_at")).IsStamp) ∧
      (m.has (py "expires_at") = true → (m.get (py "expires_at")).IsStamp) ∧
      (m.has EXTENSIONS_KEY = true →
        ∃ e, m.get EXTENSIONS_KEY = .obj e ∧ ∀ p ∈ e, namespaced p.1 = true) := by
    simp only [heartbeatSchema, List.forall_mem_cons, List.not_mem_nil, false_implies, implies_true,
      and_true, isConst_iff, isWord_iff, isStamp_iff, isSequence_iff, isExtensions_iff, item_forall]
  constructor
  · rintro ⟨h, hw⟩
    have hreq : ∀ key ∈ CORE_FIELDS, m.has key = true := h.required
    obtain ⟨hv, hn, hb, hs, -, -, he⟩ := hprop.mp h.properties
    exact {
      required := hreq
      version := hv (hreq _ (by decide))
      node := hn (hreq _ (by decide))
      boot := hb (hreq _ (by decide))
      seq := hs (hreq _ (by decide))
      extensions := he
      unknown := hadd.mp h.additional
      window := hw }
  · intro h
    obtain ⟨i, e, hi, he, -⟩ := h.window
    refine ⟨⟨h.required, hprop.mpr ?_, hadd.mpr h.unknown⟩, h.window⟩
    exact ⟨fun _ => h.version, fun _ => h.node, fun _ => h.boot, fun _ => h.seq, fun _ => ⟨i, hi⟩,
      fun _ => ⟨e, he⟩, h.extensions⟩

end Members

/-! ## The liberties -/

/-- **A whole word is what the dollar matches without a final newline.** -/
theorem idWord_iff {extra : String} {n : ℕ} {s : Str}
    (hextra : isIdSymbol extra (.scalar '\n') = false) : idWord extra n s = true ↔
      matchDollar (idWord extra n) s = true ∧ s.getLast? ≠ some (.scalar '\n') := by
  have hsymbols : idWord extra n s = true → s.getLast? ≠ some (.scalar '\n') := by
    intro h hlast
    have hmem := List.mem_of_getLast? hlast
    cases s with
    | nil => cases hmem
    | cons c s =>
      simp only [idWord, Bool.and_eq_true, List.all_eq_true] at h
      have hc : isIdSymbol extra c = true := by rw [isIdSymbol, h.1.1, Bool.true_or]
      have hall : ∀ x ∈ c :: s, isIdSymbol extra x = true := List.forall_mem_cons.mpr ⟨hc, h.2⟩
      rw [hall _ hmem] at hextra
      cases hextra
  constructor
  · intro h
    exact ⟨by rw [matchDollar, h, Bool.true_or], hsymbols h⟩
  · rintro ⟨h, hlast⟩
    rw [matchDollar, beq_eq_false_iff_ne.mpr hlast, Bool.false_and, Bool.or_false] at h
    exact h

theorem isWord_dollar {extra : String} {n : ℕ} {v : Json}
    (hextra : isIdSymbol extra (.scalar '\n') = false) : v.IsWord (idWord extra n) ↔
      v.IsWord (matchDollar (idWord extra n)) ∧ ¬ v.EndsLine := by
  constructor
  · rintro ⟨s, rfl, hs⟩
    obtain ⟨hm, hl⟩ := (idWord_iff hextra).mp hs
    exact ⟨⟨s, rfl, hm⟩, fun ⟨t, ht, hline⟩ => hl (Json.str.inj ht ▸ hline)⟩
  · rintro ⟨⟨s, rfl, hs⟩, hl⟩
    exact ⟨s, rfl, (idWord_iff hextra).mpr ⟨hs, fun hline => hl ⟨s, rfl, hline⟩⟩⟩

namespace Members

variable {F : FloatRules} {m : Members}

/-- A member without slack is not null. -/
theorem get_ne_null {key : Str} (hs : ¬ m.Slack) (hk : key ∈ CORE_FIELDS ++ [EXTENSIONS_KEY])
    (hhas : m.has key = true) : m.get key ≠ .null := fun hn =>
  hs (Or.inl ⟨key, hk, by rw [item_of_has hhas, hn]⟩)

theorem newline_not_node : isIdSymbol "._:/+-" (.scalar '\n') = false := by decide

theorem newline_not_boot : isIdSymbol "._-" (.scalar '\n') = false := by decide

theorem Conforms.passable (h : m.Conforms F) : m.Passable F where
  required := h.required
  version := Or.inr h.version
  node := Or.inr ((isWord_dollar newline_not_node).mp h.node).1
  boot := Or.inr ((isWord_dollar newline_not_boot).mp h.boot).1
  seq := Or.inr h.seq
  issued := by
    obtain ⟨i, e, hi, -, -⟩ := h.window
    exact Or.inr ⟨i, hi⟩
  expires := by
    obtain ⟨i, e, -, he, -⟩ := h.window
    exact Or.inr ⟨e, he⟩
  extensions := by
    by_cases hk : m.has EXTENSIONS_KEY = true
    · exact Or.inr (h.extensions hk)
    · exact Or.inl (get_of_not_has hk)
  unknown := h.unknown
  window := by
    intro i' e' hi' he'
    obtain ⟨i, e, hi, he, hw⟩ := h.window
    obtain rfl := Except.ok.inj (hi.symm.trans hi')
    obtain rfl := Except.ok.inj (he.symm.trans he')
    exact hw

/-- No member that the schema names is null. -/
theorem Conforms.get_ne_null {key : Str} (h : m.Conforms F)
    (hk : key ∈ CORE_FIELDS ++ [EXTENSIONS_KEY]) (hhas : m.has key = true) :
    m.get key ≠ .null := by
  intro hget
  obtain ⟨i, e, hi, he, -⟩ := h.window
  simp only [CORE_FIELDS, List.cons_append, List.nil_append, List.mem_cons, List.not_mem_nil,
    or_false] at hk
  rcases hk with rfl | rfl | rfl | rfl | rfl | rfl | rfl
  · cases hget.symm.trans h.version
  · obtain ⟨s, hs, -⟩ := h.node
    cases hget.symm.trans hs
  · obtain ⟨s, hs, -⟩ := h.boot
    cases hget.symm.trans hs
  · rcases h.seq with ⟨n, hs, -⟩ | ⟨x, hs, -⟩ <;> cases hget.symm.trans hs
  · rw [hget, parse_null] at hi
    cases hi
  · rw [hget, parse_null] at he
    cases he
  · obtain ⟨x, hs, -⟩ := h.extensions hhas
    cases hget.symm.trans hs

theorem Conforms.not_slack (h : m.Conforms F) : ¬ m.Slack := by
  rintro (⟨key, hk, hnull⟩ | hline | hline)
  · have hhas : m.has key = true := by rw [has_iff, hnull]; rfl
    apply h.get_ne_null hk hhas
    rw [get, hnull]
    rfl
  · exact ((isWord_dollar newline_not_node).mp h.node).2 hline
  · exact ((isWord_dollar newline_not_boot).mp h.boot).2 hline

theorem Passable.conforms (h : m.Passable F) (hs : ¬ m.Slack) : m.Conforms F := by
  have hnn : ∀ key ∈ CORE_FIELDS, m.get key ≠ .null := fun key hk =>
    Members.get_ne_null hs (List.mem_append_left _ hk) (h.required key hk)
  obtain ⟨i, hi⟩ := h.issued.resolve_left (hnn _ (by decide))
  obtain ⟨e, he⟩ := h.expires.resolve_left (hnn _ (by decide))
  exact {
    required := h.required
    version := h.version.resolve_left (hnn _ (by decide))
    node := (isWord_dollar newline_not_node).mpr
      ⟨h.node.resolve_left (hnn _ (by decide)), fun hl => hs (Or.inr (Or.inl hl))⟩
    boot := (isWord_dollar newline_not_boot).mpr
      ⟨h.boot.resolve_left (hnn _ (by decide)), fun hl => hs (Or.inr (Or.inr hl))⟩
    seq := h.seq.resolve_left (hnn _ (by decide))
    extensions := fun hk => h.extensions.resolve_left
      (Members.get_ne_null hs (List.mem_append_right _ List.mem_cons_self) hk)
    unknown := h.unknown
    window := ⟨i, e, hi, he, h.window i e hi he⟩ }

/-- **The schema takes no slack.** -/
theorem conforms_iff_passable : m.Conforms F ↔ m.Passable F ∧ ¬ m.Slack := by
  constructor
  · intro h
    exact ⟨h.passable, h.not_slack⟩
  · rintro ⟨h, hs⟩
    exact h.conforms hs

theorem textViolations_iff {re : Str → Bool} {v : Json} :
    (v = Json.ofStr? v.asStr? ∧ ∀ s, v.asStr? = some s → re s = true) ↔ v = .null ∨ v.IsWord re := by
  cases v <;> simp [Json.ofStr?, Json.asStr?, Json.IsWord]

theorem sequenceViolations_iff {v : Json} :
    (v = Json.ofInt? v.asInt? ∧ ∀ n, v.asInt? = some n → 0 ≤ n) ↔
      v = .null ∨ ∃ n, v = .int n ∧ 0 ≤ n := by
  cases v <;> simp [Json.ofInt?, Json.asInt?]

theorem extensionsViolations_iff {v : Json} :
    ((v = .null ∨ v = .obj v.asMembers) ∧ ∀ p ∈ v.asMembers, namespaced p.1 = true) ↔
      v = .null ∨ ∃ e, v = .obj e ∧ ∀ p ∈ e, namespaced p.1 = true := by
  cases v <;> simp [Json.asMembers]

theorem versionViolations_iff : m.versionViolations = [] ↔
    m.get (py "extension_version") = .null ∨
      m.get (py "extension_version") = .str EXTENSION_VERSION := by
  unfold versionViolations
  cases m.get (py "extension_version") <;> simp

theorem unknownViolations_iff : m.unknownViolations = [] ↔ m.NoUnknown := by
  unfold unknownViolations NoUnknown REQUIRED_FIELDS
  rw [List.map_eq_nil_iff, List.filter_eq_nil_iff]
  apply forall₂_congr
  intro p _
  rw [← or_assoc, or_iff_not_imp_left, not_or]
  simp

theorem readTimestamp_ok {name : Str} {o : Option Datetime} :
    m.readTimestamp name = .ok (o, []) ↔
      (m.get name = .null ∧ o = none) ∨ ∃ t, parseRfc3339 (m.get name) = .ok t ∧ o = some t := by
  constructor
  · exact readTimestamp_nil
  · rintro (⟨hn, rfl⟩ | ⟨t, ht, rfl⟩)
    · rw [readTimestamp, hn]
    · exact readTimestamp_of_parse ht

/-- The reading of a member that is null or a timestamp. -/
theorem Passable.stamp {key : Str} (h : m.get key = .null ∨ (m.get key).IsStamp) :
    ∃ o, (m.get key = .null ∧ o = none) ∨ ∃ t, parseRfc3339 (m.get key) = .ok t ∧ o = some t := by
  rcases h with hn | ⟨t, ht⟩
  · exact ⟨none, Or.inl ⟨hn, rfl⟩⟩
  · exact ⟨some t, Or.inr ⟨t, ht, rfl⟩⟩

/-- **The validator takes no float.** -/
theorem violations_nil_iff_passable (F : FloatRules) : m.violations = .ok [] ↔
    m.Passable F ∧ ¬ (m.get (py "sequence")).IsWholeFloat F := by
  rw [m.violations_eq_nil]
  simp only [missingViolations_eq_nil, nodeIdViolations_eq_nil, bootIdViolations_eq_nil,
    sequenceViolations_eq_nil, extensionsViolations_eq_nil, textViolations_iff,
    sequenceViolations_iff, extensionsViolations_iff, versionViolations_iff, unknownViolations_iff,
    readTimestamp_ok]
  constructor
  · rintro ⟨i, e, hi, he, hw, hreq, hv, hn, hb, hs, hx, hu⟩
    refine ⟨?_, ?_⟩
    · exact {
        required := hreq
        version := hv
        node := hn
        boot := hb
        seq := hs.imp_right Or.inl
        issued := hi.imp And.left fun ⟨t, ht, _⟩ => ⟨t, ht⟩
        expires := he.imp And.left fun ⟨t, ht, _⟩ => ⟨t, ht⟩
        extensions := hx
        unknown := hu
        window := fun i' e' hi' he' => by
          have hi'' := readTimestamp_of_parse hi'
          have he'' := readTimestamp_of_parse he'
          rw [readTimestamp_ok.mpr hi] at hi''
          rw [readTimestamp_ok.mpr he] at he''
          obtain ⟨rfl, -⟩ := Prod.mk.inj (Except.ok.inj hi'')
          obtain ⟨rfl, -⟩ := Prod.mk.inj (Except.ok.inj he'')
          exact windowViolations_eq_nil.mp hw }
    · rintro ⟨x, hx, -⟩
      rcases hs with hs | ⟨n, hs, -⟩ <;> cases hx.symm.trans hs
  · rintro ⟨h, hf⟩
    have hseq : m.get (py "sequence") = .null ∨ ∃ n, m.get (py "sequence") = .int n ∧ 0 ≤ n := by
      rcases h.seq with hs | hs | hs
      · exact Or.inl hs
      · exact Or.inr hs
      · exact absurd hs hf
    obtain ⟨i, hi⟩ := Passable.stamp h.issued
    obtain ⟨e, he⟩ := Passable.stamp h.expires
    refine ⟨i, e, hi, he, ?_, h.required, h.version, h.node, h.boot, hseq, h.extensions, h.unknown⟩
    rcases hi with ⟨-, rfl⟩ | ⟨t, ht, rfl⟩
    · rfl
    · rcases he with ⟨-, rfl⟩ | ⟨u, hu, rfl⟩
      · rfl
      · exact windowViolations_eq_nil.mpr (h.window t u ht hu)

end Members

/-- **Parity of the schema and the validator.** They agree on an object exactly when, if it keeps
the contract up to their liberties, it takes a liberty of the validator (a null member, an identifier
before a final newline) just if it takes the one of the schema (a sequence written as a float). -/
theorem schema_parity_exactly_when (F : FloatRules) (m : Members) :
    (validateDocument (.obj m) = .ok [] ↔ heartbeatSchema.Accepts F m ∧ m.Windowed) ↔
      (m.Passable F → (m.Slack ↔ (m.get (py "sequence")).IsWholeFloat F)) := by
  rw [validateDocument, Members.violations_nil_iff_passable F, Members.conforms_iff,
    Members.conforms_iff_passable]
  by_cases hp : m.Passable F
  · simp only [hp, true_and, forall_true_left]
    exact not_iff_not.trans ⟨Iff.symm, Iff.symm⟩
  · simp [hp]

/-- **The validator and the schema part** on a document whose sequence is null. -/
theorem schema_parity_broken : ¬ ∀ (F : FloatRules) (m : Members),
    validateDocument (.obj m) = .ok [] ↔ heartbeatSchema.Accepts F m ∧ m.Windowed := by
  intro hall
  let m : Members := [(py "extension_version", .str EXTENSION_VERSION),
    (py "node_id", .str (py "node")), (py "boot_id", .str (py "boot")), (py "sequence", .null),
    (py "issued_at", .str (py "2026-01-01T00:00:00Z")),
    (py "expires_at", .str (py "2026-01-01T00:00:30Z"))]
  have hvalid : validateDocument (.obj m) = .ok [] := by decide +kernel
  have hconforms := Members.conforms_iff.mp ((hall ⟨fun _ => false, fun _ _ => false⟩ m).mp hvalid)
  rcases hconforms.seq with ⟨n, hn, -⟩ | ⟨x, hx, -⟩
  · cases hn
  · cases hx

end McpHeartbeat
