import McpHeartbeat.Core.Schema
import McpHeartbeat.Current.Requests
import McpHeartbeat.Legacy.Resources
import McpHeartbeat.Py.Text

/-!
# The grammar of identifiers

The identifiers of a document go into revision labels, addresses and headers.

* `SingleLine`: text without a line break; `singleLine_word`: the words of the patterns;
* `revision_inj`: the label of a revision tells its epoch and its sequence;
* **`identifiers_exact_exactly_when`**: what is accepted is in the grammar of the schema, and what is
  built from it is on one line, exactly when neither identifier ends with a line feed;
* `identifier_ends_line`: it may.
-/

namespace McpHeartbeat

open Legacy

/-! ## Lines -/

/-- Text on one line. -/
def SingleLine (s : Str) : Prop := ∀ c ∈ LINE_BREAKS, .scalar c ∉ s

theorem singleLine_of_all {s : Str}
    (h : (LINE_BREAKS.all fun c => !s.contains (.scalar c)) = true) : SingleLine s := by
  intro c hc hmem
  have hbreak := List.all_eq_true.mp h c hc
  rw [List.contains_iff_mem.mpr hmem] at hbreak
  cases hbreak

theorem singleLine_append {s t : Str} : SingleLine (s ++ t) ↔ SingleLine s ∧ SingleLine t := by
  simp only [SingleLine, List.mem_append, not_or, forall_and]

/-- What a word of a pattern may consist of: letters, digits and the symbols of the pattern. -/
theorem symbol_of_mem_word {extra : String} {n : ℕ} {s : Str} (h : idWord extra n s = true)
    {c : CodePoint} (hc : c ∈ s) : isIdSymbol extra c = true := by
  cases s with
  | nil => cases h
  | cons d s =>
    simp only [idWord, Bool.and_eq_true, List.all_eq_true] at h
    rcases List.mem_cons.mp hc with rfl | hc
    · rw [isIdSymbol, h.1.1, Bool.true_or]
    · exact h.2 c hc

/-- What is accepted consists of those, and of a line feed at its end. -/
theorem symbol_of_mem_dollar {extra : String} {n : ℕ} {s : Str}
    (h : matchDollar (idWord extra n) s = true) {c : CodePoint} (hc : c ∈ s) :
    isIdSymbol extra c = true ∨ c = .scalar '\n' := by
  rw [matchDollar, Bool.or_eq_true, Bool.and_eq_true, beq_iff_eq] at h
  rcases h with h | ⟨hlast, h⟩
  · exact Or.inl (symbol_of_mem_word h hc)
  · obtain ⟨t, rfl⟩ := List.getLast?_eq_some_iff.mp hlast
    rw [List.dropLast_concat] at h
    rcases List.mem_append.mp hc with hc | hc
    · exact Or.inl (symbol_of_mem_word h hc)
    · exact Or.inr (List.mem_singleton.mp hc)

/-- **A word of a pattern is on one line.** -/
theorem singleLine_word {extra : String} {n : ℕ} {s : Str}
    (hextra : (LINE_BREAKS.all fun c => !isIdSymbol extra (.scalar c)) = true)
    (h : idWord extra n s = true) : SingleLine s := by
  intro c hc hmem
  have hsymbol := symbol_of_mem_word h hmem
  have hbreak := List.all_eq_true.mp hextra c hc
  rw [hsymbol] at hbreak
  cases hbreak

theorem not_singleLine_of_ends {s : Str} (h : s.getLast? = some (.scalar '\n')) :
    ¬ SingleLine s := fun hline => hline '\n' (by decide) (List.mem_of_getLast? h)

/-! ## Labels -/

/-- Text is cut at the first separator. -/
theorem cut_inj {α : Type*} {sep : α} : ∀ {a b s t : List α}, sep ∉ a → sep ∉ b →
    a ++ sep :: s = b ++ sep :: t → a = b ∧ s = t
  | [], [], _, _, _, _, h => ⟨rfl, (List.cons.inj h).2⟩
  | [], c :: b, _, _, _, hb, h => absurd ((List.cons.inj h).1 ▸ List.mem_cons_self) hb
  | c :: a, [], _, _, ha, _, h => absurd ((List.cons.inj h).1 ▸ List.mem_cons_self) ha
  | c :: a, d :: b, s, t, ha, hb, h => by
    obtain ⟨rfl, htail⟩ := List.cons.inj h
    obtain ⟨rfl, hst⟩ := cut_inj (fun hm => ha (List.mem_cons_of_mem _ hm))
      (fun hm => hb (List.mem_cons_of_mem _ hm)) htail
    exact ⟨rfl, hst⟩

/-- An epoch that is accepted contains no colon. -/
theorem colon_not_mem {boot : Str} (h : BOOT_ID_RE boot = true) : .scalar ':' ∉ boot := by
  intro hmem
  have hsymbol := symbol_of_mem_dollar h hmem
  revert hsymbol
  decide

theorem sequenceText_inj {n n' : Option ℤ}
    (h : (n.map Json.intText).getD (py "None") = (n'.map Json.intText).getD (py "None")) :
    n = n' := by
  have hnone : ∀ k : ℤ, Json.intText k ≠ py "None" := by
    intro k hk
    have hsymbol := Json.intText_symbols k (.scalar 'N') (by rw [hk]; decide)
    revert hsymbol
    decide
  cases n with
  | none =>
    cases n' with
    | none => rfl
    | some k => exact absurd h.symm (hnone k)
  | some k =>
    cases n' with
    | none => exact absurd h (hnone k)
    | some k' => exact congrArg some (Json.intText_inj h)

/-- **A label tells the epoch and the sequence.** -/
theorem revision_inj {h h' : Heartbeat} {boot boot' : Str} (hb : h.bootId = some boot)
    (hb' : h'.bootId = some boot') (hre : BOOT_ID_RE boot = true) (hre' : BOOT_ID_RE boot' = true)
    (heq : h.revision = h'.revision) : h.bootId = h'.bootId ∧ h.sequence = h'.sequence := by
  rw [Heartbeat.revision, Heartbeat.revision, hb, hb', List.append_assoc, List.append_assoc] at heq
  obtain ⟨hboot, hseq⟩ := cut_inj (colon_not_mem hre) (colon_not_mem hre') heq
  exact ⟨by rw [hb, hb']; exact congrArg some hboot, sequenceText_inj hseq⟩

/-! ## Documents that are accepted -/

variable {m : Members} {node boot : Str}

theorem node_re_of_valid (hv : validateDocument (.obj m) = .ok [])
    (hn : m.get (py "node_id") = .str node) : NODE_ID_RE node = true := by
  obtain ⟨-, -, -, -, -, -, -, hnode, -⟩ := m.violations_eq_nil.mp hv
  rw [Members.nodeIdViolations_eq_nil, hn] at hnode
  exact hnode.2 node rfl

theorem boot_re_of_valid (hv : validateDocument (.obj m) = .ok [])
    (hb : m.get (py "boot_id") = .str boot) : BOOT_ID_RE boot = true := by
  obtain ⟨-, -, -, -, -, -, -, -, hboot, -⟩ := m.violations_eq_nil.mp hv
  rw [Members.bootIdViolations_eq_nil, hb] at hboot
  exact hboot.2 boot rfl

/-- The epoch of the heartbeat that is read of an accepted document. -/
theorem bootId_of_fromDict {h : Heartbeat} (hv : validateDocument (.obj m) = .ok [])
    (hh : Heartbeat.fromDict (.obj m) = .ok h) (hb : m.get (py "boot_id") = .str boot) :
    h.bootId = some boot := by
  have hversion : m.get (py "extension_version") = .str EXTENSION_VERSION := by
    by_contra hne
    have herr : Heartbeat.fromDict (.obj m) = .error (.heartbeat (.unsupportedExtensionVersion
        (m.get (py "extension_version")) EXTENSION_VERSION)) := if_pos hne
    cases herr.symm.trans hh
  have heq : Heartbeat.fromDict (.obj m) = _ := Members.heartbeat_eq hversion hv
  rw [heq] at hh
  obtain ⟨i, -, hh⟩ := bind_eq_ok.mp hh
  obtain ⟨e, -, hh⟩ := bind_eq_ok.mp hh
  obtain rfl := Except.ok.inj hh
  show (m.get (py "boot_id")).asStr? = some boot
  rw [hb]
  rfl

/-- The identifiers are of the grammar of the schema, and what is built from them is on one line and
tells what it was built from. -/
structure ExactIdentifiers (repr : Json → Str) (m : Members) (node boot : Str) : Prop where
  ofNode : idWord "._:/+-" 254 node = true
  ofBoot : idWord "._-" 127 boot = true
  nodeLine : SingleLine node
  bootLine : SingleLine boot
  /-- No other pair of epoch and sequence has the label of this revision. -/
  label : ∀ h, Heartbeat.fromDict (.obj m) = .ok h → ∀ (m' : Members) h' boot',
    validateDocument (.obj m') = .ok [] → m'.get (py "boot_id") = .str boot' →
    Heartbeat.fromDict (.obj m') = .ok h' → h.revision = h'.revision →
    h.bootId = h'.bootId ∧ h.sequence = h'.sequence
  uriLine : SingleLine (heartbeatUri node)
  /-- The name header of a read of the address is on one line. -/
  header : ∀ envelope : RequestEnvelope, envelope.method = py "resources/read" →
    envelope.params.get (py "uri") = .str (heartbeatUri node) →
    ∀ headers, envelope.headers repr = .ok headers →
      ∀ value ∈ headers.lookup MCP_NAME_HEADER, SingleLine value

/-- The name header of a read is the address itself. -/
theorem name_header {repr : Json → Str} {envelope : RequestEnvelope} {uri : Str} {headers : Headers}
    (hmethod : envelope.method = py "resources/read")
    (huri : envelope.params.get (py "uri") = .str uri)
    (hheaders : envelope.headers repr = .ok headers) :
    headers.lookup MCP_NAME_HEADER = some uri := by
  have hparam : NAME_BEARING_METHODS.lookup envelope.method = some (py "uri") := by
    rw [hmethod]
    decide
  unfold RequestEnvelope.headers at hheaders
  rw [hparam] at hheaders
  dsimp only at hheaders
  rw [huri, if_neg (by simp)] at hheaders
  obtain rfl := Except.ok.inj hheaders
  exact AList.mem_lookup_iff.mpr (by simp [RequestEnvelope.standardHeaders, str])

/-- **The grammar of identifiers is exact** exactly when neither identifier ends with a line feed. -/
theorem identifiers_exact_exactly_when (repr : Json → Str) (m : Members) (node boot : Str)
    (hv : validateDocument (.obj m) = .ok []) (hn : m.get (py "node_id") = .str node)
    (hb : m.get (py "boot_id") = .str boot) : ExactIdentifiers repr m node boot ↔
      node.getLast? ≠ some (.scalar '\n') ∧ boot.getLast? ≠ some (.scalar '\n') := by
  constructor
  · intro h
    exact ⟨fun hlast => not_singleLine_of_ends hlast h.nodeLine,
      fun hlast => not_singleLine_of_ends hlast h.bootLine⟩
  · rintro ⟨hnode, hboot⟩
    have hnode' : idWord "._:/+-" 254 node = true :=
      (idWord_iff (by decide)).mpr ⟨node_re_of_valid hv hn, hnode⟩
    have hboot' : idWord "._-" 127 boot = true :=
      (idWord_iff (by decide)).mpr ⟨boot_re_of_valid hv hb, hboot⟩
    have hline := singleLine_word (by decide) hnode'
    have huri : SingleLine (heartbeatUri node) := by
      have hscheme : SingleLine (URI_SCHEME ++ py "://") := singleLine_of_all (by decide)
      exact singleLine_append.mpr ⟨hscheme, hline⟩
    refine ⟨hnode', hboot', hline, singleLine_word (by decide) hboot', ?_, huri, ?_⟩
    · intro h hh m' h' boot' hv' hb' hh' heq
      exact revision_inj (bootId_of_fromDict hv hh hb) (bootId_of_fromDict hv' hh' hb')
        (boot_re_of_valid hv hb) (boot_re_of_valid hv' hb') heq
    · intro envelope hmethod hparam headers hheaders value hvalue
      obtain rfl := Option.some.inj ((name_header hmethod hparam hheaders).symm.trans hvalue)
      exact huri

/-- The members of a heartbeat of the participant `node`. -/
def beatOf (node : Str) : Members :=
  [(py "extension_version", .str EXTENSION_VERSION), (py "node_id", .str node),
    (py "boot_id", .str (py "boot")), (py "sequence", .int 0),
    (py "issued_at", .str (py "2026-01-01T00:00:00Z")),
    (py "expires_at", .str (py "2026-01-01T00:00:30Z"))]

theorem identifiers_exact_exactly_when_beat :
    ExactIdentifiers (fun _ => []) (beatOf (py "svc/api-7")) (py "svc/api-7") (py "boot") ↔
      (py "svc/api-7").getLast? ≠ some (.scalar '\n') ∧
        (py "boot").getLast? ≠ some (.scalar '\n') :=
  identifiers_exact_exactly_when (fun _ => []) (beatOf (py "svc/api-7")) (py "svc/api-7") (py "boot")
    (by decide +kernel) (by decide +kernel) (by decide +kernel)

/-- **An identifier may end with a line feed**, and is accepted: its address has two lines. -/
theorem identifier_ends_line : ¬ ∀ (repr : Json → Str) (m : Members) (node boot : Str),
    validateDocument (.obj m) = .ok [] → m.get (py "node_id") = .str node →
    m.get (py "boot_id") = .str boot → ExactIdentifiers repr m node boot := by
  intro hall
  have h := hall (fun _ => []) (beatOf (py "node\n")) (py "node\n") (py "boot")
    (by decide +kernel) (by decide +kernel) (by decide +kernel)
  exact not_singleLine_of_ends (by decide) h.nodeLine

end McpHeartbeat
