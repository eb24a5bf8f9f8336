import McpHeartbeat.Core.Duplicate

/-!
# Optional data

Two runs side by side: on the documents as they are, and on the documents without optional members.

* `Json.strip`: the six core fields alone; `Heartbeat.core`: no extensions;
* `reads_strip`, `strip_unread`: a stripped document reads as the core of what the document reads as;
* `Stripped`: the relation of the two states; `IgnorableAt`: the steps that keep it;
* **`optional_data_ignorable_exactly_when`**: the two runs answer alike exactly when redeliveries of
  the held revision within its milliseconds carry its extensions;
  `optional_data_not_ignorable`: they do not always.
-/

namespace McpHeartbeat

open Base LineageState

variable {P : Platform} {state state' : LineageState} {d : Json} {c : Call} {g h : Heartbeat}
  {now : ℤ} {maxSkew : Option ℤ}

/-! ## Stripping -/

/-- The members that are core fields. -/
def Members.strip (m : Members) : Members := m.filter fun p => CORE_FIELDS.contains p.1

/-- The document without `extensions` and every other member that is no core field. -/
def Json.strip : Json → Json
  | .obj m => .obj (Members.strip m)
  | d => d

/-- The call with its document stripped. -/
def Call.strip (c : Call) : Call := { c with document := c.document.strip }

/-- The six core fields. -/
def Heartbeat.core (h : Heartbeat) : Heartbeat := { h with extensions := [] }

namespace Members

variable {m : Members} {key : Str}

theorem item_strip (hk : key ∈ CORE_FIELDS) : m.strip.item key = m.item key := by
  rw [strip, item_filter m CORE_FIELDS.contains key, if_pos (List.contains_iff_mem.mpr hk)]

theorem get_strip (hk : key ∈ CORE_FIELDS) : m.strip.get key = m.get key := by
  rw [get, get, item_strip hk]

theorem get_strip_extensions (m : Members) : m.strip.get EXTENSIONS_KEY = .null := by
  rw [get, strip, item_filter m CORE_FIELDS.contains EXTENSIONS_KEY, if_neg (by decide)]
  rfl

theorem unknownViolations_strip (m : Members) : m.strip.unknownViolations = [] := by
  rw [unknownViolations, List.map_eq_nil_iff, List.filter_eq_nil_iff]
  intro p hp
  have hc := (List.mem_filter.mp hp).2
  simp [REQUIRED_FIELDS, List.contains_iff_mem.mp hc]

/-- A stripped object passes. -/
theorem reason_strip (hr : m.reason = .ok none) : m.strip.reason = .ok none := by
  obtain ⟨hv, hw, ho⟩ := reason_eq_none.mp hr
  obtain ⟨i, e, hi, he, hwin, hmiss, hver, hnode, hboot, hseq, -, -⟩ := m.violations_eq_nil.mp ho
  have hitem : ∀ key ∈ CORE_FIELDS, m.strip.getItem key = m.getItem key := fun key hk => by
    rw [getItem, getItem, item_strip hk]
  have hstamp : ∀ key ∈ CORE_FIELDS, m.strip.readTimestamp key = m.readTimestamp key :=
    fun key hk => by rw [readTimestamp, readTimestamp, get_strip hk]
  refine reason_eq_none.mpr ⟨?_, ?_, ?_⟩
  · rw [get_strip (by decide), hv]
  · rw [← hw, expiryWindowViolation, expiryWindowViolation, stamps, stamps, hitem _ (by decide),
      hitem _ (by decide)]
  · refine m.strip.violations_eq_nil.mpr ⟨i, e, ?_, ?_, hwin, ?_, ?_, ?_, ?_, ?_, ?_,
      unknownViolations_strip m⟩
    · rw [hstamp _ (by decide), hi]
    · rw [hstamp _ (by decide), he]
    · rw [missingViolations_eq_nil] at hmiss ⊢
      intro key hk
      rw [has_iff, item_strip hk, ← has_iff]
      exact hmiss key hk
    · rw [versionViolations, get_strip (by decide)]
      exact hver
    · rw [nodeIdViolations, get_strip (by decide)]
      exact hnode
    · rw [bootIdViolations, get_strip (by decide)]
      exact hboot
    · rw [sequenceViolations, get_strip (by decide)]
      exact hseq
    · rw [extensionsViolations, get_strip_extensions]

/-- A stripped object carries the core. -/
theorem Carries.strip (hc : m.Carries h) : m.strip.Carries h.core where
  version := by rw [item_strip (by decide)]; exact hc.version
  node := by rw [item_strip (by decide)]; exact hc.node
  boot := by rw [item_strip (by decide)]; exact hc.boot
  seq := by rw [item_strip (by decide)]; exact hc.seq
  node_re := hc.node_re
  boot_re := hc.boot_re
  seq_nonneg := hc.seq_nonneg
  issued := by rw [get_strip (by decide)]; exact hc.issued
  expires := by rw [get_strip (by decide)]; exact hc.expires
  window := hc.window
  current := hc.current
  extensions := Or.inl ⟨get_strip_extensions m, rfl⟩
  namespaced := by simp [Heartbeat.core]
  unknown := unknownViolations_strip m

end Members

/-- **A stripped document reads as the core of what the document reads as.** -/
theorem reads_strip (hr : Reads d h) : Reads d.strip h.core := by
  obtain ⟨m, rfl, hc⟩ := reads_iff.mp hr
  exact reads_iff.mpr ⟨_, rfl, hc.strip⟩

/-- A document that passes and is not read stays so. -/
theorem strip_unread {e : Error} (hr : documentReason d = .ok none)
    (hp : Heartbeat.fromDict d = .error e) :
    documentReason d.strip = .ok none ∧ Heartbeat.fromDict d.strip = .error e := by
  cases d with
  | obj m =>
    rcases Members.heartbeat_of_reason hr with ⟨-, h, hh⟩ | ⟨hnull, hh⟩
    · cases hh.symm.trans hp
    · have hr' := Members.reason_strip hr
      obtain rfl : Error.valueError .notText = e := Except.error.inj (hh.symm.trans hp)
      refine ⟨hr', ?_⟩
      have hnull' : Members.NullStamp (Members.strip m) := by
        rw [Members.NullStamp, Members.get_strip (by decide), Members.get_strip (by decide)]
        exact hnull
      rcases Members.heartbeat_of_reason hr' with ⟨hn, -⟩ | ⟨-, hh'⟩
      · exact absurd hnull' hn
      · exact hh'
  | _ => cases hr

/-! ## The two states -/

/-- The verdict of an answer: its reason, whether it is a duplicate and whether it is accepted; or
what it raises. -/
def verdict (answer : Except Error Admission) : Except Error (Option ViolationCode × Bool × Bool) :=
  answer.map fun a => (a.reason, a.duplicate, a.accepted)

/-- The state of the stripped run beside the state of the run. -/
structure Stripped (state state' : LineageState) : Prop where
  participant : state'.participantId = state.participantId
  held : state'.held = state.held.map Heartbeat.core
  retired : state'.retiredEpochs = state.retiredEpochs
  reads : ∀ g, state.held = some g → ∃ e, Reads e g
  addressed : ∀ g, state.held = some g → g.nodeId = some state.participantId

theorem Stripped.start (p : Str) : Stripped (.start p) (.start p) :=
  ⟨rfl, rfl, rfl, nofun, nofun⟩

theorem Stripped.hold (hs : Stripped state state') (hr : Reads d h)
    (hn : h.nodeId = some state.participantId) :
    Stripped (state.hold h) (state'.hold h.core) where
  participant := hs.participant
  held := rfl
  retired := by rw [hold_retiredEpochs, hold_retiredEpochs, hs.retired]; rfl
  reads g hg := by
    obtain rfl := Option.some.inj hg
    exact ⟨d, hr⟩
  addressed g hg := by
    obtain rfl := Option.some.inj hg
    exact hn

/-- A call at which optional data is ignorable: what repeats the epoch and sequence that are held can
be encoded, as what is held can, and within its milliseconds carries its extensions. -/
def IgnorableAt (state : LineageState) (d : Json) : Prop :=
  ∀ g h, Reads d h → h.nodeId = some state.participantId → state.held = some g →
    h.bootId = g.bootId → h.sequence = g.sequence →
    (Json.obj h.extensions).WellFormed ∧ (Json.obj g.extensions).WellFormed ∧
      (h.SameMillis g → (Json.obj h.extensions).Same (.obj g.extensions))

/-- The two answers are alike, and related states stay related. -/
def Alike (P : Platform) (state state' : LineageState) (c : Call) : Prop :=
  verdict (c.answer P state) = verdict (c.strip.answer P state') ∧
    ((lineage P).next state c).held.map Heartbeat.core =
      ((lineage P).next state' c.strip).held.map Heartbeat.core

theorem settle_core (hs : Stripped state state') (hr : Reads d h)
    (hn : h.nodeId = some state.participantId) :
    verdict (.ok (state.settle h now maxSkew)) = verdict (.ok (state'.settle h.core now maxSkew)) ∧
      Stripped (state.settle h now maxSkew).state (state'.settle h.core now maxSkew).state := by
  have hf : checkFreshness h.core now maxSkew = checkFreshness h now maxSkew := rfl
  rw [settle, settle, hf]
  cases checkFreshness h now maxSkew with
  | some reason => exact ⟨rfl, hs⟩
  | none => exact ⟨rfl, hs.hold hr hn⟩

/-- Away from the held epoch and sequence, optional data is not looked at. -/
theorem judge_core_of_not_repeat (hs : Stripped state state') (hr : Reads d h)
    (hrep : h.nodeId = some state.participantId → ∀ g, state.held = some g →
      h.bootId = g.bootId → h.sequence ≠ g.sequence) :
    verdict (state.judge P h now maxSkew) = verdict (state'.judge P h.core now maxSkew) ∧
      Stripped (state.after (state.judge P h now maxSkew))
        (state'.after (state'.judge P h.core now maxSkew)) := by
  by_cases hn : h.nodeId = some state.participantId
  · have hn' : h.core.nodeId = some state'.participantId := hn.trans (by rw [hs.participant])
    rcases held_cases state h with ho | ⟨g, hg, hb, hseq⟩ | ⟨g, hg, hb, hseq⟩
    · have ho' : ∀ g, state'.held = some g → h.core.bootId ≠ g.bootId := by
        intro g hg
        rw [hs.held] at hg
        obtain ⟨f, hf, rfl⟩ := Option.map_eq_some_iff.mp hg
        exact ho f hf
      have hret : h.core.bootId ∈ state'.retiredEpochs ↔ h.bootId ∈ state.retiredEpochs := by
        rw [hs.retired]
        rfl
      rw [judge_open hn ho, judge_open hn' ho']
      simp only [hret]
      split_ifs
      · exact ⟨rfl, hs⟩
      · exact settle_core hs hr hn
    · exact absurd hseq (hrep hn g hg hb)
    · have hg' : state'.held = some g.core := by rw [hs.held, hg]; rfl
      have hb' : h.core.bootId = g.core.bootId := hb
      have hseq' : h.core.sequence ≠ g.core.sequence := hseq
      have hlt : sequenceLt h.core.sequence g.core.sequence = sequenceLt h.sequence g.sequence := rfl
      rw [judge_order hn hg hb hseq, judge_order hn' hg' hb' hseq', hlt]
      cases sequenceLt h.sequence g.sequence with
      | error e => exact ⟨rfl, hs⟩
      | ok lt =>
        cases lt with
        | true => exact ⟨rfl, hs⟩
        | false => exact settle_core hs hr hn
  · have hn' : h.core.nodeId ≠ some state'.participantId := by
      rw [hs.participant]
      exact hn
    rw [judge_mismatch hn, judge_mismatch hn']
    exact ⟨rfl, hs⟩

/-- The stripped run at the held epoch and sequence: both digests are there, and milliseconds
decide. -/
theorem judge_core_repeat_cases (now : ℤ) (maxSkew : Option ℤ)
    (hsha : Function.Injective P.sha256) (hs : Stripped state state') (hr : Reads d h)
    (hn : h.nodeId = some state.participantId) (hg : state.held = some g)
    (hb : h.bootId = g.bootId) (hseq : h.sequence = g.sequence) :
    (h.SameMillis g ∧
      state'.judge P h.core now maxSkew = .ok { state := state', duplicate := true }) ∨
    (¬ h.SameMillis g ∧ h.sequence = none ∧
      state'.judge P h.core now maxSkew = .error .typeError) ∨
    (¬ h.SameMillis g ∧ h.sequence ≠ none ∧ state'.judge P h.core now maxSkew =
      .ok { state := state', reason := some .sequenceConflict }) := by
  obtain ⟨e, he⟩ := hs.reads g hg
  have hn' : h.core.nodeId = some state'.participantId := hn.trans (by rw [hs.participant])
  have hg' : state'.held = some g.core := by rw [hs.held, hg]; rfl
  have hnode : h.nodeId = g.nodeId := hn.trans (hs.addressed g hg).symm
  have hco : h.core.Coincides g.core ↔ h.SameMillis g := by
    rw [coincides_iff (reads_strip hr) (reads_strip he) hnode hb hseq]
    exact and_iff_left rfl
  have henc : h.core.Encodable P := by
    rw [encodable_iff (reads_strip hr)]
    exact (by decide : (Json.obj []).WellFormed)
  have genc : g.core.Encodable P := by
    rw [encodable_iff (reads_strip he)]
    exact (by decide : (Json.obj []).WellFormed)
  have hsequence : h.core.sequence = h.sequence := rfl
  have hcases := judge_repeat_cases now maxSkew hsha hn' hg' (c := h.core) hb hseq
  simpa only [henc, genc, not_true_eq_false, or_self, false_and, true_and, false_or, hco,
    hsequence] using hcases

/-- What repeats the held epoch and sequence moves nothing. -/
theorem after_repeat (now : ℤ) (maxSkew : Option ℤ) (hsha : Function.Injective P.sha256)
    (hn : h.nodeId = some state.participantId) (hg : state.held = some g)
    (hb : h.bootId = g.bootId) (hseq : h.sequence = g.sequence) :
    state.after (state.judge P h now maxSkew) = state := by
  rcases judge_repeat_cases now maxSkew hsha hn hg hb hseq with
    ⟨-, hj⟩ | ⟨-, -, -, hj⟩ | ⟨-, -, -, -, hj⟩ | ⟨-, -, -, -, hj⟩ <;> rw [hj] <;> rfl

/-- At the held epoch and sequence, the answers are alike exactly when optional data is ignorable. -/
theorem judge_core_of_repeat (hsha : Function.Injective P.sha256) (hs : Stripped state state')
    (hr : Reads d h) (hn : h.nodeId = some state.participantId) (hg : state.held = some g)
    (hb : h.bootId = g.bootId) (hseq : h.sequence = g.sequence) :
    (verdict (state.judge P h now maxSkew) = verdict (state'.judge P h.core now maxSkew) ↔
      (Json.obj h.extensions).WellFormed ∧ (Json.obj g.extensions).WellFormed ∧
        (h.SameMillis g → (Json.obj h.extensions).Same (.obj g.extensions))) ∧
      Stripped (state.after (state.judge P h now maxSkew))
        (state'.after (state'.judge P h.core now maxSkew)) := by
  obtain ⟨e, he⟩ := hs.reads g hg
  have hnode : h.nodeId = g.nodeId := hn.trans (hs.addressed g hg).symm
  have hcases := judge_repeat_cases now maxSkew hsha hn hg hb hseq
  have hcases' := judge_core_repeat_cases now maxSkew hsha hs hr hn hg hb hseq
  rw [coincides_iff hr he hnode hb hseq] at hcases
  constructor
  · rw [← encodable_iff (P := P) hr, ← encodable_iff (P := P) he]
    rcases hcases with ⟨hnot, hj⟩ | ⟨hec, heg, hcoin, hj⟩ | ⟨hec, heg, hcoin, hnone, hj⟩ |
      ⟨hec, heg, hcoin, hsome, hj⟩
    · -- a digest is missing, and the stripped run has both
      have hne : verdict (state.judge P h now maxSkew) ≠
          verdict (state'.judge P h.core now maxSkew) := by
        rcases hcases' with ⟨-, hj'⟩ | ⟨-, -, hj'⟩ | ⟨-, -, hj'⟩ <;> rw [hj, hj'] <;>
          simp [verdict, Except.map]
      exact iff_of_false hne fun hall => hnot.elim (absurd hall.1) (absurd hall.2.1)
    · have hj' := (hcases'.resolve_right
        fun h => h.elim (absurd hcoin.1 ·.1) (absurd hcoin.1 ·.1)).2
      rw [hj, hj']
      exact iff_of_true rfl ⟨hec, heg, fun _ => hcoin.2⟩
    · rcases hcases' with ⟨hm, hj'⟩ | ⟨hm, -, hj'⟩ | ⟨-, hsome, -⟩
      · rw [hj, hj']
        exact iff_of_false (by simp [verdict, Except.map]) fun hall => hcoin ⟨hm, hall.2.2 hm⟩
      · rw [hj, hj']
        exact iff_of_true rfl ⟨hec, heg, fun hm' => absurd hm' hm⟩
      · exact absurd hnone hsome
    · rcases hcases' with ⟨hm, hj'⟩ | ⟨-, hnone, -⟩ | ⟨hm, -, hj'⟩
      · rw [hj, hj']
        exact iff_of_false (by simp [verdict, Except.map]) fun hall => hcoin ⟨hm, hall.2.2 hm⟩
      · exact absurd hnone hsome
      · rw [hj, hj']
        exact iff_of_true rfl ⟨hec, heg, fun hm' => absurd hm' hm⟩
  · rw [after_repeat now maxSkew hsha hn hg hb hseq]
    rcases hcases' with ⟨-, hj'⟩ | ⟨-, -, hj'⟩ | ⟨-, -, hj'⟩ <;> rw [hj'] <;> exact hs

/-! ## The two runs -/

/-- One call on related states: the answers are alike exactly when optional data is ignorable there,
and the states stay related. -/
theorem stripped_step (hsha : Function.Injective P.sha256) (hs : Stripped state state')
    (hc : documentReason c.document = .ok none) :
    (Alike P state state' c ↔ IgnorableAt state c.document) ∧
      Stripped ((lineage P).next state c) ((lineage P).next state' c.strip) := by
  have hrun : ∀ {x y : Except Error Admission}, c.answer P state = x → c.strip.answer P state' = y →
      Stripped (state.after x) (state'.after y) →
      (verdict x = verdict y ↔ IgnorableAt state c.document) →
      (Alike P state state' c ↔ IgnorableAt state c.document) ∧
        Stripped ((lineage P).next state c) ((lineage P).next state' c.strip) := by
    rintro x y rfl rfl hafter hiff
    refine ⟨?_, hafter⟩
    have hcore : ((lineage P).next state c).held.map Heartbeat.core =
        ((lineage P).next state' c.strip).held.map Heartbeat.core := by
      have hh : ((lineage P).next state' c.strip).held =
          ((lineage P).next state c).held.map Heartbeat.core := hafter.held
      rw [hh, Option.map_map]
      rfl
    rw [Alike, hiff]
    exact and_iff_left hcore
  cases hp : Heartbeat.fromDict c.document with
  | error e =>
    obtain ⟨hr', hp'⟩ := strip_unread hc hp
    refine hrun (admit_of_unread hc hp) (admit_of_unread hr' hp') hs (iff_of_true rfl ?_)
    intro g h hread
    cases hp.symm.trans hread.parse
  | ok h =>
    have hread : Reads c.document h := ⟨hc, hp⟩
    have hanswer : c.answer P state = state.judge P h c.now c.maxSkew := admit_of_reads hread
    have hanswer' : c.strip.answer P state' = state'.judge P h.core c.now c.maxSkew :=
      admit_of_reads (reads_strip hread)
    by_cases hrep : ∃ g, h.nodeId = some state.participantId ∧ state.held = some g ∧
        h.bootId = g.bootId ∧ h.sequence = g.sequence
    · obtain ⟨g, hn, hg, hb, hseq⟩ := hrep
      obtain ⟨hiff, hafter⟩ := judge_core_of_repeat hsha hs hread hn hg hb hseq
      refine hrun hanswer hanswer' hafter (hiff.trans ⟨fun hall f k hk _ hf _ _ => ?_, fun hall => ?_⟩)
      · obtain rfl := hread.unique hk
        obtain rfl := Option.some.inj (hg.symm.trans hf)
        exact hall
      · exact hall g h hread hn hg hb hseq
    · have hno : h.nodeId = some state.participantId → ∀ g, state.held = some g →
          h.bootId = g.bootId → h.sequence ≠ g.sequence := fun hn g hg hb hseq =>
        hrep ⟨g, hn, hg, hb, hseq⟩
      obtain ⟨hv, hafter⟩ := judge_core_of_not_repeat hs hread hno
      refine hrun hanswer hanswer' hafter (iff_of_true hv fun g k hk hn hg hb hseq => ?_)
      obtain rfl := hread.unique hk
      exact absurd hseq (hno hn g hg hb)

/-- **When optional data is ignorable.** Let every document pass. The run and the stripped run answer
alike at every call, and hold the same six core fields after it, exactly when optional data is
ignorable at every call. -/
theorem optional_data_ignorable_exactly_when (P : Platform) (hsha : Function.Injective P.sha256)
    (p : Str) (calls : List Call) (hpass : ∀ c ∈ calls, documentReason c.document = .ok none) :
    (∀ pre c post, calls = pre ++ c :: post →
      Alike P ((lineage P).run (.start p) pre)
        ((lineage P).run (.start p) (pre.map Call.strip)) c) ↔
    ∀ pre c post, calls = pre ++ c :: post →
      IgnorableAt ((lineage P).run (.start p) pre) c.document := by
  refine forall₄_congr fun pre c post he => ?_
  have hmem : ∀ x ∈ pre ++ [c], documentReason x.document = .ok none := fun x hx => by
    refine hpass x (he ▸ ?_)
    rw [List.append_cons]
    exact List.mem_append_left _ hx
  have hstep : ∀ s s' c, documentReason c.document = .ok none → Stripped s s' →
      Stripped ((lineage P).next s c) ((lineage P).next s' c.strip) :=
    fun _ _ _ hc hs => (stripped_step hsha hs hc).2
  have hs := (lineage P).lockstep (lineage P) hstep pre (.start p) (.start p)
    (fun x hx => hmem x (List.mem_append_left _ hx)) (Stripped.start p)
  exact (stripped_step hsha hs (hmem c (by simp))).1

/-- The two runs over a redelivery. -/
theorem optional_data_ignorable_redelivered :
    (∀ pre c post, [accepting, accepting] = pre ++ c :: post →
      Alike plainPlatform ((lineage plainPlatform).run (.start (py "node")) pre)
        ((lineage plainPlatform).run (.start (py "node")) (pre.map Call.strip)) c) ↔
    ∀ pre c post, [accepting, accepting] = pre ++ c :: post →
      IgnorableAt ((lineage plainPlatform).run (.start (py "node")) pre) c.document :=
  optional_data_ignorable_exactly_when plainPlatform plainPlatform_injective (py "node")
    [accepting, accepting] (by decide +kernel)

/-- **Optional data is not always ignorable**: a redelivery without its extension is a conflict in the
run and a duplicate in the stripped run. -/
theorem optional_data_not_ignorable : ¬ ∀ (P : Platform) (p : Str) (calls : List Call),
    (∀ c ∈ calls, documentReason c.document = .ok none) →
      ∀ pre c post, calls = pre ++ c :: post →
        Alike P ((lineage P).run (.start p) pre)
          ((lineage P).run (.start p) (pre.map Call.strip)) c := by
  intro hall
  let bare : Call := accepting.strip
  have hpass : ∀ c ∈ [accepting, bare], documentReason c.document = .ok none := by decide +kernel
  have halike := hall plainPlatform (py "node") [accepting, bare] hpass [accepting] bare [] rfl
  have hs := (stripped_step plainPlatform_injective (Stripped.start (py "node"))
    (hpass accepting List.mem_cons_self)).2
  have hfull : Reads accepting.document acceptedOnce.heartbeat :=
    reading_eq_some.mp (by decide +kernel)
  have hread : Reads bare.document acceptedOnce.heartbeat.core := reads_strip hfull
  have hsame := ((stripped_step plainPlatform_injective hs (hpass bare (by simp))).1.mp halike
    acceptedOnce.heartbeat _ hread rfl rfl rfl rfl).2.2 ⟨rfl, rfl⟩
  exact absurd hsame (by decide)

end McpHeartbeat
