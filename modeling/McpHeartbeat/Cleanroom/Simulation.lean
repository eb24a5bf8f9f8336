import McpHeartbeat.Cleanroom.Judgement
import McpHeartbeat.Cleanroom.Validators
import McpHeartbeat.Core.History
import McpHeartbeat.Core.Totality

/-!
# The clean room simulates the reference

Both consumers read the same calls.

* `receiver`: the clean-room consumer over the calls of the reference one;
* `Members.Carries.valid`, `carries_of_valid`: what one side reads and what the other one takes as
  valid; `takes_iff`: what either side accepts;
* `Shadows`: the invariant, that the clean room tracks the documents the reference accepted;
  `Shadows.step`: a call that both accept, or both refuse, keeps it;
* **`simulates`**: on regular documents both accept alike and hold alike, after every run.
-/

namespace McpHeartbeat

open Base CleanRoom

variable (P : Platform)

/-- The clean-room consumer over calls; the journal is what it answers. -/
def CleanRoom.receiver : Machine Consumer Call Answer where
  next c call := (c.admitDocument P call.document call.now).2
  entry c call := (c.admitDocument P call.document call.now).1.toOption

/-- A document without a null core member, of well-formed text, whose timestamps stay in the
calendar. -/
structure Json.Regular (d : Json) : Prop where
  whole : ∀ key ∈ CORE_FIELDS, d.contains key = true → d.member key ≠ .null
  calendar : ¬ Overflows (d.member (py "issued_at")) ∧ ¬ Overflows (d.member (py "expires_at"))
  text : d.WellFormed

instance (d : Json) : Decidable d.Regular :=
  decidable_of_iff
    ((∀ key ∈ CORE_FIELDS, d.contains key = true → d.member key ≠ .null) ∧
      (¬ Overflows (d.member (py "issued_at")) ∧ ¬ Overflows (d.member (py "expires_at"))) ∧
      d.WellFormed)
    ⟨fun ⟨hw, hc, ht⟩ => ⟨hw, hc, ht⟩, fun h => ⟨h.whole, h.calendar, h.text⟩⟩

/-- A document and the clock it meets, with no bound on the skew. -/
def unbounded (e : Json × ℤ) : Call := ⟨e.1, e.2, none⟩

/-- Both hold the same `(boot_id, sequence)`, or both hold nothing. -/
def SameHeld (state : LineageState) (c : Consumer) : Prop :=
  state.held.map (fun h => (Json.ofStr? h.bootId, Json.ofInt? h.sequence)) =
    c.held.map fun m => (m.get (py "boot_id"), m.get (py "sequence"))

variable {P} {state : LineageState} {c : Consumer} {m : Members} {d : Json} {h : Heartbeat} {p : Str}
  {past : List Acceptance} {now : ℤ}

/-! ## What either side reads -/

namespace Members

theorem get_of_item {key : Str} {v : Json} (hv : m.item key = some v) : m.get key = v := by
  rw [get, hv]
  rfl

namespace Carries

variable (hc : m.Carries h)

include hc

/-- What the reference reads is valid to the clean room. -/
theorem valid : CleanRoom.violations m = [] := by
  have hstamp : ∀ {key t}, parseRfc3339 (m.get key) = .ok t →
      ¬ Overflows (m.get key) ∧ m.get key ≠ .null := by
    intro key t ht
    refine ⟨fun ho => ?_, fun hn => ?_⟩
    · cases ht.symm.trans ho
    · rw [hn, parse_null] at ht
      cases ht
  have hreason := (reason_eq_none.mp hc.reads.reason).2.2
  exact (violations_nil_iff (hstamp hc.issued).1 (hstamp hc.expires).1).mpr
    ⟨((violations_nil_iff_passable noFloat).mp hreason).1, (hstamp hc.issued).2,
      (hstamp hc.expires).2⟩

theorem isFresh_iff : isFresh m now = true ↔ now < h.expiresAt.instant := by
  rw [isFresh, parse_ok_iff.mp hc.expires]
  simp

theorem node_iff : m.get (py "node_id") = .str p ↔ h.nodeId = some p := by
  rw [get_of_item hc.node]
  exact (Json.ofStr?_injective.eq_iff (b := some p))

theorem bootOf_eq : bootOf m = Json.ofStr? h.bootId := get_of_item hc.boot

theorem sequence_eq : m.get (py "sequence") = Json.ofInt? h.sequence := get_of_item hc.seq

theorem sequenceRises_iff {m' : Members} {h' : Heartbeat} (hc' : m'.Carries h') :
    SequenceRises m m' ↔ Rises h h' := by
  unfold SequenceRises Rises
  rw [hc.sequence_eq, hc'.sequence_eq]
  cases h.sequence <;> cases h'.sequence <;> simp [Json.ofInt?]

/-- An object against itself: sequences that are null have no order. -/
theorem against_self (P : Platform) : Consumer.against P m m =
    if h.sequence = none then .error .typeError else .ok .duplicate := by
  cases hs : h.sequence with
  | none =>
    have hnull : m.get (py "sequence") = .null := by
      rw [hc.sequence_eq, hs]
      rfl
    simp [Consumer.against, hnull, CleanRoom.sequenceLt]
  | some n =>
    have hint : m.get (py "sequence") = .int n := by
      rw [hc.sequence_eq, hs]
      rfl
    obtain ⟨x, y, hx, hy, hxy⟩ := Consumer.against_of_eq (P := P) hint hint rfl
    rw [hxy, if_pos (Except.ok.inj (hx.symm.trans hy)), if_neg (Option.some_ne_none n)]

end Carries

/-- **What is valid to the clean room is read by the reference**, on a regular document. -/
theorem carries_of_valid (hr : (Json.obj m).Regular) (hv : CleanRoom.violations m = []) :
    ∃ h, m.Carries h := by
  obtain ⟨hpass, hni, hne⟩ := (violations_nil_iff hr.calendar.1 hr.calendar.2).mp hv
  have hvalid : m.violations = .ok [] :=
    (violations_nil_iff_passable noFloat).mpr ⟨hpass, not_isWholeFloat⟩
  have hversion := hpass.version.resolve_left
    (hr.whole _ (by decide) (hpass.required _ (by decide)))
  obtain ⟨i, hi⟩ := hpass.issued.resolve_left hni
  obtain ⟨e, he⟩ := hpass.expires.resolve_left hne
  obtain ⟨hpos, hmax⟩ := hpass.window i e hi he
  have hwindow : m.expiryWindowViolation = .ok none := by
    have hstamps : m.stamps = .ok (i, e) := by
      rw [stamps_of_has (hpass.required _ (by decide)) (hpass.required _ (by decide)), hi, he]
      rfl
    simp [expiryWindowViolation, hstamps, attempt, sub_pos.mp hpos, not_lt.mpr hmax]
  have hreason := reason_eq_none.mpr ⟨hversion, hwindow, hvalid⟩
  rcases heartbeat_of_reason hreason with ⟨-, h, hh⟩ | ⟨hnull, -⟩
  · exact ⟨h, carries_of_heartbeat hreason hh⟩
  · exact absurd hnull (not_or.mpr ⟨hni, hne⟩)

end Members

/-! ## The invariant -/

/-- The object of an accepted document. -/
def Acceptance.members (a : Acceptance) : Members := a.call.document.asMembers

theorem Acceptance.carries {a : Acceptance} (hr : Reads a.call.document a.heartbeat) :
    a.call.document = .obj a.members ∧ a.members.Carries a.heartbeat := by
  obtain ⟨m, hm, hc⟩ := reads_iff.mp hr
  rw [Acceptance.members, hm]
  exact ⟨rfl, hc⟩

/-- **The clean room tracks the documents that the reference accepted.** -/
structure Shadows (p : Str) (state : LineageState) (c : Consumer) (past : List Acceptance) :
    Prop where
  history : History p state past
  node : c.nodeId = p
  tracks : c.register.Tracks bootOf (past.map Acceptance.members)

theorem Shadows.start (p : Str) : Shadows p (.start p) { nodeId := p } [] where
  history := History.start p
  node := rfl
  tracks := by
    rw [Consumer.register_start]
    exact Register.tracks_empty _

/-- **What the registers accept of a document is the same.** -/
theorem Shadows.accepts_iff (hf : Shadows p state c past) (hc : m.Carries h) :
    state.Admits h ↔ c.register.Accepts bootOf SequenceRises m := by
  let a : Acceptance := ⟨⟨.obj m, 0, none⟩, h⟩
  have hpast : ∀ b ∈ past, b.members.Carries b.heartbeat := fun b hb =>
    (Acceptance.carries (hf.history.reads b hb)).2
  refine Register.Tracks.accepts_iff (a := a) hf.history.tracks hf.tracks (fun b hb => ?_)
    fun b hb => ?_
  · show b.heartbeat.bootId = h.bootId ↔ bootOf b.members = bootOf m
    rw [(hpast b hb).bootOf_eq, hc.bootOf_eq, Json.ofStr?_injective.eq_iff]
  · exact ((hpast b hb).sequenceRises_iff hc).symm

/-- **What either side accepts of a document that the reference reads.** -/
theorem Shadows.takes_iff (hf : Shadows p state c past) (hc : m.Carries h) :
    c.Takes m now ↔
      h.nodeId = some state.participantId ∧ state.Admits h ∧ now < h.expiresAt.instant := by
  rw [hf.history.participant, ← hc.node_iff, ← hc.isFresh_iff, hf.accepts_iff hc, ← hf.node]
  exact ⟨fun ht => ⟨ht.node, ht.accepts, ht.fresh⟩, fun ⟨hn, ha, hfr⟩ => ⟨hc.valid, hn, hfr, ha⟩⟩

/-- Each side holds its own reading of the last acceptance. -/
theorem Shadows.held_eq (hf : Shadows p state c past) :
    state.held = past.getLast?.map Acceptance.heartbeat ∧
      c.held = past.getLast?.map Acceptance.members :=
  ⟨hf.history.tracks.held.trans List.getLast?_map, hf.tracks.held.trans List.getLast?_map⟩

/-- Both hold the same. -/
theorem Shadows.sameHeld (hf : Shadows p state c past) : SameHeld state c := by
  unfold SameHeld
  rw [hf.held_eq.1, hf.held_eq.2]
  cases hlast : past.getLast? with
  | none => rfl
  | some a =>
    have hc := (Acceptance.carries (hf.history.reads a (List.mem_of_getLast? hlast))).2
    rw [Option.map_some, Option.map_some, Option.map_some, Option.map_some, ← hc.bootOf_eq,
      ← hc.sequence_eq]
    rfl

/-- **A call that both accept, or both refuse, keeps the invariant.** -/
theorem Shadows.step (hf : Shadows p state c past) (call : Call)
    (halike : ((lineage P).entry state call).isSome ↔
      (c.admitDocument P call.document call.now).1 = .ok .ok) :
    Shadows p ((lineage P).next state call) ((receiver P).next c call)
      (past ++ ((lineage P).entry state call).toList) := by
  have hist := hf.history.step (P := P) (c := call)
  rcases call_cases P state call with ⟨h, hr, -, -, -, hnext, hentry⟩ | ⟨hnext, hentry⟩
  · rw [hentry] at halike
    rcases c.admit_cases P call.document call.now with ⟨m, hm, -, hadm⟩ | ⟨-, hrefused, -⟩
    · rw [hnext, hentry] at hist ⊢
      have hmembers : (past ++ [(⟨call, h⟩ : Acceptance)]).map Acceptance.members =
          past.map Acceptance.members ++ [m] := by
        simp [Acceptance.members, hm, Json.asMembers]
      have hnext' : (receiver P).next c call = c.hold m := congrArg Prod.snd hadm
      rw [hnext']
      refine ⟨hist, hf.node, ?_⟩
      rw [Option.toList_some, hmembers, Consumer.register_hold]
      exact hf.tracks.accept
    · exact absurd (halike.mp rfl) hrefused
  · rw [hentry] at halike
    rcases c.admit_cases P call.document call.now with ⟨m, -, -, hadm⟩ | ⟨-, -, hsame⟩
    · rw [hadm] at halike
      exact absurd (halike.mpr rfl) (by simp)
    · have hnext' : (receiver P).next c call = c := hsame
      rw [hnext, hentry, Option.toList_none, List.append_nil] at hist ⊢
      rw [hnext']
      exact ⟨hist, hf.node, hf.tracks⟩

/-! ## Regular documents -/

theorem Members.Carries.sequence_some (hc : m.Carries h) (hr : (Json.obj m).Regular) :
    ∃ n, h.sequence = some n := by
  apply Option.ne_none_iff_exists'.mp
  intro hnone
  have hhas : m.has (py "sequence") = true := by
    rw [has_iff, hc.seq]
    rfl
  have hnull : m.get (py "sequence") = .null := by
    rw [hc.sequence_eq, hnone]
    rfl
  exact hr.whole _ (by decide) hhas hnull

/-- What was accepted was written into the journal. -/
theorem accepted_iff_entry {a : Admission} {maxSkew : Option ℤ}
    (ha : admitDocument P state d now maxSkew = .ok a) :
    a.accepted = true ↔ ((lineage P).entry state ⟨d, now, maxSkew⟩).isSome := by
  have hentry : (lineage P).entry state ⟨d, now, maxSkew⟩ =
      Call.accepted? ⟨d, now, maxSkew⟩ (.ok a) :=
    congrArg (Call.accepted? ⟨d, now, maxSkew⟩) ha
  rw [hentry]
  rcases admit_ok ha with ⟨h, -, rfl, -⟩ | ⟨hacc, -⟩
  · exact iff_of_true rfl rfl
  · simp [Call.accepted?, hacc]

/-- **On a regular document both accept alike.** -/
theorem Shadows.accepted_iff (hf : Shadows p state c past) (hr : d.Regular) (now : ℤ) :
    ((lineage P).entry state ⟨d, now, none⟩).isSome ↔
      (c.admitDocument P d now).1 = .ok .ok := by
  constructor
  · intro hsome
    rcases call_cases P state ⟨d, now, none⟩ with ⟨h, hread, hn, hadm, hfresh, -, -⟩ | ⟨-, hnone⟩
    · obtain ⟨m, rfl, hc⟩ := reads_iff.mp hread
      have ht := (hf.takes_iff hc).mpr ⟨hn, hadm, (checkFreshness_eq_none.mp hfresh).2⟩
      rw [Consumer.admit_takes ht]
    · rw [hnone] at hsome
      cases hsome
  · intro hok
    rcases c.admit_cases P d now with ⟨m, rfl, ht, -⟩ | ⟨-, hrefused, -⟩
    · obtain ⟨h, hc⟩ := Members.carries_of_valid hr ht.valid
      obtain ⟨hn, hadm, hlt⟩ := (hf.takes_iff hc).mp ht
      have hfresh : checkFreshness h now none = none :=
        checkFreshness_eq_none.mpr ⟨by simp, hlt⟩
      have hanswer : Call.answer P ⟨.obj m, now, none⟩ state = .ok { state := state.hold h } := by
        rw [Call.answer, admit_of_reads hc.reads]
        rcases @judge_timely P state h now none hn hfresh with ⟨-, hj⟩ | ⟨hnot, -⟩
        · exact hj
        · exact absurd hadm hnot
      show (Call.accepted? _ (Call.answer P _ state)).isSome
      rw [hanswer]
      rfl
    · exact absurd hok hrefused

/-- **The reference answers a regular document** when all it accepted was regular. -/
theorem Shadows.answers (hf : Shadows p state c past)
    (hpast : ∀ a ∈ past, a.call.document.Regular) (hr : d.Regular) (now : ℤ) :
    ∃ a, admitDocument P state d now none = .ok a := by
  have hheld : ∀ g, state.held = some g → ∃ e, Reads e g ∧ e.Regular := by
    intro g hg
    obtain ⟨a, ha, rfl⟩ := hf.history.exists_held hg
    exact ⟨_, hf.history.reads a ha, hpast a ha⟩
  have hext : ∀ {e : Json} {g : Heartbeat}, Reads e g → e.Regular →
      (∃ n, g.sequence = some n) ∧ (Json.obj g.extensions).WellFormed := by
    intro e g hread hreg
    obtain ⟨m, rfl, hc⟩ := reads_iff.mp hread
    exact ⟨hc.sequence_some hreg, (encodable_iff hread).mp (encodable_of_wellFormed (P := P) hread
      hreg.text)⟩
  refine (admit_isOk fun g hg => (hheld g hg).imp fun e he => he.1).mpr
    ⟨fun _ => hr.calendar, fun hreason => ?_, fun h g hread _ hg _ => ?_⟩
  · cases d with
    | obj m =>
      have hvalid := (Members.reason_eq_none.mp hreason).2.2
      have hpass := ((Members.violations_nil_iff_passable noFloat).mp hvalid).1
      exact ⟨hr.whole _ (by decide) (hpass.required _ (by decide)),
        hr.whole _ (by decide) (hpass.required _ (by decide))⟩
    | _ => cases hreason
  · obtain ⟨e, he, hereg⟩ := hheld g hg
    obtain ⟨⟨a, ha⟩, hw⟩ := hext hread hr
    obtain ⟨⟨b, hb⟩, hw'⟩ := hext he hereg
    exact ⟨fun hnone => by simp [ha, hb] at hnone, fun _ => ⟨hw, hw'⟩⟩

/-- **So does the clean room.** -/
theorem Shadows.answers_clean (P : Platform) (hf : Shadows p state c past)
    (hpast : ∀ a ∈ past, a.call.document.Regular) (hr : d.Regular) (now : ℤ) :
    ∃ r, (c.admitDocument P d now).1 = .ok r := by
  have hnumber : ∀ {m h}, Members.Carries m h → (Json.obj m).Regular →
      ∃ n, m.get (py "sequence") = .int n := by
    intro m h hc hreg
    obtain ⟨n, hn⟩ := hc.sequence_some hreg
    exact ⟨n, by rw [hc.sequence_eq, hn]; rfl⟩
  cases d with
  | obj m =>
    by_cases hv : CleanRoom.violations m = []
    · by_cases hok : c.answer P m now = .ok .ok
      · obtain ⟨hn, hfr, ha⟩ := Consumer.answer_ok_iff.mp hok
        exact ⟨.ok, by rw [Consumer.admit_takes ⟨hv, hn, hfr, ha⟩]⟩
      · rw [Consumer.admit_of_answer hv hok]
        by_cases hn : Members.get m (py "node_id") = .str c.nodeId
        · cases hfr : isFresh m now with
          | false => exact ⟨_, Consumer.answer_late hn hfr⟩
          | true =>
            rcases c.held_cases m with ho | ⟨g, hg, hb⟩
            · exact ⟨_, Consumer.answer_open hn hfr ho⟩
            · rw [Consumer.answer_same hn hfr hg hb]
              obtain ⟨h, hc⟩ := Members.carries_of_valid hr hv
              obtain ⟨b, hseq⟩ := hnumber hc hr
              rw [hf.held_eq.2] at hg
              obtain ⟨a, ha, rfl⟩ := Option.map_eq_some_iff.mp hg
              have hmem := List.mem_of_getLast? ha
              obtain ⟨hdoc, hcar⟩ := Acceptance.carries (hf.history.reads a hmem)
              obtain ⟨k, hheld⟩ := hnumber hcar (hdoc ▸ hpast a hmem)
              rcases lt_trichotomy b k with hlt | heq | hgt
              · exact ⟨_, Consumer.against_of_lt hheld hseq hlt⟩
              · obtain ⟨x, y, -, -, hxy⟩ := Consumer.against_of_eq (P := P) hheld hseq heq
                exact ⟨_, hxy⟩
              · exact ⟨_, Consumer.against_of_gt hheld hseq hgt⟩
        · exact ⟨_, Consumer.answer_mismatch hn⟩
    · exact ⟨.schemaInvalid, congrArg Prod.fst (if_pos hv)⟩
  | _ => exact ⟨.schemaInvalid, rfl⟩

/-! ## Runs -/

/-- **Every run of regular documents keeps the invariant.** -/
theorem shadows (P : Platform) (p : Str) {es : List (Json × ℤ)} (hr : ∀ e ∈ es, e.1.Regular) :
    Shadows p ((lineage P).run (.start p) (es.map unbounded))
      ((receiver P).run { nodeId := p } (es.map unbounded))
      ((lineage P).journal (.start p) (es.map unbounded)) := by
  induction es using List.reverseRecOn with
  | nil => exact Shadows.start p
  | append_singleton es e ih =>
    obtain ⟨hes, he⟩ := List.forall_mem_append.mp hr
    have hf := ih hes
    have hstep := hf.step (unbounded e)
      (hf.accepted_iff (P := P) (he e (List.mem_singleton_self e)) e.2)
    simpa [unbounded, Machine.journal_append] using hstep

/-- **The clean room simulates the reference on acceptance.** On any run of regular documents, with
no bound on the skew, both consumers answer every step, one accepts it exactly when the other says
`ok`, and after it both hold the same epoch and sequence, or nothing. -/
theorem simulates (P : Platform) (p : Str) (es : List (Json × ℤ)) (hr : ∀ e ∈ es, e.1.Regular) :
    ∀ pre e post, es = pre ++ e :: post →
      let state := (lineage P).run (.start p) (pre.map unbounded)
      let c := (receiver P).run { nodeId := p } (pre.map unbounded)
      ∃ a r, admitDocument P state e.1 e.2 none = .ok a ∧ (c.admitDocument P e.1 e.2).1 = .ok r ∧
        (a.accepted = true ↔ r = .ok) ∧ SameHeld a.state (c.admitDocument P e.1 e.2).2 := by
  rintro pre e post rfl state c
  obtain ⟨hpre, hrest⟩ := List.forall_mem_append.mp hr
  have he := hrest e List.mem_cons_self
  have hf := shadows P p hpre
  have hpast : ∀ a ∈ (lineage P).journal (.start p) (pre.map unbounded),
      a.call.document.Regular := by
    intro a ha
    obtain ⟨x, hx, hcall⟩ := List.mem_map.mp (call_mem_of_journal ha)
    rw [← hcall]
    exact hpre x hx
  obtain ⟨a, ha⟩ := hf.answers (P := P) hpast he e.2
  obtain ⟨r, hr⟩ := hf.answers_clean P hpast he e.2
  have halike := hf.accepted_iff (P := P) he e.2
  have hnext : (lineage P).next state (unbounded e) = a.state := by
    show state.after (admitDocument P state e.1 e.2 none) = a.state
    rw [ha, after_ok]
  refine ⟨a, r, ha, hr, ?_, ?_⟩
  · rw [hr, Except.ok.injEq] at halike
    rw [← halike, accepted_iff_entry ha]
  · have hsame := (hf.step (unbounded e) halike).sameHeld
    rwa [hnext] at hsame

/-- Two revisions, and the first one again. -/
def overtaken : List (Json × ℤ) :=
  [(beat (.int 0) "2026-01-01T00:00:00Z" "2026-01-01T00:00:30Z" [], newYear),
    (beat (.int 1) "2026-01-01T00:00:01Z" "2026-01-01T00:00:31Z" [], newYear + second),
    (beat (.int 0) "2026-01-01T00:00:00Z" "2026-01-01T00:00:30Z" [], newYear + 2 * second)]

theorem simulates_overtaken :
    let state := (lineage plainPlatform).run (.start (py "node"))
      ((overtaken.take 2).map unbounded)
    let c := (receiver plainPlatform).run { nodeId := py "node" } ((overtaken.take 2).map unbounded)
    let e := (beat (.int 0) "2026-01-01T00:00:00Z" "2026-01-01T00:00:30Z" [], newYear + 2 * second)
    ∃ a r, admitDocument plainPlatform state e.1 e.2 none = .ok a ∧
      (c.admitDocument plainPlatform e.1 e.2).1 = .ok r ∧
      (a.accepted = true ↔ r = .ok) ∧
      SameHeld a.state (c.admitDocument plainPlatform e.1 e.2).2 :=
  simulates plainPlatform (py "node") overtaken (by decide +kernel) (overtaken.take 2) _ [] rfl

end McpHeartbeat
