import McpHeartbeat.Core.History

/-!
# When admission answers

`admit` catches nothing, so whatever its parts raise comes out of it.

* `reason_error`: `document_reason` raises exactly when a timestamp leaves the calendar;
* `Answerable`: the documents on which nothing is raised, for a state;
* `judge_isOk`, **`admit_answers_exactly_when`**; `admit_raises`: it does not always answer;
* `admit_error`: the four exceptions that come out.
-/

namespace McpHeartbeat

open Base LineageState

variable {P : Platform} {state : LineageState} {d : Json} {g h : Heartbeat} {now : ℤ}
  {maxSkew : Option ℤ}

theorem attempt_error {α : Type} {x : Except Error α} {e : Error} :
    attempt x = .error e ↔ x = .error e ∧ e.isLookupOrValue = false := by
  cases x with
  | ok a => simp [attempt]
  | error e' =>
    show (if e'.isLookupOrValue then Except.ok none else Except.error e') = Except.error e ↔ _
    split_ifs with hl
    · simp only [Except.error.injEq, false_iff, not_and]
      rintro rfl
      simp [hl]
    · simp only [Except.error.injEq]
      exact ⟨fun he => ⟨he, he ▸ Bool.eq_false_iff.mpr hl⟩, And.left⟩

namespace Members

variable {m : Members} {key : Str}

/-- A timestamp of the object leaves the calendar. -/
def OverflowStamp (m : Members) : Prop :=
  Overflows (m.get (py "issued_at")) ∨ Overflows (m.get (py "expires_at"))

instance : Decidable m.OverflowStamp := by unfold OverflowStamp; infer_instance

theorem get_of_getItem {v : Json} (h : m.getItem key = .ok v) : m.get key = v := by
  unfold getItem at h
  unfold get
  cases hi : m.item key with
  | none => rw [hi] at h; cases h
  | some w =>
    rw [hi] at h
    exact Except.ok.inj h

/-- One timestamp of the object, when it raises past `except (KeyError, TypeError, ValueError)`. -/
theorem overflows_of_stamp {e : Error} (hl : e.isLookupOrValue = false)
    (h : (m.getItem key >>= parseRfc3339) = .error e) :
    Overflows (m.get key) ∧ e = .overflowError := by
  rcases bind_eq_error.mp h with h | ⟨v, hv, h⟩
  · unfold getItem at h
    split at h
    · cases h
    · cases h
      cases hl
  · rw [get_of_getItem hv]
    rcases parse_error h with ⟨f, rfl⟩ | rfl
    · cases hl
    · exact ⟨h, rfl⟩

theorem stamps_eq (m : Members) : m.stamps = ((m.getItem (py "issued_at") >>= parseRfc3339) >>=
    fun i => (m.getItem (py "expires_at") >>= parseRfc3339) >>= fun e => .ok (i, e)) := by
  unfold stamps
  cases m.getItem (py "issued_at") with
  | error e => rfl
  | ok v =>
    simp only [ok_bind]
    congr 1
    funext i
    cases m.getItem (py "expires_at") <;> rfl

/-- The window check raises only when a timestamp leaves the calendar. -/
theorem expiryWindowViolation_error {e : Error} (h : m.expiryWindowViolation = .error e) :
    m.OverflowStamp ∧ e = .overflowError := by
  rcases bind_eq_error.mp h with h | ⟨o, -, h⟩
  · obtain ⟨hs, hl⟩ := attempt_error.mp h
    rw [stamps_eq] at hs
    rcases bind_eq_error.mp hs with hs | ⟨i, -, hs⟩
    · obtain ⟨ho, he⟩ := overflows_of_stamp hl hs
      exact ⟨Or.inl ho, he⟩
    · rcases bind_eq_error.mp hs with hs | ⟨t, -, hs⟩
      · obtain ⟨ho, he⟩ := overflows_of_stamp hl hs
        exact ⟨Or.inr ho, he⟩
      · cases hs
  · cases o <;> cases h

/-- The window check that names a window read both timestamps. -/
theorem not_overflowStamp_of_window {w : ViolationCode}
    (h : m.expiryWindowViolation = .ok (some w)) : ¬ m.OverflowStamp := by
  obtain ⟨o, ho, h⟩ := bind_eq_ok.mp h
  cases o with
  | none => cases h
  | some s =>
    cases hs : m.stamps with
    | error e =>
      rw [hs, attempt] at ho
      split_ifs at ho
      cases ho
    | ok s =>
      rw [stamps_eq] at hs
      obtain ⟨i, hi, hs⟩ := bind_eq_ok.mp hs
      obtain ⟨t, ht, -⟩ := bind_eq_ok.mp hs
      obtain ⟨v, hv, hi⟩ := bind_eq_ok.mp hi
      obtain ⟨w, hw, ht⟩ := bind_eq_ok.mp ht
      rw [OverflowStamp, get_of_getItem hv, get_of_getItem hw, Overflows, Overflows, hi, ht]
      simp

/-- **`document_reason` raises exactly when a timestamp leaves the calendar**, in a document of this
version. -/
theorem reason_error {e : Error} : m.reason = .error e ↔
    m.get (py "extension_version") = .str EXTENSION_VERSION ∧ m.OverflowStamp ∧
      e = .overflowError := by
  unfold reason
  split_ifs with hv
  · simp [hv]
  · rw [not_not] at hv
    simp only [hv, true_and]
    constructor
    · intro h
      rcases bind_eq_error.mp h with h | ⟨w, -, h⟩
      · exact expiryWindowViolation_error h
      · cases w with
        | some w => cases h
        | none =>
          rcases bind_eq_error.mp h with h | ⟨out, -, h⟩
          · exact violations_error.mp h
          · cases h
    · rintro ⟨ho, rfl⟩
      cases hw : m.expiryWindowViolation with
      | error e =>
        rw [(expiryWindowViolation_error hw).2]
        rfl
      | ok w =>
        cases w with
        | some w => exact absurd ho (not_overflowStamp_of_window hw)
        | none =>
          rw [ok_bind, violations_error.mpr ⟨ho, rfl⟩]
          rfl

end Members

/-! ## The held epoch -/

/-- What the comparisons with the held revision need, for a heartbeat of the participant in the held
epoch: two numbers, or none and one digest; and two digests for one sequence. -/
structure Comparable (P : Platform) (h g : Heartbeat) : Prop where
  ordered : h.sequence = none ∨ g.sequence = none →
    h.sequence = g.sequence ∧ h.digest P = g.digest P
  encodable : h.sequence = g.sequence →
    (Json.obj h.extensions).WellFormed ∧ (Json.obj g.extensions).WellFormed

/-- The revision that is held, again. -/
theorem repeat_isOk {e : Json} (hd : Reads d h) (he : Reads e g) (hs : h.sequence = g.sequence) :
    (∃ a, (h.digest P >>= fun x => g.digest P >>= fun y =>
      if x = y then .ok { state, duplicate := true }
      else if h.sequence = none then .error .typeError
      else .ok { state, reason := some .sequenceConflict } : Except Error Admission) = .ok a) ↔
      Comparable P h g := by
  have hdec : (h.Encodable P ∧ g.Encodable P) ∨ ¬ (h.Encodable P ∧ g.Encodable P) := em _
  rcases hdec with ⟨henc, genc⟩ | hnot
  · have henc' := (encodable_iff hd).mp henc
    have genc' := (encodable_iff he).mp genc
    obtain ⟨x, -, hx⟩ := digest_of_encodable henc
    obtain ⟨y, -, hy⟩ := digest_of_encodable genc
    rw [hx, hy, ok_bind, ok_bind]
    by_cases hxy : py "sha256:" ++ P.sha256 x = py "sha256:" ++ P.sha256 y
    · rw [if_pos hxy]
      exact iff_of_true ⟨_, rfl⟩ ⟨fun _ => ⟨hs, by rw [hx, hy, hxy]⟩, fun _ => ⟨henc', genc'⟩⟩
    · rw [if_neg hxy]
      by_cases hnone : h.sequence = none
      · rw [if_pos hnone]
        apply iff_of_false (by simp)
        intro hc
        apply hxy
        have hdig := (hc.ordered (Or.inl hnone)).2
        rwa [hx, hy, Except.ok.injEq] at hdig
      · rw [if_neg hnone]
        exact iff_of_true ⟨_, rfl⟩
          ⟨fun ho => absurd (ho.elim id (hs.trans ·)) hnone, fun _ => ⟨henc', genc'⟩⟩
  · refine iff_of_false ?_ fun hc => hnot ?_
    · rintro ⟨a, ha⟩
      obtain ⟨x, hx, ha⟩ := bind_eq_ok.mp ha
      obtain ⟨y, hy, -⟩ := bind_eq_ok.mp ha
      refine hnot ⟨?_, ?_⟩
      · by_contra hn
        rw [digest_of_not_encodable hn] at hx
        cases hx
      · by_contra hn
        rw [digest_of_not_encodable hn] at hy
        cases hy
    · rw [encodable_iff hd, encodable_iff he]
      exact hc.encodable hs

/-- When the checks after the document was read answer. -/
theorem judge_isOk (hd : Reads d h) (hp : h.nodeId = some state.participantId)
    (hheld : ∀ g, state.held = some g → ∃ e, Reads e g) :
    (∃ a, state.judge P h now maxSkew = .ok a) ↔
      ∀ g, state.held = some g → h.bootId = g.bootId → Comparable P h g := by
  have hall : ∀ {g}, state.held = some g → h.bootId = g.bootId →
      ((∀ f, state.held = some f → h.bootId = f.bootId → Comparable P h f) ↔ Comparable P h g) := by
    intro g hg hb
    refine ⟨fun hf => hf g hg hb, fun hc f hf _ => ?_⟩
    obtain rfl := Option.some.inj (hg.symm.trans hf)
    exact hc
  rcases held_cases state h with ho | ⟨g, hg, hb, hs⟩ | ⟨g, hg, hb, hs⟩
  · rw [judge_open hp ho]
    exact iff_of_true ⟨_, rfl⟩ fun g hg hb => absurd hb (ho g hg)
  · obtain ⟨e, he⟩ := hheld g hg
    rw [hall hg hb, judge_repeat hp hg hb hs]
    exact repeat_isOk hd he hs
  · rw [hall hg hb, judge_order hp hg hb hs]
    have hcomp : Comparable P h g ↔ h.sequence ≠ none ∧ g.sequence ≠ none := by
      constructor
      · intro hc
        exact ⟨fun hn => hs (hc.ordered (Or.inl hn)).1, fun hn => hs (hc.ordered (Or.inr hn)).1⟩
      · rintro ⟨hn, hn'⟩
        exact ⟨fun ho => absurd ho (not_or.mpr ⟨hn, hn'⟩), fun he => absurd he hs⟩
    rw [hcomp]
    cases h.sequence <;> cases g.sequence <;> simp [sequenceLt]

/-! ## Every document -/

/-- The documents on which nothing is raised, for a state: the timestamps of this version stay in
the calendar, a document that passes has two timestamps, and what is of the participant and the held
epoch compares with what is held. -/
structure Answerable (P : Platform) (state : LineageState) (d : Json) : Prop where
  calendar : d.member (py "extension_version") = .str EXTENSION_VERSION →
    ¬ Overflows (d.member (py "issued_at")) ∧ ¬ Overflows (d.member (py "expires_at"))
  stamped : documentReason d = .ok none →
    d.member (py "issued_at") ≠ .null ∧ d.member (py "expires_at") ≠ .null
  comparable : ∀ h g, Reads d h → h.nodeId = some state.participantId → state.held = some g →
    h.bootId = g.bootId → Comparable P h g

theorem calendar_of_reason {o : Option ViolationCode} (hr : documentReason d = .ok o)
    (hv : d.member (py "extension_version") = .str EXTENSION_VERSION) :
    ¬ Overflows (d.member (py "issued_at")) ∧ ¬ Overflows (d.member (py "expires_at")) := by
  cases d with
  | obj m =>
    rw [← not_or]
    intro ho
    have herr : documentReason (.obj m) = .error .overflowError :=
      Members.reason_error.mpr ⟨hv, ho, rfl⟩
    cases herr.symm.trans hr
  | _ => cases hv

/-- What passes with two timestamps is read. -/
theorem fromDict_of_stamped (hr : documentReason d = .ok none)
    (hi : d.member (py "issued_at") ≠ .null) (he : d.member (py "expires_at") ≠ .null) :
    ∃ h, Heartbeat.fromDict d = .ok h := by
  cases d with
  | obj m =>
    rcases Members.heartbeat_of_reason hr with ⟨-, hh⟩ | ⟨hnull, -⟩
    · exact hh
    · exact absurd hnull (not_or.mpr ⟨hi, he⟩)
  | _ => cases hr

/-- What is read has two timestamps. -/
theorem stamped_of_reads (hread : Reads d h) :
    d.member (py "issued_at") ≠ .null ∧ d.member (py "expires_at") ≠ .null := by
  obtain ⟨hr, hp⟩ := hread
  cases d with
  | obj m =>
    rcases Members.heartbeat_of_reason hr with ⟨hstamp, -⟩ | ⟨-, hh⟩
    · exact not_or.mp hstamp
    · cases hh.symm.trans hp
  | _ => cases hr

/-- When a call answers, in a state that holds what was read from a document. -/
theorem admit_isOk (hheld : ∀ g, state.held = some g → ∃ e, Reads e g) :
    (∃ a, admitDocument P state d now maxSkew = .ok a) ↔ Answerable P state d := by
  rcases admit_cases P state d now maxSkew with ⟨e, hr, hc⟩ | ⟨reason, hr, hc⟩ | ⟨e, hr, hp, hc⟩ |
    ⟨h, hread, hc⟩ <;> rw [hc]
  · apply iff_of_false (by simp)
    intro ha
    cases d with
    | obj m =>
      obtain ⟨hv, ho, -⟩ := Members.reason_error.mp hr
      exact absurd ho (not_or.mpr (ha.calendar hv))
    | _ => cases hr
  · refine iff_of_true ⟨_, rfl⟩ ⟨calendar_of_reason hr, fun hn => ?_, fun h g hread => ?_⟩
    · cases hr.symm.trans hn
    · cases hr.symm.trans hread.reason
  · apply iff_of_false (by simp)
    intro ha
    obtain ⟨hi, he⟩ := ha.stamped hr
    obtain ⟨h, hh⟩ := fromDict_of_stamped hr hi he
    cases hh.symm.trans hp
  · have hcal := calendar_of_reason hread.reason
    have hstamp := stamped_of_reads hread
    by_cases hp : h.nodeId = some state.participantId
    · rw [judge_isOk hread hp hheld]
      constructor
      · intro hcomp
        refine ⟨hcal, fun _ => hstamp, fun f g hf _ hg hb => ?_⟩
        obtain rfl := hread.unique hf
        exact hcomp g hg hb
      · intro ha g hg hb
        exact ha.comparable h g hread hp hg hb
    · rw [judge_mismatch hp]
      refine iff_of_true ⟨_, rfl⟩ ⟨hcal, fun _ => hstamp, fun f g hf hn => ?_⟩
      obtain rfl := hread.unique hf
      exact absurd hn hp

theorem digest_error {e : Error} (h : g.digest P = .error e) : e = .unicodeEncodeError := by
  by_cases hg : g.Encodable P
  · obtain ⟨raw, -, hd⟩ := digest_of_encodable hg
    cases hd.symm.trans h
  · exact (Except.error.inj ((digest_of_not_encodable hg).symm.trans h)).symm

theorem sequenceLt_error {o q : Option ℤ} {e : Error} (h : sequenceLt o q = .error e) :
    e = .typeError := by
  unfold sequenceLt at h
  split at h
  · cases h
  · exact (Except.error.inj h).symm

/-- **What comes out of admission**: the four exceptions that nothing catches. -/
theorem admit_error {e : Error} (h : admitDocument P state d now maxSkew = .error e) :
    e = .overflowError ∨ e = .valueError .notText ∨ e = .typeError ∨ e = .unicodeEncodeError := by
  rcases admit_cases P state d now maxSkew with ⟨e', hr, hc⟩ | ⟨reason, -, hc⟩ | ⟨e', hr, hp, hc⟩ |
    ⟨g, -, hc⟩ <;> rw [hc] at h
  · obtain rfl := Except.error.inj h
    cases d with
    | obj m => exact Or.inl (Members.reason_error.mp hr).2.2
    | _ => cases hr
  · cases h
  · obtain rfl := Except.error.inj h
    cases d with
    | obj m =>
      rcases Members.heartbeat_of_reason hr with ⟨-, g, hg⟩ | ⟨-, hg⟩
      · cases hg.symm.trans hp
      · exact Or.inr (Or.inl (Except.error.inj (hp.symm.trans hg)))
    | _ => cases hr
  · rcases judge_cases P state g now maxSkew with ⟨-, hj⟩ | ⟨-, -, hj⟩ | ⟨f, -, -, -, -, hj⟩ |
      ⟨f, -, -, -, -, hj⟩ <;> rw [hj] at h
    · cases h
    · cases h
    · rcases bind_eq_error.mp h with h | ⟨x, -, h⟩
      · exact Or.inr (Or.inr (Or.inr (digest_error h)))
      · rcases bind_eq_error.mp h with h | ⟨y, -, h⟩
        · exact Or.inr (Or.inr (Or.inr (digest_error h)))
        · split_ifs at h
          exact Or.inr (Or.inr (Or.inl (Except.error.inj h).symm))
    · rcases bind_eq_error.mp h with h | ⟨lt, -, h⟩
      · exact Or.inr (Or.inr (Or.inl (sequenceLt_error h)))
      · cases h

/-- **When admission answers.** In every state that is reached, a call answers exactly on the
documents on which nothing is raised. -/
theorem admit_answers_exactly_when (P : Platform) (p : Str) (calls : List Call) (d : Json) (now : ℤ)
    (maxSkew : Option ℤ) :
    let state := (lineage P).run (.start p) calls
    (∃ a, admitDocument P state d now maxSkew = .ok a) ↔ Answerable P state d := by
  intro state
  apply admit_isOk
  intro g hg
  obtain ⟨a, ha, rfl⟩ := (history P p calls).exists_held hg
  exact ⟨_, (history P p calls).reads a ha⟩

/-- **Admission does not always answer**: the instant of this timestamp is in the year before year
`1`. -/
theorem admit_raises : ¬ ∀ (P : Platform) (p : Str) (calls : List Call) (d : Json) (now : ℤ)
    (maxSkew : Option ℤ),
      ∃ a, admitDocument P ((lineage P).run (.start p) calls) d now maxSkew = .ok a := by
  intro hall
  obtain ⟨a, ha⟩ := hall plainPlatform (py "node") []
    (beat (.int 0) "0001-01-01T00:00:00+01:00" "2026-01-01T00:00:30Z" []) newYear DEFAULT_MAX_SKEW
  have herr : documentReason
      (beat (.int 0) "0001-01-01T00:00:00+01:00" "2026-01-01T00:00:30Z" []) =
        .error .overflowError := by decide +kernel
  rw [admit_of_error herr] at ha
  cases ha

end McpHeartbeat
