import McpHeartbeat.Base.Register
import McpHeartbeat.Core.Reading

/-!
# One admission

What `admitDocument` answers, branch by branch.

* `LineageState.judge`: the checks after the document was read; `admit_of_reads`;
* `judge_mismatch`, `judge_open`, `judge_repeat`, `judge_order`: its four branches; `judge_cases`,
  **`admit_cases`**: every judgement, and every call, is one of its branches;
* `LineageState.register`: the held state as an epoch register; `Rises`: the order of its sequences;
* **`admit_ok`**: an answer either accepts what the register accepts, or leaves the state alone;
* **`admit_presents`**: a timely document is presented to the register, whatever is answered.
-/

namespace McpHeartbeat

open Base

variable {P : Platform} {state : LineageState} {d : Json} {g h : Heartbeat} {now : ℤ}
  {maxSkew : Option ℤ}

namespace LineageState

/-- Nothing is held yet. -/
def start (p : Str) : LineageState := { participantId := p }

/-- The state in which `h` is held. -/
def hold (state : LineageState) (h : Heartbeat) : LineageState :=
  { state with held := some h, retiredEpochs := insert h.bootId state.retiredEpochs }

@[simp] theorem hold_participantId : (state.hold h).participantId = state.participantId := rfl
@[simp] theorem hold_held : (state.hold h).held = some h := rfl
@[simp] theorem hold_retiredEpochs :
    (state.hold h).retiredEpochs = insert h.bootId state.retiredEpochs := rfl

/-- The last check, and the acceptance. -/
def settle (state : LineageState) (h : Heartbeat) (now : ℤ) (maxSkew : Option ℤ) : Admission :=
  match checkFreshness h now maxSkew with
  | some reason => { state, reason := some reason }
  | none => { state := state.hold h }

/-- The checks after the document was read. -/
def judge (P : Platform) (state : LineageState) (h : Heartbeat) (now : ℤ) (maxSkew : Option ℤ) :
    Except Error Admission :=
  if h.nodeId ≠ some state.participantId then
    .ok { state, reason := some .nodeIdMismatch }
  else isDuplicate P state h >>= fun duplicate =>
    if duplicate then .ok { state, duplicate := true }
    else checkLineage P state h >>= fun reason =>
      match reason with
      | some reason => .ok { state, reason := some reason }
      | none => .ok (state.settle h now maxSkew)

end LineageState

open LineageState

/-! ## Branches -/

theorem admit_of_reads (hr : Reads d h) :
    admitDocument P state d now maxSkew = state.judge P h now maxSkew := by
  simp only [admitDocument, hr.reason, hr.parse, ok_bind, judge, pure_eq_ok]
  split_ifs with hn
  · rfl
  · congr 1
    funext duplicate
    cases duplicate
    · simp only [Bool.false_eq_true, if_false]
      congr 1
      funext reason
      cases reason with
      | some reason => rfl
      | none =>
        simp only [settle]
        cases checkFreshness h now maxSkew <;> rfl
    · rfl

theorem admit_of_refusal {reason : ViolationCode} (hr : documentReason d = .ok (some reason)) :
    admitDocument P state d now maxSkew = .ok { state, reason := some reason } := by
  simp [admitDocument, hr]

theorem admit_of_error {e : Error} (hr : documentReason d = .error e) :
    admitDocument P state d now maxSkew = .error e := by
  simp [admitDocument, hr]

theorem admit_of_unread {e : Error} (hr : documentReason d = .ok none)
    (hp : Heartbeat.fromDict d = .error e) : admitDocument P state d now maxSkew = .error e := by
  simp [admitDocument, hr, hp]

theorem judge_mismatch (hn : h.nodeId ≠ some state.participantId) :
    state.judge P h now maxSkew = .ok { state, reason := some .nodeIdMismatch } := if_pos hn

/-- A first epoch, or another epoch than the held one. -/
theorem judge_open (hn : h.nodeId = some state.participantId)
    (ho : ∀ g, state.held = some g → h.bootId ≠ g.bootId) :
    state.judge P h now maxSkew =
      .ok (if h.bootId ∈ state.retiredEpochs then { state, reason := some .bootIdReuse }
        else state.settle h now maxSkew) := by
  have hd : isDuplicate P state h = .ok false := by
    unfold isDuplicate
    cases hg : state.held with
    | none => rfl
    | some g => exact if_neg fun hb => ho g hg hb.1
  have hl : checkLineage P state h =
      .ok (if h.bootId ∈ state.retiredEpochs then some .bootIdReuse else none) := by
    unfold checkLineage
    cases hg : state.held with
    | none => rfl
    | some g => exact if_pos (ho g hg)
  simp only [judge, hn, ne_eq, not_true_eq_false, if_false, hd, hl, ok_bind, Bool.false_eq_true]
  by_cases hb : h.bootId ∈ state.retiredEpochs <;> simp only [hb, if_true, if_false]

/-- The revision that is held, again. -/
theorem judge_repeat (hn : h.nodeId = some state.participantId) (hg : state.held = some g)
    (hb : h.bootId = g.bootId) (hs : h.sequence = g.sequence) :
    state.judge P h now maxSkew = (h.digest P >>= fun a => g.digest P >>= fun b =>
      if a = b then .ok { state, duplicate := true }
      else if h.sequence = none then .error .typeError
      else .ok { state, reason := some .sequenceConflict }) := by
  simp only [judge, hn, ne_eq, not_true_eq_false, if_false, isDuplicate, checkLineage, hg, hb, hs,
    and_self, if_true, pure_eq_ok]
  cases ha : h.digest P with
  | error e => rfl
  | ok a =>
    cases hc : g.digest P with
    | error e => rfl
    | ok b =>
      by_cases hab : a = b
      · simp [hab]
      · cases hgs : g.sequence <;> simp [hab, sequenceLt]

/-- Another sequence of the held epoch. -/
theorem judge_order (hn : h.nodeId = some state.participantId) (hg : state.held = some g)
    (hb : h.bootId = g.bootId) (hs : h.sequence ≠ g.sequence) :
    state.judge P h now maxSkew = (sequenceLt h.sequence g.sequence >>= fun lt =>
      .ok (if lt then { state, reason := some .sequenceRollback }
        else state.settle h now maxSkew)) := by
  simp only [judge, hn, ne_eq, not_true_eq_false, if_false, isDuplicate, checkLineage, hg, hb, hs,
    and_false, ok_bind, pure_eq_ok, Bool.false_eq_true]
  cases sequenceLt h.sequence g.sequence with
  | error e => rfl
  | ok lt => cases lt <;> rfl

/-- The three ways past the address: another epoch, the held revision again, another sequence. -/
theorem held_cases (state : LineageState) (h : Heartbeat) :
    (∀ g, state.held = some g → h.bootId ≠ g.bootId) ∨
      (∃ g, state.held = some g ∧ h.bootId = g.bootId ∧ h.sequence = g.sequence) ∨
      ∃ g, state.held = some g ∧ h.bootId = g.bootId ∧ h.sequence ≠ g.sequence := by
  cases hg : state.held with
  | none => exact Or.inl (by simp)
  | some g =>
    by_cases hb : h.bootId = g.bootId
    · by_cases hs : h.sequence = g.sequence
      · exact Or.inr (Or.inl ⟨g, rfl, hb, hs⟩)
      · exact Or.inr (Or.inr ⟨g, rfl, hb, hs⟩)
    · apply Or.inl
      intro g' hg'
      obtain rfl := Option.some.inj hg'
      exact hb

/-- **The ways of a judgement**: another participant, another epoch, the held revision again, or
another sequence of the held epoch. -/
theorem judge_cases (P : Platform) (state : LineageState) (h : Heartbeat) (now : ℤ)
    (maxSkew : Option ℤ) :
    (h.nodeId ≠ some state.participantId ∧
      state.judge P h now maxSkew = .ok { state, reason := some .nodeIdMismatch }) ∨
    (h.nodeId = some state.participantId ∧ (∀ g, state.held = some g → h.bootId ≠ g.bootId) ∧
      state.judge P h now maxSkew =
        .ok (if h.bootId ∈ state.retiredEpochs then { state, reason := some .bootIdReuse }
          else state.settle h now maxSkew)) ∨
    (∃ g, h.nodeId = some state.participantId ∧ state.held = some g ∧ h.bootId = g.bootId ∧
      h.sequence = g.sequence ∧
      state.judge P h now maxSkew = (h.digest P >>= fun a => g.digest P >>= fun b =>
        if a = b then .ok { state, duplicate := true }
        else if h.sequence = none then .error .typeError
        else .ok { state, reason := some .sequenceConflict })) ∨
    ∃ g, h.nodeId = some state.participantId ∧ state.held = some g ∧ h.bootId = g.bootId ∧
      h.sequence ≠ g.sequence ∧
      state.judge P h now maxSkew = (sequenceLt h.sequence g.sequence >>= fun lt =>
        .ok (if lt then { state, reason := some .sequenceRollback }
          else state.settle h now maxSkew)) := by
  by_cases hn : h.nodeId = some state.participantId
  · rcases held_cases state h with ho | ⟨g, hg, hb, hs⟩ | ⟨g, hg, hb, hs⟩
    · exact Or.inr (Or.inl ⟨hn, ho, judge_open hn ho⟩)
    · exact Or.inr (Or.inr (Or.inl ⟨g, hn, hg, hb, hs, judge_repeat hn hg hb hs⟩))
    · exact Or.inr (Or.inr (Or.inr ⟨g, hn, hg, hb, hs, judge_order hn hg hb hs⟩))
  · exact Or.inl ⟨hn, judge_mismatch hn⟩

/-- **The ways of a call**: the document raises or is refused on its own, it passes and is not read,
or what it reads as is judged. -/
theorem admit_cases (P : Platform) (state : LineageState) (d : Json) (now : ℤ)
    (maxSkew : Option ℤ) :
    (∃ e, documentReason d = .error e ∧ admitDocument P state d now maxSkew = .error e) ∨
    (∃ reason, documentReason d = .ok (some reason) ∧
      admitDocument P state d now maxSkew = .ok { state, reason := some reason }) ∨
    (∃ e, documentReason d = .ok none ∧ Heartbeat.fromDict d = .error e ∧
      admitDocument P state d now maxSkew = .error e) ∨
    ∃ h, Reads d h ∧ admitDocument P state d now maxSkew = state.judge P h now maxSkew := by
  cases hr : documentReason d with
  | error e => exact Or.inl ⟨e, rfl, admit_of_error hr⟩
  | ok o =>
    cases o with
    | some reason => exact Or.inr (Or.inl ⟨reason, rfl, admit_of_refusal hr⟩)
    | none =>
      cases hp : Heartbeat.fromDict d with
      | error e => exact Or.inr (Or.inr (Or.inl ⟨e, rfl, rfl, admit_of_unread hr hp⟩))
      | ok h => exact Or.inr (Or.inr (Or.inr ⟨h, ⟨hr, hp⟩, admit_of_reads ⟨hr, hp⟩⟩))

/-! ## The held state as a register -/

/-- The sequence of `h` is above that of `g`. -/
def Rises (g h : Heartbeat) : Prop :=
  ∃ a b, g.sequence = some a ∧ h.sequence = some b ∧ a < b

instance : IsTrans Heartbeat Rises where
  trans := by
    rintro f g h ⟨a, b, ha, hb, hab⟩ ⟨b', c, hb', hc, hbc⟩
    obtain rfl : b = b' := Option.some.inj (hb.symm.trans hb')
    exact ⟨a, c, ha, hc, hab.trans hbc⟩

/-- Another sequence is above exactly when the comparison answers, and answers no. -/
theorem rises_iff_sequenceLt (hne : h.sequence ≠ g.sequence) :
    Rises g h ↔ sequenceLt h.sequence g.sequence = .ok false := by
  unfold Rises
  cases hs : h.sequence with
  | none => simp [sequenceLt]
  | some b =>
    cases hq : g.sequence with
    | none => simp [sequenceLt]
    | some a =>
      have hab : a ≠ b := fun hab => hne (by rw [hs, hq, hab])
      have hlt : a < b ↔ ¬ b < a := by omega
      simp [sequenceLt, hlt]

/-- Two sequences that compare and differ. -/
theorem rises_or_rises (hcomp : g.sequence.isSome = h.sequence.isSome)
    (hne : g.sequence ≠ h.sequence) : Rises g h ∨ Rises h g := by
  cases ha : g.sequence with
  | none =>
    cases hb : h.sequence with
    | none => exact absurd (ha.trans hb.symm) hne
    | some b => simp [ha, hb] at hcomp
  | some a =>
    cases hb : h.sequence with
    | none => simp [ha, hb] at hcomp
    | some b =>
      have hab : a ≠ b := fun hab => hne (by rw [ha, hb, hab])
      rcases lt_or_gt_of_ne hab with hlt | hlt
      · exact Or.inl ⟨a, b, ha, hb, hlt⟩
      · exact Or.inr ⟨b, a, hb, ha, hlt⟩

theorem not_rises_of_eq (hs : h.sequence = g.sequence) : ¬ Rises g h := by
  rintro ⟨a, b, ha, hb, hab⟩
  obtain rfl : a = b := Option.some.inj (ha.symm.trans (hs.symm.trans hb))
  exact lt_irrefl a hab

instance : Std.Irrefl Rises := ⟨fun _ => not_rises_of_eq rfl⟩

namespace LineageState

/-- The state as an epoch register: epochs are `boot_id`s. -/
def register (state : LineageState) : Register Heartbeat (Option Str) :=
  ⟨state.held, {e | e ∈ state.retiredEpochs}⟩

theorem register_start (p : Str) : (start p).register = Register.empty := by
  simp [register, start, Register.empty]

theorem register_hold :
    (state.hold h).register = state.register.accept Heartbeat.bootId h := by
  simp only [register, Register.accept, hold_held, hold_retiredEpochs, Finset.mem_insert]
  rfl

/-- The guard of an acceptance. -/
abbrev Admits (state : LineageState) (h : Heartbeat) : Prop :=
  state.register.Accepts Heartbeat.bootId Rises h

theorem admits_of_open (ho : ∀ g, state.held = some g → h.bootId ≠ g.bootId) :
    state.Admits h ↔ h.bootId ∉ state.retiredEpochs := by
  cases hg : state.held with
  | none => simp [Admits, Register.Accepts, register, hg]
  | some g => simp [Admits, Register.Accepts, register, hg, ho g hg]

theorem admits_of_same (hg : state.held = some g) (hb : h.bootId = g.bootId) :
    state.Admits h ↔ Rises g h := by
  simp [Admits, Register.Accepts, register, hg, hb]

end LineageState

theorem settle_of_refusal {reason : ViolationCode}
    (hf : checkFreshness h now maxSkew = some reason) :
    state.settle h now maxSkew = { state, reason := some reason } := by
  rw [settle, hf]

theorem settle_of_fresh (hf : checkFreshness h now maxSkew = none) :
    state.settle h now maxSkew = { state := state.hold h } := by
  rw [settle, hf]

/-- The answer of the checks after the document was read. -/
theorem judge_ok {a : Admission} (ha : state.judge P h now maxSkew = .ok a) :
    (a = { state := state.hold h } ∧ h.nodeId = some state.participantId ∧ state.Admits h ∧
      checkFreshness h now maxSkew = none) ∨ (a.accepted = false ∧ a.state = state) := by
  have hsettle : state.Admits h → h.nodeId = some state.participantId →
      a = state.settle h now maxSkew →
      (a = { state := state.hold h } ∧ h.nodeId = some state.participantId ∧ state.Admits h ∧
        checkFreshness h now maxSkew = none) ∨ (a.accepted = false ∧ a.state = state) := by
    rintro hadm hn rfl
    cases hf : checkFreshness h now maxSkew with
    | none => exact Or.inl ⟨settle_of_fresh hf, hn, hadm, rfl⟩
    | some reason =>
      rw [settle_of_refusal hf]
      exact Or.inr ⟨rfl, rfl⟩
  rcases judge_cases P state h now maxSkew with ⟨-, hj⟩ | ⟨hn, ho, hj⟩ | ⟨g, -, -, -, -, hj⟩ |
    ⟨g, hn, hg, hb, hs, hj⟩ <;> rw [hj] at ha
  · cases ha
    exact Or.inr ⟨rfl, rfl⟩
  · rw [Except.ok.injEq] at ha
    by_cases hr : h.bootId ∈ state.retiredEpochs
    · rw [if_pos hr] at ha
      subst ha
      exact Or.inr ⟨rfl, rfl⟩
    · rw [if_neg hr] at ha
      exact hsettle ((admits_of_open ho).mpr hr) hn ha.symm
  · obtain ⟨x, -, ha⟩ := bind_eq_ok.mp ha
    obtain ⟨y, -, ha⟩ := bind_eq_ok.mp ha
    split_ifs at ha <;> cases ha <;> exact Or.inr ⟨rfl, rfl⟩
  · obtain ⟨lt, hlt, ha⟩ := bind_eq_ok.mp ha
    cases lt with
    | true =>
      cases ha
      exact Or.inr ⟨rfl, rfl⟩
    | false =>
      have hrise := (rises_iff_sequenceLt hs).mpr hlt
      exact hsettle ((admits_of_same hg hb).mpr hrise) hn (Except.ok.inj ha).symm

/-- **An answer either accepts what the register admits, or leaves the state alone.** -/
theorem admit_ok {a : Admission} (ha : admitDocument P state d now maxSkew = .ok a) :
    (∃ h, Reads d h ∧ a = { state := state.hold h } ∧ h.nodeId = some state.participantId ∧
      state.Admits h ∧ checkFreshness h now maxSkew = none) ∨
      (a.accepted = false ∧ a.state = state) := by
  rcases admit_cases P state d now maxSkew with ⟨e, -, hc⟩ | ⟨reason, -, hc⟩ | ⟨e, -, -, hc⟩ |
    ⟨h, hread, hc⟩ <;> rw [hc] at ha
  · cases ha
  · cases ha
    exact Or.inr ⟨rfl, rfl⟩
  · cases ha
  · exact (judge_ok ha).imp (fun hacc => ⟨h, hread, hacc⟩) id

/-- The reasons a document is refused for on its own. -/
theorem documentReason_codes {reason : ViolationCode} (hr : documentReason d = .ok (some reason)) :
    reason = .schemaInvalid ∨ reason = .unsupportedExtensionVersion ∨
      reason = .invalidExpiryWindow ∨ reason = .expiryWindowTooLong := by
  cases d with
  | obj m =>
    have hr : Members.reason m = .ok (some reason) := hr
    unfold Members.reason at hr
    split_ifs at hr with hv
    · cases hr
      exact Or.inr (Or.inl rfl)
    · obtain ⟨w, hw, hr⟩ := bind_eq_ok.mp hr
      cases w with
      | some w =>
        cases hr
        obtain ⟨o, -, hw⟩ := bind_eq_ok.mp hw
        cases o with
        | none => cases hw
        | some s =>
          simp only [pure_eq_ok, Except.ok.injEq] at hw
          split_ifs at hw <;> cases hw <;> simp
      | none =>
        obtain ⟨out, -, hr⟩ := bind_eq_ok.mp hr
        simp only [pure_eq_ok, Except.ok.injEq] at hr
        split_ifs at hr
        cases hr
        exact Or.inl rfl
  | _ =>
    cases hr
    exact Or.inl rfl

theorem checkFreshness_codes {reason : ViolationCode}
    (hf : checkFreshness h now maxSkew = some reason) :
    reason = .clockSkewExceeded ∨ reason = .expiredOnArrival := by
  unfold checkFreshness at hf
  split_ifs at hf <;> cases hf <;> simp

theorem checkFreshness_eq_none : checkFreshness h now maxSkew = none ↔
    (∀ bound ∈ maxSkew, (h.issuedAt.instant - now).natAbs ≤ bound) ∧
      now < h.expiresAt.instant := by
  have hskew : ¬ maxSkew.any (fun bound : ℤ => bound < (h.issuedAt.instant - now).natAbs) = true ↔
      ∀ bound ∈ maxSkew, (h.issuedAt.instant - now).natAbs ≤ bound := by
    cases maxSkew <;> simp
  rw [← hskew]
  unfold checkFreshness
  split_ifs with h₁ h₂
  · exact iff_of_false (by simp) fun hf => hf.1 h₁
  · apply iff_of_false (by simp)
    intro hf
    simp [Heartbeat.isFresh, Heartbeat.remaining, hf.2] at h₂
  · refine iff_of_true rfl ⟨h₁, ?_⟩
    simpa [Heartbeat.isFresh, Heartbeat.remaining] using h₂

/-- **A duplicate or a conflict is named only on the held revision**, whose digest is compared. -/
theorem admit_repeated {a : Admission} (ha : admitDocument P state d now maxSkew = .ok a)
    (hc : a.duplicate = true ∨ a.reason = some .sequenceConflict) : ∃ g h x y, Reads d h ∧
      h.nodeId = some state.participantId ∧ state.held = some g ∧ h.bootId = g.bootId ∧
      h.sequence = g.sequence ∧ h.digest P = .ok x ∧ g.digest P = .ok y ∧
      a = if x = y then { state, duplicate := true }
        else { state, reason := some .sequenceConflict } := by
  have hrefused : ∀ reason, reason ≠ .sequenceConflict →
      a ≠ { state, reason := some reason } := by
    rintro reason hne rfl
    rcases hc with h | h
    · cases h
    · exact hne (Option.some.inj h)
  have hsettle : ∀ h, a ≠ state.settle h now maxSkew := by
    intro h ha'
    cases hf : checkFreshness h now maxSkew with
    | none =>
      rw [settle_of_fresh hf] at ha'
      subst ha'
      rcases hc with h | h <;> cases h
    | some reason =>
      rw [settle_of_refusal hf] at ha'
      refine hrefused reason ?_ ha'
      rcases checkFreshness_codes hf with rfl | rfl <;> simp
  rcases admit_cases P state d now maxSkew with ⟨e, -, hca⟩ | ⟨reason, hr, hca⟩ | ⟨e, -, -, hca⟩ |
    ⟨h, hread, hca⟩ <;> rw [hca] at ha
  · cases ha
  · refine absurd (Except.ok.inj ha).symm (hrefused reason ?_)
    rcases documentReason_codes hr with rfl | rfl | rfl | rfl <;> simp
  · cases ha
  · rcases judge_cases P state h now maxSkew with ⟨-, hj⟩ | ⟨-, -, hj⟩ | ⟨g, hn, hg, hb, hs, hj⟩ |
      ⟨g, -, -, -, -, hj⟩ <;> rw [hj] at ha
    · exact absurd (Except.ok.inj ha).symm (hrefused _ (by simp))
    · rw [Except.ok.injEq] at ha
      split_ifs at ha
      · exact absurd ha.symm (hrefused _ (by simp))
      · exact absurd ha.symm (hsettle h)
    · obtain ⟨x, hx, ha⟩ := bind_eq_ok.mp ha
      obtain ⟨y, hy, ha⟩ := bind_eq_ok.mp ha
      refine ⟨g, h, x, y, hread, hn, hg, hb, hs, hx, hy, ?_⟩
      split_ifs at ha ⊢ <;> exact (Except.ok.inj ha).symm
    · obtain ⟨lt, -, ha⟩ := bind_eq_ok.mp ha
      cases lt with
      | true => exact absurd (Except.ok.inj ha).symm (hrefused _ (by simp))
      | false => exact absurd (Except.ok.inj ha).symm (hsettle h)

/-- **A conflict is named with another digest.** -/
theorem admit_conflict {a : Admission} (ha : admitDocument P state d now maxSkew = .ok a)
    (hc : a.reason = some .sequenceConflict) : ∃ g h, Reads d h ∧
      h.nodeId = some state.participantId ∧ state.held = some g ∧ h.bootId = g.bootId ∧
      h.sequence = g.sequence ∧ h.digest P ≠ g.digest P := by
  obtain ⟨g, h, x, y, hread, hn, hg, hb, hs, hx, hy, rfl⟩ := admit_repeated ha (Or.inr hc)
  refine ⟨g, h, hread, hn, hg, hb, hs, fun he => ?_⟩
  rw [hx, hy] at he
  rw [if_pos (Except.ok.inj he)] at hc
  cases hc

/-- The state after a call: a call that raises leaves it as it was. -/
def LineageState.after (state : LineageState) (answer : Except Error Admission) : LineageState :=
  match answer with
  | .ok a => a.state
  | .error _ => state

@[simp] theorem after_ok (a : Admission) : state.after (.ok a) = a.state := rfl
@[simp] theorem after_error (e : Error) : state.after (.error e) = state := rfl

/-- What a timely heartbeat of the participant leaves behind. -/
theorem judge_timely (hn : h.nodeId = some state.participantId)
    (hf : checkFreshness h now maxSkew = none) :
    (state.Admits h ∧ state.judge P h now maxSkew = .ok { state := state.hold h }) ∨
      (¬ state.Admits h ∧ state.after (state.judge P h now maxSkew) = state) := by
  rcases held_cases state h with ho | ⟨g, hg, hb, hs⟩ | ⟨g, hg, hb, hs⟩
  · rw [judge_open hn ho, settle_of_fresh hf, admits_of_open ho]
    by_cases hr : h.bootId ∈ state.retiredEpochs
    · exact Or.inr ⟨not_not.mpr hr, by rw [if_pos hr]; rfl⟩
    · exact Or.inl ⟨hr, by rw [if_neg hr]⟩
  · rw [admits_of_same hg hb]
    refine Or.inr ⟨not_rises_of_eq hs, ?_⟩
    cases ha : state.judge P h now maxSkew with
    | error e => rfl
    | ok a =>
      rcases judge_ok ha with ⟨-, -, hadm, -⟩ | ⟨-, hsame⟩
      · exact absurd ((admits_of_same hg hb).mp hadm) (not_rises_of_eq hs)
      · exact hsame
  · rw [judge_order hn hg hb hs, settle_of_fresh hf, admits_of_same hg hb, rises_iff_sequenceLt hs]
    cases hlt : sequenceLt h.sequence g.sequence with
    | error e => exact Or.inr ⟨by simp, rfl⟩
    | ok lt => cases lt <;> simp

/-- **A timely document is presented to the register**, whatever is answered. -/
theorem admit_presents (hr : Reads d h) (hn : h.nodeId = some state.participantId)
    (hf : checkFreshness h now maxSkew = none) :
    Register.Presents Heartbeat.bootId Rises state.register h
      (state.after (admitDocument P state d now maxSkew)).register := by
  rw [admit_of_reads hr]
  rcases @judge_timely P state h now maxSkew hn hf with ⟨hadm, hj⟩ | ⟨hadm, hj⟩
  · rw [hj, after_ok, register_hold]
    exact .accept hadm
  · rw [hj]
    exact .skip hadm

end McpHeartbeat
