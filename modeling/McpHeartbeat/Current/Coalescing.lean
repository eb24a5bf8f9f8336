import McpHeartbeat.Current.Refetch

/-!
# Hints coalesce

* `onHint_cases`: the four ways of one hint; `refetch_frame`: what a refetch does to the counters;
* `HintCall`, `hintCalls`: the answers to the hints of a run;
* `counted_run`: how the hints are counted; `scheduled_le`, `fetches_early_le`: how many of them
  lead to a fetch;
* **`hints_coalesce_exactly_when`**: hints never amplify, and every one is accounted for exactly
  when no digest is taken of a lease that has none;
* `hint_unaccounted`: one may be.
-/

namespace McpHeartbeat

open Base HeartbeatConsumer

variable {P : Platform} {c : HeartbeatConsumer}

/-! ## One call -/

/-- The hint matches the held lease. -/
def HeartbeatConsumer.matchesHeld (P : Platform) (c : HeartbeatConsumer)
    (hint : Option ChangeHint) : Bool :=
  match hint, c.held with
  | some hint, some held => hint.matches P held = .ok true
  | _, _ => false

/-- The hint announces the revision of the held lease, which has no digest. -/
def HeartbeatConsumer.Undigestible (c : HeartbeatConsumer) (hint : Option ChangeHint) : Prop :=
  ∃ h held, hint = some h ∧ c.held = some held ∧ h.revision = .str held.revision ∧
    ¬ (Json.obj held.extensions).WellFormed

/-- The consumer that has seen one more hint. -/
def HeartbeatConsumer.seen (c : HeartbeatConsumer) : HeartbeatConsumer :=
  { c with hintsSeen := c.hintsSeen + 1 }

/-- When taking a digest for a hint raises. -/
theorem matches_error_iff {d : Json} {held : Heartbeat} (hr : Reads d held) (hint : ChangeHint) :
    (∃ e, hint.matches P held = .error e) ↔
      hint.revision = .str held.revision ∧ ¬ (Json.obj held.extensions).WellFormed := by
  rw [← encodable_iff (P := P) hr, ChangeHint.matches]
  by_cases hrev : hint.revision = .str held.revision
  · rw [if_pos hrev]
    by_cases he : held.Encodable P
    · obtain ⟨raw, -, hd⟩ := digest_of_encodable he
      simp [hd, he, Bind.bind, Except.bind, pure, Except.pure]
    · simp [digest_of_not_encodable he, he, hrev, Bind.bind, Except.bind]
  · rw [if_neg hrev]
    simp [hrev]

/-- What a hint that does not match leads to. -/
def HeartbeatConsumer.unmatched (c : HeartbeatConsumer) : Except Raised Bool × HeartbeatConsumer :=
  if c.refetchPending then (.ok false, { c.seen with hintsCoalesced := c.hintsCoalesced + 1 })
  else (.ok true, { c.seen with refetchPending := true })

/-- Without metadata, or without a lease to compare it with, a hint does not match. -/
theorem onHint_open {hint : Option ChangeHint} (hnone : hint = none ∨ c.held = none) :
    ¬ c.Undigestible hint ∧ c.matchesHeld P hint = false ∧ c.onHint P hint = c.unmatched := by
  have hheld : ({ c with hintsSeen := c.hintsSeen + 1 } : HeartbeatConsumer).held = c.held := rfl
  refine ⟨?_, ?_, ?_⟩
  · rintro ⟨h, held, hh, hheld, -⟩
    rcases hnone with hn | hn <;> simp_all
  · rcases hnone with hn | hn
    · simp [matchesHeld, hn]
    · cases hint <;> simp [matchesHeld, hn]
  · unfold onHint
    dsimp only
    rw [hheld]
    rcases hnone with hn | hn
    · rw [hn]
      rfl
    · rw [hn]
      cases hint <;> rfl

/-- With both, the digest decides, if it can be taken. -/
theorem onHint_compared {h : ChangeHint} {held : Heartbeat} (hheld : c.held = some held) :
    (∀ e, h.matches P held = .error e → c.onHint P (some h) = (.error (.core e), c.seen)) ∧
      (h.matches P held = .ok true → c.onHint P (some h) = (.ok false, c.seen)) ∧
      (h.matches P held = .ok false → c.onHint P (some h) = c.unmatched) := by
  have hheld' : ({ c with hintsSeen := c.hintsSeen + 1 } : HeartbeatConsumer).held = some held :=
    hheld
  unfold onHint
  dsimp only
  rw [hheld']
  dsimp only
  refine ⟨fun e he => ?_, fun ht => ?_, fun hf => ?_⟩
  · rw [he]
    rfl
  · rw [ht]
    rfl
  · rw [hf]
    rfl

theorem undigestible_iff {h : ChangeHint} {held : Heartbeat} {d : Json} (hr : Reads d held)
    (hheld : c.held = some held) :
    c.Undigestible (some h) ↔ ∃ e, h.matches P held = .error e := by
  rw [matches_error_iff hr]
  constructor
  · rintro ⟨h', held', hh, hheld', hrev⟩
    obtain rfl := Option.some.inj hh
    obtain rfl := Option.some.inj (hheld.symm.trans hheld')
    exact hrev
  · exact fun hrev => ⟨h, held, rfl, hheld, hrev⟩

theorem unmatched_cases {hint : Option ChangeHint} (h : ¬ c.Undigestible hint ∧
      c.matchesHeld P hint = false ∧ c.onHint P hint = c.unmatched) :
    (¬ c.Undigestible hint ∧ c.matchesHeld P hint = false ∧ c.refetchPending = true ∧
      c.onHint P hint = (.ok false, { c.seen with hintsCoalesced := c.hintsCoalesced + 1 })) ∨
    (¬ c.Undigestible hint ∧ c.matchesHeld P hint = false ∧ c.refetchPending = false ∧
      c.onHint P hint = (.ok true, { c.seen with refetchPending := true })) := by
  obtain ⟨hu, hm, hanswer⟩ := h
  rw [HeartbeatConsumer.unmatched] at hanswer
  cases hp : c.refetchPending with
  | true => exact .inl ⟨hu, hm, rfl, by rw [hanswer, hp]; rfl⟩
  | false => exact .inr ⟨hu, hm, rfl, by rw [hanswer, hp]; rfl⟩

/-- **The ways of one hint**: it raises, matches what is held, is coalesced, or schedules a
refetch. -/
theorem onHint_cases {p : Str} (hsound : Sound p c) (hint : Option ChangeHint) :
    (c.Undigestible hint ∧ c.matchesHeld P hint = false ∧
      ∃ e, c.onHint P hint = (.error e, c.seen)) ∨
    (¬ c.Undigestible hint ∧ c.matchesHeld P hint = true ∧ c.onHint P hint = (.ok false, c.seen)) ∨
    (¬ c.Undigestible hint ∧ c.matchesHeld P hint = false ∧ c.refetchPending = true ∧
      c.onHint P hint = (.ok false, { c.seen with hintsCoalesced := c.hintsCoalesced + 1 })) ∨
    (¬ c.Undigestible hint ∧ c.matchesHeld P hint = false ∧ c.refetchPending = false ∧
      c.onHint P hint = (.ok true, { c.seen with refetchPending := true })) := by
  cases hint with
  | none => exact .inr (.inr (unmatched_cases (onHint_open (.inl rfl))))
  | some h =>
    cases hheld : c.held with
    | none => exact .inr (.inr (unmatched_cases (onHint_open (.inr hheld))))
    | some held =>
      obtain ⟨d, hr⟩ := hsound.reads held hheld
      obtain ⟨herror, htrue, hfalse⟩ := @onHint_compared P c h held hheld
      have hraise := @undigestible_iff P c h held d hr hheld
      have hmatch : c.matchesHeld P (some h) = decide (h.matches P held = .ok true) := by
        simp [matchesHeld, hheld]
      cases hm : h.matches P held with
      | error e =>
        exact .inl ⟨hraise.mpr ⟨e, hm⟩, by simp [hmatch, hm], .core e, herror e hm⟩
      | ok b =>
        have hno : ¬ c.Undigestible (some h) := by simp [hraise, hm]
        cases b with
        | true => exact .inr (.inl ⟨hno, by simp [hmatch, hm], htrue hm⟩)
        | false => exact .inr (.inr (unmatched_cases ⟨hno, by simp [hmatch, hm], hfalse hm⟩))

/-- **No hint reaches the source.** -/
theorem onHint_fetches (c : HeartbeatConsumer) (hint : Option ChangeHint) :
    (c.onHint P hint).2.fetches = c.fetches := by
  unfold onHint
  dsimp only
  split
  · rfl
  · rfl
  · split_ifs <;> rfl

/-- A refetch asks the source once, clears the flag, and counts no hint. -/
theorem refetch_frame (c : HeartbeatConsumer) (factory : Option BinderFactory)
    (fetched : Except Str FetchResult) (now : ℤ) :
    (c.refetch P factory fetched now).2.fetches = c.fetches + 1 ∧
      (c.refetch P factory fetched now).2.refetchPending = false ∧
      (c.refetch P factory fetched now).2.hintsSeen = c.hintsSeen ∧
      (c.refetch P factory fetched now).2.hintsCoalesced = c.hintsCoalesced := by
  rcases refetch_writes P c factory fetched now with hwrites | ⟨binding, state, hwrites⟩ <;>
    rw [hwrites] <;> exact ⟨rfl, rfl, rfl, rfl⟩

/-- What a call other than a hint does to the counters: it is a refetch, or changes nothing. -/
theorem step_frame (c : HeartbeatConsumer) {event : Event} (h : ∀ hint, event ≠ .onHint hint) :
    ((c.step P event).2.fetches = c.fetches + 1 ∧
      (c.step P event).2.hintsSeen = c.hintsSeen ∧
      (c.step P event).2.hintsCoalesced = c.hintsCoalesced) ∨ (c.step P event).2 = c := by
  cases event with
  | onHint hint => exact absurd rfl (h hint)
  | refetch factory fetched now =>
    obtain ⟨hf, -, hs, hc⟩ := refetch_frame (P := P) c factory fetched now
    exact .inl ⟨hf, hs, hc⟩
  | poll factory fetched now =>
    rcases poll_effect P c factory fetched now with ⟨-, heq⟩ | heq
    · obtain ⟨hf, -, hs, hc⟩ := refetch_frame (P := P) c factory fetched now
      have hstep : (c.step P (.poll factory fetched now)).2 =
          (c.refetch P factory fetched now).2 := heq
      rw [hstep]
      exact .inl ⟨hf, hs, hc⟩
    · exact .inr heq

/-! ## The answers to hints -/

/-- One call of `on_hint`: what it answered, and whether the hint matched the held lease. -/
structure HintCall where
  answer : Except Raised Bool
  matched : Bool

/-- The call returned `True`. -/
def HintCall.scheduled (call : HintCall) : Bool := call.answer = .ok true

/-- The call raised. -/
def HintCall.raised (call : HintCall) : Bool := !call.answer.isOk

/-- A consumer whose journal is the calls of `on_hint`. -/
def hintCalls (P : Platform) : Machine HeartbeatConsumer Event HintCall where
  next c event := (c.step P event).2
  entry c
    | .onHint hint => some ⟨(c.onHint P hint).1, c.matchesHeld P hint⟩
    | _ => none

/-- Each hint that was seen scheduled a refetch, was coalesced, matched what was held or raised. -/
def Counted (c : HeartbeatConsumer) (calls : List HintCall) : Prop :=
  c.hintsSeen = calls.countP HintCall.scheduled + c.hintsCoalesced +
    calls.countP HintCall.matched + calls.countP HintCall.raised

theorem Counted.step {p : Str} (hsound : Sound p c) {past : List HintCall} (h : Counted c past)
    (event : Event) : Counted ((hintCalls P).next c event)
      (past ++ ((hintCalls P).entry c event).toList) := by
  have hother : ∀ event : Event, (∀ hint, event ≠ .onHint hint) →
      (hintCalls P).entry c event = none → Counted ((hintCalls P).next c event)
        (past ++ ((hintCalls P).entry c event).toList) := by
    intro event hne hentry
    have hnext : (hintCalls P).next c event = (c.step P event).2 := rfl
    rw [hentry, Option.toList_none, List.append_nil, hnext, Counted]
    rcases step_frame (P := P) c hne with ⟨-, hs, hc⟩ | heq
    · rw [hs, hc, h]
    · rw [heq, h]
  cases event with
  | refetch factory fetched now => exact hother _ (by simp) rfl
  | poll factory fetched now => exact hother _ (by simp) rfl
  | onHint hint =>
    have hnext : (hintCalls P).next c (.onHint hint) = (c.onHint P hint).2 := rfl
    have hentry : (hintCalls P).entry c (.onHint hint) =
        some ⟨(c.onHint P hint).1, c.matchesHeld P hint⟩ := rfl
    simp only [Counted] at h ⊢
    rw [hnext, hentry, Option.toList_some]
    simp only [List.countP_append, List.countP_singleton]
    rcases onHint_cases (P := P) hsound hint with ⟨-, hm, e, ha⟩ | ⟨-, hm, ha⟩ |
      ⟨-, hm, -, ha⟩ | ⟨-, hm, -, ha⟩ <;> rw [ha, hm] <;>
        simp [HintCall.scheduled, HintCall.raised, Except.isOk, Except.toBool, seen, h] <;> omega

/-- **Every hint is counted once.** -/
theorem counted_run (P : Platform) (p : Str) (maxSkew : Option ℤ) (fraction interval : ℚ)
    (events : List Event) :
    Counted ((consumer P).run (.init p maxSkew fraction interval) events)
      ((hintCalls P).journal (.init p maxSkew fraction interval) events) := by
  have hinit : Sound p (.init p maxSkew fraction interval) := ⟨rfl, rfl, fun g hg => by cases hg⟩
  have hstep : ∀ c past event, (Sound p c ∧ Counted c past) →
      Sound p ((hintCalls P).next c event) ∧ Counted ((hintCalls P).next c event)
        (past ++ ((hintCalls P).entry c event).toList) :=
    fun c past event h => ⟨h.1.step event, h.2.step h.1 event⟩
  exact ((hintCalls P).invariant_run hstep ⟨hinit, rfl⟩ events).2

/-- The calls that raise are those that need a digest where there is none. -/
theorem raised_eq_zero_iff {p : Str} : ∀ (events : List Event) {c : HeartbeatConsumer}, Sound p c →
    (((hintCalls P).journal c events).countP HintCall.raised = 0 ↔
      (consumer P).Along (fun c event => ∀ hint, event = .onHint hint → ¬ c.Undigestible hint)
        c events)
  | [], _, _ => by simp [Machine.Along]
  | event :: events, c, hsound => by
    have ih := raised_eq_zero_iff events (hsound.step (P := P) event)
    have hhead : ((hintCalls P).entry c event).toList.countP HintCall.raised = 0 ↔
        ∀ hint, event = .onHint hint → ¬ c.Undigestible hint := by
      cases event with
      | refetch factory fetched now => simp [hintCalls]
      | poll factory fetched now => simp [hintCalls]
      | onHint hint =>
        have hentry : (hintCalls P).entry c (.onHint hint) =
            some ⟨(c.onHint P hint).1, c.matchesHeld P hint⟩ := rfl
        simp only [hentry, Option.toList_some, List.countP_singleton, Event.onHint.injEq,
          forall_eq']
        rcases onHint_cases (P := P) hsound hint with ⟨hu, -, e, ha⟩ | ⟨hu, -, ha⟩ |
          ⟨hu, -, -, ha⟩ | ⟨hu, -, -, ha⟩ <;> rw [ha] <;>
            simp [HintCall.raised, Except.isOk, Except.toBool, hu]
    rw [Machine.journal_cons, List.countP_append, Nat.add_eq_zero_iff, hhead]
    constructor
    · rintro ⟨hfirst, hrest⟩ pre j post his
      cases pre with
      | nil =>
        obtain ⟨rfl, rfl⟩ := List.cons.inj his
        exact hfirst
      | cons i pre =>
        obtain ⟨rfl, rfl⟩ := List.cons.inj his
        exact ih.mp hrest pre j post rfl
    · intro h
      refine ⟨h [] event events rfl, ih.mpr fun pre j post his => ?_⟩
      exact h (event :: pre) j post (by rw [his, List.cons_append])

/-! ## Between two refetches, and after a burst -/

/-- No call takes a fetch back. -/
theorem fetches_le_run (P : Platform) (c : HeartbeatConsumer) (events : List Event) :
    c.fetches ≤ ((consumer P).run c events).fetches := by
  have hother : ∀ (c' : HeartbeatConsumer) (event : Event), (∀ hint, event ≠ .onHint hint) →
      c.fetches ≤ c'.fetches →
      c.fetches ≤ (c'.step P event).2.fetches := by
    intro c' event hne h
    rcases step_frame (P := P) c' hne with ⟨hf, -⟩ | heq
    · omega
    · rwa [heq]
  have hstep : ∀ (c' : HeartbeatConsumer) (event : Event), c.fetches ≤ c'.fetches →
      c.fetches ≤ ((consumer P).next c' event).fetches := by
    intro c' event h
    cases event with
    | onHint hint => exact h.trans (onHint_fetches c' hint).ge
    | refetch factory fetched now => exact hother c' _ (by simp) h
    | poll factory fetched now => exact hother c' _ (by simp) h
  exact (consumer P).invariant_state hstep le_rfl events

/-- A hint that schedules a refetch sets the flag, which was clear. -/
theorem onHint_flag {p : Str} (hsound : Sound p c) (hint : Option ChangeHint) :
    (if HintCall.scheduled ⟨(c.onHint P hint).1, c.matchesHeld P hint⟩ then 1 else 0) +
      (if c.refetchPending then 1 else 0) =
        if (c.onHint P hint).2.refetchPending then 1 else 0 := by
  rcases onHint_cases (P := P) hsound hint with ⟨-, -, e, ha⟩ | ⟨-, -, ha⟩ |
    ⟨-, -, hp, ha⟩ | ⟨-, -, hp, ha⟩ <;> rw [ha]
  · cases hp : c.refetchPending <;> simp [HintCall.scheduled, seen, hp]
  · cases hp : c.refetchPending <;> simp [HintCall.scheduled, seen, hp]
  · simp [HintCall.scheduled, seen, hp]
  · simp [HintCall.scheduled, hp]

/-- **Between two refetches** at most one hint schedules one. -/
theorem scheduled_le {p : Str} : ∀ (events : List Event) {c : HeartbeatConsumer}, Sound p c →
    ((consumer P).run c events).fetches = c.fetches →
    ((hintCalls P).journal c events).countP HintCall.scheduled +
      (if c.refetchPending then 1 else 0) ≤ 1
  | [], c, _, _ => by
    rw [Machine.journal_nil, List.countP_nil]
    split_ifs <;> omega
  | event :: events, c, hsound, hfetches => by
    have hrun : ((consumer P).run (c.step P event).2 events).fetches = c.fetches := hfetches
    have hlater := fetches_le_run P (c.step P event).2 events
    have hsame : (∀ hint, event ≠ .onHint hint) → (c.step P event).2 = c := by
      intro hne
      rcases step_frame (P := P) c hne with ⟨hf, -⟩ | heq
      · omega
      · exact heq
    have hother : (∀ hint, event ≠ .onHint hint) → (hintCalls P).entry c event = none →
        ((hintCalls P).journal c (event :: events)).countP HintCall.scheduled +
          (if c.refetchPending then 1 else 0) ≤ 1 := by
      intro hne hentry
      have hnext : (hintCalls P).next c event = c := hsame hne
      rw [Machine.journal_cons, hentry, Option.toList_none, List.nil_append, hnext]
      rw [hsame hne] at hrun
      exact scheduled_le events hsound hrun
    cases event with
    | refetch factory fetched now => exact hother (by simp) rfl
    | poll factory fetched now => exact hother (by simp) rfl
    | onHint hint =>
      have hstep : (c.step P (.onHint hint)).2.fetches = c.fetches := onHint_fetches c hint
      have ih := scheduled_le events (hsound.step (P := P) (.onHint hint)) (hrun.trans hstep.symm)
      have hnext : (hintCalls P).next c (.onHint hint) = (c.onHint P hint).2 := rfl
      have hnext' : (c.step P (.onHint hint)).2 = (c.onHint P hint).2 := rfl
      have hentry : (hintCalls P).entry c (.onHint hint) =
          some ⟨(c.onHint P hint).1, c.matchesHeld P hint⟩ := rfl
      rw [Machine.journal_cons, hentry, Option.toList_some, List.countP_append,
        List.countP_singleton, hnext]
      rw [hnext'] at ih
      have hflag := onHint_flag (P := P) hsound hint
      omega

/-- A poll strictly before the deadline in force. -/
def Event.Early (c : HeartbeatConsumer) : Event → Prop
  | .poll _ _ now => ∃ deadline, c.refetchDeadline = .ok (some deadline) ∧ now < deadline
  | _ => False

/-- A poll before the deadline refetches only for a hint. -/
theorem due_of_early {factory : Option BinderFactory} {fetched : Except Str FetchResult} {now : ℤ}
    (h : (Event.poll factory fetched now).Early c) : c.due now = .ok c.refetchPending := by
  obtain ⟨deadline, hdeadline, hnow⟩ := h
  have hheld : c.held.isNone = false := by
    unfold refetchDeadline at hdeadline
    cases hh : c.held with
    | none => rw [hh] at hdeadline; cases hdeadline
    | some held => rfl
  unfold due
  rw [hdeadline, hheld]
  cases c.refetchPending
  · exact congrArg Except.ok (decide_eq_false (by omega))
  · rfl

/-- **After a burst**, polls before the deadline fetch once at most. -/
theorem fetches_early_le : ∀ (polls : List Event) {c : HeartbeatConsumer},
    (consumer P).Along (fun c event => event.Early c) c polls →
    ((consumer P).run c polls).fetches ≤ c.fetches + (if c.refetchPending then 1 else 0)
  | [], c, _ => Nat.le_add_right _ _
  | event :: polls, c, h => by
    have hearly : event.Early c := h [] event polls rfl
    have hrest : (consumer P).Along (fun c event => event.Early c) (c.step P event).2 polls :=
      fun pre j post his => h (event :: pre) j post (by rw [his, List.cons_append])
    have ih := fetches_early_le polls hrest
    show ((consumer P).run (c.step P event).2 polls).fetches ≤ _
    cases event with
    | onHint hint => exact hearly.elim
    | refetch factory fetched now => exact hearly.elim
    | poll factory fetched now =>
      have hdue := due_of_early hearly
      cases hp : c.refetchPending with
      | false =>
        have hstep : (c.step P (.poll factory fetched now)).2 = c := by
          show (c.poll P factory fetched now).2 = c
          unfold poll
          rw [hdue, hp]
        rw [hstep] at ih ⊢
        rwa [hp] at ih
      | true =>
        have hstep : (c.step P (.poll factory fetched now)).2 =
            (c.refetch P factory fetched now).2 := by
          show (c.poll P factory fetched now).2 = _
          unfold poll
          rw [hdue, hp]
        obtain ⟨hf, hclear, -, -⟩ := refetch_frame (P := P) c factory fetched now
        rw [hstep, hf, hclear] at ih
        rw [hstep]
        simpa using ih

theorem fetches_hints (hints : List (Option ChangeHint)) (c : HeartbeatConsumer) :
    ((consumer P).run c (hints.map .onHint)).fetches = c.fetches := by
  induction hints generalizing c with
  | nil => rfl
  | cons hint hints ih => exact (ih (c.onHint P hint).2).trans (onHint_fetches c hint)

/-! ## Whole runs -/

/-- Hints coalesce and never amplify, along a run from `start`. -/
structure Coalesces (P : Platform) (start : HeartbeatConsumer) (events : List Event) : Prop where
  /-- No hint reaches the source. -/
  unfetched : ∀ pre hint post, events = pre ++ .onHint hint :: post →
    ((consumer P).run start (pre ++ [.onHint hint])).fetches =
      ((consumer P).run start pre).fetches
  /-- Every hint scheduled a refetch, was coalesced or matched. -/
  counted : ((consumer P).run start events).hintsSeen =
    ((hintCalls P).journal start events).countP HintCall.scheduled +
      ((consumer P).run start events).hintsCoalesced +
      ((hintCalls P).journal start events).countP HintCall.matched
  /-- Between two refetches at most one hint schedules one. -/
  once : ∀ pre mid post, events = pre ++ mid ++ post →
    ((consumer P).run start (pre ++ mid)).fetches = ((consumer P).run start pre).fetches →
    ((hintCalls P).journal ((consumer P).run start pre) mid).countP HintCall.scheduled ≤ 1
  /-- A burst, then polls before the deadline, fetch at most once. -/
  burst : ((consumer P).run start events).held.isSome → ∀ (hints : List (Option ChangeHint))
    (polls : List Event),
    (consumer P).Along (fun c event => event.Early c)
      ((consumer P).run start (events ++ hints.map .onHint)) polls →
    ((consumer P).run start (events ++ hints.map .onHint ++ polls)).fetches ≤
      ((consumer P).run start events).fetches + 1

/-- **Hints coalesce exactly when** none announces the revision of a held lease that has no
digest. -/
theorem hints_coalesce_exactly_when (P : Platform) (p : Str) (maxSkew : Option ℤ)
    (fraction interval : ℚ) (events : List Event) :
    Coalesces P (.init p maxSkew fraction interval) events ↔
      (consumer P).Along (fun c event => ∀ hint, event = .onHint hint → ¬ c.Undigestible hint)
        (.init p maxSkew fraction interval) events := by
  have hinit : Sound p (.init p maxSkew fraction interval) := ⟨rfl, rfl, fun g hg => by cases hg⟩
  have hcounted := counted_run P p maxSkew fraction interval events
  rw [← raised_eq_zero_iff events hinit]
  simp only [Counted] at hcounted
  constructor
  · intro h
    have := h.counted
    omega
  · intro h
    refine ⟨?_, by omega, ?_, ?_⟩
    · intro pre hint post _
      rw [Machine.run_concat]
      exact onHint_fetches _ hint
    · intro pre mid post _ hfetches
      rw [Machine.run_append] at hfetches
      have hle := scheduled_le mid (sound_run P p maxSkew fraction interval pre) hfetches
      omega
    · intro _ hints polls hearly
      have hpolls := fetches_early_le polls hearly
      have hburst : ((consumer P).run (.init p maxSkew fraction interval)
          (events ++ hints.map .onHint)).fetches =
            ((consumer P).run (.init p maxSkew fraction interval) events).fetches := by
        rw [Machine.run_append]
        exact fetches_hints hints _
      rw [Machine.run_append, ← hburst]
      refine hpolls.trans ?_
      split_ifs <;> omega

/-- A lease whose extensions hold a lone surrogate is fetched, and announced. -/
def announced : List Event :=
  let extensions : Members := [(py "org.example/note", .str [.surrogate ⟨0, by decide⟩])]
  [.refetch none (.ok
      { document := beat (.int 0) "2026-01-01T00:00:00Z" "2026-01-01T00:00:30Z" extensions }) newYear,
    .onHint (some ⟨.str (py "heartbeat://node"), .str (py "boot:0"),
      py "sha256:" ++ List.replicate 64 (.scalar '0')⟩)]

/-- The hint was seen, and is neither coalesced nor matched, nor does it schedule a refetch. -/
theorem hint_unaccounted : ¬ ∀ (P : Platform) (p : Str) (maxSkew : Option ℤ)
    (fraction interval : ℚ) (events : List Event),
    Coalesces P (.init p maxSkew fraction interval) events := by
  intro hall
  have h := (hall plainPlatform (py "node") DEFAULT_MAX_SKEW (1 / 2) 60 announced).counted
  revert h
  decide +kernel

end McpHeartbeat
