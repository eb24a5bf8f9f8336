import McpHeartbeat.Core.Replay
import McpHeartbeat.Core.Totality
import McpHeartbeat.Current.Convergence

/-!
# Runs of a consumer

* `Event`, `consumer`: hints, refetches and polls in any order; what raises leaves what it wrote;
* `reconcile_ok`, `refetch_cases`: what one refetch does to the held state;
* `Tells`, `refetch_of_judge`: what its verdict says of a document that reads;
* `Sound`: the invariant of a run; `sound_run`;
* **`refetch_truthful_exactly_when`**: when a refetch returns a verdict, and one that is true;
  `refetch_raises`: it does not always;
* **`authority_from_principal`**: what stands behind every change of the held state.
-/

namespace McpHeartbeat

open Base

/-- One call on a consumer, with what its collaborators answer. -/
inductive Event
  | onHint (hint : Option ChangeHint)
  | refetch (factory : Option BinderFactory) (fetched : Except Str FetchResult) (now : ℤ)
  | poll (factory : Option BinderFactory) (fetched : Except Str FetchResult) (now : ℤ)

variable (P : Platform)

/-- One call: the verdict it returns, if any, and what it leaves. -/
def HeartbeatConsumer.step (c : HeartbeatConsumer) :
    Event → Except Raised (Option ConvergenceVerdict) × HeartbeatConsumer
  | .onHint hint => ((c.onHint P hint).1.map fun _ => none, (c.onHint P hint).2)
  | .refetch factory fetched now =>
    ((c.refetch P factory fetched now).1.map some, (c.refetch P factory fetched now).2)
  | .poll factory fetched now => c.poll P factory fetched now

/-- A caller that catches what is raised; the journal is the verdicts. -/
def consumer : Machine HeartbeatConsumer Event ConvergenceVerdict where
  next c event := (c.step P event).2
  entry c event := (c.step P event).1.toOption.join

variable {P} {c : HeartbeatConsumer} {factory : Option BinderFactory}
  {fetched : Except Str FetchResult} {result : FetchResult} {now : ℤ} {d : Json}
  {binding : Option ResponseBinding}

/-! ## One refetch -/

namespace HeartbeatConsumer

/-- The consumer after a response, before it is reconciled. -/
def responded (c : HeartbeatConsumer) (binding : Option ResponseBinding) (now : ℤ) :
    HeartbeatConsumer :=
  { c with refetchPending := false, fetches := c.fetches + 1, lastFetchAt := some now,
           lastBinding := binding }

/-- What the constructor fixes. -/
def settings (c : HeartbeatConsumer) : Str × Option ℤ × ℚ × ℚ :=
  (c.participantId, c.maxSkew, c.refetchFraction, c.maxRefetchInterval)

/-- A verdict that tells the truth about the states before and after it. -/
structure Truthful (c : HeartbeatConsumer) (v : ConvergenceVerdict) (c' : HeartbeatConsumer) :
    Prop where
  changed : c'.state ≠ c.state ↔ v.convergence = .advanced
  held : v.held = c'.held
  kept : v.convergence ≠ .advanced →
    c'.held = c.held ∧ c'.state.retiredEpochs = c.state.retiredEpochs

theorem Truthful.of_same {v : ConvergenceVerdict} {c' : HeartbeatConsumer}
    (hs : c'.state = c.state) (hv : v.convergence ≠ .advanced) (hh : v.held = c.held) :
    Truthful c v c' where
  changed := iff_of_false (not_not.mpr hs) hv
  held := by rw [hh, HeartbeatConsumer.held, HeartbeatConsumer.held, hs]
  kept _ := by rw [HeartbeatConsumer.held, HeartbeatConsumer.held, hs]; exact ⟨rfl, rfl⟩

end HeartbeatConsumer

open HeartbeatConsumer

/-- A heartbeat that is admitted changes the state. -/
theorem hold_ne {state : LineageState} {h : Heartbeat} (ha : state.Admits h) :
    state.hold h ≠ state := by
  intro he
  have hheld : state.held = some h := by rw [← he]; rfl
  have hrise := (LineageState.admits_of_same hheld rfl).mp ha
  exact Std.Irrefl.irrefl _ hrise

/-- What reconciling a document answers. -/
theorem reconcile_cases (P : Platform) (c : HeartbeatConsumer) (binding : Option ResponseBinding)
    (d : Json) (now : ℤ) :
    (∃ a v, admitDocument P c.state d now c.maxSkew = .ok a ∧
      c.reconcile P binding d now = (.ok v, { c with state := a.state }) ∧
      v.held = a.state.held ∧ (v.convergence = .advanced ↔ a.accepted = true)) ∨
    ∃ e, admitDocument P c.state d now c.maxSkew = .error e ∧
      c.reconcile P binding d now = (.error (.core e), c) := by
  unfold HeartbeatConsumer.reconcile
  cases ha : admitDocument P c.state d now c.maxSkew with
  | error e =>
    refine Or.inr ⟨e, rfl, ?_⟩
    cases e with
    | heartbeat x => exact absurd (admit_error ha) (by simp)
    | _ => rfl
  | ok a =>
    refine Or.inl ⟨a, ?_⟩
    obtain ⟨s, reason, duplicate⟩ := a
    cases duplicate with
    | true => exact ⟨_, rfl, rfl, rfl, by simp [Admission.accepted]⟩
    | false =>
      cases reason with
      | some reason => exact ⟨_, rfl, rfl, rfl, by simp [Admission.accepted]⟩
      | none => exact ⟨_, rfl, rfl, rfl, by simp [Admission.accepted]⟩

/-- A verdict on a document tells the truth. -/
theorem reconcile_truthful {v : ConvergenceVerdict} {c' : HeartbeatConsumer}
    (h : c.reconcile P binding d now = (.ok v, c')) : Truthful c v c' := by
  rcases reconcile_cases P c binding d now with ⟨a, w, ha, hw, hheld, hadv⟩ | ⟨e, -, he⟩
  · obtain ⟨hv, rfl⟩ := Prod.mk.inj (hw.symm.trans h)
    obtain rfl := Except.ok.inj hv
    rcases admit_ok ha with ⟨g, -, rfl, -, hadm, -⟩ | ⟨hacc, hs⟩
    · have hv : w.convergence = .advanced := hadv.mpr rfl
      exact ⟨iff_of_true (hold_ne hadm) hv, hheld, fun hne => absurd hv hne⟩
    · have hv : w.convergence ≠ .advanced := by
        rw [ne_eq, hadv, hacc]
        exact Bool.false_ne_true
      exact Truthful.of_same hs hv (by rw [hheld, hs]; rfl)
  · cases he.symm.trans h

/-- The held heartbeat again: nothing changes. -/
theorem reconcile_held {h : Heartbeat} (binding : Option ResponseBinding) (now : ℤ)
    (hr : Reads d h) (hn : h.nodeId = some c.state.participantId) (hheld : c.held = some h)
    (hw : (Json.obj h.extensions).WellFormed) :
    ∃ v, c.reconcile P binding d now = (.ok v, c) ∧ v.convergence = .unchanged := by
  have henc : h.Encodable P := (encodable_iff hr).mpr hw
  unfold HeartbeatConsumer.reconcile
  rw [admit_of_reads hr, judge_duplicate hn hheld (Heartbeat.Coincides.refl h) henc]
  exact ⟨_, rfl, rfl⟩

/-- A timely heartbeat that the register admits: it is held. -/
theorem reconcile_admitted {h : Heartbeat} (binding : Option ResponseBinding) (hr : Reads d h)
    (hn : h.nodeId = some c.state.participantId) (hadm : c.state.Admits h)
    (hf : checkFreshness h now c.maxSkew = none) :
    ∃ v, c.reconcile P binding d now = (.ok v, { c with state := c.state.hold h }) ∧
      v.convergence = .advanced := by
  have hj := ((@judge_timely P c.state h now c.maxSkew hn hf).resolve_right fun hno => hno.1 hadm).2
  unfold HeartbeatConsumer.reconcile
  rw [admit_of_reads hr, hj]
  exact ⟨_, rfl, rfl⟩

/-- What is held after its document was reconciled was held before, or was accepted. -/
theorem held_of_reconcile {h : Heartbeat} {v : ConvergenceVerdict} {c' : HeartbeatConsumer}
    (hrec : c.reconcile P binding d now = (.ok v, c')) (hr : Reads d h)
    (hn : h.nodeId = some c.state.participantId) (hheld : c'.held = some h) :
    (c.held = some h ∧ (Json.obj h.extensions).WellFormed) ∨
      (c.held ≠ some h ∧ checkFreshness h now c.maxSkew = none) := by
  rcases reconcile_cases P c binding d now with ⟨a, w, ha, hw, -, -⟩ | ⟨e, -, he⟩
  · obtain ⟨-, rfl⟩ := Prod.mk.inj (hw.symm.trans hrec)
    by_cases hsame : c.held = some h
    · refine Or.inl ⟨hsame, (encodable_iff (P := P) hr).mp ?_⟩
      by_contra hne
      rw [admit_of_reads hr, judge_unencodable hn hsame hne] at ha
      cases ha
    · rcases admit_ok ha with ⟨f, hrf, rfl, -, -, hf⟩ | ⟨-, hs⟩
      · obtain rfl := hrf.unique hr
        exact Or.inr ⟨hsame, hf⟩
      · have hheld' : a.state.held = some h := hheld
        rw [hs] at hheld'
        exact absurd hheld' hsame
  · cases he.symm.trans hrec

theorem withheld_some {v : ConvergenceVerdict} (h : c.withheld binding = some v) :
    v.convergence ≠ .advanced ∧ v.held = c.held := by
  unfold HeartbeatConsumer.withheld at h
  split at h
  · cases h
  · split at h
    · obtain rfl := Option.some.inj h
      exact ⟨by simp, rfl⟩
    · split_ifs at h
      obtain rfl := Option.some.inj h
      exact ⟨by simp, rfl⟩

/-- Only a bound response, or one that nothing binds, reaches the document. -/
theorem withheld_none : c.withheld binding = none ↔ ∀ b, binding = some b → b.binding = .bound := by
  unfold HeartbeatConsumer.withheld
  cases binding with
  | none => simp
  | some b =>
    simp only [Option.some.injEq, forall_eq']
    unfold enforce
    cases b.binding <;> simp

/-- What a refetch does with a response. -/
theorem refetch_response : c.refetch P factory (.ok result) now =
    match c.bind factory result with
    | .error e => (.error e, c.responded c.lastBinding now)
    | .ok binding =>
      match c.withheld binding with
      | some v => (.ok v, c.responded binding now)
      | none => (c.responded binding now).reconcile P binding result.document now := rfl

/-- What a refetch writes: without a response its counters, with one also its instant. -/
theorem refetch_writes (P : Platform) (c : HeartbeatConsumer) (factory : Option BinderFactory)
    (fetched : Except Str FetchResult) (now : ℤ) :
    (c.refetch P factory fetched now).2 =
        { c with refetchPending := false, fetches := c.fetches + 1 } ∨
      ∃ binding state, (c.refetch P factory fetched now).2 =
        { c.responded binding now with state } := by
  cases fetched with
  | error name => exact .inl rfl
  | ok result =>
    right
    rw [refetch_response]
    cases c.bind factory result with
    | error e => exact ⟨_, _, rfl⟩
    | ok binding =>
      dsimp only
      cases c.withheld binding with
      | some v => exact ⟨_, _, rfl⟩
      | none =>
        rcases reconcile_cases P (c.responded binding now) binding result.document now with
          ⟨a, v, -, hrec, -, -⟩ | ⟨e, -, hrec⟩ <;> exact ⟨_, _, by dsimp only; rw [hrec]⟩

/-- The four ways of one refetch. -/
theorem refetch_cases (P : Platform) (c : HeartbeatConsumer) (factory : Option BinderFactory)
    (fetched : Except Str FetchResult) (now : ℤ) :
    (∃ name v c', fetched = .error name ∧ c.refetch P factory fetched now = (.ok v, c') ∧
      c'.state = c.state ∧ c'.settings = c.settings ∧ v.convergence ≠ .advanced ∧
      v.held = c.held) ∨
    (∃ result e, fetched = .ok result ∧ c.bind factory result = .error e ∧
      c.refetch P factory fetched now = (.error e, c.responded c.lastBinding now)) ∨
    (∃ result binding v, fetched = .ok result ∧ c.bind factory result = .ok binding ∧
      c.withheld binding = some v ∧
      c.refetch P factory fetched now = (.ok v, c.responded binding now)) ∨
    ∃ result binding, fetched = .ok result ∧ c.bind factory result = .ok binding ∧
      c.withheld binding = none ∧ c.refetch P factory fetched now =
        (c.responded binding now).reconcile P binding result.document now := by
  cases fetched with
  | error name => exact Or.inl ⟨name, _, _, rfl, rfl, rfl, rfl, by simp, rfl⟩
  | ok result =>
    rw [refetch_response]
    cases hb : c.bind factory result with
    | error e => exact Or.inr (Or.inl ⟨result, e, rfl, hb, rfl⟩)
    | ok binding =>
      cases hw : c.withheld binding with
      | some v =>
        refine Or.inr (Or.inr (Or.inl ⟨result, binding, v, rfl, hb, hw, ?_⟩))
        dsimp only
        rw [hw]
      | none =>
        refine Or.inr (Or.inr (Or.inr ⟨result, binding, rfl, hb, hw, ?_⟩))
        dsimp only
        rw [hw]

/-- What a refetch does to the state: nothing, or it holds what the response carries. -/
theorem refetch_effect (P : Platform) (c : HeartbeatConsumer) (factory : Option BinderFactory)
    (fetched : Except Str FetchResult) (now : ℤ) :
    (c.refetch P factory fetched now).2.settings = c.settings ∧
    ((c.refetch P factory fetched now).2.state = c.state ∨
      ∃ result binding h, fetched = .ok result ∧ c.bind factory result = .ok binding ∧
        (∀ b, binding = some b → b.binding = .bound) ∧ Reads result.document h ∧
        h.nodeId = some c.state.participantId ∧
        (c.refetch P factory fetched now).2.state = c.state.hold h) := by
  rcases refetch_cases P c factory fetched now with ⟨name, v, c', -, hr, hs, hp, -, -⟩ |
    ⟨result, e, -, -, hr⟩ | ⟨result, binding, v, -, -, -, hr⟩ |
    ⟨result, binding, hf, hb, hw, hr⟩
  · rw [hr]
    exact ⟨hp, Or.inl hs⟩
  · rw [hr]
    exact ⟨rfl, Or.inl rfl⟩
  · rw [hr]
    exact ⟨rfl, Or.inl rfl⟩
  · rw [hr]
    rcases reconcile_cases P (c.responded binding now) binding result.document now with
      ⟨a, v, ha, hrec, -, -⟩ | ⟨e, -, hrec⟩
    · rw [hrec]
      refine ⟨rfl, ?_⟩
      rcases admit_ok ha with ⟨h, hread, rfl, hn, -, -⟩ | ⟨-, hs⟩
      · exact Or.inr ⟨result, binding, h, hf, hb, withheld_none.mp hw, hread, hn, rfl⟩
      · exact Or.inl hs
    · rw [hrec]
      exact ⟨rfl, Or.inl rfl⟩

/-- A source that raises leaves the settings and the state. -/
theorem refetch_raised (P : Platform) (c : HeartbeatConsumer) (factory : Option BinderFactory)
    (name : Str) (now : ℤ) :
    (c.refetch P factory (.error name) now).2.settings = c.settings ∧
      (c.refetch P factory (.error name) now).2.state = c.state := by
  obtain ⟨hs, hstate | ⟨result, _, _, hno, -⟩⟩ := refetch_effect P c factory (.error name) now
  · exact ⟨hs, hstate⟩
  · cases hno

/-! ## What a verdict tells -/

/-- What the verdict on an admission says. -/
structure Tells (a : Admission) (v : ConvergenceVerdict) : Prop where
  convergence : v.convergence =
    if a.duplicate then .unchanged else if a.reason.isSome then .refused else .advanced
  reason : v.reason = a.reason.map .code
  held : v.held = a.state.held

/-- A refetch whose response is not withheld, with a document that reads. -/
theorem refetch_of_judge {h : Heartbeat} {a : Admission} (hb : c.bind factory result = .ok binding)
    (hw : c.withheld binding = none) (hr : Reads result.document h)
    (ha : c.state.judge P h now c.maxSkew = .ok a) (hdup : a.duplicate = true → a.reason = none) :
    ∃ v, c.refetch P factory (.ok result) now =
      (.ok v, { c.responded binding now with state := a.state }) ∧ Tells a v := by
  have hadm : admitDocument P (c.responded binding now).state result.document now
      (c.responded binding now).maxSkew = .ok a := (admit_of_reads hr).trans ha
  rw [refetch_response, hb]
  dsimp only
  rw [hw]
  dsimp only
  unfold HeartbeatConsumer.reconcile
  rw [hadm]
  obtain ⟨state, reason, duplicate⟩ := a
  cases duplicate with
  | true =>
    obtain rfl : reason = none := hdup rfl
    exact ⟨_, rfl, rfl, rfl, rfl⟩
  | false => cases reason <;> exact ⟨_, rfl, rfl, rfl, rfl⟩

/-! ## Runs -/

/-- What every consumer that is reached satisfies. -/
structure Sound (p : Str) (c : HeartbeatConsumer) : Prop where
  participant : c.participantId = p
  tracked : c.state.participantId = p
  reads : ∀ g, c.state.held = some g → ∃ e, Reads e g

theorem Sound.of_state {p : Str} {c' : HeartbeatConsumer} (h : Sound p c)
    (hp : c'.settings = c.settings) (hs : c'.state = c.state) : Sound p c' where
  participant := (congrArg Prod.fst hp).trans h.participant
  tracked := by rw [hs, h.tracked]
  reads := by rw [hs]; exact h.reads

theorem Sound.refetch {p : Str} (h : Sound p c) :
    Sound p (c.refetch P factory fetched now).2 := by
  obtain ⟨hp, hs | ⟨result, binding, g, -, -, -, hread, -, hs⟩⟩ :=
    refetch_effect P c factory fetched now
  · exact h.of_state hp hs
  · refine ⟨(congrArg Prod.fst hp).trans h.participant, ?_, fun f hf => ?_⟩
    · rw [hs, LineageState.hold_participantId, h.tracked]
    · rw [hs, LineageState.hold_held] at hf
      obtain rfl := Option.some.inj hf
      exact ⟨_, hread⟩

theorem onHint_effect (P : Platform) (c : HeartbeatConsumer) (hint : Option ChangeHint) :
    (c.onHint P hint).2.settings = c.settings ∧ (c.onHint P hint).2.state = c.state := by
  unfold HeartbeatConsumer.onHint
  dsimp only
  split
  · exact ⟨rfl, rfl⟩
  · exact ⟨rfl, rfl⟩
  · split_ifs <;> exact ⟨rfl, rfl⟩

/-- A poll is a refetch when one is due, and nothing else. -/
theorem poll_effect (P : Platform) (c : HeartbeatConsumer) (factory : Option BinderFactory)
    (fetched : Except Str FetchResult) (now : ℤ) :
    (c.due now = .ok true ∧
      (c.poll P factory fetched now).2 = (c.refetch P factory fetched now).2) ∨
    (c.poll P factory fetched now).2 = c := by
  unfold HeartbeatConsumer.poll
  cases c.due now with
  | error e => exact Or.inr rfl
  | ok due =>
    cases due with
    | false => exact Or.inr rfl
    | true => exact Or.inl ⟨rfl, rfl⟩

/-- No call changes what the constructor fixed. -/
theorem step_settings (P : Platform) (c : HeartbeatConsumer) (event : Event) :
    (c.step P event).2.settings = c.settings := by
  cases event with
  | onHint hint => exact (onHint_effect P c hint).1
  | refetch factory fetched now => exact (refetch_effect P c factory fetched now).1
  | poll factory fetched now =>
    show (c.poll P factory fetched now).2.settings = c.settings
    rcases poll_effect P c factory fetched now with ⟨-, hc⟩ | hc <;> rw [hc]
    exact (refetch_effect P c factory fetched now).1

theorem settings_run (P : Platform) (c : HeartbeatConsumer) (events : List Event) :
    ((consumer P).run c events).settings = c.settings := by
  have hstep : ∀ c' event, c'.settings = c.settings →
      ((consumer P).next c' event).settings = c.settings :=
    fun c' event hc => (step_settings P c' event).trans hc
  exact (consumer P).invariant_state hstep rfl events

theorem Sound.step {p : Str} (h : Sound p c) (event : Event) : Sound p (c.step P event).2 := by
  cases event with
  | onHint hint => exact h.of_state (onHint_effect P c hint).1 (onHint_effect P c hint).2
  | refetch factory fetched now => exact h.refetch
  | poll factory fetched now =>
    show Sound p (c.poll P factory fetched now).2
    rcases poll_effect P c factory fetched now with ⟨-, hc⟩ | hc <;> rw [hc]
    · exact h.refetch
    · exact h

/-- **Every consumer that is reached is sound.** -/
theorem sound_run (P : Platform) (p : Str) (maxSkew : Option ℤ) (fraction interval : ℚ)
    (events : List Event) :
    Sound p ((consumer P).run (.init p maxSkew fraction interval) events) := by
  have hstep : ∀ c event, Sound p c → Sound p ((consumer P).next c event) :=
    fun _ event hc => hc.step event
  have hinit : Sound p (.init p maxSkew fraction interval) := ⟨rfl, rfl, fun g hg => by cases hg⟩
  exact (consumer P).invariant_state hstep hinit events

/-! ## Verdicts that tell the truth -/

/-- The factory makes binders over policies that do not raise. -/
def Answering (factory : Option BinderFactory) : Prop :=
  ∀ make, factory = some make → ∀ principal, ∃ binder, make principal = .ok (some binder) ∧
    ∀ q p, ∃ verdict, binder.policy q p = .ok verdict

/-- Nothing binds the response, or its principal is not empty and the policy permits it. -/
def Trusted (factory : Option BinderFactory) (p : Str) (result : FetchResult) : Prop :=
  ∀ make, factory = some make → ∃ binder q, make result.principal = .ok (some binder) ∧
    binder.principal = some q ∧ q.isEmpty = false ∧ binder.policy q p = .ok .permitted

theorem bind_ok (hf : Answering factory) : ∃ binding, c.bind factory result = .ok binding := by
  unfold HeartbeatConsumer.bind
  cases factory with
  | none => exact ⟨none, rfl⟩
  | some make =>
    obtain ⟨binder, hb, hp⟩ := hf make rfl result.principal
    obtain ⟨b, he⟩ := evaluate_ok (p := c.participantId) fun q => hp q _
    exact ⟨some b, by simp only [hb, he]⟩

/-- A response reaches the document exactly when it is trusted. -/
theorem trusted_iff (hb : c.bind factory result = .ok binding) :
    c.withheld binding = none ↔ Trusted factory c.participantId result := by
  rw [withheld_none]
  unfold HeartbeatConsumer.bind at hb
  cases factory with
  | none =>
    obtain rfl := Except.ok.inj hb
    simp [Trusted]
  | some make =>
    dsimp only at hb
    cases hm : make result.principal with
    | error name => rw [hm] at hb; cases hb
    | ok o =>
      rw [hm] at hb
      cases o with
      | none => cases hb
      | some binder =>
        dsimp only at hb
        cases he : binder.evaluate c.participantId with
        | error name => rw [he] at hb; cases hb
        | ok b =>
          rw [he] at hb
          obtain rfl := Except.ok.inj hb
          simp only [Option.some.injEq, forall_eq']
          rw [evaluate_bound he]
          constructor
          · rintro ⟨q, hq, hne, hp⟩ make' hmake
            obtain rfl := Option.some.inj hmake
            exact ⟨binder, q, hm, hq, hne, hp⟩
          · intro ht
            obtain ⟨binder', q, hm', hq, hne, hp⟩ := ht make rfl
            obtain rfl := Option.some.inj (Except.ok.inj (hm.symm.trans hm'))
            exact ⟨q, hq, hne, hp⟩

/-- **When a refetch returns a verdict, and one that is true.** On every consumer that is reached,
with binders over policies that do not raise, exactly when admission answers on every document that
is fetched and trusted. -/
theorem refetch_truthful_exactly_when (P : Platform) (p : Str) (maxSkew : Option ℤ)
    (fraction interval : ℚ) (events : List Event) (factory : Option BinderFactory)
    (hf : Answering factory) (fetched : Except Str FetchResult) (now : ℤ) :
    let c := (consumer P).run (.init p maxSkew fraction interval) events
    let answer := c.refetch P factory fetched now
    (∃ v, answer.1 = .ok v ∧ Truthful c v answer.2) ↔
      ∀ result, fetched = .ok result → Trusted factory c.participantId result →
        Answerable P c.state result.document := by
  intro c answer
  have hsound : Sound p c := sound_run P p maxSkew fraction interval events
  rcases refetch_cases P c factory fetched now with ⟨name, v, c', rfl, hr, hs, -, hv, hh⟩ |
    ⟨result, e, -, hb, -⟩ | ⟨result, binding, v, rfl, hb, hw, hr⟩ |
    ⟨result, binding, rfl, hb, hw, hr⟩
  · have hanswer : answer = (.ok v, c') := hr
    rw [hanswer]
    exact iff_of_true ⟨v, rfl, Truthful.of_same hs hv hh⟩ (by simp)
  · obtain ⟨binding, hok⟩ := @bind_ok c factory result hf
    cases hb.symm.trans hok
  · have hanswer : answer = (.ok v, c.responded binding now) := hr
    rw [hanswer]
    refine iff_of_true ⟨v, rfl, Truthful.of_same rfl (withheld_some hw).1 (withheld_some hw).2⟩ ?_
    intro result' hres ht
    obtain rfl := Except.ok.inj hres
    cases hw.symm.trans ((trusted_iff hb).mpr ht)
  · have hanswer : answer = (c.responded binding now).reconcile P binding result.document now := hr
    have htrust : Trusted factory c.participantId result := (trusted_iff hb).mp hw
    have hcond : (∀ result', Except.ok result = (.ok result' : Except Str FetchResult) →
        Trusted factory c.participantId result' → Answerable P c.state result'.document) ↔
        Answerable P c.state result.document := by
      refine ⟨fun h => h result rfl htrust, fun h result' hres _ => ?_⟩
      obtain rfl := Except.ok.inj hres
      exact h
    rw [hcond, ← @admit_isOk P c.state result.document now c.maxSkew hsound.reads, hanswer]
    constructor
    · rintro ⟨v, hv, -⟩
      rcases reconcile_cases P (c.responded binding now) binding result.document now with
        ⟨a, w, ha, -, -, -⟩ | ⟨e, -, hrec⟩
      · exact ⟨a, ha⟩
      · rw [hrec] at hv
        cases hv
    · rintro ⟨a, ha⟩
      rcases reconcile_cases P (c.responded binding now) binding result.document now with
        ⟨b, w, -, hrec, -, -⟩ | ⟨e, he, -⟩
      · have ht := reconcile_truthful hrec
        exact ⟨w, by rw [hrec], by rw [hrec]; exact ⟨ht.changed, ht.held, ht.kept⟩⟩
      · cases he.symm.trans ha

/-- A binder factory over a policy that permits everything. -/
def permissive : Option BinderFactory := some (binderOver fun _ _ => .ok .permitted)

theorem answering_permissive : Answering permissive := by
  rintro make hmake principal
  obtain rfl := Option.some.inj hmake
  exact ⟨_, rfl, fun _ _ => ⟨_, rfl⟩⟩

theorem refetch_truthful_permissive :
    let c := (consumer plainPlatform).run (.init (py "node") DEFAULT_MAX_SKEW (1 / 2) 60) []
    let fetched : Except Str FetchResult := .ok { document := .null }
    let answer := c.refetch plainPlatform permissive fetched newYear
    (∃ v, answer.1 = .ok v ∧ Truthful c v answer.2) ↔
      ∀ result, fetched = .ok result → Trusted permissive c.participantId result →
        Answerable plainPlatform c.state result.document :=
  refetch_truthful_exactly_when plainPlatform (py "node") DEFAULT_MAX_SKEW (1 / 2) 60 [] permissive
    answering_permissive (.ok { document := .null }) newYear

/-- **A refetch does raise**: on a document whose timestamp is in the year before year `1`. -/
theorem refetch_raises : ¬ ∀ (P : Platform) (p : Str) (maxSkew : Option ℤ) (fraction interval : ℚ)
    (events : List Event) (factory : Option BinderFactory), Answering factory →
    ∀ (fetched : Except Str FetchResult) (now : ℤ),
      let c := (consumer P).run (.init p maxSkew fraction interval) events
      let answer := c.refetch P factory fetched now
      ∃ v, answer.1 = .ok v ∧ Truthful c v answer.2 := by
  intro hall
  let d : Json := beat (.int 0) "0001-01-01T00:00:00+01:00" "2026-01-01T00:00:30Z" []
  obtain ⟨v, hv, -⟩ := hall plainPlatform (py "node") DEFAULT_MAX_SKEW (1 / 2) 60 [] none
    (fun _ h => by cases h) (.ok { document := d }) newYear
  have herr : documentReason d = .error .overflowError := by decide +kernel
  rw [refetch_response] at hv
  rcases reconcile_cases plainPlatform (responded
      (init (py "node") DEFAULT_MAX_SKEW (1 / 2) 60) none newYear) none d newYear with
    ⟨a, w, ha, -, -, -⟩ | ⟨e, -, hrec⟩
  · cases (admit_of_error herr).symm.trans ha
  · have hraise : (.error (.core e) : Except Raised ConvergenceVerdict) = .ok v :=
      (congrArg Prod.fst hrec).symm.trans hv
    cases hraise

/-! ## Authority -/

/-- A call on a consumer whose factory builds binders over a policy. -/
inductive Delivery
  | onHint (hint : Option ChangeHint)
  | refetch (fetched : Except Str FetchResult) (now : ℤ)
  | poll (fetched : Except Str FetchResult) (now : ℤ)

/-- The call, under the answers the policy gives at it. -/
def Delivery.under (policy : PermittedParticipants) : Delivery → Event
  | .onHint hint => .onHint hint
  | .refetch fetched now => .refetch (some (binderOver policy)) fetched now
  | .poll fetched now => .poll (some (binderOver policy)) fetched now

/-- What the call fetches, if it is a refetch: by itself, or by a poll that owes one. -/
def Delivery.fetches (c : HeartbeatConsumer) : Delivery → Option (Except Str FetchResult)
  | .onHint _ => none
  | .refetch fetched _ => some fetched
  | .poll fetched now => if c.due now = .ok true then some fetched else none

/-- A refetch under a policy that changes the state. -/
theorem authority_of_refetch {p : Str} {policy : PermittedParticipants} (hs : Sound p c)
    (hne : (c.refetch P (some (binderOver policy)) fetched now).2.state ≠ c.state) :
    ∃ result q h, fetched = .ok result ∧ result.principal = some q ∧ q.isEmpty = false ∧
      policy q p = .ok .permitted ∧
      (c.refetch P (some (binderOver policy)) fetched now).2.state.held = some h ∧
      h.nodeId = some p := by
  obtain ⟨-, hsame | ⟨result, binding, h, hf, hb, hbound, -, hn, hh⟩⟩ :=
    refetch_effect P c (some (binderOver policy)) fetched now
  · exact absurd hsame hne
  · have htrust := (trusted_iff hb).mp (withheld_none.mpr hbound)
    obtain ⟨binder, q, hm, hq, he, hp⟩ := htrust _ rfl
    obtain rfl := Option.some.inj (Except.ok.inj hm)
    rw [hs.participant] at hp
    rw [hs.tracked] at hn
    exact ⟨result, q, h, hf, hq, he, hp, by rw [hh]; rfl, hn⟩

/-- **Authority comes from a principal.** On every run of a consumer of `p` whose factory builds
binders over a policy, a call that changes the state is a refetch whose response came with a
principal that is not empty and that the policy permits for `p`, and it leaves a lease of `p`. -/
theorem authority_from_principal (P : Platform) (p : Str) (maxSkew : Option ℤ)
    (fraction interval : ℚ) (calls : List (PermittedParticipants × Delivery))
    (policy : PermittedParticipants) (call : Delivery) :
    let c := (consumer P).run (.init p maxSkew fraction interval) (calls.map fun x => x.2.under x.1)
    let c' := (consumer P).next c (call.under policy)
    c'.state ≠ c.state → ∃ result q h, call.fetches c = some (.ok result) ∧
      result.principal = some q ∧ q.isEmpty = false ∧ policy q p = .ok .permitted ∧
      c'.state.held = some h ∧ h.nodeId = some p := by
  intro c c' hne
  have hs : Sound p c := sound_run P p maxSkew fraction interval _
  cases call with
  | onHint hint => exact absurd (onHint_effect P c hint).2 hne
  | refetch fetched now =>
    obtain ⟨result, q, h, hf, hrest⟩ := authority_of_refetch hs hne
    exact ⟨result, q, h, congrArg some hf, hrest⟩
  | poll fetched now =>
    have hc' : c' = (c.poll P (some (binderOver policy)) fetched now).2 := rfl
    rcases poll_effect P c (some (binderOver policy)) fetched now with ⟨hdue, hp⟩ | hp
    · rw [hc', hp] at hne ⊢
      obtain ⟨result, q, h, hf, hrest⟩ := authority_of_refetch hs hne
      exact ⟨result, q, h, by rw [Delivery.fetches, if_pos hdue, hf], hrest⟩
    · exact absurd (by rw [hc', hp]) hne

/-- A permitted principal serves a lease. -/
def granted : Delivery :=
  .refetch (.ok { document := beat (.int 0) "2026-01-01T00:00:00Z" "2026-01-01T00:00:30Z" []
                  principal := some { clientId := some (py "client") } }) newYear

theorem authority_from_principal_granted :
    let policy : PermittedParticipants := fun _ _ => .ok .permitted
    let c := (consumer plainPlatform).run (.init (py "node") DEFAULT_MAX_SKEW (1 / 2) 60) []
    let c' := (consumer plainPlatform).next c (granted.under policy)
    ∃ result q h, granted.fetches c = some (.ok result) ∧
      result.principal = some q ∧ q.isEmpty = false ∧ policy q (py "node") = .ok .permitted ∧
      c'.state.held = some h ∧ h.nodeId = some (py "node") :=
  authority_from_principal plainPlatform (py "node") DEFAULT_MAX_SKEW (1 / 2) 60 []
    (fun _ _ => .ok .permitted) granted (by decide +kernel)

end McpHeartbeat
