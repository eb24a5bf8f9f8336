import McpHeartbeat.Eras.Authority

/-!
# What a hint decides

* `unhinted`: what hints leave alone of a consumer of the current era; `onHint_unhinted`,
  `refetch_unhinted`; `hinted`: hints and refetches, and what each refetch is seen to do;
* `verdict`: what a fetch of the legacy era decides; `refetch_verdict`: what a hint can change of it;
* **`hint_inert_exactly_when`**: a hint decides nothing in the current era, and in the legacy era
  unless the document is new and cannot be digested; `hint_decides`: there it does.
-/

namespace McpHeartbeat

open Base Legacy

variable (P : Platform)

/-! ## The current era -/

/-- One call of `refetch`, with what the collaborators answer. -/
structure Fetch where
  factory : Option BinderFactory
  fetched : Except Str FetchResult
  now : ℤ

/-- What one refetch is seen to do: its verdict, and the state, the binding and the deadline it
leaves. -/
structure Sight where
  answer : Except Raised ConvergenceVerdict
  state : LineageState
  lastBinding : Option ResponseBinding
  refetchDeadline : Except Raised (Option ℤ)

/-- What a consumer shows of a refetch. -/
def HeartbeatConsumer.sight (c : HeartbeatConsumer) (fetch : Fetch) : Sight :=
  let after := c.refetch P fetch.factory fetch.fetched fetch.now
  { answer := after.1, state := after.2.state, lastBinding := after.2.lastBinding,
    refetchDeadline := after.2.refetchDeadline }

/-- Hints and refetches, in any order; the journal is what the refetches are seen to do. -/
def hinted : Machine HeartbeatConsumer (Option ChangeHint ⊕ Fetch) Sight where
  next c
    | .inl hint => (c.onHint P hint).2
    | .inr fetch => (c.refetch P fetch.factory fetch.fetched fetch.now).2
  entry c
    | .inl _ => none
    | .inr fetch => some (c.sight P fetch)

/-- The consumer without what its hints leave. -/
def HeartbeatConsumer.unhinted (c : HeartbeatConsumer) : HeartbeatConsumer :=
  { c with refetchPending := false, hintsSeen := 0, hintsCoalesced := 0 }

variable {P} {c c' : HeartbeatConsumer}

theorem onHint_unhinted (c : HeartbeatConsumer) (hint : Option ChangeHint) :
    (c.onHint P hint).2.unhinted = c.unhinted := by
  unfold HeartbeatConsumer.onHint
  dsimp only
  split
  · rfl
  · rfl
  · split_ifs <;> rfl

theorem reconcile_unhinted (c : HeartbeatConsumer) (binding : Option ResponseBinding) (d : Json)
    (now : ℤ) : (c.unhinted.reconcile P binding d now).1 = (c.reconcile P binding d now).1 ∧
      (c.unhinted.reconcile P binding d now).2.unhinted =
        (c.reconcile P binding d now).2.unhinted := by
  unfold HeartbeatConsumer.reconcile
  have hjudged : admitDocument P c.unhinted.state d now c.unhinted.maxSkew =
      admitDocument P c.state d now c.maxSkew := rfl
  rw [hjudged]
  cases admitDocument P c.state d now c.maxSkew with
  | error e => cases e <;> exact ⟨rfl, rfl⟩
  | ok a =>
    obtain ⟨state, reason, duplicate⟩ := a
    cases duplicate <;> cases reason <;> exact ⟨rfl, rfl⟩

/-- A refetch reads nothing that hints leave. -/
theorem refetch_unhinted (c : HeartbeatConsumer) (fetch : Fetch) :
    (c.unhinted.refetch P fetch.factory fetch.fetched fetch.now).1 =
        (c.refetch P fetch.factory fetch.fetched fetch.now).1 ∧
      (c.unhinted.refetch P fetch.factory fetch.fetched fetch.now).2.unhinted =
        (c.refetch P fetch.factory fetch.fetched fetch.now).2.unhinted := by
  obtain ⟨factory, fetched, now⟩ := fetch
  dsimp only
  cases fetched with
  | error name => exact ⟨rfl, rfl⟩
  | ok result =>
    rw [refetch_response, refetch_response]
    have hbind : c.unhinted.bind factory result = c.bind factory result := rfl
    rw [hbind]
    cases c.bind factory result with
    | error e => exact ⟨rfl, rfl⟩
    | ok binding =>
      have hwithheld : c.unhinted.withheld binding = c.withheld binding := rfl
      dsimp only
      rw [hwithheld]
      cases c.withheld binding with
      | some v => exact ⟨rfl, rfl⟩
      | none => exact reconcile_unhinted (c.responded binding now) binding result.document now

/-- A refetch shows nothing that hints leave. -/
theorem sight_unhinted (c : HeartbeatConsumer) (fetch : Fetch) :
    c.unhinted.sight P fetch = c.sight P fetch := by
  obtain ⟨hanswer, hafter⟩ := refetch_unhinted (P := P) c fetch
  have hstate := congrArg HeartbeatConsumer.state hafter
  have hbinding := congrArg HeartbeatConsumer.lastBinding hafter
  have hdeadline := congrArg HeartbeatConsumer.refetchDeadline hafter
  change HeartbeatConsumer.state (HeartbeatConsumer.refetch P c.unhinted _ _ _).2 = _ at hstate
  change HeartbeatConsumer.lastBinding (HeartbeatConsumer.refetch P c.unhinted _ _ _).2 = _
    at hbinding
  change HeartbeatConsumer.refetchDeadline (HeartbeatConsumer.refetch P c.unhinted _ _ _).2 = _
    at hdeadline
  unfold HeartbeatConsumer.sight
  dsimp only
  rw [hanswer, hstate, hbinding, hdeadline]
  rfl

/-- **Hints do not interfere.** -/
theorem hinted_noninterference (h : c.unhinted = c'.unhinted)
    {calls calls' : List (Option ChangeHint ⊕ Fetch)}
    (hsame : calls.filter Sum.isRight = calls'.filter Sum.isRight) :
    (hinted P).journal c calls = (hinted P).journal c' calls' := by
  apply (hinted P).noninterference _ _ h hsame
  · intro s call hcall
    cases call with
    | inl hint => exact ⟨onHint_unhinted s hint, rfl⟩
    | inr fetch => cases hcall
  · intro s s' call hcall hview
    cases call with
    | inl hint => cases hcall
    | inr fetch =>
      constructor
      · show (HeartbeatConsumer.refetch P s _ _ _).2.unhinted =
          (HeartbeatConsumer.refetch P s' _ _ _).2.unhinted
        rw [← (refetch_unhinted s fetch).2, hview, (refetch_unhinted s' fetch).2]
      · show some (s.sight P fetch) = some (s'.sight P fetch)
        rw [← sight_unhinted s, hview, sight_unhinted]

/-! ## The legacy era -/

variable {repr : Json → Str} {consumer : LegacyHeartbeatConsumer} {state : LineageState}
  {d : Json} {now : ℤ} {a : Admission} {maxSkew : Option ℤ}

/-- What a fetch decides: what it raises, or its outcome without what is said of the hint, and the
state it leaves. -/
def Legacy.LegacyHeartbeatConsumer.verdict (P : Platform) (repr : Json → Str)
    (consumer : LegacyHeartbeatConsumer) (d : Json) (now : ℤ) (hint : Option LegacyHint) :
    Except FetchError (Admission × IdentityBindingEvidence × EraReport × Option LegacyRefusal) ×
      LineageState :=
  let after := consumer.refetch P repr (.ok d) now hint
  (after.1.map fun o => (o.admission, o.identity, o.era, o.refused), after.2.state)

/-- The document is new to a consumer that takes it, and its extensions cannot be encoded. -/
structure Undigested (repr : Json → Str) (consumer : LegacyHeartbeatConsumer) (d : Json) (now : ℤ) :
    Prop where
  ready : consumer.session.heartbeatReady = true
  welcome : ∃ h, Reads d h ∧ h.nodeId = some consumer.state.participantId ∧
    consumer.state.Admits h ∧ checkFreshness h now DEFAULT_MAX_SKEW = none ∧
      ¬ (Json.obj h.extensions).WellFormed
  identity : ∃ e, consumer.evidence (consumer.claimed repr d)
    (LegacyHeartbeatConsumer.claimedEpoch repr d) = .ok e ∧ e.binding ≠ .unbound

/-- A document that is admitted as a duplicate: its digest, and that of the held one, were taken. -/
theorem duplicate_digest (ha : admitDocument P state d now maxSkew = .ok a)
    (hdup : a.duplicate = true) : a.state = state ∧
      ∃ g x, state.held = some g ∧ g.digest P = .ok x := by
  obtain ⟨g, -, x, y, -, -, hg, -, -, -, hy, rfl⟩ := admit_repeated ha (Or.inl hdup)
  refine ⟨?_, g, y, hg, hy⟩
  split_ifs <;> rfl

/-- A hint can be compared with what is held, unless that is new and has no digest. -/
theorem corroborate_error {hint : Option LegacyHint} {e : FetchError}
    (ha : admitDocument P consumer.state d now DEFAULT_MAX_SKEW = .ok a)
    (he : consumer.corroborate P a hint = .error e) :
    ∃ h, Reads d h ∧ h.nodeId = some consumer.state.participantId ∧ consumer.state.Admits h ∧
      checkFreshness h now DEFAULT_MAX_SKEW = none ∧ ¬ (Json.obj h.extensions).WellFormed := by
  unfold LegacyHeartbeatConsumer.corroborate at he
  split_ifs at he with htaken
  cases hheld : a.state.held with
  | none => rw [hheld] at he; cases hint <;> cases he
  | some g =>
    rw [hheld] at he
    cases hint with
    | none => cases he
    | some hint =>
      dsimp only at he
      split_ifs at he
      cases hx : g.digest P with
      | ok x => rw [hx] at he; cases he
      | error e' =>
        rcases admit_ok ha with ⟨h, hr, rfl, hn, hadm, hf⟩ | ⟨hacc, -⟩
        · obtain rfl := Option.some.inj hheld
          refine ⟨h, hr, hn, hadm, hf, ?_⟩
          rw [← encodable_iff (P := P) hr]
          intro henc
          obtain ⟨raw, -, hdigest⟩ := digest_of_encodable henc
          cases hdigest.symm.trans hx
        · rw [hacc, Bool.false_or] at htaken
          obtain ⟨hsame, g', x, hg', hx'⟩ := duplicate_digest ha htaken
          rw [hsame, hg'] at hheld
          obtain rfl := Option.some.inj hheld
          cases hx'.symm.trans hx

/-- **A hint decides nothing**, where the document can be digested or is not taken. -/
theorem verdict_hint (h : ¬ Undigested repr consumer d now) (hint : Option LegacyHint) :
    consumer.verdict P repr d now hint = consumer.verdict P repr d now none := by
  unfold LegacyHeartbeatConsumer.verdict
  by_cases hready : consumer.session.heartbeatReady = true
  · cases ha : admitDocument P consumer.state d now DEFAULT_MAX_SKEW with
    | error e => simp only [LegacyHeartbeatConsumer.refetch, hready, ha]
    | ok a =>
      cases he : consumer.evidence (consumer.claimed repr d)
          (LegacyHeartbeatConsumer.claimedEpoch repr d) with
      | error e => simp only [LegacyHeartbeatConsumer.refetch, hready, ha, he]
      | ok e =>
        rw [LegacyHeartbeatConsumer.refetch_ready hready ha he,
          LegacyHeartbeatConsumer.refetch_ready hready ha he]
        by_cases hunbound : e.binding = .unbound
        · rw [if_pos hunbound, if_pos hunbound]
        · rw [if_neg hunbound, if_neg hunbound, LegacyHeartbeatConsumer.corroborate_none]
          cases hc : consumer.corroborate P a hint with
          | error e' => exact absurd ⟨hready, corroborate_error ha hc, e, he, hunbound⟩ h
          | ok answer => rfl
  · rw [LegacyHeartbeatConsumer.refetch, LegacyHeartbeatConsumer.refetch,
      Bool.eq_false_iff.mpr hready]
    rfl

/-- **A hint decides everything**, where the document is taken and cannot be digested. -/
theorem Undigested.verdict_ne (P : Platform) (h : Undigested repr consumer d now)
    (hint : LegacyHint) (hmeta : hint.carriesRevisionMetadata = true) :
    consumer.verdict P repr d now (some hint) ≠ consumer.verdict P repr d now none := by
  obtain ⟨g, hr, hn, hadm, hf, hw⟩ := h.welcome
  obtain ⟨e, he, hunbound⟩ := h.identity
  have hx : g.digest P = .error .unicodeEncodeError :=
    digest_of_not_encodable (by rwa [encodable_iff hr])
  have ha : admitDocument P consumer.state d now DEFAULT_MAX_SKEW =
      .ok { state := consumer.state.hold g } := by
    rw [admit_of_reads hr]
    exact ((judge_timely hn hf).resolve_right fun hno => hno.1 hadm).2
  have hc : consumer.corroborate P { state := consumer.state.hold g } (some hint) =
      .error (.core .unicodeEncodeError) := by
    have htaken : Admission.accepted { state := consumer.state.hold g } = true := rfl
    simp only [LegacyHeartbeatConsumer.corroborate, htaken, Bool.true_or, if_true,
      LineageState.hold_held, hmeta, hx]
  intro hsame
  have hstate := congrArg Prod.snd hsame
  unfold LegacyHeartbeatConsumer.verdict at hstate
  rw [LegacyHeartbeatConsumer.refetch_ready h.ready ha he,
    LegacyHeartbeatConsumer.refetch_ready h.ready ha he, if_neg hunbound, if_neg hunbound, hc,
    LegacyHeartbeatConsumer.corroborate_none] at hstate
  exact hold_ne hadm hstate.symm

/-- **Exactly when a hint decides nothing.** In the current era: always. In the legacy era: unless
the document is taken, and cannot be digested. -/
theorem hint_inert_exactly_when (P : Platform) (repr : Json → Str) :
    (∀ (c : HeartbeatConsumer) (calls calls' : List (Option ChangeHint ⊕ Fetch)),
      calls.filter Sum.isRight = calls'.filter Sum.isRight →
        (hinted P).journal c calls = (hinted P).journal c calls') ∧
    ∀ (consumer : LegacyHeartbeatConsumer) (d : Json) (now : ℤ),
      (∀ a b, consumer.verdict P repr d now a = consumer.verdict P repr d now b) ↔
        ¬ Undigested repr consumer d now := by
  constructor
  · intro c calls calls' hsame
    exact hinted_noninterference rfl hsame
  · intro consumer d now
    constructor
    · intro hall hun
      exact hun.verdict_ne P ⟨[], [], some [], some [], false⟩ rfl (hall _ _)
    · intro hno a b
      rw [verdict_hint hno a, verdict_hint hno b]

/-- A hint that carries revision metadata. -/
def forgedHint : LegacyHint where
  address := py "heartbeat://node"
  method := py "notifications/resources/updated"
  revision := some []
  digest := some []

theorem hint_inert_exactly_when_lease :
    let fetch : Fetch := ⟨none, .ok { document := lease }, newYear⟩
    (hinted plainPlatform).journal currentConsumer [.inl none, .inr fetch, .inl none] =
        (hinted plainPlatform).journal currentConsumer [.inr fetch] ∧
      ((∀ a b, (legacyConsumer (some (py "gateway"))).verdict plainPlatform (fun _ => []) lease
          newYear a =
        (legacyConsumer (some (py "gateway"))).verdict plainPlatform (fun _ => []) lease newYear b) ↔
        ¬ Undigested (fun _ => []) (legacyConsumer (some (py "gateway"))) lease newYear) :=
  ⟨(hint_inert_exactly_when plainPlatform fun _ => []).1 _ _ _ rfl,
    (hint_inert_exactly_when plainPlatform fun _ => []).2 _ _ _⟩

/-- A lease whose extensions hold a lone surrogate. -/
def strayLease : Json :=
  beat (.int 0) "2026-01-01T00:00:00Z" "2026-01-01T00:00:30Z"
    [(py "org.example/note", .str [.surrogate 0])]

theorem undigested_stray :
    Undigested (fun _ => []) (legacyConsumer (some (py "gateway"))) strayLease newYear := by
  have hread : (reading strayLease).any (fun h => decide (h.nodeId = some (py "node") ∧
      checkFreshness h newYear DEFAULT_MAX_SKEW = none ∧ ¬ (Json.obj h.extensions).WellFormed)) =
        true := by
    decide +kernel
  cases hr : reading strayLease with
  | none => rw [hr] at hread; cases hread
  | some h =>
    rw [hr] at hread
    obtain ⟨hn, hf, hw⟩ := of_decide_eq_true hread
    have hopen : LineageState.Admits { participantId := py "node" } h :=
      (LineageState.admits_of_open (by simp)).mpr (Finset.notMem_empty _)
    have hready : readyClient.heartbeatReady = true := by decide
    have hunbound : ((legacyConsumer (some (py "gateway"))).evidence
        ((legacyConsumer (some (py "gateway"))).claimed (fun _ => []) strayLease)
        (LegacyHeartbeatConsumer.claimedEpoch (fun _ => []) strayLease)).toOption.any
          (fun e => decide (e.binding ≠ .unbound)) = true := by
      decide +kernel
    refine ⟨hready, ⟨h, reading_eq_some.mp hr, hn, hopen, hf, hw⟩, ?_⟩
    cases he : (legacyConsumer (some (py "gateway"))).evidence
        ((legacyConsumer (some (py "gateway"))).claimed (fun _ => []) strayLease)
        (LegacyHeartbeatConsumer.claimedEpoch (fun _ => []) strayLease) with
    | error e => rw [he] at hunbound; cases hunbound
    | ok e =>
      rw [he] at hunbound
      exact ⟨e, rfl, of_decide_eq_true hunbound⟩

/-- **A forged hint can decide**: the lease is held without it, and refused with it. -/
theorem hint_decides : ¬ ∀ (P : Platform) (repr : Json → Str) (consumer : LegacyHeartbeatConsumer)
    (d : Json) (now : ℤ) (a b : Option LegacyHint),
      consumer.verdict P repr d now a = consumer.verdict P repr d now b := by
  intro hall
  exact undigested_stray.verdict_ne plainPlatform forgedHint rfl (hall _ _ _ _ _ _ _)

end McpHeartbeat
