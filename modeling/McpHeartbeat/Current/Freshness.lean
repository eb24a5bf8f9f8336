import McpHeartbeat.Core.Clock
import McpHeartbeat.Current.Refetch

/-!
# Freshness and a step of the wall clock

* `HeartbeatConsumer.renewal`: the instant of the next refetch, without the range of `datetime`;
* `isFresh_eq_iff`, `due_eq_iff`: when two instants give one answer;
* **`wall_step_exactly_when`**: when a step of the wall clock decides nothing;
  `wall_step_decides`: it does not always.
-/

namespace McpHeartbeat

open Base

variable {P : Platform} {c : HeartbeatConsumer} {k k' : FakeClock} {t t' : ℤ}

namespace HeartbeatConsumer

/-- When the lease `held`, fetched at `fetchedAt`, is fetched again. -/
def renewal (c : HeartbeatConsumer) (held : Heartbeat) (fetchedAt : ℤ) : ℤ :=
  let window : ℚ := (held.expiresAt.instant - fetchedAt : ℤ) / (second : ℚ)
  fetchedAt + roundHalfEven (min (max window 0 * c.refetchFraction) c.maxRefetchInterval * second)

/-- No mark of the consumer lies between the two instants: the expiry of the held lease, and, where
no hint is pending, its renewal. -/
def Insulated (c : HeartbeatConsumer) (t t' : ℤ) : Prop :=
  ∀ held, c.held = some held → ¬ Crosses t t' held.expiresAt.instant ∧
    (c.refetchPending = false → ∀ fetchedAt, c.lastFetchAt = some fetchedAt →
      ¬ Crosses t t' (c.renewal held fetchedAt))

theorem isFresh_eq_iff : c.isFresh t' = c.isFresh t ↔
    ∀ held, c.held = some held → ¬ Crosses t t' held.expiresAt.instant := by
  unfold isFresh
  cases c.held with
  | none => simp
  | some held =>
    have hfresh : ∀ now, 0 < held.expiresAt.instant - now ↔ ¬ held.expiresAt.instant ≤ now := by
      intro now
      omega
    simp only [Option.any_some, Heartbeat.isFresh, Heartbeat.remaining, decide_eq_decide, hfresh,
      Option.some.injEq, forall_eq', not_crosses_iff, not_iff_not]
    exact Iff.comm

/-- Nothing is due but by the renewal. -/
theorem due_of_held {held : Heartbeat} {fetchedAt : ℤ} (hheld : c.held = some held)
    (hpending : c.refetchPending = false) (hfetch : c.lastFetchAt = some fetchedAt) (now : ℤ) :
    c.due now = match Datetime.ofInstant? (c.renewal held fetchedAt) with
      | some deadline => .ok (decide (deadline.instant ≤ now))
      | none => .error (.core .overflowError) := by
  have hdeadline : c.refetchDeadline =
      match Datetime.ofInstant? (c.renewal held fetchedAt) with
      | some deadline => .ok (some deadline.instant)
      | none => .error (.core .overflowError) := by
    unfold refetchDeadline
    rw [hheld, hfetch]
    rfl
  unfold due
  rw [hpending, hdeadline, hheld]
  cases Datetime.ofInstant? (c.renewal held fetchedAt) <;> rfl

theorem due_eq_iff : c.due k'.now = c.due k.now ↔ ∀ held, c.held = some held →
    c.refetchPending = false → ∀ fetchedAt, c.lastFetchAt = some fetchedAt →
      ¬ Crosses k.now k'.now (c.renewal held fetchedAt) := by
  by_cases howed : c.held = none ∨ c.refetchPending = true ∨ c.lastFetchAt = none
  · -- whatever the instant, a refetch is owed
    have hdue : ∀ now, c.due now = .ok true := by
      intro now
      unfold due refetchDeadline
      rcases howed with h | h | h
      · simp [h]
      · simp [h]
      · cases c.held <;> simp [h]
    refine iff_of_true ((hdue _).trans (hdue _).symm) fun held hheld hpending fetchedAt hfetch => ?_
    rcases howed with h | h | h
    · cases hheld.symm.trans h
    · cases hpending.symm.trans h
    · cases hfetch.symm.trans h
  · rw [not_or, not_or] at howed
    obtain ⟨hheld, hpending, hfetch⟩ := howed
    obtain ⟨held, hheld⟩ := Option.ne_none_iff_exists'.mp hheld
    obtain ⟨fetchedAt, hfetch⟩ := Option.ne_none_iff_exists'.mp hfetch
    have hpending : c.refetchPending = false := by simpa using hpending
    rw [due_of_held hheld hpending hfetch, due_of_held hheld hpending hfetch]
    simp only [hheld, hpending, hfetch, Option.some.injEq, forall_eq', forall_true_left]
    unfold Datetime.ofInstant?
    split_ifs with hrange
    · -- the renewal is a `datetime`, and is compared with the instant
      have hinstant : ((c.renewal held fetchedAt).toNat : ℤ) = c.renewal held fetchedAt :=
        Int.toNat_of_nonneg hrange.1
      simp only [Datetime.instant, hinstant, Except.ok.injEq, decide_eq_decide, not_crosses_iff]
      exact Iff.comm
    · exact iff_of_true rfl (not_crosses_of_out hrange)

end HeartbeatConsumer

/-- **When a step of the wall clock decides nothing.** On every consumer that is reached, the two
clocks, one monotonic reading between them, give one answer each exactly when the step passes no
mark of the consumer. -/
theorem wall_step_exactly_when (P : Platform) (p : Str) (maxSkew : Option ℤ)
    (fraction interval : ℚ) (events : List Event) {clock stepped : FakeClock} {step : ℤ}
    (hstep : clock.skewWall step = .ok stepped) :
    let c := (consumer P).run (.init p maxSkew fraction interval) events
    stepped.monotonic = clock.monotonic ∧
      (c.isFresh stepped.now = c.isFresh clock.now ∧ c.due stepped.now = c.due clock.now ↔
        c.Insulated clock.now (clock.now + step)) := by
  intro c
  obtain ⟨hmono, hnow⟩ := FakeClock.skewWall_ok hstep
  refine ⟨hmono, ?_⟩
  rw [HeartbeatConsumer.isFresh_eq_iff, HeartbeatConsumer.due_eq_iff, hnow]
  constructor
  · rintro ⟨hfresh, hdue⟩ held hheld
    exact ⟨hfresh held hheld, hdue held hheld⟩
  · intro h
    exact ⟨fun held hheld => (h held hheld).1, fun held hheld => (h held hheld).2⟩

/-- One refetch, of a lease of thirty seconds. -/
def leased : List Event :=
  [.refetch none (.ok { document := beat (.int 0) "2026-01-01T00:00:00Z" "2026-01-01T00:00:30Z" [] })
    newYear]

/-- The clock of the New Year, one hour ahead. -/
def anHourAhead : FakeClock where
  wall := ⟨newYear.toNat + 3600 * second, by decide⟩

theorem skewWall_anHourAhead :
    FakeClock.skewWall { wall := newYearMoment } (3600 * second) = .ok anHourAhead := by
  decide +kernel

theorem wall_step_exactly_when_ahead :
    let clock : FakeClock := { wall := newYearMoment }
    let c := (consumer plainPlatform).run (.init (py "node") DEFAULT_MAX_SKEW (1 / 2) 60) leased
    anHourAhead.monotonic = clock.monotonic ∧
      (c.isFresh anHourAhead.now = c.isFresh clock.now ∧
        c.due anHourAhead.now = c.due clock.now ↔
          c.Insulated clock.now (clock.now + 3600 * second)) :=
  wall_step_exactly_when plainPlatform (py "node") DEFAULT_MAX_SKEW (1 / 2) 60 leased
    skewWall_anHourAhead

/-- **A step of the wall clock does decide**: one hour ahead, a lease just fetched has expired. -/
theorem wall_step_decides : ¬ ∀ (P : Platform) (p : Str) (maxSkew : Option ℤ)
    (fraction interval : ℚ) (events : List Event) (clock stepped : FakeClock) (step : ℤ),
    clock.skewWall step = .ok stepped →
      let c := (consumer P).run (.init p maxSkew fraction interval) events
      c.isFresh stepped.now = c.isFresh clock.now ∧ c.due stepped.now = c.due clock.now := by
  intro hall
  have hsame := (hall plainPlatform (py "node") DEFAULT_MAX_SKEW (1 / 2) 60 leased
    { wall := newYearMoment } anHourAhead (3600 * second)
    skewWall_anHourAhead).1
  have hdiff : ((consumer plainPlatform).run
      (.init (py "node") DEFAULT_MAX_SKEW (1 / 2) 60) leased).isFresh newYear = true := by
    decide +kernel
  have hahead : ((consumer plainPlatform).run
      (.init (py "node") DEFAULT_MAX_SKEW (1 / 2) 60) leased).isFresh anHourAhead.now = false := by
    decide +kernel
  cases hahead.symm.trans (hsame.trans hdiff)

end McpHeartbeat
