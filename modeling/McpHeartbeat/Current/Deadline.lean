import McpHeartbeat.Current.Freshness

/-!
# The refetch deadline

* `roundHalfEven_error`, `roundHalfEven_mono`: rounding to the nearest microsecond;
* `renewal_bounds`: where the next refetch lies, between the last one and the expiry;
* `Fetched`: the invariant of a run, a held lease was fetched at some `datetime`;
* **`refetch_owed_before_loss`**: a refetch is owed before presence is lost.
-/

namespace McpHeartbeat

open Base

/-! ## Rounding -/

theorem roundHalfEven_error (q : ℚ) : |(roundHalfEven q : ℚ) - q| ≤ 1 / 2 := by
  have hlow := Int.floor_le q
  have hhigh := Int.lt_floor_add_one q
  unfold roundHalfEven
  split_ifs <;> push_cast <;> rw [abs_le] <;> constructor <;> linarith

@[simp] theorem roundHalfEven_intCast (n : ℤ) : roundHalfEven n = n := by
  simp [roundHalfEven]

theorem roundHalfEven_mono {q r : ℚ} (h : q ≤ r) : roundHalfEven q ≤ roundHalfEven r := by
  by_contra hlt
  have hnext : (roundHalfEven r : ℚ) + 1 ≤ roundHalfEven q := by
    exact_mod_cast Int.add_one_le_iff.mpr (not_le.mp hlt)
  have hq := (abs_le.mp (roundHalfEven_error q)).2
  have hr := (abs_le.mp (roundHalfEven_error r)).1
  -- both lie halfway between the two values, so they are one number
  have heq : q = r := by linarith
  exact hlt (by rw [heq])

theorem roundHalfEven_nonneg {q : ℚ} (h : 0 ≤ q) : 0 ≤ roundHalfEven q := by
  have hmono := roundHalfEven_mono h
  rwa [show (0 : ℚ) = ((0 : ℤ) : ℚ) by norm_num, roundHalfEven_intCast] at hmono

/-! ## Where the deadline lies -/

namespace HeartbeatConsumer

variable {c : HeartbeatConsumer} {held : Heartbeat} {last : ℤ}

/-- **The next refetch** is not before the last one, not later than the interval allows, and not
after the expiry; it is at once where the lease had expired already. -/
theorem renewal_bounds (hpos : 0 < c.refetchFraction) (hone : c.refetchFraction ≤ 1)
    (hinterval : 0 ≤ c.maxRefetchInterval) :
    last ≤ c.renewal held last ∧
      c.renewal held last ≤ last + roundHalfEven (c.maxRefetchInterval * second) ∧
      c.renewal held last ≤ max last held.expiresAt.instant := by
  have hsecond : (0 : ℚ) < second := by norm_num [second]
  set window : ℚ := (held.expiresAt.instant - last : ℤ) / (second : ℚ) with hwindow
  set interval : ℚ := min (max window 0 * c.refetchFraction) c.maxRefetchInterval with hdef
  have hrenewal : c.renewal held last = last + roundHalfEven (interval * second) := rfl
  have hnonneg : 0 ≤ interval :=
    le_min (mul_nonneg (le_max_right _ _) hpos.le) hinterval
  have hscaled : interval * second ≤ (max (held.expiresAt.instant - last) 0 : ℤ) := by
    have hfraction : interval ≤ max window 0 :=
      (min_le_left _ _).trans (mul_le_of_le_one_right (le_max_right _ _) hone)
    calc interval * second ≤ max window 0 * second :=
          mul_le_mul_of_nonneg_right hfraction hsecond.le
      _ = max (window * second) 0 := by rw [max_mul_of_nonneg _ _ hsecond.le, zero_mul]
      _ = (max (held.expiresAt.instant - last) 0 : ℤ) := by
          rw [hwindow, div_mul_cancel₀ _ hsecond.ne']
          push_cast
          rfl
  refine ⟨?_, ?_, ?_⟩
  · have := roundHalfEven_nonneg (mul_nonneg hnonneg hsecond.le)
    omega
  · have hmono := roundHalfEven_mono
      (mul_le_mul_of_nonneg_right (min_le_right _ _ : interval ≤ c.maxRefetchInterval) hsecond.le)
    rw [hrenewal]
    exact add_le_add_right hmono last
  · have hmono := roundHalfEven_mono hscaled
    rw [roundHalfEven_intCast] at hmono
    omega

/-- The deadline of a lease that was fetched. -/
theorem refetchDeadline_of_held (hheld : c.held = some held) (hlast : c.lastFetchAt = some last) :
    c.refetchDeadline = match Datetime.ofInstant? (c.renewal held last) with
      | some deadline => .ok (some deadline.instant)
      | none => .error (.core .overflowError) := by
  unfold refetchDeadline
  rw [hheld, hlast]
  rfl

/-- The deadline of a lease fetched at a `datetime` is a `datetime`. -/
theorem refetchDeadline_eq_renewal (hpos : 0 < c.refetchFraction) (hone : c.refetchFraction ≤ 1)
    (hinterval : 0 ≤ c.maxRefetchInterval) (hheld : c.held = some held)
    (hlast : c.lastFetchAt = some last) (hrange : 0 ≤ last ∧ last < maxMicros) :
    c.refetchDeadline = .ok (some (c.renewal held last)) := by
  obtain ⟨hlow, -, hhigh⟩ := @renewal_bounds c held last hpos hone hinterval
  have hexpires : held.expiresAt.instant < maxMicros := Int.ofNat_lt.mpr held.expiresAt.lt
  have hin : 0 ≤ c.renewal held last ∧ c.renewal held last < maxMicros := by omega
  rw [refetchDeadline_of_held hheld hlast, Datetime.ofInstant?, dif_pos hin]
  show Except.ok (some ((c.renewal held last).toNat : ℤ)) = _
  rw [Int.toNat_of_nonneg hin.1]

/-- A lease that is not fresh is fetched again. -/
theorem due_of_not_fresh (hpos : 0 < c.refetchFraction) (hone : c.refetchFraction ≤ 1)
    (hinterval : 0 ≤ c.maxRefetchInterval) (hheld : c.held = some held)
    (hlast : c.lastFetchAt = some last) (hrange : 0 ≤ last ∧ last < maxMicros) {t : ℤ}
    (ht : last ≤ t) (hstale : c.isFresh t = false) : c.due t = .ok true := by
  have hexpired : held.expiresAt.instant ≤ t := by
    simpa [isFresh, hheld, Heartbeat.isFresh, Heartbeat.remaining] using hstale
  have hbound := (@renewal_bounds c held last hpos hone hinterval).2.2
  have hdeadline := refetchDeadline_eq_renewal hpos hone hinterval hheld hlast hrange
  unfold due
  rw [hdeadline]
  split_ifs
  · rfl
  · exact congrArg Except.ok (decide_eq_true (by omega))

end HeartbeatConsumer

/-! ## Runs -/

variable {P : Platform}

/-- The instant at which a call was made, if it reads the clock. -/
def Event.now? : Event → Option ℤ
  | .onHint _ => none
  | .refetch _ _ now => some now
  | .poll _ _ now => some now

/-- The call was made at a `datetime`. -/
def Event.Dated (event : Event) : Prop :=
  ∀ now, event.now? = some now → ∃ d : Datetime, d.instant = now

/-- A held lease was fetched, and the last fetch was at a `datetime`. -/
structure Fetched (c : HeartbeatConsumer) : Prop where
  fetched : c.held.isSome → c.lastFetchAt.isSome
  dated : ∀ last, c.lastFetchAt = some last → 0 ≤ last ∧ last < maxMicros

theorem onHint_lastFetchAt (c : HeartbeatConsumer) (hint : Option ChangeHint) :
    (c.onHint P hint).2.lastFetchAt = c.lastFetchAt := by
  unfold HeartbeatConsumer.onHint
  dsimp only
  split
  · rfl
  · rfl
  · split_ifs <;> rfl

/-- A response moves the last fetch, whatever becomes of it; a failed fetch moves nothing. -/
theorem refetch_lastFetchAt (c : HeartbeatConsumer) (factory : Option BinderFactory)
    (fetched : Except Str FetchResult) (now : ℤ) :
    (c.refetch P factory fetched now).2.lastFetchAt = some now ∨
      (c.refetch P factory fetched now).2.lastFetchAt = c.lastFetchAt ∧
        (c.refetch P factory fetched now).2.state = c.state := by
  rcases refetch_writes P c factory fetched now with hwrites | ⟨binding, state, hwrites⟩
  · rw [hwrites]
    exact .inr ⟨rfl, rfl⟩
  · rw [hwrites]
    exact .inl rfl

theorem Fetched.refetch {c : HeartbeatConsumer} (h : Fetched c) (factory : Option BinderFactory)
    (fetched : Except Str FetchResult) {now : ℤ} (hnow : ∃ d : Datetime, d.instant = now) :
    Fetched (c.refetch P factory fetched now).2 := by
  rcases @refetch_lastFetchAt P c factory fetched now with hlast | ⟨hlast, hstate⟩
  · constructor
    · intro _
      rw [hlast]
      rfl
    · intro last hl
      obtain rfl := Option.some.inj (hlast.symm.trans hl)
      obtain ⟨d, rfl⟩ := hnow
      exact ⟨Int.natCast_nonneg _, Int.ofNat_lt.mpr d.lt⟩
  · constructor
    · rw [hlast, HeartbeatConsumer.held, hstate]
      exact h.fetched
    · rw [hlast]
      exact h.dated

theorem Fetched.step {c : HeartbeatConsumer} (h : Fetched c) {event : Event}
    (hdated : event.Dated) : Fetched (c.step P event).2 := by
  cases event with
  | onHint hint =>
    have hlast : (c.step P (.onHint hint)).2.lastFetchAt = c.lastFetchAt := onHint_lastFetchAt c hint
    have hstate : (c.step P (.onHint hint)).2.state = c.state := (onHint_effect P c hint).2
    constructor
    · rw [hlast, HeartbeatConsumer.held, hstate]
      exact h.fetched
    · rw [hlast]
      exact h.dated
  | refetch factory fetched now => exact h.refetch factory fetched (hdated now rfl)
  | poll factory fetched now =>
    show Fetched (c.poll P factory fetched now).2
    rcases poll_effect P c factory fetched now with ⟨-, hc⟩ | hc <;> rw [hc]
    · exact h.refetch factory fetched (hdated now rfl)
    · exact h

/-- **Every lease that is held was fetched.** -/
theorem fetched_run (P : Platform) (p : Str) (maxSkew : Option ℤ) (fraction interval : ℚ)
    (events : List Event) (hdated : ∀ event ∈ events, event.Dated) :
    Fetched ((consumer P).run (.init p maxSkew fraction interval) events) := by
  have hstep : ∀ c (_ : List ConvergenceVerdict) event, event.Dated → Fetched c →
      Fetched ((consumer P).next c event) := fun c _ event he hc => hc.step he
  refine (consumer P).invariant hstep events _ [] hdated ⟨?_, ?_⟩
  · intro hheld
    simp [HeartbeatConsumer.init, HeartbeatConsumer.held] at hheld
  · intro last hlast
    simp [HeartbeatConsumer.init] at hlast

/-- **A refetch is owed before presence is lost**, after any calls at any instants. -/
theorem refetch_owed_before_loss (P : Platform) (p : Str) (maxSkew : Option ℤ)
    (fraction interval : ℚ) (hpos : 0 < fraction) (hone : fraction ≤ 1) (hinterval : 0 ≤ interval)
    (events : List Event) (hdated : ∀ event ∈ events, event.Dated) :
    let c := (consumer P).run (.init p maxSkew fraction interval) events
    (∀ held, c.held = some held → ∃ last deadline, c.lastFetchAt = some last ∧
      c.refetchDeadline = .ok (some deadline) ∧ last ≤ deadline ∧
      deadline ≤ last + roundHalfEven (interval * second) ∧
      (last ≤ held.expiresAt.instant → deadline ≤ held.expiresAt.instant)) ∧
    ∀ t, (∀ last, c.lastFetchAt = some last → last ≤ t) → c.isFresh t = false →
      c.due t = .ok true := by
  intro c
  have hfetched : Fetched c := fetched_run P p maxSkew fraction interval events hdated
  have hsettings := settings_run P (.init p maxSkew fraction interval) events
  have hfraction : c.refetchFraction = fraction := congrArg (fun s => s.2.2.1) hsettings
  have hmax : c.maxRefetchInterval = interval := congrArg (fun s => s.2.2.2) hsettings
  rw [← hfraction] at hpos hone
  rw [← hmax] at hinterval ⊢
  have hlast : ∀ held, c.held = some held → ∃ last, c.lastFetchAt = some last := fun held hheld =>
    Option.isSome_iff_exists.mp (hfetched.fetched (by rw [hheld]; rfl))
  constructor
  · intro held hheld
    obtain ⟨last, hl⟩ := hlast held hheld
    obtain ⟨hlow, hhigh, hexpiry⟩ :=
      @HeartbeatConsumer.renewal_bounds c held last hpos hone hinterval
    exact ⟨last, c.renewal held last, hl,
      HeartbeatConsumer.refetchDeadline_eq_renewal hpos hone hinterval hheld hl
        (hfetched.dated last hl), hlow, hhigh, fun h => hexpiry.trans (max_le h le_rfl)⟩
  · intro t ht hstale
    cases hheld : c.held with
    | none =>
      unfold HeartbeatConsumer.due
      simp [hheld]
    | some held =>
      obtain ⟨last, hl⟩ := hlast held hheld
      exact HeartbeatConsumer.due_of_not_fresh hpos hone hinterval hheld hl (hfetched.dated last hl)
        (ht last hl) hstale

theorem refetch_owed_before_loss_leased :
    let c := (consumer plainPlatform).run (.init (py "node") DEFAULT_MAX_SKEW (1 / 2) 60) leased
    (∀ held, c.held = some held → ∃ last deadline, c.lastFetchAt = some last ∧
      c.refetchDeadline = .ok (some deadline) ∧ last ≤ deadline ∧
      deadline ≤ last + roundHalfEven (60 * second) ∧
      (last ≤ held.expiresAt.instant → deadline ≤ held.expiresAt.instant)) ∧
    ∀ t, (∀ last, c.lastFetchAt = some last → last ≤ t) → c.isFresh t = false →
      c.due t = .ok true :=
  refetch_owed_before_loss plainPlatform (py "node") DEFAULT_MAX_SKEW (1 / 2) 60 (by norm_num)
    (by norm_num) (by norm_num) leased (by
      intro event hevent now hnow
      simp only [leased, List.mem_singleton] at hevent
      subst hevent
      exact ⟨newYearMoment, Option.some.inj hnow⟩)

end McpHeartbeat
