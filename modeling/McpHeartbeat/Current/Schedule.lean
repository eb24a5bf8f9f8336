import Mathlib.Data.List.TakeWhile
import McpHeartbeat.Core.Issuer
import McpHeartbeat.Current.Refetch

/-!
# A consumer beside a publisher

One participant publishes what it mints, and one consumer of it is polled, on the same clock. The
source serves a heartbeat from its issue until the next one.

* `issued`, `served`; `Visit`: a poll, or a hint between polls; `visited`: the consumer after them;
* `Follows`: the invariant of a run, against the publications issued so far; `follows_visited`;
* `Follows.admits`: what is served is held already, or the register admits it;
* `Converged`, **`converges_exactly_when`**: when a refetch leaves what is served;
  `refused_within_lease`: a lease that is older than the skew bound is refused.
-/

namespace McpHeartbeat

open Base LineageState

variable (P : Platform)

/-- The publications issued by `now`. -/
def issued (publications : List Heartbeat) (now : ℤ) : List Heartbeat :=
  publications.takeWhile fun g => g.issuedAt.instant ≤ now

/-- What the source serves at `now`. -/
def served (publications : List Heartbeat) (now : ℤ) : Option Heartbeat :=
  (issued publications now).getLast?

/-- A hint, or a poll; a fetch raises the named exception, or comes with a principal. -/
inductive Visit
  | hint (change : Option ChangeHint)
  | poll (now : ℤ) (response : Except Str (Option Principal))

/-- What the source answers at `now`. -/
def fetch (publications : List Heartbeat) (now : ℤ) :
    Except Str (Option Principal) → Except Str FetchResult
  | .error name => .error name
  | .ok principal =>
    match served publications now with
    | none => .error (py "Unreachable")
    | some g => .ok { document := g.toDict P, principal }

/-- The call on a consumer without a binder. -/
def Visit.event (publications : List Heartbeat) : Visit → Event
  | .hint change => .onHint change
  | .poll now response => .poll none (fetch P publications now response) now

/-- The instant of a poll. -/
def Visit.instant? : Visit → Option ℤ
  | .hint _ => none
  | .poll now _ => some now

/-- The consumer of `p` with the default parameters, after the visits. -/
def visited (p : Str) (publications : List Heartbeat) (visits : List Visit) : HeartbeatConsumer :=
  (consumer P).run (.init p DEFAULT_MAX_SKEW (1 / 2) 60) (visits.map (Visit.event P publications))

/-- What is held is read from a publication issued by `t`, and no later epoch is retired. -/
inductive Follows (publications : List Heartbeat) (t : ℤ) (state : LineageState) : Prop
  | start : state.held = none → state.retiredEpochs = ∅ → Follows publications t state
  | holds (past : List Heartbeat) (g h : Heartbeat) : past ++ [g] <+: issued publications t →
      Reads (g.toDict P) h → state.held = some h →
      (∀ e ∈ state.retiredEpochs, ∃ y ∈ past ++ [g], y.bootId = e) → Follows publications t state

variable {P} {p : Str} {publications : List Heartbeat} {state : LineageState} {t now : ℤ}
  {g h : Heartbeat}

/-! ## What is served -/

theorem issued_mono (ht : t ≤ now) : issued publications t <+: issued publications now := by
  have hcut : issued publications t =
      (issued publications now).takeWhile fun g => g.issuedAt.instant ≤ t := by
    rw [issued, issued, List.takeWhile_takeWhile]
    congr 1
    funext y
    simp only [decide_eq_true_eq, decide_eq_decide]
    exact ⟨fun hy => ⟨hy, hy.trans ht⟩, And.left⟩
  rw [hcut]
  exact List.takeWhile_prefix _

theorem issued_publications (publications : List Heartbeat) (now : ℤ) :
    issued publications now <+: publications :=
  List.takeWhile_prefix _

theorem mem_of_served (hg : served publications now = some g) : g ∈ publications :=
  (issued_publications _ _).subset (List.mem_of_getLast? hg)

/-- The document of a heartbeat reads as one of its participant, epoch and sequence. -/
theorem Reads.of_toDict (hr : Reads (g.toDict P) h) :
    h.nodeId = g.nodeId ∧ h.bootId = g.bootId ∧ h.sequence = g.sequence := by
  obtain ⟨m, hm, hc⟩ := reads_iff.mp hr
  obtain rfl : g.members P = m := Json.obj.inj hm
  have hnode : some (Json.ofStr? g.nodeId) = some (Json.ofStr? h.nodeId) := hc.node
  have hboot : some (Json.ofStr? g.bootId) = some (Json.ofStr? h.bootId) := hc.boot
  have hseq : some (Json.ofInt? g.sequence) = some (Json.ofInt? h.sequence) := hc.seq
  exact ⟨(Json.ofStr?_injective (Option.some.inj hnode)).symm,
    (Json.ofStr?_injective (Option.some.inj hboot)).symm,
    (Json.ofInt?_injective (Option.some.inj hseq)).symm⟩

/-! ## The invariant -/

theorem Follows.mono (hf : Follows P publications t state) (ht : t ≤ now) :
    Follows P publications now state := by
  cases hf with
  | start hheld hret => exact .start hheld hret
  | holds past g h hpast hr hheld hret =>
    exact .holds past g h (hpast.trans (issued_mono ht)) hr hheld hret

/-- What is served was accepted. -/
theorem Follows.hold (hf : Follows P publications now state)
    (hg : served publications now = some g) (hr : Reads (g.toDict P) h) :
    Follows P publications now (state.hold h) := by
  obtain ⟨past, hpast⟩ := List.getLast?_eq_some_iff.mp hg
  refine .holds past g h (by rw [hpast]) hr rfl fun e he => ?_
  rw [hold_retiredEpochs, Finset.mem_insert] at he
  rcases he with rfl | he
  · exact ⟨g, by simp, hr.of_toDict.2.1.symm⟩
  · cases hf with
    | start hheld hret => simp [hret] at he
    | holds past' g' h' hpast' hr' hheld' hret' =>
      obtain ⟨y, hy, hye⟩ := hret' e he
      exact ⟨y, hpast ▸ hpast'.subset hy, hye⟩

/-- **What is served is held already, or the register admits it.** -/
theorem Follows.admits (hl : Ledger Heartbeat.bootId Rises publications)
    (hf : Follows P publications now state) (hg : served publications now = some g)
    (hr : Reads (g.toDict P) h) : state.held = some h ∨ state.Admits h := by
  obtain ⟨-, hb, hs⟩ := hr.of_toDict
  cases hf with
  | start hheld hret =>
    right
    rw [admits_of_open (by simp [hheld]), hret]
    exact Finset.notMem_empty _
  | holds past f f' hpast hrf hheld hret =>
    obtain ⟨-, hbf, hsf⟩ := hrf.of_toDict
    obtain ⟨l, hl'⟩ := hpast
    have hledger := hl.of_prefix (issued_publications publications now)
    rw [served] at hg
    rw [← hl', List.append_assoc, List.singleton_append] at hledger hg
    -- the register that holds the publication instead of what was read from it
    rcases hledger.accepts_last (R := ⟨some f, {e | e ∈ state.retiredEpochs}⟩) hg rfl hret with
      rfl | hacc
    · rw [hrf.unique hr] at hheld
      exact Or.inl hheld
    · right
      have hrise : Rises f' h ↔ Rises f g := by
        unfold Rises
        rw [hs, hsf]
      simp only [Register.Accepts] at hacc
      simp only [Admits, Register.Accepts, register, hheld, hrise, hb, hbf]
      exact hacc

/-- A poll follows the publications. -/
theorem Follows.poll {c : HeartbeatConsumer} (response : Except Str (Option Principal))
    (hf : Follows P publications now c.state) :
    Follows P publications now
      (c.poll P none (fetch P publications now response) now).2.state := by
  rcases poll_effect P c none (fetch P publications now response) now with ⟨-, hc⟩ | hc <;> rw [hc]
  · obtain ⟨-, hs | ⟨result, binding, h, hfetch, -, -, hr, -, hs⟩⟩ :=
      refetch_effect P c none (fetch P publications now response) now <;> rw [hs]
    · exact hf
    · cases response with
      | error name => cases hfetch
      | ok principal =>
        rw [fetch] at hfetch
        cases hg : served publications now with
        | none =>
          rw [hg] at hfetch
          cases hfetch
        | some g =>
          rw [hg] at hfetch
          obtain rfl := Except.ok.inj hfetch
          exact hf.hold hg hr
  · exact hf

/-- **A consumer that is polled in order follows the publications.** -/
theorem follows_visited (P : Platform) (p : Str) (publications : List Heartbeat)
    (visits : List Visit) (horder : (visits.filterMap Visit.instant?).Pairwise (· ≤ ·)) (t : ℤ)
    (ht : ∀ u ∈ visits.filterMap Visit.instant?, u ≤ t) :
    Follows P publications t (visited P p publications visits).state := by
  induction visits using List.reverseRecOn generalizing t with
  | nil => exact .start rfl rfl
  | append_singleton visits visit ih =>
    rw [List.filterMap_append] at horder ht
    obtain ⟨hpast, hlast⟩ := List.forall_mem_append.mp ht
    obtain ⟨hearlier, -, hbefore⟩ := List.pairwise_append.mp horder
    have hnext : visited P p publications (visits ++ [visit]) =
        ((visited P p publications visits).step P (visit.event P publications)).2 := by
      rw [visited, List.map_append, List.map_singleton, Machine.run_concat]
      rfl
    rw [hnext]
    cases visit with
    | hint change =>
      show Follows P publications t ((visited P p publications visits).onHint P change).2.state
      rw [(onHint_effect P _ change).2]
      exact ih hearlier t hpast
    | poll now response =>
      have hnow : Follows P publications now (visited P p publications visits).state :=
        ih hearlier now fun u hu => hbefore u hu now (by simp [Visit.instant?])
      exact (hnow.poll response).mono (hlast now (by simp [Visit.instant?]))

/-! ## Convergence -/

/-- The poll was answered, and leaves what is read from `g`: newly accepted, or unchanged. -/
def Converged (P : Platform) (g : Heartbeat)
    (answer : Except Raised (Option ConvergenceVerdict) × HeartbeatConsumer) : Prop :=
  (∃ v, answer.1 = .ok (some v) ∧ (v.convergence = .advanced ∨ v.convergence = .unchanged)) ∧
    ∃ h, answer.2.held = some h ∧ Reads (g.toDict P) h

theorem le_default_maxSkew {n : ℕ} :
    (∀ bound ∈ DEFAULT_MAX_SKEW, (n : ℤ) ≤ bound) ↔ n ≤ 5 * second := by
  simp only [DEFAULT_MAX_SKEW, Option.mem_some_iff, forall_eq']
  exact_mod_cast Iff.rfl

/-- A poll that is due and is answered with what is served. -/
theorem poll_served {c : HeartbeatConsumer} {principal : Option Principal}
    (hdue : c.due now = .ok true) (hg : served publications now = some g) :
    c.poll P none (fetch P publications now (.ok principal)) now =
      (((c.responded none now).reconcile P none (g.toDict P) now).1.map some,
        ((c.responded none now).reconcile P none (g.toDict P) now).2) := by
  have hfetch : fetch P publications now (.ok principal) =
      .ok { document := g.toDict P, principal } := by
    rw [fetch, hg]
  rw [hfetch]
  unfold HeartbeatConsumer.poll
  rw [hdue]
  rfl

/-- **When a refetch leaves what is served.** One participant publishes, with an epoch that was
never used for each restart; a consumer with the default parameters is polled in order, on the same
clock, with any hints in between. A refetch that is answered leaves the served heartbeat, as an
advance or unchanged, exactly when the document can be read and is held already, as text that can
be encoded, or was issued within five seconds of the poll and has not expired. -/
theorem converges_exactly_when (P : Platform) (p : Str) (acts : List Act)
    (hnew : (acts.filterMap Act.epoch?).Nodup) (visits : List Visit) (now : ℤ)
    (principal : Option Principal)
    (horder : ((visits ++ [.poll now (.ok principal)] : List Visit).filterMap
      Visit.instant?).Pairwise (· ≤ ·))
    (g : Heartbeat) (hg : served (minted p acts) now = some g) :
    let c := visited P p (minted p acts) visits
    let answer := c.poll P none (fetch P (minted p acts) now (.ok principal)) now
    c.due now = .ok true → (Converged P g answer ↔
      ∃ h, Reads (g.toDict P) h ∧ ((c.held = some h ∧ (Json.obj h.extensions).WellFormed) ∨
        (c.held ≠ some h ∧ (h.issuedAt.instant - now).natAbs ≤ 5 * second ∧
          now < h.expiresAt.instant))) := by
  intro c answer hdue
  have hmint := minted_publisher p acts hnew
  have hsound : Sound p c := sound_run P p _ _ _ _
  have hskew : c.maxSkew = DEFAULT_MAX_SKEW :=
    congrArg (fun s => s.2.1) (settings_run P (.init p DEFAULT_MAX_SKEW (1 / 2) 60) _)
  have hfollows : Follows P (minted p acts) now c.state := by
    rw [List.filterMap_append] at horder
    obtain ⟨hearlier, -, hbefore⟩ := List.pairwise_append.mp horder
    apply follows_visited P p _ visits hearlier now
    intro u hu
    exact hbefore u hu now (by simp [Visit.instant?])
  have hnode : ∀ h, Reads (g.toDict P) h → h.nodeId = some c.state.participantId := fun h hr => by
    rw [hr.of_toDict.1, hsound.tracked]
    exact hmint.addressed g (mem_of_served hg)
  have hfresh : ∀ h, checkFreshness h now c.maxSkew = none ↔
      (h.issuedAt.instant - now).natAbs ≤ 5 * second ∧ now < h.expiresAt.instant := fun h => by
    rw [hskew, checkFreshness_eq_none, le_default_maxSkew]
  have hanswer : answer = _ := poll_served hdue hg
  rw [hanswer]
  constructor
  · rintro ⟨⟨v, hv, -⟩, h, hheld, hr⟩
    cases hrec : (c.responded none now).reconcile P none (g.toDict P) now with
    | mk result c' =>
      rw [hrec] at hv hheld
      cases result with
      | error e => cases hv
      | ok w =>
        refine ⟨h, hr, (held_of_reconcile hrec hr (hnode h hr) hheld).imp id fun hacc => ?_⟩
        exact ⟨hacc.1, (hfresh h).mp hacc.2⟩
  · rintro ⟨h, hr, ⟨hheld, hw⟩ | ⟨hne, htimely⟩⟩
    · obtain ⟨v, hrec, hv⟩ := @reconcile_held P (c.responded none now) _ h none now hr
        (hnode h hr) hheld hw
      rw [hrec]
      exact ⟨⟨v, rfl, Or.inr hv⟩, h, hheld, hr⟩
    · have hadm : c.state.Admits h := (hfollows.admits hmint.ledger hg hr).resolve_left hne
      obtain ⟨v, hrec, hv⟩ := @reconcile_admitted P (c.responded none now) now _ h none hr
        (hnode h hr) hadm ((hfresh h).mpr htimely)
      rw [hrec]
      exact ⟨⟨v, rfl, Or.inl hv⟩, h, rfl, hr⟩

/-! ## Leases older than the skew bound -/

/-- Each heartbeat is followed by a later one, before it expires. -/
def Renewed (publications : List Heartbeat) : Prop :=
  publications.IsChain fun g h =>
    g.issuedAt.instant < h.issuedAt.instant ∧ h.issuedAt.instant < g.expiresAt.instant

instance : Decidable (Renewed publications) := by unfold Renewed; infer_instance

/-- A lease of thirty seconds, renewed after five. -/
def renewing : List Act :=
  [.restart (some (py "boot")) [] (30 * second) [], .issue newYearMoment,
    .issue ⟨newYear.toNat + 5 * second, by decide⟩]

/-- The consumer was polled when the first heartbeat was issued. -/
def firstPoll : List Visit := [.poll newYear (.ok none)]

/-- The deadline that the consumer took from the first lease. -/
def deadline : ℤ := newYear + 15 * second

/-- The renewal. -/
def renewal : Heartbeat where
  nodeId := some (py "node")
  bootId := some (py "boot")
  sequence := some 1
  issuedAt := ⟨newYear.toNat + 5 * second, by decide⟩
  expiresAt := ⟨newYear.toNat + 35 * second, by decide⟩
  extensionVersion := EXTENSION_VERSION
  extensions := []

theorem converges_exactly_when_renewed :
    let published := minted (py "node") renewing
    let c := visited plainPlatform (py "node") published firstPoll
    let answer := c.poll plainPlatform none (fetch plainPlatform published deadline (.ok none))
      deadline
    Converged plainPlatform renewal answer ↔
      ∃ h, Reads (renewal.toDict plainPlatform) h ∧
        ((c.held = some h ∧ (Json.obj h.extensions).WellFormed) ∨
          (c.held ≠ some h ∧ (h.issuedAt.instant - deadline).natAbs ≤ 5 * second ∧
            deadline < h.expiresAt.instant)) :=
  converges_exactly_when plainPlatform (py "node") renewing (by decide) firstPoll deadline none
    (by decide +kernel) renewal (by decide +kernel) (by decide +kernel)

/-- **A lease older than the skew bound is refused**, well within its window: the consumer that is
polled at its own deadline keeps the lease before. -/
theorem refused_within_lease : ¬ ∀ (P : Platform) (p : Str) (acts : List Act),
    (acts.filterMap Act.epoch?).Nodup →
    (∀ epochId token lease extensions, .restart epochId token lease extensions ∈ acts →
      0 < lease ∧ lease ≤ MAX_LEASE) →
    (∀ g ∈ minted p acts, ∃ h, Reads (g.toDict P) h) → Renewed (minted p acts) →
    ∀ (visits : List Visit) (now : ℤ) (principal : Option Principal),
    ((visits ++ [Visit.poll now (.ok principal)]).filterMap Visit.instant?).Pairwise (· ≤ ·) →
    ∀ g, served (minted p acts) now = some g → now < g.expiresAt.instant →
      let c := visited P p (minted p acts) visits
      let answer := c.poll P none (fetch P (minted p acts) now (.ok principal)) now
      c.due now = .ok true → Converged P g answer := by
  intro hall
  have hlease : ∀ epochId token lease extensions,
      Act.restart epochId token lease extensions ∈ renewing → 0 < lease ∧ lease ≤ MAX_LEASE := by
    intro epochId token lease extensions hmem
    simp only [renewing, List.mem_cons, Act.restart.injEq, reduceCtorEq, List.not_mem_nil,
      or_false] at hmem
    obtain ⟨-, -, rfl, -⟩ := hmem
    decide
  have hreads : ∀ g ∈ minted (py "node") renewing, ∃ h, Reads (g.toDict plainPlatform) h := by
    have hsome : ∀ g ∈ minted (py "node") renewing,
        (reading (g.toDict plainPlatform)).isSome = true := by decide +kernel
    intro g hg
    obtain ⟨h, hh⟩ := Option.isSome_iff_exists.mp (hsome g hg)
    exact ⟨h, reading_eq_some.mp hh⟩
  obtain ⟨-, h, hheld, hr⟩ := hall plainPlatform (py "node") renewing (by decide) hlease hreads
    (by decide +kernel) firstPoll deadline none (by decide +kernel) renewal (by decide +kernel)
    (by decide) (by decide +kernel)
  -- the first heartbeat is still held
  have hfirst : ((visited plainPlatform (py "node") (minted (py "node") renewing) firstPoll).poll
      plainPlatform none (fetch plainPlatform (minted (py "node") renewing) deadline (.ok none))
      deadline).2.held.map Heartbeat.sequence = some (some 0) := by decide +kernel
  rw [hheld, Option.map_some, hr.of_toDict.2.2] at hfirst
  cases hfirst

end McpHeartbeat
