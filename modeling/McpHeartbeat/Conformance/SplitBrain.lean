import McpHeartbeat.Conformance.Fleet
import McpHeartbeat.Core.Follower

/-!
# Verdicts of a fleet

What a consumer is told by a gateway that does not know that its replicas disagree.

* `Reaches`, `refetch_reached`: a refetch that reaches a replica;
* `verdictFor`, **`routed_verdict`**: what it answers where the replica has an epoch of its own;
* `judge_held`: what two writers in one epoch leave; **`split_brain_exactly_when`**: when a conflict
  or a rollback is reported, and who is behind it;
* **`reconnect_agrees_exactly_when`**: when a new consumer ends where an old one does.
-/

namespace McpHeartbeat

open Base

namespace Fleet

variable {P : Platform} {L : ℤ} {f : Fleet} {past : List Heartbeat}
  {c : HeartbeatConsumer} {g h : Heartbeat}

/-! ## One verdict -/

/-- A gateway that reaches a replica. -/
theorem fetch_reached {n : ℕ} {gateway : Gateway n} {pool : Fin n → Replica} {i : Fin n}
    (hu : gateway.unreachable = false) (hi : gateway.route.1 = .ok i) :
    (gateway.fetch P pool).1 = .ok { document := (pool i).document P } := by
  unfold Gateway.fetch
  cases hr : gateway.route with
  | mk target g =>
    rw [hr] at hi
    obtain rfl : target = .ok i := hi
    simp [hu]

/-- A refetch of the consumer of this number, which is `c`, reaches this replica. -/
structure Reaches (f : Fleet) (k : ℕ) (c : HeartbeatConsumer) (i : Fin f.size) : Prop where
  consumer : f.consumers[k]? = some c
  reachable : f.gateway.unreachable = false
  routed : f.gateway.route.1 = .ok i

/-- A refetch through a gateway that reaches a replica. -/
theorem refetch_reached {k : ℕ} {i : Fin f.size} {a : Admission} (hf : Sound L f past)
    (hreach : f.Reaches k c i)
    (ha : c.state.judge P (f.pool i).current.toMillis f.clock.now DEFAULT_MAX_SKEW = .ok a)
    (hdup : a.duplicate = true → a.reason = none) :
    ∃ v c', f.refetch P k = (some (.ok v), { f with
        gateway := (f.gateway.fetch P f.pool).2, consumers := f.consumers.set k c' }) ∧
      c'.state = a.state ∧ Tells a v := by
  have hskew : c.maxSkew = DEFAULT_MAX_SKEW :=
    congrArg (fun s => s.2.1) (hf.tracking c (List.mem_of_getElem? hreach.consumer)).settings
  rw [← hskew] at ha
  obtain ⟨v, hv, ht⟩ : ∃ v, c.refetch P none (.ok { document := (f.pool i).document P })
      f.clock.now = _ ∧ Tells a v :=
    refetch_of_judge rfl rfl (hf.reads P i) ha hdup
  refine ⟨v, { c.responded none f.clock.now with state := a.state }, ?_, rfl, ht⟩
  simp only [Fleet.refetch, hreach.consumer, fetch_reached hreach.reachable hreach.routed, hv]

/-- The held lease is of the epoch of a heartbeat: the two ways of one replica, and what two writers
leave. -/
theorem judge_held {now : ℤ} {state : LineageState} (hp : state.participantId = PARTICIPANT)
    (hg : Published L now g) (hh : Published L now h) (hheld : state.held = some g.toMillis)
    (hboot : h.bootId = g.bootId) (maxSkew : Option ℤ) :
    (g.toMillis = h.toMillis →
      state.judge P h.toMillis now maxSkew = .ok { state, duplicate := true }) ∧
    (Rises g h → state.judge P h.toMillis now maxSkew = .ok (state.settle h.toMillis now maxSkew)) ∧
    (Rises h g →
      state.judge P h.toMillis now maxSkew = .ok { state, reason := some .sequenceRollback }) ∧
    (Function.Injective P.sha256 → h.sequence = g.sequence → g.toMillis ≠ h.toMillis →
      state.judge P h.toMillis now maxSkew = .ok { state, reason := some .sequenceConflict }) := by
  have hn : h.toMillis.nodeId = some state.participantId := by
    rw [hp]
    exact hh.issued.node
  have henc : ∀ {x : Heartbeat}, Published L now x → x.toMillis.Encodable P := fun {x} hx => by
    rw [encodable_iff (hx.issued.reads P), show x.toMillis.extensions = [] from hx.plain]
    simp [Json.WellFormed, Json.texts, Json.textsMembers]
  refine ⟨fun he => ?_, fun hr => ?_, fun hr => ?_, fun hsha hs hne => ?_⟩
  · rw [he] at hheld
    exact judge_duplicate hn hheld (Heartbeat.Coincides.refl _) (henc hh)
  · obtain ⟨a, b, ha, hb, hlt⟩ := hr
    have hne : h.toMillis.sequence ≠ g.toMillis.sequence := fun heq => by
      obtain rfl := Option.some.inj (hb.symm.trans (heq.trans ha))
      exact lt_irrefl _ hlt
    have hlow : sequenceLt h.toMillis.sequence g.toMillis.sequence = .ok false :=
      (rises_iff_sequenceLt hne).mp ⟨a, b, ha, hb, hlt⟩
    rw [judge_order hn hheld hboot hne, hlow]
    rfl
  · exact judge_superseded hn hheld hboot hr
  · obtain ⟨n, hseq, -⟩ := hh.issued.seq
    have hdigests : h.toMillis.digest P ≠ g.toMillis.digest P := by
      rw [ne_eq, digest_eq_iff hsha (henc hh) (henc hg)]
      intro hc
      apply hne
      have hissued : g.issuedAt.toMillis = h.issuedAt.toMillis := by
        simpa [Datetime.toMillis, Heartbeat.toMillis] using hc.issued.symm
      have hexpires : g.expiresAt.toMillis = h.expiresAt.toMillis := by
        simpa [Datetime.toMillis, Heartbeat.toMillis] using hc.expires.symm
      simp only [Heartbeat.toMillis, Heartbeat.mk.injEq]
      exact ⟨hc.node.symm, hboot.symm, hs.symm, hissued, hexpires, hc.version.symm,
        hg.plain.trans hh.plain.symm⟩
    obtain ⟨x, -, hx⟩ := digest_of_encodable (henc hh)
    obtain ⟨y, -, hy⟩ := digest_of_encodable (henc hg)
    have hnone : h.toMillis.sequence ≠ none := fun hno => by cases hseq.symm.trans hno
    rw [hx, hy, ne_eq, Except.ok.injEq] at hdigests
    rw [judge_repeat hn hheld hboot hs, hx, hy, ok_bind, ok_bind, if_neg hdigests, if_neg hnone]

/-- What a consumer makes of a replica: the held lease again, an epoch it has left, or a lease that is
to be accepted if it is timely. -/
def verdictFor (state : LineageState) (h : Heartbeat) (now : ℤ) : Admission :=
  if state.held = some h then { state, duplicate := true }
  else if h.bootId ∈ state.retiredEpochs ∧ state.held.map Heartbeat.bootId ≠ some h.bootId then
    { state, reason := some .bootIdReuse }
  else state.settle h now DEFAULT_MAX_SKEW

/-- No other replica is of the epoch of this one. -/
def Alone (f : Fleet) (i : Fin f.size) : Prop :=
  ∀ j, (f.pool j).issuer.epochId = (f.pool i).issuer.epochId → j = i

instance (f : Fleet) (i : Fin f.size) : Decidable (f.Alone i) := by unfold Alone; infer_instance

/-- Another epoch than the held one is judged by the epochs that were left. -/
theorem judge_opens {i : Fin f.size} (hf : Sound L f past) (hc : Tracking past c)
    (ho : ∀ g, c.state.held = some g → (f.pool i).current.toMillis.bootId ≠ g.bootId) :
    c.state.judge P (f.pool i).current.toMillis f.clock.now DEFAULT_MAX_SKEW =
      .ok (verdictFor c.state (f.pool i).current.toMillis f.clock.now) := by
  have hn : (f.pool i).current.toMillis.nodeId = some c.state.participantId := by
    rw [hc.tracked]
    exact (hf.published _ (hf.running i).mem).issued.node
  have hnew : c.state.held ≠ some (f.pool i).current.toMillis := fun hheld => ho _ hheld rfl
  have hother : c.state.held.map Heartbeat.bootId ≠ some (f.pool i).current.toMillis.bootId := by
    intro hmap
    obtain ⟨g, hg, hb⟩ := Option.map_eq_some_iff.mp hmap
    exact ho g hg hb.symm
  rw [judge_open hn ho, verdictFor, if_neg hnew]
  by_cases hr : (f.pool i).current.toMillis.bootId ∈ c.state.retiredEpochs
  · rw [if_pos hr, if_pos ⟨hr, hother⟩]
  · rw [if_neg hr, if_neg fun h => hr h.1]

/-- A lease of the routed epoch that is held was issued by a replica of that epoch. -/
theorem Sound.writer (hf : Sound L f past) (hg : g ∈ past) {i : Fin f.size}
    (hboot : (f.pool i).current.bootId = g.bootId) :
    ∃ j, Behind g (f.pool j) ∧ (f.pool j).issuer.epochId = (f.pool i).issuer.epochId := by
  obtain ⟨j, hb⟩ := hf.behind g hg
  refine ⟨j, hb, Option.some.inj ?_⟩
  rw [← (hf.running j).boot, ← (hf.running i).boot, hboot, hb.1]

/-- A replica alone in its epoch. -/
theorem judge_alone {i : Fin f.size} (hf : Sound L f past) (hc : Tracking past c)
    (halone : f.Alone i) :
    c.state.judge P (f.pool i).current.toMillis f.clock.now DEFAULT_MAX_SKEW =
      .ok (verdictFor c.state (f.pool i).current.toMillis f.clock.now) := by
  by_cases ho : ∀ g, c.state.held = some g → (f.pool i).current.toMillis.bootId ≠ g.bootId
  · exact judge_opens hf hc ho
  · push Not at ho
    obtain ⟨x, hx, hboot⟩ := ho
    obtain ⟨g, hg, rfl⟩ := hc.held x hx
    have hb : (f.pool i).current.bootId = g.bootId := hboot
    obtain ⟨hsame, hrise, -, -⟩ := @judge_held P L g (f.pool i).current f.clock.now c.state hc.tracked
      (hf.published g hg) (hf.published _ (hf.running i).mem) hx hb DEFAULT_MAX_SKEW
    obtain ⟨j, hbehind, hepoch⟩ := hf.writer hg hb
    obtain rfl := halone j hepoch
    unfold verdictFor
    rcases hbehind.2 with rfl | hr
    · rw [if_pos hx, hsame rfl]
    · have hne : c.state.held ≠ some (f.pool j).current.toMillis := by
        rw [hx, ne_eq, Option.some_inj]
        intro heq
        exact not_rises_of_eq (congrArg Heartbeat.sequence heq).symm hr
      have hheld : c.state.held.map Heartbeat.bootId =
          some (f.pool j).current.toMillis.bootId := by
        rw [hx]
        exact congrArg some hboot.symm
      rw [if_neg hne, if_neg fun h => h.2 hheld, hrise hr]

theorem verdictFor_duplicate {state : LineageState} {now : ℤ} :
    (verdictFor state h now).duplicate = true → (verdictFor state h now).reason = none := by
  unfold verdictFor LineageState.settle
  split_ifs
  · simp
  · simp
  · cases checkFreshness h now DEFAULT_MAX_SKEW <;> simp

/-- **What a refetch answers that reaches a replica.** In every run of a fleet, a refetch that is
routed to a replica alone in its epoch returns a verdict: the held lease again, the reuse of an epoch
that was left, or, by the clock alone, an advance or a refusal. -/
theorem routed_verdict (P : Platform) {clock : FakeClock} (hyear : 1000 ≤ clock.wall.year)
    {ops : List Op} (hops : ∀ op ∈ ops, op.Regular MAX_LEASE) (k : ℕ) (c : HeartbeatConsumer) :
    let f := (fleet P).run (start clock) ops
    ∀ i, f.Reaches k c i → f.Alone i →
      let a := verdictFor c.state (f.pool i).current.toMillis f.clock.now
      ∃ v c', (f.refetch P k).1 = some (.ok v) ∧ (f.refetch P k).2.consumers[k]? = some c' ∧
        c'.state = a.state ∧ Tells a v := by
  intro f i hreach halone a
  have hf : Sound MAX_LEASE f _ := sound_fleet P le_rfl hyear hops
  have hc := hf.tracking c (List.mem_of_getElem? hreach.consumer)
  obtain ⟨v, c', hr, hs, ht⟩ := refetch_reached hf hreach (judge_alone hf hc halone)
    verdictFor_duplicate
  have hlt : k < f.consumers.length := (List.getElem?_eq_some_iff.mp hreach.consumer).1
  exact ⟨v, c', by rw [hr], by rw [hr]; exact List.getElem?_set_self hlt, hs, ht⟩

/-- Two replicas take turns, and a consumer that holds nothing reaches the first one. -/
def turns : List Op :=
  [.spawn (py "epoch-a") [] (30 * second), .spawn (py "epoch-b") [] (30 * second),
    .assign [0, 1], .connect]

theorem turns_regular : ∀ op ∈ turns, op.Regular MAX_LEASE := by
  intro op hop
  simp only [turns, List.mem_cons, List.not_mem_nil, or_false] at hop
  obtain rfl | rfl | rfl | rfl := hop
  · exact ⟨by decide +kernel, by decide, by decide⟩
  · exact ⟨by decide +kernel, by decide, by decide⟩
  · trivial
  · trivial

theorem routed_verdict_turns :
    let f := (fleet plainPlatform).run (start { wall := newYearMoment }) turns
    let a := verdictFor newConsumer.state (f.pool ⟨0, by decide +kernel⟩).current.toMillis f.clock.now
    ∃ v c', (f.refetch plainPlatform 0).1 = some (.ok v) ∧
      (f.refetch plainPlatform 0).2.consumers[0]? = some c' ∧ c'.state = a.state ∧ Tells a v :=
  routed_verdict plainPlatform (by decide +kernel) turns_regular 0 newConsumer
    ⟨0, by decide +kernel⟩ ⟨rfl, rfl, rfl⟩ (by decide +kernel)

/-! ## Two writers in one epoch -/

/-- The two reasons that name a split brain. -/
def SplitBrain (a : Admission) : Prop :=
  a.reason = some .sequenceConflict ∨ a.reason = some .sequenceRollback

/-- The verdict names a split brain. -/
def Alarms (v : ConvergenceVerdict) : Prop :=
  v.reason = some (.code .sequenceConflict) ∨ v.reason = some (.code .sequenceRollback)

theorem alarms_iff {a : Admission} {v : ConvergenceVerdict} (ht : Tells a v) :
    Alarms v ↔ SplitBrain a := by
  unfold Alarms SplitBrain
  rw [ht.reason]
  cases a.reason <;> simp

theorem not_splitBrain_settle {state : LineageState} {now : ℤ} {maxSkew : Option ℤ} :
    ¬ SplitBrain (state.settle h now maxSkew) := by
  unfold LineageState.settle SplitBrain
  cases hfresh : checkFreshness h now maxSkew with
  | none => simp
  | some reason =>
    rcases checkFreshness_codes hfresh with rfl | rfl <;> simp

theorem not_splitBrain_verdictFor {state : LineageState} {now : ℤ} :
    ¬ SplitBrain (verdictFor state h now) := by
  unfold verdictFor
  split_ifs
  · simp [SplitBrain]
  · simp [SplitBrain]
  · exact not_splitBrain_settle

/-- A refetch alarms exactly when its judgement names a split brain. -/
theorem alarms_reached {k : ℕ} {i : Fin f.size} {a : Admission} (hf : Sound L f past)
    (hreach : f.Reaches k c i)
    (ha : c.state.judge P (f.pool i).current.toMillis f.clock.now DEFAULT_MAX_SKEW = .ok a)
    (hdup : a.duplicate = true → a.reason = none) :
    (∃ v, (f.refetch P k).1 = some (.ok v) ∧ Alarms v) ↔ SplitBrain a := by
  obtain ⟨v, c', hr, -, ht⟩ := refetch_reached hf hreach ha hdup
  rw [hr, ← alarms_iff ht]
  simp

/-- **When a split brain is reported.** In every run of a fleet, under an injective hash, a refetch
reports a conflict or a rollback exactly when the lease that is held was issued by another replica of
the routed epoch, and the routed replica shows another lease that is not above it. -/
theorem split_brain_exactly_when (P : Platform) (hsha : Function.Injective P.sha256)
    {clock : FakeClock} (hyear : 1000 ≤ clock.wall.year) {ops : List Op}
    (hops : ∀ op ∈ ops, op.Regular MAX_LEASE) (k : ℕ) (c : HeartbeatConsumer) :
    let f := (fleet P).run (start clock) ops
    let past := (fleet P).journal (start clock) ops
    ∀ i, f.Reaches k c i → ((∃ v, (f.refetch P k).1 = some (.ok v) ∧ Alarms v) ↔
      ∃ g ∈ past, ∃ j, j ≠ i ∧ (f.pool j).issuer.epochId = (f.pool i).issuer.epochId ∧
        Behind g (f.pool j) ∧ c.held = some g.toMillis ∧
        g.toMillis ≠ (f.pool i).current.toMillis ∧ ¬ Rises g (f.pool i).current) := by
  intro f past i hreach
  have hf : Sound MAX_LEASE f past := sound_fleet P le_rfl hyear hops
  have hc := hf.tracking c (List.mem_of_getElem? hreach.consumer)
  have hcur := hf.published _ (hf.running i).mem
  constructor
  · intro halarm
    by_cases ho : ∀ g, c.state.held = some g → (f.pool i).current.toMillis.bootId ≠ g.bootId
    · rw [alarms_reached hf hreach (judge_opens hf hc ho) verdictFor_duplicate] at halarm
      exact absurd halarm not_splitBrain_verdictFor
    · push Not at ho
      obtain ⟨x, hx, hboot⟩ := ho
      obtain ⟨g, hg, rfl⟩ := hc.held x hx
      have hb : (f.pool i).current.bootId = g.bootId := hboot
      obtain ⟨hsame, hrise, -, -⟩ := @judge_held P _ _ _ _ c.state hc.tracked (hf.published g hg)
        hcur hx hb DEFAULT_MAX_SKEW
      obtain ⟨j, hbehind, hepoch⟩ := hf.writer hg hb
      have hne : g.toMillis ≠ (f.pool i).current.toMillis := by
        intro heq
        rw [alarms_reached hf hreach (hsame heq) fun _ => rfl] at halarm
        simp [SplitBrain] at halarm
      have hnot : ¬ Rises g (f.pool i).current := by
        intro hr
        rw [alarms_reached hf hreach (hrise hr) (by simp [settle_duplicate])] at halarm
        exact not_splitBrain_settle halarm
      refine ⟨g, hg, j, ?_, hepoch, hbehind, hx, hne, hnot⟩
      rintro rfl
      rcases hbehind.2 with rfl | hr
      · exact hne rfl
      · exact hnot hr
  · rintro ⟨g, hg, j, -, hepoch, hbehind, hheld, hne, hnot⟩
    have hb : (f.pool i).current.bootId = g.bootId := by
      rw [hbehind.1, (hf.running i).boot, (hf.running j).boot, hepoch]
    obtain ⟨-, -, hroll, hconflict⟩ := @judge_held P _ _ _ _ c.state hc.tracked
      (hf.published g hg) hcur hheld hb DEFAULT_MAX_SKEW
    by_cases hs : (f.pool i).current.sequence = g.sequence
    · rw [alarms_reached hf hreach (hconflict hsha hs hne) (by simp)]
      exact Or.inl rfl
    · have hcomp : (f.pool i).current.sequence.isSome = g.sequence.isSome := by
        obtain ⟨n, hn, -⟩ := hcur.issued.seq
        obtain ⟨m, hm, -⟩ := (hf.published g hg).issued.seq
        rw [hn, hm]
        rfl
      have hr : Rises (f.pool i).current g := (rises_or_rises hcomp hs).resolve_right hnot
      rw [alarms_reached hf hreach (hroll hr) (by simp)]
      exact Or.inr rfl

theorem some_getD {α : Type} {o : Option α} {a : α} (h : o.isSome = true) : o = some (o.getD a) := by
  cases o with
  | none => cases h
  | some b => rfl

/-- A second process wakes up in the epoch of the first, half a second later. -/
def twins : List Op :=
  [.spawn (py "epoch-a") [] (30 * second), .pin (some 0), .connect, .refetch 0, .advance 500000,
    .spawn (py "epoch-a") [] (30 * second), .pin (some 1)]

theorem twins_regular : ∀ op ∈ twins, op.Regular MAX_LEASE := by
  intro op hop
  simp only [twins, List.mem_cons, List.not_mem_nil, or_false] at hop
  obtain rfl | rfl | rfl | rfl | rfl | rfl | rfl := hop
  · exact ⟨by decide +kernel, by decide, by decide⟩
  · trivial
  · trivial
  · trivial
  · trivial
  · exact ⟨by decide +kernel, by decide, by decide⟩
  · trivial

theorem split_brain_exactly_when_twins :
    let f := (fleet plainPlatform).run (start { wall := newYearMoment }) twins
    let past := (fleet plainPlatform).journal (start { wall := newYearMoment }) twins
    let c := (f.consumers[0]?).getD newConsumer
    let i : Fin f.size := ⟨1, by decide +kernel⟩
    (∃ v, (f.refetch plainPlatform 0).1 = some (.ok v) ∧ Alarms v) ↔
      ∃ g ∈ past, ∃ j, j ≠ i ∧ (f.pool j).issuer.epochId = (f.pool i).issuer.epochId ∧
        Behind g (f.pool j) ∧ c.held = some g.toMillis ∧
        g.toMillis ≠ (f.pool i).current.toMillis ∧ ¬ Rises g (f.pool i).current :=
  split_brain_exactly_when plainPlatform plainPlatform_injective (by decide +kernel) twins_regular 0
    _ ⟨1, by decide +kernel⟩ ⟨some_getD (by decide +kernel), rfl, rfl⟩

/-! ## A new consumer beside an old one -/

/-- After a timely document the lease is held, unless its epoch was left. -/
theorem held_verdictFor {state : LineageState} {now : ℤ}
    (hfresh : checkFreshness h now DEFAULT_MAX_SKEW = none) :
    (verdictFor state h now).state.held = some h ↔
      ¬ (h.bootId ∈ state.retiredEpochs ∧ state.held.map Heartbeat.bootId ≠ some h.bootId) := by
  unfold verdictFor
  split_ifs with hheld hleft
  · simp [hheld]
  · simp [hheld, hleft]
  · rw [settle_of_fresh hfresh]
    exact iff_of_true rfl hleft

/-- What a pinned gateway answers does not change what it routes to. -/
theorem fetch_pinned {n : ℕ} {gateway : Gateway n} {pool : Fin n → Replica} {i : Fin n}
    (hp : gateway.pinned = some i) :
    gateway.route = (.ok i, gateway) ∧ (gateway.fetch P pool).2.pinned = some i ∧
      (gateway.fetch P pool).2.unreachable = gateway.unreachable := by
  have hroute : gateway.route = (.ok i, gateway) := by
    rw [Gateway.route, hp]
  refine ⟨hroute, ?_, ?_⟩ <;> unfold Gateway.fetch <;> rw [hroute] <;> split_ifs <;> simp [hp]

/-- A refetch of a pinned replica that is alone in its epoch. -/
theorem refetch_pinned {k : ℕ} {i : Fin f.size} (hf : Sound L f past)
    (hk : f.consumers[k]? = some c) (hu : f.gateway.unreachable = false)
    (hp : f.gateway.pinned = some i) (halone : f.Alone i) :
    ∃ c' gateway', f.next P (.refetch k) =
        { f with gateway := gateway', consumers := f.consumers.set k c' } ∧
      gateway'.pinned = some i ∧ gateway'.unreachable = false ∧
      c'.state = (verdictFor c.state (f.pool i).current.toMillis f.clock.now).state := by
  obtain ⟨hroute, hpinned, hdown⟩ : _ ∧ (f.gateway.fetch P f.pool).2.pinned = _ ∧ _ :=
    fetch_pinned hp
  have hreach : f.Reaches k c i := ⟨hk, hu, by rw [hroute]⟩
  have hc := hf.tracking c (List.mem_of_getElem? hk)
  obtain ⟨v, c', hr, hs, -⟩ := refetch_reached hf hreach (judge_alone (P := P) hf hc halone)
    verdictFor_duplicate
  exact ⟨c', _, congrArg Prod.snd hr, hpinned, hdown.trans hu, hs⟩

/-- **When a new consumer ends where an old one does.** In every run of a fleet, let the gateway be
pinned to a replica that is alone in its epoch and shows a timely lease. A consumer that connects and
refetches holds that lease; an older one that refetches holds it too exactly unless it has left that
epoch for another. -/
theorem reconnect_agrees_exactly_when (P : Platform) {clock : FakeClock}
    (hyear : 1000 ≤ clock.wall.year) {ops : List Op} (hops : ∀ op ∈ ops, op.Regular MAX_LEASE)
    (k : ℕ) (a : HeartbeatConsumer) :
    let f := (fleet P).run (start clock) ops
    let f' := (fleet P).run f [.connect, .refetch k, .refetch f.consumers.length]
    ∀ i, f.consumers[k]? = some a → f.gateway.pinned = some i → f.gateway.unreachable = false →
      f.Alone i → checkFreshness (f.pool i).current.toMillis f.clock.now DEFAULT_MAX_SKEW = none →
      ∃ a' b', f'.consumers[k]? = some a' ∧ f'.consumers[f.consumers.length]? = some b' ∧
        b'.held = some (f.pool i).current.toMillis ∧
        (a'.held = b'.held ↔ ¬ ((f.pool i).current.bootId ∈ a.state.retiredEpochs ∧
          a.held.map Heartbeat.bootId ≠ some (f.pool i).current.bootId)) := by
  intro f f' i hk hp hu halone hfresh
  have hf : Sound MAX_LEASE f _ := sound_fleet P le_rfl hyear hops
  have hlt : k < f.consumers.length := (List.getElem?_eq_some_iff.mp hk).1
  -- the new consumer connects
  have hf₁ : Sound MAX_LEASE { f with consumers := f.consumers ++ [newConsumer] } _ :=
    hf.step (P := P) le_rfl (show Op.connect.Regular MAX_LEASE from trivial)
  obtain ⟨a', gateway₁, hnext₁, hp₁, hu₁, ha'⟩ := refetch_pinned (P := P)
    (f := { f with consumers := f.consumers ++ [newConsumer] }) (k := k) (c := a) (i := i) hf₁
    ((List.getElem?_append_left hlt).trans hk) hu hp halone
  -- the old one has refetched
  have hf₂ := hf₁.step (P := P) le_rfl (show (Op.refetch k).Regular MAX_LEASE from trivial)
  rw [hnext₁] at hf₂
  have hnew : ((f.consumers ++ [newConsumer]).set k a')[f.consumers.length]? = some newConsumer := by
    rw [List.getElem?_set_ne hlt.ne]
    simp
  obtain ⟨b', gateway₂, hnext₂, -, -, hb'⟩ := refetch_pinned (P := P)
    (f := { f with
      gateway := gateway₁, consumers := (f.consumers ++ [newConsumer]).set k a' })
    (k := f.consumers.length) (c := newConsumer) (i := i) hf₂ hnew hu₁ hp₁ halone
  have hrun : f' = ({ f with consumers := f.consumers ++ [newConsumer] }.next P (.refetch k)).next P
      (.refetch f.consumers.length) := rfl
  rw [hnext₁, hnext₂] at hrun
  have hold : b'.held = some (f.pool i).current.toMillis := by
    rw [HeartbeatConsumer.held, hb']
    exact (held_verdictFor hfresh).mpr (by simp [newConsumer, HeartbeatConsumer.init])
  refine ⟨a', b', ?_, ?_, hold, ?_⟩
  · rw [hrun]
    show (((f.consumers ++ [newConsumer]).set k a').set f.consumers.length b')[k]? = some a'
    rw [List.getElem?_set_ne hlt.ne', List.getElem?_set_self (by simp; omega)]
  · rw [hrun]
    show (((f.consumers ++ [newConsumer]).set k a').set f.consumers.length b')[_]? = some b'
    exact List.getElem?_set_self (by simp)
  · rw [hold, HeartbeatConsumer.held, ha']
    exact held_verdictFor hfresh

theorem reconnect_agrees_exactly_when_pinned :
    let ops : List Op := turns ++ [.pin (some 0)]
    let f := (fleet plainPlatform).run (start { wall := newYearMoment }) ops
    let f' := (fleet plainPlatform).run f [.connect, .refetch 0, .refetch f.consumers.length]
    let i : Fin f.size := ⟨0, by decide +kernel⟩
    ∃ a' b', f'.consumers[0]? = some a' ∧ f'.consumers[f.consumers.length]? = some b' ∧
      b'.held = some (f.pool i).current.toMillis ∧
      (a'.held = b'.held ↔ ¬ ((f.pool i).current.bootId ∈ newConsumer.state.retiredEpochs ∧
        newConsumer.held.map Heartbeat.bootId ≠ some (f.pool i).current.bootId)) :=
  reconnect_agrees_exactly_when plainPlatform (by decide +kernel)
    (List.forall_mem_append.mpr ⟨turns_regular, by simp [Op.Regular]⟩) 0 newConsumer
    ⟨0, by decide +kernel⟩ rfl rfl rfl (by decide +kernel) (by decide +kernel)

end Fleet

end McpHeartbeat
