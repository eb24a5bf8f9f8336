import McpHeartbeat.Conformance.SplitBrain
import McpHeartbeat.Core.ClosedForm

/-!
# Outages and rolling deployments

What the consumers of a fleet are left with, after any run.

* `CutOff`, `Down`: no replica issues any more, or the gateway is down and stays so;
  **`presence_expires`**: what is cut off is not fresh after a lease;
* `timelyRead`, `reader`: the timely leases one consumer reads; `refetch_delivers`: a refetch that is
  answered is one delivery;
* `Settles`, **`consumer_settles`**: where a consumer ends, whichever replicas it reached.
-/

namespace McpHeartbeat

open Base

namespace Fleet

variable {P : Platform} {L : ℤ} {f : Fleet} {past : List Heartbeat}
  {c : HeartbeatConsumer} {g h : Heartbeat}

/-! ## What is cut off -/

/-- Nothing new can be read from here on: no replica starts or beats, or the gateway is down. -/
def CutOff (f : Fleet) (ops : List Op) : Prop :=
  (∀ op ∈ ops, ∀ i e t l, op ≠ .beat i ∧ op ≠ .spawn e t l) ∨
    (f.gateway.unreachable = true ∧ .partition false ∉ ops)

/-- Without a beat or a start nothing is issued. -/
theorem journal_silent (P : Platform) (f : Fleet) {ops : List Op}
    (hsilent : ∀ op ∈ ops, ∀ i e t l, op ≠ .beat i ∧ op ≠ .spawn e t l) :
    (fleet P).journal f ops = [] := by
  apply List.eq_nil_iff_forall_not_mem.mpr
  intro h hh
  obtain ⟨pre, op, post, rfl, hentry⟩ := (fleet P).mem_journal hh
  have hop := hsilent op (by simp)
  cases op with
  | spawn e t l => exact (hop 0 e t l).2 rfl
  | beat i => exact (hop i [] [] 0).1 rfl
  | advance seconds => cases hentry
  | assign is => cases hentry
  | pin target => cases hentry
  | partition unreachable => cases hentry
  | connect => cases hentry
  | hint k hint => cases hentry
  | refetch k => cases hentry

/-- The gateway is down, and the consumers hold what had been issued before. -/
structure Down (past : List Heartbeat) (f : Fleet) : Prop where
  unreachable : f.gateway.unreachable = true
  tracking : ∀ c ∈ f.consumers, Tracking past c

/-- A gateway that is down stays down until it is healed. -/
theorem Down.step {op : Op} (hop : op ≠ .partition false) (hd : Down past f) :
    Down past (f.next P op) := by
  have hreplace : ∀ (k : ℕ) (c : HeartbeatConsumer), Tracking past c →
      ∀ c' ∈ f.consumers.set k c, Tracking past c' := by
    intro k c hc c' hc'
    rcases List.mem_or_eq_of_mem_set hc' with hc' | rfl
    · exact hd.tracking c' hc'
    · exact hc
  cases op with
  | advance seconds =>
    simp only [Fleet.next]
    cases f.clock.advance seconds with
    | error e => exact hd
    | ok clock => exact ⟨hd.unreachable, hd.tracking⟩
  | spawn epochId token lease =>
    simp only [Fleet.next]
    cases Replica.init epochId token f.clock.wall lease with
    | error e => exact hd
    | ok r => exact ⟨hd.unreachable, hd.tracking⟩
  | beat i =>
    simp only [Fleet.next]
    cases f.replica? i with
    | none => exact hd
    | some i => exact ⟨hd.unreachable, hd.tracking⟩
  | assign is =>
    simp only [Fleet.next]
    cases is.mapM f.replica? with
    | none => exact hd
    | some replicas => exact ⟨hd.unreachable, hd.tracking⟩
  | pin target =>
    cases target with
    | none => exact ⟨hd.unreachable, hd.tracking⟩
    | some i =>
      simp only [Fleet.next]
      cases f.replica? i with
      | none => exact hd
      | some i => exact ⟨hd.unreachable, hd.tracking⟩
  | partition unreachable =>
    cases unreachable with
    | false => exact absurd rfl hop
    | true => exact ⟨rfl, hd.tracking⟩
  | connect =>
    refine ⟨hd.unreachable, List.forall_mem_append.mpr ⟨hd.tracking, ?_⟩⟩
    simp only [List.mem_singleton, forall_eq]
    exact ⟨rfl, rfl, fun h hh => by cases hh⟩
  | hint k hint =>
    simp only [Fleet.next]
    cases hk : f.consumers[k]? with
    | none => exact hd
    | some c =>
      obtain ⟨hs, hstate⟩ := onHint_effect P c hint
      have hc := (hd.tracking c (List.mem_of_getElem? hk)).of_state hs hstate
      exact ⟨hd.unreachable, hreplace k _ hc⟩
  | refetch k =>
    simp only [Fleet.next, Fleet.refetch]
    cases hk : f.consumers[k]? with
    | none => exact hd
    | some c =>
      have hfetch : f.gateway.fetch P f.pool = (.error (py "ConnectionError"), f.gateway) := by
        rw [Gateway.fetch, if_pos hd.unreachable]
      obtain ⟨hs, hsame⟩ := refetch_raised P c none (py "ConnectionError") f.clock.now
      have hc := (hd.tracking c (List.mem_of_getElem? hk)).of_state hs hsame
      rw [hfetch]
      exact ⟨hd.unreachable, hreplace k _ hc⟩

/-- What is held was issued before the cut. -/
theorem tracking_cutOff (P : Platform) (hf : Sound L f past) (hL : L ≤ MAX_LEASE) {ops : List Op}
    (hops : ∀ op ∈ ops, op.Regular L) (hcut : f.CutOff ops) :
    ∀ c ∈ ((fleet P).run f ops).consumers, Tracking past c := by
  rcases hcut with hsilent | ⟨hdown, hheal⟩
  · have hrun : Sound L ((fleet P).run f ops) (past ++ (fleet P).journal f ops) :=
      (fleet P).invariant (fun _ _ _ hop hf => hf.step hL hop) ops f past hops hf
    rw [journal_silent P f hsilent, List.append_nil] at hrun
    exact hrun.tracking
  · have hstep : ∀ f (_ : List Heartbeat) op, op ≠ .partition false → Down past f →
        Down past ((fleet P).next f op) := fun _ _ _ hop hd => hd.step hop
    have hdowns : Down past ((fleet P).run f ops) :=
      (fleet P).invariant hstep ops f [] (fun op hop he => hheal (he ▸ hop))
        ⟨hdown, hf.tracking⟩
    exact hdowns.tracking

/-- **Presence does not outlive a cut by more than a lease.** In every run of a fleet whose leases are
at most `L`: once no replica issues, or once the gateway is down, no consumer is fresh from a lease
later on, whatever hints it hears, whatever it refetches, and if it connected in the meantime. -/
theorem presence_expires (P : Platform) (hL : L ≤ MAX_LEASE) {clock : FakeClock}
    (hyear : 1000 ≤ clock.wall.year) {before after : List Op}
    (hops : ∀ op ∈ before ++ after, op.Regular L) :
    let f := (fleet P).run (start clock) before
    let f' := (fleet P).run (start clock) (before ++ after)
    f.CutOff after → f.clock.now + L ≤ f'.clock.now →
      ∀ c ∈ f'.consumers, c.isFresh f'.clock.now = false := by
  intro f f' hcut hlate c hc
  obtain ⟨hbefore, hafter⟩ := List.forall_mem_append.mp hops
  have hf : Sound L f _ := sound_fleet P hL hyear hbefore
  have hrun : f' = (fleet P).run f after := Machine.run_append ..
  rw [hrun] at hc
  have htrack := tracking_cutOff P hf hL hafter hcut c hc
  unfold HeartbeatConsumer.isFresh
  cases hheld : c.held with
  | none => rfl
  | some h =>
    obtain ⟨g, hg, rfl⟩ := htrack.held h hheld
    obtain ⟨-, -, hlease, hpast⟩ := hf.published g hg
    have hcutoff : g.toMillis.expiresAt.instant ≤ g.expiresAt.instant := by
      show g.expiresAt.toMillis.instant ≤ _
      rw [Datetime.toMillis_instant]
      omega
    have hover : g.toMillis.remaining f'.clock.now ≤ 0 := by
      show g.toMillis.expiresAt.instant - f'.clock.now ≤ 0
      omega
    simp only [Option.any_some, Heartbeat.isFresh, decide_eq_false_iff_not]
    omega

/-- The first consumer refetched, and the gateway went down. -/
def cutBefore : List Op := turns ++ [.refetch 0, .partition true]

/-- The replicas go on, and the consumer goes on trying, for longer than a lease. -/
def cutAfter : List Op :=
  [.advance (10 * second), .beat 0, .refetch 0, .hint 0 none, .connect, .advance (21 * second),
    .refetch 1]

theorem cut_regular : ∀ op ∈ cutBefore ++ cutAfter, op.Regular (30 * second) := by
  intro op hop
  simp only [cutBefore, cutAfter, turns, List.cons_append, List.nil_append,
    List.mem_cons, List.not_mem_nil, or_false] at hop
  obtain rfl | rfl | hop := hop
  · exact ⟨by decide +kernel, by decide, le_rfl⟩
  · exact ⟨by decide +kernel, by decide, le_rfl⟩
  · obtain rfl | rfl | rfl | rfl | rfl | rfl | rfl | rfl | rfl | rfl | rfl := hop <;> trivial

theorem presence_expires_cut :
    let f' := (fleet plainPlatform).run (start { wall := newYearMoment }) (cutBefore ++ cutAfter)
    ∀ c ∈ f'.consumers, c.isFresh f'.clock.now = false :=
  presence_expires plainPlatform (by decide) (by decide +kernel) cut_regular
    (Or.inr ⟨rfl, by simp [cutAfter]⟩) (by decide +kernel)

/-! ## Where a consumer ends -/

/-- The lease that a refetch of this consumer reads, if it is timely. -/
def timelyRead (f : Fleet) (k : ℕ) : Option Heartbeat :=
  if f.consumers[k]?.isNone ∨ f.gateway.unreachable = true then none
  else match f.gateway.route.1 with
    | .error _ => none
    | .ok i =>
      if checkFreshness (f.pool i).current.toMillis f.clock.now DEFAULT_MAX_SKEW = none then
        some (f.pool i).current.toMillis
      else none

/-- The fleet again; the journal is the timely leases one consumer reads. -/
def reader (P : Platform) (k : ℕ) : Machine Fleet Op Heartbeat where
  next := Fleet.next P
  entry
    | f, .refetch k' => if k' = k then f.timelyRead k else none
    | _, _ => none

/-- A refetch that is answered is one delivery. -/
theorem refetch_delivers (P : Platform) (c : HeartbeatConsumer) (d : Json) (now : ℤ) :
    (c.refetch P none (.ok { document := d }) now).2.state =
      (lineage P).next c.state ⟨d, now, c.maxSkew⟩ := by
  have hrefetch : c.refetch P none (.ok { document := d }) now =
      (c.responded none now).reconcile P none d now := rfl
  have hnext : (lineage P).next c.state ⟨d, now, c.maxSkew⟩ =
      c.state.after (admitDocument P c.state d now c.maxSkew) := rfl
  rw [hrefetch, hnext]
  rcases reconcile_cases P (c.responded none now) none d now with
    ⟨a, v, ha, hrec, -⟩ | ⟨e, he, hrec⟩
  · have ha' : admitDocument P c.state d now c.maxSkew = .ok a := ha
    rw [hrec, ha']
    rfl
  · have he' : admitDocument P c.state d now c.maxSkew = .error e := he
    rw [hrec, he']
    rfl

/-- What a consumer holds after the timely leases it read. -/
structure Settles (k : ℕ) (f : Fleet) (seen : List Heartbeat) : Prop where
  absent : f.consumers[k]? = none → seen = []
  settled : ∀ c, f.consumers[k]? = some c →
    Register.Settled Heartbeat.bootId Rises seen c.state.register

/-- The consumer is as it was. -/
theorem Settles.of_same {k : ℕ} {f' : Fleet} {seen : List Heartbeat} (hs : Settles k f seen)
    (hsame : f'.consumers[k]?.map (·.state) = f.consumers[k]?.map (·.state)) :
    Settles k f' seen where
  absent hnone := by
    rw [hnone, Option.map_none] at hsame
    exact hs.absent (Option.map_eq_none_iff.mp hsame.symm)
  settled c' hc' := by
    rw [hc', Option.map_some] at hsame
    obtain ⟨c, hc, hstate⟩ := Option.map_eq_some_iff.mp hsame.symm
    rw [← hstate]
    exact hs.settled c hc

/-- Another consumer is replaced, or this one by one in the same state. -/
theorem Settles.replace {k k' : ℕ} {gateway : Gateway f.size} {seen : List Heartbeat}
    {c' : HeartbeatConsumer} (hs : Settles k f seen) (hk' : f.consumers[k']? = some c)
    (hsame : k' = k → c'.state = c.state) :
    Settles k { f with gateway, consumers := f.consumers.set k' c' } seen := by
  apply hs.of_same
  dsimp only
  by_cases hk : k' = k
  · subst hk
    have hlt : k' < f.consumers.length := (List.getElem?_eq_some_iff.mp hk').1
    rw [List.getElem?_set_self hlt, hk', Option.map_some, Option.map_some, hsame rfl]
  · rw [List.getElem?_set_ne hk]

/-- What a consumer reads that reaches a replica, as a delivery. -/
theorem timelyRead_reached {k : ℕ} {i : Fin f.size} (hf : Sound L f past)
    (hreach : f.Reaches k c i) : f.timelyRead k =
      Call.timely? PARTICIPANT ⟨(f.pool i).document P, f.clock.now, DEFAULT_MAX_SKEW⟩ := by
  have hnode : (f.pool i).current.toMillis.nodeId = some PARTICIPANT :=
    (hf.published _ (hf.running i).mem).issued.node
  have hopen : ¬ (f.consumers[k]?.isNone = true ∨ f.gateway.unreachable = true) := by
    simp [hreach.consumer, hreach.reachable]
  rw [timelyRead, if_neg hopen, hreach.routed]
  dsimp only
  split_ifs with hfresh
  · have hread := (@timely?_eq_some ⟨(f.pool i).document P, f.clock.now, DEFAULT_MAX_SKEW⟩
      (f.pool i).current.toMillis PARTICIPANT).mpr ⟨hf.reads P i, hnode, hfresh⟩
    exact hread.symm
  · symm
    rw [Option.eq_none_iff_forall_not_mem]
    intro h hh
    obtain ⟨hr, -, hnow⟩ := timely?_eq_some.mp hh
    obtain rfl := hr.unique (hf.reads P i)
    exact hfresh hnow

/-- Without an answer nothing is read. -/
theorem timelyRead_unanswered {k : ℕ} {name : Str}
    (hfetch : (f.gateway.fetch P f.pool).1 = .error name) : f.timelyRead k = none := by
  unfold timelyRead
  split_ifs with hu
  · rfl
  · cases hi : f.gateway.route.1 with
    | error e => rfl
    | ok i =>
      have hup : f.gateway.unreachable = false := by simpa using fun h => hu (Or.inr h)
      cases (fetch_reached hup hi).symm.trans hfetch

/-- A refetch of the consumer. -/
theorem Settles.refetch {k : ℕ} {seen : List Heartbeat} (hf : Sound L f past)
    (hs : Settles k f seen) :
    Settles k (f.next P (.refetch k)) (seen ++ (f.timelyRead k).toList) := by
  simp only [Fleet.next, Fleet.refetch]
  cases hk : f.consumers[k]? with
  | none => simpa [timelyRead, hk] using hs
  | some c =>
    have hc := hf.tracking c (List.mem_of_getElem? hk)
    have hskew : c.maxSkew = DEFAULT_MAX_SKEW := congrArg (fun s => s.2.1) hc.settings
    have hlt : k < f.consumers.length := (List.getElem?_eq_some_iff.mp hk).1
    cases hfetch : (f.gateway.fetch P f.pool).1 with
    | error name =>
      obtain ⟨-, hsame⟩ := refetch_raised P c none name f.clock.now
      rw [timelyRead_unanswered hfetch, Option.toList_none, List.append_nil]
      exact hs.replace hk fun _ => hsame
    | ok result =>
      obtain ⟨i, hu, hi, rfl⟩ := fetch_ok hfetch
      rw [timelyRead_reached (P := P) hf ⟨hk, hu, hi⟩]
      refine ⟨fun hnone => ?_, fun c' hc' => ?_⟩
      · dsimp only at hnone
        rw [List.getElem?_set_self hlt] at hnone
        cases hnone
      · dsimp only at hc'
        rw [List.getElem?_set_self hlt] at hc'
        obtain rfl := Option.some.inj hc'
        rw [refetch_delivers, hskew]
        exact settled_step hc.tracked (hs.settled c hk)

/-- **Every operation keeps the closed form.** -/
theorem Settles.step {k : ℕ} {seen : List Heartbeat} (hf : Sound L f past) (hs : Settles k f seen)
    (op : Op) :
    Settles k ((reader P k).next f op) (seen ++ ((reader P k).entry f op).toList) := by
  cases op with
  | refetch k' =>
    by_cases hk : k' = k
    · subst hk
      simpa [reader] using hs.refetch (P := P) hf
    · have hentry : (reader P k).entry f (.refetch k') = none := if_neg hk
      rw [hentry, Option.toList_none, List.append_nil]
      simp only [reader, Fleet.next, Fleet.refetch]
      cases hk' : f.consumers[k']? with
      | none => exact hs
      | some c => exact hs.replace hk' fun h => absurd h hk
  | hint k' hint =>
    simp only [reader, Fleet.next, Option.toList_none, List.append_nil]
    cases hk' : f.consumers[k']? with
    | none => exact hs
    | some c => exact hs.replace hk' fun _ => (onHint_effect P c hint).2
  | connect =>
    simp only [reader, Fleet.next, Option.toList_none, List.append_nil]
    by_cases hlt : k < f.consumers.length
    · exact hs.of_same (by simp [List.getElem?_append_left hlt])
    · have hnil := hs.absent (List.getElem?_eq_none (not_lt.mp hlt))
      refine ⟨fun _ => hnil, fun c hc => ?_⟩
      dsimp only at hc
      obtain rfl : c = newConsumer := by
        simpa using List.mem_of_getElem? ((List.getElem?_append_right (not_lt.mp hlt)).symm.trans hc)
      have hempty : newConsumer.state.register = Register.empty :=
        LineageState.register_start PARTICIPANT
      rw [hnil, hempty]
      exact Register.settled_empty
  | advance seconds =>
    simp only [reader, Fleet.next, Option.toList_none, List.append_nil]
    cases f.clock.advance seconds <;> exact hs.of_same rfl
  | spawn epochId token lease =>
    simp only [reader, Fleet.next, Option.toList_none, List.append_nil]
    cases Replica.init epochId token f.clock.wall lease <;> exact hs.of_same rfl
  | beat i =>
    simp only [reader, Fleet.next, Option.toList_none, List.append_nil]
    cases f.replica? i <;> exact hs.of_same rfl
  | assign is =>
    simp only [reader, Fleet.next, Option.toList_none, List.append_nil]
    cases is.mapM f.replica? <;> exact hs.of_same rfl
  | pin target =>
    simp only [reader, Option.toList_none, List.append_nil]
    cases target with
    | none => exact hs.of_same rfl
    | some i =>
      simp only [Fleet.next]
      cases f.replica? i <;> exact hs.of_same rfl
  | partition unreachable =>
    simp only [reader, Fleet.next, Option.toList_none, List.append_nil]
    exact hs.of_same rfl

/-- **Where a consumer ends.** In every run of a fleet, with twins or without, a consumer has left
exactly the epochs of the timely leases it read. It holds one of them: of the epoch that it reached
last for the first time, and no lease of that epoch which it read is above it. -/
theorem consumer_settles (P : Platform) {clock : FakeClock} (hyear : 1000 ≤ clock.wall.year)
    {ops : List Op} (hops : ∀ op ∈ ops, op.Regular MAX_LEASE) (k : ℕ) (c : HeartbeatConsumer) :
    let f := (fleet P).run (start clock) ops
    let seen := (reader P k).journal (start clock) ops
    f.consumers[k]? = some c →
      (∀ e, e ∈ c.state.retiredEpochs ↔ ∃ g ∈ seen, g.bootId = e) ∧ (c.held = none → seen = []) ∧
      ∀ h, c.held = some h → h ∈ seen ∧ (∀ g ∈ seen, g.bootId = h.bootId → ¬ Rises h g) ∧
        Register.OpenedLast Heartbeat.bootId seen h.bootId := by
  intro f seen hk
  have hstep : ∀ f seen op, op.Regular MAX_LEASE →
      (∃ past, Sound MAX_LEASE f past) ∧ Settles k f seen →
      (∃ past, Sound MAX_LEASE ((reader P k).next f op) past) ∧
        Settles k ((reader P k).next f op) (seen ++ ((reader P k).entry f op).toList) := by
    rintro f seen op hop ⟨⟨past, hf⟩, hs⟩
    exact ⟨⟨_, hf.step le_rfl hop⟩, hs.step hf op⟩
  have hstart : Settles k (start clock) [] := ⟨fun _ => rfl, fun c hc => by cases hc⟩
  have hrun := ((reader P k).invariant hstep ops (start clock) [] hops
    ⟨⟨[], sound_start hyear⟩, hstart⟩).2
  have hsettled := hrun.settled c hk
  refine ⟨fun e => ?_, hsettled.none, fun h hh => ⟨hsettled.mem h hh, hsettled.top h hh,
    hsettled.last h hh⟩⟩
  exact Set.ext_iff.mp hsettled.retired e

/-- The two replicas answer in turn, and the first one once more. -/
theorem consumer_settles_turns :
    let ops : List Op := turns ++ [.refetch 0, .refetch 0, .refetch 0]
    let f := (fleet plainPlatform).run (start { wall := newYearMoment }) ops
    let seen := (reader plainPlatform 0).journal (start { wall := newYearMoment }) ops
    let c := (f.consumers[0]?).getD newConsumer
    (∀ e, e ∈ c.state.retiredEpochs ↔ ∃ g ∈ seen, g.bootId = e) ∧ (c.held = none → seen = []) ∧
      ∀ h, c.held = some h → h ∈ seen ∧ (∀ g ∈ seen, g.bootId = h.bootId → ¬ Rises h g) ∧
        Register.OpenedLast Heartbeat.bootId seen h.bootId :=
  consumer_settles plainPlatform (by decide +kernel)
    (List.forall_mem_append.mpr ⟨turns_regular, by simp [Op.Regular]⟩) 0 _
    (some_getD (by decide +kernel))

end Fleet

end McpHeartbeat
