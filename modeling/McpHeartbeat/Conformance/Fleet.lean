import Mathlib.Data.Fin.Tuple.Basic
import McpHeartbeat.Cleanroom.Interop
import McpHeartbeat.Core.Clock
import McpHeartbeat.Current.Refetch

/-!
# A fleet behind a gateway

Replicas share one participant id, and each has an epoch and a counter of its own. A gateway answers
from whichever replica it picks, and consumers refetch through it.

* `Replica`, `Gateway`, `Fleet`, `Op`, `fleet`: replicas are started and beat, the gateway is pointed
  at them, cut off and healed, and consumers connect, hear hints and refetch, in any order;
* `Running`, `Behind`, `Tracking`, `Sound`: the invariant of a run; `Sound.issue`, `Sound.fetched`;
* **`sound_fleet`**: every fleet that is reached is sound.
-/

namespace McpHeartbeat

open Base

/-! ## Replicas -/

namespace Fleet

/-- The participant of the fleet. -/
def PARTICIPANT : Str := py "svc/api-7"

end Fleet

open Fleet

/-- One serving process: its own epoch, its own counter. -/
structure Replica where
  epochId : Str
  issuer : HeartbeatIssuer
  current : Heartbeat

namespace Replica

/-- `Replica.__init__`; `token` is what `mint_epoch_id()` returns if it is called. -/
def init (epochId token : Str) (now : Datetime) (lease : ℤ) : Except Error Replica :=
  match (HeartbeatIssuer.init PARTICIPANT (some epochId) token lease []).issue now with
  | (.ok current, issuer) => .ok { epochId, issuer, current }
  | (.error e, _) => .error e

/-- `Replica.beat`: advance this replica's own lease and return the document. -/
def beat (P : Platform) (r : Replica) (now : Datetime) : Except Error Json × Replica :=
  match r.issuer.issue now with
  | (.ok current, issuer) => (.ok (current.toDict P), { r with issuer, current })
  | (.error e, issuer) => (.error e, { r with issuer })

/-- `Replica.document`. -/
def document (P : Platform) (r : Replica) : Json := r.current.toDict P

end Replica

/-! ## The gateway -/

/-- A front end for the first `n` replicas; what it keeps are references to them. -/
structure Gateway (n : ℕ) where
  replicas : List (Fin n) := []
  cursor : ℕ := 0
  unreachable : Bool := false
  pinned : Option (Fin n) := none
  served : List Str := []

namespace Gateway

variable {n : ℕ}

/-- `Gateway.route`: the pinned replica, or the next one in turn. -/
def route (g : Gateway n) : Except Str (Fin n) × Gateway n :=
  match g.pinned with
  | some i => (.ok i, g)
  | none =>
    match g.replicas[g.cursor % g.replicas.length]? with
    | some i => (.ok i, { g with cursor := g.cursor + 1 })
    | none => (.error (py "ZeroDivisionError"), g)

/-- `Gateway.fetch`. -/
def fetch (P : Platform) (pool : Fin n → Replica) (g : Gateway n) :
    Except Str FetchResult × Gateway n :=
  if g.unreachable then (.error (py "ConnectionError"), g)
  else match g.route with
    | (.error name, g) => (.error name, g)
    | (.ok i, g) =>
      (.ok { document := (pool i).document P },
        { g with served := g.served ++ [(pool i).epochId] })

/-- The same gateway, where there is one more replica. -/
def widen (g : Gateway n) : Gateway (n + 1) :=
  { g with replicas := g.replicas.map Fin.castSucc, pinned := g.pinned.map Fin.castSucc }

end Gateway

/-! ## The fleet -/

/-- Replicas, their gateway and its consumers, on one clock. -/
structure Fleet where
  clock : FakeClock
  size : ℕ := 0
  pool : Fin size → Replica
  gateway : Gateway size
  consumers : List HeartbeatConsumer

namespace Fleet

/-- `_consumer`. -/
def newConsumer : HeartbeatConsumer := .init PARTICIPANT DEFAULT_MAX_SKEW (1 / 2) 60

/-- There is no replica and no consumer yet. -/
def start (clock : FakeClock) : Fleet where
  clock
  pool := Fin.elim0
  gateway := {}
  consumers := []

/-- One more replica. -/
def spawned (f : Fleet) (r : Replica) : Fleet where
  clock := f.clock
  size := f.size + 1
  pool := Fin.snoc (α := fun _ => Replica) f.pool r
  gateway := f.gateway.widen
  consumers := f.consumers

/-- The replica of this number, if there is one. -/
def replica? (f : Fleet) (i : ℕ) : Option (Fin f.size) := if h : i < f.size then some ⟨i, h⟩ else none

/-- The consumer of this number refetches; nothing happens if there is none. -/
def refetch (P : Platform) (f : Fleet) (k : ℕ) :
    Option (Except Raised ConvergenceVerdict) × Fleet :=
  match f.consumers[k]? with
  | none => (none, f)
  | some c =>
    let (fetched, gateway) := f.gateway.fetch P f.pool
    let (answer, c) := c.refetch P none fetched f.clock.now
    (some answer, { f with gateway, consumers := f.consumers.set k c })

end Fleet

/-- What can happen to a fleet. -/
inductive Op
  | advance (seconds : ℤ)
  | spawn (epochId token : Str) (lease : ℤ)
  | beat (replica : ℕ)
  | assign (replicas : List ℕ)
  | pin (replica : Option ℕ)
  | partition (unreachable : Bool)
  | connect
  | hint (consumer : ℕ) (hint : Option ChangeHint)
  | refetch (consumer : ℕ)

namespace Fleet

/-- One operation; what raises leaves the fleet as it is. -/
def next (P : Platform) (f : Fleet) : Op → Fleet
  | .advance seconds =>
    match f.clock.advance seconds with
    | .ok clock => { f with clock }
    | .error _ => f
  | .spawn epochId token lease =>
    match Replica.init epochId token f.clock.wall lease with
    | .ok r => f.spawned r
    | .error _ => f
  | .beat i =>
    match f.replica? i with
    | some i => { f with pool := Function.update f.pool i ((f.pool i).beat P f.clock.wall).2 }
    | none => f
  | .assign is =>
    match is.mapM f.replica? with
    | some replicas => { f with gateway := { f.gateway with replicas } }
    | none => f
  | .pin none => { f with gateway := { f.gateway with pinned := none } }
  | .pin (some i) =>
    match f.replica? i with
    | some i => { f with gateway := { f.gateway with pinned := some i } }
    | none => f
  | .partition unreachable => { f with gateway := { f.gateway with unreachable } }
  | .connect => { f with consumers := f.consumers ++ [newConsumer] }
  | .hint k hint =>
    match f.consumers[k]? with
    | some c => { f with consumers := f.consumers.set k (c.onHint P hint).2 }
    | none => f
  | .refetch k => (f.refetch P k).2

/-- The heartbeat an operation issues. -/
def issued? (f : Fleet) : Op → Option Heartbeat
  | .spawn epochId token lease =>
    (Replica.init epochId token f.clock.wall lease).toOption.map Replica.current
  | .beat i => (f.replica? i).bind fun i => ((f.pool i).issuer.issue f.clock.wall).1.toOption
  | _ => none

end Fleet

/-- A fleet; the journal is the heartbeats its replicas issue. -/
def fleet (P : Platform) : Machine Fleet Op Heartbeat where
  next := Fleet.next P
  entry := Fleet.issued?

/-- What is asked of an operation: a replica starts in an epoch of the pattern, with a lease from a
millisecond to `L`. -/
def Op.Regular (L : ℤ) : Op → Prop
  | .spawn epochId token lease =>
    idWord "._-" 127 (HeartbeatIssuer.epochOr (some epochId) token) = true ∧ 1000 ≤ lease ∧ lease ≤ L
  | _ => True

/-! ## The invariant -/

namespace Fleet

variable {P : Platform} {L : ℤ} {f : Fleet} {r : Replica} {past : List Heartbeat}
  {c : HeartbeatConsumer} {g h : Heartbeat}

/-- A replica that was started in a regular way; its lease is among those that were issued. -/
structure Running (L : ℤ) (past : List Heartbeat) (r : Replica) : Prop where
  regular : r.issuer.Regular PARTICIPANT
  lease : r.issuer.lease ≤ L
  plain : r.issuer.extensions = []
  boot : r.current.bootId = some r.issuer.epochId
  seq : ∃ n : ℤ, r.current.sequence = some n ∧ n < r.issuer.nextSequence
  mem : r.current ∈ past

/-- A heartbeat that was issued by now. -/
structure Published (L now : ℤ) (g : Heartbeat) : Prop where
  issued : Issued PARTICIPANT g
  plain : g.extensions = []
  lease : g.expiresAt.instant ≤ g.issuedAt.instant + L
  past : g.issuedAt.instant ≤ now

/-- The replica has issued `g`, or one of its epoch that is above `g`. -/
def Behind (g : Heartbeat) (r : Replica) : Prop :=
  g.bootId = r.current.bootId ∧ (g = r.current ∨ Rises g r.current)

/-- A consumer with the default parameters, that holds what was issued. -/
structure Tracking (past : List Heartbeat) (c : HeartbeatConsumer) : Prop where
  settings : c.settings = newConsumer.settings
  tracked : c.state.participantId = PARTICIPANT
  held : ∀ h, c.held = some h → ∃ g ∈ past, h = g.toMillis

/-- What every fleet that is reached satisfies. -/
structure Sound (L : ℤ) (f : Fleet) (past : List Heartbeat) : Prop where
  year : 1000 ≤ f.clock.wall.year
  running : ∀ i, Running L past (f.pool i)
  published : ∀ g ∈ past, Published L f.clock.now g
  behind : ∀ g ∈ past, ∃ i, Behind g (f.pool i)
  tracking : ∀ c ∈ f.consumers, Tracking past c

theorem sound_start {clock : FakeClock} (hyear : 1000 ≤ clock.wall.year) :
    Sound L (start clock) [] where
  year := hyear
  running i := i.elim0
  published := by simp
  behind := by simp
  tracking := by simp [start]

theorem Running.mono {past' : List Heartbeat} (hr : Running L past r)
    (hsub : ∀ g ∈ past, g ∈ past') : Running L past' r :=
  { hr with mem := hsub _ hr.mem }

theorem Tracking.mono {past' : List Heartbeat} (hc : Tracking past c)
    (hsub : ∀ g ∈ past, g ∈ past') : Tracking past' c where
  settings := hc.settings
  tracked := hc.tracked
  held h hh := by
    obtain ⟨g, hg, he⟩ := hc.held h hh
    exact ⟨g, hsub g hg, he⟩

/-- What a regular issuer issues, and the replica that keeps it. -/
theorem issue_running {s s' : HeartbeatIssuer} {now : Datetime}
    (hs : s.Regular PARTICIPANT) (hlease : s.lease ≤ L) (hplain : s.extensions = [])
    (hyear : 1000 ≤ now.year) (hi : s.issue now = (.ok h, s')) (epochId : Str) :
    Published L now.instant h ∧ Running L (past ++ [h]) ⟨epochId, s', h⟩ ∧
      h.bootId = some s.epochId ∧ h.sequence = some (s.nextSequence : ℤ) := by
  have hok : (s.issue now).1 = .ok h := by rw [hi]
  have hby := issue_ok hok
  obtain ⟨hissued, hat⟩ := hs.issued (by decide +kernel) hyear hok
  have hs' : s' = { s with nextSequence := s.nextSequence + 1 } := by
    rcases issue_cases s now with hno | ⟨g, hg, -⟩
    · cases hi.symm.trans hno
    · exact (Prod.mk.inj (hi.symm.trans hg)).2
  subst hs'
  refine ⟨⟨hissued, hby.extensions.trans hplain, ?_, by rw [hat]⟩,
    ⟨⟨hs.participant, hs.epoch, hs.lease, hs.namespaced⟩, hlease, hplain, hby.boot,
      ⟨_, hby.seq, by dsimp only; omega⟩, by simp⟩, hby.boot, hby.seq⟩
  rw [hby.expires, hat]
  omega

theorem Behind.mono {r' : Replica} (hb : Behind g r) (hboot : r'.current.bootId = r.current.bootId)
    (hrise : Rises r.current r'.current) : Behind g r' := by
  refine ⟨hb.1.trans hboot.symm, Or.inr ?_⟩
  rcases hb.2 with rfl | hg
  · exact hrise
  · exact IsTrans.trans _ _ _ hg hrise

/-- A later instant is of no earlier year. -/
theorem year_mono {t t' : Datetime} (h : t.instant ≤ t'.instant) : t.year ≤ t'.year := by
  apply ord2ymd_year_mono t.ordinal_bounds.1
  apply Nat.succ_le_succ
  apply Nat.div_le_div_right
  simp only [Datetime.instant] at h
  omega

/-- The clock is moved. -/
theorem Sound.advance (hf : Sound L f past) (seconds : ℤ) :
    Sound L (f.next P (.advance seconds)) past := by
  simp only [Fleet.next]
  cases hk : f.clock.advance seconds with
  | error e => exact hf
  | ok clock =>
    obtain ⟨hpos, -, hnow⟩ := FakeClock.advance_ok hk
    dsimp only
    refine { hf with year := ?_, published := fun g hg => ?_ }
    · have hle : f.clock.wall.instant ≤ clock.wall.instant := by
        simp only [FakeClock.now] at hnow
        omega
      exact hf.year.trans (year_mono hle)
    · obtain ⟨hi, hp, hl, ht⟩ := hf.published g hg
      exact ⟨hi, hp, hl, by dsimp only; omega⟩

/-- A heartbeat is issued by a replica of the fleet, which stays or is a new one. -/
theorem Sound.issue {f' : Fleet} (hf : Sound L f past) (hclock : f'.clock = f.clock)
    (hconsumers : f'.consumers = f.consumers) (hpub : Published L f.clock.now h)
    (hrunning : ∀ i, Running L (past ++ [h]) (f'.pool i))
    (hbehind : ∀ g ∈ past, (∃ i, Behind g (f.pool i)) → ∃ i, Behind g (f'.pool i))
    (hnew : ∃ i, (f'.pool i).current = h) : Sound L f' (past ++ [h]) where
  year := by rw [hclock]; exact hf.year
  running := hrunning
  published := by
    rw [hclock]
    exact List.forall_mem_append.mpr ⟨hf.published, by simpa using hpub⟩
  behind := by
    refine List.forall_mem_append.mpr ⟨fun g hg => hbehind g hg (hf.behind g hg), ?_⟩
    obtain ⟨i, hi⟩ := hnew
    simp only [List.mem_singleton, forall_eq]
    exact ⟨i, by rw [hi], Or.inl hi.symm⟩
  tracking := by
    rw [hconsumers]
    intro c hc
    exact (hf.tracking c hc).mono fun g hg => List.mem_append_left _ hg

/-- A replica is started. -/
theorem Sound.spawn {epochId token : Str} {lease : ℤ} (hL : L ≤ MAX_LEASE) (hf : Sound L f past)
    (hop : (Op.spawn epochId token lease).Regular L) :
    Sound L (f.next P (.spawn epochId token lease))
      (past ++ (f.issued? (.spawn epochId token lease)).toList) := by
  obtain ⟨hword, hlow, hhigh⟩ := hop
  have hregular : (HeartbeatIssuer.init PARTICIPANT (some epochId) token lease []).Regular
      PARTICIPANT := ⟨rfl, hword, ⟨hlow, hhigh.trans hL⟩, nofun⟩
  cases hi : (HeartbeatIssuer.init PARTICIPANT (some epochId) token lease []).issue f.clock.wall with
  | mk answer s =>
    cases answer with
    | error e => simpa [Fleet.next, Fleet.issued?, Replica.init, hi, Except.toOption] using hf
    | ok h =>
      obtain ⟨hpub, hrun, -, -⟩ : _ ∧ Running L (past ++ [h]) _ ∧ _ :=
        issue_running hregular hhigh rfl hf.year hi epochId
      simp only [Fleet.next, Fleet.issued?, Replica.init, hi, Except.toOption, Option.map_some,
        Option.toList_some]
      refine hf.issue rfl rfl hpub (fun i => ?_) (fun g _ hg => ?_) ⟨Fin.last _, ?_⟩
      · refine Fin.lastCases ?_ (fun i => ?_) i
        · simpa [spawned] using hrun
        · simpa [spawned] using (hf.running i).mono fun g hg => List.mem_append_left _ hg
      · obtain ⟨i, hb⟩ := hg
        exact ⟨i.castSucc, by simpa [spawned] using hb⟩
      · simp [spawned]

/-- A replica beats. -/
theorem Sound.beat (hf : Sound L f past) (i : ℕ) :
    Sound L (f.next P (.beat i)) (past ++ (f.issued? (.beat i)).toList) := by
  simp only [Fleet.next, Fleet.issued?]
  cases f.replica? i with
  | none => simpa using hf
  | some i =>
    have hr := hf.running i
    cases hi : (f.pool i).issuer.issue f.clock.wall with
    | mk answer s =>
      cases answer with
      | error e =>
        have hs : s = (f.pool i).issuer := by
          rcases issue_cases (f.pool i).issuer f.clock.wall with hno | ⟨g, hg, -⟩
          · exact (Prod.mk.inj (hi.symm.trans hno)).2
          · cases hi.symm.trans hg
        subst hs
        simpa [Replica.beat, hi, Except.toOption] using hf
      | ok h =>
        obtain ⟨hpub, hrun, hboot, hseq⟩ : _ ∧ Running L (past ++ [h]) _ ∧ _ :=
          issue_running hr.regular hr.lease hr.plain hf.year hi (f.pool i).epochId
        obtain ⟨n, hn, hlt⟩ := hr.seq
        simp only [Replica.beat, hi, Except.toOption, Option.bind_some, Option.toList_some]
        refine hf.issue rfl rfl hpub (fun j => ?_) (fun g _ hg => ?_) ⟨i, by simp⟩
        · by_cases hj : j = i
          · rw [hj]
            simpa using hrun
          · simpa [hj] using (hf.running j).mono fun g hg => List.mem_append_left _ hg
        · obtain ⟨j, hb⟩ := hg
          refine ⟨j, ?_⟩
          by_cases hj : j = i
          · rw [hj] at hb ⊢
            simpa using hb.mono (hboot.trans hr.boot.symm) ⟨n, _, hn, hseq, hlt⟩
          · simpa [hj] using hb

/-! ## What a consumer reads -/

/-- What the gateway answers is the document of the replica it routes to. -/
theorem fetch_ok {n : ℕ} {gateway : Gateway n} {pool : Fin n → Replica} {result : FetchResult}
    (h : (gateway.fetch P pool).1 = .ok result) :
    ∃ i, gateway.unreachable = false ∧ gateway.route.1 = .ok i ∧
      result = { document := (pool i).document P } := by
  unfold Gateway.fetch at h
  cases hu : gateway.unreachable with
  | true => simp [hu] at h
  | false =>
    cases hr : gateway.route with
    | mk target g =>
      cases target with
      | error name => simp [hu, hr] at h
      | ok i =>
        refine ⟨i, rfl, rfl, ?_⟩
        simpa [hu, hr] using h.symm

/-- The document of a replica reads as its current heartbeat in its milliseconds. -/
theorem Sound.reads (P : Platform) (hf : Sound L f past) (i : Fin f.size) :
    Reads ((f.pool i).document P) (f.pool i).current.toMillis :=
  (hf.published _ (hf.running i).mem).issued.reads P

theorem Tracking.of_state {c' : HeartbeatConsumer} (hc : Tracking past c)
    (hs : c'.settings = c.settings) (hstate : c'.state = c.state) : Tracking past c' where
  settings := hs.trans hc.settings
  tracked := by rw [hstate, hc.tracked]
  held := by
    unfold HeartbeatConsumer.held
    rw [hstate]
    exact hc.held

/-- A refetch through the gateway. -/
theorem Sound.fetched (hf : Sound L f past) (hc : Tracking past c) :
    Tracking past (c.refetch P none (f.gateway.fetch P f.pool).1 f.clock.now).2 := by
  obtain ⟨hs, hstate | ⟨result, binding, h, hok, -, -, hr, -, hstate⟩⟩ :=
    refetch_effect P c none (f.gateway.fetch P f.pool).1 f.clock.now
  · exact hc.of_state hs hstate
  · obtain ⟨i, -, -, rfl⟩ := fetch_ok hok
    refine ⟨hs.trans hc.settings, by rw [hstate]; exact hc.tracked, fun g hg => ?_⟩
    have hheld : some h = some g := by
      rw [← hg, HeartbeatConsumer.held, hstate]
      rfl
    obtain rfl := Option.some.inj hheld
    exact ⟨_, (hf.running i).mem, hr.unique (hf.reads P i)⟩

/-- A consumer is replaced. -/
theorem Sound.replace (hf : Sound L f past) (k : ℕ) (hc : Tracking past c) :
    ∀ c' ∈ f.consumers.set k c, Tracking past c' := by
  intro c' hc'
  rcases List.mem_or_eq_of_mem_set hc' with hc' | rfl
  · exact hf.tracking c' hc'
  · exact hc

/-- **Every operation keeps the invariant.** -/
theorem Sound.step {op : Op} (hL : L ≤ MAX_LEASE) (hop : op.Regular L) (hf : Sound L f past) :
    Sound L (f.next P op) (past ++ (f.issued? op).toList) := by
  cases op with
  | advance seconds => simpa [Fleet.issued?] using hf.advance seconds
  | spawn epochId token lease => exact hf.spawn hL hop
  | beat i => exact hf.beat i
  | assign is =>
    simp only [Fleet.next, Fleet.issued?, Option.toList_none, List.append_nil]
    cases is.mapM f.replica? with
    | none => exact hf
    | some replicas => exact { hf with }
  | pin target =>
    simp only [Fleet.issued?, Option.toList_none, List.append_nil]
    cases target with
    | none => exact { hf with }
    | some i =>
      simp only [Fleet.next]
      cases f.replica? i with
      | none => exact hf
      | some i => exact { hf with }
  | partition unreachable =>
    simp only [Fleet.next, Fleet.issued?, Option.toList_none, List.append_nil]
    exact { hf with }
  | connect =>
    simp only [Fleet.next, Fleet.issued?, Option.toList_none, List.append_nil]
    refine { hf with tracking := List.forall_mem_append.mpr ⟨hf.tracking, ?_⟩ }
    simp only [List.mem_singleton, forall_eq]
    exact ⟨rfl, rfl, fun h hh => by cases hh⟩
  | hint k hint =>
    simp only [Fleet.next, Fleet.issued?, Option.toList_none, List.append_nil]
    cases hk : f.consumers[k]? with
    | none => exact hf
    | some c =>
      obtain ⟨hs, hstate⟩ := onHint_effect P c hint
      have hc := (hf.tracking c (List.mem_of_getElem? hk)).of_state hs hstate
      exact { hf with tracking := hf.replace k hc }
  | refetch k =>
    simp only [Fleet.next, Fleet.issued?, Option.toList_none, List.append_nil, Fleet.refetch]
    cases hk : f.consumers[k]? with
    | none => exact hf
    | some c =>
      have hc := hf.fetched (P := P) (hf.tracking c (List.mem_of_getElem? hk))
      exact { hf with tracking := hf.replace k hc }

/-- **Every fleet that is reached is sound.** -/
theorem sound_fleet (P : Platform) {clock : FakeClock} {ops : List Op} (hL : L ≤ MAX_LEASE)
    (hyear : 1000 ≤ clock.wall.year) (hops : ∀ op ∈ ops, op.Regular L) :
    Sound L ((fleet P).run (start clock) ops) ((fleet P).journal (start clock) ops) := by
  have hstep : ∀ f past op, op.Regular L → Sound L f past →
      Sound L ((fleet P).next f op) (past ++ ((fleet P).entry f op).toList) :=
    fun _ _ _ hop hf => hf.step hL hop
  exact (fleet P).invariant hstep ops (start clock) [] hops (sound_start hyear)

end Fleet

end McpHeartbeat
