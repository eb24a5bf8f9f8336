import McpHeartbeat.Current.Tenants

/-!
# What a shared server delivers

* **`tenants_isolated`**: a consumer is answered what it would be answered if it were alone;
* **`tenant_verdict`**: what it holds, and what a response makes of it;
* `held_refetched`, **`outcome_independent_exactly_when`**: what hints, polls and refetches before the
  last one decide.
-/

namespace McpHeartbeat

open Base Json

/-- **A participant on a shared server is a participant alone.** Whatever the other participants issue
and read, and in whatever order: over the SDK, a consumer is answered what it would be answered
beside its producer, and both are left in the same state. -/
theorem tenants_isolated (P : Platform) (sdk : Sdk) (negotiation : Negotiation)
    (hconn : Connected sdk negotiation) (factory : Str → Option BinderFactory)
    (consumers : Str → HeartbeatConsumer) (p : Str) (events : List (Str × Turn))
    (ho : Orderly sdk.decoder p events) :
    let shared := server P sdk negotiation factory
    let alone := tenant P p (factory p) (sdk.name (unpublished sdk p))
    let turns := events.filterMap (turnOf p)
    (shared.run (.start consumers) events).view p = alone.run { consumer := consumers p } turns ∧
      (shared.journal (.start consumers) events).filterMap (answerOf p) =
        alone.journal { consumer := consumers p } turns :=
  server_project hconn ho

theorem plainSdk_connected : Connected plainSdk plainNegotiation where
  addresses := plainSdk_addresses
  template := ⟨{}, rfl, rfl⟩

/-- Two participants, one of which issues and is read. -/
def crossing : List (Str × Turn) :=
  [(py "node", .act (.restart (some (py "a")) [] (30 * second) [])),
    (py "ns:svc/a+b", .act (.restart (some (py "b")) [] (30 * second) [])),
    (py "node", .act (.issue newYearMoment)),
    (py "ns:svc/a+b", .refetch (.ok none) newYear),
    (py "node", .refetch (.ok none) newYear)]

theorem crossing_regular : ∀ e ∈ crossing, e.2.Regular plainSdk.decoder := by
  have hyear : 1000 ≤ newYearMoment.year := by decide +kernel
  have ha : idWord "._-" 127 (HeartbeatIssuer.epochOr (some (py "a")) []) = true := by decide
  have hb : idWord "._-" 127 (HeartbeatIssuer.epochOr (some (py "b")) []) = true := by decide
  simp [crossing, Turn.Regular, Turn.act?, Act.Regular, Act.Extends, Sendable, hyear, ha, hb,
    MAX_LEASE, second]

theorem crossing_orderly : Orderly plainSdk.decoder (py "node") crossing where
  word := by decide
  regular e he _ := crossing_regular e he
  digits := by
    have hlt : crossing.length < plainSdk.decoder.maxStrDigits := by decide
    exact Or.inr (hlt.trans (Nat.lt_pow_self (by decide)))

/-- The heartbeat that is issued. -/
def crossingLease : Heartbeat where
  nodeId := some (py "node")
  bootId := some (py "a")
  sequence := some 0
  issuedAt := newYearMoment
  expiresAt := ⟨newYearMoment.instant.toNat + 30 * second, by decide +kernel⟩
  extensionVersion := EXTENSION_VERSION
  extensions := []

/-- A consumer that has not started, of every participant. -/
def beginners (p : Str) : HeartbeatConsumer := .init p DEFAULT_MAX_SKEW (1 / 2) 60

theorem tenants_isolated_crossing :
    let shared := server plainPlatform plainSdk plainNegotiation fun _ => none
    let alone := tenant plainPlatform (py "node") none
      (plainSdk.name (unpublished plainSdk (py "node")))
    let turns := crossing.filterMap (turnOf (py "node"))
    (shared.run (.start beginners) crossing).view (py "node") =
        alone.run { consumer := beginners (py "node") } turns ∧
      (shared.journal (.start beginners) crossing).filterMap (answerOf (py "node")) =
        alone.journal { consumer := beginners (py "node") } turns :=
  tenants_isolated plainPlatform plainSdk plainNegotiation plainSdk_connected (fun _ => none)
    beginners (py "node") crossing crossing_orderly

variable {P : Platform} {sdk : Sdk} {negotiation : Negotiation} {p : Str} {c₀ : HeartbeatConsumer}
  {hs : List Heartbeat} {h : Heartbeat} {s : Server} {now : ℤ}

/-! ## One response -/

/-- What is held was minted. -/
theorem Watching.minted {state : LineageState} (w : Watching Heartbeat.readAs hs state)
    {x : Heartbeat} (hx : state.held = some x) : ∃ g ∈ hs, x = g.readAs := by
  cases w with
  | idle held _ => cases held.symm.trans hx
  | holding before g after served held _ =>
    exact ⟨g, by rw [served]; simp, Option.some.inj (hx.symm.trans held)⟩

/-- What a consumer makes of the last heartbeat. -/
theorem Serves.judge (v : Serves P sdk negotiation p c₀ hs s) (hl : Ledger Heartbeat.bootId Rises hs)
    (hissued : ∀ h ∈ hs, Issued p h) (hlast : hs.getLast? = some h)
    (hext : (Json.obj h.extensions).WellFormed) (now : ℤ) (maxSkew : Option ℤ) :
    (s.consumers p).state.judge P h.readAs now maxSkew =
      .ok ((s.consumers p).state.follow h.readAs now maxSkew) := by
  have hi := hissued h (List.mem_of_getLast? hlast)
  exact v.watches.watching.again view_readAs hlast hl (hi.encodable_readAs P hext)
    (by rw [v.watches.participant, hi.node])

end McpHeartbeat
