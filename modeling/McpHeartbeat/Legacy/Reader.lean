import McpHeartbeat.Core.Digest
import McpHeartbeat.Legacy.Bilateral
import McpHeartbeat.Legacy.Resources

/-!
# A consumer over a session that is being negotiated

* `ReaderCall`, `reader`: a consumer and its session, as one party;
* `reading`: that party and a server, over a channel that loses, duplicates, delays and reorders;
* `refetch_cases`: what one fetch can do to a consumer;
* `agreeing_reading`: what both sessions agree on, whatever is fetched in between;
* **`held_only_if_agreed`**: a lease that is held was agreed on by both sides.
-/

namespace McpHeartbeat.Legacy

open Base

/-- One call on a consumer, or on its session. -/
inductive ReaderCall
  | session (call : ClientCall)
  | refetch (fetched : Except Str Json) (now : ℤ) (hint : Option LegacyHint)

/-- The call that a session sees. -/
def ReaderCall.call? : ReaderCall → Option ClientCall
  | .session call => some call
  | .refetch .. => none

section

variable (P : Platform) (repr : Json → Str)

/-- A consumer that shares its session with whoever negotiates it. The journal is what the session
puts on the wire. -/
def reader : Machine LegacyHeartbeatConsumer ReaderCall Message where
  next c
    | .session call => { c with session := (client repr).next c.session call }
    | .refetch fetched now hint => (c.refetch P repr fetched now hint).2
  entry c
    | .session call => (client repr).entry c.session call
    | .refetch .. => none

/-- A consumer and a server. -/
def reading : Link LegacyHeartbeatConsumer LegacyServerSession ReaderCall Call Message Members where
  left := reader P repr
  right := answerer repr
  toLeft i := i.call?.bind ClientCall.consumed
  toRight := (connection repr).toRight

end

variable {P : Platform} {repr : Json → Str} {c : LegacyHeartbeatConsumer}
  {s : LegacyServerSession} {j : Joint LegacyHeartbeatConsumer LegacyServerSession Message Members}

/-- A fetch leaves a consumer as it is, or finds its session ready and keeps the session. -/
theorem refetch_cases (P : Platform) (repr : Json → Str) (c : LegacyHeartbeatConsumer)
    (fetched : Except Str Json) (now : ℤ) (hint : Option LegacyHint) :
    (c.refetch P repr fetched now hint).2 = c ∨
      (c.session.heartbeatReady = true ∧
        (c.refetch P repr fetched now hint).2.session = c.session) := by
  by_cases hready : c.session.heartbeatReady = true
  · refine Or.inr ⟨hready, ?_⟩
    unfold LegacyHeartbeatConsumer.refetch
    dsimp only
    rw [hready]
    cases fetched with
    | error name => rfl
    | ok document =>
      dsimp only
      cases admitDocument P c.state document now DEFAULT_MAX_SKEW with
      | error e => rfl
      | ok outcome =>
        dsimp only
        cases c.evidence (c.claimed repr document)
            (LegacyHeartbeatConsumer.claimedEpoch repr document) with
        | error e => rfl
        | ok evidence =>
          dsimp only
          split_ifs
          all_goals cases c.corroborate P outcome hint <;> rfl
  · refine Or.inl ?_
    unfold LegacyHeartbeatConsumer.refetch
    dsimp only
    rw [Bool.eq_false_iff.mpr hready]
    rfl

theorem refetch_session (fetched : Except Str Json) (now : ℤ) (hint : Option LegacyHint) :
    (c.refetch P repr fetched now hint).2.session = c.session := by
  rcases refetch_cases P repr c fetched now hint with hsame | ⟨-, hsession⟩
  · rw [hsame]
  · exact hsession

/-- **Whatever is fetched in between, the two sessions agree.** -/
theorem agreeing_reading (hc : c.session.Owned) (hfresh : c.session.negotiatedEra = none)
    (hs : s.state = .created) (h : (reading P repr).Reachable c s j) :
    Agreeing repr c.session s.implemented { j with left := j.left.session } := by
  have hseen : (connection repr).Reachable c.session s { j with left := j.left.session } := by
    apply Link.project (client repr) LegacyHeartbeatConsumer.session ReaderCall.call? _ _ h
    · intro c i hi
      cases i with
      | session call => cases hi
      | refetch fetched now hint => exact ⟨refetch_session fetched now hint, rfl⟩
    · intro c i call hi
      cases i with
      | session call' =>
        obtain rfl := Option.some.inj hi
        exact ⟨rfl, rfl, rfl⟩
      | refetch fetched now hint => cases hi
  exact agreeing_reachable hc hfresh hs hseen

/-! ## What is held -/

/-- What a consumer keeps of its session: it is as it was built, or the extension was agreed on. -/
structure Kept (asked served : Prop) (c c' : LegacyHeartbeatConsumer) : Prop where
  era : c'.session.state = .initializing ∨ c'.session.state = .ready →
    c'.session.negotiatedEra ≠ none
  state : c'.state = c.state ∧ c'.uncorroboratedHints = c.uncorroboratedHints ∨
    c'.session.negotiatedEra ≠ none ∧ asked ∧ served

/-- A session that knows a revision goes on knowing one, and one that goes on knows one. -/
theorem next_era (repr : Json → Str) {s : LegacyClientSession} (hs : s.Owned)
    (hknown : s.state = .initializing ∨ s.state = .ready → s.negotiatedEra ≠ none)
    (call : ClientCall) :
    (((client repr).next s call).state = .initializing ∨ ((client repr).next s call).state = .ready →
      ((client repr).next s call).negotiatedEra ≠ none) ∧
      (s.negotiatedEra ≠ none → ((client repr).next s call).negotiatedEra ≠ none) := by
  cases call with
  | initializeRequest => exact ⟨hknown, id⟩
  | consumeInitializeResult result =>
    by_cases hmatch : s.Matches result
    · rw [next_match hs hmatch]
      exact ⟨fun _ => Option.some_ne_none _, fun _ => Option.some_ne_none _⟩
    · rw [next_mismatch hmatch]
      refine ⟨fun hstate => ?_, id⟩
      rcases hstate with hstate | hstate <;> cases hstate
  | initializedNotification =>
    by_cases hstate : s.state = .initializing
    · rw [next_confirm hstate]
      exact ⟨fun _ => hknown (Or.inl hstate), id⟩
    · rw [next_confirm_early hstate]
      exact ⟨hknown, id⟩

variable {served : Finset Str}

/-- A session that is ready for leases, among sessions that agree. -/
theorem Agreeing.ready_iff {l : LegacyClientSession} {k : Joint LegacyClientSession
    LegacyServerSession Message Members} (h : Agreeing repr l served k)
    (hknown : k.left.state = .ready → k.left.negotiatedEra ≠ none) :
    k.left.heartbeatReady = true ↔
      k.left.state = .ready ∧ l.requestHeartbeat = true ∧ AUTHORITATIVE_READ_METHOD ∈ served := by
  rw [LegacyClientSession.heartbeatReady, Bool.and_eq_true, decide_eq_true_eq]
  refine and_congr_right fun hstate => ?_
  rcases h.informed with hnone | ⟨-, hinformed⟩
  · exact absurd hnone (hknown hstate)
  · rw [hinformed.eraReport, ← h.asked]
    exact agreedTerms_supported

/-- **One step of either party keeps it.** -/
theorem kept_reachable (hc : c.session.Owned) (hfresh : c.session.negotiatedEra = none)
    (hcreated : c.session.state = .created) (hs : s.state = .created)
    (h : (reading P repr).Reachable c s j) :
    Kept (c.session.requestHeartbeat = true) (AUTHORITATIVE_READ_METHOD ∈ s.implemented)
      c j.left := by
  induction h with
  | refl =>
    refine ⟨fun hstate => ?_, Or.inl ⟨rfl, rfl⟩⟩
    rcases hstate with hstate | hstate <;> cases hcreated.symm.trans hstate
  | @tail j _ hreach step ih =>
    have hagree := agreeing_reading hc hfresh hs hreach
    cases step with
    | right k sent => exact ih
    | left i sent =>
      cases i with
      | session call =>
        have howned : j.left.session.Owned := by
          rw [LegacyClientSession.Owned, hagree.version]
          exact hc
        obtain ⟨hera, hknown⟩ := next_era repr howned ih.era call
        exact ⟨hera, ih.state.imp_right fun hkept => ⟨hknown hkept.1, hkept.2⟩⟩
      | refetch fetched now hint =>
        show Kept _ _ c (j.left.refetch P repr fetched now hint).2
        rcases refetch_cases P repr j.left fetched now hint with hsame | ⟨hready, hsession⟩
        · rw [hsame]
          exact ih
        · obtain ⟨hstate, hboth⟩ := (hagree.ready_iff fun h => ih.era (Or.inr h)).mp hready
          refine ⟨?_, Or.inr ⟨?_, hboth⟩⟩
          · rw [hsession]
            exact ih.era
          · rw [hsession]
            exact ih.era (Or.inr hstate)

/-- **A lease that is held was agreed on by both sides**, in any order of calls, fetches and
messages. A session is ready for leases if its handshake is over, the client asked for the extension
and the server serves the read; what a consumer holds has changed only where both sessions report
the same, and report the extension. -/
theorem held_only_if_agreed {clientName version serverName era : Str} {requestHeartbeat : Bool}
    {methods : Mapping Str Bool} {implemented : Finset Str}
    (hclient : LegacyClientSession.init repr clientName version requestHeartbeat = .ok c.session)
    (hserver : LegacyServerSession.init repr serverName methods implemented era = .ok s)
    (h : (reading P repr).Reachable c s j) :
    (j.left.session.heartbeatReady = true ↔ j.left.session.state = .ready ∧
      requestHeartbeat = true ∧
        (AUTHORITATIVE_READ_METHOD ∈ implemented ∨ AUTHORITATIVE_READ_METHOD ∈ methods)) ∧
    (j.left.state ≠ c.state ∨ j.left.uncorroboratedHints ≠ c.uncorroboratedHints →
      j.left.session.eraReport = j.right.eraReport ∧
        j.right.eraReport.heartbeatSupported = true) := by
  obtain ⟨howned, hsession⟩ := client_init hclient
  obtain ⟨himpl, hcreated, -, -⟩ := server_init hserver
  have hfresh : c.session.negotiatedEra = none := by rw [hsession]
  have hstart : c.session.state = .created := by rw [hsession]
  have hasked : c.session.requestHeartbeat = requestHeartbeat := by rw [hsession]
  have hversion : c.session.Owned := by
    rw [LegacyClientSession.Owned, hsession]
    exact howned
  have hagree := agreeing_reading hversion hfresh hcreated h
  have hkept := kept_reachable hversion hfresh hstart hcreated h
  have hregistry : AUTHORITATIVE_READ_METHOD ∈ s.implemented ↔
      AUTHORITATIVE_READ_METHOD ∈ implemented ∨ AUTHORITATIVE_READ_METHOD ∈ methods := by
    rw [himpl, Finset.mem_union, List.mem_toFinset]
    rfl
  constructor
  · rw [← hregistry, ← hasked]
    exact hagree.ready_iff fun hready => hkept.era (Or.inr hready)
  · intro hchanged
    rcases hkept.state with ⟨hstate, hcount⟩ | ⟨hknown, hboth⟩
    · exact absurd hchanged (not_or.mpr ⟨not_not.mpr hstate, not_not.mpr hcount⟩)
    · rcases hagree.informed with hnone | ⟨hgranted, hinformed⟩
      · exact absurd hnone hknown
      · have hleft := hinformed.eraReport
        have hright := hgranted.eraReport hversion
        rw [hagree.version, hagree.asked] at hleft
        rw [hagree.implemented] at hright
        refine ⟨hleft.trans hright.symm, ?_⟩
        rw [hright]
        exact agreedTerms_supported.mpr hboth

/-- A lease of thirty seconds. -/
def readLease : Json := beat (.int 0) "2026-01-01T00:00:00Z" "2026-01-01T00:00:30Z" []

/-- A consumer of `node`, on a session that asks for the extension. -/
def askingConsumer : LegacyHeartbeatConsumer where
  participantId := py "node"
  session := askingClient
  state := { participantId := py "node" }

theorem held_only_if_agreed_read :
    let L := reading plainPlatform fun _ => []
    let handler : Members → Except Str Json := fun _ => .ok .null
    let j₁ := L.moveLeft { left := askingConsumer, right := readSession }
      (.session .initializeRequest)
    let j₂ := L.moveRight j₁ ⟨INITIALIZE, some askingClient.request.2, handler⟩
    let j₃ := L.moveLeft j₂ (.session (.consumeInitializeResult (j₂.replies.headD [])))
    let j₄ := L.moveLeft j₃ (.session .initializedNotification)
    let j₅ := L.moveLeft j₄ (.refetch (.ok readLease) newYear none)
    j₅.left.state ≠ askingConsumer.state ∧ j₅.left.session.eraReport = j₅.right.eraReport ∧
      j₅.right.eraReport.heartbeatSupported = true := by
  intro L handler j₁ j₂ j₃ j₄ j₅
  have hclient : LegacyClientSession.init (fun _ => []) (py "client") LEGACY_ERA true =
      .ok askingConsumer.session := rfl
  have h₁ : L.Reachable askingConsumer readSession j₁ :=
    Relation.ReflTransGen.single (.left _ (by rintro m ⟨⟩))
  have h₂ : L.Reachable askingConsumer readSession j₂ := by
    refine h₁.tail (.right _ ?_)
    rintro m ⟨⟩
    exact List.mem_singleton.mpr rfl
  have h₃ : L.Reachable askingConsumer readSession j₃ := by
    refine h₂.tail (.left _ ?_)
    rintro result ⟨⟩
    exact List.mem_singleton.mpr rfl
  have h₅ : L.Reachable askingConsumer readSession j₅ :=
    (h₃.tail (.left _ (by rintro m ⟨⟩))).tail (.left _ (by rintro m ⟨⟩))
  have hchanged : j₅.left.state ≠ askingConsumer.state := by decide +kernel
  exact ⟨hchanged, (held_only_if_agreed hclient (init_readSession _) h₅).2 (Or.inl hchanged)⟩

end McpHeartbeat.Legacy
