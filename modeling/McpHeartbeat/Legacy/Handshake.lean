import McpHeartbeat.Legacy.Client

/-!
# The handshake of a client

* `next_created`, `created_run`: a client is created until it consumes a result;
* `Steady`: one request is sent, a refusal is final, and what was agreed on stays;
* `InTurn`: a condition on the calls of a run, and the states they are made in;
* **`steady_exactly_when`**: the two are the same; `steady_fails`: a client that is brought back.
-/

namespace McpHeartbeat.Legacy

open Base

namespace LegacyClientSession

variable (s s' : LegacyClientSession)

/-- A session that is out of the handshake, and carries no heartbeat. -/
def Refusing : Prop := s.state ≠ .initializing ∧ s.state ≠ .ready ∧ s.heartbeatReady = false

/-- The same state, era and heartbeat negotiation. -/
def SameTerms : Prop :=
  s'.state = s.state ∧ s'.negotiatedEra = s.negotiatedEra ∧ s'.heartbeat = s.heartbeat

/-- A result is consumed neither once the session is ready, nor, if it matches, once it failed. -/
def Awaits : ClientCall → Prop
  | .consumeInitializeResult result => s.state ≠ .ready ∧ (s.state = .failed → ¬ s.Matches result)
  | _ => True

end LegacyClientSession

variable (repr : Json → Str) (s : LegacyClientSession) (calls : List ClientCall)

/-- One request is sent, a refusal is final, and what was agreed on stays. -/
structure Steady : Prop where
  once : ((client repr).journal s calls).countP (fun m => m.1 = INITIALIZE) ≤ 1
  refused : ∀ pre later post, calls = pre ++ (later ++ post) →
    ((client repr).run s pre).state = .failed → ((client repr).run s (pre ++ later)).Refusing
  agreed : ∀ pre later post, calls = pre ++ (later ++ post) →
    ((client repr).run s pre).state = .ready →
      ((client repr).run s pre).SameTerms ((client repr).run s (pre ++ later))

/-- No second request before a result is consumed, and no result that is not awaited. -/
structure InTurn : Prop where
  request : ∀ pre post, calls = pre ++ .initializeRequest :: post →
    .initializeRequest ∈ pre → ∃ result, .consumeInitializeResult result ∈ pre
  consume : (client repr).Along LegacyClientSession.Awaits s calls

variable {repr s calls} {call : ClientCall}

/-! ## Before a result is consumed -/

/-- The revision that a client requests is one the adapter owns. -/
abbrev LegacyClientSession.Owned (s : LegacyClientSession) : Prop :=
  s.requestedProtocolVersion ∈ SUPPORTED_PROTOCOL_VERSIONS

theorem owned_run (repr : Json → Str) (h : s.Owned) (calls : List ClientCall) :
    ((client repr).run s calls).Owned := by
  apply (client repr).invariant_state _ h
  intro s call hs
  rw [LegacyClientSession.Owned, (next_settings repr call).1]
  exact hs

theorem next_created (h : s.Owned) : ((client repr).next s call).state = .created ↔
    s.state = .created ∧ ∀ result, call ≠ .consumeInitializeResult result := by
  cases call with
  | initializeRequest => exact ⟨fun hs => ⟨hs, fun _ => nofun⟩, fun hs => hs.1⟩
  | consumeInitializeResult result =>
    refine iff_of_false ?_ fun hs => hs.2 result rfl
    by_cases hmatch : s.Matches result
    · rw [next_match h hmatch]
      exact SessionState.noConfusion
    · rw [next_mismatch hmatch]
      exact SessionState.noConfusion
  | initializedNotification =>
    by_cases hstate : s.state = .initializing
    · rw [next_confirm hstate, hstate]
      exact iff_of_false SessionState.noConfusion fun hs => SessionState.noConfusion hs.1
    · rw [next_confirm_early hstate]
      exact ⟨fun hs => ⟨hs, fun _ => nofun⟩, fun hs => hs.1⟩

/-- **A client is created until it consumes a result.** -/
theorem created_run (h : s.Owned) (hs : s.state = .created) (calls : List ClientCall) :
    ((client repr).run s calls).state = .created ↔
      ∀ result, .consumeInitializeResult result ∉ calls := by
  induction calls using List.reverseRecOn with
  | nil => exact iff_of_true hs fun _ => List.not_mem_nil
  | append_singleton calls call ih =>
    rw [Machine.run_concat, next_created (owned_run repr h calls), ih]
    simp only [List.mem_append, List.mem_singleton, not_or]
    exact ⟨fun hc result => ⟨hc.1 result, fun he => hc.2 result he.symm⟩,
      fun hc => ⟨fun result => (hc result).1, fun result he => (hc result).2 he.symm⟩⟩

/-- An `initialize` on the wire was put there by the first call. -/
theorem entry_initialize {m : Message} (h : (client repr).entry s call = some m)
    (hm : m.1 = INITIALIZE) : call = .initializeRequest ∧ s.state = .created := by
  cases call with
  | initializeRequest =>
    rw [entry_request] at h
    split_ifs at h with hstate
    exact ⟨rfl, hstate⟩
  | consumeInitializeResult _ => cases h
  | initializedNotification =>
    rw [entry_confirm h] at hm
    exact absurd hm INITIALIZED_NOTIFICATION_ne

/-- The requests that a run has sent. -/
abbrev sentRequests (repr : Json → Str) (s : LegacyClientSession) (calls : List ClientCall) : ℕ :=
  ((client repr).journal s calls).countP fun m => m.1 = INITIALIZE

theorem sentRequests_append (calls later : List ClientCall) :
    sentRequests repr s (calls ++ later) =
      sentRequests repr s calls + sentRequests repr ((client repr).run s calls) later := by
  rw [sentRequests, Machine.journal_append, List.countP_append]

theorem sentRequests_request (h : s.state = .created) :
    sentRequests repr s [.initializeRequest] = 1 := by
  rw [sentRequests, Machine.journal_cons, entry_request, if_pos h]
  rfl

theorem sentRequests_eq_zero
    (h : ∀ pre post, calls = pre ++ .initializeRequest :: post →
      ((client repr).run s pre).state ≠ .created) : sentRequests repr s calls = 0 := by
  rw [sentRequests, List.countP_eq_zero]
  intro m hm hinit
  obtain ⟨pre, call, post, hcalls, hentry⟩ := (client repr).mem_journal hm
  obtain ⟨rfl, hstate⟩ := entry_initialize hentry (of_decide_eq_true hinit)
  exact h pre post hcalls hstate

/-! ## A run in turn -/

theorem InTurn.once (h : s.Owned) (hs : s.state = .created) (hturn : InTurn repr s calls) :
    sentRequests repr s calls ≤ 1 := by
  have hrequest := hturn.request
  clear hturn
  induction calls using List.reverseRecOn with
  | nil => exact Nat.zero_le 1
  | append_singleton calls call ih =>
    have hbefore : sentRequests repr s calls ≤ 1 := by
      apply ih
      intro pre post hcalls
      exact hrequest pre (post ++ [call]) (by rw [hcalls, List.append_assoc, List.cons_append])
    rw [sentRequests_append]
    by_cases hcall : call = .initializeRequest ∧ ((client repr).run s calls).state = .created
    · -- the state tells that no result was consumed, hence no request was made
      obtain ⟨rfl, hcreated⟩ := hcall
      have hfirst : .initializeRequest ∉ calls := by
        intro hmem
        obtain ⟨result, hresult⟩ := hrequest calls [] rfl hmem
        exact (created_run h hs calls).mp hcreated result hresult
      have hnone : sentRequests repr s calls = 0 := by
        apply sentRequests_eq_zero
        intro pre post hcalls
        exact absurd (hcalls ▸ List.mem_append_right _ List.mem_cons_self) hfirst
      rw [hnone, sentRequests_request hcreated]
    · have hnone : sentRequests repr ((client repr).run s calls) [call] = 0 := by
        apply sentRequests_eq_zero
        intro pre post hsingle hcreated
        cases pre with
        | nil =>
          rw [List.nil_append] at hsingle
          exact hcall ⟨(List.cons.inj hsingle).1, hcreated⟩
        | cons c pre => simp at hsingle
      rw [hnone]
      exact hbefore

/-- A failed session stays failed, as long as no result brings it back. -/
theorem next_failed (hs : s.state = .failed) (hcall : s.Awaits call) :
    ((client repr).next s call).state = .failed := by
  cases call with
  | initializeRequest => exact hs
  | consumeInitializeResult result => rw [next_mismatch (hcall.2 hs)]
  | initializedNotification => rwa [next_confirm_early (by rw [hs]; exact SessionState.noConfusion)]

/-- A session that is ready stays as it is, as long as it consumes no result. -/
theorem next_ready (hs : s.state = .ready) (hcall : s.Awaits call) :
    (client repr).next s call = s := by
  cases call with
  | initializeRequest => rfl
  | consumeInitializeResult result => exact absurd hs hcall.1
  | initializedNotification =>
    exact next_confirm_early (by rw [hs]; exact SessionState.noConfusion)

theorem InTurn.steady (h : s.Owned) (hs : s.state = .created) (hturn : InTurn repr s calls) :
    Steady repr s calls where
  once := hturn.once h hs
  refused := by
    rintro pre later post rfl hfailed
    have hlater := (Machine.along_append _ (Machine.along_append _ hturn.consume).2).1
    have hstep : ∀ s' call, s'.Awaits call → s'.state = .failed →
        ((client repr).next s' call).state = .failed :=
      fun _ _ hcall hs' => next_failed hs' hcall
    have hstate : ((client repr).run s (pre ++ later)).state = .failed := by
      rw [Machine.run_append]
      exact (client repr).invariant_state_along hstep hlater hfailed
    refine ⟨by rw [hstate]; decide, by rw [hstate]; decide, ?_⟩
    rw [LegacyClientSession.heartbeatReady, hstate]
    rfl
  agreed := by
    rintro pre later post rfl hready
    have hlater := (Machine.along_append _ (Machine.along_append _ hturn.consume).2).1
    have hstep : ∀ s' call, s'.Awaits call → s' = (client repr).run s pre →
        (client repr).next s' call = (client repr).run s pre := by
      rintro _ call hcall rfl
      exact next_ready hready hcall
    have hlast := (client repr).invariant_state_along hstep hlater rfl
    have hsame : (client repr).run s (pre ++ later) = (client repr).run s pre := by
      rw [Machine.run_append, hlast]
    rw [hsame]
    exact ⟨rfl, rfl, rfl⟩

/-! ## A steady run -/

theorem Steady.inTurn (h : s.Owned) (hs : s.state = .created) (hsteady : Steady repr s calls) :
    InTurn repr s calls where
  request := by
    rintro pre post rfl hmem
    by_contra! hnone
    -- two requests were made while the client was created: both were sent
    obtain ⟨first, between, rfl⟩ := List.append_of_mem hmem
    have hcreated : ((client repr).run s (first ++ .initializeRequest :: between)).state = .created :=
      (created_run h hs _).mpr hnone
    have hfirst : ((client repr).run s first).state = .created :=
      (created_run h hs first).mpr fun result hr => hnone result (List.mem_append_left _ hr)
    have htwo := hsteady.once
    have hsplit : first ++ .initializeRequest :: between ++ .initializeRequest :: post =
        (first ++ [.initializeRequest]) ++ between ++ [.initializeRequest] ++ post := by simp
    change sentRequests repr s _ ≤ 1 at htwo
    rw [hsplit, sentRequests_append, sentRequests_append, sentRequests_append, sentRequests_append,
      sentRequests_request hfirst, sentRequests_request (by simpa using hcreated)] at htwo
    omega
  consume := by
    intro pre call post hcalls
    have howned := owned_run repr h pre
    cases call with
    | initializeRequest => trivial
    | initializedNotification => trivial
    | consumeInitializeResult result =>
      constructor
      · intro hready
        have hsame := hsteady.agreed pre [.consumeInitializeResult result] post hcalls hready
        rw [LegacyClientSession.SameTerms, Machine.run_concat, hready] at hsame
        by_cases hmatch : ((client repr).run s pre).Matches result
        · rw [next_match howned hmatch] at hsame
          cases hsame.1
        · rw [next_mismatch hmatch] at hsame
          cases hsame.1
      · intro hfailed hmatch
        have hrefusing := hsteady.refused pre [.consumeInitializeResult result] post hcalls hfailed
        rw [LegacyClientSession.Refusing, Machine.run_concat, next_match howned hmatch] at hrefusing
        exact hrefusing.1 rfl

/-- **Exactly when a client stays as it was left.** Of every client, over every run of its calls. -/
theorem steady_exactly_when (clientName version : Str) (requestHeartbeat : Bool)
    (hinit : LegacyClientSession.init repr clientName version requestHeartbeat = .ok s)
    (calls : List ClientCall) : Steady repr s calls ↔ InTurn repr s calls := by
  obtain ⟨howned, rfl⟩ := client_init hinit
  exact ⟨Steady.inTurn howned rfl, InTurn.steady howned rfl⟩

/-- A client that asks for the heartbeat. -/
def askingClient : LegacyClientSession where
  clientName := py "client"

/-- A result that answers `version`, and carries the heartbeat. -/
def answerOf (version : Str) : Members :=
  [(py "protocolVersion", .str version), (py "capabilities", askingClient.capabilities)]

theorem steady_exactly_when_asking :
    Steady (fun _ => []) askingClient
        [.initializeRequest, .consumeInitializeResult (answerOf LEGACY_ERA),
          .initializedNotification] ↔
      InTurn (fun _ => []) askingClient
        [.initializeRequest, .consumeInitializeResult (answerOf LEGACY_ERA),
          .initializedNotification] :=
  steady_exactly_when (py "client") LEGACY_ERA true rfl _

/-- **A refused downgrade is not final**: a later result brings the session back, to ready. -/
theorem steady_fails :
    let calls : List ClientCall := [.initializeRequest,
      .consumeInitializeResult (answerOf (py "2025-03-26")),
      .consumeInitializeResult (answerOf LEGACY_ERA), .initializedNotification]
    LegacyClientSession.init (fun _ => []) (py "client") LEGACY_ERA true = .ok askingClient ∧
      ((client fun _ => []).run askingClient (calls.take 2)).state = .failed ∧
      ((client fun _ => []).run askingClient calls).heartbeatReady = true ∧
      ¬ Steady (fun _ => []) askingClient calls := by
  intro calls
  have hfailed : ((client fun _ => []).run askingClient (calls.take 2)).state = .failed := by
    decide +kernel
  have hready : ((client fun _ => []).run askingClient calls).heartbeatReady = true := by
    decide +kernel
  refine ⟨rfl, hfailed, hready, ?_⟩
  intro hsteady
  have hrefusing := hsteady.refused (calls.take 2) (calls.drop 2) [] rfl hfailed
  exact absurd (hready.symm.trans hrefusing.2.2) (by decide)

end McpHeartbeat.Legacy
