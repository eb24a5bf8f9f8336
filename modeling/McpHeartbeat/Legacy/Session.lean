import Mathlib.Data.Finset.Lattice.Basic
import Mathlib.Data.Finset.Dedup
import McpHeartbeat.Base.Machine
import McpHeartbeat.Base.Rekey
import McpHeartbeat.Legacy.Capabilities

/-!
# Legacy sessions

* `SessionState`, `Disagreement`: where a session is, and what its ledger records;
* `LegacyServerSession`, **`handle`**: the server half of one connection;
* `handle_cases`: the five ways of one call; `Takes`, `Way.takes`: the calls that succeed;
* `Call`, `server`, `Mark`: runs, and the journal of what was accepted, refused and served.

The registry of methods routes a name to a handler or to `None`. A call is given what the handler
does with its parameters, if it is invoked; it may raise.
-/

namespace McpHeartbeat.Legacy

open Base

def INITIALIZE : Str := py "initialize"

def INITIALIZED_NOTIFICATION : Str := py "notifications/initialized"

/-- `_not_offered`: this side declined to negotiate the extension. -/
def notOffered (detail : Str) : HeartbeatNegotiation where
  outcome := .unsupported
  code := .capabilityAbsent
  extensionVersion := none
  detail := detail

/-- Where a session is in the lifecycle. -/
inductive SessionState
  | created
  | initializing
  | ready
  | failed
deriving DecidableEq, Repr

/-- The value of a state. -/
def SessionState.value : SessionState → Str
  | created => py "created"
  | initializing => py "initializing"
  | ready => py "ready"
  | failed => py "failed"

/-- One recorded disagreement on the version. -/
structure Disagreement where
  requested : Json
  code : Str
  detail : Str
deriving DecidableEq

/-- What `handle` raises: an error of the adapter, or the name of what a handler raised. -/
inductive SessionError
  | protocol (e : LegacyProtocolError)
  | handler (name : Str)
deriving DecidableEq

/-- Server half of one connection. -/
structure LegacyServerSession where
  serverName : Str
  era : Str
  /-- Whether a registered name routes to a handler, or to `None`. -/
  methods : Mapping Str Bool
  implemented : Finset Str
  state : SessionState := .created
  disagreements : List Disagreement := []
  protocol : Option ProtocolNegotiation := none
  heartbeat : Option HeartbeatNegotiation := none

/-- What one call of `handle` answers and leaves, and the name whose handler it invoked. -/
structure Handled where
  answer : Except SessionError Json
  session : LegacyServerSession
  invoked : Option Str := none

namespace LegacyServerSession

variable (repr : Json → Str)

/-- `LegacyServerSession.__init__`. -/
def init (serverName : Str) (methods : Mapping Str Bool) (implemented : Finset Str)
    (era : Str) : Except LegacyEraViolation LegacyServerSession :=
  match assertLegacyEra repr era with
  | .error e => .error e
  | .ok era => .ok { serverName, era, methods, implemented := implemented ∪ methods.keys.toFinset }

variable (s : LegacyServerSession)

/-- `era_report`. -/
def eraReport : EraReport :=
  match s.protocol with
  | none => UNNEGOTIATED
  | some protocol =>
    if !protocol.accepted then UNNEGOTIATED
    else
      { mcpProtocolEra := protocol.negotiated,
        extensionVersion := s.heartbeat.bind fun heartbeat => heartbeat.extensionVersion,
        heartbeatSupported := s.heartbeat.any fun heartbeat => heartbeat.supported }

/-- `heartbeat_ready`. -/
def heartbeatReady : Bool := s.state = .ready && s.eraReport.heartbeatSupported

/-- A refusal that leaves the session as it is. -/
def refuse (reason : LegacyReason) (message : Str) (code : JsonRpcCode) : Handled where
  answer := .error (.protocol { reason, message, code })
  session := s

/-- The capability exchange of `_handle_initialize`: in effect only if both sides serve it. -/
def offerHeartbeat (capabilities : Json) : HeartbeatNegotiation :=
  let heartbeat := negotiateHeartbeat repr capabilities
  if heartbeat.supported ∧ AUTHORITATIVE_READ_METHOD ∉ s.implemented then
    notOffered (py "this server serves no " ++ AUTHORITATIVE_READ_METHOD ++
      py " and cannot carry a heartbeat lease")
  else heartbeat

/-- `_handle_initialize`. -/
def handleInitialize (params : Members) : Handled :=
  if s.state ≠ .created then
    s.refuse .lifecycleOutOfOrder
      (INITIALIZE ++ py " is legal once per session (state=" ++ s.state.value ++ py ")")
      .invalidRequest
  else
    let protocol := negotiateProtocol repr (params.get (py "protocolVersion"))
    let s := if protocol.disagreement then
        { s with disagreements := s.disagreements ++
            [⟨protocol.requested, protocol.code.value, protocol.detail⟩] }
      else s
    if !protocol.accepted then
      { s with state := .failed, protocol := some protocol }.refuse .negotiationFailed
        protocol.detail .invalidParams
    else
      let heartbeat := s.offerHeartbeat repr (params.get (py "capabilities"))
      { answer := .ok (.obj ([
          (py "protocolVersion", Json.ofStr? protocol.negotiated),
          (py "capabilities", advertise s.implemented),
          (py "serverInfo", .obj [(py "name", .str s.serverName), (py "version", .str (py "0.1.0"))])] ++
          if heartbeat.outcome ≠ .accepted then
            [(py "instructions",
              .str (py "heartbeat extension not negotiated: " ++ heartbeat.detail))]
          else [])),
        session := { s with protocol := some protocol, heartbeat := some heartbeat,
                            state := .initializing } }

/-- `_handle_initialized`. -/
def handleInitialized : Handled :=
  if s.state ≠ .initializing then
    s.refuse .lifecycleOutOfOrder
      (INITIALIZED_NOTIFICATION ++ py " is legal exactly once, after " ++ INITIALIZE ++
        py " (state=" ++ s.state.value ++ py ")") .invalidRequest
  else { answer := .ok .null, session := { s with state := .ready } }

/-- `handle`: one request or notification. -/
def handle (method : Str) (params : Option Members) (handler : Members → Except Str Json) :
    Handled :=
  let params := params.getD []
  if method = INITIALIZE then s.handleInitialize repr params
  else if method = INITIALIZED_NOTIFICATION then s.handleInitialized
  else if s.state ≠ .ready then
    s.refuse .sessionNotInitialized
      (repr (.str method) ++ py " arrived before the handshake completed (state=" ++
        s.state.value ++ py "); the legacy lifecycle requires " ++ INITIALIZE ++ py " then " ++
        INITIALIZED_NOTIFICATION) .invalidRequest
  else if method ∉ s.implemented then
    s.refuse .methodNotImplemented (py "no handler for " ++ repr (.str method)) .methodNotFound
  else if s.methods.lookup method ≠ some true then
    s.refuse .methodNotImplemented
      (repr (.str method) ++ py " is declared implemented but routes to nothing") .methodNotFound
  else { answer := (handler params).mapError .handler, session := s, invoked := some method }

end LegacyServerSession

/-! ## One call -/

/-- One call of `handle`. -/
structure Call where
  method : Str
  params : Option Members
  handler : Members → Except Str Json

namespace Call

variable (call : Call)

/-- The revision the call requests, if it is an `initialize`. -/
def requested : Json := Members.get (call.params.getD []) (py "protocolVersion")

end Call

section

variable (repr : Json → Str) (s : LegacyServerSession) (call : Call)

/-- The call, on a session. -/
def LegacyServerSession.answer : Handled := s.handle repr call.method call.params call.handler

/-- A session after its version exchange was refused. -/
def LegacyServerSession.fail (requested : Json) : LegacyServerSession :=
  let protocol := negotiateProtocol repr requested
  { s with state := .failed, protocol := some protocol,
           disagreements := s.disagreements ++
             [⟨requested, protocol.code.value, protocol.detail⟩] }

/-- What the session has a use for: `initialize` once, `notifications/initialized` after it, and
then the methods that are implemented and route to a handler. -/
def LegacyServerSession.Expects : Prop :=
  (call.method = INITIALIZE ∧ s.state = .created) ∨
    (call.method = INITIALIZED_NOTIFICATION ∧ s.state = .initializing) ∨
    (call.method ≠ INITIALIZE ∧ call.method ≠ INITIALIZED_NOTIFICATION ∧ s.state = .ready ∧
      call.method ∈ s.implemented ∧ s.methods.lookup call.method = some true)

/-- The ways of one call. -/
inductive Way : Handled → Prop
  /-- An `initialize` is accepted. -/
  | opened (heartbeat : HeartbeatNegotiation) (result : Json)
      (method : call.method = INITIALIZE) (state : s.state = .created)
      (accepted : (negotiateProtocol repr call.requested).accepted = true) :
      Way { answer := .ok result,
            session := { s with protocol := some (negotiateProtocol repr call.requested),
                                heartbeat := some heartbeat, state := .initializing } }
  /-- An `initialize` is refused. -/
  | failed (e : LegacyProtocolError) (method : call.method = INITIALIZE)
      (state : s.state = .created)
      (refused : (negotiateProtocol repr call.requested).accepted = false) :
      Way { answer := .error (.protocol e), session := s.fail repr call.requested }
  /-- The handshake is completed. -/
  | confirmed (method : call.method = INITIALIZED_NOTIFICATION)
      (state : s.state = .initializing) :
      Way { answer := .ok .null, session := { s with state := .ready } }
  /-- A handler is invoked. -/
  | served (state : s.state = .ready) (expects : s.Expects call) :
      Way { answer := (call.handler (call.params.getD [])).mapError .handler, session := s,
            invoked := some call.method }
  /-- Anything else is refused, and changes nothing. -/
  | refused (e : LegacyProtocolError) (unexpected : ¬ s.Expects call) :
      Way { answer := .error (.protocol e), session := s }

theorem INITIALIZED_NOTIFICATION_ne : INITIALIZED_NOTIFICATION ≠ INITIALIZE := by decide

theorem handle_cases : Way repr s call (s.answer repr call) := by
  unfold LegacyServerSession.answer LegacyServerSession.handle
  dsimp only
  split_ifs with hinit hconfirm hready himpl hroute
  · unfold LegacyServerSession.handleInitialize
    dsimp only
    by_cases hstate : s.state = .created
    · rw [if_neg (not_not.mpr hstate)]
      have hreq := (negotiateProtocol_spec repr call.requested).1
      cases hacc : (negotiateProtocol repr call.requested).accepted with
      | true =>
        have hdis : (negotiateProtocol repr call.requested).disagreement = false := by
          rw [ProtocolNegotiation.disagreement, hacc, Bool.not_true]
        rw [← Call.requested, hacc, hdis]
        exact Way.opened _ _ hinit hstate hacc
      | false =>
        have hdis : (negotiateProtocol repr call.requested).disagreement = true := by
          rw [ProtocolNegotiation.disagreement, hacc, Bool.not_false]
        rw [← Call.requested, hacc, hdis, hreq]
        exact Way.failed _ hinit hstate hacc
    · rw [if_pos hstate]
      apply Way.refused
      simp [LegacyServerSession.Expects, hinit, hstate, INITIALIZED_NOTIFICATION_ne.symm]
  · unfold LegacyServerSession.handleInitialized
    by_cases hstate : s.state = .initializing
    · rw [if_neg (not_not.mpr hstate)]
      exact Way.confirmed hconfirm hstate
    · rw [if_pos hstate]
      apply Way.refused
      simp [LegacyServerSession.Expects, hconfirm, hstate, INITIALIZED_NOTIFICATION_ne]
  · apply Way.refused
    simp [LegacyServerSession.Expects, hinit, hconfirm, hready]
  · apply Way.refused
    simp [LegacyServerSession.Expects, hinit, hconfirm, hroute]
  · have hstate : s.state = .ready := not_not.mp hready
    exact Way.served hstate (Or.inr (Or.inr ⟨hinit, hconfirm, hstate, himpl, not_not.mp hroute⟩))
  · apply Way.refused
    simp [LegacyServerSession.Expects, hinit, hconfirm, himpl]

/-- The calls that succeed: an `initialize` that requests a supported revision, the notification
that completes the handshake, and then the calls whose handler returns. -/
inductive Takes : Prop
  | opens (method : call.method = INITIALIZE) (state : s.state = .created)
      (requested : ∃ version ∈ SUPPORTED_PROTOCOL_VERSIONS, call.requested = .str version)
  | confirms (method : call.method = INITIALIZED_NOTIFICATION) (state : s.state = .initializing)
  | serves (state : s.state = .ready) (expects : s.Expects call)
      (returns : ∃ result, call.handler (call.params.getD []) = .ok result)

variable {repr s call} {handled : Handled}

theorem Takes.expects (h : Takes s call) : s.Expects call := by
  cases h with
  | opens method state _ => exact Or.inl ⟨method, state⟩
  | confirms method state => exact Or.inr (Or.inl ⟨method, state⟩)
  | serves _ expects _ => exact expects

/-- **What succeeds.** -/
theorem Way.takes (h : Way repr s call handled) :
    (∃ result, handled.answer = .ok result) ↔ Takes s call := by
  constructor
  · rintro ⟨result, hresult⟩
    cases h with
    | opened heartbeat result' method state accepted =>
      exact .opens method state (negotiateProtocol_accepted_iff.mp accepted)
    | confirmed method state => exact .confirms method state
    | served state expects =>
      cases hhandler : call.handler (call.params.getD []) with
      | ok result' => exact .serves state expects ⟨result', hhandler⟩
      | error name =>
        simp only [hhandler, Except.mapError] at hresult
        cases hresult
    | failed e _ _ _ => cases hresult
    | refused e _ => cases hresult
  · intro htakes
    cases h with
    | opened heartbeat result' method state accepted => exact ⟨result', rfl⟩
    | confirmed method state => exact ⟨.null, rfl⟩
    | served state expects =>
      cases htakes with
      | opens _ state' | confirms _ state' => cases state.symm.trans state'
      | serves _ _ returns =>
        obtain ⟨result, hresult⟩ := returns
        exact ⟨result, by simp only [hresult, Except.mapError]⟩
    | failed e method state refused =>
      cases htakes with
      | opens _ _ requested =>
        cases refused.symm.trans (negotiateProtocol_accepted_iff.mpr requested)
      | confirms _ state' | serves state' => cases state.symm.trans state'
    | refused e unexpected => exact absurd htakes.expects unexpected

end

/-! ## Runs -/

/-- What a call leaves in the history of a session: it was accepted, it was refused and changed the
session, or the handler of a name was invoked. -/
inductive Mark
  | accepted (call : Call)
  | refused (call : Call)
  | invoked (method : Str)

variable (repr : Json → Str)

/-- The mark of a call that was handled on `s`. -/
def Handled.mark (handled : Handled) (s : LegacyServerSession) (call : Call) : Option Mark :=
  match handled.invoked, handled.answer with
  | some method, _ => some (.invoked method)
  | none, .ok _ => some (.accepted call)
  | none, .error _ => if handled.session.state = s.state then none else some (.refused call)

/-- A caller that catches what is raised. -/
def server : Machine LegacyServerSession Call Mark where
  next s call := (s.answer repr call).session
  entry s call := (s.answer repr call).mark s call

end McpHeartbeat.Legacy
