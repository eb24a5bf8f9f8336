import McpHeartbeat.Legacy.Session

/-!
# The client half of a legacy connection

* `LegacyClientSession`: its fields, and what it reports of the negotiation;
* `initializeRequest`, `consumeInitializeResult`, `initializedNotification`: the handshake;
* `ClientCall`, `client`: runs of the three calls, and the journal of the messages they return;
  `next_mismatch`, `next_match`, `next_confirm`, `next_confirm_early`: what one call does.
-/

namespace McpHeartbeat.Legacy

open Base

/-- Client half of one connection. -/
structure LegacyClientSession where
  clientName : Str
  requestedProtocolVersion : Str := LEGACY_ERA
  requestHeartbeat : Bool := true
  state : SessionState := .created
  heartbeat : Option HeartbeatNegotiation := none
  negotiatedEra : Option Str := none

/-- What a call of the client raises. -/
inductive ClientError
  | protocol (e : LegacyProtocolError)
  | era (e : LegacyEraViolation)
deriving DecidableEq

/-- A method and its parameters, as they are put on the wire. -/
abbrev Message := Str × Members

namespace LegacyClientSession

variable (repr : Json → Str)

/-- `LegacyClientSession.__init__`. -/
def init (clientName requestedProtocolVersion : Str) (requestHeartbeat : Bool) :
    Except LegacyEraViolation LegacyClientSession :=
  match assertLegacyEra repr requestedProtocolVersion with
  | .error e => .error e
  | .ok requestedProtocolVersion =>
    .ok { clientName, requestedProtocolVersion, requestHeartbeat }

variable (s : LegacyClientSession)

/-- `era_report`. -/
def eraReport : EraReport :=
  match s.negotiatedEra with
  | none => UNNEGOTIATED
  | some era =>
    { mcpProtocolEra := some era,
      extensionVersion := s.heartbeat.bind fun heartbeat => heartbeat.extensionVersion,
      heartbeatSupported := s.heartbeat.any fun heartbeat => heartbeat.supported }

/-- `heartbeat_ready`. -/
def heartbeatReady : Bool := s.state = .ready && s.eraReport.heartbeatSupported

/-- `capabilities`: what the client offers. -/
def capabilities : Json :=
  if !s.requestHeartbeat then .obj []
  else .obj [(HEARTBEAT_NAMESPACE, .obj [(HEARTBEAT_CAPABILITY,
    .obj [(py "extension_version", .str EXTENSION_VERSION)])])]

/-- The `initialize` request of the client. -/
def request : Message :=
  (INITIALIZE, [
    (py "protocolVersion", .str s.requestedProtocolVersion),
    (py "capabilities", s.capabilities),
    (py "clientInfo", .obj [(py "name", .str s.clientName), (py "version", .str (py "0.1.0"))])])

/-- `initialize_request`: it leaves the session as it is. -/
def initializeRequest : Except ClientError Message :=
  if s.state ≠ .created then
    .error (.protocol {
      reason := .lifecycleOutOfOrder,
      message := INITIALIZE ++ py " already sent (state=" ++ s.state.value ++ py ")" })
  else .ok s.request

/-- `consume_initialize_result`: accept the server's answer, or refuse a downgrade. -/
def consumeInitializeResult (result : Members) :
    Except ClientError EraReport × LegacyClientSession :=
  let answered := result.get (py "protocolVersion")
  if answered ≠ .str s.requestedProtocolVersion then
    (.error (.protocol {
      reason := .silentDowngradeRefused,
      message := py "server answered protocolVersion " ++ repr answered ++
        py "; this client offered " ++ repr (.str s.requestedProtocolVersion) ++
        py " and will not be moved to a revision it did not choose",
      code := .invalidParams }), { s with state := .failed })
  else match assertLegacyEra repr s.requestedProtocolVersion with
    | .error e => (.error (.era e), s)
    | .ok era =>
      let s := { s with
        negotiatedEra := some era,
        heartbeat := some (
          if s.requestHeartbeat then negotiateHeartbeat repr (result.get (py "capabilities"))
          else notOffered (py "this client did not offer the heartbeat extension")),
        state := .initializing }
      (.ok s.eraReport, s)

/-- `initialized_notification`. -/
def initializedNotification : Except ClientError Message × LegacyClientSession :=
  if s.state ≠ .initializing then
    (.error (.protocol {
      reason := .lifecycleOutOfOrder,
      message := INITIALIZED_NOTIFICATION ++ py " follows a successful " ++ INITIALIZE ++
        py " (state=" ++ s.state.value ++ py ")" }), s)
  else (.ok (INITIALIZED_NOTIFICATION, []), { s with state := .ready })

end LegacyClientSession

/-! ## Runs -/

/-- One call on a client. -/
inductive ClientCall
  | initializeRequest
  | consumeInitializeResult (result : Members)
  | initializedNotification

variable (repr : Json → Str)

/-- A caller that catches what is raised; the journal is the messages that are put on the wire. -/
def client : Machine LegacyClientSession ClientCall Message where
  next s
    | .initializeRequest => s
    | .consumeInitializeResult result => (s.consumeInitializeResult repr result).2
    | .initializedNotification => s.initializedNotification.2
  entry s
    | .initializeRequest => s.initializeRequest.toOption
    | .consumeInitializeResult _ => none
    | .initializedNotification => s.initializedNotification.1.toOption

namespace LegacyClientSession

variable (s : LegacyClientSession) (result : Members)

/-- Whether a result answers the revision that the client requested. -/
def Matches : Prop := result.get (py "protocolVersion") = .str s.requestedProtocolVersion

instance : Decidable (s.Matches result) := inferInstanceAs (Decidable (_ = _))

/-- The capability exchange of `consume_initialize_result`. -/
def settleHeartbeat : HeartbeatNegotiation :=
  if s.requestHeartbeat then negotiateHeartbeat repr (result.get (py "capabilities"))
  else notOffered (py "this client did not offer the heartbeat extension")

/-- A session after a result that matches. -/
def settle : LegacyClientSession :=
  { s with negotiatedEra := some s.requestedProtocolVersion,
           heartbeat := some (s.settleHeartbeat repr result), state := .initializing }

end LegacyClientSession

variable {repr} {s : LegacyClientSession} {result : Members}

/-- **What `__init__` builds.** -/
theorem client_init {clientName version : Str} {requestHeartbeat : Bool}
    (h : LegacyClientSession.init repr clientName version requestHeartbeat = .ok s) :
    version ∈ SUPPORTED_PROTOCOL_VERSIONS ∧
      s = { clientName, requestedProtocolVersion := version, requestHeartbeat } := by
  unfold LegacyClientSession.init at h
  cases hera : assertLegacyEra repr version with
  | error e => rw [hera] at h; cases h
  | ok era =>
    rw [hera] at h
    obtain ⟨hsupported, rfl⟩ := assertLegacyEra_eq_ok.mp hera
    exact ⟨hsupported, (Except.ok.inj h).symm⟩

theorem next_mismatch (h : ¬ s.Matches result) :
    (client repr).next s (.consumeInitializeResult result) = { s with state := .failed } := by
  show (s.consumeInitializeResult repr result).2 = _
  unfold LegacyClientSession.consumeInitializeResult
  dsimp only
  have hne : result.get (py "protocolVersion") ≠ .str s.requestedProtocolVersion := h
  rw [if_pos hne]

theorem next_match (hsupported : s.requestedProtocolVersion ∈ SUPPORTED_PROTOCOL_VERSIONS)
    (h : s.Matches result) :
    (client repr).next s (.consumeInitializeResult result) = s.settle repr result := by
  show (s.consumeInitializeResult repr result).2 = _
  unfold LegacyClientSession.consumeInitializeResult
  dsimp only
  have heq : result.get (py "protocolVersion") = .str s.requestedProtocolVersion := h
  rw [if_neg (not_not.mpr heq), assertLegacyEra_eq_ok.mpr ⟨hsupported, rfl⟩]
  rfl

theorem next_confirm (h : s.state = .initializing) :
    (client repr).next s .initializedNotification = { s with state := .ready } := by
  show s.initializedNotification.2 = _
  rw [LegacyClientSession.initializedNotification, if_neg (not_not.mpr h)]

theorem next_confirm_early (h : s.state ≠ .initializing) :
    (client repr).next s .initializedNotification = s := by
  show s.initializedNotification.2 = _
  rw [LegacyClientSession.initializedNotification, if_pos h]

/-- The client puts an `initialize` on the wire as long as it is created. -/
theorem entry_request : (client repr).entry s .initializeRequest =
    if s.state = .created then some s.request else none := by
  show s.initializeRequest.toOption = _
  unfold LegacyClientSession.initializeRequest
  split_ifs <;> first | rfl | contradiction

/-- What the third call puts on the wire. -/
theorem entry_confirm {m : Message}
    (h : (client repr).entry s .initializedNotification = some m) :
    m = (INITIALIZED_NOTIFICATION, []) := by
  change s.initializedNotification.1.toOption = some m at h
  unfold LegacyClientSession.initializedNotification at h
  split_ifs at h
  · cases h
  · exact (Option.some.inj h).symm

/-- What the constructor fixes is never written again. -/
theorem next_settings (repr : Json → Str) (call : ClientCall) :
    ((client repr).next s call).requestedProtocolVersion = s.requestedProtocolVersion ∧
      ((client repr).next s call).requestHeartbeat = s.requestHeartbeat ∧
      ((client repr).next s call).request = s.request := by
  cases call with
  | initializeRequest => exact ⟨rfl, rfl, rfl⟩
  | consumeInitializeResult result =>
    show (s.consumeInitializeResult repr result).2.requestedProtocolVersion = _ ∧
      (s.consumeInitializeResult repr result).2.requestHeartbeat = _ ∧
      (s.consumeInitializeResult repr result).2.request = _
    unfold LegacyClientSession.consumeInitializeResult
    dsimp only
    split
    · exact ⟨rfl, rfl, rfl⟩
    · cases assertLegacyEra repr s.requestedProtocolVersion <;> exact ⟨rfl, rfl, rfl⟩
  | initializedNotification =>
    by_cases hstate : s.state = .initializing
    · rw [next_confirm hstate]
      exact ⟨rfl, rfl, rfl⟩
    · rw [next_confirm_early hstate]
      exact ⟨rfl, rfl, rfl⟩

end McpHeartbeat.Legacy
