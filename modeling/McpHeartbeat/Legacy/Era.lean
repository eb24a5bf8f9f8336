import McpHeartbeat.Core.Model
import McpHeartbeat.Legacy.Errors

/-!
# Two version axes

The revision of the protocol and the version of the heartbeat extension are negotiated apart.

* `negotiateProtocol`, `negotiateHeartbeat`: the two negotiations;
* `EraReport`: what a session reports of them; `assertLegacyEra`: the revisions the adapter owns.

`repr` is a parameter of the texts.
-/

namespace McpHeartbeat.Legacy

/-- The revision the adapter is written against. -/
def LEGACY_ERA : Str := py "2025-06-18"

/-- Every revision the adapter will negotiate. -/
def SUPPORTED_PROTOCOL_VERSIONS : List Str := [py "2025-06-18", py "2025-03-26"]

/-- The current era, named here to be refused. -/
def MODERN_ERA : Str := py "2026-07-28"

/-- Where a legacy peer advertises the extension. -/
def HEARTBEAT_NAMESPACE : Str := py "experimental"

/-- The name under which it is advertised. -/
def HEARTBEAT_CAPABILITY : Str := py "presenceLease"

/-- The identifier of the extension in the modern era. -/
def MODERN_EXTENSION_ID : Str := py "com.dougfirlabs/heartbeat"

/-- The three outcomes of a negotiation. -/
inductive NegotiationOutcome
  | accepted
  | unsupported
  | ambiguous
deriving DecidableEq, Repr

/-- The stable reason of a result. -/
inductive NegotiationCode
  | supportedVersion
  | unsupportedVersion
  | modernEraRefused
  | versionMissing
  | versionMalformed
  | capabilityAccepted
  | capabilityAbsent
  | capabilityMalformed
  | capabilityAmbiguous
  | unsupportedExtensionVersion
deriving DecidableEq, Repr

/-- The value of a code. -/
def NegotiationCode.value : NegotiationCode → Str
  | supportedVersion => py "supported_version"
  | unsupportedVersion => py "unsupported_version"
  | modernEraRefused => py "modern_era_refused"
  | versionMissing => py "version_missing"
  | versionMalformed => py "version_malformed"
  | capabilityAccepted => py "capability_accepted"
  | capabilityAbsent => py "capability_absent"
  | capabilityMalformed => py "capability_malformed"
  | capabilityAmbiguous => py "capability_ambiguous"
  | unsupportedExtensionVersion => py "unsupported_extension_version"

/-- The outcome of one version exchange. -/
structure ProtocolNegotiation where
  outcome : NegotiationOutcome
  code : NegotiationCode
  requested : Json
  negotiated : Option Str
  detail : Str
deriving DecidableEq

/-- `ProtocolNegotiation.accepted`. -/
def ProtocolNegotiation.accepted (n : ProtocolNegotiation) : Bool := n.outcome = .accepted

/-- `ProtocolNegotiation.disagreement`. -/
def ProtocolNegotiation.disagreement (n : ProtocolNegotiation) : Bool := !n.accepted

/-- The outcome of one capability exchange. -/
structure HeartbeatNegotiation where
  outcome : NegotiationOutcome
  code : NegotiationCode
  extensionVersion : Option Str
  detail : Str
deriving DecidableEq

/-- `HeartbeatNegotiation.supported`. -/
def HeartbeatNegotiation.supported (n : HeartbeatNegotiation) : Bool := n.outcome = .accepted

/-- What era a session speaks, and which heartbeat contract rides on it. -/
structure EraReport where
  mcpProtocolEra : Option Str
  extensionVersion : Option Str
  heartbeatSupported : Bool
deriving DecidableEq

/-- The report before anything was negotiated. -/
def UNNEGOTIATED : EraReport where
  mcpProtocolEra := none
  extensionVersion := none
  heartbeatSupported := false

variable (repr : Json → Str)

/-- `negotiate_protocol`: check a requested revision against the supported set. -/
def negotiateProtocol (requested : Json) : ProtocolNegotiation :=
  match requested with
  | .null =>
    { outcome := .ambiguous, code := .versionMissing, requested := .null, negotiated := none,
      detail := py "initialize carried no protocolVersion; the legacy contract requires one" }
  | .str version =>
    if version = [] then
      { outcome := .ambiguous, code := .versionMalformed, requested, negotiated := none,
        detail := py "protocolVersion must be a non-empty string" }
    else if version = MODERN_ERA then
      { outcome := .unsupported, code := .modernEraRefused, requested, negotiated := none,
        detail := MODERN_ERA ++ py " is served by the current adapter, not the legacy one" }
    else if version ∉ SUPPORTED_PROTOCOL_VERSIONS then
      { outcome := .unsupported, code := .unsupportedVersion, requested, negotiated := none,
        detail := py "unsupported protocolVersion " ++ repr requested ++ py "; supported: " ++
          (py ", ").intercalate SUPPORTED_PROTOCOL_VERSIONS }
    else
      { outcome := .accepted, code := .supportedVersion, requested, negotiated := some version,
        detail := py "negotiated the revision the peer requested" }
  | _ =>
    { outcome := .ambiguous, code := .versionMalformed, requested, negotiated := none,
      detail := py "protocolVersion must be a non-empty string" }

/-- `(value or {}).get(key)`, if that is an object. -/
def claimOf (value : Json) (key : Str) : Json := value.orEmpty.member key

/-- `negotiate_heartbeat`, once the peer claims the legacy identifier alone. -/
def negotiateClaim (legacyClaim : Json) : HeartbeatNegotiation :=
  match legacyClaim with
  | .obj claim =>
    let declared := Members.get claim (py "extension_version")
    if declared = .null then
      { outcome := .ambiguous, code := .capabilityMalformed, extensionVersion := none,
        detail := py "heartbeat capability declares no extension_version" }
    else if declared ≠ .str EXTENSION_VERSION then
      { outcome := .unsupported, code := .unsupportedExtensionVersion, extensionVersion := none,
        detail := py "extension_version " ++ repr declared ++
          py " is not readable by this build (supported: " ++ EXTENSION_VERSION ++ py ")" }
    else
      { outcome := .accepted, code := .capabilityAccepted,
        extensionVersion := some EXTENSION_VERSION,
        detail := py "heartbeat extension negotiated on a legacy session" }
  | _ =>
    { outcome := .ambiguous, code := .capabilityMalformed, extensionVersion := none,
      detail := HEARTBEAT_NAMESPACE ++ py "." ++ HEARTBEAT_CAPABILITY ++ py " must be an object" }

/-- `negotiate_heartbeat`: decide whether this peer speaks the extension. -/
def negotiateHeartbeat (capabilities : Json) : HeartbeatNegotiation :=
  match (if capabilities = .null then .obj [] else capabilities) with
  | .obj capabilities =>
    let legacyClaim := claimOf (Members.get capabilities HEARTBEAT_NAMESPACE) HEARTBEAT_CAPABILITY
    let modernClaim := claimOf (Members.get capabilities (py "extensions")) MODERN_EXTENSION_ID
    if legacyClaim ≠ .null ∧ modernClaim ≠ .null then
      { outcome := .ambiguous, code := .capabilityAmbiguous, extensionVersion := none,
        detail := py "peer advertises both the legacy and the modern heartbeat identifier; " ++
          py "a legacy session cannot also claim current MCP semantics" }
    else if legacyClaim = .null then
      if modernClaim ≠ .null then
        { outcome := .unsupported, code := .modernEraRefused, extensionVersion := none,
          detail := MODERN_EXTENSION_ID ++ py " is a modern-era identifier; " ++
            py "the legacy adapter does not serve it" }
      else
        { outcome := .unsupported, code := .capabilityAbsent, extensionVersion := none,
          detail := py "peer advertises no heartbeat capability; ordinary MCP continues" }
    else negotiateClaim repr legacyClaim
  | _ =>
    { outcome := .ambiguous, code := .capabilityMalformed, extensionVersion := none,
      detail := py "capabilities must be an object" }

/-- `assert_legacy_era`: the revisions the adapter owns. -/
def assertLegacyEra (era : Str) : Except LegacyEraViolation Str :=
  if era = MODERN_ERA then
    .error ⟨MODERN_ERA ++ py " belongs to the current adapter; " ++
      py "no legacy lifecycle primitive is callable from the modern path"⟩
  else if era ∉ SUPPORTED_PROTOCOL_VERSIONS then
    .error ⟨repr (.str era) ++ py " is not a protocol revision the legacy adapter serves (" ++
      (py ", ").intercalate SUPPORTED_PROTOCOL_VERSIONS ++ py ")"⟩
  else .ok era

variable {repr} {requested : Json}

/-- **What is negotiated was requested, and is supported.** -/
theorem negotiateProtocol_spec (repr : Json → Str) (requested : Json) :
    (negotiateProtocol repr requested).requested = requested ∧
    (((negotiateProtocol repr requested).accepted = false ∧
        (negotiateProtocol repr requested).negotiated = none) ∨
      ∃ version ∈ SUPPORTED_PROTOCOL_VERSIONS, requested = .str version ∧
        (negotiateProtocol repr requested).accepted = true ∧
          (negotiateProtocol repr requested).negotiated = some version) := by
  cases requested with
  | str version =>
    unfold negotiateProtocol
    dsimp only
    split_ifs with hempty hmodern hsupported
    · exact ⟨rfl, Or.inl ⟨rfl, rfl⟩⟩
    · exact ⟨rfl, Or.inl ⟨rfl, rfl⟩⟩
    · exact ⟨rfl, Or.inr ⟨version, hsupported, rfl, rfl, rfl⟩⟩
    · exact ⟨rfl, Or.inl ⟨rfl, rfl⟩⟩
  | _ => exact ⟨rfl, Or.inl ⟨rfl, rfl⟩⟩

/-- **What is accepted**: the supported revisions. -/
theorem negotiateProtocol_accepted_iff : (negotiateProtocol repr requested).accepted = true ↔
    ∃ version ∈ SUPPORTED_PROTOCOL_VERSIONS, requested = .str version := by
  constructor
  · intro h
    rcases (negotiateProtocol_spec repr requested).2 with ⟨hno, -⟩ | ⟨version, hv, hreq, -⟩
    · cases hno.symm.trans h
    · exact ⟨version, hv, hreq⟩
  · rintro ⟨version, hv, rfl⟩
    have hne : version ≠ [] ∧ version ≠ MODERN_ERA := by
      constructor <;> rintro rfl <;> revert hv <;> decide
    unfold negotiateProtocol
    dsimp only
    rw [if_neg hne.1, if_neg hne.2, if_neg (not_not.mpr hv)]
    rfl

/-- **The revisions the adapter owns**: the supported ones. -/
theorem assertLegacyEra_eq_ok {era owned : Str} : assertLegacyEra repr era = .ok owned ↔
    era ∈ SUPPORTED_PROTOCOL_VERSIONS ∧ owned = era := by
  unfold assertLegacyEra
  split_ifs with hmodern hsupported
  · subst hmodern
    exact iff_of_false (by simp) fun h => absurd h.1 (by decide)
  · exact ⟨fun h => ⟨hsupported, (Except.ok.inj h).symm⟩, fun h => congrArg _ h.2.symm⟩
  · exact iff_of_false (by simp) fun h => hsupported h.1

end McpHeartbeat.Legacy
