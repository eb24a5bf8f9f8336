import McpHeartbeat.Py.Str

/-!
# What the legacy adapter raises

* `LegacyProtocolError`: the conversation cannot continue; `LegacyEraViolation`: a revision the
  adapter does not own.
-/

namespace McpHeartbeat.Legacy

/-- The codes of JSON-RPC that the legacy contract uses. -/
inductive JsonRpcCode
  | invalidRequest
  | methodNotFound
  | invalidParams
deriving DecidableEq, Repr

/-- Why the adapter refused. -/
inductive LegacyReason
  | sessionNotInitialized
  | lifecycleOutOfOrder
  | negotiationFailed
  | silentDowngradeRefused
  | methodNotImplemented
  | malformedHint
  | heartbeatNotNegotiated
deriving DecidableEq, Repr

/-- `LegacyProtocolError`. -/
structure LegacyProtocolError where
  reason : LegacyReason
  message : Str
  code : JsonRpcCode := .invalidRequest
deriving DecidableEq

/-- `LegacyEraViolation`. -/
structure LegacyEraViolation where
  message : Str
deriving DecidableEq

end McpHeartbeat.Legacy
