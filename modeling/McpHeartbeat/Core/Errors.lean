import McpHeartbeat.Py.Dump

/-!
# Reason codes and exceptions

* `ViolationCode`: the stable reasons a heartbeat is refused;
* `Violation`: the structural violations of a document, with what their texts mention;
  `Violation.text` is the text, given the `repr` of the interpreter;
* `HeartbeatError`, `Error`: what the functions of the core raise.
-/

namespace McpHeartbeat

/-- Stable reasons a heartbeat is refused. -/
inductive ViolationCode
  | schemaInvalid
  | unsupportedExtensionVersion
  | invalidExpiryWindow
  | expiryWindowTooLong
  | nodeIdMismatch
  | sequenceRollback
  | sequenceConflict
  | bootIdReuse
  | clockSkewExceeded
  | expiredOnArrival
deriving DecidableEq, Repr

/-- The wire spelling of a code. -/
def ViolationCode.value : ViolationCode → Str
  | schemaInvalid => py "schema_invalid"
  | unsupportedExtensionVersion => py "unsupported_extension_version"
  | invalidExpiryWindow => py "invalid_expiry_window"
  | expiryWindowTooLong => py "expiry_window_too_long"
  | nodeIdMismatch => py "node_id_mismatch"
  | sequenceRollback => py "sequence_rollback"
  | sequenceConflict => py "sequence_conflict"
  | bootIdReuse => py "boot_id_reuse"
  | clockSkewExceeded => py "clock_skew_exceeded"
  | expiredOnArrival => py "expired_on_arrival"

/-- One structural violation of a document. -/
inductive Violation
  | notObject
  | missing (field : Str)
  | version (found : Json)
  | nodeId
  | bootId
  | sequenceType
  | sequenceNegative
  | timestamp (field : Str)
  | window
  | leaseWindow
  | extensionsType
  | extensionKey (key : Str)
  | unknownMember (key : Str)
deriving DecidableEq

/-- The text of a violation, with the `repr` of the interpreter. -/
def Violation.text (repr : Json → Str) : Violation → Str
  | notObject => py "document must be a JSON object"
  | missing field => py "missing required field: " ++ field
  | version found => py "extension_version must be '0.1', got " ++ repr found
  | nodeId => py "node_id must be a scoped opaque identifier matching the profile pattern"
  | bootId => py "boot_id must be an opaque identifier matching the profile pattern"
  | sequenceType => py "sequence must be an integer"
  | sequenceNegative => py "sequence must be >= 0"
  | timestamp field => field ++ py " must be an RFC 3339 UTC timestamp"
  | window => py "expires_at must be strictly after issued_at"
  | leaseWindow => py "lease window must be <= 3600s"
  | extensionsType => py "extensions must be an object"
  | extensionKey key =>
    py "extensions key " ++ repr (.str key) ++ py " must be namespaced (e.g. 'com.example')"
  | unknownMember key =>
    py "unknown member " ++ repr (.str key) ++ py " must be namespaced to be ignorable"

/-- `HeartbeatError` and its subclasses. -/
inductive HeartbeatError
  | invalidHeartbeat (violations : List Violation)
  | unsupportedExtensionVersion (found : Json) (supported : Str)
deriving DecidableEq

/-- The code an error carries. -/
def HeartbeatError.code : HeartbeatError → ViolationCode
  | invalidHeartbeat _ => .schemaInvalid
  | unsupportedExtensionVersion _ _ => .unsupportedExtensionVersion

/-- Why a timestamp is no timestamp. -/
inductive TimestampFault
  | notText
  | malformed (candidate : Str)
  | noOffset (text : Str)
deriving DecidableEq

/-- What the functions of the core raise. -/
inductive Error
  | heartbeat (e : HeartbeatError)
  | valueError (fault : TimestampFault)
  | keyError (key : Str)
  | typeError
  | overflowError
  | unicodeEncodeError
deriving DecidableEq

/-- `except (KeyError, TypeError, ValueError)`: an `OverflowError` is none of them, and a
`UnicodeEncodeError` is a `ValueError`. -/
def Error.isLookupOrValue : Error → Bool
  | valueError _ | keyError _ | typeError | unicodeEncodeError => true
  | heartbeat _ | overflowError => false

/-! ## Sequencing -/

section Bind

variable {α β : Type} {x : Except Error α} {f : α → Except Error β}

@[simp] theorem ok_bind (a : α) : (Except.ok a >>= f) = f a := rfl

@[simp] theorem error_bind (e : Error) : ((Except.error e : Except Error α) >>= f) = .error e := rfl

@[simp] theorem pure_eq_ok (a : α) : (pure a : Except Error α) = .ok a := rfl

theorem bind_eq_ok {b : β} : (x >>= f) = .ok b ↔ ∃ a, x = .ok a ∧ f a = .ok b := by
  cases x <;> simp

theorem bind_eq_error {e : Error} :
    (x >>= f) = .error e ↔ x = .error e ∨ ∃ a, x = .ok a ∧ f a = .error e := by
  cases x <;> simp

end Bind

end McpHeartbeat
