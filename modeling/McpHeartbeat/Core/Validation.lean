import McpHeartbeat.Core.Model

/-!
# The validator

* `validateDocument`: every structural violation of a document, in the order of the source;
* `expiryWindowViolation`, **`documentReason`**: the single most specific reason to refuse it;
* `Heartbeat.fromDict`: parsing a document that has no violation.

Each of them can raise: `parse_rfc3339` raises `OverflowError` on an instant that leaves the
calendar, and nothing here catches that.
-/

namespace McpHeartbeat

/-- All six are mandatory. -/
def REQUIRED_FIELDS : List Str := CORE_FIELDS

/-- Longest validity window accepted, in microseconds. -/
def MAX_LEASE : ℤ := 3600 * second

/-- `_namespaced`: optional members contain a dot. -/
def namespaced (key : Str) : Bool := key.contains (.scalar '.')

/-- `try … except (KeyError, TypeError, ValueError)`: what was computed, or `None`. -/
def attempt {α : Type} (x : Except Error α) : Except Error (Option α) :=
  match x with
  | .ok a => .ok (some a)
  | .error e => if e.isLookupOrValue then .ok none else .error e

/-- A string member that passed validation: null reads as `None`. -/
def Json.asStr? : Json → Option Str
  | .str s => some s
  | _ => none

/-- An integer member that passed validation: null reads as `None`. -/
def Json.asInt? : Json → Option ℤ
  | .int n => some n
  | _ => none

/-- An object member that passed validation: null, and nothing, read as the empty object. -/
def Json.asMembers : Json → Members
  | .obj m => m
  | _ => []

namespace Members

variable (m : Members)

/-- Missing required fields. -/
def missingViolations : List Violation :=
  (REQUIRED_FIELDS.filter fun name => !m.has name).map .missing

/-- A version that is present and not this one. -/
def versionViolations : List Violation :=
  match m.get (py "extension_version") with
  | .null => []
  | version => if version = .str EXTENSION_VERSION then [] else [.version version]

/-- A `node_id` that is present and out of its pattern. -/
def nodeIdViolations : List Violation :=
  match m.get (py "node_id") with
  | .null => []
  | .str s => if NODE_ID_RE s then [] else [.nodeId]
  | _ => [.nodeId]

/-- A `boot_id` that is present and out of its pattern. -/
def bootIdViolations : List Violation :=
  match m.get (py "boot_id") with
  | .null => []
  | .str s => if BOOT_ID_RE s then [] else [.bootId]
  | _ => [.bootId]

/-- A `sequence` that is present and no integer, or negative; a boolean is no integer here. -/
def sequenceViolations : List Violation :=
  match m.get (py "sequence") with
  | .null => []
  | .int n => if n < 0 then [.sequenceNegative] else []
  | _ => [.sequenceType]

/-- One timestamp: what it reads as, and the violation if it is present and malformed. -/
def readTimestamp (name : Str) : Except Error (Option Datetime × List Violation) :=
  match m.get name with
  | .null => .ok (none, [])
  | value =>
    match attempt (parseRfc3339 value) with
    | .error e => .error e
    | .ok (some t) => .ok (some t, [])
    | .ok none => .ok (none, [.timestamp name])

/-- The window of two instants. -/
def windowViolations : Option Datetime → Option Datetime → List Violation
  | some issuedAt, some expiresAt =>
    let window := expiresAt.instant - issuedAt.instant
    if window ≤ 0 then [.window] else if MAX_LEASE < window then [.leaseWindow] else []
  | _, _ => []

/-- `extensions`, if present, is an object with namespaced keys. -/
def extensionsViolations : List Violation :=
  match m.get EXTENSIONS_KEY with
  | .null => []
  | .obj e => (e.filter fun p => !namespaced p.1).map fun p => .extensionKey p.1
  | _ => [.extensionsType]

/-- Members that are neither core fields nor namespaced. -/
def unknownViolations : List Violation :=
  (m.filter fun p =>
    !(REQUIRED_FIELDS.contains p.1 || p.1 == EXTENSIONS_KEY) && !namespaced p.1).map
    fun p => .unknownMember p.1

/-- Every structural violation of an object, in the order of the source. -/
def violations : Except Error (List Violation) := do
  let (issuedAt, out₁) ← m.readTimestamp (py "issued_at")
  let (expiresAt, out₂) ← m.readTimestamp (py "expires_at")
  return m.missingViolations ++ m.versionViolations ++ m.nodeIdViolations ++ m.bootIdViolations ++
    m.sequenceViolations ++ out₁ ++ out₂ ++ windowViolations issuedAt expiresAt ++
    m.extensionsViolations ++ m.unknownViolations

/-- `raw[key]`. -/
def getItem (key : Str) : Except Error Json :=
  match m.item key with
  | some v => .ok v
  | none => .error (.keyError key)

/-- The two timestamps of `raw["issued_at"]` and `raw["expires_at"]`. -/
def stamps : Except Error (Datetime × Datetime) := do
  let issuedAt ← parseRfc3339 (← m.getItem (py "issued_at"))
  let expiresAt ← parseRfc3339 (← m.getItem (py "expires_at"))
  return (issuedAt, expiresAt)

/-- `expiry_window_violation`. -/
def expiryWindowViolation : Except Error (Option ViolationCode) := do
  match ← attempt m.stamps with
  | none => return none
  | some (issuedAt, expiresAt) =>
    let window := expiresAt.instant - issuedAt.instant
    return if window ≤ 0 then some .invalidExpiryWindow
      else if MAX_LEASE < window then some .expiryWindowTooLong else none

/-- `document_reason` of an object, most specific reason first. -/
def reason : Except Error (Option ViolationCode) :=
  if m.get (py "extension_version") ≠ .str EXTENSION_VERSION then
    .ok (some .unsupportedExtensionVersion)
  else do
    match ← m.expiryWindowViolation with
    | some window => return some window
    | none => return if (← m.violations) = [] then none else some .schemaInvalid

/-- `Heartbeat.from_dict` of an object. -/
def heartbeat : Except Error Heartbeat :=
  let version := m.get (py "extension_version")
  if version ≠ .str EXTENSION_VERSION then
    .error (.heartbeat (.unsupportedExtensionVersion version EXTENSION_VERSION))
  else do
    let out ← m.violations
    if out ≠ [] then .error (.heartbeat (.invalidHeartbeat out))
    let nodeId ← m.getItem (py "node_id")
    let bootId ← m.getItem (py "boot_id")
    let sequence ← m.getItem (py "sequence")
    let (issuedAt, expiresAt) ← m.stamps
    return {
      nodeId := nodeId.asStr?
      bootId := bootId.asStr?
      sequence := sequence.asInt?
      issuedAt := issuedAt
      expiresAt := expiresAt
      extensionVersion := EXTENSION_VERSION
      -- `raw.get(EXTENSIONS_KEY) or {}`
      extensions := (m.get EXTENSIONS_KEY).asMembers }

end Members

/-- `validate_document`: empty means valid. -/
def validateDocument : Json → Except Error (List Violation)
  | .obj m => Members.violations m
  | _ => .ok [.notObject]

/-- `document_reason`: the single most specific reason to refuse a document, or `None`. -/
def documentReason : Json → Except Error (Option ViolationCode)
  | .obj m => Members.reason m
  | _ => .ok (some .schemaInvalid)

/-- `Heartbeat.from_dict`. -/
def Heartbeat.fromDict : Json → Except Error Heartbeat
  | .obj m => Members.heartbeat m
  | _ => .error (.heartbeat (.invalidHeartbeat [.notObject]))

end McpHeartbeat
