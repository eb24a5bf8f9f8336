import Mathlib.Data.Finset.Insert
import McpHeartbeat.Core.Validation

/-!
# The clean-room participant

The second implementation of the contract, written from the schema and the prose alone.

* `parseTimestamp`, `validate`, `canonicalJson`, `digest`, `isFresh`;
* `Issuer.issue`, `Issuer.restart`; `Consumer.admitDocument`.

An aware `datetime` is its instant: comparing two of them, or subtracting one from the other, takes
the offsets off without going through the calendar.
-/

namespace McpHeartbeat.CleanRoom

variable (P : Platform)

/-! ## Documents -/

/-- `NODE_ID_PATTERN.match`. -/
def NODE_ID_PATTERN (s : Str) : Bool := matchDollar (idWord "._:/+-" 254) s

/-- `BOOT_ID_PATTERN.match`. -/
def BOOT_ID_PATTERN (s : Str) : Bool := matchDollar (idWord "._-" 127) s

/-- `REQUIRED_FIELDS`. -/
def REQUIRED_FIELDS : List Str :=
  [py "extension_version", py "node_id", py "boot_id", py "sequence", py "issued_at",
    py "expires_at"]

/-- `MAX_LEASE_SECONDS`, in microseconds. -/
def MAX_LEASE : ℤ := 3600 * second

/-- One violation of a document. -/
inductive Violation
  | notObject
  | missing (field : Str)
  | version (found : Json)
  | nodeId
  | bootId
  | sequenceType
  | sequenceNegative
  | timestamp (field : Str)
  | window
  | leaseWindow (found : ℤ)
  | extensionsType
  | extensionKey (key : Str)
  | unknownMember (key : Str)
deriving DecidableEq

/-- The text of a violation, with the `repr` and the `:g` of the interpreter. -/
def Violation.text (repr : Json → Str) (general : ℤ → Str) : Violation → Str
  | notObject => py "document must be a JSON object"
  | missing field => py "missing required field: " ++ field
  | version found => py "extension_version must be '0.1', got " ++ repr found
  | nodeId => py "node_id does not match the contract pattern"
  | bootId => py "boot_id does not match the contract pattern"
  | sequenceType => py "sequence must be an integer"
  | sequenceNegative => py "sequence must be >= 0"
  | timestamp field => field ++ py " must be an RFC 3339 instant with an offset"
  | window => py "expires_at must be strictly after issued_at"
  | leaseWindow found =>
    py "the expiry window must be at most 3600s, got " ++ general found ++ py "s"
  | extensionsType => py "extensions must be an object"
  | extensionKey key => py "extension key " ++ repr (.str key) ++ py " is not namespaced"
  | unknownMember key => py "unknown member " ++ repr (.str key) ++ py " is not namespaced"

/-- `parse_timestamp`: the instant, or `None`. -/
def parseTimestamp : Json → Option ℤ
  | .str raw =>
    let text := if raw.getLast? = some (.scalar 'Z') then raw.dropLast ++ py "+00:00" else raw
    match fromisoformat text with
    | some (parsed, some offset) => some (parsed - offset)
    | _ => none
  | _ => none

section Validate

variable (m : Members)

/-- Missing required members. -/
def missingViolations : List Violation :=
  (REQUIRED_FIELDS.filter fun name => !m.has name).map .missing

/-- A version that is present and not this one. -/
def versionViolations : List Violation :=
  match m.get (py "extension_version") with
  | .null => []
  | version => if version = .str EXTENSION_VERSION then [] else [.version version]

/-- A `node_id` that is present and out of its pattern. -/
def nodeIdViolations : List Violation :=
  match m.get (py "node_id") with
  | .null => []
  | .str s => if NODE_ID_PATTERN s then [] else [.nodeId]
  | _ => [.nodeId]

/-- A `boot_id` that is present and out of its pattern. -/
def bootIdViolations : List Violation :=
  match m.get (py "boot_id") with
  | .null => []
  | .str s => if BOOT_ID_PATTERN s then [] else [.bootId]
  | _ => [.bootId]

/-- A `sequence` that is present and no integer, or negative. -/
def sequenceViolations : List Violation :=
  match m.get (py "sequence") with
  | .null => []
  | .int n => if n < 0 then [.sequenceNegative] else []
  | _ => [.sequenceType]

/-- A timestamp that is there and cannot be read, a null one included. -/
def timestampViolations (name : Str) : List Violation :=
  if m.has name ∧ parseTimestamp (m.get name) = none then [.timestamp name] else []

/-- The window of two instants. -/
def windowViolations : Option ℤ → Option ℤ → List Violation
  | some issuedAt, some expiresAt =>
    let window := expiresAt - issuedAt
    if window ≤ 0 then [.window] else if MAX_LEASE < window then [.leaseWindow window] else []
  | _, _ => []

/-- `extensions`, if present, is an object with namespaced keys. -/
def extensionsViolations : List Violation :=
  match m.get (py "extensions") with
  | .null => []
  | .obj e => (e.filter fun p => !p.1.contains (.scalar '.')).map fun p => .extensionKey p.1
  | _ => [.extensionsType]

/-- Members that are neither known nor namespaced. -/
def unknownViolations : List Violation :=
  (m.filter fun p => !(REQUIRED_FIELDS.contains p.1 || p.1 == py "extensions") &&
    !p.1.contains (.scalar '.')).map fun p => .unknownMember p.1

/-- Every violation of an object, in the order of the source. -/
def violations : List Violation :=
  missingViolations m ++ versionViolations m ++ nodeIdViolations m ++ bootIdViolations m ++
    sequenceViolations m ++ timestampViolations m (py "issued_at") ++
    timestampViolations m (py "expires_at") ++
    windowViolations (parseTimestamp (m.get (py "issued_at")))
      (parseTimestamp (m.get (py "expires_at"))) ++
    extensionsViolations m ++ unknownViolations m

end Validate

/-- `validate`: an empty list means valid. -/
def validate : Json → List Violation
  | .obj m => violations m
  | _ => [.notObject]

/-- `canonical_json`: `ensure_ascii` is on. -/
def canonicalJson (document : Json) : Str := document.canon.dump Json.escapeAscii

/-- `digest`. -/
def digest (document : Json) : Except Error Str :=
  match (canonicalJson document).encode with
  | none => .error .unicodeEncodeError
  | some raw => .ok (py "sha256:" ++ P.sha256 raw)

/-- `is_fresh`. -/
def isFresh (m : Members) (now : ℤ) : Bool :=
  (parseTimestamp (m.get (py "expires_at"))).any fun expiresAt => decide (now < expiresAt)

/-- `_format`. -/
def format (moment : Datetime) : Str :=
  strftimeSeconds P.padsYear moment ++ fixed 3 (moment.timeOfDay % second / 1000) ++ py "Z"

/-! ## The issuer -/

/-- `CleanRoomIssuer`; the lease is in microseconds. -/
structure Issuer where
  nodeId : Str
  bootId : Str
  lease : ℤ := 30 * second
  sequence : ℤ := -1

namespace Issuer

/-- `CleanRoomIssuer.issue`: the counter has risen before the end of the lease is computed. -/
def issue (s : Issuer) (now : Datetime) : Except Error Json × Issuer :=
  let s := { s with sequence := s.sequence + 1 }
  match now.add? s.lease with
  | none => (.error .overflowError, s)
  | some expiresAt =>
    (.ok (.obj [(py "extension_version", .str EXTENSION_VERSION),
      (py "node_id", .str s.nodeId),
      (py "boot_id", .str s.bootId),
      (py "sequence", .int s.sequence),
      (py "issued_at", .str (format P now)),
      (py "expires_at", .str (format P expiresAt))]), s)

/-- `CleanRoomIssuer.restart`. -/
def restart (s : Issuer) (bootId : Str) : Issuer := { s with bootId, sequence := -1 }

end Issuer

/-! ## The consumer -/

/-- What `admit` answers. -/
inductive Answer
  | ok
  | schemaInvalid
  | nodeIdMismatch
  | expiredOnArrival
  | bootIdReuse
  | sequenceRollback
  | duplicate
  | sequenceConflict
deriving DecidableEq, Repr

/-- The text of an answer. -/
def Answer.text : Answer → Str
  | ok => py "ok"
  | schemaInvalid => py "schema_invalid"
  | nodeIdMismatch => py "node_id_mismatch"
  | expiredOnArrival => py "expired_on_arrival"
  | bootIdReuse => py "boot_id_reuse"
  | sequenceRollback => py "sequence_rollback"
  | duplicate => py "duplicate"
  | sequenceConflict => py "sequence_conflict"

/-- `CleanRoomConsumer`. -/
structure Consumer where
  nodeId : Str
  held : Option Members := none
  seenEpochs : Finset Json := ∅

/-- `a < b` of two sequences; an order with `None` is a `TypeError`. -/
def sequenceLt : Json → Json → Except Error Bool
  | .int a, .int b => .ok (decide (a < b))
  | _, _ => .error .typeError

namespace Consumer

variable (c : Consumer)

/-- `CleanRoomConsumer._hold`. -/
def hold (m : Members) : Consumer :=
  { c with held := some m, seenEpochs := insert (m.get (py "boot_id")) c.seenEpochs }

/-- What an object answers against the held one of its epoch. -/
def against (m held : Members) : Except Error Answer := do
  if ← sequenceLt (m.get (py "sequence")) (held.get (py "sequence")) then return .sequenceRollback
  if m.get (py "sequence") = held.get (py "sequence") then
    return if (← digest P (.obj m)) = (← digest P (.obj held)) then .duplicate
      else .sequenceConflict
  return .ok

/-- What a valid object answers. -/
def answer (m : Members) (now : ℤ) : Except Error Answer :=
  if m.get (py "node_id") ≠ .str c.nodeId then .ok .nodeIdMismatch
  else if !isFresh m now then .ok .expiredOnArrival
  else
    let bootId := m.get (py "boot_id")
    let fresh : Answer := if bootId ∈ c.seenEpochs then .bootIdReuse else .ok
    match c.held with
    | none => .ok fresh
    | some held => if bootId ≠ held.get (py "boot_id") then .ok fresh else against P m held

/-- `CleanRoomConsumer.admit`: it holds what it answers `ok`. -/
def admitDocument (document : Json) (now : ℤ) : Except Error Answer × Consumer :=
  match document with
  | .obj m =>
    if violations m ≠ [] then (.ok .schemaInvalid, c)
    else match c.answer P m now with
      | .ok .ok => (.ok .ok, c.hold m)
      | other => (other, c)
  | _ => (.ok .schemaInvalid, c)

end Consumer

end McpHeartbeat.CleanRoom
