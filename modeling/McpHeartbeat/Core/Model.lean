import McpHeartbeat.Core.Errors
import McpHeartbeat.Py.Datetime

/-!
# The heartbeat and its canonical encoding

* `Platform`: what the interpreter supplies and the model leaves open;
* `formatRfc3339`, `parseRfc3339`, `canonicalJson`, `digestOf`;
* `Heartbeat`, with `toDict`, `digest`, `isFresh`.

A heartbeat read from a document may hold `None` where the document has a null member, so the two
identifiers and the sequence are optional.
-/

namespace McpHeartbeat

/-- What the interpreter supplies: `hashlib.sha256(raw).hexdigest()`, and whether `%Y` pads. -/
structure Platform where
  sha256 : ByteArray → Str
  padsYear : Bool

/-- Version of this contract. -/
def EXTENSION_VERSION : Str := py "0.1"

/-- Optional data lives here. -/
def EXTENSIONS_KEY : Str := py "extensions"

/-- The mandatory wire members, in schema order. -/
def CORE_FIELDS : List Str :=
  [py "extension_version", py "node_id", py "boot_id", py "sequence", py "issued_at",
    py "expires_at"]

/-! ## Identifier patterns -/

/-- `[A-Za-z0-9]`. -/
def isAlnum : CodePoint → Bool
  | .scalar c => c.isAlphanum
  | .surrogate _ => false

/-- `[A-Za-z0-9]` or one of `extra`. -/
def isIdSymbol (extra : String) (c : CodePoint) : Bool := isAlnum c || (py extra).contains c

/-- The whole of `s` is `[A-Za-z0-9]` and then at most `n` symbols. -/
def idWord (extra : String) (n : ℕ) : Str → Bool
  | [] => false
  | c :: s => isAlnum c && decide (s.length ≤ n) && s.all (isIdSymbol extra)

/-- `re.match("^word$", s)`: the dollar also matches before a final newline. -/
def matchDollar (word : Str → Bool) (s : Str) : Bool :=
  word s || (s.getLast? == some (.scalar '\n') && word s.dropLast)

/-- `_NODE_ID_RE.match`. -/
def NODE_ID_RE (s : Str) : Bool := matchDollar (idWord "._:/+-" 254) s

/-- `_BOOT_ID_RE.match`. -/
def BOOT_ID_RE (s : Str) : Bool := matchDollar (idWord "._-" 127) s

/-! ## Timestamps -/

variable (P : Platform)

/-- `format_rfc3339`: the microseconds lose their last three digits. -/
def formatRfc3339 (moment : Datetime) : Str :=
  (strftime P.padsYear moment).dropLast.dropLast.dropLast ++ py "Z"

/-- `parse_rfc3339`. -/
def parseRfc3339 : Json → Except Error Datetime
  | .str (c :: s) =>
    let text := c :: s
    let candidate :=
      if text.getLast? = some (.scalar 'Z') then text.dropLast ++ py "+00:00" else text
    match fromisoformat candidate with
    | none => .error (.valueError (.malformed candidate))
    | some (_, none) => .error (.valueError (.noOffset text))
    | some (parsed, some offset) =>
      -- `astimezone` leaves the calendar when the offset carries the instant out of it
      match Datetime.ofInstant? (parsed - offset) with
      | none => .error .overflowError
      | some t => .ok t
  | _ => .error (.valueError .notText)

/-! ## Canonical encoding -/

/-- `canonical_json`. -/
def canonicalJson (payload : Json) : Str := payload.canon.dump Json.escape

/-- `digest_of`. -/
def digestOf (payload : Json) : Except Error Str :=
  match (canonicalJson payload).encode with
  | none => .error .unicodeEncodeError
  | some raw => .ok (py "sha256:" ++ P.sha256 raw)

/-! ## Identity -/

/-- Whether an adapter tied a claimed participant to a real principal. -/
inductive IdentityBinding
  | bound
  | unbound
  | unverified
deriving DecidableEq, Repr

/-- A participant identity as claimed by a heartbeat. -/
structure IdentityClaim where
  participantId : Str
  epochId : Str
  binding : IdentityBinding := .unverified
deriving DecidableEq

/-! ## The document -/

/-- One immutable, ordered liveness lease. -/
structure Heartbeat where
  nodeId : Option Str
  bootId : Option Str
  sequence : Option ℤ
  issuedAt : Datetime
  expiresAt : Datetime
  extensionVersion : Str
  extensions : Members
deriving DecidableEq

/-- A string, or null for `None`. -/
def Json.ofStr? : Option Str → Json
  | some s => .str s
  | none => .null

/-- An integer, or null for `None`. -/
def Json.ofInt? : Option ℤ → Json
  | some n => .int n
  | none => .null

namespace Heartbeat

/-- `Heartbeat.to_dict`: the six fields, plus extensions if any. -/
def toDict (h : Heartbeat) : Json :=
  .obj ([(py "extension_version", .str h.extensionVersion),
    (py "node_id", Json.ofStr? h.nodeId),
    (py "boot_id", Json.ofStr? h.bootId),
    (py "sequence", Json.ofInt? h.sequence),
    (py "issued_at", .str (formatRfc3339 P h.issuedAt)),
    (py "expires_at", .str (formatRfc3339 P h.expiresAt))] ++
    if h.extensions = [] then [] else [(EXTENSIONS_KEY, .obj h.extensions)])

/-- `Heartbeat.digest`. -/
def digest (h : Heartbeat) : Except Error Str := digestOf P (h.toDict P)

/-- `Heartbeat.remaining_seconds`, in microseconds. -/
def remaining (h : Heartbeat) (now : ℤ) : ℤ := h.expiresAt.instant - now

/-- `Heartbeat.is_fresh`. -/
def isFresh (h : Heartbeat) (now : ℤ) : Bool := decide (0 < h.remaining now)

end Heartbeat

end McpHeartbeat
