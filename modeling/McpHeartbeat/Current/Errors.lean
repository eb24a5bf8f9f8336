import McpHeartbeat.Py.Json

/-!
# What the current adapter raises

* `Confusion`: why a message belongs to no era; `AdapterError`: the failures of an exchange, each
  with its code and its text.

`repr` is a parameter of the texts.
-/

namespace McpHeartbeat

def INVALID_REQUEST : ℤ := -32600

def INVALID_PARAMS : ℤ := -32602

def METHOD_NOT_FOUND : ℤ := -32601

def HEADER_MISMATCH : ℤ := -32020

def UNSUPPORTED_PROTOCOL_VERSION : ℤ := -32022

/-- Why a message is refused by the routing of eras. -/
inductive Confusion
  | noMethod
  | handshakeEnvelope (method : Str)
  | legacyOnly (method : Str)
  | modernProposal (method proposed : Str)
  | headerOnly (method header : Str)
  | neither (method : Str)
deriving DecidableEq

/-- What a refused message mixed: the mechanics of both eras, or those of neither. -/
def Confusion.both : Confusion → Bool
  | handshakeEnvelope _ | legacyOnly _ | modernProposal _ _ => true
  | noMethod | headerOnly _ _ | neither _ => false

/-- What the current adapter raises on the way in. -/
inductive AdapterError
  | malformedEnvelope (text : Str)
  | headerMismatch (text : Str)
  | unsupportedProtocolVersion (proposed : Str) (supported : List Str)
  | crossEraConfusion (why : Confusion)
deriving DecidableEq

/-- The JSON-RPC code of an error. -/
def AdapterError.code : AdapterError → ℤ
  | malformedEnvelope _ => INVALID_PARAMS
  | headerMismatch _ => HEADER_MISMATCH
  | unsupportedProtocolVersion _ _ => UNSUPPORTED_PROTOCOL_VERSION
  | crossEraConfusion _ => INVALID_REQUEST

variable (repr : Json → Str)

/-- The text of a refusal. -/
def Confusion.message : Confusion → Str
  | noMethod => py "message carries no JSON-RPC method, so no era can be determined"
  | handshakeEnvelope method =>
    repr (.str method) ++ py " is a legacy lifecycle method carrying a modern _meta envelope"
  | legacyOnly method => repr (.str method) ++ py " does not exist on the modern path"
  | modernProposal method proposed =>
    repr (.str method) ++ py " proposes modern revision " ++ repr (.str proposed) ++
      py "; modern revisions have no handshake"
  | headerOnly method header =>
    repr (.str method) ++ py " carries the " ++ header ++ py " header but no modern _meta envelope"
  | neither method =>
    repr (.str method) ++ py " carries neither a modern _meta envelope nor a legacy handshake"

/-- The text of an error. -/
def AdapterError.message : AdapterError → Str
  | malformedEnvelope text | headerMismatch text => text
  | unsupportedProtocolVersion proposed supported =>
    py "unsupported protocol version " ++ repr (.str proposed) ++ py " (supported: " ++
      (py ", ").intercalate supported ++ py ")"
  | crossEraConfusion why => why.message repr

end McpHeartbeat
