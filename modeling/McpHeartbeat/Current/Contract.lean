import McpHeartbeat.Py.Str

/-!
# The pinned contract

The literals the current adapter binds to: revisions, `_meta` keys, headers, methods.
-/

namespace McpHeartbeat

/-- The revision the adapter speaks. -/
def PROTOCOL_REVISION : Str := py "2026-07-28"

/-- Revisions that convey version, identity and capabilities with each request. -/
def MODERN_PROTOCOL_VERSIONS : List Str := [py "2026-07-28"]

def PROTOCOL_VERSION_META_KEY : Str := py "io.modelcontextprotocol/protocolVersion"

def CLIENT_INFO_META_KEY : Str := py "io.modelcontextprotocol/clientInfo"

def CLIENT_CAPABILITIES_META_KEY : Str := py "io.modelcontextprotocol/clientCapabilities"

/-- The identifier of the extension. -/
def HEARTBEAT_EXTENSION_ID : Str := py "com.dougfirlabs/heartbeat"

/-- Where a change notification carries revision metadata. -/
def HEARTBEAT_HINT_META_KEY : Str := HEARTBEAT_EXTENSION_ID

def SUBSCRIPTION_ID_META_KEY : Str := py "io.modelcontextprotocol/subscriptionId"

def MCP_PROTOCOL_VERSION_HEADER : Str := py "mcp-protocol-version"

def MCP_METHOD_HEADER : Str := py "mcp-method"

def MCP_NAME_HEADER : Str := py "mcp-name"

def DISCOVER_METHOD : Str := py "server/discover"

def READ_RESOURCE_METHOD : Str := py "resources/read"

/-- Methods whose name header mirrors a parameter of the request. -/
def NAME_BEARING_METHODS : List (Str × Str) :=
  [(py "tools/call", py "name"), (py "prompts/get", py "name"), (py "resources/read", py "uri")]

def ACKNOWLEDGED_NOTIFICATION : Str := py "notifications/subscriptions/acknowledged"

def RESOURCE_UPDATED_NOTIFICATION : Str := py "notifications/resources/updated"

/-- The methods of the legacy handshake, named to be refused. -/
def HANDSHAKE_METHODS : List Str := [py "initialize", py "notifications/initialized"]

/-- Legacy headers that are dropped on receipt. -/
def IGNORED_LEGACY_HEADERS : List Str := [py "mcp-session-id", py "last-event-id"]

/-- The notifications a subscription stream may carry. -/
def LISTEN_STREAM_METHODS : List Str :=
  [py "notifications/tools/list_changed", py "notifications/prompts/list_changed",
    py "notifications/resources/list_changed", RESOURCE_UPDATED_NOTIFICATION]

/-- `is_modern`. -/
def isModern (version : Str) : Bool := version ∈ MODERN_PROTOCOL_VERSIONS

end McpHeartbeat
