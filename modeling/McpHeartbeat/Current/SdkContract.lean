import McpHeartbeat.Current.Advertising
import McpHeartbeat.Current.Contract
import McpHeartbeat.Current.Errors
import McpHeartbeat.Py.Dump

/-!
# The pinned SDK

What the official SDK says is re-derived where it can be imported.

* `SdkPin`, `SDK_PIN`, `InstalledSdk`: the pin, and what is read off an SDK;
* `sdkProvenance`, `assertContractMatchesSdk`: what is installed, and whether the contract holds;
* **`assertContract_ok_iff`**: it holds exactly where every constant and the identifier grammar
  agree.
-/

namespace McpHeartbeat

/-! ## The pin -/

/-- `SdkPin`. -/
structure SdkPin where
  distribution : Str
  version : Str
  typesDistribution : Str
  typesVersion : Str
  implementsRevision : Str
  requiresPython : Str

/-- `SdkPin.to_dict`. -/
def SdkPin.toDict (self : SdkPin) : Members :=
  [(py "distribution", .str self.distribution), (py "version", .str self.version),
    (py "types_distribution", .str self.typesDistribution),
    (py "types_version", .str self.typesVersion),
    (py "implements_revision", .str self.implementsRevision),
    (py "requires_python", .str self.requiresPython)]

/-- `SDK_PIN`. -/
def SDK_PIN : SdkPin where
  distribution := py "mcp"
  version := py "2.0.0"
  typesDistribution := py "mcp-types"
  typesVersion := py "2.0.0"
  implementsRevision := PROTOCOL_REVISION
  requiresPython := py ">=3.10"

/-- The revisions that open with a handshake. -/
def HANDSHAKE_PROTOCOL_VERSIONS : List Str :=
  [py "2024-11-05", py "2025-03-26", py "2025-06-18", py "2025-11-25"]

def SERVER_INFO_META_KEY : Str := py "io.modelcontextprotocol/serverInfo"

def MISSING_REQUIRED_CLIENT_CAPABILITY : ℤ := -32021

/-! ## An SDK -/

/-- What is read off an SDK that can be imported, and off the metadata of the installation. -/
structure InstalledSdk where
  modernProtocolVersions : List Str
  latestModernVersion : Str
  handshakeProtocolVersions : List Str
  protocolVersionMetaKey : Str
  clientInfoMetaKey : Str
  clientCapabilitiesMetaKey : Str
  serverInfoMetaKey : Str
  subscriptionIdMetaKey : Str
  mcpProtocolVersionHeader : Str
  mcpMethodHeader : Str
  mcpNameHeader : Str
  nameBearingMethods : List (Str × Str)
  headerMismatch : ℤ
  unsupportedProtocolVersion : ℤ
  missingRequiredClientCapability : ℤ
  invalidParams : ℤ
  invalidRequest : ℤ
  methodNotFound : ℤ
  /-- `validate_extension_identifier` raises neither `TypeError` nor `ValueError`. -/
  validIdentifier : Str → Bool
  /-- `importlib.metadata.version`; `none` where the distribution is not found. -/
  version : Str → Option Str

/-- A tuple of texts. -/
def textsOf (texts : List Str) : Json := .arr (texts.map .str)

/-- A dictionary of texts. -/
def namesOf (names : List (Str × Str)) : Json := .obj (names.map fun p => (p.1, .str p.2))

/-- A text, or `None`. -/
def textOrNone (text : Option Str) : Json := (text.map Json.str).getD .null

/-- `sdk_provenance`, where the SDK can be imported. -/
def sdkProvenance (sdk : InstalledSdk) : Members :=
  [(py "artifact", .str (py "sdk-provenance")),
    (py "pinned", .obj SDK_PIN.toDict),
    (py "installed", .obj
      [(SDK_PIN.distribution, textOrNone (sdk.version SDK_PIN.distribution)),
        (SDK_PIN.typesDistribution, textOrNone (sdk.version SDK_PIN.typesDistribution))]),
    (py "matches_pin", .bool (sdk.version SDK_PIN.distribution = some SDK_PIN.version &&
      sdk.version SDK_PIN.typesDistribution = some SDK_PIN.typesVersion)),
    (py "modern_protocol_versions", textsOf sdk.modernProtocolVersions),
    (py "latest_modern_version", .str sdk.latestModernVersion),
    (py "handshake_protocol_versions", textsOf sdk.handshakeProtocolVersions),
    (py "extension_identifier", .str HEARTBEAT_EXTENSION_ID)]

/-- One entry of `checks`: a constant of the contract, and what the SDK says. -/
structure Constant where
  name : Str
  ours : Json
  theirs : Json

/-- `ours == theirs`: dictionaries in any order. -/
def Constant.agrees (k : Constant) : Bool := k.ours.canon = k.theirs.canon

/-- `checks` of `assert_contract_matches_sdk`. -/
def contractChecks (sdk : InstalledSdk) : List Constant :=
  [⟨py "MODERN_PROTOCOL_VERSIONS", textsOf MODERN_PROTOCOL_VERSIONS,
      textsOf sdk.modernProtocolVersions⟩,
    ⟨py "PROTOCOL_REVISION", .str PROTOCOL_REVISION, .str sdk.latestModernVersion⟩,
    ⟨py "HANDSHAKE_PROTOCOL_VERSIONS", textsOf HANDSHAKE_PROTOCOL_VERSIONS,
      textsOf sdk.handshakeProtocolVersions⟩,
    ⟨py "PROTOCOL_VERSION_META_KEY", .str PROTOCOL_VERSION_META_KEY,
      .str sdk.protocolVersionMetaKey⟩,
    ⟨py "CLIENT_INFO_META_KEY", .str CLIENT_INFO_META_KEY, .str sdk.clientInfoMetaKey⟩,
    ⟨py "CLIENT_CAPABILITIES_META_KEY", .str CLIENT_CAPABILITIES_META_KEY,
      .str sdk.clientCapabilitiesMetaKey⟩,
    ⟨py "SERVER_INFO_META_KEY", .str SERVER_INFO_META_KEY, .str sdk.serverInfoMetaKey⟩,
    ⟨py "SUBSCRIPTION_ID_META_KEY", .str SUBSCRIPTION_ID_META_KEY,
      .str sdk.subscriptionIdMetaKey⟩,
    ⟨py "MCP_PROTOCOL_VERSION_HEADER", .str MCP_PROTOCOL_VERSION_HEADER,
      .str sdk.mcpProtocolVersionHeader⟩,
    ⟨py "MCP_METHOD_HEADER", .str MCP_METHOD_HEADER, .str sdk.mcpMethodHeader⟩,
    ⟨py "MCP_NAME_HEADER", .str MCP_NAME_HEADER, .str sdk.mcpNameHeader⟩,
    ⟨py "NAME_BEARING_METHODS", namesOf NAME_BEARING_METHODS, namesOf sdk.nameBearingMethods⟩,
    ⟨py "HEADER_MISMATCH", .int HEADER_MISMATCH, .int sdk.headerMismatch⟩,
    ⟨py "UNSUPPORTED_PROTOCOL_VERSION", .int UNSUPPORTED_PROTOCOL_VERSION,
      .int sdk.unsupportedProtocolVersion⟩,
    ⟨py "MISSING_REQUIRED_CLIENT_CAPABILITY", .int MISSING_REQUIRED_CLIENT_CAPABILITY,
      .int sdk.missingRequiredClientCapability⟩,
    ⟨py "INVALID_PARAMS", .int INVALID_PARAMS, .int sdk.invalidParams⟩,
    ⟨py "INVALID_REQUEST", .int INVALID_REQUEST, .int sdk.invalidRequest⟩,
    ⟨py "METHOD_NOT_FOUND", .int METHOD_NOT_FOUND, .int sdk.methodNotFound⟩]

/-- `_IDENTIFIER_CORPUS`. -/
def IDENTIFIER_CORPUS : List Str :=
  [HEARTBEAT_EXTENSION_ID, py "io.modelcontextprotocol/tasks", py "com.example/thing-1",
    py "a.b.c/d.e-f", py "nodot/name", py "noslash", py "", py "/leading", py "trailing/",
    py "com.dougfirlabs/", py "-bad.prefix/name", py "com.dougfirlabs/heartbeat lease"]

/-! ## The comparison -/

/-- What `assert_contract_matches_sdk` raises. -/
inductive ContractError
  | sdkUnavailable
  | assertion (text : Str)
deriving DecidableEq

/-- The name of the type of the exception. -/
def ContractError.typeName : ContractError → Str
  | sdkUnavailable => py "SdkUnavailable"
  | assertion _ => py "AssertionError"

/-- The text of the exception. -/
def ContractError.message : ContractError → Str
  | sdkUnavailable =>
    py "the current adapter's SDK binding requires " ++ SDK_PIN.distribution ++ py "==" ++
      SDK_PIN.version ++ py " and " ++ SDK_PIN.typesDistribution ++ py "==" ++
      SDK_PIN.typesVersion ++ py "; install them (see tools/verify_sdk.sh)"
  | assertion text => text

/-- What `assert_contract_matches_sdk` returns where it returns. -/
def comparisonTable (sdk : InstalledSdk) : Members :=
  [(py "artifact", .str (py "sdk-contract-conformance")),
    (py "sdk", .obj (sdkProvenance sdk)),
    (py "constants", .arr ((contractChecks sdk).map fun k => .obj
      [(py "constant", .str k.name), (py "value", k.theirs), (py "matches", .bool true)])),
    (py "extension_identifier_grammar", .arr (IDENTIFIER_CORPUS.map fun candidate => .obj
      [(py "identifier", .str candidate), (py "valid", .bool (sdk.validIdentifier candidate))]))]

section

variable (repr : Json → Str)

/-- The divergence of a constant. -/
def Constant.divergence (k : Constant) : ContractError :=
  .assertion (py "contract." ++ k.name ++ py " = " ++ repr k.ours ++ py " but the SDK says " ++
    repr k.theirs)

/-- The divergence of the identifier grammar. -/
def identifierDivergence (sdk : InstalledSdk) (candidate : Str) : ContractError :=
  .assertion (py "extension identifier " ++ repr (.str candidate) ++ py ": local grammar says " ++
    repr (.bool (isValidExtensionIdentifier candidate)) ++ py ", SDK says " ++
    repr (.bool (sdk.validIdentifier candidate)))

/-- `assert_contract_matches_sdk`: the first divergence is raised. -/
def assertContractMatchesSdk (sdk : Option InstalledSdk) : Except ContractError Members :=
  match sdk with
  | none => .error .sdkUnavailable
  | some sdk =>
    match (contractChecks sdk).find? fun k => !k.agrees with
    | some k => .error (k.divergence repr)
    | none =>
      match IDENTIFIER_CORPUS.find? fun candidate =>
          isValidExtensionIdentifier candidate != sdk.validIdentifier candidate with
      | some candidate => .error (identifierDivergence repr sdk candidate)
      | none =>
        if PROTOCOL_REVISION ∈ sdk.modernProtocolVersions then
          .ok (comparisonTable sdk)
        else
          .error (.assertion (PROTOCOL_REVISION ++ py " is not a modern revision in this SDK"))

end

/-- The contract is the one of the SDK. -/
structure InstalledSdk.Agrees (sdk : InstalledSdk) : Prop where
  constants : ∀ k ∈ contractChecks sdk, k.agrees = true
  grammar : ∀ candidate ∈ IDENTIFIER_CORPUS,
    isValidExtensionIdentifier candidate = sdk.validIdentifier candidate

variable {repr : Json → Str} {sdk : InstalledSdk}

/-- A constant of an SDK that agrees. -/
theorem InstalledSdk.Agrees.canon (h : sdk.Agrees) {k : Constant} (hk : k ∈ contractChecks sdk) :
    k.ours.canon = k.theirs.canon := of_decide_eq_true (h.constants k hk)

/-- An SDK that agrees has the pinned revision. -/
theorem InstalledSdk.Agrees.revision (h : sdk.Agrees) :
    sdk.latestModernVersion = PROTOCOL_REVISION := by
  have hmem : ⟨py "PROTOCOL_REVISION", .str PROTOCOL_REVISION, .str sdk.latestModernVersion⟩ ∈
      contractChecks sdk := by simp [contractChecks]
  exact (Json.str.inj (h.canon hmem)).symm

/-- A tuple of texts determines them. -/
theorem textsOf_canon_inj {xs ys : List Str} (h : (textsOf xs).canon = (textsOf ys).canon) :
    xs = ys := by
  have hlist : ∀ xs : List Str, Json.canonList (xs.map .str) = xs.map .str := by
    intro xs
    induction xs with
    | nil => rw [List.map_nil, Json.canonList]
    | cons x xs ih => rw [List.map_cons, Json.canonList, Json.canon, ih]
  unfold textsOf at h
  rw [Json.canon, Json.canon, hlist, hlist] at h
  exact List.map_injective_iff.mpr (fun _ _ => Json.str.inj) (Json.arr.inj h)

/-- An SDK that agrees speaks the pinned revision. -/
theorem InstalledSdk.Agrees.modern (h : sdk.Agrees) :
    PROTOCOL_REVISION ∈ sdk.modernProtocolVersions := by
  have hmem : ⟨py "MODERN_PROTOCOL_VERSIONS", textsOf MODERN_PROTOCOL_VERSIONS,
      textsOf sdk.modernProtocolVersions⟩ ∈ contractChecks sdk := by simp [contractChecks]
  rw [← textsOf_canon_inj (h.canon hmem)]
  exact List.mem_singleton.mpr rfl

/-- **The contract holds** exactly where every constant and the identifier grammar agree; else
something is raised. -/
theorem assertContract_ok_iff {provenance : Members} {installed : Option InstalledSdk} :
    assertContractMatchesSdk repr installed = .ok provenance ↔
      ∃ sdk, installed = some sdk ∧ sdk.Agrees ∧ provenance = comparisonTable sdk := by
  cases installed with
  | none =>
    refine iff_of_false nofun ?_
    rintro ⟨sdk, hsdk, -⟩
    cases hsdk
  | some sdk =>
    unfold assertContractMatchesSdk
    dsimp only
    cases hconstants : (contractChecks sdk).find? fun k => !k.agrees with
    | some k =>
      refine iff_of_false nofun ?_
      rintro ⟨sdk', hsdk, hagrees, -⟩
      obtain rfl := Option.some.inj hsdk
      have hdiffers := List.find?_some hconstants
      rw [hagrees.constants k (List.mem_of_find?_eq_some hconstants)] at hdiffers
      cases hdiffers
    | none =>
      cases hgrammar : IDENTIFIER_CORPUS.find? fun candidate =>
          isValidExtensionIdentifier candidate != sdk.validIdentifier candidate with
      | some candidate =>
        refine iff_of_false nofun ?_
        rintro ⟨sdk', hsdk, hagrees, -⟩
        obtain rfl := Option.some.inj hsdk
        have hdiffers := List.find?_some hgrammar
        rw [hagrees.grammar candidate (List.mem_of_find?_eq_some hgrammar)] at hdiffers
        exact absurd hdiffers (by simp)
      | none =>
        have hagrees : sdk.Agrees := {
          constants := by
            intro k hk
            simpa using List.find?_eq_none.mp hconstants k hk
          grammar := by
            intro candidate hcandidate
            simpa using List.find?_eq_none.mp hgrammar candidate hcandidate }
        dsimp only
        rw [if_pos hagrees.modern]
        constructor
        · intro h
          exact ⟨sdk, rfl, hagrees, (Except.ok.inj h).symm⟩
        · rintro ⟨sdk', hsdk, -, rfl⟩
          obtain rfl := Option.some.inj hsdk
          rfl

/-- The pinned SDK, installed. -/
def pinnedSdk : InstalledSdk where
  modernProtocolVersions := MODERN_PROTOCOL_VERSIONS
  latestModernVersion := PROTOCOL_REVISION
  handshakeProtocolVersions := HANDSHAKE_PROTOCOL_VERSIONS
  protocolVersionMetaKey := PROTOCOL_VERSION_META_KEY
  clientInfoMetaKey := CLIENT_INFO_META_KEY
  clientCapabilitiesMetaKey := CLIENT_CAPABILITIES_META_KEY
  serverInfoMetaKey := SERVER_INFO_META_KEY
  subscriptionIdMetaKey := SUBSCRIPTION_ID_META_KEY
  mcpProtocolVersionHeader := MCP_PROTOCOL_VERSION_HEADER
  mcpMethodHeader := MCP_METHOD_HEADER
  mcpNameHeader := MCP_NAME_HEADER
  nameBearingMethods := NAME_BEARING_METHODS
  headerMismatch := HEADER_MISMATCH
  unsupportedProtocolVersion := UNSUPPORTED_PROTOCOL_VERSION
  missingRequiredClientCapability := MISSING_REQUIRED_CLIENT_CAPABILITY
  invalidParams := INVALID_PARAMS
  invalidRequest := INVALID_REQUEST
  methodNotFound := METHOD_NOT_FOUND
  validIdentifier := isValidExtensionIdentifier
  version _ := some (py "2.0.0")

end McpHeartbeat
