import McpHeartbeat.Base.Rekey
import McpHeartbeat.Py.Dump
import McpHeartbeat.Current.Contract
import McpHeartbeat.Current.Errors

/-!
# The metadata of a request

Version, identity and capabilities travel in the `_meta` of each request, mirrored by headers.

* `ModernRoute`, `classifyRequest`: the three rungs, of the envelope, the headers and the version;
* `Declares`, `Mirrors`: what the first two rungs let through;
* `Clears`, **`classifyRequest_iff`**: what a request that clears all of them carries;
* **`classifyRequest_refused`**: a refusal names the first rung that is missed.

`repr` is a parameter of the texts, and `lower` is `str.lower`.
-/

namespace McpHeartbeat

open Base

/-- Headers, by name. -/
abbrev Headers := Mapping Str Str

/-- A request that cleared all rungs. -/
structure ModernRoute where
  protocolVersion : Str
  method : Str
  clientInfo : Members
  clientCapabilities : Members
  ignoredHeaders : List Str := []
deriving DecidableEq

/-- What the `_meta` of a request declares. -/
structure Envelope where
  version : Str
  capabilities : Members
  clientInfo : Json
deriving DecidableEq

variable (repr : Json → Str) (lower : Str → Str)

/-- `_lower_keys`. -/
def lowerKeys (headers : Option Headers) : Headers := rekey lower (headers.getD ∅)

/-- The text of a key that `_meta` should carry. -/
def missingMeta (method key : Str) : AdapterError :=
  .malformedEnvelope (method ++ py " is missing _meta[" ++ repr (.str key) ++ py "]")

/-- The first rung: the envelope. -/
def readEnvelope (method : Str) (params : Json) : Except AdapterError Envelope :=
  match params.member (py "_meta") with
  | .obj declared =>
    match Members.get declared PROTOCOL_VERSION_META_KEY with
    | .str version =>
      if version = [] then .error (missingMeta repr method PROTOCOL_VERSION_META_KEY)
      else
        match Members.get declared CLIENT_CAPABILITIES_META_KEY with
        | .obj capabilities =>
          .ok { version, capabilities, clientInfo := Members.get declared CLIENT_INFO_META_KEY }
        | _ => .error (missingMeta repr method CLIENT_CAPABILITIES_META_KEY)
    | _ => .error (missingMeta repr method PROTOCOL_VERSION_META_KEY)
  | _ => .error (.malformedEnvelope (method ++ py " is missing the modern _meta envelope"))

/-- The value of a header that is present and differs from what it mirrors. -/
def mismatch (header : Option Str) (mirrored : Str) : Option Str := header.filter (· ≠ mirrored)

/-- The name header, where the method bears a name: it is compared if both sides have one. -/
def nameFault (lowered : Headers) (method : Str) (params : Json) : Option AdapterError :=
  match NAME_BEARING_METHODS.lookup method with
  | none => none
  | some param =>
    let bodyName := params.member param
    if bodyName = .null then none
    else (mismatch (lowered.lookup MCP_NAME_HEADER) (str repr bodyName)).map fun found =>
      .headerMismatch (MCP_NAME_HEADER ++ py " " ++ repr (.str found) ++ py " != params[" ++
        repr (.str param) ++ py "] " ++ repr bodyName)

/-- The second rung: version, method and name, as the headers mirror them. -/
def headerFault (lowered : Headers) (method version : Str) (params : Json) : Option AdapterError :=
  match mismatch (lowered.lookup MCP_PROTOCOL_VERSION_HEADER) version with
  | some found => some (.headerMismatch (MCP_PROTOCOL_VERSION_HEADER ++ py " " ++
      repr (.str found) ++ py " != _meta protocol version " ++ repr (.str version)))
  | none =>
    match mismatch (lowered.lookup MCP_METHOD_HEADER) method with
    | some found => some (.headerMismatch (MCP_METHOD_HEADER ++ py " " ++ repr (.str found) ++
        py " != method " ++ repr (.str method)))
    | none => nameFault repr lowered method params

/-- The legacy headers that arrived, and are dropped. -/
def ignoredHeaders (lowered : Headers) : List Str :=
  IGNORED_LEGACY_HEADERS.filter fun name => name ∈ lowered

/-- `client_info if isinstance(client_info, Mapping) else {}`. -/
def clientInfoOf : Json → Members
  | .obj m => m
  | _ => []

/-- `classify_request`: validate one inbound request, or raise the error of a rung. -/
def classifyRequest (body : Members) (headers : Option Headers) (supportedVersions : List Str) :
    Except AdapterError ModernRoute :=
  let lowered := lowerKeys lower headers
  match body.get (py "method") with
  | .str method =>
    if method = [] then .error (.malformedEnvelope (py "request is missing a JSON-RPC method"))
    else
      let params := body.get (py "params")
      match readEnvelope repr method params with
      | .error e => .error e
      | .ok envelope =>
        match headerFault repr lowered method envelope.version params with
        | some e => .error e
        | none =>
          if envelope.version ∉ supportedVersions then
            .error (.unsupportedProtocolVersion envelope.version supportedVersions)
          else
            .ok { protocolVersion := envelope.version, method,
                  clientInfo := clientInfoOf envelope.clientInfo,
                  clientCapabilities := envelope.capabilities,
                  ignoredHeaders := ignoredHeaders lowered }
  | _ => .error (.malformedEnvelope (py "request is missing a JSON-RPC method"))

/-! ## What clears the rungs -/

variable {repr lower} {params : Json} {method version : Str} {lowered : Headers} {e : Envelope}
  {body : Members} {headers : Option Headers} {supported : List Str} {route : ModernRoute}

/-- The `_meta` of the parameters is the object `m`, which declares the envelope. -/
structure Declares (params : Json) (m : Members) (e : Envelope) : Prop where
  declared : params.member (py "_meta") = .obj m
  version : m.get PROTOCOL_VERSION_META_KEY = .str e.version
  nonempty : e.version ≠ []
  capabilities : m.get CLIENT_CAPABILITIES_META_KEY = .obj e.capabilities
  clientInfo : m.get CLIENT_INFO_META_KEY = e.clientInfo

/-- **The first rung lets through what declares an envelope.** -/
theorem readEnvelope_iff :
    readEnvelope repr method params = .ok e ↔ ∃ m, Declares params m e := by
  constructor
  · intro h
    unfold readEnvelope at h
    split at h
    · rename_i m hdeclared
      split at h
      · rename_i version hversion
        split_ifs at h with hempty
        split at h
        · rename_i capabilities hcapabilities
          obtain rfl := Except.ok.inj h
          exact ⟨m, hdeclared, hversion, hempty, hcapabilities, rfl⟩
        · cases h
      · cases h
    · cases h
  · rintro ⟨m, h⟩
    unfold readEnvelope
    rw [h.declared]
    dsimp only
    rw [h.version]
    dsimp only
    rw [if_neg h.nonempty, h.capabilities]
    dsimp only
    rw [h.clientInfo]

/-- The headers that are present mirror the request. -/
structure Mirrors (repr : Json → Str) (lowered : Headers) (method version : Str)
    (params : Json) : Prop where
  ofVersion : ∀ found ∈ lowered.lookup MCP_PROTOCOL_VERSION_HEADER, found = version
  ofMethod : ∀ found ∈ lowered.lookup MCP_METHOD_HEADER, found = method
  ofName : ∀ param ∈ NAME_BEARING_METHODS.lookup method, params.member param ≠ .null →
    ∀ found ∈ lowered.lookup MCP_NAME_HEADER, found = str repr (params.member param)

theorem mismatch_eq_none_iff {header : Option Str} {mirrored : Str} :
    mismatch header mirrored = none ↔ ∀ found ∈ header, found = mirrored := by
  simp [mismatch, Option.filter_eq_none_iff]

theorem nameFault_eq_none_iff : nameFault repr lowered method params = none ↔
    ∀ param ∈ NAME_BEARING_METHODS.lookup method, params.member param ≠ .null →
      ∀ found ∈ lowered.lookup MCP_NAME_HEADER, found = str repr (params.member param) := by
  unfold nameFault
  cases NAME_BEARING_METHODS.lookup method with
  | none => simp
  | some param =>
    by_cases hnull : params.member param = .null
    · simp [hnull]
    · simp [hnull, mismatch_eq_none_iff]

/-- **The second rung lets through what is mirrored.** -/
theorem headerFault_eq_none_iff :
    headerFault repr lowered method version params = none ↔
      Mirrors repr lowered method version params := by
  unfold headerFault
  constructor
  · intro h
    split at h
    · cases h
    · rename_i hversion
      split at h
      · cases h
      · rename_i hmethod
        exact ⟨mismatch_eq_none_iff.mp hversion, mismatch_eq_none_iff.mp hmethod,
          nameFault_eq_none_iff.mp h⟩
  · intro h
    rw [mismatch_eq_none_iff.mpr h.ofVersion]
    dsimp only
    rw [mismatch_eq_none_iff.mpr h.ofMethod]
    exact nameFault_eq_none_iff.mpr h.ofName

/-- What a request that clears all rungs carries. -/
structure Clears (repr : Json → Str) (lower : Str → Str) (body : Members)
    (headers : Option Headers) (supported : List Str) (e : Envelope) (route : ModernRoute) :
    Prop where
  method : body.get (py "method") = .str route.method
  named : route.method ≠ []
  declares : ∃ m, Declares (body.get (py "params")) m e
  mirrors : Mirrors repr (lowerKeys lower headers) route.method e.version (body.get (py "params"))
  spoken : e.version ∈ supported
  version : route.protocolVersion = e.version
  clientInfo : route.clientInfo = clientInfoOf e.clientInfo
  capabilities : route.clientCapabilities = e.capabilities
  ignored : route.ignoredHeaders = ignoredHeaders (lowerKeys lower headers)

/-- **What clears the ladder**, and the route it gets. -/
theorem classifyRequest_iff :
    classifyRequest repr lower body headers supported = .ok route ↔
      ∃ e, Clears repr lower body headers supported e route := by
  unfold classifyRequest
  dsimp only
  constructor
  · intro h
    split at h
    · rename_i method hmethod
      split_ifs at h with hempty
      split at h
      · cases h
      · rename_i e henvelope
        split at h
        · cases h
        · rename_i hfault
          split_ifs at h with hunsupported
          obtain rfl := Except.ok.inj h
          exact ⟨e, hmethod, hempty, readEnvelope_iff.mp henvelope,
            headerFault_eq_none_iff.mp hfault, hunsupported, rfl, rfl, rfl, rfl⟩
    · cases h
  · rintro ⟨e, h⟩
    rw [h.method]
    dsimp only
    rw [if_neg h.named, readEnvelope_iff.mpr h.declares]
    dsimp only
    rw [headerFault_eq_none_iff.mpr h.mirrors]
    dsimp only
    rw [if_neg (not_not.mpr h.spoken), ← h.version, ← h.clientInfo, ← h.capabilities,
      ← h.ignored]

/-! ## What a refusal says -/

variable {refusal : AdapterError}

/-- The request has a name and declares an envelope. -/
def Enveloped (body : Members) (method : Str) (e : Envelope) : Prop :=
  body.get (py "method") = .str method ∧ method ≠ [] ∧
    ∃ m, Declares (body.get (py "params")) m e

/-- The first rung refuses with `INVALID_PARAMS`. -/
theorem readEnvelope_code (h : readEnvelope repr method params = .error refusal) :
    refusal.code = INVALID_PARAMS := by
  unfold readEnvelope at h
  split at h
  · split at h
    · split_ifs at h
      · cases h
        rfl
      · split at h
        · cases h
        · cases h
          rfl
    · cases h
      rfl
  · cases h
    rfl

/-- The second rung refuses with `HEADER_MISMATCH`. -/
theorem headerFault_code (h : headerFault repr lowered method version params = some refusal) :
    refusal.code = HEADER_MISMATCH := by
  unfold headerFault at h
  split at h
  · cases h
    rfl
  · split at h
    · cases h
      rfl
    · unfold nameFault at h
      split at h
      · cases h
      · dsimp only at h
        split_ifs at h
        obtain ⟨found, -, rfl⟩ := Option.map_eq_some_iff.mp h
        rfl

/-- **A refusal names the first rung that is missed.** -/
theorem classifyRequest_refused
    (h : classifyRequest repr lower body headers supported = .error refusal) :
    (refusal.code = INVALID_PARAMS ∧ ∀ method e, ¬ Enveloped body method e) ∨
      ∃ method e, Enveloped body method e ∧
        ((refusal.code = HEADER_MISMATCH ∧ ¬ Mirrors repr (lowerKeys lower headers) method e.version
            (body.get (py "params"))) ∨
          (refusal.code = UNSUPPORTED_PROTOCOL_VERSION ∧
            Mirrors repr (lowerKeys lower headers) method e.version (body.get (py "params")) ∧
              e.version ∉ supported)) := by
  unfold classifyRequest at h
  dsimp only at h
  split at h
  · rename_i method hmethod
    split_ifs at h with hempty
    · left
      cases h
      refine ⟨rfl, ?_⟩
      rintro method' e ⟨hmethod', hnamed, -⟩
      exact hnamed (by rw [← Json.str.inj (hmethod.symm.trans hmethod'), hempty])
    · split at h
      · rename_i refusal' hread
        cases h
        refine Or.inl ⟨readEnvelope_code hread, ?_⟩
        rintro method' e ⟨-, -, hdeclares⟩
        cases hread.symm.trans (readEnvelope_iff.mpr hdeclares)
      · rename_i e hread
        refine Or.inr ⟨method, e, ⟨hmethod, hempty, readEnvelope_iff.mp hread⟩, ?_⟩
        split at h
        · rename_i refusal' hfault
          cases h
          refine Or.inl ⟨headerFault_code hfault, ?_⟩
          intro hmirrors
          cases hfault.symm.trans (headerFault_eq_none_iff.mpr hmirrors)
        · rename_i hfault
          split_ifs at h with hspoken
          cases h
          exact Or.inr ⟨rfl, headerFault_eq_none_iff.mp hfault, hspoken⟩
  · rename_i hmethod
    cases h
    refine Or.inl ⟨rfl, ?_⟩
    rintro method' e ⟨hmethod', -⟩
    exact hmethod method' hmethod'

end McpHeartbeat
