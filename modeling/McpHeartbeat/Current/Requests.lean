import McpHeartbeat.Current.Era
import McpHeartbeat.Current.Mirroring

/-!
# Requests that are built

* `RequestEnvelope`, **`buildRequest`**: the body and the headers of one conformant request;
* `Carried`: the headers of a request as they arrive, in any case and order, among others;
* `mirrors_of_carried`, `declares_body`: what is built clears the rungs;
* **`built_request_routes`**: a built request routes to what was built.

`dict` is what `dict(value)` makes of a value that is true and no object.
-/

namespace McpHeartbeat

open Base

variable (repr : Json → Str) (lower : Str → Str) (dict : Json → Except AdapterError Members)

/-! ## Building -/

/-- The modern envelope of one call. -/
structure RequestEnvelope where
  method : Str
  params : Members := []
  protocolVersion : Str := PROTOCOL_REVISION
  clientInfo : Members := []
  clientCapabilities : Members := []

namespace RequestEnvelope

variable (self : RequestEnvelope)

/-- `RequestEnvelope.meta`: the `_meta` that a request must carry. -/
def metaBlock : Members :=
  [(PROTOCOL_VERSION_META_KEY, .str self.protocolVersion),
    (CLIENT_INFO_META_KEY, .obj self.clientInfo),
    (CLIENT_CAPABILITIES_META_KEY, .obj self.clientCapabilities)]

/-- The three standard headers; the name is there for some methods only. -/
def standardHeaders (name : Option Str) : Headers where
  entries := [⟨MCP_PROTOCOL_VERSION_HEADER, self.protocolVersion⟩, ⟨MCP_METHOD_HEADER, self.method⟩]
    ++ (name.map fun n => (⟨MCP_NAME_HEADER, n⟩ : Sigma fun _ : Str => Str)).toList
  nodupKeys := by
    cases name with
    | none => exact (by decide : [MCP_PROTOCOL_VERSION_HEADER, MCP_METHOD_HEADER].Nodup)
    | some n =>
      exact (by decide :
        [MCP_PROTOCOL_VERSION_HEADER, MCP_METHOD_HEADER, MCP_NAME_HEADER].Nodup)

/-- `RequestEnvelope.headers`. -/
def headers : Except AdapterError Headers :=
  match NAME_BEARING_METHODS.lookup self.method with
  | none => .ok (self.standardHeaders none)
  | some param =>
    let value := self.params.get param
    if value = .null then
      .error (.malformedEnvelope (self.method ++ py " requires params[" ++ repr (.str param) ++
        py "] for " ++ MCP_NAME_HEADER))
    else .ok (self.standardHeaders (some (str repr value)))

/-- `dict(params.get("_meta") or {})`. -/
def callerMeta : Except AdapterError Members :=
  match (self.params.get (py "_meta")).orEmpty with
  | .obj m => .ok m
  | v => dict v

/-- `RequestEnvelope.body`. -/
def body (requestId : Json) : Except AdapterError Members :=
  match self.callerMeta dict with
  | .error e => .error e
  | .ok caller =>
    .ok [(py "jsonrpc", .str (py "2.0")), (py "id", requestId), (py "method", .str self.method),
      (py "params", .obj (self.params.set (py "_meta") (.obj (caller.update self.metaBlock))))]

end RequestEnvelope

/-- `build_request`. -/
def buildRequest (method : Str) (params : Option Members) (requestId : Json)
    (protocolVersion : Str) (clientInfo clientCapabilities : Option Members) :
    Except AdapterError (Members × Headers) :=
  let envelope : RequestEnvelope :=
    { method, params := params.getD [], protocolVersion, clientInfo := clientInfo.getD [],
      clientCapabilities := clientCapabilities.getD [] }
  match envelope.body dict requestId with
  | .error e => .error e
  | .ok body =>
    match envelope.headers repr with
    | .error e => .error e
    | .ok headers => .ok (body, headers)

/-! ## The headers as they arrive -/

/-- The headers `arrived` are those of `built`, in any order and under names that `lower` takes back,
and the headers `added`, under other names. -/
structure Carried (built : Headers) (rename : Str → Str)
    (added : List (Sigma fun _ : Str => Str)) (arrived : Headers) : Prop where
  entries : arrived.entries.Perm
    ((built.entries.map fun e => (⟨rename e.1, e.2⟩ : Sigma fun _ : Str => Str)) ++ added)
  renamed : ∀ name ∈ built, lower (rename name) = name
  others : ∀ e ∈ added, lower e.1 ∉ built

variable {repr lower dict} {envelope : RequestEnvelope} {built arrived : Headers}
  {rename : Str → Str} {added : List (Sigma fun _ : Str => Str)}

/-- A header that was built arrives with its value, and no other under its name. -/
theorem Carried.lookup (h : Carried lower built rename added arrived) {name found : Str}
    (hname : name ∈ built) (hfound : found ∈ (lowerKeys lower (some arrived)).lookup name) :
    built.lookup name = some found := by
  have hall : ∀ e ∈ arrived.entries, lower e.1 = name → built.lookup name = some e.2 := by
    intro e he hlower
    rcases List.mem_append.mp (h.entries.mem_iff.mp he) with hmem | hmem
    · obtain ⟨b, hb, rfl⟩ := List.mem_map.mp hmem
      have hin : b.1 ∈ built := AList.mem_keys.mpr (List.mem_map_of_mem hb)
      obtain rfl : b.1 = name := (h.renamed b.1 hin).symm.trans hlower
      exact AList.mem_lookup_iff.mpr hb
    · exact absurd (hlower ▸ hname) (h.others e hmem)
  rw [lowerKeys, Option.getD_some, lookup_rekey] at hfound
  obtain ⟨e, hlast, rfl⟩ := Option.map_eq_some_iff.mp hfound
  obtain ⟨hlower, hlookup⟩ := lookup_of_lastNamed hlast
  exact hall e (AList.mem_lookup_iff.mp hlookup) hlower

/-- The legacy headers that arrive are those that were added. -/
theorem Carried.ignored (h : Carried lower built rename added arrived)
    (hbuilt : ∀ name ∈ IGNORED_LEGACY_HEADERS, name ∉ built) :
    ignoredHeaders (lowerKeys lower (some arrived)) =
      IGNORED_LEGACY_HEADERS.filter fun name => ∃ e ∈ added, lower e.1 = name := by
  refine List.filter_congr fun name hname => decide_eq_decide.mpr ?_
  rw [lowerKeys, Option.getD_some, mem_rekey]
  constructor
  · rintro ⟨e, he, rfl⟩
    rcases List.mem_append.mp (h.entries.mem_iff.mp he) with hmem | hmem
    · obtain ⟨b, hb, rfl⟩ := List.mem_map.mp hmem
      have hin : b.1 ∈ built := AList.mem_keys.mpr (List.mem_map_of_mem hb)
      exact absurd ((h.renamed b.1 hin).symm ▸ hin) (hbuilt _ hname)
    · exact ⟨e, hmem, rfl⟩
  · rintro ⟨e, he, rfl⟩
    exact ⟨e, h.entries.mem_iff.mpr (List.mem_append_right _ he), rfl⟩

theorem standardHeaders_legacy {name : Option Str} :
    ∀ h ∈ IGNORED_LEGACY_HEADERS, h ∉ envelope.standardHeaders name := by
  have hkeys : ∀ h, h ∈ envelope.standardHeaders name →
      h ∈ [MCP_PROTOCOL_VERSION_HEADER, MCP_METHOD_HEADER, MCP_NAME_HEADER] := by
    intro h hh
    have hmem : h ∈ (envelope.standardHeaders name).keys := hh
    cases name with
    | none => exact List.mem_append_left [MCP_NAME_HEADER] hmem
    | some n => exact hmem
  intro h hlegacy hh
  have hapart : ∀ h ∈ IGNORED_LEGACY_HEADERS,
      h ∉ [MCP_PROTOCOL_VERSION_HEADER, MCP_METHOD_HEADER, MCP_NAME_HEADER] := by decide
  exact hapart h hlegacy (hkeys h hh)

/-! ## What is built clears the rungs -/

theorem headers_ok (hname : ∀ param ∈ NAME_BEARING_METHODS.lookup envelope.method,
    envelope.params.get param ≠ .null) : ∃ name, envelope.headers repr =
      .ok (envelope.standardHeaders name) ∧
    ∀ param ∈ NAME_BEARING_METHODS.lookup envelope.method,
      name = some (str repr (envelope.params.get param)) := by
  unfold RequestEnvelope.headers
  cases hparam : NAME_BEARING_METHODS.lookup envelope.method with
  | none => exact ⟨none, rfl, by simp⟩
  | some param =>
    refine ⟨_, if_neg (hname param hparam), ?_⟩
    rintro param' ⟨⟩
    rfl

/-- **The headers mirror the request** that they were built for. -/
theorem mirrors_of_carried {name : Option Str} {params : Members}
    (h : Carried lower (envelope.standardHeaders name) rename added arrived)
    (hname : ∀ param ∈ NAME_BEARING_METHODS.lookup envelope.method,
      name = some (str repr (params.get param))) :
    Mirrors repr (lowerKeys lower (some arrived)) envelope.method envelope.protocolVersion
      (.obj params) := by
  have hlookup : ∀ {header value}, (envelope.standardHeaders name).lookup header = some value →
      ∀ found ∈ (lowerKeys lower (some arrived)).lookup header, found = value := by
    intro header value hvalue found hfound
    have hin : header ∈ envelope.standardHeaders name :=
      AList.lookup_isSome.mp (by rw [hvalue]; rfl)
    exact Option.some.inj ((h.lookup hin hfound).symm.trans hvalue)
  refine ⟨hlookup (AList.mem_lookup_iff.mpr ?_), hlookup (AList.mem_lookup_iff.mpr ?_), ?_⟩
  · simp [RequestEnvelope.standardHeaders]
  · simp [RequestEnvelope.standardHeaders]
  · intro param hparam _
    refine hlookup (AList.mem_lookup_iff.mpr ?_)
    rw [hname param hparam]
    simp [RequestEnvelope.standardHeaders, Json.member]

/-- The members of the envelope, over those of the caller. -/
theorem item_metaBlock (caller : Members) (key : Str) :
    (caller.update envelope.metaBlock).item key =
      if key = CLIENT_CAPABILITIES_META_KEY then some (.obj envelope.clientCapabilities)
      else if key = CLIENT_INFO_META_KEY then some (.obj envelope.clientInfo)
      else if key = PROTOCOL_VERSION_META_KEY then some (.str envelope.protocolVersion)
      else caller.item key := by
  show (((caller.set _ _).set _ _).set _ _).item key = _
  rw [Members.item_set, Members.item_set, Members.item_set]

variable (envelope) in
/-- The `_meta` of a built body. -/
def builtMeta : Members :=
  (envelope.params.get (py "_meta")).asMembers.update envelope.metaBlock

variable (envelope) in
/-- The body that is built where the `_meta` of the caller is absent or an object. -/
def builtBody (requestId : Json) : Members :=
  [(py "jsonrpc", .str (py "2.0")), (py "id", requestId), (py "method", .str envelope.method),
    (py "params", .obj (envelope.params.set (py "_meta") (.obj (builtMeta envelope))))]

theorem declares_body (hversion : envelope.protocolVersion ≠ []) :
    Declares (.obj (envelope.params.set (py "_meta") (.obj (builtMeta envelope))))
      (builtMeta envelope)
      { version := envelope.protocolVersion, capabilities := envelope.clientCapabilities,
        clientInfo := .obj envelope.clientInfo } where
  declared := by
    rw [Json.member, Members.get, Members.item_set, if_pos rfl]
    rfl
  version := by
    rw [builtMeta, Members.get, item_metaBlock, if_neg (by decide), if_neg (by decide), if_pos rfl]
    rfl
  nonempty := hversion
  capabilities := by
    rw [builtMeta, Members.get, item_metaBlock, if_pos rfl]
    rfl
  clientInfo := by
    rw [builtMeta, Members.get, item_metaBlock, if_neg (by decide), if_pos rfl]
    rfl

theorem callerMeta_ok (hmeta : envelope.params.item (py "_meta") = none ∨
    ∃ m, envelope.params.item (py "_meta") = some (.obj m)) :
    envelope.callerMeta dict = .ok (envelope.params.get (py "_meta")).asMembers := by
  unfold RequestEnvelope.callerMeta
  rcases hmeta with hnone | ⟨m, hm⟩
  · rw [Members.get, hnone]
    rfl
  · rw [Members.get, hm]
    cases m <;> rfl

theorem buildRequest_ok {name : Option Str} {requestId : Json}
    (hmeta : envelope.params.item (py "_meta") = none ∨
      ∃ m, envelope.params.item (py "_meta") = some (.obj m))
    (hheaders : envelope.headers repr = .ok (envelope.standardHeaders name)) :
    buildRequest repr dict envelope.method (some envelope.params) requestId envelope.protocolVersion
        (some envelope.clientInfo) (some envelope.clientCapabilities) =
      .ok (builtBody envelope requestId, envelope.standardHeaders name) := by
  have hbody : envelope.body dict requestId = .ok (builtBody envelope requestId) := by
    rw [RequestEnvelope.body, callerMeta_ok hmeta]
    rfl
  unfold buildRequest
  dsimp only [Option.getD_some]
  rw [hbody]
  dsimp only
  rw [hheaders]

/-- A request that clears the rungs, under a method that is not of the other era, is current. -/
theorem route_of_clear {body : Members} {headers : Option Headers} {modern : ModernRoute}
    (hmodern : modern.method ∉ LEGACY_ONLY_METHODS)
    (hclear : classifyRequest repr lower body headers MODERN_PROTOCOL_VERSIONS = .ok modern) :
    Era.route repr lower body headers = .ok
      { era := .current, method := modern.method, protocolVersion := some modern.protocolVersion,
        evidence := [py "_meta[" ++ PROTOCOL_VERSION_META_KEY ++ py "]=" ++ modern.protocolVersion],
        modern := some modern } := by
  obtain ⟨e, hc⟩ := classifyRequest_iff.mp hclear
  obtain ⟨m, hdeclares⟩ := hc.declares
  have henvelope : hasModernEnvelope body = true := by
    rw [hasModernEnvelope, hdeclares.declared, Json.contains]
    by_contra hhas
    have hnull := hdeclares.version
    rw [Members.get_of_not_has hhas] at hnull
    cases hnull
  have hhandshake : isHandshakeMethod body = false := by
    rw [← Bool.not_eq_true, isHandshakeMethod_iff]
    rintro ⟨method, hm, hbody⟩
    obtain rfl := Json.str.inj (hc.method.symm.trans hbody)
    exact hmodern (List.mem_append_left _ hm)
  unfold Era.route
  rw [hc.method]
  dsimp only
  rw [if_neg hc.named, henvelope, hhandshake, if_neg (by simp), if_pos rfl, if_neg hmodern, hclear]

/-- The parameters of a built request carry those of the caller. -/
structure Preserves (body params : Members) : Prop where
  /-- Every other parameter. -/
  others : ∀ key ≠ py "_meta", (body.get (py "params")).asMembers.item key = params.item key
  /-- Every key of `_meta` that is not of the envelope. -/
  ofMeta : ∀ key ∉ [PROTOCOL_VERSION_META_KEY, CLIENT_INFO_META_KEY, CLIENT_CAPABILITIES_META_KEY],
    ((body.get (py "params")).member (py "_meta")).asMembers.item key =
      (params.get (py "_meta")).asMembers.item key

/-- The route is the one of the request that was built. -/
structure RoutesTo (method : Str) (clientInfo clientCapabilities : Members) (ignored : List Str)
    (route : EraRoute) : Prop where
  ofEra : route.era = .current
  ofMethod : route.method = method
  ofVersion : route.protocolVersion = some PROTOCOL_REVISION
  ofModern : route.modern = some
    { protocolVersion := PROTOCOL_REVISION, method, clientInfo, clientCapabilities,
      ignoredHeaders := ignored }

theorem item_built (key : Str) (hkey : key ≠ py "_meta") :
    (envelope.params.set (py "_meta") (.obj (builtMeta envelope))).item key =
      envelope.params.item key := by
  rw [Members.item_set, if_neg hkey]

/-- **What the caller gave is in the body**, but for the keys of the envelope. -/
theorem preserves_built (hversion : envelope.protocolVersion ≠ []) (requestId : Json) :
    Preserves (builtBody envelope requestId) envelope.params where
  others := item_built
  ofMeta key hkey := by
    have hdeclared : ((builtBody envelope requestId).get (py "params")).member (py "_meta") =
        .obj (builtMeta envelope) := (declares_body hversion).declared
    simp only [List.mem_cons, List.not_mem_nil, or_false, not_or] at hkey
    rw [hdeclared]
    show (builtMeta envelope).item key = _
    rw [builtMeta, item_metaBlock, if_neg hkey.2.2, if_neg hkey.2.1, if_neg hkey.1]

/-- The parameter that is mirrored is no metadata. -/
theorem param_ne_meta {method param : Str} (h : param ∈ NAME_BEARING_METHODS.lookup method) :
    param ≠ py "_meta" := by
  have hall : ∀ p ∈ NAME_BEARING_METHODS, p.2 ≠ py "_meta" := by decide
  obtain ⟨l₁, l₂, hl, -⟩ := List.lookup_eq_some_iff.mp h
  exact hall (method, param) (by rw [hl]; simp)

/-- **What is built clears the rungs**, under the headers it was built with. -/
theorem classify_built {name : Option Str} {requestId : Json} (hnamed : envelope.method ≠ [])
    (hversion : envelope.protocolVersion = PROTOCOL_REVISION)
    (hname : ∀ param ∈ NAME_BEARING_METHODS.lookup envelope.method,
      name = some (str repr (envelope.params.get param)))
    (hcarried : Carried lower (envelope.standardHeaders name) rename added arrived) :
    classifyRequest repr lower (builtBody envelope requestId) (some arrived)
        MODERN_PROTOCOL_VERSIONS =
      .ok { protocolVersion := envelope.protocolVersion, method := envelope.method,
            clientInfo := envelope.clientInfo, clientCapabilities := envelope.clientCapabilities,
            ignoredHeaders := IGNORED_LEGACY_HEADERS.filter fun name =>
              ∃ e ∈ added, lower e.1 = name } := by
  have hnonempty : envelope.protocolVersion ≠ [] := by
    rw [hversion]
    decide
  have hspoken : envelope.protocolVersion ∈ MODERN_PROTOCOL_VERSIONS := by
    rw [hversion]
    decide
  have hget : ∀ param ∈ NAME_BEARING_METHODS.lookup envelope.method, name = some (str repr
      ((envelope.params.set (py "_meta") (.obj (builtMeta envelope))).get param)) := by
    intro param hparam
    rw [Members.get, item_built param (param_ne_meta hparam)]
    exact hname param hparam
  exact classifyRequest_iff.mpr ⟨_, rfl, hnamed, ⟨_, declares_body hnonempty⟩,
    mirrors_of_carried hcarried hget, hspoken, rfl, rfl, rfl,
    (hcarried.ignored standardHeaders_legacy).symm⟩

/-- **A built request routes to what was built**, whatever the case of its headers, and whatever
other headers come with them. -/
theorem built_request_routes (repr : Json → Str) (lower : Str → Str)
    (dict : Json → Except AdapterError Members) (method : Str) (hnamed : method ≠ [])
    (hmodern : method ∉ LEGACY_ONLY_METHODS) (params : Members)
    (hmeta : params.item (py "_meta") = none ∨ ∃ m, params.item (py "_meta") = some (.obj m))
    (hparam : ∀ param ∈ NAME_BEARING_METHODS.lookup method, params.get param ≠ .null)
    (requestId : Json) (clientInfo clientCapabilities : Members) :
    ∃ body built, buildRequest repr dict method (some params) requestId PROTOCOL_REVISION
        (some clientInfo) (some clientCapabilities) = .ok (body, built) ∧
      Preserves body params ∧
      ∀ rename added arrived, Carried lower built rename added arrived →
        ∃ route, Era.route repr lower body (some arrived) = .ok route ∧
          RoutesTo method clientInfo clientCapabilities
            (IGNORED_LEGACY_HEADERS.filter fun name => ∃ e ∈ added, lower e.1 = name) route := by
  let envelope : RequestEnvelope :=
    { method, params, protocolVersion := PROTOCOL_REVISION, clientInfo, clientCapabilities }
  obtain ⟨name, hheaders, hname⟩ := @headers_ok repr envelope hparam
  have hbuild := @buildRequest_ok repr dict envelope name requestId hmeta hheaders
  have hversion : envelope.protocolVersion ≠ [] := (by decide : PROTOCOL_REVISION ≠ [])
  refine ⟨_, _, hbuild, preserves_built hversion requestId, ?_⟩
  intro rename added arrived hcarried
  have hclear := @classify_built repr lower envelope arrived rename added name requestId hnamed rfl
    hname hcarried
  exact ⟨_, route_of_clear hmodern hclear, rfl, rfl, rfl, rfl⟩

/-- A read of the resource of `node`, with a session header and the method in another case. -/
theorem built_request_routes_read :
    ∃ body built, buildRequest (fun _ => []) (fun _ => .ok []) (py "resources/read")
        (some [(py "uri", .str (py "heartbeat://node"))]) (.int 1) PROTOCOL_REVISION
        (some []) (some []) = .ok (body, built) ∧
      Preserves body [(py "uri", .str (py "heartbeat://node"))] ∧
      ∀ rename added arrived, Carried asciiLower built rename added arrived →
        ∃ route, Era.route (fun _ => []) asciiLower body (some arrived) = .ok route ∧
          RoutesTo (py "resources/read") [] []
            (IGNORED_LEGACY_HEADERS.filter fun name => ∃ e ∈ added, asciiLower e.1 = name) route :=
  built_request_routes (fun _ => []) asciiLower (fun _ => .ok []) (py "resources/read") (by decide)
    (by decide) [(py "uri", .str (py "heartbeat://node"))] (.inl (by decide)) (by decide) (.int 1)
    [] []

end McpHeartbeat
