import McpHeartbeat.Current.Metadata

/-!
# What the headers of an accepted request say

`_lower_keys` keeps the last of the headers whose names differ in case alone, and the name header is
compared only with a name that the body carries.

* `Verified`: every header that mirrors the body says what the body says;
* `Unambiguous`: no header hides another one, and none mirrors a name that is not there;
* **`mirrored_exactly_when`**: an accepted request is verified exactly when it is unambiguous.
-/

namespace McpHeartbeat

open Base

variable (repr : Json → Str) (lower : Str → Str)

/-- Every entry of the headers, under any case of its name, says what the body says; where the method
bears a name, there is a name for the name headers to say. -/
structure Verified (body : Members) (headers : Option Headers) (route : ModernRoute) : Prop where
  ofVersion : ∀ e ∈ (headers.getD ∅).entries, lower e.1 = MCP_PROTOCOL_VERSION_HEADER →
    e.2 = route.protocolVersion
  ofMethod : ∀ e ∈ (headers.getD ∅).entries, lower e.1 = MCP_METHOD_HEADER → e.2 = route.method
  ofName : ∀ param ∈ NAME_BEARING_METHODS.lookup route.method,
    ∀ e ∈ (headers.getD ∅).entries, lower e.1 = MCP_NAME_HEADER →
      (body.get (py "params")).member param ≠ .null ∧
        e.2 = str repr ((body.get (py "params")).member param)

/-- Headers of one name agree, and a name header comes with a name: of the version and the method, and
of the name if the method bears one. -/
structure Unambiguous (body : Members) (headers : Option Headers) : Prop where
  ofVersion : OneVoice lower (headers.getD ∅) MCP_PROTOCOL_VERSION_HEADER
  ofMethod : OneVoice lower (headers.getD ∅) MCP_METHOD_HEADER
  ofName : ∀ method, body.get (py "method") = .str method →
    ∀ param ∈ NAME_BEARING_METHODS.lookup method,
      (body.get (py "params")).member param ≠ .null →
        OneVoice lower (headers.getD ∅) MCP_NAME_HEADER
  unnamed : ∀ method, body.get (py "method") = .str method →
    ∀ param ∈ NAME_BEARING_METHODS.lookup method,
      (body.get (py "params")).member param = .null →
        ∀ e ∈ (headers.getD ∅).entries, lower e.1 ≠ MCP_NAME_HEADER

variable {repr lower} {body : Members} {headers : Option Headers} {supported : List Str}
  {route : ModernRoute}

/-- **When the headers of an accepted request are no second opinion.** -/
theorem mirrored_exactly_when
    (h : classifyRequest repr lower body headers supported = .ok route) :
    Verified repr lower body headers route ↔ Unambiguous lower body headers := by
  obtain ⟨e, hc⟩ := classifyRequest_iff.mp h
  have hmethod : ∀ {method}, body.get (py "method") = .str method → route.method = method :=
    fun hm => Json.str.inj (hc.method.symm.trans hm)
  constructor
  · intro hv
    refine ⟨(forall_named_iff.mp hv.ofVersion).2, (forall_named_iff.mp hv.ofMethod).2, ?_, ?_⟩
    · intro method hm param hparam _
      obtain rfl := hmethod hm
      exact (forall_named_iff.mp fun x hx hname => (hv.ofName param hparam x hx hname).2).2
    · intro method hm param hparam hnull x hx hname
      obtain rfl := hmethod hm
      exact (hv.ofName param hparam x hx hname).1 hnull
  · intro hu
    refine ⟨?_, ?_, ?_⟩
    · rw [hc.version]
      exact forall_named_iff.mpr ⟨hc.mirrors.ofVersion, hu.ofVersion⟩
    · exact forall_named_iff.mpr ⟨hc.mirrors.ofMethod, hu.ofMethod⟩
    · intro param hparam x hx hname
      have hthere : (body.get (py "params")).member param ≠ .null := fun hnull =>
        hu.unnamed _ hc.method param hparam hnull x hx hname
      exact ⟨hthere, forall_named_iff.mpr ⟨hc.mirrors.ofName param hparam hthere,
        hu.ofName _ hc.method param hparam hthere⟩ x hx hname⟩

/-- `str.lower` on ASCII. -/
def asciiLower (s : Str) : Str :=
  s.map fun c => match c with
    | .scalar c => .scalar c.toLower
    | c => c

/-- A request to read the resource of `node`. -/
def readNode : Members :=
  [(py "method", .str (py "resources/read")),
    (py "params", .obj [
      (py "uri", .str (py "heartbeat://node")),
      (py "_meta", .obj [
        (PROTOCOL_VERSION_META_KEY, .str PROTOCOL_REVISION),
        (CLIENT_CAPABILITIES_META_KEY, .obj [])])])]

/-- The route it gets. -/
def readRoute : ModernRoute where
  protocolVersion := PROTOCOL_REVISION
  method := py "resources/read"
  clientInfo := []
  clientCapabilities := []

/-- Headers in the order of their arrival. -/
def arrived (hs : List (String × String)) : Headers :=
  (hs.map fun h => (⟨py h.1, py h.2⟩ : Sigma fun _ : Str => Str)).toAList

theorem mirrored_exactly_when_named :
    let headers := arrived [("MCP-Method", "resources/read"), ("Mcp-Name", "heartbeat://node")]
    Verified (fun _ => []) asciiLower readNode (some headers) readRoute ↔
      Unambiguous asciiLower readNode (some headers) :=
  have h : classifyRequest (fun _ => []) asciiLower readNode (some (arrived
      [("MCP-Method", "resources/read"), ("Mcp-Name", "heartbeat://node")]))
      MODERN_PROTOCOL_VERSIONS = .ok readRoute := by decide +kernel
  mirrored_exactly_when h

/-- **Some headers are a second opinion**: a method in two cases, of which the last one is compared. -/
theorem second_opinion : ¬ ∀ (repr : Json → Str) (lower : Str → Str) (body : Members)
    (headers : Option Headers) (route : ModernRoute),
    classifyRequest repr lower body headers MODERN_PROTOCOL_VERSIONS = .ok route →
      Verified repr lower body headers route := by
  intro hall
  let headers := arrived [("Mcp-Method", "tools/call"), ("mcp-method", "resources/read")]
  have hroute : classifyRequest (fun _ => []) asciiLower readNode (some headers)
      MODERN_PROTOCOL_VERSIONS = .ok readRoute := by decide +kernel
  have hsaid := (hall _ _ _ _ _ hroute).ofMethod ⟨py "Mcp-Method", py "tools/call"⟩
    (by decide +kernel) (by decide +kernel)
  exact absurd hsaid (by decide +kernel)

-- a name header where the body carries no name
example :
    let body : Members := [(py "method", .str (py "tools/call")),
      (py "params", .obj [(py "_meta", .obj [
        (PROTOCOL_VERSION_META_KEY, .str PROTOCOL_REVISION),
        (CLIENT_CAPABILITIES_META_KEY, .obj [])])])]
    (classifyRequest (fun _ => []) asciiLower body (some (arrived [("mcp-name", "shutdown")]))
      MODERN_PROTOCOL_VERSIONS).isOk = true := by decide +kernel

end McpHeartbeat
