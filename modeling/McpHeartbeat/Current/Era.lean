import McpHeartbeat.Core.Reading
import McpHeartbeat.Current.Metadata

/-!
# The routing of eras

One endpoint may serve both eras.

* `hasModernEnvelope`, `isHandshakeMethod`: the two marks of a message;
* **`Era.route`**: the era of a message, or the refusal of one that has both marks or none;
* `Routing`, `route_cases`: the ways of one message.
-/

namespace McpHeartbeat

/-- The calls a modern peer never makes. -/
def LEGACY_ONLY_METHODS : List Str := HANDSHAKE_METHODS ++ [py "resources/subscribe"]

/-- Which era a message belongs to. -/
inductive Era
  | current
  | handshake
deriving DecidableEq, Repr

/-- The value of an era. -/
def Era.value : Era → Str
  | current => py "current"
  | handshake => py "handshake"

/-- A message, classified, with the evidence. -/
structure EraRoute where
  era : Era
  method : Str
  protocolVersion : Option Str
  evidence : List Str
  modern : Option ModernRoute := none
deriving DecidableEq

/-- `has_modern_envelope`: the body declares a protocol version in `_meta`. -/
def hasModernEnvelope (body : Members) : Bool :=
  ((body.get (py "params")).member (py "_meta")).contains PROTOCOL_VERSION_META_KEY

/-- `is_handshake_method`: the body is a legacy lifecycle message. -/
def isHandshakeMethod (body : Members) : Bool :=
  body.get (py "method") ∈ HANDSHAKE_METHODS.map .str

/-- `_proposed_handshake_version`. -/
def proposedHandshakeVersion (body : Members) : Option Str :=
  match (body.get (py "params")).member (py "protocolVersion") with
  | .str version => some version
  | _ => none

variable (repr : Json → Str) (lower : Str → Str)

/-- `route`: classify one inbound message, or refuse it. -/
def Era.route (body : Members) (headers : Option Headers) : Except AdapterError EraRoute :=
  match body.get (py "method") with
  | .str method =>
    if method = [] then .error (.crossEraConfusion .noMethod)
    else if hasModernEnvelope body ∧ isHandshakeMethod body then
      .error (.crossEraConfusion (.handshakeEnvelope method))
    else if hasModernEnvelope body then
      if method ∈ LEGACY_ONLY_METHODS then .error (.crossEraConfusion (.legacyOnly method))
      else
        match classifyRequest repr lower body headers MODERN_PROTOCOL_VERSIONS with
        | .error e => .error e
        | .ok modern =>
          .ok { era := .current, method, protocolVersion := some modern.protocolVersion,
                evidence := [py "_meta[" ++ PROTOCOL_VERSION_META_KEY ++ py "]=" ++
                  modern.protocolVersion],
                modern := some modern }
    else if isHandshakeMethod body then
      let proposed := proposedHandshakeVersion body
      match proposed.filter isModern with
      | some version => .error (.crossEraConfusion (.modernProposal method version))
      | none =>
        .ok { era := .handshake, method, protocolVersion := proposed,
              evidence := [py "method=" ++ method,
                py "params.protocolVersion=" ++ proposed.getD (py "None")] }
    else if MCP_PROTOCOL_VERSION_HEADER ∈ lowerKeys lower headers then
      .error (.crossEraConfusion (.headerOnly method MCP_PROTOCOL_VERSION_HEADER))
    else .error (.crossEraConfusion (.neither method))
  | _ => .error (.crossEraConfusion .noMethod)

variable {repr lower} {body : Members} {headers : Option Headers} {route : ModernRoute}
  {supported : List Str}

/-! ## One message -/

/-- A handshake that proposes a modern revision. -/
def ProposesModern (body : Members) : Prop :=
  isHandshakeMethod body = true ∧ ∃ version ∈ proposedHandshakeVersion body, isModern version = true

/-- The ways of one message. -/
inductive Routing (repr : Json → Str) (lower : Str → Str) (body : Members)
    (headers : Option Headers) : Except AdapterError EraRoute → Prop
  | current (r : EraRoute) (era : r.era = .current) (envelope : hasModernEnvelope body = true)
      (cleared : ∃ modern ∈ r.modern,
        classifyRequest repr lower body headers MODERN_PROTOCOL_VERSIONS = .ok modern) :
      Routing repr lower body headers (.ok r)
  /-- A modern envelope that a rung refuses. -/
  | stopped (e : AdapterError) (envelope : hasModernEnvelope body = true)
      (refused : classifyRequest repr lower body headers MODERN_PROTOCOL_VERSIONS = .error e) :
      Routing repr lower body headers (.error e)
  | handshake (r : EraRoute) (era : r.era = .handshake) (modern : r.modern = none)
      (bare : hasModernEnvelope body = false) (method : isHandshakeMethod body = true)
      (proposal : ¬ ProposesModern body) : Routing repr lower body headers (.ok r)
  /-- The mechanics of both eras. -/
  | mixed (why : Confusion) (both : why.both = true)
      (modern : hasModernEnvelope body = true ∨ ProposesModern body) :
      Routing repr lower body headers (.error (.crossEraConfusion why))
  /-- The mechanics of neither. -/
  | stray (why : Confusion) (neither : why.both = false) (plain : ¬ ProposesModern body) :
      Routing repr lower body headers (.error (.crossEraConfusion why))

theorem isHandshakeMethod_iff : isHandshakeMethod body = true ↔
    ∃ method ∈ HANDSHAKE_METHODS, body.get (py "method") = .str method := by
  unfold isHandshakeMethod
  rw [decide_eq_true_iff, List.mem_map]
  simp only [eq_comm]

/-- Without a name, nothing is proposed. -/
theorem not_proposesModern (h : ∀ method, body.get (py "method") = .str method → method = []) :
    ¬ ProposesModern body := by
  rintro ⟨hhandshake, -⟩
  obtain ⟨method, hmem, hmethod⟩ := isHandshakeMethod_iff.mp hhandshake
  rw [h method hmethod] at hmem
  revert hmem
  decide

theorem route_cases (repr : Json → Str) (lower : Str → Str) (body : Members)
    (headers : Option Headers) :
    Routing repr lower body headers (Era.route repr lower body headers) := by
  unfold Era.route
  split
  · rename_i method hmethod
    split_ifs with hempty hboth hmodern hlegacy hhandshake hheader
    · refine .stray _ rfl (not_proposesModern ?_)
      intro method' hmethod'
      rw [← Json.str.inj (hmethod.symm.trans hmethod'), hempty]
    · exact .mixed _ rfl (Or.inl hboth.1)
    · exact .mixed _ rfl (Or.inl hmodern)
    · split
      · rename_i e he
        exact .stopped e hmodern he
      · rename_i modern hclear
        exact .current _ rfl hmodern ⟨modern, rfl, hclear⟩
    · have hbare : hasModernEnvelope body = false := Bool.eq_false_iff.mpr hmodern
      dsimp only
      cases hproposed : (proposedHandshakeVersion body).filter isModern with
      | some version =>
        have hversion := Option.filter_eq_some_iff.mp hproposed
        exact .mixed _ rfl (Or.inr ⟨hhandshake, version, hversion⟩)
      | none =>
        refine .handshake _ rfl rfl hbare hhandshake ?_
        rintro ⟨-, version, hmem, hversion⟩
        exact Option.filter_eq_none_iff.mp hproposed version hmem hversion
    · exact .stray _ rfl fun h => hhandshake h.1
    · exact .stray _ rfl fun h => hhandshake h.1
  · rename_i hmethod
    refine .stray _ rfl (not_proposesModern ?_)
    intro method' hmethod'
    exact absurd hmethod' (hmethod method')

/-! ## The envelope of a request -/

/-- **A request that clears the ladder carries a modern envelope.** -/
theorem hasModernEnvelope_of_classifyRequest
    (h : classifyRequest repr lower body headers supported = .ok route) :
    hasModernEnvelope body = true := by
  obtain ⟨e, hclears⟩ := classifyRequest_iff.mp h
  obtain ⟨m, hdeclares⟩ := hclears.declares
  unfold hasModernEnvelope
  rw [hdeclares.declared]
  show Members.has m PROTOCOL_VERSION_META_KEY = true
  by_contra hno
  cases (Members.get_of_not_has hno).symm.trans hdeclares.version

/-- A request without one is refused, whatever its headers are. -/
theorem classifyRequest_of_bare (h : hasModernEnvelope body = false) :
    ∃ e, classifyRequest repr lower body headers supported = .error e := by
  cases hclassify : classifyRequest repr lower body headers supported with
  | error e => exact ⟨e, rfl⟩
  | ok route => cases h.symm.trans (hasModernEnvelope_of_classifyRequest hclassify)

end McpHeartbeat
