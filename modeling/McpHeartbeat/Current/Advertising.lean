import McpHeartbeat.Current.Discovery
import McpHeartbeat.Py.Canon

/-!
# Advertising

The answer to `server/discover` as a server builds it, and as a consumer reads it.

* `isValidExtensionIdentifier`: the grammar of prefixed keys;
* `HeartbeatCapability.toDict`, **`buildDiscoverResult`**, `servesChangeHints`;
* `ReadAsAdvertised`: what is read is what was advertised, and no stream is promised that is not
  served;
* `negotiate_built`: the one way through;
* **`advertises_faithfully_exactly_when`**: the stream is promised by a flag of the caller, so
  advertising is faithful only where the flag agrees with what is served.

`dict` is what `dict(value)` makes of a value that is no object, or the text of its error.
-/

namespace McpHeartbeat

/-! ## Identifiers -/

/-- `[first](?:[inner]*[A-Za-z0-9])?`, for an `inner` that has every letter and digit. -/
def isLabel (first inner : CodePoint → Bool) : Str → Bool
  | [] => false
  | c :: s => first c && s.all inner && (c :: s).getLast?.any isAlnum

/-- `[A-Za-z]`. -/
def isLetter : CodePoint → Bool
  | .scalar c => c.isAlpha
  | .surrogate _ => false

/-- `_LABEL`. -/
def LABEL : Str → Bool := isLabel isLetter (isIdSymbol "-")

/-- `_NAME`. -/
def NAME : Str → Bool := isLabel isAlnum (isIdSymbol "._-")

/-- `is_valid_extension_identifier`, of a string: labels between dots, a slash, a name. -/
def isValidExtensionIdentifier (identifier : Str) : Bool :=
  let labels := identifier.takeWhile (· != .scalar '/')
  match identifier.dropWhile (· != .scalar '/') with
  | [] => false
  | _ :: name => (labels.splitOn (.scalar '.')).all LABEL && NAME name

/-! ## Building -/

/-- `float.__repr__`: a float of a document is written as it is held. -/
structure FloatRepr where
  text : Double → FloatText
  text_ofText : ∀ x, text (.ofText x) = x

variable (quote : Str → Str) (decimal : Char → Option (Fin 10)) (R : FloatRepr)
  (dict : Json → Except Str Members)

/-- `HeartbeatCapability.to_dict`. -/
def HeartbeatCapability.toDict (self : HeartbeatCapability) : Members :=
  [(py "extension_version", .str self.extensionVersion),
    (py "resource_uri_template", .str self.resourceUriTemplate),
    (py "max_lease_seconds", .float (R.text self.maxLeaseSeconds)),
    (py "change_hints", .bool self.changeHints),
    (py "identity_binding", .bool self.identityBinding)]

/-- `dict(other_capabilities.get("extensions", {}))`. -/
def otherExtensions (otherCapabilities : Members) : Except Str Members :=
  match otherCapabilities.getD (py "extensions") (.obj []) with
  | .obj m => .ok m
  | v => dict v

/-- The `capabilities` of an answer: the flags of `resources` say what is served. -/
def advertisedCapabilities (capability : HeartbeatCapability) (otherCapabilities : Members)
    (servesListen : Bool) (extensions : Members) : Members :=
  Members.update
    [(py "resources",
        .obj [(py "subscribe", .bool servesListen), (py "listChanged", .bool servesListen)]),
      (py "extensions", .obj (extensions.set HEARTBEAT_EXTENSION_ID (.obj (capability.toDict R))))]
    (otherCapabilities.filter fun p => p.1 ∉ [py "extensions", py "resources"])

/-- `build_discover_result`. -/
def buildDiscoverResult (serverInfo : Members) (capability : Option HeartbeatCapability)
    (otherCapabilities : Option Members) (instructions : Option Str) (servesListen : Bool) :
    Except Str Members :=
  if ¬ isValidExtensionIdentifier HEARTBEAT_EXTENSION_ID then
    .error (Json.repr quote (.str HEARTBEAT_EXTENSION_ID) ++
      py " is not a conformant extension identifier")
  else
    match otherExtensions dict (otherCapabilities.getD []) with
    | .error e => .error e
    | .ok extensions =>
      .ok [(py "supportedVersions", .arr (MODERN_PROTOCOL_VERSIONS.map .str)),
        (py "capabilities", .obj (advertisedCapabilities R (capability.getD {})
          (otherCapabilities.getD []) servesListen extensions)),
        (py "serverInfo", .obj serverInfo),
        (py "instructions", instructions.elim .null .str),
        (py "resultType", .str (py "complete"))]

/-- `serves_change_hints`. -/
def servesChangeHints (negotiation : Negotiation) : Bool :=
  negotiation.heartbeatEnabled && negotiation.capability.any (·.changeHints)

/-! ## What a consumer is to read -/

/-- What is read is what was advertised: the heartbeat by its version and its block, every other
capability and extension as it was given, and no stream that is not served. -/
structure ReadAsAdvertised (c : HeartbeatCapability) (other extensions : Members)
    (servesListen : Bool) (n : Negotiation) : Prop where
  enabled : n.heartbeatEnabled = true ↔ c.extensionVersion = py "0.1"
  capability : n.heartbeatEnabled = true → ∃ r, n.capability = some r ∧
    r.resourceUriTemplate = c.resourceUriTemplate ∧
    R.text r.maxLeaseSeconds = R.text c.maxLeaseSeconds ∧ r.identityBinding = c.identityBinding
  capabilities : ∀ key, key ≠ py "resources" → key ≠ py "extensions" →
    n.otherCapabilities.item key = other.item key
  extensions : n.otherCapabilities.item (py "extensions") =
    some (.obj (extensions.filter (·.1 ≠ HEARTBEAT_EXTENSION_ID)))
  hints : servesChangeHints n = true → servesListen = true

/-- A consumer reads the answer, and reads what was advertised. -/
def AdvertisesFaithfully (serverInfo : Members) (c : HeartbeatCapability) (other : Option Members)
    (instructions : Option Str) (servesListen : Bool) (extensions : Members) : Prop :=
  ∃ d n, buildDiscoverResult quote R dict serverInfo (some c) other instructions servesListen =
      .ok d ∧
    negotiate quote decimal d HEARTBEAT_EXTENSION_VERSION false = .ok n ∧
    ReadAsAdvertised R c (other.getD []) extensions servesListen n

/-! ## The one way through -/

section Built

variable {quote decimal R dict} {c : HeartbeatCapability} {other extensions : Members}
  {servesListen : Bool}

/-- An object that names each member once reads the same from its end. -/
theorem item_reverse {m : Members} (h : (m.map Prod.fst).Nodup) (key : Str) :
    Members.item m.reverse key = m.item key := by
  have hreverse : (m.reverse.map Prod.fst).Nodup := by
    rw [List.map_reverse]
    exact List.nodup_reverse.mpr h
  refine Option.ext fun v => ?_
  rw [← Json.mem_iff_item hreverse, ← Json.mem_iff_item h, List.mem_reverse]

/-- Writing a member leaves the others in their places. -/
theorem filter_set (m : Members) (key : Str) (value : Json) :
    (m.set key value).filter (·.1 ≠ key) = m.filter (·.1 ≠ key) := by
  have hreplace : (m.map fun p => if p.1 = key then (key, value) else p).filter (·.1 ≠ key) =
      m.filter (·.1 ≠ key) := by
    induction m with
    | nil => rfl
    | cons p m ih =>
      rw [List.map_cons, List.filter_cons, List.filter_cons, ih]
      by_cases hp : p.1 = key <;> simp [hp]
  unfold Members.set
  split_ifs
  · exact hreplace
  · simp

theorem item_advertised (h : (other.map Prod.fst).Nodup) (key : Str) :
    (advertisedCapabilities R c other servesListen extensions).item key =
      if key = py "extensions" then
        some (.obj (extensions.set HEARTBEAT_EXTENSION_ID (.obj (c.toDict R))))
      else if key = py "resources" then
        some (.obj [(py "subscribe", .bool servesListen), (py "listChanged", .bool servesListen)])
      else other.item key := by
  have hkept : ((other.filter fun p => p.1 ∉ [py "extensions", py "resources"]).map
      Prod.fst).Nodup := h.sublist (List.filter_sublist.map _)
  rw [advertisedCapabilities, Members.item_update, item_reverse hkept,
    Members.item_filter other (· ∉ [py "extensions", py "resources"])]
  by_cases hextensions : key = py "extensions"
  · subst hextensions
    rfl
  · by_cases hresources : key = py "resources"
    · subst hresources
      rfl
    · have hfirst : (key == py "resources") = false := beq_false_of_ne hresources
      have hsecond : (key == py "extensions") = false := beq_false_of_ne hextensions
      simp [hextensions, hresources, Members.item, List.lookup_cons, hfirst, hsecond]

/-- A block is read as it was written. -/
theorem fromDict_toDict : HeartbeatCapability.fromDict quote decimal (c.toDict R) =
    .ok { c with maxLeaseSeconds := .ofText (R.text c.maxLeaseSeconds) } := rfl

variable (R) in
/-- What a consumer finds in the answer that is built. -/
structure Built (c : HeartbeatCapability) (other extensions : Members) (servesListen : Bool)
    (d : Members) : Prop where
  shared : Mutual d
  capabilities : capabilitiesOf d = advertisedCapabilities R c other servesListen extensions

theorem buildDiscoverResult_ok (serverInfo : Members) {other : Option Members}
    (instructions : Option Str)
    (hextensions : (other.getD []).getD (py "extensions") (.obj []) = .obj extensions) :
    ∃ d, buildDiscoverResult quote R dict serverInfo (some c) other instructions servesListen =
        .ok d ∧ Built R c (other.getD []) extensions servesListen d := by
  have hvalid : isValidExtensionIdentifier HEARTBEAT_EXTENSION_ID = true := by decide
  have hread : otherExtensions dict (other.getD []) = .ok extensions := by
    rw [otherExtensions, hextensions]
  have hbuild : ∃ d, buildDiscoverResult quote R dict serverInfo (some c) other instructions
      servesListen = .ok d ∧
      d.get (py "supportedVersions") = .arr (MODERN_PROTOCOL_VERSIONS.map .str) ∧
      d.get (py "capabilities") =
        .obj (advertisedCapabilities R c (other.getD []) servesListen extensions) := by
    rw [buildDiscoverResult, if_neg (not_not.mpr hvalid), hread]
    exact ⟨_, rfl, rfl, rfl⟩
  obtain ⟨d, hd, hversions, hcapabilities⟩ := hbuild
  refine ⟨d, hd, ⟨_, hversions, List.mem_singleton.mpr rfl⟩, ?_⟩
  rw [capabilitiesOf, hcapabilities, Json.mapping]

variable {d : Members}

theorem Built.extensionsOf (h : Built R c other extensions servesListen d)
    (hother : (other.map Prod.fst).Nodup) :
    extensionsOf d = extensions.set HEARTBEAT_EXTENSION_ID (.obj (c.toDict R)) := by
  rw [McpHeartbeat.extensionsOf, h.capabilities, Members.get, item_advertised hother, if_pos rfl]
  rfl

/-- The block that is enabled is the block that was read. -/
theorem negotiate_capability {entry : Members} {n : Negotiation} (h : Mutual d)
    (hentry : (extensionsOf d).get HEARTBEAT_EXTENSION_ID = .obj entry)
    (hc : HeartbeatCapability.fromDict quote decimal entry = .ok c) {supported : Str}
    (hn : negotiate quote decimal d supported false = .ok n)
    (henabled : n.heartbeatEnabled = true) : n.capability = some c := by
  unfold negotiate at hn
  rw [highestMutualVersion_of_mutual h] at hn
  dsimp only at hn
  rw [hentry] at hn
  dsimp only at hn
  rw [hc] at hn
  dsimp only at hn
  split_ifs at hn with hversion
  · obtain rfl := Except.ok.inj hn
    exact absurd henabled Bool.false_ne_true
  · rw [← Except.ok.inj hn]

/-- A consumer reads all that was advertised, and takes hints to be served where the block says
so. -/
theorem negotiate_built (h : Built R c other extensions servesListen d)
    (hother : (other.map Prod.fst).Nodup) :
    ∃ n, negotiate quote decimal d HEARTBEAT_EXTENSION_VERSION false = .ok n ∧
      (servesChangeHints n = true ↔ c.extensionVersion = py "0.1" ∧ c.changeHints = true) ∧
      ((servesChangeHints n = true → servesListen = true) →
        ReadAsAdvertised R c other extensions servesListen n) := by
  have hblock : (extensionsOf d).get HEARTBEAT_EXTENSION_ID = .obj (c.toDict R) := by
    rw [h.extensionsOf hother, Members.get, Members.item_set, if_pos rfl]
    rfl
  obtain ⟨n, hn, -, henabled, hothers⟩ :=
    negotiate_compares h.shared HEARTBEAT_EXTENSION_VERSION hblock
      (@fromDict_toDict quote decimal R c)
  have hcapability := negotiate_capability h.shared hblock fromDict_toDict hn
  refine ⟨n, hn, ?_, fun hhints => ⟨henabled, fun hon => ⟨_, hcapability hon, rfl, ?_, rfl⟩, ?_, ?_,
    hhints⟩⟩
  · rw [servesChangeHints, Bool.and_eq_true]
    constructor
    · rintro ⟨hon, hflag⟩
      rw [hcapability hon] at hflag
      exact ⟨henabled.mp hon, hflag⟩
    · rintro ⟨hversion, hflag⟩
      have hon := henabled.mpr hversion
      rw [hcapability hon]
      exact ⟨hon, hflag⟩
  · exact R.text_ofText _
  · intro key hresources hextensions
    rw [hothers, item_otherCapabilities, if_neg hextensions, h.capabilities,
      item_advertised hother, if_neg hextensions, if_neg hresources]
  · rw [hothers, item_otherCapabilities, if_pos rfl, h.extensionsOf hother, filter_set]

end Built

/-- **Advertising is faithful exactly where the block does not promise a stream that is not
served.** -/
theorem advertises_faithfully_exactly_when (quote : Str → Str) (decimal : Char → Option (Fin 10))
    (R : FloatRepr) (dict : Json → Except Str Members) (serverInfo : Members)
    (c : HeartbeatCapability) (other : Option Members) (instructions : Option Str)
    (servesListen : Bool) (extensions : Members)
    (hother : ((other.getD []).map Prod.fst).Nodup)
    (hextensions : (other.getD []).getD (py "extensions") (.obj []) = .obj extensions) :
    AdvertisesFaithfully quote decimal R dict serverInfo c other instructions servesListen
        extensions ↔
      c.extensionVersion ≠ py "0.1" ∨ c.changeHints = false ∨ servesListen = true := by
  obtain ⟨d, hd, hbuilt⟩ := @buildDiscoverResult_ok quote R dict c extensions servesListen
    serverInfo other instructions hextensions
  obtain ⟨n, hn, hserves, hfaithful⟩ := @negotiate_built quote decimal R c (other.getD [])
    extensions servesListen d hbuilt hother
  have hpromise : (servesChangeHints n = true → servesListen = true) ↔
      c.extensionVersion ≠ py "0.1" ∨ c.changeHints = false ∨ servesListen = true := by
    rw [hserves]
    cases c.changeHints <;> cases servesListen <;> simp
  rw [← hpromise]
  constructor
  · rintro ⟨d', n', hd', hn', h⟩
    obtain rfl := Except.ok.inj (hd.symm.trans hd')
    obtain rfl := Except.ok.inj (hn.symm.trans hn')
    exact h.hints
  · intro hhints
    exact ⟨d, n, hd, hn, hfaithful hhints⟩

/-- The text of a float that is held as its text; no other is asked for here. -/
def heldRepr : FloatRepr where
  text
    | .ofText x => x
    | _ => DEFAULT_MAX_LEASE_SECONDS
  text_ofText _ := rfl

/-- A server with tools and another extension, which serves the stream it promises. -/
theorem advertises_faithfully_exactly_when_tools :
    AdvertisesFaithfully quotePlain (fun _ => none) heldRepr (fun _ => .error []) [] {}
      (some [(py "tools", .obj []), (py "extensions", .obj [(py "io.other/thing", .obj [])])]) none
      true [(py "io.other/thing", .obj [])] :=
  (advertises_faithfully_exactly_when quotePlain (fun _ => none) heldRepr (fun _ => .error []) [] {}
    (some [(py "tools", .obj []), (py "extensions", .obj [(py "io.other/thing", .obj [])])]) none
    true [(py "io.other/thing", .obj [])] (by decide) rfl).mpr (Or.inr (Or.inr rfl))

/-- **The default block promises a stream that the same call says is not served.** -/
theorem promised_stream_unserved :
    ¬ AdvertisesFaithfully quotePlain (fun _ => none) heldRepr (fun _ => .error []) [] {} none none
      false [] := by
  rintro ⟨d, n, hd, hn, h⟩
  obtain ⟨d', hd', hbuilt⟩ := @buildDiscoverResult_ok quotePlain heldRepr (fun _ => .error []) {} []
    false [] none none rfl
  obtain ⟨n', hn', hserves, -⟩ :=
    @negotiate_built quotePlain (fun _ => none) heldRepr {} [] [] false d' hbuilt List.nodup_nil
  obtain rfl := Except.ok.inj (hd.symm.trans hd')
  obtain rfl := Except.ok.inj (hn.symm.trans hn')
  exact absurd (h.hints (hserves.mpr ⟨rfl, rfl⟩)) Bool.false_ne_true

end McpHeartbeat
