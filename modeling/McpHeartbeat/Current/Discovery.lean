import McpHeartbeat.Core.Model
import McpHeartbeat.Current.Contract
import McpHeartbeat.Current.Errors
import McpHeartbeat.Py.Convert

/-!
# Discovery

The answer to `server/discover` is read on two axes: the revision, which both sides must share, and
the heartbeat extension, which is optional.

* `HeartbeatCapability`, `fromDict`: the block of the extension, coerced member by member;
* `Negotiation`, `negotiate`: both axes, or the error that is raised;
* `Offers`, `Untouched`: what a consumer is to learn; `Plain`: a block whose window is a number and
  whose version is not;
* `negotiate_absent`, `negotiate_entry`: the two ways through;
* **`reports_exactly_when`**: discovery reports as it is meant to exactly where the block is plain.

How strings are quoted and the digits beyond ASCII are parameters.
-/

namespace McpHeartbeat

def HEARTBEAT_EXTENSION_VERSION : Str := EXTENSION_VERSION

/-- Where a participant's lease is read from. -/
def DEFAULT_RESOURCE_URI_TEMPLATE : Str := py "heartbeat://participants/\x7bparticipant_id\x7d"

/-- The longest window, in seconds: `300.0`. -/
def DEFAULT_MAX_LEASE_SECONDS : FloatText := ⟨"300.0".toList, by decide, by decide, by decide⟩

/-- What a server publishes under `capabilities.extensions[HEARTBEAT_EXTENSION_ID]`. -/
structure HeartbeatCapability where
  extensionVersion : Str := HEARTBEAT_EXTENSION_VERSION
  resourceUriTemplate : Str := DEFAULT_RESOURCE_URI_TEMPLATE
  maxLeaseSeconds : Double := .ofText DEFAULT_MAX_LEASE_SECONDS
  changeHints : Bool := true
  identityBinding : Bool := true
deriving DecidableEq

/-- The outcome of discovery, on both axes. -/
structure Negotiation where
  protocolRevision : Str
  supportedVersions : List Str
  heartbeatEnabled : Bool
  extensionVersion : Option Str := none
  capability : Option HeartbeatCapability := none
  otherCapabilities : Members := []
  disabledReason : Option Str := none
deriving DecidableEq

/-- What discovery raises. -/
inductive DiscoveryError
  | unsupportedProtocolVersion (proposed : Json) (supported : List Str)
  | unsupportedHeartbeatExtension (found : Option Str) (supported : Str)
  | unconverted (e : FloatError)
deriving DecidableEq

/-- The JSON-RPC code of an error of the adapter. -/
def DiscoveryError.code : DiscoveryError → Option ℤ
  | unsupportedProtocolVersion _ _ => some UNSUPPORTED_PROTOCOL_VERSION
  | unsupportedHeartbeatExtension _ _ => some METHOD_NOT_FOUND
  | unconverted _ => none

/-- `highest_mutual_version`: `None` where nothing is shared. -/
def highestMutualVersion : Json → Option Str
  | .arr offered => (MODERN_PROTOCOL_VERSIONS.filter fun v => .str v ∈ offered).getLast?
  | _ => none

/-- `value if isinstance(value, Mapping) else {}`. -/
def Json.mapping : Json → Members
  | .obj m => m
  | _ => []

/-- `raw.get(key, default)`. -/
def Members.getD (m : Members) (key : Str) (default : Json) : Json := (m.item key).getD default

variable (quote : Str → Str) (decimal : Char → Option (Fin 10))

/-- The text of an error of the adapter. -/
def DiscoveryError.message : DiscoveryError → Option Str
  | unsupportedProtocolVersion proposed supported =>
    some (py "unsupported protocol version " ++ Json.repr quote proposed ++ py " (supported: " ++
      (py ", ").intercalate supported ++ py ")")
  | unsupportedHeartbeatExtension found supported =>
    some (py "unsupported heartbeat extension version " ++
      Json.repr quote (found.elim .null .str) ++ py " (supported: " ++ supported ++ py ")")
  | unconverted _ => none

/-- `HeartbeatCapability.from_dict`. -/
def HeartbeatCapability.fromDict (raw : Members) : Except FloatError HeartbeatCapability :=
  match float decimal (raw.getD (py "max_lease_seconds") (.float DEFAULT_MAX_LEASE_SECONDS)) with
  | .error e => .error e
  | .ok maxLeaseSeconds =>
    .ok { extensionVersion :=
            str (Json.repr quote) (raw.getD (py "extension_version") (.str (py ""))),
          resourceUriTemplate :=
            str (Json.repr quote)
              (raw.getD (py "resource_uri_template") (.str DEFAULT_RESOURCE_URI_TEMPLATE)),
          maxLeaseSeconds,
          changeHints := (raw.getD (py "change_hints") (.bool false)).truthy,
          identityBinding := (raw.getD (py "identity_binding") (.bool false)).truthy }

section Negotiate

variable (discoverResult : Members)

/-- `capabilities`, or nothing. -/
def capabilitiesOf : Members := (discoverResult.get (py "capabilities")).mapping

/-- `extensions`, or nothing. -/
def extensionsOf : Members := ((capabilitiesOf discoverResult).get (py "extensions")).mapping

/-- Every capability and every extension entry, except that of the heartbeat. -/
def otherCapabilities : Members :=
  (capabilitiesOf discoverResult).filter (·.1 ≠ py "extensions") ++
    [(py "extensions",
      .obj ((extensionsOf discoverResult).filter (·.1 ≠ HEARTBEAT_EXTENSION_ID)))]

/-- `refuse`: heartbeat is off, unless the caller is strict. -/
def refuse (supportedExtensionVersion : Str) (strictExtension : Bool) (revision : Str)
    (reason : Str) (version : Option Str) : Except DiscoveryError Negotiation :=
  if strictExtension then
    .error (.unsupportedHeartbeatExtension version supportedExtensionVersion)
  else
    .ok { protocolRevision := revision
          supportedVersions := MODERN_PROTOCOL_VERSIONS
          heartbeatEnabled := false
          extensionVersion := version
          otherCapabilities := otherCapabilities discoverResult
          disabledReason := some reason }

/-- `negotiate`. -/
def negotiate (supportedExtensionVersion : Str) (strictExtension : Bool) :
    Except DiscoveryError Negotiation :=
  match highestMutualVersion (discoverResult.get (py "supportedVersions")) with
  | none =>
    .error (.unsupportedProtocolVersion (discoverResult.get (py "supportedVersions"))
      MODERN_PROTOCOL_VERSIONS)
  | some revision =>
    match (extensionsOf discoverResult).get HEARTBEAT_EXTENSION_ID with
    | .obj raw =>
      match HeartbeatCapability.fromDict quote decimal raw with
      | .error e => .error (.unconverted e)
      | .ok capability =>
        if capability.extensionVersion ≠ supportedExtensionVersion then
          refuse discoverResult supportedExtensionVersion strictExtension revision
            (py "unsupported_extension_version") (some capability.extensionVersion)
        else
          .ok { protocolRevision := revision
                supportedVersions := MODERN_PROTOCOL_VERSIONS
                heartbeatEnabled := true
                extensionVersion := some capability.extensionVersion
                capability := some capability
                otherCapabilities := otherCapabilities discoverResult }
    | _ =>
      refuse discoverResult supportedExtensionVersion strictExtension revision
        (py "extension_absent") none

end Negotiate

/-! ## What a consumer is to learn -/

/-- The server lists the revision of this adapter. -/
def Mutual (d : Members) : Prop :=
  ∃ offered, d.get (py "supportedVersions") = .arr offered ∧ .str PROTOCOL_REVISION ∈ offered

/-- The server publishes an extension block that declares the version of the heartbeat. -/
def Offers (d : Members) : Prop :=
  ∃ capabilities extensions entry : Members, d.get (py "capabilities") = .obj capabilities ∧
    capabilities.get (py "extensions") = .obj extensions ∧
    extensions.get HEARTBEAT_EXTENSION_ID = .obj entry ∧
    entry.get (py "extension_version") = .str (py "0.1")

/-- Every capability, and every extension entry, but that of the heartbeat, is as it was sent. -/
structure Untouched (d others : Members) : Prop where
  capabilities : ∀ key ≠ py "extensions", others.item key = (capabilitiesOf d).item key
  extensions : ∃ kept : Members, others.item (py "extensions") = some (.obj kept) ∧
    ∀ key ≠ HEARTBEAT_EXTENSION_ID, kept.item key = (extensionsOf d).item key

/-- Discovery reports the revision, whether the heartbeat is offered, and all else as it was
sent. -/
def Reports (d : Members) : Prop :=
  ∃ n, negotiate quote decimal d HEARTBEAT_EXTENSION_VERSION false = .ok n ∧
    n.protocolRevision = PROTOCOL_REVISION ∧ (n.heartbeatEnabled = true ↔ Offers d) ∧
    Untouched d n.otherCapabilities

/-- The JSON number that is written as the version is. -/
def VERSION_NUMBER : FloatText := ⟨"0.1".toList, by decide, by decide, by decide⟩

/-- A block whose window, if it has one, is convertible, and whose version is not a number that
reads like the version. -/
structure Plain (entry : Members) : Prop where
  window : ∀ v, entry.item (py "max_lease_seconds") = some v → v.Floatable decimal
  version : entry.get (py "extension_version") ≠ .float VERSION_NUMBER

/-! ## The two ways through -/

variable {quote decimal} {d entry : Members}

/-- The entry of the heartbeat is withheld, and nothing else. -/
theorem item_otherCapabilities (key : Str) : (otherCapabilities d).item key =
    if key = py "extensions" then
      some (.obj ((extensionsOf d).filter (·.1 ≠ HEARTBEAT_EXTENSION_ID)))
    else (capabilitiesOf d).item key := by
  have hkept := Members.item_filter (capabilitiesOf d) (· ≠ py "extensions") key
  unfold otherCapabilities
  unfold Members.item at hkept ⊢
  rw [List.lookup_append, hkept]
  split_ifs with hne heq heq
  · exact absurd heq (of_decide_eq_true hne)
  · have hnone : (key == py "extensions") = false := beq_false_of_ne heq
    rw [List.lookup_cons, hnone, List.lookup_nil, Option.or_none]
  · rw [heq, List.lookup_cons_self, Option.none_or]
  · exact absurd (decide_eq_true heq) hne

/-- **Nothing else is disabled.** -/
theorem untouched (d : Members) : Untouched d (otherCapabilities d) := by
  constructor
  · intro key hkey
    rw [item_otherCapabilities, if_neg hkey]
  · refine ⟨(extensionsOf d).filter (·.1 ≠ HEARTBEAT_EXTENSION_ID), ?_, ?_⟩
    · rw [item_otherCapabilities, if_pos rfl]
    · intro key hkey
      rw [Members.item_filter _ (· ≠ HEARTBEAT_EXTENSION_ID), if_pos (decide_eq_true hkey)]

theorem highestMutualVersion_of_mutual (h : Mutual d) :
    highestMutualVersion (d.get (py "supportedVersions")) = some PROTOCOL_REVISION := by
  obtain ⟨offered, hoffered, hmem⟩ := h
  have hall : (MODERN_PROTOCOL_VERSIONS.filter fun v => Json.str v ∈ offered) =
      MODERN_PROTOCOL_VERSIONS := by
    rw [List.filter_eq_self]
    intro v hv
    rw [List.mem_singleton.mp hv]
    exact decide_eq_true hmem
  rw [hoffered, highestMutualVersion, hall]
  rfl

theorem mapping_get {v w : Json} (hw : w ≠ .null) (key : Str) :
    v.mapping.get key = w ↔ ∃ m, v = .obj m ∧ Members.get m key = w := by
  cases v with
  | obj m => exact ⟨fun h => ⟨m, rfl, h⟩, fun ⟨_, hm, h⟩ => Json.obj.inj hm ▸ h⟩
  | _ => exact iff_of_false (fun h => hw h.symm) fun ⟨_, hm, _⟩ => nomatch hm

/-- The offer, read where discovery reads it. -/
theorem offers_iff : Offers d ↔ ∃ entry : Members,
    (extensionsOf d).get HEARTBEAT_EXTENSION_ID = .obj entry ∧
      entry.get (py "extension_version") = .str (py "0.1") := by
  unfold Offers extensionsOf capabilitiesOf
  constructor
  · rintro ⟨capabilities, extensions, entry, hcap, hext, hentry, hversion⟩
    refine ⟨entry, ?_, hversion⟩
    rw [hcap, Json.mapping, hext, Json.mapping, hentry]
  · rintro ⟨entry, hentry, hversion⟩
    obtain ⟨extensions, hext, hget⟩ := (mapping_get (by simp) _).mp hentry
    obtain ⟨capabilities, hcap, hget'⟩ := (mapping_get (by simp) _).mp hext
    exact ⟨capabilities, extensions, entry, hcap, hget', hget, hversion⟩

/-- A block is read where its window is convertible. -/
theorem fromDict_isOk_iff : (∃ c, HeartbeatCapability.fromDict quote decimal entry = .ok c) ↔
    ∀ v, entry.item (py "max_lease_seconds") = some v → v.Floatable decimal := by
  have hwindow : (∀ v, entry.item (py "max_lease_seconds") = some v → v.Floatable decimal) ↔
      (entry.getD (py "max_lease_seconds") (.float DEFAULT_MAX_LEASE_SECONDS)).Floatable
        decimal := by
    unfold Members.getD
    cases entry.item (py "max_lease_seconds") with
    | none => exact iff_of_true (fun _ h => nomatch h) trivial
    | some v => exact ⟨fun h => h v rfl, fun h w hw => Option.some.inj hw ▸ h⟩
  rw [hwindow, ← float_isOk_iff]
  unfold HeartbeatCapability.fromDict
  cases float decimal (entry.getD (py "max_lease_seconds") (.float DEFAULT_MAX_LEASE_SECONDS)) with
  | error e => exact iff_of_false (fun ⟨_, h⟩ => nomatch h) fun ⟨_, h⟩ => nomatch h
  | ok x => exact iff_of_true ⟨_, rfl⟩ ⟨x, rfl⟩

/-- The version of a block that is read: a number passes for the text it is written as. -/
theorem fromDict_version {c : HeartbeatCapability}
    (h : HeartbeatCapability.fromDict quote decimal entry = .ok c) :
    c.extensionVersion = HEARTBEAT_EXTENSION_VERSION ↔
      entry.get (py "extension_version") = .str (py "0.1") ∨
        entry.get (py "extension_version") = .float VERSION_NUMBER := by
  have hversion : c.extensionVersion =
      str (Json.repr quote) (entry.getD (py "extension_version") (.str (py ""))) := by
    unfold HeartbeatCapability.fromDict at h
    split at h
    · cases h
    · rw [← Except.ok.inj h]
  have hdigit : VERSION_NUMBER.text.head?.any Char.isDigit := by decide
  rw [hversion, show HEARTBEAT_EXTENSION_VERSION = VERSION_NUMBER.text.map .scalar from rfl,
    str_repr_of_digit quote hdigit]
  unfold Members.getD Members.get
  cases entry.item (py "extension_version") with
  | none =>
    refine iff_of_false ?_ ?_
    · rintro (h | h)
      · exact absurd (Json.str.inj h) (by decide)
      · cases h
    · rintro (h | h) <;> cases h
  | some v => rfl

variable (quote decimal) in
/-- Without a block, discovery answers. -/
theorem negotiate_absent (h : Mutual d) (supported : Str)
    (habsent : ∀ entry, (extensionsOf d).get HEARTBEAT_EXTENSION_ID ≠ .obj entry) :
    ∃ n, negotiate quote decimal d supported false = .ok n ∧
      n.protocolRevision = PROTOCOL_REVISION ∧ n.heartbeatEnabled = false ∧
      n.otherCapabilities = otherCapabilities d := by
  unfold negotiate
  rw [highestMutualVersion_of_mutual h]
  dsimp only
  split
  · rename_i entry hentry
    exact absurd hentry (habsent entry)
  · exact ⟨_, rfl, rfl, rfl, rfl⟩

/-- A block that is not converted is raised, whatever its version. -/
theorem negotiate_raises (h : Mutual d) (supported : Str) (strict : Bool)
    (hentry : (extensionsOf d).get HEARTBEAT_EXTENSION_ID = .obj entry) {e : FloatError}
    (he : HeartbeatCapability.fromDict quote decimal entry = .error e) :
    negotiate quote decimal d supported strict = .error (.unconverted e) := by
  unfold negotiate
  rw [highestMutualVersion_of_mutual h]
  dsimp only
  rw [hentry]
  dsimp only
  rw [he]

/-- A block that is converted is compared by its version. -/
theorem negotiate_compares (h : Mutual d) (supported : Str)
    (hentry : (extensionsOf d).get HEARTBEAT_EXTENSION_ID = .obj entry) {c : HeartbeatCapability}
    (hc : HeartbeatCapability.fromDict quote decimal entry = .ok c) :
    ∃ n, negotiate quote decimal d supported false = .ok n ∧
      n.protocolRevision = PROTOCOL_REVISION ∧
      (n.heartbeatEnabled = true ↔ c.extensionVersion = supported) ∧
      n.otherCapabilities = otherCapabilities d := by
  unfold negotiate
  rw [highestMutualVersion_of_mutual h]
  dsimp only
  rw [hentry]
  dsimp only
  rw [hc]
  dsimp only
  split_ifs with hversion
  · exact ⟨_, rfl, rfl, iff_of_false Bool.false_ne_true hversion, rfl⟩
  · exact ⟨_, rfl, rfl, iff_of_true rfl (not_not.mp hversion), rfl⟩

/-- Without a block, discovery reports as it is meant to. -/
theorem reports_absent (h : Mutual d)
    (habsent : ∀ entry, (extensionsOf d).get HEARTBEAT_EXTENSION_ID ≠ .obj entry) :
    Reports quote decimal d := by
  obtain ⟨n, hn, hrevision, hoff, hothers⟩ :=
    negotiate_absent quote decimal h HEARTBEAT_EXTENSION_VERSION habsent
  refine ⟨n, hn, hrevision, ?_, hothers ▸ untouched d⟩
  rw [hoff, offers_iff]
  exact iff_of_false Bool.false_ne_true fun ⟨entry, hentry, _⟩ => habsent entry hentry

/-- With a block, discovery reports as it is meant to where the block is plain. -/
theorem reports_entry (h : Mutual d)
    (hentry : (extensionsOf d).get HEARTBEAT_EXTENSION_ID = .obj entry) :
    Reports quote decimal d ↔ Plain decimal entry := by
  cases hread : HeartbeatCapability.fromDict quote decimal entry with
  | error e =>
    refine iff_of_false ?_ ?_
    · rintro ⟨n, hn, -⟩
      rw [negotiate_raises h _ _ hentry hread] at hn
      cases hn
    · intro hplain
      obtain ⟨c, hc⟩ := fromDict_isOk_iff.mpr hplain.window
      rw [hread] at hc
      cases hc
  | ok c =>
    have hwindow := fromDict_isOk_iff.mp ⟨c, hread⟩
    have hversion := fromDict_version hread
    have hoffers : Offers d ↔ Members.get entry (py "extension_version") = .str (py "0.1") := by
      rw [offers_iff, hentry]
      exact ⟨fun ⟨_, he, h'⟩ => Json.obj.inj he ▸ h', fun h' => ⟨entry, rfl, h'⟩⟩
    obtain ⟨n, hn, hrevision, henabled, hothers⟩ :=
      negotiate_compares h HEARTBEAT_EXTENSION_VERSION hentry hread
    constructor
    · rintro ⟨m, hm, -, hreported, -⟩
      obtain rfl := Except.ok.inj (hn.symm.trans hm)
      refine ⟨hwindow, fun hnumber => ?_⟩
      -- the number would be enabled, and is no offer
      have hoffered := hoffers.mp (hreported.mp (henabled.mpr (hversion.mpr (Or.inr hnumber))))
      rw [hnumber] at hoffered
      cases hoffered
    · intro hplain
      refine ⟨n, hn, hrevision, ?_, hothers ▸ untouched d⟩
      rw [henabled, hversion, hoffers]
      exact or_iff_left hplain.version

/-- **Discovery reports as it is meant to exactly where the block is plain.** -/
theorem reports_exactly_when (quote : Str → Str) (decimal : Char → Option (Fin 10)) (d : Members)
    (h : Mutual d) : Reports quote decimal d ↔
      ∀ entry, (extensionsOf d).get HEARTBEAT_EXTENSION_ID = .obj entry → Plain decimal entry := by
  by_cases hblock : ∃ entry, (extensionsOf d).get HEARTBEAT_EXTENSION_ID = .obj entry
  · obtain ⟨entry, hentry⟩ := hblock
    rw [reports_entry h hentry]
    refine ⟨fun hplain e he => ?_, fun hplain => hplain entry hentry⟩
    obtain rfl := Json.obj.inj (hentry.symm.trans he)
    exact hplain
  · have habsent := not_exists.mp hblock
    exact iff_of_true (reports_absent h habsent) fun entry he => absurd he (habsent entry)

/-- A discover result whose block has this version and this window. -/
def discovered (version window : Json) : Members :=
  [(py "supportedVersions", .arr [.str PROTOCOL_REVISION]),
    (py "capabilities", .obj [(py "tools", .obj []),
      (py "extensions", .obj [(HEARTBEAT_EXTENSION_ID,
        .obj [(py "extension_version", version), (py "max_lease_seconds", window)])])])]

theorem mutual_discovered (version window : Json) : Mutual (discovered version window) :=
  ⟨_, rfl, List.mem_singleton.mpr rfl⟩

/-- How `repr` writes a string without quotes, escapes and symbols that do not print. -/
def quotePlain (s : Str) : Str := py "'" ++ s ++ py "'"

/-- A server whose window is a numeral is reported as it is meant to be. -/
theorem reports_exactly_when_numeral : Reports quotePlain (fun _ => none)
    (discovered (.str HEARTBEAT_EXTENSION_VERSION) (.str (py " 1_20.5e0 "))) := by
  refine (reports_exactly_when quotePlain (fun _ => none) _ (mutual_discovered _ _)).mpr ?_
  intro entry he
  obtain rfl := Json.obj.inj he
  refine ⟨fun v hv => ?_, by decide⟩
  obtain rfl := Option.some.inj hv
  decide

/-- **A window of `null` takes the server offline**, and a version that is a number is taken for the
string. -/
theorem reports_part :
    (Mutual (discovered (.str HEARTBEAT_EXTENSION_VERSION) .null) ∧
      ¬ Reports quotePlain (fun _ => none)
        (discovered (.str HEARTBEAT_EXTENSION_VERSION) .null)) ∧
    Mutual (discovered (.float VERSION_NUMBER) (.int 300)) ∧
      ¬ Reports quotePlain (fun _ => none) (discovered (.float VERSION_NUMBER) (.int 300)) := by
  refine ⟨⟨mutual_discovered _ _, fun h => ?_⟩, mutual_discovered _ _, fun h => ?_⟩
  · have hplain := (reports_entry (mutual_discovered _ _) rfl).mp h
    exact hplain.window .null rfl
  · have hplain := (reports_entry (mutual_discovered _ _) rfl).mp h
    exact hplain.version rfl

end McpHeartbeat
