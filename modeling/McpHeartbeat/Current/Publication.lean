import Mathlib.Logic.Function.Basic
import McpHeartbeat.Core.Transport
import McpHeartbeat.Current.Schedule
import McpHeartbeat.Eras.Addresses

/-!
# Leases as resources

A server publishes leases as resources of one template, and a client reads one by its address.

* `HeartbeatPublication`, `put`, `get`: the lease of each participant that was put last;
* `heartbeatResource`: the handler of the template; `readHeartbeat`, `fetchResult`: the client;
* `Sdk`: what the SDK supplies in between; `Sdk.Addresses`: it finds the segment of an address;
* `readHeartbeat_of_get`: one read; **`reads_last_put`**: a client reads what was put last for the
  participant it asks for, in canonical form.

The template is the default one.
-/

namespace McpHeartbeat

open Base Json

/-- `HeartbeatPublication`: the leases one server publishes, keyed by participant. -/
structure HeartbeatPublication where
  documents : Option Str → Option Json

namespace HeartbeatPublication

/-- `HeartbeatPublication({})`. -/
def empty : HeartbeatPublication := ⟨fun _ => none⟩

/-- `put`. -/
def put (P : Platform) (s : HeartbeatPublication) (heartbeat : Heartbeat) : HeartbeatPublication :=
  ⟨Function.update s.documents heartbeat.nodeId (some (heartbeat.toDict P))⟩

/-- `get`. -/
def get (s : HeartbeatPublication) (participantId : Str) : Option Json :=
  s.documents (some participantId)

end HeartbeatPublication

/-- What a read raises: there is no capability or no address, the server answers with an error, or the
text is not read. -/
inductive ReadError
  | sdkUnavailable
  | address (e : AddressError)
  | server (message : Option Str)
  | json (e : LoadsError)
deriving DecidableEq

/-- What the SDK supplies: the segment that a template takes from an address; and the interpreter: how
a field of a template is filled that is no plain name, how strings are quoted, how a text is
decoded, and the names of exceptions. -/
structure Sdk where
  segment : Str → Option Str
  rich : Str → Except AddressError Str
  repr : Json → Str
  decoder : Decoder
  name : ReadError → Str

/-- The template takes the segment of an address, as it stands or decoded. -/
def Sdk.Addresses (sdk : Sdk) : Prop :=
  ∀ s, IsSegment s → sdk.segment (PARTICIPANTS ++ s) = some s ∨
    sdk.segment (PARTICIPANTS ++ s) = some s.unquote

/-- The resource `heartbeat` of `build_heartbeat_server`; an error is the text of a `ValueError`. -/
def heartbeatResource (sdk : Sdk) (publication : HeartbeatPublication) (participantId : Str) :
    Except Str Str :=
  let decoded := participantFromUriSegment participantId
  match publication.get decoded with
  | none => .error (py "no heartbeat published for " ++ sdk.repr (.str decoded))
  | some document => .ok (dumpSpaced [] document.canon)

/-- `client.read_resource(uri)`: the text of the contents. -/
def Sdk.readResource (sdk : Sdk) (publication : HeartbeatPublication) (uri : Str) :
    Except ReadError Str :=
  match sdk.segment uri with
  | none => .error (.server none)
  | some segment =>
    match heartbeatResource sdk publication segment with
    | .error message => .error (.server (some message))
    | .ok text => .ok text

/-- `read_heartbeat`: fetch the authoritative lease. -/
def readHeartbeat (sdk : Sdk) (publication : HeartbeatPublication) (negotiation : Negotiation)
    (participantId : Str) : Except ReadError Json :=
  match negotiation.capability with
  | none => .error .sdkUnavailable
  | some capability =>
    match capability.resourceUri sdk.rich participantId with
    | .error e => .error (.address e)
    | .ok uri =>
      match sdk.readResource publication uri with
      | .error e => .error e
      | .ok text =>
        match loads sdk.decoder text with
        | .error e => .error (.json e)
        | .ok document => .ok document

/-- `fetch_result`: what a `HeartbeatConsumer` is given, or the name of what is raised. -/
def fetchResult (sdk : Sdk) (publication : HeartbeatPublication) (negotiation : Negotiation)
    (participantId : Str) (principal : Option Principal) : Except Str FetchResult :=
  match readHeartbeat sdk publication negotiation participantId with
  | .error e => .error (sdk.name e)
  | .ok document => .ok { document, principal }

/-! ## One read -/

variable {P : Platform} {sdk : Sdk} {publication : HeartbeatPublication} {negotiation : Negotiation}
  {capability : HeartbeatCapability} {p : Str} {d : Json}

/-- The error of a participant that publishes nothing. -/
def unpublished (sdk : Sdk) (p : Str) : ReadError :=
  .server (some (py "no heartbeat published for " ++ sdk.repr (.str p)))

/-- The handler that an address of a participant reaches. -/
theorem readResource_address (haddr : sdk.Addresses) (hp : NODE_ID_RE p = true)
    (htemplate : capability.resourceUriTemplate = DEFAULT_RESOURCE_URI_TEMPLATE) :
    ∃ uri, capability.resourceUri sdk.rich p = .ok uri ∧
      sdk.readResource publication uri = match publication.get p with
        | none => .error (unpublished sdk p)
        | some document => .ok (dumpSpaced [] document.canon) := by
  obtain ⟨segment, hsegment⟩ := quote_of_node hp
  obtain ⟨honce, htwice⟩ := decode_twice hp hsegment
  refine ⟨_, resourceUri_default sdk.rich htemplate hsegment, ?_⟩
  have hserve : ∀ s, participantFromUriSegment s = p →
      sdk.segment (PARTICIPANTS ++ segment) = some s →
      sdk.readResource publication (PARTICIPANTS ++ segment) = match publication.get p with
        | none => .error (unpublished sdk p)
        | some document => .ok (dumpSpaced [] document.canon) := by
    intro s hs hfound
    unfold Sdk.readResource heartbeatResource
    rw [hfound]
    dsimp only
    rw [hs]
    cases publication.get p <;> rfl
  -- the server decodes a segment once, whether the SDK has decoded it or not
  rcases haddr segment (isSegment_quote (ne_nil_of_node hp) hsegment) with hraw | hdecoded
  · exact hserve segment honce hraw
  · exact hserve _ htwice hdecoded

/-- **One read**: the document that was put, in canonical form, or the error of the server. -/
theorem readHeartbeat_of_get (haddr : sdk.Addresses) (hp : NODE_ID_RE p = true)
    (hcap : negotiation.capability = some capability)
    (htemplate : capability.resourceUriTemplate = DEFAULT_RESOURCE_URI_TEMPLATE)
    (hread : ∀ d, publication.get p = some d → Readable sdk.decoder sdk.decoder.depth d) :
    readHeartbeat sdk publication negotiation p = match publication.get p with
      | none => .error (unpublished sdk p)
      | some d => .ok d.canon := by
  obtain ⟨uri, huri, hresource⟩ : ∃ uri, _ ∧ sdk.readResource publication uri = _ :=
    readResource_address haddr hp htemplate
  unfold readHeartbeat
  rw [hcap]
  dsimp only
  rw [huri]
  dsimp only
  rw [hresource]
  cases hget : publication.get p with
  | none => rfl
  | some d =>
    have hloads : loads sdk.decoder (dumpSpaced [] d.canon) = .ok d.canon := by
      rw [← List.append_nil (dumpSpaced [] d.canon)]
      exact loads_dumpSpaced blank_nil blank_nil (hread d hget).canon
    dsimp only
    rw [hloads]

/-! ## Runs of puts -/

theorem get_put (s : HeartbeatPublication) (h : Heartbeat) (p : Str) :
    (s.put P h).get p = if h.nodeId = some p then some (h.toDict P) else s.get p := by
  unfold HeartbeatPublication.put HeartbeatPublication.get
  dsimp only
  by_cases hn : h.nodeId = some p
  · rw [if_pos hn, hn, Function.update_self]
  · rw [if_neg hn, Function.update_of_ne (Ne.symm hn)]

/-- What is kept is what was put last for the participant. -/
theorem get_puts (P : Platform) (puts : List Heartbeat) (p : Str) :
    (puts.foldl (HeartbeatPublication.put P) .empty).get p =
      (puts.filter fun h => h.nodeId = some p).getLast?.map (Heartbeat.toDict P) := by
  induction puts using List.reverseRecOn with
  | nil => rfl
  | append_singleton puts h ih =>
    rw [List.foldl_append, List.foldl_cons, List.foldl_nil, get_put, List.filter_append]
    by_cases hn : h.nodeId = some p
    · simp [hn]
    · simp [hn, ih]

/-- **A client reads what was put last.** After any puts for any participants, a read for a
participant returns the canonical form of the document that was put last for it, or the error of
the server if none was; other participants do not matter. -/
theorem reads_last_put (P : Platform) (sdk : Sdk) (haddr : sdk.Addresses)
    (negotiation : Negotiation) (capability : HeartbeatCapability)
    (hcap : negotiation.capability = some capability)
    (htemplate : capability.resourceUriTemplate = DEFAULT_RESOURCE_URI_TEMPLATE)
    (puts : List Heartbeat) (p : Str) (hp : NODE_ID_RE p = true)
    (hread : ∀ h ∈ puts, h.nodeId = some p →
      Readable sdk.decoder sdk.decoder.depth (h.toDict P)) :
    readHeartbeat sdk (puts.foldl (HeartbeatPublication.put P) .empty) negotiation p =
      match (puts.filter fun h => h.nodeId = some p).getLast? with
      | none => .error (unpublished sdk p)
      | some h => .ok (h.toDict P).canon := by
  rw [readHeartbeat_of_get haddr hp hcap htemplate, get_puts]
  · cases (puts.filter fun h => h.nodeId = some p).getLast? <;> rfl
  · intro d hd
    rw [get_puts] at hd
    obtain ⟨h, hh, rfl⟩ := Option.map_eq_some_iff.mp hd
    obtain ⟨hmem, hn⟩ := List.mem_filter.mp (List.mem_of_getLast? hh)
    exact hread h hmem (by simpa using hn)

/-- The part of a template after what stands before the participant, decoded. -/
def plainSdk : Sdk where
  segment uri :=
    if PARTICIPANTS <+: uri then some (Str.unquote (uri.drop PARTICIPANTS.length)) else none
  rich _ := .error .indexError
  repr _ := []
  decoder := plainDecoder
  name _ := []

theorem plainSdk_addresses : plainSdk.Addresses := by
  intro s _
  right
  simp [plainSdk]

/-- What discovery tells a client of a server with the default capability. -/
def plainNegotiation : Negotiation where
  protocolRevision := PROTOCOL_REVISION
  supportedVersions := [PROTOCOL_REVISION]
  heartbeatEnabled := true
  capability := some {}

/-- The lease of another participant. -/
def neighbour : Heartbeat := { renewal with nodeId := some (py "ns:svc/a+b"), sequence := some 7 }

theorem issued_neighbour : Issued (py "ns:svc/a+b") neighbour where
  node := rfl
  node_word := by decide
  boot := ⟨_, rfl, by decide⟩
  seq := ⟨7, rfl, by decide⟩
  current := rfl
  namespaced := nofun
  year := by decide +kernel
  lease := ⟨30 * second, by decide, by decide, by decide⟩

theorem readable_neighbour :
    Readable plainDecoder plainDecoder.depth (neighbour.toDict plainPlatform) :=
  readable_toDict plainPlatform issued_neighbour (rfl : plainDecoder.depth = 999 + 1) (Or.inl rfl)
    (n := 7) rfl
    (Or.inr ((by decide : 7 < plainDecoder.maxStrDigits).trans (Nat.lt_pow_self (by decide))))

theorem reads_last_put_neighbour :
    readHeartbeat plainSdk
        ([neighbour, renewal].foldl (HeartbeatPublication.put plainPlatform) .empty)
        plainNegotiation (py "ns:svc/a+b") =
      match ([neighbour, renewal].filter fun h => h.nodeId = some (py "ns:svc/a+b")).getLast? with
      | none => .error (unpublished plainSdk (py "ns:svc/a+b"))
      | some h => .ok (h.toDict plainPlatform).canon :=
  reads_last_put plainPlatform plainSdk plainSdk_addresses plainNegotiation {} rfl rfl
    [neighbour, renewal] (py "ns:svc/a+b") (by decide) (by
      intro h hh hn
      rcases List.mem_pair.mp hh with rfl | rfl
      · exact readable_neighbour
      · exact absurd hn (by decide))

end McpHeartbeat
