import McpHeartbeat.Core.Lineage
import McpHeartbeat.Core.Ports
import McpHeartbeat.Legacy.Client
import McpHeartbeat.Legacy.Identity

/-!
# Authoritative fetch over a legacy session

* `LegacyHint`, `LegacyFetchOutcome`: a parsed change hint, and everything one fetch decided;
* `updatedNotifications`, `parseUpdated`, `toCoreHint`: hints on the wire;
* `LegacyHeartbeatConsumer`, **`refetch`**: the consumer of one participant, and its one operation;
* `corroborate_none`, `refetch_ready`: what it does once the document is admitted and its claim is
  answered.

The source and the binder are collaborators: a call is given what they answer. What raises leaves
the consumer as it is.
-/

namespace McpHeartbeat.Legacy

/-- A parsed change hint. -/
structure LegacyHint where
  address : Str
  method : Str
  revision : Option Str := none
  digest : Option Str := none
  overloadedStandardMethod : Bool := false
deriving DecidableEq

/-- `carries_revision_metadata`. -/
def LegacyHint.carriesRevisionMetadata (hint : LegacyHint) : Bool :=
  hint.revision.isSome && hint.digest.isSome

/-! ## Hints on the wire -/

/-- Legacy addressing of a participant's resource. -/
def URI_SCHEME : Str := py "presence"

/-- The standard notification: its parameters are the address and nothing else. -/
def STANDARD_UPDATED_METHOD : Str := py "notifications/resources/updated"

/-- The namespaced notification that may carry revision metadata. -/
def EXTENDED_UPDATED_METHOD : Str := py "notifications/experimental/presenceLease/updated"

/-- `heartbeat_uri`. -/
def heartbeatUri (participantId : Str) : Str := URI_SCHEME ++ py "://" ++ participantId

section

variable (P : Platform) (repr : Json → Str)

/-- `participant_from_uri`. -/
def participantFromUri (uri : Json) : Except LegacyProtocolError Str :=
  let refusal : LegacyProtocolError :=
    { reason := .malformedHint,
      message := repr uri ++ py " is not a " ++ heartbeatUri [] ++ py " heartbeat address",
      code := .invalidParams }
  match uri with
  | .str uri =>
    if !(heartbeatUri []).isPrefixOf uri || uri.length = (heartbeatUri []).length then
      .error refusal
    else .ok (uri.drop (heartbeatUri []).length)
  | _ => .error refusal

/-- `to_core_hint`: only with metadata. -/
def LegacyHint.toCoreHint (hint : LegacyHint) : Except LegacyProtocolError ChangeHint :=
  match hint.revision, hint.digest with
  | some revision, some digest =>
    .ok { address := .str hint.address, revision := .str revision, digest }
  | _, _ =>
    .error { reason := .malformedHint,
             message := py "a standard legacy hint carries no revision metadata and cannot " ++
               py "become a core ChangeHint; refetch instead",
             code := .invalidParams }

/-- `updated_notifications`: the standard one, and the namespaced one for a peer that negotiated the
extension. -/
def updatedNotifications (heartbeat : Heartbeat) (extended : Bool) :
    Except Error (List (Str × Members)) := do
  let address := heartbeatUri (heartbeat.nodeId.getD (py "None"))
  let standard := (STANDARD_UPDATED_METHOD, [(py "uri", Json.str address)])
  if extended then
    return [standard, (EXTENDED_UPDATED_METHOD, [(py "uri", .str address),
      (py "revision", .str heartbeat.revision), (py "digest", .str (← heartbeat.digest P))])]
  else return [standard]

/-- The refusal of a notification that lacks what its method requires. -/
def malformedUpdate (message : Str) : LegacyProtocolError where
  reason := .malformedHint
  message := EXTENDED_UPDATED_METHOD ++ message
  code := .invalidParams

/-- `parse_updated`, on the namespaced method. -/
def parseExtended (params : Members) : Except LegacyProtocolError LegacyHint :=
  let address := params.get (py "uri")
  match participantFromUri repr address with
  | .error e => .error e
  | .ok _ =>
    match params.get (py "revision") with
    | .str (c :: revision) =>
      let digest := params.get (py "digest")
      if !isDigest digest then
        .error (malformedUpdate (py " requires a 'sha256:<64 hex>' digest"))
      else
        .ok { address := str repr address, method := EXTENDED_UPDATED_METHOD,
              revision := some (c :: revision), digest := some (str repr digest) }
    | _ => .error (malformedUpdate (py " requires a revision string"))

/-- `parse_updated`: metadata under the standard method is dropped, and flagged. -/
def parseUpdated (method : Str) (params : Option Members) : Except LegacyProtocolError LegacyHint :=
  let params := params.getD []
  if method = STANDARD_UPDATED_METHOD then
    let address := params.get (py "uri")
    match participantFromUri repr address with
    | .error e => .error e
    | .ok _ =>
      .ok { address := str repr address, method,
            overloadedStandardMethod := params.has (py "revision") || params.has (py "digest") }
  else if method = EXTENDED_UPDATED_METHOD then parseExtended repr params
  else .error { reason := .malformedHint,
                message := repr (.str method) ++ py " is not a heartbeat change notification",
                code := .methodNotFound }

/-- The address of a participant is read back. -/
theorem participantFromUri_heartbeatUri {participantId : Str} (h : participantId ≠ []) :
    participantFromUri repr (.str (heartbeatUri participantId)) = .ok participantId := by
  have hsplit : heartbeatUri participantId = heartbeatUri [] ++ participantId := by
    simp [heartbeatUri]
  have hlength : (heartbeatUri [] ++ participantId).length ≠ (heartbeatUri []).length := by
    simpa [List.length_append] using h
  unfold participantFromUri
  rw [hsplit]
  dsimp only
  rw [List.isPrefixOf_iff_prefix.mpr (List.prefix_append _ _), decide_eq_false hlength]
  show Except.ok _ = _
  rw [List.drop_left]

/-- **A namespaced hint is read back.** -/
theorem parseUpdated_extended {participantId revision digest : Str} (hp : participantId ≠ [])
    (hr : revision ≠ []) (hd : isDigest (.str digest) = true) :
    parseUpdated repr EXTENDED_UPDATED_METHOD (some [
        (py "uri", .str (heartbeatUri participantId)), (py "revision", .str revision),
        (py "digest", .str digest)]) =
      .ok { address := heartbeatUri participantId, method := EXTENDED_UPDATED_METHOD,
            revision := some revision, digest := some digest } := by
  obtain ⟨c, rest, rfl⟩ := List.exists_cons_of_ne_nil hr
  have hmethod : EXTENDED_UPDATED_METHOD ≠ STANDARD_UPDATED_METHOD := by decide
  have huri : Members.get [(py "uri", Json.str (heartbeatUri participantId)),
      (py "revision", .str (c :: rest)), (py "digest", .str digest)] (py "uri") =
        .str (heartbeatUri participantId) := rfl
  have hrevision : Members.get [(py "uri", Json.str (heartbeatUri participantId)),
      (py "revision", .str (c :: rest)), (py "digest", .str digest)] (py "revision") =
        .str (c :: rest) := rfl
  have hdigest : Members.get [(py "uri", Json.str (heartbeatUri participantId)),
      (py "revision", .str (c :: rest)), (py "digest", .str digest)] (py "digest") =
        .str digest := rfl
  unfold parseUpdated
  rw [if_neg hmethod, if_pos rfl]
  unfold parseExtended
  dsimp only [Option.getD]
  rw [huri, participantFromUri_heartbeatUri repr hp, hrevision, hdigest]
  dsimp only
  rw [hd]
  rfl

end

/-! ## One fetch -/

/-- Reasons of the adapter for refusing a fetch. -/
inductive LegacyRefusal
  | identityUnbound
  | heartbeatNotNegotiated
deriving DecidableEq, Repr

/-- Everything one authoritative fetch decided. -/
structure LegacyFetchOutcome where
  admission : Admission
  identity : IdentityBindingEvidence
  era : EraReport
  hintCorroborated : Option Bool := none
  refused : Option LegacyRefusal := none
deriving DecidableEq

/-- `LegacyFetchOutcome.accepted`. -/
def LegacyFetchOutcome.accepted (o : LegacyFetchOutcome) : Bool :=
  o.refused.isNone && o.admission.accepted

/-- What comes out of `refetch`: an error of the core, or what a collaborator raised. -/
inductive FetchError
  | core (e : Error)
  | collaborator (name : Str)
deriving DecidableEq

/-- A binder: the evidence for a claim, or the name of what it raises. -/
abbrev Binder := IdentityClaim → Except Str IdentityBindingEvidence

/-- Reads authoritative heartbeats over a legacy session. -/
structure LegacyHeartbeatConsumer where
  participantId : Str
  session : LegacyClientSession
  binder : Option Binder := none
  state : LineageState
  uncorroboratedHints : ℕ := 0

variable (P : Platform) (repr : Json → Str)

namespace LegacyHeartbeatConsumer

variable (c : LegacyHeartbeatConsumer)

/-- `_evidence`. -/
def evidence (claimedParticipant epochId : Str) : Except FetchError IdentityBindingEvidence :=
  match c.binder with
  | none => .ok (unverifiedEvidence claimedParticipant)
  | some binder =>
    (binder { participantId := claimedParticipant, epochId }).mapError .collaborator

/-- The participant a document claims: the tracked one, if it claims none. -/
def claimed (document : Json) : Str :=
  let claimed := document.member (py "node_id")
  if claimed.truthy then str repr claimed else c.participantId

/-- The epoch a document claims. -/
def claimedEpoch (document : Json) : Str :=
  let epoch := document.member (py "boot_id")
  if epoch.truthy then str repr epoch else []

/-- What a hint is worth beside the document it announced: corroborated or not, and the hints that
carried nothing to compare. -/
def corroborate (outcome : Admission) (hint : Option LegacyHint) :
    Except FetchError (Option Bool × ℕ) :=
  if outcome.accepted || outcome.duplicate then
    match hint, outcome.state.held with
    | some hint, some held =>
      if hint.carriesRevisionMetadata then
        match held.digest P with
        | .error e => .error (.core e)
        | .ok digest => .ok (some (decide (hint.digest = some digest)), c.uncorroboratedHints)
      else .ok (none, c.uncorroboratedHints + 1)
    | _, _ => .ok (none, c.uncorroboratedHints)
  else .ok (none, c.uncorroboratedHints)

/-- `refetch`: fetch the authoritative document and decide whether to hold it. `fetched` is what
the source returns, or the name of the exception it raises. -/
def refetch (fetched : Except Str Json) (now : ℤ) (hint : Option LegacyHint) :
    Except FetchError LegacyFetchOutcome × LegacyHeartbeatConsumer :=
  let era := c.session.eraReport
  if !c.session.heartbeatReady then
    (.ok { admission := { state := c.state, reason := some .schemaInvalid },
           identity := unverifiedEvidence c.participantId, era,
           refused := some .heartbeatNotNegotiated }, c)
  else match fetched with
    | .error name => (.error (.collaborator name), c)
    | .ok document =>
      match admitDocument P c.state document now DEFAULT_MAX_SKEW with
      | .error e => (.error (.core e), c)
      | .ok outcome =>
        match c.evidence (c.claimed repr document) (claimedEpoch repr document) with
        | .error e => (.error e, c)
        | .ok evidence =>
          if evidence.binding = .unbound then
            (.ok { admission := outcome, identity := evidence, era,
                   refused := some .identityUnbound }, c)
          else match c.corroborate P outcome hint with
            | .error e => (.error e, c)
            | .ok (hintCorroborated, uncorroboratedHints) =>
              let c := { c with uncorroboratedHints }
              let c := if outcome.accepted then { c with state := outcome.state } else c
              (.ok { admission := outcome, identity := evidence, era, hintCorroborated }, c)

/-- Without a hint there is nothing to compare. -/
theorem corroborate_none (outcome : Admission) :
    c.corroborate P outcome none = .ok (none, c.uncorroboratedHints) := by
  unfold corroborate
  split_ifs <;> rfl

variable {P repr c} {document : Json} {now : ℤ} {outcome : Admission}
  {evidence : IdentityBindingEvidence}

/-- A fetch on a session that is ready, once the document is admitted and its claim is answered. -/
theorem refetch_ready (hready : c.session.heartbeatReady = true)
    (ha : admitDocument P c.state document now DEFAULT_MAX_SKEW = .ok outcome)
    (he : c.evidence (c.claimed repr document) (claimedEpoch repr document) = .ok evidence)
    (hint : Option LegacyHint) :
    c.refetch P repr (.ok document) now hint =
      if evidence.binding = .unbound then
        (.ok { admission := outcome, identity := evidence, era := c.session.eraReport,
               refused := some .identityUnbound }, c)
      else match c.corroborate P outcome hint with
        | .error e => (.error e, c)
        | .ok (hintCorroborated, uncorroboratedHints) =>
          (.ok { admission := outcome, identity := evidence, era := c.session.eraReport,
                 hintCorroborated },
            { c with
              uncorroboratedHints
              state := if outcome.accepted then outcome.state else c.state }) := by
  unfold refetch
  simp only [hready, Bool.not_true, Bool.false_eq_true, if_false, ha, he]
  congr 1
  cases c.corroborate P outcome hint with
  | error e => rfl
  | ok answer =>
    dsimp only
    split_ifs <;> rfl

end LegacyHeartbeatConsumer

end McpHeartbeat.Legacy
