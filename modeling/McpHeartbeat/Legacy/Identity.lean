import Mathlib.Data.Finset.Insert
import McpHeartbeat.Base.Rekey
import McpHeartbeat.Core.Model

/-!
# Binding a claimed participant to the principal of a legacy session

* `LegacySessionAuthContext`, `PermittedParticipants`: who the transport authenticated, and whom the
  deployment permits: a mapping or a predicate;
* `LegacySessionIdentityBinder.evidence`: the binding of one claim, and why;
* `unverifiedEvidence`: the evidence where no binder was injected.

`repr` is a parameter of the texts. A predicate may raise.
-/

namespace McpHeartbeat.Legacy

open Base

/-- The source of a context from which nothing was derived. -/
def NO_CONTEXT : Str := py "none"

/-- The authenticated principal of one legacy session. -/
structure LegacySessionAuthContext where
  principal : Option Str := none
  source : Str := NO_CONTEXT
deriving DecidableEq

/-- What the deployment owner injects. An error is the name of what a predicate raises. -/
inductive PermittedParticipants
  | mapping (permitted : Mapping Str (Finset Str))
  | predicate (permitted : Str → Str → Except Str Bool)

/-- Why the binding came out the way it did. -/
structure IdentityBindingEvidence where
  binding : IdentityBinding
  participantId : Str
  principal : Option Str
  contextSource : Str
  detail : Str
  reason : Option Str := none
deriving DecidableEq

/-- Resolves a claimed participant against the principal of the session. -/
structure LegacySessionIdentityBinder where
  context : LegacySessionAuthContext
  permitted : PermittedParticipants

namespace LegacySessionIdentityBinder

variable (binder : LegacySessionIdentityBinder)

/-- `_is_permitted`. -/
def isPermitted (principal participantId : Str) : Except Str Bool :=
  match binder.permitted with
  | .predicate permitted => permitted principal participantId
  | .mapping permitted => .ok (decide (participantId ∈ (permitted.lookup principal).getD ∅))

/-- `_refusal_reason`: a refusal by the policy, or a hole in it. -/
def refusalReason (principal : Str) : Str :=
  match binder.permitted with
  | .predicate _ => py "principal_not_permitted"
  | .mapping permitted =>
    if principal ∉ permitted then py "no_policy_for_principal" else py "principal_not_permitted"

/-- `LegacySessionIdentityBinder.evidence`. -/
def evidence (repr : Json → Str) (claim : IdentityClaim) : Except Str IdentityBindingEvidence :=
  let participantId := claim.participantId
  let contextSource := binder.context.source
  match binder.context.principal with
  | none =>
    .ok { binding := .unverified, participantId, principal := none, contextSource,
          detail := py "the legacy session carries no authenticated principal; " ++
            py "the claim is unchecked, not disproved",
          reason := some (py "no_principal_evidence") }
  | some principal =>
    let session := py "session principal " ++ repr (.str principal) ++ py " (via " ++ contextSource
    match binder.isPermitted principal participantId with
    | .error name => .error name
    | .ok true =>
      .ok { binding := .bound, participantId, principal := some principal, contextSource,
            detail := session ++ py ") may publish " ++ repr (.str participantId) ++
              py " per the injected mapping" }
    | .ok false =>
      let reason := binder.refusalReason principal
      let gap := reason = py "no_policy_for_principal"
      .ok { binding := .unbound, participantId, principal := some principal, contextSource,
            detail := session ++ py ") is " ++
              (if gap then py "not covered by the injected mapping"
                else py "not permitted to publish " ++ repr (.str participantId)) ++ py "; refusing",
            reason := some reason }

end LegacySessionIdentityBinder

/-- `unverified_evidence`: no binder was injected. -/
def unverifiedEvidence (participantId : Str) : IdentityBindingEvidence where
  binding := .unverified
  participantId := participantId
  principal := none
  contextSource := NO_CONTEXT
  detail := py "no identity binder was injected; binding is unverified by construction"
  reason := some (py "no_binder_injected")

end McpHeartbeat.Legacy
