import Mathlib.Data.Finset.Insert
import McpHeartbeat.Base.Rekey
import McpHeartbeat.Core.Model

/-!
# Binding a claimed participant to the principal of a request

* `Principal`, `PermittedParticipants`: who authenticated, and what the deployment answers;
* `RequestIdentityBinder.evaluate`: one binding per response; `enforce` refuses an unbound one;
* `StaticPermittedParticipants`: a policy that is a mapping.

The policy is injected and may raise; its answer is compared by identity with `True` and `False`.
-/

namespace McpHeartbeat

/-- Who authenticated this request. -/
structure Principal where
  clientId : Option Str := none
  issuer : Option Str := none
  subject : Option Str := none
deriving DecidableEq

namespace Principal

/-- Nothing identifying was presented: the empty string is nothing. -/
def isEmpty (q : Principal) : Bool :=
  !([q.clientId, q.issuer, q.subject].any fun o => o.any fun s => !s.isEmpty)

/-- A stable, comparable rendering. -/
def compact (q : Principal) : Str :=
  (Json.arr [Json.ofStr? q.clientId, Json.ofStr? q.issuer, Json.ofStr? q.subject]).canon.dump
    Json.escapeAscii

end Principal

/-- What a policy returns: `True`, `False`, `None` or something else. -/
inductive Permission
  | permitted
  | refused
  | noOpinion
  | other
deriving DecidableEq, Repr

/-- The injected policy; an error is the name of what it raises. -/
abbrev PermittedParticipants := Principal → Str → Except Str Permission

/-- The `identity_binding` facet for one response. -/
structure ResponseBinding where
  binding : IdentityBinding
  participantId : Str
  principalFingerprint : Option Str := none
  reason : Option Str := none
deriving DecidableEq

/-- Resolves one claim against one request's principal. -/
structure RequestIdentityBinder where
  policy : PermittedParticipants
  principal : Option Principal

/-- `RequestIdentityBinder.evaluate`. -/
def RequestIdentityBinder.evaluate (binder : RequestIdentityBinder) (participantId : Str) :
    Except Str ResponseBinding :=
  let unverified : ResponseBinding :=
    { binding := .unverified, participantId, reason := some (py "no_principal_evidence") }
  match binder.principal with
  | none => .ok unverified
  | some principal =>
    if principal.isEmpty then .ok unverified
    else do
      let verdict ← binder.policy principal participantId
      let fingerprint := principal.compact
      return match verdict with
        | .permitted => { binding := .bound, participantId, principalFingerprint := some fingerprint }
        | .refused =>
          { binding := .unbound, participantId, principalFingerprint := some fingerprint,
            reason := some (py "principal_not_permitted") }
        | .noOpinion | .other =>
          { binding := .unbound, participantId, principalFingerprint := some fingerprint,
            reason := some (py "no_policy_for_principal") }

/-- `IdentityUnbound`, with the binding it reports. -/
structure IdentityUnbound where
  data : ResponseBinding

/-- `enforce`: fail closed on `unbound`. -/
def enforce (binding : ResponseBinding) : Except IdentityUnbound ResponseBinding :=
  if binding.binding = .unbound then .error ⟨binding⟩ else .ok binding

/-- A policy that is a mapping from principals, as `compact` renders them. -/
structure StaticPermittedParticipants where
  mapping : Base.Mapping Str (Finset Str)

/-- `StaticPermittedParticipants.permits`: a principal that is not listed yields no opinion. -/
def StaticPermittedParticipants.permits (policy : StaticPermittedParticipants) :
    PermittedParticipants := fun principal participantId =>
  match policy.mapping.lookup principal.compact with
  | none => .ok .noOpinion
  | some allowed => .ok (if participantId ∈ allowed then .permitted else .refused)

/-- **A binding is `bound` exactly when the principal is not empty and the policy permits it.** -/
theorem evaluate_bound {binder : RequestIdentityBinder} {p : Str} {b : ResponseBinding}
    (h : binder.evaluate p = .ok b) : b.binding = .bound ↔ ∃ q, binder.principal = some q ∧
      q.isEmpty = false ∧ binder.policy q p = .ok .permitted := by
  unfold RequestIdentityBinder.evaluate at h
  cases hq : binder.principal with
  | none =>
    rw [hq] at h
    obtain rfl := Except.ok.inj h
    simp
  | some q =>
    rw [hq] at h
    dsimp only at h
    by_cases he : q.isEmpty = true
    · rw [if_pos he] at h
      obtain rfl := Except.ok.inj h
      simp [he]
    · rw [if_neg he] at h
      cases hp : binder.policy q p with
      | error e => rw [hp] at h; cases h
      | ok verdict =>
        rw [hp] at h
        obtain rfl := Except.ok.inj h
        cases verdict <;> simp [he, hp]

/-- A binder raises only what its policy raises. -/
theorem evaluate_ok {binder : RequestIdentityBinder} {p : Str}
    (hp : ∀ q, ∃ verdict, binder.policy q p = .ok verdict) : ∃ b, binder.evaluate p = .ok b := by
  unfold RequestIdentityBinder.evaluate
  cases binder.principal with
  | none => exact ⟨_, rfl⟩
  | some q =>
    obtain ⟨verdict, hv⟩ := hp q
    dsimp only
    split_ifs
    · exact ⟨_, rfl⟩
    · rw [hv]
      exact ⟨_, rfl⟩

end McpHeartbeat
