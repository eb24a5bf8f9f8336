import McpHeartbeat.Current.Identity
import McpHeartbeat.Legacy.Identity

/-!
# The binders of the two eras

One mapping from principals to participants, injected into both eras: the current one keys it by
`Principal.compact`, the legacy one by the principal itself.

* `currentBinder`, `legacyBinder`: the two binders over one mapping;
* `standing`, `verdictOf`: where a participant stands with a principal, and what either era makes
  of it;
* `Undisputed`: no other principal is rendered as this one is, and stands differently;
* **`binders_agree_exactly_when`**: when the two answer alike; `binders_disagree`: they do not
  always.
-/

namespace McpHeartbeat

open Base Legacy

/-- The key of the current era for a principal of the legacy one. -/
def compactOf (q : Str) : Str := Principal.compact { clientId := some q }

/-- The binder of a request of the principal `p`. -/
def currentBinder (M : Mapping Str (Finset Str)) (p : Option Str) : RequestIdentityBinder where
  policy := StaticPermittedParticipants.permits ⟨rekey compactOf M⟩
  principal := p.map fun q => { clientId := some q }

/-- The binder of a session of the principal `p`. -/
def legacyBinder (M : Mapping Str (Finset Str)) (source : Str) (p : Option Str) :
    LegacySessionIdentityBinder where
  context := { principal := p, source }
  permitted := .mapping M

variable {M : Mapping Str (Finset Str)} {source epoch q x : Str} {p : Option Str}
  {repr : Json → Str}

/-! ## Standings -/

/-- Where a participant stands with a principal of a mapping: listed or not, or nothing is said. -/
def standing (M : Mapping Str (Finset Str)) (q x : Str) : Option Bool :=
  (M.lookup q).map fun allowed => decide (x ∈ allowed)

/-- The binding and the reason that go with a standing. -/
def verdictOf : Option Bool → IdentityBinding × Option Str
  | some true => (.bound, none)
  | some false => (.unbound, some (py "principal_not_permitted"))
  | none => (.unbound, some (py "no_policy_for_principal"))

theorem verdictOf_injective : Function.Injective verdictOf := by
  intro s t h
  rcases s with _ | _ | _ <;> rcases t with _ | _ | _ <;> first | rfl | (revert h; decide)

theorem verdictOf_bound {s : Option Bool} : (verdictOf s).1 = .bound ↔ s = some true := by
  rcases s with _ | _ | _ <;> decide

/-- What a policy says from the standing under the rendered name. -/
def permissionOf : Option Bool → Permission
  | some true => .permitted
  | some false => .refused
  | none => .noOpinion

theorem verdictOf_unbound {s : Option Bool} : (verdictOf s).1 = .unbound ↔ s ≠ some true := by
  rcases s with _ | _ | _ <;> decide

theorem permits_rekey :
    StaticPermittedParticipants.permits ⟨rekey compactOf M⟩ { clientId := some q } x =
      .ok (permissionOf (standing (rekey compactOf M) (compactOf q) x)) := by
  have hname : Principal.compact { clientId := some q } = compactOf q := rfl
  unfold StaticPermittedParticipants.permits standing
  rw [hname]
  cases (rekey compactOf M).lookup (compactOf q) with
  | none => rfl
  | some allowed => by_cases hx : x ∈ allowed <;> simp [hx, permissionOf]

/-- The current era answers from the standing under the rendered name. -/
theorem currentBinder_evaluate (hq : q ≠ []) :
    ∃ b, (currentBinder M (some q)).evaluate x = .ok b ∧
      (b.binding, b.reason) = verdictOf (standing (rekey compactOf M) (compactOf q) x) := by
  have hne : Principal.isEmpty { clientId := some q } = false := by
    cases q with
    | nil => exact absurd rfl hq
    | cons c q => rfl
  simp only [currentBinder, RequestIdentityBinder.evaluate, Option.map_some, hne, permits_rekey]
  rcases standing (rekey compactOf M) (compactOf q) x with _ | _ | _ <;> exact ⟨_, rfl, rfl⟩

/-- The legacy era answers from the standing under the name itself, the empty one included. -/
theorem legacyBinder_evidence :
    ∃ e, (legacyBinder M source (some q)).evidence repr { participantId := x, epochId := epoch } =
      .ok e ∧ (e.binding, e.reason) = verdictOf (standing M q x) := by
  simp only [legacyBinder, LegacySessionIdentityBinder.evidence,
    LegacySessionIdentityBinder.isPermitted, LegacySessionIdentityBinder.refusalReason, standing]
  cases hlookup : M.lookup q with
  | none =>
    have hmem : q ∉ M := AList.lookup_eq_none.mp hlookup
    simp only [Option.getD_none, Finset.notMem_empty, decide_false, hmem, not_false_eq_true, if_true]
    exact ⟨_, rfl, rfl⟩
  | some allowed =>
    have hmem : q ∈ M := AList.lookup_isSome.mp (by rw [hlookup]; rfl)
    by_cases hx : x ∈ allowed
    · simp only [Option.getD_some, hx, decide_true, Option.map_some]
      exact ⟨_, rfl, rfl⟩
    · simp only [Option.getD_some, hx, decide_false, hmem, not_true, if_false, Option.map_some]
      exact ⟨_, rfl, rfl⟩

/-! ## Agreement -/

/-- The last principal that is rendered as `q` is stands to `x` as `q` does. -/
def Undisputed (M : Mapping Str (Finset Str)) (q x : Str) : Prop :=
  ∀ e ∈ lastNamed compactOf M (compactOf q), ∃ allowed, M.lookup q = some allowed ∧
    (x ∈ allowed ↔ x ∈ e.2)

theorem undisputed_iff :
    Undisputed M q x ↔ standing (rekey compactOf M) (compactOf q) x = standing M q x := by
  rw [standing, lookup_rekey, standing, Undisputed]
  cases hlast : lastNamed compactOf M (compactOf q) with
  | none => simp [lookup_of_lastNamed_none hlast]
  | some e =>
    cases M.lookup q with
    | none => simp
    | some allowed => simp [eq_comm]

/-- A principal that alone is rendered as it is. -/
theorem undisputed_of_unique (h : ∀ r ∈ M, compactOf r = compactOf q → r = q) :
    Undisputed M q x := by
  rw [undisputed_iff, standing, lookup_rekey_self h, standing]

/-- The principal is not empty, and the mapping lists the participant for it. -/
def Listed (M : Mapping Str (Finset Str)) (p : Option Str) (x : Str) : Prop :=
  ∃ q allowed, p = some q ∧ q ≠ [] ∧ M.lookup q = some allowed ∧ x ∈ allowed

theorem listed_of_standing (hq : q ≠ []) (h : standing M q x = some true) :
    Listed M (some q) x := by
  obtain ⟨allowed, hlookup, hx⟩ := Option.map_eq_some_iff.mp h
  exact ⟨q, allowed, rfl, hq, hlookup, by simpa using hx⟩

/-- **When the two binders answer alike**, and bound only for a participant that is listed: for no
principal, and for one that is not empty and undisputed. -/
theorem binders_agree_exactly_when (M : Mapping Str (Finset Str)) (source epoch : Str)
    (repr : Json → Str) (p : Option Str) (x : Str) :
    ∃ b e, (currentBinder M p).evaluate x = .ok b ∧
      (legacyBinder M source p).evidence repr { participantId := x, epochId := epoch } = .ok e ∧
      ((b.binding = e.binding ∧ b.reason = e.reason ∧ (b.binding = .bound → Listed M p x)) ↔
        ∀ q, p = some q → q ≠ [] ∧ Undisputed M q x) := by
  cases p with
  | none => exact ⟨_, _, rfl, rfl, iff_of_true ⟨rfl, rfl, nofun⟩ nofun⟩
  | some q =>
    obtain ⟨e, he, hlegacy⟩ := @legacyBinder_evidence M source epoch q x repr
    by_cases hq : q = []
    · -- nobody for the current era, somebody for the legacy one
      subst hq
      refine ⟨_, e, rfl, he, iff_of_false ?_ fun h => (h [] rfl).1 rfl⟩
      rintro ⟨hbinding, -, -⟩
      have hunverified : (verdictOf (standing M [] x)).1 = .unverified := by
        rw [← hlegacy]
        exact hbinding.symm
      cases hs : standing M [] x with
      | none => rw [hs] at hunverified; cases hunverified
      | some b => cases b <;> rw [hs] at hunverified <;> cases hunverified
    · obtain ⟨b, hb, hcurrent⟩ := currentBinder_evaluate (M := M) (x := x) hq
      refine ⟨b, e, hb, he, ?_⟩
      have hagree : (b.binding = e.binding ∧ b.reason = e.reason) ↔ Undisputed M q x := by
        rw [← Prod.mk.injEq, hcurrent, hlegacy, verdictOf_injective.eq_iff, undisputed_iff]
      constructor
      · rintro ⟨hbinding, hreason, -⟩ r hr
        obtain rfl := Option.some.inj hr
        exact ⟨hq, hagree.mp ⟨hbinding, hreason⟩⟩
      · intro h
        obtain ⟨hbinding, hreason⟩ := hagree.mpr (h q rfl).2
        refine ⟨hbinding, hreason, fun hbound => listed_of_standing hq ?_⟩
        apply verdictOf_bound.mp
        rw [← hlegacy]
        exact hbinding.symm.trans hbound

/-- **The binders do not always answer alike**: the empty principal is nobody to the one, and may be
bound by the other. -/
theorem binders_disagree : ¬ ∀ (M : Mapping Str (Finset Str)) (source epoch : Str)
    (repr : Json → Str) (p : Option Str) (x : Str),
    ∃ b e, (currentBinder M p).evaluate x = .ok b ∧
      (legacyBinder M source p).evidence repr { participantId := x, epochId := epoch } = .ok e ∧
      b.binding = e.binding ∧ b.reason = e.reason ∧ (b.binding = .bound → Listed M p x) := by
  intro hall
  obtain ⟨b, e, hb, he, hbinding, -⟩ := hall (AList.singleton [] {py "node"}) NO_CONTEXT []
    (fun _ => []) (some []) (py "node")
  obtain ⟨e', he', hlegacy⟩ := @legacyBinder_evidence (AList.singleton [] {py "node"}) NO_CONTEXT []
    [] (py "node") (fun _ => [])
  obtain rfl := Except.ok.inj (he.symm.trans he')
  obtain rfl := Except.ok.inj hb
  have hbound : (e.binding, e.reason) = verdictOf (some true) := hlegacy
  rw [← hbinding] at hbound
  cases (Prod.mk.inj hbound).1

end McpHeartbeat
