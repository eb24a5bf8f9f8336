import McpHeartbeat.Current.Refetch
import McpHeartbeat.Eras.Binders
import McpHeartbeat.Legacy.Resources

/-!
# The authority of a fetched document

One document, offered to the consumers of both eras, with the binders of one mapping.

* `Welcome`: the documents that an admission accepts; `accepted_iff`;
* `legacy_refetch`, `current_refetch`: what a fetch does to the state of either consumer;
* `ListedAlike`: the participant is listed under both keys of a principal, or under neither;
* **`authority_agrees_exactly_when`**: when both consumers end in one state, and no response that
  is not bound moves either; `authority_disagrees`: they do not always.
-/

namespace McpHeartbeat

open Base Legacy

variable {P : Platform} {repr : Json → Str} {state : LineageState} {d : Json} {now : ℤ}
  {maxSkew : Option ℤ} {a : Admission} {M : Mapping Str (Finset Str)} {source q x : Str}
  {p : Option Str}

/-! ## Admission -/

/-- The document reads as a timely heartbeat of the participant, which its lineage admits. -/
def Welcome (state : LineageState) (d : Json) (now : ℤ) (maxSkew : Option ℤ) : Prop :=
  ∃ h, Reads d h ∧ h.nodeId = some state.participantId ∧ state.Admits h ∧
    checkFreshness h now maxSkew = none

/-- **An admission accepts what is welcome, and moves nothing else.** -/
theorem accepted_iff (ha : admitDocument P state d now maxSkew = .ok a) :
    (a.accepted = true ↔ Welcome state d now maxSkew) ∧
      (a.accepted = true ↔ a.state ≠ state) := by
  rcases admit_ok ha with ⟨h, hread, rfl, hn, hadm, hf⟩ | ⟨hacc, hs⟩
  · exact ⟨iff_of_true rfl ⟨h, hread, hn, hadm, hf⟩, iff_of_true rfl (hold_ne hadm)⟩
  · have hno : ¬ a.accepted = true := Bool.eq_false_iff.mp hacc
    refine ⟨iff_of_false hno ?_, iff_of_false hno (not_not.mpr hs)⟩
    rintro ⟨h, hread, hn, hadm, hf⟩
    have hj := ((@judge_timely P state h now maxSkew hn hf).resolve_right fun hno => hno.1 hadm).2
    rw [admit_of_reads hread, hj] at ha
    obtain rfl := Except.ok.inj ha
    cases hacc

/-- A heartbeat of the participant claims the participant. -/
theorem claimed_of_reads {c : LegacyHeartbeatConsumer} {h : Heartbeat} (hr : Reads d h)
    (hn : h.nodeId = some c.participantId) : c.claimed repr d = c.participantId := by
  obtain ⟨m, rfl, hm⟩ := reads_iff.mp hr
  have hnode : Json.member (.obj m) (py "node_id") = .str c.participantId := by
    show (Members.item m (py "node_id")).getD .null = _
    rw [hm.node, hn]
    rfl
  have htruthy : Json.truthy (.str c.participantId) = true := by
    have hre := hm.node_re _ hn
    cases hid : c.participantId with
    | nil => rw [hid] at hre; cases hre
    | cons u s => rfl
  unfold LegacyHeartbeatConsumer.claimed
  rw [hnode]
  dsimp only
  rw [htruthy]
  rfl

/-! ## One fetch -/

/-- What a fetch does to the state of a legacy consumer that is ready. -/
theorem legacy_refetch {c : LegacyHeartbeatConsumer} {e : IdentityBindingEvidence}
    (hready : c.session.heartbeatReady = true)
    (ha : admitDocument P c.state d now DEFAULT_MAX_SKEW = .ok a)
    (he : c.evidence (c.claimed repr d) (LegacyHeartbeatConsumer.claimedEpoch repr d) = .ok e) :
    (c.refetch P repr (.ok d) now none).2.state =
      if e.binding = .unbound then c.state else a.state := by
  rw [LegacyHeartbeatConsumer.refetch_ready hready ha he,
    LegacyHeartbeatConsumer.corroborate_none]
  by_cases hunbound : e.binding = .unbound
  · rw [if_pos hunbound, if_pos hunbound]
  · rw [if_neg hunbound, if_neg hunbound]
    by_cases hacc : a.accepted = true
    · exact if_pos hacc
    · have hsame : a.state = c.state := not_not.mp fun hne => hacc ((accepted_iff ha).2.mpr hne)
      exact (if_neg hacc).trans hsame.symm

/-- What a fetch does to the state of a consumer of the current era. -/
theorem current_refetch {c : HeartbeatConsumer} {policy : PermittedParticipants}
    {result : FetchResult} {b : ResponseBinding}
    (ha : admitDocument P c.state result.document now c.maxSkew = .ok a)
    (hb : RequestIdentityBinder.evaluate ⟨policy, result.principal⟩ c.participantId = .ok b) :
    (c.refetch P (some (binderOver policy)) (.ok result) now).2.state =
      if b.binding = .bound then a.state else c.state := by
  have hbind : c.bind (some (binderOver policy)) result = .ok (some b) := by
    simp only [HeartbeatConsumer.bind, binderOver, hb]
  rw [refetch_response, hbind]
  dsimp only
  split_ifs with hbound
  · rw [withheld_none.mpr (by rintro _ ⟨⟩; exact hbound)]
    rcases reconcile_cases P (c.responded (some b) now) (some b) result.document now with
      ⟨a', v, ha', hrec, -, -⟩ | ⟨e, he, -⟩
    · obtain rfl := Except.ok.inj (ha.symm.trans ha')
      rw [hrec]
    · cases ha.symm.trans he
  · cases hw : c.withheld (some b) with
    | some v => rfl
    | none => exact absurd (withheld_none.mp hw b rfl) hbound

/-! ## Agreement -/

/-- The participant is listed for a principal exactly if it is for the last one that is rendered
alike. -/
def ListedAlike (M : Mapping Str (Finset Str)) (q x : Str) : Prop :=
  (∃ allowed ∈ M.lookup q, x ∈ allowed) ↔ ∃ e ∈ lastNamed compactOf M (compactOf q), x ∈ e.2

theorem standing_eq_true : standing M q x = some true ↔ ∃ allowed ∈ M.lookup q, x ∈ allowed := by
  simp [standing]

theorem listedAlike_iff : ListedAlike M q x ↔ (standing M q x = some true ↔
    standing (rekey compactOf M) (compactOf q) x = some true) := by
  rw [standing_eq_true, standing, lookup_rekey, ListedAlike]
  simp

theorem Undisputed.listedAlike (h : Undisputed M q x) : ListedAlike M q x :=
  listedAlike_iff.mpr (by rw [undisputed_iff.mp h])

/-- The binder of the legacy era over a mapping does not raise. -/
theorem legacyBinder_ok (M : Mapping Str (Finset Str)) (source : Str) (repr : Json → Str)
    (p : Option Str) (claim : IdentityClaim) :
    ∃ e, (legacyBinder M source p).evidence repr claim = .ok e := by
  cases p with
  | none => exact ⟨_, rfl⟩
  | some q =>
    obtain ⟨e, he, -⟩ := @legacyBinder_evidence M source claim.epochId q claim.participantId repr
    exact ⟨e, he⟩

/-- The binder of the current era over a mapping does not raise. -/
theorem currentBinder_ok (M : Mapping Str (Finset Str)) (p : Option Str) (x : Str) :
    ∃ b, (currentBinder M p).evaluate x = .ok b := by
  apply evaluate_ok
  intro q
  show ∃ verdict, StaticPermittedParticipants.permits ⟨rekey compactOf M⟩ q x = .ok verdict
  unfold StaticPermittedParticipants.permits
  cases AList.lookup q.compact (rekey compactOf M) with
  | none => exact ⟨_, rfl⟩
  | some allowed => exact ⟨_, rfl⟩

/-- One document, one instant, and consumers of both eras in one state, with the binders of one
mapping for one principal. -/
structure Offered (P : Platform) (repr : Json → Str) (M : Mapping Str (Finset Str)) (source : Str)
    (p : Option Str) (L : LegacyHeartbeatConsumer) (c : HeartbeatConsumer) (d : Json) (now : ℤ) :
    Prop where
  state : L.state = c.state
  legacy : L.participantId = c.state.participantId
  current : c.participantId = c.state.participantId
  binder : L.binder = some ((legacyBinder M source p).evidence repr)
  ready : L.session.heartbeatReady = true
  skew : c.maxSkew = DEFAULT_MAX_SKEW
  principal : p ≠ some []
  admits : ∃ a, admitDocument P c.state d now DEFAULT_MAX_SKEW = .ok a

/-- What a legacy consumer asks its binder about a document. -/
def claimMade (repr : Json → Str) (L : LegacyHeartbeatConsumer) (d : Json) : IdentityClaim where
  participantId := L.claimed repr d
  epochId := LegacyHeartbeatConsumer.claimedEpoch repr d

/-- What either binder answers, and what either fetch leaves. -/
theorem Offered.outcomes {L : LegacyHeartbeatConsumer} {c : HeartbeatConsumer}
    (h : Offered P repr M source p L c d now) :
    ∃ a e b, admitDocument P c.state d now DEFAULT_MAX_SKEW = .ok a ∧
      (legacyBinder M source p).evidence repr (claimMade repr L d) = .ok e ∧
      L.evidence (L.claimed repr d) (LegacyHeartbeatConsumer.claimedEpoch repr d) = .ok e ∧
      (currentBinder M p).evaluate c.participantId = .ok b ∧
      (L.refetch P repr (.ok d) now none).2.state =
        (if e.binding = .unbound then c.state else a.state) ∧
      (c.refetch P (some (binderOver (currentBinder M p).policy))
        (.ok { document := d, principal := (currentBinder M p).principal }) now).2.state =
        (if b.binding = .bound then a.state else c.state) := by
  obtain ⟨a, ha⟩ := h.admits
  obtain ⟨e, he⟩ := legacyBinder_ok M source repr p (claimMade repr L d)
  obtain ⟨b, hb⟩ := currentBinder_ok M p c.participantId
  have hevidence : L.evidence (L.claimed repr d)
      (LegacyHeartbeatConsumer.claimedEpoch repr d) = .ok e := by
    rw [LegacyHeartbeatConsumer.evidence, h.binder]
    show Except.mapError FetchError.collaborator
      ((legacyBinder M source p).evidence repr (claimMade repr L d)) = .ok e
    rw [he]
    rfl
  refine ⟨a, e, b, ha, he, hevidence, hb, ?_, ?_⟩
  · rw [← h.state]
    exact legacy_refetch h.ready (by rw [h.state]; exact ha) hevidence
  · exact current_refetch (by rw [h.skew]; exact ha) hb

/-- What the binders answer to a principal about a welcome document. -/
theorem Offered.bindings {L : LegacyHeartbeatConsumer} {c : HeartbeatConsumer}
    {e : IdentityBindingEvidence} {b : ResponseBinding}
    (h : Offered P repr M source (some q) L c d now)
    (hw : Welcome c.state d now DEFAULT_MAX_SKEW)
    (he : (legacyBinder M source (some q)).evidence repr (claimMade repr L d) = .ok e)
    (hb : (currentBinder M (some q)).evaluate c.participantId = .ok b) :
    (e.binding = .unbound ↔ e.binding ≠ .bound) ∧
      (ListedAlike M q c.state.participantId ↔ (e.binding = .bound ↔ b.binding = .bound)) := by
  have hq : q ≠ [] := fun hempty => h.principal (congrArg some hempty)
  have hclaimed : L.claimed repr d = c.state.participantId := by
    obtain ⟨f, hread, hn, -, -⟩ := hw
    rw [claimed_of_reads hread (by rw [h.legacy, hn]), h.legacy]
  obtain ⟨e', he', hverdict⟩ := @legacyBinder_evidence M source
    (LegacyHeartbeatConsumer.claimedEpoch repr d) q c.state.participantId repr
  rw [claimMade, hclaimed] at he
  obtain rfl := Except.ok.inj (he.symm.trans he')
  obtain ⟨b', hb', hverdict'⟩ := currentBinder_evaluate (M := M) (x := c.participantId) hq
  obtain rfl := Except.ok.inj (hb.symm.trans hb')
  rw [h.current] at hverdict'
  have hunbound : e.binding = .unbound ↔ standing M q c.state.participantId ≠ some true := by
    rw [← verdictOf_unbound, ← hverdict]
  have hbound : e.binding = .bound ↔ standing M q c.state.participantId = some true := by
    rw [← verdictOf_bound, ← hverdict]
  have hbound' : b.binding = .bound ↔
      standing (rekey compactOf M) (compactOf q) c.state.participantId = some true := by
    rw [← verdictOf_bound, ← hverdict']
  exact ⟨by rw [hunbound, ne_eq, ne_eq, hbound], by rw [listedAlike_iff, hbound, hbound']⟩

/-- Two choices between different values agree exactly when they are made alike. -/
theorem ite_eq_ite_iff {α : Type*} {x y : α} {p q : Prop} [Decidable p] [Decidable q]
    (h : x ≠ y) : (if p then x else y) = (if q then x else y) ↔ (p ↔ q) := by
  by_cases hq : q
  · rw [if_pos hq, h.ite_eq_left_iff, iff_true_right hq]
  · rw [if_neg hq, h.ite_eq_right_iff, iff_false_right hq]

/-- **When both eras give a document one authority.** The consumers end in one state, and no
response that is not bound moves either, exactly when the document is welcome only to a principal
under both of whose keys the participant is listed, or under neither. -/
theorem authority_agrees_exactly_when {L : LegacyHeartbeatConsumer} {c : HeartbeatConsumer}
    (h : Offered P repr M source p L c d now) :
    let legacy := (L.refetch P repr (.ok d) now none).2.state
    let current := (c.refetch P (some (binderOver (currentBinder M p).policy))
      (.ok { document := d, principal := (currentBinder M p).principal }) now).2.state
    (legacy = current ∧
      (∀ e, L.evidence (L.claimed repr d) (LegacyHeartbeatConsumer.claimedEpoch repr d) = .ok e →
        e.binding ≠ .bound → legacy = c.state) ∧
      (∀ b, (currentBinder M p).evaluate c.participantId = .ok b →
        b.binding ≠ .bound → current = c.state)) ↔
      (Welcome c.state d now DEFAULT_MAX_SKEW →
        ∃ q, p = some q ∧ ListedAlike M q c.state.participantId) := by
  intro legacy current
  obtain ⟨a, e, b, ha, he, hevidence, hb, hl, hc⟩ := h.outcomes
  by_cases hw : Welcome c.state d now DEFAULT_MAX_SKEW
  swap
  · -- nothing moves
    have hsame : a.state = c.state := by
      by_contra hne
      exact hw ((accepted_iff ha).1.mp ((accepted_iff ha).2.mpr hne))
    rw [hsame, ite_self] at hl hc
    exact iff_of_true ⟨hl.trans hc.symm, fun _ _ _ => hl, fun _ _ _ => hc⟩ fun h => absurd h hw
  have hne : a.state ≠ c.state := (accepted_iff ha).2.mp ((accepted_iff ha).1.mpr hw)
  cases p with
  | none =>
    -- unverified: the legacy consumer moves, the current one does not
    obtain rfl := Except.ok.inj he
    obtain rfl := Except.ok.inj hb
    refine iff_of_false ?_ fun h => ?_
    · rintro ⟨hsame, -, -⟩
      exact hne (hl.symm.trans (hsame.trans hc))
    · obtain ⟨q, hq, -⟩ := h hw
      cases hq
  | some q =>
    obtain ⟨hunbound, hlisted⟩ := h.bindings hw he hb
    have hl' : legacy = if e.binding = .bound then a.state else c.state := by
      rw [show legacy = _ from hl]
      by_cases hbound : e.binding = .bound
      · rw [if_pos hbound, if_neg fun hno => hunbound.mp hno hbound]
      · rw [if_neg hbound, if_pos (hunbound.mpr hbound)]
    have hcond : (Welcome c.state d now DEFAULT_MAX_SKEW →
        ∃ q', some q = some q' ∧ ListedAlike M q' c.state.participantId) ↔
        ListedAlike M q c.state.participantId := by
      simp [hw]
    have hagree : legacy = current ↔ (e.binding = .bound ↔ b.binding = .bound) := by
      rw [hl', show current = _ from hc]
      exact ite_eq_ite_iff hne
    rw [hcond, hlisted, ← hagree]
    constructor
    · exact fun h => h.1
    · intro hsame
      refine ⟨hsame, fun e' he' hno => ?_, fun b' hb' hno => ?_⟩
      · obtain rfl := Except.ok.inj (hevidence.symm.trans he')
        rw [hl', if_neg hno]
      · obtain rfl := Except.ok.inj (hb.symm.trans hb')
        exact hc.trans (if_neg hno)

/-- A session on which the heartbeat extension was negotiated. -/
def readyClient : LegacyClientSession where
  clientName := py "client"
  state := .ready
  heartbeat := some { outcome := .accepted, code := .capabilityAccepted,
                      extensionVersion := some EXTENSION_VERSION, detail := [] }
  negotiatedEra := some LEGACY_ERA

/-- The principal `gateway` may publish the participant `node`. -/
def gatewayPolicy : Mapping Str (Finset Str) := AList.singleton (py "gateway") {py "node"}

/-- A legacy consumer of `node`, on a session of the principal `p`. -/
def legacyConsumer (p : Option Str) : LegacyHeartbeatConsumer where
  participantId := py "node"
  session := readyClient
  binder := some ((legacyBinder gatewayPolicy NO_CONTEXT p).evidence fun _ => [])
  state := { participantId := py "node" }

/-- A consumer of `node` in the current era. -/
def currentConsumer : HeartbeatConsumer := .init (py "node") DEFAULT_MAX_SKEW (1 / 2) 60

/-- A lease of thirty seconds. -/
def lease : Json := beat (.int 0) "2026-01-01T00:00:00Z" "2026-01-01T00:00:30Z" []

theorem offered_lease {p : Option Str} (hp : p ≠ some []) :
    Offered plainPlatform (fun _ => []) gatewayPolicy NO_CONTEXT p (legacyConsumer p)
      currentConsumer lease newYear where
  state := rfl
  legacy := rfl
  current := rfl
  binder := rfl
  ready := by
    show readyClient.heartbeatReady = true
    decide
  skew := rfl
  principal := hp
  admits := by
    have hok : (admitDocument plainPlatform { participantId := py "node" } lease newYear
        DEFAULT_MAX_SKEW).toOption.isSome = true := by decide +kernel
    cases ha : admitDocument plainPlatform { participantId := py "node" } lease newYear
        DEFAULT_MAX_SKEW with
    | error e => rw [ha] at hok; cases hok
    | ok a => exact ⟨a, ha⟩

theorem authority_agrees_exactly_when_gateway :
    let legacy := ((legacyConsumer (some (py "gateway"))).refetch plainPlatform (fun _ => [])
      (.ok lease) newYear none).2.state
    let binder := currentBinder gatewayPolicy (some (py "gateway"))
    let current := (currentConsumer.refetch plainPlatform (some (binderOver binder.policy))
      (.ok { document := lease, principal := binder.principal }) newYear).2.state
    (legacy = current ∧
      (∀ e, (legacyConsumer (some (py "gateway"))).evidence
          ((legacyConsumer (some (py "gateway"))).claimed (fun _ => []) lease)
          (LegacyHeartbeatConsumer.claimedEpoch (fun _ => []) lease) = .ok e →
        e.binding ≠ .bound → legacy = currentConsumer.state) ∧
      (∀ b, binder.evaluate currentConsumer.participantId = .ok b →
        b.binding ≠ .bound → current = currentConsumer.state)) ↔
      (Welcome currentConsumer.state lease newYear DEFAULT_MAX_SKEW →
        ∃ q, some (py "gateway") = some q ∧
          ListedAlike gatewayPolicy q currentConsumer.state.participantId) :=
  authority_agrees_exactly_when (offered_lease (by decide))

/-- **The eras do not always agree**: nobody authenticated, and the legacy consumer holds the
lease. -/
theorem authority_disagrees : ¬ ∀ (P : Platform) (repr : Json → Str) (M : Mapping Str (Finset Str))
    (source : Str) (p : Option Str) (L : LegacyHeartbeatConsumer) (c : HeartbeatConsumer) (d : Json)
    (now : ℤ), Offered P repr M source p L c d now →
      (L.refetch P repr (.ok d) now none).2.state =
        (c.refetch P (some (binderOver (currentBinder M p).policy))
          (.ok { document := d, principal := (currentBinder M p).principal }) now).2.state := by
  intro hall
  have hsame := hall plainPlatform (fun _ => []) gatewayPolicy NO_CONTEXT none (legacyConsumer none)
    currentConsumer lease newYear (offered_lease (by decide))
  have hlegacy : ((legacyConsumer none).refetch plainPlatform (fun _ => []) (.ok lease) newYear
      none).2.state.held.isSome = true := by decide +kernel
  rw [hsame] at hlegacy
  cases hlegacy

end McpHeartbeat
