import McpHeartbeat.Core.Replay

/-!
# The held revision, presented with other content

* `Heartbeat.SameContent`: the same two instants and the same extensions;
* `judge_repeat_cases`: the answers to the held epoch and sequence;
* **`duplicate_exactly_when`**: when a duplicate means the same content and nothing else does;
  `duplicate_of_other_content`: instants within one millisecond are answered as a duplicate.
-/

namespace McpHeartbeat

open Base LineageState

variable {P : Platform} {state : LineageState} {c g h : Heartbeat} {now : ℤ} {maxSkew : Option ℤ}

/-- The same two instants and the same extensions. -/
def Heartbeat.SameContent (c h : Heartbeat) : Prop :=
  c.issuedAt = h.issuedAt ∧ c.expiresAt = h.expiresAt ∧
    (Json.obj c.extensions).Same (.obj h.extensions)

instance : Decidable (c.SameContent h) := by unfold Heartbeat.SameContent; infer_instance

/-- Both instants fall in the same milliseconds. -/
def Heartbeat.SameMillis (c h : Heartbeat) : Prop :=
  c.issuedAt.micros / 1000 = h.issuedAt.micros / 1000 ∧
    c.expiresAt.micros / 1000 = h.expiresAt.micros / 1000

instance : Decidable (c.SameMillis h) := by unfold Heartbeat.SameMillis; infer_instance

theorem Heartbeat.SameContent.sameMillis (hs : c.SameContent h) : c.SameMillis h := by
  rw [SameMillis, hs.1, hs.2.1]
  exact ⟨rfl, rfl⟩

/-- The answers to the epoch and sequence that are held, with an injective hash. -/
theorem judge_repeat_cases (now : ℤ) (maxSkew : Option ℤ) (hsha : Function.Injective P.sha256)
    (hn : c.nodeId = some state.participantId) (hg : state.held = some g)
    (hb : c.bootId = g.bootId) (hs : c.sequence = g.sequence) :
    ((¬ c.Encodable P ∨ ¬ g.Encodable P) ∧
      state.judge P c now maxSkew = .error .unicodeEncodeError) ∨
    (c.Encodable P ∧ g.Encodable P ∧ c.Coincides g ∧
      state.judge P c now maxSkew = .ok { state, duplicate := true }) ∨
    (c.Encodable P ∧ g.Encodable P ∧ ¬ c.Coincides g ∧ c.sequence = none ∧
      state.judge P c now maxSkew = .error .typeError) ∨
    (c.Encodable P ∧ g.Encodable P ∧ ¬ c.Coincides g ∧ c.sequence ≠ none ∧
      state.judge P c now maxSkew = .ok { state, reason := some .sequenceConflict }) := by
  rw [judge_repeat hn hg hb hs]
  by_cases hc : c.Encodable P
  · by_cases he : g.Encodable P
    · obtain ⟨x, -, hx⟩ := digest_of_encodable hc
      obtain ⟨y, -, hy⟩ := digest_of_encodable he
      have hiff := digest_eq_iff hsha hc he
      rw [hx, hy, Except.ok.injEq] at hiff
      rw [hx, hy, ok_bind, ok_bind]
      by_cases hco : c.Coincides g
      · exact Or.inr (Or.inl ⟨hc, he, hco, if_pos (hiff.mpr hco)⟩)
      · rw [if_neg (hiff.not.mpr hco)]
        by_cases hnone : c.sequence = none
        · exact Or.inr (Or.inr (Or.inl ⟨hc, he, hco, hnone, if_pos hnone⟩))
        · exact Or.inr (Or.inr (Or.inr ⟨hc, he, hco, hnone, if_neg hnone⟩))
    · obtain ⟨x, -, hx⟩ := digest_of_encodable hc
      rw [hx, digest_of_not_encodable he]
      exact Or.inl ⟨Or.inr he, rfl⟩
  · rw [digest_of_not_encodable hc]
    exact Or.inl ⟨Or.inl hc, rfl⟩

/-- Documents of one participant, epoch and sequence coincide when their milliseconds and their
extensions do. -/
theorem coincides_iff {d e : Json} (hc : Reads d c) (hg : Reads e g) (hn : c.nodeId = g.nodeId)
    (hb : c.bootId = g.bootId) (hs : c.sequence = g.sequence) :
    c.Coincides g ↔ c.SameMillis g ∧ (Json.obj c.extensions).Same (.obj g.extensions) := by
  obtain ⟨_, -, hc⟩ := reads_iff.mp hc
  obtain ⟨_, -, hg⟩ := reads_iff.mp hg
  constructor
  · intro h
    exact ⟨⟨h.issued, h.expires⟩, h.extensions⟩
  · rintro ⟨⟨hi, he⟩, hext⟩
    exact ⟨hc.current.trans hg.current.symm, hn, hb, hs, hi, he, hext⟩

/-- **When a duplicate means the same content.** In a state that is reached, the held epoch and
sequence is answered as a duplicate with the same content and as a conflict with any other, exactly
when both extensions can be encoded, equal milliseconds and extensions come with equal instants,
and a missing sequence comes with the same content. -/
theorem duplicate_exactly_when (P : Platform) (hsha : Function.Injective P.sha256) (p : Str)
    (calls : List Call) (h : Heartbeat) (hh : ((lineage P).run (.start p) calls).held = some h)
    (d : Json) (c : Heartbeat) (hd : Reads d c) (hn : c.nodeId = h.nodeId)
    (hb : c.bootId = h.bootId) (hs : c.sequence = h.sequence) (now : ℤ) (maxSkew : Option ℤ) :
    let state := (lineage P).run (.start p) calls
    let answer := admitDocument P state d now maxSkew
    ((c.SameContent h → answer = .ok { state, duplicate := true }) ∧
      (¬ c.SameContent h → answer = .ok { state, reason := some .sequenceConflict })) ↔
    ((Json.obj c.extensions).WellFormed ∧ (Json.obj h.extensions).WellFormed ∧
      (c.SameMillis h → (Json.obj c.extensions).Same (.obj h.extensions) →
        c.issuedAt = h.issuedAt ∧ c.expiresAt = h.expiresAt) ∧
      (h.sequence = none → c.SameContent h)) := by
  intro state answer
  obtain ⟨a, ha, rfl⟩ := (history P p calls).exists_held hh
  have hread := (history P p calls).reads a ha
  have hnode : c.nodeId = some state.participantId := by
    rw [hn, (history P p calls).participant]
    exact (history P p calls).addressed a ha
  have hanswer : answer = state.judge P c now maxSkew := admit_of_reads hd
  have hco := coincides_iff hd hread hn hb hs
  have hother : ¬ c.Coincides a.heartbeat → ¬ c.SameContent a.heartbeat :=
    fun hcoin he => hcoin (hco.mpr ⟨he.sameMillis, he.2.2⟩)
  rw [hanswer, ← encodable_iff (P := P) hd, ← encodable_iff (P := P) hread, ← hs]
  rcases judge_repeat_cases now maxSkew hsha hnode hh hb hs with
    ⟨henc, hj⟩ | ⟨hec, heg, hcoin, hj⟩ | ⟨hec, heg, hcoin, hnone, hj⟩ |
      ⟨hec, heg, hcoin, hsome, hj⟩ <;>
    rw [hj]
  · -- a digest is missing
    constructor
    · rintro ⟨h₁, h₂⟩
      by_cases he : c.SameContent a.heartbeat
      · cases h₁ he
      · cases h₂ he
    · rintro ⟨hec, heg, -, -⟩
      exact absurd henc (not_or.mpr ⟨not_not.mpr hec, not_not.mpr heg⟩)
  · -- the same milliseconds and extensions
    obtain ⟨hm, hext⟩ := hco.mp hcoin
    constructor
    · rintro ⟨-, h₂⟩
      have he : c.SameContent a.heartbeat := by
        by_contra hne
        cases h₂ hne
      exact ⟨hec, heg, fun _ _ => ⟨he.1, he.2.1⟩, fun _ => he⟩
    · rintro ⟨-, -, h₃, -⟩
      obtain ⟨hi, hx⟩ := h₃ hm hext
      exact ⟨fun _ => rfl, fun hne => absurd ⟨hi, hx, hext⟩ hne⟩
  · -- another text, and no sequence to compare
    constructor
    · rintro ⟨-, h₂⟩
      cases h₂ (hother hcoin)
    · rintro ⟨-, -, -, h₄⟩
      exact absurd (h₄ hnone) (hother hcoin)
  · -- another text
    constructor
    · intro _
      exact ⟨hec, heg, fun hm hext => absurd (hco.mpr ⟨hm, hext⟩) hcoin, fun h => absurd h hsome⟩
    · intro _
      exact ⟨fun he => absurd he (hother hcoin), fun _ => rfl⟩

/-- The same document again, and its answer. -/
theorem duplicate_exactly_when_redelivered :
    let state := (lineage plainPlatform).run (.start (py "node")) [accepting]
    let answer := admitDocument plainPlatform state accepting.document newYear DEFAULT_MAX_SKEW
    let h := acceptedOnce.heartbeat
    ((h.SameContent h → answer = .ok { state, duplicate := true }) ∧
      (¬ h.SameContent h → answer = .ok { state, reason := some .sequenceConflict })) ↔
    ((Json.obj h.extensions).WellFormed ∧ (Json.obj h.extensions).WellFormed ∧
      (h.SameMillis h → (Json.obj h.extensions).Same (.obj h.extensions) →
        h.issuedAt = h.issuedAt ∧ h.expiresAt = h.expiresAt) ∧
      (h.sequence = none → h.SameContent h)) :=
  duplicate_exactly_when plainPlatform plainPlatform_injective (py "node") [accepting]
    acceptedOnce.heartbeat rfl accepting.document acceptedOnce.heartbeat
    (reading_eq_some.mp (by decide +kernel)) rfl rfl rfl newYear DEFAULT_MAX_SKEW

/-! ## Instants within one millisecond -/

/-- The first revision, accepted. -/
def earlier : Call :=
  ⟨beat (.int 7) "2026-01-01T00:00:00.000100Z" "2026-01-01T00:00:30Z" [], newYear, DEFAULT_MAX_SKEW⟩

/-- The same epoch and sequence, issued a tenth of a millisecond later. -/
def later : Json := beat (.int 7) "2026-01-01T00:00:00.000200Z" "2026-01-01T00:00:30Z" []

/-- What the first is accepted as. -/
def earlierBeat : Heartbeat :=
  { acceptedOnce.heartbeat with
    issuedAt := ⟨newYear.toNat + 100, by decide⟩
    extensions := [] }

/-- What the second reads as. -/
def laterBeat : Heartbeat := { earlierBeat with issuedAt := ⟨newYear.toNat + 200, by decide⟩ }

/-- **A duplicate does not mean the same content.** -/
theorem duplicate_of_other_content : ¬ ∀ (P : Platform), Function.Injective P.sha256 →
    ∀ (p : Str) (calls : List Call) (h : Heartbeat),
      ((lineage P).run (.start p) calls).held = some h →
    ∀ (d : Json) (c : Heartbeat), Reads d c → c.nodeId = h.nodeId → c.bootId = h.bootId →
      c.sequence = h.sequence → ∀ (now : ℤ) (maxSkew : Option ℤ),
      let state := (lineage P).run (.start p) calls
      let answer := admitDocument P state d now maxSkew
      (c.SameContent h → answer = .ok { state, duplicate := true }) ∧
        (¬ c.SameContent h → answer = .ok { state, reason := some .sequenceConflict }) := by
  intro hall
  have hread : Reads later laterBeat := reading_eq_some.mp (by decide +kernel)
  have hanswer := (hall plainPlatform plainPlatform_injective (py "node") [earlier] earlierBeat rfl
    later laterBeat hread rfl rfl rfl newYear DEFAULT_MAX_SKEW).2
  have hcoin : laterBeat.Coincides earlierBeat :=
    ⟨rfl, rfl, rfl, rfl, by decide, by decide, rfl⟩
  have henc : laterBeat.Encodable plainPlatform := by decide +kernel
  rw [admit_of_reads hread, judge_duplicate rfl rfl hcoin henc] at hanswer
  cases hanswer (by decide)

end McpHeartbeat
