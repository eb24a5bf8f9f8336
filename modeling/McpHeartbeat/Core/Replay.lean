import McpHeartbeat.Core.History

/-!
# Replays

A document that was accepted once, presented again at any later point of the run and at any clock.

* `judge_superseded`, `judge_retired`: an older revision, and an epoch that was left;
* **`replay_named`**: the answer says which of the three it is.
-/

namespace McpHeartbeat

open Base LineageState

variable {P : Platform} {state : LineageState} {g h : Heartbeat} {now : ℤ} {maxSkew : Option ℤ}

theorem judge_duplicate (hn : h.nodeId = some state.participantId) (hg : state.held = some g)
    (hc : h.Coincides g) (he : h.Encodable P) :
    state.judge P h now maxSkew = .ok { state, duplicate := true } := by
  obtain ⟨raw, -, hd⟩ := digest_of_encodable he
  rw [judge_repeat hn hg hc.boot hc.seq, ← hc.digest_eq, hd]
  simp

theorem judge_unencodable (hn : h.nodeId = some state.participantId) (hg : state.held = some h)
    (he : ¬ h.Encodable P) : state.judge P h now maxSkew = .error .unicodeEncodeError := by
  rw [judge_repeat hn hg rfl rfl, digest_of_not_encodable he]
  rfl

theorem judge_superseded (hn : h.nodeId = some state.participantId) (hg : state.held = some g)
    (hb : h.bootId = g.bootId) (hr : Rises h g) :
    state.judge P h now maxSkew = .ok { state, reason := some .sequenceRollback } := by
  obtain ⟨a, b, ha, hb', hab⟩ := hr
  have hs : h.sequence ≠ g.sequence := by
    rw [ha, hb', ne_eq, Option.some_inj]
    omega
  rw [judge_order hn hg hb hs, ha, hb', sequenceLt]
  simp [hab]

theorem judge_retired (hn : h.nodeId = some state.participantId)
    (ho : ∀ g, state.held = some g → h.bootId ≠ g.bootId) (hr : h.bootId ∈ state.retiredEpochs) :
    state.judge P h now maxSkew = .ok { state, reason := some .bootIdReuse } := by
  rw [judge_open hn ho, if_pos hr]

/-- **Where an acceptance stands later**: it is held, it is superseded in its epoch, or its epoch was
left. -/
theorem History.placed {p : Str} {before after : List Acceptance} {a : Acceptance}
    (hist : History p state (before ++ a :: after)) :
    (state.held = some a.heartbeat ∧ after = []) ∨
    (∃ g, state.held = some g ∧ a.heartbeat.bootId = g.bootId ∧ Rises a.heartbeat g ∧
      ∀ b ∈ after, b.heartbeat.bootId = a.heartbeat.bootId) ∨
    ((∀ g, state.held = some g → a.heartbeat.bootId ≠ g.bootId) ∧
      a.heartbeat.bootId ∈ state.retiredEpochs ∧
      ∃ b ∈ after, b.heartbeat.bootId ≠ a.heartbeat.bootId) := by
  have hledger := hist.ledger
  have htracks := hist.tracks
  rw [List.map_append, List.map_cons] at hledger htracks
  obtain ⟨g, hg⟩ : ∃ g, state.held = some g := by
    apply Option.ne_none_iff_exists'.mp
    intro hnone
    have hnil := htracks.held_eq_none.mp hnone
    simp at hnil
  rcases hledger.placed (htracks.held.symm.trans hg) with ⟨hnil, rfl⟩ | ⟨-, hb, hr, hall⟩ |
    ⟨hleft, hb⟩
  · exact Or.inl ⟨hg, List.map_eq_nil_iff.mp hnil⟩
  · exact Or.inr (Or.inl ⟨g, hg, hb.symm, hr, fun b hb' => hall _ (List.mem_map_of_mem hb')⟩)
  · refine Or.inr (Or.inr ⟨fun f hf => ?_, ?_, ?_⟩)
    · obtain rfl := Option.some.inj (hg.symm.trans hf)
      exact hb.symm
    · have hret := htracks.retired.symm.subset ⟨a.heartbeat, by simp, rfl⟩
      exact hret
    · obtain ⟨z, hz, hne⟩ := hleft
      obtain ⟨b, hb', rfl⟩ := List.mem_map.mp hz
      exact ⟨b, hb', hne⟩

/-- **A replay is always named as a replay.** Let `a` be any acceptance of a run, its document being
well-formed text. Presented again after the run, at any clock and with any bound, the document is a
duplicate of the held revision, a rollback in the held epoch, or the reuse of an epoch that was
left; one of the three always holds. -/
theorem replay_named (P : Platform) (p : Str) (calls : List Call) (before after : List Acceptance)
    (a : Acceptance) (hj : (lineage P).journal (.start p) calls = before ++ a :: after)
    (hw : a.call.document.WellFormed) (now : ℤ) (maxSkew : Option ℤ) :
    let state := (lineage P).run (.start p) calls
    let answer := admitDocument P state a.call.document now maxSkew
    let isHeld := ∃ g, state.held = some g ∧ g.bootId = a.heartbeat.bootId ∧
      g.sequence = a.heartbeat.sequence
    let isOlder := ∃ g, state.held = some g ∧ g.bootId = a.heartbeat.bootId ∧ Rises a.heartbeat g
    let isLeft := ∃ b ∈ after, b.heartbeat.bootId ≠ a.heartbeat.bootId
    (isHeld → answer = .ok { state, duplicate := true }) ∧
    (isOlder → answer = .ok { state, reason := some .sequenceRollback }) ∧
    (isLeft → answer = .ok { state, reason := some .bootIdReuse }) ∧
    (isHeld ∨ isOlder ∨ isLeft) := by
  intro state answer isHeld isOlder isLeft
  have hist := history P p calls
  rw [hj] at hist
  have ha : a ∈ before ++ a :: after := List.mem_append_right _ List.mem_cons_self
  have hread := hist.reads a ha
  have hn : a.heartbeat.nodeId = some state.participantId := by
    rw [hist.participant]
    exact hist.addressed a ha
  have hanswer : answer = state.judge P a.heartbeat now maxSkew := admit_of_reads hread
  rcases hist.placed with ⟨hg, hnil⟩ | ⟨g, hg, hb, hr, hall⟩ | ⟨hopen, hret, hleft⟩
  · -- nothing was accepted since
    have hdup : answer = .ok { state, duplicate := true } := hanswer.trans
      (judge_duplicate hn hg (Heartbeat.Coincides.refl _) (encodable_of_wellFormed hread hw))
    refine ⟨fun _ => hdup, ?_, ?_, Or.inl ⟨_, hg, rfl, rfl⟩⟩
    · rintro ⟨f, hf, -, hr⟩
      obtain rfl := Option.some.inj (hg.symm.trans hf)
      exact absurd hr (Std.Irrefl.irrefl _)
    · rintro ⟨b, hb, -⟩
      rw [hnil] at hb
      cases hb
  · -- a higher sequence of the same epoch was accepted since
    have hroll : answer = .ok { state, reason := some .sequenceRollback } :=
      hanswer.trans (judge_superseded hn hg hb hr)
    refine ⟨?_, fun _ => hroll, ?_, Or.inr (Or.inl ⟨g, hg, hb.symm, hr⟩)⟩
    · rintro ⟨f, hf, -, hs⟩
      obtain rfl := Option.some.inj (hg.symm.trans hf)
      exact absurd hr (not_rises_of_eq hs)
    · rintro ⟨b, hb', hne⟩
      exact absurd (hall b hb') hne
  · -- the epoch was left since
    have hreuse : answer = .ok { state, reason := some .bootIdReuse } :=
      hanswer.trans (judge_retired hn hopen hret)
    refine ⟨?_, ?_, fun _ => hreuse, Or.inr (Or.inr hleft)⟩
    · rintro ⟨f, hf, he, -⟩
      exact absurd he.symm (hopen f hf)
    · rintro ⟨f, hf, he, -⟩
      exact absurd he.symm (hopen f hf)

/-- One accepted document. -/
def accepting : Call :=
  ⟨beat (.int 7) "2026-01-01T00:00:00Z" "2026-01-01T00:00:30Z" [(py "com.example", .bool true)],
    newYear, DEFAULT_MAX_SKEW⟩

/-- What it is accepted as. -/
def acceptedOnce : Acceptance where
  call := accepting
  heartbeat :=
    { nodeId := some (py "node")
      bootId := some (py "boot")
      sequence := some 7
      issuedAt := newYearMoment
      expiresAt := ⟨newYear.toNat + 30 * second, by decide⟩
      extensionVersion := EXTENSION_VERSION
      extensions := [(py "com.example", .bool true)] }

theorem replay_named_once :
    let state := (lineage plainPlatform).run (.start (py "node")) [accepting]
    admitDocument plainPlatform state accepting.document (newYear + 3600 * second)
      DEFAULT_MAX_SKEW = .ok { state, duplicate := true } :=
  (replay_named plainPlatform (py "node") [accepting] [] [] acceptedOnce rfl (by decide +kernel)
    (newYear + 3600 * second) DEFAULT_MAX_SKEW).1 ⟨acceptedOnce.heartbeat, rfl, rfl, rfl⟩

end McpHeartbeat
