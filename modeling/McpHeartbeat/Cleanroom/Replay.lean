import McpHeartbeat.Cleanroom.Simulation
import McpHeartbeat.Core.Replay

/-!
# Replays at both consumers

The reference checks the lineage before the expiry; the clean room the expiry before the lineage.

* `Admission.verdict`, `SameOutcome`: the names of the outcomes, and when they are one;
* `AcceptedAlike`, `shadows_alike`: runs that both accept alike, and their invariant;
* `Shadows.placed`: where an earlier acceptance stands at both;
* **`same_replay_exactly_when`**: both name a replay alike as long as its lease lasts.
-/

namespace McpHeartbeat

open Base CleanRoom

variable (P : Platform)

/-- The name of an admission: its reason, a duplicate, or `ok`. -/
def Admission.verdict (a : Admission) : Str :=
  match a.reason with
  | some reason => reason.value
  | none => if a.duplicate then py "duplicate" else py "ok"

/-- Both answer, and with one name. -/
def SameOutcome (x : Except Error Admission) (y : Except Error Answer) : Prop :=
  ∃ a r, x = .ok a ∧ y = .ok r ∧ a.verdict = r.text

/-- A document and the clock it meets, with the default bound on the skew. -/
def bounded (e : Json × ℤ) : Call := ⟨e.1, e.2, DEFAULT_MAX_SKEW⟩

/-- At every step both accept, or both do not. -/
def AcceptedAlike (p : Str) (es : List (Json × ℤ)) : Prop :=
  ∀ pre e post, es = pre ++ e :: post →
    let state := (lineage P).run (.start p) (pre.map bounded)
    let c := (receiver P).run { nodeId := p } (pre.map bounded)
    ((∃ a, admitDocument P state e.1 e.2 DEFAULT_MAX_SKEW = .ok a ∧ a.accepted = true) ↔
      (c.admitDocument P e.1 e.2).1 = .ok .ok)

variable {P} {state : LineageState} {c : Consumer} {h : Heartbeat} {p : Str} {now : ℤ}
  {es : List (Json × ℤ)} {before after : List Acceptance} {a : Acceptance}

/-! ## Runs that both accept alike -/

theorem entry_isSome_iff {call : Call} : ((lineage P).entry state call).isSome ↔
    ∃ a, admitDocument P state call.document call.now call.maxSkew = .ok a ∧ a.accepted = true := by
  constructor
  · intro hsome
    cases ha : admitDocument P state call.document call.now call.maxSkew with
    | error e =>
      have hentry : (lineage P).entry state call = call.accepted? (.error e) :=
        congrArg call.accepted? ha
      rw [hentry] at hsome
      cases hsome
    | ok a => exact ⟨a, rfl, (accepted_iff_entry ha).mpr hsome⟩
  · rintro ⟨a, ha, hacc⟩
    exact (accepted_iff_entry ha).mp hacc

/-- **A run that both accept alike keeps the invariant.** -/
theorem shadows_alike (halike : AcceptedAlike P p es) :
    Shadows p ((lineage P).run (.start p) (es.map bounded))
      ((receiver P).run { nodeId := p } (es.map bounded))
      ((lineage P).journal (.start p) (es.map bounded)) := by
  induction es using List.reverseRecOn with
  | nil => exact Shadows.start p
  | append_singleton es e ih =>
    have hpre : AcceptedAlike P p es := fun pre x post hes =>
      halike pre x (post ++ [e]) (by rw [hes, List.append_assoc, List.cons_append])
    have hstep := (ih hpre).step (bounded e)
      (entry_isSome_iff.trans (halike es e [] rfl))
    simpa [Machine.journal_append] using hstep

/-! ## Where an acceptance stands -/

/-- **Where an earlier acceptance stands at both**: it is held, it is superseded in its epoch, or its
epoch was left. -/
theorem Shadows.placed (hf : Shadows p state c (before ++ a :: after)) : ∃ b : Acceptance,
    state.held = some b.heartbeat ∧ c.held = some b.members ∧ b.members.Carries b.heartbeat ∧
      ((after = [] ∧ b = a) ∨
        (after ≠ [] ∧ a.heartbeat.bootId = b.heartbeat.bootId ∧ Rises a.heartbeat b.heartbeat) ∨
        (after ≠ [] ∧ a.heartbeat.bootId ≠ b.heartbeat.bootId ∧
          a.heartbeat.bootId ∈ state.retiredEpochs)) := by
  obtain ⟨hheld, hheld'⟩ := hf.held_eq
  obtain ⟨b, hb⟩ : ∃ b, (before ++ a :: after).getLast? = some b := by
    cases hlast : (before ++ a :: after).getLast? with
    | none => simp at hlast
    | some b => exact ⟨b, rfl⟩
  rw [hb] at hheld hheld'
  have hcar := (Acceptance.carries (hf.history.reads b (List.mem_of_getLast? hb))).2
  refine ⟨b, hheld, hheld', hcar, ?_⟩
  rcases hf.history.placed with ⟨-, rfl⟩ | ⟨g, hg, hboot, hrises, -⟩ | ⟨hopen, hret, d, hd, -⟩
  · exact Or.inl ⟨rfl, by simpa using hb.symm⟩
  · obtain rfl := Option.some.inj (hheld.symm.trans hg)
    refine Or.inr (Or.inl ⟨?_, hboot, hrises⟩)
    rintro rfl
    obtain rfl : a = b := by simpa using hb
    exact not_rises_of_eq rfl hrises
  · exact Or.inr (Or.inr ⟨List.ne_nil_of_mem hd, hopen _ hheld, hret⟩)

/-- The epochs that the clean room has seen are those that the reference retired. -/
theorem Shadows.mem_seenEpochs {past : List Acceptance} (hf : Shadows p state c past)
    (hb : h.bootId ∈ state.retiredEpochs) : Json.ofStr? h.bootId ∈ c.seenEpochs := by
  have hret : h.bootId ∈ state.register.retired := hb
  rw [hf.history.tracks.retired] at hret
  obtain ⟨g, hg, hgb⟩ := hret
  obtain ⟨b, hb', rfl⟩ := List.mem_map.mp hg
  have hcar := (Acceptance.carries (hf.history.reads b hb')).2
  have hseen : bootOf b.members ∈ c.register.retired := by
    rw [hf.tracks.retired]
    exact ⟨b.members, List.mem_map_of_mem hb', rfl⟩
  rwa [hcar.bootOf_eq, hgb] at hseen

/-! ## The two answers -/

/-- **What the reference answers a replay.** -/
theorem Shadows.replay_reference (P : Platform)
    (hf : Shadows p state c (before ++ a :: after)) (now : ℤ) (maxSkew : Option ℤ) :
    admitDocument P state a.call.document now maxSkew =
      if after = [] then
        if a.heartbeat.Encodable P then .ok { state, duplicate := true }
        else .error .unicodeEncodeError
      else if state.held.map Heartbeat.bootId = some a.heartbeat.bootId then
        .ok { state, reason := some .sequenceRollback }
      else .ok { state, reason := some .bootIdReuse } := by
  have ha : a ∈ before ++ a :: after := List.mem_append_right _ List.mem_cons_self
  have hn : a.heartbeat.nodeId = some state.participantId := by
    rw [hf.history.participant]
    exact hf.history.addressed a ha
  rw [admit_of_reads (hf.history.reads a ha)]
  obtain ⟨b, hg, -, -, ⟨hnil, rfl⟩ | ⟨hne, hb, hr⟩ | ⟨hne, hb, hret⟩⟩ := hf.placed
  · rw [if_pos hnil]
    split_ifs with he
    · exact judge_duplicate hn hg (Heartbeat.Coincides.refl _) he
    · exact judge_unencodable hn hg he
  · rw [if_neg hne, hg, Option.map_some, if_pos (congrArg some hb.symm)]
    exact judge_superseded hn hg hb hr
  · rw [if_neg hne, hg, Option.map_some, if_neg fun he => hb (Option.some.inj he).symm]
    exact judge_retired hn (fun g hg' => Option.some.inj (hg.symm.trans hg') ▸ hb) hret

/-- **What the clean room answers a replay.** -/
theorem Shadows.replay_clean (P : Platform) (hf : Shadows p state c (before ++ a :: after))
    (now : ℤ) :
    (c.admitDocument P a.call.document now).1 =
      if a.heartbeat.expiresAt.instant ≤ now then .ok .expiredOnArrival
      else if after = [] then
        if a.heartbeat.sequence = none then .error .typeError else .ok .duplicate
      else if state.held.map Heartbeat.bootId = some a.heartbeat.bootId then .ok .sequenceRollback
      else .ok .bootIdReuse := by
  have ha : a ∈ before ++ a :: after := List.mem_append_right _ List.mem_cons_self
  obtain ⟨hdoc, hc⟩ := Acceptance.carries (hf.history.reads a ha)
  have hn : Members.get a.members (py "node_id") = .str c.nodeId := by
    rw [hf.node, hc.node_iff]
    exact hf.history.addressed a ha
  have hadm : ∀ {r}, c.answer P a.members now = r → r ≠ .ok .ok →
      (c.admitDocument P a.call.document now).1 = r := by
    rintro r rfl hr
    rw [hdoc, Consumer.admit_of_answer hc.valid hr]
  by_cases hlate : a.heartbeat.expiresAt.instant ≤ now
  · rw [if_pos hlate]
    refine hadm (Consumer.answer_late hn ?_) (by simp)
    rw [Bool.eq_false_iff, Ne, hc.isFresh_iff]
    exact not_lt.mpr hlate
  have hfresh : isFresh a.members now = true := hc.isFresh_iff.mpr (not_le.mp hlate)
  rw [if_neg hlate]
  obtain ⟨b, hg, hheld, hcar, ⟨hnil, rfl⟩ | ⟨hne, hb, m, n, hm, hk, hlt⟩ | ⟨hne, hb, hret⟩⟩ :=
    hf.placed
  · -- it is held
    rw [if_pos hnil, ← hc.against_self P]
    refine hadm (Consumer.answer_same hn hfresh hheld rfl) ?_
    rw [hc.against_self P]
    split_ifs <;> simp
  · -- it is superseded
    have hboot : bootOf a.members = bootOf b.members := by
      rw [hc.bootOf_eq, hcar.bootOf_eq, hb]
    rw [if_neg hne, hg, Option.map_some, if_pos (congrArg some hb.symm)]
    refine hadm ((Consumer.answer_same hn hfresh hheld hboot).trans ?_) (by simp)
    exact Consumer.against_of_lt (by rw [hcar.sequence_eq, hk]; rfl)
      (by rw [hc.sequence_eq, hm]; rfl) hlt
  · -- its epoch was left
    have hopen : ∀ g, c.held = some g → bootOf a.members ≠ bootOf g := by
      intro g hg' he
      rw [← Option.some.inj (hheld.symm.trans hg'), hc.bootOf_eq, hcar.bootOf_eq] at he
      exact hb (Json.ofStr?_injective he)
    rw [if_neg hne, hg, Option.map_some, if_neg fun he => hb (Option.some.inj he).symm]
    refine hadm ((Consumer.answer_open hn hfresh hopen).trans ?_) (by simp)
    rw [hc.bootOf_eq, if_pos (hf.mem_seenEpochs hret)]

/-! ## The same name -/

section Names

variable {x : Except Error Admission} {y : Except Error Answer} {e : Error} {r : Answer}

theorem sameOutcome_ok {x : Admission} : SameOutcome (.ok x) (.ok r) ↔ x.verdict = r.text := by
  constructor
  · rintro ⟨a, s, hx, hy, h⟩
    cases hx
    cases hy
    exact h
  · intro h
    exact ⟨x, r, rfl, rfl, h⟩

theorem sameOutcome_duplicate :
    SameOutcome (.ok { state, duplicate := true }) (.ok r) ↔ py "duplicate" = r.text :=
  sameOutcome_ok

theorem sameOutcome_refused {reason : ViolationCode} :
    SameOutcome (.ok { state, reason := some reason }) (.ok r) ↔ reason.value = r.text :=
  sameOutcome_ok

theorem not_sameOutcome_error : ¬ SameOutcome x (.error e) := by
  rintro ⟨a, r, -, hy, -⟩
  cases hy

theorem not_sameOutcome_raised : ¬ SameOutcome (.error e) y := by
  rintro ⟨a, r, hx, -, -⟩
  cases hx

end Names

/-- **When both consumers name a replay alike.** Let `a` be any acceptance of a run that both accept
alike. Presented again after the run, its document has one name at both exactly while its lease lasts;
if nothing was accepted since, its extensions must be well-formed text and its sequence a number. -/
theorem same_replay_exactly_when (P : Platform) (p : Str) (es : List (Json × ℤ))
    (halike : AcceptedAlike P p es) (before after : List Acceptance) (a : Acceptance)
    (hj : (lineage P).journal (.start p) (es.map bounded) = before ++ a :: after) (now : ℤ) :
    let state := (lineage P).run (.start p) (es.map bounded)
    let c := (receiver P).run { nodeId := p } (es.map bounded)
    SameOutcome (admitDocument P state a.call.document now DEFAULT_MAX_SKEW)
      (c.admitDocument P a.call.document now).1 ↔
    now < a.heartbeat.expiresAt.instant ∧
      (after = [] →
        (Json.obj a.heartbeat.extensions).WellFormed ∧ a.heartbeat.sequence ≠ none) := by
  intro state c
  have hf := shadows_alike halike
  rw [hj] at hf
  have ha : a ∈ before ++ a :: after := List.mem_append_right _ List.mem_cons_self
  rw [hf.replay_reference P, hf.replay_clean P, ← encodable_iff (P := P) (hf.history.reads a ha),
    ← not_le]
  rcases le_or_gt a.heartbeat.expiresAt.instant now with hlate | hlive
  · -- the clean room has stopped at the expiry
    rw [if_pos hlate]
    refine iff_of_false ?_ fun h => h.1 hlate
    split_ifs
    · rw [sameOutcome_duplicate]
      decide
    · exact not_sameOutcome_raised
    · rw [sameOutcome_refused]
      decide
    · rw [sameOutcome_refused]
      decide
  · rw [if_neg (not_le.mpr hlive), and_iff_right (not_le.mpr hlive)]
    by_cases hnil : after = []
    · rw [if_pos hnil, if_pos hnil]
      by_cases he : a.heartbeat.Encodable P
      · by_cases hs : a.heartbeat.sequence = none
        · rw [if_pos hs]
          exact iff_of_false not_sameOutcome_error fun h => (h hnil).2 hs
        · rw [if_pos he, if_neg hs]
          exact iff_of_true (sameOutcome_duplicate.mpr rfl) fun _ => ⟨he, hs⟩
      · rw [if_neg he]
        exact iff_of_false not_sameOutcome_raised fun h => he (h hnil).1
    · rw [if_neg hnil, if_neg hnil]
      refine iff_of_true ?_ fun h => absurd h hnil
      split_ifs
      · exact sameOutcome_refused.mpr rfl
      · exact sameOutcome_refused.mpr rfl

/-- Both accept one document. -/
theorem acceptedAlike_once :
    AcceptedAlike plainPlatform (py "node") [(accepting.document, accepting.now)] := by
  intro pre e post hes
  cases pre with
  | nil =>
    obtain ⟨rfl, rfl⟩ := List.cons.inj hes
    exact entry_isSome_iff.symm.trans (by decide +kernel)
  | cons x pre => simp at hes

theorem same_replay_exactly_when_once :
    let es := [(accepting.document, accepting.now)]
    let state := (lineage plainPlatform).run (.start (py "node")) (es.map bounded)
    let c := (receiver plainPlatform).run { nodeId := py "node" } (es.map bounded)
    SameOutcome
      (admitDocument plainPlatform state acceptedOnce.call.document (newYear + second)
        DEFAULT_MAX_SKEW)
      (c.admitDocument plainPlatform acceptedOnce.call.document (newYear + second)).1 ↔
    newYear + second < acceptedOnce.heartbeat.expiresAt.instant ∧
      (([] : List Acceptance) = [] →
        (Json.obj acceptedOnce.heartbeat.extensions).WellFormed ∧
          acceptedOnce.heartbeat.sequence ≠ none) :=
  same_replay_exactly_when plainPlatform (py "node") [(accepting.document, accepting.now)]
    acceptedAlike_once [] [] acceptedOnce rfl (newYear + second)

/-- **The names part** once the lease is over: a duplicate to the reference, expired to the clean
room. -/
theorem replay_names_part : ¬ ∀ (P : Platform) (p : Str) (es : List (Json × ℤ)),
    (∀ e ∈ es, validateDocument e.1 = .ok [] ∧ CleanRoom.validate e.1 = []) →
    AcceptedAlike P p es → ∀ (before after : List Acceptance) (a : Acceptance),
      (lineage P).journal (.start p) (es.map bounded) = before ++ a :: after →
      ∀ now, a.call.now ≤ now →
        let state := (lineage P).run (.start p) (es.map bounded)
        let c := (receiver P).run { nodeId := p } (es.map bounded)
        SameOutcome (admitDocument P state a.call.document now DEFAULT_MAX_SKEW)
          (c.admitDocument P a.call.document now).1 := by
  intro hall
  have hsame := hall plainPlatform (py "node") [(accepting.document, accepting.now)]
    (by decide +kernel) acceptedAlike_once [] [] acceptedOnce rfl (newYear + 60 * second)
    (by decide +kernel)
  have hf := shadows_alike acceptedAlike_once
  have hpast : Shadows (py "node") _ _ ([] ++ acceptedOnce :: []) := hf
  have hreference := hpast.replay_reference plainPlatform (newYear + 60 * second)
    DEFAULT_MAX_SKEW
  have hclean := hpast.replay_clean plainPlatform (newYear + 60 * second)
  have hlate : acceptedOnce.heartbeat.expiresAt.instant ≤ newYear + 60 * second := by
    decide +kernel
  have he : acceptedOnce.heartbeat.Encodable plainPlatform := by decide +kernel
  rw [if_pos rfl, if_pos he] at hreference
  rw [if_pos hlate] at hclean
  simp only [hreference, hclean, sameOutcome_duplicate] at hsame
  exact absurd hsame (by decide)

end McpHeartbeat
