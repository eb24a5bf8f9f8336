import McpHeartbeat.Base.Machine
import McpHeartbeat.Core.Digest
import McpHeartbeat.Core.Judgement

/-!
# Runs of admission

A caller threads the state through any calls, with any documents, clocks and bounds; a call that
raises leaves the state as it was.

* `Call`, `Acceptance`, `lineage`: the machine whose journal is the accepted documents;
* `History`: the invariant; `History.step`, **`history`**: every call keeps it, so every run has it;
* **`accepted_documents_unrepeated`**: epochs are blocks, sequences rise, no pair returns;
* **`held_bounded`**: how long the held heartbeat can be fresh.
-/

namespace McpHeartbeat

open Base

/-- One call of `admitDocument`, apart from the state. -/
structure Call where
  document : Json
  now : ℤ
  maxSkew : Option ℤ

/-- A call that was accepted, and the heartbeat it was accepted as. -/
structure Acceptance where
  call : Call
  heartbeat : Heartbeat

variable (P : Platform)

/-- What the call answers. -/
def Call.answer (c : Call) (state : LineageState) : Except Error Admission :=
  admitDocument P state c.document c.now c.maxSkew

/-- The acceptance an answer stands for, if any. -/
def Call.accepted? (c : Call) : Except Error Admission → Option Acceptance
  | .ok a => if a.accepted then a.state.held.map fun h => ⟨c, h⟩ else none
  | .error _ => none

/-- The run of a caller that threads the state. -/
def lineage : Machine LineageState Call Acceptance where
  next state c := state.after (c.answer P state)
  entry state c := c.accepted? (c.answer P state)

/-- The documents accepted on a run from the empty state, oldest first. -/
def acceptedDocuments (p : Str) (calls : List Call) : List Json :=
  ((lineage P).journal (.start p) calls).map fun a => a.call.document

variable {P} {state : LineageState} {c : Call} {d : Json} {h : Heartbeat}

theorem Reads.member_boot (hr : Reads d h) : d.member (py "boot_id") = Json.ofStr? h.bootId := by
  obtain ⟨m, rfl, hc⟩ := reads_iff.mp hr
  rw [Json.member, Members.get, hc.boot]
  rfl

theorem Reads.member_sequence (hr : Reads d h) :
    d.member (py "sequence") = Json.ofInt? h.sequence := by
  obtain ⟨m, rfl, hc⟩ := reads_iff.mp hr
  rw [Json.member, Members.get, hc.seq]
  rfl

/-- The two effects of a call. -/
theorem call_cases (P : Platform) (state : LineageState) (c : Call) :
    (∃ h, Reads c.document h ∧ h.nodeId = some state.participantId ∧ state.Admits h ∧
      checkFreshness h c.now c.maxSkew = none ∧ (lineage P).next state c = state.hold h ∧
      (lineage P).entry state c = some ⟨c, h⟩) ∨
      ((lineage P).next state c = state ∧ (lineage P).entry state c = none) := by
  simp only [lineage]
  cases ha : c.answer P state with
  | error e => exact Or.inr ⟨rfl, rfl⟩
  | ok a =>
    rcases admit_ok ha with ⟨h, hr, rfl, hn, hadm, hf⟩ | ⟨hacc, hs⟩
    · exact Or.inl ⟨h, hr, hn, hadm, hf, rfl, rfl⟩
    · exact Or.inr ⟨hs, by simp [Call.accepted?, hacc]⟩

/-! ## The invariant -/

/-- What a state remembers of the acceptances behind it. -/
structure History (p : Str) (state : LineageState) (past : List Acceptance) : Prop where
  participant : state.participantId = p
  ledger : Ledger Heartbeat.bootId Rises (past.map Acceptance.heartbeat)
  tracks : state.register.Tracks Heartbeat.bootId (past.map Acceptance.heartbeat)
  reads : ∀ a ∈ past, Reads a.call.document a.heartbeat
  addressed : ∀ a ∈ past, a.heartbeat.nodeId = some p
  timely : ∀ a ∈ past, checkFreshness a.heartbeat a.call.now a.call.maxSkew = none

theorem History.start (p : Str) : History p (.start p) [] where
  participant := rfl
  ledger := Ledger.nil
  tracks := by
    rw [LineageState.register_start]
    exact Register.tracks_empty _
  reads := by simp
  addressed := by simp
  timely := by simp

/-- Every call keeps the invariant. -/
theorem History.step {p : Str} {past : List Acceptance} (h : History p state past) :
    History p ((lineage P).next state c) (past ++ ((lineage P).entry state c).toList) := by
  rcases call_cases P state c with ⟨g, hr, hn, hadm, hf, hnext, hentry⟩ | ⟨hnext, hentry⟩
  · rw [hnext, hentry, Option.toList_some]
    have hmap : (past ++ [(⟨c, g⟩ : Acceptance)]).map Acceptance.heartbeat =
        past.map Acceptance.heartbeat ++ [g] := by simp
    exact {
      participant := h.participant
      ledger := by
        rw [hmap]
        exact h.ledger.concat h.tracks hadm
      tracks := by
        rw [hmap, LineageState.register_hold]
        exact h.tracks.accept
      reads := List.forall_mem_append.mpr ⟨h.reads, by simpa using hr⟩
      addressed := List.forall_mem_append.mpr ⟨h.addressed, by simpa [h.participant] using hn⟩
      timely := List.forall_mem_append.mpr ⟨h.timely, by simpa using hf⟩ }
  · rw [hnext, hentry, Option.toList_none, List.append_nil]
    exact h

/-- **Every run has the invariant.** -/
theorem history (P : Platform) (p : Str) (calls : List Call) :
    History p ((lineage P).run (.start p) calls) ((lineage P).journal (.start p) calls) :=
  (lineage P).invariant_run (fun _ _ _ h => h.step) (History.start p) calls

/-- The held heartbeat was accepted. -/
theorem History.exists_held {p : Str} {past : List Acceptance} (hist : History p state past)
    (hh : state.held = some h) : ∃ a ∈ past, a.heartbeat = h := by
  have hlast : (past.map Acceptance.heartbeat).getLast? = some h := hist.tracks.held.symm.trans hh
  rw [List.getLast?_map] at hlast
  obtain ⟨a, ha, rfl⟩ := Option.map_eq_some_iff.mp hlast
  exact ⟨a, List.mem_of_getLast? ha, rfl⟩

/-! ## No replay -/

/-- **Accepted documents never repeat**: each epoch is one block, sequences are integers that rise
inside a block, and no pair of the two is accepted twice. -/
theorem accepted_documents_unrepeated (P : Platform) (p : Str) (calls : List Call) :
    (acceptedDocuments P p calls).Triplewise (fun x y z =>
      x.member (py "boot_id") ≠ y.member (py "boot_id") →
        z.member (py "boot_id") ≠ x.member (py "boot_id")) ∧
    (acceptedDocuments P p calls).Pairwise (fun x y =>
      x.member (py "boot_id") = y.member (py "boot_id") →
        ∃ a b : ℤ, x.member (py "sequence") = .int a ∧ y.member (py "sequence") = .int b ∧ a < b) ∧
    ((acceptedDocuments P p calls).map fun d =>
      (d.member (py "boot_id"), d.member (py "sequence"))).Nodup := by
  have hist := history P p calls
  have hboot : ∀ a ∈ (lineage P).journal (.start p) calls,
      a.call.document.member (py "boot_id") = Json.ofStr? a.heartbeat.bootId := fun a ha =>
    (hist.reads a ha).member_boot
  have hseq : ∀ a ∈ (lineage P).journal (.start p) calls,
      a.call.document.member (py "sequence") = Json.ofInt? a.heartbeat.sequence := fun a ha =>
    (hist.reads a ha).member_sequence
  have hrising : (acceptedDocuments P p calls).Pairwise fun x y =>
      x.member (py "boot_id") = y.member (py "boot_id") →
        ∃ a b : ℤ, x.member (py "sequence") = .int a ∧ y.member (py "sequence") = .int b ∧ a < b := by
    refine List.pairwise_map.mpr ((List.pairwise_map.mp hist.ledger.rising).imp_of_mem ?_)
    intro x y hx hy hxy he
    rw [hboot x hx, hboot y hy] at he
    obtain ⟨a, b, ha, hb, hab⟩ := hxy (Json.ofStr?_injective he)
    exact ⟨a, b, by rw [hseq x hx, ha]; rfl, by rw [hseq y hy, hb]; rfl, hab⟩
  refine ⟨?_, hrising, ?_⟩
  · have hmap : (acceptedDocuments P p calls).map (fun d => d.member (py "boot_id")) =
        (((lineage P).journal (.start p) calls).map Acceptance.heartbeat).map
          fun h => Json.ofStr? h.bootId := by
      simp only [acceptedDocuments, List.map_map]
      exact List.map_congr_left hboot
    have hblocks : ((acceptedDocuments P p calls).map fun d => d.member (py "boot_id")).Triplewise
        fun x y z => x ≠ y → z ≠ x := by
      rw [hmap]
      exact hist.ledger.blocks.map fun h hxy he =>
        h (fun hb => hxy (congrArg Json.ofStr? hb)) (Json.ofStr?_injective he)
    exact List.triplewise_map.mp hblocks
  · refine List.pairwise_map.mpr (hrising.imp fun {x y} hxy he => ?_)
    obtain ⟨hb, hs⟩ := Prod.mk.inj he
    obtain ⟨a, b, ha, hb, hab⟩ := hxy hb
    rw [ha, hb, Json.int.injEq] at hs
    omega

/-! ## Bounded presence -/

theorem entry_call {a : Acceptance} (ha : (lineage P).entry state c = some a) : a.call = c := by
  rcases call_cases P state c with ⟨h, -, -, -, -, -, hentry⟩ | ⟨-, hentry⟩
  · obtain rfl := Option.some.inj (hentry.symm.trans ha)
    rfl
  · cases hentry.symm.trans ha

/-- Every acceptance is of one of the calls. -/
theorem call_mem_of_journal {calls : List Call} {a : Acceptance}
    (ha : a ∈ (lineage P).journal state calls) : a.call ∈ calls := by
  obtain ⟨pre, c, post, rfl, hentry⟩ := (lineage P).mem_journal ha
  rw [entry_call hentry]
  exact List.mem_append_right pre List.mem_cons_self

/-- A fresh heartbeat is within its window of an instant near its issue. -/
theorem lt_of_fresh {t t₀ bound : ℤ} (ht : h.isFresh t = true)
    (hw : h.expiresAt.instant - h.issuedAt.instant ≤ MAX_LEASE)
    (hs : (h.issuedAt.instant - t₀).natAbs ≤ bound) : t < t₀ + bound + MAX_LEASE := by
  have hlt : t < h.expiresAt.instant := by simpa [Heartbeat.isFresh, Heartbeat.remaining] using ht
  omega

/-- **Bounded presence.** On a run with one bound, the retired epochs are those of the accepted
documents, and the held heartbeat is the last one accepted: its window is that of the contract, it
was near the instant of its acceptance, and the bound and an hour after that it is not fresh. -/
theorem held_bounded (P : Platform) (p : Str) (maxSkew : Option ℤ) (calls : List (Json × ℤ)) :
    let run := calls.map fun c => (⟨c.1, c.2, maxSkew⟩ : Call)
    let state := (lineage P).run (.start p) run
    let accepted := (lineage P).journal (.start p) run
    (state.held = none ↔ state.retiredEpochs = ∅) ∧
    (∀ e, e ∈ state.retiredEpochs ↔
      ∃ d ∈ acceptedDocuments P p run, d.member (py "boot_id") = Json.ofStr? e) ∧
    ∀ h, state.held = some h →
      h.nodeId = some p ∧ h.bootId ∈ state.retiredEpochs ∧
      0 < h.expiresAt.instant - h.issuedAt.instant ∧
      h.expiresAt.instant - h.issuedAt.instant ≤ 3600 * second ∧
      ∃ a, accepted.getLast? = some a ∧ a.heartbeat = h ∧
        (∀ bound ∈ maxSkew, (h.issuedAt.instant - a.call.now).natAbs ≤ bound) ∧
        a.call.now < h.expiresAt.instant ∧
        ∀ t, h.isFresh t = true → ∀ bound ∈ maxSkew, t < a.call.now + bound + 3600 * second := by
  intro run state accepted
  have hist : History p state accepted := history P p run
  have hheld : state.held = accepted.getLast?.map Acceptance.heartbeat := by
    rw [← List.getLast?_map]
    exact hist.tracks.held
  have hretired : ∀ e, e ∈ state.retiredEpochs ↔ ∃ a ∈ accepted, a.heartbeat.bootId = e := fun e => by
    have := congrArg (e ∈ ·) hist.tracks.retired
    simpa [LineageState.register] using this
  refine ⟨?_, fun e => ?_, fun h hh => ?_⟩
  · have hempty : state.register.retired = ∅ ↔ state.retiredEpochs = ∅ := by
      simp [LineageState.register, Set.eq_empty_iff_forall_notMem,
        Finset.eq_empty_iff_forall_notMem]
    rw [← hempty, hist.tracks.retired_eq_empty]
    exact hist.tracks.held_eq_none
  · simp only [hretired, acceptedDocuments, List.mem_map, exists_exists_and_eq_and]
    refine exists_congr fun a => and_congr_right fun ha => ?_
    rw [(hist.reads a ha).member_boot, Json.ofStr?_injective.eq_iff]
  · rw [hheld] at hh
    obtain ⟨a, hlast, rfl⟩ := Option.map_eq_some_iff.mp hh
    have ha : a ∈ accepted := List.mem_of_getLast? hlast
    obtain ⟨m, -, hc⟩ := reads_iff.mp (hist.reads a ha)
    have hskew : a.call.maxSkew = maxSkew := by
      obtain ⟨x, -, hx⟩ := List.mem_map.mp (call_mem_of_journal ha)
      rw [← hx]
    obtain ⟨hs, hlt⟩ := checkFreshness_eq_none.mp (hist.timely a ha)
    rw [hskew] at hs
    exact ⟨hist.addressed a ha, (hretired _).mpr ⟨a, ha, rfl⟩, hc.window.1, hc.window.2, a, hlast, rfl,
      hs, hlt, fun t ht bound hb => lt_of_fresh ht hc.window.2 (hs bound hb)⟩

end McpHeartbeat
