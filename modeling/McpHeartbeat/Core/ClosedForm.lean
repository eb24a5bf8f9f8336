import McpHeartbeat.Core.History

/-!
# The closed form of admission

Deliveries may be lost, duplicated and reordered, and streams of any epochs interleave.

* `Call.timely?`: the heartbeat of a timely delivery; `timely`, `addressed`;
* `presented`: the run again, with the timely heartbeats as its journal;
* `settled`: its invariant; `admit_conflict`: where a conflict comes from;
* **`closed_form`**: the final state as a function of the timely deliveries.
-/

namespace McpHeartbeat

open Base

/-- The heartbeat of a delivery that is structurally valid, addressed to `p` and fresh. -/
def Call.timely? (p : Str) (c : Call) : Option Heartbeat :=
  (reading c.document).filter fun h =>
    decide (h.nodeId = some p ∧ checkFreshness h c.now c.maxSkew = none)

/-- The heartbeats of the timely deliveries, in order. -/
def timely (p : Str) (calls : List Call) : List Heartbeat := calls.filterMap (Call.timely? p)

/-- The heartbeats of the structurally valid deliveries addressed to `p`, in order. -/
def addressed (p : Str) (calls : List Call) : List Heartbeat :=
  (calls.filterMap fun c => reading c.document).filter fun h => decide (h.nodeId = some p)

variable {P : Platform} {state : LineageState} {c : Call} {h : Heartbeat} {p : Str}

theorem timely?_eq_some : c.timely? p = some h ↔
    Reads c.document h ∧ h.nodeId = some p ∧ checkFreshness h c.now c.maxSkew = none := by
  rw [Call.timely?, Option.filter_eq_some_iff, reading_eq_some, decide_eq_true_eq]

theorem mem_addressed {calls : List Call} : h ∈ addressed p calls ↔
    ∃ c ∈ calls, Reads c.document h ∧ h.nodeId = some p := by
  simp only [addressed, List.mem_filter, List.mem_filterMap, decide_eq_true_eq, reading_eq_some]
  exact ⟨fun ⟨⟨c, hc, hr⟩, hn⟩ => ⟨c, hc, hr, hn⟩, fun ⟨c, hc, hr, hn⟩ => ⟨⟨c, hc, hr⟩, hn⟩⟩

theorem addressed_of_timely {calls : List Call} (hh : h ∈ timely p calls) :
    h ∈ addressed p calls := by
  obtain ⟨c, hc, ht⟩ := List.mem_filterMap.mp hh
  obtain ⟨hr, hn, -⟩ := timely?_eq_some.mp ht
  exact mem_addressed.mpr ⟨c, hc, hr, hn⟩

/-! ## The invariant -/

/-- The run of `lineage`, with the timely heartbeats as its journal. -/
def presented (P : Platform) (p : Str) : Machine LineageState Call Heartbeat where
  next := (lineage P).next
  entry _ c := c.timely? p

theorem next_participantId (P : Platform) (state : LineageState) (c : Call) :
    ((lineage P).next state c).participantId = state.participantId := by
  rcases call_cases P state c with ⟨h, -, -, -, -, hnext, -⟩ | ⟨hnext, -⟩ <;> rw [hnext]
  rfl

/-- A delivery that is not timely moves nothing. -/
theorem next_of_untimely (hp : state.participantId = p) (hc : c.timely? p = none) :
    (lineage P).next state c = state := by
  rcases call_cases P state c with ⟨h, hr, hn, -, hf, -, -⟩ | ⟨hnext, -⟩
  · rw [timely?_eq_some.mpr ⟨hr, hp ▸ hn, hf⟩] at hc
    cases hc
  · exact hnext

/-- Every delivery keeps the closed form. -/
theorem settled_step {past : List Heartbeat} (hp : state.participantId = p)
    (hs : Register.Settled Heartbeat.bootId Rises past state.register) :
    Register.Settled Heartbeat.bootId Rises (past ++ (c.timely? p).toList)
      ((lineage P).next state c).register := by
  cases hc : c.timely? p with
  | none => rwa [next_of_untimely hp hc, Option.toList_none, List.append_nil]
  | some h =>
    obtain ⟨hr, hn, hf⟩ := timely?_eq_some.mp hc
    exact hs.present (admit_presents hr (hp ▸ hn) hf)

/-- The closed form of every run. -/
theorem settled (P : Platform) (p : Str) (calls : List Call) :
    Register.Settled Heartbeat.bootId Rises (timely p calls)
      ((lineage P).run (.start p) calls).register := by
  have hstep : ∀ s past c, s.participantId = p ∧
      Register.Settled Heartbeat.bootId Rises past s.register →
      ((presented P p).next s c).participantId = p ∧ Register.Settled Heartbeat.bootId Rises
        (past ++ (c.timely? p).toList) ((presented P p).next s c).register :=
    fun s past c hi => ⟨(next_participantId P s c).trans hi.1, settled_step hi.1 hi.2⟩
  have hstart : Register.Settled Heartbeat.bootId Rises [] (LineageState.start p).register := by
    rw [LineageState.register_start]
    exact Register.settled_empty
  have hrun := ((presented P p).invariant_run hstep ⟨rfl, hstart⟩ calls).2
  rwa [(presented P p).journal_eq_filterMap fun _ _ => rfl] at hrun

/-! ## The closed form -/

/-- **Closed form of admission.** Let the valid documents of the participant of one epoch and
sequence read alike. Then only the timely deliveries matter: their epochs are retired, the held
heartbeat is a maximal one of the epoch opened last among them (the greatest of those it compares
with: an integer does not compare with a null sequence), and no delivery is answered with a
conflict. -/
theorem closed_form (P : Platform) (p : Str) (calls : List Call)
    (hsame : ∀ g ∈ addressed p calls, ∀ h ∈ addressed p calls,
      g.bootId = h.bootId → g.sequence = h.sequence → g = h) :
    let state := (lineage P).run (.start p) calls
    state = (lineage P).run (.start p) (calls.filter fun c => (c.timely? p).isSome) ∧
    (∀ e, e ∈ state.retiredEpochs ↔ ∃ h ∈ timely p calls, h.bootId = e) ∧
    (state.held = none ↔ timely p calls = []) ∧
    (∀ h, state.held = some h → h ∈ timely p calls ∧
      Register.OpenedLast Heartbeat.bootId (timely p calls) h.bootId ∧
      ∀ g ∈ timely p calls, g.bootId = h.bootId → ¬ Rises h g ∧
        (g.sequence.isSome = h.sequence.isSome → g = h ∨ Rises g h)) ∧
    ∀ pre c post a, calls = pre ++ c :: post →
      c.answer P ((lineage P).run (.start p) pre) = .ok a → a.reason ≠ some .sequenceConflict := by
  intro state
  have hs := settled P p calls
  refine ⟨?_, fun e => ?_, ⟨hs.none, fun hnil => ?_⟩, fun h hh => ⟨hs.mem h hh, hs.last h hh, ?_⟩, ?_⟩
  · have hskip : ∀ s c, s.participantId = p → (c.timely? p).isSome = false →
        (lineage P).next s c = s := fun s c hi hc => next_of_untimely hi (by simpa using hc)
    exact (lineage P).run_filter (fun s c hi => (next_participantId P s c).trans hi) hskip rfl calls
  · have := congrArg (e ∈ ·) hs.retired
    simpa [LineageState.register] using this
  · cases hh : state.held with
    | none => rfl
    | some h =>
      have hm := hs.mem h hh
      rw [hnil] at hm
      cases hm
  · intro g hg hb
    have htop := hs.top h hh g hg hb
    refine ⟨htop, fun hcomp => ?_⟩
    by_cases hsq : g.sequence = h.sequence
    · have hh' := addressed_of_timely (hs.mem h hh)
      exact Or.inl (hsame g (addressed_of_timely hg) h hh' hb hsq)
    · exact Or.inr ((rises_or_rises hcomp hsq).resolve_right htop)
  · rintro pre c post a rfl ha hc
    obtain ⟨g, h, hr, hn, hg, hb, hsq, hd⟩ := admit_conflict ha hc
    have hp : ((lineage P).run (.start p) pre).participantId = p := (history P p pre).participant
    obtain ⟨c', hc', hr', hn'⟩ := mem_addressed.mp
      (addressed_of_timely ((settled P p pre).mem g hg))
    have hh : h ∈ addressed p (pre ++ c :: post) :=
      mem_addressed.mpr ⟨c, List.mem_append_right _ List.mem_cons_self, hr, hp ▸ hn⟩
    have hg' : g ∈ addressed p (pre ++ c :: post) :=
      mem_addressed.mpr ⟨c', List.mem_append_left _ hc', hr', hn'⟩
    exact hd (congrArg (Heartbeat.digest P) (hsame h hh g hg' hb hsq))

/-- Three deliveries of two revisions, one of them twice and the older one last. -/
def shuffled : List Call :=
  [⟨beat (.int 1) "2026-01-01T00:00:01Z" "2026-01-01T00:00:31Z" [], newYear, DEFAULT_MAX_SKEW⟩,
    ⟨beat (.int 1) "2026-01-01T00:00:01Z" "2026-01-01T00:00:31Z" [], newYear, DEFAULT_MAX_SKEW⟩,
    ⟨beat (.int 0) "2026-01-01T00:00:00Z" "2026-01-01T00:00:30Z" [], newYear, DEFAULT_MAX_SKEW⟩]

theorem closed_form_shuffled :
    let state := (lineage plainPlatform).run (.start (py "node")) shuffled
    (timely (py "node") shuffled).length = 3 ∧
      (∀ h, state.held = some h → h ∈ timely (py "node") shuffled ∧
        Register.OpenedLast Heartbeat.bootId (timely (py "node") shuffled) h.bootId ∧
        ∀ g ∈ timely (py "node") shuffled, g.bootId = h.bootId → ¬ Rises h g ∧
          (g.sequence.isSome = h.sequence.isSome → g = h ∨ Rises g h)) :=
  ⟨by decide +kernel, (closed_form plainPlatform (py "node") shuffled (by decide +kernel)).2.2.2.1⟩

end McpHeartbeat
