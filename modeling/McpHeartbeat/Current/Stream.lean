import McpHeartbeat.Current.Subscriptions

/-!
# Runs of a subscription stream

* `OnlyRequested`, `Narrow`: what a stream should carry, and the acknowledgements that do not widen
  what was asked for; **`requested_only_exactly_when`**;
* `Atomic`, `Unsound`: a frame that is returned, or refused without a trace, and the frames that
  are neither; `atomic_iff`;
* `StreamHistory`: what the frames accepted say of a stream; **`atomic_exactly_when`**;
* `widened`, `half_acknowledged`: neither holds of every run.
-/

namespace McpHeartbeat

open Base SubscriptionStream

variable {repr : Json → Str} {f honoured : SubscriptionFilter} {s : SubscriptionStream}
  {frame : Members} {past : List Members} {m : Str}

/-- A stream on which nothing has arrived. -/
def fresh (f : SubscriptionFilter) : SubscriptionStream := { subscriptionFilter := f }

/-! ## Requested types -/

/-- Every frame received has a method that was asked for. -/
def OnlyRequested (f : SubscriptionFilter) (s : SubscriptionStream) : Prop :=
  ∀ frame ∈ s.received, ∃ m ∈ f.honouredMethods, methodOf frame = .str m

/-- An acknowledgement claims no more than was asked for. -/
def Narrow (f : SubscriptionFilter) (s : SubscriptionStream) (frame : Members) : Prop :=
  s.Acknowledges frame → ∀ honoured, s.claimedFilter frame = some honoured →
    honoured.honouredMethods ⊆ f.honouredMethods

/-- The invariant of a run whose acknowledgements are narrow. -/
structure Within (f : SubscriptionFilter) (s : SubscriptionStream) : Prop where
  inForce : s.inForce.honouredMethods ⊆ f.honouredMethods
  received : OnlyRequested f s

theorem Within.next (h : Within f s) (hn : Narrow f s frame) :
    Within f (s.accept repr frame).2 := by
  have hr := accept_cases repr s frame
  generalize s.accept repr frame = answer at hr
  cases hr with
  | acknowledged honoured ack claimed => exact ⟨hn ack honoured claimed, h.received⟩
  | halfway _ _ => exact ⟨h.inForce, h.received⟩
  | received m receives =>
    refine ⟨h.inForce, ?_⟩
    intro g hg
    rcases List.mem_append.mp hg with hg | hg
    · exact h.received g hg
    · obtain rfl := List.mem_singleton.mp hg
      exact ⟨m, h.inForce receives.honoured, receives.method⟩
  | unhashable _ _ => exact h
  | refused _ _ _ _ => exact h

theorem within_run (f : SubscriptionFilter) (frames : List Members)
    (hn : (stream repr).Along (Narrow f) (fresh f) frames) :
    Within f ((stream repr).run (fresh f) frames) := by
  have hstep : ∀ s (_ : List Members) frame, Narrow f s frame → Within f s →
      Within f ((stream repr).next s frame) := fun s _ frame hnarrow h => h.next hnarrow
  have hfresh : Within f (fresh f) := ⟨fun _ hm => hm, by simp [OnlyRequested, fresh]⟩
  exact (stream repr).invariant_along hstep frames (fresh f) [] hn hfresh

/-- An acknowledgement whose filter can be read. -/
theorem accept_acknowledgement (ack : s.Acknowledges frame)
    (claimed : s.claimedFilter frame = some honoured) :
    s.accept repr frame = (.ok frame,
      { s with acknowledged := true, subscriptionId := subscriptionIdOf frame,
               honoured := some honoured }) := by
  have hr := accept_cases repr s frame
  generalize s.accept repr frame = answer at hr
  cases hr with
  | acknowledged honoured' _ claimed' => rw [Option.some.inj (claimed.symm.trans claimed')]
  | halfway _ claimed' => cases claimed.symm.trans claimed'
  | received _ receives => cases ack.waiting.symm.trans receives.acknowledged
  | unhashable acknowledged _ => cases ack.waiting.symm.trans acknowledged
  | refused _ hno _ _ => exact absurd ack hno

/-- A notification that the filter in force legitimises. -/
theorem accept_notification (receives : s.Receives frame m) :
    s.accept repr frame = (.ok frame, { s with received := s.received ++ [frame] }) := by
  have hr := accept_cases repr s frame
  generalize s.accept repr frame = answer at hr
  cases hr with
  | acknowledged _ ack _ | halfway ack _ => cases ack.waiting.symm.trans receives.acknowledged
  | received _ _ => rfl
  | unhashable _ method =>
    rw [receives.method] at method
    cases method
  | refused _ _ stale _ => exact absurd receives (stale m)

/-- A notification of one method. -/
def notification (m : Str) : Members := [(py "method", .str m)]

theorem methodOf_notification (m : Str) : methodOf (notification m) = .str m := by
  simp [methodOf, notification, Members.get, Members.item]

/-- **What the acknowledgement claims is received**, if it comes. -/
theorem received_of_claimed (repr : Json → Str) (ack : s.Acknowledges frame)
    (claimed : s.claimedFilter frame = some honoured) (hm : m ∈ honoured.honouredMethods) :
    notification m ∈ ((stream repr).run s [frame, notification m]).received := by
  show notification m ∈ (((s.accept repr frame).2).accept repr (notification m)).2.received
  have hreceives : Receives { s with acknowledged := true,
                                     subscriptionId := subscriptionIdOf frame,
                                     honoured := some honoured } (notification m) m :=
    ⟨rfl, methodOf_notification m, hm⟩
  rw [accept_acknowledgement ack claimed, accept_notification hreceives]
  exact List.mem_append_right _ (List.mem_singleton_self _)

/-- **When a stream carries only requested types.** In every run whose acknowledgements are narrow;
and after one that is not, there is a notification with which the stream does not. -/
theorem requested_only_exactly_when (repr : Json → Str) (f : SubscriptionFilter)
    (frames : List Members) :
    ((stream repr).Along (Narrow f) (fresh f) frames →
      OnlyRequested f ((stream repr).run (fresh f) frames)) ∧
    ∀ frame, ¬ Narrow f ((stream repr).run (fresh f) frames) frame →
      ∃ later, ¬ OnlyRequested f ((stream repr).run (fresh f) (frames ++ [frame, later])) := by
  refine ⟨fun hn => (within_run f frames hn).received, fun frame hwide => ?_⟩
  unfold Narrow at hwide
  push Not at hwide
  obtain ⟨ack, honoured, claimed, hwide⟩ := hwide
  obtain ⟨m, hm, hno⟩ := Set.not_subset.mp hwide
  refine ⟨notification m, fun honly => ?_⟩
  rw [(stream repr).run_append] at honly
  obtain ⟨m', hm', hmethod⟩ := honly _ (received_of_claimed repr ack claimed hm)
  rw [methodOf_notification] at hmethod
  obtain rfl := Json.str.inj hmethod
  exact hno hm'

/-- An acknowledgement that a server builds. -/
theorem acknowledges_build (f honoured : SubscriptionFilter) {id : Json} (hid : id ≠ .null) :
    (fresh f).Acknowledges (buildAcknowledgement id honoured) where
  waiting := rfl
  method := rfl
  id := hid

theorem claimedFilter_build (s : SubscriptionStream) (id : Json) (honoured : SubscriptionFilter) :
    s.claimedFilter (buildAcknowledgement id honoured) = some honoured :=
  SubscriptionFilter.fromDict_toDict honoured

/-- **An acknowledgement can widen the filter**: nothing was asked for, and tools are received. -/
theorem widened : ¬ ∀ (repr : Json → Str) (f : SubscriptionFilter) (frames : List Members),
    OnlyRequested f ((stream repr).run (fresh f) frames) := by
  intro hall
  let honoured : SubscriptionFilter := { toolsListChanged := true }
  let ack := buildAcknowledgement (.str (py "listen-1")) honoured
  have hm : py "notifications/tools/list_changed" ∈ honoured.honouredMethods := .head _
  have hreceived := received_of_claimed (fun _ => []) (acknowledges_build {} honoured (by simp))
    (claimedFilter_build (fresh {}) (.str (py "listen-1")) honoured) hm
  obtain ⟨m, hno, -⟩ := hall (fun _ => []) {} [ack, notification _] _ hreceived
  simp [SubscriptionFilter.honouredMethods] at hno

/-! ## Refusals without a trace -/

/-- A frame is returned, or it is refused as the protocol has it, and leaves no trace. -/
def Atomic (repr : Json → Str) (s : SubscriptionStream) (frame : Members) : Prop :=
  (s.accept repr frame).1 = .ok frame ∨
    ∃ message, s.accept repr frame = (.error (.protocol message), s)

/-- The filter of an acknowledgement names subscriptions that are no sequence. -/
def Unreadable (frame : Members) : Prop :=
  ∃ raw, (frame.get (py "params")).member (py "notifications") = .obj raw ∧
    (Members.get raw (py "resourceSubscriptions")).truthy = true ∧
    tupleOf (Members.get raw (py "resourceSubscriptions")) = none

theorem claimedFilter_eq_none : s.claimedFilter frame = none ↔ Unreadable frame := by
  unfold SubscriptionStream.claimedFilter Unreadable
  cases (frame.get (py "params")).member (py "notifications") with
  | obj raw =>
    simp only [SubscriptionFilter.fromDict, Option.map_eq_none_iff, Json.obj.injEq, exists_eq_left']
    split_ifs with htruthy
    · simp [htruthy]
    · simp [htruthy]
  | _ => simp

/-- An acknowledgement that the stream waits for and cannot read, or a method that is no value of a
set. -/
def Unsound (s : SubscriptionStream) (frame : Members) : Prop :=
  (s.Acknowledges frame ∧ Unreadable frame) ∨
    (s.acknowledged = true ∧ (methodOf frame).hashable = false)

/-- **A frame is atomic unless it is unsound.** -/
theorem atomic_iff : Atomic repr s frame ↔ ¬ Unsound s frame := by
  unfold Atomic
  have hr := accept_cases repr s frame
  generalize s.accept repr frame = answer at hr
  cases hr with
  | acknowledged honoured ack claimed =>
    refine iff_of_true (Or.inl rfl) ?_
    rintro (⟨-, hun⟩ | ⟨hdone, -⟩)
    · cases claimed.symm.trans (claimedFilter_eq_none.mpr hun)
    · cases ack.waiting.symm.trans hdone
  | halfway ack claimed =>
    exact iff_of_false (by simp) (not_not.mpr (Or.inl ⟨ack, claimedFilter_eq_none.mp claimed⟩))
  | received m receives =>
    refine iff_of_true (Or.inl rfl) ?_
    rintro (⟨ack, -⟩ | ⟨-, hhash⟩)
    · cases ack.waiting.symm.trans receives.acknowledged
    · rw [receives.method] at hhash
      cases hhash
  | unhashable acknowledged method =>
    exact iff_of_false (by simp) (not_not.mpr (Or.inr ⟨acknowledged, method⟩))
  | refused message ack _ method =>
    refine iff_of_true (Or.inr ⟨message, rfl⟩) ?_
    rintro (⟨hack, -⟩ | ⟨hdone, hhash⟩)
    · exact ack hack
    · rcases method with h | h
      · cases h.symm.trans hdone
      · cases h.symm.trans hhash

/-- A stream since the acknowledgement it accepted. -/
structure Since (f : SubscriptionFilter) (s : SubscriptionStream) (ack : Members) : Prop where
  method : methodOf ack = .str ACKNOWLEDGED_NOTIFICATION
  id : subscriptionIdOf ack ≠ .null
  acknowledged : s.acknowledged = true
  subscriptionId : s.subscriptionId = subscriptionIdOf ack
  honoured : ∃ honoured, (fresh f).claimedFilter ack = some honoured ∧ s.honoured = some honoured
  later : ∀ frame ∈ s.received, methodOf frame ≠ .str ACKNOWLEDGED_NOTIFICATION

/-- What the frames accepted say of a stream: none was, or the first is the acknowledgement and the
others are those received. -/
def StreamHistory (f : SubscriptionFilter) (s : SubscriptionStream) (past : List Members) : Prop :=
  (past = [] ∧ s = fresh f) ∨ ∃ ack, past = ack :: s.received ∧ Since f s ack

theorem StreamHistory.next (h : StreamHistory f s past) (hs : ¬ Unsound s frame) :
    StreamHistory f (s.accept repr frame).2 (past ++ (s.accept repr frame).1.toOption.toList) := by
  have hr := accept_cases repr s frame
  generalize s.accept repr frame = answer at hr
  cases hr with
  | acknowledged honoured ack claimed =>
    rcases h with ⟨rfl, rfl⟩ | ⟨_, _, since⟩
    · exact Or.inr ⟨frame, rfl, ack.method, ack.id, rfl, rfl, ⟨honoured, claimed, rfl⟩,
        by simp [fresh]⟩
    · cases ack.waiting.symm.trans since.acknowledged
  | halfway ack claimed => exact absurd (Or.inl ⟨ack, claimedFilter_eq_none.mp claimed⟩) hs
  | received m receives =>
    rcases h with ⟨_, rfl⟩ | ⟨ack, rfl, since⟩
    · cases receives.acknowledged
    · refine Or.inr ⟨ack, rfl, since.method, since.id, since.acknowledged, since.subscriptionId,
        since.honoured, ?_⟩
      intro g hg
      rcases List.mem_append.mp hg with hg | hg
      · exact since.later g hg
      · obtain rfl := List.mem_singleton.mp hg
        rw [receives.method]
        exact fun he => SubscriptionFilter.honouredMethods_ne receives.honoured (Json.str.inj he)
  | unhashable acknowledged method => exact absurd (Or.inr ⟨acknowledged, method⟩) hs
  | refused _ _ _ _ =>
    show StreamHistory f s (past ++ [])
    rwa [List.append_nil]

/-- **When refusals leave no trace.** At every stream that is reached, exactly at the frames that
are not unsound; and after a run of such frames the first frame accepted is the acknowledgement,
which fixed the subscription and the filter, and the others are those received. -/
theorem atomic_exactly_when (repr : Json → Str) (f : SubscriptionFilter) (frames : List Members) :
    let s := (stream repr).run (fresh f) frames
    (∀ frame, Atomic repr s frame ↔ ¬ Unsound s frame) ∧
      ((stream repr).Along (fun s frame => ¬ Unsound s frame) (fresh f) frames →
        StreamHistory f s ((stream repr).journal (fresh f) frames)) := by
  intro s
  refine ⟨fun frame => atomic_iff, fun hsound => ?_⟩
  have hstep : ∀ s past frame, ¬ Unsound s frame → StreamHistory f s past →
      StreamHistory f ((stream repr).next s frame) (past ++ ((stream repr).entry s frame).toList) :=
    fun s past frame hs h => h.next hs
  have hfresh : StreamHistory f (fresh f) [] := Or.inl ⟨rfl, rfl⟩
  exact (stream repr).invariant_along hstep frames (fresh f) [] hsound hfresh

/-- An acknowledgement whose subscriptions are a number. -/
def unreadableAcknowledgement : Members :=
  [(py "method", .str ACKNOWLEDGED_NOTIFICATION),
    (py "params", .obj [(py "notifications", .obj [(py "resourceSubscriptions", .int 5)]),
      (py "_meta", .obj [(SUBSCRIPTION_ID_META_KEY, .str (py "listen-1"))])])]

/-- **An acknowledgement can be half accepted.** -/
theorem half_acknowledged : ¬ ∀ (repr : Json → Str) (f : SubscriptionFilter)
    (frames : List Members) (frame : Members),
    Atomic repr ((stream repr).run (fresh f) frames) frame := by
  intro hall
  rcases hall (fun _ => []) {} [] unreadableAcknowledgement with h | ⟨message, h⟩
  · cases h
  · cases h

end McpHeartbeat
