import McpHeartbeat.Base.Register
import McpHeartbeat.Core.Replay

/-!
# A consumer that follows one publisher

The publisher serves a ledger of heartbeats in which the last one may repeat. The consumer reads each
of them as `view` shows it, misses any number of them, and refuses some for the time.

* `AtLeast`: the same heartbeat again, or one that rises over it; `View`: what a reading keeps;
* `Watching`: what the consumer holds against what was served; `Watching.more`, `Watching.hold`;
* **`Watching.judge`**: the form of every verdict on what is served next; `Watching.again`: on what was
  served last.
-/

namespace McpHeartbeat

open Base LineageState

/-- `h` is `g` again, or rises over it. -/
def AtLeast (g h : Heartbeat) : Prop := g = h ∨ Rises g h

instance : IsTrans Heartbeat AtLeast where
  trans := by
    rintro f g h (rfl | hfg) (rfl | hgh)
    · exact Or.inl rfl
    · exact Or.inr hgh
    · exact Or.inr hfg
    · exact Or.inr (IsTrans.trans _ _ _ hfg hgh)

theorem ledger_atLeast {hs : List Heartbeat} (hl : Ledger Heartbeat.bootId Rises hs) :
    Ledger Heartbeat.bootId AtLeast hs where
  rising := hl.rising.imp fun hr he => Or.inr (hr he)
  blocks := hl.blocks

/-- A ledger whose last heartbeat is served again. -/
theorem ledger_again {hs : List Heartbeat} {h : Heartbeat}
    (hl : Ledger Heartbeat.bootId AtLeast (hs ++ [h])) :
    Ledger Heartbeat.bootId AtLeast (hs ++ [h] ++ [h]) :=
  hl.concat_same rfl (Or.inl rfl)

/-- What is read of a heartbeat keeps its address, its epoch and its sequence. -/
structure View (view : Heartbeat → Heartbeat) : Prop where
  node : ∀ h, (view h).nodeId = h.nodeId
  boot : ∀ h, (view h).bootId = h.bootId
  seq : ∀ h, (view h).sequence = h.sequence

/-- The consumer holds nothing, or a heartbeat that was served, and has retired no epoch that was not
served before it. -/
inductive Watching (view : Heartbeat → Heartbeat) (hs : List Heartbeat) (state : LineageState) : Prop
  | idle (held : state.held = none) (retired : state.retiredEpochs = ∅)
  | holding (before : List Heartbeat) (x : Heartbeat) (after : List Heartbeat)
      (served : hs = before ++ x :: after) (held : state.held = some (view x))
      (retired : ∀ e ∈ state.retiredEpochs, ∃ z ∈ before ++ [x], z.bootId = e)

namespace Watching

variable {P : Platform} {view : Heartbeat → Heartbeat} {hs : List Heartbeat} {h : Heartbeat}
  {state : LineageState} {now : ℤ} {maxSkew : Option ℤ}

theorem more (w : Watching view hs state) (more : List Heartbeat) :
    Watching view (hs ++ more) state := by
  cases w with
  | idle held retired => exact .idle held retired
  | holding before x after served held retired =>
    exact .holding before x (after ++ more) (by simp [served]) held retired

/-- What is served last is accepted. -/
theorem hold_last (hv : View view) (w : Watching view (hs ++ [h]) state) :
    Watching view (hs ++ [h]) (state.hold (view h)) := by
  refine .holding hs h [] rfl rfl fun e he => ?_
  rcases Finset.mem_insert.mp he with rfl | he
  · exact ⟨h, by simp, (hv.boot h).symm⟩
  · cases w with
    | idle _ retired =>
      rw [retired] at he
      simp at he
    | holding before x after served _ retired =>
      obtain ⟨z, hz, hze⟩ := retired e he
      refine ⟨z, ?_, hze⟩
      rw [served]
      simp only [List.mem_append, List.mem_cons] at hz ⊢
      tauto

/-- What is served next is accepted as what is held then. -/
theorem hold (hv : View view) (w : Watching view hs state) (h : Heartbeat) :
    Watching view (hs ++ [h]) (state.hold (view h)) :=
  (w.more [h]).hold_last hv

/-- **The verdict on what an honest publisher serves next**: the held document again, or a document
that only the clock can refuse. -/
theorem judge (hv : View view) (w : Watching view hs state)
    (hl : Ledger Heartbeat.bootId AtLeast (hs ++ [h])) (henc : (view h).Encodable P)
    (hp : h.nodeId = some state.participantId) :
    (state.held = some (view h) ∧
      state.judge P (view h) now maxSkew = .ok { state, duplicate := true }) ∨
    (state.held ≠ some (view h) ∧
      state.judge P (view h) now maxSkew = .ok (state.settle (view h) now maxSkew)) := by
  have hn : (view h).nodeId = some state.participantId := (hv.node h).trans hp
  cases w with
  | idle held retired =>
    right
    rw [held, judge_open hn (by simp [held]), if_neg (by simp [retired])]
    exact ⟨nofun, rfl⟩
  | holding before x after served held retired =>
    have hduplicate : h = x → state.held = some (view h) ∧
        state.judge P (view h) now maxSkew = .ok { state, duplicate := true } := by
      rintro rfl
      exact ⟨held, judge_duplicate hn held (Heartbeat.Coincides.refl _) henc⟩
    have hl' : Ledger Heartbeat.bootId AtLeast (before ++ x :: (after ++ [h])) := by
      rw [served] at hl
      simpa using hl
    have hy : (before ++ x :: (after ++ [h])).getLast? = some h := by
      rw [← List.cons_append, ← List.append_assoc, List.getLast?_concat]
    rcases hl'.accepts_last (R := ⟨some x, {e | e ∈ state.retiredEpochs}⟩) hy rfl
      (fun e he => retired e he) with rfl | hacc
    · exact Or.inl (hduplicate rfl)
    · rcases hacc with ⟨hb, rfl | hr⟩ | ⟨hb, hnew⟩
      · exact Or.inl (hduplicate rfl)
      · have hrise : Rises (view x) (view h) := by
          obtain ⟨a, b, ha, hb, hab⟩ := hr
          exact ⟨a, b, (hv.seq x).trans ha, (hv.seq h).trans hb, hab⟩
        have hne : (view h).sequence ≠ (view x).sequence := fun he => not_rises_of_eq he hrise
        have hlt : sequenceLt (view h).sequence (view x).sequence = .ok false :=
          (rises_iff_sequenceLt hne).mp hrise
        have hboot : (view h).bootId = (view x).bootId := by rw [hv.boot, hv.boot, hb]
        right
        rw [held, judge_order hn held hboot hne, hlt]
        refine ⟨fun he => hne ?_, rfl⟩
        rw [Option.some.inj he]
      · right
        have hother : ∀ g, state.held = some g → (view h).bootId ≠ g.bootId := by
          intro g hg
          obtain rfl := Option.some.inj (held.symm.trans hg)
          rw [hv.boot, hv.boot]
          exact hb
        have hfresh : (view h).bootId ∉ state.retiredEpochs := by
          rw [hv.boot]
          exact hnew
        rw [judge_open hn hother, if_neg hfresh]
        exact ⟨fun he => hother _ he rfl, rfl⟩

end Watching

/-- The held heartbeat again, or one that only the clock can refuse. -/
def LineageState.follow (state : LineageState) (h : Heartbeat) (now : ℤ) (maxSkew : Option ℤ) :
    Admission :=
  if state.held = some h then { state, duplicate := true } else state.settle h now maxSkew

theorem settle_duplicate {state : LineageState} {h : Heartbeat} {now : ℤ} {maxSkew : Option ℤ} :
    (state.settle h now maxSkew).duplicate = false := by
  unfold LineageState.settle
  cases checkFreshness h now maxSkew <;> rfl

/-- A heartbeat that was served last, served again. -/
theorem Watching.again {P : Platform} {view : Heartbeat → Heartbeat} {hs : List Heartbeat}
    {h : Heartbeat} {state : LineageState} {now : ℤ} {maxSkew : Option ℤ} (hv : View view)
    (w : Watching view hs state) (hlast : hs.getLast? = some h)
    (hl : Ledger Heartbeat.bootId Rises hs) (henc : (view h).Encodable P)
    (hp : h.nodeId = some state.participantId) :
    state.judge P (view h) now maxSkew = .ok (state.follow (view h) now maxSkew) := by
  obtain ⟨init, rfl⟩ := List.getLast?_eq_some_iff.mp hlast
  unfold LineageState.follow
  rcases w.judge hv (ledger_again (ledger_atLeast hl)) henc hp with ⟨hheld, ha⟩ | ⟨hheld, ha⟩
  · rw [if_pos hheld]
    exact ha
  · rw [if_neg hheld]
    exact ha

end McpHeartbeat
