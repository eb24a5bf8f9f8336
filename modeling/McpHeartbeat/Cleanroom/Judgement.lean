import McpHeartbeat.Base.Machine
import McpHeartbeat.Base.Register
import McpHeartbeat.Cleanroom.Digests

/-!
# One admission by the clean room

What `CleanRoomConsumer.admit` answers, branch by branch.

* `Consumer.register`: the consumer as an epoch register; `SequenceRises`: the order of its sequences;
* `against_of_lt`, `against_of_eq`, `against_of_gt`: an object against the held one of its epoch;
* `answer_mismatch`, `answer_late`, `answer_open`, `answer_same`: the branches of a valid object;
* `Consumer.Takes`, **`admit_cases`**: a call holds what the register accepts, or changes nothing.
-/

namespace McpHeartbeat.CleanRoom

open Base

variable {P : Platform} {c : Consumer} {m g : Members} {d : Json} {now : ℤ}

/-! ## The consumer as a register -/

/-- The sequence of `m'` is above that of `m`. -/
def SequenceRises (m m' : Members) : Prop :=
  ∃ a b, m.get (py "sequence") = .int a ∧ m'.get (py "sequence") = .int b ∧ a < b

/-- The epoch of an object. -/
def bootOf (m : Members) : Json := m.get (py "boot_id")

/-- The consumer as an epoch register. -/
def Consumer.register (c : Consumer) : Register Members Json := ⟨c.held, {e | e ∈ c.seenEpochs}⟩

theorem Consumer.register_hold (c : Consumer) (m : Members) :
    (c.hold m).register = c.register.accept bootOf m := by
  simp only [register, hold, Register.accept, bootOf, Finset.mem_insert]
  rfl

theorem Consumer.register_start (p : Str) :
    (Consumer.register { nodeId := p }) = Register.empty := by
  simp [register, Register.empty]

namespace Consumer

theorem accepts_of_open (ho : ∀ g, c.held = some g → bootOf m ≠ bootOf g) :
    c.register.Accepts bootOf SequenceRises m ↔ bootOf m ∉ c.seenEpochs := by
  cases hg : c.held with
  | none => simp [Register.Accepts, register, hg]
  | some g => simp [Register.Accepts, register, hg, ho g hg]

theorem accepts_of_same (hg : c.held = some g) (hb : bootOf m = bootOf g) :
    c.register.Accepts bootOf SequenceRises m ↔ SequenceRises g m := by
  simp [Register.Accepts, register, hg, hb]

/-! ## Against the held object -/

section Against

variable {a b : ℤ} (hg : g.get (py "sequence") = .int a) (hm : m.get (py "sequence") = .int b)

include hg hm

theorem against_of_lt (h : b < a) : against P m g = .ok .sequenceRollback := by
  simp [against, hg, hm, sequenceLt, h]

theorem against_of_gt (h : a < b) : against P m g = .ok .ok := by
  have hlt : ¬ b < a := by omega
  have hne : ¬ b = a := by omega
  simp [against, hg, hm, sequenceLt, hlt, hne]

/-- The two digests of one sequence are compared; both exist. -/
theorem against_of_eq (h : b = a) : ∃ x y, digest P (.obj m) = .ok x ∧ digest P (.obj g) = .ok y ∧
    against P m g = .ok (if x = y then .duplicate else .sequenceConflict) := by
  obtain ⟨r, -, hx⟩ := digest_ok P (.obj m)
  obtain ⟨s, -, hy⟩ := digest_ok P (.obj g)
  refine ⟨_, _, hx, hy, ?_⟩
  simp [against, hg, hm, sequenceLt, h, hx, hy]

end Against

/-- **What is answered `ok` in the held epoch is above the held object.** -/
theorem against_ok_iff : against P m g = .ok .ok ↔ SequenceRises g m := by
  constructor
  · intro h
    obtain ⟨lt, hlt, -⟩ := bind_eq_ok.mp h
    cases hm : m.get (py "sequence") with
    | int b =>
      cases hg : g.get (py "sequence") with
      | int a =>
        refine ⟨a, b, hg, hm, ?_⟩
        by_contra hle
        rcases lt_or_eq_of_le (not_lt.mp hle) with hlt | heq
        · cases h.symm.trans (against_of_lt hg hm hlt)
        · obtain ⟨x, y, -, -, hxy⟩ := against_of_eq (P := P) hg hm heq
          rw [hxy] at h
          split_ifs at h <;> cases h
      | _ =>
        rw [hm, hg] at hlt
        cases hlt
    | _ =>
      rw [hm] at hlt
      cases hlt
  · rintro ⟨a, b, hg, hm, hab⟩
    exact against_of_gt hg hm hab

/-! ## The branches of a valid object -/

theorem answer_mismatch (hn : m.get (py "node_id") ≠ .str c.nodeId) :
    c.answer P m now = .ok .nodeIdMismatch := if_pos hn

section Addressed

variable (hn : m.get (py "node_id") = .str c.nodeId)

include hn

theorem answer_late (hf : isFresh m now = false) : c.answer P m now = .ok .expiredOnArrival := by
  rw [answer, if_neg (not_not.mpr hn), if_pos (by simp [hf])]

variable (hf : isFresh m now = true)

include hf

/-- A first epoch, or another epoch than the held one. -/
theorem answer_open (ho : ∀ g, c.held = some g → bootOf m ≠ bootOf g) :
    c.answer P m now = .ok (if bootOf m ∈ c.seenEpochs then .bootIdReuse else .ok) := by
  rw [answer, if_neg (not_not.mpr hn), if_neg (by simp [hf])]
  cases hg : c.held with
  | none => rfl
  | some g => exact if_pos (ho g hg)

/-- The held epoch. -/
theorem answer_same (hg : c.held = some g) (hb : bootOf m = bootOf g) :
    c.answer P m now = against P m g := by
  rw [answer, if_neg (not_not.mpr hn), if_neg (by simp [hf]), hg]
  exact if_neg (not_not.mpr hb)

end Addressed

/-- The two ways past the address: another epoch, or the held one. -/
theorem held_cases (c : Consumer) (m : Members) :
    (∀ g, c.held = some g → bootOf m ≠ bootOf g) ∨
      ∃ g, c.held = some g ∧ bootOf m = bootOf g := by
  cases hg : c.held with
  | none => exact Or.inl (by simp)
  | some g =>
    by_cases hb : bootOf m = bootOf g
    · exact Or.inr ⟨g, rfl, hb⟩
    · left
      intro g' hg'
      rwa [← Option.some.inj hg']

/-- **A valid object is answered `ok` exactly when it is of the participant, fresh, and what the
register accepts.** -/
theorem answer_ok_iff : c.answer P m now = .ok .ok ↔ m.get (py "node_id") = .str c.nodeId ∧
    isFresh m now = true ∧ c.register.Accepts bootOf SequenceRises m := by
  by_cases hn : m.get (py "node_id") = .str c.nodeId
  · cases hf : isFresh m now with
    | false =>
      rw [answer_late hn hf]
      simp
    | true =>
      rcases c.held_cases m with ho | ⟨g, hg, hb⟩
      · rw [answer_open hn hf ho, accepts_of_open ho]
        split_ifs with hseen <;> simp [hn, hseen]
      · rw [answer_same hn hf hg hb, accepts_of_same hg hb, against_ok_iff]
        simp [hn]
  · rw [answer_mismatch hn]
    simp [hn]

/-! ## The whole call -/

/-- What the consumer holds next. -/
structure Takes (c : Consumer) (m : Members) (now : ℤ) : Prop where
  valid : violations m = []
  node : m.get (py "node_id") = .str c.nodeId
  fresh : isFresh m now = true
  accepts : c.register.Accepts bootOf SequenceRises m

theorem admit_of_valid (hv : violations m = []) : c.admitDocument P (.obj m) now =
    match c.answer P m now with
    | .ok .ok => (.ok .ok, c.hold m)
    | other => (other, c) := if_neg (not_not.mpr hv)

theorem admit_takes (h : c.Takes m now) : c.admitDocument P (.obj m) now = (.ok .ok, c.hold m) := by
  rw [admit_of_valid h.valid, answer_ok_iff.mpr ⟨h.node, h.fresh, h.accepts⟩]

/-- What a valid object that is not taken is answered; nothing changes. -/
theorem admit_of_answer (hv : violations m = []) (ha : c.answer P m now ≠ .ok .ok) :
    c.admitDocument P (.obj m) now = (c.answer P m now, c) := by
  rw [admit_of_valid hv]
  split
  · contradiction
  · rfl

/-- **A call holds what it takes, or changes nothing.** -/
theorem admit_cases (P : Platform) (c : Consumer) (d : Json) (now : ℤ) :
    (∃ m, d = .obj m ∧ c.Takes m now ∧ c.admitDocument P d now = (.ok .ok, c.hold m)) ∨
      ((∀ m, d = .obj m → ¬ c.Takes m now) ∧ (c.admitDocument P d now).1 ≠ .ok .ok ∧
        (c.admitDocument P d now).2 = c) := by
  cases d with
  | obj m =>
    by_cases hv : violations m = []
    · by_cases ha : c.answer P m now = .ok .ok
      · obtain ⟨hn, hf, hacc⟩ := answer_ok_iff.mp ha
        exact Or.inl ⟨m, rfl, ⟨hv, hn, hf, hacc⟩, admit_takes ⟨hv, hn, hf, hacc⟩⟩
      · refine Or.inr ⟨?_, ?_⟩
        · rintro m' ⟨⟩ ht
          exact ha (answer_ok_iff.mpr ⟨ht.node, ht.fresh, ht.accepts⟩)
        · rw [admit_of_answer hv ha]
          exact ⟨ha, rfl⟩
    · refine Or.inr ⟨?_, ?_⟩
      · rintro m' ⟨⟩ ht
        exact hv ht.valid
      · have hrefuse : c.admitDocument P (.obj m) now = (.ok .schemaInvalid, c) := if_pos hv
        rw [hrefuse]
        exact ⟨by simp, rfl⟩
  | _ => exact Or.inr ⟨by simp, by simp [admitDocument], rfl⟩

end Consumer

end McpHeartbeat.CleanRoom
