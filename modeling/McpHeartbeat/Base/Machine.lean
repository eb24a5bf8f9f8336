import Mathlib.Data.List.Basic
import Mathlib.Tactic.Common

/-!
# Machines with a journal

A machine reads inputs one at a time. Each input moves the state, and may write one entry into a
journal kept beside it.

* `Machine.run`, `Machine.journal`: the state after a list of inputs, and what was written on the way;
* **`Machine.invariant`**: a relation between state and journal that every step keeps holds after
  every run. The step may use any property `Q` that all the inputs have;
* **`Machine.invariant_along`**: the same, where `Q` is about the state before each input as well;
* `Machine.mem_journal`: an entry was written by one of the inputs, in the state reached before it;
* `Machine.run_filter`: inputs that move nothing can be left out of a run;
* **`Machine.lockstep`**: a relation of two machines that their steps keep;
* **`Machine.project`**: a machine that is what is seen of another one;
* **`Machine.noninterference`**: inputs that decide nothing of what is seen.
-/

namespace Base

/-- A deterministic machine with a journal. -/
structure Machine (σ ι ο : Type*) where
  next : σ → ι → σ
  entry : σ → ι → Option ο

namespace Machine

variable {σ ι ο : Type*} (M : Machine σ ι ο)

/-- The state after a list of inputs. -/
def run (s : σ) (is : List ι) : σ := is.foldl M.next s

/-- The entries written along a list of inputs, oldest first. -/
def journal : σ → List ι → List ο
  | _, [] => []
  | s, i :: is => (M.entry s i).toList ++ journal (M.next s i) is

@[simp] theorem run_nil (s : σ) : M.run s [] = s := rfl

@[simp] theorem run_cons (s : σ) (i : ι) (is : List ι) :
    M.run s (i :: is) = M.run (M.next s i) is := rfl

theorem run_append (s : σ) (is js : List ι) : M.run s (is ++ js) = M.run (M.run s is) js :=
  List.foldl_append ..

@[simp] theorem run_concat (s : σ) (is : List ι) (i : ι) :
    M.run s (is ++ [i]) = M.next (M.run s is) i := M.run_append s is [i]

@[simp] theorem journal_nil (s : σ) : M.journal s [] = [] := rfl

@[simp] theorem journal_cons (s : σ) (i : ι) (is : List ι) :
    M.journal s (i :: is) = (M.entry s i).toList ++ M.journal (M.next s i) is := rfl

theorem journal_append (s : σ) (is js : List ι) :
    M.journal s (is ++ js) = M.journal s is ++ M.journal (M.run s is) js := by
  induction is generalizing s with
  | nil => rfl
  | cons i is ih => rw [List.cons_append, journal_cons, ih, journal_cons, List.append_assoc, run_cons]

/-- **Invariant rule.** -/
theorem invariant {Inv : σ → List ο → Prop} {Q : ι → Prop}
    (step : ∀ s past i, Q i → Inv s past → Inv (M.next s i) (past ++ (M.entry s i).toList)) :
    ∀ (is : List ι) (s : σ) (past : List ο), (∀ i ∈ is, Q i) → Inv s past →
      Inv (M.run s is) (past ++ M.journal s is)
  | [], s, past, _, h => by simpa using h
  | i :: is, s, past, hQ, h => by
    have h₁ := step s past i (hQ i List.mem_cons_self) h
    have h₂ := invariant step is _ _ (fun j hj => hQ j (List.mem_cons_of_mem _ hj)) h₁
    rwa [List.append_assoc] at h₂

/-- The invariant rule for any inputs, from a state whose journal is empty. -/
theorem invariant_run {Inv : σ → List ο → Prop} {s : σ}
    (step : ∀ s past i, Inv s past → Inv (M.next s i) (past ++ (M.entry s i).toList))
    (h : Inv s []) (is : List ι) : Inv (M.run s is) (M.journal s is) := by
  have hstep : ∀ s past i, True → Inv s past → Inv (M.next s i) (past ++ (M.entry s i).toList) :=
    fun s past i _ => step s past i
  simpa using M.invariant hstep is s [] (fun _ _ => trivial) h

/-- The invariant rule for a property of the state alone. -/
theorem invariant_state {Inv : σ → Prop} {s : σ} (step : ∀ s i, Inv s → Inv (M.next s i))
    (h : Inv s) (is : List ι) : Inv (M.run s is) := by
  have hstep : ∀ s (_ : List ο) i, Inv s → Inv (M.next s i) := fun s _ i => step s i
  exact M.invariant_run hstep h is

/-- Every step of the run has the property `Q`, of the state before it and of the input. -/
def Along (Q : σ → ι → Prop) (s : σ) (is : List ι) : Prop :=
  ∀ pre i post, is = pre ++ i :: post → Q (M.run s pre) i

theorem along_append {Q : σ → ι → Prop} {s : σ} {is js : List ι} (h : M.Along Q s (is ++ js)) :
    M.Along Q s is ∧ M.Along Q (M.run s is) js := by
  constructor
  · intro pre i post his
    exact h pre i (post ++ js) (by rw [his, List.append_assoc, List.cons_append])
  · intro pre i post hjs
    rw [← M.run_append]
    exact h (is ++ pre) i post (by rw [hjs, List.append_assoc])

/-- **Invariant rule along a run** whose every step has a property. -/
theorem invariant_along {Inv : σ → List ο → Prop} {Q : σ → ι → Prop}
    (step : ∀ s past i, Q s i → Inv s past → Inv (M.next s i) (past ++ (M.entry s i).toList)) :
    ∀ (is : List ι) (s : σ) (past : List ο), M.Along Q s is → Inv s past →
      Inv (M.run s is) (past ++ M.journal s is)
  | [], s, past, _, h => by simpa using h
  | i :: is, s, past, hQ, h => by
    have h₁ := step s past i (hQ [] i is rfl) h
    have hrest : M.Along Q (M.next s i) is :=
      fun pre j post his => hQ (i :: pre) j post (by rw [his, List.cons_append])
    have h₂ := invariant_along step is _ _ hrest h₁
    rwa [List.append_assoc] at h₂

/-- The same for a property of the state alone. -/
theorem invariant_state_along {Inv : σ → Prop} {Q : σ → ι → Prop} {s : σ} {is : List ι}
    (step : ∀ s i, Q s i → Inv s → Inv (M.next s i)) (hQ : M.Along Q s is) (h : Inv s) :
    Inv (M.run s is) := by
  have hstep : ∀ s (_ : List ο) i, Q s i → Inv s → Inv (M.next s i) := fun s _ i => step s i
  exact M.invariant_along hstep is s [] hQ h

/-- An input writes one entry at most. -/
theorem length_journal_le (s : σ) (is : List ι) : (M.journal s is).length ≤ is.length := by
  induction is generalizing s with
  | nil => exact Nat.le_refl 0
  | cons i is ih =>
    have hrest := ih (M.next s i)
    rw [journal_cons, List.length_append, List.length_cons]
    cases M.entry s i with
    | none =>
      rw [Option.toList_none, List.length_nil]
      omega
    | some o =>
      rw [Option.toList_some, List.length_singleton]
      omega

/-- An entry of the journal was written by one of the inputs. -/
theorem mem_journal {s : σ} {is : List ι} {o : ο} (h : o ∈ M.journal s is) :
    ∃ pre i post, is = pre ++ i :: post ∧ M.entry (M.run s pre) i = some o := by
  induction is generalizing s with
  | nil => simp at h
  | cons i is ih =>
    rw [journal_cons, List.mem_append] at h
    rcases h with h | h
    · exact ⟨[], i, is, rfl, by simpa using h⟩
    · obtain ⟨pre, j, post, rfl, hj⟩ := ih h
      exact ⟨i :: pre, j, post, rfl, hj⟩

/-- Inputs that move nothing can be left out. -/
theorem run_filter {Inv : σ → Prop} {q : ι → Bool} (step : ∀ s i, Inv s → Inv (M.next s i))
    (skip : ∀ s i, Inv s → q i = false → M.next s i = s) {s : σ} (h : Inv s) (is : List ι) :
    M.run s is = M.run s (is.filter q) := by
  induction is generalizing s with
  | nil => rfl
  | cons i is ih =>
    by_cases hq : q i = true
    · rw [List.filter_cons_of_pos hq, run_cons, run_cons, ih (step s i h)]
    · rw [List.filter_cons_of_neg hq, run_cons, skip s i h (Bool.eq_false_iff.mpr hq), ih h]

/-- Entries that depend on the inputs alone. -/
theorem journal_eq_filterMap {f : ι → Option ο} (h : ∀ s i, M.entry s i = f i) (s : σ)
    (is : List ι) : M.journal s is = is.filterMap f := by
  induction is generalizing s with
  | nil => rfl
  | cons i is ih =>
    rw [journal_cons, h, ih]
    cases hi : f i with
    | none => rw [List.filterMap_cons_none hi, Option.toList_none, List.nil_append]
    | some o => rw [List.filterMap_cons_some hi, Option.toList_some, List.singleton_append]

/-! ## Two runs side by side -/

/-- **Lockstep rule**: what one step of two machines keeps, their runs keep. -/
theorem lockstep {σ' κ ο' : Type*} (N : Machine σ' κ ο') {f : ι → κ} {R : σ → σ' → Prop}
    {Q : ι → Prop} (step : ∀ s s' i, Q i → R s s' → R (M.next s i) (N.next s' (f i))) :
    ∀ (is : List ι) (s : σ) (s' : σ'), (∀ i ∈ is, Q i) → R s s' →
      R (M.run s is) (N.run s' (is.map f))
  | [], _, _, _, h => h
  | i :: is, s, s', hQ, h =>
    lockstep N step is (M.next s i) (N.next s' (f i))
      (fun j hj => hQ j (List.mem_cons_of_mem _ hj)) (step s s' i (hQ i List.mem_cons_self) h)

/-! ## Projections -/

/-- **Projection rule**: an input that is not selected keeps what is seen and writes nothing that is
picked; a selected one does to what is seen what `N` does. Then the run of `M` is seen as the run of
`N`, if every step of that one has the property `Q`. -/
theorem project {σ' κ ο' : Type*} (N : Machine σ' κ ο') {view : σ → σ'} {select : ι → Option κ}
    {pick : ο → Option ο'} {Q : σ' → κ → Prop}
    (hidden : ∀ s i, select i = none → view (M.next s i) = view s ∧ (M.entry s i).bind pick = none)
    (own : ∀ s i k, select i = some k → Q (view s) k →
      view (M.next s i) = N.next (view s) k ∧ (M.entry s i).bind pick = N.entry (view s) k)
    (s : σ) (is : List ι) (hQ : N.Along Q (view s) (is.filterMap select)) :
    view (M.run s is) = N.run (view s) (is.filterMap select) ∧
      (M.journal s is).filterMap pick = N.journal (view s) (is.filterMap select) := by
  have hpick : ∀ o : Option ο, o.toList.filterMap pick = (o.bind pick).toList := by
    intro o
    cases o with
    | none => rfl
    | some o => cases h : pick o <;> simp [h]
  induction is generalizing s with
  | nil => exact ⟨rfl, rfl⟩
  | cons i is ih =>
    rw [journal_cons, List.filterMap_append, hpick, run_cons]
    cases hi : select i with
    | none =>
      obtain ⟨hnext, hentry⟩ := hidden s i hi
      rw [List.filterMap_cons_none hi] at hQ ⊢
      rw [← hnext] at hQ
      rw [hentry, ← hnext]
      exact ih _ hQ
    | some k =>
      rw [List.filterMap_cons_some hi] at hQ ⊢
      obtain ⟨hnext, hentry⟩ := own s i k hi (hQ [] k _ rfl)
      have hrest : N.Along Q (view (M.next s i)) (is.filterMap select) := by
        rw [hnext]
        exact fun pre j post his => hQ (k :: pre) j post (by rw [his, List.cons_append])
      obtain ⟨hrun, hjournal⟩ := ih _ hrest
      rw [hentry, run_cons, journal_cons, ← hnext, hrun, hjournal]
      exact ⟨rfl, rfl⟩

/-! ## Noninterference -/

/-- **Purge rule**: hidden inputs write nothing and keep what is seen of the state; what is seen
determines what a visible input writes, and what is seen after it. Then a run can be purged of its
hidden inputs. -/
theorem purge {ω : Type*} {view : σ → ω} {visible : ι → Bool}
    (hidden : ∀ s i, visible i = false → view (M.next s i) = view s ∧ M.entry s i = none)
    (seen : ∀ s s' i, visible i = true → view s = view s' →
      view (M.next s i) = view (M.next s' i) ∧ M.entry s i = M.entry s' i)
    {s s' : σ} (h : view s = view s') (is : List ι) :
    M.journal s is = M.journal s' (is.filter visible) ∧
      view (M.run s is) = view (M.run s' (is.filter visible)) := by
  induction is generalizing s s' with
  | nil => exact ⟨rfl, h⟩
  | cons i is ih =>
    by_cases hi : visible i = true
    · obtain ⟨hnext, hentry⟩ := seen s s' i hi h
      rw [List.filter_cons_of_pos hi, journal_cons, journal_cons, run_cons, run_cons, hentry,
        (ih hnext).1]
      exact ⟨rfl, (ih hnext).2⟩
    · obtain ⟨hnext, hentry⟩ := hidden s i (Bool.eq_false_iff.mpr hi)
      rw [List.filter_cons_of_neg hi, journal_cons, run_cons, hentry]
      exact ih (hnext.trans h)

/-- **Noninterference**: two runs with the same visible inputs write the same. -/
theorem noninterference {ω : Type*} {view : σ → ω} {visible : ι → Bool}
    (hidden : ∀ s i, visible i = false → view (M.next s i) = view s ∧ M.entry s i = none)
    (seen : ∀ s s' i, visible i = true → view s = view s' →
      view (M.next s i) = view (M.next s' i) ∧ M.entry s i = M.entry s' i)
    {s s' : σ} (h : view s = view s') {is js : List ι}
    (hsame : is.filter visible = js.filter visible) : M.journal s is = M.journal s' js := by
  have hleft := (M.purge hidden seen h is).1
  have hright := (M.purge hidden seen (rfl : view s' = view s') js).1
  rw [hleft, hright, hsame]

end Machine

end Base
