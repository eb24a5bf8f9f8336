import Mathlib.Data.List.DropRight
import Mathlib.Data.List.Induction

/-!
# Runs of a list

A run of a list is a stretch of it that has no gap, and all of whose elements have a property.

* `IsRun`, `Longest`: a run, and one than which none is longer;
* `length_le_rtakeWhile`: the run at the end of a list is the longest of those that end it;
* **`Longest.concat`**: one more element.
-/

namespace Base

variable {α : Type*} (p : α → Bool)

/-- A stretch of `l` all of whose elements have the property. -/
structure IsRun (l r : List α) : Prop where
  stretch : r <:+: l
  all : ∀ x ∈ r, p x = true

/-- A run than which none is longer. -/
structure Longest (l r : List α) : Prop extends IsRun p l r where
  longest : ∀ r', IsRun p l r' → r'.length ≤ r.length

variable {p} {l r : List α} {x : α}

theorem IsRun.nil (p : α → Bool) (l : List α) : IsRun p l [] :=
  ⟨List.nil_infix, by simp⟩

theorem Longest.nil (p : α → Bool) : Longest p [] [] where
  toIsRun := IsRun.nil p []
  longest := by
    intro r' h
    rw [List.infix_nil.mp h.stretch]

theorem IsRun.mono {l' : List α} (h : IsRun p l r) (hl : l <:+: l') : IsRun p l' r :=
  ⟨h.stretch.trans hl, h.all⟩

/-- The run at the end of a list. -/
theorem isRun_rtakeWhile (p : α → Bool) (l : List α) : IsRun p l (l.rtakeWhile p) :=
  ⟨(List.rtakeWhile_suffix p l).isInfix, fun _ hx => List.mem_rtakeWhile_imp hx⟩

/-- **No run that ends a list is longer than the run at its end.** -/
theorem length_le_rtakeWhile (hsuffix : r <:+ l) (hall : ∀ x ∈ r, p x = true) :
    r.length ≤ (l.rtakeWhile p).length := by
  induction l using List.reverseRecOn generalizing r with
  | nil => rw [List.suffix_nil.mp hsuffix]; exact Nat.zero_le _
  | append_singleton l x ih =>
    rcases List.suffix_concat_iff.mp hsuffix with rfl | ⟨r', rfl, hr'⟩
    · exact Nat.zero_le _
    · have hx : p x = true := hall x (by simp)
      have hr := ih hr' fun y hy => hall y (List.mem_append_left _ hy)
      rw [List.rtakeWhile_concat_pos _ _ _ hx, List.length_append, List.length_append]
      exact Nat.add_le_add_right hr 1

/-- A run of a longer list is a run of the list, or ends it. -/
theorem IsRun.concat (h : IsRun p (l ++ [x]) r) :
    IsRun p l r ∨ r.length ≤ ((l ++ [x]).rtakeWhile p).length := by
  rcases List.infix_concat_iff.mp h.stretch with hsuffix | hwithin
  · exact Or.inr (length_le_rtakeWhile hsuffix h.all)
  · exact Or.inl ⟨hwithin, h.all⟩

/-- **One more element**: the run at the new end is the longest if it is longer than the longest so
far. -/
theorem Longest.concat (h : Longest p l r) (x : α) :
    Longest p (l ++ [x]) (if r.length < ((l ++ [x]).rtakeWhile p).length then
      (l ++ [x]).rtakeWhile p else r) := by
  have hold : IsRun p (l ++ [x]) r := h.toIsRun.mono (List.prefix_append l [x]).isInfix
  split_ifs with hlonger
  · refine ⟨isRun_rtakeWhile p _, ?_⟩
    intro r' hr'
    rcases hr'.concat with hr' | hr'
    · exact (h.longest r' hr').trans hlonger.le
    · exact hr'
  · refine ⟨hold, ?_⟩
    intro r' hr'
    rcases hr'.concat with hr' | hr'
    · exact h.longest r' hr'
    · exact hr'.trans (not_lt.mp hlonger)

end Base
