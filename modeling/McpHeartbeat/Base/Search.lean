import Mathlib.Data.List.DropRight
import Mathlib.Data.List.Infix

/-!
# Searching and trimming

* `cut`: a list is cut at the first place where a word stands;
* `Clear`: the word begins nowhere in the first part of a list; **`cut_of_clear`**;
* `trim`: what stands at both ends of a list is taken away; `Solid`, **`trim_padded`**;
* `exists_first`: what the first of several candidates yields.
-/

namespace Base

variable {α β : Type*}

/-! ## Cutting -/

section Cut

variable [DecidableEq α] {sep a b t : List α}

/-- What stands before a word and after it, where it first stands. -/
def cut (sep : List α) : List α → Option (List α × List α)
  | [] => if sep = [] then some ([], []) else none
  | c :: s =>
    if sep <+: c :: s then some ([], (c :: s).drop sep.length)
    else (cut sep s).map fun p => (c :: p.1, p.2)

omit [DecidableEq α] in
/-- The word begins nowhere in the list, if that is followed by `t`. -/
def Clear (sep : List α) : List α → List α → Prop
  | [], _ => True
  | c :: a, t => ¬ sep <+: c :: (a ++ t) ∧ Clear sep a t

omit [DecidableEq α] in
theorem clear_append : Clear sep (a ++ b) t ↔ Clear sep a (b ++ t) ∧ Clear sep b t := by
  induction a with
  | nil => simp [Clear]
  | cons c a ih => rw [List.cons_append, Clear, Clear, ih, List.append_assoc, and_assoc]

omit [DecidableEq α] in
/-- A word begins nowhere where its first symbol does not stand. -/
theorem clear_of_not_mem {c : α} (hsep : sep.head? = some c) (hc : c ∉ a) : Clear sep a t := by
  induction a with
  | nil => trivial
  | cons d a ih =>
    refine ⟨?_, ih fun hmem => hc (List.mem_cons_of_mem d hmem)⟩
    rintro ⟨s, hs⟩
    cases sep with
    | nil => cases hsep
    | cons e sep =>
      obtain rfl : e = c := Option.some.inj hsep
      obtain ⟨rfl, -⟩ := List.cons.inj hs
      exact hc List.mem_cons_self

/-- **What is clear stands before the cut.** -/
theorem cut_of_clear (h : Clear sep a t) :
    cut sep (a ++ t) = (cut sep t).map fun p => (a ++ p.1, p.2) := by
  induction a with
  | nil => simp
  | cons c a ih =>
    obtain ⟨hhere, hlater⟩ := h
    rw [List.cons_append, cut, if_neg hhere, ih hlater, Option.map_map]
    rfl

theorem cut_word (hsep : sep ≠ []) (t : List α) : cut sep (sep ++ t) = some ([], t) := by
  cases sep with
  | nil => exact absurd rfl hsep
  | cons c sep =>
    have hprefix : c :: sep <+: c :: (sep ++ t) := List.prefix_append (c :: sep) t
    rw [List.cons_append, cut, if_pos hprefix, ← List.cons_append, List.drop_left]

theorem cut_eq_none (hsep : sep ≠ []) (h : Clear sep a []) : cut sep a = none := by
  have hcut := cut_of_clear h
  rw [List.append_nil] at hcut
  rw [hcut, cut, if_neg hsep]
  rfl

/-- A word that stands somewhere is found. -/
theorem cut_ne_none (h : sep <:+: t) : cut sep t ≠ none := by
  induction t with
  | nil =>
    rw [List.infix_nil.mp h]
    simp [cut]
  | cons c t ih =>
    rw [cut]
    split_ifs with hprefix
    · exact Option.some_ne_none _
    · intro hnone
      rcases List.infix_cons_iff.mp h with hhere | hlater
      · exact hprefix hhere
      · exact ih hlater (Option.map_eq_none_iff.mp hnone)

end Cut

/-! ## Trimming -/

section Trim

variable {p : α → Bool} {l s r : List α}

/-- Both ends of a list, up to the first symbol and from the last one that is not of the kind. -/
def trim (p : α → Bool) (s : List α) : List α := (s.dropWhile p).rdropWhile p

/-- A list neither of whose ends is of the kind. -/
structure Solid (p : α → Bool) (s : List α) : Prop where
  front : ∃ c t, s = c :: t ∧ p c = false
  back : ∃ t c, s = t ++ [c] ∧ p c = false

theorem dropWhile_all_append (hl : ∀ c ∈ l, p c = true) (s : List α) :
    (l ++ s).dropWhile p = s.dropWhile p := by
  induction l with
  | nil => rfl
  | cons c l ih =>
    rw [List.cons_append, List.dropWhile_cons_of_pos (hl c List.mem_cons_self)]
    exact ih fun d hd => hl d (List.mem_cons_of_mem c hd)

/-- **What is put around a list is taken away again.** -/
theorem trim_padded (hl : ∀ c ∈ l, p c = true) (hs : Solid p s) (hr : ∀ c ∈ r, p c = true) :
    trim p (l ++ s ++ r) = s := by
  have hfront : (s ++ r).dropWhile p = s ++ r := by
    obtain ⟨c, t, rfl, hc⟩ := hs.front
    exact List.dropWhile_cons_of_neg (Bool.eq_false_iff.mp hc)
  have hback : s.reverse.dropWhile p = s.reverse := by
    obtain ⟨t, c, rfl, hc⟩ := hs.back
    rw [List.reverse_concat]
    exact List.dropWhile_cons_of_neg (Bool.eq_false_iff.mp hc)
  rw [trim, List.append_assoc, dropWhile_all_append hl, hfront, List.rdropWhile,
    List.reverse_append,
    dropWhile_all_append (fun c hc => hr c (List.mem_reverse.mp hc)), hback, List.reverse_reverse]

theorem mem_dropWhile {c : α} (hc : c ∈ s) (hp : p c = false) : c ∈ s.dropWhile p := by
  rw [← List.takeWhile_append_dropWhile (p := p) (l := s)] at hc
  rcases List.mem_append.mp hc with hc | hc
  · rw [List.mem_takeWhile_imp hc] at hp
    cases hp
  · exact hc

/-- What is not of the kind stays. -/
theorem mem_trim {c : α} (hc : c ∈ s) (hp : p c = false) : c ∈ trim p s := by
  have hdrop := List.mem_reverse.mpr (mem_dropWhile hc hp)
  exact List.mem_reverse.mpr (mem_dropWhile hdrop hp)

end Trim

/-! ## Candidates -/

/-- Of several candidates, the first that yields something is asked. -/
theorem exists_first [DecidableEq α] {f : α → Option β} {l : List α} {b : β}
    (h : l.findSome? f = some b) :
    ∃ x ∈ l, f x = some b ∧ ∀ y ∈ l, l.idxOf y < l.idxOf x → f y = none := by
  induction l with
  | nil => cases h
  | cons z l ih =>
    cases hz : f z with
    | some b' =>
      rw [List.findSome?_cons, hz] at h
      refine ⟨z, List.mem_cons_self, hz.trans h, ?_⟩
      intro y _ hy
      rw [List.idxOf_cons_self] at hy
      exact absurd hy (Nat.not_lt_zero _)
    | none =>
      rw [List.findSome?_cons, hz] at h
      obtain ⟨x, hx, hfx, hbefore⟩ := ih h
      have hne : z ≠ x := by
        rintro rfl
        cases hz.symm.trans hfx
      refine ⟨x, List.mem_cons_of_mem z hx, hfx, ?_⟩
      intro y hy hlt
      by_cases hzy : z = y
      · exact hzy ▸ hz
      · rw [List.idxOf_cons_ne _ hne, List.idxOf_cons_ne _ hzy] at hlt
        exact hbefore y (List.mem_of_ne_of_mem (Ne.symm hzy) hy) (Nat.lt_of_succ_lt_succ hlt)

end Base
