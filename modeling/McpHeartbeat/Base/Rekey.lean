import Mathlib.Data.List.AList
import Mathlib.Data.List.Induction
import Mathlib.Tactic.Common

/-!
# Maps under other keys

A map whose keys are renamed, as a comprehension over its entries builds it: of two entries whose
keys get one name, the later one is kept.

* `Mapping`: finite maps with unique keys, in an order of iteration;
* `rekey`, **`lookup_rekey`**: what the renamed map holds;
* `lookup_rekey_self`: nothing is lost where the name tells the key;
* `OneVoice`, **`forall_named_iff`**: when the renamed map speaks for all entries of a name.
-/

namespace Base

variable {α β γ : Type*} [DecidableEq α] [DecidableEq β]

/-- A finite map. -/
abbrev Mapping (α γ : Type*) := AList fun _ : α => γ

/-- The map under the names that `f` gives to its keys. -/
def rekey (f : α → β) (M : Mapping α γ) : Mapping β γ :=
  M.entries.foldl (fun d e => d.insert (f e.1) e.2) ∅

/-- The last entry of the map whose key is named `b`. -/
def lastNamed (f : α → β) (M : Mapping α γ) (b : β) : Option (Sigma fun _ : α => γ) :=
  M.entries.reverse.find? fun e => f e.1 = b

omit [DecidableEq α] in
theorem lookup_insertAll (f : α → β) (b : β) (l : List (Sigma fun _ : α => γ)) :
    (l.foldl (fun d e => d.insert (f e.1) e.2) (∅ : Mapping β γ)).lookup b =
      (l.reverse.find? fun e => f e.1 = b).map Sigma.snd := by
  induction l using List.reverseRecOn with
  | nil => rfl
  | append_singleton l e ih =>
    rw [List.foldl_append, List.reverse_append, List.reverse_singleton, List.singleton_append]
    show ((_ : Mapping β γ).insert (f e.1) e.2).lookup b = _
    by_cases h : f e.1 = b
    · subst h
      rw [AList.lookup_insert, List.find?_cons_of_pos (by simp)]
      rfl
    · rw [AList.lookup_insert_ne (Ne.symm h), List.find?_cons_of_neg (by simpa using h), ih]

omit [DecidableEq α] in
/-- **A name leads to the last entry that bears it.** -/
theorem lookup_rekey (f : α → β) (M : Mapping α γ) (b : β) :
    (rekey f M).lookup b = (lastNamed f M b).map Sigma.snd := lookup_insertAll f b M.entries

theorem lookup_of_lastNamed {f : α → β} {M : Mapping α γ} {b : β} {e : Sigma fun _ : α => γ}
    (h : lastNamed f M b = some e) : f e.1 = b ∧ M.lookup e.1 = some e.2 := by
  have hname := List.find?_some h
  have hmem := List.mem_reverse.mp (List.mem_of_find?_eq_some h)
  exact ⟨by simpa using hname, AList.mem_lookup_iff.mpr hmem⟩

/-- A key of the map is named, by itself or by a later one. -/
theorem lookup_of_lastNamed_none {f : α → β} {M : Mapping α γ} {a : α}
    (h : lastNamed f M (f a) = none) : M.lookup a = none := by
  rw [Option.eq_none_iff_forall_ne_some]
  intro c hc
  have hmem : (⟨a, c⟩ : Sigma fun _ : α => γ) ∈ M.entries := AList.mem_lookup_iff.mp hc
  have hnone := List.find?_eq_none.mp h _ (List.mem_reverse.mpr hmem)
  simp at hnone

/-- The entries that bear one name carry one value. -/
def OneVoice (f : α → β) (M : Mapping α γ) (b : β) : Prop :=
  ∀ e ∈ M.entries, ∀ e' ∈ M.entries, f e.1 = b → f e'.1 = b → e.2 = e'.2

omit [DecidableEq α] in
/-- **The renamed map speaks for all entries of a name** exactly when they carry one value. -/
theorem forall_named_iff {f : α → β} {M : Mapping α γ} {b : β} {v : γ} :
    (∀ e ∈ M.entries, f e.1 = b → e.2 = v) ↔
      (∀ c ∈ (rekey f M).lookup b, c = v) ∧ OneVoice f M b := by
  rw [lookup_rekey]
  constructor
  · intro h
    refine ⟨fun c hc => ?_, fun e he e' he' hb hb' => (h e he hb).trans (h e' he' hb').symm⟩
    obtain ⟨e, hlast, rfl⟩ := Option.map_eq_some_iff.mp hc
    have hname := List.find?_some hlast
    exact h e (List.mem_reverse.mp (List.mem_of_find?_eq_some hlast)) (by simpa using hname)
  · rintro ⟨hlast, hvoice⟩ e he hb
    have hsome : (lastNamed f M b).isSome := by
      rw [lastNamed, List.find?_isSome]
      exact ⟨e, List.mem_reverse.mpr he, by simpa using hb⟩
    obtain ⟨e', he'⟩ := Option.isSome_iff_exists.mp hsome
    have hname := List.find?_some he'
    have hmem := List.mem_reverse.mp (List.mem_of_find?_eq_some he')
    rw [hvoice e he e' hmem hb (by simpa using hname)]
    exact hlast e'.2 (by rw [he']; rfl)

omit [DecidableEq α] in
/-- A name is one of the renamed map when some entry bears it. -/
theorem mem_rekey {f : α → β} {M : Mapping α γ} {b : β} :
    b ∈ rekey f M ↔ ∃ e ∈ M.entries, f e.1 = b := by
  rw [← AList.lookup_isSome, lookup_rekey, Option.isSome_map, lastNamed, List.find?_isSome]
  simp

/-- **Nothing is lost where the name tells the key.** -/
theorem lookup_rekey_self {f : α → β} {M : Mapping α γ} {a : α}
    (h : ∀ a' ∈ M, f a' = f a → a' = a) : (rekey f M).lookup (f a) = M.lookup a := by
  rw [lookup_rekey]
  cases hlast : lastNamed f M (f a) with
  | none => rw [lookup_of_lastNamed_none hlast, Option.map_none]
  | some e =>
    obtain ⟨hname, hlookup⟩ := lookup_of_lastNamed hlast
    have hmem : e.1 ∈ M := AList.lookup_isSome.mp (by rw [hlookup]; rfl)
    rw [← h e.1 hmem hname, hlookup, Option.map_some]

end Base
