import Mathlib.Data.Finmap
import Mathlib.Data.List.Sort

/-!
# Lists with distinct keys

* `dict`: the dictionary that is filled from a list, entry by entry; **`lookup_dict`**, `dict_eq_iff`:
  with distinct keys it is the set of the entries;
* **`sorted_map_eq`**: what is read off such a list, in the order of the keys, depends on the set of what
  is read alone.
-/

namespace Base

variable {α β γ κ : Type*}

section Dict

variable [DecidableEq κ] {key : α → κ} {val : α → β} {l m : List α}

/-- The dictionary of a list. -/
def dict (key : α → κ) (val : α → β) (l : List α) : Finmap fun _ : κ => β :=
  l.foldl (fun d x => d.insert (key x) (val x)) ∅

theorem dict_concat (l : List α) (x : α) :
    dict key val (l ++ [x]) = (dict key val l).insert (key x) (val x) := List.foldl_concat ..

/-- **A dictionary of distinct keys** contains the entries of its list. -/
theorem lookup_dict (h : (l.map key).Nodup) {k : κ} {v : β} :
    (dict key val l).lookup k = some v ↔ ∃ x ∈ l, key x = k ∧ val x = v := by
  induction l using List.reverseRecOn with
  | nil =>
    refine iff_of_false ?_ ?_
    · rw [dict, List.foldl_nil, Finmap.lookup_empty]
      exact nofun
    · rintro ⟨x, hx, -⟩
      cases hx
  | append_singleton l x ih =>
    rw [List.map_append, List.nodup_append] at h
    obtain ⟨hl, -, hnew⟩ := h
    have hkey : ∀ y ∈ l, key y ≠ key x := fun y hy =>
      hnew (key y) (List.mem_map_of_mem hy) (key x) List.mem_cons_self
    rw [dict_concat]
    by_cases hk : k = key x
    · subst hk
      rw [Finmap.lookup_insert, Option.some.injEq]
      constructor
      · rintro rfl
        exact ⟨x, List.mem_concat_self, rfl, rfl⟩
      · rintro ⟨y, hy, hyk, rfl⟩
        rcases List.mem_append.mp hy with hy | hy
        · exact absurd hyk (hkey y hy)
        · rw [List.mem_singleton.mp hy]
    · rw [Finmap.lookup_insert_of_ne _ hk, ih hl]
      constructor
      · rintro ⟨y, hy, hyk⟩
        exact ⟨y, List.mem_append_left _ hy, hyk⟩
      · rintro ⟨y, hy, hyk, hyv⟩
        rcases List.mem_append.mp hy with hy | hy
        · exact ⟨y, hy, hyk, hyv⟩
        · rw [List.mem_singleton.mp hy] at hyk
          exact absurd hyk.symm hk

/-- Dictionaries of distinct keys are the same if their lists contain the same entries. -/
theorem dict_eq_iff (hl : (l.map key).Nodup) (hm : (m.map key).Nodup) :
    dict key val l = dict key val m ↔
      ∀ p, p ∈ l.map (fun x => (key x, val x)) ↔ p ∈ m.map fun x => (key x, val x) := by
  have hentry : ∀ {n : List α}, (n.map key).Nodup → ∀ k v,
      (k, v) ∈ n.map (fun x => (key x, val x)) ↔ (dict key val n).lookup k = some v := by
    intro n hn k v
    simp only [lookup_dict hn, List.mem_map, Prod.mk.injEq]
  constructor
  · rintro h ⟨k, v⟩
    rw [hentry hl, hentry hm, h]
  · intro h
    refine Finmap.ext_lookup fun k => Option.ext fun v => ?_
    rw [← hentry hl, ← hentry hm]
    exact h (k, v)

end Dict

section Sorted

variable {r : κ → κ → Prop} [DecidableRel r] [Std.Total r] [IsTrans κ r] [Std.Antisymm r]
  {g : α → β} {k : β → κ} {l m : List α}

/-- **Sorted by distinct keys**, what is read off a list depends on the set of it alone. -/
theorem sorted_map_eq (hl : ((l.map g).map k).Nodup) (hm : ((m.map g).map k).Nodup)
    (hsame : ∀ b, b ∈ l.map g ↔ b ∈ m.map g) :
    (l.insertionSort fun x y => r (k (g x)) (k (g y))).map g =
      (m.insertionSort fun x y => r (k (g x)) (k (g y))).map g := by
  have htotal : Std.Total fun x y : α => r (k (g x)) (k (g y)) := ⟨fun _ _ => Std.Total.total _ _⟩
  have htrans : IsTrans α fun x y => r (k (g x)) (k (g y)) := ⟨fun _ _ _ => IsTrans.trans _ _ _⟩
  have hperm : (l.map g).Perm (m.map g) :=
    (List.perm_ext_iff_of_nodup (List.Nodup.of_map k hl) (List.Nodup.of_map k hm)).mpr hsame
  have hsorted : ∀ n : List α,
      ((n.insertionSort fun x y => r (k (g x)) (k (g y))).map g).Pairwise
        fun a b => r (k a) (k b) := fun n =>
    List.pairwise_map.mpr (List.pairwise_insertionSort _ n)
  have hpermutes : ∀ n : List α,
      ((n.insertionSort fun x y => r (k (g x)) (k (g y))).map g).Perm (n.map g) := fun n =>
    (List.perm_insertionSort _ n).map g
  refine List.Perm.eq_of_pairwise ?_ (hsorted l) (hsorted m)
    ((hpermutes l).trans (hperm.trans (hpermutes m).symm))
  intro a b ha hb hab hba
  have ha' := (hpermutes l).mem_iff.mp ha
  have hb' := (hsame b).mpr ((hpermutes m).mem_iff.mp hb)
  exact List.inj_on_of_nodup_map hl ha' hb' (antisymm hab hba)

end Sorted

end Base
