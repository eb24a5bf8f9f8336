import Mathlib.Data.List.Basic
import Mathlib.Data.List.Triplewise
import Mathlib.Data.Set.Insert
import Mathlib.Order.Defs.Unbundled
import Mathlib.Tactic.Common

/-!
# Epoch registers and their ledgers

A register holds the last item it accepted and the set of epochs it has accepted from. Within an
epoch an item is accepted only over an item it supersedes (`rel`); a new epoch is accepted only
if no item of it was accepted before.

* `Register.Accepts`, `Register.accept`: the guard and the effect of one acceptance;
  `Register.Tracks.accepts_iff`: two registers that follow one list accept alike;
* `Ledger`: a list of items in which every epoch is one block and `rel` rises inside a block;
* **`Ledger.concat`**: a register that tracks a ledger only lets it grow into a ledger;
* `Ledger.placed`: where an earlier item stands against the last one; **`Ledger.accepts_last`**: a
  register that holds an item of a ledger accepts the last one; **`Ledger.accepts_next`**: one that
  tracks a ledger accepts what comes next in it;
* `Register.Presents`, `Register.Settled`, **`Register.Settled.present`**: the closed form of what a
  register holds after any list of items was presented to it, accepted or not.
-/

namespace Base

variable {X E : Type*} (epoch : X → E) (rel : X → X → Prop)

/-- A register of items `X` whose epochs lie in `E`. -/
structure Register (X E : Type*) where
  held : Option X
  retired : Set E

/-- **A ledger**: each epoch is one contiguous block, and `rel` rises inside a block. -/
structure Ledger (l : List X) : Prop where
  rising : l.Pairwise fun x y => epoch x = epoch y → rel x y
  blocks : l.Triplewise fun x y z => epoch x ≠ epoch y → epoch z ≠ epoch x

namespace Register

/-- The empty register. -/
def empty : Register X E := ⟨none, ∅⟩

/-- The guard of an acceptance. -/
def Accepts (R : Register X E) (x : X) : Prop :=
  match R.held with
  | none => epoch x ∉ R.retired
  | some y => epoch x = epoch y ∧ rel y x ∨ epoch x ≠ epoch y ∧ epoch x ∉ R.retired

/-- The effect of an acceptance. -/
def accept (R : Register X E) (x : X) : Register X E := ⟨some x, insert (epoch x) R.retired⟩

/-- The register holds the last item of `l` and has retired the epochs of `l`. -/
structure Tracks (R : Register X E) (l : List X) : Prop where
  held : R.held = l.getLast?
  retired : R.retired = {e | ∃ x ∈ l, epoch x = e}

theorem tracks_empty : Tracks epoch (empty : Register X E) [] := ⟨rfl, by simp [empty]⟩

variable {epoch rel} {R : Register X E} {l : List X} {x : X}

/-- The epochs of a list with one more item. -/
theorem epochs_concat (epoch : X → E) (l : List X) (x : X) :
    {e | ∃ y ∈ l ++ [x], epoch y = e} = insert (epoch x) {e | ∃ y ∈ l, epoch y = e} := by
  ext e
  simp only [Set.mem_insert_iff, Set.mem_ofPred_eq, List.mem_append, List.mem_singleton]
  constructor
  · rintro ⟨y, hy | rfl, rfl⟩
    · exact Or.inr ⟨y, hy, rfl⟩
    · exact Or.inl rfl
  · rintro (rfl | ⟨y, hy, rfl⟩)
    · exact ⟨x, Or.inr rfl, rfl⟩
    · exact ⟨y, Or.inl hy, rfl⟩

theorem Tracks.accept (h : R.Tracks epoch l) : (R.accept epoch x).Tracks epoch (l ++ [x]) where
  held := by simp [Register.accept]
  retired := by rw [Register.accept, h.retired, epochs_concat]

/-- The held item is the last one of the ledger, split off. -/
theorem Tracks.eq_concat (h : R.Tracks epoch l) {y : X} (hy : R.held = some y) :
    ∃ l', l = l' ++ [y] := by
  rw [h.held, List.getLast?_eq_some_iff] at hy
  exact hy

theorem Tracks.held_eq_none (h : R.Tracks epoch l) : R.held = none ↔ l = [] := by
  rw [h.held, List.getLast?_eq_none_iff]

theorem Tracks.retired_eq_empty (h : R.Tracks epoch l) : R.retired = ∅ ↔ l = [] := by
  rw [h.retired, Set.eq_empty_iff_forall_notMem, List.eq_nil_iff_forall_not_mem]
  simp

/-- **Two registers that follow one list** accept alike, where epochs and orders agree. -/
theorem Tracks.accepts_iff {A Y F : Type*} {epoch' : Y → F} {rel' : Y → Y → Prop}
    {R' : Register Y F} {f : A → X} {g : A → Y} {past : List A} {a : A}
    (hR : R.Tracks epoch (past.map f)) (hR' : R'.Tracks epoch' (past.map g))
    (hepoch : ∀ b ∈ past, epoch (f b) = epoch (f a) ↔ epoch' (g b) = epoch' (g a))
    (hrel : ∀ b ∈ past, rel (f b) (f a) ↔ rel' (g b) (g a)) :
    R.Accepts epoch rel (f a) ↔ R'.Accepts epoch' rel' (g a) := by
  have hretired : epoch (f a) ∈ R.retired ↔ epoch' (g a) ∈ R'.retired := by
    simp only [hR.retired, hR'.retired, Set.mem_ofPred_eq, List.mem_map, exists_exists_and_eq_and]
    exact exists_congr fun b => and_congr_right (hepoch b)
  unfold Register.Accepts
  rw [hR.held, hR'.held, List.getLast?_map, List.getLast?_map]
  cases hlast : past.getLast? with
  | none => exact not_congr hretired
  | some b =>
    have hb := List.mem_of_getLast? hlast
    have hsame : epoch (f a) = epoch (f b) ↔ epoch' (g a) = epoch' (g b) :=
      eq_comm.trans ((hepoch b hb).trans eq_comm)
    exact or_congr (and_congr hsame (hrel b hb)) (and_congr (not_congr hsame) (not_congr hretired))

end Register

namespace Ledger

variable {epoch rel} {R : Register X E} {l l₁ l₂ : List X} {x y : X}

theorem nil : Ledger epoch rel [] := ⟨List.Pairwise.nil, List.Triplewise.nil⟩

theorem of_prefix (h : Ledger epoch rel l) (hp : l₁ <+: l) : Ledger epoch rel l₁ := by
  obtain ⟨l₂, rfl⟩ := hp
  exact ⟨(List.pairwise_append.mp h.rising).1, (List.triplewise_append.mp h.blocks).1⟩

/-- A ledger grows by an item that supersedes the last one in its epoch. -/
theorem concat_same [IsTrans X rel] (h : Ledger epoch rel (l ++ [y])) (he : epoch x = epoch y)
    (hr : rel y x) : Ledger epoch rel (l ++ [y] ++ [x]) where
  rising := by
    refine List.pairwise_append.mpr ⟨h.rising, List.pairwise_singleton _ _, fun z hz w hw hzw => ?_⟩
    obtain rfl := List.mem_singleton.mp hw
    rcases List.mem_append.mp hz with hz | hz
    · have hzy := (List.pairwise_append.mp h.rising).2.2 z hz y (List.mem_singleton_self y)
      exact IsTrans.trans _ _ _ (hzy (hzw.trans he)) hr
    · obtain rfl := List.mem_singleton.mp hz
      exact hr
  blocks := by
    refine List.triplewise_append.mpr ⟨h.blocks, List.triplewise_singleton _ _,
      fun _ _ => List.pairwise_singleton _ _, fun w hw => ?_⟩
    obtain rfl := List.mem_singleton.mp hw
    -- a return to an epoch left before `y` would already have been a return at `y`
    refine List.pairwise_append.mpr ⟨?_, List.pairwise_singleton _ _, fun a _ b hb hab => ?_⟩
    · have hy := (List.triplewise_append.mp h.blocks).2.2.2 y (List.mem_singleton_self y)
      exact hy.imp fun hab hne => he ▸ hab hne
    · obtain rfl := List.mem_singleton.mp hb
      exact he ▸ Ne.symm hab

/-- A ledger grows by an item of an epoch it has not seen. -/
theorem concat_new (h : Ledger epoch rel l) (he : ∀ y ∈ l, epoch y ≠ epoch x) :
    Ledger epoch rel (l ++ [x]) where
  rising := by
    refine List.pairwise_append.mpr ⟨h.rising, List.pairwise_singleton _ _, fun z hz w hw hzw => ?_⟩
    obtain rfl := List.mem_singleton.mp hw
    exact absurd hzw (he z hz)
  blocks := by
    refine List.triplewise_append.mpr ⟨h.blocks, List.triplewise_singleton _ _,
      fun _ _ => List.pairwise_singleton _ _, fun w hw => ?_⟩
    obtain rfl := List.mem_singleton.mp hw
    exact List.pairwise_of_forall_mem_list fun a ha b _ _ => Ne.symm (he a ha)

/-- **A register only lets its ledger grow into a ledger.** -/
theorem concat [IsTrans X rel] (h : Ledger epoch rel l) (ht : R.Tracks epoch l)
    (ha : R.Accepts epoch rel x) : Ledger epoch rel (l ++ [x]) := by
  have hnew : epoch x ∉ R.retired → Ledger epoch rel (l ++ [x]) := fun hx =>
    h.concat_new fun y hy he => hx (by rw [ht.retired]; exact ⟨y, hy, he⟩)
  unfold Register.Accepts at ha
  cases hh : R.held with
  | none => rw [hh] at ha; exact hnew ha
  | some y =>
    rw [hh] at ha
    obtain ⟨l', rfl⟩ := ht.eq_concat hh
    rcases ha with ⟨he, hr⟩ | ⟨_, hx⟩
    · exact h.concat_same he hr
    · exact hnew hx

/-- **Where an earlier item stands against the last one**: it is the last one, the last one
supersedes it in its epoch, or its epoch was left and is not the last one's. -/
theorem placed (h : Ledger epoch rel (l₁ ++ x :: l₂)) (hy : (l₁ ++ x :: l₂).getLast? = some y) :
    (l₂ = [] ∧ y = x) ∨ (y ∈ l₂ ∧ epoch y = epoch x ∧ rel x y ∧ ∀ z ∈ l₂, epoch z = epoch x) ∨
      ((∃ z ∈ l₂, epoch z ≠ epoch x) ∧ epoch y ≠ epoch x) := by
  rcases List.eq_nil_or_concat l₂ with rfl | ⟨l₃, w, rfl⟩
  · left
    simpa using hy.symm
  · rw [List.concat_eq_append] at h hy ⊢
    have hwy : w = y := by simpa [List.getLast?_append, List.getLast?_cons] using hy
    subst hwy
    have hrise : ∀ z ∈ l₃ ++ [w], epoch x = epoch z → rel x z :=
      (List.pairwise_cons.mp (List.pairwise_append.mp h.rising).2.1).1
    have hpair : (l₃ ++ [w]).Pairwise fun a b => epoch x ≠ epoch a → epoch b ≠ epoch x :=
      (List.triplewise_cons.mp (List.triplewise_append.mp h.blocks).2.1).1
    have hw : w ∈ l₃ ++ [w] := by simp
    right
    by_cases hall : ∀ z ∈ l₃ ++ [w], epoch z = epoch x
    · exact Or.inl ⟨hw, hall w hw, hrise w hw (hall w hw).symm, hall⟩
    · push Not at hall
      obtain ⟨z, hz, hzx⟩ := hall
      refine Or.inr ⟨⟨z, hz, hzx⟩, ?_⟩
      rcases List.mem_append.mp hz with hz | hz
      · exact (List.pairwise_append.mp hpair).2.2 z hz w (by simp) (Ne.symm hzx)
      · obtain rfl := List.mem_singleton.mp hz
        exact hzx

/-- **A register that holds an item of a ledger accepts the last one**, unless it holds that. -/
theorem accepts_last (h : Ledger epoch rel (l₁ ++ x :: l₂))
    (hy : (l₁ ++ x :: l₂).getLast? = some y) (hx : R.held = some x)
    (hr : ∀ e ∈ R.retired, ∃ z ∈ l₁ ++ [x], epoch z = e) : y = x ∨ R.Accepts epoch rel y := by
  have haccept : epoch y = epoch x ∧ rel x y ∨ epoch y ≠ epoch x ∧ epoch y ∉ R.retired →
      R.Accepts epoch rel y := by
    intro hguard
    unfold Register.Accepts
    rwa [hx]
  rcases h.placed hy with ⟨-, rfl⟩ | ⟨-, he, hrel, -⟩ | ⟨-, hne⟩
  · exact Or.inl rfl
  · exact Or.inr (haccept (Or.inl ⟨he, hrel⟩))
  · refine Or.inr (haccept (Or.inr ⟨hne, fun hmem => ?_⟩))
    have hy₂ : y ∈ l₂ := by
      rw [List.getLast?_append_cons] at hy
      rcases List.mem_cons.mp (List.mem_of_getLast? hy) with rfl | hy₂
      · exact absurd rfl hne
      · exact hy₂
    -- an epoch retired before `x` would return at `y`
    obtain ⟨z, hz, hze⟩ := hr _ hmem
    rcases List.mem_append.mp hz with hz | hz
    · have hblock := (List.triplewise_append.mp h.blocks).2.2.1 z hz
      have hzx : epoch z ≠ epoch x := fun hzx => hne (hze.symm.trans hzx)
      exact (List.pairwise_cons.mp hblock).1 y hy₂ hzx hze.symm
    · obtain rfl := List.mem_singleton.mp hz
      exact hne hze.symm

/-- **A register that tracks a ledger accepts what comes next in it.** -/
theorem accepts_next (h : Ledger epoch rel (l ++ [x])) (ht : R.Tracks epoch l) :
    R.Accepts epoch rel x := by
  have hretired : ∀ e ∈ R.retired, ∃ z ∈ l, epoch z = e := fun e he => by rwa [ht.retired] at he
  rcases List.eq_nil_or_concat l with rfl | ⟨l', y, rfl⟩
  · have hnone : R.held = none := ht.held
    unfold Register.Accepts
    rw [hnone]
    intro he
    obtain ⟨z, hz, -⟩ := hretired _ he
    cases hz
  · rw [List.concat_eq_append] at h ht hretired
    have hheld : R.held = some y := by rw [ht.held, List.getLast?_concat]
    unfold Register.Accepts
    rw [hheld]
    by_cases he : epoch x = epoch y
    · exact Or.inl ⟨he, (List.pairwise_append.mp h.rising).2.2 y (by simp) x (by simp) he.symm⟩
    · refine Or.inr ⟨he, fun hmem => ?_⟩
      obtain ⟨z, hz, hzx⟩ := hretired _ hmem
      rcases List.mem_append.mp hz with hz | hz
      · have hpair := (List.triplewise_append.mp h.blocks).2.2.2 x (by simp)
        have hzy := (List.pairwise_append.mp hpair).2.2 z hz y (by simp)
        exact hzy (fun hzy' => he (hzx.symm.trans hzy')) hzx.symm
      · obtain rfl := List.mem_singleton.mp hz
        exact he hzx.symm

/-- A map that keeps epochs apart and the order inside them keeps ledgers. -/
theorem map {Y F : Type*} {epoch' : Y → F} {rel' : Y → Y → Prop} {f : X → Y}
    (h : Ledger epoch rel l) (he : ∀ x y, epoch' (f x) = epoch' (f y) ↔ epoch x = epoch y)
    (hr : ∀ x y, rel x y → rel' (f x) (f y)) : Ledger epoch' rel' (l.map f) where
  rising := List.pairwise_map.mpr <| h.rising.imp fun {x y} hxy => fun hf =>
    hr x y (hxy ((he x y).mp hf))
  blocks := List.triplewise_map.mpr <| h.blocks.imp fun {x y z} hxyz hne hback =>
    hxyz (fun hxy => hne ((he x y).mpr hxy)) ((he z x).mp hback)

end Ledger

/-! ## Presenting any list of items -/

namespace Register

/-- Present one item: it is accepted if the guard holds, else nothing changes. -/
inductive Presents (R : Register X E) (x : X) : Register X E → Prop
  | accept : R.Accepts epoch rel x → Presents R x (R.accept epoch x)
  | skip : ¬ R.Accepts epoch rel x → Presents R x R

/-- Epoch `e` is opened in `l` after every other epoch of `l`. -/
def OpenedLast (l : List X) (e : E) : Prop :=
  ∃ pre x post, l = pre ++ x :: post ∧ epoch x = e ∧ (∀ y ∈ pre, epoch y ≠ e) ∧
    ∀ y ∈ post, ∃ z ∈ pre ++ [x], epoch z = epoch y

/-- What a register holds after the items `l` were presented: all their epochs are retired, and
the held item is of the epoch opened last, with no item of that epoch above it. -/
structure Settled (l : List X) (R : Register X E) : Prop where
  retired : R.retired = {e | ∃ x ∈ l, epoch x = e}
  none : R.held = none → l = []
  mem : ∀ x, R.held = some x → x ∈ l
  top : ∀ x, R.held = some x → ∀ y ∈ l, epoch y = epoch x → ¬ rel x y
  last : ∀ x, R.held = some x → OpenedLast epoch l (epoch x)

variable {epoch rel} {R R' : Register X E} {l : List X} {x : X}

theorem OpenedLast.concat {e : E} (h : OpenedLast epoch l e) (hx : ∃ z ∈ l, epoch z = epoch x) :
    OpenedLast epoch (l ++ [x]) e := by
  obtain ⟨pre, w, post, rfl, hw, hpre, hpost⟩ := h
  refine ⟨pre, w, post ++ [x], by simp, hw, hpre, fun y hy => ?_⟩
  rcases List.mem_append.mp hy with hy | hy
  · exact hpost y hy
  · obtain rfl := List.mem_singleton.mp hy
    obtain ⟨z, hz, hzx⟩ := hx
    rcases List.mem_append.mp hz with hz | hz
    · exact ⟨z, List.mem_append_left _ hz, hzx⟩
    · rcases List.mem_cons.mp hz with rfl | hz
      · exact ⟨z, by simp, hzx⟩
      · obtain ⟨u, hu, huz⟩ := hpost z hz
        exact ⟨u, hu, huz.trans hzx⟩

theorem openedLast_new (hx : ∀ y ∈ l, epoch y ≠ epoch x) :
    OpenedLast epoch (l ++ [x]) (epoch x) :=
  ⟨l, x, [], rfl, rfl, hx, by simp⟩

theorem settled_empty : Settled epoch rel [] (empty : Register X E) where
  retired := by simp [empty]
  none _ := rfl
  mem x h := by simp [empty] at h
  top x h := by simp [empty] at h
  last x h := by simp [empty] at h

/-- An accepted item becomes the top of the epoch opened last. -/
theorem Settled.accept [IsTrans X rel] [Std.Irrefl rel] (h : Settled epoch rel l R)
    (ha : R.Accepts epoch rel x) : Settled epoch rel (l ++ [x]) (R.accept epoch x) := by
  -- either the epoch of `x` is new to `l`, or `x` supersedes the held top of that epoch
  have hcase : (∀ y ∈ l, epoch y ≠ epoch x) ∨
      ∃ g, R.held = some g ∧ epoch x = epoch g ∧ rel g x := by
    have hnew : epoch x ∉ R.retired → ∀ y ∈ l, epoch y ≠ epoch x := fun hx y hy he =>
      hx (by rw [h.retired]; exact ⟨y, hy, he⟩)
    unfold Accepts at ha
    cases hh : R.held with
    | none => rw [hh] at ha; exact Or.inl (hnew ha)
    | some g =>
      rw [hh] at ha
      rcases ha with ⟨he, hr⟩ | ⟨_, hx⟩
      · exact Or.inr ⟨g, rfl, he, hr⟩
      · exact Or.inl (hnew hx)
  refine ⟨?_, fun h' => by simp [Register.accept] at h', fun y hy => ?_, fun y hy z hz hzy => ?_,
    fun y hy => ?_⟩
  · rw [Register.accept, h.retired, epochs_concat]
  all_goals obtain rfl : x = y := by simpa [Register.accept] using hy
  · simp
  · rcases List.mem_append.mp hz with hz | hz
    · rcases hcase with hnew | ⟨g, hg, he, hr⟩
      · exact absurd hzy (hnew z hz)
      · exact fun hxz => h.top g hg z hz (hzy.trans he) (IsTrans.trans _ _ _ hr hxz)
    · obtain rfl := List.mem_singleton.mp hz
      exact Std.Irrefl.irrefl _
  · rcases hcase with hnew | ⟨g, hg, he, _⟩
    · exact openedLast_new hnew
    · rw [he]
      exact (h.last g hg).concat ⟨g, h.mem g hg, he.symm⟩

/-- A refused item was of an epoch already opened, and is not above the held item. -/
theorem Settled.skip (h : Settled epoch rel l R) (ha : ¬ R.Accepts epoch rel x) :
    Settled epoch rel (l ++ [x]) R := by
  have hret : epoch x ∈ R.retired := by
    by_contra hn
    unfold Accepts at ha
    cases hh : R.held with
    | none => rw [hh] at ha; exact ha hn
    | some g =>
      rw [hh] at ha
      by_cases he : epoch x = epoch g
      · apply hn
        rw [h.retired]
        exact ⟨g, h.mem g hh, he.symm⟩
      · exact ha (Or.inr ⟨he, hn⟩)
  obtain ⟨z, hz, hzx⟩ : ∃ z ∈ l, epoch z = epoch x := by rwa [h.retired] at hret
  refine ⟨?_, fun hh => ?_, fun y hy => List.mem_append_left _ (h.mem y hy), fun y hy w hw hwy => ?_,
    fun y hy => (h.last y hy).concat ⟨z, hz, hzx⟩⟩
  · rw [epochs_concat, ← h.retired, Set.insert_eq_of_mem hret]
  · rw [h.none hh] at hz
    exact absurd hz (by simp)
  · rcases List.mem_append.mp hw with hw | hw
    · exact h.top y hy w hw hwy
    · obtain rfl := List.mem_singleton.mp hw
      intro hr
      apply ha
      unfold Accepts
      rw [hy]
      exact Or.inl ⟨hwy, hr⟩

/-- **One presentation keeps the closed form.** -/
theorem Settled.present [IsTrans X rel] [Std.Irrefl rel] (h : Settled epoch rel l R)
    (hp : Presents epoch rel R x R') : Settled epoch rel (l ++ [x]) R' := by
  cases hp with
  | accept ha => exact h.accept ha
  | skip ha => exact h.skip ha

end Register

end Base
