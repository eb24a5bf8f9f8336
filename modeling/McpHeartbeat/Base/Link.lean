import Mathlib.Logic.Relation
import McpHeartbeat.Base.Machine

/-!
# Two machines and the messages between them

Each party is a machine whose journal is what it sends. An input of a party may deliver a message of
its peer. What was sent stays deliverable: a message can be lost, duplicated, delayed and reordered,
but not forged.

* `Link`, `moveLeft`, `moveRight`, `Link.Reachable`: the joint states of two parties;
* **`Link.invariant`**: what every step of either party keeps, holds of every joint state;
* **`Link.project`**, **`Link.projectRight`**: a party that is seen as another one, reaches what that
  one reaches.
-/

namespace Base

/-- Two parties. An input of either may deliver a message of the other. -/
structure Link (σ τ ι κ μ ν : Type*) where
  left : Machine σ ι μ
  right : Machine τ κ ν
  /-- The message that an input of the left party delivers, if it delivers one. -/
  toLeft : ι → Option ν
  /-- The message that an input of the right party delivers, if it delivers one. -/
  toRight : κ → Option μ

/-- A joint state: the two parties, and what they have sent. -/
structure Joint (σ τ μ ν : Type*) where
  left : σ
  right : τ
  requests : List μ := []
  replies : List ν := []

namespace Link

variable {σ τ ι κ μ ν : Type*} (L : Link σ τ ι κ μ ν)

/-- An input of the left party. -/
def moveLeft (j : Joint σ τ μ ν) (i : ι) : Joint σ τ μ ν :=
  { j with left := L.left.next j.left i,
           requests := j.requests ++ (L.left.entry j.left i).toList }

/-- An input of the right party. -/
def moveRight (j : Joint σ τ μ ν) (k : κ) : Joint σ τ μ ν :=
  { j with right := L.right.next j.right k,
           replies := j.replies ++ (L.right.entry j.right k).toList }

/-- One step of either party. What it delivers was sent. -/
inductive Step (j : Joint σ τ μ ν) : Joint σ τ μ ν → Prop
  | left (i : ι) (sent : ∀ m, L.toLeft i = some m → m ∈ j.replies) : Step j (L.moveLeft j i)
  | right (k : κ) (sent : ∀ m, L.toRight k = some m → m ∈ j.requests) : Step j (L.moveRight j k)

/-- The joint states of two parties that have sent nothing yet. -/
def Reachable (s : σ) (t : τ) : Joint σ τ μ ν → Prop :=
  Relation.ReflTransGen L.Step { left := s, right := t }

variable {L} {s : σ} {t : τ} {j : Joint σ τ μ ν}

/-- **Invariant rule.** -/
theorem invariant {Inv : Joint σ τ μ ν → Prop} (init : Inv { left := s, right := t })
    (left : ∀ j i, Inv j → (∀ m, L.toLeft i = some m → m ∈ j.replies) → Inv (L.moveLeft j i))
    (right : ∀ j k, Inv j → (∀ m, L.toRight k = some m → m ∈ j.requests) → Inv (L.moveRight j k))
    (h : L.Reachable s t j) : Inv j := by
  induction h with
  | refl => exact init
  | tail _ step ih =>
    cases step with
    | left i sent => exact left _ i ih sent
    | right k sent => exact right _ k ih sent

/-- **Projection rule**: an input of the left party that is not selected keeps what is seen of it and
sends nothing; a selected one delivers, sends and does to what is seen what `N` does. Then the joint
states are seen as joint states of `N` and the same right party. -/
theorem project {σ' ι' : Type*} (N : Machine σ' ι' μ) {toLeft : ι' → Option ν} (view : σ → σ')
    (select : ι → Option ι')
    (hidden : ∀ s i, select i = none → view (L.left.next s i) = view s ∧ L.left.entry s i = none)
    (own : ∀ s i k, select i = some k → L.toLeft i = toLeft k ∧
      view (L.left.next s i) = N.next (view s) k ∧ L.left.entry s i = N.entry (view s) k)
    (h : L.Reachable s t j) :
    Reachable ⟨N, L.right, toLeft, L.toRight⟩ (view s) t { j with left := view j.left } := by
  induction h with
  | refl => exact .refl
  | @tail j _ _ step ih =>
    cases step with
    | left i sent =>
      cases hi : select i with
      | none =>
        obtain ⟨hnext, hentry⟩ := hidden j.left i hi
        rw [moveLeft, hnext, hentry, Option.toList_none, List.append_nil]
        exact ih
      | some k =>
        obtain ⟨hdelivers, hnext, hentry⟩ := own j.left i k hi
        rw [hdelivers] at sent
        rw [moveLeft, hnext, hentry]
        exact ih.tail (.left k sent)
    | right k sent => exact ih.tail (.right k sent)

/-- **Projection rule** for the right party. -/
theorem projectRight {τ' κ' : Type*} (N : Machine τ' κ' ν) {toRight : κ' → Option μ} (view : τ → τ')
    (select : κ → Option κ')
    (hidden : ∀ t k, select k = none → view (L.right.next t k) = view t ∧ L.right.entry t k = none)
    (own : ∀ t k k', select k = some k' → L.toRight k = toRight k' ∧
      view (L.right.next t k) = N.next (view t) k' ∧ L.right.entry t k = N.entry (view t) k')
    (h : L.Reachable s t j) :
    Reachable ⟨L.left, N, L.toLeft, toRight⟩ s (view t) { j with right := view j.right } := by
  induction h with
  | refl => exact .refl
  | @tail j _ _ step ih =>
    cases step with
    | left i sent => exact ih.tail (.left i sent)
    | right k sent =>
      cases hk : select k with
      | none =>
        obtain ⟨hnext, hentry⟩ := hidden j.right k hk
        rw [moveRight, hnext, hentry, Option.toList_none, List.append_nil]
        exact ih
      | some k' =>
        obtain ⟨hdelivers, hnext, hentry⟩ := own j.right k k' hk
        rw [hdelivers] at sent
        rw [moveRight, hnext, hentry]
        exact ih.tail (.right k' sent)

end Link

end Base
