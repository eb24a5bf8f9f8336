import Mathlib.Tactic.Common

/-!
# Trees, level by level

A tree whose nodes have any number of children.

* `Rose`: trees; `Rose.Within`: a label at any depth;
* `Rose.walk`, `Rose.breadthFirst`: the labels in the order of a queue;
* **`Rose.mem_breadthFirst`**: the walk visits every node, and nothing else.
-/

namespace Base

/-- A label, and the subtrees below it. -/
inductive Rose (α : Type*)
  | node (a : α) (children : List (Rose α))

namespace Rose

variable {α : Type*}

/-- The label of some node of the tree. -/
inductive Within (x : α) : Rose α → Prop
  | here (children : List (Rose α)) : Within x (.node x children)
  | deeper {a : α} {children : List (Rose α)} {c : Rose α} (mem : c ∈ children)
      (within : Within x c) : Within x (.node a children)

theorem within_node {x a : α} {children : List (Rose α)} :
    Within x (.node a children) ↔ x = a ∨ ∃ c ∈ children, Within x c := by
  constructor
  · intro h
    cases h with
    | here => exact Or.inl rfl
    | deeper mem within => exact Or.inr ⟨_, mem, within⟩
  · rintro (rfl | ⟨c, mem, within⟩)
    · exact .here children
    · exact .deeper mem within

mutual

/-- The number of nodes. -/
def size : Rose α → ℕ
  | .node _ children => sizeAll children + 1

/-- The number of nodes of a list of trees. -/
def sizeAll : List (Rose α) → ℕ
  | [] => 0
  | t :: ts => size t + sizeAll ts

end

theorem sizeAll_append (ts us : List (Rose α)) : sizeAll (ts ++ us) = sizeAll ts + sizeAll us := by
  induction ts with
  | nil => simp [sizeAll]
  | cons t ts ih => simp [sizeAll, ih, Nat.add_assoc]

/-- A walk with a queue, of as many nodes as the fuel allows. -/
def walk : ℕ → List (Rose α) → List α
  | 0, _ => []
  | _ + 1, [] => []
  | fuel + 1, .node a children :: queue => a :: walk fuel (queue ++ children)

/-- The labels of a tree, level by level. -/
def breadthFirst (t : Rose α) : List α := walk t.size [t]

/-- A walk with fuel for its whole queue visits every node below it. -/
theorem mem_walk {x : α} : ∀ (fuel : ℕ) (queue : List (Rose α)), sizeAll queue ≤ fuel →
    (x ∈ walk fuel queue ↔ ∃ t ∈ queue, Within x t)
  | 0, [], _ => by simp [walk]
  | 0, .node _ _ :: _, h => by simp [sizeAll, size] at h
  | _ + 1, [], _ => by simp [walk]
  | fuel + 1, .node a children :: queue, h => by
    have hfuel : sizeAll (queue ++ children) ≤ fuel := by
      rw [sizeAll_append]
      simp only [sizeAll, size] at h
      omega
    rw [walk, List.mem_cons, mem_walk fuel (queue ++ children) hfuel]
    constructor
    · rintro (rfl | ⟨t, ht, hwithin⟩)
      · exact ⟨_, List.mem_cons_self, .here children⟩
      · rcases List.mem_append.mp ht with ht | ht
        · exact ⟨t, List.mem_cons_of_mem _ ht, hwithin⟩
        · exact ⟨_, List.mem_cons_self, .deeper ht hwithin⟩
    · rintro ⟨t, ht, hwithin⟩
      rcases List.mem_cons.mp ht with rfl | ht
      · rcases within_node.mp hwithin with rfl | ⟨c, hc, hwithin⟩
        · exact Or.inl rfl
        · exact Or.inr ⟨c, List.mem_append_right _ hc, hwithin⟩
      · exact Or.inr ⟨t, List.mem_append_left _ ht, hwithin⟩

/-- **The walk visits the nodes of the tree**, all of them. -/
theorem mem_breadthFirst {x : α} {t : Rose α} : x ∈ t.breadthFirst ↔ Within x t := by
  have hfuel : sizeAll [t] ≤ t.size := by simp [sizeAll]
  rw [breadthFirst, mem_walk _ _ hfuel]
  simp

end Rose

end Base
