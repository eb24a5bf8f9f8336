import Mathlib.Data.List.Lex
import Mathlib.Order.Basic
import Mathlib.Tactic.Common

/-!
# Python strings

A `str` is a sequence of code points, lone surrogates included: `json.loads` builds them from
escapes such as `\ud800`, and `str.encode("utf-8")` refuses them.

* `CodePoint`, `Str`, `py`: strings and literals;
* `Str.encode`: `str.encode("utf-8")`; `Str.WellFormed`: the strings it accepts;
* `Str.keyLe`: the order of `sorted`, by code points.
-/

namespace McpHeartbeat

/-- One code point of a `str`: a Unicode scalar value, or the lone surrogate `0xD800 + s`. -/
inductive CodePoint
  | scalar (c : Char)
  | surrogate (s : Fin 0x800)
deriving DecidableEq, Repr

namespace CodePoint

/-- `ord`. -/
def val : CodePoint → ℕ
  | scalar c => c.toNat
  | surrogate s => 0xD800 + s

theorem val_injective : Function.Injective val := by
  intro a b h
  rcases a with c | s <;> rcases b with d | t <;> simp only [val] at h
  · exact congrArg scalar (Char.toNat_inj.mp h)
  · exact absurd c.valid (by simp only [UInt32.isValidChar, Nat.isValidChar, Char.toNat] at h ⊢; omega)
  · exact absurd d.valid (by simp only [UInt32.isValidChar, Nat.isValidChar, Char.toNat] at h ⊢; omega)
  · exact congrArg surrogate (Fin.ext (by omega))

/-- The scalar value, if it is one. -/
def scalar? : CodePoint → Option Char
  | scalar c => some c
  | surrogate _ => none

end CodePoint

/-- A Python `str`. -/
abbrev Str := List CodePoint

instance : LawfulBEq Str := inferInstance

/-- A string literal of the source. -/
def py (s : String) : Str := s.toList.map .scalar

namespace Str

/-- A string without lone surrogates. -/
def WellFormed (s : Str) : Prop := ∀ c ∈ s, c.scalar?.isSome

instance (s : Str) : Decidable s.WellFormed := by unfold WellFormed; infer_instance

/-- `str.encode("utf-8")`; `none` is the `UnicodeEncodeError` of a lone surrogate. -/
def encode (s : Str) : Option ByteArray :=
  (s.mapM CodePoint.scalar?).map fun cs => (String.ofList cs).toUTF8

@[simp] theorem wellFormed_nil : WellFormed [] := by simp [WellFormed]

@[simp] theorem wellFormed_cons {c : CodePoint} {s : Str} :
    WellFormed (c :: s) ↔ c.scalar?.isSome ∧ s.WellFormed := by simp [WellFormed]

@[simp] theorem wellFormed_append {s t : Str} :
    (s ++ t).WellFormed ↔ s.WellFormed ∧ t.WellFormed := by
  simp only [WellFormed, List.mem_append, or_imp, forall_and]

theorem wellFormed_py (s : String) : (py s).WellFormed := by
  intro c hc
  obtain ⟨d, _, rfl⟩ := List.mem_map.mp hc
  rfl

theorem mapM_scalar?_isSome : ∀ s : Str, (s.mapM CodePoint.scalar?).isSome ↔ s.WellFormed
  | [] => by simp
  | c :: s => by
    have ih := mapM_scalar?_isSome s
    rw [wellFormed_cons, ← ih, List.mapM_cons]
    cases c.scalar? <;> cases s.mapM CodePoint.scalar? <;> simp

theorem mapM_scalar?_inj : ∀ {s t : Str} {cs : List Char}, s.mapM CodePoint.scalar? = some cs →
    t.mapM CodePoint.scalar? = some cs → s = t := by
  have key : ∀ {s : Str} {cs : List Char}, s.mapM CodePoint.scalar? = some cs →
      s = cs.map .scalar := by
    intro s
    induction s with
    | nil => intro cs h; simp at h; simp [h]
    | cons c s ih =>
      intro cs h
      rw [List.mapM_cons] at h
      cases c with
      | surrogate x => simp [CodePoint.scalar?] at h
      | scalar d =>
        cases hs : s.mapM CodePoint.scalar? with
        | none => simp [CodePoint.scalar?, hs] at h
        | some ds =>
          obtain rfl : d :: ds = cs := by simpa [CodePoint.scalar?, hs] using h
          rw [List.map_cons, ← ih hs]
  intro s t cs hs ht
  rw [key hs, key ht]

/-- **Encoding succeeds exactly on well-formed text.** -/
theorem encode_isSome (s : Str) : s.encode.isSome ↔ s.WellFormed := by
  rw [encode, Option.isSome_map, mapM_scalar?_isSome]

/-- **Encoding loses nothing.** -/
theorem encode_inj {s t : Str} {b : ByteArray} (hs : s.encode = some b) (ht : t.encode = some b) :
    s = t := by
  obtain ⟨cs, hcs, rfl⟩ := Option.map_eq_some_iff.mp hs
  obtain ⟨ds, hds, h⟩ := Option.map_eq_some_iff.mp ht
  have : ds = cs := String.ofList_injective (String.toByteArray_inj.mp h)
  subst this
  exact mapM_scalar?_inj hcs hds

/-- The order in which `sorted` puts strings. -/
def keyLe (s t : Str) : Prop := s.map CodePoint.val ≤ t.map CodePoint.val

instance : DecidableRel keyLe := fun s t => by unfold keyLe; infer_instance

theorem keyLe_total (s t : Str) : keyLe s t ∨ keyLe t s := le_total (s.map CodePoint.val) _

theorem keyLe_trans {s t u : Str} (h : keyLe s t) (h' : keyLe t u) : keyLe s u := le_trans h h'

theorem keyLe_antisymm {s t : Str} (h : keyLe s t) (h' : keyLe t s) : s = t :=
  List.map_injective_iff.mpr CodePoint.val_injective (le_antisymm h h')

instance : Std.Total keyLe := ⟨keyLe_total⟩

instance : IsTrans Str keyLe := ⟨fun _ _ _ => keyLe_trans⟩

instance : Std.Antisymm keyLe := ⟨fun _ _ => keyLe_antisymm⟩

end Str

end McpHeartbeat
