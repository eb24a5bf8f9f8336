import Mathlib.Data.List.Basic
import Mathlib.Data.Nat.Digits.Defs
import Mathlib.Tactic.Common

/-!
# Texts that can be read back

Encodings of values as texts over an alphabet `α`, and when a text determines its value.

* `Stops`, `ReadsAt`: a code word followed by a stop symbol (or by nothing) can be told apart from
  what follows; `SelfDelimiting`: it can be told apart from anything that follows;
* `run_append_inj`: runs of symbols that are not stop symbols;
* `flatMap_append_inj`: a text written symbol by symbol up to a terminator;
* `tail`, `body`, **`body_append_inj`**: separated lists up to a closing symbol; `body_congr`,
  `length_body`: the same list in two codes;
* `decimal`, `decimal_injective`: decimal numerals.
-/

namespace Base

variable {α β : Type*}

/-- What follows is empty or begins with a stop symbol. -/
def Stops (stop : α → Prop) (r : List α) : Prop := ∀ c ∈ r.head?, stop c

theorem stops_nil (stop : α → Prop) : Stops stop [] := by simp [Stops]

theorem stops_cons {stop : α → Prop} {c : α} {r : List α} (h : stop c) : Stops stop (c :: r) := by
  simpa [Stops] using h

/-- Before a stop symbol, the code word of `a` is read as `a` and as nothing else. -/
def ReadsAt (stop : α → Prop) (enc : β → List α) (a : β) : Prop :=
  ∀ b r s, Stops stop r → Stops stop s → enc a ++ r = enc b ++ s → a = b ∧ r = s

/-- Code words can be read off the front of any text. -/
def SelfDelimiting (enc : β → List α) : Prop :=
  ∀ a b r s, enc a ++ r = enc b ++ s → a = b ∧ r = s

/-- A run of symbols that are not stop symbols ends where the first stop symbol stands. -/
theorem run_append_inj {stop : α → Prop} : ∀ {w w' r s : List α}, (∀ c ∈ w, ¬ stop c) →
    (∀ c ∈ w', ¬ stop c) → Stops stop r → Stops stop s → w ++ r = w' ++ s → w = w' ∧ r = s
  | [], [], _, _, _, _, _, _, h => ⟨rfl, h⟩
  | [], c :: w', r, s, _, hw', hr, _, h => by
    rw [List.nil_append, List.cons_append] at h
    subst h
    exact absurd (hr c rfl) (hw' c List.mem_cons_self)
  | c :: w, [], r, s, hw, _, _, hs, h => by
    rw [List.nil_append, List.cons_append] at h
    subst h
    exact absurd (hs c rfl) (hw c List.mem_cons_self)
  | c :: w, d :: w', r, s, hw, hw', hr, hs, h => by
    rw [List.cons_append, List.cons_append, List.cons.injEq] at h
    obtain ⟨rfl, h⟩ := h
    obtain ⟨rfl, rfl⟩ := run_append_inj (fun x hx => hw x (List.mem_cons_of_mem _ hx))
      (fun x hx => hw' x (List.mem_cons_of_mem _ hx)) hr hs h
    exact ⟨rfl, rfl⟩

/-- **A text written symbol by symbol** ends where its terminator stands, if the terminator begins
no code word. -/
theorem flatMap_append_inj {code : β → List α} {t : α} (hcode : SelfDelimiting code)
    (ht : ∀ b, ∃ c w, code b = c :: w ∧ c ≠ t) : ∀ {xs ys : List β} {r s : List α},
      xs.flatMap code ++ t :: r = ys.flatMap code ++ t :: s → xs = ys ∧ r = s
  | [], [], _, _, h => ⟨rfl, by simpa using h⟩
  | [], y :: ys, r, s, h => by
    obtain ⟨c, w, hc, hne⟩ := ht y
    rw [List.flatMap_cons, hc] at h
    simp only [List.flatMap_nil, List.nil_append, List.cons_append, List.cons.injEq] at h
    exact absurd h.1.symm hne
  | x :: xs, [], r, s, h => by
    obtain ⟨c, w, hc, hne⟩ := ht x
    rw [List.flatMap_cons, hc] at h
    simp only [List.flatMap_nil, List.nil_append, List.cons_append, List.cons.injEq] at h
    exact absurd h.1 hne
  | x :: xs, y :: ys, r, s, h => by
    rw [List.flatMap_cons, List.flatMap_cons, List.append_assoc, List.append_assoc] at h
    obtain ⟨rfl, h'⟩ := hcode x y _ _ h
    obtain ⟨rfl, rfl⟩ := flatMap_append_inj hcode ht h'
    exact ⟨rfl, rfl⟩

/-- The rest of a separated list: each item after a separator, then the closing symbol. -/
def tail (enc : β → List α) (sep close : α) : List β → List α
  | [] => [close]
  | b :: bs => sep :: (enc b ++ tail enc sep close bs)

theorem stops_tail {stop : α → Prop} {enc : β → List α} {sep close : α} (hs : stop sep)
    (hc : stop close) (bs : List β) (r : List α) : Stops stop (tail enc sep close bs ++ r) := by
  cases bs with
  | nil => exact stops_cons hc
  | cons b bs => exact stops_cons hs

/-- **Separated lists can be read back** when their items can. -/
theorem tail_append_inj {stop : α → Prop} {enc : β → List α} {sep close : α} (hne : sep ≠ close)
    (hs : stop sep) (hc : stop close) : ∀ {xs ys : List β} {r s : List α},
      (∀ a ∈ xs, ReadsAt stop enc a) → tail enc sep close xs ++ r = tail enc sep close ys ++ s →
        xs = ys ∧ r = s
  | [], [], _, _, _, h => ⟨rfl, by simpa [tail] using h⟩
  | [], y :: ys, r, s, _, h => by
    simp only [tail, List.cons_append, List.nil_append, List.cons.injEq] at h
    exact absurd h.1.symm hne
  | x :: xs, [], r, s, _, h => by
    simp only [tail, List.cons_append, List.nil_append, List.cons.injEq] at h
    exact absurd h.1 hne
  | x :: xs, y :: ys, r, s, hx, h => by
    simp only [tail, List.cons_append, List.append_assoc, List.cons.injEq, true_and] at h
    obtain ⟨rfl, h'⟩ := hx x List.mem_cons_self y _ _ (stops_tail hs hc _ _) (stops_tail hs hc _ _) h
    obtain ⟨rfl, rfl⟩ := tail_append_inj hne hs hc (fun a ha => hx a (List.mem_cons_of_mem _ ha)) h'
    exact ⟨rfl, rfl⟩

/-- A separated list: its items with separators between them, then the closing symbol. -/
def body (enc : β → List α) (sep close : α) : List β → List α
  | [] => [close]
  | b :: bs => enc b ++ tail enc sep close bs

/-- **Separated lists can be read back**, the empty one included, if no item begins with the
closing symbol. -/
theorem body_append_inj {stop : α → Prop} {enc : β → List α} {sep close : α} (hne : sep ≠ close)
    (hs : stop sep) (hc : stop close) (hhead : ∀ b, ∃ c w, enc b = c :: w ∧ c ≠ close)
    {xs ys : List β} {r s : List α} (hx : ∀ a ∈ xs, ReadsAt stop enc a)
    (h : body enc sep close xs ++ r = body enc sep close ys ++ s) : xs = ys ∧ r = s := by
  cases xs with
  | nil =>
    cases ys with
    | nil => exact ⟨rfl, by simpa [body] using h⟩
    | cons y ys =>
      obtain ⟨c, w, hy, hcl⟩ := hhead y
      simp only [body, hy, List.cons_append, List.nil_append, List.cons.injEq] at h
      exact absurd h.1.symm hcl
  | cons x xs =>
    cases ys with
    | nil =>
      obtain ⟨c, w, hy, hcl⟩ := hhead x
      simp only [body, hy, List.cons_append, List.nil_append, List.cons.injEq] at h
      exact absurd h.1 hcl
    | cons y ys =>
      simp only [body, List.append_assoc] at h
      obtain ⟨rfl, h'⟩ := hx x List.mem_cons_self y _ _ (stops_tail hs hc _ _)
        (stops_tail hs hc _ _) h
      obtain ⟨rfl, rfl⟩ := tail_append_inj hne hs hc (fun a ha => hx a (List.mem_cons_of_mem _ ha)) h'
      exact ⟨rfl, rfl⟩

/-! ## Two codes for the items of a list -/

section TwoCodes

variable {enc enc' : β → List α} {sep close : α} {bs : List β}

theorem tail_congr (h : ∀ b ∈ bs, enc b = enc' b) :
    tail enc sep close bs = tail enc' sep close bs := by
  induction bs with
  | nil => rfl
  | cons b bs ih =>
    rw [tail, tail, h b List.mem_cons_self, ih fun a ha => h a (List.mem_cons_of_mem _ ha)]

theorem body_congr (h : ∀ b ∈ bs, enc b = enc' b) :
    body enc sep close bs = body enc' sep close bs := by
  cases bs with
  | nil => rfl
  | cons b bs =>
    rw [body, body, h b List.mem_cons_self, tail_congr fun a ha => h a (List.mem_cons_of_mem _ ha)]

theorem length_tail {extra : β → ℕ}
    (h : ∀ b ∈ bs, (enc' b).length = (enc b).length + extra b) :
    (tail enc' sep close bs).length = (tail enc sep close bs).length + (bs.map extra).sum := by
  induction bs with
  | nil => rfl
  | cons b bs ih =>
    have hb := h b List.mem_cons_self
    have hbs := ih fun a ha => h a (List.mem_cons_of_mem _ ha)
    simp only [tail, List.length_cons, List.length_append, List.map_cons, List.sum_cons]
    omega

/-- **A separated list is longer by what its items are longer.** -/
theorem length_body {extra : β → ℕ}
    (h : ∀ b ∈ bs, (enc' b).length = (enc b).length + extra b) :
    (body enc' sep close bs).length = (body enc sep close bs).length + (bs.map extra).sum := by
  cases bs with
  | nil => rfl
  | cons b bs =>
    have hb := h b List.mem_cons_self
    have hbs := @length_tail _ _ _ _ sep close _ _ fun a ha => h a (List.mem_cons_of_mem _ ha)
    simp only [body, List.length_append, List.map_cons, List.sum_cons]
    omega

end TwoCodes

/-! ## Numerals -/

/-- The decimal digits of a number, most significant first. -/
def decimal (n : ℕ) : List ℕ := if n = 0 then [0] else (Nat.digits 10 n).reverse

theorem decimal_lt {n d : ℕ} (h : d ∈ decimal n) : d < 10 := by
  unfold decimal at h
  split_ifs at h with h0
  · rw [List.mem_singleton] at h
    omega
  · exact Nat.digits_lt_base (by norm_num) (List.mem_reverse.mp h)

theorem decimal_ne_nil (n : ℕ) : decimal n ≠ [] := by
  unfold decimal
  split_ifs with h0
  · exact List.cons_ne_nil _ _
  · simpa [Nat.digits_eq_nil_iff_eq_zero] using h0

theorem ofDigits_decimal (n : ℕ) : Nat.ofDigits 10 (decimal n).reverse = n := by
  unfold decimal
  split_ifs with h0
  · simp [h0]
  · rw [List.reverse_reverse, Nat.ofDigits_digits]

theorem decimal_injective : Function.Injective decimal := fun m n h => by
  rw [← ofDigits_decimal m, h, ofDigits_decimal]

end Base
