import McpHeartbeat.Py.Json

/-!
# The text of a JSON value determines the value

Provided that strings are escaped by a self-delimiting code that never begins with a quote
(**`selfDelimiting_escape`** for `ensure_ascii=False`), the text of a value is read back before a
comma, a closing bracket or the end (**`readsAt_dump`**), so that no two values share a text
(**`dump_injective`**).
-/

namespace McpHeartbeat.Json

open Base

/-- The symbols that can follow a value inside a text. -/
def isStop (c : CodePoint) : Prop := c = .scalar ',' ∨ c = .scalar ']' ∨ c = .scalar '\x7d'

theorem isStop_comma : isStop (.scalar ',') := Or.inl rfl
theorem isStop_bracket : isStop (.scalar ']') := Or.inr (Or.inl rfl)
theorem isStop_brace : isStop (.scalar '\x7d') := Or.inr (Or.inr rfl)
theorem comma_ne_bracket : CodePoint.scalar ',' ≠ .scalar ']' := by decide
theorem comma_ne_brace : CodePoint.scalar ',' ≠ .scalar '\x7d' := by decide

/-! ## Escapes -/

theorem hexDigit_inj : ∀ m < 16, ∀ n < 16, hexDigit m = hexDigit n → m = n := by decide

theorem longEscape_inj {m n : ℕ} (hm : m < 0x10000) (hn : n < 0x10000)
    (h : longEscape m = longEscape n) : m = n := by
  simp only [longEscape, List.cons.injEq, and_true, true_and] at h
  obtain ⟨h₃, h₂, h₁, h₀⟩ := h
  have e₃ := hexDigit_inj _ (by omega) _ (by omega) h₃
  have e₂ := hexDigit_inj _ (by omega) _ (by omega) h₂
  have e₁ := hexDigit_inj _ (by omega) _ (by omega) h₁
  have e₀ := hexDigit_inj _ (by omega) _ (by omega) h₀
  omega

/-- The code point a two-character escape stands for. -/
def unescape (e : CodePoint) : CodePoint :=
  if e = .scalar 'n' then .scalar '\n'
  else if e = .scalar 'r' then .scalar '\r'
  else if e = .scalar 't' then .scalar '\t'
  else if e = .scalar 'f' then .scalar '\x0c'
  else if e = .scalar 'b' then .scalar '\x08'
  else e

theorem unescape_shortEscape {c e : CodePoint} (h : shortEscape c = some e) : unescape e = c := by
  unfold shortEscape at h
  split_ifs at h with h₁ h₂ h₃ h₄ h₅ h₆ h₇ <;> cases h <;> subst c <;> rfl

theorem shortEscape_inj {c d e : CodePoint} (hc : shortEscape c = some e)
    (hd : shortEscape d = some e) : c = d :=
  (unescape_shortEscape hc).symm.trans (unescape_shortEscape hd)

theorem shortEscape_ne_u {c e : CodePoint} (h : shortEscape c = some e) : e ≠ .scalar 'u' := by
  unfold shortEscape at h
  split_ifs at h <;> cases h <;> decide

theorem shortEscape_none {c : CodePoint} (h : shortEscape c = none) :
    c ≠ .scalar '"' ∧ c ≠ .scalar '\\' := by
  unfold shortEscape at h
  split_ifs at h with h₁ h₂
  exact ⟨h₁, h₂⟩

/-- The three forms of an escaped code point. -/
theorem escape_cases (c : CodePoint) :
    (∃ e, shortEscape c = some e ∧ escape c = [.scalar '\\', e]) ∨
      (c.val < 0x20 ∧ escape c = longEscape c.val) ∨
      (c ≠ .scalar '"' ∧ c ≠ .scalar '\\' ∧ escape c = [c]) := by
  unfold escape
  cases h : shortEscape c with
  | some e => exact Or.inl ⟨e, rfl, rfl⟩
  | none =>
    obtain ⟨hq, hb⟩ := shortEscape_none h
    dsimp only
    by_cases hv : c.val < 0x20
    · exact Or.inr (Or.inl ⟨hv, if_pos hv⟩)
    · exact Or.inr (Or.inr ⟨hq, hb, if_neg hv⟩)

/-- **Escaped code points can be read off the front of any text.** -/
theorem selfDelimiting_escape : SelfDelimiting escape := by
  intro c d r s h
  rcases escape_cases c with ⟨e, hc, ec⟩ | ⟨hc, ec⟩ | ⟨_, hc, ec⟩ <;>
    rcases escape_cases d with ⟨f, hd, ed⟩ | ⟨hd, ed⟩ | ⟨_, hd, ed⟩ <;> rw [ec, ed] at h
  · simp only [List.cons_append, List.nil_append, List.cons.injEq, true_and] at h
    exact ⟨shortEscape_inj hc (h.1 ▸ hd), h.2⟩
  · simp only [longEscape, List.cons_append, List.nil_append, List.cons.injEq, true_and] at h
    exact absurd h.1 (shortEscape_ne_u hc)
  · simp only [List.cons_append, List.nil_append, List.cons.injEq] at h
    exact absurd h.1.symm hd
  · simp only [longEscape, List.cons_append, List.nil_append, List.cons.injEq, true_and] at h
    exact absurd h.1.symm (shortEscape_ne_u hd)
  · obtain ⟨h', rfl⟩ := List.append_inj h rfl
    exact ⟨CodePoint.val_injective (longEscape_inj (by omega) (by omega) h'), rfl⟩
  · simp only [longEscape, List.cons_append, List.nil_append, List.cons.injEq] at h
    exact absurd h.1.symm hd
  · simp only [List.cons_append, List.nil_append, List.cons.injEq] at h
    exact absurd h.1 hc
  · simp only [longEscape, List.cons_append, List.nil_append, List.cons.injEq] at h
    exact absurd h.1 hc
  · simp only [List.cons_append, List.nil_append, List.cons.injEq] at h
    exact h

theorem escape_ne_quote (c : CodePoint) : ∃ d w, escape c = d :: w ∧ d ≠ .scalar '"' := by
  rcases escape_cases c with ⟨e, _, h⟩ | ⟨_, h⟩ | ⟨hq, _, h⟩ <;> rw [h]
  · exact ⟨_, _, rfl, by decide⟩
  · exact ⟨_, _, rfl, by decide⟩
  · exact ⟨c, [], rfl, hq⟩

/-! ## Numbers -/

theorem digit_inj : ∀ m < 10, ∀ n < 10, digit m = digit n → m = n := by decide

theorem map_digit_inj : ∀ {l l' : List ℕ}, (∀ d ∈ l, d < 10) → (∀ d ∈ l', d < 10) →
    l.map digit = l'.map digit → l = l'
  | [], [], _, _, _ => rfl
  | [], d :: l', _, _, h => by simp at h
  | d :: l, [], _, _, h => by simp at h
  | d :: l, d' :: l', hl, hl', h => by
    rw [List.map_cons, List.map_cons, List.cons.injEq] at h
    rw [digit_inj d (hl d List.mem_cons_self) d' (hl' d' List.mem_cons_self) h.1,
      map_digit_inj (fun x hx => hl x (List.mem_cons_of_mem _ hx))
        (fun x hx => hl' x (List.mem_cons_of_mem _ hx)) h.2]

theorem natText_inj {m n : ℕ} (h : natText m = natText n) : m = n :=
  decimal_injective (map_digit_inj (fun _ => decimal_lt) (fun _ => decimal_lt) h)

/-- The symbols of the text of an `int`. -/
def isIntSymbol (c : CodePoint) : Bool :=
  match c with
  | .scalar c => c.isDigit || c == '-'
  | .surrogate _ => false

theorem isIntSymbol_digit : ∀ d < 10, isIntSymbol (digit d) = true := by decide

theorem digit_ne_minus : ∀ d < 10, digit d ≠ .scalar '-' := by decide

theorem natText_symbols (n : ℕ) : ∀ c ∈ natText n, isIntSymbol c = true := by
  intro c hc
  obtain ⟨d, hd, rfl⟩ := List.mem_map.mp hc
  exact isIntSymbol_digit d (decimal_lt hd)

theorem intText_symbols (n : ℤ) : ∀ c ∈ intText n, isIntSymbol c = true := by
  cases n with
  | ofNat n => exact natText_symbols n
  | negSucc n =>
    intro c hc
    rcases List.mem_cons.mp hc with rfl | hc
    · decide
    · exact natText_symbols _ c hc

theorem natText_head (n : ℕ) : ∃ d w, natText n = digit d :: w ∧ d < 10 := by
  cases h : decimal n with
  | nil => exact absurd h (decimal_ne_nil n)
  | cons d l => exact ⟨d, l.map digit, by rw [natText, h, List.map_cons], decimal_lt (by rw [h]; simp)⟩

theorem intText_inj {m n : ℤ} (h : intText m = intText n) : m = n := by
  have key : ∀ a b : ℕ, natText a ≠ .scalar '-' :: natText b := fun a b hab => by
    obtain ⟨d, w, hd, hlt⟩ := natText_head a
    rw [hd, List.cons.injEq] at hab
    exact digit_ne_minus d hlt hab.1
  cases m with
  | ofNat m =>
    cases n with
    | ofNat n => rw [natText_inj h]
    | negSucc n => exact absurd h (key _ _)
  | negSucc m =>
    cases n with
    | ofNat n => exact absurd h.symm (key _ _)
    | negSucc n =>
      have := natText_inj (List.cons.inj h).2
      simp only [Nat.add_right_cancel_iff] at this
      rw [this]

theorem not_stop_of_int {c : CodePoint} (h : isIntSymbol c = true) : ¬ isStop c := by
  rintro (rfl | rfl | rfl) <;> revert h <;> decide

theorem not_stop_of_float {c : Char} (h : isFloatSymbol c = true) : ¬ isStop (.scalar c) := by
  rintro (h' | h' | h') <;> cases h' <;> revert h <;> decide

theorem float_symbols (x : FloatText) :
    ∀ c ∈ x.text.map CodePoint.scalar, ¬ isStop c := by
  intro c hc
  obtain ⟨d, hd, rfl⟩ := List.mem_map.mp hc
  exact not_stop_of_float (List.all_eq_true.mp x.symbols d hd)

theorem float_inj {x y : FloatText} (h : x.text.map CodePoint.scalar = y.text.map .scalar) :
    x = y := by
  have ht : x.text = y.text := List.map_injective_iff.mpr (fun _ _ => CodePoint.scalar.inj) h
  cases x
  cases y
  cases ht
  rfl

/-- No float is written as an integer is. -/
theorem intText_ne_float (n : ℤ) (x : FloatText) : intText n ≠ x.text.map .scalar := by
  intro h
  obtain ⟨c, hc, hn⟩ := List.any_eq_true.mp x.notInt
  have hs := intText_symbols n (.scalar c) (by rw [h]; exact List.mem_map_of_mem hc)
  simp only [isIntSymbol] at hs
  rw [hs] at hn
  exact Bool.noConfusion hn

/-! ## The first symbol of a text -/

/-- The kind of a value, by the first symbol of its text. -/
def kind : Json → ℕ
  | null => 0
  | bool true => 1
  | bool false => 2
  | int _ => 3
  | float _ => 3
  | str _ => 4
  | arr _ => 5
  | obj _ => 6

/-- The kind of value a text beginning with `c` stands for. -/
def kindOf (c : CodePoint) : ℕ :=
  if c = .scalar 'n' then 0
  else if c = .scalar 't' then 1
  else if c = .scalar 'f' then 2
  else if c = .scalar '"' then 4
  else if c = .scalar '[' then 5
  else if c = .scalar '\x7b' then 6
  else if c = .scalar ']' then 7
  else 3

theorem kindOf_digit : ∀ d < 10, kindOf (digit d) = 3 := by decide

theorem kindOf_float {c : Char} (h : (c.isDigit || "-NI".toList.contains c) = true) :
    kindOf (.scalar c) = 3 := by
  unfold kindOf
  split_ifs with h₁ h₂ h₃ h₄ h₅ h₆ h₇ <;> first | rfl | skip
  all_goals exfalso
  · cases h₁; revert h; decide
  · cases h₂; revert h; decide
  · cases h₃; revert h; decide
  · cases h₄; revert h; decide
  · cases h₅; revert h; decide
  · cases h₆; revert h; decide
  · cases h₇; revert h; decide

variable {esc : CodePoint → Str}

theorem dump_head (v : Json) : ∃ c w, dump esc v = c :: w ∧ kindOf c = kind v := by
  cases v with
  | null => exact ⟨_, _, rfl, rfl⟩
  | bool b => cases b <;> exact ⟨_, _, rfl, rfl⟩
  | int n =>
    rw [dump]
    cases n with
    | ofNat n =>
      obtain ⟨d, w, hd, hlt⟩ := natText_head n
      exact ⟨_, w, hd, kindOf_digit d hlt⟩
    | negSucc n => exact ⟨_, _, rfl, rfl⟩
  | float x =>
    rw [dump]
    have hl := x.lead
    cases ht : x.text with
    | nil => rw [ht] at hl; exact Bool.noConfusion hl
    | cons c w => rw [ht] at hl; exact ⟨_, _, rfl, kindOf_float hl⟩
  | str s =>
    rw [dump]
    exact ⟨_, _, rfl, rfl⟩
  | arr xs =>
    cases xs with
    | nil => exact ⟨_, _, rfl, rfl⟩
    | cons x xs =>
      rw [dump]
      exact ⟨_, _, rfl, rfl⟩
  | obj ms =>
    cases ms with
    | nil => exact ⟨_, _, rfl, rfl⟩
    | cons p ms =>
      rw [dump]
      exact ⟨_, _, rfl, rfl⟩

/-- Equal texts begin values of one kind. -/
theorem kind_eq {a b : Json} {r s : Str} (h : dump esc a ++ r = dump esc b ++ s) :
    kind a = kind b := by
  obtain ⟨c, w, hc, hk⟩ := @dump_head esc a
  obtain ⟨d, u, hd, hl⟩ := @dump_head esc b
  rw [hc, hd, List.cons_append, List.cons_append, List.cons.injEq] at h
  rw [← hk, ← hl, h.1]

/-! ## Reading a text back -/

section Read

/-- One member of an object: its name, a colon and its value. -/
def dumpMember (esc : CodePoint → Str) (p : Str × Json) : Str :=
  quoted esc p.1 ++ .scalar ':' :: dump esc p.2

/-- No text begins with a closing bracket. -/
theorem dump_ne_bracket (v : Json) : ∃ c w, dump esc v = c :: w ∧ c ≠ .scalar ']' := by
  obtain ⟨c, w, hc, hk⟩ := @dump_head esc v
  refine ⟨c, w, hc, fun h => ?_⟩
  subst h
  have h7 : kindOf (.scalar ']') = 7 := rfl
  rw [h7] at hk
  cases v with
  | bool b => cases b <;> exact absurd hk (by simp [kind])
  | _ => exact absurd hk (by simp [kind])

theorem dumpMember_ne_brace (p : Str × Json) :
    ∃ c w, dumpMember esc p = c :: w ∧ c ≠ .scalar '\x7d' := ⟨_, _, rfl, by decide⟩

theorem dumpTail_eq : ∀ xs, dumpTail esc xs = tail (dump esc) (.scalar ',') (.scalar ']') xs
  | [] => by rw [dumpTail, tail]
  | x :: xs => by rw [dumpTail, tail, dumpTail_eq xs]

theorem dumpMembers_eq : ∀ ms,
    dumpMembers esc ms = tail (dumpMember esc) (.scalar ',') (.scalar '\x7d') ms
  | [] => by rw [dumpMembers, tail]
  | (k, v) :: ms => by
    rw [dumpMembers, tail, dumpMembers_eq ms, dumpMember, List.append_assoc, List.cons_append]

theorem dump_arr (xs : List Json) :
    dump esc (arr xs) = .scalar '[' :: body (dump esc) (.scalar ',') (.scalar ']') xs := by
  cases xs with
  | nil => rfl
  | cons x xs => rw [dump, dumpTail_eq, body]

theorem dump_obj (ms : Members) :
    dump esc (obj ms) = .scalar '\x7b' :: body (dumpMember esc) (.scalar ',') (.scalar '\x7d') ms := by
  cases ms with
  | nil => rfl
  | cons p ms => rw [dump, dumpMembers_eq, body, dumpMember, List.append_assoc, List.cons_append]

variable (hesc : SelfDelimiting esc) (hquote : ∀ c, ∃ d w, esc c = d :: w ∧ d ≠ .scalar '"')

include hesc hquote in
theorem quoted_append_inj {s t r r' : Str} (h : quoted esc s ++ r = quoted esc t ++ r') :
    s = t ∧ r = r' := by
  simp only [quoted, List.cons_append, List.append_assoc, List.nil_append, List.cons.injEq,
    true_and] at h
  exact flatMap_append_inj hesc hquote h

include hesc hquote in
theorem readsAt_member {p : Str × Json} (hp : ReadsAt isStop (dump esc) p.2) :
    ReadsAt isStop (dumpMember esc) p := by
  rintro ⟨k, v⟩ r s hr hs h
  simp only [dumpMember, List.append_assoc, List.cons_append] at h
  obtain ⟨hk, h'⟩ := quoted_append_inj hesc hquote h
  obtain ⟨hv, rfl⟩ := hp v r s hr hs (List.cons.inj h').2
  exact ⟨Prod.ext hk hv, rfl⟩

/-- An integer is read back: its symbols are no stops. -/
theorem readsAt_int (m : ℤ) : ReadsAt isStop (dump esc) (int m) := by
  intro b r s hr hs h
  have hm : ∀ c ∈ intText m, ¬ isStop c := fun c hc => not_stop_of_int (intText_symbols m c hc)
  cases b with
  | int n =>
    rw [dump, dump] at h
    obtain ⟨h', hrs⟩ := run_append_inj hm
      (fun c hc => not_stop_of_int (intText_symbols n c hc)) hr hs h
    exact ⟨by rw [intText_inj h'], hrs⟩
  | float x =>
    rw [dump, dump] at h
    exact absurd (run_append_inj hm (float_symbols x) hr hs h).1 (intText_ne_float m x)
  | bool b => cases b <;> exact absurd (kind_eq h) (by simp [kind])
  | _ => exact absurd (kind_eq h) (by simp [kind])

/-- A float is read back, and is never taken for an integer. -/
theorem readsAt_float (x : FloatText) : ReadsAt isStop (dump esc) (float x) := by
  intro b r s hr hs h
  cases b with
  | int n =>
    rw [dump, dump] at h
    have hn : ∀ c ∈ intText n, ¬ isStop c := fun c hc => not_stop_of_int (intText_symbols n c hc)
    exact absurd (run_append_inj (float_symbols x) hn hr hs h).1.symm (intText_ne_float n x)
  | float y =>
    rw [dump, dump] at h
    obtain ⟨h', hrs⟩ := run_append_inj (float_symbols x) (float_symbols y) hr hs h
    exact ⟨by rw [float_inj h'], hrs⟩
  | bool b => cases b <;> exact absurd (kind_eq h) (by simp [kind])
  | _ => exact absurd (kind_eq h) (by simp [kind])

include hesc hquote in
/-- **A text is read back before a stop symbol.** -/
theorem readsAt_dump (a : Json) : ReadsAt isStop (dump esc) a := by
  induction a with
  | null =>
    intro b r s _ _ h
    cases b with
    | null => exact ⟨rfl, List.append_cancel_left h⟩
    | bool b => cases b <;> exact absurd (kind_eq h) (by simp [kind])
    | _ => exact absurd (kind_eq h) (by simp [kind])
  | bool a =>
    intro b r s _ _ h
    cases b with
    | bool b =>
      cases a <;> cases b <;> first
        | exact ⟨rfl, List.append_cancel_left h⟩
        | exact absurd (kind_eq h) (by simp [kind])
    | _ => cases a <;> exact absurd (kind_eq h) (by simp [kind])
  | int m => exact readsAt_int m
  | float x => exact readsAt_float x
  | str t =>
    intro b r s _ _ h
    cases b with
    | str u =>
      rw [dump, dump] at h
      obtain ⟨rfl, hrs⟩ := quoted_append_inj hesc hquote h
      exact ⟨rfl, hrs⟩
    | bool b => cases b <;> exact absurd (kind_eq h) (by simp [kind])
    | _ => exact absurd (kind_eq h) (by simp [kind])
  | arr xs ih =>
    intro b r s _ _ h
    cases b with
    | arr ys =>
      rw [dump_arr, dump_arr, List.cons_append, List.cons_append, List.cons.injEq] at h
      obtain ⟨rfl, hrs⟩ := body_append_inj comma_ne_bracket isStop_comma
        isStop_bracket dump_ne_bracket ih h.2
      exact ⟨rfl, hrs⟩
    | bool b => cases b <;> exact absurd (kind_eq h) (by simp [kind])
    | _ => exact absurd (kind_eq h) (by simp [kind])
  | obj ms ih =>
    intro b r s _ _ h
    have hm : ∀ p ∈ ms, ReadsAt isStop (dumpMember esc) p := fun p hp =>
      readsAt_member hesc hquote (ih p hp)
    cases b with
    | obj ns =>
      rw [dump_obj, dump_obj, List.cons_append, List.cons_append, List.cons.injEq] at h
      obtain ⟨rfl, hrs⟩ := body_append_inj comma_ne_brace isStop_comma
        isStop_brace dumpMember_ne_brace hm h.2
      exact ⟨rfl, hrs⟩
    | bool b => cases b <;> exact absurd (kind_eq h) (by simp [kind])
    | _ => exact absurd (kind_eq h) (by simp [kind])

include hesc hquote in
/-- **The text of a value determines the value.** -/
theorem dump_injective : Function.Injective (dump esc) := fun a b h =>
  (readsAt_dump hesc hquote a b [] [] (stops_nil _) (stops_nil _) (congrArg (· ++ []) h)).1

end Read

/-- With `ensure_ascii=False` the text of a value determines the value. -/
theorem dump_escape_injective : Function.Injective (dump escape) :=
  dump_injective selfDelimiting_escape escape_ne_quote

instance : DecidableEq Json := fun a b =>
  decidable_of_iff (dump escape a = dump escape b) dump_escape_injective.eq_iff

instance : DecidableRel Same := fun a b => decidable_of_iff (a.canon = b.canon) Iff.rfl

end McpHeartbeat.Json
