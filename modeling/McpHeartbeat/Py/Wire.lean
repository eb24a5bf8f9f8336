import Mathlib.Data.List.Induction
import Mathlib.Data.Nat.Digits.Lemmas
import McpHeartbeat.Py.Canon
import McpHeartbeat.Py.ReadBack

/-!
# Values over a wire

`json.dumps` with `ensure_ascii=True` on one side, `json.loads` on the other. The separators are the
default ones or the compact ones: the same blanks follow a comma and a colon.

* `dumpSpaced`: the text of a value; `dumpSpaced_nil`: without blanks it is `dump`;
* `Ends`: what can follow a value; `matchNumber_intText`: an integer is read up to there;
* `Yields`, `scanSeq_yields`, **`scanBetween_yields`**: a list is read back if its items are;
* `Readable`: values within the limits of an interpreter; `Readable.canon`: sorting keeps them there;
* **`yields_arr`**, **`yields_obj`**: arrays and objects, whatever blanks stand in them;
* **`scanOnce_dumpSpaced`**, **`loads_dumpSpaced`**: such a value is read back.
-/

namespace McpHeartbeat.Json

open Base

/-! ## Writing -/

section Write

variable (gap : Str)

mutual
/-- The text of a value, with `gap` after each comma and each colon. -/
def dumpSpaced : Json → Str
  | null => py "null"
  | bool true => py "true"
  | bool false => py "false"
  | int n => intText n
  | float x => x.text.map .scalar
  | str s => quoted escapeAscii s
  | arr [] => py "[]"
  | arr (x :: xs) => .scalar '[' :: (dumpSpaced x ++ dumpSpacedTail xs)
  | obj [] => py "{}"
  | obj ((k, v) :: ms) => .scalar '\x7b' ::
      (quoted escapeAscii k ++ .scalar ':' :: (gap ++ (dumpSpaced v ++ dumpSpacedMembers ms)))

/-- The items after the first one. -/
def dumpSpacedTail : List Json → Str
  | [] => [.scalar ']']
  | x :: xs => .scalar ',' :: (gap ++ (dumpSpaced x ++ dumpSpacedTail xs))

/-- The members after the first one. -/
def dumpSpacedMembers : Members → Str
  | [] => [.scalar '\x7d']
  | (k, v) :: ms => .scalar ',' :: (gap ++ (quoted escapeAscii k ++ .scalar ':' ::
      (gap ++ (dumpSpaced v ++ dumpSpacedMembers ms))))
end

/-- One member: its name, a colon and its value. -/
def memberSpaced (enc : Json → Str) (p : Str × Json) : Str :=
  quoted escapeAscii p.1 ++ .scalar ':' :: (gap ++ enc p.2)

/-- What stands in a sequence: after its opening symbol, after each comma, before its closing one. -/
structure Margins where
  opens : Str := []
  next : Str := []
  closes : Str := []

/-- Items between commas, up to the closing symbol. -/
def tailSpaced {β : Type} (m : Margins) (enc : β → Str) (close : CodePoint) : List β → Str
  | [] => m.closes ++ [close]
  | b :: bs => .scalar ',' :: (m.next ++ (enc b ++ tailSpaced m enc close bs))

/-- A sequence after its opening symbol. -/
def bodySpaced {β : Type} (m : Margins) (enc : β → Str) (close : CodePoint) : List β → Str
  | [] => [close]
  | b :: bs => m.opens ++ (enc b ++ tailSpaced m enc close bs)

variable {gap}

theorem dumpSpacedTail_eq (xs : List Json) :
    dumpSpacedTail gap xs = tailSpaced { next := gap } (dumpSpaced gap) (.scalar ']') xs := by
  induction xs with
  | nil => rw [dumpSpacedTail, tailSpaced, List.nil_append]
  | cons x xs ih => rw [dumpSpacedTail, tailSpaced, ih]

theorem dumpSpacedMembers_eq (ms : Members) :
    dumpSpacedMembers gap ms =
      tailSpaced { next := gap } (memberSpaced gap (dumpSpaced gap)) (.scalar '\x7d') ms := by
  induction ms with
  | nil => rw [dumpSpacedMembers, tailSpaced, List.nil_append]
  | cons p ms ih => simp [dumpSpacedMembers, tailSpaced, memberSpaced, ih]

theorem dumpSpaced_arr (xs : List Json) : dumpSpaced gap (arr xs) =
    .scalar '[' :: bodySpaced { next := gap } (dumpSpaced gap) (.scalar ']') xs := by
  cases xs with
  | nil => rfl
  | cons x xs => rw [dumpSpaced, dumpSpacedTail_eq, bodySpaced, List.nil_append]

theorem dumpSpaced_obj (ms : Members) : dumpSpaced gap (obj ms) =
    .scalar '\x7b' ::
      bodySpaced { next := gap } (memberSpaced gap (dumpSpaced gap)) (.scalar '\x7d') ms := by
  cases ms with
  | nil => rfl
  | cons p ms => simp [dumpSpaced, dumpSpacedMembers_eq, bodySpaced, memberSpaced]

/-- **The compact separators write what `dump` writes.** -/
theorem dumpSpaced_nil (v : Json) : dumpSpaced [] v = dump escapeAscii v := by
  have htail : ∀ {β : Type} {enc enc' : β → Str} {close : CodePoint} {bs : List β},
      (∀ b ∈ bs, enc b = enc' b) →
        tailSpaced {} enc close bs = tail enc' (.scalar ',') close bs := by
    intro β enc enc' close bs h
    induction bs with
    | nil => rfl
    | cons b bs ih =>
      rw [tailSpaced, tail, h b List.mem_cons_self, ih fun a ha => h a (List.mem_cons_of_mem _ ha),
        List.nil_append]
  have hbody : ∀ {β : Type} {enc enc' : β → Str} {close : CodePoint} {bs : List β},
      (∀ b ∈ bs, enc b = enc' b) →
        bodySpaced {} enc close bs = body enc' (.scalar ',') close bs := by
    intro β enc enc' close bs h
    cases bs with
    | nil => rfl
    | cons b bs =>
      rw [bodySpaced, body, h b List.mem_cons_self, List.nil_append,
        htail fun a ha => h a (List.mem_cons_of_mem _ ha)]
  induction v with
  | bool b => cases b <;> rfl
  | arr xs ih => rw [dumpSpaced_arr, dump_arr, hbody ih]
  | obj ms ih =>
    rw [dumpSpaced_obj, dump_obj, hbody fun p hp => ?_]
    rw [memberSpaced, dumpMember, ih p hp, List.nil_append]
  | _ => rfl

end Write

/-! ## What can follow a value -/

/-- What follows does not continue a number. -/
def Ends (r : Str) : Prop :=
  ∀ c ∈ r.head?, isDigit c = false ∧ c ≠ .scalar '.' ∧ (py "eE").contains c = false

theorem ends_nil : Ends [] := by simp [Ends]

theorem ends_cons {c : CodePoint} (hdigit : isDigit c = false) (hdot : c ≠ .scalar '.')
    (hexp : (py "eE").contains c = false) (r : Str) : Ends (c :: r) := by
  intro d hd
  obtain rfl : c = d := by simpa using hd
  exact ⟨hdigit, hdot, hexp⟩

theorem Ends.run {r : Str} (h : Ends r) {w : Str} (hw : ∀ c ∈ w, isDigit c = true) :
    (w ++ r).takeWhile isDigit = w ∧ (w ++ r).dropWhile isDigit = r := by
  have hr : r.takeWhile isDigit = [] ∧ r.dropWhile isDigit = r := by
    cases r with
    | nil => exact ⟨rfl, rfl⟩
    | cons c r => simp [(h c rfl).1]
  rw [List.takeWhile_append_of_pos hw, List.dropWhile_append_of_pos hw, hr.1, hr.2, List.append_nil]
  exact ⟨rfl, rfl⟩

theorem Ends.matchFraction {r : Str} (h : Ends r) : matchFraction r = ([], r) := by
  cases r with
  | nil => rfl
  | cons c r =>
    cases r with
    | nil => rfl
    | cons d r =>
      have hdot := (h c rfl).2.1
      simp [Json.matchFraction, hdot]

theorem Ends.matchExponent {r : Str} (h : Ends r) : matchExponent r = ([], r) := by
  cases r with
  | nil => rfl
  | cons c r =>
    have hexp := (h c rfl).2.2
    simp only [Json.matchExponent, hexp]
    simp

/-! ## Integers -/

theorem isDigit_digit : ∀ d < 10, isDigit (digit d) = true := by decide

theorem digit_ne_zero : ∀ d < 10, d ≠ 0 → digit d ≠ .scalar '0' := by decide

theorem digitChar_val : ∀ d < 10, (Nat.digitChar d).toNat - '0'.toNat = d := by decide

/-- The digits of a numeral, as digits: a leading zero only of zero itself. -/
theorem decimal_head {n d : ℕ} {l : List ℕ} (h : decimal n = d :: l) : d ≠ 0 ∨ (n = 0 ∧ l = []) := by
  unfold decimal at h
  split_ifs at h with h0
  · cases h
    exact Or.inr ⟨h0, rfl⟩
  · left
    have hlast : (Nat.digits 10 n).getLast? = some d := by
      rw [← List.head?_reverse, h, List.head?_cons]
    rw [List.getLast?_eq_some_getLast (Nat.digits_ne_nil_iff_ne_zero.mpr h0)] at hlast
    rw [← Option.some.inj hlast]
    exact Nat.getLast_digit_ne_zero 10 h0

theorem digitsVal_decimal {l : List ℕ} (hl : ∀ d ∈ l, d < 10) :
    digitsVal (l.map Nat.digitChar) = Nat.ofDigits 10 l.reverse := by
  induction l using List.reverseRecOn with
  | nil => rfl
  | append_singleton l d ih =>
    have hd := digitChar_val d (hl d (by simp))
    have hpast := ih fun x hx => hl x (List.mem_append_left _ hx)
    unfold digitsVal at hpast ⊢
    rw [List.map_append, List.foldl_append, hpast, List.reverse_append]
    simp only [List.map_cons, List.map_nil, List.foldl_cons, List.foldl_nil, List.reverse_cons,
      List.reverse_nil, List.nil_append, List.singleton_append, Nat.ofDigits_cons, hd]
    omega

theorem digitsVal_natText (n : ℕ) : digitsVal ((natText n).filterMap CodePoint.scalar?) = n := by
  have hchars : (natText n).filterMap CodePoint.scalar? = (decimal n).map Nat.digitChar := by
    rw [natText, List.filterMap_map]
    exact congrFun List.filterMap_eq_map (decimal n)
  rw [hchars, digitsVal_decimal fun d hd => decimal_lt hd, ofDigits_decimal]

theorem matchWhole_natText (n : ℕ) {r : Str} (hr : Ends r) :
    matchWhole (natText n ++ r) = some (natText n, r) := by
  cases hd : decimal n with
  | nil => exact absurd hd (decimal_ne_nil n)
  | cons d l =>
    have hlt : ∀ x ∈ d :: l, x < 10 := fun x hx => decimal_lt (hd ▸ hx)
    have htext : natText n = digit d :: l.map digit := by rw [natText, hd, List.map_cons]
    have hrest : ∀ c ∈ l.map digit, isDigit c = true := by
      intro c hc
      obtain ⟨x, hx, rfl⟩ := List.mem_map.mp hc
      exact isDigit_digit x (hlt x (List.mem_cons_of_mem _ hx))
    rw [htext, List.cons_append, matchWhole]
    rcases decimal_head hd with hne | ⟨rfl, rfl⟩
    · rw [if_neg (digit_ne_zero d (hlt d List.mem_cons_self) hne),
        if_pos (isDigit_digit d (hlt d List.mem_cons_self)), (hr.run hrest).1, (hr.run hrest).2]
    · obtain rfl : d = 0 := by
        have := hd.symm
        simpa [decimal] using this
      rfl

variable {D : Decoder}

/-- **An integer is read up to what ends it**, if its digits are within the limit. -/
theorem matchNumber_intText {n : ℤ} {r : Str} (hr : Ends r)
    (hn : D.maxStrDigits = 0 ∨ (natText n.natAbs).length ≤ D.maxStrDigits) :
    matchNumber D (intText n ++ r) = .ok (.int n, r) := by
  have hlimit : ¬ (D.maxStrDigits ≠ 0 ∧ D.maxStrDigits < (natText n.natAbs).length) := by omega
  have hsign : matchSign (intText n ++ r) =
      (if n < 0 then [.scalar '-'] else [], natText n.natAbs ++ r) := by
    cases n with
    | ofNat n =>
      obtain ⟨d, w, hd, hlt⟩ := natText_head n
      show matchSign (natText n ++ r) = _
      have hnat : (Int.ofNat n).natAbs = n := rfl
      rw [hnat, hd, List.cons_append, matchSign, if_neg (digit_ne_minus d hlt), if_neg (by simp)]
    | negSucc n =>
      show matchSign (.scalar '-' :: (natText (n + 1) ++ r)) = _
      rw [matchSign, if_pos rfl, if_pos (Int.negSucc_lt_zero n)]
      rfl
  unfold matchNumber
  rw [hsign]
  dsimp only
  rw [matchWhole_natText _ hr]
  dsimp only
  rw [hr.matchFraction]
  dsimp only
  rw [hr.matchExponent]
  dsimp only
  rw [if_neg (by simp), if_neg hlimit, digitsVal_natText]
  by_cases hneg : n < 0
  · rw [if_pos hneg, if_neg (by simp)]
    have hval : -(n.natAbs : ℤ) = n := by omega
    rw [hval]
  · rw [if_neg hneg, if_pos rfl]
    have hval : (n.natAbs : ℤ) = n := by omega
    rw [hval]

/-- No name of a value starts as an integer does. -/
theorem scanLiteral_intText (n : ℤ) (r : Str) : scanLiteral (intText n ++ r) = none := by
  have hnames : ∀ p ∈ LITERALS, ∀ d < 10, p.1.head? ≠ some (digit d) ∧
      p.1.tail.head? ≠ some (digit d) ∧ p.1.tail ≠ [] := by decide
  have hnone : ∀ p ∈ LITERALS, p.1.isPrefixOf (intText n ++ r) = false := by
    intro p hp
    rw [Bool.eq_false_iff, Ne, List.isPrefixOf_iff_prefix]
    rintro ⟨t, ht⟩
    cases n with
    | ofNat n =>
      obtain ⟨d, w, hd, hlt⟩ := natText_head n
      obtain ⟨hhead, -, htail⟩ := hnames p hp d hlt
      change p.1 ++ t = natText n ++ r at ht
      rw [hd] at ht
      cases hname : p.1 with
      | nil => simp [hname] at htail
      | cons c u =>
        rw [hname, List.cons_append, List.cons_append, List.cons.injEq] at ht
        exact hhead (by rw [hname, ht.1]; rfl)
    | negSucc n =>
      obtain ⟨d, w, hd, hlt⟩ := natText_head (n + 1)
      obtain ⟨-, hhead, htail⟩ := hnames p hp d hlt
      change p.1 ++ t = .scalar '-' :: (natText (n + 1) ++ r) at ht
      rw [hd] at ht
      cases hname : p.1.tail with
      | nil => exact htail hname
      | cons c u =>
        cases hp₁ : p.1 with
        | nil => simp [hp₁] at hname
        | cons c' u' =>
          rw [hp₁, List.tail_cons] at hname
          subst hname
          rw [hp₁] at ht
          simp only [List.cons_append, List.cons.injEq] at ht
          exact hhead (by rw [hp₁, ht.2.1]; rfl)
  rw [scanLiteral, List.find?_eq_none.mpr fun p hp => by simp [hnone p hp]]
  rfl

/-! ## Sequences -/

section Sequences

variable {α β : Type} {scan : Str → Except LoadsError (α × Str)} {close : CodePoint} {gap : Str}
  {m : Margins}

/-- Blanks, as the separators hold them. -/
def Blank (gap : Str) : Prop := ∀ c ∈ gap, (py " \t\n\r").contains c = true

theorem Blank.skipSpace (h : Blank gap) (r : Str) : skipSpace (gap ++ r) = skipSpace r := by
  unfold Json.skipSpace
  exact List.dropWhile_append_of_pos h

theorem blank_nil : Blank [] := by simp [Blank]

/-- What follows blanks ends a value if they do. -/
theorem Blank.ends (h : Blank gap) {r : Str} (hr : Ends r) : Ends (gap ++ r) := by
  have hall : ∀ c ∈ py " \t\n\r",
      isDigit c = false ∧ c ≠ .scalar '.' ∧ (py "eE").contains c = false := by decide
  cases gap with
  | nil => exact hr
  | cons c gap =>
    obtain ⟨hdigit, hdot, hexp⟩ := hall c (List.contains_iff_mem.mp (h c List.mem_cons_self))
    exact ends_cons hdigit hdot hexp _

/-- Margins that hold blanks alone. -/
structure Margins.Blank (m : Margins) : Prop where
  opens : Json.Blank m.opens
  next : Json.Blank m.next
  closes : Json.Blank m.closes

theorem Blank.margins (h : Blank gap) : Margins.Blank { next := gap } := ⟨blank_nil, h, blank_nil⟩

/-- The symbols that begin no value and no member: blanks, what closes a sequence, and the byte
order mark. -/
def NO_START : List Char := " \t\n\r]\x7d\uFEFF".toList

/-- A text that begins as a value or a member can. -/
def Begins (t : Str) : Prop := ∃ c u, t = c :: u ∧ c ∉ NO_START.map CodePoint.scalar

theorem Begins.skipSpace {t : Str} (h : Begins t) (r : Str) : skipSpace (t ++ r) = t ++ r := by
  obtain ⟨c, u, rfl, hstart⟩ := h
  have hsub : ∀ c ∈ py " \t\n\r", c ∈ NO_START.map CodePoint.scalar := by decide
  exact skipSpace_cons (fun hc => hstart (hsub c hc)) _

theorem Begins.ne_bom {t : Str} (h : Begins t) (r : Str) :
    (t ++ r).head? ≠ some (.scalar '\uFEFF') := by
  obtain ⟨c, u, rfl, hstart⟩ := h
  rw [List.cons_append, List.head?_cons]
  intro hc
  obtain rfl := Option.some.inj hc
  exact hstart (by decide)

/-- A scanner reads `x` from the text `t`, before whatever can follow a value. -/
structure Yields (scan : Str → Except LoadsError (α × Str)) (t : Str) (x : α) : Prop where
  read : ∀ r, Ends r → scan (t ++ r) = .ok (x, r)
  begins : Begins t

variable {enc : β → Str} {val : β → α}

theorem ends_tailSpaced (hm : m.Blank) (hclose : close = .scalar ']' ∨ close = .scalar '\x7d')
    (bs : List β) (r : Str) : Ends (tailSpaced m enc close bs ++ r) := by
  cases bs with
  | nil =>
    rw [tailSpaced, List.append_assoc]
    refine hm.closes.ends ?_
    rcases hclose with rfl | rfl <;> exact ends_cons (by decide) (by decide) (by decide) _
  | cons b bs => exact ends_cons (by decide) (by decide) (by decide) _

theorem length_tailSpaced (bs : List β) : bs.length < (tailSpaced m enc close bs).length := by
  induction bs with
  | nil => simp [tailSpaced]
  | cons b bs ih =>
    simp only [tailSpaced, List.length_cons, List.length_append]
    omega

variable (hm : m.Blank) (hclose : close = .scalar ']' ∨ close = .scalar '\x7d')

include hm hclose

/-- The items of a sequence are read back, each from the text of its own. -/
theorem scanSeq_yields (r : Str) {bs : List β} (hbs : ∀ b ∈ bs, Yields scan (enc b) (val b)) :
    ∀ {b : β} {fuel : ℕ}, Yields scan (enc b) (val b) → bs.length < fuel →
      scanSeq scan close fuel (enc b ++ (tailSpaced m enc close bs ++ r)) =
        .ok (val b :: bs.map val, r) := by
  have hspace : (py " \t\n\r").contains close = false := by rcases hclose with rfl | rfl <;> rfl
  have hcomma : CodePoint.scalar ',' ≠ close := by rcases hclose with rfl | rfl <;> decide
  induction bs with
  | nil =>
    intro b fuel hb hfuel
    obtain ⟨fuel, rfl⟩ := Nat.exists_eq_succ_of_ne_zero hfuel.ne'
    have hskip : skipSpace (close :: r) = close :: r := by
      rw [Json.skipSpace, List.dropWhile_cons, hspace]
      rfl
    rw [scanSeq, hb.read _ (ends_tailSpaced hm hclose [] r), tailSpaced, List.append_assoc,
      List.singleton_append]
    dsimp only
    rw [hm.closes.skipSpace, hskip]
    dsimp only
    rw [if_pos rfl]
    rfl
  | cons c bs ih =>
    intro b fuel hb hfuel
    obtain ⟨fuel, rfl⟩ := Nat.exists_eq_succ_of_ne_zero (Nat.ne_zero_of_lt hfuel)
    have hc := hbs c List.mem_cons_self
    have hrest := ih (fun a ha => hbs a (List.mem_cons_of_mem _ ha)) hc (Nat.lt_of_succ_lt_succ hfuel)
    rw [scanSeq, hb.read _ (ends_tailSpaced hm hclose (c :: bs) r), tailSpaced, List.cons_append,
      List.append_assoc, List.append_assoc]
    dsimp only
    rw [skipSpace_cons (by decide)]
    dsimp only
    rw [if_neg hcomma, if_pos rfl, hm.next.skipSpace, hc.begins.skipSpace, hrest]
    rfl

/-- **A separated list is read back if its items are.** -/
theorem scanBetween_yields {bs : List β} (hbs : ∀ b ∈ bs, Yields scan (enc b) (val b)) (r : Str) :
    scanBetween scan close (bodySpaced m enc close bs ++ r) = .ok (bs.map val, r) := by
  have hspace : (py " \t\n\r").contains close = false := by rcases hclose with rfl | rfl <;> rfl
  cases bs with
  | nil =>
    have hskip : skipSpace (close :: r) = close :: r := by
      rw [Json.skipSpace, List.dropWhile_cons, hspace]
      rfl
    rw [scanBetween, bodySpaced, List.singleton_append, hskip]
    dsimp only
    rw [if_pos rfl]
    rfl
  | cons b bs =>
    have hb := hbs b List.mem_cons_self
    have hseq := fun fuel hfuel => @scanSeq_yields α β scan close m enc val hm hclose r bs
      (fun a ha => hbs a (List.mem_cons_of_mem _ ha)) b fuel hb hfuel
    have hlength := @length_tailSpaced β close m enc bs
    rw [scanBetween, bodySpaced, List.append_assoc, List.append_assoc, hm.opens.skipSpace,
      hb.begins.skipSpace]
    obtain ⟨c, u, hu, hstart⟩ := hb.begins
    have hne : c ≠ close := by
      rintro rfl
      rcases hclose with rfl | rfl <;> exact hstart (by decide)
    rw [hu, List.cons_append] at hseq ⊢
    dsimp only
    rw [if_neg hne]
    refine hseq _ ?_
    simp only [List.length_append]
    omega

end Sequences

/-! ## Members -/

/-- A member whose name is new goes last. -/
theorem set_new {m : Members} {key : Str} (h : key ∉ m.map Prod.fst) (v : Json) :
    m.set key v = m ++ [(key, v)] := by
  have hhas : ¬ m.has key = true := by
    intro hhas
    obtain ⟨p, hp, hk⟩ := List.any_eq_true.mp hhas
    exact h (List.mem_map.mpr ⟨p, hp, beq_iff_eq.mp hk⟩)
  rw [Members.set, if_neg hhas]

/-- **Distinct names are kept as they come.** -/
theorem update_nil {ms : Members} (h : (ms.map Prod.fst).Nodup) : Members.update [] ms = ms := by
  induction ms using List.reverseRecOn with
  | nil => rfl
  | append_singleton ms p ih =>
    rw [List.map_append, List.nodup_append] at h
    have hpast : ms.foldl (fun (m : Members) p => m.set p.1 p.2) [] = ms := ih h.1
    have hnew : p.1 ∉ ms.map Prod.fst := fun hmem => h.2.2 _ hmem p.1 (by simp) rfl
    rw [Members.update, List.foldl_append, hpast]
    exact set_new hnew p.2

theorem yields_member {scan : Str → Except LoadsError (Json × Str)} {gap : Str} {enc : Json → Str}
    (hgap : Blank gap) {p : Str × Json} (hkey : Unpaired p.1) (hvalue : Yields scan (enc p.2) p.2) :
    Yields (scanPair scan) (memberSpaced gap enc p) p where
  begins := ⟨_, _, rfl, by decide⟩
  read r hr := by
    have htext : memberSpaced gap enc p ++ r = .scalar '"' :: (p.1.flatMap escapeAscii ++
        .scalar '"' :: .scalar ':' :: (gap ++ (enc p.2 ++ r))) := by
      simp [memberSpaced, quoted]
    rw [htext, scanPair, if_pos rfl, scanString_escapes, (joinPairs_eq_self_iff p.1).mpr hkey]
    dsimp only
    rw [skipSpace_cons (by decide)]
    dsimp only
    rw [if_pos rfl, hgap.skipSpace, hvalue.begins.skipSpace, hvalue.read r hr]

/-! ## Values -/

/-- An interpreter with the default limits, of which no float is read. -/
def plainDecoder : Decoder where
  depth := 1000
  depth_pos := Nat.succ_pos 999
  maxStrDigits := 4300
  readFloat _ := NAN

/-- The interpreter reads a float back from the text it gives it. -/
def ReadsFloat (D : Decoder) (x : FloatText) : Prop :=
  ∀ r, Ends r → scanValue D none (x.text.map .scalar ++ r) = .ok (.float x, r)

/-- A value within the limits of an interpreter: strings without surrogate pairs, distinct names,
integers and floats it can read, and arrays and objects no deeper than this. -/
inductive Readable (D : Decoder) : ℕ → Json → Prop
  | null (depth : ℕ) : Readable D depth .null
  | bool (depth : ℕ) (b : Bool) : Readable D depth (.bool b)
  | int (depth : ℕ) {n : ℤ}
      (hn : D.maxStrDigits = 0 ∨ (natText n.natAbs).length ≤ D.maxStrDigits) :
      Readable D depth (.int n)
  | float (depth : ℕ) {x : FloatText} (hx : ReadsFloat D x) : Readable D depth (.float x)
  | str (depth : ℕ) {s : Str} (hs : Unpaired s) : Readable D depth (.str s)
  | arr {depth : ℕ} {xs : List Json} (hxs : ∀ x ∈ xs, Readable D depth x) :
      Readable D (depth + 1) (.arr xs)
  | obj {depth : ℕ} {ms : Members} (hkeys : (ms.map Prod.fst).Nodup)
      (hnames : ∀ p ∈ ms, Unpaired p.1) (hms : ∀ p ∈ ms, Readable D depth p.2) :
      Readable D (depth + 1) (.obj ms)

/-- What is neither a string nor nested is a name or a number, at every depth. -/
theorem scanOnce_plain {c : CodePoint} (hc : c ∉ py "\"[\x7b") (depth : ℕ) (r : Str) :
    scanOnce D depth (c :: r) =
      match scanLiteral (c :: r) with
      | some p => .ok p
      | none => matchNumber D (c :: r) := by
  have hquote : c ≠ .scalar '"' := fun h => hc (by simp [h, py])
  have hbracket : c ≠ .scalar '[' := fun h => hc (by simp [h, py])
  have hbrace : c ≠ .scalar '\x7b' := fun h => hc (by simp [h, py])
  obtain ⟨inner, heq⟩ := @scanOnce_eq D depth
  rw [heq, scanValue.eq_def]
  dsimp only
  refine (if_neg hquote).trans ((if_neg hbrace).trans ((if_neg hbracket).trans ?_))
  cases scanLiteral (c :: r) <;> rfl

/-- The symbols a number begins with. -/
theorem number_start {c : Char} (h : (c.isDigit || "-NI".toList.contains c) = true) :
    CodePoint.scalar c ∉ NO_START.map CodePoint.scalar ∧ CodePoint.scalar c ∉ py "\"[\x7b" := by
  have hall : (NO_START ++ "\"[\x7b".toList).all
      (fun c => !(c.isDigit || "-NI".toList.contains c)) = true := by decide
  have hnone : ∀ c ∈ NO_START ++ "\"[\x7b".toList,
      (c.isDigit || "-NI".toList.contains c) = false := by
    simpa only [List.all_eq_true, Bool.not_eq_true'] using hall
  constructor
  · intro hc
    obtain ⟨d, hd, hdc⟩ := List.mem_map.mp hc
    obtain rfl := CodePoint.scalar.inj hdc
    exact Bool.noConfusion (h.symm.trans (hnone d (List.mem_append_left _ hd)))
  · intro hc
    obtain ⟨d, hd, hdc⟩ := List.mem_map.mp hc
    obtain rfl := CodePoint.scalar.inj hdc
    exact Bool.noConfusion (h.symm.trans (hnone d (List.mem_append_right _ hd)))

theorem digit_start : ∀ d < 10,
    ((Nat.digitChar d).isDigit || "-NI".toList.contains (Nat.digitChar d)) = true := by decide

theorem intText_head (n : ℤ) : ∃ c u, intText n = c :: u ∧ c ∉ NO_START.map CodePoint.scalar ∧
    c ∉ py "\"[\x7b" := by
  cases n with
  | ofNat n =>
    obtain ⟨d, w, hd, hlt⟩ := natText_head n
    exact ⟨_, w, hd, number_start (digit_start d hlt)⟩
  | negSucc n => exact ⟨_, _, rfl, by decide⟩

theorem yields_int (depth : ℕ) {n : ℤ}
    (hn : D.maxStrDigits = 0 ∨ (natText n.natAbs).length ≤ D.maxStrDigits) :
    Yields (scanOnce D depth) (intText n) (.int n) := by
  obtain ⟨c, u, hu, hbegins, hplain⟩ := intText_head n
  refine ⟨fun r hr => ?_, c, u, hu, hbegins⟩
  have hnumber := matchNumber_intText hr hn
  have hliteral := scanLiteral_intText n r
  rw [hu, List.cons_append] at hnumber hliteral ⊢
  rw [scanOnce_plain hplain, hliteral]
  exact hnumber

theorem float_head (x : FloatText) : ∃ c u, x.text.map CodePoint.scalar = c :: u ∧
    c ∉ NO_START.map CodePoint.scalar ∧ c ∉ py "\"[\x7b" := by
  have hlead := x.lead
  cases ht : x.text with
  | nil => simp [ht] at hlead
  | cons c u =>
    rw [ht, List.head?_cons, Option.any_some] at hlead
    exact ⟨_, _, rfl, number_start hlead⟩

theorem yields_float (depth : ℕ) {x : FloatText} (hx : ReadsFloat D x) :
    Yields (scanOnce D depth) (x.text.map .scalar) (.float x) := by
  obtain ⟨c, u, hu, hbegins, hplain⟩ := float_head x
  refine ⟨fun r hr => ?_, c, u, hu, hbegins⟩
  have hread := hx r hr
  rw [hu, List.cons_append] at hread ⊢
  rw [scanOnce_plain hplain, ← scanOnce_plain hplain 0]
  exact hread

theorem yields_null (depth : ℕ) : Yields (scanOnce D depth) (py "null") .null :=
  ⟨fun r _ => (readBack_null depth).read r, _, _, rfl, by decide⟩

theorem yields_bool (depth : ℕ) (b : Bool) :
    Yields (scanOnce D depth) (dump escapeAscii (.bool b)) (.bool b) := by
  obtain ⟨inner, heq⟩ := @scanOnce_eq D depth
  rw [heq]
  cases b <;> exact ⟨fun r _ => rfl, _, _, rfl, by decide⟩

theorem yields_str (depth : ℕ) {s : Str} (hs : Unpaired s) :
    Yields (scanOnce D depth) (quoted escapeAscii s) (.str s) := by
  refine ⟨fun r _ => ?_, _, _, rfl, by decide⟩
  have hread := (@readBack_str D depth s).read r
  rw [(joinPairs_eq_self_iff s).mpr hs] at hread
  exact hread

/-- **An array is read back if its items are.** -/
theorem yields_arr {m : Margins} (hm : m.Blank) {enc : Json → Str} {depth : ℕ} {xs : List Json}
    (hxs : ∀ x ∈ xs, Yields (scanOnce D depth) (enc x) x) :
    Yields (scanOnce D (depth + 1)) (.scalar '[' :: bodySpaced m enc (.scalar ']') xs)
      (.arr xs) := by
  refine ⟨fun r _ => ?_, _, _, rfl, by decide⟩
  have hitems : ∀ x ∈ xs, Yields (scanOnce D depth) (enc x) (id x) := hxs
  have hbetween := scanBetween_yields hm (Or.inl rfl) hitems r
  rw [List.map_id] at hbetween
  rw [List.cons_append, scanOnce, scanValue, if_neg (by decide), if_neg (by decide), if_pos rfl]
  simp only [hbetween]

/-- **An object is read back if the values of its members are.** -/
theorem yields_obj {m : Margins} (hm : m.Blank) {gap : Str} (hgap : Blank gap) {enc : Json → Str}
    {depth : ℕ} {ms : Members} (hkeys : (ms.map Prod.fst).Nodup)
    (hnames : ∀ p ∈ ms, Unpaired p.1)
    (hms : ∀ p ∈ ms, Yields (scanOnce D depth) (enc p.2) p.2) :
    Yields (scanOnce D (depth + 1))
      (.scalar '\x7b' :: bodySpaced m (memberSpaced gap enc) (.scalar '\x7d') ms) (.obj ms) := by
  refine ⟨fun r _ => ?_, _, _, rfl, by decide⟩
  have hmembers : ∀ p ∈ ms, Yields (scanPair (scanOnce D depth)) (memberSpaced gap enc p) (id p) :=
    fun p hp => yields_member hgap (hnames p hp) (hms p hp)
  have hbetween := scanBetween_yields hm (Or.inr rfl) hmembers r
  rw [List.map_id] at hbetween
  rw [List.cons_append, scanOnce, scanValue, if_neg (by decide), if_pos rfl]
  simp only [hbetween, update_nil hkeys]

/-- **A value within the limits is read back** from its text, before whatever can follow it. -/
theorem scanOnce_dumpSpaced {gap : Str} (hgap : Blank gap) {depth : ℕ} {v : Json}
    (h : Readable D depth v) : Yields (scanOnce D depth) (dumpSpaced gap v) v := by
  induction h with
  | null depth => exact yields_null depth
  | bool depth b =>
    cases b with
    | false => exact yields_bool depth false
    | true => exact yields_bool depth true
  | int depth hn => exact yields_int depth hn
  | float depth hx => exact yields_float depth hx
  | str depth hs => exact yields_str depth hs
  | @arr depth xs _ ih =>
    rw [dumpSpaced_arr]
    exact yields_arr hgap.margins ih
  | @obj depth ms hkeys hnames _ ih =>
    rw [dumpSpaced_obj]
    exact yields_obj hgap.margins hgap hkeys hnames ih

/-- **`json.loads` of a text that is read back**, blanks after the value or not. -/
theorem loads_yields {t rest : Str} (hrest : Blank rest) {v : Json}
    (h : Yields (scanOnce D D.depth) t v) : loads D (t ++ rest) = .ok v := by
  have hends : Ends rest := by
    rw [← List.append_nil rest]
    exact hrest.ends ends_nil
  have hspace : skipSpace rest = [] := by
    have := hrest.skipSpace []
    rwa [List.append_nil] at this
  rw [loads, if_neg (h.begins.ne_bom rest), h.begins.skipSpace, h.read rest hends]
  dsimp only
  rw [if_pos hspace]

/-- **`json.loads` of `json.dumps`**, blanks after the value or not. -/
theorem loads_dumpSpaced {gap rest : Str} (hgap : Blank gap) (hrest : Blank rest) {v : Json}
    (h : Readable D D.depth v) : loads D (dumpSpaced gap v ++ rest) = .ok v :=
  loads_yields hrest (scanOnce_dumpSpaced hgap h)

/-- Sorting the names of members keeps a value within the limits. -/
theorem Readable.canon {depth : ℕ} {v : Json} (h : Readable D depth v) :
    Readable D depth v.canon := by
  induction h with
  | null depth => exact .null depth
  | bool depth b => exact .bool depth b
  | int depth hn => exact .int depth hn
  | float depth hx => exact .float depth hx
  | str depth hs => exact .str depth hs
  | arr _ ih =>
    rw [canon_arr]
    exact .arr (List.forall_mem_map.mpr ih)
  | @obj depth ms hkeys hnames _ ih =>
    rw [canon_obj]
    refine .obj ?_ (fun p hp => ?_) (fun p hp => ?_)
    · refine (((sortKeys_perm _).map Prod.fst).nodup_iff).mpr ?_
      rw [List.map_map]
      exact hkeys
    · obtain ⟨q, hq, rfl⟩ := List.mem_map.mp (mem_sortKeys.mp hp)
      exact hnames q hq
    · obtain ⟨q, hq, rfl⟩ := List.mem_map.mp (mem_sortKeys.mp hp)
      exact ih q hq

end McpHeartbeat.Json
