import McpHeartbeat.Py.Loads

/-!
# `json.loads` of `json.dumps`

What was written with `ensure_ascii=True`, read back. A code point beyond the basic plane is written
as two escapes, so a string that holds the two surrogates themselves is written as that code point
is.

* `partsOf`, **`scanBody_escape`**: what is read of one code point;
* `joinPairs`: a string with its surrogate pairs made one; `Unpaired`: a string that has none
  (**`joinPairs_eq_self_iff`**);
* **`scanString_escapes`**, **`escape_joinPairs`**: a string is read back with its pairs joined, and
  is written as the joined one is;
* `ReadBack`, **`scanOnce_dump`**, **`loads_dump`**: an array is read back if its items are.
-/

namespace McpHeartbeat.Json

/-! ## Code points -/

theorem chr_val (c : CodePoint) : chr c.val = c := by
  cases c with
  | scalar c =>
    have hvalid := c.valid
    have hrange : ¬ (0xD800 ≤ c.toNat ∧ c.toNat < 0xE000) := by
      simp only [UInt32.isValidChar, Nat.isValidChar, Char.toNat] at hvalid ⊢
      omega
    rw [chr, CodePoint.val, dif_neg hrange, Char.ofNat_toNat]
  | surrogate s =>
    have hrange : 0xD800 ≤ 0xD800 + (s : ℕ) ∧ 0xD800 + (s : ℕ) < 0xE000 := by omega
    rw [chr, CodePoint.val, dif_pos hrange]
    simp

theorem hexVal_hexDigit : ∀ n < 16, hexVal (hexDigit n) = some n := by decide

theorem readUnit_hexDigit {n : ℕ} (hn : n < 0x10000) :
    readUnit (hexDigit (n / 0x1000 % 16)) (hexDigit (n / 0x100 % 16)) (hexDigit (n / 0x10 % 16))
      (hexDigit (n % 16)) = some n := by
  have hdigit : ∀ m, hexVal (hexDigit (m % 16)) = some (m % 16) := fun m =>
    hexVal_hexDigit _ (Nat.mod_lt _ (by omega))
  simp only [readUnit, hdigit, Option.bind_eq_bind, Option.bind_some, Option.pure_def,
    Option.some.injEq]
  omega

/-- The half of a surrogate pair that comes first, and the other one. -/
def highOf (n : ℕ) : ℕ := 0xD800 + (n - 0x10000) / 0x400 % 0x400

def lowOf (n : ℕ) : ℕ := 0xDC00 + (n - 0x10000) % 0x400

/-- What is read of a code point that was escaped. -/
def partsOf (c : CodePoint) : List StringPart :=
  match shortEscape c with
  | some _ => [.point c]
  | none =>
    if c.val < 0x20 then [.unit c.val]
    else if c.val < 0x7F then [.point c]
    else if c.val < 0x10000 then [.unit c.val]
    else [.unit (highOf c.val), .unit (lowOf c.val)]

theorem scanBody_quote (r : Str) : scanBody (.scalar '"' :: r) = some ([], r) := by
  rw [scanBody.eq_def]
  dsimp only
  rw [if_pos rfl]

theorem scanBody_backslash {e : CodePoint} (he : e ≠ .scalar 'u') (r : Str) :
    scanBody (.scalar '\\' :: e :: r) =
      (BACKSLASH e).bind fun d => (scanBody r).map fun p => (.point d :: p.1, p.2) := by
  rw [scanBody.eq_def]
  dsimp only
  rw [if_neg (by decide), if_pos rfl, if_neg he]

theorem scanBody_point {c : CodePoint} (hquote : c ≠ .scalar '"') (hbackslash : c ≠ .scalar '\\')
    (hcontrol : ¬ c.val < 0x20) (r : Str) :
    scanBody (c :: r) = (scanBody r).map fun p => (.point c :: p.1, p.2) := by
  rw [scanBody.eq_def]
  dsimp only
  rw [if_neg hquote, if_neg hbackslash, if_neg hcontrol]

theorem scanBody_longEscape {n : ℕ} (hn : n < 0x10000) (r : Str) :
    scanBody (longEscape n ++ r) = (scanBody r).map fun p => (.unit n :: p.1, p.2) := by
  show scanBody (.scalar '\\' :: .scalar 'u' :: _ :: _ :: _ :: _ :: r) = _
  rw [scanBody.eq_def]
  dsimp only
  rw [if_neg (by decide), if_pos rfl, if_pos rfl, readUnit_hexDigit hn, Option.bind_some]

theorem backslash_shortEscape {c e : CodePoint} (h : shortEscape c = some e) :
    BACKSLASH e = some c := by
  unfold shortEscape at h
  split_ifs at h with h₁ h₂ h₃ h₄ h₅ h₆ h₇ <;> cases h <;> subst c <;> rfl

/-- **What is read of one code point that was escaped.** -/
theorem scanBody_escape (c : CodePoint) (r : Str) : scanBody (escapeAscii c ++ r) =
    (scanBody r).map fun p => (partsOf c ++ p.1, p.2) := by
  unfold escapeAscii partsOf
  cases hc : shortEscape c with
  | some e =>
    show scanBody (.scalar '\\' :: e :: r) = _
    rw [scanBody_backslash (shortEscape_ne_u hc), backslash_shortEscape hc]
    rfl
  | none =>
    obtain ⟨hquote, hbackslash⟩ := shortEscape_none hc
    dsimp only
    split_ifs with hcontrol hascii hbasic
    · exact scanBody_longEscape (by omega) r
    · exact scanBody_point hquote hbackslash hcontrol r
    · exact scanBody_longEscape hbasic r
    · rw [List.append_assoc, scanBody_longEscape (by omega), scanBody_longEscape (by omega),
        Option.map_map]
      rfl

theorem scanBody_escapes (s r : Str) : scanBody (s.flatMap escapeAscii ++ .scalar '"' :: r) =
    some (s.flatMap partsOf, r) := by
  induction s with
  | nil => exact scanBody_quote r
  | cons c s ih =>
    rw [List.flatMap_cons, List.append_assoc, scanBody_escape, ih, List.flatMap_cons]
    rfl

/-- A string with each surrogate pair made the code point it stands for. -/
def joinPairs : Str → Str
  | [] => []
  | [c] => [c]
  | c :: d :: s =>
    if isHigh c.val && isLow d.val then joined c.val d.val :: joinPairs s
    else c :: joinPairs (d :: s)

/-- A string in which no high surrogate stands before a low one. -/
def Unpaired (s : Str) : Prop := s.IsChain fun c d => ¬ (isHigh c.val && isLow d.val) = true

instance (s : Str) : Decidable (Unpaired s) := by unfold Unpaired; infer_instance

theorem val_lt (c : CodePoint) : c.val < 0x110000 := by
  cases c with
  | scalar c =>
    have hvalid := c.valid
    simp only [UInt32.isValidChar, Nat.isValidChar, CodePoint.val, Char.toNat] at hvalid ⊢
    omega
  | surrogate s =>
    show 0xD800 + (s : ℕ) < 0x110000
    omega

theorem val_chr {n : ℕ} (hwide : 0x10000 ≤ n) (hn : n < 0x110000) : (chr n).val = n := by
  have hrange : ¬ (0xD800 ≤ n ∧ n < 0xE000) := by omega
  have hvalid : n.isValidChar := Or.inr ⟨by omega, hn⟩
  rw [chr, dif_neg hrange, CodePoint.val, Char.ofNat, dif_pos hvalid]
  rfl

theorem isHigh_iff {n : ℕ} : isHigh n = true ↔ 0xD800 ≤ n ∧ n ≤ 0xDBFF := by
  rw [isHigh, Bool.and_eq_true, decide_eq_true_eq, decide_eq_true_eq]

theorem isLow_iff {n : ℕ} : isLow n = true ↔ 0xDC00 ≤ n ∧ n ≤ 0xDFFF := by
  rw [isLow, Bool.and_eq_true, decide_eq_true_eq, decide_eq_true_eq]

/-- The halves of a code point make it up again. -/
theorem joined_halves (c : CodePoint) (hwide : 0x10000 ≤ c.val) :
    isHigh (highOf c.val) = true ∧ isLow (lowOf c.val) = true ∧
      joined (highOf c.val) (lowOf c.val) = c := by
  have hlt := val_lt c
  have hsum : 0x10000 + (highOf c.val - 0xD800) * 0x400 + (lowOf c.val - 0xDC00) = c.val := by
    unfold highOf lowOf
    omega
  refine ⟨?_, ?_, ?_⟩
  · rw [isHigh_iff, highOf]
    omega
  · rw [isLow_iff, lowOf]
    omega
  · rw [joined, hsum, chr_val]

/-- What has a short escape is ASCII. -/
theorem shortEscape_wide {c : CodePoint} (h : 0x7F ≤ c.val) : shortEscape c = none := by
  cases hc : shortEscape c with
  | none => rfl
  | some e =>
    unfold shortEscape at hc
    split_ifs at hc <;> subst c <;> exact absurd h (by decide)

theorem escape_basic {c : CodePoint} (hascii : 0x7F ≤ c.val) (hbasic : c.val < 0x10000) :
    escapeAscii c = longEscape c.val ∧ partsOf c = [.unit c.val] := by
  unfold escapeAscii partsOf
  rw [shortEscape_wide hascii]
  dsimp only
  rw [if_neg (by omega), if_neg (by omega), if_pos hbasic, if_neg (by omega), if_neg (by omega),
    if_pos hbasic]
  exact ⟨rfl, rfl⟩

theorem escape_wide {c : CodePoint} (hwide : 0x10000 ≤ c.val) :
    escapeAscii c = longEscape (highOf c.val) ++ longEscape (lowOf c.val) ∧
      partsOf c = [.unit (highOf c.val), .unit (lowOf c.val)] := by
  unfold escapeAscii partsOf
  rw [shortEscape_wide (by omega)]
  dsimp only
  rw [if_neg (by omega), if_neg (by omega), if_neg (by omega), if_neg (by omega),
    if_neg (by omega), if_neg (by omega)]
  exact ⟨rfl, rfl⟩

/-- A code point is read back, unless it and the next one are a pair. -/
theorem decodeParts_cons (c : CodePoint) (parts : List StringPart)
    (h : ∀ l r, parts = .unit l :: r → (isHigh c.val && isLow l) = false) :
    decodeParts (partsOf c ++ parts) = c :: decodeParts parts := by
  have hunit : decodeParts (.unit c.val :: parts) = c :: decodeParts parts := by
    cases parts with
    | nil =>
      show [chr c.val] = _
      rw [chr_val]
      rfl
    | cons part r =>
      cases part with
      | point d =>
        show chr c.val :: d :: decodeParts r = _
        rw [chr_val]
        rfl
      | unit l =>
        rw [decodeParts, h l r rfl, chr_val]
        rfl
  unfold partsOf
  cases hc : shortEscape c with
  | some e => rfl
  | none =>
    dsimp only
    split_ifs with hcontrol hascii hbasic
    · exact hunit
    · rfl
    · exact hunit
    · obtain ⟨hhigh, hlow, hjoined⟩ := joined_halves c (not_lt.mp hbasic)
      show decodeParts (.unit (highOf c.val) :: .unit (lowOf c.val) :: parts) = _
      rw [decodeParts, hhigh, hlow, hjoined]
      rfl

/-- The first unit of an escape is the number of its code point, or no low surrogate. -/
theorem partsOf_head {d : CodePoint} {parts r : List StringPart} {l : ℕ}
    (h : partsOf d ++ parts = .unit l :: r) : l = d.val ∨ isLow l = false := by
  unfold partsOf at h
  cases hd : shortEscape d with
  | some e =>
    rw [hd] at h
    cases h
  | none =>
    rw [hd] at h
    dsimp only at h
    split_ifs at h with hcontrol hascii hbasic
    · cases h
      exact Or.inl rfl
    · cases h
    · cases h
      exact Or.inl rfl
    · cases h
      refine Or.inr (Bool.eq_false_iff.mpr ?_)
      rw [Ne, isLow_iff, highOf]
      omega

theorem surrogate_range {c : CodePoint} (h : isHigh c.val = true ∨ isLow c.val = true) :
    0x7F ≤ c.val ∧ c.val < 0x10000 := by
  rw [isHigh_iff, isLow_iff] at h
  omega

theorem decodeParts_partsOf (s : Str) : decodeParts (s.flatMap partsOf) = joinPairs s := by
  induction s using joinPairs.induct with
  | case1 => rfl
  | case2 c =>
    rw [List.flatMap_cons, List.flatMap_nil, decodeParts_cons c [] (fun _ _ h => nomatch h)]
    rfl
  | case3 c d s hpair ih =>
    obtain ⟨hhigh, hlow⟩ := Bool.and_eq_true_iff.mp hpair
    obtain ⟨hc, hc'⟩ := surrogate_range (Or.inl hhigh)
    obtain ⟨hd, hd'⟩ := surrogate_range (Or.inr hlow)
    rw [List.flatMap_cons, List.flatMap_cons, (escape_basic hc hc').2, (escape_basic hd hd').2]
    show decodeParts (.unit c.val :: .unit d.val :: s.flatMap partsOf) = _
    rw [decodeParts, if_pos hpair, ih, joinPairs, if_pos hpair]
  | case4 c d s hpair ih =>
    rw [List.flatMap_cons, decodeParts_cons, ih, joinPairs, if_neg hpair]
    intro l r hl
    rw [List.flatMap_cons] at hl
    rcases partsOf_head hl with rfl | hlow
    · exact Bool.eq_false_iff.mpr hpair
    · rw [hlow, Bool.and_false]

theorem length_joinPairs (s : Str) : (joinPairs s).length ≤ s.length := by
  induction s using joinPairs.induct with
  | case1 | case2 => exact le_refl _
  | case3 c d s hpair ih =>
    rw [joinPairs, if_pos hpair]
    simp only [List.length_cons]
    omega
  | case4 c d s hpair ih =>
    rw [joinPairs, if_neg hpair]
    simp only [List.length_cons] at ih ⊢
    omega

theorem joinPairs_eq_self_iff (s : Str) : joinPairs s = s ↔ Unpaired s := by
  induction s using joinPairs.induct with
  | case1 => exact iff_of_true rfl .nil
  | case2 c => exact iff_of_true rfl (.singleton c)
  | case3 c d s hpair ih =>
    refine iff_of_false (fun h => ?_) fun h => (List.isChain_cons_cons.mp h).1 hpair
    have hlength := length_joinPairs s
    have heq := congrArg List.length h
    rw [joinPairs, if_pos hpair] at heq
    simp only [List.length_cons] at heq
    omega
  | case4 c d s hpair ih =>
    rw [joinPairs, if_neg hpair, List.cons.injEq, ih, Unpaired, Unpaired, List.isChain_cons_cons]
    tauto

/-- The escapes of a pair are those of its code point. -/
theorem escape_joinPairs (s : Str) : (joinPairs s).flatMap escapeAscii = s.flatMap escapeAscii := by
  induction s using joinPairs.induct with
  | case1 | case2 => rfl
  | case3 c d s hpair ih =>
    obtain ⟨hhigh, hlow⟩ := Bool.and_eq_true_iff.mp hpair
    obtain ⟨hc, hc'⟩ := surrogate_range (Or.inl hhigh)
    obtain ⟨hd, hd'⟩ := surrogate_range (Or.inr hlow)
    rw [isHigh_iff] at hhigh
    rw [isLow_iff] at hlow
    have hval : (joined c.val d.val).val =
        0x10000 + (c.val - 0xD800) * 0x400 + (d.val - 0xDC00) := val_chr (by omega) (by omega)
    have hhalves : highOf (joined c.val d.val).val = c.val ∧
        lowOf (joined c.val d.val).val = d.val := by
      rw [hval]
      unfold highOf lowOf
      omega
    rw [joinPairs, if_pos hpair, List.flatMap_cons, List.flatMap_cons, List.flatMap_cons, ih,
      (escape_wide (by omega)).1, hhalves.1, hhalves.2, (escape_basic hc hc').1,
      (escape_basic hd hd').1, List.append_assoc]
  | case4 c d s hpair ih =>
    rw [joinPairs, if_neg hpair, List.flatMap_cons, ih]
    rfl

/-- **A string that was escaped is read back with its pairs joined.** -/
theorem scanString_escapes (s r : Str) :
    scanString (s.flatMap escapeAscii ++ .scalar '"' :: r) = .ok (joinPairs s, r) := by
  rw [scanString, scanBody_escapes]
  show Except.ok (decodeParts (s.flatMap partsOf), r) = _
  rw [decodeParts_partsOf]

section Values

variable {D : Decoder} {scan : Str → Except LoadsError (Json × Str)}

/-- The text of `v` is read as `w`, whatever follows it, and starts a sequence. -/
structure ReadBack (scan : Str → Except LoadsError (Json × Str)) (v w : Json) : Prop where
  read : ∀ r, scan (dump escapeAscii v ++ r) = .ok (w, r)
  start : ∃ c u, dump escapeAscii v = c :: u ∧ c ∉ py " \t\n\r" ∧ c ≠ .scalar ']'

theorem skipSpace_cons {c : CodePoint} (h : c ∉ py " \t\n\r") (r : Str) :
    skipSpace (c :: r) = c :: r := by
  have hcontains : (py " \t\n\r").contains c = false := by
    rw [List.contains_eq_mem]
    exact decide_eq_false h
  rw [skipSpace, List.dropWhile_cons, hcontains]
  rfl

theorem ReadBack.skipSpace {v w : Json} (h : ReadBack scan v w) (r : Str) :
    skipSpace (dump escapeAscii v ++ r) = dump escapeAscii v ++ r := by
  obtain ⟨c, u, hu, hspace, -⟩ := h.start
  rw [hu, List.cons_append, skipSpace_cons hspace]

theorem length_dumpTail (esc : CodePoint → Str) : ∀ xs, xs.length < (dumpTail esc xs).length
  | [] => Nat.zero_lt_one
  | x :: xs => by
    have hlt := length_dumpTail esc xs
    rw [dumpTail]
    simp only [List.length_cons, List.length_append]
    omega

/-- The items of an array are read back, each from the text of its own. -/
theorem scanSeq_dump (r : Str) {xs ys : List Json} (hxs : List.Forall₂ (ReadBack scan) xs ys) :
    ∀ {x y : Json} {fuel : ℕ}, ReadBack scan x y → xs.length < fuel →
      scanSeq scan (.scalar ']') fuel (dump escapeAscii x ++ (dumpTail escapeAscii xs ++ r)) =
        .ok (y :: ys, r) := by
  induction hxs with
  | nil =>
    intro x y fuel hx hfuel
    obtain ⟨fuel, rfl⟩ := Nat.exists_eq_succ_of_ne_zero hfuel.ne'
    rw [scanSeq, hx.read, dumpTail, List.singleton_append]
    dsimp only
    rw [skipSpace_cons (by decide)]
    dsimp only
    rw [if_pos rfl]
  | @cons z w zs ws hz _ ih =>
    intro x y fuel hx hfuel
    obtain ⟨fuel, rfl⟩ := Nat.exists_eq_succ_of_ne_zero (Nat.ne_zero_of_lt hfuel)
    rw [scanSeq, hx.read, dumpTail, List.cons_append, List.append_assoc]
    dsimp only
    rw [skipSpace_cons (by decide)]
    dsimp only
    rw [if_neg (by decide), if_pos rfl, hz.skipSpace, ih hz (Nat.lt_of_succ_lt_succ hfuel)]

/-- **An array whose items are read back is read back.** -/
theorem scanOnce_dump {depth : ℕ} {xs ys : List Json}
    (h : List.Forall₂ (ReadBack (scanOnce D depth)) xs ys) (r : Str) :
    scanOnce D (depth + 1) (dump escapeAscii (.arr xs) ++ r) = .ok (.arr ys, r) := by
  have hbetween : scanBetween (scanOnce D depth) (.scalar ']')
      ((dump escapeAscii (.arr xs)).tail ++ r) = .ok (ys, r) := by
    cases h with
    | nil => rfl
    | @cons x y xs ys hx hxs =>
      obtain ⟨c, u, hu, -, hclose⟩ := hx.start
      show scanBetween _ _ ((dump escapeAscii x ++ dumpTail escapeAscii xs) ++ r) = _
      have hseq := fun fuel hfuel => @scanSeq_dump (scanOnce D depth) r xs ys hxs x y fuel hx hfuel
      have hlength := length_dumpTail escapeAscii xs
      rw [List.append_assoc, scanBetween, hx.skipSpace]
      rw [hu, List.cons_append] at hseq ⊢
      dsimp only
      rw [if_neg hclose]
      refine hseq _ ?_
      simp only [List.length_append]
      omega
  have hhead : dump escapeAscii (.arr xs) = .scalar '[' :: (dump escapeAscii (.arr xs)).tail := by
    cases xs <;> rfl
  rw [hhead, List.cons_append, scanOnce, scanValue, if_neg (by decide), if_neg (by decide),
    if_pos rfl]
  simp only [hbetween]

theorem scanOnce_eq (depth : ℕ) : ∃ inner, scanOnce D depth = scanValue D inner := by
  cases depth with
  | zero => exact ⟨none, rfl⟩
  | succ depth => exact ⟨some (scanOnce D depth), rfl⟩

theorem readBack_null (depth : ℕ) : ReadBack (scanOnce D depth) .null .null where
  read r := by
    obtain ⟨inner, heq⟩ := @scanOnce_eq D depth
    rw [heq]
    rfl
  start := ⟨_, _, rfl, by decide, by decide⟩

/-- **A string is read back with its pairs joined.** -/
theorem readBack_str (depth : ℕ) (s : Str) :
    ReadBack (scanOnce D depth) (.str s) (.str (joinPairs s)) where
  read r := by
    obtain ⟨inner, heq⟩ := @scanOnce_eq D depth
    rw [heq]
    show scanValue D inner (.scalar '"' :: ((s.flatMap escapeAscii ++ [.scalar '"']) ++ r)) = _
    rw [scanValue.eq_def]
    dsimp only
    rw [if_pos rfl, List.append_assoc, List.singleton_append, scanString_escapes]
  start := ⟨_, _, rfl, by decide, by decide⟩

/-- **`json.loads` of what `json.dumps` makes of an array.** -/
theorem loads_dump {xs ys : List Json}
    (h : ∀ depth, List.Forall₂ (ReadBack (scanOnce D depth)) xs ys) :
    loads D (dump escapeAscii (.arr xs)) = .ok (.arr ys) := by
  obtain ⟨depth, hdepth⟩ := Nat.exists_eq_succ_of_ne_zero D.depth_pos.ne'
  obtain ⟨u, hu⟩ : ∃ u, dump escapeAscii (.arr xs) = .scalar '[' :: u := by
    cases xs <;> exact ⟨_, rfl⟩
  have hread := scanOnce_dump (h depth) []
  rw [List.append_nil, hu] at hread
  rw [loads, hu, if_neg (by simp), skipSpace_cons (by decide), hdepth, hread]
  rfl

theorem scanOnce_nested : ∀ depth, scanOnce D depth (List.replicate (depth + 1) (.scalar '[')) =
    .error .recursionError
  | 0 => rfl
  | depth + 1 => by
    have hnested := scanOnce_nested depth
    have hskip : skipSpace (List.replicate (depth + 1) (.scalar '[')) =
        .scalar '[' :: List.replicate depth (.scalar '[') := skipSpace_cons (by decide) _
    rw [List.replicate_succ] at hnested
    rw [List.replicate_succ, scanOnce, scanValue, if_neg (by decide), if_neg (by decide),
      if_pos rfl]
    have hbetween : scanBetween (scanOnce D depth) (.scalar ']')
        (List.replicate (depth + 1) (.scalar '[')) = .error .recursionError := by
      rw [scanBetween, hskip]
      dsimp only
      rw [if_neg (by decide), scanSeq, hnested]
    simp only [hbetween]

/-- **Brackets that open deeper than an interpreter allows raise.** -/
theorem loads_nested : loads D (List.replicate (D.depth + 1) (.scalar '[')) =
    .error .recursionError := by
  have hskip : skipSpace (List.replicate (D.depth + 1) (.scalar '[')) =
      List.replicate (D.depth + 1) (.scalar '[') := skipSpace_cons (by decide) _
  rw [loads, hskip, scanOnce_nested, List.replicate_succ, if_neg (by simp)]

end Values

end McpHeartbeat.Json
