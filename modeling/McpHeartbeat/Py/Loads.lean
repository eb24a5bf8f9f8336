import McpHeartbeat.Py.Convert
import McpHeartbeat.Py.Dump

/-!
# `json.loads`

The value that is read from a text, or the error that is raised.

* `scanBody`, `decodeParts`: a string up to its closing quote; two `\u` escapes that stand next to
  each other can be one code point;
* `matchNumber`, `scanLiteral`: numbers and names; `scanSeq`: items between commas;
* `scanValue`, `scanOnce`: a value, by recursion on how deep arrays and objects can still nest;
* **`loads`**, the errors of which are `LoadsError`;
* **`loads_ne_outOfFuel`**: its loops end by themselves, as every item uses up a part of the text.
-/

namespace McpHeartbeat

/-- `chr`, of a number that is one of a code point. -/
def chr (n : ℕ) : CodePoint :=
  if h : 0xD800 ≤ n ∧ n < 0xE000 then .surrogate ⟨n - 0xD800, by omega⟩ else .scalar (Char.ofNat n)

/-- What an interpreter sets for `json.loads`: how deep arrays and objects can nest, the digits of
an `int` (`sys.get_int_max_str_digits()`, zero for no limit), and how a `float` is read and shown. -/
structure Decoder where
  depth : ℕ
  depth_pos : 0 < depth
  maxStrDigits : ℕ
  readFloat : Str → FloatText

/-- How `json.loads` ends without a value. A `JSONDecodeError` is a `ValueError`. -/
inductive LoadsError
  | valueError
  | recursionError
  | outOfFuel
deriving DecidableEq

namespace Json

/-- `[ \t\n\r]*`. -/
def skipSpace (s : Str) : Str := s.dropWhile fun c => (py " \t\n\r").contains c

/-! ## Strings -/

/-- The value of a hexadecimal digit. -/
def hexVal : CodePoint → Option ℕ
  | .surrogate _ => none
  | .scalar c =>
    if c.isDigit then some (c.toNat - '0'.toNat)
    else if "abcdef".toList.contains c then some (c.toNat - 'a'.toNat + 10)
    else if "ABCDEF".toList.contains c then some (c.toNat - 'A'.toNat + 10)
    else none

/-- `_decode_uXXXX`. -/
def readUnit (h₃ h₂ h₁ h₀ : CodePoint) : Option ℕ := do
  let n₃ ← hexVal h₃
  let n₂ ← hexVal h₂
  let n₁ ← hexVal h₁
  let n₀ ← hexVal h₀
  return ((n₃ * 16 + n₂) * 16 + n₁) * 16 + n₀

/-- `BACKSLASH`. -/
def BACKSLASH (e : CodePoint) : Option CodePoint :=
  if e ∈ py "\"\\/bfnrt" then some (unescape e) else none

/-- A part of a string: a code point, or the number of a `\u` escape. -/
inductive StringPart
  | point (c : CodePoint)
  | unit (n : ℕ)
deriving DecidableEq

/-- A string up to its closing quote, and the rest: control characters are refused. -/
def scanBody : Str → Option (List StringPart × Str)
  | [] => none
  | c :: r =>
    if c = .scalar '"' then some ([], r)
    else if c = .scalar '\\' then
      match r with
      | [] => none
      | e :: r =>
        if e = .scalar 'u' then
          match r with
          | h₃ :: h₂ :: h₁ :: h₀ :: r =>
            (readUnit h₃ h₂ h₁ h₀).bind fun n =>
              (scanBody r).map fun p => (.unit n :: p.1, p.2)
          | _ => none
        else (BACKSLASH e).bind fun d => (scanBody r).map fun p => (.point d :: p.1, p.2)
    else if c.val < 0x20 then none
    else (scanBody r).map fun p => (.point c :: p.1, p.2)

/-- `0xD800` to `0xDBFF`. -/
def isHigh (n : ℕ) : Bool := 0xD800 ≤ n && n ≤ 0xDBFF

/-- `0xDC00` to `0xDFFF`. -/
def isLow (n : ℕ) : Bool := 0xDC00 ≤ n && n ≤ 0xDFFF

/-- The code point of a surrogate pair. -/
def joined (high low : ℕ) : CodePoint := chr (0x10000 + (high - 0xD800) * 0x400 + (low - 0xDC00))

/-- The code points of a string: an escape of a high surrogate joins that of a low one. -/
def decodeParts : List StringPart → Str
  | [] => []
  | .point c :: r => c :: decodeParts r
  | .unit h :: .unit l :: r =>
    if isHigh h && isLow l then joined h l :: decodeParts r
    else chr h :: decodeParts (.unit l :: r)
  | .unit h :: r => chr h :: decodeParts r

/-- `scanstring`. -/
def scanString (s : Str) : Except LoadsError (Str × Str) :=
  match scanBody s with
  | none => .error .valueError
  | some (parts, rest) => .ok (decodeParts parts, rest)

/-! ## Names and numbers -/

def NAN : FloatText := ⟨"NaN".toList, by decide, by decide, by decide⟩

/-- The names of values. -/
def LITERALS : List (Str × Json) :=
  [(py "null", .null), (py "true", .bool true), (py "false", .bool false),
    (py "NaN", .float NAN),
    (py "Infinity", .float ⟨"Infinity".toList, by decide, by decide, by decide⟩),
    (py "-Infinity", .float ⟨"-Infinity".toList, by decide, by decide, by decide⟩)]

/-- A value that has a name, and the rest. -/
def scanLiteral (s : Str) : Option (Json × Str) :=
  (LITERALS.find? fun p => p.1.isPrefixOf s).map fun p => (p.2, s.drop p.1.length)

/-- `[0-9]`. -/
def isDigit : CodePoint → Bool
  | .scalar c => c.isDigit
  | .surrogate _ => false

/-- `-?`, and the rest. -/
def matchSign : Str → Str × Str
  | [] => ([], [])
  | c :: r => if c = .scalar '-' then ([c], r) else ([], c :: r)

/-- `0|[1-9][0-9]*`, and the rest. -/
def matchWhole : Str → Option (Str × Str)
  | [] => none
  | c :: r =>
    if c = .scalar '0' then some ([c], r)
    else if isDigit c then some (c :: r.takeWhile isDigit, r.dropWhile isDigit)
    else none

/-- `(\.[0-9]+)?`, and the rest. -/
def matchFraction : Str → Str × Str
  | c :: d :: r =>
    if c = .scalar '.' ∧ isDigit d then
      (c :: d :: r.takeWhile isDigit, r.dropWhile isDigit)
    else ([], c :: d :: r)
  | r => ([], r)

/-- `([eE][-+]?[0-9]+)?`, and the rest. -/
def matchExponent : Str → Str × Str
  | [] => ([], [])
  | e :: s =>
    let sign := s.take 1 |>.filter fun c => (py "+-").contains c
    let digits := (s.drop sign.length).takeWhile isDigit
    if (py "eE").contains e ∧ digits ≠ [] then
      (e :: sign ++ digits, (s.drop sign.length).dropWhile isDigit)
    else ([], e :: s)

variable (D : Decoder)

/-- `_match_number`. -/
def matchNumber (s : Str) : Except LoadsError (Json × Str) :=
  let (sign, magnitude) := matchSign s
  match matchWhole magnitude with
  | none => .error .valueError
  | some (whole, afterWhole) =>
    let (fraction, afterFraction) := matchFraction afterWhole
    let (exponent, rest) := matchExponent afterFraction
    if fraction ≠ [] ∨ exponent ≠ [] then
      .ok (.float (D.readFloat (sign ++ whole ++ fraction ++ exponent)), rest)
    else if D.maxStrDigits ≠ 0 ∧ D.maxStrDigits < whole.length then .error .valueError
    else
      let n : ℤ := digitsVal (whole.filterMap CodePoint.scalar?)
      .ok (.int (if sign = [] then n else -n), rest)

/-! ## Values -/

/-- Items between commas, up to a closing symbol, and the rest. -/
def scanSeq {α : Type} (scan : Str → Except LoadsError (α × Str)) (close : CodePoint) :
    ℕ → Str → Except LoadsError (List α × Str)
  | 0, _ => .error .outOfFuel
  | fuel + 1, s =>
    match scan s with
    | .error e => .error e
    | .ok (x, r) =>
      match skipSpace r with
      | [] => .error .valueError
      | c :: r =>
        if c = close then .ok ([x], r)
        else if c = .scalar ',' then
          match scanSeq scan close fuel (skipSpace r) with
          | .error e => .error e
          | .ok (xs, r) => .ok (x :: xs, r)
        else .error .valueError

/-- A sequence that may be empty, after its opening symbol. -/
def scanBetween {α : Type} (scan : Str → Except LoadsError (α × Str)) (close : CodePoint)
    (s : Str) : Except LoadsError (List α × Str) :=
  match skipSpace s with
  | [] => .error .valueError
  | c :: r => if c = close then .ok ([], r) else scanSeq scan close (r.length + 2) (c :: r)

/-- A name, a colon and a value. -/
def scanPair (scan : Str → Except LoadsError (Json × Str)) :
    Str → Except LoadsError ((Str × Json) × Str)
  | [] => .error .valueError
  | c :: r =>
    if c = .scalar '"' then
      match scanString r with
      | .error e => .error e
      | .ok (key, r) =>
        match skipSpace r with
        | [] => .error .valueError
        | c :: r =>
          if c = .scalar ':' then
            match scan (skipSpace r) with
            | .error e => .error e
            | .ok (v, r) => .ok ((key, v), r)
          else .error .valueError
    else .error .valueError

/-- `scan_once`, with `inner` for what is nested, if anything can still be. Of two members of one
name, the last counts. -/
def scanValue (inner : Option (Str → Except LoadsError (Json × Str))) :
    Str → Except LoadsError (Json × Str)
  | [] => .error .valueError
  | c :: r =>
    if c = .scalar '"' then
      match scanString r with
      | .error e => .error e
      | .ok (s, r) => .ok (.str s, r)
    else if c = .scalar '\x7b' then
      match inner with
      | none => .error .recursionError
      | some scan =>
        match scanBetween (scanPair scan) (.scalar '\x7d') r with
        | .error e => .error e
        | .ok (pairs, r) => .ok (.obj (Members.update [] pairs), r)
    else if c = .scalar '[' then
      match inner with
      | none => .error .recursionError
      | some scan =>
        match scanBetween scan (.scalar ']') r with
        | .error e => .error e
        | .ok (xs, r) => .ok (.arr xs, r)
    else
      match scanLiteral (c :: r) with
      | some p => .ok p
      | none => matchNumber D (c :: r)

/-- `scan_once`, where arrays and objects can still nest this deep. -/
def scanOnce : ℕ → Str → Except LoadsError (Json × Str)
  | 0 => scanValue D none
  | depth + 1 => scanValue D (some (scanOnce depth))

/-- `json.loads`: a byte order mark is refused, and so is anything after the value but space. -/
def loads (raw : Str) : Except LoadsError Json :=
  if raw.head? = some (.scalar '\uFEFF') then .error .valueError
  else
    match scanOnce D D.depth (skipSpace raw) with
    | .error e => .error e
    | .ok (v, r) => if skipSpace r = [] then .ok v else .error .valueError

/-! ## The loops end by themselves -/

/-- A scan of `s` has ended: with an error that is one of `json.loads`, or with a rest that is
shorter. -/
def Advanced {α : Type} (s : Str) : Except LoadsError (α × Str) → Prop
  | .error e => e ≠ .outOfFuel
  | .ok (_, r) => r.length < s.length

/-- A scanner that uses up a part of its text. -/
def Advances {α : Type} (scan : Str → Except LoadsError (α × Str)) : Prop :=
  ∀ s, Advanced s (scan s)

theorem advanced_valueError {α : Type} (s : Str) :
    Advanced s (.error .valueError : Except LoadsError (α × Str)) := by
  rintro ⟨⟩

theorem advanced_recursionError {α : Type} (s : Str) :
    Advanced s (.error .recursionError : Except LoadsError (α × Str)) := by
  rintro ⟨⟩

section Results

variable {α : Type} {scan : Str → Except LoadsError (α × Str)} {s r : Str}

theorem Advances.error (h : Advances scan) {e : LoadsError} (hs : scan s = .error e) :
    e ≠ .outOfFuel := by
  have hadvanced := h s
  rw [hs] at hadvanced
  exact hadvanced

theorem Advances.shorter (h : Advances scan) {x : α} (hs : scan s = .ok (x, r)) :
    r.length < s.length := by
  have hadvanced := h s
  rw [hs] at hadvanced
  exact hadvanced

end Results

theorem length_dropWhile (p : CodePoint → Bool) (s : Str) : (s.dropWhile p).length ≤ s.length :=
  (List.dropWhile_suffix p).length_le

theorem length_skipSpace (s : Str) : (skipSpace s).length ≤ s.length := length_dropWhile _ s

theorem scanBody_shorter {s r : Str} {parts : List StringPart} (h : scanBody s = some (parts, r)) :
    r.length < s.length := by
  -- what follows a part is scanned in its turn
  have hpart : ∀ {x : StringPart} {s : Str} {o : Option (List StringPart × Str)}
      {parts : List StringPart}, (∀ {parts}, o = some (parts, r) → r.length < s.length) →
      (o.map fun p => (x :: p.1, p.2)) = some (parts, r) → r.length < s.length := by
    intro x s o parts ih h
    obtain ⟨p, hp, hx⟩ := Option.map_eq_some_iff.mp h
    obtain ⟨-, rfl⟩ := Prod.mk.inj hx
    exact ih hp
  fun_induction scanBody s generalizing parts with
  | case1 => cases h
  | case2 r' =>
    obtain ⟨-, rfl⟩ := Prod.mk.inj (Option.some.inj h)
    exact Nat.lt_succ_self _
  | case3 => cases h
  | case4 h₃ h₂ h₁ h₀ r' _ ih =>
    obtain ⟨n, -, h⟩ := Option.bind_eq_some_iff.mp h
    have hlt := hpart ih h
    simp only [List.length_cons]
    omega
  | case5 => cases h
  | case6 e r' _ _ ih =>
    obtain ⟨d, -, h⟩ := Option.bind_eq_some_iff.mp h
    have hlt := hpart ih h
    simp only [List.length_cons]
    omega
  | case7 => cases h
  | case8 c r' _ _ _ ih =>
    have hlt := hpart ih h
    simp only [List.length_cons]
    omega

theorem scanString_advances : Advances scanString := by
  intro s
  unfold scanString
  split
  · exact advanced_valueError s
  · rename_i hbody
    exact scanBody_shorter hbody

theorem scanLiteral_shorter {s r : Str} {v : Json} (h : scanLiteral s = some (v, r)) :
    r.length < s.length := by
  obtain ⟨p, hp, hr⟩ := Option.map_eq_some_iff.mp h
  obtain ⟨-, rfl⟩ := Prod.mk.inj hr
  have hfound : p.1.isPrefixOf s = true := 
    List.find?_some (p := fun q : Str × Json => q.1.isPrefixOf s) hp
  have hprefix := List.isPrefixOf_iff_prefix.mp hfound
  have hpos : ∀ q ∈ LITERALS, 0 < q.1.length := by decide
  have hlength := hpos p (List.mem_of_find?_eq_some hp)
  have hle := hprefix.length_le
  rw [List.length_drop]
  omega

theorem length_matchSign (s : Str) : (matchSign s).2.length ≤ s.length := by
  cases s with
  | nil => exact le_refl _
  | cons c r =>
    rw [matchSign]
    split_ifs
    · exact Nat.le_succ _
    · exact le_refl _

theorem matchWhole_shorter {s whole r : Str} (h : matchWhole s = some (whole, r)) :
    r.length < s.length := by
  cases s with
  | nil => cases h
  | cons c s =>
    have hdrop := length_dropWhile isDigit s
    rw [matchWhole] at h
    split_ifs at h
    · obtain ⟨-, rfl⟩ := Prod.mk.inj (Option.some.inj h)
      exact Nat.lt_succ_self _
    · obtain ⟨-, rfl⟩ := Prod.mk.inj (Option.some.inj h)
      exact Nat.lt_succ_of_le hdrop

theorem length_matchFraction (s : Str) : (matchFraction s).2.length ≤ s.length := by
  unfold matchFraction
  split
  · rename_i c d r
    have hdrop := length_dropWhile isDigit r
    split_ifs
    · simp only [List.length_cons]
      omega
    · exact le_refl _
  · exact le_refl _

theorem length_matchExponent (s : Str) : (matchExponent s).2.length ≤ s.length := by
  cases s with
  | nil => exact le_refl _
  | cons e s =>
    unfold matchExponent
    dsimp only
    split_ifs
    · refine le_trans (length_dropWhile isDigit _) ?_
      rw [List.length_drop, List.length_cons]
      omega
    · exact le_refl _

variable {D : Decoder}

theorem matchNumber_advances : Advances (matchNumber D) := by
  intro s
  have hsign := length_matchSign s
  unfold matchNumber
  dsimp only
  split
  · exact advanced_valueError s
  · rename_i whole afterWhole hwhole
    have hshorter := matchWhole_shorter hwhole
    have hfraction := length_matchFraction afterWhole
    have hexponent := length_matchExponent (matchFraction afterWhole).2
    have hrest : (matchExponent (matchFraction afterWhole).2).2.length < s.length := by omega
    split_ifs
    · exact hrest
    · exact advanced_valueError s
    · exact hrest
    · exact hrest

section Sequences

variable {α : Type} {scan : Str → Except LoadsError (α × Str)} {close : CodePoint}

theorem scanSeq_advanced (hscan : Advances scan) : ∀ (fuel : ℕ) (s : Str), s.length < fuel →
    Advanced s (scanSeq scan close fuel s)
  | 0, s, hfuel => absurd hfuel (Nat.not_lt_zero _)
  | fuel + 1, s, hfuel => by
    unfold scanSeq
    split
    · rename_i hs
      exact hscan.error hs
    · rename_i x r hs
      have hshorter := hscan.shorter hs
      split
      · exact advanced_valueError s
      · rename_i c r' hskip
        have hspace := length_skipSpace r
        have hspace' := length_skipSpace r'
        rw [hskip, List.length_cons] at hspace
        split_ifs
        · show r'.length < s.length
          omega
        · have hrest := scanSeq_advanced hscan fuel (skipSpace r') (by omega)
          split
          · rename_i e he
            rw [he] at hrest
            exact hrest
          · rename_i xs r'' he
            rw [he] at hrest
            change r''.length < (skipSpace r').length at hrest
            show r''.length < s.length
            omega
        · exact advanced_valueError s

theorem scanBetween_advances (hscan : Advances scan) : Advances (scanBetween scan close) := by
  intro s
  have hspace := length_skipSpace s
  unfold scanBetween
  split
  · exact advanced_valueError s
  · rename_i c r hskip
    rw [hskip, List.length_cons] at hspace
    split_ifs
    · show r.length < s.length
      omega
    · have hseq := @scanSeq_advanced α scan close hscan (r.length + 2) (c :: r) (by simp)
      cases hr : scanSeq scan close (r.length + 2) (c :: r) with
      | error e =>
        rw [hr] at hseq
        exact hseq
      | ok p =>
        rw [hr] at hseq
        change p.2.length < (c :: r).length at hseq
        rw [List.length_cons] at hseq
        show p.2.length < s.length
        omega

end Sequences

theorem scanPair_advances {scan : Str → Except LoadsError (Json × Str)} (hscan : Advances scan) :
    Advances (scanPair scan) := by
  rintro (_ | ⟨c, s⟩)
  · exact advanced_valueError []
  · unfold scanPair
    dsimp only
    split_ifs
    · split
      · rename_i hkey
        exact scanString_advances.error hkey
      · rename_i key r hkey
        have hshorter := scanString_advances.shorter hkey
        split
        · exact advanced_valueError _
        · rename_i c' r' hskip
          have hspace := length_skipSpace r
          have hspace' := length_skipSpace r'
          rw [hskip, List.length_cons] at hspace
          split_ifs
          · split
            · rename_i hvalue
              exact hscan.error hvalue
            · rename_i v r'' hvalue
              have hlt := hscan.shorter hvalue
              show r''.length < s.length + 1
              omega
          · exact advanced_valueError _
    · exact advanced_valueError _

theorem scanValue_advances {inner : Option (Str → Except LoadsError (Json × Str))}
    (hinner : ∀ scan ∈ inner, Advances scan) : Advances (scanValue D inner) := by
  rintro (_ | ⟨c, s⟩)
  · exact advanced_valueError []
  · unfold scanValue
    dsimp only
    split_ifs
    · split
      · rename_i hstring
        exact scanString_advances.error hstring
      · rename_i hstring
        exact Nat.lt_succ_of_lt (scanString_advances.shorter hstring)
    · cases inner with
      | none => exact advanced_recursionError _
      | some scan =>
        have hpairs := @scanBetween_advances _ _ (.scalar '\x7d')
          (scanPair_advances (hinner scan rfl))
        dsimp only
        split
        · rename_i hs
          exact hpairs.error hs
        · rename_i hs
          exact Nat.lt_succ_of_lt (hpairs.shorter hs)
    · cases inner with
      | none => exact advanced_recursionError _
      | some scan =>
        have hitems := @scanBetween_advances _ _ (.scalar ']') (hinner scan rfl)
        dsimp only
        split
        · rename_i hs
          exact hitems.error hs
        · rename_i hs
          exact Nat.lt_succ_of_lt (hitems.shorter hs)
    · split
      · rename_i hliteral
        exact scanLiteral_shorter hliteral
      · exact matchNumber_advances _

theorem scanOnce_advances : ∀ depth, Advances (scanOnce D depth)
  | 0 => scanValue_advances fun _ h => nomatch h
  | depth + 1 => scanValue_advances fun _ h => Option.some.inj h ▸ scanOnce_advances depth

/-- **The loops end by themselves.** -/
theorem loads_ne_outOfFuel (raw : Str) : loads D raw ≠ .error .outOfFuel := by
  unfold loads
  split_ifs
  · rintro ⟨⟩
  · split
    · rename_i e hvalue
      intro he
      exact (scanOnce_advances D.depth).error hvalue (Except.error.inj he)
    · split_ifs <;> rintro ⟨⟩

end Json

end McpHeartbeat
