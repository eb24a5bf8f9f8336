import McpHeartbeat.Py.Dump

/-!
# `repr()` and `float()`

What a program makes of a JSON value that it coerces instead of checking.

* `Json.repr`: the text of a value; **`str_repr_of_digit`**: which values read as the text of a
  float;
* `Double`, `FloatError`, `float`: the conversion, and how it fails;
* `Json.Floatable`, **`float_isOk_iff`**: what it converts.

How a string is quoted and which characters are digits beyond ASCII are parameters: both follow the
Unicode database of the interpreter. A number is held before it is rounded.
-/

namespace McpHeartbeat

/-! ## `repr()` -/

/-- `float.__repr__`: `json` writes the three values that are no numbers in its own way. -/
def FloatText.repr (x : FloatText) : Str :=
  if x.text = "NaN".toList then py "nan"
  else if x.text = "Infinity".toList then py "inf"
  else if x.text = "-Infinity".toList then py "-inf"
  else x.text.map .scalar

namespace Json

section Repr

variable (quote : Str → Str)

mutual

/-- `repr(value)`, where `quote` writes strings. -/
def repr : Json → Str
  | null => py "None"
  | bool b => if b then py "True" else py "False"
  | int n => intText n
  | float x => x.repr
  | str s => quote s
  | arr xs => .scalar '[' :: ((py ", ").intercalate (reprList xs) ++ py "]")
  | obj ms => .scalar '\x7b' :: ((py ", ").intercalate (reprMembers ms) ++ py "\x7d")

/-- The texts of the items. -/
def reprList : List Json → List Str
  | [] => []
  | x :: xs => repr x :: reprList xs

/-- The texts of the members. -/
def reprMembers : List (Str × Json) → List Str
  | [] => []
  | (k, v) :: ms => (quote k ++ py ": " ++ repr v) :: reprMembers ms

end

end Repr

end Json

/-- Where the text of a float begins with a digit, `repr` writes it. -/
theorem repr_of_digit {x : FloatText} (hx : x.text.head?.any Char.isDigit) :
    x.repr = x.text.map .scalar := by
  have hne : ∀ s : List Char, s.head?.any Char.isDigit = false → x.text ≠ s := by
    intro s hs h
    rw [h, hs] at hx
    cases hx
  rw [FloatText.repr, if_neg (hne _ (by decide)), if_neg (hne _ (by decide)),
    if_neg (hne _ (by decide))]

/-- **Only a float and a string read as the text of a float.** -/
theorem str_repr_of_digit (quote : Str → Str) {x : FloatText} {v : Json}
    (hx : x.text.head?.any Char.isDigit) :
    str (Json.repr quote) v = x.text.map .scalar ↔
      v = .str (x.text.map .scalar) ∨ v = .float x := by
  obtain ⟨c, w, hcw⟩ : ∃ c w, x.text = c :: w := by
    cases htext : x.text with
    | nil => simp [htext] at hx
    | cons c w => exact ⟨c, w, rfl⟩
  have hc : c.isDigit := by simpa [hcw] using hx
  have hfirst : ∀ (d : Char) (s : Str), d.isDigit = false →
      CodePoint.scalar d :: s ≠ x.text.map .scalar := by
    intro d s hd h
    rw [hcw, List.map_cons, List.cons.injEq, CodePoint.scalar.injEq] at h
    rw [h.1, hc] at hd
    cases hd
  constructor
  · intro h
    cases v with
    | null => exact absurd h (hfirst 'N' _ (by decide))
    | bool b => cases b with
      | true => exact absurd h (hfirst 'T' _ (by decide))
      | false => exact absurd h (hfirst 'F' _ (by decide))
    | int n => exact absurd h (Json.intText_ne_float n x)
    | float y =>
      change y.repr = _ at h
      unfold FloatText.repr at h
      split_ifs at h with hnan hinf hneg
      · exact absurd h (hfirst 'n' _ (by decide))
      · exact absurd h (hfirst 'i' _ (by decide))
      · exact absurd h (hfirst '-' _ (by decide))
      · exact Or.inr (congrArg Json.float (Json.float_inj h))
    | str s => exact Or.inl (congrArg Json.str h)
    | arr xs => exact absurd h (hfirst '[' _ (by decide))
    | obj ms => exact absurd h (hfirst '\x7b' _ (by decide))
  · rintro (rfl | rfl)
    · rfl
    · exact repr_of_digit hx

/-! ## `float()` -/

/-- A `float`, before it is rounded: one of a document, the one nearest to a decimal, or none of the
numbers. -/
inductive Double
  | ofText (x : FloatText)
  | nearest (negative : Bool) (mantissa : ℕ) (exponent : ℤ)
  | infinite (negative : Bool)
  | nan
deriving DecidableEq

/-- How `float()` fails. -/
inductive FloatError
  | typeError
  | valueError
  | overflowError
deriving DecidableEq

/-- Integers from here on round to no `float`: half a unit in the last place past the largest one. -/
def FLOAT_OVERFLOW : ℕ := 2 ^ 1024 - 2 ^ 970

section Numerals

/-- `Py_ISSPACE`. -/
def isAsciiSpace (c : Char) : Bool := "\t\n\x0b\x0c\r ".toList.contains c

/-- `str.isspace`, beyond ASCII. -/
def isWideSpace (c : Char) : Bool :=
  c.toNat ∈ [0x85, 0xA0, 0x1680, 0x2028, 0x2029, 0x202F, 0x205F, 0x3000] ||
    (0x2000 ≤ c.toNat && c.toNat ≤ 0x200A)

/-- `_PyUnicode_TransformDecimalAndSpaceToASCII`, of one character: what is neither a space nor a
digit becomes a symbol of no numeral. -/
def toAscii (decimal : Char → Option (Fin 10)) : CodePoint → Char
  | .surrogate _ => '?'
  | .scalar c =>
    if c.toNat < 127 then c
    else if isWideSpace c then ' '
    else match decimal c with
      | some d => Nat.digitChar d
      | none => '?'

/-- The text without the spaces around it. -/
def stripSpace (s : List Char) : List Char :=
  ((s.dropWhile isAsciiSpace).reverse.dropWhile isAsciiSpace).reverse

/-- `_Py_string_to_number_with_underscores`: underscores are dropped, each between two digits. -/
def dropUnderscores (before : Char) : List Char → Option (List Char)
  | [] => if before = '_' then none else some []
  | c :: s =>
    if c = '_' then if before.isDigit then dropUnderscores c s else none
    else if before = '_' ∧ ¬ c.isDigit then none
    else (dropUnderscores c s).map (c :: ·)

/-- A sign, if there is one: whether it is a minus, and the rest. -/
def readSign : List Char → Bool × List Char
  | '-' :: s => (true, s)
  | '+' :: s => (false, s)
  | s => (false, s)

/-- The number that ASCII digits write. -/
def digitsVal (s : List Char) : ℕ := s.foldl (fun n c => 10 * n + (c.toNat - '0'.toNat)) 0

/-- The exponent that ends a numeral; nothing may follow it. -/
def readExponent : List Char → Option ℤ
  | [] => some 0
  | e :: s =>
    let (negative, digits) := readSign s
    if (e = 'e' ∨ e = 'E') ∧ digits ≠ [] ∧ digits.all Char.isDigit then
      some (if negative then -(digitsVal digits : ℤ) else digitsVal digits)
    else none

/-- The fraction that may follow the whole part, and the rest. -/
def readFraction : List Char → List Char × List Char
  | '.' :: s => (s.takeWhile Char.isDigit, s.dropWhile Char.isDigit)
  | s => ([], s)

/-- `_Py_dg_strtod`, after the sign: mantissa and exponent of a decimal. -/
def readDecimal (s : List Char) : Option (ℕ × ℤ) :=
  let whole := s.takeWhile Char.isDigit
  let (fraction, rest) := readFraction (s.dropWhile Char.isDigit)
  if whole ++ fraction = [] then none
  else (readExponent rest).map fun e => (digitsVal (whole ++ fraction), e - fraction.length)

/-- `PyOS_string_to_double`: a decimal, or one of the names of what is no number. -/
def readDouble (s : List Char) : Option Double :=
  let (negative, magnitude) := readSign s
  let name := magnitude.map Char.toLower
  if name = "inf".toList ∨ name = "infinity".toList then some (.infinite negative)
  else if name = "nan".toList then some .nan
  else (readDecimal magnitude).map fun p => .nearest negative p.1 p.2

variable (decimal : Char → Option (Fin 10))

/-- `PyFloat_FromString`. -/
def floatOfStr (s : Str) : Option Double :=
  (dropUnderscores '\x00' (stripSpace (s.map (toAscii decimal)))).bind readDouble

/-- `float(value)`. -/
def float : Json → Except FloatError Double
  | .null | .arr _ | .obj _ => .error .typeError
  | .bool b => .ok (.nearest false (if b then 1 else 0) 0)
  | .int n =>
    if FLOAT_OVERFLOW ≤ n.natAbs then .error .overflowError
    else .ok (.nearest (n < 0) n.natAbs 0)
  | .float x => .ok (.ofText x)
  | .str s =>
    match floatOfStr decimal s with
    | some x => .ok x
    | none => .error .valueError

/-- What `float()` converts: numbers within its range, and the strings that are numerals. -/
def Json.Floatable : Json → Prop
  | .null | .arr _ | .obj _ => False
  | .bool _ | .float _ => True
  | .int n => n.natAbs < FLOAT_OVERFLOW
  | .str s => (floatOfStr decimal s).isSome

instance (v : Json) : Decidable (v.Floatable decimal) :=
  match v with
  | .null | .arr _ | .obj _ => inferInstanceAs (Decidable False)
  | .bool _ | .float _ => inferInstanceAs (Decidable True)
  | .int n => inferInstanceAs (Decidable (n.natAbs < FLOAT_OVERFLOW))
  | .str s => inferInstanceAs (Decidable ((floatOfStr decimal s).isSome = true))

/-- **`float()` converts what is within its range or a numeral.** -/
theorem float_isOk_iff {v : Json} : (∃ x, float decimal v = .ok x) ↔ v.Floatable decimal := by
  cases v with
  | null | arr _ | obj _ => exact iff_of_false (fun ⟨_, h⟩ => nomatch h) id
  | bool _ | float _ => exact iff_of_true ⟨_, rfl⟩ trivial
  | int n =>
    rw [float, Json.Floatable]
    split_ifs with h
    · exact iff_of_false (fun ⟨_, h'⟩ => nomatch h') (not_lt.mpr h)
    · exact iff_of_true ⟨_, rfl⟩ (not_le.mp h)
  | str s =>
    cases h : floatOfStr decimal s with
    | none => simp [float, Json.Floatable, h]
    | some x => simp [float, Json.Floatable, h]

end Numerals

end McpHeartbeat
