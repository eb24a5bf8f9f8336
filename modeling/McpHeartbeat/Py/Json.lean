import Mathlib.Data.List.Sort
import McpHeartbeat.Base.Code
import McpHeartbeat.Py.Str

/-!
# JSON values and `json.dumps`

The values `json.loads` can produce, and the text `json.dumps(sort_keys=True,
separators=(",", ":"))` makes of them.

* `Json`, `Members`: values; a JSON object is its list of members, as a `dict` iterates them;
* `Members.item_filter`: members dropped by name; `Members.set`, `Members.update`: members written
  over those of an object;
* `Json.truthy`, `Json.orEmpty`, `Json.member`, `Json.contains`, `Json.hashable`, `str`: what
  programs ask of a value;
* `Json.canon`: the value with the members of every object sorted by name, as `sort_keys=True`
  writes them; `Json.Same`: equality up to the order of members;
* `Json.dump`: the text of a value, for either setting of `ensure_ascii`;
* `Json.induct`: induction on values.
-/

namespace McpHeartbeat

open Base

/-- The symbols of the text of a float. -/
def isFloatSymbol (c : Char) : Bool := c.isDigit || "+-.aefintyIN".toList.contains c

/-- A `float` of a JSON document, held as the text `float.__repr__` gives it. It starts as a number,
`NaN` or an infinity does, and is never the text of an `int`. -/
structure FloatText where
  text : List Char
  symbols : text.all isFloatSymbol = true
  lead : text.head?.any (fun c => c.isDigit || "-NI".toList.contains c) = true
  notInt : text.any (fun c => !(c.isDigit || c == '-')) = true
deriving DecidableEq

/-- A value `json.loads` can produce. -/
inductive Json
  | null
  | bool (b : Bool)
  | int (n : ℤ)
  | float (x : FloatText)
  | str (s : Str)
  | arr (xs : List Json)
  | obj (ms : List (Str × Json))

/-- Induction on values: through the items of arrays and the values of members. -/
@[elab_as_elim, induction_eliminator]
theorem Json.induct {P : Json → Prop} (null : P .null) (bool : ∀ b, P (.bool b))
    (int : ∀ n, P (.int n)) (float : ∀ x, P (.float x)) (str : ∀ s, P (.str s))
    (arr : ∀ xs, (∀ x ∈ xs, P x) → P (.arr xs)) (obj : ∀ ms, (∀ p ∈ ms, P p.2) → P (.obj ms)) :
    ∀ v, P v := fun v =>
  @Json.rec P (fun xs => ∀ x ∈ xs, P x) (fun ms => ∀ p ∈ ms, P p.2) (fun p => P p.2)
    null bool int float str arr obj (by simp)
    (fun x xs hx hxs => List.forall_mem_cons.mpr ⟨hx, hxs⟩) (by simp)
    (fun p ms hp hms => List.forall_mem_cons.mpr ⟨hp, hms⟩) (fun _ _ h => h) v

/-- The members of a JSON object. -/
abbrev Members := List (Str × Json)

namespace Members

/-- `key in raw`. -/
def has (m : Members) (key : Str) : Bool := m.any fun p => p.1 == key

/-- `raw[key]`; `none` is the `KeyError`. -/
def item (m : Members) (key : Str) : Option Json := m.lookup key

/-- `raw.get(key)`: a missing member reads as `None`, as a null one does. -/
def get (m : Members) (key : Str) : Json := (m.item key).getD .null

/-- Dropping members by name: the others stay. -/
theorem item_filter (m : Members) (p : Str → Bool) (key : Str) :
    item (m.filter fun q => p q.1) key = if p key then m.item key else none := by
  induction m with
  | nil => exact (ite_self none).symm
  | cons q m ih =>
    obtain ⟨k, v⟩ := q
    unfold item at ih ⊢
    by_cases hk : key = k
    · subst hk
      cases hp : p key with
      | false => simp [hp, ih]
      | true => simp [hp]
    · have hne : (key == k) = false := beq_false_of_ne hk
      rw [List.lookup_cons, hne, ← ih, List.filter_cons]
      split_ifs
      · rw [List.lookup_cons, hne]
      · rfl

/-- `raw[key] = value`: a member that is there keeps its place. -/
def set (m : Members) (key : Str) (value : Json) : Members :=
  if m.has key then m.map fun p => if p.1 = key then (key, value) else p else m ++ [(key, value)]

/-- `{**raw, **more}`. -/
def update (m more : Members) : Members := more.foldl (fun m p => m.set p.1 p.2) m

/-- Replacing the value of a member where it stands. -/
theorem item_replace (m : Members) (key : Str) (value : Json) (k : Str) :
    item (m.map fun p => if p.1 = key then (key, value) else p) k =
      if k = key ∧ m.has key then some value else m.item k := by
  induction m with
  | nil => simp [item, has]
  | cons p m ih =>
    obtain ⟨k', v⟩ := p
    unfold item at ih ⊢
    by_cases hk : k = k'
    · subst hk
      by_cases hkey : k = key <;> simp [hkey, has]
    · have hne : (k == k') = false := beq_false_of_ne hk
      by_cases hkey : k' = key
      · subst hkey
        simp [List.lookup_cons, hne, ih, hk]
      · have hhas : has ((k', v) :: m) key = has m key := by simp [has, hkey]
        rw [List.map_cons, if_neg hkey, List.lookup_cons, List.lookup_cons, hne, hhas]
        exact ih

theorem item_set (m : Members) (key : Str) (value : Json) (k : Str) :
    (m.set key value).item k = if k = key then some value else m.item k := by
  unfold set
  by_cases hhas : m.has key = true
  · rw [if_pos hhas, item_replace]
    simp [hhas]
  · have hnone : m.item key = none := by
      rw [item, List.lookup_eq_none_iff]
      intro p hp
      rw [bne_iff_ne]
      rintro rfl
      exact hhas (List.any_eq_true.mpr ⟨p, hp, beq_iff_eq.mpr rfl⟩)
    rw [if_neg hhas]
    unfold item at hnone ⊢
    rw [List.lookup_append]
    by_cases hk : k = key
    · subst hk
      simp [hnone]
    · have hne : (k == key) = false := beq_false_of_ne hk
      simp [hne, hk, List.lookup_cons]

/-- **The later object wins**, the last of its members of one name first. -/
theorem item_update (m more : Members) (k : Str) :
    (m.update more).item k = (item more.reverse k).or (m.item k) := by
  induction more generalizing m with
  | nil => rfl
  | cons p more ih =>
    obtain ⟨k', v⟩ := p
    have hstep : m.update ((k', v) :: more) = (m.set k' v).update more := rfl
    rw [hstep, ih, item_set, List.reverse_cons]
    unfold item
    rw [List.lookup_append]
    by_cases hk : k = k'
    · subst hk
      simp
    · have hne : (k == k') = false := beq_false_of_ne hk
      simp [hk, hne, List.lookup_cons]

end Members

namespace Json

/-- `bool(value)`. -/
def truthy : Json → Bool
  | null => false
  | bool b => b
  | int n => n != 0
  | float x => x.text != "0.0".toList && x.text != "-0.0".toList
  | str s => !s.isEmpty
  | arr xs => !xs.isEmpty
  | obj ms => !ms.isEmpty

/-- `value or {}`. -/
def orEmpty (v : Json) : Json := if v.truthy then v else obj []

/-- `value.get(key) if isinstance(value, Mapping) else None`. -/
def member (v : Json) (key : Str) : Json :=
  match v with
  | obj m => Members.get m key
  | _ => null

/-- Values that a `set` can hold: neither arrays nor objects. -/
def hashable : Json → Bool
  | arr _ | obj _ => false
  | _ => true

/-- `isinstance(value, Mapping) and key in value`. -/
def contains (v : Json) (key : Str) : Bool :=
  match v with
  | obj m => Members.has m key
  | _ => false

/-! ## Canonical form -/

/-- `sorted(items)` by name. -/
def sortKeys (ms : Members) : Members := ms.insertionSort fun p q => p.1.keyLe q.1

mutual
/-- The value with the members of every object sorted by name. -/
def canon : Json → Json
  | null => null
  | bool b => bool b
  | int n => int n
  | float x => float x
  | str s => str s
  | arr xs => arr (canonList xs)
  | obj ms => obj (sortKeys (canonMembers ms))

/-- The canonical forms of the items of an array. -/
def canonList : List Json → List Json
  | [] => []
  | x :: xs => canon x :: canonList xs

/-- The members of an object with their values in canonical form. -/
def canonMembers : Members → Members
  | [] => []
  | (k, v) :: ms => (k, canon v) :: canonMembers ms
end

/-- The same JSON value: equality up to the order of the members of objects. -/
def Same (a b : Json) : Prop := a.canon = b.canon

/-! ## Text -/

/-- One hexadecimal digit. -/
def hexDigit (n : ℕ) : CodePoint := .scalar ("0123456789abcdef".toList.getD n '0')

/-- The two-character escapes. -/
def shortEscape (c : CodePoint) : Option CodePoint :=
  if c = .scalar '"' then some (.scalar '"')
  else if c = .scalar '\\' then some (.scalar '\\')
  else if c = .scalar '\n' then some (.scalar 'n')
  else if c = .scalar '\r' then some (.scalar 'r')
  else if c = .scalar '\t' then some (.scalar 't')
  else if c = .scalar '\x0c' then some (.scalar 'f')
  else if c = .scalar '\x08' then some (.scalar 'b')
  else none

/-- `\uXXXX`. -/
def longEscape (n : ℕ) : Str :=
  [.scalar '\\', .scalar 'u', hexDigit (n / 0x1000 % 16), hexDigit (n / 0x100 % 16),
    hexDigit (n / 0x10 % 16), hexDigit (n % 16)]

/-- How a code point is written with `ensure_ascii=False`. -/
def escape (c : CodePoint) : Str :=
  match shortEscape c with
  | some e => [.scalar '\\', e]
  | none => if c.val < 0x20 then longEscape c.val else [c]

/-- How a code point is written with `ensure_ascii=True`: beyond the basic plane as a pair of
surrogate escapes. -/
def escapeAscii (c : CodePoint) : Str :=
  match shortEscape c with
  | some e => [.scalar '\\', e]
  | none =>
    if c.val < 0x20 then longEscape c.val
    else if c.val < 0x7F then [c]
    else if c.val < 0x10000 then longEscape c.val
    else longEscape (0xD800 + (c.val - 0x10000) / 0x400 % 0x400) ++
      longEscape (0xDC00 + (c.val - 0x10000) % 0x400)

/-- One decimal digit. -/
def digit (n : ℕ) : CodePoint := .scalar (Nat.digitChar n)

/-- `str(n)` of a natural number. -/
def natText (n : ℕ) : Str := (decimal n).map digit

/-- `int.__repr__`. -/
def intText : ℤ → Str
  | .ofNat n => natText n
  | .negSucc n => .scalar '-' :: natText (n + 1)

section Dump

variable (esc : CodePoint → Str)

/-- A string between quotes. -/
def quoted (s : Str) : Str := .scalar '"' :: (s.flatMap esc ++ [.scalar '"'])

mutual
/-- The text of a value, no blank in it. -/
def dump : Json → Str
  | null => py "null"
  | bool true => py "true"
  | bool false => py "false"
  | int n => intText n
  | float x => x.text.map .scalar
  | str s => quoted esc s
  | arr [] => py "[]"
  | arr (x :: xs) => .scalar '[' :: (dump x ++ dumpTail xs)
  | obj [] => py "{}"
  | obj ((k, v) :: ms) =>
    .scalar '\x7b' :: (quoted esc k ++ .scalar ':' :: (dump v ++ dumpMembers ms))

/-- The items after the first one. -/
def dumpTail : List Json → Str
  | [] => [.scalar ']']
  | x :: xs => .scalar ',' :: (dump x ++ dumpTail xs)

/-- The members after the first one. -/
def dumpMembers : Members → Str
  | [] => [.scalar '\x7d']
  | (k, v) :: ms => .scalar ',' :: (quoted esc k ++ .scalar ':' :: (dump v ++ dumpMembers ms))
end

end Dump

end Json

/-- `str(value)`. -/
def str (repr : Json → Str) (v : Json) : Str :=
  match v with
  | .str s => s
  | v => repr v

end McpHeartbeat
