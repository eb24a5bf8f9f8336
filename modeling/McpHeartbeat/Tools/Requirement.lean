import McpHeartbeat.Core.Model
import McpHeartbeat.Py.Text

/-!
# Declared requirements

What an entry of `Requires-Dist` says, as the bill of materials reads it.

* `Operator`, `OPERATORS`, `parseRequirement`: the comparison operators are searched one after the
  other, each over the whole text;
* `Clause`, `Spelled`, `Declares`: how a name, its clauses and a marker are written;
* `Requirement.Describes`: what the description of an entry is to say;
* `clear_spelled`, `findOperator_spelled`: where an operator is found;
* **`parseRequirement_exact_exactly_when`**: it says that exactly if the first clause is the one that
  is found.
-/

namespace McpHeartbeat.Tools

open Base

/-- The comparison operators. -/
inductive Operator
  | equal
  | atLeast
  | atMost
  | compatible
  | unequal
  | above
  | under
deriving DecidableEq

/-- How an operator is written. -/
def Operator.text : Operator → Str
  | equal => py "=="
  | atLeast => py ">="
  | atMost => py "<="
  | compatible => py "~="
  | unequal => py "!="
  | above => py ">"
  | under => py "<"

/-- The operators, in the order in which they are searched. -/
def OPERATORS : List Operator := [.equal, .atLeast, .atMost, .compatible, .unequal, .above, .under]

/-- The description of an entry. -/
structure Requirement where
  name : Str
  version : Option Str
  specifier : Option Str
  extra : Option Str
  marker : Str
  raw : Str

/-- The first operator that stands anywhere in the text, and what stands before and after it. -/
def findOperator (requirement : Str) : Option (Operator × Str × Str) :=
  OPERATORS.findSome? fun operator => (cut operator.text requirement).map fun p => (operator, p)

/-- The extra that a marker names. -/
def extraOf (marker : Str) : Option Str :=
  (cut (py "extra ==") marker).map fun p =>
    (((Str.partition p.2 (py "extra ==")).1.strip).stripChar (.scalar '\x22')).stripChar
      (.scalar '\x27')

/-- `parse_requirement`. -/
def parseRequirement (entry : Str) : Requirement :=
  let requirement := (entry.partition (py ";")).1.strip
  let marker := (entry.partition (py ";")).2.strip
  match findOperator requirement with
  | none =>
    { name := requirement, version := none, specifier := none, extra := extraOf marker, marker,
      raw := entry }
  | some (operator, name, bound) =>
    { name := name.strip,
      version := if operator = .equal then some bound.strip else none,
      specifier := some (operator.text ++ bound.strip),
      extra := extraOf marker, marker, raw := entry }

/-! ## How an entry is written -/

/-- White space. -/
def Spaces (s : Str) : Prop := ∀ c ∈ s, c.isSpace = true

/-- An operator and a version. -/
structure Clause where
  operator : Operator
  version : Str
  nonempty : version ≠ []
  plain : ∀ c ∈ version, c.isSpace = false ∧ c ∉ py "=<>,;"

/-- The clause, with white space around its parts. -/
inductive Clause.Spelled (c : Clause) : Str → Prop
  | mk {before between after : Str} (hbefore : Spaces before) (hbetween : Spaces between)
      (hafter : Spaces after) :
      Spelled c (before ++ (c.operator.text ++ (between ++ (c.version ++ after))))

/-- The clauses, with commas between them. -/
inductive Spelled : List Clause → Str → Prop
  | nil {s : Str} (spaces : Spaces s) : Spelled [] s
  | one {c : Clause} {s : Str} (first : c.Spelled s) : Spelled [c] s
  | cons {c d : Clause} {cs : List Clause} {s t : Str} (first : c.Spelled s)
      (rest : Spelled (d :: cs) t) : Spelled (c :: d :: cs) (s ++ (py "," ++ t))

/-- A distribution name: letters, digits, dots, underscores and hyphens. -/
structure IsName (name : Str) : Prop where
  nonempty : name ≠ []
  symbols : ∀ c ∈ name, isIdSymbol "._-" c = true

/-- The entry declares the name under the clauses, and perhaps under a marker. -/
inductive Declares (name : Str) (clauses : List Clause) : Str → Prop
  | bare {before s : Str} (spaces : Spaces before) (spelled : Spelled clauses s) :
      Declares name clauses (before ++ (name ++ s))
  | marked {before s : Str} (spaces : Spaces before) (spelled : Spelled clauses s) (marker : Str) :
      Declares name clauses (before ++ (name ++ s) ++ (py ";" ++ marker))

/-- The description says what the entry declares. -/
structure Requirement.Describes (r : Requirement) (name : Str) (clauses : List Clause) : Prop where
  name_eq : r.name = name
  unspecified : clauses = [] → r.specifier = none
  specified : clauses ≠ [] → ∃ s, r.specifier = some s ∧ Spelled clauses s
  version_iff : ∀ v, r.version = some v ↔
    ∃ c : Clause, clauses = [c] ∧ c.operator = .equal ∧ c.version = v

/-- How late an operator is searched. -/
def Operator.rank (o : Operator) : ℕ := OPERATORS.idxOf o

/-- There is one clause at most, or the first is no pin and is searched no later than any other. -/
def FirstIsFound : List Clause → Prop
  | c :: d :: cs =>
    c.operator ≠ .equal ∧ ∀ e ∈ d :: cs, c.operator.rank ≤ e.operator.rank
  | _ => True

/-! ## Where an operator can begin -/

/-- The symbols with which no operator begins. -/
def Inert (c : CodePoint) : Prop := c ∉ py "=<>!~"

theorem inert_of_space {c : CodePoint} (h : c.isSpace = true) : Inert c := by
  have hall : ((py "=<>!~").all fun d => !d.isSpace) = true := by decide
  intro hmem
  have hspace := List.all_eq_true.mp hall c hmem
  rw [h] at hspace
  cases hspace

theorem inert_of_symbol {c : CodePoint} (h : isIdSymbol "._-" c = true) : Inert c := by
  have hall : ((py "=<>!~").all fun d => !isIdSymbol "._-" d) = true := by decide
  intro hmem
  have hsymbol := List.all_eq_true.mp hall c hmem
  rw [h] at hsymbol
  cases hsymbol

/-- No operator begins among inert symbols. -/
theorem clear_inert (o : Operator) {a : Str} (ha : ∀ c ∈ a, Inert c) (t : Str) :
    Clear o.text a t := by
  have hhead : ∃ c, o.text.head? = some c ∧ c ∈ py "=<>!~" := by
    cases o <;> exact ⟨_, rfl, by decide⟩
  obtain ⟨c, hc, hmem⟩ := hhead
  exact clear_of_not_mem hc fun hca => ha c hca hmem

/-- What follows does not begin with an equals sign. -/
def Calm (t : Str) : Prop := t.head? ≠ some (.scalar '=')

theorem calm_of_forall {t s : Str} (ht : ∀ c ∈ t, c ≠ .scalar '=') (hs : Calm s) :
    Calm (t ++ s) := by
  cases t with
  | nil => exact hs
  | cons c t =>
    intro h
    exact ht c List.mem_cons_self (Option.some.inj h)

theorem Spaces.inert {a : Str} (h : Spaces a) : ∀ c ∈ a, Inert c := fun c hc => inert_of_space (h c hc)

theorem Spaces.ne_equals {a : Str} (h : Spaces a) : ∀ c ∈ a, c ≠ .scalar '=' := by
  rintro c hc rfl
  exact inert_of_space (h _ hc) (by decide)

theorem Clause.ne_equals (c : Clause) : ∀ d ∈ c.version, d ≠ .scalar '=' := by
  rintro d hd rfl
  exact (c.plain _ hd).2 (by decide)

/-- No operator begins in a version: what might begin one there is not followed by an equals sign. -/
theorem clear_version (o : Operator) {v : Str} (hv : ∀ c ∈ v, c ∉ py "=<>") {t : Str} (ht : Calm t) :
    Clear o.text v t := by
  have hequals : ∀ {w : Str}, (∀ c ∈ w, c ∉ py "=<>") → ∀ c ∈ w, c ≠ .scalar '=' := by
    rintro w hw c hc rfl
    exact hw _ hc (by decide)
  induction v with
  | nil => trivial
  | cons c v ih =>
    have hv' : ∀ d ∈ v, d ∉ py "=<>" := fun d hd => hv d (List.mem_cons_of_mem c hd)
    refine ⟨?_, ih hv'⟩
    have hc := hv c List.mem_cons_self
    have hcalm : Calm (v ++ t) := calm_of_forall (hequals hv') ht
    rintro ⟨w, hw⟩
    cases o
    case compatible | unequal =>
      obtain ⟨-, hrest⟩ := List.cons.inj hw
      exact hcalm (by rw [← hrest]; rfl)
    all_goals
      obtain ⟨rfl, -⟩ := List.cons.inj hw
      exact hc (by decide)

/-- An operator is one symbol, or a symbol and an equals sign. -/
theorem Operator.text_cases (o : Operator) : (∃ x, o.text = [x]) ∨ ∃ x, o.text = [x, .scalar '='] := by
  cases o
  case above | under => exact Or.inl ⟨_, rfl⟩
  all_goals exact Or.inr ⟨_, rfl⟩

/-- An operator at the front of another and of what follows stands at the front of the other. -/
theorem prefix_of_prefix_append {o o' : Operator} {t : Str} (ht : Calm t)
    (h : o.text <+: o'.text ++ t) : o.text <+: o'.text := by
  by_cases hlength : o.text.length ≤ o'.text.length
  · exact List.prefix_of_prefix_length_le h (List.prefix_append _ _) hlength
  · exfalso
    rcases o.text_cases with ⟨x, hx⟩ | ⟨x, hx⟩ <;> rcases o'.text_cases with ⟨y, hy⟩ | ⟨y, hy⟩ <;>
      simp only [hx, hy, List.length_cons, List.length_nil] at hlength <;> try omega
    rw [hx, hy] at h
    obtain ⟨w, hw⟩ := h
    have htail : .scalar '=' :: w = t := (List.cons.inj hw).2
    exact ht (by rw [← htail]; rfl)

theorem not_prefix_equals (o : Operator) {t : Str} (ht : Calm t) :
    ¬ o.text <+: .scalar '=' :: t := by
  rintro ⟨w, hw⟩
  cases o
  case equal =>
    have htail : .scalar '=' :: w = t := (List.cons.inj hw).2
    exact ht (by rw [← htail]; rfl)
  all_goals exact absurd (List.cons.inj hw).1 (by decide)

/-- An operator begins in another only at its front. -/
theorem clear_operator {o o' : Operator} (h : ¬ o.text <+: o'.text) {t : Str} (ht : Calm t) :
    Clear o.text o'.text t := by
  have hfront : ¬ o.text <+: o'.text ++ t := fun hprefix => h (prefix_of_prefix_append ht hprefix)
  rcases o'.text_cases with ⟨x, hx⟩ | ⟨x, hx⟩
  · rw [hx] at hfront ⊢
    exact ⟨hfront, trivial⟩
  · rw [hx] at hfront ⊢
    exact ⟨hfront, not_prefix_equals o ht, trivial⟩

/-! ## Where an operator is found -/

variable {c : Clause} {clauses : List Clause} {s t u name : Str} {o : Operator}

/-- An operator begins in a clause only where that of the clause does. -/
theorem Clause.Spelled.clear (h : c.Spelled s) (ho : ¬ o.text <+: c.operator.text) (ht : Calm t) :
    Clear o.text s t := by
  obtain ⟨hbefore, hbetween, hafter⟩ := h
  rename_i before between after
  have hrest : Calm (after ++ t) := calm_of_forall hafter.ne_equals ht
  have hversion : ∀ d ∈ c.version, d ∉ py "=<>" := by
    intro d hd hmem
    have hsubset : ∀ e ∈ py "=<>", e ∈ py "=<>,;" := by decide
    exact (c.plain d hd).2 (hsubset d hmem)
  have hcalm : Calm (between ++ (c.version ++ after) ++ t) := by
    rw [List.append_assoc, List.append_assoc]
    exact calm_of_forall hbetween.ne_equals (calm_of_forall c.ne_equals hrest)
  refine clear_append.mpr ⟨clear_inert o hbefore.inert _, ?_⟩
  refine clear_append.mpr ⟨clear_operator ho hcalm, ?_⟩
  refine clear_append.mpr ⟨clear_inert o hbetween.inert _, ?_⟩
  exact clear_append.mpr ⟨clear_version o hversion hrest, clear_inert o hafter.inert _⟩

theorem Clause.Spelled.stands (h : c.Spelled s) : c.operator.text <:+: s := by
  obtain ⟨hbefore, hbetween, hafter⟩ := h
  exact ⟨_, _, List.append_assoc _ _ _⟩

theorem clear_comma (o : Operator) (t : Str) : Clear o.text (py ",") t := by
  refine clear_inert o ?_ t
  intro c hc
  obtain rfl := List.mem_singleton.mp hc
  unfold Inert
  decide

/-- **An operator begins among clauses** only where that of a clause does. -/
theorem clear_spelled (h : Spelled clauses s)
    (ho : ∀ c ∈ clauses, ¬ o.text <+: c.operator.text) : Clear o.text s [] := by
  induction h with
  | nil spaces => exact clear_inert o spaces.inert _
  | one first => exact first.clear (ho _ List.mem_cons_self) nofun
  | cons first rest ih =>
    refine clear_append.mpr ⟨first.clear (ho _ List.mem_cons_self) (by simp [Calm, py]), ?_⟩
    exact clear_append.mpr ⟨clear_comma o _, ih fun c hc => ho c (List.mem_cons_of_mem _ hc)⟩

theorem infix_of_mem (h : Spelled clauses s) (hc : c ∈ clauses) : c.operator.text <:+: s := by
  induction h with
  | nil spaces => cases hc
  | one first =>
    obtain rfl := List.mem_singleton.mp hc
    exact first.stands
  | cons first rest ih =>
    rcases List.mem_cons.mp hc with rfl | hc
    · exact first.stands.trans (List.prefix_append _ _).isInfix
    · exact (ih hc).trans (List.suffix_append_of_suffix (List.suffix_append _ _)).isInfix

/-! ## What is searched -/

theorem Spaces.append {a b : Str} (ha : Spaces a) (hb : Spaces b) : Spaces (a ++ b) := by
  intro c hc
  exact (List.mem_append.mp hc).elim (ha c) (hb c)

/-- The text ends with something else than white space. -/
def Ends (s : Str) : Prop := ∃ t c, s = t ++ [c] ∧ c.isSpace = false

theorem Ends.append {a b : Str} (h : Ends b) : Ends (a ++ b) := by
  obtain ⟨t, c, rfl, hc⟩ := h
  exact ⟨a ++ t, c, (List.append_assoc _ _ _).symm, hc⟩

theorem ends_of_ne_nil (hne : s ≠ []) (h : ∀ c ∈ s, c.isSpace = false) : Ends s :=
  ⟨s.dropLast, s.getLast hne, (List.dropLast_append_getLast hne).symm, h _ (List.getLast_mem hne)⟩

theorem Ends.of_append {a b : Str} (h : Ends (a ++ b)) (hb : b ≠ []) : Ends b := by
  obtain ⟨t, c, heq, hc⟩ := h
  have hlast := congrArg List.getLast? heq
  rw [List.getLast?_append_of_ne_nil _ hb, List.getLast?_concat] at hlast
  obtain ⟨w, rfl⟩ := List.getLast?_eq_some_iff.mp hlast
  exact ⟨w, c, rfl, hc⟩

/-- What ends so ends with no white space at all. -/
theorem Ends.eq_nil {a b : Str} (h : Ends (a ++ b)) (hb : Spaces b) : b = [] := by
  by_contra hne
  obtain ⟨t, c, rfl, hc⟩ := h.of_append hne
  rw [hb c List.mem_concat_self] at hc
  cases hc

theorem Clause.ends (c : Clause) : Ends c.version := ends_of_ne_nil c.nonempty fun d hd => (c.plain d hd).1

/-- The clauses, with no white space after the last one. -/
structure Trimmed (clauses : List Clause) (u : Str) : Prop where
  spelled : Spelled clauses u
  bare : clauses = [] → u = []
  ends : clauses ≠ [] → Ends u

/-- The white space after the last clause can be left out. -/
theorem Spelled.core (h : Spelled clauses s) : ∃ u r, s = u ++ r ∧ Spaces r ∧ Trimmed clauses u := by
  have hclause : ∀ {c : Clause} {s}, c.Spelled s →
      ∃ u r, s = u ++ r ∧ Spaces r ∧ c.Spelled u ∧ Ends u := by
    rintro c s ⟨hbefore, hbetween, hafter⟩
    rename_i before between after
    refine ⟨before ++ (c.operator.text ++ (between ++ (c.version ++ []))), after, ?_, hafter,
      .mk hbefore hbetween nofun, ?_⟩
    · simp only [List.append_assoc, List.nil_append]
    · rw [List.append_nil]
      exact c.ends.append.append.append
  induction h with
  | nil spaces =>
    exact ⟨[], _, rfl, spaces, .nil nofun, fun _ => rfl, fun hne => absurd rfl hne⟩
  | one first =>
    obtain ⟨u, r, heq, hr, hu, hends⟩ := hclause first
    exact ⟨u, r, heq, hr, .one hu, nofun, fun _ => hends⟩
  | @cons c d cs s t first rest ih =>
    obtain ⟨u, r, heq, hr, hu⟩ := ih
    have hends := hu.ends (List.cons_ne_nil d cs)
    refine ⟨s ++ (py "," ++ u), r, ?_, hr, .cons first hu.spelled, nofun, fun _ => hends.append.append⟩
    rw [heq, List.append_assoc, List.append_assoc]

theorem Operator.text_plain (o : Operator) : .scalar ';' ∉ o.text := by
  cases o <;> decide

theorem Spaces.no_semicolon {a : Str} (h : Spaces a) : .scalar ';' ∉ a := by
  intro hmem
  have hspace := h _ hmem
  revert hspace
  decide

theorem Spelled.no_semicolon (h : Spelled clauses s) : .scalar ';' ∉ s := by
  have hclause : ∀ {c : Clause} {s}, c.Spelled s → CodePoint.scalar ';' ∉ s := by
    rintro c s ⟨hbefore, hbetween, hafter⟩
    simp only [List.mem_append, not_or]
    exact ⟨hbefore.no_semicolon, c.operator.text_plain, hbetween.no_semicolon,
      fun hmem => (c.plain _ hmem).2 (by decide), hafter.no_semicolon⟩
  induction h with
  | nil spaces => exact spaces.no_semicolon
  | one first => exact hclause first
  | cons first rest ih =>
    simp only [List.mem_append, not_or]
    exact ⟨hclause first, by decide, ih⟩

theorem IsName.inert (h : IsName name) : ∀ c ∈ name, Inert c := fun c hc => inert_of_symbol (h.symbols c hc)

theorem space_bounds {d : Char} (h : (CodePoint.scalar d).isSpace = true) :
    d.toNat ≤ 0x20 ∨ 0x85 ≤ d.toNat := by
  have hascii : ("\t\n\x0b\x0c\r ".toList.all fun e => e.toNat ≤ 0x20) = true := by decide
  have hwide : ∀ n ∈ [0x85, 0xA0, 0x1680, 0x2028, 0x2029, 0x202F, 0x205F, 0x3000], 0x85 ≤ n := by
    decide
  simp only [CodePoint.isSpace, isWideSpace, isAsciiSpace, Bool.or_eq_true, Bool.and_eq_true,
    decide_eq_true_iff, List.contains_iff_mem] at h
  rcases h with (h | h) | h | h
  · exact Or.inl (of_decide_eq_true (List.all_eq_true.mp hascii d h))
  · exact Or.inl (by omega)
  · exact Or.inr (hwide _ h)
  · exact Or.inr (by omega)

theorem alnum_bounds {d : Char} (h : d.isAlphanum = true) : 0x30 ≤ d.toNat ∧ d.toNat ≤ 0x7A := by
  have hletters : 'A'.val.toNat = 0x41 ∧ 'Z'.val.toNat = 0x5A ∧ 'a'.val.toNat = 0x61 ∧
      'z'.val.toNat = 0x7A := by decide
  have hdigits : '0'.val.toNat = 0x30 ∧ '9'.val.toNat = 0x39 := by decide
  have hval : d.toNat = d.val.toNat := rfl
  have hcases : (d.isUpper = true ∨ d.isLower = true) ∨ d.isDigit = true :=
    (Bool.or_eq_true_iff.mp h).imp_left Bool.or_eq_true_iff.mp
  rcases hcases with (hupper | hlower) | hdigit
  · have hrange : d.val ≥ 'A'.val ∧ d.val ≤ 'Z'.val := of_decide_eq_true hupper
    rw [ge_iff_le, UInt32.le_iff_toNat_le, UInt32.le_iff_toNat_le] at hrange
    omega
  · have hrange : d.val ≥ 'a'.val ∧ d.val ≤ 'z'.val :=
      (Bool.and_eq_true_iff.mp hlower).imp of_decide_eq_true of_decide_eq_true
    rw [ge_iff_le, UInt32.le_iff_toNat_le, UInt32.le_iff_toNat_le] at hrange
    omega
  · have hrange : d.val ≥ '0'.val ∧ d.val ≤ '9'.val :=
      (Bool.and_eq_true_iff.mp hdigit).imp of_decide_eq_true of_decide_eq_true
    rw [ge_iff_le, UInt32.le_iff_toNat_le, UInt32.le_iff_toNat_le] at hrange
    omega

/-- No symbol of a name is white space. -/
theorem IsName.no_space (h : IsName name) : ∀ d ∈ name, d.isSpace = false := by
  intro d hd
  have hothers : ((py "._-").all fun e => !e.isSpace) = true := by decide
  rcases Bool.or_eq_true_iff.mp (h.symbols d hd) with hsymbol | hsymbol
  · cases d with
    | surrogate k => rfl
    | scalar d =>
      refine Bool.eq_false_iff.mpr fun hspace => ?_
      have hupper := alnum_bounds hsymbol
      have hlower := space_bounds hspace
      omega
  · have hother := List.all_eq_true.mp hothers d (List.contains_iff_mem.mp hsymbol)
    simpa using hother

theorem IsName.solid_append (h : IsName name) (hu : u = [] ∨ Ends u) :
    Solid CodePoint.isSpace (name ++ u) where
  front := by
    obtain ⟨d, t, rfl⟩ := List.exists_cons_of_ne_nil h.nonempty
    exact ⟨d, t ++ u, rfl, h.no_space d List.mem_cons_self⟩
  back := by
    rcases hu with rfl | hends
    · rw [List.append_nil]
      exact ends_of_ne_nil h.nonempty h.no_space
    · exact hends.append

/-- What is searched is the name and the clauses, without white space around them. -/
theorem Declares.requirement {entry : Str} (hname : IsName name) (h : Declares name clauses entry) :
    ∃ u, (entry.partition (py ";")).1.strip = name ++ u ∧ Trimmed clauses u := by
  have hclear : ∀ {before s : Str}, Spaces before → Spelled clauses s → ∀ t,
      Clear (py ";") (before ++ (name ++ s)) t := by
    intro before s hbefore hs t
    refine clear_of_not_mem (rfl : _ = some (CodePoint.scalar ';')) ?_
    simp only [List.mem_append, not_or]
    refine ⟨hbefore.no_semicolon, fun hmem => ?_, hs.no_semicolon⟩
    have hsymbol := hname.symbols _ hmem
    revert hsymbol
    decide
  have hstrip : ∀ {before s : Str}, Spaces before → Spelled clauses s →
      ∃ u, Str.strip (before ++ (name ++ s)) = name ++ u ∧ Trimmed clauses u := by
    intro before s hbefore hs
    obtain ⟨u, r, rfl, hr, hu⟩ := hs.core
    refine ⟨u, ?_, hu⟩
    have hsolid : Solid CodePoint.isSpace (name ++ u) := by
      by_cases hclauses : clauses = []
      · exact hname.solid_append (Or.inl (hu.bare hclauses))
      · exact hname.solid_append (Or.inr (hu.ends hclauses))
    rw [← List.append_assoc name, ← List.append_assoc before]
    exact trim_padded hbefore hsolid hr
  have hsep : py ";" ≠ [] := List.cons_ne_nil _ _
  cases h with
  | bare hbefore hs =>
    obtain ⟨u, hu⟩ := hstrip hbefore hs
    refine ⟨u, ?_⟩
    rwa [Str.partition, cut_eq_none hsep (hclear hbefore hs []), Option.getD_none]
  | marked hbefore hs marker =>
    obtain ⟨u, hu⟩ := hstrip hbefore hs
    refine ⟨u, ?_⟩
    rwa [Str.partition, cut_of_clear (hclear hbefore hs _), cut_word hsep,
      Option.map_some, Option.getD_some, List.append_nil]

/-! ## What is found -/

/-- An operator that begins another is searched no sooner. -/
theorem Operator.rank_le {o o' : Operator} (h : o.text <+: o'.text) : o'.rank ≤ o.rank := by
  revert h
  cases o <;> cases o' <;> decide

theorem Operator.rank_injective : Function.Injective Operator.rank := by
  intro o o' h
  have hmem : o ∈ OPERATORS := by cases o <;> decide
  exact (List.idxOf_inj hmem).mp h

theorem Operator.text_ne_nil (o : Operator) : o.text ≠ [] := by
  cases o <;> exact List.cons_ne_nil _ _

/-- Only an operator that begins that of a clause stands in the text. -/
theorem exists_of_cut (hname : IsName name) (h : Spelled clauses u) {p : Str × Str}
    (hcut : cut o.text (name ++ u) = some p) : ∃ c ∈ clauses, o.text <+: c.operator.text := by
  by_contra hno
  have hclear : Clear o.text (name ++ u) [] := by
    refine clear_append.mpr ⟨clear_inert o hname.inert _, clear_spelled h ?_⟩
    intro c hc hprefix
    exact hno ⟨c, hc, hprefix⟩
  rw [cut_eq_none o.text_ne_nil hclear] at hcut
  cases hcut

theorem findOperator_name (hname : IsName name) : findOperator name = none := by
  rw [findOperator, List.findSome?_eq_none_iff]
  intro o _
  rw [cut_eq_none o.text_ne_nil (clear_inert o hname.inert []), Option.map_none]

/-- **The operator that is found** is searched no later than that of any clause. -/
theorem findOperator_spelled (hname : IsName name) (hne : clauses ≠ []) (h : Spelled clauses u) :
    ∃ o before bound, findOperator (name ++ u) = some (o, before, bound) ∧
      cut o.text (name ++ u) = some (before, bound) ∧
      (∃ c ∈ clauses, o.text <+: c.operator.text) ∧
      ∀ c ∈ clauses, o.rank ≤ c.operator.rank := by
  have hstands : ∀ c ∈ clauses, cut c.operator.text (name ++ u) ≠ none := by
    intro c hc
    exact cut_ne_none ((infix_of_mem h hc).trans (List.suffix_append name u).isInfix)
  have hmem : ∀ o : Operator, o ∈ OPERATORS := by
    intro o
    cases o <;> decide
  obtain ⟨c, hc⟩ := List.exists_mem_of_ne_nil clauses hne
  have hfind : findOperator (name ++ u) ≠ none := by
    intro hnone
    have hcut := List.findSome?_eq_none_iff.mp hnone c.operator (hmem _)
    exact hstands c hc (Option.map_eq_none_iff.mp hcut)
  obtain ⟨⟨o, before, bound⟩, hfound⟩ := Option.ne_none_iff_exists'.mp hfind
  obtain ⟨o', -, hcut, hfirst⟩ := exists_first hfound
  obtain ⟨p, hcut, heq⟩ := Option.map_eq_some_iff.mp hcut
  obtain ⟨rfl, rfl⟩ := Prod.mk.inj heq
  refine ⟨o', before, bound, hfound, hcut, exists_of_cut hname h hcut, ?_⟩
  intro d hd
  by_contra hlate
  have hnone := hfirst d.operator (hmem _) (not_le.mp hlate)
  exact hstands d hd (Option.map_eq_none_iff.mp hnone)

/-- The text of the first clause, and what follows its operator. -/
theorem Spelled.front {cs : List Clause} (h : Spelled (c :: cs) u) : ∃ before between rest,
    Spaces before ∧ Spaces between ∧ u = before ++ (c.operator.text ++ (between ++ rest)) ∧
      (∃ d w, rest = d :: w ∧ d.isSpace = false) ∧ Spelled (c :: cs) (c.operator.text ++ rest) ∧
      (cs = [] → ∃ after, Spaces after ∧ rest = c.version ++ after) := by
  obtain ⟨d, w, hversion⟩ := List.exists_cons_of_ne_nil c.nonempty
  have hd : d.isSpace = false := (c.plain d (hversion ▸ List.mem_cons_self)).1
  have hspelled : ∀ {after}, Spaces after → c.Spelled (c.operator.text ++ (c.version ++ after)) :=
    fun hafter => @Clause.Spelled.mk c [] [] _ nofun nofun hafter
  cases h with
  | one first =>
    obtain ⟨hbefore, hbetween, hafter⟩ := first
    rename_i before between after
    refine ⟨before, between, c.version ++ after, hbefore, hbetween, rfl, ⟨d, w ++ after, ?_, hd⟩,
      .one (hspelled hafter), fun _ => ⟨after, hafter, rfl⟩⟩
    rw [hversion, List.cons_append]
  | @cons _ e cs s t first rest =>
    obtain ⟨hbefore, hbetween, hafter⟩ := first
    rename_i before between after
    refine ⟨before, between, c.version ++ after ++ (py "," ++ t), hbefore, hbetween, ?_,
      ⟨d, w ++ after ++ (py "," ++ t), ?_, hd⟩, ?_, nofun⟩
    · simp only [List.append_assoc]
    · rw [hversion, List.cons_append, List.cons_append]
    · rw [← List.append_assoc]
      exact .cons (hspelled hafter) rest

/-! ## What the description says -/

/-- What is found where the operator of the first clause is. -/
theorem cut_front {cs : List Clause} (hname : IsName name) (h : Spelled (c :: cs) u) (hends : Ends u)
    {before bound : Str} (hcut : cut c.operator.text (name ++ u) = some (before, bound)) :
    Str.strip before = name ∧ Spelled (c :: cs) (c.operator.text ++ Str.strip bound) ∧
      (cs = [] → Str.strip bound = c.version) := by
  obtain ⟨pad, between, rest, hpad, hbetween, rfl, ⟨d, w, hrest, hd⟩, hspelled, hlast⟩ := h.front
  have hclear : Clear c.operator.text (name ++ pad) (c.operator.text ++ (between ++ rest)) :=
    clear_append.mpr ⟨clear_inert _ hname.inert _, clear_inert _ hpad.inert _⟩
  rw [← List.append_assoc, cut_of_clear hclear, cut_word c.operator.text_ne_nil] at hcut
  obtain ⟨rfl, rfl⟩ := Prod.mk.inj (Option.some.inj hcut)
  have hrestEnds : Ends rest := by
    rw [← List.append_assoc, ← List.append_assoc] at hends
    exact hends.of_append (hrest ▸ List.cons_ne_nil d w)
  have hbound : Str.strip (between ++ rest) = rest := by
    have htrim := trim_padded hbetween ⟨⟨d, w, hrest, hd⟩, hrestEnds⟩ (r := []) nofun
    rwa [List.append_nil] at htrim
  refine ⟨?_, ?_, ?_⟩
  · have hsolid := hname.solid_append (Or.inl rfl)
    rw [List.append_nil] at hsolid
    rw [List.append_nil]
    exact trim_padded (l := []) (fun _ hd => absurd hd List.not_mem_nil) hsolid hpad
  · rw [hbound]
    exact hspelled
  · intro hcs
    obtain ⟨after, hafter, rfl⟩ := hlast hcs
    rw [hbound, hrestEnds.eq_nil hafter, List.append_nil]

/-- Where a later operator is found, something of the first clause is taken for the name. -/
theorem cut_later {cs : List Clause} (hname : IsName name) (h : Spelled (c :: cs) u)
    (ho : ¬ o.text <+: c.operator.text) {before bound : Str}
    (hcut : cut o.text (name ++ u) = some (before, bound)) : Str.strip before ≠ name := by
  obtain ⟨s, w, rfl, hs, hw⟩ : ∃ s w, u = s ++ w ∧ c.Spelled s ∧ Calm w := by
    cases h with
    | one first => exact ⟨u, [], (List.append_nil u).symm, first, nofun⟩
    | cons first rest => exact ⟨_, _, rfl, first, by simp [Calm, py]⟩
  have hclear : Clear o.text (name ++ s) w :=
    clear_append.mpr ⟨clear_inert _ hname.inert _, hs.clear ho hw⟩
  rw [← List.append_assoc, cut_of_clear hclear] at hcut
  obtain ⟨p, -, heq⟩ := Option.map_eq_some_iff.mp hcut
  obtain ⟨rfl, -⟩ := Prod.mk.inj heq
  -- the first symbol of the operator of the first clause stays
  have hsymbol : ∃ x ∈ c.operator.text, x.isSpace = false ∧ isIdSymbol "._-" x = false := by
    cases c.operator <;> exact ⟨_, List.mem_cons_self, by decide, by decide⟩
  obtain ⟨x, hx, hspace, hid⟩ := hsymbol
  have hmem : x ∈ name ++ s ++ p.1 :=
    List.mem_append_left _ (List.mem_append_right _ (hs.stands.subset hx))
  intro hstrip
  have hin : x ∈ name := hstrip ▸ mem_trim hmem hspace
  rw [hname.symbols x hin] at hid
  cases hid

theorem FirstIsFound.le {cs : List Clause} (h : FirstIsFound (c :: cs)) {d : Clause}
    (hd : d ∈ c :: cs) : c.operator.rank ≤ d.operator.rank := by
  rcases List.mem_cons.mp hd with rfl | hd
  · exact le_rfl
  · cases cs with
    | nil => cases hd
    | cons e cs => exact h.2 d hd

/-- What is cut off at the operator of the first clause is a description exactly if that is no pin, or is
the only clause. -/
theorem describes_front {r : Requirement} {cs : List Clause} {bound : Str} (hname : r.name = name)
    (hspecifier : r.specifier = some (c.operator.text ++ bound))
    (hversion : r.version = if c.operator = .equal then some bound else none)
    (hspelled : Spelled (c :: cs) (c.operator.text ++ bound)) (hpin : cs = [] → bound = c.version)
    (hfirst : ∀ d ∈ c :: cs, c.operator.rank ≤ d.operator.rank) :
    r.Describes name (c :: cs) ↔ FirstIsFound (c :: cs) := by
  cases cs with
  | nil =>
    refine iff_of_true ⟨hname, nofun, fun _ => ⟨_, hspecifier, hspelled⟩, fun v => ?_⟩ trivial
    rw [hversion, hpin rfl]
    constructor
    · intro hv
      split_ifs at hv with hequal
      exact ⟨c, rfl, hequal, Option.some.inj hv⟩
    · rintro ⟨_, hsame, hequal, rfl⟩
      obtain ⟨rfl, -⟩ := List.cons.inj hsame
      exact if_pos hequal
  | cons e cs =>
    constructor
    · intro hdescribes
      refine ⟨fun hequal => ?_, fun e he => hfirst e (List.mem_cons_of_mem c he)⟩
      rw [if_pos hequal] at hversion
      obtain ⟨_, hsame, -⟩ := (hdescribes.version_iff bound).mp hversion
      cases hsame
    · rintro ⟨hno, -⟩
      refine ⟨hname, nofun, fun _ => ⟨_, hspecifier, hspelled⟩, fun v => ?_⟩
      rw [hversion, if_neg hno]
      refine iff_of_false nofun ?_
      rintro ⟨_, hsame, -⟩
      cases hsame

/-- **An entry is described exactly if the operator of its first clause is found.** There is one clause
at most, or the first is no pin and its operator is searched no later than that of any other. -/
theorem parseRequirement_exact_exactly_when (hname : IsName name) {entry : Str}
    (h : Declares name clauses entry) :
    (parseRequirement entry).Describes name clauses ↔ FirstIsFound clauses := by
  obtain ⟨u, hstrip, hu⟩ := h.requirement hname
  cases clauses with
  | nil =>
    obtain rfl : u = [] := hu.bare rfl
    rw [List.append_nil] at hstrip
    simp only [parseRequirement, hstrip, findOperator_name hname]
    refine iff_of_true ⟨rfl, fun _ => rfl, fun hne => absurd rfl hne, fun v => ?_⟩ trivial
    refine iff_of_false nofun ?_
    rintro ⟨c, hnil, -⟩
    cases hnil
  | cons c cs =>
    have hne := List.cons_ne_nil c cs
    obtain ⟨o, before, bound, hfound, hcut, ⟨d, hd, hprefix⟩, hfirst⟩ :=
      findOperator_spelled hname hne hu.spelled
    simp only [parseRequirement, hstrip, hfound]
    by_cases ho : o = c.operator
    · subst ho
      obtain ⟨hbefore, hspelled, hpin⟩ := cut_front hname hu.spelled (hu.ends hne) hcut
      exact describes_front hbefore rfl rfl hspelled hpin hfirst
    · -- the operator that is found is searched before that of the first clause
      have hsooner : o.rank < c.operator.rank :=
        lt_of_le_of_ne (hfirst c List.mem_cons_self) fun heq => ho (Operator.rank_injective heq)
      refine iff_of_false ?_ ?_
      · intro hdescribes
        have hlater : ¬ o.text <+: c.operator.text := fun hprefix =>
          absurd (Operator.rank_le hprefix) (not_le.mpr hsooner)
        exact cut_later hname hu.spelled hlater hcut hdescribes.name_eq
      · intro hfound
        have hfirst := hfound.le hd
        have hsame := Operator.rank_le hprefix
        omega

/-- `>=1`. -/
def fromOne : Clause := ⟨.atLeast, py "1", List.cons_ne_nil _ _, by decide⟩

/-- `<2`. -/
def underTwo : Clause := ⟨.under, py "2", List.cons_ne_nil _ _, by decide⟩

theorem spelled_pair (c d : Clause) : Spelled [c, d]
    (c.operator.text ++ c.version ++ (py "," ++ (d.operator.text ++ d.version))) := by
  have hspelled : ∀ c : Clause, c.Spelled (c.operator.text ++ c.version) := by
    intro c
    have h := @Clause.Spelled.mk c [] [] [] nofun nofun nofun
    rwa [List.append_nil] at h
  exact .cons (hspelled c) (.one (hspelled d))

theorem isName_mcp : IsName (py "mcp") := ⟨List.cons_ne_nil _ _, by decide⟩

theorem parseRequirement_exact_exactly_when_bounded :
    (parseRequirement (py "mcp>=1,<2")).Describes (py "mcp") [fromOne, underTwo] ↔
      FirstIsFound [fromOne, underTwo] :=
  parseRequirement_exact_exactly_when isName_mcp
    (@Declares.bare _ _ [] _ nofun (spelled_pair fromOne underTwo))

/-- **A bound goes into the name**: the clause that comes second is the one that is found. -/
theorem bound_in_name : Declares (py "mcp") [underTwo, fromOne] (py "mcp<2,>=1") ∧
    ¬ (parseRequirement (py "mcp<2,>=1")).Describes (py "mcp") [underTwo, fromOne] ∧
    (parseRequirement (py "mcp<2,>=1")).name = py "mcp<2," ∧
    (parseRequirement (py "mcp<2,>=1")).specifier = some (py ">=1") := by
  have hname : (parseRequirement (py "mcp<2,>=1")).name = py "mcp<2," := rfl
  refine ⟨@Declares.bare _ _ [] _ nofun (spelled_pair underTwo fromOne), ?_, hname, rfl⟩
  intro hdescribes
  have hsame := hdescribes.name_eq
  rw [hname] at hsame
  revert hsame
  decide

end McpHeartbeat.Tools
