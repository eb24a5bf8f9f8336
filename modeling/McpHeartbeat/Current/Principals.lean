import McpHeartbeat.Core.Digest
import McpHeartbeat.Current.Identity
import McpHeartbeat.Current.Subscriptions
import McpHeartbeat.Py.ReadBack

/-!
# Principals as keys

A policy is keyed by the compact text of a principal, and the text is parsed back.

* `UncheckedPrincipal`, `fromCompact`: what is unpacked from a text is not looked at;
* `Principal.joined`, `Principal.Unpaired`: the surrogate pairs of the components;
* `loads_compact`: what the text of a principal is read as; **`compact_eq_iff`**: when two
  principals share a key;
* `DenotesAgain`: a text makes a principal only if it is one; `Mints`: the texts that make another;
* **`principal_keys_faithful_exactly_when`**: how far keys are faithful.
-/

namespace McpHeartbeat

open Json

variable (D : Decoder)

/-! ## Parsing -/

/-- A `Principal` whose components can be any value. -/
structure UncheckedPrincipal where
  clientId : Json
  issuer : Json
  subject : Json

namespace Principal

variable (p : Principal)

/-- The components, as values. -/
def components : List Json := [ofStr? p.clientId, ofStr? p.issuer, ofStr? p.subject]

/-- A principal, as it is parsed. -/
def unchecked : UncheckedPrincipal := ⟨ofStr? p.clientId, ofStr? p.issuer, ofStr? p.subject⟩

/-- `Principal.from_compact`: what unpacks into three parts is a principal. -/
def fromCompact : Option Str → Except LoadsError (Option UncheckedPrincipal)
  | none => .ok none
  | some raw =>
    match loads D raw with
    | .error .valueError => .ok none
    | .error e => .error e
    | .ok v =>
      match tupleOf v with
      | some [clientId, issuer, subject] => .ok (some ⟨clientId, issuer, subject⟩)
      | _ => .ok none

/-- The principal with the surrogate pairs of its components joined. -/
def joined : Principal :=
  ⟨p.clientId.map joinPairs, p.issuer.map joinPairs, p.subject.map joinPairs⟩

/-- No component holds a surrogate pair. -/
def Unpaired : Prop := ∀ o ∈ [p.clientId, p.issuer, p.subject], ∀ s ∈ o, Json.Unpaired s

/-- The key of a principal is parsed back. -/
def RoundTrips : Prop := fromCompact D (some p.compact) = .ok (some p.unchecked)

/-- Nothing is raised, and what is made of a text is a principal that the text denotes, and that its
key denotes again. -/
structure DenotesAgain (raw : Str) : Prop where
  returns : ∀ e, fromCompact D (some raw) ≠ .error e
  denoted : ∀ q, fromCompact D (some raw) = .ok (some q) → ∃ p : Principal, q = p.unchecked ∧
    loads D raw = .ok (.arr p.components) ∧ loads D p.compact = loads D raw

/-- The texts that raise, or that make a principal of what is none. -/
inductive Mints (raw : Str) : Prop
  | nested (h : loads D raw = .error .recursionError)
  | object (m : Members) (h : loads D raw = .ok (.obj m)) (three : m.length = 3)
  | text (s : Str) (h : loads D raw = .ok (.str s)) (three : s.length = 3)
  | mistyped (xs : List Json) (h : loads D raw = .ok (.arr xs)) (three : xs.length = 3) (x : Json)
    (mem : x ∈ xs) (untyped : ∀ o, x ≠ ofStr? o)
  | paired (p : Principal) (h : loads D raw = .ok (.arr p.components)) (pair : ¬ p.Unpaired)

variable {D p}

/-! ## Keys -/

theorem compact_eq : p.compact = dump escapeAscii (.arr p.components) := by
  obtain ⟨clientId, issuer, subject⟩ := p
  cases clientId <;> cases issuer <;> cases subject <;> rfl

theorem components_injective : Function.Injective components := by
  rintro ⟨a, b, c⟩ ⟨a', b', c'⟩ h
  simp only [components, List.cons.injEq, and_true] at h
  obtain ⟨ha, hb, hc⟩ := h
  rw [Principal.mk.injEq]
  exact ⟨ofStr?_injective ha, ofStr?_injective hb, ofStr?_injective hc⟩

theorem unchecked_inj {q : Principal} (h : p.unchecked = q.unchecked) : p = q := by
  obtain ⟨ha, hb, hc⟩ := UncheckedPrincipal.mk.inj h
  apply components_injective
  rw [components, components, ha, hb, hc]

theorem readBack_ofStr? (depth : ℕ) (o : Option Str) :
    ReadBack (scanOnce D depth) (ofStr? o) (ofStr? (o.map joinPairs)) := by
  cases o with
  | none => exact readBack_null depth
  | some s => exact readBack_str depth s

/-- **The key of a principal is read as the principal with its pairs joined.** -/
theorem loads_compact : loads D p.compact = .ok (.arr p.joined.components) := by
  rw [compact_eq]
  refine loads_dump fun depth => ?_
  exact .cons (readBack_ofStr? depth _) (.cons (readBack_ofStr? depth _)
    (.cons (readBack_ofStr? depth _) .nil))

theorem fromCompact_components {raw : Str} (h : loads D raw = .ok (.arr p.components)) :
    fromCompact D (some raw) = .ok (some p.unchecked) := by
  rw [fromCompact, h]
  rfl

theorem map_joinPairs_eq_self_iff (o : Option Str) :
    o.map joinPairs = o ↔ ∀ s ∈ o, Json.Unpaired s := by
  cases o with
  | none => exact iff_of_true rfl fun _ h => nomatch h
  | some s =>
    rw [Option.map_some, Option.some.injEq, joinPairs_eq_self_iff]
    exact ⟨fun h t ht => Option.some.inj ht ▸ h, fun h => h s rfl⟩

theorem joined_eq_self_iff : p.joined = p ↔ p.Unpaired := by
  obtain ⟨clientId, issuer, subject⟩ := p
  rw [joined, Principal.mk.injEq, map_joinPairs_eq_self_iff, map_joinPairs_eq_self_iff,
    map_joinPairs_eq_self_iff]
  simp [Unpaired]

theorem dump_joined (o : Option Str) :
    dump escapeAscii (ofStr? (o.map joinPairs)) = dump escapeAscii (ofStr? o) := by
  cases o with
  | none => rfl
  | some s =>
    show quoted escapeAscii (joinPairs s) = quoted escapeAscii s
    rw [quoted, escape_joinPairs, quoted]

theorem compact_joined (p : Principal) : p.joined.compact = p.compact := by
  have hitems : ∀ a b c : Option Str, dump escapeAscii (.arr [ofStr? a, ofStr? b, ofStr? c]) =
      .scalar '[' :: (dump escapeAscii (ofStr? a) ++ .scalar ',' :: (dump escapeAscii (ofStr? b) ++
        .scalar ',' :: (dump escapeAscii (ofStr? c) ++ [.scalar ']']))) := fun a b c => rfl
  rw [compact_eq, compact_eq, components, components, hitems, hitems]
  show _ :: (dump escapeAscii (ofStr? (p.clientId.map joinPairs)) ++ _ ::
    (dump escapeAscii (ofStr? (p.issuer.map joinPairs)) ++ _ ::
      (dump escapeAscii (ofStr? (p.subject.map joinPairs)) ++ _))) = _
  rw [dump_joined, dump_joined, dump_joined]

/-- An interpreter as it is set by default; no float is read here. -/
def defaultDecoder : Decoder where
  depth := 1000
  depth_pos := by decide
  maxStrDigits := 4300
  readFloat _ := NAN

/-- **Two principals share a key exactly if they are the same with their pairs joined.** -/
theorem compact_eq_iff {q : Principal} : p.compact = q.compact ↔ p.joined = q.joined := by
  constructor
  · intro h
    have hp := @loads_compact defaultDecoder p
    rw [h, loads_compact, Except.ok.injEq, Json.arr.injEq] at hp
    exact components_injective hp.symm
  · intro h
    rw [← compact_joined p, h, compact_joined]

theorem roundTrips_iff : p.RoundTrips D ↔ p.Unpaired := by
  rw [RoundTrips, fromCompact_components loads_compact, Except.ok.injEq, Option.some.injEq,
    ← joined_eq_self_iff]
  exact ⟨unchecked_inj, congrArg unchecked⟩

/-! ## Texts -/

theorem fromCompact_unpacked {raw : Str} {v a b c : Json} (h : loads D raw = .ok v)
    (hv : tupleOf v = some [a, b, c]) : fromCompact D (some raw) = .ok (some ⟨a, b, c⟩) := by
  rw [fromCompact, h]
  dsimp only
  rw [hv]

/-- What a text that makes a principal is read as. -/
theorem unpacked_of_fromCompact {raw : Str} {q : UncheckedPrincipal}
    (h : fromCompact D (some raw) = .ok (some q)) :
    ∃ v, loads D raw = .ok v ∧ tupleOf v = some [q.clientId, q.issuer, q.subject] := by
  unfold fromCompact at h
  dsimp only at h
  split at h
  · cases h
  · cases h
  · rename_i v hv
    split at h
    · rename_i htuple
      obtain rfl := Option.some.inj (Except.ok.inj h)
      exact ⟨v, hv, htuple⟩
    · cases h

/-- Parsing raises where the nesting of the text does. -/
theorem fromCompact_error_iff {raw : Str} :
    (∃ e, fromCompact D (some raw) = .error e) ↔ loads D raw = .error .recursionError := by
  unfold fromCompact
  dsimp only
  cases hload : loads D raw with
  | error e =>
    cases e with
    | valueError => simp
    | recursionError => simp
    | outOfFuel => exact absurd hload (loads_ne_outOfFuel raw)
  | ok v =>
    dsimp only
    split <;> simp

/-- Three values, each null or a string, are a principal. -/
theorem components_of_typed {a b c : Json} (h : ∀ x ∈ [a, b, c], ∃ o, x = ofStr? o) :
    ∃ p : Principal, [a, b, c] = p.components ∧ UncheckedPrincipal.mk a b c = p.unchecked := by
  obtain ⟨clientId, rfl⟩ := h a (by simp)
  obtain ⟨issuer, rfl⟩ := h b (by simp)
  obtain ⟨subject, rfl⟩ := h c (by simp)
  exact ⟨⟨clientId, issuer, subject⟩, rfl, rfl⟩

/-- A text of one of the kinds raises, or is not denoted again. -/
theorem Mints.not_denotesAgain {raw : Str} (h : Mints D raw) : ¬ DenotesAgain D raw := by
  rintro ⟨hreturns, hdenoted⟩
  cases h with
  | nested h =>
    obtain ⟨e, he⟩ := fromCompact_error_iff.mpr h
    exact hreturns e he
  | object m h three =>
    obtain ⟨a, b, c, rfl⟩ := List.length_eq_three.mp three
    obtain ⟨p, -, harray, -⟩ := hdenoted _ (fromCompact_unpacked h rfl)
    rw [h] at harray
    cases harray
  | text s h three =>
    obtain ⟨a, b, c, rfl⟩ := List.length_eq_three.mp three
    obtain ⟨p, -, harray, -⟩ := hdenoted _ (fromCompact_unpacked h rfl)
    rw [h] at harray
    cases harray
  | mistyped xs h three x mem untyped =>
    obtain ⟨a, b, c, rfl⟩ := List.length_eq_three.mp three
    obtain ⟨p, -, harray, -⟩ := hdenoted _ (fromCompact_unpacked h rfl)
    rw [h, Except.ok.injEq, Json.arr.injEq] at harray
    rw [harray] at mem
    simp only [components, List.mem_cons, List.not_mem_nil, or_false] at mem
    rcases mem with hx | hx | hx <;> exact untyped _ hx
  | paired p h pair =>
    obtain ⟨q, hq, -, hagain⟩ := hdenoted _ (fromCompact_components h)
    obtain rfl := unchecked_inj hq
    rw [h, loads_compact, Except.ok.injEq, Json.arr.injEq] at hagain
    exact pair (joined_eq_self_iff.mp (components_injective hagain))

/-- Whatever an interpreter allows, some text raises. -/
theorem nested_not_denotesAgain (D : Decoder) :
    ¬ DenotesAgain D (List.replicate (D.depth + 1) (.scalar '[')) :=
  (Mints.nested loads_nested).not_denotesAgain

/-- A text of no such kind returns, and what it makes is a principal. -/
theorem denotesAgain_of_not_mints {raw : Str} (h : ¬ Mints D raw) : DenotesAgain D raw where
  returns e he := h (.nested (fromCompact_error_iff.mp ⟨e, he⟩))
  denoted q hq := by
    obtain ⟨v, hload, htuple⟩ := unpacked_of_fromCompact hq
    cases v with
    | arr xs =>
      obtain rfl := Option.some.inj htuple
      have htyped : ∀ x ∈ [q.clientId, q.issuer, q.subject], ∃ o, x = ofStr? o := by
        intro x hx
        by_contra hnone
        exact h (.mistyped _ hload rfl x hx (not_exists.mp hnone))
      obtain ⟨p, hcomponents, hunchecked⟩ := components_of_typed htyped
      rw [hcomponents] at hload
      have hunpaired : p.Unpaired := by
        by_contra hpair
        exact h (.paired p hload hpair)
      refine ⟨p, hunchecked, hload, ?_⟩
      rw [loads_compact, joined_eq_self_iff.mpr hunpaired, hload]
    | str s =>
      have hlength := congrArg List.length (Option.some.inj htuple)
      rw [List.length_map] at hlength
      exact absurd (.text s hload hlength) h
    | obj m =>
      have hlength := congrArg List.length (Option.some.inj htuple)
      rw [List.length_map] at hlength
      exact absurd (.object m hload hlength) h
    | null | bool _ | int _ | float _ => cases htuple

end Principal

open Principal

/-- **Keys are faithful as far as this**: a principal is parsed back exactly if no component holds a
surrogate pair, two principals share a key exactly if joining their pairs makes them the same, and a
text makes only the principals it denotes exactly if it is of none of the kinds that do not. -/
theorem principal_keys_faithful_exactly_when (D : Decoder) :
    (∀ p : Principal, p.RoundTrips D ↔ p.Unpaired) ∧
      (∀ p q : Principal, p.compact = q.compact ↔ p.joined = q.joined) ∧
      ∀ raw, DenotesAgain D raw ↔ ¬ Mints D raw :=
  ⟨fun _ => roundTrips_iff, fun _ _ => compact_eq_iff,
    fun _ => ⟨fun h hmints => hmints.not_denotesAgain h, denotesAgain_of_not_mints⟩⟩

/-- **A string of three symbols is taken for a principal**, as are an object of three members and
three numbers, brackets that open too deep raise, and two principals share a key. -/
theorem principals_minted :
    ¬ DenotesAgain defaultDecoder (py "\"abc\"") ∧
      ¬ DenotesAgain defaultDecoder (py "\x7b\"a\":1,\"b\":2,\"c\":3\x7d") ∧
      ¬ DenotesAgain defaultDecoder (py "[1,2,3]") ∧
      ¬ DenotesAgain defaultDecoder (List.replicate (defaultDecoder.depth + 1) (.scalar '[')) ∧
      ∃ p q : Principal, p ≠ q ∧ p.compact = q.compact ∧ ¬ p.RoundTrips defaultDecoder := by
  refine ⟨?_, ?_, ?_, ?_, ?_⟩
  · exact (Mints.text (py "abc") (by decide +kernel) rfl).not_denotesAgain
  · exact (Mints.object [(py "a", .int 1), (py "b", .int 2), (py "c", .int 3)] (by decide +kernel)
      rfl).not_denotesAgain
  · refine (Mints.mistyped [.int 1, .int 2, .int 3] (by decide +kernel) rfl (.int 1) (by simp)
      ?_).not_denotesAgain
    rintro (_ | _) <;> rintro ⟨⟩
  · exact nested_not_denotesAgain defaultDecoder
  · let pair : Str := [.surrogate 0, .surrogate 0x400]
    refine ⟨⟨some pair, none, none⟩, ⟨some (joinPairs pair), none, none⟩, ?_, ?_, ?_⟩
    · decide
    · exact compact_eq_iff.mpr (by decide +kernel)
    · intro h
      have hunpaired := roundTrips_iff.mp h (some pair) (by simp) pair rfl
      revert hunpaired
      decide

end McpHeartbeat
