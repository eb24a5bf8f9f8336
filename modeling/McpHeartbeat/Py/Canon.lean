import McpHeartbeat.Py.Dump

/-!
# Canonical forms

* `Json.texts`, `Json.WellFormed`: the strings of a value, and values without lone surrogates;
* **`wellFormed_dump`**, `wellFormed_canon`: the text of a value is well-formed exactly when the
  value is, in canonical form or not;
* `Json.Ascii`, **`dump_ascii_iff`**: the values that both settings of `ensure_ascii` write alike;
* `canon_obj`, **`same_obj`**: two objects with distinct names are the same when they have the same
  names with the same values.
-/

namespace McpHeartbeat.Json

open Base Str

mutual
/-- Every string of a value, names of members included. -/
def texts : Json → List Str
  | str s => [s]
  | arr xs => textsList xs
  | obj ms => textsMembers ms
  | _ => []

/-- The strings of the items of an array. -/
def textsList : List Json → List Str
  | [] => []
  | x :: xs => texts x ++ textsList xs

/-- The strings of the members of an object. -/
def textsMembers : Members → List Str
  | [] => []
  | (k, v) :: ms => k :: (texts v ++ textsMembers ms)
end

/-- A value whose strings can all be encoded. -/
def WellFormed (v : Json) : Prop := ∀ s ∈ v.texts, s.WellFormed

instance (v : Json) : Decidable v.WellFormed := by unfold WellFormed; infer_instance

theorem textsList_eq (xs : List Json) : textsList xs = xs.flatMap texts := by
  induction xs with
  | nil => rfl
  | cons x xs ih => rw [textsList, ih, List.flatMap_cons]

theorem textsMembers_eq (ms : Members) :
    textsMembers ms = ms.flatMap fun p => p.1 :: p.2.texts := by
  induction ms with
  | nil => rfl
  | cons p ms ih => rw [textsMembers, ih, List.flatMap_cons, List.cons_append]

theorem wellFormed_str {s : Str} : (str s).WellFormed ↔ s.WellFormed := by
  simp [WellFormed, texts]

theorem texts_arr (xs : List Json) : (arr xs).texts = xs.flatMap texts := by
  rw [texts, textsList_eq]

theorem texts_obj (ms : Members) : (obj ms).texts = ms.flatMap fun p => p.1 :: p.2.texts := by
  rw [texts, textsMembers_eq]

theorem wellFormed_obj {ms : Members} :
    (obj ms).WellFormed ↔ ∀ p ∈ ms, p.1.WellFormed ∧ p.2.WellFormed := by
  simp only [WellFormed, texts_obj, List.mem_flatMap, List.mem_cons]
  constructor
  · intro h p hp
    exact ⟨h _ ⟨p, hp, Or.inl rfl⟩, fun s hs => h s ⟨p, hp, Or.inr hs⟩⟩
  · rintro h s ⟨p, hp, rfl | hs⟩
    · exact (h p hp).1
    · exact (h p hp).2 s hs

/-! ## Canonical form -/

theorem canonList_eq (xs : List Json) : canonList xs = xs.map canon := by
  induction xs with
  | nil => rfl
  | cons x xs ih => rw [canonList, ih, List.map_cons]

theorem canonMembers_eq (ms : Members) : canonMembers ms = ms.map fun p => (p.1, p.2.canon) := by
  induction ms with
  | nil => rfl
  | cons p ms ih => rw [canonMembers, ih, List.map_cons]

theorem canon_arr (xs : List Json) : (arr xs).canon = arr (xs.map canon) := by
  rw [canon, canonList_eq]

theorem canon_obj (ms : Members) :
    (obj ms).canon = obj (sortKeys (ms.map fun p => (p.1, p.2.canon))) := by
  rw [canon, canonMembers_eq]

theorem sortKeys_perm (ms : Members) : (sortKeys ms).Perm ms := List.perm_insertionSort _ _

theorem mem_sortKeys {ms : Members} {p : Str × Json} : p ∈ sortKeys ms ↔ p ∈ ms :=
  (sortKeys_perm ms).mem_iff

/-- **The canonical form has the strings of the value.** -/
theorem mem_texts_canon {s : Str} (v : Json) : s ∈ v.canon.texts ↔ s ∈ v.texts := by
  induction v with
  | arr xs ih =>
    rw [canon_arr, texts_arr, texts_arr, List.mem_flatMap, List.mem_flatMap]
    simp only [List.mem_map, exists_exists_and_eq_and]
    exact exists_congr fun x => and_congr_right fun hx => ih x hx
  | obj ms ih =>
    rw [canon_obj, texts_obj, texts_obj, List.mem_flatMap, List.mem_flatMap]
    simp only [mem_sortKeys, List.mem_map, exists_exists_and_eq_and, List.mem_cons]
    exact exists_congr fun p => and_congr_right fun hp => or_congr_right (ih p hp)
  | _ => rw [canon]

theorem wellFormed_canon (v : Json) : v.canon.WellFormed ↔ v.WellFormed := by
  simp only [WellFormed, mem_texts_canon]

/-! ## The same value -/

section Same

variable {ms ns : Members}

theorem mem_iff_item (h : (ms.map Prod.fst).Nodup) {k : Str} {v : Json} :
    (k, v) ∈ ms ↔ Members.item ms k = some v := by
  unfold Members.item
  induction ms with
  | nil => simp
  | cons p ms ih =>
    obtain ⟨l, w⟩ := p
    rw [List.map_cons, List.nodup_cons] at h
    rw [List.lookup_cons, List.mem_cons, Prod.mk.injEq]
    by_cases hk : k = l
    · subst hk
      have hnot : (k, v) ∉ ms := fun hm => h.1 (List.mem_map.mpr ⟨(k, v), hm, rfl⟩)
      simp [hnot, eq_comm]
    · have hkl : (k == l) = false := beq_eq_false_iff_ne.mpr hk
      simp [hk, hkl, ih h.2]

instance : IsTrans (Str × Json) fun p q => p.1.keyLe q.1 := ⟨fun _ _ _ => keyLe_trans⟩

instance : Std.Total fun p q : Str × Json => p.1.keyLe q.1 := ⟨fun _ _ => keyLe_total _ _⟩

/-- Members with distinct names have one sorted order. -/
theorem sortKeys_eq_iff (hm : (ms.map Prod.fst).Nodup) :
    sortKeys ms = sortKeys ns ↔ ms.Perm ns := by
  constructor
  · intro h
    exact (sortKeys_perm ms).symm.trans (h ▸ sortKeys_perm ns)
  · intro h
    refine ((sortKeys_perm ms).trans (h.trans (sortKeys_perm ns).symm)).eq_of_pairwise ?_
      (List.pairwise_insertionSort _ _) (List.pairwise_insertionSort _ _)
    intro p q hp hq hpq hqp
    have hk : p.1 = q.1 := keyLe_antisymm hpq hqp
    have hp' := (mem_iff_item hm).mp (mem_sortKeys.mp hp)
    have hq' := (mem_iff_item hm).mp (h.mem_iff.mpr (mem_sortKeys.mp hq))
    rw [hk, hq'] at hp'
    exact Prod.ext hk (Option.some.inj hp').symm

theorem item_canon (ms : Members) (k : Str) :
    Members.item (ms.map fun p => (p.1, p.2.canon)) k = (Members.item ms k).map canon := by
  unfold Members.item
  induction ms with
  | nil => rfl
  | cons p ms ih =>
    rw [List.map_cons, List.lookup_cons, List.lookup_cons, ih]
    cases k == p.1 <;> rfl

/-- **Two objects with distinct names are the same value exactly when each name has the same value
in both.** -/
theorem same_obj (hm : (ms.map Prod.fst).Nodup) (hn : (ns.map Prod.fst).Nodup) :
    Same (obj ms) (obj ns) ↔
      ∀ k, (Members.item ms k).map canon = (Members.item ns k).map canon := by
  have hfst : ∀ l : Members, (l.map fun p => (p.1, p.2.canon)).map Prod.fst = l.map Prod.fst :=
    fun l => by rw [List.map_map]; rfl
  have hm' : ((ms.map fun p => (p.1, p.2.canon)).map Prod.fst).Nodup := by rwa [hfst]
  have hn' : ((ns.map fun p => (p.1, p.2.canon)).map Prod.fst).Nodup := by rwa [hfst]
  rw [Same, canon_obj, canon_obj, obj.injEq, sortKeys_eq_iff hm',
    List.perm_ext_iff_of_nodup hm'.of_map hn'.of_map]
  simp only [← item_canon]
  constructor
  · intro h k
    ext v
    rw [← mem_iff_item hm', ← mem_iff_item hn']
    exact h (k, v)
  · rintro h ⟨k, v⟩
    rw [mem_iff_item hm', mem_iff_item hn', h]

end Same

/-! ## Well-formed text -/

theorem wellFormed_scalars {s : Str} (h : ∀ c ∈ s, ∃ d, c = .scalar d) : s.WellFormed := by
  intro c hc
  obtain ⟨d, rfl⟩ := h c hc
  rfl

theorem wellFormed_longEscape (n : ℕ) : Str.WellFormed (longEscape n) := by
  apply wellFormed_scalars
  intro c hc
  simp only [longEscape, List.mem_cons, List.not_mem_nil, or_false] at hc
  rcases hc with rfl | rfl | rfl | rfl | rfl | rfl <;> exact ⟨_, rfl⟩

theorem wellFormed_escape (c : CodePoint) : Str.WellFormed (escape c) ↔ c.scalar?.isSome := by
  cases c with
  | surrogate s =>
    have h : escape (.surrogate s) = [.surrogate s] := by
      have hs : ¬ CodePoint.val (.surrogate s) < 0x20 := by simp only [CodePoint.val]; omega
      simp only [escape, shortEscape, reduceCtorEq, if_false, hs]
    rw [h]
    simp
  | scalar d =>
    refine iff_of_true ?_ rfl
    unfold escape
    split
    · rename_i e he
      unfold shortEscape at he
      split_ifs at he <;> cases he <;> simp [CodePoint.scalar?]
    · split_ifs
      · exact wellFormed_longEscape _
      · simp [CodePoint.scalar?]

section WellFormed

variable {esc : CodePoint → Str} {Q : CodePoint → Prop}
  (hesc : ∀ c, Str.WellFormed (esc c) ↔ Q c)

include hesc

theorem wellFormed_flatMap (s : Str) : Str.WellFormed (s.flatMap esc) ↔ ∀ c ∈ s, Q c := by
  induction s with
  | nil => simp
  | cons c s ih => rw [List.flatMap_cons, wellFormed_append, hesc, ih, List.forall_mem_cons]

theorem wellFormed_quoted (s : Str) : Str.WellFormed (quoted esc s) ↔ ∀ c ∈ s, Q c := by
  rw [quoted, wellFormed_cons, wellFormed_append, wellFormed_flatMap hesc]
  simp [CodePoint.scalar?]

end WellFormed

theorem wellFormed_natText (n : ℕ) : Str.WellFormed (natText n) := by
  apply wellFormed_scalars
  intro c hc
  obtain ⟨d, -, rfl⟩ := List.mem_map.mp hc
  exact ⟨_, rfl⟩

theorem wellFormed_intText (n : ℤ) : Str.WellFormed (intText n) := by
  cases n with
  | ofNat n => exact wellFormed_natText n
  | negSucc n => exact wellFormed_cons.mpr ⟨rfl, wellFormed_natText _⟩

theorem wellFormed_tail {β : Type*} {enc : β → Str} {sep close : Char} (bs : List β) :
    Str.WellFormed (tail enc (.scalar sep) (.scalar close) bs) ↔
      ∀ b ∈ bs, Str.WellFormed (enc b) := by
  induction bs with
  | nil => simp [tail, CodePoint.scalar?]
  | cons b bs ih => simp [tail, ih, CodePoint.scalar?]

theorem wellFormed_body {β : Type*} {enc : β → Str} {sep close : Char} (bs : List β) :
    Str.WellFormed (body enc (.scalar sep) (.scalar close) bs) ↔
      ∀ b ∈ bs, Str.WellFormed (enc b) := by
  cases bs with
  | nil => simp [body, CodePoint.scalar?]
  | cons b bs => simp [body, wellFormed_tail]

/-- The text of a value is well-formed exactly when the escapes of its symbols are. -/
theorem wellFormed_dump_of {esc : CodePoint → Str} {Q : CodePoint → Prop}
    (hesc : ∀ c, Str.WellFormed (esc c) ↔ Q c) (v : Json) :
    Str.WellFormed (dump esc v) ↔ ∀ s ∈ v.texts, ∀ c ∈ s, Q c := by
  induction v with
  | null => exact iff_of_true (wellFormed_py _) (by simp [texts])
  | bool b => cases b <;> exact iff_of_true (wellFormed_py _) (by simp [texts])
  | int n => exact iff_of_true (wellFormed_intText n) (by simp [texts])
  | float x =>
    refine iff_of_true (wellFormed_scalars fun c hc => ?_) (by simp [texts])
    obtain ⟨d, -, rfl⟩ := List.mem_map.mp hc
    exact ⟨_, rfl⟩
  | str s => rw [dump, wellFormed_quoted hesc, texts, List.forall_mem_singleton]
  | arr xs ih =>
    rw [dump_arr, wellFormed_cons, wellFormed_body, texts_arr, List.forall_mem_flatMap]
    simp only [CodePoint.scalar?, Option.isSome_some, true_and]
    exact forall₂_congr ih
  | obj ms ih =>
    rw [dump_obj, wellFormed_cons, wellFormed_body, texts_obj, List.forall_mem_flatMap]
    simp only [CodePoint.scalar?, Option.isSome_some, true_and, List.forall_mem_cons]
    refine forall₂_congr fun p hp => ?_
    rw [dumpMember, wellFormed_append, wellFormed_cons, wellFormed_quoted hesc, ih p hp]
    simp [CodePoint.scalar?]

/-- **The text of a value is well-formed exactly when the value is.** -/
theorem wellFormed_dump (v : Json) : Str.WellFormed (dump escape v) ↔ v.WellFormed :=
  wellFormed_dump_of wellFormed_escape v

/-! ## Text within ASCII -/

/-- A value of which every string is below `DEL`. -/
def Ascii (v : Json) : Prop := ∀ s ∈ v.texts, ∀ c ∈ s, c.val < 0x7F

instance (v : Json) : Decidable v.Ascii := by unfold Ascii; infer_instance

theorem ascii_canon (v : Json) : v.canon.Ascii ↔ v.Ascii := by
  simp only [Ascii, mem_texts_canon]

theorem shortEscape_lt {c e : CodePoint} (h : shortEscape c = some e) : c.val < 0x7F := by
  unfold shortEscape at h
  split_ifs at h <;> subst c <;> decide

/-- Below `DEL` the two settings of `ensure_ascii` escape alike. -/
theorem escapeAscii_of_lt {c : CodePoint} (h : c.val < 0x7F) : escapeAscii c = escape c := by
  unfold escapeAscii escape
  cases shortEscape c with
  | some e => rfl
  | none => simp only [h, if_true]

/-- From `DEL` on, `ensure_ascii` writes an escape or two where the other setting writes one
symbol. -/
theorem escapeAscii_of_le {c : CodePoint} (h : 0x7F ≤ c.val) :
    escape c = [c] ∧ 1 < (escapeAscii c).length ∧ Str.WellFormed (escapeAscii c) := by
  unfold escapeAscii escape
  cases hs : shortEscape c with
  | some e =>
    have := shortEscape_lt hs
    omega
  | none =>
    have h₁ : ¬ c.val < 0x20 := by omega
    have h₂ : ¬ c.val < 0x7F := by omega
    dsimp only
    rw [if_neg h₁, if_neg h₁, if_neg h₂]
    refine ⟨rfl, ?_⟩
    split_ifs
    · exact ⟨by simp [longEscape], wellFormed_longEscape _⟩
    · exact ⟨by simp [longEscape],
        wellFormed_append.mpr ⟨wellFormed_longEscape _, wellFormed_longEscape _⟩⟩

theorem wellFormed_escapeAscii (c : CodePoint) : Str.WellFormed (escapeAscii c) := by
  rcases Nat.lt_or_ge c.val 0x7F with h | h
  · rw [escapeAscii_of_lt h, wellFormed_escape]
    cases c with
    | scalar d => rfl
    | surrogate s => simp only [CodePoint.val] at h; omega
  · exact (escapeAscii_of_le h).2.2

/-- Any value has a text that can be encoded, with `ensure_ascii`. -/
theorem wellFormed_dump_ascii (v : Json) : Str.WellFormed (dump escapeAscii v) :=
  have hesc : ∀ c, Str.WellFormed (escapeAscii c) ↔ True := fun c =>
    iff_true_intro (wellFormed_escapeAscii c)
  (wellFormed_dump_of hesc v).mpr fun _ _ _ _ => trivial

section TwoEscapes

variable {esc esc' : CodePoint → Str}

theorem quoted_congr {s : Str} (h : ∀ c ∈ s, esc c = esc' c) : quoted esc s = quoted esc' s := by
  rw [quoted, quoted, List.flatMap_congr h]

/-- The text of a value depends on the escapes of its symbols only. -/
theorem dump_congr {v : Json} (h : ∀ s ∈ v.texts, ∀ c ∈ s, esc c = esc' c) :
    dump esc v = dump esc' v := by
  induction v with
  | str s => rw [dump, dump, quoted_congr (h s (by simp [texts]))]
  | arr xs ih =>
    rw [texts_arr, List.forall_mem_flatMap] at h
    rw [dump_arr, dump_arr, body_congr fun x hx => ih x hx (h x hx)]
  | obj ms ih =>
    rw [texts_obj, List.forall_mem_flatMap] at h
    rw [dump_obj, dump_obj, body_congr fun p hp => ?_]
    obtain ⟨hk, hv⟩ := List.forall_mem_cons.mp (h p hp)
    rw [dumpMember, dumpMember, quoted_congr hk, ih p hp hv]
  | bool b => cases b <;> rfl
  | _ => rfl

/-- What a longer escape adds to a string. -/
def excess (extra : CodePoint → ℕ) (s : Str) : ℕ := (s.map extra).sum

variable {extra : CodePoint → ℕ} (hextra : ∀ c, (esc' c).length = (esc c).length + extra c)

include hextra

theorem length_quoted (s : Str) :
    (quoted esc' s).length = (quoted esc s).length + excess extra s := by
  induction s with
  | nil => rfl
  | cons c s ih =>
    simp only [quoted, excess, List.flatMap_cons, List.length_cons, List.length_append,
      List.length_nil, List.map_cons, List.sum_cons, hextra c] at ih ⊢
    omega

/-- **A text is longer by what the escapes of its symbols are longer.** -/
theorem length_dump (v : Json) :
    (dump esc' v).length = (dump esc v).length + (v.texts.map (excess extra)).sum := by
  induction v with
  | str s => rw [dump, dump, length_quoted hextra, texts, List.map_singleton, List.sum_singleton]
  | arr xs ih =>
    rw [dump_arr, dump_arr, List.length_cons, List.length_cons, length_body ih, texts_arr,
      List.map_flatMap, List.flatMap_def, List.sum_flatten, List.map_map, Function.comp_def]
    omega
  | obj ms ih =>
    have hmember : ∀ p ∈ ms, (dumpMember esc' p).length = (dumpMember esc p).length +
        ((p.1 :: p.2.texts).map (excess extra)).sum := by
      intro p hp
      have hkey := length_quoted hextra p.1
      have hvalue := ih p hp
      simp only [dumpMember, List.length_append, List.length_cons, List.map_cons, List.sum_cons]
      omega
    rw [dump_obj, dump_obj, List.length_cons, List.length_cons, length_body hmember, texts_obj,
      List.map_flatMap, List.flatMap_def, List.sum_flatten, List.map_map, Function.comp_def]
    omega
  | bool b => cases b <;> simp [dump, texts]
  | _ => simp [dump, texts]

end TwoEscapes

/-- **The two settings of `ensure_ascii` write a value alike exactly below `DEL`.** -/
theorem dump_ascii_iff (v : Json) : dump escapeAscii v = dump escape v ↔ v.Ascii := by
  constructor
  · intro h s hs c hc
    by_contra hlt
    let extra (c : CodePoint) : ℕ := (escapeAscii c).length - (escape c).length
    have hextra : ∀ c, (escapeAscii c).length = (escape c).length + extra c := by
      intro c
      rcases Nat.lt_or_ge c.val 0x7F with h | h
      · simp [extra, escapeAscii_of_lt h]
      · have := escapeAscii_of_le h
        simp only [extra, this.1, List.length_singleton]
        omega
    have hzero : (v.texts.map (excess extra)).sum = 0 := by
      have := length_dump hextra v
      rw [h] at this
      omega
    have hs0 : excess extra s = 0 :=
      List.sum_eq_zero_iff_forall_eq_nat.mp hzero _ (List.mem_map_of_mem hs)
    have hc0 : extra c = 0 :=
      List.sum_eq_zero_iff_forall_eq_nat.mp hs0 _ (List.mem_map_of_mem hc)
    obtain ⟨he, hl, -⟩ := escapeAscii_of_le (Nat.le_of_not_lt hlt)
    simp only [extra, he, List.length_singleton] at hc0
    omega
  · intro h
    exact dump_congr fun s hs c hc => escapeAscii_of_lt (h s hs c hc)

end McpHeartbeat.Json
