import McpHeartbeat.Current.Subscriptions

/-!
# Which notifications carry a hint

* `Bears`: the place of a notification where a hint may stand; `CarriesHint`: a hint that is well
  typed;
* `parseHint_iff`: what the parser takes for a hint; the revision is not looked at;
* `isWholeDigest_iff`: the dollar of the digest pattern;
* **`parses_exactly_when`**: a notification is parsed exactly unless it bears a payload whose digest
  the pattern matches, and whose revision is no string or whose digest ends the line.
-/

namespace McpHeartbeat

/-! ## Hints that are well typed -/

/-- A notification of a change at `uri`, with `payload` where its hint is to stand. -/
structure Bears (n : Members) (uri : Str) (payload : Members) : Prop where
  method : n.get (py "method") = .str RESOURCE_UPDATED_NOTIFICATION
  params : ∃ params block : Members, n.get (py "params") = .obj params ∧
    params.get (py "uri") = .str uri ∧ params.get (py "_meta") = .obj block ∧
    block.get HEARTBEAT_HINT_META_KEY = .obj payload

/-- `sha256:` and then 64 lower-case hexadecimal digits, and nothing else. -/
def IsWholeDigest (digest : Str) : Prop :=
  ∃ hex, digest = py "sha256:" ++ hex ∧ hex.length = 64 ∧ ∀ c ∈ hex, isHex c = true

/-- A notification that carries a well-typed hint. -/
def CarriesHint (n : Members) (uri revision digest : Str) : Prop :=
  ∃ payload : Members, Bears n uri payload ∧ payload.get (py "revision") = .str revision ∧
    payload.get (py "digest") = .str digest ∧ IsWholeDigest digest

/-- The parser returns the hint that is carried, and none where none is. -/
def ParsesExactly (n : Members) : Prop :=
  ∀ hint, parseHint n = some hint ↔ ∃ uri revision digest, CarriesHint n uri revision digest ∧
    hint = { address := .str uri, revision := .str revision, digest }

/-! ## What the parser takes for a hint -/

/-- A member of a value is found in an object. -/
theorem member_eq_iff {v w : Json} (hw : w ≠ .null) (key : Str) :
    v.member key = w ↔ ∃ m : Members, v = .obj m ∧ m.get key = w := by
  cases v with
  | obj m => exact ⟨fun h => ⟨m, rfl, h⟩, fun ⟨_, hm, h⟩ => Json.obj.inj hm ▸ h⟩
  | _ => exact iff_of_false (fun h => hw h.symm) fun ⟨_, hm, _⟩ => nomatch hm

theorem bears_iff {n : Members} {uri : Str} {payload : Members} : Bears n uri payload ↔
    n.get (py "method") = .str RESOURCE_UPDATED_NOTIFICATION ∧
      (n.get (py "params")).member (py "uri") = .str uri ∧
      ((n.get (py "params")).member (py "_meta")).member HEARTBEAT_HINT_META_KEY =
        .obj payload := by
  constructor
  · rintro ⟨hmethod, params, block, hparams, huri, hblock, hpayload⟩
    rw [hparams, Json.member, Json.member, hblock, Json.member]
    exact ⟨hmethod, huri, hpayload⟩
  · rintro ⟨hmethod, huri, hpayload⟩
    obtain ⟨params, hparams, huri'⟩ := (member_eq_iff (by simp) _).mp huri
    obtain ⟨block, hblock, hpayload'⟩ := (member_eq_iff (by simp) _).mp hpayload
    rw [hparams] at hblock
    exact ⟨hmethod, params, block, hparams, huri', hblock, hpayload'⟩

/-- The check of a hint that names all its members is that of its digest. -/
theorem ChangeHint.fromDict_iff {address revision digest : Json} {hint : ChangeHint} :
    ChangeHint.fromDict [(py "address", address), (py "revision", revision),
        (py "digest", digest)] = .ok hint ↔
      hint.address = address ∧ hint.revision = revision ∧ digest = .str hint.digest ∧
        DIGEST_RE hint.digest = true := by
  constructor
  · intro h
    cases digest with
    | str d =>
      change (if DIGEST_RE d = true then Except.ok (ChangeHint.mk address revision d)
        else .error _) = _ at h
      split_ifs at h with hd
      obtain rfl := Except.ok.inj h
      exact ⟨rfl, rfl, rfl, hd⟩
    | _ => cases h
  · rintro ⟨rfl, rfl, rfl, hd⟩
    exact ChangeHint.fromDict_members hd

theorem toOption_eq_some_iff {ε α : Type} {x : Except ε α} {a : α} :
    x.toOption = some a ↔ x = .ok a := by
  cases x <;> simp [Except.toOption]

/-- **What the parser takes for a hint**: of the payload, only the digest is checked. -/
theorem parseHint_iff {n : Members} {hint : ChangeHint} : parseHint n = some hint ↔
    ∃ uri payload, Bears n uri payload ∧ hint.address = .str uri ∧
      hint.revision = Members.get payload (py "revision") ∧
      Members.get payload (py "digest") = .str hint.digest ∧ DIGEST_RE hint.digest = true := by
  simp only [bears_iff]
  unfold parseHint
  by_cases hmethod : n.get (py "method") = .str RESOURCE_UPDATED_NOTIFICATION
  · rw [if_neg (not_not.mpr hmethod)]
    split
    · rename_i uri payload huri hpayload
      rw [toOption_eq_some_iff, ChangeHint.fromDict_iff]
      constructor
      · intro h
        exact ⟨uri, payload, ⟨hmethod, huri, hpayload⟩, h⟩
      · rintro ⟨uri', payload', ⟨-, huri', hpayload'⟩, h⟩
        obtain rfl := Json.str.inj (huri.symm.trans huri')
        obtain rfl := Json.obj.inj (hpayload.symm.trans hpayload')
        exact h
    · rename_i hnone
      refine iff_of_false (fun h => nomatch h) ?_
      rintro ⟨uri, payload, ⟨-, huri, hpayload⟩, -⟩
      exact hnone uri payload huri hpayload
  · rw [if_pos hmethod]
    exact iff_of_false (fun h => nomatch h) fun ⟨_, _, ⟨h, _⟩, _⟩ => hmethod h

/-! ## The pattern of a digest -/

theorem digestWord_iff {s : Str} : digestWord s = true ↔ IsWholeDigest s := by
  have hlength : (py "sha256:").length = 7 := rfl
  simp only [digestWord, Bool.and_eq_true, beq_iff_eq, decide_eq_true_eq, List.all_eq_true]
  constructor
  · rintro ⟨⟨htake, hdrop⟩, hall⟩
    exact ⟨s.drop 7, by rw [← htake, List.take_append_drop], hdrop, hall⟩
  · rintro ⟨hex, rfl, hhex, hall⟩
    rw [← hlength, List.take_left, List.drop_left]
    exact ⟨⟨rfl, hhex⟩, hall⟩

/-- **A whole digest is what the pattern matches, unless it ends the line.** -/
theorem isWholeDigest_iff {s : Str} : IsWholeDigest s ↔
    DIGEST_RE s = true ∧ s.getLast? ≠ some (.scalar '\n') := by
  have hends : IsWholeDigest s → s.getLast? ≠ some (.scalar '\n') := by
    rintro ⟨hex, rfl, hlength, hall⟩ hlast
    have hne : hex ≠ [] := by
      rintro rfl
      cases hlength
    rw [List.getLast?_append_of_ne_nil _ hne] at hlast
    have hnewline := hall _ (List.mem_of_getLast? hlast)
    exact absurd hnewline (by decide)
  rw [DIGEST_RE, matchDollar, Bool.or_eq_true, Bool.and_eq_true, beq_iff_eq, digestWord_iff]
  constructor
  · intro h
    exact ⟨Or.inl h, hends h⟩
  · rintro ⟨h | ⟨hlast, -⟩, hline⟩
    · exact h
    · exact absurd hlast hline

/-! ## Exactness -/

/-- A payload whose digest the pattern matches is parsed, so it is to be well typed. -/
theorem ParsesExactly.typed {n : Members} (h : ParsesExactly n) {uri : Str} {payload : Members}
    {digest : Str} (hbears : Bears n uri payload)
    (hdigest : payload.get (py "digest") = .str digest) (hmatch : DIGEST_RE digest = true) :
    (∃ revision, payload.get (py "revision") = .str revision) ∧
      digest.getLast? ≠ some (.scalar '\n') := by
  let hint : ChangeHint :=
    { address := .str uri, revision := payload.get (py "revision"), digest }
  have hparsed : parseHint n = some hint :=
    parseHint_iff.mpr ⟨uri, payload, hbears, rfl, rfl, hdigest, hmatch⟩
  obtain ⟨uri', revision, digest', ⟨-, -, -, -, hwhole⟩, heq⟩ := (h hint).mp hparsed
  obtain ⟨-, hrevision, rfl⟩ := ChangeHint.mk.inj heq
  exact ⟨⟨revision, hrevision⟩, (isWholeDigest_iff.mp hwhole).2⟩

/-- **A notification is parsed exactly where every payload it bears, if the pattern matches its
digest, has a string for its revision and a digest that does not end the line.** -/
theorem parses_exactly_when (n : Members) : ParsesExactly n ↔
    ∀ (uri : Str) (payload : Members) (digest : Str), Bears n uri payload →
      payload.get (py "digest") = .str digest → DIGEST_RE digest = true →
        (∃ revision, payload.get (py "revision") = .str revision) ∧
          digest.getLast? ≠ some (.scalar '\n') := by
  constructor
  · intro h uri payload digest hbears hdigest hmatch
    exact h.typed hbears hdigest hmatch
  · intro h hint
    constructor
    · intro hparsed
      obtain ⟨uri, payload, hbears, haddress, hrevision, hdigest, hmatch⟩ :=
        parseHint_iff.mp hparsed
      obtain ⟨⟨revision, hstring⟩, hline⟩ := h uri payload hint.digest hbears hdigest hmatch
      have hwhole := isWholeDigest_iff.mpr ⟨hmatch, hline⟩
      refine ⟨uri, revision, hint.digest, ⟨payload, hbears, hstring, hdigest, hwhole⟩, ?_⟩
      rw [← haddress, ← hstring, ← hrevision]
    · rintro ⟨uri, revision, digest, ⟨payload, hbears, hrevision, hdigest, hwhole⟩, rfl⟩
      exact parseHint_iff.mpr ⟨uri, payload, hbears, rfl, hrevision.symm, hdigest,
        (isWholeDigest_iff.mp hwhole).1⟩

/-- A notification with this payload for its hint. -/
def notified (payload : Members) : Members :=
  [(py "method", .str RESOURCE_UPDATED_NOTIFICATION), (py "params", .obj [(py "uri", .str (py "u")),
    (py "_meta", .obj [(HEARTBEAT_HINT_META_KEY, .obj payload)])])]

theorem bears_notified (payload : Members) : Bears (notified payload) (py "u") payload :=
  ⟨rfl, _, _, rfl, rfl, rfl, rfl⟩

/-- The digest whose digits are all zero. -/
def zeroDigest : Str := py "sha256:" ++ List.replicate 64 (.scalar '0')

/-- **A payload without a revision passes for a hint**, and so does a digest that ends the line. -/
theorem malformed_hints_parsed :
    ¬ ParsesExactly (notified [(py "digest", .str zeroDigest)]) ∧
      ¬ ParsesExactly (notified [(py "revision", .str (py "epoch-a:3")),
        (py "digest", .str (zeroDigest ++ py "\n"))]) := by
  constructor
  · intro h
    obtain ⟨⟨revision, hrevision⟩, -⟩ :=
      h.typed (bears_notified _) rfl (by decide +kernel : DIGEST_RE zeroDigest = true)
    cases hrevision
  · intro h
    obtain ⟨-, hline⟩ := h.typed (bears_notified _) rfl
      (by decide +kernel : DIGEST_RE (zeroDigest ++ py "\n") = true)
    exact hline rfl

end McpHeartbeat
