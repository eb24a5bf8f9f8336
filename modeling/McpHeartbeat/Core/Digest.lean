import McpHeartbeat.Core.Reading
import McpHeartbeat.Core.Timestamp

/-!
# What a digest tells apart

* `Heartbeat.Encodable`, **`digest_of_encodable`**, `digest_of_not_encodable`: when a digest exists;
  `encodable_iff`: a heartbeat that was read has one exactly when its extensions can be encoded;
* `Heartbeat.Coincides`: equal up to the rest of the millisecond and the order of members;
* **`digest_eq_iff`**: with an injective hash, the digests of two heartbeats agree exactly then.
-/

namespace McpHeartbeat

open Json Str

variable {P : Platform} {d : Json} {g h : Heartbeat}

namespace Heartbeat

/-- The members of `toDict`. -/
def members (P : Platform) (h : Heartbeat) : Members :=
  [(py "extension_version", .str h.extensionVersion),
    (py "node_id", Json.ofStr? h.nodeId),
    (py "boot_id", Json.ofStr? h.bootId),
    (py "sequence", Json.ofInt? h.sequence),
    (py "issued_at", .str (formatRfc3339 P h.issuedAt)),
    (py "expires_at", .str (formatRfc3339 P h.expiresAt))] ++
    if h.extensions = [] then [] else [(EXTENSIONS_KEY, .obj h.extensions)]

theorem toDict_eq (P : Platform) (h : Heartbeat) : h.toDict P = .obj (h.members P) := rfl

/-- The canonical text of the heartbeat can be encoded. -/
def Encodable (P : Platform) (h : Heartbeat) : Prop := (h.toDict P).WellFormed

instance : Decidable (h.Encodable P) := by unfold Encodable; infer_instance

/-- Equal up to the rest of the millisecond and the order of members. -/
structure Coincides (g h : Heartbeat) : Prop where
  version : g.extensionVersion = h.extensionVersion
  node : g.nodeId = h.nodeId
  boot : g.bootId = h.bootId
  seq : g.sequence = h.sequence
  issued : g.issuedAt.micros / 1000 = h.issuedAt.micros / 1000
  expires : g.expiresAt.micros / 1000 = h.expiresAt.micros / 1000
  extensions : (Json.obj g.extensions).Same (.obj h.extensions)

end Heartbeat

open Heartbeat

/-! ## When a digest exists -/

theorem wellFormed_canonicalJson (v : Json) : Str.WellFormed (canonicalJson v) ↔ v.WellFormed := by
  rw [canonicalJson, wellFormed_dump, wellFormed_canon]

/-- **An encodable heartbeat has a digest.** -/
theorem digest_of_encodable (he : h.Encodable P) : ∃ raw,
    (canonicalJson (h.toDict P)).encode = some raw ∧
      h.digest P = .ok (py "sha256:" ++ P.sha256 raw) := by
  have hw := (wellFormed_canonicalJson _).mpr he
  obtain ⟨raw, hraw⟩ := Option.isSome_iff_exists.mp ((encode_isSome _).mpr hw)
  exact ⟨raw, hraw, by rw [digest, digestOf, hraw]⟩

theorem digest_of_not_encodable (he : ¬ h.Encodable P) :
    h.digest P = .error .unicodeEncodeError := by
  have hw := (wellFormed_canonicalJson _).not.mpr he
  rw [← encode_isSome, Option.not_isSome_iff_eq_none] at hw
  rw [digest, digestOf, hw]

theorem idSymbol_scalar {extra : String} {c : CodePoint} (h : isIdSymbol extra c = true) :
    ∃ d, c = .scalar d := by
  rcases Bool.or_eq_true_iff.mp h with h | h
  · cases c with
    | scalar d => exact ⟨d, rfl⟩
    | surrogate s => cases h
  · obtain ⟨d, -, rfl⟩ := List.mem_map.mp (List.contains_iff_mem.mp h)
    exact ⟨d, rfl⟩

theorem wellFormed_idWord {extra : String} {n : ℕ} {s : Str} (h : idWord extra n s = true) :
    s.WellFormed := by
  apply wellFormed_scalars
  intro c hc
  cases s with
  | nil => cases h
  | cons e s =>
    simp only [idWord, Bool.and_eq_true, List.all_eq_true] at h
    rcases List.mem_cons.mp hc with rfl | hc
    · exact @idSymbol_scalar extra c (by simp [isIdSymbol, h.1.1])
    · exact idSymbol_scalar (h.2 c hc)

theorem wellFormed_matchDollar {word : Str → Bool} (hword : ∀ s, word s = true → s.WellFormed)
    {s : Str} (h : matchDollar word s = true) : s.WellFormed := by
  rcases Bool.or_eq_true_iff.mp h with h | h
  · exact hword s h
  · obtain ⟨hlast, hw⟩ := Bool.and_eq_true_iff.mp h
    obtain ⟨t, rfl⟩ := List.getLast?_eq_some_iff.mp (beq_iff_eq.mp hlast)
    rw [List.dropLast_concat] at hw
    exact wellFormed_append.mpr ⟨hword t hw, by simp [CodePoint.scalar?]⟩

/-- **A heartbeat that was read has a digest exactly when its extensions can be encoded.** -/
theorem encodable_iff (hr : Reads d h) :
    h.Encodable P ↔ (Json.obj h.extensions).WellFormed := by
  obtain ⟨m, -, hc⟩ := reads_iff.mp hr
  have hid : ∀ {re : Str → Bool} {o : Option Str}, (∀ s, re s = true → s.WellFormed) →
      (∀ s, o = some s → re s = true) → (Json.ofStr? o).WellFormed := by
    intro re o hre ho
    cases o with
    | none => simp [Json.ofStr?, Json.WellFormed, Json.texts]
    | some s => exact wellFormed_str.mpr (hre s (ho s rfl))
  have hnode := hid (fun s => wellFormed_matchDollar fun s => wellFormed_idWord) hc.node_re
  have hboot := hid (fun s => wellFormed_matchDollar fun s => wellFormed_idWord) hc.boot_re
  have hseq : (Json.ofInt? h.sequence).WellFormed := by
    cases h.sequence <;> simp [Json.ofInt?, Json.WellFormed, Json.texts]
  have hver : h.extensionVersion.WellFormed := by
    rw [hc.current]
    exact wellFormed_py _
  rw [Heartbeat.Encodable, toDict_eq, wellFormed_obj, members]
  simp only [List.forall_mem_append, List.forall_mem_cons, wellFormed_py, wellFormed_str, hnode,
    hboot, hseq, hver, wellFormed_formatRfc3339, and_self, List.not_mem_nil, false_implies,
    implies_true, true_and]
  by_cases hext : h.extensions = []
  · simp [hext, Json.WellFormed, Json.texts, Json.textsMembers]
  · rw [if_neg hext, List.forall_mem_singleton]
    exact and_iff_right (wellFormed_py _)

/-! ## When digests agree -/

theorem same_obj_nil {m : Members} : (Json.obj []).Same (.obj m) ↔ m = [] := by
  constructor
  · intro h
    rw [Same, canon_obj, canon_obj, Json.obj.injEq] at h
    have hlen := congrArg List.length h
    simpa [(sortKeys_perm _).length_eq, eq_comm] using hlen
  · rintro rfl
    rfl

theorem members_nodup (P : Platform) (h : Heartbeat) : ((h.members P).map Prod.fst).Nodup := by
  by_cases hext : h.extensions = []
  · rw [members, if_pos hext]
    exact (by decide : (CORE_FIELDS : List Str).Nodup)
  · rw [members, if_neg hext]
    exact (by decide : (CORE_FIELDS ++ [EXTENSIONS_KEY] : List Str).Nodup)

theorem item_extensions (P : Platform) (h : Heartbeat) :
    (h.members P).item EXTENSIONS_KEY =
      if h.extensions = [] then none else some (.obj h.extensions) := by
  by_cases hext : h.extensions = []
  · rw [members, if_pos hext, if_pos hext]
    rfl
  · rw [members, if_neg hext, if_neg hext]
    rfl

theorem canon_ofStr? (o : Option Str) : (Json.ofStr? o).canon = Json.ofStr? o := by
  cases o <;> rfl

theorem canon_ofInt? (o : Option ℤ) : (Json.ofInt? o).canon = Json.ofInt? o := by
  cases o <;> rfl

theorem Json.ofStr?_injective : Function.Injective Json.ofStr? := by
  intro o q h
  cases o <;> cases q <;> simp_all [Json.ofStr?]

theorem Json.ofInt?_injective : Function.Injective Json.ofInt? := by
  intro o q h
  cases o <;> cases q <;> simp_all [Json.ofInt?]

/-- The documents of two heartbeats are the same exactly when the heartbeats coincide. -/
theorem same_toDict_iff : (g.toDict P).Same (h.toDict P) ↔ g.Coincides h := by
  rw [toDict_eq, toDict_eq, same_obj (members_nodup P g) (members_nodup P h)]
  constructor
  · intro hs
    have hversion : some (Json.str g.extensionVersion) = some (.str h.extensionVersion) :=
      hs (py "extension_version")
    have hnode : some (Json.ofStr? g.nodeId).canon = some (Json.ofStr? h.nodeId).canon :=
      hs (py "node_id")
    have hboot : some (Json.ofStr? g.bootId).canon = some (Json.ofStr? h.bootId).canon :=
      hs (py "boot_id")
    have hseq : some (Json.ofInt? g.sequence).canon = some (Json.ofInt? h.sequence).canon :=
      hs (py "sequence")
    have hissued : some (Json.str (formatRfc3339 P g.issuedAt)) =
        some (.str (formatRfc3339 P h.issuedAt)) := hs (py "issued_at")
    have hexpires : some (Json.str (formatRfc3339 P g.expiresAt)) =
        some (.str (formatRfc3339 P h.expiresAt)) := hs (py "expires_at")
    have hext := hs EXTENSIONS_KEY
    rw [canon_ofStr?, canon_ofStr?, Option.some_inj] at hnode hboot
    rw [canon_ofInt?, canon_ofInt?, Option.some_inj] at hseq
    rw [Option.some_inj, Json.str.injEq, formatRfc3339_eq_iff] at hissued hexpires
    refine ⟨?_, Json.ofStr?_injective hnode, Json.ofStr?_injective hboot,
      Json.ofInt?_injective hseq, hissued, hexpires, ?_⟩
    · rwa [Option.some_inj, Json.str.injEq] at hversion
    · rw [item_extensions, item_extensions] at hext
      split_ifs at hext with hg hh hh
      · rw [hg, hh]
        rfl
      · cases hext
      · cases hext
      · exact Option.some_inj.mp hext
  · intro c k
    have hmap : (g.members P).map (fun p => (p.1, p.2.canon)) =
        (h.members P).map fun p => (p.1, p.2.canon) := by
      have hext : g.extensions = [] ↔ h.extensions = [] := by
        rw [← same_obj_nil, ← same_obj_nil]
        exact ⟨fun hg => hg.trans c.extensions, fun hh => hh.trans c.extensions.symm⟩
      have hissued := (@formatRfc3339_eq_iff P _ _).mpr c.issued
      have hexpires := (@formatRfc3339_eq_iff P _ _).mpr c.expires
      rw [members, members, c.version, c.node, c.boot, c.seq, hissued, hexpires, List.map_append,
        List.map_append]
      rw [List.append_right_inj]
      by_cases hg : g.extensions = []
      · rw [if_pos hg, if_pos (hext.mp hg)]
      · rw [if_neg hg, if_neg (hext.not.mp hg), List.map_singleton, List.map_singleton, c.extensions]
    rw [← item_canon, ← item_canon, hmap]

theorem Heartbeat.Coincides.refl (h : Heartbeat) : h.Coincides h :=
  ⟨rfl, rfl, rfl, rfl, rfl, rfl, rfl⟩

theorem Heartbeat.Coincides.encodable (c : g.Coincides h) : g.Encodable P ↔ h.Encodable P := by
  rw [Heartbeat.Encodable, Heartbeat.Encodable, ← wellFormed_canon, same_toDict_iff.mpr c,
    wellFormed_canon]

/-- Heartbeats that coincide have the same digest, if any. -/
theorem Heartbeat.Coincides.digest_eq (c : g.Coincides h) : g.digest P = h.digest P := by
  rw [digest, digest, digestOf, digestOf, canonicalJson, canonicalJson, same_toDict_iff.mpr c]

/-- **With an injective hash, digests agree exactly when heartbeats coincide.** -/
theorem digest_eq_iff (hsha : Function.Injective P.sha256) (hg : g.Encodable P)
    (hh : h.Encodable P) : g.digest P = h.digest P ↔ g.Coincides h := by
  refine ⟨fun he => ?_, Heartbeat.Coincides.digest_eq⟩
  obtain ⟨raw, hraw, hdg⟩ := digest_of_encodable hg
  obtain ⟨raw', hraw', hdh⟩ := digest_of_encodable hh
  rw [hdg, hdh, Except.ok.injEq, List.append_cancel_left_eq] at he
  obtain rfl := hsha he
  exact same_toDict_iff.mp (dump_escape_injective (encode_inj hraw hraw'))

/-- A document that can be encoded reads as a heartbeat that can. -/
theorem encodable_of_wellFormed (hr : Reads d h) (hw : d.WellFormed) : h.Encodable P := by
  rw [encodable_iff hr]
  obtain ⟨m, rfl, hc⟩ := reads_iff.mp hr
  rcases hc.extensions with ⟨-, hext⟩ | hext
  · rw [hext]
    simp [Json.WellFormed, Json.texts, Json.textsMembers]
  · have hitem : Members.item m EXTENSIONS_KEY = some (.obj h.extensions) := by
      cases hi : Members.item m EXTENSIONS_KEY with
      | none => simp [Members.get, hi] at hext
      | some v => simpa [Members.get, hi] using hext
    obtain ⟨l₁, l₂, rfl, -⟩ := List.lookup_eq_some_iff.mp hitem
    exact (wellFormed_obj.mp hw _ (List.mem_append_right l₁ List.mem_cons_self)).2

/-! ## A platform -/

/-- A platform whose hash keeps every byte. -/
def plainPlatform : Platform where
  sha256 raw := raw.data.toList.map fun b => .scalar (Char.ofNat b.toNat)
  padsYear := true

theorem plainPlatform_injective : Function.Injective plainPlatform.sha256 := by
  intro a b h
  have hbyte : Function.Injective fun b : UInt8 => CodePoint.scalar (Char.ofNat b.toNat) := by
    intro x y hxy
    have hnat : ∀ n < 256, (Char.ofNat n).toNat = n := by decide +kernel
    have := congrArg Char.toNat (CodePoint.scalar.inj hxy)
    rw [hnat _ x.toNat_lt, hnat _ y.toNat_lt] at this
    exact UInt8.toNat_inj.mp this
  have := List.map_injective_iff.mpr hbyte h
  exact ByteArray.ext (Array.toList_inj.mp this)

end McpHeartbeat
