import McpHeartbeat.Cleanroom.Participant
import McpHeartbeat.Core.Digest

/-!
# Two digests

The clean-room encoder leaves `ensure_ascii` on, the reference encoder turns it off.

* `CleanRoom.digest_ok`: the clean-room digest of any document exists;
* `canonicalJson_eq_iff`: the two canonical texts of a document are one exactly when its strings are
  below `DEL`;
* **`digests_agree_exactly_when`**: with an injective hash, so are the two digests.
-/

namespace McpHeartbeat

open Json Str

variable {P : Platform} {d : Json} {h : Heartbeat}

/-- **The clean-room digest of any document exists**: its text has no lone surrogate left. -/
theorem CleanRoom.digest_ok (P : Platform) (d : Json) : ∃ raw,
    (CleanRoom.canonicalJson d).encode = some raw ∧
      CleanRoom.digest P d = .ok (py "sha256:" ++ P.sha256 raw) := by
  have hw : (CleanRoom.canonicalJson d).encode.isSome :=
    (encode_isSome _).mpr (wellFormed_dump_ascii d.canon)
  obtain ⟨raw, hraw⟩ := Option.isSome_iff_exists.mp hw
  exact ⟨raw, hraw, by rw [CleanRoom.digest, hraw]⟩

theorem canonicalJson_eq_iff : CleanRoom.canonicalJson d = canonicalJson d ↔ d.Ascii := by
  rw [CleanRoom.canonicalJson, canonicalJson, dump_ascii_iff, ascii_canon]

/-- With an injective hash the digests agree exactly when the texts do. -/
theorem digest_eq_iff_text (hsha : Function.Injective P.sha256) :
    CleanRoom.digest P (h.toDict P) = h.digest P ↔
      CleanRoom.canonicalJson (h.toDict P) = canonicalJson (h.toDict P) := by
  constructor
  · intro heq
    obtain ⟨raw, hraw, hclean⟩ := CleanRoom.digest_ok P (h.toDict P)
    by_cases he : h.Encodable P
    · obtain ⟨raw', hraw', hreference⟩ := digest_of_encodable he
      rw [hclean, hreference, Except.ok.injEq, List.append_cancel_left_eq] at heq
      obtain rfl := hsha heq
      exact encode_inj hraw hraw'
    -- a lone surrogate: the reference raises and the clean room does not
    · rw [hclean, digest_of_not_encodable he] at heq
      cases heq
  · intro heq
    obtain ⟨raw, hraw, hclean⟩ := CleanRoom.digest_ok P (h.toDict P)
    rw [heq] at hraw
    rw [hclean, Heartbeat.digest, digestOf, hraw]

/-- **When the two implementations digest a heartbeat alike**: no string of its document reaches
`DEL`. -/
theorem digests_agree_exactly_when (hsha : Function.Injective P.sha256) (h : Heartbeat) :
    CleanRoom.digest P (h.toDict P) = h.digest P ↔ (h.toDict P).Ascii := by
  rw [digest_eq_iff_text hsha, canonicalJson_eq_iff]

/-- A heartbeat with one extension. -/
def annotated (note : String) : Heartbeat where
  nodeId := some (py "node")
  bootId := some (py "boot")
  sequence := some 0
  issuedAt := ⟨0, by decide⟩
  expiresAt := ⟨30000000, by decide⟩
  extensionVersion := EXTENSION_VERSION
  extensions := [(py "com.example", .str (py note))]

theorem digests_agree_exactly_when_plain :
    CleanRoom.digest plainPlatform ((annotated "cafe").toDict plainPlatform) =
      (annotated "cafe").digest plainPlatform ↔
        ((annotated "cafe").toDict plainPlatform).Ascii :=
  digests_agree_exactly_when plainPlatform_injective _

/-- **The digests part** on a letter outside ASCII in an extension. -/
theorem digests_part : ¬ ∀ (P : Platform) (h : Heartbeat), Function.Injective P.sha256 →
    (∀ p ∈ h.extensions, namespaced p.1 = true) → (Json.obj h.extensions).WellFormed →
      CleanRoom.digest P (h.toDict P) = h.digest P := by
  intro hall
  have heq := hall plainPlatform (annotated "café") plainPlatform_injective (by decide) (by decide)
  have hascii := canonicalJson_eq_iff.mp ((digest_eq_iff_text plainPlatform_injective).mp heq)
  exact absurd hascii (by decide +kernel)

end McpHeartbeat
