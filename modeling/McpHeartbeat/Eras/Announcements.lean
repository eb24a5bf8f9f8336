import McpHeartbeat.Core.Issuer
import McpHeartbeat.Core.RoundTrip
import McpHeartbeat.Current.Subscriptions
import McpHeartbeat.Legacy.Resources

/-!
# What a hint announces

* `Announces`: a hint with the revision and the digest of a heartbeat; `Announces.matches_iff`;
* `current_announces`, `legacy_announces`: what is read back of a hint in either era;
* `HeartbeatIssuer.Lawful`, `Lawful.reads`: a heartbeat that was issued, as it is read back;
* **`hint_announces`**: either hint matches exactly the heartbeats with that canonical document.
-/

namespace McpHeartbeat

open Legacy

variable {P : Platform} {g h : Heartbeat} {hint : ChangeHint}

/-- A hint with the revision and the digest of `h`. -/
structure Announces (P : Platform) (hint : ChangeHint) (h : Heartbeat) : Prop where
  revision : hint.revision = .str h.revision
  digest : h.digest P = .ok hint.digest

/-- The canonical texts of two heartbeats do not collide. -/
def Uncollided (P : Platform) (g h : Heartbeat) : Prop :=
  ∀ raw raw', (canonicalJson (g.toDict P)).encode = some raw →
    (canonicalJson (h.toDict P)).encode = some raw' → P.sha256 raw = P.sha256 raw' → raw = raw'

theorem canonicalJson_toDict_iff :
    canonicalJson (g.toDict P) = canonicalJson (h.toDict P) ↔ g.Coincides h :=
  Json.dump_escape_injective.eq_iff.trans same_toDict_iff

/-- **What an announcement matches.** -/
theorem Announces.matches_iff (ha : Announces P hint h) (hapart : Uncollided P g h) :
    hint.matches P g = .ok true ↔ canonicalJson (g.toDict P) = canonicalJson (h.toDict P) := by
  rw [ChangeHint.matches_iff, canonicalJson_toDict_iff]
  constructor
  · rintro ⟨-, hdigest⟩
    have hg : g.Encodable P := by
      by_contra hno
      cases hdigest.symm.trans (digest_of_not_encodable hno)
    have hh : h.Encodable P := by
      by_contra hno
      cases ha.digest.symm.trans (digest_of_not_encodable hno)
    obtain ⟨raw, hraw, hdg⟩ := digest_of_encodable hg
    obtain ⟨raw', hraw', hdh⟩ := digest_of_encodable hh
    have hsame : P.sha256 raw = P.sha256 raw' := by
      have he := (hdg.symm.trans hdigest).trans (ha.digest.symm.trans hdh)
      rwa [Except.ok.injEq, List.append_cancel_left_eq] at he
    obtain rfl := hapart raw raw' hraw hraw' hsame
    exact canonicalJson_toDict_iff.mp (Str.encode_inj hraw hraw')
  · intro hc
    have hrevision : g.revision = h.revision := by
      rw [Heartbeat.revision, Heartbeat.revision, hc.boot, hc.seq]
    exact ⟨by rw [ha.revision, hrevision], hc.digest_eq.trans ha.digest⟩

theorem Announces.congr (ha : Announces P hint h) (hc : g.Coincides h) : Announces P hint g where
  revision := by rw [ha.revision, Heartbeat.revision, Heartbeat.revision, hc.boot, hc.seq]
  digest := hc.digest_eq.trans ha.digest

/-! ## Two wires -/

/-- The hint of a heartbeat, as a peer of the current era reads it. -/
def currentHint (P : Platform) (h : Heartbeat) (uri : Str) : Option ChangeHint :=
  (ChangeHint.forHeartbeat P h uri).toOption.bind fun hint =>
    parseHint (buildResourceUpdated uri (some hint) .null)

/-- The hint of a heartbeat, as a legacy peer reads it from the extended notification. -/
def legacyHint (P : Platform) (repr : Json → Str) (h : Heartbeat) : Option ChangeHint :=
  (updatedNotifications P h true).toOption.bind fun notifications =>
    notifications[1]?.bind fun extended =>
      (parseUpdated repr extended.1 (some extended.2)).toOption.bind fun hint =>
        hint.toCoreHint.toOption

variable {digest : Str}

/-- **What a peer of the current era reads.** -/
theorem current_announces (hd : h.digest P = .ok digest) (hdigest : isDigest (.str digest) = true)
    (uri : Str) :
    currentHint P h uri = some ⟨.str uri, .str h.revision, digest⟩ := by
  have hhint : ChangeHint.forHeartbeat P h uri = .ok ⟨.str uri, .str h.revision, digest⟩ := by
    rw [ChangeHint.forHeartbeat, hd]
    rfl
  rw [currentHint, hhint]
  exact parseHint_build uri .null hdigest

/-- A revision is not empty. -/
theorem revision_ne_nil (h : Heartbeat) : h.revision ≠ [] := by
  rw [Heartbeat.revision]
  simp [py]

/-- **What a legacy peer reads.** -/
theorem legacy_announces (repr : Json → Str) {p : Str} (hp : p ≠ []) (hn : h.nodeId = some p)
    (hd : h.digest P = .ok digest) (hdigest : isDigest (.str digest) = true) :
    legacyHint P repr h = some ⟨.str (heartbeatUri p), .str h.revision, digest⟩ := by
  have hnotifications : updatedNotifications P h true = .ok
      [(STANDARD_UPDATED_METHOD, [(py "uri", .str (heartbeatUri p))]),
        (EXTENDED_UPDATED_METHOD, [(py "uri", .str (heartbeatUri p)),
          (py "revision", .str h.revision), (py "digest", .str digest)])] := by
    unfold updatedNotifications
    rw [hn, hd]
    rfl
  rw [legacyHint, hnotifications]
  show (parseUpdated repr EXTENDED_UPDATED_METHOD _).toOption.bind _ = _
  rw [parseUpdated_extended repr hp (revision_ne_nil h) hdigest]
  rfl

/-! ## What is issued -/

/-- An issue within the contract: the identifiers match their patterns, the extensions are
namespaced and well-formed, the lease is from a millisecond to an hour, and the clock reads year
`1000` or later. -/
structure HeartbeatIssuer.Lawful (s : HeartbeatIssuer) (now : Datetime) : Prop where
  node : NODE_ID_RE s.participantId = true
  boot : BOOT_ID_RE s.epochId = true
  namespaced : ∀ q ∈ s.extensions, McpHeartbeat.namespaced q.1 = true
  wellFormed : (Json.obj s.extensions).WellFormed
  lease : 1000 ≤ s.lease ∧ s.lease ≤ MAX_LEASE
  year : 1000 ≤ now.year

variable {s : HeartbeatIssuer} {now : Datetime}

/-- **What is issued reads as itself, cut to milliseconds.** -/
theorem HeartbeatIssuer.Lawful.reads (P : Platform) (hs : s.Lawful now) (hby : IssuedBy s now h) :
    Reads (h.toDict P) h.toMillis := by
  have hyear : 1000 ≤ h.issuedAt.year := hby.issued ▸ hs.year
  have hlease : h.expiresAt.instant = h.issuedAt.instant + s.lease := hby.issued ▸ hby.expires
  have hdates := dates_of_lease P hyear hlease hs.lease.1
  have hproper : h.Proper := {
    current := hby.current
    node_re := fun _ hn => Option.some.inj (hby.node.symm.trans hn) ▸ hs.node
    boot_re := fun _ hb => Option.some.inj (hby.boot.symm.trans hb) ▸ hs.boot
    seq_nonneg := fun _ hn => Option.some.inj (hby.seq.symm.trans hn) ▸ Int.natCast_nonneg _
    namespaced := hby.extensions ▸ hs.namespaced }
  exact toDict_reads hproper hdates.1 hdates.2 (windowed_of_lease hlease hs.lease.1 hs.lease.2)

/-- A hint that carries the address it was sent with, matches `g`, and matches no other canonical
document. -/
structure Faithful (P : Platform) (hint : ChangeHint) (address : Str) (g : Heartbeat) : Prop where
  address : hint.address = .str address
  announced : hint.matches P g = .ok true
  exact : ∀ g', Uncollided P g' g →
    (hint.matches P g' = .ok true ↔ canonicalJson (g'.toDict P) = canonicalJson (g.toDict P))

theorem Announces.faithful {address : Str} (ha : Announces P hint g)
    (haddress : hint.address = .str address) : Faithful P hint address g where
  address := haddress
  announced := ChangeHint.matches_iff.mpr ⟨ha.revision, ha.digest⟩
  exact _ hapart := ha.matches_iff hapart

/-- **A hint announces exactly its document**, in both eras. -/
theorem hint_announces (hhex : P.Hexadecimal) (repr : Json → Str) (hs : s.Lawful now)
    (hissue : (s.issue now).1 = .ok h) (uri : Str) :
    ∃ g current legacy, Heartbeat.fromDict (h.toDict P) = .ok g ∧
      currentHint P h uri = some current ∧ Faithful P current uri g ∧
      legacyHint P repr h = some legacy ∧
        Faithful P legacy (heartbeatUri s.participantId) g := by
  have hby := issue_ok hissue
  have hread := hs.reads P hby
  have hsame : h.toMillis.Coincides h :=
    canonicalJson_toDict_iff.mp (congrArg canonicalJson (toDict_toMillis P h))
  have henc : h.Encodable P := by
    rw [← hsame.encodable, encodable_iff hread]
    show (Json.obj h.extensions).WellFormed
    rw [hby.extensions]
    exact hs.wellFormed
  obtain ⟨raw, -, hdigest⟩ := digest_of_encodable henc
  have hword := isDigest_hex hhex raw
  have hp : s.participantId ≠ [] := by
    intro hnil
    have hnode := hs.node
    rw [hnil] at hnode
    cases hnode
  refine ⟨h.toMillis, _, _, hread.parse, current_announces hdigest hword uri, ?_,
    legacy_announces repr hp hby.node hdigest hword, ?_⟩
  · exact Announces.faithful (Announces.congr ⟨rfl, hdigest⟩ hsame) rfl
  · exact Announces.faithful (Announces.congr ⟨rfl, hdigest⟩ hsame) rfl

/-! ## One announcement -/

/-- The document of a first lease of thirty seconds. -/
def firstLease : Json :=
  .obj (beatMembers "2026-01-01T00:00:00.000Z" "2026-01-01T00:00:30.000Z")

/-- Its hash. -/
def firstLeaseHash : Str := py "28295200ce8e8f7dfe19ca8df6ccf89ddff0983a9255a059cd83274954cadb47"

/-- A platform that knows the hash of the first lease, and has some digits for any other text. -/
def leasePlatform : Platform where
  sha256 raw :=
    if (canonicalJson firstLease).encode.map ByteArray.data = some raw.data then firstLeaseHash
    else fixed 64 raw.size
  padsYear := true

theorem leasePlatform_hexadecimal : leasePlatform.Hexadecimal := by
  intro raw
  by_cases hraw : (canonicalJson firstLease).encode.map ByteArray.data = some raw.data
  · have hsha : leasePlatform.sha256 raw = firstLeaseHash := by
      simp only [leasePlatform, if_pos hraw]
    rw [hsha]
    decide +kernel
  · have hsha : leasePlatform.sha256 raw = fixed 64 raw.size := by
      simp only [leasePlatform, if_neg hraw]
    rw [hsha, List.all_eq_true]
    refine ⟨length_fixed _ _, ?_⟩
    intro c hc
    obtain ⟨d, hd, rfl⟩ := mem_fixed hc
    have hdigit : ∀ d < 10, isHex (Json.digit d) = true := by decide
    exact hdigit d hd

/-- An issuer of leases of thirty seconds. -/
def leaseIssuer : HeartbeatIssuer :=
  .init (py "node") (some (py "boot")) [] (30 * second) []

theorem hint_announces_lease :
    ∃ h g current legacy, (leaseIssuer.issue newYearMoment).1 = .ok h ∧
      Heartbeat.fromDict (h.toDict leasePlatform) = .ok g ∧
      currentHint leasePlatform h (py "heartbeat://node") = some current ∧
      Faithful leasePlatform current (py "heartbeat://node") g ∧
      legacyHint leasePlatform (fun _ => []) h = some legacy ∧
        Faithful leasePlatform legacy (heartbeatUri (py "node")) g := by
  have hlawful : leaseIssuer.Lawful newYearMoment := {
    node := by decide
    boot := by decide
    namespaced := by simp [leaseIssuer, HeartbeatIssuer.init]
    wellFormed := by decide
    lease := by decide
    year := by decide +kernel }
  have hok : (leaseIssuer.issue newYearMoment).1.toOption.isSome = true := by decide +kernel
  cases hissue : (leaseIssuer.issue newYearMoment).1 with
  | error e => rw [hissue] at hok; cases hok
  | ok h =>
    obtain ⟨g, current, legacy, hall⟩ := hint_announces leasePlatform_hexadecimal (fun _ => [])
      hlawful hissue (py "heartbeat://node")
    exact ⟨h, g, current, legacy, rfl, hall⟩

end McpHeartbeat
