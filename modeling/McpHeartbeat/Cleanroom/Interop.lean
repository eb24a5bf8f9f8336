import McpHeartbeat.Cleanroom.Judgement
import McpHeartbeat.Core.History
import McpHeartbeat.Core.Issuer
import McpHeartbeat.Core.RoundTrip

/-!
# Two implementations, four pairings

Either issuer, with restarts, delivers its documents in order at the instants they were issued.

* `Emission`, `Issued`: a document under way, and what stands behind it;
* `Issued.reads`, `Issued.timely`, `Issued.clean`, `Issued.fresh`: both sides read it in its
  millisecond;
* `Stream`, `Stream.reference`, `Stream.cleanRoom`: each consumer accepts a ledger of such
  documents;
* `stream_reference`, `stream_cleanRoom`: each issuer emits one; the clean-room issuer is the
  reference issuer that may skip a number;
* **`interoperates`**: both consumers accept everything either issuer emits.
-/

namespace McpHeartbeat

open Base

variable (P : Platform)

/-- A document, delivered at the instant it was issued. -/
structure Emission where
  document : Json
  now : Datetime

/-- The delivery to the reference consumer, with the default bound. -/
def Emission.call (e : Emission) : Call := ⟨e.document, e.now.instant, DEFAULT_MAX_SKEW⟩

/-- A heartbeat under way. -/
def Heartbeat.emission (h : Heartbeat) : Emission := ⟨h.toDict P, h.issuedAt⟩

namespace CleanRoom

/-- What a clean-room participant does. -/
inductive Step
  | restart (bootId : Str)
  | issue (now : Datetime)

/-- The epoch a restart begins. -/
def Step.epoch? : Step → Option Str
  | .restart bootId => some bootId
  | .issue _ => none

/-- The clean-room issuer; the journal is what it emits. -/
def publisher : Machine Issuer Step Emission where
  next
    | s, .restart bootId => s.restart bootId
    | s, .issue now => (s.issue P now).2
  entry
    | _, .restart _ => none
    | s, .issue now => (s.issue P now).1.toOption.map fun d => ⟨d, now⟩

/-- The clean-room consumer; the journal is what it answers. -/
def consumer : Machine Consumer Emission Answer where
  next c e := (c.admitDocument P e.document e.now.instant).2
  entry c e := (c.admitDocument P e.document e.now.instant).1.toOption

end CleanRoom

/-! ## What is issued -/

/-- A heartbeat as either issuer mints it: the identifiers match their patterns as a whole, the
clock reads year `1000` or later, and the lease is from a millisecond to an hour. -/
structure Issued (p : Str) (h : Heartbeat) : Prop where
  node : h.nodeId = some p
  node_word : idWord "._:/+-" 254 p = true
  boot : ∃ b, h.bootId = some b ∧ idWord "._-" 127 b = true
  seq : ∃ n : ℤ, h.sequence = some n ∧ 0 ≤ n
  current : h.extensionVersion = EXTENSION_VERSION
  namespaced : ∀ q ∈ h.extensions, namespaced q.1 = true
  year : 1000 ≤ h.issuedAt.year
  lease : ∃ lease, h.expiresAt.instant = h.issuedAt.instant + lease ∧ 1000 ≤ lease ∧
    lease ≤ MAX_LEASE

variable {P} {p : Str} {h : Heartbeat}

theorem matchDollar_of_word {word : Str → Bool} {s : Str} (hs : word s = true) :
    matchDollar word s = true := by
  rw [matchDollar, hs, Bool.true_or]

namespace Issued

theorem proper (i : Issued p h) : h.Proper where
  current := i.current
  node_re s hs := by
    obtain rfl : p = s := Option.some.inj (i.node.symm.trans hs)
    exact matchDollar_of_word i.node_word
  boot_re s hs := by
    obtain ⟨b, hb, hw⟩ := i.boot
    obtain rfl : b = s := Option.some.inj (hb.symm.trans hs)
    exact matchDollar_of_word hw
  seq_nonneg n hn := by
    obtain ⟨k, hk, hpos⟩ := i.seq
    obtain rfl : k = n := Option.some.inj (hk.symm.trans hn)
    exact hpos
  namespaced := i.namespaced

/-- Both years are written with four digits. -/
theorem dates (P : Platform) (i : Issued p h) : P.Dates h.issuedAt ∧ P.Dates h.expiresAt :=
  have ⟨_, he, hl, _⟩ := i.lease
  dates_of_lease P i.year he hl

/-- **The written window** is positive and no longer than an hour, whatever the phases of the two
instants within their milliseconds. -/
theorem windowed (i : Issued p h) : h.toMillis.Windowed :=
  have ⟨_, he, hl, hu⟩ := i.lease
  windowed_of_lease he hl hu

/-- **The document reads as the heartbeat in its milliseconds.** -/
theorem reads (P : Platform) (i : Issued p h) : Reads (h.toDict P) h.toMillis :=
  toDict_reads i.proper (i.dates P).1 (i.dates P).2 i.windowed

/-- **No skew and no expiry at the instant of issue.** -/
theorem timely (i : Issued p h) :
    checkFreshness h.toMillis h.issuedAt.instant DEFAULT_MAX_SKEW = none := by
  obtain ⟨lease, he, hl, -⟩ := i.lease
  refine checkFreshness_eq_none.mpr ⟨fun bound hb => ?_, ?_⟩
  · obtain rfl : 5 * (second : ℤ) = bound := Option.some.inj hb
    show ((h.issuedAt.toMillis.instant - h.issuedAt.instant).natAbs : ℤ) ≤ 5 * (second : ℤ)
    rw [Datetime.toMillis_instant, second]
    omega
  · show h.issuedAt.instant < h.expiresAt.toMillis.instant
    simp only [Datetime.instant, Datetime.toMillis] at he ⊢
    omega

theorem valid (P : Platform) (i : Issued p h) : validateDocument (h.toDict P) = .ok [] :=
  (Members.reason_eq_none.mp (i.reads P).reason).2.2

end Issued

/-! ## The clean-room side -/

namespace CleanRoom

/-- **Both implementations write a timestamp alike.** -/
theorem format_eq (P : Platform) (t : Datetime) : format P t = formatRfc3339 P t := by
  have h1000 : t.timeOfDay % second / 10 / 10 / 10 = t.timeOfDay % second / 1000 := by omega
  have hsplit : strftime P.padsYear t =
      strftimeSeconds P.padsYear t ++ fixed 6 (t.timeOfDay % second) := rfl
  rw [format, formatRfc3339, hsplit, dropLast_append_fixed, dropLast_append_fixed,
    dropLast_append_fixed, h1000]

/-- **A written timestamp reads as its instant cut to milliseconds**, here too. -/
theorem parseTimestamp_format {t : Datetime} (ht : P.Dates t) :
    parseTimestamp (.str (formatRfc3339 P t)) = some t.toMillis.instant := by
  obtain ⟨s, hs, hread⟩ := format_stamp ht
  have hcand : (s ++ [CodePoint.scalar 'Z']).dropLast ++ py "+00:00" = s ++ utcOffset := by
    rw [List.dropLast_concat, utcOffset]
  rw [hs]
  unfold parseTimestamp
  dsimp only
  rw [List.getLast?_concat, if_pos rfl, hcand, hread]
  exact congrArg some (sub_zero _)

end CleanRoom

namespace Issued

/-- Every required member is there. -/
theorem missing_nil (P : Platform) (h : Heartbeat) :
    CleanRoom.missingViolations (h.members P) = [] := by
  rw [CleanRoom.missingViolations, List.map_eq_nil_iff, List.filter_eq_nil_iff]
  intro key hkey
  have hmem : key ∈ (h.members P).map Prod.fst := by
    rw [Heartbeat.members, List.map_append]
    exact List.mem_append_left _ hkey
  obtain ⟨q, hq, rfl⟩ := List.mem_map.mp hmem
  simpa [Members.has] using ⟨q.2, hq⟩

/-- No member is unknown. -/
theorem unknown_nil (P : Platform) (h : Heartbeat) :
    CleanRoom.unknownViolations (h.members P) = [] := by
  have hnone := unknownViolations_members P h
  rw [Members.unknownViolations, List.map_eq_nil_iff] at hnone
  rw [CleanRoom.unknownViolations, List.map_eq_nil_iff]
  exact hnone

/-- Every extension is namespaced. -/
theorem extensions_nil (P : Platform) (i : Issued p h) :
    CleanRoom.extensionsViolations (h.members P) = [] := by
  unfold CleanRoom.extensionsViolations
  rw [show py "extensions" = EXTENSIONS_KEY from rfl]
  rcases get_extensions P h with ⟨he, -⟩ | he
  · rw [he]
  · rw [he]
    dsimp only
    rw [List.map_eq_nil_iff, List.filter_eq_nil_iff]
    intro q hq
    simpa [McpHeartbeat.namespaced] using i.namespaced q hq

/-- The lease is a proper one. -/
theorem window_nil (i : Issued p h) :
    CleanRoom.windowViolations (some h.issuedAt.toMillis.instant)
      (some h.expiresAt.toMillis.instant) = [] := by
  obtain ⟨hlt, hle⟩ := i.windowed
  have hpositive : ¬ h.expiresAt.toMillis.instant - h.issuedAt.toMillis.instant ≤ 0 :=
    not_le.mpr hlt
  have hbounded :
      ¬ CleanRoom.MAX_LEASE < h.expiresAt.toMillis.instant - h.issuedAt.toMillis.instant :=
    not_lt.mpr hle
  unfold CleanRoom.windowViolations
  dsimp only
  rw [if_neg hpositive, if_neg hbounded]

/-- **The clean-room validator has nothing to say.** -/
theorem clean (P : Platform) (i : Issued p h) : CleanRoom.validate (h.toDict P) = [] := by
  obtain ⟨n, hn, hpos⟩ := i.seq
  obtain ⟨b, hb, hbw⟩ := i.boot
  have hissued : CleanRoom.parseTimestamp (Members.get (h.members P) (py "issued_at")) =
      some h.issuedAt.toMillis.instant := CleanRoom.parseTimestamp_format (i.dates P).1
  have hexpires : CleanRoom.parseTimestamp (Members.get (h.members P) (py "expires_at")) =
      some h.expiresAt.toMillis.instant := CleanRoom.parseTimestamp_format (i.dates P).2
  have hversion : Members.get (h.members P) (py "extension_version") = .str EXTENSION_VERSION :=
    congrArg Json.str i.current
  have hnode : Members.get (h.members P) (py "node_id") = .str p :=
    congrArg Json.ofStr? i.node
  have hboot : Members.get (h.members P) (py "boot_id") = .str b :=
    congrArg Json.ofStr? hb
  have hseq : Members.get (h.members P) (py "sequence") = .int n :=
    congrArg Json.ofInt? hn
  have hp : CleanRoom.NODE_ID_PATTERN p = true := matchDollar_of_word i.node_word
  have hbp : CleanRoom.BOOT_ID_PATTERN b = true := matchDollar_of_word hbw
  show CleanRoom.violations (h.members P) = []
  simp [CleanRoom.violations, missing_nil, CleanRoom.versionViolations, hversion,
    CleanRoom.nodeIdViolations, hnode, hp, CleanRoom.bootIdViolations, hboot, hbp,
    CleanRoom.sequenceViolations, hseq, hpos, CleanRoom.timestampViolations, hissued, hexpires,
    i.window_nil, i.extensions_nil, unknown_nil]

/-- **The clean-room consumer finds it fresh.** -/
theorem fresh (P : Platform) (i : Issued p h) :
    CleanRoom.isFresh (h.members P) h.issuedAt.instant = true := by
  obtain ⟨lease, he, hl, -⟩ := i.lease
  have hexpires : CleanRoom.parseTimestamp (Members.get (h.members P) (py "expires_at")) =
      some h.expiresAt.toMillis.instant := CleanRoom.parseTimestamp_format (i.dates P).2
  rw [CleanRoom.isFresh, hexpires, Option.any_some, decide_eq_true_iff]
  simp only [Datetime.instant, Datetime.toMillis] at he ⊢
  omega

end Issued

/-! ## Streams -/

/-- **A stream**: the emissions of a ledger of issued heartbeats. -/
structure Stream (P : Platform) (p : Str) (es : List Emission) (hs : List Heartbeat) : Prop where
  emits : es = hs.map (Heartbeat.emission P)
  ledger : Ledger Heartbeat.bootId Rises hs
  issued : ∀ h ∈ hs, Issued p h

variable {es : List Emission} {hs : List Heartbeat}

/-- The last heartbeat of a stream, split off. -/
theorem Stream.of_concat (s : Stream P p es (hs ++ [h])) :
    ∃ es', es = es' ++ [h.emission P] ∧ Stream P p es' hs ∧ Issued p h :=
  ⟨hs.map (Heartbeat.emission P), by rw [s.emits, List.map_append]; rfl,
    ⟨rfl, s.ledger.of_prefix (List.prefix_append _ _),
      fun g hg => s.issued g (List.mem_append_left _ hg)⟩,
    s.issued h (List.mem_append_right _ List.mem_cons_self)⟩

/-- What the reference consumer reads is a ledger too. -/
theorem ledger_toMillis (hl : Ledger Heartbeat.bootId Rises hs) :
    Ledger Heartbeat.bootId Rises (hs.map Heartbeat.toMillis) :=
  hl.map (fun _ _ => Iff.rfl) (fun _ _ hr => hr)

/-- One delivery to the reference consumer. -/
theorem deliver_reference {state : LineageState} (i : Issued p h)
    (hp : state.participantId = p) (ha : state.Admits h.toMillis) :
    (lineage P).next state (h.emission P).call = state.hold h.toMillis ∧
      (lineage P).entry state (h.emission P).call =
        some ⟨(h.emission P).call, h.toMillis⟩ := by
  have hn : h.toMillis.nodeId = some state.participantId := by rw [hp]; exact i.node
  have hanswer : (h.emission P).call.answer P state = .ok { state := state.hold h.toMillis } := by
    show admitDocument P state (h.toDict P) h.issuedAt.instant DEFAULT_MAX_SKEW = _
    rw [admit_of_reads (i.reads P)]
    exact ((@judge_timely P state h.toMillis _ _ hn i.timely).resolve_right fun hno => hno.1 ha).2
  exact ⟨by simp only [lineage, hanswer, after_ok], by simp only [lineage, hanswer]; rfl⟩

/-- **The reference consumer accepts a stream**, and ends on its last document. -/
theorem Stream.reference (s : Stream P p es hs) :
    acceptedDocuments P p (es.map Emission.call) = es.map Emission.document ∧
      ((lineage P).run (.start p) (es.map Emission.call)).participantId = p ∧
      ((lineage P).run (.start p) (es.map Emission.call)).register.Tracks Heartbeat.bootId
        (hs.map Heartbeat.toMillis) := by
  -- the last delivery finds a register that tracks what was delivered before it
  induction hs using List.reverseRecOn generalizing es with
  | nil =>
    obtain rfl : es = [] := s.emits
    refine ⟨rfl, rfl, ?_⟩
    show (LineageState.start p).register.Tracks _ _
    rw [LineageState.register_start]
    exact Register.tracks_empty _
  | append_singleton hs h ih =>
    have hl := ledger_toMillis s.ledger
    obtain ⟨es', rfl, s', i⟩ := s.of_concat
    obtain ⟨hdocs, hp, ht⟩ := ih s'
    rw [List.map_append, List.map_singleton] at hl
    obtain ⟨hnext, hentry⟩ := deliver_reference (P := P) i hp (hl.accepts_next ht)
    simp only [List.map_append, List.map_singleton, acceptedDocuments, Machine.journal_append,
      Machine.journal_cons, Machine.journal_nil, Machine.run_concat, hnext, hentry] at hdocs ⊢
    refine ⟨?_, hp, ?_⟩
    · rw [hdocs]
      rfl
    · rw [LineageState.register_hold]
      exact ht.accept

/-- The documents of a ledger are a ledger. -/
theorem ledger_members (P : Platform) (hl : Ledger Heartbeat.bootId Rises hs) :
    Ledger CleanRoom.bootOf CleanRoom.SequenceRises (hs.map (Heartbeat.members P)) := by
  refine hl.map (fun g h => ?_) (fun g h hr => ?_)
  · show Json.ofStr? g.bootId = Json.ofStr? h.bootId ↔ g.bootId = h.bootId
    exact Json.ofStr?_injective.eq_iff
  · obtain ⟨a, b, ha, hb, hab⟩ := hr
    exact ⟨a, b, congrArg Json.ofInt? ha, congrArg Json.ofInt? hb, hab⟩

/-- One delivery to the clean-room consumer. -/
theorem deliver_cleanRoom {c : CleanRoom.Consumer} (i : Issued p h) (hp : c.nodeId = p)
    (ha : c.register.Accepts CleanRoom.bootOf CleanRoom.SequenceRises (h.members P)) :
    c.admitDocument P (h.toDict P) h.issuedAt.instant = (.ok .ok, c.hold (h.members P)) := by
  have hvalid : CleanRoom.violations (h.members P) = [] := i.clean P
  have hnode : Members.get (h.members P) (py "node_id") = .str c.nodeId := by
    rw [hp]
    exact congrArg Json.ofStr? i.node
  exact CleanRoom.Consumer.admit_takes ⟨hvalid, hnode, i.fresh P, ha⟩

/-- **The clean-room consumer accepts a stream**, and ends on its last document. -/
theorem Stream.cleanRoom (s : Stream P p es hs) :
    (CleanRoom.consumer P).journal { nodeId := p } es = es.map (fun _ => .ok) ∧
      ((CleanRoom.consumer P).run { nodeId := p } es).nodeId = p ∧
      ((CleanRoom.consumer P).run { nodeId := p } es).register.Tracks CleanRoom.bootOf
        (hs.map (Heartbeat.members P)) := by
  induction hs using List.reverseRecOn generalizing es with
  | nil =>
    obtain rfl : es = [] := s.emits
    refine ⟨rfl, rfl, ⟨rfl, ?_⟩⟩
    simp [CleanRoom.Consumer.register]
  | append_singleton hs h ih =>
    have hl := ledger_members P s.ledger
    obtain ⟨es', rfl, s', i⟩ := s.of_concat
    obtain ⟨hanswers, hp, ht⟩ := ih s'
    rw [List.map_append, List.map_singleton] at hl
    have hadm := deliver_cleanRoom (P := P) i hp (hl.accepts_next ht)
    have hnext : (CleanRoom.consumer P).next
        ((CleanRoom.consumer P).run { nodeId := p } es') (h.emission P) =
          ((CleanRoom.consumer P).run { nodeId := p } es').hold (h.members P) := by
      simp only [CleanRoom.consumer, Heartbeat.emission] at hadm ⊢
      rw [hadm]
    have hentry : (CleanRoom.consumer P).entry
        ((CleanRoom.consumer P).run { nodeId := p } es') (h.emission P) = some .ok := by
      simp only [CleanRoom.consumer, Heartbeat.emission] at hadm ⊢
      rw [hadm]
      rfl
    simp only [List.map_append, List.map_singleton, Machine.journal_append, Machine.journal_cons,
      Machine.journal_nil, Machine.run_concat, hnext, hentry]
    refine ⟨by rw [hanswers]; rfl, hp, ?_⟩
    rw [CleanRoom.Consumer.register_hold]
    exact ht.accept

/-! ## The reference issuer -/

/-- What the contract asks of an act: a restart into an epoch of the pattern, with a lease from a
millisecond to an hour and namespaced extensions; an issue from year `1000` on. -/
def Act.Regular : Act → Prop
  | .restart epochId token lease extensions =>
    idWord "._-" 127 (HeartbeatIssuer.epochOr epochId token) = true ∧
      (1000 ≤ lease ∧ lease ≤ MAX_LEASE) ∧ ∀ q ∈ extensions, namespaced q.1 = true
  | .issue now => 1000 ≤ now.year

/-- An issuer that a regular restart left. -/
structure HeartbeatIssuer.Regular (p : Str) (s : HeartbeatIssuer) : Prop where
  participant : s.participantId = p
  epoch : idWord "._-" 127 s.epochId = true
  lease : 1000 ≤ s.lease ∧ s.lease ≤ MAX_LEASE
  namespaced : ∀ q ∈ s.extensions, namespaced q.1 = true

/-- A regular issuer issues, or the lease leaves the calendar. -/
theorem HeartbeatIssuer.Regular.issued {s : HeartbeatIssuer} {now : Datetime}
    (hp : idWord "._:/+-" 254 p = true) (r : s.Regular p) (hy : 1000 ≤ now.year)
    (hi : (s.issue now).1 = .ok h) : Issued p h ∧ h.issuedAt = now := by
  have hby := issue_ok hi
  refine ⟨?_, hby.issued⟩
  exact {
    node := hby.node.trans (congrArg some r.participant)
    node_word := hp
    boot := ⟨_, hby.boot, r.epoch⟩
    seq := ⟨_, hby.seq, Int.natCast_nonneg _⟩
    current := hby.current
    namespaced := hby.extensions ▸ r.namespaced
    year := hby.issued ▸ hy
    lease := ⟨s.lease, hby.issued ▸ hby.expires, r.lease⟩ }

/-- What a run of regular acts keeps: a regular issuer, and heartbeats that were issued. -/
structure Publishes (p : Str) (s : Option HeartbeatIssuer) (past : List Heartbeat) : Prop where
  regular : ∀ i, s = some i → i.Regular p
  issued : ∀ h ∈ past, Issued p h

/-- One act keeps it. -/
theorem Publishes.next {s : Option HeartbeatIssuer} {past : List Heartbeat} {act : Act}
    (hp : idWord "._:/+-" 254 p = true) (hr : act.Regular) (h : Publishes p s past) :
    Publishes p ((publisher p).next s act) (past ++ ((publisher p).entry s act).toList) := by
  cases act with
  | restart epochId token lease extensions =>
    refine ⟨fun i hi => ?_, by simpa [publisher] using h.issued⟩
    obtain rfl := Option.some.inj hi
    exact ⟨rfl, hr.1, hr.2.1, hr.2.2⟩
  | issue now =>
    cases s with
    | none => exact ⟨nofun, by simpa [publisher] using h.issued⟩
    | some s =>
      have hregular := h.regular s rfl
      refine ⟨fun i hi => ?_, fun g hg => ?_⟩
      · have hi : (s.issue now).2 = i := Option.some.inj hi
        subst hi
        rcases issue_cases s now with hi | ⟨g, hi, -⟩ <;> rw [hi]
        · exact hregular
        · exact ⟨hregular.participant, hregular.epoch, hregular.lease, hregular.namespaced⟩
      · rcases List.mem_append.mp hg with hg | hg
        · exact h.issued g hg
        · simp only [publisher, Option.bind_some, Option.mem_toList] at hg
          cases hi : (s.issue now).1 with
          | error e =>
            rw [hi] at hg
            cases hg
          | ok g' =>
            rw [hi] at hg
            obtain rfl := Option.some.inj hg
            exact (hregular.issued hp hr hi).1

/-- **What the reference issuer emits is a stream.** -/
theorem stream_reference (P : Platform) (hp : idWord "._:/+-" 254 p = true) {acts : List Act}
    (hacts : ∀ act ∈ acts, act.Regular) (hnew : (acts.filterMap Act.epoch?).Nodup) :
    Stream P p ((minted p acts).map (Heartbeat.emission P)) (minted p acts) := by
  have hrun : Publishes p ((publisher p).run none acts) ([] ++ (publisher p).journal none acts) :=
    (publisher p).invariant (fun _ _ _ => Publishes.next hp) acts none [] hacts ⟨nofun, nofun⟩
  refine ⟨rfl, (minted_publisher p acts hnew).ledger, ?_⟩
  intro h hh
  exact hrun.issued h hh

/-! ## The clean-room issuer -/

namespace CleanRoom

/-- The reference issuer that would issue next what this one does. -/
def Issuer.asReference (s : Issuer) : HeartbeatIssuer where
  participantId := s.nodeId
  epochId := s.bootId
  lease := s.lease
  extensions := []
  nextSequence := (s.sequence + 1).toNat

/-- **The clean-room issuer issues the document the reference issuer would issue**, and has counted
whether or not it did. -/
theorem issue_asReference (P : Platform) {s : Issuer} (hs : -1 ≤ s.sequence) (now : Datetime) :
    (s.issue P now).1 = (s.asReference.issue now).1.map (Heartbeat.toDict P) ∧
      (s.issue P now).2.asReference =
        { s.asReference with nextSequence := s.asReference.nextSequence + 1 } ∧
      -1 ≤ (s.issue P now).2.sequence := by
  have hseq : ((s.asReference.nextSequence : ℕ) : ℤ) = s.sequence + 1 :=
    Int.toNat_of_nonneg (by omega)
  have hnext : (s.sequence + 1 + 1).toNat = (s.sequence + 1).toNat + 1 := by omega
  unfold Issuer.issue HeartbeatIssuer.issue
  dsimp only
  rw [show s.asReference.lease = s.lease from rfl]
  cases now.add? s.lease with
  | none =>
    refine ⟨rfl, ?_, by dsimp only; omega⟩
    simp only [Issuer.asReference, hnext]
  | some e =>
    refine ⟨?_, by simp only [Issuer.asReference, hnext], by dsimp only; omega⟩
    simp only [Except.map, Heartbeat.toDict, format_eq, Json.ofStr?, Json.ofInt?, hseq]
    rfl

end CleanRoom

/-- An issuer may skip numbers. -/
theorem Minted.skip {used : List Str} {s : HeartbeatIssuer} {past : List Heartbeat} {n : ℕ}
    (m : Minted p used (some s) past) (hn : s.nextSequence ≤ n) :
    Minted p used (some { s with nextSequence := n }) past where
  ledger := m.ledger
  addressed := m.addressed
  epochs := m.epochs
  issuer s' hs' := by
    obtain rfl := Option.some.inj hs'
    obtain ⟨hp, he, hcont⟩ := m.issuer s rfl
    refine ⟨hp, he, hcont.imp_right ?_⟩
    rintro ⟨l, g, hl, hb, k, hk, hlt⟩
    exact ⟨l, g, hl, hb, k, hk, by dsimp only; omega⟩

/-- What the clean-room issuer has emitted after `steps`. -/
structure CleanRoom.Emitted (P : Platform) (p : Str) (used : List Str) (s : CleanRoom.Issuer)
    (es : List Emission) (hs : List Heartbeat) : Prop where
  emits : es = hs.map (Heartbeat.emission P)
  minted : Minted p used (some s.asReference) hs
  regular : s.asReference.Regular p
  counted : -1 ≤ s.sequence
  issued : ∀ h ∈ hs, Issued p h

/-- One issue of the clean-room issuer. -/
theorem CleanRoom.Emitted.issue {used : List Str} {s : CleanRoom.Issuer} {now : Datetime}
    (hp : idWord "._:/+-" 254 p = true) (e : CleanRoom.Emitted P p used s es hs)
    (hy : 1000 ≤ now.year) : ∃ hs', CleanRoom.Emitted P p used (s.issue P now).2
      (es ++ ((CleanRoom.publisher P).entry s (.issue now)).toList) hs' := by
  obtain ⟨hdoc, hnext, hcount⟩ := CleanRoom.issue_asReference P e.counted now
  have hregular : (s.issue P now).2.asReference.Regular p := by
    rw [hnext]
    exact ⟨e.regular.participant, e.regular.epoch, e.regular.lease, e.regular.namespaced⟩
  have hminted := e.minted.issue now
  rcases issue_cases s.asReference now with hi | ⟨g, hi, -⟩
  · have hnone : (CleanRoom.publisher P).entry s (.issue now) = none := by
      simp only [CleanRoom.publisher, hdoc, hi]
      rfl
    rw [hi] at hminted
    refine ⟨hs, by rw [hnone, e.emits]; simp, ?_, hregular, hcount, e.issued⟩
    rw [hnext]
    exact e.minted.skip (Nat.le_succ _)
  · have hok : (s.asReference.issue now).1 = .ok g := congrArg Prod.fst hi
    obtain ⟨hissued, hnow⟩ := e.regular.issued hp hy hok
    have hsome : (CleanRoom.publisher P).entry s (.issue now) = some (g.emission P) := by
      simp only [CleanRoom.publisher, hdoc, hi, Heartbeat.emission, hnow]
      rfl
    rw [hi] at hminted
    refine ⟨hs ++ [g], by rw [hsome, e.emits]; simp, ?_, hregular, hcount,
      List.forall_mem_append.mpr ⟨e.issued, by simpa using hissued⟩⟩
    rw [hnext]
    exact hminted

theorem epochOr_some (b : Str) : HeartbeatIssuer.epochOr (some b) b = b := by
  by_cases hb : b = []
  · subst hb
    rfl
  · simp [HeartbeatIssuer.epochOr, Option.filter, hb]

/-- A restart of the clean-room issuer, into an epoch that was never used. -/
theorem CleanRoom.Emitted.restart {used : List Str} {s : CleanRoom.Issuer} {b : Str}
    (e : CleanRoom.Emitted P p used s es hs) (hb : idWord "._-" 127 b = true) (hnew : b ∉ used) :
    CleanRoom.Emitted P p (used ++ [b]) (s.restart b) es hs where
  emits := e.emits
  minted := by
    have hfresh : HeartbeatIssuer.epochOr (some b) b ∉ used := by rwa [epochOr_some]
    have hrestart := e.minted.restart s.lease [] hfresh
    rw [HeartbeatIssuer.init, epochOr_some, ← e.regular.participant] at hrestart
    rw [← e.regular.participant]
    exact hrestart
  regular := ⟨e.regular.participant, hb, e.regular.lease, e.regular.namespaced⟩
  counted := Int.le_refl _
  issued := e.issued

/-- **What the clean-room issuer emits is a stream.** -/
theorem stream_cleanRoom (P : Platform) (hp : idWord "._:/+-" 254 p = true) {lease : ℤ}
    (hlease : 1000 ≤ lease ∧ lease ≤ MAX_LEASE) {boot : Str} {steps : List CleanRoom.Step}
    (hnew : (boot :: steps.filterMap CleanRoom.Step.epoch?).Nodup)
    (hboot : ∀ b ∈ boot :: steps.filterMap CleanRoom.Step.epoch?, idWord "._-" 127 b = true)
    (hyear : ∀ now, .issue now ∈ steps → 1000 ≤ now.year) :
    ∃ hs, Stream P p ((CleanRoom.publisher P).journal
      { nodeId := p, bootId := boot, lease } steps) hs := by
  suffices h : ∃ hs, CleanRoom.Emitted P p (boot :: steps.filterMap CleanRoom.Step.epoch?)
      ((CleanRoom.publisher P).run { nodeId := p, bootId := boot, lease } steps)
      ((CleanRoom.publisher P).journal { nodeId := p, bootId := boot, lease } steps) hs by
    obtain ⟨hs, e⟩ := h
    exact ⟨hs, e.emits, e.minted.ledger, e.issued⟩
  -- the epochs of the steps before the last one are those used so far
  induction steps using List.reverseRecOn with
  | nil =>
    have hfresh : HeartbeatIssuer.epochOr (some boot) boot ∉ ([] : List Str) := by simp
    have hstart := (Minted.start p).restart lease [] hfresh
    rw [HeartbeatIssuer.init, epochOr_some] at hstart
    exact ⟨[], rfl, hstart,
      ⟨rfl, hboot boot List.mem_cons_self, hlease, by simp [CleanRoom.Issuer.asReference]⟩,
      Int.le_refl _, by simp⟩
  | append_singleton steps step ih =>
    rw [List.filterMap_append, ← List.cons_append] at hnew hboot
    obtain ⟨hs, e⟩ := ih (List.nodup_append.mp hnew).1
      (fun b hb => hboot b (List.mem_append_left _ hb))
      (fun now hnow => hyear now (List.mem_append_left _ hnow))
    rw [List.filterMap_append, ← List.cons_append, Machine.run_concat, Machine.journal_append,
      Machine.journal_cons, Machine.journal_nil, List.append_nil]
    cases step with
    | restart b =>
      have hfresh : b ∉ boot :: steps.filterMap CleanRoom.Step.epoch? := fun hmem =>
        (List.nodup_append.mp hnew).2.2 _ hmem _ List.mem_cons_self rfl
      refine ⟨hs, ?_⟩
      show CleanRoom.Emitted P p (_ ++ [b]) (CleanRoom.Issuer.restart _ b) (_ ++ []) hs
      rw [List.append_nil]
      exact e.restart (hboot b (List.mem_append_right _ List.mem_cons_self)) hfresh
    | issue now =>
      obtain ⟨hs', e'⟩ := e.issue hp (hyear now (List.mem_append_right _ List.mem_cons_self))
      refine ⟨hs', ?_⟩
      show CleanRoom.Emitted P p (_ ++ []) _ _ hs'
      rw [List.append_nil]
      exact e'

/-! ## Interoperation -/

/-- Both validators accept every document under way, both consumers accept each of them in turn, and
both end on the last one. -/
structure Interoperates (P : Platform) (p : Str) (es : List Emission) : Prop where
  valid : ∀ e ∈ es, validateDocument e.document = .ok [] ∧ CleanRoom.validate e.document = []
  reference : acceptedDocuments P p (es.map Emission.call) = es.map Emission.document
  referenceHolds : ∀ e ∈ es.getLast?, ∃ h, Reads e.document h ∧
    ((lineage P).run (.start p) (es.map Emission.call)).held = some h
  cleanRoom : (CleanRoom.consumer P).journal { nodeId := p } es = es.map fun _ => .ok
  cleanRoomHolds : ∀ e ∈ es.getLast?, ∃ m, e.document = .obj m ∧
    ((CleanRoom.consumer P).run { nodeId := p } es).held = some m

/-- **Either consumer accepts a stream.** -/
theorem Stream.accepted (s : Stream P p es hs) : Interoperates P p es := by
  obtain ⟨hdocs, -, ht⟩ := s.reference
  obtain ⟨hanswers, -, hc⟩ := s.cleanRoom
  have hlast : ∀ e ∈ es.getLast?, ∃ h ∈ hs.getLast?, e = h.emission P := by
    intro e he
    rw [s.emits, List.getLast?_map] at he
    obtain ⟨h, hh, rfl⟩ := Option.map_eq_some_iff.mp he
    exact ⟨h, hh, rfl⟩
  refine ⟨fun e he => ?_, hdocs, fun e he => ?_, hanswers, fun e he => ?_⟩
  · rw [s.emits] at he
    obtain ⟨h, hh, rfl⟩ := List.mem_map.mp he
    exact ⟨(s.issued h hh).valid P, (s.issued h hh).clean P⟩
  · obtain ⟨h, hh, rfl⟩ := hlast e he
    have hheld := ht.held
    rw [List.getLast?_map, Option.mem_def.mp hh, Option.map_some] at hheld
    exact ⟨h.toMillis, (s.issued h (List.mem_of_getLast? hh)).reads P, hheld⟩
  · obtain ⟨h, hh, rfl⟩ := hlast e he
    have hheld := hc.held
    rw [List.getLast?_map, Option.mem_def.mp hh, Option.map_some] at hheld
    exact ⟨h.members P, rfl, hheld⟩

/-- **Two-way interoperation.** Identifiers match their patterns as a whole, leases are from a
millisecond to an hour, clocks read any instants from year `1000` on, and no epoch is used twice:
both consumers accept everything the reference issuer mints and everything the clean-room issuer
emits. -/
theorem interoperates (P : Platform) {p : Str} (hp : idWord "._:/+-" 254 p = true)
    {acts : List Act} (hacts : ∀ act ∈ acts, act.Regular)
    (hepochs : (acts.filterMap Act.epoch?).Nodup)
    {lease : ℤ} (hlease : 1000 ≤ lease ∧ lease ≤ MAX_LEASE) {boot : Str}
    {steps : List CleanRoom.Step}
    (hboots : (boot :: steps.filterMap CleanRoom.Step.epoch?).Nodup)
    (hwords : ∀ b ∈ boot :: steps.filterMap CleanRoom.Step.epoch?, idWord "._-" 127 b = true)
    (hyears : ∀ now, .issue now ∈ steps → 1000 ≤ now.year) :
    Interoperates P p ((minted p acts).map (Heartbeat.emission P)) ∧
      Interoperates P p ((CleanRoom.publisher P).journal
        { nodeId := p, bootId := boot, lease } steps) := by
  obtain ⟨hs, s⟩ := stream_cleanRoom P hp hlease hboots hwords hyears
  exact ⟨(stream_reference P hp hacts hepochs).accepted, s.accepted⟩

/-- Two issues and a restart on either side. -/
theorem interoperates_restarted :
    let acts : List Act := [.restart (some (py "a")) (py "a") (30 * second) [],
      .issue newYearMoment, .issue newYearMoment, .restart (some (py "b")) (py "b") 1000 [],
      .issue newYearMoment]
    let steps : List CleanRoom.Step := [.issue newYearMoment, .issue newYearMoment,
      .restart (py "b"), .issue newYearMoment]
    Interoperates plainPlatform (py "node")
        ((minted (py "node") acts).map (Heartbeat.emission plainPlatform)) ∧
      Interoperates plainPlatform (py "node") ((CleanRoom.publisher plainPlatform).journal
        { nodeId := py "node", bootId := py "a", lease := 30 * second } steps) := by
  have hyear : 1000 ≤ newYearMoment.year := by decide +kernel
  have hword : idWord "._-" 127 (py "a") = true ∧ idWord "._-" 127 (py "b") = true := by decide
  refine interoperates plainPlatform (by decide) ?_ (by decide) (by decide) (by decide) ?_ ?_
  · have hepoch : ∀ b, idWord "._-" 127 b = true →
        idWord "._-" 127 (HeartbeatIssuer.epochOr (some b) b) = true := fun b hb => by
      rwa [epochOr_some]
    simp [Act.Regular, hyear, hepoch _ hword.1, hepoch _ hword.2, MAX_LEASE, second]
  · simp [CleanRoom.Step.epoch?, hword]
  · simp [hyear]

end McpHeartbeat
