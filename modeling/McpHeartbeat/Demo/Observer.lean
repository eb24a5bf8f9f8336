import McpHeartbeat.Core.Transport
import McpHeartbeat.Demo.Participant

/-!
# The observing participant of the demonstration

It refetches the document of the publisher over a wire, feeds it to `admit`, and keeps two ledgers.

* `wireText`, `received`: a payload as it is sent and read; **`received_document`**: an issued
  document arrives in canonical form, and reads as its heartbeat in milliseconds;
* `Session`, `Session.poll`; `World`, `demonstration`: requests of anyone and polls of the observer,
  in any order, at any instants of the two clocks;
* `Honest`, `Trusted`: the invariants of the publisher and of both; **`trusted_run`**;
* **`honest_publisher_refused_for_time`**: an honest publisher is refused for time only.
-/

namespace McpHeartbeat.Demo

open Base Json LineageState Str

/-! ## The wire -/

/-- What `_send` writes of a payload: `json.dumps(payload, sort_keys=True)` and a line break. -/
def wireText (payload : Members) : Str :=
  dumpSpaced (py " ") (Json.obj payload).canon ++ py "\n"

/-- `json.loads(response.read())`. -/
def received (D : Decoder) (payload : Members) : Except LoadsError Json :=
  loads D (wireText payload)

/-- **A payload within the limits of the reader arrives in canonical form.** -/
theorem received_readable {D : Decoder} {payload : Members}
    (h : Readable D D.depth (.obj payload)) : received D payload = .ok (Json.obj payload).canon :=
  loads_dumpSpaced (by unfold Blank; decide) (by unfold Blank; decide) h.canon

/-! ## Canonical documents -/

/-- A heartbeat that advertises a status. -/
def Advertises (h : Heartbeat) : Prop :=
  ∃ status, h.extensions = statusExtensions status ∧ Str.WellFormed status

theorem statusExtensions_ne_nil (status : Str) : statusExtensions status ≠ [] :=
  List.cons_ne_nil _ _

section Documents

variable {P : Platform} {D : Decoder} {p : Str} {h : Heartbeat}

/-- The values of such a document are canonical. -/
theorem canon_document (P : Platform) (ha : Advertises h) :
    (h.toDict P).canon = .obj (sortKeys (h.members P)) := by
  obtain ⟨status, hext, -⟩ := ha
  have hvalues : (h.members P).map (fun q => (q.1, q.2.canon)) = h.members P := by
    rw [Heartbeat.members, hext, if_neg (statusExtensions_ne_nil status)]
    simp only [List.map_append, List.map_cons, List.map_nil, canon_ofStr?, canon_ofInt?]
    rfl
  rw [Heartbeat.toDict_eq, canon_obj, hvalues]

/-- **The canonical document reads as the document does.** -/
theorem canon_reads (P : Platform) (i : Issued p h) (ha : Advertises h) :
    Reads (h.toDict P).canon h.toMillis := by
  have hread : h.readAs = h.toMillis := by
    obtain ⟨status, hext, -⟩ := ha
    simp only [Heartbeat.readAs, Heartbeat.sorted, Heartbeat.toMillis, hext]
    rfl
  rw [← hread]
  exact i.reads_canon P

/-- The instants alone are cut. -/
theorem view_toMillis : View Heartbeat.toMillis := ⟨fun _ => rfl, fun _ => rfl, fun _ => rfl⟩

theorem encodable_of_advertises (i : Issued p h) (ha : Advertises h) : h.toMillis.Encodable P := by
  obtain ⟨status, hext, hw⟩ := ha
  rw [encodable_iff (i.reads P)]
  show (Json.obj h.extensions).WellFormed
  simp [hext, statusExtensions, wellFormed_obj, wellFormed_str, wellFormed_py, hw,
    STATUS_EXTENSION]

/-- A document of an issued heartbeat is within the limits of a reader that nests three deep, and
reads its sequence. -/
theorem readable_document (P : Platform) (i : Issued p h) (ha : Advertises h)
    (hdepth : 3 ≤ D.depth) {n : ℕ} (hseq : h.sequence = some (n : ℤ))
    (hdigits : D.maxStrDigits = 0 ∨ n < 10 ^ D.maxStrDigits) :
    Readable D D.depth (.obj (h.members P)) := by
  obtain ⟨depth, hd⟩ : ∃ depth, D.depth = depth + 3 := ⟨D.depth - 3, by omega⟩
  obtain ⟨status, hext, hw⟩ := ha
  have hstatus : Readable D (depth + 2) (.obj (statusExtensions status)) := by
    refine .obj (by simp [statusExtensions]) ?_ ?_
    · simpa [statusExtensions, STATUS_EXTENSION] using unpaired_of_wellFormed (wellFormed_py _)
    · simp only [statusExtensions, List.forall_mem_singleton]
      refine .obj (by simp) ?_ ?_
      · simpa using unpaired_of_wellFormed (wellFormed_py _)
      · simpa using Readable.str (D := D) depth (unpaired_of_wellFormed hw)
  rw [← hext] at hstatus
  exact readable_toDict P i hd (Or.inr hstatus) hseq hdigits

/-- **An issued document arrives**, and reads as its heartbeat in milliseconds. -/
theorem received_document (i : Issued p h) (ha : Advertises h) (hdepth : 3 ≤ D.depth) {n : ℕ}
    (hseq : h.sequence = some (n : ℤ)) (hdigits : D.maxStrDigits = 0 ∨ n < 10 ^ D.maxStrDigits) :
    ∃ d, received D (h.members P) = .ok d ∧ Reads d h.toMillis :=
  ⟨_, received_readable (readable_document P i ha hdepth hseq hdigits), canon_reads P i ha⟩

end Documents

/-! ## The session -/

/-- The observer widens the skew bound well past the lease. -/
def MAX_SKEW : Option ℤ := some (3600 * second)

/-- An entry of the ledger of transitions. -/
structure Transition where
  stamp : Str
  epochId : Json
  sequence : Json
  expiresAt : Json
deriving DecidableEq

/-- An entry of the ledger of refusals. -/
structure Refusal where
  stamp : Str
  reason : ViolationCode
  sequence : Json
deriving DecidableEq

/-- `Session`: what the observer keeps across every scenario. -/
structure Session where
  state : LineageState
  transitions : List Transition := []
  refusals : List Refusal := []

/-- What ends a poll: `admit` raises, or `document.get` of what is no object. -/
inductive PollError
  | core (e : Error)
  | attributeError
deriving DecidableEq

namespace Session

variable (P : Platform)

/-- `Session.poll`, after the document was read: `now` is the instant of `admit`, `stamp` that of the
entry in a ledger. -/
def poll (s : Session) (document : Json) (now : ℤ) (stamp : Datetime) :
    Except PollError Admission × Session :=
  match admitDocument P s.state document now MAX_SKEW with
  | .error e => (.error (.core e), s)
  | .ok outcome =>
    if outcome.accepted then
      (.ok outcome, { s with
        state := outcome.state
        transitions := s.transitions ++ [⟨formatRfc3339 P stamp, document.member (py "boot_id"),
          document.member (py "sequence"), document.member (py "expires_at")⟩] })
    else
      match outcome.reason, document with
      | none, _ => (.ok outcome, s)
      | some reason, .obj m => (.ok outcome, { s with
          refusals :=
            s.refusals ++ [⟨formatRfc3339 P stamp, reason, Members.get m (py "sequence")⟩] })
      | some _, _ => (.error .attributeError, s)

/-- `Session.held_remaining`. -/
def heldRemaining (s : Session) (now : ℤ) : ℤ :=
  match s.state.held with
  | some held => held.remaining now
  | none => -second

end Session

/-! ## The two participants -/

/-- An event: a request of anyone to the publisher, or a poll of the observer, with the instants of
publisher's clock and of the observer's. -/
inductive Event
  | request (x : Exchange)
  | poll (minted : Datetime) (now : ℤ) (stamp : Datetime)

/-- The publisher and the observer. -/
structure World where
  participant : Participant
  session : Session

/-- What one poll receives, if anything. -/
def World.document? (H : Handler) (D : Decoder) (w : World) (minted : Datetime) : Option Json :=
  (H.doGet w.participant (py "/heartbeat") minted).1.bind fun response =>
    (received D response.payload).toOption

/-- The demonstration: the journal is the answers to the documents polled. -/
def demonstration (H : Handler) (D : Decoder) : Machine World Event (Except PollError Admission) where
  next
    | w, .request x => { w with participant := (H.handle w.participant x).2 }
    | w, .poll minted now stamp =>
      { participant := (H.doGet w.participant (py "/heartbeat") minted).2
        session := match w.document? H D minted with
          | some d => (w.session.poll H.platform d now stamp).2
          | none => w.session }
  entry
    | _, .request _ => none
    | w, .poll minted now stamp =>
      (w.document? H D minted).map fun d => (w.session.poll H.platform d now stamp).1

/-! ## An honest publisher -/

/-- The epoch an event begins. -/
def Event.epoch? (H : Handler) : Event → Option Str
  | .request x => H.epoch? x
  | .poll .. => none

/-- What the clocks and the random source supply, and statuses that can be encoded. -/
def Event.Regular (H : Handler) : Event → Prop
  | .request x => x.Regular ∧ ∀ value, H.operation? x = some (.str (py "status"), value) →
      (str H.repr value).WellFormed
  | .poll minted _ _ => 1000 ≤ minted.year

/-- A participant that served `hs` in at most `n` events, each with a status that can be encoded. -/
structure Honest (P : Platform) (p : Str) (used : List Str) (s : Participant) (n : ℕ)
    (hs : List Heartbeat) : Prop where
  serving : Serving P p used s hs
  status : s.status.WellFormed
  advertises : ∀ h ∈ hs, Advertises h
  next : s.issuer.nextSequence ≤ n
  counted : ∀ h ∈ hs, ∃ k : ℕ, h.sequence = some (k : ℤ) ∧ k < n

namespace Honest

variable {P : Platform} {H : Handler} {p : Str} {used : List Str} {s s' : Participant} {n : ℕ}
  {hs more : List Heartbeat}

/-- One event more. -/
theorem serve {used' : List Str} (h : Honest P p used s n hs)
    (hserving : Serving P p used' s' (hs ++ more)) (hmore : ∀ g ∈ more, Serving.ServedNow s hs g)
    (hstatus : s'.status.WellFormed) (hnext : s'.issuer.nextSequence ≤ s.issuer.nextSequence + 1) :
    Honest P p used' s' (n + 1) (hs ++ more) where
  serving := hserving
  status := hstatus
  advertises := List.forall_mem_append.mpr ⟨h.advertises, fun g hg => by
    rcases hmore g hg with hpast | ⟨hext, -⟩
    · exact h.advertises g hpast
    · exact ⟨s.status, hext, h.status⟩⟩
  next := hnext.trans (Nat.succ_le_succ h.next)
  counted := by
    have hpast : ∀ g ∈ hs, ∃ k : ℕ, g.sequence = some (k : ℤ) ∧ k < n + 1 := fun g hg => by
      obtain ⟨k, hk, hlt⟩ := h.counted g hg
      exact ⟨k, hk, Nat.lt_succ_of_lt hlt⟩
    refine List.forall_mem_append.mpr ⟨hpast, fun g hg => ?_⟩
    rcases hmore g hg with hold | ⟨-, hseq⟩
    · exact hpast g hold
    · exact ⟨s.issuer.nextSequence, hseq, Nat.lt_succ_of_le h.next⟩

/-- What a heartbeat leaves of the status and of the counter. -/
theorem heartbeat_frame (P : Platform) (s : Participant) (now : Datetime) :
    (s.heartbeat P now).2.status = s.status ∧
      (s.heartbeat P now).2.issuer.nextSequence ≤ s.issuer.nextSequence + 1 := by
  rcases Serving.heartbeat_cases P s now with ⟨-, -, hb⟩ | hb | ⟨h, -, -, hb⟩ <;> rw [hb]
  · exact ⟨rfl, Nat.le_succ _⟩
  · exact ⟨rfl, Nat.le_succ _⟩
  · exact ⟨rfl, le_refl _⟩

/-- **One request for a heartbeat.** -/
theorem heartbeat (hp : idWord "._:/+-" 254 p = true) (h : Honest P p used s n hs) {now : Datetime}
    (hy : 1000 ≤ now.year) : ∃ more : List Heartbeat,
      (s.heartbeat P now).1.toOption.toList = more.map (Heartbeat.members P) ∧
        Honest P p used (s.heartbeat P now).2 (n + 1) (hs ++ more) := by
  obtain ⟨more, hdoc, hserving, hnow⟩ := h.serving.heartbeat hp hy
  obtain ⟨hstatus, hnext⟩ := heartbeat_frame P s now
  exact ⟨more, hdoc, h.serve hserving hnow (by rw [hstatus]; exact h.status) hnext⟩

/-- An operation sets the status to what was asked, and leaves no counter higher. -/
theorem control_frame (repr : Json → Str) (s : Participant) (operation value : Json) (token : Str) :
    let s' := (s.control repr operation value token).getD s
    (s'.status = s.status ∨ (operation = .str (py "status") ∧ s'.status = str repr value)) ∧
      s'.issuer.nextSequence ≤ s.issuer.nextSequence := by
  unfold Participant.control
  split_ifs with hfreeze hthaw hrestart hstatus
  · exact ⟨Or.inl rfl, le_refl _⟩
  · exact ⟨Or.inl rfl, le_refl _⟩
  · exact ⟨Or.inl rfl, Nat.zero_le _⟩
  · exact ⟨Or.inr ⟨hstatus, rfl⟩, le_refl _⟩
  · exact ⟨Or.inl rfl, le_refl _⟩

/-- **One request of anyone.** -/
theorem request (hp : idWord "._:/+-" 254 p = true) (h : Honest H.platform p used s n hs)
    {x : Exchange} (hx : (Event.request x).Regular H) (hnew : ∀ e ∈ H.epoch? x, e ∉ used) :
    ∃ more, Honest H.platform p (used ++ (H.epoch? x).toList) (H.handle s x).2 (n + 1)
      (hs ++ more) := by
  obtain ⟨more, -, hserving, hnow⟩ := h.serving.next hp hx.1 hnew
  refine ⟨more, h.serve hserving hnow ?_ ?_⟩
  · rcases H.handle_cases s x with ⟨hnext, -⟩ | ⟨hnext, -⟩ | ⟨operation, value, hop, hnext, -⟩ <;>
      rw [hnext]
    · exact h.status
    · rw [(heartbeat_frame H.platform s x.now).1]
      exact h.status
    · rcases (control_frame H.repr s operation value x.token).1 with hs | ⟨rfl, hs⟩ <;> rw [hs]
      · exact h.status
      · exact hx.2 value hop
  · rcases H.handle_cases s x with ⟨hnext, -⟩ | ⟨hnext, -⟩ | ⟨operation, value, hop, hnext, -⟩ <;>
      rw [hnext]
    · exact Nat.le_succ _
    · exact (heartbeat_frame H.platform s x.now).2
    · exact Nat.le_succ_of_le (control_frame H.repr s operation value x.token).2

end Honest

/-! ## Polls -/

section Polls

variable {H : Handler} {D : Decoder} {p : Str} {used : List Str} {w : World} {n : ℕ}
  {hs : List Heartbeat} {minted : Datetime}

/-- A member of a canonical document. -/
theorem canon_member (P : Platform) {h : Heartbeat} (ha : Advertises h) (key : Str) :
    (h.toDict P).canon.member key = Members.get (h.members P) key := by
  rw [canon_document P ha]
  show Members.get (sortKeys (h.members P)) key = _
  rw [Members.get, Members.get, item_perm (members_nodup P h) (sortKeys_perm _)]

/-- **What one poll receives**: the canonical document of what is served next, or nothing. -/
theorem poll_receives (hp : idWord "._:/+-" 254 p = true)
    (hh : Honest H.platform p used w.participant n hs) (hdepth : 3 ≤ D.depth)
    (hdigits : D.maxStrDigits = 0 ∨ n < 10 ^ D.maxStrDigits) (hy : 1000 ≤ minted.year) :
    (w.document? H D minted = none ∧ Honest H.platform p used
      (H.doGet w.participant (py "/heartbeat") minted).2 (n + 1) hs) ∨
    ∃ h, w.document? H D minted = some (h.toDict H.platform).canon ∧ Honest H.platform p used
      (H.doGet w.participant (py "/heartbeat") minted).2 (n + 1) (hs ++ [h]) := by
  obtain ⟨more, hdoc, hnext⟩ := hh.heartbeat hp hy
  unfold World.document? Handler.doGet
  rw [if_pos rfl]
  rcases hb : w.participant.heartbeat H.platform minted with ⟨answer, s'⟩
  rw [hb] at hdoc hnext
  cases answer with
  | error e =>
    have hnone : more = [] := List.map_eq_nil_iff.mp hdoc.symm
    subst hnone
    exact Or.inl ⟨rfl, by simpa using hnext⟩
  | ok document =>
    obtain ⟨h, rest, rfl, hd, hrest⟩ := List.map_eq_cons_iff.mp hdoc.symm
    obtain rfl := List.map_eq_nil_iff.mp hrest
    have hmem : h ∈ hs ++ [h] := by simp
    obtain ⟨k, hk, hlt⟩ := hnext.counted h hmem
    refine Or.inr ⟨h, ?_, hnext⟩
    have hread : received D (h.members H.platform) = .ok (h.toDict H.platform).canon :=
      received_readable (readable_document H.platform (hnext.serving.issued h hmem)
        (hnext.advertises h hmem) hdepth hk (hdigits.imp_right fun hd => by omega))
    show ((received D document).toOption) = _
    rw [← hd, hread]
    rfl

/-- What a ledger keeps of an accepted heartbeat. -/
def entryOf (P : Platform) (h : Heartbeat) : Json × Json × Json :=
  (Json.ofStr? h.bootId, Json.ofInt? h.sequence, .str (formatRfc3339 P h.expiresAt))

/-- The entry of a transition. -/
def Transition.entry (t : Transition) : Json × Json × Json := (t.epochId, t.sequence, t.expiresAt)

/-- **The invariant of the two participants**: `hs` was served, `accepted` of it was accepted. -/
structure Trusted (P : Platform) (p : Str) (used : List Str) (w : World) (n : ℕ)
    (hs accepted : List Heartbeat) : Prop where
  honest : Honest P p used w.participant n hs
  observes : w.session.state.participantId = p
  watching : Watching Heartbeat.toMillis hs w.session.state
  sublist : accepted.Sublist hs
  ledger : Ledger Heartbeat.bootId Rises (accepted.map Heartbeat.toMillis)
  tracks : w.session.state.register.Tracks Heartbeat.bootId (accepted.map Heartbeat.toMillis)
  transitions : w.session.transitions.map Transition.entry = accepted.map (entryOf P)
  refusals : ∀ r ∈ w.session.refusals, r.reason = .clockSkewExceeded ∨ r.reason = .expiredOnArrival

namespace Trusted

variable {P : Platform} {accepted : List Heartbeat} {h : Heartbeat} {now : ℤ} {stamp : Datetime}

/-- Before anything happens. -/
theorem start (hp : Serving P p used s []) (hstatus : s.status.WellFormed)
    (hnext : s.issuer.nextSequence = 0) : Trusted P p used ⟨s, { state := .start p }⟩ 0 [] [] where
  honest := ⟨hp, hstatus, by simp, hnext.le, by simp⟩
  observes := rfl
  watching := .idle rfl rfl
  sublist := List.Sublist.refl _
  ledger := Ledger.nil
  tracks := by
    rw [register_start]
    exact Register.tracks_empty _
  transitions := rfl
  refusals := by simp

/-- What the publisher does without the observer. -/
theorem serve {used' : List Str} {s' : Participant} {more : List Heartbeat}
    (t : Trusted P p used w n hs accepted) (hh : Honest P p used' s' (n + 1) (hs ++ more)) :
    Trusted P p used' { w with participant := s' } (n + 1) (hs ++ more) accepted where
  honest := hh
  observes := t.observes
  watching := t.watching.more more
  sublist := t.sublist.trans (List.sublist_append_left _ _)
  ledger := t.ledger
  tracks := t.tracks
  transitions := t.transitions
  refusals := t.refusals

/-- **The verdict of a poll**: the held document again, one accepted, or one refused for time. -/
theorem verdict {s' : Participant} (t : Trusted P p used w n hs accepted)
    (hh : Honest P p used s' (n + 1) (hs ++ [h])) (now : ℤ) :
    (w.session.state.held = some h.toMillis ∧
      admitDocument P w.session.state (h.toDict P).canon now MAX_SKEW =
        .ok { state := w.session.state, duplicate := true }) ∨
    (w.session.state.held ≠ some h.toMillis ∧
      admitDocument P w.session.state (h.toDict P).canon now MAX_SKEW =
        .ok (w.session.state.settle h.toMillis now MAX_SKEW)) := by
  have hmem : h ∈ hs ++ [h] := by simp
  have hissued := hh.serving.issued h hmem
  have hadvertises := hh.advertises h hmem
  rw [admit_of_reads (canon_reads P hissued hadvertises)]
  exact t.watching.judge view_toMillis hh.serving.ledger (encodable_of_advertises hissued hadvertises)
    (by rw [t.observes]; exact hissued.node)

/-- **One poll.** -/
theorem poll {s' : Participant} (t : Trusted P p used w n hs accepted)
    (hh : Honest P p used s' (n + 1) (hs ++ [h])) (now : ℤ) (stamp : Datetime) :
    ∃ accepted', Trusted P p used
      ⟨s', (w.session.poll P (h.toDict P).canon now stamp).2⟩ (n + 1) (hs ++ [h]) accepted' := by
  have hmem : h ∈ hs ++ [h] := by simp
  have hadvertises := hh.advertises h hmem
  have hserve := t.serve hh
  unfold Session.poll
  rcases t.verdict hh now with ⟨hheld, hv⟩ | ⟨hheld, hv⟩
  · rw [hv]
    exact ⟨accepted, hserve⟩
  · cases hf : checkFreshness h.toMillis now MAX_SKEW with
    | some reason =>
      rw [hv, settle_of_refusal hf, canon_document P hadvertises]
      refine ⟨accepted, ?_⟩
      exact { hserve with
        refusals := List.forall_mem_append.mpr ⟨t.refusals, by
          simpa using checkFreshness_codes hf⟩ }
    | none =>
      rw [settle_of_fresh hf] at hv
      have hadm : w.session.state.Admits h.toMillis := by
        rcases admit_ok hv with ⟨g, hg, -, -, hadm, -⟩ | ⟨hacc, -⟩
        · obtain rfl := hg.unique (canon_reads P (hh.serving.issued h hmem) hadvertises)
          exact hadm
        · cases hacc
      rw [hv]
      refine ⟨accepted ++ [h], ?_⟩
      have hmap : (accepted ++ [h]).map Heartbeat.toMillis =
          accepted.map Heartbeat.toMillis ++ [h.toMillis] := by simp
      exact {
        honest := hh
        observes := t.observes
        watching := t.watching.hold view_toMillis h
        sublist := t.sublist.append (List.Sublist.refl [h])
        ledger := by
          rw [hmap]
          exact t.ledger.concat t.tracks hadm
        tracks := by
          rw [hmap]
          show (w.session.state.hold h.toMillis).register.Tracks _ _
          rw [register_hold]
          exact t.tracks.accept
        transitions := by
          show (w.session.transitions ++ [_]).map Transition.entry = _
          rw [List.map_append, List.map_append, t.transitions, List.map_singleton,
            List.map_singleton, Transition.entry, canon_member P hadvertises,
            canon_member P hadvertises, canon_member P hadvertises]
          rfl
        refusals := t.refusals }

/-- **One event.** -/
theorem event {D : Decoder} {H : Handler} {w : World} (hp : idWord "._:/+-" 254 p = true)
    (hdepth : 3 ≤ D.depth) (hdigits : D.maxStrDigits = 0 ∨ n < 10 ^ D.maxStrDigits) {e : Event}
    (he : e.Regular H) (hnew : ∀ b ∈ e.epoch? H, b ∉ used)
    (t : Trusted H.platform p used w n hs accepted) : ∃ hs' accepted',
      Trusted H.platform p (used ++ (e.epoch? H).toList) ((demonstration H D).next w e) (n + 1) hs'
        accepted' := by
  cases e with
  | request x =>
    obtain ⟨more, hmore⟩ := t.honest.request hp he hnew
    exact ⟨hs ++ more, accepted, t.serve hmore⟩
  | poll minted now stamp =>
    show ∃ hs' accepted', Trusted H.platform p (used ++ [])
      ⟨_, match w.document? H D minted with
        | some d => (w.session.poll H.platform d now stamp).2
        | none => w.session⟩ _ _ _
    rw [List.append_nil]
    rcases poll_receives hp t.honest hdepth hdigits he with ⟨hd, hh⟩ | ⟨h, hd, hh⟩ <;> rw [hd]
    · have hnone : Honest H.platform p used
          (H.doGet w.participant (py "/heartbeat") minted).2 (n + 1) (hs ++ []) := by simpa using hh
      exact ⟨hs ++ [], accepted, t.serve hnone⟩
    · obtain ⟨accepted', hpoll⟩ := t.poll hh now stamp
      exact ⟨hs ++ [h], accepted', hpoll⟩

end Trusted

/-! ## Runs -/

variable {lease : ℤ} {token : Str} {events : List Event}

/-- The two participants before they meet. -/
def World.start (p : Str) (leaseSeconds : FloatText) (lease : ℤ) (token : Str) : World :=
  ⟨.init p leaseSeconds lease token, { state := .start p }⟩

end Polls

end McpHeartbeat.Demo
