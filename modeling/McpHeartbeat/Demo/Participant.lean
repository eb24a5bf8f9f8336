import McpHeartbeat.Cleanroom.Interop
import McpHeartbeat.Core.Follower
import McpHeartbeat.Py.Wire

/-!
# The publishing participant of the demonstration

It mints the next heartbeat for each request while it publishes, and serves the last one verbatim
while it is frozen. A control channel freezes it, thaws it, restarts it and sets its status.

* `Participant`, with `heartbeat`, `control` and `state`; `Handler`, `Handler.handle`: the routes;
* `handle_cases`: what one request can do to a participant;
* `server`: requests in any order; the journal is the documents served;
* `Serving`: the invariant; `Serving.mint`, `Serving.replay`, `Serving.restart`;
* **`serving_server`**: every run keeps the invariant; `Counting`: what holds without the control
  channel;
* **`served_documents`**: what is served is a ledger in which the last document may repeat, and one
  epoch counted from zero where nothing controls it.
-/

namespace McpHeartbeat.Demo

open Base Json

/-- The vendor-namespaced extension the status rides under. -/
def STATUS_EXTENSION : Str := py "com.dougfirlabs/heartbeat"

/-- An issuer, and what the control channel sets. `lease` is what
`timedelta(seconds=lease_seconds)` holds. -/
structure Participant where
  participantId : Str
  leaseSeconds : FloatText
  lease : ℤ
  status : Str
  frozen : Bool
  restarts : ℕ
  issuer : HeartbeatIssuer
  last : Members

/-- `Participant._new_issuer`; `token` is what `mint_epoch_id()` returns. -/
def newIssuer (participantId token : Str) (lease : ℤ) : HeartbeatIssuer :=
  .init participantId (some token) token lease []

/-- `Participant.__init__`. -/
def Participant.init (participantId : Str) (leaseSeconds : FloatText) (lease : ℤ) (token : Str) :
    Participant where
  participantId
  leaseSeconds
  lease
  status := py "serving"
  frozen := false
  restarts := 0
  issuer := newIssuer participantId token lease
  last := []

/-- The extensions a status rides in. -/
def statusExtensions (status : Str) : Members :=
  [(STATUS_EXTENSION, .obj [(py "status", .str status)])]

namespace Participant

/-- The issuer, with the status it advertises next. -/
def advertising (s : Participant) : HeartbeatIssuer :=
  { s.issuer with extensions := statusExtensions s.status }

/-- `Participant.heartbeat`: mint the next heartbeat, or replay the last one while frozen. -/
def heartbeat (P : Platform) (s : Participant) (now : Datetime) :
    Except Error Members × Participant :=
  if s.frozen = true ∧ s.last ≠ [] then (.ok s.last, s)
  else
    match s.advertising.issue now with
    | (.error e, issuer) => (.error e, { s with issuer })
    | (.ok h, issuer) => (.ok (h.members P), { s with issuer, last := h.members P })

/-- `Participant.control`; `none` is the `ValueError` of an unknown operation. -/
def control (repr : Json → Str) (s : Participant) (operation value : Json) (token : Str) :
    Option Participant :=
  if operation = .str (py "freeze") then some { s with frozen := true }
  else if operation = .str (py "thaw") then some { s with frozen := false }
  else if operation = .str (py "restart") then
    some { s with
      issuer := newIssuer s.participantId token s.lease
      last := []
      frozen := false
      restarts := s.restarts + 1 }
  else if operation = .str (py "status") then some { s with status := str repr value }
  else none

/-- `Participant.state`. -/
def state (s : Participant) : Members :=
  [(py "participant_id", .str s.participantId), (py "epoch_id", .str s.issuer.epochId),
    (py "next_sequence", .int s.issuer.nextSequence), (py "status", .str s.status),
    (py "frozen", .bool s.frozen), (py "restarts", .int s.restarts),
    (py "lease_seconds", .float s.leaseSeconds)]

end Participant

/-! ## Routes -/

/-- A request: a `GET`, or a `POST` with the octets its `Content-Length` announces, read as text;
`none` when that header is no number. -/
inductive Request
  | get (path : Str)
  | post (path : Str) (body : Option Str)

/-- An answer: a status and a payload. -/
structure Response where
  status : ℕ
  payload : Members

/-- `make_handler`: what the routes are bound to. `repr` is that of the interpreter, and `message` the
text of the `JSONDecodeError` of a body. -/
structure Handler where
  platform : Platform
  decoder : Decoder
  repr : Json → Str
  message : Str → Str
  allowControl : Bool

/-- What `/healthz` answers. -/
def HEALTH : Members :=
  [(py "process", .str (py "alive")),
    (py "means", .str (py "this process is running and answering")),
    (py "does_not_mean", .str (py "the participant's lease is fresh — refetch /heartbeat"))]

def noSuchRoute (path : Str) : Response :=
  ⟨404, [(py "error", .str (py "no such route")), (py "path", .str path)]⟩

def badRequest (text : Str) : Response := ⟨400, [(py "error", .str text)]⟩

namespace Handler

variable (H : Handler)

/-- `do_GET`; a handler that raises answers nothing. -/
def doGet (s : Participant) (path : Str) (now : Datetime) : Option Response × Participant :=
  if path = py "/heartbeat" then
    match s.heartbeat H.platform now with
    | (.ok document, s) => (some ⟨200, document⟩, s)
    | (.error _, s) => (none, s)
  else if path = py "/healthz" then (some ⟨200, HEALTH⟩, s)
  else if path = py "/state" then (some ⟨200, s.state⟩, s)
  else (some (noSuchRoute path), s)

/-- `do_POST`. -/
def doPost (s : Participant) (path : Str) (body : Option Str) (token : Str) :
    Option Response × Participant :=
  if path ≠ py "/control" then (some (noSuchRoute path), s)
  else if H.allowControl = false then
    (some ⟨403, [(py "error", .str (py "control channel disabled"))]⟩, s)
  else
    match body with
    -- `int()` of the header raises before the `try`
    | none => (none, s)
    | some body =>
      match loads H.decoder (if body = [] then py "\x7b\x7d" else body) with
      | .error .valueError => (some (badRequest (H.message body)), s)
      | .error _ => (none, s)
      | .ok (.obj request) =>
        match Members.item request (py "op") with
        | none => (some (badRequest (H.repr (.str (py "op")))), s)
        | some operation =>
          match s.control H.repr operation (Members.get request (py "value")) token with
          | none =>
            (some (badRequest (py "unknown control operation: " ++ H.repr operation)), s)
          | some s => (some ⟨200, s.state⟩, s)
      -- an item of what is no object is a `TypeError`, which is not caught
      | .ok _ => (none, s)

end Handler

/-- A request as it is served: with the instant of the clock, and the token a restart mints. -/
structure Exchange where
  request : Request
  now : Datetime
  token : Str

namespace Handler

variable (H : Handler)

/-- One request, under the lock. -/
def handle (s : Participant) (x : Exchange) : Option Response × Participant :=
  match x.request with
  | .get path => H.doGet s path x.now
  | .post path body => H.doPost s path body x.token

/-- The operation and the value that reach `Participant.control`. -/
def operation? (x : Exchange) : Option (Json × Json) :=
  match x.request with
  | .post path (some body) =>
    if path = py "/control" ∧ H.allowControl = true then
      match loads H.decoder (if body = [] then py "\x7b\x7d" else body) with
      | .ok (.obj request) =>
        (Members.item request (py "op")).map fun op => (op, Members.get request (py "value"))
      | _ => none
    else none
  | _ => none

/-- The epoch a request begins. -/
def epoch? (x : Exchange) : Option Str :=
  match H.operation? x with
  | some (operation, _) => if operation = .str (py "restart") then some x.token else none
  | none => none

/-- The document a request is served. -/
def served? (s : Participant) (x : Exchange) : Option Members :=
  match x.request with
  | .get path =>
    if path = py "/heartbeat" then (s.heartbeat H.platform x.now).1.toOption else none
  | .post _ _ => none

/-- The participant under requests in any order; the journal is the documents served. -/
def server : Machine Participant Exchange Members where
  next s x := (H.handle s x).2
  entry s x := H.served? s x

variable {H} {s : Participant} {x : Exchange}

/-- A request that reaches no operation leaves the participant alone. -/
theorem doPost_of_none {path : Str} {body : Option Str} {now : Datetime} {token : Str}
    (h : H.operation? ⟨.post path body, now, token⟩ = none) :
    (H.doPost s path body token).2 = s := by
  unfold doPost
  by_cases hpath : path = py "/control"
  · rw [if_neg (not_not.mpr hpath)]
    cases hallow : H.allowControl with
    | false => rfl
    | true =>
      rw [if_neg (by simp)]
      cases body with
      | none => rfl
      | some body =>
        simp only [operation?, hpath, hallow, and_self, if_true] at h
        dsimp only
        cases hread : loads H.decoder (if body = [] then py "\x7b\x7d" else body) with
        | error e => cases e <;> rfl
        | ok v =>
          cases v with
          | obj request =>
            rw [hread] at h
            dsimp only at h ⊢
            rw [Option.map_eq_none_iff.mp h]
          | _ => rfl
  · rw [if_pos hpath]

/-- A request that reaches an operation applies it, unless it is unknown. -/
theorem doPost_of_some {path : Str} {body : Option Str} {now : Datetime} {token : Str}
    {operation value : Json}
    (h : H.operation? ⟨.post path body, now, token⟩ = some (operation, value)) :
    (H.doPost s path body token).2 = (s.control H.repr operation value token).getD s := by
  cases body with
  | none => cases h
  | some body =>
    by_cases hcontrol : path = py "/control" ∧ H.allowControl = true
    swap
    · simp [operation?, hcontrol] at h
    simp only [operation?, hcontrol, and_self, if_true] at h
    cases hread : loads H.decoder (if body = [] then py "\x7b\x7d" else body) with
    | error e =>
      rw [hread] at h
      cases h
    | ok v =>
      rw [hread] at h
      cases v with
      | obj request =>
        obtain ⟨op, hop, hpair⟩ := Option.map_eq_some_iff.mp h
        obtain ⟨rfl, rfl⟩ := Prod.mk.inj hpair
        unfold doPost
        rw [if_neg (not_not.mpr hcontrol.1), if_neg (by simp [hcontrol.2])]
        dsimp only
        rw [hread]
        dsimp only
        rw [hop]
        dsimp only
        cases s.control H.repr op (Members.get request (py "value")) token <;> rfl
      | _ => cases h

/-- **What one request can do**: nothing, serve a heartbeat, or apply an operation. -/
theorem handle_cases (H : Handler) (s : Participant) (x : Exchange) :
    ((H.handle s x).2 = s ∧ H.served? s x = none ∧ H.operation? x = none) ∨
    ((H.handle s x).2 = (s.heartbeat H.platform x.now).2 ∧
      H.served? s x = (s.heartbeat H.platform x.now).1.toOption ∧ H.operation? x = none) ∨
    ∃ operation value, H.operation? x = some (operation, value) ∧
      (H.handle s x).2 = (s.control H.repr operation value x.token).getD s ∧
      H.served? s x = none := by
  obtain ⟨request, now, token⟩ := x
  cases request with
  | get path =>
    by_cases hpath : path = py "/heartbeat"
    · refine Or.inr (Or.inl ⟨?_, by simp [served?, hpath], rfl⟩)
      simp only [handle, doGet, hpath, if_true]
      rcases s.heartbeat H.platform now with ⟨_ | _, _⟩ <;> rfl
    · refine Or.inl ⟨?_, by simp [served?, hpath], rfl⟩
      simp only [handle, doGet, hpath, if_false]
      split_ifs <;> rfl
  | post path body =>
    cases hop : H.operation? ⟨.post path body, now, token⟩ with
    | none => exact Or.inl ⟨doPost_of_none hop, rfl, rfl⟩
    | some p => exact Or.inr (Or.inr ⟨p.1, p.2, rfl, doPost_of_some hop, rfl⟩)

end Handler

/-! ## The invariant -/

/-- A status in its extension is namespaced. -/
theorem namespaced_status (status : Str) : ∀ q ∈ statusExtensions status,
    namespaced q.1 = true := by
  simp only [statusExtensions, List.forall_mem_singleton]
  decide

/-- What a participant that began the epochs `used` has served: heartbeats, the last of which is
kept until the next one is minted. -/
structure Serving (P : Platform) (p : Str) (used : List Str) (s : Participant)
    (past : List Heartbeat) : Prop where
  ledger : Ledger Heartbeat.bootId AtLeast past
  issued : ∀ h ∈ past, Issued p h
  epochs : ∀ h ∈ past, ∃ e ∈ used, h.bootId = some e
  participant : s.participantId = p
  lease : 1000 ≤ s.lease ∧ s.lease ≤ MAX_LEASE
  issuer : s.issuer.Regular p
  current : s.issuer.epochId ∈ used
  last : (s.last = [] ∧ ∀ h ∈ past, h.bootId ≠ some s.issuer.epochId) ∨
    ∃ l h, past = l ++ [h] ∧ s.last = h.members P ∧ h.bootId = some s.issuer.epochId ∧
      ∃ n : ℤ, h.sequence = some n ∧ n < s.issuer.nextSequence

namespace Serving

variable {P : Platform} {p : Str} {used : List Str} {s : Participant} {past : List Heartbeat}

/-- A new participant. -/
theorem init (P : Platform) {p : Str} (leaseSeconds : FloatText) {lease : ℤ} {token : Str}
    (hlease : 1000 ≤ lease ∧ lease ≤ MAX_LEASE) (htoken : idWord "._-" 127 token = true) :
    Serving P p [token] (.init p leaseSeconds lease token) [] where
  ledger := Ledger.nil
  issued := by simp
  epochs := by simp
  participant := rfl
  lease := hlease
  issuer := ⟨rfl, by simpa [Participant.init, newIssuer, HeartbeatIssuer.init, epochOr_some],
    hlease, by simp [Participant.init, newIssuer, HeartbeatIssuer.init]⟩
  current := by simp [Participant.init, newIssuer, HeartbeatIssuer.init, epochOr_some]
  last := Or.inl ⟨rfl, by simp⟩

/-- What `heartbeat` does: it replays, it raises, or it mints. -/
theorem heartbeat_cases (P : Platform) (s : Participant) (now : Datetime) :
    (s.frozen = true ∧ s.last ≠ [] ∧ s.heartbeat P now = (.ok s.last, s)) ∨
    (s.heartbeat P now = (.error .overflowError, { s with issuer := s.advertising })) ∨
    ∃ h, (s.frozen = false ∨ s.last = []) ∧ (s.advertising.issue now).1 = .ok h ∧
      s.heartbeat P now = (.ok (h.members P),
        { s with
          issuer := { s.advertising with nextSequence := s.issuer.nextSequence + 1 }
          last := h.members P }) := by
  unfold Participant.heartbeat
  by_cases hreplay : s.frozen = true ∧ s.last ≠ []
  · exact Or.inl ⟨hreplay.1, hreplay.2, if_pos hreplay⟩
  · have hmint : s.frozen = false ∨ s.last = [] := by
      rw [← Bool.not_eq_true]
      tauto
    rw [if_neg hreplay]
    rcases issue_cases s.advertising now with hi | ⟨h, hi, -⟩ <;> rw [hi]
    · exact Or.inr (Or.inl rfl)
    · exact Or.inr (Or.inr ⟨h, hmint, rfl, rfl⟩)

theorem regular_advertising (hs : s.issuer.Regular p) : s.advertising.Regular p :=
  ⟨hs.participant, hs.epoch, hs.lease, namespaced_status s.status⟩

/-- A heartbeat is minted. -/
theorem mint (hp : idWord "._:/+-" 254 p = true) (hs : Serving P p used s past) {now : Datetime}
    (hy : 1000 ≤ now.year) {h : Heartbeat} (hi : (s.advertising.issue now).1 = .ok h) :
    Serving P p used { s with
      issuer := { s.advertising with nextSequence := s.issuer.nextSequence + 1 }
      last := h.members P } (past ++ [h]) := by
  have hregular := regular_advertising hs.issuer
  have hby := issue_ok hi
  have hissued := (hregular.issued hp hy hi).1
  exact {
    ledger := by
      rcases hs.last with ⟨-, hnew⟩ | ⟨l, g, rfl, -, hg, n, hn, hlt⟩
      · exact hs.ledger.concat_new fun g hg hb => hnew g hg (hb.trans hby.boot)
      · exact hs.ledger.concat_same (hby.boot.trans hg.symm) (Or.inr ⟨n, _, hn, hby.seq, hlt⟩)
    issued := List.forall_mem_append.mpr ⟨hs.issued, by simpa using hissued⟩
    epochs := List.forall_mem_append.mpr
      ⟨hs.epochs, by simpa using ⟨_, hs.current, hby.boot⟩⟩
    participant := hs.participant
    lease := hs.lease
    issuer := ⟨hregular.participant, hregular.epoch, hregular.lease, hregular.namespaced⟩
    current := hs.current
    last := by
      refine Or.inr ⟨past, h, rfl, rfl, hby.boot, _, hby.seq, ?_⟩
      show (s.issuer.nextSequence : ℤ) < ((s.issuer.nextSequence + 1 : ℕ) : ℤ)
      omega }

/-- The last document is served again. -/
theorem replay (hs : Serving P p used s past) (hlast : s.last ≠ []) :
    ∃ h, h ∈ past.getLast? ∧ s.last = h.members P ∧ Serving P p used s (past ++ [h]) := by
  rcases hs.last with ⟨hnone, -⟩ | ⟨l, h, rfl, hdoc, hb, hn⟩
  · exact absurd hnone hlast
  · refine ⟨h, by simp, hdoc, ?_⟩
    exact {
      ledger := hs.ledger.concat_same rfl (Or.inl rfl)
      issued := List.forall_mem_append.mpr ⟨hs.issued, by simpa using hs.issued h (by simp)⟩
      epochs := List.forall_mem_append.mpr ⟨hs.epochs, by simpa using hs.epochs h (by simp)⟩
      participant := hs.participant
      lease := hs.lease
      issuer := hs.issuer
      current := hs.current
      last := Or.inr ⟨l ++ [h], h, rfl, hdoc, hb, hn⟩ }

/-- What is served now: a heartbeat of the past, or a new one with the status of now. -/
def ServedNow (s : Participant) (past : List Heartbeat) (h : Heartbeat) : Prop :=
  h ∈ past ∨ (h.extensions = statusExtensions s.status ∧
    h.sequence = some (s.issuer.nextSequence : ℤ))

/-- **One request for a heartbeat.** -/
theorem heartbeat (hp : idWord "._:/+-" 254 p = true) (hs : Serving P p used s past)
    {now : Datetime} (hy : 1000 ≤ now.year) :
    ∃ more : List Heartbeat,
      (s.heartbeat P now).1.toOption.toList = more.map (Heartbeat.members P) ∧
        Serving P p used (s.heartbeat P now).2 (past ++ more) ∧ ∀ h ∈ more, ServedNow s past h := by
  rcases heartbeat_cases P s now with ⟨-, hlast, hb⟩ | hb | ⟨h, -, hi, hb⟩ <;> rw [hb]
  · obtain ⟨h, hh, hdoc, hserving⟩ := hs.replay hlast
    exact ⟨[h], by rw [hdoc]; rfl, hserving,
      by simpa [ServedNow] using Or.inl (List.mem_of_getLast? hh)⟩
  · refine ⟨[], rfl, ?_, by simp⟩
    rw [List.append_nil]
    exact ⟨hs.ledger, hs.issued, hs.epochs, hs.participant, hs.lease,
      regular_advertising hs.issuer, hs.current, hs.last⟩
  · have hby := issue_ok hi
    exact ⟨[h], rfl, hs.mint hp hy hi, by simpa [ServedNow] using Or.inr ⟨hby.extensions, hby.seq⟩⟩

/-- A restart, into an epoch that was never used. -/
theorem restart (hs : Serving P p used s past) {token : Str} (htoken : idWord "._-" 127 token = true)
    (hnew : token ∉ used) {frozen : Bool} {restarts : ℕ} :
    Serving P p (used ++ [token])
      { s with issuer := newIssuer s.participantId token s.lease, last := [], frozen, restarts }
      past where
  ledger := hs.ledger
  issued := hs.issued
  epochs h hh := by
    obtain ⟨e, he, hb⟩ := hs.epochs h hh
    exact ⟨e, List.mem_append_left _ he, hb⟩
  participant := hs.participant
  lease := hs.lease
  issuer := ⟨hs.participant, by simpa [newIssuer, HeartbeatIssuer.init, epochOr_some], hs.lease,
    by simp [newIssuer, HeartbeatIssuer.init]⟩
  current := by simp [newIssuer, HeartbeatIssuer.init, epochOr_some]
  last := by
    refine Or.inl ⟨rfl, fun h hh hb => ?_⟩
    obtain ⟨e, he, hbe⟩ := hs.epochs h hh
    obtain rfl : e = token := by
      simpa [newIssuer, HeartbeatIssuer.init, epochOr_some, hbe] using hb
    exact hnew he

/-- What is neither the issuer nor the last document does not matter. -/
theorem set (hs : Serving P p used s past) (status : Str) (frozen : Bool) :
    Serving P p used { s with status, frozen } past :=
  ⟨hs.ledger, hs.issued, hs.epochs, hs.participant, hs.lease, hs.issuer, hs.current, hs.last⟩

/-- **One operation**: a restart begins an epoch, the others leave the issuer alone. -/
theorem control (hs : Serving P p used s past) (repr : Json → Str) {operation : Json} (value : Json)
    {token : Str} (htoken : idWord "._-" 127 token = true)
    (hnew : operation = .str (py "restart") → token ∉ used) :
    Serving P p (used ++ if operation = .str (py "restart") then [token] else [])
      ((s.control repr operation value token).getD s) past := by
  have hne : ∀ a b : String, py a ≠ py b → Json.str (py a) ≠ .str (py b) :=
    fun a b h hab => h (Json.str.inj hab)
  unfold Participant.control
  by_cases hfreeze : operation = .str (py "freeze")
  · subst hfreeze
    rw [if_pos rfl, if_neg (hne _ _ (by decide)), List.append_nil]
    exact hs.set s.status true
  rw [if_neg hfreeze]
  by_cases hthaw : operation = .str (py "thaw")
  · subst hthaw
    rw [if_pos rfl, if_neg (hne _ _ (by decide)), List.append_nil]
    exact hs.set s.status false
  rw [if_neg hthaw]
  by_cases hrestart : operation = .str (py "restart")
  · rw [if_pos hrestart, if_pos hrestart]
    exact hs.restart htoken (hnew hrestart)
  rw [if_neg hrestart, if_neg hrestart, List.append_nil]
  split_ifs
  · exact hs.set _ s.frozen
  · exact hs

end Serving

/-! ## Runs -/

/-- What the clock and the random source supply: a year from `1000` on, and epochs of the pattern. -/
def Exchange.Regular (x : Exchange) : Prop := 1000 ≤ x.now.year ∧ idWord "._-" 127 x.token = true

section Runs

variable {H : Handler} {p : Str} {leaseSeconds : FloatText} {lease : ℤ} {token : Str}
  {xs : List Exchange}

/-- One request keeps the invariant. -/
theorem Serving.next {used : List Str} {s : Participant} {past : List Heartbeat} {x : Exchange}
    (hp : idWord "._:/+-" 254 p = true) (hs : Serving H.platform p used s past) (hx : x.Regular)
    (hnew : ∀ e ∈ H.epoch? x, e ∉ used) : ∃ more : List Heartbeat,
      (H.server.entry s x).toList = more.map (Heartbeat.members H.platform) ∧
        Serving H.platform p (used ++ (H.epoch? x).toList) (H.server.next s x) (past ++ more) ∧
          ∀ h ∈ more, ServedNow s past h := by
  have hnone : H.operation? x = none → (H.epoch? x).toList = [] := by
    intro hop
    simp [Handler.epoch?, hop]
  show ∃ more : List Heartbeat, (H.served? s x).toList = _ ∧
    Serving H.platform p _ (H.handle s x).2 _ ∧ _
  rcases H.handle_cases s x with ⟨hnext, hserved, hop⟩ | ⟨hnext, hserved, hop⟩ |
    ⟨operation, value, hop, hnext, hserved⟩ <;> rw [hnext, hserved]
  · rw [hnone hop]
    exact ⟨[], rfl, by simpa using hs, by simp⟩
  · rw [hnone hop, List.append_nil]
    exact hs.heartbeat hp hx.1
  · have hepoch : H.epoch? x = if operation = .str (py "restart") then some x.token else none := by
      simp [Handler.epoch?, hop]
    have hfresh : operation = .str (py "restart") → x.token ∉ used := fun hr =>
      hnew x.token (by simp [hepoch, hr])
    have hcontrol := hs.control H.repr value hx.2 hfresh
    refine ⟨[], rfl, ?_, by simp⟩
    rw [List.append_nil, hepoch]
    by_cases hr : operation = .str (py "restart")
    · rw [if_pos hr] at hcontrol ⊢
      exact hcontrol
    · rw [if_neg hr] at hcontrol ⊢
      exact hcontrol

/-- **Every run has the invariant**: the participant never serves an epoch it has left. -/
theorem serving_server (leaseSeconds : FloatText) (hp : idWord "._:/+-" 254 p = true)
    (hlease : 1000 ≤ lease ∧ lease ≤ MAX_LEASE) (htoken : idWord "._-" 127 token = true)
    (hxs : ∀ x ∈ xs, x.Regular) (hnew : (token :: xs.filterMap H.epoch?).Nodup) :
    ∃ hs, H.server.journal (.init p leaseSeconds lease token) xs =
        hs.map (Heartbeat.members H.platform) ∧
      Serving H.platform p (token :: xs.filterMap H.epoch?)
        (H.server.run (.init p leaseSeconds lease token) xs) hs := by
  -- the epochs of the requests before the last one are those used so far
  induction xs using List.reverseRecOn with
  | nil => exact ⟨[], rfl, Serving.init H.platform leaseSeconds hlease htoken⟩
  | append_singleton xs x ih =>
    rw [List.filterMap_append, ← List.cons_append] at hnew ⊢
    obtain ⟨hs, hjournal, hserving⟩ := ih (fun y hy => hxs y (List.mem_append_left _ hy))
      (List.nodup_append.mp hnew).1
    have hfresh : ∀ e ∈ H.epoch? x, e ∉ token :: xs.filterMap H.epoch? := by
      intro e he hmem
      exact (List.nodup_append.mp hnew).2.2 _ hmem e (by simp [Option.mem_def.mp he]) rfl
    obtain ⟨more, hentry, hnext, -⟩ := hserving.next hp (hxs x (by simp)) hfresh
    refine ⟨hs ++ more, ?_, ?_⟩
    · rw [Machine.journal_append, Machine.journal_cons, Machine.journal_nil, List.append_nil,
        hjournal, hentry, List.map_append]
    · have hlast : [x].filterMap H.epoch? = (H.epoch? x).toList := by
        cases he : H.epoch? x <;> simp [he]
      rw [Machine.run_concat, hlast]
      exact hnext

/-! ## Without the control channel -/

/-- The epoch and the sequence of a document. -/
def lineageOf (document : Members) : Json × Json :=
  (document.get (py "boot_id"), document.get (py "sequence"))

/-- A participant that nothing controls counts in one epoch. -/
structure Counting (token : Str) (s : Participant) (past : List Members) : Prop where
  thawed : s.frozen = false
  epoch : s.issuer.epochId = token
  next : s.issuer.nextSequence = past.length
  counted : past.map lineageOf =
    (List.range past.length).map fun k => (Json.str token, Json.int (k : ℕ))

/-- One request keeps it counting. -/
theorem Counting.next_request (hcontrol : H.allowControl = false) {s : Participant}
    {past : List Members} (x : Exchange) (hs : Counting token s past) :
    Counting token (H.server.next s x) (past ++ (H.server.entry s x).toList) := by
  have hnone : H.operation? x = none := by
    unfold Handler.operation?
    split
    · simp [hcontrol]
    · rfl
  show Counting token (H.handle s x).2 (past ++ (H.served? s x).toList)
  rcases H.handle_cases s x with ⟨hnext, hserved, -⟩ | ⟨hnext, hserved, -⟩ | ⟨_, _, hop, -⟩
  · rw [hnext, hserved]
    simpa using hs
  · rw [hnext, hserved]
    rcases Serving.heartbeat_cases H.platform s x.now with ⟨hfrozen, -⟩ | hb | ⟨h, -, hi, hb⟩
    · rw [hs.thawed] at hfrozen
      cases hfrozen
    · rw [hb]
      show Counting token { s with issuer := s.advertising } (past ++ [])
      rw [List.append_nil]
      exact ⟨hs.thawed, hs.epoch, hs.next, hs.counted⟩
    · rw [hb]
      have hby := issue_ok hi
      have hlineage : lineageOf (h.members H.platform) = (.str token, .int (past.length : ℕ)) := by
        have hboot : h.bootId = some token := hby.boot.trans (congrArg some hs.epoch)
        have hseq : h.sequence = some ((past.length : ℕ) : ℤ) := by
          rw [hby.seq, ← hs.next]
          rfl
        show (Json.ofStr? h.bootId, Json.ofInt? h.sequence) = _
        rw [hboot, hseq]
        rfl
      show Counting token _ (past ++ [h.members H.platform])
      refine ⟨hs.thawed, hs.epoch, ?_, ?_⟩
      · rw [List.length_append, List.length_singleton]
        exact congrArg (· + 1) hs.next
      · rw [List.map_append, List.length_append, List.length_singleton, List.range_succ,
          List.map_append, hs.counted, List.map_singleton, List.map_singleton, hlineage]
  · rw [hnone] at hop
    cases hop

/-- **What is served**: whatever is requested, a ledger of issued heartbeats, of which only the last
repeats and no epoch returns; without the control channel one epoch, counted from zero. -/
theorem served_documents (hp : idWord "._:/+-" 254 p = true)
    (hlease : 1000 ≤ lease ∧ lease ≤ MAX_LEASE) (htoken : idWord "._-" 127 token = true)
    (hxs : ∀ x ∈ xs, x.Regular) (hnew : (token :: xs.filterMap H.epoch?).Nodup) :
    let documents := H.server.journal (.init p leaseSeconds lease token) xs
    (∃ hs, documents = hs.map (Heartbeat.members H.platform) ∧
      Ledger Heartbeat.bootId AtLeast hs ∧ ∀ h ∈ hs, Issued p h) ∧
    (H.allowControl = false → documents.map lineageOf =
      (List.range documents.length).map fun k => (Json.str token, Json.int (k : ℕ))) := by
  intro documents
  obtain ⟨hs, hjournal, hserving⟩ := serving_server leaseSeconds hp hlease htoken hxs hnew
  refine ⟨⟨hs, hjournal, hserving.ledger, hserving.issued⟩, fun hcontrol => ?_⟩
  have hstart : Counting token (.init p leaseSeconds lease token) [] :=
    ⟨rfl, epochOr_some token, rfl, rfl⟩
  exact (H.server.invariant_run (fun s past x => Counting.next_request hcontrol x) hstart xs).counted

/-- Two requests, a freeze, the last document again, and a restart. -/
theorem served_documents_frozen :
    let H : Handler := ⟨plainPlatform, plainDecoder, fun _ => [], fun _ => [], true⟩
    let post (body : String) : Request := .post (py "/control") (some (py body))
    let xs : List Exchange :=
      [⟨.get (py "/heartbeat"), newYearMoment, py "b"⟩, ⟨.get (py "/heartbeat"), newYearMoment, py "b"⟩,
        ⟨post "\x7b\"op\": \"freeze\"\x7d", newYearMoment, py "b"⟩,
        ⟨.get (py "/heartbeat"), newYearMoment, py "b"⟩,
        ⟨post "\x7b\"op\": \"restart\"\x7d", newYearMoment, py "b"⟩,
        ⟨.get (py "/heartbeat"), newYearMoment, py "b"⟩]
    let documents := H.server.journal (.init (py "node") NAN (6 * second) (py "a")) xs
    (∃ hs, documents = hs.map (Heartbeat.members H.platform) ∧
      Ledger Heartbeat.bootId AtLeast hs ∧ ∀ h ∈ hs, Issued (py "node") h) ∧
    (H.allowControl = false → documents.map lineageOf =
      (List.range documents.length).map fun k => (Json.str (py "a"), Json.int (k : ℕ))) := by
  have hyear : 1000 ≤ newYearMoment.year := by decide +kernel
  have hword : idWord "._-" 127 (py "b") = true := by decide
  refine served_documents (by decide) (by decide) (by decide) ?_ (by decide +kernel)
  simp [Exchange.Regular, hyear, hword]

end Runs

end McpHeartbeat.Demo
