import McpHeartbeat.Conformance.DualEra
import McpHeartbeat.Core.Clock
import McpHeartbeat.Core.Issuer
import McpHeartbeat.Legacy.Bilateral

/-!
# Callers of both eras at one endpoint

* `Endpoint`, `EndpointCall`, `endpoint`: a dual-era server with its clock and its issuer, under the
  calls of anybody;
* **`eras_apart`**: what the callers of one era are answered, is decided by the calls of that era;
* `dialogue`: a legacy client and an endpoint, over a channel that loses, duplicates, delays and
  reorders; `connected`: it is seen as a connection of the client with the session of the endpoint;
* `Open`, `can_open`, `can_complete`: how the handshake goes on from any joint state;
* **`handshake_crosses`**: both sides agree, whatever else is sent to the endpoint, and the handshake
  can always be completed.
-/

namespace McpHeartbeat

open Base Legacy

/-! ## The endpoint -/

/-- `DualEraServer`, with the clock and the issuer that `beat` moves. -/
structure Endpoint where
  server : DualEraServer
  clock : FakeClock
  issuer : HeartbeatIssuer

/-- What is done to an endpoint. -/
inductive EndpointCall
  | serve (call : ServeCall)
  | beat

/-- The rest of `DualEraServer.beat`, once the clock was moved. What was moved before an exception
stays moved. -/
def Endpoint.renewed (self : Endpoint) : Except FakeClock.AdvanceError FakeClock → Endpoint
  | .error _ => self
  | .ok clock =>
    match self.issuer.issue clock.wall with
    | (.error _, issuer) => { self with clock, issuer }
    | (.ok current, issuer) => { server := { self.server with current }, clock, issuer }

/-- `DualEraServer.beat`. -/
def Endpoint.beat (self : Endpoint) : Endpoint := self.renewed (self.clock.advance second)

variable (H : Host)

/-- The era of a call that is routed. -/
def ServeCall.era? (call : ServeCall) : Option Era :=
  (call.classified H).toOption.map EraRoute.era

/-- An endpoint under the calls of anybody. The journal is what the callers of one era are
answered. -/
def endpoint (era : Era) : Machine Endpoint EndpointCall (Except ServeError Json) where
  next e
    | .serve call => { e with server := (e.server.serve H call.body call.headers).2 }
    | .beat => e.beat
  entry e
    | .serve call =>
      if call.era? H = some era then some (e.server.serve H call.body call.headers).1 else none
    | .beat => none

/-- The calls of an era. A beat moves what the current one reads. -/
def EndpointCall.concerns (era : Era) : EndpointCall → Bool
  | .serve call => call.era? H = some era
  | .beat => era = .current

/-- What the callers of an era deal with. -/
def Endpoint.seen (e : Endpoint) :
    Era → (Heartbeat × FakeClock × HeartbeatIssuer) ⊕ LegacyServerSession
  | .current => .inl (e.server.current, e.clock, e.issuer)
  | .handshake => .inr e.server.legacy

variable {H} {call : ServeCall} {s : DualEraServer}

/-! ## One call -/

/-- The body of a call that is routed. -/
theorem era?_eq_some {era : Era} : call.era? H = some era ↔
    ∃ body routed, call.body = .obj body ∧
      Era.route H.repr H.lower body call.headers = .ok routed ∧ routed.era = era := by
  constructor
  · intro h
    obtain ⟨routed, hrouted, hera⟩ := Option.map_eq_some_iff.mp h
    cases hclassified : call.classified H with
    | error e =>
      rw [hclassified] at hrouted
      cases hrouted
    | ok r =>
      rw [hclassified] at hrouted
      obtain rfl := Option.some.inj hrouted
      obtain ⟨body, hbody, hroute⟩ := classified_ok hclassified
      exact ⟨body, r, hbody, hroute, hera⟩
  · rintro ⟨body, routed, hbody, hroute, rfl⟩
    rw [ServeCall.era?, ServeCall.classified, hbody]
    dsimp only
    rw [hroute]
    rfl

/-- A call that is not routed moves neither leg. -/
theorem next_unrouted (h : call.era? H = none) :
    (s.serve H call.body call.headers).2.legacy = s.legacy ∧
      (s.serve H call.body call.headers).2.current = s.current := by
  show ((dualEra H).next s call).legacy = _ ∧ ((dualEra H).next s call).current = _
  cases hclassified : call.classified H with
  | ok routed =>
    rw [ServeCall.era?, hclassified] at h
    cases h
  | error e =>
    rcases classified_error (s := s) hclassified with ⟨e', rfl⟩ | ⟨-, hnext⟩
    · obtain ⟨method, hnext⟩ := next_of_refused (s := s) hclassified
      rw [hnext]
      exact ⟨rfl, rfl⟩
    · rw [hnext]
      exact ⟨rfl, rfl⟩

/-- A call of the current era is answered from the lease, and moves neither leg. -/
theorem serve_current (h : call.era? H = some .current) : ∃ method, ∀ s : DualEraServer,
    (s.serve H call.body call.headers).1 = s.serveCurrent H method ∧
      (s.serve H call.body call.headers).2.legacy = s.legacy ∧
      (s.serve H call.body call.headers).2.current = s.current := by
  obtain ⟨body, routed, hbody, hroute, hera⟩ := era?_eq_some.mp h
  refine ⟨str H.repr (Members.get body (py "method")), fun s => ?_⟩
  rw [hbody]
  unfold DualEraServer.serve DualEraServer.serveObject
  dsimp only
  rw [hroute]
  dsimp only
  rw [hera]
  exact ⟨rfl, rfl, rfl⟩

/-- A call of the handshake era is handled by the session, and leaves the lease as it is. -/
theorem serve_handshake (h : call.era? H = some .handshake) : ∃ body, call.body = .obj body ∧
    ∀ s : DualEraServer,
      (s.serve H call.body call.headers).1 = (DualEraServer.handleLegacy H s.legacy
        (str H.repr (Members.get body (py "method"))) (Members.get body (py "params"))).1 ∧
      (s.serve H call.body call.headers).2.legacy = (DualEraServer.handleLegacy H s.legacy
        (str H.repr (Members.get body (py "method"))) (Members.get body (py "params"))).2 ∧
      (s.serve H call.body call.headers).2.current = s.current := by
  obtain ⟨body, routed, hbody, hroute, hera⟩ := era?_eq_some.mp h
  refine ⟨body, hbody, fun s => ?_⟩
  rw [hbody]
  unfold DualEraServer.serve DualEraServer.serveObject
  dsimp only
  rw [hroute]
  dsimp only
  rw [hera]
  exact ⟨rfl, rfl, rfl⟩

/-! ## The eras apart -/

theorem next_beat (era : Era) (e : Endpoint) : (endpoint H era).next e .beat = e.beat := by
  simp only [endpoint]

/-- A beat leaves the session as it is. -/
theorem renewed_legacy (e : Endpoint) (moved : Except FakeClock.AdvanceError FakeClock) :
    (e.renewed moved).server.legacy = e.server.legacy := by
  cases moved with
  | error error => rfl
  | ok clock =>
    unfold Endpoint.renewed
    dsimp only
    split <;> rfl

/-- What the callers of the current era deal with, part by part. -/
theorem seen_current_inj {e e' : Endpoint} (hseen : e.seen .current = e'.seen .current) :
    e.server.current = e'.server.current ∧ e.clock = e'.clock ∧ e.issuer = e'.issuer := by
  obtain ⟨hcurrent, hrest⟩ := Prod.mk.inj (Sum.inl.inj hseen)
  exact ⟨hcurrent, Prod.mk.inj hrest⟩

/-- A beat renews the lease from what the current era sees. -/
theorem renewed_seen {e e' : Endpoint} (hseen : e.seen .current = e'.seen .current)
    (moved : Except FakeClock.AdvanceError FakeClock) :
    (e.renewed moved).seen .current = (e'.renewed moved).seen .current := by
  obtain ⟨hcurrent, hclock, hissuer⟩ := seen_current_inj hseen
  cases moved with
  | error error => exact hseen
  | ok clock =>
    unfold Endpoint.renewed
    dsimp only
    rw [hissuer]
    split
    · unfold Endpoint.seen
      dsimp only
      rw [hcurrent]
    · rfl

/-- A call of another era, or of none, is not seen. -/
theorem seen_hidden (e : Endpoint) (i : EndpointCall) {era : Era}
    (h : i.concerns H era = false) :
    ((endpoint H era).next e i).seen era = e.seen era ∧ (endpoint H era).entry e i = none := by
  cases i with
  | serve call =>
    have hera : call.era? H ≠ some era := of_decide_eq_false h
    refine ⟨?_, if_neg hera⟩
    show Endpoint.seen { e with server := (e.server.serve H call.body call.headers).2 } era = _
    cases hrouted : call.era? H with
    | none =>
      obtain ⟨hlegacy, hcurrent⟩ := next_unrouted (s := e.server) hrouted
      cases era
      · rw [Endpoint.seen, hcurrent]
        rfl
      · rw [Endpoint.seen, hlegacy]
        rfl
    | some other =>
      cases era <;> cases other
      · exact absurd hrouted hera
      · obtain ⟨body, -, hserve⟩ := serve_handshake hrouted
        rw [Endpoint.seen, (hserve e.server).2.2]
        rfl
      · obtain ⟨method, hserve⟩ := serve_current hrouted
        rw [Endpoint.seen, (hserve e.server).2.1]
        rfl
      · exact absurd hrouted hera
  | beat =>
    cases era with
    | current => cases h
    | handshake =>
      refine ⟨?_, rfl⟩
      rw [next_beat, Endpoint.beat, Endpoint.seen, renewed_legacy]
      rfl

/-- What is seen decides what a call of that era is answered, and what is seen after it. -/
theorem seen_own {e e' : Endpoint} (i : EndpointCall) {era : Era} (h : i.concerns H era = true)
    (hseen : e.seen era = e'.seen era) :
    ((endpoint H era).next e i).seen era = ((endpoint H era).next e' i).seen era ∧
      (endpoint H era).entry e i = (endpoint H era).entry e' i := by
  cases i with
  | serve call =>
    have hera : call.era? H = some era := of_decide_eq_true h
    show Endpoint.seen { e with server := (e.server.serve H call.body call.headers).2 } era =
        Endpoint.seen { e' with server := (e'.server.serve H call.body call.headers).2 } era ∧
      (if call.era? H = some era then some (e.server.serve H call.body call.headers).1 else none) =
        if call.era? H = some era then some (e'.server.serve H call.body call.headers).1 else none
    rw [if_pos hera, if_pos hera]
    cases era with
    | current =>
      obtain ⟨method, hserve⟩ := serve_current hera
      obtain ⟨hcurrent, hclock, hissuer⟩ := seen_current_inj hseen
      rw [(hserve e.server).1, (hserve e'.server).1, Endpoint.seen, Endpoint.seen,
        (hserve e.server).2.2, (hserve e'.server).2.2, hcurrent, hclock, hissuer]
      refine ⟨rfl, congrArg some ?_⟩
      unfold DualEraServer.serveCurrent
      rw [hcurrent]
    | handshake =>
      obtain ⟨body, -, hserve⟩ := serve_handshake hera
      have hlegacy : e.server.legacy = e'.server.legacy := Sum.inr.inj hseen
      rw [(hserve e.server).1, (hserve e'.server).1, Endpoint.seen, Endpoint.seen,
        (hserve e.server).2.1, (hserve e'.server).2.1, hlegacy]
      exact ⟨rfl, rfl⟩
  | beat =>
    cases era with
    | handshake => cases h
    | current =>
      refine ⟨?_, rfl⟩
      obtain ⟨-, hclock, -⟩ := seen_current_inj hseen
      rw [next_beat, next_beat, Endpoint.beat, Endpoint.beat, hclock]
      exact renewed_seen hseen _

/-- **The eras apart.** What the callers of one era are answered, and what they deal with
afterwards, is decided by the calls of that era and by the beats: whatever else is sent in between,
messages that could be of either era among it. -/
theorem eras_apart (H : Host) (era : Era) {e e' : Endpoint} (hseen : e.seen era = e'.seen era)
    {calls calls' : List EndpointCall}
    (hsame : calls.filter (EndpointCall.concerns H era) =
      calls'.filter (EndpointCall.concerns H era)) :
    (endpoint H era).journal e calls = (endpoint H era).journal e' calls' ∧
      ((endpoint H era).run e calls).seen era = ((endpoint H era).run e' calls').seen era := by
  have hown : ∀ (e e' : Endpoint) i, i.concerns H era = true → e.seen era = e'.seen era →
      ((endpoint H era).next e i).seen era = ((endpoint H era).next e' i).seen era ∧
        (endpoint H era).entry e i = (endpoint H era).entry e' i := by
    intro e e' i h hseen
    exact seen_own i h hseen
  have hpurge : ∀ {e : Endpoint}, e.seen era = e'.seen era → ∀ calls,
      (endpoint H era).journal e calls =
          (endpoint H era).journal e' (calls.filter (EndpointCall.concerns H era)) ∧
        ((endpoint H era).run e calls).seen era =
          ((endpoint H era).run e' (calls.filter (EndpointCall.concerns H era))).seen era := by
    intro e hseen calls
    exact @Machine.purge _ _ _ (endpoint H era) _ (fun e => e.seen era) _
      (fun e i h => seen_hidden e i h) hown _ _ hseen calls
  obtain ⟨hjournal, hrun⟩ := hpurge hseen calls
  obtain ⟨hjournal', hrun'⟩ := hpurge rfl calls'
  rw [hsame] at hjournal hrun
  exact ⟨hjournal.trans hjournal'.symm, hrun.trans hrun'.symm⟩

/-! ## A legacy client and an endpoint -/

/-- What `handle` makes of a method and its parameters: what is no mapping counts as none, but an
`initialize` without one does not reach the session. -/
def forwardedOf (method : Str) (params : Json) : Option Legacy.Message :=
  match params.orEmpty with
  | .obj params => some (method, params)
  | _ => if method = INITIALIZE then none else some (method, [])

/-- A message, as a session without handlers is given it. -/
def sessionCall (m : Legacy.Message) : Legacy.Call := ⟨m.1, some m.2, fun _ => .ok .null⟩

/-- The result that an answer carries. -/
def resultOf : Except ServeError Json → Option Members
  | .ok (.obj result) => some result
  | _ => none

section

variable (H : Host)

/-- The message of the handshake that a call carries. -/
def ServeCall.forwarded (call : ServeCall) : Option Legacy.Message :=
  match call.body with
  | .obj body =>
    if call.era? H = some .handshake then
      forwardedOf (str H.repr (Members.get body (py "method"))) (Members.get body (py "params"))
    else none
  | _ => none

/-- A legacy client and an endpoint. The messages of the handshake that reach the endpoint are the
client's; whatever else reaches it, is anybody's. -/
def dialogue : Link LegacyClientSession Endpoint ClientCall EndpointCall Legacy.Message Members where
  left := client H.repr
  right :=
    { next := (endpoint H .handshake).next,
      entry := fun e i => ((endpoint H .handshake).entry e i).bind resultOf }
  toLeft := ClientCall.consumed
  toRight
    | .serve call => call.forwarded H
    | .beat => none

/-- What the session of an endpoint is given. -/
def EndpointCall.given : EndpointCall → Option Legacy.Call
  | .serve call => (call.forwarded H).map sessionCall
  | .beat => none

end

/-- A client and the session of its endpoint. -/
def apart (j : Joint LegacyClientSession Endpoint Legacy.Message Members) :
    Joint LegacyClientSession LegacyServerSession Legacy.Message Members :=
  { j with right := j.right.server.legacy }

variable {method : Str} {params : Json} {m : Legacy.Message} {c : LegacyClientSession} {e : Endpoint}
  {session : LegacyServerSession} {j : Joint LegacyClientSession Endpoint Legacy.Message Members}

theorem handleLegacy_forwarded (H : Host) (session : LegacyServerSession)
    (h : forwardedOf method params = some m) :
    DualEraServer.handleLegacy H session method params =
      ((session.answer H.repr (sessionCall m)).answer.mapError .session,
        (session.answer H.repr (sessionCall m)).session) := by
  unfold forwardedOf at h
  unfold DualEraServer.handleLegacy
  revert h
  cases params.orEmpty with
  | obj members =>
    intro h
    obtain rfl := Option.some.inj h
    rfl
  | _ =>
    intro h
    dsimp only at h ⊢
    split_ifs at h with hmethod
    obtain rfl := Option.some.inj h
    rw [if_neg fun hboth => hmethod hboth.1]
    rfl

theorem handleLegacy_unforwarded (H : Host) (session : LegacyServerSession)
    (h : forwardedOf method params = none) :
    ∃ error, DualEraServer.handleLegacy H session method params = (.error error, session) := by
  unfold forwardedOf at h
  unfold DualEraServer.handleLegacy
  revert h
  cases params.orEmpty with
  | obj members =>
    intro h
    cases h
  | _ =>
    intro h
    dsimp only at h ⊢
    split_ifs at h with hmethod
    by_cases hstate : session.state = .created
    · rw [if_pos ⟨hmethod, hstate⟩]
      exact ⟨_, rfl⟩
    · rw [if_neg fun hboth => hstate hboth.2, LegacyServerSession.handle]
      rw [if_pos hmethod, LegacyServerSession.handleInitialize, if_pos hstate]
      exact ⟨_, rfl⟩

/-- A call that forwards nothing leaves the session as it is, and has no result. -/
theorem dialogue_hidden (H : Host) (e : Endpoint) (i : EndpointCall) (h : i.given H = none) :
    ((dialogue H).right.next e i).server.legacy = e.server.legacy ∧
      (dialogue H).right.entry e i = none := by
  cases i with
  | beat =>
    refine ⟨?_, rfl⟩
    simp only [dialogue, next_beat, Endpoint.beat, renewed_legacy]
  | serve call =>
    have hnone : call.forwarded H = none := Option.map_eq_none_iff.mp h
    by_cases hera : call.era? H = some .handshake
    · obtain ⟨body, hbody, hserve⟩ := serve_handshake hera
      obtain ⟨hanswer, hlegacy, -⟩ := hserve e.server
      rw [ServeCall.forwarded, hbody] at hnone
      dsimp only at hnone
      rw [if_pos hera] at hnone
      obtain ⟨error, hhandled⟩ := handleLegacy_unforwarded H e.server.legacy hnone
      rw [hhandled] at hanswer hlegacy
      refine ⟨hlegacy, ?_⟩
      show Option.bind (if call.era? H = some .handshake then
        some (e.server.serve H call.body call.headers).1 else none) resultOf = none
      rw [if_pos hera, hanswer]
      rfl
    · obtain ⟨hseen, hentry⟩ := seen_hidden (H := H) e (.serve call) (decide_eq_false hera)
      refine ⟨Sum.inr.inj hseen, ?_⟩
      show Option.bind ((endpoint H .handshake).entry e (.serve call)) resultOf = none
      rw [hentry]
      rfl

/-- A call that forwards a message does to the session what the message does. -/
theorem dialogue_own (H : Host) (e : Endpoint) (i : EndpointCall) (call : Legacy.Call)
    (h : i.given H = some call) :
    (dialogue H).toRight i = (connection H.repr).toRight call ∧
      ((dialogue H).right.next e i).server.legacy =
        (answerer H.repr).next e.server.legacy call ∧
      (dialogue H).right.entry e i = (answerer H.repr).entry e.server.legacy call := by
  cases i with
  | beat => cases h
  | serve served =>
    obtain ⟨m, hm, rfl⟩ := Option.map_eq_some_iff.mp h
    have hforwarded := hm
    unfold ServeCall.forwarded at hm
    split at hm
    · rename_i body hbody
      split_ifs at hm with hera
      obtain ⟨body', hbody', hserve⟩ := serve_handshake hera
      obtain rfl := Json.obj.inj (hbody.symm.trans hbody')
      obtain ⟨hanswer, hlegacy, -⟩ := hserve e.server
      rw [handleLegacy_forwarded H e.server.legacy hm] at hanswer hlegacy
      refine ⟨hforwarded, hlegacy, ?_⟩
      show Option.bind (if served.era? H = some .handshake then
        some (e.server.serve H served.body served.headers).1 else none) resultOf =
          (e.server.legacy.answer H.repr (sessionCall m)).result
      rw [if_pos hera, hanswer, Option.bind_some, Handled.result]
      cases (e.server.legacy.answer H.repr (sessionCall m)).answer with
      | error error => rfl
      | ok result => cases result <;> rfl
    · cases hm

/-- **A dialogue is seen as a connection** of the client with the session of the endpoint. -/
theorem connected (h : (dialogue H).Reachable c e j) :
    (connection H.repr).Reachable c e.server.legacy (apart j) :=
  Link.projectRight (answerer H.repr) (fun e : Endpoint => e.server.legacy) (EndpointCall.given H)
    (dialogue_hidden H) (dialogue_own H) h

/-- The endpoint, as it is built. -/
def conformanceEndpoint : Endpoint where
  server := conformanceServer
  clock := { wall := newYearMoment }
  issuer := { participantId := py "svc/api-7", epochId := py "epoch-a", lease := 30 * second,
              extensions := [], nextSequence := 1 }

/-- A handshake that carries a modern envelope. -/
def mixedInitialize : ServeCall where
  body := .obj [(py "method", .str INITIALIZE),
    (py "params", .obj [(py "_meta", .obj [(PROTOCOL_VERSION_META_KEY, .str PROTOCOL_REVISION)])])]
  headers := none

/-- A handshake that proposes a legacy revision. -/
def plainInitialize : ServeCall where
  body := .obj [(py "method", .str INITIALIZE),
    (py "params", .obj [(py "protocolVersion", .str LEGACY_ERA)])]
  headers := none

theorem eras_apart_mixed :
    let M := endpoint plainHost .handshake
    let calls : List EndpointCall := [.serve mixedInitialize, .beat, .serve plainInitialize]
    M.journal conformanceEndpoint calls =
        M.journal conformanceEndpoint [.serve plainInitialize] ∧
      (M.run conformanceEndpoint calls).seen .handshake =
        (M.run conformanceEndpoint [.serve plainInitialize]).seen .handshake :=
  eras_apart plainHost .handshake rfl rfl

/-! ## The handshake can be completed -/

/-- Nothing has failed, and what was answered can be delivered. -/
structure Open (c : LegacyClientSession)
    (k : Joint LegacyClientSession LegacyServerSession Legacy.Message Members) : Prop where
  waiting : k.right.state = .created → k.left.state = .created
  answered : k.right.state ≠ .created → ∃ result ∈ k.replies, c.Matches result
  living : k.right.state ≠ .failed

variable {repr : Json → Str} {served : Finset Str} {call : Legacy.Call}
  {k : Joint LegacyClientSession LegacyServerSession Legacy.Message Members}

/-- The request of a client that owns its revision opens a session. -/
theorem request_opens (hc : c.Owned) (hs : session.state = .created)
    (hcall : (call.method, call.params.getD []) = c.request) :
    (session.answer repr call).session.state = .initializing := by
  obtain ⟨hmethod, hparams⟩ := Prod.mk.inj hcall
  have hrequested : call.requested = .str c.requestedProtocolVersion := by
    rw [Legacy.Call.requested, hparams]
    rfl
  have hway := @handle_cases repr session call
  generalize session.answer repr call = handled at hway
  cases hway with
  | opened heartbeat result method state accepted => rfl
  | failed e method state refused =>
    rw [hrequested] at refused
    cases refused.symm.trans (negotiateProtocol_accepted_iff.mpr ⟨_, hc, rfl⟩)
  | confirmed method state => cases hs.symm.trans state
  | served state expects => cases hs.symm.trans state
  | refused e unexpected => exact absurd (Or.inl ⟨hmethod, hs⟩) unexpected

/-- The notification confirms a session that was opened. -/
theorem notification_confirms (hs : session.state = .initializing)
    (hmethod : call.method = INITIALIZED_NOTIFICATION) :
    (session.answer repr call).session.state = .ready := by
  unfold LegacyServerSession.answer LegacyServerSession.handle
  dsimp only
  rw [if_neg (by rw [hmethod]; exact INITIALIZED_NOTIFICATION_ne), if_pos hmethod,
    LegacyServerSession.handleInitialized, if_neg (not_not.mpr hs)]

/-- A step of the session that does not open it. -/
theorem Open.moveRight (h : Open c k)
    (hmove : (k.right.answer repr call).session.state = k.right.state ∨
    k.right.state ≠ .created ∧ (k.right.answer repr call).session.state = .ready) :
    Open c ((connection repr).moveRight k call) := by
  have hstate : ((connection repr).moveRight k call).right.state =
      (k.right.answer repr call).session.state := rfl
  have hreplies : ∀ result ∈ k.replies, result ∈ ((connection repr).moveRight k call).replies :=
    fun result hresult => List.mem_append_left _ hresult
  rcases hmove with hsame | ⟨hopened, hready⟩
  · rw [hsame] at hstate
    refine ⟨fun hcreated => h.waiting (hstate ▸ hcreated), fun hno => ?_, hstate ▸ h.living⟩
    obtain ⟨result, hresult, hmatches⟩ := h.answered (hstate ▸ hno)
    exact ⟨result, hreplies result hresult, hmatches⟩
  · rw [hready] at hstate
    refine ⟨fun hcreated => ?_, fun _ => ?_, ?_⟩
    · cases hstate.symm.trans hcreated
    · obtain ⟨result, hresult, hmatches⟩ := h.answered hopened
      exact ⟨result, hreplies result hresult, hmatches⟩
    · rw [hstate]
      exact SessionState.noConfusion

/-- **Every joint state that is reached is open.** -/
theorem open_reachable (hc : c.Owned) (hfresh : c.negotiatedEra = none) (hstart : c.state = .created)
    (hs : session.state = .created) (h : (connection repr).Reachable c session k) : Open c k := by
  induction h with
  | refl =>
    refine ⟨fun _ => hstart, fun hno => absurd hs hno, ?_⟩
    rw [hs]
    exact SessionState.noConfusion
  | @tail k _ hreach step ih =>
    have hagree := agreeing_reachable hc hfresh hs hreach
    cases step with
    | left i sent =>
      refine ⟨fun hcreated => ?_, ih.answered, ih.living⟩
      cases i with
      | initializeRequest => exact ih.waiting hcreated
      | consumeInitializeResult result =>
        exact absurd hcreated (hagree.replies result (sent result rfl)).1.state
      | initializedNotification =>
        have hleft := ih.waiting hcreated
        show ((client repr).next k.left .initializedNotification).state = .created
        rw [next_confirm_early (by rw [hleft]; exact SessionState.noConfusion)]
        exact hleft
    | right call sent =>
      rcases hagree.requests _ (sent _ rfl) with hrequest | hnotification
      · by_cases hcreated : k.right.state = .created
        · obtain ⟨-, -, result, hresult, hanswers⟩ := @answer_request repr _ _ _ hc hcreated hrequest
          have hopened := @request_opens _ _ repr _ hc hcreated hrequest
          have hstate : ((connection repr).moveRight k call).right.state = .initializing := hopened
          refine ⟨fun hno => ?_, fun _ => ⟨result, ?_, hanswers.version⟩, ?_⟩
          · cases hstate.symm.trans hno
          · show result ∈ k.replies ++ (k.right.answer repr call).result.toList
            rw [hresult]
            exact List.mem_append_right _ List.mem_cons_self
          · rw [hstate]
            exact SessionState.noConfusion
        · obtain ⟨hsession, -⟩ := answer_again repr hcreated (congrArg Prod.fst hrequest)
          exact ih.moveRight (Or.inl (congrArg LegacyServerSession.state hsession))
      · obtain ⟨-, hway⟩ := @answer_notification k.right call repr (congrArg Prod.fst hnotification)
        refine ih.moveRight ?_
        rcases hway with hsession | ⟨hinitializing, hsession⟩
        · exact Or.inl (congrArg LegacyServerSession.state hsession)
        · refine Or.inr ⟨?_, congrArg LegacyServerSession.state hsession⟩
          rw [hinitializing]
          exact SessionState.noConfusion

/-- The body that a legacy client puts on the wire; a notification has no identifier. -/
def wireBody (m : Legacy.Message) : Members :=
  (py "jsonrpc", .str (py "2.0")) :: (if m.1 = INITIALIZE then [(py "id", .int 1)] else []) ++
    [(py "method", .str m.1), (py "params", .obj m.2)]

/-- A message on the wire. -/
def wireCall (m : Legacy.Message) : ServeCall := ⟨.obj (wireBody m), none⟩

theorem get_wireBody (m : Legacy.Message) : Members.get (wireBody m) (py "method") = .str m.1 ∧
    Members.get (wireBody m) (py "params") = .obj m.2 := by
  unfold wireBody
  split_ifs <;> exact ⟨rfl, rfl⟩

/-- **The endpoint gives its session what a client sends.** -/
theorem forwarded_wireCall (H : Host) (hc : c.Owned)
    (hm : m = c.request ∨ m = (INITIALIZED_NOTIFICATION, [])) :
    (wireCall m).forwarded H = some m := by
  obtain ⟨hmethod, hparams⟩ := get_wireBody m
  have hhandshake : isHandshakeMethod (wireBody m) = true := by
    refine isHandshakeMethod_iff.mpr ⟨m.1, ?_, hmethod⟩
    rcases hm with rfl | rfl
    · exact List.mem_cons_self
    · exact List.mem_cons_of_mem _ List.mem_cons_self
  have hbare : hasModernEnvelope (wireBody m) = false := by
    rw [hasModernEnvelope, hparams]
    rcases hm with rfl | rfl <;> rfl
  have hproposed : (proposedHandshakeVersion (wireBody m)).filter isModern = none := by
    rw [proposedHandshakeVersion, hparams]
    rcases hm with rfl | rfl
    · have hlegacy : ∀ version ∈ SUPPORTED_PROTOCOL_VERSIONS, isModern version = false := by decide
      exact Option.filter_eq_none_iff.mpr fun version hversion => by
        obtain rfl := Option.some.inj hversion
        rw [hlegacy _ hc]
        exact Bool.false_ne_true
    · rfl
  have hera : (wireCall m).era? H = some .handshake := by
    have hnamed : m.1 ≠ [] := by rcases hm with rfl | rfl <;> exact List.cons_ne_nil _ _
    have hroute : ∃ routed, Era.route H.repr H.lower (wireBody m) none = .ok routed ∧
        routed.era = .handshake := by
      unfold Era.route
      rw [hmethod]
      dsimp only
      rw [if_neg hnamed, if_neg (by rw [hbare]; exact fun h => Bool.false_ne_true h.1),
        if_neg (by rw [hbare]; exact Bool.false_ne_true), if_pos hhandshake, hproposed]
      exact ⟨_, rfl, rfl⟩
    obtain ⟨routed, hrouted, hera⟩ := hroute
    exact era?_eq_some.mpr ⟨wireBody m, routed, rfl, hrouted, hera⟩
  have hgiven : forwardedOf m.1 (.obj m.2) = some m := by
    rcases hm with rfl | rfl <;> rfl
  unfold ServeCall.forwarded wireCall
  dsimp only
  rw [← wireCall, if_pos hera, hmethod, hparams]
  exact hgiven

/-- Steps of the client and of the endpoint. -/
abbrev Steps (H : Host) := Relation.ReflTransGen (dialogue H).Step

/-- A message that was sent is delivered to the endpoint. -/
theorem deliver (H : Host) (hc : c.Owned) (hm : m = c.request ∨ m = (INITIALIZED_NOTIFICATION, []))
    (hsent : m ∈ j.requests) : ∃ j', Steps H j j' ∧ j'.left = j.left ∧ j.replies ⊆ j'.replies ∧
      j'.right.server.legacy =
        (j.right.server.legacy.answer H.repr (sessionCall m)).session := by
  have hforwarded := forwarded_wireCall H hc hm
  refine ⟨(dialogue H).moveRight j (.serve (wireCall m)), ?_, rfl, ?_, ?_⟩
  · refine Relation.ReflTransGen.single (.right _ fun m' hm' => ?_)
    obtain rfl := Option.some.inj (hforwarded.symm.trans hm')
    exact hsent
  · exact fun result hresult => List.mem_append_left _ hresult
  · exact (dialogue_own H j.right (.serve (wireCall m)) (sessionCall m)
      (congrArg (Option.map sessionCall) hforwarded)).2.1

/-- From every joint state that is reached, the session can be opened. -/
theorem can_open (H : Host) (hc : c.Owned) (hagree : Agreeing H.repr c served (apart j))
    (hopen : Open c (apart j)) :
    ∃ j', Steps H j j' ∧ j'.right.server.legacy.state ≠ .created := by
  by_cases hcreated : j.right.server.legacy.state = .created
  · have hleft : j.left.state = .created := hopen.waiting hcreated
    have hsent : c.request ∈ ((dialogue H).moveLeft j .initializeRequest).requests := by
      show c.request ∈ j.requests ++ ((client H.repr).entry j.left .initializeRequest).toList
      rw [entry_request, if_pos hleft, ← hagree.request]
      exact List.mem_append_right _ List.mem_cons_self
    obtain ⟨j', hsteps, -, -, hsession⟩ := deliver H hc (Or.inl rfl) hsent
    have hopened : j'.right.server.legacy.state = .initializing := by
      rw [hsession]
      exact request_opens hc hcreated rfl
    have hsends : ∀ m, (dialogue H).toLeft .initializeRequest = some m → m ∈ j.replies := by
      intro m hm
      cases hm
    refine ⟨j', .head (.left .initializeRequest hsends) hsteps, ?_⟩
    rw [hopened]
    exact SessionState.noConfusion
  · exact ⟨j, .refl, hcreated⟩

/-- From every joint state with an open session, the handshake can be completed. -/
theorem can_complete (H : Host) (hc : c.Owned) (hagree : Agreeing H.repr c served (apart j))
    (hopen : Open c (apart j)) (hstate : j.right.server.legacy.state ≠ .created) :
    ∃ j', Steps H j j' ∧ j'.left.state = .ready ∧ j'.left.negotiatedEra ≠ none ∧
      j'.right.server.legacy.state = .ready := by
  obtain ⟨result, hresult, hmatches⟩ := hopen.answered hstate
  have hversion : j.left.requestedProtocolVersion = c.requestedProtocolVersion := hagree.version
  have howned : j.left.Owned := by
    rw [LegacyClientSession.Owned, hversion]
    exact hc
  have hmatches' : j.left.Matches result := by
    rw [LegacyClientSession.Matches, hversion]
    exact hmatches
  have hsettled := @next_match H.repr _ _ howned hmatches'
  have hconfirmed := @next_confirm H.repr (j.left.settle H.repr result) rfl
  let j₁ := (dialogue H).moveLeft j (.consumeInitializeResult result)
  let j₂ := (dialogue H).moveLeft j₁ .initializedNotification
  have hleft₁ : j₁.left = j.left.settle H.repr result := hsettled
  have hleft₂ : j₂.left = { j.left.settle H.repr result with state := .ready } := by
    show (client H.repr).next j₁.left .initializedNotification = _
    rw [hleft₁]
    exact hconfirmed
  have hsteps : Steps H j j₂ := by
    refine .head (.left _ fun m hm => ?_) (.single (.left _ fun m hm => ?_))
    · obtain rfl := Option.some.inj hm
      exact hresult
    · cases hm
  have hsent : (INITIALIZED_NOTIFICATION, []) ∈ j₂.requests := by
    show (INITIALIZED_NOTIFICATION, []) ∈ j₁.requests ++
      ((client H.repr).entry j₁.left .initializedNotification).toList
    rw [hleft₁]
    exact List.mem_append_right _ List.mem_cons_self
  obtain ⟨j', hdelivered, hleft, -, hsession⟩ := deliver H hc (Or.inr rfl) hsent
  refine ⟨j', hsteps.trans hdelivered, ?_, ?_, ?_⟩
  · rw [hleft, hleft₂]
  · rw [hleft, hleft₂]
    exact Option.some_ne_none _
  · rw [hsession]
    show (j.right.server.legacy.answer H.repr
      (sessionCall (INITIALIZED_NOTIFICATION, []))).session.state = .ready
    obtain ⟨-, hway⟩ := @answer_notification j.right.server.legacy
      (sessionCall (INITIALIZED_NOTIFICATION, [])) H.repr rfl
    cases hright : j.right.server.legacy.state with
    | created => exact absurd hright hstate
    | failed => exact absurd hright hopen.living
    | initializing => exact notification_confirms hright rfl
    | ready =>
      rcases hway with hsame | ⟨-, hconfirms⟩
      · rw [hsame, hright]
      · rw [hconfirms]

/-- The session of a server that was just built. -/
theorem init_legacy {H : Host} {current : Heartbeat} {server : DualEraServer}
    (h : DualEraServer.init H current = .ok server) :
    server.legacy.state = .created ∧ AUTHORITATIVE_READ_METHOD ∈ server.legacy.implemented := by
  unfold DualEraServer.init at h
  cases hlegacy : LegacyServerSession.init H.repr (py "dual-era-conformance") ∅ LEGACY_IMPLEMENTED
      LEGACY_ERA with
  | error e =>
    rw [hlegacy] at h
    cases h
  | ok legacy =>
    rw [hlegacy] at h
    obtain rfl := Except.ok.inj h
    obtain ⟨himplemented, hcreated, -, -⟩ := server_init hlegacy
    refine ⟨hcreated, ?_⟩
    rw [himplemented]
    exact Finset.mem_union_left _ (by decide)

/-- **The handshake crosses the endpoint.** Whatever else is sent to it, and whatever is lost,
duplicated, delayed and reordered of the handshake itself: what the client reports, the session of
the endpoint reports, and from every joint state that is reached the handshake can be completed, on
the terms that the client asked for. -/
theorem handshake_crosses {H : Host} {clientName version : Str} {requestHeartbeat : Bool}
    {current : Heartbeat} (hclient : LegacyClientSession.init H.repr clientName version
      requestHeartbeat = .ok c) (hserver : DualEraServer.init H current = .ok e.server)
    (h : (dialogue H).Reachable c e j) :
    (j.left.eraReport ≠ UNNEGOTIATED →
      j.left.eraReport = j.right.server.legacy.eraReport) ∧
    ∃ j', Steps H j j' ∧ j'.left.state = .ready ∧ j'.right.server.legacy.state = .ready ∧
      j'.left.heartbeatReady = requestHeartbeat ∧
      j'.right.server.legacy.heartbeatReady = requestHeartbeat := by
  obtain ⟨howned, hc⟩ := client_init hclient
  obtain ⟨hcreated, hread⟩ := init_legacy hserver
  have hversion : c.Owned := by
    rw [LegacyClientSession.Owned, hc]
    exact howned
  have hfresh : c.negotiatedEra = none := by rw [hc]
  have hstart : c.state = .created := by rw [hc]
  have hasked : c.requestHeartbeat = requestHeartbeat := by rw [hc]
  have hagree : ∀ {j}, (dialogue H).Reachable c e j →
      Agreeing H.repr c e.server.legacy.implemented (apart j) := fun h =>
    agreeing_reachable hversion hfresh hcreated (connected h)
  have hopen : ∀ {j}, (dialogue H).Reachable c e j → Open c (apart j) := fun h =>
    open_reachable hversion hfresh hstart hcreated (connected h)
  have hreports : ∀ {j}, (dialogue H).Reachable c e j → j.left.negotiatedEra ≠ none →
      j.left.eraReport = j.right.server.legacy.eraReport ∧
        j.left.eraReport.heartbeatSupported = requestHeartbeat := by
    intro j h hknown
    have hagree := hagree h
    rcases hagree.informed with hnone | ⟨hgranted, hinformed⟩
    · exact absurd hnone hknown
    · have hleft := hinformed.eraReport
      have hright := hgranted.eraReport hversion
      rw [hagree.version, hagree.asked] at hleft
      rw [hagree.implemented] at hright
      refine ⟨hleft.trans hright.symm, ?_⟩
      rw [Bool.eq_iff_iff, ← hasked, show j.left.eraReport = _ from hleft]
      exact agreedTerms_supported.trans (and_iff_left hread)
  constructor
  · intro hreport
    refine (hreports h fun hnone => hreport ?_).1
    rw [LegacyClientSession.eraReport, hnone]
  · obtain ⟨j₁, hsteps₁, hstate⟩ := can_open H hversion (hagree h) (hopen h)
    have h₁ := Relation.ReflTransGen.trans h hsteps₁
    obtain ⟨j₂, hsteps₂, hready, hknown, hsession⟩ :=
      can_complete H hversion (hagree h₁) (hopen h₁) hstate
    obtain ⟨hsame, hsupported⟩ := hreports (Relation.ReflTransGen.trans h₁ hsteps₂) hknown
    refine ⟨j₂, hsteps₁.trans hsteps₂, hready, hsession, ?_, ?_⟩
    · rw [LegacyClientSession.heartbeatReady, hready, hsupported]
      rfl
    · rw [LegacyServerSession.heartbeatReady, hsession, ← hsame, hsupported]
      rfl

theorem handshake_crosses_mixed :
    let j := (dialogue plainHost).moveRight { left := askingClient, right := conformanceEndpoint }
      (.serve mixedInitialize)
    ∃ j', Steps plainHost j j' ∧ j'.left.state = .ready ∧
      j'.right.server.legacy.state = .ready ∧ j'.left.heartbeatReady = true ∧
      j'.right.server.legacy.heartbeatReady = true := by
  intro j
  have hclient : LegacyClientSession.init plainHost.repr (py "client") LEGACY_ERA true =
      .ok askingClient := rfl
  have hserver : DualEraServer.init plainHost conformanceServer.current =
      .ok conformanceEndpoint.server := by
    have hera : assertLegacyEra plainHost.repr LEGACY_ERA = .ok LEGACY_ERA := by rfl
    rw [DualEraServer.init, LegacyServerSession.init, hera]
    rfl
  have hreach : (dialogue plainHost).Reachable askingClient conformanceEndpoint j := by
    refine Relation.ReflTransGen.single (.right _ fun m hm => ?_)
    cases hm
  exact (handshake_crosses hclient hserver hreach).2

end McpHeartbeat
