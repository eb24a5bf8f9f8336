import McpHeartbeat.Base.Machine
import McpHeartbeat.Core.Digest
import McpHeartbeat.Current.Advertising
import McpHeartbeat.Current.Era
import McpHeartbeat.Legacy.Session

/-!
# The dual-era server

One endpoint classifies each request, and hands it to the leg that owns it. It keeps two ledgers: of
what reached a leg, and of what was refused before.

* `DualEraServer`, `DualEraServer.serve`: the endpoint;
* `Ledgered`: what one call ought to leave in the ledgers;
* `ReachesLadder`, `route_of_reaches`, `confused_of_not_reaches`: which refusals are cross-era;
* **`ledger_complete_exactly_when`**: the ledgers are complete exactly where no request reaches the
  ladder with an envelope that it refuses, or with headers that do not mirror it.
-/

namespace McpHeartbeat

open Base Legacy

/-- What the interpreter does with values, beyond what is modelled. -/
structure Host where
  repr : Json → Str
  lower : Str → Str
  quote : Str → Str
  floats : FloatRepr
  dict : Json → Except Str Members
  platform : Platform

/-- What `serve` raises. -/
inductive ServeError
  | adapter (e : AdapterError)
  | session (e : SessionError)
  | attributeError
  | valueError (text : Str)
  | keyError (text : Str)

/-- One entry of `refusals`. -/
structure Refusal where
  method : Str
  error : Str
deriving DecidableEq

/-- `DualEraServer`; the lease is the one its issuer minted last. -/
structure DualEraServer where
  legacy : LegacyServerSession
  current : Heartbeat
  mutations : List Str := []
  refusals : List Refusal := []

/-- The exceptions that `serve` catches, by the names of their types. -/
def AdapterError.caught : AdapterError → Option Str
  | crossEraConfusion _ => some (py "CrossEraConfusion")
  | unsupportedProtocolVersion _ _ => some (py "UnsupportedProtocolVersion")
  | malformedEnvelope _ | headerMismatch _ => none

/-- What the conformance server implements. -/
def LEGACY_IMPLEMENTED : Finset Str :=
  {AUTHORITATIVE_READ_METHOD, SUBSCRIBE_METHOD, UNSUBSCRIBE_METHOD, LIST_CHANGED_METHOD}

namespace DualEraServer

variable (H : Host)

/-- `DualEraServer.__init__`, with the lease that its issuer mints. -/
def init (current : Heartbeat) : Except LegacyEraViolation DualEraServer :=
  (LegacyServerSession.init H.repr (py "dual-era-conformance") ∅ LEGACY_IMPLEMENTED LEGACY_ERA).map
    fun legacy => { legacy, current }

/-- `LegacyServerSession.handle`, of a session without handlers, for parameters of any type: what is
not a mapping has no `get`. -/
def handleLegacy (session : LegacyServerSession) (method : Str) (params : Json) :
    Except ServeError Json × LegacyServerSession :=
  let handled := fun params =>
    let handled := session.handle H.repr method params fun _ => .ok .null
    (handled.answer.mapError .session, handled.session)
  match params.orEmpty with
  | .obj params => handled (some params)
  | _ =>
    if method = INITIALIZE ∧ session.state = .created then (.error .attributeError, session)
    else handled none

/-- `_serve_current`. -/
def serveCurrent (self : DualEraServer) (method : Str) : Except ServeError Json :=
  if method = DISCOVER_METHOD then
    ((buildDiscoverResult H.quote H.floats H.dict
      [(py "name", .str (py "dual-era-conformance")), (py "version", .str (py "0.1.0"))]
      (some {}) none none true).mapError .valueError).map .obj
  else if method = READ_RESOURCE_METHOD then
    .ok (.obj [(py "document", self.current.toDict H.platform)])
  else .error (.keyError (py "unhandled modern method " ++ H.repr (.str method)))

/-- `serve`, of a body that is a mapping. -/
def serveObject (self : DualEraServer) (body : Members) (headers : Option Headers) :
    Except ServeError Json × DualEraServer :=
  let method := str H.repr (body.get (py "method"))
  match Era.route H.repr H.lower body headers with
  | .error e =>
    (.error (.adapter e),
      { self with refusals := self.refusals ++ (e.caught.map fun error => ⟨method, error⟩).toList })
  | .ok routed =>
    match routed.era with
    | .current =>
      let self := { self with mutations := self.mutations ++ [py "current:" ++ method] }
      (self.serveCurrent H method, self)
    | .handshake =>
      let self := { self with mutations := self.mutations ++ [py "legacy:" ++ method] }
      let (answer, legacy) := handleLegacy H self.legacy method (body.get (py "params"))
      (answer, { self with legacy })

/-- `serve`: a body that is no mapping has no `get`. -/
def serve (self : DualEraServer) (body : Json) (headers : Option Headers) :
    Except ServeError Json × DualEraServer :=
  match body with
  | .obj body => self.serveObject H body headers
  | _ => (.error .attributeError, self)

end DualEraServer

/-! ## One call -/

/-- One call of `serve`. -/
structure ServeCall where
  body : Json
  headers : Option Headers

variable (H : Host)

/-- What `route` makes of the call. -/
def ServeCall.classified (call : ServeCall) : Except ServeError EraRoute :=
  match call.body with
  | .obj body => (Era.route H.repr H.lower body call.headers).mapError .adapter
  | _ => .error .attributeError

/-- A server under its calls; the journal holds the answers. -/
def dualEra : Machine DualEraServer ServeCall (Except ServeError Json) where
  next s call := (s.serve H call.body call.headers).2
  entry s call := some (s.serve H call.body call.headers).1

/-- What a call from `s` to `s'` ought to leave in the ledgers, by what `route` makes of it. -/
structure Records (call : ServeCall) (s s' : DualEraServer) (begun : List Str)
    (refused : List Refusal) : Prop where
  mutations : s'.mutations = s.mutations ++ begun
  refusals : s'.refusals = s.refusals ++ refused
  one : begun.length + refused.length = 1
  refusal : refused ≠ [] ↔ ∃ e, call.classified H = .error e
  unchanged : refused ≠ [] → s'.legacy = s.legacy ∧ s'.current = s.current
  dispatch : begun ≠ [] ↔ ∃ routed, call.classified H = .ok routed

/-- The call leaves one entry, in the ledger where it belongs. -/
def Ledgered (s : DualEraServer) (call : ServeCall) : Prop :=
  ∃ begun refused, Records H call s ((dualEra H).next s call) begun refused

/-- A refusal that `serve` does not catch. -/
def ServeCall.Escapes (call : ServeCall) : Prop :=
  ∃ e, call.classified H = .error e ∧ ∀ e', e = .adapter e' → e'.caught = none

variable {H} {s : DualEraServer} {call : ServeCall}

/-- What is classified is an object that `route` was given. -/
theorem classified_ok {routed : EraRoute} (h : call.classified H = .ok routed) :
    ∃ body, call.body = .obj body ∧
      Era.route H.repr H.lower body call.headers = .ok routed := by
  unfold ServeCall.classified at h
  split at h
  · rename_i body hbody
    cases hroute : Era.route H.repr H.lower body call.headers with
    | ok r => rw [hroute] at h; exact ⟨body, hbody, hroute.trans (congrArg _ (Except.ok.inj h))⟩
    | error e => rw [hroute] at h; cases h
  · cases h

theorem classified_adapter {e : AdapterError} (h : call.classified H = .error (.adapter e)) :
    ∃ body, call.body = .obj body ∧ Era.route H.repr H.lower body call.headers = .error e := by
  unfold ServeCall.classified at h
  split at h
  · rename_i body hbody
    cases hroute : Era.route H.repr H.lower body call.headers with
    | ok r => rw [hroute] at h; cases h
    | error e' =>
      rw [hroute] at h
      exact ⟨body, hbody, hroute.trans (congrArg _ (ServeError.adapter.inj (Except.error.inj h)))⟩
  · cases h

/-- Nothing is raised but by the adapter, or for want of a mapping. -/
theorem classified_error {e : ServeError} (h : call.classified H = .error e) :
    (∃ e', e = .adapter e') ∨ e = .attributeError ∧ (dualEra H).next s call = s := by
  unfold ServeCall.classified at h
  split at h
  · rename_i body hbody
    cases hroute : Era.route H.repr H.lower body call.headers with
    | ok r => rw [hroute] at h; cases h
    | error e' => rw [hroute] at h; cases h; exact Or.inl ⟨e', rfl⟩
  · rename_i hbody
    cases h
    refine Or.inr ⟨rfl, ?_⟩
    show (s.serve H call.body call.headers).2 = s
    unfold DualEraServer.serve
    split
    · rename_i body heq
      exact absurd heq (hbody body)
    · rfl

/-- **A call that is routed begins a dispatch**, and leaves the refusals as they are. -/
theorem records_routed {routed : EraRoute} (h : call.classified H = .ok routed) :
    ∃ begun, Records H call s ((dualEra H).next s call) begun [] := by
  obtain ⟨body, hbody, hroute⟩ := classified_ok h
  have hnext : (dualEra H).next s call = (s.serveObject H body call.headers).2 := by
    show (s.serve H call.body call.headers).2 = _
    rw [hbody]
    rfl
  rw [hnext]
  unfold DualEraServer.serveObject
  rw [hroute]
  dsimp only
  cases routed.era with
  | current =>
    exact ⟨[_], rfl, (List.append_nil _).symm, rfl, by simp [h], by simp, by simp [h]⟩
  | handshake =>
    exact ⟨[_], rfl, (List.append_nil _).symm, rfl, by simp [h], by simp, by simp [h]⟩

/-- **A refusal leaves its entry if it is caught**, and changes nothing else. -/
theorem next_of_refused {e : AdapterError} (h : call.classified H = .error (.adapter e)) :
    ∃ method, (dualEra H).next s call = { s with
      refusals := s.refusals ++ (e.caught.map fun error => Refusal.mk method error).toList } := by
  obtain ⟨body, hbody, hroute⟩ := classified_adapter h
  refine ⟨str H.repr (Members.get body (py "method")), ?_⟩
  show (s.serve H call.body call.headers).2 = _
  rw [hbody]
  show (s.serveObject H body call.headers).2 = _
  unfold DualEraServer.serveObject
  rw [hroute]

/-- **One call is ledgered exactly if its refusal does not escape.** -/
theorem ledgered_iff : Ledgered H s call ↔ ¬ call.Escapes H := by
  constructor
  · rintro ⟨begun, refused, hrecords⟩ ⟨e, he, hescapes⟩
    have hrefused := hrecords.refusal.mpr ⟨e, he⟩
    suffices hsame : ((dualEra H).next s call).refusals = s.refusals by
      have happend := hrecords.refusals.symm.trans hsame
      exact hrefused (List.append_right_eq_self.mp happend)
    rcases classified_error (s := s) he with ⟨e', rfl⟩ | ⟨-, hnext⟩
    · obtain ⟨method, hnext⟩ := next_of_refused (s := s) he
      rw [hnext, hescapes e' rfl]
      exact List.append_nil _
    · rw [hnext]
  · intro hcaught
    cases hclassified : call.classified H with
    | ok routed =>
      obtain ⟨begun, hrecords⟩ := records_routed (s := s) hclassified
      exact ⟨begun, [], hrecords⟩
    | error e =>
      obtain ⟨e', rfl, hcaught⟩ : ∃ e', e = .adapter e' ∧ e'.caught ≠ none := by
        by_contra hno
        refine hcaught ⟨e, hclassified, ?_⟩
        intro e' he'
        by_contra hne
        exact hno ⟨e', he', hne⟩
      obtain ⟨error, herror⟩ := Option.ne_none_iff_exists'.mp hcaught
      obtain ⟨method, hnext⟩ := next_of_refused (s := s) hclassified
      rw [herror] at hnext
      refine ⟨[], [⟨method, error⟩], ?_⟩
      rw [hnext]
      exact ⟨(List.append_nil _).symm, rfl, rfl, by simp [hclassified], fun _ => ⟨rfl, rfl⟩,
        by simp [hclassified]⟩

/-! ## What escapes -/

/-- The request is given to the ladder: it carries a modern envelope, under a method that is not of
the other era. -/
structure ReachesLadder (body : Members) (method : Str) : Prop where
  name : body.get (py "method") = .str method
  named : method ≠ []
  envelope : hasModernEnvelope body = true
  modern : method ∉ LEGACY_ONLY_METHODS

variable {body : Members} {method : Str} {headers : Option Headers} {e : AdapterError}
  {repr : Json → Str} {lower : Str → Str}

theorem ReachesLadder.not_handshake (h : ReachesLadder body method) :
    isHandshakeMethod body = false := by
  rw [Bool.eq_false_iff]
  intro hhandshake
  obtain ⟨name, hname, hmethod⟩ := isHandshakeMethod_iff.mp hhandshake
  obtain rfl := Json.str.inj (hmethod.symm.trans h.name)
  exact h.modern (List.mem_append_left _ hname)

/-- **What reaches the ladder is refused as the ladder refuses it.** -/
theorem route_of_reaches (h : ReachesLadder body method) :
    Era.route repr lower body headers = .error e ↔
      classifyRequest repr lower body headers MODERN_PROTOCOL_VERSIONS = .error e := by
  unfold Era.route
  rw [h.name]
  dsimp only
  rw [if_neg h.named, if_neg (by rw [h.not_handshake]; simp), if_pos h.envelope, if_neg h.modern]
  cases classifyRequest repr lower body headers MODERN_PROTOCOL_VERSIONS <;> simp

/-- **Whatever else is refused is refused as a confusion of eras.** -/
theorem confused_of_not_reaches (hno : ∀ method, ¬ ReachesLadder body method)
    (h : Era.route repr lower body headers = .error e) : ∃ why, e = .crossEraConfusion why := by
  have hway := route_cases repr lower body headers
  rw [h] at hway
  cases hway with
  | mixed why both modern => exact ⟨why, rfl⟩
  | stray why neither plain => exact ⟨why, rfl⟩
  | stopped e envelope refused =>
    unfold Era.route at h
    split at h
    · rename_i method hmethod
      split_ifs at h with hempty hboth hlegacy
      · exact ⟨_, (Except.error.inj h).symm⟩
      · exact ⟨_, (Except.error.inj h).symm⟩
      · exact ⟨_, (Except.error.inj h).symm⟩
      · exact absurd ⟨hmethod, hempty, envelope, hlegacy⟩ (hno method)
    · exact ⟨_, (Except.error.inj h).symm⟩

/-- The exceptions that are not caught are those of the first two rungs. -/
theorem caught_eq_none_iff :
    e.caught = none ↔ e.code = INVALID_PARAMS ∨ e.code = HEADER_MISMATCH := by
  cases e <;> simp [AdapterError.caught, AdapterError.code, INVALID_PARAMS, HEADER_MISMATCH,
    INVALID_REQUEST, UNSUPPORTED_PROTOCOL_VERSION]

/-- The request declares an envelope, and its headers mirror it. -/
def WellCarried (H : Host) (body : Members) (headers : Option Headers) (method : Str) : Prop :=
  ∃ e, Enveloped body method e ∧
    Mirrors H.repr (lowerKeys H.lower headers) method e.version (body.get (py "params"))

/-- The body is an object, and if it reaches the ladder it is well carried. -/
def ServeCall.Sound (H : Host) (call : ServeCall) : Prop :=
  ∃ body, call.body = .obj body ∧
    ∀ method, ReachesLadder body method → WellCarried H body call.headers method

/-- A request declares one envelope, under one name. -/
theorem Enveloped.unique {method' : Str} {e e' : Envelope} (h : Enveloped body method e)
    (h' : Enveloped body method' e') : method = method' ∧ e = e' := by
  obtain rfl := Json.str.inj (h.1.symm.trans h'.1)
  have hread : readEnvelope (fun _ => []) method (body.get (py "params")) = .ok e :=
    readEnvelope_iff.mpr h.2.2
  have hread' : readEnvelope (fun _ => []) method (body.get (py "params")) = .ok e' :=
    readEnvelope_iff.mpr h'.2.2
  exact ⟨rfl, Except.ok.inj (hread.symm.trans hread')⟩

/-- **A refusal of the ladder is not caught** exactly if the request is not well carried. -/
theorem uncaught_iff {H : Host} (h : ReachesLadder body method) :
    (∃ e, Era.route H.repr H.lower body headers = .error e ∧ e.caught = none) ↔
      ¬ WellCarried H body headers method := by
  simp only [route_of_reaches h, caught_eq_none_iff]
  constructor
  · rintro ⟨e, he, hcode⟩ ⟨envelope, henvelope, hmirrors⟩
    rcases classifyRequest_refused he with ⟨-, hno⟩ | ⟨method', envelope', henvelope', hrest⟩
    · exact hno method envelope henvelope
    · obtain ⟨rfl, rfl⟩ := henvelope.unique henvelope'
      rcases hrest with ⟨-, hno⟩ | ⟨hunsupported, -⟩
      · exact hno hmirrors
      · rw [hunsupported] at hcode
        revert hcode
        decide
  · intro hno
    cases hclassify : classifyRequest H.repr H.lower body headers MODERN_PROTOCOL_VERSIONS with
    | ok route =>
      obtain ⟨envelope, hclears⟩ := classifyRequest_iff.mp hclassify
      obtain rfl := Json.str.inj (hclears.method.symm.trans h.name)
      exact absurd ⟨envelope, ⟨hclears.method, hclears.named, hclears.declares⟩, hclears.mirrors⟩ hno
    | error e =>
      refine ⟨e, rfl, ?_⟩
      rcases classifyRequest_refused hclassify with ⟨hcode, -⟩ | ⟨method', envelope, henvelope, hrest⟩
      · exact Or.inl hcode
      · rcases hrest with ⟨hcode, -⟩ | ⟨-, hmirrors, -⟩
        · exact Or.inr hcode
        · obtain rfl := Json.str.inj (henvelope.1.symm.trans h.name)
          exact absurd ⟨envelope, henvelope, hmirrors⟩ hno

/-- **No refusal of a sound call escapes**, and that of any other does. -/
theorem escapes_iff : call.Escapes H ↔ ¬ call.Sound H := by
  constructor
  · rintro ⟨e, he, hescapes⟩ ⟨body, hbody, hsound⟩
    have hclassified : call.classified H =
        (Era.route H.repr H.lower body call.headers).mapError .adapter := by
      rw [ServeCall.classified, hbody]
    cases hroute : Era.route H.repr H.lower body call.headers with
    | ok routed => rw [hclassified, hroute] at he; cases he
    | error e' =>
      rw [hclassified, hroute] at he
      have huncaught := hescapes e' (Except.error.inj he).symm
      by_cases hreaches : ∃ method, ReachesLadder body method
      · obtain ⟨method, hreaches⟩ := hreaches
        exact (uncaught_iff hreaches).mp ⟨e', hroute, huncaught⟩ (hsound method hreaches)
      · obtain ⟨why, rfl⟩ := confused_of_not_reaches (not_exists.mp hreaches) hroute
        cases huncaught
  · intro hunsound
    by_cases hbody : ∃ body, call.body = .obj body
    · obtain ⟨body, hbody⟩ := hbody
      obtain ⟨method, hreaches, huncarried⟩ : ∃ method, ReachesLadder body method ∧
          ¬ WellCarried H body call.headers method := by
        by_contra hno
        refine hunsound ⟨body, hbody, fun method hreaches => ?_⟩
        by_contra huncarried
        exact hno ⟨method, hreaches, huncarried⟩
      obtain ⟨e, hroute, huncaught⟩ := (uncaught_iff hreaches).mpr huncarried
      refine ⟨.adapter e, ?_, fun e' he' => ServeError.adapter.inj he' ▸ huncaught⟩
      rw [ServeCall.classified, hbody]
      show (Era.route H.repr H.lower body call.headers).mapError ServeError.adapter = _
      rw [hroute]
      rfl
    · refine ⟨.attributeError, ?_, nofun⟩
      unfold ServeCall.classified
      split
      · rename_i body heq
        exact absurd ⟨body, heq⟩ hbody
      · rfl

/-- **The ledgers are complete exactly where every call is sound**: in every run, from any state, of
each of its calls. -/
theorem ledger_complete_exactly_when (H : Host) (s : DualEraServer) (calls : List ServeCall) :
    (dualEra H).Along (Ledgered H) s calls ↔ ∀ call ∈ calls, call.Sound H := by
  simp only [Machine.Along, ledgered_iff, escapes_iff, not_not]
  constructor
  · intro h call hcall
    obtain ⟨pre, post, hcalls⟩ := List.append_of_mem hcall
    exact h pre call post hcalls
  · intro h pre call post hcalls
    exact h call (by rw [hcalls]; exact List.mem_append_right _ List.mem_cons_self)

/-! ## A request without capabilities -/

/-- A host whose texts are empty. -/
def plainHost : Host where
  repr _ := []
  lower := id
  quote := id
  floats := heldRepr
  dict _ := .error []
  platform := plainPlatform

/-- The server, as it is built. -/
def conformanceServer : DualEraServer where
  legacy :=
    { serverName := py "dual-era-conformance", era := LEGACY_ERA, methods := ∅,
      implemented := LEGACY_IMPLEMENTED }
  current :=
    { nodeId := some (py "svc/api-7"), bootId := some (py "epoch-a"), sequence := some 0,
      issuedAt := newYearMoment, expiresAt := ⟨newYear.toNat + 30000000, by decide⟩,
      extensionVersion := EXTENSION_VERSION, extensions := [] }

/-- A read whose envelope declares no capabilities. -/
def bareRead : ServeCall where
  body := .obj [(py "method", .str READ_RESOURCE_METHOD),
    (py "params", .obj [(py "_meta", .obj [(PROTOCOL_VERSION_META_KEY, .str PROTOCOL_REVISION)])])]
  headers := none

/-- **A malformed envelope is refused, and neither ledger says so.** -/
theorem refusal_unrecorded :
    DualEraServer.init plainHost conformanceServer.current = .ok conformanceServer ∧
      (∃ e, (bareRead.classified plainHost) = .error (.adapter e) ∧ e.code = INVALID_PARAMS) ∧
      (dualEra plainHost).run conformanceServer [bareRead] = conformanceServer ∧
      ¬ (dualEra plainHost).Along (Ledgered plainHost) conformanceServer [bareRead] := by
  have hinit : DualEraServer.init plainHost conformanceServer.current = .ok conformanceServer := by
    have hera : assertLegacyEra plainHost.repr LEGACY_ERA = .ok LEGACY_ERA := by rfl
    rw [DualEraServer.init, LegacyServerSession.init, hera]
    rfl
  have hrefused : ∃ e, (bareRead.classified plainHost) = .error (.adapter e) ∧
      e.code = INVALID_PARAMS := ⟨_, rfl, rfl⟩
  have hsame : (dualEra plainHost).next conformanceServer bareRead = conformanceServer := rfl
  refine ⟨hinit, hrefused, hsame, ?_⟩
  intro h
  obtain ⟨begun, refused, hrecords⟩ := h [] bareRead [] rfl
  obtain ⟨e, he, -⟩ := hrefused
  have hempty : [] = refused := hrecords.refusals
  exact hrecords.refusal.mpr ⟨_, he⟩ hempty.symm

end McpHeartbeat
