import McpHeartbeat.Base.Link
import McpHeartbeat.Legacy.Handshake
import McpHeartbeat.Legacy.Lifecycle

/-!
# A client and a server, over a channel that cannot be trusted to deliver

* `answerer`, `connection`: the two sessions, and the messages between them;
* `negotiate_advertised`, `offer_requested`: the two sides decide on different documents;
  `report_eq`: they decide the same;
* `Agreeing`: the invariant of the joint states;
* **`bilateral_agreement`**: what both sessions report, in any order of calls and messages.
-/

namespace McpHeartbeat.Legacy

open Base

variable (repr : Json → Str)

/-- What a call puts on the wire: the result of a request. -/
def Handled.result (handled : Handled) : Option Members :=
  match handled.answer with
  | .ok (.obj result) => some result
  | _ => none

/-- A server that answers what is delivered to it; the journal is its results. -/
def answerer : Machine LegacyServerSession Call Members where
  next s call := (s.answer repr call).session
  entry s call := (s.answer repr call).result

/-- The result that a call of the client consumes. -/
def ClientCall.consumed : ClientCall → Option Members
  | .consumeInitializeResult result => some result
  | _ => none

/-- A client and a server. Only results of the server are consumed, and only messages of the client
are handled. -/
def connection : Link LegacyClientSession LegacyServerSession ClientCall Call Message Members where
  left := client repr
  right := answerer repr
  toLeft := ClientCall.consumed
  toRight call := some (call.method, call.params.getD [])

variable {repr} {c : LegacyClientSession} {s : LegacyServerSession} {call : Call}

/-! ## Two documents, one decision -/

/-- What a negotiation that accepts the extension looks like. -/
def heartbeatAccepted : HeartbeatNegotiation where
  outcome := .accepted
  code := .capabilityAccepted
  extensionVersion := some EXTENSION_VERSION
  detail := py "heartbeat extension negotiated on a legacy session"

/-- The heartbeat capability, beside whatever else is advertised. -/
theorem negotiate_claim {capabilities : Members}
    (hclaim : capabilities.get HEARTBEAT_NAMESPACE = .obj [(HEARTBEAT_CAPABILITY,
      .obj [(py "extension_version", .str EXTENSION_VERSION)])])
    (hmodern : capabilities.get (py "extensions") = .null) :
    negotiateHeartbeat repr (.obj capabilities) = heartbeatAccepted := by
  unfold negotiateHeartbeat
  rw [if_neg (by exact nofun)]
  dsimp only
  rw [hclaim, hmodern]
  rfl

/-- No heartbeat capability. -/
theorem negotiate_absent {capabilities : Members}
    (hclaim : capabilities.get HEARTBEAT_NAMESPACE = .null)
    (hmodern : capabilities.get (py "extensions") = .null) :
    (negotiateHeartbeat repr (.obj capabilities)).supported = false ∧
      (negotiateHeartbeat repr (.obj capabilities)).extensionVersion = none := by
  unfold negotiateHeartbeat
  rw [if_neg (by exact nofun)]
  dsimp only
  rw [hclaim, hmodern]
  exact ⟨rfl, rfl⟩

/-- What a client offers. -/
theorem negotiate_offered (repr : Json → Str) (c : LegacyClientSession) :
    (c.requestHeartbeat = true ∧ negotiateHeartbeat repr c.capabilities = heartbeatAccepted) ∨
      (c.requestHeartbeat = false ∧ (negotiateHeartbeat repr c.capabilities).supported = false ∧
        (negotiateHeartbeat repr c.capabilities).extensionVersion = none) := by
  unfold LegacyClientSession.capabilities
  cases c.requestHeartbeat with
  | true => exact Or.inl ⟨rfl, negotiate_claim rfl rfl⟩
  | false => exact Or.inr ⟨rfl, negotiate_absent rfl rfl⟩

/-- What a server advertises. -/
theorem negotiate_advertised (repr : Json → Str) (implemented : Finset Str) :
    (AUTHORITATIVE_READ_METHOD ∈ implemented ∧
        negotiateHeartbeat repr (advertise implemented) = heartbeatAccepted) ∨
      (AUTHORITATIVE_READ_METHOD ∉ implemented ∧
        (negotiateHeartbeat repr (advertise implemented)).supported = false ∧
        (negotiateHeartbeat repr (advertise implemented)).extensionVersion = none) := by
  unfold advertise
  by_cases hread : AUTHORITATIVE_READ_METHOD ∈ implemented
  · rw [if_pos hread]
    exact Or.inl ⟨hread, negotiate_claim rfl rfl⟩
  · rw [if_neg hread]
    exact Or.inr ⟨hread, negotiate_absent rfl rfl⟩

/-- What the extension exchange leaves in a report. -/
def HeartbeatNegotiation.terms (n : HeartbeatNegotiation) : Option Str × Bool :=
  (n.extensionVersion, n.supported)

/-- The terms that both sides ought to reach. -/
def agreedTerms (asked served : Prop) [Decidable asked] [Decidable served] : Option Str × Bool :=
  if asked ∧ served then (some EXTENSION_VERSION, true) else (none, false)

/-- **The server decides on what was requested.** -/
theorem offer_terms (c : LegacyClientSession) (s : LegacyServerSession) :
    (s.offerHeartbeat repr c.capabilities).terms =
      agreedTerms (c.requestHeartbeat = true) (AUTHORITATIVE_READ_METHOD ∈ s.implemented) := by
  unfold LegacyServerSession.offerHeartbeat agreedTerms HeartbeatNegotiation.terms
  dsimp only
  rcases negotiate_offered repr c with ⟨hasked, h⟩ | ⟨hasked, hno, hnone⟩
  · rw [h]
    by_cases hread : AUTHORITATIVE_READ_METHOD ∈ s.implemented
    · rw [if_neg fun hrefused => hrefused.2 hread, if_pos ⟨hasked, hread⟩]
      rfl
    · rw [if_pos ⟨rfl, hread⟩, if_neg fun hboth => hread hboth.2]
      rfl
  · rw [if_neg (by rw [hno]; exact fun hboth => Bool.false_ne_true hboth.1), hno, hnone,
      if_neg (by rw [hasked]; exact fun hboth => Bool.false_ne_true hboth.1)]

/-- **The client decides on what was advertised.** -/
theorem settle_terms (c : LegacyClientSession) (s : LegacyServerSession) {result : Members}
    (h : result.get (py "capabilities") = advertise s.implemented) :
    (c.settleHeartbeat repr result).terms =
      agreedTerms (c.requestHeartbeat = true) (AUTHORITATIVE_READ_METHOD ∈ s.implemented) := by
  unfold LegacyClientSession.settleHeartbeat agreedTerms HeartbeatNegotiation.terms
  cases c.requestHeartbeat with
  | false => rfl
  | true =>
    rw [if_pos rfl, h]
    rcases negotiate_advertised repr s.implemented with ⟨hread, h'⟩ | ⟨hread, hno, hnone⟩
    · rw [h', if_pos ⟨rfl, hread⟩]
      rfl
    · rw [hno, hnone, if_neg fun hboth => hread hboth.2]

/-! ## The invariant -/

/-- A server that answered the request of `c`. -/
structure Granted (repr : Json → Str) (c : LegacyClientSession) (s : LegacyServerSession) : Prop where
  state : s.state ≠ .created
  protocol : s.protocol = some (negotiateProtocol repr (.str c.requestedProtocolVersion))
  heartbeat : ∃ n, s.heartbeat = some n ∧ n.terms =
    agreedTerms (c.requestHeartbeat = true) (AUTHORITATIVE_READ_METHOD ∈ s.implemented)

/-- A client that consumed an answer, where the server serves `served`. -/
structure Informed (served : Finset Str) (c : LegacyClientSession) : Prop where
  era : c.negotiatedEra = some c.requestedProtocolVersion
  heartbeat : ∃ n, c.heartbeat = some n ∧ n.terms =
    agreedTerms (c.requestHeartbeat = true) (AUTHORITATIVE_READ_METHOD ∈ served)

/-- A result that answers the request of `c`, from a server that serves `served`. -/
structure Answers (c : LegacyClientSession) (served : Finset Str) (result : Members) : Prop where
  version : c.Matches result
  capabilities : result.get (py "capabilities") = advertise served

/-- Everything that was sent speaks of one negotiation, and so do the two sessions. -/
structure Agreeing (repr : Json → Str) (c : LegacyClientSession) (served : Finset Str)
    (j : Joint LegacyClientSession LegacyServerSession Message Members) : Prop where
  version : j.left.requestedProtocolVersion = c.requestedProtocolVersion
  asked : j.left.requestHeartbeat = c.requestHeartbeat
  request : j.left.request = c.request
  implemented : j.right.implemented = served
  requests : ∀ m ∈ j.requests, m = c.request ∨ m = (INITIALIZED_NOTIFICATION, [])
  replies : ∀ result ∈ j.replies, Granted repr c j.right ∧ Answers c served result
  opened : j.right.state = .created ∨ Granted repr c j.right
  informed : j.left.negotiatedEra = none ∨ (Granted repr c j.right ∧ Informed served j.left)

/-- What the server does with the request. -/
theorem answer_request (hc : c.Owned) (hs : s.state = .created)
    (hcall : (call.method, call.params.getD []) = c.request) :
    Granted repr c (s.answer repr call).session ∧
      (s.answer repr call).session.implemented = s.implemented ∧
      ∃ result, (s.answer repr call).result = some result ∧ Answers c s.implemented result := by
  obtain ⟨hmethod, hparams⟩ := Prod.mk.inj hcall
  have hspec : (negotiateProtocol repr (.str c.requestedProtocolVersion)).accepted = true ∧
      (negotiateProtocol repr (.str c.requestedProtocolVersion)).negotiated =
        some c.requestedProtocolVersion := by
    rcases (negotiateProtocol_spec repr (.str c.requestedProtocolVersion)).2 with
      ⟨hno, -⟩ | ⟨v, -, hv, hacc, hneg⟩
    · cases hno.symm.trans (negotiateProtocol_accepted_iff.mpr ⟨_, hc, rfl⟩)
    · cases hv
      exact ⟨hacc, hneg⟩
  obtain ⟨hacc, hneg⟩ := hspec
  have hdis : (negotiateProtocol repr (.str c.requestedProtocolVersion)).disagreement = false := by
    rw [ProtocolNegotiation.disagreement, hacc]
    rfl
  have hversion : Members.get (call.params.getD []) (py "protocolVersion") =
      .str c.requestedProtocolVersion := by
    rw [hparams]
    rfl
  have hcap : Members.get (call.params.getD []) (py "capabilities") = c.capabilities := by
    rw [hparams]
    rfl
  unfold LegacyServerSession.answer LegacyServerSession.handle
  dsimp only
  rw [if_pos hmethod]
  unfold LegacyServerSession.handleInitialize
  dsimp only
  rw [if_neg (not_not.mpr hs), hversion, hcap, hdis, hacc, hneg]
  refine ⟨⟨SessionState.noConfusion, rfl, _, rfl, offer_terms c s⟩, rfl, _, rfl, rfl, rfl⟩

/-- What the server does with a request that comes again. -/
theorem answer_again (repr : Json → Str) (hs : s.state ≠ .created)
    (hmethod : call.method = INITIALIZE) :
    (s.answer repr call).session = s ∧ (s.answer repr call).result = none := by
  unfold LegacyServerSession.answer LegacyServerSession.handle
  dsimp only
  rw [if_pos hmethod, LegacyServerSession.handleInitialize, if_pos hs]
  exact ⟨rfl, rfl⟩

/-- What the server does with the notification. -/
theorem answer_notification (repr : Json → Str)
    (hmethod : call.method = INITIALIZED_NOTIFICATION) :
    (s.answer repr call).result = none ∧ ((s.answer repr call).session = s ∨
      s.state = .initializing ∧ (s.answer repr call).session = { s with state := .ready }) := by
  unfold LegacyServerSession.answer LegacyServerSession.handle
  dsimp only
  rw [if_neg (by rw [hmethod]; exact INITIALIZED_NOTIFICATION_ne), if_pos hmethod,
    LegacyServerSession.handleInitialized]
  by_cases hs : s.state = .initializing
  · rw [if_neg (not_not.mpr hs)]
    exact ⟨rfl, Or.inr ⟨hs, rfl⟩⟩
  · rw [if_pos hs]
    exact ⟨rfl, Or.inl rfl⟩

variable {served : Finset Str}
  {j : Joint LegacyClientSession LegacyServerSession Message Members}

/-- What was granted stays granted. -/
theorem Granted.of_session {s' : LegacyServerSession} (h : Granted repr c s)
    (hstate : s'.state ≠ .created) (hprotocol : s'.protocol = s.protocol)
    (hheartbeat : s'.heartbeat = s.heartbeat) (himpl : s'.implemented = s.implemented) :
    Granted repr c s' where
  state := hstate
  protocol := hprotocol.trans h.protocol
  heartbeat := by
    rw [hheartbeat, himpl]
    exact h.heartbeat

/-- A step of the server that keeps what was granted, and sends nothing. -/
theorem Agreeing.of_silent (h : Agreeing repr c served j) (s' : LegacyServerSession)
    (himpl : s'.implemented = j.right.implemented)
    (hopened : j.right.state = .created → s'.state = .created)
    (hgranted : Granted repr c j.right → Granted repr c s') :
    Agreeing repr c served { j with right := s', replies := j.replies ++ [] } where
  version := h.version
  asked := h.asked
  request := h.request
  implemented := himpl.trans h.implemented
  requests := h.requests
  replies := by
    intro result hmem
    rw [List.append_nil] at hmem
    exact ⟨hgranted (h.replies result hmem).1, (h.replies result hmem).2⟩
  opened := h.opened.imp hopened hgranted
  informed := h.informed.imp_right fun hinf => ⟨hgranted hinf.1, hinf.2⟩

/-- **A message that reaches the server keeps the agreement.** -/
theorem Agreeing.right (hc : c.Owned) (h : Agreeing repr c served j)
    (hsent : (call.method, call.params.getD []) ∈ j.requests) :
    Agreeing repr c served ((connection repr).moveRight j call) := by
  show Agreeing repr c served
    { j with right := (j.right.answer repr call).session,
             replies := j.replies ++ (j.right.answer repr call).result.toList }
  rcases h.requests _ hsent with hrequest | hnotification
  · have hmethod : call.method = INITIALIZE := congrArg Prod.fst hrequest
    by_cases hs : j.right.state = .created
    · obtain ⟨hgranted, himpl, result, hresult, hanswers⟩ := answer_request hc hs hrequest
      rw [h.implemented] at hanswers himpl
      rw [hresult]
      have hnew : ∀ r ∈ j.replies ++ [result],
          Granted repr c (j.right.answer repr call).session ∧ Answers c served r := by
        intro r hr
        rcases List.mem_append.mp hr with hold | hlast
        · exact absurd hs (h.replies r hold).1.state
        · rw [List.mem_singleton.mp hlast]
          exact ⟨hgranted, hanswers⟩
      exact { version := h.version, asked := h.asked, request := h.request, implemented := himpl,
              requests := h.requests, replies := hnew, opened := Or.inr hgranted,
              informed := h.informed.imp_right fun hinf => ⟨hgranted, hinf.2⟩ }
    · obtain ⟨hsession, hresult⟩ := answer_again repr hs hmethod
      rw [hsession, hresult]
      exact h.of_silent _ rfl id id
  · obtain ⟨hresult, hway⟩ := answer_notification repr (s := j.right)
      (congrArg Prod.fst hnotification)
    rw [hresult]
    rcases hway with hsession | ⟨hs, hsession⟩
    · rw [hsession]
      exact h.of_silent _ rfl id id
    · rw [hsession]
      refine h.of_silent { j.right with state := .ready } rfl ?_ ?_
      · intro hcreated
        cases hs.symm.trans hcreated
      · intro hgranted
        exact hgranted.of_session SessionState.noConfusion rfl rfl rfl

/-- The client sends its request, or the notification. -/
theorem Agreeing.sends (h : Agreeing repr c served j) {i : ClientCall} {m : Message}
    (hentry : (client repr).entry j.left i = some m) :
    m = c.request ∨ m = (INITIALIZED_NOTIFICATION, []) := by
  cases i with
  | initializeRequest =>
    rw [entry_request] at hentry
    split_ifs at hentry
    exact Or.inl ((Option.some.inj hentry).symm.trans h.request)
  | consumeInitializeResult _ => cases hentry
  | initializedNotification => exact Or.inr (entry_confirm hentry)

/-- What the client knows of a connection, it learned from an answer of the server. -/
theorem Agreeing.learns (hc : c.Owned) (h : Agreeing repr c served j) {i : ClientCall}
    (hsent : ∀ result, i.consumed = some result → result ∈ j.replies) :
    ((client repr).next j.left i).negotiatedEra = none ∨
      (Granted repr c j.right ∧ Informed served ((client repr).next j.left i)) := by
  cases i with
  | initializeRequest => exact h.informed
  | consumeInitializeResult result =>
    obtain ⟨hgranted, hanswers⟩ := h.replies result (hsent result rfl)
    have howned : j.left.Owned := by
      rw [LegacyClientSession.Owned, h.version]
      exact hc
    have hmatch : j.left.Matches result := by
      rw [LegacyClientSession.Matches, h.version]
      exact hanswers.version
    have hcap : result.get (py "capabilities") = advertise j.right.implemented := by
      rw [h.implemented]
      exact hanswers.capabilities
    rw [next_match howned hmatch]
    refine Or.inr ⟨hgranted, rfl, _, rfl, ?_⟩
    rw [settle_terms j.left j.right hcap, h.implemented]
    rfl
  | initializedNotification =>
    by_cases hstate : j.left.state = .initializing
    · rw [next_confirm hstate]
      exact h.informed.imp_right fun hinf => ⟨hinf.1, hinf.2.era, hinf.2.heartbeat⟩
    · rw [next_confirm_early hstate]
      exact h.informed

/-- **A call of the client keeps the agreement.** -/
theorem Agreeing.left (hc : c.Owned) (h : Agreeing repr c served j) (i : ClientCall)
    (hsent : ∀ result, i.consumed = some result → result ∈ j.replies) :
    Agreeing repr c served ((connection repr).moveLeft j i) := by
  obtain ⟨hversion, hasked, hrequest⟩ := next_settings repr (s := j.left) i
  have hrequests : ∀ m ∈ j.requests ++ ((client repr).entry j.left i).toList,
      m = c.request ∨ m = (INITIALIZED_NOTIFICATION, []) := by
    intro m hm
    rcases List.mem_append.mp hm with hold | hnew
    · exact h.requests m hold
    · exact h.sends (Option.mem_toList.mp hnew)
  exact { version := hversion.trans h.version, asked := hasked.trans h.asked,
          request := hrequest.trans h.request, implemented := h.implemented,
          requests := hrequests, replies := h.replies, opened := h.opened,
          informed := h.learns hc hsent }

/-- **Every joint state that is reached.** -/
theorem agreeing_reachable (hc : c.Owned) (hfresh : c.negotiatedEra = none)
    (hs : s.state = .created) (h : (connection repr).Reachable c s j) :
    Agreeing repr c s.implemented j := by
  apply Link.invariant _ _ _ h
  · exact { version := rfl, asked := rfl, request := rfl, implemented := rfl,
            requests := fun _ hm => absurd hm List.not_mem_nil,
            replies := fun _ hm => absurd hm List.not_mem_nil,
            opened := Or.inl hs, informed := Or.inl hfresh }
  · intro j i hj hsent
    exact hj.left hc i hsent
  · intro j call hj hsent
    exact hj.right hc (hsent _ rfl)

/-! ## What both report -/

/-- A report of a revision, and of the terms of the extension. -/
def reportOf (version : Str) (terms : Option Str × Bool) : EraReport where
  mcpProtocolEra := some version
  extensionVersion := terms.1
  heartbeatSupported := terms.2

theorem Granted.eraReport (hc : c.Owned) (h : Granted repr c s) :
    s.eraReport = reportOf c.requestedProtocolVersion
      (agreedTerms (c.requestHeartbeat = true) (AUTHORITATIVE_READ_METHOD ∈ s.implemented)) := by
  obtain ⟨n, hn, hterms⟩ := h.heartbeat
  rw [← hterms]
  unfold LegacyServerSession.eraReport
  rw [h.protocol, hn]
  rcases (negotiateProtocol_spec repr (.str c.requestedProtocolVersion)).2 with
    ⟨hno, -⟩ | ⟨v, -, hv, hacc, hneg⟩
  · cases hno.symm.trans (negotiateProtocol_accepted_iff.mpr ⟨_, hc, rfl⟩)
  · cases hv
    dsimp only
    rw [hacc, hneg]
    rfl

theorem Informed.eraReport (h : Informed served c) : c.eraReport =
    reportOf c.requestedProtocolVersion
      (agreedTerms (c.requestHeartbeat = true) (AUTHORITATIVE_READ_METHOD ∈ served)) := by
  obtain ⟨n, hn, hterms⟩ := h.heartbeat
  rw [← hterms]
  unfold LegacyClientSession.eraReport
  rw [h.era, hn]
  rfl

theorem agreedTerms_supported {asked served : Prop} [Decidable asked] [Decidable served] :
    (agreedTerms asked served).2 = true ↔ asked ∧ served := by
  unfold agreedTerms
  by_cases h : asked ∧ served
  · rw [if_pos h]
    exact iff_of_true rfl h
  · rw [if_neg h]
    exact iff_of_false Bool.false_ne_true h

/-- **Bilateral agreement.** Whatever was lost, duplicated, delayed and reordered, and in whatever
order the client made its calls. -/
theorem bilateral_agreement {clientName version serverName era : Str} {requestHeartbeat : Bool}
    {methods : Mapping Str Bool} {implemented : Finset Str}
    (hclient : LegacyClientSession.init repr clientName version requestHeartbeat = .ok c)
    (hserver : LegacyServerSession.init repr serverName methods implemented era = .ok s)
    (h : (connection repr).Reachable c s j) (hreport : j.left.eraReport ≠ UNNEGOTIATED) :
    j.left.eraReport = j.right.eraReport ∧
      (j.left.eraReport.heartbeatSupported = true ↔
        requestHeartbeat = true ∧
          (AUTHORITATIVE_READ_METHOD ∈ implemented ∨ AUTHORITATIVE_READ_METHOD ∈ methods)) := by
  obtain ⟨howned, rfl⟩ := client_init hclient
  obtain ⟨himpl, hcreated, -, -⟩ := server_init hserver
  have hagree := agreeing_reachable howned rfl hcreated h
  have hregistry : AUTHORITATIVE_READ_METHOD ∈ s.implemented ↔
      AUTHORITATIVE_READ_METHOD ∈ implemented ∨ AUTHORITATIVE_READ_METHOD ∈ methods := by
    rw [himpl, Finset.mem_union, List.mem_toFinset]
    rfl
  rcases hagree.informed with hnone | ⟨hgranted, hinformed⟩
  · exact absurd (by rw [LegacyClientSession.eraReport, hnone]) hreport
  · have hleft := hinformed.eraReport
    have hright := hgranted.eraReport howned
    rw [hagree.version, hagree.asked] at hleft
    rw [hagree.implemented] at hright
    rw [hleft, hright, ← hregistry]
    exact ⟨rfl, agreedTerms_supported⟩

theorem bilateral_agreement_read :
    let L := connection fun _ => []
    let handler : Members → Except Str Json := fun _ => .ok .null
    let j₁ := L.moveLeft { left := askingClient, right := readSession } .initializeRequest
    let j₂ := L.moveRight j₁ ⟨INITIALIZE, some askingClient.request.2, handler⟩
    let j₃ := L.moveLeft j₂ (.consumeInitializeResult (j₂.replies.headD []))
    j₃.left.eraReport = j₃.right.eraReport ∧
      (j₃.left.eraReport.heartbeatSupported = true ↔ true = true ∧
        (AUTHORITATIVE_READ_METHOD ∈ (∅ : Finset Str) ∨
          AUTHORITATIVE_READ_METHOD ∈ readSession.methods)) := by
  intro L handler j₁ j₂ j₃
  have hclient : LegacyClientSession.init (fun _ => []) (py "client") LEGACY_ERA true =
      .ok askingClient := rfl
  have h₁ : L.Reachable askingClient readSession j₁ :=
    Relation.ReflTransGen.single (.left _ (by rintro m ⟨⟩))
  have h₂ : L.Reachable askingClient readSession j₂ := by
    refine h₁.tail (.right _ ?_)
    rintro m ⟨⟩
    exact List.mem_singleton.mpr rfl
  have h₃ : L.Reachable askingClient readSession j₃ := by
    refine h₂.tail (.left _ ?_)
    rintro result ⟨⟩
    exact List.mem_singleton.mpr rfl
  exact bilateral_agreement hclient (init_readSession _) h₃ (by decide)

end McpHeartbeat.Legacy
