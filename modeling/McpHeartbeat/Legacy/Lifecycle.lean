import McpHeartbeat.Legacy.Session

/-!
# The lifecycle of a legacy session

* `Opened`, `Lived`: the invariant of a run, which ties the fields of a session to its history;
  `Lived.next`, `lived_run`;
* `final_run`: a session that is ready or failed stays so;
* **`lifecycle_safe`**: what every session that is reached satisfies, and what one more call does.
-/

namespace McpHeartbeat.Legacy

open Base

variable {repr : Json → Str} {s s₀ : LegacyServerSession} {past : List Mark} {call : Call}
  {handled : Handled}

/-! ## The invariant -/

/-- What a session keeps of the `initialize` it accepted. -/
structure Opened (repr : Json → Str) (s : LegacyServerSession) (call : Call) : Prop where
  method : call.method = INITIALIZE
  accepted : (negotiateProtocol repr call.requested).accepted = true
  protocol : s.protocol = some (negotiateProtocol repr call.requested)
  ledger : s.disagreements = []

/-- What a session keeps of the `initialize` it refused. -/
structure Closed (repr : Json → Str) (s : LegacyServerSession) (call : Call) : Prop where
  method : call.method = INITIALIZE
  refused : (negotiateProtocol repr call.requested).accepted = false
  protocol : s.protocol = some (negotiateProtocol repr call.requested)
  ledger : s.disagreements = [⟨call.requested, (negotiateProtocol repr call.requested).code.value,
    (negotiateProtocol repr call.requested).detail⟩]

/-- The history that goes with each state. -/
inductive Lived (repr : Json → Str) (s : LegacyServerSession) : List Mark → Prop
  | created (state : s.state = .created) (protocol : s.protocol = none)
      (ledger : s.disagreements = []) : Lived repr s []
  | initializing (call : Call) (state : s.state = .initializing) (opened : Opened repr s call) :
      Lived repr s [.accepted call]
  | ready (call confirm : Call) (served : List Str) (state : s.state = .ready)
      (opened : Opened repr s call) (method : confirm.method = INITIALIZED_NOTIFICATION) :
      Lived repr s (.accepted call :: .accepted confirm :: served.map .invoked)
  | failed (call : Call) (state : s.state = .failed) (closed : Closed repr s call) :
      Lived repr s [.refused call]

/-- One call keeps the invariant. -/
theorem Lived.next (h : Lived repr s past) (hway : Way repr s call handled) :
    Lived repr handled.session (past ++ (handled.mark s call).toList) := by
  cases hway with
  | opened heartbeat result method state accepted =>
    cases h with
    | created _ _ ledger => exact Lived.initializing call rfl ⟨method, accepted, rfl, ledger⟩
    | initializing _ state' | ready _ _ _ state' | failed _ state' => cases state.symm.trans state'
  | failed e method state refused =>
    cases h with
    | created _ _ ledger =>
      have hmark : ({ answer := .error (.protocol e), session := s.fail repr call.requested } :
          Handled).mark s call = some (.refused call) := by
        rw [Handled.mark, state]
        rfl
      rw [hmark]
      refine Lived.failed call rfl ⟨method, refused, rfl, ?_⟩
      show s.disagreements ++ [_] = [_]
      rw [ledger]
      rfl
    | initializing _ state' | ready _ _ _ state' | failed _ state' => cases state.symm.trans state'
  | confirmed method state =>
    cases h with
    | initializing opening _ opened =>
      exact Lived.ready opening call [] rfl
        ⟨opened.method, opened.accepted, opened.protocol, opened.ledger⟩ method
    | created state' | ready _ _ _ state' | failed _ state' => cases state.symm.trans state'
  | served state _ =>
    cases h with
    | ready opening confirm served _ opened method =>
      have hserved := Lived.ready opening confirm (served ++ [call.method]) state opened method
      rwa [List.map_append] at hserved
    | created state' | initializing _ state' | failed _ state' => cases state.symm.trans state'
  | refused e _ =>
    have hmark : ({ answer := .error (.protocol e), session := s } : Handled).mark s call = none :=
      if_pos rfl
    rw [hmark, Option.toList_none, List.append_nil]
    exact h

/-- What `__init__` builds. -/
theorem server_init {serverName era : Str} {methods : Mapping Str Bool} {implemented : Finset Str}
    (h : LegacyServerSession.init repr serverName methods implemented era = .ok s₀) :
    s₀.implemented = implemented ∪ methods.keys.toFinset ∧ s₀.state = .created ∧
      s₀.protocol = none ∧ s₀.disagreements = [] := by
  unfold LegacyServerSession.init at h
  cases hera : assertLegacyEra repr era with
  | error e => rw [hera] at h; cases h
  | ok era' =>
    rw [hera] at h
    obtain rfl := Except.ok.inj h
    exact ⟨rfl, rfl, rfl, rfl⟩

/-- A session that was just built. -/
theorem lived_init {serverName era : Str} {methods : Mapping Str Bool} {implemented : Finset Str}
    (h : LegacyServerSession.init repr serverName methods implemented era = .ok s₀) :
    Lived repr s₀ [] :=
  have ⟨_, hstate, hprotocol, hledger⟩ := server_init h
  Lived.created hstate hprotocol hledger

/-- **The history of every session that is reached goes with its state.** -/
theorem lived_run (h : Lived repr s₀ []) (calls : List Call) :
    Lived repr ((server repr).run s₀ calls) ((server repr).journal s₀ calls) := by
  apply (server repr).invariant_run _ h
  intro s past call hlived
  exact hlived.next (handle_cases repr s call)

/-! ## What follows -/

/-- The moves of a state. -/
def moves : List (SessionState × SessionState) :=
  [(.created, .initializing), (.initializing, .ready), (.created, .failed)]

theorem Way.moves (h : Way repr s call handled) :
    handled.session.state = s.state ∨ (s.state, handled.session.state) ∈ moves := by
  cases h with
  | opened _ _ _ state =>
    right
    rw [state]
    show (SessionState.created, SessionState.initializing) ∈ Legacy.moves
    decide
  | failed _ _ state =>
    right
    rw [state]
    show (SessionState.created, SessionState.failed) ∈ Legacy.moves
    decide
  | confirmed _ state =>
    right
    rw [state]
    show (SessionState.initializing, SessionState.ready) ∈ Legacy.moves
    decide
  | served _ _ => exact Or.inl rfl
  | refused _ _ => exact Or.inl rfl

/-- **Ready and failed are never left.** -/
theorem final_run (h : s.state = .ready ∨ s.state = .failed) (calls : List Call) :
    ((server repr).run s calls).state = s.state := by
  have hstep : ∀ s' call, s'.state = s.state → ((server repr).next s' call).state = s.state := by
    intro s' call hs
    rcases (handle_cases repr s' call).moves with hsame | hmove
    · exact hsame.trans hs
    · rw [hs] at hmove
      rcases h with h | h <;> rw [h] at hmove <;> simp [moves] at hmove
  exact (server repr).invariant_state hstep rfl calls

theorem Way.atomic {e : SessionError} (h : Way repr s call handled)
    (he : handled.answer = .error e) : handled.session = s ∨
      (s.state = .created ∧ call.method = INITIALIZE ∧
        handled.session = s.fail repr call.requested) := by
  cases h with
  | opened _ _ _ _ _ => cases he
  | failed _ method state _ => exact Or.inr ⟨state, method, rfl⟩
  | confirmed _ _ => cases he
  | served _ _ => exact Or.inl rfl
  | refused _ _ => exact Or.inl rfl

/-- A handler is invoked on a session that is ready. -/
theorem Way.ready_of_invoked {method : Str} (h : Way repr s call handled)
    (hinvoked : handled.invoked = some method) : s.state = .ready := by
  cases h with
  | served state _ => exact state
  | opened _ _ _ _ _ | failed _ _ _ _ | confirmed _ _ | refused _ _ => cases hinvoked

theorem Opened.eraReport (h : Opened repr s call) : ∃ version ∈ SUPPORTED_PROTOCOL_VERSIONS,
    call.requested = .str version ∧ s.eraReport.mcpProtocolEra = some version := by
  rcases (negotiateProtocol_spec repr call.requested).2 with ⟨hno, -⟩ | ⟨v, hv, hreq, -, hneg⟩
  · cases hno.symm.trans h.accepted
  · refine ⟨v, hv, hreq, ?_⟩
    unfold LegacyServerSession.eraReport
    rw [h.protocol]
    dsimp only
    rw [h.accepted]
    exact hneg

theorem Closed.eraReport (h : Closed repr s call) : s.eraReport = UNNEGOTIATED := by
  unfold LegacyServerSession.eraReport
  rw [h.protocol]
  dsimp only
  rw [h.refused]
  rfl

/-- What a session satisfies, and what one more call does. -/
structure Safe (repr : Json → Str) (s : LegacyServerSession) (past : List Mark) (call : Call)
    (handled : Handled) : Prop where
  /-- The state moves along the lifecycle only. -/
  moves : handled.session.state = s.state ∨ (s.state, handled.session.state) ∈ moves
  /-- A handler is invoked only after one `initialize`, and one `notifications/initialized`. -/
  handler : ∀ method, handled.invoked = some method → ∃ opening confirm served,
    past = .accepted opening :: .accepted confirm :: List.map .invoked served ∧
      opening.method = INITIALIZE ∧ confirm.method = INITIALIZED_NOTIFICATION
  /-- A revision that is reported is supported, and was requested. -/
  era : ∀ version, s.eraReport.mcpProtocolEra = some version →
    version ∈ SUPPORTED_PROTOCOL_VERSIONS ∧ ∃ opening, .accepted opening ∈ past ∧
      opening.method = INITIALIZE ∧ opening.requested = .str version
  /-- After a refused `initialize` nothing is reported. -/
  unnegotiated : ∀ refused, .refused refused ∈ past → s.eraReport = UNNEGOTIATED
  /-- The ledger has one entry exactly when the session failed: the refused request. -/
  ledger : (s.state ≠ .failed ∧ s.disagreements = []) ∨ (s.state = .failed ∧ ∃ refused,
    past = [.refused refused] ∧ refused.method = INITIALIZE ∧ s.disagreements =
      [⟨refused.requested, (negotiateProtocol repr refused.requested).code.value,
        (negotiateProtocol repr refused.requested).detail⟩])
  /-- What raises changes nothing, but for a session that fails. -/
  atomic : ∀ e, handled.answer = .error e → handled.session = s ∨
    (s.state = .created ∧ call.method = INITIALIZE ∧ handled.session = s.fail repr call.requested)

theorem Lived.era {version : Str} (h : Lived repr s past)
    (hversion : s.eraReport.mcpProtocolEra = some version) :
    version ∈ SUPPORTED_PROTOCOL_VERSIONS ∧ ∃ opening, .accepted opening ∈ past ∧
      opening.method = INITIALIZE ∧ opening.requested = .str version := by
  cases h with
  | created _ protocol _ => rw [LegacyServerSession.eraReport, protocol] at hversion; cases hversion
  | initializing call _ opened | ready call _ _ _ opened _ =>
    obtain ⟨v, hv, hreq, hera⟩ := opened.eraReport
    obtain rfl := Option.some.inj (hera.symm.trans hversion)
    exact ⟨hv, call, List.mem_cons_self, opened.method, hreq⟩
  | failed _ _ closed => rw [closed.eraReport] at hversion; cases hversion

theorem Lived.safe (h : Lived repr s past) (hway : Way repr s call handled) :
    Safe repr s past call handled where
  moves := hway.moves
  handler := by
    intro method hinvoked
    have hready := hway.ready_of_invoked hinvoked
    cases h with
    | ready opening confirm served _ opened hconfirm =>
      exact ⟨opening, confirm, served, rfl, opened.method, hconfirm⟩
    | created state | initializing _ state | failed _ state => cases hready.symm.trans state
  era := fun _ hversion => h.era hversion
  unnegotiated := by
    intro refused hmem
    cases h with
    | failed _ _ closed => exact closed.eraReport
    | created _ _ _ | initializing _ _ _ | ready _ _ _ _ _ _ => simp at hmem
  ledger := by
    cases h with
    | created state _ ledger => exact Or.inl ⟨by rw [state]; decide, ledger⟩
    | initializing _ state opened => exact Or.inl ⟨by rw [state]; decide, opened.ledger⟩
    | ready _ _ _ state opened _ => exact Or.inl ⟨by rw [state]; decide, opened.ledger⟩
    | failed call state closed =>
      exact Or.inr ⟨state, call, rfl, closed.method, closed.ledger⟩
  atomic := fun _ he => hway.atomic he

/-- **Lifecycle safety.** Of every session, over every run of calls, with any registry. -/
theorem lifecycle_safe {serverName era : Str} {methods : Mapping Str Bool}
    {implemented : Finset Str}
    (hinit : LegacyServerSession.init repr serverName methods implemented era = .ok s₀)
    (calls : List Call) (call : Call) :
    let s := (server repr).run s₀ calls
    Safe repr s ((server repr).journal s₀ calls) call (s.answer repr call) ∧
      ∀ more, s.state = .ready ∨ s.state = .failed → ((server repr).run s more).state = s.state := by
  intro s
  refine ⟨(lived_run (lived_init hinit) calls).safe (handle_cases repr s call), ?_⟩
  intro more hfinal
  exact final_run hfinal more

/-- A session that serves the authoritative read. -/
def readSession : LegacyServerSession where
  serverName := py "server"
  era := LEGACY_ERA
  methods := AList.singleton AUTHORITATIVE_READ_METHOD true
  implemented := {AUTHORITATIVE_READ_METHOD}

theorem init_readSession (repr : Json → Str) :
    LegacyServerSession.init repr (py "server") readSession.methods ∅ LEGACY_ERA =
      .ok readSession := by
  have hera : assertLegacyEra repr LEGACY_ERA = .ok LEGACY_ERA := by rfl
  rw [LegacyServerSession.init, hera]
  rfl

theorem lifecycle_safe_read :
    let handler : Members → Except Str Json := fun _ => .ok .null
    let calls : List Call := [
      ⟨INITIALIZE, some [(py "protocolVersion", .str LEGACY_ERA)], handler⟩,
      ⟨INITIALIZED_NOTIFICATION, none, handler⟩]
    let call : Call := ⟨AUTHORITATIVE_READ_METHOD, none, handler⟩
    let s := (server fun _ => []).run readSession calls
    Safe (fun _ => []) s ((server fun _ => []).journal readSession calls) call
        (s.answer (fun _ => []) call) ∧
      ∀ more, s.state = .ready ∨ s.state = .failed →
        ((server fun _ => []).run s more).state = s.state :=
  lifecycle_safe (init_readSession _) _ _

end McpHeartbeat.Legacy
