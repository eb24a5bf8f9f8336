import McpHeartbeat.Current.Era
import McpHeartbeat.Legacy.Lifecycle

/-!
# Messages plausible to both eras

One JSON-RPC message, offered to the routing of eras, to the current ladder and to a legacy session.

* `Message`: a message with a method and an object of parameters;
* `KeptApart`: no two of the three accept it; `ModernMarks`: the marks of the current era;
* **`kept_apart_exactly_when`**: when that holds, in every session that is reached;
  `taken_by_both`: it does not always.
-/

namespace McpHeartbeat

open Base Legacy

/-- A JSON-RPC message with a string method and an object of parameters. -/
structure Message where
  body : Members
  method : Str
  params : Members
  hasMethod : body.get (py "method") = .str method
  hasParams : body.get (py "params") = .obj params

namespace Message

variable (m : Message)

/-- The call of the message, on a session whose handler answers as given. -/
def call (handler : Members → Except Str Json) : Call where
  method := m.method
  params := some m.params
  handler := handler

/-- The message carries marks of the current era: a modern envelope, or a handshake that proposes a
modern revision. -/
def ModernMarks : Prop := hasModernEnvelope m.body = true ∨ ProposesModern m.body

end Message

/-- The call is that of a message with such marks. -/
def Legacy.Call.Marked (call : Call) : Prop :=
  ∃ (m : McpHeartbeat.Message) (handler : Members → Except Str Json),
    call = m.call handler ∧ m.ModernMarks

/-- Routing refuses a message that mixes the eras, or serves it on the current path. -/
inductive TurnsModern : Except AdapterError EraRoute → Prop
  | refused (why : Confusion) (both : why.both = true) :
      TurnsModern (.error (.crossEraConfusion why))
  | served (route : EraRoute) (era : route.era = .current) : TurnsModern (.ok route)

variable (repr : Json → Str) (lower : Str → Str)

/-- A message is acceptable to one era only. -/
structure KeptApart (s : LegacyServerSession) (m : Message) (handler : Members → Except Str Json) :
    Prop where
  /-- What is routed as a handshake is no request of the current era. -/
  handshake : ∀ headers route, Era.route repr lower m.body headers = .ok route →
    route.era = .handshake → ∀ headers',
      ∃ e, classifyRequest repr lower m.body headers' MODERN_PROTOCOL_VERSIONS = .error e
  /-- What carries a modern envelope is refused by the session. -/
  envelope : hasModernEnvelope m.body = true →
    ∃ e, (s.answer repr (m.call handler)).answer = .error e
  /-- So is what routing refuses as a mix of the eras, or serves on the current path. -/
  routed : ∀ headers, TurnsModern (Era.route repr lower m.body headers) →
    ∃ e, (s.answer repr (m.call handler)).answer = .error e

variable {repr lower} {s s₀ : LegacyServerSession} {m : Message} {headers : Option Headers}
  {handler : Members → Except Str Json} {call : Call}

/-! ## Routing -/

/-- A message that turns modern carries the marks of the current era. -/
theorem marks_of_turnsModern (h : TurnsModern (Era.route repr lower m.body headers)) :
    m.ModernMarks := by
  have hway := route_cases repr lower m.body headers
  generalize Era.route repr lower m.body headers = outcome at h hway
  cases hway with
  | current r era envelope cleared => exact Or.inl envelope
  | stopped e envelope refused => exact Or.inl envelope
  | handshake r era modern bare method proposal =>
    cases h with
    | served _ era' => cases era.symm.trans era'
  | mixed why both modern => exact modern
  | stray why neither plain =>
    cases h with
    | refused _ both => cases neither.symm.trans both

/-- A handshake that proposes a modern revision is refused as a mix of the eras. -/
theorem turnsModern_of_proposal (hbare : hasModernEnvelope m.body = false)
    (h : ProposesModern m.body) : TurnsModern (Era.route repr lower m.body headers) := by
  have hway := route_cases repr lower m.body headers
  generalize Era.route repr lower m.body headers = outcome at hway ⊢
  cases hway with
  | current r era envelope cleared => cases hbare.symm.trans envelope
  | stopped e envelope refused => cases hbare.symm.trans envelope
  | handshake r era modern bare method proposal => exact absurd h proposal
  | mixed why both modern => exact .refused why both
  | stray why neither plain => exact absurd h plain

/-- **What is routed as a handshake is no request of the current era.** -/
theorem handshake_refused {route : EraRoute}
    (h : Era.route repr lower m.body headers = .ok route) (hera : route.era = .handshake)
    (headers' : Option Headers) :
    ∃ e, classifyRequest repr lower m.body headers' MODERN_PROTOCOL_VERSIONS = .error e := by
  have hway := route_cases repr lower m.body headers
  rw [h] at hway
  cases hway with
  | current _ era envelope cleared => cases hera.symm.trans era
  | handshake _ era modern bare method proposal => exact classifyRequest_of_bare bare

/-! ## The legacy path -/

/-- A call raises unless it is one of those that succeed. -/
theorem raises_iff : (∃ e, (s.answer repr call).answer = .error e) ↔ ¬ Takes s call := by
  rw [← (handle_cases repr s call).takes]
  cases (s.answer repr call).answer with
  | error e => simp
  | ok result => simp

/-- What the journal calls accepted is a call that returned. -/
theorem takes_of_mark {accepted : Call}
    (h : (s.answer repr call).mark s call = some (.accepted accepted)) :
    accepted = call ∧ Takes s call := by
  have hway := handle_cases repr s call
  generalize s.answer repr call = handled at h hway
  unfold Handled.mark at h
  split at h
  · cases h
  · rename_i result _ hanswer
    cases h
    exact ⟨rfl, hway.takes.mp ⟨result, hanswer⟩⟩
  · split_ifs at h
    cases h

/-- In a run that takes no marked call, the handshake is advanced by unmarked calls alone. -/
theorem accepted_unmarked {calls : List Call} {accepted : Call}
    (h : (server repr).Along (fun s call => call.Marked → ¬ Takes s call) s₀ calls)
    (haccepted : .accepted accepted ∈ (server repr).journal s₀ calls) : ¬ accepted.Marked := by
  obtain ⟨pre, call, post, hcalls, hentry⟩ := (server repr).mem_journal haccepted
  obtain ⟨rfl, htakes⟩ := takes_of_mark hentry
  intro hmarked
  exact h pre accepted post hcalls hmarked htakes

/-- **No message is acceptable to both eras**, exactly when none that carries marks of the current
era is one that the legacy session takes: in every session, after every run. Where that is so at
every step of the run, nothing marked has advanced the handshake. -/
theorem kept_apart_exactly_when (repr : Json → Str) (lower : Str → Str)
    (s₀ : LegacyServerSession) (calls : List Call) (m : Message)
    (handler : Members → Except Str Json) :
    let s := (server repr).run s₀ calls
    (KeptApart repr lower s m handler ↔ (m.ModernMarks → ¬ Takes s (m.call handler))) ∧
      ((server repr).Along (fun s call => call.Marked → ¬ Takes s call) s₀ calls →
        ∀ accepted, .accepted accepted ∈ (server repr).journal s₀ calls → ¬ accepted.Marked) := by
  intro s
  refine ⟨⟨?_, ?_⟩, fun hrun accepted => accepted_unmarked hrun⟩
  · rintro h (henvelope | hproposes)
    · exact raises_iff.mp (h.envelope henvelope)
    · by_cases henvelope : hasModernEnvelope m.body = true
      · exact raises_iff.mp (h.envelope henvelope)
      · have hbare := Bool.eq_false_iff.mpr henvelope
        exact raises_iff.mp (h.routed none (turnsModern_of_proposal hbare hproposes))
  · intro h
    exact
      { handshake := fun headers route hroute hera headers' =>
          handshake_refused hroute hera headers'
        envelope := fun henvelope => raises_iff.mpr (h (Or.inl henvelope))
        routed := fun headers hturns => raises_iff.mpr (h (marks_of_turnsModern hturns)) }

/-- The modern envelope of a request. -/
def modernMeta : Members :=
  [(PROTOCOL_VERSION_META_KEY, .str PROTOCOL_REVISION), (CLIENT_CAPABILITIES_META_KEY, .obj [])]

/-- A message that carries the modern envelope beside its parameters. -/
def enveloped (method : Str) (params : Members) : Message where
  body := [(py "method", .str method),
    (py "params", .obj ((py "_meta", .obj modernMeta) :: params))]
  method := method
  params := (py "_meta", .obj modernMeta) :: params
  hasMethod := rfl
  hasParams := rfl

/-- An `initialize` with a modern envelope is refused by routing, and opens the legacy session;
a read with one is served on the current path, and by the legacy session. -/
theorem taken_by_both :
    let handler : Members → Except Str Json := fun _ => .ok .null
    let opening := enveloped INITIALIZE [(py "protocolVersion", .str LEGACY_ERA)]
    let reading := enveloped AUTHORITATIVE_READ_METHOD [(py "uri", .str (py "heartbeat://node"))]
    let confirm : Call := ⟨INITIALIZED_NOTIFICATION, none, handler⟩
    let ready := (server fun _ => []).run readSession [opening.call handler, confirm]
    Era.route (fun _ => []) id opening.body none =
        .error (.crossEraConfusion (.handshakeEnvelope INITIALIZE)) ∧
      (readSession.answer (fun _ => []) (opening.call handler)).session.state = .initializing ∧
      (Era.route (fun _ => []) id reading.body none).toOption.map EraRoute.era = some .current ∧
      (ready.answer (fun _ => []) (reading.call handler)).answer = .ok .null ∧
      ¬ KeptApart (fun _ => []) id readSession opening handler := by
  refine ⟨by rfl, by rfl, by rfl, by rfl, ?_⟩
  intro h
  apply raises_iff.mp (h.envelope (by rfl))
  exact .opens rfl rfl ⟨LEGACY_ERA, .head _, rfl⟩

end McpHeartbeat
