import McpHeartbeat.Current.Publication

/-!
# Several participants on one server

The producers of several participants put what they issue on one server, and a consumer of each one
reads it from there.

* `Turn`: what happens to one participant; `Tenant`, `tenant`: a participant that has its consumer to
  itself;
* `Server`, `server`: all of them over one publication and one SDK;
* `Watches`, `tenant_watches`: what a consumer holds that is alone with its producer;
* `Connected`, `Orderly`: what is asked of the server and of a participant; `server_project`: a
  participant on the server is a participant alone; **`serves_run`**: so every run serves it.

The template is the default one.
-/

namespace McpHeartbeat

open Base Json

/-- What happens to one participant: its producer acts; its consumer hears a hint, refetches or polls.
A fetch raises the named exception on its way, or is made for a principal. -/
inductive Turn
  | act (a : Act)
  | hint (change : Option ChangeHint)
  | refetch (answer : Except Str (Option Principal)) (now : ℤ)
  | poll (answer : Except Str (Option Principal)) (now : ℤ)

namespace Turn

/-- What the producer does. -/
def act? : Turn → Option Act
  | .act a => some a
  | .hint _ => none
  | .refetch .. => none
  | .poll .. => none

/-- The call on the consumer, over a source. -/
def event? (factory : Option BinderFactory) (source : Option Principal → Except Str FetchResult) :
    Turn → Option Event
  | .act _ => none
  | .hint change => some (.onHint change)
  | .refetch answer now => some (.refetch factory (answer.bind source) now)
  | .poll answer now => some (.poll factory (answer.bind source) now)

end Turn

/-- What a call on a consumer answers. -/
abbrev Answer := Except Raised (Option ConvergenceVerdict)

/-! ## One participant -/

/-- A participant, the document it put last, and its consumer. -/
structure Tenant where
  issuer : Option HeartbeatIssuer := none
  document : Option Json := none
  consumer : HeartbeatConsumer

/-- The source that reads the document in canonical form, or raises `missing`. -/
def Tenant.source (missing : Str) (t : Tenant) (principal : Option Principal) :
    Except Str FetchResult :=
  match t.document with
  | none => .error missing
  | some d => .ok { document := d.canon, principal }

/-- A participant that has its consumer to itself; the journal is what the consumer answers. -/
def tenant (P : Platform) (p : Str) (factory : Option BinderFactory) (missing : Str) :
    Machine Tenant Turn Answer where
  next t turn :=
    { issuer := match turn.act? with
        | some a => (publisher p).next t.issuer a
        | none => t.issuer
      document := match turn.act?.bind ((publisher p).entry t.issuer) with
        | some h => some (h.toDict P)
        | none => t.document
      consumer := match turn.event? factory (t.source missing) with
        | some event => (t.consumer.step P event).2
        | none => t.consumer }
  entry t turn :=
    (turn.event? factory (t.source missing)).map fun event => (t.consumer.step P event).1

/-! ## The server -/

/-- The producers, the leases they put, and the consumers, each by participant. -/
structure Server where
  issuers : Str → Option HeartbeatIssuer
  publication : HeartbeatPublication
  consumers : Str → HeartbeatConsumer
  owned : ∀ p s, issuers p = some s → s.participantId = p

namespace Server

/-- Nothing is issued yet, and the consumers are these. -/
def start (consumers : Str → HeartbeatConsumer) : Server where
  issuers _ := none
  publication := .empty
  consumers := consumers
  owned := nofun

/-- What is seen of a participant. -/
def view (p : Str) (s : Server) : Tenant where
  issuer := s.issuers p
  document := s.publication.get p
  consumer := s.consumers p

/-- The producers after one of them has acted. -/
def produce (s : Server) (q : Str) : Option Act → Str → Option HeartbeatIssuer
  | some a => Function.update s.issuers q ((publisher q).next (s.issuers q) a)
  | none => s.issuers

theorem owned_next {q : Str} {issuer : Option HeartbeatIssuer}
    (ho : ∀ s, issuer = some s → s.participantId = q) (a : Act) :
    ∀ s, (publisher q).next issuer a = some s → s.participantId = q := by
  intro s hs
  cases a with
  | restart epochId token lease extensions =>
    obtain rfl := Option.some.inj hs
    rfl
  | issue now =>
    obtain ⟨i, hi, rfl⟩ := Option.map_eq_some_iff.mp hs
    rcases issue_cases i now with hno | ⟨h, hok, -⟩
    · rw [hno]
      exact ho i hi
    · rw [hok]
      exact ho i hi

theorem owned_produce (s : Server) (q : Str) (a : Option Act) :
    ∀ p i, s.produce q a p = some i → i.participantId = p := by
  cases a with
  | none => exact s.owned
  | some a =>
    intro p i hi
    by_cases hp : p = q
    · subst hp
      rw [produce, Function.update_self] at hi
      exact owned_next (s.owned p) a i hi
    · rw [produce, Function.update_of_ne hp] at hi
      exact s.owned p i hi

end Server

/-- The participants on one server; the journal is what the consumers answer, each under its
participant. -/
def server (P : Platform) (sdk : Sdk) (negotiation : Negotiation)
    (factory : Str → Option BinderFactory) : Machine Server (Str × Turn) (Str × Answer) where
  next s e :=
    { issuers := s.produce e.1 e.2.act?
      publication := match e.2.act?.bind ((publisher e.1).entry (s.issuers e.1)) with
        | some h => s.publication.put P h
        | none => s.publication
      consumers := match e.2.event? (factory e.1)
            (fetchResult sdk s.publication negotiation e.1) with
        | some event => Function.update s.consumers e.1 ((s.consumers e.1).step P event).2
        | none => s.consumers
      owned := s.owned_produce e.1 e.2.act? }
  entry s e := (e.2.event? (factory e.1) (fetchResult sdk s.publication negotiation e.1)).map
    fun event => (e.1, ((s.consumers e.1).step P event).1)

/-- The turns of one participant. -/
def turnOf (p : Str) (e : Str × Turn) : Option Turn := if e.1 = p then some e.2 else none

/-- What the consumer of one participant answered. -/
def answerOf (p : Str) (e : Str × Answer) : Option Answer := if e.1 = p then some e.2 else none

variable {P : Platform} {sdk : Sdk} {negotiation : Negotiation}
  {factory : Str → Option BinderFactory} {p : Str} {s : Server}

/-! ## Isolation -/

/-- The document that was put last can be read. -/
def Legible (D : Decoder) (t : Tenant) (_ : Turn) : Prop :=
  ∀ d, t.document = some d → Readable D D.depth d

/-- What a participant issues names it. -/
theorem Server.node_entry (s : Server) {q : Str} {a : Act} {h : Heartbeat}
    (he : (publisher q).entry (s.issuers q) a = some h) : h.nodeId = some q := by
  cases a with
  | restart => cases he
  | issue now =>
    obtain ⟨i, hi, hok⟩ := Option.bind_eq_some_iff.mp he
    cases hissue : (i.issue now).1 with
    | error e =>
      rw [hissue] at hok
      cases hok
    | ok g =>
      rw [hissue] at hok
      obtain rfl := Option.some.inj hok
      rw [(issue_ok hissue).node, s.owned q i hi]

/-- A participant that does not act is seen as before. -/
theorem view_hidden (e : Str × Turn) (he : turnOf p e = none) :
    ((server P sdk negotiation factory).next s e).view p = s.view p ∧
      ((server P sdk negotiation factory).entry s e).bind (answerOf p) = none := by
  obtain ⟨q, turn⟩ := e
  have hne : q ≠ p := fun hq => by simp [turnOf, hq] at he
  have hissuer : s.produce q turn.act? p = s.issuers p := by
    cases turn.act? with
    | none => rfl
    | some a => exact Function.update_of_ne hne.symm _ _
  refine ⟨?_, ?_⟩
  · simp only [server, Server.view, hissuer, Tenant.mk.injEq, true_and]
    constructor
    · cases hput : turn.act?.bind ((publisher q).entry (s.issuers q)) with
      | none => rfl
      | some h =>
        obtain ⟨a, -, ha⟩ := Option.bind_eq_some_iff.mp hput
        dsimp only
        rw [get_put, if_neg]
        rw [s.node_entry ha, Option.some_inj]
        exact hne
    · cases turn.event? (factory q) (fetchResult sdk s.publication negotiation q) with
      | none => rfl
      | some event => exact Function.update_of_ne hne.symm _ _
  · simp only [server]
    cases turn.event? (factory q) (fetchResult sdk s.publication negotiation q) with
    | none => rfl
    | some event => simp [answerOf, hne]

/-- The client has discovered the default template, and the SDK finds the segment of an address. -/
structure Connected (sdk : Sdk) (negotiation : Negotiation) : Prop where
  addresses : sdk.Addresses
  template : ∃ capability, negotiation.capability = some capability ∧
    capability.resourceUriTemplate = DEFAULT_RESOURCE_URI_TEMPLATE

/-- The source over the SDK is the source beside the producer. -/
theorem Connected.fetchResult (hconn : Connected sdk negotiation) (hp : NODE_ID_RE p = true)
    (hread : ∀ d, s.publication.get p = some d → Readable sdk.decoder sdk.decoder.depth d) :
    fetchResult sdk s.publication negotiation p =
      (s.view p).source (sdk.name (unpublished sdk p)) := by
  obtain ⟨capability, hcap, htemplate⟩ := hconn.template
  funext principal
  unfold McpHeartbeat.fetchResult Tenant.source Server.view
  rw [readHeartbeat_of_get hconn.addresses hp hcap htemplate hread]
  cases s.publication.get p <;> rfl

/-- What a participant does is seen as if it were alone. -/
theorem view_own (hconn : Connected sdk negotiation) (hp : NODE_ID_RE p = true)
    (e : Str × Turn) (turn : Turn) (he : turnOf p e = some turn)
    (hlegible : Legible sdk.decoder (s.view p) turn) :
    let alone := tenant P p (factory p) (sdk.name (unpublished sdk p))
    ((server P sdk negotiation factory).next s e).view p = alone.next (s.view p) turn ∧
      ((server P sdk negotiation factory).entry s e).bind (answerOf p) =
        alone.entry (s.view p) turn := by
  intro alone
  obtain ⟨q, turn'⟩ := e
  obtain ⟨rfl, rfl⟩ : q = p ∧ turn' = turn := by
    unfold turnOf at he
    split_ifs at he with hq
    exact ⟨hq, Option.some.inj he⟩
  have hsource := hconn.fetchResult hp hlegible
  refine ⟨?_, ?_⟩
  · simp only [alone, server, tenant, hsource]
    unfold Server.view
    simp only [Tenant.mk.injEq]
    refine ⟨?_, ?_, ?_⟩
    · cases turn'.act? with
      | none => rfl
      | some a => exact Function.update_self ..
    · cases hput : turn'.act?.bind ((publisher q).entry (s.issuers q)) with
      | none => rfl
      | some h =>
        obtain ⟨a, -, ha⟩ := Option.bind_eq_some_iff.mp hput
        exact (get_put ..).trans (if_pos (s.node_entry ha))
    · cases turn'.event? (factory q) (Tenant.source _ _) with
      | none => rfl
      | some event => exact Function.update_self ..
  · simp only [alone, server, tenant, hsource]
    cases turn'.event? (factory q) ((s.view q).source _) with
    | none => rfl
    | some event => simp [answerOf, Server.view]

/-! ## What is minted -/

/-- The extensions of a restart have a property. -/
def Act.Extends (E : Members → Prop) : Act → Prop
  | .restart _ _ _ extensions => E extensions
  | .issue _ => True

/-- An issuer and what was minted have such extensions, and sequences below the number of what was
minted. -/
structure Extending (E : Members → Prop) (issuer : Option HeartbeatIssuer) (past : List Heartbeat) :
    Prop where
  issuer : ∀ s, issuer = some s → E s.extensions ∧ s.nextSequence ≤ past.length
  past : ∀ h ∈ past, E h.extensions ∧ ∃ n : ℕ, h.sequence = some (n : ℤ) ∧ n < past.length

theorem Extending.next {E : Members → Prop} {issuer : Option HeartbeatIssuer} {past : List Heartbeat}
    {a : Act} (ha : a.Extends E) (he : Extending E issuer past) :
    Extending E ((publisher p).next issuer a)
      (past ++ ((publisher p).entry issuer a).toList) := by
  cases a with
  | restart epochId token lease extensions =>
    refine ⟨fun s hs => ?_, by simpa [publisher] using he.past⟩
    obtain rfl := Option.some.inj hs
    exact ⟨ha, Nat.zero_le _⟩
  | issue now =>
    cases issuer with
    | none =>
      refine ⟨fun s hs => ?_, by simpa [publisher] using he.past⟩
      cases (show none = some s from hs)
    | some s =>
      obtain ⟨hext, hseq⟩ := he.issuer s rfl
      rcases issue_cases s now with hno | ⟨h, hok, -, -, hn⟩
      · simpa [publisher, hno, Except.toOption] using he
      · have hlast : h.extensions = s.extensions := (issue_ok (congrArg Prod.fst hok)).extensions
        simp only [publisher, Option.map_some, Option.bind_some, hok, Except.toOption,
          Option.toList_some]
        refine ⟨fun i hi => ?_, List.forall_mem_append.mpr ⟨fun g hg => ?_, ?_⟩⟩
        · obtain rfl := Option.some.inj hi
          exact ⟨hext, by simpa using hseq⟩
        · obtain ⟨hg, n, hgn, hlt⟩ := he.past g hg
          exact ⟨hg, n, hgn, by rw [List.length_append]; omega⟩
        · rw [List.forall_mem_singleton, List.length_append, List.length_singleton]
          exact ⟨hlast ▸ hext, s.nextSequence, hn, by omega⟩

/-- Every heartbeat that is minted has the extensions of a restart, and a sequence below their
number. -/
theorem minted_extends {E : Members → Prop} (p : Str) {acts : List Act}
    (hacts : ∀ a ∈ acts, a.Extends E) : ∀ h ∈ minted p acts, E h.extensions ∧
      ∃ n : ℕ, h.sequence = some (n : ℤ) ∧ n < (minted p acts).length := by
  have hrun : Extending E ((publisher p).run none acts) ([] ++ (publisher p).journal none acts) :=
    (publisher p).invariant (fun _ _ _ => Extending.next) acts none [] hacts ⟨nofun, nofun⟩
  exact hrun.past

/-- Every heartbeat that regular acts mint was issued. -/
theorem issued_minted (hp : idWord "._:/+-" 254 p = true) {acts : List Act}
    (hacts : ∀ a ∈ acts, a.Regular) : ∀ h ∈ minted p acts, Issued p h := by
  have hrun : Publishes p ((publisher p).run none acts) ([] ++ (publisher p).journal none acts) :=
    (publisher p).invariant (fun _ _ _ => Publishes.next hp) acts none [] hacts ⟨nofun, nofun⟩
  exact hrun.issued

/-! ## A participant alone -/

section Alone

variable {binder : Option BinderFactory} {missing : Str} {turns : List Turn}

/-- A consumer that has held nothing. -/
structure Beginner (p : Str) (c : HeartbeatConsumer) : Prop where
  participant : c.state.participantId = p
  held : c.state.held = none
  retired : c.state.retiredEpochs = ∅

/-- Its issuer is the one its acts leave, and its document is the last one they mint. -/
theorem tenant_run (c : HeartbeatConsumer) (turns : List Turn) :
    let t := (tenant P p binder missing).run { consumer := c } turns
    t.issuer = (publisher p).run none (turns.filterMap Turn.act?) ∧
      t.document = (minted p (turns.filterMap Turn.act?)).getLast?.map (Heartbeat.toDict P) := by
  induction turns using List.reverseRecOn with
  | nil => exact ⟨rfl, rfl⟩
  | append_singleton turns turn ih =>
    obtain ⟨hissuer, hdocument⟩ := ih
    rw [Machine.run_concat, List.filterMap_append]
    generalize (tenant P p binder missing).run { consumer := c } turns = t at hissuer hdocument
    cases hact : turn.act? with
    | none => simpa [tenant, hact] using ⟨hissuer, hdocument⟩
    | some a =>
      rw [List.filterMap_cons_some hact, List.filterMap_nil, Machine.run_concat, minted_concat,
        ← hissuer]
      simp only [tenant, hact, Option.bind_some, true_and]
      cases (publisher p).entry t.issuer a with
      | none => simpa using hdocument
      | some h => simp

/-- Extensions that a reader reads one level down. -/
def Sendable (D : Decoder) (extensions : Members) : Prop :=
  extensions = [] ∨ Readable D (D.depth - 1) (.obj extensions)

/-- A restart is regular, and its extensions are read. -/
def Turn.Regular (D : Decoder) (turn : Turn) : Prop :=
  ∀ a, turn.act? = some a → a.Regular ∧ a.Extends (Sendable D)

theorem acts_regular {D : Decoder} (hturns : ∀ turn ∈ turns, turn.Regular D) :
    ∀ a ∈ turns.filterMap Turn.act?, a.Regular ∧ a.Extends (Sendable D) := by
  intro a ha
  obtain ⟨turn, hturn, hact⟩ := List.mem_filterMap.mp ha
  exact hturns turn hturn a hact

/-- Its document can be read. -/
theorem legible_run {D : Decoder} (hp : idWord "._:/+-" 254 p = true) (c : HeartbeatConsumer)
    (hturns : ∀ turn ∈ turns, turn.Regular D)
    (hdigits : D.maxStrDigits = 0 ∨ turns.length < 10 ^ D.maxStrDigits) (d : Json)
    (hd : ((tenant P p binder missing).run { consumer := c } turns).document = some d) :
    Readable D D.depth d := by
  have hacts := acts_regular hturns
  rw [(tenant_run c turns).2] at hd
  obtain ⟨h, hlast, rfl⟩ := Option.map_eq_some_iff.mp hd
  have hmem := List.mem_of_getLast? hlast
  obtain ⟨hext, n, hseq, hlt⟩ := minted_extends p (fun a ha => (hacts a ha).2) h hmem
  have hissued := issued_minted hp (fun a ha => (hacts a ha).1) h hmem
  have hcount : (minted p (turns.filterMap Turn.act?)).length ≤ turns.length :=
    ((publisher p).length_journal_le none _).trans (List.length_filterMap_le _ _)
  have hdepth : D.depth = D.depth - 1 + 1 := by have := D.depth_pos; omega
  refine readable_toDict P hissued hdepth hext hseq (hdigits.imp_right fun hlong => ?_)
  omega

/-- **Its document can be read at every turn.** -/
theorem legible_along {D : Decoder} (hp : idWord "._:/+-" 254 p = true) (c : HeartbeatConsumer)
    (hturns : ∀ turn ∈ turns, turn.Regular D)
    (hdigits : D.maxStrDigits = 0 ∨ turns.length < 10 ^ D.maxStrDigits) :
    (tenant P p binder missing).Along (Legible D) { consumer := c } turns := by
  rintro pre turn post rfl d hd
  refine legible_run hp c (fun turn hturn => hturns turn (List.mem_append_left _ hturn))
    (hdigits.imp_right fun hlong => ?_) d hd
  rw [List.length_append] at hlong
  omega

/-- What a consumer that follows the heartbeats keeps. -/
structure Watches (p : Str) (hs : List Heartbeat) (c : HeartbeatConsumer) : Prop where
  participant : c.state.participantId = p
  watching : Watching Heartbeat.readAs hs c.state

theorem Beginner.watches {c : HeartbeatConsumer} (h : Beginner p c) : Watches p [] c :=
  ⟨h.participant, .idle h.held h.retired⟩

theorem Watches.of_state {hs : List Heartbeat} {c c' : HeartbeatConsumer} (w : Watches p hs c)
    (h : c'.state = c.state) : Watches p hs c' := by
  obtain ⟨hparticipant, hwatching⟩ := w
  rw [← h] at hparticipant hwatching
  exact ⟨hparticipant, hwatching⟩

/-- One refetch from a source of the last heartbeat. -/
theorem Watches.refetch {hs : List Heartbeat} {c : HeartbeatConsumer} (w : Watches p hs c)
    (hissued : ∀ h ∈ hs, Issued p h) {fetched : Except Str FetchResult}
    (hfetched : ∀ r, fetched = .ok r → ∃ h, hs.getLast? = some h ∧ r.document = (h.toDict P).canon)
    (now : ℤ) : Watches p hs (c.refetch P binder fetched now).2 := by
  obtain ⟨-, hsame | ⟨r, _, g, hr, -, -, hread, -, hhold⟩⟩ := refetch_effect P c binder fetched now
  · exact w.of_state hsame
  · obtain ⟨h, hlast, hdocument⟩ := hfetched r hr
    rw [hdocument] at hread
    obtain rfl := hread.unique ((hissued h (List.mem_of_getLast? hlast)).reads_canon P)
    obtain ⟨init, rfl⟩ := List.getLast?_eq_some_iff.mp hlast
    constructor
    · rw [hhold, LineageState.hold_participantId, w.participant]
    · rw [hhold]
      exact w.watching.hold_last view_readAs

/-- What the source answers is the last heartbeat. -/
theorem source_minted {t : Tenant} {hs : List Heartbeat}
    (hdocument : t.document = hs.getLast?.map (Heartbeat.toDict P))
    (answer : Except Str (Option Principal)) :
    ∀ r, answer.bind (t.source missing) = .ok r →
      ∃ h, hs.getLast? = some h ∧ r.document = (h.toDict P).canon := by
  intro r hr
  cases answer with
  | error name => cases hr
  | ok principal =>
    have hsource : t.source missing principal = .ok r := hr
    unfold Tenant.source at hsource
    rw [hdocument] at hsource
    cases hlast : hs.getLast? with
    | none =>
      rw [hlast] at hsource
      cases hsource
    | some h =>
      rw [hlast] at hsource
      obtain rfl := Except.ok.inj hsource
      exact ⟨h, rfl, rfl⟩

/-- **A consumer alone with its producer watches what it mints.** -/
theorem tenant_watches {c : HeartbeatConsumer} (hp : idWord "._:/+-" 254 p = true)
    (hc : Beginner p c) (hturns : ∀ turn ∈ turns, ∀ a, turn.act? = some a → a.Regular) :
    Watches p (minted p (turns.filterMap Turn.act?))
      ((tenant P p binder missing).run { consumer := c } turns).consumer := by
  induction turns using List.reverseRecOn with
  | nil => exact hc.watches
  | append_singleton turns turn ih =>
    have w := ih fun turn hturn => hturns turn (List.mem_append_left _ hturn)
    have hissued : ∀ h ∈ minted p (turns.filterMap Turn.act?), Issued p h := by
      refine issued_minted hp fun a ha => ?_
      obtain ⟨turn, hturn, hact⟩ := List.mem_filterMap.mp ha
      exact hturns turn (List.mem_append_left _ hturn) a hact
    have hsource : ∀ (answer : Except Str (Option Principal)) (r : FetchResult), answer.bind
        (((tenant P p binder missing).run { consumer := c } turns).source missing) = .ok r →
          ∃ h, (minted p (turns.filterMap Turn.act?)).getLast? = some h ∧
            r.document = (h.toDict P).canon :=
      source_minted (tenant_run c turns).2
    rw [Machine.run_concat, List.filterMap_append]
    generalize (tenant P p binder missing).run { consumer := c } turns = t at w hsource
    cases turn with
    | act a =>
      have hacts : [Turn.act a].filterMap Turn.act? = [a] := rfl
      rw [hacts, minted_concat]
      exact ⟨w.participant, w.watching.more _⟩
    | hint change =>
      have hacts : [Turn.hint change].filterMap Turn.act? = [] := rfl
      rw [hacts, List.append_nil]
      exact w.of_state (onHint_effect P t.consumer change).2
    | refetch answer now =>
      have hacts : [Turn.refetch answer now].filterMap Turn.act? = [] := rfl
      rw [hacts, List.append_nil]
      exact w.refetch hissued (hsource answer) now
    | poll answer now =>
      have hacts : [Turn.poll answer now].filterMap Turn.act? = [] := rfl
      rw [hacts, List.append_nil]
      show Watches p _ (t.consumer.poll P binder (answer.bind (t.source missing)) now).2
      rcases poll_effect P t.consumer binder (answer.bind (t.source missing)) now with
        ⟨-, hpoll⟩ | hpoll <;> rw [hpoll]
      · exact w.refetch hissued (hsource answer) now
      · exact w

/-- The settings of its consumer are fixed. -/
theorem tenant_settings (c : HeartbeatConsumer) (turns : List Turn) :
    ((tenant P p binder missing).run { consumer := c } turns).consumer.settings = c.settings := by
  have hstep : ∀ (t : Tenant) turn, t.consumer.settings = c.settings →
      ((tenant P p binder missing).next t turn).consumer.settings = c.settings := by
    intro t turn ht
    simp only [tenant]
    cases turn.event? binder (t.source missing) with
    | none => exact ht
    | some event => exact (step_settings P t.consumer event).trans ht
  exact (tenant P p binder missing).invariant_state hstep rfl turns

end Alone

/-! ## Runs of the server -/

variable {consumers : Str → HeartbeatConsumer} {events : List (Str × Turn)}

/-- What the producer of a participant did. -/
def actsOf (p : Str) (events : List (Str × Turn)) : List Act :=
  (events.filterMap (turnOf p)).filterMap Turn.act?

/-- A participant of the contract acts regularly, and the reader reads as many digits as there are
events. -/
structure Orderly (D : Decoder) (p : Str) (events : List (Str × Turn)) : Prop where
  word : idWord "._:/+-" 254 p = true
  regular : ∀ e ∈ events, e.1 = p → e.2.Regular D
  digits : D.maxStrDigits = 0 ∨ events.length < 10 ^ D.maxStrDigits

namespace Orderly

variable {D : Decoder}

theorem turns (ho : Orderly D p events) : ∀ turn ∈ events.filterMap (turnOf p), turn.Regular D := by
  intro turn hturn
  obtain ⟨e, he, hof⟩ := List.mem_filterMap.mp hturn
  unfold turnOf at hof
  split_ifs at hof with hq
  obtain rfl := Option.some.inj hof
  exact ho.regular e he hq

theorem count (ho : Orderly D p events) :
    D.maxStrDigits = 0 ∨ (events.filterMap (turnOf p)).length < 10 ^ D.maxStrDigits :=
  ho.digits.imp_right (List.length_filterMap_le _ _).trans_lt

theorem issued (ho : Orderly D p events) : ∀ h ∈ minted p (actsOf p events), Issued p h :=
  issued_minted ho.word fun a ha => (acts_regular ho.turns a ha).1

end Orderly

/-- The server, as an orderly participant sees it. -/
theorem server_project (hconn : Connected sdk negotiation) (ho : Orderly sdk.decoder p events) :
    let shared := server P sdk negotiation factory
    let alone := tenant P p (factory p) (sdk.name (unpublished sdk p))
    (shared.run (.start consumers) events).view p =
        alone.run { consumer := consumers p } (events.filterMap (turnOf p)) ∧
      (shared.journal (.start consumers) events).filterMap (answerOf p) =
        alone.journal { consumer := consumers p } (events.filterMap (turnOf p)) := by
  intro shared alone
  have hown : ∀ (s : Server) e turn, turnOf p e = some turn → Legible sdk.decoder (s.view p) turn →
      (shared.next s e).view p = alone.next (s.view p) turn ∧
        (shared.entry s e).bind (answerOf p) = alone.entry (s.view p) turn :=
    fun s e turn => view_own hconn (matchDollar_of_word ho.word) e turn
  exact shared.project alone (fun _ e => view_hidden e) hown (.start consumers) events
    (legible_along ho.word (consumers p) ho.turns ho.count)

/-- What the source of a participant answers that has minted these heartbeats. -/
def sourceOf (P : Platform) (missing : Str) (hs : List Heartbeat) (principal : Option Principal) :
    Except Str FetchResult :=
  match hs.getLast? with
  | none => .error missing
  | some h => .ok { document := (h.toDict P).canon, principal }

/-- What holds of a participant in every run: its consumer watches what it minted, and reads the last
of it. -/
structure Serves (P : Platform) (sdk : Sdk) (negotiation : Negotiation) (p : Str)
    (start : HeartbeatConsumer) (hs : List Heartbeat) (s : Server) : Prop where
  watches : Watches p hs (s.consumers p)
  settings : (s.consumers p).settings = start.settings
  source : fetchResult sdk s.publication negotiation p =
    sourceOf P (sdk.name (unpublished sdk p)) hs

/-- **Every run of the server serves its participants.** -/
theorem serves_run (hconn : Connected sdk negotiation) (ho : Orderly sdk.decoder p events)
    (hc : Beginner p (consumers p)) :
    Serves P sdk negotiation p (consumers p) (minted p (actsOf p events))
      ((server P sdk negotiation factory).run (.start consumers) events) := by
  have hview := (@server_project P sdk negotiation factory p consumers events hconn ho).1
  generalize (server P sdk negotiation factory).run (.start consumers) events = s at hview
  have hconsumer : s.consumers p = _ := congrArg Tenant.consumer hview
  constructor
  · rw [hconsumer]
    exact tenant_watches ho.word hc fun turn hturn a ha => (ho.turns turn hturn a ha).1
  · rw [hconsumer]
    exact tenant_settings _ _
  · have hread : ∀ d, s.publication.get p = some d →
        Readable sdk.decoder sdk.decoder.depth d := by
      intro d hd
      have hd' : (s.view p).document = some d := hd
      rw [hview] at hd'
      exact legible_run ho.word (consumers p) ho.turns ho.count d hd'
    rw [hconn.fetchResult (matchDollar_of_word ho.word) hread]
    funext principal
    unfold Tenant.source sourceOf
    rw [hview, (tenant_run (consumers p) _).2]
    cases hlast : (minted p (actsOf p events)).getLast? with
    | none => simp only [actsOf] at hlast; rw [hlast]; rfl
    | some h => simp only [actsOf] at hlast; rw [hlast]; rfl

end McpHeartbeat
