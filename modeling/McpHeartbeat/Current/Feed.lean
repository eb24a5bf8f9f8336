import McpHeartbeat.Current.Coalescing
import McpHeartbeat.Current.Delivery
import McpHeartbeat.Current.Stream
import McpHeartbeat.Eras.Announcements

/-!
# From an issue to a refetch

What is issued is announced on a stream, and a consumer hears what arrives.

* `SubscriptionFilter.forParticipants`, `listenFilter`: what a client asks to hear about;
* `changedUri`, `SubscriptionStream.hints`: what it hears; `announcement`: what a server sends;
* `received_run`, `hints_announced`: what arrives is received, and is read back;
* `onHint_announced`: what one announcement does;
* **`announced_exactly_when`**: when a consumer of a shared server owes a refetch by what it heard.
-/

namespace McpHeartbeat

open Base Json SubscriptionStream

/-! ## What a client listens to -/

/-- `SubscriptionFilter.for_participants`. -/
def SubscriptionFilter.forParticipants (uris : List Str) (includeResourceList : Bool) :
    SubscriptionFilter where
  resourcesListChanged := includeResourceList
  resourceSubscriptions := uris.map .str

/-- `listen_filter`: the filter for a set of participants. -/
def listenFilter (rich : Str → Except AddressError Str) (negotiation : Negotiation)
    (participantIds : List Str) : Except AddressError SubscriptionFilter :=
  match negotiation.capability with
  | none => .ok {}
  | some capability => (participantIds.mapM (capability.resourceUri rich)).map
      fun uris => SubscriptionFilter.forParticipants uris false

/-- `changed_uri`: the address a notification refers to. -/
def changedUri (notification : Members) : Option Str :=
  match (notification.get (py "params")).member (py "uri") with
  | .str uri => some uri
  | _ => none

/-- The address and the hint of a resource change. -/
def changeOf (frame : Members) : Option (Str × Option ChangeHint) :=
  if methodOf frame ≠ .str RESOURCE_UPDATED_NOTIFICATION then none
  else (changedUri frame).map fun uri => (uri, parseHint frame)

/-- `hints`: one entry for every resource change that was accepted. -/
def SubscriptionStream.hints (s : SubscriptionStream) : List (Str × Option ChangeHint) :=
  s.received.filterMap changeOf

/-- The hints of one address. -/
def SubscriptionStream.heard (s : SubscriptionStream) (uri : Str) : List (Option ChangeHint) :=
  s.hints.filterMap fun e => if e.1 = uri then some e.2 else none

/-- What a server sends of a heartbeat of a participant. -/
def announcement (P : Platform) (rich : Str → Except AddressError Str)
    (capability : HeartbeatCapability) (subscriptionId : Json) (e : Str × Heartbeat) :
    Option Members := do
  let uri ← (capability.resourceUri rich e.1).toOption
  let hint ← (ChangeHint.forHeartbeat P e.2 uri).toOption
  return buildResourceUpdated uri (some hint) subscriptionId

variable {P : Platform} {repr : Json → Str} {rich : Str → Except AddressError Str}
  {negotiation : Negotiation} {capability : HeartbeatCapability} {id : Json} {p q : Str}
  {g h : Heartbeat} {hs : List Heartbeat} {c : HeartbeatConsumer}

/-! ## What arrives -/

/-- A list of results that are all there. -/
theorem mapM_ok {ε α β : Type} {f : α → Except ε β} : ∀ {xs : List α}, (∀ x ∈ xs, ∃ y, f x = .ok y) →
    ∃ ys, xs.mapM f = .ok ys ∧ ys.length = xs.length
  | [], _ => ⟨[], rfl, rfl⟩
  | x :: xs, h => by
    obtain ⟨y, hy⟩ := h x List.mem_cons_self
    obtain ⟨ys, hys, hlength⟩ := mapM_ok fun x hx => h x (List.mem_cons_of_mem _ hx)
    refine ⟨y :: ys, ?_, by rw [List.length_cons, List.length_cons, hlength]⟩
    rw [List.mapM_cons, hy, hys]
    rfl

/-- A listener of some participants asks for resource changes. -/
theorem listenFilter_ok (rich : Str → Except AddressError Str)
    (hcap : negotiation.capability = some capability)
    (htemplate : capability.resourceUriTemplate = DEFAULT_RESOURCE_URI_TEMPLATE) {ps : List Str}
    (hps : ∀ q ∈ ps, NODE_ID_RE q = true) : ∃ f, listenFilter rich negotiation ps = .ok f ∧
      (ps ≠ [] → RESOURCE_UPDATED_NOTIFICATION ∈ f.honouredMethods) := by
  obtain ⟨uris, huris, hlength⟩ : ∃ uris, ps.mapM (capability.resourceUri rich) = .ok uris ∧
      uris.length = ps.length := by
    refine mapM_ok fun q hq => ?_
    obtain ⟨segment, hsegment⟩ := quote_of_node (hps q hq)
    exact ⟨_, resourceUri_default rich htemplate hsegment⟩
  refine ⟨.forParticipants uris false, ?_, fun hne => ?_⟩
  · rw [listenFilter, hcap]
    dsimp only
    rw [huris]
    rfl
  · have hsubscriptions :
        (SubscriptionFilter.forParticipants uris false).resourceSubscriptions ≠ [] := by
      rintro hnil
      rw [SubscriptionFilter.forParticipants, List.map_eq_nil_iff] at hnil
      rw [hnil] at hlength
      exact hne (List.length_eq_zero_iff.mp hlength.symm)
    rw [SubscriptionFilter.honouredMethods, if_pos hsubscriptions]
    simp

/-- Every resource change is received while the filter in force legitimises them. -/
theorem received_run (repr : Json → Str) : ∀ (frames : List Members) {s : SubscriptionStream},
    s.acknowledged = true →
    (frames ≠ [] → RESOURCE_UPDATED_NOTIFICATION ∈ s.inForce.honouredMethods) →
    (∀ frame ∈ frames, methodOf frame = .str RESOURCE_UPDATED_NOTIFICATION) →
    (stream repr).run s frames = { s with received := s.received ++ frames } ∧
      (stream repr).journal s frames = frames
  | [], s, _, _, _ => by simp
  | frame :: frames, s, hack, hforce, hframes => by
    have haccept : s.accept repr frame =
        (.ok frame, { s with received := s.received ++ [frame] }) :=
      accept_notification ⟨hack, hframes frame List.mem_cons_self, hforce (List.cons_ne_nil _ _)⟩
    have hnext : (stream repr).next s frame = { s with received := s.received ++ [frame] } :=
      congrArg Prod.snd haccept
    have hentry : (stream repr).entry s frame = some frame := by
      simp only [stream, haccept, Except.toOption]
    obtain ⟨hrun, hjournal⟩ := received_run repr frames
      (s := { s with received := s.received ++ [frame] }) hack
      (fun _ => hforce (List.cons_ne_nil _ _))
      fun frame hframe => hframes frame (List.mem_cons_of_mem _ hframe)
    rw [Machine.run_cons, Machine.journal_cons, hnext, hentry, hrun, hjournal]
    exact ⟨by simp, rfl⟩

/-- The frames of a stream whose acknowledgement honours its filter are all accepted. -/
theorem acknowledged_run (repr : Json → Str) {f : SubscriptionFilter} (hid : id ≠ .null)
    {frames : List Members}
    (hforce : frames ≠ [] → RESOURCE_UPDATED_NOTIFICATION ∈ f.honouredMethods)
    (hframes : ∀ frame ∈ frames, methodOf frame = .str RESOURCE_UPDATED_NOTIFICATION) :
    ((stream repr).run (fresh f) (buildAcknowledgement id f :: frames)).received = frames ∧
      (stream repr).journal (fresh f) (buildAcknowledgement id f :: frames) =
        buildAcknowledgement id f :: frames := by
  have haccept : (fresh f).accept repr (buildAcknowledgement id f) = _ :=
    accept_acknowledgement (acknowledges_build f f hid) (claimedFilter_build (fresh f) id f)
  have hnext : (stream repr).next (fresh f) (buildAcknowledgement id f) = _ :=
    congrArg Prod.snd haccept
  have hentry : (stream repr).entry (fresh f) (buildAcknowledgement id f) =
      some (buildAcknowledgement id f) := by
    simp only [stream, haccept, Except.toOption]
  rw [Machine.run_cons, Machine.journal_cons, hnext, hentry]
  dsimp only
  obtain ⟨hrun, hjournal⟩ := received_run repr frames
    (s := { fresh f with acknowledged := true,
                         subscriptionId := subscriptionIdOf (buildAcknowledgement id f),
                         honoured := some f }) rfl hforce hframes
  rw [hrun, hjournal]
  exact ⟨rfl, rfl⟩

/-- Different participants have different addresses. -/
theorem resourceUri_inj
    (htemplate : capability.resourceUriTemplate = DEFAULT_RESOURCE_URI_TEMPLATE)
    (hp : NODE_ID_RE p = true) (hq : NODE_ID_RE q = true) {uri : Str}
    (hpuri : capability.resourceUri rich p = .ok uri)
    (hquri : capability.resourceUri rich q = .ok uri) : q = p := by
  obtain ⟨segment, hsegment⟩ := quote_of_node hp
  obtain ⟨other, hother⟩ := quote_of_node hq
  rw [resourceUri_default rich htemplate hsegment] at hpuri
  rw [resourceUri_default rich htemplate hother] at hquri
  obtain rfl := List.append_cancel_left (Except.ok.inj (hpuri.trans hquri.symm))
  rw [← (decode_twice hq hother).1, (decode_twice hp hsegment).1]

/-- What a server sends, and what is heard of it. -/
theorem announcement_ok (rich : Str → Except AddressError Str) (id : Json) (hhex : P.Hexadecimal)
    (htemplate : capability.resourceUriTemplate = DEFAULT_RESOURCE_URI_TEMPLATE)
    (hq : NODE_ID_RE q = true) (henc : h.Encodable P) : ∃ uri digest frame,
      capability.resourceUri rich q = .ok uri ∧ h.digest P = .ok digest ∧
      announcement P rich capability id (q, h) = some frame ∧
      methodOf frame = .str RESOURCE_UPDATED_NOTIFICATION ∧
      changeOf frame = some (uri, some ⟨.str uri, .str h.revision, digest⟩) := by
  obtain ⟨segment, hsegment⟩ := quote_of_node hq
  obtain ⟨raw, -, hdigest⟩ := digest_of_encodable henc
  have huri := resourceUri_default rich htemplate hsegment
  generalize PARTICIPANTS ++ segment = uri at huri
  obtain ⟨hint, hh⟩ : ∃ hint : ChangeHint,
      hint = ⟨.str uri, .str h.revision, py "sha256:" ++ P.sha256 raw⟩ := ⟨_, rfl⟩
  have hhint : ChangeHint.forHeartbeat P h uri = .ok hint := by
    rw [ChangeHint.forHeartbeat, hdigest, hh]
    rfl
  have hmethod : methodOf (buildResourceUpdated uri (some hint) id) =
      .str RESOURCE_UPDATED_NOTIFICATION := rfl
  have hchanged : changedUri (buildResourceUpdated uri (some hint) id) = some uri := rfl
  have hword : isDigest (.str hint.digest) = true := by
    rw [hh]
    exact isDigest_hex hhex raw
  refine ⟨uri, _, _, huri, hdigest, ?_, hmethod, ?_⟩
  · rw [announcement]
    dsimp only
    rw [huri, Except.toOption, Option.bind_eq_bind, Option.bind_some, hhint]
    rfl
  · rw [changeOf, if_neg (not_not.mpr hmethod), hchanged, Option.map_some,
      parseHint_build uri id hword, hh]

/-- What is received of announcements is read back, address by address. -/
theorem heard_announced (id : Json) (hhex : P.Hexadecimal)
    (htemplate : capability.resourceUriTemplate = DEFAULT_RESOURCE_URI_TEMPLATE)
    (hp : NODE_ID_RE p = true) {uri : Str} (huri : capability.resourceUri rich p = .ok uri) :
    ∀ {arrived : List (Str × Heartbeat)}, (∀ e ∈ arrived, NODE_ID_RE e.1 = true ∧ e.2.Encodable P) →
      ∀ (s : SubscriptionStream), s.received = arrived.filterMap (announcement P rich capability id) →
      s.heard uri = (arrived.filter (·.1 = p)).map fun e =>
        (e.2.digest P).toOption.map fun digest => ⟨.str uri, .str e.2.revision, digest⟩ := by
  intro arrived harrived s hs
  rw [heard, hints, hs]
  clear hs
  induction arrived with
  | nil => rfl
  | cons e arrived ih =>
    obtain ⟨q, h⟩ := e
    obtain ⟨hq, henc⟩ := harrived (q, h) List.mem_cons_self
    obtain ⟨other, digest, frame, hother, hdigest, hsent, -, hchange⟩ :=
      announcement_ok rich id hhex htemplate hq henc
    have hrest := ih fun e he => harrived e (List.mem_cons_of_mem _ he)
    rw [List.filterMap_cons_some hsent, List.filterMap_cons_some hchange, List.filterMap_cons]
    by_cases hqp : q = p
    · subst hqp
      obtain rfl : other = uri := Except.ok.inj (hother.symm.trans huri)
      rw [if_pos rfl, List.filter_cons_of_pos (by simp), List.map_cons, hrest, hdigest]
      rfl
    · have hne : other ≠ uri := by
        rintro rfl
        exact hqp (resourceUri_inj htemplate hp hq huri hother)
      rw [if_neg hne, List.filter_cons_of_neg (by simpa using hqp), hrest]

/-! ## What a consumer makes of it -/

/-- Of one epoch and one sequence, a ledger has one heartbeat. -/
theorem ledger_unique (hl : Ledger Heartbeat.bootId Rises hs) (hg : g ∈ hs) (hh : h ∈ hs)
    (hboot : g.bootId = h.bootId) (hseq : g.sequence = h.sequence) : g = h := by
  have hsymm : Std.Symm fun g h : Heartbeat => g.bootId = h.bootId → g.sequence ≠ h.sequence :=
    ⟨fun _ _ hne hb hs => hne hb.symm hs.symm⟩
  have hpairs : hs.Pairwise fun g h => g.bootId = h.bootId → g.sequence ≠ h.sequence :=
    hl.rising.imp fun hr hb hs => not_rises_of_eq hs.symm (hr hb)
  by_contra hne
  exact hpairs.forall hg hh hne hboot hseq

/-- **One announcement**: it is silent if the consumer holds what is announced, and else a refetch is
owed. -/
theorem onHint_announced (uri : Str) {digest : Str} (hw : Watching Heartbeat.readAs hs c.state)
    (hl : Ledger Heartbeat.bootId Rises hs) (hissued : ∀ h ∈ hs, Issued p h) (hg : g ∈ hs)
    (hdigest : g.digest P = .ok digest) :
    let c' := (c.onHint P (some ⟨.str uri, .str g.revision, digest⟩)).2
    c'.state = c.state ∧ c'.hintsSeen = c.hintsSeen + 1 ∧
      (c'.refetchPending = true ↔ c.refetchPending = true ∨ c.held ≠ some g.readAs) := by
  intro c'
  refine ⟨(onHint_effect P c _).2, ?_⟩
  have hunmatched : c.unmatched.2.hintsSeen = c.hintsSeen + 1 ∧
      c.unmatched.2.refetchPending = true := by
    unfold HeartbeatConsumer.unmatched
    split_ifs with hp
    · exact ⟨rfl, hp⟩
    · exact ⟨rfl, rfl⟩
  cases hw with
  | idle held _ =>
    have hc' : c' = c.unmatched.2 := congrArg Prod.snd (onHint_open (Or.inr held)).2.2
    have hnone : c.held ≠ some g.readAs := fun hh => by cases held.symm.trans hh
    rw [hc']
    exact ⟨hunmatched.1, iff_of_true hunmatched.2 (Or.inr hnone)⟩
  | holding before x after served held _ =>
    have hx : x ∈ hs := by simp [served]
    obtain ⟨-, hmatch, hno⟩ := @onHint_compared P c ⟨.str uri, .str g.revision, digest⟩ x.readAs held
    by_cases hgx : g = x
    · subst hgx
      have hd : g.readAs.digest P = .ok digest := (coincides_readAs g).digest_eq.trans hdigest
      have hc' : c' = c.seen :=
        congrArg Prod.snd (hmatch (ChangeHint.matches_iff.mpr ⟨rfl, hd⟩))
      have hheld : c.held = some g.readAs := held
      rw [hc']
      exact ⟨rfl, by simp [HeartbeatConsumer.seen, hheld]⟩
    · have hlabel : ¬ (g.bootId = x.bootId ∧ g.sequence = x.sequence) := fun hsame =>
        hgx (ledger_unique hl hg hx hsame.1 hsame.2)
      have hrevision : g.revision ≠ x.readAs.revision := by
        intro heq
        obtain ⟨b, hb, hbw⟩ := (hissued g hg).boot
        obtain ⟨b', hb', hbw'⟩ := (hissued x hx).boot
        exact hlabel (revision_inj hb hb' (matchDollar_of_word hbw) (matchDollar_of_word hbw') heq)
      have hc' : c' = c.unmatched.2 := by
        refine congrArg Prod.snd (hno ?_)
        rw [ChangeHint.matches, if_neg]
        simpa using hrevision
      have hother : c.held ≠ some g.readAs := by
        intro hh
        have hsame : x.readAs = g.readAs := Option.some.inj (held.symm.trans hh)
        exact hlabel ⟨(congrArg Heartbeat.bootId hsame).symm,
          (congrArg Heartbeat.sequence hsame).symm⟩
      rw [hc']
      exact ⟨hunmatched.1, iff_of_true hunmatched.2 (Or.inr hother)⟩

/-- **A run of announcements.** -/
theorem consumer_announced (uri : Str) (hl : Ledger Heartbeat.bootId Rises hs)
    (hissued : ∀ h ∈ hs, Issued p h) : ∀ (gs : List Heartbeat) {c : HeartbeatConsumer},
      Watching Heartbeat.readAs hs c.state → (∀ g ∈ gs, g ∈ hs ∧ g.Encodable P) →
      let c' := (consumer P).run c (gs.map fun g => .onHint ((g.digest P).toOption.map fun digest =>
        ⟨.str uri, .str g.revision, digest⟩))
      c'.state = c.state ∧ c'.hintsSeen = c.hintsSeen + gs.length ∧
        (c'.refetchPending = true ↔
          c.refetchPending = true ∨ ∃ g ∈ gs, c.held ≠ some g.readAs)
  | [], c, _, _ => by simp
  | g :: gs, c, hw, hgs => by
    obtain ⟨hg, henc⟩ := hgs g List.mem_cons_self
    obtain ⟨raw, -, hdigest⟩ := digest_of_encodable henc
    rw [List.map_cons, Machine.run_cons, hdigest]
    obtain ⟨hstate, hseen, hpending⟩ := onHint_announced uri hw hl hissued hg hdigest
    generalize hone : (c.onHint P (some ⟨.str uri, .str g.revision, _⟩)).2 = c₁
      at hstate hseen hpending
    have hnext : (consumer P).next c (.onHint ((Except.ok _ : Except Error Str).toOption.map
        fun digest => ⟨.str uri, .str g.revision, digest⟩)) = c₁ := hone
    have hw₁ : Watching Heartbeat.readAs hs c₁.state := by rwa [hstate]
    obtain ⟨hstate', hseen', hpending'⟩ := consumer_announced uri hl hissued gs hw₁
      fun g hg => hgs g (List.mem_cons_of_mem _ hg)
    have hheld : c₁.held = c.held := congrArg LineageState.held hstate
    rw [hnext]
    refine ⟨hstate'.trans hstate, ?_, ?_⟩
    · rw [hseen', hseen, List.length_cons]
      omega
    · rw [hpending', hpending, hheld, List.exists_mem_cons_iff, or_assoc]

/-! ## The system -/

/-- **When a consumer of a shared server owes a refetch by what it heard.** A client listens to some
participants; of what the server announces for them, any part arrives, in any order and any number
of times. Every frame is accepted; and the consumer of a participant owes a refetch then exactly if
it did before, or an announcement of its participant arrived of another lease than it holds. -/
theorem announced_exactly_when (P : Platform) (hhex : P.Hexadecimal) (repr : Json → Str) (sdk : Sdk)
    (haddr : sdk.Addresses) (negotiation : Negotiation) (capability : HeartbeatCapability)
    (hcap : negotiation.capability = some capability)
    (htemplate : capability.resourceUriTemplate = DEFAULT_RESOURCE_URI_TEMPLATE)
    (factory : Str → Option BinderFactory) (consumers : Str → HeartbeatConsumer) (p : Str)
    (hc : Beginner p (consumers p)) (events : List (Str × Turn))
    (ho : Orderly sdk.decoder p events) (hnew : ((actsOf p events).filterMap Act.epoch?).Nodup)
    (ps : List Str) (hps : ∀ q ∈ ps, NODE_ID_RE q = true) (id : Json) (hid : id ≠ .null)
    (arrived : List (Str × Heartbeat)) (harrived : ∀ e ∈ arrived, e.1 ∈ ps ∧ e.2.Encodable P ∧
      (e.1 = p → e.2 ∈ minted p (actsOf p events))) :
    let c := ((server P sdk negotiation factory).run (.start consumers) events).consumers p
    ∃ f uri, listenFilter sdk.rich negotiation ps = .ok f ∧
      capability.resourceUri sdk.rich p = .ok uri ∧
      let frames := buildAcknowledgement id f ::
        arrived.filterMap (announcement P sdk.rich capability id)
      let heard := ((stream repr).run (fresh f) frames).heard uri
      let c' := (consumer P).run c (heard.map .onHint)
      (stream repr).journal (fresh f) frames = frames ∧ frames.length = arrived.length + 1 ∧
      c'.state = c.state ∧ c'.hintsSeen = c.hintsSeen + (arrived.filter (·.1 = p)).length ∧
      (c'.refetchPending = true ↔ c.refetchPending = true ∨
        ∃ e ∈ arrived, e.1 = p ∧ c.held ≠ some e.2.readAs) := by
  intro c
  have hp : NODE_ID_RE p = true := matchDollar_of_word ho.word
  have v : Serves P sdk negotiation p (consumers p) (minted p (actsOf p events))
      ((server P sdk negotiation factory).run (.start consumers) events) :=
    serves_run ⟨haddr, capability, hcap, htemplate⟩ ho hc
  obtain ⟨f, hf, hforce⟩ := listenFilter_ok sdk.rich hcap htemplate hps
  obtain ⟨segment, hsegment⟩ := quote_of_node hp
  have huri := resourceUri_default sdk.rich htemplate hsegment
  generalize PARTICIPANTS ++ segment = uri at huri
  refine ⟨f, uri, hf, huri, ?_⟩
  intro frames heard c'
  have hsent : ∀ e ∈ arrived, NODE_ID_RE e.1 = true ∧ e.2.Encodable P := fun e he =>
    ⟨hps _ (harrived e he).1, (harrived e he).2.1⟩
  have hframes : ∀ e ∈ arrived, ∃ frame, announcement P sdk.rich capability id e = some frame ∧
      methodOf frame = .str RESOURCE_UPDATED_NOTIFICATION := by
    intro e he
    obtain ⟨-, -, frame, -, -, hframe, hmethod, -⟩ :=
      announcement_ok sdk.rich id hhex htemplate (hsent e he).1 (hsent e he).2
    exact ⟨frame, hframe, hmethod⟩
  obtain ⟨hreceived, hjournal⟩ : ((stream repr).run (fresh f) frames).received = _ ∧
      (stream repr).journal (fresh f) frames = frames := by
    refine acknowledged_run repr hid (fun hne => hforce ?_) fun frame hframe => ?_
    · rintro rfl
      have hnil : arrived = [] :=
        List.eq_nil_iff_forall_not_mem.mpr fun e he => by simpa using (harrived e he).1
      exact hne (by rw [hnil]; rfl)
    · obtain ⟨e, he, hsome⟩ := List.mem_filterMap.mp hframe
      obtain ⟨frame', hframe', hmethod⟩ := hframes e he
      obtain rfl := Option.some.inj (hsome.symm.trans hframe')
      exact hmethod
  have hlength : frames.length = arrived.length + 1 := by
    rw [List.length_cons, List.filterMap_length_eq_length.mpr]
    intro e he
    obtain ⟨frame, hframe, -⟩ := hframes e he
    rw [hframe]
    rfl
  -- what is heard of it
  have hgs : ∀ g ∈ (arrived.filter (·.1 = p)).map Prod.snd,
      g ∈ minted p (actsOf p events) ∧ g.Encodable P := by
    intro g hg
    obtain ⟨e, he, rfl⟩ := List.mem_map.mp hg
    obtain ⟨he, hep⟩ := List.mem_filter.mp he
    obtain ⟨-, henc, hminted⟩ := harrived e he
    exact ⟨hminted (by simpa using hep), henc⟩
  have hcalls : heard.map Event.onHint = ((arrived.filter (·.1 = p)).map Prod.snd).map fun g =>
      .onHint ((g.digest P).toOption.map fun digest => ⟨.str uri, .str g.revision, digest⟩) := by
    have hheard : heard = _ := heard_announced id hhex htemplate hp huri hsent _ hreceived
    rw [hheard, List.map_map, List.map_map]
    rfl
  obtain ⟨hstate, hseen, hpending⟩ := consumer_announced uri (minted_publisher p _ hnew).ledger
    ho.issued _ v.watches.watching hgs
  rw [← hcalls] at hstate hseen hpending
  refine ⟨hjournal, hlength, hstate, ?_, ?_⟩
  · rw [hseen, List.length_map]
  · refine hpending.trans (or_congr_right ?_)
    constructor
    · rintro ⟨g, hg, hne⟩
      obtain ⟨e, he, rfl⟩ := List.mem_map.mp hg
      obtain ⟨he, hep⟩ := List.mem_filter.mp he
      exact ⟨e, he, by simpa using hep, hne⟩
    · rintro ⟨e, he, hep, hne⟩
      exact ⟨e.2, List.mem_map.mpr ⟨e, List.mem_filter.mpr ⟨he, by simpa using hep⟩, rfl⟩, hne⟩

theorem crossingLease_minted : crossingLease ∈ minted (py "node") (actsOf (py "node") crossing) :=
  List.mem_of_getLast? (by decide +kernel)

/-- The announcements of two participants. -/
def arrivals : List (Str × Heartbeat) :=
  [(py "node", crossingLease), (py "ns:svc/a+b", neighbour)]

theorem announced_exactly_when_arrivals :
    let c := ((server leasePlatform plainSdk plainNegotiation fun _ => none).run (.start beginners)
      crossing).consumers (py "node")
    ∃ f uri, listenFilter plainSdk.rich plainNegotiation [py "node", py "ns:svc/a+b"] = .ok f ∧
      ({} : HeartbeatCapability).resourceUri plainSdk.rich (py "node") = .ok uri ∧
      let frames := buildAcknowledgement (.int 1) f ::
        arrivals.filterMap (announcement leasePlatform plainSdk.rich {} (.int 1))
      let heard := ((stream fun _ => []).run (fresh f) frames).heard uri
      let c' := (consumer leasePlatform).run c (heard.map .onHint)
      (stream fun _ => []).journal (fresh f) frames = frames ∧
      frames.length = arrivals.length + 1 ∧ c'.state = c.state ∧
      c'.hintsSeen = c.hintsSeen + (arrivals.filter (·.1 = py "node")).length ∧
      (c'.refetchPending = true ↔ c.refetchPending = true ∨
        ∃ e ∈ arrivals, e.1 = py "node" ∧ c.held ≠ some e.2.readAs) :=
  announced_exactly_when leasePlatform leasePlatform_hexadecimal (fun _ => []) plainSdk
    plainSdk_addresses plainNegotiation {} rfl rfl (fun _ => none) beginners (py "node")
    ⟨rfl, rfl, rfl⟩ crossing crossing_orderly (by decide +kernel) [py "node", py "ns:svc/a+b"]
    (by decide) (.int 1) nofun arrivals (by
      intro e he
      rcases List.mem_pair.mp he with rfl | rfl
      · have hissued := crossing_orderly.issued _ crossingLease_minted
        exact ⟨by decide, hissued.encodable leasePlatform (by decide), fun _ => crossingLease_minted⟩
      · exact ⟨by decide, issued_neighbour.encodable leasePlatform (by decide), fun h => by
          exact absurd h (by decide)⟩)

end McpHeartbeat
