import McpHeartbeat.Base.Machine
import McpHeartbeat.Py.Dump
import McpHeartbeat.Core.Ports
import McpHeartbeat.Current.Contract

/-!
# Change hints over a subscription stream

* `SubscriptionFilter`: what a listener asks to hear about; `fromDict`, `honouredMethods`;
  `buildAcknowledgement`: what a server claims to honour;
* `buildResourceUpdated`, `parseHint`: a hint on the wire; **`parseHint_build`**: it is read back;
* `SubscriptionStream`, **`accept`**: the view a client has of one stream, and its check of a frame;
* `Reception`, `accept_cases`: the five ways of one frame;
* `stream`: runs; the journal is the frames that were accepted.

A frame is a JSON object. A frame that is refused leaves what it had written. `repr` is a parameter
of the texts.
-/

namespace McpHeartbeat

open Base

/-- What a listener is asking to hear about. -/
structure SubscriptionFilter where
  toolsListChanged : Bool := false
  promptsListChanged : Bool := false
  resourcesListChanged : Bool := false
  resourceSubscriptions : List Json := []
deriving DecidableEq

/-- `tuple(value)`; `none` is the `TypeError` of a value that is not iterable. -/
def tupleOf : Json → Option (List Json)
  | .arr xs => some xs
  | .str s => some (s.map fun c => .str [c])
  | .obj m => some (m.map fun p => .str p.1)
  | _ => none

namespace SubscriptionFilter

/-- `to_dict`. -/
def toDict (f : SubscriptionFilter) : Members :=
  [(py "toolsListChanged", .bool f.toolsListChanged),
    (py "promptsListChanged", .bool f.promptsListChanged),
    (py "resourcesListChanged", .bool f.resourcesListChanged),
    (py "resourceSubscriptions", .arr f.resourceSubscriptions)]

/-- `SubscriptionFilter.from_dict`; `none` is a `TypeError`. -/
def fromDict (raw : Members) : Option SubscriptionFilter :=
  let subscriptions := raw.get (py "resourceSubscriptions")
  (if subscriptions.truthy then tupleOf subscriptions else some []).map fun resourceSubscriptions =>
    { toolsListChanged := (raw.get (py "toolsListChanged")).truthy,
      promptsListChanged := (raw.get (py "promptsListChanged")).truthy,
      resourcesListChanged := (raw.get (py "resourcesListChanged")).truthy,
      resourceSubscriptions }

/-- **A filter is read back.** -/
theorem fromDict_toDict (f : SubscriptionFilter) : fromDict f.toDict = some f := by
  obtain ⟨tools, prompts, resources, subscriptions⟩ := f
  cases subscriptions with
  | nil => rfl
  | cons x xs => rfl

/-- `honoured_methods`: the notifications a filter legitimises. -/
def honouredMethods (f : SubscriptionFilter) : List Str :=
  (if f.toolsListChanged then [py "notifications/tools/list_changed"] else []) ++
    (if f.promptsListChanged then [py "notifications/prompts/list_changed"] else []) ++
    (if f.resourcesListChanged then [py "notifications/resources/list_changed"] else []) ++
    if f.resourceSubscriptions ≠ [] then [RESOURCE_UPDATED_NOTIFICATION] else []

/-- A filter legitimises only what a stream may carry. -/
theorem honouredMethods_subset (f : SubscriptionFilter) :
    f.honouredMethods ⊆ LISTEN_STREAM_METHODS := by
  intro m hm
  simp only [honouredMethods, List.mem_append, List.mem_ite_nil_right, List.mem_singleton] at hm
  rcases hm with ((⟨-, rfl⟩ | ⟨-, rfl⟩) | ⟨-, rfl⟩) | ⟨-, rfl⟩
  · exact .head _
  · exact .tail _ (.head _)
  · exact .tail _ (.tail _ (.head _))
  · exact .tail _ (.tail _ (.tail _ (.head _)))

/-- No filter legitimises an acknowledgement. -/
theorem honouredMethods_ne {f : SubscriptionFilter} {m : Str} (hm : m ∈ f.honouredMethods) :
    m ≠ ACKNOWLEDGED_NOTIFICATION := by
  rintro rfl
  have hno : ACKNOWLEDGED_NOTIFICATION ∉ LISTEN_STREAM_METHODS := by decide +kernel
  exact hno (f.honouredMethods_subset hm)

end SubscriptionFilter

/-- `build_acknowledgement`: the first frame a server must send. -/
def buildAcknowledgement (subscriptionId : Json) (honoured : SubscriptionFilter) : Members :=
  [(py "jsonrpc", .str (py "2.0")), (py "method", .str ACKNOWLEDGED_NOTIFICATION),
    (py "params", .obj [(py "notifications", .obj honoured.toDict),
      (py "_meta", .obj [(SUBSCRIPTION_ID_META_KEY, subscriptionId)])])]

/-- `build_resource_updated`: revision and digest ride in `_meta`. A subscription id that is null is
none. -/
def buildResourceUpdated (uri : Str) (hint : Option ChangeHint) (subscriptionId : Json) : Members :=
  let heartbeatMeta := (if subscriptionId ≠ .null then [(SUBSCRIPTION_ID_META_KEY, subscriptionId)]
      else []) ++
    match hint with
    | none => []
    | some hint => [(HEARTBEAT_HINT_META_KEY,
        .obj [(py "revision", hint.revision), (py "digest", .str hint.digest)])]
  [(py "jsonrpc", .str (py "2.0")), (py "method", .str RESOURCE_UPDATED_NOTIFICATION),
    (py "params", .obj ([(py "uri", .str uri)] ++
      if heartbeatMeta ≠ [] then [(py "_meta", .obj heartbeatMeta)] else []))]

/-- `parse_hint`: a notification without a well-formed hint carries none. -/
def parseHint (notification : Members) : Option ChangeHint :=
  if notification.get (py "method") ≠ .str RESOURCE_UPDATED_NOTIFICATION then none
  else match (notification.get (py "params")).member (py "uri"),
      ((notification.get (py "params")).member (py "_meta")).member HEARTBEAT_HINT_META_KEY with
    | .str uri, .obj payload =>
      (ChangeHint.fromDict [(py "address", .str uri),
        (py "revision", Members.get payload (py "revision")),
        (py "digest", Members.get payload (py "digest"))]).toOption
    | _, _ => none

/-- **A hint is read back**, under the address of the notification. -/
theorem parseHint_build (uri : Str) {hint : ChangeHint} (subscriptionId : Json)
    (h : isDigest (.str hint.digest) = true) :
    parseHint (buildResourceUpdated uri (some hint) subscriptionId) =
      some { hint with address := .str uri } := by
  have hpayload : (((buildResourceUpdated uri (some hint) subscriptionId).get
      (py "params")).member (py "_meta")).member HEARTBEAT_HINT_META_KEY =
        .obj [(py "revision", hint.revision), (py "digest", .str hint.digest)] := by
    unfold buildResourceUpdated
    by_cases hid : subscriptionId = .null
    · rw [if_neg (not_not.mpr hid)]
      rfl
    · rw [if_pos hid]
      rfl
  have huri : ((buildResourceUpdated uri (some hint) subscriptionId).get
      (py "params")).member (py "uri") = .str uri := rfl
  have hmethod : (buildResourceUpdated uri (some hint) subscriptionId).get (py "method") =
      .str RESOURCE_UPDATED_NOTIFICATION := rfl
  unfold parseHint
  rw [if_neg (not_not.mpr hmethod), hpayload, huri]
  show (ChangeHint.fromDict [(py "address", .str uri), (py "revision", hint.revision),
    (py "digest", .str hint.digest)]).toOption = _
  rw [ChangeHint.fromDict_members h]
  rfl

/-- What `accept` raises. -/
inductive StreamError
  | protocol (message : Str)
  | typeError
deriving DecidableEq

/-- The view a client has of one stream. -/
structure SubscriptionStream where
  subscriptionFilter : SubscriptionFilter
  subscriptionId : Json := .null
  honoured : Option SubscriptionFilter := none
  acknowledged : Bool := false
  received : List Members := []
deriving DecidableEq

/-- The method of a frame. -/
def methodOf (frame : Members) : Json := frame.get (py "method")

/-- The subscription id an acknowledgement carries. -/
def subscriptionIdOf (frame : Members) : Json :=
  ((frame.get (py "params")).member (py "_meta")).member SUBSCRIPTION_ID_META_KEY

namespace SubscriptionStream

variable (repr : Json → Str) (s : SubscriptionStream) (frame : Members)

/-- The filter an acknowledgement claims to honour: the one that was asked for, if it names none.
`none` is a `TypeError`. -/
def claimedFilter : Option SubscriptionFilter :=
  match (frame.get (py "params")).member (py "notifications") with
  | .obj honoured => SubscriptionFilter.fromDict honoured
  | _ => some s.subscriptionFilter

/-- `accept`, on an acknowledgement. -/
def acknowledge : Except StreamError Members × SubscriptionStream :=
  if s.acknowledged then (.error (.protocol (py "subscription acknowledged twice")), s)
  else
    let subscriptionId := subscriptionIdOf frame
    if subscriptionId = .null then
      (.error (.protocol (py "acknowledgement is missing _meta[" ++
        repr (.str SUBSCRIPTION_ID_META_KEY) ++ py "]")), s)
    else
      let s := { s with acknowledged := true, subscriptionId }
      match s.claimedFilter frame with
      | none => (.error .typeError, s)
      | some honoured => (.ok frame, { s with honoured := some honoured })

/-- The filter that later frames are checked against. -/
def inForce : SubscriptionFilter := s.honoured.getD s.subscriptionFilter

/-- `accept`: validate one inbound frame. -/
def accept : Except StreamError Members × SubscriptionStream :=
  let method := methodOf frame
  if method = .str ACKNOWLEDGED_NOTIFICATION then s.acknowledge repr frame
  else if !s.acknowledged then
    (.error (.protocol (repr method ++ py " arrived before " ++ ACKNOWLEDGED_NOTIFICATION)), s)
  -- the methods of a stream are a set
  else if !method.hashable then (.error .typeError, s)
  else if method ∉ LISTEN_STREAM_METHODS.map .str then
    (.error (.protocol (repr method ++ py " is not a subscription-stream notification")), s)
  else if method ∉ s.inForce.honouredMethods.map .str then
    (.error (.protocol (repr method ++ py " was never requested")), s)
  else (.ok frame, { s with received := s.received ++ [frame] })

/-! ## One frame -/

/-- The frame is an acknowledgement that the stream still waits for. -/
structure Acknowledges : Prop where
  waiting : s.acknowledged = false
  method : methodOf frame = .str ACKNOWLEDGED_NOTIFICATION
  id : subscriptionIdOf frame ≠ .null

/-- The frame is a notification that the filter in force legitimises. -/
structure Receives (m : Str) : Prop where
  acknowledged : s.acknowledged = true
  method : methodOf frame = .str m
  honoured : m ∈ s.inForce.honouredMethods

/-- The ways of one frame. -/
inductive Reception : Except StreamError Members × SubscriptionStream → Prop
  | acknowledged (honoured : SubscriptionFilter) (ack : s.Acknowledges frame)
      (claimed : s.claimedFilter frame = some honoured) :
      Reception (.ok frame, { s with acknowledged := true, subscriptionId := subscriptionIdOf frame,
                                     honoured := some honoured })
  /-- Two fields are written before the filter is read. -/
  | halfway (ack : s.Acknowledges frame) (claimed : s.claimedFilter frame = none) :
      Reception (.error .typeError,
        { s with acknowledged := true, subscriptionId := subscriptionIdOf frame })
  | received (m : Str) (receives : s.Receives frame m) :
      Reception (.ok frame, { s with received := s.received ++ [frame] })
  | unhashable (acknowledged : s.acknowledged = true)
      (method : (methodOf frame).hashable = false) : Reception (.error .typeError, s)
  | refused (message : Str) (ack : ¬ s.Acknowledges frame) (stale : ∀ m, ¬ s.Receives frame m)
      (method : s.acknowledged = false ∨ (methodOf frame).hashable = true) :
      Reception (.error (.protocol message), s)

theorem accept_cases : s.Reception frame (s.accept repr frame) := by
  unfold accept
  dsimp only
  split_ifs with hack hopen hhash hlisten hhonoured
  · have hhashable : (methodOf frame).hashable = true := by
      rw [hack]
      rfl
    have hstale : ∀ m, ¬ s.Receives frame m := by
      rintro m ⟨-, hmethod, hm⟩
      exact SubscriptionFilter.honouredMethods_ne hm (Json.str.inj (hmethod.symm.trans hack))
    unfold acknowledge
    dsimp only
    split_ifs with hdone hid
    · exact .refused _ (fun h => by cases h.waiting.symm.trans hdone) hstale (Or.inr hhashable)
    · exact .refused _ (fun h => h.id hid) hstale (Or.inr hhashable)
    · have hwaits : s.Acknowledges frame := ⟨Bool.eq_false_iff.mpr hdone, hack, hid⟩
      have hsame : SubscriptionStream.claimedFilter { s with
          acknowledged := true, subscriptionId := subscriptionIdOf frame } frame =
          s.claimedFilter frame := rfl
      rw [hsame]
      cases hf : s.claimedFilter frame with
      | none => exact .halfway hwaits hf
      | some honoured => exact .acknowledged honoured hwaits hf
  · have hwaiting : s.acknowledged = false := by simpa using hopen
    refine .refused _ (fun h => hack h.method) ?_ (Or.inl hwaiting)
    exact fun m h => by cases hwaiting.symm.trans h.acknowledged
  · exact .unhashable (by simpa using hopen) (by simpa using hhash)
  · obtain ⟨m, hm, hmethod⟩ := List.mem_map.mp hhonoured
    exact .received m ⟨by simpa using hopen, hmethod.symm, hm⟩
  · refine .refused _ (fun h => hack h.method) ?_ (Or.inr (by simpa using hhash))
    exact fun m h => hhonoured (List.mem_map.mpr ⟨m, h.honoured, h.method.symm⟩)
  · refine .refused _ (fun h => hack h.method) ?_ (Or.inr (by simpa using hhash))
    exact fun m h => hlisten (List.mem_map.mpr
      ⟨m, SubscriptionFilter.honouredMethods_subset _ h.honoured, h.method.symm⟩)

end SubscriptionStream

/-- A caller that catches what is raised; the journal is the frames that were accepted. -/
def stream (repr : Json → Str) : Machine SubscriptionStream Members Members where
  next s frame := (s.accept repr frame).2
  entry s frame := (s.accept repr frame).1.toOption

end McpHeartbeat
