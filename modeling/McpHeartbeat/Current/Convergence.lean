import Mathlib.Data.Rat.Floor
import McpHeartbeat.Core.Lineage
import McpHeartbeat.Core.Ports
import McpHeartbeat.Current.Identity

/-!
# Authoritative refetch

* `FetchResult`, `ConvergenceVerdict`: what a source serves, and what one refetch established;
* `HeartbeatConsumer`: one participant's lease across an unreliable hint channel;
* `isFresh`, `refetchDeadline`, `due`, `onHint`, **`refetch`**, `poll`: its methods, with the state
  they leave.

The source and the binder factory are collaborators: a call of `refetch` is given what they answer
at that call. A method that raises leaves the fields it had written. Seconds are rational numbers.
-/

namespace McpHeartbeat

variable (P : Platform)

/-- What one refetch established. -/
inductive Convergence
  | advanced
  | unchanged
  | refused
  | identityUnbound
  | nonAuthoritative
  | unreachable
deriving DecidableEq, Repr

/-- One authoritative read, with its request's principal. -/
structure FetchResult where
  document : Json
  principal : Option Principal := none

/-- What the binder factory answers: an error is the name of what it raises, `none` is an object that
is no binder. -/
abbrev BinderFactory := Option Principal → Except Str (Option RequestIdentityBinder)

/-- `lambda principal: RequestIdentityBinder(policy, principal)`. -/
def binderOver (policy : PermittedParticipants) : BinderFactory :=
  fun principal => .ok (some { policy, principal })

/-- A reason: a code of the core, or a text of the adapter. -/
inductive Reason
  | code (c : ViolationCode)
  | text (s : Str)
deriving DecidableEq

/-- The outcome of one refetch, and the state it left behind. -/
structure ConvergenceVerdict where
  convergence : Convergence
  participantId : Str
  binding : Option ResponseBinding := none
  reason : Option Reason := none
  held : Option Heartbeat := none
deriving DecidableEq

/-- What comes out of a method: an error of the core, what a collaborator raised, or the `TypeError`
of a factory that made no binder. -/
inductive Raised
  | core (e : Error)
  | collaborator (name : Str)
  | notBinder
deriving DecidableEq

/-- Tracks one participant's lease across an unreliable hint channel. -/
structure HeartbeatConsumer where
  participantId : Str
  maxSkew : Option ℤ := DEFAULT_MAX_SKEW
  refetchFraction : ℚ := 1 / 2
  maxRefetchInterval : ℚ := 60
  state : LineageState
  lastBinding : Option ResponseBinding := none
  refetchPending : Bool := false
  lastFetchAt : Option ℤ := none
  hintsSeen : ℕ := 0
  hintsCoalesced : ℕ := 0
  fetches : ℕ := 0

/-- `round` to an even neighbour. -/
def roundHalfEven (q : ℚ) : ℤ :=
  if q - ⌊q⌋ < 1 / 2 then ⌊q⌋
  else if 1 / 2 < q - ⌊q⌋ then ⌊q⌋ + 1
  else if ⌊q⌋ % 2 = 0 then ⌊q⌋ else ⌊q⌋ + 1

namespace HeartbeatConsumer

/-- `HeartbeatConsumer.__init__`. -/
def init (participantId : Str) (maxSkew : Option ℤ) (refetchFraction maxRefetchInterval : ℚ) :
    HeartbeatConsumer :=
  { participantId, maxSkew, refetchFraction, maxRefetchInterval, state := { participantId } }

variable (c : HeartbeatConsumer)

/-- `HeartbeatConsumer.held`. -/
def held : Option Heartbeat := c.state.held

/-- `is_fresh`. -/
def isFresh (now : ℤ) : Bool := c.held.any fun held => held.isFresh now

/-- `refetch_deadline`: `None` before anything is held. -/
def refetchDeadline : Except Raised (Option ℤ) :=
  match c.held, c.lastFetchAt with
  | some held, some lastFetchAt =>
    let window : ℚ := (held.expiresAt.instant - lastFetchAt : ℤ) / (second : ℚ)
    let interval := min (max window 0 * c.refetchFraction) c.maxRefetchInterval
    match Datetime.ofInstant? (lastFetchAt + roundHalfEven (interval * second)) with
    | some deadline => .ok (some deadline.instant)
    | none => .error (.core .overflowError)
  | _, _ => .ok none

/-- `due`: whether a refetch is owed, by hint or by deadline. -/
def due (now : ℤ) : Except Raised Bool :=
  if c.refetchPending || c.held.isNone then .ok true
  else match c.refetchDeadline with
    | .error e => .error e
    | .ok none => .ok true
    | .ok (some deadline) => .ok (decide (deadline ≤ now))

/-- `on_hint`: record a change hint; whether it scheduled a new refetch. -/
def onHint (hint : Option ChangeHint) : Except Raised Bool × HeartbeatConsumer :=
  let c := { c with hintsSeen := c.hintsSeen + 1 }
  let matched : Except Error Bool :=
    match hint, c.held with
    | some hint, some held => hint.matches P held
    | _, _ => .ok false
  match matched with
  | .error e => (.error (.core e), c)
  | .ok true => (.ok false, c)
  | .ok false =>
    if c.refetchPending then (.ok false, { c with hintsCoalesced := c.hintsCoalesced + 1 })
    else (.ok true, { c with refetchPending := true })

/-- `_bind`: the binding of one response, if the consumer was given a factory. -/
def bind (factory : Option BinderFactory) (result : FetchResult) :
    Except Raised (Option ResponseBinding) :=
  match factory with
  | none => .ok none
  | some factory =>
    match factory result.principal with
    | .error name => .error (.collaborator name)
    | .ok none => .error .notBinder
    | .ok (some binder) =>
      match binder.evaluate c.participantId with
      | .error name => .error (.collaborator name)
      | .ok binding => .ok (some binding)

/-- The verdict on a response that may not move held state, if its binding says so. -/
def withheld (binding : Option ResponseBinding) : Option ConvergenceVerdict :=
  match binding with
  | none => none
  | some binding =>
    match enforce binding with
    | .error _ =>
      some { convergence := .identityUnbound, participantId := c.participantId, binding,
             reason := some (.text (py "principal_not_permitted")), held := c.held }
    | .ok _ =>
      if binding.binding ≠ .bound then
        some { convergence := .nonAuthoritative, participantId := c.participantId, binding,
               reason := binding.reason.map .text, held := c.held }
      else none

/-- What a response that may move held state does. -/
def reconcile (binding : Option ResponseBinding) (document : Json) (now : ℤ) :
    Except Raised ConvergenceVerdict × HeartbeatConsumer :=
  match admitDocument P c.state document now c.maxSkew with
  | .error (.heartbeat e) =>
    (.ok { convergence := .refused, participantId := c.participantId, binding,
           reason := some (.code e.code), held := c.held }, c)
  | .error e => (.error (.core e), c)
  | .ok admission =>
    let c := { c with state := admission.state }
    if admission.duplicate then
      (.ok { convergence := .unchanged, participantId := c.participantId, binding,
             held := c.held }, c)
    else match admission.reason with
      | some reason =>
        (.ok { convergence := .refused, participantId := c.participantId, binding,
               reason := some (.code reason), held := c.held }, c)
      | none =>
        (.ok { convergence := .advanced, participantId := c.participantId, binding,
               held := c.held }, c)

/-- `refetch`: fetch the authoritative lease and reconcile it. `fetched` is what the source returns,
or the name of the exception it raises. -/
def refetch (factory : Option BinderFactory) (fetched : Except Str FetchResult) (now : ℤ) :
    Except Raised ConvergenceVerdict × HeartbeatConsumer :=
  let c := { c with refetchPending := false, fetches := c.fetches + 1 }
  match fetched with
  | .error name =>
    (.ok { convergence := .unreachable, participantId := c.participantId,
           reason := some (.text name), held := c.held }, c)
  | .ok result =>
    let c := { c with lastFetchAt := some now }
    match c.bind factory result with
    | .error e => (.error e, c)
    | .ok binding =>
      let c := { c with lastBinding := binding }
      match c.withheld binding with
      | some verdict => (.ok verdict, c)
      | none => c.reconcile P binding result.document now

/-- `poll`: refetch if one is owed. -/
def poll (factory : Option BinderFactory) (fetched : Except Str FetchResult) (now : ℤ) :
    Except Raised (Option ConvergenceVerdict) × HeartbeatConsumer :=
  match c.due now with
  | .error e => (.error e, c)
  | .ok false => (.ok none, c)
  | .ok true =>
    let (answer, c) := c.refetch P factory fetched now
    (answer.map some, c)

end HeartbeatConsumer

end McpHeartbeat
