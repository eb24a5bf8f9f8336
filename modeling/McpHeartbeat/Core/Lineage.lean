import Mathlib.Data.Finset.Insert
import McpHeartbeat.Core.Validation

/-!
# Admission

Does a candidate heartbeat supersede what is already held? A pure function of the held state, the
candidate document and the current instant.

* `LineageState`, `Admission`; `isDuplicate`, `checkLineage`, `checkFreshness`, **`admitDocument`**.

The bound `max_skew_seconds` is the largest number of whole microseconds it lets through, `none`
when it lets everything through: the comparison of `total_seconds()` with it says no more.
-/

namespace McpHeartbeat

variable (P : Platform)

/-- What a consumer remembers about one participant. -/
structure LineageState where
  participantId : Str
  held : Option Heartbeat := none
  retiredEpochs : Finset (Option Str) := ∅
deriving DecidableEq

/-- The outcome of one admission attempt. -/
structure Admission where
  state : LineageState
  reason : Option ViolationCode := none
  duplicate : Bool := false
deriving DecidableEq

/-- `Admission.accepted`: the candidate became the held heartbeat. -/
def Admission.accepted (a : Admission) : Bool := a.reason.isNone && !a.duplicate

/-- Default bound on `|issued_at - now|`: five seconds. -/
def DEFAULT_MAX_SKEW : Option ℤ := some (5 * second)

/-- `a < b` of two sequences; an order with `None` is a `TypeError`. -/
def sequenceLt : Option ℤ → Option ℤ → Except Error Bool
  | some a, some b => .ok (decide (a < b))
  | _, _ => .error .typeError

/-- `check_lineage`. -/
def checkLineage (state : LineageState) (candidate : Heartbeat) :
    Except Error (Option ViolationCode) :=
  let fresh := if candidate.bootId ∈ state.retiredEpochs then some .bootIdReuse else none
  match state.held with
  | none => .ok fresh
  | some held =>
    if candidate.bootId ≠ held.bootId then .ok fresh
    else do
      if ← sequenceLt candidate.sequence held.sequence then return some .sequenceRollback
      if candidate.sequence = held.sequence then
        return if (← candidate.digest P) = (← held.digest P) then none else some .sequenceConflict
      return none

/-- `is_duplicate`: the held revision, redelivered. -/
def isDuplicate (state : LineageState) (candidate : Heartbeat) : Except Error Bool :=
  match state.held with
  | none => .ok false
  | some held =>
    if candidate.bootId = held.bootId ∧ candidate.sequence = held.sequence then do
      return decide ((← candidate.digest P) = (← held.digest P))
    else .ok false

/-- `check_freshness`. -/
def checkFreshness (candidate : Heartbeat) (now : ℤ) (maxSkew : Option ℤ) :
    Option ViolationCode :=
  if maxSkew.any fun bound : ℤ => bound < (candidate.issuedAt.instant - now).natAbs then
    some .clockSkewExceeded
  else if !candidate.isFresh now then some .expiredOnArrival
  else none

/-- `admit`: the five normative checks, in order. -/
def admitDocument (state : LineageState) (document : Json) (now : ℤ) (maxSkew : Option ℤ) :
    Except Error Admission := do
  match ← documentReason document with
  | some reason => return { state, reason := some reason }
  | none =>
    let candidate ← Heartbeat.fromDict document
    if candidate.nodeId ≠ some state.participantId then
      return { state, reason := some .nodeIdMismatch }
    else if ← isDuplicate P state candidate then
      return { state, duplicate := true }
    else
      match ← checkLineage P state candidate with
      | some reason => return { state, reason := some reason }
      | none =>
        match checkFreshness candidate now maxSkew with
        | some reason => return { state, reason := some reason }
        | none =>
          return { state := { state with
                    held := some candidate
                    retiredEpochs := insert candidate.bootId state.retiredEpochs } }

end McpHeartbeat
