import Mathlib.Data.Finset.Insert
import McpHeartbeat.Legacy.Era

/-!
# Capabilities

* `advertise`: the capability object of `initialize`, derived from the method registry;
* `agreementViolations`: the audit of an advertisement that came from somewhere else.
-/

namespace McpHeartbeat.Legacy

/-- Reading the authoritative document. -/
def AUTHORITATIVE_READ_METHOD : Str := py "resources/read"

/-- The registry entry that `resources.subscribe` claims. -/
def SUBSCRIBE_METHOD : Str := py "resources/subscribe"

def UNSUBSCRIBE_METHOD : Str := py "resources/unsubscribe"

/-- The registry entry that `resources.listChanged` claims. -/
def LIST_CHANGED_METHOD : Str := py "notifications/resources/list_changed"

/-- `advertise`: every flag is a question asked of the registry. -/
def advertise (implemented : Finset Str) : Json :=
  .obj ([(py "resources", .obj [
      (py "subscribe", .bool (decide (SUBSCRIBE_METHOD ∈ implemented))),
      (py "listChanged", .bool (decide (LIST_CHANGED_METHOD ∈ implemented)))])] ++
    if AUTHORITATIVE_READ_METHOD ∈ implemented then
      [(HEARTBEAT_NAMESPACE, .obj [(HEARTBEAT_CAPABILITY,
        .obj [(py "extension_version", .str EXTENSION_VERSION)])])]
    else [])

/-- A flag of `resources`, against the registry entry that it claims. -/
def flagViolations (resources : Members) (implemented : Finset Str) (flag method : Str) :
    List Str :=
  let claimed := (resources.get flag).truthy
  let present := decide (method ∈ implemented)
  if claimed ∧ ¬ present then
    [py "advertises resources." ++ flag ++ py " but serves no " ++ method ++ py " handler"]
  else if present ∧ ¬ claimed then
    [py "serves " ++ method ++ py " but does not advertise resources." ++ flag]
  else []

/-- The heartbeat is advertised, and cannot be read. -/
def UNREADABLE : Str :=
  py "advertises " ++ HEARTBEAT_NAMESPACE ++ py "." ++ HEARTBEAT_CAPABILITY ++
    py " but serves no " ++ AUTHORITATIVE_READ_METHOD ++ py "; a hint alone cannot carry a lease"

/-- The identifier of the other era is advertised. -/
def ADVERTISED_MODERN : Str :=
  py "advertises the modern identifier " ++ MODERN_EXTENSION_ID ++
    py " on a legacy session; era boundaries must be explicit"

/-- `agreement_violations`: every place where an advertisement and a registry disagree. -/
def agreementViolations (advertised : Members) (implemented : Finset Str) : List Str :=
  match (advertised.get (py "resources")).orEmpty with
  | .obj resources =>
    flagViolations resources implemented (py "subscribe") SUBSCRIBE_METHOD ++
      flagViolations resources implemented (py "listChanged") LIST_CHANGED_METHOD ++
      (if (advertised.get HEARTBEAT_NAMESPACE).orEmpty.contains HEARTBEAT_CAPABILITY ∧
          AUTHORITATIVE_READ_METHOD ∉ implemented then [UNREADABLE] else []) ++
      if (advertised.get (py "extensions")).orEmpty.contains MODERN_EXTENSION_ID then
        [ADVERTISED_MODERN] else []
  | _ => [py "capabilities.resources must be an object"]

end McpHeartbeat.Legacy
