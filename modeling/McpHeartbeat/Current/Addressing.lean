import McpHeartbeat.Current.Discovery
import McpHeartbeat.Py.Quote

/-!
# Addressing

Where the lease of a participant is read from. An id may hold slashes, colons and plus signs, and is
one segment of its address.

* `formatFrom`: `str.format` of a template with one name;
* `HeartbeatCapability.resourceUri`, `participantFromUriSegment`;
* `IsSegment`: one path segment; `isSegment_quote`;
* `resourceUri_default`: the addresses of the default template.

What is made of a positional field, or of one with an index, a conversion or a format of its own, is a
parameter.
-/

namespace McpHeartbeat

open Base

/-- What asking for an address raises. -/
inductive AddressError
  | unencodable
  | keyError (name : Str)
  | indexError
  | valueError (message : Str)
deriving DecidableEq

/-- Where the reading of a template stands. -/
inductive TemplatePlace
  | text
  | opened (name : Str)
  | closed

variable (rich : Str → Except AddressError Str)

/-- `template.format(participant_id=value)`, of what is left of the template. -/
def formatFrom (value : Str) : TemplatePlace → Str → Except AddressError Str
  | .text, [] => .ok []
  | .closed, [] => .error (.valueError (py "Single '\x7d' encountered in format string"))
  | .opened [], [] => .error (.valueError (py "Single '\x7b' encountered in format string"))
  | .opened (_ :: _), [] => .error (.valueError (py "expected '\x7d' before end of string"))
  | .text, c :: s =>
    if c = .scalar '\x7b' then formatFrom value (.opened []) s
    else if c = .scalar '\x7d' then formatFrom value .closed s
    else (formatFrom value .text s).map (c :: ·)
  | .closed, c :: s =>
    if c = .scalar '\x7d' then (formatFrom value .text s).map (c :: ·)
    else .error (.valueError (py "Single '\x7d' encountered in format string"))
  | .opened name, c :: s =>
    if c = .scalar '\x7b' then
      if name = [] then (formatFrom value .text s).map (c :: ·)
      else .error (.valueError (py "unexpected '\x7b' in field name"))
    else if c = .scalar '\x7d' then
      if name = py "participant_id" then (formatFrom value .text s).map (value ++ ·)
      -- a name that may be a number is that of a positional field
      else if name.all fun d => !d.isAscii || (py "0123456789").contains d then rich (name ++ c :: s)
      else .error (.keyError name)
    else if (py "[.!:").contains c then rich (name ++ c :: s)
    else formatFrom value (.opened (name ++ [c])) s

/-- `resource_uri`. -/
def HeartbeatCapability.resourceUri (capability : HeartbeatCapability) (participantId : Str) :
    Except AddressError Str :=
  match participantId.quote with
  | none => .error .unencodable
  | some quoted => formatFrom rich quoted .text capability.resourceUriTemplate

/-- `participant_from_uri_segment`. -/
def participantFromUriSegment (segment : Str) : Str := segment.unquote

/-! ## What an address is -/

/-- What stands before the participant in an address. -/
def PARTICIPANTS : Str := py "heartbeat://participants/"

/-- One path segment: it is not empty, and nothing in it ends the segment or the path. -/
structure IsSegment (s : Str) : Prop where
  nonempty : s ≠ []
  inside : ∀ c ∈ s, c ∉ [CodePoint.scalar '/', .scalar '?', .scalar '#']

theorem isSegment_quote {s t : Str} (hs : s ≠ []) (h : s.quote = some t) : IsSegment t where
  nonempty := Str.quote_ne_nil h hs
  inside := by
    intro c hc
    have hall : (ALWAYS_SAFE.all fun d =>
        CodePoint.scalar d ∉ [CodePoint.scalar '/', .scalar '?', .scalar '#']) = true := by decide
    rcases Str.safe_of_mem_quote h hc with rfl | ⟨d, hd, rfl⟩
    · decide
    · exact of_decide_eq_true (List.all_eq_true.mp hall d hd)

/-- **The addresses of the default template.** -/
theorem resourceUri_default {capability : HeartbeatCapability}
    (h : capability.resourceUriTemplate = DEFAULT_RESOURCE_URI_TEMPLATE) {p quoted : Str}
    (hp : p.quote = some quoted) :
    capability.resourceUri rich p = .ok (PARTICIPANTS ++ quoted) := by
  rw [HeartbeatCapability.resourceUri, hp, h]
  have happend : formatFrom rich quoted .text DEFAULT_RESOURCE_URI_TEMPLATE =
      .ok (PARTICIPANTS ++ (quoted ++ [])) := rfl
  rw [List.append_nil] at happend
  exact happend

end McpHeartbeat
