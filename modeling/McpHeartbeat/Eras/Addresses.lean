import McpHeartbeat.Core.Digest
import McpHeartbeat.Current.Addressing
import McpHeartbeat.Eras.Identifiers

/-!
# Addresses of both eras

* `escape_not_mem`, `quote_of_node`: an id holds no escape, and can be quoted;
* `decode_twice`: quoted, it is read back, once and again;
* **`addresses_round_trip`**: an address is that of one participant, in either era.
-/

namespace McpHeartbeat

open Legacy

variable {p : Str}

/-- No id contains an escape. -/
theorem escape_not_mem (hp : NODE_ID_RE p = true) : .scalar '%' ∉ p := by
  intro hmem
  have hsymbol := symbol_of_mem_dollar hp hmem
  revert hsymbol
  decide

theorem ne_nil_of_node (hp : NODE_ID_RE p = true) : p ≠ [] := by
  rintro rfl
  cases hp

/-- An id can be quoted. -/
theorem quote_of_node (hp : NODE_ID_RE p = true) : ∃ segment, p.quote = some segment := by
  have hwf : p.WellFormed := wellFormed_matchDollar (fun _ => wellFormed_idWord) hp
  obtain ⟨bytes, hbytes⟩ := Option.isSome_iff_exists.mp ((Str.encode_isSome p).mpr hwf)
  exact ⟨_, congrArg (Option.map _) hbytes⟩

/-- Quoted, an id is read back, and what is read back is read as itself. -/
theorem decode_twice (hp : NODE_ID_RE p = true) {segment : Str} (h : p.quote = some segment) :
    participantFromUriSegment segment = p ∧
      participantFromUriSegment (participantFromUriSegment segment) = p := by
  have honce : participantFromUriSegment segment = p := Str.unquote_quote h
  refine ⟨honce, ?_⟩
  rw [honce]
  exact Str.unquote_eq_self (escape_not_mem hp)

/-- **An address is that of one participant.** Under the default template it is one segment below that
of all participants, which is read as the id whether it is decoded once or twice; different ids have
different addresses; and the legacy address is read as the id. -/
theorem addresses_round_trip (rich : Str → Except AddressError Str) (repr : Json → Str)
    {capability : HeartbeatCapability}
    (htemplate : capability.resourceUriTemplate = DEFAULT_RESOURCE_URI_TEMPLATE)
    (hp : NODE_ID_RE p = true) :
    (∃ segment, capability.resourceUri rich p = .ok (PARTICIPANTS ++ segment) ∧
      IsSegment segment ∧
      participantFromUriSegment segment = p ∧
      participantFromUriSegment (participantFromUriSegment segment) = p) ∧
    (∀ q, NODE_ID_RE q = true → q ≠ p →
      capability.resourceUri rich q ≠ capability.resourceUri rich p) ∧
    participantFromUri repr (.str (heartbeatUri p)) = .ok p := by
  obtain ⟨segment, hsegment⟩ := quote_of_node hp
  have huri := resourceUri_default rich htemplate hsegment
  obtain ⟨honce, htwice⟩ := decode_twice hp hsegment
  refine ⟨⟨segment, huri, isSegment_quote (ne_nil_of_node hp) hsegment, honce, htwice⟩, ?_,
    participantFromUri_heartbeatUri repr (ne_nil_of_node hp)⟩
  intro q hq hne heq
  obtain ⟨other, hother⟩ := quote_of_node hq
  rw [huri, resourceUri_default rich htemplate hother] at heq
  have hsame : other = segment := List.append_cancel_left (Except.ok.inj heq)
  refine hne ?_
  rw [← (decode_twice hq hother).1, hsame, honce]

theorem addresses_round_trip_nested :
    (∃ segment, ({} : HeartbeatCapability).resourceUri (fun _ => .error .indexError)
        (py "ns:svc/a+b") = .ok (PARTICIPANTS ++ segment) ∧
      IsSegment segment ∧
      participantFromUriSegment segment = py "ns:svc/a+b" ∧
      participantFromUriSegment (participantFromUriSegment segment) = py "ns:svc/a+b") ∧
    (∀ q, NODE_ID_RE q = true → q ≠ py "ns:svc/a+b" →
      ({} : HeartbeatCapability).resourceUri (fun _ => .error .indexError) q ≠
        ({} : HeartbeatCapability).resourceUri (fun _ => .error .indexError) (py "ns:svc/a+b")) ∧
    participantFromUri (fun _ => []) (.str (heartbeatUri (py "ns:svc/a+b"))) =
      .ok (py "ns:svc/a+b") :=
  addresses_round_trip _ _ rfl (by decide)

end McpHeartbeat
