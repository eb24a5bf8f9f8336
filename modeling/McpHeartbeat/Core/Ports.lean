import McpHeartbeat.Core.Model

/-!
# Change hints

A notification that a heartbeat changed: an address and bounded revision metadata, no state.

* `ChangeHint`: `fromDict`, `forHeartbeat`, **`matches`**;
* `isDigest`: the texts that can be a digest; `isDigest_hex`.
-/

namespace McpHeartbeat

variable (P : Platform)

/-! ## Digests -/

/-- `[0-9a-f]`. -/
def isHex (c : CodePoint) : Bool := (py "0123456789abcdef").contains c

/-- `sha256:[0-9a-f]{64}`. -/
def digestWord (s : Str) : Bool :=
  s.take 7 == py "sha256:" && decide ((s.drop 7).length = 64) && (s.drop 7).all isHex

/-- `_DIGEST_RE.match`. -/
def DIGEST_RE (s : Str) : Bool := matchDollar digestWord s

/-- `is_digest`. -/
def isDigest : Json → Bool
  | .str s => DIGEST_RE s
  | _ => false

/-- What `hexdigest()` of a SHA-256 looks like. -/
def Platform.Hexadecimal : Prop :=
  ∀ raw, (P.sha256 raw).length = 64 ∧ (P.sha256 raw).all isHex = true

/-- **What is hashed is a digest.** -/
theorem isDigest_hex {P : Platform} (hhex : P.Hexadecimal) (raw : ByteArray) :
    isDigest (.str (py "sha256:" ++ P.sha256 raw)) = true := by
  obtain ⟨hlength, hall⟩ := hhex raw
  have hword : digestWord (py "sha256:" ++ P.sha256 raw) = true := by
    have htake : (py "sha256:" ++ P.sha256 raw).take 7 = py "sha256:" := rfl
    have hdrop : (py "sha256:" ++ P.sha256 raw).drop 7 = P.sha256 raw := rfl
    rw [digestWord, htake, hdrop, hlength, hall]
    rfl
  show matchDollar digestWord _ = true
  rw [matchDollar, hword, Bool.true_or]

/-! ## Hints -/

/-- `f"{boot_id}:{sequence}"`. -/
def Heartbeat.revision (h : Heartbeat) : Str :=
  h.bootId.getD (py "None") ++ py ":" ++ (h.sequence.map Json.intText).getD (py "None")

/-- A notification that a participant's heartbeat changed. Of a hint from the wire only the digest
is checked. -/
structure ChangeHint where
  address : Json
  revision : Json
  digest : Str
deriving DecidableEq

namespace ChangeHint

/-- `ChangeHint.from_dict`; an error is the violations of an `InvalidHeartbeat`. -/
def fromDict (raw : Members) : Except (List Str) ChangeHint :=
  let missing := [py "address", py "revision", py "digest"].filter fun k => !raw.has k
  if missing ≠ [] then .error (missing.map fun k => py "hint missing required field: " ++ k)
  else match raw.get (py "digest") with
    | .str digest =>
      if isDigest (.str digest) then
        .ok { address := raw.get (py "address"), revision := raw.get (py "revision"), digest }
      else .error [py "hint digest must be a 'sha256:<64 hex>' digest"]
    | _ => .error [py "hint digest must be a 'sha256:<64 hex>' digest"]

/-- `ChangeHint.for_heartbeat`. -/
def forHeartbeat (heartbeat : Heartbeat) (address : Str) : Except Error ChangeHint := do
  return { address := .str address, revision := .str heartbeat.revision,
           digest := ← heartbeat.digest P }

end ChangeHint

/-- `ChangeHint.matches`: the digest is taken only at the announced revision. -/
def ChangeHint.matches (hint : ChangeHint) (h : Heartbeat) : Except Error Bool :=
  if hint.revision = .str h.revision then do
    return decide (hint.digest = (← h.digest P))
  else .ok false

/-- What is read back of a hint. -/
theorem ChangeHint.fromDict_members {address revision : Json} {digest : Str}
    (h : isDigest (.str digest) = true) :
    ChangeHint.fromDict [(py "address", address), (py "revision", revision),
        (py "digest", .str digest)] = .ok { address, revision, digest } := by
  show (if isDigest (.str digest) = true then Except.ok (ChangeHint.mk address revision digest)
    else .error _) = _
  rw [if_pos h]

/-- **What a hint matches.** -/
theorem ChangeHint.matches_iff {P : Platform} {hint : ChangeHint} {h : Heartbeat} :
    hint.matches P h = .ok true ↔
      hint.revision = .str h.revision ∧ h.digest P = .ok hint.digest := by
  unfold ChangeHint.matches
  by_cases hr : hint.revision = .str h.revision
  · rw [if_pos hr]
    cases h.digest P with
    | error e => simp [hr]
    | ok x => simp [hr, eq_comm]
  · rw [if_neg hr]
    simp [hr]

end McpHeartbeat
