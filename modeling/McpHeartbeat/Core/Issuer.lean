import McpHeartbeat.Base.Machine
import McpHeartbeat.Core.Judgement

/-!
# The producer side

A participant mints its heartbeats with one issuer after another.

* `HeartbeatIssuer`, `HeartbeatIssuer.issue`;
* `Act`, `publisher`: restarts and issues in any order; the journal is what was minted;
* `Minted`: the invariant of a publisher; **`minted_publisher`**: restarts that never use an epoch
  again mint a ledger.

The lease is what `timedelta(seconds=lease_seconds)` holds, in microseconds.
-/

namespace McpHeartbeat

open Base

/-- The epoch it was constructed with, and the counter within it. -/
structure HeartbeatIssuer where
  participantId : Str
  epochId : Str
  lease : ℤ
  extensions : Members
  nextSequence : ℕ := 0

namespace HeartbeatIssuer

/-- `epoch_id or mint_epoch_id()`; `token` is what `mint_epoch_id()` returns if it is called. -/
def epochOr (epochId : Option Str) (token : Str) : Str := (epochId.filter (· ≠ [])).getD token

/-- `HeartbeatIssuer.__init__`. -/
def init (participantId : Str) (epochId : Option Str) (token : Str) (lease : ℤ)
    (extensions : Members) : HeartbeatIssuer :=
  { participantId, epochId := epochOr epochId token, lease, extensions }

/-- `HeartbeatIssuer.issue`, at the instant `now` of the clock. -/
def issue (s : HeartbeatIssuer) (now : Datetime) : Except Error Heartbeat × HeartbeatIssuer :=
  match now.add? s.lease with
  | none => (.error .overflowError, s)
  | some expiresAt =>
    (.ok { nodeId := some s.participantId
           bootId := some s.epochId
           sequence := some s.nextSequence
           issuedAt := now
           expiresAt
           extensionVersion := EXTENSION_VERSION
           extensions := s.extensions },
      { s with nextSequence := s.nextSequence + 1 })

end HeartbeatIssuer

/-- What a participant does: it starts an issuer, or issues with the one it has. -/
inductive Act
  | restart (epochId : Option Str) (token : Str) (lease : ℤ) (extensions : Members)
  | issue (now : Datetime)

namespace Act

/-- The epoch a restart begins. -/
def epoch? : Act → Option Str
  | .restart epochId token _ _ => some (HeartbeatIssuer.epochOr epochId token)
  | .issue _ => none

end Act

/-- A participant that drops its issuer at a restart; the journal is the heartbeats it mints. -/
def publisher (p : Str) : Machine (Option HeartbeatIssuer) Act Heartbeat where
  next
    | _, .restart epochId token lease extensions => some (.init p epochId token lease extensions)
    | s, .issue now => s.map fun s => (s.issue now).2
  entry
    | _, .restart .. => none
    | s, .issue now => s.bind fun s => (s.issue now).1.toOption

/-- The heartbeats a participant mints, oldest first. -/
def minted (p : Str) (acts : List Act) : List Heartbeat := (publisher p).journal none acts

variable {p : Str} {used : List Str} {past : List Heartbeat} {s : HeartbeatIssuer}

/-! ## The invariant -/

/-- The next heartbeat of `s` opens its epoch, or rises over the last one, which is of that epoch. -/
def HeartbeatIssuer.Continues (s : HeartbeatIssuer) (past : List Heartbeat) : Prop :=
  (∀ h ∈ past, h.bootId ≠ some s.epochId) ∨
    ∃ l h, past = l ++ [h] ∧ h.bootId = some s.epochId ∧
      ∃ n : ℤ, h.sequence = some n ∧ n < s.nextSequence

/-- What a publisher that began the epochs `used` has minted. -/
structure Minted (p : Str) (used : List Str) (issuer : Option HeartbeatIssuer)
    (past : List Heartbeat) : Prop where
  ledger : Ledger Heartbeat.bootId Rises past
  addressed : ∀ h ∈ past, h.nodeId = some p
  epochs : ∀ h ∈ past, ∃ e ∈ used, h.bootId = some e
  issuer : ∀ s, issuer = some s → s.participantId = p ∧ s.epochId ∈ used ∧ s.Continues past

theorem Minted.start (p : Str) : Minted p [] none [] where
  ledger := Ledger.nil
  addressed := by simp
  epochs := by simp
  issuer := by simp

/-- A restart into an epoch that was never used. -/
theorem Minted.restart {issuer : Option HeartbeatIssuer} (h : Minted p used issuer past)
    {epochId : Option Str} {token : Str} (lease : ℤ) (extensions : Members)
    (hnew : HeartbeatIssuer.epochOr epochId token ∉ used) :
    Minted p (used ++ [HeartbeatIssuer.epochOr epochId token])
      (some (.init p epochId token lease extensions)) past where
  ledger := h.ledger
  addressed := h.addressed
  epochs g hg := by
    obtain ⟨e, he, hb⟩ := h.epochs g hg
    exact ⟨e, List.mem_append_left _ he, hb⟩
  issuer s hs := by
    obtain rfl := Option.some.inj hs
    refine ⟨rfl, List.mem_append_right _ List.mem_cons_self, Or.inl fun g hg hb => ?_⟩
    obtain ⟨e, he, hb'⟩ := h.epochs g hg
    obtain rfl : e = HeartbeatIssuer.epochOr epochId token :=
      Option.some.inj (hb'.symm.trans hb)
    exact hnew he

/-- What one issue mints. -/
theorem issue_cases (s : HeartbeatIssuer) (now : Datetime) :
    (s.issue now = (.error .overflowError, s)) ∨
      ∃ h, s.issue now = (.ok h, { s with nextSequence := s.nextSequence + 1 }) ∧
        h.nodeId = some s.participantId ∧ h.bootId = some s.epochId ∧
        h.sequence = some (s.nextSequence : ℤ) := by
  unfold HeartbeatIssuer.issue
  cases now.add? s.lease with
  | none => exact Or.inl rfl
  | some expiresAt => exact Or.inr ⟨_, rfl, rfl, rfl, rfl⟩

/-- An issue. -/
theorem Minted.issue (h : Minted p used (some s) past) (now : Datetime) :
    Minted p used (some (s.issue now).2) (past ++ (s.issue now).1.toOption.toList) := by
  obtain ⟨hp, he, hcont⟩ := h.issuer s rfl
  rcases issue_cases s now with hi | ⟨g, hi, hn, hb, hs⟩
  · have hnone : (s.issue now).1.toOption.toList = [] := by rw [hi]; rfl
    rw [hnone, List.append_nil, hi]
    exact h
  · have hsome : (s.issue now).1.toOption.toList = [g] := by rw [hi]; rfl
    rw [hsome, hi]
    refine ⟨?_, List.forall_mem_append.mpr ⟨h.addressed, by simp [hn, hp]⟩,
      List.forall_mem_append.mpr ⟨h.epochs, by simpa [hb] using he⟩, fun s' hs' => ?_⟩
    · rcases hcont with hnew | ⟨l, f, rfl, hf, n, hfn, hlt⟩
      · exact h.ledger.concat_new fun f hf hfb => hnew f hf (hfb.trans hb)
      · exact h.ledger.concat_same (hb.trans hf.symm) ⟨n, _, hfn, hs, hlt⟩
    · obtain rfl := Option.some.inj hs'
      refine ⟨hp, he, Or.inr ⟨past, g, rfl, hb, _, hs, ?_⟩⟩
      dsimp only
      omega

/-- What a heartbeat that was issued carries. -/
structure IssuedBy (s : HeartbeatIssuer) (now : Datetime) (h : Heartbeat) : Prop where
  node : h.nodeId = some s.participantId
  boot : h.bootId = some s.epochId
  seq : h.sequence = some (s.nextSequence : ℤ)
  issued : h.issuedAt = now
  expires : h.expiresAt.instant = now.instant + s.lease
  current : h.extensionVersion = EXTENSION_VERSION
  extensions : h.extensions = s.extensions

theorem issue_ok {now : Datetime} {h : Heartbeat} (hi : (s.issue now).1 = .ok h) :
    IssuedBy s now h := by
  unfold HeartbeatIssuer.issue at hi
  cases he : now.add? s.lease with
  | none => rw [he] at hi; cases hi
  | some expiresAt =>
    rw [he] at hi
    obtain rfl := Except.ok.inj hi
    exact ⟨rfl, rfl, rfl, rfl, Datetime.ofInstant?_eq_some he, rfl, rfl⟩

theorem minted_concat (p : Str) (acts : List Act) (act : Act) :
    minted p (acts ++ [act]) =
      minted p acts ++ ((publisher p).entry ((publisher p).run none acts) act).toList := by
  rw [minted, Machine.journal_append, Machine.journal_cons, Machine.journal_nil, List.append_nil,
    minted]

/-- **Restarts that never use an epoch again mint a ledger** of the participant's heartbeats. -/
theorem minted_publisher (p : Str) (acts : List Act) (hnew : (acts.filterMap Act.epoch?).Nodup) :
    Minted p (acts.filterMap Act.epoch?) ((publisher p).run none acts) (minted p acts) := by
  -- the epochs of the acts before the last one are those used so far
  induction acts using List.reverseRecOn with
  | nil => exact Minted.start p
  | append_singleton acts act ih =>
    rw [List.filterMap_append] at hnew
    have hpast := ih (List.nodup_append.mp hnew).1
    rw [minted_concat, Machine.run_concat, List.filterMap_append]
    cases act with
    | restart epochId token lease extensions =>
      have hfresh : HeartbeatIssuer.epochOr epochId token ∉ acts.filterMap Act.epoch? := fun hmem =>
        (List.nodup_append.mp hnew).2.2 _ hmem _ List.mem_cons_self rfl
      show Minted p (_ ++ [HeartbeatIssuer.epochOr epochId token]) (some _) (_ ++ [])
      rw [List.append_nil]
      exact hpast.restart lease extensions hfresh
    | issue now =>
      show Minted p (_ ++ []) (((publisher p).run none acts).map fun s => (s.issue now).2)
        (_ ++ (((publisher p).run none acts).bind fun s => (s.issue now).1.toOption).toList)
      rw [List.append_nil]
      cases hrun : (publisher p).run none acts with
      | none =>
        rw [hrun] at hpast
        simpa using hpast
      | some s =>
        rw [hrun] at hpast
        exact hpast.issue now

end McpHeartbeat
