import McpHeartbeat.Base.Rekey
import McpHeartbeat.Conformance.Verdicts
import Mathlib.Data.List.Sort

/-!
# Release adjudication

* `Criterion`, `Level`, `LEVELS`: the three readiness levels, each with its own criteria;
* `collectResidualRisks`, `adjudicate`: the risks an operator must weigh, and the report;
* `evaluate_iff`: what each kind of criterion asks;
* **`ready_iff`**: a level is ready exactly when all its criteria are met.
-/

namespace McpHeartbeat

open Base

/-! ## Levels -/

/-- The matrix reports by matrix id. -/
abbrev Matrices := Mapping Str MatrixReport

/-- `Criterion`; a predicate that raises answers `none`. -/
structure Criterion where
  key : Str
  description : Str
  predicate : Matrices → Option Bool

/-- `Criterion.evaluate`: a criterion that cannot be evaluated is unmet. -/
def Criterion.evaluate (self : Criterion) (matrices : Matrices) : Bool :=
  (self.predicate matrices).getD false

/-- `Level`. -/
structure Level where
  key : Str
  title : Str
  means : Str
  criteria : List Criterion

/-- One entry of the `"criteria"` of an evaluated level. -/
structure CriterionResult where
  key : Str
  description : Str
  met : Bool

/-- What `Level.evaluate` returns. -/
structure LevelResult where
  key : Str
  title : Str
  means : Str
  ready : Bool
  criteria : List CriterionResult
  unmet : List Str

/-- The dictionary `results` of `Level.evaluate`. -/
def Level.results (self : Level) (matrices : Matrices) : Mapping Str Bool :=
  self.criteria.foldl (fun d c => d.insert c.key (c.evaluate matrices)) ∅

/-- `Level.evaluate`. -/
def Level.evaluate (self : Level) (matrices : Matrices) : LevelResult :=
  let results := self.results matrices
  let unmet := ((results.entries.filter fun e => !e.2).map Sigma.fst).insertionSort Str.keyLe
  { key := self.key
    title := self.title
    means := self.means
    ready := unmet = []
    criteria := self.criteria.map fun c => ⟨c.key, c.description, (results.lookup c.key).getD false⟩
    unmet := unmet }

/-! ## Criterion predicates -/

/-- `all(test(matrices[mid]) for mid in matrix_ids)`; an unknown id raises. -/
def allOver (test : MatrixReport → Bool) : List Str → Matrices → Option Bool
  | [], _ => some true
  | mid :: matrixIds, matrices =>
    match matrices.lookup mid with
    | none => none
    | some report => if test report then allOver test matrixIds matrices else some false

/-- `_no_failures`. -/
def noFailures (matrixIds : List Str) : Matrices → Option Bool :=
  allOver (fun report => report.count .FAIL = 0) matrixIds

/-- `_no_holds`. -/
def noHolds (matrixIds : List Str) : Matrices → Option Bool :=
  allOver (fun report => report.count .HOLD = 0) matrixIds

/-- `_nothing_unsupported`. -/
def nothingUnsupported (matrixIds : List Str) : Matrices → Option Bool :=
  allOver (fun report => report.count .UNSUPPORTED = 0) matrixIds

/-- `_case_passed`. -/
def casePassed (matrixId caseId : Str) (matrices : Matrices) : Option Bool :=
  (matrices.lookup matrixId).map fun report =>
    report.cases.any fun case => case.caseId = caseId ∧ case.verdict = .PASS

/-- `ALL_MATRICES`. -/
def ALL_MATRICES : List Str :=
  [py "cross-era", py "distributed-runtime", py "identity-binding", py "clean-room",
    py "measurement", py "isolation"]

/-- The first entry of `LEVELS`. -/
def readyToDogfood : Level where
  key := py "ready_to_dogfood"
  title := py "Ready to dogfood"
  means := py ("the originating project may depend on this internally. Nothing is broken; " ++
    "open questions and unproven legs are acceptable because the " ++
    "consumer is the same team that owns the code.")
  criteria := [
    ⟨py "no_cross_era_failures", py "No FAIL in the cross-era matrix",
      noFailures [py "cross-era"]⟩,
    ⟨py "no_runtime_failures", py "No FAIL in the distributed-runtime matrix",
      noFailures [py "distributed-runtime"]⟩,
    ⟨py "no_identity_failures", py "No FAIL in the identity-binding matrix",
      noFailures [py "identity-binding"]⟩,
    ⟨py "no_isolation_failures", py "No FAIL in the isolation matrix",
      noFailures [py "isolation"]⟩,
    ⟨py "identity_gates_state",
      py "An unbound identity provably cannot move authoritative state",
      casePassed (py "identity-binding") (py "gates-convergence")⟩,
    ⟨py "package_boundaries_hold",
      py "No package imports outwards or into a host application",
      casePassed (py "isolation") (py "boundaries")⟩]

/-- The second entry of `LEVELS`. -/
def readyForExternalReview : Level where
  key := py "ready_for_external_review"
  title := py "Ready for external review"
  means := py ("The evidence pack can be handed to a reviewer outside the " ++
    "project. It must be complete, sanitized, and independently " ++
    "rerunnable — but it may still carry open questions, so long " ++
    "as they are stated rather than hidden.")
  criteria := [
    ⟨py "no_cross_era_failures", py "No FAIL in the cross-era matrix",
      noFailures [py "cross-era"]⟩,
    ⟨py "no_runtime_failures", py "No FAIL in the distributed-runtime matrix",
      noFailures [py "distributed-runtime"]⟩,
    ⟨py "no_identity_failures", py "No FAIL in the identity-binding matrix",
      noFailures [py "identity-binding"]⟩,
    ⟨py "no_isolation_failures", py "No FAIL in the isolation matrix",
      noFailures [py "isolation"]⟩,
    ⟨py "no_cleanroom_failures", py "No FAIL in the clean-room matrix",
      noFailures [py "clean-room"]⟩,
    ⟨py "no_measurement_failures", py "No FAIL in the measurement matrix",
      noFailures [py "measurement"]⟩,
    ⟨py "independent_participant_verified",
      py "The clean-room participant's independence is mechanically proven",
      casePassed (py "clean-room") (py "no-link")⟩,
    ⟨py "two_way_interop_shown", py "Each implementation admits the other's documents",
      casePassed (py "clean-room") (py "bidirectional-interop")⟩,
    ⟨py "overhead_measured",
      py "Bandwidth, CPU, and memory are measured against declared thresholds",
      casePassed (py "measurement") (py "bytes")⟩,
    ⟨py "abuse_resistance_shown",
      py "A hint flood provably does not amplify into a fetch flood",
      casePassed (py "measurement") (py "hint-flood")⟩,
    ⟨py "evidence_is_sanitized",
      py "No source file carries a host path, credential, or private address",
      casePassed (py "isolation") (py "no-leaks")⟩]

/-- The third entry of `LEVELS`. -/
def readyToPublish : Level where
  key := py "ready_to_publish"
  title := py "Ready to publish"
  means := py ("The feature can go out. Every declared leg has actually been " ++
    "exercised and every open question has been closed — an " ++
    "UNSUPPORTED leg means a claim nobody has tested, and a HOLD " ++
    "means a decision nobody has made.")
  criteria := [
    ⟨py "no_failures_anywhere", py "No FAIL in any matrix", noFailures ALL_MATRICES⟩,
    ⟨py "no_holds_anywhere", py "No HOLD in any matrix: every open question is closed",
      noHolds ALL_MATRICES⟩,
    ⟨py "every_declared_leg_was_exercised",
      py "No UNSUPPORTED case: nothing is claimed that was not run",
      nothingUnsupported ALL_MATRICES⟩,
    ⟨py "official_sdk_leg_proven",
      py "The current-era leg ran against the pinned official SDK v2",
      casePassed (py "cross-era") (py "current-current-sdk")⟩,
    ⟨py "core_within_prd_budget",
      py "The portable core is inside the PRD's size budget, or the overrun is signed off",
      casePassed (py "isolation") (py "core-size")⟩,
    ⟨py "identity_semantics_settled",
      py "Both eras give the same observable answer for a policy gap",
      casePassed (py "identity-binding") (py "policy-gap-divergence")⟩,
    ⟨py "downgrade_confusion_closed",
      py "Every message plausible to both eras is refused by both",
      casePassed (py "cross-era") (py "downgrade-confusion")⟩]

/-- `LEVELS`. -/
def LEVELS : List Level := [readyToDogfood, readyForExternalReview, readyToPublish]

/-! ## Residual risks -/

/-- The severities of `collect_residual_risks`. -/
inductive Severity
  | blocking
  | decisionRequired
  | unproven
deriving DecidableEq, Repr

/-- The text of a severity. -/
def Severity.text : Severity → Str
  | blocking => py "blocking"
  | decisionRequired => py "decision-required"
  | unproven => py "unproven"

/-- The dictionary `severity`. -/
def severity : Verdict → Option Severity
  | .PASS => none
  | .FAIL => some .blocking
  | .HOLD => some .decisionRequired
  | .UNSUPPORTED => some .unproven

/-- The dictionary `order`. -/
def Severity.order : Severity → ℕ
  | blocking => 0
  | decisionRequired => 1
  | unproven => 2

/-- One residual risk. -/
structure Risk where
  matrix : Str
  case : Str
  title : Str
  verdict : Verdict
  severity : Severity
  detail : Str

/-- `case.reason or case.error or "see the case's failed checks"`. -/
def riskDetail (case : Case) : Str :=
  match case.reason.filter (· ≠ []), case.error.filter (· ≠ []) with
  | some reason, _ => reason
  | none, some error => error
  | none, none => py "see the case's failed checks"

/-- The risk that a case raises, if any. -/
def risk? (matrixId : Str) (case : Case) : Option Risk :=
  (severity case.verdict).map fun s =>
    ⟨matrixId, case.caseId, case.title, case.verdict, s, riskDetail case⟩

/-- The order of the sort key `(order[severity], matrix, case)`. -/
def riskLe (r s : Risk) : Prop :=
  r.severity.order < s.severity.order ∨ r.severity.order = s.severity.order ∧
    (r.matrix ≠ s.matrix ∧ r.matrix.keyLe s.matrix ∨ r.matrix = s.matrix ∧ r.case.keyLe s.case)

instance : DecidableRel riskLe := fun r s => by unfold riskLe; infer_instance

/-- The risks of all the matrices, before `risks.sort`. -/
def openRisks (matrices : Matrices) : List Risk :=
  matrices.entries.flatMap fun e => e.2.cases.filterMap (risk? e.1)

/-- `collect_residual_risks`. -/
def collectResidualRisks (matrices : Matrices) : List Risk :=
  (openRisks matrices).insertionSort riskLe

/-- The `"totals"` of `MatrixReport.to_dict`. -/
structure Totals where
  total : ℕ
  passed : ℕ
  failed : ℕ
  unsupported : ℕ
  hold : ℕ

/-- `MatrixReport.to_dict()["totals"]`. -/
def MatrixReport.totals (self : MatrixReport) : Totals :=
  ⟨self.cases.length, self.count .PASS, self.count .FAIL, self.count .UNSUPPORTED,
    self.count .HOLD⟩

/-- `ReleaseReport`. -/
structure ReleaseReport where
  levels : List LevelResult
  residualRisks : List Risk
  matrices : List (Str × Totals)

/-- `adjudicate`. -/
def adjudicate (matrices : Matrices) : ReleaseReport where
  levels := LEVELS.map fun level => level.evaluate matrices
  residualRisks := collectResidualRisks matrices
  matrices := matrices.entries.map fun e => (e.1, e.2.totals)

/-! ## What a criterion asks -/

theorem allOver_iff {test : MatrixReport → Bool} {ids : List Str} {m : Matrices} :
    allOver test ids m = some true ↔ ∀ mid ∈ ids, ∃ r, m.lookup mid = some r ∧ test r = true := by
  induction ids with
  | nil => simp [allOver]
  | cons mid ids ih =>
    rw [List.forall_mem_cons, ← ih, allOver]
    cases m.lookup mid with
    | none => simp
    | some r => by_cases h : test r = true <;> simp [h]

/-- No case of the matrices `ids` has the verdict `v`. -/
def NoneWith (v : Verdict) (ids : List Str) (m : Matrices) : Prop :=
  ∀ mid ∈ ids, ∃ r, m.lookup mid = some r ∧ ∀ case ∈ r.cases, case.verdict ≠ v

theorem allOver_count_iff {v : Verdict} {ids : List Str} {m : Matrices} :
    allOver (fun r => r.count v = 0) ids m = some true ↔ NoneWith v ids m := by
  simp only [allOver_iff, decide_eq_true_eq, count_eq_zero, NoneWith]

theorem casePassed_iff {mid cid : Str} {m : Matrices} :
    casePassed mid cid m = some true ↔ ∃ r, m.lookup mid = some r ∧
      ∃ case ∈ r.cases, case.caseId = cid ∧ case.verdict = .PASS := by
  simp [casePassed]

theorem evaluate_iff {c : Criterion} {m : Matrices} :
    c.evaluate m = true ↔ c.predicate m = some true := by
  rw [Criterion.evaluate]
  cases c.predicate m <;> simp

/-! ## When a level is ready -/

theorem lookup_results {level : Level} {m : Matrices} {k : Str} :
    (level.results m).lookup k =
      (level.criteria.reverse.find? fun c => c.key = k).map fun c => c.evaluate m := by
  rw [Level.results]
  induction level.criteria using List.reverseRecOn with
  | nil => rfl
  | append_singleton cs c ih =>
    rw [List.foldl_append, List.reverse_append, List.reverse_singleton, List.singleton_append]
    show ((_ : Mapping Str Bool).insert c.key (c.evaluate m)).lookup k = _
    by_cases h : c.key = k
    · subst h
      rw [AList.lookup_insert, List.find?_cons_of_pos (by simp)]
      rfl
    · rw [AList.lookup_insert_ne (Ne.symm h), List.find?_cons_of_neg (by simpa using h), ih]

/-- **A level is ready** exactly when every one of its criteria is met. -/
theorem ready_iff {level : Level} (hkeys : (level.criteria.map Criterion.key).Nodup)
    {m : Matrices} :
    (level.evaluate m).ready = true ↔ ∀ c ∈ level.criteria, c.evaluate m = true := by
  have hunmet : (level.evaluate m).ready = true ↔
      ∀ e ∈ (level.results m).entries, e.2 = true := by
    simp only [Level.evaluate, ← List.length_eq_zero_iff, List.length_insertionSort,
      List.length_map, decide_eq_true_eq]
    rw [List.length_eq_zero_iff, List.filter_eq_nil_iff]
    simp
  have hfind : ∀ c ∈ level.criteria,
      level.criteria.reverse.find? (fun c' => c'.key = c.key) = some c := by
    intro c hc
    cases hf : level.criteria.reverse.find? fun c' => c'.key = c.key with
    | none => simpa using List.find?_eq_none.mp hf c (List.mem_reverse.mpr hc)
    | some c' =>
      have hkey : c'.key = c.key := by simpa using List.find?_some hf
      have hmem := List.mem_reverse.mp (List.mem_of_find?_eq_some hf)
      rw [List.inj_on_of_nodup_map hkeys hmem hc hkey]
  rw [hunmet]
  constructor
  · intro h c hc
    have hlookup : (level.results m).lookup c.key = some (c.evaluate m) := by
      rw [lookup_results, hfind c hc]
      rfl
    exact h _ (AList.mem_lookup_iff.mp hlookup)
  · intro h e he
    have hlookup : (level.results m).lookup e.1 = some e.2 := AList.mem_lookup_iff.mpr he
    rw [lookup_results] at hlookup
    obtain ⟨c, hc, hvalue⟩ := Option.map_eq_some_iff.mp hlookup
    rw [← hvalue]
    exact h c (List.mem_reverse.mp (List.mem_of_find?_eq_some hc))

/-- The criteria of a level have distinct keys. -/
theorem keys_nodup : ∀ level ∈ LEVELS, (level.criteria.map Criterion.key).Nodup := by
  decide +kernel

/-! ## The risks -/

theorem riskLe_total (r s : Risk) : riskLe r s ∨ riskLe s r := by
  rcases lt_trichotomy r.severity.order s.severity.order with h | h | h
  · exact .inl (.inl h)
  · by_cases hm : r.matrix = s.matrix
    · rcases r.case.keyLe_total s.case with hc | hc
      · exact .inl (.inr ⟨h, .inr ⟨hm, hc⟩⟩)
      · exact .inr (.inr ⟨h.symm, .inr ⟨hm.symm, hc⟩⟩)
    · rcases r.matrix.keyLe_total s.matrix with hk | hk
      · exact .inl (.inr ⟨h, .inl ⟨hm, hk⟩⟩)
      · exact .inr (.inr ⟨h.symm, .inl ⟨Ne.symm hm, hk⟩⟩)
  · exact .inr (.inl h)

theorem riskLe_trans {r s t : Risk} (h : riskLe r s) (h' : riskLe s t) : riskLe r t := by
  rcases h with h | ⟨h, hrs⟩
  · rcases h' with h' | ⟨h', -⟩
    · exact .inl (by omega)
    · exact .inl (by omega)
  · rcases h' with h' | ⟨h', hst⟩
    · exact .inl (by omega)
    · refine .inr ⟨h.trans h', ?_⟩
      rcases hrs with ⟨hne, hle⟩ | ⟨heq, hc⟩
      · rcases hst with ⟨hne', hle'⟩ | ⟨heq', -⟩
        · refine .inl ⟨?_, Str.keyLe_trans hle hle'⟩
          intro hrt
          exact hne (Str.keyLe_antisymm hle (hrt ▸ hle'))
        · exact .inl ⟨heq' ▸ hne, heq' ▸ hle⟩
      · rcases hst with ⟨hne', hle'⟩ | ⟨heq', hc'⟩
        · exact .inl ⟨heq ▸ hne', heq ▸ hle'⟩
        · exact .inr ⟨heq.trans heq', Str.keyLe_trans hc hc'⟩

instance : Std.Total riskLe := ⟨riskLe_total⟩
instance : IsTrans Risk riskLe := ⟨fun _ _ _ => riskLe_trans⟩

theorem collectResidualRisks_perm (m : Matrices) :
    (collectResidualRisks m).Perm (openRisks m) := List.perm_insertionSort _ _

theorem collectResidualRisks_sorted (m : Matrices) : (collectResidualRisks m).Pairwise riskLe :=
  List.pairwise_insertionSort _ _

theorem risk?_eq_none {mid : Str} {case : Case} :
    risk? mid case = none ↔ case.verdict = .PASS := by
  rw [risk?, Option.map_eq_none_iff]
  cases case.verdict <;> simp [severity]

/-- A case that did not pass is among the risks. -/
theorem mem_collectResidualRisks {m : Matrices} {r : Risk} : r ∈ collectResidualRisks m ↔
    ∃ mid report, m.lookup mid = some report ∧ ∃ case ∈ report.cases, risk? mid case = some r := by
  rw [(collectResidualRisks_perm m).mem_iff, openRisks, List.mem_flatMap]
  constructor
  · rintro ⟨e, he, hr⟩
    exact ⟨e.1, e.2, AList.mem_lookup_iff.mpr he, List.mem_filterMap.mp hr⟩
  · rintro ⟨mid, report, hlookup, hr⟩
    exact ⟨⟨mid, report⟩, AList.mem_lookup_iff.mp hlookup, List.mem_filterMap.mpr hr⟩

end McpHeartbeat
