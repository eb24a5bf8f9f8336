import McpHeartbeat.Conformance.Release
import Mathlib.Data.List.Perm.Basic

/-!
# What adjudication promises

* `Worse`, `Below`: one verdict worse than another, one family of matrices nowhere better;
* `Steady`: criteria that a worse family cannot meet anew; `steady_noFailures`, `steady_casePassed`;
* **`ready_of_below`**: readiness is lost, never gained, as verdicts get worse;
* **`adjudication_monotone_complete`**: readiness, the risks and `ready_to_publish` together;
* **`failed_check_is_reported_iff`**: when no failed check of a matrix is masked.
-/

namespace McpHeartbeat

open Base

/-! ## Worse verdicts -/

/-- `new` is worse than `old`: anything is worse than `PASS`, and `FAIL` than anything else. -/
def Verdict.Worse (old new : Verdict) : Prop :=
  old = .PASS ∧ new ≠ .PASS ∨ old ≠ .FAIL ∧ new = .FAIL

instance (old new : Verdict) : Decidable (old.Worse new) := by unfold Verdict.Worse; infer_instance

/-- The same case with the same verdict or a worse one. -/
def CaseBelow (new old : Case) : Prop :=
  new.caseId = old.caseId ∧ (new.verdict = old.verdict ∨ old.verdict.Worse new.verdict)

/-- Every matrix of `new` is there in `old`, case by case, with no verdict better in `new`. -/
def Below (new old : Matrices) : Prop :=
  ∀ mid r', new.lookup mid = some r' →
    ∃ r, old.lookup mid = some r ∧ List.Forall₂ CaseBelow r'.cases r.cases

/-- One case of one matrix has been given a worse verdict. -/
inductive Degrades (old new : Matrices) : Prop
  | intro (before after : List (Sigma fun _ : Str => MatrixReport)) (mid : Str)
      (report : MatrixReport) (pre post : List Case) (case : Case) (verdict : Verdict)
      (cases_eq : report.cases = pre ++ case :: post)
      (worse : case.verdict.Worse verdict)
      (old_eq : old.entries = before ++ ⟨mid, report⟩ :: after)
      (new_eq : new.entries = before ++
        ⟨mid, { report with cases := pre ++ { case with verdict := verdict } :: post }⟩ :: after)

theorem caseBelow_refl (c : Case) : CaseBelow c c := ⟨rfl, .inl rfl⟩

theorem forall₂_caseBelow_refl (cs : List Case) : List.Forall₂ CaseBelow cs cs :=
  List.forall₂_same.mpr fun c _ => caseBelow_refl c

theorem below_of_degrades {old new : Matrices} (h : Degrades old new) : Below new old := by
  obtain ⟨before, after, mid, report, pre, post, case, verdict, hcases, hworse, hold, hnew⟩ := h
  intro k r' hk
  have hmem := AList.mem_lookup_iff.mp hk
  rw [hnew, List.mem_append, List.mem_cons] at hmem
  have hin : ∀ {e}, e ∈ before ++ ⟨mid, report⟩ :: after → e ∈ old.entries := fun he => hold ▸ he
  rcases hmem with h | h | h
  · exact ⟨r', AList.mem_lookup_iff.mpr (hin (List.mem_append_left _ h)), forall₂_caseBelow_refl _⟩
  · obtain ⟨rfl, hr'⟩ := Sigma.mk.inj_iff.mp h
    obtain rfl := eq_of_heq hr'
    refine ⟨report, AList.mem_lookup_iff.mpr (hin (by simp)), ?_⟩
    rw [hcases]
    exact List.rel_append (forall₂_caseBelow_refl pre)
      (.cons ⟨rfl, .inr hworse⟩ (forall₂_caseBelow_refl post))
  · exact ⟨r', AList.mem_lookup_iff.mpr (hin (List.mem_append_right _ (List.mem_cons_of_mem _ h))),
      forall₂_caseBelow_refl _⟩

/-- A `FAIL` stays a `FAIL`, and a `PASS` was one before. -/
theorem caseBelow_verdict {new old : Case} (h : CaseBelow new old) :
    (old.verdict = .FAIL → new.verdict = .FAIL) ∧ (new.verdict = .PASS → old.verdict = .PASS) := by
  rcases h.2 with h | h
  · exact ⟨fun ho => h.trans ho, fun hn => h ▸ hn⟩
  · constructor
    · intro ho
      simp [Verdict.Worse, ho] at h
    · intro hn
      simp [Verdict.Worse, hn] at h

theorem exists_below_of_mem {new old : List Case} (h : List.Forall₂ CaseBelow new old) {c : Case}
    (hc : c ∈ old) : ∃ c' ∈ new, CaseBelow c' c := by
  induction h with
  | nil => simp at hc
  | cons hd _ ih =>
    rcases List.mem_cons.mp hc with rfl | hc
    · exact ⟨_, List.mem_cons_self, hd⟩
    · obtain ⟨c', hc', hb⟩ := ih hc
      exact ⟨c', List.mem_cons_of_mem _ hc', hb⟩

theorem exists_above_of_mem {new old : List Case} (h : List.Forall₂ CaseBelow new old) {c' : Case}
    (hc : c' ∈ new) : ∃ c ∈ old, CaseBelow c' c := by
  induction h with
  | nil => simp at hc
  | cons hd _ ih =>
    rcases List.mem_cons.mp hc with rfl | hc
    · exact ⟨_, List.mem_cons_self, hd⟩
    · obtain ⟨c, hc, hb⟩ := ih hc
      exact ⟨c, List.mem_cons_of_mem _ hc, hb⟩

/-! ## Criteria over a worse family -/

/-- What a worse family meets was met before. -/
def Steady (predicate : Matrices → Option Bool) : Prop :=
  ∀ {new old : Matrices}, Below new old → predicate new = some true → predicate old = some true

theorem steady_noFailures (ids : List Str) : Steady (noFailures ids) := by
  intro new old hb h
  rw [noFailures, allOver_count_iff] at h ⊢
  intro mid hmid
  obtain ⟨r', hr', hnone⟩ := h mid hmid
  obtain ⟨r, hr, hcases⟩ := hb mid r' hr'
  refine ⟨r, hr, fun c hc hfail => ?_⟩
  obtain ⟨c', hc', hbelow⟩ := exists_below_of_mem hcases hc
  exact hnone c' hc' ((caseBelow_verdict hbelow).1 hfail)

theorem steady_casePassed (mid cid : Str) : Steady (casePassed mid cid) := by
  intro new old hb h
  rw [casePassed_iff] at h ⊢
  obtain ⟨r', hr', c', hc', hid, hpass⟩ := h
  obtain ⟨r, hr, hcases⟩ := hb mid r' hr'
  obtain ⟨c, hc, hbelow⟩ := exists_above_of_mem hcases hc'
  exact ⟨r, hr, c, hc, hbelow.1 ▸ hid, (caseBelow_verdict hbelow).2 hpass⟩

/-- Every case of the six matrices passed, and the six are there. -/
def AllPassed (m : Matrices) : Prop :=
  ∀ mid ∈ ALL_MATRICES, ∃ r, m.lookup mid = some r ∧ ∀ case ∈ r.cases, case.verdict = .PASS

/-- No `FAIL`, no `HOLD` and no `UNSUPPORTED`: every case passed. -/
theorem allPassed_iff {m : Matrices} : AllPassed m ↔ noFailures ALL_MATRICES m = some true ∧
    noHolds ALL_MATRICES m = some true ∧ nothingUnsupported ALL_MATRICES m = some true := by
  rw [noFailures, noHolds, nothingUnsupported, allOver_count_iff, allOver_count_iff,
    allOver_count_iff]
  constructor
  · intro h
    refine ⟨?_, ?_, ?_⟩ <;>
    · intro mid hmid
      obtain ⟨r, hr, hpass⟩ := h mid hmid
      exact ⟨r, hr, fun c hc => by simp [hpass c hc]⟩
  · rintro ⟨hfail, hhold, hunsupported⟩ mid hmid
    obtain ⟨r, hr, h₁⟩ := hfail mid hmid
    obtain ⟨r₂, hr₂, h₂⟩ := hhold mid hmid
    obtain ⟨r₃, hr₃, h₃⟩ := hunsupported mid hmid
    obtain rfl : r = r₂ := Option.some.inj (hr.symm.trans hr₂)
    obtain rfl : r = r₃ := Option.some.inj (hr.symm.trans hr₃)
    refine ⟨r, hr, fun c hc => ?_⟩
    have h₁ := h₁ c hc
    have h₂ := h₂ c hc
    have h₃ := h₃ c hc
    cases hv : c.verdict <;> simp_all

theorem allPassed_of_below {new old : Matrices} (hb : Below new old) (h : AllPassed new) :
    AllPassed old := by
  intro mid hmid
  obtain ⟨r', hr', hpass⟩ := h mid hmid
  obtain ⟨r, hr, hcases⟩ := hb mid r' hr'
  refine ⟨r, hr, fun c hc => ?_⟩
  obtain ⟨c', hc', hbelow⟩ := exists_below_of_mem hcases hc
  exact (caseBelow_verdict hbelow).2 (hpass c' hc')

/-! ## Levels over a worse family -/

/-- What a level asks, criterion by criterion. -/
theorem ready_iff_predicates {level : Level} (hlevel : level ∈ LEVELS) {m : Matrices} :
    (level.evaluate m).ready = true ↔ ∀ c ∈ level.criteria, c.predicate m = some true := by
  simp only [ready_iff (keys_nodup level hlevel), evaluate_iff]

theorem ready_of_steady {level : Level} (hlevel : level ∈ LEVELS)
    (hsteady : ∀ c ∈ level.criteria, Steady c.predicate) {new old : Matrices} (hb : Below new old)
    (h : (level.evaluate new).ready = true) : (level.evaluate old).ready = true := by
  rw [ready_iff_predicates hlevel] at h ⊢
  exact fun c hc => hsteady c hc hb (h c hc)

theorem steady_readyToDogfood : ∀ c ∈ readyToDogfood.criteria, Steady c.predicate := by
  simp only [readyToDogfood, List.forall_mem_cons, steady_noFailures, steady_casePassed, true_and]
  simp

theorem steady_readyForExternalReview :
    ∀ c ∈ readyForExternalReview.criteria, Steady c.predicate := by
  simp only [readyForExternalReview, List.forall_mem_cons, steady_noFailures, steady_casePassed,
    true_and]
  simp

/-- `ready_to_publish` asks that everything passed, and for four cases by name. -/
theorem readyToPublish_iff {m : Matrices} : (readyToPublish.evaluate m).ready = true ↔
    AllPassed m ∧ casePassed (py "cross-era") (py "current-current-sdk") m = some true ∧
      casePassed (py "isolation") (py "core-size") m = some true ∧
      casePassed (py "identity-binding") (py "policy-gap-divergence") m = some true ∧
      casePassed (py "cross-era") (py "downgrade-confusion") m = some true := by
  rw [ready_iff_predicates (by simp [LEVELS]), allPassed_iff]
  simp only [readyToPublish, List.forall_mem_cons, List.not_mem_nil, false_implies, implies_true,
    and_true, and_assoc]

/-- **Readiness is never gained** by making verdicts worse, in any number of cases. -/
theorem ready_of_below {level : Level} (hlevel : level ∈ LEVELS) {new old : Matrices}
    (hb : Below new old) (h : (level.evaluate new).ready = true) :
    (level.evaluate old).ready = true := by
  simp only [LEVELS, List.mem_cons, List.not_mem_nil, or_false] at hlevel
  rcases hlevel with rfl | rfl | rfl
  · exact ready_of_steady (by simp [LEVELS]) steady_readyToDogfood hb h
  · exact ready_of_steady (by simp [LEVELS]) steady_readyForExternalReview hb h
  · -- fewer holds can come from more failures, so the three counts are taken together
    rw [readyToPublish_iff] at h ⊢
    obtain ⟨hall, h₁, h₂, h₃, h₄⟩ := h
    exact ⟨allPassed_of_below hb hall, steady_casePassed _ _ hb h₁, steady_casePassed _ _ hb h₂,
      steady_casePassed _ _ hb h₃, steady_casePassed _ _ hb h₄⟩

/-! ## The risks, case by case -/

/-- Every case of every matrix, with the id of its matrix. -/
def allCases (m : Matrices) : List (Str × Case) :=
  m.entries.flatMap fun e => e.2.cases.map fun case => (e.1, case)

/-- The risk is the one that the case raises. -/
def Risk.Of (r : Risk) (c : Str × Case) : Prop :=
  r.matrix = c.1 ∧ r.case = c.2.caseId ∧ r.title = c.2.title ∧ r.verdict = c.2.verdict ∧
    McpHeartbeat.severity c.2.verdict = some r.severity

theorem risk_of_risk? {mid : Str} {case : Case} {r : Risk} (h : risk? mid case = some r) :
    r.Of (mid, case) := by
  obtain ⟨s, hs, rfl⟩ := Option.map_eq_some_iff.mp h
  exact ⟨rfl, rfl, rfl, rfl, hs⟩

theorem forall₂_filterMap (mid : Str) (cases : List Case) :
    List.Forall₂ Risk.Of (cases.filterMap (risk? mid))
      ((cases.map fun case => (mid, case)).filter fun c => c.2.verdict ≠ .PASS) := by
  induction cases with
  | nil => exact .nil
  | cons case cases ih =>
    cases hr : risk? mid case with
    | none =>
      rw [List.filterMap_cons_none hr, List.map_cons,
        List.filter_cons_of_neg (by simp [risk?_eq_none.mp hr])]
      exact ih
    | some r =>
      have hv : case.verdict ≠ .PASS := fun hv => by simp [risk?_eq_none.mpr hv] at hr
      rw [List.filterMap_cons_some hr, List.map_cons, List.filter_cons_of_pos (by simpa using hv)]
      exact .cons (risk_of_risk? hr) ih

/-- **One risk for each case that did not pass**, in the order of the cases. -/
theorem forall₂_openRisks (m : Matrices) : List.Forall₂ Risk.Of (openRisks m)
    ((allCases m).filter fun c => c.2.verdict ≠ .PASS) := by
  rw [openRisks, allCases]
  induction m.entries with
  | nil => exact .nil
  | cons e es ih =>
    rw [List.flatMap_cons, List.flatMap_cons, List.filter_append]
    exact List.rel_append (forall₂_filterMap e.1 e.2.cases) ih

/-- A sorted list of risks goes with its cases sorted the same way. -/
theorem exists_perm_of_forall₂ {rs rs' : List Risk} {cs : List (Str × Case)} (hperm : rs'.Perm rs)
    (h : List.Forall₂ Risk.Of rs cs) : ∃ cs', cs'.Perm cs ∧ List.Forall₂ Risk.Of rs' cs' := by
  obtain ⟨cs', hforall, hcs⟩ := List.perm_comp_forall₂ hperm h
  exact ⟨cs', hcs, hforall⟩

theorem collectResidualRisks_eq_nil {m : Matrices} (hm : m.keys.Perm ALL_MATRICES)
    (h : AllPassed m) : collectResidualRisks m = [] := by
  rw [List.eq_nil_iff_forall_not_mem]
  intro r hr
  obtain ⟨mid, report, hlookup, case, hcase, hrisk⟩ := mem_collectResidualRisks.mp hr
  have hmid : mid ∈ ALL_MATRICES :=
    hm.mem_iff.mp (AList.mem_keys.mp (AList.lookup_isSome.mp (by rw [hlookup]; rfl)))
  obtain ⟨report', hreport', hpass⟩ := h mid hmid
  obtain rfl : report = report' := Option.some.inj (hlookup.symm.trans hreport')
  rw [risk?_eq_none.mpr (hpass case hcase)] at hrisk
  cases hrisk

/-- **Adjudication is monotone and complete.** -/
theorem adjudication_monotone_complete (m : Matrices) (hm : m.keys.Perm ALL_MATRICES) :
    (∀ m', Degrades m m' → ∀ level ∈ LEVELS,
      (level.evaluate m').ready = true → (level.evaluate m).ready = true) ∧
    (∃ cases, cases.Perm ((allCases m).filter fun c => c.2.verdict ≠ .PASS) ∧
      List.Forall₂ Risk.Of (collectResidualRisks m) cases) ∧
    (collectResidualRisks m).Pairwise (fun r s => r.severity.order ≤ s.severity.order) ∧
    ((readyToPublish.evaluate m).ready = true → collectResidualRisks m = []) := by
  refine ⟨fun m' h level hlevel => ready_of_below hlevel (below_of_degrades h),
    exists_perm_of_forall₂ (collectResidualRisks_perm m) (forall₂_openRisks m),
    (collectResidualRisks_sorted m).imp ?_, ?_⟩
  · intro r s h
    rcases h with h | ⟨h, -⟩
    · exact h.le
    · exact h.le
  · intro h
    exact collectResidualRisks_eq_nil hm (readyToPublish_iff.mp h).1

/-- Six green matrices, with the cases that the levels ask for by name. -/
def greenMatrices : Matrices :=
  let green (mid : String) (ids : List String) : Sigma fun _ : Str => MatrixReport :=
    ⟨py mid, { matrixId := py mid, title := py mid,
               cases := ids.map fun id => { caseId := py id, title := py id } }⟩
  [green "cross-era" ["current-current-sdk", "downgrade-confusion"],
    green "distributed-runtime" ["restart"],
    green "identity-binding" ["gates-convergence", "policy-gap-divergence"],
    green "clean-room" ["no-link", "bidirectional-interop"],
    green "measurement" ["bytes", "hint-flood"],
    green "isolation" ["boundaries", "core-size", "no-leaks"]].toAList

theorem greenMatrices_keys : greenMatrices.keys = ALL_MATRICES := by decide +kernel

/-- Everything is ready over green matrices. -/
example : (adjudicate greenMatrices).levels.map LevelResult.ready = [true, true, true] := by
  decide +kernel

theorem adjudication_monotone_complete_green :
    (readyToPublish.evaluate greenMatrices).ready = true ∧
      collectResidualRisks greenMatrices = [] := by
  have hready : (readyToPublish.evaluate greenMatrices).ready = true := by decide +kernel
  have hkeys : greenMatrices.keys.Perm ALL_MATRICES := greenMatrices_keys ▸ List.Perm.refl _
  exact ⟨hready, (adjudication_monotone_complete greenMatrices hkeys).2.2.2 hready⟩

/-! ## Masked checks -/

/-- No failed check of the cases that `run_cases` adds to the report is masked: the verdict is
`FAIL`, the matrix is not ok, and wherever the matrix is adjudicated the case is a blocking risk. -/
def NoFailedCheckMasked (report : MatrixReport) (specs : List CaseSpec) : Prop :=
  let result := runCases report specs
  ∀ case ∈ result.cases.drop report.cases.length, case.FailsCheck →
    case.verdict = .FAIL ∧ result.ok = false ∧
      ∀ (m : Matrices) (mid : Str), m.lookup mid = some result →
        ∃ r ∈ collectResidualRisks m, r.Of (mid, case) ∧ r.severity = .blocking

theorem mem_added {report : MatrixReport} {specs : List CaseSpec} {case : Case} :
    case ∈ (runCases report specs).cases.drop report.cases.length ↔
      ∃ spec ∈ specs, runCase spec = case := by
  rw [cases_runCases, List.drop_left, List.mem_map]

/-- **A failed check is reported exactly when** its case function raises or never decides. -/
theorem failed_check_is_reported_iff (report : MatrixReport) (specs : List CaseSpec) :
    NoFailedCheckMasked report specs ↔
      ∀ spec ∈ specs, (∃ call ∈ spec.fn.calls, call.fails = true) →
        spec.fn.raises.isSome ∨ ∀ call ∈ spec.fn.calls, call.decision? = none := by
  constructor
  · intro h spec hspec hfails
    have hcheck := (failsCheck_runCase spec).mpr hfails
    exact (verdict_runCase_of_failed hcheck).mp (h _ (mem_added.mpr ⟨spec, hspec, rfl⟩) hcheck).1
  · intro h case hcase hcheck
    obtain ⟨spec, hspec, rfl⟩ := mem_added.mp hcase
    have hfail := (verdict_runCase_of_failed hcheck).mpr
      (h spec hspec ((failsCheck_runCase spec).mp hcheck))
    have hmem := List.mem_of_mem_drop hcase
    refine ⟨hfail, ?_, ?_⟩
    · rw [← Bool.not_eq_true, ok_iff]
      intro hok
      rcases hok _ hmem with hv | hv <;> simp [hfail] at hv
    · intro m mid hlookup
      have hrisk : risk? mid (runCase spec) = some ⟨mid, (runCase spec).caseId,
          (runCase spec).title, (runCase spec).verdict, .blocking, riskDetail (runCase spec)⟩ := by
        rw [risk?, hfail]
        rfl
      exact ⟨_, mem_collectResidualRisks.mpr ⟨mid, _, hlookup, _, hmem, hrisk⟩,
        risk_of_risk? hrisk, rfl⟩

/-- A beat was not admitted, and the run was over its processor budget. -/
def overBudget : CaseSpec where
  caseId := py "cpu"
  title := py "CPU per beat"
  fn := { calls := [.check (py "every_beat_was_admitted") false .null,
    .hold (py "over the threshold")] }

/-- A failed check, then a topology that cannot express the rest. -/
def declaredUnsupported : CaseSpec where
  caseId := py "leg"
  title := py "One leg"
  fn := { calls := [.check (py "first_half") false .null, .unsupported (py "no second half")] }

/-- The failed check reads as an operator's decision, or as a green matrix. -/
theorem failed_checks_masked : ¬ NoFailedCheckMasked ⟨py "measurement", py "", []⟩ [overBudget] ∧
    (runCases ⟨py "measurement", py "", []⟩ [overBudget]).cases.map Case.verdict = [.HOLD] ∧
    ¬ NoFailedCheckMasked ⟨py "cross-era", py "", []⟩ [declaredUnsupported] ∧
    (runCases ⟨py "cross-era", py "", []⟩ [declaredUnsupported]).ok = true := by
  have hmasked : ∀ spec : CaseSpec, (runCase spec).FailsCheck → (runCase spec).verdict ≠ .FAIL →
      ∀ mid, ¬ NoFailedCheckMasked ⟨mid, py "", []⟩ [spec] := by
    intro spec hcheck hv mid h
    exact hv (h _ (mem_added.mpr ⟨spec, by simp, rfl⟩) hcheck).1
  have hfails : ∀ spec ∈ [overBudget, declaredUnsupported], (runCase spec).FailsCheck := by
    intro spec hspec
    rw [failsCheck_runCase]
    revert spec
    decide
  exact ⟨hmasked _ (hfails _ (by simp)) (by decide) _, by decide,
    hmasked _ (hfails _ (by simp)) (by decide) _, by decide⟩

end McpHeartbeat
