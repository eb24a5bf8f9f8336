import McpHeartbeat.Base.Machine
import McpHeartbeat.Py.Json
import Mathlib.Data.List.Induction

/-!
# Verdicts and matrices

* `Verdict`, `CLEARING_VERDICTS`, `Case`, `MatrixReport`, `runCases`: what a matrix reports;
* `CaseFn`: what one case function does to its case, a list of calls and how it ends;
* `verdict_run`: the verdict after any calls, in closed form;
* **`verdict_runCase_of_failed`**: what becomes of a case with a failed check.
-/

namespace McpHeartbeat

/-- `Verdict`. -/
inductive Verdict
  | PASS
  | FAIL
  | UNSUPPORTED
  | HOLD
deriving DecidableEq, Repr

/-- `Verdict.value`. -/
def Verdict.value : Verdict → Str
  | PASS => py "PASS"
  | FAIL => py "FAIL"
  | UNSUPPORTED => py "UNSUPPORTED"
  | HOLD => py "HOLD"

/-- `CLEARING_VERDICTS`. -/
def CLEARING_VERDICTS : List Verdict := [.PASS, .UNSUPPORTED]

/-- One entry of `Case.checks`; the detail is what `_plain` makes of the argument. -/
structure Check where
  name : Str
  passed : Bool
  detail : Json

/-- `Case`. -/
structure Case where
  caseId : Str
  title : Str
  verdict : Verdict := .PASS
  checks : List Check := []
  reason : Option Str := none
  error : Option Str := none

namespace Case

/-- `Case.check`; the answer is the condition itself. -/
def check (self : Case) (name : Str) (condition : Bool) (detail : Json) : Case :=
  let recorded := { self with checks := self.checks ++ [⟨name, condition, detail⟩] }
  if condition = false ∧ self.verdict = .PASS then { recorded with verdict := .FAIL } else recorded

/-- `Case.unsupported`. -/
def unsupported (self : Case) (reason : Str) : Case :=
  { self with verdict := .UNSUPPORTED, reason := some reason }

/-- `Case.hold`. -/
def hold (self : Case) (reason : Str) : Case :=
  { self with verdict := .HOLD, reason := some reason }

/-- `Case.passed`. -/
def passed (self : Case) : Bool := self.verdict = .PASS

/-- Some recorded check did not pass. -/
def FailsCheck (self : Case) : Prop := ∃ k ∈ self.checks, k.passed = false

end Case

/-- `MatrixReport`. -/
structure MatrixReport where
  matrixId : Str
  title : Str
  cases : List Case := []

namespace MatrixReport

/-- `MatrixReport.add`. -/
def add (self : MatrixReport) (case : Case) : MatrixReport :=
  { self with cases := self.cases ++ [case] }

/-- `MatrixReport.count`. -/
def count (self : MatrixReport) (verdict : Verdict) : ℕ :=
  self.cases.countP fun case => case.verdict = verdict

/-- `MatrixReport.ok`. -/
def ok (self : MatrixReport) : Bool := self.cases.all fun case => case.verdict ∈ CLEARING_VERDICTS

end MatrixReport

/-- A call that a case function makes on its case. -/
inductive CaseCall
  | check (name : Str) (condition : Bool) (detail : Json)
  | unsupported (reason : Str)
  | hold (reason : Str)

namespace CaseCall

/-- What the call does to the case. -/
def apply (case : Case) : CaseCall → Case
  | check name condition detail => case.check name condition detail
  | unsupported reason => case.unsupported reason
  | hold reason => case.hold reason

/-- What the call records. -/
def check? : CaseCall → Option Check
  | check name condition detail => some ⟨name, condition, detail⟩
  | unsupported _ => none
  | hold _ => none

/-- The call is a check that does not pass. -/
def fails : CaseCall → Bool
  | check _ condition _ => !condition
  | unsupported _ => false
  | hold _ => false

/-- The verdict that the call puts in place of any other. -/
def decision? : CaseCall → Option Verdict
  | check _ _ _ => none
  | unsupported _ => some .UNSUPPORTED
  | hold _ => some .HOLD

end CaseCall

/-- A case under the calls made on it; the journal holds the checks. -/
def caseMachine : Base.Machine Case CaseCall Check where
  next := CaseCall.apply
  entry _ call := call.check?

/-- An exception, as `run_cases` words it. -/
structure CaseException where
  typeName : Str
  message : Str

/-- What a case function does: the calls it makes, and the exception it then raises, if any. -/
structure CaseFn where
  calls : List CaseCall
  raises : Option CaseException := none

/-- One `(case_id, title, fn)` of a matrix. -/
structure CaseSpec where
  caseId : Str
  title : Str
  fn : CaseFn

/-- The loop body of `run_cases`, up to `report.add`. -/
def runCase (spec : CaseSpec) : Case :=
  let case := caseMachine.run { caseId := spec.caseId, title := spec.title } spec.fn.calls
  match spec.fn.raises with
  | none => case
  | some exc =>
    { case with verdict := .FAIL, error := some (exc.typeName ++ py ": " ++ exc.message) }

/-- `run_cases`. -/
def runCases (report : MatrixReport) (cases : List CaseSpec) : MatrixReport :=
  cases.foldl (fun report spec => report.add (runCase spec)) report

/-! ## One call -/

@[simp] theorem Case.check_checks (c : Case) (name : Str) (b : Bool) (detail : Json) :
    (c.check name b detail).checks = c.checks ++ [⟨name, b, detail⟩] := by
  unfold Case.check
  split <;> rfl

@[simp] theorem Case.check_verdict (c : Case) (name : Str) (b : Bool) (detail : Json) :
    (c.check name b detail).verdict = if b = false ∧ c.verdict = .PASS then .FAIL else c.verdict := by
  unfold Case.check
  split <;> rfl

theorem Case.check_ids (c : Case) (name : Str) (b : Bool) (detail : Json) :
    (c.check name b detail).caseId = c.caseId ∧ (c.check name b detail).title = c.title := by
  unfold Case.check
  split <;> exact ⟨rfl, rfl⟩

theorem checks_apply (c : Case) (call : CaseCall) :
    (call.apply c).checks = c.checks ++ call.check?.toList := by
  cases call with
  | check name b detail => simp [CaseCall.apply, CaseCall.check?]
  | unsupported reason => simp [CaseCall.apply, CaseCall.check?, Case.unsupported]
  | hold reason => simp [CaseCall.apply, CaseCall.check?, Case.hold]

theorem ids_apply (c : Case) (call : CaseCall) :
    (call.apply c).caseId = c.caseId ∧ (call.apply c).title = c.title := by
  cases call with
  | check name b detail => exact c.check_ids name b detail
  | unsupported reason => exact ⟨rfl, rfl⟩
  | hold reason => exact ⟨rfl, rfl⟩

/-- A decision replaces the verdict; a failed check only one that is still `PASS`. -/
theorem verdict_apply (c : Case) (call : CaseCall) :
    (call.apply c).verdict =
      call.decision?.getD (if call.fails ∧ c.verdict = .PASS then .FAIL else c.verdict) := by
  cases call with
  | check name b detail => cases b <;> simp [CaseCall.apply, CaseCall.decision?, CaseCall.fails]
  | unsupported reason => rfl
  | hold reason => rfl

/-! ## Any calls -/

theorem checks_run (c : Case) (calls : List CaseCall) :
    (caseMachine.run c calls).checks = c.checks ++ calls.filterMap CaseCall.check? := by
  induction calls generalizing c with
  | nil => simp
  | cons call calls ih =>
    have hstep : caseMachine.next c call = call.apply c := rfl
    rw [Base.Machine.run_cons, hstep, ih, checks_apply, List.append_assoc]
    cases hk : call.check? with
    | none => rw [List.filterMap_cons_none hk, Option.toList_none, List.nil_append]
    | some k => rw [List.filterMap_cons_some hk, Option.toList_some, List.singleton_append]

theorem ids_run (c : Case) (calls : List CaseCall) :
    (caseMachine.run c calls).caseId = c.caseId ∧ (caseMachine.run c calls).title = c.title := by
  have hstep : ∀ c' call, (c'.caseId = c.caseId ∧ c'.title = c.title) →
      (caseMachine.next c' call).caseId = c.caseId ∧
        (caseMachine.next c' call).title = c.title := by
    intro c' call ⟨hid, htitle⟩
    exact ⟨(ids_apply c' call).1.trans hid, (ids_apply c' call).2.trans htitle⟩
  exact caseMachine.invariant_state hstep ⟨rfl, rfl⟩ calls

/-- **The verdict after any calls**: the last decision, else `FAIL` for a failed check. -/
theorem verdict_run (c : Case) (calls : List CaseCall) :
    (caseMachine.run c calls).verdict = ((calls.filterMap CaseCall.decision?).getLast?).getD
      (if calls.any CaseCall.fails ∧ c.verdict = .PASS then .FAIL else c.verdict) := by
  induction calls using List.reverseRecOn with
  | nil => simp
  | append_singleton calls call ih =>
    have hstep : ∀ c, caseMachine.next c call = call.apply c := fun _ => rfl
    rw [Base.Machine.run_concat, hstep, verdict_apply, List.filterMap_append, ih]
    cases hd : call.decision? with
    | some v => simp [hd]
    | none =>
      -- a check leaves every decision before it standing
      cases hlast : (calls.filterMap CaseCall.decision?).getLast? with
      | none => by_cases hf : call.fails = true <;> by_cases ha : calls.any CaseCall.fails = true <;>
          by_cases hv : c.verdict = .PASS <;> simp_all
      | some v =>
        have hv : v ≠ .PASS := by
          obtain ⟨d, -, hd'⟩ := List.mem_filterMap.mp (List.mem_of_getLast? hlast)
          cases d <;> simp [CaseCall.decision?] at hd' <;> simp [← hd']
        simp [hd, hlast, hv]

/-! ## One case -/

/-- **A case is reported under its own name**, whatever its function does. -/
theorem ids_runCase (spec : CaseSpec) :
    (runCase spec).caseId = spec.caseId ∧ (runCase spec).title = spec.title := by
  unfold runCase
  cases spec.fn.raises with
  | none => exact ids_run _ _
  | some exc => exact ids_run _ _

theorem failsCheck_runCase (spec : CaseSpec) :
    (runCase spec).FailsCheck ↔ ∃ call ∈ spec.fn.calls, call.fails = true := by
  have hchecks : (runCase spec).checks = spec.fn.calls.filterMap CaseCall.check? := by
    unfold runCase
    cases spec.fn.raises with
    | none => exact checks_run _ _
    | some exc => exact checks_run _ _
  rw [Case.FailsCheck, hchecks]
  constructor
  · rintro ⟨k, hk, hpassed⟩
    obtain ⟨call, hcall, hk'⟩ := List.mem_filterMap.mp hk
    refine ⟨call, hcall, ?_⟩
    cases call <;> simp [CaseCall.check?] at hk'
    subst hk'
    simpa [CaseCall.fails] using hpassed
  · rintro ⟨call, hcall, hfails⟩
    cases call with
    | check name b detail =>
      exact ⟨⟨name, b, detail⟩, List.mem_filterMap.mpr ⟨_, hcall, rfl⟩,
        by simpa [CaseCall.fails] using hfails⟩
    | unsupported reason => simp [CaseCall.fails] at hfails
    | hold reason => simp [CaseCall.fails] at hfails

/-- **A failed check is reported as `FAIL`** exactly when the function raises or decides nothing. -/
theorem verdict_runCase_of_failed {spec : CaseSpec} (h : (runCase spec).FailsCheck) :
    (runCase spec).verdict = .FAIL ↔
      spec.fn.raises.isSome ∨ ∀ call ∈ spec.fn.calls, call.decision? = none := by
  have hany : spec.fn.calls.any CaseCall.fails = true :=
    List.any_eq_true.mpr ((failsCheck_runCase spec).mp h)
  have hnone : (∀ call ∈ spec.fn.calls, call.decision? = none) ↔
      spec.fn.calls.filterMap CaseCall.decision? = [] := List.filterMap_eq_nil_iff.symm
  unfold runCase
  cases hr : spec.fn.raises with
  | some exc => simp
  | none =>
    rw [hnone]
    simp only [verdict_run, hany, true_and, if_true, Option.isSome_none, Bool.false_eq_true, false_or]
    cases hlast : (spec.fn.calls.filterMap CaseCall.decision?).getLast? with
    | none => simpa using List.getLast?_eq_none_iff.mp hlast
    | some v =>
      obtain ⟨d, -, hd⟩ := List.mem_filterMap.mp (List.mem_of_getLast? hlast)
      have hne : spec.fn.calls.filterMap CaseCall.decision? ≠ [] := by
        intro hnil
        simp [hnil] at hlast
      cases d <;> simp [CaseCall.decision?] at hd <;> simp [← hd, hne]

/-! ## A whole matrix -/

/-- `run_cases` adds one case for each triple, in order. -/
theorem cases_runCases (report : MatrixReport) (specs : List CaseSpec) :
    (runCases report specs).cases = report.cases ++ specs.map runCase := by
  induction specs generalizing report with
  | nil => simp [runCases]
  | cons spec specs ih =>
    have h := ih (report.add (runCase spec))
    simp only [runCases, List.foldl_cons] at h ⊢
    rw [h]
    simp [MatrixReport.add]

theorem ok_iff (report : MatrixReport) :
    report.ok = true ↔
      ∀ case ∈ report.cases, case.verdict = .PASS ∨ case.verdict = .UNSUPPORTED := by
  simp [MatrixReport.ok, CLEARING_VERDICTS]

theorem count_eq_zero (report : MatrixReport) (v : Verdict) :
    report.count v = 0 ↔ ∀ case ∈ report.cases, case.verdict ≠ v := by
  simp [MatrixReport.count, List.countP_eq_zero]

end McpHeartbeat
