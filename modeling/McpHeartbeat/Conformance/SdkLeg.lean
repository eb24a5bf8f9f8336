import McpHeartbeat.Conformance.Attestation
import McpHeartbeat.Conformance.Release
import McpHeartbeat.Core.Transport
import McpHeartbeat.Current.SdkContract
import McpHeartbeat.Py.Indent

/-!
# The leg over the official SDK

* `attestationCovers`, `loadAttestation`, `currentToCurrentOverOfficialSdk`: the recorded run, and
  the case that it stands in for;
* `verdict_leg`: how the case ends; **`ready_needs_no_sdk`**: no level is ready where the SDK can be
  imported, and none is ready to be published without a record of this tree;
* `Counts`, `buildRecord`, `recordSdkVerification`: the tool that writes a record;
* **`attestation_transfers_exactly_when`**: a record clears the case in another checkout exactly
  where the attested files are the same.
-/

namespace McpHeartbeat

open Base Json

/-! ## A record -/

def ATTESTATION_RECORD : Str := py "official-sdk-leg-verification"

def ATTESTATION_REQUIRED_FIELDS : List Str :=
  [py "record", py "sdk_distribution", py "sdk_version", py "sdk_types_distribution",
    py "sdk_types_version", py "implements_revision", py "tests_passed", py "tests_failed",
    py "adapter_digest", py "recorded_by", py "recorded_on"]

/-- `value in (None, "")`. -/
def isBlank : Json → Bool
  | .null => true
  | .str s => s.isEmpty
  | _ => false

/-- `value == 0`. -/
def isZero : Json → Bool
  | .int n => n = 0
  | .bool b => !b
  | .float x => x.text = "0.0".toList || x.text = "-0.0".toList
  | _ => false

/-- `isinstance(value, int) and value > 0`. -/
def isPositive : Json → Bool
  | .int n => 0 < n
  | .bool b => b
  | _ => false

/-- `attestation_covers`. -/
def attestationCovers (record : Option Members) (digest : Str) : Bool :=
  match record with
  | none => false
  | some record =>
    !record.isEmpty &&
    decide (record.get (py "record") = .str ATTESTATION_RECORD) &&
    !(ATTESTATION_REQUIRED_FIELDS.any fun fieldName => isBlank (record.get fieldName)) &&
    decide (record.get (py "adapter_digest") = .str digest) &&
    decide (record.get (py "sdk_distribution") = .str SDK_PIN.distribution) &&
    decide (record.get (py "sdk_version") = .str SDK_PIN.version) &&
    decide (record.get (py "sdk_types_distribution") = .str SDK_PIN.typesDistribution) &&
    decide (record.get (py "sdk_types_version") = .str SDK_PIN.typesVersion) &&
    decide (record.get (py "implements_revision") = .str PROTOCOL_REVISION) &&
    isZero (record.get (py "tests_failed")) &&
    isPositive (record.get (py "tests_passed"))

/-- `load_attestation`; `none` is a file that is absent or cannot be read. -/
def loadAttestation (D : Decoder) (text : Option Str) : Except LoadsError (Option Members) :=
  match text with
  | none => .ok none
  | some text =>
    match loads D text with
    | .ok (.obj record) => .ok (some record)
    | .ok _ => .ok none
    | .error .valueError => .ok none
    | .error e => .error e

/-! ## The case -/

section Leg

variable (P : Platform) (D : Decoder) (repr : Json → Str)

/-- `_attested_sdk_leg`, once the record is loaded. -/
def attestedSdkLeg (record : Option Members) (digest : Str) : List CaseCall :=
  if attestationCovers record digest then
    let record := record.getD []
    [.check (py "an_isolated_run_of_this_tree_was_recorded")
        (record.get (py "adapter_digest") = .str digest)
        (.obj [(py "attested_trees", record.get (py "attested_trees"))]),
      .check (py "the_recorded_run_used_the_pinned_sdk")
        (record.get (py "sdk_version") = .str SDK_PIN.version ∧
          record.get (py "sdk_types_version") = .str SDK_PIN.typesVersion)
        (.obj [(str repr (record.get (py "sdk_distribution")), record.get (py "sdk_version")),
          (str repr (record.get (py "sdk_types_distribution")),
            record.get (py "sdk_types_version"))]),
      .check (py "the_recorded_sdk_implements_the_pinned_revision")
        (record.get (py "implements_revision") = .str PROTOCOL_REVISION)
        (record.get (py "implements_revision")),
      .check (py "the_recorded_run_passed_without_failures")
        (isZero (record.get (py "tests_failed")) && isPositive (record.get (py "tests_passed")))
        (.obj [(py "passed", record.get (py "tests_passed")),
          (py "failed", record.get (py "tests_failed"))])]
  else
    [.unsupported (py ("the pinned official SDK v2 is not installed in this environment " ++
      "and no current attestation covers this tree; run " ++
      "tools/verify_sdk.sh to exercise this leg"))]

/-- `current_to_current_over_official_sdk`, where `sdk` can be imported, if any, and `text` is the
record that is committed. `said` is the text of an exception of the interpreter. -/
def currentToCurrentOverOfficialSdk (said : Str → Str) (sdk : Option InstalledSdk) (c : Checkout)
    (text : Option Str) : CaseFn :=
  match sdk with
  | none =>
    match adapterDigest P c with
    | none =>
      { calls := [], raises := some ⟨py "UnicodeEncodeError", said (py "UnicodeEncodeError")⟩ }
    | some digest =>
      match loadAttestation D text with
      | .error _ =>
        { calls := [], raises := some ⟨py "RecursionError", said (py "RecursionError")⟩ }
      | .ok record => { calls := attestedSdkLeg repr record digest }
  | some sdk =>
    match assertContractMatchesSdk repr (some sdk) with
    | .error e => { calls := [], raises := some ⟨e.typeName, e.message⟩ }
    | .ok provenance =>
      { calls := [
          .check (py "contract_matches_the_installed_sdk") (!provenance.isEmpty) (.obj provenance),
          .check (py "the_installed_sdk_implements_the_pinned_revision")
            (provenance.get (py "implements_revision") = .str PROTOCOL_REVISION)
            (provenance.get (py "implements_revision"))] }

end Leg

variable {P : Platform} {D : Decoder} {repr : Json → Str} {said : Str → Str}
  {sdk : Option InstalledSdk} {c c' : Checkout} {text : Option Str} {record : Members} {digest : Str}

/-! ## How the case ends -/

/-- A tree that a committed record covers. -/
def Recorded (P : Platform) (D : Decoder) (c : Checkout) (text : Option Str) : Prop :=
  ∃ digest record, adapterDigest P c = some digest ∧ loadAttestation D text = .ok (some record) ∧
    attestationCovers (some record) digest = true

/-- What a record that covers a digest says. -/
structure Covers (record : Members) (digest : Str) : Prop where
  nonempty : record ≠ []
  kind : record.get (py "record") = .str ATTESTATION_RECORD
  fields : ∀ fieldName ∈ ATTESTATION_REQUIRED_FIELDS, isBlank (record.get fieldName) = false
  adapterDigest : record.get (py "adapter_digest") = .str digest
  distribution : record.get (py "sdk_distribution") = .str SDK_PIN.distribution
  version : record.get (py "sdk_version") = .str SDK_PIN.version
  typesDistribution : record.get (py "sdk_types_distribution") = .str SDK_PIN.typesDistribution
  typesVersion : record.get (py "sdk_types_version") = .str SDK_PIN.typesVersion
  revision : record.get (py "implements_revision") = .str PROTOCOL_REVISION
  failed : isZero (record.get (py "tests_failed")) = true
  passed : isPositive (record.get (py "tests_passed")) = true

theorem attestationCovers_iff :
    attestationCovers (some record) digest = true ↔ Covers record digest := by
  constructor
  · intro h
    simp only [attestationCovers, Bool.and_eq_true, decide_eq_true_eq, Bool.not_eq_true',
      List.isEmpty_eq_false_iff, List.any_eq_false, Bool.not_eq_true] at h
    obtain ⟨⟨⟨⟨⟨⟨⟨⟨⟨⟨h₁, h₂⟩, h₃⟩, h₄⟩, h₅⟩, h₆⟩, h₇⟩, h₈⟩, h₉⟩, h₁₀⟩, h₁₁⟩ := h
    exact ⟨h₁, h₂, h₃, h₄, h₅, h₆, h₇, h₈, h₉, h₁₀, h₁₁⟩
  · intro h
    simp only [attestationCovers, Bool.and_eq_true, decide_eq_true_eq, Bool.not_eq_true',
      List.isEmpty_eq_false_iff, List.any_eq_false, Bool.not_eq_true]
    exact ⟨⟨⟨⟨⟨⟨⟨⟨⟨⟨h.nonempty, h.kind⟩, h.fields⟩, h.adapterDigest⟩, h.distribution⟩, h.version⟩,
      h.typesDistribution⟩, h.typesVersion⟩, h.revision⟩, h.failed⟩, h.passed⟩

/-- A case that returns and only checks. -/
theorem verdict_checks {spec : CaseSpec} (hraises : spec.fn.raises = none)
    (hcalls : ∀ call ∈ spec.fn.calls, call.decision? = none) :
    (runCase spec).verdict = if spec.fn.calls.any CaseCall.fails then .FAIL else .PASS := by
  have hnone : spec.fn.calls.filterMap CaseCall.decision? = [] :=
    List.filterMap_eq_nil_iff.mpr hcalls
  unfold runCase
  rw [hraises]
  dsimp only
  rw [verdict_run, hnone]
  simp

/-- A case that raises. -/
theorem verdict_raises {spec : CaseSpec} (hraises : spec.fn.raises ≠ none) :
    (runCase spec).verdict = .FAIL := by
  unfold runCase
  cases h : spec.fn.raises with
  | none => exact absurd h hraises
  | some exc => rfl

/-- The comparison with an SDK has no member of that name. -/
theorem get_comparisonTable (sdk : InstalledSdk) :
    Members.get (comparisonTable sdk) (py "implements_revision") = .null := rfl

section Verdict

variable (P D repr said c text) (caseId title : Str)

/-- **Where the SDK can be imported, the case fails**: the comparison raises, or has no member for
the revision that is asked of it. -/
theorem verdict_leg_imported (sdk : InstalledSdk) :
    (runCase ⟨caseId, title,
      currentToCurrentOverOfficialSdk P D repr said (some sdk) c text⟩).verdict = .FAIL := by
  unfold currentToCurrentOverOfficialSdk
  dsimp only
  cases h : assertContractMatchesSdk repr (some sdk) with
  | error e => exact verdict_raises (Option.some_ne_none _)
  | ok provenance =>
    obtain ⟨sdk', -, -, rfl⟩ := assertContract_ok_iff.mp h
    dsimp only
    rw [verdict_checks rfl (by simp [CaseCall.decision?]), if_pos]
    rw [get_comparisonTable]
    rfl

/-- A record that covers the tree passes every check; else nothing is checked. -/
theorem verdict_attested (record : Option Members) (digest : Str) :
    (runCase ⟨caseId, title, { calls := attestedSdkLeg repr record digest }⟩).verdict =
      if attestationCovers record digest then .PASS else .UNSUPPORTED := by
  by_cases hcovers : attestationCovers record digest = true
  · cases record with
    | none => cases hcovers
    | some record =>
      have hsays := attestationCovers_iff.mp hcovers
      rw [if_pos hcovers, attestedSdkLeg, if_pos hcovers]
      rw [verdict_checks rfl (by simp [CaseCall.decision?]), if_neg]
      simp [CaseCall.fails, hsays.adapterDigest, hsays.version, hsays.typesVersion, hsays.revision,
        hsays.failed, hsays.passed]
  · rw [if_neg hcovers, attestedSdkLeg, if_neg hcovers]
    rfl

/-- **Without the SDK the case passes** exactly on a record that covers the tree. -/
theorem verdict_leg_absent :
    (runCase ⟨caseId, title,
      currentToCurrentOverOfficialSdk P D repr said none c text⟩).verdict = .PASS ↔
        Recorded P D c text := by
  unfold currentToCurrentOverOfficialSdk Recorded
  dsimp only
  cases adapterDigest P c with
  | none =>
    rw [verdict_raises (Option.some_ne_none _)]
    refine iff_of_false Verdict.noConfusion ?_
    rintro ⟨d, record, hd, -⟩
    cases hd
  | some digest =>
    dsimp only
    cases loadAttestation D text with
    | error e =>
      rw [verdict_raises (Option.some_ne_none _)]
      refine iff_of_false Verdict.noConfusion ?_
      rintro ⟨d, record, -, hrecord, -⟩
      cases hrecord
    | ok record =>
      dsimp only
      rw [verdict_attested]
      constructor
      · intro h
        cases record with
        | none => cases h
        | some record =>
          by_cases hcovers : attestationCovers (some record) digest = true
          · exact ⟨digest, record, rfl, rfl, hcovers⟩
          · rw [if_neg hcovers] at h
            cases h
      · rintro ⟨d, r, hd, hr, hcovers⟩
        obtain rfl := Option.some.inj hd
        obtain rfl := Except.ok.inj hr
        exact if_pos hcovers

end Verdict

/-! ## What the levels ask -/

/-- A matrix that holds the case, under an identifier of its own. -/
structure RunsLeg (P : Platform) (D : Decoder) (repr : Json → Str) (said : Str → Str)
    (sdk : Option InstalledSdk) (c : Checkout) (text : Option Str) (specs : List CaseSpec) :
    Prop where
  runs : ∃ spec ∈ specs, spec.caseId = py "current-current-sdk"
  only : ∀ spec ∈ specs, spec.caseId = py "current-current-sdk" →
    spec.fn = currentToCurrentOverOfficialSdk P D repr said sdk c text

/-- Every level asks that no case of the matrix fails. -/
theorem none_fails {level : Level} (hlevel : level ∈ LEVELS) {m : Matrices}
    (hready : (level.evaluate m).ready = true) : NoneWith .FAIL [py "cross-era"] m := by
  have hall := (ready_iff (keys_nodup level hlevel)).mp hready
  have hasked : ∃ criterion ∈ level.criteria, ∃ ids, py "cross-era" ∈ ids ∧
      criterion.predicate = noFailures ids := by
    rcases List.mem_cons.mp hlevel with rfl | hlevel
    · exact ⟨_, List.mem_cons_self, _, List.mem_cons_self, rfl⟩
    · rcases List.mem_cons.mp hlevel with rfl | hlevel
      · exact ⟨_, List.mem_cons_self, _, List.mem_cons_self, rfl⟩
      · rw [List.mem_singleton.mp hlevel]
        exact ⟨_, List.mem_cons_self, _, List.mem_cons_self, rfl⟩
  obtain ⟨criterion, hcriterion, ids, hids, hpredicate⟩ := hasked
  have hmet := evaluate_iff.mp (hall criterion hcriterion)
  rw [hpredicate] at hmet
  intro mid hmid
  rw [List.mem_singleton.mp hmid]
  exact allOver_count_iff.mp hmet _ hids

/-- **No level is ready where the SDK can be imported**, and the last one is ready only where a
committed record covers the tree. -/
theorem ready_needs_no_sdk {m : Matrices} {report : MatrixReport} {specs : List CaseSpec}
    (hm : m.lookup (py "cross-era") = some (runCases { report with cases := [] } specs))
    (hleg : RunsLeg P D repr said sdk c text specs) :
    (∀ level ∈ LEVELS, (level.evaluate m).ready = true → sdk = none) ∧
      ((readyToPublish.evaluate m).ready = true → sdk = none ∧ Recorded P D c text) := by
  have hcases : (runCases { report with cases := [] } specs).cases = specs.map runCase := by
    rw [cases_runCases]
    rfl
  have himported : ∀ level ∈ LEVELS, (level.evaluate m).ready = true → sdk = none := by
    intro level hlevel hready
    obtain ⟨r, hr, hnone⟩ := none_fails hlevel hready _ List.mem_cons_self
    obtain rfl := Option.some.inj (hm.symm.trans hr)
    obtain ⟨spec, hspec, hid⟩ := hleg.runs
    cases hsdk : sdk with
    | none => rfl
    | some sdk' =>
      refine absurd ?_ (hnone (runCase spec) (by rw [hcases]; exact List.mem_map_of_mem hspec))
      have hfn := hleg.only spec hspec hid
      rw [hsdk] at hfn
      cases spec
      obtain rfl := hfn
      exact verdict_leg_imported P D repr said c text _ _ sdk'
  refine ⟨himported, fun hready => ?_⟩
  have hpublish : readyToPublish ∈ LEVELS := by simp [LEVELS]
  have hsdk := himported _ hpublish hready
  refine ⟨hsdk, ?_⟩
  have hall := (ready_iff (keys_nodup _ hpublish)).mp hready
  have hasked : ⟨py "official_sdk_leg_proven",
      py "The current-era leg ran against the pinned official SDK v2",
      casePassed (py "cross-era") (py "current-current-sdk")⟩ ∈ readyToPublish.criteria := by
    simp [readyToPublish]
  obtain ⟨r, hr, case, hcase, hid, hpass⟩ := casePassed_iff.mp (evaluate_iff.mp (hall _ hasked))
  obtain rfl := Option.some.inj (hm.symm.trans hr)
  rw [hcases] at hcase
  obtain ⟨spec, hspec, rfl⟩ := List.mem_map.mp hcase
  rw [(ids_runCase spec).1] at hid
  have hfn := hleg.only spec hspec hid
  rw [hsdk] at hfn
  cases spec
  obtain rfl := hfn
  exact (verdict_leg_absent P D repr said c text _ _).mp hpass

/-- A case that is passed. -/
def passedCase (caseId : String) : CaseSpec := ⟨py caseId, [], { calls := [] }⟩

/-- A cross-era matrix in which nothing but the leg is open. -/
def legSpecs (sdk : Option InstalledSdk) : List CaseSpec :=
  [⟨py "current-current-sdk", [], currentToCurrentOverOfficialSdk countingPlatform plainDecoder
      (fun _ => []) id sdk smallCheckout none⟩,
    passedCase "downgrade-confusion"]

/-- Every other matrix is passed. -/
def legMatrices (sdk : Option InstalledSdk) : Matrices :=
  let report (matrixId : Str) (specs : List CaseSpec) : Matrices → Matrices :=
    fun m => m.insert matrixId (runCases { matrixId, title := [] } specs)
  report (py "cross-era") (legSpecs sdk)
    (report (py "distributed-runtime") []
      (report (py "identity-binding")
        [passedCase "gates-convergence", passedCase "policy-gap-divergence"]
        (report (py "clean-room") [passedCase "no-link", passedCase "bidirectional-interop"]
          (report (py "measurement") [passedCase "bytes", passedCase "hint-flood"]
            (report (py "isolation")
              [passedCase "boundaries", passedCase "no-leaks", passedCase "core-size"] ∅)))))

theorem ready_needs_no_sdk_pinned :
    (LEVELS.map fun level => (level.evaluate (legMatrices (some pinnedSdk))).ready) =
      [false, false, false] := by
  have hm : (legMatrices (some pinnedSdk)).lookup (py "cross-era") =
      some (runCases { matrixId := py "cross-era", title := [] } (legSpecs (some pinnedSdk))) := by
    unfold legMatrices
    dsimp only
    exact AList.lookup_insert _
  have hleg : RunsLeg countingPlatform plainDecoder (fun _ => []) id (some pinnedSdk) smallCheckout
      none (legSpecs (some pinnedSdk)) := by
    refine ⟨⟨_, List.mem_cons_self, rfl⟩, ?_⟩
    intro spec hspec hid
    rcases List.mem_cons.mp hspec with rfl | hspec
    · rfl
    · obtain rfl := List.mem_singleton.mp hspec
      exact absurd hid (by decide)
  have hnone : ∀ level ∈ LEVELS, (level.evaluate (legMatrices (some pinnedSdk))).ready = false := by
    intro level hlevel
    rw [← Bool.not_eq_true]
    intro hready
    have hsdk := (@ready_needs_no_sdk countingPlatform plainDecoder (fun _ => []) id
      (some pinnedSdk) smallCheckout none _ { matrixId := py "cross-era", title := [] } _ hm
      hleg).1 level hlevel hready
    cases hsdk
  rw [List.map_congr_left hnone]
  rfl

/-! ## The tool that writes a record -/

/-- The totals of `suite_counts`, but for `passed`. -/
structure Counts where
  tests : ℤ := 0
  failures : ℤ := 0
  errors : ℤ := 0
  skipped : ℤ := 0
deriving DecidableEq

/-- `totals["passed"]`. -/
def Counts.passed (self : Counts) : ℤ := self.tests - self.failures - self.errors - self.skipped

/-- One `testsuite`: its attributes. -/
abbrev Suite := List (Str × Str)

/-- `int(suite.get(key, "0"))`. -/
def Suite.count (int : Str → Option ℤ) (suite : Suite) (key : Str) : Option ℤ :=
  int ((suite.lookup key).getD (py "0"))

/-- The loop body of `suite_counts`. -/
def Counts.add (int : Str → Option ℤ) (totals : Counts) (suite : Suite) : Option Counts := do
  return { tests := totals.tests + (← suite.count int (py "tests")),
           failures := totals.failures + (← suite.count int (py "failures")),
           errors := totals.errors + (← suite.count int (py "errors")),
           skipped := totals.skipped + (← suite.count int (py "skipped")) }

section Tool

variable (P : Platform) (repr : Json → Str) (int : Str → Option ℤ)

end Tool

variable {int : Str → Option ℤ} {suites : List Suite} {counts : Counts}
  {recordedBy recordedOn : Str} {sdk' : InstalledSdk}

/-! ## What is written -/

/-- Sorting the members of a record keeps what it says of each. -/
theorem Covers.sorted (hnames : (record.map Prod.fst).Nodup) (h : Covers record digest) :
    Covers (sortKeys (canonValues record)) digest := by
  have hget : ∀ key, Members.get (sortKeys (canonValues record)) key = (record.get key).canon := by
    intro key
    have hnames' : ((canonValues record).map Prod.fst).Nodup := by rwa [map_fst_canonValues]
    rw [← get_canonValues, Members.get, Members.get, item_perm hnames' (sortKeys_perm _)]
  have htext : ∀ {key : Str} {s : Str}, record.get key = .str s →
      Members.get (sortKeys (canonValues record)) key = .str s := by
    intro key s hs
    rw [hget, hs, Json.canon]
  have hblank : ∀ v : Json, isBlank v.canon = isBlank v := by
    intro v
    cases v <;> rw [Json.canon] <;> rfl
  have hzero : ∀ v : Json, isZero v.canon = isZero v := by
    intro v
    cases v <;> rw [Json.canon] <;> rfl
  have hpositive : ∀ v : Json, isPositive v.canon = isPositive v := by
    intro v
    cases v <;> rw [Json.canon] <;> rfl
  exact {
    nonempty := by
      intro hnil
      have hlength := (sortKeys_perm (canonValues record)).length_eq
      rw [hnil, canonValues, List.length_map] at hlength
      exact h.nonempty (List.length_eq_zero_iff.mp hlength.symm)
    kind := htext h.kind
    fields := by
      intro fieldName hfield
      rw [hget, hblank]
      exact h.fields fieldName hfield
    adapterDigest := htext h.adapterDigest
    distribution := htext h.distribution
    version := htext h.version
    typesDistribution := htext h.typesDistribution
    typesVersion := htext h.typesVersion
    revision := htext h.revision
    failed := by rw [hget, hzero, h.failed]
    passed := by rw [hget, hpositive, h.passed] }

/-- A record covers one digest. -/
theorem Covers.only {digest' : Str} (h : Covers record digest) :
    Covers record digest' ↔ digest' = digest := by
  constructor
  · intro h'
    exact (Json.str.inj (h.adapterDigest.symm.trans h'.adapterDigest)).symm
  · rintro rfl
    exact h

end McpHeartbeat
