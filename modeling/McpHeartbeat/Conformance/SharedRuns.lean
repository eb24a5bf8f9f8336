import Mathlib.Algebra.Order.Field.Rat
import Mathlib.Data.Finset.Card
import Mathlib.Data.Finset.Dedup
import Mathlib.Data.Finset.Lattice.Basic
import McpHeartbeat.Base.Runs
import McpHeartbeat.Conformance.Verdicts
import McpHeartbeat.Py.Text

/-!
# The copy check

A block that was copied is a run of consecutive lines that two trees share.

* `longestSharedRun`, `significantLines`, `sharesNoSource`: the run, the lines that count, and the
  checks of the case;
* `longest_extendRun`: the two accumulators of the loop;
* **`longest_shared_run_exact`**: no shared block is longer than the run that is returned, so the
  check fails exactly where a block of the ceiling length is shared.
-/

namespace McpHeartbeat

open Base

/-! ## The longest shared run -/

/-- One turn of the loop: the best run so far, and the run that ends at the line. -/
def extendRun (reference : Finset Str) (s : List Str × List Str) (line : Str) :
    List Str × List Str :=
  let (best, current) := s
  if line ∈ reference then
    let current := current ++ [line]
    (if best.length < current.length then current else best, current)
  else (best, [])

/-- `longest_shared_run`. -/
def longestSharedRun (candidate : List Str) (reference : Finset Str) : ℕ × List Str :=
  let best := (candidate.foldl (extendRun reference) ([], [])).1
  (best.length, best)

/-- **The accumulators**: a longest run of the lines that were read, and the run at their end. -/
theorem longest_extendRun (reference : Finset Str) (candidate : List Str) :
    Longest (· ∈ reference) candidate (candidate.foldl (extendRun reference) ([], [])).1 ∧
      (candidate.foldl (extendRun reference) ([], [])).2 =
        candidate.rtakeWhile (· ∈ reference) := by
  induction candidate using List.reverseRecOn with
  | nil => exact ⟨Longest.nil _, rfl⟩
  | append_singleton lines line ih =>
    obtain ⟨hbest, hcurrent⟩ := ih
    have hconcat := hbest.concat line
    rw [List.foldl_concat, extendRun]
    by_cases hline : line ∈ reference
    · have hrun := List.rtakeWhile_concat_pos (fun l => decide (l ∈ reference)) lines line
        (decide_eq_true hline)
      rw [hrun] at hconcat ⊢
      rw [if_pos hline, hcurrent]
      exact ⟨hconcat, rfl⟩
    · have hrun := List.rtakeWhile_concat_neg (fun l => decide (l ∈ reference)) lines line
        (by simpa using hline)
      rw [hrun] at hconcat ⊢
      rw [if_neg hline]
      exact ⟨hconcat, rfl⟩

/-- What is returned for a list of lines and a reference. -/
structure ExactRun (candidate : List Str) (reference : Finset Str) (n : ℕ) (run : List Str) :
    Prop where
  length : n = run.length
  stretch : run <:+: candidate
  shared : ∀ line ∈ run, line ∈ reference
  longest : ∀ block, block <:+: candidate → (∀ line ∈ block, line ∈ reference) → block.length ≤ n

theorem exactRun (candidate : List Str) (reference : Finset Str) :
    ExactRun candidate reference (longestSharedRun candidate reference).1
      (longestSharedRun candidate reference).2 := by
  have h := (longest_extendRun reference candidate).1
  refine ⟨rfl, h.stretch, fun line hline => of_decide_eq_true (h.all line hline), ?_⟩
  intro block hblock hshared
  exact h.longest block ⟨hblock, fun line hline => decide_eq_true (hshared line hline)⟩

/-! ## The lines that count -/

def MIN_SHARED_LINE_CHARS : ℕ := 24

def MAX_SHARED_RUN_LINES : ℕ := 4

/-- `MAX_SHARED_LINE_RATIO`. -/
def MAX_SHARED_LINE_RATIO : FloatText := ⟨"0.25".toList, by decide, by decide, by decide⟩

/-- A line of code, normalised, if it is long enough to be evidence. -/
def significantLine (raw : Str) : Option Str :=
  let stripped := raw.strip
  if stripped = [] ∨ py "#" <+: stripped then none
  else if py "import " <+: stripped ∨ py "from " <+: stripped then none
  else
    let collapsed := (py " ").intercalate stripped.split
    if MIN_SHARED_LINE_CHARS ≤ collapsed.length then some collapsed else none

/-- `_significant_lines`, of the text of a module. -/
def significantLines (text : Str) : List Str := text.splitlines.filterMap significantLine

/-! ## The case -/

/-- The totals that the case keeps while it reads the modules of the clean room. -/
structure Overlap where
  worstRun : ℕ := 0
  worstExcerpt : List Str := []
  cleanTotal : ℕ := 0
  sharedTotal : ℕ := 0

/-- One module of the clean room. -/
def Overlap.read (reference : Finset Str) (o : Overlap) (module : Str) : Overlap :=
  let lines := significantLines module
  let (run, excerpt) := longestSharedRun lines reference
  let o := { o with
    cleanTotal := o.cleanTotal + lines.length
    sharedTotal := o.sharedTotal + lines.countP (· ∈ reference) }
  if run > o.worstRun then { o with worstRun := run, worstExcerpt := excerpt } else o

/-- The significant lines of the reference. -/
def referenceLines (modules : List Str) : Finset Str :=
  modules.foldl (fun reference module => reference ∪ (significantLines module).toFinset) ∅

/-- `shares_no_source_with_the_reference`, of the texts of the modules of both trees; `rounded` is
the text of a ratio that is rounded to three digits. -/
def sharesNoSource (rounded : ℚ → FloatText) (referenceSrc cleanroomSrc : List Str) :
    List CaseCall :=
  let reference := referenceLines referenceSrc
  let o := cleanroomSrc.foldl (Overlap.read reference) {}
  let ratio : ℚ := if o.cleanTotal = 0 then 0 else o.sharedTotal / o.cleanTotal
  [.check (py "both_trees_were_actually_read") (o.cleanTotal ≠ 0 ∧ reference ≠ ∅)
      (.obj [(py "clean", .int o.cleanTotal), (py "reference", .int reference.card)]),
    .check (py "no_contiguous_block_is_shared") (o.worstRun < MAX_SHARED_RUN_LINES)
      (.obj [(py "longest_run", .int o.worstRun), (py "ceiling", .int MAX_SHARED_RUN_LINES),
        (py "excerpt", .arr (o.worstExcerpt.map .str))]),
    .check (py "scattered_overlap_stays_incidental") (ratio < 1 / 4)
      (.obj [(py "ratio", .float (rounded ratio)), (py "ceiling", .float MAX_SHARED_LINE_RATIO),
        (py "shared", .int o.sharedTotal)])]

/-- One module makes the worst run as long as its own, if that is longer. -/
theorem worstRun_read (reference : Finset Str) (o : Overlap) (module : Str) :
    (o.read reference module).worstRun =
      max o.worstRun (longestSharedRun (significantLines module) reference).1 := by
  unfold Overlap.read
  dsimp only
  split_ifs with hlonger
  · exact (max_eq_right (Nat.le_of_lt hlonger)).symm
  · exact (max_eq_left (Nat.not_lt.mp hlonger)).symm

/-- **The worst run is as long as the longest of a module.** -/
theorem le_worstRun_iff (reference : Finset Str) (k : ℕ) (o : Overlap) (modules : List Str) :
    k ≤ (modules.foldl (Overlap.read reference) o).worstRun ↔ k ≤ o.worstRun ∨
      ∃ module ∈ modules, k ≤ (longestSharedRun (significantLines module) reference).1 := by
  induction modules generalizing o with
  | nil => simp
  | cons module modules ih =>
    rw [List.foldl_cons, ih, worstRun_read, le_max_iff]
    simp only [List.mem_cons, exists_eq_or_imp, or_assoc]

/-- A block of at least `k` lines of the module stands in the reference line by line. -/
def SharesBlock (reference : Finset Str) (k : ℕ) (module : Str) : Prop :=
  ∃ block, block <:+: significantLines module ∧ (∀ line ∈ block, line ∈ reference) ∧
    k ≤ block.length

theorem sharesBlock_iff {reference : Finset Str} {k : ℕ} {module : Str} :
    SharesBlock reference k module ↔
      k ≤ (longestSharedRun (significantLines module) reference).1 := by
  have hexact := exactRun (significantLines module) reference
  constructor
  · rintro ⟨block, hblock, hshared, hk⟩
    exact hk.trans (hexact.longest block hblock hshared)
  · intro hk
    exact ⟨_, hexact.stretch, hexact.shared, hexact.length ▸ hk⟩

/-- The outcome of the check on contiguous blocks, among the calls of the case. -/
def BlockCheck (passed : Bool) (calls : List CaseCall) : Prop :=
  ∃ detail, .check (py "no_contiguous_block_is_shared") passed detail ∈ calls

/-- The worst run decides the check. -/
theorem blockCheck_iff {rounded : ℚ → FloatText} {referenceSrc cleanroomSrc : List Str}
    {passed : Bool} : BlockCheck passed (sharesNoSource rounded referenceSrc cleanroomSrc) ↔
      passed = decide ((cleanroomSrc.foldl (Overlap.read (referenceLines referenceSrc)) {}).worstRun <
        MAX_SHARED_RUN_LINES) := by
  have hread : py "no_contiguous_block_is_shared" ≠ py "both_trees_were_actually_read" := by decide
  have hscattered : py "no_contiguous_block_is_shared" ≠ py "scattered_overlap_stays_incidental" :=
    by decide
  unfold BlockCheck sharesNoSource
  simp only [List.mem_cons, List.not_mem_nil, or_false, CaseCall.check.injEq, hread, hscattered,
    false_and, false_or, or_false, true_and, exists_and_left, exists_eq, and_true]

/-- **The copy check is exact.** The run that is returned is a shared stretch than which none is
longer, whatever the lines and the reference; so the check passes exactly where no module has a
shared block of the ceiling length. -/
theorem longest_shared_run_exact :
    (∀ (candidate : List Str) (reference : Finset Str),
      ExactRun candidate reference (longestSharedRun candidate reference).1
        (longestSharedRun candidate reference).2) ∧
      ∀ (rounded : ℚ → FloatText) (referenceSrc cleanroomSrc : List Str) (passed : Bool),
        BlockCheck passed (sharesNoSource rounded referenceSrc cleanroomSrc) ↔
          (passed = true ↔ ∀ module ∈ cleanroomSrc,
            ¬ SharesBlock (referenceLines referenceSrc) MAX_SHARED_RUN_LINES module) := by
  refine ⟨exactRun, ?_⟩
  intro rounded referenceSrc cleanroomSrc passed
  have hworst := le_worstRun_iff (referenceLines referenceSrc) MAX_SHARED_RUN_LINES {} cleanroomSrc
  have hzero : ¬ MAX_SHARED_RUN_LINES ≤ ({} : Overlap).worstRun := by decide
  have hpasses : (cleanroomSrc.foldl (Overlap.read (referenceLines referenceSrc)) {}).worstRun <
      MAX_SHARED_RUN_LINES ↔ ∀ module ∈ cleanroomSrc,
        ¬ SharesBlock (referenceLines referenceSrc) MAX_SHARED_RUN_LINES module := by
    rw [← not_le, hworst, or_iff_right hzero]
    simp only [sharesBlock_iff, not_exists, not_and]
  rw [blockCheck_iff, ← hpasses, Bool.eq_iff_iff, decide_eq_true_iff]

end McpHeartbeat
