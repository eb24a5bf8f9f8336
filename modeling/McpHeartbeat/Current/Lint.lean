import Mathlib.Data.List.Sort
import Mathlib.Data.List.TakeWhile
import McpHeartbeat.Base.Rose
import McpHeartbeat.Py.Str

/-!
# The lint of imports

The official SDK may be imported by one module only.

* `AstNode`, `importsSdk`: the nodes of a syntax tree, and the test of the lint;
* `lintPackage`, `unexpectedSdkImporters`: the modules that the lint reports;
* `ImportsSdk`: a statement at any depth names a module of the SDK;
* `Agreed`, `Missed`, `Mistaken`: the statements by what the test makes of them;
* **`lint_exact_exactly_when`**: where the lint is exact, and where its silence can be trusted.
-/

namespace McpHeartbeat

open Base

/-- `alias`. -/
structure ImportAlias where
  name : Str
  asname : Option Str := none

/-- A node of a syntax tree, without the nodes below it. -/
inductive AstNode
  | importNames (names : List ImportAlias)
  | importFrom (module : Option Str) (names : List ImportAlias) (level : ℕ)
  | other (kind : Str)

/-- A syntax tree, as `ast.iter_child_nodes` walks it. -/
abbrev Ast := Rose AstNode

/-- The modules that may import the SDK. -/
def SDK_MODULES : List Str := [py "sdk.py"]

/-- The test of `_imports_sdk` on one node. -/
def seesSdk : AstNode → Bool
  | .importNames names =>
    names.any fun a => a.name = py "mcp" || (py "mcp.").isPrefixOf a.name
  | .importFrom module _ _ =>
    let module := module.getD []
    module = py "mcp" || (py "mcp.").isPrefixOf module || (py "mcp_types").isPrefixOf module
  | .other _ => false

/-- `_imports_sdk`. -/
def importsSdk (tree : Ast) : Bool := tree.breadthFirst.any seesSdk

/-- What a lint run reports of imports. -/
structure LintReport where
  modulesScanned : List Str
  sdkImporters : List Str

/-- `lint_package`, of the modules of a directory by their names. -/
def lintPackage (files : List (Str × Ast)) : LintReport :=
  let modules := files.insertionSort fun p q => p.1.keyLe q.1
  { modulesScanned := modules.map Prod.fst,
    sdkImporters :=
      ((modules.filter fun p => importsSdk p.2).map Prod.fst).insertionSort Str.keyLe }

/-- `unexpected_sdk_importers`. -/
def unexpectedSdkImporters (report : LintReport) : List Str :=
  report.sdkImporters.filter (· ∉ SDK_MODULES)

/-! ## What the lint is for -/

/-- `name.split(".")[0]`: the root package of a dotted name. -/
def rootPackage (name : Str) : Str := name.takeWhile (· ≠ .scalar '.')

/-- The root packages of the SDK. -/
def SDK_ROOTS : List Str := [py "mcp", py "mcp_types"]

/-- The statement is absolute, and names a module of the SDK. -/
inductive NamesSdk : AstNode → Prop
  | importNames (names : List ImportAlias) (a : ImportAlias) (mem : a ∈ names)
      (root : rootPackage a.name ∈ SDK_ROOTS) : NamesSdk (.importNames names)
  | importFrom (module : Str) (names : List ImportAlias) (root : rootPackage module ∈ SDK_ROOTS) :
      NamesSdk (.importFrom (some module) names 0)

/-- Some node of the tree, at any depth, is of the kind. -/
def Somewhere (kind : AstNode → Prop) (tree : Ast) : Prop := ∃ node, Rose.Within node tree ∧ kind node

/-- Some statement of the module names a module of the SDK. -/
def ImportsSdk (tree : Ast) : Prop := Somewhere NamesSdk tree

/-- A statement that names the SDK, and that the test sees. -/
inductive Agreed : AstNode → Prop
  | importNames (names : List ImportAlias) (a : ImportAlias) (mem : a ∈ names)
      (root : rootPackage a.name = py "mcp") : Agreed (.importNames names)
  | importFrom (module : Str) (names : List ImportAlias) (root : rootPackage module ∈ SDK_ROOTS) :
      Agreed (.importFrom (some module) names 0)

/-- A plain import of the types package, which the test does not see. -/
inductive Missed : AstNode → Prop
  | importNames (names : List ImportAlias) (a : ImportAlias) (mem : a ∈ names)
      (root : rootPackage a.name = py "mcp_types") : Missed (.importNames names)

/-- An import that the test sees, and that does not name the SDK: a relative one, or one of a package
whose name begins like that of the types package. -/
inductive Mistaken : AstNode → Prop
  | relative (module : Str) (names : List ImportAlias) (level : ℕ) (above : level ≠ 0)
      (seen : rootPackage module = py "mcp" ∨ py "mcp_types" <+: module) :
      Mistaken (.importFrom (some module) names level)
  | prefixed (module : Str) (names : List ImportAlias) (seen : py "mcp_types" <+: module)
      (root : rootPackage module ≠ py "mcp_types") : Mistaken (.importFrom (some module) names 0)

/-! ## One node -/

/-- A dotted name has the root `root` if it is that, or goes on after a dot. -/
theorem rootPackage_eq_iff {name root : Str} (h : .scalar '.' ∉ root) :
    rootPackage name = root ↔ name = root ∨ root ++ py "." <+: name := by
  have hroot : ∀ c ∈ root, decide (c ≠ .scalar '.') = true := by
    intro c hc
    exact decide_eq_true fun heq => h (heq ▸ hc)
  constructor
  · intro htake
    have hname : rootPackage name ++ name.dropWhile (fun c => decide (c ≠ .scalar '.')) = name :=
      List.takeWhile_append_dropWhile
    cases hrest : name.dropWhile fun c => decide (c ≠ .scalar '.') with
    | nil =>
      rw [hrest, List.append_nil] at hname
      exact Or.inl (hname.symm.trans htake)
    | cons c rest =>
      have hdot : c = .scalar '.' := by
        have hfails := List.head?_dropWhile_not (fun c => decide (c ≠ CodePoint.scalar '.')) name
        rw [hrest] at hfails
        simpa using hfails
      refine Or.inr ⟨rest, ?_⟩
      rw [← hname, hrest, hdot, ← htake, List.append_assoc]
      rfl
  · rintro (rfl | ⟨rest, rfl⟩)
    · exact List.takeWhile_eq_self_iff.mpr hroot
    · rw [rootPackage, List.append_assoc, List.takeWhile_append_of_pos hroot]
      exact List.append_nil root

/-- The test of a plain name is that of its root. -/
theorem plain_iff {name : Str} :
    (name = py "mcp" || (py "mcp.").isPrefixOf name) = true ↔ rootPackage name = py "mcp" := by
  rw [rootPackage_eq_iff (by decide), Bool.or_eq_true, decide_eq_true_iff, List.isPrefixOf_iff_prefix]
  rfl

theorem prefix_of_root {name : Str} (h : rootPackage name = py "mcp_types") :
    py "mcp_types" <+: name := by
  rw [← h]
  exact List.takeWhile_prefix _

/-- The test of a from-import is that of the module it names. -/
theorem seesSdk_importFrom {module : Str} {names : List ImportAlias} {level : ℕ} :
    seesSdk (.importFrom (some module) names level) = true ↔
      rootPackage module = py "mcp" ∨ py "mcp_types" <+: module := by
  rw [← plain_iff, ← List.isPrefixOf_iff_prefix]
  simp [seesSdk, or_assoc]

/-- **What the test sees**: what it should see, and what it mistakes. -/
theorem seesSdk_iff {node : AstNode} : seesSdk node = true ↔ Agreed node ∨ Mistaken node := by
  cases node with
  | importNames names =>
    unfold seesSdk
    simp only [List.any_eq_true, plain_iff]
    constructor
    · rintro ⟨a, mem, root⟩
      exact Or.inl (.importNames names a mem root)
    · rintro (⟨_, a, mem, root⟩ | h)
      · exact ⟨a, mem, root⟩
      · cases h
  | importFrom module names level =>
    cases module with
    | none =>
      refine iff_of_false Bool.false_ne_true ?_
      rintro (h | h) <;> cases h
    | some module =>
      rw [seesSdk_importFrom]
      constructor
      · rintro (root | seen)
        · rcases Nat.eq_zero_or_pos level with rfl | above
          · exact Or.inl (.importFrom module names (root ▸ List.mem_cons_self))
          · exact Or.inr (.relative module names level above.ne' (Or.inl root))
        · rcases Nat.eq_zero_or_pos level with rfl | above
          · by_cases root : rootPackage module = py "mcp_types"
            · exact Or.inl (.importFrom module names
                (root ▸ List.mem_cons_of_mem _ List.mem_cons_self))
            · exact Or.inr (.prefixed module names seen root)
          · exact Or.inr (.relative module names level above.ne' (Or.inr seen))
      · rintro (h | h)
        · cases h with
          | importFrom _ _ root => exact (List.mem_pair.mp root).imp_right prefix_of_root
        · cases h with
          | relative _ _ _ above seen => exact seen
          | prefixed _ _ seen root => exact Or.inr seen
  | other kind =>
    refine iff_of_false Bool.false_ne_true ?_
    rintro (h | h) <;> cases h

/-- **What names the SDK**: what the test sees of it, and what it misses. -/
theorem namesSdk_iff {node : AstNode} : NamesSdk node ↔ Agreed node ∨ Missed node := by
  constructor
  · rintro (⟨names, a, mem, root⟩ | ⟨module, names, root⟩)
    · rcases List.mem_pair.mp root with root | root
      · exact Or.inl (.importNames names a mem root)
      · exact Or.inr (.importNames names a mem root)
    · exact Or.inl (.importFrom module names root)
  · rintro ((⟨names, a, mem, root⟩ | ⟨module, names, root⟩) | ⟨names, a, mem, root⟩)
    · exact .importNames names a mem (root ▸ List.mem_cons_self)
    · exact .importFrom module names root
    · exact .importNames names a mem (root ▸ List.mem_cons_of_mem _ List.mem_cons_self)

/-! ## Whole trees -/

theorem somewhere_or {kind kind' : AstNode → Prop} {tree : Ast} :
    Somewhere (fun node => kind node ∨ kind' node) tree ↔
      Somewhere kind tree ∨ Somewhere kind' tree := by
  simp only [Somewhere, and_or_left, exists_or]

theorem importsSdk_eq_true_iff {tree : Ast} :
    importsSdk tree = true ↔ Somewhere Agreed tree ∨ Somewhere Mistaken tree := by
  rw [← somewhere_or]
  simp only [importsSdk, List.any_eq_true, Rose.mem_breadthFirst, seesSdk_iff, Somewhere]

theorem importsSdk_iff {tree : Ast} :
    ImportsSdk tree ↔ Somewhere Agreed tree ∨ Somewhere Missed tree := by
  rw [← somewhere_or]
  simp only [ImportsSdk, Somewhere, namesSdk_iff]

/-! ## Whole packages -/

/-- The lint reports the modules outside the seam that its test sees. -/
theorem mem_unexpectedSdkImporters {files : List (Str × Ast)} {name : Str} :
    name ∈ unexpectedSdkImporters (lintPackage files) ↔
      name ∉ SDK_MODULES ∧ ∃ tree, (name, tree) ∈ files ∧ importsSdk tree = true := by
  simp only [unexpectedSdkImporters, lintPackage, List.mem_filter, List.mem_insertionSort,
    List.mem_map, Prod.exists]
  constructor
  · rintro ⟨⟨_, tree, ⟨hmem, hsees⟩, rfl⟩, hname⟩
    exact ⟨of_decide_eq_true hname, tree, hmem, hsees⟩
  · rintro ⟨hname, tree, hmem, hsees⟩
    exact ⟨⟨name, tree, ⟨hmem, hsees⟩, rfl⟩, decide_eq_true hname⟩

theorem unexpectedSdkImporters_eq_nil_iff {files : List (Str × Ast)} :
    unexpectedSdkImporters (lintPackage files) = [] ↔
      ∀ name tree, (name, tree) ∈ files → name ∉ SDK_MODULES → importsSdk tree = false := by
  rw [List.eq_nil_iff_forall_not_mem]
  constructor
  · intro h name tree hmem hname
    refine Bool.eq_false_iff.mpr fun hsees => ?_
    exact h name (mem_unexpectedSdkImporters.mpr ⟨hname, tree, hmem, hsees⟩)
  · intro h name hunexpected
    obtain ⟨hname, tree, hmem, hsees⟩ := mem_unexpectedSdkImporters.mp hunexpected
    exact Bool.eq_false_iff.mp (h name tree hmem hname) hsees

/-- **Where the lint is exact, and where its silence can be trusted.** Of one module, where some statement
of it is seen rightly, or one is missed just if one is mistaken. Of a package, where a module outside
the seam is seen, or none holds a statement that is missed. -/
theorem lint_exact_exactly_when (tree : Ast) (files : List (Str × Ast)) :
    ((importsSdk tree = true ↔ ImportsSdk tree) ↔
      Somewhere Agreed tree ∨ (Somewhere Missed tree ↔ Somewhere Mistaken tree)) ∧
    ((unexpectedSdkImporters (lintPackage files) = [] →
        ∀ name tree, (name, tree) ∈ files → name ∉ SDK_MODULES → ¬ImportsSdk tree) ↔
      (∃ name tree, (name, tree) ∈ files ∧ name ∉ SDK_MODULES ∧
        (Somewhere Agreed tree ∨ Somewhere Mistaken tree)) ∨
      ∀ name tree, (name, tree) ∈ files → name ∉ SDK_MODULES → ¬Somewhere Missed tree) := by
  constructor
  · rw [importsSdk_eq_true_iff, importsSdk_iff]
    tauto
  · rw [unexpectedSdkImporters_eq_nil_iff]
    constructor
    · intro h
      by_cases hseen : ∃ name tree, (name, tree) ∈ files ∧ name ∉ SDK_MODULES ∧
          (Somewhere Agreed tree ∨ Somewhere Mistaken tree)
      · exact Or.inl hseen
      · refine Or.inr fun name tree hmem hname hmissed => ?_
        refine h (fun name tree hmem hname => ?_) name tree hmem hname
          (importsSdk_iff.mpr (Or.inr hmissed))
        refine Bool.eq_false_iff.mpr fun hsees => ?_
        exact hseen ⟨name, tree, hmem, hname, importsSdk_eq_true_iff.mp hsees⟩
    · rintro (⟨name, tree, hmem, hname, hseen⟩ | hmissed) hsilent
      · have hsees := hsilent name tree hmem hname
        rw [importsSdk_eq_true_iff.mpr hseen] at hsees
        cases hsees
      · intro name tree hmem hname himports
        have hsees := Bool.eq_false_iff.mp (hsilent name tree hmem hname)
        rcases importsSdk_iff.mp himports with hagreed | hmiss
        · exact hsees (importsSdk_eq_true_iff.mpr (Or.inl hagreed))
        · exact hmissed name tree hmem hname hmiss

/-- A module of one statement. -/
def oneStatement (statement : AstNode) : Ast := .node (.other (py "Module")) [.node statement []]

/-- `import mcp_types`. -/
def plainTypes : Ast := oneStatement (.importNames [{ name := py "mcp_types" }])

/-- `from .mcp import Session`. -/
def relativeNamesake : Ast :=
  oneStatement (.importFrom (some (py "mcp")) [{ name := py "Session" }] 1)

theorem somewhere_oneStatement {kind : AstNode → Prop} {statement : AstNode}
    (h : ¬kind (.other (py "Module"))) :
    Somewhere kind (oneStatement statement) ↔ kind statement := by
  constructor
  · rintro ⟨node, hwithin, hkind⟩
    rcases Rose.within_node.mp hwithin with rfl | ⟨c, hc, hwithin⟩
    · exact absurd hkind h
    · obtain rfl := List.mem_singleton.mp hc
      rcases Rose.within_node.mp hwithin with rfl | ⟨c, hc, _⟩
      · exact hkind
      · cases hc
  · intro hkind
    exact ⟨statement, .deeper List.mem_cons_self (.here []), hkind⟩

/-- A plain import of the types package is not reported, and a relative import of a module of the same
name as the SDK is. -/
theorem lint_misled :
    importsSdk plainTypes = false ∧ ImportsSdk plainTypes ∧
      unexpectedSdkImporters (lintPackage [(py "stream.py", plainTypes)]) = [] ∧
      importsSdk relativeNamesake = true ∧ ¬ImportsSdk relativeNamesake := by
  refine ⟨rfl, ?_, rfl, rfl, ?_⟩
  · refine (somewhere_oneStatement (by rintro ⟨⟩)).mpr ?_
    exact .importNames _ _ List.mem_cons_self (List.mem_cons_of_mem _ List.mem_cons_self)
  · rw [ImportsSdk, relativeNamesake, somewhere_oneStatement (by rintro ⟨⟩)]
    rintro ⟨⟩

end McpHeartbeat
