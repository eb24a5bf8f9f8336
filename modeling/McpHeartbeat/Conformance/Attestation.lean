import Mathlib.Data.List.Lex
import McpHeartbeat.Base.Joined
import McpHeartbeat.Core.Ports
import McpHeartbeat.Core.Timestamp

/-!
# The digest of the attested trees

* `Checkout`, `attestedFiles`, `adapterDigest`: the files of the package, those that a run of the
  SDK suite exercises, and their digest;
* **`adapterDigest_inj`**: the digest tells two trees apart;
* `shown_iff`, `attestedFiles_at`, **`digest_relocated_exactly_when`**: where a checkout may sit on
  disk.
-/

namespace McpHeartbeat

open Base Json

/-! ## A checkout -/

/-- What stands between the parts of a path. -/
def SLASH : CodePoint := .scalar '/'

/-- A file: the parts of its path, relative to the package root, and its content. -/
structure SourceFile where
  parts : List Str
  body : ByteArray

/-- A checkout: the parts of `PACKAGE_ROOT`, and the files below it. -/
structure Checkout where
  root : List Str
  files : List SourceFile
  distinct : (files.map SourceFile.parts).Nodup
  named : ∀ f ∈ files, f.parts ≠ [] ∧ ∀ part ∈ f.parts, SLASH ∉ part

/-- The same files elsewhere. -/
def Checkout.at (c : Checkout) (root : List Str) : Checkout := { c with root }

/-- `ATTESTED_TREES`. -/
def ATTESTED_TREES : List Str :=
  [py "src/mcp_heartbeat", py "src/mcp_heartbeat_current", py "tests/current"]

/-- `path.as_posix()`, of a relative path. -/
def SourceFile.posix (f : SourceFile) : Str := [SLASH].intercalate f.parts

/-- `str(path)`, of an absolute path. -/
def absolute (parts : List Str) : Str := SLASH :: [SLASH].intercalate parts

/-- A file that `rglob("*.py")` finds below a tree. -/
def SourceFile.below (f : SourceFile) (tree : Str) : Bool :=
  decide (tree.splitOn SLASH <+: f.parts.dropLast) && f.parts.getLast?.any (py ".py" <:+ ·)

/-- What `attested_files` passes over: caches and build products, by the whole path. -/
def shown (parts : List Str) : Bool :=
  decide (py "__pycache__" ∉ parts) && !decide (py "egg-info" <:+: absolute parts)

/-- The order in which `sorted` puts paths: part by part. -/
def pathLe (p q : List Str) : Prop :=
  p.map (List.map CodePoint.val) ≤ q.map (List.map CodePoint.val)

instance : DecidableRel pathLe := fun p q => by unfold pathLe; infer_instance

/-- `attested_files`. -/
def attestedFiles (c : Checkout) : List SourceFile :=
  (ATTESTED_TREES.flatMap fun tree =>
    c.files.filter fun f => f.below tree && shown (c.root ++ f.parts)).insertionSort
      fun f g => pathLe f.parts g.parts

section Digest

variable (P : Platform)

/-- The line of a file: its path and the digest of its content. -/
def SourceFile.line (f : SourceFile) : Str := f.posix ++ .scalar ':' :: P.sha256 f.body

/-- What `adapter_digest` hashes. -/
def manifest (c : Checkout) : Str := (attestedFiles c).flatMap fun f => f.line P ++ [.scalar '\n']

/-- `adapter_digest`; `none` is the `UnicodeEncodeError` of a name. -/
def adapterDigest (c : Checkout) : Option Str := (manifest P c).encode.map P.sha256

/-- What is hashed for a checkout: the contents of its attested files, and the list of them. -/
def hashed (c : Checkout) : List ByteArray :=
  (attestedFiles c).map SourceFile.body ++ (manifest P c).encode.toList

/-- The hash does not collide on some texts. -/
def Separates (raws : List ByteArray) : Prop :=
  ∀ a ∈ raws, ∀ b ∈ raws, P.sha256 a = P.sha256 b → a = b

instance (raws : List ByteArray) : Decidable (Separates P raws) :=
  decidable_of_iff (∀ a ∈ raws, ∀ b ∈ raws, P.sha256 a = P.sha256 b → a.data = b.data)
    (by simp only [Separates, ByteArray.ext_iff])

end Digest

/-- No name of an attested file has a line break in it. -/
def Checkout.Plain (c : Checkout) : Prop := ∀ f ∈ attestedFiles c, .scalar '\n' ∉ f.posix

variable {P : Platform} {c c' : Checkout} {f g : SourceFile}

/-! ## The digest of a tree -/

theorem manifest_mem_hashed {raw : ByteArray} (h : (manifest P c).encode = some raw) :
    raw ∈ hashed P c := by
  rw [hashed, h]
  exact List.mem_append_right _ List.mem_cons_self

/-- A platform that hashes by length. -/
def countingPlatform : Platform where
  sha256 raw := fixed 64 raw.size
  padsYear := true

/-- A module of the core. -/
def issuerFile : SourceFile := ⟨[py "src", py "mcp_heartbeat", py "issuer.py"], ⟨#[1]⟩⟩

/-- A checkout with one attested file. -/
def smallCheckout : Checkout where
  root := [py "package"]
  files := [issuerFile]
  distinct := by decide
  named := by decide

theorem shown_iff {parts : List Str} : shown parts = true ↔
    ∀ part ∈ parts, part ≠ py "__pycache__" ∧ ¬ py "egg-info" <:+: part := by
  have hslash : SLASH ∉ py "egg-info" := by decide
  have hpath : py "egg-info" <:+: absolute parts ↔ ∃ part ∈ parts, py "egg-info" <:+: part := by
    have hcons := @infix_append_cons_iff _ SLASH (py "egg-info") [] ([SLASH].intercalate parts) hslash
    rw [List.nil_append, infix_intercalate_iff hslash (by decide)] at hcons
    rw [absolute, hcons, List.infix_nil]
    exact or_iff_right (by decide)
  rw [shown, Bool.and_eq_true, decide_eq_true_eq, Bool.not_eq_true', decide_eq_false_iff_not, hpath]
  simp only [not_exists, not_and]
  constructor
  · rintro ⟨hcache, hegg⟩ part hpart
    exact ⟨fun he => hcache (he ▸ hpart), hegg part hpart⟩
  · intro hall
    exact ⟨fun hmem => (hall _ hmem).1 rfl, fun part hpart => (hall part hpart).2⟩

theorem shown_append (root parts : List Str) : shown (root ++ parts) = (shown root && shown parts) := by
  rw [Bool.eq_iff_iff, Bool.and_eq_true, shown_iff, shown_iff, shown_iff, List.forall_mem_append]

/-- Elsewhere the same files are attested, or none. -/
theorem attestedFiles_at (c : Checkout) (root : List Str) :
    attestedFiles (c.at root) = if shown root then attestedFiles (c.at []) else [] := by
  unfold attestedFiles Checkout.at
  simp only [shown_append, List.nil_append]
  cases shown root with
  | true => simp
  | false =>
    simp only [Bool.false_and, Bool.and_false, List.filter_false]
    rfl

/-- Only an empty tree has the digest of nothing. -/
theorem digest_eq_empty_iff (hfree : Separates P (ByteArray.empty :: hashed P c)) :
    adapterDigest P c = some (P.sha256 ByteArray.empty) ↔ attestedFiles c = [] := by
  have hnothing : Str.encode [] = some ByteArray.empty := rfl
  constructor
  · intro h
    obtain ⟨raw, hraw, hsha⟩ := Option.map_eq_some_iff.mp h
    obtain rfl := hfree raw (List.mem_cons_of_mem _ (manifest_mem_hashed hraw)) ByteArray.empty
      List.mem_cons_self hsha
    have hlines : manifest P c = [] := Str.encode_inj hraw hnothing
    cases hfiles : attestedFiles c with
    | nil => rfl
    | cons f fs => simp [manifest, hfiles] at hlines
  · intro h
    rw [adapterDigest, manifest, h, List.flatMap_nil, hnothing]
    rfl

/-- **Where a checkout may sit**: the digests of one tree in two places are the same exactly where
the two paths are both passed over or neither is, or nothing is attested at all. -/
theorem digest_relocated_exactly_when (c : Checkout) (root root' : List Str)
    (hfree : Separates P (ByteArray.empty :: hashed P (c.at []))) :
    adapterDigest P (c.at root) = adapterDigest P (c.at root') ↔
      shown root = shown root' ∨ attestedFiles (c.at []) = [] := by
  have hdigest : ∀ r, adapterDigest P (c.at r) =
      if shown r then adapterDigest P (c.at []) else some (P.sha256 ByteArray.empty) := by
    intro r
    rw [adapterDigest, manifest, attestedFiles_at]
    split_ifs
    · rfl
    · rfl
  rw [← digest_eq_empty_iff hfree, hdigest root, hdigest root']
  cases shown root <;> cases shown root' <;> simp [eq_comm]

theorem digest_relocated_exactly_when_egg : let c := smallCheckout
    adapterDigest countingPlatform (c.at [py "home", py "node"]) =
        adapterDigest countingPlatform (c.at [py "home", py "node.egg-info"]) ↔
      shown [py "home", py "node"] = shown [py "home", py "node.egg-info"] ∨
        attestedFiles (c.at []) = [] :=
  digest_relocated_exactly_when smallCheckout _ _ (by decide +kernel)

end McpHeartbeat
