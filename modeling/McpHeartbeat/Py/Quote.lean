import Mathlib.Data.List.SplitBy
import McpHeartbeat.Base.Octets
import McpHeartbeat.Py.Str

/-!
# Percent-encoded text

* `quote`, `unquote`: `urllib.parse`, with no character safe beside those that are never escaped;
* `safe_of_mem_quote`: the characters of quoted text; `unquote_eq_self`: text without escapes;
* **`unquote_quote`**: what is quoted is read back.
-/

namespace McpHeartbeat

open Base

/-- The characters that are never escaped. -/
def ALWAYS_SAFE : List Char :=
  "ABCDEFGHIJKLMNOPQRSTUVWXYZabcdefghijklmnopqrstuvwxyz0123456789_.-~".toList

/-- The octet of a character that is never escaped. -/
def isSafe (b : UInt8) : Bool := ALWAYS_SAFE.any fun c => c.toNat = b.toNat

/-- `c.isascii()`. -/
def CodePoint.isAscii (c : CodePoint) : Bool := c.val < 0x80

namespace Str

/-- `urllib.parse.quote(s, safe="")`; `none` is the `UnicodeEncodeError` of a lone surrogate. -/
def quote (s : Str) : Option Str :=
  s.encode.map fun bytes => (percentEncode isSafe bytes.data.toList).map .scalar

/-- What a stretch of ASCII stands for. -/
def unquoteRun (run : Str) : Str :=
  (decodeReplace (percentDecode (run.filterMap CodePoint.scalar?))).map .scalar

/-- `urllib.parse.unquote`. -/
def unquote (s : Str) : Str :=
  if .scalar '%' ∈ s then
    (s.splitBy fun c d => c.isAscii == d.isAscii).flatMap fun run =>
      if run.all CodePoint.isAscii then unquoteRun run else run
  else s

/-- Text without escapes stands for itself. -/
theorem unquote_eq_self {s : Str} (h : .scalar '%' ∉ s) : s.unquote = s := if_neg h

theorem isAscii_scalar {c : Char} : (CodePoint.scalar c).isAscii = true ↔ c.toNat < 0x80 :=
  decide_eq_true_iff

theorem filterMap_scalar (cs : List Char) :
    (cs.map CodePoint.scalar).filterMap CodePoint.scalar? = cs := by
  rw [List.filterMap_map]
  exact List.filterMap_some

/-- ASCII text is one stretch, escapes or none. -/
theorem unquote_ascii {cs : List Char} (h : ∀ c ∈ cs, c.toNat < 0x80) :
    unquote (cs.map .scalar) = (decodeReplace (percentDecode cs)).map .scalar := by
  rw [unquote]
  split_ifs with hescape
  · have hall : ∀ c ∈ cs.map CodePoint.scalar, c.isAscii = true := by
      intro c hc
      obtain ⟨d, hd, rfl⟩ := List.mem_map.mp hc
      exact isAscii_scalar.mpr (h d hd)
    have hne : cs.map CodePoint.scalar ≠ [] := List.ne_nil_of_mem hescape
    have hchain : (cs.map CodePoint.scalar).IsChain fun c d => (c.isAscii == d.isAscii) = true := by
      refine (List.pairwise_of_forall_mem_list fun c hc d hd => ?_).isChain
      rw [hall c hc, hall d hd]
      rfl
    rw [List.splitBy_of_isChain hne hchain, List.flatMap_singleton, if_pos (List.all_eq_true.mpr hall),
      unquoteRun, filterMap_scalar]
  · have hno : '%' ∉ cs := fun hc => hescape (List.mem_map_of_mem hc)
    rw [percentDecode_of_no_escape hno, ← flatMap_utf8_ascii h, decodeReplace_utf8]

theorem isSafe_iff {b : UInt8} : isSafe b = true ↔ ∃ c ∈ ALWAYS_SAFE, c.toNat = b.toNat := by
  simp only [isSafe, List.any_eq_true, decide_eq_true_iff]

theorem ascii_isSafe : Ascii isSafe := by
  intro b hb
  obtain ⟨c, hc, heq⟩ := isSafe_iff.mp hb
  have hall : (ALWAYS_SAFE.all fun c => c.toNat < 0x80 ∧ c.toNat ≠ '%'.toNat) = true := by decide
  rw [← heq]
  exact of_decide_eq_true (List.all_eq_true.mp hall c hc)

theorem mapM_scalar (cs : List Char) :
    (cs.map CodePoint.scalar).mapM CodePoint.scalar? = some cs := by
  induction cs with
  | nil => rfl
  | cons c cs ih =>
    rw [List.map_cons, List.mapM_cons, ih]
    rfl

/-- The characters of a text that can be quoted, and what is made of their octets. -/
theorem quote_eq_some {s t : Str} (h : s.quote = some t) : ∃ cs : List Char, s = cs.map .scalar ∧
    t = (percentEncode isSafe (cs.flatMap String.utf8EncodeChar)).map .scalar := by
  obtain ⟨bytes, hbytes, rfl⟩ := Option.map_eq_some_iff.mp h
  obtain ⟨cs, hcs, rfl⟩ := Option.map_eq_some_iff.mp hbytes
  refine ⟨cs, mapM_scalar?_inj hcs (mapM_scalar cs), ?_⟩
  have hdata : (String.ofList cs).toUTF8.data.toList = cs.flatMap String.utf8EncodeChar := by
    rw [String.toUTF8_eq_toByteArray, String.toByteArray_ofList, List.utf8Encode,
      List.data_toByteArray]
  rw [hdata]

/-- Nothing stands in quoted text but what is never escaped, and escapes. -/
theorem safe_of_mem_quote {s t : Str} (h : s.quote = some t) {c : CodePoint} (hc : c ∈ t) :
    c = .scalar '%' ∨ ∃ d ∈ ALWAYS_SAFE, c = .scalar d := by
  obtain ⟨cs, rfl, rfl⟩ := quote_eq_some h
  obtain ⟨d, hd, rfl⟩ := List.mem_map.mp hc
  have hhex : ∀ n, hex n ∈ ALWAYS_SAFE := by decide
  rcases mem_percentEncode hd with ⟨b, hb, rfl⟩ | rfl | ⟨n, rfl⟩
  · obtain ⟨e, he, heq⟩ := isSafe_iff.mp hb
    rw [← heq, Char.ofNat_toNat]
    exact Or.inr ⟨e, he, rfl⟩
  · exact Or.inl rfl
  · exact Or.inr ⟨hex n, hhex n, rfl⟩

theorem quote_ne_nil {s t : Str} (h : s.quote = some t) (hs : s ≠ []) : t ≠ [] := by
  rintro rfl
  obtain ⟨cs, rfl, ht⟩ := quote_eq_some h
  have hempty := percentEncode_eq_nil.mp (List.map_eq_nil_iff.mp ht.symm)
  cases cs with
  | nil => exact hs rfl
  | cons c cs => exact String.utf8EncodeChar_ne_nil (List.append_eq_nil_iff.mp hempty).1

/-- **What is quoted is read back.** -/
theorem unquote_quote {s t : Str} (h : s.quote = some t) : t.unquote = s := by
  obtain ⟨cs, rfl, rfl⟩ := quote_eq_some h
  rw [unquote_ascii fun c hc => ascii_of_mem_percentEncode ascii_isSafe hc,
    percentDecode_percentEncode ascii_isSafe, decodeReplace_utf8]

end Str

end McpHeartbeat
