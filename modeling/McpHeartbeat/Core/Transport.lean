import McpHeartbeat.Cleanroom.Interop
import McpHeartbeat.Core.Canonical
import McpHeartbeat.Core.Follower
import McpHeartbeat.Py.Wire

/-!
# Heartbeats over a wire

An issued heartbeat is written as text, with its members sorted, and read back.

* `unpaired_of_wellFormed`: text without surrogates is read back;
* `readable_toDict`: when a document is within the limits of a reader;
* `Heartbeat.readAs`: what is read of it; `coincides_readAs`, `view_readAs`, `Issued.encodable`;
* **`Issued.reads_canon`**: the canonical document of an issued heartbeat reads so.
-/

namespace McpHeartbeat

open Base Json Str

/-- A string without surrogates has no surrogate pair. -/
theorem unpaired_of_wellFormed {s : Str} (h : s.WellFormed) : Unpaired s := by
  have hscalar : ∀ c ∈ s, isHigh c.val = false := by
    intro c hc
    have hsome := h c hc
    cases c with
    | surrogate i => cases hsome
    | scalar c =>
      have hvalid := c.valid
      rw [Bool.eq_false_iff, Ne, isHigh_iff]
      simp only [UInt32.isValidChar, Nat.isValidChar, CodePoint.val, Char.toNat] at hvalid ⊢
      omega
  induction s with
  | nil => exact .nil
  | cons c s ih =>
    have hrest := ih (fun d hd => h d (List.mem_cons_of_mem _ hd))
      (fun d hd => hscalar d (List.mem_cons_of_mem _ hd))
    cases s with
    | nil => exact .singleton c
    | cons d s =>
      refine List.isChain_cons_cons.mpr ⟨?_, hrest⟩
      rw [hscalar c List.mem_cons_self]
      simp

variable {P : Platform} {D : Decoder} {p : Str} {h : Heartbeat}

/-- A document of an issued heartbeat is within the limits of a reader that reads its extensions one
level down, and its sequence. -/
theorem readable_toDict (P : Platform) (i : Issued p h) {depth : ℕ} (hdepth : D.depth = depth + 1)
    (hext : h.extensions = [] ∨ Readable D depth (.obj h.extensions)) {n : ℕ}
    (hseq : h.sequence = some (n : ℤ)) (hdigits : D.maxStrDigits = 0 ∨ n < 10 ^ D.maxStrDigits) :
    Readable D D.depth (h.toDict P) := by
  obtain ⟨b, hb, hbw⟩ := i.boot
  have htext : ∀ {s : Str}, s.WellFormed → Readable D depth (.str s) := fun hs =>
    .str _ (unpaired_of_wellFormed hs)
  have hint : Readable D depth (Json.ofInt? h.sequence) := by
    rw [hseq]
    refine .int _ ?_
    rcases Nat.eq_zero_or_pos D.maxStrDigits with h0 | hpos
    · exact Or.inl h0
    · exact Or.inr (length_natText_lt (hdigits.resolve_left hpos.ne') hpos)
  have hnode : Readable D depth (Json.ofStr? h.nodeId) := by
    rw [i.node]
    exact htext (wellFormed_idWord i.node_word)
  have hboot : Readable D depth (Json.ofStr? h.bootId) := by
    rw [hb]
    exact htext (wellFormed_idWord hbw)
  have hversion : Readable D depth (.str h.extensionVersion) := by
    rw [i.current]
    exact htext (wellFormed_py _)
  have hmembers : ∀ q ∈ h.members P, q.1.WellFormed ∧ Readable D depth q.2 := by
    rw [Heartbeat.members]
    refine List.forall_mem_append.mpr ⟨?_, ?_⟩
    · simp only [List.forall_mem_cons, wellFormed_py, true_and]
      exact ⟨hversion, hnode, hboot, hint, htext (wellFormed_formatRfc3339 P _),
        htext (wellFormed_formatRfc3339 P _), by simp⟩
    · split_ifs with hnil
      · simp
      · simp only [List.forall_mem_singleton]
        exact ⟨wellFormed_py _, hext.resolve_left hnil⟩
  rw [hdepth]
  exact .obj (members_nodup P h) (fun q hq => unpaired_of_wellFormed (hmembers q hq).1)
    (fun q hq => (hmembers q hq).2)

/-- What is read of a heartbeat: in its milliseconds, with its extensions in canonical form. -/
def Heartbeat.readAs (h : Heartbeat) : Heartbeat := h.toMillis.sorted

/-- What is read has the digest of what was issued. -/
theorem coincides_readAs (h : Heartbeat) : h.readAs.Coincides h where
  version := rfl
  node := rfl
  boot := rfl
  seq := rfl
  issued := Nat.mul_div_cancel _ (by omega)
  expires := Nat.mul_div_cancel _ (by omega)
  extensions := by
    have hcanon : Json.obj h.readAs.extensions = (Json.obj h.extensions).canon := by
      rw [canon_obj]
      rfl
    rw [Json.Same, hcanon, canon_canon]

theorem view_readAs : View Heartbeat.readAs := ⟨fun _ => rfl, fun _ => rfl, fun _ => rfl⟩

namespace Issued

/-- **The canonical document of an issued heartbeat reads as the heartbeat does.** -/
theorem reads_canon (P : Platform) (i : Issued p h) : Reads (h.toDict P).canon h.readAs :=
  McpHeartbeat.reads_canon (members_nodup P h) (i.reads P)

/-- What is read has a digest if the extensions can be encoded. -/
theorem encodable_readAs (P : Platform) (i : Issued p h)
    (hw : (Json.obj h.extensions).WellFormed) : h.readAs.Encodable P := by
  rw [encodable_iff (i.reads_canon P)]
  have hcanon : Json.obj h.readAs.extensions = (Json.obj h.extensions).canon := by
    rw [canon_obj]
    rfl
  rw [hcanon, wellFormed_canon]
  exact hw

/-- What is issued has a digest if its extensions can be encoded. -/
theorem encodable (P : Platform) (i : Issued p h) (hw : (Json.obj h.extensions).WellFormed) :
    h.Encodable P :=
  (coincides_readAs h).encodable.mp (i.encodable_readAs P hw)

end Issued

end McpHeartbeat
