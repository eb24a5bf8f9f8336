import McpHeartbeat.Core.Digest

/-!
# Documents in canonical form

What a document in canonical form reads as: the same, with its extensions in canonical form.

* `canon_canon`: the canonical form is taken once;
* `item_perm`, `carries_perm`: the order of distinct members does not matter;
* `Heartbeat.sorted`: the extensions in canonical form; `carries_canon`;
* **`reads_canon`**: a document that reads as `h` reads as `h.sorted` in canonical form.
-/

namespace McpHeartbeat

open Json

variable {m m' : Members} {h : Heartbeat}

/-- **A canonical form is its own canonical form.** -/
theorem canon_canon (v : Json) : v.canon.canon = v.canon := by
  induction v with
  | arr xs ih =>
    rw [canon_arr, canon_arr, List.map_map]
    exact congrArg Json.arr (List.map_congr_left ih)
  | obj ms ih =>
    rw [canon_obj, canon_obj]
    have hvalues : (sortKeys (ms.map fun p => (p.1, p.2.canon))).map (fun p => (p.1, p.2.canon)) =
        sortKeys (ms.map fun p => (p.1, p.2.canon)) := by
      refine (List.map_congr_left fun p hp => ?_).trans (List.map_id _)
      obtain ⟨q, hq, rfl⟩ := List.mem_map.mp (mem_sortKeys.mp hp)
      exact Prod.ext rfl (ih q hq)
    rw [hvalues]
    exact congrArg Json.obj (List.pairwise_insertionSort _ _).insertionSort_eq
  | _ => rw [canon, canon]

/-- The order of distinct members does not matter to a lookup. -/
theorem item_perm (hn : (m.map Prod.fst).Nodup) (hp : m'.Perm m) (key : Str) :
    m'.item key = m.item key := by
  have hn' : (m'.map Prod.fst).Nodup := ((hp.map Prod.fst).nodup_iff).mpr hn
  ext v
  rw [← mem_iff_item hn, ← mem_iff_item hn', hp.mem_iff]

/-- Nor to what an object carries. -/
theorem carries_perm (hc : m.Carries h) (hn : (m.map Prod.fst).Nodup) (hp : m'.Perm m) :
    m'.Carries h := by
  have hitem := item_perm hn hp
  have hget : ∀ key, m'.get key = m.get key := fun key => by
    rw [Members.get, Members.get, hitem]
  have hunknown : m'.unknownViolations = [] := by
    have hnone := hc.unknown
    unfold Members.unknownViolations at hnone ⊢
    rw [List.map_eq_nil_iff, List.filter_eq_nil_iff] at hnone ⊢
    exact fun q hq => hnone q (hp.mem_iff.mp hq)
  exact {
    version := by rw [hitem]; exact hc.version
    node := by rw [hitem]; exact hc.node
    boot := by rw [hitem]; exact hc.boot
    seq := by rw [hitem]; exact hc.seq
    node_re := hc.node_re
    boot_re := hc.boot_re
    seq_nonneg := hc.seq_nonneg
    issued := by rw [hget]; exact hc.issued
    expires := by rw [hget]; exact hc.expires
    window := hc.window
    current := hc.current
    extensions := by rw [hget]; exact hc.extensions
    namespaced := hc.namespaced
    unknown := hunknown }

/-- The members with their values in canonical form. -/
def canonValues (m : Members) : Members := m.map fun q => (q.1, q.2.canon)

/-- The heartbeat with its extensions in canonical form. -/
def Heartbeat.sorted (h : Heartbeat) : Heartbeat :=
  { h with extensions := sortKeys (canonValues h.extensions) }

@[simp] theorem Heartbeat.sorted_nodeId (h : Heartbeat) : h.sorted.nodeId = h.nodeId := rfl
@[simp] theorem Heartbeat.sorted_bootId (h : Heartbeat) : h.sorted.bootId = h.bootId := rfl
@[simp] theorem Heartbeat.sorted_sequence (h : Heartbeat) : h.sorted.sequence = h.sequence := rfl

theorem map_fst_canonValues (m : Members) : (canonValues m).map Prod.fst = m.map Prod.fst := by
  rw [canonValues, List.map_map]
  rfl

theorem get_canonValues (m : Members) (key : Str) :
    (canonValues m).get key = (m.get key).canon := by
  rw [Members.get, Members.get, canonValues, item_canon]
  cases m.item key <;> rfl

/-- A text that is read as an instant is its own canonical form. -/
theorem parse_canon {v : Json} {t : Datetime} (hv : parseRfc3339 v = .ok t) :
    parseRfc3339 v.canon = .ok t := by
  cases v with
  | str s => exact hv
  | arr xs => cases hv
  | obj ms => cases hv
  | _ => exact hv

/-- What an object carries, with its values in canonical form. -/
theorem carries_canonValues (hc : m.Carries h) : (canonValues m).Carries h.sorted := by
  have hitem : ∀ {key : Str} {v : Json}, m.item key = some v →
      (canonValues m).item key = some v.canon := fun hv => by
    rw [canonValues, item_canon, hv, Option.map_some]
  have hunknown : (canonValues m).unknownViolations = m.unknownViolations := by
    rw [Members.unknownViolations, Members.unknownViolations, canonValues, List.filter_map,
      List.map_map]
    rfl
  exact {
    version := hitem hc.version
    node := (hitem hc.node).trans (by rw [canon_ofStr?]; rfl)
    boot := (hitem hc.boot).trans (by rw [canon_ofStr?]; rfl)
    seq := (hitem hc.seq).trans (by rw [canon_ofInt?]; rfl)
    node_re := hc.node_re
    boot_re := hc.boot_re
    seq_nonneg := hc.seq_nonneg
    issued := by rw [get_canonValues]; exact parse_canon hc.issued
    expires := by rw [get_canonValues]; exact parse_canon hc.expires
    window := hc.window
    current := hc.current
    extensions := by
      rw [get_canonValues]
      rcases hc.extensions with ⟨hnull, hnil⟩ | hext
      · exact Or.inl ⟨by rw [hnull]; rfl, by simp [Heartbeat.sorted, hnil, canonValues, sortKeys]⟩
      · exact Or.inr (by rw [hext, canon_obj]; rfl)
    namespaced := by
      intro q hq
      obtain ⟨r, hr, rfl⟩ := List.mem_map.mp (mem_sortKeys.mp hq)
      exact hc.namespaced r hr
    unknown := hunknown.trans hc.unknown }

/-- **A document in canonical form reads as its heartbeat**, with the extensions in canonical form. -/
theorem reads_canon (hn : (m.map Prod.fst).Nodup) (hr : Reads (.obj m) h) :
    Reads (Json.obj m).canon h.sorted := by
  obtain ⟨m₁, hm, hc⟩ := reads_iff.mp hr
  obtain rfl : m = m₁ := Json.obj.inj hm
  have hn' : ((canonValues m).map Prod.fst).Nodup := by rwa [map_fst_canonValues]
  rw [canon_obj]
  exact reads_iff.mpr ⟨_, rfl, carries_perm (carries_canonValues hc) hn' (sortKeys_perm _)⟩

end McpHeartbeat
