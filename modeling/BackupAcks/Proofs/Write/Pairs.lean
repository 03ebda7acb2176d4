import BackupAcks.Write.Pending
import Mathlib.Data.List.Nodup

/-!
# A requirement as a set of pairs

Both shapes of a `Requirement` are read through `pairs`. The test for "nobody is left" looks only
at whether the outer map is empty, so it speaks about the pairs only while no segment is kept
without owners (`Dense`). A requirement that a write really waits for is `Live`: dense, and with
somebody left.

Results:
* `isSatisfied_iff`: on a dense requirement, satisfied means that no pair is left;
* `mem_segments_iff`: the segments of a live requirement are those with an outstanding owner;
* `mem_pairs_remove`: a confirmation drops exactly the sender's pairs that it reaches;
* `outstanding_eq_length`: the outstanding count is the number of pairs.
-/
namespace BackupAcks

namespace NodeSet

theorem exists_mem_of_isEmpty_eq_false {s : NodeSet} (h : s.isEmpty = false) : ∃ n, n ∈ s := by
  cases hl : s.toList with
  | nil => simp [isEmpty, hl] at h
  | cons n rest => exact ⟨n, by rw [← mem_toList, hl]; exact List.mem_cons_self⟩

end NodeSet

namespace Requirement

variable {r : Requirement}

/-- What holds of the requirement of every write that waits: no segment without owners, and
somebody to wait for. -/
structure Live (r : Requirement) : Prop where
  dense : r.Dense
  unsatisfied : r.isSatisfied = false

/-! ## Nobody left -/

theorem not_mem_pairs_of_isSatisfied (h : r.isSatisfied = true) (p : SegmentId × NodeId) :
    p ∉ r.pairs := by
  cases r with
  | single s ns =>
    intro hp
    exact NodeSet.isEmpty_iff.1 h p.2 (mem_pairs_single.1 hp).2
  | segmented m =>
    intro hp
    obtain ⟨ns, hm, -⟩ := mem_pairs_segmented.1 hp
    have hnil : m.entries = [] := List.isEmpty_iff.1 h
    rw [hnil] at hm
    cases hm

theorem exists_mem_pairs_of_not_isSatisfied (hd : r.Dense) (h : r.isSatisfied = false) :
    ∃ p, p ∈ r.pairs := by
  cases r with
  | single s ns =>
    obtain ⟨n, hn⟩ := NodeSet.exists_mem_of_isEmpty_eq_false h
    exact ⟨(s, n), mem_pairs_single.2 ⟨rfl, hn⟩⟩
  | segmented m =>
    cases he : m.entries with
    | nil => simp [isSatisfied, SegmentMap.isEmpty, he] at h
    | cons e rest =>
      have hm : e ∈ m.entries := by rw [he]; exact List.mem_cons_self
      obtain ⟨n, hn⟩ := NodeSet.exists_mem_of_isEmpty_eq_false (hd e hm)
      exact ⟨(e.1, n), mem_pairs_segmented.2 ⟨e.2, hm, hn⟩⟩

/-- On a dense requirement the quick test for "nobody left" is right. -/
theorem isSatisfied_iff (hd : r.Dense) : r.isSatisfied = true ↔ ∀ p, p ∉ r.pairs := by
  refine ⟨not_mem_pairs_of_isSatisfied, fun h => ?_⟩
  cases hs : r.isSatisfied with
  | true => rfl
  | false =>
    obtain ⟨p, hp⟩ := exists_mem_pairs_of_not_isSatisfied hd hs
    exact absurd hp (h p)

theorem Live.exists_mem_pairs (h : r.Live) : ∃ p, p ∈ r.pairs :=
  exists_mem_pairs_of_not_isSatisfied h.dense h.unsatisfied

theorem Live.pairs_ne_nil (h : r.Live) : r.pairs ≠ [] := by
  obtain ⟨p, hp⟩ := h.exists_mem_pairs
  exact List.ne_nil_of_mem hp

/-- The segments that are waited for are those in which somebody's confirmation is outstanding. -/
theorem mem_segments_iff (h : r.Live) {s : SegmentId} : s ∈ r.segments ↔ ∃ n, (s, n) ∈ r.pairs := by
  cases r with
  | single t ns =>
    simp only [segments, List.mem_singleton, mem_pairs_single]
    constructor
    · rintro rfl
      obtain ⟨n, hn⟩ := NodeSet.exists_mem_of_isEmpty_eq_false h.unsatisfied
      exact ⟨n, rfl, hn⟩
    · intro hx
      obtain ⟨n, rfl, -⟩ := hx
      rfl
  | segmented m =>
    simp only [segments, SegmentMap.segments, List.mem_map, mem_pairs_segmented]
    constructor
    · intro hx
      obtain ⟨e, he, rfl⟩ := hx
      obtain ⟨n, hn⟩ := NodeSet.exists_mem_of_isEmpty_eq_false (h.dense e he)
      exact ⟨n, e.2, he, hn⟩
    · intro hx
      obtain ⟨n, ns, hm, -⟩ := hx
      exact ⟨(s, ns), hm, rfl⟩

theorem forall_segments_iff (h : r.Live) {P : SegmentId → Prop} :
    (∀ s ∈ r.segments, P s) ↔ ∀ p ∈ r.pairs, P p.1 := by
  constructor
  · intro hs p hp
    exact hs p.1 ((mem_segments_iff h).2 ⟨p.2, hp⟩)
  · intro hp s hs
    obtain ⟨n, hn⟩ := (mem_segments_iff h).1 hs
    exact hp (s, n) hn

/-! ## Dropping pairs -/

theorem ofSegments_dense (owners : SegmentMap NodeSet) : (ofSegments owners).Dense := by
  rintro ⟨s, ks⟩ hks
  obtain ⟨ns, -, hf⟩ := SegmentMap.mem_filterMap.1 hks
  exact (nonEmpty?_eq_some_iff.1 hf).2

/-- Whether a confirmation for `scope` reaches the pairs of segment `s`. A write to one segment does
not look at the scope. -/
def Reaches (scope : Option SegmentId) (s : SegmentId) : Requirement → Prop
  | .single _ _ => True
  | .segmented _ => ∀ k, scope = some k → k = s

theorem covers_iff {scope : Option SegmentId} {s : SegmentId} :
    covers scope s = true ↔ ∀ k, scope = some k → k = s := by
  cases scope <;> simp [covers]

/-- A confirmation drops exactly the pairs of its sender that it reaches. -/
theorem mem_pairs_remove {n k : NodeId} {scope : Option SegmentId} {s : SegmentId} :
    (s, k) ∈ (r.remove n scope).2.pairs ↔ (s, k) ∈ r.pairs ∧ ¬ (k = n ∧ r.Reaches scope s) := by
  cases r with
  | single t ns => simp [remove, Reaches, mem_pairs_single, and_assoc]
  | segmented m =>
    simp only [remove, mem_pairs_retain, Reaches, ← covers_iff]
    cases covers scope s <;> simp

theorem remove_dense (n : NodeId) (scope : Option SegmentId) : (r.remove n scope).2.Dense := by
  cases r with
  | single s ns => trivial
  | segmented m =>
    simp only [remove]
    exact retain_dense _ _

/-! ## Counting -/

theorem nodup_pairs (r : Requirement) : r.pairs.Nodup := by
  cases r with
  | single s ns => exact ns.toList_nodup.map fun _ _ h => congrArg Prod.snd h
  | segmented m =>
    refine List.nodup_flatMap.2 ⟨fun e _ => e.2.toList_nodup.map fun _ _ h => congrArg Prod.snd h, ?_⟩
    refine (List.pairwise_map.1 m.segments_nodup).imp fun {e e'} hne => ?_
    intro q hq hq'
    obtain ⟨_, -, rfl⟩ := List.mem_map.1 hq
    obtain ⟨_, -, heq⟩ := List.mem_map.1 hq'
    exact hne (congrArg Prod.fst heq).symm

theorem outstanding_eq_length : r.outstanding = r.pairs.length := by
  cases r with
  | single s ns => simp [outstanding, pairs, NodeSet.size]
  | segmented m =>
    simp only [outstanding, pairs, SegmentMap.values]
    generalize m.entries = l
    induction l with
    | nil => rfl
    | cons e rest ih =>
      simp only [List.map_cons, List.foldr_cons, List.flatMap_cons, List.length_append,
        List.length_map, ih]
      rfl

end Requirement
end BackupAcks
