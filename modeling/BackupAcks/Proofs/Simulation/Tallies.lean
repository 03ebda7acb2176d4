import BackupAcks.Proofs.Table.Ledger
import BackupAcks.Simulation.Report
import Mathlib.Algebra.GroupWithZero.Nat

/-!
# What a tally counts

Every outcome adds to one column of a tally, so each column, like the total, is a sum over the
outcomes that were counted. Where nothing waits any more, there is an outcome for every handle.

Results:
* `sum_ofOutcomes`: a tally adds up what each outcome counts for;
* `total_ofOutcomes`: every outcome is counted once;
* `Evolves.length_outcomes`: a table at rest has an outcome for every write.
-/
namespace BackupAcks

/-! ## Tallies -/

namespace Simulation.Tally

def total (t : Tally) : Nat :=
  t.succeeded + t.failed + t.timedOut + t.invalidated + t.stopped + t.rejected

theorem eq_of_counts {t : Tally} {a b c d e f : Nat} (ha : t.succeeded = a) (hb : t.failed = b)
    (hc : t.timedOut = c) (hd : t.invalidated = d) (he : t.stopped = e) (hf : t.rejected = f) :
    t = ⟨a, b, c, d, e, f⟩ := by
  rw [← ha, ← hb, ← hc, ← hd, ← he, ← hf]

/-- A count to which every outcome adds a number of its own. -/
def Additive (count : Tally → Nat) : Prop :=
  ∀ t o, count (t.add o) = count t + count (empty.add o)

theorem add_eq (t : Tally) (o : Outcome) : t.add o =
    ⟨t.succeeded + (empty.add o).succeeded, t.failed + (empty.add o).failed,
      t.timedOut + (empty.add o).timedOut, t.invalidated + (empty.add o).invalidated,
      t.stopped + (empty.add o).stopped, t.rejected + (empty.add o).rejected⟩ := by
  cases o with
  | success => rfl
  | failure f => cases f <;> rfl

theorem additive_succeeded : Additive succeeded := fun t o => by rw [add_eq t o]

theorem additive_failed : Additive failed := fun t o => by rw [add_eq t o]

theorem additive_timedOut : Additive timedOut := fun t o => by rw [add_eq t o]

theorem additive_invalidated : Additive invalidated := fun t o => by rw [add_eq t o]

theorem additive_stopped : Additive stopped := fun t o => by rw [add_eq t o]

theorem additive_rejected : Additive rejected := fun t o => by rw [add_eq t o]

theorem additive_total : Additive total := by
  intro t o
  rw [add_eq t o]
  simp only [total]
  omega

variable {count : Tally → Nat} {outcomes : List Outcome}

theorem sum_ofOutcomes (hcount : Additive count) (hempty : count empty = 0)
    (outcomes : List Outcome) :
    count (ofOutcomes outcomes) = (outcomes.map fun o => count (empty.add o)).sum := by
  have key : ∀ t, count (outcomes.foldl add t) =
      count t + (outcomes.map fun o => count (empty.add o)).sum := by
    induction outcomes with
    | nil => intro t; rfl
    | cons o os ih =>
      intro t
      rw [List.foldl_cons, ih, hcount, List.map_cons, List.sum_cons, Nat.add_assoc]
  rw [ofOutcomes, key, hempty, Nat.zero_add]

theorem eq_zero_of_forall (hcount : Additive count) (hempty : count empty = 0)
    (h : ∀ o ∈ outcomes, count (empty.add o) = 0) : count (ofOutcomes outcomes) = 0 := by
  rw [sum_ofOutcomes hcount hempty, List.map_congr_left h, List.map_const', List.sum_replicate_nat,
    Nat.mul_zero]

theorem total_ofOutcomes (outcomes : List Outcome) :
    (ofOutcomes outcomes).total = outcomes.length := by
  have hone : ∀ o ∈ outcomes, (empty.add o).total = 1 := by
    intro o _
    cases o with
    | success => rfl
    | failure f => cases f <;> rfl
  rw [sum_ofOutcomes additive_total rfl, List.map_congr_left hone, List.map_const',
    List.sum_replicate_nat, Nat.mul_one]

theorem succeeded_ofOutcomes (outcomes : List Outcome) :
    (ofOutcomes outcomes).succeeded = outcomes.count .success := by
  rw [sum_ofOutcomes additive_succeeded rfl]
  induction outcomes with
  | nil => rfl
  | cons o os ih =>
    rw [List.map_cons, List.sum_cons, ih, List.count_cons, Nat.add_comm]
    cases o with
    | success => rfl
    | failure f => cases f <;> rfl

end Simulation.Tally

/-! ## Tables at rest -/

namespace WriteTable

variable {t : WriteTable} {home : NodeId} {capacity n : Nat}

/-- Where nothing waits, every handle has an outcome. -/
theorem Evolves.isSome_outcome (h : Evolves (.new home capacity) n t) (hn : n ≤ UInt64.size)
    (hp : t.pending = []) : ∀ k ∈ t.handles, k.outcome.isSome = true := by
  have hlength := h.length_openIds hn
  rw [size, hp, List.length_nil, openIds, List.length_map, List.length_eq_zero_iff,
    List.filter_eq_nil_iff] at hlength
  intro k hk
  have := hlength k hk
  rwa [Option.isNone_iff_eq_none, ← ne_eq, ← Option.isSome_iff_ne_none] at this

theorem Evolves.pending_eq_nil (h : Evolves (.new home capacity) n t) (hn : n ≤ UInt64.size)
    (hk : ∀ k ∈ t.handles, k.outcome.isSome = true) : t.pending = [] := by
  have hopen : t.openIds = [] := by
    rw [openIds, List.map_eq_nil_iff, List.filter_eq_nil_iff]
    intro k hmem
    rw [Option.isNone_iff_eq_none, ← ne_eq, ← Option.isSome_iff_ne_none]
    exact hk k hmem
  rw [← List.length_eq_zero_iff, ← size, ← h.length_openIds hn, hopen, List.length_nil]

/-- The outcomes are those that can be asked for. -/
theorem Evolves.exists_outcome? (h : Evolves (.new home capacity) n t) (hn : n ≤ UInt64.size)
    {o : Outcome} (ho : o ∈ t.handles.filterMap (·.outcome)) : ∃ id, t.outcome? id = some o := by
  obtain ⟨k, hk, hko⟩ := List.mem_filterMap.1 ho
  refine ⟨k.id, ?_⟩
  rw [outcome?, handle?, find?_id_of_mem (h.nodup_handles hn) hk, Option.bind_some, hko]

theorem Evolves.length_outcomes (h : Evolves (.new home capacity) n t) (hn : n ≤ UInt64.size)
    (hp : t.pending = []) : (t.handles.filterMap (·.outcome)).length = n := by
  have hall : t.handles.filter (·.outcome.isSome) = t.handles :=
    List.filter_eq_self.2 (h.isSome_outcome hn hp)
  have hhandles := congrArg List.length h.issued.handles_eq
  rw [List.length_map, List.length_reverse, List.length_map, List.length_range] at hhandles
  rw [List.length_filterMap_eq_countP, List.countP_eq_length_filter, hall, hhandles]

end WriteTable

end BackupAcks
