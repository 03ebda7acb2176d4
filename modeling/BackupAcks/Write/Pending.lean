import BackupAcks.Cluster.Ownership
import BackupAcks.Write.Basic

/-!
# One write under way

A write waits for confirmations of (segment, owner) pairs. A write to one segment keeps one set of
owners; a write to several segments keeps a set for each, and forgets a segment once nobody is
left to wait for there. `Requirement.pairs` is the common view of both shapes.

A pending write is its identifier, the epoch of the assignment it relies on, and what it waits
for. Each event that may concern it is answered by a `Ruling`: the event comes from a superseded
epoch and changes nothing, the write goes on waiting, or it is settled. An event stamped with an
epoch older than the write's own is stale. A newly activated assignment moves the write to its
epoch, so that answers to the older one are stale from then on.

Results:
* `mem_pairs_ofSegments`: every pair that is asked for is waited for;
* `mem_pairs_retain`: retaining keeps exactly the pairs that satisfy the test;
* `retain_dense`: retaining never leaves a segment without owners behind.
-/
namespace BackupAcks

/-! ## What a write waits for -/

/-- The owners whose confirmation is outstanding, in the two shapes of §4.3 and §4.4. -/
inductive Requirement where
  /-- A write to one segment. -/
  | single (segment : SegmentId) (remaining : NodeSet)
  /-- A write to several segments, each with owners of its own. -/
  | segmented (remaining : SegmentMap NodeSet)
  deriving DecidableEq, Repr

namespace Requirement

/-- The outstanding (segment, owner) pairs. -/
def pairs : Requirement → List (SegmentId × NodeId)
  | .single s ns => ns.toList.map fun n => (s, n)
  | .segmented m => m.entries.flatMap fun e => e.2.toList.map fun n => (e.1, n)

/-- A set of owners, or none if it is empty. -/
def nonEmpty? (ns : NodeSet) : Option NodeSet := if ns.isEmpty then none else some ns

/-- The requirement of a write to several segments; segments without owners are left out (§4.4). -/
def ofSegments (owners : SegmentMap NodeSet) : Requirement :=
  .segmented (owners.filterMap fun _ ns => nonEmpty? ns)

/-- The segments that are waited for. -/
def segments : Requirement → List SegmentId
  | .single s _ => [s]
  | .segmented m => m.segments

/-- Whether nobody is left to wait for. -/
def isSatisfied : Requirement → Bool
  | .single _ ns => ns.isEmpty
  | .segmented m => m.isEmpty

def outstanding : Requirement → Nat
  | .single _ ns => ns.size
  | .segmented m => m.values.foldr (fun ns total => ns.size + total) 0

/-- No segment is kept without an owner to wait for. -/
def Dense : Requirement → Prop
  | .single _ _ => True
  | .segmented m => ∀ e ∈ m.entries, e.2.isEmpty = false

/-! ### Dropping pairs -/

/-- Keeps the pairs that satisfy `keep`. -/
def retain (keep : SegmentId → NodeId → Bool) : Requirement → Requirement
  | .single s ns => .single s (ns.filter (keep s))
  | .segmented m => .segmented (m.filterMap fun s ns => nonEmpty? (ns.filter (keep s)))

/-- Whether a confirmation for `scope` covers segment `s`; without a scope it covers all. -/
def covers (scope : Option SegmentId) (s : SegmentId) : Bool := scope.all (· == s)

/-- Drops what `n` owes, in one segment or, without a scope, in all; also says whether anything
was dropped. A write to one segment does not look at the scope (§14, segment-scoped acks). -/
def remove (n : NodeId) (scope : Option SegmentId) : Requirement → Bool × Requirement
  | .single s ns => (decide (n ∈ ns), .single s (ns.erase n))
  | .segmented m =>
    (m.entries.any fun e => covers scope e.1 && decide (n ∈ e.2),
      (Requirement.segmented m).retain fun s k => !(covers scope s && k == n))

/-! ### The view -/

theorem mem_pairs_single {s t : SegmentId} {ns : NodeSet} {n : NodeId} :
    (t, n) ∈ (Requirement.single s ns).pairs ↔ t = s ∧ n ∈ ns := by
  simp only [pairs, List.mem_map, Prod.mk.injEq, NodeSet.mem_toList]
  constructor
  · rintro ⟨k, hk, rfl, rfl⟩
    exact ⟨rfl, hk⟩
  · rintro ⟨rfl, hn⟩
    exact ⟨n, hn, rfl, rfl⟩

theorem mem_pairs_segmented {m : SegmentMap NodeSet} {s : SegmentId} {n : NodeId} :
    (s, n) ∈ (Requirement.segmented m).pairs ↔ ∃ ns, (s, ns) ∈ m.entries ∧ n ∈ ns := by
  simp only [pairs, List.mem_flatMap, List.mem_map, Prod.mk.injEq, NodeSet.mem_toList, Prod.exists]
  constructor
  · rintro ⟨t, ns, hm, k, hk, rfl, rfl⟩
    exact ⟨ns, hm, hk⟩
  · rintro ⟨ns, hm, hn⟩
    exact ⟨s, ns, hm, n, hn, rfl, rfl⟩

theorem nonEmpty?_eq_some_iff {ns ks : NodeSet} :
    nonEmpty? ns = some ks ↔ ns = ks ∧ ks.isEmpty = false := by
  unfold nonEmpty?
  split
  · rename_i h
    simp only [reduceCtorEq, false_iff, not_and]
    rintro rfl
    simp [h]
  · rename_i h
    simp only [Option.some.injEq]
    constructor
    · rintro rfl
      exact ⟨rfl, by simpa using h⟩
    · exact And.left

theorem isEmpty_eq_false_of_mem {ns : NodeSet} {n : NodeId} (h : n ∈ ns) : ns.isEmpty = false := by
  cases he : ns.isEmpty with
  | false => rfl
  | true => exact absurd h (NodeSet.isEmpty_iff.1 he n)

theorem mem_pairs_ofSegments {owners : SegmentMap NodeSet} {s : SegmentId} {n : NodeId} :
    (s, n) ∈ (ofSegments owners).pairs ↔ ∃ ns, (s, ns) ∈ owners.entries ∧ n ∈ ns := by
  rw [ofSegments, mem_pairs_segmented]
  simp only [SegmentMap.mem_filterMap, nonEmpty?_eq_some_iff]
  constructor
  · rintro ⟨ks, ⟨ns, hm, rfl, -⟩, hn⟩
    exact ⟨ns, hm, hn⟩
  · rintro ⟨ns, hm, hn⟩
    exact ⟨ns, ⟨ns, hm, rfl, isEmpty_eq_false_of_mem hn⟩, hn⟩

theorem mem_pairs_retain {keep : SegmentId → NodeId → Bool} {r : Requirement} {s : SegmentId}
    {n : NodeId} : (s, n) ∈ (r.retain keep).pairs ↔ (s, n) ∈ r.pairs ∧ keep s n = true := by
  cases r with
  | single t ns =>
    rw [retain, mem_pairs_single, mem_pairs_single, NodeSet.mem_filter]
    constructor
    · rintro ⟨rfl, hn, hk⟩
      exact ⟨⟨rfl, hn⟩, hk⟩
    · rintro ⟨⟨rfl, hn⟩, hk⟩
      exact ⟨rfl, hn, hk⟩
  | segmented m =>
    rw [retain, mem_pairs_segmented, mem_pairs_segmented]
    simp only [SegmentMap.mem_filterMap, nonEmpty?_eq_some_iff]
    constructor
    · rintro ⟨ks, ⟨ns, hm, rfl, -⟩, hn⟩
      obtain ⟨hn, hk⟩ := NodeSet.mem_filter.1 hn
      exact ⟨⟨ns, hm, hn⟩, hk⟩
    · rintro ⟨⟨ns, hm, hn⟩, hk⟩
      have h := NodeSet.mem_filter.2 ⟨hn, hk⟩
      exact ⟨_, ⟨ns, hm, rfl, isEmpty_eq_false_of_mem h⟩, h⟩

theorem retain_dense (keep : SegmentId → NodeId → Bool) (r : Requirement) :
    (r.retain keep).Dense := by
  cases r with
  | single s ns => trivial
  | segmented m =>
    rintro ⟨s, ks⟩ hks
    obtain ⟨ns, -, hf⟩ := SegmentMap.mem_filterMap.1 hks
    exact (nonEmpty?_eq_some_iff.1 hf).2

end Requirement

/-! ## The write that waits -/

/-- A write that waits for confirmations (the Collector of §4.3 and §4.4 while it is Pending). -/
structure PendingWrite where
  id : WriteId
  epoch : Epoch
  requirement : Requirement
  deriving DecidableEq, Repr

/-- What an event means for a pending write. -/
inductive Ruling where
  /-- The event belongs to an older epoch than the write's `current` one. -/
  | stale (current : Epoch)
  /-- The write goes on waiting, as `write`. -/
  | waiting (write : PendingWrite)
  /-- The write ends with this outcome. -/
  | settled (outcome : Outcome)
  deriving DecidableEq, Repr

namespace Ruling

/-- The outcome of a write that the ruling ends. -/
def outcome? : Ruling → Option Outcome
  | .settled o => some o
  | .stale _ | .waiting _ => none

/-- What is left of the write `w` that the ruling is about. -/
def remaining? (w : PendingWrite) : Ruling → Option PendingWrite
  | .stale _ => some w
  | .waiting w => some w
  | .settled _ => none

end Ruling

namespace PendingWrite

/-- Settles the write if nobody is left to wait for. -/
def conclude (w : PendingWrite) : Ruling :=
  if w.requirement.isSatisfied then .settled .success else .waiting w

/-- A confirmation from `sender`, for one segment or for all (§4.2, `ack`). -/
def ack (sender : NodeId) (epoch : Epoch) (scope : Option SegmentId) (w : PendingWrite) : Ruling :=
  if epoch < w.epoch then .stale w.epoch
  else conclude { w with requirement := (w.requirement.remove sender scope).2 }

/-- A report that `sender` could not apply the write. Whoever is still waited for, the write
fails at once (§4.2, `error`). -/
def error (sender : NodeId) (epoch : Epoch) (cause : String) (w : PendingWrite) : Ruling :=
  if epoch < w.epoch then .stale w.epoch
  else .settled (.failure (.remote sender cause))

/-- A newly activated assignment, for a write that `home` issued as primary. An assignment that is
not newer than the write's epoch changes nothing. The write fails when `home` is no longer primary
of a segment it waits for; otherwise nodes that lost their segment owe nothing any more (§4.5). -/
def adopt (home : NodeId) (v : Ownership) (w : PendingWrite) : Ruling :=
  if v.epoch ≤ w.epoch then .waiting w
  else if w.requirement.segments.any fun s => v.primary? s != some home then
    .settled (.failure (.topologyChanged v.epoch))
  else conclude { w with epoch := v.epoch, requirement := w.requirement.retain v.isOwner }

/-- A change of membership: nodes outside `members` owe nothing any more. The epoch stays (§14). -/
def dropDeparted (members : NodeSet) (w : PendingWrite) : Ruling :=
  conclude { w with requirement := w.requirement.retain fun _ n => decide (n ∈ members) }

end PendingWrite

end BackupAcks
