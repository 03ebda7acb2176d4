import BackupAcks.Proofs.Write.Pairs
import BackupAcks.Write.Pending

/-!
# What an event does to a waiting write

For each event, either it changes nothing, or it ends the write, or it drops an exact set of pairs
and the write succeeds if none is left (`Ruling.Drops`).

Results:
* `ack_drops`, `adopt_drops`, `dropDeparted_drops`: the pairs that a confirmation, a new assignment
  and a change of membership drop;
* `ack_stale`, `adopt_old`, `adopt_moved`: when nothing is dropped;
* `error_failure_iff`, `adopt_failure_iff`: which events fail a write, and as what;
* `lawful_*`: whatever goes on waiting keeps its identifier, is live, waits for nobody new, and
  does not fall back to an older epoch.
-/
namespace BackupAcks

abbrev Pair := SegmentId × NodeId

/-- The ruling takes the pairs in `drop` off what `w` waits for and leaves it at `epoch`; it ends
the write, with success, just if no pair is left. -/
def Ruling.Drops (drop : Pair → Prop) (epoch : Epoch) (w : PendingWrite) : Ruling → Prop
  | .stale _ => False
  | .waiting w' => w'.id = w.id ∧ w'.epoch = epoch ∧ w'.requirement.Live ∧
      ∀ p, p ∈ w'.requirement.pairs ↔ p ∈ w.requirement.pairs ∧ ¬ drop p
  | .settled .success => ∀ p ∈ w.requirement.pairs, drop p
  | .settled (.failure _) => False

namespace PendingWrite

variable {w w' : PendingWrite}

/-! ## Exact effects -/

theorem conclude_cases (hd : w.requirement.Dense) :
    (w.conclude = .settled .success ∧ ∀ p, p ∉ w.requirement.pairs) ∨
      (w.conclude = .waiting w ∧ w.requirement.Live) := by
  cases hs : w.requirement.isSatisfied with
  | true =>
    left
    exact ⟨by simp [conclude, hs], Requirement.not_mem_pairs_of_isSatisfied hs⟩
  | false =>
    right
    exact ⟨by simp [conclude, hs], hd, hs⟩

theorem conclude_drops {drop : Pair → Prop} (w' : PendingWrite) (hd : w'.requirement.Dense)
    (hid : w'.id = w.id)
    (hp : ∀ p, p ∈ w'.requirement.pairs ↔ p ∈ w.requirement.pairs ∧ ¬ drop p) :
    w'.conclude.Drops drop w'.epoch w := by
  rcases conclude_cases hd with ⟨hc, hnone⟩ | ⟨hc, hl⟩
  · rw [hc]
    intro p hpw
    exact Classical.byContradiction fun hnd => hnone p ((hp p).2 ⟨hpw, hnd⟩)
  · rw [hc]
    exact ⟨hid, rfl, hl, hp⟩

variable {sender : NodeId} {epoch : Epoch} {scope : Option SegmentId}

theorem ack_stale (h : epoch < w.epoch) : w.ack sender epoch scope = .stale w.epoch := by
  simp [ack, h]

theorem error_stale {cause : String} (h : epoch < w.epoch) :
    w.error sender epoch cause = .stale w.epoch := by
  simp [error, h]

theorem error_current {cause : String} (h : w.epoch ≤ epoch) :
    w.error sender epoch cause = .settled (.failure (.remote sender cause)) := by
  simp [error, UInt32.not_lt.2 h]

theorem ack_drops (h : w.epoch ≤ epoch) :
    (w.ack sender epoch scope).Drops
      (fun p => p.2 = sender ∧ w.requirement.Reaches scope p.1) w.epoch w := by
  simp only [ack, if_neg (UInt32.not_lt.2 h)]
  exact conclude_drops { w with requirement := (w.requirement.remove sender scope).2 }
    (Requirement.remove_dense sender scope) rfl fun _ => Requirement.mem_pairs_remove

variable {home : NodeId} {v : Ownership}

theorem adopt_old (h : v.epoch ≤ w.epoch) : w.adopt home v = .waiting w := by
  simp [adopt, h]

/-- An assignment rules on every write. -/
theorem adopt_ne_stale (home : NodeId) (v : Ownership) (t : Epoch) :
    w.adopt home v ≠ .stale t := by
  unfold adopt conclude
  split
  · simp
  · split
    · simp
    · split <;> simp

/-- Whether the node lost a segment is the same asked of the segments or of the pairs. -/
theorem any_segments_iff (hl : w.requirement.Live) :
    (w.requirement.segments.any fun s => v.primary? s != some home) = true ↔
      ¬ ∀ p ∈ w.requirement.pairs, v.primary? p.1 = some home := by
  rw [← Requirement.forall_segments_iff hl (P := fun s => v.primary? s = some home)]
  simp

/-- A node that lost a segment fails its writes there. -/
theorem adopt_moved (hl : w.requirement.Live) (h : w.epoch < v.epoch)
    (hm : ¬ ∀ p ∈ w.requirement.pairs, v.primary? p.1 = some home) :
    w.adopt home v = .settled (.failure (.topologyChanged v.epoch)) := by
  rw [adopt, if_neg (UInt32.not_le.2 h), if_pos ((any_segments_iff hl).2 hm)]

/-- A new assignment drops the pairs whose nodes do not own their segment any more. -/
theorem adopt_drops (hl : w.requirement.Live) (h : w.epoch < v.epoch)
    (hm : ∀ p ∈ w.requirement.pairs, v.primary? p.1 = some home) :
    (w.adopt home v).Drops (fun p => p.2 ∉ v.ownersOf p.1) v.epoch w := by
  have hkeep : ¬ (w.requirement.segments.any fun s => v.primary? s != some home) = true :=
    fun hany => (any_segments_iff hl).1 hany hm
  rw [adopt, if_neg (UInt32.not_le.2 h), if_neg hkeep]
  refine conclude_drops
    { w with epoch := v.epoch, requirement := w.requirement.retain v.isOwner }
    (Requirement.retain_dense _ _) rfl fun p => ?_
  rw [Requirement.mem_pairs_retain, Ownership.isOwner_iff, Classical.not_not]

theorem dropDeparted_drops {members : NodeSet} :
    (w.dropDeparted members).Drops (fun p => p.2 ∉ members) w.epoch w := by
  refine conclude_drops { w with requirement := w.requirement.retain _ }
    (Requirement.retain_dense _ _) rfl fun p => ?_
  rw [Requirement.mem_pairs_retain, decide_eq_true_eq, Classical.not_not]

/-! ## Failures -/

variable {f : Failure}

theorem conclude_not_failure : w.conclude.outcome? ≠ some (.failure f) := by
  unfold conclude
  split <;> simp [Ruling.outcome?]

theorem ack_not_failure : (w.ack sender epoch scope).outcome? ≠ some (.failure f) := by
  unfold ack
  split
  · simp [Ruling.outcome?]
  · exact conclude_not_failure

theorem dropDeparted_not_failure {members : NodeSet} :
    (w.dropDeparted members).outcome? ≠ some (.failure f) :=
  conclude_not_failure

theorem error_failure_iff {cause : String} :
    (w.error sender epoch cause).outcome? = some (.failure f) ↔
      w.epoch ≤ epoch ∧ f = .remote sender cause := by
  by_cases h : w.epoch ≤ epoch
  · simp [error_current h, Ruling.outcome?, h, eq_comm]
  · simp [error_stale (UInt32.not_le.1 h), Ruling.outcome?, h]

/-- A new assignment fails the writes whose segments the node lost, and no others. -/
theorem adopt_failure_iff (hl : w.requirement.Live) :
    (w.adopt home v).outcome? = some (.failure f) ↔
      w.epoch < v.epoch ∧ (∃ p ∈ w.requirement.pairs, v.primary? p.1 ≠ some home) ∧
        f = .topologyChanged v.epoch := by
  by_cases h : v.epoch ≤ w.epoch
  · simp [adopt_old h, Ruling.outcome?, UInt32.not_lt.2 h]
  · have hlt := UInt32.not_le.1 h
    by_cases hlost : ∃ p ∈ w.requirement.pairs, v.primary? p.1 ≠ some home
    · have hm : ¬ ∀ p ∈ w.requirement.pairs, v.primary? p.1 = some home :=
        fun hall => hlost.elim fun p hp => hp.2 (hall p hp.1)
      rw [adopt_moved hl hlt hm]
      simp only [Ruling.outcome?, hlt, hlost, true_and, Option.some.injEq, Outcome.failure.injEq]
      exact eq_comm
    · have hm : ∀ p ∈ w.requirement.pairs, v.primary? p.1 = some home :=
        fun p hp => Classical.byContradiction fun hne => hlost ⟨p, hp, hne⟩
      have hd := adopt_drops hl hlt hm
      simp only [hlost, false_and, and_false, iff_false]
      intro ho
      cases ha : w.adopt home v with
      | settled o =>
        rw [ha] at hd ho
        cases ho
        exact hd
      | stale t => rw [ha] at ho; cases ho
      | waiting x => rw [ha] at ho; cases ho

/-! ## What goes on waiting -/

/-- `w'` is `w` at a later moment. -/
structure Continues (w w' : PendingWrite) : Prop where
  id_eq : w'.id = w.id
  epoch_le : w.epoch ≤ w'.epoch
  live : w'.requirement.Live
  pairs_subset : ∀ p ∈ w'.requirement.pairs, p ∈ w.requirement.pairs

theorem Continues.refl (hl : w.requirement.Live) : w.Continues w :=
  ⟨rfl, UInt32.le_refl _, hl, fun _ hp => hp⟩

theorem Continues.of_drops {drop : Pair → Prop} {t : Epoch} (ht : w.epoch ≤ t)
    (h : (Ruling.waiting w').Drops drop t w) : w.Continues w' := by
  obtain ⟨hid, he, hl, hp⟩ := h
  exact ⟨hid, he ▸ ht, hl, fun p hpw => ((hp p).1 hpw).1⟩

/-- A rule under which a write that goes on waiting is still the same write. -/
def Lawful (rule : PendingWrite → Ruling) : Prop :=
  ∀ w w', w.requirement.Live → rule w = .waiting w' → w.Continues w'

theorem Lawful.remaining {rule : PendingWrite → Ruling} (h : Lawful rule)
    (hl : w.requirement.Live) (hr : (rule w).remaining? w = some w') : w.Continues w' := by
  cases hrw : rule w with
  | stale t =>
    rw [hrw] at hr
    cases hr
    exact .refl hl
  | waiting x =>
    rw [hrw] at hr
    cases hr
    exact h w w' hl hrw
  | settled o => rw [hrw] at hr; cases hr

theorem lawful_ack (sender : NodeId) (epoch : Epoch) (scope : Option SegmentId) :
    Lawful (·.ack sender epoch scope) := by
  intro w w' _ hr
  dsimp only at hr
  by_cases h : epoch < w.epoch
  · rw [ack_stale h] at hr
    cases hr
  · have hd : (w.ack sender epoch scope).Drops _ _ w := ack_drops (UInt32.not_lt.1 h)
    rw [hr] at hd
    exact .of_drops (UInt32.le_refl _) hd

theorem lawful_error (sender : NodeId) (epoch : Epoch) (cause : String) :
    Lawful (·.error sender epoch cause) := by
  intro w w' _ hr
  simp only [error] at hr
  split at hr <;> cases hr

theorem lawful_settled (o : Outcome) : Lawful fun _ => .settled o := by
  intro w w' _ hr
  cases hr

theorem lawful_adopt (home : NodeId) (v : Ownership) : Lawful (·.adopt home v) := by
  intro w w' hl hr
  dsimp only at hr
  by_cases h : v.epoch ≤ w.epoch
  · rw [adopt_old h] at hr
    cases hr
    exact .refl hl
  · have hlt := UInt32.not_le.1 h
    by_cases hm : ∀ p ∈ w.requirement.pairs, v.primary? p.1 = some home
    · have hd := adopt_drops hl hlt hm
      rw [hr] at hd
      exact .of_drops (UInt32.le_of_lt hlt) hd
    · rw [adopt_moved hl hlt hm] at hr
      cases hr

theorem lawful_dropDeparted (members : NodeSet) : Lawful (·.dropDeparted members) := by
  intro w w' _ hr
  have hd : (w.dropDeparted members).Drops _ _ w := dropDeparted_drops
  dsimp only at hr
  rw [hr] at hd
  exact .of_drops (UInt32.le_refl _) hd

end PendingWrite
end BackupAcks
