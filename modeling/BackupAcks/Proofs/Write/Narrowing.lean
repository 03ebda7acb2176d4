import BackupAcks.Proofs.Write.Rulings
import Mathlib.Data.List.Nodup

/-!
# What is waited for only shrinks

A confirmation, a new assignment and a change of membership all retain some of the pairs that a
write waits for. What several of them leave does not depend on their order, as each passes its own
test on the pairs (`retain_retain`). A confirmation that was taken in has nothing left to drop from
the write, nor from anything that is left of the write later (`Narrows`).

Results:
* `retain_retain`, `retain_eq_self`: retaining twice, and retaining everything;
* `remove_retain`, `remove_remove`: a confirmation before or after, and a confirmation twice;
* `retains_ack`, `retains_adopt`, `retains_dropDeparted`: these events only take pairs off;
* `Narrows.ack_keeps`, `ack_keeps_of_ack`: a confirmation that changes nothing changes nothing later,
  and one that was taken in is such a one.
-/
namespace BackupAcks

namespace NodeSet

variable {s : NodeSet} {f g : NodeId → Bool}

theorem filter_filter : (s.filter f).filter g = s.filter fun n => f n && g n := by
  ext n
  simp [and_assoc]

theorem filter_eq_self (h : ∀ n ∈ s, f n = true) : s.filter f = s := by
  ext n
  rw [mem_filter]
  exact and_iff_left_of_imp (h n)

end NodeSet

namespace SegmentMap

variable {α β γ : Type} {m k : SegmentMap α}

theorem eq_of_entries (h : m.entries = k.entries) : m = k := by
  cases m
  cases k
  cases h
  rfl

theorem filterMap_congr {f g : SegmentId → α → Option β}
    (h : ∀ e ∈ m.entries, f e.1 e.2 = g e.1 e.2) : m.filterMap f = m.filterMap g :=
  eq_of_entries (List.filterMap_congr fun e he => congrArg (Option.map fun b => (e.1, b)) (h e he))

theorem filterMap_filterMap (f : SegmentId → α → Option β) (g : SegmentId → β → Option γ) :
    (m.filterMap f).filterMap g = m.filterMap fun s a => (f s a).bind (g s) := by
  refine eq_of_entries ?_
  simp only [filterMap, List.filterMap_filterMap]
  refine List.filterMap_congr fun e _ => ?_
  cases f e.1 e.2 <;> rfl

theorem filterMap_eq_self {f : SegmentId → α → Option α}
    (h : ∀ e ∈ m.entries, f e.1 e.2 = some e.2) : m.filterMap f = m := by
  refine eq_of_entries ?_
  simp only [filterMap]
  rw [List.filterMap_congr fun e he => congrArg (Option.map _) (h e he)]
  exact List.filterMap_some

end SegmentMap

namespace Requirement

variable {r : Requirement} {f g : SegmentId → NodeId → Bool}

/-! ## Retaining -/

theorem nonEmpty?_bind (ns : NodeSet) (p q : NodeId → Bool) :
    ((nonEmpty? (ns.filter p)).bind fun ks => nonEmpty? (ks.filter q)) =
      nonEmpty? (ns.filter fun n => p n && q n) := by
  rw [← NodeSet.filter_filter]
  cases he : (ns.filter p).isEmpty with
  | false => rw [nonEmpty?, he, if_neg (by simp), Option.bind_some]
  | true =>
    have hnone : ((ns.filter p).filter q).isEmpty = true := by
      rw [NodeSet.isEmpty_iff] at he ⊢
      exact fun n hn => he n (NodeSet.mem_filter.1 hn).1
    rw [nonEmpty?, he, if_pos rfl, Option.bind_none, nonEmpty?, hnone, if_pos rfl]

theorem retain_retain : (r.retain f).retain g = r.retain fun s n => f s n && g s n := by
  cases r with
  | single s ns => simp only [retain, NodeSet.filter_filter]
  | segmented m => simp only [retain, SegmentMap.filterMap_filterMap, nonEmpty?_bind]

theorem retain_eq_self (hd : r.Dense) (h : ∀ p ∈ r.pairs, f p.1 p.2 = true) : r.retain f = r := by
  cases r with
  | single s ns =>
    rw [retain, NodeSet.filter_eq_self fun n hn => h (s, n) (mem_pairs_single.2 ⟨rfl, hn⟩)]
  | segmented m =>
    rw [retain, SegmentMap.filterMap_eq_self]
    intro e he
    rw [NodeSet.filter_eq_self fun n hn => h (e.1, n) (mem_pairs_segmented.2 ⟨e.2, he, hn⟩)]
    exact nonEmpty?_eq_some_iff.2 ⟨rfl, hd e he⟩

/-- Nobody is added by retaining. -/
theorem isSatisfied_retain (h : r.isSatisfied = true) : (r.retain f).isSatisfied = true := by
  refine (isSatisfied_iff (retain_dense f r)).2 fun p hp => ?_
  exact not_mem_pairs_of_isSatisfied h p (mem_pairs_retain.1 hp).1

/-! ## Confirming -/

/-- A confirmation of `n` for the scope leaves the pair alone. -/
def spares (n : NodeId) (scope : Option SegmentId) : Requirement → SegmentId → NodeId → Bool
  | .single _ _, _, k => k != n
  | .segmented _, s, k => !(covers scope s && k == n)

theorem remove_eq_retain (n : NodeId) (scope : Option SegmentId) :
    (r.remove n scope).2 = r.retain (r.spares n scope) := by
  cases r <;> rfl

/-- Whom a confirmation spares depends on the shape alone. -/
theorem spares_retain (n : NodeId) (scope : Option SegmentId) :
    (r.retain f).spares n scope = r.spares n scope := by
  cases r <;> rfl

/-- A confirmation takes the same off what was retained. -/
theorem remove_retain (n : NodeId) (scope : Option SegmentId) :
    ((r.retain f).remove n scope).2 = (r.remove n scope).2.retain f := by
  rw [remove_eq_retain, remove_eq_retain, spares_retain, retain_retain, retain_retain]
  simp only [Bool.and_comm]

/-- A confirmation that comes twice takes off what it takes off once. -/
theorem remove_remove (n : NodeId) (scope : Option SegmentId) :
    ((r.remove n scope).2.remove n scope).2 = (r.remove n scope).2 := by
  rw [remove_eq_retain n scope (r := r), remove_retain, remove_eq_retain, retain_retain]
  simp only [Bool.and_self]

end Requirement

namespace PendingWrite

variable {w w' x : PendingWrite}

/-! ## What is left of a write -/

/-- `w'` is what is left of `w` later. -/
structure Narrows (w w' : PendingWrite) : Prop extends w.Continues w' where
  retained : ∃ keep, w'.requirement = w.requirement.retain keep

/-- What the rule leaves of a write is some of what the write waited for. -/
def Retains (rule : PendingWrite → Ruling) : Prop :=
  ∀ w w', w.requirement.Dense → (rule w).remaining? w = some w' →
    ∃ keep, w'.requirement = w.requirement.retain keep

theorem retained_self (hd : w.requirement.Dense) :
    ∃ keep, w.requirement = w.requirement.retain keep :=
  ⟨fun _ _ => true, (Requirement.retain_eq_self hd fun _ _ => rfl).symm⟩

theorem conclude_of_satisfied (h : w.requirement.isSatisfied = true) :
    w.conclude = .settled .success :=
  if_pos h

theorem conclude_of_unsatisfied (h : w.requirement.isSatisfied = false) :
    w.conclude = .waiting w :=
  if_neg (by simp [h])

theorem eq_of_conclude (h : x.conclude.remaining? w = some w') : w' = x := by
  unfold conclude at h
  split at h <;> cases h
  rfl

theorem retains_waiting : Retains .waiting := by
  intro w w' hd hw
  cases hw
  exact retained_self hd

theorem retains_ack (sender : NodeId) (epoch : Epoch) (scope : Option SegmentId) :
    Retains (·.ack sender epoch scope) := by
  intro w w' hd hw
  simp only [ack] at hw
  split at hw
  · cases hw
    exact retained_self hd
  · rw [eq_of_conclude hw]
    exact ⟨_, Requirement.remove_eq_retain sender scope⟩

theorem retains_error (sender : NodeId) (epoch : Epoch) (cause : String) :
    Retains (·.error sender epoch cause) := by
  intro w w' hd hw
  simp only [error] at hw
  split at hw <;> cases hw
  exact retained_self hd

theorem retains_adopt (home : NodeId) (v : Ownership) : Retains (·.adopt home v) := by
  intro w w' hd hw
  simp only [adopt] at hw
  split at hw
  · cases hw
    exact retained_self hd
  · split at hw
    · cases hw
    · rw [eq_of_conclude hw]
      exact ⟨v.isOwner, rfl⟩

theorem retains_dropDeparted (members : NodeSet) : Retains (·.dropDeparted members) := by
  intro w w' _ hw
  rw [eq_of_conclude hw]
  exact ⟨fun _ n => decide (n ∈ members), rfl⟩

/-! ## Replies that have nothing to change -/

variable {sender : NodeId} {epoch : Epoch} {scope : Option SegmentId} {cause : String}

/-- A confirmation leaves a write as it is if it is stale or there is nothing to take off. -/
theorem ack_keeps_iff (hl : w.requirement.Live) :
    (w.ack sender epoch scope).remaining? w = some w ↔
      epoch < w.epoch ∨ (w.requirement.remove sender scope).2 = w.requirement := by
  by_cases ht : epoch < w.epoch
  · rw [ack_stale ht]
    exact iff_of_true rfl (.inl ht)
  · rw [ack, if_neg ht, or_iff_right ht]
    constructor
    · intro h
      exact (congrArg PendingWrite.requirement (eq_of_conclude h)).symm
    · intro h
      rw [h, conclude_of_unsatisfied hl.unsatisfied]
      rfl

theorem error_keeps_iff :
    (w.error sender epoch cause).remaining? w = some w ↔ epoch < w.epoch := by
  by_cases ht : epoch < w.epoch
  · rw [error_stale ht]
    exact iff_of_true rfl ht
  · rw [error_current (UInt32.not_lt.1 ht)]
    exact iff_of_false (fun h => by cases h) ht

/-- There is nothing to take off what is left later, either. -/
theorem Narrows.ack_keeps (hn : w.Narrows w') (hl : w.requirement.Live)
    (h : (w.ack sender epoch scope).remaining? w = some w) :
    (w'.ack sender epoch scope).remaining? w' = some w' := by
  rw [ack_keeps_iff hl] at h
  rw [ack_keeps_iff hn.live]
  rcases h with ht | hr
  · exact .inl (UInt32.lt_of_lt_of_le ht hn.epoch_le)
  · obtain ⟨keep, hkeep⟩ := hn.retained
    right
    rw [hkeep, Requirement.remove_retain, hr]

theorem Narrows.error_keeps (hn : w.Narrows w')
    (h : (w.error sender epoch cause).remaining? w = some w) :
    (w'.error sender epoch cause).remaining? w' = some w' := by
  rw [error_keeps_iff] at h ⊢
  exact UInt32.lt_of_lt_of_le h hn.epoch_le

/-- A confirmation that was taken in has nothing to take off any more. -/
theorem ack_keeps_of_ack (hl : w.requirement.Live)
    (h : (w.ack sender epoch scope).remaining? w = some w') :
    (w'.ack sender epoch scope).remaining? w' = some w' := by
  rw [ack_keeps_iff ((lawful_ack sender epoch scope).remaining hl h).live]
  by_cases ht : epoch < w.epoch
  · rw [ack_stale ht] at h
    cases h
    exact .inl ht
  · rw [ack, if_neg ht] at h
    rw [eq_of_conclude h]
    exact .inr (Requirement.remove_remove sender scope)

/-- A write that goes on waiting after a report of failure did not heed it, and does not later. -/
theorem error_keeps_of_error (h : (w.error sender epoch cause).remaining? w = some w') :
    (w'.error sender epoch cause).remaining? w' = some w' := by
  rw [error_keeps_iff]
  by_cases ht : epoch < w.epoch
  · rw [error_stale ht] at h
    cases h
    exact ht
  · rw [error_current (UInt32.not_lt.1 ht)] at h
    cases h

end PendingWrite
end BackupAcks
