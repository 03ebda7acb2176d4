import BackupAcks.Proofs.Coordinator.Answers
import BackupAcks.Proofs.Simulation.Owners
import BackupAcks.Proofs.Simulation.Rolls
import Mathlib.Algebra.BigOperators.Group.List.Basic

/-!
# What a write asks for, and what comes back

A write asks for the confirmation of pairs of a segment and a backup. Each backup gets one forward
for all its segments and confirms them one by one, so that there are as many confirmations as pairs:
the pairs are counted by their segments where the write is registered, and by their backups where
the replies are sent.

Results:
* `length_confirmations`: there is a confirmation for each pair that is asked for;
* `length_pairs_first`: a write asks for the confirmation of every copy of every segment it touches;
* `exists_answer`: unless replies get lost, there is an answer for each pair.
-/
namespace BackupAcks

/-! ## Counting -/

/-- Counted from either side, the pairs of related elements come to the same number. -/
theorem sum_countP_comm {α β : Type} (r : α → β → Bool) (xs : List α) (ys : List β) :
    (xs.map fun x => ys.countP (r x)).sum = (ys.map fun y => xs.countP (r · y)).sum := by
  have hone : ∀ y, (xs.map fun x => if r x y then 1 else 0).sum = xs.countP (r · y) := by
    intro y
    induction xs with
    | nil => rfl
    | cons x xs ih => rw [List.map_cons, List.sum_cons, ih, List.countP_cons, Nat.add_comm]
  induction ys with
  | nil =>
    simp only [List.countP_nil, List.map_const', List.sum_replicate_nat, Nat.mul_zero, List.map_nil,
      List.sum_nil]
  | cons y ys ih =>
    simp only [List.countP_cons, List.sum_map_add, ih, hone, List.map_cons, List.sum_cons]
    exact Nat.add_comm _ _

namespace NodeSet

theorem size_ofList {l : List NodeId} (h : l.Nodup) : (ofList l).size = l.length :=
  ((List.perm_ext_iff_of_nodup (ofList l).toList_nodup h).2 fun _ => mem_ofList).length_eq

/-- The members of a part, counted in the whole. -/
theorem countP_mem {s t : NodeSet} (h : ∀ n ∈ s, n ∈ t) :
    t.toList.countP (fun n => decide (n ∈ s)) = s.size := by
  rw [List.countP_eq_length_filter]
  refine ((List.perm_ext_iff_of_nodup (t.toList_nodup.filter _) s.toList_nodup).2
    fun n => ?_).length_eq
  rw [List.mem_filter, decide_eq_true_eq, mem_toList]
  exact and_iff_right_of_imp (h n)

end NodeSet

namespace Simulation

variable {p : Parameters} {chance : Chance} {v : Ownership} {epoch : Epoch} {i : Nat}
  {id : WriteId} {r : Request} {f : Forward} {q : SegmentId × NodeId}

/-! ## Pairs -/

def Request.pairs : Request → List (SegmentId × NodeId)
  | .single s backups => (Requirement.single s backups).pairs
  | .segmented backups => (Requirement.segmented backups).pairs

/-- What a request asks for is what the write is registered with. -/
theorem Request.order?_event (r : Request) (epoch : Epoch) :
    ∃ o, (r.event epoch).order? = some (o, epoch) ∧ ∀ q, q ∈ o.pairs ↔ q ∈ r.pairs := by
  cases r with
  | single s backups => exact ⟨_, rfl, fun _ => Iff.rfl⟩
  | segmented backups =>
    exact ⟨_, rfl, fun _ => Requirement.mem_pairs_ofSegments.trans
      Requirement.mem_pairs_segmented.symm⟩

theorem Request.grant?_event (r : Request) (c : Coordinator) (epoch : Epoch) :
    c.grant? (r.event epoch) = some ⟨c.engine.now + min c.usualTimeout maxTimeout, c.nextId,
      min c.usualTimeout maxTimeout⟩ := by
  cases r <;> rfl

theorem Request.length_confirmations (r : Request) (id : WriteId) (epoch : Epoch) :
    ((r.forwards id epoch).flatMap Forward.confirmations).length = r.pairs.length := by
  cases r with
  | single s backups =>
    have hone : ∀ n : NodeId, (Forward.confirmations ⟨n, id, epoch, none⟩).length = 1 := fun _ => rfl
    simp only [forwards, pairs, Requirement.pairs, List.length_flatMap, List.map_map,
      Function.comp_def, hone, List.map_const', List.sum_replicate_nat, List.length_map, Nat.mul_one]
  | segmented m =>
    have hconfirmations : ∀ n : NodeId, (Forward.confirmations ⟨n, id, epoch,
        some ((m.entries.filter fun e => decide (n ∈ e.2)).map Prod.fst)⟩).length =
        m.entries.countP fun e => decide (n ∈ e.2) := by
      intro n
      simp only [Forward.confirmations, Option.elim_some, List.length_map,
        List.countP_eq_length_filter]
    -- every backup of a segment is among those that get a forward
    have hsegment : ∀ e ∈ m.entries, (NodeSet.ofList (m.values.flatMap (·.toList))).toList.countP
        (fun n => decide (n ∈ e.2)) = e.2.toList.length := by
      intro e he
      refine NodeSet.countP_mem fun n hn => NodeSet.mem_ofList.2 ?_
      exact List.mem_flatMap.2 ⟨e.2, List.mem_map_of_mem he, hn⟩
    simp only [forwards, pairs, Requirement.pairs, List.length_flatMap, List.map_map,
      Function.comp_def, hconfirmations, List.length_map]
    rw [sum_countP_comm, List.map_congr_left hsegment]

/-- A write to different segments asks for as many pairs as they have backups. -/
theorem length_pairs {segments : List SegmentId} (h : request? p v segments = some r)
    (hlength : segments.length = p.batch) (hnodup : segments.Nodup)
    (hcopies : ∀ s ∈ segments, (NodeSet.ofList (v.backups s)).size = p.copies.toNat) :
    r.pairs.length = p.batch * p.copies.toNat := by
  unfold request? at h
  split at h
  · rename_i hone
    obtain ⟨s, hs, rfl⟩ := Option.map_eq_some_iff.1 h
    rw [Request.pairs, Requirement.pairs, List.length_map, hone, Nat.one_mul]
    exact hcopies s (List.mem_of_head? hs)
  · cases h
    have hperm := SegmentMap.perm_ofList
      (SegmentMap.nodup_map_fst hnodup fun s => NodeSet.ofList (v.backups s))
    rw [Request.pairs, Requirement.pairs, (hperm.flatMap_right _).length_eq, List.length_flatMap,
      List.map_map, ← hlength]
    have hsize : ∀ s ∈ segments, ((fun e : SegmentId × NodeSet =>
        (e.2.toList.map fun n => (e.1, n)).length) ∘ fun s => (s, NodeSet.ofList (v.backups s))) s =
        p.copies.toNat := by
      intro s hs
      exact (List.length_map _).trans (hcopies s hs)
    rw [List.map_congr_left hsize, List.map_const', List.sum_replicate_nat]

/-! ## The first assignment -/

def firstRequest? (p : Parameters) (chance : Chance) (i : Nat) : Option Request :=
  request? p (assignmentAt p 0) (chosen p chance (candidates p (assignmentAt p 0)) i)

theorem chosen_first (hp : p.Fits) (chance : Chance) (i : Nat) :
    (chosen p chance (candidates p (assignmentAt p 0)) i).length = p.batch ∧
      (chosen p chance (candidates p (assignmentAt p 0)) i).Nodup ∧
      ∀ s ∈ chosen p chance (candidates p (assignmentAt p 0)) i, s < p.segments := by
  obtain ⟨hlength, hnodup, hmem⟩ :=
    chosen_spec (nodup_candidates p (assignmentAt p 0)) (batch_le_candidates hp) chance i
  exact ⟨hlength, hnodup, fun s hs => (mem_candidates_iff.1 (hmem s hs)).1⟩

/-- Every segment has as many backups as there are to be copies. -/
theorem size_backups_first (hp : p.Fits)
    (hwords : p.segments.toNat + p.copies.toNat ≤ UInt32.size) {s : SegmentId}
    (hs : s < p.segments) :
    (NodeSet.ofList ((assignmentAt p 0).backups s)).size = p.copies.toNat := by
  have hlt := UInt32.lt_iff_toNat_lt.1 hs
  have hbackups : (assignmentAt p 0).backups s = backupsOf p 0 s := backups_assignment hs (.inr rfl)
  rw [hbackups, NodeSet.size_ofList (nodup_backupsOf hp.copies_le ?_), length_backupsOf]
  have hzero : (0 : UInt32).toNat = 0 := rfl
  omega

/-- A write asks for the confirmation of every copy of every segment it touches. -/
theorem length_pairs_first (hp : p.Fits)
    (hwords : p.segments.toNat + p.copies.toNat ≤ UInt32.size)
    (h : firstRequest? p chance i = some r) : r.pairs.length = p.batch * p.copies.toNat := by
  obtain ⟨hlength, hnodup, hbelow⟩ := chosen_first hp chance i
  exact length_pairs h hlength hnodup fun s hs => size_backups_first hp hwords (hbelow s hs)

/-- That is never nothing. -/
theorem pairs_ne_nil_first (hp : p.Fits)
    (hwords : p.segments.toNat + p.copies.toNat ≤ UInt32.size)
    (h : firstRequest? p chance i = some r) : r.pairs ≠ [] := by
  rw [← List.length_pos_iff, length_pairs_first hp hwords h]
  refine Nat.mul_pos hp.batch_pos (Nat.pos_of_ne_zero fun hzero => hp.copies_pos ?_)
  exact UInt32.toNat_inj.1 hzero

/-! ## Answers -/

/-- The backup of a pair gets a forward for the segment. -/
theorem Request.exists_forward (hq : q ∈ r.pairs) (id : WriteId) (epoch : Epoch) :
    ∃ f ∈ r.forwards id epoch, f.backup = q.2 ∧ f.id = id ∧ f.epoch = epoch ∧
      ∀ segments, f.segments = some segments → q.1 ∈ segments := by
  cases r with
  | single s backups =>
    obtain ⟨-, hn⟩ := Requirement.mem_pairs_single.1 hq
    exact ⟨_, List.mem_map_of_mem hn, rfl, rfl, rfl, nofun⟩
  | segmented m =>
    obtain ⟨backups, he, hn⟩ := Requirement.mem_pairs_segmented.1 hq
    have hmember : q.2 ∈ (NodeSet.ofList (m.values.flatMap (·.toList))).toList :=
      NodeSet.mem_ofList.2 (List.mem_flatMap.2 ⟨backups, List.mem_map_of_mem he, hn⟩)
    refine ⟨_, List.mem_map_of_mem hmember, rfl, rfl, rfl, fun segments hsegments => ?_⟩
    cases hsegments
    exact List.mem_map.2 ⟨(q.1, backups), List.mem_filter.2 ⟨he, decide_eq_true hn⟩, rfl⟩

theorem Forward.exists_confirmation {s : SegmentId}
    (h : ∀ segments, f.segments = some segments → s ∈ segments) :
    ∃ x ∈ f.confirmations, x.Answers s := by
  unfold confirmations
  cases hsegments : f.segments with
  | none => exact ⟨_, List.mem_singleton_self _, trivial⟩
  | some segments => exact ⟨_, List.mem_map_of_mem (h segments hsegments), rfl⟩

/-- If no reply gets lost, and either none or every one is to fail, a backup answers for each of its
segments. -/
theorem Forward.exists_answer (hdrop : p.dropRate.rank = some 0)
    (hfail : p.failRate.rank = some 0 ∨ p.failRate = .one) {s : SegmentId}
    (h : ∀ segments, f.segments = some segments → s ∈ segments) (n : Nat) :
    ∃ x ∈ f.replies p (Chance.unit n), x.textSize < 2 ^ 32 ∧ x.id = f.id ∧ x.epoch = f.epoch ∧
      x.Answers s := by
  rcases hfail with hzero | hone
  · rw [replies_of_faultless hdrop hzero]
    obtain ⟨x, hx, hanswers⟩ := exists_confirmation h
    refine ⟨x, hx, textSize_of_mem_confirmations hx, ?_⟩
    rcases eq_ack_of_mem_confirmations hx with rfl | ⟨t, rfl⟩ <;> exact ⟨rfl, rfl, hanswers⟩
  · rw [replies_of_failing hdrop hone]
    exact ⟨_, List.mem_singleton_self _, f.textSize_failure, rfl, rfl, trivial⟩

theorem exists_answer (hdrop : p.dropRate.rank = some 0)
    (hfail : p.failRate.rank = some 0 ∨ p.failRate = .one) (hq : q ∈ r.pairs) :
    ∃ x ∈ replyIncidents p chance epoch i r, ∃ y : Reply, x.event = .bytes q.2 y.encode ∧
      y.textSize < 2 ^ 32 ∧ y.id = ⟨primary, UInt64.ofNat i⟩ ∧ y.epoch = epoch ∧
      y.Answers q.1 := by
  obtain ⟨f, hf, hbackup, hid, hepoch, hsegments⟩ :=
    Request.exists_forward hq ⟨primary, UInt64.ofNat i⟩ epoch
  obtain ⟨y, hy, hsize, hyid, hyepoch, hanswers⟩ :=
    Forward.exists_answer hdrop hfail hsegments (chance.roll i f.backup)
  refine ⟨_, List.mem_flatMap.2 ⟨f, hf, List.mem_map_of_mem hy⟩, y, ?_, hsize, ?_, ?_, hanswers⟩
  · rw [hbackup]
  · rw [hyid, hid]
  · rw [hyepoch, hepoch]

/-- A reply comes after the write was issued, and not later than the longest delay. -/
theorem due_of_mem_replyIncidents {x : Incident} (h : x ∈ replyIncidents p chance epoch i r) :
    issueTime p i ≤ x.due ∧ x.due ≤ issueTime p i + Duration.ofMillis p.maxDelayMs := by
  obtain ⟨f, -, hf⟩ := List.mem_flatMap.1 h
  obtain ⟨y, -, rfl⟩ := List.mem_map.1 hf
  have hdelay := Nat.mod_lt (chance.delay i f.backup) (Nat.succ_pos p.maxDelayMs)
  exact ⟨Nat.le_add_right _ _, Nat.add_le_add_left
    (Nat.mul_le_mul_left 1000000 (Nat.le_of_lt_succ hdelay)) _⟩

/-- Without faults, the write gets as many replies as it asks for pairs. -/
theorem length_replyIncidents (hdrop : p.dropRate.rank = some 0)
    (hfail : p.failRate.rank = some 0) :
    (replyIncidents p chance epoch i r).length = r.pairs.length := by
  rw [← r.length_confirmations ⟨primary, UInt64.ofNat i⟩ epoch, replyIncidents, List.length_flatMap,
    List.length_flatMap]
  refine congrArg List.sum (List.map_congr_left fun f _ => ?_)
  rw [List.length_map, Forward.replies_of_faultless hdrop hfail]

end Simulation
end BackupAcks
