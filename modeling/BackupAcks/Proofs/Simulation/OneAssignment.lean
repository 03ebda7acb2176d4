import BackupAcks.Proofs.Simulation.Conservation
import BackupAcks.Proofs.Simulation.Requests

/-!
# The agenda under one assignment

If the assignment never changes, the agenda consists of the writes and the replies to them. It is in
the order of time, and its sorting is stable: so the writes stand on it in the order of their
numbers, each with its replies behind it, even those that take no time at all.

Results:
* `mem_agenda_first`: what is on the agenda;
* `filter_agenda`: the writes stand in the order of their numbers;
* `exists_window`: the agenda before a write, until the replies to it have come in, and after that.
-/
namespace BackupAcks.Simulation

open Coordinator (Event)

variable {p : Parameters} {chance : Chance} {r : Request} {x : Incident} {xs : List Incident}
  {count i j : Nat}

def firstIncidents (p : Parameters) (chance : Chance) (i : Nat) : List Incident :=
  writeIncidents p chance (assignmentAt p 0) (candidates p (assignmentAt p 0)) i

theorem firstIncidents_eq (h : firstRequest? p chance i = some r) : firstIncidents p chance i =
    ⟨issueTime p i, r.event initialEpoch⟩ :: replyIncidents p chance initialEpoch i r :=
  writeIncidents_eq h

theorem exists_firstRequest (hp : p.Fits) (chance : Chance) (i : Nat) :
    ∃ r, firstRequest? p chance i = some r :=
  exists_writeIncidents hp chance 0 i

theorem agenda_eq (hturns : p.rebalanceEvery = 0) (chance : Chance) (count : Nat) :
    agenda p chance count = ((List.range count).flatMap (firstIncidents p chance)).mergeSort
      fun a b => a.due ≤ b.due := by
  have hturn : turnIncidents p chance 0 0 count =
      (List.range count).flatMap (firstIncidents p chance) := by
    rw [turnIncidents, List.range_eq_range']
    rfl
  rw [agenda, turns, if_pos hturns, ← hturn, List.flatMap_cons, List.flatMap_nil, List.append_nil]

theorem mem_agenda_first (hp : p.Fits) (hturns : p.rebalanceEvery = 0) :
    x ∈ agenda p chance count ↔ ∃ i < count, ∃ r, firstRequest? p chance i = some r ∧
      (x = ⟨issueTime p i, r.event initialEpoch⟩ ∨
        x ∈ replyIncidents p chance initialEpoch i r) := by
  rw [agenda_eq hturns, List.mem_mergeSort, List.mem_flatMap]
  simp only [List.mem_range]
  refine exists_congr fun i => and_congr_right fun _ => ?_
  obtain ⟨r, hr⟩ := exists_firstRequest hp chance i
  rw [firstIncidents_eq hr, List.mem_cons]
  constructor
  · intro h
    exact ⟨r, hr, h⟩
  · intro h
    obtain ⟨r', hr', h⟩ := h
    rw [hr] at hr'
    cases hr'
    exact h

/-! ## The order of time -/

/-- In incidents in the order of time, those up to an instant stand first. -/
theorem exists_upTo (t : Instant) (h : xs.Pairwise fun a b => a.due ≤ b.due) :
    ∃ soon later, xs = soon ++ later ∧ (∀ x ∈ soon, x.due ≤ t) ∧
      ∀ x ∈ xs, x.due ≤ t → x ∈ soon := by
  induction xs with
  | nil => exact ⟨[], [], rfl, nofun, nofun⟩
  | cons y ys ih =>
    obtain ⟨hy, hys⟩ := List.pairwise_cons.1 h
    by_cases ht : y.due ≤ t
    · obtain ⟨soon, later, rfl, hsoon, hall⟩ := ih hys
      refine ⟨y :: soon, later, rfl, List.forall_mem_cons.2 ⟨ht, hsoon⟩, fun x hx hxt => ?_⟩
      rcases List.mem_cons.1 hx with rfl | hx
      · exact List.mem_cons_self
      · exact List.mem_cons_of_mem _ (hall x hx hxt)
    · refine ⟨[], y :: ys, rfl, nofun, fun x hx hxt => absurd ?_ ht⟩
      rcases List.mem_cons.1 hx with rfl | hx
      · exact hxt
      · exact Nat.le_trans (hy x hx) hxt

theorem issueTime_lt (hp : p.Fits) (h : i < j) : issueTime p i < issueTime p j :=
  Nat.mul_lt_mul_of_pos_left (Nat.mul_lt_mul_of_pos_right h hp.interval_pos) (by decide)

/-! ## The order of the writes -/

theorem filter_firstIncidents (h : firstRequest? p chance i = some r) :
    (firstIncidents p chance i).filter Incident.isCreation =
      [⟨issueTime p i, r.event initialEpoch⟩] := by
  rw [firstIncidents_eq h, List.filter_cons_of_pos (isCreation_event _ r _), List.filter_eq_nil_iff.2]
  intro x hx
  rw [not_isCreation_of_mem_replyIncidents hx]
  exact Bool.false_ne_true

theorem due_of_mem_filter (hp : p.Fits)
    (h : x ∈ (firstIncidents p chance i).filter Incident.isCreation) : x.due = issueTime p i := by
  obtain ⟨r, hr⟩ := exists_firstRequest hp chance i
  rw [filter_firstIncidents hr, List.mem_singleton] at h
  rw [h]

theorem filter_agenda (hp : p.Fits) (hturns : p.rebalanceEvery = 0) (chance : Chance)
    (count : Nat) : (agenda p chance count).filter Incident.isCreation =
      (List.range count).flatMap fun i => (firstIncidents p chance i).filter Incident.isCreation := by
  rw [← List.filter_flatMap, agenda_eq hturns]
  generalize hall : (List.range count).flatMap (firstIncidents p chance) = all
  have hordered : (all.filter Incident.isCreation).Pairwise
      fun a b => decide (a.due ≤ b.due) = true := by
    rw [← hall, List.filter_flatMap, List.pairwise_flatMap]
    refine ⟨fun i _ => ?_, List.pairwise_lt_range.imp fun {i j} hij a ha b hb => ?_⟩
    · obtain ⟨r, hr⟩ := exists_firstRequest hp chance i
      rw [filter_firstIncidents hr]
      exact List.pairwise_singleton _ _
    · rw [due_of_mem_filter hp ha, due_of_mem_filter hp hb]
      exact decide_eq_true (Nat.le_of_lt (issueTime_lt hp hij))
  have hsublist := (List.sublist_mergeSort due_trans due_total hordered List.filter_sublist).filter
    Incident.isCreation
  rw [List.filter_eq_self.2 fun x hx => (List.mem_filter.1 hx).2] at hsublist
  refine (hsublist.eq_of_length ?_).symm
  exact ((List.mergeSort_perm all _).filter Incident.isCreation).length_eq.symm

/-- A reply stands behind its write, even if it comes at the same instant. -/
theorem pair_sublist_agenda (hturns : p.rebalanceEvery = 0) (hi : i < count)
    (hr : firstRequest? p chance i = some r) (hx : x ∈ replyIncidents p chance initialEpoch i r) :
    [⟨issueTime p i, r.event initialEpoch⟩, x].Sublist (agenda p chance count) := by
  rw [agenda_eq hturns]
  refine List.pair_sublist_mergeSort due_trans due_total
    (decide_eq_true (due_of_mem_replyIncidents hx).1) ?_
  refine List.Sublist.trans ?_ (List.sublist_flatten_of_mem
    (List.mem_map_of_mem (List.mem_range.2 hi)))
  rw [firstIncidents_eq hr]
  exact List.cons_sublist_cons.2 (List.singleton_sublist.2 hx)

/-- The agenda before a write and after it: as many writes before it as were issued before it, and
all replies to it after it. -/
theorem exists_split (hp : p.Fits) (hturns : p.rebalanceEvery = 0) (hi : i < count)
    (hr : firstRequest? p chance i = some r) :
    ∃ before after, agenda p chance count =
        before ++ ⟨issueTime p i, r.event initialEpoch⟩ :: after ∧
      before.countP Incident.isCreation = i ∧
      ∀ x ∈ replyIncidents p chance initialEpoch i r, x ∈ after := by
  have hcreations := filter_agenda hp hturns chance count
  obtain ⟨k, rfl⟩ : ∃ k, count = i + (k + 1) := ⟨count - i - 1, by omega⟩
  have hrange : List.range (i + (k + 1)) = List.range i ++ i :: List.range' (i + 1) k := by
    rw [List.range_eq_range', List.range_eq_range', ← List.range'_append_1, Nat.zero_add,
      List.range'_succ]
  rw [hrange, List.flatMap_append, List.flatMap_cons, filter_firstIncidents hr,
    List.singleton_append, List.filter_eq_append_iff] at hcreations
  obtain ⟨early, late, hagenda, hearly, hlate⟩ := hcreations
  obtain ⟨between, after, rfl, hbetween, -, -⟩ := List.filter_eq_cons_iff.1 hlate
  rw [← List.append_assoc] at hagenda
  refine ⟨early ++ between, after, hagenda, ?_, fun x hx => ?_⟩
  · have hone : ∀ j ∈ List.range i,
        ((firstIncidents p chance j).filter Incident.isCreation).length = 1 := by
      intro j _
      obtain ⟨r, hr⟩ := exists_firstRequest hp chance j
      rw [filter_firstIncidents hr, List.length_singleton]
    rw [List.countP_append, List.countP_eq_length_filter, hearly, List.length_flatMap,
      List.map_congr_left hone, List.countP_eq_zero.2 hbetween, List.map_const',
      List.sum_replicate_nat, List.length_range, Nat.mul_one, Nat.add_zero]
  · -- the write itself is not among those before it, so the reply is not there either
    have hfirst : ⟨issueTime p i, r.event initialEpoch⟩ ∉ early ++ between := by
      intro hmem
      rcases List.mem_append.1 hmem with hmem | hmem
      · have hcreation := List.mem_filter.2 ⟨hmem, isCreation_event (issueTime p i) r initialEpoch⟩
        rw [hearly] at hcreation
        obtain ⟨j, hj, hdue⟩ := List.mem_flatMap.1 hcreation
        exact Nat.ne_of_gt (issueTime_lt hp (List.mem_range.1 hj)) (due_of_mem_filter hp hdue)
      · exact hbetween _ hmem (isCreation_event _ r _)
    have hpair := pair_sublist_agenda hturns hi hr hx
    rw [hagenda, List.sublist_append_iff] at hpair
    obtain ⟨front, back, hsplit, hfront, hback⟩ := hpair
    cases front with
    | nil =>
      rw [List.nil_append] at hsplit
      rw [← hsplit] at hback
      exact List.singleton_sublist.1 (List.cons_sublist_cons.1 hback)
    | cons y front =>
      rw [List.cons_append, List.cons.injEq] at hsplit
      exact absurd (hsplit.1 ▸ hfront.subset List.mem_cons_self) hfirst

/-- The agenda before a write, until all replies to it can have come in, and after that. -/
theorem exists_window (hp : p.Fits) (hturns : p.rebalanceEvery = 0) (hi : i < count)
    (hr : firstRequest? p chance i = some r) :
    ∃ before soon later, agenda p chance count =
        before ++ ⟨issueTime p i, r.event initialEpoch⟩ :: (soon ++ later) ∧
      before.countP Incident.isCreation = i ∧
      (∀ x ∈ replyIncidents p chance initialEpoch i r, x ∈ soon) ∧
      ∀ x ∈ before ++ ⟨issueTime p i, r.event initialEpoch⟩ :: soon,
        x.due ≤ issueTime p i + Duration.ofMillis p.maxDelayMs := by
  obtain ⟨before, after, hagenda, hcount, hreplies⟩ := exists_split hp hturns hi hr
  have hsorted := agenda_sorted p chance count
  rw [hagenda, List.pairwise_append, List.pairwise_cons] at hsorted
  obtain ⟨-, ⟨-, hafter⟩, hbefore⟩ := hsorted
  obtain ⟨soon, later, rfl, hsoon, hall⟩ :=
    exists_upTo (issueTime p i + Duration.ofMillis p.maxDelayMs) hafter
  refine ⟨before, soon, later, hagenda, hcount,
    fun x hx => hall x (hreplies x hx) (due_of_mem_replyIncidents hx).2, fun x hx => ?_⟩
  rcases List.mem_append.1 hx with hx | hx
  · exact Nat.le_trans (hbefore x hx _ List.mem_cons_self) (Nat.le_add_right _ _)
  · rcases List.mem_cons.1 hx with rfl | hx
    · exact Nat.le_add_right _ _
    · exact hsoon x hx

end BackupAcks.Simulation
