import BackupAcks.Proofs.Coordinator.Identifiers
import BackupAcks.Proofs.Simulation.Assignment
import Mathlib.Tactic.SplitIfs

/-!
# What is on the agenda

Parameters that describe a cluster leave the primary segments to write to, so that every write comes
to a request: the agenda of a number of writes creates that many, whatever is drawn and however the
assignment changes. Everything else on it is a change of the assignment or a reply to a forward.

Results:
* `perm_sample`: a sample consists of different elements;
* `creations_agenda`: the agenda creates every write once;
* `planned_of_mem_agenda`: what an incident can be.
-/
namespace BackupAcks.Simulation

open Coordinator (Event creations creations_append creations_cons)

/-! ## Parameters that fit -/

/-- What the check makes sure of. -/
structure Parameters.Fits (p : Parameters) : Prop where
  copies_pos : p.copies ≠ 0
  copies_le : p.copies ≤ p.backups
  segments : 2 ≤ p.segments
  batch_pos : 0 < p.batch
  batch_lt : p.batch < p.segments.toNat
  interval_pos : 0 < p.intervalUs
  rates : p.ratesFit = true

theorem Parameters.fits_of_check {p : Parameters} (h : p.check = .ok p) : p.Fits := by
  unfold check at h
  split_ifs at h with _ hcopies hsegments hbatch hinterval hrates
  rw [not_or] at hcopies hbatch
  exact ⟨hcopies.1, UInt32.not_lt.1 hcopies.2, UInt32.not_lt.1 hsegments,
    Nat.pos_of_ne_zero hbatch.1, Nat.not_le.1 hbatch.2, Nat.pos_of_ne_zero hinterval,
    by simpa using hrates⟩

/-! ## Samples -/

namespace Chance

variable {α : Type} {draw : Nat → Nat}

theorem perm_sample (draw : Nat → Nat) {count : Nat} {xs : List α} (h : count ≤ xs.length) :
    ∃ rest, (sample draw count xs ++ rest).Perm xs ∧ (sample draw count xs).length = count := by
  induction count generalizing xs with
  | zero => exact ⟨xs, .refl _, rfl⟩
  | succ count ih =>
    have hi : draw count % xs.length < xs.length := Nat.mod_lt _ (by omega)
    have hleft : count ≤ (xs.eraseIdx (draw count % xs.length)).length := by
      rw [List.length_eraseIdx_of_lt hi]
      omega
    obtain ⟨rest, hperm, hlength⟩ := ih hleft
    have hsample : sample draw (count + 1) xs = xs[draw count % xs.length] ::
        sample draw count (xs.eraseIdx (draw count % xs.length)) := by
      rw [sample, List.getElem?_eq_getElem hi]
      rfl
    rw [hsample]
    exact ⟨rest, (hperm.cons _).trans (List.getElem_cons_eraseIdx_perm hi), by
      rw [List.length_cons, hlength]⟩

theorem sample_ne_nil {count : Nat} {xs : List α} (hcount : 0 < count) (hxs : xs ≠ []) :
    sample draw count xs ≠ [] := by
  obtain ⟨count, rfl⟩ := Nat.exists_eq_succ_of_ne_zero (Nat.ne_of_gt hcount)
  have hi := Nat.mod_lt (draw count) (List.length_pos_of_ne_nil hxs)
  rw [sample, List.getElem?_eq_getElem hi]
  exact List.cons_ne_nil _ _

end Chance

/-! ## Requests -/

variable {p : Parameters} {chance : Chance} {v : Ownership} {among : List SegmentId} {i : Nat}

theorem isSome_request? {segments : List SegmentId} (h : segments ≠ []) :
    (request? p v segments).isSome = true := by
  unfold request?
  split
  · cases segments with
    | nil => exact absurd rfl h
    | cons s rest => rfl
  · rfl

/-! ## What an incident can be -/

/-- An event of a simulation: a write is created, a reply comes in, or the assignment changes. -/
inductive Planned (p : Parameters) : Event → Prop
  | creation (r : Request) (epoch : Epoch) : Planned p (r.event epoch)
  | reply {f : Forward} {n : Nat} {r : Reply} (sent : r ∈ f.replies p (Chance.unit n)) :
      Planned p (.bytes f.backup r.encode)
  | activation {turn : Nat} (changes : p.rebalanceEvery ≠ 0) :
      Planned p (.activate (assignmentAt p turn))

def replyIncidents (p : Parameters) (chance : Chance) (epoch : Epoch) (i : Nat) (r : Request) :
    List Incident :=
  (r.forwards ⟨primary, UInt64.ofNat i⟩ epoch).flatMap fun f =>
    (f.replies p (Chance.unit (chance.roll i f.backup))).map fun reply =>
      ⟨issueTime p i + Duration.ofMillis (chance.delay i f.backup % (p.maxDelayMs + 1)),
        .bytes f.backup reply.encode⟩

theorem writeIncidents_eq {r : Request} (h : request? p v (chosen p chance among i) = some r) :
    writeIncidents p chance v among i =
      ⟨issueTime p i, r.event v.epoch⟩ :: replyIncidents p chance v.epoch i r := by
  simp only [writeIncidents, h]
  rfl

theorem exists_writeIncidents (h : p.Fits) (chance : Chance) (turn i : Nat) :
    ∃ r, request? p (assignmentAt p turn)
        (chosen p chance (candidates p (assignmentAt p turn)) i) = some r :=
  Option.isSome_iff_exists.1 (isSome_request?
    (Chance.sample_ne_nil h.batch_pos (candidates_ne_nil h.segments turn)))

theorem mem_agenda {count : Nat} {x : Incident} : x ∈ agenda p chance count ↔
    ∃ turn start size, (turn, start, size) ∈ turns p count ∧
      x ∈ turnIncidents p chance turn start size := by
  rw [agenda, List.mem_mergeSort, List.mem_flatMap]
  simp only [Prod.exists]

theorem turn_eq_zero {count turn start size : Nat} (hp : p.rebalanceEvery = 0)
    (h : (turn, start, size) ∈ turns p count) : turn = 0 := by
  rw [turns, if_pos hp, List.mem_singleton] at h
  exact congrArg Prod.fst h

theorem planned_of_mem_writeIncidents {x : Incident} (h : x ∈ writeIncidents p chance v among i) :
    Planned p x.event := by
  cases hr : request? p v (chosen p chance among i) with
  | none => simp only [writeIncidents, hr, List.not_mem_nil] at h
  | some r =>
    rw [writeIncidents_eq hr] at h
    rcases List.mem_cons.1 h with rfl | h
    · exact .creation r v.epoch
    · obtain ⟨f, -, hf⟩ := List.mem_flatMap.1 h
      obtain ⟨reply, hreply, rfl⟩ := List.mem_map.1 hf
      exact .reply hreply

theorem planned_of_mem_agenda {count : Nat} {x : Incident} (h : x ∈ agenda p chance count) :
    Planned p x.event := by
  obtain ⟨turn, start, size, hturn, hx⟩ := mem_agenda.1 h
  rcases List.mem_append.1 hx with hx | hx
  · split at hx
    · cases hx
    · rename_i hne
      rw [List.mem_singleton.1 hx]
      exact .activation fun hp => hne (turn_eq_zero hp hturn)
  · obtain ⟨i, -, hi⟩ := List.mem_flatMap.1 hx
    exact planned_of_mem_writeIncidents hi

/-! ## How many writes are created -/

def Incident.isCreation (x : Incident) : Bool := x.event.order?.isSome

theorem isCreation_event (i : Instant) (r : Request) (epoch : Epoch) :
    (⟨i, r.event epoch⟩ : Incident).isCreation = true := by
  cases r <;> rfl

theorem creations_map (xs : List Incident) :
    creations (xs.map (·.event)) = xs.countP Incident.isCreation :=
  List.countP_map

theorem not_isCreation_of_mem_replyIncidents {epoch : Epoch} {r : Request} {x : Incident}
    (h : x ∈ replyIncidents p chance epoch i r) : x.isCreation = false := by
  obtain ⟨f, -, hf⟩ := List.mem_flatMap.1 h
  obtain ⟨reply, -, rfl⟩ := List.mem_map.1 hf
  rfl

theorem countP_writeIncidents (h : p.Fits) (turn i : Nat) :
    (writeIncidents p chance (assignmentAt p turn) (candidates p (assignmentAt p turn)) i).countP
      Incident.isCreation = 1 := by
  obtain ⟨r, hr⟩ := exists_writeIncidents h chance turn i
  rw [writeIncidents_eq hr, List.countP_cons_of_pos (isCreation_event _ r _),
    List.countP_eq_zero.2 fun x hx => ?_]
  rw [not_isCreation_of_mem_replyIncidents hx]
  exact Bool.false_ne_true

theorem countP_turnIncidents (h : p.Fits) (turn start count : Nat) :
    (turnIncidents p chance turn start count).countP Incident.isCreation = count := by
  have hfirst : ∀ v, (if turn = 0 then [] else [(⟨issueTime p start, .activate v⟩ : Incident)]).countP
      Incident.isCreation = 0 := by
    intro v
    split <;> rfl
  have hone : ∀ i ∈ List.range' start count, (List.countP Incident.isCreation ∘
      writeIncidents p chance (assignmentAt p turn) (candidates p (assignmentAt p turn))) i = 1 :=
    fun i _ => countP_writeIncidents h turn i
  rw [turnIncidents, List.countP_append, hfirst, Nat.zero_add, List.countP_flatMap,
    List.map_congr_left hone, List.map_const', List.sum_replicate_nat, List.length_range',
    Nat.mul_one]

/-- The turns divide the writes among themselves. -/
theorem sum_turns (p : Parameters) (count : Nat) :
    ((turns p count).map fun turn => turn.2.2).sum = count := by
  unfold turns
  simp only
  split
  · simp
  · rename_i hsize
    generalize p.rebalanceEvery = size at hsize ⊢
    -- the first turns hold all writes that fit into them
    have key : ∀ n, ((List.range n).map fun turn => min size (count - turn * size)).sum =
        min (n * size) count := by
      intro n
      induction n with
      | zero => simp
      | succ n ih =>
        rw [List.range_succ, List.map_append, List.sum_append_nat, ih, Nat.succ_mul]
        simp only [List.map_cons, List.map_nil, List.sum_cons, List.sum_nil]
        omega
    have henough : count ≤ (count + size - 1) / size * size := by
      have hpos := Nat.pos_of_ne_zero hsize
      have hdiv := Nat.div_add_mod (count + size - 1) size
      have hmod := Nat.mod_lt (count + size - 1) hpos
      rw [Nat.mul_comm] at hdiv
      omega
    rw [List.map_map]
    exact (key _).trans (Nat.min_eq_right henough)

theorem creations_agenda (h : p.Fits) (chance : Chance) (count : Nat) :
    creations ((agenda p chance count).map (·.event)) = count := by
  rw [creations_map, agenda, (List.mergeSort_perm _ _).countP_eq, List.countP_flatMap]
  refine Eq.trans (congrArg List.sum (List.map_congr_left fun turn _ => ?_)) (sum_turns p count)
  exact countP_turnIncidents h turn.1 turn.2.1 turn.2.2

/-! ## The order of time -/

theorem due_trans (a b c : Incident) (hab : decide (a.due ≤ b.due) = true)
    (hbc : decide (b.due ≤ c.due) = true) : decide (a.due ≤ c.due) = true :=
  decide_eq_true (Nat.le_trans (of_decide_eq_true hab) (of_decide_eq_true hbc))

theorem due_total (a b : Incident) : (decide (a.due ≤ b.due) || decide (b.due ≤ a.due)) = true := by
  rw [Bool.or_eq_true, decide_eq_true_eq, decide_eq_true_eq]
  exact Nat.le_total _ _

theorem agenda_sorted (p : Parameters) (chance : Chance) (count : Nat) :
    (agenda p chance count).Pairwise fun a b => a.due ≤ b.due :=
  (List.pairwise_mergeSort due_trans due_total _).imp of_decide_eq_true

/-- In the order of time, what is left when all that is due by an instant is gone comes later. -/
theorem lt_due_of_mem_dropWhile {xs : List Incident} {x : Incident} {t : Instant}
    (h : xs.Pairwise fun a b => a.due ≤ b.due) (hx : x ∈ xs.dropWhile (·.due ≤ t)) : t < x.due := by
  induction xs with
  | nil => cases hx
  | cons y ys ih =>
    obtain ⟨hy, hys⟩ := List.pairwise_cons.1 h
    by_cases ht : y.due ≤ t
    · rw [List.dropWhile_cons_of_pos (by simpa using ht)] at hx
      exact ih hys hx
    · rw [List.dropWhile_cons_of_neg (by simpa using ht)] at hx
      rcases List.mem_cons.1 hx with rfl | hx
      · exact Nat.lt_of_not_le ht
      · exact Nat.lt_of_lt_of_le (Nat.lt_of_not_le ht) (hy x hx)

/-- The turns reach no further than the writes. -/
theorem lt_of_mem_turns {count turn start size j : Nat} (h : (turn, start, size) ∈ turns p count)
    (hstart : start ≤ j) (hj : j < start + size) : j < count := by
  unfold turns at h
  simp only at h
  split at h
  · simp only [List.mem_singleton, Prod.mk.injEq] at h
    omega
  · obtain ⟨k, -, hk⟩ := List.mem_map.1 h
    simp only [Prod.mk.injEq] at hk
    omega

/-- A write is created at its own instant. -/
theorem due_of_isCreation {count : Nat} {x : Incident} (h : x ∈ agenda p chance count)
    (hx : x.isCreation = true) : ∃ j < count, x.due = issueTime p j := by
  obtain ⟨turn, start, size, hturn, hmem⟩ := mem_agenda.1 h
  rcases List.mem_append.1 hmem with hmem | hmem
  · split at hmem
    · cases hmem
    · rw [List.mem_singleton.1 hmem] at hx
      cases hx
  · obtain ⟨j, hj, hxj⟩ := List.mem_flatMap.1 hmem
    obtain ⟨hstart, hend⟩ := List.mem_range'_1.1 hj
    refine ⟨j, lt_of_mem_turns hturn hstart hend, ?_⟩
    cases hr : request? p (assignmentAt p turn) (chosen p chance
        (candidates p (assignmentAt p turn)) j) with
    | none => simp only [writeIncidents, hr, List.not_mem_nil] at hxj
    | some r =>
      rw [writeIncidents_eq hr] at hxj
      rcases List.mem_cons.1 hxj with rfl | hxj
      · rfl
      · rw [not_isCreation_of_mem_replyIncidents hxj] at hx
        cases hx

end BackupAcks.Simulation
