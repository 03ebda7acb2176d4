import BackupAcks.Proofs.Simulation.Agenda
import Mathlib.Algebra.Order.Group.Nat
import Mathlib.Algebra.Order.Ring.Nat

/-!
# The agenda, write by write

The primary issues one write after the other. Before some of them it changes the assignment, and it
remembers of the assignment in force only the epoch, the shift and whether segment 0 is handed off.
The agenda is laid out by turns, but it is the one that this loop comes to.

Results:
* `phaseAt_eq`: what the primary remembers is fixed by the number of changes;
* `agenda_eq_issueLoop`: the agenda is what the loop lays down, in the order of time.
-/
namespace BackupAcks.Simulation

variable {p : Parameters} {chance : Chance}

/-! ## The assignment in force -/

/-- What the primary remembers of the assignment in force. -/
structure Phase where
  epoch : Epoch
  shift : UInt32
  handedOff : Bool
  deriving DecidableEq, Repr

namespace Phase

def first : Phase := ⟨1, 0, false⟩

def next (x : Phase) : Phase := ⟨x.epoch + 1, x.shift + 1, !x.handedOff⟩

def after (turn : Nat) : Phase := ⟨1 + UInt32.ofNat turn, UInt32.ofNat turn, turn % 2 = 1⟩

def view (p : Parameters) (x : Phase) : Ownership := assignment p x.epoch x.shift x.handedOff

theorem next_after (turn : Nat) : (after turn).next = after (turn + 1) := by
  have hword : UInt32.ofNat turn + 1 = UInt32.ofNat (turn + 1) := (UInt32.ofNat_add turn 1).symm
  have hoff : (!decide (turn % 2 = 1)) = decide ((turn + 1) % 2 = 1) := by
    rw [← decide_not, decide_eq_decide]
    omega
  rw [next, after, after, UInt32.add_assoc, hword, hoff]

end Phase

/-- Whether the assignment changes right before write `i`. -/
def Parameters.ChangesAt (p : Parameters) (i : Nat) : Prop :=
  0 < p.rebalanceEvery ∧ 0 < i ∧ i % p.rebalanceEvery = 0

instance (p : Parameters) (i : Nat) : Decidable (p.ChangesAt i) :=
  inferInstanceAs (Decidable (_ ∧ _ ∧ _))

/-- The phase in which write `i` is issued. -/
def phaseAt (p : Parameters) : Nat → Phase
  | 0 => .first
  | i + 1 => if p.ChangesAt (i + 1) then (phaseAt p i).next else phaseAt p i

theorem turnOf_succ (p : Parameters) (i : Nat) :
    turnOf p (i + 1) = if p.ChangesAt (i + 1) then turnOf p i + 1 else turnOf p i := by
  unfold turnOf Parameters.ChangesAt
  by_cases hnever : p.rebalanceEvery = 0
  · simp [hnever]
  · have hpos := Nat.pos_of_ne_zero hnever
    simp only [if_neg hnever, Nat.succ_div, hpos, Nat.succ_pos, true_and, Nat.dvd_iff_mod_eq_zero]
    split <;> rfl

/-- What the primary remembers is fixed by the number of changes. -/
theorem phaseAt_eq (p : Parameters) (i : Nat) : phaseAt p i = .after (turnOf p i) := by
  induction i with
  | zero =>
    have hzero : turnOf p 0 = 0 := by
      unfold turnOf
      split
      · rfl
      · exact Nat.zero_div _
    rw [hzero]
    rfl
  | succ i ih =>
    rw [phaseAt, turnOf_succ, ih]
    split
    · exact Phase.next_after _
    · rfl

theorem view_phaseAt (p : Parameters) (i : Nat) :
    (phaseAt p i).view p = assignmentAt p (turnOf p i) := by
  rw [phaseAt_eq]
  rfl

/-! ## The loop -/

/-- One round: the change of the assignment, if it is due, and the write. -/
def stepIncidents (p : Parameters) (chance : Chance) (v : Ownership) (i : Nat) : List Incident :=
  (if p.ChangesAt i then [⟨issueTime p i, .activate v⟩] else []) ++
    writeIncidents p chance v (candidates p v) i

/-- What the first `count` rounds lay down. -/
def issueLoop (p : Parameters) (chance : Chance) : (count : Nat) → List Incident
  | 0 => []
  | i + 1 => issueLoop p chance i ++ stepIncidents p chance ((phaseAt p i).view p) i

theorem issueLoop_add (p : Parameters) (chance : Chance) (start count : Nat) :
    issueLoop p chance (start + count) =
      issueLoop p chance start ++ (List.range' start count).flatMap fun i =>
        stepIncidents p chance ((phaseAt p i).view p) i := by
  induction count with
  | zero => exact (List.append_nil _).symm
  | succ count ih =>
    rw [← Nat.add_assoc, issueLoop, ih, List.range'_1_concat, List.flatMap_append,
      List.append_assoc, List.flatMap_singleton]

/-! ## Turns -/

/-- A turn consists of the rounds from one change to the next. -/
theorem stepIncidents_of_turn {turn i : Nat} (hpos : 0 < p.rebalanceEvery)
    (hle : turn * p.rebalanceEvery ≤ i) (hlt : i < turn * p.rebalanceEvery + p.rebalanceEvery) :
    stepIncidents p chance ((phaseAt p i).view p) i =
      (if turn ≠ 0 ∧ i = turn * p.rebalanceEvery
        then [⟨issueTime p i, .activate (assignmentAt p turn)⟩] else []) ++
      writeIncidents p chance (assignmentAt p turn) (candidates p (assignmentAt p turn)) i := by
  obtain ⟨j, rfl⟩ := Nat.exists_eq_add_of_le hle
  have hj : j < p.rebalanceEvery := Nat.lt_of_add_lt_add_left hlt
  have hturn : turnOf p (turn * p.rebalanceEvery + j) = turn := by
    rw [turnOf, if_neg (Nat.ne_of_gt hpos), Nat.add_comm, Nat.add_mul_div_right _ _ hpos,
      Nat.div_eq_of_lt hj, Nat.zero_add]
  have hchanges : p.ChangesAt (turn * p.rebalanceEvery + j) ↔
      turn ≠ 0 ∧ turn * p.rebalanceEvery + j = turn * p.rebalanceEvery := by
    rw [Parameters.ChangesAt, Nat.mul_add_mod', Nat.mod_eq_of_lt hj, Nat.add_eq_left]
    refine ⟨fun h => ⟨fun hzero => ?_, h.2.2⟩, fun h => ⟨hpos, ?_, h.2⟩⟩
    · rw [hzero, h.2.2, Nat.zero_mul] at h
      exact absurd h.2.1 (Nat.lt_irrefl 0)
    · exact Nat.lt_of_lt_of_le (Nat.mul_pos (Nat.pos_of_ne_zero h.1) hpos) hle
  rw [stepIncidents, view_phaseAt, hturn]
  simp only [hchanges]

theorem turnIncidents_eq {turn count : Nat} (hcount : 0 < count) (hle : count ≤ p.rebalanceEvery) :
    turnIncidents p chance turn (turn * p.rebalanceEvery) count =
      (List.range' (turn * p.rebalanceEvery) count).flatMap fun i =>
        stepIncidents p chance ((phaseAt p i).view p) i := by
  have hpos : 0 < p.rebalanceEvery := Nat.lt_of_lt_of_le hcount hle
  obtain ⟨count, rfl⟩ := Nat.exists_eq_succ_of_ne_zero (Nat.ne_of_gt hcount)
  rw [turnIncidents, List.range'_succ, List.flatMap_cons, List.flatMap_cons,
    stepIncidents_of_turn hpos (Nat.le_refl _) (Nat.lt_add_of_pos_right hpos), List.append_assoc]
  -- only the first round of a turn brings a change
  have hrest : ∀ i ∈ List.range' (turn * p.rebalanceEvery + 1) count,
      stepIncidents p chance ((phaseAt p i).view p) i =
        writeIncidents p chance (assignmentAt p turn) (candidates p (assignmentAt p turn)) i := by
    intro i hi
    obtain ⟨hstart, hend⟩ := List.mem_range'_1.1 hi
    have hle' : turn * p.rebalanceEvery ≤ i := by omega
    rw [stepIncidents_of_turn hpos hle' (by omega), if_neg (fun h => by omega), List.nil_append]
  rw [List.flatMap_congr hrest]
  simp only [and_true, ite_not]

theorem turnIncidents_of_constant (hnever : p.rebalanceEvery = 0) (count : Nat) :
    turnIncidents p chance 0 0 count = issueLoop p chance count := by
  have hround : ∀ i, stepIncidents p chance ((phaseAt p i).view p) i =
      writeIncidents p chance (assignmentAt p 0) (candidates p (assignmentAt p 0)) i := by
    intro i
    have hchanges : ¬p.ChangesAt i := fun h => absurd hnever (Nat.ne_of_gt h.1)
    rw [stepIncidents, if_neg hchanges, List.nil_append, view_phaseAt, turnOf, if_pos hnever]
  have hloop := issueLoop_add p chance 0 count
  simp only [hround, Nat.zero_add] at hloop
  exact hloop.symm

/-- The first turns are the first rounds. -/
theorem flatMap_turns_eq (hpos : 0 < p.rebalanceEvery) (count : Nat) {turns : Nat}
    (h : turns * p.rebalanceEvery < count + p.rebalanceEvery) :
    ((List.range turns).flatMap fun turn => turnIncidents p chance turn (turn * p.rebalanceEvery)
      (min p.rebalanceEvery (count - turn * p.rebalanceEvery))) =
      issueLoop p chance (min (turns * p.rebalanceEvery) count) := by
  induction turns with
  | zero => rw [Nat.zero_mul, Nat.zero_min]; rfl
  | succ n ih =>
    rw [Nat.succ_mul] at h ⊢
    have hstart : n * p.rebalanceEvery < count := by omega
    have hend : min (n * p.rebalanceEvery + p.rebalanceEvery) count =
        n * p.rebalanceEvery + min p.rebalanceEvery (count - n * p.rebalanceEvery) := by omega
    rw [List.range_succ, List.flatMap_append, List.flatMap_singleton, ih (by omega),
      turnIncidents_eq (by omega) (Nat.min_le_left _ _), Nat.min_eq_left (Nat.le_of_lt hstart),
      hend, issueLoop_add]

/-- The agenda is what the loop lays down, in the order of time. -/
theorem agenda_eq_issueLoop (p : Parameters) (chance : Chance) (count : Nat) :
    agenda p chance count = (issueLoop p chance count).mergeSort fun a b => a.due ≤ b.due := by
  have hturns : ((turns p count).flatMap fun turn =>
      turnIncidents p chance turn.1 turn.2.1 turn.2.2) = issueLoop p chance count := by
    unfold turns
    simp only
    split
    · rename_i hnever
      rw [List.flatMap_singleton]
      exact turnIncidents_of_constant hnever count
    · rename_i hchanges
      have hpos := Nat.pos_of_ne_zero hchanges
      -- the last turn begins with one of the writes, and no write comes after it
      have hdiv := Nat.div_add_mod (count + p.rebalanceEvery - 1) p.rebalanceEvery
      have hmod := Nat.mod_lt (count + p.rebalanceEvery - 1) hpos
      rw [Nat.mul_comm] at hdiv
      rw [List.flatMap_map]
      refine (flatMap_turns_eq hpos count (by omega)).trans ?_
      rw [Nat.min_eq_right (by omega)]
  exact congrArg (fun xs => List.mergeSort xs fun a b : Incident => decide (a.due ≤ b.due)) hturns

end BackupAcks.Simulation
