import BackupAcks.Simulation.Run
import BackupAcks.Proofs.Coordinator.PassingTime

/-!
# A simulation is a run

All that a simulation does to its coordinator are events: before each incident the clock moves on
to its instant, the sweeper empties its queue and its alarm has its turn; then comes the event of
the incident. So what holds of every run holds of every simulation.

Which events these are depends on the state only in how often the sweeper receives.

Results:
* `coordinator_foldl_play`: playing incidents is running their events;
* `arrivals_played`: less the passing of time, these are the events of the incidents;
* `coordinator_playAll`: a whole simulation is a run, too.
-/
namespace BackupAcks

namespace Simulation

open Coordinator (Event arrivals arrivals_append arrivals_of_isTick creations creations_append
  creations_cons creations_of_isTick isTick_of_mem_moves run_append)

/-! ## Incidents -/

def Incident.events (c : Coordinator) (x : Incident) : List Event := c.moves x.due ++ [x.event]

/-- The events by which incidents are played, one after the other. -/
def played (c : Coordinator) : List Incident → List Event
  | [] => []
  | x :: xs => x.events c ++ played (c.run (x.events c)) xs

variable {c : Coordinator} {x : Incident} {xs ys : List Incident} {e : Event} {s : Progress}

theorem played_append (c : Coordinator) (xs ys : List Incident) :
    played c (xs ++ ys) = played c xs ++ played (c.run (played c xs)) ys := by
  induction xs generalizing c with
  | nil => rfl
  | cons x xs ih => rw [List.cons_append, played, ih, played, run_append, List.append_assoc]

theorem mem_played (h : e ∈ played c xs) : e.isTick = true ∨ ∃ x ∈ xs, e = x.event := by
  induction xs generalizing c with
  | nil => cases h
  | cons x xs ih =>
    simp only [played, Incident.events, List.mem_append, List.mem_singleton] at h
    rcases h with (h | rfl) | h
    · exact .inl (isTick_of_mem_moves h)
    · exact .inr ⟨x, List.mem_cons_self, rfl⟩
    · exact (ih h).imp_right fun ⟨y, hy, he⟩ => ⟨y, List.mem_cons_of_mem _ hy, he⟩

theorem event_mem_played (h : x ∈ xs) : x.event ∈ played c xs := by
  induction xs generalizing c with
  | nil => cases h
  | cons y ys ih =>
    rw [played, Incident.events, List.append_assoc, List.singleton_append]
    rcases List.mem_cons.1 h with rfl | h
    · exact List.mem_append_right _ List.mem_cons_self
    · exact List.mem_append_right _ (List.mem_cons_of_mem _ (ih h))

/-- The clock shows no instant that is later than all incidents that were played. -/
theorem now_run_played {i : Instant} (hs : c.engine.table.Sound) (hnow : c.engine.now ≤ i)
    (hxs : ∀ x ∈ xs, x.due ≤ i ∧ ∀ d, x.event ≠ .advance d) :
    (c.run (played c xs)).engine.now ≤ i := by
  induction xs generalizing c with
  | nil => exact hnow
  | cons x xs ih =>
    obtain ⟨hdue, hevent⟩ := hxs x List.mem_cons_self
    have hmoved := Coordinator.run_sound hs (c.moves x.due)
    rw [played, run_append]
    refine ih (Coordinator.run_sound hs _) ?_ fun y hy => hxs y (List.mem_cons_of_mem _ hy)
    rw [Incident.events, Coordinator.run_concat, Coordinator.now_step hmoved hevent,
      Coordinator.now_run_moves]
    exact Nat.max_le.2 ⟨hnow, hdue⟩

theorem creations_played (c : Coordinator) (xs : List Incident) :
    creations (played c xs) = creations (xs.map (·.event)) := by
  induction xs generalizing c with
  | nil => rfl
  | cons x xs ih =>
    have hmoves := creations_of_isTick fun e he => isTick_of_mem_moves (c := c) (i := x.due) he
    rw [played, Incident.events, creations_append, creations_append, hmoves, ih, List.map_cons,
      creations_cons, creations_cons, Nat.zero_add]
    rfl

/-- Playing incidents, nothing else comes in. -/
theorem arrivals_played (c : Coordinator) (h : ∀ x ∈ xs, x.event.isTick = false) :
    arrivals (played c xs) = xs.map (·.event) := by
  induction xs generalizing c with
  | nil => rfl
  | cons x xs ih =>
    have hmoves := arrivals_of_isTick fun e he => isTick_of_mem_moves (c := c) (i := x.due) he
    have hevent : arrivals [x.event] = [x.event] :=
      List.filter_eq_self.2 fun e he => by
        rw [List.mem_singleton.1 he, h x List.mem_cons_self, Bool.not_false]
    rw [played, Incident.events, arrivals_append, arrivals_append, hmoves, hevent,
      ih _ fun y hy => h y (List.mem_cons_of_mem _ hy), List.map_cons, List.nil_append,
      List.singleton_append]

/-! ## Progress -/

namespace Progress

theorem coordinator_moveTo (s : Progress) (i : Instant) :
    (s.moveTo i).coordinator = s.coordinator.run (s.coordinator.moves i) := by
  rw [Coordinator.run_moves]
  rfl

theorem coordinator_play (s : Progress) (x : Incident) :
    (s.play x).coordinator = s.coordinator.run (x.events s.coordinator) := by
  rw [Incident.events, run_append, ← coordinator_moveTo]
  rfl

theorem coordinator_foldl_play (s : Progress) (xs : List Incident) :
    (xs.foldl play s).coordinator = s.coordinator.run (played s.coordinator xs) := by
  induction xs generalizing s with
  | nil => rfl
  | cons x xs ih => rw [List.foldl_cons, ih, coordinator_play, played, run_append]

theorem coordinator_finish (s : Progress) : s.finish.coordinator = s.coordinator.run
    (s.coordinator.moves (s.coordinator.engine.now + s.coordinator.usualTimeout)) :=
  coordinator_moveTo s _

theorem coordinator_stop (s : Progress) : s.stop.coordinator = s.coordinator.run [.stop] := rfl

end Progress

/-! ## Whole simulations -/

/-- How many writes are issued: all of them, unless the simulation is asked to end before. -/
def issuedIn (p : Parameters) (terminateAt : Option Instant) : Nat :=
  terminateAt.elim p.writes (issuedBy p)

variable {p : Parameters} {chance : Chance} {terminateAt : Option Instant}

theorem issuedIn_le (p : Parameters) (terminateAt : Option Instant) :
    issuedIn p terminateAt ≤ p.writes := by
  cases terminateAt with
  | none => exact Nat.le_refl _
  | some i => exact Nat.min_le_left _ _

theorem cutShort?_eq (p : Parameters) (terminateAt : Option Instant) : cutShort? p terminateAt =
    if issuedIn p terminateAt < p.writes then terminateAt.map fun i => (i, issuedBy p i)
    else none := by
  cases terminateAt with
  | none => simp [cutShort?]
  | some i => rfl

/-- The simulation is cut short just if not all writes are issued. -/
theorem cutShort?_eq_none_iff :
    cutShort? p terminateAt = none ↔ issuedIn p terminateAt = p.writes := by
  have hle := issuedIn_le p terminateAt
  rw [cutShort?_eq]
  cases terminateAt with
  | none => simp [issuedIn]
  | some i =>
    simp only [Option.map_some, ite_eq_right_iff, reduceCtorEq, imp_false, Nat.not_lt]
    omega

theorem issuedIn_of_cutShort {r : Instant × Nat} (h : cutShort? p terminateAt = some r) :
    issuedIn p terminateAt = r.2 := by
  rw [cutShort?_eq] at h
  split at h
  · obtain ⟨i, rfl, rfl⟩ := Option.map_eq_some_iff.1 h
    rfl
  · cases h

/-- What a simulation plays until it is stopped: the whole agenda and the time until every deadline
has passed, or the incidents until the simulation is asked to end. -/
def untilStop (p : Parameters) (chance : Chance) (terminateAt : Option Instant) (c : Coordinator) :
    List Event :=
  match cutShort? p terminateAt with
  | none =>
    let events := played c (agenda p chance p.writes)
    let c := c.run events
    events ++ c.moves (c.engine.now + c.usualTimeout)
  | some (i, count) =>
    let events := played c ((agenda p chance count).takeWhile (·.due ≤ i))
    events ++ (c.run events).moves i

/-- The incidents that come too late. -/
def afterStop (p : Parameters) (chance : Chance) (terminateAt : Option Instant) : List Incident :=
  (cutShort? p terminateAt).elim [] fun r => (agenda p chance r.2).dropWhile (·.due ≤ r.1)

/-- All that happens to a coordinator in a simulation. -/
def story (p : Parameters) (chance : Chance) (terminateAt : Option Instant) (c : Coordinator) :
    List Event :=
  let events := untilStop p chance terminateAt c ++ [.stop]
  events ++ played (c.run events) (afterStop p chance terminateAt)

def ending (p : Parameters) (chance : Chance) (terminateAt : Option Instant) (s : Settings) :
    Coordinator :=
  (Coordinator.new primary initialEpoch s).run
    (story p chance terminateAt (.new primary initialEpoch s))

/-- A simulation runs its story. -/
theorem coordinator_playAll (p : Parameters) (chance : Chance) (terminateAt : Option Instant)
    (s : Progress) :
    (playAll p chance terminateAt s).2.coordinator =
      s.coordinator.run (story p chance terminateAt s.coordinator) := by
  unfold playAll story untilStop afterStop
  cases cutShort? p terminateAt with
  | none =>
    simp only [Option.elim_none, played, List.append_nil]
    rw [Progress.coordinator_stop, Progress.coordinator_finish, Progress.coordinator_foldl_play,
      run_append, run_append]
  | some r =>
    simp only [Option.elim_some]
    rw [Progress.coordinator_foldl_play, Progress.coordinator_stop, run_append, run_append, run_append]
    simp only [Progress.remark]
    rw [Progress.coordinator_moveTo, Progress.coordinator_foldl_play]

/-- The incidents on account of the writes that are issued. -/
def incidents (p : Parameters) (chance : Chance) (terminateAt : Option Instant) : List Incident :=
  agenda p chance (issuedIn p terminateAt)

/-! ## The outcome -/

/-- Wherever the settings come from, a coordinator starts with nothing issued. -/
theorem exists_new_of_startFrom {document : Option String}
    (h : (Coordinator.startFrom primary initialEpoch document).value = .ok c) :
    ∃ s, c = .new primary initialEpoch s := by
  have hstart : ∀ s, (Coordinator.start primary initialEpoch s).value = .ok c →
      c = .new primary initialEpoch s := by
    intro s hs
    unfold Coordinator.start at hs
    split at hs
    · cases hs
    · cases hs
      rfl
  unfold Coordinator.startFrom at h
  split at h
  · exact ⟨_, hstart _ h⟩
  · split at h
    · cases h
    · unfold Coordinator.startWith at h
      split at h
      · cases h
      · exact ⟨_, hstart _ h⟩

/-- A simulation whose settings are good ends with a report on what became of its coordinator. -/
theorem run_eq (hc : (Coordinator.startFrom primary initialEpoch p.config).value = .ok c) :
    (run p chance terminateAt).1 = .ok ((playAll p chance terminateAt ⟨c, ∅, []⟩).2.report p
      (playAll p chance terminateAt ⟨c, ∅, []⟩).1) := by
  simp only [run, hc]

end Simulation
end BackupAcks
