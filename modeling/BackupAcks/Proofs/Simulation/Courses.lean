import BackupAcks.Proofs.Coordinator.Shutdown
import BackupAcks.Proofs.Simulation.Agenda
import BackupAcks.Proofs.Simulation.Timeline
import BackupAcks.Proofs.Simulation.Tallies
import Mathlib.Data.List.Perm.Subperm

/-!
# The courses that a simulation can take

The writer, the backups and the sweeper work side by side, so that the parameters and the draws do
not settle in which order things happen. They only settle what can happen: the writes, the changes
of the assignment before them and the replies to them, as the agenda has them. In a `Course` these
come in any order; replies may come late or never, time passes in between, and the request to end
may come after any number of writes, even before the first. What no course can differ in is this:
the coordinator is stopped once, after the last write that is issued, and unless the simulation is
asked to end, not before each write has its outcome.

`run` takes one of these courses: at each instant it lets the deadlines that have passed fire, and
then plays the incidents in the order of their writes.

Results:
* `Course.tick_or_stop_or_planned`, `Course.creations_events`: what happens in a course;
* `Interleaved.exists_course`: whatever comes in, waiting for the outcomes comes to an end;
* `Course.ofRun`: the course that `run` takes.
-/
namespace BackupAcks

namespace Simulation

open Coordinator (Event arrivals arrivals_append arrivals_of_isTick creations creations_append
  creations_arrivals creations_of_isTick isTick_of_mem_moves mem_arrivals run_append)

variable {p : Parameters} {chance : Chance} {terminateAt : Option Instant} {c : Coordinator}
  {s : Settings} {e : Event} {n : Nat} {before after : List Event}

/-! ## Courses -/

/-- What comes in before the coordinator is stopped, and after that, if `n` writes are issued. -/
structure Interleaved (p : Parameters) (chance : Chance) (n : Nat) (before after : List Event) :
    Prop where
  /-- What comes in is on the agenda, and comes no more often than it stands there. -/
  planned : (arrivals (before ++ after)).Subperm ((agenda p chance n).map (·.event))
  /-- All writes are created before the end. -/
  created : creations before = n

/-- All that happens to a coordinator in a simulation. -/
structure Course (p : Parameters) (chance : Chance) (c : Coordinator) where
  /-- The number of writes that are issued. -/
  issued : Nat
  before : List Event
  after : List Event
  issued_le : issued ≤ p.writes
  interleaved : Interleaved p chance issued before after
  /-- Unless the simulation is asked to end, the outcomes of all writes are waited for. -/
  joined : issued = p.writes →
    ∀ k ∈ (c.run before).engine.table.handles, k.outcome.isSome = true

namespace Course

def events (C : Course p chance c) : List Event := C.before ++ .stop :: C.after

def ending (C : Course p chance c) : Coordinator := c.run C.events

end Course

/-! ## What happens in a course -/

theorem Planned.not_isTick (h : Planned p e) : e.isTick = false := by
  cases h with
  | creation r epoch => cases r <;> rfl
  | reply => rfl
  | activation => rfl

theorem Planned.changes_of_offer (h : Planned p e) (ho : e.offer?.isSome = true) :
    p.rebalanceEvery ≠ 0 := by
  cases h with
  | creation r epoch => cases r <;> cases ho
  | reply => cases ho
  | activation changes => exact changes

/-- What is planned creates a write, offers an assignment or brings bytes, and nothing else. -/
theorem Planned.ne {e' : Event} (h : Planned p e) (ho : e'.order? = none) (hv : e'.offer? = none)
    (hb : ∀ n data, e' ≠ .bytes n data) : e ≠ e' := by
  rintro rfl
  cases h with
  | creation r epoch => cases r <;> cases ho
  | reply => exact hb _ _ rfl
  | activation => cases hv

theorem Planned.isUsual (h : Planned p e) : e.IsUsual := by
  intro usual time htime
  cases h with
  | creation r epoch => cases r <;> exact (Option.some.inj htime).symm
  | reply => cases htime
  | activation => cases htime

theorem isUsual_of_isTick (h : e.isTick = true) : e.IsUsual := by
  intro usual time htime
  rw [Event.time?_of_isTick h] at htime
  cases htime

namespace Interleaved

variable (h : Interleaved p chance n before after)

include h

theorem tick_or_planned (he : e ∈ before ++ after) : e.isTick = true ∨ Planned p e := by
  cases htick : e.isTick with
  | true => exact .inl rfl
  | false =>
    obtain ⟨x, hx, rfl⟩ := List.mem_map.1 (h.planned.subset (mem_arrivals.2 ⟨he, htick⟩))
    exact .inr (planned_of_mem_agenda hx)

/-- Until the coordinator is stopped, neither a stop comes nor does the sweeper die. -/
theorem not_mem_before : .stop ∉ before ∧ .sweeperLost ∉ before := by
  have hne : ∀ e ∈ before, e ≠ .stop ∧ e ≠ .sweeperLost := by
    intro e he
    rcases h.tick_or_planned (List.mem_append_left _ he) with htick | hplanned
    · constructor <;> rintro rfl <;> cases htick
    · exact ⟨hplanned.ne rfl rfl nofun, hplanned.ne rfl rfl nofun⟩
  exact ⟨fun hmem => (hne _ hmem).1 rfl, fun hmem => (hne _ hmem).2 rfl⟩

/-- No write is created after the end. -/
theorem creations_after (hp : p.Fits) : creations after = 0 := by
  have hle : creations (arrivals (before ++ after)) ≤
      creations ((agenda p chance n).map (·.event)) := h.planned.countP_le _
  rw [creations_arrivals, creations_append, h.created, creations_agenda hp] at hle
  omega

/-- Letting time pass before the end changes nothing in what comes in. -/
theorem append_ticks {ticks : List Event} (ht : ∀ e ∈ ticks, e.isTick = true) :
    Interleaved p chance n (before ++ ticks) after := by
  refine ⟨?_, ?_⟩
  · rw [arrivals_append, arrivals_append, arrivals_of_isTick ht, List.append_nil,
      ← arrivals_append]
    exact h.planned
  · rw [creations_append, creations_of_isTick ht, h.created, Nat.add_zero]

/-- When every deadline has passed, every write has its outcome. -/
theorem settled (hn : n ≤ UInt64.size) :
    let c := (Coordinator.new primary initialEpoch s).run before
    (c.run (c.moves (c.engine.now + c.usualTimeout))).engine.table.pending = [] := by
  have husual : ∀ e ∈ before, e.IsUsual := by
    intro e he
    rcases h.tick_or_planned (List.mem_append_left _ he) with htick | hplanned
    · exact isUsual_of_isTick htick
    · exact hplanned.isUsual
  refine Coordinator.pending_run_moves (h.created.trans_le hn) h.not_mem_before.2 fun d hd => ?_
  rw [Coordinator.run_usualTimeout (Coordinator.new_sound _ _ _)]
  exact Coordinator.due_le_of_isUsual husual hd

/-- Whatever comes in, and in whatever order: waiting for the outcomes comes to an end. -/
theorem exists_course (hn : n ≤ UInt64.size) (hle : n ≤ p.writes) :
    ∃ C : Course p chance (.new primary initialEpoch s), C.issued = n ∧ C.after = after ∧
      ∃ wait, (∀ e ∈ wait, e.isTick = true) ∧ C.before = before ++ wait := by
  let c := (Coordinator.new primary initialEpoch s).run before
  have hticks : ∀ e ∈ c.moves (c.engine.now + c.usualTimeout), e.isTick = true :=
    fun e he => isTick_of_mem_moves he
  have hwaited := h.append_ticks hticks
  refine ⟨⟨n, _, after, hle, hwaited, fun _ => ?_⟩, rfl, rfl, _, hticks, rfl⟩
  have hevolves := Coordinator.run_evolves (.new primary initialEpoch s)
    (before ++ c.moves (c.engine.now + c.usualTimeout))
  rw [hwaited.created] at hevolves
  refine hevolves.isSome_outcome hn ?_
  rw [run_append]
  exact h.settled hn

end Interleaved

namespace Course

variable (C : Course p chance c)

theorem tick_or_stop_or_planned (h : e ∈ C.events) : e.isTick = true ∨ e = .stop ∨ Planned p e := by
  rcases List.mem_append.1 h with h | h
  · exact (C.interleaved.tick_or_planned (List.mem_append_left _ h)).imp_right .inr
  · rcases List.mem_cons.1 h with rfl | h
    · exact .inr (.inl rfl)
    · exact (C.interleaved.tick_or_planned (List.mem_append_right _ h)).imp_right .inr

theorem creations_events (hp : p.Fits) : creations C.events = C.issued := by
  have hstop : creations (.stop :: C.after) = creations C.after := by
    rw [Coordinator.creations_cons]
    exact Nat.zero_add _
  rw [events, creations_append, hstop, C.interleaved.created, C.interleaved.creations_after hp,
    Nat.add_zero]

end Course

/-! ## The course that is run -/

section Run

variable (p chance terminateAt)

/-- Less the passing of time and the stop, a simulation is its agenda. -/
theorem arrivals_run (c c' : Coordinator) :
    arrivals (untilStop p chance terminateAt c ++ played c' (afterStop p chance terminateAt)) =
      (incidents p chance terminateAt).map (·.event) := by
  have hmoves : ∀ (c : Coordinator) i, arrivals (c.moves i) = [] :=
    fun c i => arrivals_of_isTick fun e he => isTick_of_mem_moves he
  have hplayed : ∀ (c : Coordinator) {xs : List Incident} {count : Nat},
      xs ⊆ agenda p chance count → arrivals (played c xs) = xs.map (·.event) :=
    fun c xs count hxs => arrivals_played c fun x hx => (planned_of_mem_agenda (hxs hx)).not_isTick
  unfold untilStop afterStop incidents
  cases hcut : cutShort? p terminateAt with
  | none =>
    simp only [cutShort?_eq_none_iff.1 hcut, arrivals_append, hmoves, List.append_nil,
      Option.elim_none, played]
    exact hplayed c (List.Subset.refl _)
  | some r =>
    simp only [issuedIn_of_cutShort hcut, arrivals_append, hmoves, List.append_nil,
      Option.elim_some]
    rw [hplayed c (List.takeWhile_sublist _).subset, hplayed c' (List.dropWhile_sublist _).subset,
      ← List.map_append]
    exact congrArg (List.map Incident.event) List.takeWhile_append_dropWhile

variable {p chance terminateAt}

theorem mem_story (h : e ∈ story p chance terminateAt c) :
    e.isTick = true ∨ e = .stop ∨ ∃ x ∈ incidents p chance terminateAt, e = x.event := by
  cases htick : e.isTick with
  | true => exact .inl rfl
  | false =>
    have hmem : e = .stop ∨ e ∈ untilStop p chance terminateAt c ++ played
        (c.run (untilStop p chance terminateAt c ++ [.stop])) (afterStop p chance terminateAt) := by
      simp only [story, List.mem_append, List.mem_singleton] at h ⊢
      tauto
    refine .inr (hmem.imp_right fun hmem => ?_)
    have harrival := mem_arrivals.2 ⟨hmem, htick⟩
    rw [arrivals_run] at harrival
    obtain ⟨x, hx, rfl⟩ := List.mem_map.1 harrival
    exact ⟨x, hx, rfl⟩

variable (chance terminateAt)

/-- A simulation creates the writes of its agenda. -/
theorem creations_run (hp : p.Fits) (c c' : Coordinator) :
    creations (untilStop p chance terminateAt c ++ played c' (afterStop p chance terminateAt)) =
      issuedIn p terminateAt := by
  rw [← creations_arrivals, arrivals_run, incidents, creations_agenda hp]

variable {chance terminateAt}

/-- By the time a simulation is asked to end, the writes issued until then have had their turn. -/
theorem issueTime_le {i : Instant} {j : Nat} (h : j < issuedBy p i) : issueTime p j ≤ i := by
  have hdiv : j * (1000 * p.intervalUs) ≤ i := by
    have hj : j ≤ i / (1000 * p.intervalUs) := by
      unfold issuedBy Duration.ofMicros at h
      omega
    exact (Nat.mul_le_mul_right _ hj).trans (Nat.div_mul_le_self _ _)
  unfold issueTime Duration.ofMicros
  rwa [Nat.mul_left_comm]

/-- So no write comes too late. -/
theorem creations_afterStop (c : Coordinator) :
    creations (played c (afterStop p chance terminateAt)) = 0 := by
  rw [creations_played, creations_map]
  refine List.countP_eq_zero.2 fun x hx hcreation => ?_
  unfold afterStop at hx
  cases hcut : cutShort? p terminateAt with
  | none => rw [hcut] at hx; cases hx
  | some r =>
    rw [hcut, Option.elim_some] at hx
    obtain ⟨j, hj, hdue⟩ := due_of_isCreation ((List.dropWhile_sublist _).subset hx) hcreation
    have hlate := lt_due_of_mem_dropWhile (agenda_sorted p chance r.2) hx
    rw [cutShort?_eq] at hcut
    split at hcut
    · obtain ⟨i, -, rfl⟩ := Option.map_eq_some_iff.1 hcut
      rw [hdue] at hlate
      exact Nat.not_le_of_lt hlate (issueTime_le hj)
    · cases hcut

theorem interleaved_run (hp : p.Fits) (c c' : Coordinator) :
    Interleaved p chance (issuedIn p terminateAt) (untilStop p chance terminateAt c)
      (played c' (afterStop p chance terminateAt)) := by
  refine ⟨?_, ?_⟩
  · rw [arrivals_run]
    exact List.Subperm.refl _
  · have hall := creations_run chance terminateAt hp c c'
    rwa [creations_append, creations_afterStop, Nat.add_zero] at hall

/-- Unless the simulation is cut short, nothing waits when the coordinator is stopped. -/
theorem untilStop_settled (hp : p.Fits) (hn : issuedIn p terminateAt ≤ UInt64.size)
    (hall : issuedIn p terminateAt = p.writes) :
    ((Coordinator.new primary initialEpoch s).run (untilStop p chance terminateAt
      (.new primary initialEpoch s))).engine.table.pending = [] := by
  have hplayed : Interleaved p chance p.writes
      (played (.new primary initialEpoch s) (agenda p chance p.writes)) [] := by
    refine ⟨?_, ?_⟩
    · rw [List.append_nil, arrivals_played _ fun x hx => (planned_of_mem_agenda hx).not_isTick]
    · rw [creations_played, creations_agenda hp]
  simp only [untilStop, cutShort?_eq_none_iff.2 hall]
  rw [run_append]
  exact hplayed.settled (hall ▸ hn)

/-- The course that `run` takes. -/
def Course.ofRun (chance : Chance) (s : Settings) (hp : p.Fits)
    (hn : issuedIn p terminateAt ≤ UInt64.size) :
    Course p chance (.new primary initialEpoch s) where
  issued := issuedIn p terminateAt
  before := untilStop p chance terminateAt (.new primary initialEpoch s)
  after := played ((Coordinator.new primary initialEpoch s).run
    (untilStop p chance terminateAt (.new primary initialEpoch s) ++ [.stop]))
    (afterStop p chance terminateAt)
  issued_le := issuedIn_le p terminateAt
  interleaved := interleaved_run hp _ _
  joined hall := by
    have hevolves := Coordinator.run_evolves (.new primary initialEpoch s)
      (untilStop p chance terminateAt (.new primary initialEpoch s))
    rw [(interleaved_run hp _ (.new primary initialEpoch s)).created] at hevolves
    exact hevolves.isSome_outcome hn (untilStop_settled hp hn hall)

theorem Course.events_ofRun (hp : p.Fits) (hn : issuedIn p terminateAt ≤ UInt64.size) :
    (Course.ofRun chance s hp hn).events =
      story p chance terminateAt (.new primary initialEpoch s) := by
  rw [Course.events, story, List.append_assoc]
  rfl

theorem Course.ending_ofRun (hp : p.Fits) (hn : issuedIn p terminateAt ≤ UInt64.size) :
    (Course.ofRun chance s hp hn).ending = Simulation.ending p chance terminateAt s := by
  rw [Course.ending, Course.events_ofRun, Simulation.ending]

end Run

end Simulation
end BackupAcks
