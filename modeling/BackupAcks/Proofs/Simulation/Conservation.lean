import BackupAcks.Proofs.Reply.Codec
import BackupAcks.Proofs.Simulation.Courses
import BackupAcks.Proofs.Simulation.Rolls

/-!
# Every write of a simulation is accounted for

A simulation ends with a table in which nothing waits: either collection was stopped early, or the
outcomes of all writes were waited for, so that the stop at the end found nothing to do. As every
write that was issued has a handle, each of them is counted under one outcome. Which outcomes there
can be depends on what is on the agenda, and not on the course that a simulation takes.

Results:
* `Course.ending_shut`, `Course.handles_ending`: nothing waits at the end, and without an early end
  the stop settles nothing;
* `Course.conserved`: how the writes of a course are accounted for;
* `run_conserves`: so are those of every simulation that is run.
-/
namespace BackupAcks

namespace Simulation

open Coordinator (Event creations run_append)
open WriteTable (Evolves)

variable {p : Parameters} {chance : Chance} {terminateAt : Option Instant} {c : Coordinator}
  {e : Event} {s : Settings}

/-! ## What the events are -/

theorem Parameters.Fits.drop (hp : p.Fits) : p.dropRate.isProbability = true := by
  have hrates := hp.rates
  simp only [Parameters.ratesFit, Bool.and_eq_true] at hrates
  exact hrates.1.2

/-- What a backup sends is what comes in. -/
theorem reply?_encode {r : Reply} (h : r.textSize < 2 ^ 32) (c : Coordinator) (n : NodeId) :
    c.reply? (.bytes n r.encode) = some (n, r) := by
  rw [Coordinator.reply?, Reply.decode_encode h]
  rfl

theorem Planned.not_reports (h : Planned p e) (hp : p.Fits) (hfail : p.failRate.rank = some 0) :
    ¬ e.Reports := by
  intro hreports
  obtain ⟨c, n, id, t, cause, hreply⟩ := hreports
  cases h with
  | creation r epoch => cases r <;> cases hreply
  | activation => cases hreply
  | @reply f _ r sent =>
    have hsent := Forward.mem_confirmations hp.drop hfail sent
    rw [reply?_encode (Forward.textSize_of_mem_confirmations hsent)] at hreply
    rcases Forward.eq_ack_of_mem_confirmations hsent with rfl | ⟨k, rfl⟩ <;> cases hreply

/-! ## The accounts of a simulation -/

theorem length_latencies (p : Parameters) (replyBytes : Nat) (s : Progress) :
    (s.report p replyBytes).latencies.length = (s.report p replyBytes).tally.succeeded := by
  simp only [Progress.report, List.length_map]
  rw [Tally.succeeded_ofOutcomes, List.count, List.countP_filterMap, List.countP_eq_length_filter]
  congr 1
  refine List.filter_congr fun k _ => ?_
  cases k.outcome <;> rfl

/-- How the writes of a simulation are accounted for in its report, if `n` of them are issued. -/
structure Conserved (p : Parameters) (s : Settings) (n : Nat) (r : Report) : Prop where
  /-- Every write that was issued is counted once. -/
  total : r.tally.succeeded + r.tally.failed + r.tally.timedOut + r.tally.invalidated +
    r.tally.stopped + r.tally.rejected = n
  latencies : r.latencies.length = r.tally.succeeded
  /-- None is cancelled, unless the simulation is asked to end before all are issued. -/
  stopped : n = p.writes → r.tally.stopped = 0
  invalidated : p.rebalanceEvery = 0 → r.tally.invalidated = 0
  rejected : s.maxPending = 0 → r.tally.rejected = 0
  failed : p.failRate.rank = some 0 → r.tally.failed = 0

/-! ## Where the accounts come from -/

namespace Course

/-- The assignment is changed only if it is to be. -/
theorem changes_of_offer (C : Course p chance c) (he : e ∈ C.events)
    (ho : e.offer?.isSome = true) : p.rebalanceEvery ≠ 0 := by
  rcases C.tick_or_stop_or_planned he with htick | rfl | hplanned
  · rw [Event.offer?_of_isTick htick] at ho
    cases ho
  · cases ho
  · exact hplanned.changes_of_offer ho

/-- No failure is reported if none is drawn. -/
theorem not_reports (C : Course p chance c) (hp : p.Fits) (hfail : p.failRate.rank = some 0)
    (he : e ∈ C.events) : ¬ e.Reports := by
  rcases C.tick_or_stop_or_planned he with htick | rfl | hplanned
  · exact Event.not_reports_of_isTick htick
  · exact Event.not_reports_stop
  · exact hplanned.not_reports hp hfail

theorem ending_shut (C : Course p chance c) : C.ending.Shut := by
  rw [ending, events, run_append, Coordinator.run_cons]
  exact (Coordinator.shut_stop _).run _

variable (C : Course p chance (.new primary initialEpoch s)) (hp : p.Fits)
  (hn : C.issued ≤ UInt64.size)

include hp

theorem evolves : Evolves (.new primary s.maxPending) C.issued C.ending.engine.table := by
  have h := Coordinator.run_evolves (.new primary initialEpoch s) C.events
  rwa [C.creations_events hp] at h

include hn

/-- No outcome of a simulation is without an occasion. -/
theorem occasioned : Coordinator.Occasioned (.new primary initialEpoch s) C.events :=
  Coordinator.run_occasioned primary initialEpoch s ((C.creations_events hp).trans_le hn)

/-- When the outcomes of all writes have been waited for, nothing happens to a handle any more. -/
theorem handles_ending (hall : C.issued = p.writes) : C.ending.engine.table.handles =
    ((Coordinator.new primary initialEpoch s).run C.before).engine.table.handles := by
  have hevolves := Coordinator.run_evolves (.new primary initialEpoch s) C.before
  rw [C.interleaved.created] at hevolves
  have hempty := hevolves.pending_eq_nil hn (C.joined hall)
  obtain ⟨later, hlength, -, hhandles⟩ := (Coordinator.shut_stop
    ((Coordinator.new primary initialEpoch s).run C.before)).run_handles C.after
  rw [C.interleaved.creations_after hp, List.length_eq_zero_iff] at hlength
  rw [ending, events, run_append, Coordinator.run_cons, hhandles, hlength, List.nil_append]
  exact WriteTable.handles_stop_of_empty hempty

/-- Without an early end no write is cancelled. -/
theorem not_stopping (hall : C.issued = p.writes) (id : WriteId) :
    C.ending.engine.table.outcome? id ≠ some (.failure .stopping) := by
  intro ho
  -- the stop finds nothing to do, so the outcome is there before it
  rw [WriteTable.outcome?, WriteTable.handle?, C.handles_ending hp hn hall] at ho
  have hoccasioned : Coordinator.Occasioned (.new primary initialEpoch s) C.before :=
    Coordinator.run_occasioned primary initialEpoch s (C.interleaved.created.trans_le hn)
  obtain ⟨hstop, hlost⟩ := C.interleaved.not_mem_before
  exact (hoccasioned.stopping id ho).elim hstop hlost

variable {final : Progress} (hfinal : final.coordinator = C.ending)

include hfinal

theorem total_report (replyBytes : Nat) :
    (final.report p replyBytes).tally.total = C.issued := by
  simp only [Progress.report, Progress.table, hfinal]
  rw [Tally.total_ofOutcomes, (C.evolves hp).length_outcomes hn C.ending_shut.empty]

/-- What no outcome of a write counts for is not counted. -/
theorem report_eq_zero {count : Tally → Nat} (hcount : Tally.Additive count)
    (hempty : count .empty = 0) (replyBytes : Nat)
    (h : ∀ id o, C.ending.engine.table.outcome? id = some o → count (Tally.empty.add o) = 0) :
    count (final.report p replyBytes).tally = 0 := by
  simp only [Progress.report, Progress.table, hfinal]
  refine Tally.eq_zero_of_forall hcount hempty fun o ho => ?_
  obtain ⟨id, hid⟩ := (C.evolves hp).exists_outcome? hn ho
  exact h id o hid

theorem conserved (replyBytes : Nat) : Conserved p s C.issued (final.report p replyBytes) := by
  have hoccasioned := C.occasioned hp hn
  refine ⟨C.total_report hp hn hfinal replyBytes, length_latencies p replyBytes final,
    fun hall => ?_, fun hturns => ?_, fun hlimit => ?_, fun hrate => ?_⟩
  · refine C.report_eq_zero hp hn hfinal Tally.additive_stopped rfl replyBytes fun id o ho => ?_
    cases o with
    | success => rfl
    | failure f =>
      cases f with
      | stopping => exact absurd ho (C.not_stopping hp hn hall id)
      | remote | timeout | topologyChanged | overloaded => rfl
  · refine C.report_eq_zero hp hn hfinal Tally.additive_invalidated rfl replyBytes fun id o ho => ?_
    cases o with
    | success => rfl
    | failure f =>
      cases f with
      | topologyChanged t =>
        obtain ⟨e, he, hoffer⟩ := hoccasioned.topologyChanged id t ho
        exact absurd hturns (C.changes_of_offer he hoffer)
      | remote | timeout | stopping | overloaded => rfl
  · refine C.report_eq_zero hp hn hfinal Tally.additive_rejected rfl replyBytes fun id o ho => ?_
    cases o with
    | success => rfl
    | failure f =>
      cases f with
      | overloaded n => exact absurd hlimit (Nat.ne_of_gt (hoccasioned.overloaded id n ho))
      | remote | timeout | topologyChanged | stopping => rfl
  · refine C.report_eq_zero hp hn hfinal Tally.additive_failed rfl replyBytes fun id o ho => ?_
    cases o with
    | success => rfl
    | failure f =>
      cases f with
      | remote n cause =>
        obtain ⟨e, he, hreports⟩ := hoccasioned.remote id n cause ho
        exact absurd hreports (C.not_reports hp hrate he)
      | timeout | topologyChanged | stopping | overloaded => rfl

end Course

/-- **Every write of a simulation is accounted for**, whatever is drawn and whenever the simulation
is asked to end; and this does not hang on the course that is run. However many writes are issued,
and in whatever order these, the changes of the assignment and the replies come in, as far as they
do, with time passing in between, waiting for the outcomes comes to an end; and whatever course a
simulation takes, all writes that are issued are accounted for. -/
theorem run_conserves (p : Parameters) (chance : Chance) {c : Coordinator} (hp : p.check = .ok p)
    (hc : (Coordinator.startFrom primary initialEpoch p.config).value = .ok c)
    (hn : p.segments.toNat + p.copies.toNat + p.writes ≤ UInt32.size) :
    (∀ terminateAt : Option Instant, ∃ r, (run p chance terminateAt).1 = .ok r ∧
      Conserved p c.settings (terminateAt.elim p.writes (issuedBy p)) r) ∧
    (∀ n ≤ p.writes, ∀ before after, Interleaved p chance n before after →
      ∃ C : Course p chance c, C.issued = n ∧ C.after = after ∧
        ∃ wait, (∀ e ∈ wait, e.isTick = true) ∧ C.before = before ++ wait) ∧
    ∀ (C : Course p chance c) (final : Progress) (replyBytes : Nat), final.coordinator = C.ending →
      Conserved p c.settings C.issued (final.report p replyBytes) := by
  have hfits := Parameters.fits_of_check hp
  have hissued : ∀ n ≤ p.writes, n ≤ UInt64.size := by
    intro n hle
    simp only [UInt32.size, UInt64.size] at hn ⊢
    omega
  obtain ⟨s, rfl⟩ := exists_new_of_startFrom hc
  refine ⟨fun terminateAt => ⟨_, run_eq hc, ?_⟩, fun n hle before after h => ?_,
    fun C final replyBytes hfinal => ?_⟩
  · -- what is run is one of the courses
    have hsize := hissued _ (issuedIn_le p terminateAt)
    refine (Course.ofRun chance s hfits hsize).conserved hfits hsize ?_ _
    rw [Course.ending_ofRun]
    exact coordinator_playAll p chance terminateAt ⟨.new primary initialEpoch s, ∅, []⟩
  · exact h.exists_course (hissued n hle) hle
  · exact C.conserved hfits (hissued _ C.issued_le) hfinal replyBytes

/-- Three writes to two segments each. -/
def threeOfTwo : Parameters := { Parameters.default with writes := 3, batch := 2 }

/-- Two writes are issued by the time the end is asked for, or it is asked for before the first. -/
theorem run_conserves_cutShort :
    (∃ r, (run threeOfTwo (.seeded 1) (some 150000)).1 = .ok r ∧ r.tally.total = 2 ∧
      r.latencies.length = r.tally.succeeded ∧ r.tally.invalidated = 0 ∧ r.tally.rejected = 0) ∧
    ∃ C : Course threeOfTwo (.seeded 1) (.new primary initialEpoch .default), C.after = [] ∧
      (Progress.report threeOfTwo 0 ⟨C.ending, ∅, []⟩).tally.total = 0 := by
  obtain ⟨hrun, hcourse, hall⟩ := run_conserves threeOfTwo (.seeded 1) (by decide +kernel)
    (c := .new primary initialEpoch .default) rfl (by decide)
  obtain ⟨r, hr, h⟩ := hrun (some 150000)
  obtain ⟨C, hnone, hafter, -⟩ := hcourse 0 (by decide) [] [] ⟨List.nil_subperm, rfl⟩
  refine ⟨⟨r, hr, h.total, h.latencies, h.invalidated rfl, h.rejected rfl⟩, C, hafter, ?_⟩
  exact (hall C ⟨C.ending, ∅, []⟩ 0 rfl).total.trans hnone

end Simulation
end BackupAcks
