import BackupAcks.Proofs.Coordinator.DeadlineCoverage
import BackupAcks.Proofs.Coordinator.LocalFailure
import BackupAcks.Proofs.Coordinator.Occasions
import BackupAcks.Proofs.Coordinator.Redelivery

/-!
# Writes that are answered in time

An owner answers for a segment by confirming the write there or by reporting a failure. Whatever was
answered is not waited for any more, in whatever order the answers come in between other events; so
a write for which all answers are in has ended. If they are in before its deadline has passed, it
does not end by a timeout, however long the run goes on.

Results:
* `find?_of_answered`: a write does not wait when all that it waits for is answered;
* `not_timedOut_of_answered`: it never times out if that is before its deadline.
-/
namespace BackupAcks

/-! ## Answers -/

/-- The reply says what became of the write in the given segment. -/
def Reply.Answers (s : SegmentId) : Reply → Prop
  | .ack _ _ | .errorAck _ _ _ => True
  | .segmentAck _ _ t => t = s

/-- What a confirmation has nothing to take off is not waited for. -/
theorem Requirement.not_mem_pairs_of_remove {r : Requirement} {n : NodeId}
    {scope : Option SegmentId} {s : SegmentId} (h : (r.remove n scope).2 = r)
    (hs : r.Reaches scope s) : (s, n) ∉ r.pairs := by
  intro hp
  rw [← h, mem_pairs_remove] at hp
  exact hp.2 ⟨rfl, hs⟩

/-- A write that an answer leaves as it is does not wait for it. -/
theorem Reply.Keeps.not_mem_pairs {n : NodeId} {r : Reply} {w : PendingWrite} {s : SegmentId}
    (h : r.Keeps n w) (hl : w.requirement.Live) (ht : w.epoch ≤ r.epoch) (hs : r.Answers s) :
    (s, n) ∉ w.requirement.pairs := by
  have hcurrent : ¬ r.epoch < w.epoch := UInt32.not_lt.2 ht
  cases r with
  | ack id epoch =>
    refine Requirement.not_mem_pairs_of_remove
      (((PendingWrite.ack_keeps_iff hl).1 h).resolve_left hcurrent) ?_
    cases w.requirement with
    | single => trivial
    | segmented => exact fun _ hk => by cases hk
  | segmentAck id epoch t =>
    refine Requirement.not_mem_pairs_of_remove
      (((PendingWrite.ack_keeps_iff hl).1 h).resolve_left hcurrent) ?_
    cases w.requirement with
    | single => trivial
    | segmented => exact fun _ hk => (Option.some.inj hk).symm.trans hs
  | errorAck id epoch cause => exact absurd (PendingWrite.error_keeps_iff.1 h) hcurrent

namespace Coordinator

/-- Everybody that the write waits for answers in one of the events, for what is asked of them, and
by a reply that is not older than the write. -/
def Answered (w : PendingWrite) (es : List Event) : Prop :=
  ∀ p ∈ w.requirement.pairs, ∃ e ∈ es, ∃ r, (∀ c, reply? c e = some (p.2, r)) ∧ r.id = w.id ∧
    w.epoch ≤ r.epoch ∧ r.Answers p.1

variable {home : NodeId} {epoch : Epoch} {s : Settings} {before es after : List Event} {e : Event}
  {w w' : PendingWrite} {d : Deadline}

/-! ## In a run -/

theorem epoch_eq_of_unoffered
    (hlaw : ((new home epoch s).run before).FollowsLaw w es)
    (hoffers : ∀ x ∈ before ++ es, x.offer? = none)
    (hf : (((new home epoch s).run before).run es).engine.table.find? w.id = some w') :
    w'.epoch = w.epoch := by
  refine (hlaw.epoch_eq w' hf).resolve_right fun hmoved => ?_
  obtain ⟨v, happlied, -⟩ := hmoved
  obtain ⟨first, x, rest, y, rfl, -, happlies⟩ := happlied.exists_event
  rw [← run_append] at happlies
  refine not_meets_of_unoffered (fun z hz => hoffers z ?_) (hoffers x ?_) happlies.meets
  · rcases List.mem_append.1 hz with hz | hz
    · exact List.mem_append_left _ hz
    · exact List.mem_append_right _ (List.mem_append_left _ hz)
  · exact List.mem_append_right _ (List.mem_append_right _ List.mem_cons_self)

theorem find?_of_answered (hr : ((new home epoch s).run before).registration? e = some w)
    (hid : w.id ∉ (((new home epoch s).run before).step e).value.2.issued es)
    (hoffers : ∀ x ∈ before ++ e :: es, x.offer? = none) (h : Answered w es) :
    (((new home epoch s).run before).run (e :: es)).engine.table.find? w.id = none := by
  have hc := (new_fenced home epoch s).run before
  have hlaw := hc.followsLaw_of_registration hr hid
  by_contra hsome
  obtain ⟨w', hf⟩ := Option.ne_none_iff_exists'.1 hsome
  have hepoch := epoch_eq_of_unoffered hlaw hoffers hf
  -- somebody is still waited for, and has answered
  have hl := (hc.run (e :: es)).sound.live_of_find? hf
  obtain ⟨p, hp⟩ := hl.exists_mem_pairs
  obtain ⟨x, hx, r, hreply, hrid, hle, hanswers⟩ := h p ((hlaw.pairs w' hf p).1 hp).1
  obtain ⟨first, rest, rfl⟩ := List.append_of_mem hx
  rw [issued_append, List.mem_append, not_or] at hid
  have hheard : ((((new home epoch s).run before).run (e :: first)).run [x]).Heard p.2 r :=
    (hc.run (e :: first)).heard_of_reply (hreply _)
  have hend := ((hc.run (e :: first)).run [x]).heard_run hheard
    (hrid ▸ (not_mem_issued_cons hid.2).2)
  rw [← run_append, ← run_append, List.cons_append] at hend
  rw [← hrid] at hf
  exact (hend w' hf).not_mem_pairs hl (hepoch ▸ hle) hanswers hp

/-- **A write that is answered in time does not time out.** Let the owners keep their segments until
all that a write waits for is answered, and let that be before its deadline passes. However the run
goes on, the write has not ended by a timeout. -/
theorem not_timedOut_of_answered (hn : creations (before ++ e :: (es ++ after)) ≤ UInt64.size)
    (hr : ((new home epoch s).run before).registration? e = some w)
    (hd : ((new home epoch s).run before).grant? e = some d)
    (hoffers : ∀ x ∈ before ++ e :: es, x.offer? = none) (h : Answered w es)
    (hnow : ((new home epoch s).run (before ++ e :: es)).engine.now < d.due) (ms : Nat) :
    ((new home epoch s).run (before ++ e :: (es ++ after))).engine.table.outcome? w.id ≠
      some (.failure (.timeout ms)) := by
  obtain ⟨hnext, horder, -⟩ := registration?_eq_some_iff.1 hr
  have hdw : d.id = w.id := (id_of_grant? hd).trans hnext.symm
  have hlater := (nextId_not_mem_issued home epoch s hn (by rw [horder]; rfl)).2
  rw [← hnext, issued_append, List.mem_append, not_or] at hlater
  have hnone : ((new home epoch s).run (before ++ e :: es)).engine.table.find? w.id = none := by
    rw [run_append]
    exact find?_of_answered hr hlater.1 hoffers h
  have hn' : creations (before ++ e :: es) ≤ UInt64.size := by
    rw [← List.cons_append, ← List.append_assoc, creations_append] at hn
    exact Nat.le_trans (Nat.le_add_right _ _) hn
  have hgranted : d ∈ (new home epoch s).grants (before ++ e :: es) :=
    mem_grants_iff.2 ⟨before, e, es, rfl, hd⟩
  -- nothing changes after the answers
  have hkept : ((new home epoch s).run (before ++ e :: (es ++ after))).engine.table.outcome? w.id =
      ((new home epoch s).run (before ++ e :: es)).engine.table.outcome? w.id := by
    rw [← List.cons_append, ← List.append_assoc, run_append]
    refine congrArg (Option.bind · Handle.outcome) (run_handle?_of_none ?_ ?_ hnone)
    · exact run_sound (new_sound home epoch s) _
    · rw [run_append, run_cons]
      exact hlater.2
  rw [hkept]
  intro ho
  obtain ⟨x, hx, hxid, hpassed, -⟩ := run_timely home epoch s hn' ho
  obtain rfl := List.inj_on_of_nodup_map (grants_nodup home epoch s hn') hx hgranted
    (hxid.trans hdw.symm)
  exact Nat.not_le_of_lt hnow hpassed

end Coordinator
end BackupAcks
