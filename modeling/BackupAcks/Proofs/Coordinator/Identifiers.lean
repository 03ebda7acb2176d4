import BackupAcks.Proofs.Coordinator.Steps
import BackupAcks.Proofs.Table.Agreement

/-!
# No identifier comes back

A run of a coordinator evolves its table by one registration for each write that is created, so that
its writes are named in order. The numbers repeat only after all of them were used: until then, the
identifier of a write is not issued again.

Results:
* `run_issued`: the writes of a run are named in the order of their creation;
* `pending_not_mem_issued`: the identifier of a write that waits is not issued again;
* `nextId_not_mem_issued`: nor is that of a write that is being created.
-/
namespace BackupAcks

namespace Coordinator

open WriteTable (Evolves Issued nthId nthId_inj)

def creations (es : List Event) : Nat := es.countP fun e => e.order?.isSome

variable {c : Coordinator} {e : Event} {home : NodeId} {n : Nat}

theorem creations_cons (e : Event) (es : List Event) :
    creations (e :: es) = (if e.order?.isSome then 1 else 0) + creations es := by
  rw [creations, List.countP_cons, Nat.add_comm]
  rfl

theorem creations_append (es fs : List Event) :
    creations (es ++ fs) = creations es + creations fs :=
  List.countP_append

/-! ## Events evolve the table -/

theorem deliver_evolves (t : WriteTable) (sender : NodeId) (r : Reply) :
    t.Evolves 0 (t.deliver sender r).value.2 := by
  cases r with
  | ack id epoch => exact WriteTable.ack_evolves id sender epoch
  | segmentAck id epoch segment => exact WriteTable.segmentAck_evolves id sender epoch segment
  | errorAck id epoch cause => exact WriteTable.error_evolves id sender epoch cause

theorem timeOut_evolves (t : WriteTable) (due : List Deadline) :
    t.Evolves 0 (Engine.timeOut due t).value := by
  induction due generalizing t with
  | nil => exact .refl
  | cons d due ih =>
    rw [Engine.timeOut_cons]
    exact (WriteTable.finish_evolves d.id _).trans (ih _)

theorem armDeadline_evolves (id : WriteId) (timeout : Duration) (en : Engine) :
    en.table.Evolves 0 (armDeadline id timeout en).value.table := by
  simp only [armDeadline, Engine.schedule, DeadlineDesk.schedule]
  split
  · exact .refl
  · cases en.desk.sweeper with
    | none => exact WriteTable.finish_evolves id _
    | some s => exact .refl

theorem enroll_evolves {r : Requirement} (hr : r.Dense) (epoch : Epoch) (timeout : Duration) :
    c.engine.table.Evolves 1 (c.enroll r epoch timeout).value.2.engine.table := by
  have hregistered : c.engine.table.Evolves 1 (c.engine.register r epoch).value.2.table :=
    Evolves.refl.register hr epoch
  have hcaughtUp := WriteTable.catchUp_evolves (t := (c.engine.register r epoch).value.2.table)
    c.engine.view c.nextId epoch
  have harmed := armDeadline_evolves c.nextId timeout
    ((c.engine.register r epoch).value.2.catchUp c.nextId epoch).value.2
  exact (hregistered.trans hcaughtUp).trans harmed

theorem step_evolves (c : Coordinator) (e : Event) :
    c.engine.table.Evolves (if e.order?.isSome then 1 else 0)
      (c.step e).value.2.engine.table := by
  cases e using Event.byKind c with
  | order e o ho =>
    obtain ⟨timeout, hstep, -⟩ := step_of_order (c := c) ho
    rw [hstep, ho]
    exact enroll_evolves (order?_dense ho) o.2 timeout
  | reply e x hr =>
    rw [step_of_reply hr, order?_of_reply hr]
    exact deliver_evolves _ x.1 x.2
  | unread sender data hr =>
    rw [step_of_unread hr]
    exact .refl
  | activate v => exact WriteTable.activate_evolves c.engine.view v
  | restrict members => exact WriteTable.restrict_evolves members
  | stop => exact Evolves.refl.stop
  | expire => exact timeOut_evolves _ _
  | sweeperLost => exact .refl
  | advance d => exact .refl
  | receive => exact .refl

theorem run_evolves (c : Coordinator) (es : List Event) :
    c.engine.table.Evolves (creations es) (c.run es).engine.table := by
  induction es generalizing c with
  | nil => exact .refl
  | cons e es ih =>
    rw [creations_cons, run_cons]
    exact (step_evolves c e).trans (ih (c.step e).value.2)

/-- The writes of a run are named in the order of their creation. -/
theorem run_issued (home : NodeId) (epoch : Epoch) (s : Settings) (es : List Event) :
    Issued home (creations es) ((new home epoch s).run es).engine.table := by
  have h : (WriteTable.new home s.maxPending).Evolves (creations es)
      ((new home epoch s).run es).engine.table := run_evolves (new home epoch s) es
  exact h.issued

/-! ## What is issued in a run -/

theorem mem_issued {es : List Event} {id : WriteId} (hs : c.engine.table.Sound)
    (hn : c.engine.table.ids = ⟨home, UInt64.ofNat n⟩) (h : id ∈ c.issued es) :
    ∃ i, n ≤ i ∧ i < n + creations es ∧ id = nthId home i := by
  induction es generalizing c n with
  | nil => cases h
  | cons e es ih =>
    have hids := step_ids hs e
    rw [creations_cons]
    rw [issued] at h
    split at h
    · rename_i ho
      rw [if_pos ho]
      rw [if_pos ho, hn, IdSource.issue] at hids
      rcases List.mem_cons.1 h with rfl | h
      · refine ⟨n, Nat.le_refl n, by omega, ?_⟩
        rw [nextId, hn]
        rfl
      · obtain ⟨i, hle, hlt, hid⟩ := ih (n := n + 1) (step_sound hs e)
          (by rw [hids, UInt64.ofNat_add]; rfl) h
        exact ⟨i, by omega, by omega, hid⟩
    · rename_i ho
      rw [if_neg ho]
      rw [if_neg ho, hn] at hids
      obtain ⟨i, hle, hlt, hid⟩ := ih (step_sound hs e) hids h
      exact ⟨i, hle, by omega, hid⟩

/-- An identifier is not issued again before all others were. -/
theorem nthId_not_mem_issued {es : List Event} {i : Nat} (hs : c.engine.table.Sound)
    (hn : c.engine.table.ids = ⟨home, UInt64.ofNat n⟩) (hi : i < n)
    (hlt : n + creations es ≤ UInt64.size) : nthId home i ∉ c.issued es := by
  intro h
  obtain ⟨j, hle, hj, hid⟩ := mem_issued hs hn h
  have := nthId_inj (by omega) (by omega) hid
  omega

theorem pending_not_mem_issued (home : NodeId) (epoch : Epoch) (s : Settings)
    {before after : List Event} {w : PendingWrite} (h : creations (before ++ after) ≤ UInt64.size)
    (hw : w ∈ ((new home epoch s).run before).engine.table.pending) :
    w.id ∉ ((new home epoch s).run before).issued after := by
  rw [creations_append] at h
  have hs := run_sound (new_sound home epoch s) before
  have hi := run_issued home epoch s before
  have hopen := hs.isOpen w hw
  have hmem : w.id ∈ ((new home epoch s).run before).engine.table.handles.map (·.id) := by
    obtain ⟨k, hk, hko⟩ := List.any_eq_true.1 hopen
    rw [Bool.and_eq_true, beq_iff_eq] at hko
    exact List.mem_map.2 ⟨k, hk, hko.1⟩
  rw [hi.handles_eq, List.mem_reverse, List.mem_map] at hmem
  obtain ⟨i, hlt, hid⟩ := hmem
  rw [← hid]
  exact nthId_not_mem_issued hs hi.ids_eq (List.mem_range.1 hlt) h

theorem run_nextId (home : NodeId) (epoch : Epoch) (s : Settings) (es : List Event) :
    ((new home epoch s).run es).nextId = nthId home (creations es) := by
  rw [nextId, (run_issued home epoch s es).ids_eq]
  rfl

/-- A write that is created gets an identifier that was not issued before and is not issued again. -/
theorem nextId_not_mem_issued (home : NodeId) (epoch : Epoch) (s : Settings)
    {before after : List Event} (h : creations (before ++ e :: after) ≤ UInt64.size)
    (he : e.order?.isSome = true) :
    ((new home epoch s).run before).nextId ∉ (new home epoch s).issued before ∧
      ((new home epoch s).run before).nextId ∉
        (((new home epoch s).run before).step e).value.2.issued after := by
  have hi' := run_issued home epoch s (before ++ [e])
  have hs' := run_sound (new_sound home epoch s) (before ++ [e])
  rw [run_concat] at hi' hs'
  rw [creations_append, creations_cons, if_pos he] at h
  have hone : creations (before ++ [e]) = creations before + 1 := by
    rw [creations_append, creations_cons, if_pos he]
    rfl
  rw [run_nextId]
  constructor
  · intro hm
    obtain ⟨i, -, hi, hid⟩ := mem_issued (n := 0) (new_sound home epoch s) rfl hm
    have := nthId_inj (by omega) (by omega) hid
    omega
  · refine nthId_not_mem_issued hs' hi'.ids_eq ?_ ?_ <;> omega

end Coordinator
end BackupAcks
