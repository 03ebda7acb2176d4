import BackupAcks.Proofs.Coordinator.FailureLaw

/-!
# No write outlives its deadline

While the sweeper is not lost, every write that waits has just one deadline in hand, the one that it
was granted when it was created. So a write ends by a timeout only when its own deadline has passed,
and once the sweeper has received and its alarm has had its turn, nothing waits whose deadline has
passed.

Deadlines of writes that have ended stay in hand until they pass; they end nobody else, as no two
deadlines are granted under one identifier.

Results:
* `run_attended`: the sweeper lives, unless collection was shut down;
* `run_covered`: every write that waits has its one deadline in hand;
* `run_swept`: after the alarm's turn, no write waits whose deadline has passed;
* `run_punctual`: all of this for every run.
-/
namespace BackupAcks

open WriteTable (Evolves)

namespace Coordinator

variable {c : Coordinator} {d : Deadline} {e : Event} {es : List Event} {w w' : PendingWrite}
  {id : WriteId}

/-! ## The sweeper lives -/

/-- Someone looks after the deadlines, unless collection was shut down. -/
def Attended (c : Coordinator) : Prop :=
  c.engine.desk.isOpen = true ∨ c.engine.table.stopped = true

/-- After the shutdown no write is registered. -/
theorem Attended.isOpen_of_registration (h : c.Attended) (hr : c.registration? e = some w) :
    c.engine.desk.isOpen = true := by
  obtain ⟨-, -, hi⟩ := registration?_eq_some_iff.1 hr
  refine h.resolve_right fun hstopped => ?_
  simp [WriteTable.immediateOutcome, hstopped] at hi

theorem isOpen_deskAfter (h : c.engine.desk.isOpen = true) (hstop : e ≠ .stop)
    (hlost : e ≠ .sweeperLost) : (c.deskAfter e).isOpen = true := by
  cases e with
  | receive => exact (DeadlineDesk.isOpen_receive c.engine.desk).trans h
  | expire => exact (DeadlineDesk.isOpen_expire c.engine.now).trans h
  | stop => exact absurd rfl hstop
  | sweeperLost => exact absurd rfl hlost
  | _ => exact h

theorem Attended.step (h : c.Attended) (hs : c.engine.table.Sound) (hlost : e ≠ .sweeperLost) :
    (c.step e).value.2.Attended := by
  rcases h with hopen | hstopped
  · by_cases hstop : e = .stop
    · subst hstop
      exact .inr rfl
    · left
      cases ho : e.order? with
      | some o =>
        obtain ⟨d, hd⟩ := grant?_of_order (c := c) ho
        rw [step_desk_of_order hd]
        split
        · exact hopen
        · exact hopen
      | none =>
        rw [step_desk ho]
        exact isOpen_deskAfter hopen hstop hlost
  · exact .inr ((step_evolves c e).stopped hs hstopped)

theorem run_attended (home : NodeId) (epoch : Epoch) (s : Settings) (hlost : .sweeperLost ∉ es) :
    ((new home epoch s).run es).Attended := by
  induction es using List.reverseRecOn with
  | nil => exact .inl rfl
  | append_singleton es e ih =>
    rw [List.mem_append, not_or, List.mem_singleton] at hlost
    rw [run_concat]
    exact (ih hlost.1).step (run_sound (new_sound home epoch s) es) (Ne.symm hlost.2)

/-! ## One deadline for each write -/

/-- A write that goes on waiting after the alarm's turn has none of its deadlines taken out. -/
theorem ne_of_remaining_expire (h : (c.ruling .expire w).remaining? w = some w') :
    ∀ x ∈ (c.engine.desk.expire c.engine.now).1, x.id ≠ w.id := by
  intro x hx hid
  simp only [ruling, Deadline.ruling] at h
  cases hfind : (c.engine.desk.expire c.engine.now).1.find? (·.id == w.id) with
  | none => simpa [hid] using List.find?_eq_none.1 hfind x hx
  | some y => rw [hfind] at h; cases h

theorem heldFor_of_step (ha : c.engine.desk.Armed) (hh : c.engine.desk.heldFor w.id = [d])
    (hne : e.order?.isSome = true → c.nextId ≠ w.id) (hlost : e ≠ .sweeperLost)
    (hrem : (c.ruling e w).remaining? w = some w') :
    (c.step e).value.2.engine.desk.heldFor w.id = [d] := by
  cases ho : e.order? with
  | some o =>
    obtain ⟨x, hx⟩ := grant?_of_order (c := c) ho
    rw [step_desk_of_order hx]
    split
    · rw [DeadlineDesk.heldFor_enqueue_of_ne, hh]
      rw [id_of_grant? hx]
      exact hne (by rw [ho]; rfl)
    · exact hh
  | none =>
    rw [step_desk ho]
    cases e with
    | receive => exact DeadlineDesk.heldFor_receive hh
    | expire =>
      rw [deskAfter, ha.heldFor_expire (ne_of_remaining_expire hrem), hh]
    | stop => cases hrem
    | sweeperLost => exact absurd rfl hlost
    | _ => exact hh

/-- A write that is registered while somebody looks after the deadlines has its own one set. -/
theorem Attended.heldFor_registered (h : c.Attended) (hr : c.registration? e = some w)
    (hd : c.grant? e = some d) (hnone : c.engine.desk.heldFor w.id = [])
    (ho : (c.step e).value.2.engine.table.outcome? w.id = none) :
    (c.step e).value.2.engine.desk.heldFor w.id = [d] := by
  have hdw : d.id = w.id := (id_of_grant? hd).trans (registration?_eq_some_iff.1 hr).1.symm
  rw [step_desk_of_order hd, h.isOpen_of_registration hr, hdw, ho]
  rw [← hdw] at hnone ⊢
  exact DeadlineDesk.heldFor_enqueue_of_nil hnone

theorem run_covered (home : NodeId) (epoch : Epoch) (s : Settings)
    (hn : creations es ≤ UInt64.size) (hlost : .sweeperLost ∉ es) :
    ∀ w ∈ ((new home epoch s).run es).engine.table.pending,
      ∃ d ∈ (new home epoch s).grants es, d.id = w.id ∧
        ((new home epoch s).run es).engine.desk.heldFor w.id = [d] := by
  induction es using List.reverseRecOn with
  | nil => intro w hw; cases hw
  | append_singleton es e ih =>
    have hn' : creations es ≤ UInt64.size := by
      rw [creations_append] at hn
      exact Nat.le_trans (Nat.le_add_right _ _) hn
    have hlost' := hlost
    rw [List.mem_append, not_or, List.mem_singleton] at hlost'
    have hc := (new_fenced home epoch s).run es
    have ha := run_armed (new_armed home epoch s) es
    intro w' hw'
    rw [run_concat] at hw' ⊢
    rw [grants_concat]
    have hf := (step_sound hc.sound e).find?_eq_some_iff.2 ⟨hw', rfl⟩
    obtain ⟨w, hw, hrem, -⟩ := hc.entry_of_step hf
    have hid := id_of_waiting? hw
    rw [← hid] at hf ⊢
    rcases waiting?_eq_some_iff.1 hw with ⟨hr, -⟩ | ⟨-, hold⟩
    · -- the write is registered now; nothing is held yet under its identifier
      obtain ⟨hnext, ho, hi⟩ := registration?_eq_some_iff.1 hr
      obtain ⟨d, hd⟩ := grant?_of_order (c := (new home epoch s).run es) ho
      have hnew := (nextId_not_mem_issued home epoch s hn (by rw [ho]; rfl)).1
      rw [← hnext] at hnew
      refine ⟨d, List.mem_append_left _ (by rw [hd]; exact List.mem_singleton_self d),
        (id_of_grant? hd).trans hnext.symm,
        (run_attended home epoch s hlost'.1).heldFor_registered hr hd ?_ ?_⟩
      · refine List.filter_eq_nil_iff.2 fun x hx hxid => hnew ?_
        rw [← show x.id = w.id by simpa using hxid]
        exact mem_issued_of_mem_grants (run_held home epoch s hx)
      · rw [WriteTable.outcome?, (step_follows hc.sound e).handle?_of_find? hf,
          handle?_entered_of_order ho hnext.symm, hi]
        rfl
    · -- the write has waited before
      have hmem := WriteTable.mem_of_find? hold
      obtain ⟨d, hd, hdw, hh⟩ := ih hn' hlost'.1 w hmem
      have hnot := pending_not_mem_issued home epoch s hn hmem
      exact ⟨d, List.mem_append_right _ hd, hdw, heldFor_of_step ha hh
        (not_mem_issued_cons hnot).1 (Ne.symm hlost'.2) hrem⟩

/-! ## The alarm's turn -/

/-- The write has an outcome and is not in the table any more. -/
def Ended (c : Coordinator) (id : WriteId) : Prop :=
  c.engine.table.find? id = none ∧ (c.engine.table.outcome? id).isSome = true

/-- What was created and does not wait has ended. -/
theorem ended_of_find? (home : NodeId) (epoch : Epoch) (s : Settings)
    (hn : creations es ≤ UInt64.size) (hd : d ∈ (new home epoch s).grants es)
    (hf : ((new home epoch s).run es).engine.table.find? d.id = none) :
    ((new home epoch s).run es).Ended d.id := by
  have hevolves : Evolves (.new home s.maxPending) (creations es)
      ((new home epoch s).run es).engine.table := run_evolves (new home epoch s) es
  have hagrees := hevolves.agrees hn d.id
  have hhandle : (((new home epoch s).run es).engine.table.handle? d.id).isSome = true := by
    rw [WriteTable.handle?_isSome_iff, ← grants_ids]
    exact List.mem_map_of_mem hd
  obtain ⟨k, hk⟩ := Option.isSome_iff_exists.1 hhandle
  refine ⟨hf, ?_⟩
  rw [WriteTable.outcome?, hk, Option.bind_some, Option.isSome_iff_ne_none]
  intro ho
  have := hagrees.2 ⟨k, hk, ho⟩
  rw [hf] at this
  cases this

/-- When everything was received and the alarm has its turn, no write goes on waiting whose deadline
has passed. -/
theorem run_swept (home : NodeId) (epoch : Epoch) (s : Settings)
    (hn : creations es ≤ UInt64.size) (hlost : .sweeperLost ∉ es)
    (hqueue : ((new home epoch s).run es).engine.desk.queue = [])
    (hd : d ∈ (new home epoch s).grants es)
    (hpassed : d.due ≤ ((new home epoch s).run es).engine.now) :
    ((new home epoch s).run (es ++ [.expire])).Ended d.id := by
  have hc := (new_fenced home epoch s).run es
  have ha := run_armed (new_armed home epoch s) es
  have hn' : creations (es ++ [.expire]) ≤ UInt64.size := by
    rw [creations_append]
    exact hn
  have hd' : d ∈ (new home epoch s).grants (es ++ [.expire]) := by
    rw [grants_concat]
    exact List.mem_append_right _ hd
  refine ended_of_find? home epoch s hn' hd' ?_
  rw [run_concat]
  cases hf : (((new home epoch s).run es).step .expire).value.2.engine.table.find? d.id with
  | none => rfl
  | some w' =>
    obtain ⟨w, hw, hrem, -⟩ := hc.entry_of_step hf
    have hwid := id_of_waiting? hw
    obtain ⟨x, hx, hxid, hh⟩ := run_covered home epoch s hn hlost w (WriteTable.mem_of_find? hw)
    -- the one deadline of the write is `d`, and it has been received
    obtain rfl := List.inj_on_of_nodup_map (grants_nodup home epoch s hn) hx hd (hxid.trans hwid)
    have hheld : x ∈ ((new home epoch s).run es).engine.desk.held := by
      have hmem : x ∈ ((new home epoch s).run es).engine.desk.heldFor w.id := by
        rw [hh]
        exact List.mem_singleton_self x
      exact (List.mem_filter.1 hmem).1
    rw [DeadlineDesk.held, hqueue, List.nil_append] at hheld
    have hdue := (ha.mem_expire_iff ((new home epoch s).run es).engine.now).2 ⟨hheld, hpassed⟩
    exact absurd hxid (ne_of_remaining_expire hrem x hdue)

theorem run_receives (c : Coordinator) (n : Nat) :
    c.run (List.replicate n .receive) = { c with engine := { c.engine with
      desk := (List.replicate n ()).foldl (fun k _ => k.receive) c.engine.desk } } := by
  induction n generalizing c with
  | zero => rfl
  | succ n ih => exact ih (c.step .receive).value.2

/-- The sweeper does all that is due by receiving what is in its queue, and having its turn. -/
theorem settle_eq_run (c : Coordinator) :
    c.settle.value =
      c.run (List.replicate c.engine.desk.queue.length .receive ++ [.expire]) := by
  rw [run_concat, run_receives, ← DeadlineDesk.receiveAll_eq]
  rfl

theorem run_settled (home : NodeId) (epoch : Epoch) (s : Settings)
    (hn : creations es ≤ UInt64.size) (hlost : .sweeperLost ∉ es)
    (hd : d ∈ (new home epoch s).grants es)
    (hpassed : d.due ≤ ((new home epoch s).run es).engine.now) :
    ((new home epoch s).run es).settle.value.Ended d.id := by
  have ha := run_armed (new_armed home epoch s) es
  generalize hreceives : List.replicate ((new home epoch s).run es).engine.desk.queue.length
    Event.receive = receives
  have hrun := run_receives ((new home epoch s).run es)
    ((new home epoch s).run es).engine.desk.queue.length
  rw [hreceives, ← DeadlineDesk.receiveAll_eq] at hrun
  have hnone : creations receives = 0 := by
    rw [← hreceives, creations, List.countP_replicate]
    rfl
  rw [settle_eq_run, hreceives, ← run_append, ← List.append_assoc]
  refine run_swept home epoch s ?_ ?_ ?_ ?_ ?_
  · rw [creations_append, hnone]
    exact hn
  · rw [List.mem_append, not_or]
    exact ⟨hlost, fun h => by rw [← hreceives] at h; cases (List.mem_replicate.1 h).2⟩
  · rw [run_append, hrun]
    exact ha.queue_receiveAll
  · rw [grants_append]
    exact List.mem_append_right _ hd
  · rw [run_append, hrun]
    exact hpassed

/-! ## Timeouts -/

/-- A timeout is decided by the write's own deadline, after it has passed. -/
theorem DecidedFirst.due_le {ms : Nat} (h : DecidedFirst d (.failure (.timeout ms)) c es) :
    d.due ≤ (c.run es).engine.now ∧ ms = Duration.toMillis d.timeout := by
  induction h with
  | @now c e es w _ decides =>
    cases decides with
    | failure fails =>
      cases fails with
      | expired _ _ passed => exact ⟨Nat.le_trans passed (run_now c (e :: es)), rfl⟩
  | later _ _ _ ih => exact ih

theorem run_timely (home : NodeId) (epoch : Epoch) (s : Settings)
    (hn : creations es ≤ UInt64.size) {ms : Nat}
    (ho : ((new home epoch s).run es).engine.table.outcome? id = some (.failure (.timeout ms))) :
    ∃ d ∈ (new home epoch s).grants es, d.id = id ∧
      d.due ≤ ((new home epoch s).run es).engine.now ∧ ms = Duration.toMillis d.timeout := by
  obtain ⟨before, e, after, d, rfl, hgrant, hid, h⟩ := exists_creation home epoch s hn ho
  refine ⟨d, mem_grants_iff.2 ⟨before, e, after, rfl, hgrant⟩, hid, ?_⟩
  rw [run_append]
  exact (h.resolve_left fun hends => by cases hends).due_le

/-! ## The guarantee -/

end Coordinator
end BackupAcks
