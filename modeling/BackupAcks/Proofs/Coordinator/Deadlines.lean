import BackupAcks.Proofs.Coordinator.Identifiers
import BackupAcks.Proofs.Deadline.Desk
import Mathlib.Data.List.Induction

/-!
# The deadlines of a run

Every write that is created is granted a deadline, but only one that has to wait and finds the
sweeper alive has it set. From then on it is held until the alarm takes it out or the sweeper ends.

Results:
* `grants_ids`: deadlines are granted in the order of creation, one for each write;
* `step_desk`, `step_desk_of_order`: what an event does to the deadlines in hand;
* `run_held`: whatever is held was granted.
-/
namespace BackupAcks

namespace Coordinator

open WriteTable (Issued)

/-- The deadlines that are granted in a run, the newest first. -/
def grants (c : Coordinator) : List Event → List Deadline
  | [] => []
  | e :: es => grants (c.step e).value.2 es ++ (c.grant? e).toList

variable {c : Coordinator} {e : Event} {es : List Event} {d : Deadline} {id : WriteId}

/-! ## Granting -/

theorem grants_append (c : Coordinator) (es fs : List Event) :
    c.grants (es ++ fs) = (c.run es).grants fs ++ c.grants es := by
  induction es generalizing c with
  | nil => simp [grants, run]
  | cons x es ih =>
    rw [List.cons_append, grants, ih, grants, run_cons, List.append_assoc]

theorem grants_concat (c : Coordinator) (es : List Event) (e : Event) :
    c.grants (es ++ [e]) = ((c.run es).grant? e).toList ++ c.grants es :=
  grants_append c es [e]

theorem isSome_grant? (c : Coordinator) (e : Event) : (c.grant? e).isSome = e.order?.isSome := by
  cases e <;> rfl

theorem id_of_grant? (h : c.grant? e = some d) : d.id = c.nextId := by
  obtain ⟨time, -, rfl⟩ := Option.map_eq_some_iff.1 h
  rfl

theorem order?_of_grant? (h : c.grant? e = some d) : ∃ o, e.order? = some o := by
  rw [← Option.isSome_iff_exists, ← isSome_grant? c, h]
  rfl

theorem grant?_of_order {o : Requirement × Epoch} (h : e.order? = some o) :
    ∃ d, c.grant? e = some d := by
  rw [← Option.isSome_iff_exists, isSome_grant?, h]
  rfl

theorem mem_issued_of_mem_grants (h : d ∈ c.grants es) : d.id ∈ c.issued es := by
  induction es generalizing c with
  | nil => cases h
  | cons e es ih =>
    rw [issued]
    rcases List.mem_append.1 h with h | h
    · split
      · exact List.mem_cons_of_mem _ (ih h)
      · exact ih h
    · have hd := Option.mem_toList.1 h
      rw [if_pos (by rw [← isSome_grant? c, hd]; rfl), id_of_grant? hd]
      exact List.mem_cons_self

theorem mem_grants_iff : d ∈ c.grants es ↔
    ∃ before e after, es = before ++ e :: after ∧ (c.run before).grant? e = some d := by
  induction es generalizing c with
  | nil => simp [grants]
  | cons x es ih =>
    rw [grants, List.mem_append, Option.mem_toList, ih]
    constructor
    · intro h
      rcases h with ⟨before, e, after, rfl, hd⟩ | hd
      · exact ⟨x :: before, e, after, rfl, hd⟩
      · exact ⟨[], x, es, rfl, hd⟩
    · intro h
      obtain ⟨before, e, after, hes, hd⟩ := h
      cases before with
      | nil =>
        cases hes
        exact .inr hd
      | cons y before =>
        cases hes
        exact .inl ⟨before, e, after, rfl, hd⟩

theorem grants_ids (home : NodeId) (epoch : Epoch) (s : Settings) (es : List Event) :
    ((new home epoch s).grants es).map (·.id) =
      ((new home epoch s).run es).engine.table.handles.map (·.id) := by
  rw [(run_issued home epoch s es).handles_eq]
  induction es using List.reverseRecOn with
  | nil => rfl
  | append_singleton es e ih =>
    rw [grants_concat, List.map_append, ih, creations_append, creations_cons]
    cases hd : ((new home epoch s).run es).grant? e with
    | none =>
      rw [← isSome_grant? ((new home epoch s).run es), hd]
      rfl
    | some d =>
      rw [← isSome_grant? ((new home epoch s).run es), hd, Option.isSome_some, if_pos rfl]
      change d.id :: _ = ((List.range (creations es + 1)).map _).reverse
      rw [List.range_succ, List.map_append, List.reverse_append, id_of_grant? hd,
        run_nextId]
      rfl

/-- Until identifiers repeat, every write is granted one deadline. -/
theorem grants_nodup (home : NodeId) (epoch : Epoch) (s : Settings)
    (h : creations es ≤ UInt64.size) : (((new home epoch s).grants es).map (·.id)).Nodup := by
  rw [grants_ids]
  exact (run_issued home epoch s es).nodup h

/-! ## One event -/

theorem armDeadline_desk (id : WriteId) (timeout : Duration) (en : Engine) :
    (armDeadline id timeout en).value.desk =
      if en.desk.isOpen && ((armDeadline id timeout en).value.table.outcome? id).isNone then
        en.desk.enqueue ⟨en.now + min timeout maxTimeout, id, min timeout maxTimeout⟩
      else en.desk := by
  unfold armDeadline
  cases ho : en.table.outcome? id with
  | some o => simp [ho]
  | none =>
    simp only [Option.isSome_none, Bool.false_eq_true, if_false, Engine.schedule,
      DeadlineDesk.schedule_eq]
    cases hopen : en.desk.isOpen with
    | true => simp [ho]
    | false => rfl

/-- The deadline of a new write is set if the sweeper lives and the write still waits. -/
theorem step_desk_of_order (hd : c.grant? e = some d) :
    (c.step e).value.2.engine.desk =
      if c.engine.desk.isOpen && ((c.step e).value.2.engine.table.outcome? d.id).isNone then
        c.engine.desk.enqueue d
      else c.engine.desk := by
  obtain ⟨o, ho⟩ := order?_of_grant? hd
  obtain ⟨timeout, hstep, hgrant⟩ := step_of_order (c := c) ho
  rw [hd] at hgrant
  cases hgrant
  rw [hstep, enroll_engine]
  exact armDeadline_desk c.nextId timeout _

/-- What the desk becomes by an event that creates no write. -/
def deskAfter (c : Coordinator) : Event → DeadlineDesk
  | .receive => c.engine.desk.receive
  | .expire => (c.engine.desk.expire c.engine.now).2
  | .stop | .sweeperLost => c.engine.desk.close
  | _ => c.engine.desk

theorem step_desk (ho : e.order? = none) : (c.step e).value.2.engine.desk = c.deskAfter e := by
  cases e with
  | create | createWithTimeout | createSegmented => cases ho
  | bytes sender bytes =>
    simp only [step, quiet, deliverBytes]
    cases Reply.decode bytes <;> rfl
  | activate v =>
    simp only [step, activate, onEngine, Engine.activate, ActiveView.activate, deskAfter]
    split <;> rfl
  | _ => rfl

theorem armDeadline_now (id : WriteId) (timeout : Duration) (en : Engine) :
    (armDeadline id timeout en).value.now = en.now := by
  simp only [armDeadline, Engine.schedule, DeadlineDesk.schedule]
  split
  · rfl
  · cases en.desk.sweeper <;> rfl

/-- The clock does not go back. -/
theorem step_now (c : Coordinator) (e : Event) : c.engine.now ≤ (c.step e).value.2.engine.now := by
  cases e using Event.byKind c with
  | order e o ho =>
    obtain ⟨timeout, hstep, -⟩ := step_of_order (c := c) ho
    rw [hstep, enroll_engine, armDeadline_now]
    exact Nat.le_refl _
  | reply e x hr => exact Nat.le_of_eq (by rw [step_of_reply hr])
  | unread sender bytes hr => exact Nat.le_of_eq (by rw [step_of_unread hr])
  | activate v =>
    simp only [step, activate, onEngine, Engine.activate, ActiveView.activate]
    split <;> exact Nat.le_refl _
  | advance d => exact Nat.le_add_right _ d
  | restrict | stop | sweeperLost | receive | expire => exact Nat.le_refl _

theorem run_now (c : Coordinator) (es : List Event) :
    c.engine.now ≤ (c.run es).engine.now := by
  induction es generalizing c with
  | nil => exact Nat.le_refl _
  | cons e es ih => exact Nat.le_trans (step_now c e) (ih (c.step e).value.2)

theorem deskAfter_armed (h : c.engine.desk.Armed) (e : Event) : (c.deskAfter e).Armed := by
  cases e with
  | receive => exact h.receive
  | expire => exact h.expire c.engine.now
  | stop | sweeperLost => exact .close c.engine.desk
  | _ => exact h

theorem step_armed (h : c.engine.desk.Armed) (e : Event) :
    (c.step e).value.2.engine.desk.Armed := by
  cases ho : e.order? with
  | some o =>
    obtain ⟨d, hd⟩ := grant?_of_order (c := c) ho
    rw [step_desk_of_order hd]
    split
    · rename_i hopen
      exact h.enqueue (Bool.and_eq_true_iff.1 hopen).1 d
    · exact h
  | none =>
    rw [step_desk ho]
    exact deskAfter_armed h e

theorem mem_held_of_deskAfter (h : c.engine.desk.Armed) (hd : d ∈ (c.deskAfter e).held) :
    d ∈ c.engine.desk.held := by
  cases e with
  | receive => exact DeadlineDesk.mem_held_of_receive hd
  | expire => exact h.mem_held_of_expire c.engine.now hd
  | stop | sweeperLost => cases hd
  | _ => exact hd

/-- What is held after an event was held before, or the event has granted it. -/
theorem held_of_step (h : c.engine.desk.Armed) (hd : d ∈ (c.step e).value.2.engine.desk.held) :
    d ∈ c.engine.desk.held ∨ c.grant? e = some d := by
  cases ho : e.order? with
  | some o =>
    obtain ⟨x, hx⟩ := grant?_of_order (c := c) ho
    rw [step_desk_of_order hx] at hd
    split at hd
    · rcases DeadlineDesk.mem_held_enqueue.1 hd with hd | rfl
      · exact .inl hd
      · exact .inr hx
    · exact .inl hd
  | none =>
    rw [step_desk ho] at hd
    exact .inl (mem_held_of_deskAfter h hd)

/-! ## Runs -/

theorem run_armed (h : c.engine.desk.Armed) (es : List Event) :
    (c.run es).engine.desk.Armed := by
  induction es generalizing c with
  | nil => exact h
  | cons e es ih => exact ih (step_armed h e)

theorem new_armed (home : NodeId) (epoch : Epoch) (s : Settings) :
    (new home epoch s).engine.desk.Armed :=
  DeadlineDesk.Armed.new

/-- What is held after a run was held before, or was granted in the run. -/
theorem held_of_run (h : c.engine.desk.Armed) (hd : d ∈ (c.run es).engine.desk.held) :
    d ∈ c.engine.desk.held ∨ d ∈ c.grants es := by
  induction es generalizing c with
  | nil => exact .inl hd
  | cons e es ih =>
    rw [grants, List.mem_append, Option.mem_toList]
    rcases ih (step_armed h e) hd with hd | hd
    · exact (held_of_step h hd).imp_right .inr
    · exact .inr (.inl hd)

theorem run_held (home : NodeId) (epoch : Epoch) (s : Settings)
    (hd : d ∈ ((new home epoch s).run es).engine.desk.held) : d ∈ (new home epoch s).grants es :=
  (held_of_run (new_armed home epoch s) hd).resolve_left (List.not_mem_nil)

end Coordinator
end BackupAcks
