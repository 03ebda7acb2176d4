import BackupAcks.Proofs.Coordinator.EpochFence
import BackupAcks.Proofs.Coordinator.Identifiers
import BackupAcks.Proofs.Table.Ledger

/-!
# Every outcome is counted once

Writes end in five ways: by a reply, by being finished, by catching up, by an activation or a change
of membership, and by shutting down. All but the first report what they end. The reports are true of
each operation (`Truthful`), and they add up over a run (`Balanced`): each write that was admitted
waits, or was ended by one reply, or was counted in one report.

The events of a coordinator are operations of its parts (`work`), so its books balance as well.

Results:
* `truthful_of_evolves`: an operation reports just the writes that it ends;
* `balance_acts`, `balanced_of_new`: the books of a run of the parts;
* `acts_work`: a coordinator does what the operations of its events do;
* `outcomes_countedOnce`: reports are true and add up, for the parts and for a coordinator.
-/
namespace BackupAcks

namespace Engine

open WriteTable (Evolves)
open scoped List

/-! ## Reports -/

/-- What an operation reports of the writes that it ends: whether it ended the one it names, or how
many it ended. -/
inductive Report where
  | silent
  | flag (ended : Bool)
  | count (n : Nat)

/-- The number of writes in a report. -/
def Report.total : Report → Nat
  | .silent => 0
  | .flag ended => ended.toNat
  | .count n => n

/-- What an operation reports. -/
def report (e : Engine) : Op → Report
  | .finish id o => .flag (e.onTable (·.finish id o)).value.1
  | .catchUp id epoch => .flag (e.catchUp id epoch).value.1
  | .activate v => .count (e.activate v).value.1
  | .restrict members => .count (e.onTable (·.restrict members)).value.1
  | .stop => .count e.stopTable.1
  | _ => .silent

def Op.isReply : Op → Bool
  | .ack .. | .segmentAck .. | .error .. => true
  | _ => false

/-- The writes that an operation ends. -/
def endedBy (e : Engine) (op : Op) : List WriteId := e.table.ended (e.act op).table

/-- The write that an operation admits, if it does: the one it creates, if that has to wait. -/
def admittedBy (e : Engine) (op : Op) : List WriteId := e.table.admitted (e.act op).table

/-- The operations report just the writes that they end. -/
structure Truthful (e : Engine) : Prop where
  activate : ∀ v, (e.activate v).value.1 = (e.endedBy (.activate v)).length
  restrict : ∀ members,
    (e.onTable (·.restrict members)).value.1 = (e.endedBy (.restrict members)).length
  stop : e.stopTable.1 = (e.endedBy .stop).length
  finish : ∀ id o,
    e.endedBy (.finish id o) = if (e.onTable (·.finish id o)).value.1 then [id] else []
  catchUp : ∀ id epoch,
    e.endedBy (.catchUp id epoch) = if (e.catchUp id epoch).value.1 then [id] else []

variable {e : Engine} {home : NodeId} {capacity n : Nat}

section Evolved

variable (h : Evolves (.new home capacity) n e.table) (hn : n ≤ UInt64.size)

include h hn

theorem ended_self : e.table.ended e.table = [] := by
  refine List.eq_nil_iff_forall_not_mem.2 fun id hid => ?_
  obtain ⟨hu, ho⟩ := (h.mem_ended hn).1 hid
  obtain ⟨o, ho⟩ := Option.isSome_iff_exists.1 ho
  exact WriteTable.not_unresolved_of_settled ho hu

theorem truthful_of_evolves : e.Truthful := by
  refine ⟨fun v => ?_, fun members => ?_, h.stop_fst hn, fun id o => ?_, fun id epoch => ?_⟩
  · simp only [endedBy, act, Engine.activate, ActiveView.activate, Logged.value_bind,
      Logged.value_pure]
    split
    · exact (congrArg List.length (ended_self h hn)).symm
    · exact h.length_sweep hn _
  · exact h.length_sweep hn _
  · exact h.ended_apply hn (PendingWrite.lawful_settled o) .forcedCompletion id
  · simp only [endedBy, act, Engine.catchUp, onTable, ActiveView.catchUp, Logged.value_bind,
      Logged.value_pure]
    split
    · exact ended_self h hn
    · cases e.view.latest with
      | none => exact ended_self h hn
      | some v => exact h.ended_apply hn (PendingWrite.lawful_adopt e.view.home v) .catchUp id

/-- What an operation ends it reports, unless it is a reply. -/
theorem length_endedBy {op : Op} (hop : op.isCreation = true → n < UInt64.size) :
    (e.endedBy op).length =
      (e.report op).total + (if op.isReply then e.endedBy op else []).length := by
  have ht := truthful_of_evolves h hn
  have hflag : ∀ (id : WriteId) (b : Bool), (if b then [id] else []).length = b.toNat := by
    intro id b
    cases b <;> rfl
  cases op with
  | create owners segment epoch =>
    exact congrArg List.length (h.ended_register hn (.single segment owners) epoch (hop rfl))
  | createSegmented owners epoch =>
    exact congrArg List.length (h.ended_register hn (.ofSegments owners) epoch (hop rfl))
  | ack id sender epoch => exact (Nat.zero_add _).symm
  | segmentAck id sender epoch segment => exact (Nat.zero_add _).symm
  | error id sender epoch cause => exact (Nat.zero_add _).symm
  | finish id o => exact (congrArg List.length (ht.finish id o)).trans (hflag id _)
  | activate v => exact (ht.activate v).symm
  | restrict members => exact (ht.restrict members).symm
  | catchUp id epoch => exact (congrArg List.length (ht.catchUp id epoch)).trans (hflag id _)
  | stop => exact ht.stop.symm

end Evolved

/-! ## The books of a run -/

def admissions (e : Engine) : List Op → List WriteId
  | [] => []
  | op :: ops => e.admittedBy op ++ admissions (e.act op) ops

/-- The writes that the operations of a run end. -/
def endings (e : Engine) : List Op → List WriteId
  | [] => []
  | op :: ops => e.endedBy op ++ endings (e.act op) ops

/-- The writes that are ended by the replies in a run. -/
def answered (e : Engine) : List Op → List WriteId
  | [] => []
  | op :: ops => (if op.isReply then e.endedBy op else []) ++ answered (e.act op) ops

/-- All that is reported in a run, added up. -/
def reported (e : Engine) : List Op → Nat
  | [] => 0
  | op :: ops => (e.report op).total + reported (e.act op) ops

/-- The books of a run of fresh parts are balanced. -/
structure Balanced (e : Engine) (ops : List Op) : Prop where
  /-- What was admitted has ended or waits. -/
  perm : (e.admissions ops).Perm (e.endings ops ++ (e.acts ops).table.pendingIds)
  /-- No write is admitted twice, so that none ends twice and none that ended waits. -/
  nodup : (e.admissions ops).Nodup
  /-- A write that ends is reported or ends by a reply. -/
  endings_eq : (e.endings ops).length = e.reported ops + (e.answered ops).length
  total : (e.admissions ops).length =
    (e.acts ops).table.size + e.reported ops + (e.answered ops).length

theorem creations_cons (op : Op) (ops : List Op) :
    creations (op :: ops) = (if op.isCreation then 1 else 0) + creations ops := by
  rw [creations, List.countP_cons, Nat.add_comm]
  rfl

section Evolved

variable {ops : List Op}

/-- What a run admits was not issued before it. -/
theorem handle?_of_mem_admissions (h : Evolves (.new home capacity) n e.table)
    (hn : n + creations ops ≤ UInt64.size) {id : WriteId} (hid : id ∈ e.admissions ops) :
    e.table.handle? id = none := by
  induction ops generalizing e n with
  | nil => cases hid
  | cons op ops ih =>
    rw [creations_cons] at hn
    have hstep := e.act_evolves op
    rcases List.mem_append.1 hid with hid | hid
    · exact ((h.mem_admitted hstep (by omega)).1 hid).2
    · have hnone := ih (h.trans hstep) (by omega) hid
      rw [← Option.not_isSome_iff_eq_none]
      intro hsome
      rw [Option.eq_none_iff_forall_ne_some] at hnone
      obtain ⟨k, hk⟩ := Option.isSome_iff_exists.1
        (h.handle?_isSome_of_before hstep (by omega) hsome)
      exact hnone k hk

theorem nodup_admissions (h : Evolves (.new home capacity) n e.table)
    (hn : n + creations ops ≤ UInt64.size) : (e.admissions ops).Nodup := by
  induction ops generalizing e n with
  | nil => exact .nil
  | cons op ops ih =>
    rw [creations_cons] at hn
    have hstep := e.act_evolves op
    have hbalance := h.balance hstep (by omega)
    refine List.Nodup.append hbalance.2.of_append_left (ih (h.trans hstep) (by omega)) ?_
    intro id hid hlater
    have hnone := handle?_of_mem_admissions (h.trans hstep) (by omega) hlater
    have hsome := WriteTable.handle?_isSome_of_unresolved
      ((h.mem_admitted hstep (by omega)).1 hid).1
    rw [hnone] at hsome
    cases hsome

/-- What was open or is admitted in a run has ended or is open after it. -/
theorem balance_acts (h : Evolves (.new home capacity) n e.table)
    (hn : n + creations ops ≤ UInt64.size) :
    (e.admissions ops ++ e.table.openIds).Perm (e.endings ops ++ (e.acts ops).table.openIds) := by
  induction ops generalizing e n with
  | nil => exact .refl _
  | cons op ops ih =>
    rw [creations_cons] at hn
    have hstep := e.act_evolves op
    have hop := (h.balance hstep (by omega)).1
    have hrest := ih (h.trans hstep) (by omega)
    calc e.admittedBy op ++ (e.act op).admissions ops ++ e.table.openIds
        = e.admittedBy op ++ ((e.act op).admissions ops ++ e.table.openIds) :=
          List.append_assoc _ _ _
      _ ~ (e.act op).admissions ops ++ (e.admittedBy op ++ e.table.openIds) :=
          List.perm_append_comm_assoc _ _ _
      _ ~ (e.act op).admissions ops ++ (e.endedBy op ++ (e.act op).table.openIds) :=
          hop.append_left _
      _ ~ e.endedBy op ++ ((e.act op).admissions ops ++ (e.act op).table.openIds) :=
          List.perm_append_comm_assoc _ _ _
      _ ~ e.endedBy op ++ ((e.act op).endings ops ++ ((e.act op).acts ops).table.openIds) :=
          hrest.append_left _
      _ = e.endedBy op ++ (e.act op).endings ops ++ ((e.act op).acts ops).table.openIds :=
          (List.append_assoc _ _ _).symm

theorem length_endings (h : Evolves (.new home capacity) n e.table)
    (hn : n + creations ops ≤ UInt64.size) :
    (e.endings ops).length = e.reported ops + (e.answered ops).length := by
  induction ops generalizing e n with
  | nil => rfl
  | cons op ops ih =>
    rw [creations_cons] at hn
    have hop : (e.endedBy op).length =
        (e.report op).total + (if op.isReply then e.endedBy op else []).length :=
      length_endedBy h (by omega) fun hc => by rw [if_pos hc] at hn; omega
    have hrest := ih (h.trans (e.act_evolves op)) (by omega)
    rw [endings, reported, answered, List.length_append, List.length_append]
    omega

end Evolved

theorem balanced_of_new (home follower : NodeId) (epoch : Epoch) (capacity : Nat) {ops : List Op}
    (hn : creations ops ≤ UInt64.size) : (new home follower epoch capacity).Balanced ops := by
  have hstart : Evolves (.new home capacity) 0 (new home follower epoch capacity).table := .refl
  have hlt : 0 + creations ops ≤ UInt64.size := by rwa [Nat.zero_add]
  have hend : Evolves (.new home capacity) (creations ops)
      ((new home follower epoch capacity).acts ops).table :=
    acts_evolves (new home follower epoch capacity) ops
  have hperm := balance_acts hstart hlt
  rw [show (new home follower epoch capacity).table.openIds = [] from rfl, List.append_nil] at hperm
  have hends := length_endings hstart hlt
  refine ⟨hperm.trans ((hend.openIds_perm hn).append_left _), nodup_admissions hstart hlt, hends, ?_⟩
  rw [hperm.length_eq, List.length_append, hends, hend.length_openIds hn]
  omega

/-! ## Clock and deadlines are no part of the books -/

/-- The same table, and the same assignment in force. -/
structure Matches (e e' : Engine) : Prop where
  table_eq : e.table = e'.table
  view_eq : e.view = e'.view

theorem Matches.refl (e : Engine) : e.Matches e := ⟨rfl, rfl⟩

theorem Matches.act {e e' : Engine} (h : e.Matches e') (op : Op) :
    (e.act op).Matches (e'.act op) := by
  obtain ⟨t, a, desk, now⟩ := e
  obtain ⟨t', a', desk', now'⟩ := e'
  obtain ⟨rfl, rfl⟩ := h
  cases op <;> exact ⟨rfl, rfl⟩

theorem Matches.acts {e e' : Engine} (h : e.Matches e') (ops : List Op) :
    (e.acts ops).Matches (e'.acts ops) := by
  induction ops generalizing e e' with
  | nil => exact h
  | cons op ops ih => exact ih (h.act op)

end Engine

/-- The operation that takes in a reply of `sender`. -/
def Reply.op (sender : NodeId) : Reply → Engine.Op
  | .ack id epoch => .ack id sender epoch
  | .segmentAck id epoch segment => .segmentAck id sender epoch segment
  | .errorAck id epoch cause => .error id sender epoch cause

namespace Coordinator

open Engine (Op Matches)
open WriteTable (Evolves)

/-! ## The operations of an event -/

/-- What is done with a new write before its deadline is set. -/
def enrolment (c : Coordinator) (create : Op) (epoch : Epoch) : List Op :=
  [create, .catchUp c.nextId epoch]

/-- What setting the deadline of a write takes: nothing, unless it waits and nobody listens for
deadlines. -/
def refusal (id : WriteId) (en : Engine) : List Op :=
  if en.desk.isOpen || (en.table.outcome? id).isSome then []
  else [.finish id (.failure .stopping)]

/-- The operations by which a write is enrolled. -/
def enrolTasks (c : Coordinator) (create : Op) (epoch : Epoch) : List Op :=
  c.enrolment create epoch ++ refusal c.nextId (c.engine.acts (c.enrolment create epoch))

/-- The operations of an event. -/
def tasks (c : Coordinator) : Event → List Op
  | .create owners segment epoch | .createWithTimeout owners segment epoch _ =>
    c.enrolTasks (.create owners segment epoch) epoch
  | .createSegmented owners epoch => c.enrolTasks (.createSegmented owners epoch) epoch
  | .activate v => [.activate v]
  | .restrict members => [.restrict members]
  | .stop => [.stop]
  | .expire => (c.engine.desk.expire c.engine.now).1.map fun d =>
      .finish d.id (.failure (.timeout (Duration.toMillis d.timeout)))
  | e => ((c.reply? e).map fun x => x.2.op x.1).toList

def work (c : Coordinator) : List Event → List Op
  | [] => []
  | e :: es => c.tasks e ++ work (c.step e).value.2 es

variable {c : Coordinator}

theorem armDeadline_matches (id : WriteId) (timeout : Duration) (en : Engine) :
    (en.acts (refusal id en)).Matches (armDeadline id timeout en).value := by
  unfold refusal armDeadline
  cases ho : (en.table.outcome? id).isSome with
  | true =>
    simp only [Bool.or_true, if_true]
    exact .refl en
  | false =>
    cases hs : en.desk.sweeper with
    | none =>
      simp only [DeadlineDesk.isOpen, Engine.schedule, DeadlineDesk.schedule, hs]
      exact .refl _
    | some sweeper =>
      simp only [DeadlineDesk.isOpen, Engine.schedule, DeadlineDesk.schedule, hs]
      exact ⟨rfl, rfl⟩

theorem timeOut_matches (due : List Deadline) (en : Engine) :
    (en.acts (due.map fun d => .finish d.id (.failure (.timeout (Duration.toMillis d.timeout))))).Matches
      { en with table := (Engine.timeOut due en.table).value } := by
  induction due generalizing en with
  | nil => exact .refl en
  | cons d due ih =>
    rw [Engine.timeOut_cons]
    exact ih _

theorem acts_tasks (c : Coordinator) (e : Event) :
    (c.engine.acts (c.tasks e)).Matches (c.step e).value.2.engine := by
  have henrol : ∀ create r epoch timeout,
      c.engine.act create = (c.engine.register r epoch).value.2 →
      (c.engine.acts (c.enrolTasks create epoch)).Matches
        (c.enroll r epoch timeout).value.2.engine := by
    intro create r epoch timeout hcreate
    have hbefore : c.engine.acts (c.enrolment create epoch) =
        ((c.engine.register r epoch).value.2.catchUp c.nextId epoch).value.2 := by
      rw [← hcreate]
      rfl
    rw [enrolTasks, Engine.acts, List.foldl_append, enroll_engine, ← hbefore]
    exact armDeadline_matches _ _ _
  cases e using Event.byKind c with
  | order e o ho =>
    obtain ⟨timeout, hstep, -⟩ := step_of_order (c := c) ho
    rw [hstep]
    cases e <;> cases ho <;> exact henrol _ _ _ timeout rfl
  | reply e x hr =>
    have htasks : c.tasks e = [x.2.op x.1] := by
      cases e <;> first | (simp only [tasks, hr]; rfl) | cases hr
    rw [htasks, step_of_reply hr]
    obtain ⟨sender, r⟩ := x
    cases r <;> exact ⟨rfl, rfl⟩
  | unread sender data hr =>
    rw [step_of_unread hr]
    simp only [tasks, hr]
    exact .refl c.engine
  | activate v => exact ⟨rfl, rfl⟩
  | restrict members => exact ⟨rfl, rfl⟩
  | stop => exact ⟨rfl, rfl⟩
  | expire =>
    have h := timeOut_matches (c.engine.desk.expire c.engine.now).1 c.engine
    exact ⟨h.table_eq, h.view_eq⟩
  | sweeperLost => exact ⟨rfl, rfl⟩
  | advance d => exact ⟨rfl, rfl⟩
  | receive => exact ⟨rfl, rfl⟩

theorem acts_work (c : Coordinator) (es : List Event) :
    (c.engine.acts (c.work es)).Matches (c.run es).engine := by
  induction es generalizing c with
  | nil => exact .refl c.engine
  | cons e es ih =>
    have hstep := (acts_tasks c e).acts ((c.step e).value.2.work es)
    have hrest := ih (c.step e).value.2
    rw [work, Engine.acts, List.foldl_append, run_cons]
    exact ⟨hstep.table_eq.trans hrest.table_eq, hstep.view_eq.trans hrest.view_eq⟩

theorem creations_tasks (c : Coordinator) (e : Event) :
    Engine.creations (c.tasks e) = if e.order?.isSome then 1 else 0 := by
  have henrol : ∀ create epoch, create.isCreation = true →
      Engine.creations (c.enrolTasks create epoch) = 1 := by
    intro create epoch hcreate
    rw [enrolTasks, enrolment, Engine.creations, List.countP_append, List.countP_cons,
      if_pos hcreate, refusal]
    split <;> rfl
  have hreply : ∀ x : NodeId × Reply, (x.2.op x.1).isCreation = false := by
    rintro ⟨sender, r⟩
    cases r <;> rfl
  cases ho : e.order? with
  | some o => cases e <;> cases ho <;> exact henrol _ _ rfl
  | none =>
    refine List.countP_eq_zero.2 fun op hop => ?_
    cases e with
    | create | createWithTimeout | createSegmented => cases ho
    | activate | restrict | stop => rw [List.mem_singleton.1 hop]; exact Bool.false_ne_true
    | expire =>
      obtain ⟨d, -, rfl⟩ := List.mem_map.1 hop
      exact Bool.false_ne_true
    | _ =>
      simp only [tasks, Option.mem_toList, Option.map_eq_some_iff] at hop
      obtain ⟨x, -, rfl⟩ := hop
      rw [hreply]
      exact Bool.false_ne_true

theorem creations_work (c : Coordinator) (es : List Event) :
    Engine.creations (c.work es) = creations es := by
  induction es generalizing c with
  | nil => rfl
  | cons e es ih =>
    rw [work, Engine.creations, List.countP_append, creations_cons]
    exact congrArg₂ (· + ·) (creations_tasks c e) (ih _)

/-! ## The books of a coordinator -/

/-- The writes that an event ends. -/
def endedBy (c : Coordinator) (e : Event) : List WriteId :=
  c.engine.table.ended (c.step e).value.2.engine.table

/-- The books of a coordinator after a run of it. -/
structure Accounted (c : Coordinator) (es : List Event) : Prop where
  activate : ∀ v, ((c.run es).step (.activate v)).value.1 =
    .count ((c.run es).endedBy (.activate v)).length
  restrict : ∀ members, ((c.run es).step (.restrict members)).value.1 =
    .count ((c.run es).endedBy (.restrict members)).length
  stop : ((c.run es).step .stop).value.1 = .count ((c.run es).endedBy .stop).length
  /-- The operations that the run consists of leave the same table behind. -/
  performs : (c.engine.acts (c.work es)).Matches (c.run es).engine
  /-- Their books are balanced. -/
  balanced : c.engine.Balanced (c.work es)

theorem accounted_of_new (home : NodeId) (epoch : Epoch) (s : Settings) {es : List Event}
    (h : creations es ≤ UInt64.size) : (new home epoch s).Accounted es := by
  have hevolves : Evolves (.new home s.maxPending) (creations es)
      ((new home epoch s).run es).engine.table := run_evolves (new home epoch s) es
  have ht := Engine.truthful_of_evolves hevolves h
  refine ⟨fun v => ?_, fun members => ?_, ?_, acts_work _ es, ?_⟩
  · exact congrArg Answer.count (ht.activate v)
  · exact congrArg Answer.count (ht.restrict members)
  · exact congrArg Answer.count ht.stop
  · refine Engine.balanced_of_new home home epoch s.maxPending ?_
    rwa [creations_work]

/-- **Every outcome is counted once.** Whatever is done with fresh parts, each report agrees with
what the operation ends, and the writes that were admitted are those that wait, those that were
reported and those that a reply ended, each once. The same holds of a coordinator, whose events
consist of such operations. -/
theorem outcomes_countedOnce :
    (∀ home follower epoch capacity ops, Engine.creations ops ≤ UInt64.size →
      ((Engine.new home follower epoch capacity).acts ops).Truthful ∧
        (Engine.new home follower epoch capacity).Balanced ops) ∧
      ∀ home epoch s es, creations es ≤ UInt64.size → (new home epoch s).Accounted es := by
  refine ⟨fun home follower epoch capacity ops h => ⟨?_, ?_⟩, fun home epoch s es h => ?_⟩
  · have hevolves : Evolves (.new home capacity) (Engine.creations ops)
        ((Engine.new home follower epoch capacity).acts ops).table :=
      Engine.acts_evolves (Engine.new home follower epoch capacity) ops
    exact Engine.truthful_of_evolves hevolves h
  · exact Engine.balanced_of_new home follower epoch capacity h
  · exact accounted_of_new home epoch s h

/-- Writes end in all five ways. -/
def busyRun : List Event :=
  [.create (.ofList [1, 2]) 0 5, .create (.ofList [1]) 0 5,
   .createSegmented (.ofList [(0, .ofList [1]), (1, .ofList [2])]) 5,
   .createWithTimeout (.ofList [1, 3]) 0 5 (Duration.ofMillis 10), .create (.ofList [3]) 0 5,
   .ack ⟨0, 1⟩ 1 5, .receive, .receive, .receive, .receive, .advance (Duration.ofMillis 20), .expire,
   .activate (.of 6 [] (.ofList [(0, [0, 1, 3]), (1, [2, 0])])), .create (.ofList [2]) 0 5,
   .restrict (.ofList [0, 1])]

theorem outcomes_countedOnce_busyRun :
    creations busyRun ≤ UInt64.size ∧
      ((new 0 5 .default).engine.admissions ((new 0 5 .default).work busyRun)).length = 6 ∧
      (new 0 5 .default).engine.reported ((new 0 5 .default).work busyRun) = 4 ∧
      (new 0 5 .default).engine.answered ((new 0 5 .default).work busyRun) = [⟨0, 1⟩] ∧
      ((new 0 5 .default).run busyRun).engine.table.pendingIds = [⟨0, 0⟩] ∧
      (new 0 5 .default).Accounted busyRun ∧
      Engine.creations (Engine.threeWrites ++ Engine.shutDown) ≤ UInt64.size ∧
      ((Engine.new 0 0 5 0).acts (Engine.threeWrites ++ Engine.shutDown)).Truthful ∧
      (Engine.new 0 0 5 0).Balanced (Engine.threeWrites ++ Engine.shutDown) := by
  have hevents : creations busyRun ≤ UInt64.size := by decide
  have hops : Engine.creations (Engine.threeWrites ++ Engine.shutDown) ≤ UInt64.size := by decide
  obtain ⟨htruthful, hbalanced⟩ := outcomes_countedOnce.1 0 0 5 0 _ hops
  exact ⟨hevents, by decide +kernel, by decide +kernel, by decide +kernel, by decide +kernel,
    outcomes_countedOnce.2 0 5 .default busyRun hevents, hops, htruthful, hbalanced⟩

end Coordinator
end BackupAcks
