import BackupAcks.Proofs.Coordinator.EpochFence
import BackupAcks.Proofs.Coordinator.Identifiers
import BackupAcks.Proofs.Table.Ledger

/-!
# Shutting down is final

Stopping a coordinator fails every write that waits, and leaves a table that is empty and marked as
stopped (`Shut`). In an empty table there is nobody left to feed an event to, and a table that is
stopped refuses every new write before it looks at anything else; so the mark and the emptiness last,
and all that later events can do is to add handles of writes that were refused.

Results:
* `endsAll_of_new`: stopping ends just the writes that were open, and counts them;
* `Shut.step_table`: a coordinator that is shut enters refused writes, and does nothing else;
* `stop_isFinal`: both, of every run and whatever comes behind.
-/
namespace BackupAcks

namespace WriteTable

variable {t : WriteTable} {id : WriteId}

/-! ## A table without entries -/

section Empty

variable (hp : t.pending = [])

include hp

theorem apply_of_empty (id : WriteId) (kind : EventKind) (rule : PendingWrite → Ruling) :
    (t.apply id kind rule).value = (false, t) := by
  simp [apply, find?, hp]

theorem sweep_of_empty (rule : PendingWrite → Ruling) : t.sweep rule = ([], t) := by
  simp only [sweep, hp, List.map_nil, List.filterMap_nil, List.foldl_nil]
  rw [← hp]

theorem deliver_of_empty (sender : NodeId) (r : Reply) :
    (t.deliver sender r).value = (false, t) := by
  cases r with
  | ack id epoch => exact apply_of_empty hp id .ack _
  | segmentAck id epoch segment => exact apply_of_empty hp id .segmentAck _
  | errorAck id epoch cause =>
    rw [deliver, error_value]
    exact apply_of_empty hp id .error _

theorem catchUp_of_empty (a : ActiveView) (id : WriteId) (epoch : Epoch) :
    (a.catchUp id epoch t).value = (false, t) := by
  unfold ActiveView.catchUp
  split
  · rfl
  · split
    · rfl
    · exact apply_of_empty hp id .catchUp _

theorem activate_of_empty (a : ActiveView) (v : Ownership) :
    (a.activate v t).value.1 = 0 ∧ (a.activate v t).value.2.2 = t := by
  unfold ActiveView.activate
  split
  · exact ⟨rfl, rfl⟩
  · rw [sweep_of_empty hp]
    exact ⟨rfl, rfl⟩

theorem restrict_of_empty (members : NodeSet) : (t.restrict members).value = (0, t) := by
  unfold restrict
  rw [sweep_of_empty hp]
  rfl

theorem timeOut_of_empty (due : List Deadline) : (Engine.timeOut due t).value = t := by
  induction due with
  | nil => rfl
  | cons d due ih =>
    rw [Engine.timeOut_cons, finish, apply_of_empty hp]
    exact ih

theorem handles_stop_of_empty : t.stop.2.handles = t.handles := by
  rw [stop, sweep_of_empty hp]

theorem stop_of_empty (hs : t.stopped = true) : t.stop = (0, t) := by
  rw [stop, sweep_of_empty hp, ← hp, ← hs]
  rfl

end Empty

/-! ## Stopping -/

theorem immediateOutcome_of_stopped (hs : t.stopped = true) (r : Requirement) :
    t.immediateOutcome r = some (.failure .stopping) :=
  if_pos hs

theorem Sound.stop_fst (h : t.Sound) : t.stop.1 = t.size := by
  rw [WriteTable.stop, h.sweep_eq, List.length_map, settlements, size]
  simp [Ruling.outcome?]

theorem Agrees.handle?_stop (h : t.Agrees) (hs : t.Sound) :
    t.stop.2.handle? id = (t.handle? id).map (Handle.settle (.failure .stopping)) := by
  rw [(Follows.stop hs).handle?_eq]
  cases hf : t.find? id with
  | some w => rfl
  | none =>
    have hno : ¬ t.Unresolved id := by rw [← h id, hf]; exact Bool.false_ne_true
    rw [Option.bind_none, map_settleBy_none]
    cases hh : t.handle? id with
    | none => rfl
    | some k =>
      cases ho : k.outcome with
      | none => exact absurd ⟨k, hh, ho⟩ hno
      | some o => rw [Option.map_some, Handle.settle_of_settled _ ho]

end WriteTable

namespace Coordinator

open WriteTable (Evolves)

variable {c : Coordinator} {e : Event}

/-! ## Shut -/

/-- Nobody waits, and nobody will. -/
structure Shut (c : Coordinator) : Prop where
  stopped : c.engine.table.stopped = true
  empty : c.engine.table.pending = []

theorem shut_stop (c : Coordinator) : (c.step .stop).value.2.Shut := ⟨rfl, rfl⟩

theorem Shut.entered_handles (h : c.Shut) (e : Event) :
    (c.entered e).handles =
      (if e.order?.isSome then [⟨c.nextId, some (.failure .stopping)⟩] else []) ++
        c.engine.table.handles := by
  unfold entered
  cases e.order? with
  | none => rfl
  | some o =>
    simp only [WriteTable.register, Logged.value_bind, Logged.value_pure,
      WriteTable.immediateOutcome_of_stopped h.stopped]
    rfl

theorem Shut.entered (h : c.Shut) (e : Event) :
    (c.entered e).stopped = true ∧ (c.entered e).pending = [] := by
  unfold Coordinator.entered
  cases e.order? with
  | none => exact ⟨h.stopped, h.empty⟩
  | some o =>
    simp only [WriteTable.register, Logged.value_bind, Logged.value_pure,
      WriteTable.immediateOutcome_of_stopped h.stopped]
    exact ⟨h.stopped, h.empty⟩

/-- A write that is refused is neither caught up nor given a deadline. -/
theorem Shut.enroll_table (h : c.Shut) (r : Requirement) (epoch : Epoch) (timeout : Duration) :
    (c.enroll r epoch timeout).value.2.engine.table = (c.engine.table.register r epoch).value.2 := by
  have hout := WriteTable.immediateOutcome_of_stopped h.stopped r
  have hempty : (c.engine.register r epoch).value.2.table.pending = [] := by
    simp only [Engine.register, Engine.onTable, WriteTable.register, Logged.value_bind,
      Logged.value_pure, hout]
    exact h.empty
  have hcaught : ((c.engine.register r epoch).value.2.catchUp c.nextId epoch).value.2.table =
      (c.engine.table.register r epoch).value.2 :=
    congrArg Prod.snd (WriteTable.catchUp_of_empty hempty c.engine.view c.nextId epoch)
  have hsettled : (((c.engine.register r epoch).value.2.catchUp c.nextId epoch).value.2.table.outcome?
      c.nextId).isSome = true := by
    rw [hcaught, WriteTable.outcome?, WriteTable.handle?_register, if_pos (by rfl), hout]
    rfl
  rw [enroll_engine, armDeadline, if_pos hsettled]
  exact hcaught

/-- A coordinator that is shut enters new writes, and does nothing else to its table. -/
theorem Shut.step_table (h : c.Shut) (e : Event) :
    (c.step e).value.2.engine.table = c.entered e := by
  cases e using Event.byKind c with
  | order e o ho =>
    obtain ⟨timeout, hstep, -⟩ := step_of_order (c := c) ho
    rw [hstep, h.enroll_table, Coordinator.entered, ho]
  | reply e x hr =>
    rw [step_of_reply hr, Coordinator.entered, order?_of_reply hr]
    exact congrArg Prod.snd (WriteTable.deliver_of_empty h.empty x.1 x.2)
  | unread sender data hr =>
    rw [step_of_unread hr]
    rfl
  | activate v => exact (WriteTable.activate_of_empty h.empty c.engine.view v).2
  | restrict members => exact congrArg Prod.snd (WriteTable.restrict_of_empty h.empty members)
  | stop => exact congrArg Prod.snd (WriteTable.stop_of_empty h.empty h.stopped)
  | expire => exact WriteTable.timeOut_of_empty h.empty _
  | sweeperLost => rfl
  | advance d => rfl
  | receive => rfl

theorem Shut.step (h : c.Shut) (e : Event) : (c.step e).value.2.Shut := by
  obtain ⟨hstopped, hempty⟩ := h.entered e
  rw [← h.step_table e] at hstopped hempty
  exact ⟨hstopped, hempty⟩

theorem Shut.run (h : c.Shut) (es : List Event) : (c.run es).Shut := by
  induction es generalizing c with
  | nil => exact h
  | cons e es ih =>
    rw [run_cons]
    exact ih (h.step e)

/-! ## Before and after -/

theorem step_fst_of_order (ho : e.order?.isSome = true) : (c.step e).value.1 = .id c.nextId := by
  cases e with
  | create owners segment epoch =>
    exact congrArg (Answer.id ·.1) (createWithTimeout_value owners segment epoch c.usualTimeout)
  | createWithTimeout owners segment epoch timeout =>
    exact congrArg (Answer.id ·.1) (createWithTimeout_value owners segment epoch timeout)
  | createSegmented owners epoch => rfl
  | _ => cases ho

/-- Stopping ends every write that has no outcome, and counts them. -/
structure EndsAll (c : Coordinator) : Prop where
  answer : (c.step .stop).value.1 = .count c.engine.table.openIds.length
  handle? : ∀ id, (c.step .stop).value.2.engine.table.handle? id =
    (c.engine.table.handle? id).map (Handle.settle (.failure .stopping))
  empty : (c.step .stop).value.2.engine.table.pending = []

/-- Nothing changes any more after `es` but that new writes are refused. -/
structure StaysShut (c : Coordinator) (es : List Event) : Prop where
  empty : (c.run es).engine.table.pending = []
  /-- The handles that there were stay as they are, and all later ones are refusals. -/
  handles : ∃ later, later.length = creations es ∧
    (∀ k ∈ later, k.outcome = some (.failure .stopping)) ∧
    (c.run es).engine.table.handles = later ++ c.engine.table.handles
  /-- Every write that is created next gets a handle that is settled at once. -/
  refuses : ∀ e, e.order?.isSome = true → ((c.run es).step e).value.1 = .id (c.run es).nextId ∧
    ((c.run es).step e).value.2.engine.table.handles =
      ⟨(c.run es).nextId, some (.failure .stopping)⟩ :: (c.run es).engine.table.handles
  activate : ∀ v, ((c.run es).step (.activate v)).value.1 = .count 0
  restrict : ∀ members, ((c.run es).step (.restrict members)).value.1 = .count 0
  stop : ((c.run es).step .stop).value.1 = .count 0

theorem Shut.run_handles (h : c.Shut) (es : List Event) : ∃ later, later.length = creations es ∧
    (∀ k ∈ later, k.outcome = some (.failure .stopping)) ∧
    (c.run es).engine.table.handles = later ++ c.engine.table.handles := by
  induction es generalizing c with
  | nil => exact ⟨[], rfl, by simp, rfl⟩
  | cons e es ih =>
    obtain ⟨later, hlength, hrefused, hhandles⟩ := ih (h.step e)
    rw [h.step_table e, h.entered_handles e, ← List.append_assoc] at hhandles
    refine ⟨_, ?_, fun k hk => ?_, hhandles⟩
    · rw [List.length_append, hlength, creations_cons, Nat.add_comm]
      split <;> rfl
    · rcases List.mem_append.1 hk with hk | hk
      · exact hrefused k hk
      · split at hk
        · rw [List.mem_singleton.1 hk]
        · cases hk

theorem Shut.staysShut (h : c.Shut) (es : List Event) : c.StaysShut es := by
  have hrun := h.run es
  refine ⟨hrun.empty, h.run_handles es, fun e he => ⟨step_fst_of_order he, ?_⟩, fun v => ?_,
    fun members => ?_, ?_⟩
  · rw [hrun.step_table e, hrun.entered_handles e, if_pos he]
    rfl
  · exact congrArg Answer.count
      (WriteTable.activate_of_empty hrun.empty (c.run es).engine.view v).1
  · exact congrArg (Answer.count ·.1) (WriteTable.restrict_of_empty hrun.empty members)
  · exact congrArg (Answer.count ·.1) (WriteTable.stop_of_empty hrun.empty hrun.stopped)

theorem endsAll_of_new (home : NodeId) (epoch : Epoch) (s : Settings) {es : List Event}
    (h : creations es ≤ UInt64.size) : ((new home epoch s).run es).EndsAll := by
  have hevolves : Evolves (.new home s.maxPending) (creations es)
      ((new home epoch s).run es).engine.table := run_evolves (new home epoch s) es
  have hs := hevolves.sound (WriteTable.Sound.new home s.maxPending)
  refine ⟨?_, fun id => (hevolves.agrees h).handle?_stop hs, rfl⟩
  rw [hevolves.length_openIds h, ← hs.stop_fst]
  rfl

/-- **Shutting down is final.** In every state that a coordinator can reach, stopping it counts and
fails the writes without an outcome, touches no other, and empties the table. Whatever comes then,
the table stays empty and the handles stay as they are; every later write is refused at once, and no
later activation, change of membership or stop ends anything. -/
theorem stop_isFinal (home : NodeId) (epoch : Epoch) (s : Settings) (es : List Event)
    (h : creations es ≤ UInt64.size) :
    ((new home epoch s).run es).EndsAll ∧
      ∀ after, (((new home epoch s).run es).step .stop).value.2.StaysShut after :=
  ⟨endsAll_of_new home epoch s h,
    fun after => (shut_stop ((new home epoch s).run es)).staysShut after⟩

/-- One write is confirmed and two wait when the coordinator is stopped. -/
def runningOn : List Event :=
  [.create (.ofList [1, 2]) 0 5, .create (.ofList [3]) 0 5, .ack ⟨0, 1⟩ 3 5,
   .createSegmented (.ofList [(0, .ofList [1]), (1, .ofList [2])]) 5, .receive]

/-- Writes that nobody has to confirm, replies, activations and time come afterwards. -/
def knockingOn : List Event :=
  [.create .empty 0 5, .ack ⟨0, 0⟩ 1 5, .create (.ofList [1]) 0 4,
   .activate (.of 6 [] (.ofList [(0, [0, 1])])), .advance (Duration.ofMillis 60000), .expire, .stop]

theorem stop_isFinal_runningOn :
    creations runningOn ≤ UInt64.size ∧
      (((new 0 5 .default).run runningOn).step .stop).value.1 = .count 2 ∧
      ((new 0 5 .default).run runningOn).EndsAll ∧
      (((new 0 5 .default).run runningOn).step .stop).value.2.StaysShut knockingOn := by
  have hruns : creations runningOn ≤ UInt64.size := by decide
  obtain ⟨hends, hstays⟩ := stop_isFinal 0 5 .default runningOn hruns
  exact ⟨hruns, by decide, hends, hstays knockingOn⟩

end Coordinator
end BackupAcks
