import BackupAcks.Coordinator
import BackupAcks.Proofs.Deadline.Turns
import BackupAcks.Proofs.Table.Follows

/-!
# What one event does

The events that come to a coordinator fall into four groups: a write is created (`order?`), a reply
comes in (`reply?`), an assignment is offered (`offer?`), and the rest. Each of them is one rule for
the writes that wait (`ruling`), and for the write that it registers itself, if it does
(`registration?`).

Results:
* `step_follows`: a step enters the new write and rules on every entry by `ruling`;
* `step_of_reply`, `step_of_unread`: what comes in from other nodes goes to the table or nowhere;
* `step_view`: only an offer that is not older than the active assignment changes it;
* `find?_entered`, `handle?_entered`: the entries and handles that an event meets.
-/
namespace BackupAcks

def Reply.epoch : Reply → Epoch
  | .ack _ t | .segmentAck _ t _ | .errorAck _ t _ => t

namespace Coordinator

/-! ## Reading events -/

/-- The requirement and the epoch of the write that is to be created. -/
def Event.order? : Event → Option (Requirement × Epoch)
  | .create owners segment epoch => some (.single segment owners, epoch)
  | .createWithTimeout owners segment epoch _ => some (.single segment owners, epoch)
  | .createSegmented owners epoch => some (.ofSegments owners, epoch)
  | _ => none

def Event.offer? : Event → Option Ownership
  | .activate v => some v
  | _ => none

/-- The reply that comes in, however it does, and its sender. A failure on the node itself is a
reply of that node. -/
def reply? (c : Coordinator) : Event → Option (NodeId × Reply)
  | .ack id sender epoch => some (sender, .ack id epoch)
  | .segmentAck id sender epoch segment => some (sender, .segmentAck id epoch segment)
  | .error id sender epoch cause => some (sender, .errorAck id epoch cause)
  | .failLocally id epoch cause => some (c.engine.table.home, .errorAck id epoch cause)
  | .reply sender r => some (sender, r)
  | .bytes sender bytes => (Reply.decode bytes).toOption.map fun r => (sender, r)
  | _ => none

/-- The next identifier. -/
def nextId (c : Coordinator) : WriteId := c.engine.table.ids.issue.1

def Event.time? (usual : Duration) : Event → Option Duration
  | .create .. | .createSegmented .. => some usual
  | .createWithTimeout _ _ _ timeout => some timeout
  | _ => none

/-- The deadline of the write that is created: from now, the time it is given, a year at most. -/
def grant? (c : Coordinator) (e : Event) : Option Deadline :=
  (e.time? c.usualTimeout).map fun time =>
    ⟨c.engine.now + min time maxTimeout, c.nextId, min time maxTimeout⟩

/-- The write that is registered and has to wait. -/
def registration? (c : Coordinator) (e : Event) : Option PendingWrite :=
  e.order?.bind fun o =>
    if c.engine.table.immediateOutcome o.1 = none then some ⟨c.nextId, o.2, o.1⟩ else none

/-- The write that waits under an identifier when the event has its effect: a write meets the event
that registers it. -/
def waiting? (c : Coordinator) (e : Event) (id : WriteId) : Option PendingWrite :=
  ((c.registration? e).filter (·.id == id)).or (c.engine.table.find? id)

/-- The identifiers that are issued in a run. -/
def issued (c : Coordinator) : List Event → List WriteId
  | [] => []
  | e :: es =>
    if e.order?.isSome then c.nextId :: issued (c.step e).value.2 es
    else issued (c.step e).value.2 es

/-! ## The rule of an event -/

end Coordinator

open WriteTable (Follows only only_of_ne)
open PendingWrite (Lawful andThen)

/-- What a reply means for the write it is about. -/
def Reply.ruling (sender : NodeId) : Reply → PendingWrite → Ruling
  | .ack _ epoch, w => w.ack sender epoch none
  | .segmentAck _ epoch segment, w => w.ack sender epoch (some segment)
  | .errorAck _ epoch cause, w => w.error sender epoch cause

/-- What the active assignment means for a write that is registered for `epoch`. -/
def ActiveView.catchUpRuling (a : ActiveView) (epoch : Epoch) (w : PendingWrite) : Ruling :=
  if a.epoch ≤ epoch then .waiting w
  else
    match a.latest with
    | none => .waiting w
    | some v => w.adopt a.home v

/-- The active assignment after another is offered. -/
def ActiveView.offered (v : Ownership) (a : ActiveView) : ActiveView :=
  if v.epoch < a.epoch then a else { a with epoch := v.epoch, latest := some v }

/-- What the passing of deadlines means for a write. -/
def Deadline.ruling (due : List Deadline) (w : PendingWrite) : Ruling :=
  match due.find? (·.id == w.id) with
  | none => .waiting w
  | some d => .settled (.failure (.timeout (Duration.toMillis d.timeout)))

namespace Coordinator

/-- What it means for a new write to be given a deadline. -/
def deadlineRuling (c : Coordinator) (r : Requirement) (w : PendingWrite) : Ruling :=
  if c.engine.desk.isOpen || (c.engine.table.immediateOutcome r).isSome then .waiting w
  else .settled (.failure .stopping)

/-- What the steps of its registration mean for a new write. -/
def enrolRuling (c : Coordinator) (r : Requirement) (epoch : Epoch) : PendingWrite → Ruling :=
  andThen (only c.nextId (c.engine.view.catchUpRuling epoch)) (only c.nextId (c.deadlineRuling r))

/-- What an event means for a write. -/
def ruling (c : Coordinator) : Event → PendingWrite → Ruling
  | .create owners segment epoch => c.enrolRuling (.single segment owners) epoch
  | .createWithTimeout owners segment epoch _ => c.enrolRuling (.single segment owners) epoch
  | .createSegmented owners epoch => c.enrolRuling (.ofSegments owners) epoch
  | .ack id sender epoch => only id (Reply.ruling sender (.ack id epoch))
  | .segmentAck id sender epoch segment =>
    only id (Reply.ruling sender (.segmentAck id epoch segment))
  | .error id sender epoch cause => only id (Reply.ruling sender (.errorAck id epoch cause))
  | .failLocally id epoch cause =>
    only id (Reply.ruling c.engine.table.home (.errorAck id epoch cause))
  | .reply sender r => only r.id (r.ruling sender)
  | .bytes sender bytes =>
    match Reply.decode bytes with
    | .ok r => only r.id (r.ruling sender)
    | .error _ => .waiting
  | .activate v =>
    if v.epoch < c.engine.view.epoch then .waiting else (·.adopt c.engine.view.home v)
  | .restrict members => (·.dropDeparted members)
  | .stop => fun _ => .settled (.failure .stopping)
  | .expire => Deadline.ruling (c.engine.desk.expire c.engine.now).1
  | .sweeperLost | .advance _ | .receive => .waiting

/-- The table with the new write, before anything is ruled on. -/
def entered (c : Coordinator) (e : Event) : WriteTable :=
  match e.order? with
  | some o => (c.engine.table.register o.1 o.2).value.2
  | none => c.engine.table

variable {c : Coordinator} {e : Event} {id : WriteId}

/-! ## One event is of one kind -/

theorem order?_of_reply {x : NodeId × Reply} (h : c.reply? e = some x) : e.order? = none := by
  cases e <;> first | rfl | cases h

theorem offer?_of_reply {x : NodeId × Reply} (h : c.reply? e = some x) : e.offer? = none := by
  cases e <;> first | rfl | cases h

theorem reply?_of_order {o : Requirement × Epoch} (h : e.order? = some o) : c.reply? e = none := by
  cases e <;> first | rfl | cases h

theorem offer?_of_order {o : Requirement × Epoch} (h : e.order? = some o) : e.offer? = none := by
  cases e <;> first | rfl | cases h

theorem ne_restrict_of_order {o : Requirement × Epoch} (h : e.order? = some o) (members : NodeSet) :
    e ≠ .restrict members := by
  intro he
  rw [he] at h
  cases h

theorem order?_of_offer {v : Ownership} (h : e.offer? = some v) : e.order? = none := by
  cases e <;> first | rfl | cases h

theorem eq_activate_of_offer {v : Ownership} (h : e.offer? = some v) : e = .activate v := by
  cases e <;> cases h
  rfl

theorem registration?_of_order (h : e.order? = none) : c.registration? e = none := by
  rw [registration?, h, Option.bind_none]

theorem order?_dense {o : Requirement × Epoch} (h : e.order? = some o) : o.1.Dense := by
  cases e <;> cases h
  · trivial
  · trivial
  · exact Requirement.ofSegments_dense _

theorem registration?_eq_some_iff {w : PendingWrite} :
    c.registration? e = some w ↔ w.id = c.nextId ∧ e.order? = some (w.requirement, w.epoch) ∧
      c.engine.table.immediateOutcome w.requirement = none := by
  rw [registration?, Option.bind_eq_some_iff]
  constructor
  · intro h
    obtain ⟨⟨r, t⟩, ho, hw⟩ := h
    split at hw
    · rename_i hi
      cases hw
      exact ⟨rfl, ho, hi⟩
    · cases hw
  · intro h
    obtain ⟨hid, ho, hi⟩ := h
    refine ⟨_, ho, ?_⟩
    rw [if_pos hi, ← hid]

/-- What waits under an identifier is the write that is registered under it now, or else the one
that waited before. -/
theorem waiting?_eq_some_iff {w : PendingWrite} :
    c.waiting? e id = some w ↔ (c.registration? e = some w ∧ w.id = id) ∨
      ((∀ x, c.registration? e = some x → x.id ≠ id) ∧ c.engine.table.find? id = some w) := by
  rw [waiting?, Option.or_eq_some_iff]
  simp only [Option.filter_eq_some_iff, Option.filter_eq_none_iff, beq_iff_eq]

theorem ruling_of_reply {n : NodeId} {r : Reply} (h : c.reply? e = some (n, r)) :
    c.ruling e = only r.id (r.ruling n) := by
  cases e with
  | bytes sender bytes =>
    simp only [reply?] at h
    cases hd : Reply.decode bytes with
    | error reason => rw [hd] at h; cases h
    | ok r' =>
      rw [hd] at h
      cases h
      simp only [ruling, hd]
  | _ => cases h <;> rfl

theorem ruling_of_order {o : Requirement × Epoch} (h : e.order? = some o) :
    c.ruling e = c.enrolRuling o.1 o.2 := by
  cases e <;> cases h <;> rfl

/-! ## Taking a reply in -/

theorem step_of_reply {n : NodeId} {r : Reply} (h : c.reply? e = some (n, r)) :
    (c.step e).value.2 =
      { c with engine := { c.engine with table := (c.engine.table.deliver n r).value.2 } } := by
  cases e with
  | bytes sender bytes =>
    simp only [reply?] at h
    cases hd : Reply.decode bytes with
    | error reason => rw [hd] at h; cases h
    | ok r' =>
      rw [hd] at h
      cases h
      simp only [step, quiet, deliverBytes, hd]
      rfl
  | _ => cases h <;> rfl

theorem step_of_unread {sender : NodeId} {bytes : List UInt8}
    (h : c.reply? (.bytes sender bytes) = none) : (c.step (.bytes sender bytes)).value.2 = c := by
  simp only [reply?] at h
  cases hd : Reply.decode bytes with
  | ok r => rw [hd] at h; cases h
  | error reason =>
    simp only [step, quiet, deliverBytes, hd]
    rfl

theorem ruling_of_unread {sender : NodeId} {bytes : List UInt8}
    (h : c.reply? (.bytes sender bytes) = none) : c.ruling (.bytes sender bytes) = .waiting := by
  simp only [reply?] at h
  cases hd : Reply.decode bytes with
  | ok r => rw [hd] at h; cases h
  | error reason => simp only [ruling, hd]

/-- Every event creates a write, brings a reply in whatever form, or is one of the rest. -/
@[elab_as_elim]
theorem Event.byKind (c : Coordinator) {motive : Event → Prop}
    (order : ∀ e o, e.order? = some o → motive e)
    (reply : ∀ e x, c.reply? e = some x → motive e)
    (unread : ∀ sender data, c.reply? (.bytes sender data) = none → motive (.bytes sender data))
    (activate : ∀ v, motive (.activate v)) (restrict : ∀ members, motive (.restrict members))
    (stop : motive .stop) (sweeperLost : motive .sweeperLost) (advance : ∀ d, motive (.advance d))
    (receive : motive .receive) (expire : motive .expire) (e : Event) : motive e := by
  cases ho : e.order? with
  | some o => exact order e o ho
  | none =>
    cases hr : c.reply? e with
    | some x => exact reply e x hr
    | none =>
      cases e with
      | bytes sender data => exact unread sender data hr
      | activate v => exact activate v
      | restrict members => exact restrict members
      | stop => exact stop
      | sweeperLost => exact sweeperLost
      | advance d => exact advance d
      | receive => exact receive
      | expire => exact expire
      | create | createWithTimeout | createSegmented => cases ho
      | _ => cases hr

/-! ## Entering -/

theorem find?_entered : (c.entered e).find? id = c.waiting? e id := by
  rw [waiting?, registration?, entered]
  cases e.order? with
  | none => rfl
  | some o =>
    rw [WriteTable.find?_register, Option.bind_some]
    by_cases ho : c.engine.table.immediateOutcome o.1 = none
    · by_cases hid : c.nextId = id
      · rw [if_pos ho, if_pos ⟨hid, ho⟩, Option.filter_some, if_pos (by simpa using hid)]
        rfl
      · rw [if_pos ho, if_neg fun h => hid h.1, Option.filter_some, if_neg (by simpa using hid)]
        rfl
    · rw [if_neg ho, if_neg fun h => ho h.2]
      rfl

theorem handle?_entered_of_order {o : Requirement × Epoch} (h : e.order? = some o)
    (hid : c.nextId = id) :
    (c.entered e).handle? id = some ⟨id, c.engine.table.immediateOutcome o.1⟩ := by
  simp only [entered, h]
  exact (WriteTable.handle?_register o.1 o.2).trans (if_pos hid)

theorem handle?_entered_of_ne (hid : e.order?.isSome = true → c.nextId ≠ id) :
    (c.entered e).handle? id = c.engine.table.handle? id := by
  unfold entered
  cases ho : e.order? with
  | none => rfl
  | some o =>
    rw [ho] at hid
    exact (WriteTable.handle?_register o.1 o.2).trans (if_neg (hid rfl))

theorem entered_sound (h : c.engine.table.Sound) : (c.entered e).Sound := by
  unfold entered
  cases ho : e.order? with
  | none => exact h
  | some o => exact h.register (order?_dense ho) o.2

/-! ## Following the rule -/

variable {t : WriteTable}

theorem lawful_catchUp (a : ActiveView) (epoch : Epoch) : Lawful (a.catchUpRuling epoch) := by
  intro w w' hl hw
  unfold ActiveView.catchUpRuling at hw
  split at hw
  · exact PendingWrite.lawful_waiting w w' hl hw
  · split at hw
    · exact PendingWrite.lawful_waiting w w' hl hw
    · exact PendingWrite.lawful_adopt a.home _ w w' hl hw

theorem catchUpRuling_ne_stale (a : ActiveView) (epoch : Epoch) (w : PendingWrite) (t : Epoch) :
    a.catchUpRuling epoch w ≠ .stale t := by
  unfold ActiveView.catchUpRuling
  split
  · simp
  · split
    · simp
    · exact PendingWrite.adopt_ne_stale a.home _ t

theorem deliver_follows (h : t.Sound) (n : NodeId) (r : Reply) :
    Follows (only r.id (r.ruling n)) t (t.deliver n r).value.2 := by
  cases r with
  | ack id epoch => exact .apply h (PendingWrite.lawful_ack n epoch none) .ack id
  | segmentAck id epoch segment =>
    exact .apply h (PendingWrite.lawful_ack n epoch (some segment)) .segmentAck id
  | errorAck id epoch cause =>
    simp only [WriteTable.deliver, WriteTable.error_value]
    exact .apply h (PendingWrite.lawful_error n epoch cause) .error id

theorem only_waiting : only id .waiting = .waiting := by
  funext w
  simp [only]

theorem catchUp_follows (h : t.Sound) (a : ActiveView) (id : WriteId) (epoch : Epoch) :
    Follows (only id (a.catchUpRuling epoch)) t (a.catchUp id epoch t).value.2 := by
  unfold ActiveView.catchUp
  by_cases ha : a.epoch ≤ epoch
  · have hw : a.catchUpRuling epoch = .waiting := by
      funext w
      simp [ActiveView.catchUpRuling, ha]
    rw [hw, only_waiting, if_pos ha]
    exact .refl h
  · rw [if_neg ha]
    cases hv : a.latest with
    | none =>
      have hw : a.catchUpRuling epoch = .waiting := by
        funext w
        simp [ActiveView.catchUpRuling, hv]
      rw [hw, only_waiting]
      exact .refl h
    | some v =>
      have hw : a.catchUpRuling epoch = (·.adopt a.home v) := by
        funext w
        simp [ActiveView.catchUpRuling, ha, hv]
      rw [hw]
      exact .apply h (PendingWrite.lawful_adopt a.home v) .catchUp id

theorem timeOut_follows (h : t.Sound) (due : List Deadline) :
    Follows (Deadline.ruling due) t (Engine.timeOut due t).value := by
  induction due generalizing t with
  | nil => exact .refl h
  | cons d due ih =>
    have hd := Follows.finish h d.id (.failure (.timeout (Duration.toMillis d.timeout)))
    have hrule : Deadline.ruling (d :: due) =
        andThen (only d.id fun _ => .settled (.failure (.timeout (Duration.toMillis d.timeout))))
          (Deadline.ruling due) := by
      funext w
      by_cases hw : w.id = d.id
      · simp [Deadline.ruling, andThen, only, hw]
      · have hne : (d.id == w.id) = false := by simpa using Ne.symm hw
        rw [PendingWrite.andThen_of_waiting (only_of_ne _ hw)]
        · simp [Deadline.ruling, hne]
        · intro t ht
          unfold Deadline.ruling at ht
          split at ht <;> cases ht
    rw [hrule, Engine.timeOut_cons]
    exact hd.trans (ih hd.sound)

/-- Setting the deadline of a write that waits ends it just if nobody listens for deadlines. -/
theorem armDeadline_follows (en : Engine) (h : en.table.Sound) (id : WriteId) (timeout : Duration) :
    Follows
      (only id fun w =>
        if en.desk.isOpen || (en.table.outcome? id).isSome then .waiting w
        else .settled (.failure .stopping))
      en.table (armDeadline id timeout en).value.table := by
  unfold armDeadline
  cases ho : (en.table.outcome? id).isSome with
  | true =>
    simp only [Bool.or_true, if_true]
    rw [show (fun w => Ruling.waiting w) = .waiting from rfl, only_waiting]
    exact .refl h
  | false =>
    cases hs : en.desk.sweeper with
    | none =>
      have hclosed : en.desk.isOpen = false := by rw [DeadlineDesk.isOpen, hs]; rfl
      simp only [hclosed, Engine.schedule, DeadlineDesk.schedule, hs, Bool.or_self,
        Bool.false_eq_true, if_false]
      exact .finish h id (.failure .stopping)
    | some sweeper =>
      have hopen : en.desk.isOpen = true := by rw [DeadlineDesk.isOpen, hs]; rfl
      simp only [hopen, Engine.schedule, DeadlineDesk.schedule, hs, Bool.true_or, if_true]
      rw [show (fun w => Ruling.waiting w) = .waiting from rfl, only_waiting]
      exact .refl h

theorem register_fst (c : Coordinator) (r : Requirement) (epoch : Epoch) :
    (c.engine.register r epoch).value.1 = c.nextId :=
  rfl

theorem enroll_engine (c : Coordinator) (r : Requirement) (epoch : Epoch) (timeout : Duration) :
    (c.enroll r epoch timeout).value.2.engine =
      (armDeadline c.nextId timeout
        ((c.engine.register r epoch).value.2.catchUp c.nextId epoch).value.2).value := by
  rw [← register_fst c r epoch]
  rfl

theorem enroll_follows (h : c.engine.table.Sound) {r : Requirement} (hr : r.Dense) (epoch : Epoch)
    (timeout : Duration) :
    Follows (c.enrolRuling r epoch) (c.engine.table.register r epoch).value.2
      (c.enroll r epoch timeout).value.2.engine.table := by
  have hcaught := catchUp_follows (h.register hr epoch) c.engine.view c.nextId epoch
  have harmed := armDeadline_follows
    ((c.engine.register r epoch).value.2.catchUp c.nextId epoch).value.2 hcaught.sound c.nextId
    timeout
  rw [enroll_engine]
  refine hcaught.trans (harmed.congr fun id w hf => ?_)
  unfold only
  split
  · rename_i hw
    -- the handle of a write that waits after catching up is as it was registered
    rw [← WriteTable.id_of_find? hf, hw] at hf
    have hh := (hcaught.handle?_of_find? hf).trans (WriteTable.handle?_register r epoch)
    rw [if_pos (show c.engine.table.ids.issue.1 = c.nextId from rfl)] at hh
    have hout : ((c.engine.register r epoch).value.2.catchUp
        c.nextId epoch).value.2.table.outcome? c.nextId = c.engine.table.immediateOutcome r :=
      congrArg (Option.bind · Handle.outcome) hh
    simp only [hout]
    rfl
  · rfl

theorem createWithTimeout_value (owners : NodeSet) (segment : SegmentId) (epoch : Epoch)
    (timeout : Duration) :
    (c.createWithTimeout owners segment epoch timeout).value =
      (c.enroll (.single segment owners) epoch (min timeout maxTimeout)).value := by
  unfold createWithTimeout
  split
  · rw [Logged.value_bind]
  · rfl

/-- The answer to the caller is not part of the effect. -/
theorem value_answer (x : Logged (WriteId × Coordinator)) :
    (do let r ← x; return (Answer.id r.1, r.2) : Logged (Answer × Coordinator)).value.2 =
      x.value.2 :=
  rfl

/-- However a write is created, it is enrolled, with the time that it is given. -/
theorem step_of_order {o : Requirement × Epoch} (h : e.order? = some o) :
    ∃ timeout, (c.step e).value.2 = (c.enroll o.1 o.2 timeout).value.2 ∧ c.grant? e =
      some ⟨c.engine.now + min timeout maxTimeout, c.nextId, min timeout maxTimeout⟩ := by
  have hmin : ∀ time, min (min time maxTimeout) maxTimeout = min time maxTimeout :=
    fun time => Nat.min_eq_left (Nat.min_le_right time maxTimeout)
  cases e with
  | create owners segment epoch =>
    cases h
    refine ⟨min c.usualTimeout maxTimeout, ?_, by rw [hmin]; rfl⟩
    rw [← createWithTimeout_value]
    exact value_answer (c.createWithTimeout owners segment epoch c.usualTimeout)
  | createWithTimeout owners segment epoch timeout =>
    cases h
    refine ⟨min timeout maxTimeout, ?_, by rw [hmin]; rfl⟩
    rw [← createWithTimeout_value]
    exact value_answer (c.createWithTimeout owners segment epoch timeout)
  | createSegmented owners epoch =>
    cases h
    refine ⟨c.usualTimeout, ?_, rfl⟩
    exact value_answer (c.enroll (.ofSegments owners) epoch c.usualTimeout)
  | _ => cases h

theorem activate_follows (h : c.engine.table.Sound) (v : Ownership) :
    Follows (c.ruling (.activate v)) c.engine.table (c.activate v).value.2.engine.table := by
  simp only [activate, onEngine, Engine.activate, ActiveView.activate, ruling]
  split
  · exact .refl h
  · exact .sweep h (PendingWrite.lawful_adopt _ v)

/-- **One event is one rule**, for the writes that waited and for the one it registers. -/
theorem step_follows (h : c.engine.table.Sound) (e : Event) :
    Follows (c.ruling e) (c.entered e) (c.step e).value.2.engine.table := by
  cases e using Event.byKind c with
  | order e o ho =>
    obtain ⟨timeout, hstep, -⟩ := step_of_order (c := c) ho
    rw [hstep, ruling_of_order ho, entered, ho]
    exact enroll_follows h (order?_dense ho) o.2 timeout
  | reply e x hr =>
    rw [step_of_reply hr, ruling_of_reply hr, entered, order?_of_reply hr]
    exact deliver_follows h x.1 x.2
  | unread sender data hr =>
    rw [step_of_unread hr, ruling_of_unread hr]
    exact .refl h
  | activate v => exact activate_follows h v
  | restrict members => exact .sweep h (PendingWrite.lawful_dropDeparted members)
  | stop => exact .stop h
  | expire => exact timeOut_follows h _
  | sweeperLost => exact .refl h
  | advance d => exact .refl h
  | receive => exact .refl h

theorem step_sound (h : c.engine.table.Sound) (e : Event) :
    (c.step e).value.2.engine.table.Sound :=
  (step_follows h e).sound

/-! ## The active assignment -/

theorem armDeadline_view (id : WriteId) (timeout : Duration) (en : Engine) :
    (armDeadline id timeout en).value.view = en.view := by
  simp only [armDeadline, Engine.schedule, DeadlineDesk.schedule]
  split
  · rfl
  · cases en.desk.sweeper <;> rfl

theorem enroll_view (r : Requirement) (epoch : Epoch) (timeout : Duration) :
    (c.enroll r epoch timeout).value.2.engine.view = c.engine.view := by
  rw [enroll_engine, armDeadline_view]
  rfl

theorem step_view (c : Coordinator) (e : Event) :
    (c.step e).value.2.engine.view =
      e.offer?.elim c.engine.view fun v => c.engine.view.offered v := by
  cases e using Event.byKind c with
  | order e o ho =>
    obtain ⟨timeout, hstep, -⟩ := step_of_order (c := c) ho
    rw [hstep, enroll_view, offer?_of_order ho]
    rfl
  | reply e x hr =>
    rw [step_of_reply hr, offer?_of_reply hr]
    rfl
  | unread sender data hr =>
    rw [step_of_unread hr]
    rfl
  | activate v =>
    simp only [step, activate, onEngine, Engine.activate, ActiveView.activate, Event.offer?,
      Option.elim_some, ActiveView.offered, Logged.value_bind]
    split <;> rfl
  | restrict members => rfl
  | stop => rfl
  | expire => rfl
  | sweeperLost => rfl
  | advance d => rfl
  | receive => rfl

theorem offered_home (a : ActiveView) (v : Ownership) : (a.offered v).home = a.home := by
  unfold ActiveView.offered
  split <;> rfl

theorem step_home (c : Coordinator) (e : Event) :
    (c.step e).value.2.engine.view.home = c.engine.view.home := by
  rw [step_view]
  cases e.offer? with
  | none => rfl
  | some v => exact offered_home c.engine.view v

/-! ## Identifiers -/

theorem entered_ids (c : Coordinator) (e : Event) :
    (c.entered e).ids =
      if e.order?.isSome then c.engine.table.ids.issue.2 else c.engine.table.ids := by
  unfold entered
  cases e.order? <;> rfl

theorem step_ids (h : c.engine.table.Sound) (e : Event) :
    (c.step e).value.2.engine.table.ids =
      if e.order?.isSome then c.engine.table.ids.issue.2 else c.engine.table.ids := by
  rw [(step_follows h e).ids_eq, entered_ids]

theorem step_table_home (h : c.engine.table.Sound) (e : Event) :
    (c.step e).value.2.engine.table.home = c.engine.table.home := by
  rw [WriteTable.home, step_ids h]
  split <;> rfl

/-! ## Runs -/

theorem run_cons (c : Coordinator) (e : Event) (es : List Event) :
    c.run (e :: es) = (c.step e).value.2.run es := rfl

theorem run_append (c : Coordinator) (es fs : List Event) :
    c.run (es ++ fs) = (c.run es).run fs :=
  List.foldl_append

theorem run_concat (c : Coordinator) (es : List Event) (e : Event) :
    c.run (es ++ [e]) = ((c.run es).step e).value.2 :=
  run_append c es [e]

theorem new_sound (home : NodeId) (epoch : Epoch) (s : Settings) :
    (new home epoch s).engine.table.Sound :=
  WriteTable.Sound.new home s.maxPending

theorem run_sound (h : c.engine.table.Sound) (es : List Event) :
    (c.run es).engine.table.Sound := by
  induction es generalizing c with
  | nil => exact h
  | cons e es ih => exact ih (step_sound h e)

theorem run_home (c : Coordinator) (es : List Event) :
    (c.run es).engine.view.home = c.engine.view.home := by
  induction es generalizing c with
  | nil => rfl
  | cons e es ih => rw [run_cons, ih, step_home]

theorem run_table_home (h : c.engine.table.Sound) (es : List Event) :
    (c.run es).engine.table.home = c.engine.table.home := by
  induction es generalizing c with
  | nil => rfl
  | cons e es ih => rw [run_cons, ih (step_sound h e), step_table_home h]

/-! ## Until an identifier is issued again -/

theorem not_mem_issued_cons {es : List Event} (h : id ∉ c.issued (e :: es)) :
    (e.order?.isSome = true → c.nextId ≠ id) ∧ id ∉ (c.step e).value.2.issued es := by
  rw [issued] at h
  split at h
  · rw [List.mem_cons, not_or] at h
    exact ⟨fun _ => Ne.symm h.1, h.2⟩
  · rename_i ho
    exact ⟨fun ho' => absurd ho' ho, h⟩

theorem issued_append (c : Coordinator) (es fs : List Event) :
    c.issued (es ++ fs) = c.issued es ++ (c.run es).issued fs := by
  induction es generalizing c with
  | nil => rfl
  | cons e es ih =>
    rw [List.cons_append, issued, issued, ih, run_cons]
    split
    · rw [List.cons_append]
    · rfl

/-- An event that does not issue the identifier meets just what waits under it. -/
theorem waiting?_of_ne (h : e.order?.isSome = true → c.nextId ≠ id) :
    c.waiting? e id = c.engine.table.find? id := by
  rw [← find?_entered]
  unfold entered
  cases ho : e.order? with
  | none => rfl
  | some o =>
    rw [ho] at h
    exact (WriteTable.find?_register o.1 o.2).trans (if_neg fun hid => h rfl hid.1)

theorem run_find?_of_none (hs : c.engine.table.Sound) {es : List Event} (h : id ∉ c.issued es)
    (hf : c.engine.table.find? id = none) : (c.run es).engine.table.find? id = none := by
  induction es generalizing c with
  | nil => exact hf
  | cons e es ih =>
    obtain ⟨hne, hrest⟩ := not_mem_issued_cons h
    refine ih (step_sound hs e) hrest ((step_follows hs e).find?_of_none ?_)
    rw [find?_entered, waiting?_of_ne hne, hf]

theorem run_handle?_of_none (hs : c.engine.table.Sound) {es : List Event} (h : id ∉ c.issued es)
    (hf : c.engine.table.find? id = none) :
    (c.run es).engine.table.handle? id = c.engine.table.handle? id := by
  induction es generalizing c with
  | nil => rfl
  | cons e es ih =>
    obtain ⟨hne, hrest⟩ := not_mem_issued_cons h
    have hentered : (c.entered e).find? id = none := by rw [find?_entered, waiting?_of_ne hne, hf]
    have hstep := step_follows hs e
    rw [run_cons, ih hstep.sound hrest (hstep.find?_of_none hentered),
      hstep.handle?_of_none hentered, handle?_entered_of_ne hne]

/-- A write that an event ends stays as it ends. -/
theorem run_of_settled (hs : c.engine.table.Sound) {w : PendingWrite} {o : Outcome}
    (hw : c.waiting? e id = some w) (ho : c.ruling e w = .settled o)
    (hh : (c.entered e).handle? id = some ⟨id, none⟩) {es : List Event}
    (hid : id ∉ (c.step e).value.2.issued es) :
    (c.run (e :: es)).engine.table.find? id = none ∧
      (c.run (e :: es)).engine.table.outcome? id = some o := by
  have hentered : (c.entered e).find? id = some w := find?_entered.trans hw
  have hstep := step_follows hs e
  have hnone := hstep.find?_of_settled hentered ho
  refine ⟨run_find?_of_none hstep.sound hid hnone, ?_⟩
  rw [WriteTable.outcome?, run_cons, run_handle?_of_none hstep.sound hid hnone, hstep.handle?_eq,
    hh, hentered, Option.bind_some, ho]
  rfl

end Coordinator
end BackupAcks
