import BackupAcks.Proofs.Coordinator.Deadlines
import BackupAcks.Proofs.Coordinator.LateRegistration

/-!
# Writes do not bear on each other

The writes of a node share a table, an assignment, a queue of deadlines and a sweeper with one alarm.
All the same, where no limit is set on the writes that wait, a write comes out as it would with any
other company: its entry and its handle are a function of what concerns it. These are its own
creation and the replies to it, that other writes are created (which moves the identifiers on, but
not for whom or for how long they wait), and what concerns every write: assignments, changes of
membership, the passing of time and the end of the sweeper.

The proof follows, beside the entry and the handle, all that they will ever be made of: the frame
that all writes share, and the deadlines of the write in the queue and with the sweeper (`Alike`).

Results:
* `frame_step`: what all writes share is moved by an event without regard to any write;
* `alike_of_unconcerned`: an event that does not concern a write changes nothing for it;
* `Alike.step`: an event that concerns it does the same in states that are alike for it;
* `run_isolated`: runs that concern a write in the same way leave it the same.
-/
namespace BackupAcks

/-! ## The deadlines of one write -/

namespace DeadlineDesk

def queuedFor (id : WriteId) (k : DeadlineDesk) : List Deadline := k.queue.filter (·.id == id)

def keptFor (id : WriteId) (k : DeadlineDesk) : List Deadline := k.kept.filter (·.id == id)

variable {k : DeadlineDesk} {d : Deadline} {id : WriteId} {now : Instant}

theorem queuedFor_enqueue (d : Deadline) (k : DeadlineDesk) (id : WriteId) :
    (k.enqueue d).queuedFor id = k.queuedFor id ++ [d].filter (·.id == id) :=
  List.filter_append _ _

theorem Armed.keptFor_receiveAll (h : k.Armed) :
    k.receiveAll.keptFor id = Deadline.insertAll (k.queuedFor id) (k.keptFor id) := by
  rw [keptFor, h.kept_receiveAll, Deadline.filter_insertAll _ h.ordered]
  rfl

theorem queuedFor_expire (k : DeadlineDesk) : (k.expire now).2.queuedFor id = k.queuedFor id := by
  rw [queuedFor, queue_expire, queuedFor]

theorem Armed.keptFor_expire (h : k.Armed) :
    (k.expire now).2.keptFor id = (k.keptFor id).filter (now < ·.due) := by
  rw [keptFor, h.kept_expire, keptFor, List.filter_comm]

/-- The deadline by which the alarm's turn ends a write. -/
theorem Armed.find?_expire (h : k.Armed) :
    (k.expire now).1.find? (·.id == id) = ((k.keptFor id).filter (·.due ≤ now)).head? := by
  rw [h.expire_fst, ← List.head?_filter, keptFor, List.filter_comm]

/-- The deadline at the front of the queue is the first of its write. -/
theorem Armed.receive_of_first (h : k.Armed) {rest : List Deadline}
    (hq : k.queue = d :: rest) (hd : d.id = id) :
    k.queuedFor id = d :: k.receive.queuedFor id ∧
      k.receive.keptFor id = Deadline.insert d (k.keptFor id) := by
  obtain ⟨hqueue, hkept⟩ := h.receive_of_cons hq
  refine ⟨?_, ?_⟩
  · rw [queuedFor, queuedFor, hqueue, hq, List.filter_cons_of_pos (by simpa using hd)]
  · rw [keptFor, hkept, Deadline.filter_insert_of_eq hd h.ordered]
    rfl

theorem Armed.receive_of_other (h : k.Armed) (hq : ∀ x, k.queue.head? = some x → x.id ≠ id) :
    k.receive.queuedFor id = k.queuedFor id ∧ k.receive.keptFor id = k.keptFor id := by
  cases hqueue : k.queue with
  | nil =>
    rw [receive_of_nil hqueue]
    exact ⟨rfl, rfl⟩
  | cons x rest =>
    have hx : x.id ≠ id := hq x (by rw [hqueue]; rfl)
    obtain ⟨hrest, hkept⟩ := h.receive_of_cons hqueue
    refine ⟨?_, ?_⟩
    · rw [queuedFor, queuedFor, hrest, hqueue, List.filter_cons_of_neg (by simpa using hx)]
    · rw [keptFor, hkept, Deadline.filter_insert_of_ne hx]
      rfl

end DeadlineDesk

/-! ## The mark of the shutdown -/

namespace WriteTable

variable {t : WriteTable}

theorem timeOut_stopped (due : List Deadline) : (Engine.timeOut due t).value.stopped = t.stopped := by
  induction due generalizing t with
  | nil => rfl
  | cons d due ih =>
    rw [Engine.timeOut_cons, ih]
    exact apply_stopped d.id .forcedCompletion _

end WriteTable

namespace Coordinator

variable {c c' : Coordinator} {e e' : Event} {id : WriteId} {o o' : Requirement × Epoch}

/-! ## What all writes share -/

/-- What all writes share. -/
@[ext]
structure Frame where
  settings : Settings
  view : ActiveView
  now : Instant
  ids : IdSource
  stopped : Bool
  isOpen : Bool

def frame (c : Coordinator) : Frame :=
  ⟨c.settings, c.engine.view, c.engine.now, c.engine.table.ids, c.engine.table.stopped,
    c.engine.desk.isOpen⟩

/-- The frame after an event. -/
def Frame.after (f : Frame) : Event → Frame
  | .create .. | .createWithTimeout .. | .createSegmented .. => { f with ids := f.ids.issue.2 }
  | .activate v => { f with view := f.view.offered v }
  | .advance d => { f with now := f.now + d }
  | .stop => { f with stopped := true, isOpen := false }
  | .sweeperLost => { f with isOpen := false }
  | _ => f

theorem armDeadline_stopped (id : WriteId) (timeout : Duration) (en : Engine) :
    (armDeadline id timeout en).value.table.stopped = en.table.stopped := by
  simp only [armDeadline, Engine.schedule, DeadlineDesk.schedule]
  split
  · rfl
  · cases en.desk.sweeper with
    | none =>
      exact WriteTable.apply_stopped id .forcedCompletion fun _ => .settled (.failure .stopping)
    | some s => rfl

theorem enroll_stopped (r : Requirement) (epoch : Epoch) (timeout : Duration) :
    (c.enroll r epoch timeout).value.2.engine.table.stopped = c.engine.table.stopped := by
  rw [enroll_engine, armDeadline_stopped]
  exact WriteTable.catchUp_stopped c.engine.view c.nextId epoch

theorem isOpen_of_order (ho : e.order? = some o) :
    (c.step e).value.2.engine.desk.isOpen = c.engine.desk.isOpen := by
  obtain ⟨d, hd⟩ := grant?_of_order (c := c) ho
  rw [step_desk_of_order hd]
  split <;> rfl

/-- What all writes share is moved on by an event without regard to any of them. -/
theorem frame_step (h : c.engine.table.Sound) (e : Event) :
    (c.step e).value.2.frame = c.frame.after e := by
  cases e using Event.byKind c with
  | order e o ho =>
    have hafter : c.frame.after e = { c.frame with ids := c.engine.table.ids.issue.2 } := by
      cases e <;> cases ho <;> rfl
    obtain ⟨timeout, hstep, -⟩ := step_of_order (c := c) ho
    have hids := step_ids h e
    rw [ho, Option.isSome_some, if_pos rfl] at hids
    rw [hafter]
    ext
    · rw [hstep]
      rfl
    · exact view_of_order ho
    · exact (congrArg (·.engine.now) hstep).trans (by rw [enroll_engine, armDeadline_now])
    · exact hids
    · exact (congrArg (·.engine.table.stopped) hstep).trans (enroll_stopped o.1 o.2 timeout)
    · exact isOpen_of_order ho
  | reply e x hr =>
    have hafter : c.frame.after e = c.frame := by
      cases e <;> first | rfl | cases hr
    rw [hafter, step_of_reply hr]
    ext
    · rfl
    · rfl
    · rfl
    · exact (deliver_follows h x.1 x.2).ids_eq
    · exact WriteTable.deliver_stopped x.1 x.2
    · rfl
  | unread sender data hr =>
    rw [step_of_unread hr]
    rfl
  | activate v =>
    obtain ⟨-, hstopped, -, hdesk⟩ := activate_frame c v
    ext
    · rfl
    · exact step_view c (.activate v)
    · rfl
    · exact step_ids h (.activate v)
    · exact hstopped
    · exact congrArg DeadlineDesk.isOpen hdesk
  | restrict members => rfl
  | stop => rfl
  | sweeperLost => rfl
  | advance d => rfl
  | receive =>
    ext
    · rfl
    · rfl
    · rfl
    · rfl
    · rfl
    · exact c.engine.desk.isOpen_receive
  | expire =>
    ext
    · rfl
    · rfl
    · rfl
    · exact (timeOut_follows h _).ids_eq
    · exact WriteTable.timeOut_stopped _
    · exact DeadlineDesk.isOpen_expire c.engine.now

/-! ## What concerns a write -/

/-- What of an event concerns a write. -/
inductive Concern where
  /-- The write itself is created. -/
  | created (e : Event)
  /-- Another write is created. -/
  | passed
  /-- A reply to the write comes in. -/
  | told (sender : NodeId) (r : Reply)
  /-- The sweeper takes the write's own deadline off its queue. -/
  | received
  /-- What happens concerns every write. -/
  | shared (e : Event)

/-- What of an event concerns the write `id`. -/
def concern? (c : Coordinator) (id : WriteId) (e : Event) : Option Concern :=
  if e.order?.isSome then some (if c.nextId = id then .created e else .passed)
  else
    match c.reply? e with
    | some x => if x.2.id = id then some (.told x.1 x.2) else none
    | none =>
      match e with
      | .receive => if c.engine.desk.queue.head?.any (·.id == id) then some .received else none
      | .bytes _ _ => none
      | e => some (.shared e)

theorem concern?_of_order (ho : e.order? = some o) :
    c.concern? id e = some (if c.nextId = id then .created e else .passed) := by
  simp only [concern?, ho, Option.isSome_some, if_true]

theorem concern?_of_reply {x : NodeId × Reply} (hr : c.reply? e = some x) :
    c.concern? id e = if x.2.id = id then some (.told x.1 x.2) else none := by
  simp only [concern?, order?_of_reply hr, hr, Option.isSome_none, Bool.false_eq_true, if_false]

theorem concern?_receive (c : Coordinator) (id : WriteId) : c.concern? id .receive =
    if c.engine.desk.queue.head?.any (·.id == id) then some .received else none :=
  rfl

/-- The ways in which an event concerns the write `id`. -/
inductive Concerns (c : Coordinator) (id : WriteId) : Event → Concern → Prop
  | created {e : Event} {o : Requirement × Epoch} (order : e.order? = some o)
      (own : c.nextId = id) : Concerns c id e (.created e)
  | passed {e : Event} {o : Requirement × Epoch} (order : e.order? = some o)
      (other : c.nextId ≠ id) : Concerns c id e .passed
  | told {e : Event} {sender : NodeId} {r : Reply} (reply : c.reply? e = some (sender, r))
      (own : r.id = id) : Concerns c id e (.told sender r)
  | received {d : Deadline} {rest : List Deadline} (first : c.engine.desk.queue = d :: rest)
      (own : d.id = id) : Concerns c id .receive .received
  | activate (v : Ownership) : Concerns c id (.activate v) (.shared (.activate v))
  | restrict (members : NodeSet) : Concerns c id (.restrict members) (.shared (.restrict members))
  | stop : Concerns c id .stop (.shared .stop)
  | sweeperLost : Concerns c id .sweeperLost (.shared .sweeperLost)
  | advance (d : Duration) : Concerns c id (.advance d) (.shared (.advance d))
  | expire : Concerns c id .expire (.shared .expire)

theorem concerns_of_eq_some {k : Concern} (h : c.concern? id e = some k) : c.Concerns id e k := by
  cases e using Event.byKind c with
  | order e o ho =>
    rw [concern?_of_order ho] at h
    cases h
    by_cases hid : c.nextId = id
    · rw [if_pos hid]
      exact .created ho hid
    · rw [if_neg hid]
      exact .passed ho hid
  | reply e x hr =>
    rw [concern?_of_reply hr] at h
    split at h
    · rename_i hid
      cases h
      exact .told hr hid
    · cases h
  | unread sender data hr =>
    simp only [concern?, hr] at h
    cases h
  | activate v => cases h; exact .activate v
  | restrict members => cases h; exact .restrict members
  | stop => cases h; exact .stop
  | sweeperLost => cases h; exact .sweeperLost
  | advance d => cases h; exact .advance d
  | receive =>
    rw [concern?_receive] at h
    cases hq : c.engine.desk.queue with
    | nil => rw [hq] at h; cases h
    | cons d rest =>
      rw [hq, List.head?_cons, Option.any_some] at h
      split at h
      · rename_i hid
        cases h
        exact .received hq (beq_iff_eq.1 hid)
      · cases h
  | expire => cases h; exact .expire

/-! ## States that are alike for a write -/

/-- A write stands the same in both states, and has the same deadlines in hand. -/
structure Alike (c c' : Coordinator) (id : WriteId) : Prop where
  same : c.SameAt c' id
  queued_eq : c.engine.desk.queuedFor id = c'.engine.desk.queuedFor id
  kept_eq : c.engine.desk.keptFor id = c'.engine.desk.keptFor id

theorem Alike.refl (c : Coordinator) (id : WriteId) : c.Alike c id := ⟨⟨rfl, rfl⟩, rfl, rfl⟩

theorem Alike.symm (h : c.Alike c' id) : c'.Alike c id :=
  ⟨h.same.symm, h.queued_eq.symm, h.kept_eq.symm⟩

theorem Alike.trans {c'' : Coordinator} (h : c.Alike c' id) (h' : c'.Alike c'' id) :
    c.Alike c'' id :=
  ⟨h.same.trans h'.same, h.queued_eq.trans h'.queued_eq, h.kept_eq.trans h'.kept_eq⟩

/-- What every run keeps in which no limit is set on the writes that wait. -/
structure Unlimited (c : Coordinator) : Prop where
  fenced : c.Fenced
  armed : c.engine.desk.Armed
  capacity : c.engine.table.capacity = 0

theorem Unlimited.step (h : c.Unlimited) (e : Event) : (c.step e).value.2.Unlimited :=
  ⟨h.fenced.step e, step_armed h.armed e,
    ((step_evolves c e).capacity h.fenced.sound).trans h.capacity⟩

theorem Unlimited.alike_of_order (h : c.Unlimited) (ho : e.order? = some o) (hid : c.nextId ≠ id) :
    (c.step e).value.2.Alike c id := by
  refine ⟨h.fenced.step_of_other ho hid, ?_, ?_⟩
  all_goals
    obtain ⟨d, hd⟩ := grant?_of_order (c := c) ho
    rw [step_desk_of_order hd]
    split
  · have hne : d.id ≠ id := by rwa [id_of_grant? hd]
    rw [DeadlineDesk.queuedFor_enqueue, List.filter_cons_of_neg (by simpa using hne),
      List.filter_nil, List.append_nil]
  · rfl
  · rfl
  · rfl

/-- An event that does not concern a write changes nothing for it, nor what all writes share. -/
theorem Unlimited.alike_of_unconcerned (h : c.Unlimited) (hc : c.concern? id e = none) :
    (c.step e).value.2.frame = c.frame ∧ (c.step e).value.2.Alike c id := by
  have hs := h.fenced.sound
  cases e using Event.byKind c with
  | order e o ho =>
    rw [concern?_of_order ho] at hc
    cases hc
  | reply e x hr =>
    have ho := order?_of_reply hr
    have hother : x.2.id ≠ id := by
      intro hid
      rw [concern?_of_reply hr, if_pos hid] at hc
      cases hc
    have hsame : (c.step e).value.2.SameAt c id := by
      refine sameAt_of_waiting hs (fun ho' => by rw [ho] at ho'; cases ho') fun w hf => ?_
      rw [ruling_of_reply hr]
      exact WriteTable.only_of_ne _ (by rw [WriteTable.id_of_find? hf]; exact Ne.symm hother)
    refine ⟨?_, hsame, ?_, ?_⟩
    · rw [frame_step hs]
      cases e <;> first | rfl | cases hr
    · rw [step_of_reply hr]
    · rw [step_of_reply hr]
  | unread sender data hr =>
    rw [step_of_unread hr]
    exact ⟨rfl, .refl c id⟩
  | receive =>
    have hfirst : ∀ x, c.engine.desk.queue.head? = some x → x.id ≠ id := by
      intro x hx hid
      rw [concern?_receive, hx, Option.any_some, if_pos (by simpa using hid)] at hc
      cases hc
    obtain ⟨hqueued, hkept⟩ := h.armed.receive_of_other hfirst
    exact ⟨frame_step hs .receive, ⟨rfl, rfl⟩, hqueued, hkept⟩
  | _ => cases hc

/-! ## The same concern in states that are alike -/

theorem Frame.after_of_order (f : Frame) (ho : e.order? = some o) :
    f.after e = { f with ids := f.ids.issue.2 } := by
  cases e <;> cases ho <;> rfl

theorem Frame.after_of_reply (f : Frame) {x : NodeId × Reply} (hr : c.reply? e = some x) :
    f.after e = f := by
  cases e <;> first | rfl | cases hr

section Congruence

variable (hf : c.frame = c'.frame) (h : c.Unlimited) (h' : c'.Unlimited)

include hf

theorem nextId_congr : c.nextId = c'.nextId := congrArg (·.ids.issue.1) hf

theorem grant?_congr (e : Event) : c.grant? e = c'.grant? e := by
  have hnow : c.engine.now = c'.engine.now := congrArg Frame.now hf
  have husual : c.usualTimeout = c'.usualTimeout :=
    congrArg (fun f : Frame => Duration.ofMillis f.settings.remoteTimeoutMs) hf
  rw [grant?, grant?, hnow, husual, nextId_congr hf]

include h h'

theorem immediateOutcome_congr (r : Requirement) :
    c.engine.table.immediateOutcome r = c'.engine.table.immediateOutcome r := by
  have hstopped : c.engine.table.stopped = c'.engine.table.stopped := congrArg Frame.stopped hf
  simp [WriteTable.immediateOutcome, hstopped, h.capacity, h'.capacity]

theorem registration?_congr (e : Event) : c.registration? e = c'.registration? e := by
  simp only [registration?, nextId_congr hf, immediateOutcome_congr hf h h']

theorem enrolRuling_congr (r : Requirement) (epoch : Epoch) :
    c.enrolRuling r epoch = c'.enrolRuling r epoch := by
  have hview : c.engine.view = c'.engine.view := congrArg Frame.view hf
  have hopen : c.engine.desk.isOpen = c'.engine.desk.isOpen := congrArg Frame.isOpen hf
  have hdeadline : c.deadlineRuling r = c'.deadlineRuling r := by
    funext w
    rw [deadlineRuling, deadlineRuling, hopen, immediateOutcome_congr hf h h']
  rw [enrolRuling, enrolRuling, nextId_congr hf, hview, hdeadline]

theorem Alike.created (ha : c.Alike c' id) (ho : e.order? = some o) (hid : c.nextId = id) :
    (c.step e).value.2.Alike (c'.step e).value.2 id := by
  have hid' : c'.nextId = id := (nextId_congr hf).symm.trans hid
  have hsame : (c.step e).value.2.SameAt (c'.step e).value.2 id := by
    refine sameAt_of_ruling h.fenced.sound h'.fenced.sound ?_ ?_ fun w _ => ?_
    · rw [waiting?, waiting?, registration?_congr hf h h', ha.same.1]
    · rw [handle?_entered_of_order ho hid, handle?_entered_of_order ho hid',
        immediateOutcome_congr hf h h']
    · rw [ruling_of_order ho, ruling_of_order ho, enrolRuling_congr hf h h']
  have hopen : c.engine.desk.isOpen = c'.engine.desk.isOpen := congrArg Frame.isOpen hf
  obtain ⟨d, hd⟩ := grant?_of_order (c := c) ho
  have hd' := (grant?_congr hf e).symm.trans hd
  have hout : (c.step e).value.2.engine.table.outcome? d.id =
      (c'.step e).value.2.engine.table.outcome? d.id := by
    rw [id_of_grant? hd, hid]
    exact congrArg (Option.bind · Handle.outcome) hsame.2
  have hdesk := step_desk_of_order hd
  have hdesk' := step_desk_of_order hd'
  rw [hout, hopen] at hdesk
  refine ⟨hsame, ?_, ?_⟩
  all_goals
    rw [hdesk, hdesk']
    split
  · rw [DeadlineDesk.queuedFor_enqueue, DeadlineDesk.queuedFor_enqueue, ha.queued_eq]
  · exact ha.queued_eq
  · exact ha.kept_eq
  · exact ha.kept_eq

/-- An event that concerns a write, and one that concerns it in the same way in a state that is
alike for it, leave states that are alike for it. -/
theorem Alike.step (ha : c.Alike c' id) {k : Concern} (hc : c.Concerns id e k)
    (hc' : c'.Concerns id e' k) : (c.step e).value.2.frame = (c'.step e').value.2.frame ∧
      (c.step e).value.2.Alike (c'.step e').value.2 id := by
  have hs := h.fenced.sound
  have hs' := h'.fenced.sound
  have hview : c.engine.view = c'.engine.view := congrArg Frame.view hf
  have hnow : c.engine.now = c'.engine.now := congrArg Frame.now hf
  rw [frame_step hs, frame_step hs', hf]
  cases hc with
  | created ho hid =>
    cases hc'
    exact ⟨rfl, ha.created hf h h' ho hid⟩
  | passed ho hid =>
    cases hc' with
    | passed ho' hid' =>
      refine ⟨by rw [Frame.after_of_order _ ho, Frame.after_of_order _ ho'], ?_⟩
      exact (h.alike_of_order ho hid).trans (ha.trans (h'.alike_of_order ho' hid').symm)
  | told hr hid =>
    cases hc' with
    | told hr' =>
      refine ⟨by rw [Frame.after_of_reply _ hr, Frame.after_of_reply _ hr'], ?_, ?_, ?_⟩
      · have hne : e.order?.isSome = true → c.nextId ≠ id := by
          rw [order?_of_reply hr]
          exact nofun
        have hne' : e'.order?.isSome = true → c'.nextId ≠ id := by
          rw [order?_of_reply hr']
          exact nofun
        refine sameAt_of_ruling hs hs' ?_ ?_ fun w _ => ?_
        · rw [waiting?_of_ne hne, waiting?_of_ne hne', ha.same.1]
        · rw [handle?_entered_of_ne hne, handle?_entered_of_ne hne', ha.same.2]
        · rw [ruling_of_reply hr, ruling_of_reply hr']
      · rw [step_of_reply hr, step_of_reply hr']
        exact ha.queued_eq
      · rw [step_of_reply hr, step_of_reply hr']
        exact ha.kept_eq
  | @received d rest hfirst hid =>
    cases hc' with
    | @received d' rest' hfirst' hid' =>
      obtain ⟨hqueued, hkept⟩ := h.armed.receive_of_first hfirst hid
      obtain ⟨hqueued', hkept'⟩ := h'.armed.receive_of_first hfirst' hid'
      have hq := ha.queued_eq
      rw [hqueued, hqueued', List.cons.injEq] at hq
      refine ⟨rfl, ha.same, hq.2, ?_⟩
      refine hkept.trans (Eq.trans ?_ hkept'.symm)
      rw [hq.1, ha.kept_eq]
  | activate v =>
    cases hc'
    refine ⟨rfl, ha.same.activate hs hs' hview v, ?_, ?_⟩
    · rw [(activate_frame c v).2.2.2, (activate_frame c' v).2.2.2, ha.queued_eq]
    · rw [(activate_frame c v).2.2.2, (activate_frame c' v).2.2.2, ha.kept_eq]
  | restrict members =>
    cases hc'
    exact ⟨rfl, sameAt_of_ruling hs hs' ha.same.1 ha.same.2 fun _ _ => rfl, ha.queued_eq, ha.kept_eq⟩
  | stop =>
    cases hc'
    exact ⟨rfl, sameAt_of_ruling hs hs' ha.same.1 ha.same.2 fun _ _ => rfl, rfl, rfl⟩
  | sweeperLost =>
    cases hc'
    exact ⟨rfl, ha.same, rfl, rfl⟩
  | advance d =>
    cases hc'
    exact ⟨rfl, ha.same, ha.queued_eq, ha.kept_eq⟩
  | expire =>
    cases hc'
    have hdue : ∀ w : PendingWrite, w.id = id →
        c.ruling .expire w = c'.ruling .expire w := by
      intro w hw
      simp only [ruling, Deadline.ruling, hw, h.armed.find?_expire, h'.armed.find?_expire,
        ha.kept_eq, hnow]
    refine ⟨rfl, sameAt_of_ruling hs hs' ha.same.1 ha.same.2 hdue, ?_, ?_⟩
    · exact (DeadlineDesk.queuedFor_expire c.engine.desk).trans
        (ha.queued_eq.trans (DeadlineDesk.queuedFor_expire c'.engine.desk).symm)
    · refine (h.armed.keptFor_expire).trans (Eq.trans ?_ (h'.armed.keptFor_expire).symm)
      rw [ha.kept_eq, hnow]

end Congruence

/-! ## The sweeper does all that is due -/

def receiveAll (c : Coordinator) : Coordinator :=
  { c with engine := { c.engine with desk := c.engine.desk.receiveAll } }

theorem settle_value (c : Coordinator) : c.settle.value = (c.receiveAll.step .expire).value.2 := rfl

theorem frame_receiveAll (c : Coordinator) : c.receiveAll.frame = c.frame := by
  rw [frame, frame, receiveAll, DeadlineDesk.isOpen_receiveAll]

theorem Unlimited.receiveAll (h : c.Unlimited) : c.receiveAll.Unlimited :=
  ⟨⟨h.fenced.sound, h.fenced.current, h.fenced.fence⟩, h.armed.receiveAll, h.capacity⟩

theorem Unlimited.settle (h : c.Unlimited) : c.settle.value.Unlimited := h.receiveAll.step .expire

theorem Unlimited.frame_settle (h : c.Unlimited) : c.settle.value.frame = c.frame := by
  rw [settle_value, frame_step h.receiveAll.fenced.sound, frame_receiveAll]
  rfl

theorem Unlimited.queuedFor_receiveAll (h : c.Unlimited) :
    c.receiveAll.engine.desk.queuedFor id = [] := by
  rw [DeadlineDesk.queuedFor, Coordinator.receiveAll, h.armed.queue_receiveAll, List.filter_nil]

theorem Alike.settle (ha : c.Alike c' id) (hf : c.frame = c'.frame) (h : c.Unlimited)
    (h' : c'.Unlimited) : c.settle.value.Alike c'.settle.value id := by
  have hreceived : c.receiveAll.Alike c'.receiveAll id := by
    refine ⟨ha.same, ?_, ?_⟩
    · rw [h.queuedFor_receiveAll, h'.queuedFor_receiveAll]
    · refine h.armed.keptFor_receiveAll.trans (Eq.trans ?_ h'.armed.keptFor_receiveAll.symm)
      rw [ha.queued_eq, ha.kept_eq]
  have hframe : c.receiveAll.frame = c'.receiveAll.frame := by
    rw [frame_receiveAll, frame_receiveAll, hf]
  exact (hreceived.step hframe h.receiveAll h'.receiveAll .expire .expire).2

/-- The sweeper has nothing to do for a write: none of its deadlines is in the queue, and none that
it keeps has passed. -/
structure UpToDate (c : Coordinator) (id : WriteId) : Prop where
  queued : c.engine.desk.queuedFor id = []
  later : ∀ d ∈ c.engine.desk.keptFor id, c.engine.now < d.due

theorem UpToDate.of_alike (hu : c'.UpToDate id) (ha : c.Alike c' id) (hf : c.frame = c'.frame) :
    c.UpToDate id := by
  have hnow : c.engine.now = c'.engine.now := congrArg Frame.now hf
  refine ⟨ha.queued_eq.trans hu.queued, fun d hd => ?_⟩
  rw [ha.kept_eq] at hd
  rw [hnow]
  exact hu.later d hd

theorem Unlimited.upToDate_settle (h : c.Unlimited) (id : WriteId) :
    c.settle.value.UpToDate id := by
  refine ⟨(DeadlineDesk.queuedFor_expire _).trans h.queuedFor_receiveAll, fun d hd => ?_⟩
  change d ∈ (c.receiveAll.engine.desk.expire c.engine.now).2.keptFor id at hd
  change c.engine.now < d.due
  rw [h.receiveAll.armed.keptFor_expire] at hd
  simpa using (List.mem_filter.1 hd).2

/-- Where the sweeper has nothing to do for a write, its work changes nothing for it. -/
theorem Unlimited.alike_settle (h : c.Unlimited) (hu : c.UpToDate id) :
    c.settle.value.Alike c id := by
  have hkept : c.receiveAll.engine.desk.keptFor id = c.engine.desk.keptFor id := by
    refine h.armed.keptFor_receiveAll.trans ?_
    rw [hu.queued]
    rfl
  have hdue : ∀ d ∈ c.receiveAll.engine.desk.keptFor id, c.engine.now < d.due := by
    rw [hkept]
    exact hu.later
  have hnone : (c.receiveAll.engine.desk.expire c.engine.now).1.find? (·.id == id) = none := by
    rw [h.receiveAll.armed.find?_expire, List.head?_eq_none_iff, List.filter_eq_nil_iff]
    intro d hd
    simpa using hdue d hd
  have hwaiting : ∀ w : PendingWrite, w.id = id → c.receiveAll.ruling .expire w = .waiting w := by
    intro w hw
    change Deadline.ruling (c.receiveAll.engine.desk.expire c.engine.now).1 w = .waiting w
    rw [Deadline.ruling, hw, hnone]
  have hsame : (c.receiveAll.step .expire).value.2.SameAt c.receiveAll id :=
    sameAt_of_waiting h.receiveAll.fenced.sound (fun ho => by cases ho)
      fun w hf => hwaiting w (WriteTable.id_of_find? hf)
  refine ⟨hsame, ?_, ?_⟩
  · rw [(h.upToDate_settle id).queued, hu.queued]
  · refine h.receiveAll.armed.keptFor_expire.trans (Eq.trans ?_ hkept)
    refine List.filter_eq_self.2 fun d hd => ?_
    simpa using hdue d hd

/-! ## Runs -/

/-- When the sweeper works: at events of its own, in any order with the others, or after each event
until nothing is due. -/
inductive Pace where
  | free | prompt

def Pace.next : Pace → Coordinator → Event → Coordinator
  | .free, c, e => (c.step e).value.2
  | .prompt, c, e => (c.step e).value.2.settle.value

def paced (p : Pace) (c : Coordinator) (es : List Event) : Coordinator := es.foldl p.next c

/-- What of a run concerns the write `id`. -/
def concerns (p : Pace) (id : WriteId) (c : Coordinator) : List Event → List Concern
  | [] => []
  | e :: es => (c.concern? id e).toList ++ concerns p id (p.next c e) es

/-- What is kept at either pace. -/
structure Kept (p : Pace) (id : WriteId) (c : Coordinator) : Prop where
  unlimited : c.Unlimited
  upToDate : p = .prompt → c.UpToDate id

variable {p : Pace}

theorem Kept.next (h : c.Kept p id) (e : Event) : (p.next c e).Kept p id := by
  cases p with
  | free => exact ⟨h.unlimited.step e, nofun⟩
  | prompt =>
    exact ⟨(h.unlimited.step e).settle, fun _ => (h.unlimited.step e).upToDate_settle id⟩

/-- Two runs have come to states that share the frame and are alike for the write. -/
structure Twins (p : Pace) (id : WriteId) (c c' : Coordinator) : Prop where
  left : c.Kept p id
  right : c'.Kept p id
  frame_eq : c.frame = c'.frame
  alike : c.Alike c' id

theorem Twins.symm (h : Twins p id c c') : Twins p id c' c :=
  ⟨h.right, h.left, h.frame_eq.symm, h.alike.symm⟩

theorem Twins.skip (h : Twins p id c c') (hc : c.concern? id e = none) :
    Twins p id (p.next c e) c' := by
  have hu := h.left.unlimited
  obtain ⟨hframe, halike⟩ := hu.alike_of_unconcerned hc
  refine ⟨h.left.next e, h.right, Eq.trans ?_ h.frame_eq, Alike.trans ?_ h.alike⟩
  · cases p with
    | free => exact hframe
    | prompt => exact (hu.step e).frame_settle.trans hframe
  · cases p with
    | free => exact halike
    | prompt =>
      have hdate := (h.left.upToDate rfl).of_alike halike hframe
      exact ((hu.step e).alike_settle hdate).trans halike

theorem Twins.next (h : Twins p id c c') {k : Concern} (hc : c.concern? id e = some k)
    (hc' : c'.concern? id e' = some k) : Twins p id (p.next c e) (p.next c' e') := by
  have hu := h.left.unlimited
  have hu' := h.right.unlimited
  obtain ⟨hframe, halike⟩ := h.alike.step h.frame_eq hu hu' (concerns_of_eq_some hc)
    (concerns_of_eq_some hc')
  refine ⟨h.left.next e, h.right.next e', ?_, ?_⟩
  · cases p with
    | free => exact hframe
    | prompt => rw [Pace.next, Pace.next, (hu.step e).frame_settle, (hu'.step e').frame_settle, hframe]
  · cases p with
    | free => exact halike
    | prompt => exact halike.settle hframe (hu.step e) (hu'.step e')

theorem Twins.paced_of_no_concerns (h : Twins p id c c') {es : List Event}
    (hes : concerns p id c es = []) : Twins p id (paced p c es) c' := by
  induction es generalizing c with
  | nil => exact h
  | cons e es ih =>
    rw [concerns, List.append_eq_nil_iff, Option.toList_eq_nil_iff] at hes
    exact ih (h.skip hes.1) hes.2

theorem Twins.paced (h : Twins p id c c') {es fs : List Event}
    (hes : concerns p id c es = concerns p id c' fs) :
    Twins p id (paced p c es) (paced p c' fs) := by
  induction es generalizing c c' fs with
  | nil => exact (h.symm.paced_of_no_concerns hes.symm).symm
  | cons e es ih =>
    cases hc : c.concern? id e with
    | none =>
      rw [concerns, hc] at hes
      exact ih (h.skip hc) hes
    | some k =>
      -- the other run goes on until it comes to the same concern
      induction fs generalizing c' with
      | nil =>
        simp only [concerns, hc] at hes
        cases hes
      | cons f fs ihf =>
        cases hc' : c'.concern? id f with
        | none =>
          refine ihf (h.symm.skip hc').symm ?_
          rw [hes, concerns, hc']
          rfl
        | some k' =>
          rw [concerns, concerns, hc, hc', Option.toList_some, Option.toList_some,
            List.singleton_append, List.singleton_append, List.cons.injEq] at hes
          obtain ⟨rfl, hes⟩ := hes
          exact ih (h.next hc hc') hes

theorem new_twins (home : NodeId) (epoch : Epoch) {s : Settings} (hlimit : s.maxPending = 0)
    (p : Pace) (id : WriteId) :
    Twins p id (new home epoch s) (new home epoch s) := by
  have hkept : (new home epoch s).Kept p id :=
    ⟨⟨new_fenced home epoch s, new_armed home epoch s, hlimit⟩, fun _ => ⟨rfl, nofun⟩⟩
  exact ⟨hkept, hkept, rfl, .refl _ id⟩

/-- **Writes are isolated.** Let no limit be set on the writes that wait, and let two runs concern a
write in the same way: it is created by the same call after as many others and gets the same
replies, and the same assignments, changes of membership and passing of time come in between. For
whom and for how long the other writes wait, and what is said of them, may differ in every way. Then
the write waits for the same pairs at the same epoch in both, if it waits, and has the same outcome,
at whichever pace the sweeper works. -/
theorem run_isolated (home : NodeId) (epoch : Epoch) (s : Settings) (hlimit : s.maxPending = 0)
    (p : Pace) (id : WriteId) (es fs : List Event)
    (h : concerns p id (new home epoch s) es = concerns p id (new home epoch s) fs) :
    (paced p (new home epoch s) es).SameAt (paced p (new home epoch s) fs) id :=
  ((new_twins home epoch hlimit p id).paced h).alike.same

/-- The second write is confirmed by one backup and moved on by an activation; the first one waits
for long, and is confirmed. -/
def patientCompany : List Event :=
  [.create (.ofList [7, 9]) 3 5, .createSegmented (.ofList [(0, .ofList [1, 2])]) 5,
   .ack ⟨0, 0⟩ 9 5, .segmentAck ⟨0, 1⟩ 1 5 0, .advance (Duration.ofMillis 20), .ack ⟨0, 0⟩ 7 5,
   .activate (.of 6 [] (.ofList [(0, [0, 2, 3])]))]

/-- The same of the second write; the first one times out at once, and is said to have failed. -/
def hastyCompany : List Event :=
  [.createWithTimeout (.ofList [2]) 0 4 0, .createSegmented (.ofList [(0, .ofList [1, 2])]) 5,
   .reply 1 (.segmentAck ⟨0, 1⟩ 5 0), .advance (Duration.ofMillis 20),
   .activate (.of 6 [] (.ofList [(0, [0, 2, 3])])), .error ⟨0, 0⟩ 2 4 "disk"]

theorem run_isolated_company :
    Settings.default.maxPending = 0 ∧
      concerns .prompt ⟨0, 1⟩ (new 0 5 .default) patientCompany =
        concerns .prompt ⟨0, 1⟩ (new 0 5 .default) hastyCompany ∧
      (paced .prompt (new 0 5 .default) patientCompany).SameAt
        (paced .prompt (new 0 5 .default) hastyCompany) ⟨0, 1⟩ := by
  have hconcerns : concerns .prompt ⟨0, 1⟩ (new 0 5 .default) patientCompany =
      concerns .prompt ⟨0, 1⟩ (new 0 5 .default) hastyCompany := by rfl
  exact ⟨rfl, hconcerns, run_isolated 0 5 .default rfl .prompt ⟨0, 1⟩ _ _ hconcerns⟩

end Coordinator
end BackupAcks
