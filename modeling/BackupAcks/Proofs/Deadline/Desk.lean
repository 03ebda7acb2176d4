import BackupAcks.Deadline
import BackupAcks.Proofs.Deadline.Sweeper

/-!
# Deadlines in hand

A deadline that was set and has not passed is in the queue or is kept by the sweeper: it is held.
Receiving moves a deadline from the one to the other; the alarm's turn takes out just the passed
ones that are kept.

Results:
* `mem_held_of_receive`, `heldFor_receive`: receiving neither makes nor loses deadlines;
* `Armed.expire_fst`, `Armed.kept_expire`: what the alarm's turn takes out and what it leaves;
* `receiveAll_eq`: emptying the queue is receiving what is in it one by one.
-/
namespace BackupAcks.DeadlineDesk

def kept (k : DeadlineDesk) : List Deadline := k.sweeper.elim [] (·.deadlines)

/-- The deadlines in the queue and those that the sweeper keeps. -/
def held (k : DeadlineDesk) : List Deadline := k.queue ++ k.kept

/-- The deadlines of one write that are held. -/
def heldFor (id : WriteId) (k : DeadlineDesk) : List Deadline := k.held.filter (·.id == id)

/-- The sweeper is armed while it lives, and afterwards nothing is left. -/
structure Armed (k : DeadlineDesk) : Prop where
  sweeper : ∀ s, k.sweeper = some s → s.Armed
  closed : k.isOpen = false → k.queue = []

variable {k : DeadlineDesk} {d : Deadline} {id : WriteId}

theorem heldFor_eq : k.heldFor id = k.queue.filter (·.id == id) ++ k.kept.filter (·.id == id) :=
  List.filter_append _ _

theorem Armed.new : DeadlineDesk.new.Armed :=
  ⟨fun s hs => (by cases hs; exact .new), fun _ => rfl⟩

theorem Armed.close (k : DeadlineDesk) : k.close.Armed :=
  ⟨fun s hs => (by cases hs), fun _ => rfl⟩

/-! ## Setting -/

def enqueue (d : Deadline) (k : DeadlineDesk) : DeadlineDesk := { k with queue := k.queue ++ [d] }

theorem schedule_eq (now : Instant) (id : WriteId) (timeout : Duration) :
    k.schedule now id timeout =
      if k.isOpen then .ok (k.enqueue ⟨now + min timeout maxTimeout, id, min timeout maxTimeout⟩)
      else .error .channelClosed := by
  cases hs : k.sweeper <;> simp [schedule, isOpen, hs, enqueue]

theorem Armed.enqueue (h : k.Armed) (ho : k.isOpen = true) (d : Deadline) :
    (k.enqueue d).Armed := by
  refine ⟨h.sweeper, fun hc => ?_⟩
  rw [show (k.enqueue d).isOpen = k.isOpen from rfl, ho] at hc
  cases hc

theorem mem_held_enqueue {x : Deadline} : x ∈ (k.enqueue d).held ↔ x ∈ k.held ∨ x = d := by
  change x ∈ k.queue ++ [d] ++ k.kept ↔ _
  simp only [held, List.mem_append, List.mem_singleton]
  exact or_right_comm

theorem heldFor_enqueue (d : Deadline) (k : DeadlineDesk) (id : WriteId) :
    (k.enqueue d).heldFor id =
      k.queue.filter (·.id == id) ++ [d].filter (·.id == id) ++ k.kept.filter (·.id == id) := by
  change (k.queue ++ [d] ++ k.kept).filter _ = _
  rw [List.filter_append, List.filter_append]

theorem heldFor_enqueue_of_ne (h : d.id ≠ id) : (k.enqueue d).heldFor id = k.heldFor id := by
  rw [heldFor_enqueue, heldFor_eq, List.filter_cons_of_neg (by simpa using h), List.filter_nil,
    List.append_nil]

theorem heldFor_enqueue_of_nil (h : k.heldFor d.id = []) : (k.enqueue d).heldFor d.id = [d] := by
  rw [heldFor_eq, List.append_eq_nil_iff] at h
  rw [heldFor_enqueue, h.1, h.2, List.filter_cons_of_pos (by simp)]
  rfl

/-! ## Receiving -/

theorem Armed.receive (h : k.Armed) : k.receive.Armed := by
  obtain ⟨queue, sweeper⟩ := k
  cases queue with
  | nil => exact h
  | cons d rest =>
    cases sweeper with
    | none => exact h
    | some s =>
      refine ⟨fun s' hs' => ?_, fun hc => ?_⟩
      · cases hs'
        exact (h.sweeper s rfl).add d
      · cases hc

theorem mem_held_of_receive (h : d ∈ k.receive.held) : d ∈ k.held := by
  obtain ⟨queue, sweeper⟩ := k
  cases queue with
  | nil => exact h
  | cons q rest =>
    cases sweeper with
    | none => exact h
    | some s =>
      rcases List.mem_append.1 h with h | h
      · exact List.mem_append_left _ (List.mem_cons_of_mem _ h)
      · rcases Deadline.eq_or_mem_of_mem_insert h with rfl | h
        · exact List.mem_append_left _ List.mem_cons_self
        · exact List.mem_append_right _ h

/-- The one deadline of a write stays its one deadline. -/
theorem heldFor_receive (h : k.heldFor id = [d]) : k.receive.heldFor id = [d] := by
  obtain ⟨queue, sweeper⟩ := k
  cases queue with
  | nil => exact h
  | cons q rest =>
    cases sweeper with
    | none => exact h
    | some s =>
      rw [heldFor_eq] at h ⊢
      change rest.filter _ ++ (Deadline.insert q s.deadlines).filter _ = [d]
      change (q :: rest).filter _ ++ s.deadlines.filter _ = [d] at h
      by_cases hq : q.id = id
      · rw [List.filter_cons_of_pos (by simpa using hq), List.cons_append, List.cons.injEq,
          List.append_eq_nil_iff] at h
        obtain ⟨rfl, hrest, hkept⟩ := h
        rw [← hq] at hrest hkept ⊢
        rw [hrest, Deadline.filter_insert_of_nil hkept, List.nil_append]
      · rw [List.filter_cons_of_neg (by simpa using hq)] at h
        rw [Deadline.filter_insert_of_ne hq, h]

/-- The first deadline in the queue is put among those that are kept. -/
theorem Armed.receive_of_cons (h : k.Armed) {rest : List Deadline} (hq : k.queue = d :: rest) :
    k.receive.queue = rest ∧ k.receive.kept = Deadline.insert d k.kept := by
  obtain ⟨queue, sweeper⟩ := k
  cases hq
  cases sweeper with
  | none => cases h.closed rfl
  | some s => exact ⟨rfl, rfl⟩

theorem isOpen_receive (k : DeadlineDesk) : k.receive.isOpen = k.isOpen := by
  obtain ⟨queue, sweeper⟩ := k
  cases queue with
  | nil => rfl
  | cons d rest => cases sweeper <;> rfl

theorem receive_of_nil (hq : k.queue = []) : k.receive = k := by
  simp only [receive, hq]

theorem Armed.ordered (h : k.Armed) : k.kept.Pairwise Deadline.before := by
  cases hs : k.sweeper with
  | none => simp [kept, hs]
  | some s =>
    rw [kept, hs]
    exact (h.sweeper s hs).ordered

/-! ## The alarm's turn -/

theorem expire_eq (now : Instant) (k : DeadlineDesk) :
    k.expire now =
      (k.sweeper.elim [] fun s => ((s.fire? now).getD ([], s)).1,
        { k with sweeper := k.sweeper.map fun s => ((s.fire? now).getD ([], s)).2 }) := by
  obtain ⟨queue, sweeper⟩ := k
  cases sweeper with
  | none => rfl
  | some s =>
    simp only [expire, Option.bind_some, Option.elim_some, Option.map_some]
    cases s.fire? now <;> rfl

theorem queue_expire (now : Instant) : (k.expire now).2.queue = k.queue := by
  rw [expire_eq]

theorem isOpen_expire (now : Instant) : (k.expire now).2.isOpen = k.isOpen := by
  rw [expire_eq]
  simp [isOpen]

theorem Armed.expire (h : k.Armed) (now : Instant) : (k.expire now).2.Armed := by
  refine ⟨fun s hs => ?_, fun hc => ?_⟩
  · rw [expire_eq] at hs
    obtain ⟨s', hs', rfl⟩ := Option.map_eq_some_iff.1 hs
    exact (h.sweeper s' hs').fire? now
  · rw [queue_expire]
    exact h.closed ((isOpen_expire now).symm.trans hc)

/-- Just the passed deadlines that are kept are taken out. -/
theorem Armed.expire_fst (h : k.Armed) (now : Instant) :
    (k.expire now).1 = k.kept.filter (·.due ≤ now) := by
  rw [expire_eq, kept]
  cases hs : k.sweeper with
  | none => rfl
  | some s => exact ((h.sweeper s hs).fire?_eq now).1

theorem Armed.kept_expire (h : k.Armed) (now : Instant) :
    (k.expire now).2.kept = k.kept.filter (now < ·.due) := by
  rw [expire_eq, kept, kept]
  cases hs : k.sweeper with
  | none => rfl
  | some s => exact ((h.sweeper s hs).fire?_eq now).2

theorem Armed.mem_expire_iff (h : k.Armed) (now : Instant) :
    d ∈ (k.expire now).1 ↔ d ∈ k.kept ∧ d.due ≤ now := by
  rw [h.expire_fst, List.mem_filter, decide_eq_true_eq]

theorem Armed.mem_held_of_expire (h : k.Armed) (now : Instant) (hd : d ∈ (k.expire now).2.held) :
    d ∈ k.held := by
  rw [held, queue_expire, h.kept_expire] at hd
  exact (List.mem_append.1 hd).elim (List.mem_append_left _)
    fun hd => List.mem_append_right _ (List.mem_filter.1 hd).1

/-- A write of which no deadline is taken out keeps those it has. -/
theorem Armed.heldFor_expire (h : k.Armed) {now : Instant}
    (hid : ∀ x ∈ (k.expire now).1, x.id ≠ id) : (k.expire now).2.heldFor id = k.heldFor id := by
  rw [heldFor_eq, heldFor_eq, queue_expire, h.kept_expire, List.filter_filter]
  congr 1
  refine List.filter_congr fun x hx => ?_
  by_cases hxid : x.id = id
  · have hlate : now < x.due := Nat.lt_of_not_le fun hn =>
      hid x ((h.mem_expire_iff now).2 ⟨hx, hn⟩) hxid
    simp [hxid, hlate]
  · simp [hxid]

/-! ## Receiving everything -/

theorem Armed.queue_receiveAll (h : k.Armed) : k.receiveAll.queue = [] := by
  cases hs : k.sweeper with
  | none =>
    simp only [receiveAll, hs]
    exact h.closed (by rw [isOpen, hs]; rfl)
  | some s => simp only [receiveAll, hs]

theorem isOpen_receiveAll (k : DeadlineDesk) : k.receiveAll.isOpen = k.isOpen := by
  cases hs : k.sweeper with
  | none => simp only [receiveAll, hs]
  | some s =>
    simp only [receiveAll, hs, isOpen]
    rfl

theorem deadlines_foldl_add (ds : List Deadline) (s : Sweeper) :
    (ds.foldl (fun s d => s.add d) s).deadlines = Deadline.insertAll ds s.deadlines := by
  induction ds generalizing s with
  | nil => rfl
  | cons d ds ih => exact ih (s.add d)

theorem Armed.kept_receiveAll (h : k.Armed) :
    k.receiveAll.kept = Deadline.insertAll k.queue k.kept := by
  cases hs : k.sweeper with
  | none =>
    have hqueue := h.closed (by rw [isOpen, hs]; rfl)
    simp only [receiveAll, hs, hqueue]
    rfl
  | some s =>
    simp only [receiveAll, hs, kept, Option.elim_some]
    exact deadlines_foldl_add k.queue s

/-- Emptying the queue is receiving as often as there are deadlines in it. -/
theorem receiveAll_eq (k : DeadlineDesk) :
    k.receiveAll = (List.replicate k.queue.length ()).foldl (fun k _ => k.receive) k := by
  obtain ⟨queue, sweeper⟩ := k
  cases sweeper with
  | none =>
    have hstay : ∀ n, (List.replicate n ()).foldl (fun k _ => k.receive)
        (⟨queue, none⟩ : DeadlineDesk) = ⟨queue, none⟩ := by
      intro n
      induction n with
      | zero => rfl
      | succ n ih => cases queue <;> exact ih
    exact (hstay _).symm
  | some s =>
    induction queue generalizing s with
    | nil => rfl
    | cons d rest ih => exact ih (s.add d)

theorem Armed.receiveAll (h : k.Armed) : k.receiveAll.Armed := by
  rw [receiveAll_eq]
  generalize List.replicate k.queue.length () = l
  induction l generalizing k with
  | nil => exact h
  | cons _ l ih => exact ih h.receive

end BackupAcks.DeadlineDesk
