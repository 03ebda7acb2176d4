import BackupAcks.Proofs.Coordinator.Deadlines
import BackupAcks.Proofs.Coordinator.Discharge

/-!
# Which events fail a write

A write that waits is failed by a report that is not stale, by meeting a newer assignment under
which the node lost a segment that the write waits for (`Moved`), by the alarm's turn after its
deadline was received and has passed, by the shutdown, and by being registered when the sweeper is
gone. Nothing else fails it (`Fails`), and each cause dictates the failure.

Results:
* `Watched.decides_iff`: the ruling of an event ends the write just as the event decides it, as a
  success or as a failure.
-/
namespace BackupAcks

namespace Coordinator

open WriteTable (only only_self only_of_ne)

/-- The write meets a newer assignment under which the node is not primary of a segment that the
write waits for. -/
structure Moved (c : Coordinator) (w : PendingWrite) (e : Event) (v : Ownership) : Prop where
  meets : c.Meets w e v
  newer : w.epoch < v.epoch
  lost : ∃ p ∈ w.requirement.pairs, v.primary? p.1 ≠ some c.engine.view.home

/-- The event fails the waiting write `w`, whose deadline is `d`. -/
inductive Fails (c : Coordinator) (d : Deadline) (w : PendingWrite) (e : Event) : Failure → Prop
  /-- A failure is reported that is not stale; whoever else is still waited for. -/
  | reported {n : NodeId} {t : Epoch} {cause : String}
      (reply : c.reply? e = some (n, .errorAck w.id t cause)) (current : w.epoch ≤ t) :
      Fails c d w e (.remote n cause)
  /-- The node lost a segment. -/
  | moved {v : Ownership} (moved : c.Moved w e v) : Fails c d w e (.topologyChanged v.epoch)
  /-- The deadline has passed when the alarm has its turn. -/
  | expired (turn : e = .expire) (received : d ∈ c.engine.desk.kept)
      (passed : d.due ≤ c.engine.now) : Fails c d w e (.timeout (Duration.toMillis d.timeout))
  /-- Collection is shut down. -/
  | stopped (stop : e = .stop) : Fails c d w e .stopping
  /-- The write is registered and goes on waiting, but no deadline can be set any more. -/
  | unattended (entry : c.registration? e = some w) (closed : c.engine.desk.isOpen = false)
      (stays : ∀ v, ¬ c.Moved w e v) (owed : ∃ p ∈ w.requirement.pairs, ¬ c.Discharges w e p) :
      Fails c d w e .stopping

/-- The event ends the waiting write `w`, whose deadline is `d`. -/
inductive Decides (c : Coordinator) (d : Deadline) (w : PendingWrite) (e : Event) : Outcome → Prop
  /-- All that is outstanding is discharged. -/
  | success (discharged : ∀ p ∈ w.requirement.pairs, c.Discharges w e p) : Decides c d w e .success
  | failure {f : Failure} (fails : c.Fails d w e f) : Decides c d w e (.failure f)

variable {c : Coordinator} {d : Deadline} {w : PendingWrite} {e : Event} {f : Failure}
  {ρ : Ruling}

/-! ## Causes of each kind -/

/-- What neither comes in nor moves the write nor registers it can only be its deadline or the
shutdown. -/
theorem fails_iff_of_quiet (hreply : c.reply? e = none) (hmoved : ∀ v, ¬ c.Moved w e v)
    (hr : c.registration? e ≠ some w) :
    c.Fails d w e f ↔
      (e = .expire ∧ d ∈ c.engine.desk.kept ∧ d.due ≤ c.engine.now ∧
        f = .timeout (Duration.toMillis d.timeout)) ∨ (e = .stop ∧ f = .stopping) := by
  constructor
  · intro h
    cases h with
    | reported h _ => rw [hreply] at h; cases h
    | moved h => exact absurd h (hmoved _)
    | expired turn received passed => exact .inl ⟨turn, received, passed, rfl⟩
    | stopped stop => exact .inr ⟨stop, rfl⟩
    | unattended h _ _ _ => exact absurd h hr
  · intro h
    rcases h with ⟨turn, received, passed, rfl⟩ | ⟨stop, rfl⟩
    · exact .expired turn received passed
    · exact .stopped stop

theorem fails_iff_of_reply {n : NodeId} {r : Reply} (h : c.reply? e = some (n, r)) :
    c.Fails d w e f ↔
      ∃ t cause, r = .errorAck w.id t cause ∧ w.epoch ≤ t ∧ f = .remote n cause := by
  have hr : c.registration? e ≠ some w := by
    rw [registration?_of_order (order?_of_reply h)]
    simp
  constructor
  · intro hf
    cases hf with
    | reported h' current =>
      rw [h] at h'
      cases h'
      exact ⟨_, _, rfl, current, rfl⟩
    | moved hm => exact absurd hm.meets (not_meets (offer?_of_reply h) hr _)
    | expired turn _ _ => rw [turn] at h; cases h
    | stopped stop => rw [stop] at h; cases h
    | unattended entry _ _ _ => exact absurd entry hr
  · intro hx
    obtain ⟨t, cause, rfl, current, rfl⟩ := hx
    exact .reported h current

theorem fails_iff_of_offer {v : Ownership} (h : e.offer? = some v) :
    c.Fails d w e f ↔ ∃ u, c.Moved w e u ∧ f = .topologyChanged u.epoch := by
  obtain rfl := eq_activate_of_offer h
  constructor
  · intro hf
    cases hf with
    | reported h' _ => cases h'
    | moved hm => exact ⟨_, hm, rfl⟩
    | expired turn _ _ => cases turn
    | stopped stop => cases stop
    | unattended entry _ _ _ => cases entry
  · intro hx
    obtain ⟨u, hm, rfl⟩ := hx
    exact .moved hm

/-- A registration can only find the write moved, or the sweeper gone. -/
theorem fails_iff_of_registration (h : c.registration? e = some w) :
    c.Fails d w e f ↔ (∃ u, c.Moved w e u ∧ f = .topologyChanged u.epoch) ∨
      (c.engine.desk.isOpen = false ∧ (∀ v, ¬ c.Moved w e v) ∧
        (∃ p ∈ w.requirement.pairs, ¬ c.Discharges w e p) ∧ f = .stopping) := by
  obtain ⟨-, ho, -⟩ := registration?_eq_some_iff.1 h
  constructor
  · intro hf
    cases hf with
    | reported h' _ => rw [reply?_of_order ho] at h'; cases h'
    | moved hm => exact .inl ⟨_, hm, rfl⟩
    | expired turn _ _ => rw [turn] at ho; cases ho
    | stopped stop => rw [stop] at ho; cases ho
    | unattended _ closed stays owed => exact .inr ⟨closed, stays, owed, rfl⟩
  · intro hx
    rcases hx with ⟨u, hm, rfl⟩ | ⟨closed, stays, owed, rfl⟩
    · exact .moved hm
    · exact .unattended h closed stays owed

/-! ## Each event fails as it says -/

theorem reply_fails_iff {n : NodeId} {r : Reply} (h : c.reply? e = some (n, r)) :
    (c.ruling e w).outcome? = some (.failure f) ↔ c.Fails d w e f := by
  rw [ruling_of_reply h, fails_iff_of_reply h]
  by_cases hid : w.id = r.id
  · rw [← hid, only_self]
    cases r with
    | ack id t =>
      simp only [Reply.ruling, reduceCtorEq, false_and, exists_false, iff_false]
      exact PendingWrite.ack_not_failure
    | segmentAck id t s =>
      simp only [Reply.ruling, reduceCtorEq, false_and, exists_false, iff_false]
      exact PendingWrite.ack_not_failure
    | errorAck id t cause =>
      rw [Reply.ruling, PendingWrite.error_failure_iff]
      constructor
      · intro hx
        exact ⟨t, cause, by rw [hid]; rfl, hx.1, hx.2⟩
      · intro hx
        obtain ⟨t', cause', heq, ht, hf⟩ := hx
        cases heq
        exact ⟨ht, hf⟩
  · rw [only_of_ne _ hid]
    constructor
    · intro hx; cases hx
    · intro hx
      obtain ⟨t, cause, rfl, -, -⟩ := hx
      exact absurd rfl hid

theorem adopt_fails_iff (hl : w.requirement.Live) {v : Ownership} (hv : c.Meets w e v)
    (huniq : ∀ u, c.Meets w e u → u = v) :
    (w.adopt c.engine.view.home v).outcome? = some (.failure f) ↔
      ∃ u, c.Moved w e u ∧ f = .topologyChanged u.epoch := by
  rw [PendingWrite.adopt_failure_iff hl]
  constructor
  · intro hx
    obtain ⟨hlt, hlost, hf⟩ := hx
    exact ⟨v, ⟨hv, hlt, hlost⟩, hf⟩
  · intro hx
    obtain ⟨u, hu, hf⟩ := hx
    obtain rfl := huniq u hu.meets
    exact ⟨hu.newer, hu.lost, hf⟩

theorem activate_fails_iff (hl : w.requirement.Live) (v : Ownership) :
    (c.ruling (.activate v) w).outcome? = some (.failure f) ↔ c.Fails d w (.activate v) f := by
  rw [fails_iff_of_offer (v := v) rfl]
  by_cases hold : v.epoch < c.engine.view.epoch
  · simp only [ruling, if_pos hold]
    constructor
    · intro hx; cases hx
    · intro hx
      obtain ⟨u, hu, -⟩ := hx
      exact absurd hold (UInt32.not_lt.2 (meets_activate hu.meets).2)
  · simp only [ruling, if_neg hold]
    exact adopt_fails_iff hl (.offered rfl (UInt32.not_lt.1 hold)) fun u hu => (meets_activate hu).1

theorem Fenced.catchUp_fails_iff (h : c.Fenced) (hr : c.registration? e = some w)
    (hl : w.requirement.Live) :
    (c.engine.view.catchUpRuling w.epoch w).outcome? = some (.failure f) ↔
      ∃ u, c.Moved w e u ∧ f = .topologyChanged u.epoch := by
  obtain ⟨-, ho, -⟩ := registration?_eq_some_iff.1 hr
  have hmeets : ∀ u, c.Meets w e u → c.engine.view.latest = some u :=
    fun u => latest_of_meets (offer?_of_order ho)
  rw [h.catchUpRuling_eq]
  cases hv : c.engine.view.latest with
  | none =>
    constructor
    · intro hx; cases hx
    · intro hx
      obtain ⟨u, hu, -⟩ := hx
      have := hmeets u hu.meets
      rw [hv] at this
      cases this
  | some v =>
    refine adopt_fails_iff hl (.registered hr hv) fun u hu => ?_
    have := hmeets u hu
    rw [hv] at this
    exact (Option.some.inj this).symm

theorem outcome?_enrolRuling (hr : c.registration? e = some w) (hl : w.requirement.Live) :
    (c.enrolRuling w.requirement w.epoch w).outcome? =
      (c.engine.view.catchUpRuling w.epoch w).outcome?.or
        (if c.engine.desk.isOpen then none else some (.failure .stopping)) := by
  rw [enrolRuling_of_registration hr hl]
  cases c.engine.desk.isOpen with
  | true => simp
  | false => cases (c.engine.view.catchUpRuling w.epoch w).outcome? <;> rfl

/-- A write that goes on waiting has something outstanding, so it succeeds once nothing is. -/
theorem Accounts.success_iff (h : c.Accounts w e ρ)
    (hl : ∀ x, ρ.remaining? w = some x → x.requirement.Live) :
    ρ.outcome? = some .success ↔ ∀ p ∈ w.requirement.pairs, c.Discharges w e p := by
  refine ⟨fun ho => (h.outcome _ ho).1 rfl, fun hall => ?_⟩
  cases ho : ρ.outcome? with
  | some o => rw [(h.outcome o ho).2 hall]
  | none =>
    obtain ⟨x, hx⟩ := exists_remaining? (w := w) ho
    obtain ⟨p, hp⟩ := (hl x hx).exists_mem_pairs
    obtain ⟨hpw, hd⟩ := (h.pairs x hx p).1 hp
    exact absurd (hall p hpw) hd

/-- Catching up leaves a write waiting that keeps its segments and has something outstanding. -/
theorem Fenced.catchUp_undecided_iff (h : c.Fenced) (hr : c.registration? e = some w)
    (hl : w.requirement.Live) :
    (c.engine.view.catchUpRuling w.epoch w).outcome? = none ↔
      (∀ v, ¬ c.Moved w e v) ∧ ∃ p ∈ w.requirement.pairs, ¬ c.Discharges w e p := by
  have hsuccess := (h.catchUp_accounts hr hl).success_iff
    fun x hx => ((lawful_catchUp c.engine.view w.epoch).remaining hl hx).live
  constructor
  · intro ho
    refine ⟨fun v hv => ?_, ?_⟩
    · have hfailed := (h.catchUp_fails_iff hr hl).2 ⟨v, hv, rfl⟩
      rw [ho] at hfailed
      cases hfailed
    · by_contra hall
      have hdone := hsuccess.2 fun p hp => Classical.byContradiction fun hd => hall ⟨p, hp, hd⟩
      rw [ho] at hdone
      cases hdone
  · intro hx
    obtain ⟨hstays, p, hp, hd⟩ := hx
    cases ho : (c.engine.view.catchUpRuling w.epoch w).outcome? with
    | none => rfl
    | some o =>
      cases o with
      | success => exact absurd (hsuccess.1 ho p hp) hd
      | failure f =>
        obtain ⟨u, hu, -⟩ := (h.catchUp_fails_iff hr hl).1 ho
        exact absurd hu (hstays u)

theorem Fenced.registered_fails_iff (h : c.Fenced) (hr : c.registration? e = some w)
    (hl : w.requirement.Live) :
    (c.enrolRuling w.requirement w.epoch w).outcome? = some (.failure f) ↔ c.Fails d w e f := by
  rw [fails_iff_of_registration hr, outcome?_enrolRuling hr hl, Option.or_eq_some_iff,
    h.catchUp_fails_iff hr hl, h.catchUp_undecided_iff hr hl]
  refine or_congr_right ?_
  cases c.engine.desk.isOpen with
  | true => simp
  | false => simp [and_assoc, eq_comm]

/-! ## Deadlines -/

/-- The deadline `d` is the only one that its write can have. -/
structure Watched (c : Coordinator) (d : Deadline) : Prop where
  fenced : c.Fenced
  armed : c.engine.desk.Armed
  own : ∀ x ∈ c.engine.desk.held, x.id = d.id → x = d

theorem Watched.expire_fails_iff (h : c.Watched d) (hid : w.id = d.id) :
    (c.ruling .expire w).outcome? = some (.failure f) ↔ c.Fails d w .expire f := by
  have hown : ∀ x ∈ (c.engine.desk.expire c.engine.now).1, x.id = w.id → x = d := by
    intro x hx hxid
    obtain ⟨hk, -⟩ := (h.armed.mem_expire_iff c.engine.now).1 hx
    exact h.own x (List.mem_append_right _ hk) (hxid.trans hid)
  rw [fails_iff_of_quiet rfl (fun v hv => not_meets rfl (by intro h; cases h) v hv.meets)
    (by intro h; cases h), ruling, Deadline.ruling]
  cases hfind : (c.engine.desk.expire c.engine.now).1.find? (·.id == w.id) with
  | none =>
    constructor
    · intro hx; cases hx
    · intro hx
      rcases hx with ⟨-, hk, hpassed, -⟩ | ⟨hstop, -⟩
      · have := List.find?_eq_none.1 hfind d ((h.armed.mem_expire_iff c.engine.now).2 ⟨hk, hpassed⟩)
        simp [hid] at this
      · cases hstop
  | some x =>
    have hx := List.mem_of_find?_eq_some hfind
    obtain rfl := hown x hx (by simpa using List.find?_some hfind)
    obtain ⟨hk, hpassed⟩ := (h.armed.mem_expire_iff c.engine.now).1 hx
    simp [Ruling.outcome?, hk, hpassed, eq_comm]

/-! ## Every event -/

theorem not_failed_of_quiet (ho : e.order? = none) (hreply : c.reply? e = none)
    (hv : e.offer? = none) (hstop : e ≠ .stop) (hexpire : e ≠ .expire) :
    (c.ruling e w).outcome? ≠ some (.failure f) := by
  cases e with
  | create | createWithTimeout | createSegmented => cases ho
  | ack | segmentAck | error | failLocally | reply => cases hreply
  | bytes sender bytes =>
    cases hd : Reply.decode bytes with
    | ok r => simp [reply?, hd, Except.toOption] at hreply
    | error reason => simp [ruling, hd, Ruling.outcome?]
  | activate => cases hv
  | restrict members => exact PendingWrite.dropDeparted_not_failure
  | stop => exact absurd rfl hstop
  | expire => exact absurd rfl hexpire
  | sweeperLost | advance | receive => simp [ruling, Ruling.outcome?]

theorem Watched.fails_iff (h : c.Watched d) (hw : c.waiting? e d.id = some w) :
    (c.ruling e w).outcome? = some (.failure f) ↔ c.Fails d w e f := by
  have hl := h.fenced.live hw
  have hid := id_of_waiting? hw
  cases ho : e.order? with
  | some o =>
    by_cases hr : c.registration? e = some w
    · obtain ⟨-, how, -⟩ := registration?_eq_some_iff.1 hr
      rw [ruling_of_order how]
      exact h.fenced.registered_fails_iff hr hl
    · rw [ruling_of_order ho, h.fenced.enrolRuling_of_ne ho (by rw [hid]; exact hw) hr,
        fails_iff_of_quiet (reply?_of_order ho)
          (fun v hv => not_meets (offer?_of_order ho) hr v hv.meets) hr]
      constructor
      · intro hx; cases hx
      · intro hx
        rcases hx with ⟨rfl, -⟩ | ⟨rfl, -⟩ <;> cases ho
  | none =>
    have hr : c.registration? e ≠ some w := by rw [registration?_of_order ho]; simp
    cases hreply : c.reply? e with
    | some x => exact reply_fails_iff hreply
    | none =>
      cases hv : e.offer? with
      | some v =>
        rw [eq_activate_of_offer hv]
        exact activate_fails_iff hl v
      | none =>
        have hmoved : ∀ v, ¬ c.Moved w e v := fun v hm => not_meets hv hr v hm.meets
        by_cases hstop : e = .stop
        · subst hstop
          rw [fails_iff_of_quiet hreply hmoved hr]
          simp [ruling, Ruling.outcome?, eq_comm]
        · by_cases hexpire : e = .expire
          · rw [hexpire]
            exact h.expire_fails_iff hid
          · rw [fails_iff_of_quiet hreply hmoved hr]
            simp [not_failed_of_quiet ho hreply hv hstop hexpire, hstop, hexpire]

/-- **An event ends the write just as it decides it.** -/
theorem Watched.decides_iff (h : c.Watched d) (hw : c.waiting? e d.id = some w) {o : Outcome} :
    (c.ruling e w).outcome? = some o ↔ c.Decides d w e o := by
  have hid := id_of_waiting? hw
  cases o with
  | failure f =>
    rw [h.fails_iff hw]
    exact ⟨.failure, fun hd => by cases hd; assumption⟩
  | success =>
    have hacc := h.fenced.ruling_accounts (by rw [hid]; exact hw)
    rw [hacc.success_iff fun x hx => ?_]
    · exact ⟨.success, fun hd => by cases hd; assumption⟩
    · have hf : (c.step e).value.2.engine.table.find? d.id = some x := by
        rw [(step_follows h.fenced.sound e).find?_eq, find?_entered, hw, Option.bind_some, hx]
      exact (step_sound h.fenced.sound e).live_of_find? hf

/-- The write keeps its one deadline, as long as no other is granted under its identifier. -/
theorem Watched.step (h : c.Watched d)
    (hg : ∀ x, c.grant? e = some x → x.id = d.id → x = d) : (c.step e).value.2.Watched d := by
  refine ⟨h.fenced.step e, step_armed h.armed e, fun x hx hxid => ?_⟩
  rcases held_of_step h.armed hx with hx | hx
  · exact h.own x hx hxid
  · exact hg x hx hxid

end Coordinator
end BackupAcks
