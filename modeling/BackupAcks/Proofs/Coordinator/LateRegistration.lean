import BackupAcks.Proofs.Coordinator.DeadlineCoverage
import BackupAcks.Proofs.Coordinator.EpochFence

/-!
# Registering before or after an activation

A write that is not behind the active assignment may be registered before the next assignment is
offered, and is swept when that is accepted; or after it, and catches up. Where no limit is set on
the writes that wait, it makes no difference: the sweep and the catching up hold the same assignment
against the same write, and neither order touches any other write in a way of its own.

There is one exception. A write that is registered when the sweeper is gone, though collection was
not shut down, fails if it has to wait at all. Registered early it fails before the assignment
comes; registered late it catches up first, and the assignment may end it.

Results:
* `step_of_other`: the creation of a write leaves all others as they are;
* `find?_created`, `handle?_created`: what becomes of the write that is created;
* `registration_commutes`: both orders lead to the same entries and handles.
-/
namespace BackupAcks

namespace Coordinator

variable {c c' : Coordinator} {e e' : Event} {o : Requirement × Epoch} {w : PendingWrite}
  {v : Ownership} {id : WriteId}

/-- A write stands the same in both states: it waits for the same at the same epoch, if it waits,
and its handle says the same. -/
def SameAt (c c' : Coordinator) (id : WriteId) : Prop :=
  c.engine.table.find? id = c'.engine.table.find? id ∧
    c.engine.table.handle? id = c'.engine.table.handle? id

/-- An event that makes a write go on waiting, if it waits, leaves it as it is. -/
theorem sameAt_of_waiting (hs : c.engine.table.Sound)
    (hid : e.order?.isSome = true → c.nextId ≠ id)
    (hr : ∀ w, c.engine.table.find? id = some w → c.ruling e w = .waiting w) :
    (c.step e).value.2.SameAt c id := by
  have hstep := step_follows hs e
  rw [SameAt, hstep.find?_eq, hstep.handle?_eq, find?_entered, waiting?_of_ne hid,
    handle?_entered_of_ne hid]
  cases hf : c.engine.table.find? id with
  | none => exact ⟨rfl, WriteTable.map_settleBy_none _⟩
  | some w =>
    rw [Option.bind_some, Option.bind_some, hr w hf]
    exact ⟨rfl, WriteTable.map_settleBy_none _⟩

/-- Events that find a write the same and rule on it in the same way leave it the same. -/
theorem sameAt_of_ruling (hs : c.engine.table.Sound) (hs' : c'.engine.table.Sound)
    (hw : c.waiting? e id = c'.waiting? e' id)
    (hh : (c.entered e).handle? id = (c'.entered e').handle? id)
    (hr : ∀ w, w.id = id → c.ruling e w = c'.ruling e' w) :
    (c.step e).value.2.SameAt (c'.step e').value.2 id := by
  have hstep := step_follows hs e
  have hstep' := step_follows hs' e'
  rw [SameAt, hstep.find?_eq, hstep'.find?_eq, hstep.handle?_eq, hstep'.handle?_eq, find?_entered,
    find?_entered, hh, ← hw]
  cases hf : c.waiting? e id with
  | none => exact ⟨rfl, rfl⟩
  | some w =>
    rw [Option.bind_some, Option.bind_some, Option.bind_some, Option.bind_some,
      hr w (id_of_waiting? hf)]
    exact ⟨rfl, rfl⟩

/-! ## The creation of a write -/

theorem Fenced.step_of_other (h : c.Fenced) (ho : e.order? = some o) (hid : c.nextId ≠ id) :
    (c.step e).value.2.SameAt c id := by
  refine sameAt_of_waiting h.sound (fun _ => hid) fun w hf => ?_
  have hwid := WriteTable.id_of_find? hf
  rw [ruling_of_order ho]
  refine h.enrolRuling_of_ne ho ?_ fun hr => hid ?_
  · rw [hwid, waiting?_of_ne fun _ => hid, hf]
  · rw [← (registration?_eq_some_iff.1 hr).1, hwid]

theorem view_of_order (ho : e.order? = some o) :
    (c.step e).value.2.engine.view = c.engine.view := by
  rw [step_view, offer?_of_order ho]
  rfl

theorem waiting?_nextId (hf : c.engine.table.find? c.nextId = none) :
    c.waiting? e c.nextId = c.registration? e := by
  rw [waiting?, hf, Option.or_none]
  cases hr : c.registration? e with
  | none => rfl
  | some w => simp [Option.filter_some, (registration?_eq_some_iff.1 hr).1]

theorem find?_created (hs : c.engine.table.Sound) (ho : e.order? = some o)
    (hf : c.engine.table.find? c.nextId = none) :
    (c.step e).value.2.engine.table.find? c.nextId =
      (c.registration? e).bind fun w => (c.enrolRuling o.1 o.2 w).remaining? w := by
  rw [(step_follows hs e).find?_eq, find?_entered, waiting?_nextId hf, ruling_of_order ho]

theorem handle?_created (hs : c.engine.table.Sound) (ho : e.order? = some o)
    (hf : c.engine.table.find? c.nextId = none) :
    (c.step e).value.2.engine.table.handle? c.nextId =
      some ⟨c.nextId, (c.engine.table.immediateOutcome o.1).or
        ((c.registration? e).bind fun w => (c.enrolRuling o.1 o.2 w).outcome?)⟩ := by
  rw [(step_follows hs e).handle?_eq, find?_entered, waiting?_nextId hf, ruling_of_order ho,
    handle?_entered_of_order ho rfl]
  rfl

/-- A write that is not behind the active assignment has nothing to catch up with. -/
theorem catchUpRuling_of_not_behind
    (h : c.engine.view.epoch ≤ w.epoch ∨ c.engine.view.latest = none) :
    c.engine.view.catchUpRuling w.epoch w = .waiting w := by
  rcases h with h | h
  · simp [ActiveView.catchUpRuling, h]
  · simp [ActiveView.catchUpRuling, h]

/-! ## The activation -/

theorem step_of_refused (h : v.epoch < c.engine.view.epoch) :
    (c.step (.activate v)).value.2 = c := by
  simp only [step, activate, onEngine, Engine.activate, ActiveView.activate, if_pos h]
  rfl

/-- An activation settles writes and moves on to the assignment; the rest stays. -/
theorem activate_frame (c : Coordinator) (v : Ownership) :
    (c.step (.activate v)).value.2.nextId = c.nextId ∧
      (c.step (.activate v)).value.2.engine.table.stopped = c.engine.table.stopped ∧
      (c.step (.activate v)).value.2.engine.table.capacity = c.engine.table.capacity ∧
      (c.step (.activate v)).value.2.engine.desk = c.engine.desk := by
  simp only [step, activate, onEngine, Engine.activate, ActiveView.activate]
  split <;> exact ⟨rfl, rfl, rfl, rfl⟩

theorem find?_nextId_activate (hs : c.engine.table.Sound)
    (hf : c.engine.table.find? c.nextId = none) (v : Ownership) :
    (c.step (.activate v)).value.2.engine.table.find? (c.step (.activate v)).value.2.nextId =
      none := by
  rw [(activate_frame c v).1]
  exact (step_follows hs (.activate v)).find?_of_none hf

theorem SameAt.symm (h : c.SameAt c' id) : c'.SameAt c id := ⟨h.1.symm, h.2.symm⟩

theorem SameAt.trans {c'' : Coordinator} (h : c.SameAt c' id) (h' : c'.SameAt c'' id) :
    c.SameAt c'' id :=
  ⟨h.1.trans h'.1, h.2.trans h'.2⟩

theorem ruling_activate_congr (hview : c'.engine.view = c.engine.view) (v : Ownership) :
    c'.ruling (.activate v) = c.ruling (.activate v) := by
  simp only [ruling, hview]

theorem SameAt.activate (h : c.SameAt c' id) (hs : c.engine.table.Sound)
    (hs' : c'.engine.table.Sound) (hview : c.engine.view = c'.engine.view) (v : Ownership) :
    (c.step (.activate v)).value.2.SameAt (c'.step (.activate v)).value.2 id := by
  exact sameAt_of_ruling hs hs' h.1 h.2 fun w _ => by rw [ruling_activate_congr hview]

/-- Catching up with an assignment just activated is being swept by it. -/
theorem catchUpRuling_activate (hbehind : c.engine.view.epoch ≤ w.epoch ∨
    c.engine.view.latest = none) (v : Ownership) :
    (c.step (.activate v)).value.2.engine.view.catchUpRuling w.epoch w =
      c.ruling (.activate v) w := by
  by_cases hold : v.epoch < c.engine.view.epoch
  · rw [step_of_refused hold]
    simp only [ruling, if_pos hold]
    exact catchUpRuling_of_not_behind hbehind
  · rw [step_view]
    simp only [Event.offer?, Option.elim_some, ActiveView.offered, if_neg hold, ruling,
      ActiveView.catchUpRuling]
    split
    · rename_i hle
      exact (PendingWrite.adopt_old hle).symm
    · rfl

/-! ## Both orders -/

/-- The write is registered, and then the assignment is offered. -/
def early (c : Coordinator) (e : Event) (v : Ownership) : Coordinator := c.run [e, .activate v]

/-- The assignment is offered, and then the write is registered. -/
def late (c : Coordinator) (e : Event) (v : Ownership) : Coordinator := c.run [.activate v, e]

/-- What the order of a registration and an activation means. -/
structure Commutes (c : Coordinator) (e : Event) (v : Ownership) : Prop where
  /-- The new write gets the same identifier. -/
  nextId_eq : (c.step (.activate v)).value.2.nextId = c.nextId
  /-- Nothing for any other write. -/
  others : ∀ id, id ≠ c.nextId → (c.early e v).SameAt (c.late e v) id
  /-- Nothing for the new write, if it does not have to wait or there is someone to look after its
  deadline. -/
  created : c.Attended ∨ c.registration? e = none → (c.early e v).SameAt (c.late e v) c.nextId
  /-- Otherwise it ends in both orders, in the early one without regard to the assignment. -/
  unattended : ¬ c.Attended → ∀ w, c.registration? e = some w →
    (c.early e v).engine.table.outcome? c.nextId = some (.failure .stopping) ∧
      (c.late e v).engine.table.outcome? c.nextId =
        some ((c.ruling (.activate v) w).outcome?.getD (.failure .stopping))

theorem Fenced.others_commute (h : c.Fenced) (ho : e.order? = some o) (hid : id ≠ c.nextId) :
    (c.early e v).SameAt (c.late e v) id := by
  have hlate : (c.late e v).SameAt (c.step (.activate v)).value.2 id :=
    (h.step (.activate v)).step_of_other ho ((activate_frame c v).1 ▸ Ne.symm hid)
  have hearly : (c.early e v).SameAt (c.step (.activate v)).value.2 id :=
    (h.step_of_other ho (Ne.symm hid)).activate (step_sound h.sound e) h.sound
      (view_of_order ho) v
  exact hearly.trans hlate.symm

/-- Without a limit on the writes that wait, an activation does not bear on whether a write is
turned away. -/
theorem immediateOutcome_activate (hcapacity : c.engine.table.capacity = 0) (v : Ownership)
    (r : Requirement) : (c.step (.activate v)).value.2.engine.table.immediateOutcome r =
      c.engine.table.immediateOutcome r := by
  obtain ⟨-, hstopped, hcap, -⟩ := activate_frame c v
  simp [WriteTable.immediateOutcome, hstopped, hcap, hcapacity]

theorem registration?_activate (hcapacity : c.engine.table.capacity = 0) (v : Ownership)
    (e : Event) : (c.step (.activate v)).value.2.registration? e = c.registration? e := by
  simp only [registration?, (activate_frame c v).1, immediateOutcome_activate hcapacity]

/-- Registered early, the new write meets the assignment if it still waits then. -/
theorem Fenced.early_created (h : c.Fenced) (hf : c.engine.table.find? c.nextId = none)
    (hbehind : c.engine.view.epoch ≤ w.epoch ∨ c.engine.view.latest = none)
    (hr : c.registration? e = some w) (v : Ownership) :
    (c.early e v).engine.table.find? c.nextId =
        (if c.engine.desk.isOpen then (c.ruling (.activate v) w).remaining? w else none) ∧
      (c.early e v).engine.table.handle? c.nextId = some ⟨c.nextId,
        if c.engine.desk.isOpen then (c.ruling (.activate v) w).outcome?
        else some (.failure .stopping)⟩ := by
  obtain ⟨-, ho, hi⟩ := registration?_eq_some_iff.1 hr
  have hl : w.requirement.Live := h.live ((waiting?_nextId hf).trans hr)
  have hswept := step_follows (step_sound h.sound e) (.activate v)
  rw [ruling_activate_congr (view_of_order ho)] at hswept
  have hfind := hswept.find?_eq c.nextId
  have hhandle := hswept.handle?_eq c.nextId
  change _ = ((c.step e).value.2.engine.table.find? c.nextId).bind _ at hfind
  change _ = ((c.step e).value.2.engine.table.handle? c.nextId).map (WriteTable.settleBy
    (((c.step e).value.2.engine.table.find? c.nextId).bind _)) at hhandle
  rw [find?_created h.sound ho hf, hr, Option.bind_some, enrolRuling_of_registration hr hl,
    catchUpRuling_of_not_behind hbehind] at hfind hhandle
  rw [handle?_created h.sound ho hf, hr, Option.bind_some, enrolRuling_of_registration hr hl,
    catchUpRuling_of_not_behind hbehind, hi] at hhandle
  refine ⟨hfind.trans ?_, hhandle.trans ?_⟩
  · cases c.engine.desk.isOpen <;> rfl
  · cases c.engine.desk.isOpen <;> rfl

/-- Registered late, the new write meets the assignment at once. -/
theorem Fenced.late_created (h : c.Fenced) (hf : c.engine.table.find? c.nextId = none)
    (hcapacity : c.engine.table.capacity = 0)
    (hbehind : c.engine.view.epoch ≤ w.epoch ∨ c.engine.view.latest = none)
    (hr : c.registration? e = some w) (v : Ownership) :
    (c.late e v).engine.table.find? c.nextId =
        (if c.engine.desk.isOpen then (c.ruling (.activate v) w).remaining? w else none) ∧
      (c.late e v).engine.table.handle? c.nextId = some ⟨c.nextId,
        if c.engine.desk.isOpen then (c.ruling (.activate v) w).outcome?
        else some ((c.ruling (.activate v) w).outcome?.getD (.failure .stopping))⟩ := by
  obtain ⟨-, ho, -⟩ := registration?_eq_some_iff.1 hr
  have hl : w.requirement.Live := h.live ((waiting?_nextId hf).trans hr)
  obtain ⟨hnext, -, -, hdesk⟩ := activate_frame c v
  have hr' := (registration?_activate hcapacity v e).trans hr
  obtain ⟨-, -, hi'⟩ := registration?_eq_some_iff.1 hr'
  have hs' := step_sound h.sound (.activate v)
  have hf' := find?_nextId_activate h.sound hf v
  have hfind := find?_created hs' ho hf'
  have hhandle := handle?_created hs' ho hf'
  rw [hr', Option.bind_some, enrolRuling_of_registration hr' hl, hdesk,
    catchUpRuling_activate hbehind] at hfind hhandle
  rw [hi'] at hhandle
  rw [← hnext]
  refine ⟨hfind.trans ?_, hhandle.trans ?_⟩
  · cases c.engine.desk.isOpen <;> rfl
  · cases c.engine.desk.isOpen <;> rfl

/-- A write that does not have to wait is the same in both orders. -/
theorem Fenced.immediate_commute (h : c.Fenced) (hf : c.engine.table.find? c.nextId = none)
    (hcapacity : c.engine.table.capacity = 0) (ho : e.order? = some o)
    (hr : c.registration? e = none) (v : Ownership) :
    (c.early e v).SameAt (c.late e v) c.nextId := by
  have hnext := (activate_frame c v).1
  have hs' := step_sound h.sound (.activate v)
  have hf' := find?_nextId_activate h.sound hf v
  have hr' := (registration?_activate hcapacity v e).trans hr
  -- no entry is made in either order, and the handle gets the same outcome at once
  have hfind := find?_created h.sound ho hf
  have hhandle := handle?_created h.sound ho hf
  have hfind' := find?_created hs' ho hf'
  have hhandle' := handle?_created hs' ho hf'
  rw [hr, Option.bind_none] at hfind hhandle
  rw [hr', Option.bind_none] at hfind' hhandle'
  rw [immediateOutcome_activate hcapacity] at hhandle'
  rw [hnext] at hfind' hhandle'
  have hswept := step_follows (step_sound h.sound e) (.activate v)
  refine ⟨(hswept.find?_of_none hfind).trans hfind'.symm, ?_⟩
  exact ((hswept.handle?_of_none hfind).trans hhandle).trans hhandle'.symm

/-- **It makes no difference whether a write is registered before an assignment is offered or
after it**, if the write is not behind the active assignment and no limit is set on the writes that
wait. The one exception is a write that has to wait when the sweeper is gone though collection was
not shut down. -/
theorem registration_commutes (home : NodeId) (epoch : Epoch) (s : Settings) (events : List Event)
    (hlimit : s.maxPending = 0) (v : Ownership) {e : Event} {r : Requirement} {t : Epoch}
    (he : e.order? = some (r, t))
    (hbehind : ((new home epoch s).run events).activeEpoch ≤ t ∨
      accepted epoch (offers events) = [])
    (hnew : ((new home epoch s).run events).nextId ∉ (new home epoch s).issued events) :
    Commutes ((new home epoch s).run events) e v := by
  have h := (new_fenced home epoch s).run events
  have hf := run_find?_of_none (new_sound home epoch s) hnew rfl
  have hcapacity : ((new home epoch s).run events).engine.table.capacity = 0 :=
    ((run_evolves (new home epoch s) events).capacity (new_sound home epoch s)).trans hlimit
  have hlatest : ((new home epoch s).run events).engine.view.epoch ≤ t ∨
      ((new home epoch s).run events).engine.view.latest = none := by
    rw [run_latest]
    exact hbehind.imp_right fun ha => by rw [ha]; rfl
  have hepoch : ∀ w, ((new home epoch s).run events).registration? e = some w → w.epoch = t := by
    intro w hr
    obtain ⟨-, ho, -⟩ := registration?_eq_some_iff.1 hr
    rw [he] at ho
    cases ho
    rfl
  refine ⟨(activate_frame _ v).1, fun id hid => h.others_commute he hid, ?_, ?_⟩
  · intro hc
    cases hr : ((new home epoch s).run events).registration? e with
    | none => exact h.immediate_commute hf hcapacity he hr v
    | some w =>
      rw [← hepoch w hr] at hlatest
      have hearly := h.early_created hf hlatest hr v
      have hlate := h.late_created hf hcapacity hlatest hr v
      have hattended := hc.resolve_right (by rw [hr]; simp)
      rw [hattended.isOpen_of_registration hr] at hearly hlate
      exact ⟨hearly.1.trans hlate.1.symm, hearly.2.trans hlate.2.symm⟩
  · intro hc w hr
    rw [← hepoch w hr] at hlatest
    have hclosed : ((new home epoch s).run events).engine.desk.isOpen = false :=
      Bool.eq_false_iff.2 fun hopen => hc (.inl hopen)
    have hearly := (h.early_created hf hlatest hr v).2
    have hlate := (h.late_created hf hcapacity hlatest hr v).2
    rw [hclosed] at hearly hlate
    rw [WriteTable.outcome?, WriteTable.outcome?, hearly, hlate]
    exact ⟨rfl, rfl⟩

/-- A write to two segments, one of which the node loses, is registered while another waits. -/
theorem registration_commutes_movedSegment :
    let c := (new 0 5 .default).run [.create (.ofList [1]) 1 5]
    let e := Event.createSegmented (.ofList [(0, .ofList [1]), (1, .ofList [2])]) 5
    let v : Ownership := .of 6 [] (.ofList [(0, [1]), (1, [0, 2])])
    Settings.default.maxPending = 0 ∧
      e.order? = some (.ofSegments (.ofList [(0, .ofList [1]), (1, .ofList [2])]), 5) ∧
      (c.activeEpoch ≤ 5 ∨ accepted 5 (offers [.create (.ofList [1]) 1 5]) = []) ∧
      c.nextId ∉ (new 0 5 .default).issued [.create (.ofList [1]) 1 5] ∧ c.Attended ∧
      Commutes c e v ∧ (c.early e v).SameAt (c.late e v) c.nextId ∧
      (c.late e v).engine.table.outcome? c.nextId = some (.failure (.topologyChanged 6)) := by
  have hcommutes := registration_commutes 0 5 .default [.create (.ofList [1]) 1 5] rfl
    (.of 6 [] (.ofList [(0, [1]), (1, [0, 2])]))
    (e := .createSegmented (.ofList [(0, .ofList [1]), (1, .ofList [2])]) 5) rfl
    (.inr (by decide)) (by decide)
  have hattended : ((new 0 5 .default).run [.create (.ofList [1]) 1 5]).Attended :=
    .inl (by decide)
  exact ⟨rfl, rfl, .inr (by decide), by decide, hattended, hcommutes,
    hcommutes.created (.inl hattended), by decide⟩

/-- When the sweeper is gone, the order counts: registered early, the write is failed for want of a
deadline; registered late, it has nobody to wait for when it has caught up. -/
theorem registration_not_commutes_sweeperLost :
    let c := (new 0 5 .default).run [.sweeperLost]
    let e := Event.create (.ofList [2]) 0 5
    let v : Ownership := .of 6 [] (.ofList [(0, [0, 1])])
    Settings.default.maxPending = 0 ∧ e.order? = some (.single 0 (.ofList [2]), 5) ∧
      c.activeEpoch ≤ 5 ∧ accepted 5 (offers [.sweeperLost]) = [] ∧
      (c.early e v).engine.table.outcome? c.nextId = some (.failure .stopping) ∧
      (c.late e v).engine.table.outcome? c.nextId = some .success ∧
      ¬ (c.early e v).SameAt (c.late e v) c.nextId := by
  have hearly : (((new 0 5 .default).run [.sweeperLost]).early (.create (.ofList [2]) 0 5)
      (.of 6 [] (.ofList [(0, [0, 1])]))).engine.table.handle? ⟨0, 0⟩ =
      some ⟨⟨0, 0⟩, some (.failure .stopping)⟩ := by decide
  have hlate : (((new 0 5 .default).run [.sweeperLost]).late (.create (.ofList [2]) 0 5)
      (.of 6 [] (.ofList [(0, [0, 1])]))).engine.table.handle? ⟨0, 0⟩ =
      some ⟨⟨0, 0⟩, some .success⟩ := by decide
  refine ⟨rfl, rfl, by decide, by decide, by decide, by decide, fun hsame => ?_⟩
  have hhandle := hsame.2
  rw [show ((new 0 5 .default).run [.sweeperLost]).nextId = ⟨0, 0⟩ from rfl, hearly, hlate]
    at hhandle
  cases hhandle

end Coordinator
end BackupAcks
