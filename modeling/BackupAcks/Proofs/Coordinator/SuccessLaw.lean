import BackupAcks.Proofs.Coordinator.Discharge
import BackupAcks.Proofs.Table.Evolution

/-!
# When a write succeeds

From its registration on, a write waits for what it was registered with, less the pairs that were
discharged while it waited, in whatever order; it is at the newest epoch that it was moved to; and
it succeeds just when every pair was discharged.

A run is followed event by event. The pairs of the write after one event are its pairs before less
those that the event discharges (`Fenced.ruling_accounts`); once the write has an outcome, nothing
is discharged any more.

Results:
* `Undergoes.cons_iff`: what a write undergoes in a run happens in the first event or later;
* `FollowsLaw.cons`: the law for a run, from the law for what is left after its first event;
* `registered_followsLaw`: every write that is registered follows the law.
-/
namespace BackupAcks

namespace Coordinator

/-- In some event of the run `P` holds of the write that waits under the identifier then. -/
inductive Undergoes (id : WriteId) (P : Coordinator → PendingWrite → Event → Prop) :
    Coordinator → List Event → Prop
  | now {c : Coordinator} {e : Event} {es : List Event} {w : PendingWrite}
      (entry : c.waiting? e id = some w) (holds : P c w e) : Undergoes id P c (e :: es)
  | later {c : Coordinator} {e : Event} {es : List Event}
      (rest : Undergoes id P (c.step e).value.2 es) : Undergoes id P c (e :: es)

/-- The pair is discharged in the run, by an event that comes while the write waits. -/
def Discharged (c : Coordinator) (id : WriteId) (es : List Event) (p : Pair) : Prop :=
  Undergoes id (fun c w e => c.Discharges w e p) c es

/-- The assignment is applied to the write in the run. -/
def Applied (c : Coordinator) (id : WriteId) (es : List Event) (v : Ownership) : Prop :=
  Undergoes id (fun c w e => c.Applies w e v) c es

variable {c : Coordinator} {e : Event} {es : List Event} {id : WriteId} {w x : PendingWrite}
  {P : Coordinator → PendingWrite → Event → Prop}

theorem Undergoes.nil : ¬ Undergoes id P c [] := by
  intro h
  cases h

theorem Undergoes.cons_iff (hw : c.waiting? e id = some w) :
    Undergoes id P c (e :: es) ↔ P c w e ∨ Undergoes id P (c.step e).value.2 es := by
  constructor
  · intro h
    cases h with
    | now hx hp =>
      rw [hw] at hx
      cases hx
      exact .inl hp
    | later h => exact .inr h
  · intro h
    cases h with
    | inl hp => exact .now hw hp
    | inr h => exact .later h

theorem Undergoes.exists_event (h : Undergoes id P c es) :
    ∃ before e after w, es = before ++ e :: after ∧ (c.run before).waiting? e id = some w ∧
      P (c.run before) w e := by
  induction h with
  | now entry holds => exact ⟨[], _, _, _, rfl, entry, holds⟩
  | @later c x es rest ih =>
    obtain ⟨before, e, after, w, rfl, entry, holds⟩ := ih
    exact ⟨x :: before, e, after, w, rfl, entry, holds⟩

theorem Undergoes.of_none (hs : c.engine.table.Sound) (hid : id ∉ c.issued es)
    (hf : c.engine.table.find? id = none) : ¬ Undergoes id P c es := by
  induction es generalizing c with
  | nil => exact Undergoes.nil
  | cons e es ih =>
    obtain ⟨hne, hrest⟩ := not_mem_issued_cons hid
    have hnone : c.waiting? e id = none := by rw [waiting?_of_ne hne, hf]
    intro h
    cases h with
    | now hx _ => rw [hnone] at hx; cases hx
    | later h =>
      refine ih (step_sound hs e) hrest ((step_follows hs e).find?_of_none ?_) h
      rw [find?_entered, hnone]

/-- What becomes of the write that waits as `w` when the run begins. -/
structure FollowsLaw (c : Coordinator) (w : PendingWrite) (es : List Event) : Prop where
  /-- While it waits, it waits for what is not discharged. -/
  pairs : ∀ w', (c.run es).engine.table.find? w.id = some w' →
    ∀ p, p ∈ w'.requirement.pairs ↔ p ∈ w.requirement.pairs ∧ ¬ c.Discharged w.id es p
  /-- That is never nothing. -/
  owed : ∀ w', (c.run es).engine.table.find? w.id = some w' → w'.requirement.pairs ≠ []
  /-- No epoch that it was moved to is newer than its own. -/
  epoch_le : ∀ w', (c.run es).engine.table.find? w.id = some w' →
    w.epoch ≤ w'.epoch ∧ ∀ v, c.Applied w.id es v → v.epoch ≤ w'.epoch
  /-- Its epoch is the first one or one that it was moved to. -/
  epoch_eq : ∀ w', (c.run es).engine.table.find? w.id = some w' →
    w'.epoch = w.epoch ∨ ∃ v, c.Applied w.id es v ∧ w'.epoch = v.epoch
  /-- It waits as long as it has no outcome. -/
  waits : ((c.run es).engine.table.find? w.id).isSome = true ↔
    (c.run es).engine.table.outcome? w.id = none
  /-- It succeeds just when all is discharged. -/
  success : (c.run es).engine.table.outcome? w.id = some .success ↔
    ∀ p ∈ w.requirement.pairs, c.Discharged w.id es p

theorem FollowsLaw.nil (hf : c.engine.table.find? w.id = some w)
    (ho : c.engine.table.outcome? w.id = none) (hl : w.requirement.Live) : c.FollowsLaw w [] := by
  have hrun : c.run [] = c := rfl
  refine ⟨?_, ?_, ?_, ?_, ?_, ?_⟩
  · intro w' hw' p
    rw [hrun, hf] at hw'
    cases hw'
    exact ⟨fun hp => ⟨hp, Undergoes.nil⟩, And.left⟩
  · intro w' hw'
    rw [hrun, hf] at hw'
    cases hw'
    exact hl.pairs_ne_nil
  · intro w' hw'
    rw [hrun, hf] at hw'
    cases hw'
    exact ⟨UInt32.le_refl _, fun v hv => absurd hv Undergoes.nil⟩
  · intro w' hw'
    rw [hrun, hf] at hw'
    cases hw'
    exact .inl rfl
  · rw [hrun, hf, ho]
    exact ⟨fun _ => rfl, fun _ => rfl⟩
  · rw [hrun, ho]
    obtain ⟨p, hp⟩ := hl.exists_mem_pairs
    constructor
    · intro h; cases h
    · intro h; exact absurd (h p hp) Undergoes.nil

/-- The first event leaves the write waiting, as `x`, and the law holds of `x` from there. -/
theorem FollowsLaw.cons_of_waiting (hw : c.waiting? e w.id = some w)
    (hacc : c.Accounts w e (c.ruling e w)) (hrem : (c.ruling e w).remaining? w = some x)
    (hxid : x.id = w.id) (hx : (c.step e).value.2.FollowsLaw x es) : c.FollowsLaw w (e :: es) := by
  have hpairs := hacc.pairs x hrem
  have hdischarged : ∀ p, c.Discharged w.id (e :: es) p ↔
      c.Discharges w e p ∨ (c.step e).value.2.Discharged x.id es p := by
    intro p
    rw [hxid]
    exact Undergoes.cons_iff hw
  have happlied : ∀ v, c.Applied w.id (e :: es) v ↔
      c.Applies w e v ∨ (c.step e).value.2.Applied x.id es v := by
    intro v
    rw [hxid]
    exact Undergoes.cons_iff hw
  refine ⟨?_, ?_, ?_, ?_, ?_, ?_⟩
  · intro w' hw' p
    rw [← hxid] at hw'
    rw [hx.pairs w' hw' p, hpairs p, hdischarged p, not_or, and_assoc]
  · intro w' hw'
    rw [← hxid] at hw'
    exact hx.owed w' hw'
  · intro w' hw'
    rw [← hxid] at hw'
    obtain ⟨hle, hlater⟩ := hx.epoch_le w' hw'
    refine ⟨UInt32.le_trans (hacc.epoch_le hrem) hle, fun v hv => ?_⟩
    cases (happlied v).1 hv with
    | inl hnow => exact UInt32.le_trans (hacc.le_of_meets hrem hnow.meets) hle
    | inr hrest => exact hlater v hrest
  · intro w' hw'
    rw [← hxid] at hw'
    cases hx.epoch_eq w' hw' with
    | inr hrest =>
      obtain ⟨v, hv, he⟩ := hrest
      exact .inr ⟨v, (happlied v).2 (.inr hv), he⟩
    | inl he =>
      by_cases hnow : ∃ v, c.Applies w e v
      · obtain ⟨v, hv⟩ := hnow
        have hmoved := (hacc.moved x v hrem hv.meets hv.newer).2
        exact .inr ⟨v, (happlied v).2 (.inl hv), he.trans hmoved⟩
      · exact .inl (he.trans (hacc.kept x hrem fun v hv => hnow ⟨v, hv⟩))
  · rw [← hxid]
    exact hx.waits
  · -- a pair of `w` is discharged now, or it is a pair of `x` and has to be discharged later
    rw [← hxid, run_cons, hx.success]
    constructor
    · intro hall p hp
      rw [hxid, hdischarged p]
      by_cases hd : c.Discharges w e p
      · exact .inl hd
      · exact .inr (hall p ((hpairs p).2 ⟨hp, hd⟩))
    · intro hall p hp
      obtain ⟨hpw, hd⟩ := (hpairs p).1 hp
      have hp' := hall p hpw
      rw [hxid, hdischarged p] at hp'
      exact hp'.resolve_left hd

/-- The first event ends the write, and nothing is discharged afterwards. -/
theorem FollowsLaw.cons_of_settled (hs : c.engine.table.Sound) (hw : c.waiting? e w.id = some w)
    (hacc : c.Accounts w e (c.ruling e w)) {o : Outcome} (ho : (c.ruling e w) = .settled o)
    (hh : (c.entered e).handle? w.id = some ⟨w.id, none⟩)
    (hid : w.id ∉ (c.step e).value.2.issued es) : c.FollowsLaw w (e :: es) := by
  have hstep := step_follows hs e
  have hnone := hstep.find?_of_settled (find?_entered.trans hw) ho
  obtain ⟨hgone, hend⟩ := run_of_settled hs hw ho hh hid
  have hdischarged : ∀ p, c.Discharged w.id (e :: es) p ↔ c.Discharges w e p := by
    intro p
    have hlater := Undergoes.of_none (P := fun c w e => c.Discharges w e p) hstep.sound hid hnone
    rw [Discharged, Undergoes.cons_iff hw, or_iff_left hlater]
  have hne : ∀ w', (c.run (e :: es)).engine.table.find? w.id ≠ some w' := by
    intro w' hw'
    rw [hgone] at hw'
    cases hw'
  refine ⟨fun w' hw' => absurd hw' (hne w'), fun w' hw' => absurd hw' (hne w'),
    fun w' hw' => absurd hw' (hne w'), fun w' hw' => absurd hw' (hne w'), ?_, ?_⟩
  · rw [hgone, hend]
    simp
  · rw [hend, Option.some.injEq, hacc.outcome o (by rw [ho]; rfl)]
    exact forall₂_congr fun p _ => (hdischarged p).symm

/-- The law for a run, from the law for what is left after its first event. -/
theorem FollowsLaw.cons (h : c.Fenced) (hw : c.waiting? e w.id = some w)
    (hh : (c.entered e).handle? w.id = some ⟨w.id, none⟩)
    (hid : w.id ∉ (c.step e).value.2.issued es)
    (hrest : ∀ x, x.id = w.id → (c.step e).value.2.engine.table.find? x.id = some x →
      (c.step e).value.2.engine.table.handle? x.id = some ⟨x.id, none⟩ →
      (c.step e).value.2.FollowsLaw x es) : c.FollowsLaw w (e :: es) := by
  have hacc := h.ruling_accounts hw
  have hentered : (c.entered e).find? w.id = some w := find?_entered.trans hw
  have hstep := step_follows h.sound e
  cases hrem : (c.ruling e w).remaining? w with
  | some x =>
    have hf : (c.step e).value.2.engine.table.find? w.id = some x := by
      rw [hstep.find?_eq, hentered, Option.bind_some, hrem]
    have hxid := WriteTable.id_of_find? hf
    refine FollowsLaw.cons_of_waiting hw hacc hrem hxid (hrest x hxid ?_ ?_)
    · rw [hxid, hf]
    · rw [hxid, hstep.handle?_of_find? hf, hh]
  | none =>
    cases ho : c.ruling e w with
    | settled o => exact FollowsLaw.cons_of_settled h.sound hw hacc ho hh hid
    | stale t => rw [ho] at hrem; cases hrem
    | waiting x => rw [ho] at hrem; cases hrem

/-- The law holds of every write that waits. -/
theorem Fenced.followsLaw (h : c.Fenced) (hf : c.engine.table.find? w.id = some w)
    (hh : c.engine.table.handle? w.id = some ⟨w.id, none⟩) (hid : w.id ∉ c.issued es) :
    c.FollowsLaw w es := by
  induction es generalizing c w with
  | nil =>
    exact .nil hf (by rw [WriteTable.outcome?, hh]; rfl) (h.sound.live_of_find? hf)
  | cons e es ih =>
    obtain ⟨hne, hrest⟩ := not_mem_issued_cons hid
    refine .cons h (by rw [waiting?_of_ne hne, hf]) (by rw [handle?_entered_of_ne hne, hh]) hrest ?_
    intro x hx hxf hxh
    exact ih (h.step e) hxf hxh (by rw [hx]; exact hrest)

/-- **Success law.** A write that is registered with something to wait for waits, in every run from
there, for exactly what has not been discharged, and it succeeds just when all has been. The run is
followed until the write's identifier is issued to another one; see `nextId_not_mem_issued`. -/
theorem registered_followsLaw (home : NodeId) (epoch : Epoch) (s : Settings) (before : List Event)
    (e : Event) (after : List Event) {w : PendingWrite}
    (hr : ((new home epoch s).run before).registration? e = some w)
    (hid : w.id ∉ (((new home epoch s).run before).step e).value.2.issued after) :
    ((new home epoch s).run before).FollowsLaw w (e :: after) := by
  have h := (new_fenced home epoch s).run before
  obtain ⟨hnext, ho, hi⟩ := registration?_eq_some_iff.1 hr
  refine .cons h (waiting?_eq_some_iff.2 (.inl ⟨hr, rfl⟩)) ?_ hid ?_
  · rw [handle?_entered_of_order ho hnext.symm, hi]
  · intro x hx hxf hxh
    exact (h.step e).followsLaw hxf hxh (by rw [hx]; exact hid)

/-- A write to two segments, for an epoch older than the active one. -/
def lateWrite : Event :=
  .createSegmented (.ofList [(0, .ofList [1, 2]), (1, .ofList [2, 3])]) 5

/-- Its confirmations, one of them from before the activation, and a departure. -/
def mixedEvents : List Event :=
  [.ack ⟨0, 0⟩ 1 6, .segmentAck ⟨0, 0⟩ 2 5 0, .segmentAck ⟨0, 0⟩ 2 6 0, .restrict (.ofList [0, 1])]

theorem registered_followsLaw_lateWrite :
    let c := (new 0 5 .default).run [.activate (.of 6 [] (.ofList [(0, [0, 1, 2]), (1, [0, 2])]))]
    ∃ w, c.registration? lateWrite = some w ∧
      w.id ∉ (c.step lateWrite).value.2.issued mixedEvents ∧
      c.FollowsLaw w (lateWrite :: mixedEvents) ∧
      (c.run (lateWrite :: mixedEvents)).engine.table.outcome? w.id = some .success ∧
      w.requirement.pairs = [(0, 1), (0, 2), (1, 2), (1, 3)] ∧
      ∀ p ∈ w.requirement.pairs, c.Discharged w.id (lateWrite :: mixedEvents) p := by
  have hr : ((new 0 5 .default).run
      [.activate (.of 6 [] (.ofList [(0, [0, 1, 2]), (1, [0, 2])]))]).registration? lateWrite =
      some ⟨⟨0, 0⟩, 5, .ofSegments (.ofList [(0, .ofList [1, 2]), (1, .ofList [2, 3])])⟩ := by
    decide
  have hlaw := registered_followsLaw 0 5 .default _ lateWrite mixedEvents hr (by decide)
  have hdone : (((new 0 5 .default).run
      [.activate (.of 6 [] (.ofList [(0, [0, 1, 2]), (1, [0, 2])]))]).run
      (lateWrite :: mixedEvents)).engine.table.outcome? ⟨0, 0⟩ = some .success := by decide
  exact ⟨_, hr, by decide, hlaw, hdone, by decide, hlaw.success.1 hdone⟩

end Coordinator
end BackupAcks
