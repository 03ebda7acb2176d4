import BackupAcks.Proofs.Coordinator.NoLostWait
import BackupAcks.Proofs.Coordinator.SuccessLaw

/-!
# Failures on the node itself

When the node could not apply a write that it has forwarded, it reports so to itself, with the epoch
that it takes the write to be at. The report is a reply like that of a backup: it fails the write at
once, unless it is stale. A write is at the epoch that it was registered for until a newer assignment
is accepted, and from then on at the active one; so a report with the epoch of the registration is
dropped once the write has moved, and the write may still succeed.

Results:
* `Fenced.epoch_le_iff`: which stamps are not older than a write that waits;
* `registered_heedsFailures`: just the reports with such a stamp fail the write, for good.
-/
namespace BackupAcks

namespace Coordinator

variable {c : Coordinator} {e : Event} {es : List Event} {id : WriteId} {w w' : PendingWrite}
  {v : Ownership} {t : Epoch} {cause : String}

/-! ## The epoch of a write -/

/-- The stored assignment only gives way to one that is not older. -/
theorem Fenced.latest_of_step (h : c.Fenced) (hv : c.engine.view.latest = some v) (e : Event) :
    ∃ u, (c.step e).value.2.engine.view.latest = some u ∧ v.epoch ≤ u.epoch := by
  rw [step_view]
  cases e.offer? with
  | none => exact ⟨v, hv, UInt32.le_refl _⟩
  | some u =>
    rw [Option.elim_some, ActiveView.offered]
    split
    · exact ⟨v, hv, UInt32.le_refl _⟩
    · rename_i hnew
      refine ⟨u, rfl, ?_⟩
      rw [h.current v hv]
      exact UInt32.not_lt.1 hnew

theorem Fenced.latest_of_run (h : c.Fenced) (hv : c.engine.view.latest = some v)
    (es : List Event) : ∃ u, (c.run es).engine.view.latest = some u ∧ v.epoch ≤ u.epoch := by
  induction es generalizing c v with
  | nil => exact ⟨v, hv, UInt32.le_refl _⟩
  | cons e es ih =>
    obtain ⟨x, hx, hle⟩ := h.latest_of_step hv e
    obtain ⟨u, hu, hle'⟩ := ih (h.step e) hx
    exact ⟨u, hu, UInt32.le_trans hle hle'⟩

/-- The stored assignment is not older than any that was applied to a write. -/
theorem Fenced.latest_of_applied (h : c.Fenced) (hv : c.Applied id es v) :
    ∃ u, (c.run es).engine.view.latest = some u ∧ v.epoch ≤ u.epoch := by
  induction es generalizing c with
  | nil => cases hv
  | cons e es ih =>
    cases hv with
    | now _ happ => exact (h.step e).latest_of_run happ.meets.latest es
    | later hrest => exact ih (h.step e) hrest

/-- A write that waits is at the epoch that it began with, or at the one of the stored assignment if
that is newer. -/
theorem Fenced.epoch_le_iff (h : c.Fenced) (hlaw : c.FollowsLaw w es)
    (hw' : (c.run es).engine.table.find? w.id = some w') :
    w'.epoch ≤ t ↔ w.epoch ≤ t ∧ ∀ v, (c.run es).engine.view.latest = some v → v.epoch ≤ t := by
  constructor
  · intro ht
    refine ⟨UInt32.le_trans (hlaw.epoch_le w' hw').1 ht, fun v hv => ?_⟩
    exact UInt32.le_trans ((h.run es).fence v hv w' (WriteTable.mem_of_find? hw')) ht
  · intro ht
    obtain ⟨hstart, hlatest⟩ := ht
    rcases hlaw.epoch_eq w' hw' with he | ⟨v, hv, he⟩
    · exact he ▸ hstart
    · obtain ⟨u, hu, hle⟩ := h.latest_of_applied hv
      exact he ▸ UInt32.le_trans hle (hlatest u hu)

theorem Fenced.followsLaw_of_registration (h : c.Fenced) (hr : c.registration? e = some w)
    (hid : w.id ∉ (c.step e).value.2.issued es) : c.FollowsLaw w (e :: es) := by
  obtain ⟨hnext, ho, hi⟩ := registration?_eq_some_iff.1 hr
  refine .cons h (waiting?_eq_some_iff.2 (.inl ⟨hr, rfl⟩)) ?_ hid fun x hx hxf hxh => ?_
  · rw [handle?_entered_of_order ho hnext.symm, hi]
  · exact (h.step e).followsLaw hxf hxh (hx ▸ hid)

/-! ## Reports -/

/-- A report that is not older than the write fails it, and nothing changes that afterwards. -/
theorem Fenced.run_failLocally (h : c.Fenced) (hf : c.engine.table.find? id = some w)
    (hh : c.engine.table.handle? id = some ⟨id, none⟩) (ht : w.epoch ≤ t)
    (hid : id ∉ c.issued (.failLocally id t cause :: es)) :
    (c.run (.failLocally id t cause :: es)).engine.table.outcome? id =
      some (.failure (.remote c.engine.table.home cause)) := by
  have hruling : c.ruling (.failLocally id t cause) w =
      .settled (.failure (.remote c.engine.table.home cause)) := by
    rw [← WriteTable.id_of_find? hf]
    exact (WriteTable.only_self _ w).trans (PendingWrite.error_current ht)
  have hwaiting : c.waiting? (.failLocally id t cause) id = some w :=
    (waiting?_of_ne fun ho => (by cases ho)).trans hf
  exact (run_of_settled h.sound hwaiting hruling hh hid).2

theorem step_of_stale_failLocally (hf : c.engine.table.find? id = some w) (ht : t < w.epoch) :
    (c.step (.failLocally id t cause)).value.2 = c := by
  rw [step_of_reply (n := c.engine.table.home) (r := .errorAck id t cause) rfl,
    deliver_of_older]
  intro x hx
  rw [show c.engine.table.find? (Reply.errorAck id t cause).id = some w from hf] at hx
  cases hx
  exact ht

/-- The handle of a write that waits is open, unless its identifier was issued again. -/
theorem handle?_of_open (hs : c.engine.table.Sound) (hf : c.engine.table.find? id = some w)
    (ho : c.engine.table.outcome? id = none) :
    c.engine.table.handle? id = some ⟨id, none⟩ := by
  cases hh : c.engine.table.handle? id with
  | none =>
    rw [hs.find?_eq_none hh] at hf
    cases hf
  | some k =>
    obtain ⟨kid, ko⟩ := k
    have hid : kid = id := by simpa using List.find?_some hh
    rw [WriteTable.outcome?, hh] at ho
    rw [hid, show ko = none from ho]

/-- What reports about the write `id` mean in the state `c`, if the stamps that `current` holds of
are those that are not older than the write. -/
structure HeedsFailures (home : NodeId) (c : Coordinator) (id : WriteId) (current : Epoch → Prop) :
    Prop where
  /-- A report with such a stamp fails the write as the node's own failure, and it stays so. -/
  heeded : ∀ t cause after, current t → id ∉ c.issued (.failLocally id t cause :: after) →
    (c.run (.failLocally id t cause :: after)).engine.table.outcome? id =
      some (.failure (.remote home cause))
  /-- Any other report is dropped. -/
  dropped : ∀ t cause, ¬ current t → (c.step (.failLocally id t cause)).value.2 = c

theorem Fenced.heedsFailures (h : c.Fenced) (hf : c.engine.table.find? id = some w)
    (ho : c.engine.table.outcome? id = none) {current : Epoch → Prop}
    (hcurrent : ∀ t, current t ↔ w.epoch ≤ t) :
    HeedsFailures c.engine.table.home c id current := by
  refine ⟨fun t cause after ht hid => ?_, fun t cause ht => ?_⟩
  · exact h.run_failLocally hf (handle?_of_open h.sound hf ho) ((hcurrent t).1 ht) hid
  · rw [hcurrent] at ht
    exact step_of_stale_failLocally hf (UInt32.not_le.1 ht)

/-- The active epoch is that of the stored assignment, once there is one. -/
theorem activeEpoch_le_iff (home : NodeId) (epoch : Epoch) (s : Settings) (events : List Event)
    (t : Epoch) :
    (accepted epoch (offers events) ≠ [] → ((new home epoch s).run events).activeEpoch ≤ t) ↔
      ∀ v, ((new home epoch s).run events).engine.view.latest = some v → v.epoch ≤ t := by
  have hcurrent := ((new_fenced home epoch s).run events).current
  rw [run_latest] at hcurrent ⊢
  cases hacc : (accepted epoch (offers events)).getLast? with
  | none => simp [List.getLast?_eq_none_iff.1 hacc]
  | some v =>
    have hne : accepted epoch (offers events) ≠ [] := by
      intro hnil
      rw [hnil] at hacc
      cases hacc
    rw [activeEpoch, ← hcurrent v hacc]
    simp [hne]

/-- **Just the reports that are not stale fail a write.** While a write waits, a report that the node
could not apply it fails it for good if its stamp is neither older than the epoch that the write was
registered for nor, once an assignment was accepted, than the active epoch. Otherwise it changes
nothing. The run is followed until the write's identifier is issued to another one; see
`nextId_not_mem_issued`. -/
theorem registered_heedsFailures (home : NodeId) (epoch : Epoch) (s : Settings)
    (before : List Event) (e : Event) (between : List Event) {w : PendingWrite}
    (hr : ((new home epoch s).run before).registration? e = some w)
    (hid : w.id ∉ (((new home epoch s).run before).step e).value.2.issued between)
    (hopen : ((new home epoch s).run (before ++ e :: between)).engine.table.outcome? w.id = none) :
    HeedsFailures home ((new home epoch s).run (before ++ e :: between)) w.id fun t =>
      w.epoch ≤ t ∧ (accepted epoch (offers (before ++ e :: between)) ≠ [] →
        ((new home epoch s).run (before ++ e :: between)).activeEpoch ≤ t) := by
  have h := (new_fenced home epoch s).run before
  have hlaw := h.followsLaw_of_registration hr hid
  have hend := (new_fenced home epoch s).run (before ++ e :: between)
  have hhome : ((new home epoch s).run (before ++ e :: between)).engine.table.home = home :=
    run_table_home (new_sound home epoch s) (before ++ e :: between)
  have hwaits := hlaw.waits
  rw [← run_append] at hwaits
  obtain ⟨w', hf⟩ := Option.isSome_iff_exists.1 (hwaits.2 hopen)
  have hcurrent : ∀ t, (w.epoch ≤ t ∧ (accepted epoch (offers (before ++ e :: between)) ≠ [] →
      ((new home epoch s).run (before ++ e :: between)).activeEpoch ≤ t)) ↔ w'.epoch ≤ t := by
    intro t
    rw [activeEpoch_le_iff, run_append]
    rw [run_append] at hf
    exact (h.epoch_le_iff hlaw hf).symm
  have hheeds := hend.heedsFailures hf hopen hcurrent
  rw [hhome] at hheeds
  exact hheeds

/-- One confirmation is missing when the node could not apply the write, whose assignment is
confirmed by a newer one meanwhile. -/
def movedWrite : List Event :=
  [.ack ⟨0, 0⟩ 1 5, .activate (.of 6 [] (.ofList [(0, [0, 1, 2])]))]

theorem registered_heedsFailures_movedWrite :
    let e := Event.create (.ofList [1, 2]) 0 5
    let w : PendingWrite := ⟨⟨0, 0⟩, 5, .single 0 (.ofList [1, 2])⟩
    let c := (new 0 5 .default).run (e :: movedWrite)
    (new 0 5 .default).registration? e = some w ∧
      w.id ∉ ((new 0 5 .default).step e).value.2.issued movedWrite ∧
      c.engine.table.outcome? w.id = none ∧ c.activeEpoch = 6 ∧
      (c.run [.failLocally w.id 6 "disk", .ack w.id 2 6]).engine.table.outcome? w.id =
        some (.failure (.remote 0 "disk")) ∧
      (c.step (.failLocally w.id 5 "disk")).value.2 = c := by
  have h := registered_heedsFailures 0 5 .default [] (.create (.ofList [1, 2]) 0 5) movedWrite
    (w := ⟨⟨0, 0⟩, 5, .single 0 (.ofList [1, 2])⟩) rfl (by decide) (by decide)
  refine ⟨rfl, by decide, by decide, by decide, ?_, ?_⟩
  · exact h.heeded 6 "disk" [.ack ⟨0, 0⟩ 2 6] ⟨by decide, fun _ => by decide⟩ (by decide)
  · exact h.dropped 5 "disk" fun hcurrent => absurd (hcurrent.2 (by decide)) (by decide)

/-- A report with the epoch of the registration is too late for a write that has moved: the write
succeeds although the node could not apply it. -/
theorem failLocally_not_heeded_movedWrite :
    let e := Event.create (.ofList [1, 2]) 0 5
    let c := (new 0 5 .default).run (e :: movedWrite)
    (new 0 5 .default).registration? e = some ⟨⟨0, 0⟩, 5, .single 0 (.ofList [1, 2])⟩ ∧
      c.engine.table.hasPending ⟨0, 0⟩ = true ∧
      (c.run [.failLocally ⟨0, 0⟩ 5 "disk"]).engine.table.outcome? ⟨0, 0⟩ = none ∧
      (c.run [.failLocally ⟨0, 0⟩ 5 "disk", .ack ⟨0, 0⟩ 2 6]).engine.table.outcome? ⟨0, 0⟩ =
        some .success := by
  decide

end Coordinator
end BackupAcks
