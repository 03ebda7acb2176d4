import BackupAcks.Proofs.Coordinator.Discharge

/-!
# The fence of the active epoch

Assignments may be offered in any order; those older than the one accepted last are refused. Once
one was accepted, every write that waits is at least as new as the active epoch, whether it was
registered before the activation or after it, so that answers to anything older find nobody.

Results:
* `run_latest`: the stored assignment is the one accepted last;
* `Fenced.step_of_older_reply`: a reply from before the active epoch changes nothing;
* `Fenced.epoch_le_of_run`: the epoch of a write never goes back.
-/
namespace BackupAcks

namespace Coordinator

def activeEpoch (c : Coordinator) : Epoch := c.engine.view.epoch

def offers (events : List Event) : List Ownership := events.filterMap Event.offer?

/-- The assignments that are accepted of those offered: none is older than `t` or than the one
accepted before it. -/
def accepted (t : Epoch) : List Ownership → List Ownership
  | [] => []
  | v :: vs => if v.epoch < t then accepted t vs else v :: accepted v.epoch vs

variable {c : Coordinator} {e : Event}

/-! ## What is accepted -/

theorem run_view (c : Coordinator) (events : List Event) :
    (c.run events).engine.view =
      (offers events).foldl (fun a v => a.offered v) c.engine.view := by
  induction events generalizing c with
  | nil => rfl
  | cons e es ih =>
    rw [run_cons, ih, step_view]
    cases ho : e.offer? with
    | none => rw [offers, offers, List.filterMap_cons_none ho]; rfl
    | some v => rw [offers, offers, List.filterMap_cons_some ho]; rfl

theorem offered_latest (a : ActiveView) (vs : List Ownership) :
    (vs.foldl (fun a v => a.offered v) a).latest = (accepted a.epoch vs).getLast?.or a.latest := by
  induction vs generalizing a with
  | nil => rfl
  | cons v vs ih =>
    rw [List.foldl_cons, ih, ActiveView.offered, accepted]
    split
    · rfl
    · rw [List.getLast?_cons]
      cases (accepted v.epoch vs).getLast? <;> rfl

theorem run_latest (home : NodeId) (epoch : Epoch) (s : Settings) (events : List Event) :
    ((new home epoch s).run events).engine.view.latest =
      (accepted epoch (offers events)).getLast? := by
  rw [run_view, offered_latest]
  exact Option.or_none

theorem mem_of_mem_accepted {t : Epoch} {vs : List Ownership} {v : Ownership}
    (h : v ∈ accepted t vs) : v ∈ vs := by
  induction vs generalizing t with
  | nil => cases h
  | cons u vs ih =>
    rw [accepted] at h
    split at h
    · exact List.mem_cons_of_mem _ (ih h)
    · rcases List.mem_cons.1 h with rfl | h
      · exact List.mem_cons_self
      · exact List.mem_cons_of_mem _ (ih h)

/-! ## Older replies -/

theorem deliver_of_older {t : WriteTable} (n : NodeId) (r : Reply)
    (h : ∀ w, t.find? r.id = some w → r.epoch < w.epoch) : (t.deliver n r).value.2 = t := by
  have happly : ∀ kind rule, (∀ w, r.epoch < w.epoch → rule w = .stale w.epoch) →
      (t.apply r.id kind rule).value.2 = t := by
    intro kind rule hrule
    cases hf : t.find? r.id with
    | none => simp only [WriteTable.apply, hf]
    | some w =>
      simp only [WriteTable.apply, hf, hrule w (h w hf)]
      split <;> rfl
  cases r with
  | ack id t' => exact happly .ack _ fun w => PendingWrite.ack_stale
  | segmentAck id t' s => exact happly .segmentAck _ fun w => PendingWrite.ack_stale
  | errorAck id t' cause =>
    simp only [WriteTable.deliver, WriteTable.error_value]
    exact happly .error _ fun w => PendingWrite.error_stale

theorem Fenced.step_of_older_reply (h : c.Fenced) (hv : c.engine.view.latest.isSome = true)
    {n : NodeId} {r : Reply} (hr : c.reply? e = some (n, r)) (ht : r.epoch < c.activeEpoch) :
    (c.step e).value.2 = c := by
  obtain ⟨v, hv⟩ := Option.isSome_iff_exists.1 hv
  rw [step_of_reply hr, deliver_of_older n r]
  intro w hf
  have hfence := h.fence v hv w (WriteTable.mem_of_find? hf)
  rw [h.current v hv] at hfence
  exact UInt32.lt_of_lt_of_le ht hfence

/-! ## Epochs of writes -/

theorem Fenced.epoch_le_of_run (h : c.Fenced) {es : List Event} {id : WriteId}
    {w w' : PendingWrite} (hid : id ∉ c.issued es) (hw : c.engine.table.find? id = some w)
    (hw' : (c.run es).engine.table.find? id = some w') : w.epoch ≤ w'.epoch := by
  induction es generalizing c w with
  | nil =>
    rw [show c.run [] = c from rfl, hw] at hw'
    cases hw'
    exact UInt32.le_refl _
  | cons e es ih =>
    obtain ⟨hne, hrest⟩ := not_mem_issued_cons hid
    cases hf : (c.step e).value.2.engine.table.find? id with
    | none =>
      rw [run_cons, run_find?_of_none (step_sound h.sound e) hrest hf] at hw'
      cases hw'
    | some x =>
      obtain ⟨y, hy, hrem, hacc⟩ := h.entry_of_step hf
      rw [waiting?_of_ne hne, hw] at hy
      cases hy
      exact UInt32.le_trans (hacc.epoch_le hrem) (ih (h.step e) hrest hf hw')

/-! ## The fence -/

/-- No write that waits is older than the active epoch, and no reply from before it, for whatever
write, from whomever and in whatever form, has any effect. -/
structure FencesOff (c : Coordinator) : Prop where
  pending : ∀ w ∈ c.engine.table.pending, c.activeEpoch ≤ w.epoch
  replies : ∀ e n r, c.reply? e = some (n, r) → r.epoch < c.activeEpoch → (c.step e).value.2 = c

/-- **Epoch fence.** In every run in which an assignment was accepted, what is older than the active
epoch is fenced off; and in every run the epoch of a write never goes back while it waits, until its
identifier is issued to another one (`pending_not_mem_issued`). -/
theorem run_fencesOff (home : NodeId) (epoch : Epoch) (s : Settings) (events : List Event) :
    (accepted epoch (offers events) ≠ [] → ((new home epoch s).run events).FencesOff) ∧
      ∀ more id w w', id ∉ ((new home epoch s).run events).issued more →
        ((new home epoch s).run events).engine.table.find? id = some w →
        ((new home epoch s).run (events ++ more)).engine.table.find? id = some w' →
        w.epoch ≤ w'.epoch := by
  have h := (new_fenced home epoch s).run events
  refine ⟨fun hacc => ?_, fun more id w w' hid hw hw' => ?_⟩
  · have hv : ((new home epoch s).run events).engine.view.latest.isSome = true := by
      rw [run_latest, List.getLast?_isSome]
      exact hacc
    refine ⟨fun w hw => ?_, fun e n r hr ht => h.step_of_older_reply hv hr ht⟩
    obtain ⟨v, hv⟩ := Option.isSome_iff_exists.1 hv
    have hfence := h.fence v hv w hw
    rw [h.current v hv] at hfence
    exact hfence
  · rw [run_append] at hw'
    exact h.epoch_le_of_run hid hw hw'

/-- Two writes, one of them registered behind the assignment that was accepted before it. -/
def aroundActivation : List Event :=
  [.create (.ofList [1, 2]) 0 5, .activate (.of 6 [] (.ofList [(0, [0, 1, 2])])),
   .activate (.of 5 [] (.ofList [(0, [1, 0])])), .create (.ofList [1, 2]) 0 5]

/-- One confirmation comes in, and the next assignment is accepted. -/
def nextActivation : List Event :=
  [.ack ⟨0, 0⟩ 1 6, .activate (.of 7 [] (.ofList [(0, [0, 2])]))]

theorem run_fencesOff_aroundActivation :
    let c := (new 0 5 .default).run aroundActivation
    accepted 5 (offers aroundActivation) ≠ [] ∧ c.FencesOff ∧
      c.reply? (.ack ⟨0, 1⟩ 1 5) = some (1, .ack ⟨0, 1⟩ 5) ∧ 5 < c.activeEpoch ∧
      (c.step (.ack ⟨0, 1⟩ 1 5)).value.2 = c ∧
      ∃ w w', ⟨0, 0⟩ ∉ c.issued nextActivation ∧ c.engine.table.find? ⟨0, 0⟩ = some w ∧
        ((new 0 5 .default).run (aroundActivation ++ nextActivation)).engine.table.find? ⟨0, 0⟩ =
          some w' ∧ w.epoch ≤ w'.epoch := by
  have h := run_fencesOff 0 5 .default aroundActivation
  have hacc : accepted 5 (offers aroundActivation) ≠ [] := by decide
  refine ⟨hacc, h.1 hacc, rfl, by decide, (h.1 hacc).replies _ _ _ rfl (by decide), ?_⟩
  refine ⟨⟨⟨0, 0⟩, 6, .single 0 (.ofList [1, 2])⟩, ⟨⟨0, 0⟩, 7, .single 0 (.ofList [2])⟩, ?_⟩
  have hid : ⟨0, 0⟩ ∉ ((new 0 5 .default).run aroundActivation).issued nextActivation := by decide
  have hw : ((new 0 5 .default).run aroundActivation).engine.table.find? ⟨0, 0⟩ =
      some ⟨⟨0, 0⟩, 6, .single 0 (.ofList [1, 2])⟩ := by decide
  have hw' : ((new 0 5 .default).run
      (aroundActivation ++ nextActivation)).engine.table.find? ⟨0, 0⟩ =
      some ⟨⟨0, 0⟩, 7, .single 0 (.ofList [2])⟩ := by decide
  exact ⟨hid, hw, hw', h.2 nextActivation _ _ _ hid hw hw'⟩

end Coordinator
end BackupAcks
