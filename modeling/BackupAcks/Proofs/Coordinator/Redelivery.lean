import BackupAcks.Proofs.Coordinator.EpochFence
import BackupAcks.Proofs.Write.Narrowing
import BackupAcks.Reply

/-!
# Replies that come more than once

The network may deliver a reply again, at any later time and in any state. A reply that was
delivered has nothing left to change (`Heard`): either it is stale, and stays so because epochs do
not go back, or its sender owes nothing any more that it would confirm, and nobody is added to
whom a write waits for. This lasts until the identifier it names is issued to another write.

Results:
* `Fenced.heard_of_reply`: a reply that was delivered was heard;
* `Fenced.heard_step`: and stays so;
* `step_of_heard`: a heard reply changes nothing;
* `redelivered_unnoticed`: a run with further copies of replies is the run without them.
-/
namespace BackupAcks

open WriteTable (only only_self only_of_ne)
open PendingWrite (Retains andThen)

/-- A reply of `n` that would leave `w` as it is. -/
def Reply.Keeps (n : NodeId) (r : Reply) (w : PendingWrite) : Prop :=
  (r.ruling n w).remaining? w = some w

namespace Reply

variable {n : NodeId} {r : Reply} {w w' : PendingWrite}

theorem retains_ruling (n : NodeId) (r : Reply) : Retains (r.ruling n) := by
  cases r with
  | ack id epoch => exact PendingWrite.retains_ack n epoch none
  | segmentAck id epoch segment => exact PendingWrite.retains_ack n epoch (some segment)
  | errorAck id epoch cause => exact PendingWrite.retains_error n epoch cause

theorem lawful_ruling (n : NodeId) (r : Reply) : PendingWrite.Lawful (r.ruling n) := by
  cases r with
  | ack id epoch => exact PendingWrite.lawful_ack n epoch none
  | segmentAck id epoch segment => exact PendingWrite.lawful_ack n epoch (some segment)
  | errorAck id epoch cause => exact PendingWrite.lawful_error n epoch cause

theorem Keeps.narrows (h : r.Keeps n w) (hl : w.requirement.Live) (hn : w.Narrows w') :
    r.Keeps n w' := by
  cases r with
  | ack id epoch => exact hn.ack_keeps hl h
  | segmentAck id epoch segment => exact hn.ack_keeps hl h
  | errorAck id epoch cause => exact hn.error_keeps h

/-- Once a reply was taken in, it leaves the rest of the write as it is. -/
theorem keeps_of_ruling (hl : w.requirement.Live) (h : (r.ruling n w).remaining? w = some w') :
    r.Keeps n w' := by
  cases r with
  | ack id epoch => exact PendingWrite.ack_keeps_of_ack hl h
  | segmentAck id epoch segment => exact PendingWrite.ack_keeps_of_ack hl h
  | errorAck id epoch cause => exact PendingWrite.error_keeps_of_error h

end Reply

/-! ## Every event takes pairs off -/

namespace PendingWrite

variable {ρ σ : PendingWrite → Ruling}

theorem retains_only (id : WriteId) (h : Retains ρ) : Retains (only id ρ) := by
  intro w w' hd hw
  unfold only at hw
  split at hw
  · exact h w w' hd hw
  · exact retains_waiting w w' hd hw

theorem retains_andThen (h : Retains ρ) (h' : Retains σ) : Retains (andThen ρ σ) := by
  intro w w' hd hw
  rw [remaining?_andThen, Option.bind_eq_some_iff] at hw
  obtain ⟨x, hx, hw⟩ := hw
  obtain ⟨first, hfirst⟩ := h w x hd hx
  obtain ⟨second, hsecond⟩ := h' x w' (hfirst ▸ Requirement.retain_dense _ _) hw
  exact ⟨_, by rw [hsecond, hfirst, Requirement.retain_retain]⟩

end PendingWrite

namespace Coordinator

variable {c : Coordinator} {e : Event} {es : List Event} {n : NodeId} {r : Reply}
  {w w' : PendingWrite}

theorem retains_catchUp (a : ActiveView) (epoch : Epoch) : Retains (a.catchUpRuling epoch) := by
  intro w w' hd hw
  unfold ActiveView.catchUpRuling at hw
  split at hw
  · exact PendingWrite.retains_waiting w w' hd hw
  · split at hw
    · exact PendingWrite.retains_waiting w w' hd hw
    · exact PendingWrite.retains_adopt a.home _ w w' hd hw

theorem retains_deadline (c : Coordinator) (r : Requirement) : Retains (c.deadlineRuling r) := by
  intro w w' hd hw
  unfold deadlineRuling at hw
  split at hw
  · exact PendingWrite.retains_waiting w w' hd hw
  · cases hw

theorem retains_ruling (c : Coordinator) (e : Event) : Retains (c.ruling e) := by
  cases ho : e.order? with
  | some o =>
    rw [ruling_of_order ho]
    exact PendingWrite.retains_andThen (PendingWrite.retains_only _ (retains_catchUp _ _))
      (PendingWrite.retains_only _ (retains_deadline c o.1))
  | none =>
    cases hr : c.reply? e with
    | some x =>
      rw [ruling_of_reply hr]
      exact PendingWrite.retains_only _ (Reply.retains_ruling x.1 x.2)
    | none =>
      cases hv : e.offer? with
      | some v =>
        rw [eq_activate_of_offer hv, ruling]
        split
        · exact PendingWrite.retains_waiting
        · exact PendingWrite.retains_adopt _ v
      | none =>
        by_cases hm : ∃ members, e = .restrict members
        · obtain ⟨members, rfl⟩ := hm
          exact PendingWrite.retains_dropDeparted members
        · intro w w' hd hw
          rcases ruling_of_quiet ho hr hv (fun members he => hm ⟨members, he⟩) w with hq | ⟨f, hq⟩
          · rw [hq] at hw
            exact PendingWrite.retains_waiting w w' hd hw
          · rw [hq] at hw
            cases hw

/-- What waits after an event is left of what waited when it came. -/
theorem Fenced.narrows_of_step (h : c.Fenced) {id : WriteId}
    (hf : (c.step e).value.2.engine.table.find? id = some w') :
    ∃ w, c.waiting? e id = some w ∧ w.requirement.Live ∧
      (c.ruling e w).remaining? w = some w' ∧ w.Narrows w' := by
  obtain ⟨w, hw, hrem, hacc⟩ := h.entry_of_step hf
  have hl := h.live hw
  refine ⟨w, hw, hl, hrem, ⟨?_, hacc.epoch_le hrem, ?_, fun p hp => ?_⟩,
    retains_ruling c e w w' hl.dense hrem⟩
  · rw [WriteTable.id_of_find? hf, id_of_waiting? hw]
  · exact (step_sound h.sound e).live_of_find? hf
  · exact ((hacc.pairs w' hrem p).1 hp).1

/-! ## Replies that were heard -/

/-- The write that the reply is about, if it waits, is left as it is by the reply. -/
def Heard (c : Coordinator) (n : NodeId) (r : Reply) : Prop :=
  ∀ w, c.engine.table.find? r.id = some w → r.Keeps n w

theorem deliver_of_heard (hs : c.engine.table.Sound) (h : c.Heard n r) :
    (c.engine.table.deliver n r).value.2 = c.engine.table := by
  have hsweep : (c.engine.table.sweep (only r.id (r.ruling n))).2 = c.engine.table := by
    rw [hs.sweep_eq_self]
    intro w hw
    by_cases hid : w.id = r.id
    · have hkeeps := h w (hs.find?_eq_some_iff.2 ⟨hw, hid⟩)
      rw [← hid, only_self]
      refine ⟨?_, hkeeps⟩
      cases hr : r.ruling n w with
      | settled o => rw [Reply.Keeps, hr] at hkeeps; cases hkeeps
      | stale t => rfl
      | waiting x => rfl
    · rw [only_of_ne _ hid]
      exact ⟨rfl, rfl⟩
  have hlawful := r.lawful_ruling n
  cases r with
  | ack id epoch => exact (hs.apply_eq_sweep hlawful .ack).trans hsweep
  | segmentAck id epoch segment => exact (hs.apply_eq_sweep hlawful .segmentAck).trans hsweep
  | errorAck id epoch cause =>
    simp only [WriteTable.deliver, WriteTable.error_value]
    exact (hs.apply_eq_sweep hlawful .error).trans hsweep

theorem step_of_heard (hs : c.engine.table.Sound) (hr : c.reply? e = some (n, r))
    (h : c.Heard n r) : (c.step e).value.2 = c := by
  rw [step_of_reply hr, deliver_of_heard hs h]

theorem Fenced.heard_of_reply (h : c.Fenced) (hr : c.reply? e = some (n, r)) :
    (c.step e).value.2.Heard n r := by
  intro w' hf
  obtain ⟨w, hw, hl, hrem, -⟩ := h.narrows_of_step hf
  rw [ruling_of_reply hr, ← id_of_waiting? hw, only_self] at hrem
  exact Reply.keeps_of_ruling hl hrem

/-- A heard reply stays heard, unless its identifier is issued to a new write. -/
theorem Fenced.heard_step (h : c.Fenced) (hh : c.Heard n r)
    (hid : e.order?.isSome = true → c.nextId ≠ r.id) : (c.step e).value.2.Heard n r := by
  intro w' hf
  obtain ⟨w, hw, hl, -, hn⟩ := h.narrows_of_step hf
  rw [waiting?_of_ne hid] at hw
  exact (hh w hw).narrows hl hn

theorem Fenced.heard_run (h : c.Fenced) (hh : c.Heard n r) (hid : r.id ∉ c.issued es) :
    (c.run es).Heard n r := by
  induction es generalizing c with
  | nil => exact hh
  | cons e es ih =>
    obtain ⟨hne, hrest⟩ := not_mem_issued_cons hid
    exact ih (h.step e) (h.heard_step hh hne) hrest

/-! ## Runs with copies -/

/-- An event of a run, in its own right or as a further copy of a reply. -/
inductive Occurrence where
  | call (e : Event)
  | copy (e : Event)

def performed : List Occurrence → List Event
  | [] => []
  | .call e :: os | .copy e :: os => e :: performed os

/-- What is left when the copies are left out. -/
def calls : List Occurrence → List Event
  | [] => []
  | .call e :: os => e :: calls os
  | .copy _ :: os => calls os

/-- What every event of a run returns, and the state that it leaves. -/
def trace (c : Coordinator) : List Event → List (Answer × Coordinator)
  | [] => []
  | e :: es => (c.step e).value :: trace (c.step e).value.2 es

/-- The same, of the events of a run that are no copies. -/
def observed (c : Coordinator) : List Occurrence → List (Answer × Coordinator)
  | [] => []
  | .call e :: os => (c.step e).value :: observed (c.step e).value.2 os
  | .copy e :: os => observed (c.step e).value.2 os

/-- The replies that were delivered so far, after one more event. Those are left out that name an
identifier which was issued since. -/
def delivered (c : Coordinator) (e : Event) (before : List (NodeId × Reply)) :
    List (NodeId × Reply) :=
  (c.reply? e).toList ++ before.filter fun x => !(e.order?.isSome && c.nextId == x.2.id)

/-- Every copy in the run is one of a reply that was delivered earlier, by the same node and to the
same write, in whatever form. -/
def Redelivers (c : Coordinator) (before : List (NodeId × Reply)) : List Occurrence → Prop
  | [] => True
  | .call e :: os => Redelivers (c.step e).value.2 (c.delivered e before) os
  | .copy e :: os =>
    (∃ x ∈ before, c.reply? e = some x) ∧ Redelivers (c.step e).value.2 before os

instance decidableRedelivers : (c : Coordinator) → (before : List (NodeId × Reply)) →
    (os : List Occurrence) → Decidable (c.Redelivers before os)
  | _, _, [] => .isTrue trivial
  | c, before, .call e :: os => decidableRedelivers (c.step e).value.2 (c.delivered e before) os
  | c, before, .copy e :: os =>
    have := decidableRedelivers (c.step e).value.2 before os
    inferInstanceAs (Decidable ((∃ x ∈ before, c.reply? e = some x) ∧
      (c.step e).value.2.Redelivers before os))

theorem Fenced.heard_of_delivered (h : c.Fenced) {before : List (NodeId × Reply)}
    (hh : ∀ x ∈ before, c.Heard x.1 x.2) :
    ∀ x ∈ c.delivered e before, (c.step e).value.2.Heard x.1 x.2 := by
  intro x hx
  rcases List.mem_append.1 hx with hx | hx
  · exact h.heard_of_reply (Option.mem_toList.1 hx)
  · obtain ⟨hx, hid⟩ := List.mem_filter.1 hx
    refine h.heard_step (hh x hx) fun ho heq => ?_
    simp [ho, heq] at hid

theorem Fenced.unnoticed (h : c.Fenced) {before : List (NodeId × Reply)} {os : List Occurrence}
    (hh : ∀ x ∈ before, c.Heard x.1 x.2) (hos : c.Redelivers before os) :
    c.observed os = c.trace (calls os) ∧ c.run (performed os) = c.run (calls os) := by
  induction os generalizing c before with
  | nil => exact ⟨rfl, rfl⟩
  | cons o os ih =>
    cases o with
    | call e =>
      obtain ⟨hobserved, hrun⟩ := ih (h.step e) (h.heard_of_delivered hh) hos
      refine ⟨?_, ?_⟩
      · rw [observed, calls, trace, hobserved]
      · rw [performed, calls, run_cons, run_cons, hrun]
    | copy e =>
      obtain ⟨⟨x, hx, hr⟩, hos⟩ := hos
      have hstep := step_of_heard h.sound hr (hh x hx)
      rw [hstep] at hos
      rw [observed, performed, calls, run_cons, hstep]
      exact ih h hh hos

/-- **Replies may come any number of times.** Let a run contain further copies of replies that were
delivered before, at any later points and in any form. All other events return what they return
without the copies, and leave the same state behind, and so does the whole run. A copy counts as one
until the identifier that it names is issued to another write; see `nthId_not_mem_issued`. -/
theorem redelivered_unnoticed (home : NodeId) (epoch : Epoch) (s : Settings) (os : List Occurrence)
    (h : (new home epoch s).Redelivers [] os) :
    (new home epoch s).observed os = (new home epoch s).trace (calls os) ∧
      (new home epoch s).run (performed os) = (new home epoch s).run (calls os) :=
  (new_fenced home epoch s).unnoticed (fun _ hx => absurd hx List.not_mem_nil) h

/-- Copies come after an activation, after a departure, and after the write has ended. -/
def stormyRun : List Occurrence :=
  [.call (.createSegmented (.ofList [(0, .ofList [1, 2]), (1, .ofList [2, 3])]) 5),
   .call (.segmentAck ⟨0, 0⟩ 2 5 0), .call (.bytes 1 (Reply.ack ⟨0, 0⟩ 5).encode),
   .copy (.segmentAck ⟨0, 0⟩ 2 5 0), .call (.create (.ofList [1, 2]) 0 5),
   .call (.activate (.of 6 [] (.ofList [(0, [0, 1, 2]), (1, [0, 2, 3])]))),
   .copy (.ack ⟨0, 0⟩ 1 5), .call (.reply 2 (.segmentAck ⟨0, 0⟩ 6 1)),
   .call (.restrict (.ofList [0, 1, 3])), .copy (.reply 2 (.segmentAck ⟨0, 0⟩ 6 1)),
   .call (.error ⟨0, 0⟩ 3 6 "disk"), .copy (.error ⟨0, 0⟩ 3 6 "disk"),
   .copy (.bytes 1 (Reply.ack ⟨0, 0⟩ 5).encode), .call (.ack ⟨0, 1⟩ 1 6)]

theorem redelivered_unnoticed_stormyRun :
    (new 0 5 .default).Redelivers [] stormyRun ∧
      (performed stormyRun).length = (calls stormyRun).length + 5 ∧
      (new 0 5 .default).observed stormyRun = (new 0 5 .default).trace (calls stormyRun) ∧
      (new 0 5 .default).run (performed stormyRun) = (new 0 5 .default).run (calls stormyRun) := by
  have hos : (new 0 5 .default).Redelivers [] stormyRun := by decide
  exact ⟨hos, by decide, redelivered_unnoticed 0 5 .default stormyRun hos⟩

end Coordinator
end BackupAcks
