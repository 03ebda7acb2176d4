import BackupAcks.Proofs.Coordinator.EpochFence
import Mathlib.Data.List.Induction

/-!
# No wait for a node that lost the segment

A write that was registered for an epoch older than the active one relies on the assignment that was
accepted last: the node is primary of every segment it waits for, and it waits for listed owners
only. The sweep of an activation brings this about for the writes that wait then, and catching up
for those that are registered later.

The invariant is kept for one write and the epoch it was registered for (`Stands`): either it is at
that epoch still, or at the epoch of the stored assignment and conforming to it. Accepting an
assignment with the stored one's epoch leaves such a write alone, so the two have to be the same.

Results:
* `Stands.step`: how a write stands is kept by every event;
* `run_stands`: every write that waits stands as it was registered.
-/
namespace BackupAcks

namespace Coordinator

/-- The writes that are registered in a run and have to wait, as they are registered, the newest
first. -/
def registrations (c : Coordinator) : List Event → List PendingWrite
  | [] => []
  | e :: es => registrations (c.step e).value.2 es ++ (c.registration? e).toList

/-- In `v`, `home` is primary of every segment that the write waits for, and everyone that it waits
for is listed as an owner there. -/
def Conforms (home : NodeId) (v : Ownership) (w : PendingWrite) : Prop :=
  ∀ p ∈ w.requirement.pairs, v.primary? p.1 = some home ∧ p.2 ∈ v.ownersOf p.1

/-- How a write stands that was registered for epoch `t`. -/
inductive Stands (c : Coordinator) (t : Epoch) (w : PendingWrite) : Prop
  /-- It has not met anything newer yet. -/
  | asRegistered (epoch : w.epoch = t)
  /-- It has moved to the stored assignment. -/
  | moved {v : Ownership} (latest : c.engine.view.latest = some v) (epoch : w.epoch = v.epoch)
      (conforms : Conforms c.engine.view.home v w)

variable {c : Coordinator} {e : Event} {w w' : PendingWrite} {t : Epoch}

theorem registrations_concat (c : Coordinator) (es : List Event) (e : Event) :
    c.registrations (es ++ [e]) = ((c.run es).registration? e).toList ++ c.registrations es := by
  induction es generalizing c with
  | nil => simp [registrations, run]
  | cons x es ih =>
    rw [List.cons_append, registrations, ih, registrations, run_cons, List.append_assoc]

/-! ## One event -/

theorem Meets.latest {v : Ownership} (h : c.Meets w e v) :
    (c.step e).value.2.engine.view.latest = some v := by
  rw [step_view]
  rcases h with ⟨ho, ha⟩ | ⟨hr, hv⟩
  · rw [ho, Option.elim_some, ActiveView.offered, if_neg (UInt32.not_lt.2 ha)]
  · obtain ⟨-, ho, -⟩ := registration?_eq_some_iff.1 hr
    rw [offer?_of_order ho]
    exact hv

theorem Accounts.conforms {ρ : Ruling} (h : c.Accounts w e ρ) (hw : ρ.remaining? w = some w')
    {v : Ownership} (hv : c.Applies w e v) : Conforms c.engine.view.home v w' := by
  intro p hp
  obtain ⟨hpw, hd⟩ := (h.pairs w' hw p).1 hp
  refine ⟨hv.primary p hpw, ?_⟩
  by_cases hmem : p.2 ∈ v.ownersOf p.1
  · exact hmem
  · exact absurd (Discharges.lost hv hmem) hd

/-- How a write stands is kept by every event, as long as an assignment that is accepted with the
epoch of the stored one is the stored one. -/
theorem Stands.step (h : c.Stands t w) (hc : c.Fenced) (hacc : c.Accounts w e (c.ruling e w))
    (hrem : (c.ruling e w).remaining? w = some w')
    (hsame : ∀ u v, c.engine.view.latest = some u → e.offer? = some v → u.epoch = v.epoch → u = v) :
    (c.step e).value.2.Stands t w' := by
  by_cases happ : ∃ v, c.Applies w e v
  · obtain ⟨v, hv⟩ := happ
    refine .moved hv.meets.latest (hacc.moved w' v hrem hv.meets hv.newer).2 ?_
    rw [step_home]
    exact hacc.conforms hrem hv
  · have hepoch : w'.epoch = w.epoch := hacc.kept w' hrem fun v hv => happ ⟨v, hv⟩
    cases h with
    | asRegistered he => exact .asRegistered (hepoch.trans he)
    | moved hu hew hconf =>
      rename_i u
      have hconf' : Conforms c.engine.view.home u w' :=
        fun p hp => hconf p ((hacc.pairs w' hrem p).1 hp).1
      have hlatest : (c.step e).value.2.engine.view.latest = some u := by
        rw [step_view]
        cases ho : e.offer? with
        | none => exact hu
        | some v =>
          rw [Option.elim_some, ActiveView.offered]
          split
          · exact hu
          · -- the write is at the stored epoch and was passed over, so the offer is not newer
            rename_i ha
            have hle : v.epoch ≤ u.epoch := by
              rw [← hew, ← hepoch]
              exact hacc.le_of_meets hrem (.offered ho (UInt32.not_lt.1 ha))
            have hge : u.epoch ≤ v.epoch := by
              rw [hc.current u hu]
              exact UInt32.not_lt.1 ha
            rw [hsame u v hu ho (UInt32.le_antisymm hge hle)]
      refine .moved hlatest (hepoch.trans hew) ?_
      rw [step_home]
      exact hconf'

/-! ## Runs -/

/-- No two assignments are offered for one epoch. -/
def OnePerEpoch (events : List Event) : Prop :=
  ∀ u ∈ offers events, ∀ v ∈ offers events, u.epoch = v.epoch → u = v

theorem OnePerEpoch.init {events : List Event} (h : OnePerEpoch (events ++ [e])) :
    OnePerEpoch events := by
  have hsub : ∀ v ∈ offers events, v ∈ offers (events ++ [e]) := by
    intro v hv
    rw [offers, List.filterMap_append]
    exact List.mem_append_left _ hv
  exact fun u hu v hv => h u (hsub u hu) v (hsub v hv)

theorem mem_offers_of_latest {home : NodeId} {epoch : Epoch} {s : Settings} {events : List Event}
    {v : Ownership} (h : ((new home epoch s).run events).engine.view.latest = some v) :
    v ∈ offers events := by
  rw [run_latest] at h
  exact mem_of_mem_accepted (List.mem_of_getLast? h)

/-- Every write that waits stands as it was registered last. -/
theorem run_stands (home : NodeId) (epoch : Epoch) (s : Settings) {events : List Event}
    (hviews : OnePerEpoch events) {id : WriteId}
    (hf : ((new home epoch s).run events).engine.table.find? id = some w) :
    ∃ w₀, ((new home epoch s).registrations events).find? (·.id == id) = some w₀ ∧
      ((new home epoch s).run events).Stands w₀.epoch w := by
  -- on the last event: what it registers comes first in the list, before all earlier ones
  induction events using List.reverseRecOn generalizing w with
  | nil => cases hf
  | append_singleton es e ih =>
    have hc := (new_fenced home epoch s).run es
    rw [run_concat] at hf ⊢
    obtain ⟨x, hx, hrem, hacc⟩ := hc.entry_of_step hf
    have hsame : ∀ u v, ((new home epoch s).run es).engine.view.latest = some u →
        e.offer? = some v → u.epoch = v.epoch → u = v := by
      intro u v hu hv
      refine hviews u ?_ v ?_
      · rw [offers, List.filterMap_append]
        exact List.mem_append_left _ (mem_offers_of_latest hu)
      · rw [offers, List.filterMap_append]
        exact List.mem_append_right _ (by simp [hv])
    rw [registrations_concat, List.find?_append]
    rcases waiting?_eq_some_iff.1 hx with ⟨hr, hid⟩ | ⟨hne, hold⟩
    · refine ⟨x, ?_, (Stands.asRegistered rfl).step hc hacc hrem hsame⟩
      simp [hr, hid]
    · obtain ⟨w₀, hw₀, hstands⟩ := ih hviews.init hold
      refine ⟨w₀, ?_, hstands.step hc hacc hrem hsame⟩
      cases hr : ((new home epoch s).run es).registration? e with
      | none => simpa using hw₀
      | some y => simpa [hne y hr] using hw₀

/-- **No wait on a node that lost the segment.** In every run in which an assignment was accepted, a
write that waits and was registered for an older epoch than the active one waits only for nodes that
the assignment accepted last lists as owners, in segments of which it makes the node primary. -/
theorem run_conforms (home : NodeId) (epoch : Epoch) (s : Settings) (events : List Event)
    (hviews : OnePerEpoch events) {v : Ownership}
    (hv : (accepted epoch (offers events)).getLast? = some v) :
    ∀ w ∈ ((new home epoch s).run events).engine.table.pending,
      ∃ w₀, ((new home epoch s).registrations events).find? (·.id == w.id) = some w₀ ∧
        (w₀.epoch < ((new home epoch s).run events).activeEpoch → Conforms home v w) := by
  intro w hw
  have hc := (new_fenced home epoch s).run events
  rw [← run_latest home epoch s events] at hv
  obtain ⟨w₀, hw₀, hstands⟩ :=
    run_stands home epoch s hviews (hc.sound.find?_eq_some_iff.2 ⟨hw, rfl⟩)
  refine ⟨w₀, hw₀, fun hlt => ?_⟩
  cases hstands with
  | asRegistered he =>
    have hfence := hc.fence v hv w hw
    rw [hc.current v hv, he] at hfence
    exact absurd hlt (UInt32.not_lt.2 hfence)
  | moved hu _ hconf =>
    rw [hv] at hu
    cases hu
    rw [run_home] at hconf
    exact hconf

/-- An assignment is offered twice and an older one in between; one write is registered before all
of them and one after. -/
def repeatedOffers : List Event :=
  [.createSegmented (.ofList [(0, .ofList [1, 2]), (1, .ofList [3])]) 5,
   .activate (.of 6 [] (.ofList [(0, [0, 2]), (1, [0, 3])])),
   .activate (.of 5 [] (.ofList [(0, [1, 0])])),
   .activate (.of 6 [] (.ofList [(0, [0, 2]), (1, [0, 3])])),
   .create (.ofList [1, 2]) 0 4]

theorem run_conforms_repeatedOffers :
    let v : Ownership := .of 6 [] (.ofList [(0, [0, 2]), (1, [0, 3])])
    let w : PendingWrite := ⟨⟨0, 1⟩, 6, .single 0 (.ofList [2])⟩
    OnePerEpoch repeatedOffers ∧ (accepted 5 (offers repeatedOffers)).getLast? = some v ∧
      w ∈ ((new 0 5 .default).run repeatedOffers).engine.table.pending ∧
      (4 : Epoch) < ((new 0 5 .default).run repeatedOffers).activeEpoch ∧ Conforms 0 v w := by
  have hviews : OnePerEpoch repeatedOffers := by unfold OnePerEpoch; decide
  have hv : (accepted 5 (offers repeatedOffers)).getLast? =
      some (.of 6 [] (.ofList [(0, [0, 2]), (1, [0, 3])])) := by decide
  have hw : (⟨⟨0, 1⟩, 6, .single 0 (.ofList [2])⟩ : PendingWrite) ∈
      ((new 0 5 .default).run repeatedOffers).engine.table.pending := by decide
  have hlt : (4 : Epoch) < ((new 0 5 .default).run repeatedOffers).activeEpoch := by decide
  obtain ⟨w₀, hw₀, hconf⟩ := run_conforms 0 5 .default repeatedOffers hviews hv _ hw
  have hreg : ((new 0 5 .default).registrations repeatedOffers).find? (·.id == ⟨0, 1⟩) =
      some ⟨⟨0, 1⟩, 4, .single 0 (.ofList [1, 2])⟩ := by decide
  rw [hreg] at hw₀
  cases hw₀
  exact ⟨hviews, hv, hw, hlt, hconf hlt⟩

end Coordinator
end BackupAcks
