import BackupAcks.Proofs.Coordinator.Occasions

/-!
# The passing of time

The clock moves on to an instant; after that the sweeper empties its queue, and its alarm has its
turn. Nothing comes in meanwhile, and no write is created. If all writes are given the usual time,
every deadline has passed once that much more time has; so nothing waits after such a move.

Results:
* `run_moves`: moving the clock is running the events of it;
* `due_le_of_isUsual`: when deadlines have passed, if every write is given the usual time;
* `pending_run_moves`: when every deadline has passed, nothing waits.
-/
namespace BackupAcks

namespace Coordinator

/-- The passing of time, and what the sweeper does on account of it. -/
def Event.isTick : Event → Bool
  | .advance _ | .receive | .expire => true
  | _ => false

section Ticks

variable {e : Event} (h : e.isTick = true)

include h

theorem Event.order?_of_isTick : e.order? = none := by
  cases e <;> first | rfl | cases h

theorem Event.offer?_of_isTick : e.offer? = none := by
  cases e <;> first | rfl | cases h

theorem Event.time?_of_isTick (usual : Duration) : e.time? usual = none := by
  cases e <;> first | rfl | cases h

theorem Event.reply?_of_isTick (c : Coordinator) : c.reply? e = none := by
  cases e <;> first | rfl | cases h

theorem Event.not_reports_of_isTick : ¬ e.Reports := by
  intro hreports
  obtain ⟨c, n, id, t, cause, hreply⟩ := hreports
  rw [Event.reply?_of_isTick h] at hreply
  cases hreply

end Ticks

/-- The events by which the clock moves on to an instant, and the sweeper does what is due. -/
def moves (c : Coordinator) (i : Instant) : List Event :=
  .advance (i - c.engine.now) :: (List.replicate c.engine.desk.queue.length .receive ++ [.expire])

variable {c : Coordinator} {e : Event} {i : Instant}

theorem run_moves (c : Coordinator) (i : Instant) :
    c.run (c.moves i) = ({ c with engine := c.engine.advanceTo i } : Coordinator).settle.value := by
  have hnow : ∀ a b : Nat, a + (b - a) = max a b := fun a b => by omega
  rw [settle_eq_run, moves, run_cons]
  simp only [step, Logged.value_pure, Engine.advance, Engine.advanceTo, hnow]

theorem isTick_of_mem_moves (h : e ∈ c.moves i) : e.isTick = true := by
  simp only [moves, List.mem_cons, List.mem_append, List.mem_replicate, List.not_mem_nil,
    or_false] at h
  rcases h with rfl | ⟨-, rfl⟩ | rfl <;> rfl

theorem creations_of_isTick {es : List Event} (h : ∀ e ∈ es, e.isTick = true) :
    creations es = 0 := by
  refine List.countP_eq_zero.2 fun e he => ?_
  rw [Event.order?_of_isTick (h e he)]
  exact Bool.false_ne_true

/-- What comes in among some events: all of them but the passing of time. -/
def arrivals (es : List Event) : List Event := es.filter fun e => !e.isTick

theorem mem_arrivals {es : List Event} : e ∈ arrivals es ↔ e ∈ es ∧ e.isTick = false := by
  rw [arrivals, List.mem_filter, Bool.not_eq_true']

theorem arrivals_append (es fs : List Event) : arrivals (es ++ fs) = arrivals es ++ arrivals fs :=
  List.filter_append _ _

theorem arrivals_of_isTick {es : List Event} (h : ∀ e ∈ es, e.isTick = true) : arrivals es = [] :=
  List.eq_nil_iff_forall_not_mem.2 fun e he => by
    obtain ⟨hmem, hno⟩ := mem_arrivals.1 he
    rw [h e hmem] at hno
    cases hno

theorem creations_arrivals (es : List Event) : creations (arrivals es) = creations es := by
  rw [creations, arrivals, List.countP_filter, creations]
  refine List.countP_congr fun e _ => ?_
  cases h : e.isTick with
  | false => simp
  | true => simp [Event.order?_of_isTick h]

theorem now_run_moves (c : Coordinator) (i : Instant) :
    (c.run (c.moves i)).engine.now = max c.engine.now i := by
  rw [run_moves]
  rfl

/-! ## Past every deadline -/

variable {es : List Event} {home : NodeId} {epoch : Epoch} {s : Settings}

/-- What gives a write its time gives it the usual one. -/
def Event.IsUsual (e : Event) : Prop := ∀ usual time, e.time? usual = some time → time = usual

/-- Where every write is given the usual time, all deadlines have passed when this much more has. -/
theorem due_le_of_isUsual (hes : ∀ e ∈ es, e.IsUsual) {d : Deadline}
    (hd : d ∈ (new home epoch s).grants es) :
    d.due ≤ ((new home epoch s).run es).engine.now + (new home epoch s).usualTimeout := by
  obtain ⟨before, e, after, rfl, hgrant⟩ := mem_grants_iff.1 hd
  obtain ⟨time, htime, rfl⟩ := Option.map_eq_some_iff.1 hgrant
  have husual := hes e (List.mem_append_right _ List.mem_cons_self) _ _ htime
  rw [run_usualTimeout (new_sound home epoch s)] at husual
  rw [run_append, ← husual]
  exact Nat.add_le_add (run_now _ _) (Nat.min_le_left _ _)

theorem grants_of_isTick {c : Coordinator} (h : ∀ e ∈ es, e.isTick = true) : c.grants es = [] := by
  refine List.eq_nil_iff_forall_not_mem.2 fun d hd => ?_
  obtain ⟨before, e, after, rfl, hgrant⟩ := mem_grants_iff.1 hd
  obtain ⟨o, ho⟩ := order?_of_grant? hgrant
  rw [Event.order?_of_isTick (h e (List.mem_append_right _ List.mem_cons_self))] at ho
  cases ho

/-- Moving the clock is letting time pass, and then the sweeper do what is due. -/
theorem run_moves_eq_settle (c : Coordinator) (i : Instant) : c.run (c.moves i) =
    (c.run [.advance (i - c.engine.now)]).settle.value := by
  rw [settle_eq_run]
  rfl

/-- When every deadline that was granted has passed, nothing waits. -/
theorem pending_run_moves (hn : creations es ≤ UInt64.size) (hlost : .sweeperLost ∉ es)
    {i : Instant} (hdue : ∀ d ∈ (new home epoch s).grants es, d.due ≤ i) :
    (((new home epoch s).run es).run (((new home epoch s).run es).moves i)).engine.table.pending =
      [] := by
  have hticks : ∀ e ∈ ((new home epoch s).run es).moves i, e.isTick = true :=
    fun e he => isTick_of_mem_moves he
  have hsettle := run_moves_eq_settle ((new home epoch s).run es) i
  have hnow := now_run_moves ((new home epoch s).run es) i
  generalize ((new home epoch s).run es).moves i = moves at hticks hsettle hnow ⊢
  -- the clock has moved past `i`, and the sweeper has not yet done its work
  generalize hadvance : i - ((new home epoch s).run es).engine.now = d at hsettle
  have hended : ∀ x ∈ (new home epoch s).grants es,
      (((new home epoch s).run es).run moves).Ended x.id := by
    intro x hx
    rw [hsettle, ← run_append]
    refine run_settled home epoch s ?_ ?_ ?_ ?_
    · rw [creations_append]
      exact hn
    · simpa using hlost
    · rw [grants_concat]
      exact List.mem_append_right _ hx
    · have hpassed : x.due ≤ i := hdue x hx
      have hclock : ((new home epoch s).run (es ++ [.advance d])).engine.now =
          ((new home epoch s).run es).engine.now + d := by rw [run_append]; rfl
      rw [hclock]
      exact Nat.le_trans hpassed (Nat.sub_le_iff_le_add'.1 (Nat.le_of_eq hadvance))
  have hcreations : creations (es ++ moves) ≤ UInt64.size := by
    rw [creations_append, creations_of_isTick hticks]
    exact hn
  have hlost' : .sweeperLost ∉ es ++ moves := by
    rw [List.mem_append, not_or]
    exact ⟨hlost, fun h => by cases hticks _ h⟩
  refine List.eq_nil_iff_forall_not_mem.2 fun w hw => ?_
  rw [← run_append] at hw
  obtain ⟨x, hx, hxid, -⟩ := run_covered home epoch s hcreations hlost' w hw
  rw [grants_append, grants_of_isTick hticks, List.nil_append] at hx
  have hnone := (hended x hx).1
  have hsound := run_sound (new_sound home epoch s) (es ++ moves)
  have hsome := hsound.find?_eq_some_iff.2 ⟨hw, hxid.symm⟩
  rw [run_append, hnone] at hsome
  cases hsome

end Coordinator
end BackupAcks
