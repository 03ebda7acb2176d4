import BackupAcks.Proofs.Coordinator.Failures

/-!
# How a write ends

A write that is created either ends at once, or it waits until an event decides it. The first
event that does dictates the outcome, and nothing after it changes it; an event that decides nothing
leaves the write waiting.

A run is followed event by event, as for the success of a write. What every step keeps is that no
deadline but its own is held for the write (`Watched`), so that the alarm's turn ends it by its own
deadline only.

Results:
* `Watched.outcome?_cons`: the first event decides the write, or what follows it does;
* `DecidedFirst.append`: what is decided stays decided;
* `exists_creation`: whatever has an outcome was created in the run;
* `created_attributed`: the outcome of every write that is created is attributed to its cause.
-/
namespace BackupAcks

namespace Coordinator

/-- The write that is created never has to wait, and ends at once. -/
inductive EndsAtOnce (c : Coordinator) (e : Event) : Outcome → Prop
  /-- Collection was shut down. -/
  | stopping {o : Requirement × Epoch} (order : e.order? = some o)
      (stopped : c.engine.table.stopped = true) : EndsAtOnce c e (.failure .stopping)
  /-- Nobody has to confirm it. -/
  | satisfied {o : Requirement × Epoch} (order : e.order? = some o)
      (running : c.engine.table.stopped = false) (nobody : o.1.pairs = []) :
      EndsAtOnce c e .success
  /-- As many writes as may wait do so already. -/
  | overloaded {o : Requirement × Epoch} (order : e.order? = some o)
      (running : c.engine.table.stopped = false) (somebody : o.1.pairs ≠ [])
      (limited : 0 < c.engine.table.capacity)
      (full : c.engine.table.capacity ≤ c.engine.table.size) :
      EndsAtOnce c e (.failure (.overloaded c.engine.table.size))

/-- The first event of the run that decides the write of the deadline `d` decides it as `o`. -/
inductive DecidedFirst (d : Deadline) (o : Outcome) : Coordinator → List Event → Prop
  | now {c : Coordinator} {e : Event} {es : List Event} {w : PendingWrite}
      (entry : c.waiting? e d.id = some w) (decides : c.Decides d w e o) :
      DecidedFirst d o c (e :: es)
  | later {c : Coordinator} {e : Event} {es : List Event} {w : PendingWrite}
      (entry : c.waiting? e d.id = some w) (undecided : ∀ o', ¬ c.Decides d w e o')
      (rest : DecidedFirst d o (c.step e).value.2 es) : DecidedFirst d o c (e :: es)

variable {c : Coordinator} {d : Deadline} {e : Event} {es : List Event} {w : PendingWrite}
  {o : Outcome}

theorem DecidedFirst.append (h : DecidedFirst d o c es) (fs : List Event) :
    DecidedFirst d o c (es ++ fs) := by
  induction h with
  | now entry decides => exact .now entry decides
  | later entry undecided _ ih => exact .later entry undecided ih

/-! ## From event to event -/

/-- The first event decides the write, or what follows it does. -/
theorem Watched.outcome?_cons (h : c.Watched d) (hw : c.waiting? e d.id = some w)
    (hh : (c.entered e).handle? d.id = some ⟨d.id, none⟩)
    (hid : d.id ∉ (c.step e).value.2.issued es)
    (hrest : ∀ x, (c.step e).value.2.engine.table.find? d.id = some x →
      (c.step e).value.2.engine.table.handle? d.id = some ⟨d.id, none⟩ →
      (((c.step e).value.2.run es).engine.table.outcome? d.id = some o ↔
        DecidedFirst d o (c.step e).value.2 es)) :
    (c.run (e :: es)).engine.table.outcome? d.id = some o ↔ DecidedFirst d o c (e :: es) := by
  cases ho : (c.ruling e w).outcome? with
  | some o' =>
    have hsettled : c.ruling e w = .settled o' := by
      cases hr : c.ruling e w with
      | settled x => rw [hr] at ho; cases ho; rfl
      | stale t => rw [hr] at ho; cases ho
      | waiting x => rw [hr] at ho; cases ho
    rw [(run_of_settled h.fenced.sound hw hsettled hh hid).2]
    constructor
    · intro heq
      cases heq
      exact .now hw ((h.decides_iff hw).1 ho)
    · intro hd
      cases hd with
      | now entry decides =>
        rw [hw] at entry
        cases entry
        rw [← ho]
        exact (h.decides_iff hw).2 decides
      | later entry undecided _ =>
        rw [hw] at entry
        cases entry
        exact absurd ((h.decides_iff hw).1 ho) (undecided o')
  | none =>
    have hstep := step_follows h.fenced.sound e
    obtain ⟨x, hx⟩ := exists_remaining? (w := w) ho
    have hf : (c.step e).value.2.engine.table.find? d.id = some x := by
      rw [hstep.find?_eq, find?_entered, hw, Option.bind_some, hx]
    have hundecided : ∀ o', ¬ c.Decides d w e o' := by
      intro o' hd
      have := (h.decides_iff hw).2 hd
      rw [ho] at this
      cases this
    rw [run_cons, hrest x hf ((hstep.handle?_of_find? hf).trans hh)]
    constructor
    · exact .later hw hundecided
    · intro hd
      cases hd with
      | now entry decides =>
        rw [hw] at entry
        cases entry
        exact absurd decides (hundecided o)
      | later _ _ rest => exact rest

/-- A write that waits ends by the first event that decides it. -/
theorem Watched.outcome?_iff (h : c.Watched d) (hf : c.engine.table.find? d.id = some w)
    (hh : c.engine.table.handle? d.id = some ⟨d.id, none⟩) (hid : d.id ∉ c.issued es) :
    (c.run es).engine.table.outcome? d.id = some o ↔ DecidedFirst d o c es := by
  induction es generalizing c w with
  | nil =>
    constructor
    · intro ho
      rw [show c.run [] = c from rfl, WriteTable.outcome?, hh] at ho
      cases ho
    · intro hd; cases hd
  | cons e es ih =>
    obtain ⟨hne, hrest⟩ := not_mem_issued_cons hid
    refine h.outcome?_cons ((waiting?_of_ne hne).trans hf) ((handle?_entered_of_ne hne).trans hh)
      hrest fun x hx hxh => ih (h.step fun y hy hyid => ?_) hx hxh hrest
    -- no other deadline is granted under the identifier
    refine absurd ((id_of_grant? hy).symm.trans hyid) (hne ?_)
    rw [← isSome_grant? c, hy]
    rfl

/-! ## The creation -/

theorem endsAtOnce_iff {r : Requirement × Epoch} (hr : e.order? = some r) :
    c.EndsAtOnce e o ↔ c.engine.table.immediateOutcome r.1 = some o := by
  have hsat : r.1.isSatisfied = true ↔ r.1.pairs = [] :=
    (Requirement.isSatisfied_iff (order?_dense hr)).trans List.eq_nil_iff_forall_not_mem.symm
  constructor
  · intro h
    cases h with
    | stopping order stopped => simp [WriteTable.immediateOutcome, stopped]
    | satisfied order running nobody =>
      rw [hr] at order
      cases order
      simp [WriteTable.immediateOutcome, running, hsat.2 nobody]
    | overloaded order running somebody limited full =>
      rw [hr] at order
      cases order
      simp [WriteTable.immediateOutcome, running, mt hsat.1 somebody, limited, full]
  · intro h
    unfold WriteTable.immediateOutcome at h
    split at h
    · rename_i hs
      cases h
      exact .stopping hr hs
    · rename_i hs
      have hs' := Bool.eq_false_iff.2 hs
      split at h
      · rename_i hnobody
        cases h
        exact .satisfied hr hs' (hsat.1 hnobody)
      · rename_i hsome
        split at h
        · rename_i hfull
          cases h
          exact .overloaded hr hs' (mt hsat.2 hsome) hfull.1 hfull.2
        · cases h

/-- Before its identifier is issued, nothing waits under it and no deadline is held for it. -/
theorem new_watched (home : NodeId) (epoch : Epoch) (s : Settings)
    (hid : d.id ∉ (new home epoch s).issued es) : ((new home epoch s).run es).Watched d :=
  ⟨(new_fenced home epoch s).run es, run_armed (new_armed home epoch s) es,
    fun _ hx hxid => absurd (mem_issued_of_mem_grants (run_held home epoch s hx)) (hxid ▸ hid)⟩

/-- What becomes of a write that is created by `e` and granted the deadline `d`. -/
structure Attributed (home : NodeId) (d : Deadline) (c : Coordinator) (e : Event)
    (after : List Event) : Prop where
  /-- The write has a handle. -/
  issued : ((c.run (e :: after)).engine.table.handle? d.id).isSome = true
  /-- It ends at once, or as the first event decides that decides it, and in no other way. -/
  outcome_iff : ∀ o, (c.run (e :: after)).engine.table.outcome? d.id = some o ↔
    c.EndsAtOnce e o ∨ DecidedFirst d o c (e :: after)
  /-- Once it has ended, nothing changes its outcome. -/
  kept : ∀ first rest o, after = first ++ rest →
    (c.run (e :: first)).engine.table.outcome? d.id = some o →
    (c.run (e :: after)).engine.table.outcome? d.id = some o
  /-- Throughout, what fails on the node itself is reported as the node's own failure, and it is the
  node's own segments that count. -/
  home_eq : ∀ es, (c.run es).engine.table.home = home ∧ (c.run es).engine.view.home = home

/-- A write that is created ends at once, or by the first event that decides it. -/
theorem Watched.created_outcome?_iff (h : c.Watched d)
    (hf : c.engine.table.find? d.id = none) (hd : c.grant? e = some d)
    (hid : d.id ∉ (c.step e).value.2.issued es) :
    (c.run (e :: es)).engine.table.outcome? d.id = some o ↔
      c.EndsAtOnce e o ∨ DecidedFirst d o c (e :: es) := by
  obtain ⟨r, hr⟩ := order?_of_grant? hd
  have hnext := id_of_grant? hd
  have hentered := handle?_entered_of_order hr hnext.symm
  rw [endsAtOnce_iff hr]
  cases hi : c.engine.table.immediateOutcome r.1 with
  | none =>
    have hreg : c.registration? e = some ⟨d.id, r.2, r.1⟩ :=
      registration?_eq_some_iff.2 ⟨hnext, hr, hi⟩
    rw [hi] at hentered
    rw [h.outcome?_cons (waiting?_eq_some_iff.2 (.inl ⟨hreg, rfl⟩)) hentered hid]
    · simp
    · intro x hx hxh
      refine (h.step fun y hy _ => ?_).outcome?_iff hx hxh hid
      rw [hd] at hy
      exact (Option.some.inj hy).symm
  | some o' =>
    have hw : c.waiting? e d.id = none := by
      rw [waiting?, registration?, hr, Option.bind_some, hi, hf]
      rfl
    have hno : ¬ DecidedFirst d o c (e :: es) := by
      intro hx
      cases hx with
      | now entry _ => rw [hw] at entry; cases entry
      | later entry _ _ => rw [hw] at entry; cases entry
    have hstep := step_follows h.fenced.sound e
    have hnone : (c.entered e).find? d.id = none := find?_entered.trans hw
    rw [WriteTable.outcome?, run_cons,
      run_handle?_of_none hstep.sound hid (hstep.find?_of_none hnone),
      hstep.handle?_of_none hnone, hentered, hi, or_iff_left hno]
    rfl

/-- A write that has an outcome was created at some event of the run, and has ended from there. -/
theorem exists_creation (home : NodeId) (epoch : Epoch) (s : Settings) {id : WriteId}
    (hn : creations es ≤ UInt64.size)
    (ho : ((new home epoch s).run es).engine.table.outcome? id = some o) :
    ∃ before e after d, es = before ++ e :: after ∧
      ((new home epoch s).run before).grant? e = some d ∧ d.id = id ∧
      (((new home epoch s).run before).EndsAtOnce e o ∨
        DecidedFirst d o ((new home epoch s).run before) (e :: after)) := by
  obtain ⟨k, hk, -⟩ := Option.bind_eq_some_iff.1 ho
  have hid : id ∈ ((new home epoch s).grants es).map (·.id) := by
    rw [grants_ids, ← WriteTable.handle?_isSome_iff, hk]
    rfl
  obtain ⟨d, hd, rfl⟩ := List.mem_map.1 hid
  obtain ⟨before, e, after, rfl, hgrant⟩ := mem_grants_iff.1 hd
  obtain ⟨r, hr⟩ := order?_of_grant? hgrant
  have hnext := id_of_grant? hgrant
  obtain ⟨hnew, hlater⟩ := nextId_not_mem_issued home epoch s hn (by rw [hr]; rfl)
  rw [← hnext] at hnew hlater
  rw [run_append, (new_watched home epoch s hnew).created_outcome?_iff
    (run_find?_of_none (new_sound home epoch s) hnew rfl) hgrant hlater] at ho
  exact ⟨before, e, after, d, rfl, hgrant, rfl, ho⟩

/-- **Every failure has its cause.** A write that is created ends at once, because collection was
shut down, nobody has to confirm it, or too many wait already; or it ends by the first event that
decides it, as that event dictates; and nothing changes the outcome afterwards. The run is followed
as long as the write's identifier is its own; see `nextId_not_mem_issued`. -/
theorem created_attributed (home : NodeId) (epoch : Epoch) (s : Settings) (before : List Event)
    (e : Event) (after : List Event) {d : Deadline}
    (hd : ((new home epoch s).run before).grant? e = some d)
    (hnew : d.id ∉ (new home epoch s).issued before)
    (hid : d.id ∉ (((new home epoch s).run before).step e).value.2.issued after) :
    Attributed home d ((new home epoch s).run before) e after := by
  have h := new_watched home epoch s hnew
  have hf : ((new home epoch s).run before).engine.table.find? d.id = none :=
    run_find?_of_none (new_sound home epoch s) hnew rfl
  refine ⟨?_, fun o => h.created_outcome?_iff hf hd hid, ?_, fun es => ⟨?_, ?_⟩⟩
  · rw [← run_append, WriteTable.handle?_isSome_iff, ← grants_ids]
    exact List.mem_map_of_mem (mem_grants_iff.2 ⟨before, e, after, rfl, hd⟩)
  · intro first rest o hafter ho
    subst hafter
    have hfirst : d.id ∉ (((new home epoch s).run before).step e).value.2.issued first := by
      rw [issued_append, List.mem_append, not_or] at hid
      exact hid.1
    rw [h.created_outcome?_iff hf hd hfirst] at ho
    rw [h.created_outcome?_iff hf hd hid]
    exact ho.imp_right fun hx => hx.append rest
  · rw [run_table_home h.fenced.sound, run_table_home (new_sound home epoch s)]
    rfl
  · rw [run_home, run_home]
    rfl

/-- A write to two segments. The node loses the one that is confirmed already, so that the write
moves on; a failure report from before is stale; the deadline passes; and a failure report and the
shutdown come too late. -/
def overdueEvents : List Event :=
  [.ack ⟨0, 0⟩ 1 5, .activate (.of 6 [] (.ofList [(0, [1]), (1, [0, 2])])),
   .error ⟨0, 0⟩ 2 5 "disk", .receive, .expire, .advance maxTimeout, .expire,
   .error ⟨0, 0⟩ 2 6 "disk", .stop]

theorem created_attributed_overdueEvents :
    let c := new 0 5 .default
    let e := Event.createSegmented (.ofList [(0, .ofList [1]), (1, .ofList [2])]) 5
    let d : Deadline := ⟨c.usualTimeout, ⟨0, 0⟩, c.usualTimeout⟩
    c.grant? e = some d ∧ d.id ∉ c.issued [] ∧ d.id ∉ (c.step e).value.2.issued overdueEvents ∧
      Attributed 0 d c e overdueEvents ∧
      (c.run (e :: overdueEvents)).engine.table.outcome? d.id =
        some (.failure (.timeout c.settings.remoteTimeoutMs)) ∧
      DecidedFirst d (.failure (.timeout c.settings.remoteTimeoutMs)) c (e :: overdueEvents) := by
  have hattributed := created_attributed 0 5 .default []
    (.createSegmented (.ofList [(0, .ofList [1]), (1, .ofList [2])]) 5) overdueEvents
    (d := ⟨(new 0 5 .default).usualTimeout, ⟨0, 0⟩, (new 0 5 .default).usualTimeout⟩)
    (by decide) (by decide) (by decide)
  have hend : (((new 0 5 .default).run []).run
      (.createSegmented (.ofList [(0, .ofList [1]), (1, .ofList [2])]) 5 ::
        overdueEvents)).engine.table.outcome? ⟨0, 0⟩ =
      some (.failure (.timeout (Settings.default).remoteTimeoutMs)) := by decide
  refine ⟨by decide, by decide, by decide, hattributed, hend, ?_⟩
  refine ((hattributed.outcome_iff _).1 hend).resolve_left fun hx => ?_
  cases hx

end Coordinator
end BackupAcks
