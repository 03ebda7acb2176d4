import BackupAcks.Proofs.Coordinator.DeadlineCoverage
import BackupAcks.Proofs.Coordinator.Isolation

/-!
# What an outcome takes

Every outcome that a write has in a run was brought about by one event of it: the write ended at
once when it was created, or the event decided it. A run in which certain events do not occur can
thus not end writes in certain ways, however often it was disturbed otherwise.

Results:
* `exists_occasion`: the event that brought an outcome about;
* `run_occasioned`: the events that there were, for each kind of outcome.
-/
namespace BackupAcks

namespace Coordinator

variable {c : Coordinator} {e : Event} {es before : List Event} {id : WriteId} {o : Outcome}

/-! ## What all writes share, in a run -/

theorem run_frame (h : c.engine.table.Sound) (es : List Event) :
    (c.run es).frame = es.foldl .after c.frame := by
  induction es generalizing c with
  | nil => rfl
  | cons e es ih => rw [run_cons, ih (step_sound h e), frame_step h, List.foldl_cons]

namespace Frame

variable {f : Frame}

theorem settings_foldl (f : Frame) (es : List Event) : (es.foldl after f).settings = f.settings := by
  induction es generalizing f with
  | nil => rfl
  | cons e es ih => rw [List.foldl_cons, ih]; cases e <;> rfl

theorem stopped_foldl (h : .stop ∉ es) : (es.foldl after f).stopped = f.stopped := by
  induction es generalizing f with
  | nil => rfl
  | cons e es ih =>
    obtain ⟨he, hes⟩ := List.ne_and_not_mem_of_not_mem_cons h
    rw [List.foldl_cons, ih hes]
    cases e <;> first | rfl | exact absurd rfl he

theorem isOpen_foldl (hstop : .stop ∉ es) (hlost : .sweeperLost ∉ es) :
    (es.foldl after f).isOpen = f.isOpen := by
  induction es generalizing f with
  | nil => rfl
  | cons e es ih =>
    obtain ⟨he, hes⟩ := List.ne_and_not_mem_of_not_mem_cons hstop
    obtain ⟨hl, hls⟩ := List.ne_and_not_mem_of_not_mem_cons hlost
    rw [List.foldl_cons, ih hes hls]
    cases e <;> first | rfl | exact absurd rfl he | exact absurd rfl hl

end Frame

theorem run_settings (h : c.engine.table.Sound) (es : List Event) :
    (c.run es).settings = c.settings :=
  (congrArg Frame.settings (run_frame h es)).trans (Frame.settings_foldl _ es)

theorem run_usualTimeout (h : c.engine.table.Sound) (es : List Event) :
    (c.run es).usualTimeout = c.usualTimeout := by
  rw [usualTimeout, run_settings h, usualTimeout]

theorem run_view_of_unoffered (h : ∀ e ∈ es, e.offer? = none) :
    (c.run es).engine.view = c.engine.view := by
  rw [run_view, offers, List.filterMap_eq_nil_iff.2 h, List.foldl_nil]

theorem run_stopped (h : c.engine.table.Sound) (hes : .stop ∉ es) :
    (c.run es).engine.table.stopped = c.engine.table.stopped :=
  (congrArg Frame.stopped (run_frame h es)).trans (Frame.stopped_foldl hes)

theorem run_isOpen (h : c.engine.table.Sound) (hstop : .stop ∉ es) (hlost : .sweeperLost ∉ es) :
    (c.run es).engine.desk.isOpen = c.engine.desk.isOpen :=
  (congrArg Frame.isOpen (run_frame h es)).trans (Frame.isOpen_foldl hstop hlost)

theorem now_step (h : c.engine.table.Sound) (he : ∀ d, e ≠ .advance d) :
    (c.step e).value.2.engine.now = c.engine.now := by
  refine (congrArg Frame.now (frame_step h e)).trans ?_
  cases e with
  | advance d => exact absurd rfl (he d)
  | _ => rfl

/-- Without a limit, a write waits if there is somebody to confirm it. -/
theorem registration?_of_unlimited (home : NodeId) (epoch : Epoch) {s : Settings}
    (hlimit : s.maxPending = 0) (hstop : .stop ∉ before) {r : Requirement} {t : Epoch}
    (ho : e.order? = some (r, t)) (hpairs : r.pairs ≠ []) :
    ((new home epoch s).run before).registration? e =
      some ⟨((new home epoch s).run before).nextId, t, r⟩ := by
  have hs := new_sound home epoch s
  have hstopped : ((new home epoch s).run before).engine.table.stopped = false :=
    run_stopped hs hstop
  have hcapacity : ((new home epoch s).run before).engine.table.capacity = 0 :=
    ((run_evolves (new home epoch s) before).capacity hs).trans hlimit
  have hunsatisfied : r.isSatisfied = false := by
    rw [← Bool.not_eq_true, Requirement.isSatisfied_iff (order?_dense ho),
      ← List.eq_nil_iff_forall_not_mem]
    exact hpairs
  refine registration?_eq_some_iff.2 ⟨rfl, ho, ?_⟩
  simp only [WriteTable.immediateOutcome, hstopped, hunsatisfied, hcapacity, Nat.lt_irrefl,
    Bool.false_eq_true, if_false, false_and]

/-! ## Occasions -/

/-- The event `e`, which comes after `before`, ends a write in this way. -/
inductive Occasion (c₀ : Coordinator) (before : List Event) (e : Event) (o : Outcome) : Prop
  | atOnce (ends : (c₀.run before).EndsAtOnce e o)
  | decided {d : Deadline} {w : PendingWrite} (entry : (c₀.run before).waiting? e d.id = some w)
      (decides : (c₀.run before).Decides d w e o)

theorem DecidedFirst.exists_event {d : Deadline} (h : DecidedFirst d o c es) :
    ∃ before e after w, es = before ++ e :: after ∧ (c.run before).waiting? e d.id = some w ∧
      (c.run before).Decides d w e o := by
  induction h with
  | now entry decides => exact ⟨[], _, _, _, rfl, entry, decides⟩
  | @later c x es w entry undecided rest ih =>
    obtain ⟨before, e, after, w', rfl, hw', hdecides⟩ := ih
    exact ⟨x :: before, e, after, w', rfl, hw', hdecides⟩

theorem exists_occasion (home : NodeId) (epoch : Epoch) (s : Settings)
    (hn : creations es ≤ UInt64.size)
    (ho : ((new home epoch s).run es).engine.table.outcome? id = some o) :
    ∃ before e, before ++ [e] <+: es ∧ (new home epoch s).Occasion before e o := by
  obtain ⟨before, e, after, d, rfl, -, -, h⟩ := exists_creation home epoch s hn ho
  rcases h with hends | hdecided
  · exact ⟨before, e, ⟨after, by simp⟩, .atOnce hends⟩
  · obtain ⟨first, x, rest, w, hsplit, hw, hdecides⟩ := hdecided.exists_event
    rw [← run_append] at hw hdecides
    exact ⟨before ++ first, x, ⟨rest, by simp [hsplit]⟩, .decided hw hdecides⟩

/-! ## What there must have been -/

/-- The event reports a failure, in whatever form. -/
def Event.Reports (e : Event) : Prop :=
  ∃ c n id t cause, reply? c e = some (n, .errorAck id t cause)

theorem Event.not_reports_stop : ¬ Event.stop.Reports := by
  intro hreports
  obtain ⟨c, n, id, t, cause, hreply⟩ := hreports
  cases hreply

/-- The event confirms a write, as a whole or for one segment. -/
def Event.Confirms (e : Event) : Prop :=
  ∃ c n r, reply? c e = some (n, r) ∧ ∀ id t cause, r ≠ .errorAck id t cause

/-- What there was in a run, if a write has a certain outcome after it. -/
structure Occasioned (c₀ : Coordinator) (es : List Event) : Prop where
  /-- Nobody had to confirm some write, or somebody did, or owners changed. -/
  success : ∀ id, (c₀.run es).engine.table.outcome? id = some .success →
    (∃ e ∈ es, ∃ o, e.order? = some o ∧ o.1.pairs = []) ∨
      ∃ e ∈ es, e.Confirms ∨ e.offer?.isSome = true ∨ ∃ members, e = .restrict members
  remote : ∀ id n cause,
    (c₀.run es).engine.table.outcome? id = some (.failure (.remote n cause)) → ∃ e ∈ es, e.Reports
  topologyChanged : ∀ id t,
    (c₀.run es).engine.table.outcome? id = some (.failure (.topologyChanged t)) →
    ∃ e ∈ es, e.offer?.isSome = true
  stopping : ∀ id, (c₀.run es).engine.table.outcome? id = some (.failure .stopping) →
    .stop ∈ es ∨ .sweeperLost ∈ es
  overloaded : ∀ id n, (c₀.run es).engine.table.outcome? id = some (.failure (.overloaded n)) →
    0 < c₀.engine.table.capacity

variable {home : NodeId} {epoch : Epoch} {s : Settings}

theorem not_meets_of_unoffered {w : PendingWrite} {v : Ownership}
    (hb : ∀ x ∈ before, x.offer? = none) (he : e.offer? = none) :
    ¬ ((new home epoch s).run before).Meets w e v := by
  intro h
  cases h with
  | offered offer _ => rw [he] at offer; cases offer
  | registered _ latest =>
    rw [run_view_of_unoffered hb] at latest
    cases latest

theorem Occasion.of_success (h : (new home epoch s).Occasion before e .success) :
    (∃ o, e.order? = some o ∧ o.1.pairs = []) ∨ e.Confirms ∨
      (∃ x ∈ before ++ [e], x.offer?.isSome = true) ∨ ∃ members, e = .restrict members := by
  cases h with
  | atOnce ends =>
    cases ends with
    | satisfied order _ nobody => exact .inl ⟨_, order, nobody⟩
  | decided entry decides =>
    cases decides with
    | success discharged =>
      obtain ⟨p, hp⟩ := (((new_fenced home epoch s).run before).live entry).exists_mem_pairs
      right
      cases discharged p hp with
      | ack reply _ => exact .inl ⟨_, _, _, reply, by simp⟩
      | segmentAck reply _ _ => exact .inl ⟨_, _, _, reply, by simp⟩
      | departed change _ => exact .inr (.inr ⟨_, change⟩)
      | lost applies _ =>
        refine .inr (.inl ?_)
        by_contra hno
        simp only [not_exists, not_and, Option.not_isSome_iff_eq_none] at hno
        exact not_meets_of_unoffered (fun x hx => hno x (List.mem_append_left _ hx))
          (hno e (List.mem_append_right _ (List.mem_singleton_self e))) applies.meets

theorem Occasion.of_topologyChanged {t : Epoch}
    (h : (new home epoch s).Occasion before e (.failure (.topologyChanged t))) :
    ∃ x ∈ before ++ [e], x.offer?.isSome = true := by
  by_contra hno
  simp only [not_exists, not_and, Option.not_isSome_iff_eq_none] at hno
  cases h with
  | atOnce ends => cases ends
  | decided _ decides =>
    cases decides with
    | failure fails =>
      cases fails with
      | moved hm =>
        exact not_meets_of_unoffered (fun x hx => hno x (List.mem_append_left _ hx))
          (hno e (List.mem_append_right _ (List.mem_singleton_self e))) hm.meets

theorem Occasion.of_remote {n : NodeId} {cause : String}
    (h : (new home epoch s).Occasion before e (.failure (.remote n cause))) : e.Reports := by
  cases h with
  | atOnce ends => cases ends
  | decided _ decides =>
    cases decides with
    | failure fails =>
      cases fails with
      | reported reply _ => exact ⟨_, _, _, _, _, reply⟩

theorem Occasion.of_stopping (h : (new home epoch s).Occasion before e (.failure .stopping)) :
    e = .stop ∨ .stop ∈ before ∨ .sweeperLost ∈ before := by
  by_contra hno
  simp only [not_or] at hno
  obtain ⟨hstop, hstopped, hlost⟩ := hno
  have hs := new_sound home epoch s
  cases h with
  | atOnce ends =>
    cases ends with
    | stopping _ stopped => rw [run_stopped hs hstopped] at stopped; cases stopped
  | decided _ decides =>
    cases decides with
    | failure fails =>
      cases fails with
      | stopped stop => exact hstop stop
      | unattended _ closed _ _ => rw [run_isOpen hs hstopped hlost] at closed; cases closed

theorem Occasion.of_overloaded {n : Nat}
    (h : (new home epoch s).Occasion before e (.failure (.overloaded n))) :
    0 < (new home epoch s).engine.table.capacity := by
  have hevolves := run_evolves (new home epoch s) before
  cases h with
  | atOnce ends =>
    cases ends with
    | overloaded _ _ _ limited _ =>
      rwa [hevolves.capacity (new_sound home epoch s)] at limited
  | decided _ decides =>
    cases decides with
    | failure fails => cases fails

/-- **No outcome without an occasion.** Whatever outcome a write has, there was an event in the run
that can bring it about. -/
theorem run_occasioned (home : NodeId) (epoch : Epoch) (s : Settings)
    (hn : creations es ≤ UInt64.size) : Occasioned (new home epoch s) es := by
  have hlast : ∀ {before e}, before ++ [e] <+: es → e ∈ es :=
    fun h => h.subset (List.mem_append_right _ (List.mem_singleton_self _))
  refine ⟨fun id ho => ?_, fun id n cause ho => ?_, fun id t ho => ?_, fun id ho => ?_,
    fun id n ho => ?_⟩
  · obtain ⟨before, e, hes, h⟩ := exists_occasion home epoch s hn ho
    rcases h.of_success with hnobody | hconfirms | ⟨x, hx, hoffer⟩ | hrestrict
    · exact .inl ⟨e, hlast hes, hnobody⟩
    · exact .inr ⟨e, hlast hes, .inl hconfirms⟩
    · exact .inr ⟨x, hes.subset hx, .inr (.inl hoffer)⟩
    · exact .inr ⟨e, hlast hes, .inr (.inr hrestrict)⟩
  · obtain ⟨before, e, hes, h⟩ := exists_occasion home epoch s hn ho
    exact ⟨e, hlast hes, h.of_remote⟩
  · obtain ⟨before, e, hes, h⟩ := exists_occasion home epoch s hn ho
    obtain ⟨x, hx, hoffer⟩ := h.of_topologyChanged
    exact ⟨x, hes.subset hx, hoffer⟩
  · obtain ⟨before, e, hes, h⟩ := exists_occasion home epoch s hn ho
    have hbefore : before ⊆ es := fun x hx => hes.subset (List.mem_append_left _ hx)
    rcases h.of_stopping with rfl | hstop | hlost
    · exact .inl (hlast hes)
    · exact .inl (hbefore hstop)
    · exact .inr (hbefore hlost)
  · obtain ⟨before, e, -, h⟩ := exists_occasion home epoch s hn ho
    exact h.of_overloaded

end Coordinator
end BackupAcks
