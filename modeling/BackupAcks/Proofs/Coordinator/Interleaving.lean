import BackupAcks.Proofs.Coordinator.LateRegistration
import BackupAcks.Proofs.Write.Narrowing

/-!
# The order of events

Confirmations, changes of membership and activations may come in any order, as long as the
activations come in theirs and no confirmation is older than any of them: the write ends up the same.
Each of these events puts a test on the pairs that are waited for (`leaves`), and whether a pair
passes does not depend on what came before, though the write itself is at another epoch by then. So
after all of them the write waits for the pairs that pass all tests, at the newest epoch
(`leftBy`), or it has succeeded if there are none.

Results:
* `AnyOrder.comesTo`: one event leaves what its test says;
* `AnyOrder.leftBy_cons`: the tests are the same after the first event;
* `Fenced.step_leftBy`, `Fenced.run_leftBy`: what a step and a run leave;
* `run_orderFree`: every order leaves the same.
-/
namespace BackupAcks

/-- What a confirmation is for: one segment or, without a scope, all. A report of failure is no
confirmation. -/
def Reply.scope? : Reply → Option (Option SegmentId)
  | .ack _ _ => some none
  | .segmentAck _ _ segment => some (some segment)
  | .errorAck _ _ _ => none

theorem Reply.ruling_of_scope {r : Reply} {scope : Option SegmentId} (h : r.scope? = some scope)
    (n : NodeId) (w : PendingWrite) : r.ruling n w = w.ack n r.epoch scope := by
  cases r <;> cases h <;> rfl

namespace Coordinator

open WriteTable (only only_self only_of_ne settleBy map_settleBy_none)

/-! ## Tests -/

/-- Whether the event is a confirmation, an offer or a change of membership. -/
def takesOff (c : Coordinator) (e : Event) : Bool :=
  match c.reply? e with
  | some x => x.2.scope?.isSome
  | none =>
    match e with
    | .activate _ | .restrict _ => true
    | _ => false

/-- Whether the event leaves the owner's confirmation for the segment outstanding in `w`. -/
def leaves (c : Coordinator) (w : PendingWrite) (e : Event) (s : SegmentId) (n : NodeId) : Bool :=
  match c.reply? e with
  | some x => x.2.id != w.id || decide (x.2.epoch < w.epoch) ||
      x.2.scope?.all fun scope => w.requirement.spares x.1 scope s n
  | none =>
    match e with
    | .activate v => decide (v.epoch ≤ w.epoch) || v.isOwner s n
    | .restrict members => decide (n ∈ members)
    | _ => true

/-- The newest of `t` and the epochs that are offered. -/
def newest (t : Epoch) (vs : List Ownership) : Epoch :=
  vs.foldl (fun t v => if v.epoch ≤ t then t else v.epoch) t

/-- What the events leave of the write: the pairs that all of them leave, at the newest epoch. -/
def leftBy (c : Coordinator) (w : PendingWrite) (es : List Event) : PendingWrite :=
  ⟨w.id, newest w.epoch (offers es), w.requirement.retain fun s n => es.all (c.leaves w · s n)⟩

/-- The events may come in any order that keeps the offers in theirs, as far as `w` is concerned. -/
structure AnyOrder (c : Coordinator) (w : PendingWrite) (es : List Event) : Prop where
  kinds : ∀ e ∈ es, c.takesOff e = true
  /-- No confirmation is older than an assignment among the events. -/
  current : ∀ e ∈ es, ∀ x ∈ c.reply? e, ∀ v ∈ offers es, v.epoch ≤ x.2.epoch
  newer : ∀ v ∈ offers es, c.activeEpoch < v.epoch
  increasing : (offers es).Pairwise (·.epoch < ·.epoch)
  /-- The node stays primary of all that is waited for. -/
  primary : ∀ v ∈ offers es, ∀ p ∈ w.requirement.pairs, v.primary? p.1 = some c.engine.view.home

variable {c : Coordinator} {e : Event} {es fs : List Event} {w : PendingWrite} {v : Ownership}

theorem offers_cons_none (h : e.offer? = none) : offers (e :: es) = offers es :=
  List.filterMap_cons_none h

theorem offers_cons_some (h : e.offer? = some v) : offers (e :: es) = v :: offers es :=
  List.filterMap_cons_some h

theorem leftBy_nil (hd : w.requirement.Dense) : c.leftBy w [] = w := by
  rw [leftBy, Requirement.retain_eq_self hd fun _ _ => rfl]
  rfl

theorem leftBy_one : c.leftBy w [e] =
    ⟨w.id, newest w.epoch (offers [e]), w.requirement.retain (c.leaves w e)⟩ := by
  simp only [leftBy, List.all_cons, List.all_nil, Bool.and_true]

theorem leftBy_of_leaves (hd : w.requirement.Dense) (hv : newest w.epoch (offers [e]) = w.epoch)
    (h : ∀ s n, c.leaves w e s n = true) : c.leftBy w [e] = w := by
  rw [leftBy_one, hv, Requirement.retain_eq_self hd fun p _ => h p.1 p.2]

/-! ## One event -/

/-- The ruling on `w` comes to the same as concluding with `x`. -/
structure ComesTo (w x : PendingWrite) (ρ : Ruling) : Prop where
  remaining : ρ.remaining? w = x.conclude.remaining? w
  outcome : ρ.outcome? = x.conclude.outcome?

theorem ComesTo.of_kept (hl : w.requirement.Live) {ρ : Ruling} (h : ρ.remaining? w = some w)
    (ho : ρ.outcome? = none) : ComesTo w w ρ := by
  have hc := PendingWrite.conclude_of_unsatisfied hl.unsatisfied
  exact ⟨by rw [h, hc]; rfl, by rw [ho, hc]; rfl⟩

theorem comesTo_of_reply (hl : w.requirement.Live) {n : NodeId} {r : Reply}
    (hr : c.reply? e = some (n, r)) (hs : r.scope?.isSome = true) :
    ComesTo w (c.leftBy w [e]) (c.ruling e w) := by
  obtain ⟨scope, hscope⟩ := Option.isSome_iff_exists.1 hs
  have hoffers : offers [e] = [] := offers_cons_none (offer?_of_reply hr)
  have hleaves : c.leaves w e = fun s k =>
      r.id != w.id || decide (r.epoch < w.epoch) || w.requirement.spares n scope s k := by
    funext s k
    simp only [leaves, hr, hscope, Option.all_some]
  rw [ruling_of_reply hr]
  by_cases hid : w.id = r.id
  · rw [← hid, only_self, Reply.ruling_of_scope hscope]
    by_cases ht : r.epoch < w.epoch
    · rw [leftBy_of_leaves hl.dense (by rw [hoffers]; rfl) (by simp [hleaves, ht]),
        PendingWrite.ack_stale ht]
      exact .of_kept hl rfl rfl
    · have hpairs : c.leaves w e = w.requirement.spares n scope := by
        funext s k
        simp [hleaves, hid, ht]
      rw [leftBy_one, hoffers, hpairs, PendingWrite.ack, if_neg ht,
        Requirement.remove_eq_retain]
      exact ⟨rfl, rfl⟩
  · rw [leftBy_of_leaves hl.dense (by rw [hoffers]; rfl) (by simp [hleaves, Ne.symm hid]),
      only_of_ne _ hid]
    exact .of_kept hl rfl rfl

theorem comesTo_of_activate (hl : w.requirement.Live) (hnew : c.activeEpoch < v.epoch)
    (hm : ∀ p ∈ w.requirement.pairs, v.primary? p.1 = some c.engine.view.home) :
    ComesTo w (c.leftBy w [.activate v]) (c.ruling (.activate v) w) := by
  have haccepted : ¬ v.epoch < c.engine.view.epoch := UInt32.lt_asymm hnew
  have hnewest : newest w.epoch (offers [.activate v]) =
      if v.epoch ≤ w.epoch then w.epoch else v.epoch := rfl
  have hleaves : c.leaves w (.activate v) = fun s n =>
      decide (v.epoch ≤ w.epoch) || v.isOwner s n := rfl
  simp only [ruling, if_neg haccepted]
  by_cases hold : v.epoch ≤ w.epoch
  · rw [leftBy_of_leaves hl.dense (by rw [hnewest, if_pos hold]) (by simp [hleaves, hold]),
      PendingWrite.adopt_old hold]
    exact .of_kept hl rfl rfl
  · have hkeep : ¬ (w.requirement.segments.any fun s =>
        v.primary? s != some c.engine.view.home) = true :=
      fun hany => (PendingWrite.any_segments_iff hl).1 hany hm
    have hpairs : c.leaves w (.activate v) = v.isOwner := by
      funext s n
      simp [hleaves, hold]
    rw [leftBy_one, hnewest, if_neg hold, hpairs, PendingWrite.adopt, if_neg hold, if_neg hkeep]
    exact ⟨rfl, rfl⟩

theorem comesTo_of_restrict (members : NodeSet) :
    ComesTo w (c.leftBy w [.restrict members]) (c.ruling (.restrict members) w) := by
  rw [leftBy_one]
  exact ⟨rfl, rfl⟩

/-- **One event** leaves what its test says. -/
theorem AnyOrder.comesTo (h : c.AnyOrder w (e :: es)) (hl : w.requirement.Live) :
    ComesTo w (c.leftBy w [e]) (c.ruling e w) := by
  have hkind := h.kinds e List.mem_cons_self
  unfold takesOff at hkind
  cases hr : c.reply? e with
  | some x =>
    rw [hr] at hkind
    exact comesTo_of_reply hl hr hkind
  | none =>
    rw [hr] at hkind
    cases e with
    | activate v =>
      exact comesTo_of_activate hl (h.newer v List.mem_cons_self) (h.primary v List.mem_cons_self)
    | restrict members => exact comesTo_of_restrict members
    | _ => cases hkind

/-! ## The events after it -/

theorem order?_of_takesOff (h : c.takesOff e = true) : e.order? = none := by
  unfold takesOff at h
  cases hr : c.reply? e with
  | some x => exact order?_of_reply hr
  | none =>
    rw [hr] at h
    cases e <;> first | rfl | cases h

theorem issued_of_takesOff (h : ∀ e ∈ es, c.takesOff e = true) (c' : Coordinator) :
    c'.issued es = [] := by
  induction es generalizing c' with
  | nil => rfl
  | cons e es ih =>
    rw [Coordinator.issued, order?_of_takesOff (h e List.mem_cons_self),
      ih fun f hf => h f (List.mem_cons_of_mem e hf)]
    rfl

theorem reply?_step (hs : c.engine.table.Sound) (e f : Event) :
    (c.step e).value.2.reply? f = c.reply? f := by
  cases f with
  | failLocally id epoch cause => simp only [reply?, step_table_home hs e]
  | _ => rfl

theorem takesOff_step (hs : c.engine.table.Sound) (e f : Event) :
    (c.step e).value.2.takesOff f = c.takesOff f := by
  unfold takesOff
  rw [reply?_step hs]

/-- One event leaves the epoch, or raises it to the one that it offers. -/
theorem leftBy_epoch (c : Coordinator) (w : PendingWrite) (e : Event) :
    (c.leftBy w [e]).epoch = w.epoch ∨
      ∃ v, e.offer? = some v ∧ w.epoch < v.epoch ∧ (c.leftBy w [e]).epoch = v.epoch := by
  cases hv : e.offer? with
  | none =>
    left
    simp only [leftBy, offers_cons_none hv]
    rfl
  | some v =>
    have hepoch : (c.leftBy w [e]).epoch = if v.epoch ≤ w.epoch then w.epoch else v.epoch := by
      simp only [leftBy, offers_cons_some hv]
      rfl
    by_cases hold : v.epoch ≤ w.epoch
    · exact .inl (by rw [hepoch, if_pos hold])
    · exact .inr ⟨v, rfl, UInt32.not_le.1 hold, by rw [hepoch, if_neg hold]⟩

/-- What is not older than the offer of an event is as old as it was, compared to the write. -/
theorem lt_leftBy_epoch_iff {t : Epoch} (ht : ∀ v, e.offer? = some v → v.epoch ≤ t) :
    t < (c.leftBy w [e]).epoch ↔ t < w.epoch := by
  rcases leftBy_epoch c w e with he | ⟨v, hv, hlt, he⟩
  · rw [he]
  · rw [he]
    refine iff_of_false (UInt32.not_lt.2 (ht v hv)) (UInt32.not_lt.2 ?_)
    exact UInt32.le_trans (UInt32.le_of_lt hlt) (ht v hv)

theorem le_leftBy_epoch_iff {t : Epoch} (ht : ∀ v, e.offer? = some v → v.epoch < t) :
    t ≤ (c.leftBy w [e]).epoch ↔ t ≤ w.epoch := by
  rcases leftBy_epoch c w e with he | ⟨v, hv, hlt, he⟩
  · rw [he]
  · rw [he]
    refine iff_of_false (UInt32.not_le.2 (ht v hv)) (UInt32.not_le.2 ?_)
    exact UInt32.lt_trans hlt (ht v hv)

theorem mem_offers_of_offer (h : e.offer? = some v) : v ∈ offers (e :: es) := by
  rw [offers_cons_some h]
  exact List.mem_cons_self

theorem mem_offers_cons (h : v ∈ offers es) (e : Event) : v ∈ offers (e :: es) := by
  cases he : e.offer? with
  | none => rwa [offers_cons_none he]
  | some u =>
    rw [offers_cons_some he]
    exact List.mem_cons_of_mem u h

theorem AnyOrder.newer_than_first (h : c.AnyOrder w (e :: es)) {u : Ownership}
    (hv : e.offer? = some v) (hu : u ∈ offers es) : v.epoch < u.epoch := by
  have hinc := h.increasing
  rw [offers_cons_some hv] at hinc
  exact (List.pairwise_cons.1 hinc).1 u hu

/-- The tests are the same after the first event. -/
theorem AnyOrder.leaves_step (h : c.AnyOrder w (e :: es)) (hs : c.engine.table.Sound) {f : Event}
    (hf : f ∈ es) :
    (c.step e).value.2.leaves (c.leftBy w [e]) f = c.leaves w f := by
  funext s n
  unfold leaves
  rw [reply?_step hs]
  cases hr : c.reply? f with
  | some x =>
    -- a confirmation is not older than the offer, and so as stale afterwards as before
    have hcurrent : ∀ v, e.offer? = some v → v.epoch ≤ x.2.epoch := fun v hv =>
      h.current f (List.mem_cons_of_mem e hf) x hr v (mem_offers_of_offer hv)
    have hlt := lt_leftBy_epoch_iff (c := c) (w := w) hcurrent
    have hspares : ∀ scope, (c.leftBy w [e]).requirement.spares x.1 scope =
        w.requirement.spares x.1 scope := fun scope => Requirement.spares_retain x.1 scope
    simp only [hlt, hspares]
    rfl
  | none =>
    cases f with
    | activate u =>
      -- and a later offer is newer than this one
      have hu : u ∈ offers es := List.mem_filterMap.2 ⟨_, hf, rfl⟩
      simp only [le_leftBy_epoch_iff fun v hv => h.newer_than_first hv hu]
    | _ => rfl

/-- What the first event leaves is left the same by the others. -/
theorem AnyOrder.leftBy_cons (h : c.AnyOrder w (e :: es)) (hs : c.engine.table.Sound) :
    (c.step e).value.2.leftBy (c.leftBy w [e]) es = c.leftBy w (e :: es) := by
  have hnewest : newest (newest w.epoch (offers [e])) (offers es) =
      newest w.epoch (offers (e :: es)) := by
    cases hv : e.offer? with
    | none => rw [offers_cons_none hv, offers_cons_none hv]; rfl
    | some v => rw [offers_cons_some hv, offers_cons_some hv]; rfl
  have hall : ∀ s n, es.all ((c.step e).value.2.leaves (c.leftBy w [e]) · s n) =
      es.all (c.leaves w · s n) := by
    intro s n
    rw [Bool.eq_iff_iff, List.all_eq_true, List.all_eq_true]
    exact forall₂_congr fun f hf => by rw [h.leaves_step hs hf]
  unfold leftBy
  simp only [Requirement.retain_retain, hnewest]
  congr 2
  funext s n
  have hfirst : [e].all (c.leaves w · s n) = c.leaves w e s n := Bool.and_true _
  rw [hfirst, List.all_cons, ← hall s n]
  rfl

theorem AnyOrder.step (h : c.AnyOrder w (e :: es)) (hs : c.engine.table.Sound) :
    (c.step e).value.2.AnyOrder (c.leftBy w [e]) es := by
  refine ⟨fun f hf => ?_, fun f hf x hx v hv => ?_, fun u hu => ?_, ?_, fun u hu p hp => ?_⟩
  · rw [takesOff_step hs]
    exact h.kinds f (List.mem_cons_of_mem e hf)
  · rw [reply?_step hs] at hx
    exact h.current f (List.mem_cons_of_mem e hf) x hx v (mem_offers_cons hv e)
  · have hnew := h.newer u (mem_offers_cons hu e)
    rw [activeEpoch, step_view]
    cases hv : e.offer? with
    | none => exact hnew
    | some v =>
      rw [Option.elim_some, ActiveView.offered]
      split
      · exact hnew
      · exact h.newer_than_first hv hu
  · have hinc := h.increasing
    cases hv : e.offer? with
    | none => rwa [offers_cons_none hv] at hinc
    | some v =>
      rw [offers_cons_some hv] at hinc
      exact (List.pairwise_cons.1 hinc).2
  · rw [step_home]
    rw [leftBy_one] at hp
    exact h.primary u (mem_offers_cons hu e) p (Requirement.mem_pairs_retain.1 hp).1

/-! ## All events -/

/-- From `c` to `c'`, what waited as `w` was concluded as `x`. -/
structure Concluded (c c' : Coordinator) (w x : PendingWrite) : Prop where
  entry : c'.engine.table.find? w.id = x.conclude.remaining? w
  handle : c'.engine.table.handle? w.id =
    (c.engine.table.handle? w.id).map (settleBy x.conclude.outcome?)

variable {c' c'' : Coordinator} {x y : PendingWrite}

theorem Concluded.refl (hl : w.requirement.Live) (hf : c.engine.table.find? w.id = some w) :
    c.Concluded c w w := by
  have hc := PendingWrite.conclude_of_unsatisfied hl.unsatisfied
  refine ⟨by rw [hc, hf]; rfl, ?_⟩
  rw [hc]
  exact (map_settleBy_none _).symm

theorem Concluded.trans (h : c.Concluded c' w x) (hx : x.requirement.isSatisfied = false)
    (hid : x.id = w.id) (h' : c'.Concluded c'' x y) : c.Concluded c'' w y := by
  have hhandle : c'.engine.table.handle? w.id = c.engine.table.handle? w.id := by
    rw [h.handle, PendingWrite.conclude_of_unsatisfied hx]
    exact map_settleBy_none _
  refine ⟨?_, ?_⟩
  · rw [← hid, h'.entry]
    unfold PendingWrite.conclude
    split <;> rfl
  · rw [← hhandle, ← hid, h'.handle]

/-- What has succeeded is not found by later events. -/
theorem Concluded.run_of_satisfied (h : c.Concluded c' w x) (hs : c'.engine.table.Sound)
    (hx : x.requirement.isSatisfied = true) (hy : y.requirement.isSatisfied = true)
    (hid : w.id ∉ c'.issued es) : c.Concluded (c'.run es) w y := by
  have hsame : x.conclude = y.conclude := by
    rw [PendingWrite.conclude_of_satisfied hx, PendingWrite.conclude_of_satisfied hy]
  have hnone : c'.engine.table.find? w.id = none := by
    rw [h.entry, PendingWrite.conclude_of_satisfied hx]
    rfl
  refine ⟨?_, ?_⟩
  · rw [run_find?_of_none hs hid hnone, PendingWrite.conclude_of_satisfied hy]
    rfl
  · rw [run_handle?_of_none hs hid hnone, h.handle, hsame]

theorem Fenced.step_leftBy (h : c.Fenced) (hf : c.engine.table.find? w.id = some w)
    (hes : c.AnyOrder w (e :: es)) : c.Concluded (c.step e).value.2 w (c.leftBy w [e]) := by
  have hstep := step_follows h.sound e
  have hruling := hes.comesTo (h.sound.live_of_find? hf)
  have hentered : c.entered e = c.engine.table := by
    rw [entered, order?_of_takesOff (hes.kinds e List.mem_cons_self)]
  refine ⟨?_, ?_⟩
  · rw [hstep.find?_eq, hentered, hf, Option.bind_some, hruling.remaining]
  · rw [hstep.handle?_eq, hentered, hf, Option.bind_some, hruling.outcome]

/-- **A run** leaves what passes all tests, and the write has succeeded if nothing does. -/
theorem Fenced.run_leftBy (h : c.Fenced) (hf : c.engine.table.find? w.id = some w)
    (hes : c.AnyOrder w es) : c.Concluded (c.run es) w (c.leftBy w es) := by
  induction es generalizing c w with
  | nil =>
    have hl := h.sound.live_of_find? hf
    rw [leftBy_nil hl.dense]
    exact .refl hl hf
  | cons e es ih =>
    have hstep := h.step_leftBy hf hes
    rw [← hes.leftBy_cons h.sound, run_cons]
    cases hx : (c.leftBy w [e]).requirement.isSatisfied with
    | true =>
      -- the write has succeeded already, and what is left stays empty
      refine hstep.run_of_satisfied (step_sound h.sound e) hx (Requirement.isSatisfied_retain hx) ?_
      rw [issued_of_takesOff fun f hf => hes.kinds f (List.mem_cons_of_mem e hf)]
      exact List.not_mem_nil
    | false =>
      have hentry : (c.step e).value.2.engine.table.find? w.id = some (c.leftBy w [e]) := by
        rw [hstep.entry, PendingWrite.conclude_of_unsatisfied hx]
        rfl
      exact hstep.trans hx rfl (ih (h.step e) hentry (hes.step h.sound))

/-! ## Any order -/

theorem leftBy_perm (h : es.Perm fs) (ho : offers es = offers fs) :
    c.leftBy w es = c.leftBy w fs := by
  have hall : ∀ s n, es.all (c.leaves w · s n) = fs.all (c.leaves w · s n) := by
    intro s n
    rw [Bool.eq_iff_iff, List.all_eq_true, List.all_eq_true]
    exact forall_congr' fun f => imp_congr_left h.mem_iff
  simp only [leftBy, ho, hall]

theorem AnyOrder.perm (h : c.AnyOrder w es) (hp : es.Perm fs) (ho : offers es = offers fs) :
    c.AnyOrder w fs where
  kinds f hf := h.kinds f (hp.mem_iff.2 hf)
  current f hf := ho ▸ h.current f (hp.mem_iff.2 hf)
  newer := ho ▸ h.newer
  increasing := ho ▸ h.increasing
  primary := ho ▸ h.primary

theorem Fenced.outcome?_leftBy (h : c.Fenced) (hf : c.engine.table.find? w.id = some w)
    (hes : c.AnyOrder w es) :
    (c.run es).engine.table.outcome? w.id = c.engine.table.outcome? w.id ∨
      (c.run es).engine.table.outcome? w.id = some .success := by
  have hhandle := (h.run_leftBy hf hes).handle
  rcases PendingWrite.conclude_cases (w := c.leftBy w es) (Requirement.retain_dense _ _) with
    ⟨hc, -⟩ | ⟨hc, -⟩
  · rw [WriteTable.outcome?, hhandle, hc, WriteTable.outcome?]
    cases hk : c.engine.table.handle? w.id with
    | none => exact .inl rfl
    | some k =>
      rw [Option.map_some, Option.bind_some, Option.bind_some]
      cases ho : k.outcome with
      | none => right; simp [settleBy, ho, Ruling.outcome?]
      | some o => left; simp [settleBy, ho]
  · left
    rw [WriteTable.outcome?, hhandle, hc, WriteTable.outcome?]
    exact congrArg (Option.bind · Handle.outcome) (map_settleBy_none _)

/-- **Order does not matter.** Let confirmations, changes of membership and activations come in,
the activations with growing epochs above the active one, the node primary in each of all that the
write waits for, and no confirmation older than any of them. In whatever order they come, as long as
the activations keep theirs, the write ends up the same: waiting for the same at the same epoch, or
not waiting any more, with its handle as it was or with a success. -/
theorem run_orderFree (home : NodeId) (epoch : Epoch) (s : Settings) (before : List Event)
    {es fs : List Event} {w : PendingWrite}
    (hf : ((new home epoch s).run before).engine.table.find? w.id = some w)
    (hes : ((new home epoch s).run before).AnyOrder w es) (hperm : es.Perm fs)
    (hoffers : offers es = offers fs) :
    ((new home epoch s).run (before ++ es)).SameAt ((new home epoch s).run (before ++ fs)) w.id ∧
      (((new home epoch s).run (before ++ es)).engine.table.outcome? w.id =
          ((new home epoch s).run before).engine.table.outcome? w.id ∨
        ((new home epoch s).run (before ++ es)).engine.table.outcome? w.id = some .success) := by
  have h := (new_fenced home epoch s).run before
  have hleft := h.run_leftBy hf hes
  have hleft' := h.run_leftBy hf (hes.perm hperm hoffers)
  rw [← leftBy_perm hperm hoffers] at hleft'
  rw [run_append, run_append]
  refine ⟨⟨?_, ?_⟩, h.outcome?_leftBy hf hes⟩
  · exact hleft.entry.trans hleft'.entry.symm
  · exact hleft.handle.trans hleft'.handle.symm

/-- A write to two segments. -/
def twoSegments : Event :=
  .createSegmented (.ofList [(0, .ofList [1, 2]), (1, .ofList [2, 3])]) 5

/-- Two confirmations and a departure. -/
def smallEvents : List Event :=
  [.segmentAck ⟨0, 0⟩ 2 7 0, .reply 3 (.ack ⟨0, 0⟩ 7), .restrict (.ofList [0, 2, 3])]

/-- Two activations, the second of which ends the write if it comes last, and a confirmation. -/
def largeEvents : List Event :=
  [.activate (.of 6 [] (.ofList [(0, [0, 1]), (1, [0, 2, 3])])),
   .activate (.of 7 [] (.ofList [(0, [0, 1]), (1, [0, 3])])), .segmentAck ⟨0, 0⟩ 2 7 1]

theorem run_orderFree_twoSegments :
    let c := (new 0 5 .default).run [twoSegments]
    let w : PendingWrite :=
      ⟨⟨0, 0⟩, 5, .ofSegments (.ofList [(0, .ofList [1, 2]), (1, .ofList [2, 3])])⟩
    c.engine.table.find? w.id = some w ∧ c.AnyOrder w (smallEvents ++ largeEvents) ∧
      ((new 0 5 .default).run ([twoSegments] ++ (smallEvents ++ largeEvents))).SameAt
        ((new 0 5 .default).run ([twoSegments] ++ (largeEvents ++ smallEvents))) w.id ∧
      (c.run (largeEvents ++ smallEvents)).engine.table.outcome? w.id = some .success := by
  have hf : ((new 0 5 .default).run [twoSegments]).engine.table.find? ⟨0, 0⟩ =
      some ⟨⟨0, 0⟩, 5, .ofSegments (.ofList [(0, .ofList [1, 2]), (1, .ofList [2, 3])])⟩ := by
    decide
  have hprimary : (offers (smallEvents ++ largeEvents)).all (fun v =>
      (Requirement.ofSegments (.ofList [(0, .ofList [1, 2]), (1, .ofList [2, 3])])).pairs.all
        fun p => v.primary? p.1 == some 0) = true := by decide
  have hes : ((new 0 5 .default).run [twoSegments]).AnyOrder
      ⟨⟨0, 0⟩, 5, .ofSegments (.ofList [(0, .ofList [1, 2]), (1, .ofList [2, 3])])⟩
      (smallEvents ++ largeEvents) := by
    refine ⟨by decide, by decide, by decide, by decide, fun v hv p hp => ?_⟩
    exact eq_of_beq (List.all_eq_true.1 (List.all_eq_true.1 hprimary v hv) p hp)
  have h := run_orderFree 0 5 .default [twoSegments] hf hes List.perm_append_comm rfl
  exact ⟨hf, hes, h.1, by decide⟩

end Coordinator
end BackupAcks
