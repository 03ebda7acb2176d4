import BackupAcks.Proofs.Coordinator.Steps
import BackupAcks.Proofs.Table.Ledger

/-!
# What an activation makes of each write

An activation that is accepted treats every write that waits on its own: a write that is as new
stays as it is; one that waits for a segment which the node lost fails; any other keeps just the
pairs of owners that are still listed, and succeeds if none is left. Everything else is left alone.

The outcome of a write goes to its own handle, which is the newest open one under its identifier;
until identifiers repeat, it is the only one.

Results:
* `Sound.handlesOf_sweep`: what a sweep does to the handles under an identifier;
* `activation_exact`: the effect of an activation on the whole table, for the parts and for a
  coordinator.
-/
namespace BackupAcks

namespace WriteTable

open PendingWrite (Lawful)

variable {t : WriteTable} {id : WriteId} {w : PendingWrite}

/-! ## Handles under one identifier -/

def handlesOf (t : WriteTable) (id : WriteId) : List Handle := t.handles.filter (·.id == id)

theorem filter_settleIn (k : WriteId) (o : Outcome) (handles : List Handle) :
    (settleIn k o handles).filter (·.id == id) =
      if k = id then settleIn k o (handles.filter (·.id == id))
      else handles.filter (·.id == id) := by
  induction handles with
  | nil => simp [settleIn]
  | cons h rest ih =>
    by_cases hk : h.id = k ∧ h.outcome = none
    · simp only [settleIn, if_pos hk]
      by_cases hid : k = id
      · simp [Handle.settle, settleIn, hk, hid]
      · simp [Handle.settle, hk.1, hid]
    · simp only [settleIn, if_neg hk]
      by_cases hid : h.id = id
      · rw [List.filter_cons_of_pos (by simpa using hid), List.filter_cons_of_pos (by simpa using hid),
          ih, settleIn, if_neg hk]
        split <;> rfl
      · rw [List.filter_cons_of_neg (by simpa using hid), List.filter_cons_of_neg (by simpa using hid),
          ih]

theorem filter_settleAll {settled : List (WriteId × Outcome)} (hn : (settled.map Prod.fst).Nodup)
    (handles : List Handle) :
    (settled.foldl (fun hs e => settleIn e.1 e.2 hs) handles).filter (·.id == id) =
      (settled.lookup id).elim (handles.filter (·.id == id))
        fun o => settleIn id o (handles.filter (·.id == id)) := by
  induction settled generalizing handles with
  | nil => rfl
  | cons e rest ih =>
    obtain ⟨he, hr⟩ := List.nodup_cons.1 hn
    rw [List.foldl_cons, ih hr, filter_settleIn, List.lookup_cons]
    by_cases hid : e.1 = id
    · subst hid
      have hnone : rest.lookup e.1 = none := by
        rw [List.lookup_eq_none_iff]
        intro x hx
        have hne : e.1 ≠ x.1 := fun h => he (h ▸ List.mem_map_of_mem hx)
        simpa using hne
      simp [hnone]
    · have hne : (id == e.1) = false := by simpa using Ne.symm hid
      simp [hid, hne]

/-- A sweep settles one handle under an identifier, if the rule ends the write there. -/
theorem Sound.handlesOf_sweep (h : t.Sound) (rule : PendingWrite → Ruling) :
    (t.sweep rule).2.handlesOf id =
      ((t.find? id).bind fun w => (rule w).outcome?).elim (t.handlesOf id)
        fun o => settleIn id o (t.handlesOf id) := by
  rw [h.sweep_eq, handlesOf, filter_settleAll, lookup_settlements h.nodup, handlesOf]
  exact (map_fst_settlements_sublist rule t).nodup h.nodup

/-- Settling gives its outcome to the newest open handle, and leaves the others as they are. -/
theorem settleIn_eq (o : Outcome) {handles : List Handle} (hid : ∀ h ∈ handles, h.id = id)
    (hopen : ∃ h ∈ handles, h.outcome = none) :
    ∃ newer older, handles = newer ++ ⟨id, none⟩ :: older ∧ (∀ h ∈ newer, h.outcome ≠ none) ∧
      settleIn id o handles = newer ++ ⟨id, some o⟩ :: older := by
  induction handles with
  | nil => simp at hopen
  | cons h rest ih =>
    obtain ⟨hh, hrest⟩ := List.forall_mem_cons.1 hid
    cases ho : h.outcome with
    | none =>
      have heq : h = ⟨id, none⟩ := by rw [← hh, ← ho]
      refine ⟨[], rest, by rw [heq]; rfl, by simp, ?_⟩
      simp [settleIn, heq, Handle.settle]
    | some o' =>
      have hlater : ∃ k ∈ rest, k.outcome = none := by simpa [ho] using hopen
      obtain ⟨newer, older, hr, hn, hs⟩ := ih hrest hlater
      refine ⟨h :: newer, older, by rw [hr]; rfl, ?_, ?_⟩
      · simpa [ho] using hn
      · simp [settleIn, ho, hs]

/-! ## Going on and ending -/

/-- From `t` to `t'`, the write `w` goes on waiting, as `w'`. -/
structure GoesOn (t t' : WriteTable) (w w' : PendingWrite) : Prop where
  find?_eq : t'.find? w.id = some w'
  handles_eq : t'.handlesOf w.id = t.handlesOf w.id

/-- From `t` to `t'`, the write `w` leaves the table, and its handle gets the outcome. -/
structure EndsAs (t t' : WriteTable) (w : PendingWrite) (o : Outcome) : Prop where
  find?_eq : t'.find? w.id = none
  handles_eq : ∃ newer older, t.handlesOf w.id = newer ++ ⟨w.id, none⟩ :: older ∧
    (∀ h ∈ newer, h.outcome ≠ none) ∧ t'.handlesOf w.id = newer ++ ⟨w.id, some o⟩ :: older

variable {rule : PendingWrite → Ruling} {w' : PendingWrite} {o : Outcome}

theorem Sound.goesOn_sweep (h : t.Sound) (hr : Lawful rule) (hw : w ∈ t.pending)
    (hrule : rule w = .waiting w') : t.GoesOn (t.sweep rule).2 w w' := by
  have hf := h.find?_eq_some_iff.2 ⟨hw, rfl⟩
  refine ⟨?_, ?_⟩
  · rw [h.find?_sweep hr, hf, Option.bind_some, hrule]
    rfl
  · rw [h.handlesOf_sweep, hf, Option.bind_some, hrule]
    rfl

theorem Sound.endsAs_sweep (h : t.Sound) (hr : Lawful rule) (hw : w ∈ t.pending)
    (hrule : rule w = .settled o) : t.EndsAs (t.sweep rule).2 w o := by
  have hf := h.find?_eq_some_iff.2 ⟨hw, rfl⟩
  refine ⟨?_, ?_⟩
  · rw [h.find?_sweep hr, hf, Option.bind_some, hrule]
    rfl
  · have hopen : ∃ k ∈ t.handlesOf w.id, k.outcome = none := by
      obtain ⟨k, hk, hko⟩ := List.any_eq_true.1 (h.isOpen w hw)
      rw [Bool.and_eq_true, Option.isNone_iff_eq_none] at hko
      exact ⟨k, List.mem_filter.2 ⟨hk, hko.1⟩, hko.2⟩
    obtain ⟨newer, older, hold, hn, hnew⟩ :=
      settleIn_eq o (fun k hk => by simpa using (List.mem_filter.1 hk).2) hopen
    refine ⟨newer, older, hold, hn, ?_⟩
    rw [h.handlesOf_sweep, hf, Option.bind_some, hrule]
    exact hnew

end WriteTable

/-! ## The activation -/

/-- The owner of the pair is listed for its segment, as primary or as backup. -/
def Ownership.Lists (v : Ownership) (p : Pair) : Prop :=
  v.primary? p.1 = some p.2 ∨ p.2 ∈ v.backups p.1

/-- From `t` to `t'`, the assignment `v` is activated on behalf of `follower`. -/
structure Activates (follower : NodeId) (v : Ownership) (t t' : WriteTable) : Prop where
  /-- A write that is as new as the assignment is not touched. -/
  untouched : ∀ w ∈ t.pending, v.epoch ≤ w.epoch → t.GoesOn t' w w
  /-- One fails that waits for somebody in a segment whose primary is another node, or nobody. -/
  invalidated : ∀ w ∈ t.pending, w.epoch < v.epoch →
    (∃ p ∈ w.requirement.pairs, v.primary? p.1 ≠ some follower) →
    t.EndsAs t' w (.failure (.topologyChanged v.epoch))
  /-- Of the others, one succeeds if nobody that it waits for is listed any more, -/
  satisfied : ∀ w ∈ t.pending, w.epoch < v.epoch →
    (∀ p ∈ w.requirement.pairs, v.primary? p.1 = some follower) →
    (∀ p ∈ w.requirement.pairs, ¬ v.Lists p) → t.EndsAs t' w .success
  /-- and otherwise it goes on waiting for just those who are, at the assignment's epoch. -/
  moved : ∀ w ∈ t.pending, w.epoch < v.epoch →
    (∀ p ∈ w.requirement.pairs, v.primary? p.1 = some follower) →
    (∃ p ∈ w.requirement.pairs, v.Lists p) →
    ∃ w', t.GoesOn t' w w' ∧ w'.epoch = v.epoch ∧
      ∀ p, p ∈ w'.requirement.pairs ↔ p ∈ w.requirement.pairs ∧ v.Lists p
  /-- What does not wait is left alone, whether it was ever issued or not. -/
  absent : ∀ id, t.find? id = none → t'.find? id = none ∧ t'.handlesOf id = t.handlesOf id

variable {t : WriteTable} {v : Ownership} {follower : NodeId}

theorem Ownership.lists_iff {p : Pair} : v.Lists p ↔ p.2 ∈ v.ownersOf p.1 := by
  rw [Lists, ← isOwner_iff_primary_or_backup, isOwner_iff]

theorem WriteTable.Sound.activates (h : t.Sound) (follower : NodeId) (v : Ownership) :
    Activates follower v t (t.sweep (·.adopt follower v)).2 := by
  have hlaw := PendingWrite.lawful_adopt follower v
  -- what an assignment that applies makes of a write, by what is left of its pairs
  have hdrops : ∀ w ∈ t.pending, w.epoch < v.epoch →
      (∀ p ∈ w.requirement.pairs, v.primary? p.1 = some follower) →
      (w.adopt follower v).Drops (fun p => p.2 ∉ v.ownersOf p.1) v.epoch w :=
    fun w hw hlt hm => PendingWrite.adopt_drops (h.live w hw) hlt hm
  refine ⟨fun w hw hle => ?_, fun w hw hlt hlost => ?_, fun w hw hlt hm hnone => ?_,
    fun w hw hlt hm hsome => ?_, fun id hf => ⟨?_, ?_⟩⟩
  · exact h.goesOn_sweep hlaw hw (PendingWrite.adopt_old hle)
  · refine h.endsAs_sweep hlaw hw (PendingWrite.adopt_moved (h.live w hw) hlt fun hm => ?_)
    obtain ⟨p, hp, hne⟩ := hlost
    exact hne (hm p hp)
  · refine h.endsAs_sweep hlaw hw ?_
    have hd := hdrops w hw hlt hm
    cases ha : w.adopt follower v with
    | settled o =>
      rw [ha] at hd
      cases o with
      | success => rfl
      | failure f => cases hd
    | stale t => exact absurd ha (PendingWrite.adopt_ne_stale follower v t)
    | waiting w' =>
      rw [ha] at hd
      obtain ⟨p, hp⟩ := hd.2.2.1.exists_mem_pairs
      obtain ⟨hpw, hlisted⟩ := (hd.2.2.2 p).1 hp
      exact absurd (Ownership.lists_iff.2 (Classical.not_not.1 hlisted)) (hnone p hpw)
  · have hd := hdrops w hw hlt hm
    cases ha : w.adopt follower v with
    | settled o =>
      rw [ha] at hd
      obtain ⟨p, hp, hlisted⟩ := hsome
      cases o with
      | success => exact absurd (Ownership.lists_iff.1 hlisted) (hd p hp)
      | failure f => cases hd
    | stale t => exact absurd ha (PendingWrite.adopt_ne_stale follower v t)
    | waiting w' =>
      rw [ha] at hd
      refine ⟨w', h.goesOn_sweep hlaw hw ha, hd.2.1, fun p => ?_⟩
      rw [hd.2.2.2 p, Classical.not_not, Ownership.lists_iff]
  · rw [h.find?_sweep hlaw, hf]
    rfl
  · rw [h.handlesOf_sweep, hf]
    rfl

theorem ActiveView.activates {a : ActiveView} (h : t.Sound) (hv : a.epoch ≤ v.epoch) :
    Activates a.home v t (a.activate v t).value.2.2 := by
  simp only [activate, if_neg (UInt32.not_lt.2 hv)]
  exact h.activates a.home v

theorem Engine.acts_view_home (e : Engine) (ops : List Engine.Op) :
    (e.acts ops).view.home = e.view.home := by
  induction ops generalizing e with
  | nil => rfl
  | cons op ops ih =>
    refine (ih (e.act op)).trans ?_
    cases op with
    | activate v =>
      simp only [act, activate, ActiveView.activate, Logged.value_bind]
      split <;> rfl
    | _ => rfl

/-- **The exact effect of an activation.** Let an assignment be made of any members and owner lists.
A node is one of its owners of a segment just if it is the primary or one of the backups there, as
every listed owner is a member. In whatever state the parts or a coordinator have come, if the
assignment is not outdated then its activation treats every write that waits by its own epoch and
pairs, and leaves the rest alone. -/
theorem activation_exact (t : Epoch) (extra : List NodeId) (owners : SegmentMap (List NodeId)) :
    let v := Ownership.of t extra owners
    (∀ s n, v.isOwner s n = true ↔ v.Lists (s, n)) ∧
      (∀ home follower epoch capacity ops,
        let e := (Engine.new home follower epoch capacity).acts ops
        e.view.epoch ≤ t → Activates follower v e.table (e.activate v).value.2.table) ∧
      ∀ home epoch s es,
        let c := (Coordinator.new home epoch s).run es
        c.engine.view.epoch ≤ t →
          Activates home v c.engine.table (c.activate v).value.2.engine.table := by
  intro v
  refine ⟨fun s n => Ownership.isOwner_iff_primary_or_backup, ?_, ?_⟩
  · intro home follower epoch capacity ops e hv
    have hevolves : (WriteTable.new home capacity).Evolves (Engine.creations ops) e.table :=
      Engine.acts_evolves (Engine.new home follower epoch capacity) ops
    have hhome : e.view.home = follower := Engine.acts_view_home _ ops
    have h := ActiveView.activates (v := v) (hevolves.sound (.new home capacity)) hv
    rw [hhome] at h
    exact h
  · intro home epoch s es c hv
    have hhome : c.engine.view.home = home := Coordinator.run_home _ es
    have h := ActiveView.activates (v := v)
      (Coordinator.run_sound (Coordinator.new_sound home epoch s) es) hv
    rw [hhome] at h
    exact h

/-- A write that is as new as the assignment, one that loses a segment, one that keeps some of its
pairs, one left with nobody, one that has ended, one that is done with the lost segment, and one to
a segment that nobody owns any more. -/
def Engine.mixedWrites : List Engine.Op :=
  [.create (.ofList [1]) 0 6,
   .createSegmented (.ofList [(0, .ofList [1]), (1, .ofList [2])]) 5,
   .createSegmented (.ofList [(0, .ofList [1, 2]), (2, .ofList [1])]) 5,
   .create (.ofList [2]) 0 5,
   .create (.ofList [1]) 0 5, .ack ⟨0, 4⟩ 1 5,
   .createSegmented (.ofList [(0, .ofList [1]), (1, .ofList [2])]) 5, .segmentAck ⟨0, 5⟩ 2 5 1,
   .create (.ofList [3]) 3 5]

/-- An owner is listed twice, and a segment has an empty list of owners. -/
def mixedOwners : SegmentMap (List NodeId) :=
  .ofList [(0, [0, 1, 1]), (1, [2, 0]), (2, [0, 1]), (3, [])]

theorem activation_exact_mixedWrites :
    let e := (Engine.new 0 0 5 0).acts Engine.mixedWrites
    let v := Ownership.of 6 [2] mixedOwners
    let c := (Coordinator.new 0 5 .default).run [.create (.ofList [1, 2]) 0 5]
    e.view.epoch ≤ 6 ∧ Activates 0 v e.table (e.activate v).value.2.table ∧
      (e.activate v).value.2.table.pending.map (fun w => (w.id, w.epoch, w.requirement.pairs)) =
        [(⟨0, 5⟩, 6, [(0, 1)]), (⟨0, 2⟩, 6, [(0, 1), (2, 1)]), (⟨0, 0⟩, 6, [(0, 1)])] ∧
      (e.activate v).value.2.table.handles.map (·.outcome) =
        [some (.failure (.topologyChanged 6)), none, some .success, some .success, none,
          some (.failure (.topologyChanged 6)), none] ∧
      c.engine.view.epoch ≤ 6 ∧
      Activates 0 v c.engine.table (c.activate v).value.2.engine.table := by
  obtain ⟨-, hparts, hcoordinator⟩ := activation_exact 6 [2] mixedOwners
  have he : ((Engine.new 0 0 5 0).acts Engine.mixedWrites).view.epoch ≤ 6 := by decide
  have hc : ((Coordinator.new 0 5 .default).run
      [.create (.ofList [1, 2]) 0 5]).engine.view.epoch ≤ 6 := by decide
  exact ⟨he, hparts 0 0 5 0 Engine.mixedWrites he, by decide, by decide, hc,
    hcoordinator 0 5 .default _ hc⟩

end BackupAcks
