import BackupAcks.Engine
import BackupAcks.Proofs.Table.Evolution

/-!
# Entries and handles agree

The parts are driven by any sequence of operations: writes are created, replies and forced outcomes
come in for any identifier, assignments are activated, members leave, writes catch up, collection
is shut down.

Results:
* `acts_consistent`: after every such sequence an identifier has an entry just while the handle
  returned for it is unresolved, each entry waits for somebody in each of its segments, and the
  counts and look-ups say the same; and a handle that is resolved stays as it is.
-/
namespace BackupAcks

namespace Engine

/-- What the parts can be asked to do with the writes. -/
inductive Op where
  | create (owners : NodeSet) (segment : SegmentId) (epoch : Epoch)
  | createSegmented (owners : SegmentMap NodeSet) (epoch : Epoch)
  | ack (id : WriteId) (sender : NodeId) (epoch : Epoch)
  | segmentAck (id : WriteId) (sender : NodeId) (epoch : Epoch) (segment : SegmentId)
  | error (id : WriteId) (sender : NodeId) (epoch : Epoch) (cause : String)
  | finish (id : WriteId) (o : Outcome)
  | activate (v : Ownership)
  | restrict (members : NodeSet)
  | catchUp (id : WriteId) (epoch : Epoch)
  | stop

def Op.isCreation : Op → Bool
  | .create .. | .createSegmented .. => true
  | _ => false

def creations (ops : List Op) : Nat := ops.countP Op.isCreation

def act (e : Engine) : Op → Engine
  | .create owners segment epoch => (e.register (.single segment owners) epoch).value.2
  | .createSegmented owners epoch => (e.register (.ofSegments owners) epoch).value.2
  | .ack id sender epoch => (e.onTable (·.ack id sender epoch)).value.2
  | .segmentAck id sender epoch segment =>
    (e.onTable (·.segmentAck id sender epoch segment)).value.2
  | .error id sender epoch cause => (e.onTable (·.error id sender epoch cause)).value.2
  | .finish id o => (e.onTable (·.finish id o)).value.2
  | .activate v => (e.activate v).value.2
  | .restrict members => (e.onTable (·.restrict members)).value.2
  | .catchUp id epoch => (e.catchUp id epoch).value.2
  | .stop => e.stopTable.2

/-- The parts after a sequence of operations. -/
def acts (e : Engine) (ops : List Op) : Engine := ops.foldl act e

end Engine

namespace WriteTable

open PendingWrite

variable {t : WriteTable}

/-! ## The table's operations evolve it -/

theorem ack_evolves (id : WriteId) (sender : NodeId) (epoch : Epoch) :
    t.Evolves 0 (t.ack id sender epoch).value.2 :=
  Evolves.refl.apply id .ack (lawful_ack sender epoch none)

theorem segmentAck_evolves (id : WriteId) (sender : NodeId) (epoch : Epoch) (segment : SegmentId) :
    t.Evolves 0 (t.segmentAck id sender epoch segment).value.2 :=
  Evolves.refl.apply id .segmentAck (lawful_ack sender epoch (some segment))

theorem error_evolves (id : WriteId) (sender : NodeId) (epoch : Epoch) (cause : String) :
    t.Evolves 0 (t.error id sender epoch cause).value.2 := by
  rw [error_value]
  exact Evolves.refl.apply id .error (lawful_error sender epoch cause)

theorem finish_evolves (id : WriteId) (o : Outcome) : t.Evolves 0 (t.finish id o).value.2 :=
  Evolves.refl.apply id .forcedCompletion (lawful_settled o)

theorem restrict_evolves (members : NodeSet) : t.Evolves 0 (t.restrict members).value.2 :=
  Evolves.refl.sweep (lawful_dropDeparted members)

theorem activate_evolves (a : ActiveView) (v : Ownership) :
    t.Evolves 0 (a.activate v t).value.2.2 := by
  unfold ActiveView.activate
  split
  · exact .refl
  · exact Evolves.refl.sweep (lawful_adopt a.home v)

theorem catchUp_evolves (a : ActiveView) (id : WriteId) (epoch : Epoch) :
    t.Evolves 0 (a.catchUp id epoch t).value.2 := by
  unfold ActiveView.catchUp
  split
  · exact .refl
  · split
    · exact .refl
    · exact Evolves.refl.apply id .catchUp (lawful_adopt a.home _)

/-! ## The mark of the shutdown -/

theorem apply_stopped (id : WriteId) (kind : EventKind) (rule : PendingWrite → Ruling) :
    (t.apply id kind rule).value.2.stopped = t.stopped := by
  unfold apply
  split
  · rfl
  · split
    · split
      · rfl
      · rfl
      · unfold settle
        split <;> rfl
    · rfl

theorem deliver_stopped (sender : NodeId) (r : Reply) :
    (t.deliver sender r).value.2.stopped = t.stopped := by
  cases r with
  | ack id epoch => exact apply_stopped id .ack _
  | segmentAck id epoch segment => exact apply_stopped id .segmentAck _
  | errorAck id epoch cause =>
    rw [deliver, error_value]
    exact apply_stopped id .error _

theorem catchUp_stopped (a : ActiveView) (id : WriteId) (epoch : Epoch) :
    (a.catchUp id epoch t).value.2.stopped = t.stopped := by
  unfold ActiveView.catchUp
  split
  · rfl
  · split
    · rfl
    · exact apply_stopped id .catchUp _

/-! ## What agreement says -/

/-- Entries and handles of a table agree, `issued` writes of `home` having been created. -/
structure Consistent (home : NodeId) (issued : Nat) (t : WriteTable) : Prop where
  /-- Just the writes that were created have a handle. -/
  handle_iff : ∀ id, (t.handle? id).isSome = true ↔ id.origin = home ∧ id.seq.toNat < issued
  /-- Just the unresolved writes have an entry. -/
  entry_iff : ∀ id, (t.find? id).isSome = true ↔ t.Unresolved id
  /-- An entry is filed under its own identifier, which was issued by this node. -/
  keyed : ∀ id w, t.find? id = some w → w.id = id ∧ id.origin = home ∧ id.seq.toNat < issued
  /-- An entry waits for somebody, in each of the segments it keeps. -/
  owed : ∀ id w, t.find? id = some w → w.requirement.pairs ≠ [] ∧
    ∀ s ∈ w.requirement.segments, ∃ n, (s, n) ∈ w.requirement.pairs
  nodup : t.pendingIds.Nodup
  pendingIds_iff : ∀ id, id ∈ t.pendingIds ↔ t.Unresolved id
  size_eq : t.size = t.pendingIds.length
  hasPending_iff : ∀ id, t.hasPending id = true ↔ t.Unresolved id
  outstanding_eq : ∀ id, (t.Unresolved id → ∃ n, 0 < n ∧ t.outstanding? id = some n) ∧
    (¬ t.Unresolved id → t.outstanding? id = none)

theorem Sound.pendingIds_eq (h : t.Sound) : t.pendingIds = t.pending.map (·.id) := by
  rw [pendingIds, List.filter_eq_self.2 h.isOpen]

theorem Sound.mem_pendingIds_iff (h : t.Sound) {id : WriteId} :
    id ∈ t.pendingIds ↔ (t.find? id).isSome = true := by
  rw [h.pendingIds_eq, List.mem_map, Option.isSome_iff_exists]
  simp only [h.find?_eq_some_iff]

theorem Sound.hasPending_eq (h : t.Sound) (id : WriteId) :
    t.hasPending id = (t.find? id).isSome := by
  cases hf : t.find? id with
  | none => simp [hasPending, hf]
  | some w => simp [hasPending, hf, h.isOpen w (mem_of_find? hf)]

theorem Sound.outstanding?_eq (h : t.Sound) (id : WriteId) :
    t.outstanding? id = (t.find? id).map (·.requirement.outstanding) := by
  cases hf : t.find? id with
  | none => simp [outstanding?, hf]
  | some w => simp [outstanding?, hf, h.isOpen w (mem_of_find? hf)]

theorem Evolves.consistent {home : NodeId} {capacity n : Nat}
    (h : Evolves (.new home capacity) n t) (hn : n ≤ UInt64.size) : Consistent home n t := by
  have hs := h.sound (Sound.new home capacity)
  have ha := h.agrees hn
  have hi := h.issued
  refine
    { handle_iff := fun id => hi.handle?_isSome_iff hn
      entry_iff := ha
      keyed := fun id w hf => ⟨id_of_find? hf, ?_⟩
      owed := fun id w hf => ?_
      nodup := ?_
      pendingIds_iff := fun id => by rw [hs.mem_pendingIds_iff, ha id]
      size_eq := by rw [hs.pendingIds_eq, List.length_map, size]
      hasPending_iff := fun id => by rw [hs.hasPending_eq, ha id]
      outstanding_eq := fun id => ⟨fun hu => ?_, fun hu => ?_⟩ }
  · obtain ⟨k, hk, -⟩ := (ha id).1 (by rw [hf]; rfl)
    exact (hi.handle?_isSome_iff hn).1 (by rw [hk]; rfl)
  · have hl := hs.live_of_find? hf
    exact ⟨hl.pairs_ne_nil, fun s => (Requirement.mem_segments_iff hl).1⟩
  · rw [hs.pendingIds_eq]
    exact hs.nodup
  · obtain ⟨w, hf⟩ := Option.isSome_iff_exists.1 ((ha id).2 hu)
    refine ⟨w.requirement.outstanding, ?_, by rw [hs.outstanding?_eq, hf]; rfl⟩
    rw [Requirement.outstanding_eq_length]
    exact List.length_pos_iff.2 (hs.live_of_find? hf).pairs_ne_nil
  · rw [← ha id, Option.not_isSome_iff_eq_none] at hu
    rw [hs.outstanding?_eq, hu]
    rfl

end WriteTable

namespace Engine

open WriteTable

theorem act_evolves (e : Engine) (op : Op) :
    e.table.Evolves (if op.isCreation then 1 else 0) (e.act op).table := by
  cases op with
  | create owners segment epoch =>
    exact Evolves.refl.register (r := .single segment owners) trivial epoch
  | createSegmented owners epoch =>
    exact Evolves.refl.register (Requirement.ofSegments_dense owners) epoch
  | ack id sender epoch => exact ack_evolves id sender epoch
  | segmentAck id sender epoch segment => exact segmentAck_evolves id sender epoch segment
  | error id sender epoch cause => exact error_evolves id sender epoch cause
  | finish id o => exact finish_evolves id o
  | activate v => exact activate_evolves e.view v
  | restrict members => exact restrict_evolves members
  | catchUp id epoch => exact catchUp_evolves e.view id epoch
  | stop => exact Evolves.refl.stop

theorem acts_evolves (e : Engine) (ops : List Op) :
    e.table.Evolves (creations ops) (e.acts ops).table := by
  induction ops generalizing e with
  | nil => exact .refl
  | cons op ops ih =>
    rw [creations, List.countP_cons, Nat.add_comm]
    exact (e.act_evolves op).trans (ih (e.act op))

/-- **Entries agree with handles, and a resolved handle stays resolved**, after every sequence of
operations on fresh parts that creates fewer writes than there are identifiers. -/
theorem acts_consistent (home follower : NodeId) (epoch : Epoch) (capacity : Nat)
    (ops more : List Op) (h : creations (ops ++ more) < UInt64.size) :
    Consistent home (creations ops) ((new home follower epoch capacity).acts ops).table ∧
      ∀ id o, ((new home follower epoch capacity).acts ops).table.outcome? id = some o →
        ((new home follower epoch capacity).acts (ops ++ more)).table.outcome? id = some o := by
  rw [creations, List.countP_append] at h
  have hops : (WriteTable.new home capacity).Evolves (creations ops)
      ((new home follower epoch capacity).acts ops).table :=
    acts_evolves (new home follower epoch capacity) ops
  refine ⟨hops.consistent (Nat.le_of_lt (Nat.lt_of_le_of_lt (Nat.le_add_right _ _) h)), ?_⟩
  intro id o ho
  obtain ⟨k, hk, hko⟩ := Option.bind_eq_some_iff.1 ho
  have hmore := acts_evolves ((new home follower epoch capacity).acts ops) more
  have hkept := hmore.settled (hops.sound (Sound.new home capacity)) hops.issued
    (Nat.le_of_lt h) hk hko
  rw [acts, List.foldl_append, WriteTable.outcome?]
  exact Option.bind_eq_some_iff.2 ⟨k, hkept, hko⟩

/-- One write is confirmed, one loses a segment to an activation, one waits on. -/
def threeWrites : List Op :=
  [.create (.ofList [1, 2]) 0 5,
   .createSegmented (.ofList [(0, .ofList [1]), (1, .ofList [2])]) 5,
   .create (.ofList [1, 3]) 0 5,
   .ack ⟨0, 0⟩ 1 5, .ack ⟨0, 0⟩ 2 5,
   .activate (.of 6 [] (.ofList [(0, [0, 1]), (1, [2, 0])]))]

/-- The last write is forced to an end, and collection is shut down before another is created. -/
def shutDown : List Op :=
  [.finish ⟨0, 2⟩ (.failure (.timeout 10)), .finish ⟨0, 0⟩ (.failure .stopping), .stop,
   .create (.ofList [1]) 0 6]

theorem acts_consistent_threeWrites :
    creations (threeWrites ++ shutDown) < UInt64.size ∧
      ((new 0 0 5 0).acts threeWrites).table.pendingIds = [⟨0, 2⟩] ∧
      ((new 0 0 5 0).acts threeWrites).table.outcome? ⟨0, 1⟩ =
        some (.failure (.topologyChanged 6)) ∧
      Consistent 0 (creations threeWrites) ((new 0 0 5 0).acts threeWrites).table ∧
      ∀ id o, ((new 0 0 5 0).acts threeWrites).table.outcome? id = some o →
        ((new 0 0 5 0).acts (threeWrites ++ shutDown)).table.outcome? id = some o :=
  ⟨by decide, by decide, by decide, acts_consistent 0 0 5 0 threeWrites shutDown (by decide)⟩

end Engine
end BackupAcks
