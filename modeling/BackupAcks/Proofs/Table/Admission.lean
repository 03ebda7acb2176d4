import BackupAcks.Proofs.Table.Agreement
import Mathlib.Data.List.Induction

/-!
# Admission of new writes

A creation issues an identifier and then looks, in this order, whether collection was shut down,
whether anybody has to confirm the write at all, and whether too many writes wait already. Only a
write that passes all three is entered in the table. The limit is kept by every operation: a
creation heeds it, and whatever else happens only takes entries out or changes them in place.

Results:
* `acts_size_le`: with a limit, never more writes wait than it allows;
* `returned_eq`: the creations return the identifiers of the node in the order of its numbers;
* `acts_stopped`: the parts are shut down just if they were asked to;
* `creation_admitted`: what a creation returns, how it is answered, what becomes of the entries.
-/
namespace BackupAcks

namespace WriteTable

open PendingWrite (Lawful)

variable {t : WriteTable} {r : Requirement} {epoch : Epoch} {n : Nat}

/-! ## The limit -/

/-- A write that has to wait is one more than there were. -/
theorem size_lt_of_immediateOutcome (hc : 0 < t.capacity) (ho : t.immediateOutcome r = none) :
    t.size < t.capacity := by
  unfold immediateOutcome at ho
  split at ho
  · cases ho
  · split at ho
    · cases ho
    · split at ho
      · cases ho
      · rename_i hfull
        exact Nat.lt_of_not_le fun hle => hfull ⟨hc, hle⟩

theorem size_register (r : Requirement) (epoch : Epoch) :
    (t.register r epoch).value.2.size ≤
      if t.immediateOutcome r = none then t.size + 1 else t.size := by
  simp only [register, Logged.value_bind, Logged.value_pure, size]
  cases t.immediateOutcome r with
  | none => exact Nat.succ_le_succ (List.length_filter_le _ _)
  | some o => exact Nat.le_refl _

theorem size_sweep (rule : PendingWrite → Ruling) : (t.sweep rule).2.size ≤ t.size := by
  simp only [size, sweep]
  exact Nat.le_trans (List.length_filterMap_le _ _) (Nat.le_of_eq (List.length_map _))

theorem Evolves.size_le {home : NodeId} {capacity : Nat} (h : Evolves (.new home capacity) n t)
    (hc : 0 < capacity) : t.size ≤ capacity := by
  have key : t.capacity = capacity ∧ t.size ≤ capacity := by
    refine h.induct (P := fun _ t => t.capacity = capacity ∧ t.size ≤ capacity)
      (Sound.new home capacity) ⟨rfl, Nat.zero_le _⟩ ?_ ?_ ?_
    · intro n t r epoch _ _ ih
      obtain ⟨hcap, hsize⟩ := ih
      refine ⟨hcap, Nat.le_trans (size_register r epoch) ?_⟩
      split
      · rename_i ho
        have hlt := size_lt_of_immediateOutcome (hcap ▸ hc) ho
        rwa [hcap] at hlt
      · exact hsize
    · intro n t rule _ _ ih
      exact ⟨ih.1, Nat.le_trans (size_sweep rule) ih.2⟩
    · intro n t ih
      exact ih
  exact key.2

/-! ## The entry of a new write -/

/-- A new write takes nobody's place while its identifier is not in use. -/
theorem pending_register (hnew : t.find? t.ids.issue.1 = none) :
    (t.register r epoch).value.2.pending =
      if t.immediateOutcome r = none then ⟨t.ids.issue.1, epoch, r⟩ :: t.pending
      else t.pending := by
  have hkept : t.pending.filter (·.id != t.ids.issue.1) = t.pending := by
    refine List.filter_eq_self.2 fun w hw => ?_
    simpa using List.find?_eq_none.1 hnew w hw
  simp only [register, Logged.value_bind, Logged.value_pure, hkept]
  cases t.immediateOutcome r <;> rfl

/-! ## The outcome of a new write -/

theorem immediateOutcome_of_running (hs : t.stopped = false) :
    t.immediateOutcome r =
      if r.isSatisfied then some .success
      else if 0 < t.capacity ∧ t.capacity ≤ t.size then some (.failure (.overloaded t.size))
      else none := by
  simp [immediateOutcome, hs]

end WriteTable

namespace Engine

open WriteTable (nthId)

variable {home follower : NodeId} {epoch₀ epoch : Epoch} {m n : Nat} {e : Engine} {op : Op}
  {ops : List Op} {r : Requirement}

/-! ## Creations -/

def Op.order? : Op → Option (Requirement × Epoch)
  | .create owners segment epoch => some (.single segment owners, epoch)
  | .createSegmented owners epoch => some (.ofSegments owners, epoch)
  | _ => none

/-- The operation creates a write that node `n` has to confirm in segment `s`. -/
def Op.Asks (s : SegmentId) (n : NodeId) : Op → Prop
  | .create owners segment _ => s = segment ∧ n ∈ owners
  | .createSegmented owners _ => ∃ ns, (s, ns) ∈ owners.entries ∧ n ∈ ns
  | _ => False

theorem Op.exists_order (h : op.isCreation = true) : ∃ o, op.order? = some o := by
  cases op with
  | create owners segment epoch => exact ⟨_, rfl⟩
  | createSegmented owners epoch => exact ⟨_, rfl⟩
  | _ => cases h

theorem Op.dense_of_order (ho : op.order? = some (r, epoch)) : r.Dense := by
  cases op with
  | create owners segment epoch =>
    cases ho
    trivial
  | createSegmented owners epoch =>
    cases ho
    exact Requirement.ofSegments_dense owners
  | _ => cases ho

/-- A write waits for the confirmations that its creation asks for; a segment without owners asks
for none. -/
theorem Op.mem_pairs_iff (ho : op.order? = some (r, epoch)) {s : SegmentId} {n : NodeId} :
    (s, n) ∈ r.pairs ↔ op.Asks s n := by
  cases op with
  | create owners segment epoch =>
    cases ho
    exact Requirement.mem_pairs_single
  | createSegmented owners epoch =>
    cases ho
    exact Requirement.mem_pairs_ofSegments
  | _ => cases ho

theorem Op.isSatisfied_iff (ho : op.order? = some (r, epoch)) :
    r.isSatisfied = true ↔ ∀ s n, ¬ op.Asks s n := by
  rw [Requirement.isSatisfied_iff (dense_of_order ho), Prod.forall]
  simp only [mem_pairs_iff ho]

theorem act_of_order (ho : op.order? = some (r, epoch)) :
    e.act op = (e.register r epoch).value.2 := by
  cases op with
  | create owners segment epoch =>
    cases ho
    rfl
  | createSegmented owners epoch =>
    cases ho
    rfl
  | _ => cases ho

/-! ## The identifiers returned -/

def returned? (e : Engine) (op : Op) : Option WriteId :=
  op.order?.map fun o => (e.register o.1 o.2).value.1

def returned (e : Engine) : List Op → List WriteId
  | [] => []
  | op :: ops => (e.returned? op).toList ++ (e.act op).returned ops

theorem returned?_eq (e : Engine) (op : Op) :
    e.returned? op = if op.isCreation then some e.table.ids.issue.1 else none := by
  cases op <;> rfl

theorem returned_concat (e : Engine) (ops : List Op) (op : Op) :
    e.returned (ops ++ [op]) = e.returned ops ++ ((e.acts ops).returned? op).toList := by
  induction ops generalizing e with
  | nil => exact List.append_nil _
  | cons first ops ih =>
    rw [List.cons_append, returned, ih, returned, List.append_assoc]
    rfl

theorem new_acts_evolves (home follower : NodeId) (epoch₀ : Epoch) (m : Nat) (ops : List Op) :
    (WriteTable.new home m).Evolves (creations ops)
      ((new home follower epoch₀ m).acts ops).table :=
  acts_evolves (new home follower epoch₀ m) ops

/-- The next identifier to be issued has the number of writes created as its own. -/
theorem next_eq (home follower : NodeId) (epoch₀ : Epoch) (m : Nat) (ops : List Op) :
    ((new home follower epoch₀ m).acts ops).table.ids.issue.1 = nthId home (creations ops) := by
  rw [(new_acts_evolves home follower epoch₀ m ops).issued.ids_eq]
  rfl

/-- The creations return the identifiers of the node in the order of its numbers, for whatever
becomes of the writes. -/
theorem returned_eq (home follower : NodeId) (epoch₀ : Epoch) (m : Nat) (ops : List Op) :
    (new home follower epoch₀ m).returned ops =
      (List.range (creations ops)).map (nthId home) := by
  induction ops using List.reverseRecOn with
  | nil => rfl
  | append_singleton ops op ih =>
    rw [returned_concat, ih, returned?_eq, next_eq, creations, creations, List.countP_append]
    cases hop : op.isCreation with
    | false => simp [hop]
    | true => simp [hop, List.range_succ]

theorem nthId_lt {i j : Nat} (hij : i < j) (hj : j < UInt64.size) :
    nthId home i < nthId home j := by
  refine .inr ⟨rfl, ?_⟩
  show UInt64.ofNat i < UInt64.ofNat j
  rwa [UInt64.lt_iff_toNat_lt, UInt64.toNat_ofNat_of_lt' (Nat.lt_trans hij hj),
    UInt64.toNat_ofNat_of_lt' hj]

/-! ## The shutdown -/

theorem act_stopped (e : Engine) (op : Op) :
    (e.act op).table.stopped = true ↔ e.table.stopped = true ∨ op = .stop := by
  cases op with
  | create owners segment epoch => simp [act, register, onTable, WriteTable.register]
  | createSegmented owners epoch => simp [act, register, onTable, WriteTable.register]
  | ack id sender epoch =>
    simp [act, onTable, WriteTable.ack, WriteTable.apply_stopped]
  | segmentAck id sender epoch segment =>
    simp [act, onTable, WriteTable.segmentAck, WriteTable.apply_stopped]
  | error id sender epoch cause =>
    simp [act, onTable, WriteTable.error_value, WriteTable.apply_stopped]
  | finish id o =>
    simp [act, onTable, WriteTable.finish, WriteTable.apply_stopped]
  | activate v =>
    simp only [act, activate, ActiveView.activate]
    split <;> simp [WriteTable.sweep]
  | restrict members => simp [act, onTable, WriteTable.restrict, WriteTable.sweep]
  | catchUp id epoch =>
    simp [act, catchUp, onTable, WriteTable.catchUp_stopped]
  | stop => simp [act, stopTable, WriteTable.stop]

theorem acts_stopped (e : Engine) (ops : List Op) :
    (e.acts ops).table.stopped = true ↔ e.table.stopped = true ∨ .stop ∈ ops := by
  induction ops generalizing e with
  | nil => simp [acts]
  | cons op ops ih =>
    rw [acts, List.foldl_cons, ← acts, ih, act_stopped, List.mem_cons, or_assoc, eq_comm (a := op)]

/-! ## Creations after a run -/

/-- What becomes of `op`, which creates a write after `ops` on the fresh parts `e`, where `m` is the
limit on the writes that wait: the identifier that it returns, how its handle stands, and what it
leaves of the entries. The first reason to answer at once counts. -/
structure Admission (m : Nat) (e : Engine) (ops : List Op) (op : Op) (id : WriteId) : Prop where
  returned : (e.acts ops).returned? op = some id
  /-- The identifier is past all that were returned before, for whatever became of their writes. -/
  newest : ∀ k ∈ e.returned ops, k < id
  /-- So there is no entry that the new one could replace. -/
  unused : (e.acts ops).table.find? id = none
  stopping : .stop ∈ ops →
    ((e.acts ops).act op).table.handle? id = some ⟨id, some (.failure .stopping)⟩
  satisfied : .stop ∉ ops → (∀ s n, ¬ op.Asks s n) →
    ((e.acts ops).act op).table.handle? id = some ⟨id, some .success⟩
  overloaded : .stop ∉ ops → (∃ s n, op.Asks s n) → 0 < m ∧ (e.acts ops).table.size = m →
    ((e.acts ops).act op).table.handle? id = some ⟨id, some (.failure (.overloaded m))⟩
  /-- Otherwise the handle is open, and there is one more entry, for what was asked for. -/
  waiting : .stop ∉ ops → (∃ s n, op.Asks s n) → ¬ (0 < m ∧ (e.acts ops).table.size = m) →
    ((e.acts ops).act op).table.handle? id = some ⟨id, none⟩ ∧
      ∃ w : PendingWrite, w.id = id ∧ op.order? = some (w.requirement, w.epoch) ∧
        (∀ s n, (s, n) ∈ w.requirement.pairs ↔ op.Asks s n) ∧
        ((e.acts ops).act op).table.pending = w :: (e.acts ops).table.pending
  /-- In all other cases the entries are left as they are. -/
  unchanged :
    .stop ∈ ops ∨ (∀ s n, ¬ op.Asks s n) ∨ (0 < m ∧ (e.acts ops).table.size = m) →
      ((e.acts ops).act op).table.pending = (e.acts ops).table.pending

/-- How a new write stands at once is decided by what was asked for and by the room there is. -/
theorem immediateOutcome_of_order (h : (WriteTable.new home m).Evolves n e.table)
    (ho : op.order? = some (r, epoch)) (hs : e.table.stopped = false) :
    ((∀ s n, ¬ op.Asks s n) → e.table.immediateOutcome r = some .success) ∧
      ((∃ s n, op.Asks s n) →
        (0 < m ∧ e.table.size = m → e.table.immediateOutcome r = some (.failure (.overloaded m))) ∧
        (¬ (0 < m ∧ e.table.size = m) → e.table.immediateOutcome r = none)) := by
  have hcap : e.table.capacity = m := h.capacity (.new home m)
  rw [WriteTable.immediateOutcome_of_running hs, hcap]
  refine ⟨fun hnone => if_pos ((Op.isSatisfied_iff ho).2 hnone), fun hsome => ?_⟩
  have hunsat : ¬ r.isSatisfied = true := fun hsat => by
    obtain ⟨s, k, hk⟩ := hsome
    exact (Op.isSatisfied_iff ho).1 hsat s k hk
  rw [if_neg hunsat]
  refine ⟨fun hfull => ?_, fun hroom => if_neg fun hle => hroom ⟨hle.1, ?_⟩⟩
  · rw [hfull.2, if_pos ⟨hfull.1, Nat.le_refl m⟩]
  · exact Nat.le_antisymm (h.size_le hle.1) hle.2

/-- A creation is answered as it should be where its identifier is a new one. -/
theorem admission_of_newest (hrun : (WriteTable.new home m).Evolves n (e.acts ops).table)
    (hn : n < UInt64.size) (hnewest : ∀ k ∈ e.returned ops, k < (e.acts ops).table.ids.issue.1)
    (hstop : (e.acts ops).table.stopped = true ↔ .stop ∈ ops) (hop : op.isCreation = true) :
    Admission m e ops op (e.acts ops).table.ids.issue.1 := by
  obtain ⟨⟨r, epoch⟩, ho⟩ := Op.exists_order hop
  have hunused := (hrun.sound (.new home m)).find?_eq_none (hrun.issued.handle?_next hn)
  have hhandle : ((e.acts ops).act op).table.handle? (e.acts ops).table.ids.issue.1 =
      some ⟨(e.acts ops).table.ids.issue.1, (e.acts ops).table.immediateOutcome r⟩ := by
    rw [act_of_order ho]
    exact (WriteTable.handle?_register r epoch).trans (if_pos rfl)
  have hentry : ((e.acts ops).act op).table.pending =
      if (e.acts ops).table.immediateOutcome r = none then
        ⟨(e.acts ops).table.ids.issue.1, epoch, r⟩ :: (e.acts ops).table.pending
      else (e.acts ops).table.pending := by
    rw [act_of_order ho]
    exact WriteTable.pending_register hunused
  have hshut : .stop ∈ ops →
      (e.acts ops).table.immediateOutcome r = some (.failure .stopping) := fun hmem => by
    simp [WriteTable.immediateOutcome, hstop.2 hmem]
  have hrunning : .stop ∉ ops → (e.acts ops).table.stopped = false := fun hmem => by
    simpa using mt hstop.1 hmem
  refine
    { returned := by rw [returned?_eq, if_pos hop]
      newest := hnewest
      unused := hunused
      stopping := fun hmem => by rw [hhandle, hshut hmem]
      satisfied := fun hmem hnone => ?_
      overloaded := fun hmem hsome hfull => ?_
      waiting := fun hmem hsome hroom => ?_
      unchanged := fun hcase => ?_ }
  · rw [hhandle, (immediateOutcome_of_order hrun ho (hrunning hmem)).1 hnone]
  · rw [hhandle, ((immediateOutcome_of_order hrun ho (hrunning hmem)).2 hsome).1 hfull]
  · have hopen := ((immediateOutcome_of_order hrun ho (hrunning hmem)).2 hsome).2 hroom
    refine ⟨by rw [hhandle, hopen], ⟨_, epoch, r⟩, rfl, ho, fun s k => Op.mem_pairs_iff ho, ?_⟩
    rw [hentry, if_pos hopen]
  · rw [hentry, if_neg]
    by_cases hmem : .stop ∈ ops
    · simp [hshut hmem]
    · obtain ⟨hnone, hsome⟩ := immediateOutcome_of_order hrun ho (hrunning hmem)
      by_cases hasks : ∃ s n, op.Asks s n
      · have hfull : 0 < m ∧ (e.acts ops).table.size = m :=
          (hcase.resolve_left hmem).resolve_left fun hno => by
            obtain ⟨s, k, hk⟩ := hasks
            exact hno s k hk
        simp [(hsome hasks).1 hfull]
      · simp [hnone fun s k hk => hasks ⟨s, k, hk⟩]

/-- **Admission and the limit.** After any sequence of operations on fresh parts that creates fewer
writes than there are identifiers, no more writes wait than the limit allows, if there is one; and
whatever write is created next gets a new identifier, is answered for the first reason that applies,
and has an entry made for it only if none does. -/
theorem creation_admitted (home follower : NodeId) (epoch₀ : Epoch) (m : Nat) (ops : List Op)
    (h : creations ops < UInt64.size) :
    (0 < m → ((new home follower epoch₀ m).acts ops).table.size ≤ m) ∧
      ∀ op : Op, op.isCreation = true →
        ∃ id, Admission m (new home follower epoch₀ m) ops op id := by
  have hrun := new_acts_evolves home follower epoch₀ m ops
  refine ⟨hrun.size_le, fun op hop => ⟨_, admission_of_newest hrun h (fun k hk => ?_) ?_ hop⟩⟩
  · rw [returned_eq, List.mem_map] at hk
    obtain ⟨i, hi, rfl⟩ := hk
    rw [next_eq]
    exact nthId_lt (List.mem_range.1 hi) h
  · rw [acts_stopped]
    exact or_iff_right Bool.false_ne_true

/-- Two writes wait, which is all there is room for; one that needs nobody was created in between,
and one was turned away. -/
def fullTable : List Op :=
  [.create (.ofList [1, 2]) 0 5, .createSegmented (.ofList [(0, .ofList []), (1, .ofList [])]) 5,
   .createSegmented (.ofList [(0, .ofList [1]), (1, .ofList [])]) 5, .create (.ofList [2]) 0 5,
   .ack ⟨0, 0⟩ 1 5]

theorem creation_admitted_fullTable :
    creations fullTable < UInt64.size ∧
      (Op.create (.ofList [3]) 0 5).isCreation = true ∧
      (new 0 0 5 2).returned fullTable = [⟨0, 0⟩, ⟨0, 1⟩, ⟨0, 2⟩, ⟨0, 3⟩] ∧
      ((new 0 0 5 2).acts fullTable).table.outcome? ⟨0, 3⟩ = some (.failure (.overloaded 2)) ∧
      ((new 0 0 5 2).acts fullTable).table.size = 2 ∧
      (0 < 2 → ((new 0 0 5 2).acts fullTable).table.size ≤ 2) ∧
      ∃ id, Admission 2 (new 0 0 5 2) fullTable (.create (.ofList [3]) 0 5) id :=
  ⟨by decide, rfl, by decide, by decide, by decide,
    (creation_admitted 0 0 5 2 fullTable (by decide)).1,
    (creation_admitted 0 0 5 2 fullTable (by decide)).2 _ rfl⟩

end Engine
end BackupAcks
