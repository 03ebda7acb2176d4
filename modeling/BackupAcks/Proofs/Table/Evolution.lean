import BackupAcks.Proofs.Table.Sound

/-!
# Runs of the table

`Evolves t₀ n t` says that `t` comes from `t₀` by any number of steps, `n` of which register a
write. Whatever drives a table is shown to evolve it, and inherits what is proved here.

Results:
* `Evolves.sound`: a sound table stays sound;
* `Evolves.issued`: the handles name the identifiers issued so far, each once in the order of issue;
* `Evolves.agrees`: until identifiers repeat, a write is in the table just while its handle is open;
* `Evolves.settled`: until identifiers repeat, a settled handle keeps its outcome.
-/
namespace BackupAcks.WriteTable

open PendingWrite (Lawful)

/-- `t` comes from `t₀` by steps, `n` of them registrations. -/
inductive Evolves (t₀ : WriteTable) : Nat → WriteTable → Prop
  | refl : Evolves t₀ 0 t₀
  | register {n : Nat} {t : WriteTable} (h : Evolves t₀ n t) {r : Requirement} (hr : r.Dense)
      (epoch : Epoch) : Evolves t₀ (n + 1) (t.register r epoch).value.2
  | apply {n : Nat} {t : WriteTable} (h : Evolves t₀ n t) (id : WriteId) (kind : EventKind)
      {rule : PendingWrite → Ruling} (hr : Lawful rule) :
      Evolves t₀ n (t.apply id kind rule).value.2
  | sweep {n : Nat} {t : WriteTable} (h : Evolves t₀ n t) {rule : PendingWrite → Ruling}
      (hr : Lawful rule) : Evolves t₀ n (t.sweep rule).2
  | stop {n : Nat} {t : WriteTable} (h : Evolves t₀ n t) : Evolves t₀ n t.stop.2

theorem Evolves.trans {t₀ t₁ t₂ : WriteTable} {m n : Nat} (h₁ : Evolves t₀ m t₁)
    (h₂ : Evolves t₁ n t₂) : Evolves t₀ (m + n) t₂ := by
  induction h₂ with
  | refl => exact h₁
  | register _ hr epoch ih => exact ih.register hr epoch
  | apply _ id kind hr ih => exact ih.apply id kind hr
  | sweep _ hr ih => exact ih.sweep hr
  | stop _ ih => exact ih.stop

variable {t t₀ : WriteTable} {id : WriteId} {n : Nat}

theorem Evolves.sound (h : Evolves t₀ n t) (h₀ : t₀.Sound) : t.Sound := by
  induction h with
  | refl => exact h₀
  | register _ hr epoch ih => exact ih.register hr epoch
  | apply _ id kind hr ih => exact ih.apply hr kind
  | sweep _ hr ih => exact ih.sweep hr
  | stop _ ih => exact ih.stop

/-- A property that registering and sweeping keep is kept by every run: feeding a single write and
shutting down are sweeps too. -/
theorem Evolves.induct {P : Nat → WriteTable → Prop} (h : Evolves t₀ n t) (h₀ : t₀.Sound)
    (start : P 0 t₀)
    (register : ∀ n t r, ∀ epoch, t.Sound → r.Dense → P n t →
      P (n + 1) (t.register r epoch).value.2)
    (sweep : ∀ n t rule, t.Sound → Lawful rule → P n t → P n (t.sweep rule).2)
    (close : ∀ n t, P n t → P n { t with stopped := true }) : P n t := by
  induction h with
  | refl => exact start
  | register h hr epoch ih => exact register _ _ _ epoch (h.sound h₀) hr ih
  | apply h id kind hr ih =>
    rw [(h.sound h₀).apply_eq_sweep hr]
    exact sweep _ _ _ (h.sound h₀) (lawful_only id hr) ih
  | sweep h hr ih => exact sweep _ _ _ (h.sound h₀) hr ih
  | stop h ih =>
    rw [(h.sound h₀).stop_eq]
    exact close _ _ (sweep _ _ _ (h.sound h₀) (PendingWrite.lawful_settled _) ih)

/-! ## The limit and the mark of the shutdown -/

theorem Evolves.capacity (h : Evolves t₀ n t) (hs : t₀.Sound) : t.capacity = t₀.capacity :=
  h.induct (P := fun _ t => t.capacity = t₀.capacity) hs rfl (fun _ _ _ _ _ _ ht => ht)
    (fun _ _ _ _ _ ht => ht) fun _ _ ht => ht

theorem Evolves.stopped (h : Evolves t₀ n t) (hs : t₀.Sound) (hstopped : t₀.stopped = true) :
    t.stopped = true :=
  h.induct (P := fun _ t => t.stopped = true) hs hstopped (fun _ _ _ _ _ _ ht => ht)
    (fun _ _ _ _ _ ht => ht) fun _ _ _ => rfl

/-! ## Identifiers -/

def nthId (home : NodeId) (i : Nat) : WriteId := ⟨home, UInt64.ofNat i⟩

theorem nthId_inj {home : NodeId} {i j : Nat} (hi : i < UInt64.size) (hj : j < UInt64.size)
    (h : nthId home i = nthId home j) : i = j := by
  have hs : UInt64.ofNat i = UInt64.ofNat j := congrArg WriteId.seq h
  have ht := congrArg UInt64.toNat hs
  rwa [UInt64.toNat_ofNat_of_lt' hi, UInt64.toNat_ofNat_of_lt' hj] at ht

/-- The table's node has issued its first `n` identifiers, and the handles name them, the newest
first. -/
structure Issued (home : NodeId) (n : Nat) (t : WriteTable) : Prop where
  ids_eq : t.ids = ⟨home, UInt64.ofNat n⟩
  handles_eq : t.handles.map (·.id) = ((List.range n).map (nthId home)).reverse

theorem map_id_settleIn (k : WriteId) (o : Outcome) (handles : List Handle) :
    (settleIn k o handles).map (·.id) = handles.map (·.id) := by
  induction handles with
  | nil => rfl
  | cons h rest ih =>
    unfold settleIn
    split
    · rfl
    · rw [List.map_cons, List.map_cons, ih]

theorem map_id_settleAll (settled : List (WriteId × Outcome)) (handles : List Handle) :
    (settled.foldl (fun hs e => settleIn e.1 e.2 hs) handles).map (·.id) = handles.map (·.id) := by
  induction settled generalizing handles with
  | nil => rfl
  | cons e rest ih => rw [List.foldl_cons, ih, map_id_settleIn]

theorem Issued.new (home : NodeId) (capacity : Nat) : Issued home 0 (.new home capacity) :=
  ⟨rfl, rfl⟩

theorem Issued.register {home : NodeId} (h : Issued home n t) (r : Requirement) (epoch : Epoch) :
    Issued home (n + 1) (t.register r epoch).value.2 := by
  refine ⟨?_, ?_⟩
  · simp only [WriteTable.register, Logged.value_bind, Logged.value_pure, IdSource.issue, h.ids_eq]
    rw [UInt64.ofNat_add]
    rfl
  · simp only [WriteTable.register, Logged.value_bind, Logged.value_pure, IdSource.issue,
      List.map_cons, h.handles_eq, h.ids_eq]
    rw [List.range_succ, List.map_append, List.reverse_append]
    rfl

theorem Issued.sweep {home : NodeId} (h : Issued home n t) (rule : PendingWrite → Ruling) :
    Issued home n (t.sweep rule).2 :=
  ⟨h.ids_eq, by simp only [WriteTable.sweep]; rw [map_id_settleAll, h.handles_eq]⟩

theorem Evolves.issued {home : NodeId} {capacity : Nat} (h : Evolves (.new home capacity) n t) :
    Issued home n t := by
  refine h.induct (Sound.new home capacity) (Issued.new home capacity) ?_ ?_ ?_
  · intro n t r epoch _ _ hi
    exact hi.register r epoch
  · intro n t rule _ _ hi
    exact hi.sweep rule
  · intro n t hi
    exact ⟨hi.ids_eq, hi.handles_eq⟩

theorem Issued.nodup {home : NodeId} (h : Issued home n t) (hn : n ≤ UInt64.size) :
    (t.handles.map (·.id)).Nodup := by
  rw [h.handles_eq, List.nodup_reverse]
  refine List.Nodup.map_on (fun i hi j hj hij => ?_) List.nodup_range
  exact nthId_inj (Nat.lt_of_lt_of_le (List.mem_range.1 hi) hn)
    (Nat.lt_of_lt_of_le (List.mem_range.1 hj) hn) hij

theorem handle?_isSome_iff : (t.handle? id).isSome = true ↔ id ∈ t.handles.map (·.id) := by
  simp only [handle?, List.find?_isSome, List.mem_map, beq_iff_eq]

/-- Just the issued identifiers have handles. -/
theorem Issued.handle?_isSome_iff {home : NodeId} (h : Issued home n t) (hn : n ≤ UInt64.size) :
    (t.handle? id).isSome = true ↔ id.origin = home ∧ id.seq.toNat < n := by
  rw [WriteTable.handle?_isSome_iff, h.handles_eq, List.mem_reverse, List.mem_map]
  constructor
  · intro hx
    obtain ⟨i, hi, rfl⟩ := hx
    have hin := List.mem_range.1 hi
    refine ⟨rfl, ?_⟩
    rw [nthId, UInt64.toNat_ofNat_of_lt' (Nat.lt_of_lt_of_le hin hn)]
    exact hin
  · intro hx
    obtain ⟨ho, hs⟩ := hx
    refine ⟨id.seq.toNat, List.mem_range.2 hs, ?_⟩
    rw [nthId, UInt64.ofNat_toNat, ← ho]

/-- The next identifier is a new one until identifiers repeat. -/
theorem Issued.handle?_next {home : NodeId} (h : Issued home n t) (hn : n < UInt64.size) :
    t.handle? t.ids.issue.1 = none := by
  rw [← Option.not_isSome_iff_eq_none, h.handle?_isSome_iff (Nat.le_of_lt hn)]
  intro hx
  obtain ⟨-, hs⟩ := hx
  rw [IdSource.issue, h.ids_eq, UInt64.toNat_ofNat_of_lt' hn] at hs
  exact Nat.lt_irrefl n hs

/-! ## Entries and handles -/

/-- The handle returned for an identifier has no outcome yet. -/
def Unresolved (t : WriteTable) (id : WriteId) : Prop :=
  ∃ h, t.handle? id = some h ∧ h.outcome = none

/-- A write is in the table just while its handle is open. -/
def Agrees (t : WriteTable) : Prop := ∀ id, (t.find? id).isSome = true ↔ t.Unresolved id

theorem Sound.find?_eq_none (h : t.Sound) (hh : t.handle? id = none) : t.find? id = none := by
  cases hf : t.find? id with
  | none => rfl
  | some w =>
    obtain ⟨k, hk, hko⟩ := List.any_eq_true.1 (h.isOpen w (mem_of_find? hf))
    rw [id_of_find? hf] at hko
    simp only [Bool.and_eq_true, beq_iff_eq] at hko
    have := List.find?_eq_none.1 hh k hk
    simp [hko.1] at this

theorem Agrees.register (h : t.Agrees) (hs : t.Sound) {r : Requirement} {epoch : Epoch}
    (hnew : t.handle? t.ids.issue.1 = none) : (t.register r epoch).value.2.Agrees := by
  intro id
  rw [Unresolved, find?_register, handle?_register]
  by_cases hid : t.ids.issue.1 = id
  · rw [hid] at hnew
    have hnone := hs.find?_eq_none hnew
    cases ho : t.immediateOutcome r <;> simp [hid, hnone]
  · simp only [hid, false_and, if_false]
    exact h id

/-- One more outcome on a handle and one more ruling on its entry leave the two in step. -/
theorem Agrees.sweep (h : t.Agrees) (hs : t.Sound) {rule : PendingWrite → Ruling}
    (hr : Lawful rule) : (t.sweep rule).2.Agrees := by
  intro id
  rw [Unresolved, hs.find?_sweep hr, hs.handle?_sweep]
  cases hf : t.find? id with
  | none =>
    have hno : ¬ t.Unresolved id := by rw [← h id, hf]; simp
    simp only [Option.bind_none, map_settleBy_none]
    simpa [Unresolved] using hno
  | some w =>
    obtain ⟨k, hk, hko⟩ := (h id).1 (by rw [hf]; rfl)
    rw [Option.bind_some, Option.bind_some, hk]
    cases hw : rule w <;> simp [Ruling.remaining?, Ruling.outcome?, settleBy, hko]

theorem Evolves.agrees {home : NodeId} {capacity : Nat} (h : Evolves (.new home capacity) n t)
    (hn : n ≤ UInt64.size) : t.Agrees := by
  have key : Issued home n t ∧ (n ≤ UInt64.size → t.Agrees) := by
    refine h.induct (P := fun n t => Issued home n t ∧ (n ≤ UInt64.size → t.Agrees))
      (Sound.new home capacity) ⟨.new home capacity, fun _ id => ?_⟩ ?_ ?_ ?_
    · simp [Unresolved, find?, handle?, WriteTable.new]
    · intro n t r epoch hs _ ih
      exact ⟨ih.1.register r epoch,
        fun hn => (ih.2 (Nat.le_of_succ_le hn)).register hs (ih.1.handle?_next hn)⟩
    · intro n t rule hs hr ih
      exact ⟨ih.1.sweep rule, fun hn => (ih.2 hn).sweep hs hr⟩
    · intro n t ih
      exact ⟨⟨ih.1.ids_eq, ih.1.handles_eq⟩, ih.2⟩
  exact key.2 hn

/-! ## Outcomes are kept -/

/-- A settled handle keeps its outcome, whatever happens until identifiers repeat. -/
theorem Evolves.settled {home : NodeId} {m : Nat} {h : Handle} {o : Outcome}
    (he : Evolves t₀ n t) (hs : t₀.Sound) (hi : Issued home m t₀) (hmn : m + n ≤ UInt64.size)
    (hh : t₀.handle? id = some h) (ho : h.outcome = some o) : t.handle? id = some h := by
  have key : Issued home (m + n) t ∧ (m + n ≤ UInt64.size → t.handle? id = some h) := by
    refine he.induct
      (P := fun n t => Issued home (m + n) t ∧ (m + n ≤ UInt64.size → t.handle? id = some h))
      hs ⟨hi, fun _ => hh⟩ ?_ ?_ ?_
    · intro n t r epoch _ _ ih
      refine ⟨ih.1.register r epoch, fun hn => ?_⟩
      have hold := ih.2 (Nat.le_of_succ_le hn)
      rw [handle?_register, if_neg, hold]
      intro hid
      have hnew := ih.1.handle?_next hn
      rw [hid, hold] at hnew
      cases hnew
    · intro n t rule hs _ ih
      refine ⟨ih.1.sweep rule, fun hn => ?_⟩
      rw [hs.handle?_sweep, ih.2 hn, Option.map_some, settleBy, ho, Option.some_or, ← ho]
    · intro n t ih
      exact ⟨⟨ih.1.ids_eq, ih.1.handles_eq⟩, ih.2⟩
  exact key.2 hmn

end BackupAcks.WriteTable
