import BackupAcks.Proofs.Table.Agreement

/-!
# The books of the table

A write without an outcome is open. A step ends some of the open writes (`ended`) and admits new
ones (`admitted`); whatever the step is, what was open or is admitted has ended or is open
(`Evolves.balance`). What a step reports agrees with this: a sweep lists as many outcomes as it ends
writes, and feeding an event to one write says whether that ended it. Both hold until identifiers
repeat.

Results:
* `Evolves.openIds_perm`: just the entries of the table are open;
* `Evolves.balance`: what was open or is admitted has ended or is open;
* `Evolves.length_sweep`, `Evolves.ended_apply`: steps report what they end.
-/
namespace BackupAcks.WriteTable

open PendingWrite (Lawful)

/-! ## Opening and ending -/

def openIds (t : WriteTable) : List WriteId := (t.handles.filter (·.outcome.isNone)).map (·.id)

/-- The open writes of `t` that have an outcome in `t'`. -/
def ended (t t' : WriteTable) : List WriteId := t.openIds.filter fun id => (t'.outcome? id).isSome

/-- The open writes of `t'` that were not issued in `t`. -/
def admitted (t t' : WriteTable) : List WriteId :=
  t'.openIds.filter fun id => (t.handle? id).isNone

variable {t t' : WriteTable} {id : WriteId} {home : NodeId} {capacity m n : Nat}

theorem not_unresolved_of_settled {o : Outcome} (h : t.outcome? id = some o) :
    ¬ t.Unresolved id := by
  rintro ⟨k, hk, hko⟩
  rw [outcome?, hk, Option.bind_some, hko] at h
  cases h

theorem unresolved_or_settled (h : (t.handle? id).isSome = true) :
    t.Unresolved id ∨ (t.outcome? id).isSome = true := by
  obtain ⟨k, hk⟩ := Option.isSome_iff_exists.1 h
  cases ho : k.outcome with
  | none => exact .inl ⟨k, hk, ho⟩
  | some o =>
    right
    rw [outcome?, hk, Option.bind_some, ho]
    rfl

theorem handle?_isSome_of_unresolved (h : t.Unresolved id) : (t.handle? id).isSome = true := by
  obtain ⟨k, hk, -⟩ := h
  rw [hk]
  rfl

theorem nodup_openIds (hd : (t.handles.map (·.id)).Nodup) : t.openIds.Nodup :=
  (List.filter_sublist.map _).nodup hd

theorem find?_id_of_mem {l : List Handle} (hd : (l.map (·.id)).Nodup) {k : Handle} (hk : k ∈ l) :
    l.find? (·.id == k.id) = some k := by
  induction l with
  | nil => cases hk
  | cons x rest ih =>
    obtain ⟨hx, hr⟩ := List.nodup_cons.1 hd
    rcases List.mem_cons.1 hk with rfl | hk
    · exact List.find?_cons_of_pos (by simp)
    · rw [List.find?_cons_of_neg, ih hr hk]
      intro he
      exact hx (List.mem_map.2 ⟨k, hk, (beq_iff_eq.1 he).symm⟩)

theorem mem_openIds (hd : (t.handles.map (·.id)).Nodup) : id ∈ t.openIds ↔ t.Unresolved id := by
  simp only [openIds, List.mem_map, List.mem_filter, Option.isNone_iff_eq_none]
  constructor
  · rintro ⟨k, ⟨hk, hko⟩, rfl⟩
    exact ⟨k, find?_id_of_mem hd hk, hko⟩
  · rintro ⟨k, hk, hko⟩
    exact ⟨k, ⟨List.mem_of_find?_eq_some hk, hko⟩, by simpa using List.find?_some hk⟩

section Runs

variable (h : Evolves (.new home capacity) n t) (hn : n ≤ UInt64.size)

include h hn

theorem Evolves.nodup_handles : (t.handles.map (·.id)).Nodup := h.issued.nodup hn

theorem Evolves.mem_openIds : id ∈ t.openIds ↔ t.Unresolved id :=
  WriteTable.mem_openIds (h.nodup_handles hn)

theorem Evolves.mem_ended :
    id ∈ t.ended t' ↔ t.Unresolved id ∧ (t'.outcome? id).isSome = true := by
  rw [ended, List.mem_filter, h.mem_openIds hn]

theorem Evolves.nodup_ended : (t.ended t').Nodup :=
  (nodup_openIds (h.nodup_handles hn)).filter _

theorem Evolves.openIds_perm : t.openIds.Perm t.pendingIds := by
  have hs := h.sound (Sound.new home capacity)
  refine (List.perm_ext_iff_of_nodup (nodup_openIds (h.nodup_handles hn)) ?_).2 fun id => ?_
  · rw [hs.pendingIds_eq]
    exact hs.nodup
  · rw [h.mem_openIds hn, hs.mem_pendingIds_iff, h.agrees hn id]

theorem Evolves.length_openIds : t.openIds.length = t.size := by
  rw [(h.openIds_perm hn).length_eq, (h.sound (Sound.new home capacity)).pendingIds_eq,
    List.length_map, size]

end Runs

/-! ## One step -/

section Steps

variable (h : Evolves (.new home capacity) n t) (h' : Evolves t m t') (hn : n + m ≤ UInt64.size)

include h h' hn

theorem Evolves.handle?_isSome_of_before (hh : (t.handle? id).isSome = true) :
    (t'.handle? id).isSome = true := by
  obtain ⟨ho, hs⟩ := (h.issued.handle?_isSome_iff (by omega)).1 hh
  exact ((h.trans h').issued.handle?_isSome_iff hn).2 ⟨ho, by omega⟩

theorem Evolves.unresolved_of_after (hu : t'.Unresolved id) (hh : (t.handle? id).isSome = true) :
    t.Unresolved id := by
  rcases unresolved_or_settled hh with hopen | hsettled
  · exact hopen
  · obtain ⟨o, ho⟩ := Option.isSome_iff_exists.1 hsettled
    obtain ⟨k, hk, hko⟩ := Option.bind_eq_some_iff.1 ho
    have hkept := h'.settled (h.sound (Sound.new home capacity)) h.issued hn hk hko
    exact absurd hu (not_unresolved_of_settled (by rw [outcome?, hkept, Option.bind_some, hko]))

theorem Evolves.mem_admitted :
    id ∈ t.admitted t' ↔ t'.Unresolved id ∧ t.handle? id = none := by
  rw [admitted, List.mem_filter, (h.trans h').mem_openIds hn, Option.isNone_iff_eq_none]

/-- What was open or is admitted has ended or is open, and no write is found twice on either side. -/
theorem Evolves.balance :
    (t.admitted t' ++ t.openIds).Perm (t.ended t' ++ t'.openIds) ∧
      (t.admitted t' ++ t.openIds).Nodup := by
  have hn' : n ≤ UInt64.size := by omega
  have hopen : t'.openIds.Nodup := nodup_openIds ((h.trans h').nodup_handles hn)
  have hbefore : (t.admitted t' ++ t.openIds).Nodup := by
    refine List.Nodup.append (hopen.filter _) (nodup_openIds (h.nodup_handles hn')) ?_
    intro id hid hold
    have hnew := ((h.mem_admitted h' hn).1 hid).2
    have hsome := handle?_isSome_of_unresolved ((h.mem_openIds hn').1 hold)
    rw [hnew] at hsome
    cases hsome
  have hafter : (t.ended t' ++ t'.openIds).Nodup := by
    refine List.Nodup.append (h.nodup_ended hn') hopen ?_
    intro id hid hstill
    obtain ⟨o, ho⟩ := Option.isSome_iff_exists.1 ((h.mem_ended hn').1 hid).2
    exact not_unresolved_of_settled ho (((h.trans h').mem_openIds hn).1 hstill)
  refine ⟨(List.perm_ext_iff_of_nodup hbefore hafter).2 fun id => ?_, hbefore⟩
  rw [List.mem_append, List.mem_append, h.mem_admitted h' hn, h.mem_ended hn', h.mem_openIds hn',
    (h.trans h').mem_openIds hn]
  constructor
  · rintro (⟨hu, -⟩ | hu)
    · exact .inr hu
    · rcases unresolved_or_settled (h.handle?_isSome_of_before h' hn
        (handle?_isSome_of_unresolved hu)) with hstill | hsettled
      · exact .inr hstill
      · exact .inl ⟨hu, hsettled⟩
  · rintro (⟨hu, -⟩ | hu)
    · exact .inr hu
    · cases hh : t.handle? id with
      | none => exact .inl ⟨hu, rfl⟩
      | some k => exact .inr (h.unresolved_of_after h' hn hu (by rw [hh]; rfl))

end Steps

/-! ## What is reported -/

theorem map_fst_settlements_sublist (rule : PendingWrite → Ruling) (t : WriteTable) :
    ((t.settlements rule).map Prod.fst).Sublist (t.pending.map (·.id)) := by
  rw [settlements]
  induction t.pending with
  | nil => exact .slnil
  | cons x rest ih =>
    cases ho : (rule x).outcome? with
    | none => rw [List.filterMap_cons_none (by rw [ho]; rfl)]; exact ih.cons _
    | some o =>
      rw [List.filterMap_cons_some (b := (x.id, o)) (by rw [ho]; rfl)]
      exact ih.cons_cons _

theorem Sound.mem_map_fst_settlements (hs : t.Sound) {rule : PendingWrite → Ruling} :
    id ∈ (t.settlements rule).map Prod.fst ↔
      (((t.find? id).bind fun w => (rule w).outcome?).isSome = true) := by
  rw [← lookup_settlements hs.nodup, List.lookup_isSome_iff, List.mem_map]
  simp

/-- After a sweep of an open write it has an outcome just if the rule ended its entry. -/
theorem Sound.isSome_outcome?_sweep (hs : t.Sound) {rule : PendingWrite → Ruling}
    (hu : t.Unresolved id) :
    ((t.sweep rule).2.outcome? id).isSome = ((t.find? id).bind fun w => (rule w).outcome?).isSome := by
  obtain ⟨k, hk, hko⟩ := hu
  rw [outcome?, hs.handle?_sweep, hk, Option.map_some, Option.bind_some, settleBy, hko,
    Option.none_or]

section Reports

variable (h : Evolves (.new home capacity) n t) (hn : n ≤ UInt64.size)

include h hn

theorem Evolves.settlements_perm (rule : PendingWrite → Ruling) :
    ((t.settlements rule).map Prod.fst).Perm (t.ended (t.sweep rule).2) := by
  have hs := h.sound (Sound.new home capacity)
  have hd : ((t.settlements rule).map Prod.fst).Nodup :=
    (map_fst_settlements_sublist rule t).nodup hs.nodup
  refine (List.perm_ext_iff_of_nodup hd (h.nodup_ended hn)).2 fun id => ?_
  rw [hs.mem_map_fst_settlements, h.mem_ended hn]
  constructor
  · intro ho
    have hu : t.Unresolved id := by
      rw [← h.agrees hn id]
      cases hf : t.find? id with
      | none => rw [hf] at ho; cases ho
      | some w => rfl
    exact ⟨hu, (hs.isSome_outcome?_sweep hu).trans ho⟩
  · rintro ⟨hu, ho⟩
    exact (hs.isSome_outcome?_sweep hu).symm.trans ho

/-- A sweep lists one outcome for each write that it ends. -/
theorem Evolves.length_sweep (rule : PendingWrite → Ruling) :
    (t.sweep rule).1.length = (t.ended (t.sweep rule).2).length := by
  rw [← (h.settlements_perm hn rule).length_eq, (h.sound (Sound.new home capacity)).sweep_eq,
    List.length_map, List.length_map]

/-- Feeding an event to one write ends that write or none, and says which. -/
theorem Evolves.ended_apply {rule : PendingWrite → Ruling} (hr : Lawful rule) (kind : EventKind)
    (id : WriteId) :
    t.ended (t.apply id kind rule).value.2 =
      if (t.apply id kind rule).value.1 then [id] else [] := by
  have hs := h.sound (Sound.new home capacity)
  have hperm := h.settlements_perm hn (only id rule)
  rw [hs.apply_eq_sweep hr, hs.apply_fst]
  have hmem : ∀ k, k ∈ t.ended (t.sweep (only id rule)).2 ↔
      k = id ∧ ((t.find? id).bind fun w => (rule w).outcome?).isSome = true := by
    intro k
    rw [← hperm.mem_iff, hs.mem_map_fst_settlements]
    by_cases hk : k = id
    · subst hk
      have hself : ((t.find? k).bind fun w => (only k rule w).outcome?) =
          (t.find? k).bind fun w => (rule w).outcome? := by
        cases hf : t.find? k with
        | none => rfl
        | some w => rw [Option.bind_some, Option.bind_some, only, if_pos (id_of_find? hf)]
      rw [hself]
      simp
    · cases hf : t.find? k with
      | none => simp [hk]
      | some w =>
        have hne : w.id ≠ id := by rwa [id_of_find? hf]
        simp [hk, only_of_ne rule hne, Ruling.outcome?]
  split
  · rename_i ho
    refine List.perm_singleton.1 ((List.perm_ext_iff_of_nodup (h.nodup_ended hn)
      (List.nodup_singleton id)).2 fun k => ?_)
    rw [hmem, List.mem_singleton, and_iff_left ho]
  · rename_i ho
    exact List.eq_nil_iff_forall_not_mem.2 fun k hk => ho ((hmem k).1 hk).2

theorem Evolves.ended_register (r : Requirement) (epoch : Epoch) (hlt : n < UInt64.size) :
    t.ended (t.register r epoch).value.2 = [] := by
  refine List.eq_nil_iff_forall_not_mem.2 fun id hid => ?_
  obtain ⟨⟨k, hk, hko⟩, ho⟩ := (h.mem_ended hn).1 hid
  have hne : t.ids.issue.1 ≠ id := by
    intro he
    rw [← he, h.issued.handle?_next hlt] at hk
    cases hk
  rw [outcome?, handle?_register, if_neg hne, hk, Option.bind_some, hko] at ho
  cases ho

/-- Shutting down counts the writes that were open, and ends all of them. -/
theorem Evolves.stop_fst : t.stop.1 = (t.ended t.stop.2).length := by
  have hs := h.sound (Sound.new home capacity)
  rw [hs.stop_eq, WriteTable.stop]
  exact h.length_sweep hn _

end Reports
end BackupAcks.WriteTable
