import BackupAcks.Proofs.Simulation.Agenda

/-!
# Every assignment of the simulated cluster is well formed

Parameters that pass the check have fewer copies than nodes and more segments than a write touches.
So a segment has one owner more than copies, all different, and handing segment 0 off takes one
segment from the primary only: what is left is enough for a write, and everyone else who owns a
segment of the primary is a node that it can reach.

Results:
* `assigned_assignment`: the owners of every segment, and the members;
* `nodup_candidates`, `batch_le_candidates`: there are enough segments for a write;
* `chosen_spec`: a write touches as many different segments of the primary as it should;
* `mem_channels_of_mem_backups`: the primary can reach all backups of its segments.
-/
namespace BackupAcks.Simulation

variable {p : Parameters} {n s shift : UInt32} {epoch : Epoch} {handedOff : Bool}

/-! ## Nodes -/

/-- The nodes that the primary can forward to: all others. -/
def channels (p : Parameters) : List NodeId := (wordsBelow p.backups).map (1 + ·)

theorem toNat_one_add {k b : UInt32} (h : k < b) : (1 + k).toNat = k.toNat + 1 := by
  have hb := b.toNat_lt
  have hk := UInt32.lt_iff_toNat_lt.1 h
  rw [UInt32.toNat_add, UInt32.toNat_one, Nat.add_comm, Nat.mod_eq_of_lt]
  omega

theorem mem_channels : n ∈ channels p ↔ n ≠ primary ∧ n ≤ p.backups := by
  rw [channels, List.mem_map]
  constructor
  · intro h
    obtain ⟨k, hk, rfl⟩ := h
    have hlt := mem_wordsBelow.1 hk
    have hnat := toNat_one_add hlt
    refine ⟨fun hzero => ?_, UInt32.le_iff_toNat_le.2 ?_⟩
    · rw [hzero] at hnat
      exact absurd hnat (Nat.succ_ne_zero _).symm
    · rw [hnat]
      exact UInt32.lt_iff_toNat_lt.1 hlt
  · intro h
    have hpos : 0 < n.toNat := Nat.pos_of_ne_zero fun hzero => h.1 (UInt32.toNat_inj.1 hzero)
    have hle := UInt32.le_iff_toNat_le.1 h.2
    have hb := p.backups.toNat_lt
    have hpred : (UInt32.ofNat (n.toNat - 1)).toNat = n.toNat - 1 :=
      UInt32.toNat_ofNat_of_lt' (Nat.lt_of_le_of_lt (Nat.sub_le _ _) n.toNat_lt)
    have hlt : UInt32.ofNat (n.toNat - 1) < p.backups := by
      rw [UInt32.lt_iff_toNat_lt, hpred]
      omega
    refine ⟨_, mem_wordsBelow.2 hlt, UInt32.toNat_inj.1 ?_⟩
    rw [toNat_one_add hlt, hpred]
    omega

theorem mem_nodes : n ∈ nodes p ↔ n ≤ p.backups := by
  have hnodes : nodes p = primary :: channels p := rfl
  rw [hnodes, List.mem_cons, mem_channels]
  constructor
  · rintro (rfl | h)
    · exact UInt32.zero_le
    · exact h.2
  · intro h
    exact or_iff_not_imp_left.2 fun hne => ⟨hne, h⟩

/-! ## Owners -/

theorem mem_channels_of_mem_backupsOf (hp : p.Fits) (h : n ∈ backupsOf p shift s) :
    n ∈ channels p := by
  obtain ⟨c, -, rfl⟩ := List.mem_map.1 h
  have hpos : 0 < p.backups :=
    UInt32.lt_of_lt_of_le (UInt32.pos_iff_ne_zero.2 hp.copies_pos) hp.copies_le
  exact List.mem_map_of_mem (mem_wordsBelow.2 (UInt32.mod_lt _ hpos))

theorem ne_primary_of_mem_backupsOf (hp : p.Fits) (h : n ∈ backupsOf p shift s) : n ≠ primary :=
  (mem_channels.1 (mem_channels_of_mem_backupsOf hp h)).1

theorem perm_swapFirst : ∀ ns : List NodeId, (swapFirst ns).Perm ns
  | [] => .refl _
  | [_] => .refl _
  | a :: b :: rest => .swap a b rest

/-- Handing a segment off changes the order of its owners only. -/
theorem perm_ownersOf (p : Parameters) (shift : UInt32) (handedOff : Bool) (s : SegmentId) :
    (ownersOf p shift handedOff s).Perm (primary :: backupsOf p shift s) := by
  simp only [ownersOf]
  split
  · exact perm_swapFirst _
  · exact .refl _

/-- A segment that is handed off belongs to its first backup. -/
theorem head?_ownersOf (hp : p.Fits) : (ownersOf p shift handedOff s).head? = some primary ↔
    ¬(s = 0 ∧ handedOff = true) := by
  simp only [ownersOf]
  split
  · rename_i hoff
    refine iff_of_false ?_ (not_not.2 hoff)
    -- there is a first backup, since there are copies
    cases hbackups : backupsOf p shift s with
    | nil =>
      have hlength := congrArg List.length hbackups
      rw [length_backupsOf] at hlength
      exact absurd (UInt32.toNat_inj.1 hlength) hp.copies_pos
    | cons b rest =>
      have hb : b ∈ backupsOf p shift s := hbackups ▸ List.mem_cons_self
      intro hhead
      exact ne_primary_of_mem_backupsOf hp hb (Option.some.inj hhead)
  · rename_i hkept
    exact iff_of_true rfl hkept

theorem le_backups_of_mem_ownersOf (hp : p.Fits) (h : n ∈ ownersOf p shift handedOff s) :
    n ≤ p.backups := by
  rcases List.mem_cons.1 ((perm_ownersOf p shift handedOff s).mem_iff.1 h) with rfl | h
  · exact UInt32.zero_le
  · exact (mem_channels.1 (mem_channels_of_mem_backupsOf hp h)).2

theorem nodup_ownersOf (hp : p.Fits)
    (hs : s.toNat + shift.toNat + p.copies.toNat ≤ UInt32.size) :
    (ownersOf p shift handedOff s).Nodup := by
  refine (perm_ownersOf p shift handedOff s).nodup_iff.2 (List.nodup_cons.2 ⟨fun h => ?_, ?_⟩)
  · exact ne_primary_of_mem_backupsOf hp h rfl
  · exact nodup_backupsOf hp.copies_le hs

/-! ## Assignments -/

/-- An assignment that gives every segment its owners among the nodes. -/
structure Assigned (p : Parameters) (handedOff : Bool) (v : Ownership) : Prop where
  /-- The nodes are the primary, which has number 0, and the numbered backups. -/
  members : ∀ n, n ∈ v.members ↔ n ≤ p.backups
  length : ∀ s < p.segments, (v.ownersOf s).length = p.copies.toNat + 1
  nodup : ∀ s < p.segments, (v.ownersOf s).Nodup
  among : ∀ s < p.segments, ∀ n ∈ v.ownersOf s, n ≤ p.backups
  primary_mem : ∀ s < p.segments, primary ∈ v.ownersOf s
  /-- The primary comes first, but for segment 0 when that is handed off. -/
  first : ∀ s < p.segments, v.primary? s = some primary ↔ ¬(s = 0 ∧ handedOff = true)

theorem mem_members_assignment (hp : p.Fits) :
    n ∈ (assignment p epoch shift handedOff).members ↔ n ≤ p.backups := by
  rw [assignment, Ownership.of, NodeSet.mem_ofList, List.mem_append, mem_nodes]
  refine or_iff_left_of_imp fun h => ?_
  obtain ⟨e, he, hn⟩ := List.mem_flatMap.1 h
  have hmem := (SegmentMap.perm_ofList (SegmentMap.nodup_map_fst (nodup_wordsBelow p.segments)
    (ownersOf p shift handedOff))).mem_iff.1 he
  obtain ⟨s, -, rfl⟩ := List.mem_map.1 hmem
  exact le_backups_of_mem_ownersOf hp hn

theorem assigned_assignment (hp : p.Fits)
    (hwords : p.segments.toNat + shift.toNat + p.copies.toNat ≤ UInt32.size) :
    Assigned p handedOff (assignment p epoch shift handedOff) where
  members _ := mem_members_assignment hp
  length s hs := by
    rw [ownersOf_assignment hs, (perm_ownersOf p shift handedOff s).length_eq, List.length_cons,
      length_backupsOf]
  nodup s hs := by
    have hlt := UInt32.lt_iff_toNat_lt.1 hs
    rw [ownersOf_assignment hs]
    exact nodup_ownersOf hp (by omega)
  among s hs n hn := by
    rw [ownersOf_assignment hs] at hn
    exact le_backups_of_mem_ownersOf hp hn
  primary_mem s hs := by
    rw [ownersOf_assignment hs]
    exact (perm_ownersOf p shift handedOff s).mem_iff.2 List.mem_cons_self
  first s hs := by
    rw [Ownership.primary?, ownersOf_assignment hs]
    exact head?_ownersOf hp

/-! ## What the primary may write to -/

theorem mem_candidates_iff {v : Ownership} :
    s ∈ candidates p v ↔ s < p.segments ∧ v.primary? s = some primary := by
  rw [candidates, List.mem_filter, mem_wordsBelow, beq_iff_eq]

theorem nodup_candidates (p : Parameters) (v : Ownership) : (candidates p v).Nodup :=
  (nodup_wordsBelow p.segments).filter _

/-- At most segment 0 is missing. -/
theorem batch_le_candidates (hp : p.Fits) :
    p.batch ≤ (candidates p (assignment p epoch shift handedOff)).length := by
  have hsub : wordsBelow p.segments ⊆ 0 :: candidates p (assignment p epoch shift handedOff) := by
    intro s hs
    by_cases hzero : s = 0
    · exact hzero ▸ List.mem_cons_self
    · exact List.mem_cons_of_mem _ (mem_candidates (mem_wordsBelow.1 hs) (.inl hzero))
  have hle := (List.subperm_of_subset (nodup_wordsBelow p.segments) hsub).length_le
  rw [length_wordsBelow, List.length_cons] at hle
  exact Nat.le_of_lt_succ (Nat.lt_of_lt_of_le hp.batch_lt hle)

/-- A write touches as many different segments of the primary as it should. -/
theorem chosen_spec {among : List SegmentId} (hnodup : among.Nodup)
    (henough : p.batch ≤ among.length) (chance : Chance) (i : Nat) :
    (chosen p chance among i).length = p.batch ∧ (chosen p chance among i).Nodup ∧
      ∀ s ∈ chosen p chance among i, s ∈ among := by
  obtain ⟨rest, hperm, hlength⟩ := Chance.perm_sample (chance.segment i) henough
  refine ⟨hlength, ?_, fun s hs => hperm.mem_iff.1 (List.mem_append_left rest hs)⟩
  exact (List.nodup_append.1 (hperm.nodup_iff.2 hnodup)).1

/-- The primary can reach every backup of a segment that it may write to. -/
theorem mem_channels_of_mem_backups (hp : p.Fits)
    (hs : s ∈ candidates p (assignment p epoch shift handedOff))
    (hn : n ∈ (assignment p epoch shift handedOff).backups s) : n ∈ channels p := by
  obtain ⟨hlt, hprimary⟩ := mem_candidates_iff.1 hs
  have hkept : s ≠ 0 ∨ handedOff = false := by
    rw [Ownership.primary?, ownersOf_assignment hlt, head?_ownersOf hp] at hprimary
    simpa only [not_and_or, Bool.not_eq_true] using hprimary
  rw [backups_assignment hlt hkept] at hn
  exact mem_channels_of_mem_backupsOf hp hn

end BackupAcks.Simulation
