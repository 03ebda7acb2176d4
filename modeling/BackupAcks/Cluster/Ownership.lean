import BackupAcks.Cluster.NodeSet

/-!
# Who owns what, at one epoch

A `SegmentMap` holds one value for each of finitely many segments, in increasing order of the
segments, so that two maps with the same entries are equal.

An `Ownership` is one version of the cluster's assignment: its members, and for every assigned
segment the list of owners, the primary first and the backups after it. Every listed owner is a
member; the type carries that fact, and `Ownership.of` establishes it. This is the ownership view
that comes with every change of the assignment (§4.5, §6).

Results:
* `SegmentMap.find?_eq_some_iff`: looking a segment up and listing the entries agree;
* `SegmentMap.mem_filterMap`: what dropping and changing entries leaves;
* `isOwner_iff`: the owners of a segment are exactly the nodes listed for it;
* `isOwner_iff_primary_or_backup`: they are its primary and its backups.
-/
namespace BackupAcks

/-! ## Maps from segments -/

/-- One value for each of finitely many segments. -/
structure SegmentMap (α : Type) where
  entries : List (SegmentId × α)
  increasing : (entries.map Prod.fst).Pairwise (· < ·)
  deriving DecidableEq, Repr

namespace SegmentMap

variable {α β : Type}

def empty : SegmentMap α := ⟨[], .nil⟩

def isEmpty (m : SegmentMap α) : Bool := m.entries.isEmpty

/-- The segments that have a value, in increasing order. -/
def segments (m : SegmentMap α) : List SegmentId := m.entries.map Prod.fst

def values (m : SegmentMap α) : List α := m.entries.map Prod.snd

def find? (m : SegmentMap α) (s : SegmentId) : Option α :=
  (m.entries.find? fun e => e.1 == s).map Prod.snd

/-! ### Building -/

/-- Adds an entry to an increasing list unless its segment has one. -/
def insertSorted (s : SegmentId) (a : α) : List (SegmentId × α) → List (SegmentId × α)
  | [] => [(s, a)]
  | e :: rest => if s < e.1 then (s, a) :: e :: rest else if s = e.1 then e :: rest
      else e :: insertSorted s a rest

theorem fst_mem_insertSorted {s t : SegmentId} {a : α} {l : List (SegmentId × α)}
    (h : t ∈ (insertSorted s a l).map Prod.fst) : t = s ∨ t ∈ l.map Prod.fst := by
  induction l with
  | nil => simpa [insertSorted] using h
  | cons e rest ih =>
    unfold insertSorted at h
    split at h
    · simpa using h
    · split at h
      · exact .inr h
      · rcases List.mem_cons.1 h with h | h
        · exact .inr (by simp [h])
        · exact (ih h).imp id fun h => List.mem_cons_of_mem _ h

theorem insertSorted_increasing (s : SegmentId) (a : α) {l : List (SegmentId × α)}
    (h : (l.map Prod.fst).Pairwise (· < ·)) :
    ((insertSorted s a l).map Prod.fst).Pairwise (· < ·) := by
  induction l with
  | nil => simp [insertSorted]
  | cons e rest ih =>
    obtain ⟨he, hr⟩ := List.pairwise_cons.1 h
    unfold insertSorted
    split
    · rename_i hlt
      refine List.pairwise_cons.2 ⟨fun t ht => ?_, h⟩
      rcases List.mem_cons.1 ht with rfl | ht
      · exact hlt
      · exact UInt32.lt_trans hlt (he t ht)
    · split
      · exact h
      · rename_i hlt hne
        refine List.pairwise_cons.2 ⟨fun t ht => ?_, ih hr⟩
        rcases fst_mem_insertSorted ht with rfl | ht
        · exact UInt32.lt_of_le_of_ne (UInt32.not_lt.1 hlt) (Ne.symm hne)
        · exact he t ht

/-- Adds an entry unless its segment has one. -/
def insertNew (e : SegmentId × α) (m : SegmentMap α) : SegmentMap α :=
  ⟨insertSorted e.1 e.2 m.entries, insertSorted_increasing e.1 e.2 m.increasing⟩

/-- The map of the listed entries; of several entries of one segment the last one counts. -/
def ofList (l : List (SegmentId × α)) : SegmentMap α := l.foldr insertNew empty

/-! ### Changing -/

/-- Replaces the value of each segment, or drops the segment. -/
def filterMap (f : SegmentId → α → Option β) (m : SegmentMap α) : SegmentMap β where
  entries := m.entries.filterMap fun e => (f e.1 e.2).map fun b => (e.1, b)
  increasing := by
    refine List.Pairwise.sublist ?_ m.increasing
    generalize m.entries = l
    induction l with
    | nil => simp
    | cons e rest ih =>
      rw [List.filterMap_cons, List.map_cons]
      cases f e.1 e.2 with
      | none => exact ih.cons _
      | some b => exact ih.cons_cons _

theorem mem_filterMap {f : SegmentId → α → Option β} {m : SegmentMap α} {s : SegmentId} {b : β} :
    (s, b) ∈ (m.filterMap f).entries ↔ ∃ a, (s, a) ∈ m.entries ∧ f s a = some b := by
  simp only [filterMap, List.mem_filterMap, Option.map_eq_some_iff, Prod.mk.injEq, Prod.exists]
  constructor
  · rintro ⟨t, a, hm, c, hc, rfl, rfl⟩
    exact ⟨a, hm, hc⟩
  · rintro ⟨a, hm, hf⟩
    exact ⟨s, a, hm, b, hf, rfl, rfl⟩

/-! ### Looking up -/

theorem segments_nodup (m : SegmentMap α) : m.segments.Nodup :=
  m.increasing.imp fun h => UInt32.ne_of_lt h

theorem find?_entries_eq_some {l : List (SegmentId × α)} (h : (l.map Prod.fst).Nodup)
    {s : SegmentId} {a : α} :
    (l.find? fun e => e.1 == s).map Prod.snd = some a ↔ (s, a) ∈ l := by
  induction l with
  | nil => simp
  | cons e rest ih =>
    obtain ⟨he, hr⟩ := List.nodup_cons.1 h
    obtain ⟨t, b⟩ := e
    by_cases hts : t = s
    · subst hts
      have : ∀ c, (t, c) ∉ rest := fun c hc => he (List.mem_map.2 ⟨_, hc, rfl⟩)
      simp [this, eq_comm]
    · have : (t == s) = false := by simpa using hts
      rw [List.find?_cons_of_neg (by simpa using hts), ih hr]
      simp [Ne.symm hts]

theorem find?_eq_some_iff {m : SegmentMap α} {s : SegmentId} {a : α} :
    m.find? s = some a ↔ (s, a) ∈ m.entries :=
  find?_entries_eq_some m.segments_nodup

end SegmentMap

/-! ## Assignments -/

/-- One version of the assignment of segments to nodes. -/
structure Ownership where
  epoch : Epoch
  members : NodeSet
  owners : SegmentMap (List NodeId)
  owners_mem : ∀ e ∈ owners.entries, ∀ n ∈ e.2, n ∈ members
  deriving DecidableEq

namespace Ownership

/-- The assignment with the given owners; its members are the owners and the `extra` nodes. -/
def of (epoch : Epoch) (extra : List NodeId) (owners : SegmentMap (List NodeId)) : Ownership where
  epoch := epoch
  members := NodeSet.ofList (extra ++ owners.entries.flatMap Prod.snd)
  owners := owners
  owners_mem := fun e he _ hn =>
    NodeSet.mem_ofList.2 (List.mem_append_right _ (List.mem_flatMap.2 ⟨e, he, hn⟩))

def isMember (v : Ownership) (n : NodeId) : Bool := decide (n ∈ v.members)

/-- The owners of a segment, primary first; none for an unassigned segment. -/
def ownersOf (v : Ownership) (s : SegmentId) : List NodeId := (v.owners.find? s).getD []

def primary? (v : Ownership) (s : SegmentId) : Option NodeId := (v.ownersOf s).head?

/-- All owners of a segment but the first. -/
def backups (v : Ownership) (s : SegmentId) : List NodeId := (v.ownersOf s).tail

/-- Whether the node is a member that owns the segment, as primary or as backup. -/
def isOwner (v : Ownership) (s : SegmentId) (n : NodeId) : Bool :=
  v.isMember n && (v.ownersOf s).contains n

theorem mem_members_of_mem_ownersOf {v : Ownership} {s : SegmentId} {n : NodeId}
    (h : n ∈ v.ownersOf s) : n ∈ v.members := by
  unfold ownersOf at h
  cases hf : v.owners.find? s with
  | none => simp [hf] at h
  | some ns =>
    rw [hf, Option.getD_some] at h
    exact v.owners_mem _ (SegmentMap.find?_eq_some_iff.1 hf) n h

/-- The membership test never turns a listed owner away. -/
theorem isOwner_iff {v : Ownership} {s : SegmentId} {n : NodeId} :
    v.isOwner s n = true ↔ n ∈ v.ownersOf s := by
  simp only [isOwner, isMember, Bool.and_eq_true, decide_eq_true_eq, List.contains_iff_mem]
  exact ⟨And.right, fun h => ⟨mem_members_of_mem_ownersOf h, h⟩⟩

theorem isOwner_iff_primary_or_backup {v : Ownership} {s : SegmentId} {n : NodeId} :
    v.isOwner s n = true ↔ v.primary? s = some n ∨ n ∈ v.backups s := by
  rw [isOwner_iff, primary?, backups]
  cases v.ownersOf s <;> simp [eq_comm]

end Ownership

end BackupAcks
