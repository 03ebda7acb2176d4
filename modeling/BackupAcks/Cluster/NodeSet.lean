/-!
# Nodes, segments, epochs, and finite sets of nodes

The numbers behind a § here and in other modules are those of the sections of the specification.

A `NodeSet` is kept as its members in increasing order, so that two sets with the same members are
equal.

Results:
* `ext`: a set is determined by its members;
* `mem_ofList`, `mem_filter`, `mem_erase`: what the operations do to membership.
-/
namespace BackupAcks

/-- Address of a node of the cluster (NodeAddress, §3). -/
abbrev NodeId := UInt32

/-- Part of the key space whose keys share their owners. -/
abbrev SegmentId := UInt32

/-- Version of the ownership assignment; it grows over the cluster's life (TopologyId, §3). -/
abbrev Epoch := UInt32

/-- A finite set of nodes. -/
structure NodeSet where
  toList : List NodeId
  increasing : toList.Pairwise (· < ·)
  deriving DecidableEq, Repr

namespace NodeSet

instance : Membership NodeId NodeSet := ⟨fun s n => n ∈ s.toList⟩

instance (n : NodeId) (s : NodeSet) : Decidable (n ∈ s) :=
  inferInstanceAs (Decidable (n ∈ s.toList))

theorem mem_toList {n : NodeId} {s : NodeSet} : n ∈ s.toList ↔ n ∈ s := Iff.rfl

def empty : NodeSet := ⟨[], .nil⟩

instance : EmptyCollection NodeSet := ⟨empty⟩

def isEmpty (s : NodeSet) : Bool := s.toList.isEmpty

def size (s : NodeSet) : Nat := s.toList.length

/-! ## Building -/

/-- Insertion into an increasing list; a member that is there already stays single. -/
def insertSorted (n : NodeId) : List NodeId → List NodeId
  | [] => [n]
  | m :: rest => if n < m then n :: m :: rest else if n = m then m :: rest
      else m :: insertSorted n rest

theorem mem_insertSorted {n m : NodeId} {l : List NodeId} :
    m ∈ insertSorted n l ↔ m = n ∨ m ∈ l := by
  induction l with
  | nil => simp [insertSorted]
  | cons x rest ih =>
    unfold insertSorted
    split
    · simp
    · split
      · subst n; simp
      · simp [ih, or_left_comm]

theorem insertSorted_increasing (n : NodeId) {l : List NodeId} (h : l.Pairwise (· < ·)) :
    (insertSorted n l).Pairwise (· < ·) := by
  induction l with
  | nil => simp [insertSorted]
  | cons x rest ih =>
    obtain ⟨hx, hr⟩ := List.pairwise_cons.1 h
    unfold insertSorted
    split
    · rename_i hlt
      refine List.pairwise_cons.2 ⟨fun y hy => ?_, h⟩
      rcases List.mem_cons.1 hy with rfl | hy
      · exact hlt
      · exact UInt32.lt_trans hlt (hx y hy)
    · split
      · exact h
      · rename_i hlt hne
        refine List.pairwise_cons.2 ⟨fun y hy => ?_, ih hr⟩
        rcases mem_insertSorted.1 hy with rfl | hy
        · exact UInt32.lt_of_le_of_ne (UInt32.not_lt.1 hlt) (Ne.symm hne)
        · exact hx y hy

def insert (n : NodeId) (s : NodeSet) : NodeSet :=
  ⟨insertSorted n s.toList, insertSorted_increasing n s.increasing⟩

/-- The set of the listed nodes; order and repetition do not matter. -/
def ofList (l : List NodeId) : NodeSet := l.foldr insert empty

@[simp] theorem mem_insert {n m : NodeId} {s : NodeSet} : m ∈ s.insert n ↔ m = n ∨ m ∈ s :=
  mem_insertSorted

@[simp] theorem mem_ofList {n : NodeId} {l : List NodeId} : n ∈ ofList l ↔ n ∈ l := by
  induction l with
  | nil => exact Iff.rfl
  | cons m rest ih =>
    rw [ofList, List.foldr_cons, mem_insert, List.mem_cons]
    exact or_congr_right ih

/-! ## Removing -/

def filter (keep : NodeId → Bool) (s : NodeSet) : NodeSet :=
  ⟨s.toList.filter keep, s.increasing.filter keep⟩

def erase (n : NodeId) (s : NodeSet) : NodeSet := s.filter (· != n)

@[simp] theorem mem_filter {n : NodeId} {keep : NodeId → Bool} {s : NodeSet} :
    n ∈ s.filter keep ↔ n ∈ s ∧ keep n = true :=
  List.mem_filter

@[simp] theorem mem_erase {n m : NodeId} {s : NodeSet} : m ∈ s.erase n ↔ m ∈ s ∧ m ≠ n := by
  simp [erase]

/-! ## Equality -/

theorem toList_nodup (s : NodeSet) : s.toList.Nodup :=
  s.increasing.imp fun h => UInt32.ne_of_lt h

theorem eq_of_mem_iff : ∀ {l k : List NodeId}, l.Pairwise (· < ·) → k.Pairwise (· < ·) →
    (∀ n, n ∈ l ↔ n ∈ k) → l = k
  | [], [], _, _, _ => rfl
  | [], m :: _, _, _, h => by simpa using h m
  | m :: _, [], _, _, h => by simpa using h m
  | x :: l, y :: k, hl, hk, h => by
    obtain ⟨hx, hl'⟩ := List.pairwise_cons.1 hl
    obtain ⟨hy, hk'⟩ := List.pairwise_cons.1 hk
    have hxy : x = y := by
      rcases List.mem_cons.1 ((h x).1 List.mem_cons_self) with hxy | hxk
      · exact hxy
      · rcases List.mem_cons.1 ((h y).2 List.mem_cons_self) with hyx | hyl
        · exact hyx.symm
        · exact absurd (hx y hyl) (UInt32.not_lt.2 (UInt32.le_of_lt (hy x hxk)))
    subst hxy
    congr 1
    refine eq_of_mem_iff hl' hk' fun n => ?_
    have hn := h n
    simp only [List.mem_cons] at hn
    constructor
    · intro hnl
      rcases hn.1 (.inr hnl) with rfl | hnk
      · exact absurd (hx _ hnl) (UInt32.lt_irrefl _)
      · exact hnk
    · intro hnk
      rcases hn.2 (.inr hnk) with rfl | hnl
      · exact absurd (hy _ hnk) (UInt32.lt_irrefl _)
      · exact hnl

@[ext] theorem ext {s t : NodeSet} (h : ∀ n, n ∈ s ↔ n ∈ t) : s = t := by
  cases s; cases t
  congr 1
  exact eq_of_mem_iff (by assumption) (by assumption) h

theorem isEmpty_iff {s : NodeSet} : s.isEmpty = true ↔ ∀ n, n ∉ s := by
  rw [isEmpty, List.isEmpty_iff, List.eq_nil_iff_forall_not_mem]
  exact Iff.rfl

end NodeSet
end BackupAcks
