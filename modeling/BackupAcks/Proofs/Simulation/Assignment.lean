import BackupAcks.Simulation.Traffic
import Mathlib.Data.List.Perm.Basic
import Mathlib.Data.List.Dedup
import Mathlib.Data.Nat.ModEq

/-!
# Who owns what in the simulated cluster

The backups of a segment are `copies` different nodes, as long as the numbers of segments, changes
and copies stay within a word together: consecutive numbers leave different remainders as long as
there are no more of them than nodes. Node 0 is primary of every segment but the one that is handed
off, so that there are always segments left that it may write to.

Results:
* `ownersOf_assignment`: the assignment gives every segment the owners that are laid down for it;
* `nodup_backupsOf`: the backups of a segment are different nodes;
* `mem_candidates`, `candidates_ne_nil`: the segments that the primary may write to.
-/
namespace BackupAcks

/-! ## Maps of distinct segments -/

namespace SegmentMap

variable {α : Type} {s : SegmentId} {a : α} {l : List (SegmentId × α)}

theorem perm_insertSorted (h : s ∉ l.map Prod.fst) : (insertSorted s a l).Perm ((s, a) :: l) := by
  induction l with
  | nil => exact .refl _
  | cons e rest ih =>
    rw [List.map_cons, List.mem_cons, not_or] at h
    unfold insertSorted
    split
    · exact .refl _
    · rw [if_neg h.1]
      exact ((ih h.2).cons e).trans (.swap _ _ _)

theorem perm_ofList (h : (l.map Prod.fst).Nodup) : (ofList l).entries.Perm l := by
  induction l with
  | nil => exact .refl _
  | cons e rest ih =>
    obtain ⟨he, hrest⟩ := List.nodup_cons.1 h
    have hperm := ih hrest
    refine (perm_insertSorted fun hmem => he ?_).trans (hperm.cons e)
    exact (hperm.map Prod.fst).mem_iff.1 hmem

theorem find?_ofList (h : (l.map Prod.fst).Nodup) : (ofList l).find? s = some a ↔ (s, a) ∈ l := by
  rw [find?_eq_some_iff, (perm_ofList h).mem_iff]

/-- Different segments, each with the value that a function gives it. -/
theorem nodup_map_fst {ss : List SegmentId} (h : ss.Nodup) (f : SegmentId → α) :
    ((ss.map fun s => (s, f s)).map Prod.fst).Nodup := by
  rw [List.map_map]
  exact (List.map_id ss).symm ▸ h

end SegmentMap

namespace Simulation

variable {p : Parameters} {n s shift : UInt32} {epoch : Epoch} {handedOff : Bool}

/-! ## Words below a bound -/

theorem length_wordsBelow (n : UInt32) : (wordsBelow n).length = n.toNat := by
  rw [wordsBelow, List.length_map, List.length_range]

theorem mem_wordsBelow : s ∈ wordsBelow n ↔ s < n := by
  have hn := n.toNat_lt
  simp only [wordsBelow, List.mem_map, List.mem_range, UInt32.lt_iff_toNat_lt]
  constructor
  · intro h
    obtain ⟨i, hi, rfl⟩ := h
    rwa [UInt32.toNat_ofNat_of_lt' (Nat.lt_trans hi hn)]
  · intro h
    exact ⟨s.toNat, h, UInt32.ofNat_toNat⟩

theorem nodup_wordsBelow (n : UInt32) : (wordsBelow n).Nodup := by
  refine List.Nodup.map_on (fun i hi j hj hij => ?_) List.nodup_range
  have hn := n.toNat_lt
  have heq := congrArg UInt32.toNat hij
  rwa [UInt32.toNat_ofNat_of_lt' (Nat.lt_trans (List.mem_range.1 hi) hn),
    UInt32.toNat_ofNat_of_lt' (Nat.lt_trans (List.mem_range.1 hj) hn)] at heq

/-! ## Owners -/

theorem ownersOf_assignment (hs : s < p.segments) :
    (assignment p epoch shift handedOff).ownersOf s = ownersOf p shift handedOff s := by
  have hnodup := SegmentMap.nodup_map_fst (nodup_wordsBelow p.segments)
    (ownersOf p shift handedOff)
  have hmem := List.mem_map_of_mem (f := fun s => (s, ownersOf p shift handedOff s))
    (mem_wordsBelow.2 hs)
  rw [Ownership.ownersOf, assignment, Ownership.of, (SegmentMap.find?_ofList hnodup).2 hmem,
    Option.getD_some]

/-- Node 0 leads the owners of a segment that is not handed off. -/
theorem ownersOf_of_kept (h : s ≠ 0 ∨ handedOff = false) :
    ownersOf p shift handedOff s = primary :: backupsOf p shift s := by
  rw [ownersOf, if_neg]
  intro hoff
  rcases h with h | h
  · exact h hoff.1
  · rw [h] at hoff
    cases hoff.2

theorem primary?_assignment (hs : s < p.segments) (h : s ≠ 0 ∨ handedOff = false) :
    (assignment p epoch shift handedOff).primary? s = some primary := by
  rw [Ownership.primary?, ownersOf_assignment hs, ownersOf_of_kept h, List.head?_cons]

theorem backups_assignment (hs : s < p.segments) (h : s ≠ 0 ∨ handedOff = false) :
    (assignment p epoch shift handedOff).backups s = backupsOf p shift s := by
  rw [Ownership.backups, ownersOf_assignment hs, ownersOf_of_kept h, List.tail_cons]

/-! ## Backups -/

theorem length_backupsOf : (backupsOf p shift s).length = p.copies.toNat := by
  rw [backupsOf, List.length_map, length_wordsBelow]

/-- Different numbers stand for different nodes, as long as they are below the number of nodes. -/
theorem backup_inj {k c c' b : UInt32} (hc : c < b) (hc' : c' < b)
    (hk : k.toNat + c.toNat < UInt32.size) (hk' : k.toNat + c'.toNat < UInt32.size)
    (h : 1 + (k + c) % b = 1 + (k + c') % b) : c = c' := by
  have hmod : (k + c) % b = (k + c') % b := by simpa using h
  have hnat := congrArg UInt32.toNat hmod
  rw [UInt32.toNat_mod, UInt32.toNat_mod, UInt32.toNat_add, UInt32.toNat_add,
    Nat.mod_eq_of_lt hk, Nat.mod_eq_of_lt hk'] at hnat
  have hcong : c.toNat ≡ c'.toNat [MOD b.toNat] := Nat.ModEq.add_left_cancel' k.toNat hnat
  exact UInt32.toNat_inj.1
    (hcong.eq_of_lt_of_lt (UInt32.lt_iff_toNat_lt.1 hc) (UInt32.lt_iff_toNat_lt.1 hc'))

theorem nodup_backupsOf (hcopies : p.copies ≤ p.backups)
    (hs : s.toNat + shift.toNat + p.copies.toNat ≤ UInt32.size) : (backupsOf p shift s).Nodup := by
  have hfits : ∀ c ∈ wordsBelow p.copies,
      c < p.backups ∧ (s + shift).toNat + c.toNat < UInt32.size := by
    intro c hc
    have hlt := mem_wordsBelow.1 hc
    have hnat := UInt32.lt_iff_toNat_lt.1 hlt
    refine ⟨UInt32.lt_of_lt_of_le hlt hcopies, ?_⟩
    rw [UInt32.toNat_add, Nat.mod_eq_of_lt] <;> simp only [UInt32.size] at hs ⊢ <;> omega
  refine List.Nodup.map_on (fun c hc c' hc' h => ?_) (nodup_wordsBelow p.copies)
  exact backup_inj (hfits c hc).1 (hfits c' hc').1 (hfits c hc).2 (hfits c' hc').2 h

/-! ## What the primary may write to -/

theorem mem_candidates (hs : s < p.segments) (h : s ≠ 0 ∨ handedOff = false) :
    s ∈ candidates p (assignment p epoch shift handedOff) := by
  rw [candidates, List.mem_filter, primary?_assignment hs h]
  exact ⟨mem_wordsBelow.2 hs, beq_self_eq_true _⟩

/-- Two segments suffice for one to be left. -/
theorem candidates_ne_nil (hp : 2 ≤ p.segments) (turn : Nat) :
    candidates p (assignmentAt p turn) ≠ [] :=
  List.ne_nil_of_mem
    (mem_candidates (s := 1) (UInt32.lt_of_lt_of_le (by decide) hp) (.inl (by decide)))

end Simulation
end BackupAcks
