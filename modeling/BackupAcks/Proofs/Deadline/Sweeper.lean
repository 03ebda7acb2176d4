import BackupAcks.Deadline

/-!
# Ordered deadlines and their alarm

A sweeper is `Armed` while its deadlines stand in order and its alarm is set to the first of them,
or off if there is none. The instant of the alarm is kept twice, in the alarm and in the sleep
beneath it, and set anew only for an earlier deadline; that the two stay in step with the list is
what keeps the sweeper from sleeping past a deadline.

Results:
* `Armed.add`, `Armed.fire?`: the sweeper stays armed;
* `Armed.fire?_eq`: when the alarm has its turn, just the deadlines that have passed are taken out.
-/
namespace BackupAcks

namespace Deadline

variable {d e x : Deadline} {l : List Deadline}

/-! ## The order -/

theorem before_iff_toNat : d.before e ↔ d.due < e.due ∨ d.due = e.due ∧
    (d.id.origin.toNat < e.id.origin.toNat ∨
      d.id.origin.toNat = e.id.origin.toNat ∧ d.id.seq.toNat < e.id.seq.toNat) := by
  rw [UInt32.toNat_inj]
  exact Iff.rfl

theorem sameKey_iff_toNat : d.sameKey e ↔ d.due = e.due ∧
    d.id.origin.toNat = e.id.origin.toNat ∧ d.id.seq.toNat = e.id.seq.toNat := by
  rw [UInt32.toNat_inj, UInt64.toNat_inj, sameKey]
  cases d.id; cases e.id
  simp

theorem before_trans (h : d.before e) (h' : e.before x) : d.before x := by
  rw [before_iff_toNat] at *
  unfold Instant at *
  omega

/-- Two deadlines come one after the other, unless they are of one write and one instant. -/
theorem before_of_not_before (h : ¬ d.before e) (hk : ¬ d.sameKey e) : e.before d := by
  rw [before_iff_toNat] at *
  rw [sameKey_iff_toNat] at hk
  unfold Instant at *
  omega

theorem before_of_sameKey (hk : d.sameKey e) (h : e.before x) : d.before x := by
  rw [before_iff_toNat] at *
  rw [sameKey_iff_toNat] at hk
  unfold Instant at *
  omega

theorem due_le_of_before (h : d.before e) : d.due ≤ e.due := by
  rcases h with h | h
  · exact Nat.le_of_lt h
  · exact Nat.le_of_eq h.1

/-! ## Insertion -/

theorem eq_or_mem_of_mem_insert (h : x ∈ insert d l) : x = d ∨ x ∈ l := by
  induction l with
  | nil => exact .inl (List.mem_singleton.1 h)
  | cons e rest ih =>
    unfold insert at h
    split at h
    · exact List.mem_cons.1 h
    · split at h
      · exact (List.mem_cons.1 h).imp_right (List.mem_cons_of_mem _)
      · rcases List.mem_cons.1 h with rfl | h
        · exact .inr List.mem_cons_self
        · exact (ih h).imp_right (List.mem_cons_of_mem _)

theorem insert_ordered (d : Deadline) (h : l.Pairwise before) : (insert d l).Pairwise before := by
  induction l with
  | nil => exact List.pairwise_singleton before d
  | cons e rest ih =>
    obtain ⟨he, hr⟩ := List.pairwise_cons.1 h
    unfold insert
    split
    · rename_i hde
      refine List.pairwise_cons.2 ⟨fun x hx => ?_, h⟩
      rcases List.mem_cons.1 hx with rfl | hx
      · exact hde
      · exact before_trans hde (he x hx)
    · split
      · rename_i hk
        exact List.pairwise_cons.2 ⟨fun x hx => before_of_sameKey hk (he x hx), hr⟩
      · rename_i hde hk
        refine List.pairwise_cons.2 ⟨fun x hx => ?_, ih hr⟩
        rcases eq_or_mem_of_mem_insert hx with rfl | hx
        · exact before_of_not_before hde hk
        · exact he x hx

theorem filter_insert_of_ne {id : WriteId} (hd : d.id ≠ id) (l : List Deadline) :
    (insert d l).filter (·.id == id) = l.filter (·.id == id) := by
  have hd' : (d.id == id) = false := by simpa using hd
  induction l with
  | nil => simp [insert, hd']
  | cons e rest ih =>
    unfold insert
    split
    · rw [List.filter_cons_of_neg (by simpa using hd)]
    · split
      · rename_i hk
        have he : ¬ e.id = id := hk.2 ▸ hd
        simp [hd', he]
      · rw [List.filter_cons, List.filter_cons, ih]

theorem filter_insert_of_nil {l : List Deadline} (h : l.filter (·.id == d.id) = []) :
    (insert d l).filter (·.id == d.id) = [d] := by
  induction l with
  | nil => simp [insert]
  | cons e rest ih =>
    have hall := List.filter_eq_nil_iff.1 h
    have he : ¬ e.id = d.id := by simpa using hall e List.mem_cons_self
    have hrest : rest.filter (·.id == d.id) = [] :=
      List.filter_eq_nil_iff.2 fun x hx => hall x (List.mem_cons_of_mem _ hx)
    unfold insert
    split
    · rw [List.filter_cons_of_pos (by simp), h]
    · split
      · rw [List.filter_cons_of_pos (by simp), hrest]
      · rw [List.filter_cons_of_neg (by simpa using he), ih hrest]

theorem insert_of_before (h : ∀ x ∈ l, d.before x) : insert d l = d :: l := by
  cases l with
  | nil => rfl
  | cons e rest => exact if_pos (h e List.mem_cons_self)

/-- Among the deadlines of its write a deadline is put in the same place. -/
theorem filter_insert_of_eq {id : WriteId} (hd : d.id = id) (h : l.Pairwise before) :
    (insert d l).filter (·.id == id) = insert d (l.filter (·.id == id)) := by
  have hkeep : ∀ rest : List Deadline,
      (d :: rest).filter (·.id == id) = d :: rest.filter (·.id == id) :=
    fun rest => List.filter_cons_of_pos (by simpa using hd)
  induction l with
  | nil => exact hkeep []
  | cons e rest ih =>
    obtain ⟨he, hr⟩ := List.pairwise_cons.1 h
    by_cases hde : d.before e
    · have hall : ∀ x ∈ (e :: rest).filter (·.id == id), d.before x := by
        intro x hx
        rcases List.mem_cons.1 (List.mem_filter.1 hx).1 with rfl | hx
        · exact hde
        · exact before_trans hde (he x hx)
      rw [insert, if_pos hde, hkeep, insert_of_before hall]
    · by_cases hk : d.sameKey e
      · have heid : e.id = id := hk.2.symm.trans hd
        rw [insert, if_neg hde, if_pos hk, hkeep, List.filter_cons_of_pos (by simpa using heid),
          insert, if_neg hde, if_pos hk]
      · rw [insert, if_neg hde, if_neg hk]
        by_cases heid : e.id = id
        · rw [List.filter_cons_of_pos (by simpa using heid),
            List.filter_cons_of_pos (by simpa using heid), ih hr, insert, if_neg hde, if_neg hk]
        · rw [List.filter_cons_of_neg (by simpa using heid),
            List.filter_cons_of_neg (by simpa using heid), ih hr]

def insertAll (ds l : List Deadline) : List Deadline := ds.foldl (fun l d => insert d l) l

theorem filter_insertAll {id : WriteId} (ds : List Deadline) (h : l.Pairwise before) :
    (insertAll ds l).filter (·.id == id) =
      insertAll (ds.filter (·.id == id)) (l.filter (·.id == id)) := by
  induction ds generalizing l with
  | nil => rfl
  | cons d ds ih =>
    have hrest := ih (insert_ordered d h)
    by_cases hd : d.id = id
    · rw [List.filter_cons_of_pos (by simpa using hd)]
      rwa [filter_insert_of_eq hd h] at hrest
    · rw [List.filter_cons_of_neg (by simpa using hd)]
      rwa [filter_insert_of_ne hd] at hrest

/-! ## Deadlines that have passed -/

/-- In ordered deadlines the passed ones stand first. -/
theorem takeWhile_eq_filter (h : l.Pairwise before) (now : Instant) :
    l.takeWhile (·.due ≤ now) = l.filter (·.due ≤ now) := by
  induction l with
  | nil => rfl
  | cons e rest ih =>
    obtain ⟨he, hr⟩ := List.pairwise_cons.1 h
    by_cases hn : e.due ≤ now
    · rw [List.takeWhile_cons_of_pos (by simpa using hn),
        List.filter_cons_of_pos (by simpa using hn), ih hr]
    · rw [List.takeWhile_cons_of_neg (by simpa using hn),
        List.filter_cons_of_neg (by simpa using hn), eq_comm, List.filter_eq_nil_iff]
      intro x hx
      simpa using Nat.lt_of_lt_of_le (Nat.lt_of_not_le hn) (due_le_of_before (he x hx))

theorem dropWhile_eq_filter (h : l.Pairwise before) (now : Instant) :
    l.dropWhile (·.due ≤ now) = l.filter (now < ·.due) := by
  induction l with
  | nil => rfl
  | cons e rest ih =>
    obtain ⟨he, hr⟩ := List.pairwise_cons.1 h
    by_cases hn : e.due ≤ now
    · rw [List.dropWhile_cons_of_pos (by simpa using hn),
        List.filter_cons_of_neg (by simpa using hn), ih hr]
    · rw [List.dropWhile_cons_of_neg (by simpa using hn), eq_comm, List.filter_eq_self]
      intro x hx
      rcases List.mem_cons.1 hx with rfl | hx
      · simpa using hn
      · simpa using Nat.lt_of_lt_of_le (Nat.lt_of_not_le hn) (due_le_of_before (he x hx))

end Deadline

namespace Sweeper

open Deadline (insert_ordered takeWhile_eq_filter dropWhile_eq_filter due_le_of_before)

/-! ## The alarm -/

/-- The deadlines stand in order, and the alarm, with the sleep beneath it, is set to the first. -/
structure Armed (s : Sweeper) : Prop where
  ordered : s.deadlines.Pairwise Deadline.before
  armed_eq : s.alarm.armed = s.deadlines.head?.map (·.due)
  sleep_eq : ∀ i, s.alarm.armed = some i → s.alarm.sleepUntil = i

variable {s : Sweeper}

theorem Armed.new : Sweeper.new.Armed :=
  ⟨.nil, rfl, fun i hi => by cases hi⟩

theorem Armed.add (h : s.Armed) (d : Deadline) : (s.add d).Armed := by
  refine ⟨insert_ordered d h.ordered, ?_, ?_⟩
  · have ha := h.armed_eq
    unfold Sweeper.add
    cases hl : s.deadlines with
    | nil =>
      rw [hl] at ha
      simp [ha, Alarm.setTo, Deadline.insert]
    | cons e rest =>
      rw [hl] at ha
      simp only [List.head?_cons, Option.map_some] at ha
      simp only [ha, Option.all_some, decide_eq_true_eq]
      -- the alarm is kept just if the deadline is not earlier than the first one
      by_cases hlt : d.due < e.due
      · have hb : d.before e := .inl hlt
        simp [hlt, Alarm.setTo, Deadline.insert, hb]
      · rw [if_neg hlt, ha, Deadline.insert]
        split
        · rename_i hb
          have heq : d.due = e.due := Nat.le_antisymm (due_le_of_before hb) (Nat.le_of_not_lt hlt)
          simp [heq]
        · split
          · rename_i hk
            simp [hk.1]
          · rfl
  · unfold Sweeper.add
    intro i hi
    dsimp only at hi ⊢
    split at hi
    · rename_i hset
      cases hi
      rw [if_pos hset]
      rfl
    · rename_i hkeep
      rw [if_neg hkeep]
      exact h.sleep_eq i hi

theorem Armed.expire (h : s.Armed) (now : Instant) : (s.expire now).2.Armed := by
  have hr : (s.deadlines.dropWhile (·.due ≤ now)).Pairwise Deadline.before :=
    h.ordered.sublist (List.dropWhile_sublist _)
  unfold Sweeper.expire
  dsimp only
  generalize s.deadlines.dropWhile (·.due ≤ now) = rest at hr
  cases rest with
  | nil => exact ⟨hr, rfl, fun i hi => by cases hi⟩
  | cons d rest => exact ⟨hr, rfl, fun i hi => by cases hi; rfl⟩

theorem Armed.goesOff_iff (h : s.Armed) (now : Instant) :
    s.alarm.goesOff now = true ↔ ∃ d ∈ s.deadlines, d.due ≤ now := by
  have ha := h.armed_eq
  cases hl : s.deadlines with
  | nil =>
    rw [hl] at ha
    simp [Alarm.goesOff, ha]
  | cons e rest =>
    rw [hl] at ha
    have hs := h.sleep_eq e.due ha
    have hord := h.ordered
    rw [hl] at hord
    simp only [List.head?_cons, Option.map_some] at ha
    simp only [Alarm.goesOff, ha, hs, Option.isSome_some, Bool.true_and, decide_eq_true_eq]
    constructor
    · intro hn
      exact ⟨e, List.mem_cons_self, hn⟩
    · intro hx
      obtain ⟨d, hd, hn⟩ := hx
      rcases List.mem_cons.1 hd with rfl | hd
      · exact hn
      · exact Nat.le_trans (due_le_of_before ((List.pairwise_cons.1 hord).1 d hd)) hn

theorem cancel_armed_expire (s : Sweeper) (now : Instant) :
    { s with alarm := s.alarm.cancel }.expire now = s.expire now := by
  unfold Sweeper.expire
  rfl

/-- The alarm's turn takes out just the deadlines that have passed. -/
theorem Armed.fire?_eq (h : s.Armed) (now : Instant) :
    ((s.fire? now).getD ([], s)).1 = s.deadlines.filter (·.due ≤ now) ∧
      ((s.fire? now).getD ([], s)).2.deadlines = s.deadlines.filter (now < ·.due) := by
  unfold Sweeper.fire?
  split
  · rw [cancel_armed_expire]
    exact ⟨takeWhile_eq_filter h.ordered now, dropWhile_eq_filter h.ordered now⟩
  · rename_i hoff
    rw [h.goesOff_iff] at hoff
    have hlate : ∀ d ∈ s.deadlines, now < d.due :=
      fun d hd => Nat.lt_of_not_le fun hn => hoff ⟨d, hd, hn⟩
    constructor
    · rw [Option.getD_none, eq_comm, List.filter_eq_nil_iff]
      intro d hd
      simpa using hlate d hd
    · rw [Option.getD_none, eq_comm, List.filter_eq_self]
      intro d hd
      simpa using hlate d hd

theorem Armed.fire? (h : s.Armed) (now : Instant) : ((s.fire? now).getD ([], s)).2.Armed := by
  unfold Sweeper.fire?
  split
  · rw [cancel_armed_expire]
    exact h.expire now
  · exact h

end Sweeper
end BackupAcks
