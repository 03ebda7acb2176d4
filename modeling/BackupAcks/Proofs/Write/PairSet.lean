import BackupAcks.Proofs.Write.Narrowing
import Mathlib.Data.Finset.Card
import Mathlib.Data.Finset.Filter

/-!
# A requirement keeps a set of pairs

Both shapes of a requirement stand for the finite set of their (segment, owner) pairs. On a
requirement that keeps no segment without owners, a confirmation takes pairs off that set and says
whether there were any, a new assignment and a change of membership keep the pairs that pass their
test, and "nobody left" means that the set is empty. None of them leaves a segment without owners,
so all this goes on to hold, whatever is done.

A confirmation is one pass over the segments, or touches the one segment that it names
(`takeOff`, `takeOffAt`).

Results:
* `remove_all_eq`, `remove_one_eq`: a confirmation as a pass, and as a change of one segment;
* `pairSet_retain`, `pairSet_remove`: what is left of the set;
* `pairSet_run`: what is left after any changes;
* `requirement_keepsPairs`: the set and the requirement agree in everything that is asked.
-/
namespace BackupAcks

namespace Requirement

variable {r : Requirement} {m : SegmentMap NodeSet} {ns : NodeSet} {s : SegmentId} {n : NodeId}
  {scope : Option SegmentId} {keep : SegmentId → NodeId → Bool} {q : Pair}

/-! ## The set -/

def pairSet (r : Requirement) : Finset Pair := r.pairs.toFinset

@[simp] theorem mem_pairSet : q ∈ r.pairSet ↔ q ∈ r.pairs := List.mem_toFinset

theorem outstanding_eq_card : r.outstanding = r.pairSet.card := by
  rw [outstanding_eq_length, pairSet, List.toFinset_card_of_nodup r.nodup_pairs]

theorem pairSet_eq_empty_iff : r.pairSet = ∅ ↔ ∀ q, q ∉ r.pairs := by
  simp only [Finset.eq_empty_iff_forall_notMem, mem_pairSet]

theorem isSatisfied_iff_pairSet (hd : r.Dense) : r.isSatisfied = true ↔ r.pairSet = ∅ := by
  rw [isSatisfied_iff hd, pairSet_eq_empty_iff]

theorem pairSet_retain : (r.retain keep).pairSet = r.pairSet.filter fun q => keep q.1 q.2 := by
  ext q
  rw [Finset.mem_filter, mem_pairSet, mem_pairSet]
  exact mem_pairs_retain

theorem pairSet_remove : (r.remove n scope).2.pairSet =
    r.pairSet.filter fun q => r.spares n scope q.1 q.2 := by
  rw [remove_eq_retain, pairSet_retain]

/-! ## Confirmations, segment by segment -/

/-- One pass over the segments: `n` is taken off the owners of each, and noted if it was there; a
segment where nobody is left is forgotten. -/
def takeOff (n : NodeId) : (found : Bool) → List (SegmentId × NodeSet) →
    Bool × List (SegmentId × NodeSet)
  | found, [] => (found, [])
  | found, (s, ns) :: rest =>
    let later := takeOff n (found || decide (n ∈ ns)) rest
    match nonEmpty? (ns.erase n) with
    | none => later
    | some left => (later.1, (s, left) :: later.2)

/-- Takes `n` off the owners of the one segment, and says whether it was there. All other segments
are left alone. -/
def takeOffAt (n : NodeId) (s : SegmentId) (m : SegmentMap NodeSet) : Bool × SegmentMap NodeSet :=
  match m.find? s with
  | none => (false, m)
  | some ns =>
    (decide (n ∈ ns), m.filterMap fun t ks => if t = s then nonEmpty? (ns.erase n) else some ks)

theorem takeOff_eq (n : NodeId) (found : Bool) (entries : List (SegmentId × NodeSet)) :
    takeOff n found entries = (found || entries.any fun e => decide (n ∈ e.2),
      entries.filterMap fun e => (nonEmpty? (e.2.erase n)).map fun left => (e.1, left)) := by
  induction entries generalizing found with
  | nil => rw [takeOff, List.any_nil, Bool.or_false, List.filterMap_nil]
  | cons e rest ih =>
    obtain ⟨s, ns⟩ := e
    rw [takeOff, ih, List.any_cons, List.filterMap_cons, Bool.or_assoc]
    cases nonEmpty? (ns.erase n) <;> rfl

/-- A confirmation for all segments is one pass over them. -/
theorem remove_all_eq (n : NodeId) (m : SegmentMap NodeSet) :
    ∃ left, (segmented m).remove n none = ((takeOff n false m.entries).1, .segmented left) ∧
      left.entries = (takeOff n false m.entries).2 := by
  rw [takeOff_eq]
  exact ⟨_, rfl, rfl⟩

/-- A confirmation for one segment changes that segment. -/
theorem remove_one_eq (hd : (segmented m).Dense) (n : NodeId) (s : SegmentId) :
    (segmented m).remove n (some s) = ((takeOffAt n s m).1, .segmented (takeOffAt n s m).2) := by
  unfold takeOffAt
  cases hfind : m.find? s with
  | none =>
    have hother : ∀ e ∈ m.entries, e.1 ≠ s := fun e he heq => by
      rw [SegmentMap.find?_eq_some_iff.2 (heq ▸ he : (s, e.2) ∈ m.entries)] at hfind
      cases hfind
    refine Prod.ext ?_ (retain_eq_self hd fun q hq => ?_)
    · refine List.any_eq_false.2 fun e he => ?_
      simp [covers, (hother e he).symm]
    · obtain ⟨ns, he, -⟩ := mem_pairs_segmented.1 hq
      simp [covers, (hother _ he).symm]
  | some ns =>
    have hmem := SegmentMap.find?_eq_some_iff.1 hfind
    have hsame : ∀ e ∈ m.entries, e.1 = s → e.2 = ns := fun e he heq => by
      have he' := SegmentMap.find?_eq_some_iff.2 (heq ▸ he : (s, e.2) ∈ m.entries)
      exact Option.some.inj (he'.symm.trans hfind)
    dsimp only
    refine Prod.ext ?_ (congrArg segmented (SegmentMap.filterMap_congr fun e he => ?_))
    · rw [Bool.eq_iff_iff]
      simp only [remove, List.any_eq_true, Bool.and_eq_true, decide_eq_true_eq, covers,
        Option.all_some, beq_iff_eq]
      constructor
      · rintro ⟨e, he, heq, hn⟩
        exact hsame e he heq.symm ▸ hn
      · exact fun hn => ⟨(s, ns), hmem, rfl, hn⟩
    · by_cases heq : e.1 = s
      · rw [if_pos heq, hsame e he heq, heq]
        simp [covers, NodeSet.erase, bne]
      · rw [if_neg heq, NodeSet.filter_eq_self]
        · exact nonEmpty?_eq_some_iff.2 ⟨rfl, hd e he⟩
        · simp [covers, Ne.symm heq]

theorem remove_fst_iff : (r.remove n scope).1 = true ↔ (r.remove n scope).2.pairSet ≠ r.pairSet := by
  rw [pairSet_remove, Ne, Finset.filter_eq_self]
  cases r with
  | single s ns => simp [remove, spares, mem_pairs_single]
  | segmented m => simp [remove, spares, mem_pairs_segmented, and_comm, and_left_comm]

/-! ## One change after the other -/

/-- What can be done to a requirement. -/
inductive Change where
  /-- A node confirms, for one segment or for all. -/
  | confirm (n : NodeId) (scope : Option SegmentId)
  /-- The owners under a new assignment are kept. -/
  | adopt (v : Ownership)
  /-- The members of the cluster are kept. -/
  | restrict (members : NodeSet)

def isSingle : Requirement → Bool
  | .single _ _ => true
  | .segmented _ => false

/-- Whether a pair stays. For a write to one segment every confirmation is one for all. -/
def Change.keeps (single : Bool) : Change → Pair → Bool
  | .confirm n none, q => q.2 != n
  | .confirm n (some s), q => if single then q.2 != n else q != (s, n)
  | .adopt v, q => v.isOwner q.1 q.2
  | .restrict members, q => decide (q.2 ∈ members)

/-- The requirement after a change. -/
def after (r : Requirement) : Change → Requirement
  | .confirm n scope => (r.remove n scope).2
  | .adopt v => r.retain v.isOwner
  | .restrict members => r.retain fun _ n => decide (n ∈ members)

def run (r : Requirement) (changes : List Change) : Requirement := changes.foldl after r

theorem after_dense (c : Change) : (r.after c).Dense := by
  cases c with
  | confirm n scope => exact remove_dense n scope
  | adopt v => exact retain_dense _ r
  | restrict members => exact retain_dense _ r

theorem isSingle_after (c : Change) : (r.after c).isSingle = r.isSingle := by
  cases c <;> cases r <;> rfl

theorem pairSet_after (c : Change) :
    (r.after c).pairSet = r.pairSet.filter fun q => c.keeps r.isSingle q := by
  cases c with
  | confirm n scope =>
    rw [after, pairSet_remove]
    refine Finset.filter_congr fun q _ => ?_
    cases r with
    | single => cases scope <;> exact Iff.rfl
    | segmented m =>
      cases scope with
      | none => exact Iff.rfl
      | some t =>
        have hcomm : t = q.1 ↔ q.1 = t := eq_comm
        simp [spares, Change.keeps, isSingle, covers, Prod.ext_iff, hcomm, imp_iff_not_or]
  | adopt v => exact pairSet_retain
  | restrict members => exact pairSet_retain

/-- What is left are the pairs that every change keeps. -/
theorem pairSet_run (changes : List Change) : (r.run changes).pairSet =
    r.pairSet.filter fun q => changes.all fun c => c.keeps r.isSingle q := by
  induction changes generalizing r with
  | nil => simp [run]
  | cons c changes ih =>
    rw [run, List.foldl_cons]
    change ((r.after c).run changes).pairSet = _
    rw [ih, isSingle_after, pairSet_after, Finset.filter_filter]
    simp only [List.all_cons, Bool.and_eq_true]

theorem run_dense (hd : r.Dense) (changes : List Change) : (r.run changes).Dense := by
  induction changes generalizing r with
  | nil => exact hd
  | cons c changes ih => exact ih (after_dense c)

end Requirement

/-- The ruling leaves the write `w` with these pairs, at `epoch`; if there are none, the write has
succeeded. -/
def Ruling.LeftWith (left : Finset Pair) (epoch : Epoch) (w : PendingWrite) (x : Ruling) : Prop :=
  (left = ∅ ∧ x = .settled .success) ∨
    left ≠ ∅ ∧ ∃ r : Requirement, r.Dense ∧ r.pairSet = left ∧ x = .waiting ⟨w.id, epoch, r⟩

namespace PendingWrite

variable {w : PendingWrite} {home : NodeId} {v : Ownership} {members : NodeSet}

theorem conclude_leftWith (hd : w.requirement.Dense) :
    w.conclude.LeftWith w.requirement.pairSet w.epoch w := by
  cases hs : w.requirement.isSatisfied with
  | true => exact .inl ⟨(Requirement.isSatisfied_iff_pairSet hd).1 hs, conclude_of_satisfied hs⟩
  | false =>
    refine .inr ⟨fun hempty => ?_, w.requirement, hd, rfl, conclude_of_unsatisfied hs⟩
    rw [(Requirement.isSatisfied_iff_pairSet hd).2 hempty] at hs
    cases hs

/-- A new assignment, unless it takes a segment away from the node itself, leaves the pairs whose
nodes own their segments. -/
theorem adopt_leftWith (h : w.epoch < v.epoch)
    (hhome : ∀ s ∈ w.requirement.segments, v.primary? s = some home) :
    (w.adopt home v).LeftWith (w.requirement.pairSet.filter fun q => v.isOwner q.1 q.2) v.epoch w := by
  have hkept : ¬ (w.requirement.segments.any fun s => v.primary? s != some home) = true := by
    simpa using hhome
  rw [adopt, if_neg (UInt32.not_le.2 h), if_neg hkept, ← Requirement.pairSet_retain]
  exact conclude_leftWith (w := ⟨w.id, v.epoch, w.requirement.retain v.isOwner⟩)
    (Requirement.retain_dense _ _)

theorem dropDeparted_leftWith :
    (w.dropDeparted members).LeftWith (w.requirement.pairSet.filter fun q => q.2 ∈ members) w.epoch
      w := by
  have hleft : (w.requirement.retain fun _ n => decide (n ∈ members)).pairSet =
      w.requirement.pairSet.filter fun q => q.2 ∈ members := by
    rw [Requirement.pairSet_retain]
    exact Finset.filter_congr fun q _ => decide_eq_true_iff
  rw [← hleft]
  exact conclude_leftWith
    (w := ⟨w.id, w.epoch, w.requirement.retain fun _ n => decide (n ∈ members)⟩)
    (Requirement.retain_dense _ _)

end PendingWrite

namespace Requirement

variable {r : Requirement}

/-- The requirement is kept as the set of its pairs. -/
structure KeepsPairs (r : Requirement) : Prop where
  outstanding : r.outstanding = r.pairSet.card
  satisfied : r.isSatisfied = true ↔ r.pairSet = ∅
  /-- In a write to several segments, a confirmation for one segment takes one pair off. It changes
  no other segment. -/
  confirmOne : ∀ m, r = .segmented m → ∀ n s,
    (r.remove n (some s)).2.pairSet = r.pairSet.erase (s, n) ∧
      r.remove n (some s) = ((takeOffAt n s m).1, .segmented (takeOffAt n s m).2)
  /-- One for all segments takes off all pairs of the node, in one pass. -/
  confirmAll : ∀ m, r = .segmented m → ∀ n,
    (r.remove n none).2.pairSet = r.pairSet.filter (fun q => q.2 ≠ n) ∧
      ∃ left, r.remove n none = ((takeOff n false m.entries).1, .segmented left) ∧
        left.entries = (takeOff n false m.entries).2
  /-- In a write to one segment, any confirmation takes the node off. -/
  confirmSingle : ∀ s ns, r = .single s ns → ∀ n scope,
    (r.remove n scope).2 = .single s (ns.erase n) ∧
      (r.remove n scope).2.pairSet = r.pairSet.erase (s, n)
  /-- A confirmation says whether the set changed, and leaves no segment without owners. -/
  confirmed : ∀ n scope, (r.remove n scope).2.Dense ∧
    ((r.remove n scope).1 = true ↔ (r.remove n scope).2.pairSet ≠ r.pairSet)
  /-- A new assignment and a change of membership keep the pairs that pass their test, and leave no
  segment without owners. -/
  retained : ∀ keep : SegmentId → NodeId → Bool, (r.retain keep).Dense ∧
    (r.retain keep).pairSet = r.pairSet.filter fun q => keep q.1 q.2
  adopted : ∀ (home : NodeId) (v : Ownership) (w : PendingWrite), w.requirement = r →
    w.epoch < v.epoch → (∀ s ∈ r.segments, v.primary? s = some home) →
      (w.adopt home v).LeftWith (r.pairSet.filter fun q => v.isOwner q.1 q.2) v.epoch w
  restricted : ∀ (members : NodeSet) (w : PendingWrite), w.requirement = r →
    (w.dropDeparted members).LeftWith (r.pairSet.filter fun q => q.2 ∈ members) w.epoch w
  /-- After any changes there is no segment without owners, and what is left of the set are the
  pairs that every change keeps. -/
  changed : ∀ changes : List Change, (r.run changes).Dense ∧
    (r.run changes).pairSet = r.pairSet.filter fun q => changes.all fun c => c.keeps r.isSingle q

theorem keepsPairs_of_dense (hd : r.Dense) : KeepsPairs r where
  outstanding := outstanding_eq_card
  satisfied := isSatisfied_iff_pairSet hd
  confirmOne := by
    rintro m rfl n s
    refine ⟨?_, remove_one_eq hd n s⟩
    have hafter := pairSet_after (r := .segmented m) (.confirm n (some s))
    rw [← Finset.filter_ne']
    exact hafter.trans (Finset.filter_congr fun q _ => by simp [Change.keeps, isSingle])
  confirmAll := by
    rintro m rfl n
    refine ⟨?_, remove_all_eq n m⟩
    have hafter := pairSet_after (r := .segmented m) (.confirm n none)
    exact hafter.trans (Finset.filter_congr fun q _ => by simp [Change.keeps])
  confirmSingle := by
    rintro s ns rfl n scope
    refine ⟨rfl, ?_⟩
    ext ⟨t, k⟩
    simp only [remove, mem_pairSet, mem_pairs_single, NodeSet.mem_erase, Finset.mem_erase, ne_eq,
      Prod.mk.injEq]
    tauto
  confirmed n scope := ⟨remove_dense n scope, remove_fst_iff⟩
  retained keep := ⟨retain_dense keep r, pairSet_retain⟩
  adopted := by
    rintro home v w rfl h hhome
    exact PendingWrite.adopt_leftWith h hhome
  restricted := by
    rintro members w rfl
    exact PendingWrite.dropDeparted_leftWith
  changed changes := ⟨run_dense hd changes, pairSet_run changes⟩

/-- **A requirement is a set of pairs.** What a write to several segments is registered with has no
segment without owners, and every pair that was asked for. And as long as a requirement of either
shape has no segment without owners, it is kept as the set of its pairs, whatever is done. -/
theorem requirement_keepsPairs :
    (∀ owners : SegmentMap NodeSet, (ofSegments owners).Dense ∧
      ∀ s n, (s, n) ∈ (ofSegments owners).pairSet ↔ ∃ ns, owners.find? s = some ns ∧ n ∈ ns) ∧
      ∀ r : Requirement, r.Dense → KeepsPairs r := by
  refine ⟨fun owners => ⟨ofSegments_dense owners, fun s n => ?_⟩, fun r => keepsPairs_of_dense⟩
  simp only [mem_pairSet, mem_pairs_ofSegments, SegmentMap.find?_eq_some_iff]

/-- Two segments, one of which has a single owner. -/
def twoSegments : Requirement :=
  ofSegments (.ofList [(1, .ofList [11, 12]), (2, .ofList [12]), (3, .ofList [])])

theorem requirement_keepsPairs_twoSegments :
    twoSegments.Dense ∧ KeepsPairs twoSegments ∧ twoSegments.pairSet = {(1, 11), (1, 12), (2, 12)} ∧
      (twoSegments.remove 12 (some 2)).2.pairSet = {(1, 11), (1, 12)} ∧
      (twoSegments.remove 12 none).2.pairSet = {(1, 11)} ∧
      (twoSegments.remove 12 none).1 = true ∧ (twoSegments.remove 13 none).1 = false := by
  have hdense : twoSegments.Dense := (requirement_keepsPairs.1 _).1
  exact ⟨hdense, requirement_keepsPairs.2 _ hdense, by decide, by decide, by decide, rfl, rfl⟩

end Requirement
end BackupAcks
