import BackupAcks.Proofs.Write.Rulings

/-!
# A write to several segments and its parts

A write to several segments is set beside one write for each of its segments. Whatever comes in goes
to all of them, but a confirmation for one segment only to the part of that segment
(`Signal.concerns`). While the whole waits, its part in a segment waits for the same owners at the
same epoch, or has succeeded, if nobody is left there (`part`). Events that take owners off do so in
the whole and in the parts alike; a failure of the whole is the failure of some part, and of every
part that fails by the same event.

Results:
* `find?_filterMap`: looking a segment up after entries were dropped and changed;
* `matches_kept`, `matches_retain`, `matches_failed`: what the kinds of events mean for both;
* `Matches.feed`: one event keeps the whole and the parts in step.
-/
namespace BackupAcks

namespace SegmentMap

variable {α β : Type} {m : SegmentMap α} {s : SegmentId}

theorem find?_filterMap (f : SegmentId → α → Option β) :
    (m.filterMap f).find? s = (m.find? s).bind (f s) := by
  refine Option.ext fun b => ?_
  rw [find?_eq_some_iff, mem_filterMap, Option.bind_eq_some_iff]
  simp only [find?_eq_some_iff]

theorem mem_segments_iff : s ∈ m.segments ↔ ∃ a, m.find? s = some a := by
  simp [segments, find?_eq_some_iff]

theorem find?_of_isEmpty (h : m.isEmpty = true) : m.find? s = none := by
  rw [find?, List.isEmpty_iff.1 h]
  rfl

theorem exists_find?_of_not_isEmpty (h : m.isEmpty = false) : ∃ s a, m.find? s = some a := by
  cases hm : m.entries with
  | nil => simp [isEmpty, hm] at h
  | cons e rest => exact ⟨e.1, e.2, find?_eq_some_iff.2 (by rw [hm]; exact List.mem_cons_self)⟩

end SegmentMap

/-- What can come to a write that waits. -/
inductive Signal where
  | ack (sender : NodeId) (epoch : Epoch)
  | segmentAck (sender : NodeId) (epoch : Epoch) (segment : SegmentId)
  | error (sender : NodeId) (epoch : Epoch) (cause : String)
  | adopt (v : Ownership)
  | restrict (members : NodeSet)
  deriving DecidableEq

namespace Signal

/-- What the event means for a write. -/
def ruling (home : NodeId) : Signal → PendingWrite → Ruling
  | .ack sender epoch, w => w.ack sender epoch none
  | .segmentAck sender epoch segment, w => w.ack sender epoch (some segment)
  | .error sender epoch cause, w => w.error sender epoch cause
  | .adopt v, w => w.adopt home v
  | .restrict members, w => w.dropDeparted members

/-- Whether the event is passed on to the part in `s`. -/
def concerns (s : SegmentId) : Signal → Bool
  | .segmentAck _ _ segment => segment == s
  | _ => true

end Signal

/-- How a write is getting on. -/
inductive Progress where
  | waiting (w : PendingWrite)
  | ended (o : Outcome)
  deriving DecidableEq

/-- How the write `w` gets on by the ruling. -/
def Ruling.progress (w : PendingWrite) : Ruling → Progress
  | .stale _ => .waiting w
  | .waiting w' => .waiting w'
  | .settled o => .ended o

namespace Progress

def feed (home : NodeId) (σ : Signal) : Progress → Progress
  | .waiting w => (σ.ruling home w).progress w
  | .ended o => .ended o

def feedPart (home : NodeId) (σ : Signal) (s : SegmentId) (p : Progress) : Progress :=
  if σ.concerns s then p.feed home σ else p

variable {home : NodeId} {σ : Signal} {s : SegmentId} {o : Outcome}

theorem feedPart_ended : (ended o).feedPart home σ s = .ended o := ite_self _

end Progress

namespace PendingWrite

open Requirement (nonEmpty?)

variable {w x : PendingWrite} {home : NodeId} {σ : Signal} {s : SegmentId} {f : Failure}
  {m : SegmentMap NodeSet} {ns : NodeSet}

theorem conclude_progress :
    w.conclude.progress x = if w.requirement.isSatisfied then .ended .success else .waiting w := by
  unfold conclude
  split <;> rfl

/-- The write as far as it concerns the segment `s` with the owners `ns`. -/
def narrow (w : PendingWrite) (s : SegmentId) (ns : NodeSet) : PendingWrite :=
  { w with requirement := .single s ns }

/-- How the part in `s` of a write is getting on that waits for the owners `m`. -/
def part (w : PendingWrite) (m : SegmentMap NodeSet) (s : SegmentId) : Progress :=
  match m.find? s with
  | some ns => .waiting (w.narrow s ns)
  | none => .ended .success

theorem part_ne_failure : w.part m s ≠ .ended (.failure f) := by
  unfold part
  split <;> simp

/-- The parts stand beside the whole as they should. -/
def Matches (part : SegmentId → Progress) : Progress → Prop
  | .waiting w => w.requirement.Live ∧
      ∃ m, w.requirement = .segmented m ∧ ∀ s, part s = w.part m s
  | .ended .success => ∀ s, part s = .ended .success
  | .ended (.failure f) => (∃ s, part s = .ended (.failure f)) ∧
      ∀ s f', part s = .ended (.failure f') → f' = f

theorem part_of_find? (h : m.find? s = some ns) : w.part m s = .waiting (w.narrow s ns) := by
  rw [part, h]

theorem part_of_none (h : m.find? s = none) : w.part m s = .ended .success := by
  rw [part, h]

/-- A write that ends if nobody is left, beside its parts. -/
theorem matches_conclude (hd : w.requirement.Dense) (hm : w.requirement = .segmented m)
    {part : SegmentId → Progress} (hpart : ∀ s, part s = w.part m s) :
    Matches part (w.conclude.progress x) := by
  rw [conclude_progress]
  cases hs : w.requirement.isSatisfied with
  | true =>
    rw [if_pos rfl]
    intro s
    rw [hm] at hs
    rw [hpart, part_of_none (SegmentMap.find?_of_isEmpty hs)]
  | false =>
    rw [if_neg (by simp)]
    exact ⟨⟨hd, hs⟩, m, hm, hpart⟩

/-- The part in `s` when the event has come in. -/
def fed (w : PendingWrite) (m : SegmentMap NodeSet) (home : NodeId) (σ : Signal) (s : SegmentId) :
    Progress :=
  (w.part m s).feedPart home σ s

theorem fed_of_find? (h : m.find? s = some ns) :
    w.fed m home σ s = (Progress.waiting (w.narrow s ns)).feedPart home σ s := by
  rw [fed, part_of_find? h]

theorem fed_of_none (h : m.find? s = none) : w.fed m home σ s = .ended .success := by
  rw [fed, part_of_none h, Progress.feedPart_ended]

theorem exists_find?_of_live (hl : w.requirement.Live) (hm : w.requirement = .segmented m) :
    ∃ s ns, m.find? s = some ns := by
  have hs := hl.unsatisfied
  rw [hm] at hs
  exact SegmentMap.exists_find?_of_not_isEmpty hs

/-! ## Kinds of events -/

/-- An event that changes neither the whole nor the parts. -/
theorem matches_kept (hl : w.requirement.Live) (hm : w.requirement = .segmented m)
    (hkept : ∀ s ns, m.find? s = some ns →
      (Progress.waiting (w.narrow s ns)).feedPart home σ s = .waiting (w.narrow s ns)) :
    Matches (w.fed m home σ) (.waiting w) := by
  refine ⟨hl, m, hm, fun s => ?_⟩
  cases hf : m.find? s with
  | none => rw [fed_of_none hf, part_of_none hf]
  | some ns => rw [fed_of_find? hf, hkept s ns hf, part_of_find? hf]

/-- An event that takes owners off the whole and the same ones off the parts. -/
theorem matches_retain (hm : w.requirement = .segmented m) (keep : SegmentId → NodeId → Bool)
    (epoch : Epoch) (hpart : ∀ s ns, m.find? s = some ns →
      (Progress.waiting (w.narrow s ns)).feedPart home σ s =
        ({ w.narrow s (ns.filter (keep s)) with epoch := epoch } : PendingWrite).conclude.progress
          w) :
    Matches (w.fed m home σ)
      (({ w with epoch := epoch, requirement := w.requirement.retain keep } :
        PendingWrite).conclude.progress w) := by
  refine matches_conclude (m := m.filterMap fun s ns => nonEmpty? (ns.filter (keep s)))
    (Requirement.retain_dense keep w.requirement) (by rw [hm]; rfl) fun s => ?_
  rw [part, SegmentMap.find?_filterMap]
  cases hf : m.find? s with
  | none => rw [fed_of_none hf, Option.bind_none]
  | some ns =>
    rw [fed_of_find? hf, hpart s ns hf, conclude_progress, Option.bind_some, nonEmpty?]
    change (if (ns.filter (keep s)).isEmpty then _ else _) = _
    split <;> rfl

/-- An event that fails the whole and goes to all parts, if it fails one of them and none in another
way. -/
theorem matches_failed (hconcerns : ∀ s, σ.concerns s = true)
    (hfails : ∃ s ns, m.find? s = some ns ∧
      (σ.ruling home (w.narrow s ns)).outcome? = some (.failure f))
    (honly : ∀ s ns f', (σ.ruling home (w.narrow s ns)).outcome? = some (.failure f') → f' = f) :
    Matches (w.fed m home σ) (.ended (.failure f)) := by
  have hended : ∀ s ns f', (Progress.waiting (w.narrow s ns)).feedPart home σ s =
      .ended (.failure f') ↔
        (σ.ruling home (w.narrow s ns)).outcome? = some (.failure f') := by
    intro s ns f'
    rw [Progress.feedPart, if_pos (hconcerns s), Progress.feed]
    cases σ.ruling home (w.narrow s ns) <;> simp [Ruling.progress, Ruling.outcome?]
  refine ⟨?_, fun s f' h => ?_⟩
  · obtain ⟨s, ns, hf, ho⟩ := hfails
    exact ⟨s, (fed_of_find? hf).trans ((hended s ns f).2 ho)⟩
  · cases hf : m.find? s with
    | none =>
      rw [fed_of_none hf] at h
      cases h
    | some ns =>
      rw [fed_of_find? hf] at h
      exact honly s ns f' ((hended s ns f').1 h)

/-! ## Each event -/

theorem matches_ack (hl : w.requirement.Live) (hm : w.requirement = .segmented m) {n : NodeId}
    {t : Epoch} {scope : Option SegmentId} (hσ : ∀ x, σ.ruling home x = x.ack n t scope)
    (hconcerns : ∀ s, σ.concerns s = Requirement.covers scope s) :
    Matches (w.fed m home σ) ((w.ack n t scope).progress w) := by
  by_cases ht : t < w.epoch
  · rw [ack_stale ht]
    refine matches_kept hl hm fun s ns _ => ?_
    rw [Progress.feedPart, Progress.feed, hσ, ack_stale (w := w.narrow s ns) ht]
    exact ite_self _
  · have hwhole : w.ack n t scope = conclude { w with
        requirement :=
          w.requirement.retain fun s k => !(Requirement.covers scope s && k == n) } := by
      rw [ack, if_neg ht, hm]
      rfl
    rw [hwhole]
    refine matches_retain hm _ w.epoch fun s ns hf => ?_
    rw [Progress.feedPart, hconcerns]
    cases hc : Requirement.covers scope s with
    | true =>
      have herase : ns.erase n = ns.filter fun k => !(true && k == n) :=
        congrArg ns.filter (by funext k; rw [Bool.true_and]; rfl)
      rw [if_pos rfl, Progress.feed, hσ, ack, if_neg (show ¬ t < (w.narrow s ns).epoch from ht),
        ← herase, conclude_progress, conclude_progress]
      rfl
    | false =>
      -- the confirmation is for another segment
      have hkeep : (ns.filter fun k => !(false && k == n)) = ns := by
        ext k
        rw [NodeSet.mem_filter, Bool.false_and]
        simp
      have hne : ns.isEmpty = false := by
        have hd := hl.dense
        rw [hm] at hd
        exact hd _ (SegmentMap.find?_eq_some_iff.1 hf)
      rw [hkeep, conclude_progress]
      change Progress.waiting (w.narrow s ns) = if ns.isEmpty then _ else _
      rw [hne]
      rfl

theorem matches_error (hl : w.requirement.Live) (hm : w.requirement = .segmented m) (n : NodeId)
    (t : Epoch) (cause : String) :
    Matches (w.fed m home (.error n t cause))
      ((w.error n t cause).progress w) := by
  by_cases ht : t < w.epoch
  · rw [error_stale ht]
    refine matches_kept hl hm fun s ns _ => ?_
    rw [Progress.feedPart, Progress.feed, Signal.ruling, error_stale (w := w.narrow s ns) ht]
    exact ite_self _
  · have hcur := UInt32.not_lt.1 ht
    rw [error_current hcur]
    obtain ⟨s, ns, hf⟩ := exists_find?_of_live hl hm
    exact matches_failed (fun _ => rfl) ⟨s, ns, hf, error_failure_iff.2 ⟨hcur, rfl⟩⟩
      fun s ns f' ho => (error_failure_iff.1 ho).2

theorem matches_restrict (hm : w.requirement = .segmented m) (members : NodeSet) :
    Matches (w.fed m home (.restrict members))
      ((w.dropDeparted members).progress w) := by
  refine matches_retain hm (fun _ n => decide (n ∈ members)) w.epoch fun s ns _ => ?_
  rw [Progress.feedPart, if_pos (show Signal.concerns s (.restrict members) = true from rfl),
    Progress.feed, Signal.ruling, dropDeparted, conclude_progress, conclude_progress]
  rfl

/-- What a newer assignment means for a part: it is lost with its segment. -/
theorem adopt_narrow {v : Ownership} (h : w.epoch < v.epoch) (s : SegmentId) (ns : NodeSet) :
    (w.narrow s ns).adopt home v =
      if v.primary? s != some home then .settled (.failure (.topologyChanged v.epoch))
      else conclude { w.narrow s (ns.filter (v.isOwner s)) with epoch := v.epoch } := by
  rw [adopt, if_neg (show ¬ v.epoch ≤ (w.narrow s ns).epoch from UInt32.not_le.2 h)]
  simp only [narrow, Requirement.segments, List.any_cons, List.any_nil, Bool.or_false,
    Requirement.retain]

theorem matches_adopt (hl : w.requirement.Live) (hm : w.requirement = .segmented m)
    (v : Ownership) : Matches (w.fed m home (.adopt v)) ((w.adopt home v).progress w) := by
  by_cases hold : v.epoch ≤ w.epoch
  · rw [adopt_old hold]
    refine matches_kept hl hm fun s ns _ => ?_
    rw [Progress.feedPart, Progress.feed, Signal.ruling, adopt_old (w := w.narrow s ns) hold]
    exact ite_self _
  · have hlt := UInt32.not_le.1 hold
    have hsegments : w.requirement.segments = m.segments := by rw [hm]; rfl
    by_cases hlost : ∃ s ∈ m.segments, (v.primary? s != some home) = true
    · have hwhole : w.adopt home v = .settled (.failure (.topologyChanged v.epoch)) := by
        rw [adopt, if_neg hold, hsegments, if_pos (List.any_eq_true.2 hlost)]
      rw [hwhole]
      refine matches_failed (fun _ => rfl) ?_ fun s ns f' ho => ?_
      · obtain ⟨s, hs, hp⟩ := hlost
        obtain ⟨ns, hf⟩ := SegmentMap.mem_segments_iff.1 hs
        refine ⟨s, ns, hf, ?_⟩
        rw [Signal.ruling, adopt_narrow hlt, if_pos hp]
        rfl
      · rw [Signal.ruling, adopt_narrow hlt] at ho
        split at ho
        · cases ho
          rfl
        · exact absurd ho conclude_not_failure
    · have hwhole : w.adopt home v = conclude { w with
          epoch := v.epoch, requirement := w.requirement.retain v.isOwner } := by
        rw [adopt, if_neg hold, hsegments, if_neg (mt List.any_eq_true.1 hlost)]
      rw [hwhole]
      refine matches_retain hm v.isOwner v.epoch fun s ns hf => ?_
      have hs : s ∈ m.segments := SegmentMap.mem_segments_iff.2 ⟨ns, hf⟩
      rw [Progress.feedPart, if_pos (show Signal.concerns s (.adopt v) = true from rfl),
        Progress.feed, Signal.ruling, adopt_narrow hlt, if_neg fun hp => hlost ⟨s, hs, hp⟩,
        conclude_progress, conclude_progress]

/-- **One event keeps the whole and the parts in step.** -/
theorem Matches.feed {part : SegmentId → Progress} (h : Matches part (.waiting w)) (home : NodeId)
    (σ : Signal) :
    Matches (fun s => (part s).feedPart home σ s) ((Progress.waiting w).feed home σ) := by
  obtain ⟨hl, m, hm, hpart⟩ := h
  simp only [hpart]
  cases σ with
  | ack n t => exact matches_ack hl hm (fun _ => rfl) fun _ => rfl
  | segmentAck n t s => exact matches_ack hl hm (fun _ => rfl) fun _ => rfl
  | error n t cause => exact matches_error hl hm n t cause
  | adopt v => exact matches_adopt hl hm v
  | restrict members => exact matches_restrict hm members

end PendingWrite
end BackupAcks
