import BackupAcks.Proofs.Table.Agreement
import BackupAcks.Proofs.Table.Follows
import BackupAcks.Proofs.Write.Parts
import Mathlib.Algebra.BigOperators.Group.Finset.Basic
import Mathlib.Algebra.GroupWithZero.Nat
import Mathlib.Data.List.Induction

/-!
# A write to several segments is the conjunction of its parts

One node creates a write to several segments (`whole`); for each of the segments another table keeps
a write to that segment alone (`part`). The events go to all of them, a confirmation for one segment
to the whole and to the part of that segment. The whole succeeds when all parts have; it fails with
the first parts that fail, and as they do; and while it waits, it waits for as many confirmations as
the parts together.

A table with one write is followed by the `Progress` of that write (`Shows`), and what one event
keeps in step (`Matches.feed`) stays so in every run, until the whole has failed.

Results:
* `shows_collect`: the table of one write shows how it gets on;
* `whole_success_iff`, `whole_failure_iff`: the whole succeeds as all parts do, and fails as the
  first of them;
* `outstanding_eq_sum`: while the whole waits, its count is the sum of theirs;
* `segmented_isConjunction`: all this, of the tables.
-/
namespace BackupAcks

open PendingWrite (Matches)

namespace WriteTable

/-- An event reaches the first write of the node. -/
def receive (home : NodeId) (σ : Signal) (t : WriteTable) : WriteTable :=
  match σ with
  | .ack sender epoch => (t.ack ⟨home, 0⟩ sender epoch).value.2
  | .segmentAck sender epoch segment => (t.segmentAck ⟨home, 0⟩ sender epoch segment).value.2
  | .error sender epoch cause => (t.error ⟨home, 0⟩ sender epoch cause).value.2
  | .adopt v => (t.sweep (·.adopt home v)).2
  | .restrict members => (t.restrict members).value.2

/-- The table of a node after it has created one write, and events have come in. -/
def collect (home : NodeId) (r : Requirement) (epoch : Epoch) (σs : List Signal) : WriteTable :=
  σs.foldl (fun t σ => t.receive home σ) ((new home 0).register r epoch).value.2

/-- The table shows how its first write is getting on. -/
def Shows (home : NodeId) (t : WriteTable) : Progress → Prop
  | .waiting w =>
    t.find? ⟨home, 0⟩ = some w ∧ t.handle? ⟨home, 0⟩ = some ⟨⟨home, 0⟩, none⟩
  | .ended o =>
    t.find? ⟨home, 0⟩ = none ∧ t.handle? ⟨home, 0⟩ = some ⟨⟨home, 0⟩, some o⟩

variable {home : NodeId} {t t' : WriteTable} {ρ : PendingWrite → Ruling} {p : Progress}
  {r : Requirement} {epoch : Epoch} {σs : List Signal}

/-! ## One write in a table -/

/-- A step that rules on the first write moves it on by the ruling. -/
theorem Shows.follows {w : PendingWrite} (h : Shows home t (.waiting w)) (hf : Follows ρ t t') :
    Shows home t' ((ρ w).progress w) := by
  obtain ⟨hw, hh⟩ := h
  have hfind := hf.find?_eq ⟨home, 0⟩
  have hhandle := hf.handle?_eq ⟨home, 0⟩
  rw [hw, Option.bind_some] at hfind hhandle
  rw [hh] at hhandle
  cases hr : ρ w <;> rw [hr] at hfind hhandle <;> exact ⟨hfind, hhandle⟩

theorem Shows.of_ended {o : Outcome} (h : Shows home t (.ended o)) (hf : Follows ρ t t') :
    Shows home t' (.ended o) :=
  ⟨hf.find?_of_none h.1, (hf.handle?_of_none h.1).trans h.2⟩

theorem receive_follows (hs : t.Sound) (home : NodeId) (σ : Signal) :
    ∃ ρ, Follows ρ t (t.receive home σ) ∧
      ∀ w : PendingWrite, w.id = ⟨home, 0⟩ → ρ w = σ.ruling home w := by
  have honly : ∀ (ρ : PendingWrite → Ruling) (w : PendingWrite), w.id = ⟨home, 0⟩ →
      only ⟨home, 0⟩ ρ w = ρ w := fun ρ w hid => if_pos hid
  cases σ with
  | ack n t => exact ⟨_, .apply hs (PendingWrite.lawful_ack n t none) .ack _, honly _⟩
  | segmentAck n t s =>
    exact ⟨_, .apply hs (PendingWrite.lawful_ack n t (some s)) .segmentAck _, honly _⟩
  | error n t cause =>
    refine ⟨_, ?_, honly (·.error n t cause)⟩
    rw [receive, error_value]
    exact .apply hs (PendingWrite.lawful_error n t cause) .error _
  | adopt v => exact ⟨_, .sweep hs (PendingWrite.lawful_adopt home v), fun _ _ => rfl⟩
  | restrict members =>
    exact ⟨_, .sweep hs (PendingWrite.lawful_dropDeparted members), fun _ _ => rfl⟩

theorem Shows.receive (hs : t.Sound) (h : Shows home t p) (σ : Signal) :
    Shows home (t.receive home σ) (p.feed home σ) := by
  obtain ⟨ρ, hf, hρ⟩ := receive_follows hs home σ
  cases p with
  | ended o => exact h.of_ended hf
  | waiting w =>
    rw [Progress.feed, ← hρ w (id_of_find? h.1)]
    exact h.follows hf

end WriteTable

/-! ## How writes get on -/

namespace Progress

variable {home : NodeId} {σ : Signal} {σs τs : List Signal} {p : Progress} {o : Outcome}

def run (home : NodeId) (σs : List Signal) (p : Progress) : Progress :=
  σs.foldl (fun p σ => p.feed home σ) p

/-- The write when it is registered, as the first one of the node. -/
def start (home : NodeId) (epoch : Epoch) (r : Requirement) : Progress :=
  (⟨⟨home, 0⟩, epoch, r⟩ : PendingWrite).conclude.progress ⟨⟨home, 0⟩, epoch, r⟩

def outcome? : Progress → Option Outcome
  | .waiting _ => none
  | .ended o => some o

theorem outcome?_eq_some_iff : p.outcome? = some o ↔ p = .ended o := by
  cases p <;> simp [outcome?]

def outstanding : Progress → Nat
  | .waiting w => w.requirement.outstanding
  | .ended _ => 0

theorem run_append : p.run home (σs ++ τs) = (p.run home σs).run home τs := List.foldl_append

theorem run_ended : (ended o).run home σs = .ended o := by
  induction σs with
  | nil => rfl
  | cons σ σs ih => exact ih

theorem run_append_of_ended (h : p.run home σs = .ended o) (τs : List Signal) :
    p.run home (σs ++ τs) = .ended o := by
  rw [run_append, h, run_ended]

/-- Only the events that concern the segment have come in; now one more comes in. -/
theorem run_filter_concat (s : SegmentId) :
    p.run home ((σs ++ [σ]).filter (·.concerns s)) =
      (p.run home (σs.filter (·.concerns s))).feedPart home σ s := by
  rw [List.filter_append, run_append, feedPart]
  cases hc : σ.concerns s with
  | true => rw [List.filter_cons_of_pos hc]; rfl
  | false => rw [List.filter_cons_of_neg (by simp [hc])]; rfl

end Progress

namespace WriteTable

variable {home : NodeId} {r : Requirement} {epoch : Epoch}

theorem shows_register (home : NodeId) (r : Requirement) (epoch : Epoch) :
    Shows home ((new home 0).register r epoch).value.2 (.start home epoch r) := by
  have hi : (new home 0).immediateOutcome r = if r.isSatisfied then some .success else none := by
    simp [immediateOutcome, new]
  have hfind : ((new home 0).register r epoch).value.2.find? ⟨home, 0⟩ =
      if r.isSatisfied then none else some ⟨⟨home, 0⟩, epoch, r⟩ := by
    rw [find?_register, hi]
    change (if _ = _ ∧ _ then _ else none) = _
    cases r.isSatisfied <;> simp [new, IdSource.new, IdSource.issue]
  have hhandle : ((new home 0).register r epoch).value.2.handle? ⟨home, 0⟩ =
      some ⟨⟨home, 0⟩, if r.isSatisfied then some .success else none⟩ := by
    rw [handle?_register, hi]
    exact if_pos rfl
  rw [Progress.start, PendingWrite.conclude_progress]
  split
  · rename_i hsat
    rw [if_pos hsat] at hfind hhandle
    exact ⟨hfind, hhandle⟩
  · rename_i hsat
    rw [if_neg hsat] at hfind hhandle
    exact ⟨hfind, hhandle⟩

/-- The table shows how its write gets on, event by event. -/
theorem shows_collect (hr : r.Dense) (home : NodeId) (epoch : Epoch) (σs : List Signal) :
    (collect home r epoch σs).Sound ∧
      Shows home (collect home r epoch σs) ((Progress.start home epoch r).run home σs) := by
  induction σs using List.reverseRecOn with
  | nil => exact ⟨(Sound.new home 0).register hr epoch, shows_register home r epoch⟩
  | append_singleton σs σ ih =>
    obtain ⟨hs, hshows⟩ := ih
    rw [collect, List.foldl_append, Progress.run_append]
    obtain ⟨ρ, hf, -⟩ := receive_follows hs home σ
    exact ⟨hf.sound, hshows.receive hs σ⟩

end WriteTable

/-! ## The whole and its parts -/

section Parts

variable {home : NodeId} {owners : SegmentMap NodeSet} {epoch : Epoch} {σ : Signal}
  {σs : List Signal} {s : SegmentId} {f f' : Failure}

/-- How the write to all segments is getting on. -/
def wholeAfter (home : NodeId) (owners : SegmentMap NodeSet) (epoch : Epoch) (σs : List Signal) :
    Progress :=
  (Progress.start home epoch (.ofSegments owners)).run home σs

/-- How the write to one segment is getting on; one that is not in the map has nobody to confirm
it. -/
def partAfter (home : NodeId) (owners : SegmentMap NodeSet) (epoch : Epoch) (σs : List Signal)
    (s : SegmentId) : Progress :=
  (Progress.start home epoch (.single s ((owners.find? s).getD ∅))).run home
    (σs.filter (·.concerns s))

theorem wholeAfter_concat : wholeAfter home owners epoch (σs ++ [σ]) =
    (wholeAfter home owners epoch σs).feed home σ :=
  Progress.run_append

theorem partAfter_concat : partAfter home owners epoch (σs ++ [σ]) =
    fun s => (partAfter home owners epoch σs s).feedPart home σ s :=
  funext fun s => Progress.run_filter_concat s

theorem wholeAfter_append_of_ended {o : Outcome}
    (h : wholeAfter home owners epoch σs = .ended o) (τs : List Signal) :
    wholeAfter home owners epoch (σs ++ τs) = .ended o :=
  Progress.run_append_of_ended h τs

theorem partAfter_append_of_ended {o : Outcome} (h : partAfter home owners epoch σs s = .ended o)
    (τs : List Signal) : partAfter home owners epoch (σs ++ τs) s = .ended o := by
  rw [partAfter, List.filter_append]
  exact Progress.run_append_of_ended h _

theorem partAfter_of_none (h : owners.find? s = none) :
    partAfter home owners epoch σs s = .ended .success := by
  rw [partAfter, h, Progress.start, PendingWrite.conclude_progress]
  exact Progress.run_ended

theorem matches_start (home : NodeId) (owners : SegmentMap NodeSet) (epoch : Epoch) :
    Matches (partAfter home owners epoch []) (wholeAfter home owners epoch []) := by
  refine PendingWrite.matches_conclude (Requirement.ofSegments_dense owners) rfl fun s => ?_
  rw [PendingWrite.part, SegmentMap.find?_filterMap]
  cases hf : owners.find? s with
  | none => exact partAfter_of_none hf
  | some ns =>
    rw [partAfter, hf, Progress.start, PendingWrite.conclude_progress, Option.bind_some,
      Requirement.nonEmpty?]
    change (if ns.isEmpty then _ else _) = _
    split <;> rfl

/-- The whole and the parts are in step until the whole has failed. -/
theorem after_matches (h : ∀ f, wholeAfter home owners epoch σs ≠ .ended (.failure f)) :
    Matches (partAfter home owners epoch σs) (wholeAfter home owners epoch σs) := by
  induction σs using List.reverseRecOn with
  | nil => exact matches_start home owners epoch
  | append_singleton σs σ ih =>
    have hbefore := ih fun f hf => h f (wholeAfter_append_of_ended hf [σ])
    cases hw : wholeAfter home owners epoch σs with
    | waiting w =>
      rw [hw] at hbefore
      rw [wholeAfter_concat, partAfter_concat, hw]
      exact hbefore.feed home σ
    | ended o =>
      rw [hw] at hbefore
      rw [wholeAfter_append_of_ended hw]
      cases o with
      | success => exact fun s => partAfter_append_of_ended (hbefore s) [σ]
      | failure f => exact absurd (wholeAfter_append_of_ended hw [σ]) (h f)

/-- A whole that waits has its parts beside it. -/
theorem parts_of_waiting {w : PendingWrite}
    (h : wholeAfter home owners epoch σs = .waiting w) :
    Matches (partAfter home owners epoch σs) (.waiting w) := by
  rw [← h]
  exact after_matches (by rw [h]; simp)

theorem parts_of_success (h : wholeAfter home owners epoch σs = .ended .success) (s : SegmentId) :
    partAfter home owners epoch σs s = .ended .success := by
  have hmatches : Matches (partAfter home owners epoch σs) (.ended .success) := by
    rw [← h]
    exact after_matches (by rw [h]; simp)
  exact hmatches s

/-! ## The first failure -/

/-- Something fails as `f` by an event before which nothing has failed. -/
def FirstFailure (fails : List Signal → Failure → Prop) (f : Failure) (σs : List Signal) : Prop :=
  ∃ before σ after, σs = before ++ σ :: after ∧
    (∀ f', ¬ fails before f') ∧ fails (before ++ [σ]) f

/-- Some part has failed as `f`. -/
def SomeFails (home : NodeId) (owners : SegmentMap NodeSet) (epoch : Epoch) (σs : List Signal)
    (f : Failure) : Prop :=
  ∃ s, partAfter home owners epoch σs s = .ended (.failure f)

theorem someFails_append (h : SomeFails home owners epoch σs f) (τs : List Signal) :
    SomeFails home owners epoch (σs ++ τs) f := by
  obtain ⟨s, hs⟩ := h
  exact ⟨s, partAfter_append_of_ended hs τs⟩

/-- While the whole has not failed, no part has. -/
theorem not_someFails (h : ∀ f, wholeAfter home owners epoch σs ≠ .ended (.failure f)) :
    ¬ SomeFails home owners epoch σs f' := by
  rintro ⟨s, hs⟩
  cases hw : wholeAfter home owners epoch σs with
  | waiting w =>
    obtain ⟨-, m, -, hpart⟩ := parts_of_waiting hw
    exact PendingWrite.part_ne_failure ((hpart s).symm.trans hs)
  | ended o =>
    cases o with
    | success =>
      rw [parts_of_success hw] at hs
      cases hs
    | failure f => exact h f hw

/-- What the event that fails the whole does to the parts. -/
theorem someFails_concat {w : PendingWrite} (hw : wholeAfter home owners epoch σs = .waiting w)
    (hf : wholeAfter home owners epoch (σs ++ [σ]) = .ended (.failure f)) :
    SomeFails home owners epoch (σs ++ [σ]) f ∧
      ∀ f', SomeFails home owners epoch (σs ++ [σ]) f' → f' = f := by
  have hfed := (parts_of_waiting hw).feed home σ
  rw [← hw, ← wholeAfter_concat, hf, ← partAfter_concat] at hfed
  refine ⟨hfed.1, fun f' h => ?_⟩
  obtain ⟨s, hs⟩ := h
  exact hfed.2 s f' hs

theorem firstFailure_of_whole (h : wholeAfter home owners epoch σs = .ended (.failure f)) :
    FirstFailure (SomeFails home owners epoch) f σs := by
  -- on the last event: the whole has failed before, or it fails now
  induction σs using List.reverseRecOn with
  | nil =>
    rw [wholeAfter, Progress.run, List.foldl_nil, Progress.start,
      PendingWrite.conclude_progress] at h
    split at h <;> cases h
  | append_singleton σs σ ih =>
    cases hw : wholeAfter home owners epoch σs with
    | waiting w =>
      exact ⟨σs, σ, [], rfl, fun f' => not_someFails (by rw [hw]; simp), (someFails_concat hw h).1⟩
    | ended o =>
      have ho := wholeAfter_append_of_ended hw [σ]
      rw [h] at ho
      cases ho
      obtain ⟨before, σ', after, rfl, hnone, hsome⟩ := ih hw
      exact ⟨before, σ', after ++ [σ], by simp, hnone, hsome⟩

theorem someFails_of_whole (h : wholeAfter home owners epoch σs = .ended (.failure f)) :
    SomeFails home owners epoch σs f := by
  obtain ⟨before, σ, after, rfl, -, hsome⟩ := firstFailure_of_whole h
  rw [List.append_cons]
  exact someFails_append hsome after

theorem whole_failed_iff : (∃ f, wholeAfter home owners epoch σs = .ended (.failure f)) ↔
    ∃ f, SomeFails home owners epoch σs f := by
  constructor
  · exact fun ⟨f, hf⟩ => ⟨f, someFails_of_whole hf⟩
  · intro h
    obtain ⟨f, hf⟩ := h
    by_contra hnot
    exact not_someFails (fun f' hf' => hnot ⟨f', hf'⟩) hf

/-- The whole fails as the first of its parts that fail. -/
theorem whole_failure_iff : wholeAfter home owners epoch σs = .ended (.failure f) ↔
    FirstFailure (SomeFails home owners epoch) f σs := by
  refine ⟨firstFailure_of_whole, fun h => ?_⟩
  obtain ⟨before, σ, after, rfl, hnone, hsome⟩ := h
  -- before the event that fails the part the whole has not ended
  have hwaiting : ∃ w, wholeAfter home owners epoch before = .waiting w := by
    cases hw : wholeAfter home owners epoch before with
    | waiting w => exact ⟨w, rfl⟩
    | ended o =>
      cases o with
      | failure f' => exact absurd (someFails_of_whole hw) (hnone f')
      | success =>
        obtain ⟨s, hs⟩ := hsome
        rw [partAfter_append_of_ended (parts_of_success hw s)] at hs
        cases hs
  obtain ⟨w, hw⟩ := hwaiting
  obtain ⟨f', hf'⟩ := whole_failed_iff.2 ⟨f, hsome⟩
  rw [(someFails_concat hw hf').2 f hsome, List.append_cons]
  exact wholeAfter_append_of_ended hf' after

theorem whole_success_iff : wholeAfter home owners epoch σs = .ended .success ↔
    ∀ s, partAfter home owners epoch σs s = .ended .success := by
  refine ⟨parts_of_success, fun h => ?_⟩
  cases hw : wholeAfter home owners epoch σs with
  | waiting w =>
    -- the part in a segment that the whole waits for has not ended
    obtain ⟨hl, m, hm, hpart⟩ := parts_of_waiting hw
    obtain ⟨s, ns, hf⟩ := PendingWrite.exists_find?_of_live hl hm
    have hs := (hpart s).symm.trans (h s)
    rw [PendingWrite.part_of_find? hf] at hs
    cases hs
  | ended o =>
    cases o with
    | success => rfl
    | failure f =>
      obtain ⟨s, hs⟩ := someFails_of_whole hw
      rw [h s] at hs
      cases hs

/-! ## Counting -/

theorem outstanding_segmented (w : PendingWrite) (m : SegmentMap NodeSet) :
    (Requirement.segmented m).outstanding =
      (m.segments.map fun s => (w.part m s).outstanding).sum := by
  have hparts : (m.segments.map fun s => (w.part m s).outstanding) = m.values.map NodeSet.size := by
    rw [SegmentMap.segments, SegmentMap.values, List.map_map, List.map_map]
    refine List.map_congr_left fun e he => ?_
    rw [Function.comp_apply, PendingWrite.part_of_find? (SegmentMap.find?_eq_some_iff.2 he)]
    rfl
  rw [hparts, List.sum_eq_foldr, List.foldr_map]
  rfl

/-- While the whole waits, it needs as many confirmations as its parts together. -/
theorem outstanding_eq_sum {w : PendingWrite}
    (hw : wholeAfter home owners epoch σs = .waiting w) :
    w.requirement.outstanding =
      (owners.segments.map fun s => (partAfter home owners epoch σs s).outstanding).sum := by
  obtain ⟨-, m, hm, hpart⟩ := parts_of_waiting hw
  have hsub : m.segments.toFinset ⊆ owners.segments.toFinset := by
    intro s hs
    obtain ⟨ns, hf⟩ := SegmentMap.mem_segments_iff.1 (List.mem_toFinset.1 hs)
    rw [List.mem_toFinset, SegmentMap.mem_segments_iff]
    -- a part that waits is that of a segment of the map
    cases ho : owners.find? s with
    | some ns => exact ⟨ns, rfl⟩
    | none =>
      have hended := (hpart s).symm.trans (partAfter_of_none ho)
      rw [PendingWrite.part_of_find? hf] at hended
      cases hended
  have hzero : ∀ s ∉ m.segments.toFinset, (w.part m s).outstanding = 0 := by
    intro s hs
    rw [List.mem_toFinset, SegmentMap.mem_segments_iff, not_exists] at hs
    rw [PendingWrite.part_of_none (Option.eq_none_iff_forall_ne_some.2 hs)]
    rfl
  simp only [hpart]
  rw [hm, outstanding_segmented w, ← List.sum_toFinset _ m.segments_nodup,
    ← List.sum_toFinset _ owners.segments_nodup]
  exact Finset.sum_subset hsub fun s _ hs => hzero s hs

end Parts

/-! ## In the tables -/

namespace WriteTable

variable {home : NodeId} {owners : SegmentMap NodeSet} {epoch : Epoch} {σs : List Signal}
  {e : SegmentId × NodeSet} {t : WriteTable} {p : Progress} {f : Failure}

theorem Shows.outcome? (h : Shows home t p) : t.outcome? ⟨home, 0⟩ = p.outcome? := by
  cases p with
  | waiting w => rw [WriteTable.outcome?, h.2]; rfl
  | ended o => rw [WriteTable.outcome?, h.2]; rfl

theorem Shows.hasPending (h : Shows home t p) (hs : t.Sound) :
    t.hasPending ⟨home, 0⟩ = p.outcome?.isNone := by
  rw [hs.hasPending_eq]
  cases p with
  | waiting w => rw [h.1]; rfl
  | ended o => rw [h.1]; rfl

theorem Shows.outstanding? (h : Shows home t p) (hs : t.Sound) :
    t.outstanding? ⟨home, 0⟩ = if p.outcome?.isNone then some p.outstanding else none := by
  rw [hs.outstanding?_eq]
  cases p with
  | waiting w => rw [h.1]; rfl
  | ended o => rw [h.1]; rfl

/-- The table with the write to all segments. -/
def whole (home : NodeId) (owners : SegmentMap NodeSet) (epoch : Epoch) (σs : List Signal) :
    WriteTable :=
  collect home (.ofSegments owners) epoch σs

/-- The table with the write to one segment and its owners; it gets the events that concern the
segment. -/
def part (home : NodeId) (e : SegmentId × NodeSet) (epoch : Epoch) (σs : List Signal) :
    WriteTable :=
  collect home (.single e.1 e.2) epoch (σs.filter (·.concerns e.1))

theorem shows_whole : (whole home owners epoch σs).Sound ∧
    Shows home (whole home owners epoch σs) (wholeAfter home owners epoch σs) :=
  shows_collect (Requirement.ofSegments_dense owners) home epoch σs

theorem shows_part (he : e ∈ owners.entries) : (part home e epoch σs).Sound ∧
    Shows home (part home e epoch σs) (partAfter home owners epoch σs e.1) := by
  rw [partAfter, SegmentMap.find?_eq_some_iff.2 he]
  exact shows_collect (show (Requirement.single e.1 e.2).Dense from trivial) home epoch _

theorem outcome?_whole {o : Outcome} :
    (whole home owners epoch σs).outcome? ⟨home, 0⟩ = some o ↔
      wholeAfter home owners epoch σs = .ended o := by
  rw [shows_whole.2.outcome?, Progress.outcome?_eq_some_iff]

theorem outcome?_part {o : Outcome} (he : e ∈ owners.entries) :
    (part home e epoch σs).outcome? ⟨home, 0⟩ = some o ↔
      partAfter home owners epoch σs e.1 = .ended o := by
  rw [(shows_part he).2.outcome?, Progress.outcome?_eq_some_iff]

def PartsSucceed (home : NodeId) (owners : SegmentMap NodeSet) (epoch : Epoch)
    (σs : List Signal) : Prop :=
  ∀ e ∈ owners.entries, (part home e epoch σs).outcome? ⟨home, 0⟩ = some .success

def PartFails (home : NodeId) (owners : SegmentMap NodeSet) (epoch : Epoch) (σs : List Signal)
    (f : Failure) : Prop :=
  ∃ e ∈ owners.entries, (part home e epoch σs).outcome? ⟨home, 0⟩ = some (.failure f)

theorem partsSucceed_iff : PartsSucceed home owners epoch σs ↔
    ∀ s, partAfter home owners epoch σs s = .ended .success := by
  constructor
  · intro h s
    cases ho : owners.find? s with
    | none => exact partAfter_of_none ho
    | some ns =>
      have he := SegmentMap.find?_eq_some_iff.1 ho
      exact (outcome?_part he).1 (h _ he)
  · exact fun h e he => (outcome?_part he).2 (h e.1)

theorem partFails_eq : PartFails home owners epoch = SomeFails home owners epoch := by
  funext σs f
  refine propext ⟨fun h => ?_, fun h => ?_⟩
  · obtain ⟨e, he, ho⟩ := h
    exact ⟨e.1, (outcome?_part he).1 ho⟩
  · obtain ⟨s, hs⟩ := h
    cases ho : owners.find? s with
    | none =>
      rw [partAfter_of_none ho] at hs
      cases hs
    | some ns =>
      have he := SegmentMap.find?_eq_some_iff.1 ho
      exact ⟨(s, ns), he, (outcome?_part he).2 hs⟩

/-- A write to several segments, when the events have come in, is the conjunction of the writes to
the single ones. In each table the write has the number 0. -/
structure IsConjunction (home : NodeId) (owners : SegmentMap NodeSet) (epoch : Epoch)
    (σs : List Signal) : Prop where
  success : (whole home owners epoch σs).outcome? ⟨home, 0⟩ = some .success ↔
    PartsSucceed home owners epoch σs
  failed : (∃ f, (whole home owners epoch σs).outcome? ⟨home, 0⟩ = some (.failure f)) ↔
    ∃ f, PartFails home owners epoch σs f
  /-- The failure is that of the first parts to fail. -/
  first : ∀ f, (whole home owners epoch σs).outcome? ⟨home, 0⟩ = some (.failure f) ↔
    FirstFailure (PartFails home owners epoch) f σs
  pending : (whole home owners epoch σs).hasPending ⟨home, 0⟩ = true ↔
    ¬ PartsSucceed home owners epoch σs ∧ ∀ f, ¬ PartFails home owners epoch σs f
  /-- A part that has ended waits for nobody. -/
  outstanding : (whole home owners epoch σs).hasPending ⟨home, 0⟩ = true →
    (whole home owners epoch σs).outstanding? ⟨home, 0⟩ = some
      (owners.entries.map fun e => ((part home e epoch σs).outstanding? ⟨home, 0⟩).getD 0).sum

/-- **A write to several segments is the conjunction of the writes to the single ones**, after
every sequence of events. -/
theorem segmented_isConjunction (home : NodeId) (owners : SegmentMap NodeSet) (epoch : Epoch)
    (σs : List Signal) : IsConjunction home owners epoch σs := by
  have hsuccess : (whole home owners epoch σs).outcome? ⟨home, 0⟩ = some .success ↔
      PartsSucceed home owners epoch σs := by
    rw [outcome?_whole, partsSucceed_iff, whole_success_iff]
  have hfailed : (∃ f, (whole home owners epoch σs).outcome? ⟨home, 0⟩ = some (.failure f)) ↔
      ∃ f, PartFails home owners epoch σs f := by
    simp only [outcome?_whole, partFails_eq, whole_failed_iff]
  have hpending : (whole home owners epoch σs).hasPending ⟨home, 0⟩ =
      ((whole home owners epoch σs).outcome? ⟨home, 0⟩).isNone := by
    rw [shows_whole.2.hasPending shows_whole.1, shows_whole.2.outcome?]
  refine ⟨hsuccess, hfailed, fun f => ?_, ?_, fun h => ?_⟩
  · rw [outcome?_whole, partFails_eq, whole_failure_iff]
  · rw [hpending, ← hsuccess, ← not_exists, ← hfailed]
    cases ho : (whole home owners epoch σs).outcome? ⟨home, 0⟩ with
    | none => simp
    | some o => cases o <;> simp
  · rw [shows_whole.2.hasPending shows_whole.1] at h
    rw [shows_whole.2.outstanding? shows_whole.1, if_pos h]
    cases hw : wholeAfter home owners epoch σs with
    | ended o =>
      rw [hw] at h
      cases h
    | waiting w =>
      rw [Progress.outstanding, outstanding_eq_sum hw, SegmentMap.segments, List.map_map]
      refine congrArg (fun l => some (List.sum l)) (List.map_congr_left fun e he => ?_)
      rw [(shows_part he).2.outstanding? (shows_part he).1, Function.comp_apply]
      cases partAfter home owners epoch σs e.1 <;> rfl

-- a segment that is lost after its part has ended does not fail the whole
example : (whole 0 (.ofList [(0, .ofList [1]), (1, .ofList [2])]) 5
    [.segmentAck 2 5 1, .adopt (.of 6 [] (.ofList [(0, [0, 1]), (1, [2, 0])]))]).outstanding?
      ⟨0, 0⟩ = some 1 := by
  decide

end WriteTable
end BackupAcks
