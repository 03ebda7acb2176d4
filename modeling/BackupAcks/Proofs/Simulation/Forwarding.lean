import BackupAcks.Proofs.Simulation.IssueLoop
import BackupAcks.Proofs.Simulation.Owners
import BackupAcks.Proofs.Simulation.Requests
import Mathlib.Logic.Function.Basic

/-!
# Everyone who is waited for is contacted, once

The primary waits for pairs of a segment and a backup. It goes through them and notes down for each
backup the segments that concern it, then sends each backup one message with its note. The messages
are the waited-for pairs seen from the other side, in whatever order the primary goes through them.

Results:
* `gather_eq`: what is noted down for each backup;
* `forwards_transpose`: the messages of a request against its pairs;
* `issueLoop_wellFormed`: every round of the loop under every assignment.
-/
namespace BackupAcks.Simulation

variable {p : Parameters} {chance : Chance} {v : Ownership} {epoch : Epoch} {i : Nat}
  {id : WriteId} {r : Request} {f : Forward} {n : NodeId} {s : SegmentId}

/-! ## Noting down -/

def pairedWith (n : NodeId) (qs : List (SegmentId × NodeId)) : List SegmentId :=
  (qs.filter fun q => q.2 = n).map Prod.fst

theorem mem_pairedWith {qs : List (SegmentId × NodeId)} : s ∈ pairedWith n qs ↔ (s, n) ∈ qs := by
  simp only [pairedWith, List.mem_map, List.mem_filter, decide_eq_true_eq]
  constructor
  · rintro ⟨⟨t, k⟩, ⟨hq, rfl⟩, rfl⟩
    exact hq
  · intro h
    exact ⟨(s, n), ⟨h, rfl⟩, rfl⟩

theorem nodup_pairedWith {qs : List (SegmentId × NodeId)} (h : qs.Nodup) :
    (pairedWith n qs).Nodup := by
  refine List.Nodup.map_on (fun q hq q' hq' heq => ?_) (h.filter _)
  have hn := of_decide_eq_true (List.mem_filter.1 hq).2
  have hn' := of_decide_eq_true (List.mem_filter.1 hq').2
  exact Prod.ext heq (hn.trans hn'.symm)

theorem pairedWith_append (n : NodeId) (qs qs' : List (SegmentId × NodeId)) :
    pairedWith n (qs ++ qs') = pairedWith n qs ++ pairedWith n qs' := by
  rw [pairedWith, List.filter_append, List.map_append]
  rfl

theorem pairedWith_singleton (n : NodeId) (q : SegmentId × NodeId) :
    pairedWith n [q] = if q.2 = n then [q.1] else [] := by
  rw [pairedWith, List.filter_singleton]
  by_cases hn : q.2 = n <;> simp [hn]

theorem perm_pairedWith {qs qs' : List (SegmentId × NodeId)} (h : qs.Perm qs') (n : NodeId) :
    (pairedWith n qs).Perm (pairedWith n qs') :=
  (h.filter _).map _

/-- Adds the segment of a pair to what is noted down for its node. -/
def note (notes : NodeId → Option (List SegmentId)) (q : SegmentId × NodeId) :
    NodeId → Option (List SegmentId) :=
  Function.update notes q.2 (some ((notes q.2).getD [] ++ [q.1]))

/-- What is noted down in going through the pairs. -/
def gather (qs : List (SegmentId × NodeId)) : NodeId → Option (List SegmentId) :=
  qs.foldl note fun _ => none

theorem gather_concat (qs : List (SegmentId × NodeId)) (q : SegmentId × NodeId) :
    gather (qs ++ [q]) = note (gather qs) q :=
  List.foldl_concat note _ q qs

/-- There is a note for each node that occurs, with the segments it is paired with. -/
theorem gather_eq (qs : List (SegmentId × NodeId)) (n : NodeId) :
    gather qs n = if pairedWith n qs = [] then none else some (pairedWith n qs) := by
  induction qs using List.reverseRecOn with
  | nil => rfl
  | append_singleton qs q ih =>
    rw [gather_concat, note, pairedWith_append, pairedWith_singleton]
    by_cases hn : q.2 = n
    · have hnoted : (gather qs n).getD [] = pairedWith n qs := by
        rw [ih]
        split
        · rename_i hnil
          exact hnil.symm
        · rfl
      have hne : pairedWith n qs ++ [q.1] ≠ [] := by simp
      rw [if_pos hn, hn, Function.update_self, hnoted, if_neg hne]
    · rw [if_neg hn, List.append_nil, Function.update_of_ne (Ne.symm hn), ih]

/-! ## Messages -/

namespace Request

def recipients : Request → NodeSet
  | .single _ backups => backups
  | .segmented backups => .ofList (backups.values.flatMap (·.toList))

theorem map_backup_forwards (r : Request) (id : WriteId) (epoch : Epoch) :
    (r.forwards id epoch).map (·.backup) = r.recipients.toList := by
  cases r <;> (rw [forwards, List.map_map]; exact List.map_id _)

theorem mem_recipients : n ∈ r.recipients ↔ ∃ s, (s, n) ∈ r.pairs := by
  cases r with
  | single s backups =>
    simp only [recipients, pairs, Requirement.mem_pairs_single, exists_eq_left]
  | segmented m =>
    simp only [recipients, pairs, Requirement.mem_pairs_segmented, NodeSet.mem_ofList,
      SegmentMap.values, List.mem_flatMap, List.mem_map, Prod.exists, NodeSet.mem_toList]
    constructor
    · rintro ⟨ns, ⟨s, ns', he, rfl⟩, hn⟩
      exact ⟨s, ns', he, hn⟩
    · rintro ⟨s, ns, he, hn⟩
      exact ⟨ns, ⟨s, ns, he, rfl⟩, hn⟩

theorem mem_map_backup : n ∈ (r.forwards id epoch).map (·.backup) ↔ ∃ s, (s, n) ∈ r.pairs := by
  rw [map_backup_forwards, NodeSet.mem_toList, mem_recipients]

theorem nodup_pairs (r : Request) : r.pairs.Nodup := by
  cases r with
  | single s backups => exact (Requirement.single s backups).nodup_pairs
  | segmented m => exact (Requirement.segmented m).nodup_pairs

/-- Read by nodes, the pairs of a map are the segments that list the node. -/
theorem pairedWith_pairs (m : SegmentMap NodeSet) (n : NodeId) :
    pairedWith n (segmented m).pairs =
      (m.entries.filter fun e => decide (n ∈ e.2)).map Prod.fst := by
  have hentry : ∀ e : SegmentId × NodeSet, pairedWith n (e.2.toList.map fun k => (e.1, k)) =
      if n ∈ e.2 then [e.1] else [] := by
    intro e
    have hfilter : (e.2.toList.filter fun k => k = n) = if n ∈ e.2 then [n] else [] := by
      rw [List.filter_eq, e.2.toList_nodup.count]
      by_cases hn : n ∈ e.2
      · rw [if_pos hn, if_pos (NodeSet.mem_toList.2 hn)]
        rfl
      · rw [if_neg hn, if_neg fun h => hn (NodeSet.mem_toList.1 h)]
        rfl
    rw [pairedWith, List.filter_map, List.map_map]
    refine (congrArg (List.map _) hfilter).trans ?_
    split <;> rfl
  rw [pairs, Requirement.pairs]
  induction m.entries with
  | nil => rfl
  | cons e rest ih =>
    rw [List.flatMap_cons, pairedWith_append, hentry, ih, List.filter_cons]
    by_cases hn : n ∈ e.2 <;> simp only [hn, decide_true, decide_false, if_true, if_false,
      List.map_cons, List.singleton_append, List.nil_append, Bool.false_eq_true]

/-- A message that names segments names those that are paired with its backup. -/
theorem segments_of_mem_forwards (h : f ∈ r.forwards id epoch) {segments : List SegmentId}
    (hsegments : f.segments = some segments) : segments = pairedWith f.backup r.pairs := by
  cases r with
  | single s backups =>
    obtain ⟨n, -, rfl⟩ := List.mem_map.1 h
    cases hsegments
  | segmented m =>
    obtain ⟨n, -, rfl⟩ := List.mem_map.1 h
    rw [pairedWith_pairs]
    exact (Option.some.inj hsegments).symm

end Request

/-- The messages of a request are its pairs seen from the other side. -/
structure Transposes (r : Request) (id : WriteId) (epoch : Epoch) (fs : List Forward) : Prop where
  /-- Every message is about the write. -/
  stamped : ∀ f ∈ fs, f.id = id ∧ f.epoch = epoch
  /-- No node gets two. -/
  once : (fs.map (·.backup)).Nodup
  /-- Those who are waited for get one, and nobody else. -/
  contacted : ∀ n, n ∈ fs.map (·.backup) ↔ ∃ s, (s, n) ∈ r.pairs
  /-- The segments of a message are those that the node is waited for, each once. -/
  named : ∀ f ∈ fs, ∀ segments, f.segments = some segments →
    segments.Nodup ∧ ∀ s, s ∈ segments ↔ (s, f.backup) ∈ r.pairs
  /-- In whatever order the pairs are gone through, the same messages are noted down. -/
  gathered : ∀ visits, visits.Perm r.pairs → ∀ n, match gather visits n with
    | none => n ∉ fs.map (·.backup)
    | some noted => ∃ f ∈ fs, f.backup = n ∧ ∀ segments, f.segments = some segments →
        segments.Perm noted

theorem forwards_transpose (r : Request) (id : WriteId) (epoch : Epoch) :
    Transposes r id epoch (r.forwards id epoch) where
  stamped f hf := by
    cases r <;> (obtain ⟨n, -, rfl⟩ := List.mem_map.1 hf; exact ⟨rfl, rfl⟩)
  once := r.map_backup_forwards id epoch ▸ r.recipients.toList_nodup
  contacted _ := Request.mem_map_backup
  named f hf segments hsegments := by
    rw [Request.segments_of_mem_forwards hf hsegments]
    exact ⟨nodup_pairedWith r.nodup_pairs, fun s => mem_pairedWith⟩
  gathered visits hvisits n := by
    rw [gather_eq]
    cases hpaired : pairedWith n visits with
    | nil =>
      rw [if_pos rfl, Request.mem_map_backup]
      rintro ⟨s, hs⟩
      have hmem := mem_pairedWith.2 (hvisits.mem_iff.2 hs)
      rw [hpaired] at hmem
      cases hmem
    | cons s rest =>
      rw [if_neg (List.cons_ne_nil s rest)]
      have hs : (s, n) ∈ visits := mem_pairedWith.1 (hpaired ▸ List.mem_cons_self)
      obtain ⟨f, hf, hbackup⟩ :=
        List.mem_map.1 (Request.mem_map_backup.2 ⟨s, hvisits.mem_iff.1 hs⟩)
      refine ⟨f, hf, hbackup, fun segments hsegments => ?_⟩
      rw [Request.segments_of_mem_forwards hf hsegments, hbackup, ← hpaired]
      exact perm_pairedWith hvisits.symm n

/-! ## Rounds of the loop -/

/-- A write waits for the backups of each segment that it touches. -/
theorem mem_pairs_of_request? {segments : List SegmentId} (h : request? p v segments = some r)
    (hlength : segments.length = p.batch) (hnodup : segments.Nodup) :
    (s, n) ∈ r.pairs ↔ s ∈ segments ∧ n ∈ v.backups s := by
  unfold request? at h
  split at h
  · rename_i hone
    obtain ⟨t, rfl⟩ := List.length_eq_one_iff.1 (hlength.trans hone)
    cases h
    rw [Request.pairs, Requirement.mem_pairs_single, NodeSet.mem_ofList, List.mem_singleton]
    exact and_congr_right fun hs => by rw [hs]
  · cases h
    have hentries := SegmentMap.perm_ofList
      (SegmentMap.nodup_map_fst hnodup fun s => NodeSet.ofList (v.backups s))
    simp only [Request.pairs, Requirement.mem_pairs_segmented, hentries.mem_iff, List.mem_map,
      Prod.mk.injEq]
    constructor
    · rintro ⟨ns, ⟨t, ht, rfl, rfl⟩, hn⟩
      exact ⟨ht, NodeSet.mem_ofList.1 hn⟩
    · rintro ⟨hs, hn⟩
      exact ⟨_, ⟨s, hs, rfl, rfl⟩, NodeSet.mem_ofList.2 hn⟩

/-- The messages of a write name segments unless it touches one only. -/
theorem segments_eq_none_iff {segments : List SegmentId} (h : request? p v segments = some r)
    (hf : f ∈ r.forwards id epoch) : f.segments = none ↔ p.batch = 1 := by
  unfold request? at h
  split at h
  · rename_i hone
    obtain ⟨t, -, rfl⟩ := Option.map_eq_some_iff.1 h
    obtain ⟨n, -, rfl⟩ := List.mem_map.1 hf
    exact iff_of_true rfl hone
  · rename_i hmany
    cases h
    obtain ⟨n, -, rfl⟩ := List.mem_map.1 hf
    exact iff_of_false (Option.some_ne_none _) hmany

/-- What round `i` of the loop does under an assignment, with the segments that it draws. -/
structure WellIssued (p : Parameters) (chance : Chance) (v : Ownership) (i : Nat)
    (segments : List SegmentId) : Prop where
  /-- There are enough segments that the primary may write to. -/
  enough : (candidates p v).Nodup ∧ p.batch ≤ (candidates p v).length
  /-- As many as there should be are drawn, and at least one. -/
  drawn : segments.length = p.batch ∧ segments ≠ []
  /-- None is drawn twice. -/
  different : segments.Nodup
  /-- The primary is primary of them all. -/
  own : ∀ s ∈ segments, s < p.segments ∧ v.primary? s = some primary
  /-- The primary does not forward to itself, and it can forward to all that it should. -/
  reachable : ∀ s ∈ segments, ∀ n ∈ v.backups s, n ≠ primary ∧ n ∈ channels p
  /-- The write is created, waits for the backups of its segments, and sends them its messages. -/
  issued : ∃ r, request? p v segments = some r ∧
    stepIncidents p chance v i = (if p.ChangesAt i then [⟨issueTime p i, .activate v⟩] else []) ++
      ⟨issueTime p i, r.event v.epoch⟩ :: replyIncidents p chance v.epoch i r ∧
    (∀ s n, (s, n) ∈ r.pairs ↔ s ∈ segments ∧ n ∈ v.backups s) ∧
    Transposes r ⟨primary, UInt64.ofNat i⟩ v.epoch
      (r.forwards ⟨primary, UInt64.ofNat i⟩ v.epoch) ∧
    ∀ f ∈ r.forwards ⟨primary, UInt64.ofNat i⟩ v.epoch,
      f.backup ∈ channels p ∧ (f.segments = none ↔ p.batch = 1)

theorem wellIssued (hp : p.Fits) (chance : Chance) (x : Phase) (i : Nat) :
    WellIssued p chance (x.view p) i (chosen p chance (candidates p (x.view p)) i) := by
  have hnodup := nodup_candidates p (x.view p)
  have henough : p.batch ≤ (candidates p (x.view p)).length := batch_le_candidates hp
  obtain ⟨hlength, hdifferent, hmem⟩ := chosen_spec hnodup henough chance i
  have hreachable : ∀ s ∈ chosen p chance (candidates p (x.view p)) i,
      ∀ n ∈ (x.view p).backups s, n ∈ channels p :=
    fun s hs n hn => mem_channels_of_mem_backups hp (hmem s hs) hn
  have hne := List.ne_nil_of_length_pos (hlength ▸ hp.batch_pos)
  obtain ⟨r, hr⟩ := Option.isSome_iff_exists.1 (isSome_request? (p := p) (v := x.view p) hne)
  have hpairs : ∀ s n, (s, n) ∈ r.pairs ↔
      s ∈ chosen p chance (candidates p (x.view p)) i ∧ n ∈ (x.view p).backups s :=
    fun s n => mem_pairs_of_request? hr hlength hdifferent
  have htransposes := forwards_transpose r ⟨primary, UInt64.ofNat i⟩ (x.view p).epoch
  refine ⟨⟨hnodup, henough⟩, ⟨hlength, hne⟩, hdifferent,
    fun s hs => mem_candidates_iff.1 (hmem s hs), fun s hs n hn => ?_, r, hr, ?_, hpairs,
    htransposes, fun f hf => ⟨?_, segments_eq_none_iff hr hf⟩⟩
  · have hn := hreachable s hs n hn
    exact ⟨(mem_channels.1 hn).1, hn⟩
  · rw [stepIncidents, writeIncidents_eq hr]
  · -- who gets a message is waited for, so it is a backup of one of the segments
    obtain ⟨s, hs⟩ := (htransposes.contacted f.backup).1 (List.mem_map_of_mem hf)
    obtain ⟨hchosen, hn⟩ := (hpairs s f.backup).1 hs
    exact hreachable s hchosen f.backup hn

/-- **Everyone who is waited for is contacted.** Under parameters that pass the check, every
assignment gives each segment a primary and its copies on different nodes, as long as the numbers
fit into a word. And whatever is drawn, the agenda is that of a loop each round of which has enough
segments to write to, draws as many different ones as it should, and sends one message to each of
those whom the write waits for, about just the segments that it waits for from them. -/
theorem issueLoop_wellFormed (hp : p.check = .ok p) :
    (∀ (epoch : Epoch) (shift : UInt32) (handedOff : Bool),
      p.segments.toNat + shift.toNat + p.copies.toNat ≤ 2 ^ 32 →
        Assigned p handedOff (assignment p epoch shift handedOff)) ∧
    ∀ chance : Chance,
      (∀ count, agenda p chance count =
        (issueLoop p chance count).mergeSort fun a b => a.due ≤ b.due) ∧
      ∀ i, WellIssued p chance ((phaseAt p i).view p) i
        (chosen p chance (candidates p ((phaseAt p i).view p)) i) := by
  have hfits := Parameters.fits_of_check hp
  refine ⟨fun epoch shift handedOff hwords => assigned_assignment hfits hwords, fun chance => ?_⟩
  exact ⟨agenda_eq_issueLoop p chance, fun i => wellIssued hfits chance (phaseAt p i) i⟩

/-- Two segments for each write, and a change of the assignment before each but the first. -/
def everChanging : Parameters := { Parameters.default with batch := 2, rebalanceEvery := 1 }

/-- Every draw comes out first. -/
def alwaysFirst : Chance := ⟨fun _ _ => 0, fun _ _ => 0, fun _ _ => 0⟩

theorem issueLoop_wellFormed_everChanging :
    Assigned everChanging true ((phaseAt everChanging 1).view everChanging) ∧
      ((phaseAt everChanging 1).view everChanging).ownersOf 0 = [2, 0, 3] ∧
      ((phaseAt everChanging 1).view everChanging).ownersOf 1 = [0, 3, 1] ∧
      WellIssued everChanging alwaysFirst ((phaseAt everChanging 1).view everChanging) 1 [1, 2] := by
  have h := issueLoop_wellFormed (p := everChanging) (by decide +kernel)
  have hchosen : chosen everChanging alwaysFirst
      (candidates everChanging ((phaseAt everChanging 1).view everChanging)) 1 = [1, 2] := by
    decide +kernel
  exact ⟨h.1 2 1 true (by decide), by decide, by decide, hchosen ▸ (h.2 alwaysFirst).2 1⟩

end BackupAcks.Simulation
