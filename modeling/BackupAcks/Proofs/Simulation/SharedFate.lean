import BackupAcks.Proofs.Simulation.OneAssignment

/-!
# Simulations whose replies share one fate

Let the assignment never change and no reply take so long that a deadline passes first. If no reply
gets lost, every write is answered in time, so that none times out: it succeeds if none of the
replies fails, and it fails if all of them do. If every reply gets lost, nothing ever comes in, so
that there is nothing left for a write but to time out.

Results:
* `not_timedOut`: no write times out if no reply gets lost;
* `not_succeeded`: no write succeeds if nothing is confirmed;
* `length_sent`: the number of replies that are sent;
* `run_sharesFate`: how such a simulation comes out.
-/
namespace BackupAcks.Simulation

open Coordinator (Event creations creations_append run_append)
open WriteTable (nthId)

variable {p : Parameters} {chance : Chance} {r : Request} {x : Incident} {xs : List Incident}
  {e : Event} {s : Settings} {c : Coordinator} {count i : Nat}

/-! ## What is sent -/

def Incident.reply? (x : Incident) : Option (NodeId × List UInt8) :=
  match x.event with
  | .bytes n data => some (n, data)
  | _ => none

def sent (xs : List Incident) : List (NodeId × List UInt8) := xs.filterMap Incident.reply?

/-- The bytes that are counted are those that are sent. -/
theorem replyBytes_eq (xs : List Incident) :
    replyBytes xs = ((sent xs).map fun x => x.2.length).sum := by
  have key : ∀ total, xs.foldl (fun total x =>
      match x.event with
      | .bytes _ bytes => total + bytes.length
      | _ => total) total = total + ((sent xs).map fun x => x.2.length).sum := by
    induction xs with
    | nil => intro total; rfl
    | cons x xs ih =>
      intro total
      rw [List.foldl_cons, ih]
      obtain ⟨due, event⟩ := x
      cases event <;> first
        | rfl
        | exact Nat.add_assoc _ _ _
  exact (key 0).trans (Nat.zero_add _)

theorem reply?_of_isCreation (i : Nat) (r : Request) :
    (⟨issueTime p i, r.event initialEpoch⟩ : Incident).reply? = none := by
  cases r <;> rfl

theorem length_sent_replyIncidents (epoch : Epoch) (i : Nat) (r : Request) :
    (sent (replyIncidents p chance epoch i r)).length =
      (replyIncidents p chance epoch i r).length := by
  rw [sent, List.length_filterMap_eq_countP, List.countP_eq_length]
  intro x hx
  obtain ⟨f, -, hf⟩ := List.mem_flatMap.1 hx
  obtain ⟨y, -, rfl⟩ := List.mem_map.1 hf
  rfl

/-- As many replies are sent as there are to the writes. -/
theorem length_sent (hp : p.Fits) (hturns : p.rebalanceEvery = 0) {n : Nat}
    (h : ∀ i r, firstRequest? p chance i = some r →
      (replyIncidents p chance initialEpoch i r).length = n) :
    (sent (agenda p chance count)).length = count * n := by
  have hwrite : ∀ i ∈ List.range count, (sent (firstIncidents p chance i)).length = n := by
    intro i _
    obtain ⟨r, hr⟩ := exists_firstRequest hp chance i
    rw [firstIncidents_eq hr, sent, List.filterMap_cons_none (reply?_of_isCreation i r)]
    exact (length_sent_replyIncidents _ i r).trans (h i r hr)
  rw [agenda_eq hturns, sent, ((List.mergeSort_perm _ _).filterMap _).length_eq,
    List.filterMap_flatMap, List.length_flatMap]
  refine (congrArg List.sum (List.map_congr_left hwrite)).trans ?_
  rw [List.map_const', List.sum_replicate_nat, List.length_range]

/-! ## Nothing but writes and replies -/

theorem Course.unoffered (C : Course p chance c) (hturns : p.rebalanceEvery = 0)
    (he : e ∈ C.events) : e.offer? = none := by
  rw [← Option.not_isSome_iff_eq_none]
  exact fun ho => C.changes_of_offer he ho hturns

/-- No node leaves the cluster. -/
theorem Course.restrict_not_mem (C : Course p chance c) (members : NodeSet) :
    .restrict members ∉ C.events := by
  intro he
  rcases C.tick_or_stop_or_planned he with htick | heq | hplanned
  · cases htick
  · cases heq
  · have hne : Event.restrict members ≠ .restrict members := hplanned.ne rfl rfl nofun
    exact hne rfl

/-- All that is ordered is what some write asks for. -/
theorem exists_request_of_order (hp : p.Fits) (hturns : p.rebalanceEvery = 0)
    (he : e ∈ story p chance none c) {o : Requirement × Epoch} (ho : e.order? = some o) :
    ∃ i r, firstRequest? p chance i = some r ∧ ∀ q, q ∈ o.1.pairs ↔ q ∈ r.pairs := by
  rcases mem_story he with htick | rfl | ⟨x, hx, rfl⟩
  · rw [Event.order?_of_isTick htick] at ho
    cases ho
  · cases ho
  · obtain ⟨i, -, r, hr, rfl | hx⟩ := (mem_agenda_first hp hturns).1 hx
    · obtain ⟨o', ho', hpairs⟩ := r.order?_event initialEpoch
      rw [ho'] at ho
      cases ho
      exact ⟨i, r, hr, hpairs⟩
    · have hnone := not_isCreation_of_mem_replyIncidents hx
      rw [Incident.isCreation, ho] at hnone
      cases hnone

/-- Whatever confirms is a reply to some write. -/
theorem exists_reply_of_confirms (hp : p.Fits) (hturns : p.rebalanceEvery = 0)
    (he : e ∈ story p chance none c) (hconfirms : e.Confirms) :
    ∃ i r, firstRequest? p chance i = some r ∧
      ∃ x ∈ replyIncidents p chance initialEpoch i r, e = x.event := by
  obtain ⟨c', n, y, hreply, -⟩ := hconfirms
  rcases mem_story he with htick | rfl | ⟨x, hx, rfl⟩
  · rw [Event.reply?_of_isTick htick] at hreply
    cases hreply
  · cases hreply
  · obtain ⟨i, -, r, hr, rfl | hx⟩ := (mem_agenda_first hp hturns).1 hx
    · cases r <;> cases hreply
    · exact ⟨i, r, hr, x, hx, rfl⟩

/-- What is played before an incident, up to its own instant. -/
def playedBefore (c : Coordinator) (before : List Incident) (x : Incident) : List Event :=
  played c before ++ (c.run (played c before)).moves x.due

theorem mem_playedBefore (h : e ∈ playedBefore c xs x) :
    e.isTick = true ∨ ∃ y ∈ xs, e = y.event := by
  rcases List.mem_append.1 h with h | h
  · exact mem_played h
  · exact .inl (Coordinator.isTick_of_mem_moves h)

theorem due_le_now (c : Coordinator) (xs : List Incident) (x : Incident) :
    x.due ≤ (c.run (playedBefore c xs x)).engine.now := by
  rw [playedBefore, run_append, Coordinator.now_run_moves]
  exact Nat.le_max_right _ _

/-- The next write is counted from those that were played. -/
theorem nextId_playedBefore (s : Settings) (xs : List Incident) (x : Incident) :
    ((Coordinator.new primary initialEpoch s).run
      (playedBefore (.new primary initialEpoch s) xs x)).nextId =
      nthId primary (xs.countP Incident.isCreation) := by
  rw [Coordinator.run_nextId, playedBefore, creations_append, creations_played, creations_map,
    Coordinator.creations_of_isTick fun e he => Coordinator.isTick_of_mem_moves he, Nat.add_zero]

/-- What is played when an incident comes up, and what soon after it. -/
theorem exists_story_split {before soon later : List Incident}
    (h : agenda p chance p.writes = before ++ x :: (soon ++ later)) (c : Coordinator) :
    ∃ es rest, played c (before ++ x :: soon) = playedBefore c before x ++ x.event :: es ∧
      story p chance none c = playedBefore c before x ++ x.event :: (es ++ rest) ∧
      ∀ y ∈ soon, y.event ∈ es := by
  have hplayed : ∀ xs, played c (before ++ x :: xs) = playedBefore c before x ++ x.event ::
      played ((c.run (played c before)).run (x.events (c.run (played c before)))) xs := by
    intro xs
    rw [played_append, played, Incident.events, playedBefore, List.append_assoc, List.append_assoc,
      List.singleton_append]
  obtain ⟨rest, hrest⟩ :
      ∃ rest, story p chance none c = played c (before ++ x :: soon) ++ rest := by
    have huntil : untilStop p chance none c = played c (agenda p chance p.writes) ++ _ := rfl
    rw [story, huntil, h, ← List.cons_append, ← List.append_assoc, played_append, List.append_assoc,
      List.append_assoc, List.append_assoc]
    exact ⟨_, rfl⟩
  refine ⟨_, rest, hplayed soon, ?_, fun y hy => event_mem_played hy⟩
  rw [hrest, hplayed, List.append_assoc, List.cons_append]

/-! ## Answered in time -/

/-- No reply takes as long as a write is given. -/
theorem delay_lt (hdelay : p.maxDelayMs < s.remoteTimeoutMs)
    (hyear : p.maxDelayMs < Duration.toMillis maxTimeout) :
    Duration.ofMillis p.maxDelayMs < min (Duration.ofMillis s.remoteTimeoutMs) maxTimeout := by
  refine Nat.lt_min.2 ⟨Nat.mul_lt_mul_of_pos_left hdelay (by decide), ?_⟩
  have hms : ∀ ms t : Nat, ms < t / 1000000 → 1000000 * ms < t := fun ms t h => by omega
  exact hms _ _ hyear

/-- All that a write asks for is answered, once the replies to it have come in. -/
theorem answered_of_replies {w : PendingWrite} {es : List Event}
    (hdrop : p.dropRate.rank = some 0) (hfail : p.failRate.rank = some 0 ∨ p.failRate = .one)
    (hid : w.id = nthId primary i) (hepoch : w.epoch = initialEpoch)
    (hpairs : ∀ q ∈ w.requirement.pairs, q ∈ r.pairs)
    (hes : ∀ x ∈ replyIncidents p chance initialEpoch i r, x.event ∈ es) :
    Coordinator.Answered w es := by
  intro q hq
  obtain ⟨x, hx, y, hevent, hsize, hyid, hyepoch, hanswers⟩ :=
    exists_answer hdrop hfail (hpairs q hq)
  refine ⟨x.event, hes x hx, y, fun c => ?_, hyid.trans hid.symm, ?_, hanswers⟩
  · rw [hevent]
    exact reply?_encode hsize c q.2
  · rw [hyepoch, hepoch]
    exact UInt32.le_refl _

section InTime

variable (hp : p.Fits) (hturns : p.rebalanceEvery = 0)
  (hwords : p.segments.toNat + p.copies.toNat ≤ UInt32.size)
  (hn : issuedIn p none ≤ UInt64.size)

include hp hturns hwords hn

/-- If no reply gets lost, a write is answered in time. -/
theorem write_not_timedOut (hlimit : s.maxPending = 0)
    (hdelay : Duration.ofMillis p.maxDelayMs < min (Duration.ofMillis s.remoteTimeoutMs) maxTimeout)
    (hdrop : p.dropRate.rank = some 0) (hfail : p.failRate.rank = some 0 ∨ p.failRate = .one)
    (hi : i < p.writes) (ms : Nat) :
    (ending p chance none s).engine.table.outcome? (nthId primary i) ≠
      some (.failure (.timeout ms)) := by
  obtain ⟨r, hr⟩ := exists_firstRequest hp chance i
  obtain ⟨before, soon, later, hagenda, hcount, hreplies, hdue⟩ := exists_window hp hturns hi hr
  obtain ⟨es, rest, hplayed, hstory, hes⟩ :=
    exists_story_split hagenda (.new primary initialEpoch s)
  have hplanned : ∀ x ∈ before ++ ⟨issueTime p i, r.event initialEpoch⟩ :: soon,
      Planned p x.event := by
    intro x hx
    have hmem : x ∈ agenda p chance p.writes := by
      rw [hagenda, ← List.cons_append, ← List.append_assoc]
      exact List.mem_append_left _ hx
    exact planned_of_mem_agenda hmem
  -- the run up to the write
  have hnow := due_le_now (.new primary initialEpoch s) before
    ⟨issueTime p i, r.event initialEpoch⟩
  have hnext := nextId_playedBefore s before ⟨issueTime p i, r.event initialEpoch⟩
  have hstop : .stop ∉ playedBefore (.new primary initialEpoch s) before
      ⟨issueTime p i, r.event initialEpoch⟩ := by
    intro h
    rcases mem_playedBefore h with htick | ⟨y, hy, heq⟩
    · cases htick
    · have hne : y.event ≠ .stop := (hplanned y (List.mem_append_left _ hy)).ne rfl rfl nofun
      exact hne heq.symm
  generalize playedBefore (.new primary initialEpoch s) before
    ⟨issueTime p i, r.event initialEpoch⟩ = first at hplayed hstory hnow hnext hstop
  rw [hcount] at hnext
  -- the write is registered, and given its time
  obtain ⟨o, horder, hpairs⟩ := r.order?_event initialEpoch
  have howed : o.pairs ≠ [] := by
    obtain ⟨q, hq⟩ := List.exists_mem_of_ne_nil _ (pairs_ne_nil_first hp hwords hr)
    exact List.ne_nil_of_mem ((hpairs q).2 hq)
  have hregistration := Coordinator.registration?_of_unlimited primary initialEpoch hlimit hstop
    horder howed
  rw [hnext] at hregistration
  have hgrant := r.grant?_event ((Coordinator.new primary initialEpoch s).run first) initialEpoch
  rw [Coordinator.run_usualTimeout (Coordinator.new_sound _ _ _)] at hgrant
  have hlate := now_run_played (c := .new primary initialEpoch s)
    (Coordinator.new_sound _ _ _) (Nat.zero_le _)
    fun x hx => ⟨hdue x hx, fun d => (hplanned x hx).ne rfl rfl nofun⟩
  rw [hplayed] at hlate
  have hoffers : ∀ e ∈ first ++ r.event initialEpoch :: (es ++ rest), e.offer? = none := by
    rw [← hstory, ← Course.events_ofRun hp hn]
    exact fun e he => Course.unoffered _ hturns he
  have hcreations : creations (first ++ r.event initialEpoch :: (es ++ rest)) ≤ UInt64.size := by
    rw [← hstory, ← Course.events_ofRun hp hn]
    exact (Course.creations_events _ hp).trans_le hn
  rw [ending, hstory]
  refine Coordinator.not_timedOut_of_answered hcreations hregistration hgrant
    (fun e he => hoffers e ?_) (answered_of_replies hdrop hfail rfl rfl
      (fun q hq => (hpairs q).1 hq) fun x hx => hes x (hreplies x hx)) ?_ ms
  · rw [← List.cons_append, ← List.append_assoc]
    exact List.mem_append_left _ he
  · exact Nat.lt_of_le_of_lt hlate (Nat.add_lt_add_of_le_of_lt hnow hdelay)

theorem not_timedOut (hlimit : s.maxPending = 0)
    (hdelay : Duration.ofMillis p.maxDelayMs < min (Duration.ofMillis s.remoteTimeoutMs) maxTimeout)
    (hdrop : p.dropRate.rank = some 0) (hfail : p.failRate.rank = some 0 ∨ p.failRate = .one)
    (id : WriteId) (ms : Nat) :
    (ending p chance none s).engine.table.outcome? id ≠ some (.failure (.timeout ms)) := by
  intro ho
  obtain ⟨k, hk, -⟩ := Option.bind_eq_some_iff.1 ho
  have hevolves := (Course.ofRun chance s hp hn).evolves hp
  rw [Course.ending_ofRun] at hevolves
  have hissued : WriteTable.Issued primary p.writes (ending p chance none s).engine.table :=
    hevolves.issued
  obtain ⟨horigin, hi⟩ := (hissued.handle?_isSome_iff hn).1 (Option.isSome_iff_exists.2 ⟨k, hk⟩)
  have hid : id = nthId primary id.seq.toNat := by
    rw [nthId, UInt64.ofNat_toNat, ← horigin]
  rw [hid] at ho
  exact write_not_timedOut hp hturns hwords hn hlimit hdelay hdrop hfail hi ms ho

theorem not_succeeded (hconfirms : ∀ i r, firstRequest? p chance i = some r →
      ∀ x ∈ replyIncidents p chance initialEpoch i r, ¬ x.event.Confirms) (id : WriteId) :
    (ending p chance none s).engine.table.outcome? id ≠ some .success := by
  intro ho
  let C : Course p chance (.new primary initialEpoch s) := .ofRun chance s hp hn
  have hstory : C.events = story p chance none (.new primary initialEpoch s) :=
    Course.events_ofRun hp hn
  have hoccasioned := C.occasioned hp hn
  rw [ending, ← hstory] at ho
  rcases hoccasioned.success id ho with ⟨e, he, o, horder, hnobody⟩ | ⟨e, he, hcause⟩
  · rw [hstory] at he
    obtain ⟨i, r, hr, hpairs⟩ := exists_request_of_order hp hturns he horder
    obtain ⟨q, hq⟩ := List.exists_mem_of_ne_nil _ (pairs_ne_nil_first hp hwords hr)
    rw [← hpairs, hnobody] at hq
    cases hq
  · rcases hcause with hconfirm | hoffer | ⟨members, rfl⟩
    · rw [hstory] at he
      obtain ⟨i, r, hr, x, hx, rfl⟩ := exists_reply_of_confirms hp hturns he hconfirm
      exact hconfirms i r hr x hx hconfirm
    · rw [C.unoffered hturns he] at hoffer
      cases hoffer
    · exact C.restrict_not_mem members he

variable {final : Progress} (hfinal : final.coordinator = ending p chance none s)

include hfinal

theorem report_timedOut (hlimit : s.maxPending = 0)
    (hdelay : Duration.ofMillis p.maxDelayMs < min (Duration.ofMillis s.remoteTimeoutMs) maxTimeout)
    (hdrop : p.dropRate.rank = some 0) (hfail : p.failRate.rank = some 0 ∨ p.failRate = .one)
    (bytes : Nat) : (final.report p bytes).tally.timedOut = 0 := by
  rw [← Course.ending_ofRun hp hn] at hfinal
  refine Course.report_eq_zero _ hp hn hfinal Tally.additive_timedOut rfl bytes fun id o ho => ?_
  rw [Course.ending_ofRun] at ho
  cases o with
  | success => rfl
  | failure f =>
    cases f with
    | timeout ms =>
      exact absurd ho (not_timedOut hp hturns hwords hn hlimit hdelay hdrop hfail id ms)
    | remote | topologyChanged | stopping | overloaded => rfl

theorem report_succeeded (hconfirms : ∀ i r, firstRequest? p chance i = some r →
      ∀ x ∈ replyIncidents p chance initialEpoch i r, ¬ x.event.Confirms) (bytes : Nat) :
    (final.report p bytes).tally.succeeded = 0 := by
  rw [← Course.ending_ofRun hp hn] at hfinal
  refine Course.report_eq_zero _ hp hn hfinal Tally.additive_succeeded rfl bytes fun id o ho => ?_
  rw [Course.ending_ofRun] at ho
  cases o with
  | success => exact absurd ho (not_succeeded hp hturns hwords hn hconfirms id)
  | failure f => cases f <;> rfl

end InTime

/-! ## Fates -/

theorem not_confirms_of_failing (hdrop : p.dropRate.rank = some 0) (hfail : p.failRate = .one)
    (hx : x ∈ replyIncidents p chance initialEpoch i r) : ¬ x.event.Confirms := by
  obtain ⟨f, -, hf⟩ := List.mem_flatMap.1 hx
  obtain ⟨y, hy, rfl⟩ := List.mem_map.1 hf
  rw [Forward.replies_of_failing hdrop hfail, List.mem_singleton] at hy
  intro hconfirms
  obtain ⟨c, n, z, hreply, hz⟩ := hconfirms
  rw [hy, reply?_encode f.textSize_failure] at hreply
  cases hreply
  exact hz _ _ _ rfl

theorem replyIncidents_of_losing (hdrop : p.dropRate = .one) (epoch : Epoch) (i : Nat)
    (r : Request) : replyIncidents p chance epoch i r = [] := by
  refine List.flatMap_eq_nil_iff.2 fun f _ => ?_
  rw [Forward.replies_of_losing hdrop, List.map_nil]

/-- How a simulation comes out, by what becomes of all its replies. -/
structure SharesFate (p : Parameters) (chance : Chance) (r : Report) : Prop where
  /-- If none fails or gets lost, all writes succeed, and every backup replies for every segment
  that a write touches. -/
  faultless : p.failRate.rank = some 0 → p.dropRate.rank = some 0 →
    r.tally = ⟨p.writes, 0, 0, 0, 0, 0⟩ ∧
      (sent (agenda p chance p.writes)).length = p.writes * p.batch * p.copies.toNat
  /-- If all fail, all writes fail. -/
  failing : p.failRate = .one → p.dropRate.rank = some 0 → r.tally = ⟨0, p.writes, 0, 0, 0, 0⟩
  /-- If all get lost, all writes time out, and nothing comes in. -/
  losing : p.dropRate = .one → p.failRate.rank = some 0 →
    r.tally = ⟨0, 0, p.writes, 0, 0, 0⟩ ∧ r.replyBytes = 0
  /-- The bytes that are reported are those of the replies that are sent. -/
  replyBytes : r.replyBytes = ((sent (agenda p chance p.writes)).map fun x => x.2.length).sum

/-- The fate of its replies decides how a simulation comes out. -/
theorem report_sharesFate (hp : p.Fits) (hturns : p.rebalanceEvery = 0)
    (hlimit : s.maxPending = 0)
    (hdelay : Duration.ofMillis p.maxDelayMs < min (Duration.ofMillis s.remoteTimeoutMs) maxTimeout)
    (hwords : p.segments.toNat + p.copies.toNat ≤ UInt32.size)
    (hn : issuedIn p none ≤ UInt64.size) {final : Progress}
    (hfinal : final.coordinator = ending p chance none s) :
    SharesFate p chance (final.report p (replyBytes (agenda p chance p.writes))) := by
  generalize hbytes : replyBytes (agenda p chance p.writes) = bytes
  have hconserved : Conserved p s p.writes (final.report p bytes) :=
    (Course.ofRun chance s hp hn).conserved hp hn
      (hfinal.trans (Course.ending_ofRun hp hn).symm) bytes
  have htotal := hconserved.total
  have hstopped := hconserved.stopped rfl
  have hinvalidated := hconserved.invalidated hturns
  have hrejected := hconserved.rejected hlimit
  refine ⟨fun hfail hdrop => ⟨?_, ?_⟩, fun hfail hdrop => ?_, fun hdrop hfail => ⟨?_, ?_⟩, ?_⟩
  · have hfailed := hconserved.failed hfail
    have htimedOut :=
      report_timedOut hp hturns hwords hn hfinal hlimit hdelay hdrop (.inl hfail) bytes
    rw [hfailed, htimedOut, hinvalidated, hstopped, hrejected] at htotal
    exact Tally.eq_of_counts htotal hfailed htimedOut hinvalidated hstopped hrejected
  · rw [length_sent hp hturns fun i r hr => (length_replyIncidents hdrop hfail).trans
      (length_pairs_first hp hwords hr), Nat.mul_assoc]
  · have htimedOut :=
      report_timedOut hp hturns hwords hn hfinal hlimit hdelay hdrop (.inr hfail) bytes
    have hsucceeded := report_succeeded hp hturns hwords hn hfinal
      (fun i r _ x hx => not_confirms_of_failing hdrop hfail hx) bytes
    rw [hsucceeded, htimedOut, hinvalidated, hstopped, hrejected, Nat.zero_add] at htotal
    exact Tally.eq_of_counts hsucceeded htotal htimedOut hinvalidated hstopped hrejected
  · have hfailed := hconserved.failed hfail
    have hsucceeded := report_succeeded hp hturns hwords hn hfinal
      (fun i r _ x hx => by rw [replyIncidents_of_losing hdrop] at hx; cases hx) bytes
    rw [hsucceeded, hfailed, hinvalidated, hstopped, hrejected, Nat.zero_add] at htotal
    exact Tally.eq_of_counts hsucceeded hfailed htotal hinvalidated hstopped hrejected
  · have hsent : (sent (agenda p chance p.writes)).length = p.writes * 0 :=
      length_sent hp hturns fun i r _ =>
        congrArg List.length (replyIncidents_of_losing hdrop initialEpoch i r)
    rw [← hbytes, replyBytes_eq, List.eq_nil_of_length_eq_zero hsent]
    rfl
  · rw [← hbytes]
    exact replyBytes_eq _

/-- **Replies decide.** Let the assignment never change, no limit be set on the writes that wait,
every reply take less time than a write is given, and the simulation not be asked to end. Whatever
segments and delays are drawn, all writes succeed if no reply fails or gets lost; all of them fail
if every reply fails; and all of them time out if every reply gets lost. The number of writes is a
word of 64 bits. -/
theorem run_sharesFate (p : Parameters) (chance : Chance) {c : Coordinator} (hp : p.check = .ok p)
    (hturns : p.rebalanceEvery = 0)
    (hc : (Coordinator.startFrom primary initialEpoch p.config).value = .ok c)
    (hlimit : c.settings.maxPending = 0) (hdelay : p.maxDelayMs < c.settings.remoteTimeoutMs)
    (hyear : p.maxDelayMs < Duration.toMillis maxTimeout)
    (hwords : p.segments.toNat + p.copies.toNat ≤ UInt32.size) (hn : p.writes < UInt64.size) :
    ∃ r, (run p chance none).1 = .ok r ∧ SharesFate p chance r := by
  have hfits := Parameters.fits_of_check hp
  have hle : p.writes ≤ UInt64.size := Nat.le_of_lt hn
  refine ⟨_, run_eq hc, ?_⟩
  obtain ⟨s, rfl⟩ := exists_new_of_startFrom hc
  exact report_sharesFate hfits hturns hlimit (delay_lt hdelay hyear) hwords hle
    (coordinator_playAll p chance none ⟨.new primary initialEpoch s, ∅, []⟩)

/-- Three writes to two segments each, with two backups of each segment. -/
def threeWrites (fail drop : Binary64) : Parameters :=
  { Parameters.default with writes := 3, batch := 2, failRate := fail, dropRate := drop }

theorem run_sharesFate_threeWrites :
    (∃ r, (run (threeWrites .zero .zero) (.seeded 1) none).1 = .ok r ∧
      r.tally = ⟨3, 0, 0, 0, 0, 0⟩ ∧
      (sent (agenda (threeWrites .zero .zero) (.seeded 1) 3)).length = 12) ∧
    (∃ r, (run (threeWrites .one .zero) (.seeded 1) none).1 = .ok r ∧
      r.tally = ⟨0, 3, 0, 0, 0, 0⟩) ∧
    ∃ r, (run (threeWrites .zero .one) (.seeded 1) none).1 = .ok r ∧
      r.tally = ⟨0, 0, 3, 0, 0, 0⟩ ∧ r.replyBytes = 0 := by
  obtain ⟨r, hr, h⟩ := run_sharesFate (threeWrites .zero .zero) (.seeded 1)
    (by decide +kernel) rfl (c := .new primary initialEpoch .default) rfl rfl (by decide)
    (by decide) (by decide) (by decide)
  obtain ⟨r₁, hr₁, h₁⟩ := run_sharesFate (threeWrites .one .zero) (.seeded 1)
    (by decide +kernel) rfl (c := .new primary initialEpoch .default) rfl rfl (by decide)
    (by decide) (by decide) (by decide)
  obtain ⟨r₂, hr₂, h₂⟩ := run_sharesFate (threeWrites .zero .one) (.seeded 1)
    (by decide +kernel) rfl (c := .new primary initialEpoch .default) rfl rfl (by decide)
    (by decide) (by decide) (by decide)
  exact ⟨⟨r, hr, h.faultless rfl rfl⟩, ⟨r₁, hr₁, h₁.failing rfl rfl⟩, r₂, hr₂, h₂.losing rfl rfl⟩

end BackupAcks.Simulation
