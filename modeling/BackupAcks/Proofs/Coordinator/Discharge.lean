import BackupAcks.Proofs.Coordinator.Steps

/-!
# Which pairs an event discharges

A waiting write meets an assignment when one is accepted, and when it is itself registered behind
the active one (`Meets`). The assignment applies to the write if it is newer and the node is primary
of all that is outstanding (`Applies`). A pair is discharged by a confirmation of its owner, by an
assignment that applies and does not list the owner, or by the owner's departure (`Discharges`).

Every ruling accounts for exactly these pairs: what goes on waiting waits for the pairs that are not
discharged, and a write succeeds just when all of them are.

Results:
* `Fenced.ruling_accounts`: the ruling of every event accounts for the pairs that it discharges;
* `Fenced.run`: in every run no write that waits is behind the stored assignment.
-/
namespace BackupAcks

namespace Coordinator

open WriteTable (only only_self only_of_ne)
open PendingWrite (andThen Lawful)

/-- The event holds the assignment `v` against the write `w`. -/
inductive Meets (c : Coordinator) (w : PendingWrite) (e : Event) (v : Ownership) : Prop
  /-- The assignment is offered and accepted. -/
  | offered (offer : e.offer? = some v) (accepted : c.engine.view.epoch ≤ v.epoch)
  /-- The write is registered while the assignment is in force. -/
  | registered (entry : c.registration? e = some w) (latest : c.engine.view.latest = some v)

/-- The assignment that the write meets is newer, and the node is primary of all that the write
waits for. -/
structure Applies (c : Coordinator) (w : PendingWrite) (e : Event) (v : Ownership) : Prop where
  meets : c.Meets w e v
  newer : w.epoch < v.epoch
  primary : ∀ p ∈ w.requirement.pairs, v.primary? p.1 = some c.engine.view.home

/-- The event discharges the pair `p` of the waiting write `w`. -/
inductive Discharges (c : Coordinator) (w : PendingWrite) (e : Event) (p : Pair) : Prop
  /-- The owner confirms the write. -/
  | ack {t : Epoch} (reply : c.reply? e = some (p.2, .ack w.id t)) (current : w.epoch ≤ t)
  /-- The owner confirms the segment; a write to one segment takes any. -/
  | segmentAck {t : Epoch} {s : SegmentId} (reply : c.reply? e = some (p.2, .segmentAck w.id t s))
      (current : w.epoch ≤ t) (reaches : s = p.1 ∨ ∃ k ns, w.requirement = .single k ns)
  /-- The owner lost the segment. -/
  | lost {v : Ownership} (applies : c.Applies w e v) (lost : p.2 ∉ v.ownersOf p.1)
  /-- The owner left. -/
  | departed {members : NodeSet} (change : e = .restrict members) (left : p.2 ∉ members)

/-- The ruling `ρ` on `w` takes off exactly the discharged pairs, and moves the write to the
assignment that applies. -/
structure Accounts (c : Coordinator) (w : PendingWrite) (e : Event) (ρ : Ruling) : Prop where
  pairs : ∀ w', ρ.remaining? w = some w' →
    ∀ p, p ∈ w'.requirement.pairs ↔ p ∈ w.requirement.pairs ∧ ¬ c.Discharges w e p
  moved : ∀ w' v, ρ.remaining? w = some w' → c.Meets w e v → w.epoch < v.epoch →
    c.Applies w e v ∧ w'.epoch = v.epoch
  kept : ∀ w', ρ.remaining? w = some w' → (∀ v, ¬ c.Applies w e v) → w'.epoch = w.epoch
  outcome : ∀ o, ρ.outcome? = some o →
    (o = .success ↔ ∀ p ∈ w.requirement.pairs, c.Discharges w e p)

variable {c : Coordinator} {w w' : PendingWrite} {e : Event} {ρ : Ruling} {p : Pair}

/-! ## Ways to account -/

/-- The end of a write accounts if it is a success just when all is discharged. -/
theorem Accounts.of_settled {o : Outcome} (h : ρ = .settled o)
    (ho : o = .success ↔ ∀ p ∈ w.requirement.pairs, c.Discharges w e p) : c.Accounts w e ρ := by
  have hnone : ∀ w', ¬ ρ.remaining? w = some w' := by
    intro w' hw'
    rw [h] at hw'
    cases hw'
  refine ⟨fun w' hw' => absurd hw' (hnone w'), fun w' v hw' => absurd hw' (hnone w'),
    fun w' hw' => absurd hw' (hnone w'), ?_⟩
  intro o' ho'
  rw [h] at ho'
  cases ho'
  exact ho

theorem Accounts.of_drops {drop : Pair → Prop} {t : Epoch} (h : ρ.Drops drop t w)
    (hdrop : ∀ p, drop p ↔ c.Discharges w e p)
    (hmoved : ∀ v, c.Meets w e v → w.epoch < v.epoch → c.Applies w e v ∧ t = v.epoch)
    (hkept : (∀ v, ¬ c.Applies w e v) → t = w.epoch) : c.Accounts w e ρ := by
  cases ρ with
  | stale current => cases h
  | waiting w' =>
    obtain ⟨-, he, -, hp⟩ := h
    refine ⟨?_, ?_, ?_, fun o ho => (by cases ho)⟩
    · intro x hx p
      cases hx
      rw [hp, hdrop]
    · intro x v hx hv hlt
      cases hx
      obtain ⟨ha, ht⟩ := hmoved v hv hlt
      exact ⟨ha, he.trans ht⟩
    · intro x hx hn
      cases hx
      exact he.trans (hkept hn)
  | settled o =>
    cases o with
    | failure f => cases h
    | success => exact .of_settled rfl ⟨fun _ p hp => (hdrop p).1 (h p hp), fun _ => rfl⟩

theorem Accounts.of_kept (h : ρ.remaining? w = some w) (ho : ρ.outcome? = none)
    (hd : ∀ p, ¬ c.Discharges w e p) (hm : ∀ v, c.Meets w e v → v.epoch ≤ w.epoch) :
    c.Accounts w e ρ := by
  refine ⟨?_, ?_, ?_, fun o hs => by rw [ho] at hs; cases hs⟩
  · intro x hx p
    rw [h] at hx
    cases hx
    simp [hd p]
  · intro x v hx hv hlt
    exact absurd (hm v hv) (UInt32.not_le.2 hlt)
  · intro x hx _
    rw [h] at hx
    cases hx
    rfl

theorem Accounts.of_failure {f : Failure} (h : ρ = .settled (.failure f))
    (hp : ∃ p ∈ w.requirement.pairs, ¬ c.Discharges w e p) : c.Accounts w e ρ := by
  obtain ⟨p, hp, hd⟩ := hp
  refine .of_settled h ⟨fun ho => ?_, fun hall => absurd (hall p hp) hd⟩
  cases ho

/-! ## Events of each kind -/

theorem not_meets (ho : e.offer? = none) (hr : c.registration? e ≠ some w) (v : Ownership) :
    ¬ c.Meets w e v := by
  intro hx
  rcases hx with ⟨h, -⟩ | ⟨h, -⟩
  · rw [ho] at h; cases h
  · exact hr h

theorem meets_activate {u v : Ownership} (h : c.Meets w (.activate v) u) :
    u = v ∧ c.engine.view.epoch ≤ v.epoch := by
  rcases h with ⟨ho, ha⟩ | ⟨h, -⟩
  · cases ho
    exact ⟨rfl, ha⟩
  · cases h

/-- A write that is being registered meets the stored assignment. -/
theorem latest_of_meets (ho : e.offer? = none) {u : Ownership} (h : c.Meets w e u) :
    c.engine.view.latest = some u := by
  rcases h with ⟨hu, -⟩ | ⟨-, hu⟩
  · rw [ho] at hu; cases hu
  · exact hu

/-- An event that is neither a reply nor a change of membership discharges only through an
assignment. -/
theorem discharges_iff_lost (hr : c.reply? e = none) (hm : ∀ members, e ≠ .restrict members) :
    c.Discharges w e p ↔ ∃ v, c.Applies w e v ∧ p.2 ∉ v.ownersOf p.1 := by
  constructor
  · intro hx
    rcases hx with ⟨h, -⟩ | ⟨h, -, -⟩ | ⟨ha, hl⟩ | ⟨h, -⟩
    · rw [hr] at h; cases h
    · rw [hr] at h; cases h
    · exact ⟨_, ha, hl⟩
    · exact absurd h (hm _)
  · intro hx
    obtain ⟨v, ha, hl⟩ := hx
    exact .lost ha hl

theorem reaches_iff {r : Requirement} {k s : SegmentId} :
    r.Reaches (some k) s ↔ k = s ∨ ∃ j ns, r = .single j ns := by
  cases r <;> simp [Requirement.Reaches]

theorem discharges_of_reply {n : NodeId} {r : Reply} (h : c.reply? e = some (n, r)) :
    c.Discharges w e p ↔ r.id = w.id ∧ w.epoch ≤ r.epoch ∧ p.2 = n ∧
      match r with
      | .ack _ _ => True
      | .segmentAck _ _ s => w.requirement.Reaches (some s) p.1
      | .errorAck _ _ _ => False := by
  constructor
  · intro hx
    rcases hx with ⟨h', ht⟩ | ⟨h', ht, hs⟩ | ⟨⟨hm, -, -⟩, -⟩ | ⟨rfl, -⟩
    · rw [h] at h'
      cases h'
      exact ⟨rfl, ht, rfl, trivial⟩
    · rw [h] at h'
      cases h'
      exact ⟨rfl, ht, rfl, reaches_iff.2 hs⟩
    · refine absurd hm (not_meets (offer?_of_reply h) ?_ _)
      rw [registration?_of_order (order?_of_reply h)]
      simp
    · cases h
  · intro hx
    obtain ⟨hid, ht, rfl, hr⟩ := hx
    cases r with
    | ack id t => exact .ack (by rw [← hid]; exact h) ht
    | segmentAck id t s => exact .segmentAck (by rw [← hid]; exact h) ht (reaches_iff.1 hr)
    | errorAck id t cause => cases hr

/-! ## Each event accounts -/

theorem reply_accounts (hl : w.requirement.Live) {n : NodeId} {r : Reply}
    (h : c.reply? e = some (n, r)) : c.Accounts w e (c.ruling e w) := by
  have hmeets : ∀ v, ¬ c.Meets w e v := not_meets (offer?_of_reply h)
    (by rw [registration?_of_order (order?_of_reply h)]; simp)
  have hmoved : ∀ v, c.Meets w e v → w.epoch < v.epoch → c.Applies w e v ∧ w.epoch = v.epoch :=
    fun v hv => absurd hv (hmeets v)
  rw [ruling_of_reply h]
  by_cases hid : w.id = r.id
  · by_cases ht : w.epoch ≤ r.epoch
    · rw [← hid, only_self]
      cases r with
      | ack id t =>
        refine .of_drops (PendingWrite.ack_drops ht) (fun p => ?_) hmoved fun _ => rfl
        rw [discharges_of_reply h]
        cases hr : w.requirement <;> simp [hid, ht, Requirement.Reaches]
      | segmentAck id t s =>
        refine .of_drops (PendingWrite.ack_drops ht) (fun p => ?_) hmoved fun _ => rfl
        rw [discharges_of_reply h]
        simp [hid, ht]
      | errorAck id t cause =>
        refine .of_failure (PendingWrite.error_current ht) ?_
        obtain ⟨p, hp⟩ := hl.exists_mem_pairs
        exact ⟨p, hp, by simp [discharges_of_reply h]⟩
    · have hstale : only r.id (r.ruling n) w = .stale w.epoch := by
        rw [← hid, only_self]
        cases r with
        | ack id t => exact PendingWrite.ack_stale (UInt32.not_le.1 ht)
        | segmentAck id t s => exact PendingWrite.ack_stale (UInt32.not_le.1 ht)
        | errorAck id t cause => exact PendingWrite.error_stale (UInt32.not_le.1 ht)
      rw [hstale]
      refine .of_kept rfl rfl (fun p => ?_) fun v hv => absurd hv (hmeets v)
      simp [discharges_of_reply h, ht]
  · rw [only_of_ne _ hid]
    refine .of_kept rfl rfl (fun p => ?_) fun v hv => absurd hv (hmeets v)
    simp [discharges_of_reply h, Ne.symm hid]

theorem adopt_accounts (hl : w.requirement.Live) {v : Ownership} (hv : c.Meets w e v)
    (huniq : ∀ u, c.Meets w e u → u = v)
    (hd : ∀ p, c.Discharges w e p ↔ ∃ u, c.Applies w e u ∧ p.2 ∉ u.ownersOf p.1) :
    c.Accounts w e (w.adopt c.engine.view.home v) := by
  by_cases hold : v.epoch ≤ w.epoch
  · have hnone : ∀ u, ¬ c.Applies w e u := by
      intro u hu
      rw [← huniq u hu.meets] at hold
      exact UInt32.not_lt.2 hold hu.newer
    rw [PendingWrite.adopt_old hold]
    refine .of_kept rfl rfl (fun p hp => ?_) fun u hu => by rw [huniq u hu]; exact hold
    obtain ⟨u, hu, -⟩ := (hd p).1 hp
    exact hnone u hu
  · have hlt := UInt32.not_le.1 hold
    by_cases hm : ∀ p ∈ w.requirement.pairs, v.primary? p.1 = some c.engine.view.home
    · have happ : c.Applies w e v := ⟨hv, hlt, hm⟩
      refine .of_drops (PendingWrite.adopt_drops hl hlt hm) (fun p => ?_) ?_ ?_
      · rw [hd]
        constructor
        · intro hp
          exact ⟨v, happ, hp⟩
        · intro h
          obtain ⟨u, hu, hp⟩ := h
          rw [← huniq u hu.meets]
          exact hp
      · intro u hu _
        rw [huniq u hu]
        exact ⟨happ, rfl⟩
      · intro hn
        exact absurd happ (hn v)
    · refine .of_failure (PendingWrite.adopt_moved hl hlt hm) ?_
      obtain ⟨p, hp⟩ := hl.exists_mem_pairs
      refine ⟨p, hp, fun hdp => ?_⟩
      obtain ⟨u, hu, -⟩ := (hd p).1 hdp
      rw [huniq u hu.meets] at hu
      exact hm hu.primary

theorem activate_accounts (hl : w.requirement.Live) (v : Ownership) :
    c.Accounts w (.activate v) (c.ruling (.activate v) w) := by
  have hd : ∀ p, c.Discharges w (.activate v) p ↔
      ∃ u, c.Applies w (.activate v) u ∧ p.2 ∉ u.ownersOf p.1 :=
    fun p => discharges_iff_lost rfl (by intro m h; cases h)
  by_cases hold : v.epoch < c.engine.view.epoch
  · simp only [ruling, if_pos hold]
    have hnone : ∀ u, ¬ c.Meets w (.activate v) u :=
      fun u hu => UInt32.not_lt.2 (meets_activate hu).2 hold
    refine .of_kept rfl rfl (fun p hp => ?_) fun u hu => absurd hu (hnone u)
    obtain ⟨u, hu, -⟩ := (hd p).1 hp
    exact hnone u hu.meets
  · simp only [ruling, if_neg hold]
    exact adopt_accounts hl (.offered rfl (UInt32.not_lt.1 hold)) (fun u hu => (meets_activate hu).1) hd

theorem restrict_accounts (members : NodeSet) :
    c.Accounts w (.restrict members) (c.ruling (.restrict members) w) := by
  have hmeets : ∀ v, ¬ c.Meets w (.restrict members) v :=
    not_meets rfl (by intro h; cases h)
  refine .of_drops PendingWrite.dropDeparted_drops (fun p => ?_)
    (fun v hv => absurd hv (hmeets v)) fun _ => rfl
  constructor
  · exact .departed rfl
  · intro hx
    rcases hx with ⟨h, -⟩ | ⟨h, -, -⟩ | ⟨ha, -⟩ | ⟨h, hp⟩
    · cases h
    · cases h
    · exact absurd ha.meets (hmeets _)
    · cases h
      exact hp

/-- An event of no account: nothing comes in and nothing changes owners. -/
theorem not_discharges (hreply : c.reply? e = none) (ho : e.offer? = none)
    (hm : ∀ members, e ≠ .restrict members) (hr : c.registration? e ≠ some w) :
    ¬ c.Discharges w e p := by
  intro hd
  obtain ⟨v, ha, -⟩ := (discharges_iff_lost hreply hm).1 hd
  exact not_meets ho hr v ha.meets

/-- Such an event leaves a write as it is, or ends it as a failure. -/
theorem kept_or_failed_accounts (hl : w.requirement.Live) (hreply : c.reply? e = none)
    (ho : e.offer? = none) (hm : ∀ members, e ≠ .restrict members)
    (hr : c.registration? e ≠ some w)
    (h : ρ = .waiting w ∨ ∃ f, ρ = .settled (.failure f)) : c.Accounts w e ρ := by
  rcases h with rfl | ⟨f, rfl⟩
  · exact .of_kept rfl rfl (fun p => not_discharges hreply ho hm hr)
      fun v hv => absurd hv (not_meets ho hr v)
  · obtain ⟨p, hp⟩ := hl.exists_mem_pairs
    exact .of_failure rfl ⟨p, hp, not_discharges hreply ho hm hr⟩

/-! ## The state between events -/

/-- What holds between events: the table is sound, the stored assignment is the active one, and no
write is behind it. -/
structure Fenced (c : Coordinator) : Prop where
  sound : c.engine.table.Sound
  current : ∀ v, c.engine.view.latest = some v → v.epoch = c.engine.view.epoch
  fence : ∀ v, c.engine.view.latest = some v → ∀ w ∈ c.engine.table.pending, v.epoch ≤ w.epoch

theorem Fenced.live (h : c.Fenced) {id : WriteId} (hw : c.waiting? e id = some w) :
    w.requirement.Live := by
  rw [← find?_entered] at hw
  exact (entered_sound h.sound).live_of_find? hw

/-- Catching up is meeting the active assignment. -/
theorem Fenced.catchUpRuling_eq (h : c.Fenced) :
    c.engine.view.catchUpRuling w.epoch w =
      c.engine.view.latest.elim (.waiting w) fun v => w.adopt c.engine.view.home v := by
  unfold ActiveView.catchUpRuling
  cases hv : c.engine.view.latest with
  | none => simp
  | some v =>
    split
    · rename_i ha
      rw [← h.current v hv] at ha
      exact (PendingWrite.adopt_old ha).symm
    · rfl

/-- A write that is registered accounts for what the active assignment discharges. -/
theorem Fenced.catchUp_accounts (h : c.Fenced) (hr : c.registration? e = some w)
    (hl : w.requirement.Live) :
    c.Accounts w e (c.engine.view.catchUpRuling w.epoch w) := by
  obtain ⟨-, ho, -⟩ := registration?_eq_some_iff.1 hr
  have hd : ∀ p, c.Discharges w e p ↔ ∃ u, c.Applies w e u ∧ p.2 ∉ u.ownersOf p.1 :=
    fun p => discharges_iff_lost (reply?_of_order ho) (ne_restrict_of_order ho)
  have hmeets : ∀ u, c.Meets w e u → c.engine.view.latest = some u :=
    fun u => latest_of_meets (offer?_of_order ho)
  rw [h.catchUpRuling_eq]
  cases hv : c.engine.view.latest with
  | none =>
    have hnone : ∀ u, ¬ c.Meets w e u := by
      intro u hu
      have := hmeets u hu
      rw [hv] at this
      cases this
    refine .of_kept rfl rfl (fun p hp => ?_) fun u hu => absurd hu (hnone u)
    obtain ⟨u, hu, -⟩ := (hd p).1 hp
    exact hnone u hu.meets
  | some v =>
    refine adopt_accounts hl (.registered hr hv) (fun u hu => ?_) hd
    have := hmeets u hu
    rw [hv] at this
    exact (Option.some.inj this).symm

/-- A registered write catches up; where no deadline can be set, it fails if it goes on waiting. -/
theorem enrolRuling_of_registration (hr : c.registration? e = some w) (hl : w.requirement.Live) :
    c.enrolRuling w.requirement w.epoch w =
      if c.engine.desk.isOpen then c.engine.view.catchUpRuling w.epoch w
      else .settled ((c.engine.view.catchUpRuling w.epoch w).outcome?.getD (.failure .stopping)) := by
  obtain ⟨hid, -, hi⟩ := registration?_eq_some_iff.1 hr
  have hfirst : only c.nextId (c.engine.view.catchUpRuling w.epoch) w =
      c.engine.view.catchUpRuling w.epoch w := by rw [← hid, only_self]
  cases hc : c.engine.view.catchUpRuling w.epoch w with
  | stale t => exact absurd hc (catchUpRuling_ne_stale _ _ _ t)
  | settled o =>
    rw [hc] at hfirst
    rw [enrolRuling, PendingWrite.andThen_of_settled hfirst]
    exact (ite_self _).symm
  | waiting x =>
    rw [hc] at hfirst
    have hx := (lawful_catchUp c.engine.view w.epoch w x hl hc).id_eq
    have hsecond : only c.nextId (c.deadlineRuling w.requirement) x =
        if c.engine.desk.isOpen then .waiting x else .settled (.failure .stopping) := by
      rw [← hid, ← hx, only_self, deadlineRuling, hi]
      simp
    rw [enrolRuling, PendingWrite.andThen_of_waiting hfirst, hsecond]
    · rfl
    · intro t ht
      rw [hsecond] at ht
      split at ht <;> cases ht

theorem exists_remaining? (h : ρ.outcome? = none) : ∃ x, ρ.remaining? w = some x := by
  cases ρ with
  | stale t => exact ⟨w, rfl⟩
  | waiting x => exact ⟨x, rfl⟩
  | settled o => cases h

/-- So does a write that is registered and then given no deadline: it fails with something still
outstanding. -/
theorem Fenced.registered_accounts (h : c.Fenced) (hr : c.registration? e = some w)
    (hl : w.requirement.Live) : c.Accounts w e (c.enrolRuling w.requirement w.epoch w) := by
  have hcaught := h.catchUp_accounts hr hl
  rw [enrolRuling_of_registration hr hl]
  split
  · exact hcaught
  · cases ho : (c.engine.view.catchUpRuling w.epoch w).outcome? with
    | some o => exact .of_settled rfl (hcaught.outcome o ho)
    | none =>
      -- a write that still waits after catching up has a pair that was not discharged
      obtain ⟨x, hx⟩ := exists_remaining? (w := w) ho
      have hlx := ((lawful_catchUp c.engine.view w.epoch).remaining hl hx).live
      obtain ⟨p, hp⟩ := hlx.exists_mem_pairs
      exact .of_failure rfl ⟨p, (hcaught.pairs x hx p).1 hp⟩

/-- The registration of one write leaves the others as they are. -/
theorem Fenced.enrolRuling_of_ne (h : c.Fenced) {o : Requirement × Epoch}
    (ho : e.order? = some o) (hw : c.waiting? e w.id = some w) (hr : c.registration? e ≠ some w) :
    c.enrolRuling o.1 o.2 w = .waiting w := by
  obtain ⟨hnew, hf⟩ := (waiting?_eq_some_iff.1 hw).resolve_left fun hreg => hr hreg.1
  have hfirst : only c.nextId (c.engine.view.catchUpRuling o.2) w = .waiting w := by
    unfold only ActiveView.catchUpRuling
    split
    · split
      · rfl
      · split
        · rfl
        · rename_i v hv
          exact PendingWrite.adopt_old (h.fence v hv w (WriteTable.mem_of_find? hf))
    · rfl
  have hsecond : only c.nextId (c.deadlineRuling o.1) w = .waiting w := by
    by_cases hid : w.id = c.nextId
    · -- under its identifier another write was turned away, which sets no deadline
      have hi : c.engine.table.immediateOutcome o.1 ≠ none := by
        intro hi
        refine hnew ⟨c.nextId, o.2, o.1⟩ (registration?_eq_some_iff.2 ⟨rfl, ho, hi⟩) hid.symm
      simp [only, hid, deadlineRuling, Option.isSome_iff_ne_none.2 hi]
    · exact only_of_ne _ hid
  have hnever : ∀ t, only c.nextId (c.deadlineRuling o.1) w ≠ .stale t := by
    intro t ht
    rw [hsecond] at ht
    cases ht
  rw [enrolRuling, PendingWrite.andThen_of_waiting hfirst hnever, hsecond]

/-- The remaining events leave a write as it is, or end it as a failure. -/
theorem ruling_of_quiet (ho : e.order? = none) (hreply : c.reply? e = none) (hv : e.offer? = none)
    (hm : ∀ members, e ≠ .restrict members) (w : PendingWrite) :
    c.ruling e w = .waiting w ∨ ∃ f, c.ruling e w = .settled (.failure f) := by
  cases e with
  | create | createWithTimeout | createSegmented => cases ho
  | ack | segmentAck | error | failLocally | reply => cases hreply
  | bytes sender bytes =>
    cases hd : Reply.decode bytes with
    | ok r => simp [reply?, hd, Except.toOption] at hreply
    | error reason => exact .inl (by simp only [ruling, hd])
  | activate => cases hv
  | restrict members => exact absurd rfl (hm members)
  | stop => exact .inr ⟨.stopping, rfl⟩
  | expire =>
    simp only [ruling, Deadline.ruling]
    split
    · exact .inl rfl
    · exact .inr ⟨_, rfl⟩
  | sweeperLost | advance | receive => exact .inl rfl

/-- **Every event accounts for the pairs it discharges.** -/
theorem Fenced.ruling_accounts (h : c.Fenced) (hw : c.waiting? e w.id = some w) :
    c.Accounts w e (c.ruling e w) := by
  have hl := h.live hw
  cases ho : e.order? with
  | some o =>
    rw [ruling_of_order ho]
    by_cases hr : c.registration? e = some w
    · obtain ⟨-, how, -⟩ := registration?_eq_some_iff.1 hr
      rw [ho] at how
      cases how
      exact h.registered_accounts hr hl
    · exact kept_or_failed_accounts hl (reply?_of_order ho) (offer?_of_order ho)
        (ne_restrict_of_order ho) hr (.inl (h.enrolRuling_of_ne ho hw hr))
  | none =>
    have hr : c.registration? e ≠ some w := by rw [registration?_of_order ho]; simp
    cases hreply : c.reply? e with
    | some x => exact reply_accounts hl hreply
    | none =>
      cases hv : e.offer? with
      | some v =>
        rw [eq_activate_of_offer hv]
        exact activate_accounts hl v
      | none =>
        by_cases hm : ∃ members, e = .restrict members
        · obtain ⟨members, rfl⟩ := hm
          exact restrict_accounts members
        · have hm' : ∀ members, e ≠ .restrict members := fun members he => hm ⟨members, he⟩
          exact kept_or_failed_accounts hl hreply hv hm' hr (ruling_of_quiet ho hreply hv hm' w)

/-! ## What goes on waiting -/

theorem Accounts.epoch_le (h : c.Accounts w e ρ) (hw : ρ.remaining? w = some w') :
    w.epoch ≤ w'.epoch := by
  by_cases ha : ∃ v, c.Applies w e v
  · obtain ⟨v, ha⟩ := ha
    rw [(h.moved w' v hw ha.meets ha.newer).2]
    exact UInt32.le_of_lt ha.newer
  · rw [h.kept w' hw fun v hv => ha ⟨v, hv⟩]
    exact UInt32.le_refl _

/-- What goes on waiting is not behind an assignment that it met. -/
theorem Accounts.le_of_meets (h : c.Accounts w e ρ) (hw : ρ.remaining? w = some w') {v : Ownership}
    (hv : c.Meets w e v) : v.epoch ≤ w'.epoch := by
  by_cases hold : v.epoch ≤ w.epoch
  · exact UInt32.le_trans hold (h.epoch_le hw)
  · rw [(h.moved w' v hw hv (UInt32.not_le.1 hold)).2]
    exact UInt32.le_refl _

theorem id_of_waiting? {id : WriteId} (hw : c.waiting? e id = some w) : w.id = id := by
  rcases waiting?_eq_some_iff.1 hw with ⟨-, hid⟩ | ⟨-, hf⟩
  · exact hid
  · exact WriteTable.id_of_find? hf

/-- What waits after an event is what the ruling left of what waited when it came. -/
theorem Fenced.entry_of_step (h : c.Fenced) {id : WriteId}
    (hf : (c.step e).value.2.engine.table.find? id = some w') :
    ∃ w, c.waiting? e id = some w ∧ (c.ruling e w).remaining? w = some w' ∧
      c.Accounts w e (c.ruling e w) := by
  rw [(step_follows h.sound e).find?_eq, find?_entered, Option.bind_eq_some_iff] at hf
  obtain ⟨w, hw, hrem⟩ := hf
  have hid := id_of_waiting? hw
  rw [← hid] at hw ⊢
  exact ⟨w, hw, hrem, h.ruling_accounts hw⟩

/-- Every write has met the active assignment, now or before. -/
theorem meets_or_waited {id : WriteId} {v : Ownership}
    (hv : (c.step e).value.2.engine.view.latest = some v) (hw : c.waiting? e id = some w) :
    c.Meets w e v ∨ c.engine.view.latest = some v ∧ c.engine.table.find? id = some w := by
  rw [step_view] at hv
  cases ho : e.offer? with
  | none =>
    rw [ho] at hv
    rcases waiting?_eq_some_iff.1 hw with ⟨hr, -⟩ | ⟨-, hf⟩
    · exact .inl (.registered hr hv)
    · exact .inr ⟨hv, hf⟩
  | some u =>
    have hr := registration?_of_order (c := c) (order?_of_offer ho)
    rw [ho, Option.elim_some, ActiveView.offered] at hv
    split at hv
    · rcases waiting?_eq_some_iff.1 hw with ⟨hreg, -⟩ | ⟨-, hf⟩
      · rw [hr] at hreg; cases hreg
      · exact .inr ⟨hv, hf⟩
    · rename_i ha
      cases hv
      exact .inl (.offered ho (UInt32.not_lt.1 ha))

theorem Fenced.step (h : c.Fenced) (e : Event) : (c.step e).value.2.Fenced := by
  refine ⟨step_sound h.sound e, ?_, ?_⟩
  · intro v hv
    rw [step_view] at hv ⊢
    cases ho : e.offer? with
    | none =>
      rw [ho] at hv
      exact h.current v hv
    | some u =>
      rw [ho, Option.elim_some, ActiveView.offered] at hv
      simp only [Option.elim_some, ActiveView.offered]
      split at hv
      · rename_i ha
        rw [if_pos ha]
        exact h.current v hv
      · rename_i ha
        cases hv
        rw [if_neg ha]
  · intro v hv w' hm
    have hf := (step_sound h.sound e).find?_eq_some_iff.2 ⟨hm, rfl⟩
    obtain ⟨w, hw, hrem, hacc⟩ := h.entry_of_step hf
    -- the write has met the stored assignment just now, or it was not behind it before
    rcases meets_or_waited hv hw with hmeets | ⟨hv, hold⟩
    · exact hacc.le_of_meets hrem hmeets
    · exact UInt32.le_trans (h.fence v hv w (WriteTable.mem_of_find? hold)) (hacc.epoch_le hrem)

theorem new_fenced (home : NodeId) (epoch : Epoch) (s : Settings) : (new home epoch s).Fenced :=
  ⟨new_sound home epoch s, fun v hv => (by cases hv), fun v hv => (by cases hv)⟩

theorem Fenced.run (h : c.Fenced) (es : List Event) : (c.run es).Fenced := by
  induction es generalizing c with
  | nil => exact h
  | cons e es ih => exact ih (h.step e)

end Coordinator
end BackupAcks
