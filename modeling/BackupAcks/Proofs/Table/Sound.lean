import BackupAcks.Proofs.Write.Rulings
import BackupAcks.WriteTable
import Mathlib.Data.List.Nodup

/-!
# Steps of the table, seen by one write

The table changes in two ways: a write is registered, or an event is fed to the writes that wait.
Feeding an event to one write is a sweep that passes over all others (`apply_eq_sweep`), and
shutting down is a sweep as well, so that registering and sweeping are all there is to look at.

`Sound` is what every table keeps: one entry for an identifier, each entry with an open handle and
with somebody to wait for. Under it, looking an identifier up after a step is a function of looking
it up before.

Results:
* `find?_register`, `handle?_register`: what a registration does to entries and handles;
* `find?_sweep`, `handle?_sweep`: an entry is changed or settled as the rule says, and the handle
  gets just the outcome of its own entry;
* `Sound.register`, `Sound.sweep`, `Sound.apply`, `Sound.stop`: every step keeps a table sound.
-/
namespace BackupAcks.WriteTable

open PendingWrite (Lawful)

/-- What holds of every table that came about by steps. -/
structure Sound (t : WriteTable) : Prop where
  nodup : (t.pending.map (·.id)).Nodup
  isOpen : ∀ w ∈ t.pending, t.isOpen w.id = true
  live : ∀ w ∈ t.pending, w.requirement.Live

theorem Sound.new (home : NodeId) (capacity : Nat) : Sound (.new home capacity) :=
  ⟨.nil, by simp [WriteTable.new], by simp [WriteTable.new]⟩

variable {t : WriteTable} {id : WriteId} {w : PendingWrite}

/-! ## Looking an entry up -/

theorem find?_id_eq_some_iff {l : List PendingWrite} (hn : (l.map (·.id)).Nodup) :
    l.find? (·.id == id) = some w ↔ w ∈ l ∧ w.id = id := by
  induction l with
  | nil => simp
  | cons x rest ih =>
    obtain ⟨hx, hr⟩ := List.nodup_cons.1 hn
    by_cases he : x.id = id
    · rw [List.find?_cons_of_pos (by simpa using he)]
      constructor
      · intro h
        cases h
        exact ⟨List.mem_cons_self, he⟩
      · intro hy
        obtain ⟨hm, hw⟩ := hy
        rcases List.mem_cons.1 hm with rfl | hm
        · rfl
        · exact absurd (List.mem_map.2 ⟨w, hm, hw.trans he.symm⟩) hx
    · rw [List.find?_cons_of_neg (by simpa using he), ih hr, List.mem_cons]
      constructor
      · intro hy
        obtain ⟨hm, hw⟩ := hy
        exact ⟨.inr hm, hw⟩
      · intro hy
        obtain ⟨rfl | hm, hw⟩ := hy
        · exact absurd hw he
        · exact ⟨hm, hw⟩

theorem Sound.find?_eq_some_iff (h : t.Sound) : t.find? id = some w ↔ w ∈ t.pending ∧ w.id = id :=
  find?_id_eq_some_iff h.nodup

theorem id_of_find? (hf : t.find? id = some w) : w.id = id := by
  simpa using List.find?_some hf

theorem mem_of_find? (hf : t.find? id = some w) : w ∈ t.pending := List.mem_of_find?_eq_some hf

theorem Sound.live_of_find? (h : t.Sound) (hf : t.find? id = some w) : w.requirement.Live :=
  h.live w (mem_of_find? hf)

theorem Sound.ruleOpen_eq (h : t.Sound) (rule : PendingWrite → Ruling) (hw : w ∈ t.pending) :
    t.ruleOpen rule w = rule w := by
  simp [ruleOpen, h.isOpen w hw]

/-! ## Registering -/

theorem find?_register (r : Requirement) (epoch : Epoch) :
    (t.register r epoch).value.2.find? id =
      if t.ids.issue.1 = id ∧ t.immediateOutcome r = none then some ⟨t.ids.issue.1, epoch, r⟩
      else t.find? id := by
  simp only [register, Logged.value_bind, Logged.value_pure, find?]
  cases ho : t.immediateOutcome r with
  | some o => simp
  | none =>
    by_cases hid : t.ids.issue.1 = id
    · simp [hid]
    · simp only [Option.isNone_none, if_true, hid, false_and, if_false]
      rw [List.find?_cons_of_neg (by simpa using hid), List.find?_filter]
      congr 1
      funext x
      by_cases hx : x.id = id
      · simp [hx, Ne.symm hid]
      · simp [hx]

theorem handle?_register (r : Requirement) (epoch : Epoch) :
    (t.register r epoch).value.2.handle? id =
      if t.ids.issue.1 = id then some ⟨id, t.immediateOutcome r⟩ else t.handle? id := by
  simp only [register, Logged.value_bind, Logged.value_pure, handle?]
  by_cases hid : t.ids.issue.1 = id
  · simp [hid]
  · rw [List.find?_cons_of_neg (by simpa using hid), if_neg hid]

theorem Sound.register (h : t.Sound) {r : Requirement} (hd : r.Dense) (epoch : Epoch) :
    (t.register r epoch).value.2.Sound := by
  simp only [WriteTable.register, Logged.value_bind, Logged.value_pure]
  cases ho : t.immediateOutcome r with
  | some o =>
    refine ⟨h.nodup, fun w hw => ?_, h.live⟩
    have := h.isOpen w hw
    simp only [WriteTable.isOpen, List.any_cons, Bool.or_eq_true] at this ⊢
    exact .inr this
  | none =>
    have hr : r.Live := by
      refine ⟨hd, ?_⟩
      cases hs : r.isSatisfied with
      | false => rfl
      | true => simp [immediateOutcome, hs] at ho; split at ho <;> cases ho
    simp only [Option.isNone_none, if_true]
    refine ⟨?_, ?_, ?_⟩
    · refine List.nodup_cons.2 ⟨?_, (List.filter_sublist.map _).nodup h.nodup⟩
      simp [List.mem_map, List.mem_filter]
    · intro w hw
      simp only [WriteTable.isOpen, List.any_cons, Bool.or_eq_true]
      rcases List.mem_cons.1 hw with rfl | hw
      · left; simp
      · right; exact h.isOpen w (List.mem_filter.1 hw).1
    · intro w hw
      rcases List.mem_cons.1 hw with rfl | hw
      · exact hr
      · exact h.live w (List.mem_filter.1 hw).1

/-! ## Settling handles -/

/-- Gives a handle an outcome, if there is one to give and it has none. -/
def settleBy (o : Option Outcome) (h : Handle) : Handle := { h with outcome := h.outcome.or o }

theorem settleBy_none (h : Handle) : settleBy none h = h := by simp [settleBy]

theorem map_settleBy_none (h : Option Handle) : h.map (settleBy none) = h := by
  cases h with
  | none => rfl
  | some h => rw [Option.map_some, settleBy_none]

theorem settleBy_some (o : Outcome) (h : Handle) : settleBy (some o) h = h.settle o := rfl

theorem settleBy_settleBy (a b : Option Outcome) (h : Handle) :
    settleBy b (settleBy a h) = settleBy (a.or b) h := by
  simp [settleBy, Option.or_assoc]

theorem find?_settleIn (k : WriteId) (o : Outcome) (handles : List Handle) :
    (settleIn k o handles).find? (·.id == id) =
      (handles.find? (·.id == id)).map (settleBy (if k = id then some o else none)) := by
  induction handles with
  | nil => rfl
  | cons h rest ih =>
    unfold settleIn
    by_cases hid : h.id = id
    · split
      · rename_i hk
        rw [List.find?_cons_of_pos (by simpa [Handle.settle] using hid),
          List.find?_cons_of_pos (by simpa using hid), Option.map_some,
          if_pos (hk.1.symm.trans hid)]
        rfl
      · rename_i hk
        rw [List.find?_cons_of_pos (by simpa using hid),
          List.find?_cons_of_pos (by simpa using hid), Option.map_some]
        split
        · rename_i hki
          cases ho : h.outcome with
          | none => exact absurd ⟨hid.trans hki.symm, ho⟩ hk
          | some o' => rw [settleBy_some, Handle.settle_of_settled o ho]
        · rw [settleBy_none]
    · split
      · rw [List.find?_cons_of_neg (by simpa [Handle.settle] using hid),
          List.find?_cons_of_neg (by simpa using hid)]
        rename_i hk
        rw [if_neg (fun h' => hid (hk.1.trans h'))]
        rw [map_settleBy_none]
      · rw [List.find?_cons_of_neg (by simpa using hid),
          List.find?_cons_of_neg (by simpa using hid), ih]

theorem any_settleIn_of_ne {k : WriteId} (hk : k ≠ id) (o : Outcome) (handles : List Handle) :
    ((settleIn k o handles).any fun h => h.id == id && h.outcome.isNone) =
      handles.any fun h => h.id == id && h.outcome.isNone := by
  induction handles with
  | nil => rfl
  | cons h rest ih =>
    unfold settleIn
    split
    · rename_i hh
      have hne : ¬ h.id = id := fun e => hk (hh.1.symm.trans e)
      simp [Handle.settle, hne]
    · simp [ih]

/-! ## Sweeping -/

/-- The writes that a rule ends, with their outcomes. -/
def settlements (rule : PendingWrite → Ruling) (t : WriteTable) : List (WriteId × Outcome) :=
  t.pending.filterMap fun w => (rule w).outcome?.map fun o => (w.id, o)

/-- A sweep of a sound table passes nobody over. -/
theorem Sound.sweep_eq (h : t.Sound) (rule : PendingWrite → Ruling) :
    t.sweep rule = ((t.settlements rule).map Prod.snd,
      { t with
        pending := t.pending.filterMap fun w => (rule w).remaining? w
        handles := (t.settlements rule).foldl (fun hs e => settleIn e.1 e.2 hs) t.handles }) := by
  have hr : (t.pending.map fun w => (w, t.ruleOpen rule w)) = t.pending.map fun w => (w, rule w) :=
    List.map_congr_left fun w hw => by rw [h.ruleOpen_eq rule hw]
  simp only [sweep, hr, settlements, List.filterMap_map, Function.comp_def]

theorem lookup_settlements (hn : (t.pending.map (·.id)).Nodup) (rule : PendingWrite → Ruling) :
    (t.settlements rule).lookup id = (t.find? id).bind fun w => (rule w).outcome? := by
  simp only [settlements, find?]
  generalize t.pending = l at hn
  induction l with
  | nil => rfl
  | cons x rest ih =>
    obtain ⟨hx, hr⟩ := List.nodup_cons.1 hn
    by_cases hid : x.id = id
    · rw [List.find?_cons_of_pos (by simpa using hid), Option.bind_some]
      cases ho : (rule x).outcome? with
      | some o => simp [ho, hid]
      | none =>
        have hnone : rest.find? (·.id == id) = none := by
          rw [List.find?_eq_none]
          intro y hy hyid
          exact hx (List.mem_map.2 ⟨y, hy, by simpa [hid] using hyid⟩)
        rw [List.filterMap_cons_none (by simp [ho]), ih hr, hnone, Option.bind_none]
    · rw [List.find?_cons_of_neg (by simpa using hid), ← ih hr]
      cases ho : (rule x).outcome? with
      | some o =>
        rw [List.filterMap_cons_some (b := (x.id, o)) (by simp [ho]), List.lookup_cons]
        have : (id == x.id) = false := by simpa using Ne.symm hid
        simp [this]
      | none => rw [List.filterMap_cons_none (by simp [ho])]

theorem find?_settleAll (settled : List (WriteId × Outcome)) (handles : List Handle) :
    (settled.foldl (fun hs e => settleIn e.1 e.2 hs) handles).find? (·.id == id) =
      (handles.find? (·.id == id)).map (settleBy (settled.lookup id)) := by
  induction settled generalizing handles with
  | nil => rw [List.foldl_nil, List.lookup_nil, map_settleBy_none]
  | cons e rest ih =>
    rw [List.foldl_cons, ih, find?_settleIn, Option.map_map, List.lookup_cons]
    congr 1
    funext h
    rw [Function.comp_apply, settleBy_settleBy]
    by_cases he : e.1 = id
    · simp [he]
    · have : (id == e.1) = false := by simpa using Ne.symm he
      simp [he, this]

theorem any_settleAll_of_not_mem (settled : List (WriteId × Outcome)) (handles : List Handle)
    (hid : ∀ e ∈ settled, e.1 ≠ id) :
    ((settled.foldl (fun hs e => settleIn e.1 e.2 hs) handles).any
      fun h => h.id == id && h.outcome.isNone) =
      handles.any fun h => h.id == id && h.outcome.isNone := by
  induction settled generalizing handles with
  | nil => rfl
  | cons e rest ih =>
    rw [List.foldl_cons, ih _ fun x hx => hid x (List.mem_cons_of_mem _ hx),
      any_settleIn_of_ne (hid e List.mem_cons_self)]

theorem Sound.handle?_sweep (h : t.Sound) (rule : PendingWrite → Ruling) :
    (t.sweep rule).2.handle? id =
      (t.handle? id).map (settleBy ((t.find? id).bind fun w => (rule w).outcome?)) := by
  rw [h.sweep_eq, handle?, find?_settleAll, lookup_settlements h.nodup]
  rfl

theorem map_id_filterMap_sublist {l : List PendingWrite} {f : PendingWrite → Option PendingWrite}
    (hf : ∀ x ∈ l, ∀ w, f x = some w → w.id = x.id) :
    ((l.filterMap f).map (·.id)).Sublist (l.map (·.id)) := by
  induction l with
  | nil => exact .slnil
  | cons x rest ih =>
    have ih := ih fun y hy => hf y (List.mem_cons_of_mem _ hy)
    cases hx : f x with
    | none => rw [List.filterMap_cons_none hx]; exact ih.cons _
    | some w =>
      rw [List.filterMap_cons_some hx, List.map_cons, List.map_cons, hf x List.mem_cons_self w hx]
      exact ih.cons_cons _

theorem mem_sweep (h : t.Sound) {rule : PendingWrite → Ruling} :
    w ∈ (t.sweep rule).2.pending ↔ ∃ x ∈ t.pending, (rule x).remaining? x = some w := by
  rw [h.sweep_eq, List.mem_filterMap]

theorem Sound.sweep (h : t.Sound) {rule : PendingWrite → Ruling} (hr : Lawful rule) :
    (t.sweep rule).2.Sound := by
  have hkeep : ∀ x ∈ t.pending, ∀ w, (rule x).remaining? x = some w → x.Continues w :=
    fun x hx w hw => hr.remaining (h.live x hx) hw
  refine ⟨?_, fun w hw => ?_, fun w hw => ?_⟩
  · rw [h.sweep_eq]
    exact (map_id_filterMap_sublist fun x hx w hw => (hkeep x hx w hw).id_eq).nodup h.nodup
  · obtain ⟨x, hx, hxw⟩ := (mem_sweep h).1 hw
    rw [h.sweep_eq, WriteTable.isOpen, any_settleAll_of_not_mem]
    · rw [(hkeep x hx w hxw).id_eq]
      exact h.isOpen x hx
    · -- the entry was kept, so its identifier is not among the settled ones
      rintro ⟨k, o⟩ he hk
      obtain ⟨y, hy, hyo⟩ := List.mem_filterMap.1 he
      obtain ⟨o', ho', heq⟩ := Option.map_eq_some_iff.1 hyo
      cases heq
      have hyx : y = x := by
        have hx' := h.find?_eq_some_iff.2 ⟨hx, rfl⟩
        have hy' := h.find?_eq_some_iff.2 ⟨hy, hk.trans (hkeep x hx w hxw).id_eq⟩
        exact Option.some.inj (hy'.symm.trans hx')
      subst hyx
      cases hry : rule y <;> simp_all [Ruling.outcome?, Ruling.remaining?]
  · obtain ⟨x, hx, hxw⟩ := (mem_sweep h).1 hw
    exact (hkeep x hx w hxw).live

theorem Sound.find?_sweep (h : t.Sound) {rule : PendingWrite → Ruling} (hr : Lawful rule) :
    (t.sweep rule).2.find? id = (t.find? id).bind fun w => (rule w).remaining? w := by
  refine Option.ext fun w => ?_
  rw [(h.sweep hr).find?_eq_some_iff, mem_sweep h, Option.bind_eq_some_iff]
  constructor
  · intro hy
    obtain ⟨⟨x, hx, hxw⟩, hid⟩ := hy
    refine ⟨x, h.find?_eq_some_iff.2 ⟨hx, ?_⟩, hxw⟩
    rw [← (hr.remaining (h.live x hx) hxw).id_eq, hid]
  · intro hy
    obtain ⟨x, hx, hxw⟩ := hy
    refine ⟨⟨x, mem_of_find? hx, hxw⟩, ?_⟩
    rw [(hr.remaining (h.live_of_find? hx) hxw).id_eq, id_of_find? hx]

/-! ## Feeding one write -/

/-- The rule for one write; the others go on waiting. -/
def only (id : WriteId) (rule : PendingWrite → Ruling) (w : PendingWrite) : Ruling :=
  if w.id = id then rule w else .waiting w

theorem only_self (rule : PendingWrite → Ruling) (w : PendingWrite) : only w.id rule w = rule w :=
  if_pos rfl

theorem only_of_ne (rule : PendingWrite → Ruling) (hw : w.id ≠ id) : only id rule w = .waiting w :=
  if_neg hw

theorem lawful_only (id : WriteId) {rule : PendingWrite → Ruling} (hr : Lawful rule) :
    Lawful (only id rule) := by
  intro w w' hl hw
  unfold only at hw
  split at hw
  · exact hr w w' hl hw
  · cases hw
    exact .refl hl

/-- A sweep that lets every write go on waiting changes nothing. -/
theorem Sound.sweep_eq_self (h : t.Sound) {rule : PendingWrite → Ruling}
    (hw : ∀ w ∈ t.pending, (rule w).outcome? = none ∧ (rule w).remaining? w = some w) :
    t.sweep rule = ([], t) := by
  have hs : t.settlements rule = [] :=
    List.filterMap_eq_nil_iff.2 fun w hm => by rw [(hw w hm).1, Option.map_none]
  have hp : (t.pending.filterMap fun w => (rule w).remaining? w) = t.pending := by
    rw [List.filterMap_congr fun w hm => (hw w hm).2, List.filterMap_some]
  rw [h.sweep_eq, hs, hp]
  rfl

theorem settlements_only (hn : (t.pending.map (·.id)).Nodup) {rule : PendingWrite → Ruling}
    {o : Outcome} (hf : t.find? id = some w) (ho : rule w = .settled o) :
    t.settlements (only id rule) = [(id, o)] := by
  obtain rfl := id_of_find? hf
  obtain ⟨before, after, hp⟩ := List.append_of_mem (mem_of_find? hf)
  rw [hp, List.map_append, List.map_cons, List.nodup_middle, List.nodup_cons] at hn
  have hnone : ∀ l : List PendingWrite, (∀ x ∈ l, x ∈ before ++ after) →
      (l.filterMap fun x => (only w.id rule x).outcome?.map fun o => (x.id, o)) = [] := by
    intro l hl
    refine List.filterMap_eq_nil_iff.2 fun x hx => ?_
    have hne : x.id ≠ w.id := by
      intro he
      refine hn.1 (he ▸ ?_)
      rw [← List.map_append]
      exact List.mem_map_of_mem (hl x hx)
    rw [only_of_ne rule hne]
    rfl
  rw [settlements, hp, List.filterMap_append, List.filterMap_cons_some (b := (w.id, o)),
    hnone before fun x hx => List.mem_append_left _ hx,
    hnone after fun x hx => List.mem_append_right _ hx]
  · rfl
  · rw [only_self, ho]
    rfl

/-- Feeding an event to one write is a sweep that passes over the others. -/
theorem Sound.apply_eq_sweep (h : t.Sound) {rule : PendingWrite → Ruling} (hr : Lawful rule)
    (kind : EventKind) : (t.apply id kind rule).value.2 = (t.sweep (only id rule)).2 := by
  cases hf : t.find? id with
  | none =>
    have hne : ∀ w ∈ t.pending, w.id ≠ id := by
      intro w hw he
      rw [h.find?_eq_some_iff.2 ⟨hw, he⟩] at hf
      cases hf
    rw [h.sweep_eq_self fun w hw => by rw [only_of_ne rule (hne w hw)]; exact ⟨rfl, rfl⟩]
    simp [apply, hf]
  | some w =>
    obtain rfl := id_of_find? hf
    have hopen := h.isOpen w (mem_of_find? hf)
    have huniq : ∀ x ∈ t.pending, x.id = w.id → x = w := by
      intro x hx he
      exact Option.some.inj ((h.find?_eq_some_iff.2 ⟨hx, he⟩).symm.trans hf)
    simp only [apply, hf, hopen, if_true]
    cases hw : rule w with
    | stale current =>
      rw [h.sweep_eq_self]
      intro x hx
      by_cases he : x.id = w.id
      · rw [huniq x hx he, only_self, hw]; exact ⟨rfl, rfl⟩
      · rw [only_of_ne rule he]; exact ⟨rfl, rfl⟩
    | waiting w' =>
      have hid := (hr w w' (h.live_of_find? hf) hw).id_eq
      have hs : t.settlements (only w.id rule) = [] := by
        refine List.filterMap_eq_nil_iff.2 fun x hx => ?_
        by_cases he : x.id = w.id
        · rw [huniq x hx he, only_self, hw]; rfl
        · rw [only_of_ne rule he]; rfl
      rw [h.sweep_eq, hs]
      simp only [update, List.foldl_nil, ← List.filterMap_eq_map']
      congr 1
      refine List.filterMap_congr fun x hx => ?_
      rw [hid]
      by_cases he : x.id = w.id
      · rw [huniq x hx he, only_self, hw, if_pos rfl]; rfl
      · rw [only_of_ne rule he, if_neg he]; rfl
    | settled o =>
      simp only [settle, hopen, if_true, h.sweep_eq, settlements_only h.nodup hf hw,
        List.foldl_cons, List.foldl_nil, ← List.filterMap_eq_filter]
      congr 1
      refine List.filterMap_congr fun x hx => ?_
      by_cases he : x.id = w.id
      · rw [huniq x hx he, only_self, hw]; simp [Option.guard, Ruling.remaining?]
      · rw [only_of_ne rule he]; simp [Option.guard, he, Ruling.remaining?]

/-- Feeding an event to one write says truthfully whether that ended it. -/
theorem Sound.apply_fst (h : t.Sound) {rule : PendingWrite → Ruling} (kind : EventKind) :
    (t.apply id kind rule).value.1 = ((t.find? id).bind fun w => (rule w).outcome?).isSome := by
  cases hf : t.find? id with
  | none => simp [apply, hf]
  | some w =>
    obtain rfl := id_of_find? hf
    have hopen := h.isOpen w (mem_of_find? hf)
    simp only [apply, hf, hopen, if_true, Option.bind_some]
    cases hw : rule w with
    | stale current => rfl
    | waiting w' => rfl
    | settled o => simp [settle, hopen, Ruling.outcome?]

theorem Sound.apply (h : t.Sound) {rule : PendingWrite → Ruling} (hr : Lawful rule)
    (kind : EventKind) : (t.apply id kind rule).value.2.Sound := by
  rw [h.apply_eq_sweep hr]
  exact h.sweep (lawful_only id hr)

/-- The report of a failure is not part of its effect. -/
theorem error_value (id : WriteId) (sender : NodeId) (epoch : Epoch) (cause : String) :
    (t.error id sender epoch cause).value =
      (t.apply id .error (·.error sender epoch cause)).value := by
  simp only [error, Logged.value_bind]
  split <;> rfl

/-! ## Shutting down -/

theorem Sound.stop_eq (h : t.Sound) :
    t.stop.2 = { (t.sweep fun _ => .settled (.failure .stopping)).2 with stopped := true } := by
  have hp : (t.sweep fun _ => .settled (.failure .stopping)).2.pending = [] := by
    rw [h.sweep_eq]
    exact List.filterMap_eq_nil_iff.2 fun _ _ => rfl
  simp only [WriteTable.stop]
  rw [← hp]

theorem Sound.stop (h : t.Sound) : t.stop.2.Sound := by
  rw [h.stop_eq]
  have hs := h.sweep (PendingWrite.lawful_settled (.failure .stopping))
  exact ⟨hs.nodup, hs.isOpen, hs.live⟩

end BackupAcks.WriteTable
