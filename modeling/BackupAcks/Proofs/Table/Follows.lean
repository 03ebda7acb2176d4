import BackupAcks.Proofs.Table.Sound

/-!
# What a step does to each write

`Follows ρ t t'` says that the step from `t` to `t'` is the rule `ρ`, applied to every entry on its
own: the entry becomes what the ruling leaves of it, and its handle gets the outcome that the ruling
gives. Two steps in a row follow the rule `andThen` of their rules, so that an event which takes
several steps of the table is still one rule.

Results:
* `Follows.sweep`, `Follows.apply`, `Follows.finish`, `Follows.stop`: the rules of the steps of a
  table;
* `Follows.trans`: the rule of two steps in a row;
* `Follows.handle?_of_find?`, `Follows.handle?_of_none`: a step leaves the handle of a write alone
  that goes on waiting, or that does not wait.
-/
namespace BackupAcks

namespace PendingWrite

/-! ## One rule after another -/

/-- The second rule rules on what the first leaves. -/
def andThen (ρ σ : PendingWrite → Ruling) (w : PendingWrite) : Ruling :=
  match ρ w with
  | .settled o => .settled o
  | .stale _ => σ w
  | .waiting w' =>
    match σ w' with
    | .stale _ => .waiting w'
    | ruling => ruling

variable {ρ σ : PendingWrite → Ruling} {w w' : PendingWrite}

theorem andThen_of_settled {o : Outcome} (h : ρ w = .settled o) :
    andThen ρ σ w = .settled o := by
  simp [andThen, h]

theorem andThen_of_waiting (h : ρ w = .waiting w') (hs : ∀ t, σ w' ≠ .stale t) :
    andThen ρ σ w = σ w' := by
  simp only [andThen, h]

theorem remaining?_andThen :
    (andThen ρ σ w).remaining? w =
      ((ρ w).remaining? w).bind fun w' => (σ w').remaining? w' := by
  cases hw : ρ w with
  | settled o => simp [andThen, hw, Ruling.remaining?]
  | stale t => simp [andThen, hw, Ruling.remaining?]
  | waiting w' => cases hw' : σ w' <;> simp [andThen, hw, hw', Ruling.remaining?]

theorem outcome?_andThen :
    (andThen ρ σ w).outcome? =
      (ρ w).outcome?.or (((ρ w).remaining? w).bind fun w' => (σ w').outcome?) := by
  cases hw : ρ w with
  | settled o => simp [andThen, hw, Ruling.outcome?]
  | stale t => simp [andThen, hw, Ruling.outcome?, Ruling.remaining?]
  | waiting w' => cases hw' : σ w' <;> simp [andThen, hw, hw', Ruling.outcome?, Ruling.remaining?]

theorem lawful_waiting : Lawful .waiting := by
  intro w w' hl hw
  cases hw
  exact .refl hl

end PendingWrite

namespace WriteTable

open PendingWrite

variable {t t' t'' : WriteTable} {ρ σ : PendingWrite → Ruling} {id : WriteId}

/-- The step from `t` to `t'` rules on every entry by `ρ`. -/
structure Follows (ρ : PendingWrite → Ruling) (t t' : WriteTable) : Prop where
  find?_eq : ∀ id, t'.find? id = (t.find? id).bind fun w => (ρ w).remaining? w
  handle?_eq : ∀ id,
    t'.handle? id = (t.handle? id).map (settleBy ((t.find? id).bind fun w => (ρ w).outcome?))
  ids_eq : t'.ids = t.ids
  sound : t'.Sound

namespace Follows

theorem refl (h : t.Sound) : Follows .waiting t t := by
  refine ⟨fun id => ?_, fun id => ?_, rfl, h⟩
  · cases t.find? id <;> rfl
  · cases hf : t.find? id with
    | none => rw [Option.bind_none, map_settleBy_none]
    | some w => exact (map_settleBy_none _).symm

/-- Only what the rule says of the entries counts. -/
theorem congr (h : Follows ρ t t') (he : ∀ id w, t.find? id = some w → ρ w = σ w) :
    Follows σ t t' := by
  refine ⟨fun id => ?_, fun id => ?_, h.ids_eq, h.sound⟩
  · rw [h.find?_eq]
    cases hf : t.find? id with
    | none => rfl
    | some w => rw [Option.bind_some, Option.bind_some, he id w hf]
  · rw [h.handle?_eq]
    cases hf : t.find? id with
    | none => rfl
    | some w => rw [Option.bind_some, Option.bind_some, he id w hf]

theorem trans (h : Follows ρ t t') (h' : Follows σ t' t'') : Follows (andThen ρ σ) t t'' := by
  refine ⟨fun id => ?_, fun id => ?_, h'.ids_eq.trans h.ids_eq, h'.sound⟩
  · rw [h'.find?_eq, h.find?_eq]
    cases t.find? id with
    | none => rfl
    | some w => rw [Option.bind_some, Option.bind_some, remaining?_andThen]
  · rw [h'.handle?_eq, h.handle?_eq, h.find?_eq, Option.map_map]
    congr 1
    funext k
    rw [Function.comp_apply, settleBy_settleBy]
    cases t.find? id with
    | none => rfl
    | some w => rw [Option.bind_some, Option.bind_some, Option.bind_some, outcome?_andThen]

theorem sweep (h : t.Sound) (hr : Lawful ρ) : Follows ρ t (t.sweep ρ).2 :=
  ⟨fun _ => h.find?_sweep hr, fun _ => h.handle?_sweep ρ, rfl, h.sweep hr⟩

theorem apply (h : t.Sound) (hr : Lawful ρ) (kind : EventKind) (id : WriteId) :
    Follows (only id ρ) t (t.apply id kind ρ).value.2 := by
  rw [h.apply_eq_sweep hr]
  exact sweep h (lawful_only id hr)

theorem finish (h : t.Sound) (id : WriteId) (o : Outcome) :
    Follows (only id fun _ => .settled o) t (t.finish id o).value.2 :=
  apply h (lawful_settled o) .forcedCompletion id

theorem stop (h : t.Sound) : Follows (fun _ => .settled (.failure .stopping)) t t.stop.2 := by
  have hf := sweep h (lawful_settled (.failure .stopping))
  rw [h.stop_eq]
  exact ⟨hf.find?_eq, hf.handle?_eq, hf.ids_eq, hf.sound.nodup, hf.sound.isOpen, hf.sound.live⟩

/-! ## One write in a step -/

variable {w w' : PendingWrite} {o : Outcome}

theorem find?_of_settled (h : Follows ρ t t') (hf : t.find? id = some w)
    (hw : ρ w = .settled o) : t'.find? id = none := by
  rw [h.find?_eq, hf, Option.bind_some, hw]
  rfl

theorem find?_of_none (h : Follows ρ t t') (hf : t.find? id = none) : t'.find? id = none := by
  rw [h.find?_eq, hf]
  rfl

/-- The handle of a write that goes on waiting stays as it is. -/
theorem handle?_of_find? (h : Follows ρ t t') (hf : t'.find? id = some w') :
    t'.handle? id = t.handle? id := by
  rw [h.find?_eq, Option.bind_eq_some_iff] at hf
  obtain ⟨w, hf, hw⟩ := hf
  have ho : (ρ w).outcome? = none := by
    cases hr : ρ w with
    | stale t => rfl
    | waiting x => rfl
    | settled o => rw [hr] at hw; cases hw
  rw [h.handle?_eq, hf, Option.bind_some, ho, map_settleBy_none]

theorem handle?_of_none (h : Follows ρ t t') (hf : t.find? id = none) :
    t'.handle? id = t.handle? id := by
  rw [h.handle?_eq, hf, Option.bind_none, map_settleBy_none]

end Follows
end WriteTable
end BackupAcks
