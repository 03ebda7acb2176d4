import BackupAcks.Proofs.Coordinator.Accounts

/-!
# Outdated offers leave no trace

Assignments are offered in any order, among any other steps. The active epoch is the highest one
that was ever offered, and an offer from below it is refused as a whole: it returns zero and leaves
everything as it is, so that a run reads the same without it.

All of this follows from how a step moves the view and from what it does with an outdated offer.
Whatever steps by these two rules is a `Follower`: the parts, which are driven one by one, and a
coordinator.

Results:
* `Follower.epoch_run`, `Follower.latest_run`: the epoch and the assignment in force after a run;
* `Follower.heededHistory_eq`: the steps of a run that are heeded are a run of their own;
* `outdated_unnoticed`: all of it, for the parts and for a coordinator.
-/
namespace BackupAcks

open Coordinator (accepted)

/-- Something that takes steps, and in some of them is offered an assignment to follow. -/
structure Follower (σ ε α : Type) where
  step : σ → ε → α × σ
  view : σ → ActiveView
  offer? : ε → Option Ownership
  /-- What a step returns that offers an assignment from below the active epoch. -/
  refusal : α
  /-- Only offers move the view. -/
  view_step : ∀ s e, view (step s e).2 = (offer? e).elim (view s) fun v => (view s).offered v
  /-- An outdated offer changes nothing. -/
  step_outdated : ∀ s e v, offer? e = some v → v.epoch < (view s).epoch → step s e = (refusal, s)

/-! ## The highest epoch -/

namespace ActiveView

variable {a : ActiveView}

theorem epoch_offered (a : ActiveView) (v : Ownership) :
    (a.offered v).epoch = max a.epoch v.epoch := by
  unfold offered
  split
  · rename_i h
    exact (if_neg (UInt32.not_le.2 h)).symm
  · rename_i h
    exact (if_pos (UInt32.not_lt.1 h)).symm

/-- The stored assignment is the one in force. -/
def Current (a : ActiveView) : Prop := ∀ v, a.latest = some v → v.epoch = a.epoch

theorem Current.new (home : NodeId) (epoch : Epoch) : (new home epoch).Current := by
  intro v hv
  cases hv

theorem Current.offered (h : a.Current) (v : Ownership) : (a.offered v).Current := by
  unfold ActiveView.offered
  split
  · exact h
  · intro u hu
    cases hu
    rfl

end ActiveView

namespace Follower

variable {σ ε α : Type}

/-! ## Runs -/

def run (f : Follower σ ε α) (s : σ) (es : List ε) : σ := es.foldl (fun s e => (f.step s e).2) s

/-- What each step of a run returns, and the state that it leaves. -/
def history (f : Follower σ ε α) (s : σ) : List ε → List (α × σ)
  | [] => []
  | e :: es => f.step s e :: f.history (f.step s e).2 es

def offers (f : Follower σ ε α) (es : List ε) : List Ownership := es.filterMap f.offer?

/-- Whether the step offers an assignment from below the active epoch. -/
def isOutdated (f : Follower σ ε α) (s : σ) (e : ε) : Bool :=
  (f.offer? e).any fun v => v.epoch < (f.view s).epoch

/-- The steps of a run, less those that offer something outdated when they come. -/
def heeded (f : Follower σ ε α) (s : σ) : List ε → List ε
  | [] => []
  | e :: es =>
    if f.isOutdated s e then f.heeded (f.step s e).2 es else e :: f.heeded (f.step s e).2 es

/-- The history of the whole run, as far as it belongs to the steps that are heeded. -/
def heededHistory (f : Follower σ ε α) (s : σ) : List ε → List (α × σ)
  | [] => []
  | e :: es =>
    if f.isOutdated s e then f.heededHistory (f.step s e).2 es
    else f.step s e :: f.heededHistory (f.step s e).2 es

variable (f : Follower σ ε α) (s : σ) (es : List ε)

theorem run_cons (e : ε) : f.run s (e :: es) = f.run (f.step s e).2 es := rfl

theorem view_run :
    f.view (f.run s es) = (f.offers es).foldl (fun a v => a.offered v) (f.view s) := by
  induction es generalizing s with
  | nil => rfl
  | cons e es ih =>
    rw [run_cons, ih, f.view_step]
    cases ho : f.offer? e with
    | none => rw [offers, offers, List.filterMap_cons_none ho]; rfl
    | some v => rw [offers, offers, List.filterMap_cons_some ho]; rfl

/-- The active epoch is the highest that was offered, or the first one if none is higher. -/
theorem epoch_run : (f.view (f.run s es)).epoch =
    ((f.offers es).map (·.epoch)).foldl max (f.view s).epoch := by
  rw [view_run]
  generalize f.view s = a
  induction f.offers es generalizing a with
  | nil => rfl
  | cons v vs ih => rw [List.foldl_cons, ih, ActiveView.epoch_offered, List.map_cons, List.foldl_cons]

theorem latest_run : (f.view (f.run s es)).latest =
    (accepted (f.view s).epoch (f.offers es)).getLast?.or (f.view s).latest := by
  rw [view_run, Coordinator.offered_latest]

theorem current_run (h : (f.view s).Current) : (f.view (f.run s es)).Current := by
  rw [view_run]
  generalize f.view s = a at h
  induction f.offers es generalizing a with
  | nil => exact h
  | cons v vs ih => exact ih (a.offered v) (h.offered v)

/-! ## Runs without outdated offers -/

variable {f s} {e : ε}

theorem step_of_isOutdated (h : f.isOutdated s e = true) : f.step s e = (f.refusal, s) := by
  obtain ⟨v, hv, hlt⟩ := (Option.any_eq_true _ _).1 h
  exact f.step_outdated s e v hv (by simpa using hlt)

/-- The steps that are heeded are a run of their own, with the history that they have in the whole
one. -/
theorem heededHistory_eq : f.heededHistory s es = f.history s (f.heeded s es) := by
  induction es generalizing s with
  | nil => rfl
  | cons e es ih =>
    cases h : f.isOutdated s e with
    | true =>
      have hstep := step_of_isOutdated h
      simp only [heededHistory, heeded, h, if_true, hstep]
      exact ih
    | false =>
      simp only [heededHistory, heeded, h, Bool.false_eq_true, if_false, history]
      rw [ih]

theorem run_heeded : f.run s (f.heeded s es) = f.run s es := by
  induction es generalizing s with
  | nil => rfl
  | cons e es ih =>
    cases h : f.isOutdated s e with
    | true =>
      have hstep := step_of_isOutdated h
      simp only [heeded, h, if_true, run_cons, hstep]
      exact ih
    | false =>
      simp only [heeded, h, Bool.false_eq_true, if_false, run_cons]
      exact ih

/-- What holds of a run that begins at the given epoch, with no assignment stored. -/
structure Orderly (f : Follower σ ε α) (epoch : Epoch) (s : σ) (es : List ε) : Prop where
  /-- The active epoch is the highest of the first one and of all that were offered. -/
  highest : (f.view (f.run s es)).epoch = ((f.offers es).map (·.epoch)).foldl max epoch
  /-- The stored assignment is the one accepted last, if any was. -/
  latest : (f.view (f.run s es)).latest = (accepted epoch (f.offers es)).getLast?
  /-- It is the one of the active epoch. -/
  current : (f.view (f.run s es)).Current
  /-- After the run, an offer from below the active epoch is refused and changes nothing. -/
  refused : ∀ e v, f.offer? e = some v → v.epoch < (f.view (f.run s es)).epoch →
    f.step (f.run s es) e = (f.refusal, f.run s es)
  /-- Without such offers, the other steps of the run return the same and leave the same states. -/
  unnoticed : f.heededHistory s es = f.history s (f.heeded s es)
  run_heeded : f.run s (f.heeded s es) = f.run s es

theorem orderly_of_new {home : NodeId} {epoch : Epoch} (h : f.view s = .new home epoch) :
    f.Orderly epoch s es where
  highest := by rw [epoch_run, h]; rfl
  latest := by rw [latest_run, h]; exact Option.or_none
  current := f.current_run s es (h ▸ .new home epoch)
  refused := f.step_outdated (f.run s es)
  unnoticed := heededHistory_eq es
  run_heeded := run_heeded es

end Follower

/-! ## What follows assignments -/

/-- The assignment that an operation offers. -/
def Engine.Op.offer? : Engine.Op → Option Ownership
  | .activate v => some v
  | _ => none

def Engine.following : Follower Engine Engine.Op Engine.Report where
  step e op := (e.report op, e.act op)
  view e := e.view
  offer? := Engine.Op.offer?
  refusal := .count 0
  view_step e op := by
    cases op with
    | activate v =>
      simp only [Engine.act, Engine.activate, ActiveView.activate, Engine.Op.offer?,
        Option.elim_some, ActiveView.offered, Logged.value_bind]
      split <;> rfl
    | _ => rfl
  step_outdated e op v ho hlt := by
    cases op with
    | activate u =>
      cases ho
      simp only [Engine.report, Engine.act, Engine.activate, ActiveView.activate, if_pos hlt]
      rfl
    | _ => cases ho

def Coordinator.following : Follower Coordinator Coordinator.Event Coordinator.Answer where
  step c e := (c.step e).value
  view c := c.engine.view
  offer? := Coordinator.Event.offer?
  refusal := .count 0
  view_step := Coordinator.step_view
  step_outdated c e v ho hlt := by
    rw [Coordinator.eq_activate_of_offer ho]
    simp only [Coordinator.step, Coordinator.activate, Coordinator.onEngine, Engine.activate,
      ActiveView.activate, if_pos hlt]
    rfl

/-- **Outdated offers leave no trace.** In every run of the parts and of a coordinator, with offers
in any order among any other steps, the active epoch is the highest one so far, the stored
assignment is the one of that epoch, and an offer from below it returns zero and changes nothing;
without all such offers the other steps return what they return with them, and leave the same
states. -/
theorem outdated_unnoticed :
    (∀ home follower epoch capacity ops,
      Engine.following.Orderly epoch (.new home follower epoch capacity) ops) ∧
      ∀ home epoch s es, Coordinator.following.Orderly epoch (.new home epoch s) es :=
  ⟨fun _ _ _ _ ops => Follower.orderly_of_new ops rfl,
    fun _ _ _ es => Follower.orderly_of_new es rfl⟩

end BackupAcks
