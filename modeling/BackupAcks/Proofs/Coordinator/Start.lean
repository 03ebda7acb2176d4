import BackupAcks.Coordinator
import BackupAcks.Proofs.Toml.KeyOrder

/-!
# How a coordinator starts

A table of settings can be wrong in several ways at once: the two settings have values that do not
fit, there are keys that are no settings, and the timeout is zero. These are the `Flaw`s of a table.
A coordinator starts just if there is none; else the first one is reported, in the order in which
the table is gone through, and of the keys that are no settings the one whose bytes come first.

Results:
* `field_cases`: what a setting is given;
* `ofTable_cases`: the settings that a table gives, or its first flaw;
* `start_heedsSettings`: how the start comes out, for every table and every document.
-/
namespace BackupAcks

namespace Settings

open Toml (Table Value)

variable {t : Table} {key expected : String} {v : Value} {m n usual : Nat}

/-! ## What is said about a setting -/

/-- The value is a whole number that fits 64 bits without sign. -/
def Fits (v : Value) : Prop := ∃ n : Nat, n < 0x10000000000000000 ∧ v = .integer n

/-- The table gives the number to the setting, or leaves the setting out, whose usual value is that
number. -/
def Gives (t : Table) (key : String) (usual n : Nat) : Prop :=
  (key, .integer n) ∈ t ∨ (∀ v, (key, v) ∉ t) ∧ n = usual

/-- Why a value that does not fit is refused. -/
def misfit (expected : String) : Value → SettingsError
  | .integer i => .wrongValue (.integer i) expected
  | v => .wrongType v.kind expected

theorem natural_of_lt (h : n < 0x10000000000000000) : natural expected (.integer n) = .ok n := by
  have hlt : (n : Int) < 0x10000000000000000 := by omega
  rw [natural, if_pos ⟨Int.natCast_nonneg n, hlt⟩, Int.toNat_natCast]

theorem natural_of_not_fits (h : ¬ Fits v) : natural expected v = .error (misfit expected v) := by
  cases v with
  | integer i =>
    refine if_neg fun hi => h ⟨i.toNat, ?_, ?_⟩
    · omega
    · rw [Int.toNat_of_nonneg hi.1]
  | string | float | boolean | datetime | array | table => rfl

theorem value_unique (ht : t.Ordered) {v' : Value} (h : (key, v) ∈ t) (h' : (key, v') ∈ t) :
    v = v' := by
  rw [← Table.find?_eq_some_iff ht] at h h'
  exact Option.some.inj (h.symm.trans h')

theorem Gives.unique (ht : t.Ordered) (hm : Gives t key usual m) (hn : Gives t key usual n) :
    m = n := by
  rcases hm with hm | ⟨hm, rfl⟩
  · rcases hn with hn | ⟨hn, -⟩
    · have hinteger := value_unique ht hm hn
      injection hinteger with hcast
      exact Int.ofNat_inj.1 hcast
    · exact absurd hm (hn _)
  · rcases hn with hn | ⟨-, rfl⟩
    · exact absurd hn (hm _)
    · rfl

/-- A setting is given its value, unless that does not fit. -/
theorem field_cases (ht : t.Ordered) (key expected : String) (usual : Nat) :
    (∃ n, field t key expected usual = .ok n ∧ Gives t key usual n ∧ ∀ v, (key, v) ∈ t → Fits v) ∨
      ∃ v, field t key expected usual = .error (misfit expected v) ∧ (key, v) ∈ t ∧ ¬ Fits v := by
  unfold field
  cases hfind : t.find? key with
  | none =>
    have hnone : ∀ v, (key, v) ∉ t := fun v hv => by
      rw [← Table.find?_eq_some_iff ht, hfind] at hv
      cases hv
    exact .inl ⟨usual, rfl, .inr ⟨hnone, rfl⟩, fun v hv => absurd hv (hnone v)⟩
  | some v =>
    have hmem := (Table.find?_eq_some_iff ht).1 hfind
    by_cases hfits : Fits v
    · obtain ⟨n, hn, rfl⟩ := hfits
      refine .inl ⟨n, natural_of_lt hn, .inl hmem, fun v hv => ?_⟩
      rw [value_unique ht hv hmem]
      exact ⟨n, hn, rfl⟩
    · exact .inr ⟨v, natural_of_not_fits hfits, hmem, hfits⟩

/-! ## Flaws -/

inductive Flaw where
  /-- The value of the timeout does not fit. -/
  | timeout (v : Value)
  /-- The value of the limit does not fit. -/
  | limit (v : Value)
  /-- A key is no setting. -/
  | stranger (key : String)
  /-- The timeout is zero. -/
  | zeroTimeout

namespace Flaw

/-- The error by which the flaw is reported. -/
def reason : Flaw → SettingsError
  | .timeout v => misfit "u64" v
  | .limit v => misfit "usize" v
  | .stranger key => .unknownField key
  | .zeroTimeout => .zeroTimeout

/-- What is logged about the flaw. -/
def lines : Flaw → List Line
  | .zeroTimeout => [⟨.error, "invalid config.remote_timeout_ms '0'"⟩]
  | .timeout _ | .limit _ | .stranger _ => []

/-- The table has the flaw. -/
def In (t : Table) : Flaw → Prop
  | .timeout v => (timeoutKey, v) ∈ t ∧ ¬ Fits v
  | .limit v => (pendingKey, v) ∈ t ∧ ¬ Fits v
  | .stranger key => (∃ v, (key, v) ∈ t) ∧ key ≠ timeoutKey ∧ key ≠ pendingKey
  | .zeroTimeout => Gives t timeoutKey default.remoteTimeoutMs 0

/-- The place of a kind of flaw in the order of reporting. -/
def rank : Flaw → Nat
  | .timeout _ => 0
  | .limit _ => 1
  | .stranger _ => 2
  | .zeroTimeout => 3

/-- The order of reporting; keys come in the order of their bytes. -/
def Before : Flaw → Flaw → Prop
  | .stranger key, .stranger key' => Utf8.encode key < Utf8.encode key'
  | f, f' => f.rank < f'.rank

theorem before_of_rank {f f' : Flaw} (h : f.rank < f'.rank) : f.Before f' := by
  cases f with
  | stranger key =>
    cases f' with
    | stranger key' => exact absurd h (Nat.lt_irrefl _)
    | timeout | limit | zeroTimeout => exact h
  | timeout | limit | zeroTimeout => exact h

/-- The flaw is the first one of the table. -/
def First (t : Table) (f : Flaw) : Prop := f.In t ∧ ∀ f', f'.In t → f' = f ∨ f.Before f'

end Flaw

theorem strangers_eq (t : Table) : (t.erase timeoutKey).erase pendingKey =
    t.filter fun e => e.1 != timeoutKey && e.1 != pendingKey := by
  rw [Table.erase, Table.erase, List.filter_filter]
  simp only [Bool.and_comm]

theorem first_timeout (ht : t.Ordered) (hmem : (timeoutKey, v) ∈ t) (hfits : ¬ Fits v) :
    (Flaw.timeout v).First t := by
  refine ⟨⟨hmem, hfits⟩, fun f hf => ?_⟩
  cases f with
  | timeout v' => exact .inl (congrArg Flaw.timeout (value_unique ht hf.1 hmem))
  | limit | stranger | zeroTimeout => exact .inr (Flaw.before_of_rank (by simp [Flaw.rank]))

theorem first_limit (ht : t.Ordered) (htimeout : ∀ v, (timeoutKey, v) ∈ t → Fits v)
    (hmem : (pendingKey, v) ∈ t) (hfits : ¬ Fits v) : (Flaw.limit v).First t := by
  refine ⟨⟨hmem, hfits⟩, fun f hf => ?_⟩
  cases f with
  | timeout v' => exact absurd (htimeout v' hf.1) hf.2
  | limit v' => exact .inl (congrArg Flaw.limit (value_unique ht hf.1 hmem))
  | stranger | zeroTimeout => exact .inr (Flaw.before_of_rank (by simp [Flaw.rank]))

theorem first_stranger (ht : t.Ordered) (htimeout : ∀ v, (timeoutKey, v) ∈ t → Fits v)
    (hlimit : ∀ v, (pendingKey, v) ∈ t → Fits v) {rest : Table}
    (h : (t.erase timeoutKey).erase pendingKey = (key, v) :: rest) :
    (Flaw.stranger key).First t := by
  rw [strangers_eq] at h
  have hmem : ∀ e, e ∈ (key, v) :: rest ↔ e ∈ t ∧ e.1 ≠ timeoutKey ∧ e.1 ≠ pendingKey := by
    intro e
    rw [← h, List.mem_filter]
    simp
  have hsorted : Table.Ordered ((key, v) :: rest) := h ▸ ht.sublist List.filter_sublist
  obtain ⟨hkey, hne⟩ := (hmem (key, v)).1 List.mem_cons_self
  refine ⟨⟨⟨v, hkey⟩, hne⟩, fun f hf => ?_⟩
  cases f with
  | timeout v' => exact absurd (htimeout v' hf.1) hf.2
  | limit v' => exact absurd (hlimit v' hf.1) hf.2
  | stranger key' =>
    obtain ⟨⟨v', hkey'⟩, hne'⟩ := hf
    rcases List.mem_cons.1 ((hmem (key', v')).2 ⟨hkey', hne'⟩) with heq | hrest
    · exact .inl (congrArg Flaw.stranger (congrArg Prod.fst heq))
    · exact .inr ((List.pairwise_cons.1 hsorted).1 _ hrest)
  | zeroTimeout => exact .inr (Flaw.before_of_rank (by simp [Flaw.rank]))

/-- What a table gives the settings, or what is wrong with it first; a timeout of zero is left to
the start. -/
theorem ofTable_cases (ht : t.Ordered) :
    (∃ s, ofTable t = .ok s ∧ Gives t timeoutKey default.remoteTimeoutMs s.remoteTimeoutMs ∧
        Gives t pendingKey default.maxPending s.maxPending ∧
        (∀ v, (timeoutKey, v) ∈ t → Fits v) ∧ (∀ v, (pendingKey, v) ∈ t → Fits v) ∧
        ∀ e ∈ t, e.1 = timeoutKey ∨ e.1 = pendingKey) ∨
      ∃ f : Flaw, ofTable t = .error f.reason ∧ f.First t ∧ f.lines = [] := by
  unfold ofTable
  rcases field_cases ht timeoutKey "u64" default.remoteTimeoutMs with
    ⟨timeout, hfield, htimeout, hfits⟩ | ⟨v, hfield, hmem, hfits⟩
  · rcases field_cases ht pendingKey "usize" default.maxPending with
      ⟨limit, hfield', hlimit, hfits'⟩ | ⟨v, hfield', hmem, hfits'⟩
    · rw [hfield, hfield']
      cases hrest : (t.erase timeoutKey).erase pendingKey with
      | nil =>
        refine .inl ⟨⟨timeout, limit⟩, rfl, htimeout, hlimit, hfits, hfits', ?_⟩
        rw [strangers_eq, List.filter_eq_nil_iff] at hrest
        intro e he
        have hknown := hrest e he
        simp only [Bool.and_eq_true, bne_iff_ne, not_and_or, not_not] at hknown
        exact hknown
      | cons e rest =>
        exact .inr ⟨.stranger e.1, rfl, first_stranger ht hfits hfits' hrest, rfl⟩
    · rw [hfield, hfield']
      exact .inr ⟨.limit v, rfl, first_limit ht hfits hmem hfits', rfl⟩
  · rw [hfield]
    exact .inr ⟨.timeout v, rfl, first_timeout ht hmem hfits, rfl⟩

end Settings

namespace Coordinator

open Settings (Fits Flaw Gives timeoutKey pendingKey)

variable {home : NodeId} {epoch : Epoch} {t : Toml.Table}

/-- How the start comes out whose settings the table gives. -/
structure Starts (home : NodeId) (epoch : Epoch) (t : Toml.Table)
    (x : Logged (Except SettingsError Coordinator)) : Prop where
  /-- It succeeds just if all keys are settings, all values fit, and the timeout is not zero. -/
  succeeds_iff : (∃ c, x.value = .ok c) ↔
    (∀ e ∈ t, (e.1 = timeoutKey ∨ e.1 = pendingKey) ∧ Fits e.2) ∧
      ¬ Gives t timeoutKey Settings.default.remoteTimeoutMs 0
  /-- Then nothing is issued yet, under the given settings and at the given epoch. -/
  succeeds : ∀ c, x.value = .ok c → c = new home epoch c.settings ∧ c.engine.view.epoch = epoch ∧
    Gives t timeoutKey Settings.default.remoteTimeoutMs c.settings.remoteTimeoutMs ∧
    Gives t pendingKey Settings.default.maxPending c.settings.maxPending ∧
    x.log = [.ready epoch c.settings.remoteTimeoutMs]
  /-- If it fails, the first flaw is reported, and only a timeout of zero is logged. -/
  fails : ∀ e, x.value = .error e →
    ∃ f : Flaw, f.First t ∧ e = f.reason ∧ x.log.map (·.line) = f.lines
  /-- Only who starts is ready. -/
  ready : (∃ c, x.value = .ok c) ∨ ∀ epoch ms, .ready epoch ms ∉ x.log

theorem start_of_pos {s : Settings} (h : s.remoteTimeoutMs ≠ 0) :
    start home epoch s = ⟨.ok (new home epoch s), [.ready epoch s.remoteTimeoutMs]⟩ := by
  rw [start, if_neg h]
  rfl

theorem start_of_zero {s : Settings} (h : s.remoteTimeoutMs = 0) :
    start home epoch s = ⟨.error .zeroTimeout, [.refused .zeroTimeout]⟩ := by
  rw [start, if_pos h]
  rfl

theorem first_zeroTimeout {ms : Nat} (hms : ms = 0)
    (htimeout : Gives t timeoutKey Settings.default.remoteTimeoutMs ms)
    (hfits : ∀ v, (timeoutKey, v) ∈ t → Fits v) (hfits' : ∀ v, (pendingKey, v) ∈ t → Fits v)
    (hknown : ∀ e ∈ t, e.1 = timeoutKey ∨ e.1 = pendingKey) : Flaw.zeroTimeout.First t := by
  subst hms
  refine ⟨htimeout, fun f hf => ?_⟩
  cases f with
  | timeout v => exact absurd (hfits v hf.1) hf.2
  | limit v => exact absurd (hfits' v hf.1) hf.2
  | stranger key =>
    obtain ⟨⟨v, hv⟩, hne, hne'⟩ := hf
    rcases hknown _ hv with h | h
    · exact absurd h hne
    · exact absurd h hne'
  | zeroTimeout => exact .inl rfl

theorem not_startable_of_in {f : Flaw} (h : f.In t) :
    ¬ ((∀ e ∈ t, (e.1 = timeoutKey ∨ e.1 = pendingKey) ∧ Fits e.2) ∧
      ¬ Gives t timeoutKey Settings.default.remoteTimeoutMs 0) := by
  intro hall
  cases f with
  | timeout v => exact h.2 (hall.1 _ h.1).2
  | limit v => exact h.2 (hall.1 _ h.1).2
  | stranger key =>
    obtain ⟨⟨v, hv⟩, hne, hne'⟩ := h
    rcases (hall.1 _ hv).1 with h | h
    · exact hne h
    · exact hne' h
  | zeroTimeout => exact hall.2 h

theorem starts_of_error {e : SettingsError} {log : List Notice} {f : Flaw} (hf : f.First t)
    (he : e = f.reason) (hlog : log.map (·.line) = f.lines)
    (hready : ∀ epoch ms, .ready epoch ms ∉ log) : Starts home epoch t ⟨.error e, log⟩ where
  succeeds_iff := iff_of_false (fun h => by cases h.choose_spec) (not_startable_of_in hf.1)
  succeeds := nofun
  fails := fun e' he' => ⟨f, hf, (Except.error.inj he').symm.trans he, hlog⟩
  ready := .inr hready

/-- How the start comes out whose settings an ordered table gives. -/
theorem startWith_starts (home : NodeId) (epoch : Epoch) (ht : t.Ordered) :
    Starts home epoch t (startWith home epoch t) := by
  unfold startWith
  rcases Settings.ofTable_cases ht with
    ⟨s, hs, htimeout, hlimit, hfits, hfits', hknown⟩ | ⟨f, hf, hfirst, hlines⟩
  · rw [hs]
    dsimp only
    by_cases hzero : s.remoteTimeoutMs = 0
    · rw [start_of_zero hzero]
      exact starts_of_error (first_zeroTimeout hzero htimeout hfits hfits' hknown) rfl rfl
        (fun _ _ => by simp)
    · rw [start_of_pos hzero]
      refine ⟨iff_of_true ⟨_, rfl⟩ ⟨fun e he => ⟨hknown e he, ?_⟩, fun h => ?_⟩, fun c hc => ?_,
        nofun, .inl ⟨_, rfl⟩⟩
      · rcases hknown e he with h | h
        · exact hfits _ (h ▸ he)
        · exact hfits' _ (h ▸ he)
      · exact hzero (htimeout.unique ht h)
      · cases hc
        exact ⟨rfl, rfl, htimeout, hlimit, rfl⟩
  · rw [hf]
    exact starts_of_error hfirst rfl hlines.symm nofun

/-- **Settings.** For every table whose keys are in the order of their bytes, as those of every
document are, a coordinator starts just if all keys are settings, all values fit, and the timeout is
not zero. Then each setting has the value that the table gives to it, or its usual one. Else the
first flaw of the table is reported, whatever others there are, and nothing but a timeout of zero is
logged. -/
theorem start_heedsSettings (home : NodeId) (epoch : Epoch) :
    (∀ t : Toml.Table, t.Ordered → Starts home epoch t (startWith home epoch t)) ∧
      ∀ document t, Toml.parse document = some t → t.Ordered ∧
        Starts home epoch t (startFrom home epoch (some document)) := by
  refine ⟨fun t ht => startWith_starts home epoch ht, fun document t hparse => ?_⟩
  have ht := Toml.ordered_of_parse hparse
  refine ⟨ht, ?_⟩
  rw [startFrom, hparse]
  exact startWith_starts home epoch ht

/-- A limit that does not fit, two keys that are no settings, and a timeout of zero. -/
def flawedTable : Toml.Table :=
  [("aa", .array []), ("max_pending", .integer (-1)), ("remote_timeout_ms", .integer 0),
   ("zz", .boolean true)]

/-- The same, as it may be written. -/
def flawedDocument : String := "zz = true\nremote_timeout_ms = 0\nmax_pending = -1\naa = []"

theorem start_heedsSettings_flawedTable :
    flawedTable.Ordered ∧ Starts 0 5 flawedTable (startWith 0 5 flawedTable) ∧
      (startWith 0 5 flawedTable).value = .error (.wrongValue (.integer (-1)) "usize") ∧
      ∃ t, Toml.parse flawedDocument = some t ∧
        Starts 0 5 t (startFrom 0 5 (some flawedDocument)) := by
  have hordered : flawedTable.Ordered := by
    unfold Toml.Table.Ordered
    decide +kernel
  have hread : (Toml.parse flawedDocument).isSome = true := by decide +kernel
  obtain ⟨t, ht⟩ := Option.isSome_iff_exists.1 hread
  exact ⟨hordered, (start_heedsSettings 0 5).1 _ hordered, rfl, t, ht,
    ((start_heedsSettings 0 5).2 _ t ht).2⟩

end Coordinator
end BackupAcks
