import BackupAcks.Toml.Value

/-!
# Settings of the collection

Two numbers can be set, both with defaults, as the entries of a TOML table (§13). Of several faults
of a table the first in a fixed order is reported: the timeout's value, the cap's value, then the
first key in order that is not a setting.
-/
namespace BackupAcks

structure Settings where
  /-- Time a write is given, in milliseconds. -/
  remoteTimeoutMs : Nat
  /-- Number of writes that may be under way at once; zero for no limit. -/
  maxPending : Nat
  deriving DecidableEq, Repr

inductive SettingsError where
  /-- The text is no TOML document. -/
  | malformed
  | wrongType (found : Kind) (expected : String)
  | wrongValue (found : Kind) (expected : String)
  | unknownField (name : String)
  /-- A timeout of zero would expire every write at once. -/
  | zeroTimeout
  deriving DecidableEq, Repr

def SettingsError.message : SettingsError → String
  | .malformed => "TOML parse error"
  | .wrongType found expected => s!"invalid type: {found.text}, expected {expected}\n"
  | .wrongValue found expected => s!"invalid value: {found.text}, expected {expected}\n"
  | .unknownField name => s!"invalid field name '{name}' in config"
  | .zeroTimeout => "invalid config.remote_timeout_ms '0'"

namespace Settings

def default : Settings := ⟨15000, 0⟩

/-- The value of a setting: a whole number that fits 64 bits without sign. -/
def natural (expected : String) (v : Toml.Value) : Except SettingsError Nat :=
  match v with
  | .integer i =>
    if 0 ≤ i ∧ i < 0x10000000000000000 then .ok i.toNat else .error (.wrongValue v.kind expected)
  | _ => .error (.wrongType v.kind expected)

/-- The value that the table gives to a setting, or its default. -/
def field (t : Toml.Table) (key expected : String) (default : Nat) : Except SettingsError Nat :=
  match t.find? key with
  | none => .ok default
  | some v => natural expected v

/-- The names of the settings, and what their values have to be. -/
def timeoutKey : String := "remote_timeout_ms"
def pendingKey : String := "max_pending"

/-- The settings that a table gives, its entries being in the order of their keys. -/
def ofTable (t : Toml.Table) : Except SettingsError Settings := do
  let remoteTimeoutMs ← field t timeoutKey "u64" default.remoteTimeoutMs
  let maxPending ← field t pendingKey "usize" default.maxPending
  match (t.erase timeoutKey).erase pendingKey with
  | [] => return { remoteTimeoutMs, maxPending }
  | (key, _) :: _ => throw (.unknownField key)

end Settings
end BackupAcks
