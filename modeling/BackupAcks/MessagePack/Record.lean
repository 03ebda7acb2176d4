import BackupAcks.MessagePack.Reader

/-!
# Records

A record is written as an array of its fields in order, or as a map from field names (or field
numbers) to values in any order. In a map, entries that belong to no field are skipped; a field
that comes twice or not at all is refused. A block of bytes stands for an array of small numbers.
-/
namespace BackupAcks.MessagePack

/-- The values of a record whose fields have the given types. -/
def Row : List Type → Type
  | [] => Unit
  | α :: ts => α × Row ts

/-- The values of a record of which some may be missing. -/
def Partial : List Type → Type
  | [] => Unit
  | α :: ts => Option α × Partial ts

/-- The fields of a record: each has a name, a reader, and a reading of a single byte. -/
inductive Fields : List Type → Type 1 where
  | nil : Fields []
  | cons {α : Type} {ts : List Type} (name : String) (read : Reader α)
      (ofByte : UInt8 → Except DecodeError α) (rest : Fields ts) : Fields (α :: ts)

namespace Fields

variable {ts : List Type}

def names : {ts : List Type} → Fields ts → List String
  | _, .nil => []
  | _, .cons name _ _ rest => name :: rest.names

/-! ## In order -/

/-- The fields from an array of which `length` elements are left, the first of them at `index`. -/
def readInOrder (expected : String) : {ts : List Type} → (index length : Nat) → Fields ts →
    Reader (Row ts)
  | _, index, length, .nil =>
    if length = 0 then return () else throw (.wrongLength index)
  | _, index, length, .cons _ read _ rest =>
    match length with
    | 0 => throw (.tooShort index expected)
    | length + 1 => do
      let value ← read
      let values ← rest.readInOrder expected (index + 1) length
      return (value, values)

/-- The fields from single bytes, the first of them at `index`; bytes left over are ignored. -/
def ofBytes (expected : String) : {ts : List Type} → (index : Nat) → List UInt8 → Fields ts →
    Except DecodeError (Row ts)
  | _, _, _, .nil => .ok ()
  | _, index, [], .cons _ _ _ _ => .error (.tooShort index expected)
  | _, index, b :: bytes, .cons _ _ ofByte rest => do
    let value ← ofByte b
    let values ← rest.ofBytes expected (index + 1) bytes
    return (value, values)

/-! ## By name -/

def blank : {ts : List Type} → Fields ts → Partial ts
  | _, .nil => ()
  | _, .cons _ _ _ rest => (none, rest.blank)

/-- Reads the value of field number `i`, which must not have one yet. -/
def fill : {ts : List Type} → (i : Nat) → Fields ts → Partial ts → Reader (Partial ts)
  | _, _, .nil, values => return values
  | _, 0, .cons name read _ _, (value, values) => do
    if value.isSome then throw (.duplicateField name)
    return (some (← read), values)
  | _, i + 1, .cons _ _ _ rest, (value, values) => do
    return (value, ← rest.fill i values)

def complete : {ts : List Type} → Fields ts → Partial ts → Except DecodeError (Row ts)
  | _, .nil, _ => .ok ()
  | _, .cons name _ _ _, (none, _) => .error (.missingField name)
  | _, .cons _ _ _ rest, (some value, values) => do
    return (value, ← rest.complete values)

/-- The number of the field that a map key names, if it names one. -/
def readKey (fields : Fields ts) : Reader (Option Nat) := do
  let names := fields.names
  match ← readHead with
  | .scalar (.unsigned n) => return if n < names.length then some n else none
  | .str n | .bin n =>
    let key ← readPayload n
    return names.findIdx? fun name => Utf8.encode name == key
  | h => h.refuse "field identifier"

/-- Takes `n` entries of a map into `values`. -/
def readEntries (room : Nat) (fields : Fields ts) : (n : Nat) → Partial ts → Reader (Partial ts)
  | 0, values => return values
  | n + 1, values => do
    match ← fields.readKey with
    | some i => fields.readEntries room n (← fields.fill i values)
    | none =>
      skip room
      fields.readEntries room n values

end Fields

/-- A record in any of its spellings. `room` is what is left for its fields; `name` is what the
diagnostics call it, and `shape` what they say about its length. -/
def readRecord {ts : List Type} (room : Nat) (name shape : String) (fields : Fields ts) :
    Reader (Row ts) := do
  match ← readHead with
  | .array n => fields.readInOrder (name ++ shape) 0 n
  | .map n => do
    let values ← fields.readEntries room n fields.blank
    fields.complete values
  | .bin n => do
    let bytes ← readPayload n
    fields.ofBytes (name ++ shape) 0 bytes
  | h => h.refuse name

end BackupAcks.MessagePack
