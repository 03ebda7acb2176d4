import BackupAcks.Text.Diagnostics

/-!
# TOML values

The values of a TOML document. A table lists its entries in the order in which they were made,
each key once. Dates and times keep their parts; where a plain text is wanted they show themselves in the
format of RFC 3339.
-/
namespace BackupAcks.Toml

structure Date where
  year : Nat
  month : Nat
  day : Nat
  deriving DecidableEq, Repr

structure Time where
  hour : Nat
  minute : Nat
  second : Nat
  nanosecond : Nat
  deriving DecidableEq, Repr

/-- Distance from universal time: none at all, or so many minutes east of it. -/
inductive Offset where
  | universal
  | east (minutes : Int)
  deriving DecidableEq, Repr

/-- A date, a time, or both, the latter possibly with an offset. -/
inductive Datetime where
  | date (d : Date)
  | time (t : Time)
  | both (d : Date) (t : Time) (offset : Option Offset)
  deriving DecidableEq, Repr

/-- A number of at least `width` digits. -/
def padded (width n : Nat) : String :=
  let ds := Nat.toDigits 10 n
  String.ofList (List.replicate (width - ds.length) '0' ++ ds)

def Date.text (d : Date) : String :=
  padded 4 d.year ++ "-" ++ padded 2 d.month ++ "-" ++ padded 2 d.day

def Time.text (t : Time) : String :=
  let fraction :=
    ((padded 9 t.nanosecond).toList.reverse.dropWhile (· == '0')).reverse
  padded 2 t.hour ++ ":" ++ padded 2 t.minute ++ ":" ++ padded 2 t.second ++
    (if t.nanosecond = 0 then "" else "." ++ String.ofList fraction)

def Offset.text : Offset → String
  | .universal => "Z"
  | .east minutes =>
    (if minutes < 0 then "-" else "+") ++ padded 2 (minutes.natAbs / 60) ++ ":" ++
      padded 2 (minutes.natAbs % 60)

def Datetime.text : Datetime → String
  | .date d => d.text
  | .time t => t.text
  | .both d t offset => d.text ++ "T" ++ t.text ++ (offset.map Offset.text).getD ""

inductive Value where
  | string (s : String)
  | integer (i : Int)
  | float (x : Binary64)
  | boolean (b : Bool)
  | datetime (d : Datetime)
  | array (elements : List Value)
  | table (entries : List (String × Value))
  deriving Repr

def Value.kind : Value → Kind
  | .string s => .string s
  | .integer i => .integer i
  | .float x => .float x
  | .boolean b => .boolean b
  | .datetime d => .string d.text
  | .array _ => .sequence
  | .table _ => .map

abbrev Table := List (String × Value)

namespace Table

def find? (t : Table) (key : String) : Option Value :=
  (List.find? (fun e => e.1 == key) t).map Prod.snd

def erase (t : Table) (key : String) : Table := t.filter fun e => e.1 != key

def replace (t : Table) (key : String) (v : Value) : Table :=
  t.map fun e => if e.1 == key then (key, v) else e

/-- The entries in the order of their keys, character by character. -/
def sorted (t : Table) : Table := t.mergeSort fun a b => !decide (b.1 < a.1)

end Table
end BackupAcks.Toml
