import BackupAcks.CommandLine
import BackupAcks.Number.Decimal

/-!
# What a simulation is told

The parameters of a simulated cluster (§15), read from a command line. `check` refuses those that
describe no cluster; of several faults the first in the order of the definition is reported.
-/
namespace BackupAcks.Simulation

structure Parameters where
  /-- Number of backup nodes. -/
  backups : UInt32
  /-- Number of backups of each segment. -/
  copies : UInt32
  /-- Number of segments of the key space. -/
  segments : UInt32
  /-- Number of writes to issue. -/
  writes : Nat
  /-- Segments that each write touches. -/
  batch : Nat
  /-- Time between two writes, in microseconds. -/
  intervalUs : Nat
  /-- Longest time a backup takes to reply, in milliseconds. -/
  maxDelayMs : Nat
  /-- Probability that a backup reports a failure. -/
  failRate : Binary64
  /-- Probability that a reply gets lost. -/
  dropRate : Binary64
  /-- Number of writes after which the assignment changes; zero for never. -/
  rebalanceEvery : Nat
  /-- Settings of the coordinator, as a document. -/
  config : Option String
  /-- Number of worker threads asked for. -/
  threads : Nat
  deriving DecidableEq, Repr

inductive ParameterError where
  | backups (n : UInt32)
  | copies (n among : UInt32)
  | segments (n : UInt32)
  | batch (n : Nat) (among : UInt32)
  | interval (us : Nat)
  | rates (fail drop : Binary64)
  | threads (n : Nat)
  deriving DecidableEq, Repr

def ParameterError.message : ParameterError → String
  | .backups n => s!"invalid number of backups {n}"
  | .copies n among => s!"invalid copies {n} with {among} backups"
  | .segments n => s!"invalid number of segments {n}"
  | .batch n among => s!"invalid batch {n} with {among} segments"
  | .interval us => s!"invalid interval_us {us}"
  | .rates fail drop => s!"invalid fail_rate {fail.text} / drop_rate {drop.text}"
  | .threads n => s!"invalid number of threads {n}"

namespace Parameters

def default : Parameters where
  backups := 3
  copies := 2
  segments := 16
  writes := 10000
  batch := 1
  intervalUs := 100
  maxDelayMs := 10
  failRate := Binary64.ofDecimal false 1 (-2)
  dropRate := Binary64.ofDecimal false 1 (-3)
  rebalanceEvery := 0
  config := none
  threads := 4

/-! ## Checking -/

/-- Whether both rates are probabilities, and their sum too. -/
def ratesFit (p : Parameters) : Bool :=
  p.failRate.isProbability && p.dropRate.isProbability &&
    !Binary64.one.lt (p.failRate.add p.dropRate)

/-- Parameters that describe a cluster. -/
def check (p : Parameters) : Except ParameterError Parameters :=
  if p.backups = 0 then .error (.backups p.backups)
  else if p.copies = 0 ∨ p.backups < p.copies then .error (.copies p.copies p.backups)
  else if p.segments < 2 then .error (.segments p.segments)
  else if p.batch = 0 ∨ p.segments.toNat ≤ p.batch then .error (.batch p.batch p.segments)
  else if p.intervalUs = 0 then .error (.interval p.intervalUs)
  else if !p.ratesFit then .error (.rates p.failRate p.dropRate)
  else if p.threads < 2 then .error (.threads p.threads)
  else .ok p

/-! ## Reading -/

/-- A whole number of 32 bits, with an optional sign. -/
def word32? (text : String) : Option UInt32 :=
  (Reading.integer? text).bind fun i =>
    if 0 ≤ i ∧ i < 0x100000000 then some (UInt32.ofNat i.toNat) else none

/-- A whole number of 64 bits, with an optional plus sign. -/
def word64? (text : String) : Option Nat :=
  (Reading.natural? text).bind fun n => if n < 0x10000000000000000 then some n else none

def options : List (CommandLine.Setting Parameters) := [
  ⟨"backups", some 'b', fun t p => (word32? t).map fun n => { p with backups := n }⟩,
  ⟨"copies", none, fun t p => (word32? t).map fun n => { p with copies := n }⟩,
  ⟨"segments", some 's', fun t p => (word32? t).map fun n => { p with segments := n }⟩,
  ⟨"writes", some 'w', fun t p => (word64? t).map fun n => { p with writes := n }⟩,
  ⟨"batch", none, fun t p => (word64? t).map fun n => { p with batch := n }⟩,
  ⟨"interval-us", none, fun t p => (word64? t).map fun n => { p with intervalUs := n }⟩,
  ⟨"max-delay-ms", none, fun t p => (word64? t).map fun n => { p with maxDelayMs := n }⟩,
  ⟨"fail-rate", none, fun t p => (Reading.binary64? t).map fun x => { p with failRate := x }⟩,
  ⟨"drop-rate", none, fun t p => (Reading.binary64? t).map fun x => { p with dropRate := x }⟩,
  ⟨"rebalance-every", none, fun t p =>
    (word64? t).map fun n => { p with rebalanceEvery := n }⟩,
  ⟨"config", some 'c', fun t p => some { p with config := some t }⟩,
  ⟨"threads", none, fun t p => (word64? t).map fun n => { p with threads := n }⟩]

/-- The parameters that a command line gives, unchecked; all have defaults. -/
def ofWords (words : List String) : Except CommandLine.Refusal Parameters :=
  CommandLine.read options default words

end Parameters
end BackupAcks.Simulation
