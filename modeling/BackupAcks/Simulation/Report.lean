import BackupAcks.Deadline
import BackupAcks.Log

/-!
# The report on a simulation

How the writes ended, how long the successful ones took, and what was logged on the way. Times are
shown in milliseconds with three places.
-/
namespace BackupAcks.Simulation

/-! ## How the writes ended -/

structure Tally where
  succeeded : Nat
  failed : Nat
  timedOut : Nat
  invalidated : Nat
  stopped : Nat
  rejected : Nat
  deriving DecidableEq, Repr

namespace Tally

def empty : Tally := ⟨0, 0, 0, 0, 0, 0⟩

def add (t : Tally) : Outcome → Tally
  | .success => { t with succeeded := t.succeeded + 1 }
  | .failure (.remote _ _) => { t with failed := t.failed + 1 }
  | .failure (.timeout _) => { t with timedOut := t.timedOut + 1 }
  | .failure (.topologyChanged _) => { t with invalidated := t.invalidated + 1 }
  | .failure .stopping => { t with stopped := t.stopped + 1 }
  | .failure (.overloaded _) => { t with rejected := t.rejected + 1 }

def ofOutcomes (outcomes : List Outcome) : Tally := outcomes.foldl add empty

def text (t : Tally) : String :=
  s!"ok {t.succeeded} | remote err {t.failed} | timeout {t.timedOut} | " ++
    s!"topology {t.invalidated} | stopped {t.stopped} | rejected {t.rejected}"

end Tally

/-! ## How long they took -/

/-- The largest whole number whose square is at most `n`, found bit by bit. -/
def floorRoot (n : Nat) : Nat :=
  (List.range (n.log2 / 2 + 1)).foldr
    (fun bit root =>
      let next := root + Nat.pow 2 bit
      if next * next ≤ n then next else root) 0

def total (times : List Duration) : Nat := times.foldl (· + ·) 0

/-- The mean of the given times, in whole microseconds. -/
def meanMicros (times : List Duration) : Nat :=
  (2 * total times / (1000 * times.length) + 1) / 2

/-- The standard deviation of the given times as a sample, in whole microseconds. -/
def deviationMicros (times : List Duration) : Nat :=
  let n := times.length
  let sum := total times
  let squares := n * total (times.map fun t => t * t) - sum * sum
  (floorRoot (4 * squares / (n * (n - 1) * 1000000)) + 1) / 2

/-- Microseconds as milliseconds with three places. -/
def millisText (us : Nat) : String :=
  let places := Nat.toDigits 10 (us % 1000)
  s!"{us / 1000}." ++ String.ofList (List.replicate (3 - places.length) '0' ++ places)

/-! ## What was logged -/

inductive Remark where
  /-- What the coordinator had to report. -/
  | notice (n : Notice)
  /-- The simulation was asked to end after some writes. -/
  | terminated (writes : Nat)
  | tally (t : Tally)
  | latencies (times : List Duration) (replyBytes : Nat)
  deriving DecidableEq

namespace Remark

def level : Remark → Level
  | .notice n => n.level
  | .terminated _ => .warn
  | .tally _ | .latencies _ _ => .info

def text : Remark → String
  | .notice n => n.text
  | .terminated writes => s!"termination requested after {writes} writes"
  | .tally t => t.text
  | .latencies times replyBytes =>
    s!"ack latency ms: mean {millisText (meanMicros times)} " ++
      s!"stdev {millisText (deviationMicros times)} | reply payload {replyBytes} B"

def line (r : Remark) : Line := ⟨r.level, r.text⟩

end Remark

structure Report where
  tally : Tally
  /-- The bytes of all replies that were sent. -/
  replyBytes : Nat
  /-- The times that the successful writes took. -/
  latencies : List Duration
  deriving DecidableEq, Repr

/-- The report as it is logged; times are summed up only if there are two of them. -/
def Report.remarks (r : Report) : List Remark :=
  .tally r.tally :: if 2 ≤ r.latencies.length then [.latencies r.latencies r.replyBytes] else []

end BackupAcks.Simulation
