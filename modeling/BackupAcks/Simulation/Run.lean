import Std.Data.HashMap
import BackupAcks.Simulation.Report
import BackupAcks.Simulation.Traffic

/-!
# A simulation from start to end

The incidents of the agenda are played to a coordinator, on a clock of their own that jumps from
one to the next; deadlines that pass on the way fire before the incident. After the last one the
clock runs on until every write is settled, unless the simulation was asked to end early: then
the writes that still wait are cancelled (§15).
-/
namespace BackupAcks.Simulation

structure Progress where
  coordinator : Coordinator
  /-- When the writes ended that had to wait. -/
  ends : Std.HashMap WriteId Instant
  /-- What was logged, the last remark first. -/
  remarks : List Remark

namespace Progress

def table (s : Progress) : WriteTable := s.coordinator.engine.table

/-- Those of the first writes that are not among the second. Both lists name writes in one order,
and the second is part of the first. -/
def missing : List WriteId → List WriteId → List WriteId
  | [], _ => []
  | ids, [] => ids
  | id :: ids, k :: ks => if id = k then missing ids ks else id :: missing ids (k :: ks)

/-- The writes that waited in one state of a table and not in a later one. There are none if the
table only grew by the writes issued in between. -/
def ended (before after : WriteTable) : List WriteId :=
  if after.size = before.size + (after.ids.next - before.ids.next).toNat then []
  else missing (before.pending.map (·.id))
    ((after.pending.map (·.id)).filter (·.seq < before.ids.next))

def remark (r : Remark) (s : Progress) : Progress := { s with remarks := r :: s.remarks }

/-- Lets the coordinator take a step. Of the state before it only the table is kept, to see what
ended. -/
def take (f : Coordinator → Logged Coordinator) : Progress → Progress
  | ⟨⟨settings, ⟨before, view, desk, now⟩⟩, ends, remarks⟩ =>
    let ⟨after, notices⟩ := f ⟨settings, ⟨before, view, desk, now⟩⟩
    { coordinator := after
      ends := (ended before after.engine.table).foldl
        (fun ends id => ends.insert id after.engine.now) ends
      remarks := notices.foldl (fun remarks n => .notice n :: remarks) remarks }

/-- The clock moves on, and the sweeper does what is due. -/
def moveTo (i : Instant) (s : Progress) : Progress :=
  s.take fun c => { c with engine := c.engine.advanceTo i }.settle

def play (s : Progress) (x : Incident) : Progress :=
  (s.moveTo x.due).take fun c => do return (← c.step x.event).2

/-- Moves the clock past every deadline that was set. -/
def finish (s : Progress) : Progress :=
  s.moveTo (s.coordinator.engine.now + s.coordinator.usualTimeout)

def stop (s : Progress) : Progress := s.take fun c => do return (← c.stop).2

/-- The time a write took, from its issue to its end; none if it did not have to wait. -/
def timeOf (p : Parameters) (s : Progress) (id : WriteId) : Duration :=
  match s.ends[id]? with
  | none => 0
  | some i => i - issueTime p id.seq.toNat

/-- The report on what happened, the bytes of the replies being given. -/
def report (p : Parameters) (replyBytes : Nat) (s : Progress) : Report where
  tally := Tally.ofOutcomes (s.table.handles.filterMap (·.outcome))
  replyBytes := replyBytes
  latencies := (s.table.handles.filter (·.outcome == some .success)).map fun h => s.timeOf p h.id

end Progress

/-- The number of writes issued up to an instant. -/
def issuedBy (p : Parameters) (i : Instant) : Nat :=
  min p.writes (i / Duration.ofMicros p.intervalUs + 1)

def initialEpoch : Epoch := 1

/-- Whether the simulation is asked to end before all writes are issued; if so, when, and the number
of writes issued until then. -/
def cutShort? (p : Parameters) (terminateAt : Option Instant) : Option (Instant × Nat) :=
  terminateAt.bind fun i =>
    let count := issuedBy p i
    if count < p.writes then some (i, count) else none

/-- Plays everything to a coordinator, from the state `s` on. -/
def playAll (p : Parameters) (chance : Chance) (terminateAt : Option Instant) (s : Progress) :
    Nat × Progress :=
  match cutShort? p terminateAt with
  | none =>
    let incidents := agenda p chance p.writes
    (replyBytes incidents, (incidents.foldl .play s).finish.stop)
  | some (i, count) =>
    let incidents := agenda p chance count
    let s := (incidents.takeWhile (·.due ≤ i)).foldl .play s
    let s := ((s.moveTo i).remark (.terminated count)).stop
    (replyBytes incidents, (incidents.dropWhile (·.due ≤ i)).foldl .play s)

/-- A whole simulation, asked to end at the given instant if there is one: what was logged, and the
report, unless the coordinator refused its settings. -/
def run (p : Parameters) (chance : Chance) (terminateAt : Option Instant) :
    Except SettingsError Report × List Remark :=
  let started := Coordinator.startFrom primary initialEpoch p.config
  let remarks := started.log.map .notice
  match started.value with
  | .error e => (.error e, remarks)
  | .ok c =>
    let (replyBytes, s) := playAll p chance terminateAt ⟨c, ∅, []⟩
    (.ok (s.report p replyBytes), remarks ++ s.remarks.reverse)

end BackupAcks.Simulation
