import BackupAcks.Deadline
import BackupAcks.WriteTable

/-!
# The parts at work

A node follows the cluster's assignments as they are activated. Activating one moves every waiting
write to it; an assignment older than the active one is refused and leaves no trace. A write that
was registered for an older epoch than the active one catches up by itself, so that it makes no
difference whether it was registered before or after the activation.

An `Engine` is the table of writes, the assignment it follows, the deadlines and the clock, each
of which can be moved on its own. The clock stands still between steps; `settle` lets the sweeper
do all that is due at the present reading.
-/
namespace BackupAcks

/-! ## The active assignment -/

/-- What a node knows of the assignment in force (TopologyReconciler, §4.5). -/
structure ActiveView where
  /-- The node whose writes follow the assignment. -/
  home : NodeId
  /-- The highest epoch seen so far. -/
  epoch : Epoch
  /-- The assignment of that epoch, once one was activated. -/
  latest : Option Ownership
  deriving DecidableEq

namespace ActiveView

def new (home : NodeId) (epoch : Epoch) : ActiveView := ⟨home, epoch, none⟩

/-- Activates an assignment for all waiting writes (§4.5). Activations are to come in the order of
their epochs (§6); one that does not is refused. Returns the number of writes this ended. -/
def activate (v : Ownership) (a : ActiveView) (t : WriteTable) :
    Logged (Nat × ActiveView × WriteTable) :=
  if v.epoch < a.epoch then do
    .tell (.outOfOrder v.epoch a.epoch)
    return (0, a, t)
  else
    let r := t.sweep (·.adopt a.home v)
    let satisfied := r.1.count .success
    do
      .tell (.activated v.epoch satisfied (r.1.length - satisfied))
      return (r.1.length, { a with epoch := v.epoch, latest := some v }, r.2)

/-- Brings a write that was registered for `epoch` up to the active assignment (§14, late
registration); says whether that ended the write. -/
def catchUp (id : WriteId) (epoch : Epoch) (a : ActiveView) (t : WriteTable) :
    Logged (Bool × WriteTable) :=
  if a.epoch ≤ epoch then return (false, t)
  else
    match a.latest with
    | none => return (false, t)
    | some v => do
      .tell (.registeredBehind id epoch v.epoch)
      t.apply id .catchUp (·.adopt a.home v)

end ActiveView

/-- A change of membership without a new assignment (§14). Returns the number of writes this
ended. -/
def WriteTable.restrict (members : NodeSet) (t : WriteTable) : Logged (Nat × WriteTable) :=
  let r := t.sweep (·.dropDeparted members)
  do
    .tell (.membership members r.1.length)
    return (r.1.length, r.2)

/-! ## The engine -/

/-- The parts that work together, and the clock. -/
structure Engine where
  table : WriteTable
  view : ActiveView
  desk : DeadlineDesk
  now : Instant
  deriving DecidableEq

namespace Engine

/-- The parts at the start. `home` issues the writes; the assignment is followed on behalf of
`follower`, as a rule the same node. -/
def new (home follower : NodeId) (epoch : Epoch) (capacity : Nat) : Engine :=
  ⟨.new home capacity, .new follower epoch, .new, 0⟩

def launch (e : Engine) : Logged Engine := do
  .tell .sweeperSpawned
  return e

/-! ### Steps -/

/-- Lets the table take a step. -/
def onTable {α : Type} (f : WriteTable → Logged (α × WriteTable)) (e : Engine) :
    Logged (α × Engine) := do
  let r ← f e.table
  return (r.1, { e with table := r.2 })

def register (r : Requirement) (epoch : Epoch) : Engine → Logged (WriteId × Engine) :=
  onTable (·.register r epoch)

def catchUp (id : WriteId) (epoch : Epoch) (e : Engine) : Logged (Bool × Engine) :=
  e.onTable (e.view.catchUp id epoch)

def activate (v : Ownership) (e : Engine) : Logged (Nat × Engine) := do
  let r ← e.view.activate v e.table
  return (r.1, { e with view := r.2.1, table := r.2.2 })

def schedule (id : WriteId) (timeout : Duration) (e : Engine) : Except ScheduleError Engine := do
  return { e with desk := ← e.desk.schedule e.now id timeout }

/-- Shuts the table down, but not the sweeper. -/
def stopTable (e : Engine) : Nat × Engine :=
  let r := e.table.stop
  (r.1, { e with table := r.2 })

/-- Ends the sweeper without a word. -/
def closeDesk (e : Engine) : Engine := { e with desk := e.desk.close }

/-- Lets the sweeper end by itself. -/
def retireSweeper (e : Engine) : Logged Engine := do
  if e.desk.isOpen then .tell .sweeperExited
  return e.closeDesk

/-! ### The sweeper's work -/

/-- Fails the writes whose deadlines have passed, as far as they still wait (§4.6). -/
def timeOut : List Deadline → WriteTable → Logged WriteTable
  | [], t => return t
  | d :: due, t => do
    let afterMs := Duration.toMillis d.timeout
    let r ← t.finish d.id (.failure (.timeout afterMs))
    if r.1 then .tell (.timedOut d.id afterMs)
    timeOut due r.2

/-- The sweeper takes one deadline off the queue. -/
def receive (e : Engine) : Engine := { e with desk := e.desk.receive }

/-- The sweeper's alarm has its turn. -/
def expire (e : Engine) : Logged Engine :=
  let r := e.desk.expire e.now
  do
    let table ← timeOut r.1 e.table
    return { e with table := table, desk := r.2 }

/-- The sweeper empties its queue, and its alarm has its turn. -/
def settle (e : Engine) : Logged Engine :=
  { e with desk := e.desk.receiveAll }.expire

def advance (d : Duration) (e : Engine) : Engine := { e with now := e.now + d }

/-- The clock moves on to `i`, unless it is past it. -/
def advanceTo (i : Instant) (e : Engine) : Engine := { e with now := max e.now i }

end Engine

end BackupAcks
