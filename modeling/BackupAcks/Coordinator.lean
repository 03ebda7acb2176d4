import BackupAcks.Engine
import BackupAcks.Reply
import BackupAcks.Toml.Document

/-!
# Collecting the confirmations of replicated writes

A node that issues writes forwards each to the backups of its segments and hands it to its
`Coordinator`, which answers by a handle. The coordinator takes in the replies of the backups,
the activations of new assignments, the changes of membership, failures of the write on the node
itself, and the passing of time; the handle is settled as soon as one of them decides the write.

A write is registered in three steps: it enters the table, it catches up with the active
assignment, and, if it still waits, its deadline is set.
-/
namespace BackupAcks

/-- Collects the confirmations of one node's writes (the façade of §2). -/
structure Coordinator where
  settings : Settings
  engine : Engine
  deriving DecidableEq

namespace Coordinator

/-! ## Start -/

def new (home : NodeId) (epoch : Epoch) (s : Settings) : Coordinator :=
  ⟨s, .new home home epoch s.maxPending⟩

/-- A coordinator for the writes of `home`, at the given epoch. A timeout of zero is refused
(§13). -/
def start (home : NodeId) (epoch : Epoch) (s : Settings) :
    Logged (Except SettingsError Coordinator) :=
  if s.remoteTimeoutMs = 0 then do
    .tell (.refused .zeroTimeout)
    return .error .zeroTimeout
  else do
    .tell (.ready epoch s.remoteTimeoutMs)
    return .ok (new home epoch s)

/-- A coordinator with the settings that a table gives. -/
def startWith (home : NodeId) (epoch : Epoch) (t : Toml.Table) :
    Logged (Except SettingsError Coordinator) :=
  match Settings.ofTable t with
  | .error e => return .error e
  | .ok s => start home epoch s

/-- A coordinator with the settings that a document gives; without one, with the defaults. -/
def startFrom (home : NodeId) (epoch : Epoch) (document : Option String) :
    Logged (Except SettingsError Coordinator) :=
  match document with
  | none => start home epoch .default
  | some text =>
    match Toml.parse text with
    | none => return .error .malformed
    | some t => startWith home epoch t

/-! ## Steps -/

def onEngine {α : Type} (f : Engine → Logged (α × Engine)) (c : Coordinator) :
    Logged (α × Coordinator) := do
  let r ← f c.engine
  return (r.1, { c with engine := r.2 })

/-- The time a write is given unless the caller says otherwise. -/
def usualTimeout (c : Coordinator) : Duration := Duration.ofMillis c.settings.remoteTimeoutMs

/-- Sets the deadline of a new write if it waits. A write that cannot be given one fails. -/
def armDeadline (id : WriteId) (timeout : Duration) (e : Engine) : Logged Engine :=
  if (e.table.outcome? id).isSome then return e
  else
    match e.schedule id timeout with
    | .ok e => return e
    | .error reason => do
      .tell (.scheduleFailed id reason)
      let r ← e.onTable (·.finish id (.failure .stopping))
      return r.2

/-- Registers a write, lets it catch up, and sets its deadline. -/
def enroll (r : Requirement) (epoch : Epoch) (timeout : Duration) (c : Coordinator) :
    Logged (WriteId × Coordinator) := do
  let registered ← c.engine.register r epoch
  let caughtUp ← registered.2.catchUp registered.1 epoch
  let engine ← armDeadline registered.1 timeout caughtUp.2
  return (registered.1, { c with engine := engine })

/-- Registers a write to one segment, with a time of its own, which a year bounds (§14). -/
def createWithTimeout (owners : NodeSet) (segment : SegmentId) (epoch : Epoch)
    (timeout : Duration) (c : Coordinator) : Logged (WriteId × Coordinator) := do
  if maxTimeout < timeout then .tell (.timeoutClamped timeout maxTimeout)
  c.enroll (.single segment owners) epoch (min timeout maxTimeout)

def create (owners : NodeSet) (segment : SegmentId) (epoch : Epoch) (c : Coordinator) :
    Logged (WriteId × Coordinator) :=
  c.createWithTimeout owners segment epoch c.usualTimeout

def createSegmented (owners : SegmentMap NodeSet) (epoch : Epoch) (c : Coordinator) :
    Logged (WriteId × Coordinator) :=
  c.enroll (.ofSegments owners) epoch c.usualTimeout

def deliver (sender : NodeId) (r : Reply) : Coordinator → Logged (Bool × Coordinator) :=
  onEngine (·.onTable (·.deliver sender r))

/-- Takes in a reply as bytes (§6). Bytes that are no reply are reported and dropped. -/
def deliverBytes (sender : NodeId) (bytes : List UInt8) (c : Coordinator) :
    Logged (Bool × Coordinator) :=
  match Reply.decode bytes with
  | .ok r => c.deliver sender r
  | .error reason => do
    .tell (.undecodable sender reason)
    return (false, c)

/-- Takes in that the node itself could not apply a write that it has forwarded. This counts like a
failure that a backup reports (§14, `complete_exceptionally`). -/
def failLocally (id : WriteId) (epoch : Epoch) (cause : String) (c : Coordinator) :
    Logged (Bool × Coordinator) :=
  c.onEngine (·.onTable (·.error id c.engine.table.home epoch cause))

/-- Activates an assignment. Returns the number of writes this ended. -/
def activate (v : Ownership) : Coordinator → Logged (Nat × Coordinator) :=
  onEngine (·.activate v)

/-- Takes in a change of membership. Returns the number of writes this ended. -/
def restrict (members : NodeSet) : Coordinator → Logged (Nat × Coordinator) :=
  onEngine (·.onTable (·.restrict members))

/-- Fails all writes that wait and ends the sweeper. Returns the number of writes this ended. -/
def stop (c : Coordinator) : Logged (Nat × Coordinator) :=
  let r := c.engine.stopTable
  do
    .tell (.stopped r.1)
    return (r.1, { c with engine := r.2.closeDesk })

/-! ## Runs -/

/-- Everything that can happen to a coordinator. -/
inductive Event where
  | create (owners : NodeSet) (segment : SegmentId) (epoch : Epoch)
  | createWithTimeout (owners : NodeSet) (segment : SegmentId) (epoch : Epoch)
      (timeout : Duration)
  | createSegmented (owners : SegmentMap NodeSet) (epoch : Epoch)
  | ack (id : WriteId) (sender : NodeId) (epoch : Epoch)
  | segmentAck (id : WriteId) (sender : NodeId) (epoch : Epoch) (segment : SegmentId)
  | error (id : WriteId) (sender : NodeId) (epoch : Epoch) (cause : String)
  | failLocally (id : WriteId) (epoch : Epoch) (cause : String)
  | reply (sender : NodeId) (r : Reply)
  | bytes (sender : NodeId) (bytes : List UInt8)
  | activate (v : Ownership)
  | restrict (members : NodeSet)
  | stop
  /-- The sweeper dies without being asked to. -/
  | sweeperLost
  /-- Time passes. -/
  | advance (d : Duration)
  /-- The sweeper takes one deadline off its queue. -/
  | receive
  /-- The sweeper's alarm has its turn. -/
  | expire

/-- What the caller of an event gets back. -/
inductive Answer where
  | nothing
  | id (id : WriteId)
  | count (n : Nat)
  deriving DecidableEq, Repr

/-- Keeps the state of a step whose answer nobody reads. -/
def quiet {α : Type} (x : Logged (α × Coordinator)) : Logged (Answer × Coordinator) := do
  return (.nothing, (← x).2)

def step (c : Coordinator) : Event → Logged (Answer × Coordinator)
  | .create owners segment epoch => do
    let r ← c.create owners segment epoch
    return (.id r.1, r.2)
  | .createWithTimeout owners segment epoch timeout => do
    let r ← c.createWithTimeout owners segment epoch timeout
    return (.id r.1, r.2)
  | .createSegmented owners epoch => do
    let r ← c.createSegmented owners epoch
    return (.id r.1, r.2)
  | .ack id sender epoch => quiet (c.deliver sender (.ack id epoch))
  | .segmentAck id sender epoch segment => quiet (c.deliver sender (.segmentAck id epoch segment))
  | .error id sender epoch cause => quiet (c.deliver sender (.errorAck id epoch cause))
  | .failLocally id epoch cause => quiet (c.failLocally id epoch cause)
  | .reply sender r => quiet (c.deliver sender r)
  | .bytes sender bytes => quiet (c.deliverBytes sender bytes)
  | .activate v => do
    let r ← c.activate v
    return (.count r.1, r.2)
  | .restrict members => do
    let r ← c.restrict members
    return (.count r.1, r.2)
  | .stop => do
    let r ← c.stop
    return (.count r.1, r.2)
  | .sweeperLost => return (.nothing, { c with engine := c.engine.closeDesk })
  | .advance d => return (.nothing, { c with engine := c.engine.advance d })
  | .receive => return (.nothing, { c with engine := c.engine.receive })
  | .expire => do return (.nothing, { c with engine := ← c.engine.expire })

def run (c : Coordinator) (events : List Event) : Coordinator :=
  events.foldl (fun c e => (c.step e).value.2) c

/-- The sweeper does all that is due. -/
def settle (c : Coordinator) : Logged Coordinator := do
  return { c with engine := ← c.engine.settle }

end Coordinator
end BackupAcks
