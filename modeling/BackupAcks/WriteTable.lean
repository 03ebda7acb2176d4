import BackupAcks.Log
import BackupAcks.Reply
import BackupAcks.Write.Pending

/-!
# The writes of one node

The table is the registry of §4.2: it issues identifiers, keeps the writes that still wait, and
keeps the handle of every write ever issued, from which the caller learns the outcome. A handle is
settled at most once, and a write leaves the table in the step that settles its handle.

Events are fed to single writes (`apply`) or to all that wait (`sweep`). Neither ever fails: an
event for an unknown or settled write, or from an older epoch, is reported and dropped.
-/
namespace BackupAcks

/-- The caller's view of a write: its outcome, once there is one (the completion handle of §4.2). -/
structure Handle where
  id : WriteId
  outcome : Option Outcome
  deriving DecidableEq, Repr

/-- Gives a handle its outcome, unless it has one: the first that comes wins (§4.3, §5). -/
def Handle.settle (o : Outcome) (h : Handle) : Handle := { h with outcome := h.outcome.or (some o) }

/-- A settled handle keeps its outcome. -/
theorem Handle.settle_of_settled {h : Handle} {o' : Outcome} (o : Outcome)
    (hs : h.outcome = some o') : h.settle o = h := by
  cases h
  simp_all [settle]

/-- The writes that one node issued; the lists hold the newest first. -/
structure WriteTable where
  ids : IdSource
  /-- Writes that wait for confirmations. -/
  pending : List PendingWrite
  /-- Handles of all writes. -/
  handles : List Handle
  /-- Number of writes that may wait at once; zero for no limit. -/
  capacity : Nat
  /-- Whether collection was shut down. -/
  stopped : Bool
  deriving DecidableEq, Repr

namespace WriteTable

/-- The table of a node that issued nothing yet. -/
def new (home : NodeId) (capacity : Nat) : WriteTable := ⟨.new home, [], [], capacity, false⟩

def home (t : WriteTable) : NodeId := t.ids.origin

/-! ## Looking up -/

def find? (t : WriteTable) (id : WriteId) : Option PendingWrite := t.pending.find? (·.id == id)

def handle? (t : WriteTable) (id : WriteId) : Option Handle := t.handles.find? (·.id == id)

def outcome? (t : WriteTable) (id : WriteId) : Option Outcome := (t.handle? id).bind (·.outcome)

/-- Whether a write was issued and has no outcome. -/
def isOpen (t : WriteTable) (id : WriteId) : Bool :=
  t.handles.any fun h => h.id == id && h.outcome.isNone

/-- Whether a write is in the table and has no outcome. -/
def hasPending (t : WriteTable) (id : WriteId) : Bool := (t.find? id).any fun w => t.isOpen w.id

/-- The number of confirmations a waiting write still needs. -/
def outstanding? (t : WriteTable) (id : WriteId) : Option Nat :=
  ((t.find? id).filter fun w => t.isOpen w.id).map (·.requirement.outstanding)

/-- The writes in the table that have no outcome. -/
def pendingIds (t : WriteTable) : List WriteId :=
  (t.pending.filter fun w => t.isOpen w.id).map (·.id)

def size (t : WriteTable) : Nat := t.pending.length

/-! ## Settling -/

/-- Settles the open handle of the named write, the newest one if an identifier was issued again. -/
def settleIn (id : WriteId) (o : Outcome) : List Handle → List Handle
  | [] => []
  | h :: rest =>
    if h.id = id ∧ h.outcome = none then h.settle o :: rest else h :: settleIn id o rest

/-- Ends one write, if its handle is open; says whether it did. -/
def settle (id : WriteId) (o : Outcome) (t : WriteTable) : Bool × WriteTable :=
  if t.isOpen id then
    (true, { t with
      handles := settleIn id o t.handles
      pending := t.pending.filter (·.id != id) })
  else (false, t)

/-! ## Registering -/

/-- The outcome of a new write that never has to wait: collection was shut down, nobody has to
confirm it, or too many others wait already (§14, §4.2 and §13). The first reason counts. -/
def immediateOutcome (r : Requirement) (t : WriteTable) : Option Outcome :=
  if t.stopped then some (.failure .stopping)
  else if r.isSatisfied then some .success
  else if 0 < t.capacity ∧ t.capacity ≤ t.size then some (.failure (.overloaded t.size))
  else none

def registrationNotice (id : WriteId) (epoch : Epoch) : Option Outcome → Notice
  | none => .collectionStarted id epoch
  | some .success => .nothingToWaitFor id
  | some (.failure (.overloaded n)) => .rejectedOverloaded id n
  | some (.failure _) => .rejectedStopped id

/-- Issues an identifier for a new write and, if it has to wait, starts to collect its
confirmations. The new write takes the place of one that waits under the same identifier. -/
def register (r : Requirement) (epoch : Epoch) (t : WriteTable) : Logged (WriteId × WriteTable) :=
  let (id, ids) := t.ids.issue
  let outcome := t.immediateOutcome r
  do
    .tell (registrationNotice id epoch outcome)
    return (id, { t with
      ids := ids
      handles := ⟨id, outcome⟩ :: t.handles
      pending :=
        if outcome.isNone then ⟨id, epoch, r⟩ :: t.pending.filter (·.id != id) else t.pending })

/-! ## Events -/

/-- Puts a changed write in the place of the one with its identifier. -/
def update (w : PendingWrite) (t : WriteTable) : WriteTable :=
  { t with pending := t.pending.map fun x => if x.id = w.id then w else x }

/-- Feeds an event to one write; says whether that ended the write. -/
def apply (id : WriteId) (event : EventKind) (rule : PendingWrite → Ruling) (t : WriteTable) :
    Logged (Bool × WriteTable) :=
  match t.find? id with
  | none => ⟨(false, t), [.unknownWrite event id]⟩
  | some w =>
    if t.isOpen w.id then
      match rule w with
      | .stale current => ⟨(false, t), [.staleEvent event id current]⟩
      | .waiting w => ⟨(false, t.update w), []⟩
      | .settled o => ⟨t.settle id o, [.settled event id o]⟩
    else ⟨(false, t), [.alreadySettled event id]⟩

def ack (id : WriteId) (sender : NodeId) (epoch : Epoch) (t : WriteTable) :
    Logged (Bool × WriteTable) :=
  t.apply id .ack (·.ack sender epoch none)

/-- A confirmation for one segment of a write. -/
def segmentAck (id : WriteId) (sender : NodeId) (epoch : Epoch) (segment : SegmentId)
    (t : WriteTable) : Logged (Bool × WriteTable) :=
  t.apply id .segmentAck (·.ack sender epoch (some segment))

def error (id : WriteId) (sender : NodeId) (epoch : Epoch) (cause : String) (t : WriteTable) :
    Logged (Bool × WriteTable) := do
  let r ← t.apply id .error (·.error sender epoch cause)
  if r.1 then .tell (.failedRemotely id sender)
  return r

/-- Ends a write with a given outcome, if it still waits, as a deadline does that passes (§4.6). -/
def finish (id : WriteId) (o : Outcome) (t : WriteTable) : Logged (Bool × WriteTable) :=
  t.apply id .forcedCompletion fun _ => .settled o

/-- Feeds a reply of `sender` to the write it is about. -/
def deliver (sender : NodeId) (r : Reply) (t : WriteTable) : Logged (Bool × WriteTable) :=
  match r with
  | .ack id epoch => t.ack id sender epoch
  | .segmentAck id epoch segment => t.segmentAck id sender epoch segment
  | .errorAck id epoch cause => t.error id sender epoch cause

/-- The rule as it is fed to the writes of the table: settled ones are passed over. -/
def ruleOpen (rule : PendingWrite → Ruling) (t : WriteTable) (w : PendingWrite) : Ruling :=
  if t.isOpen w.id then rule w else .waiting w

/-- Feeds an event to every write that waits, and lists the outcomes of those it ends. -/
def sweep (rule : PendingWrite → Ruling) (t : WriteTable) : List Outcome × WriteTable :=
  let rulings := t.pending.map fun w => (w, t.ruleOpen rule w)
  let settled := rulings.filterMap fun e => e.2.outcome?.map fun o => (e.1.id, o)
  (settled.map Prod.snd,
    { t with
      pending := rulings.filterMap fun e => e.2.remaining? e.1
      handles := settled.foldl (fun handles e => settleIn e.1 e.2 handles) t.handles })

/-- Shuts collection down: every write that waits fails, the table is emptied (§5), and every later
write fails (§14). Returns the number of writes this ended. -/
def stop (t : WriteTable) : Nat × WriteTable :=
  let r := t.sweep fun _ => .settled (.failure .stopping)
  (r.1.length, { r.2 with pending := [], stopped := true })

end WriteTable
end BackupAcks
