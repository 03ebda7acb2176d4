import BackupAcks.Cluster.NodeSet
import BackupAcks.Text.Diagnostics

/-!
# Writes, by name and by outcome

A write is named by the node that issued it and a sequence number of that node. An `IdSource`
issues the numbers of one node in ascending order.

A write that was handed to its backups either gathers every confirmation it needs, or fails for
one of five reasons. A failure that came from the state of the cluster, and not from the write,
may be answered by issuing the write again.
-/
namespace BackupAcks

/-! ## Identifiers -/

/-- Name of a write: the node that issued it, and its number there (OperationId, §3). -/
structure WriteId where
  origin : NodeId
  seq : UInt64
  deriving DecidableEq, Hashable, Repr

namespace WriteId

def text (id : WriteId) : String := s!"{id.origin}#{id.seq}"

/-- By origin, then by sequence number. -/
def lt (a b : WriteId) : Prop := a.origin < b.origin ∨ a.origin = b.origin ∧ a.seq < b.seq

instance : LT WriteId := ⟨lt⟩

instance (a b : WriteId) : Decidable (a < b) := inferInstanceAs (Decidable (_ ∨ _))

/-- The identifiers in ascending order, repetitions kept. -/
def sorted (ids : List WriteId) : List WriteId := ids.mergeSort fun a b => !decide (b < a)

end WriteId

/-- Issues the identifiers of one node (OperationIdAllocator, §4.1). -/
structure IdSource where
  origin : NodeId
  next : UInt64
  deriving DecidableEq, Repr

namespace IdSource

/-- A source that has issued nothing yet. -/
def new (origin : NodeId) : IdSource := ⟨origin, 0⟩

/-- The next identifier, and the source after it. -/
def issue (s : IdSource) : WriteId × IdSource := (⟨s.origin, s.next⟩, { s with next := s.next + 1 })

def issueMany (s : IdSource) : Nat → List WriteId
  | 0 => []
  | count + 1 => s.issue.1 :: s.issue.2.issueMany count

end IdSource

/-! ## Outcomes -/

/-- Why a write did not gather its confirmations (§7). -/
inductive Failure where
  /-- A node could not apply the write and gave a reason. -/
  | remote (sender : NodeId) (cause : String)
  /-- The deadline passed. -/
  | timeout (afterMs : Nat)
  /-- The issuing node lost a segment of the write. -/
  | topologyChanged (epoch : Epoch)
  /-- Collection was shut down. -/
  | stopping
  /-- Too many writes were under way. -/
  | overloaded (pending : Nat)
  deriving DecidableEq, Repr

inductive Outcome where
  | success
  | failure (reason : Failure)
  deriving DecidableEq, Repr

namespace Failure

/-- Whether the caller may issue the write again under a new identifier (§12). -/
def isRetryable : Failure → Bool
  | .timeout _ | .topologyChanged _ | .overloaded _ => true
  | .remote _ _ | .stopping => false

def message : Failure → String
  | .remote sender cause => s!"backup {sender} failed: {cause}"
  | .timeout afterMs => s!"timed out waiting for backup acks after {afterMs} ms"
  | .topologyChanged epoch => s!"ownership changed in topology {epoch}"
  | .stopping => "ack collector is stopping"
  | .overloaded pending => s!"too many pending writes ({pending})"

/-- The failure as its constructor and fields, for log lines. -/
def diagnostic : Failure → String
  | .remote sender cause =>
    s!"Remote \x7b from: {sender}, cause: " ++ Text.quoted cause ++ " \x7d"
  | .timeout afterMs => s!"Timeout \x7b after_ms: {afterMs} \x7d"
  | .topologyChanged epoch => s!"TopologyChanged \x7b topology: {epoch} \x7d"
  | .stopping => "Stopping"
  | .overloaded pending => s!"Overloaded \x7b pending: {pending} \x7d"

end Failure

def Outcome.diagnostic : Outcome → String
  | .success => "Ok(())"
  | .failure reason => "Err(" ++ reason.diagnostic ++ ")"

end BackupAcks
