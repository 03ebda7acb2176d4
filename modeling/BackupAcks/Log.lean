import BackupAcks.Deadline
import BackupAcks.MessagePack.Reader
import BackupAcks.Settings

/-!
# Notices

What the collection of confirmations has to report while it works is data: a `Notice` says what
happened, and its level (§11) and text are functions of it. `Logged` is a value together with the
notices issued on the way to it, in order.

A log is shown down to some level of importance, or not at all. The choice is a word: the name of
the least important level, in any case. Without a choice `info` counts, an empty choice leaves only
errors, and a word that is no level leaves nothing.
-/
namespace BackupAcks

/-- How important a log line is, from the most to the least. -/
inductive Level where
  | error | warn | info | debug | trace
  deriving DecidableEq, Repr

namespace Level

/-- Position in the order of importance, one for the most important. -/
def rank : Level → Nat
  | .error => 1 | .warn => 2 | .info => 3 | .debug => 4 | .trace => 5

def name : Level → String
  | .error => "ERROR" | .warn => "WARN" | .info => "INFO" | .debug => "DEBUG" | .trace => "TRACE"

end Level

structure Line where
  level : Level
  text : String
  deriving DecidableEq, Repr

namespace Line

/-- The line with its level and the name of the node that reports it. -/
def render (node : String) (l : Line) : String :=
  l.level.name ++ " (" ++ node ++ ") " ++ l.text

/-- The line as a console shows it: the level in brackets, padded to five letters, and further
lines of the text indented. -/
def renderConsole (node : String) (l : Line) : String :=
  "[" ++ l.level.name.pushn ' ' (5 - l.level.name.length) ++ "] (" ++ node ++ ") " ++
    "\n    ".intercalate (l.text.splitOn "\n")

end Line

/-- The kinds of events that may settle a write. -/
inductive EventKind where
  | ack | segmentAck | error | forcedCompletion | catchUp
  deriving DecidableEq, Repr

def EventKind.text : EventKind → String
  | .ack => "ack"
  | .segmentAck => "segment ack"
  | .error => "error"
  | .forcedCompletion => "forced completion"
  | .catchUp => "catch-up"

inductive Notice where
  | rejectedStopped (id : WriteId)
  | nothingToWaitFor (id : WriteId)
  | rejectedOverloaded (id : WriteId) (pending : Nat)
  | collectionStarted (id : WriteId) (epoch : Epoch)
  | unknownWrite (event : EventKind) (id : WriteId)
  | alreadySettled (event : EventKind) (id : WriteId)
  | staleEvent (event : EventKind) (id : WriteId) (current : Epoch)
  | settled (event : EventKind) (id : WriteId) (outcome : Outcome)
  | failedRemotely (id : WriteId) (sender : NodeId)
  | outOfOrder (offered active : Epoch)
  | activated (epoch : Epoch) (satisfied invalidated : Nat)
  | registeredBehind (id : WriteId) (epoch active : Epoch)
  | membership (members : NodeSet) (satisfied : Nat)
  | timeoutClamped (asked granted : Duration)
  | scheduleFailed (id : WriteId) (reason : ScheduleError)
  | timedOut (id : WriteId) (afterMs : Nat)
  | sweeperSpawned
  | sweeperExited
  | undecodable (sender : NodeId) (reason : MessagePack.DecodeError)
  | refused (reason : SettingsError)
  | ready (epoch : Epoch) (timeoutMs : Nat)
  | stopped (cancelled : Nat)
  deriving DecidableEq, Repr

namespace Notice

def level : Notice → Level
  | .scheduleFailed _ _ | .refused _ => .error
  | .rejectedOverloaded _ _ | .outOfOrder _ _ | .timeoutClamped _ _ | .undecodable _ _ => .warn
  | .ready _ _ | .stopped _ => .info
  | .rejectedStopped _ | .staleEvent _ _ _ | .failedRemotely _ _ | .activated _ _ _
  | .registeredBehind _ _ _ | .membership _ _ | .timedOut _ _ | .sweeperSpawned
  | .sweeperExited => .debug
  | .nothingToWaitFor _ | .collectionStarted _ _ | .unknownWrite _ _ | .alreadySettled _ _
  | .settled _ _ _ => .trace

def text : Notice → String
  | .rejectedStopped id => s!"rejecting write {id.text}: registry stopped"
  | .nothingToWaitFor id => s!"write {id.text} has no backups to wait for"
  | .rejectedOverloaded id pending => s!"rejecting write {id.text}: {pending} pending"
  | .collectionStarted id epoch => s!"created collector {id.text} @ {epoch}"
  | .unknownWrite event id => s!"ignoring {event.text} for {id.text}: unknown or finished"
  | .alreadySettled event id => s!"ignoring {event.text} for {id.text}: already terminal"
  | .staleEvent event id current =>
    s!"ignoring stale {event.text} for {id.text}: collector @ {current}"
  | .settled event id outcome => s!"{event.text} completes {id.text}: {outcome.diagnostic}"
  | .failedRemotely id sender => s!"write {id.text} failed remotely at {sender}"
  | .outOfOrder offered active => s!"ignoring out-of-order topology {offered} < {active}"
  | .activated epoch satisfied invalidated =>
    s!"topology {epoch} active: {satisfied} writes satisfied, {invalidated} invalidated"
  | .registeredBehind id epoch active =>
    s!"write {id.text} registered @ {epoch} behind active {active}"
  | .membership members satisfied =>
    "membership [" ++ ", ".intercalate (members.toList.map fun n => toString n.toNat) ++
      s!"]: {satisfied} writes satisfied"
  | .timeoutClamped asked granted =>
    s!"clamping write timeout {Duration.text asked} to {Duration.text granted}"
  | .scheduleFailed id reason => s!"failed to schedule deadline of {id.text}: {reason.message}"
  | .timedOut id afterMs => s!"write {id.text} timed out after {afterMs} ms"
  | .sweeperSpawned => "timeout sweeper task spawned"
  | .sweeperExited => "timeout sweeper task exited"
  | .undecodable sender reason => s!"dropping undecodable reply from {sender}: {reason.message}"
  | .refused reason => reason.message
  | .ready epoch timeoutMs => s!"ack collector ready @ {epoch} timeout {timeoutMs} ms"
  | .stopped cancelled => s!"ack collector stopped, {cancelled} writes cancelled"

def line (n : Notice) : Line := ⟨n.level, n.text⟩

end Notice

/-! ## Values with notices -/

/-- A value and the notices issued while it was computed, the oldest first. -/
structure Logged (α : Type) where
  value : α
  log : List Notice

namespace Logged

variable {α β : Type}

instance : Monad Logged where
  pure a := ⟨a, []⟩
  bind x f :=
    let ⟨a, before⟩ := x
    let ⟨b, after⟩ := f a
    ⟨b, before ++ after⟩

def tell (n : Notice) : Logged Unit := ⟨(), [n]⟩

@[simp] theorem value_pure (a : α) : (pure a : Logged α).value = a := rfl

@[simp] theorem value_bind (x : Logged α) (f : α → Logged β) :
    (x >>= f).value = (f x.value).value := rfl

@[simp] theorem log_pure (a : α) : (pure a : Logged α).log = [] := rfl

@[simp] theorem log_bind (x : Logged α) (f : α → Logged β) :
    (x >>= f).log = x.log ++ (f x.value).log := rfl

end Logged

/-! ## Which lines are shown -/

/-- The least important level that is shown; none when nothing is. -/
structure LogFilter where
  least : Option Level
  deriving DecidableEq, Repr

namespace LogFilter

def named : List (String × LogFilter) := [
  ("off", ⟨none⟩), ("error", ⟨some .error⟩), ("warn", ⟨some .warn⟩), ("info", ⟨some .info⟩),
  ("debug", ⟨some .debug⟩), ("trace", ⟨some .trace⟩)]

def ofText (choice : Option String) : LogFilter :=
  match choice.map fun text => text.trimAscii.toString.toLower with
  | none => ⟨some .info⟩
  | some "" => ⟨some .error⟩
  | some word => (named.lookup word).getD ⟨none⟩

/-- Whether lines of the level are shown. -/
def shows (f : LogFilter) (l : Level) : Bool :=
  f.least.any fun least => decide (l.rank ≤ least.rank)

end LogFilter

end BackupAcks
