import BackupAcks.Write.Basic

/-!
# Deadlines

Time is counted in whole nanoseconds: a `Duration` is a span, an `Instant` the span since the
clock was started.

Of the two ways that §4.6 leaves open, deadlines are kept in one sorted sweep. They are handed to
the sweeper through a queue, which it empties in order. The sweeper keeps all deadlines in order and
has one alarm, set to the earliest of them. When the alarm goes off, every deadline that has passed
is taken out, and the alarm is set to the next one, or switched off when none is left. Once the
sweeper is gone the queue is closed: waiting deadlines are lost, and new ones are refused.
-/
namespace BackupAcks

/-! ## Spans of time -/

/-- A span of time in nanoseconds. -/
abbrev Duration := Nat

/-- A reading of the clock, in nanoseconds since its start. -/
abbrev Instant := Nat

namespace Duration

-- The factor stands first: a product with an unknown second factor reduces no further.

def ofMicros (us : Nat) : Duration := 1000 * us

def ofMillis (ms : Nat) : Duration := 1000000 * ms

def ofSeconds (s : Nat) : Duration := 1000000000 * s

/-- The whole milliseconds of a span, or the most that 64 bits hold if there are more. -/
def toMillis (d : Duration) : Nat := min (d / 1000000) (UInt64.size - 1)

/-- The span in seconds, with as many decimal places as it needs. -/
def text (d : Duration) : String :=
  let fraction := Nat.toDigits 10 (d % 1000000000)
  let fraction := List.replicate (9 - fraction.length) '0' ++ fraction
  let fraction := (fraction.reverse.dropWhile (· == '0')).reverse
  toString (d / 1000000000) ++
    (if fraction.isEmpty then "" else "." ++ String.ofList fraction) ++ "s"

end Duration

/-! ## The sweeper -/

/-- The instant by which a write has to end, and the time it was given. -/
structure Deadline where
  due : Instant
  id : WriteId
  timeout : Duration
  deriving DecidableEq, Repr

namespace Deadline

/-- By instant, then by write. -/
def before (a b : Deadline) : Prop := a.due < b.due ∨ a.due = b.due ∧ a.id < b.id

instance (a b : Deadline) : Decidable (a.before b) := inferInstanceAs (Decidable (_ ∨ _))

/-- Whether two deadlines are of one write and one instant. -/
def sameKey (a b : Deadline) : Prop := a.due = b.due ∧ a.id = b.id

instance (a b : Deadline) : Decidable (a.sameKey b) := inferInstanceAs (Decidable (_ ∧ _))

/-- Adds a deadline to an ordered list, replacing one of the same write and instant. -/
def insert (d : Deadline) : List Deadline → List Deadline
  | [] => [d]
  | e :: rest =>
    if d.before e then d :: e :: rest
    else if d.sameKey e then d :: rest
    else e :: insert d rest

end Deadline

/-- An alarm that can be set again and again. -/
structure Alarm where
  /-- The instant it is set to; none when it is off. -/
  armed : Option Instant
  /-- The instant that the underlying sleep ends. -/
  sleepUntil : Instant
  deriving DecidableEq, Repr

namespace Alarm

def off : Alarm := ⟨none, 0⟩

/-- Sets the alarm, whatever it was set to. -/
def setTo (i : Instant) (_ : Alarm) : Alarm := ⟨some i, i⟩

def cancel (a : Alarm) : Alarm := { a with armed := none }

/-- Whether the alarm goes off at `now`: it is set, and its sleep is over. -/
def goesOff (now : Instant) (a : Alarm) : Bool := a.armed.isSome && decide (a.sleepUntil ≤ now)

end Alarm

/-- The ordered deadlines, and the alarm set to the earliest. -/
structure Sweeper where
  deadlines : List Deadline
  alarm : Alarm
  deriving DecidableEq, Repr

namespace Sweeper

def new : Sweeper := ⟨[], .off⟩

/-- Adds a deadline; the alarm is set anew if it was off or set to a later instant. -/
def add (d : Deadline) (s : Sweeper) : Sweeper where
  deadlines := Deadline.insert d s.deadlines
  alarm := if s.alarm.armed.all (d.due < ·) then s.alarm.setTo d.due else s.alarm

/-- Takes out the deadlines that have passed at `now`, in order, and sets the alarm to the next. -/
def expire (now : Instant) (s : Sweeper) : List Deadline × Sweeper :=
  let rest := s.deadlines.dropWhile (·.due ≤ now)
  (s.deadlines.takeWhile (·.due ≤ now),
    { deadlines := rest
      alarm := match rest with
        | [] => s.alarm.cancel
        | d :: _ => s.alarm.setTo d.due })

/-- The alarm's turn at `now`: nothing happens unless it goes off, and then it is off while the
passed deadlines are taken out. -/
def fire? (now : Instant) (s : Sweeper) : Option (List Deadline × Sweeper) :=
  if s.alarm.goesOff now then some ({ s with alarm := s.alarm.cancel }.expire now) else none

end Sweeper

/-! ## Setting deadlines -/

inductive ScheduleError where
  /-- Nobody listens for deadlines any more. -/
  | channelClosed
  deriving DecidableEq, Repr

def ScheduleError.message : ScheduleError → String
  | .channelClosed => "deadline channel: channel closed"

/-- The longest time a write can be given: one year (§14). -/
def maxTimeout : Duration := Duration.ofSeconds (86400 * 365)

/-- The queue of new deadlines, the oldest first, and the sweeper behind it while it lives. -/
structure DeadlineDesk where
  queue : List Deadline
  sweeper : Option Sweeper
  deriving DecidableEq, Repr

namespace DeadlineDesk

def new : DeadlineDesk := ⟨[], some .new⟩

/-- Sets the deadline of a write, `timeout` from `now` but at most a year. -/
def schedule (now : Instant) (id : WriteId) (timeout : Duration) (k : DeadlineDesk) :
    Except ScheduleError DeadlineDesk :=
  match k.sweeper with
  | none => .error .channelClosed
  | some _ =>
    let timeout := min timeout maxTimeout
    .ok { k with queue := k.queue ++ [⟨now + timeout, id, timeout⟩] }

/-- The sweeper takes the oldest deadline off the queue. -/
def receive (k : DeadlineDesk) : DeadlineDesk :=
  match k.queue, k.sweeper with
  | d :: queue, some s => ⟨queue, some (s.add d)⟩
  | _, _ => k

/-- The sweeper takes all deadlines off the queue. -/
def receiveAll (k : DeadlineDesk) : DeadlineDesk :=
  match k.sweeper with
  | none => k
  | some s => ⟨[], some (k.queue.foldl (fun s d => s.add d) s)⟩

/-- The sweeper's alarm has its turn at `now`: the deadlines that have passed. -/
def expire (now : Instant) (k : DeadlineDesk) : List Deadline × DeadlineDesk :=
  match k.sweeper.bind (·.fire? now) with
  | none => ([], k)
  | some (due, s) => (due, { k with sweeper := some s })

def close (_ : DeadlineDesk) : DeadlineDesk := ⟨[], none⟩

def isOpen (k : DeadlineDesk) : Bool := k.sweeper.isSome

end DeadlineDesk

end BackupAcks
