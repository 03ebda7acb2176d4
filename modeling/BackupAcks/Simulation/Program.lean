import BackupAcks.Simulation.Run

/-!
# The simulator as a program

Callers that handle every error alike see a `Fault` (§12). It keeps the cause, but two faults count
as equal when they read the same.

From its words, the program makes a `Session`: the log it leaves and its exit code. The code tells
success (0), a failure (1) and a command line that was not understood (2) apart; asking for help
is a success.
-/
namespace BackupAcks

/-! ## Everything that can go wrong -/

inductive Fault where
  /-- An error of the environment, known by its text only. -/
  | other (text : String)
  /-- Nobody takes what was sent. -/
  | channelClosed
  | write (reason : Failure)
  | settings (reason : SettingsError)
  | reply (reason : MessagePack.DecodeError)
  | schedule (reason : ScheduleError)
  | parameters (reason : Simulation.ParameterError)
  deriving DecidableEq, Repr

namespace Fault

def message : Fault → String
  | .other text => text
  | .channelClosed => "channel closed"
  | .write reason => reason.message
  | .settings reason => reason.message
  | .reply reason => reason.message
  | .schedule reason => reason.message
  | .parameters reason => reason.message

/-- Whether two faults read the same. -/
def same (a b : Fault) : Bool := a.message == b.message

end Fault

/-! ## Sessions -/

namespace Simulation

/-- The name under which the program logs. -/
def programName : String := "sim"

structure Session where
  exitCode : UInt32
  log : List Line
  deriving DecidableEq, Repr

namespace Session

def farewell (reason : Fault) : Line := ⟨.error, s!"sim_main exited: {reason.message}"⟩

/-- The session of a command line that is not acted upon. -/
def refused (r : CommandLine.Refusal) : Session := ⟨if r.isRequest then 0 else 2, []⟩

def failed (log : List Line) (reason : Fault) : Session := ⟨1, log ++ [farewell reason]⟩

/-- The program's session: its words, the draws, and the instant at which it is asked to end. -/
def ofWords (words : List String) (chance : Chance) (terminateAt : Option Instant) : Session :=
  match Parameters.ofWords words with
  | .error r => refused r
  | .ok p =>
    match p.check with
    | .error e => failed [] (.parameters e)
    | .ok p =>
      match run p chance terminateAt with
      | (.error e, remarks) => failed (remarks.map (·.line)) (.settings e)
      | (.ok report, remarks) => ⟨0, (remarks ++ report.remarks).map (·.line)⟩

/-- The session without the lines that the filter hides. -/
def filter (f : LogFilter) (s : Session) : Session :=
  { s with log := s.log.filter fun l => f.shows l.level }

/-- The log as the console shows it. -/
def console (s : Session) : List String := s.log.map (·.renderConsole programName)

end Session

end Simulation

end BackupAcks
