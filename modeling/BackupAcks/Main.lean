import BackupAcks.Simulation.Program

/-!
# The command line of the simulator

Reads the words and the choice of log, draws a seed, and shows the log. The simulation's clock is
its own, so a run takes as long as its computation does.
-/
namespace BackupAcks.Simulation

/-- What the program says about a command line it does not act upon. -/
def explanation (r : CommandLine.Refusal) : List String :=
  match r with
  | .versionWanted => ["0.1.0"]
  | .helpWanted => "Options:" :: Parameters.options.map fun o =>
      "  " ++ (match o.letter with | some c => s!"-{c}, " | none => "    ") ++ "--" ++ o.long
  | _ => [s!"error: {r.message}"]

def perform (words : List String) : IO UInt32 := do
  match Parameters.ofWords words with
  | .error r =>
    for line in explanation r do
      if r.isRequest then IO.println line else IO.eprintln line
  | .ok _ => pure ()
  let filter := LogFilter.ofText (← IO.getEnv "RUST_LOG")
  let seed ← IO.rand 0 0xFFFFFFFFFFFFFFFF
  let session := (Session.ofWords words (.seeded (UInt64.ofNat seed)) none).filter filter
  for line in session.console do
    IO.eprintln line
  return session.exitCode

end BackupAcks.Simulation

def main (words : List String) : IO UInt32 := BackupAcks.Simulation.perform words
