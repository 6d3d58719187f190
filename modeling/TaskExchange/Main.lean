import TaskExchange.CommandLine

/-!
The program: it reads its command line and shows the settings that the service would run under, one
a line.  A command line that is refused is told of on the error stream.
-/

namespace TaskExchange

/-- What is told of the options. -/
def CommandLine.usage : List String := Key.all.map fun k => "--" ++ k.name ++ " VALUE"

/-- The settings, one a line. -/
def Settings.lines (s : Settings) : List String :=
  let seconds (name : String) (n : Nat) := name ++ ": " ++ toString n ++ " s"
  ["address: " ++ s.address,
    seconds "poll timeout" s.pollTimeout,
    seconds "priority timeout" s.priorityTimeout,
    seconds "lease" s.lease,
    "largest batch: " ++ toString s.maxBatch,
    "longest line: " ++ toString s.maxDepth,
    seconds "sweep interval" s.sweepInterval,
    match s.workerTtl? with
    | some n => seconds "workers are remembered for" n
    | none => "workers are never forgotten"]

end TaskExchange

/-- Reads the command line and tells what comes of it. -/
def main (arguments : List String) : IO UInt32 := do
  match TaskExchange.CommandLine.read arguments with
  | .ok settings =>
    for line in settings.lines do IO.println line
    return 0
  | .error .help =>
    for line in TaskExchange.CommandLine.usage do IO.println line
    return 0
  | .error fault =>
    IO.eprintln fault.message
    return 2
