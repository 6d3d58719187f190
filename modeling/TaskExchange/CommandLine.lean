import TaskExchange.Settings
import TaskExchange.Text.Scan

/-!
The command line: every setting has an option of its own, `--name value` or `--name=value`.  A value
that stands apart is judged when the next option begins or the line ends, and it is not judged at
all if something unknown comes first.
-/

namespace TaskExchange.CommandLine

/-- Why a command line is refused. -/
inductive Fault where
  /-- An argument that is no option and no option's value. -/
  | unknownArgument
  /-- A value that is no number below the bound. -/
  | badValue
  /-- An option without its value. -/
  | missingValue
  /-- An option that was given before. -/
  | repeated
  /-- A value for an option that takes none. -/
  | unexpectedValue
  /-- Help is asked for. -/
  | help
  deriving DecidableEq

/-- What is told of a refused command line. -/
def Fault.message : Fault → String
  | unknownArgument => "an argument is not known"
  | badValue => "a value is not a number below the bound"
  | missingValue => "an option has no value"
  | repeated => "an option is given twice"
  | unexpectedValue => "an option takes no value"
  | help => "help is asked for"

/-- The options with values, one for every setting. -/
inductive Key where
  | httpAddr
  | pollTimeoutSecs
  | priorityTimeoutSecs
  | leaseSecs
  | maxBatchSize
  | maxQueueDepth
  | sweepIntervalSecs
  | workerTtlSecs
  deriving DecidableEq

namespace Key

/-- All options with values. -/
def all : List Key :=
  [httpAddr, pollTimeoutSecs, priorityTimeoutSecs, leaseSecs, maxBatchSize, maxQueueDepth,
    sweepIntervalSecs, workerTtlSecs]

/-- The name of an option, as it stands after two hyphens. -/
def name : Key → String
  | httpAddr => "http-addr"
  | pollTimeoutSecs => "poll-timeout-secs"
  | priorityTimeoutSecs => "priority-timeout-secs"
  | leaseSecs => "lease-secs"
  | maxBatchSize => "max-batch-size"
  | maxQueueDepth => "max-queue-depth"
  | sweepIntervalSecs => "sweep-interval-secs"
  | workerTtlSecs => "worker-ttl-secs"

/-- The option of a name. -/
def ofName? (s : String) : Option Key := all.find? (·.name = s)

/-- The settings with the value of an option in them, if the value is good for it. -/
def assign? (o : Key) (value : String) (s : Settings) : Option Settings :=
  match o with
  | httpAddr => some { s with address := value }
  | pollTimeoutSecs => (Text.word? value).map fun n => { s with pollTimeout := n }
  | priorityTimeoutSecs => (Text.word? value).map fun n => { s with priorityTimeout := n }
  | leaseSecs => (Text.word? value).map fun n => { s with lease := n }
  | maxBatchSize => (Text.word? value).map fun n => { s with maxBatch := n }
  | maxQueueDepth => (Text.word? value).map fun n => { s with maxDepth := n }
  | sweepIntervalSecs => (Text.word? value).map fun n => { s with sweepEvery := n }
  | workerTtlSecs => (Text.word? value).map fun n => { s with workerTtl := n }

end Key

/-- What an argument looks like. -/
inductive Argument where
  /-- Two hyphens: what follows is never an option. -/
  | escape
  /-- Two hyphens and a name, with the text after the first equals sign if there is one. -/
  | long (name : String) (value : Option String)
  /-- One hyphen and a letter, with whatever follows. -/
  | short (letter : Char)
  /-- Anything else. -/
  | plain (text : String)

namespace Argument

/-- What an argument looks like. -/
def ofString (s : String) : Argument :=
  match s.toList with
  | ['-', '-'] => escape
  | '-' :: '-' :: rest =>
    let name := rest.takeWhile (· ≠ '=')
    match rest.drop name.length with
    | _ :: value => long (String.ofList name) (some (String.ofList value))
    | [] => long (String.ofList name) none
  | '-' :: letter :: _ => short letter
  | _ => plain s

end Argument

/-- How far a command line was read. -/
structure Progress where
  settings : Settings
  /-- The options whose values are in the settings. -/
  given : List Key
  /-- The last option, if its value stands apart and was not judged, with the value once it came. -/
  pending : Option (Key × Option String)

namespace Progress

/-- Nothing was read. -/
def start : Progress := ⟨.standard, [], none⟩

/-- Puts an option's value into the settings. -/
def assign (p : Progress) (o : Key) (value : String) : Except Fault Progress :=
  if o ∈ p.given then .error .repeated
  else match o.assign? value p.settings with
    | some settings => .ok ⟨settings, o :: p.given, none⟩
    | none => .error .badValue

/-- Judges the value that stands apart, if there is one. -/
def settle (p : Progress) : Except Fault Progress :=
  match p.pending with
  | none => .ok p
  | some (_, none) => .error .missingValue
  | some (o, some value) => { p with pending := none }.assign o value

end Progress

/-- Reads arguments from a point on. -/
def readFrom : Progress → List String → Except Fault Settings
  | p, [] => p.settle.map (·.settings)
  | p, s :: rest =>
    match Argument.ofString s with
    -- There are no arguments but options, so nothing may follow.
    | .escape => if rest.isEmpty then p.settle.map (·.settings) else .error .unknownArgument
    | .long "help" none => p.settle.bind fun _ => .error .help
    | .long "help" (some _) => .error .unexpectedValue
    | .long name value =>
      match Key.ofName? name with
      | none => .error .unknownArgument
      | some o => do
        let p ← p.settle
        match value with
        | none => readFrom { p with pending := some (o, none) } rest
        | some value => readFrom (← p.assign o value) rest
    | .short 'h' => p.settle.bind fun _ => .error .help
    | .short _ => .error .unknownArgument
    | .plain value =>
      match p.pending with
      | some (o, none) => readFrom { p with pending := some (o, some value) } rest
      | _ => .error .unknownArgument

/-- The settings that a command line asks for. -/
def read (arguments : List String) : Except Fault Settings := readFrom .start arguments

end TaskExchange.CommandLine
