import TaskExchange.Exchange

/-!
Metrics: the sizes of the exchange as a text of samples, one a line.  A sample is a name, labels
between braces, and a value.  The labels of workers carry texts that workers chose, so quotes,
backslashes and line ends in them are escaped.
-/

namespace TaskExchange.Metrics

/-- A character as it stands in the value of a label. -/
def escapeLabelChar (c : Char) : List Char :=
  if c = '\\' then ['\\', '\\']
  else if c = '"' then ['\\', '"']
  else if c = '\n' then ['\\', 'n']
  else [c]

/-- The value of a label as it is written. -/
def escapeLabel (value : String) : String := String.ofList (value.toList.flatMap escapeLabelChar)

/-- A label with its value. -/
def label (name value : String) : String := name ++ "=\"" ++ escapeLabel value ++ "\""

/-- One sample: a metric, its labels if it has any, and its value. -/
def sample (metric : String) (labels : List (String × String)) (value : Nat) : String :=
  let braced := if labels.isEmpty then ""
    else "\x7b" ++ String.intercalate "," (labels.map fun (n, v) => label n v) ++ "\x7d"
  metric ++ braced ++ " " ++ toString value

/-- The lines that introduce a metric. -/
def heading (metric help : String) : List String :=
  ["# HELP " ++ metric ++ " " ++ help, "# TYPE " ++ metric ++ " gauge"]

/-- The lines about tasks and jobs. -/
def taskLines (counts : Counts) : List String :=
  let tasks := "analyst_broker_tasks"
  let jobs := "analyst_broker_jobs"
  heading tasks "Number of live tasks by kind and state" ++
  [sample tasks [("kind", Kind.regional.pollName), ("state", "queued")] counts.queuedRegional,
    sample tasks [("kind", Kind.priority.pollName), ("state", "queued")] counts.queuedPriority,
    sample tasks [("state", "in_flight")] counts.inFlight,
    ""] ++
  heading jobs "Number of tracked jobs" ++
  [sample jobs [] counts.jobs]

/-- The lines about all who wait. -/
def connectionLines (counts : Counts) : List String :=
  let parked := "analyst_broker_parked_connections"
  let sampleOf (role : String) (kind : Kind) (value : Nat) :=
    sample parked [("role", role), ("kind", kind.pollName)] value
  [""] ++ heading parked "Number of suspended connections" ++
  [sampleOf "worker" .regional counts.parkedRegional,
    sampleOf "worker" .priority counts.parkedPriority,
    sampleOf "producer" .priority counts.waitingProducers]

/-- The lines about the workers of each category. -/
def workerLines (byCategory : List (Category × Nat)) : List String :=
  let workers := "analyst_broker_workers"
  [""] ++ heading workers "Workers seen recently by category" ++
  byCategory.map fun (c, n) => sample workers [("graph", c.graph), ("version", c.version)] n

/-- All lines. -/
def lines (x : Exchange) : List String :=
  taskLines x.counts ++ connectionLines x.counts ++ workerLines x.catalog.byCategory

/-- The text of all lines, each ended. -/
def text (x : Exchange) : String := String.join ((lines x).map (· ++ "\n"))

end TaskExchange.Metrics
