import TaskExchange.Category
import TaskExchange.Codec.Reports
import TaskExchange.Codec.Submission
import TaskExchange.Codec.Task
import TaskExchange.Codec.Values
import TaskExchange.CommandLine
import TaskExchange.Connection
import TaskExchange.Exchange
import TaskExchange.Http.Answer
import TaskExchange.Http.Fault
import TaskExchange.Http.MediaType
import TaskExchange.Http.Message
import TaskExchange.Http.Route
import TaskExchange.Http.Target
import TaskExchange.Ident
import TaskExchange.Job
import TaskExchange.Json.Document
import TaskExchange.Json.Numeral
import TaskExchange.Json.Printer
import TaskExchange.Json.Reader
import TaskExchange.Json.Record
import TaskExchange.Json.Token
import TaskExchange.Json.Value
import TaskExchange.Lane
import TaskExchange.Main
import TaskExchange.Metrics
import TaskExchange.Number.Double
import TaskExchange.Number.Shortest
import TaskExchange.Proofs.Abandonment
import TaskExchange.Proofs.Account
import TaskExchange.Proofs.Addressing
import TaskExchange.Proofs.Admission
import TaskExchange.Proofs.Agreement
import TaskExchange.Proofs.Allotment
import TaskExchange.Proofs.Answer
import TaskExchange.Proofs.Attendance
import TaskExchange.Proofs.Backpressure
import TaskExchange.Proofs.Batch
import TaskExchange.Proofs.Books
import TaskExchange.Proofs.Calendar
import TaskExchange.Proofs.Census
import TaskExchange.Proofs.Completion
import TaskExchange.Proofs.Conduct
import TaskExchange.Proofs.Consistency
import TaskExchange.Proofs.Continuity
import TaskExchange.Proofs.Counting
import TaskExchange.Proofs.Custody
import TaskExchange.Proofs.Delivery
import TaskExchange.Proofs.Departure
import TaskExchange.Proofs.Echo
import TaskExchange.Proofs.Entry
import TaskExchange.Proofs.Exposition
import TaskExchange.Proofs.Facade
import TaskExchange.Proofs.Frame
import TaskExchange.Proofs.Handover
import TaskExchange.Proofs.Housework
import TaskExchange.Proofs.Isolation
import TaskExchange.Proofs.Lateness
import TaskExchange.Proofs.Leasing
import TaskExchange.Proofs.Members
import TaskExchange.Proofs.Mirror
import TaskExchange.Proofs.Order
import TaskExchange.Proofs.Ownership
import TaskExchange.Proofs.Pairing
import TaskExchange.Proofs.Parking
import TaskExchange.Proofs.Passing
import TaskExchange.Proofs.Placement
import TaskExchange.Proofs.Pool
import TaskExchange.Proofs.Precedence
import TaskExchange.Proofs.Reading
import TaskExchange.Proofs.Recall
import TaskExchange.Proofs.Reception
import TaskExchange.Proofs.Record
import TaskExchange.Proofs.Redelivery
import TaskExchange.Proofs.Refused
import TaskExchange.Proofs.Registration
import TaskExchange.Proofs.Removal
import TaskExchange.Proofs.Reports
import TaskExchange.Proofs.Requeue
import TaskExchange.Proofs.Result
import TaskExchange.Proofs.Roll
import TaskExchange.Proofs.Rows
import TaskExchange.Proofs.Run
import TaskExchange.Proofs.Separation
import TaskExchange.Proofs.Session
import TaskExchange.Proofs.Shift
import TaskExchange.Proofs.Sighting
import TaskExchange.Proofs.Sound
import TaskExchange.Proofs.Stamp
import TaskExchange.Proofs.Standing
import TaskExchange.Proofs.Storage
import TaskExchange.Proofs.Sweeping
import TaskExchange.Proofs.Tenure
import TaskExchange.Proofs.Trial
import TaskExchange.Refusal
import TaskExchange.Scheduler.Dispatch
import TaskExchange.Scheduler.Poll
import TaskExchange.Scheduler.Priority
import TaskExchange.Scheduler.Regional
import TaskExchange.Scheduler.Report
import TaskExchange.Scheduler.State
import TaskExchange.Service.Clock
import TaskExchange.Service.Receive
import TaskExchange.Service.State
import TaskExchange.Service.Waiting
import TaskExchange.Settings
import TaskExchange.Task
import TaskExchange.Text.Quoted
import TaskExchange.Text.Scan
import TaskExchange.Time.Calendar
import TaskExchange.Time.Moment
import TaskExchange.Time.Timestamp
import TaskExchange.Worker
