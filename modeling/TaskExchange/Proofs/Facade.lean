import TaskExchange.Exchange
import TaskExchange.Proofs.Entry

/-!
Facade: the exchange as those outside see it.  Whatever is called in whatever order, a run of the
exchange is a run of its scheduler beside a catalog that no scheduling depends on.  Main statement:
`Exchange.run_scheduler`.
-/

namespace TaskExchange.Exchange

/-- What can be done to the exchange, and with the waiting sides of connections. -/
inductive Operation where
  | openPoll
  | openRequest
  | leavePoll (c : ConnectionId)
  | leaveRequest (c : ConnectionId)
  | readPoll (c : ConnectionId)
  | readRequest (c : ConnectionId)
  | observe (worker : WorkerId) (category : Category)
  | purge (cutoff : Timestamp)
  | enqueueBatch (requests : List Request)
  | poll (lane : Lane) (c : ConnectionId)
  | acknowledge (id : TaskId)
  | reportLost (id : TaskId)
  | requeueExpired
  | deleteJob (job : JobId)
  | submit (r : Request) (c : ConnectionId)
  | complete (id : TaskId) (result : ByteArray)
  | cancel (id : TaskId)
  | releaseRequest (id : TaskId) (c : ConnectionId)
  | releasePoll (lane : Lane) (c : ConnectionId)
  | abandonPoll (lane : Lane) (c : ConnectionId)

/-- The exchange after an operation; one that is refused leaves it as it was. -/
def step (x : Exchange) (now : Moment) : Operation → Exchange
  | .openPoll => x.openPoll.2
  | .openRequest => x.openRequest.2
  | .leavePoll c => x.leavePoll c
  | .leaveRequest c => x.leaveRequest c
  | .readPoll c => (x.readPoll c).2
  | .readRequest c => (x.readRequest c).2
  | .observe worker category => x.observe now worker category
  | .purge cutoff => x.purge cutoff
  | .enqueueBatch requests => ((x.enqueueBatch now requests).toOption.map (·.2)).getD x
  | .poll lane c => (x.poll now lane c).2
  | .acknowledge id => (x.acknowledge id).toOption.getD x
  | .reportLost id => (x.reportLost now id).2
  | .requeueExpired => (x.requeueExpired now).2
  | .deleteJob job => (x.deleteJob job).toOption.getD x
  | .submit r c => (x.submit now r c).2
  | .complete id result => (x.complete id result).2
  | .cancel id => (x.cancel id).2
  | .releaseRequest id c => (x.releaseRequest id c).2
  | .releasePoll lane c => (x.releasePoll lane c).2
  | .abandonPoll lane c => x.abandonPoll now lane c

/-- Operations are carried out one after the other. -/
def run (x : Exchange) (steps : List (Moment × Operation)) : Exchange :=
  steps.foldl (fun x y => x.step y.1 y.2) x

/-- What an operation does to the scheduler. -/
def Operation.scheduling? (now : Moment) : Operation → Option Scheduler.Operation
  | .openPoll => some .openPoll
  | .openRequest => some .openRequest
  | .leavePoll c => some (.leavePoll c)
  | .leaveRequest c => some (.leaveRequest c)
  | .readPoll c => some (.readPoll c)
  | .readRequest c => some (.readRequest c)
  | .observe .. => none
  | .purge _ => none
  | .enqueueBatch requests => some (.enqueueBatch requests)
  | .poll lane c => some (.poll lane c)
  | .acknowledge id => some (.acknowledge id)
  | .reportLost id => some (.reportLost id)
  | .requeueExpired => some (.requeueExpired now.steady)
  | .deleteJob job => some (.deleteJob job)
  | .submit r c => some (.submit r c)
  | .complete id result => some (.complete id result)
  | .cancel id => some (.withdraw id)
  | .releaseRequest id c => some (.releaseRequest id c)
  | .releasePoll lane c => some (.releasePoll lane c)
  | .abandonPoll lane c => some (.abandonPoll lane c)

variable {limits : Limits} {steps : List (Moment × Operation)}

theorem step_scheduler (x : Exchange) (now : Moment) (op : Operation) :
    (x.step now op).scheduler =
      ((op.scheduling? now).map fun op => (x.scheduler.step now op).2).getD x.scheduler := by
  cases op with
  | enqueueBatch requests =>
    cases h : x.scheduler.enqueueBatch now requests <;>
      simp [step, enqueueBatch, Operation.scheduling?, Scheduler.step, h, Except.map,
        Except.toOption]
  | acknowledge id =>
    cases h : x.scheduler.acknowledge? id <;>
      simp [step, acknowledge, Operation.scheduling?, Scheduler.step, h, Except.toOption]
  | deleteJob job =>
    cases h : x.scheduler.deleteJob? job <;>
      simp [step, deleteJob, Operation.scheduling?, Scheduler.step, h, Except.toOption]
  | _ => rfl

/-- The scheduler of a run is that of the run of what is done to it. -/
theorem run_scheduler (x : Exchange) : ∀ steps : List (Moment × Operation),
    (x.run steps).scheduler = x.scheduler.run
      (steps.filterMap fun y => (y.2.scheduling? y.1).map fun op => (y.1, op))
  | [] => rfl
  | (now, op) :: steps => by
    have hrest : (x.run ((now, op) :: steps)).scheduler = _ := run_scheduler (x.step now op) steps
    rw [hrest, step_scheduler, List.filterMap_cons]
    cases op.scheduling? now <;> rfl

theorem sound_run (limits : Limits) (steps : List (Moment × Operation)) :
    Scheduler.Sound ((new limits).run steps).scheduler ∅ := by
  rw [run_scheduler]
  exact Scheduler.sound_run limits _

end TaskExchange.Exchange
