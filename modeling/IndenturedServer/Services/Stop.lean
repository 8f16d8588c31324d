import IndenturedServer.Foundation.Transition

/-!
Stopping a managed service.

A service runs under a supervisor process. A monitor thread of the daemon reads
the status that the supervisor reports, reaps the supervisor, and leaves an
outcome behind. `RunningService::stop` waits for this thread, takes the
outcome, and then ends the process group of the service itself.

The system has both threads, the supervisor and the group. A step of a thread
is one call or one access to shared data; what a call answers and whether a
deadline has passed is part of the event, so that a run has any timing.
-/

namespace IndenturedServer.Services

open Foundation

inductive SupervisorStatus
  | spawned (pid : Nat) (pgid : Int)
  | stopped
  | exited (code : Int)
  | failed (message : String)
  deriving DecidableEq, Repr

/-- The text of `{:?}`. -/
def SupervisorStatus.debug : SupervisorStatus → String
  | .spawned pid pgid => s!"Spawned \x7b pid: {pid}, pgid: {pgid} \x7d"
  | .stopped => "Stopped"
  | .exited code => s!"Exited \x7b code: {code} \x7d"
  | .failed message => s!"Failed \x7b message: {repr message} \x7d"

/-- What the daemon keeps of a service, and whether its readiness thread is still
to be joined. -/
structure ServiceProcess where
  name : String
  servicePgid : Int
  readinessThread : Bool

structure ServiceStopError where
  message : String
  cleanupUnproven : Bool
  deriving DecidableEq, Repr

/-! ### The monitor -/

def monitorOutcome (name : String) : Except String SupervisorStatus → Except String Bool →
    Except String Unit
  | .ok .stopped, .ok true => .ok ()
  | .ok (.exited code), .ok true => .error s!"{name} exited ({code})"
  | .ok (.failed message), .ok true => .error s!"{name}: {message}"
  | .ok other, .ok true => .error s!"{name}: unexpected supervisor status {other.debug}"
  | _, .ok false => .error s!"{name}: supervisor reap was not proven"
  | _, .error err => .error s!"{name}: supervisor reap failed: {err}"
  | .error err, .ok true => .error s!"{name}: supervisor status failed: {err}"

/-- The waits of `stop_supervisor_process`. -/
inductive ReapStage
  | expected
  | afterTerm
  | afterKill
  deriving DecidableEq, Repr

inductive MonitorPc
  | readStatus
  | tryWait (stage : ReapStage) (status : Except String SupervisorStatus)
  /-- The supervisor was running: has the wait come to its end? -/
  | waitDeadline (stage : ReapStage) (status : Except String SupervisorStatus)
  /-- The signal in front of this wait. -/
  | signal (stage : ReapStage) (status : Except String SupervisorStatus)
  | writeOutcome (status : Except String SupervisorStatus) (reaped : Except String Bool)
  | checkStopping (reaped : Except String Bool)
  | callback (reaped : Except String Bool)
  | finished (reaped : Except String Bool)
  | panicked

def MonitorPc.isFinished : MonitorPc → Bool
  | .finished _ => true
  | .panicked => true
  | _ => false

/-! ### Stop -/

/-- The waits for the monitor. -/
inductive JoinStage
  | expected
  | afterTerm
  | bounded
  deriving DecidableEq, Repr

/-- `terminate_recorded_service_group` -/
inductive GroupPc
  | query
  | sendTerm
  | termDeadline
  | termQuery
  | sendKill
  | killQuery
  | killDeadline
  deriving DecidableEq, Repr

inductive StopPc
  | storeStopping
  | dropControl
  /-- The loop of `wait_thread_finished`. -/
  | poll (stage : JoinStage)
  /-- Its result. -/
  | isFinished (stage : JoinStage)
  /-- The signal in front of this wait. -/
  | signal (stage : JoinStage)
  | join
  | takeOutcome
  | group (pc : GroupPc)
  | joinReadiness
  | joinOutput (left : Nat)
  | returned (result : Except ServiceStopError Unit)

inductive SupervisorProcess
  | running
  | exited
  | reaped
  deriving DecidableEq, Repr

structure StopRun where
  supervisor : SupervisorProcess := .running
  groupExists : Bool := true
  stopping : Bool := false
  failed : Bool := false
  outcome : Option (Except String Unit) := none
  monitor : MonitorPc := .readStatus
  stop : StopPc := .storeStopping
  errors : List String := []
  cleanupUnproven : Bool := false
  /-- The group has been found gone. -/
  observedGone : Bool := false

inductive Answer
  /-- `try_read_status`, without a status yet or with one. -/
  | status (read : Option (Except String SupervisorStatus))
  | tryWait (error : Option String)
  | deadline (passed : Bool)
  | signal (error : Option String)
  | query (error : Option String)
  | joined (ok : Bool)
  | go
  | panic

inductive StopEvent
  | supervisorExits
  | groupChanges (alive : Bool)
  | monitor (answer : Answer)
  | stop (answer : Answer)

namespace StopRun

def unproven (s : StopRun) (message : String) : StopRun :=
  { s with errors := s.errors ++ [message], cleanupUnproven := true }

def push (s : StopRun) (message : String) : StopRun :=
  { s with errors := s.errors ++ [message] }

def result (s : StopRun) : Except ServiceStopError Unit :=
  if s.errors = [] then .ok () else .error ⟨"; ".intercalate s.errors, s.cleanupUnproven⟩

section
variable (p : ServiceProcess) (s : StopRun)

def monitorStep : MonitorPc → Answer → Option StopRun
  | .readStatus, .status none => some s
  | .readStatus, .status (some status) => some { s with monitor := .tryWait .expected status }
  | .tryWait _ status, .tryWait (some err) =>
    some { s with monitor := .writeOutcome status (.error err) }
  | .tryWait stage status, .tryWait none =>
    if s.supervisor = .running then some { s with monitor := .waitDeadline stage status }
    else some { s with supervisor := .reaped, monitor := .writeOutcome status (.ok true) }
  | .waitDeadline stage status, .deadline false => some { s with monitor := .tryWait stage status }
  | .waitDeadline .expected status, .deadline true => some { s with monitor := .signal .afterTerm status }
  | .waitDeadline .afterTerm status, .deadline true => some { s with monitor := .signal .afterKill status }
  | .waitDeadline .afterKill status, .deadline true =>
    some { s with monitor := .writeOutcome status (.ok false) }
  | .signal stage status, .signal none => some { s with monitor := .tryWait stage status }
  | .signal _ status, .signal (some err) => some { s with monitor := .writeOutcome status (.error err) }
  | .writeOutcome status reaped, .go =>
    some { s with outcome := some (monitorOutcome p.name status reaped), monitor := .checkStopping reaped }
  | .checkStopping reaped, .go =>
    if s.stopping then some { s with monitor := .finished reaped }
    else some { s with failed := true, monitor := .callback reaped }
  | .callback reaped, .go => some { s with monitor := .finished reaped }
  | pc, .panic => if pc.isFinished then none else some { s with monitor := .panicked }
  | _, _ => none

/-- After the group. -/
def drains : StopPc :=
  if p.readinessThread then .joinReadiness else .joinOutput 2

def groupGone : StopRun :=
  { s with observedGone := true, stop := drains p }

def groupFailed (err : String) : StopRun :=
  { s.unproven s!"service group {p.servicePgid} cleanup was not proven: {err}" with stop := drains p }

def groupStep : GroupPc → Answer → Option StopRun
  | .query, .query none =>
    if s.groupExists then some { s with stop := .group .sendTerm } else some (s.groupGone p)
  | .query, .query (some err) => some (s.groupFailed p err)
  | .sendTerm, .signal none => some { s with stop := .group .termDeadline }
  | .sendTerm, .signal (some err) => some (s.groupFailed p err)
  | .termDeadline, .deadline false => some { s with stop := .group .termQuery }
  | .termDeadline, .deadline true => some { s with stop := .group .sendKill }
  | .termQuery, .query none =>
    if s.groupExists then some { s with stop := .group .termDeadline } else some (s.groupGone p)
  | .termQuery, .query (some err) => some (s.groupFailed p err)
  | .sendKill, .signal none => some { s with stop := .group .killQuery }
  | .sendKill, .signal (some err) => some (s.groupFailed p err)
  | .killQuery, .query none =>
    if s.groupExists then some { s with stop := .group .killDeadline } else some (s.groupGone p)
  | .killQuery, .query (some err) => some (s.groupFailed p err)
  | .killDeadline, .deadline false => some { s with stop := .group .killQuery }
  | .killDeadline, .deadline true =>
    some (s.groupFailed p "service descendants survived bounded SIGKILL cleanup")
  | _, _ => none

/-- The result of a wait for the monitor. -/
def afterWait (finished : Bool) : JoinStage → StopRun
  | .expected => { s with stop := if finished then .poll .bounded else .signal .afterTerm }
  | .afterTerm => { s with stop := if finished then .poll .bounded else .signal .bounded }
  | .bounded =>
    if finished then { s with stop := .join }
    else { s.unproven "supervisor was not reaped within its bounded cleanup" with stop := .takeOutcome }

def stopStep : StopPc → Answer → Option StopRun
  | .storeStopping, .go => some { s with stopping := true, stop := .dropControl }
  | .dropControl, .go => some { s with stop := .poll .expected }
  | .poll stage, .deadline passed =>
    if s.monitor.isFinished || passed then some { s with stop := .isFinished stage } else some s
  | .isFinished stage, .go => some (s.afterWait s.monitor.isFinished stage)
  | .signal stage, .signal _ => some { s with stop := .poll stage }
  | .join, .go =>
    match s.monitor with
    | .finished _ => some { s with stop := .takeOutcome }
    | _ => some { s.unproven "supervisor was not reaped within its bounded cleanup" with
        stop := .takeOutcome }
  | .takeOutcome, .go =>
    let taken := { s with outcome := none, stop := .group .query }
    match s.outcome with
    | some (.ok ()) => some taken
    | some (.error err) => some (taken.push err)
    | none => some (taken.unproven "supervisor produced no bounded cleanup outcome")
  | .group pc, answer => s.groupStep p pc answer
  | .joinReadiness, .joined ok =>
    let joined := { s with stop := .joinOutput 2 }
    some (if ok then joined else joined.push "readiness drain did not stop within its bound")
  | .joinOutput 0, .go => some { s with stop := .returned s.result }
  | .joinOutput (left + 1), .joined ok =>
    let joined := { s with stop := .joinOutput left }
    some (if ok then joined else joined.push "service output drain did not stop within its bound")
  | _, _ => none

def step : StopEvent → Option StopRun
  | .supervisorExits => if s.supervisor = .running then some { s with supervisor := .exited } else none
  | .groupChanges alive => some { s with groupExists := alive }
  | .monitor answer => s.monitorStep p s.monitor answer
  | .stop answer => s.stopStep p s.stop answer

end

end StopRun

end IndenturedServer.Services
