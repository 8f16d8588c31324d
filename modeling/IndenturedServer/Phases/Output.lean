import IndenturedServer.Sessions.StartStream
import IndenturedServer.Source.Archive

/-!
A task phase and its output.

`run_phase` starts a process, lets two threads read its output and forward it
as events, and waits for the process. A reader gives an event up when the
channel has had no room for two seconds, when the receiver is gone, or when the
phase is cancelled; it then raises the cancellation itself and stops. The
waiting thread looks for the end of the process before it looks at the
cancellation, waits two seconds for each reader, and afterwards asks only
whether the output limit was exceeded.

The system has the two readers, the waiting thread, the process group with its
two pipes, the consumer of the channel, and a clock; a step of a thread is at
most one access to shared data. `completed_phase_has_output` names the steps
that must not happen for a completed phase to have complete output, and
`stalled_consumer_loses_output` is a run in which one of them does.
-/

namespace IndenturedServer.Phases

open Foundation Sessions
open Source (Text saturatingAdd)

/-! ### The system -/

inductive StreamKind
  | stdout
  | stderr
  deriving DecidableEq, Repr

def StreamKind.event : StreamKind → String → ResponseEvent
  | .stdout, data => .stdout data
  | .stderr, data => .stderr data

/-- The event carries output of the stream. -/
def StreamKind.owns : StreamKind → ResponseEvent → Bool
  | .stdout, .stdout _ => true
  | .stderr, .stderr _ => true
  | _, _ => false

def outputChunkSize : Nat := 4096

def timeoutExitCode : Int := 124

/-- The loop of `forward_output`, with its deadline. -/
inductive ForwardPc
  | checkCancelled (deadline : Nat)
  | attempt (deadline : Nat)
  | full (deadline : Nat)
  deriving DecidableEq, Repr

inductive ReaderPc
  | absent
  | reading
  | counting (chunk : Text)
  /-- The output limit is exceeded, and the flag that says so is next. -/
  | exceeding (chunk : Text)
  | forwarding (chunk : Text) (pc : ForwardPc)
  | cancelling
  | ended
  deriving DecidableEq, Repr

/-- What the reader has read and not placed in the channel. -/
def ReaderPc.inHand : ReaderPc → Text
  | .counting chunk => chunk
  | .exceeding chunk => chunk
  | .forwarding chunk _ => chunk
  | _ => []

inductive WaitOutcome
  | exited (code : Int) (timedOut : Bool) (duration : Nat)
  | cancelled
  deriving DecidableEq, Repr

inductive TerminationReason
  | timeout (duration : Nat)
  | cancelled
  deriving DecidableEq, Repr

def TerminationReason.outcome (code : Option Int) : TerminationReason → WaitOutcome
  | .timeout duration => .exited (code.getD timeoutExitCode) true duration
  | .cancelled => .cancelled

inductive WaiterPc
  | start
  | sendStarted (full : Bool) (deadline : Nat)
  | spawn
  | tryWait
  /-- The process has ended; the rest of its group is next. -/
  | terminateGroup (code : Int) (duration : Nat)
  | checkCancelled
  | checkTimeout
  | terminate (reason : TerminationReason)
  | join (kind : StreamKind) (outcome : WaitOutcome) (deadline : Nat)
  | finishStdin (outcome : WaitOutcome)
  | checkExceeded (outcome : WaitOutcome)
  | sendFinished (result : PhaseResult) (full : Bool) (deadline : Nat)
  | returned (result : Except BuildError PhaseResult)

structure PhaseConfig where
  buildId : String
  phase : BuildPhase
  timeout : Nat
  maxOutputBytes : Nat

structure PhaseRun where
  channel : Channel ResponseEvent channelCapacity
  outputBytes : Nat
  outputExceeded : Bool := false
  cancelled : Bool := false
  now : Nat := 0
  waitStart : Nat := 0
  /-- The group has a process, and with it the pipes have a writer. -/
  groupAlive : Bool := false
  childExit : Option Int := none
  written : StreamKind → Text := fun _ => []
  unread : StreamKind → Text := fun _ => []
  readers : StreamKind → ReaderPc := fun _ => .absent
  waiter : WaiterPc := .start

inductive ReadAnswer
  | bytes (n : Nat)
  | eof
  | failed
  deriving DecidableEq, Repr

inductive PhaseEvent
  | write (kind : StreamKind) (bytes : Text)
  | childExits (code : Int)
  | groupEnds
  | tick (duration : Nat)
  | cancel
  | consume
  | dropReceiver
  | reader (kind : StreamKind) (answer : ReadAnswer)
  /-- A step of the waiting thread, with the text of a failure. -/
  | waiter (failure : Option String)
  deriving DecidableEq, Repr

namespace PhaseRun

def setReader (s : PhaseRun) (kind : StreamKind) (pc : ReaderPc) : PhaseRun :=
  { s with readers := Function.update s.readers kind pc }

def setWaiter (s : PhaseRun) (pc : WaiterPc) : PhaseRun :=
  { s with waiter := pc }

section
variable (cfg : PhaseConfig) (lossy : Text → String)

def fail (s : PhaseRun) (code message : String) : PhaseRun :=
  s.setWaiter (.returned (.error ⟨code, message, some cfg.phase, []⟩))

def startedEvent : ResponseEvent :=
  .build cfg.buildId "phase_started" (some cfg.phase) none none none

def finishedEvent (result : PhaseResult) : ResponseEvent :=
  .build cfg.buildId "phase_finished" (some cfg.phase) (some result.durationMs)
    (some result.exitCode) (some result.timedOut)

/-- One turn of `forward_output`. -/
def forwardStep (s : PhaseRun) (kind : StreamKind) (chunk : Text) : ForwardPc → PhaseRun
  | .checkCancelled deadline =>
    if s.cancelled then s.setReader kind .cancelling
    else s.setReader kind (.forwarding chunk (.attempt deadline))
  | .attempt deadline =>
    match s.channel.trySend (kind.event (lossy chunk)) with
    | .ok channel => { s.setReader kind .reading with channel := channel }
    | .error .closed => s.setReader kind .cancelling
    | .error .full => s.setReader kind (.forwarding chunk (.full deadline))
  | .full deadline =>
    if deadline ≤ s.now then s.setReader kind .cancelling
    else s.setReader kind (.forwarding chunk (.checkCancelled deadline))

/-- A read blocks while the pipe is empty and has a writer. -/
def readStep (s : PhaseRun) (kind : StreamKind) : ReadAnswer → Option PhaseRun
  | .bytes n =>
    if 0 < n ∧ n ≤ outputChunkSize ∧ n ≤ (s.unread kind).length then
      some { s.setReader kind (.counting ((s.unread kind).take n)) with
        unread := Function.update s.unread kind ((s.unread kind).drop n) }
    else none
  | .eof =>
    if s.unread kind = [] ∧ s.groupAlive = false then some (s.setReader kind .ended) else none
  | .failed => some (s.setReader kind .ended)

/-- `stream_output` -/
def readerStep (s : PhaseRun) (kind : StreamKind) (answer : ReadAnswer) : Option PhaseRun :=
  match s.readers kind with
  | .reading => s.readStep kind answer
  | .counting chunk =>
    let next := if cfg.maxOutputBytes < saturatingAdd s.outputBytes chunk.length then
        ReaderPc.exceeding chunk
      else .forwarding chunk (.checkCancelled (s.now + outputForwardGrace))
    some { s.setReader kind next with outputBytes := (s.outputBytes + chunk.length) % 2 ^ 64 }
  | .exceeding _ => some { s.setReader kind .cancelling with outputExceeded := true }
  | .forwarding chunk pc => some (s.forwardStep lossy kind chunk pc)
  | .cancelling => some { s.setReader kind .ended with cancelled := true }
  | .absent | .ended => none

/-- What follows the join of a reader. -/
def afterJoin (s : PhaseRun) (outcome : WaitOutcome) : StreamKind → WaiterPc
  | .stdout => .join .stderr outcome (s.now + outputForwardGrace)
  | .stderr => .finishStdin outcome

/-- The way into `join_output_thread`. -/
def joinReaders (s : PhaseRun) (outcome : WaitOutcome) : PhaseRun :=
  s.setWaiter (.join .stdout outcome (s.now + outputForwardGrace))

/-- One turn of `send_response` for the last event. -/
def finishStep (s : PhaseRun) (result : PhaseResult) (deadline : Nat) : PhaseRun :=
  match s.channel.trySend (finishedEvent cfg result) with
  | .ok channel => { s.setWaiter (.returned (.ok result)) with channel := channel }
  | .error .closed => s.fail cfg "stream_closed" "client disconnected"
  | .error .full => s.setWaiter (.sendFinished result true deadline)

/-- One turn of `send_response` for the first event. -/
def startStep (s : PhaseRun) (deadline : Nat) : PhaseRun :=
  match s.channel.trySend (startedEvent cfg) with
  | .ok channel => { s.setWaiter .spawn with channel := channel }
  | .error .closed => s.fail cfg "stream_closed" "client disconnected"
  | .error .full => s.setWaiter (.sendStarted true deadline)

/-- The process is started, with both readers. -/
def spawned (s : PhaseRun) : PhaseRun :=
  { s with
    readers := fun _ => .reading
    groupAlive := true
    waitStart := s.now
    waiter := .tryWait }

/-- What is made of the outcome when the output is within the limit. -/
def concludes (s : PhaseRun) : WaitOutcome → PhaseRun
  | .exited code timedOut duration =>
    s.setWaiter (.sendFinished ⟨cfg.phase, duration, code, timedOut⟩ false
      (s.now + outputForwardGrace))
  | .cancelled => s.fail cfg "stream_closed" "client disconnected"

/-- `run_phase` with `wait_with_timeout` and `join_output_thread`. The group is
gone when `terminate_remaining_group` and `terminate_process` return well. -/
def waiterStep (s : PhaseRun) (failure : Option String) : Option PhaseRun :=
  match s.waiter, failure with
  | .start, _ =>
    some (if s.cancelled then s.fail cfg "stream_closed" "client disconnected"
      else s.setWaiter (.sendStarted false (s.now + outputForwardGrace)))
  | .sendStarted false deadline, _ => some (s.startStep cfg deadline)
  | .sendStarted true deadline, _ =>
    some (if deadline ≤ s.now then s.fail cfg "stream_closed" "client disconnected"
      else s.setWaiter (.sendStarted false deadline))
  | .spawn, some text => some (s.fail cfg "spawn_failed" text)
  | .spawn, none => some s.spawned
  | .tryWait, some text => some (s.fail cfg "wait_failed" text)
  | .tryWait, none =>
    match s.childExit with
    | some code => some (s.setWaiter (.terminateGroup code (s.now - s.waitStart)))
    | none => some (s.setWaiter .checkCancelled)
  | .terminateGroup _ _, some text => some (s.fail cfg "wait_failed" text)
  | .terminateGroup code duration, none =>
    if s.groupAlive then none else some (s.joinReaders (.exited code false duration))
  | .checkCancelled, _ =>
    some (s.setWaiter (if s.cancelled then .terminate .cancelled else .checkTimeout))
  | .checkTimeout, _ =>
    some (s.setWaiter (if cfg.timeout ≤ s.now - s.waitStart then
      .terminate (.timeout (s.now - s.waitStart)) else .tryWait))
  | .terminate _, some text => some (s.fail cfg "wait_failed" text)
  | .terminate reason, none =>
    if s.groupAlive then none else some (s.joinReaders (reason.outcome s.childExit))
  | .join kind outcome deadline, _ =>
    if s.readers kind = .ended ∨ deadline ≤ s.now then some (s.setWaiter (s.afterJoin outcome kind))
    else none
  | .finishStdin _, some text => some (s.fail cfg "stdin_write_failed" text)
  | .finishStdin outcome, none => some (s.setWaiter (.checkExceeded outcome))
  | .checkExceeded outcome, _ =>
    some (if s.outputExceeded then
        s.fail cfg "output_limit" "task output exceeds build.max_output_bytes"
      else s.concludes cfg outcome)
  | .sendFinished result false deadline, _ => some (s.finishStep cfg result deadline)
  | .sendFinished result true deadline, _ =>
    some (if deadline ≤ s.now then s.fail cfg "stream_closed" "client disconnected"
      else s.setWaiter (.sendFinished result false deadline))
  | .returned _, _ => none

def step (s : PhaseRun) : PhaseEvent → Option PhaseRun
  | .write kind bytes =>
    if s.groupAlive then
      some { s with
        written := Function.update s.written kind (s.written kind ++ bytes)
        unread := Function.update s.unread kind (s.unread kind ++ bytes) }
    else none
  | .childExits code =>
    if s.groupAlive ∧ s.childExit = none then some { s with childExit := some code } else none
  | .groupEnds =>
    if s.groupAlive ∧ s.childExit ≠ none then some { s with groupAlive := false } else none
  | .tick duration => some { s with now := s.now + duration }
  | .cancel => some { s with cancelled := true }
  | .consume =>
    match s.channel.tryRecv with
    | some (_, channel) => some { s with channel := channel }
    | none => none
  | .dropReceiver => some { s with channel := s.channel.close }
  | .reader kind answer => s.readerStep cfg lossy kind answer
  | .waiter failure => s.waiterStep cfg failure

end

/-- The step abandons output: a read fails, an event is given up, or a reader
is left behind. -/
def abandons (s : PhaseRun) : PhaseEvent → Bool
  | .reader kind answer =>
    match s.readers kind with
    | .reading => answer = .failed
    | .forwarding _ (.checkCancelled _) => s.cancelled
    | .forwarding _ (.attempt _) => s.channel.closed
    | .forwarding _ (.full deadline) => deadline ≤ s.now
    | _ => false
  | .waiter _ =>
    match s.waiter with
    | .join kind _ _ => s.readers kind ≠ .ended
    | _ => false
  | _ => false

def Patient (s : PhaseRun) (e : PhaseEvent) : Prop :=
  s.abandons e = true → s.outputExceeded = true

instance (s : PhaseRun) (e : PhaseEvent) : Decidable (s.Patient e) :=
  inferInstanceAs (Decidable (_ → _))

end PhaseRun

end IndenturedServer.Phases
