import IndenturedServer.Foundation.Channel
import IndenturedServer.Foundation.Transition
import IndenturedServer.Sessions.State

/-!
The event stream of a session start.

The stream is a channel of 128 slots between the `initialize` worker and the
response of the start request. It has more than one writer: the worker
itself, the bridge thread that carries over the events of the task phases,
and two drain threads for each service. `send_session_response` waits up to
two seconds for a slot; `send_best_effort` tries once. The worker waits up
to three seconds for the bridge and then goes on without it.

`run_task_phases` is left to the environment: it puts events of its choice
into the phase channel, returns an outcome, and may leave output threads
behind that go on writing. The rest of this file follows `initialize`,
`initialize_session`, `start_configured_services`, the bridge and the drains
step by step; a step is at most one access to shared data.
-/

namespace IndenturedServer.Sessions

open Foundation

/-! ### Events -/

inductive BuildPhase
  | setup
  | run
  deriving DecidableEq, Repr

structure PhaseResult where
  phase : BuildPhase
  durationMs : Nat
  exitCode : Int
  timedOut : Bool
  deriving DecidableEq, Repr

inductive SessionStartStatus
  | started
  | phaseStarted
  | phaseFinished
  | startingServices
  deriving DecidableEq, Repr

inductive SessionStartEvent
  | session (id : String) (status : SessionStartStatus) (phase : Option BuildPhase)
      (durationMs : Option Nat) (exitCode : Option Int) (timedOut : Option Bool)
  | stdout (data : String)
  | stderr (data : String)
  | error (code : String) (message : Option String) (phase : Option BuildPhase)
  | ready (sessionId workspaceRevision : String) (phases : List PhaseResult)
  | exit (code : Int) (timedOut : Bool) (failedPhase : Option BuildPhase)
      (phases : List PhaseResult)
  deriving DecidableEq, Repr

def SessionStartEvent.isReady : SessionStartEvent → Bool
  | .ready _ _ _ => true
  | _ => false

/-- The events of the task phases. -/
inductive ResponseEvent
  | build (id status : String) (phase : Option BuildPhase) (durationMs : Option Nat)
      (exitCode : Option Int) (timedOut : Option Bool)
  | stdout (data : String)
  | stderr (data : String)
  | error (code : String) (message pattern : Option String) (phase : Option BuildPhase)
  | exit (code : Int) (timedOut : Bool) (artifacts : Option ArtifactArchive)
      (artifactRestrictions : Option ArtifactRestrictions) (failedPhase : Option BuildPhase)
      (phases : List PhaseResult)
  deriving DecidableEq, Repr

/-- How the bridge maps an event; `none` where it skips it. -/
def ResponseEvent.mapped : ResponseEvent → Option SessionStartEvent
  | .build id status phase durationMs exitCode timedOut =>
    match status with
    | "phase_started" => some (.session id .phaseStarted phase durationMs exitCode timedOut)
    | "phase_finished" => some (.session id .phaseFinished phase durationMs exitCode timedOut)
    | _ => none
  | .stdout data => some (.stdout data)
  | .stderr data => some (.stderr data)
  | .error code message _ phase => some (.error code message phase)
  | .exit _ _ _ _ _ _ => none

/-! ### Threads -/

def channelCapacity : Nat := 128

/-- `OUTPUT_FORWARD_GRACE` in milliseconds. -/
def outputForwardGrace : Nat := 2000

/-- `BRIDGE_SHUTDOWN_GRACE` in milliseconds. -/
def bridgeShutdownGrace : Nat := 3000

/-- The loop of `send_session_response`, with its deadline. -/
inductive SendPc
  | checkCancelled (deadline : Nat)
  | attempt (deadline : Nat)
  | full (deadline : Nat)
  deriving DecidableEq, Repr

inductive SendStatus
  | pending (pc : SendPc)
  | sent
  | failed (message : String)
  deriving DecidableEq, Repr

structure BuildError where
  code : String
  message : String
  phase : Option BuildPhase
  phases : List PhaseResult
  deriving DecidableEq, Repr

structure SessionInitializationOutcome where
  phases : List PhaseResult
  exitCode : Int
  timedOut : Bool
  failedPhase : Option BuildPhase
  deriving DecidableEq, Repr

/-- The exit event of a start that failed. Without a `timedOut` of its own it
says whether the session deadline has passed when it is sent. -/
structure ExitReport where
  code : Int
  timedOut : Option Bool
  failedPhase : Option BuildPhase
  phases : List PhaseResult
  deriving DecidableEq, Repr

inductive InitializerPc
  | sendStarted (pc : SendPc)
  | prepare
  | runTaskPhases
  | stopBridge (outcome : Except BuildError SessionInitializationOutcome)
  | dropPhaseSender (outcome : Except BuildError SessionInitializationOutcome)
  | joinBridge (outcome : Except BuildError SessionInitializationOutcome) (deadline : Nat)
  | startServices (phases : List PhaseResult)
  | recordStart (phases : List PhaseResult)
  | spawnService (rest : List String) (phases : List PhaseResult)
  | waitReady (rest : List String) (phases : List PhaseResult)
  | commitCheck (phases : List PhaseResult)
  | commitMetadata (phases : List PhaseResult)
  | election (phases : List PhaseResult)
  /-- Under the state lock: `retain_output` for the services from `i` on. -/
  | retainOutput (i : Nat) (phases : List PhaseResult)
  /-- Under the state lock. -/
  | sendReady (phases : List PhaseResult)
  | sendError (code : String) (message : String) (phase : Option BuildPhase) (exit : ExitReport)
  | sendExit (exit : ExitReport)
  | finished (ready : Bool)

inductive BridgePc
  | absent
  | poll
  | empty
  | sending (event : SessionStartEvent) (pc : SendPc)
  | ended

/-- One drain thread of a service. -/
inductive DrainPc
  | absent
  | reading
  /-- It has read while output was not retained yet. -/
  | holding (event : SessionStartEvent)
  /-- It holds the lock of the startup sender and has found one. -/
  | sending (event : SessionStartEvent) (pc : SendPc)
  | ended

structure StartConfig where
  sessionId : String
  deadline : Nat
  services : List String

structure StartStream where
  channel : Channel SessionStartEvent channelCapacity := .empty
  phaseChannel : Channel ResponseEvent channelCapacity := .empty
  /-- The worker's own handle on the phase channel. -/
  phaseSender : Bool := false
  /-- Output threads of the task that the worker has left behind. -/
  detached : Nat := 0
  now : Nat := 0
  initializationCancellation : Bool := false
  initializing : Bool := true
  retainingServiceOutput : Bool := false
  bridgeStop : Bool := false
  spawned : Nat := 0
  /-- Service `i` still has its startup sender. -/
  startupSender : Nat → Bool := fun _ => false
  drains : Nat → Bool → DrainPc := fun _ _ => .absent
  bridge : BridgePc := .absent
  initializer : InitializerPc := .sendStarted (.checkCancelled outputForwardGrace)

inductive StartAnswer
  | go
  | failed (err : BuildError)
  /-- `run_task_phases` returns and leaves output threads behind. -/
  | phasesDone (outcome : Except BuildError SessionInitializationOutcome) (detached : Nat)

inductive DrainInput
  | chunk (data : String)
  | done
  | step
  deriving DecidableEq, Repr

inductive StartEvent
  | tick (elapsed : Nat)
  | initializer (answer : StartAnswer)
  | bridge
  | drain (i : Nat) (stderr : Bool) (input : DrainInput)
  /-- The task phases, or an output thread left behind, write an event. -/
  | phaseOutput (event : ResponseEvent)
  | outputThreadEnds
  /-- The client reads an event. -/
  | receive
  /-- The response stream is dropped. -/
  | drop
  /-- Another thread takes the session out of its initialization. -/
  | terminate

/-! ### Sending -/

/-- One step of `send_session_response`: the channel, the cancellation flag,
and how the call stands. -/
def sendSessionResponse (channel : Channel SessionStartEvent channelCapacity) (cancelled : Bool)
    (now : Nat) (event : SessionStartEvent) :
    SendPc → Channel SessionStartEvent channelCapacity × Bool × SendStatus
  | .checkCancelled deadline =>
    (channel, cancelled,
      if cancelled then .failed "client disconnected" else .pending (.attempt deadline))
  | .attempt deadline =>
    match channel.trySend event with
    | .ok channel => (channel, cancelled, .sent)
    | .error .closed => (channel, true, .failed "client disconnected")
    | .error .full => (channel, cancelled, .pending (.full deadline))
  | .full deadline =>
    if deadline ≤ now then (channel, true, .failed "client is not reading output")
    else (channel, cancelled, .pending (.checkCancelled deadline))

/-- `send_best_effort`: one attempt, and the event is dropped if it fails. -/
def StartStream.sendBestEffort (s : StartStream) (event : SessionStartEvent) : StartStream :=
  match s.channel.trySend event with
  | .ok channel => { s with channel := channel }
  | .error _ => s

def StartStream.expired (s : StartStream) (cfg : StartConfig) : Bool := decide (cfg.deadline ≤ s.now)

/-! ### The initialize worker -/

/-- Where `initialize` goes with the outcome of the task phases. -/
def InitializerPc.afterPhases :
    Except BuildError SessionInitializationOutcome → InitializerPc
  | .error err =>
    .sendError err.code err.message err.phase ⟨1, some false, err.phase, err.phases⟩
  | .ok outcome =>
    if outcome.exitCode ≠ 0 ∨ outcome.timedOut = true then
      .sendExit ⟨outcome.exitCode, some outcome.timedOut, outcome.failedPhase, outcome.phases⟩
    else .startServices outcome.phases

/-- An error of `start_configured_services`. -/
def InitializerPc.serviceError (err : BuildError) (phases : List PhaseResult) : InitializerPc :=
  .sendError err.code err.message none ⟨1, none, none, phases⟩

def serviceStartCancelled : BuildError :=
  ⟨"service_start_cancelled", "service startup was cancelled", none, []⟩

/-- Two drain threads and a startup sender for a new service. -/
def StartStream.addService (s : StartStream) : StartStream :=
  { s with
    spawned := s.spawned + 1
    startupSender := Function.update s.startupSender s.spawned true
    drains := Function.update s.drains s.spawned fun _ => .reading }

def initializerStep (cfg : StartConfig) (s : StartStream) :
    InitializerPc → StartAnswer → Option StartStream
  | .sendStarted pc, .go =>
    let (channel, cancelled, status) :=
      sendSessionResponse s.channel s.initializationCancellation s.now
        (.session cfg.sessionId .started none none none none) pc
    some { s with
      channel := channel
      initializationCancellation := cancelled
      initializer := match status with
        | .pending pc => .sendStarted pc
        | .sent => .prepare
        | .failed message =>
          .sendError "stream_closed" message none ⟨1, some false, none, []⟩ }
  | .prepare, .go =>
    some { s with phaseSender := true, bridge := .poll, initializer := .runTaskPhases }
  | .prepare, .failed err => some { s with initializer := .afterPhases (.error err) }
  | .runTaskPhases, .phasesDone outcome detached =>
    some { s with detached := detached, initializer := .stopBridge outcome }
  | .stopBridge outcome, .go =>
    some { s with bridgeStop := true, initializer := .dropPhaseSender outcome }
  | .dropPhaseSender outcome, .go =>
    some { s with
      phaseSender := false
      initializer := .joinBridge outcome (s.now + bridgeShutdownGrace) }
  | .joinBridge outcome deadline, .go =>
    match s.bridge with
    | .ended => some { s with initializer := .afterPhases outcome }
    | _ =>
      -- past the deadline the bridge is detached and lives on
      if deadline ≤ s.now then some { s with initializer := .afterPhases outcome } else some s
  | .startServices phases, .go =>
    if cfg.services.isEmpty then some { s with initializer := .commitCheck phases }
    else
      some { s.sendBestEffort (.session cfg.sessionId .startingServices none none none none) with
        initializer := .recordStart phases }
  | .recordStart phases, .go => some { s with initializer := .spawnService cfg.services phases }
  | .recordStart phases, .failed err => some { s with initializer := .serviceError err phases }
  | .spawnService [] phases, .go => some { s with initializer := .commitCheck phases }
  | .spawnService (_ :: rest) phases, answer =>
    if s.initializationCancellation || s.expired cfg then
      some { s with initializer := .serviceError serviceStartCancelled phases }
    else
      match answer with
      | .go => some { s.addService with initializer := .waitReady rest phases }
      | .failed err => some { s with initializer := .serviceError err phases }
      | .phasesDone _ _ => none
  | .waitReady rest phases, .go => some { s with initializer := .spawnService rest phases }
  | .waitReady _ phases, .failed err => some { s with initializer := .serviceError err phases }
  | .commitCheck phases, .go =>
    if s.initializing && !s.initializationCancellation && !s.expired cfg then
      some { s with initializer := .commitMetadata phases }
    else some { s with initializing := false, initializer := .finished false }
  | .commitMetadata phases, .go => some { s with initializer := .election phases }
  | .commitMetadata phases, .failed _ =>
    some { s with
      initializing := false
      initializer := .sendError "session_commit_failed" "failed to commit session metadata" none
        ⟨1, some false, none, phases⟩ }
  | .election phases, .go =>
    if s.initializing && !s.initializationCancellation && !s.expired cfg then
      some { s with
        initializing := false
        retainingServiceOutput := true
        initializer := .retainOutput 0 phases }
    else some { s with initializing := false, initializer := .sendExit ⟨1, none, none, phases⟩ }
  | .retainOutput i phases, .go =>
    if i < s.spawned then
      -- `retain_output` waits for the lock that a sending drain holds
      match s.drains i false, s.drains i true with
      | .sending _ _, _ | _, .sending _ _ => none
      | _, _ =>
        some { s with
          startupSender := Function.update s.startupSender i false
          initializer := .retainOutput (i + 1) phases }
    else some { s with initializer := .sendReady phases }
  | .sendReady phases, .go =>
    some { s.sendBestEffort (.ready cfg.sessionId "rev_0" phases) with
      initializer := .finished true }
  | .sendError code message phase exit, .go =>
    some { s.sendBestEffort (.error code (some message) phase) with
      initializer := .sendExit exit }
  | .sendExit exit, .go =>
    some { s.sendBestEffort (.exit exit.code (exit.timedOut.getD (s.expired cfg))
        exit.failedPhase exit.phases) with
      initializer := .finished false }
  | _, _ => none

/-! ### Bridge and drains -/

def bridgeStep (s : StartStream) : BridgePc → Option StartStream
  | .poll =>
    match s.phaseChannel.tryRecv with
    | some (event, phaseChannel) =>
      some { s with
        phaseChannel := phaseChannel
        bridge := match event.mapped with
          | some mapped => .sending mapped (.checkCancelled (s.now + outputForwardGrace))
          | none => .poll }
    | none =>
      if s.phaseSender || s.detached ≠ 0 then some { s with bridge := .empty }
      else some { s with phaseChannel := s.phaseChannel.close, bridge := .ended }
  | .empty =>
    if s.bridgeStop || s.initializationCancellation then
      some { s with phaseChannel := s.phaseChannel.close, bridge := .ended }
    else some { s with bridge := .poll }
  | .sending event pc =>
    let (channel, cancelled, status) :=
      sendSessionResponse s.channel s.initializationCancellation s.now event pc
    match status with
    | .pending pc =>
      some { s with
        channel := channel
        initializationCancellation := cancelled
        bridge := .sending event pc }
    | .sent =>
      some { s with
        channel := channel, initializationCancellation := cancelled, bridge := .poll }
    | .failed _ =>
      some { s with
        channel := channel
        initializationCancellation := true
        phaseChannel := s.phaseChannel.close
        bridge := .ended }
  | .absent | .ended => none

def StartStream.setDrain (s : StartStream) (i : Nat) (stderr : Bool) (pc : DrainPc) : StartStream :=
  { s with drains := Function.update s.drains i (Function.update (s.drains i) stderr pc) }

def DrainPc.locked : DrainPc → Bool
  | .sending _ _ => true
  | _ => false

def drainStep (s : StartStream) (i : Nat) (stderr : Bool) : DrainPc → DrainInput → Option StartStream
  | .reading, .chunk data =>
    some (s.setDrain i stderr
      (if s.retainingServiceOutput then .reading
      else .holding (if stderr then .stderr data else .stdout data)))
  | .reading, .done => some (s.setDrain i stderr .ended)
  | .holding event, .step =>
    -- the two drains of a service share the lock of its startup sender
    if (s.drains i !stderr).locked then none
    else
      some (s.setDrain i stderr
        (if s.startupSender i then .sending event (.checkCancelled (s.now + outputForwardGrace))
        else .reading))
  | .sending event pc, .step =>
    let (channel, cancelled, status) :=
      sendSessionResponse s.channel s.initializationCancellation s.now event pc
    some ({ s with channel := channel, initializationCancellation := cancelled }.setDrain i stderr
      (match status with
        | .pending pc => .sending event pc
        | .sent => .reading
        | .failed _ => .ended))
  | _, _ => none

/-! ### The step function -/

def InitializerPc.locksState : InitializerPc → Bool
  | .retainOutput _ _ | .sendReady _ => true
  | _ => false

def startStep (cfg : StartConfig) (s : StartStream) : StartEvent → Option StartStream
  | .tick elapsed => some { s with now := s.now + elapsed }
  | .initializer answer => initializerStep cfg s s.initializer answer
  | .bridge => bridgeStep s s.bridge
  | .drain i stderr input => drainStep s i stderr (s.drains i stderr) input
  | .phaseOutput event =>
    match s.initializer, s.detached, s.phaseChannel.trySend event with
    | .runTaskPhases, _, .ok phaseChannel => some { s with phaseChannel := phaseChannel }
    | _, _ + 1, .ok phaseChannel => some { s with phaseChannel := phaseChannel }
    | _, _, _ => none
  | .outputThreadEnds =>
    if s.detached ≠ 0 then some { s with detached := s.detached - 1 } else none
  | .receive =>
    match s.channel.tryRecv with
    | some (_, channel) => some { s with channel := channel }
    | none => none
  | .drop => some { s with channel := s.channel.close }
  | .terminate =>
    if s.initializer.locksState then none
    else some { s with initializing := false, initializationCancellation := true }

end IndenturedServer.Sessions
