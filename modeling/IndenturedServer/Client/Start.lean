import IndenturedServer.Foundation.Program
import IndenturedServer.Sessions.StartStream

/-!
The start command of the client.

`session_start_command` prepares the sources, sends the request, follows the
response stream and records its progress in a provenance file. It can be
interrupted at any of the points at which it polls the signal, and every write
of the provenance can fail. A failed write sets a flag that stays set:
`evidence_exit` turns the exit code that was asked for into a failure when it
finds the flag.

The command is a program over what it keeps (the provenance, the flag, the
session ID that it has observed, the stops that it has requested). An early
return is an error of the program, with the exit code as its value. What comes
from outside is data: the items of the response stream, where the reader of
the stream waits, the answers to the polls of the signal and to the writes.
-/

namespace IndenturedServer.Client

open Foundation
open Sessions (PhaseResult SessionStartEvent)

/-! ### Evidence -/

inductive BuildError
  | connectionFailed (message : String)
  | timedOut (message : String)
  | other (message : String)
  deriving DecidableEq, Repr

def BuildError.message : BuildError → String
  | .connectionFailed message => message
  | .timedOut message => message
  | .other message => message

/-- What the writes of the provenance are for. -/
inductive Write
  /-- `write_provenance` on its own -/
  | provenance
  | status
  | sessionId
  | cleanupStatus
  | finish
  | error
  deriving DecidableEq, Repr

structure Provenance where
  status : String := "preparing"
  sessionId : Option String := none
  remoteExitCode : Option Int := none
  timedOut : Option Bool := none
  phases : List PhaseResult := []
  cleanupStatus : Option String := none
  errors : List String := []
  finished : Bool := false

inductive InterruptState
  | pending
  | triggered
  | completed
  | unavailable
  deriving DecidableEq, Repr

/-- What the control of the signal tells the command: the signal has come, or it
is too late for it. -/
inductive Report
  | interrupted
  | completed
  deriving DecidableEq, Repr

structure World where
  provenance : Provenance := {}
  persistenceFailure : Option String := none
  /-- The writes of the provenance, and whether they succeeded. -/
  writes : List (Write × Bool) := []
  interrupt : InterruptState := .pending
  polls : Nat := 0
  /-- What the control has told so far. -/
  reports : List Report := []
  /-- The channel on which the reader of the stream reports a session ID. -/
  queue : List String := []
  observed : Option String := none
  /-- The sessions for which a stop was requested. -/
  stops : List String := []
  /-- The session ID is on the standard output. -/
  emitted : Bool := false
  /-- The bytes of it that are there. -/
  written : Nat := 0

structure Environment where
  /-- What the n-th poll of the signal finds: nothing, an interrupt, or that
  there is no signal to wait for. -/
  signal : Nat → Option Bool
  /-- The failure of the n-th write of the provenance. -/
  persists : Nat → Option String
  /-- How the request to stop a session ends. -/
  stop : String → String

/-- A program of the client; an error is an early return with its exit code. -/
abbrev Command := EStateM Nat World

/-- `local_fallback` of the connection section. -/
structure Connection where
  localFallback : Bool

def connectionFallbackExitCode : Nat := 222

section
variable (env : Environment)

/-- `poll_pending`, and a poll of the future `interrupted()`, which is ready if the
value is true. -/
def poll : Command Bool := fun w =>
  match w.interrupt with
  | .triggered => .ok true { w with reports := w.reports ++ [.interrupted] }
  | .pending =>
    match env.signal w.polls with
    | none => .ok false { w with polls := w.polls + 1 }
    | some true => .ok true { w with
        polls := w.polls + 1
        interrupt := .triggered
        reports := w.reports ++ [.interrupted] }
    | some false => .ok false { w with polls := w.polls + 1, interrupt := .unavailable }
  | .completed | .unavailable => .ok false w

def claimCompletion : Command Bool := do
  if ← poll env then return false
  match (← get).interrupt with
  | .pending | .unavailable =>
    modify fun w => { w with interrupt := .completed, reports := w.reports ++ [.completed] }
    return true
  | .triggered | .completed => return false

def persist (write : Write) (change : Provenance → Provenance) :
    Command (Option String) := fun w =>
  let failure := env.persists w.writes.length
  .ok failure { w with
    provenance := change w.provenance
    writes := w.writes ++ [(write, failure.isNone)]
    persistenceFailure :=
      w.persistenceFailure.or (failure.map ("provenance persistence failed: " ++ ·)) }

def setStatus (status : String) : Command (Option String) :=
  persist env .status fun p => { p with status := status }

def setSessionId (id : String) : Command (Option String) :=
  persist env .sessionId fun p => { p with sessionId := some id }

def setCleanupStatus (status : String) : Command (Option String) :=
  persist env .cleanupStatus fun p => { p with cleanupStatus := some status }

def finish (status : String) : Command (Option String) :=
  persist env .finish fun p => { p with status := status, finished := true }

def takeBytes : Nat → List Char → List Char
  | _, [] => []
  | n, c :: rest => if c.utf8Size ≤ n then c :: takeBytes (n - c.utf8Size) rest else []

def truncateUtf8 (value : String) (maxBytes : Nat) : String :=
  String.ofList (takeBytes maxBytes value.toList)

def error (message : String) : Command (Option String) :=
  persist env .error fun p =>
    if p.errors.length < 32 then { p with errors := p.errors ++ [truncateUtf8 message 4096] } else p

/-! ### Exits -/

def evidenceExit (requested : Nat) : Command Nat := do
  match (← get).persistenceFailure with
  | some _ => return 1
  | none => return requested

def provenanceFailure (err : String) : Command Nat := do
  modify fun w => { w with
    persistenceFailure := w.persistenceFailure.or (some ("provenance persistence failed: " ++ err)) }
  evidenceExit 1

def finishSessionFailure (message : String) (connectionFailure : Bool) : Command Nat := do
  let _ ← error env message
  let _ ← finish env "failed"
  evidenceExit (if connectionFailure then connectionFallbackExitCode else 1)

def noteNoSession : Command Unit := do
  if (← get).provenance.sessionId = none then
    let _ ← setCleanupStatus env "not attempted: session ID unavailable"

def finishEarlyInterrupted (message : String) : Command Nat := do
  noteNoSession env
  let _ ← error env message
  let _ ← finish env "interrupted"
  evidenceExit 130

/-- `best_effort_stop`, and what is recorded of it. -/
def recordBestEffortStop (id : String) : Command Unit := do
  modify fun w => { w with stops := w.stops ++ [id] }
  let _ ← setCleanupStatus env (env.stop id)
  if (env.stop id).startsWith "failed:" then
    let _ ← error env ("best-effort stop " ++ env.stop id)

def finishInterruptedSession (id : String) : Command Nat := do
  recordBestEffortStop env id
  let _ ← finish env "interrupted"
  evidenceExit 130

def BuildError.exitCode (connection : Option Connection) : BuildError → Nat
  | .connectionFailed _ =>
    if (connection.map Connection.localFallback).getD false then connectionFallbackExitCode else 1
  | .timedOut _ => 124
  | .other _ => 1

def BuildError.noteTimeout (p : Provenance) : BuildError → Provenance
  | .timedOut _ => { p with timedOut := some true }
  | _ => p

def finishRemoteSessionError (err : BuildError) (connection : Option Connection) :
    Command Nat := do
  modify fun w => { w with provenance := err.noteTimeout w.provenance }
  let _ ← error env err.message
  let _ ← finish env "failed"
  evidenceExit (err.exitCode connection)

def leave {α : Type} (exit : Command Nat) : Command α := do
  throw (← exit)

def leaveIf (c : Bool) (exit : Command Nat) : Command Unit :=
  if c then leave exit else return ()

def leaveOn (failure : Option String) (exit : String → Command Nat) :
    Command Unit :=
  match failure with
  | some err => leave (exit err)
  | none => return ()

/-! ### The response stream -/

def validSessionId (value : String) : Bool :=
  value ≠ "" && value.utf8ByteSize ≤ 128 &&
    value.toList.all fun c => c.isAlphanum || c = '_' || c = '-'

structure SessionStartResult where
  sessionId : Option String
  exitCode : Int
  timedOut : Bool
  phases : List PhaseResult
  errors : List String

/-- The variables of `read_session_start_response`. -/
structure Remote where
  startedId : Option String := none
  streamErrors : List String := []
  result : Option SessionStartResult := none

/-- The ID of a session event. The second value is the ID that is reported to
the command. -/
def Remote.identify (remote : Remote) (id : String) : Except BuildError (Remote × Option String) := do
  refuse (validSessionId id = false) (.other "server returned an invalid session ID")
  match remote.startedId with
  | some existing => do
      refuse (existing ≠ id) (.other "session identity changed during initialization")
      return (remote, none)
  | none => return ({ remote with startedId := some id }, some id)

def errorText (code : String) : Option String → String
  | some message => code ++ ": " ++ message
  | none => code

def Remote.conclude (remote : Remote) (sessionId : Option String) (exitCode : Int) (timedOut : Bool)
    (phases : List PhaseResult) : Remote :=
  { remote with
    result := some ⟨sessionId, exitCode, timedOut, phases, remote.streamErrors⟩
    streamErrors := [] }

def Remote.event (remote : Remote) : SessionStartEvent → Except BuildError (Remote × Option String)
  | .session id _ _ _ _ _ => remote.identify id
  | .stdout _ | .stderr _ => return (remote, none)
  | .error code message _ =>
    return ({ remote with streamErrors := remote.streamErrors ++ [errorText code message] }, none)
  | .ready id _ phases => do
      refuse (validSessionId id = false ∨ remote.startedId ≠ some id)
        (.other "ready event had inconsistent session identity")
      return (remote.conclude (some id) 0 false phases, none)
  | .exit code timedOut _ phases => return (remote.conclude none code timedOut phases, none)

/-- One item of the stream. A failure of the connection, of a line or of the
local output is an item of its own. -/
def Remote.take (remote : Remote) (item : Except BuildError SessionStartEvent) :
    Except BuildError (Remote × Option String) := do
  let event ← item
  refuse (remote.result.isSome = true)
    (.other "session start response contained an event after its final event")
  remote.event event

/-- The stream has ended. -/
def Remote.finish (remote : Remote) : Except BuildError SessionStartResult :=
  match remote.result with
  | some result => .ok result
  | none => .error (.other "missing ready or exit event")

inductive Controlled
  | interrupted
  | provenance (err : String)
  | completed (outcome : Except BuildError SessionStartResult)

/-- The command takes the first ID as that of its session. -/
def observe (id : String) : Command (Option String) := do
  if (← get).observed.isNone then
    modify fun w => { w with observed := some id }
    setSessionId env id
  else return none

/-- The turns of the select loop that take IDs from the channel. -/
def receive : List String → Command (Option Controlled)
  | [] => return none
  | id :: rest => do
      modify fun w => { w with queue := rest }
      match ← observe env id with
      | some err => return some (.provenance err)
      | none => if ← poll env then return some .interrupted else receive rest

/-- What the loop does before it lets the reader of the stream go on. -/
def turn : Command (Option Controlled) := do
  if ← poll env then return some .interrupted
  else receive env (← get).queue

/-- The select loop, item by item. After an item the reader may have to wait,
and the loop has a turn. -/
def control : Remote → List (Except BuildError SessionStartEvent × Bool) →
    Command Controlled
  | remote, [] => return .completed remote.finish
  | remote, (item, waits) :: rest =>
    match remote.take item with
    | .error err => return .completed (.error err)
    | .ok (remote, reported) => do
        modify fun w => { w with queue := w.queue ++ reported.toList }
        match ← (if waits then turn env else pure none) with
        | some controlled => return controlled
        | none => control remote rest

/-- The loops over what is left in the channel, with what they do when the
write of the first ID fails. -/
def drain (onFailure : String → String → Command Unit) :
    List String → Command Unit
  | [] => return ()
  | id :: rest => do
      modify fun w => { w with queue := rest }
      match ← observe env id with
      | some err => do
          onFailure id err
          drain onFailure rest
      | none => drain onFailure rest

/-- After a completed request a write that fails is a reason to stop. -/
def stopUnrecorded (id err : String) : Command Unit :=
  leave do
    recordBestEffortStop env id
    provenanceFailure err

/-! ### The end of a start -/

/-- What a query of the output finds. When the output is not writable the client
waits, and the wait may fail. -/
inductive Writable
  | yes
  | no (waiting : Option String)
  | failed (err : String)

/-- What `write` makes of the text. -/
inductive Written
  | whole
  | part (bytes : Nat)
  | failed (err : String)

/-- What the standard output answers: opening it, asking whether it is
writable, registering it, and writing. -/
structure Emission where
  opens : Option String := none
  writable : List Writable := []
  registers : Option String := none
  writes : Written := .whole

inductive ControlledIo
  | completed (failure : Option String)
  | interrupted

/-- The text and the end of the line, in one call. -/
def writeAtomic (text : String) (emission : Emission) : Command ControlledIo := do
  match emission.writes with
  | .failed err => return .completed (some err)
  | .part bytes =>
    modify fun w => { w with written := min bytes text.utf8ByteSize }
    return .completed (some "partial session ID output")
  | .whole =>
    modify fun w => { w with emitted := true, written := text.utf8ByteSize + 1 }
    return .completed none

def claimAndWrite (text : String) (emission : Emission) : Command ControlledIo := do
  if ← claimCompletion env then writeAtomic text emission else return .interrupted

/-- The loop that waits until the output is writable. -/
def awaitWritable (text : String) (emission : Emission) : List Writable → Command ControlledIo
  | [] => claimAndWrite env text emission
  | .failed err :: _ => return .completed (some err)
  | .yes :: _ => claimAndWrite env text emission
  | .no waiting :: rest => do
      if ← poll env then return .interrupted
      else match waiting with
        | some err => return .completed (some err)
        | none =>
          if ← poll env then return .interrupted
          else awaitWritable text emission rest

/-- The output is registered for the wait when it is not writable at once. -/
def writeWhenWritable (text : String) (emission : Emission) : Command ControlledIo :=
  match emission.writable, emission.registers with
  | .no _ :: _, some err => do
      if ← poll env then return .interrupted else return .completed (some err)
  | .no _ :: rest, none => do
      if ← poll env then return .interrupted else awaitWritable env text emission rest
  | answers, _ => awaitWritable env text emission answers

def emitSessionIdControlled (text : String) (emission : Emission) : Command ControlledIo :=
  match emission.opens with
  | some err => return .completed (some err)
  | none => do
      if ← poll env then return .interrupted else writeWhenWritable env text emission

/-- The last part of a start that has become ready. -/
def finishReady (id : String) (emission : Emission) : Command Nat := do
  leaveIf ((← get).observed ≠ some id) do
    recordBestEffortStop env id
    finishSessionFailure env "Ready session identity was not durably observed" false
  leaveIf (← poll env) (finishInterruptedSession env id)
  -- the write goes on while the signal is awaited
  let interrupted ← poll env
  let failure ← finish env "ready"
  leaveIf interrupted (finishInterruptedSession env id)
  leaveOn failure fun err => do
    recordBestEffortStop env id
    provenanceFailure err
  leaveIf (← poll env) (finishInterruptedSession env id)
  match ← emitSessionIdControlled env id emission with
  | .interrupted => leave (finishInterruptedSession env id)
  | .completed (some err) => leave do
      recordBestEffortStop env id
      finishSessionFailure env ("failed to emit session ID: " ++ err) false
  | .completed none => evidenceExit 0

def normalizeExitCode (code : Int) : Nat :=
  if code < 0 then 1 else if 255 < code then 255 else code.toNat

def normalizeRequestedExit (code : Int) (timedOut : Bool) : Nat :=
  if timedOut then 124 else normalizeExitCode code

def stopObserved : Command Unit := do
  match (← get).observed with
  | some id => recordBestEffortStop env id
  | none => return ()

def finishExited (result : SessionStartResult) : Command Nat := do
  stopObserved env
  leaveOn (← finish env "failed") provenanceFailure
  evidenceExit (normalizeRequestedExit result.exitCode result.timedOut)

/-- The messages of the stream; their writes are not checked. -/
def recordErrors : List String → Command Unit
  | [] => return ()
  | message :: rest => do
      let _ ← error env message
      recordErrors rest

def finishResult (result : SessionStartResult) (emission : Emission) : Command Nat := do
  modify fun w => { w with
    provenance := { w.provenance with
      remoteExitCode := some result.exitCode
      timedOut := some result.timedOut
      phases := result.phases } }
  recordErrors env result.errors
  match result.sessionId with
  | some id => finishReady env id emission
  | none => finishExited env result

/-! ### The command -/

/-- What the preparation meets: the message of the first failure of each of its
parts. -/
structure Preparation where
  /-- Patterns, credential, endpoint, token and output limits. -/
  checks : List (Option String) := []
  package : Option String := none
  /-- The cleanup of a packaging that was interrupted. -/
  cleanup : Option String := none
  manifest : Option String := none

structure Request where
  preparation : Preparation := {}
  connection : Option Connection := none
  /-- The items of the response, and whether the reader waits after each. -/
  stream : List (Except BuildError SessionStartEvent × Bool)
  emission : Emission := {}

def runChecks : List (Option String) → Command Unit
  | [] => return ()
  | check :: rest => do
      leaveOn check fun message => finishSessionFailure env message false
      runChecks rest

/-- The packaging is interrupted, and its cleanup may fail. -/
def abandonPackaging (cleanup : Option String) : Command Nat :=
  match cleanup with
  | some message => do
      let _ ← error env message
      finishEarlyInterrupted env "interrupted during source preparation"
  | none => finishEarlyInterrupted env "interrupted during source preparation"

def prepare (preparation : Preparation) : Command Unit := do
  leaveIf (← poll env) (finishEarlyInterrupted env "interrupted before source preparation")
  runChecks env preparation.checks
  leaveIf (← poll env) (finishEarlyInterrupted env "interrupted during source preparation")
  leaveIf (← poll env) (abandonPackaging env preparation.cleanup)
  leaveOn preparation.package fun message => finishSessionFailure env message false
  leaveOn preparation.manifest fun message => finishSessionFailure env message false
  leaveOn (← setStatus env "running") provenanceFailure

/-- The select loop from its start. -/
def followStream (stream : List (Except BuildError SessionStartEvent × Bool)) :
    Command Controlled := do
  match ← turn env with
  | some controlled => return controlled
  | none => control env {} stream

/-- What is made of a request that has come to its end. -/
def finishOutcome (request : Request) :
    Except BuildError SessionStartResult → Command Nat
  | .ok result => finishResult env result request.emission
  | .error err => do
      stopObserved env
      finishRemoteSessionError env err request.connection

def finishInterrupted : Command Nat := do
  match (← get).observed with
  | some id => finishInterruptedSession env id
  | none => finishEarlyInterrupted env "interrupted; remote request disconnected"

def conclude (request : Request) : Controlled → Command Nat
  | .completed outcome => do
      drain env (stopUnrecorded env) (← get).queue
      finishOutcome env request outcome
  | .interrupted => do
      drain env (fun _ _ => return ()) (← get).queue
      finishInterrupted env
  | .provenance err => do
      stopObserved env
      provenanceFailure err

def sessionStartCommand (request : Request) : Command Nat := do
  prepare env request.preparation
  let controlled ← followStream env request.stream
  conclude env request controlled

end

/-- The exit code of the process and what the command leaves. -/
def exitOf (env : Environment) (request : Request) : Nat × World :=
  match sessionStartCommand env request {} with
  | .ok code w => (code, w)
  | .error code w => (code, w)

end IndenturedServer.Client
