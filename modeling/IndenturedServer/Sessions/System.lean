import IndenturedServer.Foundation.Transition
import IndenturedServer.Sessions.State

/-!
One managed session with every thread that can touch it.

The system is the session entry of `sessions.rs`, the file-system objects
the session owns (workspace, metadata file, published action archives), and
a table of threads. A thread is at a program point between two atomic
sections of the source; a step runs the next section. What the environment
decides (the outcome of a system call, of a configured process, of a send)
is the `Answer` of the step. The clock advances by separate steps, so every
deadline of the source may pass between any two sections.

Ids are thread numbers. The source draws a fresh UUID for every action and
update; here the number of the thread that runs the operation names it, and
a number is never used twice.

The `History` is not part of the program: it records what has happened, for
the statements about runs.
-/

namespace IndenturedServer.Sessions

/-! ### Durable metadata -/

structure DurableServiceProcess where
  name : String
  supervisorPid : Nat
  servicePid : Nat
  servicePgid : Int
  shutdownTimeoutSec : Nat
  deriving DecidableEq, Repr

inductive DurableSessionState
  | startingServices
  | ready
  deriving DecidableEq, Repr

structure DurableSessionMetadata where
  version : Nat
  sessionId : String
  taskId : String
  workspaceRevision : Nat
  state : DurableSessionState
  services : List DurableServiceProcess
  deriving DecidableEq, Repr

/-- How one `write_metadata` ends. A failed directory sync reports an error
although the rename has already replaced the file. -/
inductive WriteOutcome
  | ok
  | failedBeforeRename (err : String)
  | failedAfterRename (err : String)
  deriving DecidableEq, Repr

def WriteOutcome.replaces : WriteOutcome → Bool
  | .failedBeforeRename _ => false
  | _ => true

def WriteOutcome.error? : WriteOutcome → Option String
  | .ok => none
  | .failedBeforeRename err => some err
  | .failedAfterRename err => some err

structure SessionServiceConfig where
  name : String
  shutdownTimeoutSec : Nat
  deriving DecidableEq, Repr

/-- The immutable part of a session entry. -/
structure SessionConfig where
  id : String
  taskId : String
  deadline : Nat
  idleTimeout : Nat
  services : List SessionServiceConfig
  sourceUpdates : Bool
  resolvesAction : String → Bool

def SessionConfig.metadataVersion (cfg : SessionConfig) : Nat :=
  if cfg.services.isEmpty then 2 else 3

def SessionConfig.sortedServices (cfg : SessionConfig) : List SessionServiceConfig :=
  cfg.services.insertionSort fun a b => a.name ≤ b.name

/-! ### Threads -/

inductive UpdateErrorKind
  | badRequest
  | limit
  | internal
  | cancelled
  deriving DecidableEq, Repr

structure SourceUpdateError where
  kind : UpdateErrorKind
  message : String
  rollbackProven : Bool
  deriving DecidableEq, Repr

def workerPanicked : SourceUpdateError := ⟨.internal, "source update worker panicked", false⟩

/-- The initialize worker, named by what it does next. -/
inductive InitPc
  | initializeSession
  | recordStart
  | spawnService (rest : List SessionServiceConfig)
  | recordService (rest : List SessionServiceConfig)
  | waitReady (rest : List SessionServiceConfig)
  | commitCheck
  | commitMetadata
  | commitFailed
  | commitElection
  | dropMetadata
  | cleanup
  deriving DecidableEq, Repr

/-- The execute_action worker. The points from `deliver` to `ackDeadline`
are `deliver_final_action_event` with its two loops, each carrying the
deadline it was given. -/
inductive ActionPc
  | run
  | snapshot
  | canPublish
  | deliver
  | enqueueCheck (deadline : Nat)
  | enqueueSend (deadline : Nat)
  | enqueueFull (deadline : Nat)
  | enqueued
  | ackCancel (deadline : Nat)
  | ackPoll (deadline : Nat)
  | ackDeadline (deadline : Nat)
  | discard
  | finish
  deriving DecidableEq, Repr

/-- The execute_update worker and, after a panic, its handler. The handler
does not know whether the session was already ready again when the panic
came; `late` says so for the statements about runs. -/
inductive UpdatePc
  | begin
  | apply (metadata : DurableSessionMetadata)
  | commit (metadata : DurableSessionMetadata) (changed deleted : List SessionUpdateEvidence)
  | rollback (err : SourceUpdateError)
  | applied (changed deleted : List SessionUpdateEvidence)
  | failed (err : SourceUpdateError)
  | returning (result : Except SourceUpdateError SessionUpdateResponse)
  | panicked (late : Bool)
  | panicLookedUp (late : Bool)
  deriving DecidableEq

inductive StopError
  | notFound
  | conflict
  deriving DecidableEq, Repr

inductive Result
  | unit
  | stop (result : Except StopError SessionStopResponse)
  | admission (error : ActionError)
  | action (delivered : Bool)
  | update (result : Except SourceUpdateError SessionUpdateResponse)
  | updateAdmission (result : Except UpdateAdmissionError SessionUpdateResponse)
  deriving DecidableEq

/-- Which call of `cleanup_entry` a thread is in. -/
inductive Role
  | initializer
  | action
  | update (request : UpdateRequest) (err : SourceUpdateError)
  | panicHandler (owner : CleanupOwner)
  | requester
  | stopper
  deriving DecidableEq, Repr

inductive CleanupStage
  | takeServices
  | stopServices (remaining : List DurableServiceProcess)
  | teardown
  | collectArtifacts
  | removeWorkspace
  | removeMetadata
  | unregister
  | releasePermit
  | publish
  deriving DecidableEq, Repr

/-- The locals of one execution of `cleanup_entry`. -/
structure CleanupCall where
  explicit : Bool
  stage : CleanupStage := .takeServices
  serviceCleanupFailed : Bool := false
  identityCleanupUnproven : Bool := false
  teardown : SessionTeardownResult := ⟨0, none, false, none⟩
  artifacts : Option ArtifactArchive := none
  artifactRestrictions : Option ArtifactRestrictions := none
  deriving DecidableEq, Repr

inductive Thread
  | absent
  | initializer (pc : InitPc)
  | action (pc : ActionPc)
  | update (request : UpdateRequest) (pc : UpdatePc)
  | stopWaiting
  | cleaning (role : Role) (call : CleanupCall)
  | returned (result : Result)
  deriving DecidableEq

/-- The response body of one action (`SessionActionEventStream`). -/
inductive StreamPhase
  /-- No action was started under this number. -/
  | absent
  /-- `pending_ack` is empty. -/
  | polling
  /-- The final event was handed out and its acknowledgement is pending. -/
  | holding
  /-- `acknowledge_action_delivery` returned, `ack.send` has not run. -/
  | answered (accepted : Bool)
  /-- `ack.send` has run. -/
  | settled
  /-- `drop` has run `disconnect_action`, the fields are still alive. -/
  | dropping
  | dropped
  deriving DecidableEq, Repr

structure ActionStream where
  phase : StreamPhase := .absent
  /-- The final event is in the channel. -/
  queued : Bool := false
  /-- The value in the acknowledgement channel. -/
  ack : Option Bool := none
  /-- Receiver and pending acknowledgement sender are gone. -/
  closed : Bool := false
  deriving DecidableEq, Repr

/-! ### The system -/

/-- One committed run of `apply_update`. -/
structure AppliedUpdate where
  requestId : String
  digest : Digest
  baseRevision : Nat
  deriving DecidableEq, Repr

structure History where
  /-- The first termination and the thread whose section recorded it. -/
  first : Option (Nat × Termination) := none
  /-- Executions of `cleanup_entry` started so far. -/
  cleanups : Nat := 0
  /-- The initializer has reached the loop that spawns services. -/
  spawning : Bool := false
  /-- `acknowledge_action_delivery` returned true for this action. -/
  accepted : Nat → Bool := fun _ => false
  /-- `collect_artifacts_zip` published an archive for this action. -/
  published : Nat → Bool := fun _ => false
  /-- This update replaced the metadata file. -/
  rewrote : Nat → Bool := fun _ => false
  /-- Updates committed to the workspace, oldest first. -/
  applied : List AppliedUpdate := []
  /-- Successful updates, oldest first. -/
  successes : List SuccessfulUpdate := []
  /-- Services whose stop reported an unproven cleanup. -/
  unproven : List DurableServiceProcess := []
  /-- Archives collected by `cleanup_entry`. -/
  finalArchives : List ArtifactArchive := []

structure Session where
  state : SessionState := .initializing false
  initializationCancellation : Bool := false
  cancellation : Nat → Bool := fun _ => false
  permit : Bool := true
  registered : Bool := true
  updateData : SessionUpdateData := ⟨0, none⟩
  services : List DurableServiceProcess := []
  workspace : Bool := false
  metadata : Option DurableSessionMetadata := none
  archives : Nat → Bool := fun _ => false
  now : Nat := 0
  threads : Nat → Thread := fun _ => .absent
  streams : Nat → ActionStream := fun _ => {}
  log : History := {}

def Session.reserved : Session := {}

/-- The calls that reach a session from outside its workers. -/
inductive Call
  | beginInitialization
  | cancelUpload
  | disconnect
  | serviceFailed
  | stop
  | stopNotFound
  | expireLifetime
  | expireIdle
  | startAction (name : String)
  | startUpdate (request : UpdateRequest)
  deriving DecidableEq, Repr

inductive ServiceStop
  | ok
  | failed (cleanupUnproven : Bool)
  deriving DecidableEq, Repr

/-- What the environment answers to the call a section makes. -/
inductive Answer
  /-- The section asks nothing, or the call succeeds. -/
  | go
  | failed (message : String)
  | initialized (workspaceCreated succeeded : Bool)
  | wrote (outcome : WriteOutcome)
  | spawned (supervisorPid servicePid : Nat) (servicePgid : Int)
  | collected (archive : Option ArtifactArchive) (restrictions : Option ArtifactRestrictions)
  | collectFailed (directoryLeft : Bool)
  | removed (succeeded : Bool)
  | channelFull
  | mutated (changed deleted : List SessionUpdateEvidence)
  | applyFailed (kind : UpdateErrorKind) (message : String) (mutating : Bool)
  | rolledBack (failure : Option String)
  | stopped (outcome : ServiceStop)
  | tornDown (result : SessionTeardownResult)
  deriving DecidableEq, Repr

inductive StreamOp
  | receiveFinal
  | acknowledge
  | sendAck
  | drop
  | close
  deriving DecidableEq, Repr

inductive Event
  | tick (elapsed : Nat)
  | call (t : Nat) (op : Call)
  | run (t : Nat) (answer : Answer)
  | stream (t : Nat) (op : StreamOp)
  /-- The update worker `t` panics outside every lock. -/
  | panic (t : Nat)
  /-- An output thread of the initialization raises its flag. -/
  | cancelInitialization
  /-- An output thread of action `t` raises its flag. -/
  | cancelAction (t : Nat)
  deriving DecidableEq, Repr

end IndenturedServer.Sessions
