import Mathlib

/-!
The state value of a managed session and the sections of `sessions.rs`
that read and write it under its mutex.

Every operation of the session manager locks the state once, looks at the
current value, possibly replaces it, and drops the lock; everything slow
(cleanup, teardown, archive collection) happens after the lock is gone. A
section is therefore a pure function from the current value to an
`Outcome`: the new value, the cancellation flags that were raised while the
lock was held, and a `Verdict` that says what the calling thread does next.

The cancellation flag of an action or update is an `Arc` shared by the
state value and the worker. The operation's id names it, so the state value
carries the id and the flags live in one table.
-/

namespace IndenturedServer.Sessions

/-- Who has to call `cleanup_entry` once a session is terminating. -/
inductive CleanupOwner
  | initializer
  | action
  | update
  | requester
  deriving DecidableEq, Repr

structure Termination where
  explicit : Bool
  owner : CleanupOwner
  deriving DecidableEq, Repr

structure SessionTeardownResult where
  durationMs : Nat
  exitCode : Option Int
  timedOut : Bool
  errorCode : Option String
  deriving DecidableEq, Repr

structure ArtifactArchive where
  path : String
  size : Nat
  deriving DecidableEq, Repr

structure ArtifactRestrictions where
  omittedCount : Nat
  matchedPatterns : List String
  deriving DecidableEq, Repr

structure SessionStopResponse where
  sessionId : String
  teardown : SessionTeardownResult
  artifacts : Option ArtifactArchive
  artifactRestrictions : Option ArtifactRestrictions
  deriving DecidableEq, Repr

inductive SessionState
  | initializing (workerStarted : Bool)
  | ready (lastActivity : Nat)
  | action (actionId : Nat)
  | updating (updateId : Nat)
  | terminating (termination : Termination)
  | terminated (response : SessionStopResponse)
  deriving DecidableEq, Repr

def SessionState.termination? : SessionState → Option Termination
  | .terminating τ => some τ
  | _ => none

def SessionState.live : SessionState → Bool
  | .terminating _ => false
  | .terminated _ => false
  | _ => true

/-- What the calling thread does once it has dropped the state lock. -/
inductive Verdict
  /-- Nothing was won: return. -/
  | nothing
  /-- The operation was admitted or committed. -/
  | proceed
  /-- A termination was recorded and another thread cleans up. -/
  | delegated
  /-- Call `cleanup_entry` with this flag. -/
  | cleanup (explicit : Bool)
  deriving DecidableEq, Repr

/-- The effect of one section under the state lock. -/
structure Outcome where
  state : SessionState
  cancelInitialization : Bool := false
  cancelOperation : Option Nat := none
  verdict : Verdict := .nothing
  deriving DecidableEq, Repr

/-- The section leaves everything as it is. -/
def Outcome.unchanged (st : SessionState) : Outcome := { state := st }

/-! ### Admission and initialization -/

def beginInitialization (cancelled expired : Bool) : SessionState → Outcome
  | .initializing false =>
    if !cancelled && !expired then
      { state := .initializing true, verdict := .proceed }
    else
      { state := .terminating ⟨false, .requester⟩, cancelInitialization := true,
        verdict := .cleanup false }
  | st => .unchanged st

def cancelUpload : SessionState → Outcome
  | .initializing false =>
    { state := .terminating ⟨false, .requester⟩, cancelInitialization := true,
      verdict := .cleanup false }
  | st => .unchanged st

/-- `if matches!(*state, Initializing { .. })`, the initializer gives its
session up without raising any flag. -/
def abandonInitialization : SessionState → SessionState
  | .initializing _ => .terminating ⟨false, .initializer⟩
  | st => st

/-- The check of `initialize` before metadata is written, and with a time
stamp its election after the write: both ask for an uncancelled, unexpired
`Initializing`. -/
def initializationWins (cancelled expired : Bool) : SessionState → Bool
  | .initializing _ => !cancelled && !expired
  | _ => false

def commitCheck (cancelled expired : Bool) (st : SessionState) : Outcome :=
  if initializationWins cancelled expired st then { state := st, verdict := .proceed }
  else { state := abandonInitialization st }

def commitFailed (st : SessionState) : Outcome :=
  { state := abandonInitialization st }

def commitElection (cancelled expired : Bool) (now : Nat) (st : SessionState) : Outcome :=
  if initializationWins cancelled expired st then { state := .ready now, verdict := .proceed }
  else { state := abandonInitialization st }

def initializerCleanup (defaultExplicit : Bool) : SessionState → Outcome
  | .initializing _ =>
    { state := .terminating ⟨defaultExplicit, .initializer⟩, verdict := .cleanup defaultExplicit }
  | .terminating τ =>
    if τ.owner = .initializer then
      { state := .terminating τ, verdict := .cleanup τ.explicit }
    else .unchanged (.terminating τ)
  | st => .unchanged st

/-! ### Terminating from outside

`stop` and `expire_lifetime` treat every live state alike and differ in the
flag they record. `service_failed` and `disconnect` have bodies of their
own: the first takes any initializing session for one whose initializer
runs and raises no initialization flag on a ready session, the second
leaves a committed session alone. -/

/-- The common section of `stop` and `expire_lifetime`. -/
def terminateLive (explicit : Bool) : SessionState → Outcome
  | .initializing true =>
    { state := .terminating ⟨explicit, .initializer⟩, cancelInitialization := true,
      verdict := .delegated }
  | .action a =>
    { state := .terminating ⟨explicit, .action⟩, cancelOperation := some a,
      verdict := .delegated }
  | .updating u =>
    { state := .terminating ⟨explicit, .update⟩, cancelOperation := some u,
      verdict := .delegated }
  | .initializing false | .ready _ =>
    { state := .terminating ⟨explicit, .requester⟩, cancelInitialization := true,
      verdict := .cleanup explicit }
  | st => .unchanged st

def stop : SessionState → Outcome := terminateLive true

def expireLifetime : SessionState → Outcome := terminateLive false

def serviceFailed : SessionState → Outcome
  | .initializing _ =>
    { state := .terminating ⟨false, .initializer⟩, cancelInitialization := true,
      verdict := .delegated }
  | .ready _ => { state := .terminating ⟨false, .requester⟩, verdict := .cleanup false }
  | .action a =>
    { state := .terminating ⟨false, .action⟩, cancelOperation := some a, verdict := .delegated }
  | .updating u =>
    { state := .terminating ⟨false, .update⟩, cancelOperation := some u, verdict := .delegated }
  | st => .unchanged st

def disconnect : SessionState → Outcome
  | .initializing true =>
    { state := .terminating ⟨false, .initializer⟩, cancelInitialization := true,
      verdict := .delegated }
  | .initializing false =>
    { state := .terminating ⟨false, .requester⟩, cancelInitialization := true,
      verdict := .cleanup false }
  | st => .unchanged st

def expireIdle (idle now : Nat) : SessionState → Outcome
  | .ready lastActivity =>
    if idle ≤ now - lastActivity then
      { state := .terminating ⟨false, .requester⟩, verdict := .cleanup false }
    else .unchanged (.ready lastActivity)
  | st => .unchanged st

/-! ### Actions -/

inductive ActionError
  | notFound
  | unknownAction
  | conflict
  deriving DecidableEq, Repr

/-- The state match of `start_action`: the admitted state, or the error. -/
def startAction (expired : Bool) (actionId : Nat) :
    SessionState → Except ActionError SessionState
  | .ready _ => if !expired then .ok (.action actionId) else .error .notFound
  | .terminating _ | .terminated _ => .error .notFound
  | .initializing _ | .action _ | .updating _ => .error .conflict

/-- `action_can_publish`; `cancelled` is the flag of the active action. -/
def actionCanPublish (cancelled expired : Bool) (actionId : Nat) : SessionState → Bool
  | .action active => active == actionId && !cancelled && !expired
  | _ => false

/-- `finish_action`. Once the session is terminating the section looks at
the kind of the recorded owner only, not at `actionId`. -/
def finishAction (actionId : Nat) (reusable : Bool) (now : Nat) : SessionState → Outcome
  | .action active =>
    if active = actionId && reusable then { state := .ready now, verdict := .proceed }
    else if active = actionId then
      { state := .terminating ⟨false, .action⟩, verdict := .cleanup false }
    else .unchanged (.action active)
  | .terminating τ =>
    if τ.owner = .action then { state := .terminating τ, verdict := .cleanup τ.explicit }
    else .unchanged (.terminating τ)
  | st => .unchanged st

def acknowledgeActionDelivery (cancelled expired : Bool) (actionId now : Nat) :
    SessionState → Outcome
  | .action active =>
    if active = actionId && !cancelled && !expired then
      { state := .ready now, verdict := .proceed }
    else if active = actionId then
      { state := .terminating ⟨false, .action⟩, cancelOperation := some active,
        verdict := .delegated }
    else .unchanged (.action active)
  | st => .unchanged st

def disconnectAction (actionId : Nat) : SessionState → Outcome
  | .action active =>
    if active = actionId then
      { state := .terminating ⟨false, .action⟩, cancelOperation := some active,
        verdict := .delegated }
    else .unchanged (.action active)
  | st => .unchanged st

/-! ### Source updates -/

structure SessionUpdateEvidence where
  path : String
  sha256 : String
  deriving DecidableEq, Repr

structure SessionUpdateResponse where
  sessionId : String
  updateId : Nat
  requestId : String
  baseRevision : String
  workspaceRevision : String
  changed : List SessionUpdateEvidence
  deleted : List SessionUpdateEvidence
  deriving DecidableEq, Repr

/-- `request_digest`: SHA-256 over the metadata and archive digests. -/
abbrev Digest := Vector UInt8 32

/-- What a client asks for: the parsed metadata fields that admission
reads, and the digest of everything it sent. -/
structure UpdateRequest where
  requestId : String
  digest : Digest
  baseRevision : Nat
  deriving DecidableEq, Repr

structure SuccessfulUpdate where
  requestId : String
  digest : Digest
  response : SessionUpdateResponse
  deriving DecidableEq, Repr

structure SessionUpdateData where
  revision : Nat
  lastSuccess : Option SuccessfulUpdate
  deriving DecidableEq, Repr

inductive UpdateAdmissionError
  | notFound
  | operationConflict
  | revisionConflict (currentRevision : String)
  | requestConflict
  deriving DecidableEq, Repr

inductive SessionUpdateAdmission
  | start
  | retry (response : SessionUpdateResponse)
  deriving DecidableEq, Repr

def revisionText (n : Nat) : String := "rev_" ++ toString n

/-- What `start_update` decides on a ready session from the update data it
holds locked. -/
def admitUpdate (data : SessionUpdateData) (request : UpdateRequest) :
    Except UpdateAdmissionError SessionUpdateAdmission :=
  match data.lastSuccess with
  | some last =>
    if last.requestId = request.requestId then
      if last.digest = request.digest then .ok (.retry last.response)
      else .error .requestConflict
    else if data.revision ≠ request.baseRevision then
      .error (.revisionConflict (revisionText data.revision))
    else .ok .start
  | none =>
    if data.revision ≠ request.baseRevision then
      .error (.revisionConflict (revisionText data.revision))
    else .ok .start

def startUpdate (expired : Bool) (data : SessionUpdateData) (request : UpdateRequest) :
    SessionState → Except UpdateAdmissionError SessionUpdateAdmission
  | .ready _ => if !expired then admitUpdate data request else .error .notFound
  | .terminating _ | .terminated _ => .error .notFound
  | .initializing _ | .action _ | .updating _ => .error .operationConflict

/-- The state match of `execute_update` after `apply_update` succeeded. -/
def finishUpdate (cancelled expired : Bool) (updateId now : Nat) : SessionState → Outcome
  | .updating active =>
    if active = updateId && !cancelled && !expired then
      { state := .ready now, verdict := .proceed }
    else { state := .terminating ⟨false, .update⟩, verdict := .cleanup false }
  | .terminating τ =>
    if τ.owner = .update then { state := .terminating τ, verdict := .cleanup τ.explicit }
    else .unchanged (.terminating τ)
  | st => .unchanged st

def finishUpdateError (updateId : Nat) (rollbackProven : Bool) (now : Nat) :
    SessionState → Outcome
  | .terminating τ =>
    if τ.owner = .update then { state := .terminating τ, verdict := .cleanup τ.explicit }
    else .unchanged (.terminating τ)
  | .updating active =>
    if active = updateId && !rollbackProven then
      { state := .terminating ⟨false, .update⟩, verdict := .cleanup false }
    else if active = updateId then { state := .ready now, verdict := .proceed }
    else .unchanged (.updating active)
  | st => .unchanged st

/-- `update_worker_panicked` takes whatever update is active for its own
and elects itself as a requester. -/
def updateWorkerPanicked : SessionState → Outcome
  | .updating u =>
    { state := .terminating ⟨false, .requester⟩, cancelOperation := some u,
      verdict := .cleanup false }
  | .terminating τ =>
    if τ.owner = .update then { state := .terminating τ, verdict := .cleanup τ.explicit }
    else .unchanged (.terminating τ)
  | st => .unchanged st

end IndenturedServer.Sessions
