import IndenturedServer.Client.Start

/-!
The update command of the client, and what comes before a session command.

`main` installs the control of the signal before it does anything else for a
session, and consults it while the evidence is created and the configuration is
loaded. A start and an update have the same end: the last provenance is written,
the control is asked once more, and the ID or the revision goes to the standard
output. What the checks of an update look at is in `SourceUpdates.Submit`; here
their outcome is data.
-/

namespace IndenturedServer.Client

inductive Operation
  | start
  | update
  deriving DecidableEq, Repr

section
variable (env : Environment)

/-- `finish_early_interrupted`. Only a start has no session when it begins. -/
def finishEarly (operation : Operation) (message : String) : Command Nat :=
  match operation with
  | .start => finishEarlyInterrupted env message
  | .update => do
      let _ ← error env message
      let _ ← finish env "interrupted"
      evidenceExit 130

/-! ### Before the command -/

/-- What `main` meets before it dispatches the command. -/
structure Launch where
  /-- The evidence cannot be created. -/
  noEvidence : Bool := false
  /-- The worker that loads the configuration fails. -/
  worker : Option String := none
  config : Option String := none
  enabled : Bool := true

/-- The failure is recorded while the signal is awaited. -/
def finishSessionFailureElected (operation : Operation) (message : String)
    (connectionFailure : Bool) : Command Nat := do
  let interrupted ← poll env
  let exit ← finishSessionFailure env message connectionFailure
  if interrupted then finishEarly env operation "interrupted while finalizing session failure"
  else return exit

def refuseDisabled (operation : Operation) : Command Nat := do
  leaveIf (← poll env) (finishEarly env operation "interrupted before session dispatch")
  finishSessionFailureElected env operation
    "[indentured-server] disabled (INDENTURED_SERVER_ENABLED/connection.enabled)" true

/-- `main`, for a session command. The first poll is that of `install`. -/
def sessionMain (launch : Launch) (operation : Operation) (command : Command Nat) :
    Command Nat := do
  let _ ← poll env
  let interrupted ← poll env
  leaveIf launch.noEvidence (return 1)
  leaveIf interrupted (finishEarly env operation "interrupted during session preparation")
  let interrupted ← poll env
  leaveOn launch.worker fun message =>
    finishSessionFailureElected env operation ("client configuration worker failed: " ++ message) false
  leaveIf interrupted (finishEarly env operation "interrupted while loading client configuration")
  leaveOn launch.config fun message =>
    finishSessionFailureElected env operation ("failed to load client configuration: " ++ message) false
  leaveIf (← poll env) (finishEarly env operation "interrupted after client configuration")
  leaveIf (!launch.enabled) (refuseDisabled env operation)
  command

/-! ### The update -/

/-- What the preparation of an update meets, in the order of the checks. -/
structure UpdatePreparation where
  /-- Session ID, revision, request ID and changes. -/
  arguments : List (Option String) := []
  /-- Credential and endpoint. -/
  connection : List (Option String) := []
  token : Option String := none
  package : Option String := none
  /-- The cleanup of a packaging that was interrupted. -/
  cleanup : Option String := none
  metadata : Option String := none

structure Update where
  preparation : UpdatePreparation := {}
  connection : Option Connection := none
  outcome : Except BuildError String
  /-- What is wrong with the evidence and the session ID in the response. -/
  checks : List (Option String) := []
  emission : Emission := {}

def abandonUpdatePackaging (cleanup : Option String) : Command Nat :=
  match cleanup with
  | some message => do
      let _ ← error env message
      finishEarly env .update "interrupted during update source preparation"
  | none => finishEarly env .update "interrupted during update source preparation"

def prepareUpdate (preparation : UpdatePreparation) : Command Unit := do
  leaveIf (← poll env) (finishEarly env .update "interrupted before update preparation")
  runChecks env preparation.arguments
  leaveOn (← persist env .provenance id) provenanceFailure
  runChecks env preparation.connection
  leaveOn (← persist env .provenance id) provenanceFailure
  leaveOn preparation.token fun message => finishSessionFailure env message false
  leaveIf (← poll env) (finishEarly env .update "interrupted during update preparation")
  leaveIf (← poll env) (abandonUpdatePackaging env preparation.cleanup)
  leaveOn preparation.package fun message => finishSessionFailure env message false
  leaveOn preparation.metadata fun message => finishSessionFailure env message false
  leaveOn (← setStatus env "running") provenanceFailure

/-- The last part of an update that the server has made. -/
def finishUpdate (revision : String) (emission : Emission) : Command Nat := do
  -- the write goes on while the signal is awaited
  let interrupted ← poll env
  let failure ← finish env "succeeded"
  leaveIf interrupted (finishEarly env .update "interrupted during final update provenance")
  leaveOn failure provenanceFailure
  match ← emitSessionIdControlled env revision emission with
  | .interrupted => finishEarly env .update "interrupted during revision output"
  | .completed none => evidenceExit 0
  | .completed (some err) =>
    finishSessionFailure env ("failed to emit workspace revision: " ++ err) false

def sessionUpdateCommand (update : Update) : Command Nat := do
  prepareUpdate env update.preparation
  leaveIf (← poll env) (finishEarly env .update "interrupted; update request disconnected")
  match update.outcome with
  | .error err => finishRemoteSessionError env err update.connection
  | .ok revision => do
      runChecks env update.checks
      finishUpdate env revision update.emission

end

/-- What a run of the client leaves. -/
def worldOf (run : Command Nat) : World :=
  match run {} with
  | .ok _ w => w
  | .error _ w => w

def startRun (env : Environment) (launch : Launch) (request : Request) : World :=
  worldOf (sessionMain env launch .start (sessionStartCommand env request))

def updateRun (env : Environment) (launch : Launch) (update : Update) : World :=
  worldOf (sessionMain env launch .update (sessionUpdateCommand env update))

end IndenturedServer.Client
