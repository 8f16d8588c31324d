import IndenturedServer.Sessions.System

/-!
The step function of a session: one definition for each kind of thread,
following the source from one lock section or system call to the next.

`Session.enter` installs the outcome of a section. `Session.perform` also
decides where the calling thread goes: into `cleanup_entry` when the verdict
says so, and otherwise to the program point the caller names.
-/

namespace IndenturedServer.Sessions

def Session.setThread (s : Session) (t : Nat) (th : Thread) : Session :=
  { s with threads := Function.update s.threads t th }

def Session.setStream (s : Session) (t : Nat) (st : ActionStream) : Session :=
  { s with streams := Function.update s.streams t st }

def Session.raise (s : Session) (t : Nat) : Session :=
  { s with cancellation := Function.update s.cancellation t true }

/-- Install the outcome of a section that thread `t` ran. -/
def Session.enter (s : Session) (t : Nat) (o : Outcome) : Session :=
  { s with
    state := o.state
    initializationCancellation := s.initializationCancellation || o.cancelInitialization
    cancellation := match o.cancelOperation with
      | some a => Function.update s.cancellation a true
      | none => s.cancellation
    log := { s.log with first := s.log.first.or (o.state.termination?.map (t, ·)) } }

/-- Thread `t` calls `cleanup_entry`. -/
def Session.startCleanup (s : Session) (t : Nat) (role : Role) (explicit : Bool) : Session :=
  { s with
    threads := Function.update s.threads t (.cleaning role { explicit := explicit })
    log := { s.log with cleanups := s.log.cleanups + 1 } }

def Session.perform (s : Session) (t : Nat) (o : Outcome) (role : Role)
    (next : Verdict → Thread) : Session :=
  match o.verdict with
  | .cleanup explicit => (s.enter t o).startCleanup t role explicit
  | v => (s.enter t o).setThread t (next v)

def Session.noteAccepted (s : Session) (t : Nat) : Session :=
  { s with log := { s.log with accepted := Function.update s.log.accepted t true } }

def Session.expired (s : Session) (cfg : SessionConfig) : Bool := decide (cfg.deadline ≤ s.now)

def Session.writeMetadata (s : Session) (w : WriteOutcome) (md : DurableSessionMetadata) :
    Session :=
  { s with metadata := if w.replaces then some md else s.metadata }

/-! ### Calls from outside -/

/-- A call by a thread that does not exist yet. The lookup in the registry
may have happened at any earlier time, so only its failure is a step of its
own (`stopNotFound`). -/
def callStep (cfg : SessionConfig) (s : Session) (t : Nat) : Call → Option Session
  | .beginInitialization =>
    some (s.perform t
      (beginInitialization s.initializationCancellation (s.expired cfg) s.state) .requester
      fun
        | .proceed => .initializer .initializeSession
        | _ => .returned .unit)
  | .cancelUpload =>
    some (s.perform t (cancelUpload s.state) .requester fun _ => .returned .unit)
  | .disconnect =>
    some (s.perform t (disconnect s.state) .requester fun _ => .returned .unit)
  | .serviceFailed =>
    -- the callback belongs to the monitor and the drains that `spawn_service` starts
    if s.log.spawning then
      some (s.perform t (serviceFailed s.state) .requester fun _ => .returned .unit)
    else none
  | .stop =>
    some (s.perform t (stop s.state) .stopper fun
      | .delegated => .stopWaiting
      | _ => .returned (.stop (.error .conflict)))
  | .stopNotFound =>
    if s.registered then none
    else some (s.setThread t (.returned (.stop (.error .notFound))))
  | .expireLifetime =>
    if s.expired cfg then
      some (s.perform t (expireLifetime s.state) .requester fun _ => .returned .unit)
    else none
  | .expireIdle =>
    some (s.perform t (expireIdle cfg.idleTimeout s.now s.state) .requester
      fun _ => .returned .unit)
  | .startAction name =>
    if cfg.resolvesAction name then
      match startAction (s.expired cfg) t s.state with
      | .ok st =>
        some (({ s with state := st }.setThread t (.action .run)).setStream t
          { phase := .polling })
      | .error err => some (s.setThread t (.returned (.admission err)))
    else some (s.setThread t (.returned (.admission .unknownAction)))
  | .startUpdate request =>
    if cfg.sourceUpdates then
      match startUpdate (s.expired cfg) s.updateData request s.state with
      | .ok .start =>
        some ({ s with state := .updating t }.setThread t (.update request .begin))
      | .ok (.retry response) =>
        some (s.setThread t (.returned (.updateAdmission (.ok response))))
      | .error err => some (s.setThread t (.returned (.updateAdmission (.error err))))
    else some (s.setThread t (.returned (.updateAdmission (.error .notFound))))

/-! ### The initialize worker -/

def Session.noteSpawning (s : Session) : Session :=
  { s with log := { s.log with spawning := true } }

def Session.startingMetadata (s : Session) (cfg : SessionConfig) : DurableSessionMetadata where
  version := 3
  sessionId := cfg.id
  taskId := cfg.taskId
  workspaceRevision := 0
  state := .startingServices
  services := s.services

def Session.readyMetadata (s : Session) (cfg : SessionConfig) (revision : Nat) :
    DurableSessionMetadata where
  version := cfg.metadataVersion
  sessionId := cfg.id
  taskId := cfg.taskId
  workspaceRevision := revision
  state := .ready
  services := s.services

def initStep (cfg : SessionConfig) (s : Session) (t : Nat) : InitPc → Answer → Option Session
  | .initializeSession, .initialized created succeeded =>
    some ({ s with workspace := s.workspace || created || succeeded }.setThread t
      (.initializer (if !succeeded then .cleanup
        else if cfg.services.isEmpty then .commitCheck else .recordStart)))
  | .recordStart, .wrote w =>
    let s' := s.writeMetadata w { s.startingMetadata cfg with services := [] }
    match w.error? with
    | none =>
      some (s'.noteSpawning.setThread t (.initializer (.spawnService cfg.sortedServices)))
    | some _ => some (s'.setThread t (.initializer .cleanup))
  | .spawnService [], .go => some (s.setThread t (.initializer .commitCheck))
  | .spawnService (service :: rest), answer =>
    if s.initializationCancellation || s.expired cfg then
      some (s.setThread t (.initializer .cleanup))
    else
      match answer with
      | .failed _ => some (s.setThread t (.initializer .cleanup))
      | .spawned supervisorPid servicePid servicePgid =>
        let process : DurableServiceProcess :=
          ⟨service.name, supervisorPid, servicePid, servicePgid, service.shutdownTimeoutSec⟩
        some ({ s with services := s.services ++ [process] }.setThread t
          (.initializer (.recordService rest)))
      | _ => none
  | .recordService rest, .wrote w =>
    some ((s.writeMetadata w (s.startingMetadata cfg)).setThread t
      (.initializer (if w.error?.isNone then .waitReady rest else .cleanup)))
  | .waitReady rest, .go => some (s.setThread t (.initializer (.spawnService rest)))
  | .waitReady _, .failed _ => some (s.setThread t (.initializer .cleanup))
  | .commitCheck, .go =>
    some (s.perform t (commitCheck s.initializationCancellation (s.expired cfg) s.state)
      .initializer fun
        | .proceed => .initializer .commitMetadata
        | _ => .initializer .cleanup)
  | .commitMetadata, .wrote w =>
    some ((s.writeMetadata w (s.readyMetadata cfg 0)).setThread t
      (.initializer (if w.error?.isNone then .commitElection else .commitFailed)))
  | .commitFailed, .go =>
    some (s.perform t (commitFailed s.state) .initializer fun _ => .initializer .cleanup)
  | .commitElection, .go =>
    some (s.perform t
      (commitElection s.initializationCancellation (s.expired cfg) s.now s.state)
      .initializer fun
        | .proceed => .returned .unit
        | _ => .initializer .dropMetadata)
  | .dropMetadata, .removed succeeded =>
    some ({ s with metadata := if succeeded then none else s.metadata }.setThread t
      (.initializer .cleanup))
  | .cleanup, .go =>
    some (s.perform t (initializerCleanup false s.state) .initializer
      fun _ => .returned .unit)
  | _, _ => none

/-! ### The action worker and its response stream -/

def actionStep (cfg : SessionConfig) (s : Session) (t : Nat) : ActionPc → Answer → Option Session
  | .run, .go => some (s.setThread t (.action .snapshot))
  | .run, .failed _ => some (s.setThread t (.action .finish))
  | .snapshot, .failed _ => some (s.setThread t (.action .finish))
  | .snapshot, .collected archive _ =>
    some ({ s with
      archives := Function.update s.archives t archive.isSome
      log := { s.log with
        published := Function.update s.log.published t archive.isSome } }.setThread t
          (.action .canPublish))
  | .snapshot, .collectFailed directoryLeft =>
    some ({ s with archives := Function.update s.archives t directoryLeft }.setThread t
      (.action .discard))
  | .canPublish, .go =>
    some (s.setThread t (.action
      (if actionCanPublish (s.cancellation t) (s.expired cfg) t s.state then .deliver
      else .discard)))
  | .deliver, .go => some (s.setThread t (.action (.enqueueCheck (s.now + 2000))))
  | .enqueueCheck dl, .go =>
    some (s.setThread t (.action
      (if s.cancellation t || !actionCanPublish (s.cancellation t) (s.expired cfg) t s.state then
        .discard
      else .enqueueSend dl)))
  | .enqueueSend dl, answer =>
    if (s.streams t).closed then some (s.setThread t (.action .discard))
    else
      match answer with
      | .go =>
        some ((s.setThread t (.action .enqueued)).setStream t
          { s.streams t with queued := true })
      | .channelFull => some (s.setThread t (.action (.enqueueFull dl)))
      | _ => none
  | .enqueueFull dl, .go =>
    some (s.setThread t (.action (if dl ≤ s.now then .discard else .enqueueCheck dl)))
  | .enqueued, .go => some (s.setThread t (.action (.ackCancel (s.now + 5000))))
  | .ackCancel dl, .go =>
    some (s.setThread t (.action (if s.cancellation t then .discard else .ackPoll dl)))
  | .ackPoll dl, .go =>
    match (s.streams t).ack with
    | some true => some (s.setThread t (.returned (.action true)))
    | some false => some (s.setThread t (.action .discard))
    | none =>
      some (s.setThread t (.action
        (if (s.streams t).closed then .discard else .ackDeadline dl)))
  | .ackDeadline dl, .go =>
    some (s.setThread t (.action (if dl ≤ s.now then .discard else .ackCancel dl)))
  | .discard, .removed succeeded =>
    some ({ s with
      archives := Function.update s.archives t (s.archives t && !succeeded) }.setThread t
        (.action .finish))
  | .finish, .go =>
    some (s.perform t (finishAction t false s.now s.state) .action
      fun _ => .returned (.action false))
  | _, _ => none

def streamStep (cfg : SessionConfig) (s : Session) (t : Nat) : StreamOp → Option Session
  | .receiveFinal =>
    if (s.streams t).phase = .polling ∧ (s.streams t).queued = true then
      some (s.setStream t { s.streams t with phase := .holding, queued := false })
    else none
  | .acknowledge =>
    if (s.streams t).phase = .holding then
      let o := acknowledgeActionDelivery (s.cancellation t) (s.expired cfg) t s.now s.state
      let s' := (s.enter t o).setStream t
        { s.streams t with phase := .answered (o.verdict == .proceed) }
      some (if o.verdict = .proceed then s'.noteAccepted t else s')
    else none
  | .sendAck =>
    match (s.streams t).phase with
    | .answered accepted =>
      some (s.setStream t { s.streams t with phase := .settled, ack := some accepted })
    | _ => none
  | .drop =>
    match (s.streams t).phase with
    | .polling | .holding | .settled =>
      some ((s.enter t (disconnectAction t s.state)).setStream t
        { s.streams t with phase := .dropping })
    | _ => none
  | .close =>
    if (s.streams t).phase = .dropping then
      some (s.setStream t { s.streams t with phase := .dropped, queued := false, closed := true })
    else none

/-! ### The update worker -/

/-- `u64::checked_add`. -/
def nextRevision (base : Nat) : Option Nat := if base + 1 < 2 ^ 64 then some (base + 1) else none

def updateResponse (cfg : SessionConfig) (t : Nat) (request : UpdateRequest)
    (changed deleted : List SessionUpdateEvidence) : SessionUpdateResponse where
  sessionId := cfg.id
  updateId := t
  requestId := request.requestId
  baseRevision := revisionText request.baseRevision
  workspaceRevision := revisionText (request.baseRevision + 1)
  changed := changed
  deleted := deleted

def Session.noteRewrite (s : Session) (t : Nat) (w : WriteOutcome) : Session :=
  { s with log := { s.log with
    rewrote := Function.update s.log.rewrote t (s.log.rewrote t || w.replaces) } }

def Session.noteApplied (s : Session) (request : UpdateRequest) : Session :=
  let update : AppliedUpdate := ⟨request.requestId, request.digest, request.baseRevision⟩
  { s with log := { s.log with applied := s.log.applied ++ [update] } }

/-- The successful branch of `execute_update` under the state lock. -/
def Session.succeedUpdate (s : Session) (cfg : SessionConfig) (t : Nat) (request : UpdateRequest)
    (changed deleted : List SessionUpdateEvidence) : Session :=
  let success : SuccessfulUpdate :=
    ⟨request.requestId, request.digest, updateResponse cfg t request changed deleted⟩
  { s with
    updateData := ⟨request.baseRevision + 1, some success⟩
    log := { s.log with successes := s.log.successes ++ [success] } }

/-- The error that `execute_update` returns after it cleaned up: the
session ended under the update, or an earlier termination was joined. -/
def cancelledUpdate : SessionState → SourceUpdateError
  | .updating _ => ⟨.cancelled, "update exceeded session lifetime", true⟩
  | _ => ⟨.cancelled, "update cancelled", true⟩

/-- The end of `apply_update_inner_controlled` on a failed mutation. -/
def SourceUpdateError.afterRollback (err : SourceUpdateError) : Option String → SourceUpdateError
  | none => err
  | some detail => ⟨err.kind, err.message ++ "; rollback failed: " ++ detail, false⟩

def updateStep (cfg : SessionConfig) (s : Session) (t : Nat) (request : UpdateRequest) :
    UpdatePc → Answer → Option Session
  | .begin, answer =>
    match nextRevision request.baseRevision, answer with
    | none, _ =>
      some (s.setThread t (.update request
        (.failed ⟨.internal, "workspace revision overflow", false⟩)))
    | some _, .failed message =>
      some (s.setThread t (.update request (.failed ⟨.internal, message, false⟩)))
    | some revision, .go =>
      some (s.setThread t (.update request (.apply (s.readyMetadata cfg revision))))
    | _, _ => none
  | .apply md, .mutated changed deleted =>
    -- the last test before the commit: a cancelled update takes the error branch
    if s.cancellation t then none
    else some (s.setThread t (.update request (.commit md changed deleted)))
  | .apply _, .applyFailed kind message mutating =>
    if kind = .cancelled ∧ s.cancellation t = false then none
    else
      let err : SourceUpdateError := ⟨kind, message, true⟩
      some (s.setThread t (.update request (if mutating then .rollback err else .failed err)))
  | .commit md changed deleted, .wrote w =>
    let s' := (s.writeMetadata w md).noteRewrite t w
    match w.error? with
    | none =>
      some ((s'.noteApplied request).setThread t (.update request (.applied changed deleted)))
    | some err =>
      some (s'.setThread t (.update request
        (.rollback ⟨.internal, "failed to commit workspace revision: " ++ err, false⟩)))
  | .rollback err, .rolledBack failure =>
    some (s.setThread t (.update request (.failed (err.afterRollback failure))))
  | .applied changed deleted, .go =>
    let o := finishUpdate (s.cancellation t) (s.expired cfg) t s.now s.state
    let s' := s.perform t o (.update request (cancelledUpdate s.state)) fun
      | .proceed => .update request (.returning (.ok (updateResponse cfg t request changed deleted)))
      | _ => .returned (.update (.error ⟨.internal, "update lost session ownership", false⟩))
    some (if o.verdict = .proceed then s'.succeedUpdate cfg t request changed deleted else s')
  | .failed err, .go =>
    some (s.perform t (finishUpdateError t err.rollbackProven s.now s.state)
      (.update request err) fun
        | .proceed => .update request (.returning (.error err))
        | _ => .returned (.update (.error err)))
  | .returning result, .go => some (s.setThread t (.returned (.update result)))
  | .panicked late, .go =>
    if s.registered then some (s.setThread t (.update request (.panicLookedUp late)))
    else some (s.setThread t (.returned (.update (.error workerPanicked))))
  | .panicLookedUp _, .go =>
    let o := updateWorkerPanicked s.state
    some (s.perform t o (.panicHandler (match o.state with
        | .terminating τ => τ.owner
        | _ => .update))
      fun _ => .returned (.update (.error workerPanicked)))
  | _, _ => none

/-! ### `cleanup_entry` -/

def Role.result : Role → SessionStopResponse → Result
  | .initializer, _ => .unit
  | .action, _ => .action false
  | .update _ err, _ => .update (.error err)
  | .panicHandler _, _ => .update (.error workerPanicked)
  | .requester, _ => .unit
  | .stopper, response => .stop (.ok response)

def SessionTeardownResult.orError (r : SessionTeardownResult) (code : String) :
    SessionTeardownResult :=
  if r.errorCode.isNone then { r with errorCode := some code } else r

def cleanupStep (cfg : SessionConfig) (s : Session) (t : Nat) (role : Role) (call : CleanupCall)
    (answer : Answer) : Option Session :=
  match call.stage, answer with
  | .takeServices, .go =>
    some ({ s with services := [] }.setThread t
      (.cleaning role { call with stage := .stopServices s.services.reverse }))
  | .stopServices [], .go =>
    some (s.setThread t (.cleaning role { call with stage := .teardown }))
  | .stopServices (_ :: rest), .stopped .ok =>
    some (s.setThread t (.cleaning role { call with stage := .stopServices rest }))
  | .stopServices (service :: rest), .stopped (.failed unproven) =>
    some ({ s with log := { s.log with
        unproven := if unproven then s.log.unproven ++ [service] else s.log.unproven } }.setThread t
      (.cleaning role { call with
        stage := .stopServices rest
        serviceCleanupFailed := true
        identityCleanupUnproven := call.identityCleanupUnproven || unproven }))
  | .teardown, answer =>
    let finished (r : SessionTeardownResult) : Session :=
      s.setThread t (.cleaning role { call with
        stage := .collectArtifacts
        teardown := if call.serviceCleanupFailed then r.orError "service_cleanup_failed" else r })
    if s.workspace then
      match answer with
      | .tornDown r => some (finished r)
      | _ => none
    else some (finished ⟨0, none, false, some "workspace_missing"⟩)
  | .collectArtifacts, answer =>
    if call.explicit && s.workspace then
      match answer with
      | .collected archive restrictions =>
        some ({ s with log := { s.log with
            finalArchives := s.log.finalArchives ++ archive.toList } }.setThread t
          (.cleaning role { call with
            stage := .removeWorkspace
            artifacts := archive
            artifactRestrictions := restrictions }))
      | .collectFailed _ =>
        some (s.setThread t (.cleaning role { call with
          stage := .removeWorkspace
          teardown := call.teardown.orError "artifact_collection_failed" }))
      | _ => none
    else some (s.setThread t (.cleaning role { call with stage := .removeWorkspace }))
  | .removeWorkspace, .removed succeeded =>
    some ({ s with workspace := s.workspace && !succeeded }.setThread t
      (.cleaning role { call with stage := .removeMetadata }))
  | .removeMetadata, answer =>
    if call.identityCleanupUnproven then
      some (s.setThread t (.cleaning role { call with stage := .unregister }))
    else
      match answer with
      | .removed succeeded =>
        some ({ s with metadata := if succeeded then none else s.metadata }.setThread t
          (.cleaning role { call with stage := .unregister }))
      | _ => none
  | .unregister, .go =>
    some ({ s with registered := false }.setThread t
      (.cleaning role { call with stage := .releasePermit }))
  | .releasePermit, .go =>
    some ({ s with permit := false }.setThread t
      (.cleaning role { call with stage := .publish }))
  | .publish, .go =>
    let response : SessionStopResponse :=
      ⟨cfg.id, call.teardown, call.artifacts, call.artifactRestrictions⟩
    some ({ s with state := .terminated response }.setThread t
      (.returned (role.result response)))
  | _, _ => none

/-! ### The step function -/

/-- Where a panic can leave an update worker: anywhere in `execute_update`
between two sections, including the fallible part of its own cleanup. The
last three stages of a cleanup only take locks. -/
def Thread.panicPoint : Thread → Option (UpdateRequest × Bool)
  | .update request .begin | .update request (.apply _) | .update request (.commit _ _ _)
  | .update request (.rollback _) | .update request (.applied _ _)
  | .update request (.failed _) => some (request, false)
  | .update request (.returning _) => some (request, true)
  | .cleaning (.update request _) call =>
    match call.stage with
    | .unregister | .releasePermit | .publish => none
    | _ => some (request, false)
  | _ => none

def runStep (cfg : SessionConfig) (s : Session) (t : Nat) (answer : Answer) : Option Session :=
  match s.threads t with
  | .initializer pc => initStep cfg s t pc answer
  | .action pc => actionStep cfg s t pc answer
  | .update request pc => updateStep cfg s t request pc answer
  | .cleaning role call => cleanupStep cfg s t role call answer
  | .stopWaiting =>
    match s.state with
    | .terminated response => some (s.setThread t (.returned (.stop (.ok response))))
    | _ => none
  | .absent | .returned _ => none

def step (cfg : SessionConfig) (s : Session) : Event → Option Session
  | .tick elapsed => some { s with now := s.now + elapsed }
  | .call t op => if s.threads t = .absent then callStep cfg s t op else none
  | .run t answer => runStep cfg s t answer
  | .stream t op => streamStep cfg s t op
  | .panic t =>
    match (s.threads t).panicPoint with
    | some (request, late) => some (s.setThread t (.update request (.panicked late)))
    | none => none
  | .cancelInitialization =>
    if s.state = .initializing false then none
    else some { s with initializationCancellation := true }
  | .cancelAction t =>
    if (s.streams t).phase = .absent then none else some (s.raise t)

/-! ### A sample session

A session without services that allows source updates, and the runs that
bring it to ready and take an action up to the wait for its acknowledgement.
-/

def sampleConfig : SessionConfig where
  id := "ses_0"
  taskId := "task"
  deadline := 100000
  idleTimeout := 60000
  services := []
  sourceUpdates := true
  resolvesAction _ := true

def readyRun : List Event :=
  [.call 0 .beginInitialization, .run 0 (.initialized true true), .run 0 .go,
    .run 0 (.wrote .ok), .run 0 .go]

/-- Action `t` runs, collects `archive`, sends its final event and polls for
the acknowledgement once. -/
def deliveryRun (t : Nat) (archive : Option ArtifactArchive) : List Event :=
  [.call t (.startAction "build"), .run t .go, .run t (.collected archive none), .run t .go,
    .run t .go, .run t .go, .run t .go, .run t .go, .run t .go, .run t .go]

end IndenturedServer.Sessions
