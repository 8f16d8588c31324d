import IndenturedServer.Foundation.ProcessGroups
import IndenturedServer.Phases.Task

/-!
The process groups of a task.

Each phase starts a process as the first member of a new group. `run_phase`
waits for the process, ends the rest of its group and returns well only after
a query has found the group gone; a group that outlives `SIGKILL` is an error.
`run_task_phases` and `run_build_in_workspace` go from one phase to the next,
and from the last phase to the artifacts, only when `run_phase` has returned
well.

`Phases.Output` follows the output of one phase and takes the end of the group
as one step of the system; here are the calls that the step stands for. The
history of a run records when a process is started, when a phase has finished
and when the collection of artifacts starts, and whether a group of an earlier
phase had a member at that moment; `Phases.Order` is about it.
-/

namespace IndenturedServer.Phases

open Foundation Sessions Host

def timeoutKillGrace : Nat := 5000

def asStr : BuildPhase → String
  | .setup => "setup"
  | .run => "run"

inductive TaskEvent
  | spawned (phase : BuildPhase) (overlap : Bool)
  | finished (result : PhaseResult)
  | collecting (overlap : Bool)
  deriving DecidableEq, Repr

abbrev TaskWorld := Processes (List TaskEvent)

/-- A group that was started has a member. -/
def overlaps (w : TaskWorld) : Bool :=
  (List.range w.next).any fun group => w.members group ≠ 0

/-- What can fail between the start of a process and its output threads. -/
inductive IoSetupFault
  | stdout
  | stderr
  | stdin
  | nonblocking (err : String)
  deriving DecidableEq, Repr

def IoSetupFault.ofStdin : IoSetupFault → Bool
  | .stdout | .stderr => false
  | .stdin | .nonblocking _ => true

def IoSetupFault.error (phase : BuildPhase) : IoSetupFault → BuildError
  | .stdout => ⟨"io", "failed to capture stdout from task", some phase, []⟩
  | .stderr => ⟨"io", "failed to capture stderr from task", some phase, []⟩
  | .stdin => ⟨"io", "failed to open task stdin", some phase, []⟩
  | .nonblocking err =>
    ⟨"stdin_write_failed", s!"failed to make task stdin nonblocking: {err}", some phase, []⟩

/-- The surroundings of a task, each answer by the number of the call. -/
structure TaskHost extends Host (List TaskEvent) where
  cancelled : Nat → Bool
  trySend : Nat → Except TrySendError Unit
  resolveCwd : Nat → Option BuildError
  configureCommand : Nat → Option BuildError
  ioSetup : Nat → Option IoSetupFault
  finishStdin : Nat → Option String
  outputExceeded : Nat → Bool

structure TaskPhasesOutcome where
  phases : List PhaseResult
  exitCode : Int
  timedOut : Bool
  failedPhase : Option BuildPhase
  deriving DecidableEq, Repr

namespace TaskHost

variable (h : TaskHost)

/-! ### The end of a group -/

def remainingTurn (group start : Nat) (_ : Unit) :
    EStateM (Halted String) TaskWorld (Bool ⊕ Unit) := do
  let now ← h.now
  if now - start < timeoutKillGrace then
    if ← h.groupExists group then pure (.inr ()) else pure (.inl true)
  else pure (.inl false)

/-- A signal, and whether the group is found gone within the grace. -/
def signalAndWait (group : Nat) : EStateM (Halted String) TaskWorld Bool := do
  h.signalGroup group
  let start ← h.now
  h.poll 25 (h.remainingTurn group start) (Host.turnsWithin timeoutKillGrace 25) ()

def survived {α : Type} : EStateM (Halted String) TaskWorld α :=
  throw (.failed "process group survived SIGKILL")

def terminateRemainingGroup (group : Nat) : EStateM (Halted String) TaskWorld Unit := do
  if ← h.groupExists group then
    if ← h.signalAndWait group then pure ()
    else if ← h.signalAndWait group then pure () else survived
  else pure ()

def tryWaitOnce (group : Nat) : Option Int → EStateM (Halted String) TaskWorld (Option Int)
  | some code => pure (some code)
  | none => h.tryWait group

def groupAndExitTurn (group start : Nat) (code : Option Int) :
    EStateM (Halted String) TaskWorld ((Option Int × Bool) ⊕ Option Int) := do
  let code ← h.tryWaitOnce group code
  if ← h.groupExists group then
    let now ← h.now
    if timeoutKillGrace ≤ now - start then pure (.inl (code, false)) else pure (.inr code)
  else pure (.inl (code, true))

def waitForGroupAndExit (group : Nat) :
    EStateM (Halted String) TaskWorld (Option Int × Bool) := do
  let start ← h.now
  h.poll 25 (h.groupAndExitTurn group start) (Host.turnsWithin timeoutKillGrace 25) none

/-- What `terminate_process` returns once the group is gone. -/
def exitCode (group : Nat) (code : Option Int) : EStateM (Halted String) TaskWorld Int := do
  let code ← h.tryWaitOnce group code
  pure (code.getD timeoutExitCode)

/-- A signal that fails is only logged. -/
def terminateProcess (group : Nat) : EStateM (Halted String) TaskWorld Int := do
  let _ ← outcome (h.signalGroup group)
  let first ← h.waitForGroupAndExit group
  if first.2 then h.exitCode group first.1
  else do
    let _ ← outcome (h.signalGroup group)
    let second ← h.waitForGroupAndExit group
    if second.2 then h.exitCode group (first.1.or second.1) else survived

/-- One turn of `wait_with_timeout`; no outcome when the time is up. -/
def waitTurn (timeout group start : Nat) (_ : Unit) :
    EStateM (Halted String) TaskWorld (Option WaitOutcome ⊕ Unit) := do
  match ← h.tryWait group with
  | some code => do
      let now ← h.now
      h.terminateRemainingGroup group
      pure (.inl (some (.exited code false (now - start))))
  | none => do
      if ← h.observe (fun w => h.cancelled w.clock) then
        let _ ← h.terminateProcess group
        pure (.inl (some .cancelled))
      else
        let now ← h.now
        if timeout ≤ now - start then pure (.inl none) else pure (.inr ())

def waitWithTimeout (timeout group : Nat) : EStateM (Halted String) TaskWorld WaitOutcome := do
  let start ← h.now
  match ← h.poll 100 (h.waitTurn timeout group start) (Host.turnsWithin timeout 100) () with
  | some outcome => pure outcome
  | none => do
      let now ← h.now
      let code ← h.terminateProcess group
      pure (.exited code true (now - start))

/-! ### A phase -/

def fail {α : Type} (cfg : PhaseConfig) (code message : String) :
    EStateM (Halted BuildError) TaskWorld α :=
  throw (.failed ⟨code, message, some cfg.phase, []⟩)

def stopIf (error : Nat → Option BuildError) : EStateM (Halted BuildError) TaskWorld Unit := do
  match ← h.observe (fun w => error w.clock) with
  | some err => throw (.failed err)
  | none => pure ()

/-- One turn of `send_response`: whether the event was sent. -/
def sendTurn (deadline : Nat) (_ : Unit) :
    EStateM (Halted BuildError) TaskWorld (Bool ⊕ Unit) := do
  match ← h.observe (fun w => h.trySend w.clock) with
  | .ok () => pure (.inl true)
  | .error .closed => pure (.inl false)
  | .error .full => do
      let now ← h.now
      if deadline ≤ now then pure (.inl false) else pure (.inr ())

def sendResponse (cfg : PhaseConfig) : EStateM (Halted BuildError) TaskWorld Unit := do
  let start ← h.now
  if ← h.poll 10 (h.sendTurn (start + outputForwardGrace))
      (Host.turnsWithin outputForwardGrace 10) () then pure ()
  else fail cfg "stream_closed" "client disconnected"

def inPhase (cfg : PhaseConfig) (code : String) (text : String → String) :
    Halted String → Halted BuildError :=
  Halted.map fun err => ⟨code, text err, some cfg.phase, []⟩

def spawnCommand (cfg : PhaseConfig) : EStateM (Halted BuildError) TaskWorld Nat :=
  EStateM.adaptExcept
    (inPhase cfg "spawn_failed" fun err => s!"failed to spawn {asStr cfg.phase} phase: {err}")
    (h.spawn fun w => w.own ++ [.spawned cfg.phase (overlaps w)])

/-- The process is ended when its pipes are not usable. -/
def abandon (group : Nat) (err : BuildError) : EStateM (Halted BuildError) TaskWorld Unit := do
  match ← outcome (h.terminateProcess group) with
  | .ok _ => throw (.failed err)
  | .error (.failed cleanup) =>
    throw (.failed { err with message := s!"{err.message}; process cleanup failed: {cleanup}" })
  | .error .unfinished => throw .unfinished

def setUpIo (cfg : PhaseConfig) (stdin : Bool) (group : Nat) :
    EStateM (Halted BuildError) TaskWorld Unit := do
  match ← h.observe (fun w => (h.ioSetup w.clock).filter fun fault => stdin || !fault.ofStdin) with
  | some fault => h.abandon group (fault.error cfg.phase)
  | none => pure ()

def finishStdinWriter (cfg : PhaseConfig) (stdin : Bool) :
    EStateM (Halted BuildError) TaskWorld Unit :=
  h.stopIf fun clock => ((h.finishStdin clock).filter fun _ => stdin).map fun err =>
    ⟨"stdin_write_failed", s!"failed to write task stdin: {err}", some cfg.phase, []⟩

def checkOutput (cfg : PhaseConfig) : EStateM (Halted BuildError) TaskWorld Unit :=
  h.stopIf fun clock =>
    if h.outputExceeded clock then
      some ⟨"output_limit",
        s!"task output exceeds build.max_output_bytes ({cfg.maxOutputBytes} bytes)",
        some cfg.phase, []⟩
    else none

def conclude (cfg : PhaseConfig) : WaitOutcome → EStateM (Halted BuildError) TaskWorld PhaseResult
  | .cancelled => fail cfg "stream_closed" "client disconnected"
  | .exited code timedOut duration => do
      let result : PhaseResult := ⟨cfg.phase, min duration (2 ^ 64 - 1), code, timedOut⟩
      h.sendResponse cfg
      modify fun w => { w with own := w.own ++ [.finished result] }
      pure result

/-- What `run_phase` does with the process that it has started. -/
def attend (cfg : PhaseConfig) (stdin : Bool) (group : Nat) :
    EStateM (Halted BuildError) TaskWorld PhaseResult := do
  h.setUpIo cfg stdin group
  let outcome ← EStateM.adaptExcept (inPhase cfg "wait_failed" id) (h.waitWithTimeout cfg.timeout group)
  -- the output threads are joined here, each for a bounded time
  h.finishStdinWriter cfg stdin
  h.checkOutput cfg
  h.conclude cfg outcome

def runPhase (cfg : PhaseConfig) (stdin : Bool) :
    EStateM (Halted BuildError) TaskWorld PhaseResult := do
  if ← h.observe (fun w => h.cancelled w.clock) then
    fail cfg "stream_closed" "client disconnected"
  else
    h.sendResponse cfg
    h.stopIf fun clock => (h.configureCommand clock).map fun err =>
      { err with phase := some cfg.phase }
    let group ← h.spawnCommand cfg
    h.attend cfg stdin group

/-! ### The phases of a task -/

def failed (result : PhaseResult) : Bool :=
  result.exitCode ≠ 0 || result.timedOut

def runCommand (cfg : TaskConfig) (phases : List PhaseResult) :
    EStateM (Halted BuildError) TaskWorld TaskPhasesOutcome := do
  let result ← EStateM.adaptExcept (Halted.map fun err => { err with phases := phases })
    (h.runPhase (cfg.phase .run) false)
  pure ⟨phases ++ [result], result.exitCode, result.timedOut,
    if failed result then some .run else none⟩

def runTaskPhases (cfg : TaskConfig) :
    EStateM (Halted BuildError) TaskWorld TaskPhasesOutcome := do
  h.stopIf h.resolveCwd
  match cfg.setupTimeout with
  | none => h.runCommand cfg []
  | some _ => do
      let result ← h.runPhase (cfg.phase .setup) false
      if failed result then
        pure ⟨[result], result.exitCode, result.timedOut, some .setup⟩
      else h.runCommand cfg [result]

/-- `finish_build` up to the start of `collect_artifacts_zip`, its first call. -/
def finishBuild (_outcome : TaskPhasesOutcome) : EStateM (Halted BuildError) TaskWorld Unit :=
  modify fun w => { w with own := w.own ++ [.collecting (overlaps w)] }

def runBuildInWorkspace (cfg : TaskConfig) : EStateM (Halted BuildError) TaskWorld Unit := do
  let outcome ← h.runTaskPhases cfg
  finishBuild outcome

/-! ### A group is found gone -/

variable {ε α : Type} {Q : α → TaskWorld → Prop} {w : TaskWorld}

section Termination

open Host (Fails Turns)

variable {h} {w₀ : TaskWorld} {group : Nat}

def FoundGone (w₀ : TaskWorld) (group : Nat) (w : TaskWorld) : Prop :=
  Later w₀ w ∧ group ∈ w.found

variable {E : ε → TaskWorld → Prop}

theorem now_triple : Triple (Later w₀) h.now (fun now w => Later w₀ w ∧ now = w.time) E :=
  observe_triple

theorem start_triple : Triple (Later w₀) h.now (fun start w => Later w₀ w ∧ start ≤ w.time) E :=
  now_triple.onReturn fun _ _ hw => ⟨hw.1, le_of_eq hw.2⟩

theorem remainingTurn_turns {start : Nat} (hold : group < w₀.next) :
    Turns w₀ (start + timeoutKillGrace) (h.remainingTurn group start)
      fun gone w => Later w₀ w ∧ (gone = true → group ∈ w.found) := by
  intro _ w hw
  have hgroup : group < w.next := hw.next ▸ hold
  refine now_triple.bind fun now => Triple.ite (fun hbefore => ?_) fun _ => ?_
  · -- the time that was read is not before the time at the start of the turn
    have hearly : Triple (fun w' => Later w w' ∧ now = w'.time) (h.groupExists group)
        (fun answer w' => (Later w w' ∧ (answer = false → group ∈ w'.found)) ∧
          w.time < start + timeoutKillGrace) (Fails w) := by
      intro w' hw'
      have htime : w.time < start + timeoutKillGrace := by
        have hle := hw'.1.time
        omega
      exact (groupExists_triple hgroup w' hw'.1).mono (fun _ _ hs => ⟨hs, htime⟩) fun _ _ he => he
    refine hearly.bind fun answer => Triple.ite (fun _ => ?_) fun hgone => ?_
    · exact Triple.pure fun w' hw' => ⟨hw'.1.1, hw'.2⟩
    · exact Triple.pure fun w' hw' =>
        ⟨hw.trans hw'.1.1, fun _ => hw'.1.2 (eq_false_of_ne_true hgone)⟩
  · exact Triple.pure fun w' hw' => ⟨hw.trans hw'.1, nofun⟩

theorem signalAndWait_triple (hold : group < w₀.next) : Triple (Later w₀) (h.signalAndWait group)
      (fun gone w => Later w₀ w ∧ (gone = true → group ∈ w.found)) (Fails w₀) := by
  refine signalGroup_triple.bind fun _ => start_triple.bind fun start => ?_
  exact poll_triple (by decide) (remainingTurn_turns hold) ()

theorem survived_triple : Triple (Later w₀) survived Q (Fails w₀) :=
  Triple.throw fun _ hw => ⟨hw, nofun⟩

theorem terminateRemainingGroup_triple (hold : group < w₀.next) :
    Triple (Later w₀) (h.terminateRemainingGroup group) (fun _ => FoundGone w₀ group)
      (Fails w₀) := by
  refine (groupExists_triple hold).bind fun answer =>
    Triple.ite (fun _ => ?_) fun hgone => ?_
  · have hwait {x : EStateM (Halted String) TaskWorld Unit}
        (hx : Triple (Later w₀) x (fun _ => FoundGone w₀ group) (Fails w₀)) :
        Triple (Later w₀) (h.signalAndWait group >>= fun gone => if gone then pure () else x)
          (fun _ => FoundGone w₀ group) (Fails w₀) := by
      refine (signalAndWait_triple hold).bind fun gone => Triple.ite (fun hgone => ?_) fun _ => ?_
      · exact Triple.pure fun w hw => ⟨hw.1, hw.2 hgone⟩
      · exact hx.onEntry fun _ hw => hw.1
    exact (hwait (hwait survived_triple)).onEntry fun _ hw => hw.1
  · exact Triple.pure fun w hw => ⟨hw.1, hw.2 (eq_false_of_ne_true hgone)⟩

variable {code : Option Int}

theorem tryWaitOnce_triple :
    Triple (Later w₀) (h.tryWaitOnce group code) (fun _ => Later w₀) (Fails w₀) := by
  cases code with
  | some code => exact Triple.pure fun _ hw => hw
  | none => exact tryWait_triple

theorem groupAndExitTurn_turns {start : Nat} (hold : group < w₀.next) :
    Turns w₀ (start + timeoutKillGrace) (h.groupAndExitTurn group start)
      fun r w => Later w₀ w ∧ (r.2 = true → group ∈ w.found) := by
  intro code w hw
  have hgroup : group < w.next := hw.next ▸ hold
  refine tryWaitOnce_triple.bind fun code => (groupExists_triple hgroup).bind fun answer =>
    Triple.ite (fun _ => ?_) fun hgone => ?_
  · have hnow : Triple (fun w' => Later w w' ∧ (answer = false → group ∈ w'.found)) h.now
        (fun now w' => Later w w' ∧ now = w'.time) (Fails (ε := String) w) :=
      now_triple.onEntry fun _ hs => hs.1
    refine hnow.bind fun now => Triple.ite (fun _ => ?_) fun hbefore => ?_
    · exact Triple.pure fun w' hw' => ⟨hw.trans hw'.1, nofun⟩
    · refine Triple.pure fun w' hw' => ⟨hw'.1, ?_⟩
      have hle := hw'.1.time
      omega
  · exact Triple.pure fun w' hw' =>
      ⟨hw.trans hw'.1, fun _ => hw'.2 (eq_false_of_ne_true hgone)⟩

theorem waitForGroupAndExit_triple (hold : group < w₀.next) :
    Triple (Later w₀) (h.waitForGroupAndExit group)
      (fun r w => Later w₀ w ∧ (r.2 = true → group ∈ w.found)) (Fails w₀) := by
  refine start_triple.bind fun start => ?_
  exact poll_triple (by decide) (groupAndExitTurn_turns hold) none

theorem FoundGone.later {w' : TaskWorld} (hgone : FoundGone w₀ group w) (hlater : Later w w') :
    FoundGone w₀ group w' :=
  ⟨hgone.1.trans hlater, hlater.found group hgone.2⟩

theorem exitCode_triple :
    Triple (FoundGone w₀ group) (h.exitCode group code) (fun _ => FoundGone w₀ group)
      (Fails w₀) := by
  intro w hw
  have hcode : Triple (Later w) (h.exitCode group code) (fun _ => Later w) (Fails w) :=
    tryWaitOnce_triple.bind fun _ => Triple.pure fun _ hs => hs
  exact (hcode w (Later.refl w)).mono (fun _ _ hs => hw.later hs) fun _ _ he => he.trans hw.1

theorem signalIgnored_triple :
    Triple (Later w₀) (outcome (h.signalGroup group)) (fun _ => Later w₀) E :=
  Triple.outcome_of_either (signalGroup_triple.onError fun _ _ he => he.1)

section
variable (hold : group < w₀.next)
include hold

theorem terminateProcess_triple :
    Triple (Later w₀) (h.terminateProcess group) (fun _ => FoundGone w₀ group) (Fails w₀) := by
  have hround {x : Option Int × Bool → EStateM (Halted String) TaskWorld Int}
      (code : Option Int × Bool → Option Int)
      (hx : ∀ r, Triple (Later w₀) (x r) (fun _ => FoundGone w₀ group) (Fails w₀)) :
      Triple (Later w₀)
        (outcome (h.signalGroup group) >>= fun _ => h.waitForGroupAndExit group >>= fun r =>
          if r.2 then h.exitCode group (code r) else x r)
        (fun _ => FoundGone w₀ group) (Fails w₀) := by
    refine signalIgnored_triple.bind fun _ => (waitForGroupAndExit_triple hold).bind fun r =>
      Triple.ite (fun hgone => ?_) fun _ => ?_
    · exact exitCode_triple.onEntry fun _ hw => ⟨hw.1, hw.2 hgone⟩
    · exact (hx r).onEntry fun _ hw => hw.1
  exact hround (·.1) fun first => hround (first.1.or ·.1) fun _ => survived_triple

variable {timeout : Nat}

theorem waitTurn_turns {start : Nat} :
    Turns w₀ (start + timeout) (h.waitTurn timeout group start)
      fun r w => Later w₀ w ∧ (r.isSome → group ∈ w.found) := by
  intro _ w hw
  have hgroup : group < w.next := hw.next ▸ hold
  refine tryWait_triple.bind fun exited => ?_
  cases exited with
  | some code =>
    have hnow : Triple (Later w) h.now (fun _ => Later w) (Fails (ε := String) w) :=
      now_triple.onReturn fun _ _ hs => hs.1
    refine hnow.bind fun now => (terminateRemainingGroup_triple hgroup).bind fun _ => ?_
    exact Triple.pure fun w' hw' => ⟨hw.trans hw'.1, fun _ => hw'.2⟩
  | none =>
    have hcancelled : Triple (Later w) (h.observe fun w => h.cancelled w.clock)
        (fun _ => Later w) (Fails (ε := String) w) :=
      observe_triple.onReturn fun _ _ hs => hs.1
    refine hcancelled.bind fun cancelled => Triple.ite (fun _ => ?_) fun _ => ?_
    · refine (terminateProcess_triple hgroup).bind fun _ => ?_
      exact Triple.pure fun w' hw' => ⟨hw.trans hw'.1, fun _ => hw'.2⟩
    · refine now_triple.bind fun now => Triple.ite (fun _ => ?_) fun hbefore => ?_
      · exact Triple.pure fun w' hw' => ⟨hw.trans hw'.1, nofun⟩
      · refine Triple.pure fun w' hw' => ⟨hw'.1, ?_⟩
        have hle := hw'.1.time
        omega

/-- However the wait ends without an error, the group has been found gone. -/
theorem waitWithTimeout_triple :
    Triple (Later w₀) (h.waitWithTimeout timeout group) (fun _ => FoundGone w₀ group)
      (Fails w₀) := by
  refine start_triple.bind fun start =>
    (poll_triple (by decide) (waitTurn_turns hold) ()).bind fun r => ?_
  cases r with
  | some outcome => exact Triple.pure fun w hw => ⟨hw.1, hw.2 rfl⟩
  | none =>
    have hnow : Triple (fun w => Later w₀ w ∧ ((none : Option WaitOutcome).isSome → group ∈ w.found))
        h.now (fun _ => Later w₀) (Fails (ε := String) w₀) :=
      now_triple.mono (fun _ hs => hs.1) (fun _ _ hs => hs.1) fun _ _ he => he
    refine hnow.bind fun now => (terminateProcess_triple hold).bind fun code => ?_
    exact Triple.pure fun w hw => hw

end

end Termination

/-! ### A phase -/

section Phase

open Host (Fails Turns)

variable {h} {w₀ : TaskWorld} {group : Nat} {cfg : PhaseConfig}

theorem fail_triple {code message : String} :
    Triple (Later w₀) (fail cfg code message) Q (Fails w₀) :=
  Triple.throw fun _ hw => ⟨hw, nofun⟩

theorem observe_later {f : TaskWorld → α} :
    Triple (Later w₀) (h.observe f) (fun _ => Later w₀) (Fails (ε := ε) w₀) :=
  observe_triple.onReturn fun _ _ hw => hw.1

theorem stopIf_triple {error : Nat → Option BuildError} :
    Triple (Later w₀) (h.stopIf error) (fun _ => Later w₀) (Fails w₀) := by
  refine observe_later.bind fun answer => ?_
  cases answer with
  | some err => exact Triple.throw fun _ hw => ⟨hw, nofun⟩
  | none => exact Triple.pure fun _ hw => hw

theorem sendTurn_turns {deadline : Nat} :
    Turns w₀ deadline (h.sendTurn deadline) fun _ => Later w₀ := by
  intro _ w hw
  refine observe_later.bind fun answer => ?_
  cases answer with
  | ok u => exact Triple.pure fun w' hw' => hw.trans hw'
  | error e =>
    cases e with
    | closed => exact Triple.pure fun w' hw' => hw.trans hw'
    | full =>
      refine now_triple.bind fun now => Triple.ite (fun _ => ?_) fun hbefore => ?_
      · exact Triple.pure fun w' hw' => hw.trans hw'.1
      · refine Triple.pure fun w' hw' => ⟨hw'.1, ?_⟩
        have hle := hw'.1.time
        omega

theorem sendResponse_triple :
    Triple (Later w₀) (h.sendResponse cfg) (fun _ => Later w₀) (Fails w₀) := by
  refine start_triple.bind fun start =>
    (poll_triple (by decide) sendTurn_turns ()).bind fun sent =>
      Triple.ite (fun _ => ?_) fun _ => ?_
  · exact Triple.pure fun _ hw => hw
  · exact fail_triple

/-- The error of the set-up is returned, whether or not the clean-up fails. -/
theorem abandon_triple {err : BuildError} {Q : Unit → TaskWorld → Prop}
    (hold : group < w₀.next) : Triple (Later w₀) (h.abandon group err) Q (Fails w₀) := by
  have hended : Triple (Later w₀) (outcome (h.terminateProcess group))
      (fun r w => Later w₀ w ∧ r ≠ .error .unfinished) (Fails (ε := BuildError) w₀) := by
    refine (terminateProcess_triple hold).outcome.onReturn fun r w hw => ?_
    cases r with
    | ok code => exact ⟨hw.1, nofun⟩
    | error e => exact ⟨hw.1, fun heq => hw.2 (Except.error.inj heq)⟩
  refine hended.bind fun r => ?_
  cases r with
  | ok code => exact Triple.throw fun _ hw => ⟨hw.1, nofun⟩
  | error e =>
    cases e with
    | failed cleanup => exact Triple.throw fun _ hw => ⟨hw.1, nofun⟩
    | unfinished => exact Triple.throw fun _ hw => absurd rfl hw.2

variable {stdin : Bool}

theorem setUpIo_triple (hold : group < w₀.next) :
    Triple (Later w₀) (h.setUpIo cfg stdin group) (fun _ => Later w₀) (Fails w₀) := by
  refine observe_later.bind fun fault => ?_
  cases fault with
  | some fault => exact abandon_triple hold
  | none => exact Triple.pure fun _ hw => hw

theorem Fails.inPhase {code : String} {text : String → String} {e : Halted String}
    (he : Fails w₀ e w) : Fails w₀ (TaskHost.inPhase cfg code text e) w := by
  refine ⟨he.1, ?_⟩
  cases e with
  | failed err => exact nofun
  | unfinished => exact absurd rfl he.2

theorem afterGone {x : EStateM (Halted ε) TaskWorld α}
    (hx : ∀ w, Triple (Later w) x (fun _ => Later w) (Fails w)) :
    Triple (FoundGone w₀ group) x (fun _ => FoundGone w₀ group) (Fails w₀) := by
  intro w hw
  exact (hx w w (Later.refl w)).mono (fun _ _ hs => hw.later hs) fun _ _ he => he.trans hw.1

def Finished (w₀ : TaskWorld) (group : Nat) (result : PhaseResult) (w : TaskWorld) : Prop :=
  ∃ w', FoundGone w₀ group w' ∧ w = { w' with own := w'.own ++ [.finished result] }

theorem conclude_triple {outcome : WaitOutcome} :
    Triple (FoundGone w₀ group) (h.conclude cfg outcome)
      (fun result w => result.phase = cfg.phase ∧ Finished w₀ group result w) (Fails w₀) := by
  cases outcome with
  | cancelled => exact Triple.throw fun _ hw => ⟨hw.1, nofun⟩
  | exited code timedOut duration =>
    refine (afterGone fun w => sendResponse_triple).bind fun _ => ?_
    refine (Triple.modify fun w hw => ?_).bind fun _ => Triple.pure fun _ hw => ⟨rfl, hw⟩
    exact ⟨w, hw, rfl⟩

theorem attend_triple (hold : group < w₀.next) : Triple (Later w₀) (h.attend cfg stdin group)
      (fun result w => result.phase = cfg.phase ∧ Finished w₀ group result w) (Fails w₀) := by
  refine (setUpIo_triple hold).bind fun _ => ?_
  refine (Triple.adaptExcept ((waitWithTimeout_triple hold).onError fun _ _ he =>
    Fails.inPhase he)).bind fun outcome => ?_
  refine (afterGone fun w => stopIf_triple).bind fun _ => ?_
  refine (afterGone fun w => stopIf_triple).bind fun _ => ?_
  exact conclude_triple

def Quiet (w : TaskWorld) : Prop :=
  w.Sound ∧ ∀ group < w.next, group ∈ w.found

theorem Quiet.later (hquiet : Quiet w₀) (hw : Later w₀ w) : Quiet w := by
  refine ⟨hw.sound hquiet.1, fun group hgroup => ?_⟩
  rw [hw.next] at hgroup
  exact hw.found group (hquiet.2 group hgroup)

theorem Quiet.overlaps (hquiet : Quiet w) : overlaps w = false := by
  simp only [Phases.overlaps, List.any_eq_false, List.mem_range]
  intro group hgroup
  have hgone : w.members group = 0 := (hquiet.1 group (hquiet.2 group hgroup)).2
  simp [hgone]

/-- What the history says when a process of the phase was started. -/
def Starts (w₀ : TaskWorld) (phase : BuildPhase) (rest : List TaskEvent) (w : TaskWorld) : Prop :=
  ∃ overlap, w.own = w₀.own ++ .spawned phase overlap :: rest ∧ (Quiet w₀ → overlap = false)

structure Ran (w₀ : TaskWorld) (phase : BuildPhase) (result : PhaseResult) (w : TaskWorld) :
    Prop where
  isPhase : result.phase = phase
  next : w.next = w₀.next + 1
  gone : w₀.next ∈ w.found
  kept : ∀ group ∈ w₀.found, group ∈ w.found
  sound : w₀.Sound → w.Sound
  own : Starts w₀ phase [.finished result] w

/-- A phase without a result has started a process at most. -/
def Broke (w₀ : TaskWorld) (phase : BuildPhase) (e : Halted BuildError) (w : TaskWorld) : Prop :=
  e ≠ .unfinished ∧ (w.own = w₀.own ∨ Starts w₀ phase [] w)

theorem Ran.quiet {result : PhaseResult} {phase : BuildPhase} (hran : Ran w₀ phase result w)
    (hquiet : Quiet w₀) : Quiet w := by
  refine ⟨hran.sound hquiet.1, fun group hgroup => ?_⟩
  rw [hran.next] at hgroup
  obtain hold | rfl := Nat.lt_succ_iff_lt_or_eq.mp hgroup
  · exact hran.kept group (hquiet.2 group hold)
  · exact hran.gone

theorem spawnCommand_triple : Triple (Later w₀) (h.spawnCommand cfg)
      (fun group w => ∃ w', Later w₀ w' ∧ group = w'.next ∧
        w = w'.started fun w => w.own ++ [.spawned cfg.phase (overlaps w)])
      (Fails w₀) :=
  Triple.adaptExcept (spawn_triple.onError fun _ _ he => Fails.inPhase he)

theorem starts_of_started {w₁ : TaskWorld} {rest : List TaskEvent} (hw₁ : Later w₀ w₁)
    (hown : w.own = w₁.own ++ [.spawned cfg.phase (overlaps w₁)] ++ rest) :
    Starts w₀ cfg.phase rest w := by
  refine ⟨overlaps w₁, ?_, fun hquiet => (hquiet.later hw₁).overlaps⟩
  rw [hown, hw₁.own, List.append_assoc]
  rfl

theorem Fails.broke {phase : BuildPhase} {e : Halted BuildError} (he : Fails w₀ e w) :
    Broke w₀ phase e w :=
  ⟨he.2, .inl he.1.own⟩

theorem spawnAndAttend_triple :
    Triple (Later w₀) (h.spawnCommand cfg >>= h.attend cfg stdin) (Ran w₀ cfg.phase)
      (Broke w₀ cfg.phase) := by
  refine (spawnCommand_triple.onError fun _ _ he => Fails.broke he).bind fun group => ?_
  rintro w ⟨w₁, hw₁, rfl, rfl⟩
  refine (attend_triple (Nat.lt_succ_self _) _ (Later.refl _)).mono (fun result w' hw' => ?_)
    fun e w' he => ?_
  · obtain ⟨hphase, w₂, ⟨hlater, hgone⟩, rfl⟩ := hw'
    refine ⟨hphase, ?_, ?_, fun group hgroup => ?_, fun hsound => ?_, ?_⟩
    · exact hlater.next.trans (congrArg (· + 1) hw₁.next)
    · rw [← hw₁.next]
      exact hgone
    · exact hlater.found group (hw₁.found group hgroup)
    · exact hlater.sound ((hw₁.sound hsound).started _)
    · exact starts_of_started hw₁ (congrArg (· ++ [_]) hlater.own)
  · refine ⟨he.2, .inr (starts_of_started hw₁ ?_)⟩
    rw [List.append_nil]
    exact he.1.own

theorem runPhase_triple :
    Triple (Later w₀) (h.runPhase cfg stdin) (Ran w₀ cfg.phase) (Broke w₀ cfg.phase) := by
  refine (observe_later.onError fun _ _ he => Fails.broke he).bind fun cancelled =>
    Triple.ite (fun _ => ?_) fun _ => ?_
  · exact fail_triple.onError fun _ _ he => Fails.broke he
  · refine (sendResponse_triple.onError fun _ _ he => Fails.broke he).bind fun _ => ?_
    refine (stopIf_triple.onError fun _ _ he => Fails.broke he).bind fun _ => ?_
    exact spawnAndAttend_triple

end Phase

end TaskHost

end IndenturedServer.Phases
