import IndenturedServer.Artifacts.Matching

/-!
The commands of a validated configuration.

A command is given by a script or by an executable with arguments, and
`execution` panics on anything else. `validate` looks at each command that is
in the configuration; the dispatcher makes further actions, from its own
command and from what a policy overrides.

A `HashMap` is a list of pairs, in the order in which it is iterated.
-/

namespace IndenturedServer.Configuration

open Foundation Source Artifacts

/-! ### The configuration -/

abbrev HashMap (α : Type) := List (String × α)

/-- The fields that each kind of command has. -/
structure Command where
  script : Option Text := none
  executable : Option Text := none
  args : List Text := []

/-- A setup, a teardown, and what actions have in common. -/
structure TimedCommand extends Command where
  timeoutSec : Nat

structure SessionServiceConfig extends Command where
  startupTimeoutSec : Nat
  shutdownTimeoutSec : Nat
  diagnosticTailBytes : Nat

structure SessionActionConfig extends TimedCommand where
  artifacts : ArtifactSpec := ⟨[], []⟩

structure SessionActionPolicyOverride where
  timeoutSec : Option Nat := none
  artifacts : Option ArtifactSpec := none

structure SessionActionDispatcherConfig extends SessionActionConfig where
  allowUnlisted : Bool := true
  actions : HashMap SessionActionPolicyOverride := []

structure SourceUpdatesConfig where
  timeoutSec : Nat
  maxTransferBytes : Nat
  maxUncompressedBytes : Nat
  maxFiles : Nat
  maxDepth : Nat
  includes : List Text
  excludes : List Text := []

structure TaskSessionConfig where
  idleTimeoutSec : Nat
  maxLifetimeSec : Nat
  teardown : TimedCommand
  services : HashMap SessionServiceConfig := []
  actions : HashMap SessionActionConfig := []
  actionDispatcher : Option SessionActionDispatcherConfig := none
  sourceUpdates : Option SourceUpdatesConfig := none

structure TaskConfig extends TimedCommand where
  setup : Option TimedCommand := none
  session : Option TaskSessionConfig := none
  cwd : Text
  environment : HashMap Text
  artifacts : ArtifactSpec

structure SourcesConfig where
  maxTransferBytes : Nat
  maxUncompressedBytes : Nat
  maxFiles : Nat
  maxDepth : Nat
  uploadTimeoutSec : Nat

structure Config where
  maxTimeoutSec : Nat
  maxOutputBytes : Nat
  sources : SourcesConfig
  tasks : HashMap TaskConfig
  /-- What is found in the sections that are looked at before the limits, and
  behind the tasks. -/
  service : Except String Unit
  rest : Except String Unit

inductive TaskExecution
  | script (text : Text)
  | executable (path : Text) (args : List Text)

/-- The panic has no value. -/
def Command.execution (c : Command) : Option TaskExecution :=
  match c.script, c.executable with
  | some script, none => if c.args = [] then some (.script script) else none
  | none, some path => some (.executable path c.args)
  | _, _ => none

def SessionActionDispatcherConfig.resolve (d : SessionActionDispatcherConfig)
    (actionName : String) : Option SessionActionConfig :=
  let policy := d.actions.lookup actionName
  if policy.isNone && !d.allowUnlisted then none
  else some { d.toSessionActionConfig with
    timeoutSec := (policy.bind (·.timeoutSec)).getD d.timeoutSec
    artifacts := (policy.bind (·.artifacts)).getD d.artifacts }

/-! ### The checks -/

/-- What `validate` asks the host for, and how it prints. -/
structure Machine where
  globs : Globs
  globError : Text → String
  /-- Whether there is a regular file, and its mode. -/
  metadata : Text → Except String (Bool × UInt32)
  /-- The format `{:?}`, of a path or a pattern and of a name. -/
  quote : Text → String
  quoteName : String → String

def PatternProblem.message (field : String) : PatternProblem → String
  | .emptyValue => s!"{field} must not be empty"
  | .pathNotRelative => s!"{field} must be a relative path"
  | .pathHasParent => s!"{field} must not contain parent directory references"

def validTaskId (value : String) : Bool :=
  value ≠ "" && value.utf8ByteSize ≤ 64 &&
    value.toList.all fun c => c.isAlphanum || c = '_' || c = '-'

def checkName (what name : String) : Except String Unit :=
  refuse (validTaskId name = false) s!"{what} must match [A-Za-z0-9_-]+ and be at most 64 bytes"

def checkPositive (field : String) (value : Nat) : Except String Unit :=
  refuse (value = 0) s!"{field} must be greater than zero"

def checkRange (field bound : String) (value maximum : Nat) : Except String Unit :=
  refuse (value = 0 ∨ maximum < value) s!"{field} must be between 1 and {bound} ({maximum})"

def checkTimeout (field : String) : Nat → Nat → Except String Unit :=
  checkRange field "build.max_timeout_sec"

def validateArgs (args : List Text) (field : String) : Except String Unit :=
  refuse (∃ arg ∈ args, nul ∈ arg) s!"{field} must not contain NUL"

/-- The variable `PATH` is reported at the task. -/
def environmentField (field : String) : String :=
  match field.splitOn ".session" with
  | task :: _ :: _ => task
  | _ => ((field.dropSuffix? ".setup").map (·.toString)).getD field

def validateScript (script : Text) (field : String) (environment : HashMap Text) :
    Except String Unit := do
  refuse (script = [] ∨ 64 * 1024 < script.length ∨ isBlank script = true)
    s!"{field}.script must contain 1 to 65536 bytes of non-whitespace text"
  refuse (nul ∈ script) s!"{field}.script must not contain NUL"
  let name := s!"{environmentField field}.environment.PATH"
  match environment.lookup "PATH" with
  | none => .error s!"{name} is required for script tasks"
  | some path =>
    refuse (path = [] ∨ ∃ component ∈ path.splitOn 0x3a, component.head? ≠ some slash)
      s!"{name} must contain only nonempty absolute components"

namespace Machine

variable (m : Machine)

def validateRelative (value : Text) (field : String) : Except String Unit :=
  (validateRelativePattern value).mapError (PatternProblem.message field)

def validatePatterns (patterns : List Text) (field : String) : Except String Unit :=
  patterns.forM fun pattern => do
    validateRelative pattern field
    refuse (m.globs.compiles pattern = false)
      s!"invalid glob in {field} {m.quote pattern}: {m.globError pattern}"

def validateArtifactSpec (spec : ArtifactSpec) (field : String) : Except String Unit := do
  m.validatePatterns spec.includes s!"{field}.include"
  m.validatePatterns spec.excludes s!"{field}.exclude"

def validateExecutableFile (path : Text) (field : String) : Except String Unit := do
  refuse (path.head? ≠ some slash) s!"{field} must be an absolute path"
  match m.metadata path with
  | .error err => .error s!"{field} is not accessible at {m.quote path}: {err}"
  | .ok (isFile, mode) =>
    refuse (isFile = false ∨ mode &&& 0o111 = 0) s!"{field} must be an executable regular file"

def validateExecution (c : Command) (field : String) (environment : HashMap Text) :
    Except String Unit :=
  match c.script, c.executable with
  | some script, none => do
    refuse (c.args ≠ []) s!"{field}.args must be empty when script is set"
    validateScript script field environment
  | none, some path => m.validateExecutableFile path s!"{field}.executable"
  | _, _ => .error s!"{field} must define exactly one of script or executable"

/-- `validate_execution`, and the arguments. -/
def validateCommand (c : Command) (field : String) (environment : HashMap Text) :
    Except String Unit := do
  m.validateExecution c field environment
  validateArgs c.args s!"{field}.args"

def validateSessionExecution (c : TimedCommand) (field : String) (environment : HashMap Text)
    (maxTimeoutSec : Nat) : Except String Unit := do
  m.validateCommand c.toCommand field environment
  checkTimeout s!"{field}.timeout_sec" c.timeoutSec maxTimeoutSec

def validateUpdates (u : SourceUpdatesConfig) (field : String) (maxTimeoutSec : Nat)
    (sources : SourcesConfig) : Except String Unit := do
  refuse
    (u.timeoutSec = 0 ∨ maxTimeoutSec < u.timeoutSec ∨ sources.uploadTimeoutSec < u.timeoutSec)
    (s!"{field}.timeout_sec must be between 1 and both build.max_timeout_sec ({maxTimeoutSec})" ++
      s!" and sources.upload_timeout_sec ({sources.uploadTimeoutSec})")
  let checkLimit := fun name => checkRange s!"{field}.{name}" s!"the global sources.{name}"
  checkLimit "max_transfer_bytes" u.maxTransferBytes sources.maxTransferBytes
  checkLimit "max_uncompressed_bytes" u.maxUncompressedBytes sources.maxUncompressedBytes
  checkLimit "max_files" u.maxFiles sources.maxFiles
  checkLimit "max_depth" u.maxDepth sources.maxDepth
  refuse (u.includes = []) s!"{field}.include must not be empty"
  m.validatePatterns u.includes s!"{field}.include"
  m.validatePatterns u.excludes s!"{field}.exclude"

def validateService (field : String) (environment : HashMap Text)
    (maxTimeoutSec maxOutputBytes : Nat) (p : String × SessionServiceConfig) :
    Except String Unit := do
  checkName s!"service name {m.quoteName p.1} in {field}.services" p.1
  let field := s!"{field}.services.{p.1}"
  m.validateCommand p.2.toCommand field environment
  checkTimeout s!"{field}.startup_timeout_sec" p.2.startupTimeoutSec maxTimeoutSec
  checkTimeout s!"{field}.shutdown_timeout_sec" p.2.shutdownTimeoutSec maxTimeoutSec
  checkRange s!"{field}.diagnostic_tail_bytes" "build.max_output_bytes" p.2.diagnosticTailBytes
    maxOutputBytes

def validateAction (c : SessionActionConfig) (field : String) (environment : HashMap Text)
    (maxTimeoutSec : Nat) : Except String Unit := do
  m.validateSessionExecution c.toTimedCommand field environment maxTimeoutSec
  m.validateArtifactSpec c.artifacts s!"{field}.artifacts"

def validateNamed (field : String) (check : String → α → Except String Unit) (p : String × α) :
    Except String Unit := do
  checkName s!"action name {m.quoteName p.1} in {field}.actions" p.1
  check s!"{field}.actions.{p.1}" p.2

def validatePolicy (maxTimeoutSec : Nat) (field : String) (policy : SessionActionPolicyOverride) :
    Except String Unit := do
  policy.timeoutSec.toList.forM (checkTimeout s!"{field}.timeout_sec" · maxTimeoutSec)
  policy.artifacts.toList.forM (m.validateArtifactSpec · s!"{field}.artifacts")

def validateDispatcher (field : String) (environment : HashMap Text) (maxTimeoutSec : Nat)
    (d : SessionActionDispatcherConfig) : Except String Unit := do
  m.validateAction d.toSessionActionConfig field environment maxTimeoutSec
  d.actions.forM (m.validateNamed field (m.validatePolicy maxTimeoutSec))

def validateSession (s : TaskSessionConfig) (field : String) (environment : HashMap Text)
    (maxTimeoutSec maxOutputBytes : Nat) (sources : SourcesConfig) : Except String Unit := do
  checkPositive s!"{field}.idle_timeout_sec" s.idleTimeoutSec
  checkPositive s!"{field}.max_lifetime_sec" s.maxLifetimeSec
  refuse (2 ^ 32 - 1 < s.maxLifetimeSec)
    s!"{field}.max_lifetime_sec must be no greater than 4294967295"
  refuse (s.maxLifetimeSec ≤ s.idleTimeoutSec)
    s!"{field}.idle_timeout_sec must be less than {field}.max_lifetime_sec"
  s.services.forM (m.validateService field environment maxTimeoutSec maxOutputBytes)
  m.validateSessionExecution s.teardown s!"{field}.teardown" environment maxTimeoutSec
  refuse (s.actions.isEmpty = s.actionDispatcher.isNone)
    s!"{field} must configure exactly one of named actions or action_dispatcher"
  s.actions.forM
    (m.validateNamed field fun field c => m.validateAction c field environment maxTimeoutSec)
  s.sourceUpdates.toList.forM
    (m.validateUpdates · s!"{field}.source_updates" maxTimeoutSec sources)
  s.actionDispatcher.toList.forM
    (m.validateDispatcher s!"{field}.action_dispatcher" environment maxTimeoutSec)

def checkEnvironment (field : String) (p : String × Text) : Except String Unit := do
  refuse (p.1 = "INDENTURED_SERVICE_READY_FD")
    s!"{field}.INDENTURED_SERVICE_READY_FD is reserved for managed services"
  refuse (p.1 = "" ∨ '=' ∈ p.1.toList ∨ '\x00' ∈ p.1.toList ∨ nul ∈ p.2)
    s!"{field} contains an invalid key or value"

/-- The time for the setup and the run, which is a `u64`. -/
def totalTimeout (t : TaskConfig) (field : String) : Except String Nat :=
  match t.setup with
  | none => .ok t.timeoutSec
  | some setup => do
    m.validateCommand setup.toCommand s!"{field}.setup" t.environment
    checkPositive s!"{field}.setup.timeout_sec" setup.timeoutSec
    refuse (2 ^ 64 ≤ setup.timeoutSec + t.timeoutSec) s!"{field} phase timeouts overflow"
    return setup.timeoutSec + t.timeoutSec

def validateTask (maxTimeoutSec maxOutputBytes : Nat) (sources : SourcesConfig)
    (p : String × TaskConfig) : Except String Unit := do
  let t := p.2
  checkName s!"task name {m.quoteName p.1}" p.1
  let field := s!"tasks.{p.1}"
  m.validateCommand t.toCommand field t.environment
  validateRelative t.cwd s!"{field}.cwd"
  checkPositive s!"{field}.timeout_sec" t.timeoutSec
  let total ← m.totalTimeout t field
  let range := if t.setup.isSome then " setup and run timeouts must total no more than "
    else ".timeout_sec must be between 1 and "
  refuse (maxTimeoutSec < total) s!"{field}{range}build.max_timeout_sec ({maxTimeoutSec})"
  t.session.toList.forM
    (m.validateSession · s!"{field}.session" t.environment maxTimeoutSec maxOutputBytes sources)
  t.environment.forM (checkEnvironment s!"{field}.environment")
  m.validateArtifactSpec t.artifacts s!"{field}.artifacts"

end Machine

/-- ASCII of `/bin/sh`. -/
def scriptShell : Text := [0x2f, 0x62, 0x69, 0x6e, 0x2f, 0x73, 0x68]

def TaskSessionConfig.commands (s : TaskSessionConfig) : List Command :=
  s.teardown.toCommand :: (s.services.map (·.2.toCommand) ++ s.actions.map (·.2.toCommand) ++
    s.actionDispatcher.toList.map (·.toCommand))

def TaskConfig.usesScript (t : TaskConfig) : Bool :=
  (t.toCommand :: (t.setup.toList.map (·.toCommand) ++
    t.session.toList.flatMap (·.commands))).any (·.script.isSome)

def Config.validate (m : Machine) (c : Config) : Except String Unit := do
  c.service
  checkPositive "build.max_timeout_sec" c.maxTimeoutSec
  checkPositive "build.max_output_bytes" c.maxOutputBytes
  checkPositive "sources.max_transfer_bytes" c.sources.maxTransferBytes
  checkPositive "sources.max_uncompressed_bytes" c.sources.maxUncompressedBytes
  refuse (c.sources.maxFiles = 0 ∨ c.sources.maxDepth = 0)
    "sources.max_files and sources.max_depth must be greater than zero"
  refuse (c.sources.uploadTimeoutSec = 0 ∨ 3600 < c.sources.uploadTimeoutSec)
    "sources.upload_timeout_sec must be between 1 and 3600"
  c.tasks.forM (m.validateTask c.maxTimeoutSec c.maxOutputBytes c.sources)
  (if c.tasks.any (·.2.usesScript) then
    m.validateExecutableFile scriptShell "script shell" else .ok ())
  c.rest

/-! ### What is accepted -/

/-- The command can be executed, within the limit. -/
def Command.Runs (c : Command) (timeoutSec maxTimeoutSec : Nat) : Prop :=
  c.execution.isSome ∧ 1 ≤ timeoutSec ∧ timeoutSec ≤ maxTimeoutSec

structure TaskSessionConfig.Runs (s : TaskSessionConfig) (max : Nat) : Prop where
  teardown : s.teardown.Runs s.teardown.timeoutSec max
  services : ∀ p ∈ s.services,
    p.2.Runs p.2.startupTimeoutSec max ∧ p.2.Runs p.2.shutdownTimeoutSec max
  actions : ∀ p ∈ s.actions, p.2.Runs p.2.timeoutSec max
  resolved : ∀ d ∈ s.actionDispatcher, ∀ name, ∀ action ∈ d.resolve name,
    action.Runs action.timeoutSec max
  unlisted : ∀ d ∈ s.actionDispatcher, ∀ name,
    d.resolve name = none ↔ (∀ p ∈ d.actions, name ≠ p.1) ∧ d.allowUnlisted = false

structure TaskConfig.Runs (t : TaskConfig) (max : Nat) : Prop where
  run : t.toCommand.Runs t.timeoutSec max
  setup : ∀ setup ∈ t.setup, setup.toCommand.Runs setup.timeoutSec max ∧
    setup.timeoutSec + t.timeoutSec ≤ max
  session : ∀ session ∈ t.session, session.Runs max

section
variable {m : Machine} {field : String} {environment : HashMap Text} {max : Nat}

theorem Command.execution_isSome {c : Command}
    (h : m.validateExecution c field environment = .ok ()) : c.execution.isSome := by
  unfold Machine.validateExecution at h
  unfold Command.execution
  split at h
  · simp only [check_eq_ok, refuse_eq_ok, not_not] at h
    simp [h.1]
  · simp
  · cases h

theorem TimedCommand.runs {c : TimedCommand}
    (h : m.validateSessionExecution c field environment max = .ok ()) :
    c.Runs c.timeoutSec max := by
  simp only [Machine.validateSessionExecution, Machine.validateCommand, checkTimeout, checkRange,
    check_eq_ok, refuse_eq_ok] at h
  exact ⟨Command.execution_isSome h.1.1, by omega, by omega⟩

theorem SessionActionConfig.runs {c : SessionActionConfig}
    (h : m.validateAction c field environment max = .ok ()) : c.Runs c.timeoutSec max := by
  simp only [Machine.validateAction, check_eq_ok] at h
  exact TimedCommand.runs h.1

theorem SessionServiceConfig.runs {maxOutputBytes : Nat} {p : String × SessionServiceConfig}
    (h : m.validateService field environment max maxOutputBytes p = .ok ()) :
    p.2.Runs p.2.startupTimeoutSec max ∧ p.2.Runs p.2.shutdownTimeoutSec max := by
  simp only [Machine.validateService, Machine.validateCommand, checkTimeout, checkRange,
    check_eq_ok, refuse_eq_ok] at h
  obtain ⟨-, ⟨hexecution, -⟩, hstartup, hshutdown, -⟩ := h
  have hsome := Command.execution_isSome hexecution
  exact ⟨⟨hsome, by omega, by omega⟩, hsome, by omega, by omega⟩

theorem SessionActionDispatcherConfig.resolve_eq_none {d : SessionActionDispatcherConfig}
    {name : String} : d.resolve name = none ↔
      (∀ p ∈ d.actions, name ≠ p.1) ∧ d.allowUnlisted = false := by
  simp only [resolve, ite_eq_left_iff, reduceCtorEq, Bool.and_eq_true, Option.isNone_iff_eq_none,
    List.lookup_eq_none_iff, Bool.not_eq_true', imp_false, not_not, bne_iff_ne]

/-- A policy that is listed has been checked, and what it leaves open is from
the dispatcher. -/
theorem SessionActionDispatcherConfig.resolve_runs {d : SessionActionDispatcherConfig}
    (h : m.validateDispatcher field environment max d = .ok ()) {name : String}
    {action : SessionActionConfig} (haction : d.resolve name = some action) :
    action.Runs action.timeoutSec max := by
  simp only [Machine.validateDispatcher, check_eq_ok, forM_ok_iff] at h
  obtain ⟨hsome, hpositive, hle⟩ := SessionActionConfig.runs h.1
  simp only [resolve] at haction
  split at haction
  · cases haction
  obtain rfl := Option.some.inj haction
  refine ⟨hsome, ?_⟩
  dsimp only
  cases htimeout : (d.actions.lookup name).bind (·.timeoutSec) with
  | none => exact ⟨hpositive, hle⟩
  | some timeoutSec =>
    obtain ⟨policy, hpolicy, htimeout⟩ := Option.bind_eq_some_iff.mp htimeout
    obtain ⟨before, after, hactions, -⟩ := List.lookup_eq_some_iff.mp hpolicy
    have hchecked := h.2 (name, policy) (by simp [hactions])
    simp only [Machine.validateNamed, Machine.validatePolicy, checkTimeout, checkRange, check_eq_ok,
      forM_ok_iff, refuse_eq_ok, Option.mem_toList] at hchecked
    have hrange := hchecked.2.1 timeoutSec htimeout
    exact ⟨by simp only [Option.getD_some]; omega, by simp only [Option.getD_some]; omega⟩

theorem TaskSessionConfig.runs {s : TaskSessionConfig} {maxOutputBytes : Nat}
    {sources : SourcesConfig}
    (h : m.validateSession s field environment max maxOutputBytes sources = .ok ()) :
    s.Runs max := by
  simp only [Machine.validateSession, check_eq_ok, forM_ok_iff, Option.mem_toList] at h
  obtain ⟨-, -, -, -, hservices, hteardown, -, hactions, -, hdispatcher⟩ := h
  refine ⟨TimedCommand.runs hteardown, fun p hp => SessionServiceConfig.runs (hservices p hp),
    fun p hp => ?_, fun d hd name action haction =>
      SessionActionDispatcherConfig.resolve_runs (hdispatcher d hd) haction,
    fun d _ name => SessionActionDispatcherConfig.resolve_eq_none⟩
  have haction := hactions p hp
  simp only [Machine.validateNamed, check_eq_ok] at haction
  exact SessionActionConfig.runs haction.2

theorem totalTimeout_eq {t : TaskConfig} {total : Nat} (h : m.totalTimeout t field = .ok total) :
    t.timeoutSec ≤ total ∧ ∀ setup ∈ t.setup, setup.execution.isSome ∧ 1 ≤ setup.timeoutSec ∧
      setup.timeoutSec + t.timeoutSec = total := by
  unfold Machine.totalTimeout at h
  split at h
  · simp_all
  · rename_i setup hsetup
    simp only [Machine.validateCommand, checkPositive, check_eq_ok, refuse_eq_ok, pure, Except.pure,
      Except.ok.injEq] at h
    obtain ⟨⟨hexecution, -⟩, hpositive, -, rfl⟩ := h
    rw [hsetup]
    refine ⟨by omega, ?_⟩
    rintro _ ⟨⟩
    exact ⟨Command.execution_isSome hexecution, by omega, rfl⟩

end

theorem validated_executions (m : Machine) (c : Config) (h : c.validate m = .ok ()) :
    ∀ p ∈ c.tasks, p.2.Runs c.maxTimeoutSec := by
  intro p hp
  simp only [Config.validate, check_eq_ok, forM_ok_iff] at h
  obtain ⟨-, -, -, -, -, -, -, htasks, -⟩ := h
  have htask := htasks p hp
  simp only [Machine.validateTask, Machine.validateCommand, checkPositive, check_eq_ok,
    refuse_eq_ok] at htask
  obtain ⟨-, ⟨hrun, -⟩, -, hpositive, htask⟩ := htask
  obtain ⟨total, htotal, htask⟩ := bind_eq_ok.mp htask
  simp only [check_eq_ok, refuse_eq_ok, forM_ok_iff, Option.mem_toList] at htask
  obtain ⟨hle, hsession, -⟩ := htask
  obtain ⟨hrest, hsetup⟩ := totalTimeout_eq htotal
  refine ⟨⟨Command.execution_isSome hrun, by omega, by omega⟩, fun setup h => ?_,
    fun session h => TaskSessionConfig.runs (hsession session h)⟩
  obtain ⟨hsome, hone, heq⟩ := hsetup setup h
  exact ⟨⟨hsome, hone, by omega⟩, by omega⟩

def sampleTask : TaskConfig where
  script := some [0x61]
  timeoutSec := 5
  setup := some { executable := some [slash], timeoutSec := 5 }
  session := some
    { idleTimeoutSec := 1
      maxLifetimeSec := 2
      teardown := { script := some [0x61], timeoutSec := 1 }
      actionDispatcher := some { script := some [0x61], timeoutSec := 10 } }
  cwd := [dot]
  environment := [("PATH", [slash])]
  artifacts := ⟨[], []⟩

def sampleConfig : Config := ⟨10, 1, ⟨1, 1, 1, 1, 1⟩, [("t", sampleTask)], .ok (), .ok ()⟩

/-- Every path is that of an executable. -/
def sampleMachine : Machine where
  globs := ⟨fun _ => true, fun _ _ => true⟩
  globError _ := ""
  metadata _ := .ok (true, 0o755)
  quote _ := ""
  quoteName := id

theorem validated_executions_sample :
    sampleConfig.validate sampleMachine = .ok () ∧ sampleTask.Runs 10 :=
  have h : sampleConfig.validate sampleMachine = .ok () := rfl
  ⟨h, validated_executions sampleMachine sampleConfig h ("t", sampleTask) (by simp [sampleConfig])⟩

end IndenturedServer.Configuration
