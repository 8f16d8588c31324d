import IndenturedServer.Foundation.Program
import IndenturedServer.Sessions.System
import IndenturedServer.Source.Archive

/-!
What the daemon does at its start with the sessions of the run before it.

`reconcile_stale_sessions` goes over the metadata directory. A metadata file
that is valid names the processes of the session's services, and nothing
happens to the session before each of them was seen to be gone: a process that
stays makes the whole start fail. Then the teardown of the task runs, if there
is one and a workspace to run it in, and workspace and metadata file are
removed. A second pass removes whatever is left in the workspace root under the
name of a session.

The model has the two directories as tables of names, and a log of what was
observed, run and removed. The machine decides what a process table answers,
how much time passes, which deletions succeed, where reading a directory fails,
and what a teardown leaves of its workspace; a teardown does not touch the files
of other sessions.
-/

namespace IndenturedServer.Sessions.Startup

open Foundation
open Source (Text dot isUtf8)

/-! ### The directories -/

inductive Place
  /-- `.sessions` in the workspace root -/
  | metadata
  /-- the workspace root itself -/
  | workspaces
  deriving DecidableEq, Repr

structure Path where
  place : Place
  name : Text
  deriving DecidableEq, Repr

inductive Node
  /-- A regular file with its owner, its mode, and what it is parsed as. -/
  | file (uid mode : Nat) (metadata : Option DurableSessionMetadata)
  | directory
  | link (toDirectory : Bool)
  | fifo
  /-- A socket or a device. -/
  | other
  deriving DecidableEq, Repr

/-- `Path::is_dir`, which follows links. -/
def Node.isDir : Node → Bool
  | .directory => true
  | .link toDirectory => toDirectory
  | _ => false

structure Directory where
  entries : List (Text × Node)
  nodup : (entries.map Prod.fst).Nodup

def Directory.names (d : Directory) : List Text :=
  d.entries.map Prod.fst

def Directory.lookup (d : Directory) (name : Text) : Option Node :=
  d.entries.lookup name

/-- What `symlink_metadata` says about the metadata directory. -/
inductive Root
  | missing
  | failed (message : String)
  | found (isSymlink isDir : Bool) (uid mode : Nat)
  deriving DecidableEq, Repr

/-- What the daemon finds. -/
structure Content where
  root : Root
  metadata : Directory
  workspaceRoot : Bool
  workspaces : Directory
  missing : root = .missing → metadata.entries = []
  absent : workspaceRoot = false → workspaces.entries = []

def Content.lookup (c : Content) (path : Path) : Option Node :=
  match path.place with
  | .metadata => c.metadata.lookup path.name
  | .workspaces => c.workspaces.lookup path.name

/-! ### Names -/

/-- ASCII of `json`. -/
def jsonText : Text := [0x6a, 0x73, 0x6f, 0x6e]

/-- ASCII of `session-`. -/
def sessionMark : Text := [0x73, 0x65, 0x73, 0x73, 0x69, 0x6f, 0x6e, 0x2d]

/-- ASCII of `ses_`. -/
def sesMark : Text := [0x73, 0x65, 0x73, 0x5f]

/-- The parts before and after the last dot, as `Path` takes a file name
apart. A dot at the very start does not count. -/
def rsplitFileAtDot (file : Text) : Option Text × Option Text :=
  if file = [dot, dot] then (some file, none)
  else
    match file.reverse.dropWhile (· ≠ dot) with
    | [] => (none, some file)
    | _ :: before =>
      if before = [] then (some file, none)
      else (some before.reverse, some (file.reverse.takeWhile (· ≠ dot)).reverse)

def fileStem (file : Text) : Option Text :=
  (rsplitFileAtDot file).1.or (rsplitFileAtDot file).2

def extension (file : Text) : Option Text :=
  (rsplitFileAtDot file).1.bind fun _ => (rsplitFileAtDot file).2

def sessionId (name : Text) : Option Text :=
  ((fileStem name).filter isUtf8).filter fun _ => extension name = some jsonText

def sessionWorkspace (id : Text) : Path :=
  ⟨.workspaces, sessionMark ++ id⟩

def metadataPath (id : Text) : Path :=
  ⟨.metadata, id ++ dot :: jsonText⟩

/-! ### The machine -/

/-- Whom a signal is sent to. -/
inductive Target
  | process (pid : Nat)
  | group (pgid : Int)
  deriving DecidableEq, Repr

/-- How `kill` or `killpg` with the signal 0 ends. -/
inductive Signalled
  | sent
  /-- EPERM -/
  | notPermitted
  /-- ESRCH -/
  | noSuchProcess
  | failed
  deriving DecidableEq, Repr

def Signalled.present : Signalled → Bool
  | .sent | .notPermitted => true
  | _ => false

/-- Times are in milliseconds. What a call meets with depends on how many
calls there were before. -/
structure Machine where
  euid : Nat
  signal : Nat → Target → Signalled
  delay : Nat → Nat
  deletes : Nat → Bool
  /-- Some process opens this pipe for writing. -/
  writes : Path → Bool
  /-- What the teardown of a session leaves of its workspace. -/
  leaves : Text → Option Node
  /-- Reading the directory fails after so many entries. -/
  fault : Place → Option (Nat × String)

inductive Note
  | absent (target : Target)
  | teardown (id : Text)
  | removed (path : Path)
  deriving DecidableEq, Repr

structure World where
  files : Path → Option Node
  log : List Note := []
  time : Nat := 0
  calls : Nat := 0

/-- Why the start has no result. -/
inductive Halt
  | failed (message : String)
  /-- `overflow when adding duration to instant` -/
  | panicked
  /-- `open` waits for a writer. -/
  | blocked
  /-- A loop has had all its turns. -/
  | unfinished
  deriving DecidableEq, Repr

abbrev Start := EStateM Halt World

namespace Machine

variable (m : Machine)

def passed (w : World) : World :=
  { w with time := w.time + m.delay w.calls, calls := w.calls + 1 }

def now : Start Nat := fun w =>
  .ok (m.passed w).time (m.passed w)

def sleep (duration : Nat) : Start Unit := fun w =>
  .ok () { m.passed w with time := (m.passed w).time + duration }

def signals (target : Target) : Start Signalled := fun w =>
  .ok (m.signal w.calls target) (m.passed w)

/-- A deletion that the file system has no objection to. -/
def delete (path : Path) : Start Unit := fun w =>
  if m.deletes w.calls then
    .ok () { m.passed w with
      files := Function.update w.files path none
      log := w.log ++ [.removed path] }
  else .ok () (m.passed w)

end Machine

def note (entry : Note) : Start Unit :=
  modify fun w => { w with log := w.log ++ [entry] }

/-! ### Processes -/

/-- `Instant + Duration`; the seconds of an instant are an `i64`. -/
def instantAdd (instant duration : Nat) : Start Nat :=
  if (instant + duration) / 1000 < 2 ^ 63 then pure (instant + duration) else throw .panicked

def observed (target : Target) (present : Bool) : Start Bool := do
  if present then pure true else
    note (.absent target)
    pure false

/-- `pid_t` is an `i32`: no process has a larger number. -/
def processExists (m : Machine) (pid : Nat) : Start Bool :=
  if pid < 2 ^ 31 then do
    observed (.process pid) (← m.signals (.process pid)).present
  else observed (.process pid) false

/-- The error of the query is `none`. -/
def processGroupExists (m : Machine) (pgid : Int) : Start (Option Bool) := do
  match ← m.signals (.group pgid) with
  | .sent | .notPermitted => pure (some true)
  | .noSuchProcess => return some (← observed (.group pgid) false)
  | .failed => pure none

/-- The loop of `await_stale_service_shutdown`. -/
def awaitSupervisor (m : Machine) (pid deadline : Nat) : Nat → Start Unit
  | 0 => throw .unfinished
  | turns + 1 => do
      if ← processExists m pid then
        if (← m.now) < deadline then
          m.sleep 25
          awaitSupervisor m pid deadline turns

def supervisorLive (pid : Nat) : String :=
  "recorded service supervisor " ++ toString pid ++ " is still live; refusing unsafe stale cleanup"

def serviceSurvived (name : String) : String :=
  "recorded service " ++ name ++
    " survived its supervisor; refusing PID-reuse-unsafe stale cleanup"

def refuseSurvivors (m : Machine) (service : DurableServiceProcess) : Start Unit := do
  if ← processExists m service.supervisorPid then
    throw (.failed (supervisorLive service.supervisorPid))
  else
    let groupLive := (← processGroupExists m service.servicePgid).getD true
    if (← processExists m service.servicePid) || groupLive then
      throw (.failed (serviceSurvived service.name))

def awaitService (m : Machine) (service : DurableServiceProcess) : Start Unit := do
  let start ← m.now
  let shutdown ← instantAdd start (service.shutdownTimeoutSec * 1000)
  let deadline ← instantAdd shutdown 6000
  awaitSupervisor m service.supervisorPid deadline ((deadline - start) / 25 + 2)
  refuseSurvivors m service

def awaitStaleServiceShutdown (m : Machine) (metadata : DurableSessionMetadata) : Start Unit :=
  metadata.services.reverse.forM (awaitService m)

/-! ### Files -/

/-- `remove_file` fails on a directory; what is not there is removed. -/
def removeFile (m : Machine) (path : Path) : Start Unit := do
  match (← get).files path with
  | none | some .directory => pure ()
  | some _ => m.delete path

def removePath (m : Machine) (path : Path) : Start Unit := do
  match (← get).files path with
  | none => pure ()
  -- `remove_dir_all`
  | some .directory => m.delete path
  | some _ => removeFile m path

def removeMetadata (m : Machine) (id : Text) : Start Unit :=
  removeFile m (metadataPath id)

def removeSessionFiles (m : Machine) (id : Text) (workspace : Path) : Start Unit := do
  removePath m workspace
  removeMetadata m id

/-- What `read_metadata` makes of an entry once it is open: only a regular
file that belongs to the daemon alone is read. -/
def readable (m : Machine) : Option Node → Option DurableSessionMetadata
  | some (.file uid mode metadata) =>
    if uid ≠ m.euid ∨ mode &&& 0o077 ≠ 0 then none else metadata
  | _ => none

/-- `read_metadata(..).ok()`. A link is not followed, and opening a pipe
waits for a writer. -/
def readMetadata (m : Machine) (path : Path) : Start (Option DurableSessionMetadata) := do
  let node := (← get).files path
  if node = some .fifo ∧ m.writes path = false then throw .blocked
  pure (readable m node)

def belongs (id : Text) (metadata : DurableSessionMetadata) : Bool :=
  (metadata.version == 2 || metadata.version == 3) &&
    metadata.sessionId.toUTF8.data.toList == id

/-! ### The two passes -/

/-- What iterating over `read_dir` gives. -/
def listed (names : List Text) : Option (Nat × String) → List (Except String Text)
  | none => names.map .ok
  | some (count, message) => (names.take count).map .ok ++ [.error message]

def forEntries (body : Text → Start Unit) : List (Except String Text) → Start Unit
  | [] => pure ()
  | .error message :: _ => throw (.failed message)
  | .ok name :: rest => do
      body name
      forEntries body rest

def runSessionTeardown (m : Machine) (id : Text) : Start Unit := do
  note (.teardown id)
  modify fun w => { w with files := Function.update w.files (sessionWorkspace id) (m.leaves id) }

/-- What is done about a session before its files are removed. `configured`
says which tasks exist and have a session. -/
def settleSession (configured : String → Bool) (m : Machine) (id : Text) :
    Option DurableSessionMetadata → Start Unit
  | none => pure ()
  | some metadata => do
      awaitStaleServiceShutdown m metadata
      if configured metadata.taskId ∧ ((← get).files (sessionWorkspace id)).any Node.isDir then
        runSessionTeardown m id

def reconcileSession (configured : String → Bool) (m : Machine) (id : Text) : Start Unit := do
  let metadata ← readMetadata m (metadataPath id)
  settleSession configured m id (metadata.filter (belongs id))
  removeSessionFiles m id (sessionWorkspace id)

def reconcileEntry (configured : String → Bool) (m : Machine) (name : Text) : Start Unit :=
  match sessionId name with
  | none => removePath m ⟨.metadata, name⟩
  | some id => reconcileSession configured m id

def removeOrphan (m : Machine) (name : Text) : Start Unit :=
  if isUtf8 name && (sessionMark ++ sesMark).isPrefixOf name then
    removePath m ⟨.workspaces, name⟩
  else pure ()

def validateProtectedDirectory (m : Machine) (isSymlink isDir : Bool) (uid mode : Nat) :
    Start Unit :=
  if isSymlink || !isDir || uid ≠ m.euid || mode &&& 0o077 ≠ 0 then
    throw (.failed "session metadata root must be a daemon-owned mode-0700 real directory")
  else pure ()

def reconcileMetadata (configured : String → Bool) (m : Machine) (c : Content) : Start Unit :=
  match c.root with
  | .missing => pure ()
  | .failed message => throw (.failed message)
  | .found isSymlink isDir uid mode => do
      validateProtectedDirectory m isSymlink isDir uid mode
      forEntries (reconcileEntry configured m) (listed c.metadata.names (m.fault .metadata))

def removeOrphans (m : Machine) (c : Content) : Start Unit := do
  if c.workspaceRoot then
    let w ← get
    let names := c.workspaces.names.filter fun name => (w.files ⟨.workspaces, name⟩).isSome
    forEntries (removeOrphan m) (listed names (m.fault .workspaces))

def reconcileStaleSessions (configured : String → Bool) (m : Machine) (c : Content) :
    Start Unit := do
  reconcileMetadata configured m c
  removeOrphans m c

/-- The start finds the content. -/
def World.initial (c : Content) (time : Nat) : World where
  files := c.lookup
  time := time

end IndenturedServer.Sessions.Startup
