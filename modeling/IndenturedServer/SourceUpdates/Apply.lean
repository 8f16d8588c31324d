import IndenturedServer.Foundation.Descriptors
import IndenturedServer.SourceUpdates.Prepare

/-!
Applying a prepared source update.

`apply_update` backs up every target, replaces or removes the targets one
after the other, checks that the directories it changed are still where they
were, and commits the revision. When something fails after the first change it
puts the backups back, in reverse order, through the descriptors it has kept,
and `rollback_proven` says whether that worked.

All accesses to the workspace go through descriptors of directories, so that
the model is a program over `Foundation.Kernel`. The staging directory belongs
to the server and is part of the program's own state.
-/

namespace IndenturedServer.SourceUpdates

open Foundation Source

/-! ### The request -/

inductive PathError
  /-- change path is invalid -/
  | invalid
  /-- change path exceeds configured max_depth (..) -/
  | tooDeep (maxDepth : Nat)
  /-- change path targets reserved session storage -/
  | reserved
  deriving DecidableEq, Repr

/-- ASCII of `.indentured` and `.sessions`. -/
def reservedNames : List Text :=
  [[0x2e, 0x69, 0x6e, 0x64, 0x65, 0x6e, 0x74, 0x75, 0x72, 0x65, 0x64],
   [0x2e, 0x73, 0x65, 0x73, 0x73, 0x69, 0x6f, 0x6e, 0x73]]

def validateUpdatePath (path : Text) (maxDepth : Nat) : Except PathError Unit := do
  refuse (path = [] ∨ isAscii path = false ∨ backslash ∈ path ∨ nul ∈ path ∨
    path.head? = some slash ∨ path.getLast? = some slash ∨
    ∃ part ∈ path.splitOn slash, part = [] ∨ part = [dot] ∨ part = [dot, dot]) .invalid
  refuse (maxDepth < (path.splitOn slash).length) (.tooDeep maxDepth)
  refuse (toAsciiLowercase ((path.splitOn slash).headD []) ∈ reservedNames) .reserved

/-- What `prepare_archive` hands over, for a request that the parser of the
metadata has accepted. -/
structure PreparedUpdate (digest : Text → Text) where
  changes : List PreparedChange
  /-- The contents of the staged files. -/
  staged : Nat → Text
  hashes : ∀ {path index sha256}, ⟨path, .file index sha256⟩ ∈ changes →
    digest (staged index) = sha256
  valid : ∀ change ∈ changes, ∃ maxDepth, validateUpdatePath change.path maxDepth = .ok ()
  distinct : (changes.map fun change => toAsciiLowercase change.path).Nodup

structure Evidence where
  path : Text
  sha256 : Text
  deriving DecidableEq, Repr

structure AppliedEvidence where
  changed : List Evidence
  deleted : List Evidence
  deriving DecidableEq, Repr

/-! ### The world -/

/-- The state of the server that the call changes. -/
structure UpdateFiles where
  /-- The files `backup-0`, `backup-1`, .. -/
  backups : Nat → Option Text := fun _ => none
  parents : List Descriptor := []
  /-- The new revision is in the session's metadata. -/
  committed : Bool := false

structure ApplyContext where
  kernel : Kernel Text UpdateFiles
  caseRule : CaseRule
  /-- What the path of the workspace leads to. -/
  workspace : Ino
  /-- The name of a temporary file that is made at this time. -/
  temp : Nat → Text
  /-- The state of the cancellation flag. -/
  cancelled : Nat → Bool
  digest : Text → Text
  taskUid : Nat
  taskGid : Nat
  /-- A file that the server makes. -/
  created : Attributes

abbrev Files := Machine Text UpdateFiles

def start (fs : Fs Text) : Files := { fs := fs, own := {} }

structure Backup where
  path : Text
  /-- The number of the backup file. -/
  staged : Option Nat
  original : Option Ino
  uid : Nat
  gid : Nat
  mode : Nat
  sha256 : Option Text
  deriving DecidableEq, Repr

/-- `is_regular_mode`, with the attributes that are read from a regular file. -/
def regular (stat : Stat) : Option Attributes :=
  match stat.kind with
  | .file attributes _ => some attributes
  | _ => none

/-- The two parts of a path: its directories and its name. -/
def parentParts (relative : Text) : List Text :=
  (relative.splitOn slash).dropLast

def finalName (relative : Text) : Text :=
  (relative.splitOn slash).getLastD []

section
variable (s : ApplyContext)

def checkCancelled : EStateM UpdateError Files Unit := fun w =>
  if s.cancelled w.clock then .error .cancelled { w with clock := w.clock + 1 }
  else .ok () { w with clock := w.clock + 1 }

/-! ### Opening and inspecting -/

def openWorkspaceRoot : EStateM Errno Files Descriptor :=
  s.kernel.call fun now fs =>
    if fs.shape s.workspace = some .dir then .ok (⟨now, s.workspace⟩, fs, [])
    else .error .notDirectory

def openBeneath : Descriptor → List Text → EStateM Errno Files Descriptor
  | parent, [] => return parent
  | parent, component :: rest => do
      MonadExcept.ofExcept (refuse (nul ∈ component) .other)
      let child ← s.kernel.openDirectory parent (s.caseRule.fold component)
      openBeneath child rest

def openWorkspaceParent (root : Descriptor) (relative : Text) :
    EStateM Errno Files (Descriptor × Text) := do
  MonadExcept.ofExcept (refuse (nul ∈ finalName relative) .other)
  -- the duplicate of the root descriptor denotes what the root does
  s.kernel.touch
  let parent ← openBeneath s root (parentParts relative)
  return (parent, s.caseRule.fold (finalName relative))

def inspectTarget (parent : Descriptor) (name : Text) : EStateM Errno Files (Option Stat) :=
  s.kernel.statAt parent name

def openRegularAt (parent : Descriptor) (name : Text) (expected : Stat) :
    EStateM Errno Files Descriptor := do
  let file ← s.kernel.openFile parent name
  let metadata ← s.kernel.fstat file
  MonadExcept.ofExcept (refuse (regular metadata = none) .other)
  let identity ← s.kernel.fstat file
  MonadExcept.ofExcept (refuse (identity.ino ≠ expected.ino) .other)
  return file

/-- The target is what was backed up. -/
def unchanged : Option Ino → Option Stat → Bool
  | some expected, some current => current.ino = expected && (regular current).isSome
  | none, none => true
  | _, _ => false

def validateTargetAt (parent : Descriptor) (name : Text) (backup : Backup) :
    EStateM UpdateError Files Unit := do
  let current ← EStateM.adaptExcept (fun _ => .internal .recheckTarget)
    (inspectTarget s parent name)
  MonadExcept.ofExcept (refuse (unchanged backup.original current = false)
    (.bad (.changedBeforeMutation backup.path)))

def verifyParentStillBeneath (root : Descriptor) (relative : Text) (held : Descriptor) :
    EStateM UpdateError Files Unit := do
  let current ← EStateM.adaptExcept (fun _ => .bad .ancestorChanged)
    (openWorkspaceParent s root relative)
  let heldStat ← EStateM.adaptExcept (fun _ => .internal .inspectHeldParent) (s.kernel.fstat held)
  let currentStat ← EStateM.adaptExcept (fun _ => .internal .inspectCurrentParent)
    (s.kernel.fstat current.1)
  MonadExcept.ofExcept (refuse (heldStat.ino ≠ currentStat.ino) (.bad .ancestorChangedDuringMutation))

/-! ### Changing -/

def setFdOwnerMode (d : Descriptor) (uid gid mode : Nat) : EStateM Errno Files Unit := do
  s.kernel.fchown d uid gid
  s.kernel.fchmod d mode

def prepareStagedFile : EStateM Errno Files Unit := do
  -- the open and the check of the staged file, its owner and its mode
  s.kernel.touch
  s.kernel.touch
  s.kernel.touch
  s.kernel.touch

def prepareStagedFiles : List PreparedChange → EStateM Errno Files Unit
  | [] => return ()
  | ⟨_, .file _ _⟩ :: rest => do
      prepareStagedFile s
      prepareStagedFiles rest
  | ⟨_, .delete⟩ :: rest => prepareStagedFiles rest

def newBackup (index : Nat) (files : UpdateFiles) : Except Errno (Unit × UpdateFiles) :=
  if (files.backups index).isSome then .error .alreadyExists
  else .ok ((), { files with backups := Function.update files.backups index (some []) })

def fillBackup (index : Nat) (content : Text) (files : UpdateFiles) :
    Except Errno (Unit × UpdateFiles) :=
  .ok ((), { files with backups := Function.update files.backups index (some content) })

def copyOpenFileAndHash (source : Descriptor) (index : Nat) : EStateM Errno Files Text := do
  s.kernel.aside (newBackup index)
  let content ← s.kernel.readAll source
  s.kernel.aside (fillBackup index content)
  s.kernel.touch
  return s.digest content

inductive CopySource
  | staged (content : Text)
  | backup (index : Nat)

def openSource : CopySource → EStateM Errno Files Text
  | .staged content => s.kernel.aside fun files => .ok (content, files)
  | .backup index => s.kernel.aside fun files =>
    match files.backups index with
    | some content => .ok (content, files)
    | none => .error .noEntry

/-- `Uuid::new_v4` in the name of a temporary file. -/
def tempName : EStateM Errno Files Text := fun w =>
  .ok (s.temp w.clock) { w with clock := w.clock + 1 }

/-- The closure in `atomic_copy_at`. -/
def copyAndRename (source : CopySource) (parent : Descriptor) (temp name : Text)
    (uid gid mode : Nat) : EStateM Errno Files Unit := do
  let content ← openSource s source
  s.kernel.touch
  let output ← s.kernel.createNew parent temp s.created
  s.kernel.writeAll output content
  s.kernel.touch
  setFdOwnerMode s output uid gid mode
  s.kernel.touch
  s.kernel.rename parent temp name
  s.kernel.touch

def atomicCopyAt (source : CopySource) (parent : Descriptor) (name : Text) (uid gid mode : Nat) :
    EStateM Errno Files Unit := do
  let temp ← tempName s
  tryCatch (copyAndRename s source parent temp name uid gid mode) fun e => do
    let _ ← outcome (δ := Errno) (s.kernel.unlink parent temp)
    throw e

def unlinkFileAt (parent : Descriptor) (name : Text) : EStateM Errno Files Unit := do
  s.kernel.unlink parent name
  s.kernel.touch

/-! ### The backups -/

def checkTarget (change : PreparedChange) (metadata : Option Stat) : Except UpdateError Unit := do
  refuse (∃ stat ∈ metadata, regular stat = none) (.bad (.notRegular change.path))
  refuse (∃ stat ∈ metadata, ∃ attributes ∈ regular stat, attributes.mode &&& 0o111 ≠ 0)
    (.bad (.executable change.path))
  refuse (change.kind = .delete ∧ metadata = none) (.bad (.deleteMissing change.path))

def backUpTarget (parent : Descriptor) (name : Text) (index : Nat) (change : PreparedChange) :
    Option Stat → EStateM UpdateError Files (Option Text)
  | none => return none
  | some metadata => do
      let source ← EStateM.adaptExcept (fun _ => .bad (.changedDuringBackup change.path))
        (openRegularAt s parent name metadata)
      let sha256 ← EStateM.adaptExcept (fun _ => .internal .backUp)
        (copyOpenFileAndHash s source index)
      return some sha256

def backUpChange (root : Descriptor) (index : Nat) (change : PreparedChange) :
    EStateM UpdateError Files Backup := do
  let place ← EStateM.adaptExcept (fun _ => .bad .invalidAncestor)
    (openWorkspaceParent s root change.path)
  let metadata ← EStateM.adaptExcept (fun _ => .internal (.inspectTarget change.path))
    (inspectTarget s place.1 place.2)
  MonadExcept.ofExcept (checkTarget change metadata)
  let sha256 ← backUpTarget s place.1 place.2 index change metadata
  let attributes := (metadata.bind regular).getD ⟨s.taskUid, s.taskGid, 0o644⟩
  return {
    path := change.path
    staged := metadata.map fun _ => index
    original := metadata.map fun stat => stat.ino
    uid := attributes.uid
    gid := attributes.gid
    mode := attributes.mode &&& 0o777
    sha256 := sha256 }

def backUpChanges (root : Descriptor) : Nat → List PreparedChange →
    EStateM UpdateError Files (List Backup)
  | _, [] => return []
  | index, change :: rest => do
      let backup ← backUpChange s root index change
      let backups ← backUpChanges root (index + 1) rest
      return backup :: backups

/-! ### The mutation -/

def pushParent (parent : Descriptor) : EStateM UpdateError Files Unit :=
  modify fun w => w.withOwn { w.own with parents := w.own.parents ++ [parent] }

def mutateTarget (staged : Nat → Text) (parent : Descriptor) (name : Text) :
    PreparedKind → EStateM UpdateError Files Unit
  | .file index _ => EStateM.adaptExcept (fun _ => .internal .install)
      (atomicCopyAt s (.staged (staged index)) parent name s.taskUid s.taskGid 0o644)
  | .delete => EStateM.adaptExcept (fun _ => .internal .delete) (unlinkFileAt s parent name)

def mutateChange (staged : Nat → Text) (root : Descriptor) (change : PreparedChange)
    (backup : Backup) : EStateM UpdateError Files Unit := do
  checkCancelled s
  let place ← EStateM.adaptExcept (fun _ => .bad .invalidAncestor)
    (openWorkspaceParent s root change.path)
  validateTargetAt s place.1 place.2 backup
  pushParent place.1
  mutateTarget s staged place.1 place.2 change.kind

def mutateChanges (staged : Nat → Text) (root : Descriptor) :
    List (PreparedChange × Backup) → EStateM UpdateError Files Unit
  | [] => return ()
  | (change, backup) :: rest => do
      mutateChange s staged root change backup
      mutateChanges staged root rest

def verifyParents (root : Descriptor) :
    List (PreparedChange × Descriptor) → EStateM UpdateError Files Unit
  | [] => return ()
  | (change, held) :: rest => do
      verifyParentStillBeneath s root change.path held
      verifyParents root rest

def commitMetadata : EStateM UpdateError Files Unit :=
  EStateM.adaptExcept (fun _ => ⟨.internal, .commitRevision, false⟩)
    (s.kernel.aside fun files => .ok ((), { files with committed := true }))

def mutationParents {ε : Type} : EStateM ε Files (List Descriptor) := fun w =>
  .ok w.own.parents w

def mutation (staged : Nat → Text) (root : Descriptor) (changes : List PreparedChange)
    (backups : List Backup) : EStateM UpdateError Files Unit := do
  mutateChanges s staged root (changes.zip backups)
  let parents ← mutationParents
  verifyParents s root (changes.zip parents)
  checkCancelled s
  commitMetadata s

/-! ### The way back -/

def removeInstalled (parent : Descriptor) (name : Text) : Option Stat → EStateM Errno Files Unit
  | none => return ()
  | some stat =>
    if (regular stat).isSome then unlinkFileAt s parent name else throw .other

def restore (parent : Descriptor) (name : Text) (backup : Backup) (current : Option Stat) :
    Option Nat → EStateM Errno Files Unit
  | some index => do
      MonadExcept.ofExcept (refuse (∃ stat ∈ current, regular stat = none) .other)
      atomicCopyAt s (.backup index) parent name backup.uid backup.gid backup.mode
  | none => removeInstalled s parent name current

def rollbackChange (backup : Backup) (parent : Descriptor) : EStateM Errno Files Unit := do
  MonadExcept.ofExcept (refuse (nul ∈ finalName backup.path) .other)
  let current ← inspectTarget s parent (s.caseRule.fold (finalName backup.path))
  restore s parent (s.caseRule.fold (finalName backup.path)) backup current backup.staged

/-- The changes come with the last one first. -/
def rollback : List (Backup × Descriptor) → EStateM Errno Files Unit
  | [] => return ()
  | (backup, parent) :: rest => do
      rollbackChange s backup parent
      rollback rest

def afterRollback (err : UpdateError) : Except Errno Unit → UpdateError
  | .ok _ => err
  | .error _ => { err with rollbackProven := false, message := .rollbackFailed err.message }

def undo (backups : List Backup) (err : UpdateError) : EStateM UpdateError Files Unit := do
  let parents ← mutationParents
  let result ← outcome (rollback s ((backups.take parents.length).zip parents).reverse)
  throw (afterRollback err result)

/-! ### The call -/

/-- The backup of a target that is deleted has a hash, or there is a panic. -/
def evidence : List (PreparedChange × Backup) → Except UpdateError AppliedEvidence
  | [] => .ok ⟨[], []⟩
  | (change, backup) :: rest => do
      let more ← evidence rest
      match change.kind with
      | .file _ sha256 => .ok { more with changed := ⟨change.path, sha256⟩ :: more.changed }
      | .delete =>
        match backup.sha256 with
        | some sha256 => .ok { more with deleted := ⟨change.path, sha256⟩ :: more.deleted }
        | none => .error .workerPanicked

def createBackups : EStateM Errno Files Unit := do
  -- the directory and its mode
  s.kernel.touch
  s.kernel.touch

def applyUpdate (prepared : PreparedUpdate s.digest) : EStateM UpdateError Files AppliedEvidence := do
  checkCancelled s
  let root ← EStateM.adaptExcept (fun _ => .internal .openWorkspace) (openWorkspaceRoot s)
  EStateM.adaptExcept (fun _ => .internal .createBackups) (createBackups s)
  EStateM.adaptExcept (fun _ => .internal .prepareStaged) (prepareStagedFiles s prepared.changes)
  let backups ← backUpChanges s root 0 prepared.changes
  tryCatch (mutation s prepared.staged root prepared.changes backups) (undo s backups)
  MonadExcept.ofExcept (evidence (prepared.changes.zip backups))

/-- What the names of a path are to the file system. -/
def parentKey (relative : Text) : List Text :=
  (parentParts relative).map s.caseRule.fold

def pathKey (relative : Text) : List Text :=
  (relative.splitOn slash).map s.caseRule.fold

end

end IndenturedServer.SourceUpdates
