import IndenturedServer.Artifacts.Matching
import IndenturedServer.Foundation.Reading

/-!
Collecting the artifacts of a workspace.

The walk goes by name, the reading by descriptor. `collect_artifacts_zip` opens
the root first, and when the walk is done it opens every matched file from
there, one component after the other, and compares the inode with the one
noted for the path. What goes into the archive is read from these descriptors.
Between any two calls others may change the workspace.

The archive is written under a temporary name and then renamed. Its directory
belongs to the server and is part of the program's own state.
-/

namespace IndenturedServer.Artifacts

open Foundation Source

/-- How a collection ends without a result. -/
inductive Halt
  | failed (error : ArtifactError)
  /-- The call that opens this path does not return. -/
  | waiting (relative : List Text)
  deriving DecidableEq, Repr

structure ArchivedFile where
  name : Text
  mode : Nat
  content : Text
  deriving DecidableEq, Repr

/-- The directory `storage_root/build_id`. -/
structure ArtifactStore where
  directory : Bool := false
  /-- `.artifacts.zip.tmp` -/
  temp : Option (List ArchivedFile) := none
  /-- `artifacts.zip` -/
  published : Option (List ArchivedFile) := none
  /-- What has been read: from which descriptor, from where in the file, which bytes. -/
  reads : List (Descriptor × Nat × Text) := []

abbrev Store := Machine Text ArtifactStore

structure CollectContext where
  kernel : Kernel Text ArtifactStore
  /-- What the path of the workspace leads to. -/
  buildRoot : Ino
  buildId : String
  globs : Globs
  walk : List WalkItem
  cancelled : Nat → Bool
  /-- Opening this special file at this time, the call waits. -/
  waits : Nat → Ino → Bool
  /-- The bytes that the ZIP writer has written with these entries. -/
  archiveSize : List ArchivedFile → Nat
  /-- The length of the file, which is less if the writer went back in it. -/
  archiveLength : List ArchivedFile → Nat := archiveSize

structure OpenedArtifact where
  file : Reading
  relative : List Text
  mode : Nat
  size : Nat
  deriving DecidableEq, Repr

structure ArtifactArchive where
  path : String
  size : Nat
  deriving DecidableEq, Repr

structure ArtifactCollection where
  archive : Option ArtifactArchive
  restrictions : Option ArtifactRestrictions
  deriving DecidableEq, Repr

def start (fs : Fs Text) : Store := { fs := fs, own := {} }

def check {α : Type} (x : Except ArtifactError α) : EStateM Halt Store α :=
  MonadExcept.ofExcept (x.mapError .failed)

/-- A system call, with the error that its failure is turned into. -/
def attempt {α : Type} (error : ArtifactError) (x : EStateM Errno Store α) : EStateM Halt Store α :=
  EStateM.adaptExcept (fun _ => .failed error) x

/-! ### The order of paths -/

def textLe : Text → Text → Bool
  | [], _ => true
  | _ :: _, [] => false
  | a :: s, b :: t => a < b || a = b && textLe s t

/-- The order of `PathBuf`, component by component. -/
def pathLe : List Text → List Text → Bool
  | [], _ => true
  | _ :: _, [] => false
  | a :: s, b :: t => if a = b then pathLe s t else textLe a b

section
variable (s : CollectContext) (spec : ArtifactSpec) (config : ArtifactsConfig)

def checkCancelled : EStateM Halt Store Unit := fun w =>
  if s.cancelled w.clock then .error (.failed .cancelled) { w with clock := w.clock + 1 }
  else .ok () { w with clock := w.clock + 1 }

/-! ### The walk -/

def openRoot : EStateM Errno Store Descriptor :=
  s.kernel.call fun now fs =>
    if fs.shape s.buildRoot = some .dir then .ok (⟨now, s.buildRoot⟩, fs, [])
    else .error .notDirectory

def traverse : Traversal → List WalkItem → EStateM Halt Store Traversal
  | t, [] => return t
  | t, item :: rest => do
      checkCancelled s
      let t ← check (visit s.globs spec config t item)
      traverse t rest

/-- The loop over the matched files, of which only the interruption is left. -/
def checkEach : List Matched → EStateM Halt Store Unit
  | [] => return ()
  | _ :: rest => do
      checkCancelled s
      checkEach rest

def applyRestrictedPatterns (matched : List Matched) :
    EStateM Halt Store (List Matched × Option ArtifactRestrictions) :=
  if config.restrictedPatterns = [] ∨ matched = [] then return (matched, none)
  else do
    check (compilePatterns s.globs .restrictedPatterns config.restrictedPatterns)
    checkEach s matched
    return (unrestricted s.globs config matched, restrictions s.globs config matched)

/-! ### Opening -/

def openComponents (relative : List Text) : Descriptor → List Text → EStateM Halt Store Reading
  | _, [] => throw (.failed (.unsupportedFile relative))
  | parent, [name] => do
      check (refuse (nul ∈ name) (.unsupportedFile relative))
      let some file ← attempt (.io .openBeneathRoot) (s.kernel.openReading s.waits parent name)
        | throw (.waiting relative)
      return file
  | parent, name :: next :: rest => do
      check (refuse (nul ∈ name) (.unsupportedFile relative))
      let child ← attempt (.io .openBeneathRoot) (s.kernel.openDirectory parent name)
      let metadata ← attempt (.io .inspectDirectory) (s.kernel.fstat child)
      check (refuse (metadata.kind ≠ .dir) (.unsupportedFile relative))
      openComponents relative child (next :: rest)

def openFileBeneath (root : Descriptor) (relative : List Text) : EStateM Halt Store Reading := do
  check (refuse (relative = [] ∨ ∃ part ∈ relative, component part ≠ some (.normal part))
    (.unsupportedFile relative))
  openComponents s relative root relative

/-- Mode and size of the file, if it is the one that the walk has met. -/
def sameFile (m : Matched) (metadata : Stat) : Except ArtifactError (Nat × Nat) :=
  match metadata.kind with
  | .file attributes size =>
    if metadata.ino = m.identity then .ok (attributes.mode, size)
    else .error (.unsupportedFile m.relative)
  | _ => .error (.unsupportedFile m.relative)

def openMatchedArtifact (root : Descriptor) (m : Matched) :
    EStateM Halt Store OpenedArtifact := do
  checkCancelled s
  let file ← openFileBeneath s root m.relative
  let metadata ← attempt (.io .inspectOpened) (s.kernel.fstatReading file)
  let (mode, size) ← check (sameFile m metadata)
  attempt (.io .rewindOpened) s.kernel.touch
  return ⟨file, m.relative, mode, size⟩

def openEach (root : Descriptor) : List Matched → EStateM Halt Store (List OpenedArtifact)
  | [] => return []
  | m :: rest => do
      let artifact ← openMatchedArtifact s root m
      let artifacts ← openEach root rest
      return artifact :: artifacts

def sortMatched (matched : List Matched) : List Matched :=
  matched.insertionSort fun a b => pathLe a.relative b.relative

def openMatchedArtifacts (root : Descriptor) (matched : List Matched) :
    EStateM Halt Store (List OpenedArtifact) :=
  openEach s root (sortMatched matched)

def totalUncompressedBytes (opened : List OpenedArtifact) : Nat :=
  opened.foldl (fun total artifact => saturatingAdd total artifact.size) 0

/-! ### Writing -/

/-- The name of an entry: `to_string_lossy().replace('\\', "/")`. -/
def archiveName (relative : List Text) : Text :=
  (toStringLossy relative).map fun b => if b = backslash then slash else b

/-- `unix_permissions(mode)`, on a regular file. -/
def archiveMode (mode : Nat) : Nat :=
  0o100000 ||| (mode &&& 0o777)

/-- The archive so far; the writer fails rather than exceed the limit. -/
def writeZip (error : ArtifactError) (files : List ArchivedFile) : EStateM Halt Store Unit := do
  check (refuse (config.maxTransferBytes < s.archiveSize files)
    (.transferTooLarge config.maxTransferBytes))
  attempt error (s.kernel.aside fun own => .ok ((), { own with temp := some files }))

def readArtifact (file : Reading) (offset : Nat) : EStateM Halt Store Text := do
  let bytes ← attempt (.io .read) (s.kernel.readAt file.descriptor offset 8192)
  modify fun w => w.withOwn { w.own with reads := w.own.reads ++ [(file.descriptor, offset, bytes)] }
  return bytes

/-- The loop that copies a file. Every turn but the last reads a byte at least,
so that the limit on the bytes is one on the turns. -/
def copyArtifact (files : List ArchivedFile) (name : Text) (mode : Nat) (file : Reading) :
    Nat → Text → Nat → EStateM Halt Store (Text × Nat)
  | 0, _, _ => throw (.failed (.uncompressedTooLarge config.maxUncompressedBytes))
  | fuel + 1, content, uncompressed => do
      checkCancelled s
      let bytes ← readArtifact s file content.length
      if bytes = [] then return (content, uncompressed)
      else do
        check (refuse (config.maxUncompressedBytes < saturatingAdd uncompressed bytes.length)
          (.uncompressedTooLarge config.maxUncompressedBytes))
        writeZip s config (.io .write) (files ++ [⟨name, mode, content ++ bytes⟩])
        copyArtifact files name mode file fuel (content ++ bytes)
          (saturatingAdd uncompressed bytes.length)

def writeArtifacts : List ArchivedFile → Nat → List OpenedArtifact →
    EStateM Halt Store (List ArchivedFile)
  | files, _, [] => return files
  | files, uncompressed, artifact :: rest => do
      checkCancelled s
      check (refuse (archiveName artifact.relative ∈ files.map ArchivedFile.name) .zip)
      writeZip s config .zip (files ++ [⟨archiveName artifact.relative, archiveMode artifact.mode, []⟩])
      attempt (.io .rewind) s.kernel.touch
      let (content, uncompressed) ← copyArtifact s config files (archiveName artifact.relative)
        (archiveMode artifact.mode) artifact.file (config.maxUncompressedBytes + 1) [] uncompressed
      writeArtifacts (files ++ [⟨archiveName artifact.relative, archiveMode artifact.mode, content⟩])
        uncompressed rest

def sortOpened (opened : List OpenedArtifact) : List OpenedArtifact :=
  opened.insertionSort fun a b => pathLe a.relative b.relative

/-- The archive, and the length of its file. -/
def fillArchive (opened : List OpenedArtifact) : EStateM Halt Store Nat := do
  attempt (.io .createZip) (s.kernel.aside fun own => .ok ((), { own with temp := some [] }))
  let files ← writeArtifacts s config [] 0 (sortOpened opened)
  -- the central directory
  writeZip s config .zip files
  attempt (.io .flush) s.kernel.touch
  attempt (.io .stat) s.kernel.touch
  return s.archiveLength files

def removeTemp : EStateM Errno Store Unit :=
  s.kernel.aside fun own => .ok ((), { own with temp := none })

def writeArtifactsZip (opened : List OpenedArtifact) : EStateM Halt Store Nat :=
  tryCatch (fillArchive s config opened) fun e => do
    let _ ← outcome (removeTemp s)
    throw e

/-! ### The whole -/

def createDirectory : EStateM Halt Store Unit := do
  attempt (.io .createDirectory)
    (s.kernel.aside fun own => .ok ((), { own with directory := true }))
  attempt (.io .protectDirectory) s.kernel.touch

def renameArchive : EStateM Errno Store Unit :=
  s.kernel.aside fun own => .ok ((), { own with temp := none, published := own.temp })

def publish (opened : List OpenedArtifact) : EStateM Halt Store Nat := do
  checkCancelled s
  let size ← writeArtifactsZip s config opened
  attempt (.io .protectArchive) s.kernel.touch
  checkCancelled s
  attempt (.io .publish) (renameArchive s)
  checkCancelled s
  return size

def removeDirectory : EStateM Errno Store Unit :=
  s.kernel.aside fun own =>
    .ok ((), { own with directory := false, temp := none, published := none })

/-- What is done with the files that are open. -/
def archiveOpened (opened : List OpenedArtifact) : EStateM Halt Store Nat := do
  check (refuse (config.maxUncompressedBytes < totalUncompressedBytes opened)
    (.uncompressedTooLarge config.maxUncompressedBytes))
  createDirectory s
  tryCatch (publish s config opened) fun e => do
    let _ ← outcome (removeDirectory s)
    throw e

/-- What is done with the files that the walk has matched. -/
def archiveMatched (root : Descriptor) (matched : List Matched)
    (restrictions : Option ArtifactRestrictions) : EStateM Halt Store ArtifactCollection :=
  if matched = [] then return ⟨none, restrictions⟩
  else do
    check (validateArtifactCountAndDepth config matched)
    let opened ← openMatchedArtifacts s root matched
    let size ← archiveOpened s config opened
    return ⟨some ⟨s!"/v1/builds/{s.buildId}/artifacts.zip", size⟩, restrictions⟩

def collectArtifactsZip : EStateM Halt Store ArtifactCollection := do
  checkCancelled s
  if spec.includes = [] then return ⟨none, none⟩
  else do
    let root ← attempt (.io .openRoot) (openRoot s)
    checkCancelled s
    check (compilePatterns s.globs .excludes (excludePatterns spec))
    check (compilePatterns s.globs .includes spec.includes)
    let t ← traverse s spec config {} (walked spec s.walk)
    let (matched, restrictions) ← applyRestrictedPatterns s config t.matched
    archiveMatched s config root matched restrictions

end

end IndenturedServer.Artifacts
