import IndenturedServer.Foundation.Program
import IndenturedServer.Source.Archive
import IndenturedServer.Source.Layout

/-!
How the client packages its sources.

The client plans which files and symlinks go into the archive, from the tree
that `jj` lists or from a walk over the file system, and checks the plan
(`validate_planned_entries`) with sets of its own. It then writes the entries
in the order of their paths and counts the bytes as it goes. What `jj` and the
file system answer is data here; a cancellation shows as a call that fails.

The limits are those of the client, whatever those of the server are.
-/

namespace IndenturedServer.Source.Client

open Foundation

def maxFiles : Nat := 50000
def maxDepth : Nat := 64
def maxUncompressedBytes : Nat := 1342177280

inductive EntryKind
  | file
  | symlink
  deriving DecidableEq, Repr

structure PlannedEntry where
  path : Text
  kind : EntryKind
  executable : Bool
  symlinkTarget : Option Text
  deriving DecidableEq, Repr

inductive PackageError
  /-- source entry count exceeds the client limit -/
  | entryCount
  /-- source bytes exceed the client limit -/
  | sourceBytes
  /-- source path is not a portable ASCII relative path -/
  | notPortable
  /-- source path is unsafe or exceeds the client depth limit -/
  | unsafePath
  /-- source contains duplicate or case-colliding paths -/
  | duplicatePath
  /-- source contains a file/directory path collision -/
  | pathCollision
  /-- unsafe symlink target for .. -/
  | unsafeTarget (linkPath : Text)
  /-- symlink target escapes source root: .. -> .. -/
  | targetEscapes (linkPath target : Text)
  /-- symlink target is not UTF-8 -/
  | targetNotUtf8
  /-- Jujutsu tree contains a conflict at .. -/
  | conflict (path : Text)
  /-- Jujutsu tree contains unsupported .. entry .. -/
  | unsupported (path : Text)
  /-- Jujutsu workspace did not materialize .. as a symlink -/
  | notMaterialized (path : Text)
  /-- missing Jujutsu symlink target -/
  | missingTarget
  /-- source changed while it was being packaged -/
  | sourceChanged
  /-- source symlink changed while it was being packaged -/
  | symlinkChanged
  /-- filesystem source manifest changed concurrently; retry after writers are quiescent -/
  | manifestChanged
  /-- The packaging was cancelled, or a call on the system failed. -/
  | io
  deriving DecidableEq, Repr

/-! ### Checks on names -/

def dotGit : Text := [dot, 0x67, 0x69, 0x74]
def dotJj : Text := [dot, 0x6a, 0x6a]

def validateArchivePath (path : Text) : Except PackageError Unit := do
  refuse (path = [] ∨ 4096 < path.length ∨ isAscii path = false ∨ backslash ∈ path ∨ nul ∈ path)
    .notPortable
  let parts := path.splitOn slash
  refuse (maxDepth < parts.length ∨
    (∃ part ∈ parts, part = [] ∨ part = [dot] ∨ part = [dot, dot] ∨
      toAsciiLowercase part = dotGit ∨ toAsciiLowercase part = dotJj) ∨
    ∃ c ∈ components path, c = .rootDir ∨ c = .curDir ∨ c = .parentDir) .unsafePath

def targetStays (linkPath target : Text) : Nat → List Component → Except PackageError Unit
  | _, [] => .ok ()
  | depth, .curDir :: rest => targetStays linkPath target depth rest
  | depth, .normal _ :: rest => targetStays linkPath target (depth + 1) rest
  | depth + 1, .parentDir :: rest => targetStays linkPath target depth rest
  | 0, .parentDir :: _ => .error (.targetEscapes linkPath target)
  | _, .rootDir :: _ => .error (.unsafeTarget linkPath)

def validateSymlinkTarget (linkPath target : Text) : Except PackageError Unit := do
  refuse (target = [] ∨ 4096 < target.length ∨ backslash ∈ target ∨ nul ∈ target ∨
    target.head? = some slash) (.unsafeTarget linkPath)
  targetStays linkPath target ((linkPath.splitOn slash).length - 1) (components target)

/-! ### The plan -/

/-- The variables of `validate_planned_entries`. Files and directories are
kept folded only. -/
structure Planner where
  exact : List Text := []
  folded : List Text := []
  files : List Text := []
  directories : List Text := []

namespace Planner

/-- The loop over the components of a path but the last. -/
def insertAncestors (s : Planner) (ancestor : Text) : List Text → Except PackageError Planner
  | [] => .ok s
  | part :: rest => do
      let ancestor := (if ancestor = [] then ancestor else ancestor ++ [slash]) ++ part
      let folded := toAsciiLowercase ancestor
      refuse (folded ∈ s.files) .pathCollision
      { s with directories := folded :: s.directories }.insertAncestors ancestor rest

/-- One turn of the loop. -/
def entry (s : Planner) (entry : PlannedEntry) : Except PackageError Planner := do
  validateArchivePath entry.path
  let lower := toAsciiLowercase entry.path
  refuse (entry.path ∈ s.exact ∨ lower ∈ s.folded) .duplicatePath
  let s ← { s with
    exact := entry.path :: s.exact
    folded := lower :: s.folded }.insertAncestors [] (entry.path.splitOn slash).dropLast
  refuse (lower ∈ s.directories) .pathCollision
  return { s with files := lower :: s.files }

end Planner

/-- The order of the bytes of the paths. -/
def sortByPath (entries : List PlannedEntry) : List PlannedEntry :=
  entries.insertionSort fun a b => a.path ≤ b.path

def validatePlannedEntries (entries : List PlannedEntry) :
    Except PackageError (List PlannedEntry) := do
  refuse (maxFiles < entries.length) .entryCount
  let entries := sortByPath entries
  let _ ← entries.foldlM Planner.entry {}
  return entries

/-! ### Writing the archive -/

/-- An entry as it is handed to the ZIP writer. -/
structure Written where
  name : Text
  mode : UInt32
  content : Text
  deriving DecidableEq, Repr

/-- The permissions of `regular_options`, with the type of a regular file. -/
def regularMode (executable : Bool) : UInt32 :=
  if executable then 0o100755 else 0o100644

def symlinkMode : UInt32 := 0o120777

def addTotal (total amount : Nat) : Except PackageError Nat := do
  let total := saturatingAdd total amount
  refuse (maxUncompressedBytes < total) .sourceBytes
  return total

/-- Copy a file into the archive; the count comes before each write. -/
def stream : Nat → List (Option Text) → Except PackageError (Nat × Text)
  | total, [] => .ok (total, [])
  | _, none :: _ => .error .io
  | total, some bytes :: rest =>
    if bytes = [] then .ok (total, [])
    else do
      let total ← addTotal total bytes.length
      let (total, more) ← stream total rest
      return (total, bytes ++ more)

/-- The package: what was planned, and what was written for it. -/
structure Package where
  planned : List PlannedEntry
  written : List Written

/-! ### From a Jujutsu tree -/

inductive JjType
  | file
  | symlink
  | conflict
  | gitSubmodule
  | other
  deriving DecidableEq, Repr

/-- A line of `jj file list`. -/
structure JjEntry where
  path : Text
  fileType : JjType
  executable : Bool
  conflict : Bool

/-- The answers of `jj`, by path. -/
structure Jujutsu where
  /-- The temporary workspace was added, and forgotten in the end. -/
  workspace : Bool
  /-- Whether the workspace has a symlink there. -/
  isSymlink : Text → Option Bool
  readLink : Text → Option Text
  /-- The output of `jj file show`. -/
  fileShow : Text → List (Option Text)

def planJjEntry (entry : JjEntry) : Except PackageError PlannedEntry := do
  refuse (entry.conflict = true ∨ entry.fileType = .conflict) (.conflict entry.path)
  let kind ← match entry.fileType with
    | .file => .ok EntryKind.file
    | .symlink => .ok EntryKind.symlink
    | _ => .error (.unsupported entry.path)
  validateArchivePath entry.path
  return { path := entry.path, kind := kind, executable := entry.executable, symlinkTarget := none }

/-- The target of one symlink, from the temporary workspace. -/
def populateTarget (jj : Jujutsu) (entry : PlannedEntry) : Except PackageError PlannedEntry :=
  match entry.kind with
  | .file => .ok entry
  | .symlink => do
      let some isSymlink := jj.isSymlink entry.path | throw .io
      refuse (isSymlink = false) (.notMaterialized entry.path)
      let some target := jj.readLink entry.path | throw .io
      refuse (isUtf8 target = false) .targetNotUtf8
      validateSymlinkTarget entry.path target
      return { entry with symlinkTarget := some target }

def populateJjSymlinkTargets (jj : Jujutsu) (entries : List PlannedEntry) :
    Except PackageError (List PlannedEntry) := do
  refuse ((∃ entry ∈ entries, entry.kind = .symlink) ∧ jj.workspace = false) .io
  entries.mapM (populateTarget jj)

def packageJjEntry (jj : Jujutsu) (s : Nat × List Written) (entry : PlannedEntry) :
    Except PackageError (Nat × List Written) :=
  match entry.kind with
  | .file => do
      let (total, content) ← stream s.1 (jj.fileShow entry.path)
      return (total, s.2 ++ [⟨entry.path, regularMode entry.executable, content⟩])
  | .symlink => do
      let some target := entry.symlinkTarget | throw .missingTarget
      let total ← addTotal s.1 target.length
      return (total, s.2 ++ [⟨entry.path, symlinkMode, target⟩])

def packageJj (jj : Jujutsu) (listing : List JjEntry) : Except PackageError Package := do
  let planned ← listing.mapM planJjEntry
  let planned ← validatePlannedEntries planned
  let planned ← populateJjSymlinkTargets jj planned
  let (_, written) ← planned.foldlM (packageJjEntry jj) (0, [])
  return { planned := planned, written := written }

/-! ### From the file system -/

/-- What the client looks at in the metadata of a file. -/
structure Metadata where
  dev : Nat
  ino : Nat
  isFile : Bool
  len : Nat
  mtime : Int
  mtimeNsec : Int
  deriving DecidableEq

/-- The answers of the file system, by path. -/
structure Filesystem where
  /-- The two walks, before and after. -/
  first : Except PackageError (List PlannedEntry)
  second : Except PackageError (List PlannedEntry)
  symlinkMetadata : Text → Option Metadata
  /-- The metadata of the opened file, before it is read and after. -/
  opened : Text → Option Metadata
  reads : Text → List (Option Text)
  after : Text → Option Metadata
  readLink : Text → Option Text

def packageFilesystemEntry (fs : Filesystem) (s : Nat × List Written) (entry : PlannedEntry) :
    Except PackageError (Nat × List Written) :=
  match entry.kind with
  | .file => do
      let some before := fs.symlinkMetadata entry.path | throw .io
      let some opened := fs.opened entry.path | throw .io
      refuse (before.dev ≠ opened.dev ∨ before.ino ≠ opened.ino ∨ opened.isFile = false)
        .sourceChanged
      let (total, content) ← stream s.1 (fs.reads entry.path)
      let some after := fs.after entry.path | throw .io
      refuse (opened.len ≠ after.len ∨ opened.mtime ≠ after.mtime ∨
        opened.mtimeNsec ≠ after.mtimeNsec) .sourceChanged
      return (total, s.2 ++ [⟨entry.path, regularMode entry.executable, content⟩])
  | .symlink => do
      let some target := fs.readLink entry.path | throw .io
      refuse (isUtf8 target = false) .targetNotUtf8
      refuse (entry.symlinkTarget ≠ some target) .symlinkChanged
      validateSymlinkTarget entry.path target
      let total ← addTotal s.1 target.length
      return (total, s.2 ++ [⟨entry.path, symlinkMode, target⟩])

def packageFilesystem (fs : Filesystem) : Except PackageError Package := do
  let first ← fs.first
  let first ← validatePlannedEntries first
  let (_, written) ← first.foldlM (packageFilesystemEntry fs) (0, [])
  let second ← fs.second
  refuse (first ≠ second) .manifestChanged
  return { planned := first, written := written }

/-! ### Either way -/

/-- Where the sources come from. -/
inductive Mode
  | jujutsu (jj : Jujutsu) (listing : List JjEntry)
  | filesystem (fs : Filesystem)

def package : Mode → Except PackageError Package
  | .jujutsu jj listing => packageJj jj listing
  | .filesystem fs => packageFilesystem fs

def Mode.bytes : Mode → Text → Text
  | .jujutsu jj _, path => content (jj.fileShow path)
  | .filesystem fs, path => content (fs.reads path)

/-- The target of a source symlink. -/
def Mode.target : Mode → Text → Option Text
  | .jujutsu jj _, path => jj.readLink path
  | .filesystem fs, path => fs.readLink path

end IndenturedServer.Source.Client
