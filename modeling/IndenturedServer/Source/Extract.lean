import IndenturedServer.Foundation.FileCalls
import IndenturedServer.Source.Archive

/-!
Extraction of a source archive into an empty directory.

`extract_source_archive_inner` runs the preflight, opens the archive again and
writes its entries one after the other. The directory is a `Tree`, and every
call that the extraction makes on it is logged with what it came across. A
name is looked up as the file system compares names: as it is, or folded to
lower case.

The rest of the world is an `Environment`: at each of its interactions the
extraction may be cancelled, run past its deadline, or be refused (a
permission, a failing disk), and a write that fails may have written a part.
-/

namespace IndenturedServer.Source

open Foundation

/-! ### The world -/

/-- How the file system compares names. -/
inductive CaseRule
  | sensitive
  | asciiInsensitive
  deriving DecidableEq, Repr

def CaseRule.fold : CaseRule → Text → Text
  | .sensitive, name => name
  | .asciiInsensitive, name => toAsciiLowercase name

inductive Fault
  | cancelled
  | expired
  /-- The call fails, a write after some bytes. -/
  | fails (bytes : Nat)
  deriving DecidableEq, Repr

structure Environment where
  caseRule : CaseRule
  /-- How many links the kernel follows in one path. -/
  maxLinks : Nat
  /-- The bytes that the volume has room for. -/
  capacity : Nat
  capacity_lt : capacity < 2 ^ 64
  /-- What goes wrong at the n-th interaction. -/
  fault : Nat → Option Fault

structure World where
  tree : Tree Text Text := Tree.empty
  /-- The calls so far, with what they came across. -/
  log : List (Access Text) := []
  /-- The bytes of content written so far, symlink targets included. -/
  written : Nat := 0
  clock : Nat := 0

def Component.move (rule : CaseRule) : Component → Option (Move Text)
  | .rootDir => some .root
  | .curDir => none
  | .parentDir => some .up
  | .normal name => some (.into (rule.fold name))

/-- A path as the kernel takes it. -/
def moves (rule : CaseRule) (path : Text) : List (Move Text) :=
  (components path).filterMap (Component.move rule)

/-- What an interaction does if the environment lets it. -/
def World.tick (w : World) : World :=
  { w with clock := w.clock + 1 }

section
variable (env : Environment)

/-! ### Interactions -/

def checkOptionalInitializationCancel : EStateM SourceError World Unit := fun w =>
  match env.fault w.clock with
  | some .cancelled => .error .cancelled w.tick
  | some .expired => .error .lifetimeExpired w.tick
  | _ => .ok () w.tick

/-- A question to the ZIP reader. -/
def askArchive (e : SourceError) : EStateM SourceError World Unit := fun w =>
  match env.fault w.clock with
  | some (.fails _) => .error e w.tick
  | _ => .ok () w.tick

/-- A system call on a path. -/
def call (f : Tree Text Text → Except Errno (Tree Text Text) × Access Text) :
    EStateM Errno World (Access Text) := fun w =>
  match env.fault w.clock with
  | some (.fails _) => .error .other w.tick
  | _ =>
    match f w.tree with
    | (.ok tree, access) => .ok access { w.tick with tree := tree, log := access :: w.log }
    | (.error e, access) => .error e { w.tick with log := access :: w.log }

def make (c : Call) (node : Node Text) (path : List (Move Text)) : EStateM Errno World (Access Text) :=
  call env fun tree => create (moves env.caseRule) env.maxLinks c node tree path

def mkdir (path : List (Move Text)) : EStateM Errno World Unit := do
  let _ ← make env .mkdir (.dir none) path

/-- `Path::is_dir`, which is false when the question fails. -/
def isDir (path : List (Move Text)) : EStateM Errno World Bool := fun w =>
  match env.fault w.clock with
  | some (.fails _) => .ok false w.tick
  | _ =>
    let (found, access) := stat (moves env.caseRule) env.maxLinks w.tree path
    .ok (found = some .dir) { w.tick with log := access :: w.log }

/-- An error of `mkdir` does not matter if there is a directory already. -/
def orIsDir (path : List (Move Text)) (e : Errno) : EStateM Errno World Unit := do
  if ← isDir env path then pure () else throw e

/-- `create_dir_all`, on the path from its end. -/
def createDirAllFrom : List (Move Text) → EStateM Errno World Unit
  | [] => tryCatch (mkdir env []) (orIsDir env [])
  | move :: up =>
    let path := (move :: up).reverse
    tryCatch (mkdir env path) fun e =>
      if e = .noEntry then do
        createDirAllFrom up
        tryCatch (mkdir env path) (orIsDir env path)
      else orIsDir env path e

def createDirAll (path : List (Move Text)) : EStateM Errno World Unit :=
  createDirAllFrom env path.reverse

/-- Open a new file for writing; the handle is the place of the file. -/
def createNew (path : List (Move Text)) : EStateM Errno World (List Text) := do
  let access ← make env .createNew (.file [] none) path
  return access.place.getD []

def World.append (w : World) (handle : List Text) (bytes : Text) : World :=
  match w.tree handle with
  | some (.file content mode) =>
    { w with
      tree := w.tree.set handle (.file (content ++ bytes) mode)
      written := w.written + bytes.length }
  | _ => w

/-- `write_all`: all the bytes, or an error after some of them. -/
def writeAll (handle : List Text) (bytes : Text) : EStateM Errno World Unit := fun w =>
  let room := env.capacity - w.written
  match env.fault w.clock with
  | some (.fails n) => .error .other (w.tick.append handle ((bytes.take n).take room))
  | _ =>
    if bytes.length ≤ room then .ok () (w.tick.append handle bytes)
    else .error .noSpace (w.tick.append handle (bytes.take room))

def makeLink (target : Text) (path : List (Move Text)) : EStateM Errno World Unit := do
  let _ ← make env .symlink (.link target) path
  modify fun w => { w with written := w.written + target.length }

/-- The target is content too, and needs room. -/
def symlink (target : Text) (path : List (Move Text)) : EStateM Errno World Unit := fun w =>
  if env.capacity - w.written < target.length then .error .noSpace w.tick
  else makeLink env target path w

def setPermissions (mode : UInt32) (path : List (Move Text)) : EStateM Errno World Unit := do
  let _ ← call env fun tree =>
    chmod (moves env.caseRule) env.maxLinks (mode &&& 0o777).toNat tree path

/-! ### The two passes -/

def preflightSourceArchive (limits : Limits) (entries : List Entry) :
    EStateM SourceError World Unit := do
  askArchive env .unreadableArchive
  let _ ← entries.foldlM (fun s entry => do
    checkOptionalInitializationCancel env
    askArchive env .unreadableEntry
    MonadExcept.ofExcept (Preflight.entry limits s entry)) ({} : Preflight)

/-- The loop that copies an entry into its file. -/
def copyEntry (limits : Limits) (handle : List Text) :
    Nat → List (Option Text) → EStateM SourceError World Nat
  | extracted, reads => do
      checkOptionalInitializationCancel env
      match reads with
      | [] => return extracted
      | none :: _ => throw .readEntry
      | some bytes :: rest =>
        if bytes = [] then return extracted
        let extracted := saturatingAdd extracted bytes.length
        MonadExcept.ofExcept (failIf (limits.maxUncompressedBytes < extracted)
          (.extractedSize (some limits.maxUncompressedBytes)))
        EStateM.adaptExcept (fun _ => .writeFile) (writeAll env handle bytes)
        copyEntry limits handle extracted rest

def applyMode (entry : Entry) (output : List (Move Text)) : EStateM SourceError World Unit :=
  match entry.unixMode with
  | none => return ()
  | some mode => EStateM.adaptExcept (fun _ => .setPermissions) (setPermissions env mode output)

def extractSymlink (limits : Limits) (entry : Entry) (normalized : Text)
    (output : List (Move Text)) (extracted : Nat) : EStateM SourceError World Nat := do
  let some target := readToEnd 4097 entry.reads | throw .unreadableTarget
  let extracted := saturatingAdd extracted target.length
  MonadExcept.ofExcept (failIf (limits.maxUncompressedBytes < extracted) (.extractedSize none))
  MonadExcept.ofExcept (failIf (isUtf8 target = false) .targetNotUtf8)
  MonadExcept.ofExcept (validateSymlinkTarget normalized target)
  EStateM.adaptExcept (fun _ => .createSymlink) (symlink env target output)
  return extracted

def extractFile (limits : Limits) (entry : Entry) (output : List (Move Text)) (extracted : Nat) :
    EStateM SourceError World Nat := do
  let handle ← EStateM.adaptExcept (fun _ => .createFile) (createNew env output)
  let extracted ← copyEntry env limits handle extracted entry.reads
  applyMode env entry output
  return extracted

/-- One turn of the loop; the value is `extracted_bytes`. -/
def extractEntry (limits : Limits) (extracted : Nat) (entry : Entry) :
    EStateM SourceError World Nat := do
  checkOptionalInitializationCancel env
  askArchive env .unreadableEntry
  let normalized ← MonadExcept.ofExcept
    (normalizedZipPath entry.name entry.isDir limits.maxDepth)
  let output := moves env.caseRule normalized
  if entry.isDir then
    EStateM.adaptExcept (fun _ => .mkdir) (createDirAll env output)
    applyMode env entry output
    return extracted
  else
    EStateM.adaptExcept (fun _ => .mkdir) (createDirAll env output.dropLast)
    if entry.isSymlink then extractSymlink env limits entry normalized output extracted
    else extractFile env limits entry output extracted

def extractSourceArchiveInner (limits : Limits) (entries : List Entry) :
    EStateM SourceError World Unit := do
  checkOptionalInitializationCancel env
  preflightSourceArchive env limits entries
  askArchive env .unreadableArchive
  let _ ← entries.foldlM (extractEntry env limits) 0

end

end IndenturedServer.Source
