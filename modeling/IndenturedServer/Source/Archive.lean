import Mathlib

/-!
Source archives and the pass that decides whether to accept one.

`preflight_source_archive` goes over the entries of a ZIP file before anything
is written. It keeps six sets of paths, three of them folded to lower case, and
fails on the first entry that does not fit with those before it. The model
follows it entry by entry, down to the strings that it builds for the
ancestors of a path; a string is the list of its bytes.

What a ZIP reader returns for an entry is data here: its name, its kind, its
mode, the size that the archive declares, and the results of reading it.
-/

namespace IndenturedServer.Source

/-- A name, a path or the target of a link, as its bytes. -/
abbrev Text := List UInt8

instance : LawfulBEq Text :=
  inferInstance

def slash : UInt8 := 0x2f
def dot : UInt8 := 0x2e
def backslash : UInt8 := 0x5c
def nul : UInt8 := 0

/-- The failures of the two passes. All have the code `source_archive` but for
the first two. -/
inductive SourceError
  /-- `stream_closed`: session initialization was cancelled -/
  | cancelled
  /-- `session_lifetime`: session maximum lifetime expired during initialization -/
  | lifetimeExpired
  /-- failed to open source archive, failed to read source archive -/
  | unreadableArchive
  /-- failed to read zip entry -/
  | unreadableEntry
  /-- source entry count exceeds sources.max_files (..) -/
  | tooManyEntries (maxFiles : Nat)
  /-- zip entry had invalid path -/
  | invalidPath
  /-- source path depth exceeds sources.max_depth (..) -/
  | tooDeep (maxDepth : Nat)
  /-- symlink entry is missing Unix mode -/
  | missingUnixMode
  /-- zip entry has an unsupported special file type -/
  | unsupportedType
  /-- zip contains duplicate or case-colliding paths -/
  | duplicatePath
  /-- zip contains a file/directory path collision -/
  | pathCollision
  /-- read symlink target failed -/
  | unreadableTarget
  /-- symlink target exceeds 4096 bytes -/
  | targetTooLong
  /-- symlink target is not UTF-8 -/
  | targetNotUtf8
  /-- unsafe symlink target for .. -/
  | unsafeTarget (linkPath : Text)
  /-- symlink target escapes source root: .. -> .. -/
  | targetEscapes (linkPath target : Text)
  /-- declared size exceeds sources.max_uncompressed_bytes (.. bytes) -/
  | declaredSize (maxUncompressedBytes : Nat)
  /-- extracted size exceeds sources.max_uncompressed_bytes, with the limit for a
  file and without it for a symlink -/
  | extractedSize (maxUncompressedBytes : Option Nat)
  /-- mkdir failed -/
  | mkdir
  /-- set permissions failed -/
  | setPermissions
  /-- create symlink failed -/
  | createSymlink
  /-- create file failed -/
  | createFile
  /-- read zip entry failed -/
  | readEntry
  /-- write file failed -/
  | writeFile
  deriving DecidableEq, Repr

/-- The limits of the `sources` section of the configuration. -/
structure Limits where
  maxUncompressedBytes : Nat
  maxFiles : Nat
  maxDepth : Nat

/-- An entry of the archive, as the ZIP reader returns it. -/
structure Entry where
  name : Text
  isDir : Bool
  isSymlink : Bool
  unixMode : Option UInt32
  /-- The declared size, which the content need not have. -/
  size : UInt64
  /-- What successive reads yield: some bytes, none at the end, or a failure. -/
  reads : List (Option Text)

/-- Addition on `u64` (and `usize`) that stops at the largest value. -/
def saturatingAdd (a b : Nat) : Nat :=
  min (a + b) (2 ^ 64 - 1)

/-- The condition of an early return. -/
def failIf (c : Prop) [Decidable c] (e : SourceError) : Except SourceError Unit :=
  if c then .error e else .ok ()

/-! ### Paths -/

def asciiLower (b : UInt8) : UInt8 :=
  if 0x41 ≤ b ∧ b ≤ 0x5a then b + 0x20 else b

def toAsciiLowercase (text : Text) : Text :=
  text.map asciiLower

def isAscii (text : Text) : Bool :=
  text.all (· < 0x80)

inductive Component
  | rootDir
  | curDir
  | parentDir
  | normal (name : Text)
  deriving DecidableEq, Repr

/-- A part between two slashes; `.` and repeated slashes disappear. -/
def component (part : Text) : Option Component :=
  if part = [] ∨ part = [dot] then none
  else if part = [dot, dot] then some .parentDir
  else some (.normal part)

/-- A leading `.` is kept, as the current directory. -/
def components (path : Text) : List Component :=
  match path.splitOn slash with
  | [] :: rest => if rest = [] then [] else .rootDir :: rest.filterMap component
  | first :: rest =>
    (if first = [dot] then [.curDir] else (component first).toList) ++ rest.filterMap component
  | [] => []

def normalizedZipPath (name : Text) (isDir : Bool) (maxDepth : Nat) : Except SourceError Text := do
  failIf (name = [] ∨ backslash ∈ name ∨ nul ∈ name ∨ isAscii name = false) .invalidPath
  let trimmed := if isDir then name.rdropWhile (· == slash) else name
  failIf (trimmed = [] ∨ ∃ part ∈ trimmed.splitOn slash, part = [] ∨ part = [dot]) .invalidPath
  failIf (∃ c ∈ components trimmed, c = .rootDir ∨ c = .parentDir) .invalidPath
  failIf (maxDepth < (trimmed.splitOn slash).length) (.tooDeep maxDepth)
  return trimmed

def validateZipType (mode : Option UInt32) (isDir isSymlink : Bool) : Except SourceError Unit :=
  match mode with
  | none => failIf (isSymlink = true) .missingUnixMode
  | some mode =>
    let kind := mode &&& 0o170000
    let expected := if isDir then 0o040000 else if isSymlink then 0o120000 else 0o100000
    failIf (kind ≠ 0 ∧ kind ≠ expected) .unsupportedType

/-! ### Symlink targets -/

def inRange (low high b : UInt8) : Bool :=
  low ≤ b && b ≤ high

def isContinuation (b : UInt8) : Bool :=
  inRange 0x80 0xbf b

/-- The check of `str::from_utf8`: no overlong form, no surrogate, nothing
above U+10FFFF. -/
def isUtf8 : Text → Bool
  | [] => true
  | a :: rest =>
    if a < 0x80 then isUtf8 rest
    else match rest with
      | b :: rest =>
        if inRange 0xc2 0xdf a then isContinuation b && isUtf8 rest
        else match rest with
          | c :: rest =>
            if inRange 0xe0 0xef a then
              inRange (if a = 0xe0 then 0xa0 else 0x80) (if a = 0xed then 0x9f else 0xbf) b &&
              isContinuation c && isUtf8 rest
            else match rest with
              | d :: rest =>
                inRange 0xf0 0xf4 a &&
                inRange (if a = 0xf0 then 0x90 else 0x80) (if a = 0xf4 then 0x8f else 0xbf) b &&
                isContinuation c && isContinuation d && isUtf8 rest
              | [] => false
          | [] => false
      | [] => false

/-- `take(limit).read_to_end`: the bytes up to the end or the limit, unless a
read before that fails. -/
def readToEnd : Nat → List (Option Text) → Option Text
  | _, [] => some []
  | _, some [] :: _ => some []
  | 0, _ => some []
  | limit, some chunk :: rest =>
    if limit ≤ chunk.length then some (chunk.take limit)
    else (readToEnd (limit - chunk.length) rest).map (chunk ++ ·)
  | _, none :: _ => none

/-- The loop over the components of a target, with the depth of the directory
that they lead to. -/
def targetStays (linkPath target : Text) : Nat → List Component → Except SourceError Unit
  | _, [] => .ok ()
  | depth, .curDir :: rest => targetStays linkPath target depth rest
  | depth, .normal _ :: rest => targetStays linkPath target (depth + 1) rest
  | depth + 1, .parentDir :: rest => targetStays linkPath target depth rest
  | 0, .parentDir :: _ => .error (.targetEscapes linkPath target)
  | _, .rootDir :: _ => .error (.unsafeTarget linkPath)

def validateSymlinkTarget (linkPath target : Text) : Except SourceError Unit := do
  failIf (target = [] ∨ 4096 < target.length ∨ backslash ∈ target ∨ nul ∈ target ∨
    target.head? = some slash) (.unsafeTarget linkPath)
  targetStays linkPath target ((linkPath.splitOn slash).length - 1) (components target)

/-! ### The preflight -/

/-- The variables of `preflight_source_archive`. -/
structure Preflight where
  exact : List Text := []
  folded : List Text := []
  files : List Text := []
  directories : List Text := []
  foldedFiles : List Text := []
  foldedDirectories : List Text := []
  declaredBytes : Nat := 0
  entryCount : Nat := 0

namespace Preflight

/-- The path of an entry is new. -/
def insertPath (s : Preflight) (normalized : Text) : Except SourceError Preflight := do
  failIf (normalized ∈ s.exact ∨ toAsciiLowercase normalized ∈ s.folded) .duplicatePath
  return { s with
    exact := normalized :: s.exact
    folded := toAsciiLowercase normalized :: s.folded }

/-- The path is not that of a file, and from now on it is that of a directory. -/
def insertDirectory (s : Preflight) (path : Text) : Except SourceError Preflight := do
  failIf (path ∈ s.files ∨ toAsciiLowercase path ∈ s.foldedFiles) .pathCollision
  return { s with
    directories := path :: s.directories
    foldedDirectories := toAsciiLowercase path :: s.foldedDirectories }

/-- The loop over the components of a path but the last. -/
def insertAncestors (s : Preflight) (ancestor : Text) :
    List Text → Except SourceError Preflight
  | [] => .ok s
  | part :: rest => do
      let ancestor := (if ancestor = [] then ancestor else ancestor ++ [slash]) ++ part
      let s ← s.insertDirectory ancestor
      s.insertAncestors ancestor rest

/-- How much a file or a symlink adds to the declared size. -/
def declares (entry : Entry) (normalized : Text) : Except SourceError Nat :=
  if entry.isSymlink then do
    let some target := readToEnd 4097 entry.reads | throw .unreadableTarget
    failIf (4096 < target.length) .targetTooLong
    failIf (isUtf8 target = false) .targetNotUtf8
    validateSymlinkTarget normalized target
    return target.length
  else
    return entry.size.toNat

/-- A file or a symlink: its path is not that of a directory. -/
def insertFile (limits : Limits) (s : Preflight) (entry : Entry) (normalized : Text) :
    Except SourceError Preflight := do
  failIf (normalized ∈ s.directories ∨ toAsciiLowercase normalized ∈ s.foldedDirectories)
    .pathCollision
  let bytes ← declares entry normalized
  let declaredBytes := saturatingAdd s.declaredBytes bytes
  failIf (limits.maxUncompressedBytes < declaredBytes) (.declaredSize limits.maxUncompressedBytes)
  return { s with
    files := normalized :: s.files
    foldedFiles := toAsciiLowercase normalized :: s.foldedFiles
    declaredBytes := declaredBytes }

/-- One turn of the loop. -/
def entry (limits : Limits) (s : Preflight) (entry : Entry) : Except SourceError Preflight := do
  let entryCount := saturatingAdd s.entryCount 1
  failIf (limits.maxFiles < entryCount) (.tooManyEntries limits.maxFiles)
  let normalized ← normalizedZipPath entry.name entry.isDir limits.maxDepth
  validateZipType entry.unixMode entry.isDir entry.isSymlink
  let s ← { s with entryCount := entryCount }.insertPath normalized
  let s ← s.insertAncestors [] (normalized.splitOn slash).dropLast
  if entry.isDir then s.insertDirectory normalized else s.insertFile limits entry normalized

end Preflight

/-- The verdict on the entries, when nothing interrupts the pass. -/
def accepts (limits : Limits) (entries : List Entry) : Except SourceError Preflight :=
  entries.foldlM (Preflight.entry limits) {}

end IndenturedServer.Source
