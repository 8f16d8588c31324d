import IndenturedServer.Foundation.Descriptors
import IndenturedServer.Source.Accepted

/-!
Which files of a workspace are artifacts.

`collect_artifacts_zip` walks over the workspace by name. It compares the
paths that it meets with the patterns of the action, and notes for each file
that is wanted the inode that `lstat` finds at its path. The walk is an
argument of the functions here: others may change the workspace while it goes
on, so that nothing is known about what it meets.

A path is the list of its components. Where the code makes a string of it,
bytes that are not UTF-8 are replaced.
-/

namespace IndenturedServer.Artifacts

open Foundation Source

/-! ### Failures -/

inductive IoContext
  /-- open artifact root -/
  | openRoot
  /-- walk artifact root -/
  | walkRoot
  /-- inspect artifact path -/
  | inspectPath
  /-- open artifact beneath root -/
  | openBeneathRoot
  /-- inspect artifact directory -/
  | inspectDirectory
  /-- inspect opened artifact -/
  | inspectOpened
  /-- rewind opened artifact -/
  | rewindOpened
  /-- create artifact directory -/
  | createDirectory
  /-- protect artifact directory -/
  | protectDirectory
  /-- create artifacts.zip -/
  | createZip
  /-- rewind artifact -/
  | rewind
  /-- read artifact -/
  | read
  /-- write artifact -/
  | write
  /-- flush artifact archive -/
  | flush
  /-- stat artifact archive -/
  | stat
  /-- protect artifact archive -/
  | protectArchive
  /-- publish artifact archive -/
  | publish
  deriving DecidableEq, Repr

inductive PatternField
  /-- artifacts.exclude -/
  | excludes
  /-- artifacts.include -/
  | includes
  /-- artifacts.restricted_patterns -/
  | restrictedPatterns
  deriving DecidableEq, Repr

/-- The failures of `validate_relative_pattern`. -/
inductive PatternProblem
  | emptyValue
  | pathNotRelative
  | pathHasParent
  deriving DecidableEq, Repr

inductive ArtifactError
  /-- invalid artifact glob pattern .. -/
  | globPattern (pattern : Text)
  /-- artifact path .. is outside build root -/
  | outsideRoot
  /-- artifact io error (..) -/
  | io (context : IoContext)
  /-- failed to zip artifacts -/
  | zip
  /-- invalid artifact pattern: .. -/
  | invalidPattern (field : PatternField) (problem : PatternProblem)
  /-- artifact archive exceeds artifacts.max_transfer_bytes (.. bytes) -/
  | transferTooLarge (maxBytes : Nat)
  /-- artifact contents exceed artifacts.max_uncompressed_bytes (.. bytes) -/
  | uncompressedTooLarge (maxBytes : Nat)
  /-- artifact file count exceeds artifacts.max_files (..) -/
  | tooManyFiles (maxFiles : Nat)
  /-- artifact path depth exceeds artifacts.max_depth (..) -/
  | tooDeep (maxDepth : Nat)
  /-- artifact snapshot cancelled -/
  | cancelled
  /-- artifact path .. is a symlink or unsupported special file -/
  | unsupportedFile (path : List Text)
  deriving DecidableEq, Repr

structure ArtifactSpec where
  includes : List Text
  excludes : List Text := []

/-- The section `artifacts` of the configuration, with its defaults. -/
structure ArtifactsConfig where
  maxTransferBytes : Nat := 512 * 1024 * 1024
  maxUncompressedBytes : Nat := 2 * 1024 * 1024 * 1024
  maxFiles : Nat := 10000
  maxDepth : Nat := 64
  restrictedPatterns : List Text := []

/-! ### Paths as strings -/

/-- U+FFFD in UTF-8. -/
def replacement : Text := [0xef, 0xbf, 0xbd]

/-- `String::from_utf8_lossy`: what begins like a character and is none is
replaced as far as it could have been one. -/
def fromUtf8Lossy : Text → Text
  | [] => []
  | a :: rest =>
    if a < 0x80 then a :: fromUtf8Lossy rest
    else match rest with
      | [] => replacement
      | b :: tail =>
        if inRange 0xc2 0xdf a && isContinuation b then a :: b :: fromUtf8Lossy tail
        else if (inRange 0xe0 0xef a &&
            inRange (if a = 0xe0 then 0xa0 else 0x80) (if a = 0xed then 0x9f else 0xbf) b) then
          match tail with
          | [] => replacement
          | c :: tail' =>
            if isContinuation c then a :: b :: c :: fromUtf8Lossy tail'
            else replacement ++ fromUtf8Lossy (c :: tail')
        else if (inRange 0xf0 0xf4 a &&
            inRange (if a = 0xf0 then 0x90 else 0x80) (if a = 0xf4 then 0x8f else 0xbf) b) then
          match tail with
          | [] => replacement
          | c :: tail' =>
            if isContinuation c then
              match tail' with
              | [] => replacement
              | d :: tail'' =>
                if isContinuation d then a :: b :: c :: d :: fromUtf8Lossy tail''
                else replacement ++ fromUtf8Lossy (d :: tail'')
            else replacement ++ fromUtf8Lossy (c :: tail')
        else replacement ++ fromUtf8Lossy (b :: tail)

def toStringLossy (path : List Text) : Text :=
  fromUtf8Lossy (join path)

/-! ### Patterns -/

/-- The glob library: which patterns it compiles, and what they match. -/
structure Globs where
  compiles : Text → Bool
  matchesText : Text → Text → Bool

/-- Nothing but white space, as `trim` sees it. -/
def isBlank : Text → Bool
  | [] => true
  | a :: rest =>
    if a = 0x20 ∨ inRange 0x09 0x0d a then isBlank rest
    else match rest with
      | [] => false
      | b :: tail =>
        if a = 0xc2 then (b = 0x85 || b = 0xa0) && isBlank tail
        else match tail with
          | [] => false
          | c :: tail' =>
            (a = 0xe1 && b = 0x9a && c = 0x80 ||
              a = 0xe2 && b = 0x80 && (inRange 0x80 0x8a c || c = 0xa8 || c = 0xa9 || c = 0xaf) ||
              a = 0xe2 && b = 0x81 && c = 0x9f ||
              a = 0xe3 && b = 0x80 && c = 0x80) && isBlank tail'

def validateRelativePattern (pattern : Text) : Except PatternProblem Unit := do
  refuse (isBlank pattern = true) .emptyValue
  refuse (pattern.head? = some slash) .pathNotRelative
  refuse (Component.parentDir ∈ components pattern) .pathHasParent

def compilePattern (globs : Globs) (field : PatternField) (pattern : Text) :
    Except ArtifactError Unit := do
  (validateRelativePattern pattern).mapError (.invalidPattern field)
  refuse (globs.compiles pattern = false) (.globPattern pattern)

def compilePatterns (globs : Globs) (field : PatternField) (patterns : List Text) :
    Except ArtifactError Unit :=
  patterns.forM (compilePattern globs field)

/-- ASCII of `.indentured-server/**`. -/
def internalExcludePattern : Text :=
  [0x2e, 0x69, 0x6e, 0x64, 0x65, 0x6e, 0x74, 0x75, 0x72, 0x65, 0x64, 0x2d, 0x73, 0x65, 0x72, 0x76,
   0x65, 0x72, 0x2f, 0x2a, 0x2a]

def isExcluded (globs : Globs) (patterns : List Text) (path : List Text) : Bool :=
  patterns.any fun pattern => globs.matchesText pattern (toStringLossy path)

/-- A pattern that matches a directory includes what is in it. -/
def isIncluded (globs : Globs) (patterns : List Text) (path : List Text) : Bool :=
  patterns.any fun pattern =>
    path.inits.tail.any fun ancestor => globs.matchesText pattern (toStringLossy ancestor)

/-! ### Where to walk -/

/-- `*`, `?` and `[` -/
def isWildcard (b : UInt8) : Bool :=
  b = 0x2a || b = 0x3f || b = 0x5b

/-- The components of a pattern in front of the first one that is not literal. -/
def literalComponents : List Component → List Text
  | .curDir :: rest => literalComponents rest
  | .normal part :: rest => if part.any isWildcard then [] else part :: literalComponents rest
  | _ => []

def artifactWalkPrefixes (patterns : List Text) : List (List Text) :=
  let sorted := (patterns.map fun pattern => literalComponents (components pattern)).insertionSort
    fun a b => a.length ≤ b.length
  sorted.foldl (fun minimal path =>
    if minimal.any (·.isPrefixOf path) then minimal else minimal ++ [path]) []

/-- The condition of `filter_entry`. A path that meets it has ancestors that meet
it, so that none is cut off with an ancestor. -/
def isWalked (roots : List (List Text)) (path : List Text) : Bool :=
  path = [] || roots.any fun root => path.isPrefixOf root || root.isPrefixOf path

/-! ### The walk -/

/-- An entry that the walk meets, and what `symlink_metadata` then says. -/
structure WalkEntry where
  relative : List Text
  isDir : Bool
  metadata : Except Errno Stat

inductive WalkItem
  | failed
  | outside
  | found (entry : WalkEntry)

def WalkItem.isWalked (roots : List (List Text)) : WalkItem → Bool
  | .found entry => Artifacts.isWalked roots entry.relative
  | _ => true

structure Matched where
  relative : List Text
  /-- The `FileIdentity`. -/
  identity : Ino
  deriving DecidableEq, Repr

/-- The variables of the walk. -/
structure Traversal where
  observed : List (List Text) := []
  matched : List Matched := []

def observe (config : ArtifactsConfig) (observed : List (List Text)) (relative : List Text) :
    Except ArtifactError (List (List Text)) := do
  refuse (config.maxDepth < relative.length) (.tooDeep config.maxDepth)
  refuse (relative ∉ observed ∧ config.maxFiles ≤ observed.length) (.tooManyFiles config.maxFiles)
  return if relative ∈ observed then observed else relative :: observed

def requireRegularFile (entry : WalkEntry) : Except ArtifactError Stat :=
  match entry.metadata with
  | .error _ => .error (.io .inspectPath)
  | .ok stat =>
    match stat.kind with
    | .file _ _ => .ok stat
    | _ => .error (.unsupportedFile entry.relative)

/-- `entry(..).or_insert(..)`: the first observation stays. -/
def noteMatched (matched : List Matched) (relative : List Text) (identity : Ino) : List Matched :=
  if relative ∈ matched.map Matched.relative then matched else matched ++ [⟨relative, identity⟩]

section
variable (globs : Globs) (spec : ArtifactSpec) (config : ArtifactsConfig)

def excludePatterns : List Text :=
  spec.excludes ++ [internalExcludePattern]

def visitEntry (t : Traversal) (entry : WalkEntry) : Except ArtifactError Traversal :=
  if entry.relative = [] then .ok t
  else do
    let observed ← observe config t.observed entry.relative
    if entry.isDir ∨ isExcluded globs (excludePatterns spec) entry.relative ∨
        isIncluded globs spec.includes entry.relative = false then
      return { t with observed := observed }
    else
      let metadata ← requireRegularFile entry
      return ⟨observed, noteMatched t.matched entry.relative metadata.ino⟩

/-- One turn of the loop over the walk. -/
def visit (t : Traversal) : WalkItem → Except ArtifactError Traversal
  | .failed => .error (.io .walkRoot)
  | .outside => .error .outsideRoot
  | .found entry => visitEntry globs spec config t entry

def walked (walk : List WalkItem) : List WalkItem :=
  walk.filter (·.isWalked (artifactWalkPrefixes spec.includes))

/-! ### Restrictions -/

structure ArtifactRestrictions where
  omittedCount : Nat
  matchedPatterns : List Text
  deriving DecidableEq, Repr

def isRestricted (m : Matched) : Bool :=
  config.restrictedPatterns.any fun pattern =>
    globs.matchesText pattern (toStringLossy m.relative)

def unrestricted (matched : List Matched) : List Matched :=
  matched.filter fun m => !isRestricted globs config m

def restrictions (matched : List Matched) : Option ArtifactRestrictions :=
  if matched.any (isRestricted globs config) then
    some ⟨matched.countP (isRestricted globs config), config.restrictedPatterns.filter fun pattern =>
      matched.any fun m => globs.matchesText pattern (toStringLossy m.relative)⟩
  else none

def matchedFiles (walk : List WalkItem) : Except ArtifactError (List Matched) :=
  if spec.includes = [] then .ok []
  else do
    let t ← (walked spec walk).foldlM (visit globs spec config) {}
    return unrestricted globs config t.matched

/-! ### Checks on the whole -/

/-- The loop that looks for paths that differ in case only. -/
def checkFolded : List Text → List Matched → Except ArtifactError Unit
  | _, [] => .ok ()
  | folded, m :: rest => do
      refuse (toAsciiLowercase (toStringLossy m.relative) ∈ folded) (.unsupportedFile m.relative)
      checkFolded (toAsciiLowercase (toStringLossy m.relative) :: folded) rest

def validateArtifactCountAndDepth (matched : List Matched) : Except ArtifactError Unit := do
  refuse (config.maxFiles < matched.length) (.tooManyFiles config.maxFiles)
  refuse (∃ m ∈ matched, config.maxDepth < m.relative.length) (.tooDeep config.maxDepth)
  checkFolded [] matched

end

end IndenturedServer.Artifacts
