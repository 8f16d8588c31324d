import IndenturedServer.Source.RoundTrip

/-!
How the client unpacks an archive of artifacts.

`extract_zip_atomic` first goes over the names in the central directory, then
over the entries with sets of its own, and only when both passes are content
does it make a directory. It extracts into a directory with a fresh name beside
the final one and renames that at the end. What the ZIP reader returns is data,
as it is for the sources; that it finds the central directory at all is taken
for granted.
-/

namespace IndenturedServer.Artifacts.Download

open Foundation Source

def maxFiles : Nat := 10000
def maxBytes : Nat := 2147483648
def maxDepth : Nat := 64

inductive DownloadError
  /-- artifacts directory already exists -/
  | alreadyExists
  /-- artifact ZIP entry name is empty or too long -/
  | nameLength
  /-- artifact archive contains duplicate paths -/
  | duplicatePaths
  /-- artifact entry count exceeded client limit -/
  | entryCount
  /-- zip entry had invalid path -/
  | invalidPath
  /-- artifact path exceeded client depth limit -/
  | tooDeep
  /-- artifact archive contains a special file -/
  | specialFile
  /-- artifact archive contains duplicate or case-colliding paths -/
  | collidingPaths
  /-- artifact archive contains a file/directory collision -/
  | pathCollision
  /-- artifact uncompressed bytes exceeded client limit -/
  | declaredBytes
  /-- artifact extracted bytes exceeded client limit -/
  | extractedBytes
  /-- The ZIP reader fails. -/
  | unreadable
  /-- A call on the system fails. -/
  | io
  deriving DecidableEq, Repr

/-! ### The passes over the entries -/

/-- The loop of `reject_duplicate_zip_entries` over the central directory. -/
def rejectDuplicateZipEntries : List Text → List Record → Except DownloadError Unit
  | _, [] => .ok ()
  | names, r :: rest => do
      refuse (r.name = [] ∨ 4096 < r.name.length) .nameLength
      refuse (r.name ∈ names) .duplicatePaths
      rejectDuplicateZipEntries (r.name :: names) rest

/-- `trim_end_matches('/')` -/
def trimmedName (r : Record) : Text :=
  r.name.rdropWhile (· == slash)

def validateZipEntryPath (name : Text) : Except DownloadError Unit := do
  refuse (name = [] ∨ isAscii name = false ∨ backslash ∈ name ∨ nul ∈ name ∨
    ∃ part ∈ name.splitOn slash, part = [] ∨ part = [dot]) .invalidPath
  refuse (∃ c ∈ components name, c = .rootDir ∨ c = .parentDir) .invalidPath

def validateArtifactZipType (mode : Option UInt32) (isDir : Bool) : Except DownloadError Unit :=
  match mode with
  | none => .ok ()
  | some mode =>
    let kind := mode &&& 0o170000
    let expected := if isDir then 0o040000 else 0o100000
    refuse (kind ≠ 0 ∧ kind ≠ expected) .specialFile

/-- The sets of the second pass. Files and directories are kept folded only. -/
structure Listing where
  exact : List Text := []
  folded : List Text := []
  files : List Text := []
  directories : List Text := []
  declared : Nat := 0

namespace Listing

def insertPath (s : Listing) (name : Text) : Except DownloadError Listing := do
  refuse (name ∈ s.exact ∨ toAsciiLowercase name ∈ s.folded) .collidingPaths
  return { s with
    exact := name :: s.exact
    folded := toAsciiLowercase name :: s.folded }

def insertDirectory (s : Listing) (path : Text) : Except DownloadError Listing := do
  refuse (toAsciiLowercase path ∈ s.files) .pathCollision
  return { s with directories := toAsciiLowercase path :: s.directories }

/-- The loop over the components of a path but the last. -/
def insertAncestors (s : Listing) (ancestor : Text) : List Text → Except DownloadError Listing
  | [] => .ok s
  | part :: rest => do
      let ancestor := (if ancestor = [] then ancestor else ancestor ++ [slash]) ++ part
      let s ← s.insertDirectory ancestor
      s.insertAncestors ancestor rest

def insertFile (s : Listing) (r : Record) (name : Text) : Except DownloadError Listing := do
  refuse (toAsciiLowercase name ∈ s.directories) .pathCollision
  return { s with
    files := toAsciiLowercase name :: s.files
    declared := saturatingAdd s.declared r.size.toNat }

/-- One turn of the loop. -/
def entry (s : Listing) (r : Record) : Except DownloadError Listing := do
  let name := trimmedName r
  validateZipEntryPath name
  refuse (maxDepth < (name.splitOn slash).length) .tooDeep
  validateArtifactZipType r.unixMode r.isDir
  let s ← s.insertPath name
  let s ← s.insertAncestors [] (name.splitOn slash).dropLast
  let s ← if r.isDir then s.insertDirectory name else s.insertFile r name
  refuse (maxBytes < s.declared) .declaredBytes
  return s

end Listing

/-! ### The run directory -/

structure RunDirectory where
  artifacts : Option (Tree Text Text) := none
  /-- The directory `.artifacts-<uuid>` is there; `world` has what is in it. -/
  staging : Bool := false
  world : World := {}

abbrev Extraction := EStateM DownloadError RunDirectory

def check {α : Type} (x : Except DownloadError α) : Extraction α :=
  MonadExcept.ofExcept x

/-- A call on what is in the staging directory. -/
def inStaging {α : Type} (x : EStateM Errno World α) : Extraction α := fun d =>
  match x d.world with
  | .ok a w => .ok a { d with world := w }
  | .error _ w => .error .io { d with world := w }

section
variable (env : Environment)

def interact (e : DownloadError) (change : RunDirectory → RunDirectory) : Extraction Unit := fun d =>
  match env.fault d.world.clock with
  | some (.fails _) => .error e { d with world := d.world.tick }
  | _ => .ok () (change { d with world := d.world.tick })

/-- A question to the archive. -/
def ask (e : DownloadError) : Extraction Unit :=
  interact env e id

def createStaging : Extraction Unit :=
  interact env .io fun d => { d with staging := true, world := { d.world with tree := Tree.empty } }

def renameStaging : Extraction Unit :=
  interact env .io fun d => { d with artifacts := some d.world.tree, staging := false }

def removeStaging : Extraction Unit :=
  interact env .io fun d => { d with staging := false }

/-- `create_new(true).mode(0o600)` -/
def createPrivate (path : List (Move Text)) : EStateM Errno World (List Text) := do
  let access ← make env .createNew (.file [] (some 0o600)) path
  return access.place.getD []

def ioCopy (handle : List Text) : Nat → List (Option Text) → EStateM Errno World Nat
  | copied, [] => return copied
  | _, none :: _ => throw .other
  | copied, some bytes :: rest =>
    if bytes = [] then return copied
    else do
      writeAll env handle bytes
      ioCopy handle (copied + bytes.length) rest

def applyMode (r : Record) (output : List (Move Text)) : Extraction Unit :=
  match r.unixMode with
  | none => return ()
  | some mode => inStaging (setPermissions env mode output)

def extractFile (actual : Nat) (r : Record) (output : List (Move Text)) : Extraction Nat := do
  inStaging (createDirAll env output.dropLast)
  let handle ← inStaging (createPrivate env output)
  let copied ← inStaging (ioCopy env handle 0 r.reads)
  let actual := saturatingAdd actual copied
  check (refuse (maxBytes < actual) .extractedBytes)
  applyMode env r output
  return actual

/-- One turn of the loop; the value is `actual`. -/
def extractEntry (actual : Nat) (r : Record) : Extraction Nat := do
  ask env .unreadable
  let output := moves env.caseRule (trimmedName r)
  if r.isDir then do
    inStaging (createDirAll env output)
    return actual
  else extractFile env actual r output

/-- The second opening of the archive, and the loop. -/
def copyEntries (records : List Record) : Extraction Nat := do
  ask env .io
  ask env .unreadable
  records.foldlM (extractEntry env) 0

/-- The entries are extracted, and take the place of `artifacts`. -/
def extractStaged (records : List Record) : Extraction Unit := do
  ask env .io
  ask env .unreadable
  let _ ← records.foldlM (extractEntry env) 0
  renameStaging env

def listEntry (s : Listing) (r : Record) : Extraction Listing := do
  ask env .unreadable
  check (s.entry r)

/-- What is checked before anything is made. -/
def listEntries (records : List Record) : Extraction Unit := do
  ask env .io
  check (rejectDuplicateZipEntries [] records)
  ask env .io
  ask env .unreadable
  check (refuse (maxFiles < records.length) .entryCount)
  let _ ← records.foldlM (listEntry env) {}

def extractZipAtomic (records : List Record) : Extraction Unit := do
  let d ← get
  check (refuse (d.artifacts.isSome = true) .alreadyExists)
  listEntries env records
  createStaging env
  tryCatch (extractStaged env records) fun e => do
    let _ ← outcome (removeStaging env)
    throw e

end

theorem inStaging_ends {α : Type} {P : World → Prop} {Q : α → World → Prop} {E : Errno → World → Prop}
    {x : EStateM Errno World α} (hx : Triple P x Q E) {R : RunDirectory → Prop}
    (hR : ∀ d w, R d → R { d with world := w }) :
    Triple (fun d => P d.world ∧ R d) (inStaging x) (fun a d => Q a d.world ∧ R d)
      fun _ d => (∃ e, E e d.world) ∧ R d := by
  intro d hd
  show Ends _ _ (inStaging x d)
  unfold inStaging
  obtain ⟨a, w, hrun, hw⟩ | ⟨e, w, hrun, hw⟩ := hx.run_cases hd.1
  · rw [hrun]
    exact ⟨hw, hR d w hd.2⟩
  · rw [hrun]
    exact ⟨⟨e, hw⟩, hR d w hd.2⟩

end IndenturedServer.Artifacts.Download
