import IndenturedServer.Foundation.Transition
import IndenturedServer.Source.Archive

/-!
The removal of old artifacts.

`gc_artifacts` runs in a thread of its own. It reads the directories of the
storage root one after the other, takes the newest modification time of the
files in each, and removes the directories whose time is before the cutoff;
then it removes more, the oldest first, until the rest is within `max_bytes`.
Collections make, fill and publish their directories at the same time.

A step of a thread is one system call; `remove_dir_all` is one step, which may
fail when it has removed some of the files.
-/

namespace IndenturedServer.Artifacts.Gc

open Foundation Source

/-! ### The storage -/

/-- The files of a directory: `.artifacts.zip.tmp` and `artifacts.zip`. -/
inductive ArtifactName
  | temp
  | archive
  deriving DecidableEq, Repr

/-- The time is in nanoseconds after `UNIX_EPOCH`. -/
structure StoredFile where
  size : Nat
  modified : Nat
  deriving DecidableEq, Repr

abbrev BuildId := String

abbrev ArtifactDir := ArtifactName → Option StoredFile

structure GcConfig where
  ttlSec : Option Nat
  maxBytes : Option Nat

def GcConfig.ttl (cfg : GcConfig) : Nat :=
  cfg.ttlSec.getD 0 * 1000000000

structure ArtifactEntry where
  path : BuildId
  size : Nat
  modified : Nat
  deriving DecidableEq, Repr

/-- Where `collect_artifacts_zip` is, once its files are open. -/
inductive CollectPc
  | idle
  | createDirectory
  | protectDirectory
  | createTemp
  | writing
  | removeTemp
  | protectTemp
  | rename
  | published
  /-- `remove_dir_all` after an error. -/
  | cleanUp
  deriving DecidableEq, Repr

inductive GcPc
  | idle
  | listing (entries : List ArtifactEntry)
  /-- The directory is read next. -/
  | walking (path : BuildId) (entries : List ArtifactEntry)
  | statting (path : BuildId) (names : List ArtifactName) (size modified : Nat)
      (entries : List ArtifactEntry)
  | readClock (entries : List ArtifactEntry)
  /-- The TTL pass. -/
  | expiring (cutoff : Nat) (todo kept : List ArtifactEntry)
  /-- The pass for `max_bytes`. -/
  | evicting (total : Nat) (todo : List ArtifactEntry)
  deriving DecidableEq, Repr

structure GcState where
  dirs : BuildId → Option ArtifactDir := fun _ => none
  collections : BuildId → CollectPc := fun _ => .idle
  gc : GcPc := .idle
  now : Nat

/-- How `remove_dir_all` ends. -/
inductive Removal
  | complete
  /-- These files are gone. -/
  | failed (gone : List ArtifactName)
  deriving DecidableEq, Repr

inductive CollectStep
  | begin
  | succeed
  | write (bytes : Nat)
  | fail
  | remove (answer : Removal)
  deriving DecidableEq, Repr

inductive GcStep
  | proceed
  | visit (path : BuildId)
  | fail
  | remove (answer : Removal)
  deriving DecidableEq, Repr

inductive GcEvent
  | clock (time : Nat)
  | collect (id : BuildId) (step : CollectStep)
  | gc (step : GcStep)
  deriving DecidableEq, Repr

namespace GcState

def goto (s : GcState) (id : BuildId) (pc : CollectPc) : GcState :=
  { s with collections := Function.update s.collections id pc }

def setDir (s : GcState) (id : BuildId) (dir : Option ArtifactDir) : GcState :=
  { s with dirs := Function.update s.dirs id dir }

@[simp] theorem setDir_dirs_self (s : GcState) (id : BuildId) (dir : Option ArtifactDir) :
    (s.setDir id dir).dirs id = dir :=
  Function.update_self ..

theorem setDir_dirs_of_ne (s : GcState) {id id' : BuildId} (h : id' ≠ id)
    (dir : Option ArtifactDir) : (s.setDir id dir).dirs id' = s.dirs id' :=
  Function.update_of_ne h ..

def setGc (s : GcState) (pc : GcPc) : GcState :=
  { s with gc := pc }

def removeDirAll (s : GcState) (id : BuildId) : Removal → Option GcState
  | .complete => if (s.dirs id).isSome then some (s.setDir id none) else none
  | .failed gone =>
    some (s.setDir id ((s.dirs id).map fun dir name => if name ∈ gone then none else dir name))

/-! ### A collection -/

def succeedStep (s : GcState) (id : BuildId) : CollectPc → Option ArtifactDir → Option GcState
  | .createDirectory, dir =>
    some ((s.goto id .protectDirectory).setDir id (some (dir.getD fun _ => none)))
  | .protectDirectory, some _ => some (s.goto id .createTemp)
  | .createTemp, some dir =>
    some ((s.goto id .writing).setDir id
      (some (Function.update dir .temp (some ⟨0, s.now⟩))))
  | .writing, _ => some (s.goto id .protectTemp)
  | .removeTemp, some dir =>
    some ((s.goto id .cleanUp).setDir id (some (Function.update dir .temp none)))
  | .protectTemp, some dir => if (dir .temp).isSome then some (s.goto id .rename) else none
  | .rename, some dir =>
    if (dir .temp).isSome then
      some ((s.goto id .published).setDir id
        (some (Function.update (Function.update dir .archive (dir .temp)) .temp none)))
    else none
  | .published, _ => some (s.goto id .idle)
  | _, _ => none

/-- Where an error leads to. Before the directory is ready it is returned. -/
def afterError : CollectPc → Option CollectPc
  | .createDirectory | .protectDirectory => some .idle
  | .createTemp | .writing => some .removeTemp
  | .removeTemp | .protectTemp | .rename | .published => some .cleanUp
  | .idle | .cleanUp => none

/-- A file that was unlinked is written to all the same. -/
def writeTemp (s : GcState) (id : BuildId) (bytes : Nat) : GcState :=
  s.setDir id ((s.dirs id).map fun dir =>
    Function.update dir .temp ((dir .temp).map fun file => ⟨file.size + bytes, s.now⟩))

def collectStep (s : GcState) (id : BuildId) : CollectStep → Option GcState
  | .begin => if s.collections id = .idle then some (s.goto id .createDirectory) else none
  | .succeed => s.succeedStep id (s.collections id) (s.dirs id)
  | .write bytes => if s.collections id = .writing then some (s.writeTemp id bytes) else none
  | .fail => (afterError (s.collections id)).map (s.goto id)
  | .remove answer =>
    if s.collections id = .cleanUp then (s.removeDirAll id answer).map (·.goto id .idle) else none

/-! ### The collector -/

section
variable (cfg : GcConfig)

def present (dir : ArtifactDir) : List ArtifactName :=
  [ArtifactName.temp, .archive].filter fun name => (dir name).isSome

/-- What follows the TTL pass. The sum is one of `u64`. -/
def evict (entries : List ArtifactEntry) : GcPc :=
  match cfg.maxBytes with
  | none => .idle
  | some _ => .evicting ((entries.map ArtifactEntry.size).sum % 2 ^ 64)
      (entries.insertionSort fun a b => a.modified ≤ b.modified)

/-- What follows the scan. -/
def scanned (entries : List ArtifactEntry) : GcPc :=
  if entries = [] then .idle
  else match cfg.ttlSec with
    | none => evict cfg entries
    | some _ => .readClock entries

/-- A step of the collector that removes nothing. -/
def proceedStep (s : GcState) : GcPc → Option GcPc
  | .idle => some (.listing [])
  | .listing entries => some (scanned cfg entries)
  | .walking path entries => (s.dirs path).map fun dir => .statting path (present dir) 0 0 entries
  | .statting path [] size modified entries => some (.listing (entries ++ [⟨path, size, modified⟩]))
  | .statting path (name :: rest) size modified entries =>
    ((s.dirs path).bind fun dir => dir name).map fun file =>
      .statting path rest (saturatingAdd size file.size) (max modified file.modified) entries
  | .readClock entries => some (.expiring (s.now - cfg.ttl) entries [])
  | .expiring _ [] kept => some (evict cfg kept)
  | .expiring cutoff (entry :: rest) kept =>
    if entry.modified < cutoff then none else some (.expiring cutoff rest (kept ++ [entry]))
  | .evicting total todo =>
    if total ≤ cfg.maxBytes.getD 0 ∨ todo = [] then some .idle else none

def removeStep (answer : Removal) : GcPc → Option (ArtifactEntry × GcPc)
  | .expiring cutoff (entry :: rest) kept =>
    if entry.modified < cutoff then
      some (entry, .expiring cutoff rest (if answer = .complete then kept else kept ++ [entry]))
    else none
  | .evicting total (entry :: rest) =>
    if cfg.maxBytes.getD 0 < total then
      some (entry, .evicting (if answer = .complete then total - entry.size else total) rest)
    else none
  | _ => none

def gcStep (s : GcState) : GcStep → Option GcState
  | .proceed => (proceedStep cfg s s.gc).map s.setGc
  | .visit path =>
    match s.gc with
    | .listing entries =>
      if (s.dirs path).isSome ∧ path ∉ entries.map ArtifactEntry.path then
        some (s.setGc (.walking path entries))
      else none
    | _ => none
  | .fail =>
    match s.gc with
    | .listing _ | .walking _ _ | .statting _ _ _ _ _ => some (s.setGc .idle)
    | _ => none
  | .remove answer =>
    (removeStep cfg answer s.gc).bind fun (entry, pc) =>
      (s.removeDirAll entry.path answer).map (·.setGc pc)

def step (s : GcState) : GcEvent → Option GcState
  | .clock time => some { s with now := time }
  | .collect id step => s.collectStep id step
  | .gc step => s.gcStep cfg step

end

end GcState

end IndenturedServer.Artifacts.Gc
