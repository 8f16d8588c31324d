import IndenturedServer.Source.Packaged
import IndenturedServer.SourceUpdates.Metadata

/-!
The client's side of a source update.

`session_update_command` checks the paths it is given, packages the files in the
order of their paths, and declares what it has packaged together with the paths
to delete, again in the order of the paths. When the server answers, the client
compares the evidence with what it expects, position by position.

As for the sources of a session, what `jj` and the file system answer is data,
and a call that is interrupted shows as one that fails. The files are read once,
so that the declared hash is that of the bytes in the archive whatever happens
to the file.
-/

namespace IndenturedServer.SourceUpdates

open Foundation Source
open Source.Client (Written JjEntry JjType EntryKind PackageError regularMode stream)

/-- SHA-256, written with hexadecimal characters. -/
structure Sha256 where
  hex : Text → Text
  isSha256 : ∀ bytes, isSha256 (hex bytes) = true

/-! ### Checks on the arguments -/

inductive SubmitError
  /-- invalid session ID -/
  | invalidSession
  /-- The option --revision must be the explicit opaque rev_<decimal> base revision -/
  | invalidRevision
  /-- invalid request ID -/
  | invalidRequestId
  /-- at least one --file or --delete is required -/
  | nothing
  | path (error : PathError)
  /-- update contains duplicate, case-colliding, or cross-list paths -/
  | duplicatePaths
  /-- Jujutsu tree contains duplicate paths -/
  | duplicateTreePaths
  /-- A --delete path is present at pinned revision: .. -/
  | deletePresent (path : Text)
  /-- A --file path is missing at pinned revision: .. -/
  | fileMissing (path : Text)
  /-- Jujutsu tree contains a conflict at .. -/
  | conflict (path : Text)
  /-- A --file path is not a regular file: .. -/
  | notRegular (path : Text)
  /-- A --file path is executable: .. -/
  | executable (path : Text)
  /-- A --delete path exists: .. -/
  | deleteExists (path : Text)
  /-- failed to prove --delete path absent .. -/
  | deleteUnproven (path : Text)
  /-- source changed while it was being packaged -/
  | sourceChanged
  /-- filesystem source manifest changed concurrently; retry after writers are quiescent -/
  | manifestChanged
  | package (error : PackageError)
  /-- update metadata exceeds 65536 bytes -/
  | metadataTooLarge
  deriving DecidableEq, Repr

/-- One turn of the loop over the paths. -/
def checkPath (seen : List Text × List Text) (path : Text) :
    Except SubmitError (List Text × List Text) := do
  (validateUpdatePath path Client.maxDepth).mapError .path
  refuse (path ∈ seen.1 ∨ toAsciiLowercase path ∈ seen.2) .duplicatePaths
  return (path :: seen.1, toAsciiLowercase path :: seen.2)

/-- What both `validate_update_changes` and the packaging begin with. -/
def checkPaths (files deletes : List Text) : Except SubmitError Unit := do
  refuse (files = [] ∧ deletes = []) .nothing
  let _ ← (files ++ deletes).foldlM checkPath ([], [])

/-- `sort_by` on the bytes of a path. -/
def sortBy {α : Type} (path : α → Text) (items : List α) : List α :=
  items.insertionSort fun a b => path a ≤ path b

def validateUpdateChanges (files deletes : List Text) :
    Except SubmitError (List Text × List Text) := do
  checkPaths files deletes
  return (sortBy id files, sortBy id deletes)

/-! ### Packaging -/

structure SourceEntry where
  path : Text
  kind : EntryKind
  mode : UInt32
  size : Nat
  sha256 : Text
  deriving DecidableEq, Repr

/-- The archive as it is written, and what is noted about its entries. -/
structure UpdateSourcePackage where
  archive : List Written := []
  entries : List SourceEntry := []
  total : Nat := 0

/-- A file is written and noted. -/
def UpdateSourcePackage.push (sha : Sha256) (package : UpdateSourcePackage) (path : Text)
    (total : Nat) (content : Text) : UpdateSourcePackage where
  archive := package.archive ++ [⟨path, regularMode false, content⟩]
  entries := package.entries ++ [⟨path, .file, 0o100644, content.length, sha.hex content⟩]
  total := total

structure JjUpdate where
  /-- The files of the pinned commit, if `jj` has told its version, the commit and
  the files. -/
  listing : Option (List JjEntry)
  /-- The output of `jj file show`. -/
  fileShow : Text → List (Option Text)

def insertListed (tree : List JjEntry) (entry : JjEntry) : Except SubmitError (List JjEntry) := do
  refuse (∃ other ∈ tree, other.path = entry.path) .duplicateTreePaths
  return entry :: tree

def packageJjFile (sha : Sha256) (jj : JjUpdate) (tree : List JjEntry)
    (package : UpdateSourcePackage) (path : Text) : Except SubmitError UpdateSourcePackage := do
  let some entry := tree.find? (·.path = path) | throw (.fileMissing path)
  refuse (entry.conflict = true ∨ entry.fileType = .conflict) (.conflict path)
  refuse (entry.fileType ≠ .file) (.notRegular path)
  refuse (entry.executable = true) (.executable path)
  let (total, content) ← (stream package.total (jj.fileShow path)).mapError .package
  return package.push sha path total content

def packageJjUpdate (sha : Sha256) (jj : JjUpdate) (files deletes : List Text) :
    Except SubmitError UpdateSourcePackage := do
  let some listing := jj.listing | throw (.package .io)
  let tree ← listing.foldlM insertListed []
  deletes.forM fun path => refuse (∃ entry ∈ tree, entry.path = path) (.deletePresent path)
  (sortBy id files).foldlM (packageJjFile sha jj tree) {}

/-- What is looked at in the metadata of a file. -/
structure FileSnapshot where
  dev : Nat
  ino : Nat
  len : Nat
  mtime : Int
  mtimeNsec : Int
  deriving DecidableEq

structure UpdateMetadata extends FileSnapshot where
  isFile : Bool
  mode : Nat

/-- What `open_relative_nofollow` says about a path to delete. -/
inductive Probe
  | absent
  | present
  | failed
  deriving DecidableEq, Repr

/-- The answers of the file system, by path; a call that fails has none. -/
structure UpdateFilesystem where
  probeBefore : Text → Probe
  opened : Text → Option UpdateMetadata
  reads : Text → List (Option Text)
  after : Text → Option UpdateMetadata
  /-- The second look, when everything is packaged. -/
  again : Text → Option UpdateMetadata
  probeAfter : Text → Probe

def requireAbsent (probe : Text → Probe) (path : Text) : Except SubmitError Unit :=
  match probe path with
  | .absent => .ok ()
  | .present => .error (.deleteExists path)
  | .failed => .error (.deleteUnproven path)

def packageFilesystemFile (sha : Sha256) (fs : UpdateFilesystem)
    (package : UpdateSourcePackage) (path : Text) : Except SubmitError UpdateSourcePackage := do
  let some before := fs.opened path | throw (.package .io)
  refuse (before.isFile = false) (.notRegular path)
  refuse (before.mode &&& 0o111 ≠ 0) (.executable path)
  let (total, content) ← (stream package.total (fs.reads path)).mapError .package
  let some after := fs.after path | throw (.package .io)
  refuse (before.toFileSnapshot ≠ after.toFileSnapshot) .sourceChanged
  return package.push sha path total content

def recheckFile (fs : UpdateFilesystem) (path : Text) : Except SubmitError Unit := do
  let some metadata := fs.again path | throw (.package .io)
  refuse (metadata.isFile = false ∨ metadata.mode &&& 0o111 ≠ 0 ∨
    (fs.opened path).map UpdateMetadata.toFileSnapshot ≠ some metadata.toFileSnapshot)
    .manifestChanged

def packageFilesystemUpdate (sha : Sha256) (fs : UpdateFilesystem) (files deletes : List Text) :
    Except SubmitError UpdateSourcePackage := do
  deletes.forM (requireAbsent fs.probeBefore)
  let package ← (sortBy id files).foldlM (packageFilesystemFile sha fs) {}
  package.entries.forM fun entry => recheckFile fs entry.path
  deletes.forM (requireAbsent fs.probeAfter)
  return package

/-- Where the files come from. -/
inductive UpdateSource
  | jujutsu (jj : JjUpdate)
  | filesystem (fs : UpdateFilesystem)

def packageUpdateSource (sha : Sha256) (source : UpdateSource) (files deletes : List Text) :
    Except SubmitError UpdateSourcePackage := do
  checkPaths files deletes
  match source with
  | .jujutsu jj => packageJjUpdate sha jj files deletes
  | .filesystem fs => packageFilesystemUpdate sha fs files deletes

/-! ### The request and the response -/

def maxSessionUpdateMetadataBytes : Nat := 64 * 1024

structure SessionUpdateArgs where
  session : Text
  revision : Text
  requestId : Text
  files : List Text
  deletes : List Text

def declaredChanges (package : UpdateSourcePackage) (deletes : List Text) : List Change :=
  sortBy Change.path
    (package.entries.map (fun entry => .file entry.path entry.sha256) ++ deletes.map .delete)

/-- What is sent, and what the client keeps to compare the response with. -/
structure Submission where
  request : SessionUpdateRequest
  metadata : Text
  archive : List Written
  expectedChanged : List Evidence

/-- `session_update_command` up to the request, with the encoder of JSON. -/
def submit (sha : Sha256) (toVec : SessionUpdateRequest → Text) (source : UpdateSource)
    (args : SessionUpdateArgs) : Except SubmitError Submission := do
  refuse (validSessionId args.session = false) .invalidSession
  refuse (parseRevision args.revision = none) .invalidRevision
  refuse (validRequestId args.requestId = false) .invalidRequestId
  let (files, deletes) ← validateUpdateChanges args.files args.deletes
  let package ← packageUpdateSource sha source files deletes
  let request : SessionUpdateRequest := {
    schemaVersion := sessionUpdateSchemaVersion
    requestId := args.requestId
    baseRevision := args.revision
    source := ⟨.zip⟩
    changes := declaredChanges package deletes }
  refuse (maxSessionUpdateMetadataBytes < (toVec request).length) .metadataTooLarge
  return {
    request := request
    metadata := toVec request
    archive := package.archive
    expectedChanged := package.entries.map fun entry => ⟨entry.path, entry.sha256⟩ }

structure SessionUpdateResponse where
  sessionId : Text
  updateId : Text
  requestId : Text
  baseRevision : Text
  workspaceRevision : Text
  changed : List Evidence
  deleted : List Evidence
  deriving DecidableEq, Repr

inductive ResponseError
  /-- update response had inconsistent identity, revision, or changed-file evidence -/
  | identity
  /-- update response had inconsistent delete evidence -/
  | deleted
  /-- update response had inconsistent session identity -/
  | session
  deriving DecidableEq, Repr

def Change.deletedPath : Change → Option Text
  | .file _ _ => none
  | .delete path => some path

def validateUpdateResponse (response : SessionUpdateResponse) (request : SessionUpdateRequest)
    (expectedChanged : List Evidence) : Except ResponseError Unit := do
  refuse (validActionId response.updateId = false ∨ response.requestId ≠ request.requestId ∨
    response.baseRevision ≠ request.baseRevision ∨
    parseRevision response.workspaceRevision = none ∨ response.changed ≠ expectedChanged) .identity
  let expectedDeleted := request.changes.filterMap Change.deletedPath
  refuse (response.deleted.length ≠ expectedDeleted.length ∨
    ∃ pair ∈ response.deleted.zip expectedDeleted,
      pair.1.path ≠ pair.2 ∨ isSha256 pair.1.sha256 = false) .deleted

/-- What the client makes of a response. -/
def acceptResponse (args : SessionUpdateArgs) (sent : Submission)
    (response : SessionUpdateResponse) : Except ResponseError Unit := do
  validateUpdateResponse response sent.request sent.expectedChanged
  refuse (response.sessionId ≠ args.session) .session

/-! ### What is sent -/

/-- The paths are fit for an update, and no two of them are the same but for case. -/
structure UpdatePaths (paths : List Text) : Prop where
  valid : ∀ path ∈ paths, validateUpdatePath path Client.maxDepth = .ok ()
  distinct : (paths.map toAsciiLowercase).Nodup

variable {paths : List Text}

theorem UpdatePaths.perm {paths' : List Text} (h : UpdatePaths paths) (hperm : paths'.Perm paths) :
    UpdatePaths paths' where
  valid path hpath := h.valid path (hperm.mem_iff.mp hpath)
  distinct := (hperm.map _).nodup_iff.mpr h.distinct

theorem UpdatePaths.nodup (h : UpdatePaths paths) : paths.Nodup :=
  h.distinct.of_map _

theorem checkPath_checksNew : ChecksNew id
    (fun path => validateUpdatePath path Client.maxDepth = .ok ()) checkPath := by
  intro seen path after
  simp only [checkPath, bind_eq_ok, refuse_eq_ok, mapError_eq_ok]
  constructor
  · rintro ⟨_, hpath, _, hseen, hafter⟩
    exact ⟨hpath, (not_or.mp hseen).1, (not_or.mp hseen).2, (Except.ok.inj hafter).symm⟩
  · rintro ⟨hpath, hexact, hfolded, rfl⟩
    exact ⟨(), hpath, (), not_or.mpr ⟨hexact, hfolded⟩, rfl⟩

variable {files deletes : List Text}

theorem checkPaths_ok (h : checkPaths files deletes = .ok ()) :
    ¬ (files = [] ∧ deletes = []) ∧ UpdatePaths (files ++ deletes) := by
  simp only [checkPaths, bind_eq_ok, refuse_eq_ok, exists_const] at h
  obtain ⟨hnonempty, after, hafter, -⟩ := h
  obtain ⟨hvalid, hdistinct⟩ :=
    (checkPath_checksNew.foldlM (files ++ deletes) [] List.nodup_nil).mp ⟨after, hafter⟩
  exact ⟨hnonempty, hvalid, hdistinct⟩

section
variable {α : Type} (path : α → Text) (items : List α)

theorem sortBy_perm : (sortBy path items).Perm items :=
  List.perm_insertionSort _ items

theorem sortBy_pairwise : (sortBy path items).Pairwise fun a b => path a ≤ path b := by
  exact List.pairwise_insertionSort _ items

end

/-- The files of a package: the path and the bytes of each. -/
structure Packed (sha : Sha256) (files : List (Text × Text)) (package : UpdateSourcePackage) :
    Prop where
  archive : package.archive = files.map fun file => ⟨file.1, regularMode false, file.2⟩
  entries : package.entries =
    files.map fun file => ⟨file.1, .file, 0o100644, file.2.length, sha.hex file.2⟩
  total : package.total = (files.map fun file => file.2.length).sum
  limit : package.total ≤ Client.maxUncompressedBytes

theorem Packed.empty (sha : Sha256) : Packed sha [] {} :=
  ⟨rfl, rfl, rfl, Nat.zero_le _⟩

variable {sha : Sha256}

theorem Packed.push {files : List (Text × Text)} {package : UpdateSourcePackage}
    (h : Packed sha files package) {path content : Text} {total : Nat} {reads : List (Option Text)}
    (hstream : stream package.total reads = .ok (total, content)) :
    Packed sha (files ++ [(path, content)]) (package.push sha path total content) := by
  obtain ⟨-, htotal, hlimit⟩ := Client.stream_ok hstream h.limit
  refine ⟨by simp [UpdateSourcePackage.push, h.archive],
    by simp [UpdateSourcePackage.push, h.entries], ?_, hlimit⟩
  simp [UpdateSourcePackage.push, htotal, h.total]

theorem packed_of_foldlM
    {pack : UpdateSourcePackage → Text → Except SubmitError UpdateSourcePackage}
    (hpack : ∀ {package after path}, pack package path = .ok after → ∃ reads total content,
      stream package.total reads = .ok (total, content) ∧ after = package.push sha path total content)
    (paths : List Text) : ∀ {files : List (Text × Text)} {package after : UpdateSourcePackage},
      Packed sha files package → paths.foldlM pack package = .ok after →
      ∃ more, more.map Prod.fst = paths ∧ Packed sha (files ++ more) after := by
  induction paths with
  | nil =>
    intro files package after hpacked hfold
    cases hfold
    exact ⟨[], rfl, by rwa [List.append_nil]⟩
  | cons path rest ih =>
    intro files package after hpacked hfold
    rw [List.foldlM_cons, bind_eq_ok] at hfold
    obtain ⟨next, hnext, hrest⟩ := hfold
    obtain ⟨reads, total, content, hstream, rfl⟩ := hpack hnext
    obtain ⟨more, hpaths, hmore⟩ := ih (hpacked.push hstream) hrest
    refine ⟨(path, content) :: more, by rw [List.map_cons, hpaths], ?_⟩
    rwa [List.append_assoc, List.singleton_append] at hmore

theorem packageJjFile_ok {jj : JjUpdate} {tree : List JjEntry} {package after : UpdateSourcePackage}
    {path : Text} (h : packageJjFile sha jj tree package path = .ok after) : ∃ reads total content,
      stream package.total reads = .ok (total, content) ∧
        after = package.push sha path total content := by
  unfold packageJjFile at h
  split at h
  · simp only [bind_eq_ok, mapError_eq_ok, Prod.exists] at h
    obtain ⟨_, -, _, -, _, -, total, content, hstream, hafter⟩ := h
    exact ⟨_, total, content, hstream, (Except.ok.inj hafter).symm⟩
  · cases h

theorem packageFilesystemFile_ok {fs : UpdateFilesystem} {package after : UpdateSourcePackage}
    {path : Text} (h : packageFilesystemFile sha fs package path = .ok after) :
    ∃ reads total content, stream package.total reads = .ok (total, content) ∧
        after = package.push sha path total content := by
  unfold packageFilesystemFile at h
  split at h
  · simp only [bind_eq_ok, mapError_eq_ok, Prod.exists] at h
    obtain ⟨_, -, _, -, total, content, hstream, h⟩ := h
    split at h
    · obtain ⟨_, -, hafter⟩ := bind_eq_ok.mp h
      exact ⟨_, total, content, hstream, (Except.ok.inj hafter).symm⟩
    · cases h
  · cases h

variable {source : UpdateSource}

theorem packageUpdateSource_ok {package : UpdateSourcePackage}
    (h : packageUpdateSource sha source files deletes = .ok package) :
    ∃ packed, packed.map Prod.fst = sortBy id files ∧ Packed sha packed package := by
  obtain ⟨_, -, h⟩ := bind_eq_ok.mp h
  cases source with
  | jujutsu jj =>
    simp only [packageJjUpdate] at h
    split at h
    · obtain ⟨tree, -, h⟩ := bind_eq_ok.mp h
      obtain ⟨_, -, h⟩ := bind_eq_ok.mp h
      exact packed_of_foldlM packageJjFile_ok (sortBy id files) (Packed.empty sha) h
    · cases h
  | filesystem fs =>
    simp only [packageFilesystemUpdate, bind_eq_ok] at h
    obtain ⟨_, -, after, hfold, _, -, _, -, hafter⟩ := h
    cases hafter
    exact packed_of_foldlM packageFilesystemFile_ok (sortBy id files) (Packed.empty sha) hfold

/-- What a submission consists of: the packed files and the paths to delete. -/
structure Submitted (sha : Sha256) (toVec : SessionUpdateRequest → Text) (args : SessionUpdateArgs)
    (sent : Submission) (files : List (Text × Text)) (deletes : List Text) : Prop where
  requestId : validRequestId args.requestId = true
  revision : (parseRevision args.revision).isSome
  nonempty : ¬ (files = [] ∧ deletes = [])
  paths : UpdatePaths (files.map Prod.fst ++ deletes)
  sorted : files.Pairwise fun a b => a.1 ≤ b.1
  request : sent.request = {
    schemaVersion := sessionUpdateSchemaVersion
    requestId := args.requestId
    baseRevision := args.revision
    source := ⟨.zip⟩
    changes := sortBy Change.path
      (files.map (fun file => .file file.1 (sha.hex file.2)) ++ deletes.map .delete) }
  metadata : sent.metadata = toVec sent.request
  archive : sent.archive = files.map fun file => ⟨file.1, regularMode false, file.2⟩
  expectedChanged : sent.expectedChanged = files.map fun file => ⟨file.1, sha.hex file.2⟩

theorem submit_ok {toVec : SessionUpdateRequest → Text} {args : SessionUpdateArgs}
    {sent : Submission} (h : submit sha toVec source args = .ok sent) :
    ∃ files deletes, Submitted sha toVec args sent files deletes := by
  simp only [submit, validateUpdateChanges, bind_eq_ok, refuse_eq_ok, exists_const] at h
  obtain ⟨-, hrevision, hid, _, ⟨_, hchecked, hsorted⟩, package, hpackage, -, hsent⟩ := h
  cases hsorted
  cases hsent
  obtain ⟨hnonempty, hpaths⟩ := checkPaths_ok hchecked
  obtain ⟨packed, hfiles, hpacked⟩ := packageUpdateSource_ok hpackage
  have hperm : (packed.map Prod.fst).Perm args.files := by
    rw [hfiles]
    exact (sortBy_perm _ _).trans (sortBy_perm _ _)
  have hdeletes := sortBy_perm id args.deletes
  refine ⟨packed, sortBy id args.deletes, ?_⟩
  refine {
    requestId := by simpa using hid
    revision := Option.isSome_iff_ne_none.mpr hrevision
    nonempty := ?_
    paths := hpaths.perm (hperm.append hdeletes)
    sorted := ?_
    request := ?_
    metadata := rfl
    archive := hpacked.archive
    expectedChanged := by simp [hpacked.entries] }
  · rintro ⟨rfl, hempty⟩
    rw [hempty] at hdeletes
    exact hnonempty ⟨hperm.nil_eq.symm, hdeletes.nil_eq.symm⟩
  · have hsorted := sortBy_pairwise id (sortBy id args.files)
    rw [← hfiles, List.pairwise_map] at hsorted
    exact hsorted
  · simp only [declaredChanges, hpacked.entries, List.map_map]
    rfl

end IndenturedServer.SourceUpdates
