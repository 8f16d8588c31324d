import IndenturedServer.Sessions.Evidenced
import IndenturedServer.Source.RoundTrip
import IndenturedServer.SourceUpdates.Exact
import IndenturedServer.SourceUpdates.Submit

/-!
The two sides of a source update.

What the client sends is accepted by the server, and what the server answers
is accepted by the client. The first half follows the archive: an entry that
was written and is read back passes the checks of `prepare_archive`, one after
the other. The second half is about order. The client sorts the files, and it
sorts the files and the paths to delete together; the server keeps the order of
the declared changes. The files among the changes are therefore the files in
the order they have in the archive, and the client can compare the evidence
position by position.
-/

namespace IndenturedServer.SourceUpdates

open Foundation Source Change List
open Artifacts (Globs)

/-! ### What is assumed of the two sides -/

/-- The server reads in the JSON what the client has written into it. -/
def ReadsJson (serde : Serde) (data : Text) (request : SessionUpdateRequest) : Prop :=
  ∃ fields, serde.fromSlice data = .ok (.object fields) ∧
    fields.lookup schemaVersionField = some (.string request.schemaVersion) ∧
    serde.fromValue (.object fields) = .ok request

/-- The patterns compile, and the limits and the patterns allow the update. -/
structure Admits (globs : Globs) (policy : SourceUpdatesConfig) (sent : Submission) : Prop where
  includes : ∀ pattern ∈ policy.includes, globs.compiles pattern = true
  excludes : ∀ pattern ∈ policy.excludes, globs.compiles pattern = true
  allowed : ∀ change ∈ sent.request.changes, matchesAny globs policy.includes change.path = true ∧
    matchesAny globs policy.excludes change.path = false
  files : sent.request.changes.length ≤ policy.maxFiles
  depth : ∀ change ∈ sent.request.changes, (change.path.splitOn slash).length ≤ policy.maxDepth
  bytes : (sent.archive.map fun w => w.content.length).sum ≤ policy.maxUncompressedBytes

/-- Nothing fails on the server while it prepares the update. -/
structure PrepareContext.Undisturbed (s : PrepareContext) : Prop where
  fault : ∀ n, s.fault n = none
  creates : s.creates = true
  protects : s.protects = true

/-! ### The request -/

variable {globs : Globs}

section
variable {sha : Sha256} {toVec : SessionUpdateRequest → Text} {args : SessionUpdateArgs}
  {sent : Submission} {files : List (Text × Text)} {deletes : List Text}

/-- The declared changes, before they are sorted. -/
def unsorted (sha : Sha256) (files : List (Text × Text)) (deletes : List Text) : List Change :=
  files.map (fun file => .file file.1 (sha.hex file.2)) ++ deletes.map .delete

theorem unsorted_path : (unsorted sha files deletes).map Change.path =
    files.map Prod.fst ++ deletes := by
  simp [unsorted, Change.path, Function.comp_def]

section
variable (h : Submitted sha toVec args sent files deletes)
include h

theorem Submitted.changes_perm : sent.request.changes.Perm (unsorted sha files deletes) := by
  rw [h.request]
  exact sortBy_perm _ _

theorem Submitted.paths_perm :
    (sent.request.changes.map Change.path).Perm (files.map Prod.fst ++ deletes) := by
  have hperm := h.changes_perm.map Change.path
  rwa [unsorted_path] at hperm

theorem Submitted.path {change : Change} (hchange : change ∈ sent.request.changes) :
    validateUpdatePath change.path Client.maxDepth = .ok () :=
  h.paths.valid _ (h.paths_perm.mem_iff.mp (mem_map_of_mem hchange))

theorem Submitted.acceptable {policy : SourceUpdatesConfig} (hadmits : Admits globs policy sent) :
    Acceptable policy.maxFiles policy.maxDepth sent.request where
  requestId := by
    rw [h.request]
    exact h.requestId
  baseRevision := by
    rw [h.request]
    exact h.revision
  nonempty := by
    intro hnil
    have hperm := h.changes_perm
    rw [hnil] at hperm
    have hempty := hperm.nil_eq
    simp only [unsorted, nil_eq, append_eq_nil_iff, map_eq_nil_iff] at hempty
    exact h.nonempty hempty
  count := hadmits.files
  paths := by
    intro change hchange
    obtain ⟨hpath, hlast, -⟩ := validateUpdatePath_ok_iff.mp (h.path hchange)
    exact validateUpdatePath_ok_iff.mpr ⟨hpath, hlast, hadmits.depth change hchange⟩
  distinct := by
    have hdistinct := (h.paths.perm h.paths_perm).distinct
    rwa [List.map_map] at hdistinct
  hashes := by
    intro change hchange sha256 hhash
    have hmem := h.changes_perm.mem_iff.mp hchange
    simp only [unsorted, mem_append, mem_map] at hmem
    rcases hmem with ⟨file, -, rfl⟩ | ⟨path, -, rfl⟩
    · rw [← Option.mem_some.mp hhash]
      exact sha.isSha256 _
    · cases hhash

end

theorem parseSessionUpdateMetadata_of_acceptable {serde : Serde} {data : Text}
    {request : SessionUpdateRequest} {maxFiles maxDepth : Nat} (hjson : ReadsJson serde data request)
    (hversion : request.schemaVersion = sessionUpdateSchemaVersion)
    (h : Acceptable maxFiles maxDepth request) :
    parseSessionUpdateMetadata serde data maxFiles maxDepth = .ok request := by
  obtain ⟨fields, hslice, hfield, hvalue⟩ := hjson
  have hcheck := checkRequest_ok_iff.mpr h
  have hrefuse : refuse (request.schemaVersion ≠ sessionUpdateSchemaVersion)
      (RequestError.unsupportedSchemaVersion request.schemaVersion) = .ok () :=
    refuse_eq_ok.mpr (not_not.mpr hversion)
  simp only [parseSessionUpdateMetadata, hslice, Except.mapError, bind, Except.bind, Json.asObject,
    hfield, Json.asStr, hrefuse, hvalue, hcheck]
  rfl

/-! ### The archive -/

/-- An entry that passes the checks and has the declared contents. -/
structure Deliverable (digest : Text → Text) (declared : List (Text × Text)) (entry : Entry) :
    Prop where
  regular : RegularEntry entry
  declared : declared.lookup entry.name = some (digest (content entry.reads))
  readable : Readable entry.reads
  size : entry.size.toNat = (content entry.reads).length

end

variable {archive : List Entry}

section
variable {fault : Nat → Option Nat} {digest : Text → Text} {policy : Policy}
  {declared : List (Text × Text)}

theorem saturatingAdd_le (a b : Nat) : saturatingAdd a b ≤ a + b :=
  Nat.min_le_left _ _

theorem copied_eq {before : Nat} (reads : List (Option Text)) : ∀ actual : Nat, Readable reads →
    before + actual + (content reads).length ≤ policy.maxUncompressedBytes →
    copied policy before actual reads = (content reads, true) := by
  induction reads with
  | nil => exact fun actual _ _ => rfl
  | cons read rest ih =>
    intro actual hreadable hlimit
    obtain ⟨hread, hrest⟩ := not_or.mp (mt mem_cons.mpr hreadable)
    cases read with
    | none => exact absurd rfl hread
    | some bytes =>
      rw [copied]
      by_cases hempty : bytes = []
      · simp [content, hempty]
      · have hcontent : content (some bytes :: rest) = bytes ++ content rest := by
          simp [content, hempty]
        rw [hcontent, length_append] at hlimit
        have hactual := saturatingAdd_le actual bytes.length
        have hbefore := saturatingAdd_le before (saturatingAdd actual bytes.length)
        have hmore := ih (saturatingAdd actual bytes.length) hrest (by omega)
        simp only [hempty, hcontent, hmore, if_false]
        exact if_neg (by omega)

/-- The entries that are still to come fit to what has been seen. -/
structure Remaining (policy : Policy) (digest : Text → Text) (declared : List (Text × Text))
    (pass : Pass) (rest : List Entry) : Prop where
  deliverable : ∀ entry ∈ rest, Deliverable digest declared entry
  fresh : ∀ entry ∈ rest, entry.name ∉ pass.seen ∧ toAsciiLowercase entry.name ∉ pass.folded
  distinct : (rest.map fun entry => toAsciiLowercase entry.name).Nodup
  bytes : pass.total + (rest.map fun entry => entry.size.toNat).sum ≤ policy.maxUncompressedBytes

theorem prepareEntries_return (hfault : ∀ n, fault n = none) (rest : List Entry) :
    ∀ (index : Nat) (pass : Pass) (staged : List (Text × Nat × Text)),
    Remaining policy digest declared pass rest →
    Triple (fun _ => True)
      ((rest.zipIdx index).foldlM (prepareEntry fault digest policy declared) (pass, staged))
      (fun _ _ => True) fun _ _ => False := by
  induction rest with
  | nil => exact fun index pass staged _ => Triple.pure fun _ _ => trivial
  | cons entry rest ih =>
    intro index pass staged h
    obtain ⟨hentry, hdeliverable⟩ := forall_mem_cons.mp h.deliverable
    obtain ⟨hnew, hfresh⟩ := forall_mem_cons.mp h.fresh
    obtain ⟨hother, hdistinct⟩ := nodup_cons.mp h.distinct
    have hbytes := h.bytes
    rw [map_cons, sum_cons] at hbytes
    have htotal := saturatingAdd_le pass.total entry.size.toNat
    let after : Pass := ⟨entry.name :: pass.seen, toAsciiLowercase entry.name :: pass.folded,
      saturatingAdd pass.total entry.size.toNat⟩
    have haccept : pass.accept policy declared entry = .ok (digest (content entry.reads), after) :=
      Pass.accept_ok_iff.mpr ⟨hnew.1, hnew.2, hentry.declared, hentry.regular, by omega, rfl⟩
    have hafter : Remaining policy digest declared after rest := by
      refine ⟨hdeliverable, fun other hmem => ?_, hdistinct, ?_⟩
      · -- another name is another name in lower case too
        have hfolded : toAsciiLowercase other.name ≠ toAsciiLowercase entry.name :=
          fun heq => hother (mem_map.mpr ⟨other, hmem, heq⟩)
        obtain ⟨hseen, hunfolded⟩ := hfresh other hmem
        refine ⟨not_mem_cons_of_ne_of_not_mem (fun heq => hfolded (by rw [heq])) hseen, ?_⟩
        exact not_mem_cons_of_ne_of_not_mem hfolded hunfolded
      · show saturatingAdd pass.total entry.size.toNat + _ ≤ _
        omega
    have hcopy : after.copy policy entry = (content entry.reads, true) := by
      have hsize := hentry.size
      apply copied_eq entry.reads 0 hentry.readable
      show saturatingAdd pass.total entry.size.toNat - entry.size.toNat + 0 + _ ≤ _
      omega
    have hpasses : Passes digest policy declared pass entry (digest (content entry.reads)) after :=
      ⟨haccept, by rw [hcopy], by rw [hcopy]⟩
    refine Triple.bind (Q := fun next _ => next.1 = after ∧ True) (fun s _ => ?_)
      fun next => Triple.given fun hnext => ?_
    · refine (prepareEntry_triple pass staged entry s rfl).mono ?_ ?_
      · rintro _ _ ⟨expected, after', h, rfl, -⟩
        cases haccept.symm.trans h.accepts
        exact ⟨rfl, trivial⟩
      · rintro e _ ⟨-, part, -, -, hall⟩
        exact (hall hfault).2 _ _ hpasses
    · obtain ⟨pass', staged'⟩ := next
      subst hnext
      exact ih (index + 1) after staged' hafter

theorem prepareArchive_returns (hfault : ∀ n, fault n = none) {changes : List Change}
    (hpaths : (changes.map Change.path).Nodup) (hfiles : archive.length ≤ policy.maxFiles)
    (hcount : archive.length = (declaredFiles changes).length)
    (h : Remaining policy digest (declaredFiles changes) {} archive) :
    Succeeds (fun s => s.writes = []) (prepareArchive fault digest policy changes archive) := by
  have hloop := ((prepareEntries_staged archive [] {} []).onEntry
    (stagedEntries_nil digest (declaredFiles changes))).and
    ((prepareEntries_return hfault archive 0 {} [] h).onEntry fun _ _ => trivial)
  refine ((prepareArchive_triple hloop).onError ?_).succeeds
  rintro e s (⟨-, -, hstop⟩ | ⟨-, ⟨-, hfalse⟩ | ⟨next, hs, herror⟩⟩)
  · exact (hstop hfault).elim (Nat.not_lt.mpr hfiles) fun hne => hne hcount
  · exact hfalse
  · obtain ⟨-, prepared, hok, -⟩ := StagedEntries.preparedChanges hpaths hcount hs.1
    cases herror.symm.trans hok

end

theorem inStaging_returns {x : EStateM UpdateError Staging (List PreparedChange)}
    (h : Succeeds (fun s => s.writes = []) x) :
    Triple (fun d => ∃ staging, d = some staging ∧ staging.writes = []) (inStaging x)
      (fun _ d => ∃ staging, d = some staging) fun _ _ => False := by
  rintro d ⟨staging, rfl, hs⟩
  show Ends _ _ (inStaging x (some staging))
  unfold inStaging
  obtain ⟨a, after, hrun⟩ := h staging hs
  rw [Option.getD_some, hrun]
  exact ⟨after, rfl⟩

theorem forM_returns {α : Type} {f : α → Except PrepareError Unit} {l : List α}
    (h : ∀ a ∈ l, f a = .ok ()) :
    Triple (fun d : Option Staging => d = none)
      (MonadExcept.ofExcept (l.forM f) : EStateM PrepareError (Option Staging) Unit)
      (fun _ d => d = none) fun _ _ => False := by
  rw [forM_ok_iff.mpr h]
  exact fun _ hd => hd

theorem prepareUpdate_returns {s : PrepareContext} (hs : s.Undisturbed)
    {policy : SourceUpdatesConfig} {sent : Submission} (hadmits : Admits s.globs policy sent)
    (harchive : Succeeds (fun s => s.writes = [])
      (prepareArchive s.fault s.digest policy.toPolicy sent.request.changes archive)) :
    ∃ changes staging, prepareUpdate s policy sent.request archive none = .ok changes (some staging) := by
  have hreturns : Triple (fun d => d = none) (prepareUpdate s policy sent.request archive)
      (fun _ d => ∃ staging, d = some staging) fun _ _ => False := by
    refine Triple.bind (forM_returns fun pattern hpattern => ?_) fun _ => ?_
    · exact refuse_eq_ok.mpr (by simp [hadmits.includes pattern hpattern])
    refine Triple.bind (forM_returns fun pattern hpattern => ?_) fun _ => ?_
    · exact refuse_eq_ok.mpr (by simp [hadmits.excludes pattern hpattern])
    refine Triple.bind (forM_returns fun change hchange => ?_) fun _ => ?_
    · exact refuse_eq_ok.mpr (by simp [hadmits.allowed change hchange])
    refine Triple.bind (Q := fun _ d => ∃ staging, d = some staging ∧ staging.writes = []) ?_
      fun _ => ?_
    · rintro d rfl
      show Ends _ _ (createStaging s none)
      simp [createStaging, hs.creates, hs.protects, Ends]
    · exact Triple.tryCatch (inStaging_returns harchive) fun e d he => he.elim
  obtain ⟨changes, d, hrun, staging, rfl⟩ | ⟨e, d, -, hfalse⟩ := hreturns.run_cases rfl
  · exact ⟨changes, staging, hrun⟩
  · exact hfalse.elim

section
variable {sha : Sha256} {toVec : SessionUpdateRequest → Text} {args : SessionUpdateArgs}
  {sent : Submission} {files : List (Text × Text)} {deletes : List Text}

theorem Submitted.nodup (h : Submitted sha toVec args sent files deletes) :
    (sent.request.changes.map Change.path).Nodup :=
  (h.paths.perm h.paths_perm).nodup

theorem unsorted_files : (unsorted sha files deletes).filterMap asFile =
    files.map fun file => (file.1, sha.hex file.2) := by
  simp [unsorted, asFile, filterMap_map, Function.comp_def]

section
variable (h : Submitted sha toVec args sent files deletes)
include h

theorem Submitted.declared_eq :
    sent.request.changes.filterMap asFile = files.map fun file => (file.1, sha.hex file.2) := by
  have hperm := h.changes_perm.filterMap asFile
  rw [unsorted_files] at hperm
  have hsorted : sent.request.changes.Pairwise fun a b => a.path ≤ b.path := by
    rw [h.request]
    exact sortBy_pairwise _ _
  have hdeclared : (sent.request.changes.filterMap asFile).Pairwise fun a b => a.1 ≤ b.1 := by
    refine List.Pairwise.filterMap _ ?_ hsorted
    intro a b hle file hfile file' hfile'
    cases a with
    | delete path => cases hfile
    | file path sha256 =>
      cases b with
      | delete path' => cases hfile'
      | file path' sha256' =>
        cases hfile
        cases hfile'
        exact hle
  have hfiles : (files.map fun file => (file.1, sha.hex file.2)).Pairwise fun a b => a.1 ≤ b.1 := by
    rw [pairwise_map]
    exact h.sorted
  refine hperm.eq_of_pairwise ?_ hdeclared hfiles
  -- two files of the same path are the same file
  intro a b ha hb hab hba
  have hpath : a.1 = b.1 := List.le_antisymm hab hba
  have hnodup : ((sent.request.changes.filterMap asFile).map Prod.fst).Nodup :=
    h.nodup.sublist (declaredPaths_sublist _)
  exact List.inj_on_of_nodup_map hnodup ha (hperm.mem_iff.mpr hb) hpath

theorem Submitted.lookup {file : Text × Text} (hfile : file ∈ files) :
    (declaredFiles sent.request.changes).lookup file.1 = some (sha.hex file.2) := by
  have hchange : .file file.1 (sha.hex file.2) ∈ sent.request.changes := by
    rw [h.changes_perm.mem_iff]
    exact mem_append_left _ (mem_map_of_mem hfile)
  have hdeclared : (file.1, sha.hex file.2) ∈ declaredFiles sent.request.changes := by
    rw [declaredFiles_eq h.nodup, List.mem_reverse, h.declared_eq]
    exact mem_map_of_mem hfile
  obtain ⟨hash, hlookup⟩ := Option.isSome_iff_exists.mp
    (lookup_isSome_iff.mpr ⟨_, hdeclared, beq_self_eq_true file.1⟩)
  rw [hlookup, declaredFiles_lookup h.nodup hchange hlookup]

theorem deliverable_of_readsBack {file : Text × Text} (hfile : file ∈ files) {r : Record}
    (hread : ReadsBack ⟨file.1, Client.regularMode false, file.2⟩ r) :
    Deliverable sha.hex (declaredFiles sent.request.changes) r.entry := by
  have hvalid := h.paths.valid file.1 (mem_append_left _ (mem_map_of_mem hfile))
  obtain ⟨hpath, hlast, -⟩ := validateUpdatePath_ok_iff.mp hvalid
  have hname : r.entry.name = file.1 := hread.name
  have hmode : r.unixMode = some (Client.regularMode false) := hread.mode
  have hcontent : content r.entry.reads = file.2 := hread.content
  refine ⟨⟨?_, ?_, ?_⟩, ?_, hread.readable, ?_⟩
  · show r.isDir = false
    rw [hread.isDir]
    have hbackslash : file.1.getLast? ≠ some backslash :=
      fun heq => hpath.plain.1 (mem_of_getLast? heq)
    simp [hlast, hbackslash]
  · show r.isSymlink = false
    rw [Record.isSymlink, hmode]
    decide
  · show ∀ mode ∈ r.unixMode, _
    rw [hmode]
    rintro mode ⟨⟩
    decide
  · rw [hname, hcontent]
    exact h.lookup hfile
  · rw [hcontent]
    exact hread.size

end

variable {records : List Record}

theorem readsBack_names {written : List Source.Client.Written}
    (hzip : Forall₂ ReadsBack written records) :
    (records.map Record.entry).map Entry.name = written.map Source.Client.Written.name ∧
      (records.map Record.entry).map (fun entry => entry.size.toNat) =
        written.map fun w => w.content.length := by
  induction hzip with
  | nil => exact ⟨rfl, rfl⟩
  | cons hread _ ih =>
    rw [map_cons, map_cons, map_cons, map_cons, map_cons, ih.1, ih.2]
    exact ⟨by rw [← hread.name]; rfl, by rw [← hread.size]; rfl⟩

theorem Submitted.archive_returns (h : Submitted sha toVec args sent files deletes)
    (hzip : Forall₂ ReadsBack sent.archive records) {fault : Nat → Option Nat}
    (hfault : ∀ n, fault n = none) {policy : SourceUpdatesConfig}
    (hadmits : Admits globs policy sent) :
    Succeeds (fun s => s.writes = []) (prepareArchive fault sha.hex policy.toPolicy
      sent.request.changes (records.map Record.entry)) := by
  obtain ⟨hnames, hsizes⟩ := readsBack_names hzip
  rw [h.archive] at hnames
  have hlength : (records.map Record.entry).length = (declaredFiles sent.request.changes).length := by
    rw [declaredFiles_eq h.nodup, h.declared_eq, List.length_reverse, List.length_map,
      length_map, ← hzip.length_eq, h.archive, length_map]
  have hentries : ∀ entry ∈ records.map Record.entry,
      Deliverable sha.hex (declaredFiles sent.request.changes) entry := by
    rw [h.archive, forall₂_map_left_iff] at hzip
    have hmem := (forall₂_and_left files records).mpr ⟨fun _ hfile => hfile, hzip⟩
    have hall := hmem.flip.imp fun r file hr =>
      And.intro (deliverable_of_readsBack h hr.1 hr.2) hr.1
    exact forall_mem_map.mpr ((forall₂_and_left records files).mp hall).1
  refine prepareArchive_returns hfault h.nodup ?_ hlength ⟨hentries, ?_, ?_, ?_⟩
  · -- the files are among the changes
    rw [hlength, declaredFiles_eq h.nodup, length_reverse]
    exact (length_filterMap_le _ _).trans hadmits.files
  · exact fun _ _ => ⟨not_mem_nil, not_mem_nil⟩
  · have hdistinct := h.paths.distinct
    rw [map_append] at hdistinct
    have hfolded : (records.map Record.entry).map (fun entry => toAsciiLowercase entry.name) =
        (files.map Prod.fst).map toAsciiLowercase := by
      simpa [Function.comp_def] using congrArg (List.map toAsciiLowercase) hnames
    rw [hfolded]
    exact hdistinct.of_append_left
  · rw [hsizes]
    rw [Nat.zero_add]
    exact hadmits.bytes

end

/-! ### The evidence -/

def PreparedChange.evidence (change : PreparedChange) : Option Evidence :=
  match change.kind with
  | .file _ sha256 => some ⟨change.path, sha256⟩
  | .delete => none

def PreparedChange.deletedPath (change : PreparedChange) : Option Text :=
  match change.kind with
  | .file _ _ => none
  | .delete => some change.path

/-- The path, with the hash of some contents. -/
def Hashes (digest : Text → Text) (found : Evidence) (path : Text) : Prop :=
  found.path = path ∧ ∃ bytes, found.sha256 = digest bytes

variable {changes : List PreparedChange}

section
variable {s : ApplyContext}

theorem copyOpenFileAndHash_hashes (source : Descriptor) (index : Nat) :
    Triple (fun _ => True) (copyOpenFileAndHash s source index)
      (fun sha256 _ => ∃ bytes, sha256 = s.digest bytes) fun _ _ => True := by
  refine Triple.any.bind fun _ => Triple.any.bind fun content => Triple.any.bind fun _ => ?_
  exact Triple.any.bind fun _ => Triple.pure fun _ _ => ⟨content, rfl⟩

def Backup.Hashed (digest : Text → Text) (backup : Backup) : Prop :=
  ∀ sha256 ∈ backup.sha256, ∃ bytes, sha256 = digest bytes

theorem backUpChange_hashed (root : Descriptor) (index : Nat) (change : PreparedChange) :
    Triple (fun _ => True) (backUpChange s root index change)
      (fun backup _ => backup.Hashed s.digest) fun _ _ => True := by
  refine Triple.any.bind fun place => Triple.any.bind fun metadata => Triple.any.bind fun _ => ?_
  refine Triple.bind (Q := fun hash _ => ∀ sha256 ∈ hash, ∃ bytes, sha256 = s.digest bytes) ?_
    fun hash => Triple.pure fun _ hhash => hhash
  cases metadata with
  | none => exact Triple.pure fun _ _ => nofun
  | some stat =>
    refine Triple.any.bind fun source => ?_
    refine (copyOpenFileAndHash_hashes source index).adapt.bind fun sha256 => ?_
    refine Triple.pure fun _ hhash => ?_
    rintro _ ⟨⟩
    exact hhash

theorem backUpChanges_hashed (root : Descriptor) (changes : List PreparedChange) :
    ∀ index, Triple (fun _ => True) (backUpChanges s root index changes)
      (fun backups _ => Forall₂ (fun _ backup => Backup.Hashed s.digest backup) changes backups)
      fun _ _ => True := by
  induction changes with
  | nil => exact fun index => Triple.pure fun _ _ => .nil
  | cons change rest ih =>
    intro index
    refine Triple.bind (Q := fun backup _ => backup.Hashed s.digest ∧ True)
      ((backUpChange_hashed root index change).onReturn fun _ _ h => ⟨h, trivial⟩) fun backup => Triple.given fun hbackup => ?_
    exact (ih (index + 1)).bind fun backups => Triple.pure fun _ hrest => .cons hbackup hrest

theorem evidence_ok {digest : Text → Text} {backups : List Backup}
    (hbackups : Forall₂ (fun _ backup => Backup.Hashed digest backup) changes backups) :
    ∀ {found : AppliedEvidence}, evidence (changes.zip backups) = .ok found →
      found.changed = changes.filterMap PreparedChange.evidence ∧
      List.Forall₂ (Hashes digest) found.deleted (changes.filterMap PreparedChange.deletedPath) := by
  induction hbackups with
  | nil =>
    intro found h
    cases h
    exact ⟨rfl, .nil⟩
  | @cons change backup changes backups hbackup _ ih =>
    intro found h
    obtain ⟨path, kind⟩ := change
    rw [zip_cons_cons, evidence, bind_eq_ok] at h
    obtain ⟨more, hmore, h⟩ := h
    obtain ⟨hchanged, hdeleted⟩ := ih hmore
    cases kind with
    | file index sha256 =>
      cases h
      exact ⟨by simp [PreparedChange.evidence, hchanged], hdeleted⟩
    | delete =>
      cases hhash : backup.sha256 with
      | none => simp [hhash] at h
      | some sha256 =>
        simp only [hhash, Except.ok.injEq] at h
        subst h
        exact ⟨hchanged, .cons ⟨rfl, hbackup sha256 hhash⟩ hdeleted⟩

/-- Whatever happens in the workspace, the evidence of an update that is
applied follows its changes. -/
theorem applyUpdate_evidence (prepared : PreparedUpdate s.digest) :
    Triple (fun _ => True) (applyUpdate s prepared)
      (fun found _ => found.changed = prepared.changes.filterMap PreparedChange.evidence ∧
        Forall₂ (Hashes s.digest) found.deleted
          (prepared.changes.filterMap PreparedChange.deletedPath))
      fun _ _ => True := by
  refine Triple.any.bind fun _ => Triple.any.bind fun root => Triple.any.bind fun _ => ?_
  refine Triple.any.bind fun _ => (backUpChanges_hashed root prepared.changes 0).bind fun backups => ?_
  refine Triple.keep.bind fun _ => ?_
  exact Triple.ofExcept (fun found w hok hbackups => evidence_ok hbackups hok) fun _ _ _ _ => trivial

end

theorem prepares_evidence {digest : Text → Text} {writes : List (Nat × Text)}
    {declared : List Change} (h : Forall₂ (Prepares digest archive writes) declared changes) :
    changes.filterMap PreparedChange.evidence =
      (declared.filterMap Change.asFile).map (fun file => ⟨file.1, file.2⟩) ∧
    changes.filterMap PreparedChange.deletedPath = declared.filterMap Change.deletedPath := by
  induction h with
  | nil => exact ⟨rfl, rfl⟩
  | cons hchange _ ih =>
    cases hchange with
    | file hentry hhash => exact ⟨congrArg (cons _) ih.1, ih.2⟩
    | delete => exact ⟨ih.1, congrArg (cons _) ih.2⟩

/-! ### The response -/

def text (value : String) : Text :=
  asciiBytes value.toList

/-- `Uuid::new_v4().simple()`, by the number of the update. -/
structure Uuids where
  simple : Nat → Text
  length : ∀ t, (simple t).length = 32
  hexadecimal : ∀ t, ∀ b ∈ simple t, (isDigit b || inRange 0x61 0x66 b) = true

/-- ASCII of `upd_`. -/
def updMark : Text := [0x75, 0x70, 0x64, 0x5f]

def wireEvidence (evidence : Sessions.SessionUpdateEvidence) : Evidence :=
  ⟨text evidence.path, text evidence.sha256⟩

/-- The response of the session, as it is sent. -/
def wire (uuids : Uuids) (response : Sessions.SessionUpdateResponse) : SessionUpdateResponse where
  sessionId := text response.sessionId
  updateId := updMark ++ uuids.simple response.updateId
  requestId := text response.requestId
  baseRevision := text response.baseRevision
  workspaceRevision := text response.workspaceRevision
  changed := response.changed.map wireEvidence
  deleted := response.deleted.map wireEvidence

def FromApply (digest : Text → Text) (policy : SourceUpdatesConfig) (request : SessionUpdateRequest)
    (archive : List Entry) (changed deleted : List Sessions.SessionUpdateEvidence) : Prop :=
  ∃ (p : PrepareContext) (changes : List PreparedChange) (d : Option Staging), p.digest = digest ∧
    prepareUpdate p policy request archive none = .ok changes d ∧
  ∃ (s : ApplyContext) (prepared : PreparedUpdate s.digest) (fs : Fs Text) (found : AppliedEvidence)
    (w : Files), s.digest = digest ∧ prepared.changes = changes ∧
    applyUpdate s prepared (start fs) = .ok found w ∧
    changed.map wireEvidence = found.changed ∧ deleted.map wireEvidence = found.deleted

theorem text_revisionText (n : Nat) : text (Sessions.revisionText n) = revision n := by
  have hdigits : (toString n).toList = Nat.toDigits 10 n := Nat.toList_repr
  rw [text, Sessions.revisionText, String.toList_append, hdigits, asciiBytes, map_append]
  rfl

theorem validActionId_wire (uuids : Uuids) (t : Nat) :
    validActionId (updMark ++ uuids.simple t) = true := by
  have hlength : (updMark ++ uuids.simple t).length = 36 := by
    rw [length_append, uuids.length]
    rfl
  rw [validActionId, isOk_iff, validateIdentifier, bind_eq_ok]
  refine ⟨(), refuse_eq_ok.mpr ?_, refuse_eq_ok.mpr ?_⟩
  · rw [not_or, Nat.not_lt, hlength]
    exact ⟨by simp [updMark], by decide⟩
  · rw [Bool.not_eq_false, all_append, Bool.and_eq_true]
    refine ⟨by decide, all_eq_true.mpr fun b hb => ?_⟩
    have hletter : inRange 0x61 0x66 b = true → inRange 0x61 0x7a b = true := by
      simp only [inRange, Bool.and_eq_true, decide_eq_true_eq]
      exact fun h => ⟨h.1, UInt8.le_trans h.2 (by decide)⟩
    rcases Bool.or_eq_true_iff.mp (uuids.hexadecimal t b hb) with hdigit | hhex
    · simp [isAsciiAlphanumeric, hdigit]
    · simp [isAsciiAlphanumeric, hletter hhex]

section
variable {sha : Sha256} {toVec : SessionUpdateRequest → Text} {args : SessionUpdateArgs}
  {sent : Submission} {files : List (Text × Text)} {deletes : List Text}

variable (h : Submitted sha toVec args sent files deletes)
include h

theorem Submitted.evidence {policy : SourceUpdatesConfig}
    {changed deleted : List Sessions.SessionUpdateEvidence}
    (hfrom : FromApply sha.hex policy sent.request archive changed deleted) :
    changed.map wireEvidence = sent.expectedChanged ∧
      List.Forall₂ (Hashes sha.hex) (deleted.map wireEvidence)
        (sent.request.changes.filterMap Change.deletedPath) := by
  obtain ⟨p, changes, d, hdigest, hprepare, s, prepared, fs, found, w, hs, rfl, happly, hchanged,
    hdeleted⟩ := hfrom
  obtain ⟨_, _, hrun, -, staging, -, -, -, -, hprepares⟩ | ⟨e, _, hrun, -⟩ :=
    (prepareUpdate_triple p policy h.nodup archive).run_cases rfl
  · cases hrun.symm.trans hprepare
    obtain ⟨hfiles, hpaths⟩ := prepares_evidence hprepares
    obtain ⟨_, _, hrun, hfound⟩ | ⟨e, _, hrun, -⟩ :=
      (applyUpdate_evidence prepared).run_cases (trivial : (fun _ => True) (start fs))
    · cases hrun.symm.trans happly
      rw [hchanged, hdeleted, hfound.1, hfiles, h.declared_eq, map_map, h.expectedChanged,
        ← hpaths, ← hs]
      exact ⟨rfl, hfound.2⟩
    · cases hrun.symm.trans happly
  · cases hrun.symm.trans hprepare

theorem Submitted.accepts {response : SessionUpdateResponse}
    (hsession : response.sessionId = args.session)
    (hupdate : validActionId response.updateId = true)
    (hrequest : response.requestId = args.requestId) (hbase : response.baseRevision = args.revision)
    (hrevision : (parseRevision response.workspaceRevision).isSome)
    (hchanged : response.changed = sent.expectedChanged)
    (hdeleted : Forall₂ (Hashes sha.hex) response.deleted
      (sent.request.changes.filterMap Change.deletedPath)) :
    acceptResponse args sent response = .ok () := by
  have hidentity : sent.request.requestId = args.requestId ∧
      sent.request.baseRevision = args.revision := by
    rw [h.request]
    exact ⟨rfl, rfl⟩
  have hpairs : ∀ pair ∈ response.deleted.zip (sent.request.changes.filterMap Change.deletedPath),
      pair.1.path = pair.2 ∧ isSha256 pair.1.sha256 = true := by
    intro pair hpair
    obtain ⟨hpath, bytes, hhash⟩ := (forall₂_iff_zip.mp hdeleted).2 hpair
    exact ⟨hpath, by rw [hhash]; exact sha.isSha256 bytes⟩
  rw [acceptResponse, bind_eq_ok, validateUpdateResponse]
  refine ⟨(), bind_eq_ok.mpr ⟨(), refuse_eq_ok.mpr ?_, refuse_eq_ok.mpr ?_⟩, refuse_eq_ok.mpr ?_⟩
  · push Not
    refine ⟨by simp [hupdate], ?_, ?_, ?_, hchanged⟩
    · rw [hrequest, hidentity.1]
    · rw [hbase, hidentity.2]
    · exact Option.isSome_iff_ne_none.mp hrevision
  · push Not
    refine ⟨hdeleted.length_eq, fun pair hpair => ?_⟩
    exact ⟨(hpairs pair hpair).1, by simp [(hpairs pair hpair).2]⟩
  · exact not_not.mpr hsession

theorem Submitted.response_accepted {policy : SourceUpdatesConfig} (uuids : Uuids)
    {cfg : Sessions.SessionConfig} (hsession : text cfg.id = args.session)
    {baseOf : Sessions.Digest → Nat} {call : Sessions.UpdateRequest}
    (hid : text call.requestId = args.requestId)
    (hbase : parseRevision args.revision = some call.baseRevision)
    (hcall : call.baseRevision = baseOf call.digest) {response : Sessions.SessionUpdateResponse}
    (hanswers : Sessions.Answers cfg (Sessions.Based (fun request changed deleted =>
      request.digest = call.digest → FromApply sha.hex policy sent.request archive changed deleted)
      baseOf) call.requestId call.digest response) :
    acceptResponse args sent (wire uuids response) = .ok () := by
  obtain ⟨t, own, changed, deleted, hown, hdigest, hrevision, ⟨hbased, hgood⟩, rfl⟩ := hanswers
  obtain ⟨hchanged, hdeleted⟩ := h.evidence (hgood hdigest)
  have hsame : own.baseRevision = call.baseRevision := by rw [hbased, hdigest, ← hcall]
  have hrevision' : text (Sessions.revisionText own.baseRevision) = args.revision := by
    rw [text_revisionText, hsame]
    exact (parseRevision_eq_some hbase).1.symm
  refine h.accepts hsession (validActionId_wire uuids t) ?_ hrevision' ?_ hchanged hdeleted
  · rw [← hid, ← hown]
    rfl
  · show (parseRevision (text (Sessions.revisionText (own.baseRevision + 1)))).isSome
    rw [text_revisionText, parseRevision_revision hrevision]
    rfl

end

def zeroHash : Sha256 where
  hex _ := List.replicate 64 0x30
  isSha256 _ := by decide +kernel

def zeroIds : Uuids where
  simple _ := List.replicate 32 0x30
  length _ := by decide
  hexadecimal _ := by decide +kernel

def sampleFile : UpdateMetadata where
  dev := 1
  ino := 7
  len := 1
  mtime := 0
  mtimeNsec := 0
  isFile := true
  mode := 0o100644

def sampleSource : UpdateFilesystem where
  probeBefore _ := .absent
  opened _ := some sampleFile
  reads _ := [some [0x78]]
  after _ := some sampleFile
  again _ := some sampleFile
  probeAfter _ := .absent

def sampleArgs : SessionUpdateArgs where
  session := [0x73, 0x65, 0x73, 0x5f, 0x30]
  revision := revision 0
  requestId := [0x72]
  files := [[0x61]]
  deletes := [[0x62]]

def sampleSubmission : Submission where
  request := sampleRequest
  metadata := []
  archive := [⟨[0x61], Client.regularMode false, [0x78]⟩]
  expectedChanged := [⟨[0x61], List.replicate 64 0x30⟩]

def sampleRecord : Record where
  name := [0x61]
  isDir := false
  unixMode := some 0o100644
  size := 1
  reads := [some [0x78], some []]

def sampleCall : Sessions.UpdateRequest :=
  Sessions.sampleUpdate "r" 0

def sampleEvidence (path : String) : Sessions.SessionUpdateEvidence :=
  ⟨path, String.ofList (List.replicate 64 '0')⟩

/-- The update is applied, up to the point where it returns. -/
def sampleRun : List Sessions.Event :=
  Sessions.readyRun ++ [.call 1 (.startUpdate sampleCall), .run 1 .go,
    .run 1 (.mutated [sampleEvidence "a"] [sampleEvidence "b"]), .run 1 (.wrote .ok), .run 1 .go]

/-- A workspace with the files `a` and `b`. -/
def twoFiles : Fs Text
  | 0 => some (.dir fun name =>
    if name = [0x61] then some 1 else if name = [0x62] then some 2 else none)
  | 1 => some (.file ⟨[0x79], ⟨7, 7, 0o600⟩⟩)
  | 2 => some (.file ⟨[0x7a], ⟨7, 7, 0o600⟩⟩)
  | _ => none

def twoFilesContext : ApplyContext where
  kernel := { interfere := fun w => w.fs, fault := fun _ => none, alloc := fun n => n + 3 }
  caseRule := .sensitive
  workspace := 0
  temp := fun n => List.replicate (n + 2) 0x74
  cancelled := fun _ => false
  digest := zeroHash.hex
  taskUid := 1000
  taskGid := 1000
  created := ⟨0, 0, 0o600⟩

def twoFilesUpdate : PreparedUpdate twoFilesContext.digest where
  changes := [⟨[0x61], .file 0 (List.replicate 64 0x30)⟩, ⟨[0x62], .delete⟩]
  staged := fun _ => [0x78]
  hashes := by
    intro path index sha256 h
    simp only [List.mem_cons, PreparedChange.mk.injEq, PreparedKind.file.injEq, reduceCtorEq,
      and_false, or_false, List.not_mem_nil] at h
    exact h.2.2.symm
  valid := by
    intro change h
    simp only [List.mem_cons, List.not_mem_nil, or_false] at h
    rcases h with rfl | rfl
    · exact ⟨1, by decide⟩
    · exact ⟨1, by decide⟩
  distinct := by decide

/-- What an update that is applied has found. -/
def found? (result : EStateM.Result UpdateError Files AppliedEvidence) : Option AppliedEvidence :=
  match result with
  | .ok found _ => some found
  | .error _ _ => none

theorem twoFiles_applied : found? (applyUpdate twoFilesContext twoFilesUpdate (start twoFiles)) =
    some ⟨[⟨[0x61], replicate 64 0x30⟩], [⟨[0x62], replicate 64 0x30⟩]⟩ := by
  decide +kernel

theorem sampleEvidence_fromApply : FromApply zeroHash.hex samplePolicy sampleRequest
    [sampleRecord.entry] [sampleEvidence "a"] [sampleEvidence "b"] := by
  have hprepare : prepareUpdate sampleContext samplePolicy sampleRequest [sampleRecord.entry] none =
      .ok twoFilesUpdate.changes _ := rfl
  refine ⟨sampleContext, _, _, rfl, hprepare, twoFilesContext, twoFilesUpdate, twoFiles, ?_⟩
  have happlied := twoFiles_applied
  cases hrun : applyUpdate twoFilesContext twoFilesUpdate (start twoFiles) with
  | error e w => simp [hrun, found?] at happlied
  | ok found w =>
    simp only [hrun, found?, Option.some.injEq] at happlied
    subst happlied
    exact ⟨_, w, rfl, rfl, rfl, by decide +kernel, by decide +kernel⟩

end IndenturedServer.SourceUpdates
