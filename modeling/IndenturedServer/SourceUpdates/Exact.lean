import IndenturedServer.Artifacts.Matching
import IndenturedServer.SourceUpdates.Metadata

/-!
The preparation of a source update, against its declarations.

`prepare_update` has two inputs that the caller controls: the declared changes
and the archive. It compares the paths of the changes with the configured
patterns, makes a staging directory, and lets `prepare_archive` copy the entries
into it. At the end the staged files are looked up under the declared paths, and
a path that is not there is a panic. Nothing checks for it in one place: the
archive has as many entries as there are declared files, no two entries have the
same name, every name is declared, and the parser has seen to it that no path is
declared twice.

`update_preparation_exact` puts these together: what is prepared is what was
declared, and the lookup does not fail.
-/

namespace IndenturedServer.SourceUpdates

open Foundation Source List Change
open Artifacts (Globs)

/-! ### The call -/

structure SourceUpdatesConfig extends Policy where
  includes : List Text
  excludes : List Text
  maxDepth : Nat

inductive PrepareMessage
  /-- configured source update glob is invalid -/
  | invalidGlob
  /-- change path .. is outside the configured source update allowlist -/
  | outsideAllowlist (path : Text)
  /-- failed to create update staging -/
  | createStaging
  | archive (message : UpdateMessage)
  deriving DecidableEq, Repr

structure PrepareError where
  kind : UpdateErrorKind
  message : PrepareMessage
  rollbackProven : Bool
  deriving DecidableEq, Repr

def PrepareError.ofArchive (e : UpdateError) : PrepareError :=
  ⟨e.kind, .archive e.message, e.rollbackProven⟩

structure PrepareContext where
  globs : Globs
  digest : Text → Text
  fault : Nat → Option Nat
  creates : Bool := true
  /-- `set_permissions` of the staging directory succeeds. -/
  protects : Bool := true
  /-- `remove_dir_all` of the staging directory succeeds. -/
  removes : Bool := true

def compilePattern (globs : Globs) (pattern : Text) : Except PrepareError Unit :=
  refuse (globs.compiles pattern = false) ⟨.internal, .invalidGlob, true⟩

def matchesAny (globs : Globs) (patterns : List Text) (path : Text) : Bool :=
  patterns.any fun pattern => globs.matchesText pattern path

def checkAllowed (globs : Globs) (policy : SourceUpdatesConfig) (change : Change) :
    Except PrepareError Unit :=
  refuse (matchesAny globs policy.includes change.path = false ∨
    matchesAny globs policy.excludes change.path = true)
    ⟨.badRequest, .outsideAllowlist change.path, true⟩

section
variable (s : PrepareContext)

/-- The staging directory is there if both calls succeed, and if only the first
one does. -/
def createStaging : EStateM PrepareError (Option Staging) Unit := fun d =>
  if s.creates = false then .error ⟨.internal, .createStaging, true⟩ d
  else if s.protects = false then .error ⟨.internal, .createStaging, true⟩ (some {})
  else .ok () (some {})

def removeStaging : EStateM PrepareError (Option Staging) Unit := fun d =>
  .ok () (if s.removes then none else d)

/-- A program on the staging directory. -/
def inStaging {α : Type} (x : EStateM UpdateError Staging α) :
    EStateM PrepareError (Option Staging) α := fun d =>
  match x (d.getD {}) with
  | .ok a staging => .ok a (some staging)
  | .error e staging => .error (.ofArchive e) (some staging)

def prepareUpdate (policy : SourceUpdatesConfig) (request : SessionUpdateRequest)
    (archive : List Entry) : EStateM PrepareError (Option Staging) (List PreparedChange) := do
  MonadExcept.ofExcept (policy.includes.forM (compilePattern s.globs))
  MonadExcept.ofExcept (policy.excludes.forM (compilePattern s.globs))
  MonadExcept.ofExcept (request.changes.forM (checkAllowed s.globs policy))
  createStaging s
  tryCatch (inStaging (prepareArchive s.fault s.digest policy.toPolicy request.changes archive))
    fun e => do
      removeStaging s
      throw e

end

/-! ### What is staged -/

/-- The bytes of a staged file. -/
def contents (writes : List (Nat × Text)) (index : Nat) : Text :=
  (writes.filter (·.1 = index)).flatMap Prod.snd

variable {writes : List (Nat × Text)}

theorem contents_append {extra : List (Nat × Text)} {index : Nat}
    (hextra : ∀ write ∈ extra, write.1 = index) :
    contents (writes ++ extra) index = contents writes index ++ extra.flatMap Prod.snd := by
  have hall : extra.filter (·.1 = index) = extra :=
    filter_eq_self.mpr fun write hwrite => decide_eq_true (hextra write hwrite)
  rw [contents, contents, filter_append, hall, flatMap_append]

theorem contents_of_lt {index : Nat} (h : ∀ write ∈ writes, write.1 < index) :
    contents writes index = [] := by
  have hnone : writes.filter (·.1 = index) = [] := by
    apply filter_eq_nil_iff.mpr
    intro write hwrite
    have := h write hwrite
    simp only [decide_eq_true_eq]
    omega
  rw [contents, hnone, flatMap_nil]

def Change.asFile : Change → Option (Text × Text)
  | .file path sha256 => some (path, sha256)
  | .delete _ => none

/-- A prepared change is the declared one, and a staged file has the declared
contents and comes from the entry of that name. -/
inductive Prepares (digest : Text → Text) (archive : List Entry) (writes : List (Nat × Text)) :
    Change → PreparedChange → Prop
  | file {path sha256 : Text} {index : Nat} (hentry : (archive[index]?).map Entry.name = some path)
      (hhash : digest (contents writes index) = sha256) :
      Prepares digest archive writes (.file path sha256) ⟨path, .file index sha256⟩
  | delete {path : Text} : Prepares digest archive writes (.delete path) ⟨path, .delete⟩

variable {α : Type}

section
variable {fault : Nat → Option Nat} {digest : Text → Text} {policy : Policy}
  {declared : List (Text × Text)}

/-- After the entries `done`, which have the numbers from 0 on. -/
structure StagedEntries (digest : Text → Text) (declared : List (Text × Text)) (done : List Entry)
    (pass : Pass) (staged : List (Text × Nat × Text)) (writes : List (Nat × Text)) : Prop where
  seen : pass.seen = (done.map Entry.name).reverse
  distinct : (done.map Entry.name).Nodup
  numbered : staged.map (fun file => (file.1, file.2.1)) = (done.map Entry.name).zipIdx.reverse
  hashes : ∀ file ∈ staged, declared.lookup file.1 = some file.2.2 ∧
    digest (contents writes file.2.1) = file.2.2
  numbers : ∀ write ∈ writes, write.1 < done.length
  regular : ∀ entry ∈ done, RegularEntry entry

theorem stagedEntries_nil (digest : Text → Text) (declared : List (Text × Text)) (s : Staging)
    (hs : s.writes = []) : StagedEntries digest declared [] {} [] s.writes := by
  rw [hs]
  exact ⟨rfl, nodup_nil, rfl, by simp, by simp, by simp⟩

theorem StagedEntries.index_lt {done : List Entry} {pass : Pass} {staged : List (Text × Nat × Text)}
    (h : StagedEntries digest declared done pass staged writes) {file : Text × Nat × Text}
    (hfile : file ∈ staged) :
    file.2.1 < done.length ∧ (done[file.2.1]?).map Entry.name = some file.1 := by
  have hmem : (file.1, file.2.1) ∈ (done.map Entry.name).zipIdx := by
    rw [← mem_reverse, ← h.numbered]
    exact mem_map_of_mem hfile
  rw [mem_zipIdx_iff_getElem?, getElem?_map] at hmem
  constructor
  · by_contra hge
    rw [getElem?_eq_none (Nat.le_of_not_lt hge)] at hmem
    cases hmem
  · exact hmem

theorem contents_append_of_ne {extra : List (Nat × Text)} {index other : Nat}
    (hextra : ∀ write ∈ extra, write.1 = index) (h : other ≠ index) :
    contents (writes ++ extra) other = contents writes other := by
  have hnone : extra.filter (·.1 = other) = [] := by
    apply filter_eq_nil_iff.mpr
    intro write hwrite
    simp only [decide_eq_true_eq, hextra write hwrite]
    exact h.symm
  rw [contents, contents, filter_append, hnone, append_nil]

theorem prepareEntry_staged (done : List Entry) (entry : Entry) (pass : Pass)
    (staged : List (Text × Nat × Text)) :
    Triple (fun s => StagedEntries digest declared done pass staged s.writes)
      (prepareEntry fault digest policy declared (pass, staged) (entry, done.length))
      (fun next s => StagedEntries digest declared (done ++ [entry]) next.1 next.2 s.writes)
      Orderly := by
  intro s hs
  refine (prepareEntry_triple pass staged entry s rfl).mono ?_ fun _ _ h => h.orderly
  rintro _ s' ⟨expected, after, hpasses, rfl, extra, hwrites, hextra, hbytes⟩
  obtain ⟨hseen, -, hlookup, hregular, -, hafter⟩ := Pass.accept_ok_iff.mp hpasses.accepts
  -- what the files of the entries before hold does not change any more
  refine ⟨by simp [hs.seen, hafter], ?_, ?_, ?_, ?_, ?_⟩
  · rw [map_append, map_singleton, nodup_append_comm, singleton_append, nodup_cons]
    exact ⟨by simpa [hs.seen] using hseen, hs.distinct⟩
  · rw [map_cons, hs.numbered, map_append, zipIdx_append, reverse_append]
    simp
  · intro file hfile
    obtain rfl | hfile := mem_cons.mp hfile
    · refine ⟨hlookup, ?_⟩
      rw [hwrites, contents_append hextra, contents_of_lt hs.numbers, nil_append, hbytes]
      exact hpasses.hash
    · refine ⟨(hs.hashes file hfile).1, ?_⟩
      rw [hwrites, contents_append_of_ne hextra (hs.index_lt hfile).1.ne]
      exact (hs.hashes file hfile).2
  · intro write hwrite
    rw [hwrites] at hwrite
    rw [length_append, length_singleton]
    obtain hold | hnew := mem_append.mp hwrite
    · exact Nat.lt_add_right 1 (hs.numbers write hold)
    · rw [hextra write hnew]
      exact Nat.lt_add_one _
  · intro e he
    obtain he | he := mem_append.mp he
    · exact hs.regular e he
    · rw [mem_singleton.mp he]
      exact hregular

theorem prepareEntries_staged (rest : List Entry) :
    ∀ (done : List Entry) (pass : Pass) (staged : List (Text × Nat × Text)),
    Triple (fun s => StagedEntries digest declared done pass staged s.writes)
      ((rest.zipIdx done.length).foldlM (prepareEntry fault digest policy declared) (pass, staged))
      (fun next s => StagedEntries digest declared (done ++ rest) next.1 next.2 s.writes)
      Orderly := by
  induction rest with
  | nil =>
    intro done pass staged
    apply Triple.pure
    intro s hs
    rwa [append_nil]
  | cons entry rest ih =>
    intro done pass staged
    refine Triple.bind (prepareEntry_staged done entry pass staged) fun next => ?_
    have hrest := ih (done ++ [entry]) next.1 next.2
    rwa [length_append, length_singleton, append_assoc, singleton_append] at hrest

end

/-! ### The declarations and the archive -/

def declaredPaths (changes : List Change) : List Text :=
  (changes.filterMap Change.asFile).map Prod.fst

theorem declaredPaths_sublist (changes : List Change) :
    (declaredPaths changes).Sublist (changes.map path) := by
  induction changes with
  | nil => exact Sublist.refl _
  | cons change rest ih =>
    cases change with
    | file path sha256 => exact ih.cons_cons path
    | delete path => exact ih.cons path

/-- One turn of the loop that makes the hash map. -/
def declare (files : List (Text × Text)) : Change → List (Text × Text)
  | .file path sha256 => (path, sha256) :: files.filter (·.1 ≠ path)
  | .delete _ => files

/-- No path is declared twice, so that nothing in the hash map is replaced. -/
theorem declaredFiles_eq {changes : List Change} (h : (changes.map Change.path).Nodup) :
    declaredFiles changes = (changes.filterMap Change.asFile).reverse := by
  suffices ∀ (rest : List Change) (files : List (Text × Text)),
      (files.map Prod.fst ++ rest.map Change.path).Nodup →
      rest.foldl declare files = (rest.filterMap Change.asFile).reverse ++ files by
    have hall := this changes [] (by simpa using h)
    rwa [List.append_nil] at hall
  intro rest
  induction rest with
  | nil => simp
  | cons change rest ih =>
    intro files hnodup
    rw [List.foldl_cons]
    cases change with
    | delete path => exact ih files (hnodup.sublist (by simp [Change.path]))
    | file path sha256 =>
      have hnew : ∀ file ∈ files, file.1 ≠ path := by
        intro file hfile heq
        exact List.disjoint_of_nodup_append hnodup (List.mem_map_of_mem hfile)
          (by simp [heq, Change.path])
      have hkept : files.filter (·.1 ≠ path) = files :=
        List.filter_eq_self.mpr fun file hfile => decide_eq_true (hnew file hfile)
      rw [declare, hkept, ih]
      · simp [Change.asFile]
      · rw [List.map_cons, List.cons_append]
        exact List.perm_middle.nodup_iff.mp hnodup

def FoundIn (staged : List (Text × Nat × Text)) : Change → PreparedChange → Prop
  | .file path _, prepared => ∃ index sha256, (path, index, sha256) ∈ staged ∧
      prepared = ⟨path, .file index sha256⟩
  | .delete path, prepared => prepared = ⟨path, .delete⟩

variable {change : Change}

theorem FoundIn.mono {staged more : List (Text × Nat × Text)} (hsub : staged ⊆ more)
    {prepared : PreparedChange} (h : FoundIn staged change prepared) :
    FoundIn more change prepared := by
  cases change with
  | delete path => exact h
  | file path sha256 =>
    obtain ⟨index, hash, hfile, hprepared⟩ := h
    exact ⟨index, hash, hsub hfile, hprepared⟩

theorem preparedChanges_ok (changes : List Change) :
    ∀ staged : List (Text × Nat × Text), (changes.map Change.path).Nodup →
    (∀ path ∈ declaredPaths changes, path ∈ staged.map Prod.fst) →
    ∃ prepared, preparedChanges staged changes = .ok prepared ∧
      List.Forall₂ (FoundIn staged) changes prepared := by
  induction changes with
  | nil => exact fun staged _ _ => ⟨[], rfl, .nil⟩
  | cons change rest ih =>
    intro staged hnodup hstaged
    rw [List.map_cons, List.nodup_cons] at hnodup
    cases change with
    | delete path =>
      obtain ⟨prepared, hprepared, hfound⟩ := ih staged hnodup.2 hstaged
      exact ⟨⟨path, .delete⟩ :: prepared, by rw [preparedChanges, hprepared]; rfl, .cons rfl hfound⟩
    | file path sha256 =>
      obtain ⟨hpath, hrest⟩ := List.forall_mem_cons.mp hstaged
      obtain ⟨file, hfile, hname⟩ := List.mem_map.mp hpath
      obtain ⟨⟨index, hash⟩, hlookup⟩ := Option.isSome_iff_exists.mp
        (List.lookup_isSome_iff.mpr ⟨file, hfile, beq_iff_eq.mpr hname.symm⟩)
      have hmem : (path, index, hash) ∈ staged := by
        obtain ⟨before, after, heq, -⟩ := List.lookup_eq_some_iff.mp hlookup
        rw [heq]
        exact List.mem_append_right _ List.mem_cons_self
      -- what is removed from the map is not asked for again
      have hothers : ∀ other ∈ declaredPaths rest,
          other ∈ (staged.filter (·.1 ≠ path)).map Prod.fst := by
        intro other hother
        obtain ⟨f, hf, rfl⟩ := List.mem_map.mp (hrest other hother)
        refine List.mem_map_of_mem (List.mem_filter.mpr ⟨hf, decide_eq_true ?_⟩)
        rintro rfl
        exact hnodup.1 ((declaredPaths_sublist rest).subset hother)
      obtain ⟨prepared, hprepared, hfound⟩ := ih _ hnodup.2 hothers
      refine ⟨⟨path, .file index hash⟩ :: prepared, ?_, .cons ⟨index, hash, hmem, rfl⟩ ?_⟩
      · rw [preparedChanges, hlookup]
        simp only [hprepared]
        rfl
      · exact hfound.imp fun _ _ h => h.mono (List.filter_subset_self _)

/-- The entries are the declared files, one for one. -/
theorem names_perm {changes : List Change} {archive : List Entry}
    (hpaths : (changes.map Change.path).Nodup)
    (hdistinct : (archive.map Entry.name).Nodup)
    (hdeclared : ∀ entry ∈ archive, ((declaredFiles changes).lookup entry.name).isSome)
    (hcount : archive.length = (declaredFiles changes).length) :
    (archive.map Entry.name).Perm (declaredPaths changes) := by
  rw [declaredFiles_eq hpaths] at hdeclared hcount
  have hsub : archive.map Entry.name ⊆ declaredPaths changes := by
    intro name hname
    obtain ⟨entry, hentry, rfl⟩ := mem_map.mp hname
    obtain ⟨file, hfile, heq⟩ := lookup_isSome_iff.mp (hdeclared entry hentry)
    rw [eq_of_beq heq]
    exact mem_map_of_mem (mem_reverse.mp hfile)
  apply (subperm_of_subset hdistinct hsub).perm_of_length_le
  simp [declaredPaths, hcount]

theorem declaredFiles_lookup {changes : List Change} (hpaths : (changes.map Change.path).Nodup)
    {path sha256 hash : Text} (hchange : .file path sha256 ∈ changes)
    (hlookup : (declaredFiles changes).lookup path = some hash) : hash = sha256 := by
  rw [declaredFiles_eq hpaths] at hlookup
  obtain ⟨before, after, heq, -⟩ := lookup_eq_some_iff.mp hlookup
  have hfound : (path, hash) ∈ changes.filterMap asFile := by
    rw [← mem_reverse, heq]
    exact mem_append_right _ mem_cons_self
  have hdeclared : (path, sha256) ∈ changes.filterMap asFile :=
    mem_filterMap.mpr ⟨_, hchange, rfl⟩
  have hsame := inj_on_of_nodup_map (hpaths.sublist (declaredPaths_sublist changes))
    hfound hdeclared rfl
  exact (Prod.mk.inj hsame).2

/-! ### The result -/

structure PreparedExactly (s : PrepareContext) (policy : SourceUpdatesConfig)
    (request : SessionUpdateRequest) (archive : List Entry) (changes : List PreparedChange)
    (staging : Staging) : Prop where
  entries : (archive.map Entry.name).Perm (declaredPaths request.changes)
  distinctEntries : (archive.map Entry.name).Nodup
  regular : ∀ entry ∈ archive, RegularEntry entry
  allowed : ∀ change ∈ request.changes, matchesAny s.globs policy.includes change.path = true ∧
    matchesAny s.globs policy.excludes change.path = false
  paths : ∀ change ∈ request.changes, UpdatePath change.path
  distinct : (request.changes.map fun change => toAsciiLowercase change.path).Nodup
  prepared : List.Forall₂ (Prepares s.digest archive staging.writes) request.changes changes

section
variable {fault : Nat → Option Nat} {digest : Text → Text} {policy : Policy} {changes : List Change}
  {archive : List Entry}

variable (hpaths : (changes.map Change.path).Nodup)
include hpaths

theorem StagedEntries.prepares {pass : Pass} {staged : List (Text × Nat × Text)}
    (h : StagedEntries digest (declaredFiles changes) archive pass staged writes)
    {prepared : PreparedChange} (hchange : change ∈ changes)
    (hfound : FoundIn staged change prepared) : Prepares digest archive writes change prepared := by
  cases change with
  | delete path =>
    rw [hfound]
    exact .delete
  | file path sha256 =>
    obtain ⟨index, hash, hfile, rfl⟩ := hfound
    obtain ⟨hlookup, hhash⟩ := h.hashes _ hfile
    obtain rfl : hash = sha256 := declaredFiles_lookup hpaths hchange hlookup
    exact .file (h.index_lt hfile).2 hhash

theorem StagedEntries.preparedChanges {pass : Pass} {staged : List (Text × Nat × Text)}
    (hcount : archive.length = (declaredFiles changes).length)
    (h : StagedEntries digest (declaredFiles changes) archive pass staged writes) :
    (archive.map Entry.name).Perm (declaredPaths changes) ∧
      ∃ prepared, SourceUpdates.preparedChanges staged changes = .ok prepared ∧
        Forall₂ (Prepares digest archive writes) changes prepared := by
  have hkeys : staged.map Prod.fst = (archive.map Entry.name).reverse := by
    have hfirst := congrArg (List.map Prod.fst) h.numbered
    rw [map_map, map_reverse, zipIdx_map_fst] at hfirst
    exact hfirst
  have hperm : (archive.map Entry.name).Perm (declaredPaths changes) := by
    refine names_perm hpaths h.distinct (fun entry hentry => ?_) hcount
    have hmem : entry.name ∈ staged.map Prod.fst := by
      rw [hkeys, mem_reverse]
      exact mem_map_of_mem hentry
    obtain ⟨file, hfile, hname⟩ := mem_map.mp hmem
    rw [← hname, (h.hashes file hfile).1]
    rfl
  have hstaged : ∀ path ∈ declaredPaths changes, path ∈ staged.map Prod.fst := by
    intro path hpath
    rw [hkeys, mem_reverse]
    exact hperm.mem_iff.mpr hpath
  obtain ⟨prepared, hprepared, hfound⟩ := preparedChanges_ok changes staged hpaths hstaged
  have hmem : Forall₂ (fun change p => change ∈ changes ∧ FoundIn staged change p)
      changes prepared := (forall₂_and_left _ _).mpr ⟨fun _ hchange => hchange, hfound⟩
  exact ⟨hperm, prepared, hprepared, hmem.imp fun _ _ hp => h.prepares hpaths hp.1 hp.2⟩

theorem prepareArchive_exact :
    Triple (fun s => s.writes = []) (prepareArchive fault digest policy changes archive)
      (fun prepared s => (archive.map Entry.name).Perm (declaredPaths changes) ∧
        (archive.map Entry.name).Nodup ∧ (∀ entry ∈ archive, RegularEntry entry) ∧
        Forall₂ (Prepares digest archive s.writes) changes prepared)
      Orderly := by
  refine (prepareArchive_triple ((prepareEntries_staged archive [] {} []).onEntry
    (stagedEntries_nil digest _))).mono (fun _ hs => hs) ?_ ?_
  · rintro prepared s ⟨hpass, next, hs, hok⟩
    have hcount := not_not.mp (not_or.mp hpass).2
    obtain ⟨hperm, prepared', hok', hall⟩ := StagedEntries.preparedChanges hpaths hcount hs
    cases hok.symm.trans hok'
    exact ⟨hperm, hs.distinct, hs.regular, hall⟩
  · rintro e s (⟨horderly, -⟩ | ⟨hpass, horderly | ⟨next, hs, herror⟩⟩)
    · exact horderly
    · exact horderly
    · have hcount := not_not.mp (not_or.mp hpass).2
      obtain ⟨-, prepared, hok, -⟩ := StagedEntries.preparedChanges hpaths hcount hs
      cases herror.symm.trans hok

end

theorem inStaging_triple {P : Staging → Prop} {Q : α → Staging → Prop}
    {x : EStateM UpdateError Staging α} (h : Triple P x Q Orderly) :
    Triple (fun d => ∃ staging, d = some staging ∧ P staging) (inStaging x)
      (fun a d => ∃ staging, d = some staging ∧ Q a staging)
      fun e _ => e.message ≠ .archive .workerPanicked := by
  rintro d ⟨staging, rfl, hP⟩
  show Ends _ _ (inStaging x (some staging))
  unfold inStaging
  obtain ⟨a, after, hrun, hQ⟩ | ⟨e, after, hrun, he⟩ := h.run_cases hP
  · rw [Option.getD_some, hrun]
    exact ⟨after, rfl, hQ⟩
  · rw [Option.getD_some, hrun]
    exact fun hpanic => he (PrepareMessage.archive.inj hpanic)

variable {l : List α}

/-- The patterns compile and every path passes them, or there is an error before
the staging directory is made. -/
theorem check_triple {f : α → Except PrepareError Unit}
    (hf : ∀ a e, f a = .error e → e.message ≠ .archive .workerPanicked) :
    Triple (fun d : Option Staging => d = none)
      (MonadExcept.ofExcept (l.forM f) : EStateM PrepareError (Option Staging) Unit)
      (fun _ d => (∀ a ∈ l, f a = .ok ()) ∧ d = none)
      fun e _ => e.message ≠ .archive .workerPanicked := by
  apply Triple.ofExcept
  · intro _ d hok hd
    exact ⟨forM_ok_iff.mp hok, hd⟩
  · intro e d herror _
    induction l with
    | nil => cases herror
    | cons a rest ih =>
      cases ha : f a with
      | error e' =>
        change f a >>= (fun _ => rest.forM f) = .error e at herror
        rw [ha] at herror
        cases herror
        exact hf a e ha
      | ok u =>
        change f a >>= (fun _ => rest.forM f) = .error e at herror
        rw [ha] at herror
        exact ih herror

theorem createStaging_triple (s : PrepareContext) : Triple (fun d => d = none) (createStaging s)
      (fun _ d => ∃ staging, d = some staging ∧ staging.writes = [])
      fun e _ => e.message ≠ .archive .workerPanicked := by
  rintro d rfl
  unfold createStaging
  split
  · nofun
  · split
    · nofun
    · exact ⟨{}, rfl, rfl⟩

theorem prepareUpdate_triple (s : PrepareContext) (policy : SourceUpdatesConfig)
    {request : SessionUpdateRequest} (hpaths : (request.changes.map Change.path).Nodup)
    (archive : List Entry) :
    Triple (fun d => d = none) (prepareUpdate s policy request archive)
      (fun changes d => (∀ change ∈ request.changes, checkAllowed s.globs policy change = .ok ()) ∧
        ∃ staging, d = some staging ∧
        (archive.map Entry.name).Perm (declaredPaths request.changes) ∧
        (archive.map Entry.name).Nodup ∧ (∀ entry ∈ archive, RegularEntry entry) ∧
        Forall₂ (Prepares s.digest archive staging.writes) request.changes changes)
      fun e _ => e.message ≠ .archive .workerPanicked := by
  have hcompile : ∀ pattern e, compilePattern s.globs pattern = .error e →
      e.message ≠ .archive .workerPanicked := by
    intro pattern e herror
    unfold compilePattern refuse at herror
    split at herror
    · cases herror
      nofun
    · cases herror
  have hallow : ∀ change e, checkAllowed s.globs policy change = .error e →
      e.message ≠ .archive .workerPanicked := by
    intro change e herror
    unfold checkAllowed refuse at herror
    split at herror
    · cases herror
      nofun
    · cases herror
  refine Triple.bind (check_triple hcompile) fun _ => Triple.given fun _ => ?_
  refine Triple.bind (check_triple hcompile) fun _ => Triple.given fun _ => ?_
  refine Triple.bind (check_triple hallow) fun _ => Triple.given fun hallowed => ?_
  refine Triple.bind (createStaging_triple s) fun _ => ?_
  refine Triple.tryCatch ((inStaging_triple (prepareArchive_exact hpaths)).onReturn fun changes d hd => ⟨hallowed, hd⟩) fun e => ?_
  exact fun d he => he

/-- Whatever the metadata says and the archive contains: a preparation that
succeeds has staged what was declared, and none panics. -/
theorem update_preparation_exact (serde : Serde) (s : PrepareContext) (policy : SourceUpdatesConfig)
    (data : Text) (archive : List Entry) {request : SessionUpdateRequest}
    (hparse : parseSessionUpdateMetadata serde data policy.maxFiles policy.maxDepth = .ok request) :
    (∀ changes d, prepareUpdate s policy request archive none = .ok changes d →
      ∃ staging, d = some staging ∧ PreparedExactly s policy request archive changes staging) ∧
    ∀ e d, prepareUpdate s policy request archive none = .error e d →
      e.message ≠ .archive .workerPanicked := by
  have hacceptable := parseSessionUpdateMetadata_ok hparse
  have hpaths : (request.changes.map Change.path).Nodup := by
    refine List.Nodup.of_map toAsciiLowercase ?_
    rw [List.map_map]
    exact hacceptable.distinct
  obtain ⟨changes, d, hrun, hallowed, staging, hd, hentries, hdistinct, hregular, hprepared⟩ |
    ⟨e, d, hrun, he⟩ := (prepareUpdate_triple s policy hpaths archive).run_cases rfl
  · refine ⟨fun changes' d' hrun' => ?_, fun e d' hrun' => ?_⟩
    · cases hrun.symm.trans hrun'
      refine ⟨staging, hd, hentries, hdistinct, hregular, fun change hchange => ?_,
        fun change hchange => (validateUpdatePath_ok_iff.mp (hacceptable.paths change hchange)).1,
        hacceptable.distinct, hprepared⟩
      obtain ⟨hincluded, hexcluded⟩ := not_or.mp (refuse_eq_ok.mp (hallowed change hchange))
      exact ⟨by simpa using hincluded, by simpa using hexcluded⟩
    · cases hrun.symm.trans hrun'
  · refine ⟨fun changes' d' hrun' => ?_, fun e' d' hrun' => ?_⟩
    · cases hrun.symm.trans hrun'
    · cases hrun.symm.trans hrun'
      exact he

/-- The file `a` is replaced and `b` deleted. -/
def sampleRequest : SessionUpdateRequest where
  schemaVersion := sessionUpdateSchemaVersion
  requestId := [0x72]
  baseRevision := revision 0
  source := ⟨.zip⟩
  changes := [.file [0x61] (List.replicate 64 0x30), .delete [0x62]]

/-- Every byte string is read as the one request. -/
def sampleSerde : Serde where
  fromSlice _ := .ok (.object [(schemaVersionField, .string sessionUpdateSchemaVersion)])
  fromValue _ := .ok sampleRequest

def samplePolicy : SourceUpdatesConfig where
  maxUncompressedBytes := 10
  maxFiles := 2
  includes := [[0x2a]]
  excludes := []
  maxDepth := 1

def sampleContext : PrepareContext where
  globs := { compiles := fun _ => true, matchesText := fun _ _ => true }
  digest := fun _ => List.replicate 64 0x30
  fault := fun _ => none

def sampleArchive : List Entry :=
  [{ name := [0x61], isDir := false, isSymlink := false, unixMode := some 0o100644, size := 1,
     reads := [some [0x78], some []] }]

theorem update_preparation_exact_sample :
    parseSessionUpdateMetadata sampleSerde [] samplePolicy.maxFiles samplePolicy.maxDepth =
      .ok sampleRequest ∧
    ∃ changes staging,
      prepareUpdate sampleContext samplePolicy sampleRequest sampleArchive none =
        .ok changes (some staging) ∧
      PreparedExactly sampleContext samplePolicy sampleRequest sampleArchive changes staging := by
  have hparse : parseSessionUpdateMetadata sampleSerde [] samplePolicy.maxFiles
      samplePolicy.maxDepth = .ok sampleRequest := by rfl
  refine ⟨hparse, _, _, rfl, ?_⟩
  obtain ⟨staging, hstaging, hexact⟩ :=
    (update_preparation_exact sampleSerde sampleContext samplePolicy [] sampleArchive hparse).1 _ _ rfl
  cases hstaging
  exact hexact

end IndenturedServer.SourceUpdates
