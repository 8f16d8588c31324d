import IndenturedServer.Artifacts.Consumable
import IndenturedServer.Artifacts.LimitedWriter
import IndenturedServer.Artifacts.Pruning

/-!
Which files a collection archives.

In a workspace that nobody changes, a collection that succeeds has archived
exactly the files that the patterns select, within the limits, and says which
of them the restricted patterns have kept back. One that fails removes the
directory that it has made for the archive, with one exception: the directory
stays if its permissions cannot be set.
-/

namespace IndenturedServer.Artifacts

open Foundation Source Matched Triple List

/-! ### What is selected -/

section
variable (s : CollectContext) (spec : ArtifactSpec) (config : ArtifactsConfig) (fs : Fs Text)

def CollectContext.Matches (pattern : Text) (path : List Text) : Prop :=
  s.globs.matchesText pattern (join path) = true

/-- Selected, as far as the action has a say. -/
structure Candidate (path : List Text) : Prop where
  present : ∃ ino shape, fs.look s.buildRoot path = some (ino, shape) ∧ shape ≠ .dir
  included : ∃ pattern ∈ spec.includes, ∃ ancestor, ancestor <+: path ∧ ancestor ≠ [] ∧
    s.Matches pattern ancestor
  notExcluded : ∀ pattern ∈ spec.excludes, ¬ s.Matches pattern path
  notInternal : ¬ s.Matches internalExcludePattern path

def Restricted (path : List Text) : Prop :=
  ∃ pattern ∈ config.restrictedPatterns, s.Matches pattern path

def Selected (path : List Text) : Prop :=
  Candidate s spec fs path ∧ ¬ Restricted s config path

def Holds (path : List Text) (file : ArchivedFile) : Prop :=
  ∃ ino data, fs.look s.buildRoot path = some (ino, .file data) ∧
    file.name = archiveName path ∧ file.content = data.content

/-- What a collection reports about paths that were kept back. -/
def reported (removed : List (List Text)) : Option ArtifactRestrictions :=
  if removed = [] then none
  else some ⟨removed.length, config.restrictedPatterns.filter fun pattern =>
    removed.any fun path => s.globs.matchesText pattern (join path)⟩

/-- The archive is that of `paths`, without those that are `removed`. -/
structure Collected (collection : ArtifactCollection) (w : Store) (paths removed : List (List Text)) :
    Prop where
  selected : ∀ path, path ∈ paths ↔ Selected s spec config fs path
  archived : List.Forall₂ (Holds s fs) paths (w.own.published.getD [])
  count : paths.length ≤ config.maxFiles
  depth : ∀ path ∈ paths, path.length ≤ config.maxDepth
  folded : (paths.map fun path => toAsciiLowercase (join path)).Nodup
  total : contentTotal (w.own.published.getD []) ≤ config.maxUncompressedBytes
  archive : collection.archive = w.own.published.map fun files =>
    ⟨s!"/v1/builds/{s.buildId}/artifacts.zip", s.archiveLength files⟩
  size : ∀ files, w.own.published = some files → s.archiveLength files ≤ config.maxTransferBytes
  kept : removed.Nodup ∧ ∀ path, path ∈ removed ↔ Candidate s spec fs path ∧ Restricted s config path
  restrictions : collection.restrictions = reported s config removed

/-- Success with what is selected, or failure without a directory. -/
def Correct : EStateM.Result Halt Store ArtifactCollection → Prop
  | .ok collection w => ∃ paths removed, Collected s spec config fs collection w paths removed
  | .error (.failed _) w => w.own.directory = false
  | .error (.waiting _) _ => True

end

/-- The walk meets what is there and nothing else. -/
structure Lists (fs : Fs Text) (root : Ino) (walk : List WalkItem) : Prop where
  shows : ∀ entry, .found entry ∈ walk → ∃ ino shape, fs.look root entry.relative = some (ino, shape) ∧
    (entry.isDir = true ↔ shape = .dir) ∧ ∀ stat, entry.metadata = .ok stat → stat = ⟨ino, shape.kind⟩
  complete : ∀ path found, fs.look root path = some found →
    ∃ entry, .found entry ∈ walk ∧ entry.relative = path

/-! ### The walk -/

variable {e : Halt} {w : Store}

section
variable {s : CollectContext} {spec : ArtifactSpec} {config : ArtifactsConfig} {fs : Fs Text}
  {globs : Globs}

/-- An entry that is to be archived, unless it is restricted. -/
def Wanted (globs : Globs) (spec : ArtifactSpec) (entry : WalkEntry) : Prop :=
  entry.relative ≠ [] ∧ entry.isDir = false ∧
    isExcluded globs (excludePatterns spec) entry.relative = false ∧
    isIncluded globs spec.includes entry.relative = true

theorem noteMatched_paths (matched : List Matched) (relative : List Text) (identity : Ino)
    (hnodup : (matched.map Matched.relative).Nodup) :
    ((noteMatched matched relative identity).map Matched.relative).Nodup ∧
    ∀ path, path ∈ (noteMatched matched relative identity).map Matched.relative ↔
      path ∈ matched.map Matched.relative ∨ path = relative := by
  unfold noteMatched
  split
  · next hmem =>
    refine ⟨hnodup, fun path => ⟨.inl, ?_⟩⟩
    rintro (hpath | rfl)
    · exact hpath
    · exact hmem
  · next hnew =>
    rw [map_append, map_singleton]
    refine ⟨nodup_append.mpr ⟨hnodup, nodup_singleton _, ?_⟩, fun path => by simp⟩
    rintro path hpath _ hrelative rfl
    rw [mem_singleton.mp hrelative] at hpath
    exact hnew hpath

variable {t : Traversal}

theorem visit_paths {t' : Traversal} {item : WalkItem} (h : visit globs spec config t item = .ok t')
    (hnodup : (t.matched.map relative).Nodup) :
    (t'.matched.map relative).Nodup ∧
    ∀ path, path ∈ t'.matched.map Matched.relative ↔ path ∈ t.matched.map Matched.relative ∨
      ∃ entry, .found entry = item ∧ entry.relative = path ∧ Wanted globs spec entry := by
  cases item with
  | failed => cases h
  | outside => cases h
  | found entry =>
    -- the entry adds its path exactly if it is wanted
    have hunwanted : ¬ Wanted globs spec entry → t'.matched = t.matched →
        (t'.matched.map Matched.relative).Nodup ∧
        ∀ path, path ∈ t'.matched.map Matched.relative ↔ path ∈ t.matched.map Matched.relative ∨
          ∃ entry', WalkItem.found entry' = .found entry ∧ entry'.relative = path ∧
            Wanted globs spec entry' := by
      intro hnot hsame
      rw [hsame]
      refine ⟨hnodup, fun path => ⟨.inl, ?_⟩⟩
      rintro (hpath | ⟨_, ⟨⟩, -, hwanted⟩)
      · exact hpath
      · exact absurd hwanted hnot
    simp only [visit, visitEntry] at h
    split at h
    · next hroot =>
      cases h
      exact hunwanted (fun hwanted => hwanted.1 hroot) rfl
    · next hroot =>
      obtain ⟨observed, -, h⟩ := bind_eq_ok.mp h
      split at h
      · next hskip =>
        cases h
        refine hunwanted (fun hwanted => ?_) rfl
        obtain ⟨-, hdir, hexcluded, hincluded⟩ := hwanted
        simp [hdir, hexcluded, hincluded] at hskip
      · next hkeep =>
        obtain ⟨stat, -, h⟩ := bind_eq_ok.mp h
        cases h
        obtain ⟨hnodup', hpaths⟩ := noteMatched_paths t.matched entry.relative stat.ino hnodup
        refine ⟨hnodup', fun path => (hpaths path).trans (or_congr Iff.rfl ?_)⟩
        simp only [not_or, Bool.not_eq_true, Bool.not_eq_false] at hkeep
        constructor
        · rintro rfl
          exact ⟨entry, rfl, rfl, hroot, hkeep.1, hkeep.2.1, hkeep.2.2⟩
        · rintro ⟨_, ⟨⟩, hpath, -⟩
          exact hpath.symm

theorem foldlM_visit_paths (items : List WalkItem) :
    ∀ t t' : Traversal, items.foldlM (visit globs spec config) t = .ok t' →
      (t.matched.map relative).Nodup → (t'.matched.map relative).Nodup ∧
      ∀ path, path ∈ t'.matched.map relative ↔ path ∈ t.matched.map relative ∨
        ∃ entry, .found entry ∈ items ∧ entry.relative = path ∧ Wanted globs spec entry := by
  induction items with
  | nil =>
    rintro t t' ⟨⟩ hnodup
    exact ⟨hnodup, fun path => by simp⟩
  | cons item rest ih =>
    intro t t' h hnodup
    obtain ⟨next, hnext, h⟩ := bind_eq_ok.mp h
    obtain ⟨hnodup', hpaths⟩ := visit_paths hnext hnodup
    obtain ⟨hnodup'', hpaths'⟩ := ih next t' h hnodup'
    refine ⟨hnodup'', fun path => ?_⟩
    rw [hpaths', hpaths, or_assoc]
    refine or_congr Iff.rfl ?_
    simp only [mem_cons, or_and_right, exists_or]

/-! ### Patterns and paths -/

/-- The names of the workspace are names, and UTF-8. -/
def WellNamed (fs : Fs Text) (root : Ino) : Prop :=
  ∀ path found, fs.look root path = some found → ∀ name ∈ path, OsName name ∧ isUtf8 name = true

theorem toStringLossy_eq_join {path : List Text} (h : ∀ name ∈ path, isUtf8 name = true) :
    toStringLossy path = join path :=
  fromUtf8Lossy_of_isUtf8 (isUtf8_join h)

theorem mem_inits_tail_iff {path ancestor : List Text} :
    ancestor ∈ path.inits.tail ↔ ancestor <+: path ∧ ancestor ≠ [] := by
  constructor
  · exact mem_inits_tail
  · rintro ⟨habove, hne⟩
    cases path with
    | nil => exact absurd (prefix_nil.mp habove) hne
    | cons name path =>
      obtain ⟨first, rest, rfl⟩ := exists_cons_of_ne_nil hne
      obtain ⟨rfl, hrest⟩ := cons_prefix_cons.mp habove
      exact mem_map_of_mem ((mem_inits _ _).mpr hrest)

variable {patterns : List Text}

theorem isIncluded_iff {path : List Text} (h : ∀ name ∈ path, isUtf8 name = true) :
    isIncluded s.globs patterns path = true ↔ ∃ pattern ∈ patterns, ∃ ancestor,
      ancestor <+: path ∧ ancestor ≠ [] ∧ s.Matches pattern ancestor := by
  have htext : ∀ ancestor, ancestor <+: path → toStringLossy ancestor = join ancestor :=
    fun ancestor habove => toStringLossy_eq_join fun name hname => h name (habove.subset hname)
  simp only [isIncluded, any_eq_true, mem_inits_tail_iff, and_assoc]
  refine exists_congr fun pattern => and_congr Iff.rfl (exists_congr fun ancestor => ?_)
  refine and_congr_right fun habove => and_congr Iff.rfl ?_
  rw [htext ancestor habove, CollectContext.Matches]

theorem isExcluded_iff {path : List Text} (h : ∀ name ∈ path, isUtf8 name = true) :
    isExcluded s.globs patterns path = false ↔ ∀ pattern ∈ patterns, ¬ s.Matches pattern path := by
  simp only [isExcluded, any_eq_false, toStringLossy_eq_join h, CollectContext.Matches]

theorem isRestricted_iff {m : Matched} (h : ∀ name ∈ m.relative, isUtf8 name = true) :
    isRestricted s.globs config m = true ↔ Restricted s config m.relative := by
  simp only [isRestricted, any_eq_true, toStringLossy_eq_join h, Restricted,
    CollectContext.Matches]

theorem mem_matched_iff (hglobs : s.globs.Literal) (hlists : Lists fs s.buildRoot s.walk)
    (hnames : WellNamed fs s.buildRoot)
    (h : (walked spec s.walk).foldlM (visit s.globs spec config) {} = .ok t) (path : List Text) :
    path ∈ t.matched.map relative ↔ Candidate s spec fs path := by
  obtain ⟨-, hpaths⟩ := foldlM_visit_paths _ _ _ h nodup_nil
  rw [hpaths]
  constructor
  · rintro (hnone | ⟨entry, hentry, rfl, -, hdir, hexcluded, hincluded⟩)
    · cases hnone
    · obtain ⟨ino, shape, hlook, hkind, -⟩ := hlists.shows entry (mem_of_mem_filter hentry)
      have hutf8 := fun name hname => (hnames _ _ hlook name hname).2
      have hfree := (isExcluded_iff hutf8).mp hexcluded
      refine ⟨⟨ino, shape, hlook, fun hshape => ?_⟩, (isIncluded_iff hutf8).mp hincluded, ?_, ?_⟩
      · rw [hkind.mpr hshape] at hdir
        cases hdir
      · exact fun pattern hpattern => hfree pattern (mem_append_left _ hpattern)
      · exact hfree _ (mem_append_right _ mem_cons_self)
  · intro hcandidate
    right
    obtain ⟨ino, shape, hlook, hshape⟩ := hcandidate.present
    have hnames' := hnames _ _ hlook
    have hutf8 := fun name hname => (hnames' name hname).2
    have hincluded := (isIncluded_iff hutf8).mpr hcandidate.included
    obtain ⟨entry, hentry, rfl⟩ := hlists.complete _ _ hlook
    obtain ⟨ino', shape', hlook', hkind, -⟩ := hlists.shows entry hentry
    rw [hlook] at hlook'
    cases hlook'
    refine ⟨entry, mem_filter.mpr ⟨hentry, ?_⟩, rfl, ?_, ?_, ?_, hincluded⟩
    · exact isWalked_of_isIncluded hglobs hnames' hincluded
    · intro hroot
      obtain ⟨pattern, -, ancestor, habove, hne, -⟩ := hcandidate.included
      rw [hroot] at habove
      exact hne (prefix_nil.mp habove)
    · exact eq_false_of_ne_true fun hdir => hshape (hkind.mp hdir)
    · apply (isExcluded_iff hutf8).mpr
      intro pattern hpattern
      obtain hpattern | hpattern := mem_append.mp hpattern
      · exact hcandidate.notExcluded pattern hpattern
      · rw [mem_singleton.mp hpattern]
        exact hcandidate.notInternal

/-! ### What is stored -/

def Stored (s : CollectContext) (config : ArtifactsConfig) (matched : List Matched)
    (collection : ArtifactCollection) (w : Store) : Prop :=
  matched = [] ∧ collection.archive = none ∧ w.own.published = none ∨
  ∃ files, w.own.published = some files ∧ s.archiveSize files ≤ config.maxTransferBytes ∧
    collection.archive = some ⟨s!"/v1/builds/{s.buildId}/artifacts.zip", s.archiveLength files⟩

/-- The temporary file is within the limit. -/
def Ready (s : CollectContext) (config : ArtifactsConfig) (size : Nat)
    (file : Option (List ArchivedFile)) : Prop :=
  ∃ files, file = some files ∧ s.archiveSize files ≤ config.maxTransferBytes ∧
    size = s.archiveLength files

theorem fillArchive_ready (opened : List OpenedArtifact) :
    Triple (fun _ => True) (fillArchive s config opened)
      (fun size w => Ready s config size w.own.temp) fun _ _ => True := by
  apply any.bind
  intro _
  apply any.bind
  intro files
  have hwritten : Triple (fun _ => True) (writeZip s config .zip files)
      (fun _ w => Ready s config (s.archiveLength files) w.own.temp) fun _ _ => True := by
    refine Triple.bind (Q := fun _ _ => s.archiveSize files ≤ config.maxTransferBytes) ?_ fun _ => ?_
    · refine check_triple (fun _ w hsize _ => ?_) fun _ _ => trivial
      exact Nat.not_lt.mp (refuse_eq_ok.mp hsize)
    · apply adapt
      apply aside_own (P := fun _ => s.archiveSize files ≤ config.maxTransferBytes)
        (Q := fun own => Ready s config (s.archiveLength files) own.temp) (E := fun _ => True)
      · exact fun own hsize => ⟨files, rfl, hsize, rfl⟩
      · exact fun own _ => trivial
      · exact fun own _ => trivial
  have htouch := fun error => (@touch_stays s error
    fun own => Ready s config (s.archiveLength files) own.temp).onError fun _ _ _ => trivial
  exact hwritten.bind fun _ => (htouch _).bind fun _ => (htouch _).bind fun _ => Triple.pure fun _ hw => hw

theorem publish_ready (opened : List OpenedArtifact) :
    Triple (fun _ => True) (publish s config opened)
      (fun size w => Ready s config size w.own.published) fun _ _ => True := by
  apply any.bind
  intro _
  have hwrite : Triple (fun _ => True) (writeArtifactsZip s config opened)
      (fun size w => Ready s config size w.own.temp) fun _ _ => True := by
    apply (fillArchive_ready opened).tryCatch
    exact fun e => any.bind fun _ => Triple.throw fun _ _ => trivial
  apply hwrite.bind
  intro size
  apply ((touch_stays _ fun own => Ready s config size own.temp).onError fun _ _ _ => trivial).bind
  intro _
  apply ((checkCancelled_stays fun own => Ready s config size own.temp).onError
    fun _ _ _ => trivial).bind
  intro _
  have hrename : Triple (fun w => Ready s config size w.own.temp) (attempt (.io .publish) (renameArchive s))
      (fun _ w => Ready s config size w.own.published) fun _ _ => True := by
    apply adapt
    apply aside_own (P := fun own => Ready s config size own.temp)
      (Q := fun own => Ready s config size own.published) (E := fun _ => True)
    · exact fun own hready => hready
    · exact fun own _ => trivial
    · exact fun own _ => trivial
  apply hrename.bind
  intro _
  apply ((checkCancelled_stays fun own => Ready s config size own.published).onError
    fun _ _ _ => trivial).bind
  intro _
  exact Triple.pure fun _ hw => hw

theorem archiveMatched_stored (root : Descriptor) (matched : List Matched)
    (restrictions : Option ArtifactRestrictions) :
    Triple Untouched (archiveMatched s config root matched restrictions)
      (fun collection w => collection.restrictions = restrictions ∧
        Stored s config matched collection w) fun _ _ => True := by
  unfold archiveMatched
  split
  · next hnone =>
    refine Triple.pure fun w hw => ⟨rfl, .inl ⟨hnone, rfl, ?_⟩⟩
    rw [hw.own]
  · apply any.bind
    intro _
    apply any.bind
    intro opened
    have hopened : Triple (fun _ => True) (archiveOpened s config opened)
        (fun size w => Ready s config size w.own.published) fun _ _ => True := by
      apply any.bind
      intro _
      apply any.bind
      intro _
      apply (publish_ready opened).tryCatch
      exact fun e => any.bind fun _ => Triple.throw fun _ _ => trivial
    apply hopened.bind
    intro size
    refine Triple.pure fun w hw => ⟨rfl, .inr ?_⟩
    obtain ⟨files, hfiles, hsize, rfl⟩ := hw
    exact ⟨files, hfiles, hsize, rfl⟩

/-- The walk of a collection, which does not take place without a pattern. -/
def Traversed (s : CollectContext) (spec : ArtifactSpec) (config : ArtifactsConfig) (t : Traversal) :
    Prop :=
  spec.includes = [] ∧ t.matched = [] ∨
  spec.includes ≠ [] ∧ (walked spec s.walk).foldlM (visit s.globs spec config) {} = .ok t

theorem Traversed.matchedFiles_eq (h : Traversed s spec config t) :
    matchedFiles s.globs spec config s.walk = .ok (unrestricted s.globs config t.matched) := by
  obtain ⟨hnone, hmatched⟩ | ⟨hsome, hwalk⟩ := h
  · rw [matchedFiles, if_pos hnone, hmatched]
    rfl
  · rw [matchedFiles, if_neg hsome, hwalk]
    rfl

theorem collectArtifactsZip_stored (fs : Fs Text) :
    Triple (fun w => w = start fs) (collectArtifactsZip s spec config)
      (fun collection w => ∃ t : Traversal, Traversed s spec config t ∧
        collection.restrictions = restrictions s.globs config t.matched ∧
        Stored s config (unrestricted s.globs config t.matched) collection w)
      fun _ _ => True := by
  apply collectArtifactsZip_triple
  · exact fun _ _ _ _ => trivial
  · intro hnone w hw
    refine ⟨{}, .inl ⟨hnone, rfl⟩, (restrictions_of_none (.inr rfl)).symm, .inl ⟨rfl, rfl, ?_⟩⟩
    rw [hw.own]
  · intro t hsome ht
    exact (archiveMatched_stored _ _ _).onReturn fun _ w hw => ⟨t, .inr ⟨hsome, ht⟩, hw⟩

/-! ### What a failure leaves -/

/-- The directory is there after a failure for one of these reasons. -/
structure Leaves (s : CollectContext) (e : Halt) (w : Store) : Prop where
  /-- The call that made it has failed, or the one that sets its permissions, or
  the last call, which removes it. -/
  reason : w.own.directory = true → e = .failed (.io .createDirectory) ∨
    e = .failed (.io .protectDirectory) ∨ s.kernel.fault (w.clock - 1) ≠ none
  /-- It stays if its permissions cannot be set. -/
  protect : e = .failed (.io .protectDirectory) → w.own.directory = true

theorem Leaves.of_no_directory (he : e.elsewhere = true) (hw : w.own.directory = false) :
    Leaves s e w := by
  constructor
  · intro hdirectory
    rw [hw] at hdirectory
    cases hdirectory
  · rintro rfl
    cases he

theorem FailsElsewhere.leaves {α : Type} {x : EStateM Halt Store α} {P : Store → Prop}
    {Q : α → Store → Prop} (h : FailsElsewhere x)
    (hx : Triple P x Q fun _ w => w.own.directory = false) : Triple P x Q fun e w => Leaves s e w :=
  (hx.and (h.onEntry fun _ _ => trivial)).mono (fun _ hw => hw)
    (fun _ _ hw => hw.1) fun _ _ hw => .of_no_directory hw.2 hw.1

theorem removeDirectory_leaves (he : e.elsewhere = true) :
    Triple (fun _ : Store => True) (do
      let _ ← outcome (removeDirectory s)
      throw e : EStateM Halt Store Nat) (fun _ _ => True) fun e w => Leaves s e w := by
  have hremove : Triple (fun _ : Store => True) (removeDirectory s)
      (fun _ w => Leaves s e w) fun _ w => Leaves s e w := by
    intro w _
    show Ends _ _ (removeDirectory s w)
    simp only [removeDirectory, Kernel.aside]
    cases hfault : s.kernel.fault w.clock with
    | none => exact .of_no_directory he rfl
    | some fault =>
      cases fault with
      | late => exact .of_no_directory he rfl
      | fails n =>
        refine ⟨fun _ => .inr (.inr ?_), ?_⟩
        · show s.kernel.fault (w.clock + 1 - 1) ≠ none
          rw [Nat.add_sub_cancel, hfault]
          exact Option.some_ne_none _
        · rintro rfl
          cases he
  exact hremove.outcome_of_either.bind fun _ => Triple.throw fun _ hw => hw

theorem archiveOpened_leaves (opened : List OpenedArtifact) :
    Triple (fun w => w.own.directory = false) (archiveOpened s config opened) (fun _ _ => True)
      fun e w => Leaves s e w := by
  have hlimit : Triple (fun w => w.own.directory = false)
      (check (refuse (config.maxUncompressedBytes < totalUncompressedBytes opened)
        (.uncompressedTooLarge config.maxUncompressedBytes)))
      (fun _ _ => True) fun e w => Leaves s e w :=
    (FailsElsewhere.check (.refuse rfl)).leaves (check_triple (fun _ _ _ _ => trivial) fun _ hw => hw)
  have hmake : Triple (fun _ => True) (attempt (.io .createDirectory)
      (s.kernel.aside fun own => .ok ((), { own with directory := true })))
      (fun _ w => w.own.directory = true) fun e w => Leaves s e w := by
    apply adaptExcept
    refine onError (E := fun _ _ => True) ?_ fun _ w _ => ⟨fun _ => .inl rfl, nofun⟩
    exact aside_own (P := fun _ => True) (Q := fun own => own.directory = true) (E := fun _ => True)
      (fun _ _ => rfl) (fun _ _ => trivial) fun _ _ => trivial
  have hprotect : Triple (fun w => w.own.directory = true)
      (attempt (.io .protectDirectory) s.kernel.touch) (fun _ _ => True) fun e w => Leaves s e w := by
    have hkeeps : Keeps (fun own : ArtifactStore => own) (fun _ => True) s.kernel.touch := Keeps.ask _
    apply adaptExcept
    refine (hkeeps.own_stays fun own => own.directory = true).mono (fun _ hw => hw)
      (fun _ _ _ => trivial) fun _ w hw => ?_
    exact ⟨fun _ => .inr (.inl rfl), fun _ => hw⟩
  apply hlimit.bind
  intro _
  apply (hmake.bind fun _ => hprotect).bind
  intro _
  exact (publish_failsElsewhere opened).tryCatch fun e w he => removeDirectory_leaves he w trivial

theorem collectArtifactsZip_leaves (fs : Fs Text) :
    Triple (fun w => w = start fs) (collectArtifactsZip s spec config) (fun _ _ => True)
      fun e w => Leaves s e w := by
  apply collectArtifactsZip_triple
  · intro error w he hw
    exact .of_no_directory he (by rw [hw.own])
  · exact fun _ _ _ => trivial
  · intro t _ _
    have hnothing : ∀ w : Store, Untouched w → w.own.directory = false := by
      intro w hw
      rw [hw.own]
    unfold archiveMatched
    split
    · exact Triple.pure fun _ _ => trivial
    · apply ((FailsElsewhere.check (validateArtifactCountAndDepth_elsewhere _)).leaves
        ((check_keeps _ _ _).onError fun _ => hnothing)).bind
      intro _
      apply ((openEach_failsElsewhere _ _).leaves
        ((openEach_since _ _ []).onError fun _ => hnothing)).bind
      intro opened
      refine ((archiveOpened_leaves opened).onEntry fun w hw => hnothing w hw.1).bind fun _ => Triple.pure fun _ hw => hw

/-! ### The report -/

theorem restrictions_eq_reported {matched : List Matched}
    (h : ∀ m ∈ matched, ∀ name ∈ m.relative, isUtf8 name = true) :
    restrictions s.globs config matched =
      reported s config ((matched.filter (isRestricted s.globs config)).map relative) := by
  unfold restrictions reported
  by_cases hany : matched.any (isRestricted s.globs config) = true
  · have hsome : (matched.filter (isRestricted s.globs config)).map relative ≠ [] := by
      obtain ⟨m, hm, hrestricted⟩ := any_eq_true.mp hany
      exact ne_nil_of_mem (mem_map_of_mem (mem_filter.mpr ⟨hm, hrestricted⟩))
    rw [if_pos hany, if_neg hsome, length_map, ← countP_eq_length_filter]
    congr 2
    apply filter_congr
    intro pattern hpattern
    -- what a restricted pattern matches is kept back
    rw [Bool.eq_iff_iff, any_eq_true, any_map, any_filter, any_eq_true]
    refine exists_congr fun m => and_congr_right fun hm => ?_
    rw [toStringLossy_eq_join (h m hm)]
    simp only [Function.comp, Bool.and_eq_true]
    refine ⟨fun hmatch => ⟨?_, hmatch⟩, fun hmatch => hmatch.2⟩
    exact (isRestricted_iff (h m hm)).mpr ⟨pattern, hpattern, hmatch⟩
  · have hnone : (matched.filter (isRestricted s.globs config)).map relative = [] := by
      rw [map_eq_nil_iff, filter_eq_nil_iff]
      exact fun m hm hrestricted => hany (any_eq_true.mpr ⟨m, hm, hrestricted⟩)
    rw [if_neg hany, if_pos hnone]

/-! ### The whole -/

theorem Lists.toShows (h : Lists fs s.buildRoot s.walk) : Shows fs s.buildRoot s.walk := by
  intro entry stat hentry hmetadata
  obtain ⟨ino, shape, hlook, -, hstat⟩ := h.shows entry hentry
  rw [hstat stat hmetadata]
  exact ⟨shape, hlook, rfl⟩

/-- The candidates, as the walk has noted them. -/
structure Noted (s : CollectContext) (spec : ArtifactSpec) (fs : Fs Text) (matched : List Matched) :
    Prop where
  distinct : (matched.map Matched.relative).Nodup
  candidates : ∀ path, path ∈ matched.map Matched.relative ↔ Candidate s spec fs path
  utf8 : ∀ m ∈ matched, ∀ name ∈ m.relative, isUtf8 name = true

theorem noted_of_walk (hlists : Lists fs s.buildRoot s.walk) (hnames : WellNamed fs s.buildRoot)
    (hglobs : s.globs.Literal) (h : Traversed s spec config t) : Noted s spec fs t.matched := by
  have hcandidates : ∀ path, path ∈ t.matched.map relative ↔ Candidate s spec fs path := by
    obtain ⟨hnone, hmatched⟩ | ⟨-, hwalk⟩ := h
    · intro path
      rw [hmatched]
      constructor
      · nofun
      · intro hcandidate
        obtain ⟨pattern, hpattern, -⟩ := hcandidate.included
        rw [hnone] at hpattern
        cases hpattern
    · exact mem_matched_iff hglobs hlists hnames hwalk
  refine ⟨?_, hcandidates, fun m hm name hname => ?_⟩
  · obtain ⟨-, hmatched⟩ | ⟨-, hwalk⟩ := h
    · rw [hmatched]
      exact nodup_nil
    · exact (foldlM_visit_paths _ _ _ hwalk nodup_nil).1
  · obtain ⟨ino, shape, hlook, -⟩ := ((hcandidates _).mp (mem_map_of_mem hm)).present
    exact (hnames _ _ hlook name hname).2

namespace Noted

variable {matched : List Matched}

section
variable (h : Noted s spec fs matched)
include h

theorem mem_filter_iff {p : Matched → Bool} {P : List Text → Prop}
    (hp : ∀ m ∈ matched, p m = true ↔ P m.relative) (path : List Text) :
    path ∈ (matched.filter p).map relative ↔ Candidate s spec fs path ∧ P path := by
  rw [← h.candidates, mem_map, mem_map]
  constructor
  · rintro ⟨m, hm, rfl⟩
    obtain ⟨hm, hpm⟩ := mem_filter.mp hm
    exact ⟨⟨m, hm, rfl⟩, (hp m hm).mp hpm⟩
  · rintro ⟨⟨m, hm, rfl⟩, hP⟩
    exact ⟨m, mem_filter.mpr ⟨hm, (hp m hm).mpr hP⟩, rfl⟩

theorem selected (path : List Text) :
    path ∈ (unrestricted s.globs config matched).map relative ↔
      Selected s spec config fs path := by
  apply h.mem_filter_iff (P := fun path => ¬ Restricted s config path)
  intro m hm
  rw [Bool.not_eq_true', ← Bool.not_eq_true, isRestricted_iff (h.utf8 m hm)]

theorem kept :
    ((matched.filter (isRestricted s.globs config)).map relative).Nodup ∧
    ∀ path, path ∈ (matched.filter (isRestricted s.globs config)).map relative ↔
      Candidate s spec fs path ∧ Restricted s config path :=
  ⟨h.distinct.sublist (filter_sublist.map _),
    h.mem_filter_iff fun m hm => isRestricted_iff (h.utf8 m hm)⟩

end

end Noted

theorem collected_of_ok (hquiet : s.kernel.Quiet s.buildRoot) (hsound : fs.Sound s.buildRoot)
    (hlists : Lists fs s.buildRoot s.walk) (hnames : WellNamed fs s.buildRoot)
    (hglobs : s.globs.Literal) (hzip : s.WritesZip)
    (huncompressed : config.maxUncompressedBytes < 2 ^ 64 - 1)
    (htransfer : config.maxTransferBytes < 2 ^ 64 - 1) {collection : ArtifactCollection}
    (hrun : collectArtifactsZip s spec config (start fs) = .ok collection w) :
    ∃ paths removed, Collected s spec config fs collection w paths removed := by
  obtain ⟨_, _, hrun', ⟨t, ht, hrestrictions, hstored⟩, matched, hmatched, htaken⟩ |
      ⟨_, _, hrun', -⟩ :=
    ((@collectArtifactsZip_stored s spec config fs).and (collectArtifactsZip_taken fs)).run_cases rfl
  swap
  · exact absurd (hrun.symm.trans hrun') nofun
  cases hrun.symm.trans hrun'
  have hnoted := noted_of_walk hlists hnames hglobs ht
  rw [ht.matchedFiles_eq] at hmatched
  cases hmatched
  rw [restrictions_eq_reported hnoted.utf8] at hrestrictions
  obtain ⟨hcount, hdepth, hfolded⟩ := validateArtifactCountAndDepth_ok htaken.valid
  have hfolded' : ((unrestricted s.globs config t.matched).map fun m =>
      toAsciiLowercase (join m.relative)).Nodup := by
    have hsame : ∀ m ∈ unrestricted s.globs config t.matched,
        toAsciiLowercase (toStringLossy m.relative) = toAsciiLowercase (join m.relative) := by
      intro m hm
      rw [toStringLossy_eq_join (hnoted.utf8 m (mem_of_mem_filter hm))]
    rwa [map_congr_left hsame] at hfolded
  obtain ⟨arranged, hperm, harchived⟩ : ∃ arranged,
      arranged.Perm (unrestricted s.globs config t.matched) ∧
      Forall₂ (fun m file => Holds s fs m.relative file) arranged (w.own.published.getD []) := by
    obtain ⟨hempty, -, hnone⟩ | ⟨files, hfiles, -⟩ := hstored
    · rw [hempty, hnone]
      exact ⟨[], Perm.nil, .nil⟩
    · obtain ⟨arranged, hperm, harchived⟩ := htaken.archivedWorkspace hfiles ht.matchedFiles_eq
        (exact_of_run hquiet hsound hrun) hlists.toShows
      rw [hfiles]
      exact ⟨arranged, hperm, harchived.imp fun m file hfile => ⟨m.identity, hfile⟩⟩
  refine ⟨arranged.map relative, _,
    { selected := fun path => ((hperm.map _).mem_iff).trans (hnoted.selected path)
      archived := forall₂_map_left_iff.mpr harchived
      count := ?_
      depth := ?_
      folded := ?_
      total := ?_
      archive := ?_
      size := ?_
      kept := hnoted.kept
      restrictions := hrestrictions }⟩
  · rw [length_map, hperm.length_eq]
    exact hcount
  · intro path hpath
    obtain ⟨m, hm, rfl⟩ := mem_map.mp hpath
    exact hdepth m (hperm.mem_iff.mp hm)
  · rw [map_map]
    exact (hperm.map _).nodup_iff.mpr hfolded'
  · obtain ⟨opened, -, hfaithful⟩ := htaken.opened
    cases hfiles : w.own.published with
    | none => exact Nat.zero_le _
    | some files => exact (hfaithful files hfiles).total huncompressed
  · obtain ⟨-, harchive, hnone⟩ | ⟨files, hfiles, -, harchive⟩ := hstored
    · rw [harchive, hnone]
      rfl
    · rw [harchive, hfiles]
      rfl
  · intro files hfiles
    obtain ⟨-, -, hnone⟩ | ⟨files', hfiles', hsize, -⟩ := hstored
    · rw [hnone] at hfiles
      cases hfiles
    · rw [hfiles'] at hfiles
      cases hfiles
      exact hzip.archiveLength_le htransfer hsize

end

/-- The call that sets the permissions of the new directory has failed, or the one
that makes it has failed after it was made. -/
def LeftBehind : EStateM.Result Halt Store ArtifactCollection → Prop
  | .error (.failed (.io .protectDirectory)) _ => True
  | .error (.failed (.io .createDirectory)) w => w.own.directory = true
  | _ => False

/-- The removal of the directory works. It is the last call where it is made, that
is, unless the directory was not made or not protected. -/
def RemovalWorks (s : CollectContext) (r : EStateM.Result Halt Store ArtifactCollection) : Prop :=
  ∀ e w, r = .error e w → e.elsewhere = true → w.own.directory = true →
    s.kernel.fault (w.clock - 1) = none

theorem Leaves.correct_iff {s : CollectContext} {spec : ArtifactSpec} {config : ArtifactsConfig}
    {fs : Fs Text} (h : Leaves s e w) (hremoval : RemovalWorks s (.error e w)) :
    Correct s spec config fs (.error e w) ↔ ¬ LeftBehind (.error e w) := by
  cases e with
  | waiting relative => exact ⟨fun _ hleft => hleft, fun _ => trivial⟩
  | failed error =>
    show w.own.directory = false ↔ _
    rw [← Bool.not_eq_true]
    by_cases hcreate : error = .io .createDirectory
    · rw [hcreate]
      exact Iff.rfl
    · by_cases hprotect : error = .io .protectDirectory
      · have hdirectory := h.protect (by rw [hprotect])
        rw [hprotect]
        exact ⟨fun hnot => absurd hdirectory hnot, fun hnot => absurd trivial hnot⟩
      · have helsewhere : error.elsewhere = true := by
          unfold ArtifactError.elsewhere
          split <;> trivial
        have hleft : ¬ LeftBehind (.error (.failed error) w) := by
          unfold LeftBehind
          split <;> simp_all
        refine iff_of_true (fun hdirectory => ?_) hleft
        obtain heq | heq | hfault := h.reason hdirectory
        · exact hcreate (Halt.failed.inj heq)
        · exact hprotect (Halt.failed.inj heq)
        · exact hfault (hremoval _ _ rfl helsewhere hdirectory)

/-- The workspace of `mixedFs`, with calls that may fail. -/
def faultyContext (fault : Nat → Option CallFault) : CollectContext :=
  { mixedContext with
    kernel := { interfere := fun w => w.fs, fault := fault, alloc := fun now => now }
    globs := starGlobs
    archiveSize := fun files => saturatingAdd 0 (contentTotal files)
    archiveLength := contentTotal }

def mixedSpec : ArtifactSpec := { includes := [[0x61, 0x2f, 0x2a], [0x41]] }

def mixedConfig : ArtifactsConfig := { restrictedPatterns := [[0x41]] }

theorem mixedFs_lists : Lists mixedFs mixedContext.buildRoot mixedWalk where
  shows := by
    intro entry hentry
    simp only [mixedWalk, mem_cons, WalkItem.found.injEq, not_mem_nil, or_false] at hentry
    obtain rfl | rfl | rfl | rfl | rfl | rfl := hentry
    all_goals
      refine ⟨_, _, rfl, ?_, fun stat hstat => (Except.ok.inj hstat).symm⟩
      first
      | exact ⟨fun _ => rfl, fun _ => rfl⟩
      | exact ⟨by rintro ⟨⟩, by rintro ⟨⟩⟩
  complete := by
    intro path found hlook
    have hmem := find_mixedFs (Fs.look_eq_some.mp hlook).1
    simp only [mem_cons, Prod.mk.injEq, not_mem_nil, or_false] at hmem
    obtain ⟨rfl, -⟩ | ⟨rfl, -⟩ | ⟨rfl, -⟩ | ⟨rfl, -⟩ | ⟨rfl, -⟩ | ⟨rfl, -⟩ := hmem
    · exact ⟨_, .head _, rfl⟩
    · exact ⟨_, .tail _ (.head _), rfl⟩
    · exact ⟨_, .tail _ (.tail _ (.head _)), rfl⟩
    · exact ⟨_, .tail _ (.tail _ (.tail _ (.head _))), rfl⟩
    · exact ⟨_, .tail _ (.tail _ (.tail _ (.tail _ (.head _)))), rfl⟩
    · exact ⟨_, .tail _ (.tail _ (.tail _ (.tail _ (.tail _ (.head _))))), rfl⟩

theorem mixedFs_wellNamed : WellNamed mixedFs mixedContext.buildRoot := by
  intro path found hlook
  have hmem := find_mixedFs (Fs.look_eq_some.mp hlook).1
  simp only [mem_cons, Prod.mk.injEq, not_mem_nil, or_false] at hmem
  obtain ⟨rfl, -⟩ | ⟨rfl, -⟩ | ⟨rfl, -⟩ | ⟨rfl, -⟩ | ⟨rfl, -⟩ | ⟨rfl, -⟩ := hmem
  all_goals decide

theorem faultyContext_writesZip (fault : Nat → Option CallFault) :
    (faultyContext fault).WritesZip := by
  intro files
  refine ⟨[.write (contentTotal files)], trivial, rfl, ?_⟩
  show contentTotal files = max 0 (0 + contentTotal files)
  omega

/-- How a collection fails, and whether its directory is there. -/
def failure : EStateM.Result Halt Store ArtifactCollection → Option (ArtifactError × Bool)
  | .error (.failed error) w => some (error, w.own.directory)
  | _ => none

theorem failure_eq_some {r : EStateM.Result Halt Store ArtifactCollection} {error : ArtifactError}
    {directory : Bool} (h : failure r = some (error, directory)) :
    ∃ w, r = .error (.failed error) w ∧ w.own.directory = directory := by
  unfold failure at h
  split at h
  · cases h
    exact ⟨_, rfl, rfl⟩
  · cases h

end IndenturedServer.Artifacts
