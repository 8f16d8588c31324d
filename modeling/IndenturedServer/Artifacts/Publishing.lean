import IndenturedServer.Artifacts.Collect
import IndenturedServer.Foundation.Correspondence

/-!
From the files that are opened to the archive.

Every part of `collect_artifacts_zip` has a specification here. What is opened
is said in terms of the log, which only grows: the file was an entry of a
directory that was reached from the root along its path. What is written is
said in terms of the program's own files: an entry of the archive consists of
pieces that were read from one of the open files.
-/

namespace IndenturedServer.Artifacts

open Foundation Source List

section
variable {s : CollectContext} {spec : ArtifactSpec} {config : ArtifactsConfig} {τ α : Type}
  {f : ArtifactStore → τ} {may : Descriptor → Prop} {log : List (Event Text)} {own : τ}

/-! ### Opening -/

theorem checkCancelled_keeps : Keeps f may (checkCancelled s) := by
  intro log own w hw
  show Ends _ _ (checkCancelled s w)
  unfold checkCancelled
  split
  · exact ⟨hw.own, hw.log⟩
  · exact ⟨hw.own, hw.log⟩

theorem check_keeps (x : Except ArtifactError α) : Keeps f may (check x) :=
  Keeps.ofExcept _

theorem attempt_keeps {error : ArtifactError} {x : EStateM Errno Store α} (hx : Keeps f may x) :
    Keeps f may (attempt error x) :=
  hx.adaptExcept

/-- The induction is on the components; each directory is where the next one is
opened from. -/
theorem openComponents_since (relative components : List Text) :
    ∀ (log : List (Event Text)) (parent : Descriptor),
    Triple (Since f may log own) (openComponents s relative parent components)
      (fun file w => Since f may log own w ∧
        (file.regular = true → OpenedAt w.log parent components file.descriptor))
      fun _ => Since f may log own := by
  induction components with
  | nil =>
    intro log parent
    exact Triple.throw fun _ hw => hw
  | cons name rest ih =>
    intro log parent
    cases rest with
    | nil =>
      refine (check_keeps _ log own).bind fun _ => ?_
      refine (openReading_since s.waits parent name).adapt.bind fun file => ?_
      cases file with
      | none => exact Triple.throw fun _ hw => hw.1
      | some reading => exact Triple.pure fun w hw => ⟨hw.1, hw.2 reading rfl⟩
    | cons next rest =>
      refine (check_keeps _ log own).bind fun _ => ?_
      refine (openDirectory_since parent name).adapt.bind fun child => ?_
      refine Triple.ofExists fun more => Triple.ofExists fun fs => ?_
      refine Triple.given fun hmore => Triple.given fun hopened => ?_
      have hrest := ih (log ++ more) child
      refine Triple.onError (E := fun _ => Since f may (log ++ more) own) ?_
        fun _ _ hw => hw.trans hmore
      refine (attempt_keeps (Keeps.ask _) (log ++ more) own).bind fun metadata => ?_
      refine (check_keeps _ (log ++ more) own).bind fun _ => ?_
      refine hrest.onReturn fun file w hw => ⟨hw.1.trans hmore, ?_⟩
      intro hregular
      have hevent := hw.1.subset (mem_append_right log hopened.1)
      exact (hw.2 hregular).into hevent hopened.2.1 hopened.2.2

/-- The artifact is the file that the walk has met. -/
structure AsObserved (log : List (Event Text)) (root : Descriptor) (m : Matched)
    (artifact : OpenedArtifact) : Prop where
  relative : artifact.relative = m.relative
  opened : OpenedAt log root m.relative artifact.file.descriptor
  identity : artifact.file.descriptor.ino = m.identity

variable {m : Matched} {artifact : OpenedArtifact}

theorem AsObserved.mono {log' : List (Event Text)} {root : Descriptor}
    (h : AsObserved log root m artifact) (hsub : log ⊆ log') : AsObserved log' root m artifact :=
  ⟨h.relative, h.opened.mono hsub, h.identity⟩

variable {mode : Nat}

theorem sameFile_ok {metadata : Stat} {size : Nat} (h : sameFile m metadata = .ok (mode, size)) :
    metadata.ino = m.identity ∧ ∃ attributes, metadata.kind = .file attributes size ∧
      attributes.mode = mode := by
  unfold sameFile at h
  split at h
  · next attributes size' hkind =>
      split at h
      · next hino =>
          cases h
          exact ⟨hino, attributes, hkind, rfl⟩
      · cases h
  · cases h

theorem check_triple {P : Store → Prop} {Q : α → Store → Prop} {E : Store → Prop}
    {x : Except ArtifactError α} (hok : ∀ a w, x = .ok a → P w → Q a w)
    (herror : ∀ w, P w → E w) : Triple P (check x) Q fun _ => E := by
  cases x with
  | ok a => exact Triple.pure fun w hw => hok a w rfl hw
  | error e => exact Triple.throw fun w hw => herror w hw

theorem openFileBeneath_since (log : List (Event Text)) (root : Descriptor) (relative : List Text) :
    Triple (Since f may log own) (openFileBeneath s root relative)
      (fun file w => Since f may log own w ∧
        (file.regular = true → OpenedAt w.log root relative file.descriptor))
      fun _ => Since f may log own :=
  (check_keeps _ log own).bind fun _ => openComponents_since relative relative log root

theorem openMatchedArtifact_since (log : List (Event Text)) (root : Descriptor) (m : Matched) :
    Triple (Since f may log own) (openMatchedArtifact s root m)
      (fun artifact w => Since f may log own w ∧ AsObserved w.log root m artifact)
      fun _ => Since f may log own := by
  refine (checkCancelled_keeps log own).bind fun _ => ?_
  refine (openFileBeneath_since log root m.relative).bind fun file => ?_
  -- the file is open by now, and stays so
  have hopened : ∀ {log log' : List (Event Text)},
      (file.regular = true → OpenedAt log root m.relative file.descriptor) → log ⊆ log' →
      (file.regular = true → OpenedAt log' root m.relative file.descriptor) :=
    fun hopened hsub hregular => (hopened hregular).mono hsub
  refine (Since.carry hopened fun log => fstatReading_since file).adapt.bind fun metadata => ?_
  refine (check_triple (Q := fun _ w => Since f may log own w ∧
    OpenedAt w.log root m.relative file.descriptor ∧ file.descriptor.ino = m.identity)
    ?_ fun _ hw => hw.1.1).bind fun found => ?_
  · rintro ⟨mode, size⟩ w hsame ⟨⟨hsince, hopened⟩, hino, hregular⟩
    obtain ⟨hidentity, attributes, hkind, -⟩ := sameFile_ok hsame
    exact ⟨hsince, hopened (hregular _ _ hkind), hino ▸ hidentity⟩
  have hstays : ∀ {log log' : List (Event Text)},
      OpenedAt log root m.relative file.descriptor ∧ file.descriptor.ino = m.identity →
      log ⊆ log' → OpenedAt log' root m.relative file.descriptor ∧
        file.descriptor.ino = m.identity :=
    fun hopened hsub => ⟨hopened.1.mono hsub, hopened.2⟩
  refine ((attempt_keeps (Keeps.ask _)).carry hstays).bind fun _ => ?_
  exact Triple.pure fun w hw => ⟨hw.1, rfl, hw.2.1, hw.2.2⟩

theorem openEach_since (root : Descriptor) (matched : List Matched) :
    ∀ log : List (Event Text), Triple (Since f may log own) (openEach s root matched)
      (fun opened w => Since f may log own w ∧ Forall₂ (AsObserved w.log root) matched opened)
      fun _ => Since f may log own := by
  induction matched with
  | nil =>
    intro log
    exact Triple.pure fun w hw => ⟨hw, .nil⟩
  | cons m rest ih =>
    intro log
    refine (openMatchedArtifact_since log root m).bind fun artifact => ?_
    have hstays : ∀ {log log' : List (Event Text)}, AsObserved log root m artifact →
        log ⊆ log' → AsObserved log' root m artifact := fun hopened hsub => hopened.mono hsub
    refine (Since.carry hstays ih).bind fun opened => ?_
    exact Triple.pure fun w hw => ⟨hw.1.1, .cons hw.1.2 hw.2⟩

/-! ### Writing -/

/-- The content was read from this descriptor, one piece after the other. -/
inductive ReadFrom (reads : List (Descriptor × Nat × Text)) (d : Descriptor) : Text → Prop
  | nothing : ReadFrom reads d []
  | more {content bytes : Text} (h : ReadFrom reads d content)
      (hread : (d, content.length, bytes) ∈ reads) : ReadFrom reads d (content ++ bytes)

structure ArchivedFrom (reads : List (Descriptor × Nat × Text)) (artifact : OpenedArtifact)
    (file : ArchivedFile) : Prop where
  name : file.name = archiveName artifact.relative
  mode : file.mode = archiveMode artifact.mode
  content : ReadFrom reads artifact.file.descriptor file.content
  /-- The last read found the end. -/
  whole : (artifact.file.descriptor, file.content.length, []) ∈ reads

variable {reads' : List (Descriptor × Nat × Text)}

theorem ReadFrom.mono {reads : List (Descriptor × Nat × Text)} {d : Descriptor} {content : Text}
    (h : ReadFrom reads d content) (hsub : reads ⊆ reads') : ReadFrom reads' d content := by
  induction h with
  | nothing => exact .nothing
  | more _ hread ih => exact .more ih (hsub hread)

theorem ArchivedFrom.mono {reads : List (Descriptor × Nat × Text)} {file : ArchivedFile}
    (h : ArchivedFrom reads artifact file) (hsub : reads ⊆ reads') :
    ArchivedFrom reads' artifact file :=
  ⟨h.name, h.mode, h.content.mono hsub, hsub h.whole⟩

def Unpublished (own : ArtifactStore) : Prop :=
  own.published = none

/-- Nothing is published, and what has been read is noted. -/
structure Drafting (reads : List (Descriptor × Nat × Text)) (own : ArtifactStore) : Prop where
  unpublished : Unpublished own
  reads : reads ⊆ own.reads

/-- The bytes of all entries. -/
def contentTotal (files : List ArchivedFile) : Nat :=
  (files.map fun file => file.content.length).sum

/-- The entries are those of the artifacts, and the limit on their bytes is kept.
(The sum does not get to where `u64` ends.) -/
structure Archives (config : ArtifactsConfig) (reads : List (Descriptor × Nat × Text))
    (artifacts : List OpenedArtifact) (files : List ArchivedFile) : Prop where
  each : List.Forall₂ (ArchivedFrom reads) artifacts files
  total : config.maxUncompressedBytes < 2 ^ 64 - 1 →
    contentTotal files ≤ config.maxUncompressedBytes

structure Complete (config : ArtifactsConfig) (artifacts : List OpenedArtifact)
    (files : List ArchivedFile) (own : ArtifactStore) : Prop where
  unpublished : Unpublished own
  archives : Archives config own.reads artifacts files

variable {reads : List (Descriptor × Nat × Text)}

theorem checkCancelled_stays (p : ArtifactStore → Prop) :
    Triple (fun w => p w.own) (checkCancelled s) (fun _ w => p w.own) fun _ w => p w.own := by
  have hkeeps : Keeps (fun own : ArtifactStore => own) (fun _ => True) (checkCancelled s) :=
    checkCancelled_keeps
  exact hkeeps.own_stays p

theorem touch_stays (error : ArtifactError) (p : ArtifactStore → Prop) :
    Triple (fun w => p w.own) (attempt error s.kernel.touch) (fun _ w => p w.own)
      fun _ w => p w.own := by
  have hkeeps : Keeps (fun own : ArtifactStore => own) (fun _ => True)
      (attempt error s.kernel.touch) := attempt_keeps (Keeps.ask _)
  exact hkeeps.own_stays p

/-- A change of the program's own files, which may be made and reported as failed. -/
theorem aside_own {change : ArtifactStore → ArtifactStore} {P Q E : ArtifactStore → Prop}
    (hok : ∀ own, P own → Q (change own)) (hkept : ∀ own, P own → E own)
    (herror : ∀ own, Q own → E own) :
    Triple (fun w => P w.own) (s.kernel.aside fun own => .ok ((), change own))
      (fun _ w => Q w.own) fun _ w => E w.own := by
  apply Kernel.aside_triple
  · intro w hw
    exact hkept w.own hw
  · intro w a own hw heffect
    cases heffect
    exact ⟨hok w.own hw, herror _ (hok w.own hw)⟩

theorem writeZip_stays {p : ArtifactStore → Prop}
    (hp : ∀ own temp, p own → p { own with temp := temp }) (error : ArtifactError)
    (files : List ArchivedFile) :
    Triple (fun w => p w.own) (writeZip s config error files)
      (fun _ w => p w.own ∧ w.own.temp = some files) fun _ w => p w.own := by
  refine (check_triple (fun _ w _ hw => hw) fun _ hw => hw).bind fun _ => ?_
  apply Triple.adapt
  apply aside_own (Q := fun own => p own ∧ own.temp = some files)
  · exact fun own hown => ⟨hp own _ hown, rfl⟩
  · exact fun own hown => hown
  · exact fun own hown => hown.1

theorem Drafting.temp (own : ArtifactStore) (temp : Option (List ArchivedFile))
    (h : Drafting reads own) : Drafting reads { own with temp := temp } :=
  ⟨h.unpublished, h.reads⟩

theorem readArtifact_drafting (file : Reading) (offset : Nat) :
    Triple (fun w => Drafting reads w.own) (readArtifact s file offset)
      (fun bytes w => Drafting (reads ++ [(file.descriptor, offset, bytes)]) w.own)
      fun _ w => Drafting reads w.own := by
  have hread : Keeps (fun own : ArtifactStore => own) (fun _ => True)
      (attempt (.io .read) (s.kernel.readAt file.descriptor offset 8192)) :=
    attempt_keeps (Keeps.ask _)
  refine (hread.own_stays (Drafting reads)).bind fun bytes => ?_
  refine Triple.bind (Q := fun _ w => Drafting (reads ++ [(file.descriptor, offset, bytes)]) w.own)
    (Triple.modify ?_) fun _ => Triple.pure fun _ hw => hw
  intro w hw
  refine ⟨hw.unpublished, append_subset.mpr ⟨?_, ?_⟩⟩
  · exact Subset.trans hw.reads (subset_append_left _ _)
  · exact subset_append_right _ _

/-- The count covers the bytes of the entries and of the one that is being
written, and is within the limit. -/
def Counted (config : ArtifactsConfig) (files : List ArchivedFile) (content : Text)
    (uncompressed : Nat) : Prop :=
  config.maxUncompressedBytes < 2 ^ 64 - 1 →
    contentTotal files + content.length ≤ uncompressed ∧ uncompressed ≤ config.maxUncompressedBytes

variable {files : List ArchivedFile} {uncompressed : Nat}

theorem Counted.append {content bytes : Text} (h : Counted config files content uncompressed)
    (hlimit : ¬ config.maxUncompressedBytes < saturatingAdd uncompressed bytes.length) :
    Counted config files (content ++ bytes) (saturatingAdd uncompressed bytes.length) := by
  intro hmax
  have hcounted := h hmax
  rw [length_append]
  unfold saturatingAdd at hlimit ⊢
  omega

theorem Counted.next {name content : Text} (h : Counted config files content uncompressed) :
    Counted config (files ++ [⟨name, mode, content⟩]) [] uncompressed := by
  intro hmax
  have hcounted := h hmax
  simp only [contentTotal, map_append, map_cons, map_nil, sum_append,
    sum_cons, sum_nil, length_nil] at hcounted ⊢
  omega

/-- The induction is on the number of turns; what has been copied was read. -/
theorem copyArtifact_drafting (files : List ArchivedFile) (name : Text) (mode : Nat)
    (file : Reading) (fuel : Nat) :
    ∀ (content : Text) (uncompressed : Nat) (reads : List (Descriptor × Nat × Text)),
    ReadFrom reads file.descriptor content → Counted config files content uncompressed →
    Triple (fun w => Drafting reads w.own)
      (copyArtifact s config files name mode file fuel content uncompressed)
      (fun copied w => (ReadFrom w.own.reads file.descriptor copied.1 ∧
        (file.descriptor, copied.1.length, []) ∈ w.own.reads ∧
        Counted config files copied.1 copied.2) ∧ Drafting reads w.own)
      fun _ w => Drafting reads w.own := by
  induction fuel with
  | zero =>
    intro content uncompressed reads _ _
    exact Triple.throw fun _ hw => hw
  | succ fuel ih =>
    intro content uncompressed reads hcontent hcounted
    apply (checkCancelled_stays (Drafting reads)).bind
    intro _
    apply (readArtifact_drafting file content.length).bind
    intro bytes
    have hless : ∀ own, Drafting (reads ++ [(file.descriptor, content.length, bytes)]) own →
        Drafting reads own :=
      fun own hown => ⟨hown.unpublished, Subset.trans (subset_append_left _ _) hown.reads⟩
    have hmem : (file.descriptor, content.length, bytes) ∈
        reads ++ [(file.descriptor, content.length, bytes)] := by simp
    split
    · next hend =>
        subst hend
        apply Triple.pure
        intro w hw
        exact ⟨⟨hcontent.mono (hless _ hw).reads, hw.reads hmem, hcounted⟩, hless _ hw⟩
    · have hmore : ReadFrom (reads ++ [(file.descriptor, content.length, bytes)])
          file.descriptor (content ++ bytes) :=
        .more (hcontent.mono (subset_append_left _ _)) hmem
      apply Triple.bind (Q := fun _ w => ¬ config.maxUncompressedBytes <
        saturatingAdd uncompressed bytes.length ∧
        Drafting (reads ++ [(file.descriptor, content.length, bytes)]) w.own)
      · exact check_triple (fun _ w hok hw => ⟨refuse_eq_ok.mp hok, hw⟩) fun w hw => hless _ hw
      · intro _
        apply Triple.given
        intro hlimit
        refine Triple.bind ((writeZip_stays Drafting.temp (.io .write) _).onError
          fun _ w hw => hless _ hw) fun _ => ?_
        refine (ih _ _ _ hmore (hcounted.append hlimit)).mono (fun _ hw => hw.1)
          (fun _ w hw => ⟨hw.1, hless _ hw.2⟩) fun _ w hw => hless _ hw

/-- The induction is on the artifacts that are still to be written. -/
theorem writeArtifacts_drafting (artifacts : List OpenedArtifact) :
    ∀ (files : List ArchivedFile) (uncompressed : Nat) (done : List OpenedArtifact)
      (reads : List (Descriptor × Nat × Text)), Forall₂ (ArchivedFrom reads) done files →
    Counted config files [] uncompressed →
    Triple (fun w => Drafting reads w.own) (writeArtifacts s config files uncompressed artifacts)
      (fun files w => Complete config (done ++ artifacts) files w.own)
      fun _ w => Unpublished w.own := by
  induction artifacts with
  | nil =>
    intro files uncompressed done reads hdone hcounted
    apply Triple.pure
    intro w hw
    rw [append_nil]
    refine ⟨hw.unpublished, hdone.imp fun _ _ harchived => harchived.mono hw.reads, ?_⟩
    intro hmax
    have hwithin := hcounted hmax
    omega
  | cons artifact rest ih =>
    intro files uncompressed done reads hdone hcounted
    have hfailed : ∀ w : Store, Drafting reads w.own → Unpublished w.own :=
      fun w hw => hw.unpublished
    apply ((checkCancelled_stays (Drafting reads)).onError fun _ w hw => hfailed w hw).bind
    intro _
    apply (check_triple (fun _ w _ hw => hw) hfailed).bind
    intro _
    apply ((writeZip_stays Drafting.temp .zip _).onError fun _ w hw => hfailed w hw).bind
    intro _
    apply ((touch_stays (.io .rewind) (Drafting reads)).mono (fun _ hw => hw.1)
      (fun _ _ hw => hw) fun _ w hw => hfailed w hw).bind
    intro _
    apply ((copyArtifact_drafting files _ _ artifact.file _ [] uncompressed reads .nothing
      hcounted).onError fun _ w hw => hfailed w hw).bind
    rintro ⟨content, uncompressed⟩ w ⟨⟨hread, hwhole, hcounted'⟩, hdrafting⟩
    have hnext : Forall₂ (ArchivedFrom w.own.reads) (done ++ [artifact]) (files ++
        [⟨archiveName artifact.relative, archiveMode artifact.mode, content⟩]) := by
      refine rel_append (hdone.imp fun _ _ harchived => harchived.mono hdrafting.reads) ?_
      exact .cons ⟨rfl, rfl, hread, hwhole⟩ .nil
    have hrest := ih _ uncompressed _ _ hnext hcounted'.next w
      ⟨hdrafting.unpublished, Subset.refl _⟩
    rwa [append_assoc] at hrest

/-! ### Publishing -/

/-- The archive is complete, under its temporary name. -/
def Filled (config : ArtifactsConfig) (artifacts : List OpenedArtifact) (own : ArtifactStore) :
    Prop :=
  ∃ files, Complete config artifacts files own ∧ own.temp = some files

def Published (config : ArtifactsConfig) (artifacts : List OpenedArtifact) (own : ArtifactStore) :
    Prop :=
  ∃ files, own.published = some files ∧ Archives config own.reads artifacts files

def Faithful (config : ArtifactsConfig) (artifacts : List OpenedArtifact) (own : ArtifactStore) :
    Prop :=
  ∀ files, own.published = some files → Archives config own.reads artifacts files

variable {artifacts opened : List OpenedArtifact}

theorem Published.faithful {own : ArtifactStore} (h : Published config artifacts own) :
    Faithful config artifacts own := by
  intro files hfiles
  obtain ⟨files', hfiles', harchives⟩ := h
  rw [hfiles'] at hfiles
  cases hfiles
  exact harchives

theorem Unpublished.faithful {own : ArtifactStore} (h : Unpublished own) :
    Faithful config artifacts own := by
  intro files hfiles
  rw [h] at hfiles
  cases hfiles

theorem Filled.unpublished {own : ArtifactStore} (h : Filled config artifacts own) : Unpublished own := by
  obtain ⟨files, hcomplete, -⟩ := h
  exact hcomplete.unpublished

theorem fillArchive_filled : Triple (fun w => Unpublished w.own) (fillArchive s config opened)
      (fun _ w => Filled config (sortOpened opened) w.own) fun _ w => Unpublished w.own := by
  have hcreated : Triple (fun w => Unpublished w.own) (attempt (.io .createZip)
      (s.kernel.aside fun own => .ok ((), { own with temp := some [] })))
      (fun _ w => Drafting [] w.own) fun _ w => Unpublished w.own := by
    apply Triple.adapt
    apply aside_own (Q := Drafting [])
    · exact fun own hown => ⟨hown, by simp⟩
    · exact fun own hown => hown
    · exact fun own hown => hown.unpublished
  have hnone : Counted config [] [] 0 := fun _ => ⟨Nat.le_refl 0, Nat.zero_le _⟩
  refine hcreated.bind fun _ => ?_
  refine (writeArtifacts_drafting (sortOpened opened) [] 0 [] [] .nil hnone).bind fun files => ?_
  have hfinished : Triple (fun w => Complete config (sortOpened opened) files w.own)
      (writeZip s config .zip files) (fun _ w => Filled config (sortOpened opened) w.own)
      fun _ w => Unpublished w.own := by
    refine (writeZip_stays ?_ .zip files).mono (fun _ hw => hw) (fun _ w hw => ⟨files, hw⟩)
      fun _ w hw => hw.unpublished
    exact fun own temp hown => ⟨hown.unpublished, hown.archives⟩
  refine hfinished.bind fun _ => ?_
  have htouch : ∀ error, Triple (fun w => Filled config (sortOpened opened) w.own)
      (attempt error s.kernel.touch) (fun _ w => Filled config (sortOpened opened) w.own)
      fun _ w => Unpublished w.own :=
    fun error => (touch_stays error _).onError fun _ w hw => hw.unpublished
  exact (htouch _).bind fun _ => (htouch _).bind fun _ => Triple.pure fun _ hw => hw

/-- A failure leaves nothing published, whether the temporary file goes or not. -/
theorem writeArtifactsZip_filled :
    Triple (fun w => Unpublished w.own) (writeArtifactsZip s config opened)
      (fun _ w => Filled config (sortOpened opened) w.own) fun _ w => Unpublished w.own := by
  apply fillArchive_filled.tryCatch
  intro e
  have hremoved : Triple (fun w => Unpublished w.own) (removeTemp s)
      (fun _ w => Unpublished w.own) fun _ w => Unpublished w.own :=
    aside_own (fun own hown => hown) (fun own hown => hown) fun own hown => hown
  exact hremoved.outcome_of_either.bind fun _ => Triple.throw fun _ hw => hw

theorem publish_published : Triple (fun w => Unpublished w.own) (publish s config opened)
      (fun _ w => Published config (sortOpened opened) w.own)
      fun _ w => Faithful config (sortOpened opened) w.own := by
  have hfailed : ∀ w : Store, Unpublished w.own → Faithful config (sortOpened opened) w.own :=
    fun w hw => hw.faithful
  refine (checkCancelled_stays Unpublished).onError (fun _ w hw => hfailed w hw) |>.bind fun _ => ?_
  refine writeArtifactsZip_filled.onError (fun _ w hw => hfailed w hw) |>.bind fun size => ?_
  refine (touch_stays (.io .protectArchive) (Filled config (sortOpened opened))).onError
    (fun _ w hw => hfailed w hw.unpublished) |>.bind fun _ => ?_
  refine (checkCancelled_stays (Filled config (sortOpened opened))).onError
    (fun _ w hw => hfailed w hw.unpublished) |>.bind fun _ => ?_
  have hrenamed : Triple (fun w => Filled config (sortOpened opened) w.own)
      (attempt (.io .publish) (renameArchive s)) (fun _ w => Published config (sortOpened opened) w.own)
      fun _ w => Faithful config (sortOpened opened) w.own := by
    apply Triple.adapt
    apply aside_own
    · intro own hown
      obtain ⟨files, hcomplete, htemp⟩ := hown
      exact ⟨files, htemp, hcomplete.archives⟩
    · exact fun own hown => hown.unpublished.faithful
    · exact fun own hown => hown.faithful
  refine hrenamed.bind fun _ => ?_
  refine (checkCancelled_stays (Published config (sortOpened opened))).onError
    (fun _ w hw => hw.faithful) |>.bind fun _ => ?_
  exact Triple.pure fun _ hw => hw

theorem archiveOpened_published :
    Triple (fun w => Unpublished w.own) (archiveOpened s config opened)
      (fun _ w => Published config (sortOpened opened) w.own)
      fun _ w => Faithful config (sortOpened opened) w.own := by
  have hfailed : ∀ w : Store, Unpublished w.own → Faithful config (sortOpened opened) w.own :=
    fun w hw => hw.faithful
  refine (check_triple (fun _ w _ hw => hw) hfailed).bind fun _ => ?_
  have hcreated : Triple (fun w => Unpublished w.own) (createDirectory s)
      (fun _ w => Unpublished w.own) fun _ w => Unpublished w.own := by
    refine Triple.bind (Q := fun _ w => Unpublished w.own) (Triple.adapt ?_) fun _ =>
      touch_stays _ Unpublished
    exact aside_own (fun own hown => hown) (fun own hown => hown) fun own hown => hown
  refine hcreated.onError (fun _ w hw => hfailed w hw) |>.bind fun _ => ?_
  apply publish_published.tryCatch
  intro e
  have hremoved : Triple (fun w => Faithful config (sortOpened opened) w.own) (removeDirectory s)
      (fun _ w => Faithful config (sortOpened opened) w.own)
      fun _ w => Faithful config (sortOpened opened) w.own := by
    apply aside_own
    · exact fun own hown => Unpublished.faithful rfl
    · exact fun own hown => hown
    · exact fun own hown => hown
  exact hremoved.outcome_of_either.bind fun _ => Triple.throw fun _ hw => hw

end

end IndenturedServer.Artifacts
