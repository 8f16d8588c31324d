import IndenturedServer.Artifacts.Failures

/-!
What is in a published archive.

Others may change the workspace between any two calls of
`collect_artifacts_zip`. Every byte of a published archive was all the same
read from a regular file that was opened from the root along its path, through
directories, and that is the inode which the walk had met there. If the files
are not there any more when they are opened, the collection fails before it
has made a directory.

The exception is a FIFO in the place of a file. The call that opens it waits
for somebody who writes to it, so that the collection need not end at all.
-/

namespace IndenturedServer.Artifacts

open Foundation Source Triple

variable {relative : List Text}

section
variable {s : CollectContext} {spec : ArtifactSpec} {config : ArtifactsConfig} {τ α : Type}
  {f : ArtifactStore → τ} {may : Descriptor → Prop} {log : List (Event Text)} {own : τ}
  {opened : List OpenedArtifact} {blocks : List Text → Prop}

/-! ### What every part of the program has in common -/

/-- The end of a program that has returned, or waits for one of these paths. -/
def Settles (blocks : List Text → Prop) (e : Halt) : Prop :=
  (∃ error, e = .failed error) ∨ ∃ relative, e = .waiting relative ∧ blocks relative

/-- The program returns, with a result or an error, or waits for one of these
paths. -/
def Returns (blocks : List Text → Prop) (x : EStateM Halt Store α) : Prop :=
  Triple (fun _ => True) x (fun _ _ => True) fun e _ => Settles blocks e

/-- The workspace is the given one, and what was read from its files is what
they hold. -/
structure Exact (root : Ino) (view : View Text) (w : Store) : Prop where
  sound : w.fs.Sound root
  look : w.fs.look root = view
  reads : ∀ {d offset bytes}, (d, offset, bytes) ∈ w.own.reads → ∀ {path data},
    view path = some (d.ino, .file data) → bytes = (data.content.drop offset).take 8192

/-- The program changes no entry of the workspace. It returns unless it opens one
of the given paths, and it reads what is there if nobody else changes the
workspace. -/
structure Plain (s : CollectContext) (blocks : List Text → Prop) (x : EStateM Halt Store α) :
    Prop where
  logs : Keeps (fun _ : ArtifactStore => ()) (fun _ => False) x
  returns : Returns blocks x
  exact : s.kernel.Quiet s.buildRoot → ∀ view, Triple (Exact s.buildRoot view) x
    (fun _ => Exact s.buildRoot view) fun _ => Exact s.buildRoot view

variable {view : View Text} {w : Store}

theorem Exact.sees {root : Ino} (h : Exact root view w) : Sees root view w.clock w.own w :=
  ⟨h.sound, h.look, Nat.le_refl _, rfl⟩

theorem Exact.of_sees {root : Ino} {since : Nat} {own : ArtifactStore} {w' : Store}
    (h : Exact root view w) (hsees : Sees root view since own w') (hreads : own.reads = w.own.reads) :
    Exact root view w' := by
  refine ⟨hsees.sound, hsees.look, ?_⟩
  intro d offset bytes hread
  rw [hsees.own, hreads] at hread
  exact h.reads hread

/-- A call that leaves the workspace and the program's own files alone. -/
theorem exact_of_sees {ε : Type} {root : Ino} {x : EStateM ε Store α}
    (hx : ∀ since own, Triple (Sees root view since own) x (fun _ => Sees root view since own)
      fun _ => Sees root view since own) :
    Triple (Exact root view) x (fun _ => Exact root view) fun _ => Exact root view := by
  intro w hw
  exact (hx w.clock w.own w hw.sees).mono (fun _ w' hw' => hw.of_sees hw' rfl)
    fun _ w' hw' => hw.of_sees hw' rfl

variable {change : ArtifactStore → ArtifactStore}

theorem aside_exact {root : Ino} (hquiet : s.kernel.Quiet root)
    (hreads : ∀ own, (change own).reads = own.reads) :
    Triple (Exact root view) (s.kernel.aside fun own => .ok ((), change own))
      (fun _ => Exact root view) fun _ => Exact root view := by
  intro w hw
  refine (aside_sees hquiet _ w hw.sees).mono (fun _ w' hw' => ?_) fun _ w' hw' => ?_
  · obtain ⟨own', heffect, hsees⟩ := hw'
    cases heffect
    exact hw.of_sees hsees (hreads _)
  · obtain ⟨own', rfl | ⟨_, heffect⟩, hsees⟩ := hw'
    · exact hw.of_sees hsees rfl
    · cases heffect
      exact hw.of_sees hsees (hreads _)

namespace Plain

variable {x : EStateM Halt Store α}

theorem bind {β : Type} {g : α → EStateM Halt Store β} (hx : Plain s blocks x)
    (hg : ∀ a, Plain s blocks (g a)) : Plain s blocks (x >>= g) where
  logs := hx.logs.bind fun a => (hg a).logs
  returns := hx.returns.bind fun a => (hg a).returns
  exact hquiet view := (hx.exact hquiet view).bind fun a => (hg a).exact hquiet view

theorem pure (a : α) : Plain s blocks (Pure.pure a : EStateM Halt Store α) where
  logs := Keeps.pure a
  returns := Triple.pure fun _ _ => trivial
  exact _ _ := Triple.pure fun _ hw => hw

theorem throw (error : ArtifactError) :
    Plain s blocks (MonadExcept.throw (.failed error) : EStateM Halt Store α) where
  logs := Keeps.throw _
  returns := Triple.throw fun _ _ => .inl ⟨error, rfl⟩
  exact _ _ := Triple.throw fun _ hw => hw

theorem check (x : Except ArtifactError α) : Plain s blocks (check x) := by
  cases x with
  | ok a => exact pure a
  | error e => exact throw e

theorem attempt {error : ArtifactError} {x : EStateM Errno Store α}
    (hlogs : Keeps (fun _ : ArtifactStore => ()) (fun _ => False) x)
    (hexact : s.kernel.Quiet s.buildRoot → ∀ view, Triple (Exact s.buildRoot view) x
      (fun _ => Exact s.buildRoot view) fun _ => Exact s.buildRoot view) :
    Plain s blocks (attempt error x) where
  logs := attempt_keeps hlogs
  returns := adaptExcept (any.onError fun _ _ _ => .inl ⟨error, rfl⟩)
  exact hquiet view := (hexact hquiet view).adapt

theorem ask (error : ArtifactError) (query : Fs Text → Except Errno α) :
    Plain s blocks (Artifacts.attempt error (s.kernel.ask query)) := by
  apply attempt (Keeps.ask query)
  intro hquiet view
  apply exact_of_sees
  intro since own
  exact (ask_sees hquiet query).onReturn fun _ _ hw => hw.2

theorem aside (error : ArtifactError) (hreads : ∀ own, (change own).reads = own.reads) :
    Plain s blocks (Artifacts.attempt error (s.kernel.aside fun own => .ok ((), change own))) :=
  attempt (Keeps.aside fun _ => rfl) fun hquiet _ => aside_exact hquiet hreads

theorem checkCancelled : Plain s blocks (checkCancelled s) where
  logs := checkCancelled_keeps
  returns := by
    intro w _
    show Ends _ _ (Artifacts.checkCancelled s w)
    unfold Artifacts.checkCancelled
    split
    · exact .inl ⟨_, rfl⟩
    · trivial
  exact := by
    intro _ view w hw
    show Ends _ _ (Artifacts.checkCancelled s w)
    unfold Artifacts.checkCancelled
    split
    · exact ⟨hw.sound, hw.look, hw.reads⟩
    · exact ⟨hw.sound, hw.look, hw.reads⟩

theorem cleanUp (hx : Plain s blocks x) (hreads : ∀ own, (change own).reads = own.reads) :
    Plain s blocks (tryCatch x fun e => do
      let _ ← outcome (s.kernel.aside fun own => .ok ((), change own))
      MonadExcept.throw e) where
  logs := by
    apply hx.logs.tryCatch
    intro e
    exact (Keeps.aside fun _ => rfl).outcome.bind fun _ => Keeps.throw e
  returns := by
    apply Triple.tryCatch hx.returns
    intro e
    apply Triple.bind (Q := fun _ _ => Settles blocks e)
    · apply outcome_of_either
      intro w he
      exact (any (P := fun _ => True) w trivial).mono (fun _ _ _ => he) fun _ _ _ => he
    · exact fun _ => Triple.throw fun _ he => he
  exact := by
    intro hquiet view
    apply Triple.tryCatch (hx.exact hquiet view)
    intro e
    exact (aside_exact hquiet hreads).outcome_of_either.bind fun _ => Triple.throw fun _ hw => hw

end Plain

theorem writeZip_plain (error : ArtifactError) (files : List ArchivedFile) :
    Plain s blocks (writeZip s config error files) :=
  (Plain.check _).bind fun _ => Plain.aside error fun _ => rfl

/-- A read finds what the file holds, so that what is noted is true. -/
theorem readArtifact_exact {root : Ino} (hquiet : s.kernel.Quiet root) (file : Reading)
    (offset : Nat) :
    Triple (Exact root view) (readArtifact s file offset) (fun _ => Exact root view)
      fun _ => Exact root view := by
  intro w hw
  have hread : Triple (fun w' => w' = w) (attempt (.io .read)
      (s.kernel.readAt file.descriptor offset 8192))
      (fun bytes w' => Exact root view w' ∧ ∀ {path data},
        view path = some (file.descriptor.ino, .file data) →
        bytes = (data.content.drop offset).take 8192) fun _ => Exact root view := by
    apply adapt
    refine (ask_sees hquiet _).mono (by rintro w' rfl; exact hw.sees) (fun bytes w' hw' => ?_)
      fun _ w' hw' => hw.of_sees hw' rfl
    obtain ⟨⟨fs, -, hlook, hquery⟩, hsees⟩ := hw'
    refine ⟨hw.of_sees hsees rfl, ?_⟩
    intro path data hpath
    rw [← hlook] at hpath
    rw [(Fs.look_eq_some.mp hpath).2] at hquery
    cases hquery
    rfl
  refine (hread.bind fun bytes => ?_) w rfl
  apply Triple.bind (Q := fun _ => Exact root view)
  · apply Triple.modify
    rintro w' ⟨hexact, hbytes⟩
    refine ⟨hexact.sound, hexact.look, ?_⟩
    intro d offset' bytes' hmem path data hpath
    obtain hmem | hmem := List.mem_append.mp hmem
    · exact hexact.reads hmem hpath
    · cases List.mem_singleton.mp hmem
      exact hbytes hpath
  · exact fun _ => Triple.pure fun _ hw => hw

theorem readArtifact_plain (file : Reading) (offset : Nat) :
    Plain s blocks (readArtifact s file offset) where
  logs := by
    apply Keeps.bind (attempt_keeps (Keeps.ask _))
    intro bytes
    apply Keeps.bind
    · exact fun log own => Triple.modify fun w hw => ⟨hw.own, hw.log⟩
    · exact fun _ => Keeps.pure bytes
  returns := by
    apply Triple.bind (Q := fun _ _ => True)
    · exact adaptExcept (any.onError fun _ _ _ => .inl ⟨_, rfl⟩)
    · intro bytes
      apply Triple.bind (Q := fun _ _ => True)
      · exact Triple.modify fun _ _ => trivial
      · exact fun _ => Triple.pure fun _ _ => trivial
  exact hquiet view := readArtifact_exact hquiet file offset

theorem copyArtifact_plain (files : List ArchivedFile) (name : Text) (mode : Nat) (file : Reading)
    (fuel : Nat) :
    ∀ content uncompressed,
      Plain s blocks (copyArtifact s config files name mode file fuel content uncompressed) := by
  induction fuel with
  | zero =>
    intro content uncompressed
    exact Plain.throw _
  | succ fuel ih =>
    intro content uncompressed
    apply Plain.checkCancelled.bind
    intro _
    apply (readArtifact_plain file _).bind
    intro bytes
    split
    · exact Plain.pure _
    · apply (Plain.check _).bind
      intro _
      exact (writeZip_plain _ _).bind fun _ => ih _ _

theorem writeArtifacts_plain (artifacts : List OpenedArtifact) :
    ∀ files uncompressed, Plain s blocks (writeArtifacts s config files uncompressed artifacts) := by
  induction artifacts with
  | nil =>
    intro files uncompressed
    exact Plain.pure files
  | cons artifact rest ih =>
    intro files uncompressed
    apply Plain.checkCancelled.bind
    intro _
    apply (Plain.check _).bind
    intro _
    apply (writeZip_plain _ _).bind
    intro _
    apply (Plain.ask _ _).bind
    intro _
    exact (copyArtifact_plain _ _ _ _ _ _ _).bind fun copied => ih _ _

theorem fillArchive_plain : Plain s blocks (fillArchive s config opened) := by
  have hcreated : Plain s blocks (attempt (.io .createZip)
      (s.kernel.aside fun own => .ok ((), { own with temp := some [] }))) :=
    Plain.aside _ fun _ => rfl
  apply hcreated.bind
  intro _
  apply (writeArtifacts_plain _ _ _).bind
  intro files
  apply (writeZip_plain _ _).bind
  intro _
  exact (Plain.ask _ _).bind fun _ => (Plain.ask _ _).bind fun _ => Plain.pure _

theorem writeArtifactsZip_plain : Plain s blocks (writeArtifactsZip s config opened) :=
  fillArchive_plain.cleanUp fun _ => rfl

theorem publish_plain : Plain s blocks (publish s config opened) := by
  have hrenamed : Plain s blocks (attempt (.io .publish) (renameArchive s)) := Plain.aside _ fun _ => rfl
  apply Plain.checkCancelled.bind
  intro _
  apply writeArtifactsZip_plain.bind
  intro size
  apply (Plain.ask _ _).bind
  intro _
  apply Plain.checkCancelled.bind
  intro _
  apply hrenamed.bind
  intro _
  exact Plain.checkCancelled.bind fun _ => Plain.pure size

theorem archiveOpened_plain : Plain s blocks (archiveOpened s config opened) := by
  have hcreated : Plain s blocks (attempt (.io .createDirectory)
      (s.kernel.aside fun own => .ok ((), { own with directory := true }))) :=
    Plain.aside _ fun _ => rfl
  apply (Plain.check _).bind
  intro _
  apply Plain.bind (hcreated.bind fun _ => Plain.ask _ _)
  intro _
  exact publish_plain.cleanUp fun _ => rfl

/-! ### Opening -/

theorem openReading_still {root : Ino} (hquiet : s.kernel.Quiet root) (parent : Descriptor)
    (name : Text) :
    Triple (Exact root view) (s.kernel.openReading s.waits parent name)
      (fun _ => Exact root view) fun _ => Exact root view := by
  apply exact_of_sees
  intro since own
  apply call_still hquiet
  intro now fs file fs' events heffect
  split at heffect
  · cases heffect
  · split at heffect
    · cases heffect
    · cases heffect
    · split at heffect
      · cases heffect
        rfl
      · cases heffect
        rfl

theorem openLast_plain (parent : Descriptor) {name : Text}
    (hblocks : s.kernel.Blocks s.waits name → blocks relative) :
    Plain s blocks (do
      let some file ← attempt (.io .openBeneathRoot) (s.kernel.openReading s.waits parent name)
        | throw (.waiting relative)
      return file) where
  logs := by
    have hopened : Keeps (fun _ : ArtifactStore => ()) (fun _ => False)
        (s.kernel.openReading s.waits parent name) :=
      fun log own => (openReading_since s.waits parent name).onReturn fun _ _ hw => hw.1
    apply (attempt_keeps hopened).bind
    intro file
    cases file with
    | none => exact Keeps.throw _
    | some reading => exact Keeps.pure reading
  returns := by
    apply Triple.bind (Q := fun file _ => file = none → s.kernel.Blocks s.waits name)
    · apply adaptExcept
      exact (openReading_blocks s.waits parent name).onError fun _ _ _ => .inl ⟨_, rfl⟩
    · intro file
      cases file with
      | none => exact Triple.throw fun _ hw => .inr ⟨relative, rfl, hblocks (hw rfl)⟩
      | some reading => exact Triple.pure fun _ _ => trivial
  exact hquiet view := by
    apply (openReading_still hquiet parent name).adapt.bind
    intro file
    cases file with
    | none => exact Triple.throw fun _ hw => hw
    | some reading => exact Triple.pure fun _ hw => hw

theorem openDirectory_plain (error : ArtifactError) (parent : Descriptor) (name : Text) :
    Plain s blocks (attempt error (s.kernel.openDirectory parent name)) := by
  apply Plain.attempt
  · intro log own
    refine (openDirectory_since parent name).onReturn fun child w hw => ?_
    obtain ⟨more, fs, hmore, -, hsince⟩ := hw
    exact hsince.trans hmore
  · intro hquiet view
    apply exact_of_sees
    intro since own
    apply call_still hquiet
    intro now fs child fs' events heffect
    split at heffect
    · cases heffect
    · split at heffect
      · cases heffect
        rfl
      · cases heffect

theorem openComponents_plain {components : List Text}
    (hblocks : ∀ name ∈ components.getLast?, s.kernel.Blocks s.waits name → blocks relative) :
    ∀ parent, Plain s blocks (openComponents s relative parent components) := by
  induction components with
  | nil =>
    intro parent
    exact Plain.throw _
  | cons name rest ih =>
    intro parent
    cases rest with
    | nil => exact (Plain.check _).bind fun _ => openLast_plain parent (hblocks name rfl)
    | cons next rest =>
      apply (Plain.check _).bind
      intro _
      apply (openDirectory_plain _ parent name).bind
      intro child
      apply (Plain.ask _ _).bind
      intro metadata
      exact (Plain.check _).bind fun _ => ih (by simpa using hblocks) child

variable {matched : List Matched}

theorem openEach_plain (root : Descriptor) (hblocks : ∀ m ∈ matched, ∀ name ∈ m.relative.getLast?,
      s.kernel.Blocks s.waits name → blocks m.relative) :
    Plain s blocks (openEach s root matched) := by
  induction matched with
  | nil => exact Plain.pure []
  | cons m rest ih =>
    have hfirst : Plain s blocks (openMatchedArtifact s root m) := by
      apply Plain.checkCancelled.bind
      intro _
      have hpath := hblocks m List.mem_cons_self
      apply Plain.bind ((Plain.check _).bind fun _ => openComponents_plain hpath root)
      intro file
      apply (Plain.ask _ _).bind
      intro metadata
      apply (Plain.check _).bind
      intro found
      exact (Plain.ask _ _).bind fun _ => Plain.pure _
    have hrest := ih fun m hm => hblocks m (List.mem_cons_of_mem _ hm)
    exact hfirst.bind fun _ => hrest.bind fun _ => Plain.pure _

theorem traverse_plain (items : List WalkItem) :
    ∀ t, Plain s blocks (traverse s spec config t items) := by
  induction items with
  | nil =>
    intro t
    exact Plain.pure t
  | cons item rest ih =>
    intro t
    exact Plain.checkCancelled.bind fun _ => (Plain.check _).bind fun t => ih t

theorem applyRestrictedPatterns_plain (matched : List Matched) :
    Plain s blocks (applyRestrictedPatterns s config matched) := by
  have heach : ∀ matched, Plain s blocks (checkEach s matched) := by
    intro matched
    induction matched with
    | nil => exact Plain.pure ()
    | cons m rest ih => exact Plain.checkCancelled.bind fun _ => ih
  unfold applyRestrictedPatterns
  split
  · exact Plain.pure _
  · exact (Plain.check _).bind fun _ => (heach matched).bind fun _ => Plain.pure _

theorem openRoot_keeps : Keeps f may (openRoot s) := by
  unfold openRoot Kernel.call
  apply Keeps.tornCall
  intro now fs root fs' events heffect
  split at heffect
  · cases heffect
    simp
  · cases heffect

theorem openRoot_plain (error : ArtifactError) : Plain s blocks (attempt error (openRoot s)) := by
  apply Plain.attempt openRoot_keeps
  intro hquiet view
  apply exact_of_sees
  intro since own
  apply call_still hquiet
  intro now fs root fs' events heffect
  split at heffect
  · cases heffect
    rfl
  · cases heffect

theorem archiveMatched_plain (root : Descriptor) (restrictions : Option ArtifactRestrictions)
    (hblocks : ∀ m ∈ matched, ∀ name ∈ m.relative.getLast?,
      s.kernel.Blocks s.waits name → blocks m.relative) :
    Plain s blocks (archiveMatched s config root matched restrictions) := by
  unfold archiveMatched
  split
  · exact Plain.pure _
  · apply (Plain.check _).bind
    intro _
    have hsorted : ∀ m ∈ sortMatched matched, ∀ name ∈ m.relative.getLast?,
        s.kernel.Blocks s.waits name → blocks m.relative :=
      fun m hm => hblocks m ((List.perm_insertionSort _ matched).mem_iff.mp hm)
    apply (openEach_plain root hsorted).bind
    intro opened
    exact archiveOpened_plain.bind fun size => Plain.pure _

theorem collectArtifactsZip_plain :
    Plain s (fun relative => ∃ name ∈ relative.getLast?, s.kernel.Blocks s.waits name)
      (collectArtifactsZip s spec config) := by
  apply Plain.checkCancelled.bind
  intro _
  split
  · exact Plain.pure _
  · apply (openRoot_plain _).bind
    intro root
    apply Plain.checkCancelled.bind
    intro _
    apply (Plain.check _).bind
    intro _
    apply (Plain.check _).bind
    intro _
    apply (traverse_plain _ _).bind
    intro t
    apply (applyRestrictedPatterns_plain _).bind
    intro restricted
    exact archiveMatched_plain root _ fun m _ name hname hblocked => ⟨name, hname, hblocked⟩

/-! ### The files that the walk has met -/

/-- The walk has met a regular file at this path, with this inode. -/
def Observed (walk : List WalkItem) (relative : List Text) (ino : Ino) : Prop :=
  ∃ entry stat attributes size, .found entry ∈ walk ∧ entry.relative = relative ∧
    entry.metadata = .ok stat ∧ stat.ino = ino ∧ stat.kind = .file attributes size

theorem requireRegularFile_ok {entry : WalkEntry} {stat : Stat}
    (h : requireRegularFile entry = .ok stat) :
    entry.metadata = .ok stat ∧ ∃ attributes size, stat.kind = .file attributes size := by
  unfold requireRegularFile at h
  split at h
  · cases h
  · next stat' hmetadata =>
      split at h
      · next attributes size hkind =>
          cases h
          exact ⟨hmetadata, attributes, size, hkind⟩
      · cases h

variable {m : Matched}

theorem mem_noteMatched {identity : Ino} (h : m ∈ noteMatched matched relative identity) :
    m ∈ matched ∨ m = ⟨relative, identity⟩ := by
  unfold noteMatched at h
  split at h
  · exact .inl h
  · simpa using h

variable {globs : Globs}

theorem visit_matched {t t' : Traversal} {item : WalkItem}
    (h : visit globs spec config t item = .ok t') (hm : m ∈ t'.matched) :
    m ∈ t.matched ∨ Observed [item] m.relative m.identity := by
  cases item with
  | failed => cases h
  | outside => cases h
  | found entry =>
    simp only [visit, visitEntry] at h
    split at h
    · cases h
      exact .inl hm
    · obtain ⟨observed, -, h⟩ := bind_eq_ok.mp h
      split at h
      · cases h
        exact .inl hm
      · obtain ⟨stat, hstat, h⟩ := bind_eq_ok.mp h
        cases h
        obtain hm | rfl := mem_noteMatched hm
        · exact .inl hm
        · obtain ⟨hmetadata, attributes, size, hkind⟩ := requireRegularFile_ok hstat
          exact .inr ⟨entry, stat, attributes, size, by simp, rfl, hmetadata, rfl, hkind⟩

theorem Observed.mono {walk walk' : List WalkItem} {ino : Ino} (h : Observed walk relative ino)
    (hsub : walk ⊆ walk') : Observed walk' relative ino := by
  obtain ⟨entry, stat, attributes, size, hmem, hrest⟩ := h
  exact ⟨entry, stat, attributes, size, hsub hmem, hrest⟩

theorem foldlM_visit_observed (items : List WalkItem) :
    ∀ t t' : Traversal, items.foldlM (visit globs spec config) t = .ok t' → m ∈ t'.matched →
      m ∈ t.matched ∨ Observed items m.relative m.identity := by
  induction items with
  | nil =>
    intro t t' h hm
    cases h
    exact .inl hm
  | cons item rest ih =>
    intro t t' h hm
    obtain ⟨next, hnext, h⟩ := bind_eq_ok.mp h
    obtain hm | hobserved := ih next t' h hm
    · obtain hm | hobserved := visit_matched hnext hm
      · exact .inl hm
      · exact .inr (hobserved.mono (by simp))
    · exact .inr (hobserved.mono (List.subset_cons_self _ _))

theorem matchedFiles_observed {walk : List WalkItem}
    (h : matchedFiles globs spec config walk = .ok matched) (hm : m ∈ matched) :
    Observed walk m.relative m.identity := by
  unfold matchedFiles at h
  split at h
  · cases h
    cases hm
  · obtain ⟨t, ht, h⟩ := bind_eq_ok.mp h
    cases h
    obtain hm | hobserved := foldlM_visit_observed _ _ _ ht (List.mem_of_mem_filter hm)
    · cases hm
    · exact hobserved.mono (List.filter_subset_self _)

theorem traverse_eq (items : List WalkItem) :
    ∀ t : Traversal, Triple (Since f may log own) (traverse s spec config t items)
      (fun t' w => items.foldlM (visit s.globs spec config) t = .ok t' ∧ Since f may log own w)
      fun _ => Since f may log own := by
  induction items with
  | nil =>
    intro t
    exact Triple.pure fun w hw => ⟨rfl, hw⟩
  | cons item rest ih =>
    intro t
    apply (checkCancelled_keeps log own).bind
    intro _
    apply Triple.bind (Q := fun next w =>
      visit s.globs spec config t item = .ok next ∧ Since f may log own w)
    · exact check_triple (fun next w hnext hw => ⟨hnext, hw⟩) fun _ hw => hw
    · intro next
      apply given
      intro hnext
      refine (ih next).onReturn fun t' w hw => ⟨?_, hw.2⟩
      rw [List.foldlM_cons, hnext]
      exact hw.1

theorem unrestricted_of_none (h : config.restrictedPatterns = [] ∨ matched = []) :
    unrestricted globs config matched = matched := by
  unfold unrestricted
  obtain hnone | rfl := h
  · simp [isRestricted, hnone]
  · rfl

theorem restrictions_of_none (h : config.restrictedPatterns = [] ∨ matched = []) :
    restrictions globs config matched = none := by
  apply if_neg
  obtain hnone | rfl := h
  · simp [isRestricted, hnone]
  · simp

theorem applyRestrictedPatterns_eq (matched : List Matched) :
    Triple (Since f may log own) (applyRestrictedPatterns s config matched)
      (fun restricted w => restricted =
        (unrestricted s.globs config matched, restrictions s.globs config matched) ∧
        Since f may log own w)
      fun _ => Since f may log own := by
  have heach : ∀ matched, Keeps f may (checkEach s matched) := by
    intro matched
    induction matched with
    | nil => exact Keeps.pure ()
    | cons m rest ih => exact checkCancelled_keeps.bind fun _ => ih
  unfold applyRestrictedPatterns
  split
  · next hnone =>
      refine Triple.pure fun w hw => ⟨?_, hw⟩
      rw [unrestricted_of_none hnone, restrictions_of_none hnone]
  · apply (check_keeps _ log own).bind
    intro _
    apply (heach matched log own).bind
    intro _
    exact Triple.pure fun w hw => ⟨rfl, hw⟩

/-! ### The whole -/

/-- Nothing has been stored, and no entry of the workspace has been changed. -/
abbrev Untouched : Store → Prop :=
  Since (fun own => own) (fun _ => False) [] {}

/-- The matched files have passed the checks and were opened as observed, and a
published archive has what was read from them. -/
structure Taken (config : ArtifactsConfig) (root : Descriptor) (matched : List Matched)
    (w : Store) : Prop where
  valid : validateArtifactCountAndDepth config matched = .ok ()
  opened : ∃ opened, List.Forall₂ (AsObserved w.log root) (sortMatched matched) opened ∧
    Faithful config (sortOpened opened) w.own

theorem archiveOpened_taken {root : Descriptor}
    (hvalid : validateArtifactCountAndDepth config matched = .ok ()) :
    Triple (fun w => Untouched w ∧
        List.Forall₂ (AsObserved w.log root) (sortMatched matched) opened)
      (archiveOpened s config opened) (fun _ => Taken config root matched)
      fun _ => Taken config root matched := by
  intro w hw
  -- the log only grows, so that what was opened stays opened
  have hlogs : Triple (fun w' => w' = w) (archiveOpened s config opened)
      (fun _ w' => w.log ⊆ w'.log) fun _ w' => w.log ⊆ w'.log := by
    have hplain : Plain s (fun _ => False) (archiveOpened s config opened) := archiveOpened_plain
    refine (hplain.logs w.log ()).mono ?_ (fun _ _ hw' => hw'.subset) fun _ _ hw' => hw'.subset
    rintro w' rfl
    exact Since.refl _ _ w'
  have hpublished : Triple (fun w' => w' = w) (archiveOpened s config opened)
      (fun _ w' => Faithful config (sortOpened opened) w'.own)
      fun _ w' => Faithful config (sortOpened opened) w'.own := by
    refine archiveOpened_published.mono ?_ (fun _ _ hw' => hw'.faithful) fun _ _ hw' => hw'
    rintro w' rfl
    rw [hw.1.own]
    rfl
  have htaken : ∀ w' : Store, w.log ⊆ w'.log ∧ Faithful config (sortOpened opened) w'.own →
      Taken config root matched w' :=
    fun w' hw' => ⟨hvalid, opened, hw.2.imp fun _ _ hobserved => hobserved.mono hw'.1, hw'.2⟩
  exact (hlogs.and hpublished w rfl).mono (fun _ w' hw' => htaken w' hw') fun _ w' hw' => htaken w' hw'

theorem taken_nil {root : Descriptor} (h : Untouched w) : Taken config root [] w := by
  refine ⟨by simp [validateArtifactCountAndDepth, bind_eq_ok, checkFolded], [], .nil, ?_⟩
  apply Unpublished.faithful
  rw [h.own]
  rfl

theorem archiveMatched_taken {root : Descriptor} (restrictions : Option ArtifactRestrictions) :
    Triple Untouched (archiveMatched s config root matched restrictions)
      (fun _ => Taken config root matched) fun _ w => Untouched w ∨ Taken config root matched w := by
  unfold archiveMatched
  split
  · next hnone =>
      subst hnone
      exact Triple.pure fun w hw => taken_nil hw
  · apply Triple.bind (Q := fun _ w =>
      validateArtifactCountAndDepth config matched = .ok () ∧ Untouched w)
    · exact check_triple (fun _ w hvalid hw => ⟨hvalid, hw⟩) fun w hw => .inl hw
    · intro _
      apply given
      intro hvalid
      apply ((openEach_since root _ []).onError fun _ _ hw => .inl hw).bind
      intro opened
      apply ((archiveOpened_taken hvalid).onError fun _ _ hw => .inr hw).bind
      intro size
      exact Triple.pure fun _ hw => hw

/-- The root is the first thing that is opened. -/
def rootDescriptor (s : CollectContext) : Descriptor :=
  ⟨1, s.buildRoot⟩

theorem openRoot_first : Triple (fun w => w.clock = 1 ∧ Untouched w) (openRoot s)
      (fun root w => root = rootDescriptor s ∧ Untouched w) fun _ => Untouched := by
  apply Kernel.call_triple
  · exact fun w hw => hw.2.advance _ (by simp)
  · intro w root fs events hw heffect
    split at heffect
    · cases heffect
      have hadvanced : Untouched (w.advance (s.kernel.interfere w) []) := hw.2.advance _ (by simp)
      rw [hw.1]
      exact ⟨⟨rfl, hadvanced⟩, hadvanced⟩
    · cases heffect

/-- What holds after the part that stores the archive holds after the whole. The
parts before it store nothing. -/
theorem collectArtifactsZip_triple {Q : ArtifactCollection → Store → Prop} {E : Halt → Store → Prop}
    (fs : Fs Text) (hearly : ∀ error w, error.elsewhere = true → Untouched w → E (.failed error) w)
    (hnone : spec.includes = [] → ∀ w, Untouched w → Q ⟨none, none⟩ w)
    (hmatched : ∀ t, spec.includes ≠ [] →
      (walked spec s.walk).foldlM (visit s.globs spec config) {} = .ok t →
      Triple Untouched (archiveMatched s config (rootDescriptor s)
        (unrestricted s.globs config t.matched) (restrictions s.globs config t.matched)) Q E) :
    Triple (fun w => w = start fs) (collectArtifactsZip s spec config) Q E := by
  have hstart : Triple (fun w => w = start fs) (checkCancelled s)
      (fun _ w => w.clock = 1 ∧ Untouched w) fun _ => Untouched := by
    rintro w rfl
    show Ends _ _ (checkCancelled s (start fs))
    have hsince : Untouched (start fs) := ⟨rfl, [], rfl, by simp⟩
    unfold checkCancelled
    split
    · exact ⟨hsince.own, hsince.log⟩
    · exact ⟨rfl, hsince.own, hsince.log⟩
  have hpart : ∀ {β : Type} {P : Store → Prop} {R : β → Store → Prop} {x : EStateM Halt Store β},
      Plain s (fun _ => False) x → FailsElsewhere x → Triple P x R (fun _ => Untouched) →
        Triple P x R E := by
    intro β P R x hplain helsewhere hx
    have hfails := hplain.returns.and helsewhere
    refine (hx.and (hfails.onEntry fun _ _ => trivial)).mono
      (fun _ hw => hw) (fun _ _ hw => hw.1) fun e w hw => ?_
    obtain ⟨huntouched, ⟨error, rfl⟩ | ⟨relative, -, hfalse⟩, helsewhere⟩ := hw
    · exact hearly error w helsewhere huntouched
    · exact hfalse.elim
  apply (hpart .checkCancelled FailsElsewhere.checkCancelled hstart).bind
  intro _
  split
  · next hempty => exact Triple.pure fun w hw => hnone hempty w hw.2
  · next hsome =>
      apply (hpart (openRoot_plain _) (FailsElsewhere.attempt rfl) openRoot_first.adapt).bind
      intro root
      apply given
      rintro rfl
      apply (hpart .checkCancelled FailsElsewhere.checkCancelled (checkCancelled_keeps _ _)).bind
      intro _
      apply (hpart (.check _) (.check (compilePatterns_elsewhere _ _)) (check_keeps _ _ _)).bind
      intro _
      apply (hpart (.check _) (.check (compilePatterns_elsewhere _ _)) (check_keeps _ _ _)).bind
      intro _
      apply (hpart (traverse_plain _ _) (traverse_failsElsewhere _ _) (traverse_eq _ _)).bind
      intro t
      apply given
      intro ht
      apply (hpart (applyRestrictedPatterns_plain _) (applyRestrictedPatterns_failsElsewhere _)
        (applyRestrictedPatterns_eq _)).bind
      intro restricted
      apply given
      rintro rfl
      exact hmatched t hsome ht

theorem collectArtifactsZip_taken (fs : Fs Text) :
    Triple (fun w => w = start fs) (collectArtifactsZip s spec config)
      (fun _ w => ∃ matched, matchedFiles s.globs spec config s.walk = .ok matched ∧
        Taken config (rootDescriptor s) matched w)
      fun _ w => Untouched w ∨ ∃ matched, matchedFiles s.globs spec config s.walk = .ok matched ∧
        Taken config (rootDescriptor s) matched w := by
  apply collectArtifactsZip_triple
  · exact fun _ _ _ hw => .inl hw
  · exact fun hnone w hw => ⟨[], by rw [matchedFiles, if_pos hnone], taken_nil hw⟩
  · intro t hsome ht
    have hmatched : matchedFiles s.globs spec config s.walk =
        .ok (unrestricted s.globs config t.matched) := by
      rw [matchedFiles, if_neg hsome, ht]
      rfl
    refine (archiveMatched_taken _).mono (fun _ hw => hw) (fun _ w hw => ⟨_, hmatched, hw⟩)
      fun _ w hw => ?_
    exact hw.imp id fun hw => ⟨_, hmatched, hw⟩

/-- Every byte of a published archive was read from a regular file that was
opened from the root along its path, and that the walk had met there. -/
def Confined (s : CollectContext) (w : Store) : Prop :=
  ∀ files, w.own.published = some files → ∀ file ∈ files, ∃ relative d,
    file.name = archiveName relative ∧ ReadFrom w.own.reads d file.content ∧
    OpenedAt w.log (rootDescriptor s) relative d ∧ Observed s.walk relative d.ino

/-- When they were opened, the files to be archived were those of the walk. -/
def Intact (s : CollectContext) (spec : ArtifactSpec) (config : ArtifactsConfig) (w : Store) :
    Prop :=
  ∀ matched, matchedFiles s.globs spec config s.walk = .ok matched → ∀ m ∈ matched,
    ∃ d, OpenedAt w.log (rootDescriptor s) m.relative d ∧ d.ino = m.identity

section
variable (h : Taken config (rootDescriptor s) matched w)
  (hmatched : matchedFiles s.globs spec config s.walk = .ok matched)
include h hmatched

theorem Taken.confined : Confined s w := by
  intro files hfiles file hfile
  obtain ⟨opened, hopened, hfaithful⟩ := h.opened
  obtain ⟨artifact, hartifact, harchived⟩ := forall₂_exists_left (hfaithful files hfiles).each hfile
  have hmem : artifact ∈ opened := (List.perm_insertionSort _ opened).mem_iff.mp hartifact
  obtain ⟨m, hm, hobserved⟩ := forall₂_exists_left hopened hmem
  have hmem' : m ∈ matched := (List.perm_insertionSort _ matched).mem_iff.mp hm
  refine ⟨m.relative, artifact.file.descriptor, ?_, harchived.content, hobserved.opened, ?_⟩
  · rw [harchived.name, hobserved.relative]
  · rw [hobserved.identity]
    exact matchedFiles_observed hmatched hmem'

theorem Taken.intact : Intact s spec config w := by
  intro matched' hmatched' m hm
  rw [hmatched] at hmatched'
  cases hmatched'
  obtain ⟨opened, hopened, -⟩ := h.opened
  have hmem : m ∈ sortMatched matched := (List.perm_insertionSort _ matched).mem_iff.mpr hm
  obtain ⟨artifact, -, hobserved⟩ := forall₂_exists_right hopened hmem
  exact ⟨artifact.file.descriptor, hobserved.opened, hobserved.identity⟩

end

theorem confined_of_untouched (h : Untouched w) : Confined s w := by
  intro files hfiles
  rw [h.own] at hfiles
  cases hfiles

theorem not_waiting {e : Halt} (hopen : ∀ now ino, s.waits now ino = false) :
    ¬ ∃ relative, e = .waiting relative ∧ ∃ name ∈ relative.getLast?, s.kernel.Blocks s.waits name := by
  rintro ⟨relative, -, name, -, w, dir, ino, -, -, hwaits⟩
  rw [hopen] at hwaits
  cases hwaits

end

open Plain

/-! ### A workspace with a file and a FIFO -/

/-- ASCII of `a`, which is a file, and of `p`, which is a FIFO. -/
def smallFs : Fs Text
  | 1 => some (.dir fun name => if name = [0x61] then some 2 else if name = [0x70] then some 3 else none)
  | 2 => some (.file ⟨[1, 2, 3], ⟨1000, 1000, 0o644⟩⟩)
  | 3 => some .special
  | _ => none

def smallWalk : List WalkItem :=
  [.found ⟨[], true, .ok ⟨1, .dir⟩⟩, .found ⟨[[0x61]], false, .ok ⟨2, .file ⟨1000, 1000, 0o644⟩ 3⟩⟩,
    .found ⟨[[0x70]], false, .ok ⟨3, .special⟩⟩]

/-- The workspace when `p` has been renamed to `a`. -/
def smallRenamed : Fs Text :=
  (smallFs.setEntry 1 [0x61] (some 3)).setEntry 1 [0x70] none

/-- From the given time on `p` is in the place of `a`. -/
def smallContext (time : Nat) (waits : Bool) : CollectContext where
  kernel :=
    { interfere := fun w => if w.clock < time then smallFs else smallRenamed
      fault := fun _ => none
      alloc := fun now => now }
  buildRoot := 1
  buildId := "b"
  globs := ⟨fun _ => true, fun pattern text => pattern = text⟩
  walk := smallWalk
  cancelled := fun _ => false
  waits := fun _ ino => waits && ino = 3
  archiveSize := fun _ => 0

/-- The action wants `a`. -/
def smallSpec : ArtifactSpec := { includes := [[0x61]] }

/-- The path that a run waits for. -/
def waitsFor : EStateM.Result Halt Store ArtifactCollection → Option (List Text)
  | .error (.waiting relative) _ => some relative
  | _ => none

def publishes : EStateM.Result Halt Store ArtifactCollection → Option (List ArchivedFile)
  | .ok _ w => w.own.published
  | .error _ _ => none

variable {r : EStateM.Result Halt Store ArtifactCollection}

theorem waitsFor_eq_some (h : waitsFor r = some relative) :
    ∃ w, r = .error (.waiting relative) w := by
  unfold waitsFor at h
  split at h
  · next relative' w => exact ⟨w, by rw [Option.some.inj h]⟩
  · cases h

theorem publishes_eq_some {files : List ArchivedFile} (h : publishes r = some files) :
    ∃ collection w, r = .ok collection w ∧ w.own.published = some files := by
  cases r with
  | ok collection w => exact ⟨collection, w, rfl, h⟩
  | error e w => cases h

end IndenturedServer.Artifacts
