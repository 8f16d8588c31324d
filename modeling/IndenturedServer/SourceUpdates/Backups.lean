import IndenturedServer.SourceUpdates.Placement

/-!
The backups of an undisturbed workspace.

Before anything is changed every target is looked at and, if it is there,
copied to a file of its own in the staging directory. The checks leave only
targets that are absent or regular files.
-/

namespace IndenturedServer.SourceUpdates

open Foundation Source Triple

section
variable {s : ApplyContext} {base view : View Text} {since : Nat} {own : UpdateFiles}

/-- Backups have been added. -/
structure Grows (own own' : UpdateFiles) : Prop where
  parents : own'.parents = own.parents
  committed : own'.committed = own.committed
  backups : ∀ {index content}, own.backups index = some content →
    own'.backups index = some content

theorem Grows.refl (own : UpdateFiles) : Grows own own :=
  ⟨rfl, rfl, id⟩

theorem Grows.trans {own₁ own₂ own₃ : UpdateFiles} (h : Grows own₁ own₂) (h' : Grows own₂ own₃) :
    Grows own₁ own₃ :=
  ⟨h'.parents.trans h.parents, h'.committed.trans h.committed, fun hsaved => h'.backups (h.backups hsaved)⟩

/-- Some files of the staging directory may have changed. -/
def Unchanged (s : ApplyContext) (view : View Text) (since : Nat) (own : UpdateFiles)
    (w : Files) : Prop :=
  ∃ own', (own'.parents = own.parents ∧ own'.committed = own.committed) ∧
    Shown s view since own' w

variable {own' : UpdateFiles} {w : Files}

theorem Unchanged.of_saved (h : Shown s view since own' w) (hparents : own'.parents = own.parents)
    (hcommitted : own'.committed = own.committed) : Unchanged s view since own w :=
  ⟨own', ⟨hparents, hcommitted⟩, h⟩

theorem Unchanged.of_shown (h : Shown s view since own w) : Unchanged s view since own w :=
  .of_saved h rfl rfl

theorem Unchanged.of_grows (hgrows : Grows own own') (h : Unchanged s view since own' w) :
    Unchanged s view since own w := by
  obtain ⟨own'', ⟨hparents, hcommitted⟩, hw⟩ := h
  exact ⟨own'', ⟨hparents.trans hgrows.parents, hcommitted.trans hgrows.committed⟩, hw⟩

/-- How a target is put away. -/
inductive Saved (s : ApplyContext) (base : View Text) (saved : Nat → Option Text)
    (change : PreparedChange) (backup : Backup) : Prop
  | absent (htarget : base (pathKey s change.path) = none) (hkind : change.kind ≠ .delete)
      (hstaged : backup.staged = none)
  | present {ino : Ino} {data : FileData} {index : Nat}
      (htarget : base (pathKey s change.path) = some (ino, .file data))
      (hstaged : backup.staged = some index) (hsaved : saved index = some data.content)
      (howner : backup.uid = data.attributes.uid ∧ backup.gid = data.attributes.gid)
      (hmode : backup.mode = data.attributes.mode &&& 0o777)
      (hsha256 : backup.sha256 = some (s.digest data.content))

structure Backed (s : ApplyContext) (base : View Text) (saved : Nat → Option Text)
    (change : PreparedChange) (backup : Backup) : Prop where
  path : backup.path = change.path
  parent : ∃ ino, base (parentKey s change.path) = some (ino, .dir)
  target : Saved s base saved change backup

section
variable {saved saved' : Nat → Option Text} {change : PreparedChange} {backup : Backup}

theorem Saved.mono (h : Saved s base saved change backup)
    (hsub : ∀ {index content}, saved index = some content → saved' index = some content) :
    Saved s base saved' change backup := by
  cases h with
  | absent htarget hkind hstaged => exact .absent htarget hkind hstaged
  | present htarget hstaged hsaved howner hmode hsha256 =>
    exact .present htarget hstaged (hsub hsaved) howner hmode hsha256

theorem Backed.mono (h : Backed s base saved change backup)
    (hsub : ∀ {index content}, saved index = some content → saved' index = some content) :
    Backed s base saved' change backup :=
  ⟨h.path, h.parent, h.target.mono hsub⟩

theorem Backed.leaf (h : Backed s base saved change backup) (ino : Ino) :
    base (pathKey s change.path) ≠ some (ino, .dir) := by
  cases h.target with
  | absent htarget => simp [htarget]
  | present htarget => simp [htarget]

end

/-- The checks before a backup leave regular files and, for a file, nothing. -/
theorem checkTarget_ok {change : PreparedChange} {found : Option (Ino × Shape)}
    (h : checkTarget change (found.map fun found => ⟨found.1, found.2.kind⟩) = .ok ()) :
    (found = none ∧ change.kind ≠ .delete) ∨ ∃ ino data, found = some (ino, .file data) := by
  simp only [checkTarget, bind_eq_ok, refuse_eq_ok, exists_const] at h
  obtain ⟨hregular, -, hdelete⟩ := h
  cases found with
  | none =>
    left
    exact ⟨rfl, fun hkind => hdelete ⟨hkind, rfl⟩⟩
  | some found =>
    right
    obtain ⟨ino, shape⟩ := found
    cases shape with
    | file data => exact ⟨ino, data, rfl⟩
    | dir => exact absurd ⟨_, rfl, rfl⟩ hregular
    | link => exact absurd ⟨_, rfl, rfl⟩ hregular
    | special => exact absurd ⟨_, rfl, rfl⟩ hregular

section
variable (hquiet : s.kernel.Quiet s.workspace)

include hquiet

variable {parent : Descriptor} {ino : Ino} {data : FileData}

theorem openRegularAt_shown {path : List Text} {name : Text}
    (hparent : view path = some (parent.ino, .dir))
    (htarget : view (path ++ [name]) = some (ino, .file data)) (expected : Stat) :
    Triple (Shown s view since own) (openRegularAt s parent name expected)
      (fun file w => view (path ++ [name]) = some (file.ino, .file data) ∧ Shown s view since own w)
      fun _ => Shown s view since own := by
  refine (openFile_sees hquiet hparent name).bind fun file => given fun ⟨shape, hfile⟩ => ?_
  refine (fstat_sees hquiet hfile).bind fun metadata => given fun _ => ?_
  refine Triple.bind (ofExcept (fun _ _ _ hw => hw) fun _ _ _ hw => hw) fun _ => ?_
  refine (fstat_sees hquiet hfile).bind fun identity => given fun _ => ?_
  refine Triple.bind (ofExcept (fun _ _ _ hw => hw) fun _ _ _ hw => hw) fun _ => ?_
  refine Triple.pure fun w hw => ⟨?_, hw⟩
  rw [htarget] at hfile ⊢
  cases hfile
  rfl

theorem copyOpenFileAndHash_shown {source : Descriptor} {path : List Text}
    (hsource : view path = some (source.ino, .file data)) (index : Nat) :
    Triple (Shown s view since own) (copyOpenFileAndHash s source index)
      (fun sha256 w => ∃ own', (sha256 = s.digest data.content ∧
          own'.backups index = some data.content ∧ Grows own own') ∧ Shown s view since own' w)
      fun _ => Unchanged s view since own := by
  have hnew : ∀ {a own'}, newBackup index own = .ok (a, own') → own.backups index = none ∧
      own' = { own with backups := Function.update own.backups index (some []) } := by
    intro a own' h
    unfold newBackup at h
    split at h
    · cases h
    · next hfree =>
        cases h
        exact ⟨by simpa using hfree, rfl⟩
  refine ((aside_sees hquiet (newBackup index)).onError ?_).bind fun _ => ?_
  · rintro e w ⟨own', rfl | ⟨a, h⟩, hw⟩
    · exact .of_shown hw
    · obtain ⟨-, rfl⟩ := hnew h
      exact .of_saved hw rfl rfl
  refine ofExists fun own₁ => given fun h₁ => ?_
  obtain ⟨hfree, rfl⟩ := hnew h₁
  refine ((readAll_sees hquiet hsource).onError fun _ w hw => .of_saved hw rfl rfl).bind
    fun content => given fun hcontent => ?_
  subst hcontent
  refine ((aside_sees hquiet (fillBackup index data.content)).onError ?_).bind fun _ => ?_
  · rintro e w ⟨own', rfl | ⟨a, h⟩, hw⟩
    · exact .of_saved hw rfl rfl
    · cases h
      exact .of_saved hw rfl rfl
  refine ofExists fun own₂ => given fun h₂ => ?_
  cases h₂
  refine ((touch_sees hquiet).onError fun _ w hw => .of_saved hw rfl rfl).bind fun _ => ?_
  refine Triple.pure fun w hw => ⟨_, ?_, hw⟩
  refine ⟨rfl, Function.update_self .., rfl, rfl, ?_⟩
  -- an earlier backup has another number
  intro other content hother
  have hne : other ≠ index := by
    rintro rfl
    rw [hfree] at hother
    cases hother
  simpa [Function.update_of_ne hne] using hother

theorem backUpTarget_present {path : List Text} {name : Text} {index : Nat}
    {change : PreparedChange} {metadata : Stat} (hparent : view path = some (parent.ino, .dir))
    (htarget : view (path ++ [name]) = some (ino, .file data)) :
    Triple (Shown s view since own) (backUpTarget s parent name index change (some metadata))
      (fun sha256 w => ∃ own', (sha256 = some (s.digest data.content) ∧
          own'.backups index = some data.content ∧ Grows own own') ∧ Shown s view since own' w)
      fun _ => Unchanged s view since own := by
  refine (adapt ((openRegularAt_shown hquiet hparent htarget metadata).onError
    fun _ _ hw => Unchanged.of_shown hw)).bind fun source => given fun hsource => ?_
  refine (copyOpenFileAndHash_shown hquiet hsource index).adapt.bind fun sha256 => ?_
  refine Triple.pure fun w hw => ?_
  obtain ⟨own', ⟨rfl, hsaved⟩, hw⟩ := hw
  exact ⟨own', ⟨rfl, hsaved⟩, hw⟩

theorem backUpChange_shown {root : Descriptor} (hroot : root.ino = s.workspace) (index : Nat)
    (change : PreparedChange) :
    Triple (Shown s base since own) (backUpChange s root index change)
      (fun backup w => ∃ own', (Grows own own' ∧ Backed s base own'.backups change backup) ∧
        Shown s base since own' w)
      fun _ => Unchanged s base since own := by
  refine (adapt ((openWorkspaceParent_shown hquiet hroot change.path).onError
    fun _ _ hw => Unchanged.of_shown hw)).bind fun place => given fun ⟨hparent, hname⟩ => ?_
  obtain ⟨parent, name⟩ := place
  subst hname
  refine (adapt ((inspectTarget_shown hquiet hparent).onError
    fun _ _ hw => Unchanged.of_shown hw)).bind fun metadata => given fun hmetadata => ?_
  subst hmetadata
  refine Triple.bind (Q := fun _ w => checkTarget change ((base (pathKey s change.path)).map
    fun found => ⟨found.1, found.2.kind⟩) = .ok () ∧ Shown s base since own w)
    (ofExcept (fun _ _ hok hw => ⟨hok, hw⟩) fun _ _ _ hw => Unchanged.of_shown hw)
    fun _ => given fun hcheck => ?_
  obtain ⟨htarget, hkind⟩ | ⟨ino, data, htarget⟩ := checkTarget_ok hcheck
  · rw [htarget]
    refine Triple.bind (Q := fun _ => Shown s base since own) (Triple.pure fun w hw => hw)
      fun sha256 => ?_
    refine Triple.pure fun w hw => ⟨own, ⟨Grows.refl own, rfl, ⟨_, hparent⟩, ?_⟩, hw⟩
    exact .absent htarget hkind rfl
  · have hpath := htarget
    rw [pathKey_eq] at hpath
    rw [htarget]
    refine (backUpTarget_present hquiet hparent hpath).bind fun sha256 => ?_
    refine Triple.pure fun w hw => ?_
    obtain ⟨own', ⟨rfl, hsaved, hgrows⟩, hw⟩ := hw
    refine ⟨own', ⟨hgrows, rfl, ⟨_, hparent⟩, ?_⟩, hw⟩
    exact .present htarget rfl hsaved ⟨rfl, rfl⟩ rfl rfl

theorem backUpChanges_shown {root : Descriptor} (hroot : root.ino = s.workspace)
    (changes : List PreparedChange) :
    ∀ (index : Nat) (own : UpdateFiles),
    Triple (Shown s base since own) (backUpChanges s root index changes)
      (fun backups w => ∃ own', (Grows own own' ∧
        List.Forall₂ (Backed s base own'.backups) changes backups) ∧ Shown s base since own' w)
      fun _ => Unchanged s base since own := by
  induction changes with
  | nil =>
    intro index own
    exact Triple.pure fun w hw => ⟨own, ⟨Grows.refl own, .nil⟩, hw⟩
  | cons change rest ih =>
    intro index own
    refine (backUpChange_shown hquiet hroot index change).bind fun backup => ?_
    refine ofExists fun own₁ => given fun ⟨hgrows₁, hbacked⟩ => ?_
    refine ((ih (index + 1) own₁).onError fun _ _ hw => hw.of_grows hgrows₁).bind fun backups => ?_
    refine Triple.pure fun w hw => ?_
    obtain ⟨own₂, ⟨hgrows₂, hrest⟩, hw⟩ := hw
    exact ⟨own₂, ⟨hgrows₁.trans hgrows₂, .cons (hbacked.mono hgrows₂.backups) hrest⟩, hw⟩

end

end

end IndenturedServer.SourceUpdates
