import IndenturedServer.SourceUpdates.Backups

/-!
Making the changes of an update and taking them back.

The states of the targets are kept path by path: while the changes are made a
target is as before or done (`Doing`), and while they are taken back it is
restored or still done (`Undoing`). A failing step may leave either, which is
why the targets that were begun are exactly those whose directories are in
`mutation_parents`.
-/

namespace IndenturedServer.SourceUpdates

open Foundation Source Triple List

section
variable {s : ApplyContext} {base view : View Text} {since : Nat} {own : UpdateFiles}

/-! ### The states of the targets -/

/-- The target is what the change wants. -/
def Made (s : ApplyContext) (staged : Nat → Text) : PreparedKind → Option (Ino × Shape) → Prop
  | .file index _, found => IsFile (staged index) s.taskUid s.taskGid 0o644 found
  | .delete, found => found = none

/-- The same, or a file with the same contents, owner and permissions. -/
def Restored (before after : Option (Ino × Shape)) : Prop :=
  after = before ∨ ∃ ino data ino' data', before = some (ino, .file data) ∧
    after = some (ino', .file data') ∧ data'.content = data.content ∧
    data'.attributes.uid = data.attributes.uid ∧ data'.attributes.gid = data.attributes.gid ∧
    data'.attributes.mode &&& 0o777 = data.attributes.mode &&& 0o777

variable {found : Option (Ino × Shape)}

theorem Made.leaf {staged : Nat → Text} {kind : PreparedKind} (h : Made s staged kind found)
    (ino : Ino) : found ≠ some (ino, .dir) := by
  cases kind with
  | file index sha256 =>
    obtain ⟨_, rfl⟩ := h
    simp
  | delete =>
    rw [show found = none from h]
    simp

theorem Restored.leaf {before after : Option (Ino × Shape)} (h : Restored before after)
    (hbefore : ∀ ino, before ≠ some (ino, .dir)) (ino : Ino) : after ≠ some (ino, .dir) := by
  obtain rfl | ⟨_, _, _, _, -, rfl, -⟩ := h
  · exact hbefore ino
  · simp

/-- The targets are no directories and have no names of temporary files. -/
structure Calm (s : ApplyContext) (base : View Text) (paths : List (List Text)) : Prop where
  quiet : s.kernel.Quiet s.workspace
  injective : Function.Injective s.temp
  named : ∀ path ∈ paths, ∀ dir n, path ≠ dir ++ [s.temp n]
  leaf : ∀ path ∈ paths, ∀ ino, base path ≠ some (ino, .dir)

/-- What was there is unchanged but for the targets, which are in these states. -/
structure Fits (s : ApplyContext) (base : View Text) (paths : List (List Text))
    (state : List Text → Option (Ino × Shape) → Prop) (since : Nat) (view : View Text) : Prop where
  others : ∀ path, path ∉ paths → base path ≠ none → view path = base path
  targets : ∀ path ∈ paths, state path (view path)
  fresh : Fresh s since view

def Holding (s : ApplyContext) (base : View Text) (paths : List (List Text))
    (state : List Text → Option (Ino × Shape) → Prop) (own : UpdateFiles) (w : Files) : Prop :=
  ∃ view since, Fits s base paths state since view ∧ Shown s view since own w

variable {paths : List (List Text)} {state state' : List Text → Option (Ino × Shape) → Prop}

theorem Fits.mono (h : Fits s base paths state since view)
    (hstate : ∀ path ∈ paths, ∀ found, state path found → state' path found) :
    Fits s base paths state' since view :=
  ⟨h.others, fun path hpath => hstate path hpath _ (h.targets path hpath), h.fresh⟩

variable {w : Files}

theorem Holding.mono (h : Holding s base paths state own w)
    (hstate : ∀ path ∈ paths, ∀ found, state path found → state' path found) :
    Holding s base paths state' own w := by
  obtain ⟨view, since, hfits, hw⟩ := h
  exact ⟨view, since, hfits.mono hstate, hw⟩

variable {ino : Ino}

theorem Fits.dir (h : Fits s base paths state since view) (hcalm : Calm s base paths)
    {path : List Text} (hdir : base path = some (ino, .dir)) : view path = some (ino, .dir) := by
  have hnot : path ∉ paths := fun hpath => hcalm.leaf path hpath ino hdir
  rw [h.others path hnot (by simp [hdir]), hdir]

theorem Fits.next (h : Fits s base paths state since view) (hcalm : Calm s base paths)
    {path : List Text} (hpath : path ∈ paths) {result : Option (Ino × Shape) → Prop}
    {since' : Nat} {view' : View Text} (hnext : Next s path result view since' view')
    (hhere : ∀ found, result found → state' path found)
    (hthere : ∀ other ∈ paths, other ≠ path → ∀ found, state other found → state' other found) :
    Fits s base paths state' since' view' := by
  refine ⟨fun other hother hbase => ?_, fun other hother => ?_, hnext.fresh⟩
  · have hne : other ≠ path := by
      rintro rfl
      exact hother hpath
    have hsame := h.others other hother hbase
    obtain heq | ⟨hnone, -⟩ := hnext.others other hne
    · rw [heq, hsame]
    · rw [hsame] at hnone
      exact absurd hnone hbase
  · by_cases heq : other = path
    · subst heq
      exact hhere _ hnext.here
    · obtain hsame | ⟨-, dir, n, hname⟩ := hnext.others other heq
      · rw [hsame]
        exact hthere other hother heq _ (h.targets other hother)
      · exact absurd hname (hcalm.named other hother dir n)

theorem After.holding {path : List Text} {result : Option (Ino × Shape) → Prop}
    (hafter : After s path result view own w) (h : Fits s base paths state since view)
    (hcalm : Calm s base paths) (hpath : path ∈ paths)
    (hhere : ∀ found, result found → state' path found)
    (hthere : ∀ other ∈ paths, other ≠ path → ∀ found, state other found → state' other found) :
    Holding s base paths state' own w := by
  obtain ⟨view', since', hnext, hw⟩ := hafter
  exact ⟨view', since', h.next hcalm hpath hnext hhere hthere, hw⟩

/-! ### Programs that only look -/

/-- The program leaves the workspace and the server's files as they are. -/
def Looks (s : ApplyContext) {ε α : Type} (x : EStateM ε Files α) : Prop :=
  ∀ view since own, Triple (Shown s view since own) x (fun _ => Shown s view since own)
    fun _ => Shown s view since own

variable {ε α : Type} {x : EStateM ε Files α}

theorem Looks.holding (hx : Looks s x) :
    Triple (Holding s base paths state own) x (fun _ => Holding s base paths state own)
      fun _ => Holding s base paths state own := by
  refine ofExists fun view => ofExists fun since => given fun hfits => ?_
  refine (hx view since own).mono (fun _ hw => hw) (fun _ w hw => ?_) fun _ w hw => ?_
  · exact ⟨view, since, hfits, hw⟩
  · exact ⟨view, since, hfits, hw⟩

theorem Looks.ask (hquiet : s.kernel.Quiet s.workspace) (query : Fs Text → Except Errno α) :
    Looks s (s.kernel.ask query) :=
  fun _ _ _ => (ask_sees hquiet query).onReturn fun _ _ hw => hw.2

theorem verifyParents_looks (hquiet : s.kernel.Quiet s.workspace) {root : Descriptor}
    (hroot : root.ino = s.workspace) (pairs : List (PreparedChange × Descriptor)) :
    Looks s (verifyParents s root pairs) := by
  induction pairs with
  | nil => exact fun _ _ _ => Triple.pure fun _ hw => hw
  | cons pair rest ih =>
    intro view since own
    have hverify : Triple (Shown s view since own)
        (verifyParentStillBeneath s root pair.1.path pair.2) (fun _ => Shown s view since own)
        fun _ => Shown s view since own := by
      refine (openWorkspaceParent_shown hquiet hroot pair.1.path).adapt.bind fun current =>
        given fun _ => ?_
      refine (Looks.ask hquiet _ view since own).adapt.bind fun heldStat => ?_
      refine (Looks.ask hquiet _ view since own).adapt.bind fun currentStat => ?_
      exact ofExcept (fun _ _ _ hw => hw) fun _ _ _ hw => hw
    exact hverify.bind fun _ => ih view since own

/-! ### Making the changes -/

section
variable (staged : Nat → Text)

/-- A target is as before unless its change has been made. -/
def Doing (s : ApplyContext) (base : View Text) (staged : Nat → Text) (done : List PreparedChange)
    (path : List Text) (found : Option (Ino × Shape)) : Prop :=
  (∃ change ∈ done, pathKey s change.path = path ∧ Made s staged change.kind found) ∨
    (∀ change ∈ done, pathKey s change.path ≠ path) ∧ found = base path

/-- A target is restored unless its change is still to be taken back. -/
def Undoing (s : ApplyContext) (base : View Text) (staged : Nat → Text)
    (rest : List PreparedChange) (path : List Text) (found : Option (Ino × Shape)) : Prop :=
  Restored (base path) found ∨
    ∃ change ∈ rest, pathKey s change.path = path ∧ Made s staged change.kind found

variable {staged} {done : List PreparedChange}

theorem Doing.undoing {path : List Text} (h : Doing s base staged done path found) :
    Undoing s base staged done path found := by
  obtain h | ⟨-, h⟩ := h
  · exact .inr h
  · exact .inl (.inl h)

/-- The directory of the target is held. -/
def Held (s : ApplyContext) (base : View Text) (change : PreparedChange) (parent : Descriptor) :
    Prop :=
  base (parentKey s change.path) = some (parent.ino, .dir)

/-- The changes in `done` have been begun. -/
def Stage (s : ApplyContext) (base : View Text) (paths : List (List Text))
    (state : List PreparedChange → List Text → Option (Ino × Shape) → Prop)
    (saved : Nat → Option Text) (committed : Bool) (done : List PreparedChange) (w : Files) : Prop :=
  ∃ own, (own.backups = saved ∧ own.committed = committed ∧
    List.Forall₂ (Held s base) done own.parents) ∧ Holding s base paths (state done) own w

variable {saved : Nat → Option Text} {committed : Bool}

theorem Stage.undoing (h : Stage s base paths (Doing s base staged) saved committed done w) :
    Stage s base paths (Undoing s base staged) saved committed done w := by
  obtain ⟨own, hown, hw⟩ := h
  exact ⟨own, hown, hw.mono fun _ _ _ => Doing.undoing⟩

theorem Looks.stage (hx : Looks s x) :
    Triple (Stage s base paths (Doing s base staged) saved committed done) x
      (fun _ => Stage s base paths (Doing s base staged) saved committed done)
      fun _ => Stage s base paths (Undoing s base staged) saved committed done := by
  refine ofExists fun own => given fun hown => ?_
  refine hx.holding.mono (fun _ hw => hw) (fun _ w hw => ⟨own, hown, hw⟩) fun _ w hw => ?_
  exact Stage.undoing ⟨own, hown, hw⟩

theorem mutateTarget_after (hcalm : Calm s base paths) {parent : Descriptor} {relative : Text}
    (hpath : pathKey s relative ∈ paths)
    (hparent : view (parentKey s relative) = some (parent.ino, .dir))
    (htarget : ∀ ino, view (pathKey s relative) ≠ some (ino, .dir)) (hfresh : Fresh s since view)
    (kind : PreparedKind) :
    Triple (Shown s view since own)
      (mutateTarget s staged parent (s.caseRule.fold (finalName relative)) kind)
      (fun _ => After s (pathKey s relative) (Made s staged kind) view own)
      fun _ => After s (pathKey s relative)
        (fun found => found = view (pathKey s relative) ∨ Made s staged kind found) view own := by
  have hname := hcalm.named _ hpath
  rw [pathKey_eq] at htarget hname ⊢
  cases kind with
  | file index sha256 =>
    have hsource : Provides own (staged index) (.staged (staged index)) := rfl
    exact (atomicCopyAt_after hcalm.quiet hcalm.injective hsource hparent hname htarget hfresh
      _ _ _).adapt
  | delete => exact (unlinkFileAt_after hcalm.quiet hparent hname hfresh).adapt

theorem mutateChange_stage (hcalm : Calm s base paths) {root : Descriptor}
    (hroot : root.ino = s.workspace) {change : PreparedChange} {backup : Backup}
    (hbacked : Backed s base saved change backup) (hpath : pathKey s change.path ∈ paths)
    (hnew : ∀ earlier ∈ done, pathKey s earlier.path ≠ pathKey s change.path) :
    Triple (Stage s base paths (Doing s base staged) saved false done)
      (mutateChange s staged root change backup)
      (fun _ => Stage s base paths (Doing s base staged) saved false (done ++ [change]))
      fun _ w => Stage s base paths (Undoing s base staged) saved false done w ∨
        Stage s base paths (Undoing s base staged) saved false (done ++ [change]) w := by
  have hcancel : Looks s (checkCancelled s) := fun _ _ _ => checkCancelled_shown
  refine (hcancel.stage.onError fun _ _ => .inl).bind fun _ => ?_
  refine ofExists fun own => given fun ⟨hsaved, hcommitted, hheld⟩ => ?_
  refine ofExists fun view => ofExists fun since => given fun hfits => ?_
  have hback : ∀ (e : UpdateError) w, Shown s view since own w →
      Stage s base paths (Undoing s base staged) saved false done w ∨
        Stage s base paths (Undoing s base staged) saved false (done ++ [change]) w :=
    fun _ w hw => .inl (Stage.undoing ⟨own, ⟨hsaved, hcommitted, hheld⟩, view, since, hfits, hw⟩)
  refine ((openWorkspaceParent_shown hcalm.quiet hroot change.path).adapt.onError hback).bind
    fun place => given fun ⟨hparent, hname⟩ => ?_
  obtain ⟨parent, name⟩ := place
  subst hname
  have hvalidate : Triple (Shown s view since own)
      (validateTargetAt s parent (s.caseRule.fold (finalName change.path)) backup)
      (fun _ => Shown s view since own) fun _ => Shown s view since own :=
    ((inspectTarget_shown hcalm.quiet hparent).adapt.bind fun _ => given fun _ =>
      ofExcept (fun _ _ _ hw => hw) fun _ _ _ hw => hw)
  refine (hvalidate.onError hback).bind fun _ => ?_
  have hbase : Held s base change parent := by
    obtain ⟨ino, hino⟩ := hbacked.parent
    rw [hfits.dir hcalm hino] at hparent
    cases hparent
    exact hino
  refine Triple.bind (Q := fun _ => Shown s view since
    { own with parents := own.parents ++ [parent] })
    (Triple.modify fun w hw => ⟨hw.sound, hw.look, hw.clock, by rw [Machine.withOwn_own, hw.own]⟩)
    fun _ => ?_
  -- from here on the target counts as begun
  have hown : Forall₂ (Held s base) (done ++ [change]) (own.parents ++ [parent]) :=
    rel_append hheld (.cons hbase .nil)
  have hbefore : view (pathKey s change.path) = base (pathKey s change.path) := by
    obtain ⟨earlier, hmem, heq, -⟩ | ⟨-, heq⟩ := hfits.targets _ hpath
    · exact absurd heq (hnew earlier hmem)
    · exact heq
  have htarget : ∀ ino, view (pathKey s change.path) ≠ some (ino, .dir) := by
    rw [hbefore]
    exact hbacked.leaf
  refine (mutateTarget_after hcalm hpath hparent htarget hfits.fresh change.kind).mono
    (fun _ hw => hw) (fun _ w hafter => ?_) fun _ w hafter => .inr ?_
  · refine ⟨{ own with parents := own.parents ++ [parent] }, ⟨hsaved, hcommitted, hown⟩,
      hafter.holding hfits hcalm hpath ?_ ?_⟩
    · intro found hfound
      exact .inl ⟨change, by simp, rfl, hfound⟩
    · rintro other _ hne found (⟨earlier, hmem, heq, hmade⟩ | ⟨hnone, heq⟩)
      · exact .inl ⟨earlier, by simp [hmem], heq, hmade⟩
      · refine .inr ⟨fun earlier hmem => ?_, heq⟩
        obtain hmem | hmem := mem_append.mp hmem
        · exact hnone earlier hmem
        · rw [mem_singleton.mp hmem]
          exact hne.symm
  · refine ⟨{ own with parents := own.parents ++ [parent] }, ⟨hsaved, hcommitted, hown⟩,
      hafter.holding hfits hcalm hpath ?_ ?_⟩
    · rintro found (hfound | hfound)
      · exact .inl (.inl (hfound.trans hbefore))
      · exact .inr ⟨change, by simp, rfl, hfound⟩
    · intro other _ _ found hfound
      obtain hrestored | ⟨earlier, hmem, heq, hmade⟩ := hfound.undoing
      · exact .inl hrestored
      · exact .inr ⟨earlier, by simp [hmem], heq, hmade⟩

variable {changes : List PreparedChange} {backups : List Backup}

/-- The changes are made in their order; the ones begun are a first part. -/
theorem mutateChanges_stage (hcalm : Calm s base paths) {root : Descriptor}
    (hroot : root.ino = s.workspace) (hbacked : Forall₂ (Backed s base saved) changes backups)
    (hpaths : ∀ change ∈ changes, pathKey s change.path ∈ paths) :
    ∀ done, ((done ++ changes).map fun change => pathKey s change.path).Nodup →
    Triple (Stage s base paths (Doing s base staged) saved false done)
      (mutateChanges s staged root (changes.zip backups))
      (fun _ => Stage s base paths (Doing s base staged) saved false (done ++ changes))
      fun _ w => ∃ more, more <+: changes ∧
        Stage s base paths (Undoing s base staged) saved false (done ++ more) w := by
  induction hbacked with
  | nil =>
    intro done _
    exact Triple.pure fun w hw => by simpa using hw
  | @cons change backup changes backups hchange _ ih =>
    intro done hnodup
    have hnew : ∀ earlier ∈ done, pathKey s earlier.path ≠ pathKey s change.path := by
      intro earlier hmem heq
      rw [map_append, nodup_append] at hnodup
      exact hnodup.2.2 _ (mem_map_of_mem hmem) _ (mem_map_of_mem mem_cons_self) heq
    have hpath : pathKey s change.path ∈ paths := hpaths change mem_cons_self
    refine Triple.bind ((mutateChange_stage hcalm hroot hchange hpath hnew).onError ?_) fun _ => ?_
    · rintro e w (hw | hw)
      · exact ⟨[], nil_prefix, by simpa using hw⟩
      · exact ⟨[change], by simp, hw⟩
    · have hrest := ih (fun other hother => hpaths other (mem_cons_of_mem _ hother))
        (done ++ [change]) (by simpa using hnodup)
      refine hrest.mono (fun _ hw => hw) (fun _ w hw => by simpa using hw) ?_
      rintro e w ⟨more, hmore, hw⟩
      exact ⟨change :: more, by simpa using hmore, by simpa using hw⟩

theorem commitMetadata_stage (hquiet : s.kernel.Quiet s.workspace) :
    Triple (Stage s base paths (Doing s base staged) saved false done) (commitMetadata s)
      (fun _ => Stage s base paths (Doing s base staged) saved true done)
      fun e w => e.rollbackProven = false ∧
        ∃ committed, Stage s base paths (Undoing s base staged) saved committed done w := by
  refine ofExists fun own => given fun ⟨hsaved, hcommitted, hheld⟩ => ?_
  refine ofExists fun view => ofExists fun since => given fun hfits => ?_
  apply adaptExcept
  refine (aside_sees hquiet _).mono (fun _ hw => hw) ?_ ?_
  · rintro _ w ⟨own', hok, hw⟩
    cases hok
    exact ⟨{ own with committed := true }, ⟨hsaved, rfl, hheld⟩, view, since, hfits, hw⟩
  · rintro e w ⟨own', rfl | ⟨_, hok⟩, hw⟩
    · exact ⟨rfl, false, Stage.undoing ⟨own', ⟨hsaved, hcommitted, hheld⟩, view, since, hfits, hw⟩⟩
    · cases hok
      exact ⟨rfl, true, Stage.undoing
        ⟨{ own with committed := true }, ⟨hsaved, rfl, hheld⟩, view, since, hfits, hw⟩⟩

/-- Where a failure leaves the changes. After the commit the error does not
claim a proven rollback. -/
def Broken (s : ApplyContext) (base : View Text) (paths : List (List Text)) (staged : Nat → Text)
    (saved : Nat → Option Text) (changes : List PreparedChange) (e : UpdateError) (w : Files) :
    Prop :=
  ∃ done committed, (done <+: changes ∧ (e.rollbackProven = true → committed = false)) ∧
    Stage s base paths (Undoing s base staged) saved committed done w

theorem mutation_stage (hcalm : Calm s base paths) {root : Descriptor}
    (hroot : root.ino = s.workspace) (hbacked : Forall₂ (Backed s base saved) changes backups)
    (hpaths : ∀ change ∈ changes, pathKey s change.path ∈ paths)
    (hnodup : (changes.map fun change => pathKey s change.path).Nodup) :
    Triple (Stage s base paths (Doing s base staged) saved false [])
      (mutation s staged root changes backups)
      (fun _ => Stage s base paths (Doing s base staged) saved true changes)
      (Broken s base paths staged saved changes) := by
  have hall : ∀ (e : UpdateError) w,
      Stage s base paths (Undoing s base staged) saved false changes w →
      Broken s base paths staged saved changes e w :=
    fun _ w hw => ⟨changes, false, ⟨prefix_rfl, fun _ => rfl⟩, hw⟩
  refine Triple.bind ((mutateChanges_stage hcalm hroot hbacked hpaths [] hnodup).onError ?_)
    fun _ => ?_
  · rintro e w ⟨more, hmore, hw⟩
    exact ⟨more, false, ⟨hmore, fun _ => rfl⟩, hw⟩
  have hparents : Looks s (mutationParents : EStateM UpdateError Files _) :=
    fun _ _ _ _ hw => hw
  refine (hparents.stage.onError hall).bind fun parents => ?_
  refine ((verifyParents_looks hcalm.quiet hroot _).stage.onError hall).bind fun _ => ?_
  have hcancel : Looks s (checkCancelled s) := fun _ _ _ => checkCancelled_shown
  refine (hcancel.stage.onError hall).bind fun _ => ?_
  refine (commitMetadata_stage hcalm.quiet).onError ?_
  rintro e w ⟨hproven, committed, hw⟩
  exact ⟨changes, committed, ⟨prefix_rfl, by simp [hproven]⟩, hw⟩

/-! ### Taking them back -/

variable {rest : List PreparedChange}

theorem Undoing.leaf (hcalm : Calm s base paths) {path : List Text} (hpath : path ∈ paths)
    (h : Undoing s base staged rest path found) (ino : Ino) : found ≠ some (ino, .dir) := by
  obtain hrestored | ⟨change, -, -, hmade⟩ := h
  · exact hrestored.leaf (hcalm.leaf path hpath) ino
  · exact hmade.leaf ino

theorem Undoing.tail {change : PreparedChange} {path : List Text}
    (hne : path ≠ pathKey s change.path) (h : Undoing s base staged (change :: rest) path found) :
    Undoing s base staged rest path found := by
  obtain hrestored | ⟨other, hmem, heq, hmade⟩ := h
  · exact .inl hrestored
  · obtain rfl | hmem := mem_cons.mp hmem
    · exact absurd heq.symm hne
    · exact .inr ⟨other, hmem, heq, hmade⟩

variable {data : FileData}

theorem restored_of_isFile (h : IsFile data.content data.attributes.uid data.attributes.gid
      (data.attributes.mode &&& 0o777) found) : Restored (some (ino, .file data)) found := by
  obtain ⟨ino', rfl⟩ := h
  refine .inr ⟨ino, data, ino', _, rfl, rfl, rfl, rfl, rfl, ?_⟩
  rw [Nat.and_assoc, Nat.and_self]

section
variable {change : PreparedChange} {backup : Backup} {parent : Descriptor}

theorem Fits.forget (hfits : Fits s base paths state since view) (hw : Shown s view since own w) :
    Holding s base paths (fun _ _ => True) own w :=
  ⟨view, since, hfits.mono fun _ _ _ _ => trivial, hw⟩

section
variable (hcalm : Calm s base paths) (hpath : pathKey s change.path ∈ paths)
  (hfits : Fits s base paths (Undoing s base staged (change :: rest)) since view)
  (hparent : view (parentKey s change.path) = some (parent.ino, .dir))
include hcalm hpath hfits hparent

theorem restore_present {index : Nat}
    (htarget : base (pathKey s change.path) = some (ino, .file data))
    (hsaved : own.backups index = some data.content) (huid : backup.uid = data.attributes.uid)
    (hgid : backup.gid = data.attributes.gid) (hmode : backup.mode = data.attributes.mode &&& 0o777)
    (current : Option Stat) :
    Triple (Shown s view since own)
      (restore s parent (s.caseRule.fold (finalName change.path)) backup current (some index))
      (fun _ => Holding s base paths (Undoing s base staged rest) own)
      fun _ => Holding s base paths (fun _ _ => True) own := by
  have hleaf : ∀ ino, view (pathKey s change.path) ≠ some (ino, .dir) :=
    (hfits.targets _ hpath).leaf hcalm hpath
  have hname := hcalm.named _ hpath
  have hsource : Provides own data.content (.backup index) := hsaved
  refine Triple.bind (ofExcept (fun _ _ _ hw => hw) fun _ _ _ hw => hfits.forget hw) fun _ => ?_
  rw [pathKey_eq] at hleaf hname
  have hcopy := atomicCopyAt_after hcalm.quiet hcalm.injective hsource hparent hname hleaf
    hfits.fresh backup.uid backup.gid backup.mode
  rw [← pathKey_eq] at hcopy
  refine hcopy.mono (fun _ hw => hw) (fun _ w hafter => ?_) fun _ w hafter => ?_
  · refine hafter.holding hfits hcalm hpath (fun found hfound => .inl ?_)
      fun other _ hne found => Undoing.tail hne
    rw [htarget]
    apply restored_of_isFile
    rwa [← huid, ← hgid, ← hmode]
  · exact hafter.holding hfits hcalm hpath (fun _ _ => trivial) fun _ _ _ _ _ => trivial

theorem restore_absent (htarget : base (pathKey s change.path) = none) :
    Triple (Shown s view since own)
      (restore s parent (s.caseRule.fold (finalName change.path)) backup
        ((view (pathKey s change.path)).map fun found => ⟨found.1, found.2.kind⟩) none)
      (fun _ => Holding s base paths (Undoing s base staged rest) own)
      fun _ => Holding s base paths (fun _ _ => True) own := by
  have hname := hcalm.named _ hpath
  cases hfound : view (pathKey s change.path) with
  | none =>
    refine Triple.pure fun w hw => ?_
    refine ⟨view, since, ⟨hfits.others, fun other hother => ?_, hfits.fresh⟩, hw⟩
    by_cases heq : other = pathKey s change.path
    · subst heq
      exact .inl (.inl (by rw [hfound, htarget]))
    · exact (hfits.targets other hother).tail heq
  | some found =>
    rw [pathKey_eq] at hname
    have hunlink : Triple (Shown s view since own)
        (unlinkFileAt s parent (s.caseRule.fold (finalName change.path))) _ _ :=
      unlinkFileAt_after hcalm.quiet hparent hname hfits.fresh
    rw [← pathKey_eq] at hunlink
    show Triple _ (if (regular _).isSome then _ else _) _ _
    split
    · refine hunlink.mono (fun _ hw => hw) (fun _ w hafter => ?_) fun _ w hafter => ?_
      · refine hafter.holding hfits hcalm hpath (fun found hnone => .inl (.inl ?_))
          fun other _ hne found => Undoing.tail hne
        rw [hnone, htarget]
      · exact hafter.holding hfits hcalm hpath (fun _ _ => trivial) fun _ _ _ _ _ => trivial
    · exact Triple.throw fun w hw => hfits.forget hw

end

theorem rollbackChange_holding (hcalm : Calm s base paths)
    (hbacked : Backed s base own.backups change backup) (hheld : Held s base change parent)
    (hpath : pathKey s change.path ∈ paths) :
    Triple (Holding s base paths (Undoing s base staged (change :: rest)) own)
      (rollbackChange s backup parent)
      (fun _ => Holding s base paths (Undoing s base staged rest) own)
      fun _ => Holding s base paths (fun _ _ => True) own := by
  refine ofExists fun view => ofExists fun since => given fun hfits => ?_
  have hparent : view (parentKey s change.path) = some (parent.ino, .dir) := hfits.dir hcalm hheld
  unfold rollbackChange
  rw [hbacked.path]
  refine Triple.bind (ofExcept (fun _ _ _ hw => hw) fun _ _ _ hw => hfits.forget hw) fun _ => ?_
  refine ((inspectTarget_shown hcalm.quiet hparent).onError fun _ _ hw => hfits.forget hw).bind
    fun current => given fun hcurrent => ?_
  cases hbacked.target with
  | present htarget hstaged hsaved howner hmode hsha256 =>
    rw [hstaged]
    exact restore_present hcalm hpath hfits hparent htarget hsaved howner.1 howner.2 hmode current
  | absent htarget hkind hstaged =>
    rw [hstaged, hcurrent]
    exact restore_absent hcalm hpath hfits hparent htarget

end

/-- What `rollback` needs to know of a change that was begun. -/
structure Begins (s : ApplyContext) (base : View Text) (paths : List (List Text))
    (saved : Nat → Option Text) (item : PreparedChange × Backup × Descriptor) : Prop where
  backed : Backed s base saved item.1 item.2.1
  held : Held s base item.1 item.2.2
  path : pathKey s item.1.path ∈ paths

theorem rollback_holding (hcalm : Calm s base paths)
    (items : List (PreparedChange × Backup × Descriptor))
    (hitems : ∀ item ∈ items, Begins s base paths own.backups item) :
    Triple (Holding s base paths (Undoing s base staged (items.map Prod.fst)) own)
      (rollback s (items.map Prod.snd))
      (fun _ => Holding s base paths (Undoing s base staged []) own)
      fun _ => Holding s base paths (fun _ _ => True) own := by
  induction items with
  | nil => exact Triple.pure fun _ hw => hw
  | cons item items ih =>
    have hitem := hitems item mem_cons_self
    refine (rollbackChange_holding hcalm hitem.backed hitem.held hitem.path).bind fun _ => ?_
    exact ih fun other hother => hitems other (mem_cons_of_mem _ hother)

/-- How a call ends that does not succeed. -/
def Ended (s : ApplyContext) (base : View Text) (paths : List (List Text)) (e : UpdateError)
    (w : Files) : Prop :=
  ∃ own state, (e.rollbackProven = true →
      (∀ path ∈ paths, ∀ found, state path found → Restored (base path) found) ∧
        own.committed = false) ∧
    Holding s base paths state own w

theorem begins_of_zip {parents : List Descriptor}
    (hbacked : Forall₂ (Backed s base saved) changes backups)
    (hheld : Forall₂ (Held s base) changes parents)
    (hpaths : ∀ change ∈ changes, pathKey s change.path ∈ paths)
    {item : PreparedChange × Backup × Descriptor} (hitem : item ∈ changes.zip (backups.zip parents)) :
    Begins s base paths saved item := by
  induction hbacked generalizing parents with
  | nil => simp at hitem
  | @cons change backup changes backups hchange _ ih =>
    cases hheld with
    | @cons _ parent _ parents hparent hrest =>
      simp only [zip_cons_cons, mem_cons] at hitem
      obtain rfl | hitem := hitem
      · exact ⟨hchange, hparent, hpaths change mem_cons_self⟩
      · exact ih hrest (fun other hother => hpaths other (mem_cons_of_mem _ hother)) hitem

theorem undo_ended (hcalm : Calm s base paths)
    (hbacked : Forall₂ (Backed s base saved) changes backups)
    (hpaths : ∀ change ∈ changes, pathKey s change.path ∈ paths) (err : UpdateError)
    {Q : Unit → Files → Prop} :
    Triple (Broken s base paths staged saved changes err) (undo s backups err) Q
      (Ended s base paths) := by
  refine ofExists fun done => ofExists fun committed => ?_
  refine given fun ⟨hdone, hproven⟩ => ofExists fun own => ?_
  refine given fun ⟨hsaved, hcommitted, hheld⟩ => ?_
  subst hsaved
  refine Triple.bind (Q := fun parents w => parents = own.parents ∧
    Holding s base paths (Undoing s base staged done) own w) (fun w hw => ⟨?_, hw⟩)
    fun parents => given fun hparents => ?_
  · obtain ⟨view, since, -, hshown⟩ := hw
    exact congrArg UpdateFiles.parents hshown.own
  subst hparents
  have hlength : done.length = own.parents.length := hheld.length_eq
  have hbegun : Forall₂ (Backed s base own.backups) done (backups.take own.parents.length) := by
    have htake := forall₂_take own.parents.length hbacked
    rwa [← hlength, ← prefix_iff_eq_take.mp hdone, hlength] at htake
  have hzip : ((backups.take own.parents.length).zip own.parents).length = done.length := by
    rw [length_zip, ← hbegun.length_eq, hlength, Nat.min_self]
  -- the changes in the order in which they are taken back
  have hitems : ∀ item ∈ (done.zip ((backups.take own.parents.length).zip own.parents)).reverse,
      Begins s base paths own.backups item := fun item hitem => begins_of_zip hbegun hheld
    (fun change hchange => hpaths change (hdone.subset hchange)) (mem_reverse.mp hitem)
  have hrollback : Triple (Holding s base paths (Undoing s base staged _) own) _ _ _ :=
    rollback_holding hcalm _ hitems
  rw [map_reverse, map_reverse, map_fst_zip hzip.ge, map_snd_zip hzip.le] at hrollback
  have hreverse : ∀ w, Holding s base paths (Undoing s base staged done) own w →
      Holding s base paths (Undoing s base staged done.reverse) own w := by
    intro w hw
    refine hw.mono fun path _ found hfound => ?_
    obtain hrestored | ⟨change, hmem, hchange⟩ := hfound
    · exact .inl hrestored
    · exact .inr ⟨change, mem_reverse.mpr hmem, hchange⟩
  refine (outcome hrollback).mono hreverse (fun _ _ hw => hw) (fun _ _ hw => hw) |>.bind
    fun result => ?_
  apply Triple.throw
  intro w hw
  cases result with
  | ok _ =>
    refine ⟨own, Undoing s base staged [], fun h => ⟨fun path _ found hfound => ?_, ?_⟩, hw⟩
    · obtain hrestored | ⟨change, hmem, -⟩ := hfound
      · exact hrestored
      · cases hmem
    · rw [hcommitted]
      exact hproven h
  | error e => exact ⟨own, fun _ _ => True, by simp [afterRollback], hw⟩

end

end

end IndenturedServer.SourceUpdates
