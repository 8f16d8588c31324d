import IndenturedServer.Foundation.Correspondence
import IndenturedServer.SourceUpdates.Apply

/-!
An update changes entries of the declared directories only.

Others may change the workspace between any two calls: move directories, put
links in their place, make and remove files. What `apply_update` changes are
entries of the descriptors in `mutation_parents`, and each of these was opened
from the root name by name along a declared path, through directories. When
the call succeeds, every one of them was found again at its path after the
last change.
-/

namespace IndenturedServer.SourceUpdates

open Foundation Source Keeps UpdateFiles Triple List

section
variable {s : ApplyContext} {may : Descriptor → Prop} {log : List (Event Text)}
  {own : List Descriptor} {root parent : Descriptor}

/-! ### Programs that change entries of one directory -/

/-- The program leaves `mutation_parents` alone and changes entries of these
directories at most. -/
abbrev Touches {ε α : Type} (may : Descriptor → Prop) (x : EStateM ε Files α) : Prop :=
  Keeps UpdateFiles.parents may x

theorem checkCancelled_touches : Touches may (checkCancelled s) := by
  intro log own w hw
  show Ends _ _ (checkCancelled s w)
  unfold checkCancelled
  split
  · exact ⟨hw.own, hw.log⟩
  · exact ⟨hw.own, hw.log⟩

theorem inspectTarget_touches (parent : Descriptor) (name : Text) :
    Touches may (inspectTarget s parent name) := by
  unfold inspectTarget Kernel.statAt
  exact ask _

theorem openSource_touches (source : CopySource) : Touches may (openSource s source) := by
  cases source with
  | staged content =>
    unfold openSource
    apply aside
    intro own a own' h
    cases h
    rfl
  | backup index =>
    unfold openSource
    apply aside
    intro own a own' h
    split at h
    · cases h
      rfl
    · cases h

theorem setFdOwnerMode_touches (d : Descriptor) (uid gid mode : Nat) :
    Touches may (setFdOwnerMode s d uid gid mode) :=
  (edit d _).bind fun _ => edit d _

theorem copyAndRename_touches (hparent : may parent) (source : CopySource) (temp name : Text)
    (uid gid mode : Nat) :
    Touches may (copyAndRename s source parent temp name uid gid mode) := by
  refine (openSource_touches source).bind fun content => ?_
  refine (ask _).bind fun _ => ?_
  refine (createNew hparent temp s.created).bind fun output => ?_
  refine (writeAll output content).bind fun _ => ?_
  refine (ask _).bind fun _ => ?_
  refine (setFdOwnerMode_touches output uid gid mode).bind fun _ => ?_
  refine (ask _).bind fun _ => ?_
  exact (rename hparent temp name).bind fun _ => ask _

theorem tempName_touches : Touches may (tempName s) :=
  fun _ _ _ hw => ⟨hw.own, hw.log⟩

section
variable (hparent : may parent)
include hparent

theorem atomicCopyAt_touches (source : CopySource) (name : Text) (uid gid mode : Nat) :
    Touches may (atomicCopyAt s source parent name uid gid mode) := by
  refine tempName_touches.bind fun temp => ?_
  apply (copyAndRename_touches hparent source temp name uid gid mode).tryCatch
  intro e
  exact (unlink hparent temp).outcome.bind fun _ => Keeps.throw e

theorem unlinkFileAt_touches (name : Text) : Touches may (unlinkFileAt s parent name) :=
  (unlink hparent name).bind fun _ => ask _

theorem mutateTarget_touches (staged : Nat → Text) (name : Text) (kind : PreparedKind) :
    Touches may (mutateTarget s staged parent name kind) := by
  cases kind with
  | file index sha256 => exact (atomicCopyAt_touches hparent _ name _ _ _).adaptExcept
  | delete => exact (unlinkFileAt_touches hparent name).adaptExcept

theorem restore_touches (name : Text) (backup : Backup) (current : Option Stat)
    (staged : Option Nat) : Touches may (restore s parent name backup current staged) := by
  cases staged with
  | some index =>
    exact (Keeps.ofExcept _).bind fun _ => atomicCopyAt_touches hparent _ name _ _ _
  | none =>
    cases current with
    | none => exact Keeps.pure ()
    | some stat =>
      show Touches may (if (regular stat).isSome then _ else _)
      split
      · exact unlinkFileAt_touches hparent name
      · exact Keeps.throw _

theorem rollbackChange_touches (backup : Backup) : Touches may (rollbackChange s backup parent) :=
  (Keeps.ofExcept _).bind fun _ =>
    (inspectTarget_touches parent _).bind fun current =>
      restore_touches hparent _ backup current backup.staged

end

theorem rollback_touches (pairs : List (Backup × Descriptor)) (h : ∀ pair ∈ pairs, may pair.2) :
    Touches may (rollback s pairs) := by
  induction pairs with
  | nil => exact Keeps.pure ()
  | cons pair rest ih =>
    refine (rollbackChange_touches (h pair mem_cons_self) pair.1).bind fun _ => ?_
    exact ih fun pair hpair => h pair (mem_cons_of_mem _ hpair)

/-! ### Programs that change no entry -/

theorem openRegularAt_touches (parent : Descriptor) (name : Text) (expected : Stat) :
    Touches may (openRegularAt s parent name expected) := by
  refine (openFile parent name).bind fun file => ?_
  refine (ask _).bind fun metadata => ?_
  refine (Keeps.ofExcept _).bind fun _ => ?_
  refine (ask _).bind fun identity => ?_
  exact (Keeps.ofExcept _).bind fun _ => Keeps.pure file

theorem copyOpenFileAndHash_touches (source : Descriptor) (index : Nat) :
    Touches may (copyOpenFileAndHash s source index) := by
  have hnew : Touches may (s.kernel.aside (newBackup index)) := by
    apply aside
    intro own a own' h
    unfold newBackup at h
    split at h
    · cases h
    · cases h
      rfl
  have hfill : ∀ content, Touches may (s.kernel.aside (fillBackup index content)) := by
    intro content
    apply aside
    intro own a own' h
    cases h
    rfl
  refine hnew.bind fun _ => (ask _).bind fun content => ?_
  exact (hfill content).bind fun _ => (ask _).bind fun _ => Keeps.pure _

theorem backUpTarget_touches (parent : Descriptor) (name : Text) (index : Nat)
    (change : PreparedChange) (metadata : Option Stat) :
    Touches may (backUpTarget s parent name index change metadata) := by
  cases metadata with
  | none => exact Keeps.pure none
  | some metadata =>
    refine (openRegularAt_touches parent name metadata).adaptExcept.bind fun source => ?_
    exact (copyOpenFileAndHash_touches source index).adaptExcept.bind fun _ => Keeps.pure _

theorem validateTargetAt_touches (parent : Descriptor) (name : Text) (backup : Backup) :
    Touches may (validateTargetAt s parent name backup) :=
  (inspectTarget_touches parent name).adaptExcept.bind fun _ => ofExcept _

theorem commitMetadata_touches : Touches may (commitMetadata s) := by
  apply Keeps.adaptExcept
  apply aside
  intro own a own' h
  cases h
  rfl

theorem prepareStagedFiles_touches (changes : List PreparedChange) :
    Touches may (prepareStagedFiles s changes) := by
  induction changes with
  | nil => exact Keeps.pure ()
  | cons change rest ih =>
    obtain ⟨path, kind⟩ := change
    cases kind with
    | file index sha256 =>
      have hfile : Touches may (prepareStagedFile s) :=
        (ask _).bind fun _ => (ask _).bind fun _ => (ask _).bind fun _ =>
          ask _
      exact hfile.bind fun _ => ih
    | delete => exact ih

/-! ### Opening along a path -/

/-- Since the log was `log`, the descriptor has been reached along the path. -/
def Arrives (may : Descriptor → Prop) (log : List (Event Text)) (own : List Descriptor)
    (parent : Descriptor) (path : List Text) (d : Descriptor) (w : Files) : Prop :=
  ∃ more, (∀ event ∈ more, event.Within may) ∧ Reached more parent path d ∧
    Since UpdateFiles.parents may (log ++ more) own w

variable {w : Files}

theorem Arrives.since {path : List Text} {d : Descriptor} (h : Arrives may log own parent path d w) :
    Since parents may log own w := by
  obtain ⟨more, hmore, -, hsince⟩ := h
  exact hsince.trans hmore

/-- The induction is on the components; the descriptor of the first is where
the others are opened from. -/
theorem openBeneath_arrives (components : List Text) :
    ∀ (log : List (Event Text)) (parent : Descriptor),
    Triple (Since parents may log own) (openBeneath s parent components)
      (fun d => Arrives may log own parent (components.map s.caseRule.fold) d)
      fun _ => Since parents may log own := by
  induction components with
  | nil =>
    intro log parent
    apply Triple.pure
    intro w hw
    exact ⟨[], by simp, .here parent, by simpa using hw⟩
  | cons component rest ih =>
    intro log parent
    refine (ofExcept _ log own).bind fun _ => ?_
    refine (openDirectory_since parent _).bind fun child => ?_
    refine ofExists fun more => ofExists fun fs => ?_
    refine given fun hmore => given fun hopened => ?_
    refine (ih (log ++ more) child).mono (fun _ hw => hw) ?_ fun _ _ hw => hw.trans hmore
    rintro d w ⟨later, hlater, hreached, hsince⟩
    refine ⟨more ++ later, ?_, ?_, by rwa [← append_assoc]⟩
    · intro event hevent
      obtain hevent | hevent := mem_append.mp hevent
      · exact hmore event hevent
      · exact hlater event hevent
    · exact .into (mem_append_left _ hopened.1) hopened.2.1 hopened.2.2
        (hreached.mono (subset_append_right _ _))

theorem openWorkspaceParent_arrives (log : List (Event Text)) (root : Descriptor)
    (relative : Text) :
    Triple (Since parents may log own) (openWorkspaceParent s root relative)
      (fun place => Arrives may log own root (parentKey s relative) place.1)
      fun _ => Since parents may log own := by
  refine (ofExcept _ log own).bind fun _ => ?_
  refine (ask _ log own).bind fun _ => ?_
  exact (openBeneath_arrives _ log root).bind fun d => Triple.pure fun _ hw => hw

theorem openWorkspaceParent_touches (root : Descriptor) (relative : Text) :
    Touches may (openWorkspaceParent s root relative) :=
  fun log _ => (openWorkspaceParent_arrives log root relative).onReturn fun _ _ hw => hw.since

theorem backUpChanges_touches (root : Descriptor) (changes : List PreparedChange) :
    ∀ index, Touches may (backUpChanges s root index changes) := by
  induction changes with
  | nil =>
    intro index
    exact Keeps.pure []
  | cons change rest ih =>
    intro index
    have hchange : Touches may (backUpChange s root index change) := by
      refine (openWorkspaceParent_touches root change.path).adaptExcept.bind fun place => ?_
      refine (inspectTarget_touches _ _).adaptExcept.bind fun metadata => ?_
      refine (Keeps.ofExcept _).bind fun _ => ?_
      exact (backUpTarget_touches _ _ index change metadata).bind fun _ => Keeps.pure _
    exact hchange.bind fun _ => (ih (index + 1)).bind fun _ => Keeps.pure _

theorem backUpChanges_length (root : Descriptor) (changes : List PreparedChange) :
    ∀ index, Triple (fun _ => True) (backUpChanges s root index changes)
      (fun backups _ => backups.length = changes.length) fun _ _ => True := by
  induction changes with
  | nil =>
    intro index
    exact Triple.pure fun _ _ => rfl
  | cons change rest ih =>
    intro index
    refine any.bind fun backup => (ih (index + 1)).bind fun backups => ?_
    exact Triple.pure fun _ hlength => congrArg (· + 1) hlength

/-! ### The directories that are held -/

/-- The changes in `done` have their directories in `mutation_parents`, and
nothing else has been changed. -/
structure Confined (s : ApplyContext) (root : Descriptor) (done : List PreparedChange)
    (w : Files) : Prop where
  reached : List.Forall₂ (fun change held => Reached w.log root (parentKey s change.path) held)
    done w.own.parents
  within : ∀ {dir name}, Event.mutated dir name ∈ w.log → dir ∈ w.own.parents

variable {done : List PreparedChange}

variable {w' : Files}

theorem Confined.since (h : Confined s root done w)
    (hsince : Since parents (· ∈ w.own.parents) w.log w.own.parents w') :
    Confined s root done w' := by
  obtain ⟨more, hlog, hmore⟩ := hsince.log
  constructor
  · rw [hsince.own]
    refine h.reached.imp fun change held hreached => hreached.mono ?_
    rw [hlog]
    exact subset_append_left _ _
  · intro dir name hmutated
    rw [hsince.own]
    rw [hlog, mem_append] at hmutated
    obtain hmutated | hmutated := hmutated
    · exact h.within hmutated
    · exact hmore _ hmutated

variable {ε α : Type} {x : EStateM ε Files α}

theorem Touches.confined {p : List Descriptor → Prop}
    (hx : ∀ parents, p parents → Touches (· ∈ parents) x) :
    Triple (fun w => Confined s root done w ∧ p w.own.parents) x (fun _ => Confined s root done)
      fun _ => Confined s root done := by
  intro w hw
  have hends := hx w.own.parents hw.2 w.log w.own.parents w (Since.refl _ _ w)
  exact hends.mono (fun _ _ hsince => hw.1.since hsince) fun _ _ hsince => hw.1.since hsince

theorem Touches.unconfined (hx : ∀ may, Touches may x) :
    Triple (Confined s root done) x (fun _ => Confined s root done) fun _ => Confined s root done :=
  (Touches.confined (p := fun _ => True) fun _ _ => hx _).onEntry fun _ hw => ⟨hw, trivial⟩

theorem openWorkspaceParent_confined (relative : Text) :
    Triple (Confined s root done) (openWorkspaceParent s root relative)
      (fun place w => Confined s root done w ∧ Reached w.log root (parentKey s relative) place.1)
      fun _ => Confined s root done := by
  intro w hw
  have hsince := Since.refl parents (· ∈ w.own.parents) w
  have hends := openWorkspaceParent_arrives (s := s) w.log root relative w hsince
  refine hends.mono (fun place w' harrives => ⟨hw.since harrives.since, ?_⟩) fun _ _ hsince =>
    hw.since hsince
  obtain ⟨more, -, hreached, hsince⟩ := harrives
  obtain ⟨later, hlog, -⟩ := hsince.log
  apply hreached.mono
  rw [hlog, append_assoc]
  exact List.Subset.trans (subset_append_left more later) (subset_append_right _ _)

theorem validateTargetAt_confined (change : PreparedChange) (place : Descriptor × Text)
    (backup : Backup) :
    Triple (fun w => Confined s root done w ∧ Reached w.log root (parentKey s change.path) place.1)
      (validateTargetAt s place.1 place.2 backup)
      (fun _ w => Confined s root (done ++ [change]) (w.withOwn
        { w.own with parents := w.own.parents ++ [place.1] }))
      fun _ => Confined s root done := by
  intro w hw
  have hsince := Since.refl parents (· ∈ w.own.parents) w
  have hends := validateTargetAt_touches (s := s) place.1 place.2 backup _ _ w hsince
  refine hends.mono (fun _ w' hsince => ?_) fun _ _ hsince => hw.1.since hsince
  have hkept := hw.1.since hsince
  obtain ⟨more, hlog, -⟩ := hsince.log
  constructor
  · apply rel_append hkept.reached
    refine .cons (hw.2.mono ?_) .nil
    rw [hlog]
    exact subset_append_left _ _
  · intro dir name hmutated
    exact mem_append_left _ (hkept.within hmutated)

theorem mutateChange_confined (staged : Nat → Text) (change : PreparedChange) (backup : Backup) :
    Triple (Confined s root done) (mutateChange s staged root change backup)
      (fun _ => Confined s root (done ++ [change]))
      fun _ w => Confined s root done w ∨ Confined s root (done ++ [change]) w := by
  refine ((Touches.unconfined fun _ => checkCancelled_touches).onError fun _ _ => .inl).bind
    fun _ => ?_
  refine (adaptExcept ((openWorkspaceParent_confined change.path).onError
    fun _ _ => .inl)).bind fun place => ?_
  refine ((validateTargetAt_confined change place backup).onError fun _ _ => .inl).bind fun _ => ?_
  refine Triple.bind (Q := fun _ w => Confined s root (done ++ [change]) w ∧
    place.1 ∈ w.own.parents) (Triple.modify fun w hw => ⟨hw, by simp⟩) fun _ => ?_
  exact (Touches.confined (p := fun parents => place.1 ∈ parents) fun parents hparent =>
    mutateTarget_touches hparent staged place.2 change.kind).onError fun _ _ => .inr

theorem mutateChanges_confined (staged : Nat → Text) (pairs : List (PreparedChange × Backup)) :
    ∀ done, Triple (Confined s root done) (mutateChanges s staged root pairs)
      (fun _ => Confined s root (done ++ pairs.map Prod.fst))
      fun _ w => ∃ more, more <+: pairs.map Prod.fst ∧ Confined s root (done ++ more) w := by
  induction pairs with
  | nil =>
    intro done
    exact Triple.pure fun w hw => by simpa using hw
  | cons pair rest ih =>
    intro done
    refine Triple.bind ((mutateChange_confined staged pair.1 pair.2).onError ?_) fun _ => ?_
    · rintro e w (hw | hw)
      · exact ⟨[], nil_prefix, by simpa using hw⟩
      · exact ⟨[pair.1], by simp, hw⟩
    · refine (ih (done ++ [pair.1])).mono (fun _ hw => hw) (fun _ w hw => by simpa using hw) ?_
      rintro e w ⟨more, hmore, hw⟩
      exact ⟨pair.1 :: more, by simpa using hmore, by simpa using hw⟩

/-! ### The second look -/

theorem fstat_since (d : Descriptor) : Triple (Since parents may log own) (s.kernel.fstat d)
      (fun stat w => stat.ino = d.ino ∧ Since parents may log own w)
      fun _ => Since parents may log own := by
  refine (ask_since _).onReturn fun stat w hw => ?_
  obtain ⟨⟨fs, hquery⟩, hsince⟩ := hw
  refine ⟨?_, hsince⟩
  cases hshape : fs.shape d.ino with
  | none =>
    rw [hshape] at hquery
    cases hquery
  | some shape =>
    rw [hshape] at hquery
    cases hquery
    rfl

/-- Nothing is changed any more. -/
def Still : Descriptor → Prop := fun _ => False

/-- The directory is at its path. -/
def FoundAgain (s : ApplyContext) (root : Descriptor) (log : List (Event Text))
    (change : PreparedChange) (held : Descriptor) : Prop :=
  ∃ now, Reached log root (parentKey s change.path) now ∧ now.ino = held.ino

theorem verifyParentStillBeneath_found (change : PreparedChange) (held : Descriptor) :
    Triple (Since parents Still log own) (verifyParentStillBeneath s root change.path held)
      (fun _ w => ∃ more, (∀ event ∈ more, event.Within Still) ∧
        FoundAgain s root more change held ∧ Since parents Still (log ++ more) own w)
      fun _ => Since parents Still log own := by
  refine (openWorkspaceParent_arrives log root change.path).adapt.bind fun current => ?_
  refine ofExists fun more => given fun hmore => given fun hreached => ?_
  refine ((fstat_since held).adapt.onError fun _ _ hw => hw.trans hmore).bind
    fun heldStat => given fun hheld => ?_
  refine ((fstat_since current.1).adapt.onError fun _ _ hw => hw.trans hmore).bind
    fun currentStat => given fun hcurrent => ?_
  refine ofExcept (fun _ w hok hw => ?_) fun _ w _ hw => hw.trans hmore
  refine ⟨more, hmore, ⟨current.1, hreached, ?_⟩, hw⟩
  rw [refuse_eq_ok, not_not] at hok
  rw [← hcurrent, ← hok, hheld]

theorem verifyParents_found (pairs : List (PreparedChange × Descriptor)) :
    ∀ log, Triple (Since parents Still log own) (verifyParents s root pairs)
      (fun _ w => ∃ more, (∀ event ∈ more, event.Within Still) ∧
        (∀ pair ∈ pairs, FoundAgain s root more pair.1 pair.2) ∧
        Since parents Still (log ++ more) own w)
      fun _ => Since parents Still log own := by
  induction pairs with
  | nil =>
    intro log
    exact Triple.pure fun w hw => ⟨[], by simp, by simp, by simpa using hw⟩
  | cons pair rest ih =>
    intro log
    refine (verifyParentStillBeneath_found pair.1 pair.2).bind fun _ => ?_
    refine ofExists fun more => given fun hmore => given fun hfound => ?_
    refine (ih (log ++ more)).mono (fun _ hw => hw) ?_ fun _ _ hw => hw.trans hmore
    rintro _ w ⟨later, hlater, hrest, hsince⟩
    refine ⟨more ++ later, ?_, ?_, by rwa [← append_assoc]⟩
    · intro event hevent
      obtain hevent | hevent := mem_append.mp hevent
      · exact hmore event hevent
      · exact hlater event hevent
    · intro other hother
      obtain rfl | hother := mem_cons.mp hother
      · obtain ⟨now, hreached, hino⟩ := hfound
        exact ⟨now, hreached.mono (subset_append_left _ _), hino⟩
      · obtain ⟨now, hreached, hino⟩ := hrest other hother
        exact ⟨now, hreached.mono (subset_append_right _ _), hino⟩

/-- After the last change every held directory was found at its path again. -/
structure Verified (s : ApplyContext) (root : Descriptor) (changes : List PreparedChange)
    (before after : List (Event Text)) (w : Files) : Prop where
  log : w.log = before ++ after
  still : ∀ {dir name}, Event.mutated dir name ∉ after
  within : ∀ {dir name}, Event.mutated dir name ∈ before → dir ∈ w.own.parents
  found : List.Forall₂ (fun change held => Reached before root (parentKey s change.path) held ∧
    FoundAgain s root after change held) changes w.own.parents

theorem not_mutated_of_still {events : List (Event Text)}
    (h : ∀ event ∈ events, event.Within Still) {dir : Descriptor} {name : Text} :
    Event.mutated dir name ∉ events :=
  fun hmem => h _ hmem

variable {changes : List PreparedChange} {before : List (Event Text)}

theorem Verified.since {after : List (Event Text)} (h : Verified s root changes before after w)
    (hsince : Since parents Still w.log w.own.parents w') :
    ∃ after, Verified s root changes before after w' := by
  obtain ⟨more, hlog, hmore⟩ := hsince.log
  refine ⟨after ++ more, ?_, ?_, ?_, ?_⟩
  · rw [hlog, h.log, append_assoc]
  · intro dir name hmem
    obtain hmem | hmem := mem_append.mp hmem
    · exact h.still hmem
    · exact not_mutated_of_still hmore hmem
  · intro dir name hmem
    rw [hsince.own]
    exact h.within hmem
  · rw [hsince.own]
    refine h.found.imp fun change held hfound => ⟨hfound.1, ?_⟩
    obtain ⟨now, hreached, hino⟩ := hfound.2
    exact ⟨now, hreached.mono (subset_append_left _ _), hino⟩

theorem Verified.confined {after : List (Event Text)} (h : Verified s root changes before after w) :
    Confined s root changes w := by
  constructor
  · refine h.found.imp fun change held hfound => hfound.1.mono ?_
    rw [h.log]
    exact subset_append_left _ _
  · intro dir name hmem
    rw [h.log, mem_append] at hmem
    exact h.within (hmem.resolve_right h.still)

theorem Touches.verified {x : EStateM UpdateError Files Unit} (hx : Touches Still x) :
    Triple (fun w => ∃ before after, Verified s root changes before after w) x
      (fun _ w => ∃ before after, Verified s root changes before after w)
      fun _ => Confined s root changes := by
  rintro w ⟨before, after, hw⟩
  have hends := hx w.log w.own.parents w (Since.refl _ _ w)
  refine hends.mono (fun _ w' hsince => ⟨before, hw.since hsince⟩) fun _ w' hsince => ?_
  obtain ⟨after', hw'⟩ := hw.since hsince
  exact hw'.confined

theorem verifyParents_verified (parents : List Descriptor) :
    Triple (fun w => parents = w.own.parents ∧ Confined s root changes w)
      (verifyParents s root (changes.zip parents))
      (fun _ w => ∃ before after, Verified s root changes before after w)
      fun _ => Confined s root changes := by
  rintro w ⟨rfl, hw⟩
  have hends : Ends _ _ ((verifyParents s root (changes.zip w.own.parents)).run w) :=
    verifyParents_found _ w.log w (Since.refl parents Still w)
  refine hends.mono (fun _ w' hfound => ?_) fun _ w' hsince => ?_
  · obtain ⟨more, hmore, hpairs, hsince⟩ := hfound
    refine ⟨w.log, ?_⟩
    obtain ⟨later, hlog, hlater⟩ := hsince.log
    refine ⟨more ++ later, ?_, ?_, ?_, ?_⟩
    · rw [hlog, append_assoc]
    · intro dir name hmem
      obtain hmem | hmem := mem_append.mp hmem
      · exact not_mutated_of_still hmore hmem
      · exact not_mutated_of_still hlater hmem
    · intro dir name hmem
      rw [hsince.own]
      exact hw.within hmem
    · rw [hsince.own]
      obtain ⟨hlength, hreached⟩ := forall₂_iff_zip.mp hw.reached
      refine forall₂_iff_zip.mpr ⟨hlength, fun {change held} hmem => ⟨hreached hmem, ?_⟩⟩
      obtain ⟨now, hnow, hino⟩ := hpairs _ hmem
      exact ⟨now, hnow.mono (subset_append_left _ _), hino⟩
  · refine hw.since ⟨hsince.own, ?_⟩
    obtain ⟨more, hlog, hmore⟩ := hsince.log
    refine ⟨more, hlog, fun event hevent => ?_⟩
    cases event with
    | opened parent name child fs => trivial
    | mutated dir name => exact absurd hevent (not_mutated_of_still hmore)

/-! ### The whole call -/

def Begun (s : ApplyContext) (root : Descriptor) (changes : List PreparedChange)
    (w : Files) : Prop :=
  ∃ done, done <+: changes ∧ Confined s root done w

theorem mutation_confined (staged : Nat → Text) {backups : List Backup}
    (hlength : backups.length = changes.length) :
    Triple (Confined s root []) (mutation s staged root changes backups)
      (fun _ w => ∃ before after, Verified s root changes before after w)
      fun _ => Begun s root changes := by
  have hfirst : (changes.zip backups).map Prod.fst = changes :=
    map_fst_zip hlength.ge
  have hall : ∀ w, Confined s root changes w → Begun s root changes w :=
    fun w hw => ⟨changes, prefix_rfl, hw⟩
  have hchanges : Triple (Confined s root []) (mutateChanges s staged root (changes.zip backups))
      (fun _ => Confined s root changes) fun _ => Begun s root changes := by
    refine (mutateChanges_confined staged _ []).mono (fun _ hw => hw) (fun _ w hw => ?_)
      fun _ w hw => ?_
    · simpa [hfirst] using hw
    · obtain ⟨more, hmore, hw⟩ := hw
      exact ⟨more, hfirst ▸ hmore, by simpa using hw⟩
  refine hchanges.bind fun _ => ?_
  refine Triple.bind (Q := fun parents w => parents = w.own.parents ∧ Confined s root changes w)
    (fun w hw => ⟨rfl, hw⟩) fun parents => ?_
  refine ((verifyParents_verified parents).onError fun _ => hall).bind fun _ => ?_
  refine ((Touches.verified checkCancelled_touches).onError fun _ => hall).bind fun _ => ?_
  exact (Touches.verified commitMetadata_touches).onError fun _ => hall

theorem undo_confined (backups : List Backup) (changes : List PreparedChange) (err : UpdateError)
    {Q : Unit → Files → Prop} :
    Triple (Begun s root changes) (undo s backups err) Q fun _ => Begun s root changes := by
  refine ofExists fun done => given fun hdone => ?_
  refine Triple.bind (Q := fun parents w => Confined s root done w ∧ parents = w.own.parents)
    (fun w hw => ⟨hw, rfl⟩) fun parents => ?_
  have hrollback : ∀ held, parents = held → Touches (· ∈ held)
      (outcome (rollback s ((backups.take parents.length).zip parents).reverse) :
        EStateM UpdateError Files _) := by
    rintro held rfl
    apply Keeps.outcome
    apply rollback_touches
    intro pair hpair
    exact (of_mem_zip (mem_reverse.mp hpair)).2
  refine Triple.bind ((Touches.confined hrollback).onError fun _ w hw => ⟨done, hdone, hw⟩)
    fun result => ?_
  exact Triple.throw fun w hw => ⟨done, hdone, hw⟩

theorem openWorkspaceRoot_since : Triple (Since parents Still [] []) (openWorkspaceRoot s)
      (fun root w => root.ino = s.workspace ∧ Since parents Still [] [] w)
      fun _ => Since parents Still [] [] := by
  apply Kernel.call_triple
  · intro w hw
    exact hw.advance _ (by simp)
  · intro w root fs events hw heffect
    split at heffect
    · cases heffect
      have hsince := hw.advance (s.kernel.interfere w) (by simp : ∀ event ∈ [], _)
      exact ⟨⟨rfl, hsince⟩, hsince⟩
    · cases heffect

theorem confined_of_since (h : Since parents Still [] [] w) (root : Descriptor) :
    Confined s root [] w := by
  obtain ⟨more, hlog, hmore⟩ := h.log
  constructor
  · rw [h.own]
    exact .nil
  · intro dir name hmem
    rw [hlog, nil_append] at hmem
    exact absurd hmem (not_mutated_of_still hmore)

/-- Every entry that was changed is in a directory that was reached along the
path of a declared change. -/
def StaysBeneath (s : ApplyContext) (root : Descriptor) (changes : List PreparedChange)
    (w : Files) : Prop :=
  ∀ dir name, Event.mutated dir name ∈ w.log →
    ∃ change ∈ changes, Reached w.log root (parentKey s change.path) dir

theorem Begun.staysBeneath (h : Begun s root changes w) : StaysBeneath s root changes w := by
  obtain ⟨done, hdone, hw⟩ := h
  intro dir name hmutated
  obtain ⟨change, hchange, hreached⟩ :=
    forall₂_exists_left hw.reached (hw.within hmutated)
  exact ⟨change, hdone.subset hchange, hreached⟩

theorem applyUpdate_triple (prepared : PreparedUpdate s.digest) :
    Triple (Since parents Still [] []) (applyUpdate s prepared)
      (fun _ w => ∃ root : Descriptor, root.ino = s.workspace ∧
        StaysBeneath s root prepared.changes w ∧
        ∃ before after, Verified s root prepared.changes before after w)
      fun _ w => ∃ root : Descriptor, root.ino = s.workspace ∧
        StaysBeneath s root prepared.changes w := by
  -- before the first change there is nothing to confine
  have hquiet : ∀ (e : UpdateError) w, Since parents Still [] [] w →
      ∃ root : Descriptor, root.ino = s.workspace ∧ StaysBeneath s root prepared.changes w := by
    intro e w hw
    exact ⟨⟨0, s.workspace⟩, rfl, Begun.staysBeneath ⟨[], nil_prefix, confined_of_since hw _⟩⟩
  refine ((checkCancelled_touches [] []).onError hquiet).bind fun _ => ?_
  refine (openWorkspaceRoot_since.adapt.onError hquiet).bind fun root => given fun hroot => ?_
  have hcreate : Touches Still (createBackups s) := (ask _).bind fun _ => ask _
  refine ((hcreate [] []).adapt.onError hquiet).bind fun _ => ?_
  refine ((prepareStagedFiles_touches prepared.changes [] []).adapt.onError hquiet).bind fun _ => ?_
  have hbackUp : Triple (Since parents Still [] []) (backUpChanges s root 0 prepared.changes)
      (fun backups w => backups.length = prepared.changes.length ∧ Since parents Still [] [] w)
      fun _ => Since parents Still [] [] :=
    (((backUpChanges_length root prepared.changes 0).onEntry fun _ _ => trivial).and (backUpChanges_touches root prepared.changes 0 [] [])).onError
      fun _ _ h => h.2
  refine (hbackUp.onError hquiet).bind fun backups => given fun hlength => ?_
  have hmutation : Triple (Confined s root [])
      (tryCatch (mutation s prepared.staged root prepared.changes backups) (undo s backups))
      (fun _ w => ∃ before after, Verified s root prepared.changes before after w)
      fun _ => Begun s root prepared.changes :=
    (mutation_confined prepared.staged hlength).tryCatch fun err =>
      undo_confined backups prepared.changes err
  refine (hmutation.mono (fun w hw => confined_of_since hw root) (fun _ _ hw => hw)
    fun _ w hw => ⟨root, hroot, hw.staysBeneath⟩).bind fun _ => ?_
  refine ofExcept (fun _ w _ hw => ?_) fun _ w _ hw => ?_
  · obtain ⟨before, after, hw⟩ := hw
    exact ⟨root, hroot, Begun.staysBeneath ⟨_, prefix_rfl, hw.confined⟩, before, after, hw⟩
  · obtain ⟨before, after, hw⟩ := hw
    exact ⟨root, hroot, Begun.staysBeneath ⟨_, prefix_rfl, hw.confined⟩⟩

end

/-- Whatever others do to the workspace between two calls and whatever fails,
the entries that an update makes, replaces and removes are in directories that
were reached from the root of the workspace, name by name and through
directories, along the path of a declared change. When the update succeeds,
each of these directories was found again in this way after the last change. -/
theorem update_stays_beneath (s : ApplyContext) (prepared : PreparedUpdate s.digest)
    (fs : Fs Text) :
    (∃ found w, applyUpdate s prepared (start fs) = .ok found w ∧
      ∃ root : Descriptor, root.ino = s.workspace ∧ StaysBeneath s root prepared.changes w ∧
        ∃ before after, Verified s root prepared.changes before after w) ∨
    ∃ e w, applyUpdate s prepared (start fs) = .error e w ∧
      ∃ root : Descriptor, root.ino = s.workspace ∧ StaysBeneath s root prepared.changes w :=
  (applyUpdate_triple prepared).run_cases (Since.refl UpdateFiles.parents Still (start fs))

end IndenturedServer.SourceUpdates
