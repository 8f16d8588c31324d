import IndenturedServer.Foundation.Undisturbed
import IndenturedServer.SourceUpdates.Apply

/-!
What the steps of an update do to an undisturbed workspace.

While nobody else changes the workspace, opening a path finds the directory
that is there, a backup holds what the target held, and replacing or removing
a target changes what its path leads to. `atomic_copy_at` may leave a file
with a temporary name behind when its own cleaning up fails; nothing else is
touched.
-/

namespace IndenturedServer.SourceUpdates

open Foundation Source Triple Function

theorem pathKey_eq (s : ApplyContext) (relative : Text) :
    pathKey s relative = parentKey s relative ++ [s.caseRule.fold (finalName relative)] := by
  have hne : relative.splitOn slash ≠ [] := List.splitOn_ne_nil slash relative
  have hsplit : parentParts relative ++ [finalName relative] = relative.splitOn slash := by
    rw [parentParts, finalName, List.getLastD_eq_getLast?, List.getLast?_eq_some_getLast hne]
    exact List.dropLast_append_getLast hne
  rw [pathKey, ← hsplit, List.map_append]
  rfl

section
variable {s : ApplyContext} {view : View Text} {since : Nat} {own : UpdateFiles}

/-- Seen from the root of the workspace. -/
abbrev Shown (s : ApplyContext) (view : View Text) (since : Nat) (own : UpdateFiles) : Files → Prop :=
  Sees s.workspace view since own

theorem Sees.root {w : Files} (h : Shown s view since own w) : view [] = some (s.workspace, .dir) :=
  h.look ▸ h.sound.look_root

theorem checkCancelled_shown :
    Triple (Shown s view since own) (checkCancelled s) (fun _ => Shown s view since own)
      fun _ => Shown s view since own := by
  intro w hw
  show Ends _ _ (checkCancelled s w)
  have hlater : Shown s view since own { w with clock := w.clock + 1 } :=
    ⟨hw.sound, hw.look, Nat.le_succ_of_le hw.clock, hw.own⟩
  unfold checkCancelled
  split
  · exact hlater
  · exact hlater

/-! ### Opening and inspecting -/

variable {parent : Descriptor}

section
variable (hquiet : s.kernel.Quiet s.workspace)

include hquiet

/-- The induction is on the components, behind the directories that have been
opened. -/
theorem openBeneath_shown (components : List Text) :
    ∀ {parent : Descriptor} {path : List Text}, view path = some (parent.ino, .dir) →
    Triple (Shown s view since own) (openBeneath s parent components)
      (fun d w => view (path ++ components.map s.caseRule.fold) = some (d.ino, .dir) ∧
        Shown s view since own w)
      fun _ => Shown s view since own := by
  induction components with
  | nil =>
    intro parent path hparent
    exact Triple.pure fun w hw => ⟨by simpa using hparent, hw⟩
  | cons component rest ih =>
    intro parent path hparent
    refine Triple.bind (ofExcept (fun _ _ _ hw => hw) fun _ _ _ hw => hw) fun _ => ?_
    refine (openDirectory_sees hquiet hparent _).bind fun child => given fun hchild => ?_
    refine (ih hchild).onReturn fun d w hw => ?_
    rw [List.append_assoc, List.singleton_append] at hw
    exact hw

theorem openWorkspaceParent_shown {root : Descriptor} (hroot : root.ino = s.workspace)
    (relative : Text) :
    Triple (Shown s view since own) (openWorkspaceParent s root relative)
      (fun place w => (view (parentKey s relative) = some (place.1.ino, .dir) ∧
          place.2 = s.caseRule.fold (finalName relative)) ∧ Shown s view since own w)
      fun _ => Shown s view since own := by
  refine Triple.bind (ofExcept (fun _ _ _ hw => hw) fun _ _ _ hw => hw) fun _ => ?_
  refine (touch_sees hquiet).bind fun _ w hw => ?_
  have hstart : view [] = some (root.ino, .dir) := hroot ▸ Sees.root hw
  refine ((openBeneath_shown hquiet _ hstart).bind fun d => ?_) w hw
  exact Triple.pure fun w hw => ⟨⟨hw.1, rfl⟩, hw.2⟩

theorem inspectTarget_shown {relative : Text}
    (hparent : view (parentKey s relative) = some (parent.ino, .dir)) :
    Triple (Shown s view since own) (inspectTarget s parent (s.caseRule.fold (finalName relative)))
      (fun stat w => stat = (view (pathKey s relative)).map
          (fun found => ⟨found.1, found.2.kind⟩) ∧ Shown s view since own w)
      fun _ => Shown s view since own := by
  rw [pathKey_eq]
  exact statAt_sees hquiet hparent _

end

/-! ### Replacing and removing -/

/-- The names of temporary files that are still to come are free. -/
def Fresh (s : ApplyContext) (since : Nat) (view : View Text) : Prop :=
  ∀ dir n, since ≤ n → view (dir ++ [s.temp n]) = none

/-- Apart from one path, only names of temporary files have been used. -/
structure Next (s : ApplyContext) (path : List Text) (result : Option (Ino × Shape) → Prop)
    (view : View Text) (since : Nat) (view' : View Text) : Prop where
  others : ∀ other, other ≠ path → view' other = view other ∨
    view other = none ∧ ∃ dir n, other = dir ++ [s.temp n]
  here : result (view' path)
  fresh : Fresh s since view'

/-- The state of the workspace after such a change. -/
def After (s : ApplyContext) (path : List Text) (result : Option (Ino × Shape) → Prop)
    (view : View Text) (own : UpdateFiles) (w : Files) : Prop :=
  ∃ view' since, Next s path result view since view' ∧ Shown s view' since own w

def IsFile (content : Text) (uid gid mode : Nat) (found : Option (Ino × Shape)) : Prop :=
  ∃ ino, found = some (ino, .file ⟨content, ⟨uid, gid, mode⟩⟩)

theorem Next.mono {path : List Text} {result result' : Option (Ino × Shape) → Prop}
    {view' : View Text} (h : Next s path result view since view')
    (hresult : ∀ found, result found → result' found) : Next s path result' view since view' :=
  ⟨h.others, hresult _ h.here, h.fresh⟩

theorem Next.refl (hfresh : Fresh s since view) (path : List Text) :
    Next s path (· = view path) view since view :=
  ⟨fun _ _ => .inl rfl, rfl, hfresh⟩

theorem Next.update (hfresh : Fresh s since view) {path : List Text}
    (hname : ∀ dir n, path ≠ dir ++ [s.temp n]) (found : Option (Ino × Shape)) :
    Next s path (· = found) view since (update view path found) := by
  refine ⟨fun other hother => .inl (update_of_ne hother _ _), update_self .., ?_⟩
  intro dir n hn
  rw [update_of_ne (hname dir n).symm]
  exact hfresh dir n hn

/-- What a copy is made from. -/
def Provides (own : UpdateFiles) (content : Text) : CopySource → Prop
  | .staged staged => staged = content
  | .backup index => own.backups index = some content

/-- The temporary file may be there, and the target may have been replaced. -/
structure Torn (view : View Text) (path temp : List Text) (replaced : Option (Ino × Shape) → Prop)
    (view' : View Text) : Prop where
  others : ∀ other, other ≠ path → other ≠ temp → view' other = view other
  here : view' path = view path ∨ replaced (view' path)

theorem Torn.refl (view : View Text) (path temp : List Text)
    (replaced : Option (Ino × Shape) → Prop) : Torn view path temp replaced view :=
  ⟨fun _ _ _ => rfl, .inl rfl⟩

theorem Torn.update {view' : View Text} {path temp : List Text}
    {replaced : Option (Ino × Shape) → Prop} (h : Torn view path temp replaced view')
    (hne : path ≠ temp) (found : Option (Ino × Shape)) :
    Torn view path temp replaced (update view' temp found) := by
  constructor
  · intro other hpath htemp
    rw [update_of_ne htemp]
    exact h.others other hpath htemp
  · rw [update_of_ne hne]
    exact h.here

variable {source : CopySource}

section
variable (hquiet : s.kernel.Quiet s.workspace)

include hquiet

theorem openSource_shown {content : Text} (hsource : Provides own content source) :
    Triple (Shown s view since own) (openSource s source)
      (fun found w => found = content ∧ Shown s view since own w)
      fun _ => Shown s view since own := by
  -- the files of the server stay as they are
  have haside : ∀ effect : UpdateFiles → Except Errno (Text × UpdateFiles),
      (∀ found own', effect own = .ok (found, own') → found = content ∧ own' = own) →
      Triple (Shown s view since own) (s.kernel.aside effect)
        (fun found w => found = content ∧ Shown s view since own w)
        fun _ => Shown s view since own := by
    intro effect heffect
    refine (aside_sees hquiet effect).mono (fun _ hw => hw) ?_ ?_
    · rintro found w ⟨own', hok, hw⟩
      obtain ⟨hfound, rfl⟩ := heffect _ _ hok
      exact ⟨hfound, hw⟩
    · rintro e w ⟨own', rfl | ⟨found, hok⟩, hw⟩
      · exact hw
      · obtain ⟨-, rfl⟩ := heffect _ _ hok
        exact hw
  cases source with
  | staged staged =>
    unfold openSource
    apply haside
    intro found own' hok
    cases hok
    exact ⟨hsource, rfl⟩
  | backup index =>
    unfold openSource
    apply haside
    intro found own' hok
    have hbackup : own.backups index = some content := hsource
    rw [hbackup] at hok
    cases hok
    exact ⟨rfl, rfl⟩

end

/-! ### The temporary file -/

/-- Apart from a new file nothing has changed, and the file has one path. -/
structure Drafted (view : View Text) (temp : List Text) (ino : Ino) (data : FileData)
    (view' : View Text) : Prop where
  eq : view' = Function.update view temp (some (ino, .file data))
  alone : Alone view' temp ino

section
variable {temp : List Text} {ino : Ino} {data : FileData} {view' : View Text}

section
variable (h : Drafted view temp ino data view')
include h

theorem Drafted.here : view' temp = some (ino, .file data) := by
  rw [h.eq, update_self]

theorem Drafted.edit (data' : FileData) :
    Drafted view temp ino data' (update view' temp (some (ino, .file data'))) := by
  constructor
  · rw [h.eq, update_idem]
  · intro other shape hother
    by_contra hne
    rw [update_of_ne hne] at hother
    exact hne (h.alone other shape hother)

theorem Drafted.torn {path : List Text} (hne : path ≠ temp) (replaced : Option (Ino × Shape) → Prop) :
    Torn view path temp replaced view' := by
  rw [h.eq]
  exact (Torn.refl _ _ _ _).update hne _

end

def Draft (s : ApplyContext) (view : View Text) (temp : List Text) (ino : Ino) (since : Nat)
    (own : UpdateFiles) (data : FileData) (w : Files) : Prop :=
  ∃ view', Drafted view temp ino data view' ∧ Shown s view' since own w

end

section
variable (hquiet : s.kernel.Quiet s.workspace) {temp : List Text} {output : Descriptor}
  {data : FileData}

include hquiet

theorem touch_draft : Triple (Draft s view temp output.ino since own data) s.kernel.touch
      (fun _ => Draft s view temp output.ino since own data)
      fun _ w => ∃ data', Draft s view temp output.ino since own data' w := by
  refine ofExists fun view' => given fun hdraft => ?_
  refine (touch_sees hquiet).mono (fun _ hw => hw) (fun _ w hw => ?_) fun _ w hw => ?_
  · exact ⟨view', hdraft, hw⟩
  · exact ⟨data, view', hdraft, hw⟩

theorem edit_draft (f : FileData → FileData) :
    Triple (Draft s view temp output.ino since own data) (s.kernel.edit output f)
      (fun _ => Draft s view temp output.ino since own (f data))
      fun _ w => ∃ data', Draft s view temp output.ino since own data' w := by
  refine ofExists fun view' => given fun hdraft => ?_
  refine (edit_sees hquiet hdraft.here hdraft.alone f).mono (fun _ hw => hw) ?_ ?_
  · rintro _ w ⟨_, rfl, hw⟩
    exact ⟨_, hdraft.edit _, hw⟩
  · rintro _ w ⟨_, ⟨data', rfl⟩, hw⟩
    exact ⟨data', _, hdraft.edit _, hw⟩

theorem writeAll_draft (bytes : Text) :
    Triple (Draft s view temp output.ino since own data) (s.kernel.writeAll output bytes)
      (fun _ => Draft s view temp output.ino since own (data.append bytes))
      fun _ w => ∃ data', Draft s view temp output.ino since own data' w := by
  refine ofExists fun view' => given fun hdraft => ?_
  refine (writeAll_sees hquiet hdraft.here hdraft.alone bytes).mono (fun _ hw => hw) ?_ ?_
  · rintro _ w ⟨_, rfl, hw⟩
    exact ⟨_, hdraft.edit _, hw⟩
  · rintro _ w ⟨_, ⟨data', rfl⟩, hw⟩
    exact ⟨data', _, hdraft.edit _, hw⟩

theorem setFdOwnerMode_draft (uid gid mode : Nat) :
    Triple (Draft s view temp output.ino since own data) (setFdOwnerMode s output uid gid mode)
      (fun _ => Draft s view temp output.ino since own ⟨data.content, ⟨uid, gid, mode⟩⟩)
      fun _ w => ∃ data', Draft s view temp output.ino since own data' w :=
  (edit_draft hquiet (.chown uid gid)).bind fun _ => edit_draft hquiet (.chmod mode)

theorem rename_draft {path : List Text} (hparent : view path = some (parent.ino, .dir))
    {temp name : Text} (hne : temp ≠ name) (hfree : view (path ++ [temp]) = none)
    (htarget : ∀ ino, view (path ++ [name]) ≠ some (ino, .dir)) :
    Triple (Draft s view (path ++ [temp]) output.ino since own data)
      (s.kernel.rename parent temp name)
      (fun _ => Shown s (update view (path ++ [name]) (some (output.ino, .file data))) since own)
      fun _ w => Draft s view (path ++ [temp]) output.ino since own data w ∨
        Shown s (update view (path ++ [name]) (some (output.ino, .file data))) since own w := by
  have hpaths : path ++ [temp] ≠ path ++ [name] := by simpa using hne
  refine ofExists fun view' => given fun hdraft => ?_
  have hparent' : view' path = some (parent.ino, .dir) := by
    rw [hdraft.eq, update_of_ne (by simp)]
    exact hparent
  have htarget' : ∀ old, view' (path ++ [name]) ≠ some (old, .dir) := by
    intro old
    rw [hdraft.eq, update_of_ne hpaths.symm]
    exact htarget old
  -- the temporary name is free again
  have hmoved : update (update view' (path ++ [name])
      (some (output.ino, .file data))) (path ++ [temp]) none =
      update view (path ++ [name]) (some (output.ino, .file data)) := by
    have hself : update view (path ++ [temp]) none = view := by
      rw [← hfree, update_eq_self]
    rw [hdraft.eq, update_comm hpaths.symm, update_idem, hself]
  refine (rename_sees hquiet hparent' hne hdraft.here hdraft.alone htarget').mono
    (fun _ hw => hw) ?_ ?_
  · rintro _ w ⟨_, rfl, hw⟩
    rwa [hmoved] at hw
  · rintro _ w ⟨_, rfl | rfl, hw⟩
    · exact .inl ⟨_, hdraft, hw⟩
    · rw [hmoved] at hw
      exact .inr hw

/-- The file is filled and dressed under its temporary name before it takes the
place of the target. -/
theorem copyAndRename_shown {content : Text} (hsource : Provides own content source)
    {path : List Text} (hparent : view path = some (parent.ino, .dir)) {temp name : Text}
    (hne : temp ≠ name) (hfree : view (path ++ [temp]) = none)
    (htarget : ∀ ino, view (path ++ [name]) ≠ some (ino, .dir)) (uid gid mode : Nat) :
    Triple (Shown s view since own) (copyAndRename s source parent temp name uid gid mode)
      (fun _ w => ∃ found, IsFile content uid gid mode found ∧
        Shown s (update view (path ++ [name]) found) since own w)
      fun _ w => ∃ view', Torn view (path ++ [name]) (path ++ [temp])
        (IsFile content uid gid mode) view' ∧ Shown s view' since own w := by
  have hpaths : path ++ [name] ≠ path ++ [temp] := by simpa using hne.symm
  have hkeep : ∀ (e : Errno) w, Shown s view since own w → ∃ view', Torn view (path ++ [name])
      (path ++ [temp]) (IsFile content uid gid mode) view' ∧ Shown s view' since own w :=
    fun _ w hw => ⟨view, Torn.refl _ _ _ _, hw⟩
  have hfail : ∀ {ino data} {w : Files}, Draft s view (path ++ [temp]) ino since own data w →
      ∃ view', Torn view (path ++ [name]) (path ++ [temp]) (IsFile content uid gid mode) view' ∧
        Shown s view' since own w := by
    rintro ino data w ⟨view', hdraft, hw⟩
    exact ⟨view', hdraft.torn hpaths _, hw⟩
  have hreplaced : ∀ {ino : Ino} {w : Files}, Shown s (update view (path ++ [name])
      (some (ino, .file ⟨content, ⟨uid, gid, mode⟩⟩))) since own w →
      ∃ view', Torn view (path ++ [name]) (path ++ [temp]) (IsFile content uid gid mode) view' ∧
        Shown s view' since own w := by
    intro ino w hw
    refine ⟨_, ⟨fun other hother _ => update_of_ne hother _ _, .inr ⟨ino, ?_⟩⟩, hw⟩
    exact update_self ..
  refine ((openSource_shown hquiet hsource).onError hkeep).bind fun found => ?_
  refine given fun hfound => ?_
  subst hfound
  refine ((touch_sees hquiet).onError hkeep).bind fun _ => ?_
  have hcreate : Triple (Shown s view since own) (s.kernel.createNew parent temp s.created)
      (fun output => Draft s view (path ++ [temp]) output.ino since own ⟨[], s.created⟩)
      fun _ w => ∃ view', Torn view (path ++ [name]) (path ++ [temp])
        (IsFile found uid gid mode) view' ∧ Shown s view' since own w := by
    refine (createNew_sees hquiet hparent temp s.created).mono (fun _ hw => hw) ?_ ?_
    · rintro output w ⟨view', ⟨-, heq, halone⟩, hw⟩
      exact ⟨view', ⟨heq, halone⟩, hw⟩
    · rintro e w ⟨view', rfl | ⟨-, ino, rfl⟩, hw⟩
      · exact hkeep e w hw
      · exact ⟨_, (Torn.refl _ _ _ _).update hpaths _, hw⟩
  refine hcreate.bind fun output => ?_
  refine ((writeAll_draft hquiet found).onError fun _ _ hw => hw.elim fun _ => hfail).bind
    fun _ => ?_
  refine ((touch_draft hquiet).onError fun _ _ hw => hw.elim fun _ => hfail).bind fun _ => ?_
  refine ((setFdOwnerMode_draft hquiet uid gid mode).onError
    fun _ _ hw => hw.elim fun _ => hfail).bind fun _ => ?_
  refine ((touch_draft hquiet).onError fun _ _ hw => hw.elim fun _ => hfail).bind fun _ => ?_
  refine ((rename_draft hquiet hparent hne hfree htarget).onError
    fun _ _ hw => hw.elim hfail hreplaced).bind fun _ => ?_
  refine (touch_sees hquiet).mono (fun _ hw => hw) (fun _ w hw => ?_) fun _ w hw => hreplaced hw
  exact ⟨_, ⟨output.ino, rfl⟩, hw⟩

/-- A failing copy leaves the target as it was or replaced, and at most a file
with a temporary name besides. -/
theorem atomicCopyAt_after (hinjective : Injective s.temp) {content : Text}
    (hsource : Provides own content source) {path : List Text}
    (hparent : view path = some (parent.ino, .dir)) {name : Text}
    (hname : ∀ dir n, path ++ [name] ≠ dir ++ [s.temp n])
    (htarget : ∀ ino, view (path ++ [name]) ≠ some (ino, .dir)) (hfresh : Fresh s since view)
    (uid gid mode : Nat) :
    Triple (Shown s view since own) (atomicCopyAt s source parent name uid gid mode)
      (fun _ => After s (path ++ [name]) (IsFile content uid gid mode) view own)
      fun _ => After s (path ++ [name])
        (fun found => found = view (path ++ [name]) ∨ IsFile content uid gid mode found)
        view own := by
  -- the name is used from here on
  have htemp : Triple (Shown s view since own) (tempName s)
      (fun temp w => ∃ n, (since ≤ n ∧ temp = s.temp n) ∧ Shown s view (n + 1) own w)
      fun _ => After s (path ++ [name])
        (fun found => found = view (path ++ [name]) ∨ IsFile content uid gid mode found)
        view own := by
    intro w hw
    exact ⟨w.clock, ⟨hw.clock, rfl⟩, hw.sound, hw.look, Nat.le_refl _, hw.own⟩
  refine htemp.bind fun temp => ofExists fun n => given fun ⟨hn, htemp⟩ => ?_
  subst htemp
  have hne : s.temp n ≠ name := by
    rintro rfl
    exact hname path n rfl
  have hfree : view (path ++ [s.temp n]) = none := hfresh path n hn
  have hnext : ∀ {view' : View Text}, Torn view (path ++ [name]) (path ++ [s.temp n])
      (IsFile content uid gid mode) view' → Next s (path ++ [name])
      (fun found => found = view (path ++ [name]) ∨ IsFile content uid gid mode found)
      view (n + 1) view' := by
    intro view' htorn
    refine ⟨fun other hother => ?_, htorn.here, fun dir m hm => ?_⟩
    · by_cases heq : other = path ++ [s.temp n]
      · exact .inr ⟨heq ▸ hfree, path, n, heq⟩
      · exact .inl (htorn.others other hother heq)
    · have hlater : dir ++ [s.temp m] ≠ path ++ [s.temp n] := by
        intro heq
        have hsame := hinjective (List.append_inj_right' heq rfl |> List.head_eq_of_cons_eq)
        omega
      rw [htorn.others _ (hname dir m).symm hlater]
      exact hfresh dir m (by omega)
  refine Triple.tryCatch (H := fun _ w => ∃ view', Torn view (path ++ [name])
    (path ++ [s.temp n]) (IsFile content uid gid mode) view' ∧ Shown s view' (n + 1) own w)
    ?_ fun e => ?_
  · refine (copyAndRename_shown hquiet hsource hparent hne hfree htarget uid gid mode).onReturn ?_
    rintro _ w ⟨found, hfound, hw⟩
    refine ⟨_, n + 1, (Next.update ?_ hname found).mono fun _ h => h ▸ hfound, hw⟩
    exact fun dir m hm => hfresh dir m (by omega)
  · refine ofExists fun view' => given fun htorn => ?_
    have hparent' : view' path = some (parent.ino, .dir) := by
      rw [htorn.others path (by simp) (by simp)]
      exact hparent
    refine (outcome (unlink_sees hquiet hparent' (s.temp n))).bind fun result => ?_
    apply Triple.throw
    intro w hw
    cases result with
    | ok _ =>
      obtain ⟨_, rfl, hw⟩ := hw
      exact ⟨_, n + 1, hnext (htorn.update (by simpa using hne.symm) none), hw⟩
    | error e =>
      obtain ⟨_, rfl | rfl, hw⟩ := hw
      · exact ⟨_, n + 1, hnext htorn, hw⟩
      · exact ⟨_, n + 1, hnext (htorn.update (by simpa using hne.symm) none), hw⟩

theorem unlinkFileAt_after {path : List Text} (hparent : view path = some (parent.ino, .dir))
    {name : Text} (hname : ∀ dir n, path ++ [name] ≠ dir ++ [s.temp n])
    (hfresh : Fresh s since view) :
    Triple (Shown s view since own) (unlinkFileAt s parent name)
      (fun _ => After s (path ++ [name]) (· = none) view own)
      fun _ => After s (path ++ [name])
        (fun found => found = view (path ++ [name]) ∨ found = none) view own := by
  have hgone := Next.update hfresh hname none
  refine ((unlink_sees hquiet hparent name).onError ?_).bind fun _ => ?_
  · rintro e w ⟨_, rfl | rfl, hw⟩
    · exact ⟨_, since, (Next.refl hfresh _).mono fun _ h => .inl h, hw⟩
    · exact ⟨_, since, hgone.mono fun _ h => .inr h, hw⟩
  refine ofExists fun view' => given fun hview' => ?_
  subst hview'
  refine (touch_sees hquiet).mono (fun _ hw => hw) (fun _ w hw => ?_) fun _ w hw => ?_
  · exact ⟨_, since, hgone, hw⟩
  · exact ⟨_, since, hgone.mono fun _ h => .inr h, hw⟩

end

end

end IndenturedServer.SourceUpdates
