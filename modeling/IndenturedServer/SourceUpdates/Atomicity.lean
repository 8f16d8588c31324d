import IndenturedServer.Foundation.Correspondence
import IndenturedServer.SourceUpdates.Rollback

/-!
An update is applied as a whole or not at all.

While nobody else changes the workspace, the call ends in one of three ways.
It succeeds, and every declared target is what the update wants it to be. It
fails and `rollback_proven` holds, and then every declared target has its old
contents, owner and mode, and the revision has not been committed. Or it fails
without that, and the session is not used any more. What is not declared stays
in any case.
-/

namespace IndenturedServer.SourceUpdates

open Foundation Source

section
variable {s : ApplyContext} {base : View Text} {staged : Nat → Text} {saved : Nat → Option Text}

/-- The contents of a file, for the hash of a file that is deleted. -/
def contentAt (view : View Text) (path : List Text) : Text :=
  match view path with
  | some (_, .file data) => data.content
  | _ => []

/-- The hashes of the installed files, and of the deleted files before. -/
def expectedEvidence (s : ApplyContext) (base : View Text) (staged : Nat → Text)
    (changes : List PreparedChange) : AppliedEvidence where
  changed := changes.filterMap fun change =>
    match change.kind with
    | .file index _ => some ⟨change.path, s.digest (staged index)⟩
    | .delete => none
  deleted := changes.filterMap fun change =>
    match change.kind with
    | .file _ _ => none
    | .delete => some ⟨change.path, s.digest (contentAt base (pathKey s change.path))⟩

theorem evidence_eq {changes : List PreparedChange} {backups : List Backup}
    (hbacked : List.Forall₂ (Backed s base saved) changes backups)
    (hhashes : ∀ {path index sha256}, ⟨path, .file index sha256⟩ ∈ changes →
      s.digest (staged index) = sha256) :
    evidence (changes.zip backups) = .ok (expectedEvidence s base staged changes) := by
  induction hbacked with
  | nil => rfl
  | @cons change backup changes backups hchange _ ih =>
    have hrest := ih fun hmem => hhashes (List.mem_cons_of_mem _ hmem)
    obtain ⟨path, kind⟩ := change
    rw [List.zip_cons_cons, evidence, hrest]
    cases kind with
    | file index sha256 =>
      have hhash : s.digest (staged index) = sha256 := hhashes List.mem_cons_self
      simp [expectedEvidence, hhash, bind, Except.bind]
    | delete =>
      cases hchange.target with
      | absent htarget hkind => exact absurd rfl hkind
      | present htarget _ _ _ _ hsha256 =>
        simp [expectedEvidence, contentAt, htarget, hsha256, bind, Except.bind]

end

/-- `Uuid::new_v4` gives names that nobody has used. -/
structure FreshNames (s : ApplyContext) (fs : Fs Text) (changes : List PreparedChange) : Prop where
  injective : Function.Injective s.temp
  unused : ∀ dir n, fs.look s.workspace (dir ++ [s.temp n]) = none
  undeclared : ∀ change ∈ changes, ∀ dir n, pathKey s change.path ≠ dir ++ [s.temp n]

def OthersKept (s : ApplyContext) (fs : Fs Text) (changes : List PreparedChange) (w : Files) :
    Prop :=
  ∀ path, (∀ change ∈ changes, pathKey s change.path ≠ path) →
    fs.look s.workspace path ≠ none → w.fs.look s.workspace path = fs.look s.workspace path

structure Applied (s : ApplyContext) (prepared : PreparedUpdate s.digest) (fs : Fs Text)
    (found : AppliedEvidence) (w : Files) : Prop where
  made : ∀ change ∈ prepared.changes, Made s prepared.staged change.kind
    (w.fs.look s.workspace (pathKey s change.path))
  existed : ∀ change ∈ prepared.changes, change.kind = .delete →
    ∃ ino data, fs.look s.workspace (pathKey s change.path) = some (ino, .file data)
  evidence : found = expectedEvidence s (fs.look s.workspace) prepared.staged prepared.changes
  committed : w.own.committed = true

section
variable {s : ApplyContext}

theorem lowercase_of_pathKey_eq {path path' : Text} (h : pathKey s path = pathKey s path') :
    toAsciiLowercase path = toAsciiLowercase path' := by
  have hlower : ∀ relative : Text,
      toAsciiLowercase relative = join ((pathKey s relative).map toAsciiLowercase) := by
    intro relative
    have hjoin : join (relative.splitOn slash) = relative := List.intercalate_splitOn slash
    have hfold : (pathKey s relative).map toAsciiLowercase =
        (relative.splitOn slash).map toAsciiLowercase := by
      rw [pathKey, List.map_map]
      exact List.map_congr_left fun part _ => s.caseRule.lowercase_fold part
    rw [hfold, ← toAsciiLowercase_join, hjoin]
  rw [hlower, hlower path', h]

theorem nodup_pathKey (prepared : PreparedUpdate s.digest) :
    (prepared.changes.map fun change => pathKey s change.path).Nodup := by
  have hdistinct := prepared.distinct
  rw [List.Nodup, List.pairwise_map] at hdistinct ⊢
  exact hdistinct.imp fun hne heq => hne (lowercase_of_pathKey_eq heq)

section
variable {fs : Fs Text} {w : Files} {own : UpdateFiles} {changes : List PreparedChange}
  {state : List Text → Option (Ino × Shape) → Prop}

theorem Holding.othersKept (h : Holding s (fs.look s.workspace)
    (changes.map fun change => pathKey s change.path) state own w) :
    OthersKept s fs changes w := by
  obtain ⟨view, since, hfits, hw⟩ := h
  intro path hpath hbase
  rw [hw.look]
  refine hfits.others path (fun hmem => ?_) hbase
  obtain ⟨change, hchange, heq⟩ := List.mem_map.mp hmem
  exact hpath change hchange heq

theorem Holding.target (h : Holding s (fs.look s.workspace)
    (changes.map fun change => pathKey s change.path) state own w) {change : PreparedChange}
    (hchange : change ∈ changes) :
    state (pathKey s change.path) (w.fs.look s.workspace (pathKey s change.path)) := by
  obtain ⟨view, since, hfits, hw⟩ := h
  rw [hw.look]
  exact hfits.targets _ (List.mem_map_of_mem hchange)

variable {paths : List (List Text)}

theorem Holding.own_eq {base : View Text} (h : Holding s base paths state own w) : w.own = own := by
  obtain ⟨view, since, -, hw⟩ := h
  exact hw.own

theorem Unchanged.ended {base : View Text} {since : Nat} (hfresh : Fresh s since base)
    (h : Unchanged s base since {} w) (e : UpdateError) : Ended s base paths e w := by
  obtain ⟨own', ⟨-, hcommitted⟩, hw⟩ := h
  refine ⟨own', fun path found => found = base path, fun _ => ⟨fun _ _ _ h => .inl h, hcommitted⟩, ?_⟩
  exact ⟨base, since, ⟨fun _ _ _ => rfl, fun _ _ => rfl, hfresh⟩, hw⟩

end

section
variable (hquiet : s.kernel.Quiet s.workspace)

include hquiet

theorem openWorkspaceRoot_shown {view : View Text} {since : Nat} {own : UpdateFiles} :
    Triple (Shown s view since own) (openWorkspaceRoot s)
      (fun root w => root.ino = s.workspace ∧ Shown s view since own w)
      fun _ => Shown s view since own := by
  apply Kernel.call_triple
  · intro w hw
    exact hw.waited hquiet
  · intro w root fs events hw heffect
    split at heffect
    · cases heffect
      exact ⟨⟨rfl, hw.waited hquiet⟩, hw.waited hquiet⟩
    · cases heffect

theorem prepareStagedFiles_looks (changes : List PreparedChange) :
    Looks s (prepareStagedFiles s changes) := by
  induction changes with
  | nil => exact fun _ _ _ => Triple.pure fun _ hw => hw
  | cons change rest ih =>
    intro view since own
    obtain ⟨path, kind⟩ := change
    have htouch := Looks.ask hquiet (s := s) (fun _ => .ok ()) view since own
    cases kind with
    | file index sha256 =>
      have hfile : Triple (Shown s view since own) (prepareStagedFile s)
          (fun _ => Shown s view since own) fun _ => Shown s view since own :=
        htouch.bind fun _ => htouch.bind fun _ => htouch.bind fun _ => htouch
      exact hfile.bind fun _ => ih view since own
    | delete => exact ih view since own

end

theorem applyUpdate_shown (prepared : PreparedUpdate s.digest) {base : View Text}
    (hquiet : s.kernel.Quiet s.workspace) (hinjective : Function.Injective s.temp)
    (hfresh : Fresh s 0 base)
    (hnamed : ∀ change ∈ prepared.changes, ∀ dir n, pathKey s change.path ≠ dir ++ [s.temp n]) :
    Triple (Shown s base 0 {}) (applyUpdate s prepared)
      (fun found w => found = expectedEvidence s base prepared.staged prepared.changes ∧
        (∀ change ∈ prepared.changes, change.kind = .delete →
          ∃ ino data, base (pathKey s change.path) = some (ino, .file data)) ∧
        ∃ own, own.committed = true ∧ Holding s base
          (prepared.changes.map fun change => pathKey s change.path)
          (Doing s base prepared.staged prepared.changes) own w)
      (Ended s base (prepared.changes.map fun change => pathKey s change.path)) := by
  have hpaths : ∀ change ∈ prepared.changes, pathKey s change.path ∈
      prepared.changes.map fun change => pathKey s change.path :=
    fun change hchange => List.mem_map_of_mem hchange
  have hquick : ∀ (e : UpdateError) w, Shown s base 0 {} w →
      Ended s base (prepared.changes.map fun change => pathKey s change.path) e w :=
    fun e w hw => (Unchanged.of_shown hw).ended hfresh e
  refine (checkCancelled_shown.onError hquick).bind fun _ => ?_
  refine ((openWorkspaceRoot_shown hquiet).adapt.onError hquick).bind fun root =>
    Triple.given fun hroot => ?_
  have hcreate : Looks s (createBackups s) := fun view since own =>
    (Looks.ask hquiet _ view since own).bind fun _ => Looks.ask hquiet _ view since own
  refine ((hcreate base 0 {}).adapt.onError hquick).bind fun _ => ?_
  refine ((prepareStagedFiles_looks hquiet _ base 0 {}).adapt.onError hquick).bind fun _ => ?_
  refine ((backUpChanges_shown hquiet hroot prepared.changes 0 {}).onError
    fun e _ hw => hw.ended hfresh e).bind fun backups => ?_
  refine Triple.ofExists fun own => Triple.given fun ⟨hgrows, hbacked⟩ => ?_
  have hcalm : Calm s base (prepared.changes.map fun change => pathKey s change.path) := by
    refine ⟨hquiet, hinjective, fun path hpath => ?_, fun path hpath => ?_⟩
    · obtain ⟨change, hchange, rfl⟩ := List.mem_map.mp hpath
      exact hnamed change hchange
    · obtain ⟨change, hchange, rfl⟩ := List.mem_map.mp hpath
      obtain ⟨backup, -, hback⟩ := forall₂_exists_right hbacked hchange
      exact hback.leaf
  have hstart : ∀ w, Shown s base 0 own w → Stage s base
      (prepared.changes.map fun change => pathKey s change.path)
      (Doing s base prepared.staged) own.backups false [] w := by
    intro w hw
    refine ⟨own, ⟨rfl, hgrows.committed, by rw [hgrows.parents]; exact .nil⟩, base, 0, ?_, hw⟩
    exact ⟨fun _ _ _ => rfl, fun _ _ => .inr ⟨by simp, rfl⟩, hfresh⟩
  have hmutation : Triple (Stage s base _ (Doing s base prepared.staged) own.backups false [])
      (tryCatch (mutation s prepared.staged root prepared.changes backups) (undo s backups)) _ _ :=
    (mutation_stage hcalm hroot hbacked hpaths (nodup_pathKey prepared)).tryCatch
      fun err => undo_ended hcalm hbacked hpaths err
  refine (hmutation.onEntry hstart).bind fun _ => ?_
  rw [evidence_eq hbacked prepared.hashes]
  refine Triple.ofExcept (fun found w hok hw => ?_) fun _ _ herror _ => by cases herror
  cases hok
  obtain ⟨own', ⟨-, hcommitted, -⟩, hw⟩ := hw
  refine ⟨rfl, fun change hchange hkind => ?_, own', hcommitted, hw⟩
  obtain ⟨backup, -, hback⟩ := forall₂_exists_right hbacked hchange
  cases hback.target with
  | absent htarget hnot => exact absurd hkind hnot
  | present htarget => exact ⟨_, _, htarget⟩

/-- With nobody else at work in the workspace, an update that succeeds has made
every change and tells the right hashes, and one that fails with a proven
rollback has left every target with its contents, owner and permissions and has
not committed a revision. Whatever else was there is as it was. Any call may
fail, also after it has taken effect, and the update may be cancelled at any
time. -/
theorem update_atomic (s : ApplyContext) (prepared : PreparedUpdate s.digest) (fs : Fs Text)
    (hsound : fs.Sound s.workspace) (hquiet : s.kernel.Quiet s.workspace)
    (hnames : FreshNames s fs prepared.changes) :
    (∃ found w, applyUpdate s prepared (start fs) = .ok found w ∧
      Applied s prepared fs found w ∧ OthersKept s fs prepared.changes w) ∨
    ∃ e w, applyUpdate s prepared (start fs) = .error e w ∧
      (e.rollbackProven = true →
        (∀ change ∈ prepared.changes, Restored (fs.look s.workspace (pathKey s change.path))
          (w.fs.look s.workspace (pathKey s change.path))) ∧ w.own.committed = false) ∧
      OthersKept s fs prepared.changes w := by
  have hstart : Shown s (fs.look s.workspace) 0 {} (start fs) := ⟨hsound, rfl, Nat.le_refl 0, rfl⟩
  have hrun := applyUpdate_shown prepared hquiet hnames.injective
    (fun dir n _ => hnames.unused dir n) hnames.undeclared
  obtain ⟨found, w, hr, hevidence, hexisted, own, hcommitted, hw⟩ |
    ⟨e, w, hr, own, state, hproven, hw⟩ := hrun.run_cases hstart
  · refine .inl ⟨found, w, hr, ⟨fun change hchange => ?_, hexisted, hevidence, ?_⟩, hw.othersKept⟩
    · obtain ⟨other, hother, heq, hmade⟩ | ⟨hnone, -⟩ := hw.target hchange
      · have hsame : other = change := by
          have hnodup := nodup_pathKey prepared
          exact List.inj_on_of_nodup_map hnodup hother hchange heq
        rwa [hsame] at hmade
      · exact absurd rfl (hnone change hchange)
    · rw [hw.own_eq]
      exact hcommitted
  · refine .inr ⟨e, w, hr, fun h => ?_, hw.othersKept⟩
    obtain ⟨hrestored, hcommitted⟩ := hproven h
    refine ⟨fun change hchange => ?_, ?_⟩
    · exact hrestored _ (List.mem_map_of_mem hchange) _ (hw.target hchange)
    · rw [hw.own_eq]
      exact hcommitted

end

/-! ### A small update -/

def smallWorkspace : Fs Text
  | 0 => some (.dir fun name => if name = [0x61] then some 1 else none)
  | 1 => some (.file ⟨[0x78], ⟨7, 7, 0o600⟩⟩)
  | _ => none

def smallContext : ApplyContext where
  kernel := { interfere := fun w => w.fs, fault := fun _ => none, alloc := fun n => n + 2 }
  caseRule := .sensitive
  workspace := 0
  temp := fun n => List.replicate (n + 2) 0x74
  cancelled := fun _ => false
  digest := id
  taskUid := 1000
  taskGid := 1000
  created := ⟨0, 0, 0o600⟩

/-- The contents of `a` become `y`. -/
def smallUpdate : PreparedUpdate smallContext.digest where
  changes := [⟨[0x61], .file 0 [0x79]⟩]
  staged := fun _ => [0x79]
  hashes := by
    intro path index sha256 h
    simp only [List.mem_singleton, PreparedChange.mk.injEq, PreparedKind.file.injEq] at h
    exact h.2.2.symm
  valid := by
    intro change h
    rw [List.mem_singleton.mp h]
    exact ⟨1, by decide⟩
  distinct := by simp

theorem find_smallWorkspace {path : List Text} {ino : Ino}
    (h : smallWorkspace.find 0 path = some ino) :
    path = [] ∧ ino = 0 ∨ path = [[0x61]] ∧ ino = 1 := by
  cases path with
  | nil =>
    cases h
    exact .inl ⟨rfl, rfl⟩
  | cons name rest =>
    by_cases hname : name = [0x61]
    · subst hname
      cases rest with
      | nil =>
        cases h
        exact .inr ⟨rfl, rfl⟩
      | cons next rest => simp [Fs.find, Fs.entry, smallWorkspace] at h
    · simp [Fs.find, Fs.entry, smallWorkspace, hname] at h

theorem smallWorkspace_sound : smallWorkspace.Sound smallContext.workspace where
  base := rfl
  present h := by
    obtain ⟨-, rfl⟩ | ⟨-, rfl⟩ := find_smallWorkspace h
    · rfl
    · rfl
  tree h h' hdir := by
    obtain ⟨rfl, rfl⟩ | ⟨rfl, rfl⟩ := find_smallWorkspace h
    · obtain ⟨rfl, -⟩ | ⟨-, hino⟩ := find_smallWorkspace h'
      · rfl
      · cases hino
    · cases hdir

theorem smallContext_names : FreshNames smallContext smallWorkspace smallUpdate.changes where
  injective m n h := by
    have hlength := congrArg List.length h
    simpa [smallContext] using hlength
  unused dir n := by
    cases hlook : smallWorkspace.look smallContext.workspace (dir ++ [smallContext.temp n]) with
    | none => rfl
    | some found =>
      obtain ⟨hfind, -⟩ := Fs.look_eq_some.mp hlook
      obtain ⟨hnil, -⟩ | ⟨hpath, -⟩ := find_smallWorkspace hfind
      · simp at hnil
      · have hlast := congrArg List.getLast? hpath
        simp [smallContext, List.replicate_succ] at hlast
  undeclared change h dir n heq := by
    rw [List.mem_singleton.mp h] at heq
    have hlast := congrArg List.getLast? heq
    have hname : (pathKey smallContext [0x61]).getLast? = some [0x61] := by decide
    rw [show (PreparedChange.mk [0x61] (.file 0 [0x79])).path = [0x61] from rfl, hname] at hlast
    simp [smallContext, List.replicate_succ] at hlast

theorem smallContext_quiet : smallContext.kernel.Quiet smallContext.workspace :=
  fun _ _ _ _ => rfl

theorem smallUpdate_succeeds :
    (match applyUpdate smallContext smallUpdate (start smallWorkspace) with
    | .ok _ _ => true
    | .error _ _ => false) = true := by
  decide +kernel

theorem update_atomic_small :
    ∃ found w, applyUpdate smallContext smallUpdate (start smallWorkspace) = .ok found w ∧
      Applied smallContext smallUpdate smallWorkspace found w ∧
      OthersKept smallContext smallWorkspace smallUpdate.changes w := by
  obtain hok | ⟨e, w, hr, -⟩ := update_atomic smallContext smallUpdate smallWorkspace
    smallWorkspace_sound smallContext_quiet smallContext_names
  · exact hok
  · have hsucceeds := smallUpdate_succeeds
    rw [hr] at hsucceeds
    cases hsucceeds

end IndenturedServer.SourceUpdates
