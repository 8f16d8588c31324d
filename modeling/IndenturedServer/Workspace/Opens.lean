import IndenturedServer.Artifacts.Snapshot
import IndenturedServer.SourceUpdates.Apply

/-!
Files of a workspace that the server opens.

`open_file_beneath`, for an artifact, and `open_regular_at`, for the backup of an
update target, open a file that was found to be a regular one before. The task
may have put a FIFO in its place. Both calls have `O_RDONLY | O_NOFOLLOW` and not
`O_NONBLOCK`, so that on a FIFO that nobody has open for writing they wait.

In `SourceUpdates.Apply` the opening of a target returns whatever is there. Here
are the parts of an update that contain the opening once more, with a call that
can wait, and `applyUpdate_eq` says that they are those of `Apply` if no target
can be such a FIFO.
-/

namespace IndenturedServer.Workspace

open Foundation Source SourceUpdates SourceUpdates Triple Artifacts
open Artifacts (CollectContext ArtifactSpec ArtifactsConfig collectArtifactsZip matchedFiles)

/-! ### An update whose openings can wait -/

/-- How an update ends without a result. -/
inductive UpdateHalt
  | failed (error : UpdateError)
  /-- The call that opens this target does not return. -/
  | waiting (path : Text)
  deriving DecidableEq, Repr

section
variable (s : ApplyContext) (waits : Nat → Ino → Bool) {α : Type}

/-- A part of the update that does not wait. -/
def returning (x : EStateM UpdateError Files α) : EStateM UpdateHalt Files α :=
  EStateM.adaptExcept .failed x

def checkOpened (expected : Stat) (file : Descriptor) : EStateM Errno Files Descriptor := do
  let metadata ← s.kernel.fstat file
  MonadExcept.ofExcept (refuse (regular metadata = none) .other)
  let identity ← s.kernel.fstat file
  MonadExcept.ofExcept (refuse (identity.ino ≠ expected.ino) .other)
  return file

/-- `open_regular_at`; nothing if the call that opens the file does not return. -/
def openRegularAt (parent : Descriptor) (name : Text) (expected : Stat) :
    EStateM Errno Files (Option Descriptor) := do
  match ← s.kernel.openReading waits parent name with
  | none => return none
  | some file => do
      let source ← checkOpened s expected file.descriptor
      return some source

def backUpTarget (parent : Descriptor) (name : Text) (index : Nat) (change : PreparedChange) :
    Option Stat → EStateM UpdateHalt Files (Option Text)
  | none => return none
  | some metadata => do
      match ← EStateM.adaptExcept (fun _ => .failed (.bad (.changedDuringBackup change.path)))
          (openRegularAt s waits parent name metadata) with
      | none => throw (.waiting change.path)
      | some source => do
          let sha256 ← returning (EStateM.adaptExcept (fun _ => .internal .backUp)
            (copyOpenFileAndHash s source index))
          return some sha256

def backUpChange (root : Descriptor) (index : Nat) (change : PreparedChange) :
    EStateM UpdateHalt Files Backup := do
  let place ← returning (EStateM.adaptExcept (fun _ => .bad .invalidAncestor)
    (openWorkspaceParent s root change.path))
  let metadata ← returning (EStateM.adaptExcept (fun _ => .internal (.inspectTarget change.path))
    (inspectTarget s place.1 place.2))
  returning (MonadExcept.ofExcept (checkTarget change metadata))
  let sha256 ← backUpTarget s waits place.1 place.2 index change metadata
  let attributes := (metadata.bind regular).getD ⟨s.taskUid, s.taskGid, 0o644⟩
  return {
    path := change.path
    staged := metadata.map fun _ => index
    original := metadata.map fun stat => stat.ino
    uid := attributes.uid
    gid := attributes.gid
    mode := attributes.mode &&& 0o777
    sha256 := sha256 }

def backUpChanges (root : Descriptor) : Nat → List PreparedChange →
    EStateM UpdateHalt Files (List Backup)
  | _, [] => return []
  | index, change :: rest => do
      let backup ← backUpChange s waits root index change
      let backups ← backUpChanges root (index + 1) rest
      return backup :: backups

/-- What follows the backups. -/
def mutateAndConclude (prepared : PreparedUpdate s.digest) (root : Descriptor)
    (backups : List Backup) : EStateM UpdateError Files AppliedEvidence := do
  tryCatch (mutation s prepared.staged root prepared.changes backups) (undo s backups)
  MonadExcept.ofExcept (evidence (prepared.changes.zip backups))

def applyUpdate (prepared : PreparedUpdate s.digest) :
    EStateM UpdateHalt Files AppliedEvidence := do
  returning (checkCancelled s)
  let root ← returning (EStateM.adaptExcept (fun _ => .internal .openWorkspace)
    (openWorkspaceRoot s))
  returning (EStateM.adaptExcept (fun _ => .internal .createBackups) (createBackups s))
  returning (EStateM.adaptExcept (fun _ => .internal .prepareStaged)
    (prepareStagedFiles s prepared.changes))
  let backups ← backUpChanges s waits root 0 prepared.changes
  returning (mutateAndConclude s prepared root backups)

end

/-! ### Without a FIFO it is the same update -/

section
variable {s : ApplyContext} {waits : Nat → Ino → Bool} {α β : Type}

/-- The two updates agree if they agree after each part. -/
theorem returning_bind {x : EStateM UpdateError Files α} {p : α → Prop}
    {f : α → EStateM UpdateHalt Files β} {g : α → EStateM UpdateError Files β}
    (hx : Triple (fun _ => True) x (fun a _ => p a) fun _ _ => True)
    (hf : ∀ a, p a → f a = returning (g a)) : returning x >>= f = returning (x >>= g) := by
  funext w
  show EStateM.bind (EStateM.adaptExcept UpdateHalt.failed x) f w =
    EStateM.adaptExcept UpdateHalt.failed (EStateM.bind x g) w
  obtain ⟨a, w', hrun, ha⟩ | ⟨e, w', hrun, -⟩ := hx.run_cases (s := w) trivial
  · simp only [EStateM.bind, EStateM.adaptExcept, hrun, hf a ha]
    rfl
  · simp only [EStateM.bind, EStateM.adaptExcept, hrun]

/-- Two calls whose effects differ only in what they return. -/
theorem call_agrees {k : Kernel Text UpdateFiles} {effect : Nat → Fs Text → Outcome Text α}
    {effect' : Nat → Fs Text → Outcome Text β} (same : α → β → Prop) {w : Files}
    (h : (∃ a b fs events, effect w.clock (k.interfere w) = .ok (a, fs, events) ∧
        effect' w.clock (k.interfere w) = .ok (b, fs, events) ∧ same a b) ∨
      ∃ e, effect w.clock (k.interfere w) = .error e ∧ effect' w.clock (k.interfere w) = .error e) :
    (∃ a b w', k.call effect w = .ok a w' ∧ k.call effect' w = .ok b w' ∧ same a b) ∨
      ∃ e w', k.call effect w = .error e w' ∧ k.call effect' w = .error e w' := by
  simp only [Kernel.call, Kernel.tornCall]
  obtain ⟨a, b, fs, events, heffect, heffect', hsame⟩ | ⟨e, heffect, heffect'⟩ := h
  · rw [heffect, heffect']
    cases k.fault w.clock with
    | none => exact .inl ⟨a, b, _, rfl, rfl, hsame⟩
    | some fault =>
      cases fault with
      | fails n => exact .inr ⟨_, _, rfl, rfl⟩
      | late => exact .inr ⟨_, _, rfl, rfl⟩
  · rw [heffect, heffect']
    cases k.fault w.clock with
    | none => exact .inr ⟨e, _, rfl, rfl⟩
    | some fault =>
      cases fault with
      | fails n => exact .inr ⟨_, _, rfl, rfl⟩
      | late => exact .inr ⟨e, _, rfl, rfl⟩

/-- Without such a FIFO the opening that can wait is the one that cannot. -/
theorem openReading_agrees (parent : Descriptor) {name : Text}
    (hclear : ¬ s.kernel.Blocks waits name) (w : Files) :
    (∃ file d w', s.kernel.openReading waits parent name w = .ok file w' ∧
      s.kernel.openFile parent name w = .ok d w' ∧ file.map Reading.descriptor = some d) ∨
    ∃ e w', s.kernel.openReading waits parent name w = .error e w' ∧
      s.kernel.openFile parent name w = .error e w' := by
  apply call_agrees fun (file : Option Reading) d => file.map Reading.descriptor = some d
  cases hentry : (s.kernel.interfere w).entry parent.ino name with
  | none => exact .inr ⟨_, rfl, rfl⟩
  | some ino =>
    cases hshape : (s.kernel.interfere w).shape ino with
    | none => simp only [hshape]; exact .inr ⟨_, rfl, rfl⟩
    | some shape =>
      have hreturns : ¬ (shape = .special ∧ waits w.clock ino = true) :=
        fun hwaits => hclear ⟨w, parent.ino, ino, hentry, by rw [hshape, hwaits.1], hwaits.2⟩
      cases shape with
      | link => simp only [hshape]; exact .inr ⟨_, rfl, rfl⟩
      | dir => simp only [hshape, if_neg hreturns]; exact .inl ⟨_, _, _, _, rfl, rfl, rfl⟩
      | file data => simp only [hshape, if_neg hreturns]; exact .inl ⟨_, _, _, _, rfl, rfl, rfl⟩
      | special =>
        have hpeer : ¬ waits w.clock ino = true := fun hwaits => hreturns ⟨rfl, hwaits⟩
        simp only [hshape, true_and, if_neg hpeer]
        exact .inl ⟨_, _, _, _, rfl, rfl, rfl⟩

theorem openRegularAt_eq {parent : Descriptor} {name : Text} {expected : Stat}
    (hclear : ¬ s.kernel.Blocks waits name) :
    openRegularAt s waits parent name expected =
      some <$> SourceUpdates.openRegularAt s parent name expected := by
  funext w
  obtain ⟨file, d, w', hreading, hfile, hsame⟩ | ⟨e, w', hreading, hfile⟩ :=
    openReading_agrees parent hclear w
  · obtain ⟨reading, rfl, rfl⟩ := Option.map_eq_some_iff.mp hsame
    show EStateM.bind _ _ w = EStateM.map some (EStateM.bind _ _) w
    simp only [EStateM.bind, EStateM.map, hreading, hfile]
    rfl
  · show EStateM.bind _ _ w = EStateM.map some (EStateM.bind _ _) w
    simp only [EStateM.bind, EStateM.map, hreading, hfile]

theorem backUpTarget_eq {parent : Descriptor} {name : Text} {index : Nat} {change : PreparedChange}
    {metadata : Option Stat} (hclear : ¬ s.kernel.Blocks waits name) :
    backUpTarget s waits parent name index change metadata =
      returning (SourceUpdates.backUpTarget s parent name index change metadata) := by
  cases metadata with
  | none => rfl
  | some metadata =>
    rw [backUpTarget, openRegularAt_eq hclear]
    funext w
    show EStateM.bind (EStateM.adaptExcept _ (EStateM.map some _)) _ w =
      EStateM.adaptExcept _ (EStateM.bind (EStateM.adaptExcept _ _) _) w
    cases hopened : SourceUpdates.openRegularAt s parent name metadata w with
    | ok source w' =>
      simp only [EStateM.bind, EStateM.adaptExcept, EStateM.map, hopened]
      have hcopy {x : EStateM UpdateError Files Text} :
          (returning x >>= fun sha256 => pure (some sha256)) =
            returning (x >>= fun sha256 => pure (some sha256)) :=
        returning_bind any fun _ _ => rfl
      exact congrFun hcopy w'
    | error e w' => simp only [EStateM.bind, EStateM.adaptExcept, EStateM.map, hopened]

theorem openWorkspaceParent_name (root : Descriptor) (relative : Text) :
    Triple (fun _ => True) (openWorkspaceParent s root relative)
      (fun place _ => place.2 = s.caseRule.fold (finalName relative)) fun _ _ => True := by
  refine any.bind fun _ => any.bind fun _ => any.bind fun parent => ?_
  exact Triple.pure fun _ _ => rfl

theorem backUpChange_eq {root : Descriptor} {index : Nat} {change : PreparedChange}
    (hclear : ¬ s.kernel.Blocks waits (s.caseRule.fold (finalName change.path))) :
    backUpChange s waits root index change =
      returning (SourceUpdates.backUpChange s root index change) := by
  refine returning_bind (openWorkspaceParent_name root change.path).adapt fun place hplace => ?_
  refine returning_bind any fun metadata _ => ?_
  refine returning_bind any fun _ _ => ?_
  rw [backUpTarget_eq (hplace ▸ hclear)]
  exact returning_bind any fun sha256 _ => rfl

theorem backUpChanges_eq {root : Descriptor} {changes : List PreparedChange} (index : Nat)
    (hclear : ∀ change ∈ changes,
      ¬ s.kernel.Blocks waits (s.caseRule.fold (finalName change.path))) :
    backUpChanges s waits root index changes =
      returning (SourceUpdates.backUpChanges s root index changes) := by
  induction changes generalizing index with
  | nil => rfl
  | cons change rest ih =>
    have hrest := ih (index + 1) fun other hother => hclear other (List.mem_cons_of_mem _ hother)
    rw [backUpChanges, backUpChange_eq (hclear change List.mem_cons_self), hrest]
    refine returning_bind any fun backup _ => ?_
    exact returning_bind any fun backups _ => rfl

/-- If no target can be a FIFO without a writer, this is the update of `Apply`. -/
theorem applyUpdate_eq {prepared : PreparedUpdate s.digest} (hclear : ∀ change ∈ prepared.changes,
      ¬ s.kernel.Blocks waits (s.caseRule.fold (finalName change.path))) :
    applyUpdate s waits prepared = returning (SourceUpdates.applyUpdate s prepared) := by
  refine returning_bind any fun _ _ => ?_
  refine returning_bind any fun root _ => ?_
  refine returning_bind any fun _ _ => ?_
  refine returning_bind any fun _ _ => ?_
  rw [backUpChanges_eq 0 hclear]
  exact returning_bind any fun backups _ => rfl

end

/-! ### What both calls wait for -/

/-- The paths that a collection waits for are those of matched files. -/
theorem collection_waits {c : CollectContext} {spec : ArtifactSpec} {config : ArtifactsConfig}
    (fs : Fs Text) :
    Triple (fun w => w = Artifacts.start fs) (collectArtifactsZip c spec config)
      (fun _ _ => True) fun e _ => ∀ relative, e = .waiting relative →
        ∃ matched, matchedFiles c.globs spec config c.walk = .ok matched ∧
          ∃ m ∈ matched, ∃ name ∈ m.relative.getLast?, c.kernel.Blocks c.waits name := by
  apply collectArtifactsZip_triple
  · exact fun error w _ _ relative heq => by cases heq
  · exact fun _ _ _ => trivial
  · intro t hsome ht
    have hmatched : matchedFiles c.globs spec config c.walk =
        .ok (unrestricted c.globs config t.matched) := by
      rw [matchedFiles, if_neg hsome, ht]
      rfl
    have hplain : Plain c (fun _ => ∃ m ∈ unrestricted c.globs config t.matched,
          ∃ name ∈ m.relative.getLast?, c.kernel.Blocks c.waits name)
        (archiveMatched c config (rootDescriptor c) (unrestricted c.globs config t.matched)
          (restrictions c.globs config t.matched)) :=
      archiveMatched_plain _ _ fun m hm name hname hblocks => ⟨m, hm, name, hname, hblocks⟩
    refine hplain.returns.mono (fun _ _ => trivial) (fun _ _ hw => hw) fun e w he relative heq => ?_
    obtain ⟨error, rfl⟩ | ⟨-, -, hblocks⟩ := he
    · cases heq
    · exact ⟨_, hmatched, hblocks⟩

theorem returning_ne_waiting {α : Type} {x : EStateM UpdateError Files α} {w w' : Files}
    {path : Text} : returning x w ≠ .error (.waiting path) w' := by
  show EStateM.adaptExcept UpdateHalt.failed x w ≠ _
  cases hx : x w with
  | ok a w'' => simp [EStateM.adaptExcept, hx]
  | error e w'' => simp [EStateM.adaptExcept, hx]

/-- The update deletes `a`. -/
def deletion : PreparedUpdate id where
  changes := [⟨[0x61], .delete⟩]
  staged _ := []
  hashes h := by simp at h
  valid := by
    intro change hchange
    cases List.mem_singleton.mp hchange
    exact ⟨1, by decide⟩
  distinct := by decide

/-- A workspace that others turn into this one. -/
def updateContext (becomes : Nat → Fs Text) : ApplyContext where
  kernel :=
    { interfere := fun w => becomes w.clock
      fault := fun _ => none
      alloc := fun now => now }
  caseRule := .sensitive
  workspace := 1
  temp _ := [0x74]
  cancelled _ := false
  digest := id
  taskUid := 1000
  taskGid := 1000
  created := ⟨0, 0, 0o600⟩

def collectionContext (becomes : Nat → Fs Text) : CollectContext :=
  { Artifacts.smallContext 0 true with
    kernel :=
      { interfere := fun w => becomes w.clock
        fault := fun _ => none
        alloc := fun now => now } }

/-- `p` has nobody who writes to it. -/
def withoutWriter (_ : Nat) (ino : Ino) : Bool :=
  ino = 3

/-- The path that an update waits for. -/
def waitsFor {α : Type} : EStateM.Result UpdateHalt Files α → Option Text
  | .error (.waiting path) _ => some path
  | _ => none

theorem waitsFor_eq_some {α : Type} {r : EStateM.Result UpdateHalt Files α} {path : Text}
    (h : waitsFor r = some path) : ∃ w, r = .error (.waiting path) w := by
  unfold waitsFor at h
  split at h
  · next path' w => exact ⟨w, by rw [Option.some.inj h]⟩
  · cases h

theorem smallFs_entry {dir ino : Ino} (h : smallFs.entry dir [0x61] = some ino) :
    smallFs.shape ino ≠ some .special := by
  match dir with
  | 1 =>
    cases h
    decide
  | 0 | 2 | 3 | _ + 4 => cases h

end IndenturedServer.Workspace
