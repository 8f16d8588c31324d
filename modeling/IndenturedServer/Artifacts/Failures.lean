import IndenturedServer.Artifacts.Publishing

/-!
Where the failures of a collection come from.

Only two calls fail with an error about the directory of the archive: the one
that makes it and the one that sets its permissions. Every other part of the
program fails with an error of its own.
-/

namespace IndenturedServer.Artifacts

open Foundation Source

def ArtifactError.elsewhere : ArtifactError → Bool
  | .io .createDirectory => false
  | .io .protectDirectory => false
  | _ => true

def Halt.elsewhere : Halt → Bool
  | .failed error => error.elsewhere
  | .waiting _ => true

/-! ### Checks -/

section
variable {α β : Type}

def Elsewhere (x : Except ArtifactError α) : Prop :=
  ∀ error, x = .error error → error.elsewhere = true

namespace Elsewhere

theorem ok (a : α) : Elsewhere (.ok a : Except ArtifactError α) :=
  fun _ h => nomatch h

theorem error {e : ArtifactError} (h : e.elsewhere = true) : Elsewhere (.error e : Except _ α) := by
  rintro _ ⟨⟩
  exact h

theorem refuse {c : Prop} [Decidable c] {e : ArtifactError} (h : e.elsewhere = true) :
    Elsewhere (Foundation.refuse c e) := by
  unfold Foundation.refuse
  split
  · exact error h
  · exact ok ()

theorem bind {x : Except ArtifactError α} {f : α → Except ArtifactError β} (hx : Elsewhere x)
    (hf : ∀ a, Elsewhere (f a)) : Elsewhere (x >>= f) := by
  intro e h
  cases x with
  | error e' =>
    cases h
    exact hx _ rfl
  | ok a => exact hf a e h

end Elsewhere

variable {globs : Globs} {spec : ArtifactSpec} {config : ArtifactsConfig}

theorem compilePatterns_elsewhere (field : PatternField) (patterns : List Text) :
    Elsewhere (compilePatterns globs field patterns) := by
  have hone : ∀ pattern, Elsewhere (compilePattern globs field pattern) := by
    intro pattern
    refine Elsewhere.bind ?_ fun _ => Elsewhere.refuse rfl
    intro e h
    cases hvalid : validateRelativePattern pattern with
    | ok u =>
      rw [hvalid] at h
      cases h
    | error problem =>
      rw [hvalid] at h
      cases h
      rfl
  induction patterns with
  | nil => exact Elsewhere.ok ()
  | cons pattern rest ih => exact (hone pattern).bind fun _ => ih

theorem visit_elsewhere (t : Traversal) (item : WalkItem) :
    Elsewhere (visit globs spec config t item) := by
  cases item with
  | failed => exact Elsewhere.error rfl
  | outside => exact Elsewhere.error rfl
  | found entry =>
    have hregular : Elsewhere (requireRegularFile entry) := by
      unfold requireRegularFile
      split
      · exact Elsewhere.error rfl
      · split
        · exact Elsewhere.ok _
        · exact Elsewhere.error rfl
    have hobserve : Elsewhere (observe config t.observed entry.relative) :=
      (Elsewhere.refuse rfl).bind fun _ => (Elsewhere.refuse rfl).bind fun _ => Elsewhere.ok _
    rw [visit, visitEntry]
    split
    · exact Elsewhere.ok t
    · refine hobserve.bind fun observed => ?_
      split
      · exact Elsewhere.ok _
      · exact hregular.bind fun _ => Elsewhere.ok _

theorem validateArtifactCountAndDepth_elsewhere (matched : List Matched) :
    Elsewhere (validateArtifactCountAndDepth config matched) := by
  have hfolded : ∀ matched folded, Elsewhere (checkFolded folded matched) := by
    intro matched
    induction matched with
    | nil => exact fun folded => Elsewhere.ok ()
    | cons m rest ih => exact fun folded => (Elsewhere.refuse rfl).bind fun _ => ih _
  exact (Elsewhere.refuse rfl).bind fun _ => (Elsewhere.refuse rfl).bind fun _ => hfolded matched []

theorem sameFile_elsewhere (m : Matched) (metadata : Stat) : Elsewhere (sameFile m metadata) := by
  unfold sameFile
  split
  · split
    · exact Elsewhere.ok _
    · exact Elsewhere.error rfl
  · exact Elsewhere.error rfl

end

/-! ### Programs -/

section
variable {s : CollectContext} {spec : ArtifactSpec} {config : ArtifactsConfig} {α β : Type}

def FailsElsewhere (x : EStateM Halt Store α) : Prop :=
  Triple (fun _ => True) x (fun _ _ => True) fun e _ => e.elsewhere = true

namespace FailsElsewhere

theorem pure (a : α) : FailsElsewhere (Pure.pure a) :=
  Triple.pure fun _ hw => hw

theorem throw {e : Halt} (h : e.elsewhere = true) : FailsElsewhere (MonadExcept.throw e : EStateM _ _ α) :=
  Triple.throw fun _ _ => h

theorem bind {x : EStateM Halt Store α} {f : α → EStateM Halt Store β} (hx : FailsElsewhere x)
    (hf : ∀ a, FailsElsewhere (f a)) : FailsElsewhere (x >>= f) :=
  Triple.bind hx hf

theorem check {x : Except ArtifactError α} (h : Elsewhere x) : FailsElsewhere (check x) := by
  apply Triple.ofExcept
  · exact fun _ _ _ hw => hw
  · intro e w he _
    cases x with
    | ok a => cases he
    | error error =>
      cases he
      exact h error rfl

theorem attempt {error : ArtifactError} {x : EStateM Errno Store α} (h : error.elsewhere = true) :
    FailsElsewhere (attempt error x) :=
  Triple.adaptExcept (Triple.any.onError fun _ _ _ => h)

theorem checkCancelled : FailsElsewhere (checkCancelled s) := by
  intro w _
  show Ends _ _ (Artifacts.checkCancelled s w)
  unfold Artifacts.checkCancelled
  split
  · rfl
  · trivial

theorem cleanUp {x : EStateM Halt Store α} {y : EStateM Errno Store β} (hx : FailsElsewhere x) :
    FailsElsewhere (tryCatch x fun e => do
      let _ ← outcome y
      MonadExcept.throw e) := by
  apply Triple.tryCatch hx
  intro e w he
  have hpass : Triple (fun _ : Store => e.elsewhere = true) (do
      let _ ← outcome y
      MonadExcept.throw e : EStateM Halt Store α) (fun _ _ => True) fun e _ => e.elsewhere = true := by
    refine Triple.bind (Q := fun _ _ => e.elsewhere = true) ?_ fun _ => Triple.throw fun _ hw => hw
    exact Triple.outcome_of_either (Triple.any.mono (fun _ hw => hw) (fun _ _ _ => he) fun _ _ _ => he)
  exact hpass w he

end FailsElsewhere

theorem traverse_failsElsewhere (items : List WalkItem) :
    ∀ t : Traversal, FailsElsewhere (traverse s spec config t items) := by
  induction items with
  | nil => exact fun t => .pure t
  | cons item rest ih =>
    exact fun t => FailsElsewhere.checkCancelled.bind fun _ =>
      (FailsElsewhere.check (visit_elsewhere t item)).bind fun t' => ih t'

theorem applyRestrictedPatterns_failsElsewhere (matched : List Matched) :
    FailsElsewhere (applyRestrictedPatterns s config matched) := by
  have heach : ∀ matched, FailsElsewhere (checkEach s matched) := by
    intro matched
    induction matched with
    | nil => exact .pure ()
    | cons m rest ih => exact FailsElsewhere.checkCancelled.bind fun _ => ih
  unfold applyRestrictedPatterns
  split
  · exact .pure _
  · exact (FailsElsewhere.check (compilePatterns_elsewhere _ _)).bind fun _ =>
      (heach matched).bind fun _ => .pure _

theorem openComponents_failsElsewhere (relative components : List Text) :
    ∀ parent, FailsElsewhere (openComponents s relative parent components) := by
  have hname : ∀ name : Text, FailsElsewhere (check (refuse (nul ∈ name) (.unsupportedFile relative))) :=
    fun name => FailsElsewhere.check (.refuse rfl)
  induction components with
  | nil => exact fun parent => .throw rfl
  | cons name rest ih =>
    intro parent
    cases rest with
    | nil =>
      refine (hname name).bind fun _ => (FailsElsewhere.attempt rfl).bind fun opened => ?_
      cases opened with
      | none => exact .throw rfl
      | some file => exact .pure file
    | cons next rest =>
      exact (hname name).bind fun _ => (FailsElsewhere.attempt rfl).bind fun child =>
        (FailsElsewhere.attempt rfl).bind fun metadata =>
          (FailsElsewhere.check (.refuse rfl)).bind fun _ => ih child

theorem openEach_failsElsewhere (root : Descriptor) (matched : List Matched) :
    FailsElsewhere (openEach s root matched) := by
  have hone : ∀ m, FailsElsewhere (openMatchedArtifact s root m) := by
    intro m
    have hfile : FailsElsewhere (openFileBeneath s root m.relative) :=
      (FailsElsewhere.check (.refuse rfl)).bind fun _ => openComponents_failsElsewhere _ _ root
    exact FailsElsewhere.checkCancelled.bind fun _ => hfile.bind fun file =>
      (FailsElsewhere.attempt rfl).bind fun metadata =>
        (FailsElsewhere.check (sameFile_elsewhere m metadata)).bind fun _ =>
          (FailsElsewhere.attempt rfl).bind fun _ => .pure _
  induction matched with
  | nil => exact .pure []
  | cons m rest ih => exact (hone m).bind fun artifact => ih.bind fun artifacts => .pure _

theorem writeZip_failsElsewhere {error : ArtifactError} (h : error.elsewhere = true)
    (files : List ArchivedFile) : FailsElsewhere (writeZip s config error files) :=
  (FailsElsewhere.check (.refuse rfl)).bind fun _ => FailsElsewhere.attempt h

theorem copyArtifact_failsElsewhere (files : List ArchivedFile) (name : Text) (mode : Nat)
    (file : Reading) (fuel : Nat) :
    ∀ content uncompressed,
      FailsElsewhere (copyArtifact s config files name mode file fuel content uncompressed) := by
  induction fuel with
  | zero => exact fun content uncompressed => .throw rfl
  | succ fuel ih =>
    intro content uncompressed
    have hread : FailsElsewhere (readArtifact s file content.length) :=
      (FailsElsewhere.attempt rfl).bind fun bytes => FailsElsewhere.bind
        (Triple.modify fun _ hw => hw) fun _ => .pure bytes
    refine FailsElsewhere.checkCancelled.bind fun _ => hread.bind fun bytes => ?_
    split
    · exact .pure _
    · exact (FailsElsewhere.check (.refuse rfl)).bind fun _ =>
        (writeZip_failsElsewhere rfl _).bind fun _ => ih _ _

theorem writeArtifacts_failsElsewhere (artifacts : List OpenedArtifact) :
    ∀ files uncompressed, FailsElsewhere (writeArtifacts s config files uncompressed artifacts) := by
  induction artifacts with
  | nil => exact fun files uncompressed => .pure files
  | cons artifact rest ih =>
    exact fun files uncompressed => FailsElsewhere.checkCancelled.bind fun _ =>
      (FailsElsewhere.check (.refuse rfl)).bind fun _ => (writeZip_failsElsewhere rfl _).bind fun _ =>
        (FailsElsewhere.attempt rfl).bind fun _ =>
          (copyArtifact_failsElsewhere _ _ _ _ _ _ _).bind fun _ => ih _ _

theorem publish_failsElsewhere (opened : List OpenedArtifact) :
    FailsElsewhere (publish s config opened) := by
  have hfill : FailsElsewhere (fillArchive s config opened) :=
    (FailsElsewhere.attempt rfl).bind fun _ => (writeArtifacts_failsElsewhere _ _ _).bind fun files =>
      (writeZip_failsElsewhere rfl files).bind fun _ => (FailsElsewhere.attempt rfl).bind fun _ =>
        (FailsElsewhere.attempt rfl).bind fun _ => .pure _
  exact FailsElsewhere.checkCancelled.bind fun _ => hfill.cleanUp.bind fun size =>
    (FailsElsewhere.attempt rfl).bind fun _ => FailsElsewhere.checkCancelled.bind fun _ =>
      (FailsElsewhere.attempt rfl).bind fun _ => FailsElsewhere.checkCancelled.bind fun _ => .pure size

end

end IndenturedServer.Artifacts
