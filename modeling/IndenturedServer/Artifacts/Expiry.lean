import IndenturedServer.Artifacts.Gc

/-!
What the TTL pass removes.

A directory without a file has the time `UNIX_EPOCH`. A directory that a
collection has just made is therefore older than any cutoff, and what the scan
has seen is not looked at again. `live_directory_removed` has a run for each of
the two. `ttl_pass_spares_live` says when the pass removes only what it should:
when no collection has to do with a directory between its scan and the end of
the pass, and the clock is not set back during the pass.

The invariant is what the collector knows of the directories that it has read:
no file that has been looked at is newer than the time that was noted.
-/

namespace IndenturedServer.Artifacts.Gc

open Foundation Source Option

namespace GcState

/-! ### What the pass is for -/

/-- The directory that the TTL pass removes in this step, or tries to. -/
def expires (s : GcState) : GcEvent → Option BuildId
  | .gc (.remove _) =>
    match s.gc with
    | .expiring cutoff (entry :: _) _ => if entry.modified < cutoff then some entry.path else none
    | _ => none
  | _ => none

/-- No collection is at work on the directory, and no file in it is younger than
the TTL. -/
structure Expired (cfg : GcConfig) (s : GcState) (id : BuildId) : Prop where
  idle : s.collections id = .idle
  old : ∀ dir ∈ s.dirs id, ∀ name, ∀ file ∈ dir name, file.modified + cfg.ttl ≤ s.now

def Spares (cfg : GcConfig) (s : GcState) (e : GcEvent) : Prop :=
  ∀ id ∈ s.expires e, Expired cfg s id

end GcState

/-! ### What the scan has seen -/

/-- What is known of a directory: but for the files that are left, none is newer. -/
structure Scan where
  path : BuildId
  left : List ArtifactName
  newest : Nat

def ArtifactEntry.scan (entry : ArtifactEntry) : Scan :=
  ⟨entry.path, [], entry.modified⟩

/-- The directories that have been read and not dealt with. -/
def GcPc.scans : GcPc → List Scan
  | .listing entries | .walking _ entries | .readClock entries => entries.map ArtifactEntry.scan
  | .statting path names _ modified entries =>
    ⟨path, names, modified⟩ :: entries.map ArtifactEntry.scan
  | .expiring _ todo _ => todo.map ArtifactEntry.scan
  | .idle | .evicting _ _ => []

/-- The directory that is read next. -/
def GcPc.next : GcPc → Option BuildId
  | .walking path _ => some path
  | _ => none

def GcPc.cutoff : GcPc → Option Nat
  | .expiring cutoff _ _ => some cutoff
  | _ => none

namespace GcState

/-- No collection has to do with a directory from its scan to the end of the TTL
pass, and the clock is not set back during the pass. -/
def Calm (s : GcState) : GcEvent → Prop
  | .clock time => s.gc.cutoff.isSome → s.now ≤ time
  | .collect id _ => ∀ scan ∈ s.gc.scans, scan.path ≠ id
  | .gc .proceed => ∀ path ∈ s.gc.next, s.collections path = .idle
  | .gc _ => True

instance (s : GcState) : (e : GcEvent) → Decidable (s.Calm e)
  | .clock time => inferInstanceAs (Decidable (s.gc.cutoff.isSome → s.now ≤ time))
  | .collect id _ => inferInstanceAs (Decidable (∀ scan ∈ s.gc.scans, scan.path ≠ id))
  | .gc .proceed => inferInstanceAs (Decidable (∀ path ∈ s.gc.next, s.collections path = .idle))
  | .gc (.visit _) | .gc .fail | .gc (.remove _) => isTrue trivial

end GcState

structure Scan.Holds (scan : Scan) (s : GcState) : Prop where
  idle : s.collections scan.path = .idle
  newest : ∀ dir ∈ s.dirs scan.path, ∀ name ∉ scan.left, ∀ file ∈ dir name,
    file.modified ≤ scan.newest

variable {id : BuildId} {pc : CollectPc} {answer : Removal}

namespace GcState

structure Inv (cfg : GcConfig) (s : GcState) : Prop where
  scans : ∀ scan ∈ s.gc.scans, scan.Holds s
  cutoff : ∀ cutoff ∈ s.gc.cutoff, cutoff ≤ s.now - cfg.ttl

variable {cfg : GcConfig} {s s' : GcState}

/-- What a step of a collection leaves alone. -/
structure OnlyAt (id : BuildId) (s s' : GcState) : Prop where
  gc : s'.gc = s.gc
  now : s'.now = s.now
  dirs : ∀ other ≠ id, s'.dirs other = s.dirs other
  collections : ∀ other ≠ id, s'.collections other = s.collections other

theorem OnlyAt.goto (s : GcState) (id : BuildId) (pc : CollectPc) : OnlyAt id s (s.goto id pc) where
  gc := rfl
  now := rfl
  dirs _ _ := rfl
  collections _ hother := Function.update_of_ne hother ..

theorem OnlyAt.setDir (h : OnlyAt id s s') (dir : Option ArtifactDir) :
    OnlyAt id s (s'.setDir id dir) where
  gc := h.gc
  now := h.now
  dirs other hother := (Function.update_of_ne hother ..).trans (h.dirs other hother)
  collections := h.collections

theorem OnlyAt.refl (s : GcState) (id : BuildId) : OnlyAt id s s :=
  ⟨rfl, rfl, fun _ _ => rfl, fun _ _ => rfl⟩

theorem succeedStep_onlyAt {dir : Option ArtifactDir} (h : s.succeedStep id pc dir = some s') :
    OnlyAt id s s' := by
  cases pc with
  | idle => cases h
  | cleanUp => cases h
  | writing => cases h; exact .goto s id _
  | published => cases h; exact .goto s id _
  | createDirectory => cases h; exact (OnlyAt.goto s id _).setDir _
  | protectDirectory =>
    cases dir with
    | none => cases h
    | some dir => cases h; exact .goto s id _
  | createTemp =>
    cases dir with
    | none => cases h
    | some dir => cases h; exact (OnlyAt.goto s id _).setDir _
  | removeTemp =>
    cases dir with
    | none => cases h
    | some dir => cases h; exact (OnlyAt.goto s id _).setDir _
  | protectTemp =>
    cases dir with
    | none => cases h
    | some dir =>
      obtain ⟨-, ⟨⟩⟩ := ite_none_right_eq_some.mp h
      exact .goto s id _
  | rename =>
    cases dir with
    | none => cases h
    | some dir =>
      obtain ⟨-, ⟨⟩⟩ := ite_none_right_eq_some.mp h
      exact (OnlyAt.goto s id _).setDir _

theorem removeDirAll_onlyAt (h : s.removeDirAll id answer = some s') :
    OnlyAt id s s' ∧ s'.collections = s.collections := by
  cases answer with
  | complete =>
    obtain ⟨-, ⟨⟩⟩ := ite_none_right_eq_some.mp h
    exact ⟨(OnlyAt.refl s id).setDir _, rfl⟩
  | failed gone =>
    cases h
    exact ⟨(OnlyAt.refl s id).setDir _, rfl⟩

theorem OnlyAt.andGoto (h : OnlyAt id s s') (pc : CollectPc) : OnlyAt id s (s'.goto id pc) where
  gc := h.gc
  now := h.now
  dirs := h.dirs
  collections other hother := (Function.update_of_ne hother ..).trans (h.collections other hother)

theorem collectStep_onlyAt {step : CollectStep} (h : s.collectStep id step = some s') :
    OnlyAt id s s' := by
  cases step with
  | begin =>
    obtain ⟨-, ⟨⟩⟩ := ite_none_right_eq_some.mp h
    exact .goto s id _
  | succeed => exact succeedStep_onlyAt h
  | write bytes =>
    obtain ⟨-, ⟨⟩⟩ := ite_none_right_eq_some.mp h
    exact (OnlyAt.refl s id).setDir _
  | fail =>
    obtain ⟨pc, -, rfl⟩ := map_eq_some_iff.mp h
    exact .goto s id pc
  | remove answer =>
    obtain ⟨-, h⟩ := ite_none_right_eq_some.mp h
    obtain ⟨removed, hremoved, rfl⟩ := map_eq_some_iff.mp h
    exact (removeDirAll_onlyAt hremoved).1.andGoto _

theorem removeDirAll_dirs {path : BuildId} {dir : ArtifactDir} {name : ArtifactName}
    {file : StoredFile} (h : s.removeDirAll id answer = some s') (hdir : s'.dirs path = some dir)
    (hfile : dir name = some file) :
    ∃ before, s.dirs path = some before ∧ before name = some file := by
  by_cases hpath : path = id
  · subst hpath
    cases answer with
    | complete =>
      obtain ⟨-, ⟨⟩⟩ := ite_none_right_eq_some.mp h
      rw [setDir_dirs_self] at hdir
      cases hdir
    | failed gone =>
      cases h
      rw [setDir_dirs_self] at hdir
      obtain ⟨before, hbefore, rfl⟩ := map_eq_some_iff.mp hdir
      exact ⟨before, hbefore, (ite_none_left_eq_some.mp hfile).2⟩
  · rw [(removeDirAll_onlyAt h).1.dirs path hpath] at hdir
    exact ⟨dir, hdir, hfile⟩

end GcState

/-! ### What is known stays true -/

namespace Scan.Holds

variable {scan : Scan} {s s' : GcState}

section
variable (h : scan.Holds s)
include h

/-- A step that leaves the directory alone, or takes files from it. -/
theorem mono (hidle : s'.collections scan.path = s.collections scan.path)
    (hdirs : ∀ dir ∈ s'.dirs scan.path, ∀ name, ∀ file ∈ dir name,
      ∃ before, s.dirs scan.path = some before ∧ before name = some file) : scan.Holds s' where
  idle := hidle.trans h.idle
  newest dir hdir name hname file hfile := by
    obtain ⟨before, hbefore, hfile⟩ := hdirs dir hdir name file hfile
    exact h.newest before hbefore name hname file hfile

theorem of_onlyAt (honly : GcState.OnlyAt id s s') (hother : scan.path ≠ id) : scan.Holds s' := by
  refine h.mono (honly.collections _ hother) fun dir hdir name file hfile => ?_
  rw [honly.dirs _ hother] at hdir
  exact ⟨dir, hdir, hfile⟩

theorem of_removal (hremoval : s.removeDirAll id answer = some s') : scan.Holds s' :=
  h.mono (congrFun (GcState.removeDirAll_onlyAt hremoval).2 _) fun _ hdir _ _ hfile =>
    GcState.removeDirAll_dirs hremoval hdir hfile

/-- What is known does not depend on where the collector is. -/
theorem setGc (pc : GcPc) : scan.Holds (s.setGc pc) :=
  ⟨h.idle, h.newest⟩

theorem setNow (time : Nat) : scan.Holds { s with now := time } :=
  ⟨h.idle, h.newest⟩

end

end Scan.Holds

namespace GcState

variable {cfg : GcConfig} {s s' : GcState}

theorem evict_scans (entries : List ArtifactEntry) :
    (evict cfg entries).scans = [] ∧ (evict cfg entries).cutoff = none := by
  unfold evict
  split
  · exact ⟨rfl, rfl⟩
  · exact ⟨rfl, rfl⟩

theorem scanned_scans {entries : List ArtifactEntry} {scan : Scan}
    (h : scan ∈ (scanned cfg entries).scans) : scan ∈ entries.map ArtifactEntry.scan := by
  unfold scanned at h
  split at h
  · cases h
  · split at h
    · rw [(evict_scans entries).1] at h
      cases h
    · exact h

theorem scanned_cutoff (entries : List ArtifactEntry) : (scanned cfg entries).cutoff = none := by
  unfold scanned
  split
  · rfl
  · split
    · exact (evict_scans entries).2
    · rfl

theorem mem_present {dir : ArtifactDir} {name : ArtifactName} {file : StoredFile}
    (h : dir name = some file) : name ∈ present dir := by
  simp only [present, List.mem_filter, h, isSome_some, and_true]
  cases name with
  | temp => simp
  | archive => simp

variable {pc' : GcPc}

/-- What the collector knows after a step that removes nothing. -/
theorem proceedStep_scans {pc : GcPc} (hpc : proceedStep cfg s pc = some pc')
    (hcalm : ∀ path ∈ pc.next, s.collections path = .idle)
    (hscans : ∀ scan ∈ pc.scans, scan.Holds s) : ∀ scan ∈ pc'.scans, scan.Holds s := by
  cases pc with
  | idle => cases hpc; exact hscans
  | listing entries =>
    cases hpc
    exact fun scan hscan => hscans scan (scanned_scans hscan)
  | walking path entries =>
    obtain ⟨dir, hdir, rfl⟩ := map_eq_some_iff.mp hpc
    rintro scan (_ | ⟨_, hscan⟩)
    · refine ⟨hcalm path rfl, fun dir' hdir' name hname file hfile => ?_⟩
      cases hdir.symm.trans hdir'
      exact absurd (mem_present hfile) hname
    · exact hscans scan hscan
  | statting path names size modified entries =>
    have hpath := hscans _ List.mem_cons_self
    have hentries := fun scan hscan => hscans scan (List.mem_cons_of_mem _ hscan)
    cases names with
    | nil =>
      cases hpc
      intro scan hscan
      simp only [GcPc.scans, List.map_append, List.mem_append, List.map_cons, List.map_nil,
        List.mem_singleton] at hscan
      obtain hscan | rfl := hscan
      · exact hentries scan hscan
      · exact hpath
    | cons name rest =>
      obtain ⟨file, hfile, rfl⟩ := map_eq_some_iff.mp hpc
      obtain ⟨dir, hdir, hfile⟩ := bind_eq_some_iff.mp hfile
      rintro scan (_ | ⟨_, hscan⟩)
      · refine ⟨hpath.idle, fun dir' hdir' name' hname' file' hfile' => ?_⟩
        cases hdir.symm.trans hdir'
        by_cases hsame : name' = name
        · subst hsame
          cases hfile.symm.trans hfile'
          exact Nat.le_max_right ..
        · have hleft : name' ∉ name :: rest := by simp [hsame, hname']
          exact (hpath.newest dir hdir name' hleft file' hfile').trans (Nat.le_max_left ..)
      · exact hentries scan hscan
  | readClock entries => cases hpc; exact hscans
  | expiring cutoff todo kept =>
    cases todo with
    | nil =>
      cases hpc
      rw [(evict_scans kept).1]
      exact nofun
    | cons entry rest =>
      obtain ⟨-, ⟨⟩⟩ := ite_none_left_eq_some.mp hpc
      exact fun scan hscan => hscans scan (List.mem_cons_of_mem _ hscan)
  | evicting total todo =>
    obtain ⟨-, ⟨⟩⟩ := ite_none_right_eq_some.mp hpc
    exact nofun

theorem proceedStep_cutoff {pc : GcPc} (hpc : proceedStep cfg s pc = some pc')
    (hcutoff : ∀ cutoff ∈ pc.cutoff, cutoff ≤ s.now - cfg.ttl) :
    ∀ cutoff ∈ pc'.cutoff, cutoff ≤ s.now - cfg.ttl := by
  cases pc with
  | idle => cases hpc; exact nofun
  | listing entries =>
    cases hpc
    rw [scanned_cutoff]
    exact nofun
  | walking path entries =>
    obtain ⟨dir, -, rfl⟩ := map_eq_some_iff.mp hpc
    exact nofun
  | statting path names size modified entries =>
    cases names with
    | nil => cases hpc; exact nofun
    | cons name rest =>
      obtain ⟨file, -, rfl⟩ := map_eq_some_iff.mp hpc
      exact nofun
  | readClock entries =>
    cases hpc
    rintro cutoff ⟨⟩
    exact Nat.le_refl _
  | expiring cutoff todo kept =>
    cases todo with
    | nil =>
      cases hpc
      rw [(evict_scans kept).2]
      exact nofun
    | cons entry rest =>
      obtain ⟨-, ⟨⟩⟩ := ite_none_left_eq_some.mp hpc
      exact hcutoff
  | evicting total todo =>
    obtain ⟨-, ⟨⟩⟩ := ite_none_right_eq_some.mp hpc
    exact nofun

theorem removeStep_scans {pc : GcPc} {entry : ArtifactEntry}
    (h : removeStep cfg answer pc = some (entry, pc')) :
    (∀ scan ∈ pc'.scans, scan ∈ pc.scans) ∧ pc'.cutoff = pc.cutoff := by
  cases pc with
  | expiring cutoff todo kept =>
    cases todo with
    | nil => cases h
    | cons first rest =>
      obtain ⟨-, ⟨⟩⟩ := ite_none_right_eq_some.mp h
      exact ⟨fun scan hscan => List.mem_cons_of_mem _ hscan, rfl⟩
  | evicting total todo =>
    cases todo with
    | nil => cases h
    | cons first rest =>
      obtain ⟨-, ⟨⟩⟩ := ite_none_right_eq_some.mp h
      exact ⟨nofun, rfl⟩
  | idle => cases h
  | listing entries => cases h
  | walking path entries => cases h
  | statting path names size modified entries => cases h
  | readClock entries => cases h

theorem Inv.gcStep {step : GcStep} (hinv : Inv cfg s) (hcalm : s.Calm (.gc step))
    (h : s.gcStep cfg step = some s') : Inv cfg s' := by
  cases step with
  | proceed =>
    obtain ⟨pc, hpc, rfl⟩ := map_eq_some_iff.mp h
    have hscans := proceedStep_scans hpc hcalm hinv.scans
    exact ⟨fun scan hscan => (hscans scan hscan).setGc pc, proceedStep_cutoff hpc hinv.cutoff⟩
  | visit path =>
    simp only [GcState.gcStep] at h
    split at h
    · next entries hgc =>
      obtain ⟨-, ⟨⟩⟩ := ite_none_right_eq_some.mp h
      refine ⟨fun scan hscan => (hinv.scans scan ?_).setGc _, nofun⟩
      rw [hgc]
      exact hscan
    · cases h
  | fail =>
    simp only [GcState.gcStep] at h
    split at h
    · cases h; exact ⟨nofun, nofun⟩
    · cases h; exact ⟨nofun, nofun⟩
    · cases h; exact ⟨nofun, nofun⟩
    · cases h
  | remove answer =>
    obtain ⟨⟨entry, pc⟩, hremove, h⟩ := bind_eq_some_iff.mp h
    obtain ⟨removed, hremoved, rfl⟩ := map_eq_some_iff.mp h
    obtain ⟨hscans, hcutoff⟩ := removeStep_scans hremove
    have honly := (removeDirAll_onlyAt hremoved).1
    refine ⟨fun scan hscan => ?_, fun cutoff hmem => ?_⟩
    · exact ((hinv.scans scan (hscans scan hscan)).of_removal hremoved).setGc pc
    · have hbound := hinv.cutoff cutoff (hcutoff ▸ hmem)
      rw [← honly.now] at hbound
      exact hbound

variable {e : GcEvent}

/-- In a calm step nothing that is known becomes wrong. -/
theorem Inv.step (hinv : Inv cfg s) (hcalm : s.Calm e) (h : s.step cfg e = some s') :
    Inv cfg s' := by
  cases e with
  | clock time =>
    cases h
    refine ⟨fun scan hscan => (hinv.scans scan hscan).setNow time, fun cutoff hmem => ?_⟩
    have hlater : s.now ≤ time := hcalm (isSome_of_mem hmem)
    exact (hinv.cutoff cutoff hmem).trans (Nat.sub_le_sub_right hlater _)
  | collect id step =>
    have honly := collectStep_onlyAt h
    refine ⟨fun scan hscan => ?_, ?_⟩
    · rw [honly.gc] at hscan
      exact (hinv.scans scan hscan).of_onlyAt honly (hcalm scan hscan)
    · rw [honly.gc, honly.now]
      exact hinv.cutoff
  | gc step => exact hinv.gcStep hcalm h

/-- What is removed in the TTL pass has been scanned and found to be old. -/
theorem Inv.spares (hinv : Inv cfg s) : Spares cfg s e := by
  intro id hid
  unfold expires at hid
  split at hid
  · split at hid
    · next cutoff entry rest kept hgc =>
      obtain ⟨hbefore, ⟨⟩⟩ := ite_none_right_eq_some.mp hid
      have hscan : entry.scan.Holds s := hinv.scans _ (by rw [hgc]; exact List.mem_cons_self)
      have hcutoff : cutoff ≤ s.now - cfg.ttl := hinv.cutoff _ (by rw [hgc]; rfl)
      refine ⟨hscan.idle, fun dir hdir name file hfile => ?_⟩
      have hnewest : file.modified ≤ entry.modified :=
        hscan.newest dir hdir name List.not_mem_nil file hfile
      omega
    · cases hid
  · cases hid

/-- In every run whose steps are calm, the TTL pass removes only directories that
no collection is at work on and whose files are all at least as old as the TTL. -/
theorem ttl_pass_spares_live (cfg : GcConfig) (s₀ : GcState) (es : List GcEvent)
    (hstart : s₀.gc = .idle) (hcalm : Meets (step cfg) Calm s₀ es) :
    Meets (step cfg) (Spares cfg) s₀ es := by
  have hinv : Inv cfg s₀ := by
    constructor
    · rw [hstart]; exact nofun
    · rw [hstart]; exact nofun
  exact Meets.of_invariant (fun _ _ _ hinv hcalm h => hinv.step hcalm h)
    (fun _ _ hinv _ => hinv.spares) hinv hcalm

/-! ### A collection and a pass at the same time -/

def hour : GcConfig := ⟨some 3600, none⟩

/-- An empty storage, on a day in 2026. -/
def someDay : GcState := { now := 1790000000000000000 }

def makesDirectory : List GcEvent :=
  [.collect "b" .begin, .collect "b" .succeed]

/-- The only directory is scanned, and the cutoff is computed. -/
def scansOnly : List GcEvent :=
  [.gc .proceed, .gc (.visit "b"), .gc .proceed, .gc .proceed, .gc .proceed, .gc .proceed]

/-- The rest of a collection that succeeds. -/
def publishes : List GcEvent :=
  [.collect "b" .succeed, .collect "b" .succeed, .collect "b" (.write 100), .collect "b" .succeed,
    .collect "b" .succeed, .collect "b" .succeed, .collect "b" .succeed]

def removal : GcEvent := .gc (.remove .complete)

/-- What is removed after a run: where its collection is, the age of its archive,
and whether it is gone. -/
def removes (s₀ : GcState) (es : List GcEvent) :
    Option (BuildId × CollectPc × Option Nat × Bool) :=
  (exec (step hour) s₀ es).bind fun s => (step hour s removal).bind fun s' =>
    (s.expires removal).map fun id =>
      (id, s.collections id, ((s.dirs id).bind fun dir => dir .archive).map (s.now - ·.modified),
        (s'.dirs id).isNone)

theorem removes_eq_some {s₀ : GcState} {es : List GcEvent} {age : Option Nat}
    (h : removes s₀ es = some (id, pc, age, true)) :
    ∃ s s', exec (step hour) s₀ es = some s ∧ step hour s removal = some s' ∧
      s.expires removal = some id ∧ s.collections id = pc ∧
      ((s.dirs id).bind fun dir => dir .archive).map (s.now - ·.modified) = age ∧
      s'.dirs id = none := by
  obtain ⟨s, hrun, h⟩ := bind_eq_some_iff.mp h
  obtain ⟨s', hstep, h⟩ := bind_eq_some_iff.mp h
  obtain ⟨id', hid, h⟩ := map_eq_some_iff.mp h
  simp only [Prod.mk.injEq, isNone_iff_eq_none] at h
  obtain ⟨rfl, hpc, hage, hgone⟩ := h
  exact ⟨s, s', hrun, hstep, hid, hpc, hage, hgone⟩

/-- A directory is scanned while it is empty and removed, first at once, then
when the collection has published its archive. In neither run does a call fail
or the clock change. -/
theorem live_directory_removed :
    (∃ s s', exec (step hour) someDay (makesDirectory ++ scansOnly) = some s ∧
      step hour s removal = some s' ∧ s.expires removal = some "b" ∧
      s.collections "b" = .protectDirectory ∧ s'.dirs "b" = none) ∧
    ∃ s s', exec (step hour) someDay (makesDirectory ++ scansOnly ++ publishes) = some s ∧
      step hour s removal = some s' ∧ s.expires removal = some "b" ∧
      s.collections "b" = .idle ∧
      ((s.dirs "b").bind fun dir => dir .archive).map (s.now - ·.modified) = some 0 ∧
      s'.dirs "b" = none := by
  have hempty : removes someDay (makesDirectory ++ scansOnly) =
      some ("b", .protectDirectory, none, true) := by decide +kernel
  have hpublished : removes someDay (makesDirectory ++ scansOnly ++ publishes) =
      some ("b", .idle, some 0, true) := by decide +kernel
  obtain ⟨s, s', hrun, hstep, hid, hpc, -, hgone⟩ := removes_eq_some hempty
  exact ⟨⟨s, s', hrun, hstep, hid, hpc, hgone⟩, removes_eq_some hpublished⟩

/-- The archive of `b` is an hour and a second old; the collection of another
directory goes on during the pass. -/
def laterPass : List GcEvent :=
  makesDirectory ++ publishes ++ [.clock 1790003601000000000, .collect "c" .begin] ++
    [.gc .proceed, .gc (.visit "b"), .gc .proceed, .collect "c" .succeed, .gc .proceed,
      .gc .proceed, .gc .proceed, .gc .proceed]

theorem ttl_pass_spares_live_later :
    removes someDay laterPass = some ("b", .idle, some 3601000000000, true) ∧
      Meets (step hour) (Spares hour) someDay (laterPass ++ [removal]) := by
  refine ⟨by decide +kernel, ttl_pass_spares_live hour someDay _ rfl ?_⟩
  decide +kernel

end GcState

end IndenturedServer.Artifacts.Gc
