import IndenturedServer.Source.Client
import IndenturedServer.Source.Specification

/-!
What the client has packaged.

The planner of the client and the preflight of the server keep different sets,
but what a turn of either has checked is the same (`Preflight.Checked`): the
client's sets are those of the preflight that hold folded paths. A package is
therefore a list of entries, compatible with each other, each with the content
that was read for it, and not larger than the client allows.
-/

namespace IndenturedServer.Source.Client

open Foundation PlannedEntry List

/-! ### Names -/

structure ValidPath (path : Text) : Prop where
  ascii : isAscii path = true
  noBackslash : backslash ∉ path
  noNul : nul ∉ path
  named : ∀ part ∈ path.splitOn slash, part ≠ [] ∧ part ≠ [dot] ∧ part ≠ [dot, dot]
  depth : (path.splitOn slash).length ≤ maxDepth

theorem validateArchivePath_ok {path : Text} (h : validateArchivePath path = .ok ()) :
    ValidPath path := by
  simp only [validateArchivePath, bind_eq_ok, refuse_eq_ok, exists_const, not_or, not_exists,
    not_and] at h
  obtain ⟨⟨-, -, hascii, hbackslash, hnul⟩, hdepth, hparts, -⟩ := h
  exact
    { ascii := by simpa using hascii
      noBackslash := hbackslash
      noNul := hnul
      named := fun part hpart => ⟨(hparts part hpart).1, (hparts part hpart).2.1,
        (hparts part hpart).2.2.1⟩
      depth := Nat.le_of_not_lt hdepth }

variable {linkPath : Text}

/-- Client and server agree on the targets of links. -/
theorem targetStays_ok {target : Text} {depth : Nat} {parts : List Component}
    (h : targetStays linkPath target depth parts = .ok ()) :
    Source.targetStays linkPath target depth parts = .ok () := by
  fun_induction targetStays linkPath target depth parts with
  | case1 depth => rfl
  | case2 depth rest ih => exact ih h
  | case3 depth name rest ih => exact ih h
  | case4 depth rest ih => exact ih h
  | case5 rest => cases h
  | case6 depth rest => cases h

theorem validateSymlinkTarget_ok {target : Text}
    (h : validateSymlinkTarget linkPath target = .ok ()) :
    Source.validateSymlinkTarget linkPath target = .ok () ∧ target.length ≤ 4096 := by
  simp only [validateSymlinkTarget, bind_eq_ok, refuse_eq_ok, exists_const] at h
  obtain ⟨hrefuse, hstays⟩ := h
  refine ⟨?_, by omega⟩
  simp only [Source.validateSymlinkTarget, bind_eq_ok, failIf_eq_ok, exists_const]
  exact ⟨hrefuse, targetStays_ok hstays⟩

/-! ### The plan -/

/-- A planned entry as the server sees its path. -/
def PlannedEntry.entry (e : PlannedEntry) : Entry :=
  { name := e.path, isDir := false, isSymlink := false, unixMode := none, size := 0, reads := [] }

/-- The client's sets, as those of the preflight that they are. -/
def Planner.preflight (s : Planner) : Preflight :=
  { exact := s.exact, folded := s.folded, foldedFiles := s.files, foldedDirectories := s.directories }

variable {e : PlannedEntry} {es : List PlannedEntry}

namespace Planner

variable {s t : Planner}

theorem insertAncestors_ok {done rest : List Text} (hparts : ∀ part ∈ done ++ rest, part ≠ [])
    (h : s.insertAncestors (join done) rest = .ok t) :
    (∀ q, q <+: rest → q ≠ [] → join ((done ++ q).map toAsciiLowercase) ∉ s.files ∧
      join ((done ++ q).map toAsciiLowercase) ∈ t.directories) ∧
    s.directories ⊆ t.directories ∧ t.folded = s.folded ∧ t.files = s.files := by
  induction rest generalizing s done with
  | nil =>
    obtain rfl : s = t := Except.ok.inj h
    refine ⟨fun q hq hne => ?_, Subset.refl _, rfl, rfl⟩
    exact absurd (prefix_nil.mp hq) hne
  | cons part rest ih =>
    have hassoc : ∀ q, done ++ part :: q = done ++ [part] ++ q := by simp
    rw [insertAncestors, join_step part fun p hp => hparts p (mem_append_left _ hp)] at h
    simp only [bind_eq_ok, refuse_eq_ok, exists_const, toAsciiLowercase_join] at h
    obtain ⟨hfile, hrest⟩ := h
    obtain ⟨hall, hsub, hfolded, hfiles⟩ := ih (by rwa [← hassoc]) hrest
    refine ⟨fun q hq hne => ?_, fun d hd => hsub (mem_cons_of_mem _ hd), hfolded, hfiles⟩
    obtain rfl | ⟨q', rfl, hq'⟩ := prefix_cons_iff.mp hq
    · exact absurd rfl hne
    · rw [hassoc]
      by_cases hempty : q' = []
      · rw [hempty, append_nil]
        exact ⟨hfile, hsub mem_cons_self⟩
      · exact hall q' hq' hempty

theorem entry_checked (h : s.entry e = .ok t) :
    ValidPath e.path ∧ Preflight.Checked s.preflight t.preflight e.entry := by
  simp only [Planner.entry, bind_eq_ok, refuse_eq_ok, exists_const, pure, Except.pure,
    Except.ok.injEq, not_or] at h
  obtain ⟨⟨⟩, hpath, ⟨-, hnew⟩, m, hm, hdirectory, rfl⟩ := h
  have hvalid := validateArchivePath_ok hpath
  have hnamed : e.entry.Named := hvalid.named
  have hlower : toAsciiLowercase e.path = join e.entry.folded := e.entry.lowercase_trimmed
  have hparts : ∀ part ∈ [] ++ e.entry.path.dropLast, part ≠ [] :=
    fun part hpart => (hnamed part (mem_of_mem_dropLast hpart)).1
  obtain ⟨hancestors, hsub, hfolded, hfiles⟩ := insertAncestors_ok hparts hm
  rw [hlower] at hnew hdirectory hfolded
  have hproper : ∀ q, q <+: e.entry.folded → q ≠ [] → q ≠ e.entry.folded →
      join q ∉ s.files ∧ join q ∈ m.directories := by
    intro q hq hne hproper
    obtain ⟨p, hp, rfl⟩ := Preflight.ancestor_path hq hproper
    exact hancestors p hp (by simpa using hne)
  refine ⟨hvalid, ?_⟩
  exact
    { admissible := ⟨hnamed, by simp [PlannedEntry.entry]⟩
      isNew := hnew
      noFile := fun q hq hne hq' => (hproper q hq hne hq').1
      noDirectory := fun _ hmem => hdirectory (hsub hmem)
      folded := by simp [preflight, hfolded]
      foldedFiles := by simp [preflight, hfiles]
      foldedDirectories := hsub
      file := fun _ => by simp [preflight, hlower]
      ancestors := fun q hq hne hq' => (hproper q hq hne hq').2
      directory := by simp [PlannedEntry.entry] }

theorem planned {before : List PlannedEntry}
    (hs : s.preflight.Describes (before.map PlannedEntry.entry))
    (h : es.foldlM Planner.entry s = .ok t) :
    (∀ e ∈ es, ValidPath e.path) ∧ (es.map PlannedEntry.entry).Pairwise Compatible ∧
      ∀ b ∈ before, ∀ e ∈ es, Compatible b.entry e.entry := by
  induction es generalizing s before with
  | nil => simp
  | cons e es ih =>
    rw [foldlM_cons, bind_eq_ok] at h
    obtain ⟨m, hm, hrest⟩ := h
    obtain ⟨hvalid, hchecked⟩ := entry_checked hm
    have hnext : m.preflight.Describes ((before ++ [e]).map PlannedEntry.entry) := by
      simpa using hchecked.describes hs
    obtain ⟨hall, hpairwise, hbefore⟩ := ih hnext hrest
    refine ⟨by simpa [hvalid] using hall, ?_, fun b hb e' he' => ?_⟩
    · rw [map_cons, pairwise_cons]
      exact ⟨by simpa using hbefore e (by simp), hpairwise⟩
    · obtain rfl | he' := mem_cons.mp he'
      · exact hchecked.compatible hs (mem_map.mpr ⟨b, hb, rfl⟩)
      · exact hbefore b (by simp [hb]) e' he'

end Planner

/-- The plan passes. -/
structure Planned (es : List PlannedEntry) : Prop where
  count : es.length ≤ maxFiles
  valid : ∀ e ∈ es, ValidPath e.path
  compatible : (es.map PlannedEntry.entry).Pairwise Compatible

theorem validatePlannedEntries_ok {sorted : List PlannedEntry}
    (h : validatePlannedEntries es = .ok sorted) : Planned sorted := by
  simp only [validatePlannedEntries, bind_eq_ok, refuse_eq_ok, exists_const, pure, Except.pure,
    Except.ok.injEq] at h
  obtain ⟨hcount, t, ht, rfl⟩ := h
  have hnone : Preflight.Describes (Planner.preflight {}) ([].map PlannedEntry.entry) :=
    ⟨by simp, by simp, by simp, by simp⟩
  obtain ⟨hvalid, hpairwise, -⟩ := Planner.planned hnone ht
  refine ⟨?_, hvalid, hpairwise⟩
  rw [sortByPath, length_insertionSort]
  exact Nat.le_of_not_lt hcount

variable {es' : List PlannedEntry}

theorem Planned.congr (h : Planned es)
    (hpaths : es'.map path = es.map path) : Planned es' := by
  have hentries : es'.map entry = es.map entry := by
    have hfactor : ∀ l : List PlannedEntry, l.map entry =
        (l.map path).map fun path => entry ⟨path, .file, false, none⟩ := by
      intro l
      simp [entry]
    rw [hfactor, hfactor, hpaths]
  refine ⟨?_, fun e he => ?_, hentries ▸ h.compatible⟩
  · have hlength := congrArg length hpaths
    rw [length_map, length_map] at hlength
    rw [hlength]
    exact h.count
  · have hmem : e.path ∈ es.map path := by
      rw [← hpaths]
      exact mem_map.mpr ⟨e, he, rfl⟩
    obtain ⟨b, hb, hpath⟩ := mem_map.mp hmem
    exact hpath ▸ h.valid b hb

/-! ### What is written -/

theorem addTotal_ok {total amount t : Nat} (h : addTotal total amount = .ok t) :
    t = total + amount ∧ t ≤ maxUncompressedBytes := by
  simp only [addTotal, bind_eq_ok, refuse_eq_ok, exists_const, pure, Except.pure,
    Except.ok.injEq] at h
  unfold saturatingAdd maxUncompressedBytes at *
  omega

theorem stream_ok {total t : Nat} {reads : List (Option Text)} {bytes : Text}
    (h : stream total reads = .ok (t, bytes)) (htotal : total ≤ maxUncompressedBytes) :
    bytes = content reads ∧ t = total + bytes.length ∧ t ≤ maxUncompressedBytes := by
  induction reads generalizing total t bytes with
  | nil =>
    obtain ⟨rfl, rfl⟩ := Prod.mk.inj (Except.ok.inj h)
    exact ⟨rfl, rfl, htotal⟩
  | cons read rest ih =>
    cases read with
    | none => cases h
    | some chunk =>
      by_cases hempty : chunk = []
      · simp only [stream, hempty, if_true, Except.ok.injEq, Prod.mk.injEq] at h
        obtain ⟨rfl, rfl⟩ := h
        exact ⟨by simp [content, hempty], rfl, htotal⟩
      · simp only [stream, hempty, if_false, bind_eq_ok, pure, Except.pure, Except.ok.injEq,
          Prod.mk.injEq, Prod.exists] at h
        obtain ⟨total', htotal', t', more, hmore, rfl, rfl⟩ := h
        obtain ⟨rfl, hmax⟩ := addTotal_ok htotal'
        obtain ⟨rfl, rfl, hle⟩ := ih hmore hmax
        refine ⟨by simp [content, hempty], ?_, hle⟩
        rw [length_append]
        omega

inductive Packs (mode : Mode) (e : PlannedEntry) (w : Written) : Prop
  | file (hkind : e.kind = .file)
      (hw : w = ⟨e.path, regularMode e.executable, mode.bytes e.path⟩)
  | symlink (target : Text) (hkind : e.kind = .symlink)
      (htarget : mode.target e.path = some target) (hutf8 : isUtf8 target = true)
      (hvalid : validateSymlinkTarget e.path target = .ok ())
      (hw : w = ⟨e.path, symlinkMode, target⟩)

variable {mode : Mode} {acc : List Written} {r : Nat × List Written}

theorem packs_of_foldlM
    {step : Nat × List Written → PlannedEntry → Except PackageError (Nat × List Written)}
    (hstep : ∀ e ∈ es, ∀ total acc r, total ≤ maxUncompressedBytes → step (total, acc) e = .ok r →
      ∃ w, Packs mode e w ∧ r = (total + w.content.length, acc ++ [w]) ∧
        total + w.content.length ≤ maxUncompressedBytes) {total : Nat}
    (htotal : total ≤ maxUncompressedBytes) (h : es.foldlM step (total, acc) = .ok r) :
    ∃ ws, Forall₂ (Packs mode) es ws ∧ r.2 = acc ++ ws ∧
      total + (ws.map fun w => w.content.length).sum ≤ maxUncompressedBytes := by
  induction es generalizing total acc with
  | nil =>
    obtain rfl := Except.ok.inj h
    exact ⟨[], .nil, by simp, by simpa using htotal⟩
  | cons e es ih =>
    rw [foldlM_cons, bind_eq_ok] at h
    obtain ⟨m, hm, hrest⟩ := h
    obtain ⟨w, hpacks, rfl, hle⟩ := hstep e (by simp) total acc m htotal hm
    obtain ⟨ws, hws, hr, hsum⟩ :=
      ih (fun e' he' => hstep e' (mem_cons_of_mem _ he')) hle hrest
    refine ⟨w :: ws, .cons hpacks hws, by simp [hr], ?_⟩
    rw [map_cons, sum_cons]
    omega

/-- The target of a planned symlink is the one that `jj` has made. -/
def Populated (jj : Jujutsu) (e : PlannedEntry) : Prop :=
  e.kind = .symlink → ∀ target, e.symlinkTarget = some target →
    jj.readLink e.path = some target ∧ isUtf8 target = true ∧
    validateSymlinkTarget e.path target = .ok ()

variable {jj : Jujutsu}

theorem populateTarget_ok {e' : PlannedEntry} (h : populateTarget jj e = .ok e') :
    e'.path = e.path ∧ Populated jj e' := by
  cases hkind : e.kind with
  | file =>
    simp only [populateTarget, hkind, Except.ok.injEq] at h
    subst h
    exact ⟨rfl, fun hlink => by simp [hkind] at hlink⟩
  | symlink =>
    simp only [populateTarget, hkind] at h
    split at h
    case h_2 => cases h
    case h_1 isSymlink _ =>
      simp only [bind_eq_ok, refuse_eq_ok, exists_const] at h
      obtain ⟨-, h⟩ := h
      split at h
      case h_2 => cases h
      case h_1 target htarget =>
        simp only [bind_eq_ok, refuse_eq_ok, exists_const, Bool.not_eq_false, pure, Except.pure,
          Except.ok.injEq] at h
        obtain ⟨hutf8, ⟨⟨⟩, hvalid, rfl⟩⟩ := h
        refine ⟨rfl, fun _ t ht => ?_⟩
        obtain rfl : target = t := Option.some.inj ht
        exact ⟨htarget, hutf8, hvalid⟩

theorem populate_ok (h : populateJjSymlinkTargets jj es = .ok es') :
    es'.map path = es.map path ∧ ∀ e ∈ es', Populated jj e := by
  simp only [populateJjSymlinkTargets, bind_eq_ok, refuse_eq_ok, exists_const] at h
  obtain ⟨-, h⟩ := h
  induction es generalizing es' with
  | nil =>
    obtain rfl := Except.ok.inj h
    simp
  | cons e es ih =>
    simp only [mapM_cons, bind_eq_ok, pure, Except.pure, Except.ok.injEq] at h
    obtain ⟨e', he', rest, hrest, rfl⟩ := h
    obtain ⟨hpath, hpopulated⟩ := populateTarget_ok he'
    obtain ⟨hpaths, hall⟩ := ih hrest
    exact ⟨by simp [hpath, hpaths], by simpa [hpopulated] using hall⟩

theorem packageJjEntry_ok {listing : List JjEntry} (he : Populated jj e) {total : Nat}
    (htotal : total ≤ maxUncompressedBytes) (h : packageJjEntry jj (total, acc) e = .ok r) :
    ∃ w, Packs (.jujutsu jj listing) e w ∧ r = (total + w.content.length, acc ++ [w]) ∧
      total + w.content.length ≤ maxUncompressedBytes := by
  cases hkind : e.kind with
  | file =>
    simp only [packageJjEntry, hkind, bind_eq_ok, pure, Except.pure, Except.ok.injEq,
      Prod.exists] at h
    obtain ⟨t, bytes, hstream, rfl⟩ := h
    obtain ⟨rfl, rfl, hle⟩ := stream_ok hstream htotal
    exact ⟨_, .file hkind rfl, rfl, hle⟩
  | symlink =>
    simp only [packageJjEntry, hkind] at h
    split at h
    case h_2 => cases h
    case h_1 target htarget =>
      simp only [bind_eq_ok, pure, Except.pure, Except.ok.injEq] at h
      obtain ⟨t, ht, rfl⟩ := h
      obtain ⟨rfl, hle⟩ := addTotal_ok ht
      obtain ⟨hread, hutf8, hvalid⟩ := he hkind target htarget
      exact ⟨_, .symlink target hkind hread hutf8 hvalid rfl, rfl, hle⟩

theorem packageFilesystemEntry_ok {fs : Filesystem} {total : Nat}
    (htotal : total ≤ maxUncompressedBytes) (h : packageFilesystemEntry fs (total, acc) e = .ok r) :
    ∃ w, Packs (.filesystem fs) e w ∧ r = (total + w.content.length, acc ++ [w]) ∧
      total + w.content.length ≤ maxUncompressedBytes := by
  cases hkind : e.kind with
  | file =>
    simp only [packageFilesystemEntry, hkind] at h
    split at h
    case h_2 => cases h
    case h_1 before _ =>
      split at h
      case h_2 => cases h
      case h_1 opened _ =>
        simp only [bind_eq_ok, refuse_eq_ok, exists_const, Prod.exists] at h
        obtain ⟨-, t, bytes, hstream, h⟩ := h
        split at h
        case h_2 => cases h
        case h_1 after _ =>
          simp only [bind_eq_ok, refuse_eq_ok, exists_const, pure, Except.pure,
            Except.ok.injEq] at h
          obtain ⟨-, rfl⟩ := h
          obtain ⟨rfl, rfl, hle⟩ := stream_ok hstream htotal
          exact ⟨_, .file hkind rfl, rfl, hle⟩
  | symlink =>
    simp only [packageFilesystemEntry, hkind] at h
    split at h
    case h_2 => cases h
    case h_1 target htarget =>
      simp only [bind_eq_ok, refuse_eq_ok, exists_const, Bool.not_eq_false, pure, Except.pure,
        Except.ok.injEq] at h
      obtain ⟨hutf8, -, ⟨⟨⟩, hvalid, t, ht, rfl⟩⟩ := h
      obtain ⟨rfl, hle⟩ := addTotal_ok ht
      exact ⟨_, .symlink target hkind htarget hutf8 hvalid rfl, rfl, hle⟩

theorem package_ok {pkg : Package} (h : package mode = .ok pkg) :
    Planned pkg.planned ∧ Forall₂ (Packs mode) pkg.planned pkg.written ∧
      (pkg.written.map fun w => w.content.length).sum ≤ maxUncompressedBytes := by
  cases mode with
  | jujutsu jj listing =>
    simp only [package, packageJj, bind_eq_ok, pure, Except.pure, Except.ok.injEq,
      Prod.exists] at h
    obtain ⟨raw, -, sorted, hsorted, planned, hpopulate, total, written, hfold, rfl⟩ := h
    obtain ⟨hpaths, hpopulated⟩ := populate_ok hpopulate
    obtain ⟨ws, hws, rfl, hsum⟩ := packs_of_foldlM
      (fun e he total acc r htotal hr => packageJjEntry_ok (hpopulated e he) htotal hr)
      (Nat.zero_le _) hfold
    rw [Nat.zero_add] at hsum
    exact ⟨(validatePlannedEntries_ok hsorted).congr hpaths, hws, hsum⟩
  | filesystem fs =>
    simp only [package, packageFilesystem, bind_eq_ok, refuse_eq_ok, exists_const, pure,
      Except.pure, Except.ok.injEq, Prod.exists] at h
    obtain ⟨first, -, sorted, hsorted, total, written, hfold, second, -, -, rfl⟩ := h
    obtain ⟨ws, hws, rfl, hsum⟩ := packs_of_foldlM
      (fun e he total acc r htotal hr => packageFilesystemEntry_ok htotal hr) (Nat.zero_le _) hfold
    rw [Nat.zero_add] at hsum
    exact ⟨validatePlannedEntries_ok hsorted, hws, hsum⟩

end IndenturedServer.Source.Client
