import IndenturedServer.Source.Accepted

/-!
When the preflight accepts.

`Acceptable` is what an archive has to be, said without an order: how many
entries there are, what each has to be on its own, which paths exclude each
other, and how much it all comes to. The preflight is one pass that stops at
the first entry that does not go with those before it. The two meet at `FitsAfter`,
the condition on one entry and its predecessors: a turn of the loop succeeds
exactly when its entry fits, and every entry fits exactly when the archive is
acceptable. For the first half the sets of the preflight have to hold nothing
but what the entries put there, which is what `Within` says.
-/

namespace IndenturedServer.Source

open Foundation Entry Preflight List

/-! ### What an archive has to be -/

namespace Entry

/-- The name is that of a relative path, no deeper than allowed. -/
structure WellNamed (maxDepth : Nat) (e : Entry) : Prop where
  ascii : isAscii e.name = true
  noBackslash : backslash ∉ e.name
  noNul : nul ∉ e.name
  named : e.Named
  depth : e.path.length ≤ maxDepth

/-- The file type that a mode has for this kind of entry. -/
def expectedType (e : Entry) : UInt32 :=
  if e.isDir then 0o040000 else if e.isSymlink then 0o120000 else 0o100000

/-- The file type in the mode is absent, zero, or that of the entry. -/
def ModeAgrees (e : Entry) : Prop :=
  ∀ mode, e.unixMode = some mode →
    mode &&& 0o170000 = 0 ∨ mode &&& 0o170000 = e.expectedType

/-- The content is the target of a link at this path. -/
def TargetFits (e : Entry) : Prop :=
  ∃ target, readToEnd 4097 e.reads = some target ∧ target.length ≤ 4096 ∧
    isUtf8 target = true ∧ validateSymlinkTarget e.trimmed target = .ok ()

/-- The size of a file, the length of a symlink's target. -/
def declaredBytes (e : Entry) : Nat :=
  if e.isDir then 0
  else if e.isSymlink then ((readToEnd 4097 e.reads).getD []).length
  else e.size.toNat

end Entry

def declaredTotal (es : List Entry) : Nat :=
  (es.map Entry.declaredBytes).foldl saturatingAdd 0

structure Acceptable (limits : Limits) (es : List Entry) : Prop where
  count : es.length ≤ limits.maxFiles
  names : ∀ e ∈ es, e.WellNamed limits.maxDepth
  modes : ∀ e ∈ es, e.ModeAgrees
  distinct : es.Pairwise fun a b => a.folded ≠ b.folded
  noFileAbove : ∀ a ∈ es, ∀ b ∈ es, a.isDir = false → a.folded <+: b.folded → a.folded = b.folded
  targets : ∀ e ∈ es, e.isDir = false → e.isSymlink = true → e.TargetFits
  size : declaredTotal es ≤ limits.maxUncompressedBytes

/-! ### The checks on one entry -/

section
variable {e : Entry} {maxDepth : Nat} {normalized : Text}

theorem Entry.Named.trimmed_ne_nil (h : e.Named) : e.trimmed ≠ [] := by
  intro hnil
  have hpart : ([] : Text) ∈ e.path := by simp [path, hnil]
  exact (h [] hpart).1 rfl

theorem Entry.Named.name_ne_nil (h : e.Named) : e.name ≠ [] := by
  intro hnil
  apply h.trimmed_ne_nil
  simp [trimmed, hnil]

theorem Entry.Named.components (h : e.Named) :
    Source.components e.trimmed = e.path.map .normal := by
  have hparts : ∀ part ∈ e.trimmed.splitOn slash, part ≠ [] ∧ part ≠ [dot] :=
    fun part hpart => ⟨(h part hpart).1, (h part hpart).2.1⟩
  have hall : ∀ part ∈ e.path, component part = some (.normal part) :=
    fun part hpart => component_of_proper (h part hpart).1 (h part hpart).2.1 (h part hpart).2.2
  rw [components_eq hparts]
  exact (filterMap_congr hall).trans (congrFun filterMap_eq_map' _)

theorem normalizedZipPath_ok_iff :
    normalizedZipPath e.name e.isDir maxDepth = .ok normalized ↔
      normalized = e.trimmed ∧ e.WellNamed maxDepth := by
  constructor
  · intro h
    obtain ⟨rfl, hnamed⟩ := normalizedZipPath_ok h
    simp only [normalizedZipPath, bind_eq_ok, failIf_eq_ok, exists_const, not_or] at h
    obtain ⟨⟨-, hbackslash, hnul, hascii⟩, -, -, hdepth, -⟩ := h
    exact ⟨rfl, by simpa using hascii, hbackslash, hnul, hnamed, Nat.le_of_not_lt hdepth⟩
  · rintro ⟨rfl, h⟩
    have hcomponents : ∀ c ∈ components e.trimmed, ¬ (c = .rootDir ∨ c = .parentDir) := by
      rw [h.named.components]
      simp
    have hparts : ∀ part ∈ e.trimmed.splitOn slash, ¬ (part = [] ∨ part = [dot]) :=
      fun part hpart => by simpa using ⟨(h.named part hpart).1, (h.named part hpart).2.1⟩
    simp only [normalizedZipPath, bind_eq_ok, failIf_eq_ok, exists_const]
    refine ⟨?_, ?_, ?_, Nat.not_lt.mpr h.depth, rfl⟩
    · simp [h.named.name_ne_nil, h.noBackslash, h.noNul, h.ascii]
    · rintro (hnil | ⟨part, hpart, hbad⟩)
      · exact h.named.trimmed_ne_nil hnil
      · exact hparts part hpart hbad
    · rintro ⟨c, hc, hbad⟩
      exact hcomponents c hc hbad

theorem validateZipType_ok_iff :
    validateZipType e.unixMode e.isDir e.isSymlink = .ok () ↔
      e.ModeAgrees ∧ (e.isSymlink = true → e.unixMode ≠ none) := by
  cases hmode : e.unixMode with
  | none => simp [validateZipType, ModeAgrees, hmode]
  | some mode =>
    simp only [validateZipType, failIf_eq_ok, ModeAgrees, hmode, expectedType]
    grind

theorem declares_ok_iff (hfile : e.isDir = false) {bytes : Nat} :
    declares e e.trimmed = .ok bytes ↔
      (e.isSymlink = true → e.TargetFits) ∧ bytes = e.declaredBytes := by
  cases hlink : e.isSymlink with
  | false => simp [Preflight.declares, Entry.declaredBytes, hfile, hlink, pure, Except.pure, eq_comm]
  | true =>
    cases htarget : readToEnd 4097 e.reads with
    | none =>
      simp [declares, TargetFits, hlink, htarget, throw, throwThe,
        MonadExceptOf.throw]
    | some target =>
      simp only [Preflight.declares, Entry.TargetFits, Entry.declaredBytes, hfile, hlink, htarget,
        if_true, bind_eq_ok, failIf_eq_ok, exists_const, pure, Except.pure, Except.ok.injEq,
        Nat.not_lt, Bool.not_eq_false, Option.some.injEq, Option.getD_some, Bool.false_eq_true,
        if_false, true_implies]
      grind

end

/-! ### Sums that stop at the largest value -/

theorem foldl_saturatingAdd (sizes : List Nat) {total : Nat} (h : total ≤ 2 ^ 64 - 1) :
    sizes.foldl saturatingAdd total = min (total + sizes.sum) (2 ^ 64 - 1) := by
  induction sizes generalizing total with
  | nil =>
    simp only [foldl_nil, sum_nil, Nat.add_zero]
    omega
  | cons size sizes ih =>
    have hle : saturatingAdd total size ≤ 2 ^ 64 - 1 := Nat.min_le_right _ _
    rw [foldl_cons, ih hle, sum_cons]
    unfold saturatingAdd
    omega

theorem declaredTotal_eq (es : List Entry) :
    declaredTotal es = min (es.map Entry.declaredBytes).sum (2 ^ 64 - 1) := by
  rw [declaredTotal, foldl_saturatingAdd _ (Nat.zero_le _), Nat.zero_add]

theorem declaredTotal_concat (es : List Entry) (e : Entry) :
    declaredTotal (es ++ [e]) = saturatingAdd (declaredTotal es) e.declaredBytes := by
  simp [declaredTotal]

theorem declaredTotal_mono (es rest : List Entry) :
    declaredTotal es ≤ declaredTotal (es ++ rest) := by
  rw [declaredTotal_eq, declaredTotal_eq, map_append, sum_append]
  omega

theorem declaredTotal_directory (es : List Entry) {e : Entry} (h : e.isDir = true) :
    declaredTotal (es ++ [e]) = declaredTotal es := by
  have hzero : e.declaredBytes = 0 := by simp [Entry.declaredBytes, h]
  rw [declaredTotal_concat, hzero, declaredTotal_eq, saturatingAdd]
  omega

/-! ### Strings stand for one path -/

theorem asciiLower_eq_slash {b : UInt8} (h : asciiLower b = slash) : b = slash := by
  unfold asciiLower slash at *
  grind

variable {part : Text}

theorem slash_not_mem_part {text : Text} (h : part ∈ text.splitOn slash) : slash ∉ part := by
  induction text generalizing part with
  | nil => simp_all
  | cons b text ih =>
    rw [splitOn_cons_eq_if_modifyHead] at h
    split at h
    · obtain rfl | hrest := mem_cons.mp h
      · exact not_mem_nil
      · exact ih hrest
    · -- the byte goes to the front of the first part
      rename_i hb
      obtain ⟨first, rest, hparts⟩ := exists_cons_of_ne_nil (splitOn_ne_nil slash text)
      rw [hparts, modifyHead_cons] at h
      obtain rfl | hrest := mem_cons.mp h
      · have hfirst : slash ∉ first := ih (by simp [hparts])
        simp only [beq_iff_eq] at hb
        simp [hfirst, Ne.symm hb]
      · exact ih (by simp [hparts, hrest])

theorem Entry.slash_not_mem_folded {e : Entry} (h : part ∈ e.folded) : slash ∉ part := by
  obtain ⟨raw, hraw, rfl⟩ := mem_map.mp h
  intro hslash
  obtain ⟨b, hb, hlower⟩ := mem_map.mp hslash
  rw [asciiLower_eq_slash hlower] at hb
  exact slash_not_mem_part hraw hb

variable {p q : List Text}

theorem join_injective (hp : ∀ part ∈ p, slash ∉ part) (hq : ∀ part ∈ q, slash ∉ part)
    (hpne : p ≠ []) (hqne : q ≠ []) (h : join p = join q) : p = q := by
  have hsplit : (join p).splitOn slash = (join q).splitOn slash := by rw [h]
  rwa [join, join, splitOn_intercalate slash hp hpne,
    splitOn_intercalate slash hq hqne] at hsplit

theorem join_prefix_injective {a b : Entry} (hp : p <+: a.folded) (hq : q <+: b.folded)
    (hpne : p ≠ []) (hqne : q ≠ []) (h : join p = join q) : p = q :=
  join_injective (fun _ hpart => a.slash_not_mem_folded (hp.subset hpart))
    (fun _ hpart => b.slash_not_mem_folded (hq.subset hpart)) hpne hqne h

/-! ### One turn of the loop -/

structure Entry.Sound (limits : Limits) (e : Entry) : Prop where
  named : e.WellNamed limits.maxDepth
  mode : e.ModeAgrees
  symlinkMode : e.isSymlink = true → e.unixMode ≠ none
  target : e.isDir = false → e.isSymlink = true → e.TargetFits

structure FitsAfter (limits : Limits) (before : List Entry) (e : Entry) : Prop where
  sound : e.Sound limits
  compatible : ∀ b ∈ before, Compatible b e
  count : min (before.length + 1) (2 ^ 64 - 1) ≤ limits.maxFiles
  size : e.isDir = false → declaredTotal (before ++ [e]) ≤ limits.maxUncompressedBytes

/-- There is nothing in the sets but what the entries so far put there, and the
exact sets add nothing to the folded ones. -/
structure Preflight.Within (s : Preflight) (es : List Entry) : Prop where
  exact : ∀ x ∈ s.exact, toAsciiLowercase x ∈ s.folded
  files : ∀ x ∈ s.files, toAsciiLowercase x ∈ s.foldedFiles
  directories : ∀ x ∈ s.directories, toAsciiLowercase x ∈ s.foldedDirectories
  folded : ∀ x ∈ s.folded, ∃ b ∈ es, x = join b.folded
  foldedFiles : ∀ x ∈ s.foldedFiles, ∃ b ∈ es, b.isDir = false ∧ x = join b.folded
  foldedDirectories : ∀ x ∈ s.foldedDirectories, ∃ b ∈ es, ∃ q, q <+: b.folded ∧ q ≠ [] ∧
    (q = b.folded → b.isDir = true) ∧ x = join q

/-- The counters are those of the entries so far. -/
structure Preflight.Counts (s : Preflight) (es : List Entry) : Prop where
  declaredBytes : s.declaredBytes = declaredTotal es
  entryCount : s.entryCount = min es.length (2 ^ 64 - 1)

namespace Preflight

variable {s t : Preflight} {limits : Limits} {e : Entry} {before es : List Entry}

theorem insertPath_of_new {path : Text} (hexact : path ∉ s.exact)
    (hfolded : toAsciiLowercase path ∉ s.folded) :
    s.insertPath path = .ok { s with
      exact := path :: s.exact
      folded := toAsciiLowercase path :: s.folded } := by
  simp only [insertPath, bind_eq_ok, failIf_eq_ok, exists_const]
  exact ⟨by simp [hexact, hfolded], rfl⟩

theorem insertDirectory_of_free {path : Text} (hfiles : path ∉ s.files)
    (hfolded : toAsciiLowercase path ∉ s.foldedFiles) :
    s.insertDirectory path = .ok { s with
      directories := path :: s.directories
      foldedDirectories := toAsciiLowercase path :: s.foldedDirectories } := by
  simp only [insertDirectory, bind_eq_ok, failIf_eq_ok, exists_const]
  exact ⟨by simp [hfiles, hfolded], rfl⟩

theorem insertFile_ok_iff (hfile : e.isDir = false) (hdirectories : e.trimmed ∉ s.directories)
    (hfolded : toAsciiLowercase e.trimmed ∉ s.foldedDirectories) :
    s.insertFile limits e e.trimmed = .ok t ↔
      (e.isSymlink = true → e.TargetFits) ∧
      saturatingAdd s.declaredBytes e.declaredBytes ≤ limits.maxUncompressedBytes ∧
      t = { s with
        files := e.trimmed :: s.files
        foldedFiles := toAsciiLowercase e.trimmed :: s.foldedFiles
        declaredBytes := saturatingAdd s.declaredBytes e.declaredBytes } := by
  simp only [insertFile, bind_eq_ok, failIf_eq_ok, exists_const, declares_ok_iff hfile,
    hdirectories, hfolded, or_self, not_false_eq_true, true_and, Nat.not_lt, pure, Except.pure,
    Except.ok.injEq]
  constructor
  · rintro ⟨bytes, ⟨htarget, rfl⟩, hsize, rfl⟩
    exact ⟨htarget, hsize, rfl⟩
  · rintro ⟨htarget, hsize, rfl⟩
    exact ⟨_, ⟨htarget, rfl⟩, hsize, rfl⟩

/-- The ancestors of a path go in if none of them is a file. -/
theorem insertAncestors_of_free {done rest : List Text}
    (hparts : ∀ part ∈ done ++ rest, part ≠ [])
    (hfiles : ∀ x ∈ s.files, toAsciiLowercase x ∈ s.foldedFiles)
    (hdirectories : ∀ x ∈ s.directories, toAsciiLowercase x ∈ s.foldedDirectories)
    (hfree : ∀ q, q <+: rest → q ≠ [] →
      join ((done ++ q).map toAsciiLowercase) ∉ s.foldedFiles) :
    ∃ ds fs, s.insertAncestors (join done) rest = .ok { s with
        directories := ds
        foldedDirectories := fs } ∧
      (∀ x ∈ ds, toAsciiLowercase x ∈ fs) ∧
      ∀ x ∈ fs, x ∈ s.foldedDirectories ∨
        ∃ q, q <+: rest ∧ q ≠ [] ∧ x = join ((done ++ q).map toAsciiLowercase) := by
  induction rest generalizing s done with
  | nil => exact ⟨s.directories, s.foldedDirectories, rfl, hdirectories, fun x hx => .inl hx⟩
  | cons part rest ih =>
    have hassoc : ∀ q, done ++ part :: q = done ++ [part] ++ q := by simp
    have hhere : toAsciiLowercase (join (done ++ [part])) ∉ s.foldedFiles := by
      rw [toAsciiLowercase_join]
      exact hfree [part] (by simp) (by simp)
    have hinsert := insertDirectory_of_free (fun hmem => hhere (hfiles _ hmem)) hhere
    obtain ⟨ds, fs, hrest, hds, hfs⟩ := @ih
      { s with
        directories := join (done ++ [part]) :: s.directories
        foldedDirectories := toAsciiLowercase (join (done ++ [part])) :: s.foldedDirectories }
      (done ++ [part]) (by rwa [← hassoc]) hfiles
      (by simpa using fun x hx => .inr (hdirectories x hx))
      (fun q hq hne => by
        rw [← hassoc]
        exact hfree (part :: q) (cons_prefix_cons.mpr ⟨rfl, hq⟩) (by simp))
    refine ⟨ds, fs, ?_, hds, fun x hx => ?_⟩
    · rw [insertAncestors, join_step part fun p hp => hparts p (mem_append_left _ hp),
        bind_eq_ok]
      exact ⟨_, hinsert, hrest⟩
    · obtain hold | ⟨q, hq, -, rfl⟩ := hfs x hx
      · obtain rfl | hold := mem_cons.mp hold
        · exact .inr ⟨[part], by simp, by simp, toAsciiLowercase_join _⟩
        · exact .inl hold
      · exact .inr ⟨part :: q, cons_prefix_cons.mpr ⟨rfl, hq⟩, by simp, by simp⟩

section
variable (h : s.Within before) (hfits : ∀ b ∈ before, Compatible b e)
include h hfits

/-- What excludes an entry is in the sets if an entry before it put it there. -/
theorem Within.isNew : join e.folded ∉ s.folded := by
  intro hmem
  obtain ⟨b, hb, heq⟩ := h.folded _ hmem
  exact (hfits b hb).ne (join_prefix_injective (prefix_refl _) (prefix_refl _)
    e.folded_ne_nil b.folded_ne_nil heq).symm

theorem Within.noFile (hq : q <+: e.folded) (hne : q ≠ []) : join q ∉ s.foldedFiles := by
  intro hmem
  obtain ⟨b, hb, hfile, heq⟩ := h.foldedFiles _ hmem
  have hpath : q = b.folded :=
    join_prefix_injective hq (prefix_refl _) hne b.folded_ne_nil heq
  exact (hfits b hb).left hfile (hpath ▸ hq)

theorem Within.noDirectory (hfile : e.isDir = false) : join e.folded ∉ s.foldedDirectories := by
  intro hmem
  obtain ⟨b, hb, q, hq, hne, -, heq⟩ := h.foldedDirectories _ hmem
  have hpath : e.folded = q :=
    join_prefix_injective (prefix_refl _) hq e.folded_ne_nil hne heq
  exact (hfits b hb).right hfile (hpath ▸ hq)

end

theorem folded_of_dropLast (hp : p <+: e.path.dropLast) :
    p.map toAsciiLowercase <+: e.folded ∧ p.map toAsciiLowercase ≠ e.folded := by
  refine ⟨(hp.trans ( dropLast_prefix _)).map _, fun heq => ?_⟩
  have hlength : p.length = e.path.length := by
    simpa [Entry.folded] using congrArg length heq
  have hlast := hp.length_le
  have hpath := length_pos_iff.mpr e.path_ne_nil
  rw [length_dropLast] at hlast
  omega

theorem insertAncestors_path (hnamed : e.Named)
    (hfiles : ∀ x ∈ s.files, toAsciiLowercase x ∈ s.foldedFiles)
    (hdirectories : ∀ x ∈ s.directories, toAsciiLowercase x ∈ s.foldedDirectories)
    (hfree : ∀ q, q <+: e.folded → q ≠ [] → join q ∉ s.foldedFiles) :
    ∃ ds fs, s.insertAncestors [] e.path.dropLast = .ok { s with
        directories := ds
        foldedDirectories := fs } ∧
      (∀ x ∈ ds, toAsciiLowercase x ∈ fs) ∧
      ∀ x ∈ fs, x ∈ s.foldedDirectories ∨
        ∃ q, q <+: e.folded ∧ q ≠ [] ∧ q ≠ e.folded ∧ x = join q := by
  have hparts : ∀ part ∈ [] ++ e.path.dropLast, part ≠ [] :=
    fun part hpart => (hnamed part (mem_of_mem_dropLast hpart)).1
  obtain ⟨ds, fs, hinsert, hds, hfs⟩ := insertAncestors_of_free hparts hfiles hdirectories
    fun p hp hne => hfree _ (folded_of_dropLast hp).1 (by simpa using hne)
  refine ⟨ds, fs, hinsert, hds, fun x hx => (hfs x hx).imp_right ?_⟩
  rintro ⟨p, hp, hne, rfl⟩
  exact ⟨_, (folded_of_dropLast hp).1, by simpa using hne, (folded_of_dropLast hp).2, rfl⟩

/-- The sets once the path of an entry and its ancestors are in them. -/
def enter (s : Preflight) (e : Entry) (ds fs : List Text) : Preflight :=
  { s with
    exact := e.trimmed :: s.exact
    folded := toAsciiLowercase e.trimmed :: s.folded
    directories := ds
    foldedDirectories := fs
    entryCount := saturatingAdd s.entryCount 1 }

theorem Within.enter (h : s.Within before) {ds fs : List Text}
    (hds : ∀ x ∈ ds, toAsciiLowercase x ∈ fs)
    (hfs : ∀ x ∈ fs, x ∈ s.foldedDirectories ∨
      ∃ q, q <+: e.folded ∧ q ≠ [] ∧ q ≠ e.folded ∧ x = join q) :
    (s.enter e ds fs).Within (before ++ [e]) := by
  have hbefore : ∀ b ∈ before, b ∈ before ++ [e] := fun b hb => mem_append_left _ hb
  have hself : e ∈ before ++ [e] := by simp
  refine ⟨?_, h.files, hds, fun x hx => ?_, fun x hx => ?_, fun x hx => ?_⟩
  · simpa [Preflight.enter] using fun x hx => .inr (h.exact x hx)
  · obtain rfl | hx := mem_cons.mp hx
    · exact ⟨e, hself, e.lowercase_trimmed⟩
    · obtain ⟨b, hb, heq⟩ := h.folded x hx
      exact ⟨b, hbefore b hb, heq⟩
  · obtain ⟨b, hb, hfile⟩ := h.foldedFiles x hx
    exact ⟨b, hbefore b hb, hfile⟩
  · obtain hold | ⟨q, hq, hne, hproper, rfl⟩ := hfs x hx
    · obtain ⟨b, hb, hpath⟩ := h.foldedDirectories x hold
      exact ⟨b, hbefore b hb, hpath⟩
    · exact ⟨e, hself, q, hq, hne, fun heq => absurd heq hproper, rfl⟩

theorem Within.addDirectory (h : s.Within es) (he : e ∈ es) (hdir : e.isDir = true) :
    Within { s with
      directories := e.trimmed :: s.directories
      foldedDirectories := toAsciiLowercase e.trimmed :: s.foldedDirectories } es := by
  refine ⟨h.exact, h.files, ?_, h.folded, h.foldedFiles, fun x hx => ?_⟩
  · simpa using fun x hx => .inr (h.directories x hx)
  · obtain rfl | hx := mem_cons.mp hx
    · exact ⟨e, he, e.folded, prefix_refl _, e.folded_ne_nil, fun _ => hdir,
        e.lowercase_trimmed⟩
    · exact h.foldedDirectories x hx

theorem Within.addFile (h : s.Within es) (he : e ∈ es) (hfile : e.isDir = false) (bytes : Nat) :
    Within { s with
      files := e.trimmed :: s.files
      foldedFiles := toAsciiLowercase e.trimmed :: s.foldedFiles
      declaredBytes := bytes } es := by
  refine ⟨h.exact, ?_, h.directories, h.folded, fun x hx => ?_, h.foldedDirectories⟩
  · simpa using fun x hx => .inr (h.files x hx)
  · obtain rfl | hx := mem_cons.mp hx
    · exact ⟨e, he, hfile, e.lowercase_trimmed⟩
    · exact h.foldedFiles x hx

/-- A turn of the loop, when no entry before excludes the next: only the checks
that do not look at paths, and the last, can fail. -/
theorem entry_eq (h : s.Within before) (hnamed : e.WellNamed limits.maxDepth)
    (hcompatible : ∀ b ∈ before, Compatible b e) :
    ∃ ds fs, (s.enter e ds fs).Within (before ++ [e]) ∧
      (e.isDir = false → toAsciiLowercase e.trimmed ∉ fs) ∧
      ∀ t, entry limits s e = .ok t ↔
        saturatingAdd s.entryCount 1 ≤ limits.maxFiles ∧
        validateZipType e.unixMode e.isDir e.isSymlink = .ok () ∧
        (if e.isDir then (s.enter e ds fs).insertDirectory e.trimmed
          else (s.enter e ds fs).insertFile limits e e.trimmed) = .ok t := by
  have hname := normalizedZipPath_ok_iff.mpr ⟨rfl, hnamed⟩
  have hnew : toAsciiLowercase e.trimmed ∉ s.folded := by
    rw [e.lowercase_trimmed]
    exact h.isNew hcompatible
  have hpath := insertPath_of_new (s := { s with entryCount := saturatingAdd s.entryCount 1 })
    (fun hmem => hnew (h.exact _ hmem)) hnew
  obtain ⟨ds, fs, hancestors, hds, hfs⟩ := insertAncestors_path
    (s := { s with
      exact := e.trimmed :: s.exact
      folded := toAsciiLowercase e.trimmed :: s.folded
      entryCount := saturatingAdd s.entryCount 1 })
    hnamed.named h.files h.directories fun q hq hne => h.noFile hcompatible hq hne
  refine ⟨ds, fs, h.enter hds hfs, fun hfile hmem => ?_, fun t => ?_⟩
  · rw [e.lowercase_trimmed] at hmem
    obtain hold | ⟨q, hq, hne, hproper, heq⟩ := hfs _ hmem
    · exact h.noDirectory hcompatible hfile hold
    · exact hproper (join_prefix_injective hq (prefix_refl _) hne e.folded_ne_nil heq.symm)
  · unfold path at hancestors
    simp only [entry, bind_eq_ok, failIf_eq_ok, exists_const, hname, hpath, hancestors,
      Except.ok.injEq, exists_eq_left', Nat.not_lt, enter]
    constructor
    · rintro ⟨hcount, ⟨⟩, htype, ht⟩
      exact ⟨hcount, htype, ht⟩
    · rintro ⟨hcount, htype, ht⟩
      exact ⟨hcount, (), htype, ht⟩

theorem entry_of_fits (h : s.Within before) (hcounts : s.Counts before)
    (hfits : FitsAfter limits before e) :
    ∃ t, entry limits s e = .ok t ∧ t.Within (before ++ [e]) ∧
      t.Counts (before ++ [e]) := by
  obtain ⟨ds, fs, hentered, hfree, hentry⟩ :=
    entry_eq h hfits.sound.named hfits.compatible
  have hcount : saturatingAdd s.entryCount 1 = min (before.length + 1) (2 ^ 64 - 1) := by
    rw [hcounts.entryCount, saturatingAdd]
    omega
  have htype := validateZipType_ok_iff.mpr ⟨hfits.sound.mode, hfits.sound.symlinkMode⟩
  have hentryCount : (s.enter e ds fs).entryCount = min (before ++ [e]).length (2 ^ 64 - 1) := by
    rw [length_append, length_singleton]
    exact hcount
  have hself : e ∈ before ++ [e] := by simp
  cases hdir : e.isDir with
  | true =>
    have hfile : toAsciiLowercase e.trimmed ∉ s.foldedFiles := by
      rw [e.lowercase_trimmed]
      exact h.noFile hfits.compatible (prefix_refl _) e.folded_ne_nil
    have hlast := insertDirectory_of_free (s := s.enter e ds fs)
      (fun hmem => hfile (h.files _ hmem)) hfile
    refine ⟨_, (hentry _).mpr ⟨hcount ▸ hfits.count, htype, by rw [if_pos hdir]; exact hlast⟩,
      hentered.addDirectory hself hdir, ?_, hentryCount⟩
    rw [declaredTotal_directory before hdir]
    exact hcounts.declaredBytes
  | false =>
    have htotal : saturatingAdd s.declaredBytes e.declaredBytes = declaredTotal (before ++ [e]) := by
      rw [hcounts.declaredBytes, declaredTotal_concat]
    have hlast := (insertFile_ok_iff (s := s.enter e ds fs) hdir
      (fun hmem => hfree hdir (hentered.directories _ hmem)) (hfree hdir)).mpr
      ⟨hfits.sound.target hdir, htotal ▸ hfits.size hdir, rfl⟩
    exact ⟨_, (hentry _).mpr ⟨hcount ▸ hfits.count, htype, by
        rw [if_neg (by simp [hdir])]
        exact hlast⟩,
      hentered.addFile hself hdir _, htotal, hentryCount⟩

theorem fits_of_entry (hs : s.Describes before) (hw : s.Within before) (hcounts : s.Counts before)
    (h : entry limits s e = .ok t) : FitsAfter limits before e := by
  have hchecked := entry_checked h
  have hcompatible : ∀ b ∈ before, Compatible b e := fun b hb => hchecked.compatible hs hb
  have hnamed : e.WellNamed limits.maxDepth := by
    simp only [entry, bind_eq_ok] at h
    obtain ⟨-, -, normalized, hnormalized, -⟩ := h
    exact (normalizedZipPath_ok_iff.mp hnormalized).2
  obtain ⟨ds, fs, hentered, hfree, hentry⟩ := entry_eq hw hnamed hcompatible
  obtain ⟨hcount, htype, hlast⟩ := (hentry t).mp h
  obtain ⟨hmode, hsymlink⟩ := validateZipType_ok_iff.mp htype
  have hfile : e.isDir = false → (e.isSymlink = true → e.TargetFits) ∧
      saturatingAdd s.declaredBytes e.declaredBytes ≤ limits.maxUncompressedBytes := by
    intro hdir
    simp only [hdir, Bool.false_eq_true, if_false] at hlast
    obtain ⟨htarget, hsize, -⟩ := (insertFile_ok_iff (s := s.enter e ds fs) hdir
      (fun hmem => hfree hdir (hentered.directories _ hmem)) (hfree hdir)).mp hlast
    exact ⟨htarget, hsize⟩
  refine ⟨⟨hnamed, hmode, hsymlink, fun hdir => (hfile hdir).1⟩, hcompatible, ?_, fun hdir => ?_⟩
  · rw [hcounts.entryCount, saturatingAdd] at hcount
    omega
  · rw [declaredTotal_concat, ← hcounts.declaredBytes]
    exact (hfile hdir).2

end Preflight

/-! ### The whole pass -/

def AllFit (limits : Limits) : List Entry → List Entry → Prop
  | _, [] => True
  | before, e :: es => FitsAfter limits before e ∧ AllFit limits (before ++ [e]) es

section
variable {limits : Limits} {before es : List Entry}

theorem foldlM_entry_ok_iff {s : Preflight} (hs : s.Describes before) (hw : s.Within before)
    (hcounts : s.Counts before) :
    (∃ t, es.foldlM (entry limits) s = .ok t) ↔ AllFit limits before es := by
  induction es generalizing s before with
  | nil => simp [AllFit, pure, Except.pure]
  | cons e es ih =>
    simp only [foldlM_cons, bind_eq_ok, AllFit]
    constructor
    · rintro ⟨t, m, hm, ht⟩
      have hfits := fits_of_entry hs hw hcounts hm
      obtain ⟨m', hm', hw', hcounts'⟩ := entry_of_fits hw hcounts hfits
      obtain rfl : m = m' := Except.ok.inj (hm.symm.trans hm')
      exact ⟨hfits, (ih ((entry_checked hm).describes hs) hw' hcounts').mp ⟨t, ht⟩⟩
    · rintro ⟨hfits, hrest⟩
      obtain ⟨m, hm, hw', hcounts'⟩ := entry_of_fits hw hcounts hfits
      obtain ⟨t, ht⟩ :=
        (ih ((entry_checked hm).describes hs) hw' hcounts').mpr hrest
      exact ⟨t, m, hm, ht⟩

theorem accepts_ok_iff_allFit :
    (∃ t, accepts limits es = .ok t) ↔ AllFit limits [] es :=
  foldlM_entry_ok_iff ⟨by simp, by simp, by simp, by simp⟩
    ⟨by simp, by simp, by simp, by simp, by simp, by simp⟩ ⟨rfl, rfl⟩

/-- The bounds on the running totals are those on the last ones. -/
theorem allFit_iff (hbefore : declaredTotal before ≤ limits.maxUncompressedBytes) :
    AllFit limits before es ↔
      (∀ e ∈ es, e.Sound limits) ∧
      (es.Pairwise Compatible ∧ ∀ b ∈ before, ∀ e ∈ es, Compatible b e) ∧
      (es ≠ [] → min (before.length + es.length) (2 ^ 64 - 1) ≤ limits.maxFiles) ∧
      declaredTotal (before ++ es) ≤ limits.maxUncompressedBytes := by
  induction es generalizing before with
  | nil => simp [AllFit, hbefore]
  | cons e es ih =>
    have hassoc : before ++ e :: es = before ++ [e] ++ es := by simp
    have hlength : (before ++ [e]).length + es.length = before.length + (e :: es).length := by
      simp only [length_append, length_cons, length_nil]
      omega
    rw [AllFit, hassoc]
    constructor
    · rintro ⟨hfits, hrest⟩
      have hnext : declaredTotal (before ++ [e]) ≤ limits.maxUncompressedBytes := by
        cases hdir : e.isDir with
        | true => rwa [declaredTotal_directory before hdir]
        | false => exact hfits.size hdir
      obtain ⟨hsound, ⟨hpairwise, hcross⟩, hcount, hsize⟩ := (ih hnext).mp hrest
      refine ⟨by simpa [hfits.sound] using hsound, ⟨?_, fun b hb a ha => ?_⟩, fun _ => ?_, hsize⟩
      · exact pairwise_cons.mpr ⟨hcross e (by simp), hpairwise⟩
      · obtain rfl | ha := mem_cons.mp ha
        · exact hfits.compatible b hb
        · exact hcross b (by simp [hb]) a ha
      · by_cases hempty : es = []
        · simpa [hempty] using hfits.count
        · rw [← hlength]
          exact hcount hempty
    · rintro ⟨hsound, ⟨hpairwise, hcross⟩, hcount, hsize⟩
      have hnext : declaredTotal (before ++ [e]) ≤ limits.maxUncompressedBytes :=
        (declaredTotal_mono _ es).trans hsize
      have hfirst : min (before.length + 1) (2 ^ 64 - 1) ≤ limits.maxFiles := by
        have hle : before.length + 1 ≤ before.length + (e :: es).length := by simp
        have hmin : min (before.length + 1) (2 ^ 64 - 1) ≤
            min (before.length + (e :: es).length) (2 ^ 64 - 1) :=
          Nat.le_min.mpr ⟨(Nat.min_le_left _ _).trans hle, Nat.min_le_right _ _⟩
        exact hmin.trans (hcount (by simp))
      obtain ⟨hhead, htail⟩ := pairwise_cons.mp hpairwise
      refine ⟨⟨hsound e (by simp), fun b hb => hcross b hb e (by simp), hfirst, fun _ => hnext⟩,
        (ih hnext).mpr ⟨fun a ha => hsound a (by simp [ha]), ⟨htail, fun b hb a ha => ?_⟩,
          fun _ => by rw [hlength]; exact hcount (by simp), hsize⟩⟩
      obtain hb | rfl := mem_append.mp hb |>.imp_right mem_singleton.mp
      · exact hcross b hb a (by simp [ha])
      · exact hhead a ha

instance : Std.Symm Compatible :=
  ⟨fun _ _ h => ⟨h.ne.symm, h.right, h.left⟩⟩

/-- Distinct paths, none below a file: any two entries are compatible. -/
theorem pairwise_compatible_iff :
    es.Pairwise Compatible ↔
      (es.Pairwise fun a b => a.folded ≠ b.folded) ∧
      ∀ a ∈ es, ∀ b ∈ es, a.isDir = false → a.folded <+: b.folded → a.folded = b.folded := by
  constructor
  · intro h
    refine ⟨h.imp fun hab => hab.ne, fun a ha b hb hfile hprefix => ?_⟩
    by_contra hne
    have hab : a ≠ b := fun heq => hne (by rw [heq])
    have hcompatible : Compatible a b := h.forall ha hb hab
    exact hcompatible.left hfile hprefix
  · rintro ⟨hdistinct, habove⟩
    refine hdistinct.imp_of_mem fun {a b} ha hb hne =>
      ⟨hne, fun hfile hprefix => ?_, fun hfile hprefix => ?_⟩
    · exact hne (habove a ha b hb hfile hprefix)
    · exact hne (habove b hb a ha hfile hprefix).symm

theorem accepts_ok_iff (hlength : es.length < 2 ^ 64) :
    (∃ t, accepts limits es = .ok t) ↔
      Acceptable limits es ∧ ∀ e ∈ es, e.isSymlink = true → e.unixMode ≠ none := by
  have hmin : min es.length (2 ^ 64 - 1) = es.length := by omega
  rw [accepts_ok_iff_allFit, allFit_iff (Nat.zero_le _), length_nil, Nat.zero_add, hmin,
    nil_append, pairwise_compatible_iff]
  constructor
  · rintro ⟨hsound, ⟨⟨hdistinct, habove⟩, -⟩, hcount, hsize⟩
    have hmax : es.length ≤ limits.maxFiles := by
      by_cases hempty : es = []
      · simp [hempty]
      · exact hcount hempty
    exact ⟨⟨hmax, fun e he => (hsound e he).named, fun e he => (hsound e he).mode, hdistinct,
      habove, fun e he => (hsound e he).target, hsize⟩, fun e he => (hsound e he).symlinkMode⟩
  · rintro ⟨h, hmode⟩
    exact ⟨fun e he => ⟨h.names e he, h.modes e he, hmode e he, h.targets e he⟩,
      ⟨⟨h.distinct, h.noFileAbove⟩, by simp⟩, fun _ => h.count, h.size⟩

theorem Acceptable.perm {es' : List Entry} (h : Acceptable limits es) (hperm : es.Perm es') :
    Acceptable limits es' := by
  have hmem : ∀ e, e ∈ es' → e ∈ es := fun e he => hperm.mem_iff.mpr he
  have hsize : declaredTotal es' = declaredTotal es := by
    rw [declaredTotal_eq, declaredTotal_eq, (hperm.map Entry.declaredBytes).sum_nat]
  exact
    { count := hperm.length_eq ▸ h.count
      names := fun e he => h.names e (hmem e he)
      modes := fun e he => h.modes e (hmem e he)
      distinct := (hperm.pairwise_iff fun hne => hne.symm).mp h.distinct
      noFileAbove := fun a ha b hb => h.noFileAbove a (hmem a ha) b (hmem b hb)
      targets := fun e he => h.targets e (hmem e he)
      size := hsize ▸ h.size }

end

/-! ### Archives -/

/-- An entry of a ZIP file. That it is a symlink is in its mode. -/
structure Record where
  name : Text
  isDir : Bool
  unixMode : Option UInt32
  size : UInt64
  reads : List (Option Text)

def Record.isSymlink (r : Record) : Bool :=
  r.unixMode.any fun mode => mode &&& 0o120000 == 0o120000

def Record.entry (r : Record) : Entry :=
  { name := r.name
    isDir := r.isDir
    isSymlink := r.isSymlink
    unixMode := r.unixMode
    size := r.size
    reads := r.reads }

/-- A ZIP file. The number of its entries is a `usize`. -/
structure Archive where
  records : List Record
  length_lt : records.length < 2 ^ 64

def Archive.entries (a : Archive) : List Entry :=
  a.records.map Record.entry

/-- The same world, in which nothing is cancelled and nothing fails. -/
def Environment.undisturbed (env : Environment) : Environment :=
  { env with fault := fun _ => none }

def preflightTurn (env : Environment) (limits : Limits) (s : Preflight) (entry : Entry) :
    EStateM SourceError World Preflight := do
  checkOptionalInitializationCancel env
  askArchive env .unreadableEntry
  MonadExcept.ofExcept (Preflight.entry limits s entry)

section
variable (env : Environment) (limits : Limits)

theorem preflightTurn_undisturbed (s : Preflight) (e : Entry) (w : World) :
    preflightTurn env.undisturbed limits s e w =
      match entry limits s e with
      | .ok t => .ok t w.tick.tick
      | .error error => .error error w.tick.tick := by
  cases h : entry limits s e with
  | ok t =>
    simp only [preflightTurn, h]
    rfl
  | error error =>
    simp only [preflightTurn, h]
    rfl

theorem preflight_loop (entries : List Entry) (s : Preflight) (w : World) :
    (∃ t w', entries.foldlM (preflightTurn env.undisturbed limits) s w = .ok t w') ↔
      ∃ t, entries.foldlM (entry limits) s = .ok t := by
  induction entries generalizing s w with
  | nil => simp [pure, EStateM.pure, Except.pure]
  | cons e entries ih =>
    simp only [foldlM_cons]
    change (∃ t w', EStateM.bind (preflightTurn env.undisturbed limits s e)
      (fun s' => entries.foldlM (preflightTurn env.undisturbed limits) s') w = .ok t w') ↔ _
    simp only [EStateM.bind, preflightTurn_undisturbed]
    cases h : entry limits s e with
    | ok m => exact ih m _
    | error error => simp [bind, Except.bind]

theorem preflightSourceArchive_ok_iff (entries : List Entry) (w : World) :
    (∃ w', preflightSourceArchive env.undisturbed limits entries w = .ok () w') ↔
      ∃ t, accepts limits entries = .ok t := by
  rw [accepts, ← preflight_loop env limits entries {} w.tick]
  change (∃ w', EStateM.bind (entries.foldlM (preflightTurn env.undisturbed limits) {})
    (fun _ => pure ()) w.tick = .ok () w') ↔ _
  simp only [EStateM.bind]
  cases h : entries.foldlM (preflightTurn env.undisturbed limits) {} w.tick with
  | ok t w' => simp [pure, EStateM.pure]
  | error e w' => simp

end

theorem preflight_specification (env : Environment) (limits : Limits) (w : World) :
    (∀ archive : Archive,
      (∃ w', preflightSourceArchive env.undisturbed limits archive.entries w = .ok () w') ↔
        Acceptable limits archive.entries) ∧
    ∀ a b : Archive, a.records.Perm b.records →
      ((∃ w', preflightSourceArchive env.undisturbed limits a.entries w = .ok () w') ↔
        ∃ w', preflightSourceArchive env.undisturbed limits b.entries w = .ok () w') := by
  have hspec : ∀ archive : Archive,
      (∃ w', preflightSourceArchive env.undisturbed limits archive.entries w = .ok () w') ↔
        Acceptable limits archive.entries := by
    intro archive
    have hlength : archive.entries.length < 2 ^ 64 := by
      simpa [Archive.entries] using archive.length_lt
    have hmode : ∀ e ∈ archive.entries, e.isSymlink = true → e.unixMode ≠ none := by
      intro e he hlink
      obtain ⟨r, -, rfl⟩ := List.mem_map.mp he
      intro hnone
      have hmode : r.unixMode = none := hnone
      simp [Record.entry, Record.isSymlink, hmode] at hlink
    rw [preflightSourceArchive_ok_iff, accepts_ok_iff hlength]
    exact ⟨fun h => h.1, fun h => ⟨h, hmode⟩⟩
  refine ⟨hspec, fun a b hperm => ?_⟩
  have hentries : a.entries.Perm b.entries := hperm.map Record.entry
  rw [hspec a, hspec b]
  exact ⟨fun h => h.perm hentries, fun h => h.perm hentries.symm⟩

/-- The directory `a/`. -/
def directoryRecord : Record :=
  { name := [0x61, slash], isDir := true, unixMode := some 0o040755, size := 0, reads := [] }

/-- The file `a/b`. -/
def fileRecord : Record :=
  { name := [0x61, slash, 0x62], isDir := false, unixMode := some 0o100644, size := 3,
    reads := [some [1, 2, 3]] }

/-- A file is accepted after its directory, and so before it. -/
theorem file_before_directory :
    ∃ w', preflightSourceArchive
      (Environment.undisturbed ⟨.sensitive, 8, 0, by decide, fun _ => none⟩) ⟨3, 2, 2⟩
      (Archive.mk [fileRecord, directoryRecord] (by decide)).entries {} = .ok () w' :=
  ((preflight_specification ⟨.sensitive, 8, 0, by decide, fun _ => none⟩ ⟨3, 2, 2⟩ {}).2
    (Archive.mk [directoryRecord, fileRecord] (by decide))
    (Archive.mk [fileRecord, directoryRecord] (by decide)) (List.Perm.swap _ _ _)).mp ⟨_, rfl⟩

end IndenturedServer.Source
