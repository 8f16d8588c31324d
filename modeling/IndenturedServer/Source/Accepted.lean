import IndenturedServer.Foundation.Program
import IndenturedServer.Source.Extract

/-!
What the preflight has established once it accepts.

An entry stands for a path, the list of the parts of its normalized name. Two
entries are `Compatible` if their paths differ and neither is a file on the
way to the other, both up to the case of letters. The sets of the preflight
hold strings; `Describes` says which strings are in them, so that a check that
passes says something about paths. The result is `accepted`: every entry is
`Admissible` on its own and any two are compatible, in whatever order the
archive has them.
-/

namespace IndenturedServer.Source

open Foundation List

/-! ### Early returns -/

@[simp] theorem failIf_eq_ok {c : Prop} [Decidable c] {e : SourceError} {u : Unit} :
    failIf c e = .ok u ↔ ¬ c := by
  unfold failIf
  split <;> simp [*]

/-! ### Strings and parts -/

/-- The string of a path. -/
def join (parts : List Text) : Text :=
  [slash].intercalate parts

theorem join_cons_cons (part next : Text) (rest : List Text) :
    join (part :: next :: rest) = part ++ slash :: join (next :: rest) := by
  simp [join, intercalate_cons_cons]

theorem join_concat (parts : List Text) (part : Text) (h : parts ≠ []) :
    join (parts ++ [part]) = join parts ++ [slash] ++ part := by
  induction parts with
  | nil => exact absurd rfl h
  | cons first rest ih =>
    cases rest with
    | nil => simp [join, intercalate, intersperse]
    | cons next rest =>
      have hrest := ih (by simp)
      simp only [cons_append, join_cons_cons] at hrest ⊢
      rw [hrest]
      simp

theorem join_step {parts : List Text} (part : Text) (h : ∀ p ∈ parts, p ≠ []) :
    (if join parts = [] then join parts else join parts ++ [slash]) ++ part =
      join (parts ++ [part]) := by
  cases parts with
  | nil => simp [join, intercalate, intersperse]
  | cons first rest =>
    have hfirst : first ≠ [] := h first (by simp)
    have hne : join (first :: rest) ≠ [] := by
      cases rest with
      | nil => simpa [join, intercalate, intersperse] using hfirst
      | cons next rest => simp [join_cons_cons]
    rw [if_neg hne, join_concat _ _ (by simp)]

theorem toAsciiLowercase_append (a b : Text) :
    toAsciiLowercase (a ++ b) = toAsciiLowercase a ++ toAsciiLowercase b :=
  map_append

theorem toAsciiLowercase_join (parts : List Text) :
    toAsciiLowercase (join parts) = join (parts.map toAsciiLowercase) := by
  induction parts with
  | nil => rfl
  | cons first rest ih =>
    cases rest with
    | nil => simp [join, intercalate, intersperse]
    | cons next rest =>
      have hslash : toAsciiLowercase [slash] = [slash] := by decide
      calc toAsciiLowercase (join (first :: next :: rest))
          = toAsciiLowercase (first ++ ([slash] ++ join (next :: rest))) := by
            rw [join_cons_cons, singleton_append]
        _ = toAsciiLowercase first ++ ([slash] ++ toAsciiLowercase (join (next :: rest))) := by
            rw [toAsciiLowercase_append, toAsciiLowercase_append, hslash]
        _ = join ((first :: next :: rest).map toAsciiLowercase) := by
            rw [ih, map_cons, map_cons, map_cons, join_cons_cons,
              singleton_append]

theorem toAsciiLowercase_idem (text : Text) :
    toAsciiLowercase (toAsciiLowercase text) = toAsciiLowercase text := by
  have hbyte : ∀ b, asciiLower (asciiLower b) = asciiLower b := by
    intro b
    unfold asciiLower
    grind
  simp only [toAsciiLowercase, map_map]
  exact map_congr_left fun b _ => hbyte b

theorem CaseRule.lowercase_fold (rule : CaseRule) (name : Text) :
    toAsciiLowercase (rule.fold name) = toAsciiLowercase name := by
  cases rule with
  | sensitive => rfl
  | asciiInsensitive => exact toAsciiLowercase_idem name

/-! ### Entries -/

namespace Entry

/-- The name without the slashes that end a directory's. -/
def trimmed (e : Entry) : Text :=
  if e.isDir then e.name.rdropWhile (· == slash) else e.name

def path (e : Entry) : List Text :=
  e.trimmed.splitOn slash

/-- The path up to the case of letters. -/
def folded (e : Entry) : List Text :=
  e.path.map toAsciiLowercase

/-- The path as the file system looks it up. -/
def key (rule : CaseRule) (e : Entry) : List Text :=
  e.path.map rule.fold

theorem join_path (e : Entry) : join e.path = e.trimmed :=
  intercalate_splitOn slash

theorem path_ne_nil (e : Entry) : e.path ≠ [] :=
  splitOn_ne_nil slash e.trimmed

theorem folded_ne_nil (e : Entry) : e.folded ≠ [] := by
  simpa [folded] using e.path_ne_nil

theorem key_ne_nil (rule : CaseRule) (e : Entry) : e.key rule ≠ [] := by
  simpa [key] using e.path_ne_nil

theorem lowercase_trimmed (e : Entry) : toAsciiLowercase e.trimmed = join e.folded := by
  rw [← e.join_path, toAsciiLowercase_join]
  rfl

theorem folded_key (rule : CaseRule) (e : Entry) :
    (e.key rule).map toAsciiLowercase = e.folded := by
  simp only [key, folded, map_map]
  exact map_congr_left fun part _ => rule.lowercase_fold part

/-- Every part of the path is the name of something. -/
def Named (e : Entry) : Prop :=
  ∀ part ∈ e.path, part ≠ [] ∧ part ≠ [dot] ∧ part ≠ [dot, dot]

end Entry

theorem component_of_proper {part : Text} (hempty : part ≠ []) (hdot : part ≠ [dot])
    (hdots : part ≠ [dot, dot]) : component part = some (.normal part) := by
  simp [component, hempty, hdot, hdots]

theorem components_eq {path : Text}
    (h : ∀ part ∈ path.splitOn slash, part ≠ [] ∧ part ≠ [dot]) :
    components path = (path.splitOn slash).filterMap component := by
  unfold components
  cases hparts : path.splitOn slash with
  | nil => rfl
  | cons first rest =>
    have hfirst := h first (by simp [hparts])
    cases first with
    | nil => exact absurd rfl hfirst.1
    | cons b bs =>
      simp only [hfirst.2, if_false, filterMap_cons]
      cases component (b :: bs) <;> rfl

variable {e : Entry} {normalized : Text}

theorem normalizedZipPath_ok {maxDepth : Nat}
    (h : normalizedZipPath e.name e.isDir maxDepth = .ok normalized) :
    normalized = e.trimmed ∧ e.Named := by
  simp only [normalizedZipPath, bind_eq_ok, failIf_eq_ok, exists_const, pure, Except.pure,
    Except.ok.injEq, not_or, not_exists, not_and] at h
  obtain ⟨-, ⟨-, hparts⟩, hcomponents, -, rfl⟩ := h
  refine ⟨rfl, fun part hpart => ?_⟩
  have hproper := hparts part hpart
  refine ⟨hproper.1, hproper.2, fun hdots => ?_⟩
  -- a part of two dots would be a component
  have hparent : Component.parentDir ∈ components e.trimmed := by
    have hall : components e.trimmed = e.path.filterMap component := components_eq hparts
    rw [hall, mem_filterMap]
    exact ⟨part, hpart, by rw [hdots]; decide⟩
  exact (hcomponents _ hparent).2 rfl

theorem Entry.Named.moves (h : e.Named) (rule : CaseRule) :
    moves rule e.trimmed = (e.key rule).map .into := by
  have hparts : ∀ part ∈ e.trimmed.splitOn slash, part ≠ [] ∧ part ≠ [dot] :=
    fun part hpart => ⟨(h part hpart).1, (h part hpart).2.1⟩
  have hcomponent : ∀ part ∈ e.path, (component part).bind (Component.move rule) =
      some (.into (rule.fold part)) := by
    intro part hpart
    obtain ⟨hempty, hdot, hdots⟩ := h part hpart
    rw [component_of_proper hempty hdot hdots]
    rfl
  calc Source.moves rule e.trimmed
      = e.path.filterMap fun part => (component part).bind (Component.move rule) := by
        rw [Source.moves, components_eq hparts, filterMap_filterMap]
        rfl
    _ = e.path.filterMap fun part => some (.into (rule.fold part)) :=
        filterMap_congr hcomponent
    _ = (e.key rule).map .into := by
        simp [Entry.key, filterMap_eq_map']

/-! ### The sets -/

/-- Neither path is a file on the way to the other, or equal to it. -/
structure Compatible (a b : Entry) : Prop where
  ne : a.folded ≠ b.folded
  left : a.isDir = false → ¬ a.folded <+: b.folded
  right : b.isDir = false → ¬ b.folded <+: a.folded

/-- The entry passes the checks that do not depend on other entries. -/
structure Admissible (e : Entry) : Prop where
  named : e.Named
  target : e.isDir = false → e.isSymlink = true → ∃ target, readToEnd 4097 e.reads = some target ∧
    isUtf8 target = true ∧ validateSymlinkTarget e.trimmed target = .ok ()

/-- The paths of the entries so far are in the sets that they belong in. -/
structure Preflight.Describes (s : Preflight) (es : List Entry) : Prop where
  paths : ∀ e ∈ es, join e.folded ∈ s.folded
  files : ∀ e ∈ es, e.isDir = false → join e.folded ∈ s.foldedFiles
  ancestors : ∀ e ∈ es, ∀ q, q <+: e.folded → q ≠ [] → q ≠ e.folded →
    join q ∈ s.foldedDirectories
  directories : ∀ e ∈ es, e.isDir = true → join e.folded ∈ s.foldedDirectories

variable {limits : Limits} {es : List Entry}

namespace Preflight

variable {s t : Preflight}

theorem insertPath_ok (h : s.insertPath normalized = .ok t) :
    toAsciiLowercase normalized ∉ s.folded ∧
      t.folded = toAsciiLowercase normalized :: s.folded ∧ t.foldedFiles = s.foldedFiles ∧
      t.foldedDirectories = s.foldedDirectories := by
  simp only [insertPath, bind_eq_ok, failIf_eq_ok, exists_const, pure, Except.pure,
    Except.ok.injEq, not_or] at h
  obtain ⟨⟨-, hnew⟩, rfl⟩ := h
  exact ⟨hnew, rfl, rfl, rfl⟩

theorem insertDirectory_ok {path : Text} (h : s.insertDirectory path = .ok t) :
    toAsciiLowercase path ∉ s.foldedFiles ∧ t.folded = s.folded ∧
      t.foldedFiles = s.foldedFiles ∧
      t.foldedDirectories = toAsciiLowercase path :: s.foldedDirectories := by
  simp only [insertDirectory, bind_eq_ok, failIf_eq_ok, exists_const, pure, Except.pure,
    Except.ok.injEq, not_or] at h
  obtain ⟨⟨-, hfile⟩, rfl⟩ := h
  exact ⟨hfile, rfl, rfl, rfl⟩

theorem insertFile_ok (h : s.insertFile limits e normalized = .ok t) :
    toAsciiLowercase normalized ∉ s.foldedDirectories ∧ t.folded = s.folded ∧
      t.foldedFiles = toAsciiLowercase normalized :: s.foldedFiles ∧
      t.foldedDirectories = s.foldedDirectories ∧ ∃ bytes, declares e normalized = .ok bytes := by
  simp only [insertFile, bind_eq_ok, failIf_eq_ok, exists_const, pure, Except.pure,
    Except.ok.injEq, not_or] at h
  obtain ⟨⟨-, hdir⟩, bytes, hbytes, -, rfl⟩ := h
  exact ⟨hdir, rfl, rfl, rfl, bytes, hbytes⟩

theorem declares_ok {bytes : Nat} (hlink : e.isSymlink = true)
    (h : declares e normalized = .ok bytes) :
    ∃ target, readToEnd 4097 e.reads = some target ∧ isUtf8 target = true ∧
      validateSymlinkTarget normalized target = .ok () := by
  simp only [declares, hlink, if_true] at h
  cases htarget : readToEnd 4097 e.reads with
  | none => simp [htarget, throw, throwThe, MonadExceptOf.throw] at h
  | some target =>
    simp only [htarget, bind_eq_ok, failIf_eq_ok, exists_const, Bool.not_eq_false] at h
    obtain ⟨-, hutf8, ⟨⟨⟩, hvalid, -⟩⟩ := h
    exact ⟨target, rfl, hutf8, hvalid⟩

/-- The loop over the ancestors. `done` are the parts that the string
`ancestor` is made of. -/
theorem insertAncestors_ok {done rest : List Text} (hparts : ∀ part ∈ done ++ rest, part ≠ [])
    (h : s.insertAncestors (join done) rest = .ok t) :
    (∀ q, q <+: rest → q ≠ [] → join ((done ++ q).map toAsciiLowercase) ∉ s.foldedFiles ∧
      join ((done ++ q).map toAsciiLowercase) ∈ t.foldedDirectories) ∧
    s.foldedDirectories ⊆ t.foldedDirectories ∧ t.folded = s.folded ∧
    t.foldedFiles = s.foldedFiles := by
  induction rest generalizing s done with
  | nil =>
    obtain rfl : s = t := Except.ok.inj h
    refine ⟨fun q hq hne => ?_, Subset.refl _, rfl, rfl⟩
    exact absurd (prefix_nil.mp hq) hne
  | cons part rest ih =>
    have hassoc : ∀ q, done ++ part :: q = done ++ [part] ++ q := by simp
    rw [insertAncestors, join_step part fun p hp => hparts p (mem_append_left _ hp),
      bind_eq_ok] at h
    obtain ⟨m, hm, hrest⟩ := h
    obtain ⟨hfile, hfolded, hfiles, hdirs⟩ := insertDirectory_ok hm
    obtain ⟨hall, hsub, hfolded', hfiles'⟩ := ih (by rwa [← hassoc]) hrest
    rw [toAsciiLowercase_join] at hfile hdirs
    refine ⟨fun q hq hne => ?_, fun d hd => hsub (by rw [hdirs]; exact mem_cons_of_mem _ hd),
      hfolded'.trans hfolded, hfiles'.trans hfiles⟩
    obtain rfl | ⟨q', rfl, hq'⟩ := prefix_cons_iff.mp hq
    · exact absurd rfl hne
    · rw [hassoc]
      by_cases hempty : q' = []
      · -- the ancestor of this very step
        rw [hempty, append_nil]
        exact ⟨hfile, hsub (by rw [hdirs]; exact mem_cons_self)⟩
      · rw [← hfiles]
        exact hall q' hq' hempty

theorem ancestor_path {q : List Text} (hq : q <+: e.folded) (hproper : q ≠ e.folded) :
    ∃ p, p <+: e.path.dropLast ∧ q = p.map toAsciiLowercase := by
  have hlast : e.folded.dropLast ++ [e.folded.getLast e.folded_ne_nil] =
      e.folded := dropLast_append_getLast _
  rw [← hlast, prefix_concat_iff, hlast] at hq
  have hdrop : q <+: e.path.dropLast.map toAsciiLowercase := by
    rw [map_dropLast]
    exact hq.resolve_left hproper
  exact prefix_map_iff.mp hdrop

/-- What one turn of the loop has checked, and what it adds to the sets. -/
structure Checked (s t : Preflight) (e : Entry) : Prop where
  admissible : Admissible e
  isNew : join e.folded ∉ s.folded
  noFile : ∀ q, q <+: e.folded → q ≠ [] → q ≠ e.folded → join q ∉ s.foldedFiles
  noDirectory : e.isDir = false → join e.folded ∉ s.foldedDirectories
  folded : join e.folded :: s.folded ⊆ t.folded
  foldedFiles : s.foldedFiles ⊆ t.foldedFiles
  foldedDirectories : s.foldedDirectories ⊆ t.foldedDirectories
  file : e.isDir = false → join e.folded ∈ t.foldedFiles
  ancestors : ∀ q, q <+: e.folded → q ≠ [] → q ≠ e.folded → join q ∈ t.foldedDirectories
  directory : e.isDir = true → join e.folded ∈ t.foldedDirectories

theorem entry_checked (h : Preflight.entry limits s e = .ok t) : Checked s t e := by
  simp only [Preflight.entry, bind_eq_ok, failIf_eq_ok, exists_const] at h
  obtain ⟨-, normalized, hnormalized, ⟨⟨⟩, -, s₁, hs₁, s₂, hs₂, hlast⟩⟩ := h
  obtain ⟨rfl, hnamed⟩ := normalizedZipPath_ok hnormalized
  obtain ⟨hnew, hfolded₁, hfiles₁, hdirs₁⟩ := insertPath_ok hs₁
  have hparts : ∀ part ∈ [] ++ e.path.dropLast, part ≠ [] :=
    fun part hpart => (hnamed part (mem_of_mem_dropLast hpart)).1
  obtain ⟨hancestors, hsub, hfolded₂, hfiles₂⟩ := insertAncestors_ok hparts hs₂
  rw [e.lowercase_trimmed] at hnew hfolded₁
  rw [hfolded₁] at hfolded₂
  rw [hfiles₁] at hfiles₂
  rw [hdirs₁] at hsub
  -- the checks on the ancestors, for paths up to case
  have hproper : ∀ q, q <+: e.folded → q ≠ [] → q ≠ e.folded →
      join q ∉ s.foldedFiles ∧ join q ∈ s₂.foldedDirectories := by
    intro q hq hne hproper
    obtain ⟨p, hp, rfl⟩ := ancestor_path hq hproper
    rw [← hfiles₁]
    exact hancestors p hp (by simpa using hne)
  cases hdir : e.isDir with
  | true =>
    simp only [hdir, if_true] at hlast
    obtain ⟨-, hfolded, hfiles, hdirs⟩ := insertDirectory_ok hlast
    rw [e.lowercase_trimmed] at hdirs
    exact
      { admissible := ⟨hnamed, by simp [hdir]⟩
        isNew := hnew
        noFile := fun q hq hne hq' => (hproper q hq hne hq').1
        noDirectory := by simp [hdir]
        folded := by simp [hfolded, hfolded₂]
        foldedFiles := by simp [hfiles, hfiles₂]
        foldedDirectories := fun d hd => by simp [hdirs, hsub hd]
        file := by simp [hdir]
        ancestors := fun q hq hne hq' => by simp [hdirs, (hproper q hq hne hq').2]
        directory := by simp [hdirs] }
  | false =>
    simp only [hdir, Bool.false_eq_true, if_false] at hlast
    obtain ⟨hnodir, hfolded, hfiles, hdirs, bytes, hbytes⟩ := insertFile_ok hlast
    rw [e.lowercase_trimmed] at hnodir hfiles
    exact
      { admissible := ⟨hnamed, fun _ hlink => declares_ok hlink hbytes⟩
        isNew := hnew
        noFile := fun q hq hne hq' => (hproper q hq hne hq').1
        noDirectory := fun _ hmem => hnodir (hsub hmem)
        folded := by simp [hfolded, hfolded₂]
        foldedFiles := by simp [hfiles, hfiles₂]
        foldedDirectories := fun d hd => by simp [hdirs, hsub hd]
        file := by simp [hfiles]
        ancestors := fun q hq hne hq' => by simp [hdirs, (hproper q hq hne hq').2]
        directory := by simp [hdir] }

theorem Checked.compatible {b : Entry} (h : Checked s t e) (hs : s.Describes es) (hb : b ∈ es) :
    Compatible b e := by
  have hne : b.folded ≠ e.folded := fun heq => h.isNew (heq ▸ hs.paths b hb)
  refine ⟨hne, fun hfile hprefix => ?_, fun hfile hprefix => ?_⟩
  · exact h.noFile b.folded hprefix b.folded_ne_nil hne (hs.files b hb hfile)
  · exact h.noDirectory hfile (hs.ancestors b hb e.folded hprefix e.folded_ne_nil hne.symm)

theorem Checked.describes (h : Checked s t e) (hs : s.Describes es) : t.Describes (es ++ [e]) := by
  have hcases : ∀ b ∈ es ++ [e], b ∈ es ∨ b = e := by simp
  refine ⟨fun b hb => ?_, fun b hb => ?_, fun b hb q hq hne hproper => ?_, fun b hb => ?_⟩
  all_goals obtain hold | rfl := hcases b hb
  · exact h.folded (mem_cons_of_mem _ (hs.paths b hold))
  · exact h.folded mem_cons_self
  · exact fun hfile => h.foldedFiles (hs.files b hold hfile)
  · exact h.file
  · exact h.foldedDirectories (hs.ancestors b hold q hq hne hproper)
  · exact h.ancestors q hq hne hproper
  · exact fun hdir => h.foldedDirectories (hs.directories b hold hdir)
  · exact h.directory

end Preflight

theorem accepted {s t : Preflight} {before : List Entry} (hs : s.Describes before)
    (h : es.foldlM (Preflight.entry limits) s = .ok t) :
    (∀ e ∈ es, Admissible e) ∧ es.Pairwise Compatible ∧
      ∀ b ∈ before, ∀ e ∈ es, Compatible b e := by
  induction es generalizing s before with
  | nil => simp
  | cons e es ih =>
    rw [foldlM_cons, bind_eq_ok] at h
    obtain ⟨m, hm, hrest⟩ := h
    have hchecked := Preflight.entry_checked hm
    obtain ⟨hall, hpairwise, hbefore⟩ := ih (hchecked.describes hs) hrest
    refine ⟨?_, ?_, ?_⟩
    · simpa [hchecked.admissible] using hall
    · exact pairwise_cons.mpr ⟨hbefore e (by simp), hpairwise⟩
    · intro b hb e' he'
      obtain rfl | he' := mem_cons.mp he'
      · exact hchecked.compatible hs hb
      · exact hbefore b (by simp [hb]) e' he'

theorem accepted_of_accepts {t : Preflight} (h : accepts limits es = .ok t) :
    (∀ e ∈ es, Admissible e) ∧ es.Pairwise Compatible := by
  have hnone : Preflight.Describes {} [] := ⟨by simp, by simp, by simp, by simp⟩
  obtain ⟨hall, hpairwise, -⟩ := accepted hnone h
  exact ⟨hall, hpairwise⟩

end IndenturedServer.Source
