import IndenturedServer.Foundation.Correspondence
import IndenturedServer.Source.Packaged
import IndenturedServer.Source.Confinement

/-!
From the client's sources to the server's workspace.

The archive is what connects the two sides. `ReadsBack` is what a faithful ZIP
reader returns for an entry that was written: the same name, mode and bytes, in
whatever pieces. A package of the client then is an acceptable archive, its
extraction succeeds, and the tree it leaves has the planned entries, the
directories above them, and nothing else.
-/

namespace IndenturedServer.Source

open Foundation Client List

/-- What a faithful reader returns for an entry. A directory is an entry whose
name ends in a separator. -/
structure ReadsBack (w : Client.Written) (r : Record) : Prop where
  name : r.name = w.name
  isDir : r.isDir = (w.name.getLast? == some slash || w.name.getLast? == some backslash)
  mode : r.unixMode = some w.mode
  size : r.size.toNat = w.content.length
  readable : Readable r.reads
  content : content r.reads = w.content

/-- Limits that are at least those of the client. -/
structure Limits.CoverClient (limits : Limits) : Prop where
  files : Client.maxFiles ≤ limits.maxFiles
  depth : Client.maxDepth ≤ limits.maxDepth
  bytes : Client.maxUncompressedBytes ≤ limits.maxUncompressedBytes

theorem readToEnd_eq_content {reads : List (Option Text)} {limit : Nat} (hreads : Readable reads)
    (h : (content reads).length < limit) : readToEnd limit reads = some (content reads) := by
  induction reads generalizing limit with
  | nil => cases limit <;> rfl
  | cons read rest ih =>
    have hrest : Readable rest := fun hmem => hreads (mem_cons_of_mem _ hmem)
    cases read with
    | none => exact absurd mem_cons_self hreads
    | some chunk =>
      cases chunk with
      | nil => cases limit <;> rfl
      | cons b bytes =>
        simp only [content, cons_ne_nil, if_false, length_append] at h ⊢
        have hlimit : ¬ limit ≤ (b :: bytes).length := by omega
        have hmore : readToEnd (limit - (b :: bytes).length) rest = some (content rest) :=
          ih hrest (by omega)
        cases limit with
        | zero => omega
        | succ limit => simp only [readToEnd, hlimit, if_false, hmore, Option.map_some]

theorem Client.ValidPath.not_isDir {path : Text} (h : ValidPath path) :
    (path.getLast? == some slash || path.getLast? == some backslash) = false := by
  have hslash : path.getLast? ≠ some slash := by
    intro hlast
    obtain ⟨front, rfl⟩ := getLast?_eq_some_iff.mp hlast
    have hpart : ([] : Text) ∈ (front ++ [slash]).splitOn slash := by
      rw [splitOn_append_cons_self]
      simp
    exact (h.named [] hpart).1 rfl
  have hbackslash : path.getLast? ≠ some backslash := by
    intro hlast
    exact h.noBackslash (mem_of_getLast? hlast)
  simp [hslash, hbackslash]

/-! ### An entry on its way -/

structure Carries (mode : Client.Mode) (e : Client.PlannedEntry) (r : Record) : Prop where
  valid : Client.ValidPath e.path
  packs : ∃ w, Client.Packs mode e w ∧ ReadsBack w r

namespace Carries

variable {mode : Client.Mode} {e : Client.PlannedEntry} {r : Record} {limits : Limits}

section
variable (h : Carries mode e r)
include h

theorem name : r.entry.name = e.path := by
  obtain ⟨w, hpacks, hread⟩ := h.packs
  show r.name = e.path
  rw [hread.name]
  cases hpacks with
  | file hkind hw => rw [hw]
  | symlink target hkind htarget hutf8 hvalid hw => rw [hw]

theorem isDir : r.entry.isDir = false := by
  obtain ⟨w, hpacks, hread⟩ := h.packs
  have hname : w.name = e.path := hread.name.symm.trans h.name
  show r.isDir = false
  rw [hread.isDir, hname]
  exact h.valid.not_isDir

theorem trimmed : r.entry.trimmed = e.path := by
  rw [Entry.trimmed, h.isDir]
  exact h.name

theorem path : r.entry.path = e.path.splitOn slash := by
  rw [Entry.path, h.trimmed]

theorem readable : Readable r.reads := by
  obtain ⟨w, -, hread⟩ := h.packs
  exact hread.readable

theorem size : r.size.toNat = (content r.reads).length := by
  obtain ⟨w, -, hread⟩ := h.packs
  rw [hread.size, hread.content]

theorem file (hkind : e.kind = .file) :
    r.unixMode = some (regularMode e.executable) ∧ content r.reads = mode.bytes e.path := by
  obtain ⟨w, hpacks, hread⟩ := h.packs
  cases hpacks with
  | file _ hw => exact ⟨by rw [hread.mode, hw], by rw [hread.content, hw]⟩
  | symlink target hlink => simp [hkind] at hlink

theorem symlink (hkind : e.kind = .symlink) :
    r.unixMode = some symlinkMode ∧ mode.target e.path = some (content r.reads) ∧
      isUtf8 (content r.reads) = true ∧
      Client.validateSymlinkTarget e.path (content r.reads) = .ok () := by
  obtain ⟨w, hpacks, hread⟩ := h.packs
  cases hpacks with
  | file hfile => simp [hkind] at hfile
  | symlink target _ htarget hutf8 hvalid hw =>
    have hcontent : content r.reads = target := by rw [hread.content, hw]
    rw [hcontent]
    exact ⟨by rw [hread.mode, hw], htarget, hutf8, hvalid⟩

theorem isSymlink : r.entry.isSymlink = (e.kind == .symlink) := by
  show r.isSymlink = _
  cases hkind : e.kind with
  | file =>
    rw [Record.isSymlink, (h.file hkind).1]
    cases e.executable <;> decide
  | symlink =>
    rw [Record.isSymlink, (h.symlink hkind).1]
    decide

theorem modeAgrees : r.entry.ModeAgrees := by
  intro m hm
  have hmode : r.unixMode = some m := hm
  right
  rw [Entry.expectedType, h.isDir, h.isSymlink]
  cases hkind : e.kind with
  | file =>
    obtain rfl : m = regularMode e.executable :=
      Option.some.inj (hmode.symm.trans (h.file hkind).1)
    cases e.executable <;> decide
  | symlink =>
    obtain rfl : m = symlinkMode := Option.some.inj (hmode.symm.trans (h.symlink hkind).1)
    decide

theorem readTarget (hkind : e.kind = .symlink) :
    readToEnd 4097 r.reads = some (content r.reads) := by
  obtain ⟨-, -, -, hvalid⟩ := h.symlink hkind
  have hlength := (Client.validateSymlinkTarget_ok hvalid).2
  exact readToEnd_eq_content h.readable (by omega)

theorem kind_of_isSymlink (hlink : r.entry.isSymlink = true) : e.kind = .symlink := by
  rw [h.isSymlink] at hlink
  simpa using hlink

theorem sound (hlimits : limits.CoverClient) : r.entry.Sound limits := by
  refine ⟨⟨?_, ?_, ?_, ?_, ?_⟩, h.modeAgrees, fun hlink => ?_, fun _ hlink => ?_⟩
  · rw [h.name]
    exact h.valid.ascii
  · rw [h.name]
    exact h.valid.noBackslash
  · rw [h.name]
    exact h.valid.noNul
  · rw [Entry.Named, h.path]
    exact h.valid.named
  · rw [h.path]
    exact h.valid.depth.trans hlimits.depth
  · have hmode : r.unixMode = some symlinkMode := (h.symlink (h.kind_of_isSymlink hlink)).1
    show r.unixMode ≠ none
    simp [hmode]
  · have hkind := h.kind_of_isSymlink hlink
    obtain ⟨-, -, hutf8, hvalid⟩ := h.symlink hkind
    obtain ⟨hserver, hlength⟩ := Client.validateSymlinkTarget_ok hvalid
    refine ⟨content r.reads, h.readTarget hkind, hlength, hutf8, ?_⟩
    rw [h.trimmed]
    exact hserver

theorem weight :
    r.entry.weight = (content r.reads).length ∧ r.entry.declaredBytes = (content r.reads).length := by
  rw [Entry.weight, Entry.declaredBytes, h.isDir]
  cases hkind : e.kind with
  | file =>
    have hlink : r.entry.isSymlink = false := by rw [h.isSymlink, hkind]; rfl
    have hsize : r.entry.size.toNat = (content r.reads).length := h.size
    simp only [hlink, hsize, Bool.false_eq_true, if_false, and_true]
    rfl
  | symlink =>
    have hlink : r.entry.isSymlink = true := by rw [h.isSymlink, hkind]; rfl
    have hread : readToEnd 4097 r.entry.reads = some (content r.reads) := h.readTarget hkind
    simp [hlink, hread]

end

end Carries

/-! ### The archive -/

section
variable {mode : Client.Mode} {planned : List Client.PlannedEntry} {records : List Record}
  {limits : Limits}

theorem carries_of_package {pkg : Package} (h : package mode = .ok pkg)
    (hzip : Forall₂ ReadsBack pkg.written records) :
    Forall₂ (Carries mode) pkg.planned records := by
  obtain ⟨hplanned, hpacks, -⟩ := package_ok h
  have hboth := (forall₂_and_left pkg.planned records).mpr
    ⟨hplanned.valid, forall₂_comp hpacks hzip⟩
  exact hboth.imp fun e r hr => ⟨hr.1, hr.2⟩

theorem sum_content {written : List Written} (hzip : Forall₂ ReadsBack written records) :
    (records.map fun r => (content r.reads).length).sum =
      (written.map fun w => w.content.length).sum := by
  induction hzip with
  | nil => rfl
  | cons hread _ ih => rw [map_cons, sum_cons, map_cons, sum_cons, ih,
      hread.content]

theorem sum_entries (h : Forall₂ (Carries mode) planned records) :
    ((records.map Record.entry).map Entry.weight).sum =
        (records.map fun r => (content r.reads).length).sum ∧
      ((records.map Record.entry).map Entry.declaredBytes).sum =
        (records.map fun r => (content r.reads).length).sum := by
  have hall : ∀ r ∈ records, r.entry.weight = (content r.reads).length ∧
      r.entry.declaredBytes = (content r.reads).length := by
    intro r hr
    obtain ⟨e, -, he⟩ := forall₂_exists_left h hr
    exact he.weight
  rw [map_map, map_map]
  refine ⟨congrArg _ (map_congr_left fun r hr => ?_), congrArg _ (map_congr_left fun r hr => ?_)⟩
  · exact (hall r hr).1
  · exact (hall r hr).2

variable (hplanned : Client.Planned planned) (h : List.Forall₂ (Carries mode) planned records)
include hplanned h

theorem compatible_of_carries : (records.map Record.entry).Pairwise Compatible := by
  have hplan : planned.Pairwise fun a b => Compatible a.entry b.entry :=
    pairwise_map.mp hplanned.compatible
  have hfolded : ∀ {e r}, Carries mode e r → r.entry.folded = e.entry.folded := by
    intro e r hr
    rw [Entry.folded, hr.path]
    rfl
  rw [pairwise_map]
  refine forall₂_pairwise h (fun a a' b b' hb hb' hab => ?_) hplan
  refine ⟨?_, fun _ => ?_, fun _ => ?_⟩
  all_goals rw [hfolded hb, hfolded hb']
  · exact hab.ne
  · exact hab.left rfl
  · exact hab.right rfl

theorem acceptable_of_carries (hlimits : limits.CoverClient)
    (hsum : (records.map fun r => (content r.reads).length).sum ≤ maxUncompressedBytes) :
    Acceptable limits (records.map Record.entry) := by
  obtain ⟨hdistinct, habove⟩ := pairwise_compatible_iff.mp (compatible_of_carries hplanned h)
  have hsound : ∀ e ∈ records.map Record.entry, e.Sound limits := by
    intro e he
    obtain ⟨r, hr, rfl⟩ := mem_map.mp he
    obtain ⟨planned, -, hcarries⟩ := forall₂_exists_left h hr
    exact hcarries.sound hlimits
  refine ⟨?_, fun e he => (hsound e he).named, fun e he => (hsound e he).mode, hdistinct, habove,
    fun e he => (hsound e he).target, ?_⟩
  · rw [length_map, ← h.length_eq]
    exact hplanned.count.trans hlimits.files
  · rw [declaredTotal_eq, (sum_entries h).2]
    exact (Nat.min_le_left _ _).trans (hsum.trans hlimits.bytes)

end

/-! ### The tree -/

/-- A path of the client as the file system of the server looks it up. -/
def pathKey (rule : CaseRule) (path : Text) : List Text :=
  (path.splitOn slash).map rule.fold

/-- The planned entry is in the tree: the bytes of the source and its
executable bit, or the target of the source. -/
inductive Installed (mode : Client.Mode) (rule : CaseRule) (t : Tree Text Text)
    (e : Client.PlannedEntry) : Prop
  | file (hkind : e.kind = .file)
      (h : t (pathKey rule e.path) =
        some (.file (mode.bytes e.path) (some (if e.executable then 0o755 else 0o644))))
  | symlink (target : Text) (hkind : e.kind = .symlink)
      (htarget : mode.target e.path = some target)
      (h : t (pathKey rule e.path) = some (.link target))

theorem Carries.key {mode : Mode} {e : PlannedEntry} {r : Record}
    (h : Carries mode e r) (rule : CaseRule) : r.entry.key rule = pathKey rule e.path := by
  rw [Entry.key, h.path, pathKey]

variable {rule : CaseRule} {t : Tree Text Text}

theorem Carries.installed {mode : Mode} {e : PlannedEntry} {r : Record}
    (h : Carries mode e r) (hstored : Stored rule t r.entry) : Installed mode rule t e := by
  cases hstored with
  | directory m hdir _ => simp [h.isDir] at hdir
  | symlink target _ hlink htarget hnode =>
    have hkind := h.kind_of_isSymlink hlink
    have hread : readToEnd 4097 r.entry.reads = some (content r.reads) := h.readTarget hkind
    obtain rfl : content r.reads = target := Option.some.inj (hread.symm.trans htarget)
    rw [h.key] at hnode
    exact .symlink _ hkind (h.symlink hkind).2.1 hnode
  | file _ hlink hnode =>
    have hkind : e.kind = .file := by
      cases hk : e.kind with
      | file => rfl
      | symlink => simp [h.isSymlink, hk] at hlink
    obtain ⟨hmode, hbytes⟩ := h.file hkind
    have hpermissions : r.entry.permissions = some (if e.executable then 0o755 else 0o644) := by
      have hentry : r.entry.unixMode = some (regularMode e.executable) := hmode
      rw [Entry.permissions, hentry]
      cases e.executable <;> decide
    have hcontent : content r.entry.reads = mode.bytes e.path := hbytes
    rw [h.key, hcontent, hpermissions] at hnode
    exact .file hkind hnode

/-- Nothing is in the tree but the entries and the directories above them. -/
theorem Holds.exact {es : List Entry} (h : Holds rule es es t) {p : List Text} (hp : p ≠ []) :
    ((∃ node, t p = some node) ↔ ∃ e ∈ es, p <+: e.key rule) ∧
      ((∃ e ∈ es, p <+: e.key rule ∧ p ≠ e.key rule) → t.IsDirectory p) := by
  have habove : (∃ e ∈ es, p <+: e.key rule ∧ p ≠ e.key rule) → t.IsDirectory p := by
    rintro ⟨e, he, hbelow, hproper⟩
    have hlast : (e.key rule).dropLast ++ [(e.key rule).getLast (e.key_ne_nil rule)] = e.key rule :=
      dropLast_append_getLast _
    rw [← hlast, prefix_concat_iff, hlast] at hbelow
    obtain ⟨node, hnode⟩ := Option.ne_none_iff_exists'.mp (h.stored e he).ne_none
    rw [← hlast] at hnode
    exact h.above (h.closed _ _ node hnode) (hbelow.resolve_left hproper) hp
  refine ⟨⟨?_, ?_⟩, habove⟩
  · rintro ⟨node, hnode⟩
    by_cases hkind : node.kind = .dir
    · cases node with
      | dir m =>
        obtain ⟨e, he, hthrough⟩ := h.directory p m hnode
        exact ⟨e, he, hthrough.1⟩
      | file bytes m => cases hkind
      | link text => cases hkind
    · obtain ⟨e, he, -, rfl⟩ := h.file p node hnode hkind
      exact ⟨e, he, prefix_refl _⟩
  · rintro ⟨e, he, hbelow⟩
    by_cases hproper : p = e.key rule
    · rw [hproper]
      exact Option.ne_none_iff_exists'.mp (h.stored e he).ne_none
    · exact Option.ne_none_iff_exists'.mp
        (ne_none_of_isDirectory (habove ⟨e, he, hbelow, hproper⟩) hp)

/-- **Source round trip.** What the client packages, from a Jujutsu tree or
from the file system, the server accepts, and its extraction gives the planned
files and symlinks, the directories above them, and nothing else. -/
theorem source_round_trip (env : Environment) {limits : Limits} (hlimits : limits.CoverClient)
    {mode : Client.Mode} {pkg : Client.Package} (hpackage : Client.package mode = .ok pkg)
    {archive : Archive} (hzip : List.Forall₂ ReadsBack pkg.written archive.records)
    (hroom : (pkg.written.map fun w => w.content.length).sum ≤ env.capacity) :
    (∃ w, preflightSourceArchive env.undisturbed limits archive.entries {} = .ok () w) ∧
    ∃ w, extractSourceArchiveInner env.undisturbed limits archive.entries {} = .ok () w ∧
      (∀ e ∈ pkg.planned, Installed mode env.caseRule w.tree e) ∧
      ∀ p, p ≠ [] →
        ((∃ node, w.tree p = some node) ↔
          ∃ e ∈ pkg.planned, p <+: pathKey env.caseRule e.path) ∧
        ((∃ e ∈ pkg.planned, p <+: pathKey env.caseRule e.path ∧
            p ≠ pathKey env.caseRule e.path) → w.tree.IsDirectory p) := by
  obtain ⟨hplanned, -, hsum⟩ := Client.package_ok hpackage
  have hcarries := carries_of_package hpackage hzip
  rw [← sum_content hzip] at hsum hroom
  have hacceptable : Acceptable limits archive.entries :=
    acceptable_of_carries hplanned hcarries hlimits hsum
  have hlength : archive.entries.length < 2 ^ 64 := by
    simpa [Archive.entries] using archive.length_lt
  have hextractable : ∀ e ∈ archive.entries, e.Extractable limits := by
    intro e he
    obtain ⟨r, hr, rfl⟩ := List.mem_map.mp he
    obtain ⟨planned, -, h⟩ := forall₂_exists_left hcarries hr
    exact ⟨h.sound hlimits, fun _ => h.readable⟩
  have hweight : (archive.entries.map Entry.weight).sum =
      (archive.records.map fun r => (content r.reads).length).sum := (sum_entries hcarries).1
  obtain ⟨t, ht⟩ := (accepts_ok_iff hlength).mpr
    ⟨hacceptable, fun e he => (hextractable e he).sound.symlinkMode⟩
  obtain ⟨w, hrun⟩ := extractSourceArchiveInner_succeeds env hlength hacceptable hextractable
    (hweight ▸ hroom) (hweight ▸ hsum.trans hlimits.bytes)
  have hholds : Holds env.caseRule archive.entries archive.entries w.tree := (holds_of_extract hrun).2
  refine ⟨(preflightSourceArchive_ok_iff env limits _ {}).mpr ⟨t, ht⟩, w, hrun, fun e he => ?_,
    fun p hp => ?_⟩
  · obtain ⟨r, hr, h⟩ := forall₂_exists_right hcarries he
    exact h.installed (hholds.stored r.entry (List.mem_map.mpr ⟨r, hr, rfl⟩))
  · -- the planned paths are those of the archive
    have hpaths : ∀ P : List Text → Prop,
        (∃ e ∈ pkg.planned, P (pathKey env.caseRule e.path)) ↔
          ∃ b ∈ archive.entries, P (b.key env.caseRule) := by
      intro P
      constructor
      · rintro ⟨e, he, hP⟩
        obtain ⟨r, hr, h⟩ := forall₂_exists_right hcarries he
        exact ⟨r.entry, List.mem_map.mpr ⟨r, hr, rfl⟩, by rwa [h.key]⟩
      · rintro ⟨b, hb, hP⟩
        obtain ⟨r, hr, rfl⟩ := List.mem_map.mp hb
        obtain ⟨e, he, h⟩ := forall₂_exists_left hcarries hr
        exact ⟨e, he, by rwa [h.key] at hP⟩
    rw [hpaths fun q => p <+: q, hpaths fun q => p <+: q ∧ p ≠ q]
    exact hholds.exact hp

/-- An executable `a/b` and a link `c` to it. -/
def samplePlan : List Client.PlannedEntry :=
  [⟨[0x61, slash, 0x62], .file, true, none⟩,
    ⟨[0x63], .symlink, false, some [0x61, slash, 0x62]⟩]

def sampleFilesystem : Client.Filesystem :=
  { first := .ok samplePlan
    second := .ok samplePlan
    symlinkMetadata := fun _ => some ⟨1, 2, true, 3, 0, 0⟩
    opened := fun _ => some ⟨1, 2, true, 3, 0, 0⟩
    reads := fun _ => [some [7, 8], some [9]]
    after := fun _ => some ⟨1, 2, true, 3, 0, 0⟩
    readLink := fun _ => some [0x61, slash, 0x62] }

def sampleArchive : Archive :=
  { records :=
      [⟨[0x61, slash, 0x62], false, some 0o100755, 3, [some [7], some [8, 9]]⟩,
        ⟨[0x63], false, some 0o120777, 3, [some [0x61, slash, 0x62], some []]⟩]
    length_lt := by decide }

theorem sample_round_trip :
    ∃ w, extractSourceArchiveInner
        (Environment.undisturbed ⟨.sensitive, 8, 100, by decide, fun _ => none⟩)
        ⟨1342177280, 50000, 64⟩ sampleArchive.entries {} = .ok () w ∧
      ∀ e ∈ samplePlan, Installed (.filesystem sampleFilesystem) .sensitive w.tree e := by
  have hpackage : Client.package (.filesystem sampleFilesystem) = .ok
      ⟨samplePlan, [⟨[0x61, slash, 0x62], 0o100755, [7, 8, 9]⟩,
        ⟨[0x63], 0o120777, [0x61, slash, 0x62]⟩]⟩ := rfl
  have hlimits : Limits.CoverClient ⟨1342177280, 50000, 64⟩ :=
    ⟨le_rfl, le_rfl, le_rfl⟩
  have hzip : List.Forall₂ ReadsBack
      [⟨[0x61, slash, 0x62], 0o100755, [7, 8, 9]⟩, ⟨[0x63], 0o120777, [0x61, slash, 0x62]⟩]
      sampleArchive.records :=
    .cons ⟨rfl, rfl, rfl, rfl, by simp [Readable], rfl⟩
      (.cons ⟨rfl, rfl, rfl, rfl, by simp [Readable], rfl⟩ .nil)
  obtain ⟨-, w, hrun, hinstalled, -⟩ := source_round_trip
    ⟨.sensitive, 8, 100, by decide, fun _ => none⟩ hlimits hpackage hzip (by decide)
  exact ⟨w, hrun, hinstalled⟩

end IndenturedServer.Source
