import IndenturedServer.Artifacts.Names
import IndenturedServer.Artifacts.Snapshot
import IndenturedServer.Artifacts.Unpacking

/-!
From the server's workspace to the client's run directory.

The server names an entry after the path of its file and checks that no two
names agree up to case. The client wants names in ASCII, without backslashes,
and with no file among the ancestors of another up to case. Within its default
limits the server publishes archives that the client refuses, or that put a
file somewhere else; `Consumable` says which archives arrive.
-/

namespace IndenturedServer.Artifacts

open Foundation Source Download Record Entry ArchivedFile List

/-- An entry as it is handed to the ZIP writer. -/
def ArchivedFile.written (file : ArchivedFile) : Source.Client.Written :=
  { name := file.name, mode := UInt32.ofNat file.mode, content := file.content }

/-- What the paths of the archived files must be. (No call takes a longer path,
so that the bound on their length is there already.) -/
structure Consumable (paths : List (List Text)) : Prop where
  ascii : ∀ p ∈ paths, isAscii (join p) = true
  noBackslash : ∀ p ∈ paths, backslash ∉ join p
  length : ∀ p ∈ paths, (join p).length ≤ 4096
  noFileAbove : ∀ p ∈ paths, ∀ q ∈ paths,
    p.map toAsciiLowercase <+: q.map toAsciiLowercase → p.length = q.length

/-- The client accepts the archive into a fresh run directory, and has then every
archived file at the path that it has in the workspace, with the same bytes. -/
def Consumed (env : Environment) (matched : List Matched) (files : List ArchivedFile)
    (records : List Record) : Prop :=
  ∃ d tree, extractZipAtomic env records {} = .ok () d ∧ d.artifacts = some tree ∧
    ∀ m ∈ matched, ∀ file ∈ files, file.name = archiveName m.relative →
      ∃ mode, tree (m.relative.map env.caseRule.fold) = some (.file file.content mode)

/-! ### An entry on its way -/

/-- The record is what the reader returns for the entry of the file. -/
structure Carried (m : Matched) (file : ArchivedFile) (r : Record) : Prop where
  name : file.name = archiveName m.relative
  mode : ∃ mode, file.mode = archiveMode mode
  back : ReadsBack file.written r

/-- A path that a file of the workspace can have. -/
structure Matched.Proper (m : Matched) : Prop where
  ne_nil : m.relative ≠ []
  names : ∀ part ∈ m.relative, OsName part

/-- A path that the name of an entry tells. -/
structure Matched.Portable (m : Matched) : Prop extends m.Proper where
  ascii : isAscii (join m.relative) = true
  noBackslash : backslash ∉ join m.relative

namespace Carried

variable {m : Matched} {file : ArchivedFile} {r : Record}

section
variable (h : Carried m file r)
include h

theorem recordName : r.name = archiveName m.relative := by
  rw [h.back.name]
  exact h.name

theorem regular : Regular r := by
  obtain ⟨mode, hmode⟩ := h.mode
  have hunix : r.unixMode = some (UInt32.ofNat (archiveMode mode)) := by
    rw [h.back.mode, ← hmode]
    rfl
  refine ⟨?_, ⟨_, hunix⟩, ?_, h.back.readable, ?_⟩
  · rw [h.back.name]
    exact h.back.isDir
  · rw [Record.isSymlink, hunix, Option.any_some, (archiveMode_type mode).2]
    decide
  · rw [h.back.size, h.back.content]

theorem modeAgrees (hfile : r.isDir = false) : r.entry.ModeAgrees := by
  intro unix hunix
  obtain ⟨mode, hmode⟩ := h.mode
  have hread : r.unixMode = some unix := hunix
  have hback := h.back.mode
  rw [hread] at hback
  obtain rfl := Option.some.inj hback
  have hlink : r.entry.isSymlink = false := h.regular.noLink
  have hdir : r.entry.isDir = false := hfile
  right
  simp only [expectedType, hlink, hdir, Bool.false_eq_true, if_false]
  show UInt32.ofNat file.mode &&& 0o170000 = _
  rw [hmode]
  exact (archiveMode_type mode).1

variable (hm : m.Portable)
include hm

theorem name_eq : r.name = join m.relative := by
  rw [h.recordName, archiveName_eq hm.ascii hm.noBackslash]

theorem isDir_eq : r.isDir = false := by
  rw [h.regular.isDir, h.name_eq hm]
  exact getLast_join hm.ne_nil hm.names hm.noBackslash

theorem path_eq : r.entry.path = m.relative := by
  have hdir : r.entry.isDir = false := h.isDir_eq hm
  have hname : r.entry.name = join m.relative := h.name_eq hm
  rw [path, trimmed, hdir, hname]
  exact split_join hm.ne_nil hm.names

theorem wellNamed (hdepth : m.relative.length ≤ maxDepth) : r.entry.WellNamed maxDepth := by
  have hname : r.entry.name = join m.relative := h.name_eq hm
  have hpath := h.path_eq hm
  refine ⟨?_, ?_, ?_, ?_, ?_⟩
  · rw [hname]
    exact hm.ascii
  · rw [hname]
    exact hm.noBackslash
  · rw [hname]
    exact nul_not_mem_join hm.names
  · intro part hpart
    rw [hpath] at hpart
    have hpart' := hm.names part hpart
    exact ⟨hpart'.ne_nil, hpart'.ne_dot, hpart'.ne_dots⟩
  · rw [hpath]
    exact hdepth

end

end Carried

/-! ### The archive -/

/-- The archive on the side of the client. -/
structure Sent (matched : List Matched) (files : List ArchivedFile) (records : List Record) :
    Prop where
  /-- The entries are in an order of their own. -/
  carried : ∃ arranged, arranged.Perm matched ∧
    List.Forall₂ (fun m r => ∃ file ∈ files, Carried m file r) arranged records
  names : records.map Record.name = files.map ArchivedFile.name
  proper : ∀ m ∈ matched, m.Proper
  count : matched.length ≤ maxFiles
  depth : ∀ m ∈ matched, m.relative.length ≤ maxDepth
  folded : (matched.map fun m => toAsciiLowercase (toStringLossy m.relative)).Nodup
  total : ((records.map Record.entry).map Entry.weight).sum ≤ maxBytes

namespace Sent

variable {matched : List Matched} {files : List ArchivedFile} {records : List Record}

section
variable (h : Sent matched files records)
include h

theorem of_record {r : Record} (hr : r ∈ records) :
    ∃ m ∈ matched, ∃ file ∈ files, Carried m file r := by
  obtain ⟨arranged, hperm, hcarried⟩ := h.carried
  obtain ⟨m, hm, hfile⟩ := forall₂_exists_left hcarried hr
  exact ⟨m, hperm.mem_iff.mp hm, hfile⟩

theorem of_matched {m : Matched} (hm : m ∈ matched) :
    ∃ r ∈ records, ∃ file ∈ files, Carried m file r := by
  obtain ⟨arranged, hperm, hcarried⟩ := h.carried
  exact forall₂_exists_right hcarried (hperm.mem_iff.mpr hm)

theorem regular : ∀ r ∈ records, Regular r := by
  intro r hr
  obtain ⟨m, -, file, -, hcarried⟩ := h.of_record hr
  exact hcarried.regular

theorem length_eq : records.length = matched.length := by
  obtain ⟨arranged, hperm, hcarried⟩ := h.carried
  rw [← hcarried.length_eq, hperm.length_eq]

section
variable (hc : Consumable (matched.map Matched.relative))
include hc

theorem portable {m : Matched} (hm : m ∈ matched) : m.Portable :=
  { h.proper m hm with
    ascii := hc.ascii _ (mem_map_of_mem hm)
    noBackslash := hc.noBackslash _ (mem_map_of_mem hm) }

theorem distinct : (records.map entry).Pairwise fun a b => a.folded ≠ b.folded := by
  obtain ⟨arranged, hperm, hcarried⟩ := h.carried
  have hproper : Forall₂ (fun m r => m ∈ matched ∧ ∃ file ∈ files, Carried m file r)
      arranged records :=
    (forall₂_and_left arranged records).mpr ⟨fun m hm => hperm.mem_iff.mp hm, hcarried⟩
  have hfolded : ∀ m r, (m ∈ matched ∧ ∃ file ∈ files, Carried m file r) →
      toAsciiLowercase (toStringLossy m.relative) = join r.entry.folded := by
    rintro m r ⟨hm, file, -, hmr⟩
    have hportable := h.portable hc hm
    rw [toStringLossy, fromUtf8Lossy_of_isAscii hportable.ascii, toAsciiLowercase_join,
      Entry.folded, hmr.path_eq hportable]
  have hnodup : arranged.Pairwise fun m m' => toAsciiLowercase (toStringLossy m.relative) ≠
      toAsciiLowercase (toStringLossy m'.relative) :=
    pairwise_map.mp ((hperm.map _).nodup_iff.mpr h.folded)
  rw [pairwise_map]
  refine forall₂_pairwise hproper (fun m m' r r' hmr hmr' hne heq => hne ?_) hnodup
  rw [hfolded m r hmr, hfolded m' r' hmr', heq]

theorem accepted : Accepted records := by
  have hsimple : ∀ r ∈ records, ∃ m ∈ matched, (∃ file ∈ files, Carried m file r) ∧
      r.name = join m.relative ∧ r.isDir = false ∧ r.entry.path = m.relative ∧
      r.entry.WellNamed maxDepth := by
    intro r hr
    obtain ⟨m, hm, file, hfile, hmr⟩ := h.of_record hr
    have hportable := h.portable hc hm
    exact ⟨m, hm, ⟨file, hfile, hmr⟩, hmr.name_eq hportable, hmr.isDir_eq hportable,
      hmr.path_eq hportable, hmr.wellNamed hportable (h.depth m hm)⟩
  have hcount : records.length ≤ maxFiles := by
    rw [h.length_eq]
    exact h.count
  have hdistinct := h.distinct hc
  have hacceptable : Acceptable clientLimits (records.map entry) := by
    have hmap : ∀ {P : Entry → Prop}, (∀ r ∈ records, P r.entry) →
        ∀ e ∈ records.map entry, P e := by
      intro P hP e he
      obtain ⟨r, hr, rfl⟩ := mem_map.mp he
      exact hP r hr
    have hweights : (records.map entry).map weight =
        (records.map entry).map declaredBytes :=
      map_congr_left (hmap fun r hr => (h.regular r hr).weight)
    refine
      { count := ?_
        names := hmap fun r hr => ?_
        modes := hmap fun r hr => ?_
        distinct := hdistinct
        noFileAbove := ?_
        targets := hmap fun r hr _ hlink => ?_
        size := ?_ }
    · rw [length_map]
      unfold maxFiles at hcount
      show records.length ≤ 2 ^ 64
      omega
    · obtain ⟨m, -, -, -, -, -, hnamed⟩ := hsimple r hr
      exact hnamed
    · obtain ⟨m, -, ⟨file, -, hmr⟩, -, hfile, -⟩ := hsimple r hr
      exact hmr.modeAgrees hfile
    · intro a ha b hb _ habove
      obtain ⟨r, hr, rfl⟩ := mem_map.mp ha
      obtain ⟨r', hr', rfl⟩ := mem_map.mp hb
      obtain ⟨m, hm, -, -, -, hpath, -⟩ := hsimple r hr
      obtain ⟨m', hm', -, -, -, hpath', -⟩ := hsimple r' hr'
      apply habove.eq_of_length
      rw [Entry.folded, Entry.folded, hpath, hpath'] at habove ⊢
      rw [length_map, length_map]
      exact hc.noFileAbove _ (mem_map_of_mem hm) _ (mem_map_of_mem hm') habove
    · have hnone : r.isSymlink = true := hlink
      rw [(h.regular r hr).noLink] at hnone
      cases hnone
    · rw [declaredTotal_eq, ← hweights]
      exact (Nat.min_le_left _ _).trans h.total
  refine ⟨rejectDuplicateZipEntries_ok_iff.mpr ⟨fun r hr => ?_, ?_, by simp⟩, hcount,
    (list_ok_iff hcount h.regular).mpr hacceptable⟩
  · obtain ⟨m, hm, -, hname, -, -, hnamed⟩ := hsimple r hr
    refine ⟨hnamed.named.name_ne_nil, ?_⟩
    rw [hname]
    exact hc.length _ (mem_map_of_mem hm)
  · -- equal names are equal paths
    have hnames : records.Pairwise fun r r' => r.name ≠ r'.name := by
      refine (pairwise_map.mp hdistinct).imp_of_mem fun {r r'} hr hr' hne heq => hne ?_
      obtain ⟨-, -, -, -, hfile, -⟩ := hsimple r hr
      obtain ⟨-, -, -, -, hfile', -⟩ := hsimple r' hr'
      have htrimmed : r.entry.trimmed = r'.entry.trimmed := by
        show (if r.isDir then _ else r.name) = if r'.isDir then _ else r'.name
        rw [hfile, hfile']
        exact heq
      rw [Entry.folded, Entry.folded, Entry.path, Entry.path, htrimmed]
    exact pairwise_map.mpr hnames

end

variable {env : Environment}

variable (hcalm : env.Calm) (hroom : ((records.map entry).map weight).sum ≤ env.capacity)
include hcalm hroom

theorem extracts :
    (∃ d, extractZipAtomic env records {} = .ok () d ∧ Accepted records ∧
      Unpacked env.caseRule records d) ∨
    ∃ e d, extractZipAtomic env records {} = .error e d ∧ ¬ Accepted records := by
  have hfresh : Staged (Going (Holds env.caseRule [] []) 0) {} :=
    ⟨going_empty env.caseRule, rfl⟩
  obtain ⟨⟨⟩, d, hrun, hd⟩ | ⟨e, d, hrun, hd⟩ :=
    (extractZipAtomic_calm hcalm h.regular hroom).run_cases hfresh
  · exact .inl ⟨d, hrun, hd⟩
  · exact .inr ⟨e, d, hrun, hd⟩

theorem consumed (hc : Consumable (matched.map Matched.relative)) :
    Consumed env matched files records := by
  have haccepted := h.accepted hc
  obtain ⟨d, hrun, -, tree, htree, hholds⟩ | ⟨e, d, -, hrefused⟩ := h.extracts hcalm hroom
  · refine ⟨d, tree, hrun, htree, fun m hm file hfile hname => ?_⟩
    obtain ⟨r, hr, file', hfile', hmr⟩ := h.of_matched hm
    have hportable := h.portable hc hm
    -- the names are distinct, so that this is the entry of the file
    have hnodup : (files.map ArchivedFile.name).Nodup := by
      rw [← h.names]
      exact (rejectDuplicateZipEntries_ok_iff.mp haccepted.names).2.1
    obtain rfl : file = file' :=
      inj_on_of_nodup_map hnodup hfile hfile' (hname.trans hmr.name.symm)
    have hkey : r.entry.key env.caseRule = m.relative.map env.caseRule.fold := by
      rw [key, hmr.path_eq hportable]
    have hdir : r.entry.isDir = false := hmr.isDir_eq hportable
    have hcontent : content r.entry.reads = file.content := hmr.back.content
    rw [← hkey]
    cases hholds.stored r.entry (mem_map_of_mem hr) with
    | directory mode hdir' _ => simp [hdir] at hdir'
    | symlink target _ hlink _ _ => simp [entry, hmr.regular.noLink] at hlink
    | file _ _ hnode =>
      rw [hcontent] at hnode
      exact ⟨_, hnode⟩
  · exact absurd haccepted hrefused

theorem consumable (hconsumed : Consumed env matched files records) :
    Consumable (matched.map Matched.relative) := by
  obtain ⟨d, tree, hrun, htree, hfiles⟩ := hconsumed
  obtain ⟨d', hrun', haccepted, tree', htree', hholds⟩ | ⟨e, d', hrun', -⟩ := h.extracts hcalm hroom
  · rw [hrun] at hrun'
    cases hrun'
    rw [htree] at htree'
    cases htree'
    have hacceptable := (list_ok_iff haccepted.count h.regular).mp haccepted.listed
    have hnamed : ∀ r ∈ records, r.entry.WellNamed maxDepth :=
      fun r hr => hacceptable.names _ (mem_map_of_mem hr)
    have hascii : ∀ m ∈ matched, isAscii (join m.relative) = true := by
      intro m hm
      obtain ⟨r, hr, file, -, hmr⟩ := h.of_matched hm
      have hname : isAscii r.name = true := (hnamed r hr).ascii
      rw [hmr.recordName] at hname
      exact isAscii_of_archiveName hname
    have hbackslash : ∀ m ∈ matched, backslash ∉ join m.relative := by
      intro m hm hmem
      obtain ⟨r, hr, file, hfile, hmr⟩ := h.of_matched hm
      obtain ⟨mode, hnode⟩ := hfiles m hm file hfile hmr.name
      -- what is at this path is an entry, and entries have no backslash
      obtain ⟨e, he, -, hkey⟩ := hholds.file _ _ hnode (by simp [Node.kind])
      obtain ⟨r', hr', rfl⟩ := mem_map.mp he
      obtain hslash | ⟨part, hpart, hb⟩ := mem_join hmem
      · revert hslash
        decide
      · have hfolded : env.caseRule.fold part ∈ r'.entry.key env.caseRule := by
          rw [hkey]
          exact mem_map_of_mem hpart
        obtain ⟨part', hpart', heq⟩ := mem_map.mp hfolded
        have hb' : backslash ∈ part' := by
          rw [← backslash_mem_fold env.caseRule, heq, backslash_mem_fold]
          exact hb
        have htrimmed : backslash ∈ r'.entry.trimmed := by
          rw [← r'.entry.join_path]
          exact mem_join_of_part hpart' hb'
        rw [(h.regular r' hr').trimmed] at htrimmed
        exact (hnamed r' hr').noBackslash (mem_trimmedName htrimmed)
    have hportable : ∀ m ∈ matched, m.Portable :=
      fun m hm => { h.proper m hm with ascii := hascii m hm, noBackslash := hbackslash m hm }
    have hpaths : ∀ p ∈ matched.map Matched.relative, ∃ m ∈ matched, m.relative = p :=
      fun p hp => mem_map.mp hp
    refine ⟨fun p hp => ?_, fun p hp => ?_, fun p hp => ?_, fun p hp q hq habove => ?_⟩
    · obtain ⟨m, hm, rfl⟩ := hpaths p hp
      exact hascii m hm
    · obtain ⟨m, hm, rfl⟩ := hpaths p hp
      exact hbackslash m hm
    · obtain ⟨m, hm, rfl⟩ := hpaths p hp
      obtain ⟨r, hr, file, -, hmr⟩ := h.of_matched hm
      rw [← hmr.name_eq (hportable m hm)]
      exact ((rejectDuplicateZipEntries_ok_iff.mp haccepted.names).1 r hr).2
    · obtain ⟨m, hm, rfl⟩ := hpaths p hp
      obtain ⟨m', hm', rfl⟩ := hpaths q hq
      obtain ⟨r, hr, file, -, hmr⟩ := h.of_matched hm
      obtain ⟨r', hr', file', -, hmr'⟩ := h.of_matched hm'
      have hfolded : r.entry.folded = m.relative.map toAsciiLowercase := by
        rw [Entry.folded, hmr.path_eq (hportable m hm)]
      have hfolded' : r'.entry.folded = m'.relative.map toAsciiLowercase := by
        rw [Entry.folded, hmr'.path_eq (hportable m' hm')]
      have heq := hacceptable.noFileAbove _ (mem_map_of_mem hr) _ (mem_map_of_mem hr')
        (hmr.isDir_eq (hportable m hm)) (by rw [hfolded, hfolded']; exact habove)
      rw [hfolded, hfolded'] at heq
      simpa using congrArg length heq
  · rw [hrun] at hrun'
    cases hrun'

end

end Sent

/-! ### What the server publishes -/

variable {spec : ArtifactSpec} {s : CollectContext} {fs : Fs Text}

section
variable {config : ArtifactsConfig} {root : Descriptor} {matched : List Matched} {w : Store}
  {files : List ArchivedFile} {records : List Record}

theorem Taken.archived (h : Taken config root matched w) (hfiles : w.own.published = some files) :
    ∃ arranged, arranged.Perm matched ∧
      Forall₂ (fun m file => ∃ artifact, AsObserved w.log root m artifact ∧
        ArchivedFrom w.own.reads artifact file) arranged files := by
  obtain ⟨opened, hopened, hfaithful⟩ := h.opened
  have hsorted : opened.Perm (sortOpened opened) := (perm_insertionSort _ opened).symm
  have harranged : Relation.Comp (Forall₂ (AsObserved w.log root)) Perm
      (sortMatched matched) (sortOpened opened) := ⟨opened, hopened, hsorted⟩
  rw [forall₂_comp_perm_eq_perm_comp_forall₂] at harranged
  obtain ⟨arranged, hperm, hobserved⟩ := harranged
  refine ⟨arranged, hperm.symm.trans (perm_insertionSort _ matched), ?_⟩
  exact forall₂_comp hobserved (hfaithful files hfiles).each

theorem sum_weight_le (hregular : ∀ r ∈ records, Regular r)
    (hzip : Forall₂ ReadsBack (files.map written) records) :
    ((records.map entry).map weight).sum ≤ contentTotal files := by
  have hweight : ∀ r ∈ records, r.entry.weight ≤ (content r.reads).length := by
    intro r hr
    rw [(hregular r hr).weight_eq_yielded]
    exact yielded_le r
  have hcontent := sum_content hzip
  rw [map_map] at hcontent ⊢
  calc (records.map (weight ∘ entry)).sum
      ≤ (records.map fun r => (content r.reads).length).sum := sum_le_sum hweight
    _ = contentTotal files := hcontent

theorem Taken.sent {patterns : List Text}
    (h : Taken { restrictedPatterns := patterns } root matched w)
    (hfiles : w.own.published = some files)
    (hnames : ∀ m ∈ matched, ∀ part ∈ m.relative, OsName part)
    (hzip : Forall₂ ReadsBack (files.map written) records) :
    Sent matched files records := by
  have hback : Forall₂ (fun file r => ReadsBack file.written r) files records :=
    forall₂_map_left_iff.mp hzip
  obtain ⟨arranged, hperm, harchived⟩ := h.archived hfiles
  have hcarried : Forall₂ (fun m r => ∃ file ∈ files, Carried m file r) arranged records := by
    have hmem := (forall₂_and_left files records).mpr ⟨fun file hfile => hfile, hback⟩
    refine (forall₂_comp harchived hmem).imp fun m r hr => ?_
    obtain ⟨file, ⟨artifact, hobserved, hfrom⟩, hfile, hread⟩ := hr
    refine ⟨file, hfile, ?_, ⟨artifact.mode, hfrom.mode⟩, hread⟩
    rw [hfrom.name, hobserved.relative]
  obtain ⟨hcount, hdepth, hfolded⟩ := validateArtifactCountAndDepth_ok h.valid
  refine
    { carried := ⟨arranged, hperm, hcarried⟩
      names := ?_
      proper := ?_
      count := hcount
      depth := hdepth
      folded := hfolded
      total := ?_ }
  · have hforall : Forall₂ (fun (name name' : Text) => name = name')
        (records.map Record.name) (files.map ArchivedFile.name) := by
      rw [forall₂_map_left_iff, forall₂_map_right_iff]
      exact hback.flip.imp fun r file hr => hr.name
    exact forall₂_eq_eq_eq ▸ hforall
  · intro m hm
    obtain ⟨file, -, artifact, hobserved, -⟩ :=
      forall₂_exists_right harchived (hperm.mem_iff.mpr hm)
    obtain ⟨parents, name, -, -, -, hpath, -⟩ := hobserved.opened
    exact ⟨by simp [hpath], hnames m hm⟩
  · have hregular : ∀ r ∈ records, Regular r := by
      intro r hr
      obtain ⟨m, -, file, -, hmr⟩ := forall₂_exists_left hcarried hr
      exact hmr.regular
    have hlimit : 2 * 1024 * 1024 * 1024 < 2 ^ 64 - 1 := by decide
    obtain ⟨opened, -, hfaithful⟩ := h.opened
    exact (sum_weight_le hregular hzip).trans ((hfaithful files hfiles).total hlimit)

/-! ### What the workspace holds -/

/-- What the walk says about its entries is what is there. -/
def Shows (fs : Fs Text) (root : Ino) (walk : List WalkItem) : Prop :=
  ∀ entry stat, .found entry ∈ walk → entry.metadata = .ok stat →
    ∃ shape, fs.look root entry.relative = some (stat.ino, shape) ∧ stat.kind = shape.kind

theorem ReadFrom.eq_of_whole {reads : List (Descriptor × Nat × Text)} {d : Descriptor}
    {text full : Text} (h : ReadFrom reads d text)
    (hreads : ∀ offset bytes, (d, offset, bytes) ∈ reads → bytes = (full.drop offset).take 8192)
    (hwhole : (d, text.length, []) ∈ reads) : text = full := by
  have hprefix : text <+: full := by
    clear hwhole
    induction h with
    | nothing => exact nil_prefix
    | @more text bytes _ hread ih =>
      obtain ⟨rest, rfl⟩ := ih
      have hbytes := hreads _ _ hread
      rw [drop_left] at hbytes
      rw [hbytes, prefix_append_right_inj]
      exact take_prefix _ _
  obtain ⟨rest, rfl⟩ := hprefix
  have hend := hreads _ _ hwhole
  have hrest : rest = [] := by
    cases rest with
    | nil => rfl
    | cons b rest => simp at hend
  rw [hrest, append_nil]

theorem Taken.archivedWorkspace (h : Taken config root matched w)
    (hfiles : w.own.published = some files)
    (hmatched : matchedFiles s.globs spec config s.walk = .ok matched)
    (hexact : Exact s.buildRoot (fs.look s.buildRoot) w) (hshows : Shows fs s.buildRoot s.walk) :
    ∃ arranged, arranged.Perm matched ∧ Forall₂ (fun m file => ∃ data,
      fs.look s.buildRoot m.relative = some (m.identity, .file data) ∧
      file.name = archiveName m.relative ∧ file.content = data.content) arranged files := by
  obtain ⟨arranged, hperm, harchived⟩ := h.archived hfiles
  refine ⟨arranged, hperm, ?_⟩
  have hmem := (forall₂_and_left arranged files).mpr ⟨fun m hm => hm, harchived⟩
  refine hmem.imp fun m file hpair => ?_
  obtain ⟨hm, artifact, hobserved, hfrom⟩ := hpair
  obtain ⟨entry, stat, attributes, size, hentry, hrelative, hmetadata, hino, hkind⟩ :=
    matchedFiles_observed hmatched (hperm.mem_iff.mp hm)
  obtain ⟨shape, hlook, hshape⟩ := hshows entry stat hentry hmetadata
  obtain ⟨data, rfl⟩ : ∃ data, shape = .file data := by
    cases shape with
    | file data => exact ⟨data, rfl⟩
    | dir => simp [hkind, Shape.kind] at hshape
    | link => simp [hkind, Shape.kind] at hshape
    | special => simp [hkind, Shape.kind] at hshape
  rw [hrelative, hino] at hlook
  refine ⟨data, hlook, by rw [hfrom.name, hobserved.relative], ?_⟩
  refine hfrom.content.eq_of_whole (fun offset bytes hread => ?_) hfrom.whole
  exact hexact.reads hread (by rw [hobserved.identity]; exact hlook)

theorem exact_of_run {collection : ArtifactCollection} (hquiet : s.kernel.Quiet s.buildRoot)
    (hsound : fs.Sound s.buildRoot)
    (hrun : collectArtifactsZip s spec config (start fs) = .ok collection w) :
    Exact s.buildRoot (fs.look s.buildRoot) w := by
  have hstart : Exact s.buildRoot (fs.look s.buildRoot) (start fs) :=
    ⟨hsound, rfl, fun hread => absurd hread not_mem_nil⟩
  obtain ⟨_, _, hrun', hexact⟩ | ⟨_, _, hrun', -⟩ :=
    (collectArtifactsZip_plain.exact hquiet (fs.look s.buildRoot)).run_cases hstart
  · rw [hrun] at hrun'
    cases hrun'
    exact hexact
  · rw [hrun] at hrun'
    cases hrun'

end

/-- With its default limits the server publishes archives that the client can
consume exactly if the paths of the files are consumable. If nobody changes the
workspace in the meantime, the bytes are those of the workspace. -/
theorem artifacts_consumed_iff (s : CollectContext) (spec : ArtifactSpec) (patterns : List Text)
    (fs : Fs Text) (env : Environment) {matched : List Matched} {collection : ArtifactCollection}
    {w : Store} {files : List ArchivedFile} {records : List Record}
    (hnames : ∀ entry, .found entry ∈ s.walk → ∀ part ∈ entry.relative, OsName part)
    (hmatched : matchedFiles s.globs spec { restrictedPatterns := patterns } s.walk = .ok matched)
    (hrun : collectArtifactsZip s spec { restrictedPatterns := patterns } (start fs) =
      .ok collection w)
    (hfiles : w.own.published = some files)
    (hzip : List.Forall₂ ReadsBack (files.map ArchivedFile.written) records)
    (hcalm : env.Calm) (hroom : contentTotal files ≤ env.capacity) :
    (Consumed env matched files records ↔ Consumable (matched.map Matched.relative)) ∧
    (s.kernel.Quiet s.buildRoot → fs.Sound s.buildRoot → Shows fs s.buildRoot s.walk →
      ∀ m ∈ matched, ∃ data file, fs.look s.buildRoot m.relative = some (m.identity, .file data) ∧
        file ∈ files ∧ file.name = archiveName m.relative ∧ file.content = data.content) := by
  have htaken : Taken { restrictedPatterns := patterns } (rootDescriptor s) matched w := by
    have htriple := @collectArtifactsZip_taken s spec { restrictedPatterns := patterns } fs
    obtain ⟨_, _, hrun', matched', hmatched', htaken⟩ | ⟨_, _, hrun', -⟩ := htriple.run_cases rfl
    · rw [hrun] at hrun'
      cases hrun'
      rw [hmatched] at hmatched'
      cases hmatched'
      exact htaken
    · rw [hrun] at hrun'
      cases hrun'
  have hproper : ∀ m ∈ matched, ∀ part ∈ m.relative, OsName part := by
    intro m hm part hpart
    obtain ⟨entry, -, -, -, hentry, hrelative, -⟩ := matchedFiles_observed hmatched hm
    exact hnames entry hentry part (hrelative ▸ hpart)
  have hsent := htaken.sent hfiles hproper hzip
  have hweights := (sum_weight_le hsent.regular hzip).trans hroom
  refine ⟨⟨hsent.consumable hcalm hweights, hsent.consumed hcalm hweights⟩, ?_⟩
  intro hquiet hsound hshows m hm
  obtain ⟨arranged, hperm, harchived⟩ :=
    htaken.archivedWorkspace hfiles hmatched (exact_of_run hquiet hsound hrun) hshows
  obtain ⟨file, hfile, data, hlook, hname, hcontent⟩ :=
    forall₂_exists_right harchived (hperm.mem_iff.mpr hm)
  exact ⟨data, file, hlook, hfile, hname, hcontent⟩

/-! ### Three archives that do not arrive -/

/-- The files `é`, `a\b`, `A` and `a/x`. -/
def mixedFs : Fs Text
  | 1 => some (.dir fun name =>
    if name = [0xc3, 0xa9] then some 2 else if name = [0x61, 0x5c, 0x62] then some 3
    else if name = [0x41] then some 4 else if name = [0x61] then some 5 else none)
  | 2 => some (.file ⟨[2], ⟨1000, 1000, 0o644⟩⟩)
  | 3 => some (.file ⟨[3], ⟨1000, 1000, 0o644⟩⟩)
  | 4 => some (.file ⟨[4], ⟨1000, 1000, 0o644⟩⟩)
  | 5 => some (.dir fun name => if name = [0x78] then some 6 else none)
  | 6 => some (.file ⟨[6], ⟨1000, 1000, 0o755⟩⟩)
  | _ => none

def mixedWalk : List WalkItem :=
  [.found ⟨[], true, .ok ⟨1, .dir⟩⟩,
    .found ⟨[[0xc3, 0xa9]], false, .ok ⟨2, .file ⟨1000, 1000, 0o644⟩ 1⟩⟩,
    .found ⟨[[0x61, 0x5c, 0x62]], false, .ok ⟨3, .file ⟨1000, 1000, 0o644⟩ 1⟩⟩,
    .found ⟨[[0x41]], false, .ok ⟨4, .file ⟨1000, 1000, 0o644⟩ 1⟩⟩,
    .found ⟨[[0x61]], true, .ok ⟨5, .dir⟩⟩,
    .found ⟨[[0x61], [0x78]], false, .ok ⟨6, .file ⟨1000, 1000, 0o755⟩ 1⟩⟩]

/-- Nobody changes the workspace, and a pattern matches itself. -/
def mixedContext : CollectContext where
  kernel := { interfere := fun w => w.fs, fault := fun _ => none, alloc := fun now => now }
  buildRoot := 1
  buildId := "b"
  globs := ⟨fun _ => true, fun pattern text => pattern = text⟩
  walk := mixedWalk
  cancelled := fun _ => false
  waits := fun _ _ => false
  archiveSize := fun files => contentTotal files

def roomyEnvironment : Environment :=
  { caseRule := .sensitive, maxLinks := 8, capacity := 1000, capacity_lt := by decide,
    fault := fun _ => none }

/-- What a reader returns that has the whole entry at once. -/
def ArchivedFile.record (file : ArchivedFile) : Record :=
  { name := file.name
    isDir := file.name.getLast? == some slash || file.name.getLast? == some backslash
    unixMode := some (UInt32.ofNat file.mode)
    size := UInt64.ofNat file.content.length
    reads := [some file.content] }

theorem ArchivedFile.readsBack_record {file : ArchivedFile} (h : file.content.length < 2 ^ 64) :
    ReadsBack file.written file.record := by
  refine ⟨rfl, rfl, rfl, ?_, by simp [Readable, record], ?_⟩
  · exact UInt64.toNat_ofNat_of_lt h
  · show (if file.content = [] then [] else file.content ++ []) = file.content
    split
    · next hempty => rw [hempty]
    · rw [append_nil]

theorem forall₂_record {files : List ArchivedFile} (h : contentTotal files < 2 ^ 64) :
    Forall₂ ReadsBack (files.map written) (files.map record) := by
  rw [forall₂_map_left_iff, forall₂_map_right_iff, forall₂_same]
  intro file hfile
  apply readsBack_record
  have hle : file.content.length ≤ contentTotal files :=
    single_le_sum (fun _ _ => Nat.zero_le _) _ (mem_map_of_mem hfile)
  omega

/-- What the client has at a path when it is done. -/
def delivered (r : EStateM.Result DownloadError RunDirectory Unit) (path : List Text) :
    Option (Node Text) :=
  match r with
  | .ok _ d => d.artifacts.bind fun tree => tree path
  | .error _ _ => none

theorem Consumed.delivered {env : Environment} {matched : List Matched} {files : List ArchivedFile}
    {records : List Record} (h : Consumed env matched files records) {m : Matched} (hm : m ∈ matched)
    {file : ArchivedFile} (hfile : file ∈ files) (hname : file.name = archiveName m.relative) :
    Artifacts.delivered (extractZipAtomic env records {}) (m.relative.map env.caseRule.fold) ≠
      none := by
  obtain ⟨d, tree, hrun, htree, hfiles⟩ := h
  obtain ⟨mode, hnode⟩ := hfiles m hm file hfile hname
  rw [hrun]
  simp [Artifacts.delivered, htree, hnode]

/-- What the server publishes does not arrive if something is missing on the other side. -/
theorem not_consumed_of_missing {env : Environment} {matched : List Matched}
    {files : List ArchivedFile} {m : Matched} {file : ArchivedFile}
    (hmatched : matchedFiles s.globs spec {} s.walk = .ok matched)
    (hfiles : publishes (collectArtifactsZip s spec {} (start fs)) = some files)
    (hroom : contentTotal files ≤ env.capacity) (hm : m ∈ matched) (hfile : file ∈ files)
    (hname : file.name = archiveName m.relative)
    (hmissing : delivered (extractZipAtomic env (files.map record) {})
      (m.relative.map env.caseRule.fold) = none) :
    ∃ matched collection w files records,
      matchedFiles s.globs spec {} s.walk = .ok matched ∧
      collectArtifactsZip s spec {} (start fs) = .ok collection w ∧
      w.own.published = some files ∧
      Forall₂ ReadsBack (files.map written) records ∧
      contentTotal files ≤ env.capacity ∧ ¬ Consumed env matched files records := by
  obtain ⟨collection, w, hrun, hpublished⟩ := publishes_eq_some hfiles
  have hcapacity := env.capacity_lt
  refine ⟨matched, collection, w, files, files.map record, hmatched, hrun, hpublished,
    forall₂_record (by omega), hroom, fun hconsumed => ?_⟩
  exact hconsumed.delivered hm hfile hname hmissing

def WalkItem.path : WalkItem → List Text
  | .found entry => entry.relative
  | _ => []

theorem osName_of_walk {walk : List WalkItem} (h : ∀ item ∈ walk, ∀ part ∈ item.path, OsName part)
    (entry : WalkEntry) (hentry : .found entry ∈ walk) : ∀ part ∈ entry.relative, OsName part :=
  h (.found entry) hentry

/-- The client refuses the archive with `é`, and the one with `A` and `a/x`. That
with `a\b` it accepts, and has a file `a/b` in its place. -/
theorem archives_not_consumed :
    ∃ (s : CollectContext) (fs : Fs Text) (env : Environment),
      (∀ w, s.kernel.interfere w = w.fs) ∧ env.Calm ∧
      (∀ entry, .found entry ∈ s.walk → ∀ part ∈ entry.relative, OsName part) ∧
      ∀ includes ∈ [[[0xc3, 0xa9]], [[0x61, 0x5c, 0x62]], [[0x41], [0x61]]],
        ∃ matched collection w files records,
          matchedFiles s.globs { includes := includes } {} s.walk = .ok matched ∧
          collectArtifactsZip s { includes := includes } {} (start fs) = .ok collection w ∧
          w.own.published = some files ∧
          List.Forall₂ ReadsBack (files.map ArchivedFile.written) records ∧
          contentTotal files ≤ env.capacity ∧ ¬ Consumed env matched files records := by
  refine ⟨mixedContext, mixedFs, roomyEnvironment, fun _ => rfl, fun _ => rfl,
    osName_of_walk (by decide), ?_⟩
  intro includes hincludes
  simp only [List.mem_cons, List.not_mem_nil, or_false] at hincludes
  obtain rfl | rfl | rfl := hincludes
  · have hfiles : publishes (collectArtifactsZip mixedContext { includes := [[0xc3, 0xa9]] } {}
        (start mixedFs)) = some [⟨[0xc3, 0xa9], 0o100644, [2]⟩] := by decide +kernel
    exact not_consumed_of_missing (m := ⟨[[0xc3, 0xa9]], 2⟩) (by rfl) hfiles (by decide)
      List.mem_cons_self List.mem_cons_self (by decide) (by decide +kernel)
  · have hfiles : publishes (collectArtifactsZip mixedContext
        { includes := [[0x61, 0x5c, 0x62]] } {} (start mixedFs)) =
        some [⟨[0x61, 0x2f, 0x62], 0o100644, [3]⟩] := by decide +kernel
    exact not_consumed_of_missing (m := ⟨[[0x61, 0x5c, 0x62]], 3⟩) (by rfl) hfiles (by decide)
      List.mem_cons_self List.mem_cons_self (by decide) (by decide +kernel)
  · have hfiles : publishes (collectArtifactsZip mixedContext { includes := [[0x41], [0x61]] } {}
        (start mixedFs)) = some [⟨[0x41], 0o100644, [4]⟩, ⟨[0x61, 0x2f, 0x78], 0o100755, [6]⟩] := by
      decide +kernel
    exact not_consumed_of_missing (m := ⟨[[0x41]], 4⟩) (by rfl) hfiles (by decide)
      List.mem_cons_self List.mem_cons_self (by decide) (by decide +kernel)

theorem find_mixedFs {path : List Text} {ino : Ino} (h : mixedFs.find 1 path = some ino) :
    (path, ino) ∈ [([], 1), ([[0xc3, 0xa9]], 2), ([[0x61, 0x5c, 0x62]], 3), ([[0x41]], 4),
      ([[0x61]], 5), ([[0x61], [0x78]], 6)] := by
  cases path with
  | nil =>
    cases h
    decide
  | cons name rest =>
    obtain ⟨child, hchild, hrest⟩ := Option.bind_eq_some_iff.mp h
    have hnames : (name, child) ∈ [([0xc3, 0xa9], 2), ([0x61, 0x5c, 0x62], 3), ([0x41], 4),
        ([0x61], 5)] := by
      simp only [Fs.entry, mixedFs] at hchild
      grind
    cases rest with
    | nil =>
      cases hrest
      simpa using hnames
    | cons next rest =>
      -- only `a` is a directory
      obtain ⟨grandchild, hgrandchild, hrest⟩ := Option.bind_eq_some_iff.mp hrest
      have hdir := Fs.shape_of_entry hgrandchild
      have ha : name = [0x61] ∧ child = 5 := by
        simp only [mem_cons, Prod.mk.injEq, not_mem_nil, or_false] at hnames
        obtain ⟨-, rfl⟩ | ⟨-, rfl⟩ | ⟨-, rfl⟩ | hlast := hnames
        · cases hdir
        · cases hdir
        · cases hdir
        · exact hlast
      obtain ⟨rfl, rfl⟩ := ha
      by_cases hnext : next = [0x78]
      · subst hnext
        obtain rfl : grandchild = 6 := (Option.some.inj hgrandchild).symm
        cases rest with
        | nil =>
          cases hrest
          simp
        | cons last rest =>
          obtain ⟨_, hentry, -⟩ := Option.bind_eq_some_iff.mp hrest
          cases hentry
      · simp [Fs.entry, mixedFs, hnext] at hgrandchild

theorem mixedFs_sound : mixedFs.Sound mixedContext.buildRoot where
  base := rfl
  present h := by
    have hmem := find_mixedFs h
    simp only [mem_cons, Prod.mk.injEq, not_mem_nil, or_false] at hmem
    obtain ⟨-, rfl⟩ | ⟨-, rfl⟩ | ⟨-, rfl⟩ | ⟨-, rfl⟩ | ⟨-, rfl⟩ | ⟨-, rfl⟩ := hmem
    all_goals rfl
  tree h h' hdir := by
    have hmem := find_mixedFs h
    have hmem' := find_mixedFs h'
    simp only [mem_cons, Prod.mk.injEq, not_mem_nil, or_false] at hmem hmem'
    obtain ⟨rfl, rfl⟩ | ⟨-, rfl⟩ | ⟨-, rfl⟩ | ⟨-, rfl⟩ | ⟨rfl, rfl⟩ | ⟨-, rfl⟩ := hmem
    · simpa [eq_comm] using hmem'
    · cases hdir
    · cases hdir
    · cases hdir
    · simpa [eq_comm] using hmem'
    · cases hdir

theorem mixedFs_shows : Shows mixedFs mixedContext.buildRoot mixedContext.walk := by
  intro entry stat hentry hstat
  simp only [mixedContext, mixedWalk, mem_cons, WalkItem.found.injEq, not_mem_nil,
    or_false] at hentry
  obtain rfl | rfl | rfl | rfl | rfl | rfl := hentry
  all_goals
    obtain rfl := Except.ok.inj hstat
    exact ⟨_, rfl, rfl⟩

/-- The archive with `a/x` alone arrives. -/
theorem artifacts_consumed_alone :
    ∃ matched collection w files,
      collectArtifactsZip mixedContext { includes := [[0x61]] } {} (start mixedFs) =
        .ok collection w ∧
      w.own.published = some files ∧
      (Consumed roomyEnvironment matched files (files.map ArchivedFile.record) ∧
        matched.map Matched.relative = [[[0x61], [0x78]]]) ∧
      ∀ m ∈ matched, ∃ data file, mixedFs.look 1 m.relative = some (m.identity, .file data) ∧
        file ∈ files ∧ file.name = archiveName m.relative ∧ file.content = data.content := by
  have hfiles : publishes (collectArtifactsZip mixedContext { includes := [[0x61]] } {}
      (start mixedFs)) = some [⟨[0x61, 0x2f, 0x78], 0o100755, [6]⟩] := by decide +kernel
  obtain ⟨collection, w, hrun, hpublished⟩ := publishes_eq_some hfiles
  have hmatched : matchedFiles mixedContext.globs { includes := [[0x61]] } {} mixedContext.walk =
      .ok [⟨[[0x61], [0x78]], 6⟩] := by rfl
  have hconsumable : Consumable [[[0x61], [0x78]]] := by
    refine ⟨by decide, by decide, by decide, ?_⟩
    intro p hp q hq _
    rw [List.mem_singleton.mp hp, List.mem_singleton.mp hq]
  have hquiet : mixedContext.kernel.Quiet mixedContext.buildRoot := fun _ _ _ _ => rfl
  obtain ⟨hiff, hworkspace⟩ := artifacts_consumed_iff mixedContext { includes := [[0x61]] } [] mixedFs
    roomyEnvironment (osName_of_walk (by decide)) hmatched hrun hpublished
    (forall₂_record (by decide)) (fun _ => rfl) (by decide)
  exact ⟨[⟨[[0x61], [0x78]], 6⟩], collection, w, _, hrun, hpublished,
    ⟨hiff.mpr hconsumable, rfl⟩, hworkspace hquiet mixedFs_sound mixedFs_shows⟩

end IndenturedServer.Artifacts
