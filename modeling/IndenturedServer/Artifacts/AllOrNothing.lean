import IndenturedServer.Artifacts.Unpacking
import IndenturedServer.Artifacts.Unzip

/-!
The client unpacks an archive completely or not at all.

The passes over the entries have been followed in a tree of their own, and the
staging directory is such a tree (`copyEntries_embeds`). So when the loop gets to
its end the staging directory holds the entries, and the rename puts them in
place; wherever it stops before, what it has made goes with the staging directory.

How much is written on the way is another matter. The limit is compared with the
sizes that the entries declare, and with what has been copied when a file is
complete. A reader that yields more than its entry declares writes past it.
-/

namespace IndenturedServer.Artifacts.Unzip

open Foundation Source Download Triple Tree
open Download (DownloadError Accepted staged yielded trimmedName)

/-! ### What is delivered -/

/-- The path of an entry, as the file system looks it up. -/
def recordKey (rule : CaseRule) (r : Record) : List Text :=
  ((trimmedName r).splitOn slash).map rule.fold

/-- The mode that the file of an entry ends up with. -/
def fileMode (r : Record) : Nat :=
  match r.unixMode with
  | some mode => (mode &&& 0o777).toNat
  | none => 0o600

/-- The reader comes to the end of the entry. -/
def ReadsToEnd : List (Option Text) → Prop
  | [] => True
  | none :: _ => False
  | some bytes :: rest => bytes = [] ∨ ReadsToEnd rest

/-- The tree has in it the entries of the archive, and nothing else. -/
structure Delivered (rule : CaseRule) (records : List Record) (t : Tree Text Text) : Prop where
  file : ∀ r ∈ records, r.isDir = false → ReadsToEnd r.reads ∧
    t (recordKey rule r) = some (.file (content r.reads) (some (fileMode r)))
  directory : ∀ r ∈ records, r.isDir = true → t.IsDirectory (recordKey rule r)
  above : ∀ r ∈ records, ∀ p, p ≠ [] → p <+: recordKey rule r → p ≠ recordKey rule r →
    t.IsDirectory p
  nothingElse : ∀ p, p ≠ [] → t p ≠ none → ∃ r ∈ records, p <+: recordKey rule r
  noLinks : t.NoLinks

theorem key_staged (rule : CaseRule) (r : Record) : (staged r).key rule = recordKey rule r := by
  rw [Entry.key, Entry.path, (represents_staged r).trimmed]
  rfl

theorem delivered_of_holds {rule : CaseRule} {records : List Record} {t : Tree Text Text}
    (h : Source.Holds rule (records.map staged) (records.map staged) t)
    (hread : ∀ r ∈ records, r.isDir = false → ReadsToEnd r.reads) (hlinks : t.NoLinks) :
    Delivered rule records t where
  file := by
    intro r hr hfile
    refine ⟨hread r hr hfile, ?_⟩
    cases h.stored _ (List.mem_map_of_mem hr) with
    | directory mode hdir hnode => exact absurd (hdir.symm.trans hfile) (by simp)
    | symlink target hfile hlink htarget hnode => cases hlink
    | file hfile hlink hnode =>
      rw [key_staged, permissions_staged] at hnode
      exact hnode
  directory := by
    intro r hr hdir
    cases h.stored _ (List.mem_map_of_mem hr) with
    | directory mode hdir hnode =>
      refine ⟨mode, ?_⟩
      rw [← key_staged, t.get_of_ne_nil ((staged r).key_ne_nil rule)]
      exact hnode
    | symlink target hfile hlink htarget hnode => cases hlink
    | file hfile hlink hnode => exact absurd (hfile.symm.trans hdir) (by simp)
  above := by
    intro r hr p hp hbelow hproper
    rw [← key_staged] at hbelow hproper
    exact (h.exact hp).2 ⟨staged r, List.mem_map_of_mem hr, hbelow, hproper⟩
  nothingElse := by
    intro p hp hthere
    obtain ⟨e, he, hbelow⟩ := (h.exact hp).1.mp (Option.ne_none_iff_exists'.mp hthere)
    obtain ⟨r, hr, rfl⟩ := List.mem_map.mp he
    rw [key_staged] at hbelow
    exact ⟨r, hr, hbelow⟩
  noLinks := hlinks

/-- Only what is below the base counts. -/
theorem Delivered.congr {rule : CaseRule} {records : List Record} {t t' : Tree Text Text}
    (h : Delivered rule records t) (hsame : ∀ p, p ≠ [] → t' p = t p)
    (hbase : ∀ text, t' [] ≠ some (.link text)) : Delivered rule records t' where
  file := by
    intro r hr hfile
    have hkey : recordKey rule r ≠ [] := key_staged rule r ▸ (staged r).key_ne_nil rule
    rw [hsame _ hkey]
    exact h.file r hr hfile
  directory := by
    intro r hr hdir
    have hkey : recordKey rule r ≠ [] := key_staged rule r ▸ (staged r).key_ne_nil rule
    obtain ⟨mode, hmode⟩ := h.directory r hr hdir
    rw [t.get_of_ne_nil hkey] at hmode
    exact ⟨mode, by rw [t'.get_of_ne_nil hkey, hsame _ hkey, hmode]⟩
  above := by
    intro r hr p hp hbelow hproper
    obtain ⟨mode, hmode⟩ := h.above r hr p hp hbelow hproper
    rw [t.get_of_ne_nil hp] at hmode
    exact ⟨mode, by rw [t'.get_of_ne_nil hp, hsame _ hp, hmode]⟩
  nothingElse := by
    intro p hp hthere
    rw [hsame p hp] at hthere
    exact h.nothingElse p hp hthere
  noLinks := by
    intro p text
    by_cases hp : p = []
    · rw [hp]
      exact hbase text
    · rw [hsame p hp]
      exact h.noLinks p text

/-! ### The readers -/

section
variable {k : Setting} {n limit : Nat}

theorem ioCopy_reads {env : Environment} {handle : List Text} (reads : List (Option Text))
    (copied : Nat) :
    Triple (fun _ => True) (ioCopy env handle copied reads) (fun _ _ => ReadsToEnd reads)
      fun _ _ => True := by
  induction reads generalizing copied with
  | nil => exact Triple.pure fun _ _ => trivial
  | cons read rest ih =>
    cases read with
    | none => exact Triple.throw fun _ _ => trivial
    | some bytes =>
      refine Triple.ite (fun hempty => Triple.pure fun _ _ => .inl hempty) fun _ => ?_
      exact any.bind fun _ => (ih _).onReturn fun _ _ hrest => .inr hrest

theorem extractEntry_reads (actual : Nat) (r : Record) :
    Triple (fun _ => True) (extractEntry k actual r)
      (fun _ _ => r.isDir = false → ReadsToEnd r.reads) fun _ _ => True := by
  refine any.bind fun _ => Triple.ite (fun hdir => ?_) fun _ => ?_
  · refine any.bind fun _ => Triple.pure fun _ _ hfile => ?_
    simp [hdir] at hfile
  · unfold extractFile
    refine any.bind fun _ => any.bind fun handle => ?_
    refine (adapt (ioCopy_reads r.reads 0)).bind fun copied => ?_
    refine keep.bind fun _ => keep.bind fun _ => ?_
    exact Triple.pure fun _ hread _ => hread

/-- If the loop gets to its end, so does each reader. -/
theorem extractEntries_reads (records : List Record) (actual : Nat) :
    Triple (fun _ => True) (records.foldlM (extractEntry k) actual)
      (fun _ _ => ∀ r ∈ records, r.isDir = false → ReadsToEnd r.reads) fun _ _ => True := by
  induction records generalizing actual with
  | nil => exact Triple.pure (by simp)
  | cons r rest ih =>
    refine (extractEntry_reads actual r).bind fun actual' => ?_
    refine (keep.and ((ih actual').onEntry fun _ _ => trivial)).mono (fun _ hr => hr)
      (fun _ _ h => ?_) fun _ _ _ => trivial
    simpa using h

theorem copyEntries_reads (records : List Record) : Triple (fun _ => True) (copyEntries k records)
      (fun _ _ => ∀ r ∈ records, r.isDir = false → ReadsToEnd r.reads) fun _ _ => True :=
  any.bind fun _ => any.bind fun _ =>
    (extractEntries_reads records 0).onEntry fun _ _ => trivial

/-! ### The staging directory -/

theorem interact_triple {t : Tree Text Text} (e : DownloadError)
    (change : Tree Text Text → Except Errno (Tree Text Text)) :
    Triple (fun w => w.tree = t ∧ w.written ≤ n) (interact k e change)
      (fun _ w => change t = .ok w.tree ∧ w.written ≤ n) fun _ w => w.tree = t ∧ w.written ≤ n := by
  rintro w ⟨rfl, hn⟩
  show Ends _ _ (interact k e change w)
  unfold interact
  split
  · exact ⟨rfl, hn⟩
  · split
    · next tree htree => exact ⟨htree, hn⟩
    · exact ⟨rfl, hn⟩

theorem createStaging_triple {t : Tree Text Text} :
    Triple (fun w => w.tree = t ∧ w.written ≤ n) (createStaging k)
      (fun _ w => t [k.staging] = none ∧ w.tree = t.set [k.staging] (.dir (some 0o700)) ∧
        w.written ≤ n)
      fun _ w => w.tree = t ∧ w.written ≤ n := by
  refine (interact_triple _ _).onReturn fun _ w hw => ?_
  obtain ⟨htree, hn⟩ := hw
  split at htree
  · next hnone => exact ⟨hnone, (Except.ok.inj htree).symm, hn⟩
  · cases htree

theorem copyEntries_delivers {records : List Record} (haccepted : Accepted records)
    {t : Tree Text Text} (hd : t.IsDirectory [k.staging])
    (hempty : ∀ p, p ≠ [] → t (k.staging :: p) = none) (hlimit : (records.map yielded).sum ≤ limit) :
    Triple (fun w => w.tree = t ∧ w.written ≤ n) (copyEntries k records)
      (fun _ w => ∃ u, w.tree = t.graft k.staging u ∧ Delivered k.env.caseRule records u ∧
        w.written ≤ n + limit)
      fun _ w => ∃ u, w.tree = t.graft k.staging u ∧ w.written ≤ n + limit := by
  have hnames : ∀ r ∈ records, ∃ p : List Text, p ≠ [] ∧
      moves k.env.caseRule (trimmedName r) = p.map .into := by
    intro r hr
    have hnamed := (haccepted.acceptable.names _ (List.mem_map_of_mem hr)).named
    have hmoves := hnamed.moves k.env.caseRule
    rw [(represents_staged r).trimmed] at hmoves
    exact ⟨_, (staged r).key_ne_nil k.env.caseRule, hmoves⟩
  rintro w ⟨rfl, hn⟩
  -- the world is that of `Artifacts.Download`, in its place
  let d : RunDirectory := { world := { w with tree := empty, log := [] } }
  have hstart : embed k w.tree w.log d = w := by
    simp only [embed, within, d, graft_empty hempty, List.map_nil, List.nil_append]
  have hfresh : Staged (Going (Source.Holds k.env.caseRule [] []) n) d :=
    ⟨⟨holds_empty, by simp [d], hn⟩, rfl⟩
  have hlinkless : Linkless d := by simp [Linkless, NoLinks, Tree.NoLinks, d, Tree.empty]
  have hloop : Embeds Linkless (embed k w.tree w.log) id (Download.copyEntries k.env records)
      (copyEntries k records) := copyEntries_embeds hd hnames
  have hembeds := hloop d hlinkless
  have hreads : Ends _ _ (copyEntries k records w) := copyEntries_reads (k := k) records w trivial
  show Ends _ _ (copyEntries k records w)
  rw [hstart] at hembeds
  obtain ⟨m, d', hrun, hd'⟩ | ⟨e, d', hrun, hd'⟩ :=
    (copyEntries_triple haccepted).run_cases hfresh
  · rw [hrun] at hembeds
    obtain ⟨hlinks, hrun'⟩ := hembeds
    rw [hrun'] at hreads ⊢
    have hwritten : d'.world.written ≤ n + (records.map yielded).sum := hd'.world.2.2
    refine ⟨d'.world.tree, rfl, delivered_of_holds hd'.world.1 hreads hlinks, ?_⟩
    show d'.world.written ≤ n + limit
    omega
  · rw [hrun] at hembeds
    rw [hembeds.2]
    have hwritten : d'.world.written ≤ n + (records.map yielded).sum := hd'.1.world.2.2
    refine ⟨d'.world.tree, rfl, ?_⟩
    show d'.world.written ≤ n + limit
    omega

/-! ### The end -/

variable {t u : Tree Text Text}

/-- Without the staging directory, the run directory is as it was. -/
theorem removeBut_graft (hclosed : t.Closed) (habsent : t [k.staging] = none) (node : Node Text) :
    removeBut (fun _ => false) k.staging ((t.set [k.staging] node).graft k.staging u) = t := by
  funext p
  cases p with
  | nil => exact t.set_of_ne (List.cons_ne_nil k.staging []).symm node
  | cons name rest =>
    by_cases hname : name = k.staging
    · rw [removeBut, if_pos ⟨hname, rfl⟩, hname]
      exact (hclosed.nothing_below habsent rest).symm
    · rw [removeBut, if_neg fun h => hname h.1, graft_of_ne _ _ _ (by simpa using hname),
        t.set_of_ne (by simp [hname])]

theorem moveTo_elsewhere (hclosed : t.Closed) (habsent : t [k.staging] = none) (node : Node Text)
    {p : List Text} (hp : p.head? ≠ some artifactsName) :
    moveTo k.staging artifactsName ((t.set [k.staging] node).graft k.staging u) p = t p := by
  cases p with
  | nil => exact t.set_of_ne (List.cons_ne_nil k.staging []).symm node
  | cons name rest =>
    rw [List.head?_cons, ne_eq, Option.some_inj] at hp
    rw [moveTo, if_neg hp]
    by_cases hname : name = k.staging
    · rw [if_pos hname, hname]
      exact (hclosed.nothing_below habsent rest).symm
    · rw [if_neg hname, graft_of_ne _ _ _ (by simpa using hname), t.set_of_ne (by simp [hname])]

theorem moveTo_below (p : List Text) :
    (moveTo k.staging artifactsName t).below artifactsName p = t (k.staging :: p) := by
  rw [below, moveTo, if_pos rfl]

/-- What the client has delivered is in its place, and the rest of the run
directory is as it was. -/
structure Complete (rule : CaseRule) (records : List Record) (t t' : Tree Text Text) : Prop where
  artifacts : t'.IsDirectory [artifactsName]
  delivered : Delivered rule records (t'.below artifactsName)
  elsewhere : ∀ p, p.head? ≠ some artifactsName → t' p = t p

theorem complete_moveTo (hclosed : t.Closed) (habsent : t [k.staging] = none) {mode : Option Nat}
    {records : List Record} {rule : CaseRule} (h : Delivered rule records u) :
    Complete rule records t
      (moveTo k.staging artifactsName ((t.set [k.staging] (.dir mode)).graft k.staging u)) where
  artifacts := by
    refine ⟨mode, ?_⟩
    refine (moveTo_below []).trans ?_
    rw [graft_self, set_self]
  delivered := by
    refine h.congr (fun p hp => ?_) fun text => ?_
    · rw [moveTo_below, graft_below _ _ _ hp]
    · rw [moveTo_below, graft_self, set_self]
      simp
  elsewhere := fun p hp => moveTo_elsewhere hclosed habsent (.dir mode) hp

theorem renameStaging_triple {t : Tree Text Text} :
    Triple (fun w => w.tree = t ∧ w.written ≤ n) (renameStaging k)
      (fun _ w => w.tree = moveTo k.staging artifactsName t ∧ w.written ≤ n)
      fun _ w => w.tree = t ∧ w.written ≤ n := by
  refine (interact_triple _ _).onReturn fun _ w hw => ⟨?_, hw.2⟩
  have htree := hw.1
  unfold rename at htree
  split at htree
  · exact (Except.ok.inj htree).symm
  · split at htree
    · exact (Except.ok.inj htree).symm
    · cases htree
  · cases htree

/-! ### The whole -/

theorem listEntries_triple (records : List Record) :
    Triple (fun w => w.tree = t ∧ w.written ≤ n) (listEntries k records)
      (fun _ w => Accepted records ∧ w.tree = t ∧ w.written ≤ n)
      fun _ w => w.tree = t ∧ w.written ≤ n := by
  intro w hw
  show Ends _ _ (listEntries k records w)
  unfold listEntries
  have hlist : Triple (fun d => d.world.tree = t ∧ d.world.written ≤ n)
      (Download.listEntries k.env records) _ _ :=
    Download.listEntries_triple (fun _ hd => hd) records
  obtain ⟨_, d, hrun, hd⟩ | ⟨e, d, hrun, hd⟩ := hlist.run_cases (s := { world := w }) hw
  · rw [hrun]
    exact hd
  · rw [hrun]
    exact hd.1

theorem extractZipAtomic_triple (hclosed : t.Closed) {records : List Record}
    (hlimit : Accepted records → (records.map yielded).sum ≤ limit) :
    Triple (fun w => w.tree = t ∧ w.written ≤ n) (extractZipAtomic k records)
      (fun _ w => Complete k.env.caseRule records t w.tree ∧ w.written ≤ n + limit)
      fun _ w => (k.leaves = none → w.tree = t) ∧ w.written ≤ n + limit := by
  have hbefore : ∀ (_ : DownloadError) (w : World), w.tree = t ∧ w.written ≤ n →
      (k.leaves = none → w.tree = t) ∧ w.written ≤ n + limit :=
    fun _ w hw => ⟨fun _ => hw.1, hw.2.trans (Nat.le_add_right _ _)⟩
  have hget : Triple (fun w => w.tree = t ∧ w.written ≤ n) (get : Unzipping World)
      (fun _ w => w.tree = t ∧ w.written ≤ n) fun _ w => w.tree = t ∧ w.written ≤ n :=
    fun w hw => hw
  refine (hget.onError hbefore).bind fun _ => ?_
  refine (ofExcept (fun _ _ _ hw => hw) fun e w _ hw => hbefore e w hw).bind fun _ => ?_
  refine ((listEntries_triple records).onError hbefore).bind fun _ => given fun haccepted => ?_
  refine (createStaging_triple.onError hbefore).bind fun _ => given fun habsent => ?_
  have hd : (t.set [k.staging] (.dir (some 0o700))).IsDirectory [k.staging] :=
    ⟨some 0o700, by rw [get_of_ne_nil _ (by simp), set_self]⟩
  have hempty : ∀ p, p ≠ [] → t.set [k.staging] (.dir (some 0o700)) (k.staging :: p) = none := by
    intro p hp
    rw [t.set_of_ne (by simp [hp])]
    exact hclosed.nothing_below habsent p
  refine Triple.tryCatch (H := fun _ w => ∃ u, w.tree =
    (t.set [k.staging] (.dir (some 0o700))).graft k.staging u ∧ w.written ≤ n + limit) ?_ ?_
  · refine (copyEntries_delivers haccepted hd hempty (hlimit haccepted)).bind fun _ => ?_
    refine ofExists fun u => ?_
    intro w hw
    refine (renameStaging_triple w ⟨hw.1, hw.2.2⟩).mono (fun _ w' hw' => ⟨?_, hw'.2⟩)
      fun _ w' hw' => ⟨u, hw'⟩
    rw [hw'.1]
    exact complete_moveTo hclosed habsent hw.2.1
  · intro e
    refine ofExists fun u => (Triple.modify fun w hw => ?_).bind fun _ => Triple.throw
      fun w hw => hw
    refine ⟨fun hclean => ?_, hw.2⟩
    rw [hclean, hw.1]
    exact removeBut_graft hclosed habsent _

end

/-- **Extraction is all or nothing.** After a success `artifacts` holds exactly the
entries of the archive; after a failure nothing has been made. Nothing else in the
run directory changes. -/
theorem extract_all_or_nothing (k : Setting) (hclean : k.leaves = none) (records : List Record)
    {w : World} (hclosed : w.tree.Closed) :
    Ends (fun _ w' => Complete k.env.caseRule records w.tree w'.tree)
      (fun _ w' => w'.tree = w.tree) (extractZipAtomic k records w) := by
  have hwhole := extractZipAtomic_triple (k := k) (n := w.written) hclosed fun _ : Accepted records =>
    le_refl (records.map yielded).sum
  exact (hwhole w ⟨rfl, le_rfl⟩).mono (fun _ _ hw => hw.1) fun _ _ hw => hw.1 hclean

/-- A quiet run directory with room for everything. -/
def roomy : Setting :=
  { env :=
      { caseRule := .sensitive, maxLinks := 40, capacity := 2 ^ 63, capacity_lt := by decide
        fault := fun _ => none }
    uuid := []
    unanswered := false
    outside := false
    isEmpty := fun _ _ => false
    isEmpty_sound := by simp
    leaves := none }

/-- The file `b/c` with the mode 0755 and the byte `1`. -/
def nested : Record :=
  { name := [0x62, 0x2f, 0x63], isDir := false, unixMode := some 0o100755, size := 1
    reads := [some [0x31]] }

def runDirectory : World :=
  { tree := Tree.empty.set [[0x6b]] (.file [0x32] (some 0o644)) }

theorem runDirectory_closed : runDirectory.tree.Closed := by
  intro d name node hnode
  by_cases hpath : d ++ [name] = [[0x6b]]
  · obtain rfl : d = [] := by
      cases d with
      | nil => rfl
      | cons first rest => simp at hpath
    exact ⟨none, rfl⟩
  · have hnone : runDirectory.tree (d ++ [name]) = none := set_of_ne _ hpath _
    rw [hnone] at hnode
    cases hnode

theorem extract_all_or_nothing_nested :
    (∃ w', extractZipAtomic roomy [nested] runDirectory = .ok () w') ∧
    runDirectory.tree.Closed ∧
    Ends (fun _ w' => Complete roomy.env.caseRule [nested] runDirectory.tree w'.tree)
      (fun _ w' => w'.tree = runDirectory.tree) (extractZipAtomic roomy [nested] runDirectory) :=
  ⟨⟨_, rfl⟩, runDirectory_closed,
    extract_all_or_nothing roomy rfl [nested] runDirectory_closed⟩

/-! ### How much is written -/

theorem yielded_within {records : List Record} (haccepted : Accepted records)
    (hsizes : ∀ r ∈ records, r.isDir = false → (content r.reads).length ≤ r.size.toNat) :
    (records.map yielded).sum ≤ maxBytes := by
  have hsize : declaredTotal (records.map staged) ≤ maxBytes := haccepted.acceptable.size
  rw [declaredTotal_eq, List.map_map] at hsize
  have hle : (records.map yielded).sum ≤ (records.map (Entry.declaredBytes ∘ staged)).sum := by
    refine List.sum_le_sum fun r hr => ?_
    cases hdir : r.isDir with
    | true => simp [yielded, hdir]
    | false =>
      have hdeclared : (staged r).declaredBytes = r.size.toNat := by
        simp [Entry.declaredBytes, staged, hdir]
      rw [Function.comp_apply, hdeclared]
      simpa [yielded, hdir] using hsizes r hr hdir
  unfold maxBytes at hsize ⊢
  omega

theorem append_file {w : World} {handle : List Text} {bytes : Text} {mode : Option Nat}
    (h : w.tree handle = some (.file bytes mode)) (more : Text) :
    (w.append handle more).tree handle = some (.file (bytes ++ more) mode) ∧
      (w.append handle more).written = w.written + more.length := by
  simp [World.append, h]

/-- When nothing goes wrong, everything that the reader yields is written. The
induction is on what is left to read. -/
theorem ioCopy_writes {env : Environment} (hcalm : env.Calm) {handle : List Text}
    (reads : List (Option Text)) (hreads : ReadsToEnd reads) {copied : Nat} {w : World}
    (hroom : w.written + (content reads).length ≤ env.capacity)
    (hfile : ∃ bytes mode, w.tree handle = some (.file bytes mode)) :
    ∃ w', ioCopy env handle copied reads w = .ok (copied + (content reads).length) w' ∧
      w'.written = w.written + (content reads).length := by
  induction reads generalizing copied w with
  | nil => exact ⟨w, rfl, rfl⟩
  | cons read rest ih =>
    cases read with
    | none => exact hreads.elim
    | some more =>
      rw [ioCopy]
      by_cases hempty : more = []
      · simp only [hempty, if_true, content]
        exact ⟨w, rfl, rfl⟩
      · simp only [hempty, if_false, content, List.length_append] at hroom ⊢
        obtain ⟨bytes, mode, hnode⟩ := hfile
        obtain ⟨hnext, hcount⟩ := append_file (w := w.tick) hnode more
        have hstart : w.tick.written = w.written := rfl
        have hfits : more.length ≤ env.capacity - w.written := by omega
        have hwrite : writeAll env handle more w = .ok () (w.tick.append handle more) := by
          simp [writeAll, hcalm w.clock, hfits]
        obtain ⟨w', hrun, hwritten⟩ := @ih (hreads.resolve_left hempty) (copied + more.length)
          (w.tick.append handle more) (by omega) ⟨_, _, hnext⟩
        refine ⟨w', ?_, by omega⟩
        rw [bind_of_ok hwrite, hrun, Nat.add_assoc]

def declaredEmpty (reads : List (Option Text)) : Record :=
  { name := [0x61], isDir := false, unixMode := none, size := 0, reads := reads }

/-- The world in which the content of that file is copied. -/
def opened : World :=
  match (do
      listEntries roomy [declaredEmpty []]
      createStaging roomy
      ask roomy .io
      ask roomy .unreadable
      ask roomy .unreadable
      io (createDirAll roomy.env [.into roomy.staging])
      io (Download.createPrivate roomy.env [.into roomy.staging, .into [0x61]]) :
        Unzipping (List Text)) {} with
  | .ok _ w => w
  | .error _ w => w

/-- The limit is compared with what has been copied, not with what is going to be. -/
theorem extract_declaredEmpty {reads : List (Option Text)} {total : Nat} {w : World}
    (hcopy : ioCopy roomy.env [roomy.staging, [0x61]] 0 reads opened = .ok total w)
    (hmany : maxBytes < saturatingAdd 0 total) :
    ∃ w', extractZipAtomic roomy [declaredEmpty reads] {} = .error .extractedBytes w' ∧
      w'.written = w.written := by
  let copy : Unzipping Nat := do
    let copied ← io (ioCopy roomy.env [roomy.staging, [0x61]] 0 reads)
    MonadExcept.ofExcept (refuse (maxBytes < saturatingAdd 0 copied) DownloadError.extractedBytes)
    applyMode roomy (declaredEmpty reads) [.into [0x61]]
    return saturatingAdd 0 copied
  have hio : io (ioCopy roomy.env [roomy.staging, [0x61]] 0 reads) opened = .ok total w := by
    simp only [io, EStateM.adaptExcept, hcopy]
  have hrefused : refuse (maxBytes < saturatingAdd 0 total) DownloadError.extractedBytes =
      .error .extractedBytes := if_pos hmany
  have herror : copy opened = .error .extractedBytes w := by
    simp only [copy, bind_of_ok hio, hrefused]
    rfl
  have hrun : extractZipAtomic roomy [declaredEmpty reads] {} = (tryCatch (do
          let _ ← copy >>= fun actual => ([] : List Record).foldlM (extractEntry roomy) actual
          renameStaging roomy) fun e => do
        removeStaging roomy
        throw e : Unzipping Unit) opened := rfl
  rw [hrun]
  refine ⟨{ w.tick with tree := removeBut (fun _ => false) roomy.staging w.tree }, ?_, rfl⟩
  show EStateM.tryCatch _ _ opened = _
  simp only [EStateM.tryCatch, bind_of_error (bind_of_error herror)]
  rfl

theorem content_replicate (n : Nat) {bytes : Text} (h : bytes ≠ []) :
    ReadsToEnd (List.replicate n (some bytes)) ∧
      (content (List.replicate n (some bytes))).length = n * bytes.length := by
  induction n with
  | zero => exact ⟨trivial, by simp [content]⟩
  | succ n ih =>
    rw [List.replicate_succ]
    refine ⟨.inr ih.1, ?_⟩
    rw [content, if_neg h, List.length_append, ih.2, Nat.succ_mul]
    exact Nat.add_comm _ _

end IndenturedServer.Artifacts.Unzip
