import IndenturedServer.Artifacts.Listing

/-!
What the client unpacks.

Any call may fail, and the volume may be full. If the loop over the entries gets
to its end, the staging directory holds the entries as the server's extraction
would have it: what a step does to the tree has been said there (`Holds`). A file
is created for the client alone and gets its own mode only when it is complete.
Wherever the loop stops, no more has been written than what the entries yield;
and it stops before its end only if something is in the way (`Unhindered`).

When nothing disturbs the client, the extraction of an accepted archive therefore
cannot fail.
-/

namespace IndenturedServer.Artifacts.Download

open Foundation Source Entry List

/-- The bytes that the reader of an entry yields. -/
def yielded (r : Record) : Nat :=
  if r.isDir then 0 else (content r.reads).length

/-- Nothing is in the way of these records, when `n` bytes have been written. -/
structure Unhindered (env : Environment) (n : Nat) (records : List Record) : Prop where
  calm : env.Calm
  readable : ∀ r ∈ records, Readable r.reads
  room : n + (records.map yielded).sum ≤ env.capacity
  within : n + (records.map yielded).sum ≤ maxBytes

namespace Unhindered

variable {env : Environment} {n : Nat} {r : Record} {rest : List Record}

theorem head (h : Unhindered env n (r :: rest)) : Unhindered env n [r] := by
  have hroom := h.room
  have hwithin := h.within
  rw [map_cons, sum_cons] at hroom hwithin
  refine ⟨h.calm, fun r' hr' => h.readable r' ?_, ?_, ?_⟩
  · rw [mem_singleton.mp hr']
    exact mem_cons_self
  · simp
    omega
  · simp
    omega

theorem tail (h : Unhindered env n (r :: rest)) : Unhindered env (n + yielded r) rest := by
  have hroom := h.room
  have hwithin := h.within
  rw [map_cons, sum_cons, ← Nat.add_assoc] at hroom hwithin
  exact ⟨h.calm, fun r' hr' => h.readable r' (mem_cons_of_mem _ hr'), hroom, hwithin⟩

end Unhindered

section
variable {env : Environment} {es : List Entry} {e : Entry} {n : Nat} {T : Tree Text Text → Prop}

/-! ### Calls in the staging directory -/

/-- The world is the staging directory, and there is nothing yet in its final place. -/
structure Staged (P : World → Prop) (d : RunDirectory) : Prop where
  world : P d.world
  artifacts : d.artifacts = none

theorem inStaging_triple {α : Type} {P E : World → Prop} {Q : α → World → Prop}
    {x : EStateM Errno World α} (hx : Triple P x Q fun _ => E) :
    Triple (Staged P) (inStaging x) (fun a => Staged (Q a)) fun _ => Staged E :=
  (inStaging_ends hx (R := fun d => d.artifacts = none) fun _ _ h => h).mono
    (fun _ hd => ⟨hd.world, hd.artifacts⟩) (fun _ _ hd => ⟨hd.1, hd.2⟩)
    fun _ _ hd => ⟨hd.1.elim fun _ h => h, hd.2⟩

theorem Staged.mono {P Q : World → Prop} {d : RunDirectory} (h : Staged P d) (hPQ : ∀ w, P w → Q w) :
    Staged Q d :=
  ⟨hPQ _ h.world, h.artifacts⟩

theorem Staged.given {α : Type} {p : Prop} {P : World → Prop} {x : Extraction α}
    {Q : α → RunDirectory → Prop} {E : DownloadError → RunDirectory → Prop}
    (h : p → Triple (Staged P) x Q E) : Triple (Staged fun w => p ∧ P w) x Q E :=
  fun d hd => h hd.world.1 d ⟨hd.world.2, hd.artifacts⟩

theorem interact_triple (err : DownloadError) {change : RunDirectory → RunDirectory}
    {P Q E : RunDirectory → Prop} (h : ∀ d, P d → Q (change { d with world := d.world.tick }))
    (hE : ∀ d, P d → E { d with world := d.world.tick }) :
    Triple P (interact env err change) (fun _ => Q) fun _ d => E d ∧ ¬ env.Calm := by
  intro d hd
  show Ends _ _ (interact env err change d)
  unfold interact
  split
  · next bytes hfault => exact ⟨hE d hd, fun hcalm => by simp [hcalm d.world.clock] at hfault⟩
  · exact h d hd

theorem ask_triple (err : DownloadError) {P : RunDirectory → Prop}
    (hP : ∀ d, P d → P { d with world := d.world.tick }) :
    Triple P (ask env err) (fun _ => P) fun _ d => P d ∧ ¬ env.Calm :=
  interact_triple err hP hP

/-! ### A file -/

theorem createPrivate_triple (hfits : ∀ b ∈ es, Compatible b e) (hfile : e.isDir = false) :
    Triple (Going (Prepared env.caseRule es e) n)
      (createPrivate env ((e.key env.caseRule).map .into))
      (fun handle w => handle = e.key env.caseRule ∧
        Going (New env.caseRule es e (.file [] (some 0o600))) n w)
      fun _ w => Going (fun _ => True) n w ∧ ¬ env.Calm :=
  Triple.bind ((makeLeaf_triple .createNew (.file [] (some 0o600)) hfits hfile).onError
    fun _ w hw => ⟨hw.1.mono (fun _ _ => trivial) le_rfl, hw.2⟩) fun a => Triple.pure fun w hw =>
    ⟨by rw [hw.2]; rfl, hw.1⟩

/-- The induction is on what is left to read. -/
theorem ioCopy_triple (reads : List (Option Text)) {bytes : Text} {copied : Nat} :
    Triple (Going (New env.caseRule es e (.file bytes (some 0o600))) n)
      (ioCopy env (e.key env.caseRule) copied reads)
      (fun total w => total = copied + (content reads).length ∧
        Going (New env.caseRule es e (.file (bytes ++ content reads) (some 0o600)))
          (n + (content reads).length) w)
      fun _ w => Going (fun _ => True) (n + (content reads).length) w ∧
        ¬ (env.Calm ∧ Readable reads ∧ n + (content reads).length ≤ env.capacity) := by
  induction reads generalizing n bytes copied with
  | nil =>
    apply Triple.pure
    intro w hw
    exact ⟨rfl, by simpa [content] using hw⟩
  | cons read rest ih =>
    cases read with
    | none =>
      apply Triple.throw
      intro w hw
      exact ⟨hw.mono (fun _ _ => trivial) (Nat.le_add_right _ _), fun hc => hc.2.1 mem_cons_self⟩
    | some more =>
      rw [ioCopy]
      by_cases hempty : more = []
      · simp only [hempty, if_true, content, append_nil]
        exact Triple.pure fun w hw => ⟨rfl, hw⟩
      · simp only [content, hempty, if_false, length_append]
        have hrest := @ih (n + more.length) (bytes ++ more) (copied + more.length)
        rw [Nat.add_assoc, Nat.add_assoc, append_assoc] at hrest
        refine Triple.bind ((writeAll_triple (k := n + more.length) more fun _ _ hle hle' _ =>
          Nat.add_le_add hle hle').onError fun _ w hw => ?_) fun _ => hrest.onError fun _ w hw => ?_
        · exact ⟨hw.1.mono (fun _ ht => ht) (by omega), fun hc => hw.2 ⟨hc.1, by omega⟩⟩
        · exact ⟨hw.1, fun hc => hw.2 ⟨hc.1, fun hmem => hc.2.1 (mem_cons_of_mem _ hmem), hc.2.2⟩⟩

theorem setPermissions_new (mode : UInt32) (hfits : ∀ b ∈ es, Compatible b e) (bytes : Text) :
    Triple (Going (New env.caseRule es e (.file bytes (some 0o600))) n)
      (setPermissions env mode ((e.key env.caseRule).map .into))
      (fun _ => Going (New env.caseRule es e (.file bytes (some (mode &&& 0o777).toNat))) n)
      fun _ w => Going (fun _ => True) n w ∧ ¬ env.Calm := by
  refine (setPermissions_triple mode (e.key_ne_nil _) (fun t ht => ht.passable hfits rfl)
    fun t ht q hq hne => ht.there hq hne).mono (fun _ hw => hw) (fun _ w hw => ?_)
    fun _ w hw => ⟨hw.1.mono (fun _ _ => trivial) le_rfl, hw.2⟩
  refine hw.mono (fun t' h => ?_) le_rfl
  obtain ⟨t, node, hnew, hnode, rfl⟩ := h
  rw [hnew.at, Option.some_inj] at hnode
  subst hnode
  exact hnew.replace _

end

/-! ### Entries -/

section
variable {env : Environment} {es : List Entry} {r : Record} {n : Nat}

theorem permissions_staged (r : Record) : (staged r).permissions = some (match r.unixMode with
      | some mode => (mode &&& 0o777).toNat
      | none => 0o600) := by
  show some ((r.unixMode.getD 0o600 &&& 0o777).toNat) = _
  cases r.unixMode with
  | none => decide
  | some mode => rfl

/-- Where the loop stops, no more has been written than the entries yield, and
something was in the way. -/
def Stopped (env : Environment) (n : Nat) (records : List Record) (d : RunDirectory) : Prop :=
  Staged (Going (fun _ => True) (n + (records.map yielded).sum)) d ∧ ¬ Unhindered env n records

theorem Staged.stopped {T : Tree Text Text → Prop} {c : Prop} {k : Nat} {records : List Record}
    {d : RunDirectory} (h : Staged (fun w => Going T k w ∧ ¬ c) d)
    (hk : k ≤ n + (records.map yielded).sum) (hc : Unhindered env n records → c) :
    Stopped env n records d :=
  ⟨h.mono fun _ hw => hw.1.mono (fun _ _ => trivial) hk, fun hfree => h.world.2 (hc hfree)⟩

theorem ask_stopped {T : Tree Text Text → Prop} (err : DownloadError) (records : List Record) :
    Triple (Staged (Going T n)) (ask env err) (fun _ => Staged (Going T n))
      fun _ => Stopped env n records := by
  refine (ask_triple err fun d hd => ⟨hd.world, hd.artifacts⟩).onError fun _ d hd => ?_
  exact Staged.stopped (T := T) (k := n) (c := env.Calm) ⟨⟨hd.1.world, hd.2⟩, hd.1.artifacts⟩
    (Nat.le_add_right _ _) Unhindered.calm

section
variable (hfits : ∀ b ∈ es, Compatible b (staged r))
include hfits

theorem applyMode_triple (bytes : Text) :
    Triple (Staged (Going (New env.caseRule es (staged r) (.file bytes (some 0o600))) n))
      (applyMode env r (((staged r).key env.caseRule).map .into))
      (fun _ => Staged (Going (New env.caseRule es (staged r)
        (.file bytes (staged r).permissions)) n))
      fun _ => Staged fun w => Going (fun _ => True) n w ∧ ¬ env.Calm := by
  rw [permissions_staged]
  unfold applyMode
  cases r.unixMode with
  | none => exact Triple.pure fun _ hd => hd
  | some mode => exact inStaging_triple (setPermissions_new mode hfits bytes)

theorem createDirAll_staged {p : List Text} (hp : (staged r).Through env.caseRule p) :
    Triple (Staged (Going (Holds env.caseRule es (es ++ [staged r])) n))
      (inStaging (createDirAll env (p.map .into)))
      (fun _ => Staged (Going (fun t => Holds env.caseRule es (es ++ [staged r]) t ∧
        t.IsDirectory p) n))
      fun _ => Staged fun w =>
        Going (Holds env.caseRule es (es ++ [staged r])) n w ∧ ¬ env.Calm :=
  inStaging_triple (createDirAll_triple ⟨by simp, hfits⟩ hp)

theorem extractFile_triple (hfile : r.isDir = false) {m : Nat} (hm : m ≤ n) :
    Triple (Staged (Going (Holds env.caseRule es (es ++ [staged r])) n))
      (extractFile env m r (((staged r).key env.caseRule).map .into))
      (fun m' d => m' ≤ n + yielded r ∧
        Staged (Going (Holds env.caseRule (es ++ [staged r]) (es ++ [staged r])) (n + yielded r)) d)
      fun _ => Stopped env n [r] := by
  have hfile' : (staged r).isDir = false := hfile
  have hyielded : yielded r = (content r.reads).length := by simp [yielded, hfile]
  have hsum : ([r].map yielded).sum = (content r.reads).length := by simp [hyielded]
  rw [hyielded]
  unfold extractFile
  rw [← map_dropLast]
  refine ((createDirAll_staged hfits ((staged r).through_dropLast _)).onError fun _ d hd =>
    hd.stopped (by omega) Unhindered.calm).bind fun _ => ?_
  refine ((inStaging_triple (createPrivate_triple hfits hfile')).onError fun _ d hd =>
    hd.stopped (by omega) Unhindered.calm).bind fun handle => ?_
  apply Staged.given
  rintro rfl
  refine ((inStaging_triple (ioCopy_triple r.reads)).onError fun _ d hd => ?_).bind fun copied => ?_
  · refine hd.stopped (by omega) fun hfree => ⟨hfree.calm, hfree.readable r (by simp), ?_⟩
    rw [← hsum]
    exact hfree.room
  apply Staged.given
  rintro rfl
  have hactual : saturatingAdd m (0 + (content r.reads).length) ≤ n + (content r.reads).length := by
    unfold saturatingAdd
    omega
  refine Triple.bind (Q := fun _ => Staged (Going (New env.caseRule es (staged r)
    (.file ([] ++ content r.reads) (some 0o600))) (n + (content r.reads).length))) ?_ fun _ => ?_
  · refine Triple.ofExcept (fun _ _ _ hd => hd) fun err d herr hd => ⟨?_, fun hfree => ?_⟩
    · exact hd.mono fun _ hw => hw.mono (fun _ _ => trivial) (by omega)
    · have hwithin := hfree.within
      have hok : refuse (maxBytes < saturatingAdd m (0 + (content r.reads).length))
          DownloadError.extractedBytes = .ok () := refuse_eq_ok.mpr (by omega)
      rw [hok] at herr
      cases herr
  refine ((applyMode_triple hfits _).onError fun _ d hd => hd.stopped (by omega)
    Unhindered.calm).bind fun _ => Triple.pure fun d hd => ⟨hactual, hd.mono fun w hw => ?_⟩
  exact hw.mono (fun t ht => ht.holds hfile' (by simp [Node.kind]) (.file hfile' rfl ht.at)) le_rfl

theorem extractDirectory_triple (hdir : r.isDir = true) :
    Triple (Staged (Going (Holds env.caseRule es (es ++ [staged r])) n))
      (inStaging (createDirAll env (((staged r).key env.caseRule).map .into)))
      (fun _ => Staged (Going (Holds env.caseRule (es ++ [staged r]) (es ++ [staged r])) n))
      fun _ => Stopped env n [r] := by
  have hthrough : (staged r).Through env.caseRule ((staged r).key env.caseRule) :=
    ⟨prefix_refl _, fun _ => hdir⟩
  refine (createDirAll_staged hfits hthrough).mono (fun _ hd => hd) (fun _ d hd => hd.mono ?_)
    fun _ d hd => hd.stopped (Nat.le_add_right _ _) Unhindered.calm
  refine fun w hw => hw.mono (fun t ht => ?_) le_rfl
  obtain ⟨hholds, mode, hnode⟩ := ht
  rw [t.get_of_ne_nil ((staged r).key_ne_nil _)] at hnode
  exact hholds.done (.directory mode hdir hnode)

end

theorem extractEntry_triple (hnamed : (staged r).Named) (hfits : ∀ b ∈ es, Compatible b (staged r))
    {m : Nat} (hm : m ≤ n) :
    Triple (Staged (Going (Holds env.caseRule es es) n)) (extractEntry env m r)
      (fun m' d => m' ≤ n + yielded r ∧
        Staged (Going (Holds env.caseRule (es ++ [staged r]) (es ++ [staged r])) (n + yielded r)) d)
      fun _ => Stopped env n [r] := by
  have hstart : ∀ d, Staged (Going (Holds env.caseRule es es) n) d →
      Staged (Going (Holds env.caseRule es (es ++ [staged r])) n) d :=
    fun d hd => hd.mono fun w hw => hw.mono (fun _ ht => ht.start (staged r)) le_rfl
  have hmoves := hnamed.moves env.caseRule
  rw [(represents_staged r).trimmed] at hmoves
  refine ((ask_stopped _ [r]).onEntry hstart).bind fun _ => ?_
  simp only [hmoves]
  split
  · next hdir =>
    have hyielded : yielded r = 0 := by simp [yielded, hdir]
    rw [hyielded]
    exact (extractDirectory_triple hfits hdir).bind fun _ => Triple.pure fun _ hd => ⟨hm, hd⟩
  · next hdir =>
    have hfile : r.isDir = false := by simpa using hdir
    exact extractFile_triple hfits hfile hm

theorem extractEntries_triple {records before : List Record}
    (hnamed : ∀ r ∈ records, (staged r).Named)
    (hpairwise : ((before ++ records).map staged).Pairwise Compatible) {m : Nat} (hm : m ≤ n) :
    Triple (Staged (Going (Holds env.caseRule (before.map staged) (before.map staged)) n))
      (records.foldlM (extractEntry env) m)
      (fun _ => Staged (Going (Holds env.caseRule ((before ++ records).map staged)
        ((before ++ records).map staged)) (n + (records.map yielded).sum)))
      fun _ => Stopped env n records := by
  induction records generalizing before n m with
  | nil =>
    rw [append_nil]
    exact Triple.pure fun _ hd => hd
  | cons r rest ih =>
    have hassoc : before ++ r :: rest = before ++ [r] ++ rest := by simp
    have hfits : ∀ b ∈ before.map staged, Compatible b (staged r) := by
      rw [map_append, map_cons] at hpairwise
      exact fun b hb => (pairwise_append.mp hpairwise).2.2 b hb (staged r) mem_cons_self
    have hsum : ((r :: rest).map yielded).sum = yielded r + (rest.map yielded).sum := by simp
    rw [foldlM_cons, hsum, ← Nat.add_assoc]
    have hfirst : ∀ (_ : DownloadError) d, Stopped env n [r] d → Stopped env n (r :: rest) d :=
      fun _ d hd => ⟨hd.1.mono fun w hw => hw.mono (fun _ ht => ht) (by simp),
        fun hfree => hd.2 hfree.head⟩
    have hothers : ∀ (_ : DownloadError) d, Stopped env (n + yielded r) rest d →
        Stopped env n (r :: rest) d :=
      fun _ d hd => ⟨hd.1.mono fun w hw => hw.mono (fun _ ht => ht) (by simp [Nat.add_assoc]),
        fun hfree => hd.2 hfree.tail⟩
    refine ((extractEntry_triple (hnamed r mem_cons_self) hfits hm).onError hfirst).bind
      fun m' => Triple.given fun hm' => ?_
    have hrest := @ih (n + yielded r) (before ++ [r]) (fun r' hr' => hnamed r' (by simp [hr']))
      (by rwa [← hassoc]) m' hm'
    rw [← hassoc, map_append, map_singleton] at hrest
    exact hrest.onError hothers

theorem copyEntries_triple {records : List Record} (haccepted : Accepted records) :
    Triple (Staged (Going (Holds env.caseRule [] []) n)) (copyEntries env records)
      (fun _ => Staged (Going (Holds env.caseRule (records.map staged) (records.map staged))
        (n + (records.map yielded).sum)))
      fun _ => Stopped env n records := by
  have hacceptable := haccepted.acceptable
  have hpairwise : (([] ++ records).map staged).Pairwise Compatible :=
    pairwise_compatible_iff.mpr ⟨hacceptable.distinct, hacceptable.noFileAbove⟩
  have hnamed : ∀ r ∈ records, (staged r).Named :=
    fun r hr => (hacceptable.names _ (mem_map.mpr ⟨r, hr, rfl⟩)).named
  apply (ask_stopped _ records).bind
  intro _
  apply (ask_stopped _ records).bind
  intro _
  exact extractEntries_triple hnamed hpairwise (Nat.zero_le n)

/-! ### The first pass -/

theorem listEntries_loop {P : RunDirectory → Prop}
    (hP : ∀ d, P d → P { d with world := d.world.tick }) (records : List Record) :
    ∀ s, Triple P (records.foldlM (listEntry env) s)
      (fun t d => records.foldlM Listing.entry s = .ok t ∧ P d)
      fun _ d => P d ∧ (env.Calm → ¬ ∃ t, records.foldlM Listing.entry s = .ok t) := by
  induction records with
  | nil => exact fun s => Triple.pure fun d hd => ⟨rfl, hd⟩
  | cons r rest ih =>
    intro s
    rw [foldlM_cons, foldlM_cons]
    have hturn : Triple P (listEntry env s r) (fun next d => s.entry r = .ok next ∧ P d)
        fun _ d => P d ∧ (env.Calm →
          ¬ ∃ t, (s.entry r >>= fun next => rest.foldlM Listing.entry next) = .ok t) := by
      refine ((ask_triple _ hP).onError fun _ _ hd => ⟨hd.1, fun hcalm => absurd hcalm hd.2⟩).bind
        fun _ => ?_
      apply Triple.ofExcept
      · exact fun next d hnext hd => ⟨hnext, hd⟩
      · intro err d herr hd
        rw [herr]
        refine ⟨hd, fun _ => ?_⟩
        rintro ⟨t, ht⟩
        cases ht
    apply hturn.bind
    intro next
    apply Triple.given
    intro hnext
    rw [hnext]
    exact ih next

/-- The first pass changes nothing, and accepts if and only if it can. -/
theorem listEntries_triple {P : RunDirectory → Prop}
    (hP : ∀ d, P d → P { d with world := d.world.tick }) (records : List Record) :
    Triple P (listEntries env records) (fun _ d => Accepted records ∧ P d)
      fun _ d => P d ∧ (env.Calm → ¬ Accepted records) := by
  have hask : ∀ err, Triple P (ask env err) (fun _ => P)
      fun _ d => P d ∧ (env.Calm → ¬ Accepted records) :=
    fun err => (ask_triple err hP).onError fun _ _ hd => ⟨hd.1, fun hcalm => absurd hcalm hd.2⟩
  apply (hask _).bind
  intro _
  apply Triple.bind (Q := fun _ d => rejectDuplicateZipEntries [] records = .ok () ∧ P d)
  · apply Triple.ofExcept
    · exact fun _ d hok hd => ⟨hok, hd⟩
    · intro err d herr hd
      refine ⟨hd, fun _ haccepted => ?_⟩
      rw [haccepted.names] at herr
      cases herr
  intro _
  apply Triple.given
  intro hnames
  apply (hask _).bind
  intro _
  apply (hask _).bind
  intro _
  apply Triple.bind (Q := fun _ d => records.length ≤ maxFiles ∧ P d)
  · apply Triple.ofExcept
    · exact fun _ d hok hd => ⟨Nat.le_of_not_lt (refuse_eq_ok.mp hok), hd⟩
    · intro err d herr hd
      refine ⟨hd, fun _ haccepted => ?_⟩
      have hcount : refuse (maxFiles < records.length) DownloadError.entryCount = .ok () :=
        refuse_eq_ok.mpr (Nat.not_lt.mpr haccepted.count)
      rw [hcount] at herr
      cases herr
  intro _
  apply Triple.given
  intro hcount
  refine ((listEntries_loop hP records {}).onError fun _ _ hd =>
    ⟨hd.1, fun hcalm haccepted => hd.2 hcalm haccepted.listed⟩).bind fun s => ?_
  exact Triple.pure fun d hd => ⟨⟨hnames, hcount, s, hd.1⟩, hd.2⟩

/-! ### What the server has sent -/

theorem Regular.weight (h : Regular r) : r.entry.weight = r.entry.declaredBytes := by
  have hlink : r.entry.isSymlink = false := h.noLink
  have hsize : r.entry.size.toNat = (content r.entry.reads).length := h.size
  simp only [Entry.weight, Entry.declaredBytes, hlink, hsize]

theorem Regular.weight_eq_yielded (h : Regular r) : r.entry.weight = yielded r := by
  have hlink : r.entry.isSymlink = false := h.noLink
  simp only [Entry.weight, yielded, hlink, Bool.false_eq_true, if_false]
  rfl

theorem yielded_le (r : Record) : yielded r ≤ (content r.reads).length := by
  unfold yielded
  split
  · exact Nat.zero_le _
  · exact le_rfl

theorem Regular.key_staged (h : Regular r) (rule : CaseRule) :
    (staged r).key rule = r.entry.key rule := by
  rw [key, key, path, path, (represents_staged r).trimmed, h.trimmed]

theorem Regular.stored (h : Regular r) {rule : CaseRule} {t : Tree Text Text}
    (hstored : Stored rule t (staged r)) : Stored rule t r.entry := by
  cases hstored with
  | directory mode hdir hnode => exact .directory mode hdir (h.key_staged rule ▸ hnode)
  | symlink target hfile hlink htarget hnode => cases hlink
  | file hfile hlink hnode =>
    obtain ⟨mode, hmode⟩ := h.mode
    have hentry : r.entry.unixMode = some mode := hmode
    have hperm : r.entry.permissions = (staged r).permissions := by
      rw [permissions_staged, permissions, hentry, hmode]
      rfl
    refine .file hfile h.noLink ?_
    rw [hperm, ← h.key_staged]
    exact hnode

theorem holds_of_staged {rule : CaseRule} {records : List Record} {t : Tree Text Text}
    (hregular : ∀ r ∈ records, Regular r)
    (h : Holds rule (records.map staged) (records.map staged) t) :
    Holds rule (records.map Record.entry) (records.map Record.entry) t where
  file := by
    intro p node hnode hkind
    obtain ⟨e, he, hfile, hkey⟩ := h.file p node hnode hkind
    obtain ⟨r, hr, rfl⟩ := mem_map.mp he
    exact ⟨r.entry, mem_map_of_mem hr, hfile, (hregular r hr).key_staged rule ▸ hkey⟩
  directory := by
    intro p mode hnode
    obtain ⟨e, he, hthrough⟩ := h.directory p mode hnode
    obtain ⟨r, hr, rfl⟩ := mem_map.mp he
    refine ⟨r.entry, mem_map_of_mem hr, ?_⟩
    rw [Through, ← (hregular r hr).key_staged]
    exact hthrough
  stored := by
    intro e he
    obtain ⟨r, hr, rfl⟩ := mem_map.mp he
    exact (hregular r hr).stored (h.stored _ (mem_map_of_mem hr))
  closed := h.closed

/-! ### The whole -/

/-- The entries have taken the place of `artifacts`. -/
def Unpacked (rule : CaseRule) (records : List Record) (d : RunDirectory) : Prop :=
  ∃ tree, d.artifacts = some tree ∧
    Holds rule (records.map Record.entry) (records.map Record.entry) tree

theorem extractStaged_eq (records : List Record) :
    extractStaged env records = (copyEntries env records >>= fun _ => renameStaging env) := by
  simp only [extractStaged, copyEntries, bind_assoc]

/-- Nothing is in the way of what the server has sent. -/
theorem unhindered (hcalm : env.Calm) {records : List Record}
    (hregular : ∀ r ∈ records, Regular r) (haccepted : Accepted records)
    (hroom : ((records.map Record.entry).map weight).sum ≤ env.capacity) :
    Unhindered env 0 records := by
  have hweights : (records.map Record.entry).map weight = records.map yielded := by
    rw [map_map]
    exact map_congr_left fun r hr => (hregular r hr).weight_eq_yielded
  have hdeclared : (records.map Record.entry).map weight =
      (records.map Record.entry).map declaredBytes := by
    rw [map_map, map_map]
    exact map_congr_left fun r hr => (hregular r hr).weight
  have hacceptable := (list_ok_iff haccepted.count hregular).mp haccepted.listed
  have hsize : declaredTotal (records.map Record.entry) ≤ maxBytes := hacceptable.size
  rw [declaredTotal_eq, ← hdeclared, hweights] at hsize
  rw [hweights] at hroom
  refine ⟨hcalm, fun r hr => (hregular r hr).readable, by omega, ?_⟩
  unfold maxBytes at hsize ⊢
  omega

theorem extractStaged_calm (hcalm : env.Calm) {records : List Record}
    (hregular : ∀ r ∈ records, Regular r) (haccepted : Accepted records)
    (hroom : ((records.map Record.entry).map weight).sum ≤ env.capacity) :
    Triple (Staged (Going (Holds env.caseRule [] []) 0)) (extractStaged env records)
      (fun _ => Unpacked env.caseRule records) fun _ _ => False := by
  have hfree := unhindered hcalm hregular haccepted hroom
  rw [extractStaged_eq]
  refine ((copyEntries_triple haccepted).onError fun _ d hd => hd.2 hfree).bind fun _ => ?_
  refine (interact_triple (E := fun _ => True) _ (fun d hd => ?_) fun _ _ => trivial).onError
    fun _ _ hd => hd.2 hcalm
  exact ⟨_, rfl, holds_of_staged hregular hd.world.1⟩

/-- **Into a fresh run directory**, an archive is unpacked if the client accepts
it, and refused otherwise. -/
theorem extractZipAtomic_calm (hcalm : env.Calm) {records : List Record}
    (hregular : ∀ r ∈ records, Regular r)
    (hroom : ((records.map Record.entry).map weight).sum ≤ env.capacity) :
    Triple (Staged (Going (Holds env.caseRule [] []) 0)) (extractZipAtomic env records)
      (fun _ d => Accepted records ∧ Unpacked env.caseRule records d)
      fun _ _ => ¬ Accepted records := by
  have hget : Triple (Staged (Going (Holds env.caseRule [] []) 0)) (get : Extraction RunDirectory)
      (fun d d' => d.artifacts = none ∧ Staged (Going (Holds env.caseRule [] []) 0) d')
      fun _ _ => ¬ Accepted records := fun d hd => ⟨hd.artifacts, hd⟩
  apply hget.bind
  intro d
  apply Triple.given
  intro hfresh
  have hnew : refuse (d.artifacts.isSome = true) DownloadError.alreadyExists = .ok () := by
    rw [refuse_eq_ok, hfresh]
    simp
  rw [hnew]
  refine ((listEntries_triple (fun _ hd => ⟨hd.world, hd.artifacts⟩) records).onError
    fun _ _ hd => hd.2 hcalm).bind fun _ => Triple.given fun haccepted => ?_
  have hcreated : Triple (Staged (Going (Holds env.caseRule [] []) 0)) (createStaging env)
      (fun _ => Staged (Going (Holds env.caseRule [] []) 0)) fun _ _ => ¬ Accepted records := by
    refine (interact_triple (E := fun _ => True) _ (fun d hd => ?_) fun _ _ => trivial).onError
      fun _ _ hd => absurd hcalm hd.2
    exact ⟨⟨holds_empty, hd.world.2⟩, hd.artifacts⟩
  apply hcreated.bind
  intro _
  refine Triple.tryCatch (H := fun _ _ => False) ?_ fun _ _ h => h.elim
  exact (extractStaged_calm hcalm hregular haccepted hroom).onReturn fun _ d hd => ⟨haccepted, hd⟩

end

end IndenturedServer.Artifacts.Download
