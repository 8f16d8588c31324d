import IndenturedServer.Source.Interactions
import IndenturedServer.Source.Specification

/-!
Extraction stays beneath its directory and within its limit, and it succeeds
where nothing disturbs it.

The file of an entry is made empty (`New`) and then written piece by piece. The
count of extracted bytes is never behind what has been written, although it
stops at the largest number: no volume has room for more. The step from one
entry to the next is `extractEntry_triple`; the loop keeps that the tree holds
the entries so far. Whatever stops it, the log of calls and the bound on the
bytes stand, and something was in the way (`Free`): a fault, a full volume, or
an entry that is not what it should be.
-/

namespace IndenturedServer.Source

open Foundation List

variable {env : Environment} {limits : Limits} {es : List Entry} {e : Entry} {n : Nat}

/-! ### Making -/

/-- Everything is ready for the file or the link of the entry. -/
def Prepared (rule : CaseRule) (es : List Entry) (e : Entry) (t : Tree Text Text) : Prop :=
  Holds rule es (es ++ [e]) t ∧ t.IsDirectory (e.key rule).dropLast

/-- At the place of the entry, which was empty, there is this node. -/
def New (rule : CaseRule) (es : List Entry) (e : Entry) (node : Node Text)
    (t : Tree Text Text) : Prop :=
  ∃ t₀, Prepared rule es e t₀ ∧ t₀ (e.key rule) = none ∧ t = t₀.set (e.key rule) node

section
variable {rule : CaseRule} {t : Tree Text Text} {node : Node Text}

variable (h : New rule es e node t)
include h

theorem New.passable (hfits : ∀ b ∈ es, Compatible b e) (hnode : node.kind = .file) :
    Passable t (e.key rule) := by
  obtain ⟨t₀, ⟨hholds, -⟩, -, rfl⟩ := h
  intro q hq hne found hfound
  by_cases hkey : q = e.key rule
  · rw [hkey, Tree.set_self] at hfound
    cases hfound
    exact .inr ⟨hkey, hnode⟩
  · rw [Tree.set_of_ne _ hkey] at hfound
    exact .inl (hholds.clear hfits hq q (prefix_refl q) hne found hfound)

theorem New.there {q : List Text} (hq : q <+: e.key rule) (hne : q ≠ []) : t q ≠ none := by
  obtain ⟨t₀, ⟨hholds, hparent⟩, -, rfl⟩ := h
  by_cases hkey : q = e.key rule
  · rw [hkey, Tree.set_self]
    exact Option.some_ne_none _
  · have hlast : (e.key rule).dropLast ++ [(e.key rule).getLast (e.key_ne_nil _)] = e.key rule :=
      dropLast_append_getLast _
    rw [← hlast, prefix_concat_iff, hlast] at hq
    rw [Tree.set_of_ne _ hkey]
    exact ne_none_of_isDirectory (hholds.above hparent (hq.resolve_left hkey) hne) hne

theorem New.replace (node' : Node Text) : New rule es e node' (t.set (e.key rule) node') := by
  obtain ⟨t₀, hprepared, hnone, rfl⟩ := h
  exact ⟨t₀, hprepared, hnone, Tree.set_set ..⟩

theorem New.at : t (e.key rule) = some node := by
  obtain ⟨t₀, -, -, rfl⟩ := h
  exact Tree.set_self ..

theorem New.holds (hfile : e.isDir = false) (hnode : node.kind ≠ .dir) (hstored : Stored rule t e) :
    Holds rule (es ++ [e]) (es ++ [e]) t := by
  obtain ⟨t₀, ⟨hholds, hparent⟩, hnone, rfl⟩ := h
  exact hholds.leaf hfile hnone hparent hnode hstored

end

theorem makeLeaf_triple (c : Call) (node : Node Text) (hfits : ∀ b ∈ es, Compatible b e)
    (hfile : e.isDir = false) :
    Triple (Going (Prepared env.caseRule es e) n) (make env c node ((e.key env.caseRule).map .into))
      (fun a w => Going (New env.caseRule es e node) n w ∧ a.place = some (e.key env.caseRule))
      fun _ w => Going (Prepared env.caseRule es e) n w ∧ ¬ env.Calm := by
  obtain ⟨d, name, hkey⟩ : ∃ d name, e.key env.caseRule = d ++ [name] :=
    ⟨_, _, (dropLast_append_getLast (e.key_ne_nil env.caseRule)).symm⟩
  have hvacant : ∀ t, Prepared env.caseRule es e t → t (d ++ [name]) = none := fun t ht => by
    rw [← hkey]
    exact ht.1.vacant hfits hfile
  have hmake := @make_triple env (Prepared env.caseRule es e) n c node d name
    (fun t ht => ht.1.clear hfits ⟨[name], hkey.symm⟩) fun t other ht hother => by
      rw [hvacant t ht] at hother
      cases hother
  rw [hkey]
  refine hmake.mono (fun _ hw => hw) (fun a w hw => ?_) fun err w hw => ⟨hw.1, fun hcalm => ?_⟩
  · obtain ⟨⟨t, ht, hparent, hnone, htree, hplace⟩, hrest⟩ := hw
    exact ⟨⟨⟨t, ht, hkey ▸ hnone, hkey ▸ htree⟩, hrest⟩, hplace⟩
  · obtain ⟨a, hspec⟩ := hw.2 hcalm
    cases hspec with
    | orphan hq hne hnone =>
      have hparent := hw.1.1.2
      rw [hkey, dropLast_concat] at hparent
      exact ne_none_of_isDirectory (hw.1.1.1.above hparent hq hne) hne hnone
    | taken hother => exact nomatch (hvacant _ hw.1.1).symm.trans hother

variable {k : Nat}

theorem writeAll_triple {bytes : Text} {mode : Option Nat} (more : Text)
    (hk : ∀ written m, written ≤ n → m ≤ more.length → m ≤ env.capacity - written →
      written + m ≤ k) :
    Triple (Going (New env.caseRule es e (.file bytes mode)) n)
      (writeAll env (e.key env.caseRule) more)
      (fun _ => Going (New env.caseRule es e (.file (bytes ++ more) mode)) k)
      fun _ w => Going (fun _ => True) k w ∧ ¬ (env.Calm ∧ n + more.length ≤ env.capacity) := by
  intro w hw
  have happend : ∀ part : Text, part.length ≤ more.length → part.length ≤ env.capacity - w.written →
      Going (New env.caseRule es e (.file (bytes ++ part) mode)) k
        (w.tick.append (e.key env.caseRule) part) := by
    intro part hle hroom
    have hnode : w.tick.tree (e.key env.caseRule) = some (.file bytes mode) := hw.1.at
    simp only [World.append, hnode]
    exact ⟨hw.1.replace _, hw.2.1, hk _ _ hw.2.2 hle hroom⟩
  have hwritten := hw.2.2
  show Ends _ _ (writeAll env (e.key env.caseRule) more w)
  unfold writeAll
  dsimp only
  split
  · next k hfault =>
    refine ⟨(happend _ ?_ (length_take_le _ _)).mono (fun _ _ => trivial) le_rfl,
      fun hcalm => by simp [hcalm.1 w.clock] at hfault⟩
    rw [length_take, length_take]
    omega
  · split
    · next hfits => exact happend more le_rfl hfits
    · exact ⟨(happend _ (length_take_le' _ _) (length_take_le _ _)).mono
        (fun _ _ => trivial) le_rfl, fun hcalm => by omega⟩

/-! ### What is in the way -/

/-- No read of the entry fails. -/
def Readable (reads : List (Option Text)) : Prop :=
  none ∉ reads

/-- The bytes that the extraction of an entry writes. -/
def Entry.weight (e : Entry) : Nat :=
  if e.isDir then 0
  else if e.isSymlink then ((readToEnd 4097 e.reads).getD []).length
  else (content e.reads).length

/-- What an entry needs for its extraction, besides fitting with those before it. -/
structure Entry.Extractable (limits : Limits) (e : Entry) : Prop where
  sound : e.Sound limits
  readable : e.isSymlink = false → Readable e.reads

/-- Nothing is in the way of these entries, when the count is at `n`. -/
structure Free (env : Environment) (limits : Limits) (n : Nat) (entries : List Entry) : Prop where
  calm : env.Calm
  extractable : ∀ e ∈ entries, e.Extractable limits
  room : n + (entries.map Entry.weight).sum ≤ env.capacity
  within : n + (entries.map Entry.weight).sum ≤ limits.maxUncompressedBytes

theorem Free.one (h : Free env limits n [e]) : e.Extractable limits ∧ n + e.weight ≤ env.capacity ∧
      n + e.weight ≤ limits.maxUncompressedBytes := by
  have hroom := h.room
  have hwithin := h.within
  exact ⟨h.extractable e (by simp), hroom, hwithin⟩

/-- Where the extraction stops, the limit has been kept, and something was in the way. -/
def Stopped (env : Environment) (limits : Limits) (n : Nat) (entries : List Entry) (w : World) : Prop :=
  Going (fun _ => True) limits.maxUncompressedBytes w ∧ ¬ Free env limits n entries

variable {T : Tree Text Text → Prop} {w : World}

theorem Going.stopped {entries : List Entry} (h : Going T k w)
    (hk : k ≤ limits.maxUncompressedBytes) {p : Prop} (hp : ¬ p)
    (hfree : Free env limits n entries → p) : Stopped env limits n entries w :=
  ⟨h.mono (fun _ _ => trivial) hk, fun h => hp (hfree h)⟩

theorem failIf_triple {entries : List Entry} (hmax : n ≤ limits.maxUncompressedBytes) {c : Prop}
    [Decidable c] {err : SourceError} (hfree : Free env limits n entries → ¬ c) :
    Triple (Going T n) (MonadExcept.ofExcept (failIf c err) : EStateM SourceError World Unit)
      (fun _ w => ¬ c ∧ Going T n w) fun _ => Stopped env limits n entries := by
  refine .ofExcept (fun _ _ hok hw => ⟨failIf_eq_ok.mp hok, hw⟩) fun err w herr hw => ?_
  refine hw.stopped hmax (fun hc : ¬ c => ?_) hfree
  rw [(failIf_eq_ok (u := ())).mpr hc] at herr
  cases herr

/-! ### Files and links -/

theorem saturatingAdd_lt (a b : Nat) : saturatingAdd a b < 2 ^ 64 := by
  unfold saturatingAdd
  omega

theorem saturatingAdd_le (a b : Nat) : saturatingAdd a b ≤ a + b :=
  Nat.min_le_left _ _

/-- After an entry: it is in the tree too, and the count is within the limit. -/
def Extracted (env : Environment) (limits : Limits) (es : List Entry) (m : Nat) (w : World) :
    Prop :=
  m ≤ limits.maxUncompressedBytes ∧ m < 2 ^ 64 ∧ Going (Holds env.caseRule es es) m w

/-- The loop that copies an entry: the limit is checked before each write. -/
theorem copyEntry_triple (reads : List (Option Text)) {bytes : Text}
    (hmax : n ≤ limits.maxUncompressedBytes) (hn : n < 2 ^ 64) :
    Triple (Going (New env.caseRule es e (.file bytes none)) n)
      (copyEntry env limits (e.key env.caseRule) n reads)
      (fun m w => (m ≤ limits.maxUncompressedBytes ∧ m < 2 ^ 64 ∧ m ≤ n + (content reads).length) ∧
        Going (New env.caseRule es e (.file (bytes ++ content reads) none)) m w)
      fun _ w => Going (fun _ => True) limits.maxUncompressedBytes w ∧
        ¬ (env.Calm ∧ Readable reads ∧ n + (content reads).length ≤ env.capacity ∧
          n + (content reads).length ≤ limits.maxUncompressedBytes) := by
  have hcapacity := env.capacity_lt
  induction reads generalizing n bytes with
  | nil =>
    refine (check_triple.onError fun _ w hw => ?_).bind fun _ => .pure fun w hw => ?_
    · exact ⟨hw.1.mono (fun _ _ => trivial) hmax, fun hfree => hw.2 hfree.1⟩
    · exact ⟨⟨hmax, hn, Nat.le_add_right _ _⟩, by simpa [content] using hw⟩
  | cons read rest ih =>
    rw [copyEntry.eq_def]
    refine (check_triple.onError fun _ w hw =>
      ⟨hw.1.mono (fun _ _ => trivial) hmax, fun hfree => hw.2 hfree.1⟩).bind fun _ => ?_
    cases read with
    | none =>
      exact .throw fun w hw =>
        ⟨hw.mono (fun _ _ => trivial) hmax, fun hfree => hfree.2.1 mem_cons_self⟩
    | some more =>
      by_cases hempty : more = []
      · simp only [hempty, if_true, content, append_nil]
        exact .pure fun w hw => ⟨⟨hmax, hn, Nat.le_add_right _ _⟩, hw⟩
      · simp only [hempty, if_false, content, length_append]
        have hsum := saturatingAdd_le n more.length
        refine Triple.bind (Q := fun _ w => saturatingAdd n more.length ≤ limits.maxUncompressedBytes ∧
          Going (New env.caseRule es e (.file bytes none)) n w) (.ofExcept
          (fun _ _ hok hw => ⟨Nat.le_of_not_lt (failIf_eq_ok.mp hok), hw⟩) fun err w herr hw => ?_)
          fun _ => .given fun hmax' => ?_
        · refine ⟨hw.mono (fun _ _ => trivial) hmax, fun hfree => ?_⟩
          rw [(failIf_eq_ok (u := ())).mpr (by omega)] at herr
          cases herr
        -- only within the limit does the loop go on to write
        refine Triple.bind (.adaptExcept ((writeAll_triple (k := saturatingAdd n more.length) more
          fun written m h1 h2 h3 => ?_).onError fun _ w hw => ?_)) fun _ => ?_
        · unfold saturatingAdd
          omega
        · exact ⟨hw.1.mono (fun _ _ => trivial) hmax', fun hfree => hw.2 ⟨hfree.1, by omega⟩⟩
        · rw [← append_assoc]
          refine (ih hmax' (saturatingAdd_lt n more.length)).mono (fun _ hw => hw) (fun m w hw => ?_)
            fun _ w hw => ⟨hw.1, fun hfree => hw.2 ⟨hfree.1, ?_, by omega, by omega⟩⟩
          · exact ⟨⟨hw.1.1, hw.1.2.1, by have := hw.1.2.2; omega⟩, hw.2⟩
          · exact fun hmem => hfree.2.1 (mem_cons_of_mem _ hmem)

theorem createNew_triple (hfits : ∀ b ∈ es, Compatible b e) (hfile : e.isDir = false) :
    Triple (Going (Prepared env.caseRule es e) n) (createNew env ((e.key env.caseRule).map .into))
      (fun handle w => handle = e.key env.caseRule ∧
        Going (New env.caseRule es e (.file [] none)) n w)
      fun _ w => Going (Prepared env.caseRule es e) n w ∧ ¬ env.Calm :=
  (makeLeaf_triple .createNew (.file [] none) hfits hfile).bind fun a => .pure fun w hw =>
    ⟨by rw [hw.2]; rfl, hw.1⟩

theorem symlink_triple (target : Text) (hfits : ∀ b ∈ es, Compatible b e)
    (hfile : e.isDir = false) (hn : n < 2 ^ 64) :
    Triple (Going (Prepared env.caseRule es e) n) (symlink env target ((e.key env.caseRule).map .into))
      (fun _ => Going (New env.caseRule es e (.link target)) (saturatingAdd n target.length))
      fun _ w => Going (Prepared env.caseRule es e) n w ∧
        ¬ (env.Calm ∧ n + target.length ≤ env.capacity) := by
  intro w hw
  have hwritten := hw.2.2
  simp only [EStateM.run, symlink]
  split
  · exact ⟨hw, fun hfree => by omega⟩
  · next hroom =>
    have hcapacity := env.capacity_lt
    -- the bytes written so far, which the link does not change before it is made
    have hlink : Triple (Going (Prepared env.caseRule es e) w.written)
        (makeLink env target ((e.key env.caseRule).map .into))
        (fun _ => Going (New env.caseRule es e (.link target)) (w.written + target.length))
        fun _ v => Going (Prepared env.caseRule es e) w.written v ∧ ¬ env.Calm :=
      (makeLeaf_triple .symlink (.link target) hfits hfile).bind fun a => .modify fun v hv =>
        ⟨hv.1.1, hv.1.2.1, Nat.add_le_add_right hv.1.2.2 _⟩
    refine (hlink w ⟨hw.1, hw.2.1, le_rfl⟩).mono (fun _ v hv => hv.mono (fun _ h => h) ?_)
      fun _ v hv => ⟨hv.1.mono (fun _ h => h) hwritten, fun hfree => hv.2 hfree.1⟩
    unfold saturatingAdd
    omega

section
variable (hfits : ∀ b ∈ es, Compatible b e)
include hfits

theorem extractSymlink_triple (hfile : e.isDir = false) (hlink : e.isSymlink = true)
    (hmax : n ≤ limits.maxUncompressedBytes) (hn : n < 2 ^ 64) :
    Triple (Going (Prepared env.caseRule es e) n)
      (extractSymlink env limits e e.trimmed ((e.key env.caseRule).map .into) n)
      (fun m w => m ≤ n + e.weight ∧ Extracted env limits (es ++ [e]) m w)
      fun _ => Stopped env limits n [e] := by
  have htarget : Free env limits n [e] → e.TargetFits := fun hfree =>
    hfree.one.1.sound.target hfile hlink
  unfold extractSymlink
  cases hread : readToEnd 4097 e.reads with
  | none =>
    refine .throw fun w hw => hw.stopped hmax (p := False) (fun h => h) fun hfree => ?_
    obtain ⟨target, htarget, -⟩ := htarget hfree
    cases hread.symm.trans htarget
  | some target =>
    have hweight : e.weight = target.length := by simp [Entry.weight, hfile, hlink, hread]
    have hsum := saturatingAdd_le n target.length
    have hvalid : Free env limits n [e] →
        isUtf8 target = true ∧ validateSymlinkTarget e.trimmed target = .ok () := fun hfree => by
      obtain ⟨found, hfound, -, hutf8, hvalid⟩ := htarget hfree
      cases hread.symm.trans hfound
      exact ⟨hutf8, hvalid⟩
    refine (failIf_triple hmax fun hfree => ?_).bind fun _ => .given fun hlimit => ?_
    · have := hfree.one.2.2
      omega
    refine (failIf_triple hmax fun hfree => ?_).bind fun _ => .given fun _ => ?_
    · simp [(hvalid hfree).1]
    refine Triple.bind (.ofExcept (Q := fun _ => Going (Prepared env.caseRule es e) n)
      (fun _ _ _ hw => hw) fun err w herr hw => ?_) fun _ => ?_
    · refine hw.stopped hmax (p := False) (fun h => h) fun hfree => ?_
      cases herr.symm.trans (hvalid hfree).2
    refine Triple.bind (.adaptExcept ((symlink_triple target hfits hfile hn).onError
      fun _ w hw => hw.1.stopped hmax hw.2 fun hfree => ⟨hfree.calm, ?_⟩)) fun _ =>
      .pure fun w hw => ⟨by omega, by omega, saturatingAdd_lt _ _, hw.mono (fun t h => ?_) le_rfl⟩
    · exact hweight ▸ hfree.one.2.1
    · exact h.holds hfile (by simp [Node.kind]) (.symlink target hfile hlink hread h.at)

theorem extractFile_triple (hfile : e.isDir = false) (hlink : e.isSymlink = false)
    (hmax : n ≤ limits.maxUncompressedBytes) (hn : n < 2 ^ 64) :
    Triple (Going (Prepared env.caseRule es e) n)
      (extractFile env limits e ((e.key env.caseRule).map .into) n)
      (fun m w => m ≤ n + e.weight ∧ Extracted env limits (es ++ [e]) m w)
      fun _ => Stopped env limits n [e] := by
  have hweight : e.weight = (content e.reads).length := by simp [Entry.weight, hfile, hlink]
  refine Triple.bind (.adaptExcept ((createNew_triple hfits hfile).onError
    fun _ w hw => hw.1.stopped hmax hw.2 Free.calm)) fun handle => .given fun hhandle => ?_
  rw [hhandle]
  refine ((copyEntry_triple e.reads hmax hn).onError fun _ w hw => hw.1.stopped le_rfl hw.2
    fun hfree => ?_).bind fun m => .given fun hm => ?_
  · obtain ⟨hextractable, hroom, hwithin⟩ := hfree.one
    exact ⟨hfree.calm, hextractable.readable hlink, hweight ▸ hroom, hweight ▸ hwithin⟩
  refine ((applyMode_triple e (e.key_ne_nil _) (fun t ht => ht.passable hfits rfl)
    fun t ht q hq hne => ht.there hq hne).onError fun _ w hw => hw.1.stopped hm.1 hw.2
      Free.calm).bind fun _ => .pure fun w hw => ?_
  refine ⟨hweight ▸ hm.2.2, hm.1, hm.2.1, hw.mono (fun t' h => ?_) le_rfl⟩
  obtain ⟨t, hnew, hsame, hmode⟩ := h
  -- the file has its content, and now its mode
  have hnew' : New env.caseRule es e (.file (content e.reads) e.permissions) t' := by
    cases hperm : e.permissions with
    | none =>
      rw [hsame hperm]
      exact hnew
    | some mode =>
      obtain ⟨node, hnode, rfl⟩ := hmode mode hperm
      rw [hnew.at, Option.some_inj] at hnode
      rw [← hnode]
      exact hnew.replace _
  exact hnew'.holds hfile (by simp [Node.kind]) (.file hfile hlink hnew'.at)

/-! ### Entries -/

theorem extractDirectory_triple (hdir : e.isDir = true) :
    Triple (Going (Holds env.caseRule es (es ++ [e])) n) (do
        EStateM.adaptExcept (fun _ => SourceError.mkdir)
          (createDirAll env ((e.key env.caseRule).map .into))
        applyMode env e ((e.key env.caseRule).map .into)
        return n)
      (fun m w => m = n ∧ Going (Holds env.caseRule (es ++ [e]) (es ++ [e])) n w)
      fun _ w => Going (Holds env.caseRule es (es ++ [e])) n w ∧ ¬ env.Calm := by
  have hthrough : e.Through env.caseRule (e.key env.caseRule) := ⟨prefix_refl _, fun _ => hdir⟩
  have hfits' : Fits es (es ++ [e]) e := ⟨by simp, hfits⟩
  refine Triple.bind (.adaptExcept (createDirAll_triple hfits' hthrough)) fun _ => ?_
  refine ((applyMode_triple e (e.key_ne_nil _)
    (fun t ht => (ht.1.clear hfits (prefix_refl _)).passable)
    fun t ht q hq hne => ne_none_of_isDirectory (ht.1.above ht.2 hq hne) hne).onError
    fun _ w hw => ⟨hw.1.mono (fun t h => h.1) le_rfl, hw.2⟩).bind fun _ => .pure fun w hw => ?_
  refine ⟨rfl, hw.mono (fun t' h => ?_) le_rfl⟩
  obtain ⟨t, ⟨hholds, mode, hnode⟩, hsame, hmode⟩ := h
  rw [t.get_of_ne_nil (e.key_ne_nil _)] at hnode
  cases hperm : e.permissions with
  | none =>
    rw [hsame hperm]
    exact hholds.done (.directory mode hdir hnode)
  | some m =>
    obtain ⟨node, hnode', rfl⟩ := hmode m hperm
    rw [hnode, Option.some_inj] at hnode'
    rw [← hnode']
    have hset := hholds.setDir (e := e) (by simp) hthrough (by simp [hnode, Node.kind])
      (fun d name hkey => hholds.closed d name _ (hkey ▸ hnode)) (some m)
    exact hset.done (.directory (some m) hdir (Tree.set_self ..))

end

theorem Entry.through_dropLast (e : Entry) (rule : CaseRule) :
    e.Through rule (e.key rule).dropLast := by
  refine ⟨ dropLast_prefix _, fun heq => ?_⟩
  have hlength := congrArg length heq
  have hpos := length_pos_of_ne_nil (e.key_ne_nil rule)
  rw [length_dropLast] at hlength
  omega

/-- **One entry.** From a tree that holds the entries before it to one that
holds it as well. -/
theorem extractEntry_triple (hfits : ∀ b ∈ es, Compatible b e)
    (hmax : n ≤ limits.maxUncompressedBytes) (hn : n < 2 ^ 64) :
    Triple (Going (Holds env.caseRule es es) n) (extractEntry env limits n e)
      (fun m w => m ≤ n + e.weight ∧ Extracted env limits (es ++ [e]) m w)
      fun _ => Stopped env limits n [e] := by
  refine (check_triple.onError fun _ w hw => hw.1.stopped hmax hw.2 Free.calm).bind fun _ => ?_
  refine ((askArchive_triple _).onError fun _ w hw => hw.1.stopped hmax hw.2 Free.calm).bind
    fun _ => ?_
  refine Triple.bind (.ofExcept (Q := fun normalized w => (normalized = e.trimmed ∧ e.Named) ∧
      Going (Holds env.caseRule es (es ++ [e])) n w)
    (fun normalized w hok hw => ⟨normalizedZipPath_ok hok, hw.mono (fun t h => h.start e) le_rfl⟩)
    fun _ w herr hw => ?_) fun normalized => .given fun hnormalized => ?_
  · refine hw.stopped hmax (p := False) (fun h => h) fun hfree => ?_
    cases herr.symm.trans (normalizedZipPath_ok_iff.mpr ⟨rfl, hfree.one.1.sound.named⟩)
  obtain ⟨rfl, hnamed⟩ := hnormalized
  rw [hnamed.moves]
  split
  · next hdir =>
    refine (extractDirectory_triple hfits hdir).mono (fun _ h => h) (fun m w hw => ?_)
      fun _ w hw => hw.1.stopped hmax hw.2 Free.calm
    obtain ⟨rfl, hw⟩ := hw
    exact ⟨Nat.le_add_right _ _, hmax, hn, hw⟩
  · next hdir =>
    have hfile : e.isDir = false := by simpa using hdir
    have hparent := e.through_dropLast env.caseRule
    simp only [← map_dropLast]
    refine Triple.bind (.adaptExcept ((createDirAll_triple ⟨by simp, hfits⟩ hparent).onError
      fun _ w hw => hw.1.stopped hmax hw.2 Free.calm)) fun _ => ?_
    split
    · next hlink => exact extractSymlink_triple hfits hfile hlink hmax hn
    · next hlink => exact extractFile_triple hfits hfile (by simpa using hlink) hmax hn

theorem extractEntries_triple {before entries : List Entry} (hpairwise : entries.Pairwise Compatible)
    (hbefore : ∀ b ∈ before, ∀ e ∈ entries, Compatible b e) :
    Triple (Extracted env limits before n) (entries.foldlM (extractEntry env limits) n)
      (Extracted env limits (before ++ entries)) fun _ => Stopped env limits n entries := by
  induction entries generalizing before n with
  | nil =>
    rw [append_nil]
    exact .pure fun w hw => hw
  | cons e rest ih =>
    obtain ⟨hrest, hpairwise⟩ := pairwise_cons.mp hpairwise
    have hsum : ((e :: rest).map Entry.weight).sum = e.weight + (rest.map Entry.weight).sum := by simp
    have hhead : Free env limits n (e :: rest) → Free env limits n [e] := fun hfree => by
      refine ⟨hfree.calm, fun e' he' => hfree.extractable e' (by simp_all), ?_, ?_⟩
      · have := hfree.room
        simp only [map_singleton, sum_singleton]
        omega
      · have := hfree.within
        simp only [map_singleton, sum_singleton]
        omega
    have hbefore' : ∀ b ∈ before ++ [e], ∀ e' ∈ rest, Compatible b e' := by
      intro b hb e' he'
      obtain hb | rfl := mem_append.mp hb |>.imp_right mem_singleton.mp
      · exact hbefore b hb e' (mem_cons_of_mem _ he')
      · exact hrest e' he'
    refine .given fun hmax => .given fun hn => ?_
    refine ((extractEntry_triple (fun b hb => hbefore b hb e (by simp)) hmax hn).onError
      fun _ w hw => ⟨hw.1, fun hfree => hw.2 (hhead hfree)⟩).bind fun m => .given fun hm => ?_
    have hnext := ih (n := m) hpairwise hbefore'
    rw [append_assoc] at hnext
    refine hnext.onError fun _ w hw => ⟨hw.1, fun hfree => hw.2 ⟨hfree.calm,
      fun e' he' => hfree.extractable e' (mem_cons_of_mem _ he'), ?_, ?_⟩⟩
    · have := hfree.room
      omega
    · have := hfree.within
      omega

/-! ### The whole -/

/-- The preflight changes nothing, and returns exactly if it accepts and nothing
disturbs it. -/
theorem preflight_triple (entries : List Entry) :
    Triple (Going T n) (preflightSourceArchive env limits entries)
      (fun _ w => (∃ t, accepts limits entries = .ok t) ∧ Going T n w)
      fun _ w => Going T n w ∧ (env.Calm → ¬ ∃ t, accepts limits entries = .ok t) := by
  have hloop : ∀ s : Preflight, Triple (Going T n) (entries.foldlM (fun s entry => do
        checkOptionalInitializationCancel env
        askArchive env .unreadableEntry
        MonadExcept.ofExcept (Preflight.entry limits s entry)) s)
      (fun t w => entries.foldlM (Preflight.entry limits) s = .ok t ∧ Going T n w)
      fun _ w => Going T n w ∧
        (env.Calm → ¬ ∃ t, entries.foldlM (Preflight.entry limits) s = .ok t) := by
    induction entries with
    | nil => exact fun s => .pure fun w hw => ⟨rfl, hw⟩
    | cons e rest ih =>
      intro s
      simp only [foldlM_cons, bind_assoc, bind_eq_ok]
      refine (check_triple.onError fun _ w hw => ⟨hw.1, fun hcalm => absurd hcalm hw.2⟩).bind
        fun _ => ((askArchive_triple _).onError fun _ w hw =>
          ⟨hw.1, fun hcalm => absurd hcalm hw.2⟩).bind fun _ => ?_
      refine Triple.bind (.ofExcept (Q := fun m w => Preflight.entry limits s e = .ok m ∧ Going T n w)
        (fun _ _ hok hw => ⟨hok, hw⟩) fun _ _ herr hw => ⟨hw, fun _ => ?_⟩)
        fun m => .given fun hm => ?_
      · rintro ⟨t, m, hm, -⟩
        cases herr.symm.trans hm
      · refine (ih m).mono (fun _ hw => hw) (fun t w hw => ⟨⟨m, hm, hw.1⟩, hw.2⟩)
          fun _ w hw => ⟨hw.1, fun hcalm => ?_⟩
        rintro ⟨t, m', hm', ht⟩
        cases hm.symm.trans hm'
        exact hw.2 hcalm ⟨t, ht⟩
  exact ((askArchive_triple _).onError fun _ w hw => ⟨hw.1, fun hcalm => absurd hcalm hw.2⟩).bind
    fun _ => (hloop {}).bind fun t => .pure fun w hw => ⟨⟨t, hw.1⟩, hw.2⟩

/-- The state in which a program ends. -/
def final {ε σ α : Type} : EStateM.Result ε σ α → σ
  | .ok _ s => s
  | .error _ s => s

theorem extract_triple (env : Environment) (limits : Limits) (entries : List Entry) :
    Triple (Going (Holds env.caseRule [] []) 0) (extractSourceArchiveInner env limits entries)
      (fun _ w => (∀ e ∈ entries, Admissible e) ∧
        Going (Holds env.caseRule entries entries) limits.maxUncompressedBytes w)
      fun _ w => Going (fun _ => True) limits.maxUncompressedBytes w ∧
        ¬ (Free env limits 0 entries ∧ ∃ t, accepts limits entries = .ok t) := by
  have hmax : 0 ≤ limits.maxUncompressedBytes := Nat.zero_le _
  have hfault : ∀ w, Going (Holds env.caseRule [] []) 0 w ∧ ¬ env.Calm →
      Going (fun _ => True) limits.maxUncompressedBytes w ∧
        ¬ (Free env limits 0 entries ∧ ∃ t, accepts limits entries = .ok t) := fun w hw =>
    ⟨hw.1.mono (fun _ _ => trivial) hmax, fun hfree => hw.2 hfree.1.calm⟩
  refine (check_triple.onError fun _ w hw => hfault w hw).bind fun _ => ?_
  refine ((preflight_triple entries).onError fun _ w hw => ⟨hw.1.mono (fun _ _ => trivial) hmax,
    fun hfree => hw.2 hfree.1.calm hfree.2⟩).bind fun _ => .given fun haccepts => ?_
  refine ((askArchive_triple _).onError fun _ w hw => hfault w hw).bind fun _ => ?_
  obtain ⟨t, ht⟩ := haccepts
  obtain ⟨hadmissible, hpairwise⟩ := accepted_of_accepts ht
  have hentries : Triple (Extracted env limits [] 0) (entries.foldlM (extractEntry env limits) 0)
      (Extracted env limits entries) fun _ => Stopped env limits 0 entries :=
    extractEntries_triple hpairwise (by simp)
  refine (hentries.mono (fun w hw => ⟨hmax, by omega, hw⟩) (fun _ _ hw => hw)
    fun _ w hw => ⟨hw.1, fun hfree => hw.2 hfree.1⟩).bind fun m => .pure fun w hw => ?_
  obtain ⟨hm, -, hw⟩ := hw
  exact ⟨hadmissible, hw.mono (fun _ h => h) hm⟩

theorem going_empty (rule : CaseRule) : Going (Holds rule [] []) 0 {} :=
  ⟨holds_empty, by simp, le_rfl⟩

theorem holds_of_extract {env : Environment} {limits : Limits} {entries : List Entry}
    (hrun : extractSourceArchiveInner env limits entries {} = .ok () w) :
    (∀ e ∈ entries, Admissible e) ∧ Holds env.caseRule entries entries w.tree := by
  have hends := extract_triple env limits entries {} (going_empty _)
  rw [EStateM.run, hrun] at hends
  exact ⟨hends.1, hends.2.1⟩

/-- **Extraction is confined.** Whatever the archive, the limits, the file
system and the failures on the way: no call goes through a link, what is made
is strictly beneath the destination and not where something else is, and not
more is written than the limit allows. If the extraction succeeds, every entry
is in the tree, at its own path and with its content. -/
theorem extraction_confined (env : Environment) (limits : Limits) (entries : List Entry) :
    (∀ a ∈ (final (extractSourceArchiveInner env limits entries {})).log, Confined a) ∧
    (final (extractSourceArchiveInner env limits entries {})).written ≤
      limits.maxUncompressedBytes ∧
    ∀ w, extractSourceArchiveInner env limits entries {} = .ok () w →
      ∀ e ∈ entries, e.key env.caseRule ≠ [] ∧ Stored env.caseRule w.tree e := by
  have hsafe : Going (fun _ => True) limits.maxUncompressedBytes
      (final (extractSourceArchiveInner env limits entries {})) := by
    obtain ⟨u, w, hrun, -, hw⟩ | ⟨err, w, hrun, hw, -⟩ :=
      (extract_triple env limits entries).run_cases (going_empty _)
    · rw [hrun]
      exact hw.mono (fun _ _ => trivial) le_rfl
    · rw [hrun]
      exact hw
  refine ⟨hsafe.2.1, hsafe.2.2, fun w hrun e he => ⟨e.key_ne_nil _, ?_⟩⟩
  exact (holds_of_extract hrun).2.stored e he

section
variable {rule : CaseRule} {es es' : List Entry} {t t' : Tree Text Text} {p : List Text}
  (h : Holds rule es es t) (h' : Holds rule es' es' t') (hsub : es ⊆ es')
include h h' hsub

theorem Holds.node_of_subset {node : Node Text} (hkind : node.kind ≠ .dir) (hp : t p = some node) :
    t' p = some node := by
  obtain ⟨e, he, hfile, rfl⟩ := h.file p node hp hkind
  have hstored := h'.stored e (hsub he)
  cases h.stored e he <;> cases hstored <;> simp_all

theorem Holds.isDirectory_of_subset (hp : t.IsDirectory p) : t'.IsDirectory p := by
  by_cases hne : p = []
  · exact hne ▸ ⟨none, rfl⟩
  obtain ⟨mode, hmode⟩ := hp
  obtain ⟨e, he, hpre, hself⟩ := h.directory p mode (t.get_of_ne_nil hne ▸ hmode)
  have hstored := h'.stored e (hsub he)
  by_cases hkey : p = e.key rule
  · cases hstored <;> simp_all [Tree.IsDirectory, t'.get_of_ne_nil]
  · -- a proper part of the path is above what the entry stores
    obtain ⟨node, hnode⟩ := Option.ne_none_iff_exists'.mp hstored.ne_none
    rw [← List.dropLast_append_getLast (e.key_ne_nil rule)] at hnode hpre hkey
    exact h'.above (h'.closed _ _ _ hnode) ((List.prefix_concat_iff.mp hpre).resolve_left hkey) hne

end

/-- What a successful extraction leaves depends on the set of the entries and
the case rule alone: their order, the limits and the failures on the way make
no difference, except to the modes of directories. -/
theorem extraction_order_irrelevant {env env' : Environment} {limits limits' : Limits}
    {entries entries' : List Entry} {w w' : World} (hrule : env.caseRule = env'.caseRule)
    (hsame : ∀ e, e ∈ entries ↔ e ∈ entries')
    (hrun : extractSourceArchiveInner env limits entries {} = .ok () w)
    (hrun' : extractSourceArchiveInner env' limits' entries' {} = .ok () w') (p : List Text) :
    (w.tree.IsDirectory p ↔ w'.tree.IsDirectory p) ∧
    ∀ node, node.kind ≠ .dir → (w.tree p = some node ↔ w'.tree p = some node) := by
  have h := (holds_of_extract hrun).2
  have h' := hrule ▸ (holds_of_extract hrun').2
  have hsub := fun e => (hsame e).mp
  have hsub' := fun e => (hsame e).mpr
  exact ⟨⟨h.isDirectory_of_subset h' hsub, h'.isDirectory_of_subset h hsub'⟩, fun node hkind =>
    ⟨h.node_of_subset h' hsub hkind, h'.node_of_subset h hsub' hkind⟩⟩

theorem extraction_order_irrelevant_swap : ∃ w w',
    (extractSourceArchiveInner ⟨.sensitive, 8, 3, by decide, fun _ => none⟩ ⟨3, 2, 2⟩
      [directoryRecord.entry, fileRecord.entry] {} = .ok () w ∧
    extractSourceArchiveInner ⟨.sensitive, 8, 9, by decide, fun _ => none⟩ ⟨4, 2, 2⟩
      [fileRecord.entry, directoryRecord.entry] {} = .ok () w') ∧
    ∀ p, w.tree.IsDirectory p ↔ w'.tree.IsDirectory p :=
  Exists.imp (fun _ => Exists.imp fun _ h => ⟨h, fun p => (extraction_order_irrelevant (by rfl)
    (fun _ => (List.Perm.swap _ _ _).mem_iff) h.1 h.2 p).1⟩) ⟨_, _, rfl, rfl⟩

theorem Environment.calm_undisturbed (env : Environment) : env.undisturbed.Calm :=
  fun _ => rfl

/-- **Extraction succeeds** on an acceptable archive that can be read, on a
volume with room for it, when nothing disturbs it. -/
theorem extractSourceArchiveInner_succeeds (env : Environment) {entries : List Entry}
    (hlength : entries.length < 2 ^ 64) (hacceptable : Acceptable limits entries)
    (hall : ∀ e ∈ entries, e.Extractable limits)
    (hroom : (entries.map Entry.weight).sum ≤ env.capacity)
    (hmax : (entries.map Entry.weight).sum ≤ limits.maxUncompressedBytes) :
    ∃ w, extractSourceArchiveInner env.undisturbed limits entries {} = .ok () w := by
  have haccepts := (accepts_ok_iff hlength).mpr
    ⟨hacceptable, fun e he => (hall e he).sound.symlinkMode⟩
  have hfree : Free env.undisturbed limits 0 entries :=
    ⟨env.calm_undisturbed, hall, (Nat.zero_add _).trans_le hroom, (Nat.zero_add _).trans_le hmax⟩
  obtain ⟨⟨⟩, w, hrun, -⟩ | ⟨err, w, -, -, hstopped⟩ :=
    (extract_triple env.undisturbed limits entries).run_cases (going_empty _)
  · exact ⟨w, hrun⟩
  · exact absurd ⟨hfree, haccepts⟩ hstopped

end IndenturedServer.Source
