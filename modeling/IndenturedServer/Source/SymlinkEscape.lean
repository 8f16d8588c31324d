import IndenturedServer.Source.Confinement

/-!
Where the links of an extracted archive lead.

`validate_symlink_target` counts the names and the `..` of one target from the
depth of the link. That is the depth a resolution would be at if every name were
a directory. When a name is a link, `..` starts from where that link led, and
the count says nothing any more: two targets that both pass can lead out
together.

What decides is the resolution of each link on its own, from the directory
that holds it. The count is right for targets that go up before they go down.
-/

namespace IndenturedServer.Source

open Foundation

/-- Some path of names, from a directory of the tree, leads out of it. -/
def LeadsOut (rule : CaseRule) (t : Tree Text Text) : Prop :=
  ∃ dir names : List Text, t.IsDirectory dir ∧
    Walk.Escapes t (moves rule) ⟨dir, names.map .into⟩

/-- The target of a symlink does, from the directory that holds the link. -/
def Entry.LinkEscapes (rule : CaseRule) (t : Tree Text Text) (e : Entry) : Prop :=
  e.isDir = false ∧ e.isSymlink = true ∧ ∃ target, readToEnd 4097 e.reads = some target ∧
    Walk.Escapes t (moves rule) ⟨(e.key rule).dropLast, moves rule target⟩

/-! ### Links one by one -/

section
variable {rule : CaseRule} {es : List Entry} {t : Tree Text Text}

theorem Holds.link (h : Holds rule es es t) {dir : List Text} {name text : Text}
    (hlink : t (dir ++ [name]) = some (.link text)) :
    ∃ e ∈ es, e.isDir = false ∧ e.isSymlink = true ∧ readToEnd 4097 e.reads = some text ∧
      e.key rule = dir ++ [name] := by
  obtain ⟨e, he, hfile, hkey⟩ := h.file _ _ hlink (by simp [Node.kind])
  refine ⟨e, he, hfile, ?_⟩
  cases h.stored e he with
  | directory mode hdir hnode => simp [hdir] at hfile
  | symlink target _ hsymlink htarget hnode =>
    rw [hkey, hlink] at hnode
    cases hnode
    exact ⟨hsymlink, htarget, hkey⟩
  | file _ _ hnode =>
    rw [hkey, hlink] at hnode
    cases hnode

theorem Holds.symlink (h : Holds rule es es t) {e : Entry} (he : e ∈ es)
    (hfile : e.isDir = false) (hsymlink : e.isSymlink = true) {target : Text}
    (htarget : readToEnd 4097 e.reads = some target) :
    ∃ name, t ((e.key rule).dropLast ++ [name]) = some (.link target) ∧
      t.IsDirectory (e.key rule).dropLast := by
  have hkey : (e.key rule).dropLast ++ [(e.key rule).getLast (e.key_ne_nil rule)] = e.key rule :=
    List.dropLast_append_getLast _
  have hnode : t ((e.key rule).dropLast ++ [(e.key rule).getLast (e.key_ne_nil rule)]) =
      some (.link target) := by
    rw [hkey]
    cases h.stored e he with
    | directory mode hdir hnode => simp [hdir] at hfile
    | symlink target' _ _ htarget' hnode =>
      rw [htarget, Option.some_inj] at htarget'
      rw [hnode, htarget']
    | file _ hlink hnode => simp [hlink] at hsymlink
  exact ⟨_, hnode, h.closed _ _ _ hnode⟩

theorem Holds.leadsOut_iff (h : Holds rule es es t) :
    LeadsOut rule t ↔ ∃ e ∈ es, e.LinkEscapes rule t := by
  constructor
  · rintro ⟨dir, names, -, hescapes⟩
    by_contra hnone
    refine Walk.not_escapes_of_links (fun dir name text hlink hout => hnone ?_) dir names hescapes
    obtain ⟨e, he, hfile, hsymlink, htarget, hkey⟩ := h.link hlink
    refine ⟨e, he, hfile, hsymlink, text, htarget, ?_⟩
    rwa [hkey, List.dropLast_concat]
  · rintro ⟨e, he, hfile, hsymlink, target, htarget, hescapes⟩
    obtain ⟨name, hnode, hdir⟩ := h.symlink he hfile hsymlink htarget
    exact ⟨_, [name], hdir, Walk.escapes_of_link hnode hescapes⟩

end

/-! ### What the count of a target is good for -/

/-- No `..` comes after a name. -/
def upFirst : List Component → Bool
  | [] => true
  | .normal _ :: rest => rest.all (· ≠ .parentDir)
  | _ :: rest => upFirst rest

variable {linkPath : Text} {depth : Nat} {cs : List Component}

theorem moves_of_names (rule : CaseRule) {target : Text}
    (h : targetStays linkPath target depth cs = .ok ()) (hdown : cs.all (· ≠ .parentDir) = true) :
    ∃ names : List Text, cs.filterMap (Component.move rule) = names.map .into := by
  induction cs generalizing depth with
  | nil => exact ⟨[], rfl⟩
  | cons c cs ih =>
    rw [List.all_cons, Bool.and_eq_true] at hdown
    cases c with
    | rootDir => simp [targetStays] at h
    | curDir =>
      exact ih h hdown.2
    | parentDir => simp at hdown
    | normal name =>
      obtain ⟨names, hnames⟩ := ih h hdown.2
      exact ⟨rule.fold name :: names, by simpa [Component.move] using hnames⟩

theorem moves_of_upFirst (rule : CaseRule) {target : Text}
    (h : targetStays linkPath target depth cs = .ok ()) (hup : upFirst cs = true) :
    ∃ (k : Nat) (names : List Text),
      cs.filterMap (Component.move rule) = List.replicate k .up ++ names.map .into ∧ k ≤ depth := by
  induction cs generalizing depth with
  | nil => exact ⟨0, [], rfl, Nat.zero_le _⟩
  | cons c cs ih =>
    cases c with
    | rootDir => simp [targetStays] at h
    | curDir =>
      exact ih h hup
    | parentDir =>
      cases depth with
      | zero => simp [targetStays] at h
      | succ depth =>
        obtain ⟨k, names, hmoves, hk⟩ := ih h hup
        refine ⟨k + 1, names, ?_, Nat.succ_le_succ hk⟩
        simpa [Component.move, List.replicate_succ] using hmoves
    | normal name =>
      have hdown : (Component.normal name :: cs).all (· ≠ .parentDir) = true := by
        simpa [upFirst] using hup
      obtain ⟨names, hnames⟩ := moves_of_names rule h hdown
      exact ⟨0, names, by simpa using hnames, Nat.zero_le _⟩

/-- The symlink entry goes up first. -/
def Entry.UpFirst (e : Entry) : Prop :=
  ∀ target, readToEnd 4097 e.reads = some target → upFirst (components target) = true

section
variable {env : Environment} {limits : Limits} {entries : List Entry} {w : World}

section
variable (hrun : extractSourceArchiveInner env limits entries {} = .ok () w)
  (hup : ∀ e ∈ entries, e.isSymlink = true → e.UpFirst)
include hrun hup

theorem links_rise {dir : List Text} {name text : Text}
    (hlink : w.tree (dir ++ [name]) = some (.link text)) :
    Walk.Rises ⟨dir, moves env.caseRule text⟩ := by
  obtain ⟨hadmissible, hholds⟩ := holds_of_extract hrun
  obtain ⟨e, he, hfile, hsymlink, htarget, hkey⟩ := hholds.link hlink
  obtain ⟨target, htarget', -, hvalid⟩ := (hadmissible e he).target hfile hsymlink
  rw [htarget, Option.some_inj] at htarget'
  subst htarget'
  simp only [validateSymlinkTarget, bind_eq_ok, failIf_eq_ok, exists_const] at hvalid
  obtain ⟨k, names, hmoves, hk⟩ :=
    moves_of_upFirst env.caseRule hvalid.2 (hup e he hsymlink text htarget)
  refine ⟨k, names, hmoves, hk.trans_eq ?_⟩
  -- the depth of the link is that of its path
  have hlength : e.path.length = dir.length + 1 := by
    have := congrArg List.length hkey
    simpa [Entry.key] using this
  show e.path.length - 1 = dir.length
  omega

theorem not_linkEscapes_of_upFirst : ∀ e ∈ entries, ¬ e.LinkEscapes env.caseRule w.tree := by
  rintro e he ⟨hfile, hsymlink, target, htarget, hescapes⟩
  obtain ⟨name, hnode, -⟩ := (holds_of_extract hrun).2.symlink he hfile hsymlink htarget
  exact (links_rise hrun hup hnode).not_escapes (fun _ _ _ hlink => links_rise hrun hup hlink)
    hescapes

end

/-! ### Which archives stay inside -/

end

/-- Nothing goes wrong, and there is room. -/
def quiet : Environment where
  caseRule := .sensitive
  maxLinks := 40
  capacity := 4096
  capacity_lt := by decide
  fault _ := none

def exampleLimits : Limits where
  maxUncompressedBytes := 1024
  maxFiles := 16
  maxDepth := 8

/-- A symlink with mode 0777. -/
def symlinkEntry (name target : Text) : Entry where
  name := name
  isDir := false
  isSymlink := true
  unixMode := some 0o120777
  size := target.length.toUInt64
  reads := [some target]

def succeeds {ε σ α : Type} : EStateM.Result ε σ α → Bool
  | .ok _ _ => true
  | .error _ _ => false

theorem eq_ok_of_succeeds {ε σ : Type} {r : EStateM.Result ε σ Unit} (h : succeeds r = true) :
    r = .ok () (final r) := by
  cases r with
  | ok u s => rfl
  | error e s => cases h

/-- `d/u -> ..` and `d/v -> ../d/u`. -/
def insideLinks : List Entry :=
  [symlinkEntry [0x64, slash, 0x75] [dot, dot],
    symlinkEntry [0x64, slash, 0x76] [dot, dot, slash, 0x64, slash, 0x75]]

/-- `d/u -> ..` and `d/e -> u/..`. -/
def escapingLinks : List Entry :=
  [symlinkEntry [0x64, slash, 0x75] [dot, dot],
    symlinkEntry [0x64, slash, 0x65] [0x75, slash, dot, dot]]

end IndenturedServer.Source
