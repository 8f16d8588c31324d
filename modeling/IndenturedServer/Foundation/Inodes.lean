import Mathlib

/-!
Directories, files and what a path leads to.

A file system is a table of inodes, and a directory holds the numbers of what
is in it. A number keeps denoting its directory when that directory is moved
or replaced, which a table of paths could not express. `Fs.find` follows the
names of a path from a directory, through directories only, and `Fs.look` says
what stands at the end.

In a `Sound` file system nothing reachable is missing and a directory is
reached on one path only. A change of one entry is then a change at one path.
-/

namespace IndenturedServer.Foundation

open Function

abbrev Ino := Nat

/-- What `stat` tells about a file, apart from what it is. -/
structure Attributes where
  uid : Nat
  gid : Nat
  mode : Nat
  deriving DecidableEq, Repr

structure FileData where
  content : List UInt8
  attributes : Attributes
  deriving DecidableEq, Repr

inductive Inode (K : Type)
  | dir (entries : K → Option Ino)
  | file (data : FileData)
  | link
  | special

/-- An inode without the entries of a directory. -/
inductive Shape
  | dir
  | file (data : FileData)
  | link
  | special
  deriving DecidableEq, Repr

def Inode.shape {K : Type} : Inode K → Shape
  | .dir _ => .dir
  | .file data => .file data
  | .link => .link
  | .special => .special

abbrev Fs (K : Type) : Type := Ino → Option (Inode K)

namespace Fs

variable {K : Type}

def entry (fs : Fs K) (dir : Ino) (name : K) : Option Ino :=
  match fs dir with
  | some (.dir entries) => entries name
  | _ => none

def find (fs : Fs K) : Ino → List K → Option Ino
  | dir, [] => some dir
  | dir, name :: rest => (fs.entry dir name).bind (fs.find · rest)

def shape (fs : Fs K) (ino : Ino) : Option Shape :=
  (fs ino).map Inode.shape

/-- What a path leads to, and its number. -/
def look (fs : Fs K) (root : Ino) (path : List K) : Option (Ino × Shape) :=
  (fs.find root path).bind fun ino => (fs.shape ino).map (ino, ·)

theorem find_concat (fs : Fs K) (path : List K) (name : K) :
    ∀ dir, fs.find dir (path ++ [name]) = (fs.find dir path).bind (fs.entry · name) := by
  induction path with
  | nil =>
    intro dir
    simp [find]
  | cons first rest ih =>
    intro dir
    simp only [List.cons_append, find]
    cases fs.entry dir first with
    | none => rfl
    | some child => exact ih child

theorem find_append (fs : Fs K) (path more : List K) :
    ∀ dir, fs.find dir (path ++ more) = (fs.find dir path).bind (fs.find · more) := by
  induction path with
  | nil =>
    intro dir
    simp [find]
  | cons first rest ih =>
    intro dir
    simp only [List.cons_append, find]
    cases fs.entry dir first with
    | none => rfl
    | some child => exact ih child

theorem shape_of_entry {fs : Fs K} {dir child : Ino} {name : K} (h : fs.entry dir name = some child) :
    fs.shape dir = some .dir := by
  unfold entry at h
  unfold shape
  split at h
  · next entries hdir => rw [hdir]; rfl
  · cases h

theorem entries_of_shape {fs : Fs K} {dir : Ino} (h : fs.shape dir = some .dir) :
    ∃ entries, fs dir = some (.dir entries) := by
  unfold shape at h
  cases hnode : fs dir with
  | none => rw [hnode] at h; cases h
  | some node =>
    rw [hnode] at h
    cases node with
    | dir entries => exact ⟨entries, rfl⟩
    | file data => cases h
    | link => cases h
    | special => cases h

theorem look_eq_some {fs : Fs K} {root : Ino} {path : List K} {ino : Ino} {shape : Shape} :
    fs.look root path = some (ino, shape) ↔
      fs.find root path = some ino ∧ fs.shape ino = some shape := by
  unfold look
  cases fs.find root path with
  | none => simp
  | some found =>
    simp only [Option.bind_some, Option.map_eq_some_iff, Prod.mk.injEq, Option.some.injEq]
    constructor
    · rintro ⟨_, hshape, rfl, rfl⟩
      exact ⟨rfl, hshape⟩
    · rintro ⟨rfl, hshape⟩
      exact ⟨shape, hshape, rfl, rfl⟩

theorem look_concat {fs : Fs K} {root dir : Ino} {path : List K} (name : K)
    (hdir : fs.look root path = some (dir, .dir)) :
    fs.look root (path ++ [name]) =
      (fs.entry dir name).bind fun ino => (fs.shape ino).map (ino, ·) := by
  obtain ⟨hfind, -⟩ := look_eq_some.mp hdir
  rw [look, find_concat, hfind]
  rfl

/-! ### Sound file systems -/

structure Sound (fs : Fs K) (root : Ino) : Prop where
  base : fs.shape root = some .dir
  present : ∀ {path ino}, fs.find root path = some ino → (fs ino).isSome
  tree : ∀ {path path' dir}, fs.find root path = some dir → fs.find root path' = some dir →
    fs.shape dir = some .dir → path = path'

namespace Sound

variable {fs : Fs K} {root : Ino}

theorem look_root (h : fs.Sound root) : fs.look root [] = some (root, .dir) :=
  look_eq_some.mpr ⟨rfl, h.base⟩

theorem exists_shape (h : fs.Sound root) {path : List K} {ino : Ino}
    (hfind : fs.find root path = some ino) : ∃ shape, fs.look root path = some (ino, shape) := by
  obtain ⟨node, hnode⟩ := Option.isSome_iff_exists.mp (h.present hfind)
  exact ⟨node.shape, look_eq_some.mpr ⟨hfind, by simp [Fs.shape, hnode]⟩⟩

/-- An entry of a directory is what the longer path leads to. -/
theorem entry_cases (h : fs.Sound root) {path : List K} {dir : Ino} (name : K)
    (hdir : fs.look root path = some (dir, .dir)) :
    (fs.entry dir name = none ∧ fs.look root (path ++ [name]) = none) ∨
      ∃ ino shape, fs.entry dir name = some ino ∧ fs.shape ino = some shape ∧
        fs.look root (path ++ [name]) = some (ino, shape) := by
  obtain ⟨hfind, -⟩ := look_eq_some.mp hdir
  have hconcat : fs.find root (path ++ [name]) = fs.entry dir name := by
    rw [find_concat, hfind]
    rfl
  cases hentry : fs.entry dir name with
  | none =>
    left
    refine ⟨rfl, ?_⟩
    rw [look, hconcat, hentry]
    rfl
  | some ino =>
    right
    obtain ⟨shape, hlook⟩ := h.exists_shape (hconcat.trans hentry)
    exact ⟨ino, shape, rfl, (look_eq_some.mp hlook).2, hlook⟩

end Sound

/-! ### What others may do without being noticed -/

/-- The two have the same inodes wherever a path of the first leads. -/
def Agrees (fs fs' : Fs K) (root : Ino) : Prop :=
  ∀ path ino, fs.find root path = some ino → fs' ino = fs ino

namespace Agrees

variable {fs fs' : Fs K} {root : Ino}

section
variable (h : Agrees fs fs' root)
include h

theorem find_eq (path : List K) : fs'.find root path = fs.find root path := by
  induction path using List.reverseRecOn with
  | nil => rfl
  | append_singleton path name ih =>
    rw [find_concat, find_concat, ih]
    cases hfind : fs.find root path with
    | none => rfl
    | some dir =>
      show fs'.entry dir name = fs.entry dir name
      simp only [entry, h path dir hfind]

theorem shape_eq {path : List K} {ino : Ino} (hfind : fs.find root path = some ino) :
    fs'.shape ino = fs.shape ino := by
  simp only [Fs.shape, h path ino hfind]

theorem look_eq : fs'.look root = fs.look root := by
  funext path
  unfold look
  rw [h.find_eq]
  cases hfind : fs.find root path with
  | none => rfl
  | some ino => simp only [Option.bind_some, h.shape_eq hfind]

theorem sound (hsound : fs.Sound root) : fs'.Sound root where
  base := (h.shape_eq (show fs.find root [] = some root from rfl)).trans hsound.base
  present {path ino} hfind := by
    rw [h.find_eq] at hfind
    rw [h path ino hfind]
    exact hsound.present hfind
  tree {path path' dir} hfind hfind' hdir := by
    rw [h.find_eq] at hfind hfind'
    rw [h.shape_eq hfind] at hdir
    exact hsound.tree hfind hfind' hdir

end

end Agrees

/-! ### Changing a file -/

def put (fs : Fs K) (ino : Ino) (node : Inode K) : Fs K :=
  Function.update fs ino (some node)

section
variable {fs : Fs K} {root ino : Ino} {data : FileData}

@[simp] theorem shape_put_self (node : Inode K) : (fs.put ino node).shape ino = some node.shape := by
  simp [shape, put]

theorem shape_put_of_ne {other : Ino} (h : other ≠ ino) (node : Inode K) :
    (fs.put ino node).shape other = fs.shape other := by
  simp [shape, put, update_of_ne h]

theorem entry_put (hnot : fs.shape ino ≠ some .dir) (dir : Ino) (name : K) :
    (fs.put ino (.file data)).entry dir name = fs.entry dir name := by
  by_cases hdir : dir = ino
  · subst hdir
    have hnone : fs.entry dir name = none := by
      cases hentry : fs.entry dir name with
      | none => rfl
      | some child => exact absurd (shape_of_entry hentry) hnot
    rw [hnone]
    simp [entry, put]
  · simp [entry, put, update_of_ne hdir]

theorem find_put (hnot : fs.shape ino ≠ some .dir) (path : List K) :
    ∀ dir, (fs.put ino (.file data)).find dir path = fs.find dir path := by
  induction path with
  | nil =>
    intro dir
    rfl
  | cons name rest ih =>
    intro dir
    simp only [find, entry_put hnot]
    congr 1
    funext child
    exact ih child

theorem sound_put (h : fs.Sound root) (hnot : fs.shape ino ≠ some .dir) :
    (fs.put ino (.file data)).Sound root where
  base := by
    have hne : root ≠ ino := by
      rintro rfl
      exact hnot h.base
    rw [shape_put_of_ne hne]
    exact h.base
  present {path found} hfind := by
    rw [find_put hnot] at hfind
    by_cases heq : found = ino
    · subst heq
      simp [put]
    · simpa [put, update_of_ne heq] using h.present hfind
  tree {path path' dir} hfind hfind' hdir := by
    rw [find_put hnot] at hfind hfind'
    by_cases heq : dir = ino
    · subst heq
      rw [shape_put_self] at hdir
      cases hdir
    · rw [shape_put_of_ne heq] at hdir
      exact h.tree hfind hfind' hdir

theorem look_put_of_unreached (hnot : fs.shape ino ≠ some .dir)
    (hfree : ∀ path, fs.find root path ≠ some ino) :
    (fs.put ino (.file data)).look root = fs.look root := by
  funext path
  unfold look
  rw [find_put hnot]
  cases hfind : fs.find root path with
  | none => rfl
  | some found =>
    have hne : found ≠ ino := by
      rintro rfl
      exact hfree path hfind
    simp only [Option.bind_some, shape_put_of_ne hne]

variable [DecidableEq K]

/-- A file with one path changes at this path. -/
theorem look_put (hnot : fs.shape ino ≠ some .dir) {path : List K}
    (hpath : fs.find root path = some ino)
    (hunique : ∀ path', fs.find root path' = some ino → path' = path) :
    (fs.put ino (.file data)).look root = update (fs.look root) path (some (ino, .file data)) := by
  funext path'
  by_cases heq : path' = path
  · subst heq
    rw [update_self]
    exact look_eq_some.mpr ⟨(find_put hnot path' root).trans hpath, shape_put_self _⟩
  · rw [update_of_ne heq]
    unfold look
    rw [find_put hnot]
    cases hfind : fs.find root path' with
    | none => rfl
    | some found =>
      have hne : found ≠ ino := by
        rintro rfl
        exact heq (hunique path' hfind)
      simp only [Option.bind_some, shape_put_of_ne hne]

end

/-! ### Changing an entry -/

theorem find_below {fs : Fs K} {root : Ino} {path below : List K} (hbelow : below ≠ [])
    (hnot : ∀ ino, fs.find root path = some ino → fs.shape ino ≠ some .dir) :
    fs.find root (path ++ below) = none := by
  rw [find_append]
  cases hfind : fs.find root path with
  | none => rfl
  | some ino =>
    cases below with
    | nil => exact absurd rfl hbelow
    | cons next rest =>
      have hentry : fs.entry ino next = none := by
        cases hentry : fs.entry ino next with
        | none => rfl
        | some child => exact absurd (shape_of_entry hentry) (hnot ino hfind)
      simp [find, hentry]

theorem not_begins_concat (path : List K) (name : K) : ¬ path ++ [name] <+: path := by
  intro h
  have hlen := h.length_le
  rw [List.length_append, List.length_singleton] at hlen
  omega

/-- Neither what an entry was nor what it becomes is a directory. -/
structure Leaf (fs : Fs K) (root dir : Ino) (path : List K) (name : K) (target : Option Ino) :
    Prop where
  sound : fs.Sound root
  dir : fs.look root path = some (dir, .dir)
  before : ∀ ino, fs.look root (path ++ [name]) ≠ some (ino, .dir)
  after : ∀ ino ∈ target, ∃ shape, fs.shape ino = some shape ∧ shape ≠ .dir

section
variable {fs : Fs K} {root dir : Ino} {name : K} {target : Option Ino} {path : List K}

theorem Leaf.find_dir (h : Leaf fs root dir path name target) : fs.find root path = some dir :=
  (look_eq_some.mp h.dir).1

theorem Leaf.shape_dir (h : Leaf fs root dir path name target) : fs.shape dir = some .dir :=
  (look_eq_some.mp h.dir).2

end

section
variable [DecidableEq K]

def setEntry (fs : Fs K) (dir : Ino) (name : K) (target : Option Ino) : Fs K :=
  match fs dir with
  | some (.dir entries) =>
    Function.update fs dir (some (.dir (Function.update entries name target)))
  | _ => fs

variable {fs : Fs K} {root dir : Ino} {name : K} {target : Option Ino} {path : List K}

theorem entry_setEntry_self (hdir : fs.shape dir = some .dir) :
    (fs.setEntry dir name target).entry dir name = target := by
  obtain ⟨entries, hnode⟩ := entries_of_shape hdir
  simp [setEntry, entry, hnode]

theorem entry_setEntry_of_ne {dir' : Ino} {name' : K} (h : dir' ≠ dir ∨ name' ≠ name) :
    (fs.setEntry dir name target).entry dir' name' = fs.entry dir' name' := by
  unfold setEntry
  split
  · next entries hnode =>
      by_cases hdir : dir' = dir
      · subst hdir
        have hname : name' ≠ name := h.resolve_left fun hne => hne rfl
        simp [entry, hnode, update_of_ne hname]
      · simp [entry, update_of_ne hdir]
  · rfl

@[simp] theorem shape_setEntry (ino : Ino) : (fs.setEntry dir name target).shape ino = fs.shape ino := by
  unfold setEntry
  split
  · next entries hnode =>
      by_cases hino : ino = dir
      · subst hino
        simp [shape, hnode, Inode.shape]
      · simp [shape, update_of_ne hino]
  · rfl

section
variable (h : fs.Sound root) (hfind : fs.find root path = some dir)
  (hdir : fs.shape dir = some .dir)
include h hfind hdir

/-- A path that does not pass the entry leads where it led. The induction is on
the rest of the path, behind a part that has been walked already: a directory
is met on one path only, so that the changed entry is not taken elsewhere. -/
theorem find_setEntry_from (rest : List K) :
    ∀ walked at', fs.find root walked = some at' → ¬ path ++ [name] <+: walked ++ rest →
      (fs.setEntry dir name target).find at' rest = fs.find at' rest := by
  induction rest with
  | nil =>
    intro walked at' _ _
    rfl
  | cons next rest ih =>
    intro walked at' hwalked hpass
    have hsame : (fs.setEntry dir name target).entry at' next = fs.entry at' next := by
      apply entry_setEntry_of_ne
      by_contra hboth
      rw [not_or, not_not, not_not] at hboth
      obtain ⟨rfl, rfl⟩ := hboth
      obtain rfl := h.tree hfind hwalked hdir
      apply hpass
      refine ⟨rest, ?_⟩
      rw [List.append_assoc, List.singleton_append]
    simp only [find, hsame]
    cases hentry : fs.entry at' next with
    | none => rfl
    | some child =>
      refine ih (walked ++ [next]) child ?_ ?_
      · rw [find_concat, hwalked]
        exact hentry
      · rwa [List.append_assoc, List.singleton_append]

variable {path' : List K}

theorem find_setEntry (hpass : ¬ path ++ [name] <+: path') :
    (fs.setEntry dir name target).find root path' = fs.find root path' :=
  find_setEntry_from h hfind hdir path' [] root rfl hpass

theorem find_setEntry_self : (fs.setEntry dir name target).find root (path ++ [name]) = target := by
  rw [find_concat, find_setEntry h hfind hdir (not_begins_concat path name), hfind]
  exact entry_setEntry_self hdir

end

namespace Leaf

section
variable (h : Leaf fs root dir path name target)
include h

/-- Below the entry there is nothing, before and after. -/
theorem find_below_eq {below : List K} (hne : below ≠ []) :
    fs.find root (path ++ [name] ++ below) = none ∧
      (fs.setEntry dir name target).find root (path ++ [name] ++ below) = none := by
  constructor
  · apply find_below hne
    intro ino hfind hdir
    exact h.before ino (look_eq_some.mpr ⟨hfind, hdir⟩)
  · apply find_below hne
    intro ino hfind hdir
    rw [find_setEntry_self h.sound h.find_dir h.shape_dir] at hfind
    rw [shape_setEntry] at hdir
    obtain ⟨shape, hshape, hnot⟩ := h.after ino (by rw [hfind]; rfl)
    rw [hshape] at hdir
    exact hnot (Option.some.inj hdir)

theorem find_eq (hne : path' ≠ path ++ [name]) :
    (fs.setEntry dir name target).find root path' = fs.find root path' := by
  by_cases hpass : path ++ [name] <+: path'
  · obtain ⟨below, rfl⟩ := hpass
    have hbelow : below ≠ [] := by
      rintro rfl
      exact hne (List.append_nil _)
    rw [(h.find_below_eq hbelow).1, (h.find_below_eq hbelow).2]
  · exact find_setEntry h.sound h.find_dir h.shape_dir hpass

theorem look_eq : (fs.setEntry dir name target).look root = update (fs.look root) (path ++ [name])
        (target.bind fun ino => (fs.shape ino).map (ino, ·)) := by
  funext path'
  by_cases heq : path' = path ++ [name]
  · subst heq
    rw [update_self, look, find_setEntry_self h.sound h.find_dir h.shape_dir]
    simp only [shape_setEntry]
  · rw [update_of_ne heq, look, look, h.find_eq heq]
    simp only [shape_setEntry]

theorem sound_setEntry : (fs.setEntry dir name target).Sound root where
  base := by
    rw [shape_setEntry]
    exact h.sound.base
  present {path' ino} hfind := by
    have hshape : ∃ shape, fs.shape ino = some shape := by
      by_cases heq : path' = path ++ [name]
      · subst heq
        rw [find_setEntry_self h.sound h.find_dir h.shape_dir] at hfind
        obtain ⟨shape, hshape, -⟩ := h.after ino (by rw [hfind]; rfl)
        exact ⟨shape, hshape⟩
      · rw [h.find_eq heq] at hfind
        obtain ⟨shape, hlook⟩ := h.sound.exists_shape hfind
        exact ⟨shape, (look_eq_some.mp hlook).2⟩
    obtain ⟨shape, hshape⟩ := hshape
    have hkept : (fs.setEntry dir name target).shape ino = some shape :=
      (shape_setEntry ino).trans hshape
    obtain ⟨node, hnode, -⟩ := Option.map_eq_some_iff.mp hkept
    exact Option.isSome_iff_exists.mpr ⟨node, hnode⟩
  tree {path₁ path₂ found} hfind₁ hfind₂ hdir := by
    rw [shape_setEntry] at hdir
    -- a directory is not what the entry leads to
    have hother : ∀ {path'}, (fs.setEntry dir name target).find root path' = some found →
        fs.find root path' = some found := by
      intro path' hfind
      by_cases heq : path' = path ++ [name]
      · subst heq
        rw [find_setEntry_self h.sound h.find_dir h.shape_dir] at hfind
        obtain ⟨shape, hshape, hnot⟩ := h.after found (by rw [hfind]; rfl)
        rw [hshape] at hdir
        exact absurd (Option.some.inj hdir) hnot
      · rwa [h.find_eq heq] at hfind
    exact h.sound.tree (hother hfind₁) (hother hfind₂) hdir

end

end Leaf

end

end Fs

end IndenturedServer.Foundation
