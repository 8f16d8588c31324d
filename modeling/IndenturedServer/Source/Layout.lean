import IndenturedServer.Source.Accepted

/-!
The tree that the entries of an archive make.

`Holds` relates a tree to the entries that have been extracted into it: what is
not a directory is an entry of its own, every directory is an entry or on the
way to one, and every entry is there with its content. While an entry is being
extracted its directories come first, so files and directories have a list of
entries each. The lemmas say that compatible entries find their way clear and
their place empty, and what the calls of the extraction do to the relation.
-/

namespace IndenturedServer.Source

open Foundation

/-- The bytes that the reads of a file yield. -/
def content : List (Option Text) → Text
  | some bytes :: rest => if bytes = [] then [] else bytes ++ content rest
  | _ => []

def Entry.permissions (e : Entry) : Option Nat :=
  e.unixMode.map fun mode => (mode &&& 0o777).toNat

inductive Stored (rule : CaseRule) (t : Tree Text Text) (e : Entry) : Prop
  | directory (mode : Option Nat) (hdir : e.isDir = true)
      (h : t (e.key rule) = some (.dir mode))
  | symlink (target : Text) (hfile : e.isDir = false) (hlink : e.isSymlink = true)
      (htarget : readToEnd 4097 e.reads = some target)
      (h : t (e.key rule) = some (.link target))
  | file (hfile : e.isDir = false) (hlink : e.isSymlink = false)
      (h : t (e.key rule) = some (.file (content e.reads) e.permissions))

variable {rule : CaseRule} {t : Tree Text Text} {e : Entry} {es files dirs : List Entry}

theorem Stored.ne_none (h : Stored rule t e) : t (e.key rule) ≠ none := by
  cases h with
  | directory mode hdir h => simp [h]
  | symlink target hfile hlink htarget h => simp [h]
  | file hfile hlink h => simp [h]

theorem Stored.congr {t' : Tree Text Text} (h : Stored rule t e)
    (heq : t' (e.key rule) = t (e.key rule)) : Stored rule t' e := by
  cases h with
  | directory mode hdir h => exact .directory mode hdir (heq.trans h)
  | symlink target hfile hlink htarget h => exact .symlink target hfile hlink htarget (heq.trans h)
  | file hfile hlink h => exact .file hfile hlink (heq.trans h)

/-- The path is that of a directory the entry needs, or is. -/
def Entry.Through (rule : CaseRule) (e : Entry) (p : List Text) : Prop :=
  p <+: e.key rule ∧ (p = e.key rule → e.isDir = true)

structure Holds (rule : CaseRule) (files dirs : List Entry) (t : Tree Text Text) : Prop where
  file : ∀ p node, t p = some node → node.kind ≠ .dir →
    ∃ e ∈ files, e.isDir = false ∧ e.key rule = p
  directory : ∀ p mode, t p = some (.dir mode) → ∃ e ∈ dirs, e.Through rule p
  stored : ∀ e ∈ files, Stored rule t e
  closed : ∀ d name node, t (d ++ [name]) = some node → t.IsDirectory d

theorem holds_empty : Holds rule [] [] Tree.empty :=
  ⟨by simp [Tree.empty], by simp [Tree.empty], by simp, by simp [Tree.empty]⟩

/-- What the file system takes for a part of a path is one up to case. -/
theorem folded_prefix_of_key {a b : Entry} (h : a.key rule <+: b.key rule) :
    a.folded <+: b.folded := by
  rw [← a.folded_key rule, ← b.folded_key rule]
  exact h.map toAsciiLowercase

namespace Holds

variable {p : List Text}

theorem clear (h : Holds rule files dirs t) (hcompatible : ∀ b ∈ files, Compatible b e)
    (hp : p <+: e.key rule) : Clear t p := by
  intro q hq _ node hnode
  by_contra hkind
  obtain ⟨b, hb, hfile, rfl⟩ := h.file q node hnode hkind
  exact (hcompatible b hb).left hfile (folded_prefix_of_key (hq.trans hp))

theorem vacant (h : Holds rule files (files ++ [e]) t)
    (hcompatible : ∀ b ∈ files, Compatible b e) (hfile : e.isDir = false) :
    t (e.key rule) = none := by
  cases hnode : t (e.key rule) with
  | none => rfl
  | some node =>
    exfalso
    have hkind : node.kind = .dir :=
      h.clear hcompatible (List.prefix_refl _) _ (List.prefix_refl _) (e.key_ne_nil rule) node hnode
    cases node with
    | dir mode =>
      obtain ⟨b, hb, hprefix, hself⟩ := h.directory _ mode hnode
      obtain hb | rfl := List.mem_append.mp hb |>.imp_right List.mem_singleton.mp
      · exact (hcompatible b hb).right hfile (folded_prefix_of_key hprefix)
      · simp [hself rfl] at hfile
    | file content mode => cases hkind
    | link text => cases hkind

theorem start (h : Holds rule es es t) (e : Entry) : Holds rule es (es ++ [e]) t := by
  refine ⟨h.file, fun p mode hnode => ?_, h.stored, h.closed⟩
  obtain ⟨b, hb, hthrough⟩ := h.directory p mode hnode
  exact ⟨b, List.mem_append_left _ hb, hthrough⟩

theorem setDir (h : Holds rule files dirs t) (he : e ∈ dirs) (hthrough : e.Through rule p)
    (hold : ∀ node, t p = some node → node.kind = .dir)
    (hparent : ∀ d name, p = d ++ [name] → t.IsDirectory d) (mode : Option Nat) :
    Holds rule files dirs (t.set p (.dir mode)) := by
  refine ⟨fun q node hnode hkind => ?_, fun q mode' hnode => ?_, fun b hb => ?_,
    fun d name node hnode => ?_⟩
  · by_cases hq : q = p
    · subst hq
      rw [Tree.set_self] at hnode
      cases hnode
      exact absurd rfl hkind
    · rw [t.set_of_ne hq] at hnode
      exact h.file q node hnode hkind
  · by_cases hq : q = p
    · exact ⟨e, he, hq ▸ hthrough⟩
    · rw [t.set_of_ne hq] at hnode
      exact h.directory q mode' hnode
  · by_cases hq : b.key rule = p
    · subst hq
      cases h.stored b hb with
      | directory _ hdir _ => exact .directory mode hdir (t.set_self _ _)
      | symlink target _ _ _ hnode => cases hold _ hnode
      | file _ _ hnode => cases hold _ hnode
    · exact (h.stored b hb).congr (t.set_of_ne hq _)
  · by_cases hd : d = p
    · rw [hd]
      exact t.isDirectory_set_self p mode
    · refine Tree.isDirectory_set_of_ne ?_ hd _
      by_cases hq : d ++ [name] = p
      · exact hparent d name hq.symm
      · rw [t.set_of_ne hq] at hnode
        exact h.closed d name node hnode

theorem done (h : Holds rule es (es ++ [e]) t) (hstored : Stored rule t e) :
    Holds rule (es ++ [e]) (es ++ [e]) t := by
  refine ⟨fun p node hnode hkind => ?_, h.directory, fun b hb => ?_, h.closed⟩
  · obtain ⟨b, hb, hb'⟩ := h.file p node hnode hkind
    exact ⟨b, List.mem_append_left _ hb, hb'⟩
  · obtain hb | rfl := List.mem_append.mp hb |>.imp_right List.mem_singleton.mp
    · exact h.stored b hb
    · exact hstored

theorem leaf (h : Holds rule es (es ++ [e]) t) (hfile : e.isDir = false)
    (hnone : t (e.key rule) = none) (hparent : t.IsDirectory (e.key rule).dropLast)
    {node : Node Text} (hkind : node.kind ≠ .dir)
    (hstored : Stored rule (t.set (e.key rule) node) e) :
    Holds rule (es ++ [e]) (es ++ [e]) (t.set (e.key rule) node) := by
  refine ⟨fun p other hnode hother => ?_, fun p mode hnode => ?_, fun b hb => ?_,
    fun d name other hnode => ?_⟩
  · by_cases hp : p = e.key rule
    · exact ⟨e, by simp, hfile, hp.symm⟩
    · rw [t.set_of_ne hp] at hnode
      obtain ⟨b, hb, hb'⟩ := h.file p other hnode hother
      exact ⟨b, List.mem_append_left _ hb, hb'⟩
  · by_cases hp : p = e.key rule
    · subst hp
      rw [Tree.set_self] at hnode
      cases hnode
      exact absurd rfl hkind
    · rw [t.set_of_ne hp] at hnode
      exact h.directory p mode hnode
  · obtain hb | rfl := List.mem_append.mp hb |>.imp_right List.mem_singleton.mp
    · have hne : b.key rule ≠ e.key rule := fun heq => (h.stored b hb).ne_none (heq ▸ hnone)
      exact (h.stored b hb).congr (t.set_of_ne hne _)
    · exact hstored
  · by_cases hq : d ++ [name] = e.key rule
    · rw [← hq, List.dropLast_concat] at hparent
      refine Tree.isDirectory_set_of_ne hparent (fun hd => ?_) _
      simp [← hq] at hd
    · rw [t.set_of_ne hq] at hnode
      have hdir := h.closed d name other hnode
      refine Tree.isDirectory_set_of_ne hdir (fun hd => ?_) _
      -- nothing is below a place that is empty
      obtain ⟨mode, hmode⟩ := hdir
      rw [hd, t.get_of_ne_nil (e.key_ne_nil rule), hnone] at hmode
      cases hmode

end Holds

end IndenturedServer.Source
