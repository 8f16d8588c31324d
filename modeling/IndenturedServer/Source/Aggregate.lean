import IndenturedServer.Foundation.Correspondence
import IndenturedServer.Source.Packaged

/-!
The manifest of a package, and the bytes of its aggregate hash.

An entry goes into the hash with the length of its path before the path and
with fields of fixed width behind it, so that the entries can be told apart
again (`updateAggregate_append_inj`). The mode is not among the fields. It is
that of a symlink or of a regular file, which the kind tells, and the
permission to execute a file is in the manifest only.
-/

namespace IndenturedServer.Source.Client

open Foundation

structure SourceEntry where
  path : Text
  kind : EntryKind
  mode : UInt32
  size : Nat
  sha256 : Text
  deriving DecidableEq, Repr

/-- `to_le_bytes` of a number of so many bytes. -/
def toLeBytes : Nat → Nat → Text
  | 0, _ => []
  | width + 1, n => .ofNat n :: toLeBytes width (n / 256)

def hexDigit (n : Nat) : UInt8 :=
  .ofNat (if n < 10 then 0x30 + n else 0x57 + n)

def hex (digest : Vector UInt8 32) : Text :=
  digest.toList.flatMap fun byte => [hexDigit (byte.toNat / 16), hexDigit (byte.toNat % 16)]

def EntryKind.tag : EntryKind → UInt8
  | .file => 0
  | .symlink => 1

def updateAggregate (path : Text) (kind : EntryKind) (size : Nat) (digest : Vector UInt8 32) : Text :=
  toLeBytes 8 path.length ++ path ++ [kind.tag] ++ toLeBytes 8 size ++ digest.toList

section
variable (digest : Text → Vector UInt8 32)

def Written.kind (w : Written) : EntryKind :=
  if w.mode = symlinkMode then .symlink else .file

def Written.sourceEntry (w : Written) : SourceEntry :=
  ⟨w.name, w.kind, w.mode, w.content.length, hex (digest w.content)⟩

def Package.entries (pkg : Package) : List SourceEntry :=
  pkg.written.map (Written.sourceEntry digest)

def Written.hashed (w : Written) : Text :=
  updateAggregate w.name w.kind w.content.length (digest w.content)

/-- All that goes into the aggregate hash of a package. -/
def Package.aggregate (pkg : Package) : Text :=
  pkg.written.flatMap (Written.hashed digest)

end

/-! ### The entries in the bytes -/

@[simp] theorem length_toLeBytes (width n : Nat) : (toLeBytes width n).length = width := by
  induction width generalizing n with
  | zero => rfl
  | succ width ih => rw [toLeBytes, List.length_cons, ih]

theorem toLeBytes_inj {width n m : Nat} (hn : n < 256 ^ width) (hm : m < 256 ^ width)
    (h : toLeBytes width n = toLeBytes width m) : n = m := by
  induction width generalizing n m with
  | zero => omega
  | succ width ih =>
    obtain ⟨hfirst, hrest⟩ := List.cons.inj h
    have hdiv := ih (by omega) (by omega) hrest
    have hmod : n % 256 = m % 256 := by
      simpa [UInt8.toNat_ofNat'] using congrArg UInt8.toNat hfirst
    omega

theorem EntryKind.tag_inj {kind kind' : EntryKind} (h : kind.tag = kind'.tag) : kind = kind' := by
  cases kind <;> cases kind' <;> first | rfl | cases h

/-- An entry can be read off, whatever follows. -/
theorem updateAggregate_append_inj {path path' rest rest' : Text} {kind kind' : EntryKind}
    {size size' : Nat} {digest digest' : Vector UInt8 32}
    (hpath : path.length < 256 ^ 8) (hpath' : path'.length < 256 ^ 8)
    (hsize : size < 256 ^ 8) (hsize' : size' < 256 ^ 8)
    (h : updateAggregate path kind size digest ++ rest =
      updateAggregate path' kind' size' digest' ++ rest') :
    (path = path' ∧ kind = kind' ∧ size = size' ∧ digest = digest') ∧ rest = rest' := by
  simp only [updateAggregate, List.append_assoc] at h
  obtain ⟨hlengths, h⟩ := List.append_inj h (by simp)
  obtain ⟨hpaths, h⟩ := List.append_inj h (toLeBytes_inj hpath hpath' hlengths)
  obtain ⟨htag, h⟩ := List.append_inj h rfl
  obtain ⟨hsizes, h⟩ := List.append_inj h (by simp)
  obtain ⟨hdigest, hrest⟩ := List.append_inj h (by simp)
  exact ⟨⟨hpaths, EntryKind.tag_inj (List.singleton_inj.mp htag), toLeBytes_inj hsize hsize' hsizes,
    Vector.toList_inj.mp hdigest⟩, hrest⟩

/-- Sizes that fit into eight bytes. -/
structure Written.Sized (w : Written) : Prop where
  name : w.name.length < 256 ^ 8
  content : w.content.length < 256 ^ 8

theorem Planner.length_le {s t : Planner} {es : List PlannedEntry}
    (h : es.foldlM Planner.entry s = .ok t) : ∀ e ∈ es, e.path.length ≤ 4096 := by
  induction es generalizing s with
  | nil => simp
  | cons e es ih =>
    rw [List.foldlM_cons, bind_eq_ok] at h
    obtain ⟨m, hm, hrest⟩ := h
    simp only [Planner.entry, bind_eq_ok] at hm
    obtain ⟨⟨⟩, hpath, -⟩ := hm
    simp only [validateArchivePath, bind_eq_ok, refuse_eq_ok, exists_const, not_or] at hpath
    exact List.forall_mem_cons.mpr ⟨Nat.le_of_not_lt hpath.1.2.1, ih hrest⟩

/-- The paths of a package are those that the planner has checked. -/
theorem package_length_le {mode : Mode} {pkg : Package} (h : package mode = .ok pkg) :
    ∀ path ∈ pkg.planned.map PlannedEntry.path, path.length ≤ 4096 := by
  cases mode with
  | jujutsu jj listing =>
    simp only [package, packageJj, validatePlannedEntries, bind_eq_ok, refuse_eq_ok, exists_const,
      pure, Except.pure, Except.ok.injEq, Prod.exists] at h
    obtain ⟨raw, -, sorted, ⟨-, t, ht, rfl⟩, planned, hpopulate, -, -, -, rfl⟩ := h
    rw [(populate_ok hpopulate).1]
    exact List.forall_mem_map.mpr (Planner.length_le ht)
  | filesystem fs =>
    simp only [package, packageFilesystem, validatePlannedEntries, bind_eq_ok, refuse_eq_ok,
      exists_const, pure, Except.pure, Except.ok.injEq, Prod.exists] at h
    obtain ⟨first, -, sorted, ⟨-, t, ht, rfl⟩, -, -, -, -, -, -, rfl⟩ := h
    exact List.forall_mem_map.mpr (Planner.length_le ht)

theorem sized_of_package {mode : Mode} {pkg : Package} (h : package mode = .ok pkg) :
    ∀ w ∈ pkg.written, w.Sized := by
  obtain ⟨-, hpacks, hsum⟩ := package_ok h
  intro w hw
  obtain ⟨e, he, hpack⟩ := forall₂_exists_left hpacks hw
  have hname : w.name = e.path := by
    cases hpack with
    | file _ hw => rw [hw]
    | symlink _ _ _ _ _ hw => rw [hw]
  have hlength := package_length_le h _ (List.mem_map_of_mem he)
  have hcontent : w.content.length ≤ (pkg.written.map fun w => w.content.length).sum :=
    List.single_le_sum (by simp) _ (List.mem_map_of_mem hw)
  rw [maxUncompressedBytes] at hsum
  exact ⟨by rw [hname]; omega, by omega⟩

/-- Two packages with the same bytes have the same entries, up to the modes. -/
theorem written_of_aggregate {digest : Text → Vector UInt8 32} {ws : List Written} :
    ∀ {ws' : List Written}, (∀ w ∈ ws, w.Sized) → (∀ w ∈ ws', w.Sized) →
    ws.flatMap (Written.hashed digest) = ws'.flatMap (Written.hashed digest) →
    List.Forall₂ (fun w w' => w.name = w'.name ∧ w.kind = w'.kind ∧
      w.content.length = w'.content.length ∧ digest w.content = digest w'.content) ws ws' := by
  have hne : ∀ (w : Written) (rest : Text), w.hashed digest ++ rest ≠ [] := by
    intro w rest h
    simp [Written.hashed, updateAggregate] at h
  induction ws with
  | nil =>
    rintro (_ | ⟨w', ws'⟩) - - h
    · exact .nil
    · exact absurd h.symm (hne w' _)
  | cons w ws ih =>
    rintro (_ | ⟨w', ws'⟩) hs hs' h
    · exact absurd h (hne w _)
    · obtain ⟨hw, hws⟩ := List.forall_mem_cons.mp hs
      obtain ⟨hw', hws'⟩ := List.forall_mem_cons.mp hs'
      obtain ⟨hsame, hrest⟩ :=
        updateAggregate_append_inj hw.name hw'.name hw.content hw'.content h
      exact .cons hsame (ih hws hws' hrest)

theorem Written.mode_of_symlink {w : Written} (h : w.kind = .symlink) : w.mode = symlinkMode := by
  by_contra hmode
  rw [Written.kind, if_neg hmode] at h
  cases h

def oneFile (executable : Bool) : Mode :=
  .jujutsu ⟨true, fun _ => none, fun _ => none, fun _ => [some [0x78]]⟩
    [⟨[0x61], .file, executable, false⟩]

def oneFilePackage (executable : Bool) : Package :=
  ⟨[⟨[0x61], .file, executable, none⟩], [⟨[0x61], regularMode executable, [0x78]⟩]⟩

end IndenturedServer.Source.Client
