import IndenturedServer.Artifacts.Collect
import IndenturedServer.Source.Specification

/-!
The names of the entries of an archive of artifacts.

An entry is named after the path of its file as a string: bytes that are not
UTF-8 are replaced, and a backslash becomes a slash. On ASCII without a
backslash nothing changes, so that the path can be read off the name.
-/

namespace IndenturedServer.Artifacts

open Foundation Source List

/-- A name that an entry of a directory can have. -/
structure OsName (name : Text) : Prop where
  ne_nil : name ≠ []
  ne_dot : name ≠ [dot]
  ne_dots : name ≠ [dot, dot]
  noSlash : slash ∉ name
  noNul : nul ∉ name

instance (name : Text) : Decidable (OsName name) :=
  decidable_of_iff (name ≠ [] ∧ name ≠ [dot] ∧ name ≠ [dot, dot] ∧ slash ∉ name ∧ nul ∉ name)
    ⟨fun h => ⟨h.1, h.2.1, h.2.2.1, h.2.2.2.1, h.2.2.2.2⟩,
      fun h => ⟨h.ne_nil, h.ne_dot, h.ne_dots, h.noSlash, h.noNul⟩⟩

section
variable {text : Text} {relative : List Text}

/-! ### Strings -/

variable {b : UInt8}

theorem isAscii_cons : isAscii (b :: text) = true ↔ b < 0x80 ∧ isAscii text = true := by
  simp [isAscii]

theorem mem_of_isAscii (h : isAscii text = true) (hb : b ∈ text) : b < 0x80 := by
  simpa using all_eq_true.mp h b hb

theorem fromUtf8Lossy_of_isAscii (h : isAscii text = true) : fromUtf8Lossy text = text := by
  induction text with
  | nil => rfl
  | cons b rest ih =>
    obtain ⟨hb, hrest⟩ := isAscii_cons.mp h
    rw [fromUtf8Lossy.eq_def]
    simp only [hb, if_true, ih hrest]

/-- A byte above ASCII is kept or replaced by three that are above ASCII too. -/
theorem isAscii_of_fromUtf8Lossy (h : isAscii (fromUtf8Lossy text) = true) :
    isAscii text = true := by
  fun_induction fromUtf8Lossy text with
  | case1 => rfl
  | case2 a rest ha ih => exact isAscii_cons.mpr ⟨ha, ih (isAscii_cons.mp h).2⟩
  | _ =>
    have hhead := (isAscii_cons.mp h).1
    contradiction

/-! ### Names -/

theorem archiveName_eq (hascii : isAscii (join relative) = true)
    (hbackslash : backslash ∉ join relative) : archiveName relative = join relative := by
  rw [archiveName, toStringLossy, fromUtf8Lossy_of_isAscii hascii]
  refine (map_congr_left fun b hb => ?_).trans (map_id _)
  have hne : b ≠ backslash := fun heq => hbackslash (heq ▸ hb)
  rw [if_neg hne, id]

theorem isAscii_of_archiveName (h : isAscii (archiveName relative) = true) :
    isAscii (join relative) = true := by
  apply isAscii_of_fromUtf8Lossy
  rw [isAscii, all_eq_true]
  intro b hb
  have hmapped := mem_of_isAscii h (mem_map.mpr ⟨b, hb, rfl⟩)
  by_cases hbackslash : b = backslash
  · rw [hbackslash]
    decide
  · rw [if_neg hbackslash] at hmapped
    simpa using hmapped

theorem split_join (hne : relative ≠ []) (hnames : ∀ part ∈ relative, OsName part) :
    (join relative).splitOn slash = relative :=
  splitOn_intercalate slash (fun part hpart => (hnames part hpart).noSlash) hne

theorem mem_join (h : b ∈ join relative) : b = slash ∨ ∃ part ∈ relative, b ∈ part := by
  induction relative with
  | nil => cases h
  | cons first rest ih =>
    cases rest with
    | nil =>
      right
      refine ⟨first, mem_cons_self, ?_⟩
      simpa [join, intercalate, intersperse] using h
    | cons next rest =>
      obtain hfirst | hrest := mem_append.mp h
      · exact .inr ⟨first, mem_cons_self, hfirst⟩
      · obtain rfl | hrest := mem_cons.mp hrest
        · exact .inl rfl
        · obtain hslash | ⟨part, hpart, hb⟩ := ih hrest
          · exact .inl hslash
          · exact .inr ⟨part, mem_cons_of_mem _ hpart, hb⟩

theorem mem_join_of_part {part : Text} (hpart : part ∈ relative) (hb : b ∈ part) :
    b ∈ join relative := by
  induction relative with
  | nil => cases hpart
  | cons first rest ih =>
    cases rest with
    | nil =>
      obtain rfl := mem_singleton.mp hpart
      simpa [join, intercalate, intersperse] using hb
    | cons next rest =>
      obtain rfl | hpart := mem_cons.mp hpart
      · exact mem_append_left _ hb
      · exact mem_append_right _ (mem_cons_of_mem _ (ih hpart))

theorem backslash_mem_fold (rule : CaseRule) {name : Text} :
    backslash ∈ rule.fold name ↔ backslash ∈ name := by
  cases rule with
  | sensitive => rfl
  | asciiInsensitive =>
    have hlower : ∀ b, asciiLower b = backslash ↔ b = backslash := by
      intro b
      unfold asciiLower backslash
      grind
    simp only [CaseRule.fold, toAsciiLowercase, mem_map, hlower, exists_eq_right]

theorem nul_not_mem_join (hnames : ∀ part ∈ relative, OsName part) : nul ∉ join relative := by
  intro hmem
  obtain hslash | ⟨part, hpart, hb⟩ := mem_join hmem
  · revert hslash
    decide
  · exact (hnames part hpart).noNul hb

theorem getLast_join (hne : relative ≠ []) (hnames : ∀ part ∈ relative, OsName part)
    (hbackslash : backslash ∉ join relative) :
    ((join relative).getLast? == some slash || (join relative).getLast? == some backslash) =
      false := by
  have hslash : (join relative).getLast? ≠ some slash := by
    intro hlast
    obtain ⟨front, hfront⟩ := getLast?_eq_some_iff.mp hlast
    have hempty : ([] : Text) ∈ (join relative).splitOn slash := by
      rw [hfront, splitOn_append_cons_self]
      simp
    rw [split_join hne hnames] at hempty
    exact (hnames [] hempty).ne_nil rfl
  have hother : (join relative).getLast? ≠ some backslash :=
    fun hlast => hbackslash (mem_of_getLast? hlast)
  simp [hslash, hother]

end

/-! ### Modes -/

theorem archiveMode_type (mode : Nat) : UInt32.ofNat (archiveMode mode) &&& 0o170000 = 0o100000 ∧
      UInt32.ofNat (archiveMode mode) &&& 0o120000 = 0o100000 := by
  have hmode : UInt32.ofNat (archiveMode mode) = 0o100000 ||| (UInt32.ofNat mode &&& 0o777) := by
    simp only [archiveMode, UInt32.ofNat_or, UInt32.ofNat_and]
    rfl
  have hlow : ∀ mask : UInt32, 0o777 &&& mask = 0 →
      (0o100000 ||| (UInt32.ofNat mode &&& 0o777)) &&& mask = 0o100000 &&& mask := by
    intro mask hmask
    have hzero : (UInt32.toBitVec 0o777) &&& mask.toBitVec = 0 := by
      rw [← UInt32.toBitVec_and, hmask]
      rfl
    rw [← UInt32.toBitVec_inj]
    simp only [UInt32.toBitVec_and, UInt32.toBitVec_or, BitVec.and_or_distrib_right,
      BitVec.and_assoc, hzero]
    simp
  rw [hmode]
  constructor
  · rw [hlow _ (by decide)]
    decide
  · rw [hlow _ (by decide)]
    decide

/-! ### Paths that differ in case only -/

variable {matched : List Matched}

theorem checkFolded_ok {folded : List Text} (h : checkFolded folded matched = .ok ()) :
    (matched.map fun m => toAsciiLowercase (toStringLossy m.relative)).Nodup ∧
      ∀ m ∈ matched, toAsciiLowercase (toStringLossy m.relative) ∉ folded := by
  induction matched generalizing folded with
  | nil => simp
  | cons m rest ih =>
    simp only [checkFolded, bind_eq_ok, refuse_eq_ok, exists_const] at h
    obtain ⟨hnew, hrest⟩ := h
    obtain ⟨hnodup, hdistinct⟩ := ih hrest
    refine ⟨?_, ?_⟩
    · rw [map_cons, nodup_cons, mem_map]
      refine ⟨?_, hnodup⟩
      rintro ⟨other, hother, heq⟩
      exact hdistinct other hother (heq ▸ mem_cons_self)
    · intro other hother
      obtain rfl | hother := mem_cons.mp hother
      · exact hnew
      · exact fun hmem => hdistinct other hother (mem_cons_of_mem _ hmem)

theorem validateArtifactCountAndDepth_ok {config : ArtifactsConfig}
    (h : validateArtifactCountAndDepth config matched = .ok ()) :
    matched.length ≤ config.maxFiles ∧ (∀ m ∈ matched, m.relative.length ≤ config.maxDepth) ∧
      (matched.map fun m => toAsciiLowercase (toStringLossy m.relative)).Nodup := by
  simp only [validateArtifactCountAndDepth, bind_eq_ok, refuse_eq_ok, exists_const, not_exists,
    not_and, Nat.not_lt] at h
  obtain ⟨hcount, hdepth, hfolded⟩ := h
  exact ⟨hcount, hdepth, (checkFolded_ok hfolded).1⟩

end IndenturedServer.Artifacts
