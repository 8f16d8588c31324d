import IndenturedServer.Artifacts.Download

/-!
Which archives the client accepts.

The second pass of `extract_zip_atomic` keeps the sets of the server's
preflight that hold folded paths, and checks the same things about names. The
two passes therefore go on together (`Mirrors`), and what has been proved about
the preflight says which archives pass here. The limits differ; the client
counts the entries beforehand.
-/

namespace IndenturedServer.Artifacts.Download

open Foundation Source

/-- The limits of the client. The entries are not counted in this pass. -/
def clientLimits : Limits :=
  { maxUncompressedBytes := maxBytes, maxFiles := 2 ^ 64, maxDepth := maxDepth }

/-- What the reader returns for a file with a mode, if it can read it. -/
structure Regular (r : Record) : Prop where
  isDir : r.isDir = (r.name.getLast? == some slash || r.name.getLast? == some backslash)
  mode : ∃ mode, r.unixMode = some mode
  noLink : r.isSymlink = false
  readable : Readable r.reads
  size : r.size.toNat = (content r.reads).length

/-- The entry as it is unpacked: a file without a mode keeps the one with which it
was created. -/
def staged (r : Record) : Entry :=
  { name := trimmedName r
    isDir := r.isDir
    isSymlink := false
    unixMode := some (r.unixMode.getD 0o600)
    size := r.size
    reads := r.reads }

/-- To the two passes, the entry and the record are the same. -/
structure Represents (e : Entry) (r : Record) : Prop where
  trimmed : e.trimmed = trimmedName r
  chars : ∀ b, b ≠ slash → (b ∈ e.name ↔ b ∈ trimmedName r)
  isDir : e.isDir = r.isDir
  noLink : e.isSymlink = false
  mode : validateZipType e.unixMode r.isDir false = .ok () ↔
    validateArtifactZipType r.unixMode r.isDir = .ok ()
  size : e.size = r.size

variable {r : Record} {e : Entry}

/-! ### Names -/

theorem Regular.trimmed (h : Regular r) : r.entry.trimmed = trimmedName r := by
  show (if r.isDir then trimmedName r else r.name) = trimmedName r
  cases hdir : r.isDir with
  | true => rfl
  | false =>
    show r.name = trimmedName r
    have hlast : r.name.getLast? ≠ some slash := by
      intro hlast
      have hends := h.isDir
      simp [hdir, hlast] at hends
    refine (List.rdropWhile_eq_self_iff.mpr fun hne => ?_).symm
    rw [List.getLast?_eq_some_getLast hne] at hlast
    simpa using hlast

variable {b : UInt8}

theorem mem_name (hb : b ∈ r.name) : b ∈ trimmedName r ∨ b = slash := by
  have hreverse : b ∈ r.name.reverse.takeWhile (· == slash) ++
      r.name.reverse.dropWhile (· == slash) := by
    rw [List.takeWhile_append_dropWhile]
    exact List.mem_reverse.mpr hb
  obtain hcut | hleft := List.mem_append.mp hreverse
  · right
    simpa using List.mem_takeWhile_imp hcut
  · left
    exact List.mem_reverse.mpr hleft

theorem mem_trimmedName (hb : b ∈ trimmedName r) : b ∈ r.name :=
  (List.rdropWhile_prefix _ _).subset hb

theorem Regular.represents (h : Regular r) : Represents r.entry r where
  trimmed := h.trimmed
  chars b hb := ⟨fun hmem => (mem_name hmem).resolve_right hb, mem_trimmedName⟩
  isDir := rfl
  noLink := h.noLink
  mode := by
    obtain ⟨mode, hmode⟩ := h.mode
    have hentry : r.entry.unixMode = some mode := hmode
    simp only [hentry, hmode, validateArtifactZipType, validateZipType, refuse_eq_ok, failIf_eq_ok,
      Bool.false_eq_true, if_false]
  size := rfl

theorem represents_staged (r : Record) : Represents (staged r) r where
  trimmed := by
    show (if r.isDir then (trimmedName r).rdropWhile (· == slash) else trimmedName r) = trimmedName r
    split
    · exact List.rdropWhile_idempotent _ _
    · rfl
  chars _ _ := Iff.rfl
  isDir := rfl
  noLink := rfl
  mode := by
    show validateZipType (some (r.unixMode.getD 0o600)) r.isDir false = .ok () ↔ _
    cases r.unixMode with
    | none =>
      have hkind : (0o600 : UInt32) &&& 0o170000 = 0 := by decide
      simp [validateArtifactZipType, validateZipType, hkind]
    | some mode =>
      simp only [Option.getD_some, validateArtifactZipType, validateZipType, refuse_eq_ok,
        failIf_eq_ok, Bool.false_eq_true, if_false]
  size := rfl

namespace Represents

theorem isAscii_name (h : Represents e r) : isAscii e.name = isAscii (trimmedName r) := by
  have hslash : slash < 0x80 := by decide
  rw [Bool.eq_iff_iff, isAscii, isAscii, List.all_eq_true, List.all_eq_true]
  constructor
  · intro hall b hb
    by_cases hb' : b = slash
    · rw [hb']
      exact decide_eq_true hslash
    · exact hall b ((h.chars b hb').mpr hb)
  · intro hall b hb
    by_cases hb' : b = slash
    · rw [hb']
      exact decide_eq_true hslash
    · exact hall b ((h.chars b hb').mp hb)

theorem path_ok_iff (h : Represents e r) :
    validateZipEntryPath (trimmedName r) = .ok () ∧
        ¬ maxDepth < ((trimmedName r).splitOn slash).length ↔
      e.WellNamed maxDepth := by
  have htrimmed := h.trimmed
  simp only [validateZipEntryPath, bind_eq_ok, refuse_eq_ok, exists_const, not_or, not_exists,
    not_and, ← h.isAscii_name, Bool.not_eq_false]
  constructor
  · rintro ⟨⟨⟨-, hascii, hbackslash, hnul, hparts⟩, hcomponents⟩, hdepth⟩
    have hproper : ∀ part ∈ (trimmedName r).splitOn slash, part ≠ [] ∧ part ≠ [dot] :=
      fun part hpart => hparts part hpart
    refine
      { ascii := hascii
        noBackslash := mt (h.chars _ (by decide)).mp hbackslash
        noNul := mt (h.chars _ (by decide)).mp hnul
        named := ?_
        depth := ?_ }
    · intro part hpart
      rw [Entry.path, htrimmed] at hpart
      refine ⟨(hproper part hpart).1, (hproper part hpart).2, fun hdots => ?_⟩
      -- two dots would be a component
      have hparent : Component.parentDir ∈ components (trimmedName r) := by
        rw [components_eq hproper, List.mem_filterMap]
        exact ⟨part, hpart, by rw [hdots]; decide⟩
      exact (hcomponents _ hparent).2 rfl
    · rw [Entry.path, htrimmed]
      exact Nat.le_of_not_lt hdepth
  · intro hnamed
    have hne := hnamed.named.trimmed_ne_nil
    have hcomponents := hnamed.named.components
    have hparts := hnamed.named
    have hdepth := hnamed.depth
    rw [Entry.Named, Entry.path] at hparts
    rw [Entry.path] at hdepth
    rw [htrimmed] at hne hcomponents hparts hdepth
    refine ⟨⟨⟨hne, hnamed.ascii, ?_, ?_, ?_⟩, ?_⟩, Nat.not_lt.mpr hdepth⟩
    · exact mt (h.chars _ (by decide)).mpr hnamed.noBackslash
    · exact mt (h.chars _ (by decide)).mpr hnamed.noNul
    · exact fun part hpart => ⟨(hparts part hpart).1, (hparts part hpart).2.1⟩
    · intro c hc
      rw [hcomponents] at hc
      obtain ⟨part, -, rfl⟩ := List.mem_map.mp hc
      simp

end Represents

/-! ### The two passes -/

/-- The sets are the same, up to those of the preflight that are not folded and
add nothing. -/
structure Mirrors (s : Listing) (p : Preflight) : Prop where
  exact : p.exact = s.exact
  folded : p.folded = s.folded
  files : p.foldedFiles = s.files
  directories : p.foldedDirectories = s.directories
  declared : p.declaredBytes = s.declared
  within : s.declared ≤ maxBytes
  filesFolded : ∀ x ∈ p.files, toAsciiLowercase x ∈ p.foldedFiles
  directoriesFolded : ∀ x ∈ p.directories, toAsciiLowercase x ∈ p.foldedDirectories

namespace Mirrors

variable {s : Listing} {p : Preflight}

section
variable (h : Mirrors s p)
include h

theorem insertPath (name : Text) : Agree Mirrors (s.insertPath name) (p.insertPath name) := by
  have hcheck : Agree (fun _ _ : Unit => True)
      (refuse (name ∈ s.exact ∨ toAsciiLowercase name ∈ s.folded) DownloadError.collidingPaths)
      (failIf (name ∈ p.exact ∨ toAsciiLowercase name ∈ p.folded) .duplicatePath) := by
    apply Agree.of_iff
    · simp [h.exact, h.folded]
    · simp
  refine hcheck.bind fun _ _ _ => ?_
  exact
    { exact := congrArg _ h.exact
      folded := congrArg _ h.folded
      files := h.files
      directories := h.directories
      declared := h.declared
      within := h.within
      filesFolded := h.filesFolded
      directoriesFolded := h.directoriesFolded }

theorem insertDirectory (path : Text) :
    Agree Mirrors (s.insertDirectory path) (p.insertDirectory path) := by
  have hcheck : Agree (fun _ _ : Unit => True)
      (refuse (toAsciiLowercase path ∈ s.files) DownloadError.pathCollision)
      (failIf (path ∈ p.files ∨ toAsciiLowercase path ∈ p.foldedFiles) .pathCollision) := by
    have hfolded := h.filesFolded path
    rw [h.files] at hfolded
    apply Agree.of_iff
    · simp only [refuse_eq_ok, failIf_eq_ok, h.files, exists_const]
      tauto
    · simp
  refine hcheck.bind fun _ _ _ => ?_
  exact
    { exact := h.exact
      folded := h.folded
      files := h.files
      directories := congrArg _ h.directories
      declared := h.declared
      within := h.within
      filesFolded := h.filesFolded
      directoriesFolded := by simpa using fun x hx => .inr (h.directoriesFolded x hx) }

/-- The induction is on the components that are left. -/
theorem insertAncestors (ancestor : Text) (parts : List Text) :
    Agree Mirrors (s.insertAncestors ancestor parts) (p.insertAncestors ancestor parts) := by
  induction parts generalizing s p ancestor with
  | nil => exact h
  | cons part rest ih =>
    exact (h.insertDirectory _).bind fun s' p' hnext => ih hnext _

theorem insertFile (hr : Represents e r) (name : Text) :
    Agree Mirrors
      (do
        let s ← s.insertFile r name
        refuse (maxBytes < s.declared) .declaredBytes
        return s : Except DownloadError Listing)
      (p.insertFile clientLimits e name) := by
  have hbytes : Preflight.declares e name = .ok r.size.toNat := by
    simp only [Preflight.declares, hr.noLink, hr.size, Bool.false_eq_true, if_false]
    rfl
  have hfolded := h.directoriesFolded name
  rw [h.directories] at hfolded
  apply Agree.of_iff
  · simp only [Listing.insertFile, Preflight.insertFile, bind_eq_ok, refuse_eq_ok, failIf_eq_ok,
      hbytes, h.directories, h.declared, exists_const, pure, Except.pure, Except.ok.injEq,
      exists_eq_left', clientLimits]
    grind
  · intro s' p' hs' hp'
    simp only [Listing.insertFile, bind_eq_ok, refuse_eq_ok, exists_const, pure, Except.pure,
      Except.ok.injEq] at hs'
    simp only [Preflight.insertFile, bind_eq_ok, failIf_eq_ok, hbytes, exists_const, pure,
      Except.pure, Except.ok.injEq, exists_eq_left'] at hp'
    obtain ⟨_, ⟨-, rfl⟩, hmax, rfl⟩ := hs'
    obtain ⟨-, -, rfl⟩ := hp'
    exact
      { exact := h.exact
        folded := h.folded
        files := congrArg _ h.files
        directories := h.directories
        declared := by rw [h.declared]
        within := Nat.le_of_not_lt hmax
        filesFolded := by simpa using fun x hx => .inr (h.filesFolded x hx)
        directoriesFolded := h.directoriesFolded }

/-- For a directory the check on the bytes has been made before. -/
theorem bounded :
    Agree Mirrors
      (do
        refuse (maxBytes < s.declared) .declaredBytes
        return s : Except DownloadError Listing)
      (pure p : Except SourceError Preflight) := by
  have hwithin : refuse (maxBytes < s.declared) DownloadError.declaredBytes = .ok () :=
    refuse_eq_ok.mpr (Nat.not_lt.mpr h.within)
  rw [hwithin]
  exact h

end

end Mirrors

theorem entry_agree {s : Listing} {p : Preflight} (h : Mirrors s p) (hr : Represents e r) :
    Agree Mirrors (s.entry r) (Preflight.entry clientLimits p e) := by
  have hcount : ¬ clientLimits.maxFiles < saturatingAdd p.entryCount 1 := by
    have hle : saturatingAdd p.entryCount 1 ≤ 2 ^ 64 - 1 := Nat.min_le_right _ _
    show ¬ 2 ^ 64 < saturatingAdd p.entryCount 1
    omega
  have hname : Agree (fun (_ : Unit) normalized => normalized = trimmedName r)
      (do
        validateZipEntryPath (trimmedName r)
        refuse (maxDepth < ((trimmedName r).splitOn slash).length) .tooDeep)
      (normalizedZipPath e.name e.isDir maxDepth) := by
    apply Agree.of_iff
    · simp only [bind_eq_ok, refuse_eq_ok, exists_const, normalizedZipPath_ok_iff,
        exists_eq_left, ← hr.path_ok_iff]
      exact ⟨fun ⟨_, hpath, hdepth⟩ => ⟨hpath, hdepth⟩, fun hok => ⟨(), hok⟩⟩
    · intro _ normalized _ hnormalized
      rw [(normalizedZipPath_ok_iff.mp hnormalized).1, hr.trimmed]
  have htype : Agree (fun _ _ : Unit => True) (validateArtifactZipType r.unixMode r.isDir)
      (validateZipType e.unixMode e.isDir e.isSymlink) := by
    rw [hr.isDir, hr.noLink]
    apply Agree.of_iff
    · exact ⟨fun ⟨_, hok⟩ => ⟨(), hr.mode.mpr hok⟩, fun ⟨_, hok⟩ => ⟨(), hr.mode.mp hok⟩⟩
    · exact fun _ _ _ _ => trivial
  have hcounted : failIf (clientLimits.maxFiles < saturatingAdd p.entryCount 1)
      (.tooManyEntries clientLimits.maxFiles) = .ok () := failIf_eq_ok.mpr hcount
  have hstart : Mirrors s { p with entryCount := saturatingAdd p.entryCount 1 } :=
    ⟨h.exact, h.folded, h.files, h.directories, h.declared, h.within, h.filesFolded,
      h.directoriesFolded⟩
  simp only [Listing.entry, Preflight.entry, hcounted]
  rw [← bind_assoc]
  refine hname.bind fun _ normalized hnormalized => ?_
  subst hnormalized
  refine htype.bind fun _ _ _ => (hstart.insertPath _).bind fun s p h => ?_
  refine (h.insertAncestors _ _).bind fun s p h => ?_
  cases hdir : r.isDir with
  | true =>
    have hentry : e.isDir = true := hr.isDir.trans hdir
    rw [if_pos hentry, if_pos rfl, ← bind_pure (p.insertDirectory _)]
    exact (h.insertDirectory _).bind fun s p h => h.bounded
  | false =>
    have hentry : ¬ e.isDir = true := by
      rw [hr.isDir]
      simp [hdir]
    rw [if_neg hentry, if_neg (by simp)]
    exact h.insertFile hr _

/-- What the client has accepted when it starts to extract. -/
structure Accepted (records : List Record) : Prop where
  names : rejectDuplicateZipEntries [] records = .ok ()
  count : records.length ≤ maxFiles
  listed : ∃ s, records.foldlM Listing.entry {} = .ok s

variable {records : List Record}

theorem list_ok_iff_of_represents {es : List Entry} (hcount : records.length ≤ maxFiles)
    (hpaired : List.Forall₂ (fun r e => Represents e r) records es) :
    (∃ s, records.foldlM Listing.entry {} = .ok s) ↔ Acceptable clientLimits es := by
  have hlength : es.length < 2 ^ 64 := by
    rw [← hpaired.length_eq]
    unfold maxFiles at hcount
    omega
  have hempty : Mirrors {} {} := ⟨rfl, rfl, rfl, rfl, rfl, Nat.zero_le _, by simp, by simp⟩
  have hagree := Agree.foldlM (f := Listing.entry) (g := Preflight.entry clientLimits)
    (fun s p r e hmirrors hr => entry_agree hmirrors hr) hpaired hempty
  have hlinks : ∀ e ∈ es, e.isSymlink = true → e.unixMode ≠ none := by
    intro e he hlink
    obtain ⟨r, -, hr⟩ := forall₂_exists_left hpaired he
    simp [hr.noLink] at hlink
  rw [hagree.ok_iff]
  show (∃ t, accepts clientLimits es = .ok t) ↔ _
  rw [accepts_ok_iff hlength]
  exact ⟨fun h => h.1, fun h => ⟨h, hlinks⟩⟩

theorem list_ok_iff (hcount : records.length ≤ maxFiles) (hregular : ∀ r ∈ records, Regular r) :
    (∃ s, records.foldlM Listing.entry {} = .ok s) ↔
      Acceptable clientLimits (records.map Record.entry) := by
  refine list_ok_iff_of_represents hcount ?_
  rw [List.forall₂_map_right_iff, List.forall₂_same]
  exact fun r hr => (hregular r hr).represents

/-- What is accepted can be unpacked, whatever the reader makes of the content. -/
theorem Accepted.acceptable (h : Accepted records) :
    Acceptable clientLimits (records.map staged) := by
  refine (list_ok_iff_of_represents h.count ?_).mp h.listed
  rw [List.forall₂_map_right_iff, List.forall₂_same]
  exact fun r _ => represents_staged r

/-! ### The central directory -/

theorem rejectDuplicateZipEntries_ok_iff {names : List Text} :
    rejectDuplicateZipEntries names records = .ok () ↔
      (∀ r ∈ records, r.name ≠ [] ∧ r.name.length ≤ 4096) ∧
      (records.map Record.name).Nodup ∧ ∀ r ∈ records, r.name ∉ names := by
  induction records generalizing names with
  | nil => simp [rejectDuplicateZipEntries]
  | cons r rest ih =>
    simp only [rejectDuplicateZipEntries, bind_eq_ok, refuse_eq_ok, exists_const, ih]
    grind

end IndenturedServer.Artifacts.Download
