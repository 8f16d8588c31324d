import IndenturedServer.Artifacts.Listing

/-!
The scan of a downloaded archive before the ZIP reader sees it.

`reject_duplicate_zip_entries` looks for the end record itself: backwards from the
last place where one fits, for a signature whose comment ends where the file
ends. Then it goes over the central directory, header by header. It reads from
bytes that anybody may have sent, so an index behind the end of a slice and an
addition that overflows are results of the model like any other (`panicked`).
-/

namespace IndenturedServer.Artifacts.RawZip

open Foundation Source List

inductive ScanError
  /-- zip end record missing -/
  | endRecordMissing
  /-- multi-disk artifact ZIP is unsupported -/
  | multiDisk
  /-- ZIP64 artifact archives are unsupported -/
  | zip64
  /-- artifact ZIP central directory is out of bounds -/
  | outOfBounds
  /-- artifact ZIP central entry is invalid -/
  | invalidEntry
  /-- artifact ZIP entry name is empty or too long -/
  | nameLength
  /-- artifact archive contains duplicate paths -/
  | duplicatePaths
  /-- `read_exact` meets the end of the file. -/
  | unexpectedEof
  /-- A call on the system fails. -/
  | io
  deriving DecidableEq, Repr

inductive Halt
  | failed (error : ScanError)
  | panicked
  deriving DecidableEq, Repr

/-- The length of a file is an `off_t`. -/
structure ZipFile where
  content : Text
  fits : content.length < 2 ^ 63

/-- The open file: where it is read next, and the calls so far. -/
structure Handle where
  position : Nat := 0
  calls : Nat := 0
  deriving DecidableEq, Repr

abbrev Scan := EStateM Halt Handle

/-! ### Slices and numbers -/

def fail {α : Type} (error : ScanError) : Scan α :=
  throw (.failed error)

def index (bytes : Text) (i : Nat) : Scan UInt8 :=
  match bytes[i]? with
  | some byte => return byte
  | none => throw .panicked

/-- An addition in 64 bits. -/
def add (a b : Nat) : Scan Nat :=
  if a + b < 2 ^ 64 then return a + b else throw .panicked

def sub (a b : Nat) : Scan Nat :=
  if b ≤ a then return a - b else throw .panicked

/-- `from_le_bytes` of the bytes from an index on. -/
def leAt (bytes : Text) : Nat → Nat → Scan Nat
  | 0, _ => return 0
  | width + 1, i => do
      let byte ← index bytes i
      let next ← add i 1
      let rest ← leAt bytes width next
      return byte.toNat + 256 * rest

def u16At (bytes : Text) (i : Nat) : Scan Nat := leAt bytes 2 i

def u32At (bytes : Text) (i : Nat) : Scan Nat := leAt bytes 4 i

/-- `0x0605_4b50u32.to_le_bytes()` -/
def endSignature : Text := [0x50, 0x4b, 0x05, 0x06]

/-- `0x0201_4b50u32.to_le_bytes()` -/
def centralSignature : Text := [0x50, 0x4b, 0x01, 0x02]

/-! ### The file -/

section
variable (file : ZipFile) (fault : Nat → Bool)

def call : Scan Unit := fun h =>
  if fault h.calls then .error (.failed .io) { h with calls := h.calls + 1 }
  else .ok () { h with calls := h.calls + 1 }

def seek (position : Nat) : Scan Unit := do
  call fault
  modify fun h => { h with position := position }

def readExact (n : Nat) : Scan Text := do
  call fault
  let h ← get
  if h.position + n ≤ file.content.length then do
    modify fun h => { h with position := h.position + n }
    return (file.content.drop h.position).take n
  else fail .unexpectedEof

/-! ### The scan -/

/-- There is an end record at this index whose comment ends with the tail. -/
def isEnd (tail : Text) (i : Nat) : Scan Bool :=
  if tail.length < i then throw .panicked
  else if endSignature.isPrefixOf (tail.drop i) then do
    let recordEnd ← add i 22
    let comment ← u16At tail (← add i 20)
    let commentEnd ← add recordEnd comment
    return commentEnd == tail.length
  else return false

def findEnd (tail : Text) : List Nat → Scan Nat
  | [] => fail .endRecordMissing
  | i :: rest => do
      if ← isEnd tail i then return i else findEnd tail rest

/-- The central entries, and the names that have been met. -/
def readEntries : Nat → List Text → Scan Unit
  | 0, _ => return ()
  | entries + 1, names => do
      let header ← readExact file fault 46
      if header.take 4 ≠ centralSignature then fail .invalidEntry
      else do
        let nameLength ← u16At header 28
        let extraLength ← u16At header 30
        let commentLength ← u16At header 32
        if nameLength = 0 ∨ 4096 < nameLength then fail .nameLength
        else do
          let name ← readExact file fault nameLength
          if name ∈ names then fail .duplicatePaths
          else do
            let skipped ← add extraLength commentLength
            seek fault ((← get).position + skipped)
            readEntries entries (name :: names)

def rejectDuplicateZipEntries : Scan Unit := do
  call fault
  call fault
  let length := file.content.length
  let tailLength := min length 65557
  seek fault (length - tailLength)
  let tail ← readExact file fault tailLength
  let eocd ← findEnd tail (List.range (tail.length - 22 + 1)).reverse
  let disk ← u16At tail (← add eocd 4)
  let centralDisk ← u16At tail (← add eocd 6)
  let diskEntries ← u16At tail (← add eocd 8)
  let entries ← u16At tail (← add eocd 10)
  let centralSize ← u32At tail (← add eocd 12)
  let centralOffset ← u32At tail (← add eocd 16)
  if disk ≠ 0 ∨ centralDisk ≠ 0 ∨ diskEntries ≠ entries then fail .multiDisk
  else if entries = 2 ^ 16 - 1 ∨ centralSize = 2 ^ 32 - 1 ∨ centralOffset = 2 ^ 32 - 1 then
    fail .zip64
  else do
    let eocdAbsolute ← add (← sub length tailLength) eocd
    if eocdAbsolute < saturatingAdd centralOffset centralSize then fail .outOfBounds
    else do
      seek fault centralOffset
      readEntries file fault entries []

end

/-! ### What the bytes say -/

/-- The little-endian number at an offset. -/
def leValue (content : Text) : Nat → Nat → Nat
  | 0, _ => 0
  | width + 1, i => (content.getD i 0).toNat + 256 * leValue content width (i + 1)

/-- An end record whose comment ends with the file. -/
structure EndRecord (content : Text) (offset : Nat) : Prop where
  signature : endSignature.isPrefixOf (content.drop offset) = true
  comment : offset + 22 + leValue content 2 (offset + 20) = content.length

/-- Consecutive entries of a central directory, with their names. -/
inductive CentralEntries (content : Text) : Nat → List Text → Prop
  | nil (offset : Nat) : CentralEntries content offset []
  | cons {offset : Nat} {name : Text} {rest : List Text}
      (signature : (content.drop offset).take 4 = centralSignature)
      (nameLength : leValue content 2 (offset + 28) = name.length)
      (nameBytes : (content.drop (offset + 46)).take name.length = name)
      (others : CentralEntries content (offset + 46 + name.length +
        (leValue content 2 (offset + 30) + leValue content 2 (offset + 32))) rest) :
      CentralEntries content offset (name :: rest)

/-- What the scan is to establish. -/
def WellListed (content : Text) : Prop :=
  ∃ eocd, EndRecord content eocd ∧
    leValue content 4 (eocd + 16) + leValue content 4 (eocd + 12) ≤ eocd ∧
    ∃ names : List Text, names.length = leValue content 2 (eocd + 10) ∧
      CentralEntries content (leValue content 4 (eocd + 16)) names ∧ names.Nodup ∧
      ∀ name ∈ names, 1 ≤ name.length ∧ name.length ≤ 4096

theorem leValue_drop (content : Text) (k width i : Nat) :
    leValue (content.drop k) width i = leValue content width (k + i) := by
  induction width generalizing i with
  | zero => rfl
  | succ width ih =>
    have hbyte : (content.drop k).getD i 0 = content.getD (k + i) 0 := by simp
    rw [leValue, leValue, ih, hbyte, Nat.add_assoc]

variable {width i : Nat}

theorem leValue_take (content : Text) {n : Nat} (h : i + width ≤ n) :
    leValue (content.take n) width i = leValue content width i := by
  induction width generalizing i with
  | zero => rfl
  | succ width ih =>
    have hi : i < n := by omega
    have hbyte : (content.take n).getD i 0 = content.getD i 0 := by
      simp [hi]
    rw [leValue, leValue, ih (by omega), hbyte]

theorem leValue_lt (content : Text) (width i : Nat) : leValue content width i < 256 ^ width := by
  induction width generalizing i with
  | zero => simp [leValue]
  | succ width ih =>
    have hbyte := (content.getD i 0).toNat_lt
    have hrest := ih (i + 1)
    rw [leValue, Nat.pow_succ]
    omega

/-! ### Numbers are read without a panic -/

variable {a b : Nat}

theorem add_eq (h : a + b < 2 ^ 64) : add a b = pure (a + b) :=
  if_pos h

theorem leAt_eq (bytes : Text) (hbytes : bytes.length < 2 ^ 63) (h : i + width ≤ bytes.length) :
    leAt bytes width i = pure (leValue bytes width i) := by
  induction width generalizing i with
  | zero => rfl
  | succ width ih =>
    have hi : i < bytes.length := by omega
    have hindex : index bytes i = pure (bytes.getD i 0) := by
      simp [index, hi]
    rw [leAt, hindex, pure_bind, add_eq (by omega), pure_bind, ih (by omega), pure_bind]
    rfl

theorem sub_eq (h : b ≤ a) : sub a b = pure (a - b) :=
  if_pos h

variable {α : Type}

/-- A field of a record that lies within the bytes. -/
theorem field_bind {bytes : Text} (hbytes : bytes.length < 2 ^ 63) {start offset : Nat}
    (h : start + offset + width ≤ bytes.length) (f : Nat → Scan α) :
    (do
      let i ← add start offset
      let value ← leAt bytes width i
      f value) = f (leValue bytes width (start + offset)) := by
  rw [add_eq (by omega), pure_bind, leAt_eq bytes hbytes h, pure_bind]

/-! ### The scan ends with a result or an error -/

section
variable {file : ZipFile} {fault : Nat → Bool}

def Errs (halt : Halt) (_ : Handle) : Prop :=
  ∃ error, halt = .failed error

variable {P : Handle → Prop}

theorem fail_triple {Q : α → Handle → Prop} (error : ScanError) : Triple P (fail error) Q Errs :=
  Triple.throw fun _ _ => ⟨error, rfl⟩

theorem call_triple (position : Nat) :
    Triple (fun h => h.position = position) (call fault) (fun _ h => h.position = position)
      Errs := by
  intro h hposition
  show Ends _ _ (call fault h)
  unfold call
  split
  · exact ⟨.io, rfl⟩
  · exact hposition

theorem seek_triple (start position : Nat) :
    Triple (fun h => h.position = start) (seek fault position) (fun _ h => h.position = position)
      Errs :=
  (call_triple start).bind fun _ => Triple.modify fun _ _ => rfl

theorem readExact_triple (position n : Nat) :
    Triple (fun h => h.position = position) (readExact file fault n)
      (fun bytes h => (bytes = (file.content.drop position).take n ∧
        position + n ≤ file.content.length) ∧ h.position = position + n) Errs := by
  refine (call_triple position).bind fun _ => ?_
  refine Triple.bind (Q := fun h h' => h.position = position ∧ h'.position = position)
    (fun h hposition => ⟨hposition, hposition⟩) fun h => Triple.given fun hposition => ?_
  refine Triple.ite (fun hfits => ?_) fun _ => fail_triple _
  refine Triple.bind (Q := fun _ h => h.position = position + n)
    (Triple.modify fun h hh => by rw [hh]) fun _ => ?_
  refine Triple.pure fun h' hh' => ⟨⟨by rw [hposition], ?_⟩, hh'⟩
  rwa [hposition] at hfits

/-- The induction is on the number of entries; the directory starts where the
file is read next. -/
theorem readEntries_triple (entries : Nat) (names : List Text) (position : Nat) :
    Triple (fun h => h.position = position) (readEntries file fault entries names)
      (fun _ _ => ∃ more : List Text, more.length = entries ∧
        CentralEntries file.content position more ∧ more.Nodup ∧
        ∀ name ∈ more, (1 ≤ name.length ∧ name.length ≤ 4096) ∧ name ∉ names) Errs := by
  induction entries generalizing names position with
  | zero => exact Triple.pure fun _ _ => ⟨[], rfl, .nil _, nodup_nil, by simp⟩
  | succ entries ih =>
    refine (readExact_triple position 46).bind fun header => Triple.given fun hheader => ?_
    obtain ⟨hheader, hfits⟩ := hheader
    refine Triple.ite (fun _ => fail_triple _) fun hsignature => ?_
    have hlength : header.length = 46 := by
      rw [hheader, length_take, length_drop]
      omega
    have hfield (i : Nat) (hi : i + 2 ≤ 46) :
        u16At header i = pure (leValue file.content 2 (position + i)) := by
      rw [u16At, leAt_eq header (by omega) (by omega), hheader, leValue_take _ hi, leValue_drop]
    rw [hfield 28 (by omega), pure_bind, hfield 30 (by omega), pure_bind, hfield 32 (by omega),
      pure_bind]
    refine Triple.ite (fun _ => fail_triple _) fun hname => ?_
    refine (readExact_triple (position + 46) _).bind fun name => Triple.given fun hbytes => ?_
    refine Triple.ite (fun _ => fail_triple _) fun hfresh => ?_
    have hextra := leValue_lt file.content 2 (position + 30)
    have hcomment := leValue_lt file.content 2 (position + 32)
    rw [add_eq (by omega), pure_bind]
    have hnameLength : name.length = leValue file.content 2 (position + 28) := by
      rw [hbytes.1, length_take, length_drop]
      omega
    refine Triple.bind (Q := fun h h' => h.position = position + 46 + name.length ∧
        h'.position = position + 46 + name.length)
      (fun h hh => by rw [hnameLength]; exact ⟨hh, hh⟩) fun h => Triple.given fun hposition => ?_
    refine (seek_triple _ _).bind fun _ => (ih (name :: names) _).onReturn fun _ _ hmore => ?_
    obtain ⟨more, hcount, hentries, hnodup, hmore⟩ := hmore
    rw [hposition] at hentries
    refine ⟨name :: more, by rw [length_cons, hcount], .cons ?_ hnameLength.symm ?_ hentries,
      ?_, ?_⟩
    · rwa [hheader, take_take, Nat.min_eq_left (by omega), not_not] at hsignature
    · rw [hnameLength]
      exact hbytes.1.symm
    · exact nodup_cons.mpr ⟨fun hmem => (hmore name hmem).2 mem_cons_self, hnodup⟩
    · intro other hother
      obtain rfl | hother := mem_cons.mp hother
      · exact ⟨by omega, hfresh⟩
      · exact ⟨(hmore other hother).1, fun hmem => (hmore other hother).2 (.tail _ hmem)⟩

/-- An end record fits behind this index, or there is no signature at it. -/
def Readable (tail : Text) (i : Nat) : Prop :=
  i + 22 ≤ tail.length ∨ i ≤ tail.length ∧ endSignature.isPrefixOf (tail.drop i) = false

theorem isEnd_eq {tail : Text} (htail : tail.length < 2 ^ 63) (h : Readable tail i) :
    isEnd tail i = pure (endSignature.isPrefixOf (tail.drop i) &&
      i + 22 + leValue tail 2 (i + 20) == tail.length) := by
  have hle : ¬ tail.length < i := by
    obtain h | h := h <;> omega
  unfold isEnd
  rw [if_neg hle]
  split
  · next hsignature =>
    obtain h | h := h
    · have hcomment := leValue_lt tail 2 (i + 20)
      rw [add_eq (by omega), pure_bind, add_eq (by omega), pure_bind, u16At,
        leAt_eq tail htail (by omega), pure_bind, add_eq (by omega), pure_bind, hsignature,
        Bool.true_and]
    · rw [h.2] at hsignature
      cases hsignature
  · next hsignature => rw [eq_false_of_ne_true hsignature, Bool.false_and]

theorem findEnd_triple {tail : Text} (htail : tail.length < 2 ^ 63) (candidates : List Nat)
    (hreadable : ∀ i ∈ candidates, Readable tail i) :
    Triple P (findEnd tail candidates) (fun i h => EndRecord tail i ∧ P h) Errs := by
  induction candidates with
  | nil => exact fail_triple _
  | cons i rest ih =>
    rw [findEnd, isEnd_eq htail (hreadable i mem_cons_self), pure_bind]
    refine Triple.ite (fun hend => ?_) fun _ => ih fun j hj => hreadable j (.tail _ hj)
    obtain ⟨hsignature, hcomment⟩ := Bool.and_eq_true_iff.mp hend
    exact Triple.pure fun _ hh => ⟨⟨hsignature, eq_of_beq hcomment⟩, hh⟩

variable {k : Nat}

/-- The candidates are the places where an end record fits. A file that is too
short for one has the single candidate 0 all the same. -/
theorem readable_candidate {content : Text} (hk : k = content.length - min content.length 65557)
    (hsignature : 22 ≤ content.length ∨ endSignature.isPrefixOf content = false)
    (hi : i ∈ (range ((content.drop k).length - 22 + 1)).reverse) :
    Readable (content.drop k) i := by
  rw [mem_reverse, mem_range, length_drop] at hi
  by_cases hshort : content.length < 22
  · have hk0 : k = 0 := by omega
    have hi0 : i = 0 := by omega
    subst hk0 hi0
    exact .inr ⟨Nat.zero_le _, by simpa using hsignature.resolve_left (by omega)⟩
  · refine .inl ?_
    rw [length_drop]
    omega

theorem EndRecord.of_drop {content : Text} (hk : k ≤ content.length)
    (h : EndRecord (content.drop k) i) : EndRecord content (k + i) := by
  have hcomment := h.comment
  rw [leValue_drop, length_drop] at hcomment
  refine ⟨by simpa [drop_drop] using h.signature, ?_⟩
  rw [Nat.add_assoc k i 20]
  omega

theorem rejectDuplicateZipEntries_triple
    (hsignature : 22 ≤ file.content.length ∨ endSignature.isPrefixOf file.content = false) :
    Triple (fun h => h.position = 0) (rejectDuplicateZipEntries file fault)
      (fun _ _ => WellListed file.content) Errs := by
  have hlength := file.fits
  obtain ⟨k, hk⟩ : ∃ k, k = file.content.length - min file.content.length 65557 := ⟨_, rfl⟩
  refine (call_triple 0).bind fun _ => (call_triple 0).bind fun _ => ?_
  simp only [← hk]
  refine (seek_triple 0 k).bind fun _ => ?_
  refine (readExact_triple k _).bind fun tail => Triple.given fun htail => ?_
  have htail : tail = file.content.drop k := by
    rw [htail.1, take_of_length_le]
    rw [length_drop]
    omega
  subst htail
  have hshort : (file.content.drop k).length < 2 ^ 63 := by
    rw [length_drop]
    omega
  refine (findEnd_triple hshort _ fun i hi => readable_candidate hk hsignature hi).bind
    fun eocd => Triple.given fun hend => ?_
  have hinside : eocd + 22 ≤ (file.content.drop k).length := by
    have hcomment := hend.comment
    omega
  simp only [u16At, u32At]
  rw [field_bind hshort (by omega), field_bind hshort (by omega), field_bind hshort (by omega),
    field_bind hshort (by omega), field_bind hshort (by omega), field_bind hshort (by omega)]
  simp only [leValue_drop, ← Nat.add_assoc]
  refine Triple.ite (fun _ => fail_triple _) fun _ => ?_
  refine Triple.ite (fun _ => fail_triple _) fun _ => ?_
  rw [sub_eq (by omega), pure_bind, ← hk, add_eq (by rw [length_drop] at hinside; omega), pure_bind]
  refine Triple.ite (fun _ => fail_triple _) fun hbounds => ?_
  refine (seek_triple _ _).bind fun _ => (readEntries_triple _ [] _).onReturn fun _ _ hnames => ?_
  obtain ⟨names, hcount, hentries, hnodup, hbetween⟩ := hnames
  refine ⟨k + eocd, hend.of_drop (by omega), ?_, names, hcount, hentries, hnodup,
    fun name hname => (hbetween name hname).1⟩
  unfold saturatingAdd at hbounds
  omega

end

/-- The names of a central directory that was scanned pass the check on the names
of its records, which is how the extraction has it. -/
theorem WellListed.accepted {content : Text} (h : WellListed content) :
    ∃ eocd names, EndRecord content eocd ∧
      CentralEntries content (leValue content 4 (eocd + 16)) names ∧
      ∀ records : List Record, records.map Record.name = names →
        Download.rejectDuplicateZipEntries [] records = .ok () := by
  obtain ⟨eocd, hend, -, names, -, hentries, hnodup, hlengths⟩ := h
  refine ⟨eocd, names, hend, hentries, fun records hnames => ?_⟩
  rw [Download.rejectDuplicateZipEntries_ok_iff, hnames]
  refine ⟨fun r hr => ?_, hnodup, by simp⟩
  have hlength := hlengths r.name (hnames ▸ mem_map_of_mem hr)
  exact ⟨fun hnil => by simp [hnil] at hlength, hlength.2⟩

/-- An archive with one entry, `a`, and nothing but its central directory. -/
def oneEntry : ZipFile where
  content :=
    centralSignature ++ List.replicate 24 0 ++ [1, 0] ++ List.replicate 16 0 ++ [0x61] ++
      (endSignature ++ [0, 0, 0, 0, 1, 0, 1, 0, 47, 0, 0, 0, 0, 0, 0, 0, 0, 0])
  fits := by decide

/-- The signature alone is a file that the scan takes for the start of an end
record. -/
def bareSignature : ZipFile where
  content := endSignature
  fits := by decide

end IndenturedServer.Artifacts.RawZip
