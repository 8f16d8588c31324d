import IndenturedServer.Artifacts.Collect

/-!
The writer that keeps an archive within its limit.

The ZIP writer goes back in the file to complete the header of an entry.
`LimitedWriter` counts what is written there once more, so that its count is no
less than the length of the file. `collect_artifacts_zip` compares the count of
all that has been written with the limit; the writer itself fails at the first
write that goes beyond it, which is the same.
-/

namespace IndenturedServer.Artifacts

open Foundation Source

inductive WriterCall
  | write (length : Nat)
  | seek (position : Nat)
  deriving DecidableEq, Repr

/-- The writer, with position and length of its file. -/
structure LimitedWriter where
  position : Nat := 0
  length : Nat := 0
  bytesWritten : Nat := 0
  deriving DecidableEq, Repr

variable {w : LimitedWriter}

namespace LimitedWriter

/-- A call that is let through. -/
def apply (w : LimitedWriter) : WriterCall → LimitedWriter
  | .write n => ⟨w.position + n, max w.length (w.position + n), saturatingAdd w.bytesWritten n⟩
  | .seek position => { w with position := position }

def call (maxBytes : Nat) (w : LimitedWriter) (c : WriterCall) : Option LimitedWriter :=
  match c with
  | .write n => if maxBytes < saturatingAdd w.bytesWritten n then none else some (w.apply c)
  | .seek _ => some (w.apply c)

def run (calls : List WriterCall) : LimitedWriter :=
  calls.foldl apply {}

/-- No call leaves the file. -/
def Stays : LimitedWriter → List WriterCall → Prop
  | _, [] => True
  | w, .write n :: rest => Stays (w.apply (.write n)) rest
  | w, .seek position :: rest => position ≤ w.length ∧ Stays (w.apply (.seek position)) rest

variable {maxBytes : Nat}

theorem bytesWritten_le_apply (hw : w.bytesWritten ≤ 2 ^ 64 - 1) (c : WriterCall) :
    w.bytesWritten ≤ (w.apply c).bytesWritten := by
  cases c with
  | write n =>
    show w.bytesWritten ≤ min (w.bytesWritten + n) (2 ^ 64 - 1)
    omega
  | seek position => exact Nat.le_refl _

theorem apply_bytesWritten_le (w : LimitedWriter) (hw : w.bytesWritten ≤ 2 ^ 64 - 1)
    (c : WriterCall) : (w.apply c).bytesWritten ≤ 2 ^ 64 - 1 := by
  cases c with
  | write n => exact Nat.min_le_right _ _
  | seek position => exact hw

theorem bytesWritten_le_foldl (calls : List WriterCall) :
    ∀ w : LimitedWriter, w.bytesWritten ≤ 2 ^ 64 - 1 →
      w.bytesWritten ≤ (calls.foldl apply w).bytesWritten := by
  induction calls with
  | nil => exact fun w _ => Nat.le_refl _
  | cons c calls ih =>
    intro w hw
    exact (bytesWritten_le_apply hw c).trans (ih _ (w.apply_bytesWritten_le hw c))

/-- The writer lets everything through exactly if the count stays within the
limit to the end. -/
theorem foldlM_call_iff (calls : List WriterCall) :
    ∀ w w' : LimitedWriter, w.bytesWritten ≤ maxBytes → w.bytesWritten ≤ 2 ^ 64 - 1 →
      (calls.foldlM (call maxBytes) w = some w' ↔
        calls.foldl apply w = w' ∧ w'.bytesWritten ≤ maxBytes) := by
  induction calls with
  | nil =>
    intro w w' hw _
    constructor
    · rintro ⟨⟩
      exact ⟨rfl, hw⟩
    · rintro ⟨rfl, -⟩
      rfl
  | cons c calls ih =>
    intro w w' hw hmax
    have hnext := w.apply_bytesWritten_le hmax c
    rw [List.foldlM_cons, List.foldl_cons]
    cases hc : call maxBytes w c with
    | none =>
      -- only a write beyond the limit is refused, and the count does not go back
      have hover : maxBytes < (w.apply c).bytesWritten := by
        cases c with
        | write n =>
          simp only [call] at hc
          split at hc
          · assumption
          · cases hc
        | seek position => cases hc
      constructor
      · nofun
      · rintro ⟨rfl, hle⟩
        have hgrows := bytesWritten_le_foldl calls _ hnext
        omega
    | some next =>
      obtain ⟨rfl, hle⟩ : next = w.apply c ∧ (w.apply c).bytesWritten ≤ maxBytes := by
        cases c with
        | write n =>
          simp only [call] at hc
          split at hc
          · cases hc
          · cases hc
            exact ⟨rfl, Nat.not_lt.mp ‹_›⟩
        | seek position =>
          cases hc
          exact ⟨rfl, hw⟩
      exact ih _ w' hle hnext

theorem length_le_bytesWritten (hmax : maxBytes < 2 ^ 64 - 1) (calls : List WriterCall) :
    ∀ w w' : LimitedWriter, w.Stays calls → w.position ≤ w.length → w.length ≤ w.bytesWritten →
      calls.foldlM (call maxBytes) w = some w' → w'.length ≤ w'.bytesWritten := by
  induction calls with
  | nil =>
    rintro w w' - - hlength ⟨⟩
    exact hlength
  | cons c calls ih =>
    intro w w' hstays hposition hlength hrun
    rw [List.foldlM_cons] at hrun
    cases c with
    | write n =>
      simp only [call] at hrun
      split at hrun
      · cases hrun
      · rename_i hle
        have hexact : saturatingAdd w.bytesWritten n = w.bytesWritten + n := by
          simp only [saturatingAdd] at hle ⊢
          omega
        refine ih _ w' hstays (Nat.le_max_right _ _) ?_ hrun
        show max w.length (w.position + n) ≤ saturatingAdd w.bytesWritten n
        omega
    | seek position => exact ih _ w' hstays.2 hstays.1 hlength hrun

end LimitedWriter

/-! ### Short writes -/

def largestOffset : Nat := 2 ^ 63 - 1

/-- A call with what the file below answers: how many bytes it takes, or that
it fails. -/
inductive WriterRequest
  | write (length : Nat) (answer : Option Nat)
  | seek (position : Nat) (succeeds : Bool)
  deriving DecidableEq, Repr

inductive WriterReply
  /-- transfer limit exceeded -/
  | refused
  | failed
  | written (length : Nat)
  | moved
  deriving DecidableEq, Repr

/-- The bytes that a call has brought into the file. -/
def WriterReply.bytes : WriterReply → Nat
  | .written length => length
  | _ => 0

namespace LimitedWriter

def serve (maxBytes : Option UInt64) (w : LimitedWriter) : WriterRequest → WriterReply × LimitedWriter
  | .write length answer =>
    if ∃ max ∈ maxBytes, max.toNat < saturatingAdd w.bytesWritten length then (.refused, w)
    else
      match answer with
      | none => (.failed, w)
      | some taken =>
        let written := min taken (min length (largestOffset - w.position))
        (.written written, w.apply (.write written))
  | .seek position succeeds =>
    if succeeds then (.moved, w.apply (.seek position)) else (.failed, w)

/-- The writer after some calls, and the bytes that have been written through
it. -/
def after (maxBytes : Option UInt64) : LimitedWriter × Nat → List WriterRequest → LimitedWriter × Nat :=
  List.foldl fun state request =>
    ((state.1.serve maxBytes request).2, state.2 + (state.1.serve maxBytes request).1.bytes)

/-- The seek ends in the file. -/
def Within (w : LimitedWriter) : WriterRequest → Prop
  | .write _ _ => True
  | .seek position _ => position ≤ w.length

def AllWithin (maxBytes : Option UInt64) : LimitedWriter → List WriterRequest → Prop
  | _, [] => True
  | w, request :: rest => w.Within request ∧ AllWithin maxBytes (w.serve maxBytes request).2 rest

/-- The count is that of the bytes written, and the file is no longer. -/
structure Counts (max : UInt64) (w : LimitedWriter) (written : Nat) : Prop where
  position : w.position ≤ w.length
  length : w.length ≤ written
  count : w.bytesWritten = min written (2 ^ 64 - 1)
  offset : w.length ≤ largestOffset
  limit : w.length ≤ max.toNat

variable {max : UInt64}

theorem Counts.serve {written : Nat} (h : Counts max w written) {request : WriterRequest}
    (hwithin : w.Within request) :
    Counts max (w.serve (some max) request).2 (written + (w.serve (some max) request).1.bytes) := by
  obtain ⟨hposition, hlength, hcount, hoffset, hlimit⟩ := h
  cases request with
  | seek position succeeds =>
    cases succeeds with
    | true => exact ⟨hwithin, hlength, hcount, hoffset, hlimit⟩
    | false => exact ⟨hposition, hlength, hcount, hoffset, hlimit⟩
  | write length answer =>
    simp only [LimitedWriter.serve, Option.mem_some_iff, exists_eq_left']
    split
    · exact ⟨hposition, hlength, hcount, hoffset, hlimit⟩
    · rename_i hfits
      simp only [saturatingAdd] at hfits
      cases answer with
      | none => exact ⟨hposition, hlength, hcount, hoffset, hlimit⟩
      | some taken =>
        -- a limit of 2 ^ 64 - 1 refuses nothing, and no file is as long
        simp only [apply, WriterReply.bytes, saturatingAdd, largestOffset] at hoffset ⊢
        constructor <;> simp only [largestOffset] <;> omega

theorem Counts.after (requests : List WriterRequest) :
    ∀ {w : LimitedWriter} {written : Nat}, Counts max w written → AllWithin (some max) w requests →
      Counts max (after (some max) (w, written) requests).1
        (after (some max) (w, written) requests).2 := by
  induction requests with
  | nil => exact fun h _ => h
  | cons request rest ih => exact fun h hwithin => ih (h.serve hwithin.1) hwithin.2

theorem refused_iff {maxBytes : Option UInt64} {length : Nat} {answer : Option Nat} :
    (w.serve maxBytes (.write length answer)).1 = .refused ↔
      ∃ max ∈ maxBytes, max.toNat < saturatingAdd w.bytesWritten length := by
  by_cases hover : ∃ max ∈ maxBytes, max.toNat < saturatingAdd w.bytesWritten length
  · simp only [serve, hover, if_true]
  · simp only [serve, hover, if_false, iff_false]
    cases answer <;> nofun

end LimitedWriter

/-- However the ZIP writer goes back and forth in the file, and however little
the file takes at a time: it does not get longer than the limit, and a write is
refused only if it would have brought the bytes written beyond it. -/
theorem transfer_limited (max : UInt64) (requests : List WriterRequest)
    (hwithin : LimitedWriter.AllWithin (some max) {} requests) :
    (LimitedWriter.after (some max) ({}, 0) requests).1.length ≤ max.toNat ∧
    ∀ length answer,
      ((LimitedWriter.after (some max) ({}, 0) requests).1.serve (some max)
        (.write length answer)).1 = .refused →
      max.toNat < (LimitedWriter.after (some max) ({}, 0) requests).2 + length := by
  have hstart : LimitedWriter.Counts max {} 0 :=
    ⟨Nat.le_refl 0, Nat.le_refl 0, rfl, Nat.zero_le _, Nat.zero_le _⟩
  have hcounts := hstart.after requests hwithin
  refine ⟨hcounts.limit, fun length answer hrefused => ?_⟩
  obtain ⟨limit, hlimit, hover⟩ := LimitedWriter.refused_iff.mp hrefused
  cases hlimit
  rw [hcounts.count, saturatingAdd] at hover
  omega

/-- A short write, and a header that is completed later: of the ten bytes that
are allowed nine have been written, and two more are refused. -/
theorem transfer_limited_patch :
    LimitedWriter.AllWithin (some 10) {}
      [.write 6 (some 4), .write 2 (some 2), .seek 1 true, .write 3 (some 3)] ∧
    (LimitedWriter.after (some 10) ({}, 0)
      [.write 6 (some 4), .write 2 (some 2), .seek 1 true, .write 3 (some 3)]) = (⟨4, 6, 9⟩, 9) ∧
    10 < 9 + 2 := by
  have hwithin : LimitedWriter.AllWithin (some 10) {}
      [.write 6 (some 4), .write 2 (some 2), .seek 1 true, .write 3 (some 3)] :=
    ⟨trivial, trivial, show 1 ≤ 6 by decide, trivial, trivial⟩
  exact ⟨hwithin, rfl, (transfer_limited 10 _ hwithin).2 2 none rfl⟩

/-- How the ZIP writer comes to the two sizes of an archive. -/
def CollectContext.WritesZip (s : CollectContext) : Prop :=
  ∀ files, ∃ calls, LimitedWriter.Stays {} calls ∧
    s.archiveSize files = (LimitedWriter.run calls).bytesWritten ∧
    s.archiveLength files = (LimitedWriter.run calls).length

/-- An archive that the writer does not refuse is no longer than the limit. -/
theorem CollectContext.WritesZip.archiveLength_le {s : CollectContext} (h : s.WritesZip)
    {files : List ArchivedFile} {maxBytes : Nat} (hmax : maxBytes < 2 ^ 64 - 1)
    (hsize : s.archiveSize files ≤ maxBytes) : s.archiveLength files ≤ maxBytes := by
  obtain ⟨calls, hstays, hwritten, hlength⟩ := h files
  have hrun : calls.foldlM (LimitedWriter.call maxBytes) {} = some (LimitedWriter.run calls) :=
    (LimitedWriter.foldlM_call_iff calls _ _ (Nat.zero_le _) (Nat.zero_le _)).mpr
      ⟨rfl, hwritten ▸ hsize⟩
  have hle := LimitedWriter.length_le_bytesWritten hmax calls _ _ hstays (Nat.le_refl 0)
    (Nat.le_refl 0) hrun
  omega

end IndenturedServer.Artifacts
